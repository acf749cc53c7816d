import Glowforge.Stream.Machine

/-!
# Glowforge — what the shipper leaves alone

Most invariants of the stream relate the shipper's cursors to what the other threads set. The
shipper reads the latter and never writes it; `quiet` collects it, and one walk over the
thread's steps shows that it stays:

* **`shipStep_quiet`** — no step of the shipper changes the `quiet` part of the state.
* **`shipStep_failed`** — no step of the shipper clears a fault.
* **`resetLocked_after`** — what a reset leaves of the marks that the threads go by.
-/

namespace Glowforge.Stream

/-- The part of the record that the shipper only reads. -/
structure QuietGf where
  active : Bool
  suspended : Bool
  fdOpen : Bool
  inherited : Bool
  rate : Nat
  depth : Nat
  base : Nat
  streaming : Bool
  killed : Bool
  killStep : StepByte
  zeros : Nat
  wantPower : UInt8
  wantFire : Bool
  jogging : Bool
  vticks : Nat
  periodLatched : Nat

def Gf.quiet (g : Gf) : QuietGf where
  active := g.active
  suspended := g.suspended
  fdOpen := g.fdOpen
  inherited := g.inherited
  rate := g.rate
  depth := g.depth
  base := g.base
  streaming := g.streaming
  killed := g.killed
  killStep := g.killStep
  zeros := g.zeros
  wantPower := g.wantPower
  wantFire := g.wantFire
  jogging := g.jogging
  vticks := g.vticks
  periodLatched := g.periodLatched

/-- The part of the state that the shipper only reads. -/
structure Quiet where
  gf : QuietGf
  laserArmed : Bool
  fireGate : Bool
  armed : Bool
  entered : List Call
  proto : List Owed

def State.quiet (s : State) : Quiet where
  gf := s.gf.quiet
  laserArmed := s.laserArmed
  fireGate := s.fireGate
  armed := s.armed
  entered := s.entered
  proto := s.proto

/-- What a step of the shipper puts into the ring. -/
def landed (s t : State) : List UInt8 := t.kernel.ring.drop s.kernel.ring.length

/-! ## The dose model's counts

`dither_tick` writes three counts of the record and reads the level and its own parameters beside them,
so a change of the record elsewhere can be made before it or behind it. -/

/-- The record with other counts of the dose model. -/
def Gf.dosed (g : Gf) (left on acc : UInt32) : Gf := { g with dithLeft := left, dithOn := on, dithAcc := acc }

/-- The start of a period, by the counts it leaves. -/
theorem ditherPeriod_dosed (g : Gf) :
    let want := g.curPower.toUInt32 * g.dithPeriod + g.dithAcc
    let most := want / gfPwmPeriod.toUInt32
    let on := if most > g.dithPeriod then g.dithPeriod else most
    ditherPeriod g = if most < g.dithMin then g.dosed g.dithPeriod 0 want
      else g.dosed g.dithPeriod on (want - on * gfPwmPeriod.toUInt32) := rfl

/-- A tick of the dose model, by the counts it leaves. -/
theorem ditherTick_dosed (g : Gf) :
    let r := if g.dithLeft = 0 then ditherPeriod g else g
    ditherTick g = if r.dithOn ≠ 0 then (r.dosed (r.dithLeft - 1) (r.dithOn - 1) r.dithAcc, true)
      else (r.dosed (r.dithLeft - 1) r.dithOn r.dithAcc, false) := rfl

/-- The record `r` is `g` but for the dose model's counts. -/
def Gf.Dithered (g r : Gf) : Prop := r = g.dosed r.dithLeft r.dithOn r.dithAcc

/-- What does not read the counts is the same in `r`. -/
theorem Gf.Dithered.frame {β : Sort _} {g r : Gf} (h : g.Dithered r) (f : Gf → β)
    (hf : f (g.dosed r.dithLeft r.dithOn r.dithAcc) = f g) : f r = f g := (congrArg f h).trans hf

theorem ditherPeriod_dithered (g : Gf) : g.Dithered (ditherPeriod g) := by
  rw [ditherPeriod_dosed]
  split <;> rfl

theorem ditherTick_dithered (g : Gf) : g.Dithered (ditherTick g).1 := by
  have hperiod : g.Dithered (if g.dithLeft = 0 then ditherPeriod g else g) := by
    split
    · exact ditherPeriod_dithered g
    · rfl
  rw [ditherTick_dosed]
  generalize (if g.dithLeft = 0 then ditherPeriod g else g) = r at hperiod
  unfold Gf.Dithered at *
  split <;> rw [hperiod] <;> rfl

/-- The fire decision writes the dose model's counts and nothing else. -/
theorem tickFire_dithered (gate : Bool) (g : Gf) : g.Dithered (tickFire gate g).1 := by
  simp only [tickFire]
  split_ifs
  · rfl
  · exact ditherTick_dithered g
  · rfl

/-- A change of the record that the dose model neither reads nor undoes. -/
structure Undithered (f : Gf → Gf) : Prop where
  power : ∀ g, (f g).curPower = g.curPower
  period : ∀ g, (f g).dithPeriod = g.dithPeriod
  minimum : ∀ g, (f g).dithMin = g.dithMin
  left : ∀ g, (f g).dithLeft = g.dithLeft
  on : ∀ g, (f g).dithOn = g.dithOn
  acc : ∀ g, (f g).dithAcc = g.dithAcc
  writes : ∀ g left on acc, (f g).dosed left on acc = f (g.dosed left on acc)

namespace Undithered

variable {f : Gf → Gf}

theorem atPeriod (h : Undithered f) (g : Gf) : ditherPeriod (f g) = f (ditherPeriod g) := by
  rw [ditherPeriod_dosed, ditherPeriod_dosed, h.power, h.period, h.minimum, h.acc]
  split
  · exact h.writes g _ _ _
  · exact h.writes g _ _ _

theorem atTick (h : Undithered f) (g : Gf) : ditherTick (f g) = (f (ditherTick g).1, (ditherTick g).2) := by
  have hperiod : (if (f g).dithLeft = 0 then ditherPeriod (f g) else f g) =
      f (if g.dithLeft = 0 then ditherPeriod g else g) := by
    rw [h.left, h.atPeriod]
    split <;> rfl
  rw [ditherTick_dosed, ditherTick_dosed, hperiod]
  generalize (if g.dithLeft = 0 then ditherPeriod g else g) = r
  simp only [h.left, h.on, h.acc, h.writes]
  split <;> rfl

/-- **The change and the fire decision commute** where both read one request, or the gate is closed. -/
theorem atFire (h : Undithered f) {gate : Bool} {g : Gf} (hfire : gate = false ∨ (f g).curFire = g.curFire) :
    tickFire gate (f g) = (f (tickFire gate g).1, (tickFire gate g).2) := by
  rcases hfire with rfl | hfire
  · simp only [tickFire, Bool.and_false, Bool.false_eq_true, if_false]
  · simp only [tickFire, hfire, h.period]
    split
    · split
      · rfl
      · exact h.atTick g
    · rfl

end Undithered

/-! ## A pulse

A step writes its slot and the end of what is produced, the margin and the clamps it counts, and the
fault of one that has no room. -/

/-- The record `r` is `g` but for what a pulse writes. -/
def Gf.Pulsed (g r : Gf) : Prop :=
  r = { g with
    ring := r.ring, produced := r.produced, failed := r.failed
    minMargin := r.minMargin, clamped := r.clamped }

/-- What does not read those fields is the same in `r`. -/
theorem Gf.Pulsed.frame {β : Sort _} {g r : Gf} (h : g.Pulsed r) (f : Gf → β)
    (hf : f { g with
      ring := r.ring, produced := r.produced, failed := r.failed
      minMargin := r.minMargin, clamped := r.clamped } = f g) : f r = f g :=
  (congrArg f h).trans hf

theorem Gf.Pulsed.trans {g h r : Gf} (h1 : g.Pulsed h) (h2 : h.Pulsed r) : g.Pulsed r := by
  unfold Gf.Pulsed at *
  calc r = _ := h2
    _ = _ := by rw [h1]

theorem pulsePlace_pulsed (b : StepByte) (idx : Nat) (s : State) : s.gf.Pulsed (pulsePlace b idx s).gf := by
  simp only [pulsePlace]
  generalize (if idx < s.gf.produced then s.gf.produced else idx) = i
  split <;> rfl

theorem pulseLocked_pulsed (b : StepByte) (s : State) : s.gf.Pulsed (pulseLocked b s).gf := by
  have hmargin : s.gf.Pulsed (noteMargin s).gf := rfl
  have hclamp : s.gf.Pulsed (clampLocked (noteMargin s)).2.gf := rfl
  simp only [pulseLocked, pulseAt]
  split_ifs
  · exact hclamp
  · exact hclamp.trans (pulsePlace_pulsed b _ _)
  · exact hmargin.trans (pulsePlace_pulsed b _ _)
  · rfl

/-! ## The tick loop

A round of the shipper builds a chunk tick by tick. All that it writes of the record is the ring,
`shipped`, the queue, and the fire and dither state. -/

/-- The record `r` is `g` but for what the tick loop writes: the ring and the cursor, the
transitions and the laser state in force, and the dose model's counts. -/
def Gf.Ticked (g r : Gf) : Prop :=
  r = { g with
    ring := r.ring, shipped := r.shipped, lev := r.lev, curPower := r.curPower
    curFire := r.curFire, lastLit := r.lastLit, powerSent := r.powerSent
    dithLeft := r.dithLeft, dithOn := r.dithOn, dithAcc := r.dithAcc }

/-- What does not read those fields is the same in `r`. -/
theorem Gf.Ticked.frame {β : Sort _} {g r : Gf} (h : g.Ticked r) (f : Gf → β)
    (hf : f { g with
      ring := r.ring, shipped := r.shipped, lev := r.lev, curPower := r.curPower
      curFire := r.curFire, lastLit := r.lastLit, powerSent := r.powerSent
      dithLeft := r.dithLeft, dithOn := r.dithOn, dithAcc := r.dithAcc } = f g) : f r = f g :=
  (congrArg f h).trans hf

theorem Gf.Ticked.refl (g : Gf) : g.Ticked g := rfl

/-- Two runs of the loop are one. -/
theorem Gf.Ticked.trans {g h r : Gf} (h1 : g.Ticked h) (h2 : h.Ticked r) : g.Ticked r := by
  unfold Gf.Ticked at *
  calc r = _ := h2
    _ = _ := by rw [h1]

theorem tickLaser_ticked (g : Gf) : g.Ticked (tickLaser g).1 := by
  simp only [tickLaser]
  split <;> rfl

theorem tickPower_ticked (g : Gf) (p : UInt8) (d : Bool) : g.Ticked (tickPower g p d).1 := by
  simp only [tickPower]
  split_ifs <;> rfl

theorem tickFire_ticked (gate : Bool) (g : Gf) : g.Ticked (tickFire gate g).1 := by
  unfold Gf.Ticked
  rw [tickFire_dithered gate g]
  rfl

theorem tickByte_ticked (gate : Bool) (g : Gf) : g.Ticked (tickByte gate g).1 := by
  have hslot : g.Ticked { g with ring := Function.update g.ring (slot g.shipped) 0 } := rfl
  refine (hslot.trans (tickFire_ticked gate _)).trans ?_
  rfl

theorem shipTick_ticked (gate : Bool) (g : Gf) : g.Ticked (shipTick gate g).1 :=
  ((tickLaser_ticked g).trans (tickPower_ticked _ _ _)).trans (tickByte_ticked gate _)

/-- The loop over a chunk, by induction on the fuel: each tick is one of `shipTick_ticked`. -/
theorem buildTicks_ticked (gate : Bool) (due : Nat) (streaming : Bool) (fuel : Nat) (g : Gf)
    (chunk : List UInt8) : g.Ticked (buildTicks gate due streaming fuel g chunk).1 := by
  induction fuel generalizing g chunk with
  | zero => exact .refl g
  | succ fuel ih =>
    simp only [buildTicks]
    split
    · exact (shipTick_ticked gate g).trans (ih _ _)
    · exact .refl g

/-- The head of the loop decides where the thread goes next, and changes nothing that others wait
for. -/
theorem shipLoop_quiet (p : Pass) (streaming : Bool) (s : State) :
    (shipLoop p streaming s).quiet = s.quiet := by
  simp only [shipLoop]
  split
  · have h : (buildTicks p.gate p.due streaming shipChunk s.gf []).1.quiet = s.gf.quiet :=
      (buildTicks_ticked p.gate p.due streaming shipChunk s.gf []).frame Gf.quiet rfl
    exact congrArg (fun q => { s.quiet with gf := q }) h
  · rfl

/-! ## The thread

What one step of the shipping thread leaves alone: the locks and flags of other threads, the ones
that only calls write, and the failure once it is there. -/

/-- A reading that succeeds is the kernel's state. -/
theorem readState_eq {e : Env} {s : State} {k : KernelState} (h : readState e s = some k) :
    s.kernel.state = k := by
  simp only [readState] at h
  split at h
  · exact Option.some.inj h
  · cases h


theorem shipBody_quiet (e : Env) (gate : Bool) (s : State) :
    (shipBody e gate s).quiet = s.quiet := by
  have hedge : State.quiet { s with gf := gateEdge gate s.gf } = s.quiet := by
    simp only [gateEdge]
    split_ifs <;> rfl
  have hend : ∀ s, (endStream e s).quiet = s.quiet := by
    intro s
    simp only [endStream, endPad]
    split_ifs <;> rfl
  have hhold : ∀ s, (pollHold e s).quiet = s.quiet := by
    intro s
    simp only [pollHold]
    split_ifs <;> rfl
  rw [← hedge]
  simp only [shipBody, shipGated]
  split
  · exact (hhold _).trans (hend _)
  · split
    · rfl
    · exact shipLoop_quiet _ _ _

/-- The record `r` is `g` but for what the end of a clear writes. -/
def Gf.Settled (g r : Gf) : Prop :=
  r = { g with
    unplayed := r.unplayed, readback := r.readback, baseSteps := r.baseSteps
    baseCounts := r.baseCounts, baseValid := r.baseValid, written := r.written
    clearPending := r.clearPending, runPending := r.runPending, kernelRunning := r.kernelRunning
    powerSent := r.powerSent, dithLeft := r.dithLeft, dithOn := r.dithOn, dithAcc := r.dithAcc }

theorem Gf.Settled.frame {β : Sort _} {g r : Gf} (h : g.Settled r) (f : Gf → β)
    (hf : f { g with
      unplayed := r.unplayed, readback := r.readback, baseSteps := r.baseSteps
      baseCounts := r.baseCounts, baseValid := r.baseValid, written := r.written
      clearPending := r.clearPending, runPending := r.runPending, kernelRunning := r.kernelRunning
      powerSent := r.powerSent, dithLeft := r.dithLeft, dithOn := r.dithOn
      dithAcc := r.dithAcc } = f g) : f r = f g :=
  (congrArg f h).trans hf

theorem Gf.Settled.trans {g h r : Gf} (h1 : g.Settled h) (h2 : h.Settled r) : g.Settled r := by
  unfold Gf.Settled at *
  calc r = _ := h2
    _ = _ := by rw [h1]

/-- The acknowledgment of a pending operation settles the read-back and its base, and drops the
flags that asked for it. -/
theorem pendingDone_settled (cleared : Bool) (counts : Option Steps) (zeros : Nat) (s : State) :
    s.gf.Settled (pendingDone cleared counts zeros s).gf := by
  have hread : ∀ counts stale (g : Gf), g.Settled (settleReadback counts stale g) := by
    intro counts stale g
    simp only [settleReadback]
    split
    · split <;> rfl
    · rfl
  have hbase : ∀ counts stale (g : Gf), g.Settled (settleBase counts stale g) := by
    intro counts stale g
    simp only [settleBase]
    split
    · rfl
    · split <;> rfl
  have hrun : ∀ g : Gf, g.Settled (settleRun cleared g) := fun _ => rfl
  exact ((hread _ _ _).trans (hbase _ _ _)).trans (hrun _)

/-- **The shipper's frame.** One walk over the points of the thread, for the fields that it reads
and never writes. -/
theorem shipStep_quiet (e : Env) (s : State) : (shipStep e s).quiet = s.quiet := by
  unfold shipStep
  split
  case h_1 => simp only [pendingSnapshot, resetPad]; split_ifs <;> rfl
  case h_3 => simp only [pendingSeek]; split_ifs <;> rfl
  case h_5 cleared counts zeros _ =>
    exact congrArg (fun q => { s.quiet with gf := q })
      ((pendingDone_settled cleared counts zeros s).frame Gf.quiet rfl)
  case h_6 => simp only [pendingOurs]; split_ifs <;> rfl
  case h_7 => simp only [shipLock, faultPad]; split_ifs <;> rfl
  case h_8 => exact shipBody_quiet _ _ _
  case h_9 => simp only [shipWrite]; split <;> (try split_ifs) <;> rfl
  case h_10 =>
    simp only [shipWrote, shipNext]
    split_ifs
    · rfl
    · exact shipLoop_quiet _ _ _
    · rfl
  case h_15 => simp only [issueRelight]; split_ifs <;> rfl
  case h_20 => simp only [issueEnd]; split_ifs <;> rfl
  case h_23 => simp only [shipRc]; split_ifs <;> rfl
  all_goals rfl

/-- The run start and `check_kernel_state`. -/
def ShipPc.tail : ShipPc → Bool
  | .runTest _ _ _ | .gateState _ _ | .gateCounts _ _ | .gateFault | .runLatch | .runWrite _ _
  | .runState _ _ _ | .runStop _ | .runFault _ _ | .runEnd _ _ | .latchFault | .latchFail
  | .runRc _ | .check | .checkState | .checkFault | .raise _ => true
  | _ => false

/-- The tail of a pass faults the stream or keeps its request, and moves the kernel's state. -/
structure TailStep (s t : State) : Prop where
  gf : t.gf = { s.gf with failed := t.gf.failed, runPending := t.gf.runPending }
  kernel : t.kernel = { s.kernel with state := t.kernel.state, stopping := t.kernel.stopping }

theorem TailStep.frame {β : Sort _} {s t : State} (h : TailStep s t) (f : Gf → Kernel → β)
    (hf : f { s.gf with failed := t.gf.failed, runPending := t.gf.runPending }
      { s.kernel with state := t.kernel.state, stopping := t.kernel.stopping } = f s.gf s.kernel) :
    f t.gf t.kernel = f s.gf s.kernel := by
  rw [← hf, ← h.gf, ← h.kernel]

/-- A step that leaves both the record and the kernel is a step of the tail. -/
theorem TailStep.same {s t : State} (hgf : t.gf = s.gf) (hkernel : t.kernel = s.kernel) :
    TailStep s t := by
  refine ⟨?_, ?_⟩
  · rw [hgf]
  · rw [hkernel]

/-- A stop ends what the kernel plays, and keeps its counts and its ring. -/
theorem Kernel.stop_frame (k : Kernel) :
    k.stop = { k with state := k.stop.state, stopping := k.stop.stopping } := by
  simp only [Kernel.stop]
  split <;> rfl

theorem Kernel.run_frame (k : Kernel) (r : RunReply) :
    k.run r = { k with state := (k.run r).state, stopping := (k.run r).stopping } := by
  cases r <;> rfl

/-- Behind the last chunk of a pass the thread can fail, or ask for the run, and no more. -/
theorem shipStep_tail {e : Env} {s : State} (h : s.pc.tail = true) : TailStep s (shipStep e s) := by
  unfold shipStep
  cases hpc : s.pc with (rw [hpc] at h)
  | runLatch =>
    simp only [issueRelight]
    split_ifs <;> exact .same rfl rfl
  | runWrite relight retried => exact ⟨rfl, Kernel.run_frame _ _⟩
  | runStop relight => exact ⟨rfl, Kernel.stop_frame _⟩
  | runFault relight stop =>
    refine ⟨rfl, ?_⟩
    cases stop with
    | true => exact Kernel.stop_frame _
    | false => rfl
  | runEnd relight rc =>
    simp only [issueEnd]
    split <;> exact .same rfl rfl
  | runRc rc =>
    simp only [shipRc, exchangeFailed]
    split_ifs <;> exact ⟨rfl, rfl⟩
  | _ => first | exact ⟨rfl, rfl⟩ | cases h

/-- The tail of a pass goes on, or back to the beginning of the loop or of the pass. -/
theorem shipStep_tail_pc {e : Env} {s : State} (h : s.pc.tail = true) :
    (shipStep e s).pc.tail = true ∨ (shipStep e s).pc = .top ∨ (shipStep e s).pc = .lock := by
  unfold shipStep
  cases hpc : s.pc with (rw [hpc] at h)
  | runTest startRun base written =>
    simp only [runTest]
    split <;> exact .inl rfl
  | gateState base written =>
    simp only [runGateState]
    split <;> exact .inl rfl
  | gateCounts base written =>
    simp only [runGateCounts]
    split <;> exact .inl rfl
  | runLatch =>
    simp only [issueRelight]
    split_ifs <;> exact .inl rfl
  | runWrite relight retried =>
    simp only [issueWrite]
    split <;> exact .inl rfl
  | runState relight retried noData =>
    simp only [issueState]
    split
    case h_1 => split <;> exact .inl rfl
    case h_3 => split <;> exact .inl rfl
    all_goals exact .inl rfl
  | runStop relight => exact .inl rfl
  | runFault relight stop =>
    simp only [issueFault, exchangeFailed]
    split <;> exact .inl rfl
  | runEnd relight rc =>
    simp only [issueEnd]
    split <;> exact .inl rfl
  | latchFault =>
    simp only [latchFaultRecord]
    split <;> exact .inl rfl
  | runRc rc =>
    simp only [shipRc, exchangeFailed]
    split_ifs <;> exact .inl rfl
  | check =>
    simp only [checkSnapshot]
    split <;> simp [ShipPc.tail]
  | checkState =>
    simp only [checkState]
    split <;> simp [ShipPc.tail]
  | gateFault =>
    simp only [exchangeFailed]
    split <;> exact .inl rfl
  | checkFault =>
    simp only [exchangeFailed]
    split
    · exact .inr (.inl rfl)
    · exact .inl rfl
  | latchFail => exact .inl rfl
  | raise next => cases next <;> simp [Raised.pc, ShipPc.tail]
  | _ => cases h

theorem shipStep_proto (e : Env) (s : State) : (shipStep e s).proto = s.proto :=
  congrArg Quiet.proto (shipStep_quiet e s)

theorem shipStep_entered (e : Env) (s : State) : (shipStep e s).entered = s.entered :=
  congrArg Quiet.entered (shipStep_quiet e s)

theorem shipStep_active (e : Env) (s : State) : (shipStep e s).gf.active = s.gf.active :=
  congrArg (·.gf.active) (shipStep_quiet e s)

theorem shipStep_suspended (e : Env) (s : State) : (shipStep e s).gf.suspended = s.gf.suspended :=
  congrArg (·.gf.suspended) (shipStep_quiet e s)

theorem shipLoop_failed (p : Pass) (streaming : Bool) (s : State) :
    (shipLoop p streaming s).gf.failed = s.gf.failed := by
  simp only [shipLoop]
  split
  · exact (buildTicks_ticked p.gate p.due streaming shipChunk s.gf []).frame Gf.failed rfl
  · rfl

theorem shipBody_failed (e : Env) (gate : Bool) (s : State) :
    (shipBody e gate s).gf.failed = s.gf.failed := by
  have hedge : (gateEdge gate s.gf).failed = s.gf.failed := by
    simp only [gateEdge]
    split_ifs <;> rfl
  have hend : ∀ s, (pollHold e (endStream e s)).gf.failed = s.gf.failed := by
    intro s
    simp only [pollHold, endStream, endPad]
    split_ifs <;> rfl
  rw [← hedge]
  simp only [shipBody, shipGated]
  split
  · exact hend _
  · split
    · rfl
    · exact shipLoop_failed _ _ _

/-- A fault stays: only the reset acknowledges it, and a takeover. -/
theorem shipStep_failed (e : Env) (s : State) (h : s.gf.failed = true) :
    (shipStep e s).gf.failed = true := by
  unfold shipStep
  split
  case h_1 => simp only [pendingSnapshot, resetPad]; split_ifs <;> exact h
  case h_3 => simp only [pendingSeek]; split_ifs <;> exact h
  case h_5 cleared counts zeros _ =>
    exact ((pendingDone_settled cleared counts zeros s).frame Gf.failed rfl).trans h
  case h_6 => simp only [pendingOurs]; split_ifs <;> first | exact h | rfl
  case h_7 => simp only [shipLock, faultPad]; split_ifs <;> exact h
  case h_8 => exact (shipBody_failed _ _ _).trans h
  case h_9 => simp only [shipWrite]; split <;> (try split_ifs) <;> exact h
  case h_10 =>
    simp only [shipWrote, shipNext]
    split_ifs
    · exact h
    · exact (shipLoop_failed _ _ _).trans h
    · rfl
  case h_15 => simp only [issueRelight]; split_ifs <;> exact h
  case h_20 => simp only [issueEnd]; split_ifs <;> exact h
  case h_23 => simp only [shipRc]; split_ifs <;> first | exact h | rfl
  all_goals first | exact h | rfl

/-! ## The other threads

The same for the calls. A call under the lock writes the record and, where it finds a fault, stops the
kernel; all that the threads keep elsewhere stays. -/

/-- What the producer's calls only read. -/
structure Outer where
  laserArmed : Bool
  fireGate : Bool
  latchLockedByUs : Bool
  latchFailReported : Bool
  dump : List UInt8
  pc : ShipPc
  entered : List Call
  proto : List Owed

def State.outer (s : State) : Outer :=
  ⟨s.laserArmed, s.fireGate, s.latchLockedByUs, s.latchFailReported, s.dump, s.pc, s.entered, s.proto⟩

/-- A call under the lock leaves the flags of the threads, the shipper's place and what it has
written. -/
theorem Call.locked_outer (c : Call) (now : Nat) (s : State) :
    (c.locked now s).outer = s.outer := by
  have hevent : ∀ power fire (s : State), (laserEventLocked power fire s).outer = s.outer := by
    intro power fire s
    simp only [laserEventLocked]
    split_ifs <;> rfl
  cases c with
  | wakeup =>
    simp only [Call.locked, wakeupLocked]
    split <;> rfl
  | pulse stepBits dirBits =>
    simp only [Call.locked, pulseLocked, pulseAt, pulsePlace]
    split_ifs <;> rfl
  | laser power fire => exact hevent _ _ _
  | jog on => exact hevent _ _ _

/-- An event changes the queue and the mark of its overflow. -/
theorem levRecord_frame (idx : Nat) (power : UInt8) (fire : Bool) (g : Gf) :
    ∃ lev warned, levRecord idx power fire g = { g with lev := lev, levOverflowWarned := warned } := by
  simp only [levRecord]
  split
  · split_ifs <;> exact ⟨_, _, rfl⟩
  · exact ⟨_, _, rfl⟩

theorem goIdleMark_frame (reset : Bool) (b : StepByte) (g : Gf) :
    ∃ killed killStep, goIdleMark reset b g = { g with killed := killed, killStep := killStep } := by
  simp only [goIdleMark]
  split <;> exact ⟨_, _, rfl⟩

/-- The stream's end closes the stream and darkens its queue. -/
theorem goIdleEnd_frame (g : Gf) :
    ∃ lev streaming, goIdleEnd g = { g with lev := lev, streaming := streaming } := by
  simp only [goIdleEnd, goIdleDark]
  split
  · split
    · split
      · split_ifs <;> exact ⟨_, _, rfl⟩
      · exact ⟨_, _, rfl⟩
    · exact ⟨_, _, rfl⟩
  · exact ⟨_, _, rfl⟩

/-- What the end of a cycle writes. -/
theorem goIdle_frame (reset : Bool) (stepBits dirBits : UInt8) (s : State) :
    ∃ killed killStep lev streaming, gfStreamGoIdle reset stepBits dirBits s = { s with
      gf := { s.gf with killed := killed, killStep := killStep, lev := lev, streaming := streaming }
      armed := false } := by
  obtain ⟨killed, killStep, hmark⟩ := goIdleMark_frame reset (pulseByte stepBits dirBits) s.gf
  obtain ⟨lev, streaming, hend⟩ := goIdleEnd_frame { s.gf with killed := killed, killStep := killStep }
  refine ⟨killed, killStep, lev, streaming, ?_⟩
  rw [gfStreamGoIdle, hmark, hend]

/-- What a new dose model writes. -/
theorem laserModel_frame (periodTicks minTicks : UInt32) (g : Gf) :
    ∃ power period least, gfStreamLaserModel periodTicks minTicks g =
      ditherReset { g with curPower := power, dithPeriod := period, dithMin := least } := by
  unfold gfStreamLaserModel
  dsimp only
  generalize (if periodTicks > dithPeriodMax then dithPeriodMax else periodTicks) = period
  split_ifs <;> exact ⟨_, _, _, rfl⟩

theorem Call.locked_proto (c : Call) (now : Nat) (s : State) : (c.locked now s).proto = s.proto :=
  congrArg Outer.proto (c.locked_outer now s)

theorem levRecord_failed (idx : Nat) (power : UInt8) (fire : Bool) (g : Gf) :
    (levRecord idx power fire g).failed = g.failed := by
  obtain ⟨lev, warned, hrec⟩ := levRecord_frame idx power fire g
  rw [hrec]

theorem clampLocked_failed {s : State} (h : s.gf.failed = true) :
    (clampLocked s).2.gf.failed = true := by
  simp [clampLocked, h]

/-- A pulse that finds the ring full sets the failure; none takes it away. -/
theorem pulsePlace_failed {b : StepByte} {idx : Nat} {s : State} (h : s.gf.failed = true) :
    (pulsePlace b idx s).gf.failed = true := by
  simp only [pulsePlace]
  split_ifs <;> first | exact h | rfl

theorem laserEventLocked_failed {power : UInt8} {fire : Bool} {s : State}
    (h : s.gf.failed = true) : (laserEventLocked power fire s).gf.failed = true := by
  simp only [laserEventLocked]
  split_ifs
  · exact clampLocked_failed h
  · exact (levRecord_failed _ _ _ _).trans (clampLocked_failed h)
  · exact (levRecord_failed _ _ _ _).trans h
  · exact h

theorem wakeupStream_failed (now : Nat) (s : State) :
    (wakeupStream now s).gf.failed = s.gf.failed := by
  simp only [wakeupStream, wakeupAssert, wakeupIndex, wakeupContinue, wakeupFresh]
  split_ifs <;> rfl

/-- A failure stands through every call under the lock. -/
theorem Call.locked_failed {c : Call} {now : Nat} {s : State} (h : s.gf.failed = true) :
    (c.locked now s).gf.failed = true := by
  cases c with
  | wakeup =>
    simp only [Call.locked, wakeupLocked]
    split
    · exact h
    · exact (wakeupStream_failed _ _).trans h
  | pulse stepBits dirBits =>
    simp only [Call.locked, pulseLocked, pulseAt]
    split_ifs
    · exact clampLocked_failed h
    · exact pulsePlace_failed (clampLocked_failed h)
    · exact pulsePlace_failed h
    · exact h
  | laser power fire => exact laserEventLocked_failed h
  | jog on => exact laserEventLocked_failed h

theorem goIdle_failed (reset : Bool) (stepBits dirBits : UInt8) (s : State) :
    (gfStreamGoIdle reset stepBits dirBits s).gf.failed = s.gf.failed := by
  obtain ⟨killed, killStep, lev, streaming, hgo⟩ := goIdle_frame reset stepBits dirBits s
  rw [hgo]

/-- **A fault stays** in every step but a reset and the end of a takeover. -/
theorem turn_failed {s t : State} {l : Label} (hturn : turn s l = some t)
    (hreset : ∀ now, l ≠ .reset now) (hswap : l = .proto → s.proto.head? ≠ some .resumeSwap)
    (h : s.gf.failed = true) : t.gf.failed = true := by
  cases l with
  | reset now => exact absurd rfl (hreset now)
  | locked c now =>
    cases hturn
    exact Call.locked_failed h
  | goIdle reset stepBits dirBits =>
    cases hturn
    exact (goIdle_failed _ _ _ _).trans h
  | ship e =>
    cases hturn
    exact shipStep_failed e s h
  | proto =>
    simp only [turn, protoStep] at hturn
    split at hturn <;> cases hturn
    case h_8.refl rest hp => exact absurd (hp ▸ rfl) (hswap rfl)
    all_goals first | exact h | rfl
  | kernel a =>
    obtain ⟨k, -, rfl⟩ := Option.map_eq_some_iff.mp hturn
    exact h
  | enter c =>
    cases hturn
    simp only [enter]
    split <;> exact h
  | laserModel p m =>
    cases hturn
    obtain ⟨power, period, least, hmodel⟩ := laserModel_frame p m s.gf
    rw [hmodel]
    exact h
  | readback expired =>
    cases hturn
    simp only [gfStreamReadback]
    split <;> exact h
  | clearPosition ok =>
    cases hturn
    simp only [gfStreamClearPosition]
    split_ifs <;> exact h
  | suspend readOk =>
    cases hturn
    simp only [gfStreamSuspend]
    split_ifs <;> exact h
  | resume latchOk emptied counted =>
    cases hturn
    simp only [gfStreamResume, rebaseAtTakeover]
    split_ifs <;> exact h
  | _ =>
    cases hturn
    exact h

/-! ## The reset

The reset writes more than any other call. Its two branches, the stream's end and the failure's, are
each described by what they leave. -/

/-- What a reset leaves of the marks that the threads go by. -/
structure Gf.AfterReset (g r : Gf) : Prop where
  active : r.active = g.active
  suspended : r.suspended = g.suspended
  fdOpen : r.fdOpen = g.fdOpen
  inherited : r.inherited = g.inherited
  streaming : r.streaming = false
  killed : r.killed = false
  failed : r.failed = false
  shipped : r.shipped = g.shipped
  produced : r.produced = if resetEnds g || g.failed then g.shipped else g.produced
  kernelRunning : r.kernelRunning = (g.kernelRunning && !(resetStops g || g.failed))
  clearPending : r.clearPending = (g.clearPending || resetStops g || g.failed)
  lastLit : r.lastLit = (resetStops g && g.lastLit)

/-- The same where the reset ends a stream, before it acknowledges a fault. -/
structure Gf.AfterEnd (killed : Bool) (g r : Gf) : Prop where
  streaming : r.streaming = false
  failed : r.failed = g.failed
  produced : r.produced = g.shipped
  kernelRunning : r.kernelRunning = (g.kernelRunning && !(killed || g.kernelRunning))
  clearPending : r.clearPending = (g.clearPending || killed || g.kernelRunning)
  others : (r.active, r.suspended, r.fdOpen, r.inherited, r.killed, r.shipped) =
    (g.active, g.suspended, g.fdOpen, g.inherited, g.killed, g.shipped)

/-- The end of a stream by a reset, field by field. -/
theorem resetStream_after (now : Nat) (killed : Bool) (g : Gf) :
    g.AfterEnd killed (resetStream now killed g) := by
  have hrun : ∀ g : Gf, g.produced = g.shipped →
      g.AfterEnd killed (resetRun now killed (resetLaser g)) := by
    intro g hempty
    cases killed <;> cases hk : g.kernelRunning <;> constructor <;>
      simp [resetRun, resetLaser, ditherReset, hk, hempty]
  have hback : ∀ (dropped : Steps) {g r : Gf}, g.AfterEnd killed r →
      g.AfterEnd killed (resetReadback killed dropped r) := by
    intro dropped g r h
    simp only [resetReadback]
    split
    · exact ⟨h.streaming, h.failed, h.produced, h.kernelRunning, h.clearPending, h.others⟩
    · exact h
  have h := hback (dropBacklogLocked (if killed then tickSteps 0 g.killStep.val else 0) g).2
    (hrun (dropBacklogLocked (if killed then tickSteps 0 g.killStep.val else 0) g).1 rfl)
  exact ⟨h.streaming, h.failed, h.produced, h.kernelRunning, h.clearPending, h.others⟩

/-- Both branches together. -/
theorem resetLocked_after (now : Nat) (g : Gf) : g.AfterReset (resetLocked now g) := by
  simp only [resetLocked]
  cases hends : resetEnds g with
  | true =>
    have h := resetStream_after now g.killed { g with killed := false, readback := .none }
    rw [if_pos rfl]
    generalize resetStream now g.killed { g with killed := false, readback := .none } = r at h ⊢
    obtain ⟨hs, hf, hp, hr, hc, ho⟩ := h
    simp only [Prod.mk.injEq] at ho
    obtain ⟨ha, hsu, hfd, hin, hki, hsh⟩ := ho
    cases hfailed : g.failed <;> constructor <;>
      simp [resetFailed, resetLaser, ditherReset, dropBacklogLocked, resetStops, hs, hf, hp, hr, hc, ha,
        hsu, hfd, hin, hki, hsh, hfailed, hends, Bool.or_assoc]
  | false =>
    have hidle : g.streaming = false := by
      simp only [resetEnds, Bool.or_eq_false_iff] at hends
      exact hends.1
    cases hfailed : g.failed <;> constructor <;>
      simp [resetFailed, resetLaser, ditherReset, dropBacklogLocked, resetStops, hfailed, hidle, hends]

/-! ## The turn

The frame of the whole machine: what a turn can change of what is not the record or the kernel. -/

/-- The fire gate behind a turn. -/
def Label.gateAfter (s : State) : Label → Bool
  | .fireGate gate => gate
  | _ => s.fireGate

/-- The arming state behind a turn. -/
def Label.armedAfter (s : State) : Label → Bool
  | .laserArm armed => armed
  | _ => s.laserArmed

/-- The calls that wait for `gf.lock` behind a turn. -/
def Label.enteredAfter (s : State) : Label → List Call
  | .enter c => if c.enters s then c :: s.entered else s.entered
  | .locked c _ => s.entered.erase c
  | _ => s.entered

/-- What a turn outside the shipper does beside the record and the kernel: only the shipper
moves its program counter and hands bytes to the sink, and each flag has one writer. -/
structure Turned (s : State) (l : Label) (t : State) : Prop where
  pc : t.pc = s.pc
  dump : t.dump = s.dump
  fireGate : t.fireGate = l.gateAfter s
  laserArmed : t.laserArmed = l.armedAfter s
  entered : t.entered = l.enteredAfter s

/-- Every turn but the shipper's own, with what it makes of the flags outside the record. -/
theorem turn_turned {s t : State} {l : Label} (hturn : turn s l = some t)
    (hship : ∀ e, l ≠ .ship e) : Turned s l t := by
  cases l with
  | ship e => exact absurd rfl (hship e)
  | locked c now =>
    cases hturn
    have h := c.locked_outer now { s with entered := s.entered.erase c }
    exact ⟨congrArg Outer.pc h, congrArg Outer.dump h, congrArg Outer.fireGate h,
      congrArg Outer.laserArmed h, congrArg Outer.entered h⟩
  | proto =>
    simp only [turn, protoStep] at hturn
    split at hturn <;> cases hturn <;> exact ⟨rfl, rfl, rfl, rfl, rfl⟩
  | kernel a =>
    obtain ⟨k, -, rfl⟩ := Option.map_eq_some_iff.mp hturn
    exact ⟨rfl, rfl, rfl, rfl, rfl⟩
  | enter c =>
    cases hturn
    unfold enter
    constructor
    case entered =>
      simp only [Label.enteredAfter]
      split <;> rfl
    all_goals
      split <;> rfl
  | readback expired =>
    cases hturn
    simp only [gfStreamReadback]
    split <;> exact ⟨rfl, rfl, rfl, rfl, rfl⟩
  | clearPosition ok =>
    cases hturn
    simp only [gfStreamClearPosition]
    split_ifs <;> exact ⟨rfl, rfl, rfl, rfl, rfl⟩
  | suspend readOk =>
    cases hturn
    simp only [gfStreamSuspend]
    split_ifs <;> exact ⟨rfl, rfl, rfl, rfl, rfl⟩
  | resume latchOk emptied counted =>
    cases hturn
    simp only [gfStreamResume]
    split <;> exact ⟨rfl, rfl, rfl, rfl, rfl⟩
  | _ =>
    cases hturn
    exact ⟨rfl, rfl, rfl, rfl, rfl⟩

/-- What a call on the protocol thread owes is its own and the call's that begins it. -/
theorem turn_proto {s t : State} {l : Label} (hturn : turn s l = some t)
    (hbegins : l.beginsCall = false) (hproto : l ≠ .proto) : t.proto = s.proto := by
  cases l with
  | locked c now =>
    cases hturn
    exact Call.locked_proto c now _
  | ship e =>
    cases hturn
    exact shipStep_proto e s
  | kernel a =>
    obtain ⟨k, -, rfl⟩ := Option.map_eq_some_iff.mp hturn
    rfl
  | enter c =>
    cases hturn
    simp only [enter]
    split <;> rfl
  | proto => exact absurd rfl hproto
  | laserLatch lock ok => cases hbegins
  | reset now => cases hbegins
  | readback expired => cases hbegins
  | clearPosition ok => cases hbegins
  | suspend readOk => cases hbegins
  | resume latchOk emptied counted => cases hbegins
  | _ =>
    cases hturn
    rfl

/-- The protocol thread goes on with what its call owes. -/
theorem proto_owes {s t : State} (hturn : turn s .proto = some t) : ∃ o rest, s.proto = o :: rest := by
  cases hp : s.proto with
  | nil =>
    simp only [turn, protoStep, hp] at hturn
    cases hturn
  | cons o rest => exact ⟨o, rest, rfl⟩

/-- A call begins on an idle protocol thread. -/
theorem begins_idle {s : State} {l : Label} (hen : l.enabled s = true)
    (hbegins : l.beginsCall = true) : s.proto = [] := by
  simp only [Label.enabled, hbegins, Bool.and_eq_true, Bool.not_true, Bool.false_or,
    List.isEmpty_iff] at hen
  exact hen.1.2

/-- Only `gf_stream_resume` owes the swap that ends a takeover. -/
theorem turn_swap {s t : State} {l : Label} (hturn : turn s l = some t)
    (hresume : ∀ a b c, l ≠ .resume a b c) (h : .resumeSwap ∉ s.proto) :
    .resumeSwap ∉ t.proto := by
  cases l with
  | resume a b c => exact absurd rfl (hresume a b c)
  | proto =>
    simp only [turn, protoStep] at hturn
    split at hturn <;> cases hturn
    case h_5.refl rest hp =>
      rw [hp] at h
      simp only [List.mem_cons, not_or] at h
      simp only [List.mem_append, not_or]
      refine ⟨?_, h.2⟩
      split <;> simp
    all_goals
      next hp =>
        rw [hp] at h
        exact fun hmem => h (List.mem_cons_of_mem _ hmem)
  | laserLatch lock ok =>
    cases hturn
    simp only [gfStreamLaserLatch]
    split <;> simp
  | reset now =>
    cases hturn
    simp only [gfStreamReset, resetOwes, List.mem_append, not_or]
    constructor <;> split <;> simp
  | readback expired =>
    cases hturn
    simp only [gfStreamReadback]
    split <;> exact h
  | clearPosition ok =>
    cases hturn
    simp only [gfStreamClearPosition]
    split_ifs <;> exact h
  | suspend readOk =>
    cases hturn
    simp only [gfStreamSuspend]
    split_ifs <;> first | exact h | simp
  | _ =>
    rw [turn_proto hturn rfl (by rintro ⟨⟩)]
    exact h

end Glowforge.Stream
