import Mathlib.Tactic.Ring
import Glowforge.Lib.Counts
import Glowforge.Stream.Frame

/-!
# Glowforge — a run starts over its own bytes

`run_gate` compares two counts of the kernel with two of the engine: the bytes it has
processed with what the ring took before the run's first byte, and the bytes the ring took
with what the engine wrote. Both wrap, and the kernel's tally of bytes taken saturates:

* **`RunLog`** — the bytes that landed in the ring since `kernel_running` was last set, and
  the bytes in the ring's intake that `gf.written` does not count.
* **`RunInv`** — the counts at each point of a pass and of a clear.
* **`gate_passes_own`** — counts that match leave nothing in the ring but those bytes.
* **`run_over_own_bytes`** — hence a run that the gate passed on its counts starts over
  exactly the stream's own bytes.
* **`retry_over_rest`** — a run asked for again behind an underrun does not go through the
  counts, and starts over what is left of them.
-/

namespace Glowforge.Stream

/-! ## The history of a run

The bytes that landed in the ring since the stream took the kernel, and those that its counts leave
out. -/

structure RunLog where
  -- What landed in the ring since `kernel_running` was last set, or the ring was last cleared.
  own : List UInt8 := []
  -- The bytes that the ring took since its last clear and `gf.written` does not count.
  uncounted : Nat := 0
  -- The same when `kernel_running` was last set.
  uncountedAt : Nat := 0
  -- The last `run_gate` compared the counts.
  counted : Bool := false

/-- The bytes of a step: a run's first chunk begins them anew. -/
def RunLog.land (s t : State) (h : RunLog) : RunLog :=
  if !s.gf.kernelRunning && t.gf.kernelRunning then
    { h with own := [], uncountedAt := h.uncounted }
  else { h with own := h.own ++ landed s t }

/-- What a step of the shipper adds to the history. -/
def RunLog.ship (s : State) (e : Env) (h : RunLog) : RunLog :=
  match s.pc with
  | .pendSeek _ => if seekTakes e s then { h with own := [], uncounted := 0 } else h
  | .writing _ c (b :: rest) =>
    -- a write that fails leaves what has landed of its chunk uncounted
    if e.ok && canTake s then h.land s (shipStep e s)
    else { h with uncounted := h.uncounted + (c.bytes.length - (b :: rest).length) }
  | .gateState _ _ => { h with counted := false }
  | .gateCounts _ _ => { h with counted := true }
  | _ => h.land s (shipStep e s)

/-- What a step adds to the history. A takeover leaves what its clear did not remove
uncounted. -/
def RunLog.record (s : State) (l : Label) (h : RunLog) : RunLog :=
  match l with
  | .ship e => h.ship s e
  | .proto =>
    if s.proto.head? = some .resumeSwap then { h with own := [], uncounted := s.kernel.intake } else h
  | _ => h

/-! ## The counts

The four counts that the gate compares, at each point of a pass and of a clear, against the bytes
themselves. -/

/-- What the gate's invariant reads. -/
structure RunView where
  active : Bool
  suspended : Bool
  kernelRunning : Bool
  clearPending : Bool
  written : UInt32
  runBase : UInt32
  state : KernelState
  consumed : List UInt8
  ring : List UInt8

def State.runView (s : State) : RunView where
  active := s.gf.active
  suspended := s.gf.suspended
  kernelRunning := s.gf.kernelRunning
  clearPending := s.gf.clearPending
  written := s.gf.written
  runBase := s.gf.runBase
  state := s.kernel.state
  consumed := s.kernel.consumed
  ring := s.kernel.ring

namespace RunView

/-- How many bytes the ring has taken since its last clear. -/
def intake (v : RunView) : Nat := v.consumed.length + v.ring.length

/-- The engine's count `written` of the ring's `intake`: `ahead` bytes are counted that have not
landed, `late` have landed and are not counted, and `uncounted` never will be. -/
structure Counted (intake : Nat) (written : UInt32) (uncounted ahead late : Nat) : Prop where
  word : UInt32.ofNat (intake + ahead) = written + UInt32.ofNat (uncounted + late)
  le : uncounted + late ≤ intake + ahead

/-- The count `base` of what the ring took before the run's bytes. -/
structure Starts (intake : Nat) (h : RunLog) (base : UInt32) : Prop where
  word : UInt32.ofNat intake = base + UInt32.ofNat (h.uncountedAt + h.own.length)
  le : h.uncountedAt ≤ h.uncounted

/-- The counts where the shipper is. A chunk is counted when its write returns, and a clear
zeroes the count when it is settled. -/
def CountsAt (h : RunLog) (v : RunView) : ShipPc → Prop
  | .writing _ c rest =>
    Counted v.intake v.written h.uncounted rest.length c.bytes.length ∧ rest.length ≤ c.bytes.length
  | .wrote _ c true => Counted v.intake v.written h.uncounted 0 c.bytes.length
  | .pendCount _ | .pendDone true _ _ => h.uncounted = v.intake
  | .runTest startRun _ written =>
    (startRun = true → written = v.written) ∧ Counted v.intake v.written h.uncounted 0 0
  | .gateState _ written | .gateCounts _ written =>
    written = v.written ∧ Counted v.intake v.written h.uncounted 0 0
  | _ => Counted v.intake v.written h.uncounted 0 0

/-- The start of the run's bytes, on the way to its gate. -/
def StartsAt (h : RunLog) (v : RunView) : ShipPc → Prop
  | .writing p c _ | .wrote p c _ => (p.startRun || c.first) = true → Starts v.intake h v.runBase
  | .runTest startRun base _ => startRun = true → Starts v.intake h base
  | .gateState base _ | .gateCounts base _ => Starts v.intake h base
  | _ => True

/-- The ring holds exactly the run's bytes, as far as the counts can tell. -/
def HoldsOwn (h : RunLog) (v : RunView) : Prop :=
  v.intake < 2 ^ 32 - 1 ∨ h.uncounted = 0 → h.own.length < 2 ^ 32 → v.ring.length < 2 ^ 32 →
    v.ring = h.own

end RunView

/-- From the first chunk of a pass to the kernel's answer. -/
def ShipPc.busy : ShipPc → Bool
  | .runTest startRun _ _ => startRun
  | .writing _ _ _ | .wrote _ _ _ | .gateState _ _ | .gateCounts _ _ | .runLatch | .runWrite _ _
  | .runState _ _ _ | .runStop _ => true
  | _ => false

/-- The run is being asked for. -/
def ShipPc.asks : ShipPc → Bool
  | .runLatch | .runWrite _ _ | .runState _ _ _ | .runStop _ => true
  | _ => false

/-- The gate has seen a kernel that does not play, and compares its counts, or has. -/
def ShipPc.compares (counted : Bool) : ShipPc → Bool
  | .gateCounts _ _ => true
  | pc => counted && pc.asks

/-- A point that compares no counts, however the run came to be asked for. -/
theorem ShipPc.not_compares {counted : Bool} {pc : ShipPc} (h : pc.compares true = false) :
    ¬pc.compares counted = true := by
  cases pc with
  | gateCounts base written => cases h
  | _ =>
    intro hc
    simp only [ShipPc.compares, Bool.true_and] at h
    simp [ShipPc.compares, h] at hc

/-- **The invariant** of an active device. While another process has the device its counts say
nothing. -/
structure RunInv (h : RunLog) (v : RunView) (pc : ShipPc) : Prop where
  active : v.active = true
  here : (pc.busy || pc.holdsLock) = true → v.suspended = false
  owns : pc.busy = true → v.kernelRunning = true ∨ v.clearPending = true
  suffix : v.suspended = false → h.own <:+ v.consumed ++ v.ring
  counts : v.suspended = false → v.CountsAt h pc
  starts : v.StartsAt h pc
  stopped : pc.compares h.counted = true → v.state ≠ .running ∧ v.state ≠ .underrun
  holds : h.counted = true → pc.asks = true → v.HoldsOwn h

/-! ## The shipper between its passes

Between two passes nothing is on its way, and the counts are the history's. -/

/-- Neither on the way to a run nor between a clear and its settlement. -/
def ShipPc.calm : ShipPc → Bool
  | .pendCount _ | .pendDone true _ _ => false
  | pc => !pc.busy

namespace ShipPc

theorem busy_calm {pc : ShipPc} (h : pc.calm = true) : pc.busy = false := by
  cases pc with
  | runTest startRun base written =>
    cases startRun with
    | true => cases h
    | false => rfl
  | _ => first | rfl | cases h

theorem asks_busy {pc : ShipPc} (h : pc.busy = false) : pc.asks = false := by
  cases pc with
  | _ => first | rfl | cases h

theorem compares_busy {pc : ShipPc} {counted : Bool} (h : pc.busy = false) :
    pc.compares counted = false := by
  cases pc with
  | gateCounts base written => cases h
  | _ =>
    simp only [compares, asks_busy h, Bool.and_false]

end ShipPc

theorem RunView.countsAt_calm {h : RunLog} {v : RunView} {pc : ShipPc} (hpc : pc.calm = true) :
    v.CountsAt h pc ↔ RunView.Counted v.intake v.written h.uncounted 0 0 := by
  cases pc with
  | runTest startRun base written =>
    cases startRun with
    | true => cases hpc
    | false => exact ⟨fun hc => hc.2, fun hc => ⟨by rintro ⟨⟩, hc⟩⟩
  | pendDone cleared counts zeros =>
    cases cleared with
    | true => cases hpc
    | false => rfl
  | _ => first | rfl | cases hpc

theorem RunView.startsAt_idle {h : RunLog} {v : RunView} {pc : ShipPc} (hpc : pc.busy = false) :
    v.StartsAt h pc := by
  cases pc with
  | runTest startRun base written =>
    intro hstart
    rw [show startRun = false from hpc] at hstart
    cases hstart
  | _ => trivial

/-- A pass that is not on the way to a run: the counts are all there is to keep. -/
theorem RunInv.calm {h : RunLog} {v : RunView} {pc : ShipPc} (hactive : v.active = true)
    (hpc : pc.calm = true) (hlock : pc.holdsLock = true → v.suspended = false)
    (hsuffix : v.suspended = false → h.own <:+ v.consumed ++ v.ring)
    (hcounts : v.suspended = false → RunView.Counted v.intake v.written h.uncounted 0 0) : RunInv h v pc where
  active := hactive
  here := by
    rw [ShipPc.busy_calm hpc, Bool.false_or]
    exact hlock
  owns := by
    rw [ShipPc.busy_calm hpc]
    rintro ⟨⟩
  suffix := hsuffix
  counts := fun hs => (RunView.countsAt_calm hpc).mpr (hcounts hs)
  starts := RunView.startsAt_idle (ShipPc.busy_calm hpc)
  stopped := by
    rw [ShipPc.compares_busy (ShipPc.busy_calm hpc)]
    rintro ⟨⟩
  holds := by
    rw [ShipPc.asks_busy (ShipPc.busy_calm hpc)]
    rintro _ ⟨⟩

/-- The shipper moves between such points and leaves the counts. -/
theorem RunInv.move {h : RunLog} {v : RunView} {pc pc' : ShipPc} (hinv : RunInv h v pc)
    (hpc : pc.calm = true) (hpc' : pc'.calm = true)
    (hlock : pc'.holdsLock = true → v.suspended = false) : RunInv h v pc' :=
  .calm hinv.active hpc' hlock hinv.suffix
    fun hs => (RunView.countsAt_calm hpc).mp (hinv.counts hs)

/-! ## What lands

What a step puts into the ring goes into the history with it. -/

theorem RunLog.land_same {h : RunLog} {s t : State}
    (hrunning : t.gf.kernelRunning = true → s.gf.kernelRunning = true)
    (hring : t.kernel.ring = s.kernel.ring) : h.land s t = h := by
  have hnew : (!s.gf.kernelRunning && t.gf.kernelRunning) = false := by
    cases ht : t.gf.kernelRunning with
    | true => rw [hrunning ht]; rfl
    | false => rw [Bool.and_false]
  rw [RunLog.land, hnew, landed, hring, List.drop_length, List.append_nil]
  rfl

theorem RunLog.land_view {h : RunLog} {s t : State} (hview : t.runView = s.runView) : h.land s t = h :=
  RunLog.land_same (fun ht => (congrArg RunView.kernelRunning hview).symm.trans ht)
    (congrArg RunView.ring hview)

theorem RunLog.land_bytes {h : RunLog} {s t : State} {bs : List UInt8}
    (hrunning : t.gf.kernelRunning = true → s.gf.kernelRunning = true)
    (hring : t.kernel.ring = s.kernel.ring ++ bs) : h.land s t = { h with own := h.own ++ bs } := by
  have hnew : (!s.gf.kernelRunning && t.gf.kernelRunning) = false := by
    cases ht : t.gf.kernelRunning with
    | true => rw [hrunning ht]; rfl
    | false => rw [Bool.and_false]
  rw [RunLog.land, hnew, landed, hring, List.drop_left]
  rfl

/-- Counted bytes land at the end of the ring. -/
def RunView.took (v : RunView) (bs : List UInt8) : RunView :=
  { v with written := v.written + UInt32.ofNat bs.length, ring := v.ring ++ bs }

theorem RunView.took_nil (v : RunView) : v.took [] = v := by
  simp [RunView.took]

theorem RunInv.took {h : RunLog} {v : RunView} {pc pc' : ShipPc} {bs : List UInt8}
    (hinv : RunInv h v pc) (hpc : pc.calm = true) (hpc' : pc'.calm = true)
    (hlock : pc'.holdsLock = false) : RunInv { h with own := h.own ++ bs } (v.took bs) pc' := by
  refine .calm hinv.active hpc' (by rw [hlock]; rintro ⟨⟩) (fun hs => ?_) fun hs => ?_
  · obtain ⟨front, hfront⟩ := hinv.suffix hs
    refine ⟨front, ?_⟩
    change front ++ (h.own ++ bs) = v.consumed ++ (v.ring ++ bs)
    rw [← List.append_assoc, hfront, List.append_assoc]
  · obtain ⟨hword, hle⟩ := (RunView.countsAt_calm hpc).mp (hinv.counts hs)
    have hintake : (v.took bs).intake = v.intake + bs.length := by
      simp only [RunView.took, RunView.intake, List.length_append]
      omega
    constructor
    · rw [hintake, Nat.add_right_comm, UInt32.ofNat_add, hword]
      change _ = v.written + UInt32.ofNat bs.length + UInt32.ofNat (h.uncounted + 0)
      rw [add_right_comm]
    · change h.uncounted + 0 ≤ _
      omega

/-- A dark pad lands as a counted byte, or not at all. -/
theorem darkPad_runView (ok : Bool) (s : State) :
    ∃ bs, (darkPad ok s).runView = s.runView.took bs := by
  cases hlands : padLands ok s with
  | false =>
    refine ⟨[], ?_⟩
    rw [RunView.took_nil]
    simp only [darkPad, hlands]
    rfl
  | true =>
    refine ⟨[0x00], ?_⟩
    simp only [darkPad, hlands]
    rfl

/-- What a step lands, from what it leaves of the view. -/
theorem RunLog.land_took {h : RunLog} {s t : State} {v : RunView} {bs : List UInt8}
    (hview : t.runView = v) (hring : v.ring = s.kernel.ring ++ bs)
    (hrunning : v.kernelRunning = true → s.gf.kernelRunning = true) :
    h.land s t = { h with own := h.own ++ bs } :=
  RunLog.land_bytes (fun ht => hrunning (hview ▸ ht)) ((congrArg RunView.ring hview).trans hring)

/-- A step between two calm points that leaves the view. -/
theorem RunInv.stay {h : RunLog} {s t : State} {pc : ShipPc} (hinv : RunInv h s.runView pc)
    (hview : t.runView = s.runView) (hpc : pc.calm = true) (hpc' : t.pc.calm = true)
    (hlock : t.pc.holdsLock = true → s.gf.suspended = false) :
    RunInv (h.land s t) t.runView t.pc := by
  rw [RunLog.land_view hview, hview]
  exact hinv.move hpc hpc' hlock

/-- A step between two calm points that lands counted bytes, and may end the kernel's run. -/
theorem RunInv.lands {h : RunLog} {s t : State} {pc : ShipPc} {bs : List UInt8} {running : Bool}
    (hinv : RunInv h s.runView pc)
    (hview : t.runView = { s.runView.took bs with kernelRunning := running })
    (hrunning : running = true → s.gf.kernelRunning = true) (hpc : pc.calm = true)
    (hpc' : t.pc.calm = true) (hlock : t.pc.holdsLock = false) :
    RunInv (h.land s t) t.runView t.pc := by
  rw [RunLog.land_took hview rfl hrunning, hview]
  have htook : RunInv { h with own := h.own ++ bs } (s.runView.took bs) _ := hinv.took hpc hpc' hlock
  exact .calm htook.active hpc' (by rw [hlock]; rintro ⟨⟩) htook.suffix
    fun hs => (RunView.countsAt_calm hpc').mp (htook.counts hs)

/-! ## The shipper's steps

The steps of a clear, and of the beginning of a pass. -/

/-- The snapshot of `pending_pass`. -/
theorem pendingSnapshot_run {h : RunLog} {e : Env} {s : State} (hinv : RunInv h s.runView .top) :
    RunInv (h.land s (pendingSnapshot e s)) (pendingSnapshot e s).runView (pendingSnapshot e s).pc := by
  have hpad : ∃ bs, (pendingSnapshot e s).runView = s.runView.took bs := by
    simp only [pendingSnapshot, resetPad]
    split
    · exact darkPad_runView e.ok { s with gf := { s.gf with runPending := keepsRun s.gf } }
    · exact ⟨[], (RunView.took_nil _).symm⟩
  obtain ⟨bs, hview⟩ := hpad
  have hactive : (resetPad e.ok { s with gf := { s.gf with runPending := keepsRun s.gf } }).gf.active =
      true := (congrArg RunView.active hview).trans hinv.active
  have hcalm : (pendingSnapshot e s).pc.calm = true ∧ (pendingSnapshot e s).pc.holdsLock = false := by
    change (pendingNext (resetPad e.ok _).gf).calm = true ∧ (pendingNext (resetPad e.ok _).gf).holdsLock = _
    simp only [pendingNext]
    split_ifs <;> exact ⟨rfl, rfl⟩
  exact hinv.lands hview id rfl hcalm.1 hcalm.2

theorem shipLock_run {h : RunLog} {e : Env} {s : State} (hinv : RunInv h s.runView .lock) :
    RunInv (h.land s (shipLock e s)) (shipLock e s).runView (shipLock e s).pc := by
  simp only [shipLock]
  split
  · have hpad : ∃ bs, (faultPad e.ok s).runView = s.runView.took bs := by
      simp only [faultPad]
      split
      · exact darkPad_runView e.ok s
      · exact ⟨[], (RunView.took_nil _).symm⟩
    obtain ⟨bs, hview⟩ := hpad
    exact hinv.lands (t := { faultPad e.ok s with pc := .check }) hview id rfl rfl rfl
  · next hstop =>
    simp only [Bool.or_eq_true, not_or, Bool.not_eq_true] at hstop
    exact hinv.stay rfl rfl rfl fun _ => hstop.2

/-- The seek-clear empties the ring and its counts. -/
theorem pendingSeek_run {h : RunLog} {e : Env} {zeros : Nat} {s : State}
    (hinv : RunInv h s.runView (.pendSeek zeros)) :
    RunInv (if seekTakes e s then { h with own := [], uncounted := 0 } else h)
      (pendingSeek e zeros s).runView (pendingSeek e zeros s).pc := by
  simp only [pendingSeek]
  split
  · exact {
      active := hinv.active
      here := by rintro ⟨⟩
      owns := by rintro ⟨⟩
      suffix := fun _ => List.suffix_refl _
      counts := fun _ => rfl
      starts := trivial
      stopped := fun hc => absurd hc (ShipPc.not_compares rfl)
      holds := fun _ ha => by cases ha }
  · exact hinv.move rfl rfl (by rintro ⟨⟩)

theorem pendingDone_runView {cleared : Bool} {counts : Option Steps} {zeros : Nat} {s : State}
    (hactive : s.gf.active = true) :
    (pendingDone cleared counts zeros s).runView = { s.runView with
      kernelRunning := false, clearPending := false
      written := if cleared then 0 else s.gf.written } := by
  have hread : ∀ counts stale (g : Gf),
      State.runView { s with gf := settleReadback counts stale g } = State.runView { s with gf := g } := by
    intro counts stale g
    simp only [settleReadback]
    split
    · split <;> rfl
    · rfl
  have hbase : ∀ counts stale (g : Gf),
      State.runView { s with gf := settleBase counts stale g } = State.runView { s with gf := g } := by
    intro counts stale g
    simp only [settleBase]
    split
    · rfl
    · split <;> rfl
  have hrun : ∀ g : Gf, State.runView { s with gf := settleRun cleared g } =
      { State.runView { s with gf := g } with
        kernelRunning := false, clearPending := false
        written := if cleared && g.active then 0 else g.written } := fun _ => rfl
  have hwritten : (if cleared && s.gf.active then 0 else s.gf.written) =
      if cleared then 0 else s.gf.written := by rw [hactive, Bool.and_true]
  rw [← hwritten]
  have hsettled : ∀ counts stale, State.runView { s with
      gf := settleBase counts stale (settleReadback counts stale s.gf) } = s.runView :=
    fun counts stale => (hbase _ _ _).trans (hread _ _ _)
  change State.runView { s with gf := settleRun cleared (settleBase _ _ (settleReadback _ _ s.gf)) } = _
  rw [hrun]
  generalize hg : settleBase _ _ (settleReadback _ _ s.gf) = g
  have hview : State.runView { s with gf := g } = s.runView := hg ▸ hsettled _ _
  rw [hview, show g.active = s.gf.active from congrArg RunView.active hview,
    show g.written = s.gf.written from congrArg RunView.written hview]

theorem pendingDone_run {h : RunLog} {cleared : Bool} {counts : Option Steps} {zeros : Nat}
    {s : State} (hinv : RunInv h s.runView (.pendDone cleared counts zeros)) :
    RunInv (h.land s (pendingDone cleared counts zeros s)) (pendingDone cleared counts zeros s).runView
      .lock := by
  have hview := @pendingDone_runView cleared counts zeros s hinv.active
  have hstopped : (pendingDone cleared counts zeros s).gf.kernelRunning = false :=
    congrArg RunView.kernelRunning hview
  rw [RunLog.land_same (fun ht => absurd (hstopped.symm.trans ht) (by decide))
    (congrArg RunView.ring hview), hview]
  refine .calm hinv.active rfl (by rintro ⟨⟩) hinv.suffix fun hs => ?_
  have hcounts := hinv.counts hs
  cases cleared with
  | false => exact hcounts
  | true =>
    have huncounted : h.uncounted = s.runView.intake := hcounts
    constructor
    · change UInt32.ofNat s.runView.intake = 0 + UInt32.ofNat h.uncounted
      rw [huncounted, zero_add]
    · exact huncounted.le

/-! ## A pass -/

/-- What a round of the tick loop begins with. -/
structure RoundInv (h : RunLog) (v : RunView) (startRun : Bool) : Prop where
  active : v.active = true
  here : v.suspended = false
  suffix : h.own <:+ v.consumed ++ v.ring
  counts : RunView.Counted v.intake v.written h.uncounted 0 0
  starts : startRun = true → RunView.Starts v.intake h v.runBase
  owns : startRun = true → v.kernelRunning = true ∨ v.clearPending = true

theorem RoundInv.mono {h : RunLog} {v : RunView} {a b : Bool} (hround : RoundInv h v a)
    (hba : b = true → a = true) : RoundInv h v b :=
  { hround with
    starts := fun hb => hround.starts (hba hb)
    owns := fun hb => hround.owns (hba hb) }

/-- The end of a pass. -/
theorem RoundInv.finish {h : RunLog} {v : RunView} {startRun : Bool} (hround : RoundInv h v startRun) :
    RunInv h v (.runTest startRun v.runBase v.written) where
  active := hround.active
  here := fun _ => hround.here
  owns := hround.owns
  suffix := fun _ => hround.suffix
  counts := fun _ => ⟨fun _ => rfl, hround.counts⟩
  starts := hround.starts
  stopped := fun hc => absurd hc (ShipPc.not_compares rfl)
  holds := fun _ ha => by cases ha

/-- A chunk goes to the kernel: the first one of a run begins the run's bytes. -/
theorem RoundInv.chunk {h : RunLog} {v : RunView} {p : Pass} {bytes : List UInt8} {steps : Steps}
    (hround : RoundInv h v p.startRun) :
    RunInv (if v.kernelRunning then h else { h with own := [], uncountedAt := h.uncounted })
      { v with
        kernelRunning := true
        runBase := if !v.kernelRunning then v.written else v.runBase }
      (.writing p ⟨bytes, steps, !v.kernelRunning⟩ bytes) := by
  have hcounts : RunView.Counted v.intake v.written h.uncounted bytes.length bytes.length := by
    obtain ⟨hword, hle⟩ := hround.counts
    constructor
    · rw [UInt32.ofNat_add, show UInt32.ofNat v.intake = _ from hword, Nat.add_zero, UInt32.ofNat_add,
        add_assoc]
    · omega
  cases hrunning : v.kernelRunning with
  | true =>
    exact {
      active := hround.active
      here := fun _ => hround.here
      owns := fun _ => .inl rfl
      suffix := fun _ => hround.suffix
      counts := fun _ => ⟨hcounts, le_refl _⟩
      starts := fun hs => hround.starts (by simpa using hs)
      stopped := fun hc => absurd hc (ShipPc.not_compares rfl)
      holds := fun _ ha => by cases ha }
  | false =>
    exact {
      active := hround.active
      here := fun _ => hround.here
      owns := fun _ => .inl rfl
      suffix := fun _ => List.nil_suffix
      counts := fun _ => ⟨hcounts, le_refl _⟩
      starts := fun _ => ⟨hround.counts.word, le_refl _⟩
      stopped := fun hc => absurd hc (ShipPc.not_compares rfl)
      holds := fun _ ha => by cases ha }

theorem shipLoop_run {h : RunLog} {p : Pass} {s start : State}
    (hround : RoundInv h s.runView p.startRun) (hring : s.kernel.ring = start.kernel.ring)
    (hrunning : s.gf.kernelRunning = start.gf.kernelRunning) :
    RunInv (h.land start (shipLoop p s.gf.streaming s)) (shipLoop p s.gf.streaming s).runView
      (shipLoop p s.gf.streaming s).pc := by
  simp only [shipLoop]
  split
  · have hticked := buildTicks_ticked p.gate p.due s.gf.streaming shipChunk s.gf []
    generalize buildTicks p.gate p.due s.gf.streaming shipChunk s.gf [] = r at hticked ⊢
    have hbefore : State.runView { s with gf := r.1 } = s.runView :=
      hticked.frame (fun g => State.runView { s with gf := g }) rfl
    have hkr : r.1.kernelRunning = s.gf.kernelRunning := congrArg RunView.kernelRunning hbefore
    have hactive : r.1.active = true := (congrArg RunView.active hbefore).trans hround.active
    have hview : (shipChunkOut p r.1 r.2 s).runView = { s.runView with
        kernelRunning := true
        runBase := if !s.runView.kernelRunning then s.runView.written else s.runView.runBase } :=
      congrArg (fun v : RunView => { v with
        kernelRunning := true, runBase := if !v.kernelRunning then v.written else v.runBase }) hbefore
    have hpc : (shipChunkOut p r.1 r.2 s).pc =
        .writing p ⟨r.2, stepsIn r.2, !s.runView.kernelRunning⟩ r.2 := by
      simp only [shipChunkOut, hactive, hkr, if_true]
      rfl
    have hland : h.land start (shipChunkOut p r.1 r.2 s) =
        if s.runView.kernelRunning then h else { h with own := [], uncountedAt := h.uncounted } := by
      cases hs : s.gf.kernelRunning with
      | true =>
        rw [RunLog.land_same (fun _ => hrunning.symm.trans hs) ((congrArg RunView.ring hview).trans hring)]
        exact (if_pos hs).symm
      | false =>
        have hnew : (!start.gf.kernelRunning && (shipChunkOut p r.1 r.2 s).gf.kernelRunning) = true := by
          rw [← hrunning, hs]
          rfl
        rw [RunLog.land, if_pos hnew]
        exact (if_neg (by rw [show s.runView.kernelRunning = false from hs]; rintro ⟨⟩)).symm
    rw [hland, hview, hpc]
    exact hround.chunk
  · rw [RunLog.land_same (t := shipFinish p s) (fun ht => hrunning.symm.trans ht) hring]
    exact hround.finish

/-- The end of a stream lands its pad, and ends the kernel's run. -/
theorem endStream_runView (e : Env) (s : State) :
    ∃ bs running, (pollHold e (endStream e s)).runView =
        { s.runView.took bs with kernelRunning := running } ∧
      (running = true → s.gf.kernelRunning = true) := by
  have hhold : ∀ u, (pollHold e u).runView = u.runView := by
    intro u
    simp only [pollHold]
    split_ifs <;> rfl
  have hrun : ∀ u, (endRun e.now u).runView = { u.runView with kernelRunning := false } := by
    intro u
    simp only [endRun]
    split <;> rfl
  rw [hhold]
  simp only [endStream]
  split
  · rw [hrun]
    simp only [endPad]
    split
    · obtain ⟨bs, hview⟩ := darkPad_runView e.ok s
      exact ⟨bs, false, congrArg (fun v : RunView => { v with kernelRunning := false }) hview,
          by rintro ⟨⟩⟩
    · exact ⟨[], false, by rw [RunView.took_nil], by rintro ⟨⟩⟩
  · exact ⟨[], s.gf.kernelRunning, by rw [RunView.took_nil]; rfl, id⟩

theorem shipBody_run {h : RunLog} {e : Env} {gate : Bool} {s : State}
    (hinv : RunInv h s.runView (.sampled gate)) :
    RunInv (h.land s (shipBody e gate s)) (shipBody e gate s).runView (shipBody e gate s).pc := by
  have hhere : s.gf.suspended = false := hinv.here rfl
  have hedge : State.runView { s with gf := gateEdge gate s.gf } = s.runView := by
    simp only [gateEdge]
    split_ifs <;> rfl
  simp only [shipBody, shipGated]
  split
  · obtain ⟨bs, running, hview, hrunning⟩ := endStream_runView e { s with gf := gateEdge gate s.gf }
    rw [hedge] at hview
    exact hinv.lands (t := { pollHold e (endStream e _) with pc := .check }) hview
      (fun hr => (congrArg RunView.kernelRunning hedge).symm.trans (hrunning hr)) rfl rfl rfl
  · split
    · exact hinv.stay hedge rfl rfl (by rintro ⟨⟩)
    · have hround : RoundInv h (anchor e.now { s with gf := gateEdge gate s.gf }).runView false := by
        change RoundInv h (State.runView { s with gf := gateEdge gate s.gf }) false
        rw [hedge]
        exact {
          active := hinv.active
          here := hhere
          suffix := hinv.suffix hhere
          counts := hinv.counts hhere
          starts := by rintro ⟨⟩
          owns := by rintro ⟨⟩ }
      exact shipLoop_run (p := ⟨gate, dueIndex e.later _, false⟩) hround rfl
        (congrArg RunView.kernelRunning hedge)

/-- One byte of a chunk lands. -/
theorem take_run {h : RunLog} {v : RunView} {p : Pass} {c : Chunk} {b : UInt8} {rest : List UInt8}
    (hinv : RunInv h v (.writing p c (b :: rest))) :
    RunInv { h with own := h.own ++ [b] } { v with ring := v.ring ++ [b] } (.writing p c rest) := by
  have hhere : v.suspended = false := hinv.here rfl
  have hintake : RunView.intake { v with ring := v.ring ++ [b] } = v.intake + 1 := by
    simp only [RunView.intake, List.length_append, List.length_singleton]
    omega
  exact {
    active := hinv.active
    here := fun _ => hhere
    owns := hinv.owns
    suffix := fun hs => by
      obtain ⟨front, hfront⟩ := hinv.suffix hs
      exact ⟨front, by rw [← List.append_assoc, hfront, List.append_assoc]⟩
    counts := fun hs => by
      obtain ⟨⟨hword, hle⟩, hrest⟩ := hinv.counts hs
      rw [List.length_cons] at hword hle hrest
      refine ⟨⟨?_, ?_⟩, by omega⟩
      · rw [hintake, show v.intake + 1 + rest.length = v.intake + (rest.length + 1) by omega]
        exact hword
      · rw [hintake]
        change h.uncounted + c.bytes.length ≤ _
        omega
    starts := fun hstart => by
      obtain ⟨hword, hle⟩ := hinv.starts hstart
      refine ⟨?_, hle⟩
      rw [hintake, UInt32.ofNat_add, hword, List.length_append, List.length_singleton, ← Nat.add_assoc,
        UInt32.ofNat_add (h.uncountedAt + h.own.length) 1, add_assoc]
    stopped := fun hc => absurd hc (ShipPc.not_compares rfl)
    holds := fun _ ha => by cases ha }

/-- The write fails: what has landed of the chunk stays uncounted. -/
theorem failed_run {h : RunLog} {v : RunView} {p : Pass} {c : Chunk} {rest : List UInt8}
    (hinv : RunInv h v (.writing p c rest)) :
    RunInv { h with uncounted := h.uncounted + (c.bytes.length - rest.length) } v (.wrote p c false) where
  active := hinv.active
  here := hinv.here
  owns := hinv.owns
  suffix := hinv.suffix
  counts := fun hs => by
    obtain ⟨⟨hword, hle⟩, hrest⟩ := hinv.counts hs
    constructor
    · have hsum : UInt32.ofNat v.intake + UInt32.ofNat rest.length =
          v.written + UInt32.ofNat (h.uncounted + (c.bytes.length - rest.length)) +
            UInt32.ofNat rest.length := by
        rw [← UInt32.ofNat_add, hword, add_assoc, ← UInt32.ofNat_add]
        congr 2
        omega
      exact add_right_cancel hsum
    · change h.uncounted + (c.bytes.length - rest.length) + 0 ≤ v.intake + 0
      omega
  starts := fun hstart => ⟨(hinv.starts hstart).word, Nat.le_add_right_of_le (hinv.starts hstart).le⟩
  stopped := fun hc => absurd hc (ShipPc.not_compares rfl)
  holds := fun _ ha => by cases ha

theorem shipWrite_run {h : RunLog} {e : Env} {p : Pass} {c : Chunk} {rest : List UInt8} {s : State}
    (hinv : RunInv h s.runView (.writing p c rest)) (hpc : s.pc = .writing p c rest) :
    RunInv (h.ship s e) (shipStep e s).runView (shipStep e s).pc := by
  have hstep : shipStep e s = shipWrite e p c rest s := by rw [shipStep, hpc]
  simp only [RunLog.ship, hpc, hstep]
  cases rest with
  | nil =>
    have hland : h.land s (shipWrite e p c [] s) = h :=
      RunLog.land_view (show (shipWrite e p c [] s).runView = s.runView from rfl)
    change RunInv (h.land s (shipWrite e p c [] s)) _ _
    rw [hland]
    exact {
      active := hinv.active
      here := hinv.here
      owns := hinv.owns
      suffix := hinv.suffix
      counts := fun hs => (hinv.counts hs).1
      starts := hinv.starts
      stopped := fun hc => absurd hc (ShipPc.not_compares rfl)
      holds := fun _ ha => by cases ha }
  | cons b rest =>
    simp only [shipWrite]
    cases htake : e.ok && canTake s with
    | true =>
      have hland : h.land s { s with kernel := s.kernel.take b, pc := .writing p c rest } =
          { h with own := h.own ++ [b] } := RunLog.land_bytes id rfl
      simp only [if_true]
      rw [hland]
      exact take_run hinv
    | false => exact failed_run hinv

theorem shipWrote_run {h : RunLog} {p : Pass} {c : Chunk} {ok : Bool} {s : State}
    (hinv : RunInv h s.runView (.wrote p c ok)) :
    RunInv (h.land s (shipWrote p c ok s)) (shipWrote p c ok s).runView (shipWrote p c ok s).pc := by
  have hhere : s.gf.suspended = false := hinv.here rfl
  cases ok with
  | false =>
    have hround : RoundInv h s.runView p.startRun := {
      active := hinv.active
      here := hhere
      suffix := hinv.suffix hhere
      counts := hinv.counts hhere
      starts := fun hs => hinv.starts (by rw [hs]; rfl)
      owns := fun _ => hinv.owns rfl }
    have hland : h.land s (shipWrote p c false s) = h :=
      RunLog.land_view (show (shipWrote p c false s).runView = s.runView from rfl)
    rw [hland]
    exact hround.finish
  | true =>
    have hround : RoundInv h (chunkLanded c s).runView (p.startRun || c.first) := {
      active := hinv.active
      here := hhere
      suffix := hinv.suffix hhere
      counts := by
        obtain ⟨hword, hle⟩ := hinv.counts hhere
        have hwritten : (chunkLanded c s).runView.written = s.gf.written + UInt32.ofNat c.bytes.length :=
          if_pos hinv.active
        refine ⟨?_, by change h.uncounted + 0 ≤ s.runView.intake + 0; omega⟩
        rw [hwritten, add_assoc, ← UInt32.ofNat_add, show c.bytes.length + (h.uncounted + 0) =
          h.uncounted + c.bytes.length by omega]
        exact hword
      starts := hinv.starts
      owns := fun _ => hinv.owns rfl }
    simp only [shipWrote, if_true, shipNext]
    split
    · have hland : h.land s (shipFinish p (chunkLanded c s)) = h := RunLog.land_same id rfl
      rw [hland]
      exact (hround.mono fun hs => by rw [hs]; rfl).finish
    · exact shipLoop_run (p := { p with startRun := p.startRun || c.first }) hround rfl rfl

/-! ## The gate

Counts that match, as words, leave nothing in the ring but the stream's own bytes. -/

/-- A tally that has not saturated and matches leaves nothing uncounted. -/
theorem tally_exact {v : RunView} {written : UInt32} {uncounted : Nat}
    (hcounts : RunView.Counted v.intake written uncounted 0 0) (hsmall : v.intake < 2 ^ 32 - 1)
    (htook : UInt32.ofNat v.intake = written) : uncounted = 0 := by
  obtain ⟨hword, hle⟩ := hcounts
  refine Counts.ofNat_inj (by omega) (by decide) ?_
  have hsum : written + 0 = written + UInt32.ofNat uncounted := by
    rw [add_zero, ← htook]
    exact hword.trans (by rw [htook, Nat.add_zero])
  exact (add_left_cancel hsum).symm

/-- **The gate passes own bytes only.** The kernel has processed what the ring took before the
run's first byte, and its tally matches or has saturated. -/
theorem gate_passes_own {h : RunLog} {v : RunView} {base written : UInt32}
    (hsuffix : h.own <:+ v.consumed ++ v.ring)
    (hcounts : RunView.Counted v.intake written h.uncounted 0 0)
    (hstarts : RunView.Starts v.intake h base)
    (hprocessed : UInt32.ofNat v.consumed.length = base)
    (htook : UInt32.ofNat (min v.intake (2 ^ 32 - 1)) = written ∨
      UInt32.ofNat (min v.intake (2 ^ 32 - 1)) = 0xFFFFFFFF) : v.HoldsOwn h := by
  intro hknown hown hring
  -- no byte is uncounted, so none was when the run began
  have huncounted : h.uncounted = 0 := by
    rcases hknown with hsmall | hnone
    · rw [Nat.min_eq_left (by omega)] at htook
      refine tally_exact hcounts hsmall (htook.resolve_right fun hmax => ?_)
      have hlast : v.intake = 2 ^ 32 - 1 := Counts.ofNat_inj (by omega) (by decide) hmax
      omega
    · exact hnone
  have hat : h.uncountedAt = 0 := by
    have hle := hstarts.le
    omega
  have hword := hstarts.word
  rw [hat, Nat.zero_add, ← hprocessed] at hword
  exact Counts.queue_eq hsuffix hring hown hword

/-! ## The run start -/

theorem ShipPc.busy_asks {pc : ShipPc} (h : pc.asks = true) : pc.busy = true := by
  cases pc with
  | _ => first | rfl | cases h

theorem RunView.countsAt_asks {h : RunLog} {v : RunView} {pc : ShipPc} (hpc : pc.asks = true) :
    v.CountsAt h pc ↔ RunView.Counted v.intake v.written h.uncounted 0 0 := by
  cases pc with
  | _ => first | rfl | cases hpc

theorem RunView.startsAt_asks {h : RunLog} {v : RunView} {pc : ShipPc} (hpc : pc.asks = true) :
    v.StartsAt h pc := by
  cases pc with
  | _ => trivial

theorem ShipPc.compares_asks {pc : ShipPc} {counted : Bool} (h : pc.asks = true) :
    pc.compares counted = counted := by
  cases pc with
  | gateCounts base written => cases h
  | _ => simp only [compares, h, Bool.and_true]

/-- The gate lets the run be asked for. -/
theorem RunInv.ask {h : RunLog} {v : RunView} {pc pc' : ShipPc} {counted : Bool} (hinv : RunInv h v pc)
    (hbusy : pc.busy = true)
    (hcounts : RunView.Counted v.intake v.written h.uncounted 0 0) (hpc' : pc'.asks = true)
    (hstopped : counted = true → v.state ≠ .running ∧ v.state ≠ .underrun)
    (hholds : counted = true → v.HoldsOwn h) : RunInv { h with counted := counted } v pc' where
  active := hinv.active
  here := fun _ => hinv.here (by rw [hbusy]; rfl)
  owns := fun _ => hinv.owns hbusy
  suffix := hinv.suffix
  counts := fun _ => (RunView.countsAt_asks hpc').mpr hcounts
  starts := RunView.startsAt_asks hpc'
  stopped := by
    rw [ShipPc.compares_asks hpc']
    exact hstopped
  holds := fun hc _ => hholds hc

/-- The way to the run ends. -/
theorem RunInv.leave {h : RunLog} {v : RunView} {pc pc' : ShipPc} {counted : Bool} {state : KernelState}
    (hinv : RunInv h v pc) (hcounts : RunView.Counted v.intake v.written h.uncounted 0 0)
    (hpc' : pc'.calm = true) (hlock : pc'.holdsLock = false) :
    RunInv { h with counted := counted } { v with state := state } pc' :=
  .calm hinv.active hpc' (by rw [hlock]; rintro ⟨⟩) hinv.suffix fun _ => hcounts

theorem runGateState_run {h : RunLog} {e : Env} {base written : UInt32} {s : State}
    (hinv : RunInv h s.runView (.gateState base written)) :
    RunInv { h with counted := false } s.runView (runGateState e base written s).pc := by
  have hhere : s.gf.suspended = false := hinv.here rfl
  obtain ⟨hwritten, hcounts⟩ := hinv.counts hhere
  simp only [runGateState]
  split
  · exact hinv.leave hcounts rfl rfl
  · exact hinv.leave hcounts rfl rfl
  · exact hinv.ask rfl hcounts rfl (by rintro ⟨⟩) (by rintro ⟨⟩)
  · exact hinv.ask rfl hcounts rfl (by rintro ⟨⟩) (by rintro ⟨⟩)
  · next state hrunning hunderrun hfault hread =>
    have hstate := readState_eq hread
    exact {
      active := hinv.active
      here := hinv.here
      owns := hinv.owns
      suffix := hinv.suffix
      counts := hinv.counts
      starts := ⟨hinv.starts.word, hinv.starts.le⟩
      stopped := fun _ => by
        change s.kernel.state ≠ _ ∧ s.kernel.state ≠ _
        rw [hstate]
        exact ⟨hrunning, hunderrun⟩
      holds := by rintro ⟨⟩ }

theorem runGateCounts_run {h : RunLog} {e : Env} {base written : UInt32} {s : State}
    (hinv : RunInv h s.runView (.gateCounts base written)) :
    RunInv { h with counted := true } s.runView (runGateCounts e base written s).pc := by
  have hhere : s.gf.suspended = false := hinv.here rfl
  obtain ⟨hwritten, hcounts⟩ := hinv.counts hhere
  simp only [runGateCounts]
  split
  · exact hinv.leave hcounts rfl rfl
  · next hpass =>
    refine hinv.ask rfl hcounts rfl (fun _ => hinv.stopped rfl) fun _ => ?_
    simp only [Bool.or_eq_true, not_or, Bool.and_eq_true, bne_iff_ne, not_and_or, not_not,
      Bool.not_eq_true'] at hpass
    obtain ⟨⟨-, hprocessed⟩, htook⟩ := hpass
    refine gate_passes_own (hinv.suffix hhere) ?_ hinv.starts hprocessed htook
    rw [hwritten]
    exact hcounts

/-- A step of the tail leaves all but the kernel's state. -/
theorem tail_runView {h : RunLog} {e : Env} {s : State} (htail : s.pc.tail = true) :
    h.land s (shipStep e s) = h ∧
      (shipStep e s).runView = { s.runView with state := (shipStep e s).kernel.state } := by
  have hstep := shipStep_tail (e := e) htail
  have hview : (shipStep e s).runView = { s.runView with state := (shipStep e s).kernel.state } :=
    hstep.frame
      (fun g k => State.runView { s with gf := g, kernel := { k with state := (shipStep e s).kernel.state } })
      rfl
  exact ⟨RunLog.land_same (fun ht => (congrArg RunView.kernelRunning hview).symm.trans ht)
    (congrArg RunView.ring hview), hview⟩

/-- Behind the run start, the tail of a pass does not come back to it. -/
theorem tail_calm {e : Env} {s : State} (htail : s.pc.tail = true) (hcalm : s.pc.calm = true)
    (htest : ∀ base written, s.pc ≠ .runTest false base written) :
    (shipStep e s).pc.calm = true ∧ (shipStep e s).pc.holdsLock = false := by
  unfold shipStep
  cases hpc : s.pc with (rw [hpc] at htail hcalm)
  | runTest startRun base written =>
    cases startRun with
    | true => cases hcalm
    | false => exact absurd hpc (htest base written)
  | gateFault =>
    simp only [exchangeFailed]
    split <;> exact ⟨rfl, rfl⟩
  | runFault relight stop =>
    simp only [issueFault, exchangeFailed]
    split <;> exact ⟨rfl, rfl⟩
  | runEnd relight rc =>
    simp only [issueEnd]
    split <;> exact ⟨rfl, rfl⟩
  | latchFault =>
    simp only [latchFaultRecord]
    split <;> exact ⟨rfl, rfl⟩
  | latchFail => exact ⟨rfl, rfl⟩
  | runRc rc =>
    simp only [shipRc, exchangeFailed]
    split_ifs <;> exact ⟨rfl, rfl⟩
  | check =>
    simp only [checkSnapshot]
    split <;> exact ⟨rfl, rfl⟩
  | checkState =>
    simp only [checkState]
    split <;> exact ⟨rfl, rfl⟩
  | checkFault =>
    simp only [exchangeFailed]
    split <;> exact ⟨rfl, rfl⟩
  | raise next => cases next <;> exact ⟨rfl, rfl⟩
  | gateState base written => cases hcalm
  | gateCounts base written => cases hcalm
  | runLatch => cases hcalm
  | runWrite relight retried => cases hcalm
  | runState relight retried noData => cases hcalm
  | runStop relight => cases hcalm
  | _ => cases htail

/-- An asking step to an asking step. -/
theorem RunInv.asking {h : RunLog} {v : RunView} {pc pc' : ShipPc} (hinv : RunInv h v pc)
    (hpc : pc.asks = true) (hpc' : pc'.asks = true) : RunInv h v pc' := by
  have hhere := hinv.here (by rw [ShipPc.busy_asks hpc]; rfl)
  exact hinv.ask (ShipPc.busy_asks hpc) ((RunView.countsAt_asks hpc).mp (hinv.counts hhere)) hpc'
    (fun hc => hinv.stopped (by rw [ShipPc.compares_asks hpc]; exact hc)) fun hc => hinv.holds hc hpc

/-- An asking step to the end of the run start. -/
theorem RunInv.asked {h : RunLog} {v : RunView} {pc pc' : ShipPc} {state : KernelState}
    (hinv : RunInv h v pc) (hpc : pc.asks = true) (hpc' : pc'.calm = true)
    (hlock : pc'.holdsLock = false) : RunInv h { v with state := state } pc' := by
  have hhere := hinv.here (by rw [ShipPc.busy_asks hpc]; rfl)
  exact hinv.leave ((RunView.countsAt_asks hpc).mp (hinv.counts hhere)) hpc' hlock

theorem Kernel.stop_stopped {k : Kernel} (h : k.state ≠ .running ∧ k.state ≠ .underrun) :
    k.stop.state ≠ .running ∧ k.stop.state ≠ .underrun := by
  simp only [Kernel.stop]
  split
  · next hr => exact absurd hr h.1
  · exact ⟨by rintro ⟨⟩, by rintro ⟨⟩⟩
  · exact h

/-- A change of the kernel's state alone. -/
theorem RunInv.state {h : RunLog} {v : RunView} {pc : ShipPc} {state : KernelState}
    (hinv : RunInv h v pc)
    (hstopped : v.state ≠ .running ∧ v.state ≠ .underrun → state ≠ .running ∧ state ≠ .underrun) :
    RunInv h { v with state := state } pc :=
  { hinv with stopped := fun hc => hstopped (hinv.stopped hc) }

theorem runView_kernel {s : State} {k : Kernel} (hconsumed : k.consumed = s.kernel.consumed)
    (hring : k.ring = s.kernel.ring) :
    State.runView { s with kernel := k } = { s.runView with state := k.state } := by
  simp only [State.runView, hconsumed, hring]

/-- The run start, from the test ahead of the gate on. -/
theorem runTest_run {h : RunLog} {startRun : Bool} {base written : UInt32} {s : State}
    (hinv : RunInv h s.runView (.runTest startRun base written)) :
    RunInv h s.runView (runTest startRun base written s).pc := by
  have hcheck : RunInv h s.runView .check := .calm hinv.active rfl (by rintro ⟨⟩) hinv.suffix
    fun hs => (hinv.counts hs).2
  simp only [runTest]
  split
  · next hgo =>
    simp only [Bool.and_eq_true] at hgo
    obtain ⟨⟨hstart, -⟩, -⟩ := hgo
    subst hstart
    exact {
      active := hinv.active
      here := hinv.here
      owns := hinv.owns
      suffix := hinv.suffix
      counts := fun hs => ⟨(hinv.counts hs).1 rfl, (hinv.counts hs).2⟩
      starts := hinv.starts rfl
      stopped := fun hc => absurd hc (ShipPc.not_compares rfl)
      holds := fun _ ha => by cases ha }
  · exact hcheck

/-- The steps that ask for the run. A kernel that does not play starts no run by itself. -/
theorem asks_run {h : RunLog} {e : Env} {s : State} (hinv : RunInv h s.runView s.pc)
    (hasks : s.pc.asks = true) :
    RunInv h { s.runView with state := (shipStep e s).kernel.state } (shipStep e s).pc := by
  unfold shipStep
  cases hpc : s.pc with (rw [hpc] at hinv hasks)
  | runLatch =>
    simp only [issueRelight]
    split_ifs
    · exact hinv.asking rfl rfl
    · exact hinv.asked rfl rfl rfl
    · exact hinv.asking rfl rfl
  | runWrite relight retried =>
    simp only [issueWrite]
    cases hreply : s.kernel.runReply e.ok with
    | accepted => exact hinv.asked rfl rfl rfl
    | noData => exact hinv.asking rfl rfl
    | refused => exact hinv.asking rfl rfl
  | runState relight retried noData =>
    simp only [issueState]
    split
    case h_1 =>
      split
      · exact hinv.asking rfl rfl
      · exact hinv.asked rfl rfl rfl
    case h_3 => split <;> exact hinv.asked rfl rfl rfl
    all_goals exact hinv.asked rfl rfl rfl
  | runStop relight =>
    exact (hinv.asking rfl rfl).state fun hs => Kernel.stop_stopped hs
  | _ => cases hasks

/-- The steps behind the run start. -/
theorem behind_run {h : RunLog} {e : Env} {s : State} (hinv : RunInv h s.runView s.pc)
    (htail : s.pc.tail = true) (hcalm : s.pc.calm = true)
    (htest : ∀ base written, s.pc ≠ .runTest false base written) :
    RunInv (h.land s (shipStep e s)) (shipStep e s).runView (shipStep e s).pc := by
  obtain ⟨hland, hview⟩ := tail_runView (h := h) (e := e) htail
  obtain ⟨hcalm', hlock⟩ := tail_calm (e := e) htail hcalm htest
  rw [hland, hview]
  exact .calm hinv.active hcalm' (by rw [hlock]; rintro ⟨⟩) hinv.suffix
    fun hs => (RunView.countsAt_calm hcalm).mp (hinv.counts hs)

/-- **One step of the shipper.** By the point of the thread: between passes, inside a clear, at a
chunk, at the readings of the gate, and behind the asking. -/
theorem shipStep_run {h : RunLog} {e : Env} {s : State} (hinv : RunInv h s.runView s.pc) :
    RunInv (h.ship s e) (shipStep e s).runView (shipStep e s).pc := by
  have htail := tail_runView (h := h) (e := e) (s := s)
  have hbehind := behind_run (e := e) hinv
  have hasks := asks_run (e := e) hinv
  cases hpc : s.pc with (rw [hpc] at hinv htail hbehind hasks)
  | writing p c rest => exact shipWrite_run hinv hpc
  | top =>
    simp only [RunLog.ship, shipStep, hpc]
    exact pendingSnapshot_run hinv
  | pendState clear zeros =>
    simp only [RunLog.ship, shipStep, hpc]
    refine hinv.stay rfl rfl ?_ ?_
    · simp only [pendingState]
      split <;> split <;> rfl
    · simp only [pendingState]
      split <;> split <;> rintro ⟨⟩
  | pendSeek zeros =>
    simp only [RunLog.ship, shipStep, hpc]
    exact pendingSeek_run hinv
  | pendCount zeros =>
    simp only [RunLog.ship, shipStep, hpc]
    rw [RunLog.land_view (s := s) (t := pendingCount e zeros s) rfl]
    exact {
      active := hinv.active
      here := by rintro ⟨⟩
      owns := by rintro ⟨⟩
      suffix := hinv.suffix
      counts := hinv.counts
      starts := trivial
      stopped := fun hc => absurd hc (ShipPc.not_compares rfl)
      holds := fun _ ha => by cases ha }
  | pendDone cleared counts zeros =>
    simp only [RunLog.ship, shipStep, hpc]
    exact pendingDone_run hinv
  | pendOurs =>
    simp only [RunLog.ship, shipStep, hpc, pendingOurs]
    split_ifs <;> exact hinv.stay rfl rfl rfl (by rintro ⟨⟩)
  | lock =>
    simp only [RunLog.ship, shipStep, hpc]
    exact shipLock_run hinv
  | sampled gate =>
    simp only [RunLog.ship, shipStep, hpc]
    exact shipBody_run hinv
  | wrote p c ok =>
    simp only [RunLog.ship, shipStep, hpc]
    exact shipWrote_run hinv
  | runTest startRun base written =>
    simp only [RunLog.ship, shipStep, hpc]
    rw [RunLog.land_view (s := s) (t := runTest startRun base written s) rfl]
    exact runTest_run hinv
  | gateState base written =>
    simp only [RunLog.ship, shipStep, hpc]
    exact runGateState_run hinv
  | gateCounts base written =>
    simp only [RunLog.ship, shipStep, hpc]
    exact runGateCounts_run hinv
  | runLatch =>
    rw [show h.ship s e = h.land s (shipStep e s) by simp only [RunLog.ship, hpc], (htail rfl).1,
      (htail rfl).2]
    exact hasks rfl
  | runWrite relight retried =>
    rw [show h.ship s e = h.land s (shipStep e s) by simp only [RunLog.ship, hpc], (htail rfl).1,
      (htail rfl).2]
    exact hasks rfl
  | runState relight retried noData =>
    rw [show h.ship s e = h.land s (shipStep e s) by simp only [RunLog.ship, hpc], (htail rfl).1,
      (htail rfl).2]
    exact hasks rfl
  | runStop relight =>
    rw [show h.ship s e = h.land s (shipStep e s) by simp only [RunLog.ship, hpc], (htail rfl).1,
      (htail rfl).2]
    exact hasks rfl
  | _ =>
    simp only [RunLog.ship, hpc]
    exact hbehind rfl rfl (by rintro _ _ ⟨⟩)

/-! ## The other threads

They can stop the kernel, and they do not touch the counts. -/

/-- A stop is all that a call does to what the gate reads. -/
def Stops (s t : State) : Prop :=
  t.runView = s.runView ∨ t.runView = { s.runView with state := s.kernel.stop.state }

theorem RunInv.stops {h : RunLog} {s t : State} {pc : ShipPc} (hinv : RunInv h s.runView pc)
    (hstops : Stops s t) : RunInv h t.runView pc := by
  rcases hstops with hview | hview
  · rw [hview]
    exact hinv
  · rw [hview]
    exact hinv.state fun hs => Kernel.stop_stopped hs

theorem Stops.view {s t u : State} (hstops : Stops s t) (hview : u.runView = t.runView) : Stops s u :=
  hstops.imp hview.trans hview.trans

theorem Kernel.stop_kept (k : Kernel) : k.stop.consumed = k.consumed ∧ k.stop.ring = k.ring := by
  simp only [Kernel.stop]
  split <;> exact ⟨rfl, rfl⟩

theorem stop_stops (s : State) : Stops s { s with kernel := s.kernel.stop } :=
  .inr (runView_kernel s.kernel.stop_kept.1 s.kernel.stop_kept.2)

theorem clampLocked_stops (s : State) : Stops s (clampLocked s).2 := by
  simp only [clampLocked]
  split
  · exact (stop_stops s).view rfl
  · exact .inl rfl

theorem levRecord_runView (idx : Nat) (power : UInt8) (fire : Bool) (s : State) :
    State.runView { s with gf := levRecord idx power fire s.gf } = s.runView := by
  obtain ⟨lev, warned, hrec⟩ := levRecord_frame idx power fire s.gf
  rw [hrec]
  rfl

theorem laserEventLocked_stops (power : UInt8) (fire : Bool) (s : State) :
    Stops s (laserEventLocked power fire s) := by
  simp only [laserEventLocked]
  split_ifs
  · exact clampLocked_stops s
  · exact (clampLocked_stops s).view (levRecord_runView _ _ _ _)
  · exact .inl (levRecord_runView _ _ _ _)
  · exact .inl rfl

theorem pulsePlace_runView (b : StepByte) (idx : Nat) (s : State) :
    (pulsePlace b idx s).runView = s.runView := by
  simp only [pulsePlace]
  split_ifs <;> rfl

theorem locked_stops (c : Call) (now : Nat) (s : State) : Stops s (c.locked now s) := by
  cases c with
  | wakeup =>
    left
    simp only [Call.locked, wakeupLocked, wakeupStream, wakeupAssert, wakeupIndex, wakeupContinue,
      wakeupFresh]
    split_ifs <;> rfl
  | pulse stepBits dirBits =>
    simp only [Call.locked, pulseLocked, pulseAt]
    split_ifs
    · exact clampLocked_stops (noteMargin s)
    · exact Stops.view (s := s) (clampLocked_stops (noteMargin s)) (pulsePlace_runView _ _ _)
    · exact .inl (pulsePlace_runView _ _ _)
    · exact .inl rfl
  | laser power fire => exact laserEventLocked_stops _ _ { s with gf := _ }
  | jog on => exact laserEventLocked_stops _ _ { s with gf := _ }

theorem goIdle_runView (reset : Bool) (stepBits dirBits : UInt8) (s : State) :
    (gfStreamGoIdle reset stepBits dirBits s).runView = s.runView := by
  obtain ⟨killed, killStep, lev, streaming, hgo⟩ := goIdle_frame reset stepBits dirBits s
  rw [hgo]
  rfl

/-- What a reset does to what the gate reads: it takes the stream's run away only with a clear
that it leaves pending. -/
structure Resets (g r : Gf) : Prop where
  view : ∀ s : State, State.runView { s with gf := r } =
    { State.runView { s with gf := g } with
      kernelRunning := r.kernelRunning, clearPending := r.clearPending }
  kept : r.clearPending = true ∨ r.kernelRunning = g.kernelRunning ∧ r.clearPending = g.clearPending

theorem Resets.trans {g h r : Gf} (hgh : Resets g h) (hhr : Resets h r) : Resets g r where
  view := fun s => by rw [hhr.view, hgh.view]
  kept := by
    rcases hhr.kept with hr | ⟨hrunning, hclear⟩
    · exact .inl hr
    · rw [hrunning, hclear]
      exact hgh.kept

theorem resetStream_resets (now : Nat) (killed : Bool) (g : Gf) :
    Resets g (resetStream now killed g) := by
  have hrun : ∀ g, Resets g (resetRun now killed g) := by
    intro g
    simp only [resetRun]
    split
    · exact ⟨fun _ => rfl, .inl rfl⟩
    · exact ⟨fun _ => rfl, .inr ⟨rfl, rfl⟩⟩
  have hread : ∀ dropped g, Resets g (resetReadback killed dropped g) := by
    intro dropped g
    simp only [resetReadback]
    split <;> exact ⟨fun _ => rfl, .inr ⟨rfl, rfl⟩⟩
  have hdrop : ∀ dropped, Resets g (resetLaser (dropBacklogLocked dropped g).1) :=
    fun _ => ⟨fun _ => rfl, .inr ⟨rfl, rfl⟩⟩
  exact ((hdrop _).trans (hrun _)).trans (hread _ _)

theorem resetLocked_resets (now : Nat) (g : Gf) : Resets g (resetLocked now g) := by
  have hfailed : ∀ g, Resets g (resetFailed g) := fun _ => ⟨fun _ => rfl, .inl rfl⟩
  have hlit : ∀ g lit, Resets g { g with lastLit := lit } := fun _ _ => ⟨fun _ => rfl, .inr ⟨rfl, rfl⟩⟩
  have hcall : Resets g { g with killed := false, readback := .none } :=
    ⟨fun _ => rfl, .inr ⟨rfl, rfl⟩⟩
  have hends : Resets g (if resetEnds g then
      resetStream now g.killed { g with killed := false, readback := .none }
      else { g with killed := false, readback := .none }) := by
    split
    · exact hcall.trans (resetStream_resets _ _ _)
    · exact hcall
  simp only [resetLocked]
  refine Resets.trans ?_ (hlit _ _)
  split
  · exact hends.trans (hfailed _)
  · exact hends

theorem reset_run {h : RunLog} {now : Nat} {s : State} {pc : ShipPc} (hinv : RunInv h s.runView pc) :
    RunInv h (gfStreamReset now s).runView pc := by
  obtain ⟨hview, hkept⟩ := resetLocked_resets now s.gf
  have hreset : (gfStreamReset now s).runView = _ := hview s
  rw [hreset]
  refine { hinv with owns := fun hbusy => ?_ }
  rcases hkept with hclear | ⟨hrunning, hclear⟩
  · exact .inr hclear
  · change (resetLocked now s.gf).kernelRunning = true ∨ (resetLocked now s.gf).clearPending = true
    rw [hrunning, hclear]
    exact hinv.owns hbusy

/-! ## The handover

A device that comes back starts a history of its own. -/

/-- A takeover that is not over has the device still handed over. -/
def SwapAway (s : State) : Prop := s.proto.count .resumeSwap ≤ s.gf.suspended.toNat

/-- While another process has the device, nothing is on its way to a run. -/
theorem RunInv.away {h : RunLog} {v : RunView} {pc : ShipPc} (hactive : v.active = true)
    (haway : v.suspended = true) (hidle : (pc.busy || pc.holdsLock) = false) : RunInv h v pc where
  active := hactive
  here := by
    rw [hidle]
    rintro ⟨⟩
  owns := by
    rw [(Bool.or_eq_false_iff.mp hidle).1]
    rintro ⟨⟩
  suffix := by
    rw [haway]
    rintro ⟨⟩
  counts := by
    rw [haway]
    rintro ⟨⟩
  starts := RunView.startsAt_idle (Bool.or_eq_false_iff.mp hidle).1
  stopped := by
    rw [ShipPc.compares_busy (Bool.or_eq_false_iff.mp hidle).1]
    rintro ⟨⟩
  holds := by
    rw [ShipPc.asks_busy (Bool.or_eq_false_iff.mp hidle).1]
    rintro _ ⟨⟩

theorem RunInv.idle {h : RunLog} {v : RunView} {pc : ShipPc} (hinv : RunInv h v pc)
    (haway : v.suspended = true) : (pc.busy || pc.holdsLock) = false := by
  rw [← Bool.not_eq_true]
  intro hbusy
  exact absurd (haway.symm.trans (hinv.here hbusy)) (by decide)

/-- A ring that none of the engine's bytes is in, counted from zero. -/
theorem RunView.countsAt_fresh {h : RunLog} {v : RunView} {pc : ShipPc} (hpc : pc.busy = false)
    (huncounted : h.uncounted = v.intake) (hwritten : v.written = 0) : v.CountsAt h pc := by
  have hcounts : RunView.Counted v.intake v.written h.uncounted 0 0 := by
    rw [huncounted, hwritten]
    exact ⟨(zero_add _).symm, le_refl _⟩
  cases pc with
  | pendCount zeros => exact huncounted
  | pendDone cleared counts zeros =>
    cases cleared with
    | true => exact huncounted
    | false => exact hcounts
  | runTest startRun base written =>
    rw [show startRun = false from hpc]
    exact ⟨by rintro ⟨⟩, hcounts⟩
  | writing p c rest => cases hpc
  | wrote p c ok => cases hpc
  | gateState base written => cases hpc
  | gateCounts base written => cases hpc
  | _ => exact hcounts

/-- The stream starts over at the end of a takeover. -/
theorem swap_run {h : RunLog} {s : State} {pc : ShipPc} (hinv : RunInv h s.runView pc)
    (haway : s.gf.suspended = true) :
    RunInv { h with own := [], uncounted := s.kernel.intake }
      (State.runView { s with gf := resumeSwap s.gf }) pc := by
  obtain ⟨hidle, -⟩ := Bool.or_eq_false_iff.mp (hinv.idle haway)
  exact {
    active := hinv.active
    here := fun _ => rfl
    owns := by
      rw [hidle]
      rintro ⟨⟩
    suffix := fun _ => List.nil_suffix
    counts := fun _ => RunView.countsAt_fresh hidle rfl rfl
    starts := RunView.startsAt_idle hidle
    stopped := by
      rw [ShipPc.compares_busy hidle]
      rintro ⟨⟩
    holds := by
      rw [ShipPc.asks_busy hidle]
      rintro _ ⟨⟩ }

/-- A suspend takes place between two runs only: the engine is drained. -/
theorem suspend_run {h : RunLog} {readOk : Bool} {s : State} (hinv : RunInv h s.runView s.pc)
    (hlock : s.pc.holdsLock = false) : RunInv h (gfStreamSuspend readOk s).runView s.pc := by
  have hactive : s.gf.active = true := hinv.active
  simp only [gfStreamSuspend, hactive, Bool.not_true, Bool.false_eq_true, if_false]
  split
  · next hdrained =>
    simp only [drained, Bool.and_eq_true, Bool.not_eq_true'] at hdrained
    obtain ⟨⟨⟨⟨⟨-, hrunning⟩, hclear⟩, -⟩, -⟩, -⟩ := hdrained
    have hidle : s.pc.busy = false := by
      rw [← Bool.not_eq_true]
      intro hbusy
      rcases hinv.owns hbusy with hr | hc
      · exact absurd (hrunning.symm.trans hr) (by decide)
      · exact absurd (hclear.symm.trans hc) (by decide)
    have hboth : (s.pc.busy || s.pc.holdsLock) = false := by rw [hidle, hlock]; rfl
    split <;> exact .away rfl rfl hboth
  · exact hinv

theorem resume_run {h : RunLog} {latchOk emptied counted : Bool} {s : State}
    (hinv : RunInv h s.runView s.pc) (haway : s.gf.suspended = true) :
    RunInv h (gfStreamResume latchOk emptied counted s).runView s.pc ∧
      SwapAway (gfStreamResume latchOk emptied counted s) := by
  have hactive : s.gf.active = true := hinv.active
  have hidle := hinv.idle haway
  have hbase : ∀ emptied, (rebaseAtTakeover emptied counted s.kernel s.gf).active = s.gf.active ∧
      (rebaseAtTakeover emptied counted s.kernel s.gf).suspended = s.gf.suspended := by
    intro emptied
    simp only [rebaseAtTakeover]
    split <;> exact ⟨rfl, rfl⟩
  simp only [gfStreamResume, hactive, Bool.not_true, Bool.false_eq_true, if_false]
  refine ⟨.away ((hbase _).1.trans hactive) ((hbase _).2.trans haway) hidle, ?_⟩
  simp only [SwapAway]
  rw [(hbase _).2, haway]
  split <;> exact le_refl 1

/-! ## The kernel

The kernel plays: bytes go from the ring to what has been consumed. -/

theorem RunView.countsAt_intake {h : RunLog} {v w : RunView} {pc : ShipPc} (hintake : v.intake = w.intake)
    (hwritten : v.written = w.written) (hcounts : v.CountsAt h pc) : w.CountsAt h pc := by
  cases pc with
  | wrote p c ok =>
    cases ok with
    | _ =>
      simp only [CountsAt, ← hintake, ← hwritten]
      exact hcounts
  | pendDone cleared counts zeros =>
    cases cleared with
    | _ =>
      simp only [CountsAt, ← hintake, ← hwritten]
      exact hcounts
  | _ =>
    simp only [CountsAt, ← hintake, ← hwritten]
    exact hcounts

theorem RunView.startsAt_intake {h : RunLog} {v w : RunView} {pc : ShipPc} (hintake : v.intake = w.intake)
    (hbase : v.runBase = w.runBase) (hstarts : v.StartsAt h pc) : w.StartsAt h pc := by
  cases pc with
  | writing p c rest | wrote p c ok | runTest startRun base written | gateState base written
  | gateCounts base written =>
    simp only [StartsAt, ← hintake, ← hbase]
    exact hstarts
  | _ => trivial

theorem act_run {h : RunLog} {a : KernelAct} {k : Kernel} {s : State} {pc : ShipPc}
    (hinv : RunInv h s.runView pc) (hact : s.kernel.act a = some k) :
    RunInv h (State.runView { s with kernel := k }) pc := by
  cases a with
  | play =>
    simp only [Kernel.act] at hact
    split at hact
    · next b rest hstate hring =>
      cases hact
      have hplayed : s.kernel.consumed ++ s.kernel.ring = s.kernel.consumed ++ [b] ++ rest := by
        rw [hring, List.append_assoc]
        rfl
      have hintake : s.runView.intake =
          (State.runView { s with kernel := s.kernel.playByte b rest }).intake := by
        have hlength := congrArg List.length hplayed
        simp only [List.length_append] at hlength
        simp only [RunView.intake, State.runView, Kernel.playByte, List.length_append]
        omega
      exact {
        active := hinv.active
        here := hinv.here
        owns := hinv.owns
        suffix := fun hs => hplayed ▸ hinv.suffix hs
        counts := fun hs => RunView.countsAt_intake hintake rfl (hinv.counts hs)
        starts := RunView.startsAt_intake hintake rfl hinv.starts
        stopped := hinv.stopped
        holds := fun hc ha => absurd hstate (hinv.stopped (by rw [ShipPc.compares_asks ha]; exact hc)).1 }
    · cases hact
  | runOut =>
    simp only [Kernel.act] at hact
    split at hact
    · next hstate hring =>
      cases hact
      exact hinv.state fun hs => absurd hstate hs.1
    · cases hact
  | rampEnd =>
    simp only [Kernel.act] at hact
    split at hact
    · cases hact
      exact hinv.state fun _ => ⟨by rintro ⟨⟩, by rintro ⟨⟩⟩
    · cases hact
  | foreignStop =>
    cases hact
    exact hinv.stops (stop_stops s)
  | foreignDisable =>
    cases hact
    exact hinv.state fun _ => ⟨by rintro ⟨⟩, by rintro ⟨⟩⟩
  | driverFault =>
    cases hact
    exact hinv.state fun _ => ⟨by rintro ⟨⟩, by rintro ⟨⟩⟩

/-! ## Runs

The theorem over every run, a first run, and a retry behind an underrun. -/

/-- What a reset or a latch failure still does after its lock, and the end of a takeover. -/
theorem protoStep_run {h : RunLog} {s t : State} (hinv : RunInv h s.runView s.pc) (hswap : SwapAway s)
    (hstep : protoStep s = some t) :
    RunInv (RunLog.record s .proto h) t.runView s.pc ∧ SwapAway t := by
  unfold SwapAway at *
  simp only [protoStep] at hstep
  simp only [RunLog.record]
  cases hp : s.proto with rw [hp] at hstep hswap
  | nil => cases hstep
  | cons o rest =>
    have hactive : s.gf.active = true := hinv.active
    cases o with
    | stop =>
      cases hstep
      refine ⟨?_, hswap⟩
      rw [hactive]
      exact hinv.stops ((stop_stops s).view rfl)
    | streamingOff =>
      cases hstep
      refine ⟨?_, hswap⟩
      rw [hactive]
      exact hinv
    | latchAck =>
      cases hstep
      exact ⟨hinv, hswap⟩
    | latchFault =>
      cases hstep
      refine ⟨hinv, ?_⟩
      cases s.latchFailReported <;> exact hswap
    | latchFail =>
      cases hstep
      exact ⟨hinv, hswap⟩
    | raise =>
      cases hstep
      exact ⟨hinv, hswap⟩
    | closeLatch =>
      cases hstep
      exact ⟨hinv, hswap⟩
    | resumeSwap =>
      cases hstep
      rw [List.count_cons_self] at hswap
      have haway : s.gf.suspended = true := by
        cases hs : s.gf.suspended with
        | true => rfl
        | false =>
          rw [hs] at hswap
          simp at hswap
      refine ⟨swap_run hinv haway, ?_⟩
      rw [haway] at hswap
      change rest.count .resumeSwap ≤ 0
      simpa using hswap

/-- **One step of a run.** The shipper's own steps are `shipStep_run`; the other threads stop the
kernel at most, a handover starts the history over, and the kernel plays. -/
theorem step_run {h : RunLog} {s t : State} {l : Label} (hinv : RunInv h s.runView s.pc)
    (hswap : SwapAway s) (hstep : step s l = some t) :
    RunInv (RunLog.record s l h) t.runView t.pc ∧ SwapAway t := by
  obtain ⟨hen, hturn⟩ := step_eq_some.mp hstep
  have hpc : (∀ e, l ≠ .ship e) → t.pc = s.pc := fun hship => (turn_turned hturn hship).pc
  have hsame : t.proto = s.proto → t.runView.suspended = s.runView.suspended → SwapAway t := by
    intro hproto hsuspended
    unfold SwapAway
    rw [hproto, show t.gf.suspended = s.gf.suspended from hsuspended]
    exact hswap
  have hfree : l.beginsCall = true → (∀ a b c, l ≠ .resume a b c) → SwapAway t := by
    intro hbegins hresume
    have hempty : s.proto = [] := by
      simp only [Label.enabled, hbegins, Bool.and_eq_true, Bool.not_true, Bool.false_or] at hen
      exact List.isEmpty_iff.mp hen.1.2
    have hgone : .resumeSwap ∉ t.proto := turn_swap hturn hresume (hempty ▸ List.not_mem_nil)
    unfold SwapAway
    rw [List.count_eq_zero_of_not_mem hgone]
    exact Nat.zero_le _
  have hproto := turn_proto hturn
  cases l with
  | ship e =>
    refine ⟨?_, hsame (hproto rfl (by rintro ⟨⟩)) ?_⟩
    · cases hturn
      exact shipStep_run hinv
    · cases hturn
      exact shipStep_suspended e s
  | locked c now =>
    have hstops : Stops s t := by
      cases hturn
      exact locked_stops c now { s with entered := s.entered.erase c }
    rw [hpc (by rintro _ ⟨⟩)]
    refine ⟨hinv.stops hstops, hsame (hproto rfl (by rintro ⟨⟩)) ?_⟩
    rcases hstops with hview | hview
    · rw [hview]
    · rw [hview]
  | proto =>
    rw [hpc (by rintro _ ⟨⟩)]
    exact protoStep_run hinv hswap hturn
  | kernel a =>
    obtain ⟨k, hact, rfl⟩ := Option.map_eq_some_iff.mp hturn
    exact ⟨act_run hinv hact, hswap⟩
  | goIdle reset stepBits dirBits =>
    have hview : t.runView = s.runView := by
      cases hturn
      exact goIdle_runView reset stepBits dirBits s
    rw [hpc (by rintro _ ⟨⟩)]
    refine ⟨?_, hsame (hproto rfl (by rintro ⟨⟩)) (congrArg RunView.suspended hview)⟩
    rw [hview]
    exact hinv
  | reset now =>
    refine ⟨?_, hfree rfl (by rintro _ _ _ ⟨⟩)⟩
    rw [hpc (by rintro _ ⟨⟩)]
    cases hturn
    exact reset_run hinv
  | readback expired =>
    refine ⟨?_, hfree rfl (by rintro _ _ _ ⟨⟩)⟩
    cases hturn
    simp only [gfStreamReadback]
    split <;> exact hinv
  | clearPosition ok =>
    refine ⟨?_, hfree rfl (by rintro _ _ _ ⟨⟩)⟩
    cases hturn
    simp only [gfStreamClearPosition]
    split_ifs <;> exact hinv
  | laserLatch lock ok =>
    refine ⟨?_, hfree rfl (by rintro _ _ _ ⟨⟩)⟩
    cases hturn
    exact hinv
  | suspend readOk =>
    have hlock : s.pc.holdsLock = false := by
      simp only [Label.enabled, Label.needsLock, Bool.true_and, Bool.and_eq_true,
        Bool.not_eq_true'] at hen
      exact hen.1.1.1
    refine ⟨?_, hfree rfl (by rintro _ _ _ ⟨⟩)⟩
    rw [hpc (by rintro _ ⟨⟩)]
    cases hturn
    exact suspend_run hinv hlock
  | resume latchOk emptied counted =>
    have haway : s.gf.suspended = true := by
      simp only [Label.enabled, Bool.and_eq_true] at hen
      exact hen.2
    rw [hpc (by rintro _ ⟨⟩)]
    cases hturn
    exact resume_run hinv haway
  | foreign k =>
    have haway : s.gf.suspended = true := by
      simp only [Label.enabled, Bool.and_eq_true] at hen
      exact hen.2.1
    cases hturn
    exact ⟨.away hinv.active haway (hinv.idle haway), hswap⟩
  | laserModel p m =>
    cases hturn
    simp only [gfStreamLaserModel, ditherReset]
    split_ifs <;> exact ⟨hinv, hswap⟩
  | enter c =>
    cases hturn
    simp only [enter]
    split <;> exact ⟨hinv, hswap⟩
  | _ =>
    cases hturn
    exact ⟨hinv, hswap⟩

/-- The history at the start of the threads: what the takeover has left in the ring is not the
engine's. -/
def RunLog.init (s : State) : RunLog := { uncounted := s.kernel.intake }

theorem init_run {c : Config} {k : Kernel} {emptied counted : Bool} (hactive : c.active = true) :
    RunInv (RunLog.init (State.init c k emptied counted)) (State.init c k emptied counted).runView .top := by
  have hbase : ∀ emptied, (rebaseAtTakeover emptied counted k (Gf.init c)).active = true ∧
      (rebaseAtTakeover emptied counted k (Gf.init c)).written = 0 := by
    intro emptied
    simp only [rebaseAtTakeover]
    split <;> exact ⟨hactive, rfl⟩
  have hgf : (State.init c k emptied counted).gf.active = true ∧
      (State.init c k emptied counted).gf.written = 0 := by
    simp only [State.init, hactive, if_true]
    exact hbase _
  refine .calm hgf.1 rfl (by rintro ⟨⟩) (fun _ => List.nil_suffix) fun _ => ?_
  rw [show (State.init c k emptied counted).runView.written = 0 from hgf.2]
  exact ⟨(zero_add _).symm, le_refl _⟩

/-- **A run starts over its own bytes.** In every run on an active device: whenever `cnc/run` is
written behind a gate that compared the counts, the ring holds exactly the bytes that landed
since `kernel_running` was last set, and none of them has been played. The counts tell the
bytes of one run apart below 2^32, and a tally that has saturated no longer tells the bytes
that were never counted. -/
theorem run_over_own_bytes {c : Config} {k : Kernel} {emptied counted relight retried : Bool}
    {s : State} {h : RunLog} (hactive : c.active = true)
    (hrun : Runs.Reach (Runs.observe step RunLog.record) (fun _ _ => True)
      (State.init c k emptied counted, RunLog.init (State.init c k emptied counted)) (s, h))
    (hwrite : s.pc = .runWrite relight retried) (hcounted : h.counted = true)
    (hknown : s.kernel.intake < 2 ^ 32 - 1 ∨ h.uncounted = 0) (hown : h.own.length < 2 ^ 32)
    (hring : s.kernel.ring.length < 2 ^ 32) : s.kernel.ring = h.own := by
  have hinv : RunInv h s.runView s.pc ∧ SwapAway s := by
    refine Runs.Reach.invariant_observe (fun _ _ => True)
      (P := fun s h => RunInv h s.runView s.pc ∧ SwapAway s) hrun
      ⟨init_run hactive, Nat.zero_le _⟩ ?_
    intro s h l t hs _ hstep
    exact step_run hs.1 hs.2 hstep
  have hasks : s.pc.asks = true := by
    rw [hwrite]
    rfl
  exact hinv.1.holds hcounted hasks hknown hown hring

/-- The theorem at the run start of a stream of 22 bytes. -/
theorem run_over_own_bytes_first :
    ∃ (s : State) (h : RunLog), s.pc = .runWrite false false ∧ h.counted = true ∧ h.own.length = 22 ∧
      s.kernel.ring = h.own := by
  have hrun : ∃ x : State × RunLog,
      Runs.Reach (Runs.observe step RunLog.record) (fun _ _ => True)
        (State.init (slowConfig true) idleKernel true true,
          RunLog.init (State.init (slowConfig true) idleKernel true true)) x ∧
      (x.1.pc.runFlags = some (false, false) ∧ x.2.counted = true ∧
        x.1.kernel.intake < 2 ^ 32 - 1 ∧ x.2.own.length = 22 ∧ x.1.kernel.ring.length < 2 ^ 32) :=
    Runs.exists_reach_of_exec
      (oneStep ++ [Label.ship {}, .ship {}, .ship { now := 0, later := 1000000 }] ++
        List.replicate 28 (Label.ship {})) (by decide +kernel)
  obtain ⟨⟨s, h⟩, hreach, hpc, hcounted, hintake, hown, hring⟩ := hrun
  have hwrite : s.pc = .runWrite false false := ShipPc.eq_runWrite hpc
  exact ⟨s, h, hwrite, hcounted, hown,
    run_over_own_bytes rfl hreach hwrite hcounted (.inl hintake) (by rw [hown]; decide) hring⟩

/-- A stream has shipped and ended, and the kernel still plays it. The next one's first byte
lands in time and is played with the rest; the kernel runs dry under the live stream before
the second. -/
def runDry : List Label :=
  oneStep ++ [Label.goIdle false 0 0, .ship {}, .ship {}, .ship { now := 0, later := 1000000 }] ++
    List.replicate 36 (Label.ship {}) ++ oneStep ++ List.replicate 5 (Label.ship {}) ++
    List.replicate 23 (Label.kernel .play) ++ [Label.kernel .runOut] ++ List.replicate 28 (Label.ship {})

/-- **A run asked for again starts over the rest.** The underrun is acknowledged and `cnc/run`
written to a kernel that idles, with one byte of the stream played. -/
theorem retry_over_rest :
    ∃ (s : State) (h : RunLog),
      Runs.Reach (Runs.observe step RunLog.record) (fun _ _ => True)
        (State.init (slowConfig true) idleKernel true true,
          RunLog.init (State.init (slowConfig true) idleKernel true true)) (s, h) ∧
      (∃ relight retried, s.pc = .runWrite relight retried) ∧ s.kernel.state = .idle ∧
      s.kernel.ring ≠ h.own := by
  have hrun : ∃ x : State × RunLog,
      Runs.Reach (Runs.observe step RunLog.record) (fun _ _ => True)
        (State.init (slowConfig true) idleKernel true true,
          RunLog.init (State.init (slowConfig true) idleKernel true true)) x ∧
      (x.1.pc.runFlags = some (false, true) ∧ x.1.kernel.state = .idle ∧
        x.1.kernel.ring ≠ x.2.own) :=
    Runs.exists_reach_of_exec runDry (by decide +kernel)
  obtain ⟨⟨s, h⟩, hreach, hpc, hstate, hring⟩ := hrun
  exact ⟨s, h, hreach, ⟨false, true, ShipPc.eq_runWrite hpc⟩, hstate, hring⟩

end Glowforge.Stream
