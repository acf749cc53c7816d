import Glowforge.Stream.Grammar

/-!
# Glowforge — one schedule, two dose models

The dose models differ in how a level becomes light, and in little else: in the analog model a
level is a power byte, in the density model it is a share of the FIRE bits. Two records that the
same schedule leaves under the two models are *twins*:

* **`Gf.given`** — a record with its loose fields replaced. What a dose model decides is loose:
  the density model's own state, the last byte's FIRE bit, the counts of bytes, and what is owed
  for the position.
* **`Gf.Twin`** — the records agree but for the loose fields. The cursors and the fire state are
  loose too, but only where the engine does not use them: in a spent stream, until the next one
  begins, and the fire state in a failed one, until its reset.

Each function of the engine that both models share keeps records twins.
-/

namespace Glowforge.Stream

/-! ## Twin records

Agreement up to the loose fields is a frame condition: whatever a function reads beside them is the
same of both (`Gf.Alike.frame`), and a function that treats the loose fields apart from the others
keeps it. -/

/-- The fields in which twins may differ. -/
structure Loose where
  minMargin : Int
  produced : Nat
  shipped : Nat
  holdPending : Bool
  holdPollAt : Nat
  written : UInt32
  runBase : UInt32
  steps : Steps
  baseSteps : Steps
  baseCounts : Steps
  baseValid : Bool
  readback : ReadBack
  unplayed : Steps
  lev : List LaserEv
  curFire : Bool
  lastLit : Bool
  levOverflowWarned : Bool
  dithPeriod : UInt32
  dithMin : UInt32
  dithLeft : UInt32
  dithOn : UInt32
  dithAcc : UInt32

def Gf.loose (g : Gf) : Loose where
  minMargin := g.minMargin
  produced := g.produced
  shipped := g.shipped
  holdPending := g.holdPending
  holdPollAt := g.holdPollAt
  written := g.written
  runBase := g.runBase
  steps := g.steps
  baseSteps := g.baseSteps
  baseCounts := g.baseCounts
  baseValid := g.baseValid
  readback := g.readback
  unplayed := g.unplayed
  lev := g.lev
  curFire := g.curFire
  lastLit := g.lastLit
  levOverflowWarned := g.levOverflowWarned
  dithPeriod := g.dithPeriod
  dithMin := g.dithMin
  dithLeft := g.dithLeft
  dithOn := g.dithOn
  dithAcc := g.dithAcc

/-- The record with the loose fields of `x`. -/
def Gf.given (g : Gf) (x : Loose) : Gf :=
  { g with
    minMargin := x.minMargin, produced := x.produced, shipped := x.shipped
    holdPending := x.holdPending, holdPollAt := x.holdPollAt, written := x.written
    runBase := x.runBase, steps := x.steps, baseSteps := x.baseSteps, baseCounts := x.baseCounts
    baseValid := x.baseValid, readback := x.readback, unplayed := x.unplayed, lev := x.lev
    curFire := x.curFire, lastLit := x.lastLit, levOverflowWarned := x.levOverflowWarned
    dithPeriod := x.dithPeriod, dithMin := x.dithMin, dithLeft := x.dithLeft, dithOn := x.dithOn
    dithAcc := x.dithAcc }

/-- The records agree but for the loose fields. -/
def Gf.Alike (g r : Gf) : Prop := r = g.given r.loose

/-- A stream that is over, with nothing left to ship. -/
def Gf.spent (g : Gf) : Bool := !g.streaming && !g.kernelRunning && decide (g.produced ≤ g.shipped)

/-- How far the cursors and the fire state of twins agree. -/
inductive Gf.Mode (g r : Gf) : Prop where
  | live (hproduced : r.produced = g.produced) (hshipped : r.shipped = g.shipped)
      (hfire : r.curFire = g.curFire) (hlev : r.lev = g.lev)
  -- only a wakeup, which starts both over, revives a spent stream
  | spent (hg : g.spent = true) (hr : r.spent = true)
  -- only a reset, which ends both, revives a failed one
  | failed (hproduced : r.produced = g.produced) (hshipped : r.shipped = g.shipped)
      (hfailed : g.failed = true)

/-- Records of one schedule, the first under the analog model. -/
structure Gf.Twin (g r : Gf) : Prop where
  alike : g.Alike r
  mode : g.Mode r
  analog : g.dithPeriod = 0

/-- What a function reads beside the loose fields is the same of both records. -/
theorem Gf.Alike.frame {β : Sort _} {g r : Gf} (h : g.Alike r) (f : Gf → β)
    (hf : f (g.given r.loose) = f g) : f r = f g :=
  (congrArg f h).trans hf

namespace Gf.Alike

variable {g r : Gf}

theorem streaming (h : g.Alike r) : r.streaming = g.streaming := h.frame Gf.streaming rfl

theorem kernelRunning (h : g.Alike r) : r.kernelRunning = g.kernelRunning :=
  h.frame Gf.kernelRunning rfl

theorem failed (h : g.Alike r) : r.failed = g.failed := h.frame Gf.failed rfl

theorem suspended (h : g.Alike r) : r.suspended = g.suspended := h.frame Gf.suspended rfl

theorem active (h : g.Alike r) : r.active = g.active := h.frame Gf.active rfl

theorem clearPending (h : g.Alike r) : r.clearPending = g.clearPending :=
  h.frame Gf.clearPending rfl

theorem killed (h : g.Alike r) : r.killed = g.killed := h.frame Gf.killed rfl

theorem virtualIndex (h : g.Alike r) : virtualIndex r = virtualIndex g :=
  h.frame Stream.virtualIndex rfl

/-- Two records that agree with a third agree with each other. -/
theorem trans {r' : Gf} (h : g.Alike r) (h' : r.Alike r') : g.Alike r' := by
  unfold Gf.Alike at h h' ⊢
  rw [h', h]
  rfl

theorem symm (h : g.Alike r) : r.Alike g := by
  unfold Gf.Alike at h ⊢
  rw [h]
  rfl

/-- What a function writes that only reads what twins share. -/
theorem map (f : Gf → Gf) (hf : ∀ g x, (f g).Alike (f (Gf.given g x))) (h : g.Alike r) :
    (f g).Alike (f r) := by
  rw [show r = g.given r.loose from h]
  exact hf g r.loose

/-- Both take the same branch. -/
theorem ite (c : Prop) [Decidable c] {g' r' : Gf} (h : g.Alike r) (h' : g'.Alike r') :
    (if c then g else g').Alike (if c then r else r') := by
  split
  · exact h
  · exact h'

end Gf.Alike

/-! ## Modes

The cursors and the fire state are looser than the rest: they agree while the engine uses them. What
an operation does to them is said once here, and each operation names its case. -/

section Modes

variable {g r g' r' : Gf}

/-- A live stream's cursors agree. -/
theorem Gf.Mode.cursor (h : g.Mode r) (hlive : g.streaming = true) :
    r.produced = g.produced ∧ r.shipped = g.shipped := by
  cases h with
  | live hproduced hshipped => exact ⟨hproduced, hshipped⟩
  | failed hproduced hshipped => exact ⟨hproduced, hshipped⟩
  | spent hg =>
    rw [Gf.spent, hlive] at hg
    cases hg

/-- A live stream moves on with its cursors. -/
theorem Gf.Mode.move (h : g.Mode r) (hlive : g.streaming = true) (hproduced : r'.produced = g'.produced)
    (hshipped : r'.shipped = g'.shipped) (hfailed : g.failed = true → g'.failed = true)
    (hfire : r.curFire = g.curFire → r'.curFire = g'.curFire) (hlev : r.lev = g.lev → r'.lev = g'.lev) :
    g'.Mode r' := by
  cases h with
  | live _ _ hf hl => exact .live hproduced hshipped (hfire hf) (hlev hl)
  | failed _ _ hf => exact .failed hproduced hshipped (hfailed hf)
  | spent hg =>
    rw [Gf.spent, hlive] at hg
    cases hg

/-- A record whose cursors are where they were. -/
def Gf.Kept (g g' : Gf) : Prop :=
  (g'.streaming, g'.kernelRunning, g'.produced, g'.shipped) =
    (g.streaming, g.kernelRunning, g.produced, g.shipped)

theorem Gf.Kept.cursor (h : g.Kept g') : g'.produced = g.produced ∧ g'.shipped = g.shipped :=
  ⟨congrArg (·.2.2.1) h, congrArg (·.2.2.2) h⟩

/-- A function that keeps the cursors and the stream's flags keeps whether the stream is spent. -/
theorem Gf.Kept.spent (h : g.Kept g') : g'.spent = g.spent := by
  rw [Gf.spent, Gf.spent, h.cursor.1, h.cursor.2,
    show g'.streaming = g.streaming from congrArg (·.1) h,
    show g'.kernelRunning = g.kernelRunning from congrArg (·.2.1) h]

/-- What leaves the cursors alone keeps the mode. -/
theorem Gf.Mode.keep (h : g.Mode r) (hg : g.Kept g') (hr : r.Kept r')
    (hfailed : g.failed = true → g'.failed = true)
    (hfire : r.curFire = g.curFire → r'.curFire = g'.curFire) (hlev : r.lev = g.lev → r'.lev = g'.lev) :
    g'.Mode r' := by
  cases h with
  | live hp hs hf hl =>
    exact .live (by rw [hr.cursor.1, hg.cursor.1, hp]) (by rw [hr.cursor.2, hg.cursor.2, hs])
      (hfire hf) (hlev hl)
  | spent hsg hsr => exact .spent (hg.spent.trans hsg) (hr.spent.trans hsr)
  | failed hp hs hf =>
    exact .failed (by rw [hr.cursor.1, hg.cursor.1, hp]) (by rw [hr.cursor.2, hg.cursor.2, hs])
      (hfailed hf)

/-- A function that reads only what twins share, and leaves the cursors, the fire state and the
dose model alone. -/
theorem Gf.Twin.map (f : Gf → Gf) (h : g.Twin r) (hf : ∀ g x, (f g).Alike (f (Gf.given g x)))
    (hkept : ∀ g, Gf.Kept g (f g)) (hfailed : ∀ g, g.failed = true → (f g).failed = true)
    (hsame : ∀ g, ((f g).curFire, (f g).lev, (f g).dithPeriod) = (g.curFire, g.lev, g.dithPeriod)) :
    (f g).Twin (f r) := by
  have hfire : ∀ g, (f g).curFire = g.curFire := fun g => congrArg (·.1) (hsame g)
  have hlev : ∀ g, (f g).lev = g.lev := fun g => congrArg (·.2.1) (hsame g)
  refine ⟨h.alike.map f hf, h.mode.keep (hkept g) (hkept r) (hfailed g) ?_ ?_, ?_⟩
  · rw [hfire, hfire]
    exact id
  · rw [hlev, hlev]
    exact id
  · exact (congrArg (·.2.2) (hsame g)).trans h.analog

/-- Only the books of a record have moved: its cursors, its fire state and its dose model are where
they were. -/
structure Gf.Still (g g' : Gf) : Prop where
  alike : g.Alike g'
  kept : g.Kept g'
  same : (g'.curFire, g'.lev, g'.dithPeriod) = (g.curFire, g.lev, g.dithPeriod)

theorem Gf.Still.trans {g'' : Gf} (h : g.Still g') (h' : g'.Still g'') : g.Still g'' :=
  ⟨h.alike.trans h'.alike, Eq.trans h'.kept h.kept, h'.same.trans h.same⟩

/-- Twins keep their books apart. -/
theorem Gf.Twin.still (h : g.Twin r) (hg : g.Still g') (hr : r.Still r') : g'.Twin r' := by
  have hfire : g'.curFire = g.curFire ∧ r'.curFire = r.curFire :=
    ⟨congrArg (·.1) hg.same, congrArg (·.1) hr.same⟩
  have hlev : g'.lev = g.lev ∧ r'.lev = r.lev := ⟨congrArg (·.2.1) hg.same, congrArg (·.2.1) hr.same⟩
  refine ⟨hg.alike.symm.trans (h.alike.trans hr.alike), h.mode.keep hg.kept hr.kept ?_ ?_ ?_, ?_⟩
  · rw [hg.alike.failed]
    exact id
  · rw [hfire.1, hfire.2]
    exact id
  · rw [hlev.1, hlev.2]
    exact id
  · exact (congrArg (·.2.2) hg.same).trans h.analog

end Modes

/-! ## Events

The laser's events and the pulses. Both records queue the same event, at the same index, where the
stream is live; elsewhere the index is one that nothing will read. -/

/-- The queue is loose, so an event queued for both leaves them alike whatever their queues were. -/
theorem levRecord_alike {g r : Gf} (idx : Nat) (power : UInt8) (fire : Bool) (h : g.Alike r) :
    (levRecord idx power fire g).Alike (levRecord idx power fire r) := by
  obtain ⟨lev, warned, hg⟩ := levRecord_frame idx power fire g
  obtain ⟨lev', warned', hr⟩ := levRecord_frame idx power fire r
  rw [hg, hr]
  unfold Gf.Alike at h ⊢
  rw [h]
  rfl

theorem levRecord_lev {g r : Gf} (idx : Nat) (power : UInt8) (fire : Bool) (h : r.lev = g.lev) :
    (levRecord idx power fire r).lev = (levRecord idx power fire g).lev := by
  simp only [levRecord, h]
  split
  · split_ifs <;> rfl
  · rfl

theorem levRecord_twin {g r : Gf} (idx : Nat) (power : UInt8) (fire : Bool) (h : g.Twin r) :
    (levRecord idx power fire g).Twin (levRecord idx power fire r) := by
  have hkept : ∀ g, Gf.Kept g (levRecord idx power fire g) ∧
      (levRecord idx power fire g).failed = g.failed ∧
      (levRecord idx power fire g).curFire = g.curFire ∧
      (levRecord idx power fire g).dithPeriod = g.dithPeriod := by
    intro g
    obtain ⟨lev, warned, hg⟩ := levRecord_frame idx power fire g
    rw [hg]
    exact ⟨rfl, rfl, rfl, rfl⟩
  refine ⟨levRecord_alike idx power fire h.alike, h.mode.keep (hkept g).1 (hkept r).1 ?_ ?_ ?_, ?_⟩
  · rw [(hkept g).2.1]
    exact id
  · rw [(hkept r).2.2.1, (hkept g).2.2.1]
    exact id
  · exact levRecord_lev idx power fire
  · exact (hkept g).2.2.2.trans h.analog

section Events

variable {s t : State}

/-- A clamp is counted, and inside an armed window it is a failure; the arm's flag is the same
beside both. -/
theorem clampLocked_twin (harmed : t.laserArmed = s.laserArmed) (h : s.gf.Twin t.gf) :
    (clampLocked s).2.gf.Twin (clampLocked t).2.gf := by
  have ht : (clampLocked t).2.gf =
      { t.gf with clamped := t.gf.clamped + 1, failed := t.gf.failed || s.laserArmed } := by
    rw [← harmed]
    rfl
  rw [ht]
  refine Gf.Twin.map (fun g => { g with clamped := g.clamped + 1, failed := g.failed || s.laserArmed })
    h (fun _ _ => rfl) (fun _ => rfl) (fun g hg => ?_) (fun _ => rfl)
  rw [hg, Bool.true_or]

/-- A level or a fire edge goes into both queues, at an index that the two share. -/
theorem laserEventLocked_twin (power : UInt8) (fire : Bool) (harmed : t.laserArmed = s.laserArmed)
    (h : s.gf.Twin t.gf) : (laserEventLocked power fire s).gf.Twin (laserEventLocked power fire t).gf := by
  unfold laserEventLocked
  rw [h.alike.streaming]
  split
  · next hlive =>
    rw [h.alike.virtualIndex, (h.mode.cursor hlive).2]
    split
    · dsimp only
      rw [show (clampLocked t).1 = (clampLocked s).1 from harmed]
      split
      · exact clampLocked_twin harmed h
      · exact levRecord_twin _ power fire (clampLocked_twin harmed h)
    · exact levRecord_twin _ power fire h
  · exact h

theorem mayFire_twin (fire : Bool) (harmed : t.laserArmed = s.laserArmed)
    (hjogging : t.gf.jogging = s.gf.jogging) : mayFire t fire = mayFire s fire := by
  rw [mayFire, mayFire, harmed, hjogging]

theorem laserLocked_twin (power : UInt8) (fire : Bool) (harmed : t.laserArmed = s.laserArmed)
    (h : s.gf.Twin t.gf) : (laserLocked power fire s).gf.Twin (laserLocked power fire t).gf := by
  unfold laserLocked
  rw [mayFire_twin fire harmed (h.alike.frame Gf.jogging rfl)]
  refine laserEventLocked_twin _ _ harmed ?_
  exact h.map (fun g => { g with wantPower := power &&& 0x7f, wantFire := fire }) (fun _ _ => rfl)
    (fun _ => rfl) (fun _ => id) (fun _ => rfl)

theorem jogLocked_twin (jog : Bool) (harmed : t.laserArmed = s.laserArmed) (h : s.gf.Twin t.gf) :
    (jogLocked jog s).gf.Twin (jogLocked jog t).gf := by
  have hpower : t.gf.wantPower = s.gf.wantPower := h.alike.frame Gf.wantPower rfl
  have hfire : t.gf.wantFire = s.gf.wantFire := h.alike.frame Gf.wantFire rfl
  have heq : ∀ u : State, jogLocked jog u = laserEventLocked u.gf.wantPower
      (u.gf.wantFire && u.laserArmed && !jog) { u with gf := { u.gf with jogging := jog } } :=
    fun _ => rfl
  have hwish : laserEventLocked t.gf.wantPower (t.gf.wantFire && t.laserArmed && !jog) =
      laserEventLocked s.gf.wantPower (s.gf.wantFire && s.laserArmed && !jog) := by
    rw [hpower, hfire, harmed]
  rw [heq, heq, hwish]
  refine laserEventLocked_twin _ _ harmed ?_
  exact h.map (fun g => { g with jogging := jog }) (fun _ _ => rfl) (fun _ => rfl) (fun _ => id)
    (fun _ => rfl)

theorem noteMargin_twin (h : s.gf.Twin t.gf) : (noteMargin s).gf.Twin (noteMargin t).gf :=
  h.still ⟨rfl, rfl, rfl⟩ ⟨rfl, rfl, rfl⟩

/-- Where a step event falls, at or behind what is produced. -/
def pulseIndex (idx : Nat) (g : Gf) : Nat := if idx < g.produced then g.produced else idx

/-- The placement of a pulse in the record alone: a full ring fails, and any other takes the byte.
-/
theorem pulsePlace_gf (b : StepByte) (idx : Nat) (s : State) :
    (pulsePlace b idx s).gf =
      if pulseIndex idx s.gf - s.gf.shipped ≥ ringSize - 1 then { s.gf with failed := true }
      else { s.gf with
        ring := Function.update s.gf.ring (slot (pulseIndex idx s.gf)) b
        produced := pulseIndex idx s.gf + 1 } := by
  by_cases hfar : pulseIndex idx s.gf - s.gf.shipped ≥ ringSize - 1
  · rw [if_pos hfar]
    exact congrArg State.gf (if_pos hfar)
  · rw [if_neg hfar]
    exact congrArg State.gf (if_neg hfar)

/-- A live stream's cursors agree, so the pulse finds both rings full or neither, and takes the same
slot. -/
theorem pulsePlace_twin (b : StepByte) (idx : Nat) (hlive : s.gf.streaming = true) (h : s.gf.Twin t.gf) :
    (pulsePlace b idx s).gf.Twin (pulsePlace b idx t).gf := by
  obtain ⟨hproduced, hshipped⟩ := h.mode.cursor hlive
  have hidx : pulseIndex idx t.gf = pulseIndex idx s.gf := by rw [pulseIndex, pulseIndex, hproduced]
  rw [pulsePlace_gf, pulsePlace_gf, hidx]
  by_cases hfar : pulseIndex idx s.gf - s.gf.shipped ≥ ringSize - 1
  · rw [if_pos hfar, if_pos (by rw [hshipped]; exact hfar)]
    exact h.map (fun g => { g with failed := true }) (fun _ _ => rfl) (fun _ => rfl) (fun _ _ => rfl)
      (fun _ => rfl)
  · rw [if_neg hfar, if_neg (by rw [hshipped]; exact hfar)]
    refine ⟨?_, h.mode.move hlive rfl hshipped id id id, h.analog⟩
    exact h.alike.map (fun g => { g with
      ring := Function.update g.ring (slot (pulseIndex idx s.gf)) b
      produced := pulseIndex idx s.gf + 1 }) fun _ _ => rfl

theorem pulseAt_twin (b : StepByte) (hlive : s.gf.streaming = true)
    (harmed : t.laserArmed = s.laserArmed) (h : s.gf.Twin t.gf) :
    (pulseAt b s).gf.Twin (pulseAt b t).gf := by
  unfold pulseAt
  dsimp only
  rw [h.alike.virtualIndex, (h.mode.cursor hlive).2]
  split
  · rw [show (clampLocked t).1 = (clampLocked s).1 from harmed]
    split
    · exact clampLocked_twin harmed h
    · exact pulsePlace_twin b _ hlive (clampLocked_twin harmed h)
  · exact pulsePlace_twin b _ hlive h

/-- A pulse of a stream that is not live is nobody's; any other is placed at the virtual time of
both. -/
theorem pulseLocked_twin (b : StepByte) (harmed : t.laserArmed = s.laserArmed) (h : s.gf.Twin t.gf) :
    (pulseLocked b s).gf.Twin (pulseLocked b t).gf := by
  unfold pulseLocked
  rw [h.alike.streaming]
  split
  · next hlive => exact pulseAt_twin b hlive harmed (noteMargin_twin h)
  · exact h

end Events

/-! ## Cycles

The beginning and the end of a stream. A wakeup is where the cursors of the two are brought together
again. -/

section Cycles

variable {s t : State}

/-- A wakeup that continues a run. -/
theorem wakeupContinue_twin (now : Nat) {g r : Gf} (h : g.Twin r) (hlive : g.streaming = true) :
    (wakeupContinue now g).Twin (wakeupContinue now r) := by
  have hdue : dueIndex now r = dueIndex now g := h.alike.frame (dueIndex now) rfl
  obtain ⟨hproduced, hshipped⟩ := h.mode.cursor hlive
  unfold wakeupContinue
  rw [hdue, hproduced]
  split
  · refine ⟨h.alike.map (fun g' => { g' with produced := dueIndex now g, curFire := false }) fun _ _ => rfl,
      ?_, h.analog⟩
    exact h.mode.move hlive rfl hshipped id (fun _ => rfl) id
  · exact h

/-- The index space of a stream that begins. -/
theorem wakeupIndex_twin (now : Nat) {g r : Gf} (h : g.Twin r) :
    (wakeupIndex now (wakeupClock now g)).Twin (wakeupIndex now (wakeupClock now r)) := by
  have hclock : (wakeupClock now g).Alike (wakeupClock now r) :=
    h.alike.map (wakeupClock now) fun _ _ => rfl
  have hbase : ∀ {a b : Gf}, a.Twin b → a.streaming = true →
      ({ a with base := a.produced } : Gf).Twin { b with base := b.produced } := by
    intro a b hab hlive
    have hb : ({ b with base := b.produced } : Gf) = { b with base := a.produced } := by
      rw [(hab.mode.cursor hlive).1]
    rw [hb]
    exact hab.map (fun g => { g with base := a.produced }) (fun _ _ => rfl) (fun _ => rfl)
      (fun _ => id) (fun _ => rfl)
  unfold wakeupIndex
  dsimp only
  rw [hclock.kernelRunning]
  split
  · next hrunning =>
    refine hbase (wakeupContinue_twin now ⟨hclock, ?_, h.analog⟩ rfl) ?_
    · cases h.mode with
      | live hp hs hf hl => exact .live hp hs hf hl
      | failed hp hs hf => exact .failed hp hs hf
      | spent hg =>
        rw [Gf.spent, show g.kernelRunning = true from hrunning, Bool.not_true, Bool.and_false] at hg
        cases hg
    · simp only [wakeupContinue]
      split <;> rfl
  · refine hbase ⟨hclock.map wakeupFresh fun _ _ => rfl, ?_, h.analog⟩ rfl
    exact .live (h.alike.frame Gf.depth rfl) rfl rfl rfl

/-- The assertion of the fire state at a wakeup queues an event and does nothing else. -/
theorem wakeupAssert_frame (wantFire : Bool) (g : Gf) :
    ∃ lev, wakeupAssert wantFire g = { g with lev := lev } := by
  unfold wakeupAssert
  split_ifs <;> exact ⟨_, rfl⟩

theorem wakeupAssert_twin (wantFire : Bool) {g r : Gf} (h : g.Twin r) :
    (wakeupAssert wantFire g).Twin (wakeupAssert wantFire r) := by
  have hpower : r.wantPower = g.wantPower := h.alike.frame Gf.wantPower rfl
  have hcur : r.curPower = g.curPower := h.alike.frame Gf.curPower rfl
  have hbase : r.base = g.base := h.alike.frame Gf.base rfl
  have hlev : r.curFire = g.curFire → r.lev = g.lev →
      (wakeupAssert wantFire r).lev = (wakeupAssert wantFire g).lev := by
    intro hfire hlev
    simp only [wakeupAssert, hpower, hcur, hbase, hfire, hlev]
    split_ifs <;> first | rfl | exact hlev
  obtain ⟨lev, hg⟩ := wakeupAssert_frame wantFire g
  obtain ⟨lev', hr⟩ := wakeupAssert_frame wantFire r
  rw [hg, hr] at hlev ⊢
  refine ⟨?_, ?_, h.analog⟩
  · have halike := h.alike
    unfold Gf.Alike at halike ⊢
    rw [halike]
    rfl
  · cases h.mode with
    | live hp hs hf hl => exact .live hp hs hf (hlev hf hl)
    | spent hsg hsr => exact .spent hsg hsr
    | failed hp hs hf => exact .failed hp hs hf

/-- A wakeup of both at the same reading, with the arm's flag the same. -/
theorem wakeupLocked_twin (now : Nat) (harmed : t.laserArmed = s.laserArmed) (h : s.gf.Twin t.gf) :
    (wakeupLocked now s).gf.Twin (wakeupLocked now t).gf := by
  have hmark : (wakeupMark s).gf.Twin (wakeupMark t).gf :=
    h.map (fun g => { g with killed := false, killStep := 0 }) (fun _ _ => rfl) (fun _ => rfl)
      (fun _ => id) (fun _ => rfl)
  unfold wakeupLocked
  rw [h.alike.streaming]
  split
  · exact hmark
  · have hwish : mayFire (wakeupMark t) (wakeupMark t).gf.wantFire =
        mayFire (wakeupMark s) (wakeupMark s).gf.wantFire := by
      rw [show (wakeupMark t).gf.wantFire = (wakeupMark s).gf.wantFire from
        hmark.alike.frame Gf.wantFire rfl]
      exact mayFire_twin _ harmed (hmark.alike.frame Gf.jogging rfl)
    change (wakeupAssert _ _).Twin (wakeupAssert _ _)
    rw [hwish]
    exact wakeupAssert_twin _ (wakeupIndex_twin now hmark)

/-- Every call of the producer's side keeps the records twins. -/
theorem Call.locked_twin (c : Call) (now : Nat) (harmed : t.laserArmed = s.laserArmed)
    (h : s.gf.Twin t.gf) : (c.locked now s).gf.Twin (c.locked now t).gf := by
  cases c with
  | wakeup => exact wakeupLocked_twin now harmed h
  | pulse stepBits dirBits => exact pulseLocked_twin _ harmed h
  | laser power fire => exact laserLocked_twin power fire harmed h
  | jog on => exact jogLocked_twin on harmed h

theorem goIdleMark_twin (reset : Bool) (b : StepByte) {g r : Gf} (h : g.Twin r) :
    (goIdleMark reset b g).Twin (goIdleMark reset b r) := by
  refine h.map (goIdleMark reset b) (fun g x => ?_) (fun g => ?_) (fun g hg => ?_) (fun g => ?_)
  · exact .ite _ rfl rfl
  all_goals
    obtain ⟨killed, killStep, hmark⟩ := goIdleMark_frame reset b g
    rw [hmark]
  · rfl
  · exact hg

/-- The laser-off of twins, where their fire state agrees. -/
theorem goIdleDark_lev {g r : Gf} (hproduced : r.produced = g.produced) (hshipped : r.shipped = g.shipped)
    (hpower : r.curPower = g.curPower) (hfire : r.curFire = g.curFire) (hlev : r.lev = g.lev) :
    (goIdleDark r).lev = (goIdleDark g).lev := by
  simp only [goIdleDark, hproduced, hshipped, hpower, hfire, hlev]
  split
  · split
    · split_ifs <;> rfl
    · rfl
  · exact hlev

/-- The dark edge that ends a stream goes to the queue and nowhere else. -/
theorem goIdleDark_frame (g : Gf) : ∃ lev, goIdleDark g = { g with lev := lev } := by
  simp only [goIdleDark]
  split
  · split
    · split_ifs <;> exact ⟨_, rfl⟩
    · exact ⟨_, rfl⟩
  · exact ⟨_, rfl⟩

theorem goIdleEnd_twin {g r : Gf} (h : g.Twin r) : (goIdleEnd g).Twin (goIdleEnd r) := by
  unfold goIdleEnd
  rw [h.alike.streaming]
  split
  · next hlive =>
    obtain ⟨hproduced, hshipped⟩ := h.mode.cursor hlive
    have hlev := goIdleDark_lev hproduced hshipped (h.alike.frame Gf.curPower rfl)
    obtain ⟨lev, hg⟩ := goIdleDark_frame g
    obtain ⟨lev', hr⟩ := goIdleDark_frame r
    rw [hg, hr] at hlev ⊢
    refine ⟨?_, ?_, h.analog⟩
    · have halike := h.alike
      unfold Gf.Alike at halike ⊢
      rw [halike]
      rfl
    · cases h.mode with
      | live hp hs hf hl => exact .live hp hs hf (hlev hf hl)
      | failed hp hs hf => exact .failed hp hs hf
      | spent hspent =>
        rw [Gf.spent, hlive] at hspent
        cases hspent
  · exact h

/-- The end of a stream, for a reset or without one. -/
theorem goIdle_twin (reset : Bool) (stepBits dirBits : UInt8) (h : s.gf.Twin t.gf) :
    (gfStreamGoIdle reset stepBits dirBits s).gf.Twin (gfStreamGoIdle reset stepBits dirBits t).gf :=
  goIdleEnd_twin (goIdleMark_twin reset _ h)

end Cycles

/-! ## The reset and the handover

A reset writes the same values into both records, save those that it counts: the steps that it
dropped belong to each schedule's own ring. -/

section Ends

variable {g r : Gf}

/-- Dropping the backlog empties the same slots whatever was counted of it. -/
theorem dropSlots_ring (n i : Nat) (ring : Nat → StepByte) (dropped dropped' : Steps) :
    (dropSlots n i (ring, dropped)).1 = (dropSlots n i (ring, dropped')).1 := by
  induction n generalizing i ring dropped dropped' with
  | zero => rfl
  | succ n ih => exact ih _ _ _ _

/-- Twins drop the same slots: a spent stream has none to drop. -/
theorem dropBacklog_alike (dropped dropped' : Steps) (h : g.Alike r) (hmode : g.Mode r) :
    (dropBacklogLocked dropped g).1.Alike (dropBacklogLocked dropped' r).1 := by
  have hring : r.ring = g.ring := h.frame Gf.ring rfl
  have hslots : (dropSlots (r.produced - r.shipped) r.shipped (r.ring, dropped')).1 =
      (dropSlots (g.produced - g.shipped) g.shipped (g.ring, dropped)).1 := by
    rw [hring]
    cases hmode with
    | live hp hs => rw [hp, hs, dropSlots_ring]
    | failed hp hs => rw [hp, hs, dropSlots_ring]
    | spent hg hr =>
      simp only [Gf.spent, Bool.and_eq_true, decide_eq_true_eq] at hg hr
      rw [Nat.sub_eq_zero_of_le hg.2, Nat.sub_eq_zero_of_le hr.2]
      rfl
  have heq : ∀ (d : Steps) (u : Gf), (dropBacklogLocked d u).1 =
      { u with ring := (dropSlots (u.produced - u.shipped) u.shipped (u.ring, d)).1
               produced := u.shipped } := fun _ _ => rfl
  rw [heq, heq, hslots]
  exact h.map (fun u => { u with
    ring := (dropSlots (g.produced - g.shipped) g.shipped (g.ring, dropped)).1
    produced := u.shipped }) fun _ _ => rfl

theorem resetStream_alike (now : Nat) (killed : Bool) (h : g.Alike r) (hmode : g.Mode r) :
    (resetStream now killed g).Alike (resetStream now killed r) := by
  have hkill : r.killStep = g.killStep := h.frame Gf.killStep rfl
  have hdrop := dropBacklog_alike (if killed then tickSteps 0 g.killStep.val else 0)
    (if killed then tickSteps 0 r.killStep.val else 0) h hmode
  have hrun : ∀ u x, (resetRun now killed u).Alike (resetRun now killed (u.given x)) :=
    fun u x => .ite _ rfl rfl
  have hback : ∀ {a b : Gf} (d d' : Steps), a.Alike b →
      (resetReadback killed d a).Alike (resetReadback killed d' b) := by
    intro a b d d' hab
    unfold resetReadback
    rw [hab.failed]
    split
    · unfold Gf.Alike at hab ⊢
      rw [hab]
      rfl
    · exact hab
  exact hback _ _ ((hdrop.map resetLaser fun _ _ => rfl).map (resetRun now killed) hrun)

theorem resetFailed_alike (h : g.Alike r) (hmode : g.Mode r) :
    (resetFailed g).Alike (resetFailed r) :=
  (dropBacklog_alike 0 0 h hmode).map (fun u => resetLaser { u with
    failed := false, kernelRunning := false, runPending := false, clearPending := true
    holdPending := false }) fun _ _ => rfl

/-- What a reset leaves of the fire state and of the dose model. -/
structure Gf.ResetFire (g r : Gf) : Prop where
  curFire : r.curFire = (g.curFire && !(resetEnds g || g.failed))
  lev : r.lev = if resetEnds g || g.failed then [] else g.lev
  dithPeriod : r.dithPeriod = g.dithPeriod

theorem resetStream_fire (now : Nat) (killed : Bool) (g : Gf) :
    (resetStream now killed g).curFire = false ∧ (resetStream now killed g).lev = [] ∧
      (resetStream now killed g).dithPeriod = g.dithPeriod := by
  simp only [resetStream, resetReadback, resetRun]
  split_ifs <;> exact ⟨rfl, rfl, rfl⟩

theorem resetLocked_fire (now : Nat) (g : Gf) : g.ResetFire (resetLocked now g) := by
  cases hends : resetEnds g <;> cases hfailed : g.failed <;> constructor <;>
    simp [resetLocked, resetFailed, resetLaser, ditherReset, dropBacklogLocked, hends, hfailed,
      resetStream_fire]

theorem resetStream_mode (now : Nat) (killed : Bool) (hmode : g.Mode r) :
    (resetStream now killed g).Mode (resetStream now killed r) := by
  have hg := resetStream_after now killed g
  have hr := resetStream_after now killed r
  obtain ⟨gfire, glev, -⟩ := resetStream_fire now killed g
  obtain ⟨rfire, rlev, -⟩ := resetStream_fire now killed r
  have hshipped : ∀ {a b : Gf}, a.AfterEnd killed b → b.shipped = a.shipped :=
    fun h => congrArg (·.2.2.2.2.2) h.others
  have hlive : r.shipped = g.shipped → (resetStream now killed g).Mode (resetStream now killed r) := by
    intro hs
    refine .live ?_ ?_ (rfire.trans gfire.symm) (rlev.trans glev.symm)
    · rw [hr.produced, hg.produced, hs]
    · rw [hshipped hr, hshipped hg, hs]
  cases hmode with
  | live _ hs => exact hlive hs
  | failed _ hs => exact hlive hs
  | spent hsg hsr =>
    have hspent : ∀ {a b : Gf}, a.AfterEnd killed b → a.spent = true → b.spent = true := by
      intro a b hab ha
      simp only [Gf.spent, Bool.and_eq_true, Bool.not_eq_true', decide_eq_true_eq] at ha ⊢
      refine ⟨⟨hab.streaming, by rw [hab.kernelRunning, ha.1.2, Bool.false_and]⟩, ?_⟩
      rw [hab.produced, hshipped hab]
    exact .spent (hspent hg hsg) (hspent hr hsr)

theorem resetEnds_twin (h : g.Alike r) : resetEnds r = resetEnds g := by
  rw [resetEnds, resetEnds, h.streaming, h.killed]

/-- A reset before it acknowledges a fault. -/
def resetEnded (now : Nat) (g : Gf) : Gf :=
  if resetEnds g then resetStream now g.killed { g with killed := false, readback := .none }
  else { g with killed := false, readback := .none }

/-- The locked part of a reset: the stream's end, and behind it the failure's. -/
theorem resetLocked_eq (now : Nat) (g : Gf) :
    resetLocked now g = { (if g.failed then resetFailed (resetEnded now g) else resetEnded now g) with
      lastLit := resetStops g && g.lastLit } := rfl

theorem resetEnded_alike (now : Nat) (h : g.Alike r) (hmode : g.Mode r) :
    (resetEnded now g).Alike (resetEnded now r) ∧ (resetEnded now g).Mode (resetEnded now r) := by
  have hmark : ({ g with killed := false, readback := .none } : Gf).Alike
      { r with killed := false, readback := .none } :=
    h.map (fun g => { g with killed := false, readback := .none }) fun _ _ => rfl
  have hkept : ({ g with killed := false, readback := .none } : Gf).Mode
      { r with killed := false, readback := .none } := hmode.keep rfl rfl id id id
  unfold resetEnded
  rw [resetEnds_twin h, h.killed]
  split
  · exact ⟨resetStream_alike now g.killed hmark hkept, resetStream_mode now g.killed hkept⟩
  · exact ⟨hmark, hkept⟩

theorem resetLocked_alike (now : Nat) (h : g.Alike r) (hmode : g.Mode r) :
    (resetLocked now g).Alike (resetLocked now r) := by
  have hlast : ∀ {a b : Gf} (x y : Bool), a.Alike b →
      ({ a with lastLit := x } : Gf).Alike { b with lastLit := y } := by
    intro a b x y hab
    unfold Gf.Alike at hab ⊢
    rw [hab]
    rfl
  obtain ⟨hended, hkept⟩ := resetEnded_alike now h hmode
  rw [resetLocked_eq, resetLocked_eq, h.failed]
  refine hlast _ _ ?_
  split
  · exact resetFailed_alike hended hkept
  · exact hended

/-- A reset of both, in every branch. -/
theorem resetLocked_twin (now : Nat) (h : g.Twin r) :
    (resetLocked now g).Twin (resetLocked now r) := by
  have hends := resetEnds_twin h.alike
  have hg := resetLocked_after now g
  have hr := resetLocked_after now r
  have fg := resetLocked_fire now g
  have fr := resetLocked_fire now r
  have hcursor : r.produced = g.produced → r.shipped = g.shipped →
      (resetLocked now r).produced = (resetLocked now g).produced ∧
      (resetLocked now r).shipped = (resetLocked now g).shipped := by
    intro hp hs
    rw [hr.produced, hg.produced, hr.shipped, hg.shipped, hends, h.alike.failed, hp, hs]
    exact ⟨rfl, rfl⟩
  refine ⟨resetLocked_alike now h.alike h.mode, ?_, fg.dithPeriod.trans h.analog⟩
  cases h.mode with
  | live hp hs hf hl =>
    refine .live (hcursor hp hs).1 (hcursor hp hs).2 ?_ ?_
    · rw [fr.curFire, fg.curFire, hends, h.alike.failed, hf]
    · rw [fr.lev, fg.lev, hends, h.alike.failed, hl]
  | failed hp hs hf =>
    -- the reset of a failed stream ends its fire state in both
    refine .live (hcursor hp hs).1 (hcursor hp hs).2 ?_ ?_
    · rw [fr.curFire, fg.curFire, h.alike.failed, hf, Bool.or_true, Bool.or_true, Bool.not_true,
        Bool.and_false, Bool.and_false]
    · rw [fr.lev, fg.lev, h.alike.failed, hf, Bool.or_true, Bool.or_true]
      rfl
  | spent hsg hsr =>
    have hspent : ∀ {a b : Gf}, a.AfterReset b → a.spent = true → b.spent = true := by
      intro a b hab ha
      simp only [Gf.spent, Bool.and_eq_true, Bool.not_eq_true', decide_eq_true_eq] at ha ⊢
      refine ⟨⟨hab.streaming, by rw [hab.kernelRunning, ha.1.2, Bool.false_and]⟩, ?_⟩
      rw [hab.produced, hab.shipped]
      split
      · exact Nat.le_refl _
      · exact ha.2
    exact .spent (hspent hg hsg) (hspent hr hsr)

theorem resumeSwap_twin (h : g.Twin r) : (resumeSwap g).Twin (resumeSwap r) :=
  ⟨h.alike.map resumeSwap fun _ _ => rfl, .live rfl rfl rfl rfl, h.analog⟩

theorem fail_twin (h : g.Twin r) : ({ g with failed := true } : Gf).Twin { r with failed := true } :=
  h.map (fun g => { g with failed := true }) (fun _ _ => rfl) (fun _ => rfl) (fun _ _ => rfl)
    (fun _ => rfl)

end Ends

section Handover

variable {s t : State}

theorem readback_twin (expired : Bool) (h : s.gf.Twin t.gf) :
    (gfStreamReadback expired s).gf.Twin (gfStreamReadback expired t).gf := by
  have hstill : ∀ u : State, u.gf.Still (gfStreamReadback expired u).gf := by
    intro u
    unfold gfStreamReadback
    split <;> exact ⟨rfl, rfl, rfl⟩
  exact h.still (hstill s) (hstill t)

theorem clearPosition_twin (ok : Bool) (h : s.gf.Twin t.gf) :
    (gfStreamClearPosition ok s).gf.Twin (gfStreamClearPosition ok t).gf := by
  have hopen : t.gf.fdOpen = s.gf.fdOpen := h.alike.frame Gf.fdOpen rfl
  unfold gfStreamClearPosition
  rw [h.alike.active, hopen]
  split
  · cases ok with
    | true =>
      exact h.map (fun g => rebaseLocked 0 { g with zeros := g.zeros + 1 }) (fun _ _ => rfl)
        (fun _ => rfl) (fun _ => id) (fun _ => rfl)
    | false =>
      exact h.map (fun g => { g with zeros := g.zeros + 1, baseValid := false }) (fun _ _ => rfl)
        (fun _ => rfl) (fun _ => id) (fun _ => rfl)
  · exact h

/-- A spent stream is drained in both where each record's cursors meet. -/
theorem drained_twin {g r : Gf} (h : g.Twin r) (hg : g.spent = true → g.produced = g.shipped)
    (hr : r.spent = true → r.produced = r.shipped) : drained r = drained g := by
  have hcursor : (r.produced == r.shipped) = (g.produced == g.shipped) := by
    cases h.mode with
    | live hp hs => rw [hp, hs]
    | failed hp hs => rw [hp, hs]
    | spent hsg hsr =>
      rw [hg hsg, hr hsr]
      simp
  rw [drained, drained, hcursor, h.alike.streaming, h.alike.kernelRunning, h.alike.clearPending]

/-- A handover is taken. -/
def suspendTakes (readOk : Bool) (s : State) : Bool :=
  !s.gf.active || (drained s.gf && readOk && s.kernel.state == .idle)

/-- What a handover writes. -/
def suspendGf (g : Gf) : Gf :=
  { g with
    suspended := true, holdPending := g.holdPending && !g.active
    fdOpen := g.fdOpen && (!g.active || g.inherited) }

/-- A suspension that is taken writes `suspendGf` and, of an open device, owes the latch; a refused
one changes neither. -/
theorem suspend_eq (readOk : Bool) (s : State) :
    (gfStreamSuspend readOk s).gf = (if suspendTakes readOk s then suspendGf s.gf else s.gf) ∧
      (gfStreamSuspend readOk s).proto =
        if suspendTakes readOk s && s.gf.active && !s.gf.inherited then [.closeLatch] else s.proto := by
  cases hactive : s.gf.active <;> cases hinherited : s.gf.inherited <;>
    cases htakes : (drained s.gf && readOk && s.kernel.state == .idle) <;>
    simp [gfStreamSuspend, suspendTakes, suspendGf, hactive, hinherited, htakes]

/-- A handover that finds the stream over and the kernel idle finds the cursor level with what is
produced. -/
def suspendLevel (readOk : Bool) (s : State) : Bool :=
  !(s.gf.active && s.gf.spent && !s.gf.clearPending && readOk && s.kernel.state == .idle) ||
    s.gf.produced == s.gf.shipped

/-- A handover is refused or taken alike, unless a cursor has run past what is produced. -/
theorem suspendTakes_twin {readOk : Bool} (h : s.gf.Twin t.gf)
    (hidle : (readOk && t.kernel.state == .idle) = (readOk && s.kernel.state == .idle))
    (hs : suspendLevel readOk s = true) (ht : suspendLevel readOk t = true) :
    suspendTakes readOk t = suspendTakes readOk s := by
  rw [suspendTakes, suspendTakes, h.alike.active, Bool.and_assoc, Bool.and_assoc, hidle]
  cases hactive : s.gf.active with
  | false => rfl
  | true =>
    cases hclear : s.gf.clearPending with
    | true =>
      simp only [drained, h.alike.clearPending, hclear, Bool.not_true, Bool.and_false, Bool.false_and]
    | false =>
      cases hready : (readOk && s.kernel.state == .idle) with
      | false => rw [Bool.and_false, Bool.and_false]
      | true =>
        simp only [suspendLevel, h.alike.active, h.alike.clearPending, hactive, hclear, Bool.true_and,
          Bool.not_false, Bool.and_true, Bool.and_assoc, hidle, hready, Bool.or_eq_true,
          Bool.not_eq_true', beq_iff_eq] at hs ht
        rw [drained_twin h (fun hg => hs.resolve_left (by rw [hg]; rintro ⟨⟩))
          (fun hr => ht.resolve_left (by rw [hr]; rintro ⟨⟩))]

/-- Where both answer the same, a suspension keeps the records twins. -/
theorem suspend_twin (readOk : Bool) (h : s.gf.Twin t.gf) (hproto : t.proto = s.proto)
    (htakes : suspendTakes readOk t = suspendTakes readOk s) :
    (gfStreamSuspend readOk s).gf.Twin (gfStreamSuspend readOk t).gf ∧
      (gfStreamSuspend readOk t).proto = (gfStreamSuspend readOk s).proto := by
  obtain ⟨sgf, sproto⟩ := suspend_eq readOk s
  obtain ⟨tgf, tproto⟩ := suspend_eq readOk t
  rw [sgf, tgf, sproto, tproto, htakes, h.alike.active, hproto,
    show t.gf.inherited = s.gf.inherited from h.alike.frame Gf.inherited rfl]
  refine ⟨?_, rfl⟩
  split
  · exact h.map suspendGf (fun _ _ => rfl) (fun _ => rfl) (fun _ => id) (fun _ => rfl)
  · exact h

theorem resume_twin (latchOk emptied counted : Bool) (h : s.gf.Twin t.gf) :
    (gfStreamResume latchOk emptied counted s).gf.Twin (gfStreamResume latchOk emptied counted t).gf := by
  have hstill : ∀ (e : Bool) (k : Kernel) (g : Gf), g.Still (rebaseAtTakeover e counted k g) := by
    intro e k g
    unfold rebaseAtTakeover
    split <;> exact ⟨rfl, rfl, rfl⟩
  unfold gfStreamResume
  rw [h.alike.active]
  split
  · exact h.map (fun g => { g with suspended := false }) (fun _ _ => rfl) (fun _ => rfl) (fun _ => id)
      (fun _ => rfl)
  · exact h.still (hstill _ _ _) (hstill _ _ _)

end Handover

/-! ## Calls

The calls of the protocol thread over the whole state. The two threads' calls agree in what they
answer, on the condition that what they read of the kernel does. -/

/-- The flags and the calls under way, which twins share. -/
structure Flags where
  laserArmed : Bool
  fireGate : Bool
  latchLockedByUs : Bool
  latchFailReported : Bool
  entered : List Call
  proto : List Owed

def State.flags (s : State) : Flags :=
  ⟨s.laserArmed, s.fireGate, s.latchLockedByUs, s.latchFailReported, s.entered, s.proto⟩

/-- States of one schedule, the first under the analog model. -/
structure State.Twin (s t : State) : Prop where
  gf : s.gf.Twin t.gf
  flags : t.flags = s.flags

/-- The calls of a schedule: not the shipper's steps, the kernel's, or the choice of the model. -/
def Label.isCall : Label → Bool
  | .ship _ | .kernel _ | .foreign _ | .laserModel _ _ => false
  | _ => true

/-- What a call reads of the kernel: whether it is idle, at a handover. -/
def callAnswer (s : State) : Label → Bool
  | .suspend readOk => readOk && s.kernel.state == .idle
  | _ => false

/-- The calls that both models take alike: a handover waits for a level cursor. -/
def handsOverLevel (s : State) : Label → Bool
  | .suspend readOk => suspendLevel readOk s
  | _ => true

section Calls

variable {s t s' t' : State} {l : Label}

/-- The latch write asks the flags alone, which twins share. -/
theorem latchWriteLocked_twin (lock ok : Bool) (h : t.flags = s.flags) :
    (latchWriteLocked lock ok t).1 = (latchWriteLocked lock ok s).1 ∧
      (latchWriteLocked lock ok t).2.flags = (latchWriteLocked lock ok s).2.flags := by
  simp only [State.flags, Flags.mk.injEq] at h
  obtain ⟨harmed, hgate, hlocked, hreported, hentered, hproto⟩ := h
  simp only [latchWriteLocked, State.flags, harmed, hgate, hlocked, hreported, hentered, hproto, and_self]

/-- The flags are a part of what lies outside the record. -/
theorem flags_of_outer (h : t.outer = s.outer) : t.flags = s.flags :=
  congrArg (fun o : Outer => Flags.mk o.laserArmed o.fireGate o.latchLockedByUs o.latchFailReported
    o.entered o.proto) h

theorem laserLatch_flags (lock ok : Bool) (h : t.flags = s.flags) :
    (gfStreamLaserLatch lock ok t).flags = (gfStreamLaserLatch lock ok s).flags := by
  obtain ⟨htook, hflags⟩ := latchWriteLocked_twin lock ok h
  have heq : ∀ u : State, (gfStreamLaserLatch lock ok u).flags = { (latchWriteLocked lock ok u).2.flags with
      proto := if !(latchWriteLocked lock ok u).1 && lock then [.latchFault] else [] } := fun _ => rfl
  rw [heq, heq, htook, hflags]

theorem resume_flags (latchOk emptied counted : Bool) (h : s.Twin t) :
    (gfStreamResume latchOk emptied counted t).flags = (gfStreamResume latchOk emptied counted s).flags := by
  obtain ⟨htook, hflags⟩ := latchWriteLocked_twin true latchOk h.flags
  have heq : ∀ u : State, (gfStreamResume latchOk emptied counted u).flags =
      if u.gf.active then { (latchWriteLocked true latchOk u).2.flags with
        proto := (if (latchWriteLocked true latchOk u).1 then [] else [.latchFault]) ++ [.resumeSwap] }
      else u.flags := by
    intro u
    unfold gfStreamResume
    cases u.gf.active <;> rfl
  rw [heq, heq, htook, hflags, h.gf.alike.active, h.flags]

/-- What the protocol thread still owes is the same list for both, and each item of it keeps them
twins. -/
theorem protoStep_twin (h : s.Twin t) (hs : protoStep s = some s') (ht : protoStep t = some t') :
    s'.Twin t' := by
  have hflags := h.flags
  simp only [State.flags, Flags.mk.injEq] at hflags
  obtain ⟨harmed, hgate, hlocked, hreported, hentered, hproto⟩ := hflags
  obtain ⟨o, rest, hp⟩ := proto_owes hs
  simp only [protoStep] at hs ht
  rw [hproto] at ht
  rw [hp] at hs ht
  cases o with
  | latchFail =>
    cases hs
    cases ht
    exact ⟨fail_twin h.gf, by simp only [State.flags, harmed, hgate, hlocked, hreported, hentered]⟩
  | resumeSwap =>
    cases hs
    cases ht
    exact ⟨resumeSwap_twin h.gf, by simp only [State.flags, harmed, hgate, hlocked, hreported, hentered]⟩
  | _ =>
    cases hs
    cases ht
    exact ⟨h.gf, by simp only [State.flags, harmed, hgate, hlocked, hreported, hentered]⟩

/-- **A call keeps twins.** The condition is that the call is answered alike in both, which it is
where they find their kernels alike. -/
theorem turn_twin (h : s.Twin t) (hs : turn s l = some s') (ht : turn t l = some t')
    (hcall : l.isCall = true) (hanswer : callAnswer t l = callAnswer s l)
    (hslevel : handsOverLevel s l = true) (htlevel : handsOverLevel t l = true) : s'.Twin t' := by
  have hgf := h.gf
  have hflags := h.flags
  simp only [State.flags, Flags.mk.injEq] at hflags
  obtain ⟨harmed, hgate, hlocked, hreported, hentered, hproto⟩ := hflags
  cases l with
  | ship e => cases hcall
  | kernel a => cases hcall
  | «foreign» k => cases hcall
  | laserModel p m => cases hcall
  | proto => exact protoStep_twin h hs ht
  | enter c =>
    cases hs
    cases ht
    have henters : c.enters t = c.enters s := by
      cases c <;> simp only [Call.enters, hgf.alike.failed]
    unfold enter
    rw [henters]
    split
    · exact ⟨hgf, by simp only [State.flags, harmed, hgate, hlocked, hreported, hentered, hproto]⟩
    · exact h
  | locked c now =>
    cases hs
    cases ht
    refine ⟨c.locked_twin now harmed hgf, ?_⟩
    rw [flags_of_outer (c.locked_outer now { t with entered := t.entered.erase c }),
      flags_of_outer (c.locked_outer now { s with entered := s.entered.erase c })]
    simp only [State.flags, harmed, hgate, hlocked, hreported, hentered, hproto]
  | goIdle reset stepBits dirBits =>
    cases hs
    cases ht
    exact ⟨goIdle_twin reset stepBits dirBits hgf, h.flags⟩
  | producerRun =>
    cases hs
    cases ht
    exact ⟨hgf.map (fun g => { g with minMargin := 2 ^ 63 - 1 }) (fun _ _ => rfl) (fun _ => rfl)
      (fun _ => id) (fun _ => rfl), h.flags⟩
  | advance =>
    cases hs
    cases ht
    exact ⟨hgf.map (fun g => { g with vticks := g.vticks + g.periodLatched }) (fun _ _ => rfl)
      (fun _ => rfl) (fun _ => id) (fun _ => rfl), h.flags⟩
  | cyclesPerTick cycles =>
    cases hs
    cases ht
    exact ⟨hgf.map (fun g => { g with periodLatched := if cycles = 0 then 1 else cycles })
      (fun _ _ => rfl) (fun _ => rfl) (fun _ => id) (fun _ => rfl), h.flags⟩
  | laserArm armed =>
    cases hs
    cases ht
    exact ⟨hgf, by simp only [State.flags, hgate, hlocked, hreported, hentered, hproto]⟩
  | fireGate gate =>
    cases hs
    cases ht
    exact ⟨hgf, by simp only [State.flags, harmed, hlocked, hreported, hentered, hproto]⟩
  | faultTake =>
    cases hs
    cases ht
    exact ⟨hgf, h.flags⟩
  | laserLatch lock ok =>
    cases hs
    cases ht
    exact ⟨hgf, laserLatch_flags lock ok h.flags⟩
  | reset now =>
    cases hs
    cases ht
    refine ⟨resetLocked_twin now hgf, ?_⟩
    have howes : resetOwes t.gf = resetOwes s.gf := by
      have hstops : resetStops t.gf = resetStops s.gf := by
        rw [resetStops, resetStops, resetEnds_twin hgf.alike, hgf.alike.killed, hgf.alike.kernelRunning]
      rw [resetOwes, resetOwes, hstops, hgf.alike.failed, hgf.alike.active]
    simp only [gfStreamReset, State.flags, harmed, hgate, hlocked, hreported, hentered, howes]
  | readback expired =>
    cases hs
    cases ht
    have hsame : ∀ u : State, (gfStreamReadback expired u).flags = u.flags := by
      intro u
      unfold gfStreamReadback
      split <;> rfl
    exact ⟨readback_twin expired hgf, by rw [hsame, hsame, h.flags]⟩
  | clearPosition ok =>
    cases hs
    cases ht
    have hsame : ∀ u : State, (gfStreamClearPosition ok u).flags = u.flags := by
      intro u
      unfold gfStreamClearPosition
      split
      · dsimp only
        split <;> rfl
      · rfl
    exact ⟨clearPosition_twin ok hgf, by rw [hsame, hsame, h.flags]⟩
  | suspend readOk =>
    cases hs
    cases ht
    obtain ⟨hgf', hproto'⟩ := suspend_twin readOk hgf hproto
      (suspendTakes_twin hgf hanswer hslevel htlevel)
    have hsame : ∀ u : State, (gfStreamSuspend readOk u).flags =
        { u.flags with proto := (gfStreamSuspend readOk u).proto } := by
      intro u
      unfold gfStreamSuspend
      split
      · rfl
      · split
        · dsimp only
          split <;> rfl
        · rfl
    exact ⟨hgf', by rw [hsame, hsame, h.flags, hproto']⟩
  | resume latchOk emptied counted =>
    cases hs
    cases ht
    exact ⟨resume_twin latchOk emptied counted hgf, resume_flags latchOk emptied counted h⟩

end Calls

end Glowforge.Stream
