import Mathlib.Algebra.BigOperators.Group.List.Basic
import Mathlib.Tactic.Abel
import Mathlib.Tactic.Ring
import Glowforge.Stream.Frame

/-!
# Glowforge — the position read-back

A reset owes the core the steps it counted and the machine never took: the step of the kill
byte, the backlog the reset drops, and the residue that the clear removes from the kernel's
ring. The last is not counted as it goes. It is the difference of two counts since a common
base: the steps handed to the ring (`gf.steps`) and the steps the kernel's counters took:

* **`Owes`** — the history the answer is measured by: the bytes themselves.
* **`Balanced`** — the ledger: counters and ring together stand for the steps counted.
* **`ReadInv`** — the ledger at each point of a write and of a clear, and what the read-back
  in progress has summed up.
* **`readback_exact`** — an answer of 1 is the exact sum, it comes at most once for a reset,
  and it never comes from a ledger that was spoiled.
-/

namespace Glowforge.Stream

/-! ## Sums of steps

Steps are added modulo 2^32 for each axis, over bytes and over slots. -/

@[simp] theorem stepsIn_nil : stepsIn [] = 0 := rfl

theorem foldl_tickSteps (bs : List UInt8) (s : Steps) :
    bs.foldl tickSteps s = s + bs.foldl tickSteps 0 := by
  induction bs generalizing s with
  | nil => exact (add_zero s).symm
  | cons b bs ih =>
    rw [List.foldl_cons, List.foldl_cons, ih, ih (tickSteps 0 b)]
    simp only [tickSteps]
    abel

@[simp] theorem stepsIn_append (as bs : List UInt8) :
    stepsIn (as ++ bs) = stepsIn as + stepsIn bs := by
  rw [stepsIn, List.filter_append, List.foldl_append, foldl_tickSteps]
  rfl

/-- What playing one byte adds to the counters. -/
theorem stepsIn_cons (b : UInt8) (bs : List UInt8) :
    stepsIn (b :: bs) = (if isTick b then stepOf b else 0) + stepsIn bs := by
  rw [← List.singleton_append, stepsIn_append]
  congr 1
  cases h : isTick b with
  | true =>
    simp only [stepsIn, List.filter_cons, h, if_true, List.filter_nil, List.foldl_cons,
      List.foldl_nil, tickSteps, zero_add]
  | false => simp [stepsIn, h]

theorem stepsIn_dark : stepsIn [0x00] = 0 := by
  decide

/-- The steps in a list of ring slots. -/
def stepSum (bs : List StepByte) : Steps := (bs.map fun b => stepOf b.val).sum

theorem stepOf_zero : stepOf (0 : StepByte).val = 0 := by
  decide

theorem slot_succ_ne {i j : Nat} (h : j + 1 < ringSize) : slot (i + 1 + j) ≠ slot i := by
  intro heq
  have hdvd := Nat.sub_mod_eq_zero_of_mod_eq heq
  rw [show i + 1 + j - i = j + 1 by omega, Nat.mod_eq_of_lt h] at hdvd
  cases hdvd

theorem slot_lap (i : Nat) : slot (i + ringSize) = slot i := Nat.add_mod_right i ringSize

/-- The steps of the `n` slots from `i` on, in any ring. -/
def slotSteps (ring : Nat → StepByte) (i n : Nat) : Steps :=
  ((List.range n).map fun j => stepOf (ring (slot (i + j))).val).sum

theorem slotSteps_succ (ring : Nat → StepByte) (i n : Nat) :
    slotSteps ring i (n + 1) = stepOf (ring (slot i)).val + slotSteps ring (i + 1) n := by
  simp only [slotSteps, List.range_succ_eq_map, List.map_cons, List.sum_cons, List.map_map,
    Nat.add_zero]
  congr 3
  funext j
  simp only [Function.comp_apply, show i + Nat.succ j = i + 1 + j by omega]

theorem slotSteps_last (ring : Nat → StepByte) (i n : Nat) :
    slotSteps ring i (n + 1) = slotSteps ring i n + stepOf (ring (slot (i + n))).val := by
  simp [slotSteps, List.range_succ]

/-- The slots of the rest of a lap do not meet the one that is zeroed. -/
theorem slotSteps_update (ring : Nat → StepByte) (i : Nat) {n : Nat} (h : n < ringSize) :
    slotSteps (Function.update ring (slot i) 0) (i + 1) n = slotSteps ring (i + 1) n := by
  simp only [slotSteps]
  congr 1
  refine List.map_congr_left fun j hj => ?_
  rw [List.mem_range] at hj
  rw [Function.update_of_ne (slot_succ_ne (by omega))]

/-- **`drop_backlog_locked` sums up what it drops**, each slot once: a second lap finds its
slots zeroed. -/
theorem dropSlots_steps (n i : Nat) (ring : Nat → StepByte) (dropped : Steps) :
    (dropSlots n i (ring, dropped)).2 = dropped + slotSteps ring i (min n ringSize) := by
  induction n generalizing i ring dropped with
  | zero => simp [dropSlots, slotSteps]
  | succ n ih =>
    rw [dropSlots, ih, tickSteps]
    by_cases hlap : n < ringSize
    · rw [min_eq_left (by omega), min_eq_left (by omega), slotSteps_update ring i hlap,
        slotSteps_succ, add_assoc]
    · obtain ⟨r, hr⟩ : ∃ r, ringSize = r + 1 := ⟨ringSize - 1, by decide⟩
      rw [min_eq_right (by omega), min_eq_right (by omega), hr, slotSteps_last,
        slotSteps_update ring i (by omega), slotSteps_succ,
        show i + 1 + r = i + ringSize by omega, slot_lap, Function.update_self, stepOf_zero]
      abel

theorem stepSum_backlog (g : Gf) :
    stepSum (backlog g) = slotSteps g.ring g.shipped (min (g.produced - g.shipped) ringSize) := by
  simp only [stepSum, backlog, slotSteps, List.map_map]
  rfl

/-! ## The history of a reset

What a reset owes, in bytes: the kill byte, the backlog, and what the clear removes. -/

/-- What the answer of the read-back is measured by. -/
structure Owes where
  -- The kill byte that `gf_stream_go_idle` marked under a live stream.
  mark : StepByte := 0
  -- The mark that the last reset took, and the backlog it dropped.
  kill : StepByte := 0
  dropped : List StepByte := []
  -- The ring's content that the last seek-clear removed.
  removed : List UInt8 := []
  -- Answers of 1 since the last reset.
  answers : Nat := 0
  -- A counter zero has landed under the clear in progress.
  zeroed : Bool := false
  -- Since the reset: a write failed, or a clear ended without a base, without a reading of the
  -- counters or behind a counter zero.
  spoiled : Bool := false

/-- The shipper is between the snapshot and the end of a clear. -/
def ShipPc.clearing : ShipPc → Bool
  | .pendState clear _ => clear
  | .pendSeek _ | .pendCount _ | .pendDone _ _ _ => true
  | _ => false

/-- A chunk is on its way into the ring. -/
def ShipPc.inFlight : ShipPc → Bool
  | .writing _ _ _ | .wrote _ _ _ => true
  | _ => false

/-- What a step of the shipper adds to the history. -/
def Owes.ship (s : State) (e : Env) (h : Owes) : Owes :=
  match s.pc with
  | .top => { h with zeroed := false }
  | .pendSeek _ => if seekTakes e s then { h with removed := s.kernel.ring } else h
  | .pendCount _ => { h with spoiled := h.spoiled || !e.readOk }
  | .pendDone _ _ _ => { h with spoiled := h.spoiled || h.zeroed || !s.gf.baseValid }
  | .wrote _ _ false => { h with spoiled := h.spoiled || s.gf.clearPending }
  | _ => h

/-- What a step adds to the history. -/
def Owes.record (s : State) (l : Label) (h : Owes) : Owes :=
  match l with
  | .locked .wakeup _ => { h with mark := 0 }
  | .goIdle true stepBits dirBits =>
    if s.gf.streaming then { h with mark := pulseByte stepBits dirBits } else h
  | .reset _ =>
    { h with
      mark := 0, kill := h.mark, dropped := backlog s.gf, answers := 0, spoiled := !s.gf.baseValid }
  | .readback _ => if s.gf.readback = .done then { h with answers := h.answers + 1 } else h
  | .clearPosition _ =>
    if s.gf.active && s.gf.fdOpen && s.pc.clearing then { h with zeroed := true } else h
  | .ship e => h.ship s e
  | _ => h

/-- The steps that the reset itself owes: the kill byte's and the backlog's. -/
def Owes.atReset (h : Owes) : Steps := stepOf h.kill.val + stepSum h.dropped

/-- The runs the read-back is for: the device stays with this process, and a counter zero
comes at a drained ring. -/
def readBackRun (s : State) : Label → Bool
  | .suspend _ | .resume _ _ _ | .foreign _ => false
  | .clearPosition _ => s.kernel.ring.isEmpty && !s.pc.inFlight
  | _ => true

/-! ## The ledger

The engine's two counts against the history, at each point of a write and of a clear. -/

/-- What the read-back is computed from: the marks of the reset, the counts of both sides and
their base, and the kernel's counters and ring. -/
structure Ledger where
  active : Bool
  killed : Bool
  killStep : StepByte
  steps : Steps
  baseSteps : Steps
  baseCounts : Steps
  baseValid : Bool
  zeros : Nat
  readback : ReadBack
  unplayed : Steps
  clearPending : Bool
  counts : Steps
  ring : List UInt8

def State.ledger (s : State) : Ledger where
  active := s.gf.active
  killed := s.gf.killed
  killStep := s.gf.killStep
  steps := s.gf.steps
  baseSteps := s.gf.baseSteps
  baseCounts := s.gf.baseCounts
  baseValid := s.gf.baseValid
  zeros := s.gf.zeros
  readback := s.gf.readback
  unplayed := s.gf.unplayed
  clearPending := s.gf.clearPending
  counts := s.kernel.counts
  ring := s.kernel.ring

namespace Ledger

/-- **The balance.** From the base on, the counters, the ring and `extra` stand for the steps
that were counted. -/
def Balanced (extra : Steps) (v : Ledger) : Prop :=
  v.baseValid = true → v.counts + stepsIn v.ring + extra = v.baseCounts + (v.steps - v.baseSteps)

/-- What a clear has removed, unless a counter zero has made a base behind it. -/
def cleared (h : Owes) (zeros : Nat) (v : Ledger) : Steps :=
  if v.zeros = zeros then stepsIn h.removed else 0

/-- The balance where the shipper is. The steps of a chunk are counted when its write returns,
and a write that failed leaves no base. -/
def At (h : Owes) (v : Ledger) : ShipPc → Prop
  | .writing _ c rest => v.Balanced (stepsIn rest - c.steps)
  | .wrote _ c ok => ok = true → v.Balanced (-c.steps)
  | .pendState true zeros | .pendSeek zeros => v.Balanced 0 ∧ (v.zeros ≠ zeros → v.ring = [])
  | .pendCount zeros => v.ring = [] ∧ v.Balanced (v.cleared h zeros)
  | .pendDone true counts zeros =>
    v.ring = [] ∧ v.Balanced (v.cleared h zeros) ∧
      (v.zeros = zeros → ∀ c, counts = some c → c = v.counts)
  | .pendDone false counts _ => counts = none ∧ v.Balanced 0
  | _ => v.Balanced 0

/-- A counter zero has landed since the snapshot of the clear in progress. -/
def Stale (v : Ledger) : ShipPc → Prop
  | .pendState true zeros | .pendSeek zeros | .pendCount zeros | .pendDone _ _ zeros => v.zeros ≠ zeros
  | _ => True

end Ledger

/-- The clear in progress has read the counters, and could not. -/
def ShipPc.uncounted : ShipPc → Prop
  | .pendDone _ counts _ => counts = none
  | _ => False

/-- The count of counter zeros that the clear in progress began with. -/
def ShipPc.snapshot : ShipPc → Nat
  | .pendState true zeros | .pendSeek zeros | .pendCount zeros | .pendDone _ _ zeros => zeros
  | _ => 0

/-- The pieces of `pending_pass` that only a device takes. -/
def ShipPc.atDevice : ShipPc → Bool
  | .pendState _ _ | .pendSeek _ | .pendCount _ => true
  | _ => false

/-- **The invariant.** -/
structure ReadInv (h : Owes) (v : Ledger) (pc : ShipPc) : Prop where
  killed : v.killed = true → v.killStep = h.mark
  unmarked : v.killed = false → h.mark = 0
  -- The null sink's counters are the steps it took.
  null : v.active = false → v.baseCounts = v.baseSteps ∧ h.removed = []
  device : pc.atDevice = true → v.active = true
  ledger : v.active = true → v.At h pc
  clearing : pc.clearing = true → v.clearPending = true
  snapshot : pc.snapshot ≤ v.zeros
  zeroed : h.zeroed = true → v.Stale pc
  wait : v.readback = .wait → v.unplayed = h.atReset ∧ v.clearPending = true ∧
    (h.spoiled = true → v.active = true ∧ pc.uncounted)
  done : v.readback = .done →
    v.unplayed = h.atReset + stepsIn h.removed ∧ v.clearPending = false ∧ h.spoiled = false
  once : v.readback = .wait ∨ v.readback = .done → h.answers = 0
  answers : h.answers ≤ 1

/-- The shipper is neither in a write nor in a clear. -/
def ShipPc.plain (pc : ShipPc) : Bool := !pc.clearing && !pc.inFlight

theorem Ledger.at_plain {h : Owes} {v : Ledger} {pc : ShipPc} (hpc : pc.plain = true) :
    v.At h pc ↔ v.Balanced 0 := by
  cases pc with
  | pendState clear zeros =>
    cases clear with
    | true => cases hpc
    | false => rfl
  | pendSeek zeros => cases hpc
  | pendCount zeros => cases hpc
  | pendDone cleared counts zeros => cases hpc
  | writing p c rest => cases hpc
  | wrote p c ok => cases hpc
  | _ => rfl

theorem Ledger.stale_plain {v : Ledger} {pc : ShipPc} (hpc : pc.plain = true) : v.Stale pc := by
  cases pc with
  | pendState clear zeros =>
    cases clear with
    | true => cases hpc
    | false => trivial
  | pendSeek zeros => cases hpc
  | pendCount zeros => cases hpc
  | pendDone cleared counts zeros => cases hpc
  | _ => trivial

theorem ShipPc.snapshot_plain {pc : ShipPc} (hpc : pc.plain = true) : pc.snapshot = 0 := by
  cases pc with
  | pendState clear zeros =>
    cases clear with
    | true => cases hpc
    | false => rfl
  | pendSeek zeros => cases hpc
  | pendCount zeros => cases hpc
  | pendDone cleared counts zeros => cases hpc
  | _ => rfl

theorem ShipPc.uncounted_plain {pc : ShipPc} (hpc : pc.plain = true) : ¬pc.uncounted := by
  cases pc with
  | pendDone cleared counts zeros => cases hpc
  | _ => exact id

/-- Between the writes and the clears, the shipper's moves leave the invariant, and so does a
ring that holds the same steps. -/
theorem ReadInv.move {h : Owes} {v : Ledger} {pc pc' : ShipPc} {ring : List UInt8}
    (hinv : ReadInv h v pc) (hring : stepsIn ring = stepsIn v.ring) (hpc : pc.plain = true)
    (hpc' : pc'.plain = true) (hdevice : pc'.atDevice = true → v.active = true) :
    ReadInv h { v with ring := ring } pc' :=
  { killed := hinv.killed
    unmarked := hinv.unmarked
    null := hinv.null
    device := hdevice
    ledger := fun hactive => by
      have hbal := (Ledger.at_plain hpc).mp (hinv.ledger hactive)
      rw [Ledger.at_plain hpc']
      intro hvalid
      rw [← hbal hvalid, ← hring]
    clearing := fun hclear => by simp [ShipPc.plain, hclear] at hpc'
    snapshot := by rw [ShipPc.snapshot_plain hpc']; exact Nat.zero_le _
    zeroed := fun _ => Ledger.stale_plain hpc'
    wait := fun hw =>
      ⟨(hinv.wait hw).1, (hinv.wait hw).2.1,
        fun hs => absurd ((hinv.wait hw).2.2 hs).2 (ShipPc.uncounted_plain hpc)⟩
    done := hinv.done
    once := hinv.once
    answers := hinv.answers }

/-! ## The shipper

The steps of the thread that write, clear, count and answer. -/

theorem darkPad_ledger (ok : Bool) (s : State) :
    (darkPad ok s).ledger = { s.ledger with ring := (darkPad ok s).kernel.ring } := by
  simp only [darkPad]
  split <;> rfl

theorem stepsIn_pad (ok : Bool) (s : State) :
    stepsIn (darkPad ok s).kernel.ring = stepsIn s.kernel.ring := by
  simp only [darkPad]
  split
  · rw [Kernel.take, stepsIn_append, stepsIn_dark, add_zero]
  · rfl

/-- How a clear settles the read-back: only an exact count does. -/
theorem settleReadback_done {counts : Option Steps} {stale : Bool} {g : Gf}
    (hbefore : g.readback ≠ .done) (h : (settleReadback counts stale g).readback = .done) :
    g.readback = .wait ∧ stale = false ∧ g.baseValid = true ∧ ∃ c, counts = some c ∧
      (settleReadback counts stale g).unplayed =
        g.unplayed + ((g.steps - g.baseSteps) - (c - g.baseCounts)) := by
  simp only [settleReadback] at h ⊢
  split at h
  · next hwait =>
    split at h
    · next c hgood =>
      rw [Bool.or_eq_false_iff, Bool.not_eq_false'] at hgood
      exact ⟨hwait, hgood.1, hgood.2, c, rfl, by rw [if_pos hwait]⟩
    · cases h
  · exact absurd h hbefore

theorem settleReadback_wait {counts : Option Steps} {stale : Bool} {g : Gf} :
    (settleReadback counts stale g).readback ≠ .wait := by
  simp only [settleReadback]
  split
  · split <;> rintro ⟨⟩
  · next hwait => exact hwait

/-- The counters as the end of a clear takes them. -/
def seenCounts (counts : Option Steps) (s : State) : Option Steps :=
  if s.gf.active then counts else some s.gf.steps

/-- What the end of a clear leaves of the ledger. -/
theorem pendingDone_ledger (cleared : Bool) (counts : Option Steps) (zeros : Nat) (s : State) :
    (pendingDone cleared counts zeros s).ledger =
      { s.ledger with
        readback := (settleReadback (seenCounts counts s) (s.gf.zeros != zeros) s.gf).readback
        unplayed := (settleReadback (seenCounts counts s) (s.gf.zeros != zeros) s.gf).unplayed
        baseSteps := (settleBase (seenCounts counts s) (s.gf.zeros != zeros) s.gf).baseSteps
        baseCounts := (settleBase (seenCounts counts s) (s.gf.zeros != zeros) s.gf).baseCounts
        baseValid := (settleBase (seenCounts counts s) (s.gf.zeros != zeros) s.gf).baseValid
        clearPending := false } := by
  have hframe : ∀ counts stale (g : Gf), settleReadback counts stale g =
      { g with
        readback := (settleReadback counts stale g).readback
        unplayed := (settleReadback counts stale g).unplayed } := by
    intro counts stale g
    simp only [settleReadback]
    split
    · split <;> rfl
    · rfl
  have hbase : ∀ counts stale (g : Gf) r u,
      settleRun cleared (settleBase counts stale { g with readback := r, unplayed := u }) =
      settleRun cleared { settleBase counts stale g with readback := r, unplayed := u } := by
    intro counts stale g r u
    simp only [settleBase]
    split
    · rfl
    · cases counts <;> rfl
  simp only [pendingDone]
  rw [hframe, hbase]
  simp only [seenCounts, settleBase]
  split
  · rfl
  · split <;> rfl

/-- The base behind a clear stands for an empty ring. -/
theorem settleBase_balanced {h : Owes} {cleared : Bool} {counts : Option Steps} {zeros : Nat}
    {s : State} (hinv : ReadInv h s.ledger (.pendDone cleared counts zeros))
    (hactive : s.gf.active = true) :
    (pendingDone cleared counts zeros s).ledger.Balanced 0 := by
  have hat := hinv.ledger hactive
  rw [pendingDone_ledger, seenCounts, if_pos hactive]
  simp only [settleBase]
  by_cases hstale : s.gf.zeros = zeros
  · rw [if_neg (by simpa using hstale)]
    cases cleared with
    | false =>
      rw [hat.1]
      rintro ⟨⟩
    | true =>
      cases counts with
      | none => rintro ⟨⟩
      | some c =>
        intro _
        have hcounts : c = s.kernel.counts := hat.2.2 hstale c rfl
        have hring : s.kernel.ring = [] := hat.1
        change s.kernel.counts + stepsIn s.kernel.ring + 0 = c + (s.gf.steps - s.gf.steps)
        rw [hring, hcounts, stepsIn_nil, sub_self, add_zero, add_zero]
  · rw [if_pos (by simpa using hstale)]
    cases cleared with
    | false => exact hat.2
    | true =>
      have hbal := hat.2.1
      rw [show s.ledger.cleared h zeros = 0 from if_neg hstale] at hbal
      exact hbal

/-- The difference of the two counts since the base is what the clear removed. -/
theorem cleared_difference {h : Owes} {cleared : Bool} {counts : Option Steps} {zeros : Nat}
    {s : State} {c : Steps} (hinv : ReadInv h s.ledger (.pendDone cleared counts zeros))
    (hstale : s.gf.zeros = zeros) (hvalid : s.gf.baseValid = true)
    (hseen : seenCounts counts s = some c) :
    (s.gf.steps - s.gf.baseSteps) - (c - s.gf.baseCounts) = stepsIn h.removed := by
  cases hactive : s.gf.active with
  | false =>
    rw [seenCounts, hactive] at hseen
    cases hseen
    obtain ⟨hbase, hremoved⟩ := hinv.null hactive
    rw [hremoved, show s.gf.baseCounts = s.gf.baseSteps from hbase, sub_self]
    rfl
  | true =>
    rw [seenCounts, if_pos hactive] at hseen
    have hat := hinv.ledger hactive
    cases cleared with
    | false =>
      rw [hat.1] at hseen
      cases hseen
    | true =>
      have hbal := hat.2.1 hvalid
      rw [show s.ledger.cleared h zeros = stepsIn h.removed from if_pos hstale, hat.1, stepsIn_nil,
        add_zero, ← hat.2.2 hstale c hseen] at hbal
      have hsum : c + stepsIn h.removed = s.gf.baseCounts + (s.gf.steps - s.gf.baseSteps) := hbal
      rw [show s.gf.steps - s.gf.baseSteps = c + stepsIn h.removed - s.gf.baseCounts by
        rw [hsum]; abel]
      abel

/-- **The end of a clear** keeps the invariant: an exact count is the only one that settles. -/
theorem pendingDone_read {h : Owes} {cleared : Bool} {counts : Option Steps} {zeros : Nat}
    {s : State} (hinv : ReadInv h s.ledger (.pendDone cleared counts zeros)) :
    ReadInv { h with spoiled := h.spoiled || h.zeroed || !s.gf.baseValid }
      (pendingDone cleared counts zeros s).ledger .lock := by
  have hclear : s.gf.clearPending = true := hinv.clearing rfl
  have hnotdone : s.gf.readback ≠ .done := by
    intro hdone
    exact absurd (hclear.symm.trans (hinv.done hdone).2.1) (by decide)
  have hbal := settleBase_balanced hinv
  rw [pendingDone_ledger] at hbal ⊢
  have hwait := @settleReadback_wait (seenCounts counts s) (s.gf.zeros != zeros) s.gf
  have hdone := @settleReadback_done (seenCounts counts s) (s.gf.zeros != zeros) s.gf hnotdone
  generalize settleReadback (seenCounts counts s) (s.gf.zeros != zeros) s.gf = r at hwait hdone hbal ⊢
  exact {
    killed := hinv.killed
    unmarked := hinv.unmarked
    null := fun hactive => by
      obtain ⟨hbase, hremoved⟩ := hinv.null hactive
      refine ⟨?_, hremoved⟩
      rw [seenCounts, if_neg (by rw [show s.gf.active = false from hactive]; rintro ⟨⟩)]
      simp only [settleBase]
      split
      · exact hbase
      · rfl
    device := by rintro ⟨⟩
    ledger := hbal
    clearing := by rintro ⟨⟩
    snapshot := Nat.zero_le _
    zeroed := fun _ => trivial
    wait := fun hw => absurd hw hwait
    done := fun hd => by
      obtain ⟨hw, hstale, hvalid, c, hseen, hunplayed⟩ := hdone hd
      have hzeros : s.gf.zeros = zeros := by simpa using hstale
      obtain ⟨howed, -, hspoiled⟩ := hinv.wait hw
      refine ⟨?_, rfl, ?_⟩
      · change r.unplayed = _
        rw [hunplayed, cleared_difference hinv hzeros hvalid hseen, show s.gf.unplayed = h.atReset from howed]
        rfl
      · have hread : h.spoiled = false := by
          rw [← Bool.not_eq_true]
          intro hs
          obtain ⟨hactive, hnone⟩ := hspoiled hs
          rw [show seenCounts counts s = counts from if_pos hactive, show counts = none from hnone] at hseen
          cases hseen
        have hzeroed : h.zeroed = false := by
          rw [← Bool.not_eq_true]
          intro hz
          exact absurd hzeros (hinv.zeroed hz)
        change (h.spoiled || h.zeroed || !s.gf.baseValid) = false
        rw [hread, hzeroed, hvalid]
        rfl
    once := fun ho => hinv.once (.inl (hdone (ho.resolve_left hwait)).1)
    answers := hinv.answers }

/-- The seek-clear: what the ring held is removed. -/
theorem pendingSeek_read {h : Owes} {e : Env} {zeros : Nat} {s : State}
    (hinv : ReadInv h s.ledger (.pendSeek zeros)) :
    ReadInv (if seekTakes e s then { h with removed := s.kernel.ring } else h)
      (pendingSeek e zeros s).ledger (pendingSeek e zeros s).pc := by
  have hactive : s.gf.active = true := hinv.device rfl
  obtain ⟨hbal, hempty⟩ := hinv.ledger hactive
  have hclear : s.gf.clearPending = true := hinv.clearing rfl
  have hnotdone : s.gf.readback ≠ .done := by
    intro hdone
    exact absurd (hclear.symm.trans (hinv.done hdone).2.1) (by decide)
  simp only [pendingSeek]
  split
  · exact {
      killed := hinv.killed
      unmarked := hinv.unmarked
      null := fun hnull => absurd (hactive.symm.trans hnull) (by decide)
      device := fun _ => hactive
      ledger := fun _ => by
        refine ⟨rfl, fun hvalid => ?_⟩
        have hsum : s.kernel.counts + stepsIn s.kernel.ring + 0 = _ := hbal hvalid
        change s.kernel.counts + stepsIn [] + (if s.gf.zeros = zeros then _ else _) = _
        split
        · rw [stepsIn_nil, add_zero, ← add_zero (_ + _), hsum]
          rfl
        · next hstale =>
          rw [show s.kernel.ring = [] from hempty hstale] at hsum
          exact hsum
      clearing := fun _ => hclear
      snapshot := hinv.snapshot
      zeroed := hinv.zeroed
      wait := hinv.wait
      done := fun hd => absurd hd hnotdone
      once := hinv.once
      answers := hinv.answers }
  · exact { hinv with
      device := by rintro ⟨⟩
      ledger := fun _ => ⟨rfl, hbal⟩
      clearing := fun _ => hclear
      snapshot := hinv.snapshot
      zeroed := hinv.zeroed
      wait := fun hw => ⟨(hinv.wait hw).1, (hinv.wait hw).2.1, fun hs => ((hinv.wait hw).2.2 hs).2.elim⟩ }

/-- Where the shipper is in no write and no clear, it may as well be at its lock. -/
theorem ReadInv.plain {h : Owes} {v : Ledger} {pc pc' : ShipPc} (hinv : ReadInv h v pc)
    (hpc : pc.plain = true) (hpc' : pc'.plain = true)
    (hdevice : pc'.atDevice = true → v.active = true) : ReadInv h v pc' :=
  hinv.move rfl hpc hpc' hdevice

/-- A round of the tick loop: a chunk on its way has not been counted and has not landed. -/
theorem shipLoop_read {h : Owes} {p : Pass} {s : State} (hinv : ReadInv h s.ledger .lock) :
    ReadInv h (shipLoop p s.gf.streaming s).ledger (shipLoop p s.gf.streaming s).pc := by
  simp only [shipLoop]
  split
  · have hticked := buildTicks_ticked p.gate p.due s.gf.streaming shipChunk s.gf []
    generalize buildTicks p.gate p.due s.gf.streaming shipChunk s.gf [] = r at hticked ⊢
    have hledger : (shipChunkOut p r.1 r.2 s).ledger = s.ledger :=
      hticked.frame (fun g => State.ledger { s with gf := g }) rfl
    rw [hledger]
    exact { hinv with
      device := by rintro ⟨⟩
      ledger := fun hactive => by
        have hbal : s.ledger.Balanced 0 := hinv.ledger hactive
        have hdevice : r.1.active = true := (hticked.frame Gf.active rfl).trans hactive
        change s.ledger.Balanced (stepsIn (if r.1.active then r.2 else []) - stepsIn r.2)
        rw [if_pos hdevice, sub_self]
        exact hbal
      clearing := by rintro ⟨⟩
      snapshot := Nat.zero_le _
      zeroed := fun _ => trivial
      wait := fun hw => ⟨(hinv.wait hw).1, (hinv.wait hw).2.1, fun hs => ((hinv.wait hw).2.2 hs).2.elim⟩ }
  · exact hinv.plain rfl rfl (by rintro ⟨⟩)

theorem shipWrite_read {h : Owes} {e : Env} {p : Pass} {c : Chunk} {rest : List UInt8} {s : State}
    (hinv : ReadInv h s.ledger (.writing p c rest)) :
    ReadInv h (shipWrite e p c rest s).ledger (shipWrite e p c rest s).pc := by
  have hwait : s.gf.readback = .wait →
      s.gf.unplayed = h.atReset ∧ s.gf.clearPending = true ∧
        (h.spoiled = true → s.gf.active = true ∧ False) := hinv.wait
  simp only [shipWrite]
  split
  · exact { hinv with
      device := by rintro ⟨⟩
      ledger := fun hactive _ => by
        have hbal := hinv.ledger hactive
        rw [Ledger.At, stepsIn_nil, zero_sub] at hbal
        exact hbal
      clearing := by rintro ⟨⟩
      snapshot := Nat.zero_le _
      zeroed := fun _ => trivial
      wait := hwait }
  · next b rest =>
    split
    · exact { hinv with
        device := by rintro ⟨⟩
        ledger := fun hactive hvalid => by
          have hbal : s.kernel.counts + stepsIn s.kernel.ring + (stepsIn (b :: rest) - c.steps) = _ :=
            hinv.ledger hactive hvalid
          change s.kernel.counts + stepsIn (s.kernel.ring ++ [b]) + (stepsIn rest - c.steps) = _
          rw [← List.singleton_append, stepsIn_append] at hbal
          rw [stepsIn_append]
          refine Eq.trans ?_ hbal
          abel
        clearing := by rintro ⟨⟩
        snapshot := Nat.zero_le _
        zeroed := fun _ => trivial
        wait := hwait }
    · exact { hinv with
        device := by rintro ⟨⟩
        ledger := fun _ hok => by cases hok
        clearing := by rintro ⟨⟩
        snapshot := Nat.zero_le _
        zeroed := fun _ => trivial
        wait := hwait }

theorem shipWrote_read {h : Owes} {p : Pass} {c : Chunk} {ok : Bool} {s : State}
    (hinv : ReadInv h s.ledger (.wrote p c ok)) :
    ReadInv (if ok then h else { h with spoiled := h.spoiled || s.gf.clearPending })
      (shipWrote p c ok s).ledger (shipWrote p c ok s).pc := by
  have hwait : s.gf.readback = .wait →
      s.gf.unplayed = h.atReset ∧ s.gf.clearPending = true ∧
        (h.spoiled = true → s.gf.active = true ∧ False) := hinv.wait
  cases ok with
  | true =>
    have hlanded : ReadInv h (chunkLanded c s).ledger .lock := { hinv with
      device := by rintro ⟨⟩
      ledger := fun hactive hvalid => by
        have hbal : s.kernel.counts + stepsIn s.kernel.ring + -c.steps =
            s.gf.baseCounts + (s.gf.steps - s.gf.baseSteps) := hinv.ledger hactive rfl hvalid
        change s.kernel.counts + stepsIn s.kernel.ring + 0 =
          s.gf.baseCounts + (s.gf.steps + c.steps - s.gf.baseSteps)
        rw [show s.gf.baseCounts + (s.gf.steps + c.steps - s.gf.baseSteps) =
          s.gf.baseCounts + (s.gf.steps - s.gf.baseSteps) + c.steps by abel, ← hbal]
        abel
      clearing := by rintro ⟨⟩
      snapshot := Nat.zero_le _
      zeroed := fun _ => trivial
      wait := hwait }
    simp only [shipWrote, if_true, shipNext]
    split
    · exact hlanded.plain rfl rfl (by rintro ⟨⟩)
    · exact shipLoop_read hlanded
  | false =>
    have hlost : (chunkFailed s).gf.readback ≠ .wait ∧
        ((chunkFailed s).gf.readback = .done → s.gf.readback = .done) := by
      simp only [chunkFailed]
      split
      · exact ⟨by decide, by rintro ⟨⟩⟩
      · next hw => exact ⟨hw, id⟩
    exact {
      killed := hinv.killed
      unmarked := hinv.unmarked
      null := hinv.null
      device := by rintro ⟨⟩
      ledger := fun _ hvalid => by cases hvalid
      clearing := by rintro ⟨⟩
      snapshot := Nat.zero_le _
      zeroed := fun _ => trivial
      wait := fun hw => absurd hw hlost.1
      done := fun hd => by
        obtain ⟨howed, hclear, hspoiled⟩ := hinv.done (hlost.2 hd)
        refine ⟨howed, hclear, ?_⟩
        change (h.spoiled || s.gf.clearPending) = false
        rw [hspoiled, show s.gf.clearPending = false from hclear]
        rfl
      once := fun ho => hinv.once (.inr (hlost.2 (ho.resolve_left hlost.1)))
      answers := hinv.answers }

/-- The first steps of a pass leave the ledger, but for a pad. -/
theorem endStream_ledger (e : Env) (s : State) :
    ∃ ring, stepsIn ring = stepsIn s.kernel.ring ∧
      (pollHold e (endStream e s)).ledger = { s.ledger with ring := ring } := by
  have hhold : ∀ u, (pollHold e u).ledger = u.ledger := by
    intro u
    simp only [pollHold]
    split_ifs <;> rfl
  have hrun : ∀ u, (endRun e.now u).ledger = u.ledger := by
    intro u
    simp only [endRun]
    split <;> rfl
  rw [hhold]
  simp only [endStream]
  split
  · rw [hrun]
    simp only [endPad]
    split
    · exact ⟨_, stepsIn_pad e.ok s, darkPad_ledger e.ok s⟩
    · exact ⟨_, rfl, rfl⟩
  · exact ⟨_, rfl, rfl⟩

theorem shipBody_read {h : Owes} {e : Env} {gate : Bool} {s : State}
    (hinv : ReadInv h s.ledger (.sampled gate)) :
    ReadInv h (shipBody e gate s).ledger (shipBody e gate s).pc := by
  have hedge : State.ledger { s with gf := gateEdge gate s.gf } = s.ledger := by
    simp only [gateEdge]
    split_ifs <;> rfl
  rw [← hedge] at hinv
  simp only [shipBody]
  generalize { s with gf := gateEdge gate s.gf } = u at hinv ⊢
  simp only [shipGated]
  split
  · obtain ⟨ring, hring, hledger⟩ := endStream_ledger e u
    change ReadInv h (pollHold e (endStream e u)).ledger .check
    rw [hledger]
    exact hinv.move hring rfl rfl (by rintro ⟨⟩)
  · split
    · exact hinv.plain rfl rfl (by rintro ⟨⟩)
    · exact shipLoop_read (p := ⟨gate, dueIndex e.later _, false⟩) (s := anchor e.now u)
        (hinv.plain rfl rfl (by rintro ⟨⟩))

/-- The snapshot of `pending_pass`, behind the pad of a stream that a reset ended. -/
theorem resetPad_ledger (ok : Bool) (s : State) :
    ∃ ring, stepsIn ring = stepsIn s.kernel.ring ∧
      (resetPad ok s).ledger = { s.ledger with ring := ring } := by
  simp only [resetPad]
  split
  · exact ⟨_, stepsIn_pad ok s, darkPad_ledger ok s⟩
  · exact ⟨_, rfl, rfl⟩

theorem pendingSnapshot_read {h : Owes} {e : Env} {s : State} (hinv : ReadInv h s.ledger .top) :
    ReadInv { h with zeroed := false } (pendingSnapshot e s).ledger (pendingSnapshot e s).pc := by
  obtain ⟨ring, hring, hledger⟩ :=
    resetPad_ledger e.ok { s with gf := { s.gf with runPending := keepsRun s.gf } }
  have hpadded : ReadInv h { s.ledger with ring := ring } .lock := hinv.move hring rfl rfl
                                           (by rintro ⟨⟩)
  simp only [pendingSnapshot]
  generalize resetPad e.ok { s with gf := { s.gf with runPending := keepsRun s.gf } } = u at hledger ⊢
  change ReadInv _ u.ledger (pendingNext u.gf)
  rw [show ({ s with gf := { s.gf with runPending := keepsRun s.gf } } : State).ledger = s.ledger from rfl]
    at hledger
  rw [← hledger] at hpadded
  have hwait : u.gf.readback = .wait →
      u.gf.unplayed = h.atReset ∧ u.gf.clearPending = true ∧
        (h.spoiled = true → u.gf.active = true ∧ False) := hpadded.wait
  have hspoiled : ∀ pc, u.gf.readback = .wait →
      u.gf.unplayed = h.atReset ∧ u.gf.clearPending = true ∧
        (h.spoiled = true → u.gf.active = true ∧ ShipPc.uncounted pc) :=
    fun _ hw => ⟨(hwait hw).1, (hwait hw).2.1, fun hs => ((hwait hw).2.2 hs).2.elim⟩
  simp only [pendingNext]
  split_ifs with hnone hactive
  · exact { hpadded with
      device := by rintro ⟨⟩, clearing := by rintro ⟨⟩, snapshot := Nat.zero_le _,
          zeroed := by rintro ⟨⟩
      wait := hspoiled _ }
  · exact { hpadded with
      device := fun _ => hactive
      ledger := fun ha => by
        have hbal : u.ledger.Balanced 0 := hpadded.ledger ha
        cases u.gf.clearPending with
        | true => exact ⟨hbal, fun hstale => absurd rfl hstale⟩
        | false => exact hbal
      clearing := id
      snapshot := by cases u.gf.clearPending <;> first | exact le_refl _ | exact Nat.zero_le _
      zeroed := by rintro ⟨⟩
      wait := hspoiled _ }
  · exact { hpadded with
      device := by rintro ⟨⟩
      ledger := fun ha => absurd ha hactive
      clearing := fun _ => by
        simp only [Bool.and_eq_true, Bool.not_eq_true', Bool.or_eq_true, not_and_or, not_or] at hnone
        rcases hnone with hc | hn
        · exact Bool.not_eq_false _ ▸ hc
        · exact absurd (Bool.not_eq_true _ ▸ hactive) hn.1
      snapshot := le_refl _
      zeroed := by rintro ⟨⟩
      wait := hspoiled _ }

theorem shipLock_read {h : Owes} {e : Env} {s : State} (hinv : ReadInv h s.ledger .lock) :
    ReadInv h (shipLock e s).ledger (shipLock e s).pc := by
  simp only [shipLock, faultPad]
  split_ifs
  · change ReadInv h (darkPad e.ok s).ledger .check
    rw [darkPad_ledger]
    exact hinv.move (stepsIn_pad e.ok s) rfl rfl (by rintro ⟨⟩)
  · exact hinv.plain rfl rfl (by rintro ⟨⟩)
  · exact hinv.plain rfl rfl (by rintro ⟨⟩)

theorem pendingState_read {h : Owes} {e : Env} {clear : Bool} {zeros : Nat} {s : State}
    (hinv : ReadInv h s.ledger (.pendState clear zeros)) :
    ReadInv h (pendingState e clear zeros s).ledger (pendingState e clear zeros s).pc := by
  have hactive : s.gf.active = true := hinv.device rfl
  have hwait : s.gf.readback = .wait →
      s.gf.unplayed = h.atReset ∧ s.gf.clearPending = true ∧
        (h.spoiled = true → s.gf.active = true ∧ False) := hinv.wait
  change ReadInv h s.ledger (pendingState e clear zeros s).pc
  cases clear with
  | false =>
    simp only [pendingState]
    split <;> exact hinv.plain rfl rfl (by rintro ⟨⟩)
  | true =>
    have hcheck : ReadInv h s.ledger .check := { hinv with
      device := by rintro ⟨⟩
      ledger := fun ha => (hinv.ledger ha).1
      clearing := by rintro ⟨⟩
      snapshot := Nat.zero_le _
      zeroed := fun _ => trivial
      wait := hwait }
    have hseek : ReadInv h s.ledger (.pendSeek zeros) := { hinv with
      device := fun _ => hactive
      ledger := hinv.ledger
      clearing := hinv.clearing
      snapshot := hinv.snapshot
      zeroed := hinv.zeroed
      wait := hwait }
    simp only [pendingState]
    split
    · exact hcheck
    · exact hcheck
    · exact hseek

theorem pendingCount_read {h : Owes} {e : Env} {zeros : Nat} {s : State}
    (hinv : ReadInv h s.ledger (.pendCount zeros)) :
    ReadInv { h with spoiled := h.spoiled || !e.readOk }
      (pendingCount e zeros s).ledger (pendingCount e zeros s).pc := by
  have hactive : s.gf.active = true := hinv.device rfl
  obtain ⟨hring, hbal⟩ := hinv.ledger hactive
  have hclear : s.gf.clearPending = true := hinv.clearing rfl
  exact { hinv with
    device := by rintro ⟨⟩
    ledger := fun _ => by
      refine ⟨hring, hbal, fun _ c hc => ?_⟩
      split at hc
      · exact (Option.some.inj hc).symm
      · cases hc
    clearing := hinv.clearing
    snapshot := hinv.snapshot
    zeroed := hinv.zeroed
    wait := fun hw => by
      obtain ⟨howed, hpending, hspoiled⟩ := hinv.wait hw
      refine ⟨howed, hpending, fun hs => ⟨hactive, ?_⟩⟩
      rcases Bool.or_eq_true_iff.mp hs with hs | hs
      · exact (hspoiled hs).2.elim
      · exact if_neg (by simpa using hs)
    done := fun hd => absurd (hclear.symm.trans (hinv.done hd).2.1) (by decide) }

theorem Kernel.stop_ring (k : Kernel) : k.stop.counts = k.counts ∧ k.stop.ring = k.ring := by
  simp only [Kernel.stop]
  split <;> exact ⟨rfl, rfl⟩

/-- A kernel that keeps its counters and its ring keeps the ledger. -/
theorem ledger_kernel {s : State} {k : Kernel}
    (h : k.counts = s.kernel.counts ∧ k.ring = s.kernel.ring) :
    State.ledger { s with kernel := k } = s.ledger := by
  simp only [State.ledger, h.1, h.2]

theorem ShipPc.plain_tail {pc : ShipPc} (h : pc.tail = true) :
    pc.plain = true ∧ pc.atDevice = false := by
  cases pc with
  | _ => first | exact ⟨rfl, rfl⟩ | cases h

/-- The tail of a pass leaves the ledger alone. -/
theorem tail_ledger {e : Env} {s : State} (h : s.pc.tail = true) :
    (shipStep e s).ledger = s.ledger ∧ (shipStep e s).pc.plain = true ∧
      (shipStep e s).pc.atDevice = false := by
  refine ⟨(shipStep_tail h).frame (fun g k => State.ledger { s with gf := g, kernel := k }) rfl, ?_⟩
  rcases shipStep_tail_pc (e := e) h with htail | htop | hlock
  · exact ShipPc.plain_tail htail
  · rw [htop]
    exact ⟨rfl, rfl⟩
  · rw [hlock]
    exact ⟨rfl, rfl⟩

theorem shipStep_read {h : Owes} {e : Env} {s : State} (hinv : ReadInv h s.ledger s.pc) :
    ReadInv (h.ship s e) (shipStep e s).ledger (shipStep e s).pc := by
  cases htail : s.pc.tail with
  | true =>
    obtain ⟨hledger, hplain, hdevice⟩ := tail_ledger (e := e) htail
    have hbefore : s.pc.plain = true ∧ h.ship s e = h := by
      unfold Owes.ship
      cases hpc : s.pc with (rw [hpc] at htail)
      | pendState clear zeros => cases htail
      | wrote p c ok => cases htail
      | _ => first | exact ⟨rfl, rfl⟩ | cases htail
    rw [hbefore.2, hledger]
    exact hinv.plain hbefore.1 hplain fun hd => absurd (hdevice.symm.trans hd) (by decide)
  | false =>
    unfold shipStep Owes.ship
    cases hpc : s.pc with (rw [hpc] at hinv htail)
    | top => exact pendingSnapshot_read hinv
    | pendState clear zeros => exact pendingState_read hinv
    | pendSeek zeros => exact pendingSeek_read hinv
    | pendCount zeros => exact pendingCount_read hinv
    | pendDone cleared counts zeros => exact pendingDone_read hinv
    | pendOurs =>
      simp only [pendingOurs]
      split_ifs <;> exact hinv.plain rfl rfl (by rintro ⟨⟩)
    | lock => exact shipLock_read hinv
    | sampled gate => exact shipBody_read hinv
    | writing p c rest => exact shipWrite_read hinv
    | wrote p c ok =>
      have hwrote := shipWrote_read hinv
      cases ok <;> exact hwrote
    | _ => cases htail

/-! ## The other threads

A reset opens the account, a read-back closes it, and what comes in between moves steps along or
spoils it. -/

/-- The record `r` is `g` but for what the reset writes of the ledger. -/
def Gf.Reset (g r : Gf) : Prop :=
  ∀ s : State, State.ledger { s with gf := r } = { State.ledger { s with gf := g } with
    killed := r.killed, readback := r.readback, unplayed := r.unplayed
    clearPending := r.clearPending }

theorem Gf.Reset.trans {g h r : Gf} (h1 : g.Reset h) (h2 : h.Reset r) : g.Reset r := by
  intro s
  rw [h2 s, h1 s]

theorem resetStream_reset (now : Nat) (killed : Bool) (g : Gf) : g.Reset (resetStream now killed g) := by
  intro s
  simp only [resetStream, resetReadback, resetRun]
  split_ifs <;> rfl

/-- What the reset of a stream leaves of the read-back. -/
theorem resetStream_wait {now : Nat} {killed : Bool} {g : Gf} (hnone : g.readback = .none) :
    (resetStream now killed g).readback ≠ .done ∧
    ((resetStream now killed g).readback = .wait → killed = true ∧ g.failed = false ∧
      g.baseValid = true ∧ (resetStream now killed g).clearPending = true ∧
      (resetStream now killed g).unplayed = stepOf g.killStep.val + stepSum (backlog g)) := by
  cases killed with
  | false =>
    have hstill : (resetStream now false g).readback = .none := by
      simp only [resetStream, resetReadback, resetRun, Bool.false_and, Bool.false_eq_true, if_false]
      split <;> exact hnone
    rw [hstill]
    exact ⟨by decide, by rintro ⟨⟩⟩
  | true =>
    have hrun : (dropSlots (g.produced - g.shipped) g.shipped (g.ring, tickSteps 0 g.killStep.val)).2 =
        stepOf g.killStep.val + stepSum (backlog g) := by
      rw [dropSlots_steps, stepSum_backlog, tickSteps, zero_add]
    cases hfailed : g.failed with
    | true =>
      have hstill : resetStream now true g =
          resetRun now true (resetLaser (dropBacklogLocked (tickSteps 0 g.killStep.val) g).1) :=
        if_neg (show ¬(true && !g.failed) = true by rw [hfailed]; rintro ⟨⟩)
      rw [hstill]
      change g.readback ≠ .done ∧ (g.readback = .wait → _)
      rw [hnone]
      exact ⟨by decide, by rintro ⟨⟩⟩
    | false =>
      have howes : resetStream now true g =
          { resetRun now true (resetLaser (dropBacklogLocked (tickSteps 0 g.killStep.val) g).1) with
            unplayed := (dropBacklogLocked (tickSteps 0 g.killStep.val) g).2
            readback := if g.baseValid then .wait else .lost } :=
        if_pos (show (true && !g.failed) = true by rw [hfailed]; rfl)
      rw [howes]
      cases hvalid : g.baseValid with
      | true => exact ⟨by rintro ⟨⟩, fun _ => ⟨rfl, rfl, rfl, rfl, hrun⟩⟩
      | false => exact ⟨by rintro ⟨⟩, by rintro ⟨⟩⟩

theorem resetStream_killed (now : Nat) (killed : Bool) (g : Gf) :
    (resetStream now killed g).killed = g.killed := by
  simp only [resetStream, resetReadback, resetRun]
  split_ifs <;> rfl

theorem resetStream_clears {now : Nat} {killed : Bool} {g : Gf} (h : g.clearPending = true) :
    (resetStream now killed g).clearPending = true := by
  simp only [resetStream, resetReadback, resetRun]
  split_ifs <;> first | rfl | exact h

/-- What a reset leaves of the ledger of `g`. -/
structure ResetLeaves (g r : Gf) : Prop where
  rest : g.Reset r
  killed : r.killed = false
  clears : g.clearPending = true → r.clearPending = true
  done : r.readback ≠ .done
  wait : r.readback = .wait → g.killed = true ∧ g.baseValid = true ∧ r.clearPending = true ∧
    r.unplayed = stepOf g.killStep.val + stepSum (backlog g)

theorem resetLocked_leaves (now : Nat) (g : Gf) : ResetLeaves g (resetLocked now g) := by
  -- the first part: the stream that the reset ends
  have hends : ResetLeaves g (if resetEnds g then
      resetStream now g.killed { g with killed := false, readback := .none }
      else { g with killed := false, readback := .none }) := by
    split
    · have hstart : g.Reset { g with killed := false, readback := .none } := fun _ => rfl
      have hread := @resetStream_wait now g.killed { g with killed := false, readback := .none } rfl
      exact {
        rest := hstart.trans (resetStream_reset _ _ _)
        killed := resetStream_killed _ _ _
        clears := fun hc => resetStream_clears hc
        done := hread.1
        wait := fun hw =>
          have hwait := hread.2 hw
          ⟨hwait.1, hwait.2.2.1, hwait.2.2.2.1, hwait.2.2.2.2⟩ }
    · exact ⟨fun _ => rfl, rfl, id, by rintro ⟨⟩, by rintro ⟨⟩⟩
  -- the second: the fault that it acknowledges
  simp only [resetLocked]
  split
  · exact ⟨hends.rest.trans fun _ => rfl, hends.killed, fun _ => rfl, hends.done,
      fun hw => ⟨(hends.wait hw).1, (hends.wait hw).2.1, rfl, (hends.wait hw).2.2.2⟩⟩
  · exact ⟨hends.rest.trans fun _ => rfl, hends.killed, hends.clears, hends.done, hends.wait⟩

/-- **The reset** takes the mark and the backlog into the read-back. From here on the answer is due,
and the history holds the bytes that it must account for. -/
theorem reset_read {h : Owes} {now : Nat} {s : State} (hinv : ReadInv h s.ledger s.pc) :
    ReadInv { h with
        mark := 0, kill := h.mark, dropped := backlog s.gf, answers := 0
        spoiled := !s.gf.baseValid }
      (gfStreamReset now s).ledger (gfStreamReset now s).pc := by
  obtain ⟨hreset, hkilled, hclear, hdone, hwait⟩ := resetLocked_leaves now s.gf
  have hledger : (gfStreamReset now s).ledger = _ := hreset s
  rw [hledger]
  exact {
    killed := fun hk => absurd (hkilled.symm.trans hk) (by decide)
    unmarked := fun _ => rfl
    null := hinv.null
    device := hinv.device
    ledger := hinv.ledger
    clearing := fun hc => hclear (hinv.clearing hc)
    snapshot := hinv.snapshot
    zeroed := hinv.zeroed
    wait := fun hw => by
      obtain ⟨hk, hvalid, hpending, howed⟩ := hwait hw
      refine ⟨?_, hpending, fun hs => ?_⟩
      · change (resetLocked now s.gf).unplayed = stepOf h.mark.val + stepSum (backlog s.gf)
        rw [howed, show s.gf.killStep = h.mark from hinv.killed hk]
      · change (!s.gf.baseValid) = true at hs
        rw [hvalid] at hs
        cases hs
    done := fun hd => absurd hd hdone
    once := fun _ => rfl
    answers := Nat.zero_le _ }

/-- An idle under the reset marks the stream: a live one with the kill byte. -/
theorem goIdle_read {h : Owes} {reset : Bool} {stepBits dirBits : UInt8} {s : State}
    (hinv : ReadInv h s.ledger s.pc) :
    ReadInv (Owes.record s (.goIdle reset stepBits dirBits) h)
      (gfStreamGoIdle reset stepBits dirBits s).ledger s.pc := by
  have hend : ∀ g : Gf, State.ledger { s with gf := goIdleEnd g } = State.ledger { s with gf := g } := by
    intro g
    obtain ⟨lev, streaming, hgo⟩ := goIdleEnd_frame g
    rw [hgo]
    rfl
  change ReadInv _ (State.ledger { s with gf := goIdleEnd (goIdleMark _ _ _) }) s.pc
  rw [hend]
  cases reset with
  | false => exact hinv
  | true =>
    simp only [Owes.record, goIdleMark, Bool.true_and]
    cases hstream : s.gf.streaming with
    | true =>
      exact { hinv with killed := fun _ => rfl, unmarked := by rintro ⟨⟩ }
    | false =>
      cases hhere : s.gf.suspended with
      | true => exact hinv
      | false =>
        cases hkilled : s.gf.killed with
        | true =>
          exact { hinv with killed := fun _ => hinv.killed hkilled, unmarked := by rintro ⟨⟩ }
        | false =>
          exact { hinv with killed := fun _ => (hinv.unmarked hkilled).symm,
                            unmarked := by rintro ⟨⟩ }

/-- One poll of the read-back. -/
theorem readback_read {h : Owes} {expired : Bool} {s : State} (hinv : ReadInv h s.ledger s.pc) :
    ReadInv (Owes.record s (.readback expired) h) (gfStreamReadback expired s).ledger s.pc := by
  -- a poll with an answer takes the read-back
  have htaken : ∀ answers, answers ≤ 1 →
      ReadInv { h with answers := answers } { s.ledger with readback := .none } s.pc :=
    fun answers hle => { hinv with
      wait := by rintro ⟨⟩
      done := by rintro ⟨⟩
      once := fun ho => by rcases ho with hw | hd <;> [cases hw; cases hd]
      answers := hle }
  simp only [Owes.record, gfStreamReadback]
  by_cases hdone : s.gf.readback = .done
  · rw [if_pos hdone, if_pos (by rw [readbackAnswer, hdone]; rfl)]
    exact htaken _ (by rw [hinv.once (.inr hdone)])
  · rw [if_neg hdone]
    split
    · exact htaken h.answers hinv.answers
    · exact hinv

/-- A byte played moves its step from the ring to the counters. -/
theorem Ledger.Balanced.play {v : Ledger} {extra : Steps} {b : UInt8} {rest : List UInt8}
    (h : v.Balanced extra) (hring : v.ring = b :: rest) :
    Ledger.Balanced extra
      { v with counts := if isTick b then tickSteps v.counts b else v.counts, ring := rest } := by
  intro hvalid
  rw [← h hvalid, hring, stepsIn_cons]
  dsimp only
  split
  · rw [tickSteps]
    abel
  · abel

theorem play_read {h : Owes} {v : Ledger} {pc : ShipPc} {b : UInt8} {rest : List UInt8}
    (hinv : ReadInv h v pc) (hring : v.ring = b :: rest) :
    ReadInv h { v with counts := if isTick b then tickSteps v.counts b else v.counts, ring := rest }
      pc := by
  have hnonempty : v.ring ≠ [] := by rw [hring]; rintro ⟨⟩
  refine { hinv with ledger := fun hactive => ?_ }
  have hat := hinv.ledger hactive
  cases pc with
  | writing p c rest => exact Ledger.Balanced.play hat hring
  | wrote p c ok => exact fun hok => Ledger.Balanced.play (hat hok) hring
  | pendState clear zeros =>
    cases clear with
    | true => exact ⟨hat.1.play hring, fun hstale => absurd (hat.2 hstale) hnonempty⟩
    | false => exact Ledger.Balanced.play hat hring
  | pendSeek zeros => exact ⟨hat.1.play hring, fun hstale => absurd (hat.2 hstale) hnonempty⟩
  | pendCount zeros => exact absurd hat.1 hnonempty
  | pendDone cleared counts zeros =>
    cases cleared with
    | true => exact absurd hat.1 hnonempty
    | false => exact ⟨hat.1, hat.2.play hring⟩
  | _ => exact Ledger.Balanced.play hat hring

theorem act_read {h : Owes} {a : KernelAct} {k : Kernel} {s : State} (hinv : ReadInv h s.ledger s.pc)
    (hact : s.kernel.act a = some k) : ReadInv h (State.ledger { s with kernel := k }) s.pc := by
  cases a with
  | play =>
    simp only [Kernel.act] at hact
    split at hact <;> cases hact
    next hstate hring => exact play_read hinv hring
  | runOut =>
    simp only [Kernel.act] at hact
    split at hact <;> cases hact
    exact hinv
  | rampEnd =>
    simp only [Kernel.act] at hact
    split at hact <;> cases hact
    exact hinv
  | foreignStop =>
    cases hact
    rw [ledger_kernel (Kernel.stop_ring _)]
    exact hinv
  | foreignDisable =>
    cases hact
    exact hinv
  | driverFault =>
    cases hact
    exact hinv

/-- The ledger behind a counter zero at a drained ring, at any point but a write. -/
theorem zeroed_at {h h' : Owes} {v w : Ledger} {pc : ShipPc} (hflight : pc.inFlight = false)
    (hsnapshot : pc.snapshot ≤ v.zeros) (hring : w.ring = []) (hzeros : w.zeros = v.zeros + 1)
    (hbal : w.Balanced 0) (hat : v.At h pc) : w.At h' pc := by
  have hlater : ∀ zeros, zeros ≤ v.zeros → w.zeros ≠ zeros := by
    intro zeros hle
    omega
  have hcleared : ∀ zeros, zeros ≤ v.zeros → w.cleared h' zeros = 0 :=
    fun zeros hle => if_neg (hlater zeros hle)
  cases pc with
  | writing p c rest => cases hflight
  | wrote p c ok => cases hflight
  | pendState clear zeros =>
    cases clear with
    | true => exact ⟨hbal, fun _ => hring⟩
    | false => exact hbal
  | pendSeek zeros => exact ⟨hbal, fun _ => hring⟩
  | pendCount zeros =>
    refine ⟨hring, ?_⟩
    rw [hcleared zeros hsnapshot]
    exact hbal
  | pendDone cleared counts zeros =>
    cases cleared with
    | true =>
      refine ⟨hring, ?_, fun heq => absurd heq (hlater zeros hsnapshot)⟩
      rw [hcleared zeros hsnapshot]
      exact hbal
    | false => exact ⟨hat.1, hbal⟩
  | _ => exact hbal

theorem stale_later {v w : Ledger} {pc : ShipPc} (hsnapshot : pc.snapshot ≤ v.zeros)
    (hzeros : w.zeros = v.zeros + 1) : w.Stale pc := by
  cases pc with
  | pendState clear zeros =>
    cases clear with
    | true => exact fun heq => absurd hsnapshot (by simp only [ShipPc.snapshot]; omega)
    | false => trivial
  | pendSeek zeros => exact fun heq => absurd hsnapshot (by simp only [ShipPc.snapshot]; omega)
  | pendCount zeros => exact fun heq => absurd hsnapshot (by simp only [ShipPc.snapshot]; omega)
  | pendDone cleared counts zeros =>
    exact fun heq => absurd hsnapshot (by simp only [ShipPc.snapshot]; omega)
  | _ => trivial

/-- A counter zero at a drained ring is a new base. -/
theorem clearPosition_read {h : Owes} {ok : Bool} {s : State} (hinv : ReadInv h s.ledger s.pc)
    (hdrained : readBackRun s (.clearPosition ok) = true) :
    ReadInv (Owes.record s (.clearPosition ok) h) (gfStreamClearPosition ok s).ledger s.pc := by
  simp only [readBackRun, Bool.and_eq_true, Bool.not_eq_true', List.isEmpty_iff] at hdrained
  obtain ⟨hring, hflight⟩ := hdrained
  simp only [Owes.record, gfStreamClearPosition]
  cases hdev : s.gf.active && s.gf.fdOpen with
  | false => exact hinv
  | true =>
    have hactive : s.gf.active = true := (Bool.and_eq_true_iff.mp hdev).1
    have hrecord : ∃ z, (if true && s.pc.clearing then { h with zeroed := true } else h) =
        { h with zeroed := z } := by
      split <;> exact ⟨_, rfl⟩
    obtain ⟨z, hz⟩ := hrecord
    have hlater : s.pc.snapshot ≤ s.gf.zeros + 1 := Nat.le_succ_of_le hinv.snapshot
    rw [hz, if_pos rfl]
    split
    · exact { hinv with
        null := fun hnull => absurd (hactive.symm.trans hnull) (by decide)
        ledger := fun _ => zeroed_at hflight hinv.snapshot hring rfl
          (fun _ => by
            change 0 + stepsIn s.kernel.ring + 0 = 0 + (s.gf.steps - s.gf.steps)
            rw [hring, stepsIn_nil, sub_self]
            rfl)
          (hinv.ledger hactive)
        snapshot := hlater
        zeroed := fun _ => stale_later hinv.snapshot rfl }
    · exact { hinv with
        null := fun hnull => absurd (hactive.symm.trans hnull) (by decide)
        ledger := fun _ => zeroed_at hflight hinv.snapshot hring rfl (by rintro ⟨⟩)
            (hinv.ledger hactive)
        snapshot := hlater
        zeroed := fun _ => stale_later hinv.snapshot rfl }

theorem clampLocked_ledger (s : State) : (clampLocked s).2.ledger = s.ledger := by
  simp only [clampLocked]
  split
  · exact ledger_kernel (Kernel.stop_ring _)
  · rfl

theorem pulsePlace_ledger (b : StepByte) (idx : Nat) (s : State) :
    (pulsePlace b idx s).ledger = s.ledger := by
  simp only [pulsePlace]
  split_ifs <;> rfl

theorem laserEventLocked_ledger (power : UInt8) (fire : Bool) (s : State) :
    (laserEventLocked power fire s).ledger = s.ledger := by
  have hrecord : ∀ (u : State) idx,
      State.ledger { u with gf := levRecord idx power fire u.gf } = u.ledger := by
    intro u idx
    obtain ⟨lev, warned, hrec⟩ := levRecord_frame idx power fire u.gf
    rw [hrec]
    rfl
  simp only [laserEventLocked]
  split_ifs
  · exact clampLocked_ledger s
  · exact (hrecord _ _).trans (clampLocked_ledger s)
  · exact hrecord _ _
  · rfl

theorem wakeupStream_ledger (now : Nat) (s : State) : (wakeupStream now s).ledger = s.ledger := by
  simp only [wakeupStream, wakeupAssert, wakeupIndex, wakeupContinue, wakeupFresh]
  split_ifs <;> rfl

/-- The producer's calls: only a wakeup touches the ledger, and takes the mark off. -/
theorem locked_read {h : Owes} {c : Call} {now : Nat} {s : State} (hinv : ReadInv h s.ledger s.pc) :
    ReadInv (Owes.record s (.locked c now) h) (c.locked now s).ledger s.pc := by
  cases c with
  | wakeup =>
    have hmark : ReadInv { h with mark := 0 } (wakeupMark s).ledger s.pc :=
      { hinv with killed := fun _ => rfl, unmarked := fun _ => rfl }
    simp only [Owes.record, Call.locked, wakeupLocked]
    split
    · exact hmark
    · rw [wakeupStream_ledger]
      exact hmark
  | pulse stepBits dirBits =>
    have hledger : (pulseLocked (pulseByte stepBits dirBits) s).ledger = s.ledger := by
      simp only [pulseLocked, pulseAt]
      split_ifs
      · exact clampLocked_ledger _
      · exact (pulsePlace_ledger _ _ _).trans (clampLocked_ledger _)
      · exact pulsePlace_ledger _ _ _
      · rfl
    simp only [Call.locked]
    rw [hledger]
    exact hinv
  | laser power fire =>
    simp only [Call.locked, laserLocked]
    rw [laserEventLocked_ledger]
    exact hinv
  | jog on =>
    simp only [Call.locked, jogLocked]
    rw [laserEventLocked_ledger]
    exact hinv

/-- What a reset or a latch failure still does after its lock leaves the ledger. -/
theorem protoStep_ledger {s t : State} (hstep : protoStep s = some t) (hswap : .resumeSwap ∉ s.proto) :
    t.ledger = s.ledger := by
  simp only [protoStep] at hstep
  split at hstep <;> cases hstep
  case h_2.refl =>
    exact ledger_kernel (s := s) (by split <;> first | exact Kernel.stop_ring _ | exact ⟨rfl, rfl⟩)
  case h_3.refl => exact ledger_kernel (s := s) (by split <;> exact ⟨rfl, rfl⟩)
  case h_8.refl hp => exact absurd (hp ▸ List.mem_cons_self) hswap
  all_goals rfl

/-- **One step of a run.** The shipper's steps go by the point of the thread, and every other turn
by what it does to the ledger. -/
theorem step_read {h : Owes} {s t : State} {l : Label} (hinv : ReadInv h s.ledger s.pc)
    (hok : readBackRun s l = true) (hswap : .resumeSwap ∉ s.proto) (hstep : step s l = some t) :
    ReadInv (Owes.record s l h) t.ledger t.pc := by
  obtain ⟨-, hturn⟩ := step_eq_some.mp hstep
  have hpc : (∀ e, l ≠ .ship e) → t.pc = s.pc := fun hship => (turn_turned hturn hship).pc
  cases l with
  | ship e =>
    cases hturn
    exact shipStep_read hinv
  | locked c now =>
    rw [hpc (by rintro _ ⟨⟩)]
    cases hturn
    exact locked_read (s := { s with entered := s.entered.erase c }) hinv
  | goIdle reset stepBits dirBits =>
    rw [hpc (by rintro _ ⟨⟩)]
    cases hturn
    exact goIdle_read hinv
  | reset now =>
    cases hturn
    exact reset_read hinv
  | readback expired =>
    rw [hpc (by rintro _ ⟨⟩)]
    cases hturn
    exact readback_read hinv
  | clearPosition ok =>
    rw [hpc (by rintro _ ⟨⟩)]
    cases hturn
    exact clearPosition_read hinv hok
  | proto =>
    rw [hpc (by rintro _ ⟨⟩), protoStep_ledger hturn hswap]
    exact hinv
  | kernel a =>
    obtain ⟨k, hact, rfl⟩ := Option.map_eq_some_iff.mp hturn
    exact act_read hinv hact
  | laserModel p m =>
    cases hturn
    simp only [gfStreamLaserModel, ditherReset]
    split_ifs <;> exact hinv
  | enter c =>
    cases hturn
    simp only [enter]
    split <;> exact hinv
  | suspend readOk => cases hok
  | resume latchOk emptied counted => cases hok
  | foreign k => cases hok
  | _ =>
    cases hturn
    exact hinv

/-- A takeover leaves the counters, and an empty ring when its clear took. -/
theorem takeover_ledger (inherited : Bool) (k : Kernel) :
    (takeover inherited true k).counts = k.counts ∧ (takeover inherited true k).ring = [] := by
  cases inherited with
  | true => exact ⟨(Kernel.stop_ring _).1, (Kernel.stop_ring _).2⟩
  | false => exact ⟨rfl, rfl⟩

/-- The ledger before anything was counted. -/
def Ledger.start (active baseValid : Bool) (baseCounts counts : Steps) (ring : List UInt8) : Ledger where
  active := active
  killed := false
  killStep := 0
  steps := 0
  baseSteps := 0
  baseCounts := baseCounts
  baseValid := baseValid
  zeros := 0
  readback := .none
  unplayed := 0
  clearPending := false
  counts := counts
  ring := ring

theorem start_read {active baseValid : Bool} {baseCounts counts : Steps} {ring : List UInt8}
    (hnull : active = false → baseCounts = 0)
    (hbase : active = true → baseValid = true → counts = baseCounts ∧ ring = []) :
    ReadInv {} (Ledger.start active baseValid baseCounts counts ring) .top where
  killed := by rintro ⟨⟩
  unmarked := fun _ => rfl
  null := fun ha => ⟨hnull ha, rfl⟩
  device := by rintro ⟨⟩
  ledger := fun ha hv => by
    obtain ⟨rfl, rfl⟩ := hbase ha hv
    change counts + stepsIn [] + 0 = counts + (0 - 0)
    rw [stepsIn_nil, sub_self, add_zero]
  clearing := by rintro ⟨⟩
  snapshot := le_refl _
  zeroed := by rintro ⟨⟩
  wait := by rintro ⟨⟩
  done := by rintro ⟨⟩
  once := fun ho => by rcases ho with hw | hd <;> [cases hw; cases hd]
  answers := Nat.zero_le _

/-- The start of the threads: the takeover's base stands for an empty ring. -/
theorem init_read (c : Config) (k : Kernel) (emptied counted : Bool) :
    ReadInv {} (State.init c k emptied counted).ledger .top := by
  cases hactive : c.active with
  | false =>
    have hstart : (State.init c k emptied counted).ledger = .start false true 0 k.counts k.ring := by
      simp [State.init, State.ledger, Gf.init, Ledger.start, hactive]
    rw [hstart]
    exact start_read (fun _ => rfl) (by rintro ⟨⟩)
  | true =>
    cases hempty : takeoverEmpties c.inherited emptied k && counted with
    | false =>
      have hstart : (State.init c k emptied counted).ledger =
          .start true false 0 (State.init c k emptied counted).kernel.counts
            (State.init c k emptied counted).kernel.ring := by
        simp [State.init, State.ledger, Gf.init, Ledger.start, hactive, rebaseAtTakeover, hempty]
      rw [hstart]
      exact start_read (by decide) (by rintro _ ⟨⟩)
    | true =>
      obtain ⟨htook, hcounted⟩ := Bool.and_eq_true_iff.mp hempty
      have hstart : (State.init c k emptied counted).ledger =
          .start true true k.counts (takeover c.inherited true k).counts
            (takeover c.inherited true k).ring := by
        simp [State.init, State.ledger, Gf.init, Ledger.start, hactive, rebaseAtTakeover,
          rebaseLocked, htook, hcounted]
      rw [hstart]
      exact start_read (by rintro ⟨⟩) fun _ _ => takeover_ledger c.inherited k

/-- **The read-back is exact.** In every run whose counter zeros come at a drained ring: an
answer of 1 is, on each axis and mod 2^32, the kill byte's step, the dropped backlog's steps
and the steps of the device bytes that the clear removed. It is the first answer of 1 since
the reset, and the ledger of that reset was not spoiled. -/
theorem readback_exact {c : Config} {k : Kernel} {emptied counted expired : Bool} {s : State}
    {h : Owes} {unplayed : Steps}
    (hrun : Runs.Reach (Runs.observe step Owes.record) (fun x l => readBackRun x.1 l = true)
      (State.init c k emptied counted, {}) (s, h))
    (hanswer : readbackAnswer expired s.gf = some (1, unplayed)) :
    unplayed = stepOf h.kill.val + stepSum h.dropped + stepsIn h.removed ∧
      h.answers = 0 ∧ h.spoiled = false := by
  have hinv : .resumeSwap ∉ s.proto ∧ ReadInv h s.ledger s.pc := by
    refine Runs.Reach.invariant_observe (fun s l => readBackRun s l = true)
      (P := fun s h => .resumeSwap ∉ s.proto ∧ ReadInv h s.ledger s.pc) hrun
      ⟨List.not_mem_nil, init_read c k emptied counted⟩ ?_
    intro s h l t hs hok hstep
    refine ⟨turn_swap (step_eq_some.mp hstep).2 ?_ hs.1, step_read hs.2 hok hs.1 hstep⟩
    rintro a b c rfl
    cases hok
  have hdone : s.gf.readback = .done ∧ unplayed = s.gf.unplayed := by
    simp only [readbackAnswer] at hanswer
    split at hanswer
    case h_1 => split at hanswer <;> cases hanswer
    case h_2 hd =>
      cases hanswer
      exact ⟨hd, rfl⟩
    all_goals cases hanswer
  obtain ⟨howed, -, hspoiled⟩ := hinv.2.done hdone.1
  exact ⟨hdone.2.trans howed, hinv.2.once (.inr hdone.1), hspoiled⟩

/-- A stream plays its preload and is reset: with the step of its first chunk in the kernel's
ring, one more in the backlog and one that the core has counted and never output. -/
def resetMidway : List Label :=
  oneStep ++ [Label.ship {}, .ship {}, .ship { now := 0, later := 1000000 }] ++ List.replicate 33 (Label.ship {}) ++
    List.replicate 5 (Label.kernel .play) ++
    [Label.enter (.pulse 0x01 0x00), .locked (.pulse 0x01 0x00) 0, .goIdle true 0x01 0x00, .reset 0, .proto,
      .proto, .kernel .rampEnd] ++ List.replicate 6 (Label.ship {})

/-- The theorem at that reset: three steps in X. -/
theorem readback_exact_midway :
    ∃ (s : State) (h : Owes), readbackAnswer false s.gf = some (1, s.gf.unplayed) ∧ s.gf.unplayed 0 = 3 ∧
      s.gf.unplayed = stepOf h.kill.val + stepSum h.dropped + stepsIn h.removed ∧
      h.answers = 0 ∧ h.spoiled = false := by
  have hrun : ∃ x : State × Owes,
      Runs.Reach (Runs.observe step Owes.record) (fun x l => readBackRun x.1 l = true)
        (State.init (slowConfig true) idleKernel true true, {}) x ∧
      (readbackAnswer false x.1.gf = some (1, x.1.gf.unplayed) ∧ x.1.gf.unplayed 0 = 3) :=
    Runs.exists_reach_of_exec resetMidway (by decide +kernel)
  obtain ⟨⟨s, h⟩, hreach, hanswer, hthree⟩ := hrun
  exact ⟨s, h, hanswer, hthree, readback_exact hreach hanswer⟩

end Glowforge.Stream
