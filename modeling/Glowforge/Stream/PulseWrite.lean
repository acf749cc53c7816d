import Glowforge.Lib.Simulation
import Glowforge.Stream.Machine

/-!
# Glowforge — the write into the pulse device, in its own loop (`pulse_write`)

The engine's model hands a chunk to the device byte by byte, and lets the write fail anywhere. The
source hands it over in a loop around `write(2)`, which may take a part, be interrupted, or find the
ring full; then it backs off, a bounded number of times, and reads the kernel's state now and then.

* **`pulseTurn`** — one turn of the loop, by what `write` answers.
* **`shippingStep`** — the engine with this loop in the place of its own write.
* **`WriteTurn`**, **`pulseTurn_turns`** — what a turn can be.
* **`shipping_simulates`** — each turn is some steps of the engine's write, or none.
* **`shipping_refines`** — hence each run with the loop is one of the engine's, and the loop is bounded.
-/

namespace Glowforge.Stream

open Runs (Reach Simulates observe)

/-! ## The loop

One turn is one `write(2)` and what is made of its answer. The counters of the back-off are locals
of the loop. -/

/-- What one `write` answers. -/
inductive Reply where
  -- This many bytes are the device's.
  | took (w : Nat)
  -- Zero bytes, which is an error here.
  | zero
  | eintr
  -- `ENOMEM` or `EAGAIN`: the ring is full.
  | full
  | error
deriving DecidableEq

/-- `PULSE_WRITE_BACKOFF_MAX` and `PULSE_WRITE_STATE_EVERY`. -/
def pulseWriteBackoffMax : Nat := 250
def pulseWriteStateEvery : Nat := 10

/-- The kernel reads as one that will take no more. -/
def readsDead (e : Env) (s : State) : Bool :=
  readState e s == some .fault || readState e s == some .underrun

/-- The device has room for that many bytes. -/
def canTakeAll (w : Nat) (s : State) : Bool := s.gf.fdOpen && s.kernel.ring.length + w ≤ s.kernel.cap

/-- The write has failed. -/
def writeFailed (p : Pass) (c : Chunk) (s : State) : State := { s with pc := .wrote p c false }

/-- The bytes that `write` took are in the ring. -/
def writeTook (p : Pass) (c : Chunk) (w : Nat) (rest : List UInt8) (s : State) : State :=
  { s with kernel := { s.kernel with ring := s.kernel.ring ++ rest.take w }, pc := .writing p c (rest.drop w) }

/-- One turn of the loop, with bytes left: the state, and the back-offs so far. -/
def pulseTurn (e : Env) (p : Pass) (c : Chunk) (rest : List UInt8) (r : Reply) (x : State × Nat) :
    Option (State × Nat) :=
  match r with
  | .took w =>
    if 0 < w && w ≤ rest.length && canTakeAll w x.1 then some (writeTook p c w rest x.1, x.2) else none
  | .eintr => some x
  | .full =>
    if x.2 + 1 ≤ pulseWriteBackoffMax then
      if (x.2 + 1) % pulseWriteStateEvery == 0 && readsDead e x.1 then some (writeFailed p c x.1, 0)
      else some (x.1, x.2 + 1)
    else some (writeFailed p c x.1, 0)
  | .zero => some (writeFailed p c x.1, 0)
  | .error => some (writeFailed p c x.1, 0)

/-- The shipper is in the loop, with bytes left. -/
def ShipPc.pushing : ShipPc → Bool
  | .writing _ _ (_ :: _) => true
  | _ => false

inductive ShippingLabel where
  -- A label of the engine's that is not the write.
  | other (l : Label)
  -- A turn of the loop.
  | turn (e : Env) (r : Reply)

/-- The engine's own write. -/
def Label.pushes (s : State) : Label → Bool
  | .ship _ => s.pc.pushing
  | _ => false

/-- The back-offs are counted from 0 in every write. -/
def counted (x : State × Nat) : State × Nat := (x.1, if x.1.pc.pushing then x.2 else 0)

/-- **The engine with the loop** in the place of its own write, and the loop's back-offs. -/
def shippingStep (x : State × Nat) : ShippingLabel → Option (State × Nat)
  | .other l => if l.pushes x.1 then none else (step x.1 l).map fun t => counted (t, x.2)
  | .turn e r =>
    match x.1.pc with
    | .writing p c (b :: rest) => (pulseTurn e p c (b :: rest) r x).map counted
    | _ => none

/-- What a turn can be. -/
inductive WriteTurn (e : Env) (p : Pass) (c : Chunk) (rest : List UInt8) (x : State × Nat) :
    Reply → State × Nat → Prop
  | took {w : Nat} (htake : canTakeAll w x.1 = true) (hw : w ≤ rest.length) :
      WriteTurn e p c rest x (.took w) (writeTook p c w rest x.1, x.2)
  | waits : WriteTurn e p c rest x .eintr x
  | backsOff (hmax : x.2 + 1 ≤ pulseWriteBackoffMax)
      (hlive : (x.2 + 1) % pulseWriteStateEvery = 0 → readsDead e x.1 = false) :
      WriteTurn e p c rest x .full (x.1, x.2 + 1)
  | fails {r : Reply} : WriteTurn e p c rest x r (writeFailed p c x.1, 0)

theorem pulseTurn_turns {e : Env} {p : Pass} {c : Chunk} {rest : List UInt8} {r : Reply}
    {x y : State × Nat} (h : pulseTurn e p c rest r x = some y) : WriteTurn e p c rest x r y := by
  cases r with
  | took w =>
    rw [pulseTurn] at h
    split at h <;> cases h
    next htake =>
      simp only [Bool.and_eq_true, decide_eq_true_eq] at htake
      exact .took htake.2 htake.1.2
  | eintr =>
    cases h
    exact .waits
  | full =>
    rw [pulseTurn] at h
    split_ifs at h with hmax hdead <;> cases h
    · exact .fails
    · refine .backsOff hmax fun hevery => ?_
      rw [beq_iff_eq.2 hevery, Bool.true_and, Bool.not_eq_true] at hdead
      exact hdead
    · exact .fails
  | zero =>
    cases h
    exact .fails
  | error =>
    cases h
    exact .fails

/-! ## It refines the engine

A turn hands over the bytes that the device took, which the engine's model does one by one, or ends
the write as the model may. -/

variable {s t : State} {n k : Nat}

/-- A part that is taken at once is taken byte by byte. -/
theorem reach_writeTook {p : Pass} {c : Chunk} {rest : List UInt8} {w : Nat}
    (hpc : s.pc = .writing p c rest) (hw : w ≤ rest.length) (htake : canTakeAll w s = true) :
    Reach step (fun _ _ => True) s (writeTook p c w rest s) := by
  induction w generalizing s rest with
  | zero =>
    have hsame : writeTook p c 0 rest s = s := by
      rw [writeTook, List.take_zero, List.append_nil, List.drop_zero, ← hpc]
    rw [hsame]
    exact .refl
  | succ w ih =>
    cases rest with
    | nil => exact absurd hw (Nat.not_succ_le_zero w)
    | cons b rest =>
      obtain ⟨hopen, hroom⟩ := Bool.and_eq_true_iff.1 htake
      have hroom := of_decide_eq_true hroom
      have hone : step s (.ship { ok := true }) =
          some { s with kernel := s.kernel.take b, pc := .writing p c rest } := by
        have hcan : canTake s = true := by
          rw [canTake, hopen, Bool.true_and, decide_eq_true_eq]
          omega
        rw [step_eq_some]
        refine ⟨by simp [Label.enabled, Label.needsLock, Label.needsLatch, Label.beginsCall], ?_⟩
        simp only [turn, shipStep, hpc, shipWrite, hcan, Bool.and_self, if_true]
      have hrest : canTakeAll w { s with kernel := s.kernel.take b, pc := .writing p c rest } = true := by
        rw [canTakeAll, hopen, Bool.true_and, decide_eq_true_eq, Kernel.take]
        simp only [List.length_append, List.length_singleton]
        omega
      have hmore := ih (s := { s with kernel := s.kernel.take b, pc := .writing p c rest }) rfl
        (Nat.le_of_succ_le_succ hw) hrest
      refine (Reach.step .refl trivial hone).trans ?_
      have hjoin : writeTook p c w rest { s with kernel := s.kernel.take b, pc := .writing p c rest } =
          writeTook p c (w + 1) (b :: rest) s := by
        simp only [writeTook, Kernel.take, List.append_assoc, List.singleton_append, List.take_succ_cons,
          List.drop_succ_cons]
      rw [← hjoin]
      exact hmore

/-- A write that fails is one that fails. -/
theorem reach_writeFailed {p : Pass} {c : Chunk} {b : UInt8} {rest : List UInt8}
    (hpc : s.pc = .writing p c (b :: rest)) :
    Reach step (fun _ _ => True) s (writeFailed p c s) := by
  have hfail : step s (.ship { ok := false }) = some (writeFailed p c s) := by
    rw [step_eq_some]
    refine ⟨by simp [Label.enabled, Label.needsLock, Label.needsLatch, Label.beginsCall], ?_⟩
    simp only [turn, shipStep, hpc, shipWrite, Bool.false_and, Bool.false_eq_true, if_false]
    rfl
  exact .step .refl trivial hfail

/-- **The loop refines the write** of the engine: each turn is some of its bytes, or its failure, or
nothing. -/
theorem shipping_simulates :
    Simulates shippingStep (fun _ _ => True) step (fun _ _ => True) fun (x : State × Nat) s => x.1 = s := by
  intro x l y s hx _ hstep
  subst hx
  obtain ⟨s, n⟩ := x
  cases l with
  | other l =>
    rw [shippingStep] at hstep
    split at hstep
    · cases hstep
    · obtain ⟨t, ht, rfl⟩ := Option.map_eq_some_iff.1 hstep
      exact ⟨t, .step .refl trivial ht, rfl⟩
  | turn e r =>
    rw [shippingStep] at hstep
    split at hstep
    · next p c b rest hpc =>
      obtain ⟨z, hturn, rfl⟩ := Option.map_eq_some_iff.1 hstep
      have hfails := reach_writeFailed hpc
      cases pulseTurn_turns hturn with
      | took htake hw => exact ⟨_, reach_writeTook hpc hw htake, rfl⟩
      | waits => exact ⟨s, .refl, rfl⟩
      | backsOff => exact ⟨s, .refl, rfl⟩
      | fails => exact ⟨_, hfails, rfl⟩
    · cases hstep

/-! ## The bounds of the loop

The back-off is counted up to a maximum, and every few turns a kernel that reads as faulted or
underrun ends it early. -/

/-- The back-offs in a row against a kernel that reads dead. -/
def deadBackoffs (x : State × Nat) (l : ShippingLabel) (h : Nat) : Nat :=
  if (shippingStep x l).any fun y => y.1.pc.pushing then
    match l with
    | .turn e .full => if readsDead e x.1 then h + 1 else 0
    | _ => h
  else 0

/-- The loop backs off so often at most, and a dead kernel ends it at its next reading. -/
structure Bounded (x : State × Nat) (h : Nat) : Prop where
  backoffs : x.2 ≤ pulseWriteBackoffMax
  dead : h ≤ x.2 % pulseWriteStateEvery
  between : x.1.pc.pushing = false → x.2 = 0

theorem bounded_counted {y : State × Nat} {h : Nat}
    (hy : y.1.pc.pushing = true → y.2 ≤ pulseWriteBackoffMax ∧ h ≤ y.2 % pulseWriteStateEvery) :
    Bounded (counted y) (if y.1.pc.pushing then h else 0) := by
  cases hpushing : y.1.pc.pushing with
  | true =>
    refine ⟨?_, ?_, fun hnot => ?_⟩
    · rw [counted, hpushing]
      exact (hy hpushing).1
    · rw [counted, hpushing]
      exact (hy hpushing).2
    · exact absurd (hpushing.symm.trans hnot) (by decide)
  | false =>
    have hzero : counted y = (y.1, 0) := by
      rw [counted, hpushing]
      rfl
    rw [hzero]
    exact ⟨Nat.zero_le _, Nat.zero_le _, fun _ => rfl⟩

theorem Bounded.step {x y : State × Nat} {h : Nat} {l : ShippingLabel} (hb : Bounded x h)
    (hstep : shippingStep x l = some y) : Bounded y (deadBackoffs x l h) := by
  obtain ⟨hmax, hdead, -⟩ := hb
  unfold deadBackoffs
  rw [hstep, Option.any_some]
  cases l with
  | other l =>
    rw [shippingStep] at hstep
    split at hstep
    · cases hstep
    · obtain ⟨t, -, rfl⟩ := Option.map_eq_some_iff.1 hstep
      exact bounded_counted fun _ => ⟨hmax, hdead⟩
  | turn e r =>
    rw [shippingStep] at hstep
    split at hstep
    · next p c b rest hpc =>
      obtain ⟨z, hturn, rfl⟩ := Option.map_eq_some_iff.1 hstep
      cases pulseTurn_turns hturn with
      | took htake hw => exact bounded_counted fun _ => ⟨hmax, hdead⟩
      | waits => exact bounded_counted fun _ => ⟨hmax, hdead⟩
      | backsOff hroom hlive =>
        refine bounded_counted (h := if readsDead e x.1 then h + 1 else 0) fun _ => ⟨hroom, ?_⟩
        have hevery : pulseWriteStateEvery = 10 := rfl
        split
        · next hreads =>
          have hnot : ¬(x.2 + 1) % pulseWriteStateEvery = 0 := fun h =>
            absurd (hreads.symm.trans (hlive h)) (by decide)
          rw [hevery] at hdead hnot ⊢
          omega
        · exact Nat.zero_le _
      | fails =>
        refine bounded_counted fun hpushing => ?_
        cases hpushing
    · cases hstep

/-- **The engine with the loop is the engine**: a state that it reaches is one that the engine reaches,
so that all that is proved of the engine's runs holds with the loop in it. And the loop is bounded: no
write backs off more than 250 times, and none more than nine times in a row against a kernel that reads
as faulted or in an underrun. -/
theorem shipping_refines
    (hrun : Reach (observe shippingStep deadBackoffs) (fun _ _ => True) ((s, 0), 0) ((t, n), k)) :
    Reach step (fun _ _ => True) s t ∧ n ≤ pulseWriteBackoffMax ∧ k < pulseWriteStateEvery := by
  have hforget : Reach shippingStep (fun _ _ => True) (s, 0) (t, n) := hrun.forget fun _ _ _ => trivial
  obtain ⟨v, hv, rfl⟩ := shipping_simulates.reach rfl hforget
  have hbounded : Bounded (t, n) k :=
    Reach.invariant_observe (fun _ _ => True) hrun ⟨Nat.zero_le _, Nat.zero_le _, fun _ => rfl⟩
      fun _ _ _ _ h _ hstep => h.step hstep
  exact ⟨hv, hbounded.backoffs, lt_of_le_of_lt hbounded.dead (Nat.mod_lt _ (by decide))⟩

/-- A shipper at the loop, with two bytes to hand over. -/
def twoLeft : State :=
  { State.init (slowConfig true) idleKernel true true with
    pc := .writing ⟨false, 0, false⟩ ⟨[1, 2], 0, true⟩ [1, 2] }

theorem shipping_refines_two : ∃ t, Reach step (fun _ _ => True) twoLeft t ∧ t.kernel.ring = [1, 2] := by
  have hrun : ∃ x, Reach (observe shippingStep deadBackoffs) (fun _ _ => True) ((twoLeft, 0), 0) x ∧
      x.1.1.kernel.ring = [1, 2] :=
    Runs.exists_reach_of_exec [.turn {} .full, .turn {} (.took 1), .turn {} .eintr, .turn {} (.took 1)]
      (by decide +kernel)
  obtain ⟨⟨⟨t, n⟩, k⟩, hrun, hring⟩ := hrun
  exact ⟨t, (shipping_refines hrun).1, hring⟩

end Glowforge.Stream
