import Mathlib.Data.List.Basic
import Mathlib.Data.List.Pairwise

/-!
# Transitions ahead of a cursor

A writer queues transitions, each at an index from which its value is in force; a reader with
a cursor takes them off the front as it reaches them. The reader stops at the first transition
that lies ahead, so what it has in force depends on the order of the queue.

* **`inForce`** — the value that a reader with value `cur` has at index `i`.
* **`inForce_dropWhile`** — taking transitions off early changes nothing later.
* **`inForce_concat`** — a transition behind a queue that lies before it takes force at its
  own index.
* **`final`** — the value once the whole queue has been taken.
* **`InOrder`**, **`Puts`** — a queue in the order of its indices, and one transition more in it.
* **`governing`** — of a log of transitions in the order they were made, the last one made at
  or before index `i`.
-/

namespace Timeline

variable {ε β : Type} (idx : ε → Nat) (val : ε → β)

/-- The value at index `i` of a reader that has `cur` in force and a queue ahead. -/
def inForce : List ε → β → Nat → β
  | [], cur, _ => cur
  | e :: q, cur, i => if idx e ≤ i then inForce q (val e) i else cur

/-- The value once the whole queue has been taken. -/
def final : List ε → β → β
  | [], cur => cur
  | e :: q, _ => final q (val e)

/-- The last of the log's entries that lies at or before `i`. -/
def governing (log : List ε) (i : Nat) : Option ε := (log.filter (idx · ≤ i)).getLast?

variable {idx val} {q : List ε} {cur : β} {i j : Nat}

/-- A reader that has passed index `j` reads on as before. -/
theorem inForce_dropWhile (hij : j ≤ i) :
    inForce idx val (q.dropWhile (idx · ≤ j)) (inForce idx val q cur j) i =
      inForce idx val q cur i := by
  induction q generalizing cur with
  | nil => rfl
  | cons e q ih =>
    by_cases he : idx e ≤ j
    · have hi : idx e ≤ i := Nat.le_trans he hij
      simp only [List.dropWhile_cons, he, decide_true, if_true, inForce, hi]
      exact ih
    · simp only [List.dropWhile_cons, he, decide_false, Bool.false_eq_true, if_false, inForce]

theorem final_dropWhile :
    final val (q.dropWhile (idx · ≤ j)) (inForce idx val q cur j) = final val q cur := by
  induction q generalizing cur with
  | nil => rfl
  | cons e q ih =>
    by_cases he : idx e ≤ j
    · simp only [List.dropWhile_cons, he, decide_true, if_true, inForce, final]
      exact ih
    · simp only [List.dropWhile_cons, he, decide_false, Bool.false_eq_true, if_false, inForce, final]

/-- Past every transition of the queue the final value is in force. -/
theorem inForce_eq_final (h : ∀ e ∈ q, idx e ≤ i) :
    inForce idx val q cur i = final val q cur := by
  induction q generalizing cur with
  | nil => rfl
  | cons e q ih =>
    simp only [inForce, final, h e List.mem_cons_self, if_true]
    exact ih fun d hd => h d (List.mem_cons_of_mem _ hd)

theorem final_concat (e : ε) : final val (q ++ [e]) cur = val e := by
  induction q generalizing cur with
  | nil => rfl
  | cons d q ih => exact ih

/-- A transition ahead of `i` at the end of the queue is not read yet. -/
theorem inForce_concat_of_lt {e : ε} (h : i < idx e) :
    inForce idx val (q ++ [e]) cur i = inForce idx val q cur i := by
  induction q generalizing cur with
  | nil => simp [inForce, Nat.not_le.mpr h]
  | cons d q ih =>
    simp only [List.cons_append, inForce]
    split
    · exact ih
    · rfl

/-- A transition behind one that lies ahead of `i` is not read yet either. -/
theorem inForce_concat_of_ahead {e : ε} (h : ∃ d ∈ q, i < idx d) :
    inForce idx val (q ++ [e]) cur i = inForce idx val q cur i := by
  induction q generalizing cur with
  | nil =>
    obtain ⟨d, hd, -⟩ := h
    cases hd
  | cons d q ih =>
    simp only [List.cons_append, inForce]
    split
    · next hd =>
      obtain ⟨c, hc, hlt⟩ := h
      rcases List.mem_cons.mp hc with rfl | hmem
      · exact absurd hd (Nat.not_le.mpr hlt)
      · exact ih ⟨c, hmem, hlt⟩
    · rfl

/-- **A transition behind a queue that lies before it** takes force at its own index. -/
theorem inForce_concat {e : ε} (h : ∀ d ∈ q, idx d ≤ idx e) :
    inForce idx val (q ++ [e]) cur i = if idx e ≤ i then val e else inForce idx val q cur i := by
  split
  · next hi =>
    have hall : ∀ d ∈ q ++ [e], idx d ≤ i := by
      intro d hd
      rcases List.mem_append.mp hd with hq | he
      · exact Nat.le_trans (h d hq) hi
      · rwa [List.mem_singleton.mp he]
    rw [inForce_eq_final hall, final_concat]
  · next hi => exact inForce_concat_of_lt (Nat.lt_of_not_le hi)

/-- What is in force is what the reader began with, or comes from a transition that it has passed. -/
theorem inForce_cases : inForce idx val q cur i = cur ∨ ∃ e ∈ q, idx e ≤ i ∧ inForce idx val q cur i = val e := by
  induction q generalizing cur with
  | nil => exact .inl rfl
  | cons d q ih =>
    by_cases hd : idx d ≤ i
    · rw [inForce, if_pos hd]
      right
      rcases @ih (val d) with hcur | ⟨e, he, hidx, hval⟩
      · exact ⟨d, List.mem_cons_self, hd, hcur⟩
      · exact ⟨e, List.mem_cons_of_mem d he, hidx, hval⟩
    · rw [inForce, if_neg hd]
      exact .inl rfl

/-- A reader that passes a first transition forgets what it began with. -/
theorem inForce_cons_passed {e : ε} {cur' : β} (h : idx e ≤ i) :
    inForce idx val (e :: q) cur i = inForce idx val (e :: q) cur' i := by
  rw [inForce, inForce, if_pos h, if_pos h]

/-- Until a first transition the reader has what it began with. -/
theorem inForce_cons_ahead {e : ε} (h : i < idx e) : inForce idx val (e :: q) cur i = cur := by
  rw [inForce, if_neg (Nat.not_le.mpr h)]

/-! ## Queues in order

The reader stops at the first transition that lies ahead, so in a queue in order what it has taken
is what lies behind it. -/

/-- The transitions lie in the order of their indices. -/
def InOrder (idx : ε → Nat) (q : List ε) : Prop := q.Pairwise fun d e => idx d ≤ idx e

instance [DecidableEq ε] : DecidablePred (InOrder idx (ε := ε)) := fun q =>
  inferInstanceAs (Decidable (q.Pairwise _))

/-- The newest transition of a queue in order lies behind every other. -/
theorem InOrder.le_last (h : InOrder idx q) {e : ε} (hlast : q.getLast? = some e) : ∀ d ∈ q, idx d ≤ idx e := by
  obtain ⟨r, rfl⟩ := List.getLast?_eq_some_iff.mp hlast
  intro d hd
  rcases List.mem_append.mp hd with hr | he
  · exact (List.pairwise_append.mp h).2.2 d hr e (List.mem_singleton.mpr rfl)
  · exact Nat.le_of_eq (congrArg idx (List.mem_singleton.mp he))

theorem InOrder.concat (h : InOrder idx q) {e : ε} (hle : ∀ d ∈ q, idx d ≤ idx e) : InOrder idx (q ++ [e]) := by
  refine List.pairwise_append.mpr ⟨h, List.pairwise_singleton _ _, fun d hd c hc => ?_⟩
  rw [List.mem_singleton.mp hc]
  exact hle d hd

theorem InOrder.sublist {r : List ε} (h : InOrder idx q) (hsub : r.Sublist q) : InOrder idx r :=
  List.Pairwise.sublist hsub h

/-- What a reader leaves of a queue in order lies ahead of it. -/
theorem InOrder.ahead (h : InOrder idx q) : ∀ e ∈ q.dropWhile (idx · ≤ j), j < idx e := by
  induction q with
  | nil => rintro _ ⟨⟩
  | cons d q ih =>
    by_cases hd : idx d ≤ j
    · simp only [List.dropWhile_cons, hd, decide_true, if_true]
      exact ih (List.pairwise_cons.mp h).2
    · simp only [List.dropWhile_cons, hd, decide_false, Bool.false_eq_true, if_false]
      intro e he
      rcases List.mem_cons.mp he with rfl | hq
      · exact Nat.lt_of_not_le hd
      · exact Nat.lt_of_lt_of_le (Nat.lt_of_not_le hd) ((List.pairwise_cons.mp h).1 e hq)

/-- A transition that lies ahead of a reader is left. -/
theorem mem_dropWhile_of_lt {e : ε} (he : e ∈ q) (hlt : j < idx e) : e ∈ q.dropWhile (idx · ≤ j) := by
  induction q with
  | nil => cases he
  | cons d q ih =>
    by_cases hd : idx d ≤ j
    · simp only [List.dropWhile_cons, hd, decide_true, if_true]
      rcases List.mem_cons.mp he with rfl | hq
      · omega
      · exact ih hq
    · simpa only [List.dropWhile_cons, hd, decide_false, Bool.false_eq_true, if_false] using he

/-- Taken off in two goes. -/
theorem dropWhile_dropWhile (hij : i ≤ j) :
    (q.dropWhile (idx · ≤ i)).dropWhile (idx · ≤ j) = q.dropWhile (idx · ≤ j) := by
  induction q with
  | nil => rfl
  | cons e q ih =>
    by_cases he : idx e ≤ i
    · have hj : idx e ≤ j := Nat.le_trans he hij
      simp only [List.dropWhile_cons, he, hj, decide_true, if_true]
      exact ih
    · rw [List.dropWhile_cons_of_neg (by simpa using he)]

/-! ## A transition more

A writer appends, or replaces the newest; in either case the earlier values stay as they were. -/

/-- The queue `r` is `q` with `e` newest: appended, or written over a newest one of its index. -/
inductive Puts (idx : ε → Nat) (e : ε) : List ε → List ε → Prop where
  | append (q : List ε) : Puts idx e q (q ++ [e])
  | replace (q : List ε) {d : ε} (hidx : idx d = idx e) : Puts idx e (q ++ [d]) (q ++ [e])

namespace Puts

variable {e : ε} {r : List ε}

/-- **The new transition** is in force from its own index, where no other lies past it. -/
theorem inForce (h : Puts idx e q r) (hle : ∀ d ∈ q, idx d ≤ idx e) :
    inForce idx val r cur i = if idx e ≤ i then val e else Timeline.inForce idx val q cur i := by
  cases h with
  | append => exact inForce_concat hle
  | replace q hidx =>
    rw [inForce_concat fun d hd => hle d (List.mem_append_left _ hd)]
    split
    · rfl
    · next hlt => exact (inForce_concat_of_lt (by omega)).symm

theorem inOrder (h : Puts idx e q r) (hq : InOrder idx q) (hle : ∀ d ∈ q, idx d ≤ idx e) : InOrder idx r := by
  cases h with
  | append => exact hq.concat hle
  | replace q hidx =>
    exact (hq.sublist (List.sublist_append_left q _)).concat fun d hd => hle d (List.mem_append_left _ hd)

theorem mem (h : Puts idx e q r) : e ∈ r := by
  cases h <;> exact List.mem_append_right _ (List.mem_singleton.mpr rfl)

theorem old_or_new (h : Puts idx e q r) {c : ε} (hc : c ∈ r) : c ∈ q ∨ c = e := by
  cases h with
  | append => exact (List.mem_append.mp hc).imp_right List.mem_singleton.mp
  | replace q hidx =>
    exact (List.mem_append.mp hc).imp (List.mem_append_left _) List.mem_singleton.mp

/-- Every index of the queue stays. -/
theorem keeps (h : Puts idx e q r) {d : ε} (hd : d ∈ q) : ∃ c ∈ r, idx c = idx d := by
  cases h with
  | append => exact ⟨d, List.mem_append_left _ hd, rfl⟩
  | replace q hidx =>
    rcases List.mem_append.mp hd with hold | hnew
    · exact ⟨d, List.mem_append_left _ hold, rfl⟩
    · rw [List.mem_singleton.mp hnew]
      exact ⟨e, List.mem_append_right _ (List.mem_singleton.mpr rfl), hidx.symm⟩

end Puts

/-- A log entry made at `e` governs from its own index on. -/
theorem governing_concat (log : List ε) (e : ε) :
    governing idx (log ++ [e]) i = if idx e ≤ i then some e else governing idx log i := by
  unfold governing
  split
  · next h => simp [List.filter_append, h]
  · next h => simp [List.filter_append, h]

theorem mem_of_governing {log : List ε} {e : ε} (h : governing idx log i = some e) : e ∈ log :=
  List.mem_of_mem_filter (List.mem_of_getLast? h)

end Timeline
