import Mathlib.Data.List.Basic
import Mathlib.Data.List.DropRight
import Mathlib.Logic.Function.Basic
import Mathlib.Tactic.SplitIfs

/-!
# A ring of slots as a queue

A ring of `n` slots holds a queue sparsely: stream index `i` lives in slot `i % n`, a slot
without an entry holds `0`, and the reader at `lo` zeroes each slot it passes. What the queue
holds is then what one lap from the reader's index meets.

* **`lap`** — the entries of one lap from the reader's index on, in order.
* **`Clean`** — every slot of the lap from `hi` on is empty.
* **`lap_pop`**, **`lap_put`** — a read takes the entry at `lo` off the front, and a write at
  or behind `hi` appends.
* **`lap_eq_window`** — in a clean ring the lap has no more than the slots `[lo, hi)`.

A ring that keeps one slot free needs no empty slots: two cursors `tail` and `head` bound what
it holds.

* **`between`** — the slots from `tail` up to `head`.
* **`between_put`**, **`between_take`** — a write at `head` appends, and a reader that passes
  `w` slots takes them off the front.
* **`between_retreat`** — a writer that steps back over what it wrote takes it off the end.
-/

namespace Slots

open Function (update)

variable {α : Type} [Zero α] [DecidableEq α] {n lo hi : Nat} {ring : Nat → α}

/-- The `k` slots from stream index `lo` on. -/
def slots (n : Nat) (ring : Nat → α) (lo k : Nat) : List α :=
  (List.range k).map fun i => ring ((lo + i) % n)

/-- The entries among some slots. -/
def entries (l : List α) : List α := l.filter (· ≠ 0)

/-- The entries that one lap from `lo` on meets. -/
def lap (n : Nat) (ring : Nat → α) (lo : Nat) : List α := entries (slots n ring lo n)

/-- The lap's slots from `hi` on are empty. -/
def Clean (n : Nat) (ring : Nat → α) (lo hi : Nat) : Prop :=
  ∀ i, lo ≤ i → hi ≤ i → i < lo + n → ring (i % n) = 0

@[simp] theorem entries_append (l m : List α) : entries (l ++ m) = entries l ++ entries m := by
  simp [entries]

theorem entries_eq_nil {l : List α} : entries l = [] ↔ ∀ a ∈ l, a = 0 := by
  simp [entries]

omit [Zero α] [DecidableEq α] in
theorem slots_add (k m : Nat) :
    slots n ring lo (k + m) = slots n ring lo k ++ slots n ring (lo + k) m := by
  simp [slots, List.range_add, Nat.add_assoc]

omit [Zero α] [DecidableEq α] in
/-- Slots read the same in two rings that agree on them. -/
theorem slots_congr {ring' : Nat → α} {k : Nat}
    (h : ∀ i, lo ≤ i → i < lo + k → ring (i % n) = ring' (i % n)) :
    slots n ring lo k = slots n ring' lo k := by
  refine List.map_congr_left fun i hi => ?_
  rw [List.mem_range] at hi
  exact h (lo + i) (by omega) (by omega)

/-- Slots that are all empty have no entry. -/
theorem entries_slots_eq_nil {k : Nat} :
    entries (slots n ring lo k) = [] ↔ ∀ i, lo ≤ i → i < lo + k → ring (i % n) = 0 := by
  rw [entries_eq_nil]
  simp only [slots, List.mem_map, List.mem_range, forall_exists_index, and_imp,
    forall_apply_eq_imp_iff₂]
  constructor
  · intro h i hlo hlt
    have hi := h (i - lo) (by omega)
    rwa [show lo + (i - lo) = i from by omega] at hi
  · intro h i hlt
    exact h (lo + i) (by omega) (by omega)

omit [Zero α] [DecidableEq α] in
/-- Two indices of one lap never share a slot. -/
theorem mod_ne {i j : Nat} (hlt : i < j) (hlap : j < i + n) : j % n ≠ i % n := by
  intro h
  have hmod : (j - i) % n = 0 := Nat.sub_mod_eq_zero_of_mod_eq h
  rw [Nat.mod_eq_of_lt (by omega)] at hmod
  omega

/-! ## The reader

Reading an entry zeroes its slot and takes the front off the lap. -/

/-- **A read takes the front.** The slot at `lo` is read and zeroed, and the reader moves on. -/
theorem lap_pop (hn : 0 < n) :
    lap n ring lo = entries [ring (lo % n)] ++ lap n (update ring (lo % n) 0) (lo + 1) := by
  obtain ⟨m, rfl⟩ : ∃ m, n = m + 1 := ⟨n - 1, by omega⟩
  -- the lap from `lo` is the front and `m` further slots; the lap from `lo + 1` is those and
  -- the front's slot again, which is empty now
  have hfront : slots (m + 1) ring lo (m + 1) =
      [ring (lo % (m + 1))] ++ slots (m + 1) ring (lo + 1) m := by
    rw [show slots (m + 1) ring lo (m + 1) = slots (m + 1) ring lo (1 + m) from by
      rw [Nat.add_comm], slots_add]
    rfl
  have hrest : slots (m + 1) (update ring (lo % (m + 1)) 0) (lo + 1) m =
      slots (m + 1) ring (lo + 1) m := by
    refine slots_congr fun i h1 h2 => ?_
    rw [Function.update_of_ne (mod_ne (by omega) (by omega))]
  have hlast : entries (slots (m + 1) (update ring (lo % (m + 1)) 0) (lo + 1 + m) 1) = [] := by
    rw [entries_slots_eq_nil]
    intro i h1 h2
    rw [show i = lo + (m + 1) from by omega, Nat.add_mod_right, Function.update_self]
  rw [lap, lap, hfront, slots_add, entries_append, entries_append, hrest, hlast, List.append_nil]

omit [DecidableEq α] in
theorem Clean.pop (h : Clean n ring lo hi) : Clean n (update ring (lo % n) 0) (lo + 1) hi := by
  intro i h1 h2 h3
  by_cases hslot : i % n = lo % n
  · rw [hslot, Function.update_self]
  · rw [Function.update_of_ne hslot]
    refine h i (by omega) h2 ?_
    rcases Nat.lt_or_eq_of_le (show i ≤ lo + n from by omega) with hlt | rfl
    · exact hlt
    · exact absurd (Nat.add_mod_right lo n) hslot

/-! ## The writer

A write at or behind `hi` puts one entry at the end, since the slots between are empty. -/

/-- **A write appends.** An entry put at or behind `hi`, within the lap, is the queue's last. -/
theorem lap_put {idx : Nat} {b : α} (hclean : Clean n ring lo hi) (hlo : lo ≤ idx)
    (hhi : hi ≤ idx) (hlap : idx < lo + n) (hb : b ≠ 0) :
    lap n (update ring (idx % n) b) lo = lap n ring lo ++ [b] := by
  obtain ⟨k, rfl⟩ : ∃ k, idx = lo + k := ⟨idx - lo, by omega⟩
  obtain ⟨m, hm⟩ : ∃ m, n = k + (1 + m) := ⟨n - k - 1, by omega⟩
  have hsplit : ∀ r : Nat → α, slots n r lo n =
      slots n r lo k ++ (slots n r (lo + k) 1 ++ slots n r (lo + k + 1) m) := by
    intro r
    rw [← slots_add, ← slots_add, ← hm]
  have hother : ∀ i, lo ≤ i → i < lo + n → i ≠ lo + k →
      update ring ((lo + k) % n) b (i % n) = ring (i % n) := by
    intro i h1 h2 h3
    rcases Nat.lt_or_gt_of_ne h3 with h | h
    · exact Function.update_of_ne (mod_ne h (by omega)).symm _ _
    · exact Function.update_of_ne (mod_ne h (by omega)) _ _
  have hbefore : slots n (update ring ((lo + k) % n) b) lo k = slots n ring lo k :=
    slots_congr fun i h1 h2 => hother i h1 (by omega) (by omega)
  have hafter : slots n (update ring ((lo + k) % n) b) (lo + k + 1) m =
      slots n ring (lo + k + 1) m :=
    slots_congr fun i h1 h2 => hother i (by omega) (by omega) (by omega)
  -- the ring had no entry from the written index on
  have hat : entries (slots n ring (lo + k) 1) = [] :=
    entries_slots_eq_nil.mpr fun i h1 h2 => hclean i (by omega) (by omega) (by omega)
  have htail : entries (slots n ring (lo + k + 1) m) = [] :=
    entries_slots_eq_nil.mpr fun i h1 h2 => hclean i (by omega) (by omega) (by omega)
  have hnew : entries (slots n (update ring ((lo + k) % n) b) (lo + k) 1) = [b] := by
    simp [slots, entries, hb]
  rw [lap, lap, hsplit, hsplit, hbefore, hafter]
  simp only [entries_append, hat, htail, hnew, List.append_nil]

omit [DecidableEq α] in
theorem Clean.put {idx : Nat} {b : α} (hclean : Clean n ring lo hi) (hlo : lo ≤ idx)
    (hhi : hi ≤ idx) : Clean n (update ring (idx % n) b) lo (idx + 1) := by
  intro i h1 h2 h3
  rw [Function.update_of_ne (mod_ne (show idx < i from by omega) (by omega))]
  exact hclean i h1 (by omega) h3

omit [DecidableEq α] in
theorem Clean.mono {hi' : Nat} (h : Clean n ring lo hi) (hle : hi ≤ hi') :
    Clean n ring lo hi' := fun i h1 h2 h3 => h i h1 (by omega) h3

/-! ## The window

Where the slots outside `[lo, hi)` are empty, a whole lap has no more than the window. -/

/-- In a clean ring the entries of the lap are those of the window `[lo, hi)`. -/
theorem lap_eq_window (h : Clean n ring lo hi) :
    lap n ring lo = entries (slots n ring lo (min (hi - lo) n)) := by
  obtain ⟨m, hm⟩ : ∃ m, n = min (hi - lo) n + m := ⟨n - min (hi - lo) n, by omega⟩
  have hrest : entries (slots n ring (lo + min (hi - lo) n) m) = [] := by
    rw [entries_slots_eq_nil]
    intro i h1 h2
    rcases Nat.le_total hi lo with hle | hle
    · exact h i (by omega) (by omega) (by omega)
    · exact h i (by omega) (by omega) (by omega)
  rw [lap]
  conv_lhs => rw [show slots n ring lo n = slots n ring lo (min (hi - lo) n + m) from by rw [← hm]]
  rw [slots_add, entries_append, hrest, List.append_nil]

/-- A lap meets every slot. -/
theorem exists_lap_index (hn : 0 < n) (lo i : Nat) : ∃ k, lo ≤ k ∧ k < lo + n ∧ k % n = i % n := by
  refine ⟨lo + (i + n * lo - lo) % n, Nat.le_add_right _ _, ?_, ?_⟩
  · exact Nat.add_lt_add_left (Nat.mod_lt _ hn) lo
  · have hle : lo ≤ i + n * lo := Nat.le_add_left_of_le (Nat.le_mul_of_pos_left lo hn)
    rw [Nat.add_mod, Nat.mod_mod, ← Nat.add_mod, Nat.add_sub_cancel' hle, Nat.add_mul_mod_self_left]

/-- A ring whose lap has no entry is empty, from wherever it is read. -/
theorem lap_eq_nil (hn : 0 < n) : lap n ring lo = [] ↔ ∀ i, ring (i % n) = 0 := by
  rw [lap, entries_slots_eq_nil]
  refine ⟨fun h i => ?_, fun h i _ _ => h i⟩
  obtain ⟨k, h1, h2, hslot⟩ := exists_lap_index hn lo i
  rw [← hslot]
  exact h k h1 h2

omit [DecidableEq α] in
/-- In a clean ring a slot outside the window is empty. -/
theorem Clean.outside {j : Nat} (h : Clean n ring lo hi) (hj : j < n)
    (hout : ¬∃ i, lo ≤ i ∧ i < hi ∧ i % n = j) : ring j = 0 := by
  obtain ⟨k, h1, h2, hslot⟩ := exists_lap_index (Nat.zero_lt_of_lt hj) lo j
  rw [Nat.mod_eq_of_lt hj] at hslot
  rcases Nat.lt_or_ge k hi with hlt | hge
  · exact absurd ⟨k, h1, hlt, hslot⟩ hout
  · rw [← hslot]
    exact h k h1 hge h2

omit [DecidableEq α] in
/-- A clean ring whose window is empty is empty. -/
theorem Clean.empty (hn : 0 < n) (h : Clean n ring lo hi) (hle : hi ≤ lo) (i : Nat) : ring (i % n) = 0 := by
  obtain ⟨k, h1, h2, hslot⟩ := exists_lap_index hn lo i
  rw [← hslot]
  exact h k h1 (hle.trans h1) h2

omit [DecidableEq α] in
theorem Clean.of_empty (h : ∀ i, ring (i % n) = 0) : Clean n ring lo hi := fun i _ _ _ => h i

/-! ## Two cursors

The other kind of ring: one slot stays free, and the cursors alone say what is held. -/

section Cursors

variable {β : Type} {data : Nat → β} {tail head w : Nat}

/-- What a ring with one slot free holds: the slots from `tail` up to `head`. -/
def between (n : Nat) (data : Nat → β) (tail head : Nat) : List β :=
  slots n data tail ((head + n - tail) % n)

theorem length_between : (between n data tail head).length = (head + n - tail) % n := by
  simp [between, slots]

/-- The distance of the cursors, with the wrap spelled out. -/
theorem distance_eq (ht : tail < n) (hh : head < n) :
    (head + n - tail) % n = if tail ≤ head then head - tail else head + n - tail := by
  split
  · rw [show head + n - tail = head - tail + n from by omega, Nat.add_mod_right]
    exact Nat.mod_eq_of_lt (by omega)
  · exact Nat.mod_eq_of_lt (by omega)

theorem succ_mod_eq (hh : head < n) :
    (head + 1) % n = if head + 1 = n then 0 else head + 1 := by
  split
  · next heq => rw [heq, Nat.mod_self]
  · exact Nat.mod_eq_of_lt (by omega)

theorem distance_succ (ht : tail < n) (hh : head < n) (hroom : (head + 1) % n ≠ tail) :
    ((head + 1) % n + n - tail) % n = (head + n - tail) % n + 1 := by
  rw [distance_eq ht (Nat.mod_lt _ (by omega)), distance_eq ht hh]
  rw [succ_mod_eq hh] at hroom ⊢
  split_ifs at hroom ⊢ <;> omega

/-- The slot that lies the distance behind `tail` is the one at `head`. -/
theorem add_distance_mod (ht : tail < n) (hh : head < n) :
    (tail + (head + n - tail) % n) % n = head := by
  rw [Nat.add_mod_mod, show tail + (head + n - tail) = head + n from by omega, Nat.add_mod_right]
  exact Nat.mod_eq_of_lt hh

/-- **A write at `head` appends**, in a ring that has room. -/
theorem between_put {b : β} (ht : tail < n) (hh : head < n) (hroom : (head + 1) % n ≠ tail) :
    between n (update data head b) tail ((head + 1) % n) = between n data tail head ++ [b] := by
  rw [between, distance_succ ht hh hroom, slots_add]
  have hlt : (head + n - tail) % n + 1 < n + 1 := by
    rw [← distance_succ ht hh hroom]
    exact Nat.lt_succ_of_lt (Nat.mod_lt _ (by omega))
  congr 1
  · refine slots_congr fun i h1 h2 => Function.update_of_ne ?_ _ _
    rw [← add_distance_mod ht hh]
    exact (mod_ne h2 (by omega)).symm
  · simp [slots, add_distance_mod ht hh]

/-- **A reader takes the front.** What it has passed and what is left are the whole, and the cursor
wraps at the ring's end. -/
theorem between_take (ht : tail < n) (hh : head < n) (hw : w ≤ (head + n - tail) % n) :
    between n data tail head =
      slots n data tail w ++ between n data ((tail + w) % n) head := by
  have hrest : (head + n - (tail + w) % n) % n = (head + n - tail) % n - w := by
    have hlt : (head + n - tail) % n < n := Nat.mod_lt _ (by omega)
    rw [distance_eq ht hh] at hw hlt ⊢
    rcases Nat.lt_or_ge (tail + w) n with h | h
    · rw [Nat.mod_eq_of_lt h, distance_eq h hh]
      split_ifs at hw ⊢ <;> omega
    · have hmod : (tail + w) % n = tail + w - n := by
        rw [Nat.mod_eq_sub_mod h]
        exact Nat.mod_eq_of_lt (by omega)
      rw [hmod, distance_eq (by omega) hh]
      split_ifs at hw ⊢ <;> omega
  rw [between, between, hrest]
  conv_lhs => rw [← Nat.add_sub_cancel' hw, slots_add]
  congr 1
  exact List.map_congr_left fun i _ => by rw [Nat.mod_add_mod]

/-- The slot behind `head` is the last one that the ring holds. -/
theorem between_last (ht : tail < n) (hh : head < n) (hne : head ≠ tail) :
    between n data tail head =
      between n data tail ((head + n - 1) % n) ++ [data ((head + n - 1) % n)] := by
  have hlast : (head + n - 1) % n < n := Nat.mod_lt _ (by omega)
  have hnext : ((head + n - 1) % n + 1) % n = head := by
    rw [Nat.mod_add_mod, show head + n - 1 + 1 = head + n from by omega, Nat.add_mod_right]
    exact Nat.mod_eq_of_lt hh
  have hput : between n (Function.update data ((head + n - 1) % n) (data ((head + n - 1) % n))) tail
      (((head + n - 1) % n + 1) % n) = _ := between_put ht hlast (by rwa [hnext])
  rwa [hnext, Function.update_eq_self] at hput

/-- A writer steps back over the slots behind `head` for as long as `p` holds of them, never
past `tail`. -/
def retreat (n : Nat) (data : Nat → β) (p : β → Bool) (tail : Nat) : Nat → Nat → Nat
  | 0, head => head
  | k + 1, head =>
    if head = tail then head
    else if p (data ((head + n - 1) % n)) then retreat n data p tail k ((head + n - 1) % n)
    else head

theorem retreat_lt {p : β → Bool} {k : Nat} (hh : head < n) : retreat n data p tail k head < n := by
  induction k generalizing head with
  | zero => exact hh
  | succ k ih =>
    simp only [retreat]
    split_ifs
    · exact hh
    · exact ih (Nat.mod_lt _ (by omega))
    · exact hh

/-- **A writer that steps back** takes off the end what it passes. -/
theorem between_retreat {p : β → Bool} {k : Nat} (ht : tail < n) (hh : head < n)
    (hk : (between n data tail head).length ≤ k) :
    between n data tail (retreat n data p tail k head) = (between n data tail head).rdropWhile p := by
  induction k generalizing head with
  | zero =>
    have hnil : between n data tail head = [] := List.length_eq_zero_iff.mp (Nat.le_zero.mp hk)
    rw [retreat, hnil]
    rfl
  | succ k ih =>
    simp only [retreat]
    split_ifs with heq hp
    · subst heq
      have hnil : between n data head head = [] := by
        rw [between, distance_eq hh hh, if_pos le_rfl, Nat.sub_self]
        rfl
      rw [hnil]
      rfl
    · rw [between_last ht hh heq] at hk ⊢
      rw [List.length_append] at hk
      rw [List.rdropWhile_concat_pos _ _ _ hp]
      exact ih (Nat.mod_lt _ (by omega)) (Nat.le_of_succ_le_succ hk)
    · rw [between_last ht hh heq, List.rdropWhile_concat_neg _ _ _ hp]

end Cursors

end Slots
