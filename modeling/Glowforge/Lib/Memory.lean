import Mathlib.Data.List.Induction
import Mathlib.Logic.Function.Basic

/-!
# A memory of cells

Blocks are written into a memory cell after cell and read back. Where a write is cut off, the block
that is read is the new one as far as the write went, and the old one behind it.

* **`write`**, **`read`** — a block from an address on.
* **`read_write`** — what was written is read.
* **`read_write_take`** — what is read after the front of a write.
* **`read_congr`** — a block is read as it was where its cells are as they were.
* **`replay`** — single cells written in order, and what a cell holds then.
-/

namespace Memory

variable {β : Type} {m m' : ℕ → β} {a b : ℕ} {bs : List β}

open Function (update)

/-! ## Blocks

A block is written cell by cell, so a write that is cut off is the write of a prefix. -/

def write : ℕ → List β → (ℕ → β) → ℕ → β
  | _, [], m => m
  | a, b :: bs, m => write (a + 1) bs (update m a b)

def read (a n : ℕ) (m : ℕ → β) : List β := (List.range n).map fun i => m (a + i)

theorem read_length (a n : ℕ) (m : ℕ → β) : (read a n m).length = n := by
  rw [read, List.length_map, List.length_range]

theorem read_getElem? {n i : ℕ} (h : i < n) : (read a n m)[i]? = some (m (a + i)) := by
  rw [read, List.getElem?_map, List.getElem?_range h]
  rfl

/-- Cells outside the block keep what they hold. -/
theorem write_outside (h : b < a ∨ a + bs.length ≤ b) : write a bs m b = m b := by
  induction bs generalizing a m with
  | nil => rfl
  | cons c bs ih =>
    rw [List.length_cons] at h
    rw [write, ih (by omega), Function.update_of_ne (by omega)]

theorem write_inside {i : ℕ} (h : i < bs.length) : write a bs m (a + i) = bs[i] := by
  induction bs generalizing a m i with
  | nil => exact absurd h (Nat.not_lt_zero i)
  | cons c bs ih =>
    cases i with
    | zero =>
      rw [write, write_outside (by omega)]
      exact Function.update_self a c m
    | succ i =>
      have hi : i < bs.length := Nat.lt_of_succ_lt_succ h
      have hcell : a + (i + 1) = a + 1 + i := by omega
      rw [write, hcell, ih hi]
      rfl

theorem read_congr {n : ℕ} (h : ∀ i < n, m (a + i) = m' (a + i)) : read a n m = read a n m' :=
  List.map_congr_left fun i hi => h i (List.mem_range.1 hi)

/-- **A write that is cut off** after `k` cells: the new block as far as it went, the old one behind. -/
theorem read_write_take (a k : ℕ) (bs : List β) (m : ℕ → β) :
    read a bs.length (write a (bs.take k) m) = bs.take k ++ (read a bs.length m).drop k := by
  have hlen : (read a bs.length (write a (bs.take k) m)).length =
      (bs.take k ++ (read a bs.length m).drop k).length := by
    rw [read_length, List.length_append, List.length_take, List.length_drop, read_length]
    omega
  refine List.ext_getElem? fun i => ?_
  by_cases hi : i < bs.length
  · rw [read_getElem? hi]
    by_cases hk : i < k
    · have hlt : i < (bs.take k).length := by
        rw [List.length_take]
        omega
      rw [write_inside hlt, List.getElem?_append_left hlt, List.getElem?_eq_getElem hlt]
    · have hle : (bs.take k).length ≤ i := by
        rw [List.length_take]
        omega
      rw [write_outside (by omega), List.getElem?_append_right hle, List.getElem?_drop, List.length_take]
      have hcell : k + (i - min k bs.length) = i := by omega
      rw [hcell, read_getElem? hi]
  · rw [List.getElem?_eq_none (by rw [read_length]; omega),
      List.getElem?_eq_none (by rw [← hlen, read_length]; omega)]

theorem read_write (a : ℕ) (bs : List β) (m : ℕ → β) : read a bs.length (write a bs m) = bs := by
  have h := read_write_take a bs.length bs m
  rw [List.take_length, List.drop_of_length_le (Nat.le_of_eq (read_length a bs.length _)), List.append_nil] at h
  exact h

theorem read_add (a n k : ℕ) (m : ℕ → β) : read a (n + k) m = read a n m ++ read (a + n) k m := by
  rw [read, read, read, List.range_add, List.map_append, List.map_map]
  congr 1
  refine List.map_congr_left fun i _ => ?_
  rw [Function.comp_apply, ← Nat.add_assoc]

/-! ## Single cells

A history of single writes, replayed: the last write of a cell is what it holds. -/

/-- Cells written in order. -/
def replay (puts : List (ℕ × β)) (m : ℕ → β) : ℕ → β := puts.foldl (fun m p => update m p.1 p.2) m

theorem replay_concat (puts : List (ℕ × β)) (p : ℕ × β) :
    replay (puts ++ [p]) m = update (replay puts m) p.1 p.2 := by
  rw [replay, List.foldl_append]
  rfl

theorem replay_append (puts more : List (ℕ × β)) : replay (puts ++ more) m = replay more (replay puts m) := by
  rw [replay, List.foldl_append]
  rfl

/-- What a cell holds then goes by what it held before, and by nothing beside it. -/
theorem replay_congr {puts : List (ℕ × β)} (h : m a = m' a) : replay puts m a = replay puts m' a := by
  induction puts using List.reverseRecOn with
  | nil => exact h
  | append_singleton puts p ih =>
    rw [replay_concat, replay_concat]
    by_cases ha : a = p.1
    · rw [ha, Function.update_self, Function.update_self]
    · rw [Function.update_of_ne ha, Function.update_of_ne ha, ih]

theorem replay_of_not_mem {puts : List (ℕ × β)} (h : ∀ p ∈ puts, p.1 ≠ a) : replay puts m a = m a := by
  induction puts using List.reverseRecOn with
  | nil => rfl
  | append_singleton puts p ih =>
    rw [replay_concat, Function.update_of_ne (h p (by simp)).symm]
    exact ih fun q hq => h q (by simp [hq])

end Memory
