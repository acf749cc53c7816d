import Glowforge.Lib.Slots

/-!
# A timeline behind a ring

A producer lays entries out on a timeline, an infinite grid of indices, and a ring of `n` slots carries
the part of it that a reader has still to come to. The producer may leave indices out, and the reader may
wait between two reads.

* **`Shows`** — the lap from the reader's index `lo` on has the timeline's entries in its slots, and the
  timeline is empty from `hi` on and from the end of the lap on.
* **`Shows.read`**, **`Shows.pop`** — the reader finds the entry of its index, zeroes the slot, and
  moves on.
* **`Shows.put`** — an entry goes to its own index, at or behind `hi`.
* **`Shows.drop`** — the producer takes back what is not read yet.
-/

namespace Slots

open Function (update)

variable {α : Type} [Zero α] {n lo hi : Nat} {ring : Nat → α} {grid : Nat → α}

/-- The ring shows the timeline `grid` to a reader at `lo`, up to `hi`. -/
structure Shows (n : Nat) (ring : Nat → α) (lo hi : Nat) (grid : Nat → α) : Prop where
  lap : ∀ i, lo ≤ i → i < lo + n → ring (i % n) = grid i
  -- the last slot of the lap stays free
  lapEnd : ∀ i, lo + n ≤ i + 1 → grid i = 0
  done : ∀ i, hi ≤ i → grid i = 0

namespace Shows

/-- The reader finds the entry of its index. -/
theorem read (hn : 0 < n) (h : Shows n ring lo hi grid) : ring (lo % n) = grid lo :=
  h.lap lo le_rfl (Nat.lt_add_of_pos_right hn)

/-- **A read** zeroes its slot, and the reader moves on. The slot that it leaves is the last of the
new lap, which the timeline has nothing for. -/
theorem pop (h : Shows n ring lo hi grid) : Shows n (update ring (lo % n) 0) (lo + 1) hi grid where
  lap i h1 h2 := by
    rcases Nat.lt_or_eq_of_le (Nat.le_of_lt_succ (show i < lo + n + 1 by omega)) with hlt | rfl
    · rw [Function.update_of_ne (mod_ne (by omega) hlt)]
      exact h.lap i (by omega) hlt
    · -- the slot that the reader has left is the lap's last one now
      rw [Nat.add_mod_right, Function.update_self]
      exact (h.lapEnd _ (by omega)).symm
  lapEnd i h1 := h.lapEnd i (by omega)
  done := h.done

/-- **A write** puts an entry at its own index of the timeline. The indices that it leaves out
between `hi` and there stay empty. -/
theorem put {idx : Nat} {b : α} (h : Shows n ring lo hi grid) (hlo : lo ≤ idx) (hhi : hi ≤ idx)
    (hlap : idx + 1 < lo + n) : Shows n (update ring (idx % n) b) lo (idx + 1) (update grid idx b) where
  lap i h1 h2 := by
    rcases Nat.lt_trichotomy i idx with hlt | rfl | hgt
    · rw [Function.update_of_ne (mod_ne hlt (by omega)).symm, Function.update_of_ne (by omega)]
      exact h.lap i h1 h2
    · rw [Function.update_self, Function.update_self]
    · rw [Function.update_of_ne (mod_ne hgt (by omega)), Function.update_of_ne (by omega)]
      exact h.lap i h1 h2
  lapEnd i h1 := by
    rw [Function.update_of_ne (by omega)]
    exact h.lapEnd i h1
  done i h1 := by
    rw [Function.update_of_ne (by omega)]
    exact h.done i (by omega)

theorem mono {hi' : Nat} (h : Shows n ring lo hi grid) (hle : hi ≤ hi') : Shows n ring lo hi' grid :=
  ⟨h.lap, h.lapEnd, fun i h1 => h.done i (by omega)⟩

/-- Past the timeline's end the ring is clean. -/
theorem clean (h : Shows n ring lo hi grid) : Clean n ring lo hi :=
  fun i h1 h2 h3 => (h.lap i h1 h3).trans (h.done i h2)

/-- A reader at the timeline's end has an empty ring behind it. -/
theorem empty (hn : 0 < n) (h : Shows n ring lo hi grid) (hnone : ∀ i, lo ≤ i → grid i = 0) (i : Nat) :
    ring (i % n) = 0 := by
  obtain ⟨k, h1, h2, hslot⟩ := exists_lap_index hn lo i
  rw [← hslot, h.lap k h1 h2, hnone k h1]

/-- An empty ring shows what has no entry from the reader's index on. -/
theorem of_empty {lo hi : Nat} (hempty : ∀ i, ring (i % n) = 0) (hgrid : ∀ i, lo ≤ i → grid i = 0)
    (hle : lo ≤ hi) (hn : 0 < n) : Shows n ring lo hi grid where
  lap i h1 _ := (hempty i).trans (hgrid i h1).symm
  lapEnd i h1 := hgrid i (by omega)
  done i h1 := hgrid i (by omega)

/-- **The producer takes back** what the reader has not come to. -/
theorem drop {ring' : Nat → α} (hn : 0 < n) (hempty : ∀ i, ring' (i % n) = 0) :
    Shows n ring' lo lo fun i => if i < lo then grid i else 0 :=
  of_empty hempty (fun _ h1 => if_neg (Nat.not_lt.mpr h1)) le_rfl hn

end Shows

end Slots
