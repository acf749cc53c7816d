import Mathlib.Data.List.Infix
import Mathlib.Data.UInt

/-!
# Counts that wrap

A stream of items passes through a queue. Two parties count it in 32-bit words: one the items
that went in, one the items that came out. The words wrap, the stream does not.

* **`ofNat_inj`** — below 2^32 a word is its count.
* **`suffix_eq`** — the last items of the stream, as many as the queue holds, are the queue.
* **`queue_eq`** — hence the queue holds exactly the last items that went in, when what went in
  before them is, as a word, what came out.
-/

namespace Counts

theorem ofNat_inj {m n : Nat} (hm : m < 2 ^ 32) (hn : n < 2 ^ 32)
    (h : UInt32.ofNat m = UInt32.ofNat n) : m = n := by
  rw [← UInt32.toNat_inj, UInt32.toNat_ofNat', UInt32.toNat_ofNat', Nat.mod_eq_of_lt hm,
    Nat.mod_eq_of_lt hn] at h
  exact h

/-- The last items of the stream are the queue's, when they are as many. -/
theorem suffix_eq {α : Type} {out queue last : List α} (h : last <:+ out ++ queue)
    (hlen : last.length = queue.length) : last = queue := by
  obtain ⟨front, hfront⟩ := h
  exact (List.append_inj' hfront hlen).2

/-- The words agree on where the last items begin, and neither they nor the queue wrap. -/
theorem queue_eq {α : Type} {out queue last : List α} (h : last <:+ out ++ queue)
    (hqueue : queue.length < 2 ^ 32) (hlast : last.length < 2 ^ 32)
    (hword : UInt32.ofNat (out.length + queue.length) =
      UInt32.ofNat out.length + UInt32.ofNat last.length) : queue = last := by
  rw [UInt32.ofNat_add] at hword
  exact (suffix_eq h (ofNat_inj hlast hqueue (add_left_cancel hword).symm)).symm

end Counts
