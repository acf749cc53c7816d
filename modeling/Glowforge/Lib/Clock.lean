import Mathlib.Data.UInt

/-!
# Deadlines on a clock that wraps

A 32-bit clock wraps, and a deadline is compared with it by the sign of the difference. The
comparison is right while the two lie within half of the range of each other, and only then.

* **`before`** — the signed comparison.
* **`before_iff`** — what it says of the two numbers before they wrap: a deadline that has passed
  reads as ahead again in every second half of the range after it.
* **`before_of_lt`** — a deadline that lies ahead by no more than half the range.
* **`ofNat_add_signed`** — a deadline set by a wrapped offset, as a number that does not wrap.
-/

namespace Clock

/-- `(int32_t)(now - deadline) < 0`. -/
def before (now deadline : UInt32) : Bool := decide (2 ^ 31 ≤ (now - deadline).toNat)

/-- `(int32_t)(now - deadline) >= 0`. -/
def due (now deadline : UInt32) : Bool := !before now deadline

theorem ofNat_eq_ofInt (n : Nat) : UInt32.ofNat n = UInt32.ofInt n := by
  apply UInt32.toNat_inj.mp
  simp only [UInt32.ofInt, UInt32.toNat_ofNat']
  omega

theorem toNat_ofInt_sub (now deadline : ℤ) :
    (UInt32.ofInt now - UInt32.ofInt deadline).toNat = ((now - deadline) % 2 ^ 32).toNat := by
  rw [UInt32.toNat_sub]
  simp only [UInt32.ofInt, UInt32.toNat_ofNat']
  omega

/-- The comparison of two numbers that have wrapped. -/
theorem before_iff (now deadline : ℤ) :
    before (UInt32.ofInt now) (UInt32.ofInt deadline) = true ↔ 2 ^ 31 ≤ (now - deadline) % 2 ^ 32 := by
  rw [before, decide_eq_true_eq, toNat_ofInt_sub]
  omega

theorem before_of_lt {now deadline : ℤ} (hlt : now < deadline) (hle : deadline ≤ now + 2 ^ 31) :
    before (UInt32.ofInt now) (UInt32.ofInt deadline) = true := by
  rw [before_iff]
  omega

/-- The signed reading of a 32-bit number. -/
theorem toInt_toInt32 (x : UInt32) :
    x.toInt32.toInt = if x.toNat < 2 ^ 31 then (x.toNat : ℤ) else x.toNat - 2 ^ 32 := by
  rw [Int32.toInt, UInt32.toBitVec_toInt32, BitVec.toInt]
  simp only [UInt32.toNat_toBitVec]
  split <;> split <;> omega

/-- An offset added on the wrapping clock is the signed one added before the clock wraps. -/
theorem ofNat_add_signed (n : Nat) (x : UInt32) :
    UInt32.ofNat n + x = UInt32.ofInt (n + x.toInt32.toInt) := by
  have hlt := x.toNat_lt
  rw [toInt_toInt32]
  apply UInt32.toNat_inj.mp
  simp only [UInt32.toNat_add, UInt32.toNat_ofNat', UInt32.ofInt]
  split <;> omega

end Clock
