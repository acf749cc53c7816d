import Glowforge.Lib.Decimal
import Mathlib.Data.Nat.Digits.Lemmas

/-!
# Numbers printed in decimal

* **`natText`** — the digits of a number, as a C library prints an unsigned one.
* **`number_natText`** — reading them back gives the number.
* **`natText_inj`** — so two numbers do not print alike.
-/

namespace Decimal

/-- The digits of a number. -/
def natText (n : ℕ) : List UInt8 :=
  if n = 0 then [48] else (Nat.digits 10 n).reverse.map fun d => UInt8.ofNat (48 + d)

theorem toNat_digit {d : ℕ} (h : d < 10) : (UInt8.ofNat (48 + d)).toNat = 48 + d := by
  rw [UInt8.toNat_ofNat']
  omega

theorem isDigit_digit {d : ℕ} (h : d < 10) : isDigit (UInt8.ofNat (48 + d)) = true := by
  rw [isDigit, Bool.and_eq_true, decide_eq_true_eq, decide_eq_true_eq, UInt8.le_iff_toNat_le,
    UInt8.le_iff_toNat_le, toNat_digit h]
  exact ⟨Nat.le_add_right 48 d, by change 48 + d ≤ 57; omega⟩

theorem digits_natText (n : ℕ) : Digits (natText n) := by
  intro c hc
  rw [natText] at hc
  split at hc
  · obtain rfl := List.mem_singleton.1 hc
    rfl
  · obtain ⟨d, hd, rfl⟩ := List.mem_map.1 hc
    exact isDigit_digit (Nat.digits_lt_base (by decide) (List.mem_reverse.1 hd))

theorem natText_ne_nil (n : ℕ) : natText n ≠ [] := by
  rw [natText]
  split
  · exact List.cons_ne_nil _ _
  · next h =>
    rw [ne_eq, List.map_eq_nil_iff, List.reverse_eq_nil_iff]
    exact Nat.digits_ne_nil_iff_ne_zero.2 h

theorem number_concat (ds : List UInt8) (c : UInt8) :
    number (ds ++ [c]) = 10 * number ds + (c.toNat - 48) := by
  rw [number, List.foldl_append]
  rfl

/-- The lowest digit is printed last. -/
theorem number_reverse {ds : List ℕ} (h : ∀ d ∈ ds, d < 10) :
    number (ds.reverse.map fun d => UInt8.ofNat (48 + d)) = Nat.ofDigits 10 ds := by
  induction ds with
  | nil => rfl
  | cons d ds ih =>
    rw [List.reverse_cons, List.map_append, List.map_singleton, number_concat,
      ih fun e he => h e (List.mem_cons_of_mem d he), toNat_digit (h d List.mem_cons_self),
      Nat.ofDigits_cons]
    omega

/-- **What is printed reads back.** -/
theorem number_natText (n : ℕ) : number (natText n) = n := by
  rw [natText]
  split
  · next h =>
    rw [h]
    rfl
  · rw [number_reverse fun d hd => Nat.digits_lt_base (by decide) hd, Nat.ofDigits_digits]

theorem natText_inj {m n : ℕ} (h : natText m = natText n) : m = n := by
  rw [← number_natText m, h, number_natText]

end Decimal
