import Mathlib.Algebra.BigOperators.Intervals

/-!
# Error diffusion with a dead zone

A demand is served by pulses of one `unit` each, at most `cap` of them in a period. Fewer than
`floor` are not worth a burst: the period is skipped, and its whole demand is carried.

* **`emit`** — the pulses of a period and the carry behind it.
* **`emit_conserves`**, **`emit_carry`**, **`emit_burst`** — nothing is lost, the carry stays below
  the dead zone, and a burst is worth its while.
* **`carried`** — the carry behind any number of periods, and **`carried_conserves`**, what they
  conserve together.
-/

namespace Diffusion

variable (unit cap floor : ℕ)

/-- One period: the pulses it emits, and the carry it leaves. -/
def emit (demand carry : ℕ) : ℕ × ℕ :=
  let want := demand + carry
  let on := want / unit
  if on < floor then (0, want) else (min on cap, want - min on cap * unit)

variable {unit cap floor} {demand carry : ℕ}

theorem emit_conserves : unit * (emit unit cap floor demand carry).1 + (emit unit cap floor demand carry).2 =
    demand + carry := by
  simp only [emit]
  split
  · simp
  · have hle : min ((demand + carry) / unit) cap * unit ≤ demand + carry :=
      (Nat.mul_le_mul_right _ (Nat.min_le_left _ _)).trans (Nat.div_mul_le_self _ _)
    change unit * min ((demand + carry) / unit) cap + _ = _
    rw [Nat.mul_comm unit]
    exact Nat.add_sub_of_le hle

/-- **The carry stays below the dead zone**, as long as no period is asked for more than it can give. -/
theorem emit_carry (hfloor : 0 < floor) (hunit : 0 < unit) (hdemand : demand ≤ cap * unit)
    (hcarry : carry < floor * unit) : (emit unit cap floor demand carry).2 < floor * unit := by
  simp only [emit]
  split
  · next hshort => exact (Nat.div_lt_iff_lt_mul hunit).mp hshort
  · rcases Nat.le_total ((demand + carry) / unit) cap with hfits | hfull
    · -- what is left is less than a pulse
      rw [Nat.min_eq_left hfits]
      have hrest : demand + carry - (demand + carry) / unit * unit = (demand + carry) % unit := by
        have hdiv := Nat.div_add_mod' (demand + carry) unit
        omega
      rw [hrest]
      exact (Nat.mod_lt _ hunit).trans_le (Nat.le_mul_of_pos_left unit hfloor)
    · rw [Nat.min_eq_right hfull]
      omega

theorem emit_burst (hcap : floor ≤ cap) :
    (emit unit cap floor demand carry).1 = 0 ∨
      floor ≤ (emit unit cap floor demand carry).1 ∧ (emit unit cap floor demand carry).1 ≤ cap := by
  simp only [emit]
  split
  · exact .inl rfl
  · next hlong => exact .inr ⟨by omega, Nat.min_le_right _ _⟩

variable (unit cap floor) in
/-- The carry behind `m` periods from none. -/
def carried (demand : ℕ → ℕ) : ℕ → ℕ
  | 0 => 0
  | m + 1 => (emit unit cap floor (demand m) (carried demand m)).2

variable {demand : ℕ → ℕ}

theorem carried_lt (hfloor : 0 < floor) (hunit : 0 < unit) (hdemand : ∀ m, demand m ≤ cap * unit) (m : ℕ) :
    carried unit cap floor demand m < floor * unit := by
  induction m with
  | zero => exact Nat.mul_pos hfloor hunit
  | succ m ih => exact emit_carry hfloor hunit (hdemand m) ih

/-- **Over any number of periods** the pulses and the carry are the demand. -/
theorem carried_conserves (m : ℕ) :
    unit * (∑ k ∈ Finset.range m, (emit unit cap floor (demand k) (carried unit cap floor demand k)).1) +
      carried unit cap floor demand m = ∑ k ∈ Finset.range m, demand k := by
  induction m with
  | zero => rfl
  | succ m ih =>
    have hperiod : unit * (emit unit cap floor (demand m) (carried unit cap floor demand m)).1 +
        (emit unit cap floor (demand m) (carried unit cap floor demand m)).2 =
        demand m + carried unit cap floor demand m := emit_conserves
    rw [Finset.sum_range_succ, Finset.sum_range_succ, ← ih, Nat.mul_add]
    change _ + _ + (emit unit cap floor (demand m) (carried unit cap floor demand m)).2 = _
    omega

end Diffusion
