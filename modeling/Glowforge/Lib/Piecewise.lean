import Mathlib.Algebra.Order.Field.Basic
import Mathlib.Data.List.Basic
import Mathlib.Tactic.FieldSimp
import Mathlib.Tactic.Linarith
import Mathlib.Tactic.Positivity
import Mathlib.Tactic.Ring

/-!
# Piecewise linear interpolation

A table of knots `(x, y)`, in order, is read between its knots along the lines that join them, and
behind the last knot at its height.

* **`interp`** — the interpolation through a first knot and those behind it.
* **`interp_mono`**, **`interp_strictMono`** — it rises with its knots, and strictly up to the last.
* **`interp_knot`** — it goes through its knots.
* **`interp_le_last`** — it stays below the last one.
* **`interp_inverse`** — strictly rising knots, read the other way, give the inverse.
-/

namespace Piecewise

/-! ## Knots in order

The first coordinates rise strictly. The second ones do not fall, or rise strictly too. -/

section Knots

variable {K : Type*} [LinearOrder K] {a b : K × K} {knots : List (K × K)}

/-- Knots in order that never fall. -/
def Rising (knots : List (K × K)) : Prop := knots.Pairwise fun a b => a.1 < b.1 ∧ a.2 ≤ b.2

/-- Knots in order that rise from each to the next. -/
def StrictRising (knots : List (K × K)) : Prop := knots.Pairwise fun a b => a.1 < b.1 ∧ a.2 < b.2

theorem Rising.cons (h : Rising (a :: b :: knots)) : a.1 < b.1 ∧ a.2 ≤ b.2 ∧ Rising (b :: knots) := by
  obtain ⟨hfirst, hrest⟩ := List.pairwise_cons.1 h
  exact ⟨(hfirst b List.mem_cons_self).1, (hfirst b List.mem_cons_self).2, hrest⟩

theorem StrictRising.cons (h : StrictRising (a :: b :: knots)) :
    a.1 < b.1 ∧ a.2 < b.2 ∧ StrictRising (b :: knots) := by
  obtain ⟨hfirst, hrest⟩ := List.pairwise_cons.1 h
  exact ⟨(hfirst b List.mem_cons_self).1, (hfirst b List.mem_cons_self).2, hrest⟩

theorem StrictRising.rising (h : StrictRising knots) : Rising knots :=
  List.Pairwise.imp (fun hab => ⟨hab.1, hab.2.le⟩) h

/-- The knots read the other way. -/
theorem StrictRising.swap (h : StrictRising knots) : StrictRising (knots.map Prod.swap) :=
  List.pairwise_map.2 (List.Pairwise.imp And.symm h)

/-- The last knot is as high as any. -/
theorem Rising.le_last (h : Rising (a :: knots)) : a.2 ≤ (knots.getLastD a).2 := by
  induction knots generalizing a with
  | nil => exact le_rfl
  | cons b knots ih =>
    obtain ⟨-, hab, hrest⟩ := h.cons
    rw [List.getLastD_cons]
    exact hab.trans (ih hrest)

end Knots

/-! ## One line -/

section Line

variable {K : Type*} [Field K] {a b : K × K} {x y : K}

/-- The line through two knots. -/
def lerp (a b : K × K) (x : K) : K := a.2 + (x - a.1) / (b.1 - a.1) * (b.2 - a.2)

theorem lerp_left : lerp a b a.1 = a.2 := by simp [lerp]

variable [LinearOrder K]

theorem lerp_right (h : a.1 < b.1) : lerp a b b.1 = b.2 := by
  have hne : b.1 - a.1 ≠ 0 := sub_ne_zero.2 h.ne'
  rw [lerp, div_self hne]
  ring

/-- A line read the other way gives back what was put in. -/
theorem lerp_swap (h : a.1 < b.1) (h' : a.2 < b.2) : lerp a.swap b.swap (lerp a b x) = x := by
  have hx : b.1 - a.1 ≠ 0 := sub_ne_zero.2 h.ne'
  have hy : b.2 - a.2 ≠ 0 := sub_ne_zero.2 h'.ne'
  unfold lerp
  simp only [Prod.fst_swap, Prod.snd_swap]
  field_simp
  ring

variable [IsStrictOrderedRing K]

theorem lerp_mono (h : a.1 < b.1) (h' : a.2 ≤ b.2) (hxy : x ≤ y) : lerp a b x ≤ lerp a b y := by
  have hspan : 0 < b.1 - a.1 := sub_pos.2 h
  have hrise : 0 ≤ b.2 - a.2 := sub_nonneg.2 h'
  unfold lerp
  gcongr

theorem lerp_strictMono (h : a.1 < b.1) (h' : a.2 < b.2) (hxy : x < y) :
    lerp a b x < lerp a b y := by
  have hspan : 0 < b.1 - a.1 := sub_pos.2 h
  have hrise : 0 < b.2 - a.2 := sub_pos.2 h'
  unfold lerp
  gcongr

end Line

/-! ## The interpolation

By recursion over the knots: the first segment that reaches the argument has the say. -/

section Interp

variable {K : Type*} [Field K] [LinearOrder K] {a b : K × K} {knots : List (K × K)} {x y : K}

/-- The interpolation through a first knot and those behind it. -/
def interp (a : K × K) : List (K × K) → K → K
  | [], _ => a.2
  | b :: knots, x => if x ≤ b.1 then lerp a b x else interp b knots x

/-- Up to the second knot, it is the first line. -/
theorem interp_of_le (hx : x ≤ b.1) : interp a (b :: knots) x = lerp a b x := if_pos hx

theorem interp_first (h : Rising (a :: knots)) : interp a knots a.1 = a.2 := by
  cases knots with
  | nil => rfl
  | cons b knots => rw [interp_of_le h.cons.1.le, lerp_left]

/-- From the second knot on, the first one has no say. -/
theorem interp_cons (h : Rising (a :: b :: knots)) (hx : b.1 ≤ x) :
    interp a (b :: knots) x = interp b knots x := by
  obtain ⟨hab, -, hrest⟩ := h.cons
  rw [interp]
  split
  case isTrue hle => rw [le_antisymm hle hx, lerp_right hab, interp_first hrest]
  case isFalse => rfl

theorem interp_knot (h : Rising (a :: knots)) (hb : b ∈ a :: knots) : interp a knots b.1 = b.2 := by
  induction knots generalizing a with
  | nil =>
    rw [List.mem_singleton.1 hb]
    rfl
  | cons c knots ih =>
    rcases List.mem_cons.1 hb with rfl | hb
    · exact interp_first h
    have hcb : c.1 ≤ b.1 := by
      rcases List.mem_cons.1 hb with rfl | hmem
      · exact le_rfl
      · exact ((List.pairwise_cons.1 h.cons.2.2).1 b hmem).1.le
    rw [interp_cons h hcb]
    exact ih h.cons.2.2 hb

variable [IsStrictOrderedRing K]

theorem interp_mono (h : Rising (a :: knots)) (hxy : x ≤ y) :
    interp a knots x ≤ interp a knots y := by
  induction knots generalizing a x with
  | nil => exact le_rfl
  | cons b knots ih =>
    obtain ⟨hab, hrise, hrest⟩ := h.cons
    rcases le_total y b.1 with hy | hy
    · rw [interp_of_le hy, interp_of_le (hxy.trans hy)]
      exact lerp_mono hab hrise hxy
    rw [interp_cons h hy]
    rcases le_total x b.1 with hx | hx
    · -- From one line to another, by way of the knot between them.
      calc interp a (b :: knots) x = lerp a b x := interp_of_le hx
        _ ≤ lerp a b b.1 := lerp_mono hab hrise hx
        _ = interp b knots b.1 := by rw [lerp_right hab, interp_first hrest]
        _ ≤ interp b knots y := ih hrest hy
    · rw [interp_cons h hx]
      exact ih hrest hxy

theorem interp_strictMono (h : StrictRising (a :: knots)) (hx : a.1 ≤ x) (hxy : x < y)
    (hy : y ≤ (knots.getLastD a).1) : interp a knots x < interp a knots y := by
  induction knots generalizing a x with
  | nil => exact absurd (hx.trans_lt hxy) (not_lt.2 hy)
  | cons b knots ih =>
    obtain ⟨hab, hrise, hrest⟩ := h.cons
    rw [List.getLastD_cons] at hy
    rcases le_or_gt y b.1 with hyb | hyb
    · rw [interp_of_le hyb, interp_of_le (hxy.le.trans hyb)]
      exact lerp_strictMono hab hrise hxy
    rw [interp_cons h.rising hyb.le]
    rcases le_total x b.1 with hxb | hxb
    · calc interp a (b :: knots) x = lerp a b x := interp_of_le hxb
        _ ≤ lerp a b b.1 := lerp_mono hab hrise.le hxb
        _ = interp b knots b.1 := by rw [lerp_right hab, interp_first hrest.rising]
        _ < interp b knots y := ih hrest le_rfl hyb hy
    · rw [interp_cons h.rising hxb]
      exact ih hrest hxb hxy hy

theorem interp_le_last (h : Rising (a :: knots)) (x : K) :
    interp a knots x ≤ (knots.getLastD a).2 := by
  induction knots generalizing a with
  | nil => exact le_rfl
  | cons b knots ih =>
    obtain ⟨hab, hrise, hrest⟩ := h.cons
    rw [List.getLastD_cons]
    rcases le_total x b.1 with hx | hx
    · calc interp a (b :: knots) x = lerp a b x := interp_of_le hx
        _ ≤ lerp a b b.1 := lerp_mono hab hrise hx
        _ = b.2 := lerp_right hab
        _ ≤ (knots.getLastD b).2 := hrest.le_last
    · rw [interp_cons h hx]
      exact ih hrest

/-- **The inverse.** Strictly rising knots, read the other way, give back what was put in. -/
theorem interp_inverse (h : StrictRising (a :: knots)) (hx : a.1 ≤ x)
    (hlast : x ≤ (knots.getLastD a).1) :
    interp a.swap (knots.map Prod.swap) (interp a knots x) = x := by
  induction knots generalizing a with
  | nil => exact le_antisymm hx hlast
  | cons b knots ih =>
    obtain ⟨hab, hrise, hrest⟩ := h.cons
    rw [List.getLastD_cons] at hlast
    rcases le_total x b.1 with hxb | hxb
    · have hle : lerp a b x ≤ b.2 := (lerp_mono hab hrise.le hxb).trans_eq (lerp_right hab)
      calc interp a.swap ((b :: knots).map Prod.swap) (interp a (b :: knots) x)
          = interp a.swap (b.swap :: knots.map Prod.swap) (lerp a b x) := by
            rw [interp_of_le hxb, List.map_cons]
        _ = lerp a.swap b.swap (lerp a b x) := interp_of_le hle
        _ = x := lerp_swap hab hrise
    · have hge : b.2 ≤ interp b knots x :=
        (interp_first hrest.rising).symm.trans_le (interp_mono hrest.rising hxb)
      have hswap : Rising (a.swap :: b.swap :: knots.map Prod.swap) := h.swap.rising
      rw [interp_cons h.rising hxb, List.map_cons, interp_cons hswap hge]
      exact ih hrest hxb hlast

/-- And so does the interpolation, of what it gives the other way. -/
theorem interp_inverse_swap (h : StrictRising (a :: knots)) (hy : a.2 ≤ y)
    (hlast : y ≤ (knots.getLastD a).2) :
    interp a knots (interp a.swap (knots.map Prod.swap) y) = y := by
  have hswap : StrictRising (a.swap :: knots.map Prod.swap) := h.swap
  have hback := interp_inverse hswap hy (by rwa [List.getLastD_map])
  rwa [Prod.swap_swap, List.map_map, Prod.swap_swap_eq, List.map_id] at hback

end Interp

end Piecewise
