import Glowforge.Dose.Curve
import Glowforge.Lib.Piecewise

/-!
# Glowforge — the dose curve applied (`glowforge_laser.c`)

The S word asks for light, and the pulse takes a density. The curve in force maps the one to the
other, through the measured points and back: a straight line up to the first point, a search for the
segment behind it, and a clamp at the last one.

* **`curveApply`** — the map, where a division by zero or a look outside the table would show.
* **`curveApply_eq`** — over sound points it is the interpolation through the origin and the points.
* **`DoseInverse`** — what the map is then: monotone, through its points, and an inverse.
* **`curveApply_inverse`** — it is that for every curve that the parser makes, and the default.
* **`dark_first_point`** — a first point of density 0 is one of them, and its light is lost.
* **`curveLoad_inverse`** — whatever the config says, the curve in force is one of them or off.
-/

namespace Glowforge.Dose

open Piecewise

/-! ## The map

`curve_apply` is written with divisions and table lookups that the parser's checks make safe. Here a
division by zero is `none`, and so is a lookup past the table's end. -/

/-- A quotient; `none` is a division by zero. -/
def quotient (a b : ℚ) : Option ℚ := if b = 0 then none else some (a / b)

/-- The search for the segment, from `i`, with the turns that `i < n - 1` still leaves. -/
def search (points : List Point) (l : ℚ) : ℕ → ℕ → Option ℕ
  | 0, i => some i
  | turns + 1, i => do
    let x ← points[i]?
    if x.light < l then search points l turns (i + 1) else some i

/-- The segment that ends at point `i`, clamped to its end. -/
def onSegment (points : List Point) (l : ℚ) (i : ℕ) : Option ℚ := do
  let lower ← points[i - 1]?
  let upper ← points[i]?
  let span := upper.light - lower.light
  let f ← if 0 < span then quotient (l - lower.light) span else some 0
  let f := if 1 < f then 1 else f
  some ((lower.density + f * (upper.density - lower.density)) / 100)

/-- `curve_apply`: a fraction of light to a fraction of density; `none` is a division by zero, or a
look outside the table. -/
def curveApply (c : DoseCurve) (light : ℚ) : Option ℚ :=
  if c.points.length = 0 then some light
  else do
    let l := light * 100
    let first ← c.points[0]?
    if l ≤ first.light then
      let f ← quotient l first.light
      some (first.density * f / 100)
    else
      let i ← search c.points l (c.points.length - 2) 1
      onSegment c.points l i

/-- The density that it comes to. -/
def dose (c : DoseCurve) (light : ℚ) : ℚ := (curveApply c light).getD 0

/-! ## What the curve is for

The specification, over points and with no search: light rises with the density, the points are on
the curve, and the two directions undo each other. -/

/-- The light that points give to a density, on straight lines between them. -/
def lightAt (first : Point) (rest : List Point) : ℚ → ℚ :=
  interp (first.density, first.light) (rest.map fun x => (x.density, x.light))

/-- What a map of light to density is from a first point on: strictly increasing up to the last
point's light, and the inverse of the light that the points give. -/
structure InverseFrom (f : ℚ → ℚ) (first : Point) (rest : List Point) : Prop where
  strict : ∀ x y, first.light ≤ x * 100 → x < y → y * 100 ≤ (rest.getLastD first).light → f x < f y
  left : ∀ x, first.light ≤ x * 100 → x * 100 ≤ (rest.getLastD first).light →
    lightAt first rest (f x * 100) = x * 100
  right : ∀ d, first.density ≤ d → d ≤ (rest.getLastD first).density →
    f (lightAt first rest d / 100) * 100 = d

/-- What it is over all fractions of light: total, monotone, from 0 through the points, and never
past the last of them. -/
structure Applies (c : DoseCurve) : Prop where
  total : ∀ light, 0 ≤ light → light ≤ 1 → (curveApply c light).isSome
  mono : ∀ x y, 0 ≤ x → x ≤ y → y ≤ 1 → dose c x ≤ dose c y
  zero : dose c 0 = 0
  points : ∀ x ∈ c.points, dose c (x.light / 100) = x.density / 100
  bounds : ∀ light, 0 ≤ light → light ≤ 1 → ∀ last ∈ c.points.getLast?,
    0 ≤ dose c light ∧ dose c light ≤ last.density / 100

/-- Where the lines begin. -/
def origin : Point := ⟨0, 0⟩

/-- **The monotone inverse**: from the origin on, where the first point has a density at all, and
from the first point on in any case. Below a first point of density 0 there is no pulse. -/
structure DoseInverse (c : DoseCurve) : Prop where
  applies : Applies c
  fromOrigin : (∀ first ∈ c.points.head?, 0 < first.density) → InverseFrom (dose c) origin c.points
  fromFirst : ∀ first rest, c.points = first :: rest → InverseFrom (dose c) first rest
  dark : ∀ first ∈ c.points.head?, first.density = 0 → ∀ x, x * 100 ≤ first.light → dose c x = 0

/-! ## The map is the interpolation

Over points in order the search ends at the segment that holds the light, and the segment's line is
the interpolation's. -/

variable {c : DoseCurve} {points : List Point} {l light : ℚ}

/-- A point as a knot, of density above light. -/
def knot (x : Point) : ℚ × ℚ := (x.light, x.density)

/-- The segment of two neighbours that the light has reached. -/
theorem onSegment_eq {front tail : List Point} {lower upper : Point} (hspan : lower.light < upper.light)
    (hpoints : points = front ++ lower :: upper :: tail) :
    onSegment points l (front.length + 1) =
      some ((if l ≤ upper.light then lerp (knot lower) (knot upper) l else upper.density) / 100) := by
  have hlower : points[front.length + 1 - 1]? = some lower := by simp [hpoints]
  have hupper : points[front.length + 1]? = some upper := by simp [hpoints]
  have hpos : 0 < upper.light - lower.light := sub_pos.2 hspan
  have hquotient : quotient (l - lower.light) (upper.light - lower.light) =
      some ((l - lower.light) / (upper.light - lower.light)) := if_neg hpos.ne'
  have hclamp : 1 < (l - lower.light) / (upper.light - lower.light) ↔ ¬l ≤ upper.light := by
    rw [one_lt_div hpos, sub_lt_sub_iff_right, not_le]
  unfold onSegment
  rw [hlower, hupper]
  simp only [Option.bind_eq_bind, Option.bind_some, if_pos hpos, hquotient]
  refine congrArg some (congrArg (· / 100) ?_)
  by_cases hl : l ≤ upper.light
  · rw [if_pos hl, if_neg fun h => hclamp.1 h hl]
    rfl
  · rw [if_neg hl, if_pos (hclamp.2 hl)]
    ring

/-- **The search's run**: behind a point that the light has passed, it finds the segment on which
the interpolation goes on. -/
theorem search_eq (l : ℚ) (front : List Point) {tail : List Point} {lower upper : Point}
    (hpoints : points = front ++ lower :: upper :: tail)
    (hrising : (lower :: upper :: tail).Pairwise Point.Below) :
    (search points l tail.length (front.length + 1)).bind (onSegment points l) =
      some (interp (knot lower) ((upper :: tail).map knot) l / 100) := by
  induction tail generalizing front lower upper with
  | nil =>
    have hspan := ((List.pairwise_cons.1 hrising).1 upper List.mem_cons_self).2
    exact onSegment_eq hspan hpoints
  | cons next tail ih =>
    obtain ⟨hbelow, hrest⟩ := List.pairwise_cons.1 hrising
    have hupper : points[front.length + 1]? = some upper := by simp [hpoints]
    rw [List.length_cons, search, hupper, Option.bind_eq_bind, Option.bind_some]
    by_cases hl : upper.light < l
    · have hmore : points = (front ++ [lower]) ++ upper :: next :: tail := by simp [hpoints]
      have hrun := ih _ hmore hrest
      rw [List.length_append, List.length_singleton] at hrun
      rw [if_pos hl, hrun]
      exact congrArg (fun q => some (q / 100)) (if_neg (not_le.2 hl)).symm
    · have hspan := (hbelow upper List.mem_cons_self).2
      rw [if_neg hl, Option.bind_some, onSegment_eq hspan hpoints, if_pos (not_lt.1 hl)]
      exact congrArg (fun q => some (q / 100)) (if_pos (not_lt.1 hl)).symm

/-- **The map is the interpolation** through the origin and the points. The first segment is the
line through the origin, the search finds the segment of the light, and past the last point both
stay at its height. -/
theorem curveApply_eq (h : Sound c.points) (light : ℚ) :
    curveApply c light = some (interp (knot origin) (c.points.map knot) (light * 100) / 100) := by
  obtain ⟨first, second, tail, hpoints⟩ : ∃ first second tail, c.points = first :: second :: tail := by
    have hcount := h.count.1
    cases hpoints : c.points with
    | nil =>
      rw [hpoints] at hcount
      cases hcount
    | cons first rest =>
      cases rest with
      | nil =>
        rw [hpoints] at hcount
        simp only [List.length_cons, List.length_nil] at hcount
        omega
      | cons second tail => exact ⟨first, second, tail, rfl⟩
  have hlit : 0 < first.light := h.lit first (by rw [hpoints]; rfl)
  have hrising := h.rising
  rw [hpoints] at hrising
  unfold curveApply
  rw [hpoints, if_neg (by simp)]
  simp only [List.getElem?_cons_zero, Option.bind_eq_bind, Option.bind_some]
  by_cases hl : light * 100 ≤ first.light
  · have hquotient : quotient (light * 100) first.light = some (light * 100 / first.light) :=
      if_neg hlit.ne'
    have hline : lerp (knot origin) (knot first) (light * 100) =
        first.density * (light * 100 / first.light) := by
      simp only [lerp, knot, origin]
      ring
    rw [if_pos hl, hquotient, Option.bind_some, List.map_cons, interp_of_le hl, hline]
  · have hrun := search_eq (light * 100) [] rfl hrising
    rw [if_neg hl]
    refine hrun.trans (congrArg (fun q => some (q / 100)) ?_)
    exact (if_neg hl).symm

theorem dose_eq (h : Sound c.points) (light : ℚ) :
    dose c light = interp (knot origin) (c.points.map knot) (light * 100) / 100 := by
  rw [dose, curveApply_eq h, Option.getD_some]

/-! ## Sound points are knots in order

What the parser checks of its pairs is what the interpolation asks of its knots, once the origin is
put in front. -/

theorem strictRising_knots (h : Sound points) : StrictRising (points.map knot) :=
  List.pairwise_map.2 (h.rising.imp And.symm)

/-- All points are lit, as the first one is. -/
theorem Sound.light_pos (h : Sound points) : ∀ x ∈ points, 0 < x.light := by
  intro x hx
  cases points with
  | nil => cases hx
  | cons first rest =>
    have hfirst : 0 < first.light := h.lit first rfl
    rcases List.mem_cons.1 hx with rfl | hx
    · exact hfirst
    · exact hfirst.trans ((List.pairwise_cons.1 h.rising).1 x hx).2

theorem rising_knots (h : Sound points) : Rising (knot origin :: points.map knot) := by
  refine List.pairwise_cons.2 ⟨?_, (strictRising_knots h).rising⟩
  rintro _ hb
  obtain ⟨x, hx, rfl⟩ := List.mem_map.1 hb
  exact ⟨h.light_pos x hx, (h.range x hx).1⟩

theorem strictRising_origin (h : Sound points) (hfirst : ∀ x ∈ points.head?, 0 < x.density) :
    StrictRising (knot origin :: points.map knot) := by
  refine List.pairwise_cons.2 ⟨?_, strictRising_knots h⟩
  rintro _ hb
  obtain ⟨x, hx, rfl⟩ := List.mem_map.1 hb
  refine ⟨h.light_pos x hx, ?_⟩
  cases points with
  | nil => cases hx
  | cons first rest =>
    rcases List.mem_cons.1 hx with rfl | hx
    · exact hfirst x rfl
    · exact (hfirst first rfl).trans ((List.pairwise_cons.1 h.rising).1 x hx).1

/-- **From a first knot on**: a map that is the interpolation there, through strictly rising knots. -/
theorem inverseFrom_of_interp {f : ℚ → ℚ} {first : Point} {rest : List Point}
    (hrising : StrictRising (knot first :: rest.map knot))
    (hf : ∀ x, first.light ≤ x * 100 → f x = interp (knot first) (rest.map knot) (x * 100) / 100) :
    InverseFrom f first rest := by
  have hlast : (rest.map knot).getLastD (knot first) = knot (rest.getLastD first) := List.getLastD_map
  have hlight : ∀ q, lightAt first rest q =
      interp (knot first).swap ((rest.map knot).map Prod.swap) q := by
    intro q
    rw [List.map_map]
    rfl
  constructor
  · intro x y hx hxy hy
    have hlt : x * 100 < y * 100 := by linarith
    have hrun := interp_strictMono hrising hx hlt (by rw [hlast]; exact hy)
    rw [hf x hx, hf y (hx.trans hlt.le)]
    linarith
  · intro x hx hle
    rw [hf x hx, hlight, div_mul_cancel₀ _ (by norm_num)]
    exact interp_inverse hrising hx (by rw [hlast]; exact hle)
  · intro d hd hle
    have hswap : Rising ((knot first).swap :: (rest.map knot).map Prod.swap) := hrising.swap.rising
    have hlow : first.light ≤ lightAt first rest d := by
      rw [hlight]
      exact (interp_first hswap).symm.trans_le (interp_mono hswap hd)
    have hpercent : lightAt first rest d / 100 * 100 = lightAt first rest d :=
      div_mul_cancel₀ _ (by norm_num)
    rw [hf _ (by rwa [hpercent]), hpercent, div_mul_cancel₀ _ (by norm_num), hlight]
    exact interp_inverse_swap hrising hd (by rw [hlast]; exact hle)

/-! ## The curve in force

The parser's curves and the default, each with the inverse that it has. -/

/-- Over sound points the map is a monotone inverse. -/
theorem doseInverse_of_sound (h : Sound c.points) : DoseInverse c := by
  have hrising := rising_knots h
  have hzero : interp (knot origin) (c.points.map knot) 0 = 0 := interp_first hrising
  constructor
  · constructor
    · intro light _ _
      rw [curveApply_eq h]
      rfl
    · intro x y _ hxy _
      have hmono := interp_mono hrising (show x * 100 ≤ y * 100 by linarith)
      rw [dose_eq h, dose_eq h]
      linarith
    · rw [dose_eq h, zero_mul, hzero, zero_div]
    · intro x hx
      have hknot := interp_knot hrising (List.mem_cons_of_mem _ (List.mem_map_of_mem hx))
      rw [dose_eq h, div_mul_cancel₀ _ (by norm_num)]
      exact congrArg (· / 100) hknot
    · intro light hlight _ last hlast
      have hlow := interp_mono hrising (show 0 ≤ light * 100 by linarith)
      have hhigh := interp_le_last hrising (light * 100)
      rw [List.getLastD_map, List.getLastD_eq_getLast?, Option.mem_def.1 hlast] at hhigh
      rw [hzero] at hlow
      rw [dose_eq h]
      constructor
      · linarith
      · exact div_le_div_of_nonneg_right hhigh (by norm_num)
  · intro hfirst
    exact inverseFrom_of_interp (strictRising_origin h hfirst) fun x _ => dose_eq h x
  · intro first rest hpoints
    have hstrict : StrictRising (knot first :: rest.map knot) := by
      have hknots := strictRising_knots h
      rwa [hpoints] at hknots
    refine inverseFrom_of_interp hstrict fun x hx => ?_
    rw [dose_eq h, hpoints, List.map_cons]
    rw [hpoints, List.map_cons] at hrising
    rw [interp_cons hrising hx]
  · intro first hfirst hdark x hle
    obtain ⟨rest, hpoints⟩ := List.head?_eq_some_iff.1 hfirst
    have hflat : lerp (knot origin) (knot first) (x * 100) = 0 := by
      simp [lerp, knot, origin, hdark]
    rw [dose_eq h, hpoints, List.map_cons, interp_of_le hle, hflat, zero_div]

theorem sound_curveDefault : Sound curveDefault.points := by
  constructor
  · decide
  · decide +kernel
  · decide +kernel
  · rintro _ ⟨⟩
    norm_num

/-- **The dose curve is a monotone inverse**: every curve that the parser makes, and the default.
Light rises with the density, the map goes through the points, and what it gives for a light is the
density of that light. -/
theorem curveApply_inverse (c : DoseCurve)
    (hmade : c = curveDefault ∨ ∃ text out, curveParse text out = (true, c)) : DoseInverse c := by
  rcases hmade with rfl | ⟨text, out, hparse⟩
  · exact doseInverse_of_sound sound_curveDefault
  · obtain ⟨items, -, hsound, rfl⟩ := curveParse_iff.1 hparse
    exact doseInverse_of_sound hsound

/-- The curve of `10:1,50:20,100:100`. -/
def benchCurve : DoseCurve := ⟨[⟨10, 1⟩, ⟨50, 20⟩, ⟨100, 100⟩], "custom"⟩

theorem curveApply_inverse_bench : DoseInverse benchCurve :=
  curveApply_inverse benchCurve <| .inr
    ⟨[49, 48, 58, 49, 44, 53, 48, 58, 50, 48, 44, 49, 48, 48, 58, 49, 48, 48], curveDefault,
      by decide +kernel⟩

/-- The curve of `0:5,50:60`. -/
def darkCurve : DoseCurve := ⟨[⟨0, 5⟩, ⟨50, 60⟩], "custom"⟩

/-- **A first point of density 0** is accepted: up to its light the map is 0, so that it is neither
strictly increasing there nor an inverse of the points' light. -/
theorem dark_first_point :
    ¬∀ c, (c = curveDefault ∨ ∃ text out, curveParse text out = (true, c)) →
      Applies c ∧ InverseFrom (dose c) origin c.points := by
  intro h
  obtain ⟨-, hinverse⟩ := h darkCurve <| .inr
    ⟨[48, 58, 53, 44, 53, 48, 58, 54, 48], curveDefault, by decide +kernel⟩
  have hlt := hinverse.strict 0 (1 / 20) (by decide +kernel) (by decide +kernel) (by decide +kernel)
  exact absurd hlt (by decide +kernel)

/-! ## The config's curve

The key decides: a text that the parser takes, the default where there is none or a bad one, and no
curve for `off`. -/

/-- `CURVE_KEY`. -/
def curveKey : List UInt8 := "laser_dose_curve".toUTF8.toList

def off : List UInt8 := [111, 102, 102]

/-- `curve_load`: the curve in force behind it. Without the key it is the default; `off` is the
identity; and a text that the parser refuses is the default too, which the arm reports. -/
def curveLoad (file : Option (List UInt8)) (curve : DoseCurve) : DoseCurve :=
  let (r, text) := Conf.gfioConfRead file curveKey 192 []
  if r ≠ 0 ∨ text = [] then curveDefault
  else if text = off then ⟨[], "off"⟩
  else if (curveParse text curve).1 then (curveParse text curve).2
  else ⟨curveDefault.points, "invalid: bench-default"⟩

/-- **Whatever the config says**, the curve in force is the identity or a monotone inverse. -/
theorem curveLoad_inverse (file : Option (List UInt8)) (curve : DoseCurve) :
    (∀ light, curveApply (curveLoad file curve) light = some light) ∨
      DoseInverse (curveLoad file curve) := by
  unfold curveLoad
  obtain ⟨r, text⟩ := Conf.gfioConfRead file curveKey 192 []
  dsimp only
  split
  case isTrue => exact .inr (doseInverse_of_sound sound_curveDefault)
  case isFalse =>
    split
    case isTrue => exact .inl fun light => rfl
    case isFalse =>
      split
      case isTrue haccepted =>
        have hparse : curveParse text curve = (true, (curveParse text curve).2) :=
          Prod.ext haccepted rfl
        obtain ⟨items, -, hsound, hcurve⟩ := curveParse_iff.1 hparse
        rw [hcurve]
        exact .inr (doseInverse_of_sound hsound)
      case isFalse => exact .inr (doseInverse_of_sound sound_curveDefault)

end Glowforge.Dose
