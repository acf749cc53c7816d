import Glowforge.Conf.Read
import Glowforge.Lib.Decimal
import Mathlib.Data.List.Forall2

/-!
# Glowforge — the dose curve's text (`glowforge_laser.c`)

The tube's light is convex in the pulse density. The operator measures it, and writes the curve into
the config as pairs of percents, `density:light,density:light,...`. One parser takes the text:

* **`curveParse`** — the parser, over `strtof`, which takes the longest decimal number behind space.
* **`Documented`** — the form of the text that its comment gives.
* **`Reads`** — the text as the parser's calls of `strtof` split it.
* **`curveParse_eq`** — what the parser accepts: any text that splits into sound points.
* **`documented_iff`** — the documented ones among them, which are split tidily.
* **`curveParse_exact_iff`** — the parser is exact on a text unless it splits untidily.
* **`space_for_comma`** — a list with a blank for its comma.

A C string is the bytes before its zero, and the numbers are exact.
-/

namespace Glowforge.Dose

open Conf (isspace)
open Decimal (Numeral Longest)

/-! ## The parser

The loop of `curve_parse`, over a reader of decimal numbers: a number, a colon, a number, and a
comma that is skipped where there is one. -/

def colon : UInt8 := 58

def comma : UInt8 := 44

def curveMaxPoints : ℕ := 12

structure Point where
  density : ℚ  -- percent of full
  light : ℚ  -- percent of CW
deriving DecidableEq

/-- `dose_curve_t`: the two tables and their count are the list of the points. -/
structure DoseCurve where
  points : List Point  -- none: the identity
  name : String  -- for the arm report
deriving DecidableEq

/-- The curve that is built in. -/
def curveDefault : DoseCurve where
  points := [⟨10, 1 / 2⟩, ⟨20, 2⟩, ⟨30, 7⟩, ⟨45, 21⟩, ⟨60, 37⟩, ⟨80, 50⟩, ⟨100, 100⟩]
  name := "bench-default"

/-- `strtof`: a number behind any space, and what it leaves; `none` where there is no number. -/
def strtof (p : List UInt8) : Option (ℚ × List UInt8) := Decimal.read (p.dropWhile isspace)

/-- A comma is passed over where there is one. -/
def skipComma (p : List UInt8) : List UInt8 := if p.head? = some comma then p.tail else p

/-- A turn's two numbers, and where the next turn starts. -/
def readPair (p : List UInt8) : Option (Point × List UInt8) :=
  match strtof p with
  | none => none
  | some (d, rest) =>
    if rest.head? ≠ some colon then none
    else
      match strtof rest.tail with
      | none => none
      | some (l, rest) => some (⟨d, l⟩, skipComma rest)

def Point.InRange (x : Point) : Prop := 0 ≤ x.density ∧ x.density ≤ 100 ∧ 0 ≤ x.light ∧ x.light ≤ 100

instance (x : Point) : Decidable x.InRange := by unfold Point.InRange; infer_instance

/-- Both of a point's numbers are above another's. -/
def Point.Below (x y : Point) : Prop := x.density < y.density ∧ x.light < y.light

instance (x y : Point) : Decidable (x.Below y) := by unfold Point.Below; infer_instance

/-- The loop of `curve_parse`, with the room that its table still has. -/
def curveLoop : ℕ → List UInt8 → List Point → Option (List UInt8 × List Point)
  | 0, p, points => some (p, points)
  | _ + 1, [], points => some ([], points)
  | room + 1, c :: p, points =>
    match readPair (c :: p) with
    | none => none
    | some (x, next) =>
      if ¬x.InRange ∨ (points.getLast? = none ∧ x.light ≤ 0) then none
      else if ∃ last ∈ points.getLast?, ¬last.Below x then none
      else curveLoop room next (points ++ [x])

/-- `curve_parse`: its answer, and what it leaves at `out`. -/
def curveParse (text : List UInt8) (out : DoseCurve) : Bool × DoseCurve :=
  match curveLoop curveMaxPoints text [] with
  | none => (false, out)
  | some (p, points) => if p ≠ [] ∨ points.length < 2 then (false, out) else (true, ⟨points, "custom"⟩)

/-! ## The documented form

The text as the comment above the parser describes it, and what the parser checks of its points: 2
to 12 of them, in range and in order, the first with some light. -/

/-- **Sound points**: two to twelve, inside 0..100, strictly increasing in both, and the first of
them lit. -/
structure Sound (points : List Point) : Prop where
  count : 2 ≤ points.length ∧ points.length ≤ curveMaxPoints
  range : ∀ x ∈ points, x.InRange
  rising : points.Pairwise Point.Below
  lit : ∀ x ∈ points.head?, 0 < x.light

/-- A pair: a number, a colon, a number. -/
def PairText (t : List UInt8) (x : Point) : Prop :=
  ∃ d l, t = d ++ colon :: l ∧ Numeral d x.density ∧ Numeral l x.light

/-- **The documented form**, `d:l,d:l,...`: pairs of sound points, with single commas between them. -/
def Documented (text : List UInt8) (points : List Point) : Prop :=
  (∃ texts, text = [comma].intercalate texts ∧ List.Forall₂ PairText texts points) ∧ Sound points

/-- **The parser is exact** on a text: it accepts the documented form, `out` then holds the points
of the text, and is as it was otherwise. -/
structure Exact (text : List UInt8) (out : DoseCurve) (r : Bool × DoseCurve) : Prop where
  accepts : r.1 = true ↔ ∃ points, Documented text points
  holds : ∀ points, Documented text points → r.1 = true → r.2 = ⟨points, "custom"⟩
  untouched : r.1 = false → r.2 = out

/-! ## How the text is split

`strtof` takes the longest number that it finds behind space, so a text that the parser accepts has
exactly one way of being split into pairs. -/

/-- A number of the text, as `strtof` reads it: space, and the longest numeral behind it. -/
def Reading (s space : List UInt8) (q : ℚ) (rest : List UInt8) : Prop :=
  ∃ num, s = space ++ (num ++ rest) ∧ (∀ c ∈ space, isspace c = true) ∧ Longest num q rest

/-- A pair as it stands in the text. -/
structure Item where
  lead : List UInt8  -- the space before its density
  gap : List UInt8  -- the space before its light
  comma : Bool  -- a comma stands behind it
  point : Point

/-- The text starts with a pair, and goes on with `next`. -/
def StartsWith (s : List UInt8) (x : Item) (next : List UInt8) : Prop :=
  ∃ mid rest, Reading s x.lead x.point.density (colon :: mid) ∧
    Reading mid x.gap x.point.light rest ∧ (x.comma = true ↔ rest.head? = some comma) ∧
    next = skipComma rest

/-- The pairs that the whole text is split into. -/
inductive Reads : List UInt8 → List Item → Prop
  | nil : Reads [] []
  | cons {s next x items} : StartsWith s x next → Reads next items → Reads s (x :: items)

/-- **A tidy split**: no space before a number, and a comma behind each pair but the last. -/
def Tidy : List Item → Prop
  | [] => True
  | x :: items => x.lead = [] ∧ x.gap = [] ∧ (x.comma = true ↔ items ≠ []) ∧ Tidy items

/-! ## One number, one pair

Each call of the reader against the split: what it takes is the numeral that stands there, and the
rest is what the next call sees. -/

variable {s mid next rest space text : List UInt8} {q : ℚ} {x : Item} {points : List Point}
  {items : List Item} {out : DoseCurve}

/-- No numeral begins with space. -/
theorem not_isspace_of_numeral {num : List UInt8} (h : Numeral num q) (rest : List UInt8) :
    ∀ c ∈ (num ++ rest).head?, isspace c = false := by
  obtain ⟨c, t, rfl, hc⟩ := h.head
  rintro _ ⟨⟩
  rcases hc with hdigit | rfl | rfl | rfl
  · simp only [Decimal.isDigit, Bool.and_eq_true, decide_eq_true_eq] at hdigit
    have hlow : 48 ≤ c.toNat := UInt8.le_iff_toNat_le.1 hdigit.1
    have hblank : c ≠ 32 := by
      rintro rfl
      exact absurd hlow (by decide)
    have hcontrol : ¬c ≤ 13 := fun h => by
      have hle : c.toNat ≤ 13 := UInt8.le_iff_toNat_le.1 h
      omega
    simp [isspace, hblank, hcontrol]
  · rfl
  · rfl
  · rfl

theorem Reading.space_eq (h : Reading s space q rest) : space = s.takeWhile isspace := by
  obtain ⟨num, rfl, hspace, hnum⟩ := h
  rw [List.takeWhile_append_of_pos hspace]
  cases hs : num ++ rest with
  | nil => simp
  | cons c t =>
    have hc : isspace c = false := not_isspace_of_numeral hnum.numeral rest c (by rw [hs]; rfl)
    rw [List.takeWhile_cons_of_neg (by simp [hc]), List.append_nil]

theorem Reading.strtof_eq (h : Reading s space q rest) : strtof s = some (q, rest) := by
  obtain ⟨num, rfl, hspace, hnum⟩ := h
  have hdrop : (num ++ rest).dropWhile isspace = num ++ rest := by
    cases hs : num ++ rest with
    | nil => rfl
    | cons c t =>
      have hc : isspace c = false := not_isspace_of_numeral hnum.numeral rest c (by rw [hs]; rfl)
      exact List.dropWhile_cons_of_neg (by simp [hc])
  rw [strtof, List.dropWhile_append_of_pos hspace, hdrop]
  exact Decimal.read_eq_some.2 ⟨num, rfl, hnum⟩

theorem reading_of_strtof (h : strtof s = some (q, rest)) :
    Reading s (s.takeWhile isspace) q rest := by
  obtain ⟨num, hs, hnum⟩ := Decimal.read_eq_some.1 h
  refine ⟨num, ?_, fun c hc => List.mem_takeWhile_imp hc, hnum⟩
  rw [← hs, List.takeWhile_append_dropWhile]

theorem StartsWith.readPair_eq (h : StartsWith s x next) : readPair s = some (x.point, next) := by
  obtain ⟨mid, rest, hd, hl, -, rfl⟩ := h
  have hcolon : (colon :: mid).head? = some colon := rfl
  simp only [readPair, hd.strtof_eq, hcolon, ne_eq, not_true_eq_false, if_false, List.tail_cons,
    hl.strtof_eq]

theorem startsWith_of_readPair {y : Point} (h : readPair s = some (y, next)) :
    ∃ x, x.point = y ∧ StartsWith s x next := by
  unfold readPair at h
  cases hd : strtof s with
  | none => simp [hd] at h
  | some first =>
    obtain ⟨d, first⟩ := first
    simp only [hd] at h
    cases first with
    | nil => simp at h
    | cons c mid =>
      by_cases hc : c = colon
      · subst hc
        cases hl : strtof mid with
        | none => simp [hl] at h
        | some second =>
          obtain ⟨l, rest⟩ := second
          simp only [List.head?_cons, ne_eq, not_true_eq_false, if_false, List.tail_cons, hl,
            Option.some.injEq, Prod.mk.injEq] at h
          obtain ⟨rfl, rfl⟩ := h
          exact ⟨⟨s.takeWhile isspace, mid.takeWhile isspace, rest.head? = some comma, ⟨d, l⟩⟩, rfl,
            mid, rest, reading_of_strtof hd, reading_of_strtof hl, decide_eq_true_iff, rfl⟩
      · rw [List.head?_cons, if_pos (by simpa using hc)] at h
        cases h

/-- The text settles its first pair, and what stands behind it. -/
theorem StartsWith.unique {x' : Item} {next' : List UInt8} (h : StartsWith s x next)
    (h' : StartsWith s x' next') : x = x' ∧ next = next' := by
  have hread := h.readPair_eq.symm.trans h'.readPair_eq
  obtain ⟨hpoint, hnext⟩ := Prod.mk.inj (Option.some.inj hread)
  refine ⟨?_, hnext⟩
  obtain ⟨mid, rest, hd, hl, hcomma, -⟩ := h
  obtain ⟨mid', rest', hd', hl', hcomma', -⟩ := h'
  have hmid : mid = mid' := by
    have heq := hd.strtof_eq.symm.trans hd'.strtof_eq
    exact List.tail_eq_of_cons_eq (Prod.mk.inj (Option.some.inj heq)).2
  subst hmid
  have hrest : rest = rest' := by
    have heq := hl.strtof_eq.symm.trans hl'.strtof_eq
    exact (Prod.mk.inj (Option.some.inj heq)).2
  subst hrest
  have hlead := hd.space_eq.trans hd'.space_eq.symm
  have hgap := hl.space_eq.trans hl'.space_eq.symm
  have hsame : x.comma = x'.comma := Bool.eq_iff_iff.2 (hcomma.trans hcomma'.symm)
  cases x
  cases x'
  simp_all

theorem Reads.unique {items' : List Item} (h : Reads s items) (h' : Reads s items') :
    items = items' := by
  induction h generalizing items' with
  | nil =>
    cases h' with
    | nil => rfl
    | cons hstart => cases hstart.readPair_eq
  | cons hstart _ ih =>
    cases h' with
    | nil => cases hstart.readPair_eq
    | cons hstart' hreads' =>
      obtain ⟨rfl, rfl⟩ := hstart.unique hstart'
      rw [ih hreads']

/-! ## The loop

By induction on the pairs: the loop accepts what splits into sound points, and refuses everything
else. -/

/-- The points that the loop would take behind the last one it has. -/
def Follows : Option Point → List Point → Prop
  | _, [] => True
  | last, x :: points =>
    (x.InRange ∧ (last = none → 0 < x.light) ∧ ∀ y ∈ last, y.Below x) ∧ Follows (some x) points

theorem Point.Below.trans {x y z : Point} (h : x.Below y) (h' : y.Below z) : x.Below z :=
  ⟨h.1.trans h'.1, h.2.trans h'.2⟩

theorem follows_some {y : Point} :
    Follows (some y) points ↔ (∀ x ∈ points, x.InRange) ∧ (y :: points).Pairwise Point.Below := by
  induction points generalizing y with
  | nil => simp [Follows]
  | cons x points ih =>
    rw [Follows, ih, List.forall_mem_cons, List.pairwise_cons (a := y), List.forall_mem_cons]
    constructor
    · rintro ⟨⟨hx, -, hyx⟩, hrange, hrising⟩
      have hyx : y.Below x := hyx y rfl
      exact ⟨⟨hx, hrange⟩, ⟨hyx, fun z hz => hyx.trans ((List.pairwise_cons.1 hrising).1 z hz)⟩, hrising⟩
    · rintro ⟨⟨hx, hrange⟩, ⟨hyx, -⟩, hrising⟩
      refine ⟨⟨hx, by rintro ⟨⟩, ?_⟩, hrange, hrising⟩
      rintro _ ⟨⟩
      exact hyx

theorem follows_none : Follows none points ↔ (∀ x ∈ points, x.InRange) ∧
    points.Pairwise Point.Below ∧ ∀ x ∈ points.head?, 0 < x.light := by
  cases points with
  | nil => simp [Follows]
  | cons x points =>
    rw [Follows, follows_some, List.forall_mem_cons]
    constructor
    · rintro ⟨⟨hx, hlit, -⟩, hrange, hrising⟩
      refine ⟨⟨hx, hrange⟩, hrising, ?_⟩
      rintro _ ⟨⟩
      exact hlit rfl
    · rintro ⟨⟨hx, hrange⟩, hrising, hlit⟩
      exact ⟨⟨hx, fun _ => hlit x rfl, by rintro _ ⟨⟩⟩, hrange, hrising⟩

/-- **One turn**: a pair is read, its numbers are tested, and it is taken. The tests are those of a
point in range and above the one before; where one fails the loop refuses the text. -/
theorem curveLoop_step {room : ℕ} {r : List UInt8 × List Point} (hs : s ≠ []) :
    curveLoop (room + 1) s points = some r ↔
      ∃ x next, readPair s = some (x, next) ∧
        (x.InRange ∧ (points.getLast? = none → 0 < x.light) ∧ ∀ y ∈ points.getLast?, y.Below x) ∧
        curveLoop room next (points ++ [x]) = some r := by
  obtain ⟨c, p, rfl⟩ := List.exists_cons_of_ne_nil hs
  rw [curveLoop]
  constructor
  · intro h
    split at h
    case h_1 => cases h
    case h_2 x next hread =>
      split at h
      case isTrue => cases h
      case isFalse htests =>
        split at h
        case isTrue => cases h
        case isFalse habove =>
          obtain ⟨hrange, hlit⟩ := not_or.1 htests
          exact ⟨x, next, hread, ⟨not_not.1 hrange, fun hnone => not_le.1 fun hle => hlit ⟨hnone, hle⟩,
            fun y hy => not_not.1 fun hbelow => habove ⟨y, hy, hbelow⟩⟩, h⟩
  · rintro ⟨x, next, hread, ⟨hrange, hlit, habove⟩, h⟩
    rw [hread]
    dsimp only
    rw [if_neg, if_neg, h]
    · rintro ⟨y, hy, hbelow⟩
      exact hbelow (habove y hy)
    · rintro (hout | ⟨hnone, hle⟩)
      · exact hout hrange
      · exact absurd (hlit hnone) (not_lt.2 hle)

theorem curveLoop_nil (room : ℕ) (points : List Point) :
    curveLoop room [] points = some ([], points) := by
  cases room <;> rfl

theorem reads_nil : Reads [] items ↔ items = [] := by
  constructor
  · intro h
    cases h with
    | nil => rfl
    | cons hstart => cases hstart.readPair_eq
  · rintro rfl
    exact .nil

/-- **The loop's run**: it comes to the end of the text exactly when the text splits into pairs for
which the table has room and whose points follow the ones it has. -/
theorem curveLoop_iff {room : ℕ} {all : List Point} :
    curveLoop room s points = some ([], all) ↔
      ∃ items, Reads s items ∧ items.length ≤ room ∧
        Follows points.getLast? (items.map Item.point) ∧ all = points ++ items.map Item.point := by
  induction room generalizing s points with
  | zero =>
    cases s with
    | nil => simp [curveLoop_nil, reads_nil, Follows, eq_comm]
    | cons c s =>
      refine ⟨by rintro ⟨⟩, ?_⟩
      rintro ⟨items, hreads, hlen, -⟩
      rw [List.eq_nil_of_length_eq_zero (Nat.le_zero.1 hlen)] at hreads
      cases hreads
  | succ room ih =>
    by_cases hs : s = []
    · simp [hs, curveLoop_nil, reads_nil, Follows, eq_comm]
    have hnext : ∀ x, (points ++ [x]).getLast? = some x := fun x => List.getLast?_concat
    rw [curveLoop_step hs]
    constructor
    · rintro ⟨x, next, hread, hx, h⟩
      obtain ⟨y, rfl, hstart⟩ := startsWith_of_readPair hread
      obtain ⟨items, hreads, hlen, hfollows, rfl⟩ := ih.1 h
      rw [hnext] at hfollows
      exact ⟨y :: items, .cons hstart hreads, Nat.succ_le_succ hlen, ⟨hx, hfollows⟩, by simp⟩
    · rintro ⟨items, hreads, hlen, hfollows, rfl⟩
      cases hreads with
      | nil => exact absurd rfl hs
      | @cons _ next x items hstart hreads =>
        obtain ⟨hx, hfollows⟩ := hfollows
        rw [← hnext x.point] at hfollows
        have hrun := ih.2 ⟨items, hreads, Nat.le_of_succ_le_succ hlen, hfollows, by simp⟩
        exact ⟨x.point, next, hstart.readPair_eq, hx, hrun⟩

/-- **What the parser accepts**: the text splits into sound points, which are then the curve's. -/
theorem curveParse_iff {c : DoseCurve} : curveParse text out = (true, c) ↔
    ∃ items, Reads text items ∧ Sound (items.map Item.point) ∧
      c = ⟨items.map Item.point, "custom"⟩ := by
  unfold curveParse
  constructor
  · intro h
    split at h
    case h_1 => cases h
    case h_2 p points hloop =>
      split at h
      case isTrue => cases h
      case isFalse hend =>
        obtain ⟨hp, hcount⟩ := not_or.1 hend
        rw [not_not.1 hp] at hloop
        obtain ⟨items, hreads, hlen, hfollows, rfl⟩ := curveLoop_iff.1 hloop
        obtain ⟨hrange, hrising, hlit⟩ := follows_none.1 hfollows
        refine ⟨items, hreads, ⟨⟨not_lt.1 hcount, ?_⟩, hrange, hrising, hlit⟩, ?_⟩
        · rw [List.length_map]
          exact hlen
        · exact (Prod.mk.inj h).2.symm
  · rintro ⟨items, hreads, hsound, rfl⟩
    have hloop : curveLoop curveMaxPoints text [] = some ([], items.map Item.point) := by
      refine curveLoop_iff.2 ⟨items, hreads, ?_, ?_, rfl⟩
      · simpa using hsound.count.2
      · exact follows_none.2 ⟨hsound.range, hsound.rising, hsound.lit⟩
    rw [hloop]
    exact if_neg (not_or.2 ⟨not_not.2 rfl, not_lt.2 hsound.count.1⟩)

/-- A text that it refuses leaves `out` alone. -/
theorem curveParse_refused (h : (curveParse text out).1 = false) : (curveParse text out).2 = out := by
  revert h
  unfold curveParse
  split
  case h_1 => exact fun _ => rfl
  case h_2 =>
    split
    case isTrue => exact fun _ => rfl
    case isFalse => rintro ⟨⟩

/-! ## The documented texts among them

A documented text splits, and it splits tidily: each pair but the first behind its comma. The texts
beyond those are the parser's own. -/

theorem stops_colon (mid : List UInt8) : Decimal.Stops (colon :: mid) := by
  rintro _ ⟨⟩
  decide

theorem stops_comma (rest : List UInt8) : Decimal.Stops (comma :: rest) := by
  rintro _ ⟨⟩
  decide

/-- A pair stands at the start of a text, with nothing or a comma behind it. -/
theorem startsWith_of_pairText {t : List UInt8} {y : Point} (h : PairText t y) :
    StartsWith t ⟨[], [], false, y⟩ [] ∧
      ∀ rest, StartsWith (t ++ comma :: rest) ⟨[], [], true, y⟩ rest := by
  obtain ⟨d, l, rfl, hd, hl⟩ := h
  constructor
  · refine ⟨l, [], ⟨d, rfl, by rintro _ ⟨⟩, hd.longest (stops_colon l)⟩, ⟨l, ?_, by rintro _ ⟨⟩,
      hl.longest (by rintro _ ⟨⟩)⟩, ?_, rfl⟩
    · rw [List.nil_append, List.append_nil]
    · simp
  · intro rest
    refine ⟨l ++ comma :: rest, comma :: rest, ⟨d, ?_, by rintro _ ⟨⟩, hd.longest (stops_colon _)⟩,
      ⟨l, rfl, by rintro _ ⟨⟩, hl.longest (stops_comma rest)⟩, ?_, rfl⟩
    · rw [List.nil_append, List.append_assoc, List.cons_append]
    · simp

theorem reads_of_texts {texts : List (List UInt8)} (h : List.Forall₂ PairText texts points) :
    ∃ items, Reads ([comma].intercalate texts) items ∧ Tidy items ∧ items.map Item.point = points := by
  induction h with
  | nil => exact ⟨[], .nil, trivial, rfl⟩
  | @cons t y texts points ht hrest ih =>
    obtain ⟨items, hreads, htidy, hitems⟩ := ih
    obtain ⟨hlast, hmore⟩ := startsWith_of_pairText ht
    cases hrest with
    | nil =>
      rw [List.map_eq_nil_iff] at hitems
      subst hitems
      rw [List.intercalate_singleton]
      exact ⟨[⟨[], [], false, y⟩], .cons hlast .nil, ⟨rfl, rfl, by simp, trivial⟩, rfl⟩
    | cons =>
      have hne : items ≠ [] := by
        rintro rfl
        cases hitems
      refine ⟨⟨[], [], true, y⟩ :: items, ?_, ⟨rfl, rfl, by simp [hne], htidy⟩,
        by rw [List.map_cons, hitems]⟩
      rw [List.intercalate_cons_cons, List.append_assoc]
      exact .cons (hmore _) hreads

theorem texts_of_reads (h : Reads text items) (htidy : Tidy items) :
    ∃ texts, text = [comma].intercalate texts ∧ List.Forall₂ PairText texts (items.map Item.point) := by
  induction h with
  | nil => exact ⟨[], rfl, .nil⟩
  | @cons s next x items hstart hreads ih =>
    obtain ⟨hlead, hgap, hcomma, htidy⟩ := htidy
    obtain ⟨texts, rfl, hpairs⟩ := ih htidy
    obtain ⟨mid, rest, ⟨d, hs, -, hd⟩, ⟨l, hmid, -, hl⟩, hhead, hnext⟩ := hstart
    rw [hlead, List.nil_append] at hs
    rw [hgap, List.nil_append] at hmid
    have hpair : PairText (d ++ colon :: l) x.point := ⟨d, l, rfl, hd.numeral, hl.numeral⟩
    refine ⟨(d ++ colon :: l) :: texts, ?_, .cons hpair hpairs⟩
    cases items with
    | nil =>
      -- The last pair: no comma stands behind it, and nothing does.
      cases hpairs
      have hrest : rest.head? ≠ some comma := fun h => (hcomma.1 (hhead.2 h)) rfl
      rw [skipComma, if_neg hrest] at hnext
      rw [List.intercalate_singleton, hs, hmid, ← hnext]
      simp
    | cons z items =>
      cases hpairs with
      | cons hz hpairs =>
        obtain ⟨after, rfl⟩ : ∃ after, rest = comma :: after := by
          have hrest := hhead.1 (hcomma.2 (List.cons_ne_nil z items))
          cases rest with
          | nil => cases hrest
          | cons c after => exact ⟨after, by rw [Option.some.inj hrest]⟩
        rw [List.intercalate_cons_cons, hs, hmid, hnext]
        simp [skipComma]

/-- **The documented form** is a tidy split into sound points. -/
theorem documented_iff : Documented text points ↔
    ∃ items, Reads text items ∧ Tidy items ∧ items.map Item.point = points ∧ Sound points := by
  constructor
  · rintro ⟨⟨texts, rfl, hpairs⟩, hsound⟩
    obtain ⟨items, hreads, htidy, hpoints⟩ := reads_of_texts hpairs
    exact ⟨items, hreads, htidy, hpoints, hsound⟩
  · rintro ⟨items, hreads, htidy, rfl, hsound⟩
    exact ⟨texts_of_reads hreads htidy, hsound⟩

/-- A documented text is accepted, and its points are the curve's. -/
theorem curveParse_documented (h : Documented text points) :
    curveParse text out = (true, ⟨points, "custom"⟩) := by
  obtain ⟨items, hreads, -, rfl, hsound⟩ := documented_iff.1 h
  exact curveParse_iff.2 ⟨items, hreads, hsound, rfl⟩

/-- **The parser is exact on a text** exactly when the text, if it splits into sound points at all,
splits tidily: a blank before a number, two pairs with no comma between them and a comma behind the
last pair are what it takes beyond the documented form. -/
theorem curveParse_exact_iff (text : List UInt8) (out : DoseCurve) :
    Exact text out (curveParse text out) ↔
      ∀ items, Reads text items → Sound (items.map Item.point) → Tidy items := by
  constructor
  · intro h items hreads hsound
    have hparse : curveParse text out = (true, ⟨items.map Item.point, "custom"⟩) :=
      curveParse_iff.2 ⟨items, hreads, hsound, rfl⟩
    obtain ⟨points, hdocumented⟩ := h.accepts.1 (congrArg Prod.fst hparse)
    obtain ⟨items', hreads', htidy, -⟩ := documented_iff.1 hdocumented
    rwa [hreads.unique hreads']
  · intro h
    constructor
    · constructor
      · intro haccepted
        obtain ⟨items, hreads, hsound, -⟩ := curveParse_iff.1 (Prod.ext haccepted rfl)
        exact ⟨_, documented_iff.2 ⟨items, hreads, h items hreads hsound, rfl, hsound⟩⟩
      · rintro ⟨points, hdocumented⟩
        rw [curveParse_documented hdocumented]
    · intro points hdocumented _
      rw [curveParse_documented hdocumented]
    · exact curveParse_refused

/-- `10:5 20:10`, with a blank where the comma belongs. -/
def blankForComma : List UInt8 := [49, 48, 58, 53, 32, 50, 48, 58, 49, 48]

/-- **A blank for the comma**: the list is accepted, and is none of the documented form. -/
theorem space_for_comma :
    ¬Exact blankForComma curveDefault (curveParse blankForComma curveDefault) := by
  intro h
  have haccepted : (curveParse blankForComma curveDefault).1 = true := by decide +kernel
  obtain ⟨points, hdocumented⟩ := h.accepts.1 haccepted
  obtain ⟨items, hreads, htidy, -⟩ := documented_iff.1 hdocumented
  have hfirst : readPair blankForComma = some (⟨10, 5⟩, [32, 50, 48, 58, 49, 48]) := by decide +kernel
  cases hreads with
  | cons hstart hreads =>
    rw [hstart.readPair_eq] at hfirst
    obtain ⟨-, rfl⟩ := Prod.mk.inj (Option.some.inj hfirst)
    cases hreads with
    | cons hsecond =>
      -- The second pair has the blank before it.
      obtain ⟨-, -, -, hlead, -⟩ := htidy
      obtain ⟨_, _, hdensity, -⟩ := hsecond
      rw [hdensity.space_eq] at hlead
      exact absurd hlead (by decide)

end Glowforge.Dose
