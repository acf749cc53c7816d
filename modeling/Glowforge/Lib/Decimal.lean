import Mathlib.Data.Rat.Defs
import Mathlib.Algebra.Order.Field.Rat
import Mathlib.Data.List.Basic
import Mathlib.Data.List.DropRight
import Mathlib.Tactic.Linarith

/-!
# A reader of decimal numbers

A text that starts with a decimal number (a sign, digits with a point among them, an exponent) is
read as far as the number goes. The reader is the usual one of a C library, without its other forms
of a number, and its values are exact.

* **`read`** — the reader: the value and what stands behind it, or `none` where no number stands.
* **`Numeral`** — the grammar: a text that is a number, and its value.
* **`read_sound`** — what is read is a numeral.
* **`read_of_stops`** — a numeral with nothing behind it that could go on is read whole.
* **`read_eq_some`** — the reader takes the longest numeral that the text starts with.
-/

namespace Decimal

/-! ## The bytes

A text is its bytes. The classes that the reader asks for are the C locale's. -/

def isDigit (c : UInt8) : Bool := 48 ≤ c && c ≤ 57

def plus : UInt8 := 43

def minus : UInt8 := 45

def point : UInt8 := 46

/-- The mark of an exponent: `e` or `E`. -/
def isExp (c : UInt8) : Bool := c == 101 || c == 69

/-- The number that digits write. -/
def number (digits : List UInt8) : ℕ := digits.foldl (fun n c => 10 * n + (c.toNat - 48)) 0

/-- The value of a sign, the digits before and behind the point, and an exponent. -/
def value (σ : ℤ) (whole frac : List UInt8) (e : ℤ) : ℚ :=
  σ * number (whole ++ frac) * 10 ^ (e - frac.length)

/-! ## The reader

Sign, digits, point, digits, exponent: each part takes what it can and leaves the rest. -/

def sign : List UInt8 → ℤ × List UInt8
  | [] => (1, [])
  | c :: s => if c = plus then (1, s) else if c = minus then (-1, s) else (1, c :: s)

/-- The digits behind a point. -/
def fraction : List UInt8 → List UInt8 × List UInt8
  | [] => ([], [])
  | c :: s => if c = point then (s.takeWhile isDigit, s.dropWhile isDigit) else ([], c :: s)

/-- An exponent is one only with a digit in it. -/
def exponent : List UInt8 → ℤ × List UInt8
  | [] => (0, [])
  | c :: s =>
    if isExp c = true ∧ (sign s).2.takeWhile isDigit ≠ [] then
      ((sign s).1 * number ((sign s).2.takeWhile isDigit), (sign s).2.dropWhile isDigit)
    else (0, c :: s)

/-- What stands behind the sign. -/
def magnitude (σ : ℤ) (s : List UInt8) : Option (ℚ × List UInt8) :=
  let whole := s.takeWhile isDigit
  let f := fraction (s.dropWhile isDigit)
  if whole ++ f.1 = [] then none
  else some (value σ whole f.1 (exponent f.2).1, (exponent f.2).2)

def read (s : List UInt8) : Option (ℚ × List UInt8) := magnitude (sign s).1 (sign s).2

/-! ## The grammar

A numeral by its parts, with the value that it has; and what it means that a numeral is the longest. -/

def Digits (s : List UInt8) : Prop := ∀ c ∈ s, isDigit c = true

inductive Sign : List UInt8 → ℤ → Prop
  | absent : Sign [] 1
  | plus : Sign [plus] 1
  | minus : Sign [minus] (-1)

/-- A point and the digits behind it, of which there may be none. -/
inductive Fraction : List UInt8 → List UInt8 → Prop
  | absent : Fraction [] []
  | present {digits} : Digits digits → Fraction (point :: digits) digits

inductive Exponent : List UInt8 → ℤ → Prop
  | absent : Exponent [] 0
  | present {c sg σ digits} : isExp c = true → Sign sg σ → Digits digits → digits ≠ [] →
      Exponent (c :: (sg ++ digits)) (σ * number digits)

/-- **A numeral**: a sign or none, digits with at most one point among or beside them, and an
exponent or none. -/
inductive Numeral : List UInt8 → ℚ → Prop
  | mk {sg whole fr frac ex σ e} : Sign sg σ → Digits whole → Fraction fr frac → whole ++ frac ≠ [] →
      Exponent ex e → Numeral (sg ++ (whole ++ (fr ++ ex))) (value σ whole frac e)

/-- Nothing that a text starts with would go on a numeral before it. -/
def Stops (s : List UInt8) : Prop :=
  ∀ c ∈ s.head?, isDigit c = false ∧ c ≠ point ∧ isExp c = false

/-- `num` is the longest numeral that `num ++ rest` starts with. -/
structure Longest (num : List UInt8) (q : ℚ) (rest : List UInt8) : Prop where
  numeral : Numeral num q
  longest : ∀ num' q' rest', num' ++ rest' = num ++ rest → Numeral num' q' →
    num'.length ≤ num.length

/-! ## What is read is a numeral -/

variable {s t num rest : List UInt8} {q : ℚ}

theorem sign_sound (s : List UInt8) : ∃ sg, s = sg ++ (sign s).2 ∧ Sign sg (sign s).1 := by
  cases s with
  | nil => exact ⟨[], rfl, .absent⟩
  | cons c s =>
    rw [sign]
    split
    case isTrue h => exact ⟨[plus], by rw [h]; rfl, .plus⟩
    case isFalse =>
      split
      case isTrue h => exact ⟨[minus], by rw [h]; rfl, .minus⟩
      case isFalse => exact ⟨[], rfl, .absent⟩

theorem digits_takeWhile (s : List UInt8) : Digits (s.takeWhile isDigit) := fun _ hc =>
  List.mem_takeWhile_imp hc

theorem fraction_sound (s : List UInt8) :
    ∃ fr, s = fr ++ (fraction s).2 ∧ Fraction fr (fraction s).1 := by
  cases s with
  | nil => exact ⟨[], rfl, .absent⟩
  | cons c s =>
    rw [fraction]
    split
    case isTrue h =>
      refine ⟨point :: s.takeWhile isDigit, ?_, .present (digits_takeWhile s)⟩
      rw [h, List.cons_append, List.takeWhile_append_dropWhile]
    case isFalse => exact ⟨[], rfl, .absent⟩

theorem exponent_sound (s : List UInt8) :
    ∃ ex, s = ex ++ (exponent s).2 ∧ Exponent ex (exponent s).1 := by
  cases s with
  | nil => exact ⟨[], rfl, .absent⟩
  | cons c s =>
    rw [exponent]
    split
    case isTrue h =>
      obtain ⟨sg, hs, hsg⟩ := sign_sound s
      refine ⟨c :: (sg ++ (sign s).2.takeWhile isDigit), ?_,
        .present h.1 hsg (digits_takeWhile _) h.2⟩
      rw [List.cons_append, List.append_assoc, List.takeWhile_append_dropWhile, ← hs]
    case isFalse => exact ⟨[], rfl, .absent⟩

theorem magnitude_sound {σ : ℤ} (h : magnitude σ s = some (q, rest)) :
    ∃ whole fr frac ex e, s = whole ++ (fr ++ (ex ++ rest)) ∧ Digits whole ∧ Fraction fr frac ∧
      whole ++ frac ≠ [] ∧ Exponent ex e ∧ q = value σ whole frac e := by
  obtain ⟨fr, hfr, hfrac⟩ := fraction_sound (s.dropWhile isDigit)
  obtain ⟨ex, hex, hexp⟩ := exponent_sound (fraction (s.dropWhile isDigit)).2
  unfold magnitude at h
  dsimp only at h
  split at h
  case isTrue => cases h
  case isFalse hne =>
    obtain ⟨rfl, rfl⟩ := Prod.mk.inj (Option.some.inj h)
    refine ⟨s.takeWhile isDigit, fr, _, ex, _, ?_, digits_takeWhile s, hfrac, hne, hexp, rfl⟩
    rw [← hex, ← hfr, List.takeWhile_append_dropWhile]

/-- **Soundness.** What the reader has taken from the front of a text is a numeral of its value. -/
theorem read_sound (h : read s = some (q, rest)) : ∃ num, s = num ++ rest ∧ Numeral num q := by
  obtain ⟨sg, hs, hsg⟩ := sign_sound s
  obtain ⟨whole, fr, frac, ex, e, htail, hwhole, hfrac, hne, hexp, rfl⟩ := magnitude_sound h
  refine ⟨_, ?_, .mk hsg hwhole hfrac hne hexp⟩
  rw [hs, htail]
  simp only [List.append_assoc]

/-! ## A numeral is read

Completeness: the parts take what they are given where nothing behind them could go on. -/

theorem isDigit_ne_sign {c : UInt8} (h : isDigit c = true) : c ≠ plus ∧ c ≠ minus := by
  constructor <;> (rintro rfl; cases h)

/-- What a numeral has behind its sign does not start with one. -/
theorem sign_append {sg whole fr frac : List UInt8} {σ : ℤ} (hsg : Sign sg σ) (hwhole : Digits whole)
    (hfrac : Fraction fr frac) (hne : whole ++ frac ≠ []) (t : List UInt8) :
    sign (sg ++ (whole ++ (fr ++ t))) = (σ, whole ++ (fr ++ t)) := by
  cases hsg with
  | plus => rfl
  | minus => rfl
  | absent =>
    cases whole with
    | cons c whole =>
      obtain ⟨hplus, hminus⟩ := isDigit_ne_sign (hwhole c List.mem_cons_self)
      simp [sign, hplus, hminus]
    | nil =>
      cases hfrac with
      | absent => exact absurd rfl hne
      | present => rfl

theorem takeWhile_append {digits : List UInt8} (h : Digits digits) (t : List UInt8) :
    (digits ++ t).takeWhile isDigit = digits ++ t.takeWhile isDigit :=
  List.takeWhile_append_of_pos h

theorem dropWhile_append {digits : List UInt8} (h : Digits digits) (t : List UInt8) :
    (digits ++ t).dropWhile isDigit = t.dropWhile isDigit :=
  List.dropWhile_append_of_pos h

theorem takeWhile_of_head (h : ∀ c ∈ t.head?, isDigit c = false) :
    t.takeWhile isDigit = [] ∧ t.dropWhile isDigit = t := by
  cases t with
  | nil => exact ⟨rfl, rfl⟩
  | cons c t =>
    have hc : isDigit c = false := h c rfl
    exact ⟨List.takeWhile_cons_of_neg (by simp [hc]), List.dropWhile_cons_of_neg (by simp [hc])⟩

/-- Digits and a fraction, with nothing behind them that would go on either. -/
theorem magnitude_append {whole fr frac : List UInt8} (σ : ℤ) (hwhole : Digits whole)
    (hfrac : Fraction fr frac) (hne : whole ++ frac ≠ [])
    (ht : ∀ c ∈ t.head?, isDigit c = false ∧ c ≠ point) :
    magnitude σ (whole ++ (fr ++ t)) = some (value σ whole frac (exponent t).1, (exponent t).2) := by
  obtain ⟨htake, hdrop⟩ := takeWhile_of_head fun c hc => (ht c hc).1
  have hwholeEnd : ∀ c ∈ (fr ++ t).head?, isDigit c = false := by
    cases hfrac with
    | absent => exact fun c hc => (ht c hc).1
    | present => exact fun c hc => by cases hc; rfl
  obtain ⟨hfrtake, hfrdrop⟩ := takeWhile_of_head hwholeEnd
  have hfraction : fraction (fr ++ t) = (frac, t) := by
    cases hfrac with
    | absent =>
      cases t with
      | nil => rfl
      | cons c t => exact if_neg (ht c rfl).2
    | present hdigits =>
      show ((_ ++ t).takeWhile isDigit, (_ ++ t).dropWhile isDigit) = _
      rw [takeWhile_append hdigits, dropWhile_append hdigits, htake, hdrop, List.append_nil]
  unfold magnitude
  rw [takeWhile_append hwhole, dropWhile_append hwhole, hfrtake, hfrdrop, List.append_nil, hfraction]
  exact if_neg hne

theorem exponent_append {c : UInt8} {sg digits : List UInt8} {σ : ℤ} (hc : isExp c = true)
    (hsg : Sign sg σ) (hdigits : Digits digits) (hne : digits ≠ []) (t : List UInt8) :
    exponent (c :: (sg ++ digits) ++ t) =
      (σ * number (digits ++ t.takeWhile isDigit), t.dropWhile isDigit) := by
  have hsign : sign (sg ++ digits ++ t) = (σ, digits ++ t) := by
    have h := sign_append hsg hdigits .absent (by simpa using hne) t
    simpa using h
  rw [List.cons_append, exponent, hsign, takeWhile_append hdigits, dropWhile_append hdigits]
  exact if_pos ⟨hc, by simp [hne]⟩

theorem exponent_of_stops (h : Stops t) : exponent t = (0, t) := by
  cases t with
  | nil => rfl
  | cons c t => exact if_neg fun hexp => by simp [(h c rfl).2.2] at hexp

/-- An exponent does not go on what stands before it. -/
theorem isExp_not_digit {c : UInt8} (h : isExp c = true) : isDigit c = false ∧ c ≠ point := by
  rcases Bool.or_eq_true _ _ ▸ h with hc | hc <;> rw [beq_iff_eq.1 hc] <;> decide

/-- **A numeral is read whole** where nothing behind it would go on. -/
theorem read_of_stops (h : Numeral num q) (hrest : Stops rest) : read (num ++ rest) = some (q, rest) := by
  obtain @⟨sg, whole, fr, frac, ex, σ, e, hsg, hwhole, hfrac, hne, hexp⟩ := h
  simp only [List.append_assoc]
  rw [read, sign_append hsg hwhole hfrac hne]
  cases hexp with
  | absent =>
    rw [List.nil_append,
      magnitude_append σ hwhole hfrac hne fun c hc => ⟨(hrest c hc).1, (hrest c hc).2.1⟩,
      exponent_of_stops hrest]
  | present hc hesg hdigits hene =>
    obtain ⟨htake, hdrop⟩ := takeWhile_of_head fun c hc => (hrest c hc).1
    rw [magnitude_append σ hwhole hfrac hne, exponent_append hc hesg hdigits hene, htake, hdrop,
      List.append_nil]
    rintro _ ⟨⟩
    exact isExp_not_digit hc

theorem Numeral.unique {q' : ℚ} (h : Numeral num q) (h' : Numeral num q') : q = q' := by
  have hread : read (num ++ []) = some (q, []) := read_of_stops h (by rintro _ ⟨⟩)
  rw [read_of_stops h' (by rintro _ ⟨⟩)] at hread
  exact (Prod.mk.inj (Option.some.inj hread)).1.symm

/-- A numeral begins with a digit, a sign or the point. -/
theorem Numeral.head (h : Numeral num q) :
    ∃ c t, num = c :: t ∧ (isDigit c = true ∨ c = plus ∨ c = minus ∨ c = point) := by
  obtain @⟨sg, whole, fr, frac, ex, σ, e, hsg, hwhole, hfrac, hne, hexp⟩ := h
  cases hsg with
  | plus => exact ⟨Decimal.plus, _, rfl, .inr (.inl rfl)⟩
  | minus => exact ⟨Decimal.minus, _, rfl, .inr (.inr (.inl rfl))⟩
  | absent =>
    cases whole with
    | cons c whole => exact ⟨c, _, rfl, .inl (hwhole c List.mem_cons_self)⟩
    | nil =>
      cases hfrac with
      | absent => exact absurd rfl hne
      | present => exact ⟨point, _, rfl, .inr (.inr (.inr rfl))⟩

/-! ## The longest numeral

The reader is greedy, and a shorter numeral of the same text is a prefix of what it takes. -/

theorem fraction_suffix (s : List UInt8) : (fraction s).2 <:+ s := by
  obtain ⟨fr, hs, -⟩ := fraction_sound s
  exact ⟨fr, hs.symm⟩

theorem exponent_suffix (s : List UInt8) : (exponent s).2 <:+ s := by
  obtain ⟨ex, hs, -⟩ := exponent_sound s
  exact ⟨ex, hs.symm⟩

/-- Behind digits and a fraction that a text starts with, the reader leaves no more than is there. -/
theorem magnitude_suffix {whole fr frac : List UInt8} (σ : ℤ) (hwhole : Digits whole)
    (hfrac : Fraction fr frac) (hne : whole ++ frac ≠ []) (t : List UInt8) :
    ∃ q r, magnitude σ (whole ++ (fr ++ t)) = some (q, r) ∧ r <:+ t := by
  unfold magnitude
  rw [takeWhile_append hwhole, dropWhile_append hwhole]
  cases hfrac with
  | absent =>
    have hsuffix : (exponent (fraction (t.dropWhile isDigit)).2).2 <:+ t :=
      ((exponent_suffix _).trans (fraction_suffix _)).trans (List.dropWhile_suffix _)
    exact ⟨_, _, if_neg (by simp_all), hsuffix⟩
  | present hdigits =>
    have hpoint : isDigit point = false := rfl
    rw [List.cons_append, List.takeWhile_cons_of_neg (by simp [hpoint]),
      List.dropWhile_cons_of_neg (by simp [hpoint]), fraction, if_pos rfl, takeWhile_append hdigits,
      dropWhile_append hdigits]
    have hsuffix : (exponent (t.dropWhile isDigit)).2 <:+ t :=
      (exponent_suffix _).trans (List.dropWhile_suffix _)
    exact ⟨_, _, if_neg (by simp_all), hsuffix⟩

/-- A text that starts with a numeral is read at least as far. -/
theorem read_suffix (h : Numeral num q) (rest : List UInt8) :
    ∃ q' r, read (num ++ rest) = some (q', r) ∧ r <:+ rest := by
  obtain @⟨sg, whole, fr, frac, ex, σ, e, hsg, hwhole, hfrac, hne, hexp⟩ := h
  simp only [List.append_assoc]
  rw [read, sign_append hsg hwhole hfrac hne]
  cases hexp with
  | absent => exact magnitude_suffix σ hwhole hfrac hne rest
  | @present c esg _ digits hc hesg hdigits hene =>
    have hhead : ∀ d ∈ (c :: (esg ++ digits) ++ rest).head?, isDigit d = false ∧ d ≠ point := by
      rintro _ ⟨⟩
      exact isExp_not_digit hc
    have hread := magnitude_append σ hwhole hfrac hne hhead
    rw [exponent_append hc hesg hdigits hene] at hread
    exact ⟨_, _, hread, List.dropWhile_suffix _⟩

/-- **The reader takes the longest numeral** that a text starts with, and its value. -/
theorem read_eq_some : read s = some (q, rest) ↔ ∃ num, s = num ++ rest ∧ Longest num q rest := by
  constructor
  · intro h
    obtain ⟨num, rfl, hnum⟩ := read_sound h
    refine ⟨num, rfl, hnum, fun num' q' rest' heq hnum' => ?_⟩
    obtain ⟨_, r, hread, hsuffix⟩ := read_suffix hnum' rest'
    rw [heq, h] at hread
    obtain ⟨-, rfl⟩ := Prod.mk.inj (Option.some.inj hread)
    have hlen := congrArg List.length heq
    have hle := hsuffix.length_le
    simp only [List.length_append] at hlen
    omega
  · rintro ⟨num, rfl, hnum, hlongest⟩
    obtain ⟨q', r, hread, hsuffix⟩ := read_suffix hnum rest
    obtain ⟨num', heq, hnum'⟩ := read_sound hread
    have hlen : num.length = num'.length := by
      have hle := hlongest num' q' r heq.symm hnum'
      have hlen := congrArg List.length heq
      have hrest := hsuffix.length_le
      simp only [List.length_append] at hlen
      omega
    obtain ⟨rfl, rfl⟩ := List.append_inj heq hlen
    rw [hread, hnum.unique hnum']

/-- A numeral is the longest where nothing behind it would go on. -/
theorem Numeral.longest (h : Numeral num q) (hrest : Stops rest) : Longest num q rest := by
  obtain ⟨num', heq, hlongest⟩ := read_eq_some.1 (read_of_stops h hrest)
  rwa [List.append_cancel_right heq]

end Decimal
