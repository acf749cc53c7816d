import Glowforge.Lib.Decimal
import Glowforge.Lib.Pieces
import Mathlib.Data.List.Forall2
import Mathlib.Data.List.Nodup

/-!
# Glowforge — the M-codes that are answered now (`glowforge_mcode.c`)

A package may answer some M-codes of its own. The machine's daemon says which, in one line, and a
job's M-code is accepted or refused by the table that the last good line has left.

* **`gfmcodeSetTable`** — the parser of the line, and the table behind it.
* **`Documented`** — the form of the line: `-`, or numbers in range, comma separated.
* **`tableLoop_step`**, **`tableLoop_iff`** — a turn of the parser's loop, and its run.
* **`gfmcodeSetTable_exact`** — the parser takes the documented lines and no others, and sets the
  table to what the line lists, or leaves it.
* **`mcodeCheck_after`** — after any lines, an M-code is accepted when the last documented one
  lists it.

A line is the bytes before its zero. A number is compared only where it has at most three digits.
-/

namespace Glowforge.Mcode

open Decimal (isDigit number Digits)

/-! ## The parser

A loop over the line: a number, and a comma if another one follows. -/

def comma : UInt8 := 44

def dash : UInt8 := 45

def gfmcodeMin : ℕ := 160

def gfmcodeMax : ℕ := 179

def gfmcodeTableMax : ℕ := 20

def ours (code : ℤ) : Bool := (gfmcodeMin : ℤ) ≤ code && code ≤ (gfmcodeMax : ℤ)

/-- The loop of `gfmcode_set_table`, with the room that its table still has. -/
def tableLoop : ℕ → List UInt8 → List ℕ → Option (List ℕ)
  | _, [], codes => some codes
  | 0, _ :: _, _ => none
  | room + 1, c :: p, codes =>
    let digits := (c :: p).takeWhile isDigit
    let rest := (c :: p).dropWhile isDigit
    let v := number digits
    if ¬isDigit c then none
    else if 3 < digits.length ∨ ¬ours v then none
    else if v ∈ codes then none
    else if rest.head? = some comma ∧ rest.tail ≠ [] then tableLoop room rest.tail (codes ++ [v])
    else if rest ≠ [] then none
    else tableLoop room rest (codes ++ [v])

/-- What the table may hold: numbers in range, each of them once, and no more than it has room for. -/
structure WellFormed (codes : List ℕ) : Prop where
  range : ∀ v ∈ codes, gfmcodeMin ≤ v ∧ v ≤ gfmcodeMax
  distinct : codes.Nodup
  fits : codes.length ≤ gfmcodeTableMax

/-- `table`, as far as `table_n`. -/
structure Table where
  codes : List ℕ
  wellFormed : WellFormed codes

/-! ## The documented form -/

/-- The text of a code: one to three digits, and a number in range. -/
def CodeText (t : List UInt8) (v : ℕ) : Prop :=
  t ≠ [] ∧ Digits t ∧ t.length ≤ 3 ∧ number t = v ∧ gfmcodeMin ≤ v ∧ v ≤ gfmcodeMax

/-- **The documented form** of a line: `-` for none, or numbers in range, comma separated, all of
them different, and not more than the table holds. -/
def Documented (text : List UInt8) (codes : List ℕ) : Prop :=
  (text = [dash] ∧ codes = []) ∨
    (∃ texts, text = [comma].intercalate texts ∧ List.Forall₂ CodeText texts codes) ∧
      codes.Nodup ∧ 1 ≤ codes.length ∧ codes.length ≤ gfmcodeTableMax

/-! ## The loop

A turn takes one number, so the loop accepts the lists of numbers in range and nothing else. -/

variable {s rest text : List UInt8} {v : ℕ} {codes all : List ℕ} {texts : List (List UInt8)}

theorem ours_iff : ours v = true ↔ gfmcodeMin ≤ v ∧ v ≤ gfmcodeMax := by
  simp [ours]

theorem tableLoop_nil (room : ℕ) (codes : List ℕ) : tableLoop room [] codes = some codes := by
  cases room <;> rfl

/-- **One turn**: a code's text is read, it is none of those before it, and either the line ends
there or a comma and more follow. -/
theorem tableLoop_step {room : ℕ} (hs : s ≠ []) :
    tableLoop (room + 1) s codes = some all ↔
      ∃ t v rest, s = t ++ rest ∧ CodeText t v ∧ v ∉ codes ∧
        (rest = [] ∧ all = codes ++ [v] ∨
          ∃ after, after ≠ [] ∧ rest = comma :: after ∧
            tableLoop room after (codes ++ [v]) = some all) := by
  obtain ⟨c, p, rfl⟩ := List.exists_cons_of_ne_nil hs
  rw [tableLoop]
  constructor
  · intro h
    split_ifs at h with hdigit hcode hnew hcomma hend
    all_goals
      obtain ⟨hlen, hours⟩ := not_or.1 hcode
      have hne : (c :: p).takeWhile isDigit ≠ [] := by
        rw [List.takeWhile_cons_of_pos hdigit]
        exact List.cons_ne_nil _ _
      refine ⟨_, _, (c :: p).dropWhile isDigit, List.takeWhile_append_dropWhile.symm,
        ⟨hne, Decimal.digits_takeWhile _, not_lt.1 hlen, rfl, ours_iff.1 (not_not.1 hours)⟩, hnew, ?_⟩
    · obtain ⟨hhead, hafter⟩ := hcomma
      obtain ⟨after, hrest⟩ := List.head?_eq_some_iff.1 hhead
      rw [hrest] at h hafter ⊢
      exact .inr ⟨after, hafter, rfl, h⟩
    · rw [not_not.1 hend, tableLoop_nil] at h
      exact .inl ⟨not_not.1 hend, (Option.some.inj h).symm⟩
  · rintro ⟨t, v, rest, hsplit, ⟨hne, hdigits, hlen, rfl, hrange⟩, hnew, hrest⟩
    have hstop : ∀ d ∈ rest.head?, isDigit d = false := by
      rcases hrest with ⟨rfl, -⟩ | ⟨after, -, rfl, -⟩
      · rintro _ ⟨⟩
      · rintro _ ⟨⟩
        rfl
    obtain ⟨htake, hdrop⟩ := Decimal.takeWhile_of_head hstop
    have hdigit : isDigit c = true := by
      cases t with
      | nil => exact absurd rfl hne
      | cons d t =>
        rw [(List.cons.inj hsplit).1]
        exact hdigits d List.mem_cons_self
    rw [hsplit, Decimal.takeWhile_append hdigits, Decimal.dropWhile_append hdigits, htake, hdrop,
      List.append_nil]
    rw [if_neg (not_not.2 hdigit), if_neg, if_neg hnew]
    · rcases hrest with ⟨rfl, rfl⟩ | ⟨after, hafter, rfl, h⟩
      · rw [if_neg (by simp), if_neg (by simp), tableLoop_nil]
      · rw [if_pos ⟨rfl, hafter⟩]
        exact h
    · exact not_or.2 ⟨not_lt.2 hlen, not_not.2 (ours_iff.2 hrange)⟩

theorem intercalate_eq_nil (h : List.Forall₂ CodeText texts codes) :
    [comma].intercalate texts = [] ↔ texts = [] := by
  cases h with
  | nil => simp
  | @cons t v texts codes ht hrest =>
    refine ⟨fun hnil => ?_, by rintro ⟨⟩⟩
    cases texts with
    | nil => exact absurd (List.intercalate_singleton.symm.trans hnil) ht.1
    | cons u texts =>
      rw [List.intercalate_cons_cons] at hnil
      exact absurd hnil (by simp)

/-- The end of a line: no more codes. -/
theorem tableLoop_end {room : ℕ} (hcodes : codes.Nodup) :
    tableLoop room [] codes = some all ↔
      ∃ texts vs, [] = [comma].intercalate texts ∧ List.Forall₂ CodeText texts vs ∧
        vs.length ≤ room ∧ all = codes ++ vs ∧ all.Nodup := by
  rw [tableLoop_nil]
  constructor
  · rintro ⟨⟩
    exact ⟨[], [], rfl, .nil, Nat.zero_le _, (List.append_nil _).symm, hcodes⟩
  · rintro ⟨texts, vs, hend, hpairs, -, rfl, -⟩
    obtain rfl := (intercalate_eq_nil hpairs).1 hend.symm
    cases hpairs
    rw [List.append_nil]

/-- **The loop's run**: it comes to the end of a line of codes, comma separated, for which the table
has room, and which are all different from each other and from those it has. -/
theorem tableLoop_iff {room : ℕ} (hcodes : codes.Nodup) :
    tableLoop room s codes = some all ↔
      ∃ texts vs, s = [comma].intercalate texts ∧ List.Forall₂ CodeText texts vs ∧
        vs.length ≤ room ∧ all = codes ++ vs ∧ all.Nodup := by
  induction room generalizing s codes with
  | zero =>
    cases s with
    | nil => exact tableLoop_end hcodes
    | cons c s =>
      refine ⟨by rintro ⟨⟩, ?_⟩
      rintro ⟨texts, vs, hs, hpairs, hlen, -⟩
      obtain rfl := List.eq_nil_of_length_eq_zero (Nat.le_zero.1 hlen)
      cases hpairs
      cases hs
  | succ room ih =>
    by_cases hs : s = []
    · subst hs
      exact tableLoop_end hcodes
    rw [tableLoop_step hs]
    constructor
    · rintro ⟨t, v, rest, rfl, ht, hnew, hrest⟩
      have hcodes' : (codes ++ [v]).Nodup := by
        rw [← List.concat_eq_append]
        exact List.Nodup.concat hnew hcodes
      rcases hrest with ⟨rfl, rfl⟩ | ⟨after, hafter, rfl, h⟩
      · refine ⟨[t], [v], ?_, .cons ht .nil, Nat.succ_le_succ (Nat.zero_le _), rfl, hcodes'⟩
        rw [List.intercalate_singleton, List.append_nil]
      · obtain ⟨texts, vs, rfl, hpairs, hlen, rfl, hnodup⟩ := (ih hcodes').1 h
        refine ⟨t :: texts, v :: vs, ?_, .cons ht hpairs, Nat.succ_le_succ hlen, by simp, hnodup⟩
        cases texts with
        | nil => exact absurd rfl hafter
        | cons u texts =>
          rw [List.intercalate_cons_cons, List.append_assoc, List.singleton_append]
    · rintro ⟨texts, vs, rfl, hpairs, hlen, rfl, hnodup⟩
      cases hpairs with
      | nil => exact absurd rfl hs
      | @cons t v texts vs ht hpairs =>
        have happend : codes ++ v :: vs = codes ++ [v] ++ vs := by simp
        have hnew : v ∉ codes := fun hmem =>
          (List.nodup_append.1 hnodup).2.2 v hmem v List.mem_cons_self rfl
        have hcodes' : (codes ++ [v]).Nodup := (List.nodup_append.1 (happend ▸ hnodup)).1
        cases texts with
        | nil =>
          cases hpairs
          exact ⟨t, v, [], by simp, ht, hnew, .inl ⟨rfl, rfl⟩⟩
        | cons u texts =>
          have hrun := (ih hcodes').2
            ⟨u :: texts, vs, rfl, hpairs, Nat.le_of_succ_le_succ hlen, happend, hnodup⟩
          have hafter : [comma].intercalate (u :: texts) ≠ [] := fun h =>
            absurd ((intercalate_eq_nil hpairs).1 h) (List.cons_ne_nil u texts)
          refine ⟨t, v, comma :: [comma].intercalate (u :: texts), ?_, ht, hnew,
            .inr ⟨_, hafter, rfl, hrun⟩⟩
          rw [List.intercalate_cons_cons, List.append_assoc, List.singleton_append]

theorem range_of_texts (h : List.Forall₂ CodeText texts codes) :
    ∀ v ∈ codes, gfmcodeMin ≤ v ∧ v ≤ gfmcodeMax := by
  induction h with
  | nil => rintro _ ⟨⟩
  | cons ht _ ih => exact List.forall_mem_cons.2 ⟨ht.2.2.2.2, ih⟩

/-- What the loop has read fits the table. -/
theorem tableLoop_wellFormed (h : tableLoop gfmcodeTableMax s [] = some codes) :
    WellFormed codes := by
  obtain ⟨texts, vs, -, hpairs, hlen, rfl, hdistinct⟩ := (tableLoop_iff List.nodup_nil).1 h
  exact ⟨range_of_texts hpairs, hdistinct, hlen⟩

/-! ## The table

Behind a good line the table is what the line lists; a bad one leaves the table. -/

/-- No code is answered, as before the first line. -/
def Table.empty : Table := ⟨[], nofun, .nil, Nat.zero_le _⟩

/-- The table that a line makes, if it has the form. -/
def parseTable (list : List UInt8) : Option Table :=
  if list = [dash] then some Table.empty
  else
    match h : tableLoop gfmcodeTableMax list [] with
    | none => none
    | some codes => if codes = [] then none else some ⟨codes, tableLoop_wellFormed h⟩

/-- `gfmcode_set_table`: its answer, and the table behind it; a `none` for the line is NULL. -/
def gfmcodeSetTable (list : Option (List UInt8)) (table : Table) : Int × Table :=
  match list.bind parseTable with
  | none => (-1, table)
  | some table => (0, table)

def answeredNow (table : Table) (code : ℤ) : Bool := table.codes.any fun v => (v : ℤ) == code

theorem answeredNow_iff {table : Table} {code : ℤ} :
    answeredNow table code = true ↔ ∃ v ∈ table.codes, (v : ℤ) = code := by
  simp [answeredNow]

/-- A line of codes starts with a digit. -/
theorem isDigit_of_head (h : List.Forall₂ CodeText texts codes) :
    ∀ c ∈ ([comma].intercalate texts).head?, isDigit c = true := by
  cases h with
  | nil => rintro _ ⟨⟩
  | @cons t v texts codes ht hrest =>
    obtain ⟨c, t, rfl⟩ := List.exists_cons_of_ne_nil ht.1
    have hc : isDigit c = true := ht.2.1 c List.mem_cons_self
    cases texts with
    | nil =>
      rw [List.intercalate_singleton]
      rintro _ ⟨⟩
      exact hc
    | cons u texts =>
      rw [List.intercalate_cons_cons]
      rintro _ ⟨⟩
      exact hc

theorem parseTable_of_loop (hdash : text ≠ [dash])
    (hloop : tableLoop gfmcodeTableMax text [] = some codes) (hne : codes ≠ []) :
    parseTable text = some ⟨codes, tableLoop_wellFormed hloop⟩ := by
  rw [parseTable, if_neg hdash]
  split
  case h_1 heq => cases heq.symm.trans hloop
  case h_2 codes' heq =>
    obtain rfl := Option.some.inj (heq.symm.trans hloop)
    exact if_neg hne

/-- **The parser takes the documented lines**, and makes of them what they list. -/
theorem parseTable_iff :
    (∃ table, parseTable text = some table ∧ table.codes = codes) ↔ Documented text codes := by
  constructor
  · rintro ⟨table, h, rfl⟩
    rw [parseTable] at h
    split at h
    case isTrue hdash =>
      obtain rfl := Option.some.inj h
      exact .inl ⟨hdash, rfl⟩
    case isFalse =>
      split at h
      case h_1 => cases h
      case h_2 codes hloop =>
        split at h
        case isTrue => cases h
        case isFalse hne =>
          obtain rfl := Option.some.inj h
          obtain ⟨texts, vs, htext, hpairs, hlen, rfl, hdistinct⟩ :=
            (tableLoop_iff List.nodup_nil).1 hloop
          exact .inr ⟨⟨texts, htext, hpairs⟩, hdistinct, List.length_pos_of_ne_nil hne, hlen⟩
  · rintro (⟨rfl, rfl⟩ | ⟨⟨texts, rfl, hpairs⟩, hdistinct, hsome, hfits⟩)
    · exact ⟨Table.empty, if_pos rfl, rfl⟩
    · have hdash : [comma].intercalate texts ≠ [dash] := fun heq => by
        have hdigit := isDigit_of_head hpairs dash (by rw [heq]; rfl)
        cases hdigit
      have hloop : tableLoop gfmcodeTableMax ([comma].intercalate texts) [] = some codes :=
        (tableLoop_iff List.nodup_nil).2 ⟨texts, codes, rfl, hpairs, hfits, rfl, hdistinct⟩
      exact ⟨_, parseTable_of_loop hdash hloop (List.ne_nil_of_length_pos hsome), rfl⟩

theorem parseTable_eq_none : parseTable text = none ↔ ∀ codes, ¬Documented text codes := by
  constructor
  · intro h codes hdocumented
    obtain ⟨table, hparse, -⟩ := parseTable_iff.2 hdocumented
    cases h.symm.trans hparse
  · intro h
    cases hparse : parseTable text with
    | none => rfl
    | some table => exact absurd (parseTable_iff.1 ⟨table, hparse, rfl⟩) (h table.codes)

/-! ## The whole line

The single dash clears the table, and everything else is the loop's. -/

/-- **The parser is exact and atomic** on a line: it answers 0 to the documented form and -1 to
anything else; the table is then what the line lists, or as it was. -/
structure Exact (text : List UInt8) (table : Table) (r : Int × Table) : Prop where
  accepts : r.1 = 0 ↔ ∃ codes, Documented text codes
  holds : ∀ codes, Documented text codes → r.2.codes = codes
  refuses : r.1 ≠ 0 → r.1 = -1 ∧ r.2 = table
  answered : ∀ codes, Documented text codes → ∀ code : ℤ,
    answeredNow r.2 code = true ↔ ∃ v ∈ codes, (v : ℤ) = code

/-- **`gfmcode_set_table` is exact and atomic**, on every line and over every table. A line of the
documented form sets the table to what it lists, and any other line is refused and leaves the table.
-/
theorem gfmcodeSetTable_exact (text : List UInt8) (table : Table) :
    Exact text table (gfmcodeSetTable (some text) table) := by
  unfold gfmcodeSetTable
  rw [Option.bind_some]
  cases hparse : parseTable text with
  | none =>
    have hno := parseTable_eq_none.1 hparse
    exact ⟨⟨by rintro ⟨⟩, fun h => h.elim fun codes h => absurd h (hno codes)⟩,
        fun codes h => absurd h (hno codes),
      fun _ => ⟨rfl, rfl⟩, fun codes h => absurd h (hno codes)⟩
  | some new =>
    have hcodes : ∀ codes, Documented text codes → new.codes = codes := by
      intro codes h
      obtain ⟨table, hparse', rfl⟩ := parseTable_iff.2 h
      rw [Option.some.inj (hparse.symm.trans hparse')]
    refine ⟨⟨fun _ => ⟨new.codes, parseTable_iff.1 ⟨new, hparse, rfl⟩⟩, fun _ => rfl⟩, hcodes,
      fun h => absurd rfl h, fun codes h code => ?_⟩
    rw [← hcodes codes h]
    exact answeredNow_iff

/-! ## A job's M-code -/

/-- The core's `user_mcode_type_t`. -/
inductive UserMcodeType
  | unsupported
  | normal
  | noValueWords
deriving DecidableEq

/-- `mcodeCheck`, with the check that it was chained before, if there was one. -/
def mcodeCheck (chained : Option (ℤ → UserMcodeType)) (table : Table) (mcode : ℤ) : UserMcodeType :=
  if ours mcode then if answeredNow table mcode then .normal else .unsupported
  else
    match chained with
    | some check => check mcode
    | none => .unsupported

/-- The table after lines, from the empty one. -/
def tableAfter (lists : List (Option (List UInt8))) : Table :=
  lists.foldl (fun table list => (gfmcodeSetTable list table).2) Table.empty

theorem tableAfter_eq (lists : List (Option (List UInt8))) :
    tableAfter lists = (Lines.lastSome (·.bind parseTable) lists).getD Table.empty := by
  induction lists using List.reverseRecOn with
  | nil => rfl
  | append_singleton lists list ih =>
    have hrun : tableAfter (lists ++ [list]) = (gfmcodeSetTable list (tableAfter lists)).2 := by
      rw [tableAfter, List.foldl_append]
      rfl
    rw [hrun, Lines.lastSome_concat, gfmcodeSetTable]
    cases list.bind parseTable with
    | none => exact ih
    | some table => rfl

/-- **The last documented line has the say**: after any lines, an M-code of the range is accepted
exactly when the last one that had the form lists it. -/
theorem mcodeCheck_after (chained : Option (ℤ → UserMcodeType)) (lists : List (Option (List UInt8)))
    (code : ℤ) (hours : ours code = true) :
    mcodeCheck chained (tableAfter lists) code = .normal ↔
      ∃ before text after codes, lists = before ++ some text :: after ∧ Documented text codes ∧
        (∀ text', some text' ∈ after → ∀ codes', ¬Documented text' codes') ∧
        ∃ v ∈ codes, (v : ℤ) = code := by
  have hcheck : mcodeCheck chained (tableAfter lists) code = .normal ↔
      answeredNow (tableAfter lists) code = true := by
    unfold mcodeCheck
    rw [if_pos hours]
    cases answeredNow (tableAfter lists) code <;> simp
  rw [hcheck, answeredNow_iff, tableAfter_eq]
  constructor
  · rintro ⟨v, hv, rfl⟩
    cases hlast : Lines.lastSome (·.bind parseTable) lists with
    | none =>
      rw [hlast] at hv
      cases hv
    | some table =>
      rw [hlast] at hv
      obtain ⟨before, list, after, rfl, hlist, hafter⟩ := Lines.exists_of_lastSome hlast
      obtain ⟨text, rfl, hparse⟩ := Option.bind_eq_some_iff.1 hlist
      refine ⟨before, text, after, table.codes, rfl, parseTable_iff.1 ⟨table, hparse, rfl⟩, ?_, v, hv, rfl⟩
      exact fun text' htext' => parseTable_eq_none.1 (hafter _ htext')
  · rintro ⟨before, text, after, codes, rfl, hdocumented, hafter, hlisted⟩
    obtain ⟨table, hparse, rfl⟩ := parseTable_iff.2 hdocumented
    have hnone : ∀ list ∈ after, list.bind parseTable = none := by
      intro list hlist
      cases list with
      | none => rfl
      | some text' => exact parseTable_eq_none.2 (hafter text' hlist)
    rw [Lines.lastSome_of_forall_none hnone, Option.bind_some, hparse]
    exact hlisted

end Glowforge.Mcode
