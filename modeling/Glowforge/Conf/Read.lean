import Glowforge.Lib.Pieces

/-!
# Glowforge — the reader of the shared config (`glowforge_io.c`)

The machine's config is a file of lines `key = value`, with comments behind a `#`. Every limit that
an operator has set comes out of it through one reader, which takes the file through a buffer of
256 bytes:

* **`gfioConfRead`** — the reader: it goes through the whole file, and keeps the last value.
* **`Gives`** — what a line says of a key, in the format's own words.
* **`ByLines`** — the format's law: the file is its lines, and the last one that names the key has
  the say.
* **`read_by_lines`** — the reader keeps the law exactly when the last line that says something of
  the key, whole or in one of its pieces, is read alike.
* **`lastAlike_of_fit`** — a file whose lines fit the buffer is read alike.
* **`comment_sets_key`** — a long comment whose tail sets a key.

A file is its bytes, a C string is what stands before its zero, and the locale is C's.
-/

namespace Glowforge.Conf

/-! ## The reader

`fgets` takes the file in pieces of at most 255 bytes, and each piece is parsed as if it were a
line. The bytes of a piece go through the C string's end, the comment's start, the first `=` and the
trims, in the source's order. -/

def newline : UInt8 := 10

def hash : UInt8 := 35

def equals : UInt8 := 61

/-- `isspace`: a blank, or one of the controls from the tab to the carriage return. -/
def isspace (c : UInt8) : Bool := c == 32 || (9 ≤ c && c ≤ 13)

/-- The string that a buffer holds. -/
def cString (buffer : List UInt8) : List UInt8 := buffer.takeWhile (· != 0)

def trimLeft (s : List UInt8) : List UInt8 := s.dropWhile isspace

def trimRight (s : List UInt8) : List UInt8 := s.rdropWhile isspace

/-- What one `fgets` has read: the key and the value, unless it is a comment, blank, or has no `=`. -/
def entry (line : List UInt8) : Option (List UInt8 × List UInt8) :=
  let p := trimLeft (cString line)
  if p.head? = some hash ∨ p = [] then none
  else if equals ∈ p then
    some (trimRight (p.takeWhile (· != equals)),
      trimRight (trimLeft (p.dropWhile (· != equals)).tail))
  else none

/-- What it has read of one key. -/
def valueOf (key line : List UInt8) : Option (List UInt8) :=
  match entry line with
  | some (k, v) => if k = key then some v else none
  | none => none

/-- `snprintf(val, len, "%s", v)`. -/
def snprintf (len : Nat) (v val : List UInt8) : List UInt8 :=
  if len = 0 then val else v.take (len - 1)

/-- The bytes of `line` but its last, which ends the string. -/
def lineBytes : Nat := 255

/-- What `fgets` reads of a file, call after call. -/
def fgets (file : List UInt8) : List (List UInt8) := Lines.pieces (· == newline) lineBytes [] file

/-- A turn of the reader's loop, on its answer and the caller's string. -/
def confLine (key : List UInt8) (len : Nat) (r : Int × List UInt8) (line : List UInt8) :
    Int × List UInt8 :=
  match valueOf key line with
  -- Keep scanning: the last occurrence wins.
  | some v => (0, snprintf len v r.2)
  | none => r

/-- `gfio_conf_read`; `none` is a file that does not open. -/
def gfioConfRead (file : Option (List UInt8)) (key : List UInt8) (len : Nat) (val : List UInt8) :
    Int × List UInt8 :=
  match file with
  | none => (-1, val)
  | some file => (fgets file).foldl (confLine key len) (-1, val)

/-! ## The format

What the file means, stated with no buffer in sight: lines end at a newline, and a line gives a key
its value. -/

/-- The lines of a file, without what ends them. -/
def lines (file : List UInt8) : List (List UInt8) := file.splitOn newline

/-- **A line gives a key a value.** Behind its leading space it is no comment, what stands before
its first `=` is the key and space, and what stands behind it is the value between space. -/
def Gives (key value line : List UInt8) : Prop :=
  ∃ left right, trimLeft line = left ++ equals :: right ∧ equals ∉ left ∧
    (trimLeft line).head? ≠ some hash ∧ trimRight left = key ∧
    value = trimRight (trimLeft right)

/-- **The law of the format**, for an answer of the reader: the key is found exactly when a line
gives it a value, and the value is that of the last such line, cut to the caller's string. -/
structure ByLines (file key : List UInt8) (len : Nat) (r : Int × List UInt8) : Prop where
  found : r.1 = 0 ↔ ∃ line ∈ lines file, ∃ value, Gives key value line
  last : ∀ before line after value, lines file = before ++ line :: after → Gives key value line →
    (∀ other ∈ after, ∀ w, ¬Gives key w other) → r.2 = value.take (len - 1)

/-! ## One line

A line that fits a piece is read as the format reads it: the newline at its end is trimmed away, and
whatever follows a `#` is not there. -/

variable {key value line file : List UInt8} {len : Nat}

theorem takeWhile_dropWhile_of_not_mem {left : List UInt8} (h : equals ∉ left) (right : List UInt8) :
    (left ++ equals :: right).takeWhile (· != equals) = left ∧
      ((left ++ equals :: right).dropWhile (· != equals)).tail = right := by
  have hleft : ∀ c ∈ left, (c != equals) = true := fun c hc => bne_iff_ne.2 fun heq => h (heq ▸ hc)
  constructor
  · rw [List.takeWhile_append_of_pos hleft, List.takeWhile_cons_of_neg (by simp), List.append_nil]
  · rw [List.dropWhile_append_of_pos hleft, List.dropWhile_cons_of_neg (by simp), List.tail_cons]

/-- A line has no zero, and is its own string. -/
theorem cString_of_not_mem (h : 0 ∉ line) : cString line = line :=
  List.takeWhile_eq_self_iff.2 fun _ hc => bne_iff_ne.2 fun heq => h (heq ▸ hc)

/-- The reader takes a line as the format has it, when it has the line whole. -/
theorem valueOf_eq_some (hzero : 0 ∉ line) : valueOf key line = some value ↔ Gives key value line := by
  unfold valueOf entry Gives
  simp only [cString_of_not_mem hzero]
  constructor
  · intro h
    by_cases hblank : (trimLeft line).head? = some hash ∨ trimLeft line = []
    · rw [if_pos hblank] at h
      cases h
    rw [if_neg hblank] at h
    by_cases heq : equals ∈ trimLeft line
    · obtain ⟨left, right, hsplit, hleft⟩ := List.eq_append_cons_of_mem heq
      obtain ⟨htake, hdrop⟩ := takeWhile_dropWhile_of_not_mem hleft right
      rw [if_pos heq, hsplit, htake, hdrop] at h
      dsimp only at h
      split at h
      case isTrue hkey =>
        exact ⟨left, right, hsplit, hleft, fun hhash => hblank (.inl hhash), hkey,
          (Option.some.inj h).symm⟩
      case isFalse => cases h
    · rw [if_neg heq] at h
      cases h
  · rintro ⟨left, right, hsplit, hleft, hhash, rfl, rfl⟩
    obtain ⟨htake, hdrop⟩ := takeWhile_dropWhile_of_not_mem hleft right
    have hblank : ¬((trimLeft line).head? = some hash ∨ trimLeft line = []) :=
      not_or.2 ⟨hhash, by simp [hsplit]⟩
    rw [if_neg hblank, hsplit, if_pos (List.mem_append_right _ List.mem_cons_self), htake, hdrop]
    exact if_pos rfl

theorem trimRight_newline (s : List UInt8) : trimRight (s ++ [newline]) = trimRight s :=
  List.rdropWhile_concat_pos _ _ _ (by decide)

theorem trimLeft_newline (s : List UInt8) :
    trimLeft (s ++ [newline]) = if trimLeft s = [] then [] else trimLeft s ++ [newline] := by
  have hspace : isspace newline = true := by decide
  unfold trimLeft
  rw [List.dropWhile_append]
  simp [hspace]

theorem trim_newline (s : List UInt8) :
    trimRight (trimLeft (s ++ [newline])) = trimRight (trimLeft s) := by
  rw [trimLeft_newline]
  split
  case isTrue h => rw [h]
  case isFalse => exact trimRight_newline _

theorem cString_newline_of_mem {line : List UInt8} (hzero : 0 ∈ line) :
    cString (line ++ [newline]) = cString line := by
  obtain ⟨s, t, rfl, hs⟩ := List.eq_append_cons_of_mem hzero
  have hne : ∀ c ∈ s, (c != 0) = true := fun c hc => bne_iff_ne.2 fun heq => hs (heq ▸ hc)
  unfold cString
  rw [List.append_assoc, List.takeWhile_append_of_pos hne, List.takeWhile_append_of_pos hne]
  simp

/-- A line's end says nothing: it is space behind the value, or behind what is no entry. -/
theorem entry_newline (line : List UInt8) : entry (line ++ [newline]) = entry line := by
  unfold entry
  by_cases hzero : 0 ∈ line
  · -- The string ends before the line does.
    rw [cString_newline_of_mem hzero]
  rw [cString_of_not_mem hzero, cString_of_not_mem (by simp [hzero, newline]), trimLeft_newline]
  by_cases hnil : trimLeft line = []
  · simp [hnil]
  rw [if_neg hnil]
  have hhead : (trimLeft line ++ [newline]).head? = (trimLeft line).head? :=
    List.head?_append_of_ne_nil _ hnil
  by_cases heq : equals ∈ trimLeft line
  · obtain ⟨left, right, hsplit, hnot⟩ := List.eq_append_cons_of_mem heq
    obtain ⟨htake, hdrop⟩ := takeWhile_dropWhile_of_not_mem hnot right
    obtain ⟨htake', hdrop'⟩ := takeWhile_dropWhile_of_not_mem hnot (right ++ [newline])
    simp only [hhead, hnil, heq, List.append_eq_nil_iff, false_and, if_true, List.mem_append, true_or]
    rw [hsplit, List.append_assoc, List.cons_append, htake, hdrop, htake', hdrop', trim_newline]
  · have heq' : equals ∉ trimLeft line ++ [newline] := fun h =>
      (List.mem_append.1 h).elim heq (by decide)
    simp only [heq, heq', if_false, ite_self]

theorem valueOf_newline (key line : List UInt8) : valueOf key (line ++ [newline]) = valueOf key line := by
  rw [valueOf, entry_newline, valueOf]

/-! ## The file

The reader keeps the last piece that names the key, the law keeps the last line. Both are a last
finding, so they agree exactly when the deciding line is read alike in its pieces. -/

/-- What the reader gets of a line for a key: the last that one of the line's pieces gives it. -/
def pieceValue (key line : List UInt8) : Option (List UInt8) :=
  Lines.lastSome (valueOf key) (fgets line)

theorem read_eq (val : List UInt8) :
    gfioConfRead (some file) key len val =
      match Lines.lastSome (valueOf key) (fgets file) with
      | none => (-1, val)
      | some v => (0, snprintf len v val) := by
  rw [gfioConfRead]
  generalize fgets file = pieces
  induction pieces using List.reverseRecOn with
  | nil => rfl
  | append_singleton pieces piece ih =>
    rw [List.foldl_append, List.foldl_cons, List.foldl_nil, ih, confLine, Lines.lastSome_concat]
    cases valueOf key piece with
    | none => rfl
    | some v =>
      cases Lines.lastSome (valueOf key) pieces with
      | none => rfl
      | some w =>
        refine congrArg (Prod.mk 0) ?_
        dsimp only
        unfold snprintf
        split <;> rfl

theorem lastSome_fgets (key file : List UInt8) :
    Lines.lastSome (valueOf key) (fgets file) = Lines.lastSome (pieceValue key) (lines file) :=
  Lines.lastSome_pieces (by rfl) (fun l a ha => by rw [beq_iff_eq.1 ha, valueOf_newline]) file

/-- A line that fits the buffer is read as it stands. -/
theorem pieceValue_of_length_le (hline : newline ∉ line) (hlen : line.length ≤ lineBytes) :
    pieceValue key line = valueOf key line := by
  have hpieces : fgets line = if ([] ++ line).isEmpty then [] else [[] ++ line] :=
    Lines.pieces_of_length_le (fun a ha => beq_eq_false_iff_ne.2 fun heq => hline (heq ▸ ha))
      (by simpa using hlen)
  rw [pieceValue, hpieces]
  cases line with
  | nil => rfl
  | cons c cs => cases h : valueOf key (c :: cs) <;> simp [Lines.lastSome, h]

/-- A line of a file has no zero either. -/
theorem valueOf_eq_some_of_mem (hzero : 0 ∉ file) (hline : line ∈ lines file) :
    valueOf key line = some value ↔ Gives key value line :=
  valueOf_eq_some fun h => hzero (Lines.mem_of_mem_splitOnP hline h)

/-- A result by the last value that the file's lines give the key. -/
def ByLast (len : Nat) (r : Int × List UInt8) : Option (List UInt8) → Prop
  | none => r.1 ≠ 0
  | some v => r.1 = 0 ∧ r.2 = v.take (len - 1)

/-- The law by the last line that gives the key a value. -/
theorem byLines_iff_last (hzero : 0 ∉ file) {r : Int × List UInt8} :
    ByLines file key len r ↔ ByLast len r (Lines.lastSome (valueOf key) (lines file)) := by
  have hgives : ∀ line ∈ lines file, ∀ v, valueOf key line = some v ↔ Gives key v line :=
    fun line hline v => valueOf_eq_some_of_mem hzero hline
  have hnone : ∀ line ∈ lines file, valueOf key line = none ↔ ∀ v, ¬Gives key v line := by
    intro line hline
    rw [Option.eq_none_iff_forall_ne_some]
    exact forall_congr' fun v => not_congr (hgives line hline v)
  cases hlast : Lines.lastSome (valueOf key) (lines file) with
  | none =>
    have hno : ∀ line ∈ lines file, ∀ v, ¬Gives key v line := fun line hline =>
      (hnone line hline).1 (Lines.lastSome_eq_none.1 hlast line hline)
    constructor
    · rintro ⟨hfound, -⟩ hr
      obtain ⟨line, hline, v, hv⟩ := hfound.1 hr
      exact hno line hline v hv
    · intro hr
      refine ⟨⟨fun h => absurd h hr, fun hgiven => ?_⟩, ?_⟩
      · obtain ⟨line, hline, v, hv⟩ := hgiven
        exact absurd hv (hno line hline v)
      intro before line after v hsplit hv
      exact absurd hv (hno line (by simp [hsplit]) v)
  | some v =>
    obtain ⟨before, line, after, hsplit, hv, hafter⟩ := Lines.exists_of_lastSome hlast
    have hline : line ∈ lines file := by simp [hsplit]
    have hothers : ∀ other ∈ after, ∀ w, ¬Gives key w other := fun other hother =>
      (hnone other (by simp [hsplit, hother])).1 (hafter other hother)
    constructor
    · rintro ⟨hfound, hval⟩
      exact ⟨hfound.2 ⟨line, hline, v, (hgives line hline v).1 hv⟩,
        hval before line after v hsplit ((hgives line hline v).1 hv) hothers⟩
    · rintro ⟨hfound, hval⟩
      refine ⟨⟨fun _ => ⟨line, hline, v, (hgives line hline v).1 hv⟩, fun _ => hfound⟩, ?_⟩
      intro before' line' after' w hsplit' hw hothers'
      have hline' : line' ∈ lines file := by simp [hsplit']
      -- The two are the last line.
      have hlast' : Lines.lastSome (valueOf key) (before' ++ line' :: after') =
          (valueOf key line').or (Lines.lastSome (valueOf key) before') :=
        Lines.lastSome_of_forall_none fun other hother =>
          (hnone other (by simp [hsplit', hother])).2 (hothers' other hother)
      rw [← hsplit', hlast, (hgives line' hline' w).2 hw] at hlast'
      rw [hval, Option.some.inj hlast']

/-- The reader keeps the law exactly when the pieces of the lines come to what the lines do. -/
theorem byLines_iff (hzero : 0 ∉ file) (hlen : 0 < len) (val : List UInt8) :
    ByLines file key len (gfioConfRead (some file) key len val) ↔
      (Lines.lastSome (pieceValue key) (lines file)).map (·.take (len - 1)) =
        (Lines.lastSome (valueOf key) (lines file)).map (·.take (len - 1)) := by
  rw [byLines_iff_last hzero, read_eq, lastSome_fgets]
  have hcut : ∀ v, snprintf len v val = v.take (len - 1) := fun v => if_neg (Nat.ne_of_gt hlen)
  cases Lines.lastSome (pieceValue key) (lines file) with
  | none => cases Lines.lastSome (valueOf key) (lines file) <;> simp [ByLast]
  | some v => cases Lines.lastSome (valueOf key) (lines file) <;> simp [ByLast, hcut]

/-- **A line is read alike** behind the lines before it: its pieces give the key the value that
the line gives it, as far as the caller's string takes it; or only one of the two gives it a value,
and the lines before it come to the same by the other. -/
abbrev Alike (key : List UInt8) (len : Nat) : List (List UInt8) → List UInt8 → Prop :=
  Lines.Alike (fun v : List UInt8 => v.take (len - 1)) (pieceValue key) (valueOf key)

/-- The last line that says something of the key, whole or in a piece, is read alike. -/
def LastAlike (file key : List UInt8) (len : Nat) : Prop :=
  ∀ before line after, lines file = before ++ line :: after →
    (∀ other ∈ after, pieceValue key other = none ∧ valueOf key other = none) →
      Alike key len before line

/-- **Lines that fit.** A file none of whose lines is longer than the buffer holds is read alike. -/
theorem lastAlike_of_fit (hfit : ∀ line ∈ lines file, line.length ≤ lineBytes) :
    LastAlike file key len := by
  intro before line after hsplit _
  have hline : line ∈ lines file := by simp [hsplit]
  have hnewline : newline ∉ line := fun h => by
    simpa using Lines.not_eol_of_mem_splitOnP hline newline h
  unfold Alike Lines.Alike
  rw [pieceValue_of_length_le hnewline (hfit line hline)]
  cases valueOf key line <;> trivial

/-- **The reader keeps the law of the format** exactly when the last line that says something of
the key is read alike. -/
theorem read_by_lines (file key val : List UInt8) (len : Nat) (hzero : 0 ∉ file) (hlen : 0 < len) :
    ByLines file key len (gfioConfRead (some file) key len val) ↔ LastAlike file key len :=
  (byLines_iff hzero hlen val).trans (Lines.lastSome_eq_iff _)

/-- A file of a comment and of a line with space at both its ends, without a final newline. -/
theorem read_by_lines_short :
    ByLines [35, 107, 10, 32, 107, 61, 49, 32] [107] 32
      (gfioConfRead (some [35, 107, 10, 32, 107, 61, 49, 32]) [107] 32 []) :=
  (read_by_lines [35, 107, 10, 32, 107, 61, 49, 32] [107] [] 32 (by simp) (by decide)).2
    (lastAlike_of_fit (by decide +kernel))

/-- A comment of 255 bytes and four more: `k=1`. -/
def longComment : List UInt8 := hash :: List.replicate 254 97 ++ [107, 61, 49, newline]

/-- **A comment sets a key.** The tail of a comment is a piece of its own. -/
theorem comment_sets_key :
    ¬∀ (file key val : List UInt8) (len : Nat), 0 ∉ file → 0 < len →
      ByLines file key len (gfioConfRead (some file) key len val) := by
  intro h
  have hzero : 0 ∉ longComment := by decide +kernel
  have hread : (gfioConfRead (some longComment) [107] 32 []).1 = 0 := by decide +kernel
  obtain ⟨line, hline, v, hv⟩ := (h longComment [107] [] 32 hzero (by decide)).found.1 hread
  have hno : ∀ line ∈ lines longComment, valueOf [107] line = none := by decide +kernel
  have hsome := (valueOf_eq_some_of_mem hzero hline).2 hv
  rw [hno line hline] at hsome
  cases hsome

end Glowforge.Conf
