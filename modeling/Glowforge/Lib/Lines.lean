import Mathlib.Data.List.DropRight

/-!
# Lines of a stream

A stream of items is cut into lines by the items that end one. A line is what lies between two
such items, and it may be empty; what follows the last of them is not a line yet.

* **`cut`** — the lines so far and the rest behind them.
* **`lines_concat`**, **`rest_concat`** — what one more item does.
* **`lines_prefix`** — a longer stream only adds lines.
* **`lines_unwrite`**, **`rest_unwrite`** — a stream that is taken back to its last line's end
  keeps its lines.
-/

namespace Lines

variable {α : Type} (eol : α → Bool)

/-- One more item: it ends the line, or goes into it. -/
def extend (c : List (List α) × List α) (a : α) : List (List α) × List α :=
  if eol a then (c.1 ++ [c.2], []) else (c.1, c.2 ++ [a])

/-- The complete lines of a stream, and what follows them. -/
def cut (as : List α) : List (List α) × List α := as.foldl (extend eol) ([], [])

def lines (as : List α) : List (List α) := (cut eol as).1

def rest (as : List α) : List α := (cut eol as).2

variable {eol} {as bs : List α} {a : α}

theorem cut_concat : cut eol (as ++ [a]) = extend eol (cut eol as) a := by
  rw [cut, List.foldl_append]
  rfl

theorem lines_concat :
    lines eol (as ++ [a]) = if eol a then lines eol as ++ [rest eol as] else lines eol as := by
  rw [lines, cut_concat, extend]
  split <;> rfl

theorem rest_concat : rest eol (as ++ [a]) = if eol a then [] else rest eol as ++ [a] := by
  rw [rest, cut_concat, extend]
  split <;> rfl

theorem lines_prefix (as bs : List α) : lines eol as <+: lines eol (as ++ bs) := by
  induction bs using List.reverseRecOn with
  | nil => exact (List.append_nil as).symm ▸ List.prefix_rfl
  | append_singleton bs b ih =>
    rw [← List.append_assoc, lines_concat]
    split
    · exact ih.trans (List.prefix_append _ _)
    · exact ih

/-- A stream has nothing behind its lines exactly when it is empty or ends with a line's end. -/
theorem rest_eq_nil : rest eol as = [] ↔ ∀ a ∈ as.getLast?, eol a = true := by
  induction as using List.reverseRecOn with
  | nil => simp [rest, cut]
  | append_singleton as a _ =>
    rw [rest_concat, List.getLast?_concat]
    split <;> simp_all

/-- Items that end no line add none. -/
theorem lines_append_of_forall (h : ∀ b ∈ bs, eol b = false) :
    lines eol (as ++ bs) = lines eol as := by
  induction bs using List.reverseRecOn with
  | nil => rw [List.append_nil]
  | append_singleton bs b ih =>
    have hb : eol b = false := h b (List.mem_append_right _ List.mem_cons_self)
    rw [← List.append_assoc, lines_concat, if_neg (by simp [hb])]
    exact ih fun c hc => h c (List.mem_append_left _ hc)

/-- **Unwriting** a queue back to its last line's end loses no line of what was taken off it
before and of what it holds. -/
theorem lines_unwrite (as bs : List α) :
    lines eol (as ++ bs.rdropWhile fun b => !eol b) = lines eol (as ++ bs) := by
  induction bs using List.reverseRecOn with
  | nil => rfl
  | append_singleton bs b ih =>
    cases hb : eol b with
    | true => rw [List.rdropWhile_concat_neg _ _ _ (by simp [hb])]
    | false =>
      rw [List.rdropWhile_concat_pos _ _ _ (by simp [hb]), ih, ← List.append_assoc]
      exact (lines_append_of_forall (by simp [hb])).symm

/-- What an unwriting leaves ends with a line's end, or is empty. -/
theorem eol_of_unwrite {bs : List α} : ∀ b ∈ (bs.rdropWhile fun b => !eol b).getLast?, eol b = true := by
  induction bs using List.reverseRecOn with
  | nil => rintro _ ⟨⟩
  | append_singleton bs b ih =>
    cases hb : eol b with
    | true =>
      rw [List.rdropWhile_concat_neg _ _ _ (by simp [hb]), List.getLast?_concat]
      rintro c ⟨⟩
      exact hb
    | false =>
      rw [List.rdropWhile_concat_pos _ _ _ (by simp [hb])]
      exact ih

/-- Behind an unwritten queue nothing of a line is left, unless the queue is empty and something
was taken off it. -/
theorem rest_unwrite (h : bs.rdropWhile (fun b => !eol b) = [] → rest eol as = []) :
    rest eol (as ++ bs.rdropWhile fun b => !eol b) = [] := by
  cases hq : bs.rdropWhile (fun b => !eol b) with
  | nil =>
    rw [List.append_nil]
    exact h hq
  | cons c cs =>
    rw [rest_eq_nil, List.getLast?_append_of_ne_nil _ (List.cons_ne_nil c cs), ← hq]
    exact eol_of_unwrite

end Lines
