import Mathlib.Data.List.DropRight

/-!
# Lines read in pieces

A reader with a buffer of `n` items takes a stream a piece at a time. A piece ends with the item
that ends a line, or with the item that fills the buffer, so a long line comes in several pieces.

* **`pieces`** — the pieces of a stream.
* **`filterMap_pieces`** — what is read off the pieces, line by line.
* **`pieces_of_length_le`** — a line that fits is one piece.
* **`lastSome_pieces`** — the last finding, line by line.
* **`lastSome_eq_iff`** — when two readings of the same items come to the same last finding.
-/

namespace Lines

variable {α β γ : Type} (eol : α → Bool) (n : Nat)

/-- The pieces of a stream, the items of the first of them before it. -/
def pieces : List α → List α → List (List α)
  | held, [] => if held.isEmpty then [] else [held]
  | held, a :: as =>
    if eol a || held.length + 1 == n then (held ++ [a]) :: pieces [] as else pieces (held ++ [a]) as

variable {eol n} {l held as : List α}

/-- **The pieces line by line.** A reading to which a line's end says nothing, and that finds
nothing in an empty piece, finds in a stream what it finds in the pieces of each of its lines. -/
theorem filterMap_pieces {f : List α → Option β} (hnil : f [] = none)
    (heol : ∀ l a, eol a = true → f (l ++ [a]) = f l) (held as : List α) :
    ∃ l ls, as.splitOnP eol = l :: ls ∧
      (pieces eol n held as).filterMap f =
        (pieces eol n held l).filterMap f ++ ls.flatMap fun l => (pieces eol n [] l).filterMap f := by
  induction as generalizing held with
  | nil => exact ⟨[], [], List.splitOnP_nil, (List.append_nil _).symm⟩
  | cons a as ih =>
    rw [List.splitOnP_cons_eq_if_modifyHead]
    cases ha : eol a with
    | true =>
      obtain ⟨l, ls, hsplit, hread⟩ := ih []
      refine ⟨[], l :: ls, by simp [hsplit], ?_⟩
      simp only [pieces, ha, Bool.true_or, if_true, List.filterMap_cons, heol held a ha, hread,
        List.flatMap_cons]
      cases held with
      | nil => simp [hnil]
      | cons b bs => cases hf : f (b :: bs) <;> simp [hf]
    | false =>
      cases hfull : held.length + 1 == n with
      | true =>
        obtain ⟨l, ls, hsplit, hread⟩ := ih []
        refine ⟨a :: l, ls, by simp [hsplit], ?_⟩
        simp only [pieces, ha, hfull, Bool.or_true, if_true, List.filterMap_cons, hread]
        cases f (held ++ [a]) <;> rfl
      | false =>
        obtain ⟨l, ls, hsplit, hread⟩ := ih (held ++ [a])
        refine ⟨a :: l, ls, by simp [hsplit], ?_⟩
        simpa [pieces, ha, hfull] using hread

/-- A line that fits the buffer is one piece. -/
theorem pieces_of_length_le (hline : ∀ a ∈ l, eol a = false) (hlen : held.length + l.length ≤ n) :
    pieces eol n held l = if (held ++ l).isEmpty then [] else [held ++ l] := by
  induction l generalizing held with
  | nil => simp [pieces]
  | cons a l ih =>
    have ha : eol a = false := hline a List.mem_cons_self
    have hrest : ∀ b ∈ l, eol b = false := fun b hb => hline b (List.mem_cons_of_mem a hb)
    rw [List.length_cons] at hlen
    rw [pieces, ha, Bool.false_or]
    split
    case isTrue hfull =>
      -- The buffer is full with the line's last item.
      have hnil : l = [] := List.eq_nil_of_length_eq_zero (by simp at hfull; omega)
      subst hnil
      simp [pieces]
    case isFalse hfull =>
      rw [ih hrest (by rw [List.length_append, List.length_singleton]; omega)]
      simp

/-- No line holds a line's end. -/
theorem not_eol_of_mem_splitOnP (hl : l ∈ as.splitOnP eol) : ∀ a ∈ l, eol a = false := by
  induction as generalizing l with
  | nil =>
    rw [List.splitOnP_nil, List.mem_singleton] at hl
    subst hl
    rintro _ ⟨⟩
  | cons b as ih =>
    obtain ⟨m, ls, hsplit⟩ := List.exists_cons_of_ne_nil (List.splitOnP_ne_nil eol as)
    rw [List.splitOnP_cons_eq_if_modifyHead, hsplit] at hl
    rw [hsplit] at ih
    split at hl
    case isTrue =>
      rcases List.mem_cons.1 hl with rfl | hl
      · rintro _ ⟨⟩
      · exact ih hl
    case isFalse hb =>
      rcases List.mem_cons.1 hl with rfl | hl
      · intro a ha
        rcases List.mem_cons.1 ha with rfl | ha
        · simpa using hb
        · exact ih List.mem_cons_self a ha
      · exact ih (List.mem_cons_of_mem _ hl)

/-- A line is of its stream. -/
theorem mem_of_mem_splitOnP {a : α} (hl : l ∈ as.splitOnP eol) (ha : a ∈ l) : a ∈ as := by
  induction as generalizing l with
  | nil =>
    rw [List.splitOnP_nil, List.mem_singleton] at hl
    rwa [hl] at ha
  | cons b as ih =>
    obtain ⟨m, ls, hsplit⟩ := List.exists_cons_of_ne_nil (List.splitOnP_ne_nil eol as)
    rw [List.splitOnP_cons_eq_if_modifyHead, hsplit] at hl
    rw [hsplit] at ih
    split at hl
    case isTrue =>
      rcases List.mem_cons.1 hl with rfl | hl
      · cases ha
      · exact List.mem_cons_of_mem b (ih hl ha)
    case isFalse =>
      rcases List.mem_cons.1 hl with rfl | hl
      · rcases List.mem_cons.1 ha with rfl | ha
        · exact List.mem_cons_self
        · exact List.mem_cons_of_mem b (ih List.mem_cons_self ha)
      · exact List.mem_cons_of_mem b (ih (List.mem_cons_of_mem _ hl) ha)

/-! ## The last finding

A reader that goes on and keeps what it finds last. Its result is the last piece's that has one, so
two readings agree where they agree on the deciding piece. -/

/-- What a reading finds last. -/
def lastSome (f : α → Option β) (as : List α) : Option β := as.reverse.findSome? f

variable {f g : α → Option β} {bs cs : List α} {a : α}

theorem lastSome_append :
    lastSome f (bs ++ cs) = (lastSome f cs).or (lastSome f bs) := by
  rw [lastSome, List.reverse_append, List.findSome?_append]
  rfl

theorem lastSome_concat : lastSome f (bs ++ [a]) = (f a).or (lastSome f bs) := by
  rw [lastSome_append]
  cases h : f a <;> simp [lastSome, h]

theorem lastSome_eq_none : lastSome f as = none ↔ ∀ a ∈ as, f a = none := by
  simp [lastSome, List.findSome?_eq_none_iff]

theorem lastSome_of_forall_none (h : ∀ a ∈ cs, f a = none) :
    lastSome f (bs ++ a :: cs) = (f a).or (lastSome f bs) := by
  rw [List.append_cons, lastSome_append, lastSome_eq_none.2 h, Option.none_or, lastSome_concat]

/-- A finding that is the last one: the item, and what stands before and behind it. -/
theorem exists_of_lastSome {v : β} (h : lastSome f as = some v) :
    ∃ before a after, as = before ++ a :: after ∧ f a = some v ∧ ∀ b ∈ after, f b = none := by
  induction as using List.reverseRecOn with
  | nil => cases h
  | append_singleton as a ih =>
    rw [lastSome_concat] at h
    cases hf : f a with
    | some w =>
      rw [hf] at h
      exact ⟨as, a, [], rfl, hf.trans h, by rintro _ ⟨⟩⟩
    | none =>
      rw [hf] at h
      obtain ⟨before, b, after, rfl, hb, hafter⟩ := ih h
      refine ⟨before, b, after ++ [a], by simp, hb, fun c hc => ?_⟩
      rcases List.mem_append.1 hc with hc | hc
      · exact hafter c hc
      · rw [List.mem_singleton.1 hc, hf]

/-- What a reading finds last in the pieces is what it finds last in the pieces of the lines. -/
theorem lastSome_pieces {f : List α → Option β} (hnil : f [] = none)
    (heol : ∀ l a, eol a = true → f (l ++ [a]) = f l) (as : List α) :
    lastSome f (pieces eol n [] as) =
      lastSome (fun l => lastSome f (pieces eol n [] l)) (as.splitOnP eol) := by
  obtain ⟨l, ls, hsplit, hread⟩ := filterMap_pieces (n := n) hnil heol [] as
  have hlast : ∀ ms : List (List α), lastSome f ms = (ms.filterMap f).getLast? := fun ms =>
    List.getLast?_filterMap.symm
  have hlines : (pieces eol n [] as).filterMap f =
      (l :: ls).flatMap fun l => (pieces eol n [] l).filterMap f := by
    rw [hread, List.flatMap_cons]
  have hpieces : (fun l => lastSome f (pieces eol n [] l)) =
      fun l => ((pieces eol n [] l).filterMap f).getLast? := funext fun m => hlast _
  rw [hlast, hlines, List.getLast?_flatMap, hsplit, hpieces]
  rfl

/-- The last item that one of two readings finds something in, behind `before`, has them come to
the same: both find the same in it, or what one of them finds in it the other found before. -/
def Alike (same : β → γ) (f g : α → Option β) (before : List α) (a : α) : Prop :=
  match f a, g a with
  | some v, some w => same v = same w
  | some v, none => (lastSome g before).map same = some (same v)
  | none, some w => (lastSome f before).map same = some (same w)
  | none, none => True

/-- **Two readings** come to the same last finding exactly when they do so in the last item that
either of them finds something in. -/
theorem lastSome_eq_iff (same : β → γ) :
    (lastSome f as).map same = (lastSome g as).map same ↔
      ∀ before a after, as = before ++ a :: after → (∀ b ∈ after, f b = none ∧ g b = none) →
        Alike same f g before a := by
  constructor
  · rintro h before a after rfl hafter
    rw [lastSome_of_forall_none fun b hb => (hafter b hb).1,
      lastSome_of_forall_none fun b hb => (hafter b hb).2] at h
    unfold Alike
    cases hf : f a <;> cases hg : g a <;> simp_all
  · intro h
    induction as using List.reverseRecOn with
    | nil => rfl
    | append_singleton as a ih =>
      have hlast : Alike same f g as a := h as a [] rfl (by rintro _ ⟨⟩)
      rw [lastSome_concat, lastSome_concat]
      unfold Alike at hlast
      cases hf : f a with
      | some v =>
        rw [hf] at hlast
        cases hg : g a with
        | some w =>
          rw [hg] at hlast
          exact congrArg some hlast
        | none =>
          rw [hg] at hlast
          exact hlast.symm
      | none =>
        rw [hf] at hlast
        cases hg : g a with
        | some w =>
          rw [hg] at hlast
          exact hlast
        | none =>
          refine ih fun before b after has hafter => ?_
          refine h before b (after ++ [a]) (by simp [has]) fun c hc => ?_
          rcases List.mem_append.1 hc with hc | hc
          · exact hafter c hc
          · rw [List.mem_singleton.1 hc]
            exact ⟨hf, hg⟩

end Lines
