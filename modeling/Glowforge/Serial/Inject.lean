import Glowforge.Lib.Runs
import Glowforge.Serial.Rx

/-!
# Glowforge — an injected line is transparent to the sender

An injected line's bytes are the next ones the core reads, so the flags that count them tell
whose line the core runs. The argument is one invariant, **`Routed`**:

* the ring holds what is left of the injected line, up to its end-of-line byte, and behind it
  the sender's bytes (**`Queued`**);
* `inj_status_due` says that the core runs the injected line;
* the parser error is the sender's own, and so is the saved one once the line is being read.

A flush that comes while the core runs the injected line clears `inj_status_due` without
stopping the line, and a welcome resets a parser error that the line's status then puts back.

* **`injection_transparent`** — without these two, every injected line's status is delivered
  once and to its source, the sender's chain has one status per sender line, and the parser
  error is the sender's.
-/

namespace Glowforge.Serial

open Function (update)

/-! ## The ring

The injected line's bytes lie ahead of all of the sender's, since the line goes into an empty ring. -/

/-- `Queued k n ring`: what is left of the injected line `k` are the ring's first `n` bytes,
the last of them its end of line, and the rest is the sender's. -/
inductive Queued (k : Nat) : Nat → List Cell → Prop where
  | sender {cs : List Cell} (hcs : ∀ c ∈ cs, c.owner = none) : Queued k 0 cs
  | eol {c : Cell} {cs : List Cell} (he : isEol c.byte = true) (ho : c.owner = some k)
      (hcs : ∀ c ∈ cs, c.owner = none) : Queued k 1 (c :: cs)
  | byte {c : Cell} {n : Nat} {cs : List Cell} (he : isEol c.byte = false)
      (ho : c.owner = some k) (h : Queued k (n + 1) cs) : Queued k (n + 2) (c :: cs)

theorem Queued.nil (k : Nat) : Queued k 0 [] := .sender (by simp)

/-- The sender's next byte goes behind. -/
theorem Queued.append {k n : Nat} {cs : List Cell} {d : Cell} (h : Queued k n cs)
    (hd : d.owner = none) : Queued k n (cs ++ [d]) := by
  have hcons : ∀ {cs : List Cell}, (∀ c ∈ cs, c.owner = none) → ∀ c ∈ cs ++ [d], c.owner = none := by
    intro cs hcs c hc
    rcases List.mem_append.mp hc with hc | hc
    · exact hcs c hc
    · rw [List.mem_singleton.mp hc, hd]
  induction h with
  | sender hcs => exact .sender (hcons hcs)
  | eol he ho hcs => exact .eol he ho (hcons hcs)
  | byte he ho _ ih => exact .byte he ho ih

theorem rdropWhile_cons {α : Type} (p : α → Bool) (c : α) (cs : List α) :
    (c :: cs).rdropWhile p = if cs.rdropWhile p = [] then [c].rdropWhile p
      else c :: cs.rdropWhile p := by
  simp only [List.rdropWhile, List.reverse_cons, List.dropWhile_append, List.reverse_eq_nil_iff,
    List.isEmpty_iff]
  split
  · rfl
  · rw [List.reverse_append, List.reverse_singleton]
    rfl

/-- An overrun unwrites the sender's bytes at most: it stops at the injected line's end. -/
theorem Queued.unwrite {k n : Nat} {cs : List Cell} (h : Queued k n cs) :
    Queued k n (cs.rdropWhile fun c => !isEol c.byte) := by
  have hsub : ∀ cs : List Cell, (∀ c ∈ cs, c.owner = none) →
      ∀ c ∈ cs.rdropWhile (fun c => !isEol c.byte), c.owner = none := fun cs hcs c hc =>
    hcs c ((List.rdropWhile_prefix _ cs).subset hc)
  induction h with
  | sender hcs => exact .sender (hsub _ hcs)
  | @eol c cs he ho hcs =>
    have hkeep : (c :: cs).rdropWhile (fun c => !isEol c.byte) =
        c :: cs.rdropWhile fun c => !isEol c.byte := by
      rw [rdropWhile_cons]
      split
      · next hnil =>
        rw [hnil]
        simp [List.rdropWhile, he]
      · rfl
    rw [hkeep]
    exact .eol he ho (hsub _ hcs)
  | @byte c n cs he ho _ ih =>
    rw [rdropWhile_cons, if_neg (by rintro hnil; rw [hnil] at ih; cases ih)]
    exact .byte he ho ih

/-- A line that has just been injected. -/
theorem Queued.inject {k : Nat} {line : List UInt8} {e : UInt8} (he : isEol e = true)
    (hline : ∀ b ∈ line, isEol b = false) :
    Queued k (line.length + 1) (line.map (Cell.mk · (some k)) ++ [Cell.mk e (some k)]) := by
  induction line with
  | nil => exact .eol he rfl (by simp)
  | cons b bs ih =>
    exact .byte (hline b List.mem_cons_self) rfl
      (ih fun b hb => hline b (List.mem_cons_of_mem _ hb))

/-! ## The lines

What the core has read of each line, and what was reported for it. -/

/-- A line that its source has heard the end of, once: its status, or that it was flushed. -/
def Line.Closed (l : Line) : Prop :=
  (∃ status, l = ⟨some status, [some status]⟩) ∨ l = ⟨none, [none]⟩

/-- Every line is closed but the one in flight, which its source has heard nothing of. -/
structure Told (n : Nat) (active : Bool) (lines : Nat → Line) : Prop where
  pos : active = true → 0 < n
  current : active = true → lines (n - 1) = ⟨none, []⟩
  closed : ∀ k, k < n → (k + 1 = n → active = false) → (lines k).Closed

theorem Told.inject {n : Nat} {lines : Nat → Line} (h : Told n false lines) :
    Told (n + 1) true (update lines n ⟨none, []⟩) where
  pos := fun _ => Nat.succ_pos n
  current := fun _ => by rw [Nat.add_sub_cancel, Function.update_self]
  closed := by
    intro k hk hlast
    have hlt : k < n := by
      by_contra hge
      exact absurd (hlast (by omega)) (by decide)
    rw [Function.update_of_ne (by omega)]
    exact h.closed k hlt fun _ => rfl

theorem Told.close {n : Nat} {lines : Nat → Line} {l : Line} (h : Told n true lines)
    (hl : l.Closed) : Told n false (update lines (n - 1) l) where
  pos := (by rintro ⟨⟩)
  current := (by rintro ⟨⟩)
  closed := by
    intro k hk _
    by_cases heq : k = n - 1
    · rw [heq, Function.update_self]
      exact hl
    · rw [Function.update_of_ne heq]
      exact h.closed k hk fun hlast => absurd hlast (by omega)

/-! ## The invariant

The ring, the flags and the parser error, for a core between two lines and inside one. -/

structure Routed (s : Rx) : Prop where
  ring : Queued (s.injected - 1) s.injLeft s.ring
  eol : isEol s.senderEol = true
  left : 0 < s.injLeft → s.injActive = true ∧ s.injStatusDue = false
  due : s.injStatusDue = true → s.injActive = true ∧
    ∃ r, s.running = some r ∧ r.owner = some (s.injected - 1)
  active : s.injActive = true → s.injLeft = 0 → s.injStatusDue = true
  runs : ∀ r k, s.running = some r → r.owner = some k → s.injStatusDue = true
  saved : s.injActive = true → s.injFirst = false → s.injSavedError = s.held
  first : 0 < s.injLeft → s.injFirst = true → 2 ≤ s.injLeft
  read : s.injStatusDue = true → s.injFirst = false
  fresh : ∀ r, s.running = some r → r.owner = none → s.injActive = true → s.injFirst = true
  mid : 0 < s.injLeft → s.injFirst = false → s.coreMidline = true
  error : s.lastError = s.held
  entry : ∀ r, s.running = some r → r.entry = r.heldEntry
  chain : s.chain = s.senderLines
  told : Told s.injected s.injActive s.lines

theorem routed_start : Routed Rx.start where
  ring := .nil _
  eol := rfl
  left := (by decide)
  due := (by decide)
  active := (by decide)
  runs := (by rintro _ _ ⟨⟩)
  saved := (by decide)
  first := (by decide)
  read := (by decide)
  fresh := (by rintro _ ⟨⟩)
  mid := (by decide)
  error := rfl
  entry := (by rintro _ ⟨⟩)
  chain := rfl
  told := ⟨by decide, by decide, by rintro _ ⟨⟩⟩

/-! ## Flushes

A flush is harmless unless the core is running the injected line. -/

/-- What a flush needs: the core runs no injected line. -/
structure Flushable (s : Rx) : Prop where
  eol : isEol s.senderEol = true
  left : s.injActive = false → s.injLeft = 0 ∧ s.injStatusDue = false
  runs : ∀ r k, s.running = some r → r.owner ≠ some k
  error : s.lastError = s.held
  entry : ∀ r, s.running = some r → r.entry = r.heldEntry
  chain : s.chain = s.senderLines
  told : Told s.injected s.injActive s.lines

/-- A line that is not in flight has no byte left and no status due. -/
theorem Routed.inactive {s : Rx} (h : Routed s) (ha : s.injActive = false) :
    s.injLeft = 0 ∧ s.injStatusDue = false := by
  constructor
  · by_contra hpos
    have hact := (h.left (by omega)).1
    rw [ha] at hact
    cases hact
  · by_contra hdue
    have hact := (h.due (by simpa using hdue)).1
    rw [ha] at hact
    cases hact

theorem Routed.flushable {s : Rx} (h : Routed s) (hdue : s.injStatusDue = false) :
    Flushable s where
  eol := h.eol
  left := h.inactive
  runs := fun r k hr ho => by
    have hd := h.runs r k hr ho
    rw [hdue] at hd
    cases hd
  error := h.error
  entry := h.entry
  chain := h.chain
  told := h.told

/-- With no line in flight the routing asks for little: the ring is the sender's. -/
theorem Flushable.routed {s : Rx} (h : Flushable s) (ha : s.injActive = false)
    (hring : ∀ c ∈ s.ring, c.owner = none) : Routed s := by
  obtain ⟨hleft, hdue⟩ := h.left ha
  have hact : ¬s.injActive = true := by simp [ha]
  have hnotdue : ¬s.injStatusDue = true := by simp [hdue]
  have hnotleft : ¬0 < s.injLeft := by omega
  exact {
    ring := hleft ▸ .sender hring
    eol := h.eol
    left := fun hpos => absurd hpos hnotleft
    due := fun hd => absurd hd hnotdue
    active := fun ha' => absurd ha' hact
    runs := fun r k hr ho => absurd ho (h.runs r k hr)
    saved := fun ha' => absurd ha' hact
    first := fun hpos => absurd hpos hnotleft
    read := fun hd => absurd hd hnotdue
    fresh := fun _ _ _ ha' => absurd ha' hact
    mid := fun hpos => absurd hpos hnotleft
    error := h.error
    entry := h.entry
    chain := h.chain
    told := h.told }

/-- **A flush closes the line in flight** and leaves nothing of it, when the core runs no
injected line. -/
theorem Flushable.flush {s : Rx} (h : Flushable s) :
    Flushable (serialRxFlush s) ∧ (serialRxFlush s).injActive = false ∧
      (serialRxFlush s).ring = [] := by
  unfold serialRxFlush
  dsimp only
  split
  · next ha =>
    have hline : s.lines (s.injected - 1) = ⟨none, []⟩ := h.told.current ha
    have htold : Told s.injected true s.lines := ha ▸ h.told
    refine ⟨⟨h.eol, fun _ => ⟨rfl, rfl⟩, h.runs, h.error, h.entry, h.chain, ?_⟩, rfl, rfl⟩
    refine htold.close ?_
    dsimp only
    rw [hline]
    exact .inr rfl
  · next ha =>
    exact ⟨⟨h.eol, h.left, h.runs, h.error, h.entry, h.chain, h.told⟩, by simpa using ha, rfl⟩

theorem Flushable.routed_flush {s : Rx} (h : Flushable s) : Routed (serialRxFlush s) := by
  obtain ⟨hflush, ha, hring⟩ := h.flush
  exact hflush.routed ha (by simp [hring])

/-! ## The steps -/

/-- The steps that must not come while the core runs or reads an injected line: a flush that
leaves the core running, while a status is due, and the welcome of a sender once the line has
been begun, unless the error that its status puts back is none. -/
def Undisturbed (s : Rx) : RxLabel → Prop
  | .connect => s.client = true → s.injStatusDue = false
  | .drop => s.client = true → s.injStatusDue = false
  | .cancel => s.injStatusDue = false
  | .welcome => s.injActive = true → s.injFirst = false → s.injSavedError = 0
  | _ => True

theorem routed_dropClient {s : Rx} (h : Routed s)
    (hdue : s.client = true → s.injStatusDue = false) : Routed s.dropClient := by
  unfold Rx.dropClient
  split
  · next hc =>
    have hf := h.flushable (hdue hc)
    exact Flushable.routed_flush ⟨hf.eol, hf.left, hf.runs, hf.error, hf.entry, hf.chain, hf.told⟩
  · exact h

theorem routed_accept {s : Rx} (h : Routed s)
    (hdue : s.client = true → s.injStatusDue = false) : Routed s.accept := by
  have hd := routed_dropClient h hdue
  exact { hd with }

theorem routed_cancel {s : Rx} (h : Routed s) (hdue : s.injStatusDue = false) :
    Routed (serialRxCancel s) := by
  obtain ⟨hflush, ha, -⟩ := (h.flushable hdue).flush
  refine Flushable.routed ⟨hflush.eol, hflush.left, hflush.runs, hflush.error, hflush.entry,
    hflush.chain, hflush.told⟩ ha ?_
  intro c hc
  rw [List.mem_singleton.mp hc]

theorem routed_abort {s : Rx} (h : Routed s) : Routed (coreAborts s) :=
  Flushable.routed_flush
    ⟨h.eol, h.inactive, by rintro _ _ ⟨⟩, h.error, by rintro _ ⟨⟩, h.chain, h.told⟩

theorem routed_welcome {s : Rx} (h : Routed s)
    (hsaved : s.injActive = true → s.injFirst = false → s.injSavedError = 0) :
    Routed (welcome s) := by
  unfold welcome
  split
  · exact { h with saved := hsaved, error := rfl }
  · exact h

theorem routed_rxByte {s : Rx} (h : Routed s) (data : UInt8) : Routed (rxByte data s) := by
  unfold rxByte
  split
  · exact { h with }
  · split
    · exact { h with ring := h.ring.unwrite }
    · dsimp only
      have hring : Queued (s.injected - 1) s.injLeft (s.ring ++ [Cell.mk data none]) :=
        h.ring.append rfl
      split
      · next he => exact { h with ring := hring, eol := he }
      · exact { h with ring := hring }

theorem routed_serialInjectLine {s : Rx} (h : Routed s) {line : List UInt8}
    (hline : ∀ b ∈ line, isEol b = false) : Routed (serialInjectLine line s) := by
  unfold serialInjectLine
  split
  · exact h
  · next hfree =>
    simp only [not_or, Bool.not_eq_true] at hfree
    obtain ⟨ha, -, -, hne, -, -⟩ := hfree
    have hdue : s.injStatusDue = false := (h.inactive ha).2
    have hpos : 0 < line.length := List.length_pos_iff.mpr hne
    exact {
      ring := Queued.inject h.eol hline
      eol := h.eol
      left := fun _ => ⟨rfl, rfl⟩
      due := (by rintro ⟨⟩)
      active := (by rintro _ ⟨⟩)
      -- the core may be running a line of the sender's
      runs := fun r k hr ho => absurd (h.runs r k hr ho) (by simp [hdue])
      saved := (by rintro _ ⟨⟩)
      first := fun _ _ => by
        dsimp only
        omega
      read := (by rintro ⟨⟩)
      fresh := fun _ _ _ _ => rfl
      mid := (by rintro _ ⟨⟩)
      error := h.error
      entry := h.entry
      chain := h.chain
      told := Told.inject (ha ▸ h.told) }

/-! ### The core

The reads of the core: the injected line comes first, and its last byte ends its count. -/

theorem serialGetC_cases {s t : Rx} {c : Cell} (h : serialGetC s = some (c, t)) :
    ∃ rest, s.ring = c :: rest ∧
      ((s.injLeft = 0 ∧ ∃ lineOpen, t = { s with
          ring := rest, readMidline := !isEol c.byte, senderLineOpen := lineOpen }) ∨
        (s.injLeft ≠ 0 ∧
          t = countInjected { s with ring := rest, readMidline := !isEol c.byte })) := by
  unfold serialGetC at h
  split at h
  · cases h
  · next d rest hring =>
    split at h
    · cases h
    · dsimp only at h
      split at h
      · next hleft =>
        simp only [Option.some.injEq, Prod.mk.injEq] at h
        obtain ⟨rfl, rfl⟩ := h
        refine ⟨rest, hring, .inl ⟨hleft, ?_⟩⟩
        split
        · exact ⟨true, rfl⟩
        · exact ⟨s.senderLineOpen, rfl⟩
      · next hleft =>
        simp only [Option.some.injEq, Prod.mk.injEq] at h
        obtain ⟨rfl, rfl⟩ := h
        exact ⟨rest, hring, .inr ⟨hleft, rfl⟩⟩

/-- The flags after one more byte of the injected line has been read. -/
theorem countInjected_eq (s : Rx) :
    countInjected s = { s with
      injFirst := false
      injSavedError := if s.injFirst then s.lastError else s.injSavedError
      injLeft := s.injLeft - 1
      injStatusDue := if s.injLeft - 1 = 0 then true else s.injStatusDue } := by
  unfold countInjected
  cases hfirst : s.injFirst <;> dsimp only <;> simp only [if_true, Bool.false_eq_true, if_false] <;>
    split <;> simp_all

/-- With no line left in the ring and none running, none is in flight. -/
theorem Routed.idle {s : Rx} (h : Routed s) (hleft : s.injLeft = 0) (hrun : s.running = none) :
    s.injActive = false := by
  by_contra ha
  obtain ⟨-, r, hr, -⟩ := h.due (h.active (by simpa using ha) hleft)
  rw [hrun] at hr
  cases hr

theorem Queued.sender_of_zero {k : Nat} {cs : List Cell} (h : Queued k 0 cs) :
    ∀ c ∈ cs, c.owner = none := by
  cases h with
  | sender hcs => exact hcs

/-- The saved error is the sender's from the line's first byte on. -/
theorem Routed.saved_read {s : Rx} (h : Routed s) (hleft : 0 < s.injLeft) :
    (if s.injFirst then s.lastError else s.injSavedError) = s.held := by
  split
  · exact h.error
  · next hfirst => exact h.saved (h.left hleft).1 (by simpa using hfirst)

/-- A byte of the sender's, and no injected line in flight. -/
theorem Routed.readSender {s : Rx} {c : Cell} {rest : List Cell} {midline lineOpen inLine : Bool}
    {line : Option Running} (h : Routed s) (hrun : s.running = none) (hleft : s.injLeft = 0)
    (hring : s.ring = c :: rest) (hline : ∀ r, line = some r → r = ⟨c.owner, s.lastError, s.held⟩) :
    Routed { s with
      ring := rest, readMidline := midline, senderLineOpen := lineOpen, running := line
      coreMidline := inLine } := by
  have howner : ∀ d ∈ c :: rest, d.owner = none := by
    have hq := h.ring
    rw [hleft, hring] at hq
    exact hq.sender_of_zero
  have hrest : ∀ d ∈ rest, d.owner = none := fun d hd => howner d (List.mem_cons_of_mem c hd)
  refine Flushable.routed ⟨h.eol, h.inactive, ?_, h.error, ?_, h.chain, h.told⟩ (h.idle hleft hrun) hrest
  · intro r k hr ho
    rw [hline r hr, howner c List.mem_cons_self] at ho
    cases ho
  · intro r hr
    rw [hline r hr]
    exact h.error

/-- The end of an injected line: the core runs it. -/
theorem Routed.readEnd {s : Rx} {c : Cell} {rest : List Cell} {midline inLine : Bool} {saved : Status}
    (h : Routed s) (hleft : s.injLeft = 1) (ho : c.owner = some (s.injected - 1))
    (hrest : ∀ d ∈ rest, d.owner = none) (hsaved : saved = s.held) :
    Routed { s with
      ring := rest, readMidline := midline, injFirst := false, injSavedError := saved, injLeft := 0
      injStatusDue := true, running := some ⟨c.owner, s.lastError, s.held⟩, coreMidline := inLine } where
  ring := .sender hrest
  eol := h.eol
  left := (by rintro ⟨⟩)
  due := fun _ => ⟨(h.left (by omega)).1, _, rfl, ho⟩
  active := fun _ _ => rfl
  runs := fun _ _ _ _ => rfl
  saved := fun _ _ => hsaved
  first := (by rintro _ ⟨⟩)
  read := fun _ => rfl
  fresh := fun r hr hnone => by
    cases hr
    rw [ho] at hnone
    cases hnone
  mid := (by rintro ⟨⟩)
  error := h.error
  entry := fun r hr => by
    cases hr
    exact h.error
  chain := h.chain
  told := h.told

/-- A byte of an injected line that goes on behind it. -/
theorem Routed.readByte {s : Rx} {rest : List Cell} {m : Nat} {midline : Bool} {saved : Status}
    (h : Routed s) (hrun : s.running = none) (hleft : s.injLeft = m + 1) (hpos : 0 < m)
    (hrest : Queued (s.injected - 1) m rest) (hsaved : saved = s.held) :
    Routed { s with
      ring := rest, readMidline := midline, injFirst := false, injSavedError := saved, injLeft := m
      coreMidline := true } := by
  obtain ⟨hactive, hdue⟩ := h.left (by omega)
  have hnone : ∀ r, s.running ≠ some r := fun r hr => by
    rw [hrun] at hr
    cases hr
  exact {
    ring := hrest
    eol := h.eol
    left := fun _ => ⟨hactive, hdue⟩
    due := fun hd => absurd (hdue.symm.trans hd) (by decide)
    active := fun _ hzero => absurd hzero (Nat.ne_of_gt hpos)
    runs := fun r k hr => absurd hr (hnone r)
    saved := fun _ _ => hsaved
    first := (by rintro _ ⟨⟩)
    read := fun _ => rfl
    fresh := fun r hr => absurd hr (hnone r)
    mid := fun _ _ => rfl
    error := h.error
    entry := h.entry
    chain := h.chain
    told := h.told }

theorem routed_coreRead {s t : Rx} {skip : Bool} (h : Routed s) (hstep : coreRead skip s = some t) :
    Routed t := by
  unfold coreRead at hstep
  split at hstep
  · cases hstep
  · next hrun =>
    split at hstep
    · cases hstep
      exact h
    · next c u hget =>
      obtain ⟨rest, hring, ⟨hleft, lineOpen, rfl⟩ | ⟨hleft, rfl⟩⟩ := serialGetC_cases hget
      · split at hstep
        · cases hstep
          exact h.readSender hrun hleft hring fun r hr => (Option.some.inj hr).symm
        · cases hstep
          exact h.readSender hrun hleft hring fun r hr => absurd (hrun.symm.trans hr) (by rintro ⟨⟩)
      · have hpos : 0 < s.injLeft := Nat.pos_of_ne_zero hleft
        have hsaved := h.saved_read hpos
        have hq := h.ring
        rw [hring] at hq
        rw [countInjected_eq] at hstep
        generalize hn : s.injLeft = n at hq
        cases hq with
        | sender => exact absurd hn hleft
        | eol he ho hcs =>
          -- the line's end: the core runs it, for it is in the middle of a line
          have hfirst : s.injFirst = false := by
            by_contra hf
            have hlen := h.first hpos (by simpa using hf)
            omega
          have hmid : s.coreMidline = true := h.mid hpos hfirst
          rw [if_pos ⟨he, by simp [hmid]⟩] at hstep
          cases hstep
          simp only [hn]
          exact h.readEnd hn ho hcs hsaved
        | @byte _ m _ he ho hrest =>
          rw [if_neg (by simp [he])] at hstep
          cases hstep
          simp only [hn, he]
          exact h.readByte hrun hn (by omega) hrest hsaved

theorem routed_coreCompletes {s t : Rx} {run : Status → Status → Status × Status} (h : Routed s)
    (hstep : coreCompletes run s = some t) : Routed t := by
  unfold coreCompletes at hstep
  split at hstep
  · cases hstep
  · next r hrun =>
    have hentry : r.entry = r.heldEntry := h.entry r hrun
    dsimp only at hstep
    cases hstep
    cases howner : r.owner with
    | none =>
      -- a line of the sender's: an injected line in flight has not been begun
      have hdue : s.injStatusDue = false := by
        by_contra hd
        obtain ⟨-, r', hr', ho⟩ := h.due (by simpa using hd)
        rw [hrun] at hr'
        cases hr'
        rw [howner] at ho
        cases ho
      have hnot : ¬s.injStatusDue = true := by simp [hdue]
      rw [injectStatusMessage, if_neg hnot]
      exact { h with
        due := fun hd => absurd hd hnot
        runs := (by rintro _ _ ⟨⟩)
        saved := fun ha hfirst => by
          rw [h.fresh r hrun howner ha] at hfirst
          cases hfirst
        fresh := (by rintro _ ⟨⟩)
        error := by
          dsimp only
          rw [h.error, hentry]
        entry := (by rintro _ ⟨⟩)
        chain := by
          dsimp only
          rw [h.chain, h.error, hentry] }
    | some k =>
      have hdue : s.injStatusDue = true := h.runs r k hrun howner
      obtain ⟨ha, r', hr', ho⟩ := h.due hdue
      obtain rfl : k = s.injected - 1 := by
        rw [hrun] at hr'
        cases hr'
        rw [howner] at ho
        exact Option.some.inj ho
      have hleft : s.injLeft = 0 := by
        by_contra hpos
        have hnot := (h.left (by omega)).2
        rw [hdue] at hnot
        cases hnot
      have hq := h.ring
      rw [hleft] at hq
      simp only [injectStatusMessage, hdue, if_true]
      refine Flushable.routed (s := injDone _ _) ⟨h.eol, fun _ => ⟨hleft, rfl⟩, by rintro _ _ ⟨⟩,
          ?_, by rintro _ ⟨⟩,
        h.chain, ?_⟩ rfl hq.sender_of_zero
      · exact h.saved ha (h.read hdue)
      · -- the status is the first thing that the line's source hears
        have hline : s.lines (s.injected - 1) = ⟨none, []⟩ := h.told.current ha
        have htold : Told s.injected true s.lines := ha ▸ h.told
        simp only [injDone, Function.update_self, Function.update_idem]
        refine htold.close ?_
        rw [hline]
        exact .inl ⟨_, rfl⟩

/-- **Every undisturbed step keeps the routing.** A step is a call of the connection's, a byte of
the transport's, an injection, or a turn of the core's. -/
theorem routed_step {s t : Rx} {l : RxLabel} (h : Routed s) (hok : Undisturbed s l)
    (hstep : rxStep s l = some t) : Routed t := by
  cases l with
  | byte data realtime =>
    cases hstep
    split
    · exact h
    · exact routed_rxByte h data
  | connect =>
    cases hstep
    exact routed_accept h hok
  | drop =>
    cases hstep
    exact routed_dropClient h hok
  | welcome =>
    cases hstep
    exact routed_welcome h hok
  | inject line =>
    cases hstep
    exact routed_serialInjectLine h line.2
  | hold on =>
    cases hstep
    exact { h with }
  | read skip => exact routed_coreRead h hstep
  | complete run => exact routed_coreCompletes h hstep
  | abort =>
    cases hstep
    exact routed_abort h
  | cancel =>
    cases hstep
    exact routed_cancel h hok

/-! ## Transparency

The three parts of the property, from the invariant; and the drop that misroutes a status. -/

/-- What an injection must leave alone, and what it must get. -/
structure Rx.Transparent (s : Rx) : Prop where
  -- a status that the core reported for an injected line reached its source, and once
  delivered : ∀ k < s.injected, ∀ status, (s.lines k).reported = some status →
    (s.lines k).told = [some status]
  -- no source hears twice of one line
  once : ∀ k < s.injected, (s.lines k).told.length ≤ 1
  -- the chain has the statuses of the sender's lines, in order
  chain : s.chain = s.senderLines
  -- the parser error is what the sender's lines have left
  error : s.lastError = s.held

theorem Routed.transparent {s : Rx} (h : Routed s) : s.Transparent := by
  have hline : ∀ k < s.injected, (s.lines k).Closed ∨ s.lines k = ⟨none, []⟩ := by
    intro k hk
    by_cases hlast : k + 1 = s.injected ∧ s.injActive = true
    · refine .inr ?_
      rw [show k = s.injected - 1 from by omega]
      exact h.told.current hlast.2
    · refine .inl (h.told.closed k hk fun heq => ?_)
      simpa using fun ha => hlast ⟨heq, ha⟩
  refine ⟨?_, ?_, h.chain, h.error⟩
  · intro k hk status hst
    rcases hline k hk with (⟨st, heq⟩ | heq) | heq
    · rw [heq] at hst ⊢
      cases hst
      rfl
    · rw [heq] at hst
      cases hst
    · rw [heq] at hst
      cases hst
  · intro k hk
    rcases hline k hk with (⟨st, heq⟩ | heq) | heq <;> rw [heq] <;> simp

/-- **An injected line is transparent to the sender.** In every run of sender bytes, connects,
drops, injections, reads, completions and aborts in which no flush but an abort's comes while
the core runs an injected line, and no sender is welcomed between the line's first byte and its
status (unless no error was held), the status of each injected line is delivered to its source,
once, the sender's chain has exactly the statuses of the sender's lines in order, and the parser
error is the one the sender's lines have left. -/
theorem injection_transparent {s : Rx} (hrun : Runs.Reach rxStep Undisturbed Rx.start s) :
    s.Transparent :=
  (hrun.invariant (P := Routed) routed_start fun _ _ _ h hok hstep =>
    routed_step h hok hstep).transparent

instance (s : Rx) : (l : RxLabel) → Decidable (Undisturbed s l)
  | .connect => inferInstanceAs (Decidable (s.client = true → s.injStatusDue = false))
  | .drop => inferInstanceAs (Decidable (s.client = true → s.injStatusDue = false))
  | .cancel => inferInstanceAs (Decidable (s.injStatusDue = false))
  | .welcome => inferInstanceAs
      (Decidable (s.injActive = true → s.injFirst = false → s.injSavedError = 0))
  | .byte _ _ | .inject _ | .hold _ | .read _ | .complete _ | .abort => isTrue trivial

/-- The line `$`. -/
def settingsLine : LineText := ⟨[36], List.forall_mem_singleton.mpr rfl⟩

/-- A sender held under error 20 lets one injected line through, which fails with error 2. -/
def heldThrough : List RxLabel :=
  [.connect, .welcome, .byte 71 false, .byte 10 false, .read false, .read false,
   .complete fun _ _ => (20, 20), .inject settingsLine, .read false, .read false,
   .complete fun _ _ => (2, 2)]

theorem injection_transparent_held :
    ∃ s, Runs.Reach rxStep Undisturbed Rx.start s ∧
      (s.lastError = 20 ∧ s.chain = [20] ∧ s.lines 0 = ⟨some 2, [some 2]⟩) ∧ s.Transparent := by
  have hex : ∃ s, Runs.Reach rxStep Undisturbed Rx.start s ∧
      (s.lastError = 20 ∧ s.chain = [20] ∧ s.lines 0 = ⟨some 2, [some 2]⟩) :=
    Runs.exists_reach_of_exec heldThrough (by decide +kernel)
  obtain ⟨s, hrun, hs⟩ := hex
  exact ⟨s, hrun, hs, injection_transparent hrun⟩

/-- **A sender that hangs up under an injected line takes its status.** The drop flushes, which
tells the source that the line was never run, and the status that the core then reports goes to
the sender's chain. -/
theorem drop_misroutes_status :
    ¬∀ s : Rx, Runs.Reach rxStep (fun _ _ => True) Rx.start s → s.Transparent := by
  intro hall
  have hex : ∃ s, Runs.Reach rxStep (fun _ _ => True) Rx.start s ∧ s.chain ≠ s.senderLines :=
    Runs.exists_reach_of_exec
      [.connect, .welcome, .inject settingsLine, .read false, .read false, .drop,
       .complete fun _ _ => (0, 0)] (by decide +kernel)
  obtain ⟨s, hrun, hne⟩ := hex
  exact hne (hall s hrun).chain

end Glowforge.Serial
