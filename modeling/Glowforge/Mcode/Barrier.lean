import Glowforge.Lib.Counts
import Glowforge.Mcode.Machine

/-!
# Glowforge — an M-code of a package is a barrier (`glowforge_mcode.c`)

What a job does at the M-codes of packages is a sequence of episodes, each of them the whole of one
M-code, and an episode ends with the job going on, held, or over.

* **`Episode`** — what one M-code leaves in the history.
* **`Turns`**, **`step_turns`** — what a step can be.
* **`Course`** — the history is episodes, and the beginning of the one that runs.
* **`reach_course`** — it is, in every run. So a job goes on behind its M-code exactly on an answer
  that it was done, taken in that wait and under its number.
* **`reach_numbered`** — the numbers of the waits, and when one comes again.
* **`late_answer`** — so an answer to an earlier M-code is refused.
-/

namespace Glowforge.Mcode

open Port (ascii)
open Runs (Reach)

/-! ## The episodes

The histories that one M-code can leave, as a grammar: it is held at once, cut by the job's end, or
announced, perhaps answered, and over. -/

/-- The words of an answer, as they go to the sender. -/
def Sayable (text : List UInt8) : Prop := text.length ≤ gfmcodeTextMax ∧ text.all textByte = true

instance (text : List UInt8) : Decidable (Sayable text) := inferInstanceAs (Decidable (_ ∧ _))

def answerEvents (seq : UInt32) : Option (Bool × List UInt8) → List Event
  | none => []
  | some (ok, text) => [.accepted seq ok text]

/-- How the second loop is left, since when the wait began. -/
inductive Leaves (since : ℕ) (answered : Bool) : List Event → Prop
  | answered (h : answered = true) : Leaves since answered []
  | timedOut {now : ℕ} (h : answered = false) (hlate : since + gfmcodeWaitMs ≤ now) :
      Leaves since answered [.timedOut now]
  | broke : Leaves since answered [.broke]

/-- **What one M-code leaves in the history.** -/
inductive Episode : List Event → Prop
  | unanswerable {code : ℕ} (hours : ours code = true) : Episode [.held code .unanswerable]
  | undrained {code : ℕ} (hours : ours code = true) : Episode [.held code .undrained]
  | cut {code : ℕ} (hours : ours code = true) : Episode [.cut code]
  | waited {seq : UInt32} {code since : ℕ} {given : Option (Bool × List UInt8)} {leaving : List Event}
      {last : Event} (hours : ours code = true) (hgiven : ∀ a ∈ given, Sayable a.2)
      (hleaves : Leaves since given.isSome leaving)
      (hlast : last = .ended seq code ∨ last = verdict code given) :
      Episode (.announced seq code since :: (answerEvents seq given ++ (leaving ++ [last])))

/-! ## What a step can be

The inversion lemma of `step`: which phases pump, and what each label does in them. -/

/-- The port's requests come in here. -/
def Phase.pumps : Phase → Bool
  | .out | .drainPump _ _ | .waitPump _ => true
  | _ => false

inductive Turns (s : State) : State → Prop
  | request {line : List UInt8} (hpumps : s.phase.pumps = true) : Turns s (handleRequest line s)
  | execute {block : Block} {now : ℕ} (hphase : s.phase = .out) : Turns s (mcodeExecute block now s)
  | drains {block : Block} {drained : ℕ} {phase : Phase}
      (hphase : s.phase = .drainTest block drained ∨ s.phase = .drainPump block drained)
      (hnext : phase = .drainTest block drained ∨ phase = .drainPump block drained ∨
        phase = .drainLast block) : Turns s { s with phase := phase }
  | announces {block : Block} {now : ℕ} (hphase : s.phase = .drainLast block) :
      Turns s (announce block now s)
  | undrained {block : Block} (hphase : s.phase = .drainLast block) :
      Turns s ({ s with phase := .out }.note (.held block.userMcode .undrained))
  | cut {block : Block} {drained : ℕ} (hphase : s.phase = .drainPump block drained) :
      Turns s ({ s with phase := .out }.note (.cut block.userMcode))
  | waits {deadline : ℕ} {phase : Phase}
      (hphase : s.phase = .waitTest deadline ∨ s.phase = .waitPump deadline)
      (hnext : phase = .waitTest deadline ∨ phase = .waitPump deadline) :
      Turns s { s with phase := phase }
  | answered {deadline : ℕ} (hphase : s.phase = .waitTest deadline) (hanswered : s.wait.answered = true) :
      Turns s { s with phase := .waitLast }
  | timedOut {deadline now : ℕ} (hphase : s.phase = .waitTest deadline)
      (hanswered : s.wait.answered = false) (hlate : deadline ≤ now) :
      Turns s ({ s with phase := .waitLast }.note (.timedOut now))
  | broke {deadline : ℕ} (hphase : s.phase = .waitPump deadline) :
      Turns s ({ s with phase := .waitLast }.note .broke)
  | concludes {aborted stopped : Bool} (hphase : s.phase = .waitLast) :
      Turns s (conclude aborted stopped s)

variable {s t : State} {l : Label}

theorem step_turns (h : step s l = some t) : Turns s t := by
  cases l with
  | request line =>
    rw [step] at h
    split at h <;> cases h
    all_goals
      next heq => exact .request (by rw [heq]; rfl)
  | execute block now =>
    rw [step] at h
    split at h <;> cases h
    next heq => exact .execute heq
  | drainPoll idle now =>
    rw [step] at h
    split at h <;> cases h
    next block drained heq =>
      refine .drains (.inl heq) ?_
      split_ifs
      · exact .inr (.inl rfl)
      · exact .inr (.inr rfl)
  | drained idle now =>
    rw [step] at h
    split at h
    · next block heq =>
      split_ifs at h <;> cases h
      · exact .announces heq
      · exact .undrained heq
    · cases h
  | pumped goesOn stopped =>
    rw [step] at h
    split at h
    · next block drained heq =>
      split_ifs at h <;> cases h
      · exact .cut heq
      · exact .drains (.inr heq) (.inl rfl)
    · next deadline heq =>
      split_ifs at h <;> cases h
      · exact .broke heq
      · exact .waits (.inr heq) (.inl rfl)
    · cases h
  | waitPoll now =>
    rw [step] at h
    split at h
    · next deadline heq =>
      split_ifs at h with hanswered hlate <;> cases h
      · exact .answered heq hanswered
      · exact .waits (.inl heq) (.inr rfl)
      · exact .timedOut heq (by simpa using hanswered) (not_lt.1 hlate)
    · cases h
  | waited aborted stopped =>
    rw [step] at h
    split at h <;> cases h
    next heq => exact .concludes heq

/-- What the port's request does here: the table, or the answer, and nothing else. -/
theorem handleRequest_cases (line : List UInt8) (s : State) :
    (∃ table, handleRequest line s = { s with table := table }) ∨
      ∃ seq ok text w, gfmcodeAnswer seq ok text s.wait = some w ∧
        handleRequest line s = { s with wait := w }.note (.accepted seq ok text) := by
  rw [handleRequest]
  split_ifs with htable hresult
  · exact .inl ⟨_, rfl⟩
  · rw [answer]
    split
    · exact .inl ⟨s.table, rfl⟩
    · split
      · exact .inl ⟨s.table, rfl⟩
      · next heq => exact .inr ⟨_, _, _, _, heq, rfl⟩
  · exact .inl ⟨s.table, rfl⟩

/-! ## The history is episodes -/

/-- The beginning of the episode that runs. -/
def Begun (s : State) (part : List Event) : Prop :=
  match s.phase with
  | .out => part = [] ∧ s.wait.active = false
  | .drainTest block _ | .drainPump block _ | .drainLast block =>
    part = [] ∧ s.wait.active = false ∧ ours block.userMcode = true
  | .waitTest deadline | .waitPump deadline =>
    ∃ since, deadline = since + gfmcodeWaitMs ∧ s.wait.active = true ∧ ours s.wait.code = true ∧
      (∀ a ∈ s.wait.given, Sayable a.2) ∧
      part = .announced s.wait.seq s.wait.code since :: answerEvents s.wait.seq s.wait.given
  | .waitLast =>
    ∃ since leaving, ours s.wait.code = true ∧ (∀ a ∈ s.wait.given, Sayable a.2) ∧
      Leaves since s.wait.given.isSome leaving ∧
      part = .announced s.wait.seq s.wait.code since ::
        (answerEvents s.wait.seq s.wait.given ++ leaving)

/-- **The history is episodes**, and the beginning of the one that runs. -/
def Course (s : State) : Prop :=
  ∃ (episodes : List (List Event)) (part : List Event), (∀ e ∈ episodes, Episode e) ∧ Begun s part ∧ s.log = episodes.flatten ++ part

theorem course_start : Course State.start :=
  ⟨[], [], by simp, ⟨rfl, rfl⟩, rfl⟩

/-- An episode ends here: the history grows by the last part of one, and nothing is begun. -/
theorem Course.ends {part : List Event} {e : Event} {episodes : List (List Event)}
    (heach : ∀ e ∈ episodes, Episode e) (hlog : s.log = episodes.flatten ++ part)
    (hepisode : Episode (part ++ [e])) (hout : t.phase = .out) (hidle : t.wait.active = false)
    (hnote : t.log = s.log ++ [e]) : Course t := by
  refine ⟨episodes ++ [part ++ [e]], [], ?_, ?_, ?_⟩
  · intro episode hmem
    obtain h | h := List.mem_append.1 hmem
    · exact heach episode h
    · rw [List.mem_singleton.1 h]
      exact hepisode
  · rw [Begun, hout]
    exact ⟨rfl, hidle⟩
  · rw [hnote, hlog]
    simp

/-- The episode goes on. -/
theorem Course.goesOn {part more : List Event} {episodes : List (List Event)}
    (heach : ∀ e ∈ episodes, Episode e) (hlog : s.log = episodes.flatten ++ part)
    (hbegun : Begun t (part ++ more)) (hnote : t.log = s.log ++ more) : Course t :=
  ⟨episodes, part ++ more, heach, hbegun, by rw [hnote, hlog, List.append_assoc]⟩

theorem Course.request {line : List UInt8} (h : Course s) (hpumps : s.phase.pumps = true) :
    Course (handleRequest line s) := by
  obtain ⟨episodes, part, heach, hbegun, hlog⟩ := h
  obtain ⟨table, heq⟩ | ⟨seq, ok, text, w, hanswer, heq⟩ := handleRequest_cases line s
  · rw [heq]
    exact ⟨episodes, part, heach, hbegun, hlog⟩
  · rw [heq]
    obtain ⟨⟨hactive, hopen, rfl, hlen, htext⟩, rfl⟩ := gfmcodeAnswer_eq_some.1 hanswer
    refine Course.goesOn heach hlog ?_ rfl
    cases hphase : s.phase with
    | out =>
      rw [Begun, hphase] at hbegun
      exact absurd (hactive.symm.trans hbegun.2) (by decide)
    | drainPump block drained =>
      rw [Begun, hphase] at hbegun
      exact absurd (hactive.symm.trans hbegun.2.1) (by decide)
    | waitPump deadline =>
      rw [Begun, hphase] at hbegun
      obtain ⟨since, hdeadline, -, hours, -, rfl⟩ := hbegun
      have hnone : s.wait.given = none := by
        rw [Wait.given, hopen]
        rfl
      rw [Begun, State.note]
      dsimp only
      refine ⟨since, hdeadline, hactive, hours, ?_, ?_⟩
      · rintro a ⟨rfl⟩
        exact ⟨hlen, htext⟩
      · rw [hnone]
        rfl
    | _ =>
      rw [hphase] at hpumps
      cases hpumps

theorem Course.execute {block : Block} {now : ℕ} (h : Course s) (hphase : s.phase = .out) :
    Course (mcodeExecute block now s) := by
  obtain ⟨episodes, part, heach, hbegun, hlog⟩ := h
  have hbegun' := hbegun
  rw [Begun, hphase] at hbegun'
  obtain ⟨rfl, hidle⟩ := hbegun'
  rw [mcodeExecute]
  split_ifs with hours hanswered
  · exact ⟨episodes, [], heach, hbegun, hlog⟩
  · exact Course.ends heach hlog (.unanswerable (by simpa using hours)) hphase hidle rfl
  · exact ⟨episodes, [], heach, ⟨rfl, hidle, by simpa using hours⟩, hlog⟩

/-- **A step keeps the course.** The cases are those of `step_turns`: a phase goes on, an answer is
taken within it, or the episode ends and is appended whole. -/
theorem Course.step (h : Course s) (hstep : step s l = some t) : Course t := by
  have hcourse := h
  obtain ⟨episodes, part, heach, hbegun, hlog⟩ := h
  cases step_turns hstep with
  | request hpumps => exact hcourse.request hpumps
  | execute hphase => exact hcourse.execute hphase
  | @drains block drained phase hphase hnext =>
    have hpart : part = [] ∧ s.wait.active = false ∧ ours block.userMcode = true := by
      rw [Begun] at hbegun
      obtain hphase | hphase := hphase
      all_goals
        rw [hphase] at hbegun
        exact hbegun
    refine ⟨episodes, part, heach, ?_, hlog⟩
    rw [Begun]
    obtain rfl | rfl | rfl := hnext <;> exact hpart
  | @announces block now hphase =>
    rw [Begun, hphase] at hbegun
    obtain ⟨rfl, -, hours⟩ := hbegun
    exact Course.goesOn heach hlog ⟨now, rfl, rfl, hours, by rintro a ⟨⟩, rfl⟩ rfl
  | undrained hphase =>
    rw [Begun, hphase] at hbegun
    obtain ⟨rfl, hidle, hours⟩ := hbegun
    exact Course.ends heach hlog (.undrained hours) rfl hidle rfl
  | cut hphase =>
    rw [Begun, hphase] at hbegun
    obtain ⟨rfl, hidle, hours⟩ := hbegun
    exact Course.ends heach hlog (.cut hours) rfl hidle rfl
  | @waits deadline phase hphase hnext =>
    refine ⟨episodes, part, heach, ?_, hlog⟩
    have hwaiting : ∃ since, deadline = since + gfmcodeWaitMs ∧ s.wait.active = true ∧
        ours s.wait.code = true ∧ (∀ a ∈ s.wait.given, Sayable a.2) ∧
        part = .announced s.wait.seq s.wait.code since :: answerEvents s.wait.seq s.wait.given := by
      rw [Begun] at hbegun
      obtain hphase | hphase := hphase
      all_goals
        rw [hphase] at hbegun
        exact hbegun
    rw [Begun]
    obtain rfl | rfl := hnext <;> exact hwaiting
  | answered hphase hanswered =>
    rw [Begun, hphase] at hbegun
    obtain ⟨since, -, -, hours, hgiven, rfl⟩ := hbegun
    refine ⟨episodes, _, heach, ⟨since, [], hours, hgiven, .answered ?_, rfl⟩, ?_⟩
    · rw [Wait.given, if_pos hanswered]
      rfl
    · rw [List.append_nil]
      exact hlog
  | timedOut hphase hanswered hlate =>
    rw [Begun, hphase] at hbegun
    obtain ⟨since, rfl, -, hours, hgiven, rfl⟩ := hbegun
    refine Course.goesOn heach hlog ⟨since, _, hours, hgiven, .timedOut ?_ hlate, rfl⟩ rfl
    rw [State.note, Wait.given, hanswered]
    rfl
  | broke hphase =>
    rw [Begun, hphase] at hbegun
    obtain ⟨since, -, -, hours, hgiven, rfl⟩ := hbegun
    exact Course.goesOn heach hlog ⟨since, _, hours, hgiven, .broke, rfl⟩ rfl
  | @concludes aborted stopped hphase =>
    rw [Begun, hphase] at hbegun
    obtain ⟨since, leaving, hours, hgiven, hleaves, rfl⟩ := hbegun
    refine Course.ends heach hlog ?_ rfl rfl rfl
    rw [List.cons_append, List.append_assoc]
    refine .waited hours hgiven hleaves ?_
    split_ifs
    · exact .inl rfl
    · exact .inr rfl

/-- **A job goes on behind an M-code on its answer and on nothing else**: what is announced, answered,
passed, held and ended in a run is one whole episode after another. -/
theorem reach_course (hrun : Reach Mcode.step (fun _ _ => True) State.start s) : Course s :=
  hrun.invariant course_start fun _ _ _ h _ hstep => h.step hstep

/-- A job waits at M160, and nothing has answered it yet. -/
def waitsAt : List Label :=
  [.request (ascii "mcodes 160,161"), .execute ⟨160, {}⟩ 1000, .drainPoll false 1000, .pumped true false,
    .drainPoll true 1005, .drained true 1005, .waitPoll 1006]

/-- It is answered, and goes on. -/
def goesOn : List Label :=
  waitsAt ++ [Label.request (ascii "mcode_result 1 ok put down"), .pumped true false, .waitPoll 1011,
    .waited false false]

theorem course_goesOn : ∃ s, Reach Mcode.step (fun _ _ => True) State.start s ∧
    s.log = [.announced 1 160 1005, .accepted 1 true (ascii "put down"), .passed 160 (ascii "put down")] ∧
    Course s := by
  have hpasses : ∃ s, Reach Mcode.step (fun _ _ => True) State.start s ∧
      s.log = [.announced 1 160 1005, .accepted 1 true (ascii "put down"), .passed 160 (ascii "put down")] :=
    Runs.exists_reach_of_exec goesOn (by decide +kernel)
  obtain ⟨s, hrun, hlog⟩ := hpasses
  exact ⟨s, hrun, hlog, reach_course hrun⟩

/-! ## The numbers of the waits

A wait's number is a counter of 32 bits that leaves out 0. Two waits share one only a whole round
apart. -/

/-- The number of a wait, by its place among all of them: they come round, and 0 is left out. -/
def numberOf (i : ℕ) : UInt32 := UInt32.ofNat (i % (2 ^ 32 - 1) + 1)

theorem numberOf_inj {i j : ℕ} : numberOf i = numberOf j ↔ i % (2 ^ 32 - 1) = j % (2 ^ 32 - 1) := by
  constructor
  · intro h
    have := Counts.ofNat_inj (by omega) (by omega) h
    omega
  · intro h
    rw [numberOf, numberOf, h]

theorem numberOf_ne_zero (i : ℕ) : numberOf i ≠ 0 := by
  intro h
  have := Counts.ofNat_inj (m := i % (2 ^ 32 - 1) + 1) (n := 0) (by omega) (by omega) h
  omega

/-- `seq_next++`, and 1 behind a zero. -/
theorem numberOf_succ (i : ℕ) :
    numberOf (i + 1) = if numberOf i + 1 = 0 then 1 else numberOf i + 1 := by
  have hnext : numberOf i + 1 = UInt32.ofNat (i % (2 ^ 32 - 1) + 2) := by
    rw [numberOf, UInt32.ofNat_add _ 2, UInt32.ofNat_add _ 1, add_assoc]
    rfl
  rw [hnext]
  split
  · next h =>
    rw [← UInt32.toNat_inj, UInt32.toNat_ofNat'] at h
    have hlast : (i + 1) % (2 ^ 32 - 1) = 0 := by
      have : (0 : UInt32).toNat = 0 := rfl
      omega
    rw [numberOf, hlast]
    rfl
  · next h =>
    rw [← UInt32.toNat_inj, UInt32.toNat_ofNat'] at h
    have hnot : (i + 1) % (2 ^ 32 - 1) = i % (2 ^ 32 - 1) + 1 := by
      have : (0 : UInt32).toNat = 0 := rfl
      omega
    rw [numberOf, hnot]

def Event.number : Event → Option UInt32
  | .announced seq _ _ => some seq
  | _ => none

/-- The numbers of the waits so far. -/
def announcements (log : List Event) : List UInt32 := log.filterMap Event.number

/-- The waits are numbered in their order, and the one that runs is the last of them. -/
structure Numbered (s : State) : Prop where
  all : announcements s.log = (List.range (announcements s.log).length).map numberOf
  next : s.seqNext = numberOf (announcements s.log).length
  last : s.wait.active = true → (announcements s.log).getLast? = some s.wait.seq

theorem numbered_start : Numbered State.start := ⟨rfl, by decide, by rintro ⟨⟩⟩

/-- A step that announces nothing. -/
theorem Numbered.keep (h : Numbered s) (hlog : announcements t.log = announcements s.log)
    (hnext : t.seqNext = s.seqNext)
    (hwait : t.wait.active = true → s.wait.active = true ∧ t.wait.seq = s.wait.seq) : Numbered t := by
  refine ⟨?_, ?_, fun hactive => ?_⟩
  · rw [hlog]
    exact h.all
  · rw [hlog, hnext]
    exact h.next
  · rw [hlog, (hwait hactive).2]
    exact h.last (hwait hactive).1

theorem announcements_note {log : List Event} {e : Event} (he : e.number = none) :
    announcements (log ++ [e]) = announcements log := by
  simp [announcements, he]

theorem verdict_number (code : ℕ) (given : Option (Bool × List UInt8)) : (verdict code given).number = none := by
  cases given with
  | none => rfl
  | some a =>
    obtain ⟨ok, text⟩ := a
    cases ok <;> rfl

theorem Numbered.announce {block : Block} {now : ℕ} (h : Numbered s) : Numbered (announce block now s) := by
  have hlog : announcements (Mcode.announce block now s).log = announcements s.log ++ [s.seqNext] := by
    simp [Mcode.announce, State.note, announcements, Event.number]
  have hlen : (announcements (Mcode.announce block now s).log).length = (announcements s.log).length + 1 := by
    rw [hlog, List.length_append, List.length_singleton]
  refine ⟨?_, ?_, fun _ => ?_⟩
  · rw [hlen, List.range_succ, List.map_append, List.map_singleton, ← h.all, ← h.next, hlog]
  · rw [hlen, numberOf_succ, ← h.next]
    rfl
  · rw [hlog, List.getLast?_concat]
    rfl

theorem Numbered.step (h : Numbered s) (hstep : step s l = some t) : Numbered t := by
  cases step_turns hstep with
  | @request line hpumps =>
    obtain ⟨table, heq⟩ | ⟨seq, ok, text, w, hanswer, heq⟩ := handleRequest_cases line s
    · rw [heq]
      exact h.keep rfl rfl fun hactive => ⟨hactive, rfl⟩
    · rw [heq]
      obtain ⟨-, rfl⟩ := gfmcodeAnswer_eq_some.1 hanswer
      exact h.keep (announcements_note rfl) rfl fun hactive => ⟨hactive, rfl⟩
  | @execute block now hphase =>
    rw [mcodeExecute]
    split_ifs
    · exact h
    · exact h.keep (announcements_note rfl) rfl fun hactive => ⟨hactive, rfl⟩
    · exact h.keep rfl rfl fun hactive => ⟨hactive, rfl⟩
  | drains hphase hnext => exact h.keep rfl rfl fun hactive => ⟨hactive, rfl⟩
  | announces hphase => exact h.announce
  | undrained hphase => exact h.keep (announcements_note rfl) rfl fun hactive => ⟨hactive, rfl⟩
  | cut hphase => exact h.keep (announcements_note rfl) rfl fun hactive => ⟨hactive, rfl⟩
  | waits hphase hnext => exact h.keep rfl rfl fun hactive => ⟨hactive, rfl⟩
  | answered hphase hanswered => exact h.keep rfl rfl fun hactive => ⟨hactive, rfl⟩
  | timedOut hphase hanswered hlate =>
    exact h.keep (announcements_note rfl) rfl fun hactive => ⟨hactive, rfl⟩
  | broke hphase => exact h.keep (announcements_note rfl) rfl fun hactive => ⟨hactive, rfl⟩
  | @concludes aborted stopped hphase =>
    refine h.keep (announcements_note ?_) rfl (by rintro ⟨⟩)
    split_ifs
    · rfl
    · exact verdict_number _ _

/-- In every run the waits have the numbers 1, 2, 3 and so on, which come round behind 2^32 - 1. -/
theorem reach_numbered (hrun : Reach Mcode.step (fun _ _ => True) State.start s) : Numbered s :=
  hrun.invariant numbered_start fun _ _ _ h _ hstep => h.step hstep

/-- **A late answer is refused.** An answer under the number of an earlier wait is taken only by a wait
that is open, and only where the waits between the two are a multiple of 2^32 - 1. -/
theorem late_answer (hrun : Reach Mcode.step (fun _ _ => True) State.start s) {i : ℕ} {seq : UInt32}
    (hearlier : (announcements s.log)[i]? = some seq) (ok : Bool) (text : List UInt8) :
    (gfmcodeAnswer seq ok text s.wait).isSome = true ↔
      s.wait.active = true ∧ s.wait.answered = false ∧ Sayable text ∧
        ((announcements s.log).length - 1 - i) % (2 ^ 32 - 1) = 0 := by
  have h := reach_numbered hrun
  obtain ⟨hi, hseq⟩ := List.getElem?_eq_some_iff.1 hearlier
  have hnumber : seq = numberOf i := by
    rw [h.all, List.getElem?_map, List.getElem?_range hi] at hearlier
    exact (Option.some.inj hearlier).symm
  have hcurrent : s.wait.active = true → s.wait.seq = numberOf ((announcements s.log).length - 1) := by
    intro hactive
    have hlast := h.last hactive
    rw [List.getLast?_eq_getElem?, h.all, List.getElem?_map, List.length_map, List.length_range,
      List.getElem?_range (by omega)] at hlast
    exact (Option.some.inj hlast).symm
  rw [Option.isSome_iff_exists]
  constructor
  · rintro ⟨w, hw⟩
    obtain ⟨⟨hactive, hopen, heq, hlen, htext⟩, -⟩ := gfmcodeAnswer_eq_some.1 hw
    rw [hcurrent hactive, hnumber, numberOf_inj] at heq
    exact ⟨hactive, hopen, ⟨hlen, htext⟩, by omega⟩
  · rintro ⟨hactive, hopen, ⟨hlen, htext⟩, hmod⟩
    refine ⟨_, gfmcodeAnswer_eq_some.2 ⟨⟨hactive, hopen, ?_, hlen, htext⟩, rfl⟩⟩
    rw [hcurrent hactive, hnumber, numberOf_inj]
    omega

/-- The answer to the first M-code, brought again while the job waits at the second. -/
theorem late_answer_refused : ∃ s, Reach Mcode.step (fun _ _ => True) State.start s ∧
    s.wait.active = true ∧ (gfmcodeAnswer 1 true [] s.wait).isSome = false := by
  have hsecond : ∃ s, Reach Mcode.step (fun _ _ => True) State.start s ∧ (s.wait.active = true ∧
      (announcements s.log)[0]? = some 1 ∧ (announcements s.log).length = 2) :=
    Runs.exists_reach_of_exec (goesOn ++ waitsAt) (by decide +kernel)
  obtain ⟨s, hrun, hactive, hfirst, hlen⟩ := hsecond
  refine ⟨s, hrun, hactive, Bool.eq_false_iff.2 fun h => ?_⟩
  obtain ⟨-, -, -, hmod⟩ := (late_answer hrun hfirst true []).1 h
  rw [hlen] at hmod
  exact absurd hmod (by decide)

end Glowforge.Mcode
