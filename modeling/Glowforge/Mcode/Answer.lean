import Glowforge.Mcode.Barrier

/-!
# Glowforge — an answer's way from the port to the sender (`ctlport.c`, `glowforge_mcode.c`)

The daemon reads the number of the wait in the port's state, and brings the package's answer back
under it. The words of the answer end up in a message to the sender.

* **`resultRequest`** — the daemon's request.
* **`strtoul_natText`**, **`mcodeResult_request`** — it reads back as the number and the words.
* **`gfmcodeStateJson_seq`** — the state has the number in front.
* **`answer_delivered`** — hence in every run an open wait takes its answer, and the reply is `ok`.
* **`reach_messages`** — whatever the packages answer, no message is cut short or holds a bracket or
  a control byte, so that no answer ends a message or starts one.
-/

namespace Glowforge.Mcode

open Port (ascii)
open Decimal (natText isDigit Digits number)
open Runs (Reach)

/-! ## The request

The number and the words that the daemon writes, and the port's reading of them. -/

/-- The words behind `ok` or `fail`: a blank before them, and nothing where there are none. -/
def behind (text : List UInt8) : List UInt8 := if text = [] then [] else 32 :: text

def verdictWord : Bool → List UInt8
  | true => ascii "ok"
  | false => ascii "fail"

/-- `mcode_result <seq> ok|fail [<words>]`, as the daemon writes it. -/
def resultRequest (seq : UInt32) (ok : Bool) (text : List UInt8) : List UInt8 :=
  ascii "mcode_result " ++ (natText seq.toNat ++ 32 :: (verdictWord ok ++ behind text))

theorem portDigits_append {ds rest : List UInt8} (hds : Digits ds)
    (hrest : ∀ c ∈ rest.head?, isDigit c = false) (n : ℕ) :
    Port.digits n (ds ++ rest) = (ds.foldl (fun n c => 10 * n + (c.toNat - 48)) n, rest) := by
  induction ds generalizing n with
  | nil =>
    cases rest with
    | nil => rfl
    | cons c rest =>
      have hc : ¬(48 ≤ c ∧ c ≤ 57) := fun h => by
        have := hrest c rfl
        simp [isDigit, h] at this
      rw [List.nil_append, Port.digits, if_neg hc]
      rfl
  | cons c ds ih =>
    have hc : 48 ≤ c ∧ c ≤ 57 := by simpa [isDigit] using hds c List.mem_cons_self
    rw [List.cons_append, Port.digits, if_pos hc, ih fun d hd => hds d (List.mem_cons_of_mem c hd),
      List.foldl_cons, Nat.mul_comm n 10]

/-- `strtoul` reads what `%u` prints. -/
theorem strtoul_natText {n : ℕ} (hn : n < 2 ^ 32) {rest : List UInt8}
    (hrest : ∀ c ∈ rest.head?, isDigit c = false) : Port.strtoul (natText n ++ rest) = (n, rest) := by
  obtain ⟨c, ds, hcons⟩ := List.exists_cons_of_ne_nil (Decimal.natText_ne_nil n)
  have hdigits := Decimal.digits_natText n
  have hread : Port.digits 0 (natText n ++ rest) = (n, rest) := by
    rw [portDigits_append hdigits hrest]
    exact congrArg (·, rest) (Decimal.number_natText n)
  rw [hcons] at hdigits hread ⊢
  have hc : 48 ≤ c ∧ c ≤ 57 := by simpa [isDigit] using hdigits c List.mem_cons_self
  have hspace : (c == 32 || (9 ≤ c && c ≤ 13)) = false := by
    rw [UInt8.le_iff_toNat_le, UInt8.le_iff_toNat_le] at hc
    have h48 : (48 : UInt8).toNat = 48 := rfl
    simp only [Bool.or_eq_false_iff, Bool.and_eq_false_iff, beq_eq_false_iff_ne, ne_eq,
      decide_eq_false_iff_not, UInt8.le_iff_toNat_le, ← UInt8.toNat_inj]
    have h32 : (32 : UInt8).toNat = 32 := rfl
    have h13 : (13 : UInt8).toNat = 13 := rfl
    omega
  have hsign : c ≠ 45 ∧ c ≠ 43 := by
    constructor
    all_goals
      rintro rfl
      exact absurd hc.1 (by decide)
  have hfront : (c :: ds ++ rest).dropWhile (fun c => c == 32 || (9 ≤ c && c ≤ 13)) = c :: ds ++ rest := by
    rw [List.cons_append, List.dropWhile_cons_of_neg (by rw [hspace]; decide)]
  rw [Port.strtoul, hfront]
  simp only [List.cons_append, List.head?_cons, Option.some_beq_some,
    beq_eq_false_iff_ne.2 hsign.1, beq_eq_false_iff_ne.2 hsign.2, Bool.or_self, Bool.false_eq_true, if_false]
  rw [List.cons_append] at hread
  rw [if_pos hc, hread]
  dsimp only
  rw [if_neg (by omega)]

theorem answerText_behind (text : List UInt8) : answerText (behind text) = text := by
  rw [behind]
  split
  · next h =>
    rw [h]
    rfl
  · rfl

theorem resultWord_request (n : ℕ) (ok : Bool) (text : List UInt8) :
    resultWord n (verdictWord ok ++ behind text) = some (n, ok, text) := by
  have hshape : ∀ word : List UInt8, word ++ behind text = word ∨ word ++ [32] <+: word ++ behind text := by
    intro word
    rw [behind]
    split
    · exact .inl (List.append_nil word)
    · exact .inr ⟨text, by rw [List.append_assoc]; rfl⟩
  cases ok with
  | true =>
    have hok : (decide (ascii "ok" ++ behind text = ascii "ok") ||
        decide (ascii "ok " <+: ascii "ok" ++ behind text)) = true := by
      rw [Bool.or_eq_true, decide_eq_true_eq, decide_eq_true_eq]
      exact hshape (ascii "ok")
    have hdrop : (ascii "ok" ++ behind text).drop 2 = behind text := List.drop_left' rfl
    change resultWord n (ascii "ok" ++ behind text) = some (n, true, text)
    rw [resultWord, if_pos hok, hdrop, answerText_behind]
  | false =>
    have hfail : (decide (ascii "fail" ++ behind text = ascii "fail") ||
        decide (ascii "fail " <+: ascii "fail" ++ behind text)) = true := by
      rw [Bool.or_eq_true, decide_eq_true_eq, decide_eq_true_eq]
      exact hshape (ascii "fail")
    have hnot : ¬(decide (ascii "fail" ++ behind text = ascii "ok") ||
        decide (ascii "ok " <+: ascii "fail" ++ behind text)) = true := by
      rw [Bool.or_eq_true, decide_eq_true_eq, decide_eq_true_eq, not_or]
      constructor
      · intro h
        cases (List.cons.inj h).1
      · rintro ⟨rest, h⟩
        cases (List.cons.inj h).1
    have hdrop : (ascii "fail" ++ behind text).drop 4 = behind text := List.drop_left' rfl
    change resultWord n (ascii "fail" ++ behind text) = some (n, false, text)
    rw [resultWord, if_neg hnot, if_pos hfail, hdrop, answerText_behind]

/-- **A request reads back** as its number, its verdict and its words. -/
theorem mcodeResult_request {seq : UInt32} (hseq : seq ≠ 0) (ok : Bool) (text : List UInt8) :
    mcodeResult ((resultRequest seq ok text).drop 13) = some (seq.toNat, ok, text) := by
  have hdrop : (resultRequest seq ok text).drop 13 = natText seq.toNat ++
      32 :: (verdictWord ok ++ behind text) := List.drop_left' rfl
  have hgood : ∀ rest : List UInt8, (decide ((32 :: rest).head? ≠ some 32) ||
      decide (32 :: rest = natText seq.toNat ++ 32 :: rest) || seq.toNat == 0) = false := by
    intro rest
    have hzero : seq.toNat ≠ 0 := fun h => hseq (UInt32.toNat_inj.1 h)
    have hne : ¬32 :: rest = natText seq.toNat ++ 32 :: rest := fun h =>
      Decimal.natText_ne_nil _ (List.self_eq_append_left.1 h)
    rw [decide_eq_false hne, beq_eq_false_iff_ne.2 hzero]
    rfl
  rw [hdrop, mcodeResult, strtoul_natText seq.toNat_lt (by rintro c ⟨⟩; rfl)]
  dsimp only
  rw [if_neg (by rw [hgood]; decide)]
  exact resultWord_request _ ok text

/-! ## An open wait takes its answer

From the state's text through the daemon to the request, in every run in which the wait is still
open. -/

/-- `gfmcode_answer`, as the port calls it. -/
def answers (w : Wait) (seq : ℕ) (ok : Bool) (text : List UInt8) : Bool :=
  (gfmcodeAnswer (UInt32.ofNat seq) ok text w).isSome

theorem natText_length {n k : ℕ} (hk : 0 < k) (h : n < 10 ^ k) : (natText n).length ≤ k := by
  rw [natText]
  split
  · exact hk
  · rw [List.length_map, List.length_reverse]
    exact (Nat.digits_length_le_iff (by decide) n).2 h

/-- The port has room for the request. -/
theorem resultRequest_length (seq : UInt32) (ok : Bool) {text : List UInt8} (h : Sayable text) :
    (resultRequest seq ok text).length < 160 := by
  have hseq : (natText seq.toNat).length ≤ 10 := natText_length (by decide) (by have := seq.toNat_lt; omega)
  have hword : (verdictWord ok).length ≤ 4 := by cases ok <;> decide
  have htext : (behind text).length ≤ gfmcodeTextMax + 1 := by
    have := h.1
    rw [behind]
    split
    · exact Nat.zero_le _
    · rw [List.length_cons]
      omega
  have hop : (ascii "mcode_result ").length = 13 := rfl
  have hmax : gfmcodeTextMax = 96 := rfl
  rw [resultRequest, List.length_append, List.length_append, List.length_cons, List.length_append]
  omega

theorem starts_mcodeResult (seq : UInt32) (ok : Bool) (text : List UInt8) :
    ascii "mcode_result " <+: resultRequest seq ok text := ⟨_, rfl⟩

/-- The request is none of the others. -/
theorem not_starts {op : List UInt8} (seq : UInt32) (ok : Bool) (text : List UInt8)
    (h : ¬(ascii "mcode_result ").take op.length = op) (hlen : op.length ≤ 13) :
    ¬op <+: resultRequest seq ok text := by
  intro hp
  refine h ?_
  have htake := List.prefix_iff_eq_take.1 hp
  rw [resultRequest, List.take_append_of_le_length hlen] at htake
  exact htake.symm

/-- What an answer leaves, where it is taken. -/
def State.answered (s : State) (ok : Bool) (text : List UInt8) : State :=
  { s with wait := { s.wait with text := text, ok := ok, answered := true } }.note
    (.accepted s.wait.seq ok text)

variable {s : State} {text : List UInt8}

/-- The request is one for the answer, here and in the port. -/
theorem handleRequest_result (seq : UInt32) (ok : Bool) (text : List UInt8) (s : State) :
    handleRequest (resultRequest seq ok text) s = answer ((resultRequest seq ok text).drop 13) s := by
  rw [handleRequest, if_neg (not_starts seq ok text (by decide) (by decide)),
    if_pos (starts_mcodeResult seq ok text)]

theorem portRequest_result (e : Port.Env) (a : Port.Asker) (seq : UInt32) (ok : Bool) (text : List UInt8)
    (p : Port.State) : Port.handleRequest e a (resultRequest seq ok text) p =
      Port.opMcodeResult e a ((resultRequest seq ok text).drop 13) p := by
  have hne : ∀ op : List UInt8, ¬(ascii "mcode_result ").take op.length = op → op.length ≤ 13 →
      ¬resultRequest seq ok text = op := by
    rintro op hop hlen rfl
    exact not_starts seq ok text hop hlen (List.prefix_rfl)
  rw [Port.handleRequest, if_neg (hne _ (by decide) (by decide)),
    if_neg (not_starts seq ok text (by decide) (by decide)), if_neg (hne _ (by decide) (by decide)),
    if_neg (hne _ (by decide) (by decide)), if_neg (hne _ (by decide) (by decide)),
    if_neg (hne _ (by decide) (by decide)), if_neg, if_neg (not_starts seq ok text (by decide) (by decide)),
    if_neg (not_starts seq ok text (by decide) (by decide)), if_pos (starts_mcodeResult seq ok text)]
  rw [decide_eq_false (hne (ascii "envelope open") (by decide) (by decide)), Bool.false_or, decide_eq_true_eq]
  intro h
  have htake := congrArg (List.take 13) h
  rw [resultRequest, List.take_append_of_le_length (by decide)] at htake
  exact absurd htake (by decide)

/-- **An open wait takes its answer**: in every run, the number that the port's state shows brings the
package's words to the job as they are, in one request of the port's, which is told `ok`. -/
theorem answer_delivered (hrun : Reach Mcode.step (fun _ _ => True) State.start s)
    (hactive : s.wait.active = true) (hopen : s.wait.answered = false) (htext : Sayable text) (ok : Bool)
    (shown : ℚ → List UInt8) (e : Port.Env) (a : Port.Asker) (p : Port.State) :
    ascii "\x7b\"seq\":" ++ natText s.wait.seq.toNat ++ ascii "," <+: gfmcodeStateJson shown s.wait ∧
      (resultRequest s.wait.seq ok text).length < 160 ∧
      handleRequest (resultRequest s.wait.seq ok text) s = s.answered ok text ∧
      Port.handleRequest { e with answer := answers s.wait } a (resultRequest s.wait.seq ok text) p =
        Port.reply { e with answer := answers s.wait } a "ok\n" p := by
  have hseq : s.wait.seq ≠ 0 := by
    have h := reach_numbered hrun
    have hlast := List.mem_of_getLast? (h.last hactive)
    rw [h.all] at hlast
    obtain ⟨i, -, hi⟩ := List.mem_map.1 hlast
    rw [← hi]
    exact numberOf_ne_zero i
  have hanswer : gfmcodeAnswer (UInt32.ofNat s.wait.seq.toNat) ok text s.wait =
      some { s.wait with text := text, ok := ok, answered := true } := by
    rw [UInt32.ofNat_toNat]
    exact gfmcodeAnswer_eq_some.2 ⟨⟨hactive, hopen, rfl, htext.1, htext.2⟩, rfl⟩
  refine ⟨?_, resultRequest_length _ ok htext, ?_, ?_⟩
  · rw [gfmcodeStateJson, hactive, hopen]
    exact ⟨_, by simp only [List.append_assoc]; rfl⟩
  · rw [handleRequest_result, answer, mcodeResult_request hseq]
    dsimp only
    rw [hanswer, UInt32.ofNat_toNat]
    rfl
  · have htaken : answers s.wait s.wait.seq.toNat ok text = true := by
      rw [answers, hanswer]
      rfl
    rw [portRequest_result, opMcodeResult_eq, mcodeResult_request hseq, mcodeReply_some, if_pos htaken]

theorem answer_delivered_put : ∃ s, Reach Mcode.step (fun _ _ => True) State.start s ∧ s.wait.seq = 1 ∧
    handleRequest (resultRequest s.wait.seq true (ascii "put down")) s = s.answered true (ascii "put down") := by
  have hwaits : ∃ s, Reach Mcode.step (fun _ _ => True) State.start s ∧
      (s.wait.active = true ∧ s.wait.answered = false ∧ s.wait.seq = 1) :=
    Runs.exists_reach_of_exec waitsAt (by decide +kernel)
  obtain ⟨s, hrun, hactive, hopen, hseq⟩ := hwaits
  exact ⟨s, hrun, hseq, (answer_delivered hrun hactive hopen (by decide) true (fun _ => []) {} ⟨0, 0⟩
    Port.State.start).2.2.1⟩

/-! ## The messages

The text of an answer is the packages'. The filter on its bytes and the bound on its length are what
keeps a message whole. -/

/-- What an event says to the sender: an M-code of the range, and words without brackets. -/
def Event.Says : Event → Prop
  | .announced _ code _ => ours code = true
  | .passed code text => ours code = true ∧ Sayable text
  | .held code (.failed text) => ours code = true ∧ Sayable text
  | .held code _ => ours code = true
  | _ => True

theorem says_verdict {code : ℕ} {given : Option (Bool × List UInt8)} (hours : ours code = true)
    (hgiven : ∀ a ∈ given, Sayable a.2) : (verdict code given).Says := by
  cases given with
  | none => exact hours
  | some a =>
    obtain ⟨ok, text⟩ := a
    have htext := hgiven _ rfl
    cases ok
    · exact ⟨hours, htext⟩
    · exact ⟨hours, htext⟩

theorem says_answerEvents (seq : UInt32) (given : Option (Bool × List UInt8)) :
    ∀ e ∈ answerEvents seq given, e.Says := by
  intro e he
  cases given with
  | none => cases he
  | some a =>
    obtain rfl := List.mem_singleton.1 he
    trivial

theorem Leaves.speaks {since : ℕ} {answered : Bool} {leaving : List Event} (h : Leaves since answered leaving) :
    ∀ e ∈ leaving, e.Says := by
  intro e he
  cases h with
  | answered => cases he
  | timedOut =>
    obtain rfl := List.mem_singleton.1 he
    trivial
  | broke =>
    obtain rfl := List.mem_singleton.1 he
    trivial

theorem Episode.speaks {events : List Event} (h : Episode events) : ∀ e ∈ events, e.Says := by
  intro e he
  cases h with
  | unanswerable hours =>
    obtain rfl := List.mem_singleton.1 he
    exact hours
  | undrained hours =>
    obtain rfl := List.mem_singleton.1 he
    exact hours
  | cut =>
    obtain rfl := List.mem_singleton.1 he
    trivial
  | @waited seq code since given leaving last hours hgiven hleaves hlast =>
    simp only [List.mem_cons, List.mem_append, List.not_mem_nil, or_false] at he
    obtain rfl | he | he | rfl := he
    · exact hours
    · exact says_answerEvents _ _ e he
    · exact hleaves.speaks e he
    · obtain rfl | rfl := hlast
      · trivial
      · exact says_verdict hours hgiven

/-- What has begun says no more than an episode does. -/
theorem Begun.speaks {part : List Event} (h : Begun s part) : ∀ e ∈ part, e.Says := by
  intro e he
  rw [Begun] at h
  split at h
  · rw [h.1] at he
    cases he
  all_goals try
    rw [h.1] at he
    cases he
  all_goals try
    obtain ⟨since, -, -, hours, -, rfl⟩ := h
    obtain rfl | he := List.mem_cons.1 he
    · exact hours
    · exact says_answerEvents _ _ e he
  obtain ⟨since, leaving, hours, -, hleaves, rfl⟩ := h
  obtain rfl | he := List.mem_cons.1 he
  · exact hours
  · obtain he | he := List.mem_append.1 he
    · exact says_answerEvents _ _ e he
    · exact hleaves.speaks e he

/-- An M-code of the range prints as three digits. -/
theorem natText_ours {code : ℕ} (h : ours code = true) :
    (natText code).length ≤ 3 ∧ (natText code).all textByte = true := by
  obtain ⟨hmin, hmax⟩ := ours_iff.1 h
  refine ⟨natText_length (by decide) (by rw [gfmcodeMax] at hmax; omega), List.all_eq_true.2 fun c hc => ?_⟩
  have hdigit := Decimal.digits_natText code c hc
  rw [isDigit, Bool.and_eq_true, decide_eq_true_eq, decide_eq_true_eq, UInt8.le_iff_toNat_le,
    UInt8.le_iff_toNat_le] at hdigit
  have h48 : (48 : UInt8).toNat = 48 := rfl
  have h57 : (57 : UInt8).toNat = 57 := rfl
  have h32 : (0x20 : UInt8).toNat = 32 := rfl
  have h126 : (0x7e : UInt8).toNat = 126 := rfl
  have h91 : (91 : UInt8).toNat = 91 := rfl
  have h93 : (93 : UInt8).toNat = 93 := rfl
  simp only [textByte, Bool.and_eq_true, decide_eq_true_eq, bne_iff_ne, ne_eq, UInt8.le_iff_toNat_le,
    ← UInt8.toNat_inj]
  omega

/-- A message of an M-code of the range, by what stands behind its number. -/
theorem message_fits {code : ℕ} {tail : List UInt8} (h : ours code = true) (hlen : tail.length < 156)
    (hall : tail.all textByte = true) :
    (ascii "M" ++ (natText code ++ tail)).length < 160 ∧ (ascii "M" ++ (natText code ++ tail)).all textByte = true := by
  obtain ⟨hcode, hcodeAll⟩ := natText_ours h
  have hm : (ascii "M").length = 1 ∧ (ascii "M").all textByte = true := by decide
  rw [List.length_append, List.length_append, List.all_append, List.all_append, hcodeAll, hall, hm.2]
  exact ⟨by omega, rfl⟩

/-- A message that says no more is whole, and printable without brackets. -/
theorem Event.Says.message {e : Event} (h : e.Says) {m : List UInt8} (hm : e.message = some m) :
    m.length < 160 ∧ m.all textByte = true := by
  have hmax : gfmcodeTextMax = 96 := rfl
  cases e with
  | announced seq code now =>
    obtain rfl := Option.some.inj hm
    rw [waitMessage, List.append_assoc]
    exact message_fits h (by decide) (by decide)
  | passed code text =>
    obtain ⟨hours, htext, hall⟩ := h
    obtain rfl := Option.some.inj hm
    have hdone : (ascii ": done").length = 6 ∧ (ascii ": ").length = 2 := by decide
    rw [doneMessage, List.append_assoc, List.append_assoc, List.append_assoc]
    refine message_fits hours ?_ ?_
    · split <;> simp only [List.length_append, List.length_nil] <;> omega
    · split <;> simp only [List.all_append, hall] <;> decide
  | held code why =>
    obtain rfl := Option.some.inj hm
    cases why with
    | failed text =>
      obtain ⟨hours, htext, hall⟩ := h
      have hheld : (ascii ": ").length = 2 ∧ (ascii "its extension did not do it").length = 27 ∧
        (ascii ": the job is held").length = 17 := by decide
      rw [Why.message, List.append_assoc, List.append_assoc, List.append_assoc]
      refine message_fits hours ?_ ?_
      · split <;> simp only [List.length_append] <;> omega
      · split <;> simp only [List.all_append, hall] <;> decide
    | unanswerable =>
      rw [Why.message, List.append_assoc]
      exact message_fits h (by decide) (by decide)
    | undrained =>
      rw [Why.message, List.append_assoc]
      exact message_fits h (by decide) (by decide)
    | unanswered =>
      rw [Why.message, List.append_assoc]
      exact message_fits h (by decide) (by decide)
  | accepted | timedOut | broke | ended | cut => cases hm

/-- **No answer makes a message that is not one**: in every run, each message of an M-code fits its
buffer, and holds no bracket and no control byte. -/
theorem reach_messages (hrun : Reach Mcode.step (fun _ _ => True) State.start s) {e : Event}
    (he : e ∈ s.log) {m : List UInt8} (hm : e.message = some m) : m.length < 160 ∧ m.all textByte = true := by
  obtain ⟨episodes, part, heach, hbegun, hlog⟩ := reach_course hrun
  refine Event.Says.message ?_ hm
  rw [hlog] at he
  obtain he | he := List.mem_append.1 he
  · obtain ⟨episode, hmem, he⟩ := List.mem_flatten.1 he
    exact (heach episode hmem).speaks e he
  · exact hbegun.speaks e he

theorem messages_goesOn : ∃ s, Reach Mcode.step (fun _ _ => True) State.start s ∧
    .passed 160 (ascii "put down") ∈ s.log ∧
    (ascii "M160: done: put down").all textByte = true := by
  have hpasses : ∃ s, Reach Mcode.step (fun _ _ => True) State.start s ∧
      .passed 160 (ascii "put down") ∈ s.log := Runs.exists_reach_of_exec goesOn (by decide +kernel)
  obtain ⟨s, hrun, hmem⟩ := hpasses
  exact ⟨s, hrun, hmem, (reach_messages hrun hmem (by decide)).2⟩

end Glowforge.Mcode
