import Glowforge.Mcode.Table
import Glowforge.Lib.Print
import Glowforge.Lib.Runs
import Glowforge.Port.Basic

/-!
# Glowforge — a job at an M-code of a package (`glowforge_mcode.c`)

The core runs `mcodeExecute` in the middle of a line. It waits for the kernel to play its tail out,
announces the M-code under a number, and waits again for the answer. Both waits pump the core, and
the port's requests come in through the pump and nowhere else.

* **`gfmcodeAnswer`**, **`gfmcodeStateJson`** — the answer, and what the port's state says meanwhile.
* **`mcodeResult`** — the request that brings an answer; the port reads it so
  (`opMcodeResult_eq`).
* **`State`**, **`step`** — `mcodeExecute`, one label for each reading of the clock, of the kernel
  and of the core's state, and for each turn of the pump.
* **`Event`** — the history: what was announced, answered, passed and held.

Times are in milliseconds.
-/

namespace Glowforge.Mcode

open Port (ascii)
open Decimal (natText)

/-! ## The answer

What an answer is and which are taken: the number must be the open wait's. -/

/-- The M-code's own words, of those that the block has. -/
structure Words where
  p : Option ℚ := none
  q : Option ℚ := none
  r : Option ℚ := none
deriving DecidableEq

/-- `wait`. -/
structure Wait where
  -- A job waits at an M-code.
  active : Bool := false
  answered : Bool := false
  ok : Bool := false
  seq : UInt32 := 0
  code : ℕ := 0
  words : Words := {}
  text : List UInt8 := []
deriving DecidableEq

def gfmcodeTextMax : ℕ := 96

/-- Printable, and no bracket: the text goes to the sender inside a `[MSG:]`. -/
def textByte (c : UInt8) : Bool := 0x20 ≤ c && c ≤ 0x7e && c != 91 && c != 93

/-- `gfmcode_answer`: the wait behind the answer, or `none` where it is refused. -/
def gfmcodeAnswer (seq : UInt32) (ok : Bool) (text : List UInt8) (w : Wait) : Option Wait :=
  if !w.active || w.answered || seq != w.seq then none
  else if gfmcodeTextMax < text.length then none
  else if !text.all textByte then none
  else some { w with text := text, ok := ok, answered := true }

theorem gfmcodeAnswer_eq_some {seq : UInt32} {ok : Bool} {text : List UInt8} {w v : Wait} :
    gfmcodeAnswer seq ok text w = some v ↔
      (w.active = true ∧ w.answered = false ∧ seq = w.seq ∧ text.length ≤ gfmcodeTextMax ∧
        text.all textByte = true) ∧ v = { w with text := text, ok := ok, answered := true } := by
  rw [gfmcodeAnswer]
  split_ifs with hwait hlen htext
  · simp only [Bool.or_eq_true, Bool.not_eq_eq_eq_not, Bool.not_true, bne_iff_ne] at hwait
    simp only [false_iff]
    rintro ⟨⟨hactive, hopen, hseq, -⟩, -⟩
    obtain (h | h) | h := hwait
    · exact absurd (hactive.symm.trans h) (by decide)
    · exact absurd (hopen.symm.trans h) (by decide)
    · exact h hseq
  · simp only [false_iff]
    rintro ⟨⟨-, -, -, hle, -⟩, -⟩
    omega
  · simp only [false_iff]
    rintro ⟨⟨-, -, -, -, hall⟩, -⟩
    simp [hall] at htext
  · simp only [Bool.or_eq_true, Bool.not_eq_eq_eq_not, Bool.not_true, bne_iff_ne, not_or,
      Bool.not_eq_false, Bool.not_eq_true, ne_eq, not_not] at hwait htext
    obtain ⟨⟨hactive, hopen⟩, hseq⟩ := hwait
    simp only [Option.some.injEq]
    refine ⟨fun h => ⟨⟨hactive, hopen, hseq, not_lt.1 hlen, htext⟩, h.symm⟩, fun h => h.2.symm⟩

/-- `gfmcode_state_json`, where `shown` prints a word's number (`%.6g`). -/
def gfmcodeStateJson (shown : ℚ → List UInt8) (w : Wait) : List UInt8 :=
  let word (name : String) (value : Option ℚ) : List (List UInt8) :=
    (value.map fun q => ascii ("\"" ++ name ++ "\":") ++ shown q).toList
  if !w.active || w.answered then ascii "null"
  else
    ascii "\x7b\"seq\":" ++ natText w.seq.toNat ++ ascii ",\"code\":" ++ natText w.code ++
      ascii ",\"words\":\x7b" ++
      (ascii ",").intercalate (word "P" w.words.p ++ word "Q" w.words.q ++ word "R" w.words.r) ++
      ascii "\x7d\x7d"

/-! ## The request that brings it -/

/-- One blank behind `ok` or `fail` is no part of the words. -/
def answerText (text : List UInt8) : List UInt8 := if text.head? = some 32 then text.tail else text

/-- What stands behind the number: `ok|fail [<words>]`. -/
def resultWord (seq : ℕ) (word : List UInt8) : Option (ℕ × Bool × List UInt8) :=
  if word = ascii "ok" || ascii "ok " <+: word then some (seq, true, answerText (word.drop 2))
  else if word = ascii "fail" || ascii "fail " <+: word then some (seq, false, answerText (word.drop 4))
  else none

/-- What `op_mcode_result` reads from `<seq> ok|fail [<words>]`. -/
def mcodeResult (args : List UInt8) : Option (ℕ × Bool × List UInt8) :=
  let (seq, rest) := Port.strtoul args
  if rest.head? ≠ some 32 || rest = args || seq == 0 then none else resultWord seq rest.tail

/-- The reply to an answer that `answer` takes or refuses. -/
def mcodeReply (answer : ℕ → Bool → List UInt8 → Bool) : Option (ℕ × Bool × List UInt8) → String
  | none => "error:invalid\n"
  | some (seq, ok, text) => if answer seq ok text then "ok\n" else "error:stale\n"

theorem mcodeReply_none (answer : ℕ → Bool → List UInt8 → Bool) : mcodeReply answer none = "error:invalid\n" := rfl

theorem mcodeReply_some (answer : ℕ → Bool → List UInt8 → Bool) (seq : ℕ) (ok : Bool) (text : List UInt8) :
    mcodeReply answer (some (seq, ok, text)) = if answer seq ok text then "ok\n" else "error:stale\n" := rfl

theorem opMcodeResult_eq (e : Port.Env) (a : Port.Asker) (args : List UInt8) (s : Port.State) :
    Port.opMcodeResult e a args s = Port.reply e a (mcodeReply e.answer (mcodeResult args)) s := by
  rw [Port.opMcodeResult, mcodeResult]
  generalize Port.strtoul args = read
  obtain ⟨seq, rest⟩ := read
  dsimp only
  split
  · next word =>
    simp only [List.head?_cons, ne_eq, not_true_eq_false, decide_false, Bool.false_or, List.tail_cons]
    by_cases hbad : (decide (32 :: word = args) || seq == 0) = true
    · rw [if_pos hbad, if_pos hbad, mcodeReply_none]
    rw [if_neg hbad, if_neg hbad, resultWord]
    by_cases hok : (decide (word = ascii "ok") || decide (ascii "ok " <+: word)) = true
    · rw [if_pos hok, if_pos hok, mcodeReply_some, answerText]
    rw [if_neg hok, if_neg hok]
    by_cases hfail : (decide (word = ascii "fail") || decide (ascii "fail " <+: word)) = true
    · rw [if_pos hfail, if_pos hfail, mcodeReply_some, answerText]
    · rw [if_neg hfail, if_neg hfail, mcodeReply_none]
  · next hblank =>
    have hhead : rest.head? ≠ some 32 := fun h => by
      obtain ⟨word, rfl⟩ := List.head?_eq_some_iff.1 h
      exact hblank word rfl
    simp only [hhead, ne_eq, not_false_eq_true, decide_true, Bool.true_or, if_true]
    rfl

/-! ## `mcodeExecute`

The wait for the kernel and the wait for the answer, each with a budget of its own and with the
reasons for which it ends. -/

/-- `GFMCODE_WAIT_S` and `GFMCODE_DRAIN_S`. -/
def gfmcodeWaitMs : ℕ := 30000
def gfmcodeDrainMs : ℕ := 5000

/-- The block, as far as the M-code reads it. -/
structure Block where
  userMcode : ℕ
  words : Words := {}
deriving DecidableEq

/-- Why `hold_job` holds the job. -/
inductive Why where
  -- Its package went away between the parse and here.
  | unanswerable
  -- The move before it did not finish.
  | undrained
  | failed (text : List UInt8)
  | unanswered
deriving DecidableEq

/-- The text of the `[MSG:]` of a held job. -/
def Why.message (code : ℕ) : Why → List UInt8
  | .unanswerable => ascii "M" ++ natText code ++ ascii " has no extension to answer it now: the job is held"
  | .undrained =>
    ascii "M" ++ natText code ++ ascii ": the move before it did not finish in 5 s: the job is held"
  | .failed text =>
    ascii "M" ++ natText code ++ ascii ": " ++
      (if text = [] then ascii "its extension did not do it" else text) ++ ascii ": the job is held"
  | .unanswered =>
    ascii "M" ++ natText code ++ ascii " had no answer from its extension in 30 s: the job is held"

/-- The text of the `[MSG:]` of a job that begins to wait. -/
def waitMessage (code : ℕ) : List UInt8 := ascii "M" ++ natText code ++ ascii " waits for its extension"

/-- The text of the `[MSG:]` of a job that goes on. -/
def doneMessage (code : ℕ) (text : List UInt8) : List UInt8 :=
  ascii "M" ++ natText code ++ ascii ": done" ++ (if text = [] then [] else ascii ": ") ++ text

/-- What has happened. -/
inductive Event where
  -- The M-code is in the port's state, from this reading of the clock on.
  | announced (seq : UInt32) (code : ℕ) (now : ℕ)
  -- `gfmcode_answer` took an answer.
  | accepted (seq : UInt32) (ok : Bool) (text : List UInt8)
  -- The wait was left because the clock read this much.
  | timedOut (now : ℕ)
  -- The wait was left because the core said so.
  | broke
  -- The job goes on, with `doneMessage`.
  | passed (code : ℕ) (text : List UInt8)
  -- `hold_job`.
  | held (code : ℕ) (why : Why)
  -- The job ended while it waited.
  | ended (seq : UInt32) (code : ℕ)
  -- The job ended before the M-code was announced.
  | cut (code : ℕ)
deriving DecidableEq

/-- The text of an event's `[MSG:]`, which `msg[160]` holds with its zero. -/
def Event.message : Event → Option (List UInt8)
  | .announced _ code _ => some (waitMessage code)
  | .passed code text => some (doneMessage code text)
  | .held code why => some (why.message code)
  | _ => none

/-- Where `mcodeExecute` is. -/
inductive Phase where
  | out
  -- Its first loop: at the test, in the pump, and behind it.
  | drainTest (block : Block) (drained : ℕ)
  | drainPump (block : Block) (drained : ℕ)
  | drainLast (block : Block)
  -- Its second.
  | waitTest (deadline : ℕ)
  | waitPump (deadline : ℕ)
  | waitLast
deriving DecidableEq

structure State where
  table : Table
  wait : Wait
  seqNext : UInt32
  phase : Phase
  log : List Event

/-- `gfmcode_init`. -/
def State.start : State where
  table := Table.empty
  wait := {}
  seqNext := 1
  phase := .out
  log := []

inductive Label where
  -- The port's request, from the hook of the pump.
  | request (line : List UInt8)
  -- The core runs a block's M-code, by this clock.
  | execute (block : Block) (now : ℕ)
  -- The test of the first loop, and what is read behind it.
  | drainPoll (idle : Bool) (now : ℕ)
  | drained (idle : Bool) (now : ℕ)
  -- `protocol_execute_realtime` returns, and `state_get` is an alarm or an emergency stop.
  | pumped (goesOn stopped : Bool)
  -- The test of the second loop.
  | waitPoll (now : ℕ)
  -- `sys.abort`, and `state_get` again.
  | waited (aborted stopped : Bool)
deriving DecidableEq

/-- An event into the history. -/
def State.note (s : State) (e : Event) : State := { s with log := s.log ++ [e] }

/-- `mcodes <list>`. -/
def setTable (list : List UInt8) (s : State) : State :=
  { s with table := (gfmcodeSetTable (some list) s.table).2 }

/-- `mcode_result <args>`. -/
def answer (args : List UInt8) (s : State) : State :=
  match mcodeResult args with
  | none => s
  | some (seq, ok, text) =>
    match gfmcodeAnswer (UInt32.ofNat seq) ok text s.wait with
    | none => s
    | some w => { s with wait := w }.note (.accepted (UInt32.ofNat seq) ok text)

/-- `handle_request`, as far as the M-codes go. -/
def handleRequest (line : List UInt8) (s : State) : State :=
  if ascii "mcodes " <+: line then setTable (line.drop 7) s
  else if ascii "mcode_result " <+: line then answer (line.drop 13) s
  else s

/-- `mcodeExecute` before its first loop. A code of another's is handed on. -/
def mcodeExecute (block : Block) (now : ℕ) (s : State) : State :=
  if !ours block.userMcode then s
  else if !answeredNow s.table block.userMcode then s.note (.held block.userMcode .unanswerable)
  else { s with phase := .drainTest block (now + gfmcodeDrainMs) }

/-- The M-code is announced, under the next number; 0 is none. -/
def announce (block : Block) (now : ℕ) (s : State) : State :=
  { s with
    wait :=
      { active := true, answered := false, ok := s.wait.ok, seq := s.seqNext, code := block.userMcode,
        words := block.words, text := [] }
    seqNext := if s.seqNext + 1 = 0 then 1 else s.seqNext + 1
    phase := .waitTest (now + gfmcodeWaitMs) }.note (.announced s.seqNext block.userMcode now)

/-- What the job does behind an answer, or without one. -/
def verdict (code : ℕ) : Option (Bool × List UInt8) → Event
  | some (true, text) => .passed code text
  | some (false, text) => .held code (.failed text)
  | none => .held code .unanswered

/-- The answer that a wait has. -/
def Wait.given (w : Wait) : Option (Bool × List UInt8) := if w.answered then some (w.ok, w.text) else none

/-- `mcodeExecute` behind its second loop. -/
def conclude (aborted stopped : Bool) (s : State) : State :=
  { s with wait := { s.wait with active := false }, phase := .out }.note
    (if aborted || stopped then .ended s.wait.seq s.wait.code else verdict s.wait.code s.wait.given)

/-- One step. The port's requests come in at the pump's turns, and while the core is elsewhere. -/
def step (s : State) : Label → Option State
  | .request line =>
    match s.phase with
    | .out | .drainPump _ _ | .waitPump _ => some (handleRequest line s)
    | _ => none
  | .execute block now =>
    match s.phase with
    | .out => some (mcodeExecute block now s)
    | _ => none
  | .drainPoll idle now =>
    match s.phase with
    | .drainTest block drained =>
      some { s with phase := if !idle && now < drained then .drainPump block drained else .drainLast block }
    | _ => none
  | .drained idle now =>
    match s.phase with
    | .drainLast block =>
      if idle then some (announce block now s)
      else some ({ s with phase := .out }.note (.held block.userMcode .undrained))
    | _ => none
  | .pumped goesOn stopped =>
    match s.phase with
    | .drainPump block drained =>
      if !goesOn || stopped then some ({ s with phase := .out }.note (.cut block.userMcode))
      else some { s with phase := .drainTest block drained }
    | .waitPump deadline =>
      if !goesOn || stopped then some ({ s with phase := .waitLast }.note .broke)
      else some { s with phase := .waitTest deadline }
    | _ => none
  | .waitPoll now =>
    match s.phase with
    | .waitTest deadline =>
      if s.wait.answered then some { s with phase := .waitLast }
      else if now < deadline then some { s with phase := .waitPump deadline }
      else some ({ s with phase := .waitLast }.note (.timedOut now))
    | _ => none
  | .waited aborted stopped =>
    match s.phase with
    | .waitLast => some (conclude aborted stopped s)
    | _ => none

end Glowforge.Mcode
