import Mathlib.Algebra.Order.Floor.Ring
import Mathlib.Data.Rat.Floor
import Glowforge.Lib.Clock

/-!
# Glowforge — the cooling engine's verdict (`glowforge_cooling.c`)

The engine publishes its verdict as a small JSON file once a second. The client reads it into a
cache of flags with a deadline, and a verdict past its deadline is no verdict.

* **`Double`** — the numbers that a document can hold: a NaN is neither below nor above any bound.
* **`jsonBool`**, **`jsonNum`**, **`jsonStr`** — the field extraction; an absent key takes the
  fail-safe default.
* **`Cool`** — the client's record: the cached verdict, the job report and the hold's flags.
* **`verdictRead`**, **`verdictFresh`** — the cache and its deadline.

The monotonic clock is in nanoseconds; `mono_ms` is its milliseconds modulo 2^32. The file's
`ts_mono` and the age computed from it are in seconds, and a finite double is the number that it
stands for. `atof` is the C library's reader of the number.
-/

namespace Glowforge.Cooling

/-- A verdict older than this many milliseconds is no verdict (`VERDICT_MAX_AGE_MS`). -/
def verdictMaxAgeMs : Nat := 2000

def reportPeriodMs : UInt32 := 1000

def nsPerMs : Nat := 1000000

/-- `mono_ms`. -/
def monoMs (now : Nat) : UInt32 := UInt32.ofNat (now / nsPerMs)

/-! ## Numbers

The age of a document is compared as a `double`, where nothing compares with a NaN, and converted
to an integer behind the comparisons. -/

/-- A `double`, finite ones exact. What a conversion makes of a NaN is undefined in C: `whole`
stands for it. -/
inductive Double where
  | nan (whole : UInt32)
  | infinity (negative : Bool)
  | number (x : ℚ)
deriving DecidableEq

/-- `x < y`. -/
def Double.lt : Double → Double → Bool
  | .number x, .number y => decide (x < y)
  | .infinity true, .number _ => true
  | .infinity true, .infinity false => true
  | .number _, .infinity false => true
  | _, _ => false

/-- The clock in seconds. -/
def seconds (now : Nat) : ℚ := now / (1000 * nsPerMs : Nat)

/-- The clock less a date. -/
def Double.age (date : Double) (now : Nat) : Double :=
  match date with
  | .nan whole => .nan whole
  | .infinity negative => .infinity !negative
  | .number x => .number (seconds now - x)

/-- `(uint32_t)(age * 1000.0)`; an infinite age has no milliseconds either. -/
def Double.wholeMs : Double → UInt32
  | .nan whole => whole
  | .infinity _ => 0
  | .number age => UInt32.ofNat ⌊age * 1000⌋.toNat

/-- The age of a stale publisher, or one of a date that the clock has not reached. -/
def Double.outside (age : Double) : Bool :=
  age.lt (.number 0) || (Double.number (verdictMaxAgeMs / 1000)).lt age

/-- A date that the comparisons let through is a NaN, or a number in the window. -/
theorem Double.of_not_outside {date : Double} {now : Nat} (h : (date.age now).outside = false) :
    (∃ whole, date = .nan whole) ∨
      ∃ x, date = .number x ∧ x ≤ seconds now ∧ seconds now - x ≤ 2 := by
  cases date with
  | nan whole => exact .inl ⟨whole, rfl⟩
  | infinity negative => cases negative <;> cases h
  | number x =>
    simp only [age, outside, lt, verdictMaxAgeMs, Bool.or_eq_false_iff, decide_eq_false_iff_not, not_lt,
      sub_nonneg] at h
    refine .inr ⟨x, rfl, h.1, h.2.trans ?_⟩
    norm_num

/-! ## The file

The engine's JSON is searched for its keys, in any order. -/

/-- `strstr`: the text from the first match on. -/
def strstr (pat : List Char) : List Char → Option (List Char)
  | [] => if pat = [] then some [] else none
  | c :: cs => if pat.isPrefixOf (c :: cs) then some (c :: cs) else strstr pat cs

/-- The pattern of a key, `"key":`. -/
def keyPattern (key : String) : List Char := '"' :: key.toList ++ ['"', ':']

def jsonBool (body : List Char) (key : String) (dflt : Bool) : Bool :=
  match strstr (keyPattern key) body with
  | none => dflt
  | some p =>
    let v := p.drop (keyPattern key).length
    if "true".toList.isPrefixOf v then true
    else if "false".toList.isPrefixOf v then false
    else dflt

def jsonNum (atof : List Char → Double) (body : List Char) (key : String) : Option Double :=
  (strstr (keyPattern key) body).map fun p => atof (p.drop (keyPattern key).length)

/-- `json_str` into a field of `len` bytes; a string without its closing quote is empty. -/
def jsonStr (body : List Char) (key : String) (len : Nat) : List Char :=
  let pat := keyPattern key ++ ['"']
  match strstr pat body with
  | none => []
  | some p =>
    let v := p.drop pat.length
    if '"' ∈ v then (v.takeWhile (· ≠ '"')).take (len - 1) else []

/-! ## The client's record

The cached verdict with its deadline, what is left of the job report, and the flags of a hold. -/

/-- A verdict that was accepted: its `ts_mono`, and `verdict_read`'s two readings of the clock. -/
structure Accepted where
  ts : Double
  first : Nat
  second : Nat
deriving DecidableEq

structure Cool where
  vFireOk : Bool
  vHold : Bool
  vResumeOk : Bool
  vArmed : Bool
  vFreshUntilMs : UInt32
  vReason : List Char
  vReasonShown : List Char
  vName : List Char
  pauseSaid : Bool
  decelLit : Bool
  holdOurs : Bool
  reholdSaid : Bool
  jogWarned : Bool
  fallbackDone : Bool
  staleWarned : Bool
  laserOnWindow : Bool
  -- `coolant_reported.flood`
  flood : Bool
  wasRun : Bool
  nextReportMs : UInt32
  nextVerdictMs : UInt32
  -- history: the verdicts accepted so far, newest first
  accepted : List Accepted
deriving DecidableEq

/-- The client at `gfcool_init`, after any uptime. -/
def Cool.init (now : Nat) : Cool where
  vFireOk := false
  vHold := false
  vResumeOk := false
  vArmed := false
  vFreshUntilMs := 0
  vReason := []
  vReasonShown := []
  vName := []
  pauseSaid := false
  decelLit := false
  holdOurs := false
  reholdSaid := false
  jogWarned := false
  fallbackDone := false
  staleWarned := false
  laserOnWindow := false
  flood := false
  wasRun := false
  nextReportMs := monoMs now
  nextVerdictMs := monoMs now
  accepted := []

/-! ## Reading and expiring

The deadline of a verdict is what its age leaves of the window, from the second reading of the clock
on. Both are 32-bit numbers, and wrap. -/

/-- What is left of the window. -/
def Accepted.leftMs (a : Accepted) : UInt32 :=
  UInt32.ofNat verdictMaxAgeMs - (a.ts.age a.first).wholeMs

/-- The deadline in milliseconds, before it wraps. -/
def Accepted.deadline (a : Accepted) : ℤ := (a.second / nsPerMs : Nat) + a.leftMs.toInt32.toInt

/-- The text that `verdict_read` works on, if it is a complete document: what `fread` took, up
to its first NUL. -/
def completeDocument (file : Option (List Char)) : Option (List Char) :=
  file.bind fun text =>
    let body := text.take 1023
    if '}' ∈ body then some (body.takeWhile (· ≠ '\x00')) else none

/-- `verdict_read`. -/
def verdictRead (atof : List Char → Double) (file : Option (List Char)) (first second : Nat)
    (s : Cool) : Cool :=
  match completeDocument file with
  | none => s
  | some body =>
    match jsonNum atof body "ts_mono" with
    | none => s
    | some ts =>
      if (ts.age first).outside then s
      else
        { s with
          vHold := jsonBool body "hold" true
          vResumeOk := jsonBool body "resume_ok" false
          vFireOk := jsonBool body "fire_ok" false
          vArmed := jsonBool body "armed" false
          vReason := jsonStr body "reason" 112
          vName := jsonStr body "verdict" 16
          vFreshUntilMs := monoMs second + Accepted.leftMs ⟨ts, first, second⟩
          accepted := ⟨ts, first, second⟩ :: s.accepted }

/-- `verdict_fresh`. -/
def verdictFresh (now : Nat) (s : Cool) : Bool := Clock.before (monoMs now) s.vFreshUntilMs

/-- `gfcool_verdict_fire_ok`. -/
def gfcoolVerdictFireOk (now : Nat) (s : Cool) : Bool := verdictFresh now s && s.vFireOk

/-- `gfcool_run_ack`. -/
def gfcoolRunAck (now : Nat) (s : Cool) : Bool := verdictFresh now s && s.vArmed

end Glowforge.Cooling
