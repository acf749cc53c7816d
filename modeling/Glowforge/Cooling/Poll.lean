import Glowforge.Cooling.Verdict
import Glowforge.Laser.Basic

/-!
# Glowforge — the cooling client's poll (`glowforge_cooling.c`)

`gfcool_poll` runs in the driver's realtime hook: it reads the verdict file at half the
staleness window and enforces the cached verdict on every call. A verdict that asks for a hold,
or blocks fire inside the armed window, or is missing under a running job, takes a feed hold;
a clean one resumes the hold that the client took.

* **`gfcoolPoll`** — the poll, with the commands and messages it issues.
* **`State`**, **`step`** — the client beside the core: the core takes the client's feed hold
  some time after it was enqueued, and is held, resumed, reset and started by others too.

What the poll calls in the laser module is its environment: the answer of
`gflaser_resume_gate`, and a disarm from `gflaser_verdict_fail`.
-/

namespace Glowforge.Cooling

open Glowforge.Laser (SysState)

/-- A job report's mode (`report_mode`). -/
inductive Mode where
  | run
  | cooldown
  | idle
deriving DecidableEq, Repr

/-- What a call does to the rest of the machine. -/
inductive Act where
  | warn (msg : String)
  | info (msg : String)
  | warnReason (reason : List Char)
  | feedHold
  | jogCancel
  -- the resume: `gated` when the laser's gate takes it over, else `CMD_CYCLE_START`
  | resume (gated : Bool)
  | verdictFail (name : List Char)
  | heaterOff
  | fallbackFans
  | report (mode : Mode) (armed : Bool)
deriving DecidableEq

/-- What one poll reads: the clock, in the order of its calls, the file, the core and the laser
module. -/
structure PollEnv where
  now : Nat
  first : Nat
  second : Nat
  fresh : Nat
  fire : Nat
  report : Nat
  file : Option (List Char)
  holdComplete : Bool
  resumeGate : Bool

/-! ## Reports

A report says the mode and whether the window is open. One is made where the coolant or the window
begins or ends a job, at every arm and disarm, and once a period. -/

def reportMode (st : SysState) (s : Cool) : Mode :=
  if s.flood || s.laserOnWindow then .run
  else if s.wasRun && (st = .cycle || st = .hold) then .cooldown
  else .idle

/-- `report_now`. -/
def reportNow (now : Nat) (st : SysState) (s : Cool) : Cool × List Act :=
  let mode := reportMode st s
  ({ s with
      wasRun := s.wasRun && mode ≠ .idle
      nextReportMs := monoMs now + reportPeriodMs },
    [.report mode s.laserOnWindow])

/-- `gfcool_coolant_set`. -/
def gfcoolCoolantSet (now : Nat) (st : SysState) (flood : Bool) (s : Cool) : Cool × List Act :=
  let was := s.flood || s.laserOnWindow
  let t := { s with flood := flood }
  if (flood || s.laserOnWindow) ≠ was then
    reportNow now st { t with wasRun := t.wasRun || !was }
  else (t, [])

/-- `gfcool_laser_armed`. -/
def gfcoolLaserArmed (now : Nat) (st : SysState) (armed : Bool) (s : Cool) : Cool × List Act :=
  if s.laserOnWindow = armed then (s, [])
  else
    let was := s.flood || s.laserOnWindow
    reportNow now st { s with
      laserOnWindow := armed
      wasRun := s.wasRun || (!was && (s.flood || armed)) }

/-! ## The hold

`hold_take` takes a feed hold and marks it as the client's own. A hold that is taken with none of
its own standing lights the deceleration, until the core is held or goes on. -/

/-- `hold_take`. -/
def holdTake (stale : Bool) (s : Cool) : Cool × List Act :=
  let again := s.holdOurs && !s.reholdSaid
  ({ s with
      reholdSaid := s.reholdSaid || again
      decelLit := s.decelLit || !s.holdOurs
      holdOurs := true },
    (if again then
      [.warn (if stale then "cooling service lost - job held again"
        else "cooling hold stands - job held again; reset the job")]
      else []) ++ [.feedHold])

/-- `decel_track`. -/
def decelTrack (st : SysState) (holdComplete : Bool) (s : Cool) : Cool :=
  if st = .hold ∧ holdComplete then { s with decelLit := false }
  else if st ≠ .cycle ∧ st ≠ .hold then { s with decelLit := false }
  else s

/-- The verdicts that a job cannot continue from. -/
def verdictFailTier (name : List Char) : Bool :=
  name = "FIRE".toList || name = "CRASH".toList || name = "AIRFLOW".toList ||
    name = "CRITICAL".toList

/-! ## The poll

`gfcool_poll`, in its order: the file where it is due, the tiers of a verdict that blocks fire
inside the window, the verdict's branches behind the relay of its reason, and the periodic report. -/

/-- The read of the file, when it is due. -/
def pollRead (atof : List Char → Double) (e : PollEnv) (s : Cool) : Cool :=
  if Clock.due (monoMs e.now) s.nextVerdictMs then
    verdictRead atof e.file e.first e.second { s with nextVerdictMs := monoMs e.now + 500 }
  else s

/-- The tiers: a fail-tier verdict inside the window ends the job, which disarms. -/
def pollTiers (e : PollEnv) (st : SysState) (armed blocked fresh : Bool) (s : Cool) :
    Cool × List Act :=
  if armed && blocked then
    if fresh && verdictFailTier s.vName then
      let (t, acts) := gfcoolLaserArmed e.report st false s
      (t, .verdictFail s.vName :: acts)
    else if s.pauseSaid then (s, [])
    else ({ s with pauseSaid := true },
      [.warn "cooling verdict blocks fire - fire masked, job held"])
  else ({ s with pauseSaid := false, decelLit := false }, [])

/-- No verdict: fire is blocked, a running job held, and an armed window gets its fans. -/
def verdictMissing (st : SysState) (s : Cool) : Cool × List Act :=
  if s.laserOnWindow || s.flood then
    let warned : List Act := if s.staleWarned then []
      else [.warn "cooling service lost - fire blocked, holding", .heaterOff]
    let s := { s with staleWarned := true }
    let (s, held) :=
      if st = .cycle then holdTake true s
      else if st = .hold then ({ s with reholdSaid := false }, [])
      else (s, [])
    if s.laserOnWindow && !s.fallbackDone then
      ({ s with fallbackDone := true }, warned ++ held ++ [.fallbackFans])
    else (s, warned ++ held)
  else (s, [])

/-- A verdict that asks for a hold, or blocks fire inside the window. -/
def verdictHolds (st : SysState) (s : Cool) : Cool × List Act :=
  if st = .cycle then holdTake false s
  else if st = .hold then ({ s with reholdSaid := false }, [])
  else if st = .jog then
    ({ s with jogWarned := true },
      .jogCancel :: if s.jogWarned then [] else [.warn "jog canceled on the cooling verdict"])
  else (s, [])

/-- A verdict that asks for nothing: the client's own hold is resumed, or was ended. -/
def verdictClean (e : PollEnv) (st : SysState) (s : Cool) : Cool × List Act :=
  let s := { s with jogWarned := false, reholdSaid := false }
  if s.holdOurs then
    if st ≠ .hold then ({ s with holdOurs := false }, [])
    else if s.vResumeOk then
      ({ s with holdOurs := false },
        [.info "cooling verdict clean - resuming", .resume e.resumeGate])
    else (s, [])
  else (s, [])

/-- The service is back, and a changed reason is relayed. -/
def verdictRelay (readNow : Bool) (s : Cool) : Cool × List Act :=
  let restored : List Act := if s.staleWarned then [.info "cooling service restored"] else []
  let s := { s with staleWarned := false, fallbackDone := s.fallbackDone && !s.staleWarned }
  if readNow then
    ({ s with vReasonShown := s.vReason },
      restored ++ if s.vReason ≠ [] ∧ s.vReason ≠ s.vReasonShown then [.warnReason s.vReason]
        else [])
  else (s, restored)

/-- The verdict's part of the poll, with what was read of its freshness. -/
def pollVerdict (e : PollEnv) (st : SysState) (armed blocked fresh readNow : Bool) (s : Cool) :
    Cool × List Act :=
  if fresh then
    let (s, relayed) := verdictRelay readNow s
    let (s, held) := if s.vHold || armed && blocked then verdictHolds st s else verdictClean e st s
    (s, relayed ++ held)
  else verdictMissing st s

/-- The periodic report. -/
def pollReport (e : PollEnv) (st : SysState) (s : Cool) : Cool × List Act :=
  if Clock.due (monoMs e.now) s.nextReportMs ∧ st ≠ .homing then reportNow e.report st s
  else (s, [])

/-- `gfcool_poll` in the core's state `st`, with the window open or not. -/
def gfcoolPoll (atof : List Char → Double) (e : PollEnv) (st : SysState) (armed : Bool) (s : Cool) :
    Cool × List Act :=
  let readNow := Clock.due (monoMs e.now) s.nextVerdictMs
  let s := pollRead atof e s
  let fresh := verdictFresh e.fresh s
  let blocked := !gfcoolVerdictFireOk e.fire s
  let (s, tiers) := pollTiers e st armed blocked fresh s
  let s := decelTrack st e.holdComplete s
  let (s, enforced) := pollVerdict e st armed blocked fresh readNow s
  let (s, reported) := pollReport e st s
  (s, tiers ++ enforced ++ reported)

/-! ### What most of the poll leaves alone

The cached verdict and its deadline are written by the reading of the file and by nothing else in
the poll. -/

/-- The verdict cache: only a read of the file writes it. -/
structure Cache where
  fireOk : Bool
  hold : Bool
  resumeOk : Bool
  armed : Bool
  freshUntilMs : UInt32
  name : List Char
  accepted : List Accepted
deriving DecidableEq

def Cool.cache (s : Cool) : Cache :=
  ⟨s.vFireOk, s.vHold, s.vResumeOk, s.vArmed, s.vFreshUntilMs, s.vName, s.accepted⟩

/-- The cache, and the hold's flag. -/
def Cool.kept (s : Cool) : Cache × Bool := (s.cache, s.holdOurs)

theorem reportNow_kept (now : Nat) (st : SysState) (s : Cool) :
    (reportNow now st s).1.kept = s.kept := rfl

theorem gfcoolLaserArmed_kept (now : Nat) (st : SysState) (on : Bool) (s : Cool) :
    (gfcoolLaserArmed now st on s).1.kept = s.kept := by
  unfold gfcoolLaserArmed
  split <;> rfl

theorem gfcoolCoolantSet_kept (now : Nat) (st : SysState) (on : Bool) (s : Cool) :
    (gfcoolCoolantSet now st on s).1.kept = s.kept := by
  unfold gfcoolCoolantSet
  dsimp only
  split <;> rfl

theorem decelTrack_kept (st : SysState) (complete : Bool) (s : Cool) :
    (decelTrack st complete s).kept = s.kept := by
  unfold decelTrack
  split
  · rfl
  · split <;> rfl

theorem pollTiers_kept (e : PollEnv) (st : SysState) (armed blocked fresh : Bool) (s : Cool) :
    (pollTiers e st armed blocked fresh s).1.kept = s.kept := by
  unfold pollTiers
  split
  · split
    · exact gfcoolLaserArmed_kept _ _ _ _
    · split <;> rfl
  · rfl

theorem verdictRelay_kept (readNow : Bool) (s : Cool) :
    (verdictRelay readNow s).1.kept = s.kept := by
  unfold verdictRelay
  dsimp only
  split <;> rfl

theorem pollReport_kept (e : PollEnv) (st : SysState) (s : Cool) :
    (pollReport e st s).1.kept = s.kept := by
  unfold pollReport
  split
  · exact reportNow_kept _ _ _
  · rfl

/-- What the enforcement finds is what the read of the file has left. -/
theorem enforced_kept (e : PollEnv) (st : SysState) (armed blocked fresh : Bool) (s : Cool) :
    (decelTrack st e.holdComplete (pollTiers e st armed blocked fresh s).1).kept = s.kept :=
  (decelTrack_kept _ _ _).trans (pollTiers_kept _ _ _ _ _ _)

/-! ## The client beside the core

The core takes the client's commands when it comes to them, and changes its state for reasons of its
own. A run is any order of polls, file writes and core turns. -/

/-- Whose command entered a hold. -/
inductive Holder where
  | client
  | other
deriving DecidableEq, Repr

structure State where
  cool : Cool
  -- the last reading of the clock
  clock : Nat
  core : SysState
  -- `gflaser_armed`
  armed : Bool
  -- a feed hold of `hold_take`'s that the core has not taken yet
  pending : Bool
  -- history: who entered the hold that the core is in
  heldBy : Option Holder
deriving DecidableEq

def State.init (now : Nat) : State where
  cool := Cool.init now
  clock := now
  core := .idle
  armed := false
  pending := false
  heldBy := none

inductive Label where
  | poll (e : PollEnv)
  -- the core takes the client's feed hold, which it may ignore where it is
  | feedHold (enters : Bool)
  -- the core is held by another: the operator's feed hold, a pause of the program
  | otherHold
  -- the core goes on to a state that is no hold: a resume, a reset, a start, an end
  | core (st : SysState)
  -- the laser module reports its window, and opens or closes it
  | window (now : Nat) (on : Bool)
  | armed (on : Bool)
  | coolant (now : Nat) (flood : Bool)

/-- The clock readings of a label lie behind the last one, in their order. -/
def Label.inOrder (clock : Nat) : Label → Bool
  | .poll e => clock ≤ e.now && e.now ≤ e.first && e.first ≤ e.second && e.second ≤ e.fresh &&
      e.fresh ≤ e.fire && e.fire ≤ e.report
  | .window now _ | .coolant now _ => clock ≤ now
  | .feedHold _ | .otherHold | .core _ | .armed _ => true

/-- What the poll's commands leave for the core and the laser module. -/
def State.issue (s : State) (clock : Nat) (r : Cool × List Act) : State :=
  { s with
    cool := r.1
    clock := clock
    armed := s.armed && r.2.all fun a => match a with | .verdictFail _ => false | _ => true
    pending := s.pending || r.2.contains .feedHold }

def act (atof : List Char → Double) (s : State) : Label → Option State
  | .poll e => some (s.issue e.report (gfcoolPoll atof e s.core s.armed s.cool))
  | .feedHold enters =>
    if s.pending then
      some (if enters ∧ s.core ≠ .hold then
        { s with pending := false, core := .hold, heldBy := some .client }
        else { s with pending := false })
    else none
  | .otherHold =>
    if s.core = .hold then none else some { s with core := .hold, heldBy := some .other }
  | .core st => if st = .hold then none else some { s with core := st, heldBy := none }
  | .window now on =>
    some { s with cool := (gfcoolLaserArmed now s.core on s.cool).1, clock := now }
  | .armed on => some { s with armed := on }
  | .coolant now flood =>
    some { s with cool := (gfcoolCoolantSet now s.core flood s.cool).1, clock := now }

def step (atof : List Char → Double) (s : State) (l : Label) : Option State :=
  if l.inOrder s.clock then act atof s l else none

end Glowforge.Cooling
