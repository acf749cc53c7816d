import Glowforge.Lib.Runs
import Glowforge.Laser.Arm

/-!
# Glowforge — the arming as one machine

A `Label` is one entry into the laser module, or a change that another module makes to what it
reads; `step` takes it, and `none` says that it cannot come there. The entries of the realtime
hook may come at any time, from the main loop and from the pump of an arm that waits, in any
order and number: `gflaserPoll` is the order in which one pass of the hook makes its own.

What is assumed of the core, which calls the module:

* a spindle change and a program end come from a line, so no arm waits under them; inside a
  pump the core only restores a spindle, in the hold that it suspends in;
* inside a pump the core leaves an alarm only by a soft reset, which makes every pump return
  false until the main loop starts over;
* the realtime hook runs between two changes of the core's state, and a soft reset does not
  leave the core held.
-/

namespace Glowforge.Laser

inductive Label where
  -- `spindleSetState`.
  | spindle (on : Bool) (e : Env)
  -- `spindleUpdatePWM` for a segment, on the stepper producer thread.
  | segment (pwm : Nat)
  | programCompleted (checkMode : Bool)
  -- The pump of the innermost wait returns.
  | pumped (e : Env)
  -- The hook: a stream fault.
  | fault (e : Env)
  -- The cooling client's: a new verdict, or one that went stale.
  | verdict (fresh fireOk armed decel : Bool)
  | verdictFail (e : Env)
  | resumeGate (e : Env)
  -- The hook: the parts of `gflaser_poll`.
  | publish
  | failAlarm (e : Env)
  | emission (e : Env)
  | rearmPoll (e : Env)
  | close (e : Env)
  -- The hook: the lid policy cancels a parked job.
  | cancel (e : Env)
  -- A sender connects or drops.
  | sender
  | reset (next : SysState) (e : Env)
  -- The main loop starts over behind a soft reset.
  | restart
  | core (next : SysState) (modalOn : Bool)
  -- The shipper's run start; `latch_mx` makes it one step.
  | relight (e : Env)

/-- One pass of `gflaser_poll`. -/
def gflaserPoll (e : Env) : List Label := [.publish, .failAlarm e, .emission e, .rearmPoll e, .close e]

/-- The environment that a label brings. -/
def Label.env : Label → Option Env
  | .spindle _ e | .pumped e | .fault e | .verdictFail e | .resumeGate e | .failAlarm e | .emission e
  | .rearmPoll e | .close e | .cancel e | .reset _ e | .relight e => some e
  | _ => none

def Label.enabled (s : State) : Label → Bool
  | .spindle _ _ => s.stack.isEmpty || s.core.held
  | .programCompleted _ | .restart => s.stack.isEmpty
  | .cancel _ => s.core = .safetyDoor
  | .reset next _ => !next.held
  | .core _ _ => s.hooked && (s.stack.isEmpty || s.aborting || !s.core.alarmed)
  | _ => true

/-- The innermost wait goes on. -/
def pumped (e : Env) (s : State) : Option State :=
  match s.stack with
  | [] => none
  | .button senderGen released unreadable deadline lid :: rest =>
    some (buttonPumped senderGen released unreadable deadline lid e { s with stack := rest })
  | .ack origin since deadline :: rest =>
    some (ackPumped origin since deadline e { s with stack := rest })

def turn (s : State) : Label → Option State
  | .spindle on e => some (spindleSetState on e s)
  | .segment pwm => some (spindleUpdatePWM pwm s)
  | .programCompleted checkMode => some (onProgramCompleted checkMode s)
  | .pumped e => pumped e s
  | .fault e => some (streamFault e s)
  | .verdict fresh fireOk armed decel =>
    some { s with verdictFresh := fresh, vFireOk := fireOk, vArmed := armed, decelLit := decel }
  | .verdictFail e => some (gflaserVerdictFail e s)
  | .resumeGate e => some (gflaserResumeGate e s)
  | .publish => some (fireGatePublish s)
  | .failAlarm e => some (failAlarm e s)
  | .emission e => some (emissionCheck e s)
  | .rearmPoll e => some (rearmPoll e s)
  | .close e => some (pollClose e s)
  | .cancel e => some (gflaserDisarm e s)
  | .sender => some { s with clientGeneration := s.clientGeneration + 1 }
  | .reset next e => some (driverReset next e s)
  | .restart => some { s with aborting := false }
  | .core next modalOn => some { s with core := next, modalOn := modalOn, hooked := false }
  | .relight e => some (relight e s)

def step (s : State) (l : Label) : Option State := if l.enabled s then turn s l else none

theorem step_eq_some {s t : State} {l : Label} :
    step s l = some t ↔ l.enabled s = true ∧ turn s l = some t := by
  simp [step]

/-! ## The beginning

The state that the module starts in: nothing armed, nothing waited for. -/

/-- The module's variables as the process starts: the window closed, the record locked. -/
def State.init (hwActive available : Bool) (offValue : Nat) : State where
  hwActive := hwActive
  spindleOn := false
  laserOk := false
  disarmAt := 0
  armedClientGen := 0
  disarmRequest := false
  arming := false
  rearmPending := false
  rearmDeadline := 0
  rearmClientGen := 0
  rearmUnreadable := 0
  rearmReleased := false
  disarmedAt := 0
  failAlarmPending := false
  nextEmissionCheck := 0
  unreadableSince := 0
  offValue := offValue
  laserArmed := false
  fireGate := false
  latchLockedByUs := true
  latchFailReported := false
  faultFlag := false
  pushedPower := 0
  pushedFire := false
  laserOnWindow := false
  verdictFresh := false
  vFireOk := false
  vArmed := false
  decelLit := false
  clientGeneration := 0
  available := available
  core := .idle
  modalOn := false
  aborting := false
  sent := []
  hooked := false
  stack := []
  windowSince := 0

/-! ## A job for concrete schedules

Readings of the switches for the runs that the other modules go through. -/

/-- The button down, everything closed. -/
def pressedEnv : Env := { raw := some ⟨true, false, true⟩ }

/-- An arm up to its press: the engine allows fire, the laser-on finds the window closed and
asks for the button, which is up at the first reading and down at the next. -/
def armPressed : List Label :=
  [.verdict true true false false, .spindle true { pwm := 100 }, .pumped pressedEnv]

/-- The engine takes the job, and the arm's next pump returns. -/
def armAcknowledged : List Label := [.verdict true true true false, .pumped { pwm := 100 }]

end Glowforge.Laser
