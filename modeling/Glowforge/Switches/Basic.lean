import Glowforge.Laser.Basic

/-!
# Glowforge — the safety switches (`glowforge_switches.c`, `glowforge_switch_map.h`)

`gfsw_poll` reads the switch device and tells the core of the door, toggles pause and resume on the
button, and carries out the lid policy: a job that the door has parked is cancelled, the core is
reset, and the head returns to where the job started.

* **`State`** — the module's variables.
* **`View`** — what one poll reads: the switches, the core, the kernel, the configuration.
* **`Call`** — what a poll asks of the core and of the laser module, in its order.
* **`gfswPoll`**, **`onStateChange`** — the two entries.

Times are in milliseconds. A position is in steps: its conversion to millimetres and the three
decimals of the return line are not here.
-/

namespace Glowforge.Switches

open Laser (SysState Command)

structure Position where
  x : Int
  y : Int
  z : Int
deriving DecidableEq

/-! ## The mapping of the switches

The door is made of two of the readings, and the core is shown it in some of its states only. -/

/-- `gfsw_map_bits`: the door is ajar with the lid chain or the interlock loop open. -/
def gfswMapBits (sw : Laser.Switches) : Bool := !sw.doors || sw.interlock

/-- `gfsw_visible`: the door is withheld from a core that is idle, jogs or homes. -/
def gfswVisible (door : Bool) : SysState → Bool
  | .idle | .jog | .homing => false
  | _ => door

/-! ## The state -/

/-- The cancel policy's state. -/
inductive Cancel where
  | none
  -- The job is cancelled; the kernel drains the hold's tail.
  | waitDrain
  -- The soft reset is queued.
  | resetSent
  -- The return motion is enqueued.
  | parkQueued
deriving DecidableEq

structure State where
  available : Bool
  -- The last reading, and its door.
  raw : Laser.Switches
  door : Bool
  -- The door as the core has been told of it.
  delivered : Bool
  buttonPrev : Bool
  cancel : Cancel
  doorHidden : Bool
  parkAt : Nat
  parkSawCycle : Bool
  holdSeen : Bool
  haveJobStart : Bool
  jobStart : Position
  jobActive : Bool
  prevState : SysState

/-- What one poll reads. -/
structure View where
  now : Nat := 0
  -- `EVIOCGSW`, `none` when it fails.
  raw : Option Laser.Switches := some ⟨true, false, false⟩
  st : SysState := .idle
  -- `sys.parking_state` is `Parking_DoorAjar` or `Parking_DoorClosed`.
  parked : Bool := false
  resetPending : Bool := false
  -- `gflaser_arming`.
  arming : Bool := false
  -- `gf_stream_kernel_idle`.
  kernelIdle : Bool := true
  -- `lid_policy` is not `hold`.
  lidCancels : Bool := true
  -- `grbl.enqueue_gcode` takes a line.
  enqueues : Bool := true

/-- What a poll asks for. -/
inductive Call where
  -- `hal.control.interrupt_callback`, for the door asserted or deasserted.
  | door (ajar : Bool)
  | enqueue (c : Command)
  -- `gflaser_resume_gate`, and the cycle start where it takes nothing.
  | resumeGate
  -- `gflaser_disarm`.
  | disarm
  -- `grbl.enqueue_gcode`, for the return line.
  | returnLine (target : Position)
  | report (text : String)
deriving DecidableEq

/-- `gfsw_init`, with its first reading. -/
def gfswInit (available : Bool) (raw : Laser.Switches) : State where
  available := available
  raw := raw
  door := gfswMapBits raw
  delivered := false
  buttonPrev := raw.button
  cancel := .none
  doorHidden := false
  parkAt := 0
  parkSawCycle := false
  holdSeen := false
  haveJobStart := false
  jobStart := ⟨0, 0, 0⟩
  jobActive := false
  prevState := .idle

/-- `visible`: the cancel hides the door through its reset and its return motion. -/
def visible (st : SysState) (s : State) (door : Bool) : Bool := gfswVisible door st && !s.doorHidden

/-- `gfsw_get_state`. -/
def gfswGetState (st : SysState) (s : State) : Bool := visible st s s.door

/-- `onStateChange`: the core enters `next`, with a block planned or not. A job starts where the
core leaves Idle for a cycle, and a cancel's own motion is none. -/
def onStateChange (next : SysState) (planned : Bool) (position : Position) (s : State) : State :=
  let s :=
    if next = .idle then if planned then s else { s with jobActive := false }
    else if next.alarmed || next == .sleep then { s with jobActive := false }
    else if next = .cycle ∧ s.prevState = .idle ∧ ¬s.jobActive then
      if s.cancel = .none then { s with jobStart := position, haveJobStart := true, jobActive := true }
      else { s with jobActive := true }
    else s
  { s with prevState := next }

/-! ## The button

An edge of the button pauses a cycle and resumes a hold, outside the wait of an arm. -/

/-- `gfsw_button_consumed`. -/
def gfswButtonConsumed (s : State) : State := { s with buttonPrev := true }

/-- `button_edge`: pause and resume, outside the arm wait. -/
def buttonEdge (v : View) : List Call :=
  if v.arming then []
  else if v.st = .cycle then [.enqueue .feedHold, .report "button pressed - job paused"]
  else if v.st = .hold then [.resumeGate]
  else []

/-! ## The cancel policy

A parked door cancels the job where the lid policy says so. The cancel then goes a stage further in
each poll that finds what the stage waits for. -/

/-- `door_parked`. -/
def doorParked (v : View) : Bool := v.st == .safetyDoor && v.parked

/-- `cancel_job`: the latch first, then the door is hidden. -/
def cancelJob (v : View) (s : State) : State × List Call :=
  let why := if s.raw.interlock && s.raw.doors then "interlock open" else "lid opened"
  let return_ := if s.haveJobStart then ", returning to the job start" else ""
  ({ s with doorHidden := true, cancel := .waitDrain, parkAt := v.now },
    [.disarm, .report (why ++ " - job canceled" ++ return_)])

/-- `send_reset`. -/
def sendReset (v : View) (s : State) : State × List Call :=
  ({ s with cancel := .resetSent, parkAt := v.now }, [.enqueue .reset])

/-- The cancel is over, and the door is visible again. -/
def cancelEnd (s : State) : State := { s with cancel := .none, doorHidden := false }

/-- `cancel_poll` behind its own reset. -/
def resetSentPoll (v : View) (s : State) : State × List Call :=
  if v.resetPending || v.st != .idle then (if v.st.alarmed then cancelEnd s else s, [])
  else if !s.haveJobStart then (cancelEnd s, [])
  else if v.enqueues then
    ({ s with cancel := .parkQueued, parkAt := v.now, parkSawCycle := false }, [.returnLine s.jobStart])
  else if v.now - s.parkAt > 2000 then
    (cancelEnd s, [.report "return to the job start could not be queued"])
  else (s, [])

/-- `cancel_poll` behind the return line: the motion is over with the first Idle behind a Cycle, or
after a second of Idle. -/
def parkQueuedPoll (v : View) (s : State) : State × List Call :=
  if v.st = .cycle then ({ s with parkSawCycle := true }, [])
  else if v.st.alarmed then (cancelEnd s, [])
  else if v.st = .idle ∧ (s.parkSawCycle ∨ v.now - s.parkAt > 1000) then
    (cancelEnd s, [.report "returned to the job start"])
  else (s, [])

/-- `cancel_poll`. -/
def cancelPoll (v : View) (s : State) : State × List Call :=
  match s.cancel with
  | .none =>
    if doorParked v then
      if s.holdSeen then (s, [])
      else if v.lidCancels then cancelJob v s
      else ({ s with holdSeen := true }, [])
    else ({ s with holdSeen := false }, [])
  | .waitDrain =>
    if v.kernelIdle || v.st != .safetyDoor || decide (v.now - s.parkAt > 2000) then sendReset v s
    else (s, [])
  | .resetSent => resetSentPoll v s
  | .parkQueued => parkQueuedPoll v s

/-! ## The poll

One poll: the edges, the cancel's turn, and what the core is told. -/

/-- `gfsw_edges`: the core is told of what it should see and has not been told of. -/
def doorEdges (want delivered : Bool) : List Call :=
  if want = delivered then [] else [.door want]

/-- `gfsw_poll` with a reading: the button, the door, the cancel. -/
def gfswRead (v : View) (raw : Laser.Switches) (s : State) : State × List Call :=
  let s := { s with raw := raw, door := gfswMapBits raw }
  let button := if raw.button && !s.buttonPrev then buttonEdge v else []
  let want := visible v.st s s.door
  let edges := doorEdges want s.delivered
  let after := cancelPoll v { s with buttonPrev := raw.button, delivered := want }
  (after.1, button ++ edges ++ after.2)

/-- `gfsw_poll`: a reading that fails keeps the state before, and a cancel under way goes on. The
word that was read into is zeroed. -/
def gfswPoll (v : View) (s : State) : State × List Call :=
  if !s.available then (s, [])
  else
    match v.raw with
    | none => cancelPoll v { s with raw := ⟨false, false, false⟩ }
    | some raw => gfswRead v raw s

end Glowforge.Switches
