import Glowforge.Stream.Shipper

/-!
# Glowforge — the state of the laser arming

`glowforge_laser.c` keeps the armed window, and three more modules keep a copy of it: the
stream engine (`laser_armed`, and the latch record of its one writer), the cooling client
(`laser_on_window`) and the sender session it was opened for (`armed_client_gen`).

* **`State`** — the module's own variables beside what it reads and writes of the others.
* **`Frame`** — an arm that waits. The protocol thread blocks in the button wait and in the
  wait for the cooling acknowledgment, and pumps the core there; the realtime hook that the
  pump runs can enter the module again, so the waits are a stack.
* **`Env`** — what one step reads from outside: the clock, the switches, the attributes, the
  configuration.

Times are in milliseconds, and 0 stands for "none" as in the source. The dose model, the
button's LED and the messages to the sender are not here.
-/

namespace Glowforge.Laser

/-! ## The core and its switches -/

/-- The states of the core that the module tells apart. -/
inductive SysState where
  | idle
  | checkMode
  | cycle
  | hold
  | safetyDoor
  | toolChange
  | jog
  | homing
  | sleep
  | alarm
  | estop
deriving DecidableEq, Repr

namespace SysState

/-- `STATE_HOLD | STATE_SAFETY_DOOR`. -/
def held : SysState → Bool
  | .hold | .safetyDoor => true
  | _ => false

/-- `STATE_ALARM | STATE_ESTOP`. -/
def alarmed : SysState → Bool
  | .alarm | .estop => true
  | _ => false

theorem held_of_alarmed {st : SysState} (h : st.alarmed = true) : st.held = false := by
  cases st with
  | alarm => rfl
  | estop => rfl
  | _ => cases h

end SysState

/-- The bits of the switch device that the arm reads: the doors closed, the interlock loop
open, the button down. -/
structure Switches where
  doors : Bool
  interlock : Bool
  button : Bool

/-- One reading of the switches for the arm wait. -/
inductive ArmSwitch where
  | waiting
  | pressed
  | lidOpen
  | interlockOpen
  | unreadable
deriving DecidableEq, Repr

/-- A press counts only with the lid and the interlock loop closed. -/
def armSwitches : Option Switches → ArmSwitch
  | none => .unreadable
  | some sw =>
    if !sw.doors then .lidOpen
    else if sw.interlock then .interlockOpen
    else if sw.button then .pressed
    else .waiting

/-- The realtime commands that the module enqueues. -/
inductive Command where
  | reset
  | feedHold
  | cycleStart
deriving DecidableEq, Repr

/-! ## What a step reads

Everything that one entry reads from outside comes with its label, so that a run can be any order of
answers. -/

structure Env where
  now : Nat := 0
  -- A latch write takes, its retries included.
  latchOk : Bool := true
  -- `head/hall_sensor` can be read.
  head : Bool := true
  -- The switch device, `none` when it cannot be read.
  raw : Option Switches := some ⟨true, false, false⟩
  -- `cnc/state`, `none` when it cannot be read.
  kernel : Option Stream.KernelState := some .idle
  -- `cnc/laser_on_sampled` reads above 0.
  emitting : Bool := false
  resetPending : Bool := false
  -- The power that the spindle's `compute_value` answers.
  pwm : Nat := 0
  -- `laser_button_timeout_s`, `cool_fan_grace_s` and `laser_disarm_s`.
  buttonTimeout : Nat := 300000
  fanGrace : Nat := 15000
  disarmGrace : Nat := 60000

/-- The budget of the button wait, which is always bounded. -/
def Env.buttonBudget (e : Env) : Nat :=
  if 1000 ≤ e.buttonTimeout ∧ e.buttonTimeout ≤ 3600000 then e.buttonTimeout else 300000

/-- `ack_budget_s`: the fan grace and a margin, never under the margin. -/
def Env.ackBudget (e : Env) : Nat :=
  let budget := (if e.fanGrace ≤ 120000 then e.fanGrace else 15000) + 5000
  if budget < 5000 then 5000 else budget

/-- The spindle-off grace. -/
def Env.graceBudget (e : Env) : Nat :=
  if 1000 ≤ e.disarmGrace ∧ e.disarmGrace ≤ 3600000 then e.disarmGrace else 60000

/-! ## The waits

A pump runs the core under a function that has not returned. What that function keeps across the
pump is its frame. -/

/-- Who called `arm_complete`, and so what follows its return. -/
inductive Origin where
  -- `gflaser_arm`, for the spindle's `set_state`.
  | spindle
  -- `rearm_poll`.
  | rearm
  -- `gflaser_resume_gate`, on a machine without switches.
  | gate
deriving DecidableEq, Repr

/-- A call that is blocked in a pump. -/
inductive Frame where
  -- The button wait of `gflaser_arm`; `lid` when this pump is the one behind an open lid.
  | button (senderGen : UInt32) (released : Bool) (unreadable deadline : Nat) (lid : Bool)
  -- The wait of `arm_complete`; `since` is the session in which its arm began.
  | ack (origin : Origin) (since : UInt32) (deadline : Nat)
deriving DecidableEq, Repr

def Frame.waitsAck : Frame → Bool
  | .ack _ _ _ => true
  | .button _ _ _ _ _ => false

/-! ## The state -/

structure State where
  -- The laser module's own.
  hwActive : Bool
  spindleOn : Bool
  laserOk : Bool
  disarmAt : Nat
  armedClientGen : UInt32
  disarmRequest : Bool
  arming : Bool
  rearmPending : Bool
  rearmDeadline : Nat
  rearmClientGen : UInt32
  rearmUnreadable : Nat
  rearmReleased : Bool
  disarmedAt : Nat
  failAlarmPending : Bool
  nextEmissionCheck : Nat
  unreadableSince : Nat
  offValue : Nat
  -- The stream engine's, and the level last pushed to it.
  laserArmed : Bool
  fireGate : Bool
  latchLockedByUs : Bool
  latchFailReported : Bool
  faultFlag : Bool
  pushedPower : Nat
  pushedFire : Bool
  -- The cooling client's.
  laserOnWindow : Bool
  verdictFresh : Bool
  vFireOk : Bool
  vArmed : Bool
  decelLit : Bool
  -- The sender session's, and whether there is a switch device.
  clientGeneration : UInt32
  available : Bool
  -- The core's: its state, the modal spindle, a soft reset under way, the commands it was sent.
  core : SysState
  modalOn : Bool
  aborting : Bool
  sent : List Command
  -- The realtime hook has polled the re-arm in this state of the core.
  hooked : Bool
  -- The calls that wait, the innermost first.
  stack : List Frame
  -- The session in which the arm that opened the window began. No code reads it.
  windowSince : UInt32

end Glowforge.Laser
