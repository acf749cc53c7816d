import Glowforge.Lib.Runs
import Glowforge.Switches.Basic

/-!
# Glowforge — the switches, the core and its planner

The core as far as the lid policy goes: its state, the blocks in its planner in the order in which
it took their lines, and the return line that waits in its own queue. The sender's lines, the polls
and the core's state changes may come in any order.

* **`World`** — the switches' variables and the core.
* **`worldStep`** — one poll, one change of the core's state (with `onStateChange`), one line taken,
  one block executed, or a reset.

What the core decides for itself is a label: when it starts a cycle, parks, or leaves its state.
-/

namespace Glowforge.Switches

open Laser (SysState Command)

/-- Whose motion a block of the planner is. -/
inductive Block where
  | sender
  -- The cancel's `G53G0` return line.
  | park
deriving DecidableEq

structure World where
  sw : State
  core : SysState
  -- `sys.parking_state` is `Parking_DoorAjar` or `Parking_DoorClosed`.
  parked : Bool
  resetPending : Bool
  planner : List Block
  -- The line that `grbl.enqueue_gcode` took.
  queued : Option Position
  position : Position

/-- The controller has started. -/
def World.start (available : Bool) (raw : Laser.Switches) : World where
  sw := gfswInit available raw
  core := .idle
  parked := false
  resetPending := false
  planner := []
  queued := none
  position := ⟨0, 0, 0⟩

/-- The core executes blocks in these states. -/
def moves : SysState → Bool
  | .cycle | .jog | .homing => true
  | _ => false

inductive Label where
  -- `gfsw_poll`; what it reads of the core is the world's.
  | poll (v : View)
  -- The core changes its state.
  | state (next : SysState) (parked : Bool)
  -- The core takes a line of the sender's, or the return line; `motion` when it plans a block.
  | line (motion : Bool)
  | returnLine (motion : Bool)
  -- The core executes the first block, to here.
  | execute (position : Position)
  -- A reset is requested, and carried out.
  | resetRequest
  | reset (next : SysState)

/-- What the core does with a call of a poll's. -/
def World.take (w : World) : Call → World
  | .enqueue .reset => { w with resetPending := true }
  | .returnLine target => { w with queued := some target }
  | _ => w

def World.poll (v : View) (w : World) : World :=
  let polled := gfswPoll { v with st := w.core, parked := w.parked, resetPending := w.resetPending } w.sw
  polled.2.foldl World.take { w with sw := polled.1 }

/-- The core enters `next`, and tells `onStateChange`. -/
def World.enter (next : SysState) (parked : Bool) (w : World) : World :=
  { w with sw := onStateChange next (!w.planner.isEmpty) w.position w.sw, core := next, parked := parked }

/-- The core plans the motion of a line. -/
def World.plan (b : Block) (motion : Bool) (w : World) : World :=
  if motion then { w with planner := w.planner ++ [b] } else w

def worldStep (w : World) : Label → Option World
  | .poll v => some (w.poll v)
  | .state next parked => some (w.enter next parked)
  | .line motion => some (w.plan .sender motion)
  | .returnLine motion => w.queued.map fun _ => { w.plan .park motion with queued := none }
  | .execute position =>
    match w.planner with
    | [] => none
    | _ :: rest => if moves w.core then some { w with planner := rest, position := position } else none
  | .resetRequest => some { w with resetPending := true }
  | .reset next =>
    some (({ w with planner := [], queued := none, resetPending := false } : World).enter next false)

end Glowforge.Switches
