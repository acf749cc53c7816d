import Glowforge.Stream.Machine

/-!
# Glowforge — the motor currents and the motor release

Two threads write the three current attributes, neither under `gf.lock`: the core's thread, from
`gf_stream_wakeup`, `gf_stream_suspend`, `gf_stream_resume`, the release commands and the start, and
the shipper, which drops to hold behind a stream that has played out. The stream stays the machine of
`Glowforge.Stream.Machine`; this one puts the writes beside it, one at a time.

* **`Op`** — one read of `xy_released`, or one attribute write.
* **`CorePc`** — where the call on the core's thread is in its currents.
* **`dropsHold`**, **`suspendDrops`** — the decisions to drop, as the stream's sections make them.
* **`step`** — the turns of the stream, the writes of both threads, the release and the start.
-/

namespace Glowforge.Currents

open Glowforge.Stream (State Env Call Config Kernel)

/-! ## The postures

Run and hold are each two reads of the flag and three writes: X and Y are written as the flag says,
and Z as the posture has it. Both threads go through a posture one step at a time. -/

/-- `pic/x_step_current`, `pic/y_step_current`, `head/z_current`. -/
inductive Attr where
  | x
  | y
  | z
deriving DecidableEq, Repr

inductive Posture where
  | run
  | hold
deriving DecidableEq, Repr

/-- What each posture writes with the motors not released. -/
def Posture.current : Posture → Attr → Nat
  | .run, .x => 135
  | .run, .y => 22
  | .run, .z => 0
  | .hold, .x => 33
  | .hold, .y => 5
  | .hold, .z => 1

/-- One step of `gfio_currents_run` or `gfio_currents_hold`. -/
inductive Op where
  -- `xy_released` is read for the value to write.
  | choose (p : Posture) (a : Attr)
  -- `gfio_wr_attr`.
  | write (a : Attr) (value : Nat)
deriving DecidableEq, Repr

def Op.attr : Op → Attr
  | .choose _ a | .write a _ => a

/-- `gfio_currents_run`, `gfio_currents_hold`: the flag is read once for X and once for Y. -/
def Posture.ops (p : Posture) : List Op := [.choose p .x, .choose p .y, .write .z (p.current .z)]

/-- One step of a posture: the values then in the attributes, and what is left to do. -/
def nextOps (released : Bool) (values : Attr → Nat) : List Op → (Attr → Nat) × List Op
  | [] => (values, [])
  | .choose p a :: rest => (values, .write a (if released then 0 else p.current a) :: rest)
  | .write a v :: rest => (Function.update values a v, rest)

/-! ## The machine

The stream with the three attributes beside it, and with the place of either thread in its writes. -/

/-- Where the call on the core's thread is, as far as the currents go. -/
inductive CorePc where
  -- It writes none.
  | free
  -- In a posture, with what is left of it; `energizes` in `gfrelease_energize`.
  | posture (ops : List Op) (energizes : Bool)
  -- `release_cmd`, about to set the flag, to write its zeros, to take the flag back after a
  -- write that failed, or to record the release.
  | releaseFlag
  | releaseX
  | releaseY
  | releaseUndo
  | releaseDone
  -- `gfrelease_energize`, about to clear the flag.
  | energizeFlag
deriving DecidableEq, Repr

structure Machine where
  stream : State
  -- The last value written to each attribute.
  values : Attr → Nat
  -- The flag of the current scheme (`glowforge_io.c`).
  xyReleased : Bool
  -- `glowforge_release.c`: its own flag, and the marker in the state directory.
  released : Bool
  marker : Bool
  core : CorePc
  -- What the shipper's `gfio_currents_hold` has still to do.
  drop : List Op

/-- The core's thread is between two calls. -/
def Machine.resting (m : Machine) : Bool :=
  m.core == .free && !m.stream.entered.contains .wakeup && m.stream.proto.isEmpty

/-! ## What the stream's sections begin

The stream's sections decide under the lock, and the writes come after the unlock. What a section
begins is therefore left as an obligation of its thread. -/

/-- The pass finds its stream played out and the hold due: it drops to hold behind its lock. -/
def dropsHold (e : Env) (s : State) : Bool :=
  match s.pc with
  | .sampled gate =>
    let s := { s with gf := Stream.gateEdge gate s.gf }
    let ended := Stream.endStream e s
    !s.gf.streaming && s.gf.produced - s.gf.shipped == 0 &&
      ended.gf.holdPending && e.later ≥ ended.gf.holdPollAt && ended.gf.active &&
      Stream.readState e ended == some .idle
  | _ => false

/-- `gf_stream_suspend` hands an idle device over with the hold still due. -/
def suspendDrops (readOk : Bool) (s : State) : Bool :=
  s.gf.active && Stream.drained s.gf && readOk && s.kernel.state == .idle && s.gf.holdPending

/-- The posture that a turn of the stream begins on the core's thread. -/
def coreBegins (s : State) (pc : CorePc) : Stream.Label → CorePc
  | .enter .wakeup =>
    if Call.wakeup.enters s && s.gf.active then .posture Posture.run.ops false else pc
  | .suspend readOk => if suspendDrops readOk s then .posture Posture.hold.ops false else pc
  -- the full analog config ends in the hold currents
  | .resume _ _ _ => if s.gf.active then .posture Posture.hold.ops false else pc
  | _ => pc

/-- The posture that it begins on the shipper's. -/
def dropBegins (s : State) (ops : List Op) : Stream.Label → List Op
  | .ship e => if dropsHold e s then Posture.hold.ops else ops
  | _ => ops

/-- The turn is not on a thread that is still writing currents, nor a call of the core's thread
ahead of the end of its last one. -/
def Machine.allows (m : Machine) : Stream.Label → Bool
  | .enter .wakeup => m.resting
  | .locked .wakeup _ | .proto => m.core == .free
  | .ship _ => m.drop.isEmpty
  | l => !l.beginsCall || m.resting

/-! ## The release

`release_cmd` and the energize run on the core's thread, with no lock. -/

/-- `release_cmd` up to its first write; `atRest` says that the core is in Idle or Alarm. -/
def releaseCmd (atRest armed readOk : Bool) (m : Machine) : Machine :=
  if m.released then m
  else if !atRest then m
  else if armed then m
  else if !Stream.gfStreamKernelIdle readOk m.stream then m
  else { m with core := .releaseFlag }

def gfreleaseEnergize (m : Machine) : Machine :=
  if !m.released then m else { m with core := .energizeFlag }

/-- One step of the call on the core's thread. `ok` is the answer to a write of `release_cmd`, or
says that the marker is written or removed. -/
def coreStep (ok : Bool) (m : Machine) : Option Machine :=
  match m.core with
  | .free => none
  | .posture (op :: rest) energizes =>
    let (values, ops) := nextOps m.xyReleased m.values (op :: rest)
    some { m with values := values, core := .posture ops energizes }
  | .posture [] false => some { m with core := .free }
  | .posture [] true =>
    some { m with core := .free, released := false, marker := m.marker && !ok }
  | .releaseFlag => some { m with xyReleased := true, core := .releaseX }
  | .releaseX =>
    some (if ok then { m with values := Function.update m.values .x 0, core := .releaseY }
      else { m with core := .releaseUndo })
  | .releaseY =>
    some (if ok then { m with values := Function.update m.values .y 0, core := .releaseDone }
      else { m with core := .releaseUndo })
  | .releaseUndo =>
    some { m with xyReleased := false, core := .posture Posture.hold.ops false }
  | .releaseDone => some { m with core := .free, released := true, marker := m.marker || ok }
  | .energizeFlag =>
    some { m with xyReleased := false, core := .posture Posture.hold.ops true }

/-- The start of a controller: `gfrelease_adopt` takes a marked release over, and the engine's
start writes the hold currents. -/
def start (c : Config) (k : Kernel) (emptied counted marker : Bool) (values : Attr → Nat) :
    Machine where
  stream := State.init c k emptied counted
  values := values
  xyReleased := marker
  released := marker
  marker := marker
  core := .posture Posture.hold.ops false
  drop := []

/-! ## The step

A turn of the stream, one write of either thread, a release, or the energize. -/

inductive Label where
  | stream (l : Stream.Label)
  -- The call on the core's thread takes its next step.
  | core (ok : Bool)
  -- The shipper's hold drop takes its next step.
  | drop
  | release (atRest armed readOk : Bool)
  | energize
  -- The controller dies, and another starts.
  | restart (c : Config) (k : Kernel) (emptied counted : Bool)

/-- The label asks for the motors to be released. -/
def Label.releases : Label → Bool
  | .release _ _ _ => true
  | _ => false

def step (m : Machine) : Label → Option Machine
  | .stream l =>
    if m.allows l then
      (Stream.step m.stream l).map fun s =>
        { m with
          stream := s, core := coreBegins m.stream m.core l, drop := dropBegins m.stream m.drop l }
    else none
  | .core ok => coreStep ok m
  | .drop =>
    if m.drop.isEmpty then none
    else
      let (values, ops) := nextOps m.xyReleased m.values m.drop
      some { m with values := values, drop := ops }
  | .release atRest armed readOk =>
    if m.resting then some (releaseCmd atRest armed readOk m) else none
  | .energize => if m.resting then some (gfreleaseEnergize m) else none
  | .restart c k emptied counted => some (start c k emptied counted m.marker m.values)

/-! ## Who owes a write

The writes that a thread has still to make, read off the place where it stands. -/

/-- What is left of the posture on the core's thread. -/
def CorePc.ops : CorePc → List Op
  | .posture ops _ => ops
  | _ => []

/-- One of the steps is on the attribute. -/
def owes (ops : List Op) (a : Attr) : Bool := ops.any fun op => op.attr == a

end Glowforge.Currents
