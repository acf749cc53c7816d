import Glowforge.Lib.Runs
import Glowforge.Stream.Lifecycle

/-!
# Glowforge — the stream as one machine

The protocol thread, the producer, the shipper and the kernel take turns. A `Label` names
whose turn it is and what the environment decides in it; `step` is the turn, and `none` where
it cannot be taken: a section of `gf.lock` while the shipper holds the lock, a latch write
while the shipper holds `latch_mx`, a call on the protocol thread before the last one has
returned.

The runs of the machine (`Runs.Reach step`) are the interleavings of the threads. They are at
least those of the program: the core lock, which orders the core's own calls, is left out, so
what holds here of every run holds of the program's.
-/

namespace Glowforge.Stream

inductive Label where
  -- A call passes the lock-free test, or is dropped there.
  | enter (c : Call)
  -- A call that has passed it runs its locked section.
  | locked (c : Call) (now : Nat)
  -- `gf_stream_go_idle`.
  | goIdle (reset : Bool) (stepBits dirBits : UInt8)
  -- The producer thread finds itself armed, and begins a run of callbacks.
  | producerRun
  -- One fire of the virtual step timer is over.
  | advance
  -- `gf_stream_cycles_per_tick`.
  | cyclesPerTick (cycles : Nat)
  | laserModel (periodTicks minTicks : UInt32)
  | laserArm (armed : Bool)
  | fireGate (gate : Bool)
  -- `gf_stream_fault_take`.
  | faultTake
  | laserLatch (lock ok : Bool)
  | reset (now : Nat)
  -- One poll of `gf_stream_readback`; `expired` says that the wait is over.
  | readback (expired : Bool)
  | clearPosition (ok : Bool)
  | suspend (readOk : Bool)
  | resume (latchOk emptied counted : Bool)
  -- The call on the protocol thread goes on after its lock.
  | proto
  -- The shipper thread takes one step.
  | ship (e : Env)
  -- The kernel, or another writer of its attributes, takes one step.
  | kernel (a : KernelAct)
  -- The process that holds a device handed over leaves the kernel as it likes.
  | foreign (k : Kernel)

/-- The labels that are a section of `gf.lock` outside the shipper. -/
def Label.needsLock : Label → Bool
  | .locked _ _ | .goIdle _ _ _ | .producerRun | .laserModel _ _ | .reset _ | .readback _
  | .clearPosition _ | .suspend _ => true
  | _ => false

/-- The labels that write the latch, or its record, outside the shipper. -/
def Label.needsLatch : Label → Bool
  | .laserLatch _ _ | .resume _ _ _ => true
  | _ => false

/-- The labels that begin a call on the protocol thread which can go on after its lock. -/
def Label.beginsCall : Label → Bool
  | .laserLatch _ _ | .reset _ | .readback _ | .clearPosition _ | .suspend _ | .resume _ _ _ => true
  | _ => false

/-- What the rest of a call still has to lock. -/
def Owed.blocked (pc : ShipPc) : Owed → Bool
  | .latchAck | .latchFault | .closeLatch => pc.holdsLatch
  | .latchFail | .resumeSwap => pc.holdsLock
  | _ => false

/-- The turn can be taken: the locks it needs are free, and so is the protocol thread. -/
def Label.enabled (s : State) (l : Label) : Bool :=
  !(l.needsLock && s.pc.holdsLock) && !(l.needsLatch && s.pc.holdsLatch) &&
  (!l.beginsCall || s.proto.isEmpty) &&
  match l with
  | .locked c _ => s.entered.contains c
  | .suspend _ => !s.gf.suspended
  | .resume _ _ _ => s.gf.suspended
  | .foreign _ => s.gf.suspended && !s.proto.contains .resumeSwap
  | .proto => !(s.proto.head?.any (Owed.blocked s.pc))
  | _ => true

/-- A call at the lock-free test. -/
def enter (c : Call) (s : State) : State :=
  if c.enters s then { s with entered := c :: s.entered } else s

/-- The turn itself, where it can be taken. -/
def turn (s : State) : Label → Option State
  | .enter c => some (enter c s)
  | .locked c now => some (c.locked now { s with entered := s.entered.erase c })
  | .goIdle reset stepBits dirBits => some (gfStreamGoIdle reset stepBits dirBits s)
  | .producerRun => some { s with gf := { s.gf with minMargin := 2 ^ 63 - 1 } }
  | .advance => some { s with gf := { s.gf with vticks := s.gf.vticks + s.gf.periodLatched } }
  | .cyclesPerTick cycles =>
    some { s with gf := { s.gf with periodLatched := if cycles = 0 then 1 else cycles } }
  | .laserModel periodTicks minTicks =>
    some { s with gf := gfStreamLaserModel periodTicks minTicks s.gf }
  | .laserArm armed => some { s with laserArmed := armed }
  | .fireGate gate => some { s with fireGate := gate }
  | .faultTake => some { s with faultFlag := false }
  | .laserLatch lock ok => some (gfStreamLaserLatch lock ok s)
  | .reset now => some (gfStreamReset now s)
  | .readback expired => some (gfStreamReadback expired s)
  | .clearPosition ok => some (gfStreamClearPosition ok s)
  | .suspend readOk => some (gfStreamSuspend readOk s)
  | .resume latchOk emptied counted => some (gfStreamResume latchOk emptied counted s)
  | .proto => protoStep s
  | .ship e => some (shipStep e s)
  | .kernel a => (s.kernel.act a).map fun k => { s with kernel := k }
  | .foreign k => some { s with kernel := k }

def step (s : State) (l : Label) : Option State := if l.enabled s then turn s l else none

theorem step_eq_some {s t : State} {l : Label} :
    step s l = some t ↔ l.enabled s = true ∧ turn s l = some t := by
  simp [step]

/-! ## The beginning -/

/-- What the start of the engine is given: the sink, and the machine tick and depth it read. -/
structure Config where
  active : Bool
  inherited : Bool
  rate : Nat
  depthMs : Nat

/-- The queue depth in ticks. -/
def Config.depth (c : Config) : Nat := c.rate * c.depthMs / 1000

/-- The record `gf` at the start of the threads. -/
def Gf.init (c : Config) : Gf where
  active := c.active
  suspended := false
  fdOpen := c.active
  inherited := c.inherited
  rate := c.rate
  depth := c.depth
  minMargin := 0
  ring := fun _ => 0
  produced := 0
  shipped := 0
  base := 0
  streaming := false
  kernelRunning := false
  runPending := false
  clearPending := false
  holdPending := false
  holdPollAt := 0
  written := 0
  runBase := 0
  killed := false
  killStep := 0
  steps := 0
  baseSteps := 0
  baseCounts := 0
  baseValid := !c.active
  zeros := 0
  readback := .none
  unplayed := 0
  failed := false
  shipT0 := 0
  clamped := 0
  lev := []
  curPower := 0
  curFire := false
  gateSeen := false
  lastLit := false
  powerSent := false
  levOverflowWarned := false
  dithPeriod := 0
  dithMin := 0
  dithLeft := 0
  dithOn := 0
  dithAcc := 0
  wantPower := 0
  wantFire := false
  jogging := false
  vticks := 0
  wallEpoch := 0
  periodLatched := vticksPerByte

/-- The state `gf_stream_init` leaves: the device is taken over as it was found (`k`), its
seek-clear and the reading of its counters as the environment answers them. -/
def State.init (c : Config) (k : Kernel) (emptied counted : Bool) : State :=
  let emptied := takeoverEmpties c.inherited emptied k
  { gf := if c.active then rebaseAtTakeover emptied counted k (Gf.init c) else Gf.init c
    faultFlag := false
    laserArmed := false
    fireGate := false
    armed := false
    latchLockedByUs := true
    latchFailReported := false
    kernel := if c.active then takeover c.inherited emptied k else k
    dump := []
    pc := .top
    entered := []
    proto := [] }

/-! ## A small machine for concrete schedules

A slow rate and an idle kernel, for the runs that the other modules go through. -/

/-- The slowest machine tick and the shallowest queue that the engine takes: 20 ticks. -/
def slowConfig (active : Bool) : Config where
  active := active
  inherited := true
  rate := 1000
  depthMs := 20

/-- A kernel found idle with nothing queued. -/
def idleKernel : Kernel where
  state := .idle
  live := false
  stopping := false
  cap := 65536
  consumed := []
  ring := []
  counts := 0

/-- A stream begins and takes one step in X. -/
def oneStep : List Label :=
  [.enter .wakeup, .locked .wakeup 0, .enter (.pulse 0x01 0x00), .locked (.pulse 0x01 0x00) 0]

end Glowforge.Stream
