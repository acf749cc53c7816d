import Mathlib.Data.UInt
import Mathlib.Algebra.Group.Pi.Basic
import Mathlib.Tactic.SplitIfs

/-!
# Glowforge — the data model of the pulse stream (`stepper_stream.c`)

The stream engine turns stepper events into one byte per machine tick and writes the bytes
to the kernel's pulse ring. This module has the data it works on:

* **bytes** — a *tick byte* carries the step and direction bits of X, Y and Z and the FIRE
  bit; a *power byte* has bit 7 set and costs no tick. The engine's ring only ever holds
  `StepByte`s, which have neither bit: FIRE is added when a byte is shipped.
* **`Kernel`** — the pulse device as the engine's contract describes it: a FIFO ring, a
  state, the live flag, step counters and byte counts.
* **`Gf`** — the engine's own record `gf`, everything `gf.lock` guards.

Stream indices and the virtual clock are `Nat`: a `uint64_t` tick count does not wrap within
the life of a machine, and neither does the count of homes that zeroed the kernel's counters.
The 32-bit counts of bytes and steps do wrap, and are `UInt32`.
-/

namespace Glowforge.Stream

/-! ## Constants -/

/-- Slots of the stream ring (`RING_SIZE`). -/
def ringSize : Nat := 131072

/-- Bytes of one ship chunk (`SHIP_CHUNK`). -/
def shipChunk : Nat := 256

/-- Virtual step-clock ticks per pulse byte (`VTICKS_PER_BYTE`). -/
def vticksPerByte : Nat := 1000

/-- Entries of the laser transition queue (`LEV_N`). -/
def levN : Nat := 4096

/-- Longest base period of the density model, in reference ticks (`DITH_PERIOD_MAX`). -/
def dithPeriodMax : UInt32 := 1024

/-- The power byte's full duty (`GF_PWM_PERIOD`). -/
def gfPwmPeriod : UInt8 := 127

/-- The reference tick of the laser keys (`GF_TICK_X8_HZ`). -/
def gfTickX8Hz : Nat := 28160

/-! ## Bytes

What a byte of the stream says, by its bits, and the steps that a list of them makes. -/

/-- The bits of `mask` that `b` has set, as a C condition. -/
def has (b mask : UInt8) : Bool := b &&& mask != 0

/-- A tick byte has bit 7 clear; bit 7 set makes it a power byte. -/
def isTick (b : UInt8) : Bool := !has b 0x80

/-- The tick byte fires: its FIRE bit is set. -/
def lit (b : UInt8) : Bool := has b 0x10

/-- A byte that only has step and direction bits: neither FIRE nor the power-byte marker. -/
structure StepByte where
  val : UInt8
  plain : val &&& 0x90 = 0
deriving DecidableEq

instance : Zero StepByte := ⟨⟨0, rfl⟩⟩
instance : Inhabited StepByte := ⟨0⟩

/-- A step event as a pulse byte (`pulse_byte`). grblHAL bits: bit 0 X, bit 1 Y, bit 2 Z, a
direction bit set is negative. `X_DIR` set is -X, `Y_DIR` set is +Y, `Z_DIR` set is +Z. -/
def pulseByte (stepBits dirBits : UInt8) : StepByte where
  val :=
    (if has stepBits 0x01 then 0x01 ||| (if has dirBits 0x01 then 0x02 else 0) else 0) |||
    (if has stepBits 0x02 then 0x04 ||| (if has dirBits 0x02 then 0 else 0x08) else 0) |||
    (if has stepBits 0x04 then 0x20 ||| (if has dirBits 0x04 then 0 else 0x40) else 0)
  plain := by split_ifs <;> rfl

/-- Counts of X, Y and Z, mod 2^32. -/
abbrev Steps := Fin 3 → UInt32

/-- There are three axes. -/
instance threeAxes : NeZero 3 := ⟨by decide⟩

theorem axis_cases (a : Fin 3) : a = 0 ∨ a = 1 ∨ a = 2 := by
  revert a
  decide

/-- The step that one tick byte adds on an axis: `X_DIR` set is -X, `Y_DIR` set is +Y and
`Z_DIR` set is +Z. `UINT32_MAX` is -1. -/
def stepOf (b : UInt8) : Steps
  | 0 => if has b 0x01 then (if has b 0x02 then 0xFFFFFFFF else 1) else 0
  | 1 => if has b 0x04 then (if has b 0x08 then 1 else 0xFFFFFFFF) else 0
  | 2 => if has b 0x20 then (if has b 0x40 then 1 else 0xFFFFFFFF) else 0

/-- Adds the steps of one tick byte (`tick_steps`). -/
def tickSteps (s : Steps) (b : UInt8) : Steps := s + stepOf b

/-- The steps in a list of device bytes: those of its tick bytes. -/
def stepsIn (bs : List UInt8) : Steps := (bs.filter isTick).foldl tickSteps 0

/-! ## The kernel's pulse device

What the engine relies on, from its own comments and from the stand-in of its host test
(`latch_test.c`): a run is accepted at an idle kernel with bytes queued, refused while it
plays, in an underrun or in a fault, and answered `ENODATA` on an empty ring; a run out of
bytes is an underrun under the live flag and an idle kernel without it; a stop ramps a
playing kernel down and acknowledges an underrun; a seek-clear empties the ring and zeroes
the byte counts; a position clear zeroes the step counters. -/

/-- The readings of `cnc/state`. -/
inductive KernelState where
  | idle
  | running
  | underrun
  | fault
  | disabled
deriving DecidableEq, Repr

structure Kernel where
  state : KernelState
  -- `cnc/streaming`: a stream is live, so a run out of bytes is an underrun.
  live : Bool
  -- A stop has been asked for: the ramp ends the run short of the ring's end.
  stopping : Bool
  -- Bytes that the ring holds at most; a write beyond them is refused.
  cap : Nat
  -- The bytes played since the last seek-clear, and the ring's content behind them.
  consumed : List UInt8
  ring : List UInt8
  -- The X, Y and Z counters, which only a position clear zeroes.
  counts : Steps

namespace Kernel

/-- How many bytes the ring has taken since its last seek-clear. -/
def intake (k : Kernel) : Nat := k.consumed.length + k.ring.length

/-- The processed count of `cnc/position`, which wraps. -/
def processed (k : Kernel) : UInt32 := UInt32.ofNat k.consumed.length

/-- The tally of bytes taken in `cnc/position`, which saturates at `UINT32_MAX`. -/
def took (k : Kernel) : UInt32 := UInt32.ofNat (min k.intake (2 ^ 32 - 1))

/-- One byte written into the ring. -/
def take (k : Kernel) (b : UInt8) : Kernel := { k with ring := k.ring ++ [b] }

/-- A seek-clear (`lseek(fd, 1)`). -/
def seekClear (k : Kernel) : Kernel := { k with consumed := [], ring := [] }

/-- A position clear (`lseek(fd, 2)`). -/
def zeroCounts (k : Kernel) : Kernel := { k with counts := 0 }

/-- A write of `cnc/stop`. -/
def stop (k : Kernel) : Kernel :=
  match k.state with
  | .running => { k with stopping := true }
  | .underrun => { k with state := .idle }
  | _ => k

/-- A write of `cnc/disable`. -/
def disable (k : Kernel) : Kernel := { k with state := .disabled, stopping := false }

/-- A write of `cnc/enable`. -/
def enable (k : Kernel) : Kernel :=
  match k.state with
  | .disabled => { k with state := .idle }
  | _ => k

/-- The answers to a write of `cnc/run`. -/
inductive RunReply where
  | accepted
  | noData
  | refused
deriving DecidableEq, Repr

/-- The answer to a write of `cnc/run`. `ok` is false when an idle kernel with bytes queued
refuses all the same (a head sync that fails). -/
def runReply (k : Kernel) (ok : Bool) : RunReply :=
  match k.state with
  | .idle => if k.ring = [] then .noData else if ok then .accepted else .refused
  | _ => .refused

/-- The kernel after a write of `cnc/run` with that answer. -/
def run (k : Kernel) : RunReply → Kernel
  | .accepted => { k with state := .running, stopping := false }
  | _ => k

end Kernel

/-- What the kernel, or another writer of its attributes, does by itself. -/
inductive KernelAct where
  -- One byte is played.
  | play
  -- The run ends at the ring's end.
  | runOut
  -- A stop's ramp ends the run.
  | rampEnd
  -- Another writer stops the kernel.
  | foreignStop
  -- Another writer disables the kernel.
  | foreignDisable
  -- The stepper drivers fault.
  | driverFault
deriving DecidableEq, Repr

/-- The byte at the ring's front played: a power byte sets the duty, a tick byte steps. -/
def Kernel.playByte (k : Kernel) (b : UInt8) (rest : List UInt8) : Kernel :=
  { k with
    consumed := k.consumed ++ [b]
    ring := rest
    counts := if isTick b then tickSteps k.counts b else k.counts }

def Kernel.act (k : Kernel) : KernelAct → Option Kernel
  | .play =>
    match k.state, k.ring with
    | .running, b :: rest => some (k.playByte b rest)
    | _, _ => none
  | .runOut =>
    match k.state, k.ring with
    | .running, [] => some { k with state := if k.live then .underrun else .idle, stopping := false }
    | _, _ => none
  | .rampEnd =>
    if k.state = .running ∧ k.stopping then some { k with state := .idle, stopping := false } else none
  | .foreignStop => some k.stop
  | .foreignDisable => some k.disable
  | .driverFault => some { k with state := .fault, stopping := false }

/-! ## The engine's record -/

/-- A laser transition: from stream index `idx` on, `power` and `fire` are in force. -/
structure LaserEv where
  idx : Nat
  power : UInt8
  fire : Bool
deriving DecidableEq, Repr

/-- The position read-back a reset owes (`RB_*`). -/
inductive ReadBack where
  | none
  | wait
  | done
  | lost
deriving DecidableEq, Repr

/-- The record `gf`. The laser queue `lev` is the list of its pending entries, head first. -/
structure Gf where
  -- Device I/O is enabled; otherwise the null sink.
  active : Bool
  -- The device is handed to another process.
  suspended : Bool
  -- The device is open in this process.
  fdOpen : Bool
  -- The device came from the broker, and stays open across a handover.
  inherited : Bool
  -- The machine tick in Hz.
  rate : Nat
  -- The preload and queue depth in ticks.
  depth : Nat
  minMargin : Int
  ring : Nat → StepByte
  produced : Nat
  shipped : Nat
  base : Nat
  streaming : Bool
  kernelRunning : Bool
  runPending : Bool
  clearPending : Bool
  holdPending : Bool
  -- Wall clock readings are in nanoseconds.
  holdPollAt : Nat
  -- Bytes the ring took since its last seek-clear, mod 2^32.
  written : UInt32
  runBase : UInt32
  killed : Bool
  killStep : StepByte
  steps : Steps
  baseSteps : Steps
  baseCounts : Steps
  baseValid : Bool
  -- How many counter zeros there have been.
  zeros : Nat
  readback : ReadBack
  unplayed : Steps
  failed : Bool
  shipT0 : Nat
  clamped : Nat
  lev : List LaserEv
  curPower : UInt8
  curFire : Bool
  gateSeen : Bool
  lastLit : Bool
  powerSent : Bool
  levOverflowWarned : Bool
  dithPeriod : UInt32
  dithMin : UInt32
  dithLeft : UInt32
  dithOn : UInt32
  dithAcc : UInt32
  wantPower : UInt8
  wantFire : Bool
  jogging : Bool
  vticks : Nat
  wallEpoch : Nat
  periodLatched : Nat

/-- The ring slot of a stream index (`idx & RING_MASK`). -/
def slot (idx : Nat) : Nat := idx % ringSize

/-! ## The threads

Three threads share the record: the protocol thread and the producer call the entry points,
the shipper runs `ship_pass` and `check_kernel_state`. A critical section of `gf.lock` is one
atomic step, and so is each flag access, device write, seek and attribute read outside it. -/

/-- The entry points that test `gf.failed` without the lock before they take it. -/
inductive Call where
  | wakeup
  | pulse (stepBits dirBits : UInt8)
  | laser (power : UInt8) (fire : Bool)
  | jog (on : Bool)
deriving DecidableEq, Repr

/-- The locals of a `ship_pass` that outlive the release of `gf.lock` around a write. -/
structure Pass where
  gate : Bool
  due : Nat
  startRun : Bool

/-- A chunk that has been built: its bytes, the steps in them, and whether it is the first of
its kernel run. -/
structure Chunk where
  bytes : List UInt8
  steps : Steps
  first : Bool

/-- Where the shipper goes on after it has raised `fault_flag`. -/
inductive Raised where
  | top
  | lock
  | check
  | runEnd (relight : Bool) (rc : Int)

/-- Where the shipper thread is. -/
inductive ShipPc where
  -- Before `pending_pass`.
  | top
  -- `pending_pass`, about to read `cnc/state`; `clear` and `zeros` are its snapshot.
  | pendState (clear : Bool) (zeros : Nat)
  -- About to seek-clear the residue.
  | pendSeek (zeros : Nat)
  -- About to read the step counters.
  | pendCount (zeros : Nat)
  -- About to take `gf.lock` and settle the clear.
  | pendDone (cleared : Bool) (counts : Option Steps) (zeros : Nat)
  -- About to take `gf.lock` over a pending run whose kernel stopped.
  | pendOurs
  -- `ship_pass`, about to take `gf.lock`.
  | lock
  -- `gf.lock` held, the fire gate sampled.
  | sampled (gate : Bool)
  -- `gf.lock` released; `rest` is what the write has not yet put into the ring.
  | writing (pass : Pass) (chunk : Chunk) (rest : List UInt8)
  -- The write has returned; about to take `gf.lock` again.
  | wrote (pass : Pass) (chunk : Chunk) (ok : Bool)
  -- `gf.lock` released for good; about to test `gf.failed`.
  | runTest (startRun : Bool) (base written : UInt32)
  -- `run_gate`, about to read `cnc/state`.
  | gateState (base written : UInt32)
  -- `run_gate`, about to read the byte counts.
  | gateCounts (base written : UInt32)
  -- `run_gate`, about to fault the stream.
  | gateFault
  -- `issue_run`, about to take `latch_mx` and relight.
  | runLatch
  -- `issue_run`, about to write `cnc/run`.
  | runWrite (relight retried : Bool)
  -- The run was not accepted; about to read `cnc/state`.
  | runState (relight retried noData : Bool)
  -- About to acknowledge an underrun and ask again.
  | runStop (relight : Bool)
  -- About to fault the stream, after a stop when `stop` is set.
  | runFault (relight stop : Bool)
  -- About to relock if a disarm landed, and to release `latch_mx`.
  | runEnd (relight : Bool) (rc : Int)
  -- `latch_fault`, about to take `latch_mx`.
  | latchFault
  -- `latch_fault`, about to take `gf.lock`.
  | latchFail
  -- `ship_pass`, with `issue_run`'s answer.
  | runRc (rc : Int)
  -- `check_kernel_state`, about to take its snapshot.
  | check
  -- `check_kernel_state`, about to read `cnc/state`.
  | checkState
  -- `check_kernel_state`, about to fault the stream.
  | checkFault
  -- About to raise `fault_flag`, and then to go on at `next`.
  | raise (next : Raised)

def Raised.pc : Raised → ShipPc
  | .top => .top
  | .lock => .lock
  | .check => .check
  | .runEnd relight rc => .runEnd relight rc

/-- What a call on the protocol thread still has to do after it released its lock. -/
inductive Owed where
  | stop
  | streamingOff
  | latchAck
  | latchFault
  | latchFail
  | raise
  | resumeSwap
  -- the close of a handover locked the latch
  | closeLatch
deriving DecidableEq, Repr

structure State where
  gf : Gf
  faultFlag : Bool
  laserArmed : Bool
  fireGate : Bool
  armed : Bool
  latchLockedByUs : Bool
  latchFailReported : Bool
  kernel : Kernel
  -- Every byte handed to the sink, in order (what `GFSINK_DUMP` mirrors).
  dump : List UInt8
  pc : ShipPc
  -- Calls that have passed the lock-free test and wait for `gf.lock`.
  entered : List Call
  -- The rest of the call on the protocol thread.
  proto : List Owed

/-- The shipper holds `gf.lock` between its sample of the fire gate and the first chunk. -/
def ShipPc.holdsLock : ShipPc → Bool
  | .sampled _ => true
  | _ => false

/-- `issue_run` is about to write `cnc/run`: whether it has relit, and whether it retries. -/
def ShipPc.runFlags : ShipPc → Option (Bool × Bool)
  | .runWrite relight retried => some (relight, retried)
  | _ => none

theorem ShipPc.eq_runWrite {pc : ShipPc} {relight retried : Bool}
    (h : pc.runFlags = some (relight, retried)) : pc = .runWrite relight retried := by
  cases pc with
  | runWrite relight' retried' =>
    cases h
    rfl
  | _ => cases h

/-- `pending_pass` is about to make a clear, of that many zeros. -/
def ShipPc.seekZeros : ShipPc → Option Nat
  | .pendSeek zeros => some zeros
  | _ => none

theorem ShipPc.eq_pendSeek {pc : ShipPc} {zeros : Nat} (h : pc.seekZeros = some zeros) :
    pc = .pendSeek zeros := by
  cases pc with
  | pendSeek zeros' =>
    cases h
    rfl
  | _ => cases h

/-- The shipper holds `latch_mx` from the relight to the relock of `issue_run`. -/
def ShipPc.holdsLatch : ShipPc → Bool
  | .runWrite _ _ | .runState _ _ _ | .runStop _ | .runFault _ _ | .runEnd _ _ => true
  | .raise (.runEnd _ _) => true
  | _ => false

end Glowforge.Stream
