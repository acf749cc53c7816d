import Glowforge.Stream.Producer

/-!
# Glowforge — the shipper thread

`pending_pass`, `ship_pass`, `run_gate`, `issue_run` and `check_kernel_state`, cut where the
thread releases a lock or talks to the kernel. Each definition here is one such piece and
leaves the program counter where the thread goes on.

What the environment decides in a step is in its `Env`: the readings of the wall clock,
whether a device write, a seek or an attribute write took, and whether a read succeeded.
-/

namespace Glowforge.Stream

/-- The environment's part of one shipper step. -/
structure Env where
  now : Nat := 0
  later : Nat := 0
  ok : Bool := true
  readOk : Bool := true
deriving DecidableEq, Repr

/-- The device takes one more byte: it is open here and its ring has room. -/
def canTake (s : State) : Bool := s.gf.fdOpen && s.kernel.ring.length < s.kernel.cap

/-- A reading of `cnc/state`. -/
def readState (e : Env) (s : State) : Option KernelState :=
  if e.readOk then some s.kernel.state else none

/-! ## One latch write -/

/-- `latch_write_locked`, the retries included: `ok` says that one of the writes took. An
unlock of a latch believed unlocked writes nothing. -/
def latchWriteLocked (lock ok : Bool) (s : State) : Bool × State :=
  let skips := !lock && !s.latchLockedByUs
  let took := !skips && ok
  (skips || ok,
    { s with
      latchLockedByUs := if took then lock else s.latchLockedByUs
      latchFailReported := if took then false else s.latchFailReported })

/-! ## The dark pad

One pad tick behind a lit last byte, written under `gf.lock` from three places. -/

/-- The pad lands in the device: one is open, and the write takes. -/
def padLands (ok : Bool) (s : State) : Bool := s.gf.active && ok && canTake s

/-- Hands a dark pad to the sink; the device counts it when it lands. -/
def darkPad (ok : Bool) (s : State) : State :=
  { s with
    dump := s.dump ++ [0x00]
    kernel := if padLands ok s then s.kernel.take 0x00 else s.kernel
    gf := { s.gf with
      lastLit := false
      written := if padLands ok s then s.gf.written + 1 else s.gf.written } }

/-! ## `pending_pass`

The operations that the other threads ask for: the clear, the count and the answer of a read-back. -/

/-- A failed stream's run request goes with the fault, and so does one that no longer owns
bytes in the kernel. A clear keeps it for the reset. -/
def keepsRun (g : Gf) : Bool := g.runPending && (g.clearPending || (!g.failed && g.kernelRunning))

/-- A stream that a reset ended behind a lit byte still ends dark. -/
def resetPad (ok : Bool) (s : State) : State :=
  if s.gf.clearPending && s.gf.lastLit then darkPad ok s else s

/-- Where `pending_pass` goes from its snapshot. -/
def pendingNext (g : Gf) : ShipPc :=
  if !g.clearPending && (!g.active || !g.runPending) then .lock
  else if g.active then .pendState g.clearPending g.zeros
  else .pendDone true none g.zeros

/-- The snapshot under `gf.lock`. -/
def pendingSnapshot (e : Env) (s : State) : State :=
  let s := resetPad e.ok { s with gf := { s.gf with runPending := keepsRun s.gf } }
  { s with pc := pendingNext s.gf }

/-- The kernel's state read for a clear or for a waiting run request. -/
def pendingState (e : Env) (clear : Bool) (zeros : Nat) (s : State) : State :=
  { s with pc :=
      match readState e s with
      | none | some .running => if clear then .check else .lock
      | some _ => if clear then .pendSeek zeros else .pendOurs }

/-- A seek-clear takes unless the kernel runs. -/
def seekTakes (e : Env) (s : State) : Bool :=
  e.ok && s.gf.fdOpen && s.kernel.state != .running

def pendingSeek (e : Env) (zeros : Nat) (s : State) : State :=
  if seekTakes e s then { s with kernel := s.kernel.seekClear, pc := .pendCount zeros }
  else { s with pc := .pendDone false none zeros }

def pendingCount (e : Env) (zeros : Nat) (s : State) : State :=
  { s with pc := .pendDone true (if e.readOk then some s.kernel.counts else none) zeros }

/-- A new base for the position read-back (`rebase_locked`). -/
def rebaseLocked (counts : Steps) (g : Gf) : Gf :=
  { g with baseSteps := g.steps, baseCounts := counts, baseValid := true }

/-- The read-back a reset owes, once the clear has run: the steps counted since the base and
not played since then were in the ring. -/
def settleReadback (counts : Option Steps) (stale : Bool) (g : Gf) : Gf :=
  if g.readback = .wait then
    match counts, stale || !g.baseValid with
    | some c, false =>
      { g with
        unplayed := g.unplayed + ((g.steps - g.baseSteps) - (c - g.baseCounts))
        readback := .done }
    | _, _ => { g with readback := .lost }
  else g

/-- The base after the clear: the counters just read, unless a counter zero made them stale. -/
def settleBase (counts : Option Steps) (stale : Bool) (g : Gf) : Gf :=
  if stale then g
  else
    match counts with
    | some c => rebaseLocked c g
    | none => { g with baseValid := false }

/-- What the clear ends: the ring's byte count, when the seek took, and the run's marks. -/
def settleRun (cleared : Bool) (g : Gf) : Gf :=
  ditherReset { g with
    written := if cleared && g.active then 0 else g.written
    clearPending := false, runPending := false, kernelRunning := false, powerSent := false }

/-- The end of a clear, under `gf.lock`. The null sink's counters are the steps it took. -/
def pendingDone (cleared : Bool) (counts : Option Steps) (zeros : Nat) (s : State) : State :=
  let counts := if s.gf.active then counts else some s.gf.steps
  let stale := s.gf.zeros != zeros
  { s with
    gf := settleRun cleared (settleBase counts stale (settleReadback counts stale s.gf))
    pc := .lock }

/-- A kernel that stopped running under a live stream's pending request faults the stream. -/
def pendingOurs (s : State) : State :=
  if s.gf.runPending && s.gf.kernelRunning then
    { s with
      gf := { s.gf with runPending := false, failed := true }
      pc := if s.gf.failed then .lock else .raise .lock }
  else { s with pc := .lock }

/-! ## `ship_pass`: the beginning of a pass

Up to the first chunk: the fault's pad, the sample of the gate, the end of a stream that has shipped
out. -/

/-- A failed stream still ends dark. -/
def faultPad (ok : Bool) (s : State) : State :=
  if s.gf.failed && s.gf.lastLit then
    let s := darkPad ok s
    { s with gf := { s.gf with curFire := false } }
  else s

/-- The entry: a failed stream or a suspended one ships nothing, and any other has its fire
gate sampled. -/
def shipLock (e : Env) (s : State) : State :=
  if s.gf.failed || s.gf.suspended then { faultPad e.ok s with pc := .check }
  else { s with pc := .sampled s.fireGate }

/-- The gate's edge: on its fall the fire state in flight and every queued fire-on go. -/
def gateEdge (gate : Bool) (g : Gf) : Gf :=
  if gate = g.gateSeen then g
  else if gate then { g with gateSeen := gate }
  else
    ditherReset { g with
      gateSeen := gate
      curFire := false
      lev := g.lev.map fun e => { e with fire := false } }

/-- The stream's last byte fired: one dark pad tick closes the run. -/
def endPad (ok : Bool) (s : State) : State :=
  if s.gf.lastLit then
    let s := darkPad ok s
    { s with gf := { s.gf with
        shipped := s.gf.shipped + 1, produced := s.gf.shipped + 1, curFire := false } }
  else s

/-- The end of data is the normal one from here, and the kernel drains its queue. -/
def endRun (now : Nat) (s : State) : State :=
  { s with
    kernel := if s.gf.active then { s.kernel with live := false } else s.kernel
    gf := ditherReset { s.gf with
      kernelRunning := false, runPending := false, powerSent := false
      holdPending := true, holdPollAt := now + 100000000 } }

/-- The stream is finished. -/
def endStream (e : Env) (s : State) : State :=
  if s.gf.kernelRunning then endRun e.now (endPad e.ok s) else s

/-- The motors drop to hold once the kernel has idled. The currents themselves are not in
this model: the step ends where the drop would be made. -/
def pollHold (e : Env) (s : State) : State :=
  if s.gf.holdPending && e.later ≥ s.gf.holdPollAt then
    if !s.gf.active then { s with gf := { s.gf with holdPending := false } }
    else if readState e s = some .idle then { s with gf := { s.gf with holdPending := false } }
    else { s with gf := { s.gf with holdPollAt := e.later + 100000000 } }
  else s

/-! ## `ship_pass`: the tick loop

Due ticks become bytes, and bytes a chunk; the lock is held while a chunk is built and released
while it is written. -/

/-- Applies the transitions that the cursor has reached: what stays queued, the fire state
and the power then in force, and whether there was one. -/
def applyDue (shipped : Nat) : List LaserEv → Bool → UInt8 → Bool →
    List LaserEv × Bool × UInt8 × Bool
  | [], fire, power, due => ([], fire, power, due)
  | e :: rest, fire, power, due =>
    if e.idx ≤ shipped then applyDue shipped rest e.fire e.power true
    else (e :: rest, fire, power, due)

/-- The transitions of the tick at the cursor, with the level they leave in force. -/
def tickLaser (g : Gf) : Gf × UInt8 × Bool :=
  match applyDue g.shipped g.lev g.curFire g.curPower false with
  | (lev, fire, evPower, dueEv) =>
    let g := { g with lev := lev, curFire := fire }
    (if dueEv && !fire then ditherReset g else g, evPower, dueEv)

/-- The power byte ahead of the tick, if it needs one. In the density model the duty is
pinned at full and sent once per run. -/
def tickPower (g : Gf) (evPower : UInt8) (dueEv : Bool) : Gf × List UInt8 :=
  if g.dithPeriod ≠ 0 then
    if g.powerSent then ({ g with curPower := evPower }, [])
    else ({ g with curPower := evPower, powerSent := true }, [0x80 ||| gfPwmPeriod])
  else if (dueEv && evPower != g.curPower) || !g.powerSent then
    ({ g with curPower := evPower, powerSent := true }, [0x80 ||| evPower])
  else (g, [])

/-- Whether the tick fires: the core's request, masked by the gate and by the dose model. -/
def tickFire (gate : Bool) (g : Gf) : Gf × Bool :=
  if g.curFire && gate then (if g.dithPeriod = 0 then (g, true) else ditherTick g) else (g, false)

/-- The tick byte at the cursor; its slot is zeroed for the next lap. -/
def tickByte (gate : Bool) (g : Gf) : Gf × UInt8 :=
  let b := (g.ring (slot g.shipped)).val
  match tickFire gate { g with ring := Function.update g.ring (slot g.shipped) 0 } with
  | (g, fires) =>
    let b := if fires then b ||| 0x10 else b
    ({ g with lastLit := lit b, shipped := g.shipped + 1 }, b)

/-- One tick of the loop: the bytes it adds to the chunk. -/
def shipTick (gate : Bool) (g : Gf) : Gf × List UInt8 :=
  match tickLaser g with
  | (g, evPower, dueEv) =>
    match tickPower g evPower dueEv with
    | (g, power) =>
      match tickByte gate g with
      | (g, b) => (g, power ++ [b])

/-- A tick is due, and there is one to ship. -/
def tickDue (due : Nat) (streaming : Bool) (g : Gf) : Bool :=
  g.shipped < due && (streaming || g.shipped < g.produced)

/-- The inner loop: ticks until the chunk is full or none is due. A tick adds at least one
byte, so `shipChunk` rounds are enough. -/
def buildTicks (gate : Bool) (due : Nat) (streaming : Bool) :
    Nat → Gf → List UInt8 → Gf × List UInt8
  | 0, g, chunk => (g, chunk)
  | fuel + 1, g, chunk =>
    if chunk.length < shipChunk - 1 && tickDue due streaming g then
      match shipTick gate g with
      | (g, bytes) => buildTicks gate due streaming fuel g (chunk ++ bytes)
    else (g, chunk)

/-- The end of the loop: `gf.lock` is released with the counts for the run's gate. -/
def shipFinish (p : Pass) (s : State) : State :=
  { s with pc := .runTest p.startRun s.gf.runBase s.gf.written }

/-- The chunk is the kernel's from here: its run's first byte is marked, and the write
begins. The null sink takes it as it is. -/
def shipChunkOut (p : Pass) (g : Gf) (bytes : List UInt8) (s : State) : State :=
  let first := !g.kernelRunning
  let g := { g with kernelRunning := true, runBase := if first then g.written else g.runBase }
  { s with
    gf := g
    dump := s.dump ++ bytes
    pc := .writing p ⟨bytes, stepsIn bytes, first⟩ (if g.active then bytes else []) }

/-- One round of the outer loop, under `gf.lock`. A round that begins ships at least one tick,
so its chunk is never empty. -/
def shipLoop (p : Pass) (streaming : Bool) (s : State) : State :=
  if tickDue p.due streaming s.gf then
    match buildTicks p.gate p.due streaming shipChunk s.gf [] with
    | (g, bytes) => shipChunkOut p g bytes s
  else shipFinish p s

/-- Until the first ship the wall clock is where the stream begins. -/
def anchor (now : Nat) (s : State) : State :=
  { s with gf := { s.gf with
      shipT0 := if s.gf.shipped = 0 ∨ !s.gf.kernelRunning then now else s.gf.shipT0 } }

/-- The wall-clock due index, and the first round. -/
def shipDue (e : Env) (gate : Bool) (s : State) : State :=
  shipLoop ⟨gate, dueIndex e.later s.gf, false⟩ s.gf.streaming s

/-- The bytes that a stream's first chunk waits for. -/
def preload (g : Gf) : Nat := if g.streaming then g.depth else 1

/-- The pass behind the gate's edge: a stream that is over ends, one whose preload is short
waits, and any other ships what is due. -/
def shipGated (e : Env) (gate : Bool) (s : State) : State :=
  if !s.gf.streaming && s.gf.produced - s.gf.shipped == 0 then
    { pollHold e (endStream e s) with pc := .check }
  else if (s.gf.shipped == 0 || !s.gf.kernelRunning) &&
      s.gf.produced - s.gf.shipped < preload s.gf then
    { s with pc := .check }
  else shipDue e gate (anchor e.now s)

/-- The locked body of a pass, from the gate's sample on. -/
def shipBody (e : Env) (gate : Bool) (s : State) : State :=
  shipGated e gate { s with gf := gateEdge gate s.gf }

/-- The write: one byte lands, or it fails, or it is complete. -/
def shipWrite (e : Env) (p : Pass) (c : Chunk) (rest : List UInt8) (s : State) : State :=
  match rest with
  | [] => { s with pc := .wrote p c true }
  | b :: rest =>
    if e.ok && canTake s then { s with kernel := s.kernel.take b, pc := .writing p c rest }
    else { s with pc := .wrote p c false }

/-- The ring took the chunk: its bytes and steps are counted. -/
def chunkLanded (c : Chunk) (s : State) : State :=
  { s with gf := { s.gf with
      written := if s.gf.active then s.gf.written + UInt32.ofNat c.bytes.length else s.gf.written
      steps := s.gf.steps + c.steps } }

/-- The write failed, with part of the chunk in the ring: a fault, and no base any more. -/
def chunkFailed (s : State) : State :=
  { s with
    faultFlag := true
    gf := { s.gf with
      failed := true
      baseValid := false
      readback := if s.gf.readback = .wait then .lost else s.gf.readback } }

/-- Behind a chunk that landed: a fault, a handover or a reset that landed under the write
ends the pass, and otherwise the next round begins. -/
def shipNext (p : Pass) (c : Chunk) (s : State) : State :=
  if s.gf.failed || s.gf.suspended || s.gf.clearPending then shipFinish p s
  else shipLoop { p with startRun := p.startRun || c.first } s.gf.streaming s

/-- After the write, under `gf.lock` again. -/
def shipWrote (p : Pass) (c : Chunk) (ok : Bool) (s : State) : State :=
  if ok then shipNext p c (chunkLanded c s) else shipFinish p (chunkFailed s)

/-! ## The run start

`run_gate` and `issue_run`, an exchange with the kernel at a time. -/

/-- The test ahead of the run's gate, without the lock. -/
def runTest (startRun : Bool) (base written : UInt32) (s : State) : State :=
  { s with pc := if startRun && s.gf.active && !s.gf.failed then .gateState base written else .check }

/-- `run_gate`: the kernel's state. -/
def runGateState (e : Env) (base written : UInt32) (s : State) : State :=
  { s with pc :=
      match readState e s with
      | none => .gateFault
      | some .running => .runRc 0
      | some .underrun | some .fault => .runLatch
      | some _ => .gateCounts base written }

/-- `run_gate`: the ring must hold exactly this run's bytes. -/
def runGateCounts (e : Env) (base written : UInt32) (s : State) : State :=
  { s with pc :=
      if !e.readOk || s.kernel.processed != base ||
          (s.kernel.took != written && s.kernel.took != 0xFFFFFFFF) then .gateFault
      else .runLatch }

/-- Sets `gf.failed` as an atomic exchange does: the alarm is raised for a stream that had not
failed. -/
def exchangeFailed (next : Raised) (s : State) : State :=
  { s with
    gf := { s.gf with failed := true }
    pc := if s.gf.failed then next.pc else .raise next }

/-- `issue_run`: the relight undoes only a lock this process wrote inside an open window. -/
def issueRelight (e : Env) (s : State) : State :=
  if s.laserArmed && s.fireGate && s.latchLockedByUs then
    let unlock := latchWriteLocked false e.ok s
    { unlock.2 with pc := if unlock.1 then .runWrite true false else .latchFault }
  else { s with pc := .runWrite false false }

/-- `issue_run`: the request itself. -/
def issueWrite (e : Env) (relight retried : Bool) (s : State) : State :=
  { s with
    kernel := s.kernel.run (s.kernel.runReply e.ok)
    pc :=
      match s.kernel.runReply e.ok with
      | .accepted => .runEnd relight 1
      | .noData => .runState relight retried true
      | .refused => .runState relight retried false }

/-- `issue_run`: the state behind a request that was not accepted. An underrun outside the
armed window is acknowledged and the run asked for again, once. -/
def issueState (e : Env) (relight retried noData : Bool) (s : State) : State :=
  { s with pc :=
      match readState e s with
      | some .underrun =>
        if !s.laserArmed && !retried then .runStop relight else .runFault relight true
      | some .running => .runEnd relight 0
      | some .idle => if noData then .runEnd relight 2 else .runFault relight false
      | _ => .runFault relight false }

def issueFault (relight stop : Bool) (s : State) : State :=
  exchangeFailed (.runEnd relight (-1)) { s with kernel := if stop then s.kernel.stop else s.kernel }

/-- `issue_run`: a disarm that landed meanwhile relocks. -/
def issueEnd (e : Env) (relight : Bool) (rc : Int) (s : State) : State :=
  if relight && !s.laserArmed then { (latchWriteLocked true e.ok s).2 with pc := .runRc rc }
  else { s with pc := .runRc rc }

/-- `latch_fault`, its record of the episode: an episode already reported faults nothing. -/
def latchFaultRecord (s : State) : State :=
  { s with latchFailReported := true, pc := if s.latchFailReported then .check else .latchFail }

/-- `ship_pass` with the answer: a playing kernel keeps the request, and bytes that are gone
fault the stream. -/
def shipRc (rc : Int) (s : State) : State :=
  if rc = 0 then { s with gf := { s.gf with runPending := true }, pc := .check }
  else if rc = 2 then exchangeFailed .check s
  else { s with pc := .check }

/-! ## `check_kernel_state` -/

def checkSnapshot (s : State) : State :=
  { s with pc :=
      if s.gf.active && s.gf.kernelRunning && !s.gf.failed && !s.gf.suspended then .checkState
      else .top }

def checkState (e : Env) (s : State) : State :=
  { s with pc :=
      match readState e s with
      | none | some .running => .top
      | some _ => .checkFault }

/-! ## The thread -/

/-- One step of the shipper thread. -/
def shipStep (e : Env) (s : State) : State :=
  match s.pc with
  | .top => pendingSnapshot e s
  | .pendState clear zeros => pendingState e clear zeros s
  | .pendSeek zeros => pendingSeek e zeros s
  | .pendCount zeros => pendingCount e zeros s
  | .pendDone cleared counts zeros => pendingDone cleared counts zeros s
  | .pendOurs => pendingOurs s
  | .lock => shipLock e s
  | .sampled gate => shipBody e gate s
  | .writing p c rest => shipWrite e p c rest s
  | .wrote p c ok => shipWrote p c ok s
  | .runTest startRun base written => runTest startRun base written s
  | .gateState base written => runGateState e base written s
  | .gateCounts base written => runGateCounts e base written s
  | .gateFault => exchangeFailed .check s
  | .runLatch => issueRelight e s
  | .runWrite relight retried => issueWrite e relight retried s
  | .runState relight retried noData => issueState e relight retried noData s
  | .runStop relight => { s with kernel := s.kernel.stop, pc := .runWrite relight true }
  | .runFault relight stop => issueFault relight stop s
  | .runEnd relight rc => issueEnd e relight rc s
  | .latchFault => latchFaultRecord s
  | .latchFail => { s with gf := { s.gf with failed := true }, pc := .raise .check }
  | .runRc rc => shipRc rc s
  | .check => checkSnapshot s
  | .checkState => checkState e s
  | .checkFault => exchangeFailed .top s
  | .raise next => { s with faultFlag := true, pc := next.pc }

end Glowforge.Stream
