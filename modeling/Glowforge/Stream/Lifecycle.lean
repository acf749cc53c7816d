import Glowforge.Stream.Shipper

/-!
# Glowforge — reset, read-back and handover of the stream

The protocol thread's calls: the soft reset (`gfStreamReset`), the position read-back it owes
(`gfStreamReadback`), the counter zero of a home (`gfStreamClearPosition`), the latch writer,
and the handover of the device to another process and back (`gfStreamSuspend`,
`gfStreamResume`). What a call does after it has released its lock is left in `proto`, one
entry for each later step.
-/

namespace Glowforge.Stream

/-! ## The reset

`gf_stream_reset`, its locked section first and then what it does behind it. -/

/-- The unshipped bytes, each ring slot once: a backlog never wraps onto itself with a step in
it, since a step that far ahead faults the stream. -/
def backlog (g : Gf) : List StepByte :=
  (List.range (min (g.produced - g.shipped) ringSize)).map fun i => g.ring (slot (g.shipped + i))

/-- The loop of `drop_backlog_locked`: zeroes `n` slots from stream index `i` on and adds
their steps. -/
def dropSlots : Nat → Nat → (Nat → StepByte) × Steps → (Nat → StepByte) × Steps
  | 0, _, x => x
  | n + 1, i, (ring, dropped) =>
    dropSlots n (i + 1) (Function.update ring (slot i) 0, tickSteps dropped (ring (slot i)).val)

/-- `drop_backlog_locked`: the dropped steps are added to `dropped`. -/
def dropBacklogLocked (dropped : Steps) (g : Gf) : Gf × Steps :=
  match dropSlots (g.produced - g.shipped) g.shipped (g.ring, dropped) with
  | (ring, dropped) => ({ g with ring := ring, produced := g.shipped }, dropped)

/-- What both branches of the reset end: the queued transitions, the fire state and the wish
for it, the leading power byte and the dither. -/
def resetLaser (g : Gf) : Gf :=
  ditherReset { g with
    streaming := false, lev := [], curFire := false, wantFire := false, powerSent := false }

/-- Bytes of the stream in the kernel, or bytes that may be there, are stopped and cleared. -/
def resetRun (now : Nat) (killed : Bool) (g : Gf) : Gf :=
  if killed || g.kernelRunning then
    { g with
      kernelRunning := false, runPending := false, clearPending := true
      holdPending := true, holdPollAt := now + 200000000 }
  else g

/-- The read-back that the reset of a stream the core went idle under owes. -/
def resetReadback (killed : Bool) (dropped : Steps) (g : Gf) : Gf :=
  if killed && !g.failed then
    { g with unplayed := dropped, readback := if g.baseValid then .wait else .lost }
  else g

/-- The reset ends a live stream, or one the core went idle under. -/
def resetStream (now : Nat) (killed : Bool) (g : Gf) : Gf :=
  match dropBacklogLocked (if killed then tickSteps 0 g.killStep.val else 0) g with
  | (g, dropped) => resetReadback killed dropped (resetRun now killed (resetLaser g))

/-- The reset acknowledges a stream fault. -/
def resetFailed (g : Gf) : Gf :=
  resetLaser { (dropBacklogLocked 0 g).1 with
    failed := false, kernelRunning := false, runPending := false, clearPending := true
    holdPending := false }

/-- The reset ends a stream: a live one, or one the core went idle under. -/
def resetEnds (g : Gf) : Bool := g.streaming || g.killed

/-- The stream it ends has bytes in the kernel, or may have. -/
def resetStops (g : Gf) : Bool := resetEnds g && (g.killed || g.kernelRunning)

/-- The locked section of `gf_stream_reset`. -/
def resetLocked (now : Nat) (g : Gf) : Gf :=
  let ended := { g with killed := false, readback := .none }
  let ended := if resetEnds g then resetStream now g.killed ended else ended
  { (if g.failed then resetFailed ended else ended) with lastLit := resetStops g && g.lastLit }

/-- What the reset does after the lock: the stop, the end of the live flag, and the
acknowledgment of a latch failure. -/
def resetOwes (g : Gf) : List Owed :=
  let kernel : List Owed :=
    if resetStops g || (g.failed && g.active) then [.stop, .streamingOff] else []
  let latch : List Owed := if g.failed then [.latchAck] else []
  kernel ++ latch

def gfStreamReset (now : Nat) (s : State) : State :=
  { s with gf := resetLocked now s.gf, proto := resetOwes s.gf }

/-! ## The position

The read-back's answer, the counter zero, and the reading of the kernel. -/

/-- One poll of `gf_stream_readback`: 1 with the steps, 0 when nothing is owed, -1 when the
position is lost, and no answer while the wait goes on. -/
def readbackAnswer (expired : Bool) (g : Gf) : Option (Int × Steps) :=
  match g.readback with
  | .wait => if expired then some (-1, 0) else none
  | .done => some (1, g.unplayed)
  | .none => some (0, 0)
  | .lost => some (-1, 0)

/-- The read-back is taken once. -/
def gfStreamReadback (expired : Bool) (s : State) : State :=
  if (readbackAnswer expired s.gf).isSome then { s with gf := { s.gf with readback := .none } } else s

/-- `gf_stream_clear_position`: a counter zero is a new base, one that fails leaves none. -/
def gfStreamClearPosition (ok : Bool) (s : State) : State :=
  if s.gf.active && s.gf.fdOpen then
    let g := { s.gf with zeros := s.gf.zeros + 1 }
    if ok then { s with kernel := s.kernel.zeroCounts, gf := rebaseLocked 0 g }
    else { s with gf := { g with baseValid := false } }
  else s

/-- `gf_stream_kernel_idle`. -/
def gfStreamKernelIdle (readOk : Bool) (s : State) : Bool :=
  !s.gf.active || (readOk && s.kernel.state == .idle)

/-! ## The latch -/

/-- `gf_stream_laser_latch`: a lock that fails after its retries faults the stream. -/
def gfStreamLaserLatch (lock ok : Bool) (s : State) : State :=
  let write := latchWriteLocked lock ok s
  { write.2 with proto := if !write.1 && lock then [.latchFault] else [] }

/-! ## The handover

The suspension, and the resume in its two sections with the kernel between them. -/

/-- The engine itself is drained, as `gf_stream_suspend` tests it. -/
def drained (g : Gf) : Bool :=
  !g.streaming && !g.kernelRunning && !g.clearPending && g.produced == g.shipped

/-- `gf_stream_suspend`: from a drained engine and an idle kernel only. Standalone the close
is the handover, and the kernel locks the latch on it, which the record then follows. -/
def gfStreamSuspend (readOk : Bool) (s : State) : State :=
  if !s.gf.active then { s with gf := { s.gf with suspended := true } }
  else if drained s.gf && readOk && s.kernel.state == .idle then
    let s := { s with gf := { s.gf with holdPending := false, suspended := true } }
    if s.gf.inherited then s
    else { s with gf := { s.gf with fdOpen := false }, proto := [.closeLatch] }
  else s

/-- A new base at a takeover of the device (`rebase_at_takeover`). -/
def rebaseAtTakeover (emptied counted : Bool) (k : Kernel) (g : Gf) : Gf :=
  if emptied && counted then rebaseLocked k.counts g else { g with baseValid := false }

/-- The kernel as a takeover leaves it: the ring cleared when the seek took, a stale underrun
and the live flag acknowledged. Standalone the rail settles first, so the kernel is disabled
and enabled again. -/
def takeover (inherited emptied : Bool) (k : Kernel) : Kernel :=
  let k := if inherited then k else k.disable
  let k := if emptied then k.seekClear else k
  let k := { k.stop with live := false }
  if inherited then k else k.enable

/-- The seek-clear of a takeover takes unless the kernel still runs. -/
def takeoverEmpties (inherited emptied : Bool) (k : Kernel) : Bool :=
  emptied && (!inherited || k.state != .running)

/-- `gf_stream_resume` up to its last section: the latch locked, the kernel taken over, a new
base. -/
def gfStreamResume (latchOk emptied counted : Bool) (s : State) : State :=
  if !s.gf.active then { s with gf := { s.gf with suspended := false } }
  else
    let emptied := takeoverEmpties s.gf.inherited emptied s.kernel
    let write := latchWriteLocked true latchOk s
    { write.2 with
      kernel := takeover s.gf.inherited emptied s.kernel
      gf := rebaseAtTakeover emptied counted s.kernel s.gf
      proto := (if write.1 then [] else [.latchFault]) ++ [.resumeSwap] }

/-- The last section of `gf_stream_resume`: the stream starts over. -/
def resumeSwap (g : Gf) : Gf :=
  ditherReset { g with
    fdOpen := true, killed := false, killStep := 0, readback := .none, produced := 0, shipped := 0
    written := 0, streaming := false, kernelRunning := false, holdPending := false, failed := false
    suspended := false, lev := [], curPower := 0, curFire := false, lastLit := false
    powerSent := false }

/-- One later step of the call on the protocol thread. -/
def protoStep (s : State) : Option State :=
  match s.proto with
  | [] => none
  | .stop :: rest =>
    some { s with kernel := if s.gf.active then s.kernel.stop else s.kernel, proto := rest }
  | .streamingOff :: rest =>
    some { s with
      kernel := if s.gf.active then { s.kernel with live := false } else s.kernel, proto := rest }
  | .latchAck :: rest => some { s with latchFailReported := false, proto := rest }
  | .latchFault :: rest =>
    some { s with
      latchFailReported := true
      proto := (if s.latchFailReported then [] else [.latchFail, .raise]) ++ rest }
  | .latchFail :: rest => some { s with gf := { s.gf with failed := true }, proto := rest }
  | .raise :: rest => some { s with faultFlag := true, proto := rest }
  | .resumeSwap :: rest => some { s with gf := resumeSwap s.gf, proto := rest }
  | .closeLatch :: rest => some { s with latchLockedByUs := true, proto := rest }

end Glowforge.Stream
