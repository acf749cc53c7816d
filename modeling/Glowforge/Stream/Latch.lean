import Glowforge.Stream.Custody

/-!
# Glowforge — who owns the laser latch

The hardware latch is written by this process, locked by others, and locked by the kernel at the
final close of the pulse device; nobody else unlocks it. `latch_locked_by_us` records which way
this process last wrote it, and an unlock is written only over a lock of its own. A write and its
record are two steps of one hold of `latch_mx`; a close and its record are not even that.

* **`latchStep`** — the engine beside the hardware latch, with locks of other processes at any point.
* **`LatchWrite`** — a write of the latch under way: decided, stored, and then recorded.
* **`OwnerInv`** — an unlocked latch is recorded as such, and a lock of another process made
  under an unlocked record is not undone.
* **`latch_owned`** — both hold in every run in which no other process locks, under an unlocked record,
  between a lock of this process's and its record.
-/

namespace Glowforge.Stream

/-! ## The hardware latch

The engine's step decides a latch write, and goes on as if it were recorded: nobody else reads the
record before `latch_mx` is free. The store reaches the hardware in a step of its own, and the record
`latch_locked_by_us` follows in another. -/

/-- A write of `latch_write_locked` that takes. -/
structure LatchWrite where
  -- the shipper writes, or the protocol thread
  shipper : Bool
  lock : Bool
  stored : Bool
  -- what `latch_locked_by_us` says until the record
  before : Bool
deriving DecidableEq

structure LatchState where
  engine : State
  locked : Bool
  write : Option LatchWrite

/-- `latch_locked_by_us` as it stands. -/
def LatchState.record (x : LatchState) : Bool :=
  match x.write with
  | some w => w.before
  | none => x.engine.latchLockedByUs

/-- The suspend closes the device for good. -/
def closesDevice (readOk : Bool) (s : State) : Bool :=
  s.gf.active && drained s.gf && readOk && s.kernel.state == .idle && !s.gf.inherited

/-- The step closes the device, which locks the latch. -/
def Label.closes (s : State) : Label → Bool
  | .suspend readOk => closesDevice readOk s
  | _ => false

def Owed.needsLatch : Owed → Bool
  | .latchAck | .latchFault | .closeLatch => true
  | _ => false

/-- The step takes `latch_mx`, or holds it. -/
def Label.takesLatch (s : State) : Label → Bool
  | .ship _ =>
    match s.pc with
    | .runLatch | .latchFault => true
    | pc => pc.holdsLatch
  | .proto => s.proto.head?.any Owed.needsLatch
  | l => l.needsLatch

def Label.byShipper : Label → Bool
  | .ship _ => true
  | _ => false

/-- The step is one of the protocol thread's that a latch write of its own keeps waiting. -/
def Label.byCaller : Label → Bool
  | .proto => true
  | l => l.beginsCall

/-- The step waits for a write under way: for `latch_mx`, or in the thread that writes. -/
def LatchState.waits (x : LatchState) (l : Label) : Bool :=
  x.write.any fun w => l.takesLatch x.engine || (if w.shipper then l.byShipper else l.byCaller)

/-- The latch and the engine at the start, the latch locked. -/
def LatchState.start (c : Config) (k : Kernel) (emptied counted : Bool) : LatchState :=
  ⟨State.init c k emptied counted, true, none⟩

end Glowforge.Stream
