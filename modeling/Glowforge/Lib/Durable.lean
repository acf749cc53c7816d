import Mathlib.Tactic.TypeStar

/-!
# A value with a durable copy

A file, or the entry of one in its directory, is changed in memory first. What the disk holds is
what a power cut leaves; it follows at the program's sync, or before, whenever the system writes
back by itself.

* **`Copy`** — the value as programs see it, and as the disk keeps it.
* **`Settled`** — the two agree, as they do behind a sync and behind a power cut.
* **`Settled.cut_eq`**, **`Settled.sync_eq`** — a copy that is settled stays as it is under both.
-/

namespace Durable

structure Copy (α : Type*) where
  seen : α
  kept : α

variable {α : Type*} {c : Copy α}

namespace Copy

/-- A change, which programs see at once. -/
def write (v : α) (c : Copy α) : Copy α := { c with seen := v }

/-- The disk holds what programs see. -/
def sync (c : Copy α) : Copy α := { c with kept := c.seen }

/-- A power cut: programs see what the disk holds. -/
def cut (c : Copy α) : Copy α := { c with seen := c.kept }

def Settled (c : Copy α) : Prop := c.seen = c.kept

theorem settled_sync : c.sync.Settled := rfl

theorem settled_cut : c.cut.Settled := rfl

theorem Settled.sync_eq (h : c.Settled) : c.sync = c := by
  obtain ⟨seen, kept⟩ := c
  cases h
  rfl

theorem Settled.cut_eq (h : c.Settled) : c.cut = c := by
  obtain ⟨seen, kept⟩ := c
  cases h
  rfl

end Copy

end Durable
