import Glowforge.Lib.Runs
import Glowforge.Port.Basic

/-!
# Glowforge — the port, the sender and the core as one machine

`serial_poll` runs on the protocol thread: the sender's transport first, then `ctlport_poll`. The
core reads the ring between two polls, and polls run inside a line that the core executes. A
`Label` is one part of that, and the parts may come in any order and number: `ctlportPoll` is
the order in which one poll makes its own.

* **`pollHold`** — a port jog that has ended, and the hold of an open envelope.
* **`pollAccept`**, **`pollDeferred`** — a new connection, and a line that waits.
* **`pollRead`** — one byte of the client's, at the end of a line its request.
* **`portStep`** — the machine.

What the core does with a line is `Serial.coreRead` and `Serial.coreCompletes`. A jog of the
port's runs from the status that accepts it, if the core is in its jog state then, to the end of
that state.
-/

namespace Glowforge.Port

open Laser (SysState)
open Serial (Rx Status isEol)

/-! ## The parts of `ctlport_poll`

One definition for each part, in the order of the source. -/

/-- The port jog ends when the core leaves the jog state, and a sender byte that arrives before
that cancels it. -/
def pollJog (s : State) : State :=
  if s.portJog && !s.awaiting then
    if s.core != .jog then serialHoldSender false { s with portJog := false }
    else if serialSenderPending s.rx then cancelPortJog s
    else s
  else s

/-- The sender's bytes wait while the envelope is open, and the first one closes it, once a port
jog it cancels has ended. -/
def pollEnvelope (s : State) : State :=
  if s.envelopeOpen && !s.awaiting then
    if !serialSenderPending s.rx then serialHoldSender true { s with envelopeHold := true }
    else if s.portJog then cancelPortJog s
    else
      serialHoldSender false { gfhomeEnvelopeClose s with
        messages := s.messages ++ ["[MSG:Bed check envelope closed: a sender line]"]
        envelopeHold := false }
  else if s.envelopeHold && !s.envelopeOpen then
    let s := { s with envelopeHold := false }
    if s.portJog then s else serialHoldSender false s
  else s

def pollHold (s : State) : State := pollEnvelope (pollJog s)

/-- A connection waits at the listener. One client: a second is refused, but the hang-up of the
first (`hungUp`) is looked for before. -/
def pollAccept (hungUp : Bool) (s : State) : State :=
  let s := if s.fd.isSome && hungUp then dropPortClient s else s
  if s.fd.isSome then s else { s with fd := some s.accepted, accepted := s.accepted + 1 }

def pollDeferred (e : Env) (s : State) : State :=
  match s.deferred with
  | none => s
  | some d =>
    if takesLine d.line s.rx then { await d.asker d.line d.jog s with deferred := none }
    else if serialSenderPending s.rx || decide (e.now > d.expires) then
      reply e d.asker "busy:sender\n" { s with deferred := none, trayWant := none }
    else s

/-- What a `read` of the client's socket returns, past `EAGAIN`. -/
inductive Read where
  | byte (c : UInt8) (e : Env)
  | hangUp

/-- Room for a request (`sizeof(req) - 1`). -/
def reqSize : Nat := 159

/-- The request is complete: a C string, which ends at a NUL. -/
def request (e : Env) (conn : Nat) (s : State) : State :=
  handleRequest e ⟨conn, s.asked⟩ (s.req.takeWhile (· != 0))
    { s with req := [], asked := s.asked + 1, log := s.log ++ [.asked conn s.asked] }

/-- Nothing is read while a line's status is outstanding or a line waits to be injected. -/
def reads (s : State) : Bool := s.fd.isSome && !s.awaiting && s.deferred.isNone

/-- One turn of the read loop. -/
def pollRead (r : Read) (s : State) : State :=
  match s.fd, r with
  | none, _ => s
  | some _, .hangUp => dropPortClient s
  | some conn, .byte c e =>
    if c = 10 then request e conn s
    else if c = 13 then s
    else if s.req.length < reqSize then { s with req := s.req ++ [c] }
    else dropPortClient s

/-! ## The core's statuses

The core's report at the end of a line, and what the port makes of it. -/

/-- The core has accepted the jog of an injected line, and runs it in its jog state. -/
def acceptJog (owner : Option Nat) (status : Status) (s : State) : State :=
  match owner with
  | none => s
  | some k =>
    if status = 0 ∧ (s.injected k).jog ∧ s.core = .jog then
      let conn := (s.injected k).asker.conn
      { s with jogs := s.jogs ++ [⟨conn, s.fd != some conn, false⟩] }
    else s

/-- The status of the line that the core has run goes to the port where one is due. -/
def report (owner : Option Nat) (due : Bool) (status : Status) (e : Env) (s : State) : State :=
  if due then lineDone e (some status) (acceptJog owner status s) else acceptJog owner status s

/-- The core reports the status of the line that it ran. -/
def coreReports (run : Status → Status → Status × Status) (e : Env) (s : State) : Option State :=
  match s.rx.running with
  | none => none
  | some r =>
    (Serial.coreCompletes run s.rx).map fun rx =>
      report r.owner s.rx.injStatusDue (run r.entry s.rx.lastError).1 e { s with rx := rx }

/-! ## The machine

A label is one part of a poll, a byte or a change of the sender's, or a turn of the core's. -/

inductive Label where
  -- The sender's: a byte, `realtime` when the core takes it as a command; a connection, which
  -- `rx_poll` may turn away; a hang-up; the welcome.
  | byte (data : UInt8) (realtime : Bool) (now : Nat)
  | connect (loopback : Bool) (e : Env)
  | drop (e : Env)
  | welcome
  -- `ctlport_poll`.
  | pollHold
  | pollAccept (hungUp : Bool)
  | pollDeferred (e : Env)
  | pollRead (r : Read)
  -- The core: it reads a byte of a line, reports a line's status, gives up what it runs (a
  -- reset), cancels a jog out of the stream, changes its state.
  | read (skip : Bool)
  | complete (run : Status → Status → Status × Status) (e : Env)
  | abort (e : Env)
  | cancel (e : Env)
  | core (next : SysState)
  -- A read by the core in no particular place.
  | getC
  -- A home or a reset closes the envelope.
  | closeEnvelope

/-- One `ctlport_poll`. -/
def ctlportPoll (accept : Option Bool) (e : Env) (rs : List Read) : List Label :=
  [Label.pollHold] ++ (accept.map Label.pollAccept).toList ++ [Label.pollDeferred e] ++ rs.map Label.pollRead

/-- `rx_byte` notes when the sender completes a line with something in it. -/
def rxByte (data : UInt8) (now : Nat) (s : State) : State :=
  let stored := !s.rx.discarding && s.rx.ring.length != Serial.rxBufferSize - 1
  { s with
    rx := Serial.rxByte data s.rx
    senderLastLine := if stored && isEol data && s.rx.senderMidline then now else s.senderLastLine }

/-- The accept of `rx_poll`: a sender from the network is turned away while senders are kept out. -/
def accept (loopback : Bool) (e : Env) (s : State) : State :=
  if s.keepOut && !loopback then s
  else
    let s := dropClient e s
    { s with rx := { s.rx with client := true, bannerPending := true }, loopback := loopback }

/-- The core leaves its jog state with whatever it ran in it. -/
def coreState (next : SysState) (s : State) : State :=
  { s with core := next, jogs := if next == .jog then s.jogs else [] }

/-- `serialRxCancel`. -/
def rxCancel (e : Env) (s : State) : State :=
  let t := { s with rx := Serial.serialRxCancel s.rx }
  if s.rx.injActive then lineDone e none t else t

/-- The core gives up what it runs or reads, and flushes. -/
def coreAborts (e : Env) (s : State) : State :=
  let t := { s with rx := Serial.coreAborts s.rx }
  if s.rx.injActive then lineDone e none t else t

def portStep (s : State) : Label → Option State
  | .byte data realtime now => some (if realtime then s else rxByte data now s)
  | .connect loopback e => some (accept loopback e s)
  | .drop e => some (dropClient e s)
  | .welcome => some { s with rx := Serial.welcome s.rx }
  | .pollHold => some (pollHold s)
  | .pollAccept hungUp => some (pollAccept hungUp s)
  | .pollDeferred e => some (pollDeferred e s)
  | .pollRead r => if reads s then some (pollRead r s) else none
  | .read skip => (Serial.coreRead skip s.rx).map fun rx => { s with rx := rx }
  | .complete run e => coreReports run e s
  | .abort e => some (coreAborts e s)
  | .cancel e => some (rxCancel e s)
  | .core next => some (coreState next s)
  | .getC => some { s with rx := ((Serial.serialGetC s.rx).map Prod.snd).getD s.rx }
  | .closeEnvelope => some (gfhomeEnvelopeClose s)

/-! ## Requests for concrete schedules

A request, byte by byte, for the runs that the other modules go through. -/

/-- The client's line, byte by byte. -/
def requestLine (line : String) (e : Env) : List Label :=
  (ascii line ++ [10]).map fun c => .pollRead (.byte c e)

/-- The core reads the six bytes of the line `$J=X1`, and reports its status. -/
def jogRuns (status : Status) (e : Env) : List Label :=
  List.replicate 6 (Label.read false) ++ [Label.complete (fun _ _ => (status, status)) e]

end Glowforge.Port
