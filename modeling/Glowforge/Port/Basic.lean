import Glowforge.Laser.Basic
import Glowforge.Serial.Rx

/-!
# Glowforge — the controller port (`ctlport.c`)

The port is a second channel to the core beside the sender's: a local socket with one client,
served from the protocol thread. A request is one line. It is answered at once, or a line of its
own is injected into the RX ring and its status is the answer.

* **`State`** — the port's variables, the ring that it shares with the sender (`Serial.Rx`), and
  what it reads and writes of the core and of the homing module.
* **`lineDone`** — the injected line's status, from the stream's status hook.
* **`handleRequest`** — every request of the port.

Every reply is for a request, and the code does not say which: a request carries its number and
the connection it came from (`Asker`), a reply the number of the request that it was made for.
The edges of the work envelope and the LEDs are not here, and the text of a state report is the
environment's.
-/

namespace Glowforge.Port

open Function (update)
open Laser (SysState)
open Serial (Rx Status isEol)

/-- A C string. -/
def ascii (s : String) : List UInt8 := s.toList.map fun c => UInt8.ofNat c.toNat

/-! ## The state

The port's own variables, what it shares with the stream, and the history of its requests and
replies. -/

/-- What one call reads from outside. Times are in milliseconds. -/
structure Env where
  now : Nat := 0
  -- The client takes the reply whole.
  takes : Bool := true
  -- X and Y are homed.
  homed : Bool := true
  armed : Bool := false
  arming : Bool := false
  released : Bool := false
  -- A job waits at an M-code of a package.
  mcodeWaiting : Bool := false
  -- `plan_get_current_block` has one.
  planned : Bool := false
  kernelIdle : Bool := true
  -- `homing_mode` is `manual`.
  manual : Bool := false
  trayOut : Bool := false
  setTable : List UInt8 → Bool := fun _ => true
  answer : Nat → Bool → List UInt8 → Bool := fun _ _ _ => true
  stateReport : String := ""

/-- A request: the connection it came from, and its number. -/
structure Asker where
  conn : Nat
  request : Nat
deriving DecidableEq

/-- An injected line: the request it is for, and whether it is a jog. -/
structure Injected where
  asker : Asker
  jog : Bool
deriving DecidableEq

/-- A line that waits for the ring to empty. -/
structure Deferred where
  line : List UInt8
  jog : Bool
  expires : Nat
  asker : Asker
deriving DecidableEq

/-- A jog of the port's that the core has accepted and runs. `cancelled` says that
`EXEC_MOTION_CANCEL` has been set since, and since its connection was dropped. -/
structure Jog where
  conn : Nat
  dropped : Bool
  cancelled : Bool
deriving DecidableEq

inductive Event where
  -- A connection's request is complete.
  | asked (conn request : Nat)
  -- A connection is sent the reply to a request.
  | replied (conn request : Nat) (text : String)
deriving DecidableEq

structure State where
  rx : Rx
  -- `port_fd`: the connection that is served.
  fd : Option Nat
  req : List UInt8
  -- A line is injected, its status not yet back; and that line is a jog.
  awaiting : Bool
  awaitingJog : Bool
  -- The jog in progress is the port's.
  portJog : Bool
  cancelSent : Bool
  envelopeHold : Bool
  deferred : Option Deferred
  -- The injected line is a tray switch to this mode (`true` for out).
  trayWant : Option Bool
  -- `serial.c`'s, beside the ring: 0 when the sender never completed a line.
  senderLastLine : Nat
  keepOut : Bool
  loopback : Bool
  -- `glowforge_homing.c`'s.
  envelopeOpen : Bool
  -- The core's.
  core : SysState
  -- The message lines to the sender.
  messages : List String
  -- History: the connections and requests so far, the injected lines by number, the port's jogs
  -- that the core runs, and what was asked and replied.
  accepted : Nat
  asked : Nat
  injected : Nat → Injected
  jogs : List Jog
  log : List Event

/-- `ctlport_init`: the port listens, nobody is connected. -/
def State.start : State where
  rx := Rx.start
  fd := none
  req := []
  awaiting := false
  awaitingJog := false
  portJog := false
  cancelSent := false
  envelopeHold := false
  deferred := none
  trayWant := none
  senderLastLine := 0
  keepOut := false
  loopback := false
  envelopeOpen := false
  core := .idle
  messages := []
  accepted := 0
  asked := 0
  injected := fun _ => ⟨⟨0, 0⟩, false⟩
  jogs := []
  log := []

/-! ## The line multiplexer

What the port can see of the sender in the ring, and when the multiplexer takes a line of the
port's: between two lines, and into an empty ring. -/

/-- `serial_sender_pending`: the sender's bytes lie behind an injected line, and end-of-line bytes
alone are no claim on the machine. -/
def serialSenderPending (r : Rx) : Bool := (r.ring.drop r.injLeft).any fun c => !isEol c.byte

/-- `serial_sender_empty_lines_only`. -/
def serialSenderEmptyLinesOnly (r : Rx) : Bool :=
  !r.ring.isEmpty && r.injLeft == 0 && !serialSenderPending r

/-- `serial_inject_line` takes the line. -/
def takesLine (line : List UInt8) (r : Rx) : Bool :=
  !(r.injActive || r.senderMidline || r.discarding || line.isEmpty || !r.ring.isEmpty ||
    decide (line.length + 1 > Serial.rxBufferSize - 1))

/-- `serial_hold_sender`. -/
def serialHoldSender (hold : Bool) (s : State) : State := { s with rx := { s.rx with holdSender := hold } }

/-! ## The client

One client at a time. Dropping it cancels its jog and closes the envelope that it opened. -/

def Jog.drop (conn : Nat) (j : Jog) : Jog :=
  if j.conn = conn then { j with dropped := true, cancelled := false } else j

/-- `system_set_exec_state_flag(EXEC_MOTION_CANCEL)`. -/
def setMotionCancel (s : State) : State :=
  { s with jogs := s.jogs.map fun j => { j with cancelled := true } }

def cancelPortJog (s : State) : State :=
  if s.portJog && !s.cancelSent && s.core == .jog then { setMotionCancel s with cancelSent := true } else s

/-- `gfhome_envelope_close`. -/
def gfhomeEnvelopeClose (s : State) : State := { s with envelopeOpen := false }

/-- `drop_port_client`: the client is the dead-man of its jog. -/
def dropPortClient (s : State) : State :=
  match s.fd with
  | none => s
  | some conn =>
    gfhomeEnvelopeClose <| cancelPortJog
      { s with fd := none, req := [], deferred := none, jogs := s.jogs.map (Jog.drop conn) }

/-- A client that cannot take a reply is gone. -/
def reply (e : Env) (a : Asker) (text : String) (s : State) : State :=
  match s.fd with
  | none => s
  | some conn =>
    if e.takes then { s with log := s.log ++ [.replied conn a.request text] } else dropPortClient s

/-! ## The injected line

A line goes in with what its status will mean, and the status comes back through one hook. -/

/-- The accepted jog is the port's, and the sender waits. -/
def ownJog (s : State) : State :=
  serialHoldSender true { s with
    messages := if s.portJog then s.messages else s.messages ++ ["[MSG:Panel jog]"]
    portJog := true
    cancelSent := false }

/-- `line_done`; `none` for a line that was flushed. -/
def lineDone (e : Env) (status : Option Status) (s : State) : State :=
  let a := (s.injected (s.rx.injected - 1)).asker
  let tray := s.trayWant
  let s := { s with awaiting := false, trayWant := none }
  match status with
  | none => reply e a "error:aborted\n" s
  | some 0 =>
    match tray with
    | some want => reply e a (if e.trayOut == want then "ok\n" else "error:saved\n") s
    | none => reply e a "ok\n" (if s.awaitingJog then ownJog s else s)
  | some status => reply e a ("error:" ++ toString status ++ "\n") s

/-- The multiplexer takes the line, and its status is awaited. -/
def await (a : Asker) (line : List UInt8) (jog : Bool) (s : State) : State :=
  { s with
    rx := Serial.serialInjectLine line s.rx
    awaiting := true
    awaitingJog := jog
    injected := update s.injected s.rx.injected ⟨a, jog⟩ }

/-- How long a line waits for the sender's empty lines to be read (`DEFER_S`). -/
def deferMs : Nat := 100

/-- `inject`: the sender's empty lines are no reason to refuse. -/
def inject (e : Env) (a : Asker) (line : List UInt8) (jog : Bool) (s : State) : State :=
  if takesLine line s.rx then await a line jog s
  else if serialSenderEmptyLinesOnly s.rx then
    { s with deferred := some ⟨line, jog, e.now + deferMs, a⟩ }
  else reply e a "busy:sender\n" { s with trayWant := none }

/-! ## Flushes

A flush of the ring takes an injected line with it, and tells its source. -/

/-- `serialRxFlush`, which tells the injected line's source. -/
def flush (e : Env) (s : State) : State :=
  let t := { s with rx := Serial.serialRxFlush s.rx }
  if s.rx.injActive then lineDone e none t else t

/-- `drop_client`. -/
def dropClient (e : Env) (s : State) : State :=
  if s.rx.client then flush e { s with rx := { s.rx with client := false }, loopback := false } else s

/-- `serial_drop_sender`: a sender on this host stays. -/
def serialDropSender (e : Env) (s : State) : State :=
  if !s.rx.client || s.loopback then s
  else dropClient e { s with
    messages := s.messages ++ ["[MSG:The machine is in use: senders are kept out for now]"] }

/-! ## The requests

Each command of the port under the source's name: its checks in their order, and what it does behind
them. -/

/-- `SENDER_QUIET_S` and `SENDER_OUT_QUIET_S`. -/
def senderQuietMs : Nat := 300
def senderOutQuietMs : Nat := 2000

/-- The sender completed a line less than `quiet` ago. -/
def senderSpoke (quiet : Nat) (e : Env) (s : State) : Bool :=
  decide (s.senderLastLine > 0) && decide (e.now - s.senderLastLine < quiet)

def jogWord (c : UInt8) : Bool :=
  (65 ≤ c && c ≤ 90) || (48 ≤ c && c ≤ 57) || c == 46 || c == 45 || c == 43 || c == 32

/-- `op_jog`. -/
def opJog (e : Env) (a : Asker) (words : List UInt8) (s : State) : State :=
  if words = [] || !words.all jogWord then reply e a "error:invalid\n" s
  else if e.released then reply e a "busy:released\n" s
  else if e.mcodeWaiting then reply e a "busy:mcode\n" s
  else if !(s.core == .idle || (s.core == .jog && s.portJog)) then reply e a "busy:state\n" s
  else if serialSenderPending s.rx || senderSpoke senderQuietMs e s then reply e a "busy:sender\n" s
  else inject e a (ascii "$J=" ++ words) true s

/-- `op_command`. -/
def opCommand (e : Env) (a : Asker) (line : List UInt8) (s : State) : State :=
  if !(s.core == .idle || s.core == .alarm) then reply e a "busy:state\n" s
  else if serialSenderPending s.rx then reply e a "busy:sender\n" s
  else inject e a line false s

/-- `op_sender_out`. -/
def opSenderOut (e : Env) (a : Asker) (s : State) : State :=
  if s.keepOut then reply e a "ok\n" s
  else if s.core != .idle || e.planned || s.portJog || e.mcodeWaiting || e.armed || e.arming ||
      s.envelopeOpen || !e.kernelIdle then reply e a "busy:state\n" s
  else if s.rx.senderMidline || s.rx.senderLineOpen || serialSenderPending s.rx ||
      senderSpoke senderOutQuietMs e s then reply e a "busy:sender\n" s
  else reply e a "ok\n" (serialDropSender e { s with keepOut := true })

/-- `op_tray`: the sender's own M103, run for the panel. -/
def opTray (e : Env) (a : Asker) (mode : List UInt8) (s : State) : State :=
  if mode ≠ ascii "out" ∧ mode ≠ ascii "in" then reply e a "error:invalid\n" s
  else if e.mcodeWaiting then reply e a "busy:mcode\n" s
  else if s.core != .idle || s.portJog then reply e a "busy:state\n" s
  else if serialSenderPending s.rx then reply e a "busy:sender\n" s
  else
    let want := mode == ascii "out"
    inject e a (if want then ascii "M103 P1" else ascii "M103 P0") false { s with trayWant := some want }

/-- `op_home`: every other `$H` is the sender's to start. -/
def opHome (e : Env) (a : Asker) (s : State) : State :=
  if e.manual then opCommand e a (ascii "$H") s else reply e a "error:mode\n" s

/-- `gfhome_envelope` for the bed check; the edges it sets are not here. -/
def opEnvelope (e : Env) (a : Asker) (opening : Bool) (s : State) : State :=
  if !e.homed then reply e a "error:homed\n" s
  else if s.core != .idle || e.armed then reply e a "busy:state\n" s
  else reply e a "ok\n" { s with envelopeOpen := opening }

/-- Decimal digits at the front, as a number behind `n`. -/
def digits (n : Nat) : List UInt8 → Nat × List UInt8
  | [] => (n, [])
  | c :: cs => if 48 ≤ c ∧ c ≤ 57 then digits (n * 10 + (c.toNat - 48)) cs else (n, c :: cs)

/-- `strtoul` to base 10 with a 32-bit `unsigned long`: the value, and what follows it; nothing is
read without a digit. -/
def strtoul (args : List UInt8) : Nat × List UInt8 :=
  let front := args.dropWhile fun c => c == 32 || (9 ≤ c && c ≤ 13)
  let negative := front.head? == some 45
  let number := if negative || front.head? == some 43 then front.tail else front
  match number with
  | [] => (0, args)
  | c :: _ =>
    if 48 ≤ c ∧ c ≤ 57 then
      let (n, rest) := digits 0 number
      let value := if n > 0xffffffff then 0xffffffff else if negative then (2 ^ 32 - n) % 2 ^ 32 else n
      (value, rest)
    else (0, args)

/-- `op_mcode_result`: `<seq> ok|fail [<words>]`. -/
def opMcodeResult (e : Env) (a : Asker) (args : List UInt8) (s : State) : State :=
  let (seq, rest) := strtoul args
  let answered (ok : Bool) (text : List UInt8) : State :=
    reply e a (if e.answer seq ok (if text.head? = some 32 then text.tail else text) then "ok\n"
      else "error:stale\n") s
  match rest with
  | 32 :: word =>
    if rest = args || seq == 0 then reply e a "error:invalid\n" s
    else if word = ascii "ok" || ascii "ok " <+: word then answered true (word.drop 2)
    else if word = ascii "fail" || ascii "fail " <+: word then answered false (word.drop 4)
    else reply e a "error:invalid\n" s
  | _ => reply e a "error:invalid\n" s

/-- `handle_request`. -/
def handleRequest (e : Env) (a : Asker) (line : List UInt8) (s : State) : State :=
  if line = ascii "state" then reply e a e.stateReport s
  else if ascii "jog " <+: line then opJog e a (line.drop 4) s
  else if line = ascii "cancel" then reply e a "ok\n" (cancelPortJog s)
  else if line = ascii "release" then opCommand e a (ascii "$MD") s
  else if line = ascii "energize" then opCommand e a (ascii "$ME") s
  else if line = ascii "home" then opHome e a s
  else if line = ascii "envelope open" || line = ascii "envelope apply" then
    opEnvelope e a (line = ascii "envelope open") s
  else if ascii "tray " <+: line then opTray e a (line.drop 5) s
  else if ascii "mcodes " <+: line then
    reply e a (if e.setTable (line.drop 7) then "ok\n" else "error:invalid\n") s
  else if ascii "mcode_result " <+: line then opMcodeResult e a (line.drop 13) s
  else if line = ascii "sender out" then opSenderOut e a s
  else if line = ascii "sender in" then reply e a "ok\n" { s with keepOut := false }
  else reply e a "error:unknown\n" s

end Glowforge.Port
