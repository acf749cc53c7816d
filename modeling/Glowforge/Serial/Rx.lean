import Mathlib.Data.List.DropRight
import Mathlib.Logic.Function.Basic

/-!
# Glowforge — the RX ring and its line multiplexing (`serial.c`)

The core reads one stream of lines. The controller port shares it: it injects whole lines into
an empty ring between the sender's, and the status of such a line goes to its source.

* **`Rx`** — the ring, the flags of the multiplexing, the sender's connection, and the core as
  far as the stream sees it: it reads bytes, runs a line at its end-of-line byte, and reports
  one status when it has run.
* **`serialGetC`**, **`serialRxFlush`**, **`injectStatusMessage`**, **`serialInjectLine`**,
  **`rxByte`** — the functions that advance the flags.
* **`rxStep`** — one call of the transport, the port or the core.

A byte of the ring carries its owner, which the code does not know: `none` for the sender,
`some k` for the `k`-th injected line. The ring is a list, oldest byte first; only its order
and its room matter here.
-/

namespace Glowforge.Serial

open Function (update)

/-- `status_code_t`, with `Status_OK` as `0`. -/
abbrev Status := Nat

/-- Slots of the RX ring (`RX_BUFFER_SIZE`), one of which stays free. -/
def rxBufferSize : Nat := 1024

def asciiCan : UInt8 := 0x18

def isEol (c : UInt8) : Bool := c == 10 || c == 13

structure Cell where
  byte : UInt8
  owner : Option Nat
deriving DecidableEq

/-- What became of an injected line: the status that the core reported for it, and what its
source was told (`none` for a line that was flushed, `-1`). -/
structure Line where
  reported : Option Status
  told : List (Option Status)
deriving DecidableEq

/-- A line that the core runs, with the parser error it began under. `heldEntry` is the error
it would have begun under without the injected lines. -/
structure Running where
  owner : Option Nat
  entry : Status
  heldEntry : Status
deriving DecidableEq

structure Rx where
  ring : List Cell
  overflow : Bool
  discarding : Bool
  overrun : Bool
  -- the sender's last stored byte, and the last byte the core read, was not an end of line
  senderMidline : Bool
  readMidline : Bool
  senderEol : UInt8
  holdSender : Bool
  injActive : Bool
  injLeft : Nat
  injFirst : Bool
  injStatusDue : Bool
  injSavedError : Status
  senderLineOpen : Bool
  client : Bool
  bannerPending : Bool
  -- `gc_state.last_error`
  lastError : Status
  -- the core: the line it runs, and whether it is in the middle of reading one
  running : Option Running
  coreMidline : Bool
  -- the statuses that the sender's chain was handed
  chain : List Status
  -- history: the sender's lines and its parser error as they are without the injected lines
  senderLines : List Status
  held : Status
  -- history: the lines injected so far, by number
  injected : Nat
  lines : Nat → Line

/-- The controller starts: no sender, nothing injected. -/
def Rx.start : Rx where
  ring := []
  overflow := false
  discarding := false
  overrun := false
  senderMidline := false
  readMidline := false
  senderEol := 10
  holdSender := false
  injActive := false
  injLeft := 0
  injFirst := false
  injStatusDue := false
  injSavedError := 0
  senderLineOpen := false
  client := false
  bannerPending := false
  lastError := 0
  running := none
  coreMidline := false
  chain := []
  senderLines := []
  held := 0
  injected := 0
  lines := fun _ => ⟨none, []⟩

/-! ## The stream's functions

Each under the source's name, in the order of the file. -/

/-- The call of `inj_done`, which is about the line injected last. -/
def injDone (status : Option Status) (s : Rx) : Rx :=
  let line := s.lines (s.injected - 1)
  { s with
    lines := update s.lines (s.injected - 1) { line with told := line.told ++ [status] } }

/-- `serialRxFlush`. -/
def serialRxFlush (s : Rx) : Rx :=
  let s := { s with
    ring := []
    overflow := false
    discarding := false
    senderMidline := false
    readMidline := false
    senderLineOpen := false }
  if s.injActive then
    injDone none { s with injActive := false, injStatusDue := false, injLeft := 0 }
  else s

/-- `serialRxCancel`. -/
def serialRxCancel (s : Rx) : Rx := { serialRxFlush s with ring := [⟨asciiCan, none⟩] }

/-- The part of `serialGetC` that counts the injected line's bytes. -/
def countInjected (s : Rx) : Rx :=
  let s := if s.injFirst then { s with injFirst := false, injSavedError := s.lastError } else s
  let s := { s with injLeft := s.injLeft - 1 }
  if s.injLeft = 0 then { s with injStatusDue := true } else s

/-- `serialGetC`; `none` for `-1`. -/
def serialGetC (s : Rx) : Option (Cell × Rx) :=
  match s.ring with
  | [] => none
  | c :: rest =>
    -- the read gate: an injected line, a cancel and an empty line pass it
    if s.holdSender ∧ s.injLeft = 0 ∧ c.byte ≠ asciiCan ∧ ¬(isEol c.byte ∧ ¬s.readMidline) then
      none
    else
      let s := { s with ring := rest, readMidline := !isEol c.byte }
      if s.injLeft = 0 then
        some (c, if s.readMidline then { s with senderLineOpen := true } else s)
      else some (c, countInjected s)

/-- `inject_status_message`. -/
def injectStatusMessage (status : Status) (s : Rx) : Rx :=
  if s.injStatusDue then
    injDone (some status)
      { s with injActive := false, injStatusDue := false, lastError := s.injSavedError }
  else { s with senderLineOpen := false, chain := s.chain ++ [status] }

/-- `serial_inject_line`: refused unless the ring is empty and the sender between lines. -/
def serialInjectLine (line : List UInt8) (s : Rx) : Rx :=
  if s.injActive ∨ s.senderMidline ∨ s.discarding ∨ line = [] ∨ s.ring ≠ [] ∨
      line.length + 1 > rxBufferSize - 1 then s
  else
    { s with
      ring := line.map (Cell.mk · (some s.injected)) ++ [Cell.mk s.senderEol (some s.injected)]
      injLeft := line.length + 1
      injActive := true
      injFirst := true
      injStatusDue := false
      injected := s.injected + 1
      lines := update s.lines s.injected ⟨none, []⟩ }

/-- `rx_byte` for a byte that is no real-time command. -/
def rxByte (data : UInt8) (s : Rx) : Rx :=
  if s.discarding then { s with discarding := !isEol data }
  else if s.ring.length = rxBufferSize - 1 then
    -- the line that overran is unwritten back to the last end of line
    { s with
      overflow := true
      overrun := true
      discarding := !isEol data
      ring := s.ring.rdropWhile fun c => !isEol c.byte
      senderMidline := false }
  else
    let s := { s with ring := s.ring ++ [Cell.mk data none] }
    if isEol data then { s with senderEol := data, senderMidline := false }
    else { s with senderMidline := true }

/-! ## The sender's connection

A connection that is dropped takes the bytes of the ring with it; a new one displaces the one
before. -/

/-- `drop_client`. -/
def Rx.dropClient (s : Rx) : Rx :=
  if s.client then serialRxFlush { s with client := false } else s

/-- The accept of `rx_poll`: the new sender displaces the one before. -/
def Rx.accept (s : Rx) : Rx := { s.dropClient with client := true, bannerPending := true }

/-- `welcome`, in a poll outside a blocked write. -/
def welcome (s : Rx) : Rx :=
  if s.bannerPending ∧ s.client then { s with bannerPending := false, lastError := 0, held := 0 }
  else s

/-! ## The core

A line runs at its end-of-line byte, and one status follows it. -/

/-- The core reads a byte. At an end of line it runs the line, unless it skips the byte as the
second half of a pair (`skip`), which it does between lines only. -/
def coreRead (skip : Bool) (s : Rx) : Option Rx :=
  match s.running with
  | some _ => none
  | none =>
    match serialGetC s with
    | none => some s
    | some (c, t) =>
      if isEol c.byte ∧ ¬(skip ∧ ¬s.coreMidline) then
        some { t with running := some ⟨c.owner, t.lastError, t.held⟩, coreMidline := false }
      else some { t with coreMidline := !isEol c.byte }

/-- The core has run its line. What it reports and the parser error it leaves depend on the
error it began under and the one it finds (`run`). -/
def coreCompletes (run : Status → Status → Status × Status) (s : Rx) : Option Rx :=
  match s.running with
  | none => none
  | some r =>
    let status := (run r.entry s.lastError).1
    let t := { s with running := none, lastError := (run r.entry s.lastError).2 }
    some <| injectStatusMessage status <|
      match r.owner with
      | none =>
        { t with
          senderLines := s.senderLines ++ [(run r.heldEntry s.held).1]
          held := (run r.heldEntry s.held).2 }
      | some k => { t with lines := update s.lines k { s.lines k with reported := some status } }

/-- A reset: the core gives up what it runs or reads, without a status, and flushes. -/
def coreAborts (s : Rx) : Rx := serialRxFlush { s with running := none, coreMidline := false }

/-! ## The machine -/

/-- A line as its source hands it over: without a terminator. -/
abbrev LineText := { l : List UInt8 // ∀ b ∈ l, isEol b = false }

inductive RxLabel where
  -- a byte of the sender, `realtime` when the core takes it as a command
  | byte (data : UInt8) (realtime : Bool)
  | connect
  | drop
  | welcome
  | inject (line : LineText)
  | hold (on : Bool)
  | read (skip : Bool)
  | complete (run : Status → Status → Status × Status)
  | abort
  | cancel

def rxStep (s : Rx) : RxLabel → Option Rx
  | .byte data realtime => some (if realtime then s else rxByte data s)
  | .connect => some s.accept
  | .drop => some s.dropClient
  | .welcome => some (welcome s)
  | .inject line => some (serialInjectLine line.1 s)
  | .hold on => some { s with holdSender := on }
  | .read skip => coreRead skip s
  | .complete run => coreCompletes run s
  | .abort => some (coreAborts s)
  | .cancel => some (serialRxCancel s)

end Glowforge.Serial
