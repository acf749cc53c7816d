import Glowforge.Lib.Grid
import Glowforge.Stream.Conservation
import Glowforge.Stream.Custody

/-!
# Glowforge — the steps keep the core's time

The producer thread (`producer_thread`) fires the core's step interrupt at virtual time, and paces it to
stay a lead ahead of the wall clock; the shipper hands the ticks over as the wall clock comes to them. A
step is to play at the tick of its virtual time, whatever the two threads do in between. Here the machine
runs beside the wall clock, whose readings never go back, and beside the thread's own loop:

* **`Engine`**, **`engineStep`** — the stream, the last reading, and where the producer is.
* **`elapsed`** — the wall clock since the stream began, in ticks.
* **`recordGrid`** — the timeline that the core means: each step at its virtual time.
* **`inStep`** — what the two threads have to keep up with: the virtual time is not behind the wall
  clock at a pulse, and the shipper is within the ring, less the lead.
* **`Keeps`** — the invariant; every turn keeps it (`ship_keeps`, `turn_keeps`).
* **`steps_keep_time`** — in every such run the ticks that ship are the timeline's, index by index.
-/

namespace Glowforge.Stream

open Runs

/-! ## The producer thread

The loop of `producer_thread` stands between the core and the queue: it fires the step interrupt,
puts what the interrupt hands it, advances the virtual time by the period latched, and sleeps until
the wall clock has come within the lead. -/

/-- The wall clock since the stream began, in ticks of the machine, the one under way included. -/
def elapsed (now : Nat) (g : Gf) : Nat := ((now - g.wallEpoch) * g.rate + 999999999) / 1000000000

/-- The pace test: virtual time is past the wall clock and the lead. -/
def aheadOf (lead now vticks epoch rate : Nat) : Bool :=
  (now - epoch + lead) * (rate * vticksPerByte) < vticks * 1000000000

/-- Where the producer thread is. -/
inductive ProducerPc where
  -- Waits to be armed.
  | waiting
  -- About to take the core lock.
  | ready
  -- In the core's interrupt callback; `pulsed` says that it has put its pulse.
  | callback (pulsed : Bool)
  -- About to test its pace, with the virtual time and the epoch that it has read.
  | pacing (vticks epoch : Nat)
deriving DecidableEq

structure Engine where
  stream : State
  -- The last reading of the wall clock, in nanoseconds.
  clock : Nat
  producer : ProducerPc

inductive EngineLabel where
  -- A turn of the stream, but for those of the producer's loop.
  | turn (l : Label)
  | wakes
  | fires
  -- The callback returns, and its interval passes.
  | returns
  | paces (now : Nat)

/-- The readings of a turn follow the last one; the value is the last one then. -/
def Label.reads (clock : Nat) : Label → Option Nat
  | .locked _ now | .reset now => if clock ≤ now then some now else none
  | .ship e => if clock ≤ e.now ∧ e.now ≤ e.later then some e.later else none
  | _ => some clock

/-- The turns of the producer's own loop. -/
def Label.ofLoop : Label → Bool
  | .producerRun | .advance => true
  | _ => false

/-- The locked section of `gf_stream_pulse`. -/
def Label.puts : Label → Bool
  | .locked (.pulse _ _) _ => true
  | _ => false

/-- A pulse is put in a callback, once. -/
def ProducerPc.admits (l : Label) (pc : ProducerPc) : Bool := !l.puts || pc == .callback false

def ProducerPc.after (l : Label) (pc : ProducerPc) : ProducerPc := if l.puts then .callback true else pc

/-- One turn; `lead` is the producer's lead in nanoseconds. -/
def engineStep (lead : Nat) (x : Engine) : EngineLabel → Option Engine
  | .turn l =>
    if !l.ofLoop && x.producer.admits l then
      (l.reads x.clock).bind fun now =>
        (step x.stream l).map fun s => { stream := s, clock := now, producer := x.producer.after l }
    else none
  | .wakes =>
    if x.producer = .waiting ∧ x.stream.armed then
      (step x.stream .producerRun).map fun s => { x with stream := s, producer := .ready }
    else none
  | .fires =>
    match x.producer with
    | .ready => some { x with producer := if x.stream.armed then .callback false else .waiting }
    | _ => none
  | .returns =>
    match x.producer with
    | .callback _ =>
      (step x.stream .advance).map fun s =>
        { x with stream := s, producer := .pacing s.gf.vticks s.gf.wallEpoch }
    | _ => none
  | .paces now =>
    match x.producer with
    | .pacing vticks epoch =>
      if x.clock ≤ now then
        some { x with
          clock := now
          producer :=
            if aheadOf lead now vticks epoch x.stream.gf.rate && x.stream.armed then .pacing vticks epoch
            else .ready }
      else none
    | _ => none

/-- The engine at the start of its threads. -/
def Engine.start (c : Config) (k : Kernel) (emptied counted : Bool) : Engine where
  stream := State.init c k emptied counted
  clock := 0
  producer := .waiting

/-! ## The timeline

What the core means by its steps, apart from the ring that they pass through. -/

/-- The steps as the core means them, each at its virtual time. A stream over no run of the kernel
begins a new timeline, and a reset takes back what has not shipped. -/
def recordGrid (x : Engine) (l : EngineLabel) (grid : Nat → StepByte) : Nat → StepByte :=
  match l with
  | .turn (.locked (.pulse stepBits dirBits) _) =>
    if x.stream.gf.streaming then
      Function.update grid (virtualIndex x.stream.gf) (pulseByte stepBits dirBits)
    else grid
  | .turn (.locked .wakeup _) => if restarts x.stream.gf then fun _ => 0 else grid
  | .turn (.reset _) =>
    if resetEnds x.stream.gf || x.stream.gf.failed then
      fun i => if i < x.stream.gf.shipped then grid i else 0
    else grid
  | .turn .proto => if x.stream.proto.head? = some .resumeSwap then fun _ => 0 else grid
  | _ => grid

/-- What keeps the threads in step. A period is at least a tick. At a pulse of a live stream the device is
this process's (it is not suspended: a pulse that comes while another process has the device is no step of
the timeline), the virtual time is not behind the wall clock, and the wall clock and the lead are within the
ring of what has shipped. A stream begins over no steps of the last one. -/
def inStep (lead : Nat) (x : Engine) : EngineLabel → Bool
  | .turn (.cyclesPerTick cycles) => decide (vticksPerByte ≤ cycles)
  | .turn (.locked (.pulse _ _) now) =>
    !x.stream.gf.streaming ||
      (!x.stream.gf.suspended && decide (elapsed now x.stream.gf * vticksPerByte ≤ x.stream.gf.vticks) &&
        decide (x.stream.gf.base + (now - x.stream.gf.wallEpoch + lead) * x.stream.gf.rate / 1000000000 + 1 <
          x.stream.gf.shipped + ringSize))
  | .turn (.locked .wakeup _) => !restarts x.stream.gf || decide (stepsLeft x.stream.gf = [])
  | _ => true

/-! ## The invariant

Pacing needs few fields of the record, and most turns change none of them. They are read out into
one structure, and the invariant is about that structure: a turn that leaves it is done. -/

/-- What the invariant reads. -/
structure Pacing where
  ring : Nat → StepByte
  produced : Nat
  shipped : Nat
  rate : Nat
  depth : Nat
  base : Nat
  wallEpoch : Nat
  shipT0 : Nat
  vticks : Nat
  period : Nat
  streaming : Bool
  kernelRunning : Bool
  clearPending : Bool
  active : Bool
  suspended : Bool
  armed : Bool
  -- the due index of a pass with a chunk under way
  due : Option Nat

def ShipPc.due : ShipPc → Option Nat
  | .writing p _ _ | .wrote p _ _ => some p.due
  | _ => none

def State.pacing (s : State) : Pacing where
  ring := s.gf.ring
  produced := s.gf.produced
  shipped := s.gf.shipped
  rate := s.gf.rate
  depth := s.gf.depth
  base := s.gf.base
  wallEpoch := s.gf.wallEpoch
  shipT0 := s.gf.shipT0
  vticks := s.gf.vticks
  period := s.gf.periodLatched
  streaming := s.gf.streaming
  kernelRunning := s.gf.kernelRunning
  clearPending := s.gf.clearPending
  active := s.gf.active
  suspended := s.gf.suspended
  armed := s.armed
  due := s.pc.due

namespace Pacing

/-- The tick that is due at a reading. -/
def dueAt (now : Nat) (v : Pacing) : Nat := (now - v.shipT0) * v.rate / 1000000000 + v.depth

def elapsed (now : Nat) (v : Pacing) : Nat := ((now - v.wallEpoch) * v.rate + 999999999) / 1000000000

/-- The grid index of the virtual time. -/
def index (v : Pacing) : Nat := v.base + v.vticks / vticksPerByte

/-- The virtual time is not past the wall clock and the lead. -/
def Within (lead now : Nat) (v : Pacing) : Prop :=
  v.vticks * 1000000000 ≤ (now - v.wallEpoch + lead) * (v.rate * vticksPerByte)

end Pacing

/-- The callback under way has put its pulse. -/
def ProducerPc.pulsed : ProducerPc → Bool
  | .callback pulsed => pulsed
  | _ => false

/-- What a producer at `pc` knows of the pace. -/
def ProducerPc.Paced (lead clock : Nat) (v : Pacing) : ProducerPc → Prop
  | .pacing vticks epoch => (v.vticks = vticks ∧ v.wallEpoch = epoch) ∨ v.Within lead clock
  | _ => v.Within lead clock

/-- A live stream: the shipper is not past the wall clock, nor the producer past the lead. -/
structure Live (lead clock : Nat) (pc : ProducerPc) (v : Pacing) : Prop where
  epoch : v.wallEpoch ≤ clock
  depth : v.depth ≤ v.base
  shipped : v.shipped ≤ v.base + v.elapsed clock
  -- the shipper's clock is set where the kernel runs, and it runs on the stream's base
  due : v.kernelRunning = true → v.dueAt v.wallEpoch ≤ v.base
  -- the pulse of the callback under way is the last thing produced
  room : v.produced ≤ v.index + pc.pulsed.toNat
  pace : pc.Paced lead clock v

/-- **The invariant**: the ring shows the timeline, and the cursors keep to the wall clock. -/
structure Keeps (lead clock : Nat) (pc : ProducerPc) (grid : Nat → StepByte) (v : Pacing) : Prop where
  shows : Slots.Shows ringSize v.ring v.shipped v.produced grid
  period : vticksPerByte ≤ v.period
  -- a pass goes on for as long as no clear is asked for
  pass : ∀ d, v.due = some d → v.clearPending = true ∨ v.kernelRunning = true ∧ d ≤ v.dueAt clock
  running : v.kernelRunning = true → 0 < v.shipped ∧ v.shipped ≤ max v.produced (v.dueAt clock)
  live : v.streaming = true → Live lead clock pc v
  disarmed : v.armed = false → v.streaming = false
  -- a device that is handed over has no step of the stream's ahead of it
  away : v.active = true → v.suspended = true → ∀ i, v.shipped ≤ i → grid i = 0

/-! ## The wall clock

Time only passes: what holds of the clocks at one reading holds at every later one. -/

section Clock

variable {lead clock now : Nat} {pc : ProducerPc} {grid : Nat → StepByte} {v : Pacing}

/-- A later reading finds no fewer ticks due. -/
theorem Pacing.dueAt_mono (hle : clock ≤ now) : v.dueAt clock ≤ v.dueAt now := by
  have hmul : (clock - v.shipT0) * v.rate ≤ (now - v.shipT0) * v.rate :=
    Nat.mul_le_mul_right _ (by omega)
  simp only [Pacing.dueAt]
  omega

theorem Pacing.elapsed_mono (hle : clock ≤ now) : v.elapsed clock ≤ v.elapsed now := by
  have hmul : (clock - v.wallEpoch) * v.rate ≤ (now - v.wallEpoch) * v.rate :=
    Nat.mul_le_mul_right _ (by omega)
  simp only [Pacing.elapsed]
  omega

/-- What is due moves on with the time since the stream began. -/
theorem Pacing.dueAt_le : v.dueAt now ≤ v.dueAt v.wallEpoch + v.elapsed now := by
  have hmul : (now - v.shipT0) * v.rate ≤
      (v.wallEpoch - v.shipT0) * v.rate + (now - v.wallEpoch) * v.rate := by
    rw [← Nat.add_mul]
    exact Nat.mul_le_mul_right _ (by omega)
  simp only [Pacing.dueAt, Pacing.elapsed]
  omega

/-- The lead is measured against the wall clock, so a clock that has moved on leaves the virtual
time within it. -/
theorem Pacing.Within.later (h : v.Within lead clock) (hle : clock ≤ now) : v.Within lead now :=
  h.trans (Nat.mul_le_mul_right _ (by omega))

/-- A virtual time within the lead has its index within the lead. -/
theorem Pacing.Within.index_le (h : v.Within lead clock) :
    v.index ≤ v.base + (clock - v.wallEpoch + lead) * v.rate / 1000000000 := by
  have h : v.vticks * 1000000000 ≤ (clock - v.wallEpoch + lead) * v.rate * 1000 := by
    rw [Nat.mul_assoc]
    exact h
  simp only [Pacing.index, vticksPerByte]
  omega

theorem ProducerPc.Paced.later (h : pc.Paced lead clock v) (hle : clock ≤ now) : pc.Paced lead now v := by
  cases pc with
  | pacing vticks epoch => exact h.imp id fun hw => hw.later hle
  | waiting => exact Pacing.Within.later h hle
  | ready => exact Pacing.Within.later h hle
  | callback pulsed => exact Pacing.Within.later h hle

theorem Live.later (h : Live lead clock pc v) (hle : clock ≤ now) : Live lead now pc v :=
  ⟨h.epoch.trans hle, h.depth, h.shipped.trans (Nat.add_le_add_left (Pacing.elapsed_mono hle) _), h.due,
    h.room, h.pace.later hle⟩

/-- The invariant survives the passing of time. -/
theorem Keeps.later (h : Keeps lead clock pc grid v) (hle : clock ≤ now) : Keeps lead now pc grid v where
  shows := h.shows
  period := h.period
  pass d hd := (h.pass d hd).imp id fun hrun => ⟨hrun.1, hrun.2.trans (Pacing.dueAt_mono hle)⟩
  running hrun := ⟨(h.running hrun).1, (h.running hrun).2.trans (max_le_max le_rfl (Pacing.dueAt_mono hle))⟩
  live hlive := (h.live hlive).later hle
  disarmed := h.disarmed
  away := h.away

end Clock

/-! ## The shipper

A step of the shipping pass outside a round rests with no pass behind it, goes on with its write, or
pads the end of a lit stream: the ticks that it adds are zeros. Rounds are the next section's. -/

/-- A step that writes nothing hands over no ticks. -/
theorem newTicks_same {s t : State} (h : t.dump = s.dump) : newTicks s t = [] := by
  rw [newTicks, h, List.drop_length]
  rfl

theorem newTicks_dark {s t : State} (h : t.dump = s.dump ++ [0x00]) : newTicks s t = [0x00] := by
  rw [newTicks, h, List.drop_left]
  rfl

/-- The ticks of pads. -/
theorem newTicks_pads {s t : State} {pad : List UInt8} (hpad : ∀ b ∈ pad, b = 0x00)
    (h : t.dump = s.dump ++ pad) : ∀ b ∈ newTicks s t, b = 0x00 := by
  intro b hb
  rw [newTicks, h, List.drop_left] at hb
  exact hpad b (List.mem_of_mem_filter hb)

/-- Of no ticks, each is zero. -/
theorem noPad : ∀ b ∈ ([] : List UInt8), b = 0x00 := fun _ h => absurd h List.not_mem_nil

theorem onePad : ∀ b ∈ [(0x00 : UInt8)], b = 0x00 := fun _ h => List.mem_singleton.mp h

/-- A step outside the rounds of a pass, and the ticks that it adds. -/
inductive Idles (v w : Pacing) (ticks : List UInt8) : Prop where
  -- no pass is under way behind it
  | rests (hview : w = { v with
        kernelRunning := w.kernelRunning, clearPending := w.clearPending, due := none })
      (hrun : w.kernelRunning = true → v.kernelRunning = true) (hdark : ∀ b ∈ ticks, b = 0x00)
  -- the write goes on
  | writes (hview : w = v) (hnone : ticks = [])
  -- the pad that ends a lit stream has an index of its own
  | pads (hidle : v.streaming = false) (hover : v.produced ≤ v.shipped)
      (hview : w = { v with
        produced := v.shipped + 1, shipped := v.shipped + 1, kernelRunning := false, due := none })
      (hticks : ticks = [0x00])

/-- **What a step of the shipper does** to what the invariant reads. -/
inductive Ships (e : Env) (s t : State) : Prop where
  | idles (h : Idles s.pacing t.pacing (newTicks s t))
  | round {p : Pass} {u : State} (hround : RoundAt e s p u)
      (hgo : s.pc.due ≠ none → s.gf.clearPending = false) (hstep : t = shipLoop p u.gf.streaming u)

namespace Ships

variable {e : Env} {s t : State}

/-- A step behind which no pass is under way, and that adds pads or nothing. -/
theorem rest (hdue : t.pc.due = none) (hview : { t.pacing with due := none } = { s.pacing with
      kernelRunning := t.gf.kernelRunning, clearPending := t.gf.clearPending, due := none })
    (hrun : t.gf.kernelRunning = true → s.gf.kernelRunning = true)
    {pad : List UInt8} (hpad : ∀ b ∈ pad, b = 0x00) (hdump : t.dump = s.dump ++ pad) : Ships e s t := by
  refine .idles (.rests ?_ hrun (newTicks_pads hpad hdump))
  refine Eq.trans ?_ hview
  exact congrArg (fun due => ({ t.pacing with due := due } : Pacing)) hdue

theorem write (hdue : t.pc.due = s.pc.due) (hview : { t.pacing with due := none } = { s.pacing with due := none })
    (hdump : t.dump = s.dump) : Ships e s t := by
  refine .idles (.writes ?_ (newTicks_same hdump))
  calc t.pacing = { { t.pacing with due := none } with due := t.pc.due } := rfl
    _ = { { s.pacing with due := none } with due := s.pc.due } := by rw [hview, hdue]
    _ = s.pacing := rfl

end Ships

/-- The acknowledgment of a pending operation hands over nothing; what it marks as done is not the
ring's. -/
theorem pendingDone_ships {e : Env} (cleared : Bool) (counts : Option Steps) (zeros : Nat) (s : State) :
    Ships e s (pendingDone cleared counts zeros s) := by
  have h := pendingDone_settled cleared counts zeros s
  refine .rest rfl ?_ (by rintro ⟨⟩) noPad (List.append_nil _).symm
  exact h.frame (fun g => ({ State.pacing { s with gf := g, pc := .lock } with
    kernelRunning := false, clearPending := false } : Pacing)) rfl

/-- The end of a stream that has shipped out. -/
theorem endStream_idles {e : Env} {s : State} (hidle : s.gf.streaming = false)
    (hover : s.gf.produced ≤ s.gf.shipped) :
    Idles s.pacing { (endStream e s).pacing with due := none } (newTicks s (endStream e s)) := by
  cases hrunning : s.gf.kernelRunning with
  | false =>
    have hend : endStream e s = s := by
      rw [endStream, hrunning]
      rfl
    rw [hend]
    exact .rests rfl id (newTicks_pads noPad (List.append_nil _).symm)
  | true =>
    have hend : endStream e s = endRun e.now (endPad e.ok s) := by
      rw [endStream, hrunning]
      rfl
    rw [hend]
    cases hlit : s.gf.lastLit with
    | true =>
      rw [endPad, if_pos hlit]
      exact .pads hidle hover rfl (newTicks_dark rfl)
    | false =>
      rw [endPad, if_neg (by rw [hlit]; exact Bool.false_ne_true)]
      exact .rests rfl (by rintro ⟨⟩) (newTicks_pads noPad (List.append_nil _).symm)

/-- A pass behind the gate's edge ends the stream, waits, or begins its rounds. -/
theorem shipGated_goes (e : Env) (gate : Bool) (s : State) :
    (s.gf.streaming = false ∧ s.gf.produced ≤ s.gf.shipped ∧
      shipGated e gate s = { pollHold e (endStream e s) with pc := .check }) ∨
    shipGated e gate s = { s with pc := .check } ∨ shipGated e gate s = shipDue e gate (anchor e.now s) := by
  unfold shipGated
  split
  · next hover =>
    simp only [Bool.and_eq_true, Bool.not_eq_true', beq_iff_eq] at hover
    exact .inl ⟨hover.1, Nat.sub_eq_zero_iff_le.mp hover.2, rfl⟩
  · split
    · exact .inr (.inl rfl)
    · exact .inr (.inr rfl)

/-- The poll of a held device ends the pass; pacing sees no more of it than that. -/
theorem pollHold_pacing (e : Env) (s : State) :
    State.pacing { pollHold e s with pc := .check } = { s.pacing with due := none } ∧
      (pollHold e s).dump = s.dump := by
  simp only [pollHold]
  split_ifs <;> exact ⟨rfl, rfl⟩

/-- Behind the sample of the gate the pass either ends a spent stream, polls a held device, or
begins its first round. -/
theorem shipBody_ships {e : Env} {gate : Bool} {s : State} (hpc : s.pc = .sampled gate) :
    Ships e s (shipBody e gate s) := by
  have hedge : State.pacing { s with gf := gateEdge gate s.gf } = s.pacing := by
    simp only [gateEdge]
    split_ifs <;> rfl
  unfold shipBody
  rcases shipGated_goes e gate { s with gf := gateEdge gate s.gf } with ⟨hidle, hover, heq⟩ | heq | heq
  · have hends := endStream_idles (e := e) hidle hover
    obtain ⟨hview, hdump⟩ := pollHold_pacing e (endStream e { s with gf := gateEdge gate s.gf })
    rw [heq]
    refine .idles ?_
    rw [hview, ← hedge]
    refine (congrArg (Idles _ _) ?_).mpr hends
    exact congrArg (fun dump => (List.drop s.dump.length dump).filter isTick) hdump
  · rw [heq]
    refine .rest rfl ?_ (fun h => ?_) noPad (List.append_nil _).symm
    · have hrunning : (gateEdge gate s.gf).kernelRunning = s.gf.kernelRunning :=
        congrArg Pacing.kernelRunning hedge
      have hclear : (gateEdge gate s.gf).clearPending = s.gf.clearPending := congrArg Pacing.clearPending hedge
      rw [hrunning, hclear]
      exact congrArg (fun v : Pacing => { v with due := none }) hedge
    · exact (congrArg Pacing.kernelRunning hedge).symm.trans h
  · rw [heq]
    exact .round (.first hpc) (by rw [hpc]; exact fun h => absurd rfl h) rfl

/-- A chunk's write returns: an error goes to the failure's branches, and a success goes on with the
same pass. -/
theorem shipWrote_ships {e : Env} {p : Pass} {c : Chunk} {ok : Bool} {s : State} (hpc : s.pc = .wrote p c ok) :
    Ships e s (shipWrote p c ok s) := by
  cases ok with
  | false => exact .rest rfl rfl id noPad (List.append_nil _).symm
  | true =>
    simp only [shipWrote, if_true, shipNext]
    split
    · exact .rest rfl rfl id noPad (List.append_nil _).symm
    · next hgo =>
      simp only [Bool.or_eq_true, not_or, Bool.not_eq_true] at hgo
      exact .round (.next hpc hgo.1.1) (fun _ => hgo.2) rfl

/-- The tail of a pass reads the cursors and leaves them. -/
theorem tail_ships {e : Env} {s : State} (htail : s.pc.tail = true) : Ships e s (shipStep e s) := by
  have hview : ∀ t : State, TailStep s t → t.armed = s.armed →
      { t.pacing with due := none } = { s.pacing with due := none } := by
    intro t ht harmed
    have hgf := ht.frame (fun g _ => ({ State.pacing { t with gf := g } with due := none } : Pacing)) rfl
    refine hgf.trans ?_
    exact congrArg (fun armed => ({ s.pacing with armed := armed, due := none } : Pacing)) harmed
  have hsame := hview _ (shipStep_tail htail) (congrArg Quiet.armed (shipStep_quiet e s))
  have hrunning : (shipStep e s).gf.kernelRunning = s.gf.kernelRunning := congrArg Pacing.kernelRunning hsame
  have hclear : (shipStep e s).gf.clearPending = s.gf.clearPending := congrArg Pacing.clearPending hsame
  have hpads : ∃ pad, (∀ b ∈ pad, b = (0x00 : UInt8)) ∧ (shipStep e s).dump = s.dump ++ pad := by
    rcases shipStep_round e s with ⟨p, u, hround, -⟩ | hpads
    · cases hround with
      | first hpc => rw [hpc] at htail; cases htail
      | next hpc => rw [hpc] at htail; cases htail
    · exact hpads
  obtain ⟨pad, hpad, hdump⟩ := hpads
  refine .rest ?_ (hsame.trans (by rw [hrunning, hclear]; rfl)) (fun h => hrunning.symm.trans h) hpad hdump
  rcases shipStep_tail_pc (e := e) htail with h | h | h
  · generalize (shipStep e s).pc = pc at h
    cases pc <;> first | rfl | cases h
  · rw [h]
    rfl
  · rw [h]
    rfl

theorem pendingNext_due (g : Gf) : (pendingNext g).due = none := by
  simp only [pendingNext]
  split_ifs <;> rfl

/-- Every step of the pass is one of the three, or a round. -/
theorem shipStep_ships (e : Env) (s : State) : Ships e s (shipStep e s) := by
  by_cases htail : s.pc.tail = true
  · exact tail_ships htail
  unfold shipStep
  cases hpc : s.pc with (rw [hpc] at htail)
  | top =>
    simp only [pendingSnapshot, resetPad]
    split_ifs
    · exact .rest (pendingNext_due _) rfl id onePad rfl
    · exact .rest (pendingNext_due _) rfl id noPad (List.append_nil _).symm
  | pendState clear zeros =>
    refine .rest ?_ rfl id noPad (List.append_nil _).symm
    simp only [pendingState]
    split <;> split <;> rfl
  | pendSeek zeros =>
    simp only [pendingSeek]
    split_ifs <;> exact .rest rfl rfl id noPad (List.append_nil _).symm
  | pendCount zeros => exact .rest rfl rfl id noPad (List.append_nil _).symm
  | pendDone cleared counts zeros => exact pendingDone_ships _ _ _ _
  | pendOurs =>
    simp only [pendingOurs]
    split_ifs <;> exact .rest rfl rfl id noPad (List.append_nil _).symm
  | lock =>
    simp only [shipLock, faultPad]
    split_ifs
    · exact .rest rfl rfl id onePad rfl
    · exact .rest rfl rfl id noPad (List.append_nil _).symm
    · exact .rest rfl rfl id noPad (List.append_nil _).symm
  | sampled gate => exact shipBody_ships hpc
  | writing p c rest =>
    simp only [shipWrite]
    split
    · exact .write (by rw [hpc]; rfl) rfl rfl
    · split_ifs <;> exact .write (by rw [hpc]; rfl) rfl rfl
  | wrote p c ok => exact shipWrote_ships hpc
  | _ => exact absurd rfl htail

/-! ## The rounds

A round is the only step that hands ticks over, and the only one that moves `shipped`. What it hands
over is the ring from the old `shipped` to the new, and the ring shows the timeline there. -/

/-- The ticks at `n` indices of the timeline from `lo` on. -/
def gridTicks (grid : Nat → StepByte) (lo n : Nat) : List UInt8 :=
  (List.range n).map fun k => (grid (lo + k)).val

theorem gridTicks_succ (grid : Nat → StepByte) (lo n : Nat) :
    gridTicks grid lo (n + 1) = gridTicks grid lo n ++ [(grid (lo + n)).val] := by
  rw [gridTicks, gridTicks, List.range_succ, List.map_append]
  rfl

/-- **The tick loop hands over the timeline**, from the cursor on, and never past what is due. -/
theorem buildTicks_shows {grid : Nat → StepByte} (gate : Bool) {due : Nat} (streaming : Bool) {g : Gf}
    (hdue : tickDue due streaming g = true) (h : Slots.Shows ringSize g.ring g.shipped g.produced grid) :
    let r := buildTicks gate due streaming shipChunk g []
    Slots.Shows ringSize r.1.ring r.1.shipped r.1.produced grid ∧
      (g.shipped < r.1.shipped ∧ r.1.shipped ≤ due) ∧
      (r.2.filter isTick).map (· &&& 0xEF) = gridTicks grid g.shipped (r.1.shipped - g.shipped) := by
  -- one more tick behind `n` of them
  have hkeep : ∀ (r : Gf) chunk, Slots.Shows ringSize r.ring r.shipped r.produced grid ∧
        g.shipped ≤ r.shipped ∧
        (chunk.filter isTick).map (· &&& 0xEF) = gridTicks grid g.shipped (r.shipped - g.shipped) →
      tickDue due streaming r = true →
      Slots.Shows ringSize (shipTick gate r).1.ring (shipTick gate r).1.shipped
          (shipTick gate r).1.produced grid ∧
        (g.shipped < (shipTick gate r).1.shipped ∧ (shipTick gate r).1.shipped ≤ due) ∧
        ((chunk ++ (shipTick gate r).2).filter isTick).map (· &&& 0xEF) =
          gridTicks grid g.shipped ((shipTick gate r).1.shipped - g.shipped) := by
    rintro r chunk ⟨hshows, hle, hticks⟩ htick
    have hproduced : (shipTick gate r).1.produced = r.produced := (shipTick_ticked gate r).frame Gf.produced rfl
    have hlt : r.shipped < due := by
      simp only [tickDue, Bool.and_eq_true, decide_eq_true_eq] at htick
      exact htick.1
    obtain ⟨fires, hbytes, -⟩ := shipTick_ticks gate r chunk
    rw [shipTick_ring, shipTick_shipped, hproduced, hbytes]
    refine ⟨hshows.pop, ⟨Nat.lt_succ_of_le hle, hlt⟩, ?_⟩
    rw [List.map_append, hticks, Nat.succ_sub hle, gridTicks_succ, Nat.add_sub_cancel' hle, List.map_singleton,
      shippedByte_unlit]
    exact congrArg (fun b : StepByte => gridTicks grid g.shipped (r.shipped - g.shipped) ++ [b.val])
      (hshows.read ringSize_pos)
  have hfirst := hkeep g [] ⟨h, le_rfl, by rw [Nat.sub_self]; rfl⟩ hdue
  rw [show buildTicks gate due streaming shipChunk g [] = _ from buildTicks_due 255 hdue]
  refine buildTicks_induct gate due streaming (P := fun r chunk =>
    Slots.Shows ringSize r.ring r.shipped r.produced grid ∧ (g.shipped < r.shipped ∧ r.shipped ≤ due) ∧
      (chunk.filter isTick).map (· &&& 0xEF) = gridTicks grid g.shipped (r.shipped - g.shipped)) ?_ 255 _ _ hfirst
  rintro r chunk ⟨hshows, ⟨hlt, -⟩, hticks⟩ htick
  exact hkeep r chunk ⟨hshows, hlt.le, hticks⟩ htick

section

variable {lead clock : Nat} {pc : ProducerPc} {grid : Nat → StepByte}

/-- A round begins with the shipper's clock set, and all else as it was. -/
theorem RoundAt.view {e : Env} {s u : State} {p : Pass} (hround : RoundAt e s p u) :
    u.pacing = { s.pacing with shipT0 := u.gf.shipT0 } := by
  cases hround with
  | first hpc =>
    rename_i gate
    have hedge : State.pacing { s with gf := gateEdge gate s.gf } = s.pacing := by
      simp only [gateEdge]
      split_ifs <;> rfl
    exact congrArg
      (fun w : Pacing => { w with shipT0 := (anchor e.now { s with gf := gateEdge gate s.gf }).gf.shipT0 }) hedge
  | next hpc hok => rfl

/-- The start of a round writes the clock of the pass and nothing of the ring. -/
theorem RoundAt.cursors {e : Env} {s u : State} {p : Pass} (hround : RoundAt e s p u) :
    u.gf.ring = s.gf.ring ∧ u.gf.shipped = s.gf.shipped ∧ u.gf.produced = s.gf.produced :=
  ⟨congrArg Pacing.ring hround.view, congrArg Pacing.shipped hround.view, congrArg Pacing.produced hround.view⟩

/-- The rounds find the ring that the pass began with. -/
theorem RoundAt.shows {e : Env} {s u : State} {p : Pass} (hround : RoundAt e s p u)
    (h : Slots.Shows ringSize s.gf.ring s.gf.shipped s.gf.produced grid) :
    Slots.Shows ringSize u.gf.ring u.gf.shipped u.gf.produced grid := by
  obtain ⟨hring, hshipped, hproduced⟩ := hround.cursors
  rw [hring, hshipped, hproduced]
  exact h

/-- Where a round begins: the shipper's clock is set, the pass is not past it, and the stream's base is
not behind it. -/
structure Begins (clock : Nat) (pass : Pass) (s u : State) : Prop where
  same : s.gf.kernelRunning = true → 0 < s.gf.shipped → u.gf.shipT0 = s.gf.shipT0
  due : pass.due ≤ u.pacing.dueAt clock
  base : s.gf.streaming = true → u.pacing.dueAt s.gf.wallEpoch ≤ s.gf.base

theorem RoundAt.begins {e : Env} {s u : State} {p : Pass} (hround : RoundAt e s p u) (hnow : clock ≤ e.now)
    (hlater : e.now ≤ e.later) (h : Keeps lead clock pc grid s.pacing)
    (hgo : s.pc.due ≠ none → s.gf.clearPending = false) : Begins e.later p s u := by
  have hview := hround.view
  cases hround with
  | first hpc =>
    rename_i gate
    have hedge : State.pacing { s with gf := gateEdge gate s.gf } = s.pacing := by
      simp only [gateEdge]
      split_ifs <;> rfl
    generalize ({ s with gf := gateEdge gate s.gf } : State) = v at hedge hview
    have hrunning : v.gf.kernelRunning = s.gf.kernelRunning := congrArg Pacing.kernelRunning hedge
    have hshipped : v.gf.shipped = s.gf.shipped := congrArg Pacing.shipped hedge
    have ht0 : v.gf.shipT0 = s.gf.shipT0 := congrArg Pacing.shipT0 hedge
    refine ⟨fun hrun hpos => ?_, le_rfl, fun hlive => ?_⟩
    · change (if v.gf.shipped = 0 ∨ !v.gf.kernelRunning then e.now else v.gf.shipT0) = s.gf.shipT0
      rw [hshipped, hrunning, hrun, if_neg (by simp [Nat.ne_of_gt hpos]), ht0]
    · have hlive := h.live hlive
      rw [hview]
      by_cases hset : v.gf.shipped = 0 ∨ (!v.gf.kernelRunning) = true
      · -- the clock is set now, which is not before the stream began
        have hepoch : s.gf.wallEpoch - e.now = 0 := Nat.sub_eq_zero_of_le (hlive.epoch.trans hnow)
        have hset : (anchor e.now v).gf.shipT0 = e.now := if_pos hset
        rw [hset]
        change (s.gf.wallEpoch - e.now) * s.gf.rate / 1000000000 + s.gf.depth ≤ s.gf.base
        rw [hepoch, Nat.zero_mul, Nat.zero_div, Nat.zero_add]
        exact hlive.depth
      · have hsame : (anchor e.now v).gf.shipT0 = s.gf.shipT0 := (if_neg hset).trans ht0
        rw [hsame]
        refine hlive.due ?_
        simp only [not_or, Bool.not_eq_true, Bool.not_eq_false'] at hset
        exact hrunning.symm.trans hset.2
  | next hpc hok =>
    rename_i q c
    have hdue : s.pc.due = some q.due := by rw [hpc]; rfl
    have hclear : s.gf.clearPending = false := hgo (by rw [hdue]; exact Option.some_ne_none _)
    obtain ⟨hrun, hpass⟩ := (h.pass q.due hdue).resolve_left (by
      change ¬s.gf.clearPending = true
      rw [hclear]
      exact Bool.false_ne_true)
    exact ⟨fun _ _ => rfl, hpass.trans (Pacing.dueAt_mono (hnow.trans hlater)),
      fun hlive => (h.live hlive).due hrun⟩

/-- A chunk that is built moves the cursor, and its pass has it under way. -/
theorem shipChunkOut_pacing {p : Pass} {g : Gf} {bytes : List UInt8} {u : State} (h : u.gf.Ticked g) :
    (shipChunkOut p g bytes u).pacing = { u.pacing with
      ring := g.ring, shipped := g.shipped, kernelRunning := true, due := some p.due } :=
  h.frame (fun r => ({ State.pacing { u with gf := r } with
    ring := g.ring, shipped := g.shipped, kernelRunning := true, due := some p.due } : Pacing)) rfl

/-- **A step of the shipper keeps the invariant.** A round hands over the timeline from `shipped` up
to what is due; a step outside the rounds leaves the ring, or pads past the end of the timeline. -/
theorem ship_keeps {e : Env} {s : State} (hnow : clock ≤ e.now) (hlater : e.now ≤ e.later)
    (h : Keeps lead clock pc grid s.pacing) : Keeps lead e.later pc grid (shipStep e s).pacing := by
  have hkeeps := h.later (hnow.trans hlater)
  cases shipStep_ships e s with
  | idles hidles =>
    generalize (shipStep e s).pacing = w at hidles
    cases hidles with
    | rests hview hrun hdark =>
      rw [hview]
      exact
        { shows := hkeeps.shows
          period := hkeeps.period
          pass := by rintro _ ⟨⟩
          running := fun hw => hkeeps.running (hrun hw)
          live := fun hlive =>
            have hl := hkeeps.live hlive
            ⟨hl.epoch, hl.depth, hl.shipped, fun hw => hl.due (hrun hw), hl.room, hl.pace⟩
          disarmed := hkeeps.disarmed
          away := hkeeps.away }
    | writes hview hnone =>
      rw [hview]
      exact hkeeps
    | pads hidle hover hview hticks =>
      rw [hview]
      have hnone : ∀ i, s.pacing.shipped ≤ i → grid i = 0 := fun i hi => hkeeps.shows.done i (hover.trans hi)
      exact
        { shows := .of_empty (hkeeps.shows.empty ringSize_pos hnone)
            (fun i hi => hnone i (Nat.le_of_succ_le hi)) le_rfl ringSize_pos
          period := hkeeps.period
          pass := by rintro _ ⟨⟩
          running := by rintro ⟨⟩
          live := fun hlive => absurd (hidle.symm.trans hlive) Bool.false_ne_true
          disarmed := hkeeps.disarmed
          away := fun _ _ i hi => hnone i (Nat.le_of_succ_le hi) }
  | round hround hgo hstep =>
    rename_i p u
    have hview := hround.view
    obtain ⟨hsame, hdue, hbase⟩ := hround.begins hnow hlater h hgo
    obtain ⟨-, hshipped, hproduced⟩ := hround.cursors
    rw [hview] at hdue hbase
    rw [hstep]
    unfold shipLoop
    split
    · next htick =>
      have hbuilt := buildTicks_shows p.gate u.gf.streaming htick (hround.shows hkeeps.shows)
      have hticked := buildTicks_ticked p.gate p.due u.gf.streaming shipChunk u.gf []
      generalize buildTicks p.gate p.due u.gf.streaming shipChunk u.gf [] = built at hbuilt hticked
      obtain ⟨g, bytes⟩ := built
      obtain ⟨hshows, ⟨hlt, hle⟩, -⟩ := hbuilt
      have hwas : g.produced = s.gf.produced := (hticked.frame Gf.produced rfl).trans hproduced
      change Keeps lead e.later pc grid (shipChunkOut p g bytes u).pacing
      rw [shipChunkOut_pacing hticked, hview]
      rw [hshipped] at hlt
      rw [hwas] at hshows
      have hdueAt : g.shipped ≤ _ := hle.trans hdue
      exact
        { shows := hshows
          period := hkeeps.period
          pass := fun d hd => .inr ⟨rfl, (Option.some.inj hd) ▸ hdue⟩
          running := fun _ => ⟨Nat.zero_lt_of_lt hlt, hdueAt.trans (le_max_right _ _)⟩
          live := fun hlive =>
            have hl := hkeeps.live hlive
            { epoch := hl.epoch
              depth := hl.depth
              shipped := hdueAt.trans (Pacing.dueAt_le.trans (Nat.add_le_add_right (hbase hlive) _))
              due := fun _ => hbase hlive
              room := hl.room
              pace := hl.pace }
          disarmed := hkeeps.disarmed
          away := fun ha hs i hi => hkeeps.away ha hs i (hlt.le.trans hi) }
    · change Keeps lead e.later pc grid { u.pacing with due := none }
      rw [hview]
      exact
        { shows := hkeeps.shows
          period := hkeeps.period
          pass := by rintro _ ⟨⟩
          running := fun hrun => by
            have hr := hkeeps.running hrun
            rw [hsame hrun hr.1]
            exact hr
          live := fun hlive =>
            have hl := hkeeps.live hlive
            ⟨hl.epoch, hl.depth, hl.shipped, fun _ => hbase hlive, hl.room, hl.pace⟩
          disarmed := hkeeps.disarmed
          away := hkeeps.away }

end

/-! ## The other threads

The kernel, the core's settings and the laser's events come between any two steps of the producer;
none of them changes what pacing reads. -/

/-- The turns that write nothing that the invariant reads. -/
def Label.still (s : State) : Label → Bool
  | .locked .wakeup _ | .goIdle _ _ _ | .advance | .cyclesPerTick _ | .reset _ | .suspend _ | .ship _ => false
  | .locked (.pulse _ _) _ => !s.gf.streaming
  | .resume _ _ _ => s.gf.active
  | .proto => s.proto.head? != some .resumeSwap
  | _ => true

theorem laserEventLocked_pacing (power : UInt8) (fire : Bool) (s : State) :
    (laserEventLocked power fire s).pacing = s.pacing := by
  simp only [laserEventLocked]
  split_ifs
  · rfl
  · obtain ⟨lev, warned, hrec⟩ := levRecord_frame s.gf.shipped power fire (clampLocked s).2.gf
    rw [hrec]
    rfl
  · obtain ⟨lev, warned, hrec⟩ := levRecord_frame (virtualIndex s.gf) power fire s.gf
    rw [hrec]
    rfl
  · rfl

/-- A turn of a thread that has nothing to do with pacing leaves every field that it reads. -/
theorem turn_still {s t : State} {l : Label} (hturn : turn s l = some t) (hstill : l.still s = true) :
    t.pacing = s.pacing := by
  cases l with
  | enter c =>
    cases hturn
    simp only [enter]
    split <;> rfl
  | locked c now =>
    cases hturn
    cases c with
    | wakeup => cases hstill
    | pulse stepBits dirBits =>
      have hidle : s.gf.streaming = false := by simpa [Label.still] using hstill
      simp only [Call.locked, pulseLocked, hidle]
      rfl
    | laser power fire => exact laserEventLocked_pacing _ _ _
    | jog on => exact laserEventLocked_pacing _ _ _
  | laserModel p m =>
    cases hturn
    obtain ⟨power, period, least, hmodel⟩ := laserModel_frame p m s.gf
    rw [hmodel]
    rfl
  | laserLatch lock ok => cases hturn; rfl
  | readback expired =>
    cases hturn
    simp only [gfStreamReadback]
    split <;> rfl
  | clearPosition ok =>
    cases hturn
    simp only [gfStreamClearPosition]
    split_ifs <;> rfl
  | resume latchOk emptied counted =>
    cases hturn
    have hactive : s.gf.active = true := hstill
    rw [gfStreamResume, if_neg (by rw [hactive]; exact Bool.false_ne_true)]
    simp only [rebaseAtTakeover]
    split <;> rfl
  | proto =>
    obtain ⟨o, rest, hp⟩ := proto_owes hturn
    simp only [turn, protoStep] at hturn
    rw [hp] at hturn
    cases o with
    | resumeSwap =>
      simp [Label.still, hp] at hstill
    | _ =>
      cases hturn
      rfl
  | kernel a =>
    obtain ⟨k, -, rfl⟩ := Option.map_eq_some_iff.mp hturn
    rfl
  | goIdle reset stepBits dirBits => cases hstill
  | advance => cases hstill
  | cyclesPerTick cycles => cases hstill
  | reset now => cases hstill
  | suspend readOk => cases hstill
  | ship e => cases hstill
  | _ =>
    cases hturn
    rfl

theorem goIdleEnd_streaming (g : Gf) : (goIdleEnd g).streaming = false := by
  unfold goIdleEnd
  split
  · rfl
  · next hidle => simpa using hidle

/-- `go_idle` stops the stream and lets the producer sleep; the ring and both clocks stay, so that
the shipper can finish. -/
theorem goIdle_pacing (reset : Bool) (stepBits dirBits : UInt8) (s : State) :
    (gfStreamGoIdle reset stepBits dirBits s).pacing = { s.pacing with streaming := false, armed := false } := by
  have hidle : (gfStreamGoIdle reset stepBits dirBits s).gf.streaming = false := goIdleEnd_streaming _
  obtain ⟨killed, killStep, lev, streaming, hframe⟩ := goIdle_frame reset stepBits dirBits s
  rw [hframe] at hidle ⊢
  obtain rfl : streaming = false := hidle
  rfl

/-- A wakeup that begins a stream. -/
theorem wakeup_pacing {now : Nat} {s : State} (hidle : s.gf.streaming = false) :
    (wakeupLocked now s).pacing =
      if s.gf.kernelRunning then
        { s.pacing with
          streaming := true, vticks := 0, wallEpoch := now, armed := true
          produced := max s.gf.produced (s.pacing.dueAt now), base := max s.gf.produced (s.pacing.dueAt now) }
      else
        { s.pacing with
          streaming := true, vticks := 0, wallEpoch := now, armed := true
          shipped := 0, produced := s.gf.depth, base := s.gf.depth } := by
  have hassert : ∀ (w : Bool) (g : Gf), ∃ lev, wakeupAssert w g = { g with lev := lev } := by
    intro w g
    simp only [wakeupAssert]
    split_ifs <;> exact ⟨_, rfl⟩
  obtain ⟨lev, hlev⟩ := hassert (mayFire (wakeupMark s) (wakeupMark s).gf.wantFire)
    (wakeupIndex now (wakeupClock now (wakeupMark s).gf))
  rw [wakeupLocked, if_neg (by rw [hidle]; exact Bool.false_ne_true), wakeupStream, hlev]
  cases hrunning : s.gf.kernelRunning with
  | false =>
    rw [if_neg Bool.false_ne_true]
    have hindex : wakeupIndex now (wakeupClock now (wakeupMark s).gf) =
        { wakeupFresh (wakeupClock now (wakeupMark s).gf) with base := s.gf.depth } := by
      simp only [wakeupIndex, wakeupClock, wakeupMark, hrunning]
      rfl
    rw [hindex]
    rfl
  | true =>
    rw [if_pos rfl]
    by_cases hdue : s.pacing.dueAt now > s.gf.produced
    · have hindex : wakeupIndex now (wakeupClock now (wakeupMark s).gf) =
          { wakeupClock now (wakeupMark s).gf with
            produced := s.pacing.dueAt now, base := s.pacing.dueAt now, curFire := false } := by
        simp only [wakeupIndex, wakeupContinue]
        rw [if_pos (show (wakeupClock now (wakeupMark s).gf).kernelRunning = true from hrunning),
          if_pos (by exact hdue)]
        rfl
      rw [hindex, max_eq_right hdue.le]
      rfl
    · have hindex : wakeupIndex now (wakeupClock now (wakeupMark s).gf) =
          { wakeupClock now (wakeupMark s).gf with base := s.gf.produced } := by
        simp only [wakeupIndex, wakeupContinue]
        rw [if_pos (show (wakeupClock now (wakeupMark s).gf).kernelRunning = true from hrunning),
          if_neg (by exact hdue)]
        rfl
      rw [hindex, max_eq_left (Nat.le_of_not_lt hdue)]
      rfl

/-- A step that is in time and has room goes to the slot of its own index. -/
theorem pulse_pacing {b : StepByte} {s : State} (hlive : s.gf.streaming = true)
    (htime : s.gf.shipped ≤ virtualIndex s.gf) (hfree : s.gf.produced ≤ virtualIndex s.gf)
    (hroom : virtualIndex s.gf + 1 < s.gf.shipped + ringSize) :
    (pulseLocked b s).pacing = { s.pacing with
        ring := Function.update s.gf.ring (slot (virtualIndex s.gf)) b, produced := virtualIndex s.gf + 1 } ∧
      (pulseLocked b s).gf.failed = s.gf.failed ∧ (pulseLocked b s).gf.clamped = s.gf.clamped := by
  have hplace : pulseLocked b s = pulsePlace b (virtualIndex s.gf) (noteMargin s) := by
    rw [pulseLocked, if_pos hlive, pulseAt]
    exact if_neg (Nat.not_lt.mpr htime)
  have hin : pulsePlace b (virtualIndex s.gf) (noteMargin s) = { noteMargin s with gf := { (noteMargin s).gf with
      ring := Function.update s.gf.ring (slot (virtualIndex s.gf)) b, produced := virtualIndex s.gf + 1 } } := by
    have hidx : (if virtualIndex s.gf < (noteMargin s).gf.produced then (noteMargin s).gf.produced
        else virtualIndex s.gf) = virtualIndex s.gf := if_neg (Nat.not_lt.mpr hfree)
    have hin : ¬virtualIndex s.gf - (noteMargin s).gf.shipped ≥ ringSize - 1 := by
      change ¬virtualIndex s.gf - s.gf.shipped ≥ ringSize - 1
      omega
    simp only [pulsePlace]
    rw [hidx, if_neg hin]
    rfl
  rw [hplace, hin]
  exact ⟨rfl, rfl, rfl⟩

/-! ## The reset

A reset empties the slots that have not shipped, so the timeline ends where the shipper stands. -/

theorem dropSlots_slot (n i : Nat) (ring : Nat → StepByte) (dropped : Steps) (j : Nat) :
    (dropSlots n i (ring, dropped)).1 j = if ∃ k < n, slot (i + k) = j then 0 else ring j := by
  induction n generalizing i ring dropped with
  | zero =>
    rw [if_neg (by rintro ⟨k, hk, -⟩; exact absurd hk (Nat.not_lt_zero k))]
    rfl
  | succ n ih =>
    rw [dropSlots, ih]
    by_cases hrest : ∃ k < n, slot (i + 1 + k) = j
    · obtain ⟨k, hk, hslot⟩ := hrest
      rw [if_pos ⟨k, hk, hslot⟩, if_pos ⟨k + 1, by omega, by rw [← hslot, Nat.add_assoc, Nat.add_comm 1]⟩]
    · rw [if_neg hrest]
      by_cases hfirst : slot i = j
      · rw [if_pos ⟨0, Nat.zero_lt_succ n, hfirst⟩, ← hfirst, Function.update_self]
      · rw [Function.update_of_ne (Ne.symm hfirst), if_neg]
        rintro ⟨k, hk, hslot⟩
        cases k with
        | zero => exact hfirst hslot
        | succ k => exact hrest ⟨k, by omega, by rw [← hslot, Nat.add_assoc, Nat.add_comm 1]⟩

/-- A backlog that is dropped leaves an empty ring. -/
theorem dropBacklog_empty {g : Gf} {grid : Nat → StepByte} (dropped : Steps)
    (h : Slots.Shows ringSize g.ring g.shipped g.produced grid) (i : Nat) :
    (dropBacklogLocked dropped g).1.ring (i % ringSize) = 0 := by
  obtain ⟨k, h1, h2, hslot⟩ := Slots.exists_lap_index ringSize_pos g.shipped i
  change (dropSlots (g.produced - g.shipped) g.shipped (g.ring, dropped)).1 (i % ringSize) = 0
  rw [dropSlots_slot]
  split
  · rfl
  · next hnone =>
    rw [← hslot]
    refine (h.lap k h1 h2).trans (h.done k (Nat.le_of_not_lt fun hlt => hnone ⟨k - g.shipped, by omega, ?_⟩))
    rw [Nat.add_sub_cancel' h1]
    exact hslot

/-- An empty ring stays empty. -/
theorem dropBacklog_stays {g : Gf} (dropped : Steps) (h : ∀ i, g.ring (i % ringSize) = 0) (i : Nat) :
    (dropBacklogLocked dropped g).1.ring (i % ringSize) = 0 := by
  change (dropSlots (g.produced - g.shipped) g.shipped (g.ring, dropped)).1 (i % ringSize) = 0
  rw [dropSlots_slot]
  split
  · rfl
  · exact h i

/-- What the reset leaves to the clocks. -/
theorem resetLocked_clocks (now : Nat) (g : Gf) :
    let r := resetLocked now g
    (r.rate, r.depth, r.base, r.wallEpoch, r.shipT0, r.vticks, r.periodLatched) =
      (g.rate, g.depth, g.base, g.wallEpoch, g.shipT0, g.vticks, g.periodLatched) := by
  simp only [resetLocked, resetStream, resetReadback, resetRun, resetFailed, dropBacklogLocked]
  split_ifs <;> rfl

/-- The branch that ends a stream leaves a ring of empty slots. -/
theorem resetStream_empty {now : Nat} {killed : Bool} {g : Gf} {grid : Nat → StepByte}
    (h : Slots.Shows ringSize g.ring g.shipped g.produced grid) (i : Nat) :
    (resetStream now killed g).ring (i % ringSize) = 0 := by
  have hrun : ∀ (w : Gf) dropped,
      (resetReadback killed dropped (resetRun now killed (resetLaser w))).ring = w.ring := by
    intro w dropped
    simp only [resetReadback, resetRun]
    split_ifs <;> rfl
  simp only [resetStream]
  rw [hrun]
  exact dropBacklog_empty _ h i

/-- A reset that ends a stream or acknowledges a fault leaves an empty ring. -/
theorem resetLocked_empty {now : Nat} {g : Gf} {grid : Nat → StepByte}
    (h : Slots.Shows ringSize g.ring g.shipped g.produced grid) (hends : (resetEnds g || g.failed) = true)
    (i : Nat) : (resetLocked now g).ring (i % ringSize) = 0 := by
  simp only [resetLocked]
  cases hstream : resetEnds g with
  | true =>
    have hempty : ∀ i, (resetStream now g.killed { g with killed := false, readback := .none }).ring
        (i % ringSize) = 0 := resetStream_empty h
    rw [if_pos rfl]
    generalize resetStream now g.killed { g with killed := false, readback := .none } = u at hempty
    split
    · exact dropBacklog_stays 0 hempty i
    · exact hempty i
  | false =>
    rw [hstream, Bool.false_or] at hends
    rw [if_neg Bool.false_ne_true, if_pos hends]
    exact dropBacklog_empty 0 h i

/-- A reset that ends nothing leaves the ring. -/
theorem resetLocked_idle {now : Nat} {g : Gf} (hends : (resetEnds g || g.failed) = false) :
    (resetLocked now g).ring = g.ring := by
  simp only [Bool.or_eq_false_iff] at hends
  simp only [resetLocked, hends.1, hends.2]
  rfl

/-! ## The invariant over a turn

One lemma for each thing that can happen to the fields that pacing reads, in terms of those fields
alone. -/

section

variable {lead clock now : Nat} {pc : ProducerPc} {grid : Nat → StepByte} {s : State}

/-- Nothing of a pulse or a stream changes: the marks of the handover, and the end of a stream. -/
theorem Keeps.idle (h : Keeps lead clock pc grid s.pacing) :
    Keeps lead clock pc grid { s.pacing with streaming := false, armed := false } where
  shows := h.shows
  period := h.period
  pass := h.pass
  running := h.running
  live := by rintro ⟨⟩
  disarmed _ := rfl
  away := h.away

/-- A handover changes whose device it is. It is only reached with nothing left to ship. -/
theorem Keeps.suspend {suspended : Bool} (h : Keeps lead clock pc grid s.pacing)
    (hdrained : s.gf.active = true → s.gf.produced ≤ s.gf.shipped ∨ suspended = s.gf.suspended) :
    Keeps lead clock pc grid { s.pacing with suspended := suspended } where
  shows := h.shows
  period := h.period
  pass := h.pass
  running := h.running
  live hlive := have hl := h.live hlive; ⟨hl.epoch, hl.depth, hl.shipped, hl.due, hl.room, hl.pace⟩
  disarmed := h.disarmed
  away ha hs i hi := by
    rcases hdrained ha with hover | hsame
    · exact h.shows.done i (hover.trans hi)
    · exact h.away ha (hsame.symm.trans hs) i hi

/-- A period of at least a tick is latched. -/
theorem Keeps.latches {cycles : Nat} (h : Keeps lead clock pc grid s.pacing) (hcycles : vticksPerByte ≤ cycles) :
    Keeps lead clock pc grid { s.pacing with period := cycles } where
  shows := h.shows
  period := hcycles
  pass := h.pass
  running := h.running
  live hlive := have hl := h.live hlive; ⟨hl.epoch, hl.depth, hl.shipped, hl.due, hl.room, hl.pace⟩
  disarmed := h.disarmed
  away := h.away

/-- The end of a takeover: the index space starts over. -/
theorem Keeps.swap (h : Keeps lead clock pc grid s.pacing) (hactive : s.gf.active = true)
    (hsuspended : s.gf.suspended = true) (hdue : s.pc.due = none) :
    Keeps lead clock pc (fun _ => 0) { s.pacing with
      produced := 0, shipped := 0, streaming := false, kernelRunning := false, suspended := false } where
  shows := .of_empty (h.shows.empty ringSize_pos (h.away hactive hsuspended)) (fun _ _ => rfl) le_rfl ringSize_pos
  period := h.period
  pass d hd := by
    change s.pc.due = some d at hd
    rw [hdue] at hd
    cases hd
  running := by rintro ⟨⟩
  live := by rintro ⟨⟩
  disarmed _ := rfl
  away _ _ _ _ := rfl

/-- A wakeup of a live stream arms the producer. -/
theorem Keeps.arm (h : Keeps lead clock pc grid s.pacing) :
    Keeps lead clock pc grid { s.pacing with armed := true } where
  shows := h.shows
  period := h.period
  pass := h.pass
  running := h.running
  live hlive := have hl := h.live hlive; ⟨hl.epoch, hl.depth, hl.shipped, hl.due, hl.room, hl.pace⟩
  disarmed := by rintro ⟨⟩
  away := h.away

/-- A time within the lead is paced, wherever the producer stands. -/
theorem Pacing.Within.paced {v : Pacing} (h : v.Within lead clock) : pc.Paced lead clock v := by
  cases pc with
  | pacing vticks epoch => exact .inr h
  | _ => exact h

/-- At the beginning of a stream virtual time is where the wall clock is. -/
theorem Pacing.Within.start {v : Pacing} (h : v.vticks = 0) : v.Within lead clock := by
  rw [Pacing.Within, h, Nat.zero_mul]
  exact Nat.zero_le _

/-- A stream that begins over a run of the kernel goes on behind what is produced or due. -/
theorem Keeps.continues (h : Keeps lead clock pc grid s.pacing) (hle : clock ≤ now)
    (hrunning : s.gf.kernelRunning = true) :
    Keeps lead now pc grid { s.pacing with
      streaming := true, vticks := 0, wallEpoch := now, armed := true
      produced := max s.gf.produced (s.pacing.dueAt now), base := max s.gf.produced (s.pacing.dueAt now) } := by
  have hdue : s.pacing.dueAt clock ≤ s.pacing.dueAt now := Pacing.dueAt_mono hle
  obtain ⟨hpos, hship⟩ := h.running hrunning
  have hship : s.gf.shipped ≤ max s.gf.produced (s.pacing.dueAt now) := hship.trans (max_le_max le_rfl hdue)
  exact
    { shows := h.shows.mono (le_max_left _ _)
      period := h.period
      pass := fun d hd => (h.pass d hd).imp id fun hrun => ⟨hrun.1, hrun.2.trans hdue⟩
      running := fun _ => ⟨hpos, hship.trans (le_max_left _ _)⟩
      live := fun _ =>
        { epoch := le_rfl
          depth := (Nat.le_add_left _ _).trans (le_max_right _ _)
          shipped := hship.trans (Nat.le_add_right _ _)
          due := fun _ => le_max_right _ _
          room := (Nat.le_add_right _ _).trans (Nat.le_add_right _ _)
          pace := (Pacing.Within.start rfl).paced }
      disarmed := by rintro ⟨⟩
      away := h.away }

/-- A stream that begins over no run of the kernel begins a timeline. -/
theorem Keeps.restarts (h : Keeps lead clock pc grid s.pacing) (hrunning : s.gf.kernelRunning = false)
    (hleft : stepsLeft s.gf = []) :
    Keeps lead now pc (fun _ => 0) { s.pacing with
      streaming := true, vticks := 0, wallEpoch := now, armed := true
      shipped := 0, produced := s.gf.depth, base := s.gf.depth } := by
  have hempty : ∀ i, s.gf.ring (i % ringSize) = 0 := by
    rw [stepsLeft_eq_queued h.shows.clean] at hleft
    exact (Slots.lap_eq_nil ringSize_pos).mp hleft
  have hnot : ¬s.pacing.kernelRunning = true := by
    change ¬s.gf.kernelRunning = true
    rw [hrunning]
    exact Bool.false_ne_true
  exact
    { shows := .of_empty hempty (fun _ _ => rfl) (Nat.zero_le _) ringSize_pos
      period := h.period
      pass := fun d hd => .inl ((h.pass d hd).resolve_right fun hrun => hnot hrun.1)
      running := fun hrun => absurd hrun hnot
      live := fun _ =>
        { epoch := le_rfl
          depth := le_rfl
          shipped := Nat.zero_le _
          due := fun hrun => absurd hrun hnot
          room := (Nat.le_add_right _ _).trans (Nat.le_add_right _ _)
          pace := (Pacing.Within.start rfl).paced }
      disarmed := by rintro ⟨⟩
      away := fun _ _ _ _ => rfl }

/-- **A pulse in step** goes to the index of its virtual time. -/
theorem Keeps.pulse {b : StepByte} (h : Keeps lead clock (.callback false) grid s.pacing)
    (hlive : s.gf.streaming = true) (hhere : s.gf.suspended = false)
    (htime : s.gf.shipped ≤ virtualIndex s.gf) (hroom : virtualIndex s.gf + 1 < s.gf.shipped + ringSize) :
    Keeps lead clock (.callback true) (Function.update grid (virtualIndex s.gf) b) { s.pacing with
        ring := Function.update s.gf.ring (slot (virtualIndex s.gf)) b, produced := virtualIndex s.gf + 1 } := by
  have hl := h.live hlive
  have hfree : s.gf.produced ≤ virtualIndex s.gf := hl.room
  exact
    { shows := h.shows.put htime hfree hroom
      period := h.period
      pass := h.pass
      running := fun hrun => ⟨(h.running hrun).1,
        (h.running hrun).2.trans (max_le_max (hfree.trans (Nat.le_succ _)) le_rfl)⟩
      live := fun _ =>
        { epoch := hl.epoch
          depth := hl.depth
          shipped := hl.shipped
          due := hl.due
          room := le_rfl
          pace := hl.pace }
      disarmed := h.disarmed
      away := fun _ hs => absurd (hhere.symm.trans hs) Bool.false_ne_true }

/-- Behind a reset that ends the stream or takes its failure the timeline has no step from `shipped`
on. -/
theorem Keeps.reset (h : Keeps lead clock pc grid s.pacing) :
    Keeps lead clock pc
      (if resetEnds s.gf || s.gf.failed then fun i => if i < s.gf.shipped then grid i else 0 else grid)
      (gfStreamReset now s).pacing := by
  have hafter := resetLocked_after now s.gf
  have hclocks := resetLocked_clocks now s.gf
  simp only [Prod.mk.injEq] at hclocks
  obtain ⟨hrate, hdepth, hbase, hepoch, ht0, hvticks, hperiod⟩ := hclocks
  have hdueAt : (gfStreamReset now s).pacing.dueAt clock = s.pacing.dueAt clock := by
    change (clock - (resetLocked now s.gf).shipT0) * (resetLocked now s.gf).rate / 1000000000 +
      (resetLocked now s.gf).depth = _
    rw [ht0, hrate, hdepth]
    rfl
  have hkept : (resetLocked now s.gf).kernelRunning = true → s.gf.kernelRunning = true := by
    rw [hafter.kernelRunning]
    exact fun hrun => (Bool.and_eq_true_iff.mp hrun).1
  refine
    { shows := ?_
      period := h.period.trans_eq hperiod.symm
      pass := fun d hd => ?_
      running := fun hrun => ?_
      live := fun hlive => absurd (hafter.streaming.symm.trans hlive) Bool.false_ne_true
      disarmed := fun _ => hafter.streaming
      away := fun ha hs i hi => ?_ }
  · change Slots.Shows ringSize (resetLocked now s.gf).ring (resetLocked now s.gf).shipped
      (resetLocked now s.gf).produced _
    cases hends : resetEnds s.gf || s.gf.failed with
    | true =>
      rw [hafter.shipped, hafter.produced, hends, if_pos rfl, if_pos rfl]
      exact .drop ringSize_pos (resetLocked_empty h.shows hends)
    | false =>
      rw [hafter.shipped, hafter.produced, hends, resetLocked_idle hends, if_neg Bool.false_ne_true,
        if_neg Bool.false_ne_true]
      exact h.shows
  · change (resetLocked now s.gf).clearPending = true ∨ (resetLocked now s.gf).kernelRunning = true ∧ _
    rw [hdueAt, hafter.clearPending, hafter.kernelRunning]
    rcases h.pass d hd with hclear | ⟨hrun, hle⟩
    · left
      rw [show s.gf.clearPending = true from hclear]
      rfl
    · rw [show s.gf.kernelRunning = true from hrun]
      cases hstops : resetStops s.gf with
      | true =>
        left
        rw [Bool.or_true]
        rfl
      | false =>
        cases hfailed : s.gf.failed with
        | true =>
          left
          exact Bool.or_true _
        | false => exact .inr ⟨rfl, hle⟩
  · rw [hdueAt]
    change 0 < (resetLocked now s.gf).shipped ∧ (resetLocked now s.gf).shipped ≤
      max (resetLocked now s.gf).produced _
    obtain ⟨hpos, hle⟩ := h.running (hkept hrun)
    rw [hafter.shipped, hafter.produced]
    refine ⟨hpos, ?_⟩
    split
    · exact le_max_left _ _
    · exact hle
  · have hi : s.gf.shipped ≤ i := hafter.shipped.symm.trans_le hi
    split
    · exact if_neg (Nat.not_lt.mpr hi)
    · exact h.away (hafter.active.symm.trans ha) (hafter.suspended.symm.trans hs) i hi

/-- The producer goes on, with what it knows of the pace. -/
theorem Keeps.go {pc' : ProducerPc} {v : Pacing} (h : Keeps lead clock pc grid v)
    (hpulsed : pc.pulsed.toNat ≤ pc'.pulsed.toNat)
    (hpaced : v.streaming = true → pc.Paced lead clock v → pc'.Paced lead clock v) :
    Keeps lead clock pc' grid v where
  shows := h.shows
  period := h.period
  pass := h.pass
  running := h.running
  live hlive :=
    have hl := h.live hlive
    ⟨hl.epoch, hl.depth, hl.shipped, hl.due, hl.room.trans (Nat.add_le_add_left hpulsed _),
      hpaced hlive hl.pace⟩
  disarmed := h.disarmed
  away := h.away

/-- The interval behind a callback is at least a tick, so the next pulse has an index of its own. -/
theorem Keeps.advance {pulsed : Bool} (h : Keeps lead clock (.callback pulsed) grid s.pacing) :
    Keeps lead clock (.pacing (s.gf.vticks + s.gf.periodLatched) s.gf.wallEpoch) grid
      { s.pacing with vticks := s.gf.vticks + s.gf.periodLatched } where
  shows := h.shows
  period := h.period
  pass := h.pass
  running := h.running
  live hlive :=
    have hl := h.live hlive
    { epoch := hl.epoch
      depth := hl.depth
      shipped := hl.shipped
      due := hl.due
      room := by
        have hroom : s.gf.produced ≤ s.gf.base + s.gf.vticks / vticksPerByte + pulsed.toNat := hl.room
        have hperiod : vticksPerByte ≤ s.gf.periodLatched := h.period
        have hone : pulsed.toNat ≤ 1 := Bool.toNat_le pulsed
        change s.gf.produced ≤ s.gf.base + (s.gf.vticks + s.gf.periodLatched) / vticksPerByte + 0
        simp only [vticksPerByte] at hroom hperiod ⊢
        omega
      pace := .inl ⟨rfl, rfl⟩ }
  disarmed := h.disarmed
  away := h.away

/-- A producer that is not past the lead, or is disarmed, goes on to its next callback. -/
theorem Keeps.paces {vticks epoch : Nat} (h : Keeps lead clock (.pacing vticks epoch) grid s.pacing)
    (hon : (aheadOf lead clock vticks epoch s.gf.rate && s.armed) = false) :
    Keeps lead clock .ready grid s.pacing := by
  refine h.go le_rfl fun hlive hpaced => ?_
  rcases hpaced with ⟨hvticks, hepoch⟩ | hwithin
  · have harmed : s.armed = true := by
      cases ha : s.armed with
      | true => rfl
      | false => exact absurd ((h.disarmed ha).symm.trans hlive) Bool.false_ne_true
    rw [harmed, Bool.and_true, aheadOf, decide_eq_false_iff_not, Nat.not_lt] at hon
    change s.pacing.vticks * 1000000000 ≤ (clock - s.pacing.wallEpoch + lead) * (s.pacing.rate * vticksPerByte)
    rw [hvticks, hepoch]
    exact hon
  · exact hwithin

end

/-! ## The engine

The machine with the clock and the producer's place beside it. Here the lemmas about the fields meet
the turns that cause them. -/

/-- What every run in step keeps. -/
structure EngineInv (lead : Nat) (x : Engine) (grid : Nat → StepByte) : Prop where
  custody : Custody x.stream
  keeps : Keeps lead x.clock x.producer grid x.stream.pacing

theorem reads_le {clock now : Nat} {l : Label} (h : l.reads clock = some now) : clock ≤ now := by
  cases l with
  | locked c t =>
    simp only [Label.reads] at h
    split at h
    · next hle =>
      cases h
      exact hle
    · cases h
  | reset t =>
    simp only [Label.reads] at h
    split at h
    · next hle =>
      cases h
      exact hle
    · cases h
  | ship e =>
    simp only [Label.reads] at h
    split at h
    · next hle =>
      cases h
      exact hle.1.trans hle.2
    · cases h
  | _ =>
    cases h
    exact le_rfl

theorem due_of_owning {pc : ShipPc} (h : pc.site.owning = false) : pc.due = none := by
  cases pc with
  | writing p c rest => cases h
  | wrote p c ok => cases h
  | _ => rfl

/-- Whatever its answer, a suspension can change `suspended` only, and only of a drained device. -/
theorem suspend_pacing (readOk : Bool) (s : State) :
    ∃ suspended, (gfStreamSuspend readOk s).pacing = { s.pacing with suspended := suspended } ∧
      (s.gf.active = true → s.gf.produced ≤ s.gf.shipped ∨ suspended = s.gf.suspended) := by
  simp only [gfStreamSuspend]
  split
  · next hnull =>
    refine ⟨true, rfl, fun ha => ?_⟩
    rw [ha] at hnull
    cases hnull
  · split
    · next hidle =>
      have hdrained : s.gf.produced = s.gf.shipped := by
        simp only [drained, Bool.and_eq_true, beq_iff_eq] at hidle
        exact hidle.1.1.2
      refine ⟨true, ?_, fun _ => .inl hdrained.le⟩
      split <;> rfl
    · exact ⟨s.gf.suspended, rfl, fun _ => .inr rfl⟩

/-- Where a pulse in step goes: into the window, behind what is produced. -/
theorem pulse_index {lead now : Nat} {x : Engine} {grid : Nat → StepByte} {stepBits dirBits : UInt8}
    (h : Keeps lead now (.callback false) grid x.stream.pacing) (hlive : x.stream.gf.streaming = true)
    (hok : inStep lead x (.turn (.locked (.pulse stepBits dirBits) now)) = true) :
    x.stream.gf.suspended = false ∧ x.stream.gf.shipped ≤ virtualIndex x.stream.gf ∧
      x.stream.gf.produced ≤ virtualIndex x.stream.gf ∧
      virtualIndex x.stream.gf + 1 < x.stream.gf.shipped + ringSize := by
  simp only [inStep, hlive, Bool.not_true, Bool.false_or, Bool.and_eq_true, Bool.not_eq_true',
    decide_eq_true_eq] at hok
  obtain ⟨⟨hhere, htime⟩, hring⟩ := hok
  have hl := h.live hlive
  have hshipped : x.stream.gf.shipped ≤ x.stream.gf.base + elapsed now x.stream.gf := hl.shipped
  have hindex : virtualIndex x.stream.gf ≤ x.stream.gf.base +
      (now - x.stream.gf.wallEpoch + lead) * x.stream.gf.rate / 1000000000 := Pacing.Within.index_le hl.pace
  refine ⟨hhere, ?_, hl.room, by omega⟩
  have hticks : elapsed now x.stream.gf ≤ x.stream.gf.vticks / vticksPerByte :=
    (Nat.le_div_iff_mul_le (by decide)).mpr htime
  exact hshipped.trans (Nat.add_le_add_left hticks _)

/-- A wakeup goes on with the stream that the kernel still plays, or begins a new one on an empty
ring; the condition says that nothing is left in the second case. -/
theorem wakeup_keeps {lead clock now : Nat} {pc : ProducerPc} {grid : Nat → StepByte} {s : State}
    (h : Keeps lead clock pc grid s.pacing) (hle : clock ≤ now)
    (hleft : restarts s.gf = true → stepsLeft s.gf = []) :
    Keeps lead now pc (if restarts s.gf then fun _ => 0 else grid) (wakeupLocked now s).pacing := by
  cases hstream : s.gf.streaming with
  | true =>
    have hrestarts : restarts s.gf = false := by rw [restarts, hstream]; rfl
    rw [hrestarts, if_neg Bool.false_ne_true, wakeupLocked, if_pos hstream]
    exact (h.later hle).arm
  | false =>
    rw [wakeup_pacing hstream]
    cases hrunning : s.gf.kernelRunning with
    | true =>
      have hrestarts : restarts s.gf = false := by rw [restarts, hrunning, Bool.not_true, Bool.and_false]
      rw [hrestarts, if_neg Bool.false_ne_true, if_pos rfl]
      exact h.continues hle hrunning
    | false =>
      have hrestarts : restarts s.gf = true := by rw [restarts, hrunning, hstream]; rfl
      rw [if_pos hrestarts, if_neg Bool.false_ne_true]
      exact h.restarts hrunning (hleft hrestarts)

/-- The last section of a takeover has the engine's state to itself. -/
theorem proto_keeps {lead now : Nat} {pc : ProducerPc} {grid : Nat → StepByte} {s t : State}
    (h : Keeps lead now pc grid s.pacing) (hcustody : Custody s) (hswap : s.proto.head? = some .resumeSwap)
    (hturn : turn s .proto = some t) : Keeps lead now pc (fun _ => 0) t.pacing := by
  obtain ⟨hactive, hsuspended⟩ := hcustody.swapping hswap
  have hdue := due_of_owning (hcustody.marks.here hactive hsuspended).1
  obtain ⟨o, rest, hp⟩ := proto_owes hturn
  rw [hp] at hswap
  cases hswap
  simp only [turn, protoStep, hp] at hturn
  cases hturn
  exact h.swap hactive hsuspended hdue

/-- **A turn of the stream keeps the invariant.** A pulse lands at its virtual time, a wakeup goes
on or starts over, a reset ends the timeline, and the other turns leave what pacing reads. -/
theorem turn_keeps {lead now : Nat} {x : Engine} {grid : Nat → StepByte} {l : Label} {t : State}
    (h : EngineInv lead x grid) (hok : inStep lead x (.turn l) = true) (hadmits : x.producer.admits l = true)
    (hloop : l.ofLoop = false) (hreads : l.reads x.clock = some now) (hturn : turn x.stream l = some t) :
    Keeps lead now (x.producer.after l) (recordGrid x (.turn l) grid) t.pacing := by
  have hle := reads_le hreads
  have hkeeps := h.keeps.later hle
  cases l with
  | ship e =>
    cases hturn
    simp only [Label.reads] at hreads
    split at hreads
    · next hread =>
      cases hreads
      exact ship_keeps hread.1 hread.2 h.keeps
    · cases hreads
  | locked c clock =>
    cases hturn
    have hnow : clock = now := by
      simp only [Label.reads] at hreads
      split at hreads
      · exact Option.some.inj hreads
      · cases hreads
    subst hnow
    cases c with
    | wakeup =>
      refine wakeup_keeps (s := { x.stream with entered := x.stream.entered.erase .wakeup }) h.keeps hle
        fun hrestarts => ?_
      simpa [inStep, show restarts x.stream.gf = true from hrestarts] using hok
    | pulse stepBits dirBits =>
      have hpc : x.producer = .callback false := by simpa [ProducerPc.admits, Label.puts] using hadmits
      rw [hpc] at hkeeps
      cases hstream : x.stream.gf.streaming with
      | false =>
        simp only [recordGrid, hstream, if_neg Bool.false_ne_true]
        rw [turn_still (s := x.stream) (l := .locked (.pulse stepBits dirBits) clock) rfl
          (by simp [Label.still, hstream])]
        exact hkeeps.go (Nat.zero_le _) fun hlive => absurd (hstream.symm.trans hlive) Bool.false_ne_true
      | true =>
        obtain ⟨hhere, htime, hfree, hroom⟩ := pulse_index hkeeps hstream hok
        simp only [recordGrid, hstream, if_true]
        have hview := (pulse_pacing (b := pulseByte stepBits dirBits)
          (s := { x.stream with entered := x.stream.entered.erase (.pulse stepBits dirBits) })
          hstream htime hfree hroom).1
        exact hview ▸ hkeeps.pulse hstream hhere htime hroom
    | laser power fire =>
      rw [turn_still (l := .locked (.laser power fire) clock) rfl rfl]
      exact hkeeps
    | jog on =>
      rw [turn_still (l := .locked (.jog on) clock) rfl rfl]
      exact hkeeps
  | goIdle reset stepBits dirBits =>
    cases hturn
    rw [goIdle_pacing]
    exact hkeeps.idle
  | cyclesPerTick cycles =>
    cases hturn
    have hcycles : vticksPerByte ≤ cycles := by simpa [inStep] using hok
    have hpos : ¬cycles = 0 := by
      simp only [vticksPerByte] at hcycles
      omega
    change Keeps lead now x.producer grid { x.stream.pacing with period := if cycles = 0 then 1 else cycles }
    rw [if_neg hpos]
    exact hkeeps.latches hcycles
  | reset clock =>
    cases hturn
    exact hkeeps.reset
  | suspend readOk =>
    cases hturn
    obtain ⟨suspended, hview, hdrained⟩ := suspend_pacing readOk x.stream
    rw [hview]
    exact hkeeps.suspend hdrained
  | resume latchOk emptied counted =>
    cases hactive : x.stream.gf.active with
    | true =>
      rw [turn_still hturn hactive]
      exact hkeeps
    | false =>
      cases hturn
      rw [gfStreamResume, if_pos (by rw [hactive]; rfl)]
      exact hkeeps.suspend fun ha => absurd (hactive.symm.trans ha) Bool.false_ne_true
  | proto =>
    by_cases hswap : x.stream.proto.head? = some .resumeSwap
    · rw [show recordGrid x (.turn .proto) grid = fun _ => 0 from if_pos hswap]
      exact proto_keeps hkeeps h.custody hswap hturn
    · rw [show recordGrid x (.turn .proto) grid = grid from if_neg hswap,
        turn_still hturn (by simpa [Label.still] using hswap)]
      exact hkeeps
  | advance => cases hloop
  | producerRun => cases hloop
  | _ =>
    rw [turn_still hturn rfl]
    exact hkeeps

/-- **Every step of the engine keeps the invariant.** A step is a turn of the stream with its
reading of the clock, or a move of the producer's loop between two of them. -/
theorem engine_keeps {lead : Nat} {x y : Engine} {grid : Nat → StepByte} {l : EngineLabel}
    (h : EngineInv lead x grid) (hok : inStep lead x l = true) (hstep : engineStep lead x l = some y) :
    EngineInv lead y (recordGrid x l grid) := by
  cases l with
  | turn l =>
    simp only [engineStep] at hstep
    split at hstep
    · next hadmits =>
      simp only [Bool.and_eq_true, Bool.not_eq_true'] at hadmits
      obtain ⟨now, hreads, hstep⟩ := Option.bind_eq_some_iff.mp hstep
      obtain ⟨t, ht, rfl⟩ := Option.map_eq_some_iff.mp hstep
      exact ⟨step_custody ht h.custody, turn_keeps h hok hadmits.2 hadmits.1 hreads (step_eq_some.mp ht).2⟩
    · cases hstep
  | wakes =>
    simp only [engineStep] at hstep
    split at hstep
    · next hwakes =>
      obtain ⟨t, ht, rfl⟩ := Option.map_eq_some_iff.mp hstep
      refine ⟨step_custody ht h.custody, ?_⟩
      have hview := turn_still (step_eq_some.mp ht).2 rfl
      have hkeeps := h.keeps
      rw [hwakes.1] at hkeeps
      exact hview ▸ hkeeps.go le_rfl fun _ hpaced => hpaced
    · cases hstep
  | fires =>
    simp only [engineStep] at hstep
    split at hstep
    · next hpc =>
      cases hstep
      refine ⟨h.custody, ?_⟩
      have hkeeps := h.keeps
      rw [hpc] at hkeeps
      change Keeps lead x.clock (if x.stream.armed then .callback false else .waiting) grid x.stream.pacing
      split
      · exact hkeeps.go le_rfl fun _ hpaced => hpaced
      · exact hkeeps.go le_rfl fun _ hpaced => hpaced
    · cases hstep
  | returns =>
    simp only [engineStep] at hstep
    split at hstep
    · next pulsed hpc =>
      obtain ⟨t, ht, rfl⟩ := Option.map_eq_some_iff.mp hstep
      refine ⟨step_custody ht h.custody, ?_⟩
      have hkeeps := h.keeps
      rw [hpc] at hkeeps
      cases (step_eq_some.mp ht).2
      exact hkeeps.advance
    · cases hstep
  | paces now =>
    simp only [engineStep] at hstep
    split at hstep
    · next vticks epoch hpc =>
      split at hstep
      · next hle =>
        cases hstep
        refine ⟨h.custody, ?_⟩
        have hkeeps := h.keeps.later hle
        rw [hpc] at hkeeps
        change Keeps lead now (if aheadOf lead now vticks epoch x.stream.gf.rate && x.stream.armed
          then .pacing vticks epoch else .ready) grid x.stream.pacing
        split
        · exact hkeeps
        · next hon => exact hkeeps.paces (Bool.eq_false_iff.mpr hon)
      · cases hstep
    · cases hstep

/-- The engine starts with an empty ring and a timeline without steps. -/
theorem start_keeps (lead : Nat) (c : Config) (k : Kernel) (emptied counted : Bool) :
    EngineInv lead (Engine.start c k emptied counted) fun _ => 0 := by
  have hview : (State.init c k emptied counted).pacing =
      State.pacing { State.init c k emptied counted with gf := Gf.init c } := by
    simp only [State.init, rebaseAtTakeover]
    split_ifs <;> rfl
  refine ⟨init_custody c k emptied counted, ?_⟩
  change Keeps lead 0 .waiting _ (State.init c k emptied counted).pacing
  rw [hview]
  exact
    { shows := .of_empty (fun _ => rfl) (fun _ _ => rfl) le_rfl ringSize_pos
      period := le_rfl
      pass := by rintro _ ⟨⟩
      running := by rintro ⟨⟩
      live := by rintro ⟨⟩
      disarmed := fun _ => rfl
      away := fun _ _ _ _ => rfl }

/-- The invariant holds in every run that keeps up. -/
theorem reach_keeps {lead : Nat} {c : Config} {k : Kernel} {emptied counted : Bool} {x : Engine}
    {grid : Nat → StepByte}
    (hrun : Reach (observe (engineStep lead) recordGrid) (fun y l => inStep lead y.1 l = true)
      (Engine.start c k emptied counted, fun _ => 0) (x, grid)) : EngineInv lead x grid :=
  Reach.invariant_observe (fun y l => inStep lead y l = true) hrun (start_keeps lead c k emptied counted)
    fun _ _ _ _ h hok hstep => engine_keeps h hok hstep

/-! ## What the ticks are

The invariant says that the ring shows the timeline; a round hands the ring over; so the ticks are
the timeline's. -/

/-- **The ticks of a step of the shipper** are the timeline's from the cursor on; pads have no index. -/
theorem ship_ticks {lead clock : Nat} {pc : ProducerPc} {grid : Nat → StepByte} {s : State} (e : Env)
    (h : Keeps lead clock pc grid s.pacing) :
    ∃ pads, (∀ b ∈ pads, b = (0x00 : UInt8)) ∧ (newTicks s (shipStep e s)).map (· &&& 0xEF) =
      gridTicks grid s.gf.shipped ((shipStep e s).gf.shipped - s.gf.shipped) ++ pads := by
  cases shipStep_ships e s with
  | idles hidles =>
    have hshipped : (shipStep e s).gf.shipped = (shipStep e s).pacing.shipped := rfl
    rw [hshipped]
    generalize (shipStep e s).pacing = w at hidles
    generalize newTicks s (shipStep e s) = ticks at hidles
    cases hidles with
    | rests hview hrun hdark =>
      refine ⟨ticks, hdark, ?_⟩
      rw [hview]
      change ticks.map _ = gridTicks grid s.gf.shipped (s.gf.shipped - s.gf.shipped) ++ ticks
      rw [Nat.sub_self]
      have hsame : ticks.map (· &&& 0xEF) = ticks.map id :=
        List.map_congr_left fun b hb => by rw [hdark b hb]; rfl
      rw [hsame, List.map_id]
      rfl
    | writes hview hnone =>
      refine ⟨[], noPad, ?_⟩
      rw [hview, hnone]
      change [] = gridTicks grid s.gf.shipped (s.gf.shipped - s.gf.shipped) ++ []
      rw [Nat.sub_self]
      rfl
    | pads hidle hover hview hticks =>
      refine ⟨[], noPad, ?_⟩
      rw [hview, hticks]
      change [(0x00 : UInt8) &&& 0xEF] = gridTicks grid s.gf.shipped (s.gf.shipped + 1 - s.gf.shipped) ++ []
      rw [Nat.add_sub_cancel_left, List.append_nil, gridTicks_succ, Nat.add_zero,
        show grid s.gf.shipped = 0 from h.shows.done _ hover]
      rfl
  | round hround hgo hstep =>
    rename_i p u
    have hshipped := hround.cursors.2.1
    refine ⟨[], noPad, ?_⟩
    rw [List.append_nil, hstep]
    unfold shipLoop
    split
    · next htick =>
      have hbuilt := (buildTicks_shows p.gate u.gf.streaming htick (hround.shows h.shows)).2.2
      rw [hshipped] at hbuilt
      refine Eq.trans (congrArg (List.map _) ?_) hbuilt
      change ((u.dump ++ (buildTicks p.gate p.due u.gf.streaming shipChunk u.gf []).2).drop
        s.dump.length).filter isTick = _
      rw [hround.dump, List.drop_left]
    · change ((u.dump.drop s.dump.length).filter isTick).map _ = gridTicks grid _ (u.gf.shipped - _)
      rw [hround.dump, hshipped, List.drop_length, Nat.sub_self]
      rfl

/-- What a run in step has of the timeline `grid`. -/
structure InTime (lead : Nat) (x : Engine) (grid : Nat → StepByte) : Prop where
  -- the ring has the timeline ahead of the cursor, and the timeline has no more
  ahead : ∀ i, x.stream.gf.shipped ≤ i → i < x.stream.gf.shipped + ringSize →
    x.stream.gf.ring (slot i) = grid i
  none : ∀ i, x.stream.gf.produced ≤ i → grid i = 0
  -- what ships next is the timeline from the cursor on; a pad is a dark tick that has no index
  ships : ∀ e, ∃ pads, (∀ b ∈ pads, b = (0x00 : UInt8)) ∧
    (newTicks x.stream (shipStep e x.stream)).map (· &&& 0xEF) =
      gridTicks grid x.stream.gf.shipped ((shipStep e x.stream).gf.shipped - x.stream.gf.shipped) ++ pads
  -- a live stream ships nothing before its time
  behind : x.stream.gf.streaming = true →
    x.stream.gf.shipped ≤ x.stream.gf.base + elapsed x.clock x.stream.gf
  -- a pulse in step goes to the index of its virtual time, which no step has and nothing has shipped
  puts : ∀ stepBits dirBits now y, x.stream.gf.streaming = true →
    inStep lead x (.turn (.locked (.pulse stepBits dirBits) now)) = true →
    engineStep lead x (.turn (.locked (.pulse stepBits dirBits) now)) = some y →
    x.stream.gf.shipped ≤ virtualIndex x.stream.gf ∧ grid (virtualIndex x.stream.gf) = 0 ∧
      y.stream.gf.ring (slot (virtualIndex x.stream.gf)) = pulseByte stepBits dirBits ∧
      y.stream.gf.produced = virtualIndex x.stream.gf + 1 ∧
      y.stream.gf.clamped = x.stream.gf.clamped ∧ y.stream.gf.failed = x.stream.gf.failed

/-- A pulse of a live stream lands in the slot of its virtual index, ahead of everything that has
shipped. -/
theorem EngineInv.puts {lead now : Nat} {x y : Engine} {grid : Nat → StepByte} {stepBits dirBits : UInt8}
    (h : EngineInv lead x grid) (hlive : x.stream.gf.streaming = true)
    (hok : inStep lead x (.turn (.locked (.pulse stepBits dirBits) now)) = true)
    (hstep : engineStep lead x (.turn (.locked (.pulse stepBits dirBits) now)) = some y) :
    x.stream.gf.shipped ≤ virtualIndex x.stream.gf ∧ grid (virtualIndex x.stream.gf) = 0 ∧
      y.stream.gf.ring (slot (virtualIndex x.stream.gf)) = pulseByte stepBits dirBits ∧
      y.stream.gf.produced = virtualIndex x.stream.gf + 1 ∧
      y.stream.gf.clamped = x.stream.gf.clamped ∧ y.stream.gf.failed = x.stream.gf.failed := by
  simp only [engineStep] at hstep
  split at hstep
  · next hadmits =>
    obtain ⟨later, hreads, hstep⟩ := Option.bind_eq_some_iff.mp hstep
    obtain ⟨t, ht, rfl⟩ := Option.map_eq_some_iff.mp hstep
    have hpc : x.producer = .callback false := by simpa [ProducerPc.admits, Label.puts, Label.ofLoop] using hadmits
    have hle := reads_le hreads
    simp only [Label.reads] at hreads
    split at hreads
    · cases hreads
      have hkeeps := h.keeps.later hle
      rw [hpc] at hkeeps
      obtain ⟨-, htime, hfree, hroom⟩ := pulse_index hkeeps hlive hok
      cases (step_eq_some.mp ht).2
      obtain ⟨hview, hfailed, hclamped⟩ := pulse_pacing (b := pulseByte stepBits dirBits)
        (s := { x.stream with entered := x.stream.entered.erase (.pulse stepBits dirBits) })
        hlive htime hfree hroom
      refine ⟨htime, h.keeps.shows.done _ hfree, ?_, congrArg Pacing.produced hview, hclamped, hfailed⟩
      have hring := congrArg Pacing.ring hview
      exact (congrFun hring _).trans (Function.update_self ..)
    · cases hreads
  · cases hstep

/-- **The steps keep the core's time.** In every run in which the two threads keep in step with the wall
clock, the ticks that ship are the core's timeline, index by index, none before its time, and every pulse
of the core has its own place in it, ahead of what has shipped. -/
theorem steps_keep_time {lead : Nat} {c : Config} {k : Kernel} {emptied counted : Bool} {x : Engine}
    {grid : Nat → StepByte}
    (hrun : Reach (observe (engineStep lead) recordGrid) (fun y l => inStep lead y.1 l = true)
      (Engine.start c k emptied counted, fun _ => 0) (x, grid)) : InTime lead x grid := by
  have h := reach_keeps hrun
  exact
    { ahead := h.keeps.shows.lap
      none := h.keeps.shows.done
      ships := fun e => ship_ticks e h.keeps
      behind := fun hlive => (h.keeps.live hlive).shipped
      puts := fun _ _ _ _ hlive hok hstep => h.puts hlive hok hstep }

/-- A stream begins and takes two steps, a tick apart, and the shipper comes to both. -/
def twoSteps : List EngineLabel :=
  [.turn (.enter .wakeup), .turn (.locked .wakeup 0), .wakes, .fires, .turn (.enter (.pulse 0x01 0x00)),
    .turn (.locked (.pulse 0x01 0x00) 0), .returns, .paces 0, .fires, .turn (.enter (.pulse 0x02 0x00)),
    .turn (.locked (.pulse 0x02 0x00) 0), .returns, .paces 0, .turn (.ship {}), .turn (.ship {}),
    .turn (.ship { now := 1000000, later := 3000000 })]

theorem twoSteps_keep_time : ∃ x grid, x.stream.gf.shipped = 22 ∧ grid 20 = pulseByte 0x01 0x00 ∧
    grid 21 = pulseByte 0x02 0x00 ∧ InTime 5000000 x grid := by
  have hex : ∃ y, Reach (observe (engineStep 5000000) recordGrid) (fun y l => inStep 5000000 y.1 l = true)
      (Engine.start (slowConfig true) idleKernel true true, fun _ => 0) y ∧
        y.1.stream.gf.shipped = 22 ∧ y.2 20 = pulseByte 0x01 0x00 ∧ y.2 21 = pulseByte 0x02 0x00 :=
    Runs.exists_reach_of_exec twoSteps (by decide +kernel)
  obtain ⟨⟨x, grid⟩, hrun, hshipped, hfirst, hsecond⟩ := hex
  exact ⟨x, grid, hshipped, hfirst, hsecond, steps_keep_time hrun⟩

end Glowforge.Stream
