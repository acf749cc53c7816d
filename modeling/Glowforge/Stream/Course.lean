import Glowforge.Stream.Tick
import Glowforge.Stream.Faults

/-!
# Glowforge — the course of the shipper and the marks of a stream

What ends a stream, fails it or hands its device over is told by a few marks of the record,
and most of the shipper's points are alike to them. This module says once what a step can do:

* **`Marks`** — the part of the record that says whose the device is and what is still owed to
  it.
* **`ShipPc.site`** — the stretch of its loop that the shipper is in.
* **`shipStep_course`** — every step of the shipper: from which stretch to which, what it does
  to the marks, and what it puts into the ring.
* **`turn_moved`** — what any other step does to the marks.
-/

namespace Glowforge.Stream

/-! ## Marks and sites

Two abstractions that most invariants share: of the record, what says whose the device is, and of
the program counter, the stretch of the loop. -/

structure Marks where
  active : Bool
  suspended : Bool
  fdOpen : Bool
  streaming : Bool
  kernelRunning : Bool
  clearPending : Bool
  lastLit : Bool
  killed : Bool
  failed : Bool
  produced : Nat
  shipped : Nat
deriving DecidableEq

def Gf.marks (g : Gf) : Marks where
  active := g.active
  suspended := g.suspended
  fdOpen := g.fdOpen
  streaming := g.streaming
  kernelRunning := g.kernelRunning
  clearPending := g.clearPending
  lastLit := g.lastLit
  killed := g.killed
  failed := g.failed
  produced := g.produced
  shipped := g.shipped

/-- There is something to ship. -/
def Marks.live (m : Marks) : Bool := m.streaming || decide (m.shipped < m.produced)

/-- The stretches of the shipper's loop. -/
inductive Site where
  -- before `pending_pass`
  | top
  -- `pending_pass` has found no clear, or has settled one; `gf.lock` is still to be taken
  | gap
  -- `pending_pass` is at a clear
  | clearing
  -- `gf.lock` is held ahead of the first round
  | sampled
  | writing (pass : Pass) (chunk : Chunk) (rest : List UInt8)
  | wrote (pass : Pass) (chunk : Chunk) (ok : Bool)
  -- the rounds are over
  | tested (startRun : Bool)
  -- the run's gate, and the request
  | starting
  -- about to fault the stream for a refused run
  | faulting
  -- anything else
  | rest

def ShipPc.site : ShipPc → Site
  | .top => .top
  | .pendState true _ | .pendSeek _ | .pendCount _ | .pendDone _ _ _ => .clearing
  | .pendState false _ | .pendOurs | .lock | .raise .lock => .gap
  | .sampled _ => .sampled
  | .writing p c rest => .writing p c rest
  | .wrote p c ok => .wrote p c ok
  | .runTest startRun _ _ => .tested startRun
  | .gateState _ _ | .gateCounts _ _ | .runLatch | .runWrite _ _ | .runState _ _ _ | .runStop _ =>
    .starting
  | .runFault _ _ => .faulting
  | _ => .rest

/-! ## The shipper

The inversion lemma of `shipStep`, with one case for each passage between two stretches. -/

/-- A pad that is due, as far as it lands. -/
def padBytes (due ok : Bool) (s : State) : List UInt8 := if due && padLands ok s then [0x00] else []

/-- A round of the loop can begin: the first of a pass, or one behind a chunk that landed with
nothing against it. `startRun` is what the pass carries into it. -/
inductive RoundFrom (s : State) : Bool → Prop where
  | first (hsite : s.pc.site = .sampled) : RoundFrom s false
  | next {p : Pass} {c : Chunk} (hsite : s.pc.site = .wrote p c true) (hfailed : s.gf.failed = false)
      (hsuspended : s.gf.suspended = false) (hclear : s.gf.clearPending = false) :
      RoundFrom s (p.startRun || c.first)

/-- The last tick of a list of bytes, and whether it fires. -/
def lastTick (bs : List UInt8) : Option Bool := (bs.filter isTick).getLast?.map lit

/-- A step of the shipper from `s` to `t`. -/
inductive Course (e : Env) (s t : State) : Prop where
  | snapshot (hsite : s.pc.site = .top)
      (hsite' : t.pc.site = if s.gf.clearPending then .clearing else .gap)
      (hmarks : t.gf.marks = { s.gf.marks with lastLit := s.gf.lastLit && !s.gf.clearPending })
      (hland : landed s t = padBytes (s.gf.clearPending && s.gf.lastLit) e.ok s)
  | clears (hsite : s.pc.site = .clearing) (hsite' : t.pc.site = .clearing ∨ t.pc.site = .rest)
      (hmarks : t.gf.marks = s.gf.marks) (hland : landed s t = [])
  | settles (hsite : s.pc.site = .clearing) (hsite' : t.pc.site = .gap)
      (hmarks : t.gf.marks = { s.gf.marks with clearPending := false, kernelRunning := false })
      (hland : landed s t = [])
  | waits (hsite : s.pc.site = .gap) (hsite' : t.pc.site = .gap)
      (hmarks : t.gf.marks = { s.gf.marks with failed := t.gf.failed })
      (hfailed : s.gf.failed = true → t.gf.failed = true) (hland : landed s t = [])
  | turnsBack (hsite : s.pc.site = .gap) (hsite' : t.pc.site = .rest)
      (hstop : (s.gf.failed || s.gf.suspended) = true)
      (hmarks : t.gf.marks = { s.gf.marks with lastLit := s.gf.lastLit && !s.gf.failed })
      (hland : landed s t = padBytes (s.gf.failed && s.gf.lastLit) e.ok s)
  | samples (hsite : s.pc.site = .gap) (hsite' : t.pc.site = .sampled) (hfailed : s.gf.failed = false)
      (hsuspended : s.gf.suspended = false) (hmarks : t.gf.marks = s.gf.marks)
      (hland : landed s t = [])
  | ends (hsite : s.pc.site = .sampled) (hsite' : t.pc.site = .rest) (hover : s.gf.marks.live = false)
      (hmarks : t.gf.marks = { s.gf.marks with
        kernelRunning := false, lastLit := s.gf.lastLit && !s.gf.kernelRunning
        produced := t.gf.produced, shipped := t.gf.shipped })
      (hover' : t.gf.marks.live = false)
      (hland : landed s t = padBytes (s.gf.kernelRunning && s.gf.lastLit) e.ok s)
  | holds (hsite : s.pc.site = .sampled) (hsite' : t.pc.site = .rest)
      (hmarks : t.gf.marks = s.gf.marks) (hland : landed s t = [])
  | builds {p : Pass} {c : Chunk} {rest : List UInt8} (hround : RoundFrom s p.startRun)
      (hsite' : t.pc.site = .writing p c rest) (hlive : s.gf.marks.live = true)
      (hmarks : t.gf.marks = { s.gf.marks with
        kernelRunning := true, lastLit := t.gf.lastLit, shipped := t.gf.shipped })
      (hfirst : c.first = !s.gf.kernelRunning) (hlast : lastTick c.bytes = some t.gf.lastLit)
      (hrest : rest = if s.gf.active then c.bytes else []) (hland : landed s t = [])
  | finishes {startRun : Bool} (hround : RoundFrom s startRun) (hsite' : t.pc.site = .tested startRun)
      (hmarks : t.gf.marks = s.gf.marks) (hland : landed s t = [])
  | lands {p : Pass} {c : Chunk} {b : UInt8} {rest : List UInt8}
      (hsite : s.pc.site = .writing p c (b :: rest)) (hsite' : t.pc.site = .writing p c rest)
      (hmarks : t.gf.marks = s.gf.marks) (hland : landed s t = [b])
  | written {p : Pass} {c : Chunk} (hsite : s.pc.site = .writing p c [])
      (hsite' : t.pc.site = .wrote p c true) (hmarks : t.gf.marks = s.gf.marks)
      (hland : landed s t = [])
  | writeFails {p : Pass} {c : Chunk} {b : UInt8} {rest : List UInt8}
      (hsite : s.pc.site = .writing p c (b :: rest)) (hno : (e.ok && canTake s) = false)
      (hsite' : t.pc.site = .wrote p c false) (hmarks : t.gf.marks = s.gf.marks)
      (hland : landed s t = [])
  | breaks {p : Pass} {c : Chunk} (hsite : s.pc.site = .wrote p c true)
      (hstop : (s.gf.failed || s.gf.suspended || s.gf.clearPending) = true)
      (hsite' : t.pc.site = .tested p.startRun) (hmarks : t.gf.marks = s.gf.marks)
      (hland : landed s t = [])
  | fails {p : Pass} {c : Chunk} (hsite : s.pc.site = .wrote p c false)
      (hsite' : t.pc.site = .tested p.startRun)
      (hmarks : t.gf.marks = { s.gf.marks with failed := true }) (hland : landed s t = [])
  | asks {startRun : Bool} (hsite : s.pc.site = .tested startRun) (hstart : startRun = true)
      (hactive : s.gf.active = true) (hfailed : s.gf.failed = false) (hsite' : t.pc.site = .starting)
      (hmarks : t.gf.marks = s.gf.marks) (hland : landed s t = [])
  | skips {startRun : Bool} (hsite : s.pc.site = .tested startRun) (hsite' : t.pc.site = .rest)
      (hmarks : t.gf.marks = s.gf.marks) (hland : landed s t = [])
  | starts (hsite : s.pc.site = .starting)
      (hsite' : t.pc.site = .starting ∨ t.pc.site = .faulting ∨ t.pc.site = .rest)
      (hmarks : t.gf.marks = s.gf.marks) (hland : landed s t = [])
  | faults (hsite : s.pc.site = .faulting) (hsite' : t.pc.site = .rest)
      (hmarks : t.gf.marks = { s.gf.marks with failed := true }) (hland : landed s t = [])
  | rests (hsite : s.pc.site = .rest) (hsite' : t.pc.site = .rest ∨ t.pc.site = .top)
      (hmarks : t.gf.marks = { s.gf.marks with failed := t.gf.failed })
      (hfailed : s.gf.failed = true → t.gf.failed = true) (hland : landed s t = [])

theorem landed_append {s t : State} {bs : List UInt8} (h : t.kernel.ring = s.kernel.ring ++ bs) :
    landed s t = bs := by
  rw [landed, h, List.drop_left]

theorem landed_same {s t : State} (h : t.kernel.ring = s.kernel.ring) : landed s t = [] := by
  rw [landed, h, List.drop_length]

/-- A tick's bytes end with its tick byte. -/
theorem lastTick_shipTick (gate : Bool) (g : Gf) (chunk : List UInt8) :
    lastTick (chunk ++ (shipTick gate g).2) = some (shipTick gate g).1.lastLit := by
  obtain ⟨power, fires, hbytes, -, hlit, -⟩ := shipTick_bytes gate g
  rw [lastTick, hbytes, hlit, ← List.append_assoc, List.filter_append, List.filter_singleton,
    isTick_shippedByte, cond_true, List.getLast?_append, List.getLast?_singleton, Option.some_or,
    Option.map_some, lit_shippedByte]

/-- A round that begins takes its first tick. -/
theorem buildTicks_due {gate streaming : Bool} {due : Nat} {g : Gf} (fuel : Nat)
    (hdue : tickDue due streaming g = true) :
    buildTicks gate due streaming (fuel + 1) g [] =
      buildTicks gate due streaming fuel (shipTick gate g).1 ([] ++ (shipTick gate g).2) := by
  rw [buildTicks, if_pos]
  rw [hdue]
  decide

/-- A chunk that is built ends with a tick byte, which `last_lit` tells. -/
theorem lastTick_buildTicks (gate : Bool) {streaming : Bool} {due : Nat} {g : Gf}
    (hdue : tickDue due streaming g = true) :
    lastTick (buildTicks gate due streaming shipChunk g []).2 =
      some (buildTicks gate due streaming shipChunk g []).1.lastLit := by
  rw [show buildTicks gate due streaming shipChunk g [] = _ from buildTicks_due 255 hdue]
  exact buildTicks_induct gate due streaming (P := fun g chunk => lastTick chunk = some g.lastLit)
    (fun g chunk _ _ => lastTick_shipTick gate g chunk) 255 _ _ (lastTick_shipTick gate g [])

/-- The loop of a pass, from a state `u` with the marks and the device of `s`. -/
theorem shipLoop_course {e : Env} {s u : State} {p : Pass} (hround : RoundFrom s p.startRun)
    (hmarks : u.gf.marks = s.gf.marks) (hkernel : u.kernel = s.kernel) :
    Course e s (shipLoop p u.gf.streaming u) := by
  simp only [shipLoop]
  split
  · next hdue =>
    have hticked := buildTicks_ticked p.gate p.due u.gf.streaming shipChunk u.gf []
    have hlast := lastTick_buildTicks p.gate hdue
    generalize buildTicks p.gate p.due u.gf.streaming shipChunk u.gf [] = built at hticked hlast
    obtain ⟨g, bytes⟩ := built
    have hlive : s.gf.marks.live = true := by
      rw [← hmarks]
      simp only [tickDue, Bool.and_eq_true] at hdue
      exact hdue.2
    have hactive : g.active = s.gf.active :=
      (hticked.frame Gf.active rfl).trans (congrArg Marks.active hmarks)
    have hrunning : g.kernelRunning = s.gf.kernelRunning :=
      (hticked.frame Gf.kernelRunning rfl).trans (congrArg Marks.kernelRunning hmarks)
    refine .builds hround rfl hlive ?_ ?_ hlast ?_ ?_
    · rw [← hmarks]
      exact hticked.frame
        (fun r => { r.marks with kernelRunning := true, lastLit := g.lastLit, shipped := g.shipped }) rfl
    · exact congrArg (! ·) hrunning
    · rw [hactive]
    · exact landed_same (congrArg Kernel.ring hkernel)
  · exact .finishes hround rfl hmarks (landed_same (congrArg Kernel.ring hkernel))

theorem darkPad_ring (ok : Bool) (s : State) :
    (darkPad ok s).kernel.ring = s.kernel.ring ++ padBytes true ok s := by
  simp only [darkPad, padBytes, Bool.true_and]
  split
  · rfl
  · exact (List.append_nil _).symm

theorem gateEdge_marks (gate : Bool) (g : Gf) : (gateEdge gate g).marks = g.marks := by
  simp only [gateEdge]
  split_ifs <;> rfl

theorem pollHold_course (e : Env) (s : State) :
    (pollHold e s).gf.marks = s.gf.marks ∧ (pollHold e s).kernel = s.kernel := by
  simp only [pollHold]
  split_ifs <;> exact ⟨rfl, rfl⟩

/-- The end of a stream that has nothing left to ship. -/
theorem endStream_course (e : Env) {s : State} (hover : s.gf.marks.live = false) :
    (endStream e s).gf.marks = { s.gf.marks with
        kernelRunning := false, lastLit := s.gf.lastLit && !s.gf.kernelRunning
        produced := (endStream e s).gf.produced, shipped := (endStream e s).gf.shipped } ∧
      (endStream e s).gf.marks.live = false ∧
      (endStream e s).kernel.ring =
        s.kernel.ring ++ padBytes (s.gf.kernelRunning && s.gf.lastLit) e.ok s := by
  cases hrunning : s.gf.kernelRunning with
  | false =>
    have hsame : endStream e s = s := by simp [endStream, hrunning]
    rw [hsame]
    refine ⟨?_, hover, (List.append_nil _).symm⟩
    simp [Gf.marks, hrunning]
  | true =>
    have hring : ∀ u : State, (endRun e.now u).kernel.ring = u.kernel.ring := by
      intro u
      simp only [endRun]
      split <;> rfl
    have hidle : s.gf.streaming = false := by
      simp only [Marks.live, Bool.or_eq_false_iff] at hover
      exact hover.1
    simp only [endStream, hrunning, if_true, endPad]
    cases hlit : s.gf.lastLit with
    | false => exact ⟨by simp [endRun, Gf.marks, ditherReset, hlit], hover, (List.append_nil _).symm ▸ hring s⟩
    | true =>
      refine ⟨by simp [endRun, darkPad, Gf.marks, ditherReset], ?_, ?_⟩
      · simp [endRun, darkPad, Gf.marks, ditherReset, Marks.live, hidle]
      · rw [if_pos rfl, hring]
        exact darkPad_ring e.ok s

theorem padBytes_congr {s u : State} (hmarks : u.gf.marks = s.gf.marks) (hkernel : u.kernel = s.kernel)
    (due ok : Bool) : padBytes due ok u = padBytes due ok s := by
  have hactive : u.gf.active = s.gf.active := congrArg Marks.active hmarks
  have hopen : u.gf.fdOpen = s.gf.fdOpen := congrArg Marks.fdOpen hmarks
  rw [padBytes, padBytes, padLands, padLands, canTake, canTake, hactive, hopen, hkernel]

theorem ended_course (e : Env) {s u : State} (hsite : s.pc.site = .sampled)
    (hmarks : u.gf.marks = s.gf.marks) (hkernel : u.kernel = s.kernel)
    (hover : u.gf.marks.live = false) :
    Course e s { pollHold e (endStream e u) with pc := .check } := by
  obtain ⟨hend, hlive, hring⟩ := endStream_course e hover
  obtain ⟨hpoll, hpolled⟩ := pollHold_course e (endStream e u)
  have hlit : u.gf.lastLit = s.gf.lastLit := congrArg Marks.lastLit hmarks
  have hrunning : u.gf.kernelRunning = s.gf.kernelRunning := congrArg Marks.kernelRunning hmarks
  have hproduced : (pollHold e (endStream e u)).gf.produced = (endStream e u).gf.produced :=
    congrArg Marks.produced hpoll
  have hshipped : (pollHold e (endStream e u)).gf.shipped = (endStream e u).gf.shipped :=
    congrArg Marks.shipped hpoll
  refine .ends hsite rfl (hmarks ▸ hover) ?_ ?_ (landed_append ?_)
  · rw [← hmarks, ← hlit, ← hrunning, hproduced, hshipped]
    exact hpoll.trans hend
  · exact hpoll ▸ hlive
  · rw [hpolled, hring, hkernel, hlit, hrunning, padBytes_congr hmarks hkernel]

theorem shipBody_course (e : Env) {gate : Bool} {s : State} (hsite : s.pc.site = .sampled) :
    Course e s (shipBody e gate s) := by
  have hedge := gateEdge_marks gate s.gf
  simp only [shipBody, shipGated]
  split
  · next hover =>
    refine ended_course e (u := { s with gf := gateEdge gate s.gf }) hsite hedge rfl ?_
    simp only [Bool.and_eq_true, Bool.not_eq_true', beq_iff_eq] at hover
    have hnone : ¬(gateEdge gate s.gf).shipped < (gateEdge gate s.gf).produced := by omega
    simp only [Marks.live, Gf.marks, hover.1, hnone]
    rfl
  · split
    · exact .holds hsite rfl hedge (landed_same rfl)
    · exact shipLoop_course (u := anchor e.now { s with gf := gateEdge gate s.gf }) (.first hsite) hedge rfl

theorem pendingSnapshot_course (e : Env) {s : State} (hsite : s.pc.site = .top) :
    Course e s (pendingSnapshot e s) := by
  have hnext : ∀ g : Gf, (pendingNext g).site = if g.clearPending then .clearing else .gap := by
    intro g
    cases hclear : g.clearPending with
    | true =>
      simp only [pendingNext, hclear]
      split_ifs <;> first | rfl | contradiction
    | false =>
      simp only [pendingNext, hclear]
      split_ifs <;> first | rfl | simp_all
  simp only [pendingSnapshot, resetPad]
  split
  · next hpad =>
    simp only [Bool.and_eq_true] at hpad
    refine .snapshot hsite (hnext _) ?_ (landed_append ?_)
    · simp [darkPad, Gf.marks, hpad.1, hpad.2]
    · rw [show (s.gf.clearPending && s.gf.lastLit) = true from by simp [hpad.1, hpad.2]]
      exact darkPad_ring e.ok { s with gf := { s.gf with runPending := keepsRun s.gf } }
  · next hpad =>
    have hnone : (s.gf.clearPending && s.gf.lastLit) = false := by simpa using hpad
    refine .snapshot hsite (hnext _) ?_ ?_
    · cases hclear : s.gf.clearPending with
      | true =>
        rw [hclear, Bool.true_and] at hnone
        simp [Gf.marks, hclear, hnone]
      | false => simp [Gf.marks, hclear]
    · rw [hnone]
      exact landed_same rfl

theorem shipLock_course (e : Env) {s : State} (hsite : s.pc.site = .gap) : Course e s (shipLock e s) := by
  simp only [shipLock]
  split
  · next hstop =>
    simp only [faultPad]
    split
    · next hpad =>
      have hfailed : s.gf.failed = true := (Bool.and_eq_true_iff.mp hpad).1
      refine .turnsBack hsite rfl hstop ?_ (landed_append ?_)
      · simp [darkPad, Gf.marks, hfailed]
      · rw [hpad]
        exact darkPad_ring e.ok s
    · next hpad =>
      have hnone : (s.gf.failed && s.gf.lastLit) = false := by simpa using hpad
      refine .turnsBack hsite rfl hstop ?_ ?_
      · cases hfailed : s.gf.failed with
        | true =>
          rw [hfailed, Bool.true_and] at hnone
          simp [Gf.marks, hfailed, hnone]
        | false => simp [Gf.marks, hfailed]
      · rw [hnone]
        exact landed_same rfl
  · next hgo =>
    simp only [Bool.or_eq_true, not_or, Bool.not_eq_true] at hgo
    exact .samples hsite rfl hgo.1 hgo.2 rfl (landed_same rfl)

/-- The tail of a pass keeps the marks, a fault apart. -/
theorem tail_marks {e : Env} {s : State} (htail : s.pc.tail = true) :
    (shipStep e s).gf.marks = { s.gf.marks with failed := (shipStep e s).gf.failed } ∧
      landed s (shipStep e s) = [] := by
  obtain ⟨hgf, hkernel⟩ := shipStep_tail (e := e) htail
  refine ⟨?_, landed_same ?_⟩
  · rw [hgf]
    rfl
  · rw [hkernel]

theorem rest_course (e : Env) {s : State} (htail : s.pc.tail = true) (hsite : s.pc.site = .rest)
    (hsite' : (shipStep e s).pc.site = .rest ∨ (shipStep e s).pc.site = .top) :
    Course e s (shipStep e s) := by
  obtain ⟨hmarks, hland⟩ := tail_marks (e := e) htail
  exact .rests hsite hsite' hmarks (shipStep_failed e s) hland

theorem starting_course (e : Env) {s : State} (htail : s.pc.tail = true) (hsite : s.pc.site = .starting)
    (hfailed : (shipStep e s).gf.failed = s.gf.failed)
    (hsite' : (shipStep e s).pc.site = .starting ∨ (shipStep e s).pc.site = .faulting ∨
      (shipStep e s).pc.site = .rest) : Course e s (shipStep e s) := by
  obtain ⟨hmarks, hland⟩ := tail_marks (e := e) htail
  refine .starts hsite hsite' ?_ hland
  rw [hmarks, hfailed]
  rfl

/-- The run's gate and its request. -/
theorem starts_course (e : Env) {s : State} (hsite : s.pc.site = .starting) :
    Course e s (shipStep e s) := by
  cases hpc : s.pc with (rw [hpc] at hsite)
  | gateState base written =>
    refine starting_course e (by rw [hpc]; rfl) (by rw [hpc]; rfl) ?_ ?_ <;>
      simp only [shipStep, hpc, runGateState]
    split <;> simp [ShipPc.site]
  | gateCounts base written =>
    refine starting_course e (by rw [hpc]; rfl) (by rw [hpc]; rfl) ?_ ?_ <;>
      simp only [shipStep, hpc, runGateCounts]
    split <;> simp [ShipPc.site]
  | runLatch =>
    refine starting_course e (by rw [hpc]; rfl) (by rw [hpc]; rfl) ?_ ?_ <;>
      simp only [shipStep, hpc, issueRelight]
    · split_ifs <;> rfl
    · split_ifs <;> simp [ShipPc.site]
  | runWrite relight retried =>
    refine starting_course e (by rw [hpc]; rfl) (by rw [hpc]; rfl) ?_ ?_ <;>
      simp only [shipStep, hpc, issueWrite]
    split <;> simp [ShipPc.site]
  | runState relight retried noData =>
    refine starting_course e (by rw [hpc]; rfl) (by rw [hpc]; rfl) ?_ ?_ <;>
      simp only [shipStep, hpc, issueState]
    split
    case h_1 => split <;> simp [ShipPc.site]
    case h_3 => split <;> simp [ShipPc.site]
    all_goals simp [ShipPc.site]
  | runStop relight =>
    refine starting_course e (by rw [hpc]; rfl) (by rw [hpc]; rfl) ?_ ?_ <;>
      simp only [shipStep, hpc]
    exact .inl rfl
  | pendState clear zeros => cases clear <;> cases hsite
  | raise next => cases next <;> cases hsite
  | _ => cases hsite

/-- The stretches in which only a fault is made, and the checks. -/
theorem rests_course (e : Env) {s : State} (hsite : s.pc.site = .rest) : Course e s (shipStep e s) := by
  cases hpc : s.pc with (rw [hpc] at hsite)
  | gateFault =>
    refine rest_course e (by rw [hpc]; rfl) (by rw [hpc]; rfl) ?_
    simp only [shipStep, hpc, exchangeFailed]
    split <;> exact .inl rfl
  | runEnd relight rc =>
    refine rest_course e (by rw [hpc]; rfl) (by rw [hpc]; rfl) ?_
    simp only [shipStep, hpc, issueEnd]
    split <;> exact .inl rfl
  | latchFault =>
    refine rest_course e (by rw [hpc]; rfl) (by rw [hpc]; rfl) ?_
    simp only [shipStep, hpc, latchFaultRecord]
    split <;> exact .inl rfl
  | latchFail =>
    refine rest_course e (by rw [hpc]; rfl) (by rw [hpc]; rfl) ?_
    simp only [shipStep, hpc]
    exact .inl rfl
  | runRc rc =>
    refine rest_course e (by rw [hpc]; rfl) (by rw [hpc]; rfl) ?_
    simp only [shipStep, hpc, shipRc, exchangeFailed]
    split_ifs <;> exact .inl rfl
  | check =>
    refine rest_course e (by rw [hpc]; rfl) (by rw [hpc]; rfl) ?_
    simp only [shipStep, hpc, checkSnapshot]
    split <;> simp [ShipPc.site]
  | checkState =>
    refine rest_course e (by rw [hpc]; rfl) (by rw [hpc]; rfl) ?_
    simp only [shipStep, hpc, checkState]
    split <;> simp [ShipPc.site]
  | checkFault =>
    refine rest_course e (by rw [hpc]; rfl) (by rw [hpc]; rfl) ?_
    simp only [shipStep, hpc, exchangeFailed]
    split <;> simp [ShipPc.site, Raised.pc]
  | raise next =>
    cases next with
    | lock => cases hsite
    | _ =>
      refine rest_course e (by rw [hpc]; rfl) (by rw [hpc]; rfl) ?_
      simp only [shipStep, hpc]
      simp [ShipPc.site, Raised.pc]
  | pendState clear zeros => cases clear <;> cases hsite
  | _ => cases hsite

/-- A clear from the kernel's state to its settlement. -/
theorem clearing_course (e : Env) {s : State} (hsite : s.pc.site = .clearing) :
    Course e s (shipStep e s) := by
  cases hpc : s.pc with (rw [hpc] at hsite)
  | pendState clear zeros =>
    cases clear with
    | false => cases hsite
    | true =>
      have hsame : landed s (shipStep e s) = [] ∧ (shipStep e s).gf.marks = s.gf.marks := by
        simp only [shipStep, hpc, pendingState]
        exact ⟨landed_same rfl, trivial⟩
      refine .clears (by rw [hpc]; rfl) ?_ hsame.2 hsame.1
      simp only [shipStep, hpc, pendingState]
      split <;> simp [ShipPc.site]
  | pendSeek zeros =>
    have hsite : s.pc.site = .clearing := by rw [hpc]; rfl
    simp only [shipStep, hpc, pendingSeek]
    split
    · exact .clears hsite (.inl rfl) rfl List.drop_nil
    · exact .clears hsite (.inl rfl) rfl (landed_same rfl)
  | pendCount zeros =>
    have hsite : s.pc.site = .clearing := by rw [hpc]; rfl
    simp only [shipStep, hpc, pendingCount]
    exact .clears hsite (.inl rfl) rfl (landed_same rfl)
  | pendDone cleared counts zeros =>
    have hsite : s.pc.site = .clearing := by rw [hpc]; rfl
    simp only [shipStep, hpc]
    refine .settles hsite rfl ?_ (landed_same rfl)
    exact (pendingDone_settled cleared counts zeros s).frame
      (fun g => { g.marks with clearPending := false, kernelRunning := false }) rfl
  | raise next => cases next <;> cases hsite
  | _ => cases hsite

/-- Between `pending_pass` and the lock. -/
theorem gap_course (e : Env) {s : State} (hsite : s.pc.site = .gap) : Course e s (shipStep e s) := by
  cases hpc : s.pc with (rw [hpc] at hsite)
  | pendState clear zeros =>
    cases clear with
    | true => cases hsite
    | false =>
      have hsame : landed s (shipStep e s) = [] ∧ (shipStep e s).gf.marks = s.gf.marks := by
        simp only [shipStep, hpc, pendingState]
        exact ⟨landed_same rfl, trivial⟩
      have hfailed : (shipStep e s).gf.failed = s.gf.failed := congrArg Marks.failed hsame.2
      refine .waits (by rw [hpc]; rfl) ?_ ?_ (fun h => hfailed.trans h) hsame.1
      · simp only [shipStep, hpc, pendingState]
        split <;> rfl
      · rw [hfailed, hsame.2]
        rfl
  | pendOurs =>
    have hsite : s.pc.site = .gap := by rw [hpc]; rfl
    simp only [shipStep, hpc, pendingOurs]
    split
    · refine .waits hsite ?_ rfl (fun _ => rfl) (landed_same rfl)
      cases s.gf.failed <;> rfl
    · exact .waits hsite rfl rfl id (landed_same rfl)
  | lock =>
    have hsite : s.pc.site = .gap := by rw [hpc]; rfl
    simp only [shipStep, hpc]
    exact shipLock_course e hsite
  | raise next =>
    cases next with
    | lock =>
      have hsite : s.pc.site = .gap := by rw [hpc]; rfl
      simp only [shipStep, hpc]
      exact .waits hsite rfl rfl id (landed_same rfl)
    | _ => cases hsite
  | _ => cases hsite

/-- A chunk's write, and the next round or the end of the rounds. -/
theorem pass_course (e : Env) {s : State} (hpass : s.pc.inPass = true) : Course e s (shipStep e s) := by
  cases hpc : s.pc with (rw [hpc] at hpass)
  | sampled gate =>
    have hsite : s.pc.site = .sampled := by rw [hpc]; rfl
    simp only [shipStep, hpc]
    exact shipBody_course e hsite
  | writing p c rest =>
    have hsite : s.pc.site = .writing p c rest := by rw [hpc]; rfl
    simp only [shipStep, hpc, shipWrite]
    split
    · exact .written hsite rfl rfl (landed_same rfl)
    · split
      · exact .lands hsite rfl rfl (landed_append rfl)
      · next hno => exact .writeFails hsite (by simpa using hno) rfl rfl (landed_same rfl)
  | wrote p c ok =>
    have hsite : s.pc.site = .wrote p c ok := by rw [hpc]; rfl
    simp only [shipStep, hpc]
    cases ok with
    | false => exact .fails hsite rfl rfl (landed_same rfl)
    | true =>
      simp only [shipWrote, if_true, shipNext]
      split
      · next hstop => exact .breaks hsite hstop rfl rfl (landed_same rfl)
      · next hgo =>
        simp only [chunkLanded, Bool.or_eq_true, not_or, Bool.not_eq_true] at hgo
        exact shipLoop_course (u := chunkLanded c s) (.next hsite hgo.1.1 hgo.1.2 hgo.2) rfl rfl
  | _ => cases hpass

/-- **The course of the shipper.** One walk over the points of the thread, so that no invariant has
to make it again: each case names the passage, the marks behind it and the bytes that it lands. -/
theorem shipStep_course (e : Env) (s : State) : Course e s (shipStep e s) := by
  cases hpc : s.pc with
  | top =>
    have hsite : s.pc.site = .top := by rw [hpc]; rfl
    simp only [shipStep, hpc]
    exact pendingSnapshot_course e hsite
  | pendState clear zeros =>
    cases clear with
    | true => exact clearing_course e (by rw [hpc]; rfl)
    | false => exact gap_course e (by rw [hpc]; rfl)
  | runTest startRun base written =>
    have hsite : s.pc.site = .tested startRun := by rw [hpc]; rfl
    simp only [shipStep, hpc, runTest]
    split
    · next hgo =>
      simp only [Bool.and_eq_true, Bool.not_eq_true'] at hgo
      exact .asks hsite hgo.1.1 hgo.1.2 hgo.2 rfl rfl (landed_same rfl)
    · exact .skips hsite rfl rfl (landed_same rfl)
  | runFault relight stop =>
    have hsite : s.pc.site = .faulting := by rw [hpc]; rfl
    obtain ⟨hmarks, hland⟩ := tail_marks (e := e) (s := s) (by rw [hpc]; rfl)
    have hfailed : (shipStep e s).gf.failed = true := by
      simp only [shipStep, hpc]
      rfl
    refine .faults hsite ?_ ?_ hland
    · simp only [shipStep, hpc, issueFault, exchangeFailed]
      split <;> rfl
    · rw [hmarks, hfailed]
  | raise next =>
    cases next with
    | lock => exact gap_course e (by rw [hpc]; rfl)
    | _ => exact rests_course e (by rw [hpc]; rfl)
  | _ =>
    first
    | exact clearing_course e (by rw [hpc]; rfl)
    | exact gap_course e (by rw [hpc]; rfl)
    | exact pass_course e (by rw [hpc]; rfl)
    | exact starts_course e (by rw [hpc]; rfl)
    | exact rests_course e (by rw [hpc]; rfl)

def Site.inWrite : Site → Bool
  | .writing _ _ _ => true
  | _ => false

/-- The step builds a chunk. -/
def buildsChunk (e : Env) (s : State) : Bool :=
  !s.pc.site.inWrite && (shipStep e s).pc.site.inWrite

/-! ## Chunks and pads

The course read for the bytes: a chunk is begun, handed over byte by byte and ended, and outside of
chunks there are pads. -/

/-- A chunk is under way, up to the test behind its write. -/
def Site.inChunk : Site → Bool
  | .writing _ _ _ | .wrote _ _ _ => true
  | _ => false

/-- What a chunk under way has still to write. -/
def Site.remaining : Site → List UInt8
  | .writing _ _ bs => bs
  | _ => []

theorem Site.inWrite_of_inChunk {site : Site} (h : site.inChunk = false) : site.inWrite = false := by
  cases site with
  | writing p c bs => cases h
  | _ => rfl

/-- A step of the shipper, told by what it does for a chunk: it builds one, one of its bytes
lands, its write is over, or, outside a write, a pad is due or not. -/
inductive Passage (e : Env) (s t : State) : Prop where
  | builds {p : Pass} {c : Chunk} {rest : List UInt8} (hround : RoundFrom s p.startRun)
      (hsite' : t.pc.site = .writing p c rest) (hlive : s.gf.marks.live = true)
      (hmarks : t.gf.marks = { s.gf.marks with
        kernelRunning := true, lastLit := t.gf.lastLit, shipped := t.gf.shipped })
      (hfirst : c.first = !s.gf.kernelRunning) (hlast : lastTick c.bytes = some t.gf.lastLit)
      (hrest : rest = if s.gf.active then c.bytes else []) (hland : landed s t = [])
  | lands {p : Pass} {c : Chunk} {b : UInt8} {rest : List UInt8}
      (hsite : s.pc.site = .writing p c (b :: rest)) (hsite' : t.pc.site = .writing p c rest)
      (hmarks : t.gf.marks = s.gf.marks) (hland : landed s t = [b])
  | closes {p : Pass} {c : Chunk} {ok : Bool} {rest : List UInt8} (hsite : s.pc.site = .writing p c rest)
      (hsite' : t.pc.site = .wrote p c ok) (hdone : ok = true → rest = [])
      (hfails : ok = false → rest ≠ [] ∧ (e.ok && canTake s) = false)
      (hmarks : t.gf.marks = s.gf.marks) (hland : landed s t = [])
  | outside (due : Bool) (hsite : s.pc.site.inWrite = false) (hsite' : t.pc.site.inChunk = false)
      (hlit : t.gf.lastLit = (s.gf.lastLit && !due))
      (hland : landed s t = padBytes (due && s.gf.lastLit) e.ok s)
      (hlive : t.gf.marks.live = true → s.gf.marks.live = true)

theorem RoundFrom.outside {s : State} {startRun : Bool} (h : RoundFrom s startRun) :
    s.pc.site.inWrite = false := by
  cases h with
  | first hsite => rw [hsite]; rfl
  | next hsite => rw [hsite]; rfl

theorem RoundFrom.under {s : State} {startRun : Bool} (h : RoundFrom s startRun) :
    s.pc.site = .sampled ∨ s.pc.site.inChunk = true := by
  cases h with
  | first hsite => exact .inl hsite
  | next hsite => exact .inr (by rw [hsite]; rfl)

/-- A step that owes no pad. -/
theorem Passage.still {e : Env} {s t : State} {m : Marks} (hsite : s.pc.site.inWrite = false)
    (hsite' : t.pc.site.inChunk = false) (hmarks : t.gf.marks = m) (hlit : m.lastLit = s.gf.lastLit)
    (hlive : m.live = s.gf.marks.live) (hland : landed s t = []) : Passage e s t := by
  have hkept : t.gf.lastLit = m.lastLit := congrArg Marks.lastLit hmarks
  refine .outside false hsite hsite' ?_ hland ?_
  · rw [hkept, hlit, Bool.not_false, Bool.and_true]
  · rw [hmarks, hlive]
    exact id

theorem Course.passage {e : Env} {s t : State} (h : Course e s t) : Passage e s t := by
  cases h with
  | builds hround hsite' hlive hmarks hfirst hlast hrest hland =>
    exact .builds hround hsite' hlive hmarks hfirst hlast hrest hland
  | lands hsite hsite' hmarks hland => exact .lands hsite hsite' hmarks hland
  | written hsite hsite' hmarks hland =>
    exact .closes hsite hsite' (fun _ => rfl) (by rintro ⟨⟩) hmarks hland
  | writeFails hsite hno hsite' hmarks hland =>
    exact .closes hsite hsite' (by rintro ⟨⟩) (fun _ => ⟨List.cons_ne_nil _ _, hno⟩) hmarks hland
  | snapshot hsite hsite' hmarks hland =>
    refine .outside s.gf.clearPending (by rw [hsite]; rfl) ?_
      (congrArg Marks.lastLit hmarks) hland ?_
    · rw [hsite']
      split <;> rfl
    · rw [hmarks]
      exact id
  | turnsBack hsite hsite' hstop hmarks hland =>
    refine .outside s.gf.failed (by rw [hsite]; rfl) (by rw [hsite']; rfl)
      (congrArg Marks.lastLit hmarks) hland ?_
    rw [hmarks]
    exact id
  | ends hsite hsite' hover hmarks hover' hland =>
    refine .outside s.gf.kernelRunning (by rw [hsite]; rfl) (by rw [hsite']; rfl)
      (congrArg Marks.lastLit hmarks) hland fun hlive => ?_
    rw [hover'] at hlive
    cases hlive
  | clears hsite hsite' hmarks hland =>
    refine .still (by rw [hsite]; rfl) ?_ hmarks rfl rfl hland
    rcases hsite' with hsite' | hsite' <;> (rw [hsite']; rfl)
  | starts hsite hsite' hmarks hland =>
    refine .still (by rw [hsite]; rfl) ?_ hmarks rfl rfl hland
    rcases hsite' with hsite' | hsite' | hsite' <;> (rw [hsite']; rfl)
  | rests hsite hsite' hmarks hfailed hland =>
    refine .still (by rw [hsite]; rfl) ?_ hmarks rfl rfl hland
    rcases hsite' with hsite' | hsite' <;> (rw [hsite']; rfl)
  | finishes hround hsite' hmarks hland =>
    exact .still hround.outside (by rw [hsite']; rfl) hmarks rfl rfl hland
  | settles hsite hsite' hmarks hland =>
    exact .still (by rw [hsite]; rfl) (by rw [hsite']; rfl) hmarks rfl rfl hland
  | waits hsite hsite' hmarks hfailed hland =>
    exact .still (by rw [hsite]; rfl) (by rw [hsite']; rfl) hmarks rfl rfl hland
  | samples hsite hsite' hfailed hsuspended hmarks hland =>
    exact .still (by rw [hsite]; rfl) (by rw [hsite']; rfl) hmarks rfl rfl hland
  | holds hsite hsite' hmarks hland =>
    exact .still (by rw [hsite]; rfl) (by rw [hsite']; rfl) hmarks rfl rfl hland
  | breaks hsite hstop hsite' hmarks hland =>
    exact .still (by rw [hsite]; rfl) (by rw [hsite']; rfl) hmarks rfl rfl hland
  | fails hsite hsite' hmarks hland =>
    exact .still (by rw [hsite]; rfl) (by rw [hsite']; rfl) hmarks rfl rfl hland
  | asks hsite hstart hactive hfailed hsite' hmarks hland =>
    exact .still (by rw [hsite]; rfl) (by rw [hsite']; rfl) hmarks rfl rfl hland
  | skips hsite hsite' hmarks hland =>
    exact .still (by rw [hsite]; rfl) (by rw [hsite']; rfl) hmarks rfl rfl hland
  | faults hsite hsite' hmarks hland =>
    exact .still (by rw [hsite]; rfl) (by rw [hsite']; rfl) hmarks rfl rfl hland

theorem padBytes_eq (due ok : Bool) (s : State) :
    padBytes due ok s = [] ∨ (padBytes due ok s = [0x00] ∧ due = true) := by
  simp only [padBytes]
  split
  · next hpad => exact .inr ⟨rfl, (Bool.and_eq_true_iff.mp hpad).1⟩
  · exact .inl rfl

/-- A chunk is built in a round that has something to ship. -/
theorem Passage.round {e : Env} {s t : State} (h : Passage e s t) (hbefore : s.pc.site.inWrite = false)
    (hafter : t.pc.site.inWrite = true) :
    (∃ startRun, RoundFrom s startRun) ∧ s.gf.marks.live = true := by
  cases h with
  | builds hround hsite' hlive => exact ⟨⟨_, hround⟩, hlive⟩
  | lands hsite =>
    rw [hsite] at hbefore
    cases hbefore
  | closes hsite =>
    rw [hsite] at hbefore
    cases hbefore
  | outside due hsite hsite' =>
    cases hpc : t.pc.site with (rw [hpc] at hsite' hafter)
    | writing p c rest => cases hsite'
    | _ => cases hafter

/-- The shipper asks for no clear. -/
theorem Course.clearPending {e : Env} {s t : State} (h : Course e s t) (hclear : t.gf.clearPending = true) :
    s.gf.clearPending = true := by
  have hkept : ∀ {m : Marks}, t.gf.marks = m → m.clearPending = s.gf.clearPending →
      s.gf.clearPending = true := by
    intro m hmarks hm
    rw [← hm, ← hmarks]
    exact hclear
  cases h with
  | settles hsite hsite' hmarks =>
    rw [show t.gf.clearPending = false from congrArg Marks.clearPending hmarks] at hclear
    cases hclear
  | snapshot hsite hsite' hmarks => exact hkept hmarks rfl
  | clears hsite hsite' hmarks => exact hkept hmarks rfl
  | starts hsite hsite' hmarks => exact hkept hmarks rfl
  | rests hsite hsite' hmarks => exact hkept hmarks rfl
  | waits hsite hsite' hmarks => exact hkept hmarks rfl
  | turnsBack hsite hsite' hstop hmarks => exact hkept hmarks rfl
  | samples hsite hsite' hfailed hsuspended hmarks => exact hkept hmarks rfl
  | ends hsite hsite' hover hmarks => exact hkept hmarks rfl
  | holds hsite hsite' hmarks => exact hkept hmarks rfl
  | builds hround hsite' hlive hmarks => exact hkept hmarks rfl
  | finishes hround hsite' hmarks => exact hkept hmarks rfl
  | lands hsite hsite' hmarks => exact hkept hmarks rfl
  | written hsite hsite' hmarks => exact hkept hmarks rfl
  | writeFails hsite hno hsite' hmarks => exact hkept hmarks rfl
  | breaks hsite hstop hsite' hmarks => exact hkept hmarks rfl
  | fails hsite hsite' hmarks => exact hkept hmarks rfl
  | asks hsite hstart hactive hfailed hsite' hmarks => exact hkept hmarks rfl
  | skips hsite hsite' hmarks => exact hkept hmarks rfl
  | faults hsite hsite' hmarks => exact hkept hmarks rfl

/-! ## The other threads

The inversion lemma of the other turns, over the same marks. -/

/-- What a step outside the shipper does to the marks. -/
inductive Moved (s : State) (l : Label) (t : State) : Prop where
  | still (hmarks : t.gf.marks = s.gf.marks)
  -- a wakeup of a live stream
  | wakesLive {now : Nat} (hl : l = .locked .wakeup now) (hlive : s.gf.streaming = true)
      (hmarks : t.gf.marks = { s.gf.marks with killed := false })
  -- a wakeup that begins a stream
  | begins {now : Nat} (hl : l = .locked .wakeup now) (hidle : s.gf.streaming = false)
      (hmarks : t.gf.marks = { s.gf.marks with
        killed := false, streaming := true, produced := t.gf.produced, shipped := t.gf.shipped })
  -- an event of a live stream
  | event {c : Call} {now : Nat} (hl : l = .locked c now) (hlive : s.gf.streaming = true)
      (hmarks : t.gf.marks = { s.gf.marks with
        failed := s.gf.failed || c.clamps s || c.overflows s, produced := t.gf.produced })
  | idles {reset : Bool} {stepBits dirBits : UInt8} (hl : l = .goIdle reset stepBits dirBits)
      (hmarks : t.gf.marks = { s.gf.marks with
        streaming := false
        killed := s.gf.killed || (reset && (s.gf.streaming || !s.gf.suspended)) })
  | resets {now : Nat} (hl : l = .reset now) (hafter : s.gf.AfterReset t.gf)
  | suspends {readOk : Bool} (hl : l = .suspend readOk)
      (hdrained : s.gf.active = true → drained s.gf = true)
      (hmarks : t.gf.marks = { s.gf.marks with suspended := true, fdOpen := t.gf.fdOpen })
  -- the null sink's end of a handover
  | resumes {latchOk emptied counted : Bool} (hl : l = .resume latchOk emptied counted)
      (hactive : s.gf.active = false) (hmarks : t.gf.marks = { s.gf.marks with suspended := false })
  | latchFails (hl : l = .proto) (hhead : s.proto.head? = some .latchFail)
      (hmarks : t.gf.marks = { s.gf.marks with failed := true })
  | swaps (hl : l = .proto) (hhead : s.proto.head? = some .resumeSwap)
      (hmarks : t.gf.marks = { s.gf.marks with
        fdOpen := true, suspended := false, streaming := false, kernelRunning := false
        lastLit := false, killed := false, failed := false, produced := 0, shipped := 0 })

theorem laserEventLocked_marks (power : UInt8) (fire : Bool) (s : State) :
    (laserEventLocked power fire s).gf.marks =
      { s.gf.marks with failed := (laserEventLocked power fire s).gf.failed } := by
  simp only [laserEventLocked]
  split_ifs
  · rfl
  · obtain ⟨lev, warned, hrec⟩ := levRecord_frame s.gf.shipped power fire (clampLocked s).2.gf
    rw [hrec]
    rfl
  · obtain ⟨lev, warned, hrec⟩ := levRecord_frame (virtualIndex s.gf) power fire s.gf
    rw [hrec]
    rfl
  · rfl

theorem pulseLocked_marks (b : StepByte) (s : State) :
    (pulseLocked b s).gf.marks = { s.gf.marks with
      failed := (pulseLocked b s).gf.failed, produced := (pulseLocked b s).gf.produced } := by
  rw [pulseLocked_pulsed b s]
  rfl

/-- An event writes no mark but the fault and the end of what is produced. -/
theorem event_marks {c : Call} (hcall : c ≠ .wakeup) (now : Nat) (s : State) :
    (c.locked now s).gf.marks = { s.gf.marks with
      failed := (c.locked now s).gf.failed, produced := (c.locked now s).gf.produced } := by
  have hlaser : ∀ power fire (u : State), u.gf.marks = s.gf.marks →
      (laserEventLocked power fire u).gf.marks = { s.gf.marks with
        failed := (laserEventLocked power fire u).gf.failed
        produced := (laserEventLocked power fire u).gf.produced } := by
    intro power fire u hu
    have h := laserEventLocked_marks power fire u
    have hproduced : (laserEventLocked power fire u).gf.produced = u.gf.produced :=
      congrArg Marks.produced h
    rw [hproduced, show u.gf.produced = s.gf.produced from congrArg Marks.produced hu, h, hu]
    rfl
  cases c with
  | wakeup => exact absurd rfl hcall
  | pulse stepBits dirBits => exact pulseLocked_marks (pulseByte stepBits dirBits) s
  | laser power fire => exact hlaser _ _ _ rfl
  | jog on => exact hlaser _ _ _ rfl

/-- An event of a stream that is not live writes none. -/
theorem event_idle {c : Call} (hcall : c ≠ .wakeup) (now : Nat) {s : State}
    (hidle : s.gf.streaming = false) : (c.locked now s).gf.marks = s.gf.marks := by
  have hlaser : ∀ power fire (u : State), u.gf.streaming = false →
      (laserEventLocked power fire u).gf.marks = u.gf.marks := by
    intro power fire u hu
    simp [laserEventLocked, hu]
  cases c with
  | wakeup => exact absurd rfl hcall
  | pulse stepBits dirBits => simp [Call.locked, pulseLocked, hidle]
  | laser power fire =>
    refine hlaser _ _ _ ?_
    exact hidle
  | jog on =>
    refine hlaser _ _ _ ?_
    exact hidle

theorem wakeupStream_marks (now : Nat) (s : State) :
    (wakeupStream now s).gf.marks = { s.gf.marks with
      streaming := true, produced := (wakeupStream now s).gf.produced
      shipped := (wakeupStream now s).gf.shipped } := by
  simp only [wakeupStream, wakeupAssert, wakeupIndex, wakeupContinue, wakeupFresh]
  split_ifs <;> rfl

theorem locked_moved (c : Call) (now : Nat) (s : State) :
    Moved s (.locked c now) (c.locked now { s with entered := s.entered.erase c }) := by
  by_cases hcall : c = .wakeup
  · subst hcall
    cases hlive : s.gf.streaming with
    | true =>
      refine .wakesLive rfl hlive ?_
      simp [Call.locked, wakeupLocked, hlive, wakeupMark, Gf.marks]
    | false =>
      refine .begins rfl hlive ?_
      simp only [Call.locked, wakeupLocked, hlive, Bool.false_eq_true, if_false]
      exact wakeupStream_marks now _
  · cases hlive : s.gf.streaming with
    | true =>
      refine .event rfl hlive ((event_marks hcall now _).trans ?_)
      rw [(locked_faults c now { s with entered := s.entered.erase c }).failed]
      cases c <;> rfl
    | false => exact .still (event_idle hcall now hlive)

theorem goIdle_moved (reset : Bool) (stepBits dirBits : UInt8) (s : State) :
    Moved s (.goIdle reset stepBits dirBits) (gfStreamGoIdle reset stepBits dirBits s) := by
  refine .idles rfl ?_
  have hdark : ∀ g : Gf, (goIdleEnd g).marks = { g.marks with streaming := false } := by
    intro g
    cases hlive : g.streaming with
    | false => simp [goIdleEnd, hlive, Gf.marks]
    | true =>
      simp only [goIdleEnd, hlive, if_true, goIdleDark]
      split
      · split
        · split_ifs <;> rfl
        · rfl
      · rfl
  refine (hdark _).trans ?_
  simp only [goIdleMark]
  split
  · next hmark => simp [Gf.marks, hmark]
  · next hmark =>
    have hmark : (reset && (s.gf.streaming || !s.gf.suspended)) = false := by simpa using hmark
    simp [Gf.marks, hmark]

theorem suspend_moved (readOk : Bool) (s : State) :
    Moved s (.suspend readOk) (gfStreamSuspend readOk s) := by
  simp only [gfStreamSuspend]
  split
  · next hnull =>
    have hactive : s.gf.active = false := by simpa using hnull
    refine .suspends rfl ?_ rfl
    rw [hactive]
    rintro ⟨⟩
  · split
    · next hidle =>
      simp only [Bool.and_eq_true] at hidle
      split <;> exact .suspends rfl (fun _ => hidle.1.1) rfl
    · exact .still rfl

theorem resume_moved (latchOk emptied counted : Bool) (s : State) :
    Moved s (.resume latchOk emptied counted) (gfStreamResume latchOk emptied counted s) := by
  simp only [gfStreamResume]
  split
  · next hnull => exact .resumes rfl (by simpa using hnull) rfl
  · refine .still ?_
    simp only [rebaseAtTakeover]
    split <;> rfl

theorem proto_moved {s t : State} (hturn : turn s .proto = some t) : Moved s .proto t := by
  obtain ⟨o, rest, hp⟩ := proto_owes hturn
  simp only [turn, protoStep] at hturn
  rw [hp] at hturn
  have hhead : s.proto.head? = some o := by rw [hp]; rfl
  cases o with
  | latchFail =>
    cases hturn
    exact .latchFails rfl hhead rfl
  | resumeSwap =>
    cases hturn
    exact .swaps rfl hhead rfl
  | _ =>
    cases hturn
    exact .still rfl

/-- **What the other threads do** to the marks: a call under the lock, the end of a cycle, a reset,
the two halves of a handover, or nothing. -/
theorem turn_moved {s t : State} {l : Label} (hturn : turn s l = some t) (hship : ∀ e, l ≠ .ship e) :
    Moved s l t := by
  cases l with
  | ship e => exact absurd rfl (hship e)
  | locked c now =>
    cases hturn
    exact locked_moved c now s
  | goIdle reset stepBits dirBits =>
    cases hturn
    exact goIdle_moved reset stepBits dirBits s
  | reset now =>
    cases hturn
    exact .resets rfl (resetLocked_after now s.gf)
  | suspend readOk =>
    cases hturn
    exact suspend_moved readOk s
  | resume latchOk emptied counted =>
    cases hturn
    exact resume_moved latchOk emptied counted s
  | proto => exact proto_moved hturn
  | kernel a =>
    obtain ⟨k, -, rfl⟩ := Option.map_eq_some_iff.mp hturn
    exact .still rfl
  | enter c =>
    cases hturn
    refine .still ?_
    simp only [enter]
    split <;> rfl
  | laserModel p m =>
    cases hturn
    obtain ⟨power, period, least, hmodel⟩ := laserModel_frame p m s.gf
    refine .still ?_
    rw [hmodel]
    rfl
  | readback expired =>
    cases hturn
    refine .still ?_
    simp only [gfStreamReadback]
    split <;> rfl
  | clearPosition ok =>
    cases hturn
    refine .still ?_
    simp only [gfStreamClearPosition]
    split_ifs <;> rfl
  | _ =>
    cases hturn
    exact .still rfl

end Glowforge.Stream
