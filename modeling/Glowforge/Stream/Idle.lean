import Glowforge.Stream.Frame

/-!
# Glowforge — what an idle reading means

The M-code announcement, the tray switch, the counter zero of a manual home and the motor
release wait for `gf_stream_kernel_idle` and take it for the end of the motion. The reading is
of the kernel alone; the steps can still be in the ring of this process, or in the kernel's
ring ahead of their run:

* **`awaitsRun`** — the history bit of such a stream: it has begun, and neither has the kernel
  accepted a run since nor has a pass found the stream over.
* **`IdleInv`** — what the threads keep meanwhile: one clause per phase of the shipper.
* **`idle_means_played`** — outside that interval an idle reading means that everything
  accepted has been played.
* **`idle_before_first_pass`** — inside it a cycle that ends before the shipper's first pass
  reads idle with its step unplayed.
-/

namespace Glowforge.Stream

/-! ## Runs of cycles

The history of one stream: begun, its run accepted, found over. -/

/-- The labels of a run of cycles: no reset, no handover, and no other writer of the kernel's
attributes. -/
def ownKernel : Label → Bool
  | .reset _ | .suspend _ | .resume _ _ _ | .foreign _ => false
  | .kernel .foreignStop | .kernel .foreignDisable => false
  | _ => true

/-- The test with which `ship_pass` finds a stream over. -/
def streamOver (g : Gf) : Bool := !g.streaming && g.produced - g.shipped == 0

/-- A stream has begun, and still awaits its run: a wakeup sets the bit, and an accepted run
or the pass that ends the stream clears it. -/
def awaitsRun (s : State) (l : Label) (waits : Bool) : Bool :=
  match l with
  | .locked .wakeup _ => waits || !s.gf.streaming
  | .ship e =>
    match s.pc with
    | .runWrite _ _ => waits && s.kernel.runReply e.ok != .accepted
    | .sampled _ => waits && !streamOver s.gf
    | _ => waits
  | _ => waits

/-! ## The phases of the shipper

The program counter by what an idle reading would mean there. -/

inductive Phase where
  -- No chunk is in flight and no run is being asked for.
  | rest
  -- A chunk of a stream that the kernel plays.
  | going
  -- The first chunks of a stream, up to the kernel's answer to its run.
  | starting
  -- Nowhere: a clear, or the alarm of a fault.
  | never

def ShipPc.phase : ShipPc → Phase
  | .writing p c _ | .wrote p c _ => if p.startRun || c.first then .starting else .going
  | .runTest startRun _ _ => if startRun then .starting else .rest
  | .gateState _ _ | .gateCounts _ _ | .gateFault | .runLatch | .runWrite _ _ | .runState _ _ _
  | .runStop _ | .runFault _ _ | .latchFault | .latchFail => .starting
  | .runEnd _ rc | .runRc rc =>
    if rc = 0 ∨ rc = 1 then .rest else if rc = 2 then .starting else .never
  | .pendState clear _ => if clear then .never else .rest
  | .pendSeek _ | .pendCount _ | .pendDone _ _ _ | .raise _ => .never
  | _ => .rest

/-- What a phase says of the kernel. At rest an idle kernel has played its ring out; a chunk
that goes to no run start goes to a kernel that is not idle. -/
def Phase.Holds (waits : Bool) (s : State) : Phase → Prop
  | .rest => s.kernel.state = .idle → s.kernel.ring = [] ∧ s.gf.kernelRunning = false
  | .going => s.gf.kernelRunning = true ∧ s.kernel.state ≠ .idle
  | .starting => s.gf.kernelRunning = true ∧ waits = true
  | .never => False

/-- The stream has faulted, or the call on the protocol thread is about to fault it. -/
def Doomed (s : State) : Prop := s.gf.failed = true ∨ .latchFail ∈ s.proto

/-- **The invariant** of a stream that has not faulted. -/
structure IdleInv (waits : Bool) (s : State) : Prop where
  active : s.gf.active = true
  here : s.gf.suspended = false
  clear : s.gf.clearPending = false
  live : s.gf.streaming = true ∨ s.gf.shipped < s.gf.produced ∨ s.gf.kernelRunning = true →
    s.kernel.live = true
  ramp : s.kernel.state = .running → s.kernel.stopping = false
  owed : ∀ o ∈ s.proto, o = .latchFault ∨ o = .raise
  reported : s.latchFailReported = true → s.pc = .latchFail
  begun : s.gf.kernelRunning = false → s.gf.streaming = true ∨ s.gf.shipped < s.gf.produced →
    waits = true
  phase : s.pc.phase.Holds waits s
  stop : ∀ relight, s.pc = .runStop relight → s.kernel.state ≠ .running

/-- An idle kernel outside the interval has played everything. -/
theorem IdleInv.played {s : State} (h : IdleInv false s) (hidle : s.kernel.state = .idle) :
    s.gf.produced ≤ s.gf.shipped ∧ s.kernel.ring = [] ∧ s.pc.phase ≠ .going ∧
      s.pc.phase ≠ .starting := by
  have hphase := h.phase
  cases hp : s.pc.phase with
  | rest =>
    rw [hp] at hphase
    obtain ⟨hring, hrunning⟩ := hphase hidle
    refine ⟨?_, hring, by rintro ⟨⟩, by rintro ⟨⟩⟩
    by_contra hlt
    exact absurd (h.begun hrunning (.inr (by omega))) (by decide)
  | going =>
    rw [hp] at hphase
    exact absurd hidle hphase.2
  | starting =>
    rw [hp] at hphase
    cases hphase.2
  | never =>
    rw [hp] at hphase
    exact hphase.elim

/-! ## The shipper

Each phase to the next, with what has been accepted, shipped and played. -/

/-- What the invariant reads beside the program counter and the latch's report. -/
structure IdleView where
  active : Bool
  suspended : Bool
  clearPending : Bool
  streaming : Bool
  shipped : Nat
  produced : Nat
  kernelRunning : Bool
  state : KernelState
  live : Bool
  stopping : Bool
  ring : List UInt8
  proto : List Owed

def State.idleView (s : State) : IdleView where
  active := s.gf.active
  suspended := s.gf.suspended
  clearPending := s.gf.clearPending
  streaming := s.gf.streaming
  shipped := s.gf.shipped
  produced := s.gf.produced
  kernelRunning := s.gf.kernelRunning
  state := s.kernel.state
  live := s.kernel.live
  stopping := s.kernel.stopping
  ring := s.kernel.ring
  proto := s.proto

theorem Phase.holds_view {waits : Bool} {s t : State} {p : Phase} (hview : t.idleView = s.idleView)
    (h : p.Holds waits s) : p.Holds waits t := by
  have hstate : t.kernel.state = s.kernel.state := congrArg IdleView.state hview
  have hring : t.kernel.ring = s.kernel.ring := congrArg IdleView.ring hview
  have hrunning : t.gf.kernelRunning = s.gf.kernelRunning := congrArg IdleView.kernelRunning hview
  cases p <;> simp only [Phase.Holds, hstate, hring, hrunning] at h ⊢ <;> exact h

/-- A step that only moves the program counter keeps the invariant, if the phase it comes to
holds. -/
theorem IdleInv.move {waits : Bool} {s t : State} (h : IdleInv waits s)
    (hview : t.idleView = s.idleView) (hphase : t.pc.phase.Holds waits s)
    (hreported : t.latchFailReported = true → t.pc = .latchFail)
    (hstop : ∀ relight, t.pc = .runStop relight → s.kernel.state ≠ .running) :
    IdleInv waits t := by
  have hstate : t.kernel.state = s.kernel.state := congrArg IdleView.state hview
  have hlive : t.kernel.live = s.kernel.live := congrArg IdleView.live hview
  have hstopping : t.kernel.stopping = s.kernel.stopping := congrArg IdleView.stopping hview
  have hrunning : t.gf.kernelRunning = s.gf.kernelRunning := congrArg IdleView.kernelRunning hview
  have hstream : t.gf.streaming = s.gf.streaming := congrArg IdleView.streaming hview
  have hshipped : t.gf.shipped = s.gf.shipped := congrArg IdleView.shipped hview
  have hproduced : t.gf.produced = s.gf.produced := congrArg IdleView.produced hview
  exact {
    active := (congrArg IdleView.active hview).trans h.active
    here := (congrArg IdleView.suspended hview).trans h.here
    clear := (congrArg IdleView.clearPending hview).trans h.clear
    live := by rw [hstream, hshipped, hproduced, hrunning, hlive]; exact h.live
    ramp := by rw [hstate, hstopping]; exact h.ramp
    owed := by rw [show t.proto = s.proto from congrArg IdleView.proto hview]; exact h.owed
    reported := hreported
    begun := by rw [hstream, hshipped, hproduced, hrunning]; exact h.begun
    phase := Phase.holds_view hview hphase
    stop := by rw [hstate]; exact hstop }

theorem tickDue_left {due : Nat} {g : Gf} (h : tickDue due g.streaming g = true) :
    g.streaming = true ∨ g.shipped < g.produced := by
  simp only [tickDue, Bool.and_eq_true, Bool.or_eq_true, decide_eq_true_eq] at h
  exact h.2

/-- A round of the tick loop: it ends the pass, or its chunk is the kernel's. The first chunk
of a stream goes to a run start. -/
theorem shipLoop_idle {waits : Bool} {s : State} {p : Pass} (h : IdleInv waits s)
    (hreported : s.latchFailReported = false)
    (hphase : (if p.startRun then Phase.starting else Phase.rest).Holds waits s) :
    IdleInv waits (shipLoop p s.gf.streaming s) := by
  have hnot : ∀ pc, s.latchFailReported = true → pc = ShipPc.latchFail := by
    intro pc hr
    rw [hreported] at hr
    cases hr
  simp only [shipLoop]
  split
  · next hdue =>
    have hleft := tickDue_left hdue
    have hticked := buildTicks_ticked p.gate p.due s.gf.streaming shipChunk s.gf []
    generalize buildTicks p.gate p.due s.gf.streaming shipChunk s.gf [] = r at hticked
    have hrunning : r.1.kernelRunning = s.gf.kernelRunning := hticked.frame Gf.kernelRunning rfl
    exact {
      active := (hticked.frame Gf.active rfl).trans h.active
      here := (hticked.frame Gf.suspended rfl).trans h.here
      clear := (hticked.frame Gf.clearPending rfl).trans h.clear
      live := fun _ => h.live (hleft.elim .inl (.inr ∘ .inl))
      ramp := h.ramp
      owed := h.owed
      reported := hnot _
      begun := by rintro ⟨⟩
      stop := by rintro _ ⟨⟩
      phase := by
        change Phase.Holds waits _ (if p.startRun || !r.1.kernelRunning then .starting else .going)
        rw [hrunning]
        cases hs : p.startRun with
        | true =>
          rw [hs] at hphase
          exact ⟨rfl, hphase.2⟩
        | false =>
          rw [hs] at hphase
          cases hk : s.gf.kernelRunning with
          | false => exact ⟨rfl, h.begun hk hleft⟩
          | true =>
            refine ⟨rfl, fun hidle => ?_⟩
            have hstopped := (hphase hidle).2
            rw [hk] at hstopped
            cases hstopped }
  · exact h.move rfl hphase (hnot _) (by rintro _ ⟨⟩)

theorem gateEdge_idleView (gate : Bool) (s : State) :
    State.idleView { s with gf := gateEdge gate s.gf } = s.idleView := by
  simp only [gateEdge]
  split_ifs <;> rfl

theorem pollHold_idleView (e : Env) (s : State) : (pollHold e s).idleView = s.idleView := by
  simp only [pollHold]
  split_ifs <;> rfl

/-- What the end of a stream leaves of the record and the kernel. -/
structure Ended (s t : State) : Prop where
  clear : t.gf.clearPending = s.gf.clearPending
  left : t.gf.produced ≤ t.gf.shipped
  running : t.gf.kernelRunning = false
  state : t.kernel.state = s.kernel.state
  stopping : t.kernel.stopping = s.kernel.stopping
  ring : s.gf.kernelRunning = false → t.kernel.ring = s.kernel.ring
  reported : t.latchFailReported = s.latchFailReported

theorem endStream_ended {e : Env} {s : State} (hleft : s.gf.produced ≤ s.gf.shipped) :
    Ended s (endStream e s) := by
  simp only [endStream]
  split
  · next hrunning =>
    have hring : s.gf.kernelRunning = false → False := by
      rw [hrunning]
      rintro ⟨⟩
    simp only [endRun, endPad, darkPad]
    constructor <;> split_ifs <;>
      first | rfl | exact hleft | exact le_refl _ | exact fun h => (hring h).elim
  · next hrunning =>
    exact ⟨rfl, hleft, Bool.not_eq_true _ ▸ hrunning, rfl, rfl, fun _ => rfl, rfl⟩

/-- The pass that finds the stream over: nothing is left to play but what the kernel has. -/
theorem endStream_idle {waits : Bool} {e : Env} {s : State} (h : IdleInv waits s)
    (hover : streamOver s.gf = true) (hrest : Phase.rest.Holds waits s)
    (hreported : s.latchFailReported = false) :
    IdleInv false { endStream e s with pc := .check } := by
  simp only [streamOver, Bool.and_eq_true, Bool.not_eq_true', beq_iff_eq] at hover
  obtain ⟨hstream, hleft⟩ := hover
  have hend : Ended s (endStream e s) := endStream_ended (by omega)
  have hquiet : (endStream e s).quiet = s.quiet := by
    simp only [endStream, endPad]
    split_ifs <;> rfl
  have hover : (endStream e s).gf.streaming = true ∨
      (endStream e s).gf.shipped < (endStream e s).gf.produced → False := by
    have hst : (endStream e s).gf.streaming = s.gf.streaming :=
      congrArg (QuietGf.streaming ∘ Quiet.gf) hquiet
    rw [hst, hstream]
    rintro (hs | hs)
    · cases hs
    · exact absurd hend.left (by omega)
  exact {
    active := (congrArg (QuietGf.active ∘ Quiet.gf) hquiet).trans h.active
    here := (congrArg (QuietGf.suspended ∘ Quiet.gf) hquiet).trans h.here
    clear := hend.clear.trans h.clear
    live := by
      rintro (hs | hs | hs)
      · exact (hover (.inl hs)).elim
      · exact (hover (.inr hs)).elim
      · exact absurd (hend.running.symm.trans hs) (by decide)
    ramp := by
      change (endStream e s).kernel.state = _ → (endStream e s).kernel.stopping = _
      rw [hend.state, hend.stopping]
      exact h.ramp
    owed := by
      change ∀ o ∈ (endStream e s).proto, _
      rw [show (endStream e s).proto = s.proto from congrArg Quiet.proto hquiet]
      exact h.owed
    reported := fun hr => absurd ((hend.reported.trans hreported).symm.trans hr) (by decide)
    begun := fun _ hs => (hover hs).elim
    phase := by
      intro hidle
      obtain ⟨hring, hstopped⟩ := hrest (hend.state.symm.trans hidle)
      exact ⟨(hend.ring hstopped).trans hring, hend.running⟩
    stop := by rintro _ ⟨⟩ }

theorem shipBody_idle {waits : Bool} {e : Env} {gate : Bool} {s : State} (h : IdleInv waits s)
    (hpc : s.pc = .sampled gate) :
    IdleInv (waits && !streamOver s.gf) (shipBody e gate s) := by
  have hreported : s.latchFailReported = false := by
    rw [← Bool.not_eq_true]
    intro hr
    exact absurd (hpc.symm.trans (h.reported hr)) (by rintro ⟨⟩)
  have hrest : Phase.rest.Holds waits s := by
    have hphase := h.phase
    rw [hpc] at hphase
    exact hphase
  have hedge : IdleInv waits { s with gf := gateEdge gate s.gf } :=
    h.move (gateEdge_idleView gate s) h.phase h.reported h.stop
  have hover : streamOver (gateEdge gate s.gf) = streamOver s.gf :=
    congrArg (fun v : IdleView => !v.streaming && v.produced - v.shipped == 0)
      (gateEdge_idleView gate s)
  simp only [shipBody, shipGated]
  split
  · next hov =>
    have hov' : streamOver s.gf = true := hover.symm.trans hov
    rw [hov', Bool.not_true, Bool.and_false]
    have hhold : ∀ u, (pollHold e u).latchFailReported = u.latchFailReported := by
      intro u
      simp only [pollHold]
      split_ifs <;> rfl
    have hend := endStream_idle (e := e) hedge hov
      (Phase.holds_view (gateEdge_idleView gate s) hrest) hreported
    generalize endStream e { s with gf := gateEdge gate s.gf } = u at hend ⊢
    exact hend.move (pollHold_idleView e u) hend.phase
      (fun hr => hend.reported ((hhold u).symm.trans hr)) (by rintro _ ⟨⟩)
  · next hov =>
    have hov' : streamOver s.gf = false := by
      rw [← hover]
      exact Bool.not_eq_true _ ▸ hov
    rw [hov', Bool.not_false, Bool.and_true]
    split
    · exact hedge.move rfl (Phase.holds_view (gateEdge_idleView gate s) hrest)
        (fun hr => absurd (hreported.symm.trans hr) (by decide)) (by rintro _ ⟨⟩)
    · have hanchor : IdleInv waits (anchor e.now { s with gf := gateEdge gate s.gf }) :=
        hedge.move rfl hedge.phase h.reported h.stop
      exact shipLoop_idle (p := ⟨gate, dueIndex e.later _, false⟩) hanchor hreported
        (Phase.holds_view (gateEdge_idleView gate s) hrest)

theorem Phase.rest_of_ne_idle {waits : Bool} {s : State} (h : s.kernel.state ≠ .idle) :
    Phase.rest.Holds waits s := fun hidle => absurd hidle h

/-- A byte of a chunk lands in the kernel's ring. -/
theorem take_idle {waits : Bool} {s : State} {p : Pass} {c : Chunk} {b : UInt8} {rest : List UInt8}
    (h : IdleInv waits s) (hpc : s.pc = .writing p c (b :: rest)) :
    IdleInv waits { s with kernel := s.kernel.take b, pc := .writing p c rest } := by
  have hphase := h.phase
  rw [hpc] at hphase
  refine ⟨h.active, h.here, h.clear, h.live, h.ramp, h.owed, ?_, h.begun, ?_, by rintro _ ⟨⟩⟩
  · exact fun hr => absurd (hpc.symm.trans (h.reported hr)) (by rintro ⟨⟩)
  · simp only [ShipPc.phase] at hphase ⊢
    split at hphase
    · next hfirst =>
      rw [if_pos hfirst]
      exact hphase
    · next hfirst =>
      rw [if_neg hfirst]
      exact hphase

/-- The request for a run: one that is accepted ends the wait. -/
theorem issueWrite_idle {waits : Bool} {e : Env} {s : State} {relight retried : Bool}
    (h : IdleInv waits s) (hpc : s.pc = .runWrite relight retried) :
    IdleInv (waits && s.kernel.runReply e.ok != .accepted) (issueWrite e relight retried s) := by
  have hphase := h.phase
  rw [hpc] at hphase
  obtain ⟨hrunning, rfl⟩ := hphase
  have hrep : ∀ pc, s.latchFailReported = true → pc = ShipPc.latchFail :=
    fun pc hr => absurd (hpc.symm.trans (h.reported hr)) (by rintro ⟨⟩)
  simp only [issueWrite]
  cases hreply : s.kernel.runReply e.ok with
  | accepted =>
    refine ⟨h.active, h.here, h.clear, h.live, fun _ => rfl, h.owed, hrep _, ?_, ?_, by rintro _ ⟨⟩⟩
    · exact fun hstopped => absurd (hrunning.symm.trans hstopped) (by decide)
    · exact Phase.rest_of_ne_idle (by rintro ⟨⟩)
  | noData =>
    exact h.move (t := { s with pc := .runState relight retried true }) rfl ⟨hrunning, rfl⟩
      (hrep _) (by rintro _ ⟨⟩)
  | refused =>
    exact h.move (t := { s with pc := .runState relight retried false }) rfl ⟨hrunning, rfl⟩
      (hrep _) (by rintro _ ⟨⟩)

/-- An underrun is acknowledged: the kernel idles ahead of the run it is asked for again. -/
theorem runStop_idle {waits : Bool} {s : State} {relight : Bool} (h : IdleInv waits s)
    (hpc : s.pc = .runStop relight) :
    IdleInv waits { s with kernel := s.kernel.stop, pc := .runWrite relight true } := by
  have hphase := h.phase
  rw [hpc] at hphase
  have hstate := h.stop relight hpc
  have hlive : s.kernel.stop.live = s.kernel.live := by
    simp only [Kernel.stop]
    split <;> rfl
  have hstopped : s.kernel.stop.state ≠ .running := by
    simp only [Kernel.stop]
    split
    · next hrunning => exact absurd hrunning hstate
    · rintro ⟨⟩
    · exact hstate
  refine ⟨h.active, h.here, h.clear, fun hs => hlive.trans (h.live hs),
    fun hrunning => absurd hrunning hstopped, h.owed, ?_, h.begun, hphase, by rintro _ ⟨⟩⟩
  exact fun hr => absurd (hpc.symm.trans (h.reported hr)) (by rintro ⟨⟩)

/-- Most steps only move the program counter, to a phase that holds already. -/
theorem IdleInv.advance {waits : Bool} {s t : State} (h : IdleInv waits s) (hview : t.idleView = s.idleView)
    (hrep : t.latchFailReported = s.latchFailReported) (hpc : s.pc ≠ .latchFail)
    (hphase : t.pc.phase.Holds waits s) (hstop : ∀ relight, t.pc ≠ .runStop relight) :
    IdleInv waits t := by
  refine h.move hview hphase (fun hr => ?_) fun relight hpc' => absurd hpc' (hstop relight)
  exact absurd (h.reported (hrep.symm.trans hr)) hpc

/-- A call that is not at its report has not made one. -/
theorem IdleInv.unreported {waits : Bool} {s : State} (h : IdleInv waits s) (hpc : s.pc ≠ .latchFail) :
    s.latchFailReported = false := by
  rw [← Bool.not_eq_true]
  exact fun hr => absurd (h.reported hr) hpc

/-- A pass begins: no clear is pending. -/
theorem pendingSnapshot_idle {waits : Bool} {e : Env} {s : State} (h : IdleInv waits s)
    (hpc : s.pc = .top) : IdleInv waits (pendingSnapshot e s) := by
  have hphase := h.phase
  rw [hpc] at hphase
  simp only [pendingSnapshot, resetPad]
  split
  · next hpad =>
    rw [show (s.gf.clearPending && s.gf.lastLit) = false by rw [h.clear]; rfl] at hpad
    cases hpad
  · refine h.advance rfl rfl (by rw [hpc]; rintro ⟨⟩) ?_ ?_
    · simp only [pendingNext, h.clear]
      split_ifs <;> first | exact hphase | exact absurd h.active ‹_›
    · intro relight
      simp only [pendingNext]
      split_ifs <;> rintro ⟨⟩

/-- A chunk has landed: the next round begins. -/
theorem wrote_idle {waits : Bool} {s : State} {p : Pass} {c : Chunk} (h : IdleInv waits s)
    (hfailed : s.gf.failed = false) (hpc : s.pc = .wrote p c true) :
    IdleInv waits (shipWrote p c true s) := by
  have hphase := h.phase
  rw [hpc] at hphase
  have hlanded : IdleInv waits (chunkLanded c s) := h.move rfl h.phase h.reported h.stop
  have hgo : (s.gf.failed || s.gf.suspended || s.gf.clearPending) = false := by
    rw [hfailed, h.here, h.clear]
    rfl
  rw [shipWrote, if_pos rfl, shipNext, if_neg (by rw [← Bool.not_eq_true] at hgo; exact hgo)]
  refine shipLoop_idle (p := { p with startRun := p.startRun || c.first }) hlanded
    (h.unreported (by rw [hpc]; rintro ⟨⟩)) ?_
  simp only [ShipPc.phase] at hphase ⊢
  cases hfirst : p.startRun || c.first with
  | true =>
    rw [hfirst] at hphase
    exact hphase
  | false =>
    rw [hfirst] at hphase
    exact Phase.rest_of_ne_idle hphase.2

/-- The gate reads the kernel's state. -/
theorem runGateState_idle {waits : Bool} {e : Env} {s : State} {base written : UInt32}
    (h : IdleInv waits s) (hpc : s.pc = .gateState base written) :
    IdleInv waits (runGateState e base written s) := by
  have hphase := h.phase
  rw [hpc] at hphase
  refine h.advance rfl rfl (by rw [hpc]; rintro ⟨⟩) ?_ ?_
  · simp only [runGateState]
    split
    case h_2 hread =>
      exact Phase.rest_of_ne_idle (by rw [readState_eq hread]; rintro ⟨⟩)
    all_goals exact hphase
  · intro relight
    simp only [runGateState]
    split <;> rintro ⟨⟩

/-- The latch is relit, or its write fails. -/
theorem issueRelight_idle {waits : Bool} {e : Env} {s : State} (h : IdleInv waits s)
    (hpc : s.pc = .runLatch) : IdleInv waits (issueRelight e s) := by
  have hphase := h.phase
  rw [hpc] at hphase
  refine h.move ?_ ?_ ?_ ?_
  · simp only [issueRelight]
    split <;> rfl
  · simp only [issueRelight]
    split_ifs <;> exact hphase
  · intro hr
    have hrep : s.latchFailReported = true := by
      simp only [issueRelight, latchWriteLocked] at hr
      split_ifs at hr <;> exact hr
    exact absurd (hpc.symm.trans (h.reported hrep)) (by rintro ⟨⟩)
  · intro relight
    simp only [issueRelight]
    split_ifs <;> rintro ⟨⟩

/-- The kernel's state behind a request: an underrun is acknowledged where it stands. -/
theorem issueState_idle {waits : Bool} {e : Env} {s : State} {relight retried noData : Bool}
    (h : IdleInv waits s) (hpc : s.pc = .runState relight retried noData) :
    IdleInv waits (issueState e relight retried noData s) := by
  have hphase := h.phase
  rw [hpc] at hphase
  refine h.move rfl ?_ ?_ ?_
  · simp only [issueState]
    split
    case h_1 => split <;> exact hphase
    case h_2 hread => exact Phase.rest_of_ne_idle (by rw [readState_eq hread]; rintro ⟨⟩)
    case h_3 => split <;> exact hphase
    case h_4 => exact hphase
  · exact fun hr => absurd (hpc.symm.trans (h.reported hr)) (by rintro ⟨⟩)
  · intro relight' hstop
    simp only [issueState] at hstop
    split at hstop
    case h_1 hread =>
      rw [readState_eq hread]
      rintro ⟨⟩
    case h_3 => split at hstop <;> cases hstop
    all_goals cases hstop

/-- The latch is locked again behind a run that was not accepted. -/
theorem issueEnd_idle {waits : Bool} {e : Env} {s : State} {relight : Bool} {rc : Int}
    (h : IdleInv waits s) (hpc : s.pc = .runEnd relight rc) :
    IdleInv waits (issueEnd e relight rc s) := by
  have hphase := h.phase
  rw [hpc] at hphase
  refine h.move ?_ ?_ ?_ ?_
  · simp only [issueEnd]
    split <;> rfl
  · simp only [issueEnd]
    split <;> exact hphase
  · intro hr
    have hrep : s.latchFailReported = true := by
      simp only [issueEnd, latchWriteLocked] at hr
      split_ifs at hr <;> exact hr
    exact absurd (hpc.symm.trans (h.reported hrep)) (by rintro ⟨⟩)
  · intro relight
    simp only [issueEnd]
    split_ifs <;> rintro ⟨⟩

/-- The pass takes the run's answer: anything but a start or a wait is a fault. -/
theorem shipRc_idle {waits : Bool} {s : State} {rc : Int} (h : IdleInv waits s) (hpc : s.pc = .runRc rc) :
    (shipRc rc s).gf.failed = true ∨ IdleInv waits (shipRc rc s) := by
  have hphase := h.phase
  rw [hpc] at hphase
  have hnot : s.pc ≠ .latchFail := by
    rw [hpc]
    rintro ⟨⟩
  simp only [shipRc]
  split
  · next hrc =>
    subst hrc
    exact .inr (h.advance rfl rfl hnot hphase (by rintro _ ⟨⟩))
  · split
    · exact .inl rfl
    · right
      refine h.advance rfl rfl hnot ?_ (by rintro _ ⟨⟩)
      simp only [ShipPc.phase] at hphase
      split_ifs at hphase
      · exact hphase
      · exact hphase.elim

/-- What a step of the shipper does to a stream that has not faulted. -/
theorem shipStep_idle {waits : Bool} {e : Env} {s : State} (h : IdleInv waits s)
    (hfailed : s.gf.failed = false) :
    (shipStep e s).gf.failed = true ∨ IdleInv (awaitsRun s (.ship e) waits) (shipStep e s) := by
  have hphase := h.phase
  have hmove := fun t => h.advance (t := t)
  unfold shipStep awaitsRun
  cases hpc : s.pc with (rw [hpc] at hphase; simp only [hpc] at hmove ⊢)
  | top => exact .inr (pendingSnapshot_idle h hpc)
  | pendState clear zeros =>
    right
    cases clear with
    | true => exact hphase.elim
    | false =>
      refine hmove _ rfl rfl (by rintro ⟨⟩) ?_ ?_
      · simp only [pendingState]
        split <;> exact hphase
      · intro relight
        simp only [pendingState]
        split <;> rintro ⟨⟩
  | pendSeek zeros => exact hphase.elim
  | pendCount zeros => exact hphase.elim
  | pendDone cleared counts zeros => exact hphase.elim
  | pendOurs =>
    simp only [pendingOurs]
    split
    · exact .inl rfl
    · exact .inr (hmove _ rfl rfl (by rintro ⟨⟩) hphase (by rintro _ ⟨⟩))
  | lock =>
    right
    rw [shipLock, hfailed, h.here]
    exact hmove _ rfl rfl (by rintro ⟨⟩) hphase (by rintro _ ⟨⟩)
  | sampled gate => exact .inr (shipBody_idle h hpc)
  | writing p c rest =>
    right
    simp only [shipWrite]
    split
    · exact hmove _ rfl rfl (by rintro ⟨⟩) hphase (by rintro _ ⟨⟩)
    · split
      · exact take_idle h hpc
      · exact hmove _ rfl rfl (by rintro ⟨⟩) hphase (by rintro _ ⟨⟩)
  | wrote p c ok =>
    cases ok with
    | false => exact .inl rfl
    | true => exact .inr (wrote_idle h hfailed hpc)
  | runTest startRun base written =>
    right
    refine hmove _ rfl rfl (by rintro ⟨⟩) ?_ ?_
    · simp only [runTest, h.active, hfailed]
      cases startRun <;> exact hphase
    · intro relight
      simp only [runTest]
      split <;> rintro ⟨⟩
  | gateState base written => exact .inr (runGateState_idle h hpc)
  | gateCounts base written =>
    right
    refine hmove _ rfl rfl (by rintro ⟨⟩) ?_ ?_
    · simp only [runGateCounts]
      split <;> exact hphase
    · intro relight
      simp only [runGateCounts]
      split <;> rintro ⟨⟩
  | gateFault => exact .inl rfl
  | runLatch => exact .inr (issueRelight_idle h hpc)
  | runWrite relight retried => exact .inr (issueWrite_idle h hpc)
  | runState relight retried noData => exact .inr (issueState_idle h hpc)
  | runStop relight => exact .inr (runStop_idle h hpc)
  | runFault relight stop => exact .inl rfl
  | runEnd relight rc => exact .inr (issueEnd_idle h hpc)
  | latchFault =>
    right
    simp only [latchFaultRecord]
    cases hr : s.latchFailReported with
    | true => exact absurd (hpc.symm.trans (h.reported hr)) (by rintro ⟨⟩)
    | false => exact h.move rfl hphase (fun _ => rfl) (by rintro _ ⟨⟩)
  | latchFail => exact .inl trivial
  | runRc rc => exact shipRc_idle h hpc
  | check =>
    right
    refine hmove _ rfl rfl (by rintro ⟨⟩) ?_ ?_
    · simp only [checkSnapshot]
      split <;> exact hphase
    · intro relight
      simp only [checkSnapshot]
      split <;> rintro ⟨⟩
  | checkState =>
    right
    refine hmove _ rfl rfl (by rintro ⟨⟩) ?_ ?_
    · simp only [checkState]
      split <;> exact hphase
    · intro relight
      simp only [checkState]
      split <;> rintro ⟨⟩
  | checkFault => exact .inl rfl
  | raise next => exact hphase.elim

/-! ## The other threads

A call can add steps, and a wakeup begins the interval; the kernel plays and stops. -/

/-- What the invariant reads is as before. -/
theorem IdleInv.same {waits : Bool} {s t : State} (h : IdleInv waits s)
    (hview : t.idleView = s.idleView) (hpc : t.pc = s.pc)
    (hreported : t.latchFailReported = true → s.latchFailReported = true) : IdleInv waits t := by
  refine h.move hview (hpc ▸ h.phase) (fun hr => hpc ▸ h.reported (hreported hr)) ?_
  rw [hpc]
  exact h.stop

/-- A step placed behind what is produced, in a live stream. -/
theorem pulsePlace_idle {waits : Bool} {b : StepByte} {idx : Nat} {s : State}
    (h : IdleInv waits s) (hstream : s.gf.streaming = true) :
    (pulsePlace b idx s).gf.failed = true ∨ IdleInv waits (pulsePlace b idx s) := by
  simp only [pulsePlace]
  generalize (if idx < s.gf.produced then s.gf.produced else idx) = i
  split
  · exact .inl rfl
  · right
    exact ⟨h.active, h.here, h.clear, fun _ => h.live (.inl hstream), h.ramp, h.owed, h.reported,
      fun hstopped _ => h.begun hstopped (.inl hstream), h.phase, h.stop⟩

/-- An event behind the cursor faults an armed stream, and is only counted in another. -/
theorem clampLocked_idle {waits : Bool} {s : State} (h : IdleInv waits s) :
    (clampLocked s).2.gf.failed = true ∨ IdleInv waits (clampLocked s).2 := by
  cases harmed : s.laserArmed with
  | true =>
    left
    simp [clampLocked, harmed]
  | false =>
    right
    refine h.same ?_ rfl id
    simp only [clampLocked, harmed, Bool.false_and, Bool.false_eq_true, if_false]
    rfl

theorem wakeupStream_quiet (now : Nat) (s : State) :
    (wakeupStream now s).gf.active = s.gf.active ∧
    (wakeupStream now s).gf.suspended = s.gf.suspended ∧
    (wakeupStream now s).gf.clearPending = s.gf.clearPending ∧
    (wakeupStream now s).gf.kernelRunning = s.gf.kernelRunning := by
  simp only [wakeupStream, wakeupAssert, wakeupIndex, wakeupContinue, wakeupFresh]
  split_ifs <;> exact ⟨rfl, rfl, rfl, rfl⟩

/-- A stream begins: it is live in the kernel, and awaits its run. -/
theorem wakeup_idle {waits : Bool} {now : Nat} {s : State} (h : IdleInv waits s) :
    IdleInv (waits || !s.gf.streaming) (wakeupLocked now s) := by
  simp only [wakeupLocked]
  split
  · next hstream =>
    rw [hstream, Bool.not_true, Bool.or_false]
    exact h.same rfl rfl id
  · next hstream =>
    rw [Bool.eq_false_of_not_eq_true hstream, Bool.not_false, Bool.or_true]
    obtain ⟨hactive, hhere, hclear, hrunning⟩ := wakeupStream_quiet now (wakeupMark s)
    have hkernel : (wakeupStream now (wakeupMark s)).kernel = { s.kernel with live := true } :=
      if_pos h.active
    have hphase : s.pc.phase.Holds true (wakeupStream now (wakeupMark s)) := by
      have hbefore := h.phase
      cases hp : s.pc.phase with
      | rest =>
        rw [hp] at hbefore
        simp only [Phase.Holds, hkernel, hrunning]
        exact hbefore
      | going =>
        rw [hp] at hbefore
        simp only [Phase.Holds, hkernel, hrunning]
        exact hbefore
      | starting =>
        rw [hp] at hbefore
        exact ⟨hrunning.trans hbefore.1, rfl⟩
      | never =>
        rw [hp] at hbefore
        exact hbefore
    exact {
      active := hactive.trans h.active
      here := hhere.trans h.here
      clear := hclear.trans h.clear
      live := by rw [hkernel]; exact fun _ => rfl
      ramp := by rw [hkernel]; exact h.ramp
      owed := h.owed
      reported := h.reported
      begun := fun _ _ => rfl
      phase := hphase
      stop := by rw [hkernel]; exact h.stop }

theorem laserEventLocked_idle {waits : Bool} {power : UInt8} {fire : Bool} {s : State}
    (h : IdleInv waits s) :
    (laserEventLocked power fire s).gf.failed = true ∨
      IdleInv waits (laserEventLocked power fire s) := by
  have hrecord : ∀ (u : State) idx, IdleInv waits u →
      IdleInv waits { u with gf := levRecord idx power fire u.gf } := by
    intro u idx hu
    refine hu.same ?_ rfl id
    obtain ⟨lev, warned, hrec⟩ := levRecord_frame idx power fire u.gf
    rw [hrec]
    rfl
  simp only [laserEventLocked]
  split_ifs
  · exact clampLocked_idle h
  · rcases clampLocked_idle h with hfailed | hinv
    · exact .inl ((levRecord_failed _ _ _ _).trans hfailed)
    · exact .inr (hrecord _ _ hinv)
  · exact .inr (hrecord _ _ h)
  · exact .inr h

theorem goIdle_idle {waits : Bool} {reset : Bool} {stepBits dirBits : UInt8} {s : State}
    (h : IdleInv waits s) : IdleInv waits (gfStreamGoIdle reset stepBits dirBits s) := by
  have hmark : ∀ b, State.idleView { s with gf := goIdleMark reset b s.gf } = s.idleView := by
    intro b
    simp only [goIdleMark]
    split <;> rfl
  have hdark : ∀ u : State, State.idleView { u with gf := goIdleDark u.gf } = u.idleView := by
    intro u
    simp only [goIdleDark]
    split
    · split
      · split_ifs <;> rfl
      · rfl
    · rfl
  have hmarked : IdleInv waits { s with gf := goIdleMark reset (pulseByte stepBits dirBits) s.gf } :=
    h.same (hmark _) rfl id
  have hdarked := hmarked.same (hdark _) rfl id
  simp only [gfStreamGoIdle, goIdleEnd]
  split
  · exact ⟨hdarked.active, hdarked.here, hdarked.clear,
      fun hs => hdarked.live (.inr (hs.resolve_left (by rintro ⟨⟩))), hdarked.ramp, hdarked.owed,
      hdarked.reported, fun hk hs => hdarked.begun hk (.inr (hs.resolve_left (by rintro ⟨⟩))),
      hdarked.phase, hdarked.stop⟩
  · exact hmarked.same rfl rfl id

/-- What the kernel does by itself keeps the invariant, if it idles only over an empty ring
and without the live flag. -/
theorem IdleInv.kernel {waits : Bool} {s : State} {k : Kernel} (h : IdleInv waits s)
    (hlive : k.live = s.kernel.live) (hramp : k.state = .running → k.stopping = false)
    (hstop : s.kernel.state ≠ .running → k.state ≠ .running)
    (hidle : k.state = .idle → k.ring = [] ∧ s.kernel.live = false) :
    IdleInv waits { s with kernel := k } := by
  have hstopped : k.state = .idle → s.gf.kernelRunning = false := by
    intro hk
    rw [← Bool.not_eq_true]
    intro hrunning
    exact absurd ((h.live (.inr (.inr hrunning))).symm.trans (hidle hk).2) (by decide)
  refine ⟨h.active, h.here, h.clear, fun hs => hlive.trans (h.live hs), hramp, h.owed, h.reported,
    h.begun, ?_, fun relight hpc => hstop (h.stop relight hpc)⟩
  have hphase := h.phase
  change s.pc.phase.Holds waits { s with kernel := k }
  cases hp : s.pc.phase with rw [hp] at hphase
  | rest => exact fun hk => ⟨(hidle hk).1, hstopped hk⟩
  | going => exact ⟨hphase.1, fun hk => absurd (hphase.1.symm.trans (hstopped hk)) (by decide)⟩
  | starting => exact hphase
  | never => exact hphase

theorem act_idle {waits : Bool} {s : State} {a : KernelAct} {k : Kernel} (h : IdleInv waits s)
    (hown : ownKernel (.kernel a) = true) (hact : s.kernel.act a = some k) :
    IdleInv waits { s with kernel := k } := by
  cases a with
  | play =>
    simp only [Kernel.act] at hact
    split at hact <;> cases hact
    next hstate hring =>
    refine h.kernel rfl h.ramp id fun hidle => ?_
    exact absurd (hstate.symm.trans hidle) (by decide)
  | runOut =>
    simp only [Kernel.act] at hact
    split at hact <;> cases hact
    next hstate hring =>
    cases hlive : s.kernel.live with
    | true => exact h.kernel hlive.symm (by rintro ⟨⟩) (by rintro _ ⟨⟩) (by rintro ⟨⟩)
    | false => exact h.kernel hlive.symm (by rintro ⟨⟩) (by rintro _ ⟨⟩) fun _ => ⟨hring, hlive⟩
  | rampEnd =>
    simp only [Kernel.act] at hact
    split at hact
    · next hramp => exact absurd hramp.2 (by rw [h.ramp hramp.1]; rintro ⟨⟩)
    · cases hact
  | foreignStop => cases hown
  | foreignDisable => cases hown
  | driverFault =>
    cases hact
    exact h.kernel rfl (by rintro ⟨⟩) (fun _ => by rintro ⟨⟩) (by rintro ⟨⟩)

theorem protoStep_idle {waits : Bool} {s t : State} (h : IdleInv waits s)
    (hstep : protoStep s = some t) : Doomed t ∨ IdleInv waits t := by
  have howed := h.owed
  simp only [protoStep] at hstep
  cases hp : s.proto with rw [hp] at hstep howed
  | nil => cases hstep
  | cons o rest =>
    have hrest : ∀ o ∈ rest, o = Owed.latchFault ∨ o = Owed.raise := fun o ho => howed o (.tail _ ho)
    rcases howed o List.mem_cons_self with rfl | rfl
    · cases hstep
      cases hr : s.latchFailReported with
      | false => exact .inl (.inr (List.mem_append_left _ List.mem_cons_self))
      | true =>
        exact .inr ⟨h.active, h.here, h.clear, h.live, h.ramp, hrest, fun _ => h.reported hr, h.begun,
          h.phase, h.stop⟩
    · cases hstep
      exact .inr ⟨h.active, h.here, h.clear, h.live, h.ramp, hrest, h.reported, h.begun, h.phase, h.stop⟩

theorem laserLatch_idle {waits : Bool} {lock ok : Bool} {s : State} (h : IdleInv waits s) :
    IdleInv waits (gfStreamLaserLatch lock ok s) := by
  have hreported : (gfStreamLaserLatch lock ok s).latchFailReported = true →
      s.latchFailReported = true := by
    simp only [gfStreamLaserLatch, latchWriteLocked]
    split_ifs
    · rintro ⟨⟩
    · exact id
  refine ⟨h.active, h.here, h.clear, h.live, h.ramp, ?_, fun hr => h.reported (hreported hr),
    h.begun, h.phase, h.stop⟩
  intro o ho
  simp only [gfStreamLaserLatch] at ho
  split_ifs at ho
  · exact .inl (List.mem_singleton.mp ho)
  · cases ho

theorem locked_idle {waits : Bool} {c : Call} {now : Nat} {s : State} (h : IdleInv waits s) :
    (c.locked now s).gf.failed = true ∨
      IdleInv (awaitsRun s (.locked c now) waits) (c.locked now s) := by
  cases c with
  | wakeup => exact .inr (wakeup_idle h)
  | pulse stepBits dirBits =>
    simp only [Call.locked, pulseLocked]
    split
    · next hstream =>
      have hnoted : IdleInv waits (noteMargin s) := h.same rfl rfl id
      simp only [pulseAt]
      split
      · split
        · exact clampLocked_idle hnoted
        · rcases clampLocked_idle hnoted with hfailed | hinv
          · exact .inl (pulsePlace_failed hfailed)
          · exact pulsePlace_idle hinv hstream
      · exact pulsePlace_idle hnoted hstream
    · exact .inr h
  | laser power fire =>
    simp only [Call.locked, laserLocked]
    exact laserEventLocked_idle (h.same rfl rfl id)
  | jog on =>
    simp only [Call.locked, jogLocked]
    exact laserEventLocked_idle (h.same rfl rfl id)

theorem turn_idle {waits : Bool} {s t : State} {l : Label} (h : IdleInv waits s)
    (hfailed : s.gf.failed = false) (hown : ownKernel l = true) (hturn : turn s l = some t) :
    Doomed t ∨ IdleInv (awaitsRun s l waits) t := by
  cases l with
  | locked c now =>
    cases hturn
    exact (locked_idle (s := { s with entered := s.entered.erase c }) (h.same rfl rfl id)).imp_left .inl
  | goIdle reset stepBits dirBits =>
    cases hturn
    exact .inr (goIdle_idle h)
  | ship e =>
    cases hturn
    exact (shipStep_idle h hfailed).imp_left .inl
  | proto => exact protoStep_idle h hturn
  | kernel a =>
    obtain ⟨k, hact, rfl⟩ := Option.map_eq_some_iff.mp hturn
    exact .inr (act_idle h hown hact)
  | laserLatch lock ok =>
    cases hturn
    exact .inr (laserLatch_idle h)
  | enter c =>
    cases hturn
    right
    refine h.same ?_ ?_ ?_ <;> (simp only [enter]; split)
    all_goals first | rfl | exact id
  | laserModel p m =>
    cases hturn
    right
    refine h.same ?_ rfl id
    simp only [gfStreamLaserModel, ditherReset]
    split_ifs <;> rfl
  | readback expired =>
    cases hturn
    right
    simp only [gfStreamReadback]
    split
    · exact h.same rfl rfl id
    · exact h
  | clearPosition ok =>
    cases hturn
    right
    simp only [gfStreamClearPosition]
    split_ifs
    · exact h.same rfl rfl id
    · exact h.same rfl rfl id
    · exact h
  | reset now => cases hown
  | suspend readOk => cases hown
  | resume latchOk emptied counted => cases hown
  | foreign k => cases hown
  | _ =>
    cases hturn
    exact .inr (h.same rfl rfl id)

/-! ## Runs

Outside the interval an idle kernel has played everything; inside it a step is still to come. -/

/-- A stream that is doomed stays so: no reset acknowledges the fault, and a fault that is owed
comes. -/
theorem turn_doomed {s t : State} {l : Label} (hown : ownKernel l = true)
    (hen : l.enabled s = true) (hturn : turn s l = some t) (hswap : .resumeSwap ∉ s.proto)
    (h : Doomed s) : Doomed t := by
  rcases h with hfailed | howed
  · left
    refine turn_failed hturn ?_ (fun _ hhead => hswap (List.mem_of_mem_head? hhead)) hfailed
    rintro now rfl
    cases hown
  · have hbegins : l.beginsCall = false := by
      rw [← Bool.not_eq_true]
      intro hbegins
      simp only [Label.enabled, hbegins, Bool.and_eq_true, Bool.not_true, Bool.false_or] at hen
      rw [List.isEmpty_iff.mp hen.1.2] at howed
      cases howed
    by_cases hproto : l = .proto
    · subst hproto
      simp only [turn, protoStep] at hturn
      cases hp : s.proto with rw [hp] at hturn howed
      | nil => cases howed
      | cons o rest =>
        cases howed with
        | head =>
          cases hturn
          exact .inl rfl
        | tail _ hrest =>
          right
          cases o <;> cases hturn
          case latchFault.refl => exact List.mem_append_right _ hrest
          all_goals exact hrest
    · right
      rw [turn_proto hturn hbegins hproto]
      exact howed

/-- A takeover whose clear took leaves a kernel that does not run, with an empty ring. -/
theorem takeover_empty {inherited emptied : Bool} {k : Kernel}
    (h : takeoverEmpties inherited emptied k = true) :
    (takeover inherited true k).state ≠ .running ∧ (takeover inherited true k).ring = [] := by
  cases inherited with
  | false => exact ⟨by rintro ⟨⟩, rfl⟩
  | true =>
    have hstate : k.state ≠ .running := by
      intro hrunning
      simp [takeoverEmpties, hrunning] at h
    simp only [takeover, Kernel.stop, Kernel.seekClear, if_true]
    split
    · next hrunning => exact absurd hrunning hstate
    · exact ⟨by rintro ⟨⟩, rfl⟩
    · exact ⟨hstate, rfl⟩

/-- The start of the threads, behind a takeover whose clear took. -/
theorem init_idle {c : Config} {k : Kernel} {emptied counted : Bool} (hactive : c.active = true)
    (hempty : takeoverEmpties c.inherited emptied k = true) :
    IdleInv false (State.init c k emptied counted) := by
  obtain ⟨hstate, hring⟩ := takeover_empty hempty
  have hkernel : (State.init c k emptied counted).kernel = takeover c.inherited true k := by
    simp only [State.init, hactive, hempty, if_true]
  have hgf : (State.init c k emptied counted).gf = rebaseAtTakeover true counted k (Gf.init c) := by
    simp only [State.init, hactive, hempty, if_true]
  have hstreaming : (State.init c k emptied counted).gf.streaming = false := by
    rw [hgf]
    cases counted <;> rfl
  have hleft : ¬(State.init c k emptied counted).gf.shipped < (State.init c k emptied counted).gf.produced := by
    rw [hgf]
    cases counted <;> exact Nat.lt_irrefl 0
  have hrunning : (State.init c k emptied counted).gf.kernelRunning = false := by
    rw [hgf]
    cases counted <;> rfl
  exact {
    active := by rw [hgf]; cases counted <;> exact hactive
    here := by rw [hgf]; cases counted <;> rfl
    clear := by rw [hgf]; cases counted <;> rfl
    live := by
      rw [hstreaming, hrunning]
      rintro (hs | hs | hs)
      · cases hs
      · exact absurd hs hleft
      · cases hs
    ramp := by
      rw [hkernel]
      exact fun hr => absurd hr hstate
    owed := by rintro _ ⟨⟩
    reported := by rintro ⟨⟩
    begun := by
      rw [hstreaming]
      rintro - (hs | hs)
      · cases hs
      · exact absurd hs hleft
    phase := by
      intro _
      rw [hkernel]
      exact ⟨hring, hrunning⟩
    stop := by rintro _ ⟨⟩ }

/-- Every accepted step has been played: none waits in the ring, in a chunk that is being
written or in the kernel's ring. -/
structure Played (s : State) : Prop where
  shipped : s.gf.produced ≤ s.gf.shipped
  landed : ∀ p c rest, s.pc ≠ .writing p c rest
  played : s.kernel.ring = []

theorem step_idle {waits : Bool} {s t : State} {l : Label} (hown : ownKernel l = true)
    (hstep : step s l = some t) (h : .resumeSwap ∉ s.proto ∧ (Doomed s ∨ IdleInv waits s)) :
    .resumeSwap ∉ t.proto ∧ (Doomed t ∨ IdleInv (awaitsRun s l waits) t) := by
  obtain ⟨hen, hturn⟩ := step_eq_some.mp hstep
  refine ⟨turn_swap hturn ?_ h.1, ?_⟩
  · rintro a b c rfl
    cases hown
  · rcases h.2 with hdoomed | hinv
    · exact .inl (turn_doomed hown hen hturn h.1 hdoomed)
    · cases hfailed : s.gf.failed with
      | true => exact .inl (turn_doomed hown hen hturn h.1 (.inl hfailed))
      | false => exact turn_idle hinv hfailed hown hturn

/-- **An idle reading means that the motion has been played**, in every run of cycles on an
active device that has not failed, unless the reading falls between a wakeup and the start of
that stream's run. The callers read on the protocol thread, so no other call of it is open. -/
theorem idle_means_played {c : Config} {k : Kernel} {emptied counted : Bool} {s : State}
    {waits readOk : Bool} (hactive : c.active = true)
    (hempty : takeoverEmpties c.inherited emptied k = true)
    (hrun : Runs.Reach (Runs.observe step awaitsRun) (fun _ l => ownKernel l = true)
      (State.init c k emptied counted, false) (s, waits))
    (hfailed : s.gf.failed = false) (hproto : s.proto = [])
    (hidle : gfStreamKernelIdle readOk s = true) (hwaits : waits = false) : Played s := by
  subst hwaits
  have hinv : .resumeSwap ∉ s.proto ∧ (Doomed s ∨ IdleInv false s) :=
    Runs.Reach.invariant_observe (fun _ l => ownKernel l = true)
      (P := fun s waits => .resumeSwap ∉ s.proto ∧ (Doomed s ∨ IdleInv waits s)) hrun
      ⟨List.not_mem_nil, .inr (init_idle hactive hempty)⟩
      fun s waits l u hs hown hstep => step_idle hown hstep hs
  rcases hinv.2 with (hf | howed) | h
  · rw [hfailed] at hf
    cases hf
  · rw [hproto] at howed
    cases howed
  · have hstate : s.kernel.state = .idle := by
      simp only [gfStreamKernelIdle, h.active, Bool.not_true, Bool.false_or, Bool.and_eq_true,
        beq_iff_eq] at hidle
      exact hidle.2
    obtain ⟨hleft, hring, hgoing, hstarting⟩ := h.played hstate
    refine ⟨hleft, fun p c rest hpc => ?_, hring⟩
    rw [hpc] at hgoing hstarting
    simp only [ShipPc.phase] at hgoing hstarting
    split_ifs at hgoing hstarting
    · exact hstarting rfl
    · exact hgoing rfl

/-- The stream ends with its step produced; the shipper ships it, starts the run and finds the
stream over, and the kernel plays it out. -/
def playedOut : List Label :=
  oneStep ++ [Label.goIdle false 0 0, .ship {}, .ship {}, .ship { now := 0, later := 1000000 }] ++
    List.replicate 33 (Label.ship {}) ++ List.replicate 22 (Label.kernel .play) ++
    List.replicate 3 (Label.ship {}) ++ [Label.kernel .runOut]

/-- The theorem at a run that plays its step: the kernel idles behind the pass that ended the
stream. -/
theorem idle_means_played_once :
    ∃ s, s.kernel.counts 0 = 1 ∧ gfStreamKernelIdle true s = true ∧ Played s := by
  have hrun : ∃ x : State × Bool,
      Runs.Reach (Runs.observe step awaitsRun) (fun _ l => ownKernel l = true)
        (State.init (slowConfig true) idleKernel true true, false) x ∧
      (x.2 = false ∧ x.1.gf.failed = false ∧ x.1.proto = [] ∧ x.1.kernel.counts 0 = 1 ∧
        gfStreamKernelIdle true x.1 = true) :=
    Runs.exists_reach_of_exec playedOut (by decide +kernel)
  obtain ⟨⟨s, waits⟩, hreach, hwaits, hfailed, hproto, hcount, hidle⟩ := hrun
  exact ⟨s, hcount, hidle, idle_means_played rfl rfl hreach hfailed hproto hidle hwaits⟩

/-- **An idle reading can come too early.** The cycle ends before the shipper's first pass:
the stream is over for the core, the kernel still idles, and the step has not shipped. -/
theorem idle_before_first_pass :
    ∃ s, Runs.Reach step (fun _ l => ownKernel l = true)
        (State.init (slowConfig true) idleKernel true true) s ∧
      s.gf.failed = false ∧ s.proto = [] ∧ s.gf.streaming = false ∧
      gfStreamKernelIdle true s = true ∧ ¬Played s := by
  have hrun : ∃ s, Runs.Reach step (fun _ l => ownKernel l = true)
        (State.init (slowConfig true) idleKernel true true) s ∧
      (s.gf.failed = false ∧ s.proto = [] ∧ s.gf.streaming = false ∧
        gfStreamKernelIdle true s = true ∧ s.gf.shipped < s.gf.produced) :=
    Runs.exists_reach_of_exec (oneStep ++ [Label.goIdle false 0 0]) (by decide +kernel)
  obtain ⟨s, hreach, hfailed, hproto, hstream, hidle, hleft⟩ := hrun
  exact ⟨s, hreach, hfailed, hproto, hstream, hidle, fun h => absurd h.shipped (by omega)⟩

end Glowforge.Stream
