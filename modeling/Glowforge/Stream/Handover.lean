import Glowforge.Stream.Custody

/-!
# Glowforge — a device that is handed over

`gf_stream_suspend` hands the pulse device to another process from a drained engine and an idle
kernel. Until `gf_stream_resume` the device is that process's.

* **`Label.deviceWrites`** — the steps that write bytes to the device, clear it, or write
  `cnc/run`, `cnc/stop` or `cnc/streaming`; **`turn_kernel`** says that no other step of this
  process changes it.
* **`Handed`** — what a handover leaves: nothing of the stream's is owed to the device.
* **`handed_over_untouched`** — no such step is taken during a handover in which no reset
  acknowledges a fault, and which no kill mark has entered.
-/

namespace Glowforge.Stream

/-! ## Writes to the device

The steps that reach the device, listed; no other step changes what it holds. -/

/-- The shipper's step writes to the device. -/
def shipWrites (s : State) : Bool :=
  match s.pc with
  | .top => s.gf.active && s.gf.clearPending && s.gf.lastLit
  | .lock => s.gf.active && s.gf.failed && s.gf.lastLit
  | .sampled _ => s.gf.active && !s.gf.marks.live && s.gf.kernelRunning
  | .writing _ _ (_ :: _) | .pendSeek _ | .runWrite _ _ | .runStop _ => true
  | .runFault _ stop => stop
  | _ => false

/-- A call's locked section writes `cnc/streaming` or `cnc/stop`. -/
def Call.writes (s : State) : Call → Bool
  | .wakeup => s.gf.active && !s.gf.streaming
  | _ => s.gf.active && s.clamps && !s.gf.failed

def Owed.writes : Owed → Bool
  | .stop | .streamingOff => true
  | _ => false

def Label.deviceWrites (s : State) : Label → Bool
  | .ship _ => shipWrites s
  | .locked c _ => c.writes s
  | .proto => s.gf.active && s.proto.head?.any Owed.writes
  | .clearPosition _ => s.gf.active && s.gf.fdOpen
  | .resume _ _ _ => s.gf.active
  | _ => false

/-- The kernel's own steps, and those of another writer. -/
def Label.foreignWrites : Label → Bool
  | .kernel _ | .foreign _ => true
  | _ => false

theorem darkPad_kernel {ok : Bool} {s : State} (h : s.gf.active = false) :
    (darkPad ok s).kernel = s.kernel := by
  simp [darkPad, padLands, h]

theorem shipLoop_kernel (p : Pass) (streaming : Bool) (s : State) :
    (shipLoop p streaming s).kernel = s.kernel := by
  simp only [shipLoop]
  split <;> rfl

theorem endStream_kernel {e : Env} {s : State} (h : s.gf.active = false ∨ s.gf.kernelRunning = false) :
    (endStream e s).kernel = s.kernel := by
  rcases h with hactive | hrunning
  · simp only [endStream, endPad]
    split_ifs
    · simp [endRun, darkPad, padLands, hactive]
    · simp [endRun, hactive]
    · rfl
  · simp [endStream, hrunning]

theorem shipBody_kernel {e : Env} {gate : Bool} {s : State} (hpc : s.pc = .sampled gate)
    (h : shipWrites s = false) : (shipBody e gate s).kernel = s.kernel := by
  have hedge := gateEdge_marks gate s.gf
  simp only [shipBody, shipGated]
  split
  · next hover =>
    refine (pollHold_course e _).2.trans (endStream_kernel ?_)
    rw [show (gateEdge gate s.gf).active = s.gf.active from congrArg Marks.active hedge,
      show (gateEdge gate s.gf).kernelRunning = s.gf.kernelRunning from congrArg Marks.kernelRunning hedge]
    have hlive : s.gf.marks.live = false := by
      rw [← hedge]
      simp only [Bool.and_eq_true, Bool.not_eq_true', beq_iff_eq] at hover
      have hnone : ¬(gateEdge gate s.gf).shipped < (gateEdge gate s.gf).produced := by omega
      simp only [Marks.live, Gf.marks, hover.1, hnone]
      rfl
    simp only [shipWrites, hpc, hlive, Bool.not_false, Bool.and_true] at h
    exact Bool.and_eq_false_iff.mp h
  · split
    · rfl
    · exact shipLoop_kernel _ _ _

theorem shipStep_kernel {e : Env} {s : State} (h : shipWrites s = false) :
    (shipStep e s).kernel = s.kernel := by
  unfold shipStep
  cases hpc : s.pc with
  | top =>
    simp only [shipWrites, hpc, Bool.and_assoc] at h
    simp only [pendingSnapshot, resetPad]
    split
    · next hpad =>
      exact darkPad_kernel (by simpa [hpad] using h)
    · rfl
  | lock =>
    simp only [shipWrites, hpc, Bool.and_assoc] at h
    simp only [shipLock, faultPad]
    split
    · split
      · next hpad => exact darkPad_kernel (by simpa [hpad] using h)
      · rfl
    · rfl
  | sampled gate => exact shipBody_kernel hpc h
  | writing p c rest =>
    cases rest with
    | nil => rfl
    | cons b rest => simp [shipWrites, hpc] at h
  | wrote p c ok =>
    simp only [shipWrote, shipNext]
    split_ifs
    · rfl
    · exact shipLoop_kernel _ _ _
    · rfl
  | pendSeek zeros => simp [shipWrites, hpc] at h
  | runWrite relight retried => simp [shipWrites, hpc] at h
  | runStop relight => simp [shipWrites, hpc] at h
  | runFault relight stop =>
    obtain rfl : stop = false := by simpa [shipWrites, hpc] using h
    rfl
  | runLatch =>
    simp only [issueRelight]
    split_ifs <;> rfl
  | runEnd relight rc =>
    simp only [issueEnd]
    split <;> rfl
  | runRc rc =>
    simp only [shipRc, exchangeFailed]
    split_ifs <;> rfl
  | pendOurs =>
    simp only [pendingOurs]
    split <;> rfl
  | _ => rfl

theorem clampLocked_kernel {s : State} (h : (s.gf.active && s.laserArmed && !s.gf.failed) = false) :
    (clampLocked s).2.kernel = s.kernel := by
  simp only [clampLocked]
  cases ha : s.gf.active <;> cases hl : s.laserArmed <;> cases hf : s.gf.failed <;> simp_all

theorem laserEventLocked_kernel {power : UInt8} {fire : Bool} {s : State}
    (h : (s.gf.active && s.clamps && !s.gf.failed) = false) :
    (laserEventLocked power fire s).kernel = s.kernel := by
  simp only [laserEventLocked]
  split
  · next hlive =>
    split
    · next hlate =>
      have hclamp : (clampLocked s).2.kernel = s.kernel :=
        clampLocked_kernel (by simpa [State.clamps, hlive, hlate] using h)
      split <;> exact hclamp
    · rfl
  · rfl

theorem pulsePlace_kernel (b : StepByte) (idx : Nat) (s : State) :
    (pulsePlace b idx s).kernel = s.kernel := by
  simp only [pulsePlace]
  split_ifs <;> rfl

theorem pulseAt_kernel {b : StepByte} {s : State} (hlive : s.gf.streaming = true)
    (h : (s.gf.active && s.clamps && !s.gf.failed) = false) : (pulseAt b s).kernel = s.kernel := by
  simp only [pulseAt]
  split
  · next hlate =>
    have hclamp : (clampLocked s).2.kernel = s.kernel :=
      clampLocked_kernel (by simpa [State.clamps, hlive, hlate] using h)
    split
    · exact hclamp
    · exact (pulsePlace_kernel _ _ _).trans hclamp
  · exact pulsePlace_kernel _ _ _

theorem locked_kernel {c : Call} {now : Nat} {s : State} (h : c.writes s = false) :
    (c.locked now s).kernel = s.kernel := by
  cases c with
  | wakeup =>
    simp only [Call.locked, wakeupLocked]
    split
    · rfl
    · next hidle =>
      have hactive : s.gf.active = false := by simpa [Call.writes, hidle] using h
      simp [wakeupStream, wakeupMark, hactive]
  | pulse stepBits dirBits =>
    simp only [Call.locked, pulseLocked]
    split
    · next hlive => exact pulseAt_kernel (s := noteMargin s) hlive h
    · rfl
  | laser power fire =>
    exact laserEventLocked_kernel
      (s := { s with gf := { s.gf with wantPower := power &&& 0x7f, wantFire := fire } }) h
  | jog on => exact laserEventLocked_kernel (s := { s with gf := { s.gf with jogging := on } }) h

/-- **No other step of this process changes the device.** A call under the lock writes the record
alone, unless it stops the kernel over a fault, and that is one of the writes. -/
theorem turn_kernel {s t : State} {l : Label} (hturn : turn s l = some t)
    (hours : l.foreignWrites = false) (h : l.deviceWrites s = false) : t.kernel = s.kernel := by
  cases l with
  | kernel a => cases hours
  | foreign k => cases hours
  | ship e =>
    cases hturn
    exact shipStep_kernel h
  | locked c now =>
    cases hturn
    refine locked_kernel ?_
    cases c <;> exact h
  | proto =>
    obtain ⟨o, rest, hp⟩ := proto_owes hturn
    simp only [turn, protoStep] at hturn
    rw [hp] at hturn
    cases o with
    | stop =>
      cases hturn
      have hactive : s.gf.active = false := by simpa [Label.deviceWrites, hp, Owed.writes] using h
      simp [hactive]
    | streamingOff =>
      cases hturn
      have hactive : s.gf.active = false := by simpa [Label.deviceWrites, hp, Owed.writes] using h
      simp [hactive]
    | _ =>
      cases hturn
      rfl
  | clearPosition ok =>
    cases hturn
    simp only [Label.deviceWrites] at h
    simp [gfStreamClearPosition, h]
  | resume latchOk emptied counted =>
    cases hturn
    have hactive : s.gf.active = false := h
    simp [gfStreamResume, hactive]
  | enter c =>
    cases hturn
    simp only [enter]
    split <;> rfl
  | readback expired =>
    cases hturn
    simp only [gfStreamReadback]
    split <;> rfl
  | suspend readOk =>
    cases hturn
    simp only [gfStreamSuspend]
    split_ifs <;> rfl
  | _ =>
    cases hturn
    rfl

/-! ## The handover

From the suspension to the resume the shipper is at rest and owes nothing. A reset that acknowledges
a fault is what the condition keeps out. -/

/-- The calls of a handover: another stream's wakeup, a counter zero and the takeover are not
among them. -/
def duringHandover : Label → Bool
  | .locked .wakeup _ | .clearPosition _ | .resume _ _ _ => false
  | _ => true

/-- A reset finds no fault to acknowledge. -/
def resetsUnfailed (s : State) : Label → Bool
  | .reset _ => !s.gf.failed
  | _ => true

/-- What a call owes that would reach the device. -/
def Owed.reaches : Owed → Bool
  | .stop | .streamingOff | .resumeSwap => true
  | _ => false

/-- The marks of a device that is handed over: nothing of the stream's is owed to it. -/
structure Marks.Away (m : Marks) : Prop where
  suspended : m.suspended = true
  streaming : m.streaming = false
  kernelRunning : m.kernelRunning = false
  clearPending : m.clearPending = false
  lastLit : m.lastLit = false
  killed : m.killed = false

structure Handed (s : State) : Prop where
  marks : s.gf.marks.Away
  site : s.pc.site.quiet = true
  proto : s.proto.any Owed.reaches = false

theorem Site.quiet_of {site : Site} (hown : site.owning = false) (hclear : site ≠ .clearing)
    (hsampled : site ≠ .sampled) : site.quiet = true := by
  cases site with
  | tested startRun =>
    cases startRun with
    | false => rfl
    | true => cases hown
  | clearing => exact absurd rfl hclear
  | sampled => exact absurd rfl hsampled
  | _ => first | rfl | cases hown

/-- **The handover** of a drained engine with no kill mark. -/
theorem suspend_hands {s t : State} {readOk : Bool} (h : Custody s) (hactive : s.gf.active = true)
    (hstep : step s (.suspend readOk) = some t) (htook : t.gf.suspended = true)
    (hkilled : s.gf.killed = false) : Handed t := by
  obtain ⟨hen, hturn⟩ := step_eq_some.mp hstep
  have hhere : s.gf.suspended = false := by
    simp only [Label.enabled, Bool.and_eq_true, Bool.not_eq_true'] at hen
    exact hen.2
  have hpc := (turn_turned hturn (by rintro _ ⟨⟩)).pc
  have hproto : t.proto.any Owed.reaches = false := by
    have hidle := begins_idle hen rfl
    cases hturn
    simp only [gfStreamSuspend]
    split_ifs <;> simp [hidle, Owed.reaches]
  have hsampled : s.pc.site ≠ .sampled := Label.enabled_unlocked hen rfl
  cases turn_moved hturn (by rintro _ ⟨⟩) with
  | suspends hl hdrained hmarks =>
    have hd := hdrained hactive
    simp only [drained, Bool.and_eq_true, Bool.not_eq_true'] at hd
    obtain ⟨⟨⟨hstreaming, hrunning⟩, hclear⟩, -⟩ := hd
    have hheld : s.gf.marks.held = false := by simp [Marks.held, Gf.marks, hrunning, hclear]
    have hlit : s.gf.lastLit = false := by
      cases hlit : s.gf.lastLit with
      | false => rfl
      | true =>
        rw [h.marks.lit hlit] at hheld
        cases hheld
    refine ⟨?_, ?_, hproto⟩
    · rw [hmarks]
      exact ⟨rfl, hstreaming, hrunning, hclear, hlit, hkilled⟩
    rw [hpc]
    refine Site.quiet_of ?_ (fun hsite => ?_) hsampled
    · cases hown : s.pc.site.owning with
      | false => rfl
      | true =>
        rw [h.marks.owns hown] at hheld
        cases hheld
    · rw [show s.gf.clearPending = true from (h.marks.clears hsite).1] at hclear
      cases hclear
  | still hmarks =>
    rw [show t.gf.suspended = s.gf.suspended from congrArg Marks.suspended hmarks, hhere] at htook
    cases htook
  | _ => contradiction

theorem RoundFrom.loud {s : State} {startRun : Bool} (h : RoundFrom s startRun) :
    s.pc.site.quiet = false := by
  cases h with
  | first hsite =>
    rw [hsite]
    rfl
  | next hsite =>
    rw [hsite]
    rfl

theorem ship_handed {e : Env} {s : State} (h : Handed s) : Handed (shipStep e s) := by
  have hproto : (shipStep e s).proto = s.proto := shipStep_proto e s
  have hcourse := shipStep_course e s
  obtain ⟨hm, hquiet, howed⟩ := h
  generalize shipStep e s = t at hcourse hproto
  rw [← hproto] at howed
  have hother : ∀ {site : Site}, s.pc.site = site → site.quiet = false → Handed t := by
    intro site hsite hloud
    rw [hsite, hloud] at hquiet
    cases hquiet
  cases hcourse with
  | snapshot hsite hsite' hmarks =>
    refine ⟨?_, ?_, howed⟩
    · rw [hmarks]
      refine ⟨hm.suspended, hm.streaming, hm.kernelRunning, hm.clearPending, ?_, hm.killed⟩
      rw [show s.gf.lastLit = false from hm.lastLit]
      rfl
    · rw [hsite', show s.gf.clearPending = false from hm.clearPending]
      rfl
  | waits hsite hsite' hmarks =>
    refine ⟨?_, by rw [hsite']; rfl, howed⟩
    rw [hmarks]
    exact ⟨hm.suspended, hm.streaming, hm.kernelRunning, hm.clearPending, hm.lastLit, hm.killed⟩
  | turnsBack hsite hsite' hstop hmarks =>
    refine ⟨?_, by rw [hsite']; rfl, howed⟩
    rw [hmarks]
    refine ⟨hm.suspended, hm.streaming, hm.kernelRunning, hm.clearPending, ?_, hm.killed⟩
    rw [show s.gf.lastLit = false from hm.lastLit]
    rfl
  | samples hsite hsite' hfailed hsuspended =>
    rw [show s.gf.suspended = true from hm.suspended] at hsuspended
    cases hsuspended
  | asks hsite hstart =>
    rw [hstart] at hsite
    exact hother hsite rfl
  | skips hsite hsite' hmarks =>
    refine ⟨?_, by rw [hsite']; rfl, howed⟩
    rw [hmarks]
    exact hm
  | rests hsite hsite' hmarks =>
    refine ⟨?_, ?_, howed⟩
    · rw [hmarks]
      exact ⟨hm.suspended, hm.streaming, hm.kernelRunning, hm.clearPending, hm.lastLit, hm.killed⟩
    · rcases hsite' with hsite' | hsite' <;> rw [hsite'] <;> rfl
  | builds hround => exact hother rfl hround.loud
  | finishes hround => exact hother rfl hround.loud
  | clears hsite => exact hother hsite rfl
  | settles hsite => exact hother hsite rfl
  | ends hsite => exact hother hsite rfl
  | holds hsite => exact hother hsite rfl
  | lands hsite => exact hother hsite rfl
  | written hsite => exact hother hsite rfl
  | writeFails hsite => exact hother hsite rfl
  | breaks hsite => exact hother hsite rfl
  | fails hsite => exact hother hsite rfl
  | starts hsite => exact hother hsite rfl
  | faults hsite => exact hother hsite rfl

/-- What a call owes during a handover does not reach the device. -/
theorem turn_owed {s t : State} {l : Label} (hen : l.enabled s = true) (hturn : turn s l = some t)
    (hduring : duringHandover l = true) (hok : resetsUnfailed s l = true) (h : Handed s) :
    t.proto.any Owed.reaches = false := by
  cases l with
  | laserLatch lock ok =>
    cases hturn
    simp only [gfStreamLaserLatch]
    split <;> rfl
  | reset now =>
    have hfailed : s.gf.failed = false := by simpa [resetsUnfailed] using hok
    have hstreaming : s.gf.streaming = false := h.marks.streaming
    have hkilled : s.gf.killed = false := h.marks.killed
    cases hturn
    simp [gfStreamReset, resetOwes, resetStops, resetEnds, hfailed, hstreaming, hkilled]
  | readback expired =>
    cases hturn
    simp only [gfStreamReadback]
    split <;> exact h.proto
  | suspend readOk =>
    simp only [Label.enabled, Bool.and_eq_true, Bool.not_eq_true'] at hen
    rw [show s.gf.suspended = true from h.marks.suspended] at hen
    cases hen.2
  | proto =>
    obtain ⟨o, rest, howed⟩ := proto_owes hturn
    simp only [turn, protoStep] at hturn
    have hp := h.proto
    rw [howed] at hturn hp
    simp only [List.any_cons, Bool.or_eq_false_iff] at hp
    cases o with
    | latchFault =>
      cases hturn
      cases s.latchFailReported <;> simpa [Owed.reaches] using hp.2
    | _ =>
      cases hturn
      exact hp.2
  | clearPosition ok => cases hduring
  | resume latchOk emptied counted => cases hduring
  | _ =>
    rw [turn_proto hturn rfl (by rintro ⟨⟩)]
    exact h.proto

theorem moved_handed {s t : State} {l : Label} (hmoved : Moved s l t)
    (hduring : duringHandover l = true) (hok : resetsUnfailed s l = true) (h : Handed s) :
    t.gf.marks.Away := by
  have hm := h.marks
  cases hmoved with
  | still hmarks =>
    rw [hmarks]
    exact hm
  | wakesLive hl =>
    subst hl
    cases hduring
  | begins hl =>
    subst hl
    cases hduring
  | event hl hlive =>
    rw [show s.gf.streaming = false from hm.streaming] at hlive
    cases hlive
  | idles hl hmarks =>
    rw [hmarks]
    refine ⟨hm.suspended, rfl, hm.kernelRunning, hm.clearPending, hm.lastLit, ?_⟩
    -- the device is another process's: a reset's idle leaves no mark
    rw [show s.gf.killed = false from hm.killed, show s.gf.streaming = false from hm.streaming,
      show s.gf.suspended = true from hm.suspended]
    simp
  | resets hl hafter =>
    subst hl
    have hfailed : s.gf.failed = false := by simpa [resetsUnfailed] using hok
    have hstreaming : s.gf.streaming = false := hm.streaming
    have hkilled : s.gf.killed = false := hm.killed
    have hstops : resetStops s.gf = false := by simp [resetStops, resetEnds, hstreaming, hkilled]
    have hclear : s.gf.clearPending = false := hm.clearPending
    have hrunning : s.gf.kernelRunning = false := hm.kernelRunning
    refine ⟨hafter.suspended.trans hm.suspended, hafter.streaming, ?_, ?_, ?_, hafter.killed⟩
    · simp [Gf.marks, hafter.kernelRunning, hrunning]
    · simp [Gf.marks, hafter.clearPending, hclear, hstops, hfailed]
    · simp [Gf.marks, hafter.lastLit, hstops]
  | suspends hl hdrained hmarks =>
    rw [hmarks]
    exact ⟨rfl, hm.streaming, hm.kernelRunning, hm.clearPending, hm.lastLit, hm.killed⟩
  | resumes hl =>
    subst hl
    cases hduring
  | latchFails hl hhead hmarks =>
    rw [hmarks]
    exact ⟨hm.suspended, hm.streaming, hm.kernelRunning, hm.clearPending, hm.lastLit, hm.killed⟩
  | swaps hl hhead =>
    have howed := h.proto
    rw [List.any_eq_false] at howed
    exact absurd rfl (howed _ (List.mem_of_mem_head? hhead))

theorem step_handed {s t : State} {l : Label} (hstep : step s l = some t)
    (hduring : duringHandover l = true) (hok : resetsUnfailed s l = true) (h : Handed s) : Handed t := by
  obtain ⟨hen, hturn⟩ := step_eq_some.mp hstep
  cases l with
  | ship e =>
    cases hturn
    exact ship_handed h
  | _ =>
    refine ⟨moved_handed (turn_moved hturn (by rintro _ ⟨⟩)) hduring hok h, ?_,
        turn_owed hen hturn hduring hok h⟩
    rw [(turn_turned hturn (by rintro _ ⟨⟩)).pc]
    exact h.site

/-- No step of a handover writes to the device. -/
theorem Handed.untouched {s : State} {l : Label} (h : Handed s) (hduring : duringHandover l = true) :
    l.deviceWrites s = false := by
  obtain ⟨hm, hquiet, howed⟩ := h
  have hstreaming : s.gf.streaming = false := hm.streaming
  have hclear : s.gf.clearPending = false := hm.clearPending
  have hlit : s.gf.lastLit = false := hm.lastLit
  cases l with
  | ship e =>
    simp only [Label.deviceWrites, shipWrites]
    cases hpc : s.pc with (rw [hpc] at hquiet)
    | top => simp [hclear]
    | lock => simp [hlit]
    | _ => first | rfl | cases hquiet
  | locked c now =>
    cases c with
    | wakeup => cases hduring
    | _ => simp [Label.deviceWrites, Call.writes, State.clamps, hstreaming]
  | proto =>
    cases hp : s.proto with
    | nil => simp [Label.deviceWrites, hp]
    | cons o rest =>
      rw [hp, List.any_cons, Bool.or_eq_false_iff] at howed
      cases o with
      | stop => cases howed.1
      | streamingOff => cases howed.1
      | _ => simp [Label.deviceWrites, hp, Owed.writes]
  | clearPosition ok => cases hduring
  | resume latchOk emptied counted => cases hduring
  | _ => rfl

/-- **A device that is handed over is left alone.** Behind a `gf_stream_suspend` that has handed
an active device over, with no kill mark standing, no step up to the next `gf_stream_resume`
writes a byte to the device, clears it, or writes `cnc/run`, `cnc/stop` or `cnc/streaming`, and
none changes it: in every run in which no reset finds a fault to acknowledge. -/
theorem handed_over_untouched {c : Config} {k : Kernel} {emptied counted readOk : Bool}
    {s t u v : State} {l : Label}
    (hrun : Runs.Reach step (fun _ _ => True) (State.init c k emptied counted) s)
    (hactive : s.gf.active = true) (hsuspend : step s (.suspend readOk) = some t)
    (htook : t.gf.suspended = true) (hkilled : s.gf.killed = false)
    (hhanded : Runs.Reach step (fun s l => duringHandover l = true ∧ resetsUnfailed s l = true) t u)
    (hduring : duringHandover l = true) (hstep : step u l = some v) :
    l.deviceWrites u = false ∧ (l.foreignWrites = false → v.kernel = u.kernel) := by
  have h0 := suspend_hands (reach_custody hrun) hactive hsuspend htook hkilled
  have hinv : Handed u := hhanded.invariant h0 fun s l t h hok hstep => step_handed hstep hok.1 hok.2 h
  have huntouched := hinv.untouched hduring
  exact ⟨huntouched, fun hours => turn_kernel (step_eq_some.mp hstep).2 hours huntouched⟩

/-- The engine of an active device, as it starts. -/
def handoverStart : State := State.init (slowConfig true) idleKernel true true

/-- An idle and a reset, and a lock of the latch that fails: the stream is faulted. -/
def faultedHandover : List Label :=
  [.goIdle true 0x01 0x00, .reset 0, .laserLatch true false, .proto, .proto, .proto]

/-- The theorem in a handover under which the stream has failed: the shipper's pass leaves the
device. -/
theorem handed_over_untouched_faulted :
    ∃ t u v, step handoverStart (.suspend true) = some t ∧ u.gf.failed = true ∧
      step u (.ship {}) = some v ∧ v.kernel = u.kernel := by
  have hex : (step handoverStart (.suspend true)).any (fun t => decide (t.gf.suspended = true ∧
      (Runs.exec step (fun s l => duringHandover l = true ∧ resetsUnfailed s l = true) t
        (faultedHandover ++ [Label.ship {}])).any (fun u => decide (u.gf.failed = true ∧
          (step u (.ship {})).isSome = true)) = true)) = true := by decide +kernel
  obtain ⟨t, hsuspend, ht⟩ := (Option.any_eq_true _ _).mp hex
  obtain ⟨htook, hrest⟩ := of_decide_eq_true ht
  obtain ⟨u, hexec, hu⟩ := (Option.any_eq_true _ _).mp hrest
  obtain ⟨hfailed, hsome⟩ := of_decide_eq_true hu
  obtain ⟨v, hstep⟩ := Option.isSome_iff_exists.mp hsome
  exact ⟨t, u, v, hsuspend, hfailed, hstep, (handed_over_untouched (c := slowConfig true) .refl rfl hsuspend
    htook rfl (Runs.reach_of_exec hexec) rfl hstep).2 rfl⟩

/-- **A reset can stop a device that is handed over.** The latch fault of the handover sets
`gf.failed`, and the reset that acknowledges it writes `cnc/stop` and `cnc/streaming` to the
other process's device, and leaves a clear for the shipper to make there. -/
theorem handed_over_stopped :
    ∃ t u v, step handoverStart (.suspend true) = some t ∧ t.gf.suspended = true ∧
      Runs.Reach step (fun _ l => duringHandover l = true) t u ∧ u.gf.clearPending = true ∧
      step u .proto = some v ∧ Label.deviceWrites u .proto = true := by
  have hex : (step handoverStart (.suspend true)).any (fun t => decide (t.gf.suspended = true ∧
      (Runs.exec step (fun _ l => duringHandover l = true) t
        (faultedHandover ++ [Label.reset 0])).any (fun u => decide (u.gf.clearPending = true ∧
          (step u .proto).isSome = true ∧ Label.deviceWrites u .proto = true)) = true)) = true := by
    decide +kernel
  obtain ⟨t, hsuspend, ht⟩ := (Option.any_eq_true _ _).mp hex
  obtain ⟨htook, hrest⟩ := of_decide_eq_true ht
  obtain ⟨u, hexec, hu⟩ := (Option.any_eq_true _ _).mp hrest
  obtain ⟨hclear, hsome, hwrites⟩ := of_decide_eq_true hu
  obtain ⟨v, hstep⟩ := Option.isSome_iff_exists.mp hsome
  exact ⟨t, u, v, hsuspend, htook, Runs.reach_of_exec hexec, hclear, hstep, hwrites⟩

end Glowforge.Stream
