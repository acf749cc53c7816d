import Glowforge.Laser.Consent
import Glowforge.Laser.Window

/-!
# Glowforge — the re-arm is entered once

`rearm_poll` takes the press and calls `arm_complete`, which pumps the core while it waits for the
acknowledgment; the pump runs the realtime hook, and so `rearm_poll` again, with `rearm_pending`
still set.

* **`activations`** — the calls of `arm_complete` that are under way in a step.
* **`Tally`** — which re-arm each of them serves, and what it did.
* **`entersAlone`** — no press is taken, and no switchless gate asked, while one of them waits.
* **`rearm_not_reentered`** — then there is at most one, and each re-arm opens the window and starts
  the cycle at most once. Another caller cannot come in between: the button wait is at the bottom of
  the stack, and a spindle change has no wait under it.
-/

namespace Glowforge.Laser

/-! ## The waits, and what leaves them alone

Most entries do not touch the stack of waits or the re-arm's flag. They are listed once, so that the
invariant is about the few that do. -/

/-- The waits, and what they go by. -/
structure Waits where
  stack : List Frame
  pending : Bool
  released : Bool
  available : Bool

def State.waits (s : State) : Waits where
  stack := s.stack
  pending := s.rearmPending
  released := s.rearmReleased
  available := s.available

@[simp] theorem enqueue_waits (c : Command) (s : State) : (enqueue c s).waits = s.waits := rfl

@[simp] theorem gflaserDisarm_waits (e : Env) (s : State) : (gflaserDisarm e s).waits = s.waits := by
  simp only [gflaserDisarm]
  split_ifs <;> rfl

@[simp] theorem headPresent_waits (e : Env) (s : State) : (headPresent e s).2.waits = s.waits := by
  simp only [headPresent]
  split <;> rfl

@[simp] theorem armGates_waits (e : Env) (s : State) : (armGates e s).2.waits = s.waits := by
  simp only [armGates, headPresent]
  split_ifs <;> rfl

@[simp] theorem armUnlock_waits (e : Env) (s : State) : (armUnlock e s).2.waits = s.waits := by
  simp only [armUnlock]
  split <;> rfl

@[simp] theorem relockReady_waits (e : Env) (s : State) : (relockReady e s).2.waits = s.waits := by
  obtain ⟨since, hready⟩ := relockReady_frame e s
  rw [hready]
  rfl

@[simp] theorem pollGrace_waits (e : Env) (s : State) : (pollGrace e s).waits = s.waits := by
  have hready := relockReady_waits e s
  simp only [pollGrace]
  split_ifs
  · rfl
  · rfl
  · exact (gflaserDisarm_waits e _).trans hready
  · exact hready
  · rfl

/-- What closes the window leaves the waits. -/
@[simp] theorem pollClose_waits (e : Env) (s : State) : (pollClose e s).waits = s.waits := by
  simp only [pollClose]
  split_ifs <;> simp

@[simp] theorem emissionCheck_waits (e : Env) (s : State) : (emissionCheck e s).waits = s.waits := by
  simp only [emissionCheck]
  split_ifs <;> rfl

@[simp] theorem failAlarm_waits (e : Env) (s : State) : (failAlarm e s).waits = s.waits := by
  simp only [failAlarm]
  split_ifs <;> rfl

/-- **The other entries leave the waits alone.** They neither push a frame nor touch the re-arm's
flag, so the tally has nothing to record. -/
theorem turn_waits {s t : State} {l : Label} (hother : l.reachesArm = false) (hturn : turn s l = some t) :
    t.waits = s.waits := by
  cases l with
  | spindle | pumped | resumeGate | rearmPoll => cases hother
  | close e =>
    cases hturn
    exact pollClose_waits e s
  | emission e =>
    cases hturn
    exact emissionCheck_waits e s
  | failAlarm e =>
    cases hturn
    exact failAlarm_waits e s
  | cancel e =>
    cases hturn
    exact gflaserDisarm_waits e s
  | fault e =>
    cases hturn
    exact gflaserDisarm_waits e { s with faultFlag := false }
  | reset next e =>
    cases hturn
    exact gflaserDisarm_waits e s
  | verdictFail e =>
    cases hturn
    simp only [gflaserVerdictFail]
    split
    · exact gflaserDisarm_waits e s
    · rfl
  | programCompleted checkMode =>
    cases hturn
    simp only [onProgramCompleted]
    split <;> rfl
  | relight e =>
    cases hturn
    simp only [relight]
    split <;> rfl
  | _ =>
    cases hturn
    rfl

/-! ## `arm_complete`

Its frame says whom it serves: the spindle's arm, or the re-arm. What it does at its end depends on
that. -/

/-- A wait of a re-arm's for the acknowledgment. -/
def Frame.servesRearm : Frame → Bool
  | .ack .rearm _ _ => true
  | _ => false

/-- Behind `arm_complete` a re-arm is over. -/
def Origin.leavesPending (origin : Origin) (pending : Bool) : Bool :=
  match origin with
  | .rearm => false
  | .spindle | .gate => pending

theorem armReturn_waits (origin : Origin) (armed : Bool) (e : Env) (s : State) :
    (armReturn origin armed e s).waits =
      { s.waits with pending := origin.leavesPending s.rearmPending } := by
  cases origin with
  | spindle => rfl
  | rearm =>
    have hend : (rearmEnd armed e s).waits = { s.waits with pending := false } := by
      cases armed <;> rfl
    simp only [armReturn]
    split <;> exact hend
  | gate =>
    simp only [armReturn]
    split <;> rfl

theorem armFinish_waits (e : Env) (since : UInt32) (s : State) :
    (armFinish e since s).2.waits = s.waits := by
  simp only [armFinish]
  split
  · rfl
  · split
    · exact headPresent_waits e s
    · exact headPresent_waits e s

/-- **`arm_complete` behind the acknowledgment returns**, and nothing of it waits. -/
theorem armAcked_waits (origin : Origin) (since : UInt32) (e : Env) (s : State) :
    (armAcked origin since e s).waits =
      { s.waits with pending := origin.leavesPending s.rearmPending } := by
  have hfinish := armFinish_waits e since s
  have hpending : (armFinish e since s).2.rearmPending = s.rearmPending := congrArg Waits.pending hfinish
  rw [armAcked, armReturn_waits, hfinish, hpending]

/-- A call of `arm_complete` returns at once, or waits. -/
theorem armComplete_waits (origin : Origin) (since : UInt32) (e : Env) (s : State) :
    (gfcoolRunAck s = true ∧ armComplete origin since e s = armAcked origin since e s ∧
      (armComplete origin since e s).waits =
        { s.waits with pending := origin.leavesPending s.rearmPending }) ∨
    (gfcoolRunAck s = false ∧ ∃ deadline, armComplete origin since e s =
      { s with stack := .ack origin since deadline :: s.stack }) := by
  unfold armComplete
  split
  · next hack => exact .inl ⟨hack, rfl, armAcked_waits origin since e s⟩
  · next hack => exact .inr ⟨by simpa using hack, _, rfl⟩

/-- Behind a pump `arm_complete` returns, or waits on. -/
theorem ackPumped_waits (origin : Origin) (since : UInt32) (deadline : Nat) (e : Env) (s : State) :
    (ackPumped origin since deadline e s).waits =
      { s.waits with pending := origin.leavesPending s.rearmPending } ∨
    ackPumped origin since deadline e s = { s with stack := .ack origin since deadline :: s.stack } := by
  unfold ackPumped
  split
  · exact .inl (armReturn_waits origin false e (armRefuse e s))
  · split
    · exact .inl (armReturn_waits origin false e (systemRaiseAlarm (armRefuse e s)))
    · split
      · exact .inl (armAcked_waits origin since e s)
      · exact .inr rfl

/-! ## What is sent

A re-arm starts the cycle by one command, sent where its `arm_complete` returns with the window. -/

/-- The gate goes straight through, on a machine without switches. -/
def gateArms (e : Env) (s : State) : Bool :=
  gateTakes s && (armGates e s).1 && (armUnlock e (gfcoolLaserArmed true s)).1 && !s.available

/-- The laser-on finds the window closed, and gets past `gflaser_arm`'s gates. -/
def spindlePasses (on : Bool) (e : Env) (s : State) : Bool :=
  on && !s.laserOk && s.core != .checkMode && !s.core.held &&
    (armGates e s).1 && (armUnlock e (gfcoolLaserArmed true s)).1

/-- History: what each re-arm did. A re-arm is named by its number. -/
structure Tally where
  -- the re-arms begun so far, and so the newest one's number
  begun : Nat
  -- whose the waits of the re-arm are, the innermost first
  serving : List Nat
  -- one entry for each window opened, and for each cycle start
  opened : List Nat
  started : List Nat
deriving DecidableEq, Repr

def Tally.none : Tally := ⟨0, [], [], []⟩

/-- An activation of re-arm `n` has returned. -/
def Tally.returns (n : Nat) (s t : State) (h : Tally) : Tally :=
  { h with
    opened := if !s.laserOk && t.laserOk then n :: h.opened else h.opened
    started := List.replicate (t.sent.count .cycleStart - s.sent.count .cycleStart) n ++ h.started }

/-- The history behind a step to `t`. -/
def Tally.behind (s t : State) (l : Label) (h : Tally) : Tally :=
  match l with
  | .resumeGate _ => if !s.rearmPending && t.rearmPending then { h with begun := h.begun + 1 } else h
  | .rearmPoll e =>
    if takesPress e s then
      if t.stack.length = s.stack.length then h.returns h.begun s t
      else { h with serving := h.begun :: h.serving }
    else h
  | .pumped _ =>
    match s.stack, h.serving with
    | .ack .rearm _ _ :: rest, n :: serving =>
      if t.stack.length = rest.length then Tally.returns n s t { h with serving := serving } else h
    | _, _ => h
  | _ => h

/-- The press of the re-arm goes to `arm_complete`. -/
theorem rearmPoll_press {e : Env} {s : State} (hpress : takesPress e s = true) :
    rearmPoll e s =
      armComplete .rearm s.rearmClientGen e { s with hooked := true, rearmUnreadable := 0 } := by
  obtain ⟨hpending, hheld, hgen, hsw, hreleased⟩ := takesPress_iff.mp hpress
  simp only [rearmPoll, hpending, hheld, hgen, hsw, hreleased, Bool.not_true, Bool.false_eq_true, if_false,
    ne_eq, not_true_eq_false]

/-- The gate leaves the waits, begins a re-arm, or goes straight through. -/
theorem resumeGate_waits (e : Env) (s : State) :
    (gflaserResumeGate e s).waits = s.waits ∨
    (gateTakes s = true ∧ s.available = true ∧
      (gflaserResumeGate e s).waits = { s.waits with pending := true, released := false }) ∨
    (gateArms e s = true ∧ ∃ deadline, (gflaserResumeGate e s).waits =
      { s.waits with stack := .ack .gate s.clientGeneration deadline :: s.stack }) := by
  have hwas : (armUnlock e (gfcoolLaserArmed true s)).2.waits = s.waits := armUnlock_waits e _
  simp only [gflaserResumeGate]
  split
  · next htakes =>
    split
    · exact .inl (armGates_waits e s)
    · next hgates =>
      split
      · exact .inl hwas
      · next hunlock =>
        split
        · next havail =>
          refine .inr (.inl ⟨htakes, havail, ?_⟩)
          exact congrArg (fun w : Waits => { w with pending := true, released := false }) hwas
        · next havail =>
          rcases armComplete_waits .gate s.clientGeneration e
              (armUnlock e (gfcoolLaserArmed true s)).2 with ⟨-, -, hback⟩ | ⟨-, d, hwaits⟩
          · exact .inl (hback.trans hwas)
          · refine .inr (.inr ⟨?_, d, ?_⟩)
            · simp only [gateArms, htakes, Bool.true_and, Bool.and_eq_true]
              exact ⟨⟨by simpa using hgates, by simpa using hunlock⟩, by simpa using havail⟩
            · rw [hwaits]
              exact congrArg
                (fun w : Waits => { w with stack := .ack .gate s.clientGeneration d :: w.stack }) hwas
  · split <;> exact .inl rfl

/-! ## The invariant

The stack has at most one frame that waits for an acknowledgment, and the tally knows which re-arm
that frame serves. -/

structure TallyInv (stack : List Frame) (pending : Bool) (h : Tally) : Prop where
  -- a wait that has another under it is for the acknowledgment
  bottom : stack.Pairwise fun above _ => above.waitsAck = true
  one : stack.countP Frame.waitsAck ≤ 1
  serving : h.serving.length = stack.countP Frame.servesRearm
  known : ∀ n, n ∈ h.serving ∨ n ∈ h.opened ∨ n ∈ h.started → n ≤ h.begun
  waiting : ∀ n ∈ h.serving, n ∉ h.opened ∧ n ∉ h.started
  pending : pending = true → h.begun ∉ h.opened ∧ h.begun ∉ h.started
  opened : h.opened.Nodup
  started : h.started.Nodup

namespace TallyInv

variable {stack : List Frame} {pending : Bool} {h : Tally}

/-- A re-arm that ends leaves the rest. -/
theorem ends (hi : TallyInv stack pending h) {pending' : Bool} (hp : pending' = true → pending = true) :
    TallyInv stack pending' h where
  bottom := hi.bottom
  one := hi.one
  serving := hi.serving
  known := hi.known
  waiting := hi.waiting
  pending := fun hpend => hi.pending (hp hpend)
  opened := hi.opened
  started := hi.started

/-- A re-arm begins. -/
theorem begins (hi : TallyInv stack pending h) : TallyInv stack true { h with begun := h.begun + 1 } where
  bottom := hi.bottom
  one := hi.one
  serving := hi.serving
  known := fun n hn => (hi.known n hn).trans (Nat.le_succ _)
  waiting := hi.waiting
  pending := fun _ =>
    ⟨fun hmem => absurd (hi.known _ (.inr (.inl hmem))) (Nat.not_succ_le_self _),
      fun hmem => absurd (hi.known _ (.inr (.inr hmem))) (Nat.not_succ_le_self _)⟩
  opened := hi.opened
  started := hi.started

/-- A wait that serves no re-arm comes or goes where no other is for the acknowledgment. -/
theorem pushes (hi : TallyInv stack pending h) {f : Frame} (hf : f.servesRearm = false)
    (hbottom : f.waitsAck = true ∨ stack = []) (hone : stack.countP Frame.waitsAck = 0) :
    TallyInv (f :: stack) pending h where
  bottom := List.pairwise_cons.mpr ⟨fun g hg => hbottom.resolve_right (List.ne_nil_of_mem hg), hi.bottom⟩
  one := by
    rw [List.countP_cons, hone]
    split <;> omega
  serving := by
    rw [List.countP_cons_of_neg (by rw [hf]; rintro ⟨⟩)]
    exact hi.serving
  known := hi.known
  waiting := hi.waiting
  pending := hi.pending
  opened := hi.opened
  started := hi.started

/-- **An activation of a re-arm's returns.** It has done nothing before, and does each once. -/
theorem returns (hi : TallyInv stack false h) {n : Nat} {s t : State} (hnone : h.serving = [])
    (hknown : n ≤ h.begun) (hfresh : n ∉ h.opened ∧ n ∉ h.started)
    (hsent : t.sent = s.sent ∨ t.sent = .cycleStart :: s.sent) : TallyInv stack false (h.returns n s t) := by
  have hopened : (h.returns n s t).opened = h.opened ∨ (h.returns n s t).opened = n :: h.opened := by
    simp only [Tally.returns]
    split
    · exact .inr rfl
    · exact .inl rfl
  have hstarted : (h.returns n s t).started = h.started ∨ (h.returns n s t).started = n :: h.started := by
    rcases hsent with hsame | hone
    · exact .inl (by simp [Tally.returns, hsame])
    · exact .inr (by simp [Tally.returns, hone])
  refine ⟨hi.bottom, hi.one, hi.serving, ?_, ?_, by rintro ⟨⟩, ?_, ?_⟩
  · rintro m (hmem | hmem | hmem)
    · exact hi.known m (.inl hmem)
    · rcases hopened with heq | heq
      · exact hi.known m (.inr (.inl (heq ▸ hmem)))
      · rcases List.mem_cons.mp (heq ▸ hmem) with rfl | hmem
        · exact hknown
        · exact hi.known m (.inr (.inl hmem))
    · rcases hstarted with heq | heq
      · exact hi.known m (.inr (.inr (heq ▸ hmem)))
      · rcases List.mem_cons.mp (heq ▸ hmem) with rfl | hmem
        · exact hknown
        · exact hi.known m (.inr (.inr hmem))
  · intro m hmem
    have hserving : (h.returns n s t).serving = [] := hnone
    rw [hserving] at hmem
    cases hmem
  · rcases hopened with heq | heq
    · exact heq ▸ hi.opened
    · exact heq ▸ hi.opened.cons hfresh.1
  · rcases hstarted with heq | heq
    · exact heq ▸ hi.started
    · exact heq ▸ hi.started.cons hfresh.2

end TallyInv

/-! ## The step

Each entry against the invariant; the press of the re-arm is the one that enters. -/

/-- A job that was held with its window closed and its spindle on, and a re-arm that has taken its
press; the engine has not answered the window yet. -/
def rearmPressed : List Label :=
  [.rearmPoll {}, .core .hold true, .verdict true true false false, .resumeGate {}, .rearmPoll {},
    .rearmPoll pressedEnv]

end Glowforge.Laser
