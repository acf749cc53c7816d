import Glowforge.Laser.Machine

/-!
# Glowforge — the copies of the armed window agree

The window is open in `laser_ok`; the stream's `laser_armed`, the cooling client's
`laser_on_window` and the latch record must say the same. An arm sets the last two ahead of its
waits and the first two behind them, and another path may lock the latch in between:

* **`ArmView`** — the copies, and what decides whether a wait notices.
* **`WindowInv`** — the window and every arm under way are covered by an unlocked latch, or the
  arm is about to end.
* **`window_copies_agree`** — the copies agree in every run in which arms do not overlap and
  nothing locks the latch under the wait for the acknowledgment.
* **`disarm_lost_in_ack_wait`** — a stream fault in that wait does not end the arm.
-/

namespace Glowforge.Laser

/-! ## What the copies depend on

The copies are written by a few operations, and what makes a wait give up is read from a few
variables. Together they are a view, and an entry is described by what it does to the view. -/

structure ArmView where
  laserOk : Bool
  laserArmed : Bool
  laserOnWindow : Bool
  latchLockedByUs : Bool
  rearmPending : Bool
  core : SysState
  hooked : Bool
  aborting : Bool
  stack : List Frame

def State.armView (s : State) : ArmView where
  laserOk := s.laserOk
  laserArmed := s.laserArmed
  laserOnWindow := s.laserOnWindow
  latchLockedByUs := s.latchLockedByUs
  rearmPending := s.rearmPending
  core := s.core
  hooked := s.hooked
  aborting := s.aborting
  stack := s.stack

namespace ArmView

/-- The copies that an arm sets ahead of its waits. -/
def Covered (v : ArmView) : Prop := v.laserOnWindow = true ∧ v.latchLockedByUs = false

/-- An arm that waits is covered, or its wait will notice that it is not: a soft reset ends
both waits, an alarm the button wait only. -/
def ArmsCovered (v : ArmView) : Prop :=
  match v.stack with
  | [] => True
  | [.ack origin _ _] =>
    (origin = .rearm ∨ v.rearmPending = false) ∧ (v.aborting = true ∨ v.Covered)
  | [.button _ _ _ _ _] =>
    v.rearmPending = false ∧ (v.aborting = true ∨ v.core.alarmed = true ∨ v.Covered)
  | _ => False

def alarm (v : ArmView) : ArmView :=
  { v with core := if v.core = .estop then .estop else .alarm, hooked := false }

def disarm (v : ArmView) : ArmView :=
  { v with
    laserOk := false, laserArmed := false, latchLockedByUs := true
    laserOnWindow := v.laserOnWindow && (!v.laserOk && v.latchLockedByUs) }

def refuse (v : ArmView) : ArmView := { v with laserOnWindow := false, latchLockedByUs := true }

def opened (v : ArmView) : ArmView := { v with laserOk := true, laserArmed := true }

/-- The waits notice what they noticed before. -/
theorem ArmsCovered.mono {v w : ArmView} (h : v.ArmsCovered) (hstack : w.stack = v.stack)
    (hpending : v.rearmPending = false → w.rearmPending = false)
    (hack : v.stack.any Frame.waitsAck = true → v.aborting = true ∨ v.Covered →
      w.aborting = true ∨ w.Covered)
    (hbutton : v.aborting = true ∨ v.core.alarmed = true ∨ v.Covered →
      w.aborting = true ∨ w.core.alarmed = true ∨ w.Covered) : w.ArmsCovered := by
  unfold ArmsCovered at *
  rw [hstack]
  cases hs : v.stack with rw [hs] at h hack
  | nil => trivial
  | cons f rest =>
    cases rest with
    | cons g gs => cases f <;> cases h
    | nil =>
      cases f with
      | ack origin since deadline => exact ⟨h.1.imp_right hpending, hack rfl h.2⟩
      | button senderGen released unreadable deadline lid => exact ⟨hpending h.1, hbutton h.2⟩

theorem alarm_alarmed (v : ArmView) : v.alarm.core.alarmed = true := by
  simp only [alarm]
  split <;> rfl

end ArmView

/-- **The invariant.** -/
structure WindowInv (v : ArmView) : Prop where
  window : v.laserOk = true → v.laserArmed = true ∧ v.Covered
  alone : v.laserOk = true → v.stack = [] ∧ v.rearmPending = false
  arms : v.ArmsCovered
  rearm : v.rearmPending = true → v.core.held = true → v.Covered
  hooked : v.hooked = true → v.rearmPending = true → v.core.held = true

/-! ## The condition

Two things that the waits do not guard against: an arm within an arm, and a lock that the wait for
the acknowledgment does not notice. -/

/-- An arm waits for the acknowledgment. -/
def waitsAck (s : State) : Bool := s.stack.any Frame.waitsAck

/-- **Arms do not overlap**: none begins while a re-arm is pending, and under an arm that waits
no re-arm begins, takes its press or, but for a soft reset, ends. -/
def apart (s : State) : Label → Bool
  | .spindle on _ => !(on && !s.laserOk && !s.core.held && s.rearmPending)
  | .resumeGate _ => s.stack.isEmpty || !gateTakes s
  | .rearmPoll e => s.stack.isEmpty || (!takesPress e s && (!rearmEnds e s || s.aborting))
  | _ => true

/-- **A lock is noticed**: no fault and no emission locks the latch under the wait for the
acknowledgment, but for a soft reset, and no cancel locks it under an arm or a re-arm. -/
def noticed (s : State) : Label → Bool
  | .fault _ => !waitsAck s || s.aborting
  | .emission e => !emissionSensed e s || !waitsAck s || s.aborting
  | .cancel _ => s.stack.isEmpty && !s.rearmPending
  | _ => true

def undisturbed (s : State) (l : Label) : Bool := apart s l && noticed s l

/-- Every latch write of the step takes. -/
def Label.latchOk (l : Label) : Bool := l.env.all (·.latchOk)

/-! ## The operations -/

theorem latchLock_lock {e : Env} (hok : e.latchOk = true) (s : State) :
    (latchLock true e s).2.armView = { s.armView with latchLockedByUs := true } := by
  simp only [latchLock, hok, State.armView]
  rfl

theorem latchLock_unlock {e : Env} (hok : e.latchOk = true) (s : State) :
    (latchLock false e s).1 = true ∧
      (latchLock false e s).2.armView = { s.armView with latchLockedByUs := false } := by
  cases hlocked : s.latchLockedByUs with
  | true =>
    simp only [latchLock, hok, hlocked, State.armView]
    exact ⟨rfl, rfl⟩
  | false =>
    simp only [latchLock, hok, hlocked, State.armView]
    exact ⟨rfl, rfl⟩

theorem armRefuse_view {e : Env} (hok : e.latchOk = true) (s : State) :
    (armRefuse e s).armView = s.armView.refuse := by
  have hlock := latchLock_lock hok s
  simp only [armRefuse, gfcoolLaserArmed]
  change { (latchLock true e s).2.armView with laserOnWindow := false } = _
  rw [hlock]
  rfl

theorem spindleFinish_view (on : Bool) (e : Env) (s : State) :
    (spindleFinish on e s).armView = s.armView := rfl

theorem gflaserDisarm_view {e : Env} (hok : e.latchOk = true) (s : State) :
    (gflaserDisarm e s).armView = s.armView.disarm := by
  simp only [gflaserDisarm, latchLock, hok, gfcoolLaserArmed, ArmView.disarm, State.armView]
  cases s.laserOk <;> cases s.latchLockedByUs <;> simp

/-- Between two arms only the window is left to tell. -/
theorem WindowInv.rest {v : ArmView} (hstack : v.stack = []) (hpending : v.rearmPending = false)
    (hwindow : v.laserOk = true → v.laserArmed = true ∧ v.Covered) : WindowInv v where
  window := hwindow
  alone := fun _ => ⟨hstack, hpending⟩
  arms := by
    simp only [ArmView.ArmsCovered, hstack]
  rearm := by
    rw [hpending]
    rintro ⟨⟩
  hooked := by
    rw [hpending]
    rintro _ ⟨⟩

/-- A closed window leaves the waits to tell. -/
theorem WindowInv.closed {v : ArmView} (hok : v.laserOk = false) (harms : v.ArmsCovered)
    (hrearm : v.rearmPending = true → v.core.held = true → v.Covered)
    (hhooked : v.hooked = true → v.rearmPending = true → v.core.held = true) : WindowInv v where
  window := by
    rw [hok]
    rintro ⟨⟩
  alone := by
    rw [hok]
    rintro ⟨⟩
  arms := harms
  rearm := hrearm
  hooked := hhooked

theorem WindowInv.closed_of_stack {v : ArmView} (h : WindowInv v) (hstack : v.stack ≠ []) :
    v.laserOk = false := by
  rw [← Bool.not_eq_true]
  exact fun hok => hstack (h.alone hok).1

theorem WindowInv.closed_of_pending {v : ArmView} (h : WindowInv v) (hpending : v.rearmPending = true) :
    v.laserOk = false := by
  rw [← Bool.not_eq_true]
  exact fun hok => absurd (hpending.symm.trans (h.alone hok).2) (by decide)

/-! ## An arm -/

/-- What an arm finds when it is the innermost call: the window closed, and no other arm. -/
structure ArmAlone (origin : Origin) (v : ArmView) : Prop where
  closed : v.laserOk = false
  stack : v.stack = []
  pending : origin = .rearm ∨ v.rearmPending = false

theorem headPresent_view (e : Env) (s : State) :
    (headPresent e s).2.armView = s.armView ∧ (headPresent e s).1 = true ∨
      (headPresent e s).2.armView = s.armView.alarm ∧ (headPresent e s).1 = false := by
  simp only [headPresent]
  split
  · exact .inl ⟨rfl, rfl⟩
  · exact .inr ⟨rfl, rfl⟩

/-- An arm that returns leaves no other under way: all there is to tell is the window. -/
theorem armReturn_inv {origin : Origin} {armed : Bool} {e : Env} {s : State} (hok : e.latchOk = true)
    (hstack : s.armView.stack = []) (hpending : origin = .rearm ∨ s.armView.rearmPending = false)
    (hwindow : armed = true → s.armView.laserArmed = true ∧ s.armView.Covered)
    (hclosed : armed = false → s.armView.laserOk = false) :
    WindowInv (armReturn origin armed e s).armView := by
  have hopen : s.armView.laserOk = true → s.armView.laserArmed = true ∧ s.armView.Covered := by
    intro hlaser
    cases armed with
    | true => exact hwindow rfl
    | false => exact absurd ((hclosed rfl).symm.trans hlaser) (by decide)
  cases origin with
  | spindle =>
    have hnone := hpending.resolve_left (by decide)
    exact .rest hstack hnone hopen
  | gate =>
    have hnone := hpending.resolve_left (by decide)
    simp only [armReturn]
    split <;> exact .rest hstack hnone hopen
  | rearm =>
    have hend : WindowInv (rearmEnd armed e s).armView := by
      cases armed with
      | true => exact .rest hstack rfl hopen
      | false =>
        have hview : (rearmEnd false e s).armView =
            ArmView.refuse { s.armView with rearmPending := false } := armRefuse_view hok _
        rw [hview]
        exact .rest hstack rfl fun hlaser => absurd ((hclosed rfl).symm.trans hlaser) (by decide)
    simp only [armReturn]
    split <;> exact hend

theorem armRefused_inv {origin : Origin} {e : Env} {s t : State} (hok : e.latchOk = true)
    (halone : ArmAlone origin s.armView)
    (hview : t.armView = s.armView.refuse ∨ t.armView = s.armView.refuse.alarm) :
    WindowInv (armReturn origin false e t).armView := by
  have hkept : t.armView.stack = s.armView.stack ∧ t.armView.rearmPending = s.armView.rearmPending ∧
      t.armView.laserOk = s.armView.laserOk := by
    rcases hview with hview | hview <;> rw [hview] <;> exact ⟨rfl, rfl, rfl⟩
  refine armReturn_inv hok (hkept.1.trans halone.stack) ?_ (by rintro ⟨⟩)
      fun _ => hkept.2.2.trans halone.closed
  rw [hkept.2.1]
  exact halone.pending

/-- `arm_complete` behind the acknowledgment opens the window, or refuses. -/
theorem armFinish_view {since : UInt32} {e : Env} (hok : e.latchOk = true) (s : State) :
    (armFinish e since s).1 = true ∧ (armFinish e since s).2.armView = s.armView.opened ∨
      (armFinish e since s).1 = false ∧ ((armFinish e since s).2.armView = s.armView.refuse ∨
        (armFinish e since s).2.armView = s.armView.refuse.alarm) := by
  simp only [armFinish]
  split
  · exact .inr ⟨rfl, .inr (congrArg ArmView.alarm (armRefuse_view hok s))⟩
  · rcases headPresent_view e s with ⟨hview, hhead⟩ | ⟨hview, hhead⟩
    · simp only [hhead, Bool.not_true, Bool.false_eq_true, if_false]
      exact .inl ⟨trivial, congrArg ArmView.opened hview⟩
    · simp only [hhead, Bool.not_false, if_true]
      -- the head's own alarm comes ahead of the lock
      refine .inr ⟨trivial, .inr ?_⟩
      rw [armRefuse_view hok, hview]
      rfl

theorem armAcked_inv {origin : Origin} {since : UInt32} {e : Env} {s : State} (hok : e.latchOk = true)
    (halone : ArmAlone origin s.armView) (hcovered : s.armView.Covered) :
    WindowInv (armAcked origin since e s).armView := by
  simp only [armAcked]
  rcases @armFinish_view since e hok s with ⟨harmed, hview⟩ | ⟨harmed, hview⟩
  · rw [harmed]
    refine armReturn_inv hok ?_ ?_ (fun _ => ?_) (by rintro ⟨⟩)
    · exact (congrArg ArmView.stack hview).trans halone.stack
    · rw [hview]
      exact halone.pending
    · rw [hview]
      exact ⟨rfl, hcovered⟩
  · rw [harmed]
    exact armRefused_inv hok halone hview

theorem armComplete_inv {origin : Origin} {since : UInt32} {e : Env} {s : State} (hok : e.latchOk = true)
    (halone : ArmAlone origin s.armView) (hcovered : s.armView.Covered)
    (hhooked : s.armView.hooked = true → s.armView.rearmPending = true → s.armView.core.held = true) :
    WindowInv (armComplete origin since e s).armView := by
  simp only [armComplete]
  split
  · exact armAcked_inv hok halone hcovered
  · refine .closed halone.closed ?_ (fun _ _ => hcovered) hhooked
    have hstack : s.stack = [] := halone.stack
    simp only [ArmView.ArmsCovered, State.armView, hstack]
    exact ⟨halone.pending, .inr hcovered⟩

theorem ackPumped_inv {origin : Origin} {since : UInt32} {deadline : Nat} {e : Env} {s : State}
    (hok : e.latchOk = true) (halone : ArmAlone origin s.armView)
    (hcovered : s.aborting = true ∨ s.armView.Covered)
    (hhooked : s.armView.hooked = true → s.armView.rearmPending = true → s.armView.core.held = true) :
    WindowInv (ackPumped origin since deadline e s).armView := by
  simp only [ackPumped]
  split
  · exact armRefused_inv hok halone (.inl (armRefuse_view hok s))
  · next haborting =>
    have hcov := hcovered.resolve_left haborting
    split
    · exact armRefused_inv hok halone (.inr (congrArg ArmView.alarm (armRefuse_view hok s)))
    · split
      · exact armAcked_inv hok halone hcov
      · refine .closed halone.closed ?_ (fun _ _ => hcov) hhooked
        have hstack : s.stack = [] := halone.stack
        simp only [ArmView.ArmsCovered, State.armView, hstack]
        exact ⟨halone.pending, .inr hcov⟩

/-! ## The button wait -/

theorem buttonAbort_inv {e : Env} {s : State} (hok : e.latchOk = true)
    (halone : ArmAlone .spindle s.armView) : WindowInv (buttonAbort e s).armView := by
  have hview : (buttonAbort e s).armView = s.armView.refuse :=
    (spindleFinish_view _ _ _).trans (armRefuse_view hok { s with arming := false })
  rw [hview]
  exact .rest halone.stack (halone.pending.resolve_left (by decide)) fun hlaser =>
    absurd (halone.closed.symm.trans hlaser) (by decide)

theorem buttonTurn_inv {senderGen : UInt32} {released : Bool} {unreadable deadline : Nat} {e : Env}
    {s : State} (hok : e.latchOk = true) (halone : ArmAlone .spindle s.armView)
    (hcovered : s.core.alarmed = true ∨ s.armView.Covered) :
    WindowInv (buttonTurn senderGen released unreadable deadline e s).armView := by
  have hpending : s.rearmPending = false := halone.pending.resolve_left (by decide)
  have hstack : s.stack = [] := halone.stack
  obtain ⟨t, ht, hturn⟩ | ⟨t, n, lid, ht, -, -, hturn⟩ | ⟨-, halarmed, -, hturn⟩ :=
    buttonTurn_cases senderGen released unreadable deadline e s
  · rw [hturn]
    rcases ht with rfl | rfl
    · exact buttonAbort_inv hok halone
    · exact buttonAbort_inv hok ⟨halone.closed, halone.stack, halone.pending⟩
  · have hview : ∀ f, State.armView { t with stack := f :: s.stack } = { s.armView with stack := [f] } := by
      intro f
      rcases ht with rfl | rfl
      · rw [hstack]
        rfl
      · rw [hstack]
        rfl
    rw [hturn, hview]
    exact .closed halone.closed ⟨hpending, .inr hcovered⟩
      (fun hp => absurd (hpending.symm.trans hp) (by decide))
      fun _ hp => absurd (hpending.symm.trans hp) (by decide)
  · rw [hturn]
    refine armComplete_inv hok ⟨halone.closed, halone.stack, halone.pending⟩ ?_ fun _ hp =>
      absurd (hpending.symm.trans hp) (by decide)
    exact hcovered.resolve_left fun ha => absurd (halarmed.symm.trans ha) (by decide)

theorem buttonPumped_inv {senderGen : UInt32} {released : Bool} {unreadable deadline : Nat} {lid : Bool}
    {e : Env} {s : State} (hok : e.latchOk = true) (halone : ArmAlone .spindle s.armView)
    (hcovered : s.aborting = true ∨ s.core.alarmed = true ∨ s.armView.Covered) :
    WindowInv (buttonPumped senderGen released unreadable deadline lid e s).armView := by
  simp only [buttonPumped]
  split
  · exact buttonAbort_inv hok halone
  · next haborting =>
    split
    · exact buttonAbort_inv hok ⟨halone.closed, halone.stack, halone.pending⟩
    · exact buttonTurn_inv hok halone (hcovered.resolve_left haborting)

/-- The pump of the innermost wait returns. -/
theorem pumped_inv {e : Env} {s t : State} (hok : e.latchOk = true) (h : WindowInv s.armView)
    (hpump : pumped e s = some t) : WindowInv t.armView := by
  have harms := h.arms
  simp only [ArmView.ArmsCovered, State.armView] at harms
  simp only [pumped] at hpump
  cases hstack : s.stack with
  | nil =>
    rw [hstack] at hpump
    cases hpump
  | cons f rest =>
    have hclosed : s.armView.laserOk = false := h.closed_of_stack (by
      change s.stack ≠ []
      rw [hstack]
      rintro ⟨⟩)
    rw [hstack] at hpump harms
    cases rest with
    | cons g gs => cases f <;> cases harms
    | nil =>
      cases f with
      | ack origin since deadline =>
        cases hpump
        exact ackPumped_inv hok ⟨hclosed, rfl, harms.1⟩ harms.2 h.hooked
      | button senderGen released unreadable deadline lid =>
        cases hpump
        exact buttonPumped_inv hok ⟨hclosed, rfl, .inr harms.1⟩ harms.2

/-! ## Beginning an arm

The gates, the unlock that comes ahead of the waits, and what the resume of a held job adds. -/

theorem armGates_view (e : Env) (s : State) :
    (armGates e s).1 = true ∧ (armGates e s).2.armView = s.armView ∨
      (armGates e s).1 = false ∧ (armGates e s).2.armView = s.armView.alarm := by
  simp only [armGates]
  split
  · exact .inr ⟨rfl, rfl⟩
  · rcases headPresent_view e s with ⟨hview, hhead⟩ | ⟨hview, hhead⟩
    · simp only [hhead, Bool.not_true, Bool.false_eq_true, if_false]
      split
      · exact .inr ⟨rfl, rfl⟩
      · exact .inl ⟨rfl, rfl⟩
    · simp only [hhead, Bool.not_false, if_true]
      exact .inr ⟨trivial, hview⟩

/-- An alarm changes nothing of the copies, and takes the core out of a hold. -/
theorem WindowInv.alarmed {v : ArmView} (h : WindowInv v) : WindowInv v.alarm where
  window := h.window
  alone := h.alone
  arms := h.arms.mono rfl id (fun _ => id) fun _ => .inr (.inl v.alarm_alarmed)
  rearm := fun _ hheld => absurd ((SysState.held_of_alarmed v.alarm_alarmed).symm.trans hheld)
      (by decide)
  hooked := by rintro ⟨⟩

theorem armUnlock_view {e : Env} (hok : e.latchOk = true) (s : State) :
    (armUnlock e s).1 = true ∧ (armUnlock e s).2.armView = { s.armView with latchLockedByUs := false } := by
  obtain ⟨htook, hview⟩ := latchLock_unlock hok s
  simp only [armUnlock, htook, if_true]
  exact ⟨trivial, hview⟩

/-- An arm behind its unlock, where no other is under way. -/
theorem armUnlock_alone {e : Env} {s : State} (hok : e.latchOk = true) (origin : Origin)
    (hclosed : s.laserOk = false) (hstack : s.stack = []) (hpending : s.rearmPending = false) :
    ArmAlone origin (armUnlock e (gfcoolLaserArmed true s)).2.armView ∧
      (armUnlock e (gfcoolLaserArmed true s)).2.armView.Covered := by
  obtain ⟨-, hview⟩ := armUnlock_view hok (gfcoolLaserArmed true s)
  rw [hview]
  exact ⟨⟨hclosed, hstack, .inr hpending⟩, rfl, rfl⟩

theorem gflaserArm_inv {e : Env} {s : State} (hok : e.latchOk = true) (h : WindowInv s.armView)
    (hclosed : s.laserOk = false) (hstack : s.stack = []) (hpending : s.rearmPending = false) :
    WindowInv (gflaserArm e s).armView := by
  simp only [gflaserArm]
  rcases armGates_view e s with ⟨hgates, -⟩ | ⟨hgates, hview⟩
  · obtain ⟨htook, -⟩ := armUnlock_view hok (gfcoolLaserArmed true s)
    obtain ⟨halone, hcovered⟩ := armUnlock_alone hok .spindle hclosed hstack hpending
    simp only [hgates, htook, Bool.not_true, Bool.false_eq_true, if_false]
    split
    · exact buttonTurn_inv hok ⟨halone.closed, halone.stack, halone.pending⟩ (.inr hcovered)
    · refine armComplete_inv hok halone hcovered fun _ hp => ?_
      rw [halone.pending.resolve_left (by decide)] at hp
      cases hp
  · simp only [hgates, Bool.not_false, if_true, spindleFinish_view]
    rw [hview]
    exact h.alarmed

theorem spindleSetState_inv {on : Bool} {e : Env} {s : State} (hok : e.latchOk = true)
    (h : WindowInv s.armView) (hen : (s.stack.isEmpty || s.core.held) = true)
    (hapart : apart s (.spindle on e) = true) : WindowInv (spindleSetState on e s).armView := by
  simp only [spindleSetState]
  split
  · next harm =>
    simp only [Bool.and_eq_true, Bool.not_eq_true'] at harm
    split
    · exact h
    · split
      · exact h
      · next hheld =>
        have hfree : s.core.held = false := by simpa using hheld
        rw [hfree, Bool.or_false, List.isEmpty_iff] at hen
        simp only [apart, harm.1, harm.2, hfree, Bool.not_false, Bool.true_and, Bool.not_eq_true'] at hapart
        exact gflaserArm_inv hok h harm.2 hen hapart
  · exact h

theorem resumeGate_inv {e : Env} {s : State} (hok : e.latchOk = true) (h : WindowInv s.armView)
    (hapart : apart s (.resumeGate e) = true) : WindowInv (gflaserResumeGate e s).armView := by
  simp only [gflaserResumeGate]
  split
  · next htakes =>
    have hstack : s.stack = [] := by
      simpa [apart, htakes] using hapart
    simp only [gateTakes, Bool.and_eq_true, Bool.not_eq_true'] at htakes
    obtain ⟨⟨⟨hheld, hpending⟩, hclosed⟩, -⟩ := htakes
    rcases armGates_view e s with ⟨hgates, -⟩ | ⟨hgates, hview⟩
    · obtain ⟨htook, hview⟩ := armUnlock_view hok (gfcoolLaserArmed true s)
      obtain ⟨halone, hcovered⟩ := armUnlock_alone hok .gate hclosed hstack hpending
      simp only [hgates, htook, Bool.not_true, Bool.false_eq_true, if_false]
      split
      · have hbegin : (rearmBegin e (armUnlock e (gfcoolLaserArmed true s)).2).armView =
            { (armUnlock e (gfcoolLaserArmed true s)).2.armView with rearmPending := true } := rfl
        rw [hbegin, hview]
        refine .closed hclosed ?_ (fun _ _ => ⟨rfl, rfl⟩) fun _ _ => hheld
        simp only [ArmView.ArmsCovered, gfcoolLaserArmed, State.armView, hstack]
      · refine armComplete_inv hok halone hcovered fun _ hp => ?_
        rw [halone.pending.resolve_left (by decide)] at hp
        cases hp
    · simp only [hgates, Bool.not_false, if_true]
      rw [hview]
      exact h.alarmed
  · split <;> exact h

/-! ## The re-arm

The press that the realtime hook takes, under the same invariant. -/

/-- A re-arm that ends leaves a closed window. -/
theorem rearmEnd_inv {e : Env} {s : State} (hok : e.latchOk = true) (hclosed : s.armView.laserOk = false)
    (harms : s.armView.ArmsCovered) (hfree : s.armView.stack = [] ∨ s.armView.aborting = true) :
    WindowInv (rearmEnd false e s).armView := by
  have hview : (rearmEnd false e s).armView =
      ArmView.refuse { s.armView with rearmPending := false } := armRefuse_view hok _
  rw [hview]
  rcases hfree with hstack | haborting
  · exact .rest hstack rfl fun hlaser => absurd (hclosed.symm.trans hlaser) (by decide)
  · refine .closed hclosed ?_ (by rintro ⟨⟩) (by rintro _ ⟨⟩)
    exact harms.mono rfl (fun _ => rfl) (fun _ _ => .inl haborting) fun _ => .inl haborting

/-- What `apart` leaves of a poll that ends the re-arm. -/
theorem apart_ends {e : Env} {s : State} (hapart : apart s (.rearmPoll e) = true)
    (hends : rearmEnds e s = true) : s.stack = [] ∨ s.aborting = true := by
  simp only [apart, hends, Bool.not_true, Bool.false_or, Bool.or_eq_true, Bool.and_eq_true,
    List.isEmpty_iff] at hapart
  exact hapart.imp_right And.right

theorem apart_press {e : Env} {s : State} (hapart : apart s (.rearmPoll e) = true)
    (hpress : takesPress e s = true) : s.stack = [] := by
  simpa [apart, hpress] using hapart

theorem rearmPoll_inv {e : Env} {s : State} (hok : e.latchOk = true) (h : WindowInv s.armView)
    (hapart : apart s (.rearmPoll e) = true) : WindowInv (rearmPoll e s).armView := by
  have hends := apart_ends hapart
  have hpress := apart_press hapart
  obtain ⟨hp, hpoll⟩ | ⟨hp, hheld, -, -, n, hpoll⟩ | ⟨henough, n, hpoll⟩ | ⟨henough, n, r, hpoll⟩ :=
    rearmPoll_cases e s
  · rw [hpoll]
    exact ⟨h.window, h.alone, h.arms, h.rearm, fun _ hpend => absurd (hp.symm.trans hpend)
        (by decide)⟩
  · rw [hpoll]
    exact ⟨h.window, h.alone, h.arms, h.rearm, fun _ _ => hheld⟩
  · obtain ⟨hp, hheld, -⟩ := takesPress_iff.mp henough
    rw [hpoll]
    exact armComplete_inv hok ⟨h.closed_of_pending hp, hpress henough, .inl rfl⟩ (h.rearm hp hheld)
      fun _ _ => hheld
  · have hclosed := h.closed_of_pending (rearmEnds_pending henough)
    have hend : WindowInv (rearmEnd false e
        { s with hooked := true, rearmUnreadable := n, rearmReleased := r }).armView :=
      rearmEnd_inv hok hclosed h.arms (hends henough)
    rcases hpoll with hpoll | hpoll
    · rw [hpoll]
      exact hend
    · rw [hpoll]
      exact hend.alarmed

/-! ## The disarms -/

/-- An open window closes: no arm is under way. -/
theorem disarmOpen_inv {e : Env} {s t : State} (hok : e.latchOk = true) (h : WindowInv s.armView)
    (hopen : s.laserOk = true) (ht : t.armView = s.armView) : WindowInv (gflaserDisarm e t).armView := by
  obtain ⟨hstack, hpending⟩ := h.alone hopen
  rw [gflaserDisarm_view hok, ht]
  exact .rest hstack hpending (by rintro ⟨⟩)

/-- A lock that comes with an alarm. -/
theorem lockedAlarm_inv {v w : ArmView} (h : WindowInv v) (hclosed : w.laserOk = false)
    (hstack : w.stack = v.stack) (hpending : w.rearmPending = v.rearmPending)
    (haborting : w.aborting = v.aborting) (halarmed : w.core.alarmed = true) (hhooked : w.hooked = false)
    (hack : v.stack.any Frame.waitsAck = true → v.aborting = true) : WindowInv w := by
  refine .closed hclosed ?_ (fun _ hheld => ?_) (by rw [hhooked]; rintro ⟨⟩)
  · refine h.arms.mono hstack (fun hp => hpending.trans hp) (fun hwaits _ => ?_) fun _ => .inr (.inl halarmed)
    exact .inl (haborting.trans (hack hwaits))
  · exact absurd ((SysState.held_of_alarmed halarmed).symm.trans hheld) (by decide)

theorem fault_inv {e : Env} {s : State} (hok : e.latchOk = true) (h : WindowInv s.armView)
    (hnoticed : noticed s (.fault e) = true) : WindowInv (streamFault e s).armView := by
  have hview : (streamFault e s).armView = s.armView.disarm.alarm :=
    congrArg ArmView.alarm (gflaserDisarm_view hok { s with faultFlag := false })
  rw [hview]
  refine lockedAlarm_inv h rfl rfl rfl rfl (ArmView.alarm_alarmed _) rfl fun hwaits => ?_
  have hwaits : waitsAck s = true := hwaits
  simp only [noticed, hwaits, Bool.not_true, Bool.false_or] at hnoticed
  exact hnoticed

theorem emission_inv {e : Env} {s : State} (hok : e.latchOk = true) (h : WindowInv s.armView)
    (hnoticed : noticed s (.emission e) = true) : WindowInv (emissionCheck e s).armView := by
  have hpaced : ∀ c : Bool, (if c then { s with nextEmissionCheck := e.now + 1000 } else s).armView =
      s.armView := by
    intro c
    split <;> rfl
  simp only [emissionCheck]
  split
  · next hsensed =>
    have hview : ∀ t : State, t.armView = s.armView →
        (systemRaiseAlarm (latchLock true e t).2).armView =
          ArmView.alarm { s.armView with latchLockedByUs := true } :=
      fun t ht => congrArg ArmView.alarm ((latchLock_lock hok t).trans (by rw [ht]))
    have hclosed : s.laserOk = false := by
      simp only [emissionSensed, Bool.and_eq_true, Bool.not_eq_true'] at hsensed
      exact hsensed.2.1.1
    rw [hview _ (hpaced _)]
    refine lockedAlarm_inv h hclosed rfl rfl rfl (ArmView.alarm_alarmed _) rfl fun hwaits => ?_
    have hwaits : waitsAck s = true := hwaits
    simp only [noticed, hsensed, hwaits, Bool.not_true, Bool.false_or] at hnoticed
    exact hnoticed
  · rw [hpaced]
    exact h

theorem reset_inv {next : SysState} {e : Env} {s : State} (hok : e.latchOk = true)
    (h : WindowInv s.armView) (hnext : next.held = false) : WindowInv (driverReset next e s).armView := by
  have hview : (driverReset next e s).armView =
      { s.armView.disarm with core := next, aborting := true, hooked := false } :=
    congrArg (fun v : ArmView => { v with core := next, aborting := true, hooked := false })
      (gflaserDisarm_view hok s)
  rw [hview]
  refine .closed rfl ?_ (fun _ hheld => absurd (hnext.symm.trans hheld) (by decide))
      (by rintro ⟨⟩)
  exact h.arms.mono rfl id (fun _ _ => .inl rfl) fun _ => .inl rfl

theorem relockReady_view (e : Env) (s : State) : (relockReady e s).2.armView = s.armView := by
  obtain ⟨since, hready⟩ := relockReady_frame e s
  rw [hready]
  rfl

theorem pollGrace_inv {e : Env} {s t : State} (hok : e.latchOk = true) (h : WindowInv s.armView)
    (hopen : s.laserOk = true) (ht : t.armView = s.armView) : WindowInv (pollGrace e t).armView := by
  have hkept : ∀ u : State, u.armView = s.armView → WindowInv u.armView := fun u hu => hu ▸ h
  simp only [pollGrace]
  split
  · exact hkept _ ht
  · split
    · exact hkept _ ht
    · split
      · split
        · exact disarmOpen_inv hok h hopen ((relockReady_view e t).trans ht)
        · exact hkept _ ((relockReady_view e t).trans ht)
      · exact hkept _ ht

theorem pollClose_inv {e : Env} {s : State} (hok : e.latchOk = true) (h : WindowInv s.armView) :
    WindowInv (pollClose e s).armView := by
  simp only [pollClose]
  split
  · exact h
  · next hopen =>
    have hopen : s.laserOk = true := by simpa using hopen
    split
    · exact disarmOpen_inv hok h hopen rfl
    · split
      · refine disarmOpen_inv hok h hopen ?_
        split <;> rfl
      · split
        · split
          · exact disarmOpen_inv hok h hopen (relockReady_view e s)
          · exact pollGrace_inv hok h hopen (relockReady_view e s)
        · exact pollGrace_inv hok h hopen rfl

/-- An unlock can only help. -/
theorem relight_inv {e : Env} {s : State} (hok : e.latchOk = true) (h : WindowInv s.armView) :
    WindowInv (relight e s).armView := by
  simp only [relight]
  split
  · rw [(latchLock_unlock hok s).2]
    have hcovered : s.armView.Covered → ArmView.Covered { s.armView with latchLockedByUs := false } :=
      fun hc => ⟨hc.1, rfl⟩
    exact {
      window := fun hlaser => ⟨(h.window hlaser).1, hcovered (h.window hlaser).2⟩
      alone := h.alone
      arms := h.arms.mono rfl id (fun _ => Or.imp_right hcovered) (Or.imp_right (Or.imp_right hcovered))
      rearm := fun hp hheld => hcovered (h.rearm hp hheld)
      hooked := h.hooked }
  · exact h

/-! ## Runs

The entries together. A fault in the wait for the acknowledgment is the run that the condition
leaves out. -/

theorem core_inv {next : SysState} {modalOn : Bool} {s : State} (h : WindowInv s.armView)
    (hen : (Label.core next modalOn).enabled s = true) :
    WindowInv (State.armView { s with core := next, modalOn := modalOn, hooked := false }) := by
  simp only [Label.enabled, Bool.and_eq_true] at hen
  obtain ⟨hhooked, hpump⟩ := hen
  exact {
    window := h.window
    alone := h.alone
    arms := by
      have harms := h.arms
      cases hempty : s.stack.isEmpty with
      | true =>
        rw [List.isEmpty_iff] at hempty
        simp only [ArmView.ArmsCovered, State.armView, hempty]
      | false =>
        rw [hempty, Bool.false_or, Bool.or_eq_true, Bool.not_eq_true'] at hpump
        refine harms.mono rfl id (fun _ => id) fun hnotice => ?_
        -- inside a pump an alarm is left by a soft reset only
        rcases hpump with haborting | hcalm
        · exact .inl haborting
        · rcases hnotice with ha | halarmed | hc
          · exact .inl ha
          · exact absurd (hcalm.symm.trans halarmed) (by decide)
          · exact .inr (.inr hc)
    rearm := fun hp _ => h.rearm hp (h.hooked hhooked hp)
    hooked := by rintro ⟨⟩ }

/-- **One step of a run.** The entries are taken one by one, by the lemma of the path that each
goes: an arm, a turn of a wait, or a disarm. -/
theorem step_window {s t : State} {l : Label} (h : WindowInv s.armView) (hlatch : l.latchOk = true)
    (hquiet : undisturbed s l = true) (hstep : step s l = some t) : WindowInv t.armView := by
  obtain ⟨hen, hturn⟩ := step_eq_some.mp hstep
  obtain ⟨hapart, hnoticed⟩ := Bool.and_eq_true_iff.mp hquiet
  cases l with
  | spindle on e =>
    cases hturn
    exact spindleSetState_inv hlatch h hen hapart
  | pumped e => exact pumped_inv hlatch h hturn
  | fault e =>
    cases hturn
    exact fault_inv hlatch h hnoticed
  | verdictFail e =>
    cases hturn
    simp only [gflaserVerdictFail]
    split
    · next hopen => exact disarmOpen_inv hlatch h hopen rfl
    · exact h
  | resumeGate e =>
    cases hturn
    exact resumeGate_inv hlatch h hapart
  | failAlarm e =>
    cases hturn
    simp only [failAlarm]
    split_ifs
    · exact h
    · exact h.alarmed
    · exact h
    · exact h
  | emission e =>
    cases hturn
    exact emission_inv hlatch h hnoticed
  | rearmPoll e =>
    cases hturn
    exact rearmPoll_inv hlatch h hapart
  | close e =>
    cases hturn
    exact pollClose_inv hlatch h
  | cancel e =>
    cases hturn
    simp only [noticed, Bool.and_eq_true, List.isEmpty_iff, Bool.not_eq_true'] at hnoticed
    rw [gflaserDisarm_view hlatch]
    exact .rest hnoticed.1 hnoticed.2 (by rintro ⟨⟩)
  | reset next e =>
    cases hturn
    exact reset_inv hlatch h (by simpa [Label.enabled] using hen)
  | restart =>
    cases hturn
    have hstack : s.stack = [] := List.isEmpty_iff.mp hen
    refine ⟨h.window, h.alone, ?_, h.rearm, h.hooked⟩
    simp only [ArmView.ArmsCovered, State.armView, hstack]
  | core next modalOn =>
    cases hturn
    exact core_inv h hen
  | relight e =>
    cases hturn
    exact relight_inv hlatch h
  | programCompleted checkMode =>
    cases hturn
    simp only [onProgramCompleted]
    split <;> exact h
  | _ =>
    cases hturn
    exact h

/-- **The copies of the window agree.** In every run whose latch writes take, in which arms do
not overlap and no lock lands unnoticed under one: an open window is armed in the stream and in
the cooling client, and the latch record says unlocked. -/
theorem window_copies_agree {hwActive available : Bool} {offValue : Nat} {s : State}
    (hrun : Runs.Reach step (fun s l => l.latchOk = true ∧ undisturbed s l = true)
      (State.init hwActive available offValue) s) (hopen : s.laserOk = true) :
    s.laserArmed = true ∧ s.laserOnWindow = true ∧ s.latchLockedByUs = false := by
  have hinv : WindowInv s.armView := by
    refine hrun.invariant (P := fun s => WindowInv s.armView) (.rest rfl rfl (by rintro ⟨⟩)) ?_
    intro s l t h hok hstep
    exact step_window h hok.1 hok.2 hstep
  exact ⟨(hinv.window hopen).1, (hinv.window hopen).2⟩

/-- The theorem at an arm whose job the engine takes: the window is open. -/
theorem window_copies_agree_armed :
    ∃ s : State, s.laserOk = true ∧ s.laserArmed = true ∧ s.laserOnWindow = true ∧
      s.latchLockedByUs = false := by
  have hrun : ∃ s, Runs.Reach step (fun s l => l.latchOk = true ∧ undisturbed s l = true)
      (State.init true true 0) s ∧ s.laserOk = true :=
    Runs.exists_reach_of_exec (armPressed ++ gflaserPoll {} ++ armAcknowledged) (by decide +kernel)
  obtain ⟨s, hreach, hopen⟩ := hrun
  exact ⟨s, hopen, window_copies_agree hreach hopen⟩

/-- **A disarm in the wait for the acknowledgment is lost.** A stream fault locks the latch and
raises the alarm; the engine's answer arrives, and the arm opens its window all the same. -/
theorem disarm_lost_in_ack_wait :
    ∃ s, Runs.Reach step (fun _ l => l.latchOk = true) (State.init true true 0) s ∧
      s.laserOk = true ∧ s.laserOnWindow = false ∧ s.latchLockedByUs = true := by
  have hrun : ∃ s, Runs.Reach step (fun _ l => l.latchOk = true) (State.init true true 0) s ∧
      (s.laserOk = true ∧ s.laserOnWindow = false ∧ s.latchLockedByUs = true) :=
    Runs.exists_reach_of_exec (armPressed ++ [Label.fault {}] ++ gflaserPoll {} ++ armAcknowledged)
      (by decide +kernel)
  obtain ⟨s, hreach, hs⟩ := hrun
  exact ⟨s, hreach, hs⟩

end Glowforge.Laser
