import Glowforge.Laser.Machine

/-!
# Glowforge — the consent behind the armed window

The operator's press is consent to one job of one sender session. It is taken in the button
wait or in the re-arm, the window opens behind it, and the program's end spends it:

* **`Keeps`** — what a step can do to the window and to the waits: nothing, close, or open and
  wait for a consent that was given.
* **`step_keeps`** — every step is of that kind.
* **`consent_of_session`** — the window's session is the one that its arm began in, where no
  sender changes under the wait for the acknowledgment (**`session_changed_in_ack_wait`**).
* **`consent_spent_with_job`** — behind a program's end no laser-on is granted without a new
  press, where none comes ahead of the relock (**`laser_on_before_relock`**).
-/

namespace Glowforge.Laser

/-! ## The press

What counts as a press in the button wait and in the re-arm, and what `Given` records of it. -/

/-- The button wait takes its press behind this pump. -/
def buttonPressed (e : Env) (s : State) : Bool :=
  match s.stack with
  | .button senderGen released _ deadline lid :: _ =>
    !s.aborting && !(!lid && e.now > deadline) && s.clientGeneration == senderGen &&
      !s.core.alarmed && countsAs released (armSwitches e.raw) == .pressed
  | _ => false

/-- The step takes a press as consent. -/
def pressTaken (s : State) : Label → Bool
  | .pumped e => buttonPressed e s
  | .rearmPoll e => takesPress e s
  | _ => false

/-- The step has the consent of session `since`: an arm that waited for the acknowledgment had
it, a press gives it, and a machine without switches asks for none. -/
inductive Given (s : State) (l : Label) : UInt32 → Prop where
  | waited {origin : Origin} {since : UInt32} {deadline : Nat}
      (hmem : Frame.ack origin since deadline ∈ s.stack) : Given s l since
  | pressed (htaken : pressTaken s l = true) : Given s l s.clientGeneration
  | free (hnone : s.available = false) : Given s l s.clientGeneration

/-! ## What a step can do

One lemma for each entry, over the few variables that consent is about. An entry keeps them, closes
the window, or goes from a press to a wait and from a wait to a window. -/

structure ConsentView where
  clientGeneration : UInt32
  armedClientGen : UInt32
  windowSince : UInt32
  laserOk : Bool
  disarmRequest : Bool
  available : Bool
  stack : List Frame

def State.consent (s : State) : ConsentView where
  clientGeneration := s.clientGeneration
  armedClientGen := s.armedClientGen
  windowSince := s.windowSince
  laserOk := s.laserOk
  disarmRequest := s.disarmRequest
  available := s.available
  stack := s.stack

/-- Where `G` are the sessions whose consent the step has: the window stays as it was, closes,
or opens for one of them, and so does every new wait. -/
structure Keeps (G : UInt32 → Prop) (v w : ConsentView) : Prop where
  available : w.available = v.available
  gen : w.clientGeneration = v.clientGeneration
  acks : ∀ origin since deadline, Frame.ack origin since deadline ∈ w.stack →
    Frame.ack origin since deadline ∈ v.stack ∨ G since
  window :
    (w.armedClientGen = v.armedClientGen ∧ w.windowSince = v.windowSince ∧
      (w.laserOk = true → v.laserOk = true ∧ (v.disarmRequest = true → w.disarmRequest = true))) ∨
    (G w.windowSince ∧ w.armedClientGen = v.clientGeneration)

theorem Keeps.refl (G : UInt32 → Prop) (v : ConsentView) : Keeps G v v :=
  ⟨rfl, rfl, fun _ _ _ => .inl, .inl ⟨rfl, rfl, fun h => ⟨h, id⟩⟩⟩

/-- The window closes, or the step leaves it, and no wait begins. -/
theorem Keeps.closes {G : UInt32 → Prop} {v w : ConsentView} (hview : w = { v with
      laserOk := false, disarmRequest := w.disarmRequest }) : Keeps G v w := by
  rw [hview]
  exact ⟨rfl, rfl, fun _ _ _ => .inl, .inl ⟨rfl, rfl, by rintro ⟨⟩⟩⟩

/-- A step of a wait that has left the stack. -/
theorem Keeps.popped {G : UInt32 → Prop} {v w : ConsentView} {f : Frame} {rest : List Frame}
    (hstack : v.stack = f :: rest) (h : Keeps G { v with stack := rest } w) : Keeps G v w where
  available := h.available
  gen := h.gen
  acks := fun origin since deadline hmem => (h.acks origin since deadline hmem).imp_left fun hrest => by
    rw [hstack]
    exact .tail _ hrest
  window := h.window

theorem rearmEnd_consent (armed : Bool) (e : Env) (s : State) :
    (rearmEnd armed e s).consent = s.consent := by
  cases armed <;> rfl

theorem armReturn_consent (origin : Origin) (armed : Bool) (e : Env) (s : State) :
    (armReturn origin armed e s).consent = s.consent := by
  have hend := rearmEnd_consent armed e s
  cases origin with
  | spindle => rfl
  | rearm =>
    simp only [armReturn]
    split <;> exact hend
  | gate =>
    simp only [armReturn]
    split <;> rfl

theorem latchLock_consent (lock : Bool) (e : Env) (s : State) : (latchLock lock e s).2.consent = s.consent := rfl

theorem headPresent_consent (e : Env) (s : State) : (headPresent e s).2.consent = s.consent := by
  simp only [headPresent]
  split <;> rfl

theorem armGates_consent (e : Env) (s : State) : (armGates e s).2.consent = s.consent := by
  simp only [armGates]
  split
  · rfl
  · split
    · exact headPresent_consent e s
    · split <;> rfl

theorem armUnlock_consent (e : Env) (s : State) : (armUnlock e s).2.consent = s.consent := by
  simp only [armUnlock]
  split
  · exact latchLock_consent false e s
  · exact latchLock_consent false e s

theorem gflaserDisarm_consent (e : Env) (s : State) :
    (gflaserDisarm e s).consent =
      { s.consent with laserOk := false, disarmRequest := (gflaserDisarm e s).disarmRequest } := by
  simp only [gflaserDisarm]
  split_ifs <;> rfl

theorem disarm_keeps {G : UInt32 → Prop} (e : Env) (s : State) :
    Keeps G s.consent (gflaserDisarm e s).consent :=
  .closes (gflaserDisarm_consent e s)

/-- `arm_complete` behind the acknowledgment opens the window for the session it was asked in,
or leaves it. -/
theorem armAcked_keeps {G : UInt32 → Prop} {origin : Origin} {since : UInt32} (hgiven : G since)
    (e : Env) (s : State) : Keeps G s.consent (armAcked origin since e s).consent := by
  have hopen : ∀ t : State, t.consent = s.consent → Keeps G s.consent (armOpen since t).consent := by
    intro t ht
    have hgen : t.clientGeneration = s.clientGeneration := congrArg ConsentView.clientGeneration ht
    have havail : t.available = s.available := congrArg ConsentView.available ht
    have hstack : t.consent.stack = s.consent.stack := congrArg ConsentView.stack ht
    refine ⟨havail, hgen, fun _ _ _ hmem => .inl ?_, .inr ⟨hgiven, hgen⟩⟩
    rw [← hstack]
    exact hmem
  simp only [armAcked]
  rw [armReturn_consent]
  simp only [armFinish]
  split
  · exact .refl G _
  · split
    · change Keeps G s.consent (headPresent e s).2.consent
      rw [headPresent_consent]
      exact .refl G _
    · exact hopen _ (headPresent_consent e s)

theorem ackWait_keeps {G : UInt32 → Prop} {origin : Origin} {since : UInt32} {deadline : Nat}
    (hgiven : G since) (v : ConsentView) :
    Keeps G v { v with stack := .ack origin since deadline :: v.stack } where
  available := rfl
  gen := rfl
  acks := fun o n d hmem => by
    rcases List.mem_cons.mp hmem with hnew | hold
    · cases hnew
      exact .inr hgiven
    · exact .inl hold
  window := .inl ⟨rfl, rfl, fun h => ⟨h, id⟩⟩

theorem armComplete_keeps {G : UInt32 → Prop} {origin : Origin} {since : UInt32} (hgiven : G since)
    (e : Env) (s : State) : Keeps G s.consent (armComplete origin since e s).consent := by
  simp only [armComplete]
  split
  · exact armAcked_keeps hgiven e s
  · exact ackWait_keeps hgiven s.consent

theorem ackPumped_keeps {G : UInt32 → Prop} {origin : Origin} {since : UInt32} {deadline : Nat}
    (hgiven : G since) (e : Env) (s : State) :
    Keeps G s.consent (ackPumped origin since deadline e s).consent := by
  simp only [ackPumped]
  split
  · rw [armReturn_consent]
    exact .refl G _
  · split
    · rw [armReturn_consent]
      exact .refl G _
    · split
      · exact armAcked_keeps hgiven e s
      · exact ackWait_keeps hgiven s.consent

/-- A turn of the button wait takes its press with consent. -/
theorem buttonTurn_keeps {G : UInt32 → Prop} {senderGen : UInt32} {released : Bool}
    {unreadable deadline : Nat} {e : Env} {s : State}
    (hgiven : s.clientGeneration = senderGen → s.core.alarmed = false →
      countsAs released (armSwitches e.raw) = .pressed → G senderGen) :
    Keeps G s.consent (buttonTurn senderGen released unreadable deadline e s).consent := by
  obtain ⟨t, ht, hturn⟩ | ⟨t, n, lid, ht, -, -, hturn⟩ | ⟨hgen, halarmed, hpress, hturn⟩ :=
    buttonTurn_cases senderGen released unreadable deadline e s
  · rw [hturn]
    rcases ht with rfl | rfl <;> exact .refl G _
  · rw [hturn]
    have hpush : Keeps G s.consent
        { s.consent with
          stack := .button senderGen (released || armSwitches e.raw == .waiting) n deadline lid :: s.stack } := by
      refine ⟨rfl, rfl, fun o m d hmem => ?_, .inl ⟨rfl, rfl, fun h => ⟨h, id⟩⟩⟩
      rcases List.mem_cons.mp hmem with hnew | hold
      · cases hnew
      · exact .inl hold
    rcases ht with rfl | rfl <;> exact hpush
  · rw [hturn]
    exact armComplete_keeps (hgiven hgen halarmed hpress) e { s with arming := false }

/-- The tests of the wait and of its turn are those of `buttonPressed`. -/
theorem buttonPressed_of_turn {senderGen : UInt32} {released lid : Bool} {unreadable deadline : Nat}
    {rest : List Frame} {e : Env} {s : State}
    (hstack : s.stack = .button senderGen released unreadable deadline lid :: rest)
    (haborting : s.aborting = false) (hlate : ¬(!lid && decide (e.now > deadline)) = true)
    (hgen : s.clientGeneration = senderGen) (halarmed : s.core.alarmed = false)
    (hpress : countsAs released (armSwitches e.raw) = .pressed) : buttonPressed e s = true := by
  simp only [buttonPressed, hstack, haborting, hgen, halarmed, hpress, Bool.not_false,
    Bool.true_and, beq_self_eq_true, Bool.and_true, Bool.not_eq_true']
  exact eq_false_of_ne_true hlate

/-- A button that has not been seen up gives no press. -/
theorem countsAs_unreleased (sw : ArmSwitch) : countsAs false sw ≠ .pressed := by
  simp only [countsAs, Bool.not_false, Bool.and_true]
  split
  · rintro ⟨⟩
  · next hnot => exact fun hpress => hnot (decide_eq_true hpress)

theorem pumped_keeps {e : Env} {s t : State} (hpump : pumped e s = some t) :
    Keeps (Given s (.pumped e)) s.consent t.consent := by
  simp only [pumped] at hpump
  split at hpump
  · cases hpump
  · next senderGen released unreadable deadline lid rest hstack =>
    cases hpump
    refine Keeps.popped hstack ?_
    simp only [buttonPumped]
    split
    · exact .refl _ _
    · next haborting =>
      split
      · exact .refl _ _
      · next hlate =>
        refine @buttonTurn_keeps _ _ _ _ _ _ { s with stack := rest } fun hgen halarmed hpress => ?_
        rw [← hgen]
        exact Given.pressed (l := .pumped e)
          (buttonPressed_of_turn hstack (by simpa using haborting) hlate hgen halarmed hpress)
  · next origin since deadline rest hstack =>
    cases hpump
    refine Keeps.popped hstack (ackPumped_keeps ?_ e { s with stack := rest })
    exact .waited (by rw [hstack]; exact .head _)

theorem gflaserArm_keeps (on : Bool) (e : Env) (s : State) :
    Keeps (Given s (.spindle on e)) s.consent (gflaserArm e s).consent := by
  have hwas : (armUnlock e (gfcoolLaserArmed true s)).2.consent = s.consent := armUnlock_consent e _
  simp only [gflaserArm]
  split
  · change Keeps _ _ (armGates e s).2.consent
    rw [armGates_consent]
    exact .refl _ _
  · split
    · change Keeps _ _ (armUnlock e (gfcoolLaserArmed true s)).2.consent
      rw [hwas]
      exact .refl _ _
    · split
      · -- the button is not seen up before the first turn
        have hturn := @buttonTurn_keeps (Given s (.spindle on e)) s.clientGeneration false 0
          (e.now + e.buttonBudget) e { (armUnlock e (gfcoolLaserArmed true s)).2 with arming := true }
          fun _ _ hpress => absurd hpress (countsAs_unreleased _)
        change Keeps _ (armUnlock e (gfcoolLaserArmed true s)).2.consent _ at hturn
        rw [hwas] at hturn
        exact hturn
      · next hnone =>
        have hcomplete := @armComplete_keeps (Given s (.spindle on e)) .spindle s.clientGeneration
          (.free (by simpa using hnone)) e (armUnlock e (gfcoolLaserArmed true s)).2
        rw [hwas] at hcomplete
        exact hcomplete

theorem resumeGate_keeps (e : Env) (s : State) :
    Keeps (Given s (.resumeGate e)) s.consent (gflaserResumeGate e s).consent := by
  have hwas : (armUnlock e (gfcoolLaserArmed true s)).2.consent = s.consent := armUnlock_consent e _
  simp only [gflaserResumeGate]
  split
  · split
    · rw [armGates_consent]
      exact .refl _ _
    · split
      · rw [hwas]
        exact .refl _ _
      · split
        · change Keeps _ _ (armUnlock e (gfcoolLaserArmed true s)).2.consent
          rw [hwas]
          exact .refl _ _
        · next hnone =>
          have hcomplete := @armComplete_keeps (Given s (.resumeGate e)) .gate s.clientGeneration
            (.free (by simpa using hnone)) e (armUnlock e (gfcoolLaserArmed true s)).2
          rw [hwas] at hcomplete
          exact hcomplete
  · split <;> exact .refl _ _

theorem rearmPoll_keeps (e : Env) (s : State) :
    Keeps (Given s (.rearmPoll e)) s.consent (rearmPoll e s).consent := by
  obtain ⟨-, hpoll⟩ | ⟨-, -, -, -, n, hpoll⟩ | ⟨htaken, n, hpoll⟩ | ⟨-, n, r, hpoll | hpoll⟩ :=
    rearmPoll_cases e s
  · rw [hpoll]
    exact .refl _ _
  · rw [hpoll]
    exact .refl _ _
  · rw [hpoll]
    refine armComplete_keeps ?_ e { s with hooked := true, rearmUnreadable := n }
    obtain ⟨-, -, hgen, -, -⟩ := takesPress_iff.mp htaken
    rw [← hgen]
    exact Given.pressed (l := .rearmPoll e) htaken
  · rw [hpoll, rearmEnd_consent]
    exact .refl _ _
  · rw [hpoll]
    change Keeps _ _ (rearmEnd false e _).consent
    rw [rearmEnd_consent]
    exact .refl _ _

theorem pollClose_keeps {G : UInt32 → Prop} (e : Env) (s : State) :
    Keeps G s.consent (pollClose e s).consent := by
  have hready : (relockReady e s).2.consent = s.consent := by
    obtain ⟨since, hframe⟩ := relockReady_frame e s
    rw [hframe]
    rfl
  have hdisarm : ∀ t : State, t.consent = s.consent → Keeps G s.consent (gflaserDisarm e t).consent := by
    intro t ht
    rw [← ht]
    exact disarm_keeps e t
  have hgrace : ∀ t : State, t.consent = s.consent → Keeps G s.consent (pollGrace e t).consent := by
    intro t ht
    have htready : (relockReady e t).2.consent = s.consent := by
      obtain ⟨since, hframe⟩ := relockReady_frame e t
      rw [hframe]
      exact ht
    have hsame : ∀ u : State, u.consent = s.consent → Keeps G s.consent u.consent :=
      fun u hu => hu ▸ .refl G _
    simp only [pollGrace]
    split_ifs
    · exact hsame _ ht
    · exact hsame _ ht
    · exact hdisarm _ htready
    · exact hsame _ htready
    · exact hsame _ ht
  simp only [pollClose]
  split
  · exact .refl G _
  · split
    · exact hdisarm s rfl
    · split
      · refine hdisarm _ ?_
        split <;> rfl
      · split
        · split
          · exact hdisarm _ hready
          · exact hgrace _ hready
        · exact hgrace s rfl

/-- The entries that reach an arm. -/
def Label.reachesArm : Label → Bool
  | .spindle _ _ | .pumped _ | .resumeGate _ | .rearmPoll _ => true
  | _ => false

/-- The other entries open no window and begin no wait. -/
theorem turn_keeps {G : UInt32 → Prop} {s t : State} {l : Label} (hother : l.reachesArm = false)
    (hturn : turn s l = some t) :
    Keeps G s.consent t.consent ∨
      (l = .sender ∧ t = { s with clientGeneration := s.clientGeneration + 1 }) := by
  cases l with
  | spindle | pumped | resumeGate | rearmPoll => cases hother
  | sender =>
    cases hturn
    exact .inr ⟨rfl, rfl⟩
  | close e =>
    cases hturn
    exact .inl (pollClose_keeps e s)
  | fault e =>
    cases hturn
    exact .inl (disarm_keeps e { s with faultFlag := false })
  | cancel e =>
    cases hturn
    exact .inl (disarm_keeps e s)
  | reset next e =>
    cases hturn
    exact .inl (disarm_keeps e s)
  | verdictFail e =>
    cases hturn
    left
    simp only [gflaserVerdictFail]
    split
    · exact disarm_keeps e s
    · exact .refl _ _
  | programCompleted checkMode =>
    cases hturn
    left
    simp only [onProgramCompleted]
    split
    · exact ⟨rfl, rfl, fun _ _ _ => .inl, .inl ⟨rfl, rfl, fun h => ⟨h, fun _ => rfl⟩⟩⟩
    · exact .refl _ _
  | emission e =>
    cases hturn
    left
    simp only [emissionCheck]
    split_ifs <;> exact .refl _ _
  | failAlarm e =>
    cases hturn
    left
    simp only [failAlarm]
    split_ifs <;> exact .refl _ _
  | relight e =>
    cases hturn
    left
    simp only [relight]
    split <;> exact .refl _ _
  | _ =>
    cases hturn
    exact .inl (.refl _ _)

/-- **What a step can do to the window and to the waits.** Each entry is one of its own lemmas; only
the press of the two loops gives a consent, and only an acknowledged arm opens a window. -/
theorem step_keeps {s t : State} {l : Label} (hstep : step s l = some t) :
    Keeps (Given s l) s.consent t.consent ∨
      (l = .sender ∧ t = { s with clientGeneration := s.clientGeneration + 1 }) := by
  obtain ⟨-, hturn⟩ := step_eq_some.mp hstep
  cases hother : l.reachesArm with
  | false => exact turn_keeps hother hturn
  | true =>
    left
    cases l with
    | pumped e => exact pumped_keeps hturn
    | spindle on e =>
      cases hturn
      simp only [spindleSetState]
      split_ifs
      · exact .refl _ _
      · exact .refl _ _
      · exact gflaserArm_keeps on e s
      · exact .refl _ _
    | resumeGate e =>
      cases hturn
      exact resumeGate_keeps e s
    | rearmPoll e =>
      cases hturn
      exact rearmPoll_keeps e s
    | _ => cases hother

/-! ## The session

The window is given the session that stands when it opens. Nothing compares it with the one that the
arm began in, so the condition asks that none changes under the wait. -/

/-- Every arm that waits for the acknowledgment has the session that it began in, and so has
the window that it opened. -/
structure SessionInv (s : State) : Prop where
  acks : ∀ origin since deadline, Frame.ack origin since deadline ∈ s.stack →
    since = s.clientGeneration
  window : s.armedClientGen = s.windowSince

theorem SessionInv.given {s : State} {l : Label} {since : UInt32} (h : SessionInv s)
    (hgiven : Given s l since) : since = s.clientGeneration := by
  cases hgiven with
  | waited hmem => exact h.acks _ _ _ hmem
  | pressed htaken => rfl
  | free hnone => rfl

/-- Whether the consent has been spent: a program's end spends the open window's, and a press
gives a new one. -/
def spend (s : State) (l : Label) (spent : Bool) : Bool :=
  match l with
  | .programCompleted checkMode => spent || (!checkMode && s.laserOk)
  | _ => spent && !pressTaken s l

/-- The step ends a `spindleSetState(on)`: at once, or behind the arm that it waited for. -/
def endsSpindle (s t : State) : Label → Bool
  | .spindle on _ => on && t.stack.length == s.stack.length
  | .pumped _ =>
    match s.stack with
    | .button _ _ _ _ _ :: rest | .ack .spindle _ _ :: rest => t.stack.length == rest.length
    | _ => false
  | _ => false

/-- The laser-on is granted: the spindle is on, and fire is pushed to the stream. -/
def granted (s t : State) (l : Label) : Bool := endsSpindle s t l && t.spindleOn && t.pushedFire

/-- No laser-on comes between the program's end and the relock. -/
def relockFirst (s : State) : Label → Bool
  | .spindle on _ => !(on && s.disarmRequest)
  | _ => true

/-- A spent consent leaves at most a window that is about to close, and no arm that has one. -/
structure SpentInv (s : State) (spent : Bool) : Prop where
  available : s.available = true
  window : spent = true → s.laserOk = true → s.disarmRequest = true
  acks : spent = true → ∀ origin since deadline, Frame.ack origin since deadline ∉ s.stack

/-- On a machine with switches a spent consent gives nothing but to a new press. -/
theorem SpentInv.given {s : State} {l : Label} {since : UInt32} {spent : Bool} (h : SpentInv s spent)
    (hspent : spent = true) (hgiven : Given s l since) : pressTaken s l = true := by
  cases hgiven with
  | waited hmem => exact absurd hmem (h.acks hspent _ _ _)
  | pressed htaken => exact htaken
  | free hnone => exact absurd (hnone.symm.trans h.available) (by decide)

theorem step_spent {s t : State} {l : Label} {spent : Bool} (h : SpentInv s spent)
    (hstep : step s l = some t) : SpentInv t (spend s l spent) := by
  obtain ⟨hen, hturn⟩ := step_eq_some.mp hstep
  by_cases hdone : ∃ checkMode, l = .programCompleted checkMode
  · obtain ⟨checkMode, rfl⟩ := hdone
    have hstack : s.stack = [] := List.isEmpty_iff.mp hen
    cases hturn
    simp only [onProgramCompleted, spend]
    split
    · exact ⟨h.available, fun _ _ => rfl, fun _ _ _ _ => by rw [hstack]; exact List.not_mem_nil⟩
    · next hnot =>
      rw [eq_false_of_ne_true hnot, Bool.or_false]
      exact h
  · have hspend : spend s l spent = (spent && !pressTaken s l) := by
      cases l with
      | programCompleted checkMode => exact absurd ⟨checkMode, rfl⟩ hdone
      | _ => rfl
    rw [hspend]
    rcases step_keeps hstep with hkeeps | ⟨rfl, rfl⟩
    · refine ⟨hkeeps.available.trans h.available, fun hspent hopen => ?_, fun hspent o n d hmem => ?_⟩
      · obtain ⟨hs, hpress⟩ := Bool.and_eq_true_iff.mp hspent
        rcases hkeeps.window with ⟨-, -, hwas⟩ | ⟨hgiven, -⟩
        · exact (hwas hopen).2 (h.window hs (hwas hopen).1)
        · rw [h.given hs hgiven] at hpress
          cases hpress
      · obtain ⟨hs, hpress⟩ := Bool.and_eq_true_iff.mp hspent
        rcases hkeeps.acks o n d hmem with hold | hgiven
        · exact h.acks hs o n d hold
        · rw [h.given hs hgiven] at hpress
          cases hpress
    · exact ⟨h.available, fun hspent => h.window (Bool.and_eq_true_iff.mp hspent).1,
        fun hspent => h.acks (Bool.and_eq_true_iff.mp hspent).1⟩

/-- A turn of the button wait leaves the spindle off, waits on, or takes the press. -/
theorem buttonTurn_dark {senderGen : UInt32} {released : Bool} {unreadable deadline : Nat} {e : Env}
    {s t : State} (hturn : buttonTurn senderGen released unreadable deadline e s = t) :
    t.spindleOn = false ∨ t.stack.length = s.stack.length + 1 ∨
      (s.clientGeneration = senderGen ∧ s.core.alarmed = false ∧
        countsAs released (armSwitches e.raw) = .pressed) := by
  obtain ⟨u, -, hcase⟩ | ⟨u, n, lid, -, -, -, hcase⟩ | ⟨hgen, halarmed, hpress, -⟩ :=
    buttonTurn_cases senderGen released unreadable deadline e s
  · rw [← hturn, hcase]
    exact .inl rfl
  · rw [← hturn, hcase]
    exact .inr (.inl rfl)
  · exact .inr (.inr ⟨hgen, halarmed, hpress⟩)

/-- A laser-on that finds the window closed is dark, or waits for the button. -/
theorem spindleSetState_dark {on : Bool} {e : Env} {s : State} (hclosed : s.laserOk = false)
    (havailable : s.available = true) :
    (spindleSetState on e s).spindleOn = false ∨
      (spindleSetState on e s).stack.length = s.stack.length + 1 := by
  cases on with
  | false => exact .inl rfl
  | true =>
    have hunlock : (armUnlock e (gfcoolLaserArmed true s)).2.stack = s.stack :=
      congrArg ConsentView.stack (armUnlock_consent e (gfcoolLaserArmed true s))
    simp only [spindleSetState, hclosed, Bool.not_false, Bool.and_self, if_true, gflaserArm, havailable]
    split_ifs
    · exact .inl rfl
    · exact .inl rfl
    · exact .inl rfl
    · exact .inl rfl
    · generalize hturn : buttonTurn _ _ _ _ _ _ = t
      rcases buttonTurn_dark hturn with hdark | hwaits | ⟨-, -, hpress⟩
      · exact .inl hdark
      · right
        rw [hwaits]
        exact congrArg (fun stack => stack.length + 1) hunlock
      · exact absurd hpress (countsAs_unreleased _)

/-- **A granted laser-on has consent** that is not spent. The window stands for a press, and the
program's end that would have spent it closes the window. -/
theorem granted_unspent {s t : State} {l : Label} {spent : Bool} (h : SpentInv s spent)
    (hfirst : relockFirst s l = true) (hstep : step s l = some t) (hgranted : granted s t l = true) :
    spend s l spent = false := by
  obtain ⟨-, hturn⟩ := step_eq_some.mp hstep
  simp only [granted, Bool.and_eq_true] at hgranted
  obtain ⟨⟨hends, hon⟩, -⟩ := hgranted
  cases l with
  | spindle on e =>
    cases hturn
    simp only [endsSpindle, Bool.and_eq_true, beq_iff_eq] at hends
    obtain ⟨rfl, hlength⟩ := hends
    rw [← Bool.not_eq_true]
    intro hspent
    have hspent : spent = true := (Bool.and_eq_true_iff.mp hspent).1
    cases hopen : s.laserOk with
    | true =>
      simp only [relockFirst, h.window hspent hopen] at hfirst
      cases hfirst
    | false =>
      rcases spindleSetState_dark hopen h.available with hdark | hwaits
      · exact absurd (hdark.symm.trans hon) (by decide)
      · omega
  | pumped e =>
    have hkept : ∀ origin since deadline, .ack origin since deadline ∈ s.stack → spent = false := by
      intro origin since deadline hmem
      rw [← Bool.not_eq_true]
      exact fun hspent => h.acks hspent origin since deadline hmem
    simp only [turn, pumped] at hturn
    simp only [endsSpindle] at hends
    split at hturn
    · cases hturn
    · next senderGen released unreadable deadline lid rest hstack =>
      rw [hstack] at hends
      simp only [beq_iff_eq] at hends
      simp only [Option.some.injEq, buttonPumped] at hturn
      split at hturn
      · rw [← hturn] at hon
        cases hon
      · next haborting =>
        split at hturn
        · rw [← hturn] at hon
          cases hon
        · next hlate =>
          rcases buttonTurn_dark hturn with hdark | hwaits | ⟨hgen, halarmed, hpress⟩
          · exact absurd (hdark.symm.trans hon) (by decide)
          · have hwaits : t.stack.length = rest.length + 1 := hwaits
            omega
          · have htaken : pressTaken s (.pumped e) = true :=
              buttonPressed_of_turn hstack (by simpa using haborting) hlate hgen halarmed hpress
            simp only [spend, htaken, Bool.not_true, Bool.and_false]
    · next origin since deadline rest hstack =>
      have hspent : spent = false := hkept origin since deadline (by rw [hstack]; exact .head _)
      simp only [spend, hspent, Bool.false_and]
  | _ => cases hends

/-- **The consent is spent with the job.** On a machine with switches, in every run in which no
laser-on comes between the program's end and the relock: a laser-on that is granted behind a
program's end has a new press. -/
theorem consent_spent_with_job {offValue : Nat} {s t : State} {l : Label} {spent : Bool}
    (hrun : Runs.Reach (Runs.observe step spend) (fun x l => relockFirst x.1 l = true)
      (State.init true true offValue, false) (s, spent))
    (hfirst : relockFirst s l = true) (hstep : step s l = some t) (hgranted : granted s t l = true) :
    spend s l spent = false := by
  have hinv : SpentInv s spent := by
    refine Runs.Reach.invariant_observe (fun s l => relockFirst s l = true) (P := SpentInv) hrun
      ⟨rfl, by rintro ⟨⟩, by rintro ⟨⟩⟩ ?_
    intro s spent l t h _ hstep
    exact step_spent h hstep
  exact granted_unspent hinv hfirst hstep hgranted

/-- A job that ends, and whose window closes once the kernel has played its tail. -/
def jobEnds : List Label :=
  armPressed ++ armAcknowledged ++
    [.programCompleted false, .spindle false {}, .close { kernel := some .running }, .close {}]

/-- The theorem at the arm of the job behind that one. -/
theorem consent_spent_with_job_next :
    ∃ (s t : State) (spent : Bool), granted s t (.pumped { pwm := 100 }) = true ∧
      spend s (.pumped { pwm := 100 }) spent = false := by
  have hrun : ∃ x : State × Bool,
      Runs.Reach (Runs.observe step spend) (fun x l => relockFirst x.1 l = true)
        (State.init true true 0, false) x ∧
      (step x.1 (.pumped { pwm := 100 })).any (granted x.1 · (.pumped { pwm := 100 })) = true :=
    Runs.exists_reach_of_exec (jobEnds ++ armPressed ++ [Label.verdict true true true false])
      (by decide +kernel)
  obtain ⟨⟨s, spent⟩, hreach, hnext⟩ := hrun
  obtain ⟨t, hstep, hgranted⟩ := (Option.any_eq_true _ _).mp hnext
  exact ⟨s, t, spent, hgranted, consent_spent_with_job hreach rfl hstep hgranted⟩

/-- **A laser-on ahead of the relock is granted** on the spent consent: the window is still
open, whether or not the kernel plays. -/
theorem laser_on_before_relock :
    ∃ (s t : State) (spent : Bool),
      Runs.Reach (Runs.observe step spend) (fun _ _ => True) (State.init true true 0, false) (s, spent) ∧
      step s (.spindle true { pwm := 100 }) = some t ∧ granted s t (.spindle true { pwm := 100 }) = true ∧
      spend s (.spindle true { pwm := 100 }) spent = true := by
  have hrun : ∃ x : State × Bool,
      Runs.Reach (Runs.observe step spend) (fun _ _ => True) (State.init true true 0, false) x ∧
      ((step x.1 (.spindle true { pwm := 100 })).any (granted x.1 · (.spindle true { pwm := 100 })) = true ∧
        spend x.1 (.spindle true { pwm := 100 }) x.2 = true) :=
    Runs.exists_reach_of_exec (armPressed ++ armAcknowledged ++ [Label.programCompleted false, .spindle false {}])
      (by decide +kernel)
  obtain ⟨⟨s, spent⟩, hreach, hnext, hspent⟩ := hrun
  obtain ⟨t, hstep, hgranted⟩ := (Option.any_eq_true _ _).mp hnext
  exact ⟨s, t, spent, hreach, hstep, hgranted, hspent⟩

end Glowforge.Laser
