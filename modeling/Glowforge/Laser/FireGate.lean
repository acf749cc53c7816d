import Glowforge.Laser.Machine

/-!
# Glowforge — who opens the stream's fire gate

`fire_gate_publish` writes the gate from the poll and from the arm, and a disarm closes it with the window.

* **`Leaves`** — what an entry other than the publication does to the gate: a window that is open behind it
  was open, and the gate as it was, or the verdict lets it fire.
* **`step_gate`** — every step leaves the gate so, or publishes it.
-/

namespace Glowforge.Laser

/-- A window that is open in `t` was open in `s`, and the gate as it was, unless the verdict permits fire. -/
structure Leaves (s t : State) : Prop where
  verdict : gfcoolVerdictFireOk t = gfcoolVerdictFireOk s
  gate : t.laserOk = true → (s.laserOk = true ∧ t.fireGate = s.fireGate) ∨ gfcoolVerdictFireOk s = true

namespace Leaves

theorem refl (s : State) : Leaves s s := ⟨rfl, fun h => .inl ⟨h, rfl⟩⟩

theorem trans {s t u : State} (h : Leaves s t) (k : Leaves t u) : Leaves s u where
  verdict := k.verdict.trans h.verdict
  gate := fun hopen => by
    rcases k.gate hopen with ⟨hwas, hgate⟩ | hpermits
    · exact (h.gate hwas).imp_left fun hfirst => ⟨hfirst.1, hgate.trans hfirst.2⟩
    · exact .inr (h.verdict.symm.trans hpermits)

/-- A step that writes neither. -/
theorem of_same {s t : State} (hverdict : gfcoolVerdictFireOk t = gfcoolVerdictFireOk s)
    (hlaser : t.laserOk = s.laserOk) (hgate : t.fireGate = s.fireGate) : Leaves s t :=
  ⟨hverdict, fun hopen => .inl ⟨hlaser.symm.trans hopen, hgate⟩⟩

end Leaves

/-! ## The operations

Behind each entry but the publication, a window that is open was open before and the gate is as it
was, or the verdict lets it fire. -/

theorem systemRaiseAlarm_leaves (s : State) : Leaves s (systemRaiseAlarm s) := .of_same rfl rfl rfl

theorem enqueue_leaves (c : Command) (s : State) : Leaves s (enqueue c s) := .of_same rfl rfl rfl

theorem armRefuse_leaves (e : Env) (s : State) : Leaves s (armRefuse e s) := .of_same rfl rfl rfl

theorem spindleFinish_leaves (on : Bool) (e : Env) (s : State) : Leaves s (spindleFinish on e s) :=
  .of_same rfl rfl rfl

theorem gflaserDisarm_leaves (e : Env) (s : State) : Leaves s (gflaserDisarm e s) := by
  simp only [gflaserDisarm]
  split_ifs <;> exact ⟨rfl, by rintro ⟨⟩⟩

theorem headPresent_leaves (e : Env) (s : State) : Leaves s (headPresent e s).2 := by
  simp only [headPresent]
  split
  · exact .refl s
  · exact systemRaiseAlarm_leaves s

theorem armGates_leaves (e : Env) (s : State) : Leaves s (armGates e s).2 := by
  simp only [armGates]
  split
  · exact systemRaiseAlarm_leaves s
  · split
    · exact headPresent_leaves e s
    · split
      · exact systemRaiseAlarm_leaves s
      · exact .refl s

theorem gfcoolLaserArmed_leaves (armed : Bool) (s : State) : Leaves s (gfcoolLaserArmed armed s) :=
  .of_same rfl rfl rfl

theorem latchLock_leaves (lock : Bool) (e : Env) (s : State) : Leaves s (latchLock lock e s).2 :=
  .of_same rfl rfl rfl

theorem armUnlock_leaves (e : Env) (s : State) : Leaves s (armUnlock e (gfcoolLaserArmed true s)).2 := by
  have hwrite := (gfcoolLaserArmed_leaves true s).trans (latchLock_leaves false e _)
  simp only [armUnlock]
  split
  · exact hwrite
  · exact (hwrite.trans (gfcoolLaserArmed_leaves false _)).trans (systemRaiseAlarm_leaves _)

theorem rearmEnd_leaves (armed : Bool) (e : Env) (s : State) : Leaves s (rearmEnd armed e s) := by
  cases armed <;> exact .of_same rfl rfl rfl

theorem armReturn_leaves (origin : Origin) (armed : Bool) (e : Env) (s : State) :
    Leaves s (armReturn origin armed e s) := by
  cases origin with
  | spindle => exact spindleFinish_leaves armed e s
  | rearm =>
    simp only [armReturn]
    split
    · exact (rearmEnd_leaves armed e s).trans (enqueue_leaves _ _)
    · exact rearmEnd_leaves armed e s
  | gate =>
    simp only [armReturn]
    split
    · exact enqueue_leaves _ s
    · exact .refl s

/-- The window opens only under a verdict that permits fire. -/
theorem armFinish_leaves (e : Env) (since : UInt32) (s : State) : Leaves s (armFinish e since s).2 := by
  simp only [armFinish]
  split
  · exact (armRefuse_leaves e s).trans (systemRaiseAlarm_leaves _)
  · next hfire =>
    have hpermits : gfcoolVerdictFireOk s = true := by
      simp only [Bool.not_eq_true', Bool.not_eq_false, gfcoolFireOk, Bool.and_eq_true] at hfire
      exact hfire.1
    split
    · exact (headPresent_leaves e s).trans (armRefuse_leaves e _)
    · exact ⟨(headPresent_leaves e s).verdict, fun _ => .inr hpermits⟩

theorem armAcked_leaves (origin : Origin) (since : UInt32) (e : Env) (s : State) :
    Leaves s (armAcked origin since e s) :=
  (armFinish_leaves e since s).trans (armReturn_leaves _ _ _ _)

theorem armComplete_leaves (origin : Origin) (since : UInt32) (e : Env) (s : State) :
    Leaves s (armComplete origin since e s) := by
  unfold armComplete
  split
  · exact armAcked_leaves origin since e s
  · exact .of_same rfl rfl rfl

theorem ackPumped_leaves (origin : Origin) (since : UInt32) (deadline : Nat) (e : Env) (s : State) :
    Leaves s (ackPumped origin since deadline e s) := by
  unfold ackPumped
  split
  · exact (armRefuse_leaves e s).trans (armReturn_leaves _ _ _ _)
  · split
    · exact ((armRefuse_leaves e s).trans (systemRaiseAlarm_leaves _)).trans (armReturn_leaves _ _ _ _)
    · split
      · exact armAcked_leaves origin since e s
      · exact .of_same rfl rfl rfl

theorem buttonAbort_leaves (e : Env) (s : State) : Leaves s (buttonAbort e s) := .of_same rfl rfl rfl

theorem buttonTurn_leaves (senderGen : UInt32) (released : Bool) (unreadable deadline : Nat) (e : Env)
    (s : State) : Leaves s (buttonTurn senderGen released unreadable deadline e s) := by
  obtain ⟨t, ht, hturn⟩ | ⟨t, n, lid, ht, -, -, hturn⟩ | ⟨-, -, -, hturn⟩ :=
    buttonTurn_cases senderGen released unreadable deadline e s
  · rw [hturn]
    rcases ht with rfl | rfl
    · exact buttonAbort_leaves e _
    · exact (systemRaiseAlarm_leaves s).trans (buttonAbort_leaves e _)
  · rw [hturn]
    rcases ht with rfl | rfl <;> exact .of_same rfl rfl rfl
  · rw [hturn]
    exact Leaves.trans (t := { s with arming := false }) (.of_same rfl rfl rfl) (armComplete_leaves _ _ _ _)

theorem buttonPumped_leaves (senderGen : UInt32) (released : Bool) (unreadable deadline : Nat) (lid : Bool)
    (e : Env) (s : State) : Leaves s (buttonPumped senderGen released unreadable deadline lid e s) := by
  unfold buttonPumped
  split
  · exact buttonAbort_leaves e s
  · split
    · exact (systemRaiseAlarm_leaves s).trans (buttonAbort_leaves e _)
    · exact buttonTurn_leaves senderGen released unreadable deadline e s

theorem spindleSetState_leaves (on : Bool) (e : Env) (s : State) : Leaves s (spindleSetState on e s) := by
  have harm : Leaves s (gflaserArm e s) := by
    simp only [gflaserArm]
    split
    · exact (armGates_leaves e s).trans (spindleFinish_leaves _ _ _)
    · have hunlock := armUnlock_leaves e s
      split
      · exact hunlock.trans (spindleFinish_leaves _ _ _)
      · split
        · refine hunlock.trans (Leaves.trans
            (t := { (armUnlock e (gfcoolLaserArmed true s)).2 with arming := true }) (.of_same rfl rfl rfl) ?_)
          exact buttonTurn_leaves _ _ _ _ _ _
        · exact hunlock.trans (armComplete_leaves _ _ _ _)
  simp only [spindleSetState]
  split_ifs
  · exact spindleFinish_leaves _ _ _
  · exact spindleFinish_leaves _ _ _
  · exact harm
  · exact spindleFinish_leaves _ _ _

theorem resumeGate_leaves (e : Env) (s : State) : Leaves s (gflaserResumeGate e s) := by
  have hunlock := armUnlock_leaves e s
  simp only [gflaserResumeGate]
  split
  · split
    · exact armGates_leaves e s
    · split
      · exact hunlock
      · split
        · exact hunlock.trans (.of_same rfl rfl rfl)
        · exact hunlock.trans (armComplete_leaves _ _ _ _)
  · split
    · exact .refl s
    · exact enqueue_leaves _ s

theorem rearmPoll_leaves (e : Env) (s : State) : Leaves s (rearmPoll e s) := by
  obtain ⟨-, hpoll⟩ | ⟨-, -, -, -, n, hpoll⟩ | ⟨-, n, hpoll⟩ | ⟨-, n, r, hpoll | hpoll⟩ := rearmPoll_cases e s
  · rw [hpoll]
    exact .of_same rfl rfl rfl
  · rw [hpoll]
    exact .of_same rfl rfl rfl
  · rw [hpoll]
    exact Leaves.trans (t := { s with hooked := true, rearmUnreadable := n }) (.of_same rfl rfl rfl)
      (armComplete_leaves _ _ _ _)
  · rw [hpoll]
    exact .of_same rfl rfl rfl
  · rw [hpoll]
    exact .of_same rfl rfl rfl

theorem relockReady_leaves (e : Env) (s : State) : Leaves s (relockReady e s).2 := by
  obtain ⟨since, hready⟩ := relockReady_frame e s
  rw [hready]
  exact .of_same rfl rfl rfl

theorem pollGrace_leaves (e : Env) (s : State) : Leaves s (pollGrace e s) := by
  have hready := relockReady_leaves e s
  simp only [pollGrace]
  split_ifs
  · exact .of_same rfl rfl rfl
  · exact .of_same rfl rfl rfl
  · exact hready.trans (gflaserDisarm_leaves e _)
  · exact hready.trans (.of_same rfl rfl rfl)
  · exact .refl s

theorem pollClose_leaves (e : Env) (s : State) : Leaves s (pollClose e s) := by
  have hready := relockReady_leaves e s
  simp only [pollClose]
  split
  · exact .refl s
  · split
    · exact gflaserDisarm_leaves e s
    · split
      · split
        · exact (enqueue_leaves _ s).trans (gflaserDisarm_leaves e _)
        · exact gflaserDisarm_leaves e s
      · split
        · split
          · exact hready.trans (gflaserDisarm_leaves e _)
          · exact hready.trans (pollGrace_leaves e _)
        · exact pollGrace_leaves e s

/-! ## The step -/

/-- **A step leaves the gate, or publishes it.** The verdict's own label is the cooling client's. -/
theorem step_gate {s t : State} {l : Label} (hstep : step s l = some t)
    (hverdict : ∀ a b c d, l ≠ .verdict a b c d) :
    (l = .publish ∧ t = fireGatePublish s) ∨ Leaves s t := by
  obtain ⟨-, hturn⟩ := step_eq_some.mp hstep
  cases l with
  | verdict a b c d => exact absurd rfl (hverdict a b c d)
  | publish =>
    cases hturn
    exact .inl ⟨rfl, rfl⟩
  | spindle on e =>
    cases hturn
    exact .inr (spindleSetState_leaves on e s)
  | pumped e =>
    right
    simp only [turn, pumped] at hturn
    split at hturn
    · cases hturn
    · next rest _ =>
      cases hturn
      exact Leaves.trans (t := { s with stack := rest }) (.of_same rfl rfl rfl) (buttonPumped_leaves _ _ _ _ _ _ _)
    · next rest _ =>
      cases hturn
      exact Leaves.trans (t := { s with stack := rest }) (.of_same rfl rfl rfl) (ackPumped_leaves _ _ _ _ _)
  | resumeGate e =>
    cases hturn
    exact .inr (resumeGate_leaves e s)
  | rearmPoll e =>
    cases hturn
    exact .inr (rearmPoll_leaves e s)
  | close e =>
    cases hturn
    exact .inr (pollClose_leaves e s)
  | cancel e =>
    cases hturn
    exact .inr (gflaserDisarm_leaves e s)
  | fault e =>
    cases hturn
    refine .inr (Leaves.trans (t := { s with faultFlag := false }) (.of_same rfl rfl rfl) ?_)
    exact (gflaserDisarm_leaves e _).trans (systemRaiseAlarm_leaves _)
  | reset next e =>
    cases hturn
    exact .inr ((gflaserDisarm_leaves e s).trans (.of_same rfl rfl rfl))
  | verdictFail e =>
    cases hturn
    right
    simp only [gflaserVerdictFail]
    split
    · exact ((gflaserDisarm_leaves e s).trans (enqueue_leaves .reset _)).trans (.of_same rfl rfl rfl)
    · exact .refl s
  | programCompleted checkMode =>
    cases hturn
    right
    simp only [onProgramCompleted]
    split <;> exact .of_same rfl rfl rfl
  | emission e =>
    cases hturn
    right
    simp only [emissionCheck]
    split_ifs <;> exact .of_same rfl rfl rfl
  | failAlarm e =>
    cases hturn
    right
    simp only [failAlarm]
    split_ifs <;> exact .of_same rfl rfl rfl
  | relight e =>
    cases hturn
    right
    simp only [relight]
    split <;> exact .of_same rfl rfl rfl
  | _ =>
    cases hturn
    exact .inr (.of_same rfl rfl rfl)

end Glowforge.Laser
