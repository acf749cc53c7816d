import Mathlib.Data.List.TakeWhile
import Glowforge.Laser.Lid
import Glowforge.Laser.Rearm

/-!
# Glowforge — consent is a fresh press

The press is collected twice over: by the loop of `gflaser_arm`, which blocks, and by `rearm_poll`, which
the realtime hook calls. Either counts a press only once the button has been seen up, and each of its
ways out without a press locks the latch and takes the window back.

* **`Readings`** — what `arm_switches` has returned within the button wait and within the re-arm.
* **`Consented`** — a window opens behind a reading of the button up and a later one of it down; a wait
  that ends without its window leaves it closed.
* **`stands`** — no wait takes the place of another one.
* **`consent_is_fresh`** — then every step of a run is consented.
-/

namespace Glowforge.Laser

/-! ## The readings

A history of what each wait has read of the button, cut off where the wait begins. -/

/-- History: what `arm_switches` has returned within each wait, oldest first. -/
structure Readings where
  button : List ArmSwitch
  rearm : List ArmSwitch
deriving DecidableEq, Repr

def Readings.none : Readings := ⟨[], []⟩

/-- The button was seen up, and later down, each time with the lid and the loop closed. -/
def freshPress (readings : List ArmSwitch) : Bool :=
  (readings.dropWhile (· != .waiting)).contains .pressed

/-- The re-arm's poll reads the switches. -/
def rearmReads (s : State) : Bool :=
  s.rearmPending && s.core.held && s.clientGeneration == s.rearmClientGen

/-- The readings with the one that the step makes. A wait that begins has none of its own. -/
def Readings.read (s : State) (l : Label) (h : Readings) : Readings :=
  match l with
  | .spindle on e =>
    if spindlePasses on e s && s.available then
      { h with button := if s.core.alarmed then [] else [armSwitches e.raw] }
    else h
  | .pumped e =>
    match s.stack with
    | .button senderGen _ _ deadline lid :: _ =>
      if turnReads senderGen deadline lid e s then { h with button := h.button ++ [armSwitches e.raw] } else h
    | _ => h
  | .resumeGate _ => if gateTakes s then { h with rearm := [] } else h
  | .rearmPoll e => if rearmReads s then { h with rearm := h.rearm ++ [armSwitches e.raw] } else h
  | _ => h

/-- A re-arm that is over leaves no readings. -/
def readings (s : State) (l : Label) (h : Readings) : Readings :=
  (turn s l).elim h fun t => if t.rearmPending then h.read s l else { h.read s l with rearm := [] }

/-- The readings of the wait that the step goes on with. -/
def Readings.behind (s : State) (l : Label) (h : Readings) : List ArmSwitch :=
  match l with
  | .rearmPoll _ => h.rearm
  | .pumped _ =>
    match s.stack with
    | .button _ _ _ _ _ :: _ | .ack .spindle _ _ :: _ => h.button
    | .ack .rearm _ _ :: _ => h.rearm
    | _ => []
  | _ => []

/-! ## The property

In terms of the readings alone: up, and later down, within the wait that ends in the window. -/

def opensWindow (s t : State) : Bool := !s.laserOk && t.laserOk

/-- A button wait, a re-arm or an arm behind one of them ends with the step. -/
def endsWait (s t : State) : Label → Bool
  | .spindle on e => spindlePasses on e s && s.available && t.stack.length == s.stack.length
  | .pumped _ => decide (t.stack.length < s.stack.length)
  | .rearmPoll _ => s.rearmPending && !t.rearmPending
  | _ => false

def State.Shut (s : State) : Prop :=
  s.laserOk = false ∧ s.latchLockedByUs = true ∧ s.laserOnWindow = false

/-- A window that the step opens has a fresh press behind it, and a wait that the step ends without its
window leaves it shut. -/
structure Consented (s t : State) (l : Label) (h : Readings) : Prop where
  opens : opensWindow s t = true → freshPress ((h.read s l).behind s l) = true
  ends : endsWait s t l = true → opensWindow s t = true ∨ t.Shut

/-! ## The condition

A wait keeps its own readings as long as no other one takes its place. -/

/-- `arm_complete` gets past the acknowledgment and what it checks behind it. -/
def passesAck (e : Env) (s : State) : Bool := gfcoolRunAck s && gfcoolFireOk s && !(s.hwActive && !e.head)

/-- **A wait stands**: no re-arm takes its press under another wait, and none begins under the
acknowledgment of an earlier one; an arm gets past its acknowledgment only while the re-arm that it serves
is still pending, or with none pending when it is a laser-on's. -/
def stands (s : State) : Label → Bool
  | .resumeGate _ => !s.stack.any Frame.servesRearm || !gateTakes s
  | .rearmPoll e => s.stack.isEmpty || !takesPress e s
  | .pumped e =>
    match s.stack with
    | .ack origin _ deadline :: _ => ackRefuses deadline e s || (origin == .rearm) == s.rearmPending
    | .button _ _ _ _ _ :: _ => !buttonPressed e s || !passesAck e s || !s.rearmPending
    | [] => true
  | _ => true

/-! ## Fresh presses

The flags of the two loops say the same as the readings: the button has been seen up since the wait
began. -/

theorem freshPress_append {rs : List ArmSwitch} (hfresh : freshPress rs = true) (more : List ArmSwitch) :
    freshPress (rs ++ more) = true := by
  have hmem : ArmSwitch.pressed ∈ rs.dropWhile (· != .waiting) := by simpa [freshPress] using hfresh
  have hsome : (rs.dropWhile (· != .waiting)).isEmpty = false := by
    rw [List.isEmpty_eq_false_iff]
    exact List.ne_nil_of_mem hmem
  simp only [freshPress, List.dropWhile_append, hsome, Bool.false_eq_true, if_false, List.contains_append,
    Bool.or_eq_true, List.contains_iff_mem]
  exact .inl hmem

/-- **A press behind a reading of the button up is fresh.** -/
theorem freshPress_of_waiting {rs : List ArmSwitch} (hup : .waiting ∈ rs) :
    freshPress (rs ++ [.pressed]) = true := by
  have hsome : (rs.dropWhile (· != .waiting)).isEmpty = false := by
    rw [List.isEmpty_eq_false_iff]
    intro hnil
    have hall := List.dropWhile_eq_nil_iff.mp hnil _ hup
    cases hall
  simp only [freshPress, List.dropWhile_append, hsome, Bool.false_eq_true, if_false, List.contains_append,
    Bool.or_eq_true, List.contains_iff_mem]
  exact .inr (.head _)

theorem countsAs_pressed {released : Bool} {sw : ArmSwitch} (h : countsAs released sw = .pressed) :
    released = true ∧ sw = .pressed := by
  simp only [countsAs] at h
  split at h
  · cases h
  · next hnot =>
    cases h
    exact ⟨by simpa using hnot, rfl⟩

/-! ## The ways out

Every exit without a press locks the latch and takes the window back. -/

theorem shut_of_refuse {s t : State} (hclosed : s.laserOk = false)
    (hview : t.armView = s.armView.refuse ∨ t.armView = s.armView.refuse.alarm) : t.Shut := by
  rcases hview with hview | hview
  · exact ⟨(congrArg ArmView.laserOk hview).trans hclosed, congrArg ArmView.latchLockedByUs hview,
      congrArg ArmView.laserOnWindow hview⟩
  · exact ⟨(congrArg ArmView.laserOk hview).trans hclosed, congrArg ArmView.latchLockedByUs hview,
      congrArg ArmView.laserOnWindow hview⟩

/-- A refused arm returns with the window shut. -/
theorem armReturn_shut {origin : Origin} {e : Env} {s : State} (hok : e.latchOk = true) (hshut : s.Shut) :
    (armReturn origin false e s).Shut := by
  cases origin with
  | spindle => exact hshut
  | gate => exact hshut
  | rearm =>
    have hview : (rearmEnd false e s).armView =
        ArmView.refuse { s.armView with rearmPending := false } := armRefuse_view hok _
    have hend : (rearmEnd false e s).Shut :=
      shut_of_refuse (s := { s with rearmPending := false }) hshut.1 (.inl hview)
    simp only [armReturn, hend.1, Bool.false_eq_true, if_false]
    exact hend

/-- `arm_complete` behind the acknowledgment opens the window, or leaves it shut. -/
theorem armAcked_opens_or_shut {origin : Origin} {since : UInt32} {e : Env} {s : State}
    (hok : e.latchOk = true) (hclosed : s.laserOk = false) :
    (armAcked origin since e s).laserOk = true ∨ (armAcked origin since e s).Shut := by
  rw [armAcked]
  rcases @armFinish_view since e hok s with ⟨harmed, hview⟩ | ⟨harmed, hview⟩
  · left
    have hreturn := congrArg ConsentView.laserOk
      (armReturn_consent origin (armFinish e since s).1 e (armFinish e since s).2)
    exact hreturn.trans (congrArg ArmView.laserOk hview)
  · right
    rw [harmed]
    exact armReturn_shut hok (shut_of_refuse hclosed hview)

theorem armAcked_opens (origin : Origin) (since : UInt32) (e : Env) {s : State} (hclosed : s.laserOk = false)
    (hack : gfcoolRunAck s = true) : (armAcked origin since e s).laserOk = passesAck e s := by
  rw [armAcked_laserOk, hclosed, passesAck, hack, Bool.false_or, Bool.true_and]

theorem ackPumped_opens_or_shut {origin : Origin} {since : UInt32} {deadline : Nat} {e : Env} {s : State}
    (hok : e.latchOk = true) (hclosed : s.laserOk = false) :
    (ackPumped origin since deadline e s).laserOk = true ∨ (ackPumped origin since deadline e s).Shut ∨
      ackPumped origin since deadline e s = { s with stack := .ack origin since deadline :: s.stack } := by
  unfold ackPumped
  split
  · exact .inr (.inl (armReturn_shut hok (shut_of_refuse hclosed (.inl (armRefuse_view hok s)))))
  · split
    · exact .inr (.inl (armReturn_shut hok
        (shut_of_refuse hclosed (.inr (congrArg ArmView.alarm (armRefuse_view hok s))))))
    · split
      · exact (armAcked_opens_or_shut hok hclosed).imp_right .inl
      · exact .inr (.inr rfl)

theorem buttonAbort_shut {e : Env} {s : State} (hok : e.latchOk = true) (hclosed : s.laserOk = false) :
    (buttonAbort e s).Shut := by
  have hview : (buttonAbort e s).armView = s.armView.refuse :=
    (spindleFinish_view _ _ _).trans (armRefuse_view hok { s with arming := false })
  exact shut_of_refuse hclosed (.inl hview)

/-! ## The invariant

Each wait on the stack, and the re-arm beside it, with the readings that it may still need. -/

/-- What the wait has collected so far. -/
def Frame.Collects (pending : Bool) (h : Readings) : Frame → Prop
  | .button _ released _ _ _ => released = true → .waiting ∈ h.button
  | .ack .spindle _ _ => freshPress h.button = true
  | .ack .rearm _ _ => pending = true → freshPress h.rearm = true
  | .ack .gate _ _ => False

structure PressInv (w : Waits) (laserOk : Bool) (h : Readings) : Prop where
  available : w.available = true
  single : w.stack.length ≤ 1
  closed : w.stack ≠ [] ∨ w.pending = true → laserOk = false
  collects : ∀ f ∈ w.stack, f.Collects w.pending h
  seenUp : w.pending = true → w.released = true → .waiting ∈ h.rearm

namespace PressInv

variable {w : Waits} {laserOk : Bool} {h : Readings}

/-- Without a re-arm its readings do not count. -/
theorem forget (hi : PressInv w laserOk h) (hnone : w.pending = false) :
    PressInv w laserOk { h with rearm := [] } where
  available := hi.available
  single := hi.single
  closed := hi.closed
  collects := fun f hf => by
    have hwas := hi.collects f hf
    cases f with
    | button => exact hwas
    | ack origin => cases origin with
      | spindle => exact hwas
      | gate => exact hwas
      | rearm => exact fun hp => absurd (hnone.symm.trans hp) (by decide)
  seenUp := fun hp => absurd (hnone.symm.trans hp) (by decide)

/-- The window closes, or stays as it is. -/
theorem closes (hi : PressInv w laserOk h) {laserOk' : Bool} (hle : laserOk' = true → laserOk = true) :
    PressInv w laserOk' h where
  available := hi.available
  single := hi.single
  closed := fun hwaits => by
    rw [← Bool.not_eq_true]
    exact fun hopen => absurd ((hi.closed hwaits).symm.trans (hle hopen)) (by decide)
  collects := hi.collects
  seenUp := hi.seenUp

/-- The last wait is over. -/
theorem returns (hi : PressInv w laserOk h) {pending laserOk' : Bool} (hp : pending = true → w.pending = true)
    (hclosed : pending = true → laserOk' = false) (button : List ArmSwitch) :
    PressInv { w with stack := [], pending := pending } laserOk' { h with button := button } where
  available := hi.available
  single := Nat.zero_le 1
  closed := fun hwaits => hclosed (hwaits.resolve_left (not_not.mpr rfl))
  collects := fun _ hf => absurd hf List.not_mem_nil
  seenUp := fun hpend => hi.seenUp (hp hpend)

/-- A wait begins, or goes on, where no other is. -/
theorem pushes (hi : PressInv w laserOk h) {f : Frame} {button : List ArmSwitch}
    (hclosed : laserOk = false) (hf : f.Collects w.pending { h with button := button }) :
    PressInv { w with stack := [f] } laserOk { h with button := button } where
  available := hi.available
  single := le_rfl
  closed := fun _ => hclosed
  collects := fun g hg => by
    cases List.mem_singleton.mp hg
    exact hf
  seenUp := hi.seenUp

end PressInv

/-! ## What is consented -/

theorem Consented.shut {s t : State} {l : Label} {h : Readings} (hshut : t.Shut) : Consented s t l h where
  opens := fun hopens => by simp [opensWindow, hshut.1] at hopens
  ends := fun _ => .inr hshut

/-- A wait that goes on. -/
theorem Consented.dark {s t : State} {l : Label} {h : Readings} (hdark : t.laserOk = false)
    (hgoes : endsWait s t l = false) : Consented s t l h where
  opens := fun hopens => by simp [opensWindow, hdark] at hopens
  ends := fun hends => absurd (hgoes.symm.trans hends) (by decide)

/-- A step that leaves the window. -/
theorem Consented.same {s t : State} {l : Label} {h : Readings} (hsame : t.laserOk = true → s.laserOk = true)
    (hgoes : endsWait s t l = false) : Consented s t l h where
  opens := fun hopens => by
    simp only [opensWindow, Bool.and_eq_true, Bool.not_eq_true'] at hopens
    exact absurd (hopens.1.symm.trans (hsame hopens.2)) (by decide)
  ends := fun hends => absurd (hgoes.symm.trans hends) (by decide)

theorem Consented.fresh {s t : State} {l : Label} {h : Readings} (hclosed : s.laserOk = false)
    (hopen : t.laserOk = true) (hfresh : freshPress ((h.read s l).behind s l) = true) :
    Consented s t l h where
  opens := fun _ => hfresh
  ends := fun _ => .inl (by simp [opensWindow, hclosed, hopen])

/-! ## The wait of `gflaser_arm`

One turn of the loop, and then the pump that comes between two turns. -/

theorem armGates_laserOk (e : Env) (s : State) : (armGates e s).2.laserOk = s.laserOk := by
  simp only [armGates, headPresent]
  split_ifs <;> rfl

theorem armUnlock_laserOk (e : Env) (s : State) :
    (armUnlock e (gfcoolLaserArmed true s)).2.laserOk = s.laserOk := by
  simp only [armUnlock]
  split <;> rfl

/-- A laser-on that does not get past the gates leaves the waits and the window. -/
theorem spindleSetState_quiet {on : Bool} {e : Env} {s : State} (havail : s.available = true)
    (hnot : spindlePasses on e s = false) :
    (spindleSetState on e s).waits = s.waits ∧ (spindleSetState on e s).laserOk = s.laserOk := by
  simp only [spindleSetState]
  split
  · next harm =>
    split
    · exact ⟨rfl, rfl⟩
    · next hcheck =>
      split
      · exact ⟨rfl, rfl⟩
      · next hheld =>
        simp only [gflaserArm]
        split
        · exact ⟨armGates_waits e s, armGates_laserOk e s⟩
        · next hgates =>
          split
          · exact ⟨armUnlock_waits e _, armUnlock_laserOk e s⟩
          · next hunlock =>
            have hgates : (armGates e s).1 = true := by simpa using hgates
            have hunlock : (armUnlock e (gfcoolLaserArmed true s)).1 = true := by simpa using hunlock
            have hpasses : spindlePasses on e s = true := by
              simp only [spindlePasses, harm, hgates, hunlock, Bool.true_and, Bool.and_true, Bool.and_eq_true,
                bne_iff_ne, ne_eq, Bool.not_eq_true', hcheck, not_false_eq_true, true_and]
              simpa using hheld
            exact absurd (hnot.symm.trans hpasses) (by decide)
  · exact ⟨rfl, rfl⟩

/-- One that does comes to the first turn of the wait, with no other wait under it. -/
theorem spindleSetState_turns {on : Bool} {e : Env} {s : State} (havail : s.available = true)
    (hen : (Label.spindle on e).enabled s = true) (hpasses : spindlePasses on e s = true) :
    s.stack = [] ∧ ∃ u : State, u.waits = s.waits ∧ u.laserOk = false ∧ u.core = s.core ∧
      spindleSetState on e s =
        buttonTurn s.clientGeneration false 0 (e.now + e.buttonBudget) e u := by
  simp only [spindlePasses, Bool.and_eq_true, Bool.not_eq_true', bne_iff_ne, ne_eq] at hpasses
  obtain ⟨⟨⟨⟨⟨hon, hclosed⟩, hcheck⟩, hheld⟩, hgates⟩, hunlock⟩ := hpasses
  refine ⟨?_, { (armUnlock e (gfcoolLaserArmed true s)).2 with arming := true }, armUnlock_waits e _,
    (armUnlock_laserOk e s).trans hclosed, ?_, ?_⟩
  · simp only [Label.enabled, hheld, Bool.or_false, List.isEmpty_iff] at hen
    exact hen
  · simp only [armUnlock] at hunlock ⊢
    split at hunlock
    · next htook =>
      rw [if_pos htook]
      rfl
    · cases hunlock
  · simp only [spindleSetState, hon, hclosed, hcheck, hheld, gflaserArm, hgates, hunlock, havail, Bool.not_false,
      Bool.not_true, Bool.and_self, Bool.false_eq_true, if_true, if_false]

/-- **A turn of the wait** ends it shut, waits on with what it has read, or takes a fresh press. -/
theorem buttonTurn_collects {senderGen : UInt32} {released : Bool} {unreadable deadline : Nat} {e : Env}
    {s : State} {readings : List ArmSwitch} (hok : e.latchOk = true) (hclosed : s.laserOk = false)
    (hempty : s.stack = []) (hup : released = true → .waiting ∈ readings) :
    ((buttonTurn senderGen released unreadable deadline e s).Shut ∧
      (buttonTurn senderGen released unreadable deadline e s).waits = s.waits) ∨
    (s.clientGeneration = senderGen ∧ s.core.alarmed = false ∧
      (buttonTurn senderGen released unreadable deadline e s).laserOk = false ∧
      ∃ f : Frame, (∀ pending rearm, f.Collects pending ⟨readings ++ [armSwitches e.raw], rearm⟩) ∧
        (buttonTurn senderGen released unreadable deadline e s).waits = { s.waits with stack := [f] }) ∨
    (s.clientGeneration = senderGen ∧ s.core.alarmed = false ∧
      countsAs released (armSwitches e.raw) = .pressed ∧
      freshPress (readings ++ [armSwitches e.raw]) = true ∧
      buttonTurn senderGen released unreadable deadline e s =
        armComplete .spindle senderGen e { s with arming := false }) := by
  obtain ⟨t, ht, hend⟩ | ⟨t, n, lid, ht, hgen, halarmed, hwait⟩ | ⟨hgen, halarmed, hpress, hturn⟩ :=
    buttonTurn_cases senderGen released unreadable deadline e s
  · rw [hend]
    refine .inl ⟨buttonAbort_shut hok ?_, ?_⟩
    · rcases ht with rfl | rfl <;> exact hclosed
    · rcases ht with rfl | rfl <;> rfl
  · rw [hwait]
    refine .inr (.inl ⟨hgen, halarmed, ?_,
      .button senderGen (released || armSwitches e.raw == .waiting) n deadline lid, ?_, ?_⟩)
    · rcases ht with rfl | rfl <;> exact hclosed
    · intro pending rearm hseen
      rcases Bool.or_eq_true_iff.mp hseen with hbefore | hnow
      · exact List.mem_append_left _ (hup hbefore)
      · exact List.mem_append_right _ (List.mem_singleton.mpr (beq_iff_eq.mp hnow).symm)
    · rw [hempty]
      rcases ht with rfl | rfl <;> rfl
  · obtain ⟨hreleased, hdown⟩ := countsAs_pressed hpress
    refine .inr (.inr ⟨hgen, halarmed, hpress, ?_, hturn⟩)
    rw [hdown]
    exact freshPress_of_waiting (hup hreleased)

theorem spindle_step {on : Bool} {e : Env} {s : State} {h : Readings} (hok : e.latchOk = true)
    (hi : PressInv s.waits s.laserOk h) (hen : (Label.spindle on e).enabled s = true) :
    PressInv (spindleSetState on e s).waits (spindleSetState on e s).laserOk (h.read s (.spindle on e)) ∧
      Consented s (spindleSetState on e s) (.spindle on e) h := by
  have havail : s.available = true := hi.available
  cases hpasses : spindlePasses on e s with
  | false =>
    obtain ⟨hwaits, hlaser⟩ := spindleSetState_quiet havail hpasses
    have hread : h.read s (.spindle on e) = h := by
      simp only [Readings.read, hpasses, Bool.false_and, Bool.false_eq_true, if_false]
    rw [hwaits, hlaser, hread]
    exact ⟨hi, .same (fun hopen => hlaser.symm.trans hopen) (by simp [endsWait, hpasses])⟩
  | true =>
    obtain ⟨hempty, u, hwaits, hclosed, hcore, hturn⟩ := spindleSetState_turns havail hen hpasses
    have hread : h.read s (.spindle on e) =
        { h with button := if s.core.alarmed then [] else [] ++ [armSwitches e.raw] } := by
      simp only [Readings.read, hpasses, havail, Bool.and_self, if_true, List.nil_append]
    have hwas : PressInv s.waits false h := hi.closes (by rintro ⟨⟩)
    have hself : s.waits = { s.waits with stack := [], pending := s.rearmPending } := by
      rw [← hempty]
      rfl
    rw [hturn, hread]
    have hustack : u.stack = [] := (congrArg Waits.stack hwaits).trans hempty
    rcases @buttonTurn_collects s.clientGeneration false 0 (e.now + e.buttonBudget) e u [] hok hclosed hustack
        (by decide) with ⟨hshut, hback⟩ | ⟨-, halarmed, hdark, f, hf, hwait⟩ | ⟨-, -, hpress, -,
            -⟩
    · refine ⟨?_, .shut hshut⟩
      rw [hback, hwaits, hshut.1, hself]
      exact hwas.returns id (fun _ => rfl) _
    · rw [← hcore, halarmed]
      have hlength : (buttonTurn s.clientGeneration false 0 (e.now + e.buttonBudget) e u).stack = [f] :=
        congrArg Waits.stack hwait
      refine ⟨?_, .dark hdark (by simp [endsWait, hempty, hlength])⟩
      rw [hwait, hwaits, hdark]
      exact hwas.pushes rfl (hf _ _)
    · exact absurd hpress (countsAs_unreleased _)

theorem button_step {senderGen : UInt32} {released : Bool} {unreadable deadline : Nat} {lid : Bool} {e : Env}
    {s t : State} {h : Readings} (hok : e.latchOk = true) (hi : PressInv s.waits false h)
    (hclosed : s.laserOk = false) (hstack : s.stack = [.button senderGen released unreadable deadline lid])
    (hstands : stands s (.pumped e) = true)
    (ht : buttonPumped senderGen released unreadable deadline lid e { s with stack := [] } = t) :
    PressInv t.waits t.laserOk (h.read s (.pumped e)) ∧ Consented s t (.pumped e) h := by
  have hread : h.read s (.pumped e) = { h with
      button := if turnReads senderGen deadline lid e s then h.button ++ [armSwitches e.raw] else h.button } := by
    simp only [Readings.read, hstack]
    split <;> rfl
  -- each way out of the wait leaves it so
  have hout : t.Shut → t.waits = { s.waits with stack := [] } →
      PressInv t.waits t.laserOk (h.read s (.pumped e)) ∧ Consented s t (.pumped e) h := by
    intro hshut hback
    refine ⟨?_, .shut hshut⟩
    rw [hback, hshut.1, hread]
    exact hi.returns id (fun _ => rfl) _
  simp only [buttonPumped] at ht
  split at ht
  · exact hout (ht ▸ buttonAbort_shut hok hclosed) (ht ▸ rfl)
  · next haborting =>
    split at ht
    · exact hout (ht ▸ buttonAbort_shut hok hclosed) (ht ▸ rfl)
    · next hlate =>
      have hup : released = true → .waiting ∈ h.button := by
        have hcollects := hi.collects (.button senderGen released unreadable deadline lid) (by
          change _ ∈ s.stack
          rw [hstack]
          exact .head _)
        exact hcollects
      have hreads : s.clientGeneration = senderGen → s.core.alarmed = false →
          turnReads senderGen deadline lid e s = true := by
        intro hgen halarmed
        have haborting : s.aborting = false := by simpa using haborting
        simp only [turnReads, haborting, hgen, halarmed, Bool.not_false, Bool.true_and, beq_self_eq_true,
          Bool.and_true, Bool.not_eq_true']
        exact eq_false_of_ne_true hlate
      rcases @buttonTurn_collects senderGen released unreadable deadline e { s with stack := [] } h.button hok
          hclosed rfl hup with ⟨hshut, hback⟩ | ⟨hgen, halarmed, hdark, f, hf, hwait⟩ |
          ⟨hgen, halarmed, hpress, hfresh, hturn⟩
      · exact hout (ht ▸ hshut) (ht ▸ hback)
      · rw [ht] at hdark hwait
        have hlength : t.stack = [f] := congrArg Waits.stack hwait
        refine ⟨?_, .dark hdark (by simp [endsWait, hstack, hlength])⟩
        rw [hwait, hdark, hread, hreads hgen halarmed, if_pos rfl]
        exact hi.pushes rfl (hf _ _)
      · have hbehind : (h.read s (.pumped e)).behind s (.pumped e) = h.button ++ [armSwitches e.raw] := by
          simp only [Readings.behind, hstack]
          rw [hread, hreads hgen halarmed, if_pos rfl]
        rw [hturn] at ht
        rcases armComplete_waits .spindle senderGen e { s with stack := [], arming := false } with
          ⟨hack, hacked, hback⟩ | ⟨-, d, hwait⟩
        · rw [ht] at hacked hback
          rcases @armAcked_opens_or_shut .spindle senderGen e { s with stack := [], arming := false } hok hclosed
            with hopen | hshut
          · rw [← hacked] at hopen
            -- the window opens: no re-arm is pending
            have hnone : s.rearmPending = false := by
              have hpasses : passesAck e s = true := by
                rw [hacked] at hopen
                exact (@armAcked_opens .spindle senderGen e { s with stack := [], arming := false } hclosed
                  hack).symm.trans hopen
              have hbutton := @buttonPressed_of_turn senderGen released lid unreadable deadline [] e s hstack
                (by simpa using haborting) hlate hgen halarmed hpress
              simpa [stands, hstack, hbutton, hpasses] using hstands
            refine ⟨?_, .fresh hclosed hopen (hbehind ▸ hfresh)⟩
            rw [hback, hopen, hread]
            refine hi.returns id (fun hp => ?_) _
            exact absurd (hnone.symm.trans hp) (by decide)
          · rw [← hacked] at hshut
            exact hout hshut hback
        · rw [ht] at hwait
          have hdark : t.laserOk = false := by
            rw [hwait]
            exact hclosed
          refine ⟨?_, .dark hdark (by simp [endsWait, hstack, hwait])⟩
          rw [hdark, hread, hreads hgen halarmed, if_pos rfl, hwait]
          exact hi.pushes (f := .ack .spindle senderGen d) rfl hfresh

/-- The pump of `arm_complete`. -/
theorem ack_step {origin : Origin} {since : UInt32} {deadline : Nat} {e : Env} {s t : State} {h : Readings}
    (hok : e.latchOk = true) (hi : PressInv s.waits false h) (hclosed : s.laserOk = false)
    (hstack : s.stack = [.ack origin since deadline]) (hstands : stands s (.pumped e) = true)
    (ht : ackPumped origin since deadline e { s with stack := [] } = t) :
    PressInv t.waits t.laserOk (h.read s (.pumped e)) ∧ Consented s t (.pumped e) h := by
  have hread : h.read s (.pumped e) = h := by
    simp only [Readings.read, hstack]
  have hcollects := hi.collects (.ack origin since deadline) (by
    change _ ∈ s.stack
    rw [hstack]
    exact .head _)
  have hends : ∀ pending : Bool, origin.leavesPending pending = true → pending = true := by
    intro pending hp
    cases origin with
    | rearm => cases hp
    | _ => exact hp
  rw [hread]
  rcases ackPumped_waits origin since deadline e { s with stack := [] } with hback | hwait
  · rw [ht] at hback
    rcases @ackPumped_opens_or_shut origin since deadline e { s with stack := [] } hok hclosed with
      hopen | hshut | hsame
    · have hpasses := ackPumped_opens origin since deadline e (s := { s with stack := [] }) hclosed
      rw [hopen] at hpasses
      have hrefuses : ackRefuses deadline e s = false := by
        have hsame : ackRefuses deadline e { s with stack := [] } = ackRefuses deadline e s := rfl
        rw [← hsame]
        simpa using hpasses.symm
      have hserves : (origin == .rearm) = s.rearmPending := by
        simpa [stands, hstack, hrefuses] using hstands
      rw [ht] at hopen
      refine ⟨?_, .fresh hclosed hopen ?_⟩
      · rw [hback, hopen]
        refine hi.returns (hends _) (fun hp => ?_) h.button
        -- a laser-on's arm has found none pending, and a re-arm's own is over
        cases origin with
        | rearm => cases hp
        | spindle => exact absurd (hserves.trans hp) (by decide)
        | gate => exact absurd (hserves.trans hp) (by decide)
      · simp only [hread, Readings.behind, hstack]
        cases origin with
        | spindle => exact hcollects
        | rearm => exact hcollects hserves.symm
        | gate => exact hcollects.elim
    · rw [ht] at hshut
      refine ⟨?_, .shut hshut⟩
      rw [hback, hshut.1]
      exact hi.returns (hends _) (fun _ => rfl) h.button
    · rw [ht] at hsame
      rw [hsame] at hback
      exact absurd (congrArg Waits.stack hback) (by rintro ⟨⟩)
  · rw [ht] at hwait
    have hdark : t.laserOk = false := by
      rw [hwait]
      exact hclosed
    refine ⟨?_, .dark hdark (by simp [endsWait, hstack, hwait])⟩
    rw [hdark, hwait]
    exact @PressInv.pushes _ _ _ hi (.ack origin since deadline) h.button rfl hcollects

theorem pumped_step {e : Env} {s t : State} {h : Readings} (hok : e.latchOk = true)
    (hi : PressInv s.waits s.laserOk h) (hstands : stands s (.pumped e) = true) (hpump : pumped e s = some t) :
    PressInv t.waits t.laserOk (h.read s (.pumped e)) ∧ Consented s t (.pumped e) h := by
  have hsingle : s.stack.length ≤ 1 := hi.single
  cases hstack : s.stack with
  | nil =>
    simp only [pumped, hstack] at hpump
    cases hpump
  | cons f rest =>
    rw [hstack, List.length_cons] at hsingle
    have hrest : rest = [] := List.length_eq_zero_iff.mp (by omega)
    subst hrest
    have hclosed : s.laserOk = false := hi.closed (.inl (by
      change s.stack ≠ []
      rw [hstack]
      rintro ⟨⟩))
    rw [hclosed] at hi
    simp only [pumped, hstack] at hpump
    cases f with
    | button senderGen released unreadable deadline lid =>
      exact button_step hok hi hclosed hstack hstands (Option.some.inj hpump)
    | ack origin since deadline => exact ack_step hok hi hclosed hstack hstands (Option.some.inj hpump)

/-! ## The re-arm

One call of `rearm_poll` is one turn of the same loop. -/

/-- A re-arm that ends without a press leaves the window shut. -/
theorem rearmEnd_shut {e : Env} {s : State} (hok : e.latchOk = true) (hclosed : s.laserOk = false) :
    (rearmEnd false e s).Shut :=
  shut_of_refuse (s := { s with rearmPending := false, arming := false }) hclosed (.inl (armRefuse_view hok _))

theorem read_rearmPoll (e : Env) (s : State) (h : Readings) : h.read s (.rearmPoll e) =
    { h with rearm := if rearmReads s then h.rearm ++ [armSwitches e.raw] else h.rearm } := by
  simp only [Readings.read]
  split <;> rfl

/-- The re-arm waits on: it has read the button, and taken no press. -/
theorem rearmWaits_step {e : Env} {s : State} {h : Readings} {n : Nat} (hi : PressInv s.waits s.laserOk h)
    (hp : s.rearmPending = true) (hheld : s.core.held = true) (hgen : s.clientGeneration = s.rearmClientGen)
    (hpoll : rearmPoll e s = { s with
      hooked := true, rearmUnreadable := n
      rearmReleased := s.rearmReleased || armSwitches e.raw == .waiting }) :
    PressInv (rearmPoll e s).waits (rearmPoll e s).laserOk (h.read s (.rearmPoll e)) ∧
      Consented s (rearmPoll e s) (.rearmPoll e) h := by
  have hclosed : s.laserOk = false := hi.closed (.inr hp)
  have hreads : rearmReads s = true := by simp [rearmReads, hp, hheld, hgen]
  rw [hpoll, read_rearmPoll, hreads, if_pos rfl]
  refine ⟨?_, .dark hclosed (by simp [endsWait, hp])⟩
  refine ⟨hi.available, hi.single, fun _ => hclosed, fun f hf => ?_, fun _ hup => ?_⟩
  · have hwas := hi.collects f hf
    cases f with
    | button => exact hwas
    | ack origin => cases origin with
      | spindle => exact hwas
      | gate => exact hwas
      | rearm => exact fun _ => freshPress_append (hwas hp) _
  · rcases Bool.or_eq_true_iff.mp hup with hbefore | hnow
    · exact List.mem_append_left _ (hi.seenUp hp hbefore)
    · exact List.mem_append_right _ (List.mem_singleton.mpr (beq_iff_eq.mp hnow).symm)

/-- The re-arm takes its press, which is fresh. -/
theorem rearmPress_step {e : Env} {s : State} {h : Readings} (hok : e.latchOk = true)
    (hi : PressInv s.waits s.laserOk h) (hstands : stands s (.rearmPoll e) = true)
    (hpress : takesPress e s = true) :
    PressInv (rearmPoll e s).waits (rearmPoll e s).laserOk (h.read s (.rearmPoll e)) ∧
      Consented s (rearmPoll e s) (.rearmPoll e) h := by
  obtain ⟨hp, hheld, hgen, hdown, hreleased⟩ := takesPress_iff.mp hpress
  have hclosed : s.laserOk = false := hi.closed (.inr hp)
  have hreads : rearmReads s = true := by simp [rearmReads, hp, hheld, hgen]
  have hstack : s.stack = [] := by simpa [stands, hpress] using hstands
  have hfresh : freshPress (h.rearm ++ [armSwitches e.raw]) = true := by
    rw [hdown]
    exact freshPress_of_waiting (hi.seenUp hp hreleased)
  have hwas : PressInv s.waits false { h with rearm := h.rearm ++ [armSwitches e.raw] } := by
    refine ⟨hi.available, hi.single, fun _ => rfl, fun f hf => ?_, fun _ hup => ?_⟩
    · have hf : f ∈ s.stack := hf
      rw [hstack] at hf
      cases hf
    · exact List.mem_append_left _ (hi.seenUp hp hup)
  rw [rearmPoll_press hpress, read_rearmPoll, hreads, if_pos rfl]
  rcases armComplete_waits .rearm s.rearmClientGen e { s with hooked := true, rearmUnreadable := 0 } with
    ⟨-, hacked, hback⟩ | ⟨-, deadline, hwait⟩
  · have hself : State.waits s = { s.waits with stack := [] } := by
      rw [← hstack]
      rfl
    have hover : PressInv (armComplete .rearm s.rearmClientGen e
        { s with hooked := true, rearmUnreadable := 0 }).waits
        (armComplete .rearm s.rearmClientGen e { s with hooked := true, rearmUnreadable := 0 }).laserOk
        { h with rearm := h.rearm ++ [armSwitches e.raw] } := by
      have hwaits : (armComplete .rearm s.rearmClientGen e
          { s with hooked := true, rearmUnreadable := 0 }).waits =
            { s.waits with stack := [], pending := false } := hback.trans (congrArg
              (fun w : Waits => { w with pending := false }) hself)
      rw [hwaits]
      exact @PressInv.returns _ _ _ hwas false _ (by rintro ⟨⟩) (by rintro ⟨⟩) h.button
    refine ⟨hover, ?_⟩
    rcases @armAcked_opens_or_shut .rearm s.rearmClientGen e { s with hooked := true, rearmUnreadable := 0 } hok
        hclosed with hopen | hshut
    · rw [← hacked] at hopen
      refine .fresh hclosed hopen ?_
      rw [read_rearmPoll, hreads, if_pos rfl]
      exact hfresh
    · rw [← hacked] at hshut
      exact .shut hshut
  · rw [hwait]
    refine ⟨?_, .dark hclosed (by simp [endsWait, hp])⟩
    have hpushed := @PressInv.pushes s.waits false { h with rearm := h.rearm ++ [armSwitches e.raw] } hwas
      (.ack .rearm s.rearmClientGen deadline) h.button rfl fun _ => hfresh
    have hdark : PressInv { s.waits with stack := .ack .rearm s.rearmClientGen deadline :: s.stack } s.laserOk
        { h with rearm := h.rearm ++ [armSwitches e.raw] } := by
      rw [hclosed, hstack]
      exact hpushed
    exact hdark

theorem rearmPoll_step {e : Env} {s : State} {h : Readings} (hok : e.latchOk = true)
    (hi : PressInv s.waits s.laserOk h) (hstands : stands s (.rearmPoll e) = true) :
    PressInv (rearmPoll e s).waits (rearmPoll e s).laserOk (h.read s (.rearmPoll e)) ∧
      Consented s (rearmPoll e s) (.rearmPoll e) h := by
  obtain ⟨hp, hpoll⟩ | ⟨hp, hheld, -, hgen, n, hpoll⟩ | ⟨hpress, -⟩ | ⟨hends, n, r, hpoll⟩ := rearmPoll_cases e s
  · -- no re-arm is pending
    have hsame : rearmReads s = false := by simp [rearmReads, hp]
    rw [hpoll, read_rearmPoll, hsame, if_neg (by decide)]
    exact ⟨hi, .same id (by simp [endsWait, hp])⟩
  · exact rearmWaits_step hi hp hheld hgen hpoll
  · exact rearmPress_step hok hi hstands hpress
  · have hp := rearmEnds_pending hends
    have hclosed : s.laserOk = false := hi.closed (.inr hp)
    have hend : ∀ t : State, t.Shut → t.waits = { s.waits with pending := false, released := r } →
        PressInv t.waits t.laserOk (h.read s (.rearmPoll e)) ∧ Consented s t (.rearmPoll e) h := by
      intro t hshut hback
      refine ⟨?_, .shut hshut⟩
      rw [hback, hshut.1, read_rearmPoll]
      refine ⟨hi.available, hi.single, fun _ => rfl, fun f hf => ?_, by rintro ⟨⟩⟩
      have hwas := hi.collects f hf
      cases f with
      | button => exact hwas
      | ack origin => cases origin with
        | spindle => exact hwas
        | gate => exact hwas
        | rearm => exact (by rintro ⟨⟩)
    have hshut : (rearmEnd false e
        { s with hooked := true, rearmUnreadable := n, rearmReleased := r }).Shut := rearmEnd_shut hok hclosed
    rcases hpoll with hpoll | hpoll
    · rw [hpoll]
      exact hend _ hshut rfl
    · rw [hpoll]
      exact hend _ hshut rfl

/-- The gate opens no window on a machine with switches. -/
theorem resumeGate_step {e : Env} {s : State} {h : Readings} (hi : PressInv s.waits s.laserOk h)
    (hstands : stands s (.resumeGate e) = true) :
    PressInv (gflaserResumeGate e s).waits (gflaserResumeGate e s).laserOk (h.read s (.resumeGate e)) ∧
      Consented s (gflaserResumeGate e s) (.resumeGate e) h := by
  have havail : s.available = true := hi.available
  have hlaser : (gflaserResumeGate e s).laserOk = s.laserOk := by
    simp only [gflaserResumeGate, havail, if_true]
    split
    · split
      · exact armGates_laserOk e s
      · split
        · exact armUnlock_laserOk e s
        · exact armUnlock_laserOk e s
    · split <;> rfl
  refine ⟨?_, .same (fun hopen => hlaser.symm.trans hopen) rfl⟩
  rw [hlaser]
  have hcleared : gateTakes s = true → PressInv s.waits s.laserOk { h with rearm := [] } := by
    intro htakes
    simp only [gateTakes, Bool.and_eq_true, Bool.not_eq_true'] at htakes
    exact hi.forget htakes.1.1.2
  rcases resumeGate_waits e s with hsame | ⟨htakes, -, hbegin⟩ | ⟨harms, -⟩
  · rw [hsame]
    simp only [Readings.read]
    split
    · next htakes => exact hcleared htakes
    · exact hi
  · have hclosed : s.laserOk = false := by
      simp only [gateTakes, Bool.and_eq_true, Bool.not_eq_true'] at htakes
      exact htakes.1.2
    have hnone : s.stack.any Frame.servesRearm = false := by simpa [stands, htakes] using hstands
    simp only [Readings.read, htakes, if_true]
    rw [hbegin]
    refine ⟨hi.available, hi.single, fun _ => hclosed, fun f hf => ?_, by rintro _ ⟨⟩⟩
    have hwas := hi.collects f hf
    cases f with
    | button => exact hwas
    | ack origin => cases origin with
      | spindle => exact hwas
      | gate => exact hwas
      | rearm =>
        have hserves := List.any_eq_false.mp hnone _ hf
        exact absurd rfl hserves
  · simp [gateArms, havail] at harms

/-! ## Runs

Every entry together, and the two windows that a press can open. -/

/-- The other entries open no window, and end no wait. -/
theorem turn_laserOk {s t : State} {l : Label} (hother : l.reachesArm = false) (hturn : turn s l = some t)
    (hopen : t.laserOk = true) : s.laserOk = true := by
  rcases @turn_keeps (fun _ => False) s t l hother hturn with hkeeps | ⟨-, rfl⟩
  · rcases hkeeps.window with ⟨-, -, hwas⟩ | ⟨hgiven, -⟩
    · exact (hwas hopen).1
    · exact hgiven.elim
  · exact hopen

/-- **One step of a run.** Each entry either collects for the wait that is on top, ends a wait with
its press or without, or leaves the waits and their readings alone. -/
theorem step_press {s t : State} {l : Label} {h : Readings} (hi : PressInv s.waits s.laserOk h)
    (hok : l.latchOk = true) (hstands : stands s l = true) (hstep : step s l = some t) :
    PressInv t.waits t.laserOk (h.read s l) ∧ Consented s t l h := by
  obtain ⟨hen, hturn⟩ := step_eq_some.mp hstep
  cases hother : l.reachesArm with
  | false =>
    have hclosed := turn_laserOk hother hturn
    have hread : h.read s l = h := by
      cases l with
      | spindle | pumped | resumeGate | rearmPoll => cases hother
      | _ => rfl
    have hgoes : endsWait s t l = false := by
      cases l with
      | spindle | pumped | resumeGate | rearmPoll => cases hother
      | _ => rfl
    rw [turn_waits hother hturn, hread]
    exact ⟨hi.closes hclosed, .same hclosed hgoes⟩
  | true =>
    cases l with
    | spindle on e =>
      cases hturn
      exact spindle_step hok hi hen
    | pumped e => exact pumped_step hok hi hstands hturn
    | resumeGate e =>
      cases hturn
      exact resumeGate_step hi hstands
    | rearmPoll e =>
      cases hturn
      exact rearmPoll_step hok hi hstands
    | _ => cases hother

/-- The histories of a run. -/
theorem step_readings {s t : State} {l : Label} {h : Readings} (hi : PressInv s.waits s.laserOk h)
    (hok : l.latchOk = true) (hstands : stands s l = true) (hstep : step s l = some t) :
    PressInv t.waits t.laserOk (readings s l h) := by
  obtain ⟨-, hturn⟩ := step_eq_some.mp hstep
  have hread := (step_press hi hok hstands hstep).1
  simp only [readings, hturn, Option.elim_some]
  cases hpending : t.rearmPending with
  | true => exact hread
  | false => exact hread.forget hpending

/-- **Consent is a fresh press.** On a machine with switches, in every run whose latch writes take and in
which each wait stands: a window opens only where `arm_switches` has returned the button up, and later the
button down, within the wait that opens it; and each wait that ends otherwise ends with the window closed,
the latch record locked and the cooling client's window taken back. -/
theorem consent_is_fresh {hwActive : Bool} {offValue : Nat} {s t : State} {l : Label} {h : Readings}
    (hrun : Runs.Reach (Runs.observe step readings) (fun x l => l.latchOk = true ∧ stands x.1 l = true)
      (State.init hwActive true offValue, Readings.none) (s, h))
    (hok : l.latchOk = true) (hstands : stands s l = true) (hstep : step s l = some t) :
    Consented s t l h := by
  have hinv : PressInv s.waits s.laserOk h := by
    refine Runs.Reach.invariant_observe (fun s l => l.latchOk = true ∧ stands s l = true)
      (P := fun s h => PressInv s.waits s.laserOk h) hrun ?_ ?_
    · exact ⟨rfl, Nat.zero_le 1, fun _ => rfl, fun _ hf => absurd hf List.not_mem_nil, by rintro ⟨⟩⟩
    · intro s h l t hi hquiet hstep
      exact step_readings hi hquiet.1 hquiet.2 hstep
  exact (step_press hinv hok hstands hstep).2

/-- The theorem at a re-arm that the engine has answered: its window opens, on the button up and down. -/
theorem consent_is_fresh_resumed :
    ∃ (s t : State) (h : Readings), opensWindow s t = true ∧ h.rearm = [.waiting, .pressed] ∧
      Consented s t (.pumped {}) h := by
  have hex : ∃ x : State × Readings,
      Runs.Reach (Runs.observe step readings) (fun x l => l.latchOk = true ∧ stands x.1 l = true)
        (State.init true true 0, Readings.none) x ∧
      (stands x.1 (.pumped {}) = true ∧ (step x.1 (.pumped {})).any (opensWindow x.1) = true ∧
        x.2.rearm = [.waiting, .pressed]) :=
    Runs.exists_reach_of_exec (rearmPressed ++ [Label.verdict true true true false]) (by decide +kernel)
  obtain ⟨⟨s, h⟩, hrun, hstands, hany, hrearm⟩ := hex
  obtain ⟨t, hstep, hopens⟩ := (Option.any_eq_true _ _).mp hany
  exact ⟨s, t, h, hopens, hrearm, consent_is_fresh hrun rfl hstands hstep⟩

/-- A sender starts a laser job under a spindle that was left on; the core holds in the pump of the button
wait, and a re-arm takes the press there. -/
def rearmInButtonWait : List Label :=
  [.verdict true true false false, .rearmPoll {}, .core .idle true, .spindle true {},
    .verdict true true true false, .rearmPoll {}, .core .hold true, .resumeGate {}, .rearmPoll {},
    .rearmPoll pressedEnv]

/-- **A re-arm under the button wait leaves it open.** The wait of `gflaser_arm` times out, locks the latch
and takes the cooling client's window back, and `laser_ok` stands as the re-arm has set it. -/
theorem rearm_under_button_wait :
    ¬∀ s t l h, Runs.Reach (Runs.observe step readings) (fun _ l => l.latchOk = true)
      (State.init true true 0, Readings.none) (s, h) → l.latchOk = true → step s l = some t →
        Consented s t l h := by
  intro hall
  have hex : ∃ x : State × Readings,
      Runs.Reach (Runs.observe step readings) (fun _ l => l.latchOk = true)
        (State.init true true 0, Readings.none) x ∧
      (x.1.laserOk = true ∧ (step x.1 (.pumped { now := 400000 })).any (fun t =>
        t.laserOk && endsWait x.1 t (.pumped { now := 400000 })) = true) :=
    Runs.exists_reach_of_exec rearmInButtonWait (by decide +kernel)
  obtain ⟨⟨s, h⟩, hrun, hwas, hany⟩ := hex
  obtain ⟨t, hstep, hends⟩ := (Option.any_eq_true _ _).mp hany
  obtain ⟨hopen, hends⟩ := Bool.and_eq_true_iff.mp hends
  rcases (hall s t _ h hrun rfl hstep).ends hends with hopens | hshut
  · have hclosed := (Bool.and_eq_true_iff.mp hopens).1
    rw [hwas] at hclosed
    cases hclosed
  · exact absurd (hshut.1.symm.trans hopen) (by decide)

end Glowforge.Laser
