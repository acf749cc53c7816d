import Glowforge.Laser.Consent
import Glowforge.Switches.Basic

/-!
# Glowforge — the lid while an arm waits for the acknowledgment

The press is taken with the lid and the interlock loop closed. Behind it `arm_complete` waits for the
cooling engine, and what it checks there is the soft reset, its budget, the verdict and the head; the
switches are read by `gfsw_poll` in the pumps, which hides the door from a core at Idle.

* **`Panel`** — the laser module and the switches, with the readings that each wait has seen.
* **`panelStep`** — an entry into the laser module, or a `gfsw_poll` with what it calls there.
* **`refusesOpen`** — a wait that has seen the lid or the loop open is refused on other grounds.
* **`lid_closed_or_refused`** — as long as that is so no window opens over an open lid, and the first
  time it is not, one does.
-/

namespace Glowforge.Laser

/-- The laser module and the switches. -/
structure Panel where
  laser : State
  sw : Switches.State
  -- History, for each wait for the acknowledgment, the innermost first: a reading since its press
  -- showed the lid or the interlock loop open.
  sawOpen : List Bool
  -- History: a window was opened by an arm that had seen that.
  overOpenLid : Bool

def Panel.start (hwActive : Bool) (offValue : Nat) (raw : Switches) : Panel where
  laser := State.init hwActive true offValue
  sw := Switches.gfswInit true raw
  sawOpen := []
  overOpenLid := false

/-- The reading shows the lid or the interlock loop open. -/
def readsOpen (raw : Option Switches) : Bool := raw.any Switches.gfswMapBits

/-- The turn of the button wait behind a pump reads the switches. -/
def turnReads (senderGen : UInt32) (deadline : Nat) (lid : Bool) (e : Env) (s : State) : Bool :=
  !s.aborting && !(!lid && decide (e.now > deadline)) && s.clientGeneration == senderGen &&
    !s.core.alarmed

/-- The reading that an entry into the laser module makes. The first turn of a button wait has no
wait under it. -/
def Label.reading (s : State) : Label → Option Switches
  | .pumped e =>
    match s.stack with
    | .button senderGen _ _ deadline lid :: _ => if turnReads senderGen deadline lid e s then e.raw else none
    | _ => none
  | .rearmPoll e =>
    if s.rearmPending && s.core.held && s.clientGeneration == s.rearmClientGen then e.raw else none
  | _ => none

inductive PanelLabel where
  | laser (l : Label)
  -- `gfsw_poll`; what it reads of the core and of the arm is the panel's.
  | poll (e : Env) (v : Switches.View)

/-- A call of a poll's on the laser module. -/
def State.take (e : Env) (s : State) : Switches.Call → State
  | .enqueue c => enqueue c s
  | .resumeGate => gflaserResumeGate e s
  | .disarm => gflaserDisarm e s
  | .door _ | .returnLine _ | .report _ => s

/-- What the waits of `s` have seen, once a step to `t` has made the reading `raw`. -/
def carry (s t : State) (raw : Option Switches) (saw : List Bool) : List Bool :=
  let waits (s : State) : Nat := s.stack.countP Frame.waitsAck
  List.replicate (waits t - waits s) false ++ (saw.map (· || readsOpen raw)).drop (waits s - waits t)

/-- The innermost wait for the acknowledgment goes on, and has seen the lid or the loop open. -/
def Panel.sawOpenWait (x : Panel) : PanelLabel → Bool
  | .laser (.pumped _) => (x.laser.stack.head?.any Frame.waitsAck) && x.sawOpen.head?.getD false
  | _ => false

/-- The step opens the window for an arm that has seen the lid or the loop open. -/
def Panel.opensOverOpenLid (x : Panel) (l : PanelLabel) (t : State) : Bool :=
  x.sawOpenWait l && !x.laser.laserOk && t.laserOk

def panelStep (x : Panel) : PanelLabel → Option Panel
  | .laser l =>
    (step x.laser l).map fun t =>
      { laser := t
        -- `gfsw_button_consumed`
        sw := if pressTaken x.laser l then Switches.gfswButtonConsumed x.sw else x.sw
        sawOpen := carry x.laser t (l.reading x.laser) x.sawOpen
        overOpenLid := x.overOpenLid || x.opensOverOpenLid (.laser l) t }
  | .poll e v =>
    let polled := Switches.gfswPoll
      { v with now := e.now, raw := e.raw, st := x.laser.core, arming := x.laser.arming } x.sw
    let t := polled.2.foldl (State.take e) x.laser
    some
      { laser := t
        sw := polled.1
        sawOpen := carry x.laser t e.raw x.sawOpen
        overOpenLid := x.overOpenLid }

/-! ## The condition

What the wait for the acknowledgment checks, against what it has seen. -/

/-- What `arm_complete` does check behind a pump refuses the arm, or has it wait on. -/
def ackRefuses (deadline : Nat) (e : Env) (s : State) : Bool :=
  s.aborting || decide (e.now > deadline) || !gfcoolRunAck s || !gfcoolFireOk s || (s.hwActive && !e.head)

/-- A wait that has seen the lid or the loop open goes on only where the arm is refused on other
grounds, or waits on, or finds a window open already. -/
def refusesOpen (x : Panel) (l : PanelLabel) : Bool :=
  match l, x.laser.stack with
  | .laser (.pumped e), .ack _ _ deadline :: _ =>
    !x.sawOpenWait l || ackRefuses deadline e x.laser || x.laser.laserOk
  | _, _ => true

/-! ## The step

The only step that opens a window at the end of a wait is the one that takes the acknowledgment. -/

/-- The window behind the acknowledgment. -/
theorem armAcked_laserOk (origin : Origin) (since : UInt32) (e : Env) (s : State) :
    (armAcked origin since e s).laserOk =
      (s.laserOk || (gfcoolFireOk s && !(s.hwActive && !e.head))) := by
  have hreturn : ∀ armed t, (armReturn origin armed e t).laserOk = t.laserOk := fun armed t =>
    congrArg ConsentView.laserOk (armReturn_consent origin armed e t)
  rw [armAcked, hreturn]
  unfold armFinish headPresent
  cases hfire : gfcoolFireOk s with
  | false =>
    simp only [Bool.not_false, if_true, Bool.false_and, Bool.or_false]
    rfl
  | true =>
    cases hhead : !s.hwActive || e.head with
    | false =>
      have hno : (s.hwActive && !e.head) = true := by simpa using hhead
      simp only [hno, Bool.not_true, Bool.and_false, Bool.or_false, Bool.false_eq_true, if_false, Bool.not_false,
        if_true]
      rfl
    | true =>
      have hyes : (s.hwActive && !e.head) = false := by
        cases hhw : s.hwActive with
        | false => rfl
        | true => simpa [hhw] using hhead
      simp only [hyes, Bool.not_false, Bool.not_true, Bool.and_self, Bool.or_true, Bool.false_eq_true, if_false,
        if_true]
      rfl

/-- **A pump of the wait opens the window exactly where nothing that it checks refuses.** -/
theorem ackPumped_opens (origin : Origin) (since : UInt32) (deadline : Nat) (e : Env) {s : State}
    (hclosed : s.laserOk = false) :
    (ackPumped origin since deadline e s).laserOk = !ackRefuses deadline e s := by
  have hreturn : ∀ armed t, (armReturn origin armed e t).laserOk = t.laserOk := fun armed t =>
    congrArg ConsentView.laserOk (armReturn_consent origin armed e t)
  unfold ackPumped ackRefuses
  split
  · next habort =>
    rw [hreturn, habort]
    exact hclosed
  · next habort =>
    split
    · next hlate =>
      rw [hreturn, decide_eq_true hlate, Bool.or_true]
      exact hclosed
    · next hlate =>
      split
      · next hack =>
        rw [armAcked_laserOk, hclosed, hack]
        simp [habort, hlate, Bool.not_or]
      · next hack =>
        simp only [Bool.not_eq_true] at hack
        simp only [hack, Bool.not_false, Bool.or_true, Bool.true_or, Bool.not_true]
        exact hclosed

/-- **A step opens a window over an open lid exactly where it fails the condition.** -/
theorem step_overOpenLid {x y : Panel} {l : PanelLabel} (hstep : panelStep x l = some y) :
    y.overOpenLid = (x.overOpenLid || !refusesOpen x l) := by
  cases l with
  | poll e v =>
    cases hstep
    rw [refusesOpen, Bool.not_true, Bool.or_false]
    exact fun _ _ _ _ _ heq => by cases heq
  | laser l =>
    obtain ⟨t, ht, rfl⟩ := Option.map_eq_some_iff.mp hstep
    suffices hopens : x.opensOverOpenLid (.laser l) t = !refusesOpen x (.laser l) by
      exact congrArg (x.overOpenLid || ·) hopens
    by_cases hpumped : ∃ e, l = .pumped e
    · obtain ⟨e, rfl⟩ := hpumped
      have ht : pumped e x.laser = some t := (step_eq_some.mp ht).2
      unfold pumped at ht
      split at ht
      · cases ht
      · next hstack =>
        simp [Panel.opensOverOpenLid, Panel.sawOpenWait, refusesOpen, hstack, Frame.waitsAck]
      · next origin since deadline rest hstack =>
        cases ht
        by_cases hopen : x.laser.laserOk = true
        · simp [Panel.opensOverOpenLid, refusesOpen, hstack, hopen]
        · have hclosed : x.laser.laserOk = false := by simpa using hopen
          have hwindow : (ackPumped origin since deadline e { x.laser with stack := rest }).laserOk =
              !ackRefuses deadline e x.laser := ackPumped_opens origin since deadline e hclosed
          rw [Panel.opensOverOpenLid, hwindow]
          simp [refusesOpen, hstack, hclosed, Bool.not_or]
    · have hother : x.sawOpenWait (.laser l) = false ∧ refusesOpen x (.laser l) = true := by
        cases l with
        | pumped e => exact absurd ⟨e, rfl⟩ hpumped
        | _ => exact ⟨rfl, rfl⟩
      rw [Panel.opensOverOpenLid, hother.1, hother.2]
      rfl

/-! ## Runs

The property in every run that meets the condition, and the step that breaks it where the condition
fails. -/

/-- **No window opens over an open lid, where the arm is refused on other grounds.** In every run in
which each wait that has seen the lid or the loop open since its press is ended by a soft reset, its
budget, the verdict or a missing head, no arm has opened the window over such a reading; and the next
step keeps it so exactly where it meets the condition. -/
theorem lid_closed_or_refused {hwActive : Bool} {offValue : Nat} {raw : Switches} {x y : Panel} {l : PanelLabel}
    (hrun : Runs.Reach panelStep (fun x l => refusesOpen x l = true) (Panel.start hwActive offValue raw) x)
    (hstep : panelStep x l = some y) :
    x.overOpenLid = false ∧ (y.overOpenLid = false ↔ refusesOpen x l = true) := by
  have hclosed : x.overOpenLid = false :=
    hrun.invariant (P := fun x => x.overOpenLid = false) rfl fun t l u hkept hrefuses hu => by
      rw [step_overOpenLid hu, hkept, hrefuses]
      rfl
  refine ⟨hclosed, ?_⟩
  rw [step_overOpenLid hstep, hclosed, Bool.false_or, Bool.not_eq_false']

/-- The lid is open, the button up. -/
def lidOpenEnv : Env := { raw := some ⟨false, false, false⟩ }

/-- The lid opens while the arm waits, and the budget is over before the engine answers. -/
theorem lid_closed_or_refused_late :
    ∃ x y, Runs.Reach panelStep (fun x l => refusesOpen x l = true)
        (Panel.start true 0 ⟨true, false, false⟩) x ∧
      panelStep x (.laser (.pumped { now := 30000 })) = some y ∧ x.sawOpen = [true] ∧
      (x.overOpenLid = false ∧ (y.overOpenLid = false ↔
        refusesOpen x (.laser (.pumped { now := 30000 })) = true)) := by
  have hex : ∃ x, Runs.Reach panelStep (fun x l => refusesOpen x l = true)
        (Panel.start true 0 ⟨true, false, false⟩) x ∧
      ((panelStep x (.laser (.pumped { now := 30000 }))).isSome = true ∧ x.sawOpen = [true]) :=
    Runs.exists_reach_of_exec (armPressed.map PanelLabel.laser ++ [PanelLabel.poll lidOpenEnv {}])
      (by decide +kernel)
  obtain ⟨x, hrun, hsome, hsaw⟩ := hex
  obtain ⟨y, hstep⟩ := Option.isSome_iff_exists.mp hsome
  exact ⟨x, y, hrun, hstep, hsaw, lid_closed_or_refused hrun hstep⟩

/-- **The window opens over an open lid.** The operator presses the button and opens the lid while the
arm waits for the engine; the poll hides the door from a core at Idle, and the engine's answer opens
the window. -/
theorem window_over_open_lid :
    ¬∀ x, Runs.Reach panelStep (fun _ _ => True) (Panel.start true 0 ⟨true, false, false⟩) x →
      x.overOpenLid = false := by
  intro hall
  have hex : ∃ x, Runs.Reach panelStep (fun _ _ => True) (Panel.start true 0 ⟨true, false, false⟩) x ∧
      (x.laser.laserOk = true ∧ x.overOpenLid = true) :=
    Runs.exists_reach_of_exec
      (armPressed.map PanelLabel.laser ++ [PanelLabel.poll lidOpenEnv {}] ++
        armAcknowledged.map PanelLabel.laser) (by decide +kernel)
  obtain ⟨x, hrun, -, hover⟩ := hex
  rw [hall x hrun] at hover
  cases hover

end Glowforge.Laser
