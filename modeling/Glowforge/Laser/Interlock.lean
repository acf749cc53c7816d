import Glowforge.Laser.Press
import Glowforge.Stream.Gate

/-!
# Glowforge — no light without a press

The laser module takes the operator's press and opens the window, the stream engine's shipper lights the
ticks, and between the two there are two flags, `laser_armed` and the fire gate, which the module writes and
the shipper reads. Here both modules run side by side, on their own threads:

* **`Spends`** — what a step with `n` presses can open: a press makes one window, or one arm that waits.
* **`Shuts`** — the gate is open inside the window only.
* **`Plant`**, **`plantStep`** — the two modules. What one entry into the laser module has written reaches
  the shipper later, in any order, and no further entry comes before it has.
* **`Ledger`** — the presses taken, the windows opened, and what the shipper's last sample met.
* **`light_has_press`** — a tick is lit only by a pass that sampled the gate within a window, and there are
  no more windows than presses.
-/

namespace Glowforge.Laser

open Runs

/-! ## What a press opens

A press makes one arm that waits, and an arm that waits makes one window at most. -/

/-- The arms that wait for the acknowledgment, each with its press. -/
def ConsentView.owing (v : ConsentView) : Nat := v.stack.countP Frame.waitsAck

def ConsentView.opens (v w : ConsentView) : Bool := !v.laserOk && w.laserOk

/-- A step that has `n` presses opens a window with one, or begins a wait with one. -/
def Spends (n : Nat) (v w : ConsentView) : Prop := (v.opens w).toNat + w.owing ≤ v.owing + n

namespace Spends

variable {n : Nat} {v w : ConsentView}

theorem of_same (hstack : w.stack = v.stack) (hopen : w.laserOk = true → v.laserOk = true) : Spends n v w := by
  have hnone : v.opens w = false := by
    cases hv : v.laserOk with
    | true => rw [ConsentView.opens, hv]; rfl
    | false =>
      rw [ConsentView.opens, hv, Bool.not_false, Bool.true_and, ← Bool.not_eq_true]
      exact fun hw => absurd (hv.symm.trans (hopen hw)) Bool.false_ne_true
  rw [Spends, hnone, ConsentView.owing, hstack]
  exact (Nat.zero_add _).trans_le (Nat.le_add_right _ _)

theorem refl (n : Nat) (v : ConsentView) : Spends n v v := of_same rfl id

/-- The step goes nowhere, or into a wait for the button. -/
theorem waits {f : Frame} (hf : f.waitsAck = false) (hstack : w.stack = f :: v.stack)
    (hopen : w.laserOk = v.laserOk) : Spends n v w := by
  have howing : w.owing = v.owing := by
    rw [ConsentView.owing, hstack, List.countP_cons_of_neg (by rw [hf]; exact Bool.false_ne_true)]
    rfl
  have hnone : v.opens w = false := by
    rw [ConsentView.opens, hopen]
    exact Bool.not_and_self _
  rw [Spends, hnone, howing]
  exact (Nat.zero_add _).trans_le (Nat.le_add_right _ _)

/-- A press opens the window. -/
theorem one (hstack : w.stack = v.stack) : Spends 1 v w := by
  rw [Spends, ConsentView.owing, hstack, Nat.add_comm]
  exact Nat.add_le_add_left (Bool.toNat_le _) _

/-- A press begins a wait for the acknowledgment. -/
theorem push {f : Frame} (hstack : w.stack = f :: v.stack) (hopen : w.laserOk = v.laserOk) : Spends 1 v w := by
  have hnone : v.opens w = false := by
    rw [ConsentView.opens, hopen]
    exact Bool.not_and_self _
  rw [Spends, hnone, ConsentView.owing, hstack, List.countP_cons]
  simp only [ConsentView.owing, Bool.toNat_false, Nat.zero_add]
  split <;> omega

/-- A wait for the acknowledgment that goes on has its press with it. -/
theorem popped {f : Frame} {rest : List Frame} (hstack : v.stack = f :: rest) (hf : f.waitsAck = true)
    (h : Spends 1 { v with stack := rest } w) : Spends 0 v w := by
  have howing : v.owing = ConsentView.owing { v with stack := rest } + 1 := by
    rw [ConsentView.owing, hstack, List.countP_cons_of_pos hf]
    rfl
  rw [Spends, howing]
  exact h

/-- A button wait that goes on has no press. -/
theorem dropped {f : Frame} {rest : List Frame} (hstack : v.stack = f :: rest) (hf : f.waitsAck = false)
    (h : Spends n { v with stack := rest } w) : Spends n v w := by
  have howing : v.owing = ConsentView.owing { v with stack := rest } := by
    rw [ConsentView.owing, hstack, List.countP_cons_of_neg (by rw [hf]; exact Bool.false_ne_true)]
    rfl
  rw [Spends, howing]
  exact h

theorem mono {m : Nat} (h : Spends n v w) (hle : n ≤ m) : Spends m v w :=
  h.trans (Nat.add_le_add_left hle _)

end Spends

theorem armAcked_spends (origin : Origin) (since : UInt32) (e : Env) (s : State) :
    Spends 1 s.consent (armAcked origin since e s).consent :=
  .one (congrArg Waits.stack (armAcked_waits origin since e s))

theorem armComplete_spends (origin : Origin) (since : UInt32) (e : Env) (s : State) :
    Spends 1 s.consent (armComplete origin since e s).consent := by
  unfold armComplete
  split
  · exact armAcked_spends origin since e s
  · exact .push rfl rfl

theorem ackPumped_spends (origin : Origin) (since : UInt32) (deadline : Nat) (e : Env) (s : State) :
    Spends 1 s.consent (ackPumped origin since deadline e s).consent := by
  unfold ackPumped
  split
  · rw [armReturn_consent]
    exact .refl 1 _
  · split
    · rw [armReturn_consent]
      exact .refl 1 _
    · split
      · exact armAcked_spends origin since e s
      · exact .push rfl rfl

/-- A turn of the button wait spends its press, if it has one. -/
theorem buttonTurn_spends {n : Nat} {senderGen : UInt32} {released : Bool} {unreadable deadline : Nat} {e : Env}
    {s : State} (hpress : s.clientGeneration = senderGen → s.core.alarmed = false →
      countsAs released (armSwitches e.raw) = .pressed → n = 1) :
    Spends n s.consent (buttonTurn senderGen released unreadable deadline e s).consent := by
  obtain ⟨t, ht, hturn⟩ | ⟨t, m, lid, ht, -, -, hturn⟩ | ⟨hgen, halarmed, hsw, hturn⟩ :=
    buttonTurn_cases senderGen released unreadable deadline e s
  · rw [hturn]
    rcases ht with rfl | rfl <;> exact .refl n _
  · rw [hturn]
    rcases ht with rfl | rfl <;> exact .waits (f := .button _ _ _ _ _) rfl rfl rfl
  · rw [hturn, hpress hgen halarmed hsw]
    exact armComplete_spends .spindle senderGen e { s with arming := false }

theorem pumped_spends {e : Env} {s t : State} (hpump : pumped e s = some t) :
    Spends (buttonPressed e s).toNat s.consent t.consent := by
  simp only [pumped] at hpump
  split at hpump
  · cases hpump
  · next senderGen released unreadable deadline lid rest hstack =>
    cases hpump
    refine .dropped hstack rfl ?_
    simp only [buttonPumped]
    split
    · exact .refl _ _
    · next haborting =>
      split
      · exact .refl _ _
      · next hlate =>
        refine buttonTurn_spends (s := { s with stack := rest }) fun hgen halarmed hpress => ?_
        rw [buttonPressed_of_turn hstack (by simpa using haborting) hlate hgen halarmed hpress]
        rfl
  · next origin since deadline rest hstack =>
    cases hpump
    have hspends := ackPumped_spends origin since deadline e { s with stack := rest }
    exact (Spends.popped hstack rfl hspends).mono (Nat.zero_le _)

/-- A laser-on of a machine with switches has no press yet. -/
theorem gflaserArm_spends {e : Env} {s : State} (havail : s.available = true) :
    Spends 0 s.consent (gflaserArm e s).consent := by
  have hunlock : (armUnlock e (gfcoolLaserArmed true s)).2.consent = s.consent := armUnlock_consent e _
  simp only [gflaserArm]
  split
  · change Spends 0 _ (armGates e s).2.consent
    rw [armGates_consent]
    exact .refl 0 _
  · split
    · change Spends 0 _ (armUnlock e (gfcoolLaserArmed true s)).2.consent
      rw [hunlock]
      exact .refl 0 _
    · have hturn := @buttonTurn_spends 0 s.clientGeneration false 0 (e.now + e.buttonBudget) e
        { (armUnlock e (gfcoolLaserArmed true s)).2 with arming := true }
        fun _ _ hpress => absurd hpress (countsAs_unreleased _)
      change Spends 0 (armUnlock e (gfcoolLaserArmed true s)).2.consent _ at hturn
      rw [hunlock] at hturn
      exact hturn

theorem resumeGate_spends {e : Env} {s : State} (havail : s.available = true) :
    Spends 0 s.consent (gflaserResumeGate e s).consent := by
  have hunlock : (armUnlock e (gfcoolLaserArmed true s)).2.consent = s.consent := armUnlock_consent e _
  simp only [gflaserResumeGate]
  split
  · split
    · rw [armGates_consent]
      exact .refl 0 _
    · split
      · rw [hunlock]
        exact .refl 0 _
      · change Spends 0 _ (armUnlock e (gfcoolLaserArmed true s)).2.consent
        rw [hunlock]
        exact .refl 0 _
  · split <;> exact .refl 0 _

theorem rearmPoll_spends (e : Env) (s : State) :
    Spends (takesPress e s).toNat s.consent (rearmPoll e s).consent := by
  obtain ⟨-, hpoll⟩ | ⟨-, -, -, -, n, hpoll⟩ | ⟨htaken, n, hpoll⟩ | ⟨-, n, r, hpoll | hpoll⟩ :=
    rearmPoll_cases e s
  · rw [hpoll]
    exact .refl _ _
  · rw [hpoll]
    exact .refl _ _
  · rw [hpoll, htaken]
    exact armComplete_spends .rearm s.rearmClientGen e { s with hooked := true, rearmUnreadable := n }
  · rw [hpoll, rearmEnd_consent]
    exact .refl _ _
  · rw [hpoll]
    change Spends _ _ (rearmEnd false e _).consent
    rw [rearmEnd_consent]
    exact .refl _ _

/-- **A press makes one window**, or one arm that waits, on a machine with switches. -/
theorem step_spends {s t : State} {l : Label} (hstep : step s l = some t) (havail : s.available = true) :
    Spends (pressTaken s l).toNat s.consent t.consent := by
  obtain ⟨-, hturn⟩ := step_eq_some.mp hstep
  cases hother : l.reachesArm with
  | false =>
    have hstack : t.stack = s.stack := congrArg Waits.stack (turn_waits hother hturn)
    exact .of_same hstack (turn_laserOk hother hturn)
  | true =>
    cases l with
    | pumped e => exact pumped_spends hturn
    | spindle on e =>
      cases hturn
      simp only [spindleSetState]
      split_ifs
      · exact .refl _ _
      · exact .refl _ _
      · exact (gflaserArm_spends havail).mono (Nat.zero_le _)
      · exact .refl _ _
    | resumeGate e =>
      cases hturn
      exact (resumeGate_spends havail).mono (Nat.zero_le _)
    | rearmPoll e =>
      cases hturn
      exact rearmPoll_spends e s
    | _ => cases hother

/-! ## The gate is the window's

Whatever closes the window closes the gate, and what opens the gate finds the window open. -/

/-- The gate is open inside the window only. -/
def Shuts (s : State) : Prop := s.fireGate = true → s.laserOk = true

namespace Shuts

theorem of_same {s t : State} (h : Shuts s) (hgate : t.fireGate = s.fireGate) (hopen : t.laserOk = s.laserOk) :
    Shuts t := fun hg => hopen.trans (h (hgate.symm.trans hg))

theorem publish (s : State) : Shuts (fireGatePublish s) := fun hgate => (Bool.and_eq_true_iff.mp hgate).1

theorem disarm (e : Env) (s : State) : Shuts (gflaserDisarm e s) := by
  have hgate : (gflaserDisarm e s).fireGate = false := by
    simp only [gflaserDisarm]
    split_ifs <;> rfl
  intro hopen
  exact absurd (hgate.symm.trans hopen) Bool.false_ne_true

section

variable {e : Env} {s : State}

theorem alarm (h : Shuts s) : Shuts (systemRaiseAlarm s) := h

theorem head (h : Shuts s) : Shuts (headPresent e s).2 := by
  simp only [headPresent]
  split <;> exact h

theorem gates (h : Shuts s) : Shuts (armGates e s).2 := by
  simp only [armGates]
  split
  · exact h
  · split
    · exact h.head
    · split <;> exact h

theorem unlock (h : Shuts s) : Shuts (armUnlock e s).2 := by
  simp only [armUnlock]
  split <;> exact h

theorem rearmEnds {armed : Bool} (h : Shuts s) : Shuts (rearmEnd armed e s) := by
  cases armed <;> exact h

theorem returns {origin : Origin} {armed : Bool} (h : Shuts s) : Shuts (armReturn origin armed e s) := by
  cases origin with
  | spindle => exact h
  | rearm =>
    simp only [armReturn]
    split <;> exact h.rearmEnds
  | gate =>
    simp only [armReturn]
    split <;> exact h

theorem acked {origin : Origin} {since : UInt32} (h : Shuts s) : Shuts (armAcked origin since e s) := by
  refine returns ?_
  simp only [armFinish]
  split
  · exact h
  · split
    · exact h.head
    · exact publish _

theorem completes {origin : Origin} {since : UInt32} (h : Shuts s) : Shuts (armComplete origin since e s) := by
  unfold armComplete
  split
  · exact h.acked
  · exact h

theorem ackPumped {origin : Origin} {since : UInt32} {deadline : Nat} (h : Shuts s) :
    Shuts (ackPumped origin since deadline e s) := by
  unfold Laser.ackPumped
  split
  · exact returns (s := armRefuse e s) h
  · split
    · exact returns (s := systemRaiseAlarm (armRefuse e s)) h
    · split
      · exact h.acked
      · exact h

theorem buttonTurn {senderGen : UInt32} {released : Bool} {unreadable deadline : Nat} (h : Shuts s) :
    Shuts (buttonTurn senderGen released unreadable deadline e s) := by
  obtain ⟨t, ht, hturn⟩ | ⟨t, m, lid, ht, -, -, hturn⟩ | ⟨-, -, -, hturn⟩ :=
    buttonTurn_cases senderGen released unreadable deadline e s
  · rw [hturn]
    rcases ht with rfl | rfl <;> exact h
  · rw [hturn]
    rcases ht with rfl | rfl <;> exact h
  · rw [hturn]
    exact completes (s := { s with arming := false }) h

theorem spindle {on : Bool} (h : Shuts s) : Shuts (spindleSetState on e s) := by
  have harm : Shuts (gflaserArm e s) := by
    have hunlock : Shuts (armUnlock e (gfcoolLaserArmed true s)).2 := unlock (s := gfcoolLaserArmed true s) h
    simp only [gflaserArm]
    split
    · exact h.gates
    · split
      · exact hunlock
      · split
        · exact buttonTurn (s := { (armUnlock e (gfcoolLaserArmed true s)).2 with arming := true }) hunlock
        · exact hunlock.completes
  simp only [spindleSetState]
  split_ifs
  · exact h
  · exact h
  · exact harm
  · exact h

theorem resumeGate (h : Shuts s) : Shuts (gflaserResumeGate e s) := by
  have hunlock : Shuts (armUnlock e (gfcoolLaserArmed true s)).2 := unlock (s := gfcoolLaserArmed true s) h
  simp only [gflaserResumeGate]
  split
  · split
    · exact h.gates
    · split
      · exact hunlock
      · split
        · exact hunlock
        · exact hunlock.completes
  · split <;> exact h

theorem rearmPoll (h : Shuts s) : Shuts (rearmPoll e s) := by
  obtain ⟨-, hpoll⟩ | ⟨-, -, -, -, n, hpoll⟩ | ⟨-, n, hpoll⟩ | ⟨-, n, r, hpoll | hpoll⟩ :=
    rearmPoll_cases e s
  · rw [hpoll]
    exact h
  · rw [hpoll]
    exact h
  · rw [hpoll]
    exact completes (s := { s with hooked := true, rearmUnreadable := n }) h
  · rw [hpoll]
    exact h
  · rw [hpoll]
    exact h

theorem ready (h : Shuts s) : Shuts (relockReady e s).2 := by
  obtain ⟨since, hready⟩ := relockReady_frame e s
  rw [hready]
  exact h

theorem grace (h : Shuts s) : Shuts (pollGrace e s) := by
  simp only [pollGrace]
  split_ifs
  · exact h
  · exact h
  · exact disarm e _
  · exact h.ready
  · exact h

theorem close (h : Shuts s) : Shuts (pollClose e s) := by
  simp only [pollClose]
  split_ifs
  · exact h
  · exact disarm e _
  · exact disarm e _
  · exact disarm e _
  · exact disarm e _
  · exact h.ready.grace
  · exact h.grace

end

end Shuts

/-- **Every step keeps the gate the window's.** An entry that closes the window writes both flags,
and the one that publishes the gate has looked at the window first. -/
theorem step_shuts {s t : State} {l : Label} (h : Shuts s) (hstep : step s l = some t) : Shuts t := by
  obtain ⟨-, hturn⟩ := step_eq_some.mp hstep
  cases l with
  | spindle on e =>
    cases hturn
    exact h.spindle
  | pumped e =>
    simp only [turn, pumped] at hturn
    split at hturn
    · cases hturn
    · cases hturn
      simp only [buttonPumped]
      split_ifs
      · exact h
      · exact h
      · exact .buttonTurn (s := { s with stack := _ }) h
    · cases hturn
      exact .ackPumped (s := { s with stack := _ }) h
  | resumeGate e =>
    cases hturn
    exact h.resumeGate
  | rearmPoll e =>
    cases hturn
    exact h.rearmPoll
  | close e =>
    cases hturn
    exact h.close
  | publish =>
    cases hturn
    exact .publish s
  | fault e =>
    cases hturn
    exact .disarm e { s with faultFlag := false }
  | cancel e =>
    cases hturn
    exact .disarm e s
  | reset next e =>
    cases hturn
    exact .disarm e s
  | verdictFail e =>
    cases hturn
    simp only [gflaserVerdictFail]
    split
    · exact .disarm e s
    · exact h
  | programCompleted checkMode =>
    cases hturn
    simp only [onProgramCompleted]
    split <;> exact h
  | emission e =>
    cases hturn
    simp only [emissionCheck]
    split_ifs <;> exact h
  | failAlarm e =>
    cases hturn
    simp only [failAlarm]
    split_ifs <;> exact h
  | relight e =>
    cases hturn
    simp only [relight]
    split <;> exact h
  | _ =>
    cases hturn
    exact h

/-! ## The two modules

The laser module's writes of `laser_armed` and of the fire gate reach the shipper as labels of their
own, so that the shipper can read the one and not yet the other. -/

structure Plant where
  laser : State
  stream : Stream.State

/-- What the last entry into the laser module has written has reached the stream engine. -/
def Plant.told (x : Plant) : Bool :=
  x.stream.laserArmed == x.laser.laserArmed && x.stream.fireGate == x.laser.fireGate

inductive PlantLabel where
  -- an entry into the laser module
  | laser (l : Label)
  -- its `gf_stream_laser_arm` and `gf_stream_fire_gate`
  | arms
  | gates
  -- a turn of the stream's, but for those two
  | stream (l : Stream.Label)

/-- A segment's update is the producer's, and writes neither flag. -/
def Label.ofProducer : Label → Bool
  | .segment _ => true
  | _ => false

/-- The turns that write the two flags. -/
def ofFlags : Stream.Label → Bool
  | .laserArm _ | .fireGate _ => true
  | _ => false

def plantStep (x : Plant) : PlantLabel → Option Plant
  | .laser l =>
    if x.told || l.ofProducer then (step x.laser l).map fun laser => { x with laser := laser } else none
  | .arms => (Stream.step x.stream (.laserArm x.laser.laserArmed)).map fun stream => { x with stream := stream }
  | .gates => (Stream.step x.stream (.fireGate x.laser.fireGate)).map fun stream => { x with stream := stream }
  | .stream l =>
    if ofFlags l then none else (Stream.step x.stream l).map fun stream => { x with stream := stream }

/-- The controller starts: the window closed, the two flags down. -/
def Plant.start (hwActive available : Bool) (offValue : Nat) (c : Stream.Config) (k : Stream.Kernel)
    (emptied counted : Bool) : Plant where
  laser := State.init hwActive available offValue
  stream := Stream.State.init c k emptied counted

/-! ## The ledger

Presses and windows are counted where the module takes and opens them. Of the shipper the ledger
keeps the sample that its pass goes by. -/

/-- What a sample of the gate met. -/
structure Sample where
  -- the windows opened so far
  window : Nat
  -- the window is open, or the disarm that closes it has its next write on the gate
  live : Bool
deriving DecidableEq

structure Ledger where
  presses : Nat
  windows : Nat
  -- the sample that the pass under way goes by
  sample : Option Sample
deriving DecidableEq

def Ledger.none : Ledger := ⟨0, 0, .none⟩

/-- The shipper's step begins a pass, with its sample of the gate. -/
def takesSample (e : Stream.Env) (s : Stream.State) : Bool := !s.pc.inPass && (Stream.shipStep e s).pc.inPass

def Plant.live (x : Plant) : Bool := x.laser.laserOk || (x.stream.fireGate && !x.laser.fireGate)

def ledger (x : Plant) (l : PlantLabel) (h : Ledger) : Ledger :=
  match l with
  | .laser l => (step x.laser l).elim h fun t =>
      { h with
        presses := h.presses + (pressTaken x.laser l).toNat
        windows := h.windows + (opensWindow x.laser t).toNat }
  | .stream (.ship e) => if takesSample e x.stream then { h with sample := some ⟨h.windows, x.live⟩ } else h
  | _ => h

/-! ## The invariant

A gate that is open in the shipper's copy has had its window, and a pass that holds an open sample
has it in the ledger. -/

/-- A sample in a window, of those opened so far. -/
def Sample.good (windows : Nat) (m : Sample) : Prop := m.live = true ∧ 1 ≤ m.window ∧ m.window ≤ windows

structure Interlocked (available : Bool) (x : Plant) (h : Ledger) : Prop where
  shuts : Shuts x.laser
  switches : x.laser.available = available
  spent : available = true → h.windows + x.laser.consent.owing ≤ h.presses
  opened : x.laser.laserOk = true → 1 ≤ h.windows
  gated : x.stream.fireGate = true → 1 ≤ h.windows
  held : x.stream.pc.gateHeld = true → ∃ m, h.sample = some m ∧ m.good h.windows

theorem Sample.good.mono {m : Sample} {n k : Nat} (h : m.good n) (hle : n ≤ k) : m.good k :=
  ⟨h.1, h.2.1, h.2.2.trans hle⟩

/-- An entry into the laser module. -/
theorem Interlocked.laser {available : Bool} {x : Plant} {h : Ledger} {l : Label} {t : State}
    (hi : Interlocked available x h) (hstep : step x.laser l = some t) :
    Interlocked available { x with laser := t } (ledger x (.laser l) h) := by
  have hledger : ledger x (.laser l) h =
      { h with
        presses := h.presses + (pressTaken x.laser l).toNat
        windows := h.windows + (opensWindow x.laser t).toNat } := by
    simp only [ledger, hstep]
    rfl
  have havail : t.available = x.laser.available := by
    rcases step_keeps hstep with hkeeps | ⟨-, rfl⟩
    · exact hkeeps.available
    · rfl
  rw [hledger]
  exact
    { shuts := step_shuts hi.shuts hstep
      switches := havail.trans hi.switches
      spent := fun ha => by
        have hspent := hi.spent ha
        have hspends := step_spends hstep (hi.switches.trans ha)
        change (opensWindow x.laser t).toNat + t.consent.owing ≤ _ at hspends
        change h.windows + (opensWindow x.laser t).toNat + t.consent.owing ≤ _
        dsimp only
        omega
      opened := fun hopen => by
        change 1 ≤ h.windows + (opensWindow x.laser t).toNat
        cases hwas : x.laser.laserOk with
        | true => exact (hi.opened hwas).trans (Nat.le_add_right _ _)
        | false =>
          rw [opensWindow, hwas, hopen]
          exact Nat.le_add_left 1 _
      gated := fun hgate => (hi.gated hgate).trans (Nat.le_add_right _ _)
      held := fun hheld => by
        obtain ⟨m, hm, hgood⟩ := hi.held hheld
        exact ⟨m, hm, hgood.mono (Nat.le_add_right _ _)⟩ }

/-- A turn of the stream's that the shipper does not take leaves what its pass goes by. -/
theorem Interlocked.turned {available : Bool} {x : Plant} {h : Ledger} {l : Stream.Label} {t : Stream.State}
    (hi : Interlocked available x h) (hstep : Stream.step x.stream l = some t) (hship : ∀ e, l ≠ .ship e)
    (hgate : t.fireGate = true → 1 ≤ h.windows) : Interlocked available { x with stream := t } h where
  shuts := hi.shuts
  switches := hi.switches
  spent := hi.spent
  opened := hi.opened
  gated := hgate
  held := fun hheld => by
    have hpc : t.pc = x.stream.pc := (Stream.turn_turned (Stream.step_eq_some.mp hstep).2 hship).pc
    exact hi.held (hpc ▸ hheld)

/-- Within a pass the sample stays. -/
theorem pass_keeps {e : Stream.Env} {s : Stream.State} (hpass : s.pc.inPass = true)
    (hheld : (Stream.shipStep e s).pc.gateHeld = true) : s.pc.gateHeld = true := by
  have hmove := Stream.shipStep_pass e s (Stream.ShipPc.inPass_of_gateHeld hheld)
  generalize (Stream.shipStep e s).pc = pc at hheld hmove
  cases hmove with
  | sample hpc hok =>
    rw [hpc] at hpass
    cases hpass
  | round hround =>
    cases hround with
    | first hpc => rwa [hpc]
    | next hpc hok => rwa [hpc]
  | byte hpc => rwa [hpc]
  | wrote hpc => rwa [hpc]

/-- A step of the shipper: its sample of an open gate is in a window. -/
theorem Interlocked.ship {available : Bool} {x : Plant} {h : Ledger} {e : Stream.Env}
    (hi : Interlocked available x h) :
    Interlocked available { x with stream := Stream.shipStep e x.stream } (ledger x (.stream (.ship e)) h) := by
  have hgate : (Stream.shipStep e x.stream).fireGate = x.stream.fireGate :=
    congrArg Stream.Quiet.fireGate (Stream.shipStep_quiet e x.stream)
  have hsame : (ledger x (.stream (.ship e)) h).windows = h.windows ∧
      (ledger x (.stream (.ship e)) h).presses = h.presses := by
    simp only [ledger]
    split <;> exact ⟨rfl, rfl⟩
  refine
    { shuts := hi.shuts
      switches := hi.switches
      spent := fun ha => by
        rw [hsame.1, hsame.2]
        exact hi.spent ha
      opened := fun hopen => (hi.opened hopen).trans_eq hsame.1.symm
      gated := fun hg => (hi.gated (hgate.symm.trans hg)).trans_eq hsame.1.symm
      held := fun hheld => ?_ }
  rw [hsame.1]
  change (Stream.shipStep e x.stream).pc.gateHeld = true at hheld
  cases hpass : x.stream.pc.inPass with
  | false =>
    -- the pass begins: the gate that it samples is open
    have hsample : takesSample e x.stream = true := by
      rw [takesSample, hpass, Stream.ShipPc.inPass_of_gateHeld hheld]
      rfl
    have hopen : x.stream.fireGate = true := by
      refine (Stream.shipStep_gateHeld e x.stream hheld).resolve_left fun hwas => ?_
      exact absurd (hpass.symm.trans (Stream.ShipPc.inPass_of_gateHeld hwas)) Bool.false_ne_true
    have hlive : x.live = true := by
      rw [Plant.live, hopen, Bool.true_and]
      cases hlaser : x.laser.fireGate with
      | true => rw [hi.shuts hlaser]; rfl
      | false => exact Bool.or_true _
    refine ⟨⟨h.windows, x.live⟩, ?_, hlive, hi.gated hopen, le_rfl⟩
    simp only [ledger, hsample, if_true]
  | true =>
    have hkeep : ledger x (.stream (.ship e)) h = h := by
      refine if_neg ?_
      rw [takesSample, hpass]
      exact Bool.false_ne_true
    rw [hkeep]
    exact hi.held (pass_keeps hpass hheld)

/-- **Every step of the two modules keeps the interlock.** An entry into the laser module adds to
the ledger, a flag on its way reaches the shipper, or the shipper takes a step of its pass. -/
theorem plant_interlocked {available : Bool} {x y : Plant} {h : Ledger} {l : PlantLabel}
    (hi : Interlocked available x h) (hstep : plantStep x l = some y) :
    Interlocked available y (ledger x l h) := by
  cases l with
  | laser l =>
    simp only [plantStep] at hstep
    split at hstep
    · obtain ⟨t, ht, rfl⟩ := Option.map_eq_some_iff.mp hstep
      exact hi.laser ht
    · cases hstep
  | arms =>
    simp only [plantStep] at hstep
    obtain ⟨t, ht, rfl⟩ := Option.map_eq_some_iff.mp hstep
    refine hi.turned ht (by rintro _ ⟨⟩) fun hgate => hi.gated ?_
    cases (Stream.step_eq_some.mp ht).2
    exact hgate
  | gates =>
    simp only [plantStep] at hstep
    obtain ⟨t, ht, rfl⟩ := Option.map_eq_some_iff.mp hstep
    refine hi.turned ht (by rintro _ ⟨⟩) fun hgate => hi.opened (hi.shuts ?_)
    cases (Stream.step_eq_some.mp ht).2
    exact hgate
  | stream l =>
    simp only [plantStep] at hstep
    split at hstep
    · cases hstep
    · next hflags =>
      obtain ⟨t, ht, rfl⟩ := Option.map_eq_some_iff.mp hstep
      by_cases hship : ∃ e, l = .ship e
      · obtain ⟨e, rfl⟩ := hship
        cases (Stream.step_eq_some.mp ht).2
        exact hi.ship
      · have hkeep : ledger x (.stream l) h = h := by
          cases l with
          | ship e => exact absurd ⟨e, rfl⟩ hship
          | _ => rfl
        have hother : ∀ e, l ≠ .ship e := fun e he => hship ⟨e, he⟩
        rw [hkeep]
        refine hi.turned ht hother fun hgate => hi.gated ?_
        rw [(Stream.turn_turned (Stream.step_eq_some.mp ht).2 hother).fireGate] at hgate
        cases l with
        | fireGate gate => exact absurd rfl hflags
        | _ => exact hgate

theorem start_interlocked (hwActive available : Bool) (offValue : Nat) (c : Stream.Config) (k : Stream.Kernel)
    (emptied counted : Bool) :
    Interlocked available (Plant.start hwActive available offValue c k emptied counted) .none where
  shuts := by rintro ⟨⟩
  switches := rfl
  spent _ := le_rfl
  opened := by rintro ⟨⟩
  gated := by rintro ⟨⟩
  held := by rintro ⟨⟩

/-! ## The light

A lit tick has the sample of its pass, and the sample its window. The count of presses holds in
every run. -/

/-- A step of the shipper lights a tick under the sample of an open gate only. -/
theorem lit_gateHeld {e : Stream.Env} {s : Stream.State} {b : UInt8}
    (hb : b ∈ Stream.newTicks s (Stream.shipStep e s)) (hlit : Stream.lit b = true) : s.pc.gateHeld = true := by
  rcases Stream.shipStep_round e s with ⟨p, u, hround, heq⟩ | ⟨pad, hpad, hdump⟩
  · have hheld : p.gate = s.pc.gateHeld := by
      cases hround with
      | first hpc => rw [hpc]; rfl
      | next hpc hok => rw [hpc]; rfl
    rw [heq] at hb
    rcases Stream.newTicks_shipLoop hround with hnil | hticks
    · rw [hnil] at hb
      cases hb
    · rw [hticks, hheld] at hb
      cases hgate : s.pc.gateHeld with
      | true => rfl
      | false =>
        rw [hgate] at hb
        rw [Stream.buildTicks_masked _ _ _ _ b hb] at hlit
        cases hlit
  · rw [Stream.newTicks_pad hpad hdump b hb] at hlit
    cases hlit

/-- **No light without a press.** In every run of the laser module beside the stream engine, from any start,
with any calls of the core's, any verdicts, senders, resets and faults: on a machine with switches there have
never been more windows than presses, those of the arms that still wait for the acknowledgment set aside; and
a tick that the next step lights is of a pass that sampled the gate while a window was open, or while the
disarm that closed it was at its write of the gate. -/
theorem light_has_press {hwActive available : Bool} {offValue : Nat} {c : Stream.Config} {k : Stream.Kernel}
    {emptied counted : Bool} {x : Plant} {h : Ledger}
    (hrun : Reach (observe plantStep ledger) (fun _ _ => True)
      (Plant.start hwActive available offValue c k emptied counted, .none) (x, h)) :
    (available = true → h.windows + x.laser.consent.owing ≤ h.presses) ∧
      ∀ (y : Plant) (e : Stream.Env) (b : UInt8), plantStep x (.stream (.ship e)) = some y →
        b ∈ Stream.newTicks x.stream y.stream → Stream.lit b = true →
        ∃ m, h.sample = some m ∧ m.live = true ∧ 1 ≤ m.window ∧ m.window ≤ h.windows := by
  have hi : Interlocked available x h :=
    Reach.invariant_observe (fun _ _ => True) hrun
      (start_interlocked hwActive available offValue c k emptied counted)
      fun _ _ _ _ h _ hstep => plant_interlocked h hstep
  refine ⟨hi.spent, fun y e b hstep hb hlit => ?_⟩
  simp only [plantStep, ofFlags, Bool.false_eq_true, if_false] at hstep
  obtain ⟨t, ht, rfl⟩ := Option.map_eq_some_iff.mp hstep
  cases (Stream.step_eq_some.mp ht).2
  exact hi.held (lit_gateHeld hb hlit)

/-- An arm takes its press, and the job's first stream comes to its first pass. -/
def litJob : List PlantLabel :=
  (armPressed ++ armAcknowledged).map PlantLabel.laser ++ [PlantLabel.arms, .gates] ++
    (Stream.litPass.drop 2 ++ [Stream.Label.ship {}]).map PlantLabel.stream

/-- The theorem at a tick of that pass: one press, one window, and the sample is in it. -/
theorem litJob_has_press : ∃ (x y : Plant) (h : Ledger),
    Reach (observe plantStep ledger) (fun _ _ => True)
      (Plant.start true true 0 (Stream.slowConfig false) Stream.idleKernel true true, Ledger.none) (x, h) ∧
    (∃ b ∈ Stream.newTicks x.stream y.stream, Stream.lit b = true) ∧ h.presses = 1 ∧
    plantStep x (.stream (.ship {})) = some y ∧ h.windows + x.laser.consent.owing ≤ h.presses ∧
    ∃ m, h.sample = some m ∧ m.live = true ∧ 1 ≤ m.window ∧ m.window ≤ h.windows := by
  have hex : ∃ z : Plant × Ledger, Reach (observe plantStep ledger) (fun _ _ => True)
      (Plant.start true true 0 (Stream.slowConfig false) Stream.idleKernel true true, Ledger.none) z ∧
        (z.2.presses = 1 ∧ (plantStep z.1 (.stream (.ship {}))).any
          (fun y : Plant => decide (∃ b ∈ Stream.newTicks z.1.stream y.stream, Stream.lit b = true)) = true) :=
    Runs.exists_reach_of_exec litJob (by decide +kernel)
  obtain ⟨⟨x, h⟩, hrun, hpresses, hnext⟩ := hex
  obtain ⟨y, hstep, hlit⟩ := (Option.any_eq_true _ _).mp hnext
  obtain ⟨b, hb, hlit⟩ := of_decide_eq_true hlit
  obtain ⟨hspent, hlight⟩ := light_has_press hrun
  exact ⟨x, y, h, hrun, ⟨b, hb, hlit⟩, hpresses, hstep, hspent rfl, hlight y {} b hstep hb hlit⟩

end Glowforge.Laser
