import Glowforge.Stream.Faults

/-!
# Glowforge — one alarm per stream failure

A failure of the stream sets `gf.failed` and raises `fault_flag`, which the driver takes once
and turns into a disarm and an alarm; the reset acknowledges the failure. Most sites raise the
flag only for a stream that had not failed. Three store both unconditionally: a latch write
that failed, a chunk write that failed, and a step beyond the ring.

* **`Label.fails`, `Label.raises`** — the steps that fail the stream, and those that raise the
  flag.
* **`AlarmInv`** — a stream that has not failed has no alarm about; one that has failed has
  exactly one, still to be raised, raised, or taken.
* **`one_alarm`** — the invariant holds in every run in which no unconditional site meets a
  failed stream and every acknowledgment comes behind the driver's take.
-/

namespace Glowforge.Stream

/-! ## Raises and takes

Which steps fail the stream and which raise the flag; and, as history, the alarms that are about: to
be raised, raised, or taken. -/

/-- The step raises `fault_flag`: it is up behind the step when it was down before. -/
def Label.raises (s : State) (l : Label) : Bool :=
  (turn { s with faultFlag := false } l).any (·.faultFlag)

def ShipPc.raising : ShipPc → Bool
  | .raise _ => true
  | _ => false

/-- A thread has set `gf.failed` and is about to raise the flag. -/
def State.aboutToRaise (s : State) : Nat :=
  s.pc.raising.toNat + (s.proto.head? == some .raise).toNat

/-- The step acknowledges a failure: the reset, or the end of a takeover. -/
def Label.acknowledges (s : State) : Label → Bool
  | .reset _ => s.gf.failed
  | .proto => s.gf.failed && s.proto.head? == some .resumeSwap
  | _ => false

/-- The step takes `gf.failed` from false to true. -/
def Label.fails (s : State) (l : Label) : Bool :=
  (turn s l).any fun t => !s.gf.failed && t.gf.failed

/-- What has happened since the last acknowledgment: the failures of the stream, the raises of
the flag, and the faults that the driver has taken. -/
structure Alarms where
  failures : Nat
  raised : Nat
  taken : Nat
deriving DecidableEq

def Alarms.record (s : State) (l : Label) (h : Alarms) : Alarms :=
  if l.acknowledges s then ⟨0, 0, 0⟩
  else
    { failures := h.failures + (l.fails s).toNat
      raised := h.raised + (l.raises s).toNat
      taken := h.taken + (if l matches .faultTake then s.faultFlag.toNat else 0) }

/-! ## The unconditional sites

Three stores of the flag do not ask whether the stream had failed. The condition keeps each of them
from meeting a failed stream, and the acknowledgment behind the driver's take. -/

/-- The failure's alarm has been raised and taken. -/
def State.settled (s : State) : Bool := s.aboutToRaise == 0 && !s.faultFlag

/-- No unconditional site meets a failed stream, and an acknowledgment a settled one. -/
def oneAlarm (s : State) : Label → Bool
  | .locked (.pulse _ _) _ => !s.gf.failed || !s.overflows
  | .ship _ =>
    match s.pc with
    | .wrote _ _ false | .latchFail => !s.gf.failed
    | _ => true
  | .proto =>
    (s.proto.head? != some .latchFail || !s.gf.failed) &&
      (s.proto.head? != some .resumeSwap || !s.gf.failed || s.settled)
  | .reset _ => !s.gf.failed || s.settled
  | _ => true

/-! ## What a step does to the alarm

A step leaves the failure and its alarm, fails the stream and owes an alarm, fails it and raises one
at once, or raises the one that is owed. -/

/-- The four ways in which a step can go about the failure and its alarm. -/
inductive Outcome (s : State) (l : Label) (t : State) : Prop where
  -- nothing of it changes
  | same (hfailed : t.gf.failed = s.gf.failed) (hflag : t.faultFlag = s.faultFlag)
      (habout : t.aboutToRaise = s.aboutToRaise) (hraises : l.raises s = false)
  -- the stream fails, and the alarm is still to be raised
  | fails (hfailed : s.gf.failed = false) (hfailed' : t.gf.failed = true)
      (hflag : t.faultFlag = s.faultFlag) (habout : t.aboutToRaise = s.aboutToRaise + 1)
      (hraises : l.raises s = false)
  -- the stream fails with its alarm
  | failsRaised (hfailed : s.gf.failed = false) (hfailed' : t.gf.failed = true)
      (hflag : t.faultFlag = true) (habout : t.aboutToRaise = s.aboutToRaise)
      (hraises : l.raises s = true)
  -- the alarm is raised
  | raised (hfailed : t.gf.failed = s.gf.failed) (hflag : t.faultFlag = true)
      (habout : t.aboutToRaise + 1 = s.aboutToRaise) (hraises : l.raises s = true)

/-! ### The shipper

Each site of the thread with its own idiom, by the outcome that it has. -/

/-- The pieces of the shipper that fault the stream or raise the flag. -/
def ShipPc.alarms : ShipPc → Bool
  | .pendOurs | .gateFault | .runFault _ _ | .latchFail | .runRc _ | .checkFault | .raise _ => true
  | .wrote _ _ ok => !ok
  | _ => false

theorem shipLoop_alarm (p : Pass) (streaming : Bool) (s : State) :
    (shipLoop p streaming s).faultFlag = s.faultFlag ∧
      (shipLoop p streaming s).pc.raising = false := by
  simp only [shipLoop]
  split <;> exact ⟨rfl, rfl⟩

theorem shipBody_alarm (e : Env) (gate : Bool) (s : State) :
    (shipBody e gate s).faultFlag = s.faultFlag ∧ (shipBody e gate s).pc.raising = false := by
  simp only [shipBody, shipGated]
  split
  · refine ⟨?_, rfl⟩
    simp only [pollHold, endStream, endPad]
    split_ifs <;> rfl
  · split
    · exact ⟨rfl, rfl⟩
    · exact shipLoop_alarm _ _ _

/-- Every other piece leaves the failure and the flag alone. -/
theorem shipStep_alarm {e : Env} {s : State} (h : s.pc.alarms = false) :
    (shipStep e s).gf.failed = s.gf.failed ∧ (shipStep e s).faultFlag = s.faultFlag ∧
      (shipStep e s).pc.raising = false := by
  unfold shipStep
  cases hpc : s.pc with (rw [hpc] at h)
  | top =>
    have hnext : (pendingNext (resetPad e.ok
        { s with gf := { s.gf with runPending := keepsRun s.gf } }).gf).raising = false := by
      simp only [pendingNext]
      split_ifs <;> rfl
    refine ⟨?_, ?_, hnext⟩ <;>
    · simp only [pendingSnapshot, resetPad]
      split_ifs <;> rfl
  | pendState clear zeros =>
    refine ⟨rfl, rfl, ?_⟩
    simp only [pendingState]
    split <;> split <;> rfl
  | pendSeek zeros =>
    simp only [pendingSeek]
    split <;> exact ⟨rfl, rfl, rfl⟩
  | pendDone cleared counts zeros =>
    exact ⟨(pendingDone_settled cleared counts zeros s).frame Gf.failed rfl, rfl, rfl⟩
  | lock =>
    simp only [shipLock, faultPad]
    split_ifs <;> exact ⟨rfl, rfl, rfl⟩
  | sampled gate => exact ⟨shipBody_failed e gate s, shipBody_alarm e gate s⟩
  | writing p c rest =>
    simp only [shipWrite]
    split
    · exact ⟨rfl, rfl, rfl⟩
    · split <;> exact ⟨rfl, rfl, rfl⟩
  | wrote p c ok =>
    cases ok with
    | false => cases h
    | true =>
      simp only [shipWrote, shipNext, if_true]
      split
      · exact ⟨rfl, rfl, rfl⟩
      · exact ⟨shipLoop_failed _ _ _, shipLoop_alarm _ _ _⟩
  | runTest startRun base written =>
    refine ⟨rfl, rfl, ?_⟩
    simp only [runTest]
    split <;> rfl
  | gateState base written =>
    refine ⟨rfl, rfl, ?_⟩
    simp only [runGateState]
    split <;> rfl
  | gateCounts base written =>
    refine ⟨rfl, rfl, ?_⟩
    simp only [runGateCounts]
    split <;> rfl
  | runLatch =>
    simp only [issueRelight]
    split
    · refine ⟨rfl, rfl, ?_⟩
      split <;> rfl
    · exact ⟨rfl, rfl, rfl⟩
  | runWrite relight retried =>
    refine ⟨rfl, rfl, ?_⟩
    simp only [issueWrite]
    split <;> rfl
  | runState relight retried noData =>
    refine ⟨rfl, rfl, ?_⟩
    simp only [issueState]
    split
    case h_1 => split <;> rfl
    case h_3 => split <;> rfl
    all_goals rfl
  | runEnd relight rc =>
    simp only [issueEnd]
    split <;> exact ⟨rfl, rfl, rfl⟩
  | latchFault =>
    refine ⟨rfl, rfl, ?_⟩
    simp only [latchFaultRecord]
    split <;> rfl
  | check =>
    refine ⟨rfl, rfl, ?_⟩
    simp only [checkSnapshot]
    split <;> rfl
  | checkState =>
    refine ⟨rfl, rfl, ?_⟩
    simp only [checkState]
    split <;> rfl
  | pendCount zeros => exact ⟨rfl, rfl, rfl⟩
  | runStop relight => exact ⟨rfl, rfl, rfl⟩
  | _ => cases h

theorem raises_ship (e : Env) (s : State) :
    (Label.ship e).raises s = (shipStep e { s with faultFlag := false }).faultFlag := rfl

theorem raising_next (next : Raised) : next.pc.raising = false := by cases next <;> rfl

theorem raising_raise (next : Raised) : (ShipPc.raise next).raising = true := rfl

/-- What an atomic exchange of `gf.failed` leaves, in a state beside `s`. -/
theorem exchange_outcome {s u : State} {l : Label} {next : Raised} (hfailed : u.gf.failed = s.gf.failed)
    (hflag : u.faultFlag = s.faultFlag) (hproto : u.proto = s.proto) (hpc : s.pc.raising = false)
    (hraises : l.raises s = false) : Outcome s l (exchangeFailed next u) := by
  cases hf : s.gf.failed with
  | true =>
    refine .same hf.symm hflag ?_ hraises
    rw [hf] at hfailed
    simp only [State.aboutToRaise, exchangeFailed, hfailed, hproto, hpc, if_true, raising_next]
  | false =>
    refine .fails hf rfl hflag ?_ hraises
    rw [hf] at hfailed
    simp only [State.aboutToRaise, exchangeFailed, hfailed, hproto, hpc, Bool.false_eq_true, if_false,
      raising_raise, Bool.toNat_true, Bool.toNat_false]
    omega

theorem ship_outcome {e : Env} {s : State} (hok : oneAlarm s (.ship e) = true) :
    Outcome s (.ship e) (shipStep e s) := by
  by_cases halarms : s.pc.alarms = false
  · obtain ⟨hfailed, hflag, hpc⟩ := shipStep_alarm (e := e) halarms
    have hdown := (shipStep_alarm (e := e) (s := { s with faultFlag := false }) halarms).2.1
    refine .same hfailed hflag ?_ hdown
    have hraising : s.pc.raising = false := by
      cases hs : s.pc with
      | raise next =>
        rw [hs] at halarms
        cases halarms
      | _ => rfl
    rw [State.aboutToRaise, State.aboutToRaise, hpc, hraising, shipStep_proto]
  · simp only [oneAlarm] at hok
    cases hpc : s.pc with (rw [hpc] at halarms hok)
    | pendOurs =>
      have hraises : (Label.ship e).raises s = false := by
        simp only [raises_ship, shipStep, hpc, pendingOurs]
        split <;> rfl
      simp only [shipStep, hpc, pendingOurs]
      split
      · cases hf : s.gf.failed with
        | true => exact .same hf.symm rfl (by simp [State.aboutToRaise, hpc, ShipPc.raising]) hraises
        | false =>
          refine .fails hf rfl rfl ?_ hraises
          simp [State.aboutToRaise, hpc, ShipPc.raising, Nat.add_comm]
      · exact .same rfl rfl (by simp [State.aboutToRaise, hpc, ShipPc.raising]) hraises
    | gateFault =>
      simp only [shipStep, hpc]
      refine exchange_outcome rfl rfl rfl (by rw [hpc]; rfl) ?_
      simp only [raises_ship, shipStep, hpc]
      rfl
    | runFault relight stop =>
      simp only [shipStep, hpc, issueFault]
      refine exchange_outcome rfl rfl rfl (by rw [hpc]; rfl) ?_
      simp only [raises_ship, shipStep, hpc]
      rfl
    | checkFault =>
      simp only [shipStep, hpc]
      refine exchange_outcome rfl rfl rfl (by rw [hpc]; rfl) ?_
      simp only [raises_ship, shipStep, hpc]
      rfl
    | runRc rc =>
      have hraises : (Label.ship e).raises s = false := by
        simp only [raises_ship, shipStep, hpc, shipRc]
        split_ifs <;> rfl
      simp only [shipStep, hpc, shipRc]
      split_ifs
      · exact .same rfl rfl (by simp [State.aboutToRaise, hpc, ShipPc.raising]) hraises
      · exact exchange_outcome rfl rfl rfl (by rw [hpc]; rfl) hraises
      · exact .same rfl rfl (by simp [State.aboutToRaise, hpc, ShipPc.raising]) hraises
    | latchFail =>
      simp only [shipStep, hpc]
      refine .fails (by simpa using hok) rfl rfl ?_ ?_
      · simp [State.aboutToRaise, hpc, ShipPc.raising, Nat.add_comm]
      · simp only [raises_ship, shipStep, hpc]
    | wrote p c ok =>
      cases ok with
      | true => exact absurd rfl halarms
      | false =>
        refine .failsRaised (by simpa using hok) ?_ ?_ ?_ ?_
        · simp only [shipStep, hpc]
          rfl
        · simp only [shipStep, hpc]
          rfl
        · rw [State.aboutToRaise, State.aboutToRaise, shipStep_proto]
          simp only [shipStep, hpc]
          rfl
        · simp only [raises_ship, shipStep, hpc]
          rfl
    | raise next =>
      refine .raised ?_ ?_ ?_ ?_
      · simp only [shipStep, hpc]
      · simp only [shipStep, hpc]
      · rw [State.aboutToRaise, State.aboutToRaise, shipStep_proto]
        simp only [shipStep, hpc, raising_next, raising_raise, Bool.toNat_true, Bool.toNat_false]
        omega
      · simp only [raises_ship, shipStep, hpc]
    | _ => exact absurd rfl halarms

/-! ### The producer's calls

An event that is late or too far ahead fails the stream, and raises the flag where it does. -/

theorem locked_outcome {c : Call} {now : Nat} {s : State}
    (hok : oneAlarm s (.locked c now) = true) :
    Outcome s (.locked c now) (c.locked now { s with entered := s.entered.erase c }) := by
  have h := locked_faults c now { s with entered := s.entered.erase c }
  have hdown := locked_faults c now { s with entered := s.entered.erase c, faultFlag := false }
  have hraises : (Label.locked c now).raises s = ((c.clamps s && !s.gf.failed) || c.overflows s) := by
    refine hdown.flag.trans ?_
    cases c <;> rfl
  have habout : (c.locked now { s with entered := s.entered.erase c }).aboutToRaise =
      s.aboutToRaise := by
    have houter := c.locked_outer now { s with entered := s.entered.erase c }
    have hpc : (c.locked now { s with entered := s.entered.erase c }).pc = s.pc :=
      congrArg Outer.pc houter
    have hproto : (c.locked now { s with entered := s.entered.erase c }).proto = s.proto :=
      congrArg Outer.proto houter
    rw [State.aboutToRaise, State.aboutToRaise, hpc, hproto]
  have hfailed : (c.locked now { s with entered := s.entered.erase c }).gf.failed =
      (s.gf.failed || c.clamps s || c.overflows s) := by
    refine h.failed.trans ?_
    cases c <;> rfl
  have hflag : (c.locked now { s with entered := s.entered.erase c }).faultFlag =
      (s.faultFlag || (c.clamps s && !s.gf.failed) || c.overflows s) := by
    refine h.flag.trans ?_
    cases c <;> rfl
  cases hf : s.gf.failed with
  | true =>
    have hover : c.overflows s = false := by
      cases c with
      | pulse stepBits dirBits => simpa [oneAlarm, Call.overflows, hf] using hok
      | _ => rfl
    rw [hf, hover] at hraises hfailed hflag
    simp only [Bool.not_true, Bool.and_false, Bool.or_false, Bool.true_or] at hraises hfailed hflag
    exact .same (hfailed.trans hf.symm) hflag habout hraises
  | false =>
    rw [hf] at hraises hfailed hflag
    simp only [Bool.not_false, Bool.and_true, Bool.false_or] at hraises hfailed hflag
    cases hnew : (c.clamps s || c.overflows s) with
    | true =>
      rw [Bool.or_assoc, hnew, Bool.or_true] at hflag
      exact .failsRaised hf (hfailed.trans hnew) hflag habout (hraises.trans hnew)
    | false =>
      rw [Bool.or_assoc, hnew, Bool.or_false] at hflag
      exact .same (hfailed.trans (hnew.trans hf.symm)) hflag habout (hraises.trans hnew)

/-! ### The protocol thread

The take, the disarm and the acknowledgment, and what this thread may still have to raise. -/

/-- What a call owes raises the flag first or right behind its fault. -/
def protoOk : List Owed → Bool
  | [] => true
  | .latchFail :: rest =>
    rest.head? == some .raise && !rest.tail.contains .raise && !rest.tail.contains .latchFail
  | _ :: rest => !rest.contains .raise && !rest.contains .latchFail

theorem resetOwes_ok (g : Gf) : .raise ∉ resetOwes g ∧ protoOk (resetOwes g) = true := by
  simp only [resetOwes]
  split <;> split <;> decide

theorem head_not_raise {rest : List Owed} (h : rest.contains .raise = false) :
    (rest.head? == some .raise) = false := by
  cases rest with
  | nil => rfl
  | cons o rest => cases o <;> first | rfl | cases h

/-- The end of a takeover apart, a later step of a call fails the stream, raises the flag, or
does neither. -/
theorem proto_outcome {s t : State} (hturn : turn s .proto = some t) (hshape : protoOk s.proto = true)
    (hok : oneAlarm s .proto = true) (hack : Label.acknowledges s .proto = false) :
    Outcome s .proto t := by
  have hraises : (protoStep { s with faultFlag := false }).any (·.faultFlag) =
      Label.raises s .proto := rfl
  obtain ⟨o, rest, hp⟩ := proto_owes hturn
  simp only [turn, protoStep] at hturn
  simp only [protoStep] at hraises
  simp only [oneAlarm] at hok
  simp only [Label.acknowledges] at hack
  rw [hp] at hshape hturn hraises hok hack
  cases o with
  | latchFail =>
    cases hturn
    simp only [protoOk, Bool.and_eq_true, beq_iff_eq] at hshape
    have hfailed : s.gf.failed = false := by simpa using hok
    refine .fails hfailed rfl rfl ?_ hraises.symm
    simp [State.aboutToRaise, hp, hshape.1.1]
  | raise =>
    cases hturn
    simp only [protoOk, Bool.and_eq_true, Bool.not_eq_true'] at hshape
    refine .raised rfl rfl ?_ hraises.symm
    simp [State.aboutToRaise, hp, head_not_raise hshape.1]
  | resumeSwap =>
    cases hturn
    simp only [protoOk, Bool.and_eq_true, Bool.not_eq_true'] at hshape
    have hfailed : s.gf.failed = false := by simpa using hack
    refine .same hfailed.symm rfl ?_ hraises.symm
    simp [State.aboutToRaise, hp, head_not_raise hshape.1]
  | latchFault =>
    cases hturn
    simp only [protoOk, Bool.and_eq_true, Bool.not_eq_true'] at hshape
    refine .same rfl rfl ?_ hraises.symm
    cases s.latchFailReported with
    | true => simp [State.aboutToRaise, hp, head_not_raise hshape.1]
    | false => simp [State.aboutToRaise, hp]; rfl
  | _ =>
    cases hturn
    simp only [protoOk, Bool.and_eq_true, Bool.not_eq_true'] at hshape
    refine .same rfl rfl ?_ hraises.symm
    simp [State.aboutToRaise, hp, head_not_raise hshape.1]

/-! ### The other turns -/

/-- The labels that neither fail the stream nor touch the flag. -/
def Label.calm : Label → Bool
  | .locked _ _ | .faultTake | .reset _ | .proto | .ship _ => false
  | _ => true

theorem turn_calm {s t : State} {l : Label} (hturn : turn s l = some t) (hcalm : l.calm = true) :
    t.gf.failed = s.gf.failed ∧ t.faultFlag = s.faultFlag := by
  cases l with
  | locked c now => cases hcalm
  | faultTake => cases hcalm
  | reset now => cases hcalm
  | proto => cases hcalm
  | ship e => cases hcalm
  | kernel a =>
    obtain ⟨k, -, rfl⟩ := Option.map_eq_some_iff.mp hturn
    exact ⟨rfl, rfl⟩
  | goIdle reset stepBits dirBits =>
    cases hturn
    exact ⟨goIdle_failed reset stepBits dirBits s, rfl⟩
  | enter c =>
    cases hturn
    simp only [enter]
    split <;> exact ⟨rfl, rfl⟩
  | laserModel p m =>
    cases hturn
    obtain ⟨power, period, least, hmodel⟩ := laserModel_frame p m s.gf
    rw [hmodel]
    exact ⟨rfl, rfl⟩
  | readback expired =>
    cases hturn
    simp only [gfStreamReadback]
    split <;> exact ⟨rfl, rfl⟩
  | clearPosition ok =>
    cases hturn
    simp only [gfStreamClearPosition]
    split_ifs <;> exact ⟨rfl, rfl⟩
  | suspend readOk =>
    cases hturn
    simp only [gfStreamSuspend]
    split_ifs <;> exact ⟨rfl, rfl⟩
  | resume latchOk emptied counted =>
    cases hturn
    constructor <;>
    · simp only [gfStreamResume, rebaseAtTakeover]
      split_ifs <;> rfl
  | _ =>
    cases hturn
    exact ⟨rfl, rfl⟩

/-- What a call that begins on the protocol thread owes. -/
theorem begins_owes {s t : State} {l : Label} (hturn : turn s l = some t)
    (hbegins : l.beginsCall = true) (hproto : s.proto = []) :
    (t.proto.head? == some .raise) = false ∧ protoOk t.proto = true := by
  cases l with
  | laserLatch lock ok =>
    cases hturn
    simp only [gfStreamLaserLatch]
    split <;> decide
  | reset now =>
    cases hturn
    obtain ⟨hmem, hok⟩ := resetOwes_ok s.gf
    refine ⟨head_not_raise ?_, hok⟩
    simpa [gfStreamReset] using hmem
  | readback expired =>
    cases hturn
    simp only [gfStreamReadback]
    split <;> simp [hproto, protoOk]
  | clearPosition ok =>
    cases hturn
    simp only [gfStreamClearPosition]
    split_ifs <;> simp [hproto, protoOk]
  | suspend readOk =>
    cases hturn
    simp only [gfStreamSuspend]
    split_ifs <;> simp [hproto, protoOk]
  | resume latchOk emptied counted =>
    cases hturn
    simp only [gfStreamResume]
    split_ifs <;> simp [hproto, protoOk]
  | _ => cases hbegins

/-- What is owed to the flag is the same behind a turn that neither is the shipper's nor goes on
with a call. -/
theorem about_same {s t : State} {l : Label} (hen : l.enabled s = true) (hturn : turn s l = some t)
    (hship : ∀ e, l ≠ .ship e) (hproto : l ≠ .proto) : t.aboutToRaise = s.aboutToRaise := by
  have hhead : (t.proto.head? == some .raise) = (s.proto.head? == some .raise) := by
    cases hbegins : l.beginsCall with
    | true =>
      have hidle := begins_idle hen hbegins
      rw [(begins_owes hturn hbegins hidle).1, hidle]
      rfl
    | false => rw [turn_proto hturn hbegins hproto]
  rw [State.aboutToRaise, State.aboutToRaise, (turn_turned hturn hship).pc, hhead]

theorem calm_outcome {s t : State} {l : Label} (hen : l.enabled s = true) (hturn : turn s l = some t)
    (hcalm : l.calm = true) : Outcome s l t := by
  have habout : t.aboutToRaise = s.aboutToRaise := by
    refine about_same hen hturn ?_ ?_
    · rintro e rfl
      cases hcalm
    · rintro rfl
      cases hcalm
  have hraises : l.raises s = false := by
    cases hdown : turn { s with faultFlag := false } l with
    | none => simp [Label.raises, hdown]
    | some u => simp [Label.raises, hdown, (turn_calm hdown hcalm).2]
  exact .same (turn_calm hturn hcalm).1 (turn_calm hturn hcalm).2 habout hraises

/-! ## The invariant

One alarm is about while the stream has failed, and none before. Each outcome keeps that. -/

/-- Since the last acknowledgment the stream has failed as often as `gf.failed` says, each
failure has had its one raise or has it ahead, and each raise has been taken or stands. -/
structure AlarmInv (s : State) (h : Alarms) : Prop where
  shape : protoOk s.proto = true
  failures : h.failures = s.gf.failed.toNat
  raised : h.raised + s.aboutToRaise = h.failures
  taken : h.taken + s.faultFlag.toNat = h.raised

theorem protoOk_of_clear {rest : List Owed} (hraise : rest.contains .raise = false)
    (hfail : rest.contains .latchFail = false) : protoOk rest = true := by
  cases rest with
  | nil => rfl
  | cons o rest =>
    simp only [List.contains_cons, Bool.or_eq_false_iff] at hraise hfail
    cases o with
    | latchFail => cases hfail.1
    | raise => cases hraise.1
    | _ =>
      simp only [protoOk, hraise.2, hfail.2]
      rfl

theorem protoStep_shape {s t : State} (hturn : protoStep s = some t) (h : protoOk s.proto = true) :
    protoOk t.proto = true := by
  obtain ⟨o, rest, hp⟩ := proto_owes hturn
  simp only [protoStep] at hturn
  rw [hp] at h hturn
  cases o with
  | latchFail =>
    cases hturn
    simp only [protoOk, Bool.and_eq_true, Bool.not_eq_true', beq_iff_eq] at h
    cases rest with
    | nil => rfl
    | cons o rest =>
      obtain rfl : o = .raise := by simpa using h.1.1
      simp only [protoOk, Bool.and_eq_true, Bool.not_eq_true']
      exact ⟨h.1.2, h.2⟩
  | latchFault =>
    cases hturn
    simp only [protoOk, Bool.and_eq_true, Bool.not_eq_true'] at h
    cases s.latchFailReported with
    | true => exact protoOk_of_clear h.1 h.2
    | false =>
      simp only [Bool.false_eq_true, if_false, List.cons_append, List.nil_append, protoOk,
        List.head?_cons, List.tail_cons, h.1, h.2]
      rfl
  | _ =>
    cases hturn
    simp only [protoOk, Bool.and_eq_true, Bool.not_eq_true'] at h
    exact protoOk_of_clear h.1 h.2

theorem step_shape {s t : State} {l : Label} (hen : l.enabled s = true) (hturn : turn s l = some t)
    (h : protoOk s.proto = true) : protoOk t.proto = true := by
  cases hbegins : l.beginsCall with
  | true => exact (begins_owes hturn hbegins (begins_idle hen hbegins)).2
  | false =>
    by_cases hl : l = .proto
    · subst hl
      exact protoStep_shape hturn h
    · rw [turn_proto hturn hbegins hl]
      exact h

/-- An outcome keeps the invariant's counts, where the step neither acknowledges nor takes. -/
theorem Outcome.keeps {s t : State} {l : Label} {h : Alarms} (hout : Outcome s l t)
    (hturn : turn s l = some t) (hack : l.acknowledges s = false) (htake : l ≠ .faultTake)
    (hinv : AlarmInv s h) (hshape : protoOk t.proto = true) : AlarmInv t (h.record s l) := by
  have hrecord : h.record s l =
      ⟨h.failures + (!s.gf.failed && t.gf.failed).toNat, h.raised + (l.raises s).toNat, h.taken⟩ := by
    simp only [Alarms.record, hack, Label.fails, hturn, Option.any_some]
    cases l with
    | faultTake => exact absurd rfl htake
    | _ => rfl
  obtain ⟨-, hfailures, hraised, hflags⟩ := hinv
  rw [hrecord]
  cases hout with
  | same hfailed hflag habout hraises =>
    rw [hfailed, hraises]
    refine ⟨hshape, ?_, ?_, ?_⟩
    · simpa [hfailed] using hfailures
    · simpa [habout] using hraised
    · simpa [hflag] using hflags
  | fails hfailed hfailed' hflag habout hraises =>
    rw [hfailed] at hfailures
    rw [hfailed, hfailed', hraises]
    refine ⟨hshape, ?_, ?_, ?_⟩
    · simpa [hfailed'] using hfailures
    · simp only [habout, Bool.not_false, Bool.and_self, Bool.toNat_true, Bool.toNat_false]
      omega
    · simpa [hflag] using hflags
  | failsRaised hfailed hfailed' hflag habout hraises =>
    rw [hfailed] at hfailures
    rw [hfailed, hfailed', hraises]
    have hclear : s.faultFlag.toNat = 0 ∧ h.taken = h.raised := by
      simp only [Bool.toNat_false] at hfailures
      omega
    refine ⟨hshape, ?_, ?_, ?_⟩
    · simpa [hfailed'] using hfailures
    · simp only [habout, Bool.not_false, Bool.and_self, Bool.toNat_true]
      omega
    · simp only [hflag, Bool.toNat_true]
      omega
  | raised hfailed hflag habout hraises =>
    -- the failure this raise belongs to has had none before
    have hone : s.gf.failed.toNat ≤ 1 := Bool.toNat_le _
    rw [hfailed, hraises]
    refine ⟨hshape, ?_, ?_, ?_⟩
    · simpa [hfailed] using hfailures
    · simp only [Bool.not_and_self, Bool.toNat_false, Bool.toNat_true]
      omega
    · simp only [hflag, Bool.toNat_true]
      omega

/-- **The acknowledgment of a settled failure** starts the count over. -/
theorem acknowledged_inv {s t : State} {l : Label} {h : Alarms} (hen : l.enabled s = true)
    (hturn : turn s l = some t) (hack : l.acknowledges s = true) (hok : oneAlarm s l = true)
    (hinv : AlarmInv s h) : AlarmInv t (h.record s l) := by
  have hshape := step_shape hen hturn hinv.shape
  have hrecord : h.record s l = ⟨0, 0, 0⟩ := by simp [Alarms.record, hack]
  rw [hrecord]
  cases l with
  | reset now =>
    have hfailed : s.gf.failed = true := hack
    have hsettled : s.settled = true := by simpa [oneAlarm, hfailed] using hok
    simp only [State.settled, Bool.and_eq_true, beq_iff_eq, Bool.not_eq_true'] at hsettled
    have habout := about_same hen hturn (by rintro _ ⟨⟩) (by rintro ⟨⟩)
    cases hturn
    refine ⟨hshape, ?_, ?_, ?_⟩
    · simp [gfStreamReset, (resetLocked_after now s.gf).failed]
    · rw [habout, hsettled.1]
    · simp [gfStreamReset, hsettled.2]
  | proto =>
    simp only [Label.acknowledges, Bool.and_eq_true, beq_iff_eq] at hack
    have hsettled : s.settled = true := by simpa [oneAlarm, hack.1, hack.2] using hok
    simp only [State.settled, Bool.and_eq_true, beq_iff_eq, Bool.not_eq_true'] at hsettled
    obtain ⟨o, rest, hp⟩ := proto_owes hturn
    simp only [turn, protoStep] at hturn
    have hshape' := hinv.shape
    rw [hp] at hack hturn hshape'
    obtain rfl : o = .resumeSwap := by simpa using hack.2
    cases hturn
    simp only [protoOk, Bool.and_eq_true, Bool.not_eq_true'] at hshape'
    have hpc : s.pc.raising.toNat = 0 := by
      simp only [State.aboutToRaise] at hsettled
      omega
    refine ⟨hshape, rfl, ?_, ?_⟩
    · simp [State.aboutToRaise, hpc, head_not_raise hshape'.1]
    · simp [hsettled.2]
  | _ => cases hack

/-- The driver's take leaves everything but the flag, which it counts. -/
theorem faultTake_inv {s t : State} {h : Alarms} (hturn : turn s .faultTake = some t)
    (hinv : AlarmInv s h) : AlarmInv t (h.record s .faultTake) := by
  cases hturn
  obtain ⟨hshape, hfailures, hraised, hflags⟩ := hinv
  refine ⟨hshape, ?_, ?_, ?_⟩
  · simpa [Alarms.record, Label.acknowledges, Label.fails, turn] using hfailures
  · simpa [Alarms.record, Label.acknowledges, Label.fails, Label.raises, turn, State.aboutToRaise]
      using hraised
  · simpa [Alarms.record, Label.acknowledges, Label.raises, turn] using hflags

theorem step_alarm {s t : State} {l : Label} {h : Alarms} (hstep : step s l = some t)
    (hok : oneAlarm s l = true) (hinv : AlarmInv s h) : AlarmInv t (h.record s l) := by
  obtain ⟨hen, hturn⟩ := step_eq_some.mp hstep
  cases hack : l.acknowledges s with
  | true => exact acknowledged_inv hen hturn hack hok hinv
  | false =>
    by_cases htake : l = .faultTake
    · subst htake
      exact faultTake_inv hturn hinv
    · have hshape := step_shape hen hturn hinv.shape
      refine Outcome.keeps ?_ hturn hack htake hinv hshape
      cases l with
      | faultTake => exact absurd rfl htake
      | ship e =>
        cases hturn
        exact ship_outcome hok
      | locked c now =>
        cases hturn
        exact locked_outcome hok
      | proto => exact proto_outcome hturn hinv.shape hok hack
      | reset now =>
        have hfailed : s.gf.failed = false := hack
        have habout := about_same hen hturn (by rintro _ ⟨⟩) (by rintro ⟨⟩)
        cases hturn
        exact .same ((resetLocked_after now s.gf).failed.trans hfailed.symm) rfl habout rfl
      | _ => exact calm_outcome hen hturn rfl

/-! ## One alarm per failure

The induction over the run, a failed chunk that alarms once, and a second failure that alarms again. -/

/-- **One alarm per stream failure.** Since the last acknowledgment each failure has been raised
exactly once or is about to be, the driver has taken at most one fault, and a stream that has
failed has its alarm: in every run in which a latch write that failed, a chunk write that failed
and a step beyond the ring meet only a stream that has not failed, and in which a failure is
acknowledged only when its alarm has been raised and taken. -/
theorem one_alarm {c : Config} {k : Kernel} {emptied counted : Bool} {s : State} {h : Alarms}
    (hrun : Runs.Reach (Runs.observe step fun s l h => h.record s l) (fun x l => oneAlarm x.1 l = true)
      (State.init c k emptied counted, ⟨0, 0, 0⟩) (s, h)) :
    h.raised + s.aboutToRaise = h.failures ∧ h.taken + s.faultFlag.toNat = h.raised ∧ h.taken ≤ 1 ∧
      h.failures = s.gf.failed.toNat := by
  have h0 : AlarmInv (State.init c k emptied counted) ⟨0, 0, 0⟩ := by
    refine ⟨rfl, ?_, rfl, rfl⟩
    simp only [State.init, rebaseAtTakeover]
    split_ifs <;> rfl
  have hinv : AlarmInv s h :=
    Runs.Reach.invariant_observe (fun s l => oneAlarm s l = true) hrun h0
      fun s h l t hs hok ht => step_alarm ht hok hs
  have hone : s.gf.failed.toNat ≤ 1 := Bool.toNat_le _
  have hfailures := hinv.failures
  have hraised := hinv.raised
  have htaken := hinv.taken
  refine ⟨hraised, htaken, ?_, hfailures⟩
  omega

/-- The first chunk of a stream fails in its write, and the driver takes the fault. -/
def failedChunk : List Label :=
  oneStep ++ List.replicate 3 (Label.ship {}) ++ [Label.ship { ok := false }, .ship {}, .faultTake]

/-- The theorem behind a chunk write that failed: one failure, raised and taken once. -/
theorem one_alarm_chunk :
    ∃ (s : State) (h : Alarms), h.failures = 1 ∧ h.taken = 1 ∧ s.gf.failed = true ∧
      h.raised + s.aboutToRaise = h.failures := by
  have hex : ∃ x, Runs.Reach (Runs.observe step fun s l h => Alarms.record s l h)
        (fun x l => oneAlarm x.1 l = true)
        (State.init (slowConfig true) idleKernel true true, (⟨0, 0, 0⟩ : Alarms)) x ∧
      (x.2.failures = 1 ∧ x.2.taken = 1 ∧ x.1.gf.failed = true) :=
    Runs.exists_reach_of_exec failedChunk (by decide +kernel)
  obtain ⟨⟨s, h⟩, hreach, hfailures, htaken, hfailed⟩ := hex
  exact ⟨s, h, hfailures, htaken, hfailed, (one_alarm hreach).1⟩

/-- **A failed stream can be alarmed twice.** Behind the alarm of a chunk write that failed the
laser latch is locked, the lock does not take, and its fault raises the flag of the stream that
has already failed: the driver takes a second fault with no acknowledgment between. -/
theorem latch_fault_alarms_again :
    ∃ s h, Runs.Reach (Runs.observe step fun s l h => Alarms.record s l h) (fun _ _ => True)
        (State.init (slowConfig true) idleKernel true true, (⟨0, 0, 0⟩ : Alarms)) (s, h) ∧
      h.failures = 1 ∧ h.raised = 2 ∧ h.taken = 2 := by
  have hex : ∃ x, Runs.Reach (Runs.observe step fun s l h => Alarms.record s l h) (fun _ _ => True)
        (State.init (slowConfig true) idleKernel true true, (⟨0, 0, 0⟩ : Alarms)) x ∧
      (x.2.failures = 1 ∧ x.2.raised = 2 ∧ x.2.taken = 2) :=
    Runs.exists_reach_of_exec
      (failedChunk ++ [Label.laserLatch true false, .proto, .proto, .proto, .faultTake]) (by decide +kernel)
  obtain ⟨⟨s, h⟩, hreach, hcounts⟩ := hex
  exact ⟨s, h, hreach, hcounts⟩

end Glowforge.Stream
