import Glowforge.Homing.Limits
import Glowforge.Homing.Machine

/-!
# Glowforge — the lens under its limits

The driver's machine of the position and the stream, with the limits beside it, the settings in
force, and the core's part: it plans a motion of Z only inside the envelope, and it counts steps of
Z only while such a motion is under way.

* **`Lens`** — the machine, its limits, and whether Z moves.
* **`Label.applies`** — the turns that end with `gfhome_apply_z_limit`.
* **`limitEdits`** — what they have made of the limits ahead of it.
* **`lensStep`** — a turn of the machine, a settings change, a motion planned, a motion over.
* **`lensStep_cases`** — a turn pins an unreferenced lens where it reads, or leaves the limits and
  moves the position by the steps that it counts or drops.
-/

namespace Glowforge.Homing

open Glowforge.Stream (Steps gfStreamKernelIdle readbackAnswer)

/-! ## The limits of a turn

Which turns end with `gfhome_apply_z_limit`, and what each has made of the limits before that call. -/

/-- The turn ends with `gfhome_apply_z_limit`. -/
def Label.applies (m : Machine) : Label → Bool
  | .stream l => invalidates m.stream l
  | .readback expired =>
    match readbackAnswer expired m.stream.gf with
    | some (rc, _) => decide (rc ≤ 0) && m.home.positionLost
    | none => false
  | .session | .cloudHome _ _ _ => true
  | .manualHome _ readOk energized _ _ => gfStreamKernelIdle readOk m.stream && energized
  | .startup edge _ _ _ => edge
  | .tray _ want readOk saved _ => gfStreamKernelIdle readOk m.stream && want != m.home.out && saved
  | .release readOk _ => gfStreamKernelIdle readOk m.stream
  | .lost | .reset _ | .sessionOver => false

/-- The edge of a reference, in the frame of the tray mode that stands. -/
def edgeSteps (cfg : Settings) (k : Keys) (st : State) : ℤ :=
  gfhomeZSteps k.edgeZ (cfg.stepsPerMm 2) + (gftrayShiftSteps cfg k.trayOffset st).1

/-- What a turn from `st`, with its `home` at the end, makes of the limits ahead of the apply. -/
def limitEdits (cfg : Settings) (envelope : Fin 3 → Option ℚ) (st : State) (home : Fin 3 → ℚ)
    (L : Limits) : Label → Limits
  | .cloudHome k _ _ =>
    (L.cloud cfg envelope home).openLens cfg (edgeSteps cfg k st) (lensStop k.below 10)
      (lensStop k.above 12)
  | .manualHome _ _ _ _ _ => L.manual cfg envelope
  | .startup _ k _ _ =>
    let L := L.openLens cfg (edgeSteps cfg k st) (lensStop k.below 10) (lensStop k.above 12)
    { L with homed := Function.update L.homed 2 true }
  | .tray key want _ _ _ =>
    let delta := if want then offsetSteps cfg key else -(gftrayShiftSteps cfg key st).1
    if st.zReferenced then L.shiftLens cfg delta else L
  -- the invalidations
  | .stream _ | .readback _ | .session | .release _ _ => L.dropXy
  | .lost | .reset _ | .sessionOver => L

/-- The core's re-init behind a reset: a position still lost clears the masks and the envelope. -/
def coreReinit (positionLost : Bool) (L : Limits) : Limits :=
  if positionLost then { L with envMin := fun _ => 0, envMax := fun _ => 0, homed := noAxes } else L

/-- The axes that the homing cycles `$44` to `$46` name, as they are pinned: Z, then X and Y. -/
def pinnedCycles : Fin 3 → Bool := fun a => zAxisBit a || xyAxisBits a

/-- A write of one of them keeps homed what they name. -/
def coreHomingMask (written : Bool) (L : Limits) : Limits :=
  if written then { L with homed := fun a => L.homed a && pinnedCycles a } else L

/-! ## The machine

The core plans inside the envelope and counts the steps of what it has planned; the driver's turns
change the envelope in between. -/

structure Lens where
  cfg : Settings
  machine : Machine
  limits : Limits
  -- The core has a motion of Z under way.
  zMoving : Bool

inductive LensLabel where
  -- A turn of the machine, with the envelope's keys for a home.
  | machine (l : Label) (envelope : Fin 3 → Option ℚ)
  -- `onSettingsChanged`, with what the core has made of the limits before it; `cycles` says that
  -- one of `$44` to `$46` was written.
  | settings (cfg : Settings) (L : Limits) (cycles : Bool)
  -- The core is asked for a motion to `z`, and plans it.
  | plan (z : ℚ)
  -- The core has no motion of Z any more.
  | motionOver

namespace Lens

/-- Z in millimetres. -/
def z (s : Lens) : ℚ := s.cfg.mm s.machine.home.position 2

/-- `gfhome_apply_z_limit` where the machine now stands. -/
def applied (cfg : Settings) (st : State) (L : Limits) : Limits :=
  gfhomeApplyZLimit st.zReferenced (cfg.mm st.position 2) L

/-- A motion to `z` passes the core's check: an axis that is homed and in the soft-limit mask is
not sent outside the envelope. -/
def admits (s : Lens) (z : ℚ) : Bool :=
  !(s.limits.homed 2 && s.limits.softLimits 2) ||
    (decide (s.limits.envMin 2 ≤ z) && decide (z ≤ s.limits.envMax 2))

/-- The core counts steps of Z in a motion of Z alone, and takes a command with no motion under
way. -/
def permits (s : Lens) : Label → Bool
  | .stream l => s.zMoving || counted s.machine.stream l 2 == 0
  | .session | .manualHome _ _ _ _ _ | .tray _ _ _ _ _ | .release _ _ => !s.zMoving
  | _ => true

/-- A reset ends the core's motion, before its read-back. -/
def stopsMotion : Label → Bool
  | .reset _ | .readback _ => true
  | _ => false

/-- The limits behind a turn that leaves the machine at `n`. -/
def limitsAfter (s : Lens) (envelope : Fin 3 → Option ℚ) (n : Machine) (l : Label) : Limits :=
  let L :=
    if l.applies s.machine then
      applied s.cfg n.home (limitEdits s.cfg envelope s.machine.home n.home.homePosition s.limits l)
    else s.limits
  match l with
  | .readback expired =>
    if (readbackAnswer expired s.machine.stream.gf).isSome then coreReinit n.home.positionLost L else L
  | _ => L

end Lens

def lensStep (s : Lens) : LensLabel → Option Lens
  | .machine l envelope =>
    if s.permits l then
      (machineStep s.cfg s.machine l).map fun n =>
        { s with
          machine := n
          limits := s.limitsAfter envelope n l
          zMoving := s.zMoving && !Lens.stopsMotion l }
    else none
  | .settings cfg L cycles =>
    some { s with
      cfg := cfg
      limits := coreHomingMask cycles (Lens.applied cfg s.machine.home L) }
  | .plan z =>
    if s.machine.free && s.admits z then
      some { s with
        zMoving := s.zMoving ||
          .ofInt (lround (z * s.cfg.stepsPerMm 2)) != s.machine.home.position 2 }
    else none
  | .motionOver => some { s with zMoving := false }

/-- The controller has started: `gfhome_init` drops the reference and applies the limits. -/
def Lens.start (cfg : Settings) (stream : Stream.State) (st : State) (L : Limits) : Lens where
  cfg := cfg
  machine := Machine.start stream st
  limits := Lens.applied cfg (gfhomeInvalidate st) L.dropXy
  zMoving := false

/-! ## Where a turn leaves the lens

The one lemma that the invariants need: a turn pins the lens where it now reads, or it moves it by a
stated number of steps and leaves the limits. -/

namespace Lens

/-- Both ends of the envelope of Z are where it stands. -/
structure Pinned (s : Lens) : Prop where
  envMin : s.limits.envMin 2 = s.z
  envMax : s.limits.envMax 2 = s.z

/-- The core checks Z. -/
structure Checked (s : Lens) : Prop where
  homed : s.limits.homed 2 = true
  softLimits : s.limits.softLimits 2 = true

/-- The turn ends with `gfhome_apply_z_limit`. -/
def pins (s : Lens) : LensLabel → Bool
  | .machine l _ => l.applies s.machine
  | .settings _ _ _ => true
  | .plan _ | .motionOver => false

/-- What a turn adds to the Z of the position without applying the limits: the steps counted, less
those that a read-back drops. -/
def moved (s : Lens) : LensLabel → UInt32
  | .machine (.stream l) _ => counted s.machine.stream l 2
  | .machine (.readback expired) _ =>
    match readbackAnswer expired s.machine.stream.gf with
    | some (rc, unplayed) => if rc > 0 then -unplayed 2 else 0
    | none => 0
  | _ => 0

end Lens

section

variable {cfg : Settings} {s t : Lens} {m n : Machine} {st : State} {L : Limits} {opened : Bool}

@[simp] theorem applied_envMin (h : st.zReferenced = false) :
    (Lens.applied cfg st L).envMin 2 = cfg.mm st.position 2 := by
  simp [Lens.applied, gfhomeApplyZLimit, h]

@[simp] theorem applied_envMax (h : st.zReferenced = false) :
    (Lens.applied cfg st L).envMax 2 = cfg.mm st.position 2 := by
  simp [Lens.applied, gfhomeApplyZLimit, h]

@[simp] theorem applied_homed : (Lens.applied cfg st L).homed 2 = true := by
  simp [Lens.applied, gfhomeApplyZLimit]

@[simp] theorem applied_softLimits : (Lens.applied cfg st L).softLimits 2 = true := by
  simp [Lens.applied, gfhomeApplyZLimit]

/-- A reset settles the lost position, one way or the other. -/
theorem readbackPosition_found (rc : Int) (unplayed : Steps) (st : State) :
    (readbackPosition rc unplayed st).positionLost = false := by
  unfold readbackPosition
  dsimp only
  split_ifs with hrc hlost hlost
  · rfl
  · simp
  · rfl
  · simpa using hlost

/-- So the core's re-init keeps the limits. -/
theorem limitsAfter_eq (envelope : Fin 3 → Option ℚ) {l : Label}
    (hstep : machineStep s.cfg s.machine l = some n) :
    s.limitsAfter envelope n l =
      if l.applies s.machine then
        Lens.applied s.cfg n.home
          (limitEdits s.cfg envelope s.machine.home n.home.homePosition s.limits l)
      else s.limits := by
  cases machineStep_turns s.cfg hstep with
  | waits hu hanswer =>
    simp only [Lens.limitsAfter, hanswer]
    rfl
  | answered hu hanswer =>
    simp only [Lens.limitsAfter, hanswer, readbackPosition_found]
    rfl
  | _ => rfl

/-- A switch that is none, or that could not be saved, leaves Z as it is. -/
theorem traySet_still (cfg : Settings) (key : Option ℚ) (opened : Bool) {want saved : Bool}
    (h : (want != st.out && saved) = false) :
    (traySet cfg key want saved opened st).zReferenced = st.zReferenced ∧
      (traySet cfg key want saved opened st).position = st.position := by
  unfold traySet
  split
  case isTrue => exact ⟨rfl, rfl⟩
  case isFalse hwant =>
    have hunsaved : saved = false := by simpa [hwant] using h
    subst hunsaved
    cases want with
    | true => exact ⟨rfl, rfl⟩
    | false =>
      simp only [Bool.false_eq_true, if_false, gftrayShiftSteps]
      split_ifs <;> exact ⟨rfl, rfl⟩

/-- A read-back that leaves the anchor pays the position what was dropped, or nothing. -/
theorem readbackPosition_still {rc : Int} {unplayed : Steps}
    (h : (rc ≤ 0 && st.positionLost) = false) :
    (readbackPosition rc unplayed st).zReferenced = st.zReferenced ∧
      (readbackPosition rc unplayed st).position 2 = st.position 2 + if rc > 0 then -unplayed 2 else 0 := by
  unfold readbackPosition
  by_cases hrc : rc > 0
  · simp only [hrc, if_true, Bool.false_eq_true, if_false, sub_eq_add_neg]
    exact ⟨trivial, rfl⟩
  · have hfound : st.positionLost = false := by simpa [not_lt.1 hrc] using h
    simp only [hrc, hfound, Bool.false_eq_true, if_false, add_zero]
    exact ⟨trivial, trivial⟩

/-- **A turn of the machine** that applies no limit keeps the reference, and moves Z by the steps
that it counts or drops. -/
theorem machineStep_still (envelope : Fin 3 → Option ℚ) {l : Label}
    (hstep : machineStep s.cfg s.machine l = some n) (hstill : l.applies s.machine = false) :
    n.home.zReferenced = s.machine.home.zReferenced ∧
      n.home.position 2 = s.machine.home.position 2 + s.moved (.machine l envelope) := by
  cases machineStep_turns s.cfg hstep with
  | @stream l u hadmits hu =>
    have hkeeps : invalidates s.machine.stream l = false := hstill
    simp only [turned, hkeeps, Bool.false_eq_true, if_false]
    exact ⟨trivial, rfl⟩
  | waits hu hanswer =>
    simp only [Lens.moved, hanswer]
    exact ⟨trivial, (add_zero _).symm⟩
  | answered hu hanswer =>
    simp only [Label.applies, hanswer] at hstill
    simp only [Lens.moved, hanswer]
    exact readbackPosition_still hstill
  | tray hidle =>
    simp only [Label.applies, hidle, Bool.true_and] at hstill
    obtain ⟨href, hposition⟩ := traySet_still s.cfg _ _ hstill
    exact ⟨href, (congrFun hposition 2).trans (add_zero _).symm⟩
  | manualHome hfree hmay hhome => exact absurd (hmay.symm.trans hstill) (by decide)
  | release hidle => exact absurd (hidle.symm.trans hstill) (by decide)
  | session | cloudHome | lensHome => cases hstill
  | lost | reset | sessionOver | manualRefused | lensSkipped | trayRefused | releaseRefused =>
    exact ⟨rfl, (add_zero _).symm⟩

/-- **What a turn does to an unreferenced lens**: it pins it where it reads, or it leaves the limits
and the reference as they are and moves Z by the steps that it counts or drops. -/
theorem lensStep_cases {l : LensLabel} (hstep : lensStep s l = some t)
    (href : t.machine.home.zReferenced = false) :
    (s.pins l = true ∧ t.Pinned ∧ t.Checked) ∨
      (s.pins l = false ∧ s.machine.home.zReferenced = false ∧ t.cfg = s.cfg ∧ t.limits = s.limits ∧
        t.machine.home.position 2 = s.machine.home.position 2 + s.moved l) := by
  cases l with
  | machine l envelope =>
    simp only [lensStep] at hstep
    split at hstep
    case isFalse => cases hstep
    case isTrue =>
      obtain ⟨n, hn, rfl⟩ := Option.map_eq_some_iff.1 hstep
      have hlimits := limitsAfter_eq envelope hn
      cases happ : l.applies s.machine with
      | true =>
        rw [happ, if_pos rfl] at hlimits
        have hmin := congrFun (congrArg Limits.envMin hlimits) 2
        have hmax := congrFun (congrArg Limits.envMax hlimits) 2
        have hhomed := congrFun (congrArg Limits.homed hlimits) 2
        have hsoft := congrFun (congrArg Limits.softLimits hlimits) 2
        exact .inl ⟨happ, ⟨hmin.trans (applied_envMin href), hmax.trans (applied_envMax href)⟩,
          ⟨hhomed.trans applied_homed, hsoft.trans applied_softLimits⟩⟩
      | false =>
        rw [happ, if_neg Bool.false_ne_true] at hlimits
        obtain ⟨hkept, hmoved⟩ := machineStep_still envelope hn happ
        exact .inr ⟨happ, hkept.symm.trans href, rfl, hlimits, hmoved⟩
  | settings cfg L cycles =>
    cases hstep
    have hmask : (coreHomingMask cycles (Lens.applied cfg s.machine.home L)).homed 2 = true := by
      unfold coreHomingMask
      split <;> simp [pinnedCycles, zAxisBit]
    have hrest : (coreHomingMask cycles (Lens.applied cfg s.machine.home L)).envMin =
          (Lens.applied cfg s.machine.home L).envMin ∧
        (coreHomingMask cycles (Lens.applied cfg s.machine.home L)).envMax =
          (Lens.applied cfg s.machine.home L).envMax ∧
        (coreHomingMask cycles (Lens.applied cfg s.machine.home L)).softLimits =
          (Lens.applied cfg s.machine.home L).softLimits := by
      unfold coreHomingMask
      split <;> exact ⟨rfl, rfl, rfl⟩
    obtain ⟨hmin, hmax, hsoft⟩ := hrest
    exact .inl ⟨rfl, ⟨(congrFun hmin 2).trans (applied_envMin href),
      (congrFun hmax 2).trans (applied_envMax href)⟩, hmask, (congrFun hsoft 2).trans applied_softLimits⟩
  | plan z =>
    simp only [lensStep] at hstep
    split at hstep
    case isFalse => cases hstep
    case isTrue =>
      cases hstep
      exact .inr ⟨rfl, href, rfl, rfl, (add_zero _).symm⟩
  | motionOver =>
    cases hstep
    exact .inr ⟨rfl, href, rfl, rfl, (add_zero _).symm⟩

end

end Glowforge.Homing
