import Glowforge.Homing.Basic

/-!
# Glowforge — the limits, in exact steps (`glowforge_homing.c`, `glowforge_tray.c`)

Beside the position and its anchor the homes and the tray keep the work envelope, and the masks
that the core checks it by. The envelope of Z is the driver's own: the free travel around the hall
edge while the lens is referenced, and else the one height where the lens stands.

* **`Limits`** — the envelope, the masks, and the envelope that a reference opened for Z.
* **`gfhomeApplyZLimit`** — what every writer ends with.
* **`farEdge`** — the end of the bed that an envelope key gives.
* **`Frame`** — the position as a whole number of steps, what is measured from it, and the limits.
* **`wrapped`** — a frame's position as the `int32_t` has it, and what the writers of the position
  do to it.

The bed check opens the far edges of X and Y until a home closes them again; it is not here.
-/

namespace Glowforge.Homing

open Glowforge.Stream (Steps)

/-! ## The limits

The masks and the envelope are the core's; the driver writes both. Z's own part is written by one
function, the last call of every writer. -/

structure Limits where
  -- `sys.work_envelope`.
  envMin : Fin 3 → ℚ
  envMax : Fin 3 → ℚ
  homed : Fin 3 → Bool
  softLimits : Fin 3 → Bool
  -- `z_env_min`, `z_env_max`: the envelope that the Z reference opened.
  zEnvMin : ℚ
  zEnvMax : ℚ

/-- `gfhome_apply_z_limit`, with the lens at `z`. X and Y are limited while they are homed. -/
def gfhomeApplyZLimit (zReferenced : Bool) (z : ℚ) (L : Limits) : Limits :=
  let homed := Function.update L.homed 2 true
  { L with
    envMin := Function.update L.envMin 2 (if zReferenced then L.zEnvMin else z)
    envMax := Function.update L.envMax 2 (if zReferenced then L.zEnvMax else z)
    homed := homed
    softLimits := fun a => homed a || L.softLimits a }

/-- X and Y are no longer homed, and their soft limits go with the reference. -/
def Limits.dropXy (L : Limits) : Limits :=
  { L with homed := fun a => a == 2 && L.homed a, softLimits := fun a => a == 2 && L.softLimits a }

/-- The head's free travel around the edge, a half-step of slack at each end. -/
def Limits.openLens (cfg : Settings) (edge below above : ℤ) (L : Limits) : Limits :=
  { L with
    zEnvMin := ((edge - below - 1 : ℤ) : ℚ) / cfg.stepsPerMm 2
    zEnvMax := ((edge + above + 1 : ℤ) : ℚ) / cfg.stepsPerMm 2 }

def Limits.shiftLens (cfg : Settings) (delta : ℤ) (L : Limits) : Limits :=
  { L with zEnvMin := zGridShift cfg L.zEnvMin delta, zEnvMax := zGridShift cfg L.zEnvMax delta }

/-! ## The bed

The far edges come from measured keys, each clamped between 50 mm and a margin beyond the travel. -/

def envelopeMinMm : ℚ := 50

def envelopeExtraMm : ℚ := 30

def gfhomeClampEnvelopeMm (mm : Option ℚ) (travel : ℚ) : ℚ :=
  match mm with
  | none => travel
  | some mm =>
    if mm ≤ 0 then travel
    else if mm < envelopeMinMm then envelopeMinMm
    else if mm > travel + envelopeExtraMm then travel + envelopeExtraMm
    else mm

/-- `far_edge`, from the keys `envelope_x_mm` and `envelope_y_mm`: what was measured for X and Y,
and the travel for Z. -/
def farEdge (cfg : Settings) (envelope : Fin 3 → Option ℚ) (a : Fin 3) : ℚ :=
  if a = 2 then -cfg.maxTravel a else gfhomeClampEnvelopeMm (envelope a) (-cfg.maxTravel a)

/-- The envelope of a camera home: it reaches back to a head behind the origin. -/
def Limits.cloud (cfg : Settings) (envelope : Fin 3 → Option ℚ) (home : Fin 3 → ℚ) (L : Limits) :
    Limits :=
  { L with
    envMin := fun a => if xyAxisBits a && home a < 0 then home a else 0
    envMax := farEdge cfg envelope
    homed := fun _ => true }

/-- The envelope of a manual home begins at the origin. -/
def Limits.manual (cfg : Settings) (envelope : Fin 3 → Option ℚ) (L : Limits) : Limits :=
  { L with
    envMin := fun a => if xyAxisBits a then 0 else L.envMin a
    envMax := fun a => if xyAxisBits a then farEdge cfg envelope a else L.envMax a
    homed := fun a => xyAxisBits a || L.homed a }

/-! ## The frame

The same writers as `Homing.Basic` has, over a position that does not wrap and with the limits
beside it. -/

structure Frame where
  -- `sys.position`, exact.
  position : Fin 3 → ℤ
  homePosition : Fin 3 → ℚ
  zReferenced : Bool
  limits : Limits
  anchor : Anchor
  file : Option Anchor
  out : Bool
  shiftKnown : Bool
  shift : ℤ

/-- The anchor carries an axis. -/
def Anchor.any (a : Anchor) : Bool := a.axes 0 || a.axes 1 || a.axes 2

namespace Frame

variable (cfg : Settings)

/-- A position in millimetres. -/
def mm (f : Frame) (a : Fin 3) : ℚ := f.position a / cfg.stepsPerMm a

def anchorWrite (opened : Bool) (a : Anchor) (f : Frame) : Frame :=
  { f with file := if opened then some a else f.file, anchor := a }

/-- The last write of every writer: the limits, for the lens where it now reads. -/
def applyZLimit (f : Frame) : Frame :=
  { f with limits := gfhomeApplyZLimit f.zReferenced (f.mm cfg 2) f.limits }

def gfhomeInvalidate (f : Frame) : Frame :=
  applyZLimit cfg
    { f with
      file := none
      anchor := { f.anchor with axes := noAxes }
      zReferenced := false
      limits := f.limits.dropXy }

def gftrayShiftSteps (key : Option ℚ) (f : Frame) : ℤ × Frame :=
  if f.out then
    if f.shiftKnown then (f.shift, f)
    else (offsetSteps cfg key, { f with shift := offsetSteps cfg key, shiftKnown := true })
  else (0, f)

def gfhomeTrayShift (opened : Bool) (delta : ℤ) (f : Frame) : Frame :=
  let f := { f with
    position := Function.update f.position 2 (f.position 2 + delta)
    homePosition := Function.update f.homePosition 2 (zGridShift cfg (f.homePosition 2) delta)
    limits := if f.zReferenced then f.limits.shiftLens cfg delta else f.limits }
  let f := f.applyZLimit cfg
  if f.anchor.any then
    f.anchorWrite opened
      { f.anchor with
        home := Function.update f.anchor.home 2 (zGridShift cfg (f.anchor.home 2) delta) }
  else f

def traySet (key : Option ℚ) (want saved opened : Bool) (f : Frame) : Frame :=
  if want = f.out then f
  else
    let shift := f.gftrayShiftSteps cfg key
    let delta := if want then offsetSteps cfg key else -shift.1
    let f := if want then f else shift.2
    if saved then
      gfhomeTrayShift cfg opened delta
        { f with out := want, shift := if want then delta else 0, shiftKnown := want }
    else f

/-- `gfhome_reference_z` with the window of the keys. -/
def gfhomeReferenceZ (k : Keys) (f : Frame) : Frame :=
  let shift := f.gftrayShiftSteps cfg k.trayOffset
  let steps := gfhomeZSteps k.edgeZ (cfg.stepsPerMm 2) + shift.1
  let f := shift.2
  applyZLimit cfg
    { f with
      position := Function.update f.position 2 steps
      homePosition := Function.update f.homePosition 2 (steps / cfg.stepsPerMm 2)
      zReferenced := true
      limits :=
        let L := f.limits.openLens cfg steps (lensStop k.below 10) (lensStop k.above 12)
        { L with homed := Function.update L.homed 2 true } }

/-- `gfhome_startup_reference`, with the marker. -/
def gfhomeStartupReference (k : Keys) (opened : Bool) (f : Frame) : Frame :=
  let f := f.gfhomeReferenceZ cfg k
  f.anchorWrite opened ⟨fun a => if a = 2 then f.homePosition 2 else 0, zAxisBit, .startup⟩

/-- `home_completed`, but for the counters. -/
def homeCompleted (opened : Bool) (a : Anchor) (f : Frame) : Frame :=
  (f.applyZLimit cfg).anchorWrite opened a

/-- `gfcloud_home` behind its session. -/
def gfcloudHomed (k : Keys) (envelope : Fin 3 → Option ℚ) (opened : Bool) (f : Frame) : Frame :=
  let shift := f.gftrayShiftSteps cfg k.trayOffset
  let edge := gfhomeZSteps k.edgeZ (cfg.stepsPerMm 2) + shift.1
  let position := fun a => lround (cloudCoordinates cfg k shift.1 a * cfg.stepsPerMm a)
  let home : Fin 3 → ℚ := fun a => position a / cfg.stepsPerMm a
  let f := shift.2
  homeCompleted cfg opened ⟨home, fun _ => true, .gfcloud⟩
    { f with
      position := position
      homePosition := home
      zReferenced := true
      limits := (f.limits.cloud cfg envelope home).openLens cfg edge (lensStop k.below 10)
        (lensStop k.above 12) }

/-- `gfcloud_home`: it drops the reference, and sets it again if its session has `homed`. -/
def gfcloudHome (k : Keys) (envelope : Fin 3 → Option ℚ) (homed opened : Bool) (f : Frame) : Frame :=
  let f := f.gfhomeInvalidate cfg
  if homed then f.gfcloudHomed cfg k envelope opened else f

/-- The position that a manual home declares. -/
def manualPosition (k : Keys) (position : Fin 3 → ℤ) : Fin 3 → ℤ
  | 0 => -lround (gfhomeClampHomeMm (k.home 0) (-cfg.maxTravel 0) * cfg.stepsPerMm 0)
  | 1 => -lround (gfhomeClampHomeMm (k.home 1) (-cfg.maxTravel 1) * cfg.stepsPerMm 1)
  | 2 => position 2

/-- `manual_home` up to its completion. -/
def manualHome (k : Keys) (envelope : Fin 3 → Option ℚ) (opened : Bool) (f : Frame) : Frame :=
  let position := manualPosition cfg k f.position
  let home : Fin 3 → ℚ := fun a => position a / cfg.stepsPerMm a
  homeCompleted cfg opened ⟨home, fun a => xyAxisBits a || f.zReferenced, .manual⟩
    { f with
      position := position
      homePosition := fun a => if xyAxisBits a then home a else f.homePosition a
      limits := f.limits.manual cfg envelope }

/-! ## The position as an `int32_t`

What a writer does to the frame, wrapped, is what the machine's writer does to the wrapped state.
Only a writer that reads the position back in millimetres asks that it fits. -/

/-- The frame as the machine keeps it: the position mod 2^32. -/
def wrapped (lost : Bool) (f : Frame) : State where
  position := fun a => .ofInt (f.position a)
  positionLost := lost
  homePosition := f.homePosition
  zReferenced := f.zReferenced
  anchor := f.anchor
  file := f.file
  out := f.out
  shiftKnown := f.shiftKnown
  shift := f.shift

/-- The position fits an `int32_t`. -/
def Fits (f : Frame) : Prop := ∀ a, -2 ^ 31 ≤ f.position a ∧ f.position a < 2 ^ 31

variable {cfg} {lost opened : Bool} {f : Frame} {k : Keys} {key : Option ℚ}

theorem signed_ofInt {n : ℤ} (hlo : -2 ^ 31 ≤ n) (hhi : n < 2 ^ 31) : signed (.ofInt n) = n := by
  have hbits : (UInt32.ofInt n).toBitVec.toNat = (n % 2 ^ 32).toNat := by
    rw [UInt32.ofInt, UInt32.toBitVec_ofNat', BitVec.toNat_ofNat]
    omega
  rw [signed, BitVec.toInt_eq_toNat_cond, hbits]
  split <;> omega

/-- A position that fits reads in millimetres as it stands. -/
theorem mm_wrapped (lost : Bool) (h : f.Fits) : cfg.mm (f.wrapped lost).position = f.mm cfg := by
  funext a
  rw [Settings.mm, wrapped, signed_ofInt (h a).1 (h a).2, mm]

theorem wrapped_update (f : Frame) (n : ℤ) (a : Fin 3) :
    (fun b => UInt32.ofInt (Function.update f.position a n b)) =
      Function.update (f.wrapped lost).position a (.ofInt n) := by
  funext b
  by_cases hb : b = a
  · subst hb
    rw [Function.update_self, Function.update_self]
  · rw [Function.update_of_ne hb, Function.update_of_ne hb, wrapped]

theorem wrapped_gfhomeInvalidate :
    (f.gfhomeInvalidate cfg).wrapped lost = Homing.gfhomeInvalidate (f.wrapped lost) := rfl

theorem wrapped_gfhomeTrayShift (delta : ℤ) :
    (f.gfhomeTrayShift cfg opened delta).wrapped lost =
      Homing.gfhomeTrayShift cfg opened delta (f.wrapped lost) := by
  have hposition : (fun b => UInt32.ofInt (Function.update f.position 2 (f.position 2 + delta) b)) =
      Function.update (f.wrapped lost).position 2 ((f.wrapped lost).position 2 + .ofInt delta) := by
    rw [wrapped_update f _ 2, UInt32.ofInt_add]
    rfl
  unfold gfhomeTrayShift Homing.gfhomeTrayShift
  cases h : f.anchor.any with
  | true =>
    have haxes : (f.anchor.axes 0 || f.anchor.axes 1 || f.anchor.axes 2) = true := h
    simp only [applyZLimit, h, haxes, if_true, anchorWrite, Homing.anchorWrite, wrapped] at hposition ⊢
    rw [hposition]
  | false =>
    have haxes : (f.anchor.axes 0 || f.anchor.axes 1 || f.anchor.axes 2) = false := h
    simp only [applyZLimit, h, haxes, Bool.false_eq_true, if_false, wrapped] at hposition ⊢
    rw [hposition]

theorem gftrayShiftSteps_wrapped :
    Homing.gftrayShiftSteps cfg key (f.wrapped lost) =
      ((f.gftrayShiftSteps cfg key).1, (f.gftrayShiftSteps cfg key).2.wrapped lost) := by
  cases hout : f.out <;> cases hknown : f.shiftKnown <;>
    simp [Homing.gftrayShiftSteps, gftrayShiftSteps, wrapped, hout, hknown]

theorem wrapped_traySet {want saved : Bool} :
    (f.traySet cfg key want saved opened).wrapped lost =
      Homing.traySet cfg key want saved opened (f.wrapped lost) := by
  unfold traySet Homing.traySet
  rw [gftrayShiftSteps_wrapped]
  by_cases hwant : want = f.out
  · rw [if_pos hwant, if_pos (show want = (f.wrapped lost).out from hwant)]
  rw [if_neg hwant, if_neg (show ¬want = (f.wrapped lost).out from hwant)]
  cases saved <;> cases want <;>
    simp only [if_true, if_false, Bool.false_eq_true, wrapped_gfhomeTrayShift] <;> rfl

/-- Reading the shift remembers it, and nothing else. -/
theorem gftrayShiftSteps_remembers (cfg : Settings) (key : Option ℚ) (f : Frame) :
    ∃ known shift,
      (f.gftrayShiftSteps cfg key).2 = { f with shiftKnown := known, shift := shift } := by
  unfold gftrayShiftSteps
  split_ifs <;> exact ⟨_, _, rfl⟩

theorem wrapped_gfhomeReferenceZ :
    (f.gfhomeReferenceZ cfg k).wrapped lost = Homing.gfhomeReferenceZ cfg k (f.wrapped lost) := by
  unfold gfhomeReferenceZ Homing.gfhomeReferenceZ
  rw [gftrayShiftSteps_wrapped]
  obtain ⟨known, shift, hremembers⟩ := gftrayShiftSteps_remembers cfg k.trayOffset f
  dsimp only [applyZLimit]
  rw [hremembers, ← wrapped_update]
  rfl

/-- A camera home whose position fits. -/
theorem wrapped_gfcloudHomed {envelope : Fin 3 → Option ℚ}
    (h : (f.gfcloudHomed cfg k envelope opened).Fits) :
    (f.gfcloudHomed cfg k envelope opened).wrapped lost =
      Homing.anchorWrite opened
        ⟨(Homing.cloudHomed cfg k (f.wrapped lost)).homePosition, fun _ => true, .gfcloud⟩
        (Homing.cloudHomed cfg k (f.wrapped lost)) := by
  have hmm : cfg.mm (Homing.cloudHomed cfg k (f.wrapped lost)).position =
      (f.gfcloudHomed cfg k envelope opened).mm cfg := by
    rw [← mm_wrapped lost h]
    unfold Homing.cloudHomed
    rw [gftrayShiftSteps_wrapped]
    rfl
  have hhome : (Homing.cloudHomed cfg k (f.wrapped lost)).homePosition =
      (f.gfcloudHomed cfg k envelope opened).mm cfg := hmm
  rw [hhome]
  unfold Homing.cloudHomed at hmm ⊢
  rw [gftrayShiftSteps_wrapped] at hmm ⊢
  dsimp only at hmm ⊢
  rw [hmm]
  rfl

theorem wrapped_manualPosition (k : Keys) (f : Frame) :
    (fun a => UInt32.ofInt (manualPosition cfg k f.position a)) =
      Homing.manualPosition cfg k (f.wrapped lost).position := by
  funext a
  obtain rfl | rfl | rfl := Stream.axis_cases a <;> rfl

/-- A manual home whose position fits. -/
theorem wrapped_manualHome {envelope : Fin 3 → Option ℚ}
    (h : (f.manualHome cfg k envelope opened).Fits) :
    (f.manualHome cfg k envelope opened).wrapped lost =
      Homing.anchorWrite opened
        ⟨cfg.mm (Homing.manualHomed cfg k (f.wrapped lost)).position, manualAxes (f.wrapped lost),
          .manual⟩
        (Homing.manualHomed cfg k (f.wrapped lost)) := by
  have hmm : cfg.mm (Homing.manualPosition cfg k (f.wrapped lost).position) =
      (f.manualHome cfg k envelope opened).mm cfg := by
    rw [← mm_wrapped lost h, ← wrapped_manualPosition]
    rfl
  unfold Homing.manualHomed
  dsimp only
  rw [hmm, ← wrapped_manualPosition]
  rfl

end Frame

end Glowforge.Homing
