import Mathlib.Data.Rat.Floor
import Mathlib.Tactic.Ring
import Mathlib.Tactic.FieldSimp
import Mathlib.Tactic.Positivity
import Glowforge.Stream.Basic

/-!
# Glowforge — the position and its anchor (`glowforge_homing.c`, `glowforge_tray.c`)

The controller counts whole steps in `sys.position`. For a reader outside it leaves an anchor: the
coordinates at which the kernel's counters were zeroed, and which axes they are known for. This
module has the anchor's writers, and the tray mode that shifts the Z frame:

* **`Settings`** — the step scales, which are positive, and the travels.
* **`State`** — the position, the anchor and its file, the lens reference, the tray mode.
* **`cloudHomed`**, **`manualHomed`**, **`gfhomeReferenceZ`** — where a home and the start's lens
  reference say that the machine stands.
* **`gfhomeInvalidate`**, **`gfhomeInvalidateXy`**, **`gfhomeTrayShift`** — the other writers.

Axis 0 is X, 1 is Y and 2 is Z. Millimetres are rationals, so a coordinate on the step grid is on it
exactly. A key that is not a number is `none`. The envelopes, the soft limits, the homed mask and
the planner's copy of the position are not here.
-/

namespace Glowforge.Homing

open Glowforge.Stream (Steps)

/-! ## The step grid

`lroundf` rounds half away from zero. A coordinate that was read off a position is on the grid, and
rounding gives the position back. -/

/-- `lroundf`: the nearest whole number, halves away from zero. -/
def lround (x : ℚ) : ℤ := if x < 0 then -⌊-x + 1 / 2⌋ else ⌊x + 1 / 2⌋

/-- The 32 bits of a step count as an `int32_t`. -/
def signed (x : UInt32) : ℤ := x.toBitVec.toInt

structure Settings where
  -- `$100` to `$102`.
  stepsPerMm : Fin 3 → ℚ
  scaled : ∀ a, 0 < stepsPerMm a
  -- Stored negative.
  maxTravel : Fin 3 → ℚ

/-- A coordinate in whole steps. -/
def Settings.steps (cfg : Settings) (mm : Fin 3 → ℚ) : Steps :=
  fun a => .ofInt (lround (mm a * cfg.stepsPerMm a))

/-- A position in millimetres, on the step grid. -/
def Settings.mm (cfg : Settings) (position : Steps) : Fin 3 → ℚ :=
  fun a => signed (position a) / cfg.stepsPerMm a

theorem lround_intCast (n : ℤ) : lround n = n := by
  have hhalf : ∀ m : ℤ, ⌊(m : ℚ) + 1 / 2⌋ = m := by
    intro m
    rw [Int.floor_eq_iff]
    constructor <;> linarith
  unfold lround
  split
  · rw [← Int.cast_neg, hhalf, neg_neg]
  · exact hhalf n

theorem ofInt_signed (x : UInt32) : .ofInt (signed x) = x := by
  have hlt : x.toBitVec.toNat < 2 ^ 32 := x.toBitVec.isLt
  have hmod : signed x % 2 ^ 32 = x.toBitVec.toNat := by
    rw [signed, BitVec.toInt_eq_toNat_cond]
    split <;> omega
  rw [UInt32.ofInt, hmod, Int.toNat_natCast]
  exact UInt32.ofNat_toNat

namespace Settings

variable (cfg : Settings)

/-- A whole number of steps, in millimetres, is that number of steps. -/
theorem lround_grid (n : ℤ) (a : Fin 3) : lround (n / cfg.stepsPerMm a * cfg.stepsPerMm a) = n := by
  rw [div_mul_cancel₀ _ (ne_of_gt (cfg.scaled a)), lround_intCast]

/-- A coordinate read off a position stands for that position. -/
theorem steps_mm (position : Steps) : cfg.steps (cfg.mm position) = position := by
  funext a
  simp only [steps, mm, lround_grid, ofInt_signed]

end Settings

/-! ## The anchor

What the controller leaves for a reader outside: coordinates, the axes that they hold for, and what
set them. -/

/-- What set the reference. -/
inductive Source where
  | gfcloud
  | manual
  | startup
deriving DecidableEq

/-- `anchor_home`, `anchor_axes` and `anchor_source`. -/
structure Anchor where
  home : Fin 3 → ℚ
  axes : Fin 3 → Bool
  source : Source

/-- No axis carries a reference. -/
def noAxes : Fin 3 → Bool := fun _ => false

def zAxisBit : Fin 3 → Bool := fun a => a == 2

def xyAxisBits : Fin 3 → Bool := fun a => a != 2

structure State where
  -- `sys.position`, mod 2^32.
  position : Steps
  -- `sys.position_lost`.
  positionLost : Bool
  homePosition : Fin 3 → ℚ
  zReferenced : Bool
  anchor : Anchor
  -- The file `HOMED_ANCHOR`, before its three decimals.
  file : Option Anchor
  -- The tray is out; its shift is read once for each time that it is.
  out : Bool
  shiftKnown : Bool
  shift : ℤ

/-- `anchor_write`: what the file could not be given is kept in memory all the same. -/
def anchorWrite (opened : Bool) (a : Anchor) (st : State) : State :=
  { st with file := if opened then some a else st.file, anchor := a }

def gfhomeInvalidate (st : State) : State :=
  { st with file := none, anchor := { st.anchor with axes := noAxes }, zReferenced := false }

/-- The head is about to move without the counters. The lens is not released: the anchor keeps
carrying Z. -/
def gfhomeInvalidateXy (opened : Bool) (st : State) : State :=
  if st.anchor.axes 2 then anchorWrite opened { st.anchor with axes := zAxisBit } st
  else { st with file := none, anchor := { st.anchor with axes := noAxes } }

/-! ## The tray

The offset is clamped and rounded to whole half-steps once, when the tray goes out; the shift is
remembered until it comes back in. -/

/-- The tray offset is held to 13 to 60 mm. -/
def gftrayClampOffsetMm : Option ℚ → ℚ
  | none => 34.29
  | some mm => if mm < 13 then 13 else if mm > 60 then 60 else mm

/-- `offset_steps`, from the key `tray_offset_mm`. -/
def offsetSteps (cfg : Settings) (key : Option ℚ) : ℤ :=
  lround (gftrayClampOffsetMm key * cfg.stepsPerMm 2)

/-- `gftray_shift_steps`: the shift, and the state that remembers it. -/
def gftrayShiftSteps (cfg : Settings) (key : Option ℚ) (st : State) : ℤ × State :=
  if st.out then
    if st.shiftKnown then (st.shift, st)
    else (offsetSteps cfg key, { st with shift := offsetSteps cfg key, shiftKnown := true })
  else (0, st)

/-- A Z on the step grid, moved by whole half-steps. -/
def zGridShift (cfg : Settings) (z : ℚ) (delta : ℤ) : ℚ :=
  ((lround (z * cfg.stepsPerMm 2) + delta : ℤ) : ℚ) / cfg.stepsPerMm 2

/-- The Z frame moves, and everything that says where Z is moves with it. -/
def gfhomeTrayShift (cfg : Settings) (opened : Bool) (delta : ℤ) (st : State) : State :=
  let st := { st with
    position := Function.update st.position 2 (st.position 2 + .ofInt delta)
    homePosition := Function.update st.homePosition 2 (zGridShift cfg (st.homePosition 2) delta) }
  if st.anchor.axes 0 || st.anchor.axes 1 || st.anchor.axes 2 then
    anchorWrite opened
      { st.anchor with
        home := Function.update st.anchor.home 2 (zGridShift cfg (st.anchor.home 2) delta) } st
  else st

/-- `tray_set`: a mode that could not be saved is a mode that did not change. -/
def traySet (cfg : Settings) (key : Option ℚ) (want saved opened : Bool) (st : State) : State :=
  if want = st.out then st
  else
    let shift := gftrayShiftSteps cfg key st
    let delta := if want then offsetSteps cfg key else -shift.1
    let st := if want then st else shift.2
    if saved then
      gfhomeTrayShift cfg opened delta
        { st with out := want, shift := if want then delta else 0, shiftKnown := want }
    else st

/-! ## Where a home stands

The coordinates that the homes and the lens reference declare, from the keys of the config, each on
the step grid. -/

/-- What the homes and the lens reference read of the shared config. -/
structure Keys where
  -- `gfcloud_home_x`, `_y`, or `manual_home_x`, `_y`.
  home : Fin 3 → Option ℚ
  -- `lens_hall_edge_z_mm`, `lens_park_z_mm`.
  edgeZ : ℚ
  parkZ : ℚ
  -- `lens_stop_below_steps`, `lens_stop_above_steps`.
  below : ℚ
  above : ℚ
  -- `tray_offset_mm`.
  trayOffset : Option ℚ

def gfhomeZSteps (zMm zSpm : ℚ) : ℤ := lround (zMm * zSpm)

def gfhomeParkSteps (edgeZ parkZ zSpm : ℚ) (down up : ℤ) : ℤ :=
  let k := gfhomeZSteps parkZ zSpm - gfhomeZSteps edgeZ zSpm
  if k < -down then -down else if k > up then up else k

/-- The free travel that a key gives, or the fallback's (`LENS_WINDOW_DOWN`, `LENS_WINDOW_UP`). -/
def lensStop (key : ℚ) (fallback : ℤ) : ℤ := if 1 ≤ key ∧ key ≤ 40 then ⌊key⌋ else fallback

def gfhomeClampHomeMm (mm : Option ℚ) (travel : ℚ) : ℚ :=
  match mm with
  | none => 0
  | some mm => if mm < 0 then 0 else if mm > travel then travel else mm

def gfhomeClampCloudHomeMm (mm : Option ℚ) (travel : ℚ) : ℚ :=
  match mm with
  | none => 0
  | some mm => if mm < -travel then -travel else if mm > travel then travel else mm

/-- `gfhome_reference_z`: the lens stands on its hall edge. -/
def gfhomeReferenceZ (cfg : Settings) (k : Keys) (st : State) : State :=
  let shift := gftrayShiftSteps cfg k.trayOffset st
  let steps := gfhomeZSteps k.edgeZ (cfg.stepsPerMm 2) + shift.1
  { shift.2 with
    position := Function.update st.position 2 (.ofInt steps)
    homePosition := Function.update st.homePosition 2 (steps / cfg.stepsPerMm 2)
    zReferenced := true }

/-- The half-steps that the runner parks the lens from the edge. -/
def park (cfg : Settings) (k : Keys) : ℤ :=
  gfhomeParkSteps k.edgeZ k.parkZ (cfg.stepsPerMm 2) (lensStop k.below 10) (lensStop k.above 12)

/-- The coordinates that a camera home declares, before they are put on the step grid. -/
def cloudCoordinates (cfg : Settings) (k : Keys) (shift : ℤ) : Fin 3 → ℚ
  | 0 => gfhomeClampCloudHomeMm (k.home 0) (-cfg.maxTravel 0)
  | 1 => gfhomeClampCloudHomeMm (k.home 1) (-cfg.maxTravel 1)
  | 2 =>
    ((gfhomeZSteps k.edgeZ (cfg.stepsPerMm 2) + shift + park cfg k : ℤ) : ℚ) / cfg.stepsPerMm 2

/-- `gfcloud_home` behind its session: the position, and the home on the step grid. -/
def cloudHomed (cfg : Settings) (k : Keys) (st : State) : State :=
  let shift := gftrayShiftSteps cfg k.trayOffset st
  let position := cfg.steps (cloudCoordinates cfg k shift.1)
  { shift.2 with position := position, homePosition := cfg.mm position, zReferenced := true }

/-- The position that a manual home declares: the head at the stops is minus the offsets, and Z is
left as it is. -/
def manualPosition (cfg : Settings) (k : Keys) (position : Steps) : Steps
  | 0 => .ofInt (-lround (gfhomeClampHomeMm (k.home 0) (-cfg.maxTravel 0) * cfg.stepsPerMm 0))
  | 1 => .ofInt (-lround (gfhomeClampHomeMm (k.home 1) (-cfg.maxTravel 1) * cfg.stepsPerMm 1))
  | 2 => position 2

/-- `manual_home` up to its completion. -/
def manualHomed (cfg : Settings) (k : Keys) (st : State) : State :=
  let position := manualPosition cfg k st.position
  { st with
    position := position
    homePosition := fun a => if xyAxisBits a then cfg.mm position a else st.homePosition a }

/-- The axes that the anchor of a manual home carries: a standing Z reference too. -/
def manualAxes (st : State) : Fin 3 → Bool := fun a => xyAxisBits a || st.zReferenced

end Glowforge.Homing
