import Glowforge.Homing.Limits

/-!
# Glowforge — where a camera home stands in its envelope

A camera home declares where the head stands and opens the envelope around it, in one call. The
near edge reaches back to a head behind the origin, on the step grid; Z has the free travel around
the hall edge, and the park keeps inside it. The far edges of X and Y come from keys of their own.

* **`cloudHome_near`** — no camera home stands before its near edge.
* **`cloudHome_lens`** — the lens stands in its window, with a half-step to spare on either side.
* **`cloudHome_inside`** — the home is inside its envelope exactly when X and Y round to a step that
  the far edge has room for.
* **`cloudHome_past_edge`** — a home that the keys put past the far edge.
-/

namespace Glowforge.Homing

/-! ## Rounding to a whole step

A bound on what is rounded, as a bound on what it rounds to. -/

variable {x : ℚ} {n : ℤ}

theorem lround_le_iff (hn : 0 ≤ n) : lround x ≤ n ↔ x < n + 1 / 2 := by
  have hn' : (0 : ℚ) ≤ n := by exact_mod_cast hn
  unfold lround
  split
  case isTrue hneg =>
    have hfloor : 0 ≤ ⌊-x + 1 / 2⌋ := Int.floor_nonneg.2 (by linarith)
    exact ⟨fun _ => by linarith, fun _ => by omega⟩
  case isFalse hpos =>
    rw [← Int.lt_add_one_iff, Int.floor_lt]
    push_cast
    constructor <;> intro h <;> linarith

/-! ## The parts of the envelope

The three axes are judged apart: the near edges hold always, Z holds by the park's clamp, and the
far edges hold exactly under the stated bound. -/

/-- The head is inside the work envelope. -/
def Frame.Inside (cfg : Settings) (f : Frame) : Prop :=
  ∀ a, f.limits.envMin a ≤ f.mm cfg a ∧ f.mm cfg a ≤ f.limits.envMax a

theorem farEdge_pos {cfg : Settings} {envelope : Fin 3 → Option ℚ} {a : Fin 3}
    (htravel : cfg.maxTravel a < 0) : 0 < farEdge cfg envelope a := by
  unfold farEdge gfhomeClampEnvelopeMm envelopeMinMm envelopeExtraMm
  split_ifs with hz
  · linarith
  · cases envelope a with
    | none => exact neg_pos.2 htravel
    | some mm =>
      dsimp only
      split_ifs <;> linarith

theorem lensStop_pos (key : ℚ) (fallback : ℤ) (h : 1 ≤ fallback) : 1 ≤ lensStop key fallback := by
  unfold lensStop
  split_ifs with hkey
  · exact Int.le_floor.2 (by exact_mod_cast hkey.1)
  · exact h

/-- The park is inside the window that it is held to. -/
theorem gfhomeParkSteps_window (edgeZ parkZ zSpm : ℚ) {down up : ℤ} (hdown : 0 ≤ down)
    (hup : 0 ≤ up) :
    -down ≤ gfhomeParkSteps edgeZ parkZ zSpm down up ∧ gfhomeParkSteps edgeZ parkZ zSpm down up ≤ up := by
  unfold gfhomeParkSteps
  dsimp only
  split_ifs <;> omega

section

variable (cfg : Settings) (k : Keys) (envelope : Fin 3 → Option ℚ) (opened : Bool) (f : Frame)

/-- The frame that a camera home leaves. -/
abbrev cloudFrame : Frame := f.gfcloudHome cfg k envelope true opened

/-- The shift that the home adds to the edge. -/
abbrev cloudShift : ℤ := ((f.gfhomeInvalidate cfg).gftrayShiftSteps cfg k.trayOffset).1

theorem cloudFrame_position (a : Fin 3) :
    (cloudFrame cfg k envelope opened f).position a =
      lround (cloudCoordinates cfg k (cloudShift cfg k f) a * cfg.stepsPerMm a) := rfl

theorem cloudFrame_position_z :
    (cloudFrame cfg k envelope opened f).position 2 =
      gfhomeZSteps k.edgeZ (cfg.stepsPerMm 2) + cloudShift cfg k f + park cfg k :=
  (cloudFrame_position ..).trans (cfg.lround_grid _ 2)

theorem cloudFrame_position_xy {a : Fin 3} (ha : a ≠ 2) :
    (cloudFrame cfg k envelope opened f).position a =
      lround (gfhomeClampCloudHomeMm (k.home a) (-cfg.maxTravel a) * cfg.stepsPerMm a) := by
  rw [cloudFrame_position]
  obtain rfl | rfl | rfl := Stream.axis_cases a
  · rfl
  · rfl
  · exact absurd rfl ha

theorem cloudFrame_envelope_xy {a : Fin 3} (ha : a ≠ 2) :
    (cloudFrame cfg k envelope opened f).limits.envMin a =
        (if (cloudFrame cfg k envelope opened f).mm cfg a < 0 then
          (cloudFrame cfg k envelope opened f).mm cfg a else 0) ∧
      (cloudFrame cfg k envelope opened f).limits.envMax a = farEdge cfg envelope a := by
  have hmin : ∀ b : Fin 3, b ≠ 2 → (cloudFrame cfg k envelope opened f).limits.envMin b =
      if (xyAxisBits b && decide ((cloudFrame cfg k envelope opened f).mm cfg b < 0)) = true then
        (cloudFrame cfg k envelope opened f).mm cfg b else 0 := by
    intro b hb
    obtain rfl | rfl | rfl := Stream.axis_cases b
    · rfl
    · rfl
    · exact absurd rfl hb
  have hmax : ∀ b : Fin 3, b ≠ 2 →
      (cloudFrame cfg k envelope opened f).limits.envMax b = farEdge cfg envelope b := by
    intro b hb
    obtain rfl | rfl | rfl := Stream.axis_cases b
    · rfl
    · rfl
    · exact absurd rfl hb
  have hxy : xyAxisBits a = true := bne_iff_ne.2 ha
  rw [hmin a ha, hmax a ha, hxy]
  simp only [Bool.true_and, decide_eq_true_eq, and_self]

theorem cloudFrame_envelope_z :
    (cloudFrame cfg k envelope opened f).limits.envMin 2 =
        ((gfhomeZSteps k.edgeZ (cfg.stepsPerMm 2) + cloudShift cfg k f - lensStop k.below 10 - 1 : ℤ) : ℚ) /
          cfg.stepsPerMm 2 ∧
      (cloudFrame cfg k envelope opened f).limits.envMax 2 =
        ((gfhomeZSteps k.edgeZ (cfg.stepsPerMm 2) + cloudShift cfg k f + lensStop k.above 12 + 1 : ℤ) : ℚ) /
          cfg.stepsPerMm 2 :=
  ⟨rfl, rfl⟩

/-- **The near edge** reaches back to the head. Where the home is behind the origin the edge is the
home itself, and else it is the origin. -/
theorem cloudHome_near {a : Fin 3} (ha : a ≠ 2) :
    (cloudFrame cfg k envelope opened f).limits.envMin a ≤ (cloudFrame cfg k envelope opened f).mm cfg a := by
  rw [(cloudFrame_envelope_xy cfg k envelope opened f ha).1]
  split
  case isTrue => exact le_rfl
  case isFalse h => exact not_lt.1 h

/-- **The lens** is parked in its window, whatever the tray mode. The window and the park are both
taken from the edge in the frame of the mode, and the park is clamped to the free travel. -/
theorem cloudHome_lens :
    (cloudFrame cfg k envelope opened f).limits.envMin 2 < (cloudFrame cfg k envelope opened f).mm cfg 2 ∧
      (cloudFrame cfg k envelope opened f).mm cfg 2 < (cloudFrame cfg k envelope opened f).limits.envMax 2 := by
  have hwindow : -lensStop k.below 10 ≤ park cfg k ∧ park cfg k ≤ lensStop k.above 12 :=
    gfhomeParkSteps_window _ _ _ (by linarith [lensStop_pos k.below 10 (by norm_num)])
      (by linarith [lensStop_pos k.above 12 (by norm_num)])
  rw [(cloudFrame_envelope_z ..).1, (cloudFrame_envelope_z ..).2, Frame.mm, cloudFrame_position_z]
  constructor
  · exact div_lt_div_of_pos_right (by exact_mod_cast (by omega)) (cfg.scaled 2)
  · exact div_lt_div_of_pos_right (by exact_mod_cast (by omega)) (cfg.scaled 2)

variable {cfg}

/-- The far edge has room for the head exactly when the declared coordinate is less than half a
step behind its last whole step. -/
theorem cloudHome_far {a : Fin 3} (ha : a ≠ 2) (htravel : cfg.maxTravel a < 0) :
    (cloudFrame cfg k envelope opened f).mm cfg a ≤ (cloudFrame cfg k envelope opened f).limits.envMax a ↔
      gfhomeClampCloudHomeMm (k.home a) (-cfg.maxTravel a) * cfg.stepsPerMm a <
        ⌊farEdge cfg envelope a * cfg.stepsPerMm a⌋ + 1 / 2 := by
  have hspm : 0 < cfg.stepsPerMm a := cfg.scaled a
  have hroom : 0 ≤ ⌊farEdge cfg envelope a * cfg.stepsPerMm a⌋ :=
    Int.floor_nonneg.2 (mul_nonneg (farEdge_pos htravel).le hspm.le)
  rw [(cloudFrame_envelope_xy cfg k envelope opened f ha).2, Frame.mm, div_le_iff₀ hspm,
    cloudFrame_position_xy cfg k envelope opened f ha, ← Int.le_floor, lround_le_iff hroom]

/-- **A camera home stands inside its envelope** exactly when its coordinates in X and Y, held to
the travel, are less than half a step behind the last whole step of the far edge. -/
theorem cloudHome_inside (htravel : ∀ a, cfg.maxTravel a < 0) :
    (f.gfcloudHome cfg k envelope true opened).Inside cfg ↔
      ∀ a : Fin 3, a ≠ 2 →
        gfhomeClampCloudHomeMm (k.home a) (-cfg.maxTravel a) * cfg.stepsPerMm a <
          ⌊farEdge cfg envelope a * cfg.stepsPerMm a⌋ + 1 / 2 := by
  constructor
  · intro hinside a ha
    exact (cloudHome_far k envelope opened f ha (htravel a)).1 (hinside a).2
  · intro hroom a
    by_cases ha : a = 2
    · subst ha
      exact ⟨(cloudHome_lens cfg k envelope opened f).1.le, (cloudHome_lens cfg k envelope opened f).2.le⟩
    · exact ⟨cloudHome_near cfg k envelope opened f ha,
        (cloudHome_far k envelope opened f ha (htravel a)).2 (hroom a ha)⟩

end

/-! ## A home past the far edge

A config of legal keys whose camera home lands beyond the edge that it opens. -/

/-- Ten steps to the millimetre, half a metre of travel. -/
def bench : Settings := ⟨fun _ => 10, fun _ => by norm_num, fun _ => -500⟩

/-- The keys of a camera home at `x`, in front of the origin. -/
def homeAt (x : ℚ) : Keys := ⟨fun a => if a = 0 then some x else some 0, 0, 0, 0, 0, none⟩

/-- A frame that nothing has been done to. -/
def blankFrame : Frame :=
  ⟨fun _ => 0, fun _ => 0, false, ⟨fun _ => 0, fun _ => 0, noAxes, noAxes, 0, 0⟩, ⟨fun _ => 0, noAxes, .startup⟩,
    none, false, false, 0⟩

/-- A home at 20 mm, in an envelope of 60 mm. -/
theorem cloudHome_inside_sixty :
    (blankFrame.gfcloudHome bench (homeAt 20) (fun _ => some 60) true true).Inside bench :=
  (cloudHome_inside (homeAt 20) (fun _ => some 60) true blankFrame
    (show ∀ a, bench.maxTravel a < 0 by decide +kernel)).2 (by decide +kernel)

/-- **A home past its far edge**: a home at 400 mm, in an envelope of 60 mm. -/
theorem cloudHome_past_edge :
    ¬∀ (cfg : Settings) (k : Keys) (envelope : Fin 3 → Option ℚ) (opened : Bool) (f : Frame),
      (∀ a, cfg.maxTravel a < 0) → (f.gfcloudHome cfg k envelope true opened).Inside cfg := by
  intro h
  have hpast : ¬(blankFrame.gfcloudHome bench (homeAt 400) (fun _ => some 60) true true).mm bench 0 ≤
      (blankFrame.gfcloudHome bench (homeAt 400) (fun _ => some 60) true true).limits.envMax 0 := by
    decide +kernel
  exact hpast (h bench (homeAt 400) (fun _ => some 60) true blankFrame (by decide +kernel) 0).2

end Glowforge.Homing
