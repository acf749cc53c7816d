import Glowforge.Dose.Apply
import Mathlib.Data.Rat.Floor
import Mathlib.Tactic.Positivity

/-!
# Glowforge — the power of a segment (`glowforge_laser.c`)

The core asks for the power byte of a segment by its S word. Under a curve the answer is the curve's:
the S word is a fraction of light, a head that is slower than programmed asks for less of it, and the
density that gives this light becomes the byte, inside the bounds of `$35` and `$36`.

* **`curveComputeValue`** — the wrapper around the core's own computation.
* **`gammaLoad`** — the key that bends it.
* **`Powf`** — what the C library says of `powf`.
* **`dose_mono`**, **`dose_saturates`** — the curve over all light, also past its end.
* **`curveComputeValue_mono`** — the byte never falls where the S word or the speed of the head rises,
  and never leaves the bounds, whatever the config says.
-/

namespace Glowforge.Dose

open Piecewise

/-! ## The wrapper

`curveComputeValue` stands between the core and its own computation of the byte. It hands over an S
word bent through the curve, and what comes back is the byte. -/

/-- `PWM_PERIOD`: the hardware's counts in one period. -/
def pwmPeriod : ℕ := 127

/-- The registered spindle's range. -/
structure Spindle where
  rpmMin : ℚ
  rpmMax : ℚ

/-- `spindle_pwm_t`, as far as the wrapper reads it. -/
structure SpindlePwm where
  rpmMin : ℚ
  minValue : ℕ
  maxValue : ℕ

/-- The corner rolloff: the velocity ratio of the segment, bent by the exponent. -/
def rolloff (powf : ℚ → ℚ → ℚ) (gamma : ℚ) (rateRatio : Option ℚ) : ℚ :=
  match rateRatio with
  | some ratio => if gamma ≠ 1 ∧ 0 < ratio ∧ ratio < 1 then powf ratio (gamma - 1) else 1
  | none => 1

/-- The light that a speed asks for, as a fraction. -/
def lightOf (powf : ℚ → ℚ → ℚ) (gamma : ℚ) (spindle : Spindle) (rateRatio : Option ℚ) (rpm : ℚ) : ℚ :=
  min 1 ((rpm - spindle.rpmMin) / (spindle.rpmMax - spindle.rpmMin)) * rolloff powf gamma rateRatio

/-- A density as a byte, rounded to the nearest one. -/
def valueOf (pwm : SpindlePwm) (density : ℚ) : ℕ :=
  max pwm.minValue (min pwm.maxValue ⌊density * pwmPeriod + 1 / 2⌋.toNat)

/-- `curveComputeValue`, around the core's computation. -/
def curveComputeValue (powf : ℚ → ℚ → ℚ) (coreCompute : SpindlePwm → ℚ → ℕ) (c : DoseCurve) (gamma : ℚ)
    (spindle : Option Spindle) (rateRatio : Option ℚ) (pwm : SpindlePwm) (rpm : ℚ) : ℕ :=
  match spindle with
  | some spindle =>
    if c.points ≠ [] ∧ pwm.rpmMin < rpm ∧ spindle.rpmMin < spindle.rpmMax then
      valueOf pwm (dose c (lightOf powf gamma spindle rateRatio rpm))
    else coreCompute pwm rpm
  | none => coreCompute pwm rpm

/-! ## The keys

The exponent of the corner is a number from the config, and one that is out of range is the default. -/

/-- `gfio_conf_read_float`, of the text that the key has. -/
def confFloat (text : Option (List UInt8)) (fallback : ℚ) : ℚ :=
  match text.bind strtof with
  | some (q, _) => q
  | none => fallback

def gammaDefault : ℚ := 2

/-- `gamma_load`: the exponent in force. -/
def gammaLoad (text : Option (List UInt8)) : ℚ :=
  let g := confFloat text gammaDefault
  if 1 / 4 ≤ g ∧ g ≤ 4 then g else gammaDefault

/-- Whatever the key says, the exponent is one that bends a corner. -/
theorem gammaLoad_range (text : Option (List UInt8)) : 1 / 4 ≤ gammaLoad text ∧ gammaLoad text ≤ 4 := by
  rw [gammaLoad]
  split
  · next h => exact h
  · exact ⟨by norm_num [gammaDefault], by norm_num [gammaDefault]⟩

/-! ## Light past the end of the curve

The curve is monotone over all light, also where it saturates, so a brighter S word never asks for
less. -/

variable {c : DoseCurve} {x y : ℚ}

theorem dose_mono (h : Sound c.points) (hxy : x ≤ y) : dose c x ≤ dose c y := by
  have hmono := interp_mono (rising_knots h) (show x * 100 ≤ y * 100 by linarith)
  rw [dose_eq h, dose_eq h]
  linarith

/-- From full light on, the curve gives what its last point has. -/
theorem dose_saturates (h : Sound c.points) (x : ℚ) (hy : 1 ≤ y) : dose c x ≤ dose c y := by
  have hrising := rising_knots h
  have hne : c.points ≠ [] := fun hnil => by
    have hcount := h.count.1
    rw [hnil] at hcount
    exact absurd hcount (by decide)
  have hlast : (c.points.map knot).getLastD (knot origin) = knot (c.points.getLast hne) := by
    rw [List.getLastD_map, List.getLastD_eq_getLast?, List.getLast?_eq_some_getLast hne]
    rfl
  have hmem : c.points.getLast hne ∈ c.points := List.getLast_mem hne
  have hle := interp_le_last hrising (x * 100)
  rw [hlast] at hle
  have hfull : (c.points.getLast hne).light ≤ y * 100 := (h.range _ hmem).2.2.2.trans (by linarith)
  have hknot := interp_knot hrising (List.mem_cons_of_mem _ (List.mem_map_of_mem hmem))
  have hend := interp_mono hrising hfull
  rw [show (c.points.getLast hne).light = (knot (c.points.getLast hne)).1 from rfl, hknot] at hend
  rw [dose_eq h, dose_eq h]
  exact div_le_div_of_nonneg_right (hle.trans hend) (by norm_num)

theorem valueOf_mono (pwm : SpindlePwm) (hxy : x ≤ y) : valueOf pwm x ≤ valueOf pwm y := by
  have hfloor : ⌊x * pwmPeriod + 1 / 2⌋ ≤ ⌊y * pwmPeriod + 1 / 2⌋ := by
    refine Int.floor_le_floor ?_
    have hperiod : (0 : ℚ) ≤ pwmPeriod := by norm_num [pwmPeriod]
    have := mul_le_mul_of_nonneg_right hxy hperiod
    linarith
  have hnat := Int.toNat_le_toNat hfloor
  rw [valueOf, valueOf]
  omega

theorem valueOf_bounds (pwm : SpindlePwm) (h : pwm.minValue ≤ pwm.maxValue) (x : ℚ) :
    pwm.minValue ≤ valueOf pwm x ∧ valueOf pwm x ≤ pwm.maxValue := by
  rw [valueOf]
  omega

/-! ## The corner

The rolloff is a power of the velocity ratio. What the C library says of `powf` is a hypothesis,
which a concrete function meets below. -/

/-- **What the C library says of `powf`**, for a base up to 1: a power is positive, it moves with the
base by the sign of its exponent, and one more in the exponent is one more factor. -/
structure Powf (powf : ℚ → ℚ → ℚ) : Prop where
  pos : ∀ r e, 0 < r → 0 < powf r e
  one : ∀ e, powf 1 e = 1
  zero : ∀ r, powf r 0 = 1
  up : ∀ r s e, 0 ≤ e → 0 < r → r ≤ s → s ≤ 1 → powf r e ≤ powf s e
  down : ∀ r s e, e ≤ 0 → 0 < r → r ≤ s → s ≤ 1 → powf s e ≤ powf r e
  succ : ∀ r e, 0 < r → powf r (e + 1) = r * powf r e

variable {powf : ℚ → ℚ → ℚ} {gamma r s : ℚ}

/-- The rolloff is the power, also where the code leaves it out. -/
theorem rolloff_eq (h : Powf powf) (hr : 0 < r) (hr1 : r ≤ 1) :
    rolloff powf gamma (some r) = powf r (gamma - 1) := by
  rw [rolloff]
  split
  · rfl
  · next hnot =>
    by_cases hgamma : gamma = 1
    · rw [hgamma, sub_self, h.zero]
    · have hone : r = 1 := le_antisymm hr1 (not_lt.1 fun hlt => hnot ⟨hgamma, hr, hlt⟩)
      rw [hone, h.one]

variable {spindle : Spindle} {S S' : ℚ}

/-- More speed or a higher S word asks for more light, or for all that there is. -/
theorem lightOf_mono (h : Powf powf) (hgamma : 0 ≤ gamma) (hlo : 0 ≤ spindle.rpmMin)
    (hrange : spindle.rpmMin < spindle.rpmMax) (hS : S ≤ S') (hr : 0 < r) (hrs : r ≤ s) (hs : s ≤ 1)
    (hon : spindle.rpmMin < S * r) :
    lightOf powf gamma spindle (some r) (S * r) ≤ lightOf powf gamma spindle (some s) (S' * s) ∨
      1 ≤ lightOf powf gamma spindle (some s) (S' * s) := by
  have hspan : 0 < spindle.rpmMax - spindle.rpmMin := sub_pos.2 hrange
  have hspos : 0 < s := hr.trans_le hrs
  have hSpos : 0 < S := by
    by_contra hneg
    have := mul_nonpos_of_nonpos_of_nonneg (not_lt.1 hneg) hr.le
    linarith
  have hspeed : S * r ≤ S' * s := mul_le_mul hS hrs hr.le (hSpos.le.trans hS)
  have hpr := h.pos r (gamma - 1) hr
  have hps := h.pos s (gamma - 1) hspos
  rw [lightOf, lightOf, rolloff_eq h hr (hrs.trans hs), rolloff_eq h hspos hs]
  rcases le_total 1 gamma with hup | hdown
  · -- Both factors rise with the speed.
    have hpow := h.up r s (gamma - 1) (by linarith) hr hrs hs
    refine .inl (mul_le_mul (min_le_min_left 1 ?_) hpow hpr.le ?_)
    · gcongr
    · refine le_min zero_le_one (div_nonneg ?_ hspan.le)
      linarith
  · -- The power falls, and its product with the speed does not.
    have hpow := h.down r s (gamma - 1) (by linarith) hr hrs hs
    have hfull := h.down s 1 (gamma - 1) (by linarith) hspos hs le_rfl
    rw [h.one] at hfull
    rcases le_total 1 ((S' * s - spindle.rpmMin) / (spindle.rpmMax - spindle.rpmMin)) with hcap | hcap
    · rw [min_eq_left hcap, one_mul]
      exact .inr hfull
    · refine .inl ?_
      have hrise := h.up r s gamma hgamma hr hrs hs
      have hstep := h.succ r (gamma - 1) hr
      have hstep' := h.succ s (gamma - 1) hspos
      rw [sub_add_cancel] at hstep hstep'
      have hlow : spindle.rpmMin * powf s (gamma - 1) ≤ spindle.rpmMin * powf r (gamma - 1) :=
        mul_le_mul_of_nonneg_left hpow hlo
      have hhigh : S * powf r gamma ≤ S' * powf s gamma :=
        mul_le_mul hS hrise (h.pos r gamma hr).le (hSpos.le.trans hS)
      rw [min_eq_right hcap]
      calc min 1 ((S * r - spindle.rpmMin) / (spindle.rpmMax - spindle.rpmMin)) * powf r (gamma - 1)
          ≤ (S * r - spindle.rpmMin) / (spindle.rpmMax - spindle.rpmMin) * powf r (gamma - 1) :=
            mul_le_mul_of_nonneg_right (min_le_right _ _) hpr.le
        _ = (S * powf r gamma - spindle.rpmMin * powf r (gamma - 1)) /
              (spindle.rpmMax - spindle.rpmMin) := by rw [hstep]; ring
        _ ≤ (S' * powf s gamma - spindle.rpmMin * powf s (gamma - 1)) /
              (spindle.rpmMax - spindle.rpmMin) := by gcongr
        _ = (S' * s - spindle.rpmMin) / (spindle.rpmMax - spindle.rpmMin) * powf s (gamma - 1) := by
            rw [hstep']; ring

/-! ## The value -/

/-- A curve that is on is one of sound points. -/
theorem curveLoad_sound (file : Option (List UInt8)) (curve : DoseCurve)
    (hcurve : (curveLoad file curve).points ≠ []) : Sound (curveLoad file curve).points := by
  unfold curveLoad at hcurve ⊢
  generalize Conf.gfioConfRead file curveKey 192 [] = read at hcurve ⊢
  obtain ⟨r, text⟩ := read
  dsimp only at hcurve ⊢
  split
  · exact sound_curveDefault
  · next hset =>
    split
    · next hoff =>
      rw [if_neg hset, if_pos hoff] at hcurve
      exact absurd rfl hcurve
    · split
      · next haccepted =>
        have hparse : curveParse text curve = (true, (curveParse text curve).2) := Prod.ext haccepted rfl
        obtain ⟨items, -, hsound, hitems⟩ := curveParse_iff.1 hparse
        rw [hitems]
        exact hsound
      · exact sound_curveDefault

/-- **The byte of a segment is monotone and bounded**, in exact arithmetic and with a power that has the laws
of one (`Powf`), whatever the config says of the exponent, and of a curve that is not off: over the spindle's
least speed a higher S word, and a head that is closer to its programmed speed, never give less, and no
segment leaves the bounds of `$35` and `$36`. The code rounds to single precision, where one byte less can
come of it. -/
theorem curveComputeValue_mono (hpowf : Powf powf) (coreCompute : SpindlePwm → ℚ → ℕ)
    (file : Option (List UInt8)) (curve : DoseCurve) (text : Option (List UInt8)) {pwm : SpindlePwm}
    (hlo : 0 ≤ spindle.rpmMin) (hrange : spindle.rpmMin < spindle.rpmMax)
    (hpwm : pwm.rpmMin = spindle.rpmMin) (hbounds : pwm.minValue ≤ pwm.maxValue)
    (hcurve : (curveLoad file curve).points ≠ []) (hS : S ≤ S') (hr : 0 < r) (hrs : r ≤ s) (hs : s ≤ 1)
    (hon : pwm.rpmMin < S * r) :
    pwm.minValue ≤ curveComputeValue powf coreCompute (curveLoad file curve) (gammaLoad text)
        (some spindle) (some r) pwm (S * r) ∧
      curveComputeValue powf coreCompute (curveLoad file curve) (gammaLoad text) (some spindle) (some r) pwm
          (S * r) ≤
        curveComputeValue powf coreCompute (curveLoad file curve) (gammaLoad text) (some spindle) (some s) pwm
          (S' * s) ∧
      curveComputeValue powf coreCompute (curveLoad file curve) (gammaLoad text) (some spindle) (some s) pwm
          (S' * s) ≤ pwm.maxValue := by
  have hsound := curveLoad_sound file curve hcurve
  have hgamma : 0 ≤ gammaLoad text := le_trans (by norm_num) (gammaLoad_range text).1
  have hSpos : 0 ≤ S := by
    by_contra hneg
    have := mul_nonpos_of_nonpos_of_nonneg (not_le.1 hneg).le hr.le
    linarith
  have hspeed : S * r ≤ S' * s := mul_le_mul hS hrs hr.le (hSpos.trans hS)
  rw [curveComputeValue, curveComputeValue, if_pos ⟨hcurve, hon, hrange⟩,
    if_pos ⟨hcurve, hon.trans_le hspeed, hrange⟩]
  refine ⟨(valueOf_bounds pwm hbounds _).1, valueOf_mono pwm ?_, (valueOf_bounds pwm hbounds _).2⟩
  rw [hpwm] at hon
  rcases lightOf_mono hpowf hgamma hlo hrange hS hr hrs hs hon with hle | hfull
  · exact dose_mono hsound hle
  · exact dose_saturates hsound _ hfull

/-- A power by whole exponents, for the tests. -/
def wholePow (r e : ℚ) : ℚ := r ^ ⌊e⌋

theorem powf_wholePow : Powf wholePow := by
  constructor
  · intro r e hr
    exact zpow_pos hr _
  · intro e
    exact one_zpow _
  · intro r
    rw [wholePow, Int.floor_zero, zpow_zero]
  · intro r s e he hr hrs _
    exact zpow_le_zpow_left₀ (Int.floor_nonneg.2 he) hr.le hrs
  · intro r s e he hr hrs _
    have hfloor : ⌊e⌋ ≤ 0 := by
      have := Int.floor_le_floor he
      rwa [Int.floor_zero] at this
    obtain ⟨n, hn⟩ := Int.exists_eq_neg_ofNat hfloor
    rw [wholePow, wholePow, hn, zpow_neg, zpow_neg, zpow_natCast, zpow_natCast]
    gcongr
  · intro r e hr
    rw [wholePow, wholePow, Int.floor_add_one, zpow_add_one₀ hr.ne', mul_comm]

/-- Half speed under the defaults, against full speed. -/
theorem curveComputeValue_mono_half :
    curveComputeValue wholePow (fun _ _ => 0) (curveLoad none curveDefault) (gammaLoad none)
        (some ⟨0, 1000⟩) (some (1 / 2)) ⟨0, 13, 127⟩ (800 * (1 / 2)) ≤
      curveComputeValue wholePow (fun _ _ => 0) (curveLoad none curveDefault) (gammaLoad none)
        (some ⟨0, 1000⟩) (some 1) ⟨0, 13, 127⟩ (800 * 1) :=
  (curveComputeValue_mono powf_wholePow (fun _ _ => 0) none curveDefault none (by norm_num) (by norm_num) rfl
    (by decide) (by decide) le_rfl (by norm_num) (by norm_num) le_rfl (by norm_num)).2.1

end Glowforge.Dose
