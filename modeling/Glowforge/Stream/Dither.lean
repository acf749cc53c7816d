import Glowforge.Lib.Diffusion
import Glowforge.Stream.Machine

/-!
# Glowforge — the dither conserves the dose

The density model renders a level as one burst in each base period, and carries what a period
cannot express. The library's error diffusion is that computation over natural numbers; here the
32-bit one is shown to be it, for every model that `gf_stream_laser_model` puts in force.

* **`streamRate`** — the rates that the engine admits.
* **`ditherAt`**, **`ditherLit`** — a run of uninterrupted calls of `dither_tick`.
* **`DoseConserved`** — what the lit ticks, the carry and the levels have to do with each other.
* **`dose_conserved_iff`** — that holds exactly where the conversion of the minimum leaves one.

A minimum that is a multiple of 2^32 stream ticks converts to none (`dose_lost_without_minimum`).
-/

namespace Glowforge.Stream

/-! ## The rates -/

/-- The XY microstep modes that `gfio_xy_mode_parse` takes. -/
inductive XyMode where
  | x8
  | x16
  | x32
deriving DecidableEq, Repr

/-- The mode over x8. -/
def gfioXyScaleOf : XyMode → Nat
  | .x8 => 1
  | .x16 => 2
  | .x32 => 4

def gfioXyTickHzOf (mode : XyMode) : Nat := gfTickX8Hz * gfioXyScaleOf mode

/-- `GFSINK_RATE_MIN` and `GFSINK_RATE_MAX`. -/
def gfsinkRateMin : Int := 1000
def gfsinkRateMax : Int := 165000

/-- The machine tick of the engine's start; `opt` is the number in `GFSINK_RATE`, if it is set. -/
def streamRate (mode : XyMode) : Option Int → Nat
  | some v => if v ≥ gfsinkRateMin ∧ v ≤ gfsinkRateMax then v.toNat else gfioXyTickHzOf mode
  | none => gfioXyTickHzOf mode

theorem streamRate_le (mode : XyMode) (opt : Option Int) :
    1000 ≤ streamRate mode opt ∧ streamRate mode opt ≤ 165000 := by
  have htick : 1000 ≤ gfioXyTickHzOf mode ∧ gfioXyTickHzOf mode ≤ 165000 := by
    cases mode <;> decide
  unfold streamRate
  split
  · split
    · next hbounds =>
      simp only [gfsinkRateMin, gfsinkRateMax] at hbounds
      omega
    · exact htick
  · exact htick

/-! ## A run of calls

Calls of `dither_tick` with nothing in between, the level of each given. -/

/-- One call of `dither_tick` with the level `power` in force. -/
def ditherCall (power : UInt8) (g : Gf) : Gf × Bool := ditherTick { g with curPower := power }

/-- The record behind `n` calls; `level` is what is in force at each. -/
def ditherAt (level : Nat → UInt8) (g : Gf) : Nat → Gf
  | 0 => g
  | n + 1 => (ditherCall (level n) (ditherAt level g n)).1

/-- Whether call `n` fires. -/
def ditherLit (level : Nat → UInt8) (g : Gf) (n : Nat) : Bool :=
  (ditherCall (level n) (ditherAt level g n)).2

/-- The lit ticks of the first `n` calls. -/
def litTicks (level : Nat → UInt8) (g : Gf) (n : Nat) : Nat := (List.range n).countP (ditherLit level g)

/-- **The dose is conserved** behind the record `g`, whose dither has just been reset. -/
structure DoseConserved (level : Nat → UInt8) (g : Gf) : Prop where
  dose : ∀ m, 127 * litTicks level g (m * g.dithPeriod.toNat) +
      (ditherAt level g (m * g.dithPeriod.toNat)).dithAcc.toNat =
    ∑ k ∈ Finset.range m, (level (k * g.dithPeriod.toNat)).toNat * g.dithPeriod.toNat
  carry : ∀ n, (ditherAt level g n).dithAcc.toNat < 127 * g.dithMin.toNat
  -- each period leads with its burst
  bursts : ∀ m, ∃ on, (on = 0 ∨ g.dithMin.toNat ≤ on ∧ on ≤ g.dithPeriod.toNat) ∧
    ∀ i < g.dithPeriod.toNat, ditherLit level g (m * g.dithPeriod.toNat + i) = decide (i < on)
  -- what a period asks for fits the 32 bits, and so does every part of it
  whole : ∀ n, (level n).toNat * g.dithPeriod.toNat + (ditherAt level g n).dithAcc.toNat < 2 ^ 32

/-! ## One period

Inside a period the calls count down; at its end the next one is opened with what was carried. -/

section Period

variable {P M : Nat}

/-- The record stands `i` ticks into a period of `on` lit ticks, and the period's carry is `acc`. -/
structure InPeriod (P M on acc i : Nat) (g : Gf) : Prop where
  period : g.dithPeriod.toNat = P
  minimum : g.dithMin.toNat = M
  left : g.dithLeft.toNat = P - i
  on : g.dithOn.toNat = on - i
  acc : g.dithAcc.toNat = acc

/-- `dither_tick` behind the start of a period. -/
def ditherCount (g : Gf) : Gf × Bool :=
  let g := { g with dithLeft := g.dithLeft - 1 }
  if g.dithOn ≠ 0 then ({ g with dithOn := g.dithOn - 1 }, true) else (g, false)

theorem ditherTick_eq (g : Gf) : ditherTick g = ditherCount (if g.dithLeft = 0 then ditherPeriod g else g) := rfl

theorem toNat_pred {x : UInt32} (h : 0 < x.toNat) : (x - 1).toNat = x.toNat - 1 := by
  have hone : (1 : UInt32) ≤ x := UInt32.le_iff_toNat_le.mpr h
  rw [UInt32.toNat_sub_of_le _ _ hone]
  rfl

theorem toNat_ne_zero {x : UInt32} : x ≠ 0 ↔ 0 < x.toNat := by
  rw [Nat.pos_iff_ne_zero, ne_eq, ne_eq, ← UInt32.toNat_inj]
  rfl

/-- **One tick**: the on-ticks lead the period. -/
theorem InPeriod.count {on acc i : Nat} {g : Gf} (h : InPeriod P M on acc i g) (hi : i < P) :
    InPeriod P M on acc (i + 1) (ditherCount g).1 ∧ (ditherCount g).2 = decide (i < on) := by
  have hleft : (g.dithLeft - 1).toNat = P - (i + 1) := by
    rw [toNat_pred (by rw [h.left]; omega), h.left]
    omega
  simp only [ditherCount]
  split
  · next hon =>
    have hpos : 0 < g.dithOn.toNat := toNat_ne_zero.mp hon
    have hlt : i < on := by
      rw [h.on] at hpos
      omega
    refine ⟨⟨h.period, h.minimum, hleft, ?_, h.acc⟩, (decide_eq_true hlt).symm⟩
    change (g.dithOn - 1).toNat = on - (i + 1)
    rw [toNat_pred hpos, h.on]
    omega
  · next hoff =>
    have hzero : g.dithOn.toNat = 0 := by
      rw [toNat_ne_zero] at hoff
      omega
    have hle : ¬i < on := by
      rw [h.on] at hzero
      omega
    refine ⟨⟨h.period, h.minimum, hleft, ?_, h.acc⟩, (decide_eq_false hle).symm⟩
    change g.dithOn.toNat = on - (i + 1)
    omega

/-- A tick in the middle of a period does not read the level. -/
theorem InPeriod.call {on acc i : Nat} {g : Gf} {power : UInt8} (h : InPeriod P M on acc i g) (hi : i < P) :
    InPeriod P M on acc (i + 1) (ditherCall power g).1 ∧ (ditherCall power g).2 = decide (i < on) := by
  have hleft : ¬g.dithLeft = 0 := toNat_ne_zero.mpr (by rw [h.left]; omega)
  rw [ditherCall, ditherTick_eq, if_neg hleft]
  exact InPeriod.count ⟨h.period, h.minimum, h.left, h.on, h.acc⟩ hi

/-- What a period of the density model asks for. -/
theorem want_lt {level acc : Nat} (hlevel : level ≤ 127) (hacc : acc < 127 * M) (hmin : M ≤ P)
    (hP : P ≤ 10000000) : level * P + acc < 2 ^ 32 := by
  have hmul : level * P ≤ 127 * P := Nat.mul_le_mul_right P hlevel
  have hcarry : 127 * M ≤ 127 * P := Nat.mul_le_mul_left 127 hmin
  omega

/-- **A period begins** with the burst of the library's diffusion. -/
theorem ditherPeriod_inPeriod {acc : Nat} {g : Gf} (hperiod : g.dithPeriod.toNat = P)
    (hminimum : g.dithMin.toNat = M) (hcarry : g.dithAcc.toNat = acc) (hlevel : g.curPower.toNat ≤ 127)
    (hacc : acc < 127 * M) (hmin : M ≤ P) (hP : P ≤ 10000000) :
    InPeriod P M (Diffusion.emit 127 P M (g.curPower.toNat * P) acc).1
      (Diffusion.emit 127 P M (g.curPower.toNat * P) acc).2 0 (ditherPeriod g) := by
  have hwant : (g.curPower.toUInt32 * g.dithPeriod + g.dithAcc).toNat = g.curPower.toNat * P + acc := by
    have hlt := want_lt hlevel hacc hmin hP
    rw [UInt32.toNat_add, UInt32.toNat_mul, UInt8.toNat_toUInt32, hperiod, hcarry]
    rw [Nat.mod_eq_of_lt (show g.curPower.toNat * P < 2 ^ 32 by omega), Nat.mod_eq_of_lt hlt]
  have hunit : gfPwmPeriod.toUInt32.toNat = 127 := rfl
  have hon : ((g.curPower.toUInt32 * g.dithPeriod + g.dithAcc) / gfPwmPeriod.toUInt32).toNat =
      (g.curPower.toNat * P + acc) / 127 := by
    rw [UInt32.toNat_div, hwant, hunit]
  simp only [ditherPeriod, Diffusion.emit]
  by_cases hshort : (g.curPower.toNat * P + acc) / 127 < M
  · have hshort32 : (g.curPower.toUInt32 * g.dithPeriod + g.dithAcc) / gfPwmPeriod.toUInt32 < g.dithMin := by
      rw [UInt32.lt_iff_toNat_lt, hon, hminimum]
      exact hshort
    rw [if_pos hshort, if_pos hshort32]
    exact ⟨hperiod, hminimum, hperiod, rfl, hwant⟩
  · have hlong32 : ¬(g.curPower.toUInt32 * g.dithPeriod + g.dithAcc) / gfPwmPeriod.toUInt32 < g.dithMin := by
      rw [UInt32.lt_iff_toNat_lt, hon, hminimum]
      exact hshort
    rw [if_neg hshort, if_neg hlong32]
    -- a period cannot overfill
    have hfill : (if (g.curPower.toUInt32 * g.dithPeriod + g.dithAcc) / gfPwmPeriod.toUInt32 > g.dithPeriod then
        g.dithPeriod else (g.curPower.toUInt32 * g.dithPeriod + g.dithAcc) / gfPwmPeriod.toUInt32).toNat =
        min ((g.curPower.toNat * P + acc) / 127) P := by
      split
      · next hover =>
        have hgt : P < (g.curPower.toNat * P + acc) / 127 := by
          have hnat := UInt32.lt_iff_toNat_lt.mp hover
          rwa [hon, hperiod] at hnat
        rw [hperiod, Nat.min_eq_right (Nat.le_of_lt hgt)]
      · next hfits =>
        have hle : (g.curPower.toNat * P + acc) / 127 ≤ P := by
          have hnat := UInt32.lt_iff_toNat_lt.not.mp hfits
          rw [hon, hperiod] at hnat
          exact Nat.le_of_not_lt hnat
        rw [hon, Nat.min_eq_left hle]
    refine ⟨hperiod, hminimum, hperiod, hfill, ?_⟩
    generalize (if (g.curPower.toUInt32 * g.dithPeriod + g.dithAcc) / gfPwmPeriod.toUInt32 > g.dithPeriod then
        g.dithPeriod else (g.curPower.toUInt32 * g.dithPeriod + g.dithAcc) / gfPwmPeriod.toUInt32) = on at hfill
    have hle : min ((g.curPower.toNat * P + acc) / 127) P * 127 ≤ g.curPower.toNat * P + acc :=
      (Nat.mul_le_mul_right _ (Nat.min_le_left _ _)).trans (Nat.div_mul_le_self _ _)
    have hlt := want_lt hlevel hacc hmin hP
    have hmul : (on * gfPwmPeriod.toUInt32).toNat = min ((g.curPower.toNat * P + acc) / 127) P * 127 := by
      rw [UInt32.toNat_mul, hunit, hfill]
      exact Nat.mod_eq_of_lt (lt_of_le_of_lt hle hlt)
    change (g.curPower.toUInt32 * g.dithPeriod + g.dithAcc - on * gfPwmPeriod.toUInt32).toNat = _
    rw [UInt32.toNat_sub_of_le _ _ (by rw [UInt32.le_iff_toNat_le, hmul, hwant]; exact hle), hmul, hwant]

/-- **The first tick of a period.** It opens with the burst, if there is one, and the count of the
period starts over. -/
theorem InPeriod.next {on acc : Nat} {g : Gf} {power : UInt8} (h : InPeriod P M on acc P g)
    (hlevel : power.toNat ≤ 127) (hacc : acc < 127 * M) (hmin : M ≤ P) (hP : P ≤ 10000000) (hpos : 0 < P) :
    InPeriod P M (Diffusion.emit 127 P M (power.toNat * P) acc).1
        (Diffusion.emit 127 P M (power.toNat * P) acc).2 1 (ditherCall power g).1 ∧
      (ditherCall power g).2 = decide (0 < (Diffusion.emit 127 P M (power.toNat * P) acc).1) := by
  have hzero : g.dithLeft = 0 := by
    by_contra hne
    have hleft := toNat_ne_zero.mp hne
    rw [h.left] at hleft
    omega
  rw [ditherCall, ditherTick_eq, if_pos hzero]
  exact InPeriod.count (ditherPeriod_inPeriod (g := { g with curPower := power }) h.period h.minimum h.acc
    hlevel hacc hmin hP) hpos

end Period

/-! ## A run of periods

Each period is one step of the library's error diffusion, over natural numbers; nothing of it wraps
under a model that is in force. -/

section Run

variable {level : Nat → UInt8} {g : Gf}

/-- What a period asks for, by the level read at its start. -/
def ditherDemand (level : Nat → UInt8) (g : Gf) (m : Nat) : Nat :=
  (level (m * g.dithPeriod.toNat)).toNat * g.dithPeriod.toNat

/-- The carry ahead of period `m`. -/
def ditherCarried (level : Nat → UInt8) (g : Gf) (m : Nat) : Nat :=
  Diffusion.carried 127 g.dithPeriod.toNat g.dithMin.toNat (ditherDemand level g) m

/-- The burst of period `m`, and the carry behind it. -/
def ditherBurst (level : Nat → UInt8) (g : Gf) (m : Nat) : Nat × Nat :=
  Diffusion.emit 127 g.dithPeriod.toNat g.dithMin.toNat (ditherDemand level g m) (ditherCarried level g m)

/-- A model in force: a period that fits, and a minimum inside it. -/
structure ModelInForce (g : Gf) : Prop where
  minimum : 0 < g.dithMin.toNat
  inside : g.dithMin.toNat ≤ g.dithPeriod.toNat
  fits : g.dithPeriod.toNat ≤ 10000000
  left : g.dithLeft = 0
  on : g.dithOn = 0
  acc : g.dithAcc = 0

theorem ditherDemand_le (hlevel : ∀ n, (level n).toNat ≤ 127) (m : Nat) :
    ditherDemand level g m ≤ g.dithPeriod.toNat * 127 := by
  rw [ditherDemand, Nat.mul_comm]
  exact Nat.mul_le_mul_left _ (hlevel _)

theorem ditherCarried_lt (h : ModelInForce g) (hlevel : ∀ n, (level n).toNat ≤ 127) (m : Nat) :
    ditherCarried level g m < 127 * g.dithMin.toNat := by
  rw [Nat.mul_comm]
  exact Diffusion.carried_lt h.minimum (by decide) (ditherDemand_le hlevel) m

/-- **Inside period `m`**: behind its first tick and up to its last one. -/
theorem ditherAt_period (h : ModelInForce g) (hlevel : ∀ n, (level n).toNat ≤ 127) {m on : Nat}
    (hstart : InPeriod g.dithPeriod.toNat g.dithMin.toNat on (ditherCarried level g m) g.dithPeriod.toNat
      (ditherAt level g (m * g.dithPeriod.toNat))) {i : Nat} (hi : i < g.dithPeriod.toNat) :
    InPeriod g.dithPeriod.toNat g.dithMin.toNat (ditherBurst level g m).1 (ditherBurst level g m).2 (i + 1)
        (ditherAt level g (m * g.dithPeriod.toNat + i + 1)) ∧
      ditherLit level g (m * g.dithPeriod.toNat + i) = decide (i < (ditherBurst level g m).1) := by
  induction i with
  | zero =>
    exact hstart.next (hlevel _) (ditherCarried_lt h hlevel m) h.inside h.fits hi
  | succ i ih => exact (ih (Nat.lt_of_succ_lt hi)).1.call hi

/-- **The start of period `m`.** -/
theorem ditherAt_start (h : ModelInForce g) (hlevel : ∀ n, (level n).toNat ≤ 127) (m : Nat) :
    ∃ on, InPeriod g.dithPeriod.toNat g.dithMin.toNat on (ditherCarried level g m) g.dithPeriod.toNat
      (ditherAt level g (m * g.dithPeriod.toNat)) := by
  have hpos : 0 < g.dithPeriod.toNat := Nat.lt_of_lt_of_le h.minimum h.inside
  induction m with
  | zero =>
    rw [Nat.zero_mul]
    refine ⟨0, rfl, rfl, ?_, ?_, ?_⟩
    · rw [ditherAt, h.left, Nat.sub_self]
      rfl
    · rw [ditherAt, h.on, Nat.zero_sub]
      rfl
    · rw [ditherAt, h.acc]
      rfl
  | succ m ih =>
    obtain ⟨on, hstart⟩ := ih
    have hend := (ditherAt_period h hlevel hstart (Nat.sub_lt hpos Nat.one_pos)).1
    have hlast : g.dithPeriod.toNat - 1 + 1 = g.dithPeriod.toNat := Nat.sub_add_cancel hpos
    rw [Nat.add_assoc, hlast, ← Nat.succ_mul] at hend
    exact ⟨_, hend⟩

theorem countP_burst {on period : Nat} (hon : on ≤ period) :
    (List.range period).countP (fun i => decide (i < on)) = on := by
  have hmin : ∀ n, (List.range n).countP (fun i => decide (i < on)) = min on n := by
    intro n
    induction n with
    | zero => simp
    | succ n ih =>
      rw [List.range_succ, List.countP_append, ih, List.countP_singleton]
      split
      · next hlt =>
        have hlt' : n < on := of_decide_eq_true hlt
        omega
      · next hge =>
        have hge' : ¬n < on := fun hlt => hge (decide_eq_true hlt)
        omega
  rw [hmin, Nat.min_eq_left hon]

/-- The lit ticks of a period are its burst. -/
theorem litTicks_period (h : ModelInForce g) (hlevel : ∀ n, (level n).toNat ≤ 127) (m : Nat) :
    litTicks level g ((m + 1) * g.dithPeriod.toNat) =
      litTicks level g (m * g.dithPeriod.toNat) + (ditherBurst level g m).1 := by
  obtain ⟨on, hstart⟩ := ditherAt_start h hlevel m
  have hfits : (ditherBurst level g m).1 ≤ g.dithPeriod.toNat := by
    have hcases : (ditherBurst level g m).1 = 0 ∨
        g.dithMin.toNat ≤ (ditherBurst level g m).1 ∧ (ditherBurst level g m).1 ≤ g.dithPeriod.toNat :=
      Diffusion.emit_burst h.inside
    rcases hcases with hnone | hburst
    · exact hnone.le.trans (Nat.zero_le _)
    · exact hburst.2
  rw [litTicks, litTicks, Nat.succ_mul, List.range_add, List.countP_append, List.countP_map]
  congr 1
  rw [← countP_burst hfits]
  refine List.countP_congr fun i hi => ?_
  rw [Function.comp_apply, (ditherAt_period h hlevel hstart (List.mem_range.mp hi)).2]

theorem litTicks_periods (h : ModelInForce g) (hlevel : ∀ n, (level n).toNat ≤ 127) (m : Nat) :
    litTicks level g (m * g.dithPeriod.toNat) = ∑ k ∈ Finset.range m, (ditherBurst level g k).1 := by
  induction m with
  | zero =>
    rw [Nat.zero_mul]
    rfl
  | succ m ih => rw [litTicks_period h hlevel, ih, Finset.sum_range_succ]

/-- **A model in force conserves the dose.** Over whole periods the ticks lit and the carry are what
the levels asked for, and the carry stays below what the minimum is worth. -/
theorem ModelInForce.conserved (h : ModelInForce g) (hlevel : ∀ n, (level n).toNat ≤ 127) :
    DoseConserved level g := by
  have hpos : 0 < g.dithPeriod.toNat := Nat.lt_of_lt_of_le h.minimum h.inside
  have hcarry : ∀ n, (ditherAt level g n).dithAcc.toNat < 127 * g.dithMin.toNat := by
    intro n
    obtain ⟨on, hstart⟩ := ditherAt_start h hlevel (n / g.dithPeriod.toNat)
    have hsplit : n = n / g.dithPeriod.toNat * g.dithPeriod.toNat + n % g.dithPeriod.toNat :=
      (Nat.div_add_mod' n _).symm
    cases hrest : n % g.dithPeriod.toNat with
    | zero =>
      rw [hrest, Nat.add_zero] at hsplit
      rw [hsplit, hstart.acc]
      exact ditherCarried_lt h hlevel _
    | succ i =>
      have hi : i < g.dithPeriod.toNat := by
        have hmod := Nat.mod_lt n hpos
        omega
      rw [hrest, ← Nat.add_assoc] at hsplit
      rw [hsplit, (ditherAt_period h hlevel hstart hi).1.acc]
      exact ditherCarried_lt h hlevel (n / g.dithPeriod.toNat + 1)
  refine ⟨fun m => ?_, hcarry, fun m => ?_, fun n => ?_⟩
  · obtain ⟨on, hstart⟩ := ditherAt_start h hlevel m
    rw [litTicks_periods h hlevel, hstart.acc]
    exact Diffusion.carried_conserves m
  · obtain ⟨on, hstart⟩ := ditherAt_start h hlevel m
    exact ⟨(ditherBurst level g m).1, Diffusion.emit_burst h.inside,
      fun i hi => (ditherAt_period h hlevel hstart hi).2⟩
  · exact want_lt (hlevel n) (hcarry n) h.inside h.fits

end Run

/-! ## The models that are put in force

The conversion from reference ticks to the stream's, and the one minimum that it loses. -/

/-- The ticks that a count of reference ticks converts to, before the result is cut to 32 bits. -/
def convertedTicks (refTicks : UInt32) (rate : Nat) : Nat := (refTicks.toNat * rate + 14080) / 28160

/-- A period of the density model converts to at least one tick and far less than the 32 bits. -/
theorem refTicksToStream_period {periodTicks : UInt32} {g : Gf} (hperiod : periodTicks ≤ dithPeriodMax)
    (hrate : g.rate ≤ 165000) :
    0 < (refTicksToStream periodTicks g).toNat ∧ (refTicksToStream periodTicks g).toNat ≤ 10000000 := by
  have hmax : periodTicks.toNat ≤ 1024 := UInt32.le_iff_toNat_le.mp hperiod
  have hmul : periodTicks.toNat * g.rate ≤ 1024 * 165000 := Nat.mul_le_mul hmax hrate
  have hfits : convertedTicks periodTicks g.rate ≤ 10000 := by
    unfold convertedTicks
    omega
  change 0 < (if convertedTicks periodTicks g.rate < 1 then (1 : UInt32)
      else UInt32.ofNat (convertedTicks periodTicks g.rate)).toNat ∧ (if convertedTicks periodTicks g.rate < 1
      then (1 : UInt32) else UInt32.ofNat (convertedTicks periodTicks g.rate)).toNat ≤ 10000000
  split
  · exact ⟨by decide, by decide⟩
  · have hnat : (UInt32.ofNat (convertedTicks periodTicks g.rate)).toNat = convertedTicks periodTicks g.rate :=
      Nat.mod_eq_of_lt (by omega)
    rw [hnat]
    omega

/-- The minimum converts to none where it is a multiple of 2^32. -/
theorem refTicksToStream_eq_zero {minTicks : UInt32} {g : Gf} :
    refTicksToStream minTicks g = 0 ↔
      convertedTicks minTicks g.rate ≠ 0 ∧ convertedTicks minTicks g.rate % 2 ^ 32 = 0 := by
  change (if convertedTicks minTicks g.rate < 1 then (1 : UInt32)
    else UInt32.ofNat (convertedTicks minTicks g.rate)) = 0 ↔ _
  split
  · next hnone =>
    refine ⟨fun h => absurd h (by decide), fun h => absurd hnone ?_⟩
    omega
  · next hsome =>
    rw [← UInt32.toNat_inj]
    change convertedTicks minTicks g.rate % 2 ^ 32 = 0 ↔ _
    exact ⟨fun h => ⟨by omega, h⟩, fun h => h.2⟩

/-- What the arm puts in force for the density model. -/
theorem gfStreamLaserModel_density {periodTicks minTicks : UInt32} {g : Gf} (hdensity : periodTicks ≠ 0)
    (hrate : g.rate ≤ 165000) :
    ∃ period, 0 < period.toNat ∧ period.toNat ≤ 10000000 ∧
      (gfStreamLaserModel periodTicks minTicks g).dithPeriod = period ∧
      (gfStreamLaserModel periodTicks minTicks g).dithMin =
        (if refTicksToStream (if minTicks < 1 then 1 else minTicks) g > period then period
          else refTicksToStream (if minTicks < 1 then 1 else minTicks) g) ∧
      (gfStreamLaserModel periodTicks minTicks g).dithLeft = 0 ∧
      (gfStreamLaserModel periodTicks minTicks g).dithOn = 0 ∧
      (gfStreamLaserModel periodTicks minTicks g).dithAcc = 0 := by
  have hcapped : (if periodTicks > dithPeriodMax then dithPeriodMax else periodTicks) ≠ 0 ∧
      (if periodTicks > dithPeriodMax then dithPeriodMax else periodTicks) ≤ dithPeriodMax := by
    split
    · exact ⟨by decide, UInt32.le_refl _⟩
    · next hfits => exact ⟨hdensity, UInt32.not_lt.mp hfits⟩
  obtain ⟨hnonzero, hle⟩ := hcapped
  obtain ⟨hpos, hsmall⟩ := refTicksToStream_period hle hrate
  have hperiod : refTicksToStream (if periodTicks > dithPeriodMax then dithPeriodMax else periodTicks) g ≠ 0 :=
    toNat_ne_zero.mpr hpos
  refine ⟨_, hpos, hsmall, ?_⟩
  simp only [gfStreamLaserModel, hnonzero, ne_eq, not_false_eq_true, if_true, hperiod, ditherReset]
  exact ⟨trivial, trivial, trivial, trivial, trivial⟩

/-- **The dose is conserved** at every rate that the engine admits and for every period and minimum that
the arm puts in force, over every sequence of levels, exactly where the conversion of the minimum leaves
one. -/
theorem dose_conserved_iff (mode : XyMode) (opt : Option Int) (g : Gf) (periodTicks minTicks : UInt32)
    (level : Nat → UInt8) (hrate : g.rate = streamRate mode opt) (hdensity : periodTicks ≠ 0)
    (hlevel : ∀ n, (level n).toNat ≤ 127) :
    DoseConserved level (gfStreamLaserModel periodTicks minTicks g) ↔
      convertedTicks (if minTicks < 1 then 1 else minTicks) g.rate = 0 ∨
        convertedTicks (if minTicks < 1 then 1 else minTicks) g.rate % 2 ^ 32 ≠ 0 := by
  have hadmitted : g.rate ≤ 165000 := hrate ▸ (streamRate_le mode opt).2
  obtain ⟨period, hpos, hsmall, hperiod, hmin, hleft, hon, hacc⟩ :=
    @gfStreamLaserModel_density periodTicks minTicks g hdensity hadmitted
  -- the minimum as it is converted, never below one reference tick
  generalize (if minTicks < 1 then 1 else minTicks) = minimum at hmin ⊢
  have hnone : refTicksToStream minimum g = 0 ↔ _ := refTicksToStream_eq_zero
  constructor
  · intro h
    by_contra hlost
    simp only [not_or, ne_eq, not_not] at hlost
    have hzero := hnone.mpr hlost
    -- a carry is never below nothing
    have hcarry := h.carry 0
    rw [hmin, hzero, if_neg (by simp)] at hcarry
    exact Nat.not_lt_zero _ hcarry
  · intro h
    have hsome : refTicksToStream minimum g ≠ 0 := by
      intro hzero
      obtain ⟨h1, h2⟩ := hnone.mp hzero
      exact h.elim h1 fun h3 => h3 h2
    have hforce : ModelInForce (gfStreamLaserModel periodTicks minTicks g) := by
      refine ⟨?_, ?_, by rw [hperiod]; exact hsmall, hleft, hon, hacc⟩
      · rw [hmin]
        split
        · exact hpos
        · exact toNat_ne_zero.mp hsome
      · rw [hmin, hperiod]
        split
        · exact Nat.le_refl _
        · next hfits => exact UInt32.le_iff_toNat_le.mp (UInt32.not_lt.mp hfits)
    exact hforce.conserved hlevel

/-- The x16 mode's record, before any model. -/
def x16Gf : Gf := { Gf.init ⟨false, true, streamRate .x16 none, 100⟩ with streaming := false }

/-- The theorem at the factory's print setting: a period of 2.4 ms, a pulse of at least 0.7 ms, and a
level that rises. -/
theorem dose_conserved_print :
    DoseConserved (fun n => if n < 100 then 3 else 64) (gfStreamLaserModel 68 20 x16Gf) :=
  (dose_conserved_iff .x16 none x16Gf 68 20 (fun n => if n < 100 then 3 else 64) rfl (by decide)
    (by intro n; split <;> decide)).mpr (by decide)

/-- **A minimum of 2^31 reference ticks is none at the x16 rate**: it converts to 2^32 stream ticks, and
no carry is below 127 times nothing. -/
theorem dose_lost_without_minimum :
    ¬∀ (mode : XyMode) (opt : Option Int) (g : Gf) (periodTicks minTicks : UInt32) (level : Nat → UInt8),
      g.rate = streamRate mode opt → periodTicks ≠ 0 → (∀ n, (level n).toNat ≤ 127) →
        DoseConserved level (gfStreamLaserModel periodTicks minTicks g) := by
  intro hall
  have hcarry := (hall .x16 none x16Gf 68 2147483648 (fun _ => 64) rfl (by decide) fun _ => by decide).carry 0
  exact absurd hcarry (by decide +kernel)

end Glowforge.Stream
