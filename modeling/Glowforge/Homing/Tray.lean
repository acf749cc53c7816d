import Glowforge.Homing.Limits

/-!
# Glowforge — the tray mode is a shift of the Z frame

With the tray out the floor of the cut area is lower, and the same lens stands higher above it. A
switch moves everything that says where Z is by the offset's whole half-steps, and a reference that
is taken with the tray out adds the shift itself. Here a run is compared with its twin, the same run
without its tray switches:

* **`Turn`**, **`turn`** — what a run mixes; the core refuses a motion to a Z outside the envelope.
* **`Beside`** — two heights on the step grid, a number of steps apart.
* **`Tracks`** — a frame and its twin's: every height that the driver keeps is beside the other's.
* **`turn_tracks`** — a turn of the run, and of its twin unless it is a switch.
* **`tray_is_shift`** — after every run the two differ by the shift, agree with the tray in, and a
  switch that could not be saved changes nothing.

The steps' scale stays as it is, and a position is a whole number that does not wrap; `Homing.Words`
takes the runs to the position that does.
-/

namespace Glowforge.Homing

/-! ## Runs

A run mixes tray switches, changes of the key, the homes, the lens reference and motions of Z, in
any order. -/

/-- The frame, and the key `tray_offset_mm`. -/
structure Bench where
  frame : Frame
  key : Option ℚ

inductive Turn where
  -- `M103`, and whether the marker could be saved.
  | tray (want saved opened : Bool)
  -- The offset's key changes.
  | offset (key : Option ℚ)
  -- The lens reference.
  | reference (k : Keys) (opened : Bool)
  | cloudHome (k : Keys) (envelope : Fin 3 → Option ℚ) (homed opened : Bool)
  | manualHome (k : Keys) (envelope : Fin 3 → Option ℚ) (opened : Bool)
  -- A motion of Z by `span` steps, of which `d` are counted before it ends.
  | move (span d : ℤ)

def Turn.isTray : Turn → Bool
  | .tray _ _ _ => true
  | _ => false

/-- What the core lets be planned: with a soft limit on a homed Z, no target outside the envelope. -/
def Frame.admits (cfg : Settings) (target : ℤ) (f : Frame) : Bool :=
  !(f.limits.homed 2 && f.limits.softLimits 2) ||
    (decide (f.limits.envMin 2 ≤ target / cfg.stepsPerMm 2) &&
      decide (target / cfg.stepsPerMm 2 ≤ f.limits.envMax 2))

/-- A motion of Z stops at its target or on the way there; one that is refused does not start. -/
def Frame.move (cfg : Settings) (span d : ℤ) (f : Frame) : Frame :=
  if f.admits cfg (f.position 2 + span) ∧ min 0 span ≤ d ∧ d ≤ max 0 span then
    { f with position := Function.update f.position 2 (f.position 2 + d) }
  else f

/-- The keys, with the offset that stands in the config. -/
def Keys.withOffset (k : Keys) (key : Option ℚ) : Keys := { k with trayOffset := key }

def turn (cfg : Settings) (b : Bench) : Turn → Bench
  | .tray want saved opened => { b with frame := b.frame.traySet cfg b.key want saved opened }
  | .offset key => { b with key := key }
  | .reference k opened =>
    { b with frame := b.frame.gfhomeStartupReference cfg (k.withOffset b.key) opened }
  | .cloudHome k envelope homed opened =>
    { b with frame := b.frame.gfcloudHome cfg (k.withOffset b.key) envelope homed opened }
  | .manualHome k envelope opened =>
    { b with frame := b.frame.manualHome cfg (k.withOffset b.key) envelope opened }
  | .move span d => { b with frame := b.frame.move cfg span d }

/-- The controller starts with the tray in: `gfhome_init` drops whatever reference there was. -/
def Bench.start (cfg : Settings) (position : Fin 3 → ℤ) (L : Limits) (key : Option ℚ) : Bench where
  frame := Frame.gfhomeInvalidate cfg
    { position := position
      homePosition := fun _ => 0
      zReferenced := false
      limits := L
      anchor := ⟨fun _ => 0, noAxes, .startup⟩
      file := none
      out := false
      shiftKnown := false
      shift := 0 }
  key := key

/-- A run, turn by turn. -/
def run (cfg : Settings) : Bench → List Turn → Bench := List.foldl (turn cfg)

/-! ## Two heights

All comparisons of the two runs are of heights on the step grid, in steps, so that shifts add
without rounding. -/

section

variable (cfg : Settings)

/-- Both heights are on the step grid, and the first is `n` steps above the second. -/
def Beside (n : ℤ) (z w : ℚ) : Prop :=
  ∃ m : ℤ, z = ((m + n : ℤ) : ℚ) / cfg.stepsPerMm 2 ∧ w = (m : ℚ) / cfg.stepsPerMm 2

variable {cfg} {n : ℤ} {z w : ℚ}

/-- In steps, the first is the second and `n`. -/
theorem Beside.steps (h : Beside cfg n z w) :
    z * cfg.stepsPerMm 2 = w * cfg.stepsPerMm 2 + n := by
  obtain ⟨m, rfl, rfl⟩ := h
  have hspm : cfg.stepsPerMm 2 ≠ 0 := ne_of_gt (cfg.scaled 2)
  rw [div_mul_cancel₀ _ hspm, div_mul_cancel₀ _ hspm]
  push_cast
  ring

theorem Beside.eq (h : Beside cfg 0 z w) : z = w := by
  obtain ⟨m, rfl, rfl⟩ := h
  rw [add_zero]

theorem beside_grid {x y : ℤ} (h : x = y + n) :
    Beside cfg n ((x : ℚ) / cfg.stepsPerMm 2) ((y : ℚ) / cfg.stepsPerMm 2) :=
  ⟨y, by rw [h], rfl⟩

/-- Moving the first by whole half-steps. -/
theorem Beside.gridShift (h : Beside cfg n z w) (delta : ℤ) :
    Beside cfg (n + delta) (zGridShift cfg z delta) w := by
  obtain ⟨m, rfl, rfl⟩ := h
  refine ⟨m, ?_, rfl⟩
  rw [zGridShift, cfg.lround_grid, add_assoc]

end

/-! ## The twin

The twin makes every turn but the switches. `Apart` is what the switches cannot touch, `Settled`
that the limits in force are current. -/

/-- The shift in force. -/
def Frame.trayShift (f : Frame) : ℤ := if f.out then f.shift else 0

/-- A frame whose limits stand: `gfhome_apply_z_limit` would change nothing of Z. -/
structure Frame.Settled (cfg : Settings) (f : Frame) : Prop where
  envMin : f.limits.envMin 2 = if f.zReferenced then f.limits.zEnvMin else f.mm cfg 2
  envMax : f.limits.envMax 2 = if f.zReferenced then f.limits.zEnvMax else f.mm cfg 2
  homed : f.limits.homed 2 = true
  softLimits : f.limits.softLimits 2 = true

/-- A frame and its twin's, `n` steps apart, but for the limits in force. -/
structure Apart (cfg : Settings) (n : ℤ) (f g : Frame) : Prop where
  position : f.position 2 = g.position 2 + n
  home : Beside cfg n (f.homePosition 2) (g.homePosition 2)
  referenced : f.zReferenced = g.zReferenced
  zEnvMin : f.zReferenced = true → Beside cfg n f.limits.zEnvMin g.limits.zEnvMin
  zEnvMax : f.zReferenced = true → Beside cfg n f.limits.zEnvMax g.limits.zEnvMax
  axes : f.anchor.axes = g.anchor.axes
  anchor : f.anchor.any = true → Beside cfg n (f.anchor.home 2) (g.anchor.home 2)

/-- A frame and its twin's after each of their turns. -/
structure Tracks (cfg : Settings) (f g : Frame) : Prop where
  apart : Apart cfg f.trayShift f g
  -- The shift is read when the tray goes out, and never again.
  known : f.shiftKnown = f.out
  twin : g.out = false
  settled : f.Settled cfg
  twinSettled : g.Settled cfg

/-- What the two agree on with the tray in. -/
structure SameLens (f g : Frame) : Prop where
  position : f.position 2 = g.position 2
  home : f.homePosition 2 = g.homePosition 2
  envMin : f.limits.envMin 2 = g.limits.envMin 2
  envMax : f.limits.envMax 2 = g.limits.envMax 2
  referenced : f.zReferenced = g.zReferenced
  zEnv : f.zReferenced = true →
    f.limits.zEnvMin = g.limits.zEnvMin ∧ f.limits.zEnvMax = g.limits.zEnvMax
  axes : f.anchor.axes = g.anchor.axes
  anchor : f.anchor.any = true → f.anchor.home 2 = g.anchor.home 2

/-- What differs by `n` steps. -/
structure Shifted (cfg : Settings) (n : ℤ) (f g : Frame) : Prop where
  position : f.position 2 = g.position 2 + n
  home : f.homePosition 2 * cfg.stepsPerMm 2 = g.homePosition 2 * cfg.stepsPerMm 2 + n
  envMin : f.limits.envMin 2 * cfg.stepsPerMm 2 = g.limits.envMin 2 * cfg.stepsPerMm 2 + n
  envMax : f.limits.envMax 2 * cfg.stepsPerMm 2 = g.limits.envMax 2 * cfg.stepsPerMm 2 + n
  referenced : f.zReferenced = g.zReferenced
  zEnv : f.zReferenced = true →
    f.limits.zEnvMin * cfg.stepsPerMm 2 = g.limits.zEnvMin * cfg.stepsPerMm 2 + n ∧
      f.limits.zEnvMax * cfg.stepsPerMm 2 = g.limits.zEnvMax * cfg.stepsPerMm 2 + n
  axes : f.anchor.axes = g.anchor.axes
  anchor : f.anchor.any = true →
    f.anchor.home 2 * cfg.stepsPerMm 2 = g.anchor.home 2 * cfg.stepsPerMm 2 + n

section

variable {cfg : Settings} {n : ℤ} {f g : Frame} {k : Keys} {opened : Bool}

/-! ## What a writer of the limits leaves

The envelope in force is computed from the state by the last call of every writer, so it is apart as
the state is. -/

theorem applyZLimit_settled (f : Frame) : (f.applyZLimit cfg).Settled cfg where
  envMin := by
    show Function.update f.limits.envMin 2 _ 2 = _
    rw [Function.update_self]
    rfl
  envMax := by
    show Function.update f.limits.envMax 2 _ 2 = _
    rw [Function.update_self]
    rfl
  homed := by
    show Function.update f.limits.homed 2 true 2 = true
    rw [Function.update_self]
  softLimits := by
    show (Function.update f.limits.homed 2 true 2 || f.limits.softLimits 2) = true
    rw [Function.update_self, Bool.true_or]

/-- An anchor changes no limit. -/
theorem Frame.Settled.anchorWrite (h : f.Settled cfg) (a : Anchor) :
    (f.anchorWrite opened a).Settled cfg :=
  ⟨h.envMin, h.envMax, h.homed, h.softLimits⟩

theorem Apart.applyZLimit (h : Apart cfg n f g) :
    Apart cfg n (f.applyZLimit cfg) (g.applyZLimit cfg) :=
  ⟨h.position, h.home, h.referenced, h.zEnvMin, h.zEnvMax, h.axes, h.anchor⟩

/-- Both anchors are written anew, for the same axes. -/
theorem Apart.anchorWrite (h : Apart cfg n f g) {a b : Anchor} (haxes : a.axes = b.axes)
    (hhome : Beside cfg n (a.home 2) (b.home 2)) :
    Apart cfg n (f.anchorWrite opened a) (g.anchorWrite opened b) :=
  ⟨h.position, h.home, h.referenced, h.zEnvMin, h.zEnvMax, haxes, fun _ => hhome⟩

/-- The heights where the two lenses read. -/
theorem Apart.mm (h : Apart cfg n f g) : Beside cfg n (f.mm cfg 2) (g.mm cfg 2) :=
  beside_grid h.position

/-- The limits in force are apart as what they are taken from. -/
theorem Tracks.envelope (h : Tracks cfg f g) :
    Beside cfg f.trayShift (f.limits.envMin 2) (g.limits.envMin 2) ∧
      Beside cfg f.trayShift (f.limits.envMax 2) (g.limits.envMax 2) := by
  rw [h.settled.envMin, h.settled.envMax, h.twinSettled.envMin, h.twinSettled.envMax,
    ← h.apart.referenced]
  cases href : f.zReferenced with
  | true => exact ⟨h.apart.zEnvMin href, h.apart.zEnvMax href⟩
  | false => exact ⟨h.apart.mm, h.apart.mm⟩

theorem Tracks.shifted (h : Tracks cfg f g) : Shifted cfg f.trayShift f g where
  position := h.apart.position
  home := h.apart.home.steps
  envMin := h.envelope.1.steps
  envMax := h.envelope.2.steps
  referenced := h.apart.referenced
  zEnv href := ⟨(h.apart.zEnvMin href).steps, (h.apart.zEnvMax href).steps⟩
  axes := h.apart.axes
  anchor hany := (h.apart.anchor hany).steps

/-- With the tray in nothing is between the two. -/
theorem Tracks.sameLens (h : Tracks cfg f g) (hin : f.out = false) : SameLens f g := by
  have hzero : f.trayShift = 0 := by rw [Frame.trayShift, hin]; rfl
  obtain ⟨hmin, hmax⟩ := h.envelope
  have hapart := h.apart
  rw [hzero] at hmin hmax hapart
  exact ⟨hapart.position.trans (add_zero _), hapart.home.eq, hmin.eq, hmax.eq, hapart.referenced,
    fun href => ⟨(hapart.zEnvMin href).eq, (hapart.zEnvMax href).eq⟩, hapart.axes,
    fun hany => (hapart.anchor hany).eq⟩

/-- Reading the shift of a frame that knows it. -/
theorem gftrayShiftSteps_eq (hknown : f.shiftKnown = f.out) (key : Option ℚ) :
    f.gftrayShiftSteps cfg key = (f.trayShift, f) := by
  unfold Frame.gftrayShiftSteps Frame.trayShift
  rw [hknown]
  cases f.out <;> rfl

theorem Tracks.gftrayShiftSteps_twin (h : Tracks cfg f g) (key : Option ℚ) :
    g.gftrayShiftSteps cfg key = (0, g) := by
  unfold Frame.gftrayShiftSteps
  rw [h.twin]
  rfl

/-! ## The turns of both

A turn that both make. A reference that is taken with the tray out adds the shift, and the twin's
does not. -/

theorem Apart.gfhomeInvalidate (h : Apart cfg n f g) :
    Apart cfg n (f.gfhomeInvalidate cfg) (g.gfhomeInvalidate cfg) :=
  Apart.applyZLimit ⟨h.position, h.home, rfl, by rintro ⟨⟩, by rintro ⟨⟩, rfl, by rintro ⟨⟩⟩

theorem Tracks.gfhomeInvalidate (h : Tracks cfg f g) :
    Tracks cfg (f.gfhomeInvalidate cfg) (g.gfhomeInvalidate cfg) :=
  ⟨h.apart.gfhomeInvalidate, h.known, h.twin, applyZLimit_settled _, applyZLimit_settled _⟩

/-- The windows that open around two edges. -/
theorem beside_openLens (cfg : Settings) {e e' : ℤ} (h : e = e' + n) (below above : ℤ) (L M : Limits) :
    Beside cfg n (L.openLens cfg e below above).zEnvMin (M.openLens cfg e' below above).zEnvMin ∧
      Beside cfg n (L.openLens cfg e below above).zEnvMax (M.openLens cfg e' below above).zEnvMax :=
  ⟨beside_grid (by omega), beside_grid (by omega)⟩

/-- A lens reference adds the shift itself. -/
theorem Tracks.gfhomeStartupReference (h : Tracks cfg f g) :
    Tracks cfg (f.gfhomeStartupReference cfg k opened) (g.gfhomeStartupReference cfg k opened) := by
  unfold Frame.gfhomeStartupReference Frame.gfhomeReferenceZ
  rw [gftrayShiftSteps_eq h.known, h.gftrayShiftSteps_twin]
  generalize gfhomeZSteps k.edgeZ (cfg.stepsPerMm 2) = e
  have hhome : Beside cfg f.trayShift
      (Function.update f.homePosition 2 (((e + f.trayShift : ℤ) : ℚ) / cfg.stepsPerMm 2) 2)
      (Function.update g.homePosition 2 (((e + 0 : ℤ) : ℚ) / cfg.stepsPerMm 2) 2) := by
    rw [Function.update_self, Function.update_self]
    exact beside_grid (by omega)
  have hlens := beside_openLens cfg (show e + f.trayShift = e + 0 + f.trayShift by omega)
    (lensStop k.below 10) (lensStop k.above 12) f.limits g.limits
  refine ⟨⟨?_, hhome, rfl, fun _ => hlens.1, fun _ => hlens.2, rfl, fun _ => hhome⟩, h.known, h.twin,
    (applyZLimit_settled _).anchorWrite _, (applyZLimit_settled _).anchorWrite _⟩
  show Function.update f.position 2 (e + f.trayShift) 2 = Function.update g.position 2 (e + 0) 2 + f.trayShift
  rw [Function.update_self, Function.update_self, add_zero]

/-- A camera home declares the edge's height and the park, with the shift. -/
theorem Tracks.gfcloudHomed {envelope : Fin 3 → Option ℚ} (h : Tracks cfg f g) :
    Tracks cfg (f.gfcloudHomed cfg k envelope opened) (g.gfcloudHomed cfg k envelope opened) := by
  have hz : ∀ n : ℤ, lround (cloudCoordinates cfg k n 2 * cfg.stepsPerMm 2) =
      gfhomeZSteps k.edgeZ (cfg.stepsPerMm 2) + n + park cfg k := fun n => cfg.lround_grid _ 2
  unfold Frame.gfcloudHomed
  rw [gftrayShiftSteps_eq h.known, h.gftrayShiftSteps_twin]
  have hhome : Beside cfg f.trayShift
      (lround (cloudCoordinates cfg k f.trayShift 2 * cfg.stepsPerMm 2) / cfg.stepsPerMm 2)
      (lround (cloudCoordinates cfg k 0 2 * cfg.stepsPerMm 2) / cfg.stepsPerMm 2) := by
    rw [hz, hz]
    exact beside_grid (by omega)
  have hlens := beside_openLens cfg
    (show gfhomeZSteps k.edgeZ (cfg.stepsPerMm 2) + f.trayShift =
      gfhomeZSteps k.edgeZ (cfg.stepsPerMm 2) + 0 + f.trayShift by omega)
    (lensStop k.below 10) (lensStop k.above 12) f.limits g.limits
  -- named, so that the two frames are not compared whole
  have hreferenced : true = true := rfl
  have haxes : (fun _ : Fin 3 => true) = fun _ => true := rfl
  refine ⟨⟨?_, hhome, hreferenced, fun _ => hlens.1, fun _ => hlens.2, haxes, fun _ => hhome⟩, h.known, h.twin,
    (applyZLimit_settled _).anchorWrite _, (applyZLimit_settled _).anchorWrite _⟩
  show lround (cloudCoordinates cfg k f.trayShift 2 * cfg.stepsPerMm 2) =
    lround (cloudCoordinates cfg k 0 2 * cfg.stepsPerMm 2) + f.trayShift
  rw [hz, hz]
  ring

theorem Tracks.gfcloudHome {envelope : Fin 3 → Option ℚ} {homed : Bool} (h : Tracks cfg f g) :
    Tracks cfg (f.gfcloudHome cfg k envelope homed opened) (g.gfcloudHome cfg k envelope homed opened) := by
  cases homed with
  | true => exact h.gfhomeInvalidate.gfcloudHomed
  | false => exact h.gfhomeInvalidate

/-- A manual home leaves the lens as it is, and anchors it where it reads. -/
theorem Tracks.manualHome {envelope : Fin 3 → Option ℚ} (h : Tracks cfg f g) :
    Tracks cfg (f.manualHome cfg k envelope opened) (g.manualHome cfg k envelope opened) :=
  ⟨⟨h.apart.position, h.apart.home, h.apart.referenced, h.apart.zEnvMin, h.apart.zEnvMax,
    by
      show (fun a => xyAxisBits a || f.zReferenced) = fun a => xyAxisBits a || g.zReferenced
      rw [h.apart.referenced],
    fun _ => h.apart.mm⟩,
    h.known, h.twin, (applyZLimit_settled _).anchorWrite _, (applyZLimit_settled _).anchorWrite _⟩

/-! ## The switch

The one turn that the twin leaves out: it moves everything of the run by the shift, and nothing of
the twin. -/

/-- The frame moves by `delta`, and its twin's stays. -/
theorem Apart.gfhomeTrayShift (h : Apart cfg n f g) (delta : ℤ) :
    Apart cfg (n + delta) (f.gfhomeTrayShift cfg opened delta) g := by
  have hposition : Function.update f.position 2 (f.position 2 + delta) 2 = g.position 2 + (n + delta) := by
    rw [Function.update_self, h.position, add_assoc]
  have hhome : Beside cfg (n + delta)
      (Function.update f.homePosition 2 (zGridShift cfg (f.homePosition 2) delta) 2) (g.homePosition 2) := by
    rw [Function.update_self]
    exact h.home.gridShift delta
  have hlimits : f.zReferenced = true →
      Beside cfg (n + delta)
          (if f.zReferenced then f.limits.shiftLens cfg delta else f.limits).zEnvMin g.limits.zEnvMin ∧
        Beside cfg (n + delta)
          (if f.zReferenced then f.limits.shiftLens cfg delta else f.limits).zEnvMax g.limits.zEnvMax := by
    intro href
    rw [if_pos href]
    exact ⟨(h.zEnvMin href).gridShift delta, (h.zEnvMax href).gridShift delta⟩
  unfold Frame.gfhomeTrayShift
  dsimp only
  generalize (if f.zReferenced then f.limits.shiftLens cfg delta else f.limits) = L at hlimits ⊢
  split
  case isTrue hany =>
    refine ⟨hposition, hhome, h.referenced, fun href => (hlimits href).1, fun href => (hlimits href).2,
      h.axes, fun _ => ?_⟩
    show Beside cfg (n + delta)
      (Function.update f.anchor.home 2 (zGridShift cfg (f.anchor.home 2) delta) 2) (g.anchor.home 2)
    rw [Function.update_self]
    exact (h.anchor hany).gridShift delta
  case isFalse hany =>
    exact ⟨hposition, hhome, h.referenced, fun href => (hlimits href).1, fun href => (hlimits href).2,
      h.axes, fun h => absurd h hany⟩

theorem gfhomeTrayShift_settled (delta : ℤ) : (f.gfhomeTrayShift cfg opened delta).Settled cfg := by
  unfold Frame.gfhomeTrayShift
  dsimp only
  generalize (if f.zReferenced then f.limits.shiftLens cfg delta else f.limits) = L
  split
  · exact (applyZLimit_settled _).anchorWrite _
  · exact applyZLimit_settled _

theorem gfhomeTrayShift_mode (cfg : Settings) (opened : Bool) (delta : ℤ) (f : Frame) :
    (f.gfhomeTrayShift cfg opened delta).out = f.out ∧
      (f.gfhomeTrayShift cfg opened delta).shiftKnown = f.shiftKnown ∧
      (f.gfhomeTrayShift cfg opened delta).shift = f.shift := by
  unfold Frame.gfhomeTrayShift
  dsimp only
  generalize (if f.zReferenced then f.limits.shiftLens cfg delta else f.limits) = L
  split <;> exact ⟨rfl, rfl, rfl⟩

/-- A switch that could not be saved. -/
theorem traySet_unsaved (hknown : f.shiftKnown = f.out) (key : Option ℚ) (want : Bool) :
    f.traySet cfg key want false opened = f := by
  unfold Frame.traySet
  rw [gftrayShiftSteps_eq hknown]
  cases want <;> simp

theorem Tracks.traySet (h : Tracks cfg f g) (key : Option ℚ) (want saved : Bool) :
    Tracks cfg (f.traySet cfg key want saved opened) g := by
  cases saved with
  | false =>
    rw [traySet_unsaved h.known]
    exact h
  | true =>
    unfold Frame.traySet
    rw [gftrayShiftSteps_eq h.known]
    split
    case isTrue => exact h
    case isFalse hwant =>
      dsimp only
      rw [if_pos rfl, ite_self]
      generalize hdelta : (if want = true then offsetSteps cfg key else -f.trayShift) = delta
      -- Out, the offset is the shift; in, the shift that was is taken back.
      have hshift : (if want = true then delta else 0) = f.trayShift + delta := by
        subst hdelta
        cases want with
        | true =>
          have hzero : f.trayShift = 0 := by
            rw [Frame.trayShift, if_neg fun hout => hwant hout.symm]
          rw [hzero, zero_add, if_pos rfl]
        | false =>
          rw [if_neg (by decide), if_neg (by decide), add_neg_cancel]
      have hmoved : Apart cfg f.trayShift
          { f with out := want, shift := if want = true then delta else 0, shiftKnown := want } g :=
        ⟨h.apart.position, h.apart.home, h.apart.referenced, h.apart.zEnvMin, h.apart.zEnvMax,
          h.apart.axes, h.apart.anchor⟩
      obtain ⟨hout, hknown, hkept⟩ := gfhomeTrayShift_mode cfg opened delta
        { f with out := want, shift := if want = true then delta else 0, shiftKnown := want }
      refine ⟨?_, hknown.trans hout.symm, h.twin, gfhomeTrayShift_settled delta, h.twinSettled⟩
      have hnew : (Frame.gfhomeTrayShift cfg opened delta
          { f with out := want, shift := if want = true then delta else 0, shiftKnown := want }).trayShift =
            f.trayShift + delta := by
        rw [Frame.trayShift, hout, hkept, ← hshift]
        cases want <;> rfl
      rw [hnew]
      exact hmoved.gfhomeTrayShift delta

/-! ## Motion

Both cores admit the same motions, since the target and the envelope are apart alike. -/

theorem Beside.le_iff {z w : ℚ} (h : Beside cfg n z w) (t : ℤ) :
    (z ≤ ((t + n : ℤ) : ℚ) / cfg.stepsPerMm 2 ↔ w ≤ (t : ℚ) / cfg.stepsPerMm 2) ∧
      (((t + n : ℤ) : ℚ) / cfg.stepsPerMm 2 ≤ z ↔ (t : ℚ) / cfg.stepsPerMm 2 ≤ w) := by
  obtain ⟨m, rfl, rfl⟩ := h
  simp only [div_le_div_iff_of_pos_right (cfg.scaled 2), Int.cast_le]
  omega

/-- The core lets the same motions be planned. -/
theorem Tracks.admits (h : Tracks cfg f g) (t : ℤ) :
    f.admits cfg (t + f.trayShift) = g.admits cfg t := by
  obtain ⟨hmin, hmax⟩ := h.envelope
  unfold Frame.admits
  rw [h.settled.homed, h.settled.softLimits, h.twinSettled.homed, h.twinSettled.softLimits,
    decide_eq_decide.2 (hmin.le_iff t).1, decide_eq_decide.2 (hmax.le_iff t).2]

/-- The core lets an unreferenced lens stay where it is, and no more. -/
theorem Frame.Settled.held (h : f.Settled cfg) (href : f.zReferenced = false) {t : ℤ}
    (hadmits : f.admits cfg t = true) : t = f.position 2 := by
  unfold Frame.admits at hadmits
  rw [h.homed, h.softLimits, h.envMin, h.envMax, href] at hadmits
  simp only [Bool.and_self, Bool.not_true, Bool.false_or, Bool.false_eq_true, if_false, Bool.and_eq_true,
    decide_eq_true_eq, Frame.mm, div_le_div_iff_of_pos_right (cfg.scaled 2), Int.cast_le] at hadmits
  omega

theorem Frame.Settled.move (h : f.Settled cfg) (span d : ℤ) : (f.move cfg span d).Settled cfg := by
  unfold Frame.move
  split
  case isFalse => exact h
  case isTrue hmove =>
    obtain ⟨hadmits, hlo, hhi⟩ := hmove
    by_cases href : f.zReferenced = true
    · have hmin := h.envMin
      have hmax := h.envMax
      rw [if_pos href] at hmin hmax
      exact ⟨hmin.trans (if_pos href).symm, hmax.trans (if_pos href).symm, h.homed, h.softLimits⟩
    · -- The motion is none.
      have hspan := h.held (by simpa using href) hadmits
      have hnone : Function.update f.position 2 (f.position 2 + d) = f.position := by
        rw [show d = 0 by omega, add_zero, Function.update_eq_self]
      rw [hnone]
      exact h

theorem Tracks.move (h : Tracks cfg f g) (span d : ℤ) :
    Tracks cfg (f.move cfg span d) (g.move cfg span d) := by
  have hadmits : f.admits cfg (f.position 2 + span) = g.admits cfg (g.position 2 + span) := by
    rw [← h.admits, h.apart.position, add_right_comm]
  have hsettled := h.settled.move span d
  have htwin := h.twinSettled.move span d
  unfold Frame.move at hsettled htwin ⊢
  rw [hadmits] at hsettled ⊢
  split
  case isFalse => exact h
  case isTrue hmove =>
    rw [if_pos hmove] at hsettled htwin
    refine ⟨⟨?_, h.apart.home, h.apart.referenced, h.apart.zEnvMin, h.apart.zEnvMax, h.apart.axes,
      h.apart.anchor⟩, h.known, h.twin, hsettled, htwin⟩
    show Function.update f.position 2 (f.position 2 + d) 2 =
      Function.update g.position 2 (g.position 2 + d) 2 + f.trayShift
    rw [Function.update_self, Function.update_self, h.apart.position, add_right_comm]

/-! ## The runs

The induction over the turns, the twin's list being the run's without its switches. -/

theorem start_tracks (position : Fin 3 → ℤ) (L : Limits) (key : Option ℚ) :
    Tracks cfg (Bench.start cfg position L key).frame (Bench.start cfg position L key).frame where
  apart := ⟨(add_zero _).symm, ⟨0, by simp [Bench.start, Frame.gfhomeInvalidate, Frame.applyZLimit,
    Frame.trayShift], by simp [Bench.start, Frame.gfhomeInvalidate, Frame.applyZLimit]⟩, rfl,
        by rintro ⟨⟩,
    (by rintro ⟨⟩), rfl, by rintro ⟨⟩⟩
  known := rfl
  twin := rfl
  settled := applyZLimit_settled _
  twinSettled := applyZLimit_settled _

/-- A turn of the run is its twin's too, unless it is a switch. -/
theorem turn_tracks {b c : Bench} (h : Tracks cfg b.frame c.frame) (hkey : b.key = c.key) (t : Turn) :
    Tracks cfg (turn cfg b t).frame (if t.isTray then c else turn cfg c t).frame ∧
      (turn cfg b t).key = (if t.isTray then c else turn cfg c t).key := by
  cases t with
  | tray want saved opened => exact ⟨h.traySet b.key want saved, hkey⟩
  | offset key => exact ⟨h, rfl⟩
  | reference k opened =>
    dsimp only [turn, Turn.isTray]
    rw [hkey]
    exact ⟨h.gfhomeStartupReference, rfl⟩
  | cloudHome k envelope homed opened =>
    dsimp only [turn, Turn.isTray]
    rw [hkey]
    exact ⟨h.gfcloudHome, rfl⟩
  | manualHome k envelope opened =>
    dsimp only [turn, Turn.isTray]
    rw [hkey]
    exact ⟨h.manualHome, rfl⟩
  | move span d => exact ⟨h.move span d, hkey⟩

theorem run_tracks {b c : Bench} (h : Tracks cfg b.frame c.frame) (hkey : b.key = c.key)
    (turns : List Turn) :
    Tracks cfg (run cfg b turns).frame (run cfg c (turns.filter fun t => !t.isTray)).frame := by
  induction turns generalizing b c with
  | nil => exact h
  | cons t turns ih =>
    obtain ⟨htracks, hkeys⟩ := turn_tracks h hkey t
    cases htray : t.isTray with
    | true =>
      rw [htray, if_pos rfl] at htracks hkeys
      rw [List.filter_cons_of_neg (by simp [htray])]
      exact ih htracks hkeys
    | false =>
      rw [htray, if_neg Bool.false_ne_true] at htracks hkeys
      rw [List.filter_cons_of_pos (by simp [htray])]
      exact ih htracks hkeys

end

/-- **The tray mode is a shift of the Z frame.** A run that starts with the tray in, and the same
run without its switches: all that says where Z is differs by the shift's steps, and by nothing
with the tray in again. A switch that cannot be saved leaves all as it is. -/
theorem tray_is_shift (cfg : Settings) (position : Fin 3 → ℤ) (L : Limits) (key : Option ℚ)
    (turns : List Turn) :
    let b := run cfg (Bench.start cfg position L key) turns
    let c := run cfg (Bench.start cfg position L key) (turns.filter fun t => !t.isTray)
    Shifted cfg (b.frame.gftrayShiftSteps cfg b.key).1 b.frame c.frame ∧
      (b.frame.out = false → SameLens b.frame c.frame) ∧
      ∀ want opened, turn cfg b (.tray want false opened) = b := by
  intro b c
  have h : Tracks cfg b.frame c.frame := run_tracks (start_tracks position L key) rfl turns
  refine ⟨?_, h.sameLens, fun want opened => ?_⟩
  · rw [gftrayShiftSteps_eq h.known]
    exact h.shifted
  · exact congrArg (fun f => ({ b with frame := f } : Bench)) (traySet_unsaved h.known b.key want)

end Glowforge.Homing
