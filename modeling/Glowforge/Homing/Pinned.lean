import Glowforge.Homing.Envelope
import Glowforge.Homing.Lens

/-!
# Glowforge — an unreferenced lens is pinned

A lens that has lost its reference may not be moved, since nothing says how far it is from its
stops. The driver leaves the Z soft limit on and closes the envelope to the one height where the lens
reads, so the core refuses every motion of Z.

* **`careful`** — a step that finds no motion of Z in its way: a fault and an acknowledged underrun
  drop the reference with none under way, and no read-back drops a step of an unreferenced Z.
* **`unreferenced_lens_pinned`** — careful runs keep an unreferenced lens pinned, and no motion of Z
  can be planned.
* **`pinned_iff_still`** — in every run the pin is true exactly when the steps counted and dropped
  since the limits were applied come to nothing.
* **`underrun_leaves_pin_behind`** — the shipper drops the reference in the middle of a motion, and
  the lens ends a step from its pin.
-/

namespace Glowforge.Homing

open Glowforge.Stream (readbackAnswer gfStreamKernelIdle)

/-! ## Careful steps

A careful step finds no motion of Z in its way, so the lens is where its pin is when the limits are
applied and stays there. -/

def careful (s : Lens) : LensLabel → Bool
  | .machine (.stream l) _ => !invalidates s.machine.stream l || !s.zMoving
  | .machine (.readback expired) _ =>
    match readbackAnswer expired s.machine.stream.gf with
    | some (rc, unplayed) => s.machine.home.zReferenced || decide (rc ≤ 0) || unplayed 2 == 0
    | none => true
  | _ => true

/-- **An unreferenced lens is held**: pinned, checked, and not on its way. -/
structure Lens.Held (s : Lens) : Prop where
  pinned : s.Pinned
  checked : s.Checked
  still : s.zMoving = false

/-- The core refuses to send a pinned lens anywhere else. -/
theorem Lens.Held.admits {s : Lens} (h : s.Held) {z : ℚ} (hadmits : s.admits z = true) : z = s.z := by
  unfold Lens.admits at hadmits
  rw [h.checked.homed, h.checked.softLimits, h.pinned.envMin, h.pinned.envMax] at hadmits
  simp only [Bool.and_self, Bool.not_true, Bool.false_or, Bool.and_eq_true, decide_eq_true_eq] at hadmits
  exact le_antisymm hadmits.2 hadmits.1

/-- So a motion that it plans is none of Z. -/
theorem Lens.Held.plan_still {s : Lens} (h : s.Held) {z : ℚ} (hadmits : s.admits z = true) :
    UInt32.ofInt (lround (z * s.cfg.stepsPerMm 2)) = s.machine.home.position 2 := by
  rw [h.admits hadmits]
  exact congrFun (s.cfg.steps_mm s.machine.home.position) 2

/-- Where the position stays, the pin does. -/
theorem Lens.Pinned.kept {s t : Lens} (h : s.Pinned) (hcfg : t.cfg = s.cfg) (hlimits : t.limits = s.limits)
    (hposition : t.machine.home.position 2 = s.machine.home.position 2) : t.Pinned := by
  have hz : t.z = s.z := by rw [Lens.z, Lens.z, hcfg, Settings.mm, Settings.mm, hposition]
  exact ⟨by rw [hlimits, hz, h.envMin], by rw [hlimits, hz, h.envMax]⟩

section

variable {s t : Lens} {l : LensLabel}

/-- A held lens moves by no step. -/
theorem Lens.Held.moved (h : s.Held) (href : s.machine.home.zReferenced = false)
    (hcareful : careful s l = true) (hstep : lensStep s l = some t) : s.moved l = 0 := by
  cases l with
  | machine l envelope =>
    simp only [lensStep] at hstep
    split at hstep
    case isFalse => cases hstep
    case isTrue hpermits =>
      cases l with
      | stream l =>
        rw [Lens.permits, h.still, Bool.false_or] at hpermits
        exact beq_iff_eq.1 hpermits
      | readback expired =>
        simp only [careful, href, Bool.false_or] at hcareful
        simp only [Lens.moved]
        cases hanswer : readbackAnswer expired s.machine.stream.gf with
        | none => rfl
        | some answer =>
          obtain ⟨rc, unplayed⟩ := answer
          rw [hanswer] at hcareful
          by_cases hrc : rc > 0
          · have hzero : unplayed 2 = 0 := by simpa [not_le.2 hrc] using hcareful
            simp [hrc, hzero]
          · simp [hrc]
      | _ => rfl
  | _ => rfl

/-- A turn that pins an unreferenced lens finds no motion of Z under way, or ends it. -/
theorem pins_still (hcareful : careful s l = true) (hstep : lensStep s l = some t)
    (hpins : s.pins l = true) (href : t.machine.home.zReferenced = false)
    (hheld : s.machine.home.zReferenced = false → s.Held) : t.zMoving = false := by
  cases l with
  | machine l envelope =>
    simp only [lensStep] at hstep
    split at hstep
    case isFalse => cases hstep
    case isTrue hpermits =>
      obtain ⟨n, hn, rfl⟩ := Option.map_eq_some_iff.1 hstep
      have hstill : s.zMoving = false → (s.zMoving && !Lens.stopsMotion l) = false := fun h => by
        rw [h, Bool.false_and]
      cases l with
      | stream l =>
        have hdrops : invalidates s.machine.stream l = true := hpins
        exact hstill (by simpa [careful, hdrops] using hcareful)
      | readback expired => exact Bool.and_false _
      | session => exact hstill (by simpa [Lens.permits] using hpermits)
      | manualHome k readOk energized seek opened => exact hstill (by simpa [Lens.permits] using hpermits)
      | tray key want readOk saved opened => exact hstill (by simpa [Lens.permits] using hpermits)
      | release readOk opened => exact hstill (by simpa [Lens.permits] using hpermits)
      | cloudHome k seek opened =>
        -- A home references the lens.
        cases machineStep_turns s.cfg hn with
        | cloudHome hhome =>
          obtain ⟨u, -, rfl⟩ := Option.map_eq_some_iff.1 hhome
          cases href
      | startup edge k seek opened =>
        cases machineStep_turns s.cfg hn with
        | lensHome hhome =>
          obtain ⟨u, -, rfl⟩ := Option.map_eq_some_iff.1 hhome
          cases href
        | lensSkipped => cases hpins
      | lost | reset now | sessionOver => cases hpins
  | settings cfg L cycles =>
    cases hstep
    exact (hheld href).still
  | plan z => cases hpins
  | motionOver => cases hpins

/-- **A careful step** keeps an unreferenced lens held. A turn that applies the limits pins it where
it reads; any other turn counts no step of Z, since the core has planned no motion of it. -/
theorem lensStep_held (hheld : s.machine.home.zReferenced = false → s.Held)
    (hcareful : careful s l = true) (hstep : lensStep s l = some t)
    (href : t.machine.home.zReferenced = false) : t.Held := by
  rcases lensStep_cases hstep href with ⟨hpins, hpinned, hchecked⟩ | ⟨hpins, hunref, hcfg, hlimits, hmoved⟩
  · exact ⟨hpinned, hchecked, pins_still hcareful hstep hpins href hheld⟩
  · have h := hheld hunref
    rw [h.moved hunref hcareful hstep, add_zero] at hmoved
    refine ⟨h.pinned.kept hcfg hlimits hmoved, ⟨by rw [hlimits, h.checked.homed],
      by rw [hlimits, h.checked.softLimits]⟩, ?_⟩
    cases l with
    | machine l envelope =>
      simp only [lensStep] at hstep
      split at hstep
      case isFalse => cases hstep
      case isTrue =>
        obtain ⟨n, -, rfl⟩ := Option.map_eq_some_iff.1 hstep
        show (s.zMoving && !Lens.stopsMotion l) = false
        rw [h.still, Bool.false_and]
    | settings cfg L cycles => cases hpins
    | plan z =>
      simp only [lensStep] at hstep
      split at hstep
      case isFalse => cases hstep
      case isTrue hplan =>
        cases hstep
        rw [Bool.and_eq_true] at hplan
        show (s.zMoving || UInt32.ofInt _ != s.machine.home.position 2) = false
        rw [h.still, h.plan_still hplan.2, bne_self_eq_false, Bool.or_false]
    | motionOver =>
      cases hstep
      rfl

end

/-! ## Runs

The pin over every careful run, and what it keeps the core from planning. -/

variable {cfg : Settings} {stream : Stream.State} {st : State} {L : Limits} {s : Lens}

theorem start_pinned :
    (Lens.start cfg stream st L).Pinned ∧ (Lens.start cfg stream st L).Checked :=
  ⟨⟨applied_envMin rfl, applied_envMax rfl⟩, ⟨applied_homed, applied_softLimits⟩⟩

/-- **An unreferenced lens is pinned.** In every run whose faults and acknowledged underruns come
with no motion of Z under way, and whose read-backs drop no step of an unreferenced Z: while Z is
unreferenced its envelope is the one height where it reads, the core checks it, and the core plans no
motion to any other. -/
theorem unreferenced_lens_pinned
    (hrun : Runs.Reach lensStep (fun s l => careful s l = true) (Lens.start cfg stream st L) s)
    (href : s.machine.home.zReferenced = false) :
    s.Pinned ∧ s.Checked ∧ ∀ z, s.admits z = true → z = s.z := by
  have hheld : s.machine.home.zReferenced = false → s.Held := by
    refine hrun.invariant (P := fun s => s.machine.home.zReferenced = false → s.Held) ?_ ?_
    · exact fun _ => ⟨start_pinned.1, start_pinned.2, rfl⟩
    · exact fun s l t h hcareful hstep href => lensStep_held h hcareful hstep href
  exact ⟨(hheld href).pinned, (hheld href).checked, fun z hadmits => (hheld href).admits hadmits⟩

/-! ## The pin and the steps

Without the condition the pin is an equation: what was counted and dropped in Z since the limits
were applied, modulo 2^32. -/

/-- The steps that Z has moved by since the limits were last applied. -/
def drifted (s : Lens) (l : LensLabel) (d : UInt32) : UInt32 := if s.pins l then 0 else d + s.moved l

/-- The pin is where the lens was, `d` steps ago. -/
structure PinnedAgo (s : Lens) (d : UInt32) : Prop where
  envMin : s.limits.envMin 2 = signed (s.machine.home.position 2 - d) / s.cfg.stepsPerMm 2
  envMax : s.limits.envMax 2 = signed (s.machine.home.position 2 - d) / s.cfg.stepsPerMm 2

theorem PinnedAgo.iff {d : UInt32} (h : PinnedAgo s d) : s.Pinned ↔ d = 0 := by
  have hspm : s.cfg.stepsPerMm 2 ≠ 0 := ne_of_gt (s.cfg.scaled 2)
  constructor
  · intro hpinned
    have heq := h.envMin.symm.trans hpinned.envMin
    rw [Lens.z, Settings.mm, div_left_inj' hspm, Int.cast_inj] at heq
    have hposition := congrArg UInt32.ofInt heq
    rw [ofInt_signed, ofInt_signed] at hposition
    exact sub_eq_self.1 hposition
  · rintro rfl
    exact ⟨h.envMin.trans (by rw [sub_zero]; rfl), h.envMax.trans (by rw [sub_zero]; rfl)⟩

/-- A step keeps the pin where it was, or pins the lens anew. -/
theorem lensStep_pinnedAgo {t : Lens} {l : LensLabel} {d : UInt32} (hstep : lensStep s l = some t)
    (h : s.machine.home.zReferenced = false → PinnedAgo s d ∧ s.Checked)
    (href : t.machine.home.zReferenced = false) : PinnedAgo t (drifted s l d) ∧ t.Checked := by
  rcases lensStep_cases hstep href with ⟨hpins, hpinned, hchecked⟩ | ⟨hpins, hunref, hcfg, hlimits, hmoved⟩
  · rw [drifted, hpins, if_pos rfl]
    exact ⟨⟨hpinned.envMin.trans (by rw [sub_zero]; rfl), hpinned.envMax.trans (by rw [sub_zero]; rfl)⟩,
      hchecked⟩
  · obtain ⟨hago, hchecked⟩ := h hunref
    rw [drifted, hpins, if_neg Bool.false_ne_true]
    have hback : t.machine.home.position 2 - (d + s.moved l) = s.machine.home.position 2 - d := by
      rw [hmoved]
      abel
    exact ⟨⟨by rw [hlimits, hcfg, hback, hago.envMin], by rw [hlimits, hcfg, hback, hago.envMax]⟩,
      by rw [hlimits, hchecked.homed], by rw [hlimits, hchecked.softLimits]⟩

/-- **The pin is true** exactly when the steps that Z has been moved by since the limits were last
applied come to nothing, in every run. -/
theorem pinned_iff_still {d : UInt32}
    (hrun : Runs.Reach (Runs.observe lensStep drifted) (fun _ _ => True)
      (Lens.start cfg stream st L, 0) (s, d))
    (href : s.machine.home.zReferenced = false) : s.Checked ∧ (s.Pinned ↔ d = 0) := by
  have hago : s.machine.home.zReferenced = false → PinnedAgo s d ∧ s.Checked := by
    refine hrun.invariant_observe (fun _ _ => True)
      (P := fun s d => s.machine.home.zReferenced = false → PinnedAgo s d ∧ s.Checked) ?_ ?_
    · exact fun _ => ⟨⟨start_pinned.1.envMin.trans (by rw [sub_zero]; rfl),
        start_pinned.1.envMax.trans (by rw [sub_zero]; rfl)⟩, start_pinned.2⟩
    · exact fun s d l t h _ hstep href => lensStep_pinnedAgo hstep h href
  exact ⟨(hago href).2, (hago href).1.iff⟩

/-! ## An underrun in the middle of a motion

A careful run, and the run of an underrun that the shipper acknowledges while Z moves. -/

section Schedules

open Glowforge.Stream (State.init slowConfig idleKernel)

/-- The core is in Idle or Alarm, and the stream is drained. -/
def Lens.quiet (s : Lens) : Bool :=
  !s.zMoving && s.machine.free && Stream.drained s.machine.stream.gf &&
    gfStreamKernelIdle true s.machine.stream

/-- The controller starts on an idle kernel. -/
def lensStarted : Lens :=
  Lens.start bench (State.init (slowConfig true) idleKernel true true) (blankFrame.wrapped false)
    blankFrame.limits

/-- Turns of the stream. -/
def streamTurns (ls : List Stream.Label) : List LensLabel :=
  ls.map fun l => .machine (.stream l) fun _ => none

/-- A pulse of +Z, from the lock-free test on. -/
def pulseUp : List Stream.Label := [.enter (.pulse 0x04 0x00), .locked (.pulse 0x04 0x00) 0]

/-- A referenced lens moves up by a step, and a session drops the reference. -/
def droppedInPlace : List LensLabel :=
  [LensLabel.machine (.startup true (homeAt 0) true true) fun _ => none, .plan (1 / 10)] ++
    streamTurns ([Stream.Label.enter .wakeup, .locked .wakeup 0] ++ pulseUp ++ [Stream.Label.goIdle false 0 0]) ++
    [LensLabel.motionOver, .machine .session fun _ => none, .machine .sessionOver fun _ => none]

/-- The theorem behind that session: the lens is pinned a step up. -/
theorem unreferenced_lens_pinned_dropped :
    ∃ s : Lens, s.machine.home.position 2 = 1 ∧ s.Pinned ∧ s.Checked ∧
      ∀ z, s.admits z = true → z = s.z := by
  have hrun : ∃ s : Lens, Runs.Reach lensStep (fun s l => careful s l = true) lensStarted s ∧
      (s.machine.home.zReferenced = false ∧ s.machine.home.position 2 = 1) :=
    Runs.exists_reach_of_exec droppedInPlace (by decide +kernel)
  obtain ⟨s, hreach, href, hone⟩ := hrun
  exact ⟨s, hone, unreferenced_lens_pinned hreach href⟩

/-- A wall clock by which every byte is due. -/
def late : Stream.Env := { now := 100000000, later := 100000000 }

/-- The lens is referenced on its edge. A motion of X has shipped and ended, and the kernel still plays
it; the first byte of a motion of Z by two steps lands in time, and the kernel runs dry under the live
stream. The shipper acknowledges the underrun, and drops the reference. -/
def dryInZ : List LensLabel :=
  [LensLabel.machine (.startup true (homeAt 0) true true) fun _ => none] ++
    streamTurns ([Stream.Label.enter .wakeup, .locked .wakeup 0, .enter (.pulse 0x01 0x00),
        .locked (.pulse 0x01 0x00) 0, .goIdle false 0 0, .ship {}, .ship {},
        .ship { now := 0, later := 1000000 }] ++ List.replicate 36 (Stream.Label.ship {})) ++
    [LensLabel.plan (2 / 10)] ++
    streamTurns ([Stream.Label.enter .wakeup, .locked .wakeup 0] ++ pulseUp ++
      List.replicate 5 (Stream.Label.ship {}) ++ List.replicate 23 (Stream.Label.kernel .play) ++
      [Stream.Label.kernel .runOut] ++ List.replicate 28 (Stream.Label.ship {}))

/-- The core counts the motion's second step, and the stream ends and plays out. -/
def dryInZThenOn : List LensLabel :=
  dryInZ ++ streamTurns (pulseUp ++ [Stream.Label.goIdle false 0 0]) ++ [LensLabel.motionOver] ++
    streamTurns (List.replicate 30 (Stream.Label.ship late) ++
      List.replicate 22 (Stream.Label.kernel .play) ++ [Stream.Label.kernel .runOut])

/-- **The pin is left behind.** The reference goes in the middle of a motion, and the lens ends a step
above the height that it is pinned at, with the core in Idle and the stream drained. -/
theorem underrun_leaves_pin_behind :
    ¬∀ (cfg : Settings) (stream : Stream.State) (st : State) (L : Limits) (s : Lens),
      Runs.Reach lensStep (fun _ _ => True) (Lens.start cfg stream st L) s → s.quiet = true →
        s.machine.home.zReferenced = false →
          s.Pinned ∧ s.Checked ∧ ∀ z, s.admits z = true → z = s.z := by
  intro h
  have hrun : ∃ s : Lens, Runs.Reach lensStep (fun _ _ => True) lensStarted s ∧
      (s.quiet = true ∧ s.machine.home.zReferenced = false ∧ s.limits.envMin 2 ≠ s.z) :=
    Runs.exists_reach_of_exec dryInZThenOn (by decide +kernel)
  obtain ⟨s, hreach, hquiet, href, hbehind⟩ := hrun
  exact hbehind (h _ _ _ _ s hreach hquiet href).1.envMin

end Schedules

end Glowforge.Homing
