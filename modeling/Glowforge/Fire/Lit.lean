import Glowforge.Fire.Machine

/-!
# Glowforge — what a lit deceleration fires

Fire is gated twice. The stream's gate is held open through the first hold's deceleration; the gate of a
segment, `gfcool_fire_ok` in `spindleUpdatePWM`, does not read `decel_lit`.

* **`decelerating`** — the deceleration of the first hold that a verdict takes for blocking fire.
* **`LitInv`** — the verdict that took the hold lets no segment fire: it says so, or has expired.
* **`decel_lit_iff`** — every commanded segment of such a deceleration is dark, unless the expired verdict
  reads as fresh again.
-/

namespace Glowforge.Fire

open Glowforge.Cooling (Cool PollEnv nsPerMs)

/-! ## The deceleration

Which deceleration is meant, and what its segments should do: fire as commanded. `Revived` is the
one exception, a verdict that has expired and reads as fresh again on the wrapping clock. -/

/-- The poll finds fire blocked inside the window, the core in Cycle and no hold of the client's. -/
def takesFirstHold (atof : List Char → Cooling.Double) (s : State) : Label → Bool
  | .poll e _ => s.laser.laserOk && Cooling.pollBlocked atof e s.cool &&
      Cooling.findsFirstHold s.laser.core s.cool
  | _ => false

/-- Such a hold was taken, and since then `decel_lit` is set and the window open. -/
def decelerating (atof : List Char → Cooling.Double) (s : State) (l : Label) (lit : Bool) : Bool :=
  (step atof s l).any fun t => t.laser.laserOk && t.cool.decelLit && (lit || takesFirstHold atof s l)

theorem decelerating_of_step {atof : List Char → Cooling.Double} {s t : State} {l : Label} {lit : Bool}
    (hstep : step atof s l = some t) (h : decelerating atof s l lit = true) :
    t.laser.laserOk = true ∧ t.cool.decelLit = true ∧ (lit = true ∨ takesFirstHold atof s l = true) := by
  simpa only [decelerating, hstep, Option.any_some, Bool.and_eq_true, Bool.or_eq_true, and_assoc] using h

/-- A segment or a poll at `now` fires where the core commands it: on the segment's gate, and on the one
that the poll publishes. -/
def FiresAsCommanded (s : State) (now pwm : Nat) : Prop :=
  pwm ≠ s.laser.offValue →
    (Laser.spindleUpdatePWM pwm (s.read now)).pushedFire = true ∧
      (Laser.fireGatePublish (s.read now)).fireGate = true

/-- The verdict lets the window fire, and is half of the clock's range past its deadline: it reads as
fresh. -/
def Revived (s : State) (now : Nat) : Prop :=
  s.cool.vFireOk = true ∧ (s.cool.laserOnWindow = true → s.cool.vArmed = true) ∧
    Cooling.deadlineMs s.cool.accepted ≤ (now / nsPerMs : Nat) ∧
    2 ^ 31 ≤ (((now / nsPerMs : Nat) : ℤ) - Cooling.deadlineMs s.cool.accepted) % 2 ^ 32

/-! ## The invariant

While the deceleration lasts the window is open and the hold is the client's own, and the verdict in
the cache says that no segment fires, or is past its deadline. -/

/-- The verdict at the time `clock` lets no segment fire, now or until the clock wraps. -/
def Spent (c : Cool) (clock : Nat) : Prop :=
  c.vFireOk = false ∨ Cooling.deadlineMs c.accepted ≤ (clock / nsPerMs : Nat)

theorem Spent.mono {c d : Cool} {clock later : Nat} (h : Spent c clock) (hcache : d.cache = c.cache)
    (hle : clock ≤ later) : Spent d later := by
  have hfire : d.vFireOk = c.vFireOk := congrArg Cooling.Cache.fireOk hcache
  have haccepted : d.accepted = c.accepted := congrArg Cooling.Cache.accepted hcache
  unfold Spent
  rw [hfire, haccepted]
  exact h.imp_right fun hdeadline => hdeadline.trans (by exact_mod_cast Nat.div_le_div_right hle)

structure LitInv (s : State) (lit : Bool) : Prop where
  dated : Cooling.Dated s.cool s.clock
  ours : s.cool.decelLit = true → s.cool.holdOurs = true
  window : lit = true → s.laser.laserOk = true
  decel : lit = true → s.cool.decelLit = true
  spent : lit = true → Spent s.cool s.clock

/-- A verdict that blocks fire at its reading says so, or has expired. -/
theorem spent_of_blocked {c : Cool} {clock now : Nat} (h : Cooling.Dated c clock) (hle : clock ≤ now)
    (hblocked : Cooling.gfcoolVerdictFireOk now c = false) : Spent c now := by
  rw [Cooling.gfcoolVerdictFireOk, Bool.and_eq_false_iff] at hblocked
  rcases hblocked with hstale | hfire
  · right
    by_contra hahead
    rw [not_le] at hahead
    -- the deadline is half the range ahead at most
    have hnear : Cooling.deadlineMs c.accepted ≤ (now / nsPerMs : Nat) + 2 ^ 31 := by
      cases haccepted : c.accepted with
      | nil => exact Int.add_nonneg (Int.natCast_nonneg _) (by decide)
      | cons a as =>
        have hread := h.read a (haccepted ▸ List.mem_cons_self)
        have hsecond : a.second / nsPerMs ≤ now / nsPerMs := Nat.div_le_div_right (hread.clock.trans hle)
        have hnearest := a.deadline_le
        simp only [Cooling.deadlineMs]
        omega
    have hfresh : Cooling.verdictFresh now c = true := by
      rw [Cooling.verdictFresh, Cooling.monoMs, Clock.ofNat_eq_ofInt, h.deadline]
      exact Clock.before_of_lt hahead hnear
    exact absurd (hstale.symm.trans hfresh) Bool.false_ne_true
  · exact .inl hfire

/-! ## The steps

A poll, and an entry into the laser module, against the invariant. -/

/-- A poll that lights a deceleration, or lets it go on, finds the verdict spent. -/
theorem litInv_poll {atof : List Char → Cooling.Double} {s t : State} {e : PollEnv} {a : Laser.Env} {lit : Bool}
    (h : LitInv s lit) (hstep : step atof s (.poll e a) = some t) :
    LitInv t (decelerating atof s (.poll e a) lit) := by
  obtain ⟨horder, hclock, hcool⟩ := step_poll hstep
  obtain ⟨h1, h2, h3, h4, h5, h6⟩ := Cooling.inOrder_poll horder
  obtain ⟨hread, hcache⟩ := dated_poll h.dated hstep
  have hflags : t.cool.flags = (Cooling.gfcoolPoll atof e s.laser.core s.laser.laserOk s.cool).1.flags := by
    rw [hcool]
    exact congrArg Gates.flags (reported_gates _ _ _ _)
  have hdecel : t.cool.decelLit =
      (Cooling.gfcoolPoll atof e s.laser.core s.laser.laserOk s.cool).1.decelLit :=
    congrArg Cooling.HoldFlags.decelLit hflags
  have hours : t.cool.holdOurs =
      (Cooling.gfcoolPoll atof e s.laser.core s.laser.laserOk s.cool).1.holdOurs :=
    congrArg Cooling.HoldFlags.holdOurs hflags
  refine {
    dated := dated_step h.dated hstep
    ours := fun hlit => hours.trans (Cooling.lit_ours h.ours (hdecel.symm.trans hlit))
    window := fun hlit => (decelerating_of_step hstep hlit).1
    decel := fun hlit => (decelerating_of_step hstep hlit).2.1
    spent := fun hlit => ?_ }
  obtain ⟨-, hdecelLit, hwas⟩ := decelerating_of_step hstep hlit
  have hblocked : Cooling.pollBlocked atof e s.cool = true := by
    rcases hwas with hwas | hfirst
    · exact Cooling.lit_blocked (h.ours (h.decel hwas)) (hdecel.symm.trans hdecelLit)
    · simp only [takesFirstHold, Bool.and_eq_true] at hfirst
      exact hfirst.1.2
  have hspent : Spent (Cooling.pollRead atof e s.cool) e.fire :=
    spent_of_blocked hread (h4.trans h5) (by simpa [Cooling.pollBlocked] using hblocked)
  exact hspent.mono hcache (h6.trans hclock.ge)

theorem litInv_step {atof : List Char → Cooling.Double} {s t : State} {l : Label} {lit : Bool} (h : LitInv s lit)
    (hstep : step atof s l = some t) : LitInv t (decelerating atof s l lit) := by
  have hclock := step_clock hstep
  -- a step other than the poll leaves the cache and the flags
  have hother (hgates : gates t.cool = gates s.cool) (hnone : takesFirstHold atof s l = false) :
      LitInv t (decelerating atof s l lit) := by
    have hflags : t.cool.flags = s.cool.flags := congrArg Gates.flags hgates
    have hwas (hlit : decelerating atof s l lit = true) : lit = true := by
      simpa only [hnone, Bool.false_eq_true, or_false] using (decelerating_of_step hstep hlit).2.2
    exact {
      dated := dated_step h.dated hstep
      ours := fun hlit => (congrArg Cooling.HoldFlags.holdOurs hflags).trans
        (h.ours ((congrArg Cooling.HoldFlags.decelLit hflags).symm.trans hlit))
      window := fun hlit => (decelerating_of_step hstep hlit).1
      decel := fun hlit => (decelerating_of_step hstep hlit).2.1
      spent := fun hlit => (h.spent (hwas hlit)).mono (congrArg Gates.cache hgates) hclock }
  cases l with
  | poll e a => exact litInv_poll h hstep
  | laser now l reports =>
    obtain ⟨-, -, -, -, hcool⟩ := step_laser hstep
    exact hother (hcool ▸ reports_gates now t.laser s.cool reports) rfl
  | coolant now flood =>
    obtain ⟨-, rfl⟩ := step_coolant hstep
    exact hother (coolant_gates now s.laser.core flood s.cool) rfl

/-! ## The gates

The gate of a segment asks `gfcool_fire_ok`, which reads the verdict and not `decel_lit`. -/

/-- A spent verdict fires a segment only when it reads as fresh again. -/
theorem Spent.fireOk_iff {s : State} {now : Nat} (h : Spent s.cool s.clock)
    (hdated : Cooling.Dated s.cool s.clock) (hle : s.clock ≤ now) :
    Laser.gfcoolFireOk (s.read now) = true ↔ Revived s now := by
  have hread : Laser.gfcoolFireOk (s.read now) = (Cooling.verdictFresh now s.cool && s.cool.vFireOk &&
      !(s.cool.laserOnWindow && !s.cool.vArmed)) := rfl
  have hwindow : (!(s.cool.laserOnWindow && !s.cool.vArmed)) = true ↔
      (s.cool.laserOnWindow = true → s.cool.vArmed = true) := by
    cases s.cool.laserOnWindow <;> cases s.cool.vArmed <;> decide
  rw [hread, Bool.and_eq_true, Bool.and_eq_true, hwindow, Revived]
  rcases h with hfire | hdeadline
  · simp only [hfire, Bool.false_eq_true, and_false, false_and]
  · have hfresh : Cooling.verdictFresh now s.cool = true ↔
        2 ^ 31 ≤ (((now / nsPerMs : Nat) : ℤ) - Cooling.deadlineMs s.cool.accepted) % 2 ^ 32 := by
      rw [Cooling.verdictFresh, Cooling.monoMs, Clock.ofNat_eq_ofInt, hdated.deadline, Clock.before_iff]
    have hpast : Cooling.deadlineMs s.cool.accepted ≤ (now / nsPerMs : Nat) :=
      hdeadline.trans (by exact_mod_cast Nat.div_le_div_right hle)
    rw [hfresh]
    tauto

theorem litInv {atof : List Char → Cooling.Double} {uptime : Nat} {hwActive available : Bool} {offValue : Nat}
    {s : State} {lit : Bool}
    (hrun : Runs.Reach (Runs.observe (step atof) (decelerating atof)) (fun _ _ => True)
      (State.init uptime hwActive available offValue, false) (s, lit)) : LitInv s lit :=
  hrun.invariant_observe (P := LitInv) (fun _ _ => True)
    { dated := Cooling.dated_init uptime
      ours := (by rintro ⟨⟩)
      window := (by rintro ⟨⟩)
      decel := (by rintro ⟨⟩)
      spent := (by rintro ⟨⟩) }
    fun _ _ _ _ h _ hstep => litInv_step h hstep

/-- **The deceleration is dark where the core commands fire.** In every run, from any uptime, with any files,
clock readings, polls and entries into the laser module: while the first hold of a blocked verdict
decelerates lit inside the window, every poll publishes the stream's gate open, and a segment passes as the
core commands it if and only if it commands no fire, or the verdict has expired and reads as fresh again
half of the clock's range later. -/
theorem decel_lit_iff {atof : List Char → Cooling.Double} {uptime : Nat} {hwActive available : Bool} {offValue : Nat}
    {s : State} (hrun : Runs.Reach (Runs.observe (step atof) (decelerating atof)) (fun _ _ => True)
      (State.init uptime hwActive available offValue, false) (s, true))
    {now : Nat} (hnow : s.clock ≤ now) (pwm : Nat) :
    (Laser.fireGatePublish (s.read now)).fireGate = true ∧
      (FiresAsCommanded s now pwm ↔ pwm = s.laser.offValue ∨ Revived s now) := by
  have h := litInv hrun
  have hopen : s.laser.laserOk = true := h.window rfl
  have hdecel : s.cool.decelLit = true := h.decel rfl
  have hpublished : (Laser.fireGatePublish (s.read now)).fireGate = true := by
    change (s.laser.laserOk && (Laser.gfcoolVerdictFireOk (s.read now) || s.cool.decelLit)) = true
    rw [hopen, hdecel, Bool.or_true, Bool.and_self]
  refine ⟨hpublished, ?_⟩
  have hpushed : (Laser.spindleUpdatePWM pwm (s.read now)).pushedFire =
      (pwm != s.laser.offValue && s.laser.laserOk && Laser.gfcoolFireOk (s.read now)) := rfl
  rw [FiresAsCommanded, hpushed, hpublished, hopen, Bool.and_true, and_iff_left rfl]
  by_cases hoff : pwm = s.laser.offValue
  · exact iff_of_true (absurd hoff) (.inl hoff)
  · rw [bne_iff_ne.mpr hoff, Bool.true_and, (h.spent rfl).fireOk_iff h.dated hnow]
    exact ⟨fun hfires => .inr (hfires hoff), fun hrevived _ => hrevived.resolve_left hoff⟩

/-! ### A pause

A run that pauses a burning job: its deceleration is commanded to fire, and is dark. -/

/-- A poll at one reading of the clock, which finds a file. -/
def pollAt (now : Nat) (file : String) : PollEnv where
  now := now
  first := now
  second := now
  fresh := now
  fire := now
  report := now
  file := some file.toList
  holdComplete := false
  resumeGate := false

/-- The engine allows fire, and the laser-on reports its window; the engine takes it, the arm is complete
and the core goes into Cycle. -/
def jobRuns : List Label :=
  [.poll (pollAt 0 "\x7b\"ts_mono\":0,\"fire_ok\":true,\"hold\":false\x7d") {},
    .laser 0 (.spindle true { pwm := 100 }) [true],
    .poll (pollAt (500 * nsPerMs) "\x7b\"ts_mono\":0,\"fire_ok\":true,\"hold\":false,\"armed\":true\x7d") {},
    .laser (500 * nsPerMs) (.pumped { pwm := 100 }) [],
    .laser (500 * nsPerMs) .publish [],
    .laser (500 * nsPerMs) (.rearmPoll {}) [],
    .laser (500 * nsPerMs) (.core .cycle true) []]

/-- A second into the job the verdict pauses it. -/
def verdictPauses : List Label :=
  [.poll (pollAt (1000 * nsPerMs)
    "\x7b\"ts_mono\":0,\"fire_ok\":false,\"hold\":true,\"armed\":true,\"verdict\":\"HEATER\"\x7d") {}]

/-- The pause's own deceleration is lit on the stream's gate, and a segment of it fires as commanded exactly
where it commands no fire. -/
theorem decel_lit_iff_paused :
    ∃ s, Runs.Reach (Runs.observe (step fun _ => .number 0) (decelerating fun _ => .number 0)) (fun _ _ => True)
        (State.init 0 false false 0, false) (s, true) ∧
      (Laser.fireGatePublish (s.read (1000 * nsPerMs))).fireGate = true ∧
      FiresAsCommanded s (1000 * nsPerMs) 0 ∧ ¬FiresAsCommanded s (1000 * nsPerMs) 100 := by
  have hex : ∃ x, Runs.Reach (Runs.observe (step fun _ => .number 0) (decelerating fun _ => .number 0)) (fun _ _ => True)
        (State.init 0 false false 0, false) x ∧
      (x.2 = true ∧ x.1.clock ≤ 1000 * nsPerMs ∧ x.1.laser.offValue = 0 ∧ x.1.cool.vFireOk = false) :=
    Runs.exists_reach_of_exec (jobRuns ++ verdictPauses) (by decide +kernel)
  obtain ⟨⟨s, lit⟩, hrun, hlit, hclock, hoff, hfire⟩ := hex
  obtain rfl : lit = true := hlit
  refine ⟨s, hrun, (decel_lit_iff hrun hclock 0).1, (decel_lit_iff hrun hclock 0).2.mpr (.inl hoff.symm), ?_⟩
  intro hfires
  rcases (decel_lit_iff hrun hclock 100).2.mp hfires with hpwm | hrevived
  · exact absurd (hpwm.trans hoff) (by decide)
  · exact absurd (hfire.symm.trans hrevived.1) (by decide)

/-- **The cut has a gap.** A segment of the pause's deceleration that the core commands to fire is pushed
dark, where the stream's gate is open. -/
theorem pause_decelerates_dark :
    ¬∀ (atof : List Char → Cooling.Double) (uptime : Nat) (hwActive available : Bool) (offValue : Nat) (s : State)
      (now pwm : Nat),
      Runs.Reach (Runs.observe (step atof) (decelerating atof)) (fun _ _ => True)
        (State.init uptime hwActive available offValue, false) (s, true) →
      s.clock ≤ now → FiresAsCommanded s now pwm := by
  intro hall
  have hex : ∃ x, Runs.Reach (Runs.observe (step fun _ => .number 0) (decelerating fun _ => .number 0)) (fun _ _ => True)
        (State.init 0 false false 0, false) x ∧
      (x.2 = true ∧ x.1.clock ≤ 1000 * nsPerMs ∧ x.1.laser.offValue = 0 ∧
        (Laser.spindleUpdatePWM 100 (x.1.read (1000 * nsPerMs))).pushedFire = false) :=
    Runs.exists_reach_of_exec (jobRuns ++ verdictPauses) (by decide +kernel)
  obtain ⟨⟨s, lit⟩, hrun, hlit, hclock, hoff, hdark⟩ := hex
  obtain rfl : lit = true := hlit
  have hfires := (hall _ _ _ _ _ s (1000 * nsPerMs) 100 hrun hclock (by rw [hoff]; decide)).1
  exact absurd (hdark.symm.trans hfires) Bool.false_ne_true

end Glowforge.Fire
