import Glowforge.Fire.Lit

/-!
# Glowforge — one lit deceleration to an episode

An episode is a stretch in which the window is open and the verdict blocks fire. `hold_take` lights the
deceleration by `hold_ours`, which says whose the last hold was and not whether the gate has been closed
in the episode.

* **`dark`** — a closed gate was published in the present episode.
* **`relights`** — a poll that takes a hold with `hold_ours` clear, in the middle of an episode.
* **`EpisodeInv`** — without such a poll in the dark, the gate stays closed to the episode's end.
-/

namespace Glowforge.Fire

open Glowforge.Cooling (Cool PollEnv Act nsPerMs)

/-! ## The episode

The ghost state of one episode: whether the gate has been published closed since the episode began. -/

def publishes : Laser.Label → Bool
  | .publish => true
  | _ => false

/-- The window open behind the step from `s` to `t`, and the verdict blocking fire where the step reads it: a
closed gate published then, or before in the same stretch. -/
def darkBehind (atof : List Char → Cooling.Double) (s t : State) (l : Label) (was : Bool) : Bool :=
  t.laser.laserOk && match l with
    | .poll e _ => was && Cooling.pollBlocked atof e s.cool
    | .laser now l _ => !Cooling.gfcoolVerdictFireOk now s.cool && (was || publishes l && !t.laser.fireGate)
    | .coolant _ _ => was

def dark (atof : List Char → Cooling.Double) (s : State) (l : Label) (was : Bool) : Bool :=
  (step atof s l).any fun t => darkBehind atof s t l was

/-- A poll that takes a hold of the client's, its first, under a verdict that does not end the job. -/
def relights (atof : List Char → Cooling.Double) (s : State) : Label → Bool
  | .poll e a => takesFirstHold atof s (.poll e a) && !Cooling.pollFails atof e s.cool
  | _ => false

structure EpisodeInv (s : State) (was : Bool) : Prop where
  window : was = true → s.laser.laserOk = true
  decel : was = true → s.cool.decelLit = false
  gate : was = true → s.laser.fireGate = false

/-! ## What the poll calls

What a poll does to the gate inside an episode, read off the commands that it issues. -/

theorem verdictFail_closes (a : Laser.Env) (laser : Laser.State) :
    (Laser.gflaserVerdictFail a laser).laserOk = false := by
  unfold Laser.gflaserVerdictFail
  split
  · simp only [Laser.enqueue, Laser.gflaserDisarm]
    split_ifs <;> rfl
  · next hclosed => exact eq_false_of_ne_true hclosed

/-- A call that leaves the window open leaves everything, unless it is the resume. -/
theorem serve_open {a : Laser.Env} {now : Nat} {cool : Cool} {laser : Laser.State} {act : Act}
    (hresume : act.isResume = false) (hopen : (serve a now cool laser act).laserOk = true) :
    serve a now cool laser act = laser ∧ ∀ name, act ≠ .verdictFail name := by
  cases act with
  | verdictFail name => exact absurd ((verdictFail_closes a laser).symm.trans hopen) Bool.false_ne_true
  | resume gated => cases hresume
  | _ => exact ⟨rfl, by rintro _ ⟨⟩⟩

theorem serves_open {a : Laser.Env} {now : Nat} {cool : Cool} {laser : Laser.State} {acts : List Act}
    (hresume : acts.any Act.isResume = false) (hopen : (acts.foldl (serve a now cool) laser).laserOk = true) :
    acts.foldl (serve a now cool) laser = laser ∧ ∀ name, .verdictFail name ∉ acts := by
  induction acts generalizing laser with
  | nil => exact ⟨rfl, by rintro _ ⟨⟩⟩
  | cons act acts ih =>
    rw [List.any_cons, Bool.or_eq_false_iff] at hresume
    obtain ⟨hrest, hnone⟩ := ih hresume.2 hopen
    rw [List.foldl_cons, hrest] at hopen
    obtain ⟨hact, hfail⟩ := serve_open hresume.1 hopen
    refine ⟨hrest.trans hact, fun name hmem => ?_⟩
    rcases List.mem_cons.mp hmem with heq | hmem
    · exact hfail name heq.symm
    · exact hnone name hmem

/-- **A poll under blocked fire**: a window that it leaves open is left with the laser module as it was, and
no fail-tier verdict. -/
theorem poll_open {atof : List Char → Cooling.Double} {s t : State} {e : PollEnv} {a : Laser.Env}
    (hstep : step atof s (.poll e a) = some t) (hwas : s.laser.laserOk = true)
    (hblocked : Cooling.pollBlocked atof e s.cool = true) (hopen : t.laser.laserOk = true) :
    t.laser = s.laser ∧ Cooling.pollFails atof e s.cool = false := by
  have hinside : (s.laser.laserOk && Cooling.pollBlocked atof e s.cool) = true := by
    rw [hwas, hblocked, Bool.and_self]
  have hlaser := step_poll_laser hstep
  rw [hlaser] at hopen ⊢
  obtain ⟨hsame, hnone⟩ := serves_open (Cooling.gfcoolPoll_acts hinside) hopen
  refine ⟨hsame, ?_⟩
  rw [← Bool.not_eq_true]
  exact fun hfails => hnone _ (Cooling.gfcoolPoll_fails hinside hfails)

/-! ## The steps

A step that keeps the episode open publishes nothing open, unless it relights. -/

theorem dark_of_step {atof : List Char → Cooling.Double} {s t : State} {l : Label} {was : Bool}
    (hstep : step atof s l = some t) : dark atof s l was = darkBehind atof s t l was := by
  rw [dark, hstep, Option.any_some]

theorem publish_of_step {s t : Laser.State} {l : Laser.Label} (hstep : Laser.step s l = some t)
    (hpublishes : publishes l = true) : t = Laser.fireGatePublish s := by
  obtain ⟨-, hturn⟩ := Laser.step_eq_some.mp hstep
  cases l with
  | publish =>
    cases hturn
    rfl
  | _ => cases hpublishes

/-- A poll in the dark lights no deceleration, unless it takes a first hold. -/
theorem episodeInv_poll {atof : List Char → Cooling.Double} {s t : State} {e : PollEnv} {a : Laser.Env} {was : Bool}
    (h : EpisodeInv s was) (hstep : step atof s (.poll e a) = some t)
    (hok : was = true → relights atof s (.poll e a) = false) :
    EpisodeInv t (dark atof s (.poll e a) was) := by
  obtain ⟨-, -, hcool⟩ := step_poll hstep
  have hbehind (hdark : dark atof s (.poll e a) was = true) :
      t.laser.laserOk = true ∧ t.cool.decelLit = false ∧ t.laser.fireGate = false := by
    rw [dark_of_step hstep, darkBehind, Bool.and_eq_true, Bool.and_eq_true] at hdark
    obtain ⟨hopen, hwas, hblocked⟩ := hdark
    obtain ⟨hsame, hnotFailed⟩ := poll_open hstep (h.window hwas) hblocked hopen
    refine ⟨hopen, ?_, by rw [hsame]; exact h.gate hwas⟩
    rw [← Bool.not_eq_true]
    intro hlit
    have hpolled : (Cooling.gfcoolPoll atof e s.laser.core s.laser.laserOk s.cool).1.decelLit = true := by
      rw [hcool] at hlit
      exact (congrArg (fun g => g.flags.decelLit) (reported_gates _ _ _ _)).symm.trans hlit
    have hfirst := Cooling.lit_first (h.decel hwas) hpolled
    have hrelights := hok hwas
    simp only [relights, takesFirstHold, h.window hwas, hblocked, hfirst, hnotFailed, Bool.and_self,
      Bool.not_false, Bool.true_eq_false] at hrelights
  exact ⟨fun hdark => (hbehind hdark).1, fun hdark => (hbehind hdark).2.1, fun hdark => (hbehind hdark).2.2⟩

theorem episodeInv_laser {atof : List Char → Cooling.Double} {s t : State} {now : Nat} {l : Laser.Label}
    {reports : List Bool} {was : Bool} (h : EpisodeInv s was)
    (hstep : step atof s (.laser now l reports) = some t) :
    EpisodeInv t (dark atof s (.laser now l reports) was) := by
  obtain ⟨-, hown, -, hlaser, hcool⟩ := step_laser hstep
  have hdecel : t.cool.decelLit = s.cool.decelLit := by
    rw [hcool]
    exact congrArg (fun g => g.flags.decelLit) (reports_gates now t.laser s.cool reports)
  have hbehind (hdark : dark atof s (.laser now l reports) was = true) :
      t.laser.laserOk = true ∧ t.cool.decelLit = false ∧ t.laser.fireGate = false := by
    rw [dark_of_step hstep, darkBehind, Bool.and_eq_true, Bool.and_eq_true, Bool.not_eq_true'] at hdark
    obtain ⟨hopen, hblocked, hclosed⟩ := hdark
    have hnoVerdict : ∀ a b c d, l ≠ .verdict a b c d := by
      rintro a b c d rfl
      cases hown
    cases hpublishes : publishes l with
    | true =>
      -- the publication reads the same verdict and the same flag
      have hpublish : t.laser = Laser.fireGatePublish (s.read now) := publish_of_step hlaser hpublishes
      have hgate : t.laser.fireGate = s.cool.decelLit := by
        have hwrites : t.laser.fireGate =
            (t.laser.laserOk && (Cooling.gfcoolVerdictFireOk now s.cool || s.cool.decelLit)) := by
          rw [hpublish]
          rfl
        rw [hwrites, hopen, hblocked, Bool.true_and, Bool.false_or]
      have hnone : s.cool.decelLit = false := by
        rcases Bool.or_eq_true_iff.mp hclosed with hwas | hnow
        · exact h.decel hwas
        · rw [Bool.and_eq_true, Bool.not_eq_true'] at hnow
          exact hgate.symm.trans hnow.2
      exact ⟨hopen, hdecel.trans hnone, hgate.trans hnone⟩
    | false =>
      have hwas : was = true := by
        simpa only [hpublishes, Bool.false_and, Bool.or_false] using hclosed
      refine ⟨hopen, hdecel.trans (h.decel hwas), ?_⟩
      have hleaves : Laser.Leaves (s.read now) t.laser := by
        rcases Laser.step_gate hlaser hnoVerdict with ⟨rfl, -⟩ | hleaves
        · cases hpublishes
        · exact hleaves
      rcases hleaves.gate hopen with ⟨-, hsame⟩ | hpermits
      · exact hsame.trans (h.gate hwas)
      · exact absurd (hblocked.symm.trans hpermits) Bool.false_ne_true
  exact ⟨fun hdark => (hbehind hdark).1, fun hdark => (hbehind hdark).2.1, fun hdark => (hbehind hdark).2.2⟩

theorem episodeInv_step {atof : List Char → Cooling.Double} {s t : State} {l : Label} {was : Bool} (h : EpisodeInv s was)
    (hstep : step atof s l = some t) (hok : was = true → relights atof s l = false) :
    EpisodeInv t (dark atof s l was) := by
  cases l with
  | poll e a => exact episodeInv_poll h hstep hok
  | laser now l reports => exact episodeInv_laser h hstep
  | coolant now flood =>
    have hwas (hdark : dark atof s (.coolant now flood) was = true) : was = true := by
      rw [dark_of_step hstep, darkBehind, Bool.and_eq_true] at hdark
      exact hdark.2
    obtain ⟨-, rfl⟩ := step_coolant hstep
    have hdecel : (Cooling.gfcoolCoolantSet now s.laser.core flood s.cool).1.decelLit = s.cool.decelLit :=
      congrArg Cooling.HoldFlags.decelLit (Cooling.gfcoolCoolantSet_flags now s.laser.core flood s.cool)
    exact ⟨fun hdark => h.window (hwas hdark), fun hdark => hdecel.trans (h.decel (hwas hdark)),
      fun hdark => h.gate (hwas hdark)⟩

/-! ## The runs

The steps put together, with a run that resumes and stays dark and a run that the defect lights. -/

/-- **A closed gate stays closed to the episode's end.** In every run, from any uptime, with any files, clock
readings, states of the core and operator's actions, in which no poll takes a hold with `hold_ours` clear
once a closed gate has been published in an episode: behind such a publication the gate is closed, and every
other that finds the verdict blocking fire closes it again. -/
theorem episode_stays_dark {atof : List Char → Cooling.Double} {uptime : Nat} {hwActive available : Bool}
    {offValue : Nat} {s : State}
    (hrun : Runs.Reach (Runs.observe (step atof) (dark atof))
      (fun x l => x.2 = true → relights atof x.1 l = false)
      (State.init uptime hwActive available offValue, false) (s, true)) :
    s.laser.fireGate = false ∧ ∀ now, Cooling.gfcoolVerdictFireOk now s.cool = false →
      (Laser.fireGatePublish (s.read now)).fireGate = false := by
  have h : EpisodeInv s true := by
    refine hrun.invariant (P := fun x => EpisodeInv x.1 x.2) ⟨by rintro ⟨⟩, by rintro ⟨⟩,
        by rintro ⟨⟩⟩ ?_
    rintro ⟨t, was⟩ l ⟨u, after⟩ h hok hstep
    obtain ⟨hu, rfl⟩ := Runs.observe_eq_some.mp hstep
    exact episodeInv_step h hu hok
  refine ⟨h.gate rfl, fun now hblocked => ?_⟩
  change (s.laser.laserOk && (Cooling.gfcoolVerdictFireOk now s.cool || s.cool.decelLit)) = false
  rw [hblocked, h.decel rfl, Bool.or_self, Bool.and_false]

/-! ### A job resumed under its pause -/

/-- The pass ends, and the core goes on to `next`. -/
def passEnds (now : Nat) (next : Laser.SysState) : List Label :=
  [.laser now .publish [], .laser now (.rearmPoll {}) [], .laser now (.core next true) []]

/-- The head has stopped in the pause's hold, the operator resumes under the standing verdict, and the next
poll finds the core in Cycle. -/
def resumesOwnHold : List Label :=
  verdictPauses ++ passEnds (1000 * nsPerMs) .hold ++
    [Label.poll { pollAt (1100 * nsPerMs) "" with holdComplete := true } {}] ++ passEnds (1100 * nsPerMs) .cycle ++
    [Label.poll (pollAt (1200 * nsPerMs) "") {}]

/-- The hold taken again is dark. -/
theorem episode_stays_dark_resumed :
    ∃ s, Runs.Reach (Runs.observe (step fun _ => .number 0) (dark fun _ => .number 0))
        (fun x l => x.2 = true → relights (fun _ => .number 0) x.1 l = false)
        (State.init 0 false false 0, false) (s, true) ∧
      s.laser.core = .cycle ∧ s.cool.holdOurs = true ∧
      (Laser.fireGatePublish (s.read (1200 * nsPerMs))).fireGate = false := by
  have hex : ∃ x, Runs.Reach (Runs.observe (step fun _ => .number 0) (dark fun _ => .number 0))
        (fun x l => x.2 = true → relights (fun _ => .number 0) x.1 l = false)
        (State.init 0 false false 0, false) x ∧
      (x.2 = true ∧ x.1.laser.core = .cycle ∧ x.1.cool.holdOurs = true ∧
        Cooling.gfcoolVerdictFireOk (1200 * nsPerMs) x.1.cool = false) :=
    Runs.exists_reach_of_exec (jobRuns ++ resumesOwnHold) (by decide +kernel)
  obtain ⟨⟨s, was⟩, hrun, hwas, hcore, hours, hblocked⟩ := hex
  obtain rfl : was = true := hwas
  exact ⟨s, hrun, hcore, hours, (episode_stays_dark hrun).2 _ hblocked⟩

/-- The same pause comes in the operator's own hold, which is resumed. -/
def resumesOthersHold : List Label :=
  passEnds (900 * nsPerMs) .hold ++ verdictPauses ++ passEnds (1000 * nsPerMs) .cycle ++
    [.poll (pollAt (1100 * nsPerMs) "") {}]

/-- **A resumed job is lit again in the dark.** The pause comes in the operator's hold and its gate is
published closed; the operator resumes, the client's hold is its first, and the gate is published open. -/
theorem resumed_hold_relights :
    ¬∀ (atof : List Char → Cooling.Double) (uptime : Nat) (hwActive available : Bool) (offValue : Nat) (s : State),
      Runs.Reach (Runs.observe (step atof) (dark atof)) (fun _ _ => True)
        (State.init uptime hwActive available offValue, false) (s, true) →
      ∀ now, s.clock ≤ now → Cooling.gfcoolVerdictFireOk now s.cool = false →
        (Laser.fireGatePublish (s.read now)).fireGate = false := by
  intro hall
  have hex : ∃ x, Runs.Reach (Runs.observe (step fun _ => .number 0) (dark fun _ => .number 0)) (fun _ _ => True)
        (State.init 0 false false 0, false) x ∧
      (x.2 = true ∧ x.1.clock ≤ 1100 * nsPerMs ∧
        Cooling.gfcoolVerdictFireOk (1100 * nsPerMs) x.1.cool = false ∧
        (Laser.fireGatePublish (x.1.read (1100 * nsPerMs))).fireGate = true) :=
    Runs.exists_reach_of_exec (jobRuns ++ resumesOthersHold) (by decide +kernel)
  obtain ⟨⟨s, was⟩, hrun, hwas, hclock, hblocked, hlit⟩ := hex
  obtain rfl : was = true := hwas
  exact absurd ((hall _ _ _ _ _ s hrun _ hclock hblocked).symm.trans hlit) Bool.false_ne_true

end Glowforge.Fire
