import Glowforge.Switches.Machine

/-!
# Glowforge — the door is hidden for the cancel's reset and return only

The hiding begins with a parked job and ends with the poll that finds the return motion over. Nothing
keeps the sender's lines out meanwhile: the reset's banner invites them.

* **`ReturnOnly`** — a core that moves behind a hidden door has nothing but the return line planned.
* **`sparesReturn`** — the core begins no motion of the sender's, and takes none into a motion,
  while the door is hidden.
* **`hidden_runs_return_only`** — then what it executes behind the hidden door is the return line.
-/

namespace Glowforge.Switches

open Laser (SysState Command)

/-- While the door is hidden, a motion begins (a cycle, a resume of the parked job, a jog, a homing)
with the return line's blocks only, and takes no block of the sender's on its way. -/
def sparesReturn (w : World) : Label → Bool
  | .state next _ => !(w.sw.doorHidden && moves next) || w.planner.all (· == .park)
  | .line motion => !(w.sw.doorHidden && moves w.core && motion)
  | _ => true

/-- Behind a hidden door only the return line is in a planner that moves. -/
def ReturnOnly (w : World) : Prop :=
  w.sw.doorHidden = true → moves w.core = true → ∀ b ∈ w.planner, b = .park

/-! ## The polls

A poll hides the door only where it cancels a job. -/

/-- The door is hidden only once a job is parked. -/
theorem cancelPoll_hides {v : View} {s : State} (h : (cancelPoll v s).1.doorHidden = true) :
    s.doorHidden = true ∨ v.st = .safetyDoor := by
  unfold cancelPoll at h
  split at h
  · split at h
    · next hparked =>
      right
      simp only [doorParked, Bool.and_eq_true, beq_iff_eq] at hparked
      exact hparked.1
    · exact .inl h
  · unfold sendReset at h
    split at h
    · exact .inl h
    · exact .inl h
  · unfold resetSentPoll at h
    split_ifs at h
    · cases h
    · exact .inl h
    · cases h
    · exact .inl h
    · cases h
    · exact .inl h
  · unfold parkQueuedPoll at h
    split_ifs at h
    · exact .inl h
    · cases h
    · cases h
    · exact .inl h

theorem gfswPoll_hides {v : View} {s : State} (h : (gfswPoll v s).1.doorHidden = true) :
    s.doorHidden = true ∨ v.st = .safetyDoor := by
  unfold gfswPoll at h
  split at h
  · exact .inl h
  · split at h
    · exact (cancelPoll_hides h).imp id id
    · next raw _ => exact (cancelPoll_hides (s := { s with
        raw := raw, door := _, buttonPrev := raw.button, delivered := _ }) h).imp id id

/-- The calls of a poll leave the core's state and its planner to the core. -/
theorem foldl_take (calls : List Call) (w : World) :
    ∃ resetPending queued, calls.foldl World.take w =
      { w with resetPending := resetPending, queued := queued } := by
  induction calls generalizing w with
  | nil => exact ⟨w.resetPending, w.queued, rfl⟩
  | cons c calls ih =>
    obtain ⟨p, q, htake⟩ : ∃ p q, w.take c = { w with resetPending := p, queued := q } := by
      cases c with
      | enqueue cmd => cases cmd <;> exact ⟨_, _, rfl⟩
      | _ => exact ⟨_, _, rfl⟩
    obtain ⟨p', q', heq⟩ := ih (w.take c)
    refine ⟨p', q', ?_⟩
    rw [List.foldl_cons, heq, htake]

/-- What a poll changes: the switches' variables, and what waits for the core. -/
theorem poll_eq (v : View) (w : World) :
    ∃ resetPending queued, w.poll v = { w with
      sw := (gfswPoll { v with st := w.core, parked := w.parked, resetPending := w.resetPending } w.sw).1
      resetPending := resetPending
      queued := queued } := by
  obtain ⟨p, q, heq⟩ := foldl_take
    (gfswPoll { v with st := w.core, parked := w.parked, resetPending := w.resetPending } w.sw).2
    { w with sw :=
        (gfswPoll { v with st := w.core, parked := w.parked, resetPending := w.resetPending } w.sw).1 }
  exact ⟨p, q, heq⟩

/-! ## The core

What the core does behind a hidden door, up to the poll that shows it again. -/

theorem onStateChange_hidden (next : SysState) (planned : Bool) (position : Position) (s : State) :
    (onStateChange next planned position s).doorHidden = s.doorHidden := by
  unfold onStateChange
  dsimp only
  split_ifs <;> rfl

theorem enter_returnOnly {next : SysState} {parked : Bool} {w : World}
    (h : w.sw.doorHidden = true → moves next = true → ∀ b ∈ w.planner, b = .park) :
    ReturnOnly (w.enter next parked) := by
  intro hhidden hmoves
  rw [World.enter, onStateChange_hidden] at hhidden
  exact h hhidden hmoves

theorem plan_returnOnly {b : Block} {motion : Bool} {w : World} (h : ReturnOnly w)
    (hb : motion = true → w.sw.doorHidden = true → moves w.core = true → b = .park) :
    ReturnOnly (w.plan b motion) := by
  unfold World.plan
  split
  · next hmotion =>
    intro hhidden hmoves c hc
    rcases List.mem_append.mp hc with hc | hc
    · exact h hhidden hmoves c hc
    · rw [List.mem_singleton.mp hc]
      exact hb hmotion hhidden hmoves
  · exact h

/-- **Every step keeps the return line alone.** A poll that hides the door has cancelled a job, and
what the core runs behind it is the line that the cancel has queued. -/
theorem step_returnOnly {w t : World} {l : Label} (hstep : worldStep w l = some t)
    (hspares : sparesReturn w l = true) (h : ReturnOnly w) : ReturnOnly t := by
  cases l with
  | poll v =>
    cases hstep
    obtain ⟨p, q, heq⟩ := poll_eq v w
    rw [heq]
    intro hhidden hmoves
    rcases gfswPoll_hides hhidden with hold | hdoor
    · exact h hold hmoves
    · -- the door is hidden from a core that stands
      have hdoor : w.core = .safetyDoor := hdoor
      rw [show moves w.core = false from by rw [hdoor]; rfl] at hmoves
      cases hmoves
  | state next parked =>
    cases hstep
    refine enter_returnOnly fun hhidden hmoves b hb => ?_
    have hall : ∀ b ∈ w.planner, b = .park := by
      simpa [sparesReturn, hhidden, hmoves] using hspares
    exact hall b hb
  | line motion =>
    cases hstep
    refine plan_returnOnly h fun hmotion hhidden hmoves => ?_
    simp [sparesReturn, hmotion, hhidden, hmoves] at hspares
  | returnLine motion =>
    obtain ⟨target, -, rfl⟩ := Option.map_eq_some_iff.mp hstep
    exact plan_returnOnly h fun _ _ _ => rfl
  | execute position =>
    simp only [worldStep] at hstep
    split at hstep
    · cases hstep
    · next b rest hplanner =>
      split at hstep
      · cases hstep
        intro hhidden hmoves c hc
        exact h hhidden hmoves c (by rw [hplanner]; exact List.mem_cons_of_mem b hc)
      · cases hstep
  | resetRequest =>
    cases hstep
    exact h
  | reset next =>
    cases hstep
    exact enter_returnOnly fun _ _ b hb => absurd hb List.not_mem_nil

/-! ## Runs

In every run that meets the condition, and the new job that does not. -/

/-- **The door is hidden for the cancel's own motion only.** In every run in which the core begins no
motion with a block of the sender's planned, and takes no such block into a motion, while the door is
hidden: a block that it executes behind the hidden door is the return line's. -/
theorem hidden_runs_return_only {available : Bool} {raw : Laser.Switches} {w t : World} {position : Position}
    (hrun : Runs.Reach worldStep (fun w l => sparesReturn w l = true) (World.start available raw) w)
    (hexec : worldStep w (.execute position) = some t) (hhidden : w.sw.doorHidden = true) :
    w.planner.head? = some .park := by
  have honly : ReturnOnly w := hrun.invariant (P := ReturnOnly) (by rintro ⟨⟩)
      fun _ _ _ h hspares hstep =>
    step_returnOnly hstep hspares h
  simp only [worldStep] at hexec
  split at hexec
  · cases hexec
  · next b rest hplanner =>
    split at hexec
    · next hmoves =>
      rw [hplanner, List.head?_cons, honly hhidden hmoves b (by rw [hplanner]; exact List.mem_cons_self)]
    · cases hexec

/-- The lid is open and nothing is pressed. -/
def lidOpen : View := { raw := some ⟨false, false, false⟩ }

/-- A job runs, the lid opens and parks it, the poll cancels it and the next resets the core. -/
def cancelled : List Label :=
  [.line true, .state .cycle false, .poll lidOpen, .state .safetyDoor true, .poll lidOpen, .poll lidOpen,
    .reset .idle]

/-- The return line is taken and run. -/
theorem hidden_runs_return_only_park :
    ∃ w t, Runs.Reach worldStep (fun w l => sparesReturn w l = true) (World.start true ⟨true, false, false⟩) w ∧
      (worldStep w (.execute ⟨0, 0, 0⟩) = some t ∧ w.sw.doorHidden = true) ∧
      w.planner.head? = some .park := by
  have hex : ∃ w, Runs.Reach worldStep (fun w l => sparesReturn w l = true)
        (World.start true ⟨true, false, false⟩) w ∧
      ((worldStep w (.execute ⟨0, 0, 0⟩)).isSome = true ∧ w.sw.doorHidden = true) :=
    Runs.exists_reach_of_exec (cancelled ++ [Label.poll lidOpen, .returnLine true, .state .cycle false])
      (by decide +kernel)
  obtain ⟨w, hrun, hexec, hhidden⟩ := hex
  obtain ⟨t, ht⟩ := Option.isSome_iff_exists.mp hexec
  exact ⟨w, t, hrun, ⟨ht, hhidden⟩, hidden_runs_return_only hrun ht hhidden⟩

/-- **A new job runs behind the hidden door.** The sender's first line behind the reset's banner
starts a cycle before a poll finds the core idle, and the lid is open. -/
theorem hidden_runs_new_job :
    ¬∀ (w t : World) (position : Position),
      Runs.Reach worldStep (fun _ _ => True) (World.start true ⟨true, false, false⟩) w →
      worldStep w (.execute position) = some t → w.sw.doorHidden = true →
      w.planner.head? = some .park := by
  intro hall
  have hex : ∃ w, Runs.Reach worldStep (fun _ _ => True) (World.start true ⟨true, false, false⟩) w ∧
      ((worldStep w (.execute ⟨0, 0, 0⟩)).isSome = true ∧ w.sw.doorHidden = true ∧
        w.planner.head? = some .sender) :=
    Runs.exists_reach_of_exec (cancelled ++ [Label.line true, .state .cycle false, .poll lidOpen])
      (by decide +kernel)
  obtain ⟨w, hrun, hexec, hhidden, hsender⟩ := hex
  obtain ⟨t, ht⟩ := Option.isSome_iff_exists.mp hexec
  rw [hall w t _ hrun ht hhidden] at hsender
  cases hsender

end Glowforge.Switches
