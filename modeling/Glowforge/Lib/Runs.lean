/-!
# Runs of a partial step function

A system is a step function `step : σ → ι → Option σ`: a label `ι` names one atomic step
together with everything its environment decides (a clock reading, the result of a write),
and `none` says that the step cannot be taken in that state.

* **`Reach`** — the states that a run reaches, where a side condition `ok` may restrict
  which label is taken in which state.
* **`Reach.invariant`** — the induction rule: what holds at the start and survives every
  admitted step holds in every state reached.
* **`observe`** — a system with a passive history beside it, for properties that mention
  what has happened and not only the state; the history can be dropped from a run
  (`Reach.forget`), and put beside one (`Reach.remember`).
* **`exec`** — a list of labels run in order, which turns a concrete schedule into a
  `Reach` (`reach_of_exec`).
-/

namespace Runs

variable {σ ι η : Type}

/-- `Reach step ok s t`: a run leads from `s` to `t`, and each of its labels meets `ok` in
the state in which it is taken. -/
inductive Reach (step : σ → ι → Option σ) (ok : σ → ι → Prop) (s : σ) : σ → Prop where
  | refl : Reach step ok s s
  | step {t u : σ} {l : ι} (hrun : Reach step ok s t) (hok : ok t l)
      (hstep : step t l = some u) : Reach step ok s u

/-- **The invariant rule.** A property of the first state that every admitted step keeps
holds in every state that a run reaches. -/
theorem Reach.invariant {step : σ → ι → Option σ} {ok : σ → ι → Prop} {P : σ → Prop} {s t : σ}
    (hrun : Reach step ok s t) (h0 : P s)
    (hkeep : ∀ t l u, P t → ok t l → step t l = some u → P u) : P t := by
  induction hrun with
  | refl => exact h0
  | step _ hok hstep ih => exact hkeep _ _ _ ih hok hstep

/-- A weaker side condition admits every run that a stronger one does. -/
theorem Reach.mono {step : σ → ι → Option σ} {ok ok' : σ → ι → Prop} {s t : σ}
    (hrun : Reach step ok s t) (himp : ∀ t l, ok t l → ok' t l) : Reach step ok' s t := by
  induction hrun with
  | refl => exact .refl
  | step _ hok hstep ih => exact .step ih (himp _ _ hok) hstep

/-- The same system beside a history that `record` extends at every step. The history never
decides whether a step is taken. -/
def observe (step : σ → ι → Option σ) (record : σ → ι → η → η) : σ × η → ι → Option (σ × η)
  | (s, h), l => (step s l).map fun t => (t, record s l h)

theorem observe_eq_some {step : σ → ι → Option σ} {record : σ → ι → η → η} {s t : σ} {h k : η}
    {l : ι} :
    observe step record (s, h) l = some (t, k) ↔ step s l = some t ∧ k = record s l h := by
  simp only [observe, Option.map_eq_some_iff, Prod.mk.injEq]
  constructor
  · rintro ⟨u, hu, rfl, rfl⟩
    exact ⟨hu, rfl⟩
  · rintro ⟨hs, rfl⟩
    exact ⟨t, hs, rfl, rfl⟩

/-- The invariant rule for an observed system, with the state and its history apart. -/
theorem Reach.invariant_observe {step : σ → ι → Option σ} {record : σ → ι → η → η}
    (ok : σ → ι → Prop) {P : σ → η → Prop} {s t : σ} {h k : η}
    (hrun : Reach (observe step record) (fun x l => ok x.1 l) (s, h) (t, k)) (h0 : P s h)
    (hkeep : ∀ t k l u, P t k → ok t l → step t l = some u → P u (record t l k)) : P t k := by
  refine hrun.invariant (P := fun x => P x.1 x.2) h0 ?_
  rintro ⟨t, k⟩ l ⟨u, k'⟩ hP hok hstep
  obtain ⟨hs, rfl⟩ := observe_eq_some.mp hstep
  exact hkeep t k l u hP hok hs

/-- A run of an observed system is a run of the system. -/
theorem Reach.forget {step : σ → ι → Option σ} {record : σ → ι → η → η} {ok : σ × η → ι → Prop}
    {ok' : σ → ι → Prop} {x y : σ × η} (hrun : Reach (observe step record) ok x y)
    (himp : ∀ x l, ok x l → ok' x.1 l) : Reach step ok' x.1 y.1 := by
  induction hrun with
  | refl => exact .refl
  | step _ hok hstep ih => exact .step ih (himp _ _ hok) (observe_eq_some.mp hstep).1

/-- A run can be observed with any history. -/
theorem Reach.remember {step : σ → ι → Option σ} (record : σ → ι → η → η) {ok : σ → ι → Prop} {s t : σ}
    (hrun : Reach step ok s t) (h : η) :
    ∃ k, Reach (observe step record) (fun x l => ok x.1 l) (s, h) (t, k) := by
  induction hrun with
  | refl => exact ⟨h, .refl⟩
  | step _ hok hstep ih =>
    obtain ⟨k, hk⟩ := ih
    exact ⟨_, .step hk hok (observe_eq_some.mpr ⟨hstep, rfl⟩)⟩

/-! ## Concrete schedules

A schedule is a list of labels. Running it is a computation, and what it reaches is reached by a
run. -/

/-- Runs a schedule; `none` when a label cannot be taken or does not meet `ok`. -/
def exec (step : σ → ι → Option σ) (ok : σ → ι → Prop) [∀ s l, Decidable (ok s l)] :
    σ → List ι → Option σ
  | s, [] => some s
  | s, l :: ls => if ok s l then (step s l).bind fun t => exec step ok t ls else none

theorem Reach.trans {step : σ → ι → Option σ} {ok : σ → ι → Prop} {s t u : σ}
    (h1 : Reach step ok s t) (h2 : Reach step ok t u) : Reach step ok s u := by
  induction h2 with
  | refl => exact h1
  | step _ hok hstep ih => exact .step ih hok hstep

/-- A schedule that runs to its end is a run. -/
theorem reach_of_exec {step : σ → ι → Option σ} {ok : σ → ι → Prop}
    [∀ s l, Decidable (ok s l)] {s t : σ} {ls : List ι}
    (h : exec step ok s ls = some t) : Reach step ok s t := by
  induction ls generalizing s with
  | nil =>
    cases h
    exact .refl
  | cons l ls ih =>
    simp only [exec] at h
    split at h
    · next hok =>
      obtain ⟨u, hu, hrest⟩ := Option.bind_eq_some_iff.mp h
      exact (Reach.step .refl hok hu).trans (ih hrest)
    · exact absurd h (by rintro ⟨⟩)

/-- A schedule whose end meets a decidable property shows a run to such a state. -/
theorem exists_reach_of_exec {step : σ → ι → Option σ} {ok : σ → ι → Prop}
    [∀ s l, Decidable (ok s l)] {P : σ → Prop} [DecidablePred P] {s : σ} (ls : List ι)
    (h : (exec step ok s ls).any (fun t => decide (P t)) = true) :
    ∃ t, Reach step ok s t ∧ P t := by
  obtain ⟨t, ht, hP⟩ := (Option.any_eq_true _ _).mp h
  exact ⟨t, reach_of_exec ht, of_decide_eq_true hP⟩

/-- The same behind a run that is known already. -/
theorem Reach.exists_of_exec {step : σ → ι → Option σ} {ok : σ → ι → Prop}
    [∀ s l, Decidable (ok s l)] {P : σ → Prop} [DecidablePred P] {s t : σ}
    (hrun : Reach step ok s t) (ls : List ι)
    (h : (exec step ok t ls).any (fun u => decide (P u)) = true) : ∃ u, Reach step ok s u ∧ P u := by
  obtain ⟨u, hu, hP⟩ := exists_reach_of_exec ls h
  exact ⟨u, hrun.trans hu, hP⟩

end Runs
