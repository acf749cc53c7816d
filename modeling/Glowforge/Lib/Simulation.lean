import Glowforge.Lib.Runs

/-!
# Refinement of one system by another

A system refines another where each of its steps is matched by some steps of the other, none included.
What the other never does, the first one does not do either.

* **`Simulates`** — the step condition, on a relation between the states.
* **`Simulates.reach`** — every run is matched by a run.
* **`Simulates.safe`** — so what holds in every state that the other reaches holds behind the relation.
-/

namespace Runs

variable {σ τ ι κ : Type} {step : σ → ι → Option σ} {ok : σ → ι → Prop} {step' : τ → κ → Option τ}
  {ok' : τ → κ → Prop} {R : σ → τ → Prop}

/-- Every admitted step of the first system is matched by a run of the second one. -/
def Simulates (step : σ → ι → Option σ) (ok : σ → ι → Prop) (step' : τ → κ → Option τ)
    (ok' : τ → κ → Prop) (R : σ → τ → Prop) : Prop :=
  ∀ s l t u, R s u → ok s l → step s l = some t → ∃ v, Reach step' ok' u v ∧ R t v

theorem Simulates.reach (h : Simulates step ok step' ok' R) {s t : σ} {u : τ} (hstart : R s u)
    (hrun : Reach step ok s t) : ∃ v, Reach step' ok' u v ∧ R t v := by
  induction hrun with
  | refl => exact ⟨u, .refl, hstart⟩
  | step _ hok hstep ih =>
    obtain ⟨v, hv, hrel⟩ := ih
    obtain ⟨w, hw, hrel'⟩ := h _ _ _ _ hrel hok hstep
    exact ⟨w, hv.trans hw, hrel'⟩

theorem Simulates.safe (h : Simulates step ok step' ok' R) {s t : σ} {u : τ} {P : τ → Prop} {Q : σ → Prop}
    (hsafe : ∀ v, Reach step' ok' u v → P v) (hcarry : ∀ t v, R t v → P v → Q t) (hstart : R s u)
    (hrun : Reach step ok s t) : Q t := by
  obtain ⟨v, hv, hrel⟩ := h.reach hstart hrun
  exact hcarry t v hrel (hsafe v hv)

end Runs
