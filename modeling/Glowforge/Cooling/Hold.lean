import Glowforge.Lib.Runs
import Glowforge.Cooling.Poll

/-!
# Glowforge — the client resumes its own hold

`hold_ours` says that the client has taken a hold. It is cleared by the resume, and by a poll
that finds a clean verdict and the core outside the hold; no other branch of the poll looks at
it, so it outlives a reset under a stale verdict.

* **`gfcoolPoll_resume`**, **`gfcoolPoll_holdOurs`** — what a poll does with the flag.
* **`resumes_own_hold`** — the client resumes its own holds only, in every run in which nobody
  else enters a hold while the flag is set.
-/

namespace Glowforge.Cooling

open Glowforge.Laser (SysState)

theorem pollRead_holdOurs (atof : List Char → Double) (e : PollEnv) (s : Cool) :
    (pollRead atof e s).holdOurs = s.holdOurs := by
  unfold pollRead
  split
  · unfold verdictRead
    split
    · rfl
    · split
      · rfl
      · dsimp only
        split <;> rfl
  · rfl

/-- The enforcement finds the flag as the poll did. -/
theorem enforced_holdOurs (atof : List Char → Double) (e : PollEnv) (st : SysState)
    (armed blocked fresh : Bool) (s : Cool) :
    (decelTrack st e.holdComplete
      (pollTiers e st armed blocked fresh (pollRead atof e s)).1).holdOurs = s.holdOurs :=
  (congrArg Prod.snd (enforced_kept _ _ _ _ _ _)).trans (pollRead_holdOurs atof e s)

theorem verdictRelay_holdOurs (readNow : Bool) (s : Cool) :
    (verdictRelay readNow s).1.holdOurs = s.holdOurs :=
  congrArg Prod.snd (verdictRelay_kept readNow s)

/-! ## Who resumes

Of the poll's branches, only a clean verdict resumes; the other branches issue reports, messages and
holds. -/

/-- No resume among these. -/
def NoResume (acts : List Act) : Prop := ∀ gated, Act.resume gated ∉ acts

theorem reportNow_noResume (now : Nat) (st : SysState) (s : Cool) :
    NoResume (reportNow now st s).2 := by
  intro gated hmem
  cases List.mem_singleton.mp hmem

theorem pollTiers_noResume (e : PollEnv) (st : SysState) (armed blocked fresh : Bool) (s : Cool) :
    NoResume (pollTiers e st armed blocked fresh s).2 := by
  intro gated hmem
  unfold pollTiers gfcoolLaserArmed at hmem
  split_ifs at hmem <;> simp [reportNow] at hmem

theorem verdictRelay_noResume (readNow : Bool) (s : Cool) : NoResume (verdictRelay readNow s).2 := by
  intro gated hmem
  unfold verdictRelay at hmem
  dsimp only at hmem
  split_ifs at hmem <;> simp at hmem

theorem pollReport_noResume (e : PollEnv) (st : SysState) (s : Cool) :
    NoResume (pollReport e st s).2 := by
  unfold pollReport
  split
  · exact reportNow_noResume _ _ _
  · intro gated hmem
    cases hmem

theorem holdTake_noResume (stale : Bool) (s : Cool) : NoResume (holdTake stale s).2 := by
  intro gated hmem
  unfold holdTake at hmem
  dsimp only at hmem
  split_ifs at hmem <;> simp at hmem

theorem verdictHolds_noResume (st : SysState) (s : Cool) : NoResume (verdictHolds st s).2 := by
  unfold verdictHolds
  split
  · exact holdTake_noResume _ _
  · intro gated hmem
    split_ifs at hmem <;> simp at hmem

theorem verdictMissing_noResume (st : SysState) (s : Cool) :
    NoResume (verdictMissing st s).2 := by
  intro gated hmem
  unfold verdictMissing holdTake at hmem
  dsimp only at hmem
  split_ifs at hmem <;> simp at hmem

/-- The one branch that resumes finds the flag set and the core in the hold. -/
theorem verdictClean_resume {e : PollEnv} {st : SysState} {s : Cool} {gated : Bool}
    (h : Act.resume gated ∈ (verdictClean e st s).2) : s.holdOurs = true ∧ st = .hold := by
  unfold verdictClean at h
  dsimp only at h
  split at h
  · next hours =>
    split at h
    · cases h
    · next hhold => exact ⟨hours, not_not.mp hhold⟩
  · cases h

/-- **A poll resumes only with the flag set, in a hold.** The resume is issued in one place, behind
a clean verdict, and the branch has asked for both. -/
theorem gfcoolPoll_resume {atof : List Char → Double} {e : PollEnv} {st : SysState} {armed : Bool}
    {s : Cool} {gated : Bool} (h : Act.resume gated ∈ (gfcoolPoll atof e st armed s).2) :
    s.holdOurs = true ∧ st = .hold := by
  unfold gfcoolPoll at h
  dsimp only at h
  rw [List.mem_append, List.mem_append] at h
  rcases h with (h | h) | h
  · exact absurd h (pollTiers_noResume _ _ _ _ _ _ gated)
  · unfold pollVerdict at h
    dsimp only at h
    split at h
    · rcases List.mem_append.mp h with h | h
      · exact absurd h (verdictRelay_noResume _ _ gated)
      · split at h
        · exact absurd h (verdictHolds_noResume _ _ gated)
        · obtain ⟨hours, hhold⟩ := verdictClean_resume h
          rw [verdictRelay_holdOurs, enforced_holdOurs] at hours
          exact ⟨hours, hhold⟩
    · exact absurd h (verdictMissing_noResume _ _ gated)
  · exact absurd h (pollReport_noResume _ _ _ gated)

/-! ## Who sets the flag

`hold_ours` is set by a hold that the client takes and cleared by its resume. A poll that finds the
core already out of the hold clears it without one. -/

theorem verdictMissing_holdOurs {st : SysState} {s : Cool}
    (h : (verdictMissing st s).1.holdOurs = true) : s.holdOurs = true ∨ st = .cycle := by
  by_cases hcycle : st = .cycle
  · exact .inr hcycle
  · refine .inl ?_
    unfold verdictMissing at h
    simp only [hcycle, if_false] at h
    split_ifs at h <;> exact h

theorem verdictHolds_holdOurs {st : SysState} {s : Cool}
    (h : (verdictHolds st s).1.holdOurs = true) : s.holdOurs = true ∨ st = .cycle := by
  by_cases hcycle : st = .cycle
  · exact .inr hcycle
  · refine .inl ?_
    unfold verdictHolds at h
    simp only [hcycle, if_false] at h
    split_ifs at h <;> exact h

theorem verdictClean_holdOurs {e : PollEnv} {st : SysState} {s : Cool}
    (h : (verdictClean e st s).1.holdOurs = true) : s.holdOurs = true := by
  unfold verdictClean at h
  dsimp only at h
  split_ifs at h <;> assumption

/-- **A poll sets the flag in a cycle only.** -/
theorem gfcoolPoll_holdOurs {atof : List Char → Double} {e : PollEnv} {st : SysState} {armed : Bool}
    {s : Cool} (h : (gfcoolPoll atof e st armed s).1.holdOurs = true) :
    s.holdOurs = true ∨ st = .cycle := by
  unfold gfcoolPoll at h
  dsimp only at h
  rw [show ∀ c : Cool, (pollReport e st c).1.holdOurs = c.holdOurs from fun c =>
    congrArg Prod.snd (pollReport_kept e st c)] at h
  unfold pollVerdict at h
  dsimp only at h
  split at h
  · split at h
    · have hours := verdictHolds_holdOurs h
      rwa [verdictRelay_holdOurs, enforced_holdOurs] at hours
    · have hours := verdictClean_holdOurs h
      rw [verdictRelay_holdOurs, enforced_holdOurs] at hours
      exact .inl hours
  · have hours := verdictMissing_holdOurs h
    rwa [enforced_holdOurs] at hours

/-! ## Runs

The client owns the hold that stands while its flag is set, provided that nobody else enters one
then. The reset that leaves the flag behind is the run at the end. -/

/-- Nobody else enters a hold while the flag is set. -/
def HoldsAlone (s : State) : Label → Prop
  | .otherHold => s.cool.holdOurs = false
  | _ => True

/-- With the flag set, a hold is the client's. -/
def Owned (s : State) : Prop :=
  s.cool.holdOurs = true → s.core = .hold → s.heldBy = some .client

theorem owned_step {atof : List Char → Double} {s t : State} {l : Label} (h : Owned s)
    (hok : HoldsAlone s l) (hstep : step atof s l = some t) : Owned t := by
  unfold step at hstep
  split at hstep
  · cases l with
    | poll e =>
      cases hstep
      intro hours hhold
      rcases gfcoolPoll_holdOurs hours with hours | hcycle
      · exact h hours hhold
      · -- a hold taken in this poll is still to be entered
        rw [show s.core = .hold from hhold] at hcycle
        cases hcycle
    | feedHold enters =>
      simp only [act] at hstep
      split at hstep
      · cases hstep
        split
        · exact fun _ _ => rfl
        · exact h
      · cases hstep
    | otherHold =>
      simp only [act] at hstep
      split at hstep
      · cases hstep
      · cases hstep
        intro hours
        rw [show s.cool.holdOurs = false from hok] at hours
        cases hours
    | core st =>
      simp only [act] at hstep
      split at hstep
      · cases hstep
      · next hst =>
        cases hstep
        exact fun _ hhold => absurd hhold hst
    | window now on =>
      cases hstep
      intro hours
      exact h ((congrArg Prod.snd (gfcoolLaserArmed_kept now s.core on s.cool)).symm.trans hours)
    | armed on =>
      cases hstep
      exact h
    | coolant now flood =>
      cases hstep
      intro hours
      exact h ((congrArg Prod.snd (gfcoolCoolantSet_kept now s.core flood s.cool)).symm.trans hours)
  · cases hstep

/-- **The client resumes only its own hold.** In every run of polls, verdicts, core states,
resets, windows and coolant changes in which no other hold is entered while `hold_ours` is set,
a poll that resumes does so in a hold that a feed hold of `hold_take`'s entered and that the
core has not left. -/
theorem resumes_own_hold {atof : List Char → Double} {uptime : Nat} {s : State} {e : PollEnv}
    {gated : Bool} (hrun : Runs.Reach (step atof) HoldsAlone (State.init uptime) s)
    (hresume : Act.resume gated ∈ (gfcoolPoll atof e s.core s.armed s.cool).2) :
    s.core = .hold ∧ s.heldBy = some .client := by
  have howned : Owned s :=
    hrun.invariant (P := Owned) (fun hours => by cases hours) fun _ _ _ h hok hstep =>
      owned_step h hok hstep
  obtain ⟨hours, hhold⟩ := gfcoolPoll_resume hresume
  exact ⟨hhold, howned hours hhold⟩

instance (s : State) : (l : Label) → Decidable (HoldsAlone s l)
  | .otherHold => inferInstanceAs (Decidable (s.cool.holdOurs = false))
  | .poll _ | .feedHold _ | .core _ | .window _ _ | .armed _ | .coolant _ _ => isTrue trivial

/-- A poll whose readings of the clock all fall on one moment. -/
def pollAt (ms : Nat) (file : Option (List Char)) : PollEnv where
  now := ms * nsPerMs
  first := ms * nsPerMs
  second := ms * nsPerMs
  fresh := ms * nsPerMs
  fire := ms * nsPerMs
  report := ms * nsPerMs
  file := file
  holdComplete := false
  resumeGate := false

/-- A verdict of the clock's zero that asks for nothing and lets a held job go on. -/
def cleanVerdict : Option (List Char) :=
  some "\x7b\"ts_mono\":0,\"hold\":false,\"resume_ok\":true\x7d".toList

/-- The service is lost under a running job: the client holds it. -/
def serviceLost : List Label :=
  [.window 0 true, .core .cycle, .poll (pollAt 0 none), .feedHold true]

theorem resumes_own_hold_restored :
    ∃ s, Runs.Reach (step fun _ => .number 0) HoldsAlone (State.init 0) s ∧
      Act.resume false ∈ (gfcoolPoll (fun _ => .number 0) (pollAt 1000 cleanVerdict) s.core s.armed
        s.cool).2 ∧ s.core = .hold ∧ s.heldBy = some .client := by
  have hex : ∃ s, Runs.Reach (step fun _ => .number 0) HoldsAlone (State.init 0) s ∧
      Act.resume false ∈ (gfcoolPoll (fun _ => .number 0) (pollAt 1000 cleanVerdict) s.core s.armed
        s.cool).2 :=
    Runs.exists_reach_of_exec serviceLost (by decide +kernel)
  obtain ⟨s, hrun, hresume⟩ := hex
  exact ⟨s, hrun, hresume, resumes_own_hold hrun hresume⟩

/-- **A reset under a stale verdict leaves the flag for the operator's hold.** The held job is
reset and disarmed, polls go by without a verdict, the operator starts and holds another job,
and the service comes back: the client ends the operator's hold. -/
theorem resumes_operator_hold :
    ¬∀ (atof : List Char → Double) (uptime : Nat) (s : State) (e : PollEnv) (gated : Bool),
      Runs.Reach (step atof) (fun _ _ => True) (State.init uptime) s →
        Act.resume gated ∈ (gfcoolPoll atof e s.core s.armed s.cool).2 →
          s.core = .hold ∧ s.heldBy = some .client := by
  intro hall
  have hex : ∃ s, Runs.Reach (step fun _ => .number 0) (fun _ _ => True) (State.init 0) s ∧
      (Act.resume false ∈ (gfcoolPoll (fun _ => .number 0) (pollAt 1000 cleanVerdict) s.core s.armed
        s.cool).2 ∧ s.heldBy = some .other) :=
    Runs.exists_reach_of_exec (serviceLost ++
      [.core .idle, .window 100000000 false, .poll (pollAt 200 none), .core .cycle, .otherHold,
       .poll (pollAt 300 none)]) (by decide +kernel)
  obtain ⟨s, hrun, hresume, hother⟩ := hex
  have hclient := (hall _ _ s _ _ hrun hresume).2
  rw [hother] at hclient
  cases hclient

end Glowforge.Cooling
