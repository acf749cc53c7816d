import Glowforge.Cooling.Hold

/-!
# Glowforge — the lit deceleration

`decel_lit` keeps the stream's gate open while the client's own hold decelerates. `hold_take` sets it when
`hold_ours` is clear; a poll that finds no blocked fire inside the window clears it, and so does the end of
the deceleration.

* **`HoldFlags`** — the two flags; `take` is what a hold does to them.
* **`gfcoolPoll_flags`** — what a poll does to them: it lets the deceleration go on, and takes a hold in
  Cycle.
* **`lit_ours`** — a deceleration is lit under the client's own hold only.
-/

namespace Glowforge.Cooling

open Glowforge.Laser (SysState)

/-! ## The poll's parts

The poll in the order of its statements. Each part is described by what it does to the two flags of
the hold, since nothing else of the poll decides whether the gate is held open. -/

/-- The flags that the hold goes by. -/
structure HoldFlags where
  decelLit : Bool
  holdOurs : Bool
deriving DecidableEq

def Cool.flags (s : Cool) : HoldFlags := ⟨s.decelLit, s.holdOurs⟩

/-- A hold taken: lit when it is the first. -/
def HoldFlags.take (f : HoldFlags) : HoldFlags :=
  { decelLit := f.decelLit || !f.holdOurs, holdOurs := true }

theorem gfcoolLaserArmed_flags (now : Nat) (st : SysState) (on : Bool) (s : Cool) :
    (gfcoolLaserArmed now st on s).1.flags = s.flags := by
  unfold gfcoolLaserArmed
  split <;> rfl

theorem gfcoolCoolantSet_flags (now : Nat) (st : SysState) (on : Bool) (s : Cool) :
    (gfcoolCoolantSet now st on s).1.flags = s.flags := by
  unfold gfcoolCoolantSet
  dsimp only
  split <;> rfl

theorem verdictRead_flags (atof : List Char → Double) (file : Option (List Char)) (first second : Nat) (s : Cool) :
    (verdictRead atof file first second s).flags = s.flags := by
  unfold verdictRead
  split
  · rfl
  · split
    · rfl
    · split <;> rfl

theorem pollRead_flags (atof : List Char → Double) (e : PollEnv) (s : Cool) : (pollRead atof e s).flags = s.flags := by
  unfold pollRead
  split
  · rw [verdictRead_flags]
    simp only [Cool.flags]
  · rfl

/-- Blocked fire inside the window leaves the deceleration as it is. -/
theorem pollTiers_flags (e : PollEnv) (st : SysState) (armed blocked fresh : Bool) (s : Cool) :
    (pollTiers e st armed blocked fresh s).1.flags =
      { s.flags with decelLit := s.decelLit && (armed && blocked) } := by
  unfold pollTiers
  split
  · next hblocked =>
    rw [hblocked, Bool.and_true]
    split
    · exact gfcoolLaserArmed_flags _ _ _ _
    · split <;> rfl
  · next hclear =>
    rw [eq_false_of_ne_true hclear, Bool.and_false]
    rfl

/-- The lit deceleration goes on. -/
def decelerates (st : SysState) (holdComplete : Bool) : Bool :=
  st == .cycle || (st == .hold && !holdComplete)

theorem decelTrack_flags (st : SysState) (holdComplete : Bool) (s : Cool) :
    (decelTrack st holdComplete s).flags =
      { s.flags with decelLit := s.decelLit && decelerates st holdComplete } := by
  unfold decelTrack decelerates
  cases st <;> cases holdComplete <;> simp [Cool.flags]

theorem verdictRelay_flags (readNow : Bool) (s : Cool) : (verdictRelay readNow s).1.flags = s.flags := by
  unfold verdictRelay
  dsimp only
  split <;> rfl

theorem verdictHolds_flags (st : SysState) (s : Cool) :
    st = .cycle ∧ (verdictHolds st s).1.flags = s.flags.take ∨ (verdictHolds st s).1.flags = s.flags := by
  unfold verdictHolds
  split
  · next hcycle => exact .inl ⟨hcycle, rfl⟩
  · split
    · exact .inr rfl
    · split <;> exact .inr rfl

theorem verdictMissing_flags (st : SysState) (s : Cool) :
    st = .cycle ∧ (verdictMissing st s).1.flags = s.flags.take ∨ (verdictMissing st s).1.flags = s.flags := by
  unfold verdictMissing
  split
  · by_cases hcycle : st = .cycle
    · refine .inl ⟨hcycle, ?_⟩
      simp only [hcycle, if_true]
      split <;> rfl
    · right
      simp only [hcycle, if_false]
      split_ifs <;> rfl
  · exact .inr rfl

/-- A clean verdict takes no hold. -/
theorem verdictClean_flags (e : PollEnv) (st : SysState) (s : Cool) :
    (verdictClean e st s).1.decelLit = s.decelLit ∧
      ((verdictClean e st s).1.holdOurs = true → s.holdOurs = true) := by
  unfold verdictClean
  dsimp only
  split
  · split
    · exact ⟨rfl, by rintro ⟨⟩⟩
    · split
      · exact ⟨rfl, by rintro ⟨⟩⟩
      · exact ⟨rfl, id⟩
  · exact ⟨rfl, id⟩

theorem pollReport_flags (e : PollEnv) (st : SysState) (s : Cool) : (pollReport e st s).1.flags = s.flags := by
  unfold pollReport
  split <;> rfl

theorem pollVerdict_flags (e : PollEnv) (st : SysState) (armed blocked fresh readNow : Bool) (s : Cool) :
    (st = .cycle ∧ (pollVerdict e st armed blocked fresh readNow s).1.flags = s.flags.take) ∨
    (pollVerdict e st armed blocked fresh readNow s).1.flags = s.flags ∨
    ((armed && blocked) = false ∧
      (pollVerdict e st armed blocked fresh readNow s).1.decelLit = s.decelLit ∧
      ((pollVerdict e st armed blocked fresh readNow s).1.holdOurs = true → s.holdOurs = true)) := by
  unfold pollVerdict
  split
  · have hrelay := verdictRelay_flags readNow s
    dsimp only
    split
    · rcases verdictHolds_flags st (verdictRelay readNow s).1 with ⟨hcycle, htake⟩ | hsame
      · exact .inl ⟨hcycle, htake.trans (congrArg HoldFlags.take hrelay)⟩
      · exact .inr (.inl (hsame.trans hrelay))
    · next hclear =>
      rw [Bool.or_eq_true, not_or] at hclear
      obtain ⟨hlit, hours⟩ := verdictClean_flags e st (verdictRelay readNow s).1
      refine .inr (.inr ⟨eq_false_of_ne_true hclear.2, hlit.trans (congrArg HoldFlags.decelLit hrelay), ?_⟩)
      exact fun h => (congrArg HoldFlags.holdOurs hrelay).symm.trans (hours h)
  · exact (verdictMissing_flags st s).imp_right .inl

/-! ## The poll

The parts together. The poll's verdict and the core's state decide between letting the deceleration
go on and taking a hold. -/

/-- The poll finds that the verdict blocks fire. -/
def pollBlocked (atof : List Char → Double) (e : PollEnv) (s : Cool) : Bool :=
  !gfcoolVerdictFireOk e.fire (pollRead atof e s)

/-- The flags once a poll has looked at the deceleration, ahead of its own hold. -/
def pollTracked (atof : List Char → Double) (e : PollEnv) (st : SysState) (armed : Bool) (s : Cool) : HoldFlags where
  decelLit := s.decelLit && (armed && pollBlocked atof e s) && decelerates st e.holdComplete
  holdOurs := s.holdOurs

/-- **What a poll does to the flags**: it takes a hold in Cycle, or not, or ends its own under a verdict that
lets the window fire. -/
theorem gfcoolPoll_flags (atof : List Char → Double) (e : PollEnv) (st : SysState) (armed : Bool) (s : Cool) :
    (st = .cycle ∧ (gfcoolPoll atof e st armed s).1.flags = (pollTracked atof e st armed s).take) ∨
    (gfcoolPoll atof e st armed s).1.flags = pollTracked atof e st armed s ∨
    ((armed && pollBlocked atof e s) = false ∧
      (gfcoolPoll atof e st armed s).1.decelLit = (pollTracked atof e st armed s).decelLit ∧
      ((gfcoolPoll atof e st armed s).1.holdOurs = true → s.holdOurs = true)) := by
  have htracked : ∀ fresh, (decelTrack st e.holdComplete
      (pollTiers e st armed (pollBlocked atof e s) fresh (pollRead atof e s)).1).flags =
        pollTracked atof e st armed s := by
    intro fresh
    have hread := pollRead_flags atof e s
    have htiers := pollTiers_flags e st armed (pollBlocked atof e s) fresh (pollRead atof e s)
    rw [hread] at htiers
    rw [decelTrack_flags, htiers, show (pollTiers e st armed (pollBlocked atof e s) fresh
      (pollRead atof e s)).1.decelLit = _ from congrArg HoldFlags.decelLit htiers,
      show (pollRead atof e s).decelLit = s.decelLit from congrArg HoldFlags.decelLit hread]
    rfl
  have hpoll := pollVerdict_flags e st armed (pollBlocked atof e s) (verdictFresh e.fresh (pollRead atof e s))
    (Clock.due (monoMs e.now) s.nextVerdictMs) (decelTrack st e.holdComplete
      (pollTiers e st armed (pollBlocked atof e s) (verdictFresh e.fresh (pollRead atof e s))
        (pollRead atof e s)).1)
  have hback := pollReport_flags e st (pollVerdict e st armed (pollBlocked atof e s)
    (verdictFresh e.fresh (pollRead atof e s)) (Clock.due (monoMs e.now) s.nextVerdictMs)
    (decelTrack st e.holdComplete (pollTiers e st armed (pollBlocked atof e s)
      (verdictFresh e.fresh (pollRead atof e s)) (pollRead atof e s)).1)).1
  have hwas := htracked (verdictFresh e.fresh (pollRead atof e s))
  rcases hpoll with ⟨hcycle, htake⟩ | hsame | ⟨hclear, hlit, hours⟩
  · exact .inl ⟨hcycle, hback.trans (htake.trans (congrArg HoldFlags.take hwas))⟩
  · exact .inr (.inl (hback.trans (hsame.trans hwas)))
  · refine .inr (.inr ⟨hclear, ?_, fun h => ?_⟩)
    · exact (congrArg HoldFlags.decelLit hback).trans (hlit.trans (congrArg HoldFlags.decelLit hwas))
    · have hafter := hours ((congrArg HoldFlags.holdOurs hback).symm.trans h)
      exact (congrArg HoldFlags.holdOurs hwas).symm.trans hafter

/-- **A deceleration is lit under the client's own hold only.** -/
theorem lit_ours {atof : List Char → Double} {e : PollEnv} {st : SysState} {armed : Bool} {s : Cool}
    (h : s.decelLit = true → s.holdOurs = true) (hlit : (gfcoolPoll atof e st armed s).1.decelLit = true) :
    (gfcoolPoll atof e st armed s).1.holdOurs = true := by
  rcases gfcoolPoll_flags atof e st armed s with ⟨-, htake⟩ | hsame | ⟨hclear, hflag, -⟩
  · exact congrArg HoldFlags.holdOurs htake
  · have hwas : (pollTracked atof e st armed s).decelLit = true :=
      (congrArg HoldFlags.decelLit hsame).symm.trans hlit
    simp only [pollTracked, Bool.and_eq_true] at hwas
    exact (congrArg HoldFlags.holdOurs hsame).trans (h hwas.1.1)
  · rw [hflag] at hlit
    simp only [pollTracked, hclear, Bool.and_false, Bool.false_and] at hlit
    cases hlit

/-- A deceleration that goes on through a poll is under a verdict that blocks fire. -/
theorem lit_blocked {atof : List Char → Double} {e : PollEnv} {st : SysState} {armed : Bool} {s : Cool}
    (hours : s.holdOurs = true) (hlit : (gfcoolPoll atof e st armed s).1.decelLit = true) :
    pollBlocked atof e s = true := by
  have hwas : (pollTracked atof e st armed s).decelLit = true := by
    rcases gfcoolPoll_flags atof e st armed s with ⟨-, htake⟩ | hsame | ⟨-, hflag, -⟩
    · have htook : ((pollTracked atof e st armed s).decelLit || !s.holdOurs) = true :=
        (congrArg HoldFlags.decelLit htake).symm.trans hlit
      simpa [hours] using htook
    · exact (congrArg HoldFlags.decelLit hsame).symm.trans hlit
    · exact hflag.symm.trans hlit
  simp only [pollTracked, Bool.and_eq_true] at hwas
  exact hwas.1.2.2

/-- The poll finds the core in Cycle and no hold of the client's: one that it takes is the first. -/
def findsFirstHold (st : SysState) (s : Cool) : Bool := st == .cycle && !s.holdOurs

/-- A deceleration that a poll lights is of a first hold. -/
theorem lit_first {atof : List Char → Double} {e : PollEnv} {st : SysState} {armed : Bool} {s : Cool}
    (hdark : s.decelLit = false) (hlit : (gfcoolPoll atof e st armed s).1.decelLit = true) :
    findsFirstHold st s = true := by
  have hnone : (pollTracked atof e st armed s).decelLit = false := by
    simp only [pollTracked, hdark, Bool.false_and]
  rcases gfcoolPoll_flags atof e st armed s with ⟨hcycle, htake⟩ | hsame | ⟨-, hflag, -⟩
  · have htook : ((pollTracked atof e st armed s).decelLit || !s.holdOurs) = true :=
      (congrArg HoldFlags.decelLit htake).symm.trans hlit
    rw [hnone, Bool.false_or] at htook
    simp only [findsFirstHold, hcycle, htook, beq_self_eq_true, Bool.and_self]
  · exact absurd (hnone.symm.trans ((congrArg HoldFlags.decelLit hsame).symm.trans hlit))
      (by decide)
  · exact absurd (hnone.symm.trans (hflag.symm.trans hlit)) (by decide)

/-! ## What a poll calls under blocked fire

Under blocked fire no part of the poll resumes the hold, and the one call into the laser module is
the failure of the window. -/

def Act.isResume : Act → Bool
  | .resume _ => true
  | _ => false

theorem gfcoolLaserArmed_acts (now : Nat) (st : SysState) (on : Bool) (s : Cool) :
    (gfcoolLaserArmed now st on s).2.any Act.isResume = false := by
  unfold gfcoolLaserArmed
  split <;> rfl

theorem pollTiers_acts (e : PollEnv) (st : SysState) (armed blocked fresh : Bool) (s : Cool) :
    (pollTiers e st armed blocked fresh s).2.any Act.isResume = false := by
  unfold pollTiers
  split
  · split
    · exact gfcoolLaserArmed_acts _ _ _ _
    · split <;> rfl
  · rfl

theorem verdictRelay_acts (readNow : Bool) (s : Cool) :
    (verdictRelay readNow s).2.any Act.isResume = false := by
  unfold verdictRelay
  dsimp only
  split_ifs <;> rfl

theorem holdTake_acts (stale : Bool) (s : Cool) : (holdTake stale s).2.any Act.isResume = false := by
  unfold holdTake
  dsimp only
  split_ifs <;> rfl

theorem verdictHolds_acts (st : SysState) (s : Cool) : (verdictHolds st s).2.any Act.isResume = false := by
  unfold verdictHolds
  split_ifs
  · exact holdTake_acts false s
  · rfl
  · rfl
  · rfl
  · rfl

theorem verdictMissing_acts (st : SysState) (s : Cool) : (verdictMissing st s).2.any Act.isResume = false := by
  unfold verdictMissing
  split
  · by_cases hcycle : st = .cycle
    · simp only [hcycle, if_true]
      split_ifs <;> simp [holdTake_acts, Act.isResume]
    · simp only [hcycle, if_false]
      split_ifs <;> rfl
  · rfl

theorem pollReport_acts (e : PollEnv) (st : SysState) (s : Cool) :
    (pollReport e st s).2.any Act.isResume = false := by
  unfold pollReport
  split <;> rfl

/-- Under blocked fire a poll resumes nothing. -/
theorem gfcoolPoll_acts {atof : List Char → Double} {e : PollEnv} {st : SysState} {armed : Bool} {s : Cool}
    (hblocked : (armed && pollBlocked atof e s) = true) :
    (gfcoolPoll atof e st armed s).2.any Act.isResume = false := by
  have hverdict (readNow fresh : Bool) (c : Cool) :
      (pollVerdict e st armed (pollBlocked atof e s) fresh readNow c).2.any Act.isResume = false := by
    unfold pollVerdict
    split
    · dsimp only
      rw [hblocked, Bool.or_true, if_pos rfl, List.any_append, verdictRelay_acts, verdictHolds_acts]
      rfl
    · exact verdictMissing_acts st c
  unfold gfcoolPoll
  rw [List.any_append, List.any_append, pollTiers_acts, pollReport_acts]
  rw [Bool.false_or, Bool.or_false]
  exact hverdict _ _ _

/-- The poll finds a fresh verdict of the fail tier. -/
def pollFails (atof : List Char → Double) (e : PollEnv) (s : Cool) : Bool :=
  verdictFresh e.fresh (pollRead atof e s) && verdictFailTier (pollRead atof e s).vName

/-- Inside the window it ends the job. -/
theorem gfcoolPoll_fails {atof : List Char → Double} {e : PollEnv} {st : SysState} {armed : Bool} {s : Cool}
    (hblocked : (armed && pollBlocked atof e s) = true) (hfails : pollFails atof e s = true) :
    .verdictFail (pollRead atof e s).vName ∈ (gfcoolPoll atof e st armed s).2 := by
  have htiers : .verdictFail (pollRead atof e s).vName ∈ (pollTiers e st armed (pollBlocked atof e s)
      (verdictFresh e.fresh (pollRead atof e s)) (pollRead atof e s)).2 := by
    unfold pollTiers
    rw [if_pos hblocked, if_pos (by exact hfails)]
    exact List.mem_cons_self
  exact List.mem_append_left _ (List.mem_append_left _ htiers)

end Glowforge.Cooling
