import Glowforge.Switches.Hidden

/-!
# Glowforge — a cancelled job returns to its own start

`onStateChange` records where a job starts, and `cancel_job` takes the last start recorded for the
job that the door has parked. `job_active` says which jobs are recorded, and the cancel does not ask it.

* **`Record`** — beside the run: where the job under way began, and the one being cancelled.
* **`cancelsNoted`** — a poll cancels a job whose start was recorded as its own.
* **`returns_to_own_start`** — then the return line's target is the start of the job being cancelled.
-/

namespace Glowforge.Switches

open Laser (SysState Command)

/-! ## The record of the jobs

Beside the run: where each job started, and which of them is the one being cancelled. -/

/-- The jobs of a run, apart from what the switches' own variables make of them. -/
structure Record where
  -- The position at the first Idle to Cycle since the core was last Idle with an empty planner,
  -- alarmed or asleep; the return motion's own is none.
  own : Option Position
  -- It came with no cancel under way, and no job.
  noted : Bool
  -- The start of the job that the last cancel has cancelled.
  cancelled : Option Position

def Record.start : Record := ⟨none, false, none⟩

/-- The core enters `next`: no job is under way from here. -/
def jobOver (next : SysState) (planned : Bool) : Bool :=
  (next == .idle && !planned) || next.alarmed || next == .sleep

/-- A job begins. -/
def jobBegins (w : World) (next : SysState) : Bool :=
  w.core == .idle && next == .cycle && w.planner.head? != some .park

def Record.enter (w : World) (next : SysState) (r : Record) : Record :=
  if jobOver next (!w.planner.isEmpty) then { r with own := none }
  else if r.own.isNone && jobBegins w next then
    { r with own := some w.position, noted := w.sw.cancel == .none && !w.sw.jobActive }
  else r

/-- What a poll reads of the core is the world's. -/
def World.seen (w : World) (v : View) : View :=
  { v with st := w.core, parked := w.parked, resetPending := w.resetPending }

/-- The poll comes to `cancel_job`. -/
def cancels (v : View) (s : State) : Bool :=
  s.available && s.cancel == .none && doorParked v && !s.holdSeen && v.lidCancels

def remember (w : World) (l : Label) (r : Record) : Record :=
  match l with
  | .poll v => if cancels (w.seen v) w.sw then { r with cancelled := r.own } else r
  | .state next _ => r.enter w next
  | .reset next => r.enter { w with planner := [], queued := none, resetPending := false } next
  | _ => r

/-- A poll cancels a job that began with no cancel under way and with `job_active` clear, or no start
has been recorded at all. -/
def cancelsNoted (w : World) (r : Record) : Label → Bool
  | .poll v => !cancels (w.seen v) w.sw || (r.own.isSome && r.noted) || !w.sw.haveJobStart
  | _ => true

/-! ## The poll -/

/-- The poll leaves the record of the job's start alone. -/
theorem cancelPoll_job (v : View) (s : State) :
    (cancelPoll v s).1.prevState = s.prevState ∧ (cancelPoll v s).1.jobActive = s.jobActive ∧
      (cancelPoll v s).1.haveJobStart = s.haveJobStart ∧ (cancelPoll v s).1.jobStart = s.jobStart := by
  unfold cancelPoll cancelJob sendReset resetSentPoll parkQueuedPoll cancelEnd
  split
  · split_ifs <;> exact ⟨rfl, rfl, rfl, rfl⟩
  · split_ifs <;> exact ⟨rfl, rfl, rfl, rfl⟩
  · split_ifs <;> exact ⟨rfl, rfl, rfl, rfl⟩
  · split_ifs <;> exact ⟨rfl, rfl, rfl, rfl⟩

/-- A cancel that waits for its reset was one before the poll, or begins here. -/
theorem cancelPoll_waits {v : View} {s : State}
    (h : (cancelPoll v s).1.cancel = .waitDrain ∨ (cancelPoll v s).1.cancel = .resetSent) :
    (s.cancel = .waitDrain ∨ s.cancel = .resetSent) ∨
      s.cancel = .none ∧ doorParked v = true ∧ s.holdSeen = false ∧ v.lidCancels = true := by
  revert h
  unfold cancelPoll
  split
  · next hnone =>
    split
    · next hparked =>
      split
      · simp [hnone]
      · next hseen =>
        split
        · next hlid => exact fun _ => .inr ⟨hnone, hparked, by simpa using hseen, hlid⟩
        · simp [hnone]
    · simp [hnone]
  · next hwait => exact fun _ => .inl (.inl hwait)
  · next hsent => exact fun _ => .inl (.inr hsent)
  · next hqueued =>
    unfold parkQueuedPoll
    split_ifs <;> simp [hqueued, cancelEnd]

/-- The return line is asked for behind the reset, for the start recorded. -/
theorem cancelPoll_returns {v : View} {s : State} {target : Position}
    (h : .returnLine target ∈ (cancelPoll v s).2) :
    s.cancel = .resetSent ∧ s.haveJobStart = true ∧ target = s.jobStart := by
  revert h
  unfold cancelPoll
  split
  · unfold cancelJob
    split_ifs <;> simp
  · unfold sendReset
    split_ifs <;> simp
  · next hsent =>
    unfold resetSentPoll
    split_ifs with _ _ hhave
    · simp
    · simp
    · simp
    · have hhave : s.haveJobStart = true := by simpa using hhave
      simp [hsent, hhave]
    · simp
    · simp
  · unfold parkQueuedPoll
    split_ifs <;> simp

/-- What one poll does of all this. -/
theorem gfswPoll_cases (v : View) (s : State) :
    (gfswPoll v s = (s, []) ∧ s.available = false) ∨
    ∃ raw door buttonPrev delivered, ∃ calls : List Call, (∀ target, .returnLine target ∉ calls) ∧
      (gfswPoll v s).1 = (cancelPoll v { s with
        raw := raw, door := door, buttonPrev := buttonPrev, delivered := delivered }).1 ∧
      (gfswPoll v s).2 = calls ++ (cancelPoll v { s with
        raw := raw, door := door, buttonPrev := buttonPrev, delivered := delivered }).2 := by
  unfold gfswPoll
  split
  · next hnone => exact .inl ⟨rfl, by simpa using hnone⟩
  · right
    split
    · exact ⟨_, _, _, _, [], by simp, rfl, rfl⟩
    · next raw _ =>
      refine ⟨raw, gfswMapBits raw, raw.button, visible v.st { s with raw := raw, door := gfswMapBits raw }
        (gfswMapBits raw), _, ?_, rfl, rfl⟩
      intro target
      unfold buttonEdge doorEdges
      split_ifs <;> simp

/-! ## The invariant

A start that the module has noted is the job's own, and a cancel on its way to the return line keeps
the start of the job that it cancels. -/

structure Returns (w : World) (r : Record) : Prop where
  prev : w.sw.prevState = w.core
  -- a start that the code has noted is the job's own
  own : ∀ p, r.own = some p → r.noted = true →
    w.sw.jobActive = true ∧ w.sw.haveJobStart = true ∧ w.sw.jobStart = p
  -- a cancel on its way to the return line keeps the start of its job
  waits : w.sw.cancel = .waitDrain ∨ w.sw.cancel = .resetSent → w.sw.haveJobStart = true →
    r.cancelled = some w.sw.jobStart

/-- **A poll** takes the start of the job that it cancels. -/
theorem Returns.poll {w : World} {r : Record} {v : View} (h : Returns w r)
    (hnoted : cancelsNoted w r (.poll v) = true) : Returns (w.poll v) (remember w (.poll v) r) := by
  obtain ⟨resetPending, queued, hpoll⟩ := poll_eq v w
  rw [hpoll]
  change Returns { w with
    sw := (gfswPoll (w.seen v) w.sw).1, resetPending := resetPending, queued := queued } _
  have hown : (remember w (.poll v) r).own = r.own ∧ (remember w (.poll v) r).noted = r.noted := by
    simp only [remember]
    split <;> exact ⟨rfl, rfl⟩
  obtain ⟨hsame, havailable⟩ | ⟨raw, door, buttonPrev, delivered, calls, -, hsw, -⟩ :=
    gfswPoll_cases (w.seen v) w.sw
  · rw [hsame]
    have hcancels : cancels (w.seen v) w.sw = false := by simp [cancels, havailable]
    simp only [remember, hcancels]
    exact ⟨h.prev, h.own, h.waits⟩
  · rw [hsw]
    obtain ⟨hprev, hactive, hhave, hstart⟩ := cancelPoll_job (w.seen v) { w.sw with
      raw := raw, door := door, buttonPrev := buttonPrev, delivered := delivered }
    refine ⟨hprev.trans h.prev, fun p hp hn => ?_, fun hwaits hhas => ?_⟩
    · rw [hown.1] at hp
      rw [hown.2] at hn
      obtain ⟨h1, h2, h3⟩ := h.own p hp hn
      exact ⟨hactive.trans h1, hhave.trans h2, hstart.trans h3⟩
    · have hhas : w.sw.haveJobStart = true := hhave.symm.trans hhas
      show (remember w (.poll v) r).cancelled = some (cancelPoll (w.seen v) _).1.jobStart
      rw [hstart]
      obtain hbefore | ⟨hnone, hparked, hseen, hlid⟩ := cancelPoll_waits hwaits
      · have hcancels : cancels (w.seen v) w.sw = false := by
          obtain hc | hc := hbefore <;> simp [cancels, show w.sw.cancel = _ from hc]
        simp only [remember, hcancels]
        exact h.waits hbefore hhas
      · -- the cancel begins: the job it cancels is one whose start was noted
        by_cases havailable : w.sw.available = true
        · have hcancels : cancels (w.seen v) w.sw = true := by
            simp [cancels, havailable, show w.sw.cancel = _ from hnone, hparked,
              show w.sw.holdSeen = _ from hseen, hlid]
          simp only [remember, hcancels, if_true]
          simp only [cancelsNoted, hcancels, hhas, Bool.not_true, Bool.false_or, Bool.or_false,
            Bool.and_eq_true, Option.isSome_iff_exists] at hnoted
          obtain ⟨⟨p, hp⟩, hn⟩ := hnoted
          rw [hp, (h.own p hp hn).2.2]
        · have hgone : (gfswPoll (w.seen v) w.sw).1 = w.sw := by simp [gfswPoll, havailable]
          rw [hsw] at hgone
          rw [hgone] at hwaits
          rw [show w.sw.cancel = _ from hnone] at hwaits
          simp at hwaits

/-- **The core enters a state.** The code and the record see the same jobs begin and end, but for those
that begin under a cancel or under one that `job_active` still counts. -/
theorem Returns.enter {w : World} {r : Record} {next : SysState} {parked : Bool} (h : Returns w r) :
    Returns (w.enter next parked) (r.enter w next) := by
  have hprev : (w.enter next parked).sw.prevState = (w.enter next parked).core := by
    simp [World.enter, onStateChange]
  have hcancel : (w.enter next parked).sw.cancel = w.sw.cancel := by
    simp only [World.enter, onStateChange]
    split_ifs <;> rfl
  have hkept : w.sw.cancel ≠ .none → (w.enter next parked).sw.haveJobStart = w.sw.haveJobStart ∧
      (w.enter next parked).sw.jobStart = w.sw.jobStart := by
    intro hne
    simp only [World.enter, onStateChange, if_neg hne]
    split_ifs <;> exact ⟨rfl, rfl⟩
  have hcancelled : (r.enter w next).cancelled = r.cancelled := by
    unfold Record.enter
    split_ifs <;> rfl
  refine ⟨hprev, fun p hp hn => ?_, fun hwaits hhas => ?_⟩
  · unfold Record.enter at hp hn
    split at hp
    · cases hp
    · next hover =>
      rw [if_neg hover] at hn
      split at hp
      · next hbegins =>
        rw [if_pos hbegins] at hn
        simp only [jobBegins, Bool.and_eq_true, beq_iff_eq, Bool.not_eq_true'] at hbegins hn
        obtain ⟨-, ⟨hidle, rfl⟩, -⟩ := hbegins
        obtain ⟨hnone, hinactive⟩ := hn
        have hfrom : w.sw.prevState = .idle := h.prev.trans hidle
        cases hp
        simp [World.enter, onStateChange, SysState.alarmed, hfrom, hinactive, hnone]
      · next hbegins =>
        rw [if_neg hbegins] at hn
        obtain ⟨hactive, hhave, hstart⟩ := h.own p hp hn
        have hends : (¬(next = .idle ∧ w.planner = []) ∧ next.alarmed = false) ∧ next ≠ .sleep := by
          simpa [jobOver] using hover
        simp only [World.enter, onStateChange]
        split_ifs <;> simp_all
  · rw [hcancelled]
    rw [hcancel] at hwaits
    have hne : w.sw.cancel ≠ .none := by
      rcases hwaits with hc | hc <;> simp [hc]
    rw [(hkept hne).1] at hhas
    rw [(hkept hne).2]
    exact h.waits hwaits hhas

theorem step_returns {w t : World} {r : Record} {l : Label} (h : Returns w r)
    (hnoted : cancelsNoted w r l = true) (hstep : worldStep w l = some t) : Returns t (remember w l r) := by
  cases l with
  | poll v =>
    cases hstep
    exact h.poll hnoted
  | state next parked =>
    cases hstep
    exact h.enter
  | reset next =>
    cases hstep
    exact Returns.enter (w := { w with planner := [], queued := none, resetPending := false })
      ⟨h.prev, h.own, h.waits⟩
  | line motion =>
    cases hstep
    unfold World.plan
    split <;> exact ⟨h.prev, h.own, h.waits⟩
  | returnLine motion =>
    obtain ⟨target, -, rfl⟩ := Option.map_eq_some_iff.mp hstep
    unfold World.plan
    split <;> exact ⟨h.prev, h.own, h.waits⟩
  | execute position =>
    simp only [worldStep] at hstep
    split at hstep
    · cases hstep
    · split at hstep
      · cases hstep
        exact ⟨h.prev, h.own, h.waits⟩
      · cases hstep
  | resetRequest =>
    cases hstep
    exact ⟨h.prev, h.own, h.waits⟩

/-! ## Runs

Every return goes to the start of the job that was cancelled; a hold while Idle is the run that
breaks it. -/

/-- **A cancelled job returns to its own start.** In every run of polls, state changes, lines, motions and
resets whose cancels are of jobs that began with no cancel under way and with `job_active` clear: a poll
that enqueues the return line sends the head to where the job that was cancelled began. -/
theorem returns_to_own_start {available : Bool} {raw : Laser.Switches} {w : World} {r : Record} {v : View}
    {target : Position}
    (hrun : Runs.Reach (Runs.observe worldStep remember) (fun x l => cancelsNoted x.1 x.2 l = true)
      (World.start available raw, Record.start) (w, r))
    (hreturn : .returnLine target ∈ (gfswPoll (w.seen v) w.sw).2) : r.cancelled = some target := by
  have hinv : Returns w r := by
    refine hrun.invariant (P := fun x => Returns x.1 x.2) ⟨rfl, by rintro _ ⟨⟩,
        by simp [World.start, gfswInit]⟩ ?_
    rintro ⟨w, r⟩ l ⟨t, r'⟩ h hnoted hstep
    obtain ⟨hworld, rfl⟩ := Runs.observe_eq_some.mp hstep
    exact step_returns h hnoted hworld
  obtain ⟨hsame, -⟩ | ⟨raw, door, buttonPrev, delivered, calls, hcalls, -, hpolled⟩ :=
    gfswPoll_cases (w.seen v) w.sw
  · rw [hsame] at hreturn
    cases hreturn
  · rw [hpolled, List.mem_append] at hreturn
    obtain ⟨hsent, hhave, rfl⟩ := cancelPoll_returns (hreturn.resolve_left (hcalls target))
    exact hinv.waits (.inr hsent) hhave

/-- A job is cancelled on its way. -/
def jobCancelled : List Label :=
  [.line true, .line true, .state .cycle false, .execute ⟨40, 0, 0⟩, .state .safetyDoor true, .poll lidOpen,
    .poll lidOpen, .reset .idle]

/-- The head returns from there to where it began. -/
theorem returns_to_own_start_cancelled :
    ∃ w r, Runs.Reach (Runs.observe worldStep remember) (fun x l => cancelsNoted x.1 x.2 l = true)
        (World.start true ⟨true, false, false⟩, Record.start) (w, r) ∧
      (w.position = ⟨40, 0, 0⟩ ∧ .returnLine ⟨0, 0, 0⟩ ∈ (gfswPoll (w.seen lidOpen) w.sw).2) ∧
      r.cancelled = some ⟨0, 0, 0⟩ := by
  have hex : ∃ x, Runs.Reach (Runs.observe worldStep remember) (fun x l => cancelsNoted x.1 x.2 l = true)
        (World.start true ⟨true, false, false⟩, Record.start) x ∧
      (x.1.position = ⟨40, 0, 0⟩ ∧ .returnLine ⟨0, 0, 0⟩ ∈ (gfswPoll (x.1.seen lidOpen) x.1.sw).2) :=
    Runs.exists_reach_of_exec jobCancelled (by decide +kernel)
  obtain ⟨⟨w, r⟩, hrun, hposition, hreturn⟩ := hex
  exact ⟨w, r, hrun, ⟨hposition, hreturn⟩, returns_to_own_start hrun hreturn⟩

/-- A job has run to its end, the operator holds the idle core, and opens the lid. -/
def heldWhenIdle : List Label :=
  [.line true, .state .cycle false, .execute ⟨40, 0, 0⟩, .state .idle false, .state .hold false,
    .state .safetyDoor true, .poll lidOpen, .poll lidOpen, .reset .idle]

/-- **The head returns to the start of an earlier job.** The job is over, and there is none to cancel. -/
theorem returns_to_earlier_start :
    ¬∀ (available : Bool) (raw : Laser.Switches) (w : World) (r : Record) (v : View) (target : Position),
      Runs.Reach (Runs.observe worldStep remember) (fun _ _ => True)
        (World.start available raw, Record.start) (w, r) →
      .returnLine target ∈ (gfswPoll (w.seen v) w.sw).2 → r.cancelled = some target := by
  intro hall
  have hex : ∃ x, Runs.Reach (Runs.observe worldStep remember) (fun _ _ => True)
        (World.start true ⟨true, false, false⟩, Record.start) x ∧
      (.returnLine ⟨0, 0, 0⟩ ∈ (gfswPoll (x.1.seen lidOpen) x.1.sw).2 ∧ x.2.cancelled = none) :=
    Runs.exists_reach_of_exec heldWhenIdle (by decide +kernel)
  obtain ⟨⟨w, r⟩, hrun, hreturn, hnone⟩ := hex
  rw [hall _ _ w r lidOpen _ hrun hreturn] at hnone
  cases hnone

end Glowforge.Switches
