import Glowforge.Cooling.Answer

/-!
# Glowforge — the job reports (`glowforge_cooling.c`)

The protocol thread may not wait for the engine's socket. `report_now` leaves the newest report
under a mutex and signals, and the reporter thread takes it and posts it. Here the two threads run
statement by statement, in any order that the mutex and the condition variable allow.

* **`request`** — the text that `report_send` writes, which always has its room (`request_fits`).
* **`Reporting`**, **`reportingStep`** — the client, both threads and what they share.
* **`Told`** — a report says how the client stands; every call keeps it (`reports_told`).
* **`Consistent`** — the invariant, with one case for each statement of each thread.
* **`reach_reported`** — no report is torn, repeated or out of order, and the one that says how the
  client stands is posted (what the socket makes of a post is not here).
-/

namespace Glowforge.Cooling

open Glowforge.Laser (SysState)

/-! ## The request

`report_send` prints one HTTP request into a buffer of fixed size. Its parts are bounded one by one,
and the sum leaves room for the terminating zero. -/

/-- A report: what the three shared variables hold. -/
structure Post where
  mode : Mode
  armed : Bool
  density : Bool
deriving DecidableEq

/-- The shared variables as they are linked. -/
def Post.blank : Post := ⟨.idle, false, true⟩

def Mode.text : Mode → String
  | .run => "run"
  | .cooldown => "cooldown"
  | .idle => "idle"

def hexDigit (c : Char) : Bool := c ∈ "0123456789abcdef".toList

/-- `report_secret`: 32 hex digits or nothing. -/
def ReportSecret : Type :=
  { secret : List Char // secret = [] ∨ secret.length = 32 ∧ secret.all hexDigit = true }

/-- What `gfcool_init` keeps of `GF_REPORT_SECRET`. -/
def reportSecret (env : Option (List Char)) : ReportSecret :=
  if h : (env.getD []).length = 32 ∧ (env.getD []).all hexDigit = true then ⟨env.getD [], .inr h⟩
  else ⟨[], .inl rfl⟩

/-- The header that names this process. -/
def whoHeader (secret : ReportSecret) : List Char :=
  if secret.1 = [] then [] else "X-ForgeFIRM-Report: ".toList ++ secret.1 ++ "\r\n".toList

/-- The request of `report_send`. -/
def request (secret : ReportSecret) (p : Post) : List Char :=
  "POST /cool/state?mode=".toList ++ p.mode.text.toList ++ "&armed=".toList ++
    (if p.armed then "1" else "0").toList ++ "&model=".toList ++
    (if p.density then "density" else "analog").toList ++
    " HTTP/1.1\r\nHost: 127.0.0.1\r\nConnection: close\r\n".toList ++ whoHeader secret ++
    "Content-Length: 0\r\n\r\n".toList

theorem whoHeader_length (secret : ReportSecret) : (whoHeader secret).length ≤ 54 := by
  unfold whoHeader
  split
  · exact Nat.zero_le _
  · rcases secret.2 with hnone | ⟨hlen, -⟩
    · contradiction
    · have hname : ("X-ForgeFIRM-Report: ".toList).length = 20 := rfl
      have hend : ("\r\n".toList).length = 2 := rfl
      rw [List.length_append, List.length_append, hlen, hname, hend]

/-- `who[64]` and `req[288]` hold what is printed into them. -/
theorem request_fits (secret : ReportSecret) (p : Post) :
    (whoHeader secret).length < 64 ∧ (request secret p).length < 288 := by
  have hwho := whoHeader_length secret
  have hmode : (p.mode.text.toList).length ≤ 8 := by
    cases p.mode <;> decide
  have harmed : ((if p.armed then "1" else "0").toList).length ≤ 1 := by
    cases p.armed <;> decide
  have hdensity : ((if p.density then "density" else "analog").toList).length ≤ 7 := by
    cases p.density <;> decide
  have hline : ("POST /cool/state?mode=".toList).length = 22 := rfl
  have hfields : ("&armed=".toList).length = 7 ∧ ("&model=".toList).length = 7 := ⟨rfl, rfl⟩
  have hhost : (" HTTP/1.1\r\nHost: 127.0.0.1\r\nConnection: close\r\n".toList).length = 47 := rfl
  have hend : ("Content-Length: 0\r\n\r\n".toList).length = 21 := rfl
  refine ⟨by omega, ?_⟩
  unfold request
  simp only [List.length_append]
  omega

/-! ## What the client reports

Every call that changes the mode or the window makes a report of them, or leaves them as they were
reported. -/

def Act.told : Act → Option (Mode × Bool)
  | .report mode armed => some (mode, armed)
  | _ => none

/-- The reports among what a call does, in their order. -/
def reported (acts : List Act) : List (Mode × Bool) := acts.filterMap Act.told

/-- The report says how the client stands: the armed bit is the window's, and the run is reported
exactly while the sender's M8 or the window holds. -/
def Told (s : Cool) (r : Mode × Bool) : Prop :=
  r.2 = s.laserOnWindow ∧ (r.1 = .run ↔ (s.flood || s.laserOnWindow) = true)

/-- A call that leaves the client told, if it found it so. -/
def Tells (s : Cool) (result : Cool × List Act) : Prop :=
  ∀ r, Told s r → Told result.1 ((reported result.2).getLastD r)

theorem getLastD_append {α : Type} (as bs : List α) (a : α) :
    (as ++ bs).getLastD a = bs.getLastD (as.getLastD a) := by
  induction as generalizing a with
  | nil => rfl
  | cons b as ih => rw [List.cons_append, List.getLastD_cons, List.getLastD_cons, ih]

theorem Tells.append {s t u : Cool} {a b : List Act} (hfirst : Tells s (t, a)) (hsecond : Tells t (u, b)) :
    Tells s (u, a ++ b) := by
  intro r hr
  have h := hsecond _ (hfirst r hr)
  rwa [← getLastD_append, show reported (t, a).2 ++ reported (u, b).2 = reported (a ++ b) from
    List.filterMap_append.symm] at h

/-- A call that reports nothing, and leaves the window and the coolant alone. -/
structure Silent (s : Cool) (result : Cool × List Act) : Prop where
  window : result.1.laserOnWindow = s.laserOnWindow
  flood : result.1.flood = s.flood
  reported : reported result.2 = []

theorem Silent.tells {s : Cool} {result : Cool × List Act} (h : Silent s result) : Tells s result := by
  intro r hr
  rw [h.reported]
  unfold Told at hr ⊢
  rw [List.getLastD_nil, h.window, h.flood]
  exact hr

theorem reportMode_run (st : SysState) (s : Cool) :
    reportMode st s = .run ↔ (s.flood || s.laserOnWindow) = true := by
  unfold reportMode
  split
  · next h => exact iff_of_true rfl h
  · next h =>
    refine iff_of_false ?_ h
    split <;> exact Mode.noConfusion

theorem reportNow_told (now : Nat) (st : SysState) (s : Cool) (r : Mode × Bool) :
    Told (reportNow now st s).1 ((reported (reportNow now st s).2).getLastD r) :=
  ⟨rfl, reportMode_run st s⟩

theorem gfcoolLaserArmed_tells (now : Nat) (st : SysState) (on : Bool) (s : Cool) :
    Tells s (gfcoolLaserArmed now st on s) := by
  unfold gfcoolLaserArmed
  split
  · exact Silent.tells ⟨rfl, rfl, rfl⟩
  · intro r _
    exact reportNow_told _ _ _ r

theorem gfcoolCoolantSet_tells (now : Nat) (st : SysState) (on : Bool) (s : Cool) :
    Tells s (gfcoolCoolantSet now st on s) := by
  unfold gfcoolCoolantSet
  dsimp only
  split
  · intro r _
    exact reportNow_told _ _ _ r
  · next hsame =>
    -- the sum of the two is what it was, so the mode still says it
    intro r hr
    refine ⟨hr.1, hr.2.trans ?_⟩
    rw [ne_eq, not_not] at hsame
    rw [hsame]

theorem pollRead_silent (atof : List Char → Double) (e : PollEnv) (s : Cool) :
    Silent s (pollRead atof e s, []) := by
  unfold pollRead
  split
  · unfold verdictRead
    split
    · exact ⟨rfl, rfl, rfl⟩
    · split
      · exact ⟨rfl, rfl, rfl⟩
      · dsimp only
        split <;> exact ⟨rfl, rfl, rfl⟩
  · exact ⟨rfl, rfl, rfl⟩

theorem pollTiers_tells (e : PollEnv) (st : SysState) (armed blocked fresh : Bool) (s : Cool) :
    Tells s (pollTiers e st armed blocked fresh s) := by
  unfold pollTiers
  split
  · split
    · exact gfcoolLaserArmed_tells e.report st false s
    · split <;> exact Silent.tells ⟨rfl, rfl, rfl⟩
  · exact Silent.tells ⟨rfl, rfl, rfl⟩

theorem decelTrack_silent (st : SysState) (complete : Bool) (s : Cool) :
    Silent s (decelTrack st complete s, []) := by
  unfold decelTrack
  split
  · exact ⟨rfl, rfl, rfl⟩
  · split <;> exact ⟨rfl, rfl, rfl⟩

theorem holdTake_silent (stale : Bool) (s : Cool) : Silent s (holdTake stale s) := by
  unfold holdTake
  dsimp only
  split
  · exact ⟨rfl, rfl, rfl⟩
  · exact ⟨rfl, rfl, rfl⟩

theorem verdictMissing_silent (st : SysState) (s : Cool) : Silent s (verdictMissing st s) := by
  unfold verdictMissing holdTake
  dsimp only
  split_ifs <;> exact ⟨rfl, rfl, rfl⟩

theorem verdictRelay_silent (readNow : Bool) (s : Cool) : Silent s (verdictRelay readNow s) := by
  unfold verdictRelay
  dsimp only
  split_ifs <;> exact ⟨rfl, rfl, rfl⟩

theorem verdictHolds_silent (st : SysState) (s : Cool) : Silent s (verdictHolds st s) := by
  unfold verdictHolds
  split
  · exact holdTake_silent _ _
  · split_ifs <;> exact ⟨rfl, rfl, rfl⟩

theorem verdictClean_silent (e : PollEnv) (st : SysState) (s : Cool) : Silent s (verdictClean e st s) := by
  unfold verdictClean
  dsimp only
  split_ifs <;> exact ⟨rfl, rfl, rfl⟩

theorem pollVerdict_tells (e : PollEnv) (st : SysState) (armed blocked fresh readNow : Bool) (s : Cool) :
    Tells s (pollVerdict e st armed blocked fresh readNow s) := by
  unfold pollVerdict
  dsimp only
  split
  · refine Tells.append (t := (verdictRelay readNow s).1) (verdictRelay_silent readNow s).tells ?_
    split
    · exact (verdictHolds_silent _ _).tells
    · exact (verdictClean_silent _ _ _).tells
  · exact (verdictMissing_silent _ _).tells

theorem pollReport_tells (e : PollEnv) (st : SysState) (s : Cool) : Tells s (pollReport e st s) := by
  unfold pollReport
  split
  · intro r _
    exact reportNow_told _ _ _ r
  · exact Silent.tells ⟨rfl, rfl, rfl⟩

theorem gfcoolPoll_tells (atof : List Char → Double) (e : PollEnv) (st : SysState) (armed : Bool) (s : Cool) :
    Tells s (gfcoolPoll atof e st armed s) := by
  unfold gfcoolPoll
  dsimp only
  refine Tells.append (Tells.append ?_ (pollVerdict_tells _ _ _ _ _ _ _)) (pollReport_tells _ _ _)
  have hread := (pollRead_silent atof e s).tells.append
    (pollTiers_tells e st armed (!gfcoolVerdictFireOk e.fire (pollRead atof e s))
      (verdictFresh e.fresh (pollRead atof e s)) (pollRead atof e s))
  have htrack := hread.append (decelTrack_silent st e.holdComplete _).tells
  rwa [List.nil_append, List.append_nil] at htrack

/-- **Every call leaves the client told.** What it changes of the mode or the window it reports
before it returns, and the last report is the one that counts. -/
theorem reports_told {atof : List Char → Double} {s t : State} {l : Label} (hstep : step atof s l = some t)
    {r : Mode × Bool} (hr : Told s.cool r) : Told t.cool ((reported (reports atof s l)).getLastD r) := by
  unfold step at hstep
  split at hstep
  · cases l with
    | poll e =>
      cases hstep
      exact gfcoolPoll_tells atof e s.core s.armed s.cool r hr
    | window now on =>
      cases hstep
      exact gfcoolLaserArmed_tells now s.core on s.cool r hr
    | coolant now flood =>
      cases hstep
      exact gfcoolCoolantSet_tells now s.core flood s.cool r hr
    | feedHold enters =>
      simp only [act] at hstep
      split at hstep
      · cases hstep
        split <;> exact hr
      · cases hstep
    | otherHold =>
      simp only [act] at hstep
      split at hstep
      · cases hstep
      · cases hstep
        exact hr
    | core st =>
      simp only [act] at hstep
      split at hstep
      · cases hstep
      · cases hstep
        exact hr
    | armed on =>
      cases hstep
      exact hr
  · cases hstep

/-! ## The two threads

One mutex, one condition variable and one slot. Each statement that takes or releases the mutex,
waits, signals or copies is a step of its own. -/

inductive Thread where
  | protocol
  | reporter
deriving DecidableEq

/-- The statement of `report_now` that comes next. -/
inductive Stage where
  | lock
  | mode
  | armed
  | density
  | bump
  | signal
  | unlock
deriving DecidableEq

/-- The statement of `reporter_thread` that comes next. -/
inductive Pc where
  | lock
  -- `while(rep_seq == seen)`
  | test
  -- inside `pthread_cond_wait`, and behind its wake-up, which takes the mutex again
  | blocked
  | woken
  | see
  | mode
  | armed
  | density
  | unlock
  | send
deriving DecidableEq

/-- The reporter has the mutex. -/
def Pc.holds : Pc → Bool
  | .test | .see | .mode | .armed | .density | .unlock => true
  | .lock | .blocked | .woken | .send => false

structure Reporting where
  client : State
  -- `gflaser_density`
  density : Bool
  -- The calls of `report_now` that the last call into the client is still to make.
  todo : List (Mode × Bool)
  stage : Stage
  reporter : Pc
  owner : Option Thread
  -- `rep_mode`, `rep_armed`, `rep_density` and `rep_seq`
  rep : Post
  repSeq : UInt32
  -- The reporter's own variables.
  seen : UInt32
  own : Post
  -- History: the reports that the reporter has taken notice of, those left since, and those that
  -- `report_send` has posted.
  past : List Post
  fresh : List Post
  sent : List Post

def Reporting.start (uptime : Nat) (density : Bool) : Reporting where
  client := State.init uptime
  density := density
  todo := []
  stage := .lock
  reporter := .lock
  owner := none
  rep := Post.blank
  repSeq := 0
  seen := 0
  own := Post.blank
  past := []
  fresh := []
  sent := []

/-- The next statement of `report_now`, called for the report `r`. -/
def reportNowStep (s : Reporting) (r : Mode × Bool) (rest : List (Mode × Bool)) : Option Reporting :=
  match s.stage with
  | .lock => if s.owner = none then some { s with owner := some .protocol, stage := .mode } else none
  | .mode => some { s with rep := { s.rep with mode := r.1 }, stage := .armed }
  | .armed => some { s with rep := { s.rep with armed := r.2 }, stage := .density }
  | .density => some { s with rep := { s.rep with density := s.density }, stage := .bump }
  | .bump =>
    some { s with
      repSeq := s.repSeq + 1
      fresh := s.fresh ++ [⟨r.1, r.2, s.density⟩]
      stage := .signal }
  -- a signal that nobody waits for is lost
  | .signal =>
    some { s with reporter := if s.reporter = .blocked then .woken else s.reporter, stage := .unlock }
  | .unlock => some { s with owner := none, todo := rest, stage := .lock }

/-- The next statement of `reporter_thread`. -/
def reporterStep (s : Reporting) : Option Reporting :=
  match s.reporter with
  | .lock | .woken =>
    if s.owner = none then some { s with owner := some .reporter, reporter := .test } else none
  | .test =>
    if s.repSeq = s.seen then some { s with owner := none, reporter := .blocked }
    else some { s with reporter := .see }
  | .blocked => none
  | .see =>
    some { s with seen := s.repSeq, past := s.past ++ s.fresh, fresh := [], reporter := .mode }
  | .mode => some { s with own := { s.own with mode := s.rep.mode }, reporter := .armed }
  | .armed => some { s with own := { s.own with armed := s.rep.armed }, reporter := .density }
  | .density => some { s with own := { s.own with density := s.rep.density }, reporter := .unlock }
  | .unlock => some { s with owner := none, reporter := .send }
  | .send => some { s with sent := s.sent ++ [s.own], reporter := .lock }

inductive ReportLabel where
  -- A call into the client, and a change of the dose model: the protocol thread makes them.
  | call (l : Label)
  | model (density : Bool)
  -- The next statement of either thread.
  | protocol
  | reporter
  -- `pthread_cond_wait` may return for no reason.
  | spurious

def reportingStep (atof : List Char → Double) (s : Reporting) : ReportLabel → Option Reporting
  | .call l =>
    if s.todo = [] then
      (step atof s.client l).map fun t => { s with client := t, todo := reported (reports atof s.client l) }
    else none
  | .model density => if s.todo = [] then some { s with density := density } else none
  | .protocol =>
    match s.todo with
    | [] => none
    | r :: rest => reportNowStep s r rest
  | .reporter => reporterStep s
  | .spurious => if s.reporter = .blocked then some { s with reporter := .woken } else none

/-- `rep_seq` does not come round while the reporter posts. -/
def roomy (s : Reporting) : ReportLabel → Bool
  | .protocol => s.stage ≠ .bump || s.fresh.length + 1 < 2 ^ 32
  | _ => true

/-! ## The invariant

What each thread may rely on at each of its statements, and what the slot holds: the newest report
that has not been taken, or nothing. -/

/-- The newest report that was left. -/
def Reporting.newest (s : Reporting) : Post := (s.past ++ s.fresh).getLastD Post.blank

/-- Who has the mutex. -/
structure Mutex (s : Reporting) : Prop where
  idle : s.todo = [] → s.stage = .lock
  protocol : s.owner = some .protocol ↔ s.stage ≠ .lock
  reporter : s.owner = some .reporter ↔ s.reporter.holds = true

/-- What the shared variables hold while the report `r` is written. -/
def Filled (s : Reporting) (r : Mode × Bool) : Prop :=
  match s.stage with
  | .lock | .mode => s.rep = s.newest
  | .armed => s.rep.mode = r.1
  | .density => s.rep.mode = r.1 ∧ s.rep.armed = r.2
  | .bump => s.rep = ⟨r.1, r.2, s.density⟩
  | .signal | .unlock => s.rep = s.newest ∧ r = (s.rep.mode, s.rep.armed)

/-- Between two posts: the last one that it took notice of is the last one posted. -/
def Posted (s : Reporting) : Prop := s.sent.Sublist s.past ∧ s.sent.getLast? = s.past.getLast?

/-- It has taken notice of a report that it has not posted yet. -/
def InHand (s : Reporting) (copied : Post → Prop) : Prop :=
  ∃ before p, s.past = before ++ [p] ∧ s.sent.Sublist before ∧ copied p

/-- What the reporter has done so far. -/
def Carried (s : Reporting) : Prop :=
  match s.reporter with
  | .lock | .test | .woken => Posted s
  -- it sleeps on nothing new, or the signal is on its way
  | .blocked => Posted s ∧ (s.fresh = [] ∨ s.stage = .signal)
  | .see => Posted s ∧ s.fresh ≠ []
  | .mode => InHand s fun p => s.rep = p
  | .armed => InHand s fun p => s.rep = p ∧ s.own.mode = p.mode
  | .density => InHand s fun p => s.rep = p ∧ s.own.mode = p.mode ∧ s.own.armed = p.armed
  | .unlock | .send => InHand s fun p => s.own = p

/-- The two counters, and the reports between them. -/
structure Counted (s : Reporting) : Prop where
  seq : s.repSeq = UInt32.ofNat (s.past.length + s.fresh.length)
  seen : s.seen = UInt32.ofNat s.past.length
  room : s.fresh.length < 2 ^ 32

structure Consistent (s : Reporting) : Prop where
  mutex : Mutex s
  counted : Counted s
  told : Told s.client.cool (s.todo.getLastD (s.newest.mode, s.newest.armed))
  filled : Filled s (s.todo.headD (s.rep.mode, s.rep.armed))
  carried : Carried s

/-! ### Who has the mutex

The cases of the invariant exclude each other where the mutex says so. -/

theorem Mutex.free {s : Reporting} (howner : s.owner = none) (hstage : s.stage = .lock)
    (hpc : s.reporter.holds = false) : Mutex s where
  idle := fun _ => hstage
  protocol := by simp [howner, hstage]
  reporter := by simp [howner, hpc]

theorem Mutex.inReport {s : Reporting} (howner : s.owner = some .protocol) (hstage : s.stage ≠ .lock)
    (htodo : s.todo ≠ []) (hpc : s.reporter.holds = false) : Mutex s where
  idle := fun h => absurd h htodo
  protocol := by simp [howner, hstage]
  reporter := by simp [howner, hpc]

theorem Mutex.inReporter {s : Reporting} (howner : s.owner = some .reporter) (hstage : s.stage = .lock)
    (hpc : s.reporter.holds = true) : Mutex s where
  idle := fun _ => hstage
  protocol := by simp [howner, hstage]
  reporter := by simp [howner, hpc]

/-- Without the mutex, the reporter is at none of the statements that need it. -/
theorem Mutex.excludes {s : Reporting} (h : Mutex s) (howner : s.owner ≠ some .reporter) :
    s.reporter.holds = false :=
  Bool.eq_false_iff.mpr fun hholds => howner (h.reporter.mpr hholds)

/-- Without the mutex, the protocol thread is outside `report_now` or at its lock. -/
theorem Mutex.outside {s : Reporting} (h : Mutex s) (howner : s.owner ≠ some .protocol) : s.stage = .lock :=
  not_not.mp fun hstage => howner (h.protocol.mpr hstage)

theorem start_consistent (uptime : Nat) (density : Bool) : Consistent (Reporting.start uptime density) where
  mutex := Mutex.free rfl rfl rfl
  counted := {
    seq := rfl
    seen := rfl
    room := Nat.two_pow_pos 32 }
  told := ⟨rfl, iff_of_false Mode.noConfusion Bool.noConfusion⟩
  filled := rfl
  carried := ⟨List.Sublist.refl _, rfl⟩

/-- The counters meet exactly when nothing new was left. -/
theorem Counted.meet {s : Reporting} (h : Counted s) : s.repSeq = s.seen ↔ s.fresh = [] := by
  rw [h.seq, h.seen, ← List.length_eq_zero_iff, ← UInt32.toNat_inj, UInt32.toNat_ofNat', UInt32.toNat_ofNat']
  have hroom := h.room
  omega

/-! ### The protocol thread

`report_now` under the invariant: the slot is overwritten whole, and a sleeping reporter is woken. -/

/-- Another thread's statement changes nothing for a reporter that does not have the mutex, unless it
sleeps. -/
theorem Carried.waits {s t : Reporting} (h : Carried s) (hholds : s.reporter.holds = false)
    (hreporter : t.reporter = s.reporter) (hpast : t.past = s.past) (hsent : t.sent = s.sent)
    (hown : t.own = s.own) (hasleep : s.reporter = .blocked → t.fresh = [] ∨ t.stage = .signal) :
    Carried t := by
  have hposted : Posted s → Posted t := by
    unfold Posted
    rw [hpast, hsent]
    exact id
  have hinHand : (InHand s fun p => s.own = p) → InHand t fun p => t.own = p := by
    unfold InHand
    rw [hpast, hsent, hown]
    exact id
  unfold Carried at h ⊢
  rw [hreporter]
  cases hpc : s.reporter with
  | lock =>
    rw [hpc] at h
    exact hposted h
  | woken =>
    rw [hpc] at h
    exact hposted h
  | blocked =>
    rw [hpc] at h
    exact ⟨hposted h.1, hasleep hpc⟩
  | send =>
    rw [hpc] at h
    exact hinHand h
  | _ =>
    rw [hpc] at hholds
    cases hholds

/-- A reporter without the mutex, where nobody is about to signal: if it sleeps, nothing is new. -/
theorem Consistent.asleep {s : Reporting} (h : Consistent s) (hpc : s.reporter = .blocked)
    (hstage : s.stage ≠ .signal) : s.fresh = [] := by
  have hc := h.carried
  unfold Carried at hc
  rw [hpc] at hc
  exact hc.2.resolve_right hstage

theorem newest_concat (past fresh : List Post) (p : Post) :
    (past ++ (fresh ++ [p])).getLastD Post.blank = p := by
  rw [← List.append_assoc, List.getLastD_concat]

/-- A statement that writes one of the shared variables. -/
theorem Consistent.writes {s : Reporting} (h : Consistent s) (htodo : s.todo ≠ []) (hlock : s.stage ≠ .lock)
    (hsignal : s.stage ≠ .signal) (hholds : s.reporter.holds = false) {p : Post} {next : Stage}
    (hnext : next ≠ .lock)
    (hfilled : Filled { s with rep := p, stage := next } (s.todo.headD (p.mode, p.armed))) :
    Consistent { s with rep := p, stage := next } where
  mutex := Mutex.inReport (h.mutex.protocol.mpr hlock) hnext htodo hholds
  counted := ⟨h.counted.seq, h.counted.seen, h.counted.room⟩
  told := h.told
  filled := hfilled
  carried := h.carried.waits hholds rfl rfl rfl rfl fun hpc => .inl (h.asleep hpc hsignal)

/-- **Every statement of `report_now` keeps the invariant.** The cases follow the statements in
their order: each one moves the thread on, and what it writes it writes with the mutex held. -/
theorem Consistent.reportNow {s t : Reporting} {r : Mode × Bool} {rest : List (Mode × Bool)}
    (h : Consistent s) (htodo : s.todo = r :: rest) (hroom : roomy s .protocol = true)
    (hstep : reportNowStep s r rest = some t) : Consistent t := by
  have hfilled := h.filled
  have htold := h.told
  rw [htodo, List.headD_cons] at hfilled
  rw [htodo] at htold
  have hne : s.todo ≠ [] := by
    rw [htodo]
    exact List.cons_ne_nil _ _
  -- behind the lock the reporter waits
  have hmine : s.stage ≠ .lock → s.owner = some .protocol ∧ s.reporter.holds = false := by
    intro hstage
    have howner := h.mutex.protocol.mpr hstage
    refine ⟨howner, h.mutex.excludes ?_⟩
    rw [howner]
    decide
  unfold reportNowStep at hstep
  unfold Filled at hfilled
  cases hstage : s.stage with
  | lock =>
    rw [hstage] at hstep hfilled
    dsimp only at hstep hfilled
    split at hstep
    · next howner =>
      cases hstep
      have hholds : s.reporter.holds = false := h.mutex.excludes (by rw [howner]; decide)
      exact {
        mutex := Mutex.inReport rfl Stage.noConfusion hne hholds
        counted := ⟨h.counted.seq, h.counted.seen, h.counted.room⟩
        told := h.told
        filled := hfilled
        carried := h.carried.waits hholds rfl rfl rfl rfl fun hpc => .inl (h.asleep hpc (by rw [hstage]; decide)) }
    · cases hstep
  | mode =>
    rw [hstage] at hstep hmine
    cases hstep
    refine h.writes hne (by rw [hstage]; decide) (by rw [hstage]; decide) (hmine Stage.noConfusion).2
      Stage.noConfusion ?_
    simp only [Filled, htodo, List.headD_cons]
  | armed =>
    rw [hstage] at hstep hfilled hmine
    cases hstep
    refine h.writes hne (by rw [hstage]; decide) (by rw [hstage]; decide) (hmine Stage.noConfusion).2
      Stage.noConfusion ?_
    simp only [Filled, htodo, List.headD_cons]
    exact ⟨hfilled, trivial⟩
  | density =>
    rw [hstage] at hstep hfilled hmine
    cases hstep
    refine h.writes hne (by rw [hstage]; decide) (by rw [hstage]; decide) (hmine Stage.noConfusion).2
      Stage.noConfusion ?_
    simp only [Filled, htodo, List.headD_cons]
    rw [hfilled.1, hfilled.2]
  | bump =>
    obtain ⟨howner, hholds⟩ := hmine (by rw [hstage]; decide)
    rw [hstage] at hstep hfilled
    simp only [roomy, hstage, ne_eq, not_true_eq_false, decide_false, Bool.false_or, decide_eq_true_eq] at hroom
    cases hstep
    exact {
      mutex := Mutex.inReport howner Stage.noConfusion hne hholds
      counted := {
        seq := by
          dsimp only
          rw [List.length_append, ← Nat.add_assoc, UInt32.ofNat_add, ← h.counted.seq]
          rfl
        seen := h.counted.seen
        room := by rwa [List.length_append] }
      told := by
        dsimp only [Reporting.newest]
        rw [newest_concat, htodo, List.getLastD_cons]
        rwa [List.getLastD_cons] at htold
      filled := by
        simp only [Filled, htodo, List.headD_cons, Reporting.newest, newest_concat]
        rw [show s.rep = ⟨r.1, r.2, s.density⟩ from hfilled]
        exact ⟨rfl, rfl⟩
      carried := h.carried.waits hholds rfl rfl rfl rfl fun _ => .inr rfl }
  | signal =>
    obtain ⟨howner, hholds⟩ := hmine (by rw [hstage]; decide)
    rw [hstage] at hstep hfilled
    cases hstep
    have hpc : (if s.reporter = .blocked then Pc.woken else s.reporter).holds = false := by
      split
      · rfl
      · exact hholds
    exact {
      mutex := Mutex.inReport howner Stage.noConfusion hne hpc
      counted := ⟨h.counted.seq, h.counted.seen, h.counted.room⟩
      told := h.told
      filled := by
        simp only [Filled, htodo, List.headD_cons]
        exact hfilled
      carried := by
        by_cases hblocked : s.reporter = .blocked
        · have hc := h.carried
          unfold Carried at hc ⊢
          rw [hblocked] at hc
          dsimp only
          rw [if_pos hblocked]
          exact hc.1
        · exact h.carried.waits hholds (if_neg hblocked) rfl rfl rfl fun hpc => absurd hpc hblocked }
  | unlock =>
    obtain ⟨howner, hholds⟩ := hmine (by rw [hstage]; decide)
    rw [hstage] at hstep hfilled
    cases hstep
    obtain ⟨hnewest, hr⟩ := hfilled
    exact {
      mutex := Mutex.free rfl rfl hholds
      counted := ⟨h.counted.seq, h.counted.seen, h.counted.room⟩
      told := by
        rw [List.getLastD_cons, hr, hnewest] at htold
        exact htold
      filled := hnewest
      carried := h.carried.waits hholds rfl rfl rfl rfl fun hpc => .inl (h.asleep hpc (by rw [hstage]; decide)) }

/-! ### The reporter

The reporter's loop under the invariant: it takes what is in the slot, clears it and posts outside
of the mutex. -/

/-- The reporter's turn with the mutex: the protocol thread is outside, and the shared variables hold
the newest report. -/
theorem Consistent.turn {s : Reporting} (h : Consistent s) (hpc : s.reporter.holds = true) :
    s.owner = some .reporter ∧ s.stage = .lock ∧ s.rep = s.newest := by
  have howner := h.mutex.reporter.mpr hpc
  have hstage : s.stage = .lock := h.mutex.outside (by rw [howner]; decide)
  have hfilled := h.filled
  unfold Filled at hfilled
  rw [hstage] at hfilled
  exact ⟨howner, hstage, hfilled⟩

/-- A statement that takes or leaves the mutex, or copies: the shared variables stay. -/
theorem Consistent.passes {s : Reporting} (h : Consistent s) {owner : Option Thread} {own : Post} {pc : Pc}
    {sent : List Post} (hmutex : Mutex { s with owner := owner, own := own, reporter := pc, sent := sent })
    (hcarried : Carried { s with owner := owner, own := own, reporter := pc, sent := sent }) :
    Consistent { s with owner := owner, own := own, reporter := pc, sent := sent } where
  mutex := hmutex
  counted := ⟨h.counted.seq, h.counted.seen, h.counted.room⟩
  told := h.told
  filled := h.filled
  carried := hcarried

/-- **Every statement of the reporter's keeps the invariant.** It takes the slot with the mutex
held, and posts what it took with the mutex given back. -/
theorem Consistent.reporter {s t : Reporting} (h : Consistent s) (hstep : reporterStep s = some t) :
    Consistent t := by
  have hc := h.carried
  unfold Carried at hc
  unfold reporterStep at hstep
  cases hpc : s.reporter with
  | lock =>
    rw [hpc] at hstep hc
    dsimp only at hstep
    split at hstep
    · next howner =>
      cases hstep
      exact h.passes (Mutex.inReporter rfl (h.mutex.outside (by rw [howner]; decide)) rfl) hc
    · cases hstep
  | woken =>
    rw [hpc] at hstep hc
    dsimp only at hstep
    split at hstep
    · next howner =>
      cases hstep
      exact h.passes (Mutex.inReporter rfl (h.mutex.outside (by rw [howner]; decide)) rfl) hc
    · cases hstep
  | test =>
    rw [hpc] at hstep hc
    obtain ⟨howner, hstage, -⟩ := h.turn (by rw [hpc]; rfl)
    dsimp only at hstep
    split at hstep
    · next hmeet =>
      cases hstep
      exact h.passes (Mutex.free rfl hstage rfl) ⟨hc, .inl (h.counted.meet.mp hmeet)⟩
    · next hnew =>
      cases hstep
      exact h.passes (Mutex.inReporter howner hstage rfl) ⟨hc, fun hnil => hnew (h.counted.meet.mpr hnil)⟩
  | blocked =>
    rw [hpc] at hstep
    cases hstep
  | see =>
    rw [hpc] at hstep hc
    obtain ⟨howner, hstage, hrep⟩ := h.turn (by rw [hpc]; rfl)
    cases hstep
    obtain ⟨⟨hsub, -⟩, hne⟩ := hc
    have hnewest : (s.past ++ s.fresh ++ []).getLastD Post.blank = s.newest := by
      rw [List.append_nil]
      rfl
    exact {
      mutex := Mutex.inReporter howner hstage rfl
      counted := {
        seq := by
          dsimp only
          rw [List.length_append]
          exact h.counted.seq
        seen := by
          dsimp only
          rw [List.length_append]
          exact h.counted.seq
        room := Nat.two_pow_pos 32 }
      told := by
        dsimp only [Reporting.newest]
        rw [hnewest]
        exact h.told
      filled := by
        simp only [Filled, hstage, Reporting.newest]
        rw [hnewest, hrep]
      carried := by
        refine ⟨s.past ++ s.fresh.dropLast, s.fresh.getLast hne, ?_, ?_, ?_⟩
        · rw [List.append_assoc, List.dropLast_append_getLast]
        · exact hsub.trans (List.sublist_append_left _ _)
        · dsimp only
          rw [hrep, Reporting.newest, List.getLastD_eq_getLast?, List.getLast?_append_of_ne_nil _ hne,
            List.getLast?_eq_getLast_of_ne_nil hne]
          rfl }
  | mode =>
    rw [hpc] at hstep hc
    obtain ⟨howner, hstage, -⟩ := h.turn (by rw [hpc]; rfl)
    cases hstep
    obtain ⟨before, p, hpast, hsub, hrep⟩ := hc
    have hmode : s.rep.mode = p.mode := congrArg Post.mode hrep
    exact h.passes (Mutex.inReporter howner hstage rfl) ⟨before, p, hpast, hsub, hrep, hmode⟩
  | armed =>
    rw [hpc] at hstep hc
    obtain ⟨howner, hstage, -⟩ := h.turn (by rw [hpc]; rfl)
    cases hstep
    obtain ⟨before, p, hpast, hsub, hrep, hmode⟩ := hc
    have harmed : s.rep.armed = p.armed := congrArg Post.armed hrep
    exact h.passes (Mutex.inReporter howner hstage rfl) ⟨before, p, hpast, hsub, hrep, hmode, harmed⟩
  | density =>
    rw [hpc] at hstep hc
    obtain ⟨howner, hstage, -⟩ := h.turn (by rw [hpc]; rfl)
    cases hstep
    obtain ⟨before, p, hpast, hsub, hrep, hmode, harmed⟩ := hc
    refine h.passes (Mutex.inReporter howner hstage rfl) ⟨before, p, hpast, hsub, ?_⟩
    dsimp only
    rw [hmode, harmed, hrep]
  | unlock =>
    rw [hpc] at hstep hc
    obtain ⟨howner, hstage, -⟩ := h.turn (by rw [hpc]; rfl)
    cases hstep
    exact h.passes (Mutex.free rfl hstage rfl) hc
  | send =>
    rw [hpc] at hstep hc
    cases hstep
    obtain ⟨before, p, hpast, hsub, hown⟩ := hc
    refine h.passes ?_ ⟨?_, ?_⟩
    · exact ⟨h.mutex.idle, h.mutex.protocol, by rw [h.mutex.reporter, hpc]; exact Iff.rfl⟩
    · dsimp only
      rw [hpast, hown]
      exact hsub.append (List.Sublist.refl _)
    · dsimp only
      rw [hpast, hown, List.getLast?_concat, List.getLast?_concat]

/-! ## Runs

The safety half is an induction over the run. The other half counts the statements that lie ahead of
the reporter: with the mutex free again and no further report, it posts within fifteen of them. -/

/-- **Every step keeps the invariant.** A step is a statement of one of the two threads, a call of
the client's that reports, or a wake-up that nobody has signalled. -/
theorem step_consistent {atof : List Char → Double} {s t : Reporting} {l : ReportLabel} (h : Consistent s)
    (hroom : roomy s l = true) (hstep : reportingStep atof s l = some t) : Consistent t := by
  cases l with
  | call l =>
    simp only [reportingStep] at hstep
    split at hstep
    · next hidle =>
      obtain ⟨client, hclient, rfl⟩ := Option.map_eq_some_iff.mp hstep
      have htold := h.told
      rw [hidle] at htold
      have hstage := h.mutex.idle hidle
      have hfilled := h.filled
      unfold Filled at hfilled
      rw [hstage] at hfilled
      exact {
        mutex := ⟨fun _ => hstage, h.mutex.protocol, h.mutex.reporter⟩
        counted := ⟨h.counted.seq, h.counted.seen, h.counted.room⟩
        told := reports_told hclient htold
        filled := by
          unfold Filled
          dsimp only
          rw [hstage]
          exact hfilled
        carried := h.carried }
    · cases hstep
  | model density =>
    simp only [reportingStep] at hstep
    split at hstep
    · next hidle =>
      cases hstep
      have hstage := h.mutex.idle hidle
      have hfilled := h.filled
      unfold Filled at hfilled
      rw [hstage] at hfilled
      exact {
        mutex := ⟨fun _ => hstage, h.mutex.protocol, h.mutex.reporter⟩
        counted := ⟨h.counted.seq, h.counted.seen, h.counted.room⟩
        told := h.told
        filled := by
          unfold Filled
          dsimp only
          rw [hstage]
          exact hfilled
        carried := h.carried }
    · cases hstep
  | protocol =>
    simp only [reportingStep] at hstep
    split at hstep
    · cases hstep
    · next r rest htodo => exact h.reportNow htodo hroom hstep
  | reporter => exact h.reporter hstep
  | spurious =>
    simp only [reportingStep] at hstep
    split at hstep
    · next hpc =>
      cases hstep
      have hc := h.carried
      unfold Carried at hc
      rw [hpc] at hc
      refine h.passes ⟨h.mutex.idle, h.mutex.protocol, ?_⟩ hc.1
      rw [h.mutex.reporter, hpc]
      exact Iff.rfl
    · cases hstep

/-- What the engine was told last. -/
def Reporting.lastPosted (s : Reporting) : Post := s.sent.getLastD Post.blank

/-- The reporter sleeps, and the last report posted says how the client stands. -/
structure Settled (s : Reporting) : Prop where
  asleep : s.reporter = .blocked
  told : Told s.client.cool (s.lastPosted.mode, s.lastPosted.armed)

/-- Within `n` statements of its own the reporter has posted what was left, and sleeps. -/
def Settles (atof : List Char → Double) (n : ℕ) (s : Reporting) : Prop :=
  ∃ k ≤ n, ∃ t, Runs.exec (reportingStep atof) (fun _ _ => True) s (List.replicate k .reporter) = some t ∧
    t.client = s.client ∧ Settled t

theorem Settles.of_step {atof : List Char → Double} {n : ℕ} {s t : Reporting} (hstep : reporterStep s = some t)
    (hclient : t.client = s.client) (h : Settles atof n t) : Settles atof (n + 1) s := by
  obtain ⟨k, hk, u, hexec, hkept, hsettled⟩ := h
  refine ⟨k + 1, Nat.succ_le_succ hk, u, ?_, hkept.trans hclient, hsettled⟩
  rw [List.replicate_succ, Runs.exec, if_pos trivial, show reportingStep atof s .reporter = some t from hstep]
  exact hexec

theorem Settles.mono {atof : List Char → Double} {m n : ℕ} {s : Reporting} (h : Settles atof m s) (hle : m ≤ n) :
    Settles atof n s := by
  obtain ⟨k, hk, t, hrest⟩ := h
  exact ⟨k, hk.trans hle, t, hrest⟩

/-- The protocol thread is outside `report_now`. -/
structure Outside (s : Reporting) : Prop extends Consistent s where
  outside : s.todo = []

theorem Outside.owner_free {s : Reporting} (h : Outside s) (hpc : s.reporter.holds = false) : s.owner = none := by
  have hstage := h.mutex.idle h.outside
  cases howner : s.owner with
  | none => rfl
  | some thread =>
    cases thread with
    | protocol => exact absurd hstage (h.mutex.protocol.mp howner)
    | reporter =>
      rw [h.mutex.reporter.mp howner] at hpc
      cases hpc

theorem reporterStep_todo {s t : Reporting} (hstep : reporterStep s = some t) :
    t.todo = s.todo ∧ t.client = s.client := by
  unfold reporterStep at hstep
  split at hstep
  · split at hstep <;> cases hstep
    exact ⟨rfl, rfl⟩
  · split at hstep <;> cases hstep
    exact ⟨rfl, rfl⟩
  · split at hstep <;> cases hstep <;> exact ⟨rfl, rfl⟩
  · cases hstep
  all_goals
    cases hstep
    exact ⟨rfl, rfl⟩

theorem Outside.step {s t : Reporting} (h : Outside s) (hstep : reporterStep s = some t) : Outside t :=
  ⟨h.toConsistent.reporter hstep, (reporterStep_todo hstep).1.trans h.outside⟩

/-- How many statements lie before the test, where the reporter is on its way to it. -/
def Pc.ahead : Pc → Option ℕ
  | .test => some 0
  | .lock | .woken => some 1
  | .send => some 2
  | .unlock => some 3
  | .density => some 4
  | .armed => some 5
  | .mode => some 6
  | .blocked | .see => none

/-- On its way to the test the reporter is never stopped. -/
theorem Outside.advances {s : Reporting} (h : Outside s) {n : ℕ} (hpc : s.reporter.ahead = some (n + 1)) :
    ∃ t, reporterStep s = some t ∧ t.fresh = s.fresh ∧ t.reporter.ahead = some n := by
  unfold reporterStep
  cases hreporter : s.reporter with
  | lock =>
    rw [hreporter] at hpc
    cases hpc
    exact ⟨_, if_pos (h.owner_free (by rw [hreporter]; rfl)), rfl, rfl⟩
  | woken =>
    rw [hreporter] at hpc
    cases hpc
    exact ⟨_, if_pos (h.owner_free (by rw [hreporter]; rfl)), rfl, rfl⟩
  | mode =>
    rw [hreporter] at hpc
    cases hpc
    exact ⟨_, rfl, rfl, rfl⟩
  | armed =>
    rw [hreporter] at hpc
    cases hpc
    exact ⟨_, rfl, rfl, rfl⟩
  | density =>
    rw [hreporter] at hpc
    cases hpc
    exact ⟨_, rfl, rfl, rfl⟩
  | unlock =>
    rw [hreporter] at hpc
    cases hpc
    exact ⟨_, rfl, rfl, rfl⟩
  | send =>
    rw [hreporter] at hpc
    cases hpc
    exact ⟨_, rfl, rfl, rfl⟩
  | _ =>
    rw [hreporter] at hpc
    cases hpc

/-- What settles from the test settles from before it. -/
theorem Outside.to_test {atof : List Char → Double} {m n : ℕ} {s : Reporting} (h : Outside s)
    (hpc : s.reporter.ahead = some n)
    (htest : ∀ t, Outside t → t.reporter.ahead = some 0 → t.fresh = s.fresh → Settles atof m t) :
    Settles atof (m + n) s := by
  induction n generalizing s with
  | zero => exact htest s h hpc rfl
  | succ n ih =>
    obtain ⟨t, hstep, hfresh, ht⟩ := h.advances hpc
    refine (ih (h.step hstep) ht fun u hu hutest hufresh => ?_).of_step hstep (reporterStep_todo hstep).2
    exact htest u hu hutest (hufresh.trans hfresh)

theorem ahead_zero {pc : Pc} (h : pc.ahead = some 0) : pc = .test := by
  cases pc <;> first | rfl | cases h

theorem getLastD_congr {as bs : List Post} (h : as.getLast? = bs.getLast?) (a : Post) :
    as.getLastD a = bs.getLastD a := by
  rw [List.getLastD_eq_getLast?, List.getLastD_eq_getLast?, h]

/-- **No wake-up is lost**: outside `report_now`, a reporter that sleeps has posted the newest report. -/
theorem Outside.settled {s : Reporting} (h : Outside s) (hpc : s.reporter = .blocked) : Settled s := by
  have hc := h.carried
  unfold Carried at hc
  rw [hpc] at hc
  obtain ⟨⟨-, hlast⟩, -⟩ := hc
  have hfresh := h.asleep hpc (by rw [h.mutex.idle h.outside]; decide)
  have hnewest : s.lastPosted = s.newest := by
    rw [Reporting.newest, hfresh, List.append_nil]
    exact getLastD_congr hlast _
  have htold := h.told
  rw [h.outside, List.getLastD_nil, ← hnewest] at htold
  exact ⟨hpc, htold⟩

/-- With nothing new, the test puts the reporter to sleep. -/
theorem Outside.settles_test {atof : List Char → Double} {s : Reporting} (h : Outside s)
    (hpc : s.reporter = .test) (hfresh : s.fresh = []) : Settles atof 1 s := by
  have hstep : reporterStep s = some { s with owner := none, reporter := .blocked } := by
    unfold reporterStep
    rw [hpc]
    exact if_pos (h.counted.meet.mpr hfresh)
  exact Settles.of_step hstep rfl
    ⟨0, le_rfl, _, rfl, rfl, (h.step hstep).settled rfl⟩

theorem Outside.settles_see {atof : List Char → Double} {s : Reporting} (h : Outside s)
    (hpc : s.reporter = .see) : Settles atof 8 s := by
  obtain ⟨t, hstep, hfresh, ht⟩ : ∃ t, reporterStep s = some t ∧ t.fresh = [] ∧ t.reporter = .mode := by
    unfold reporterStep
    rw [hpc]
    exact ⟨_, rfl, rfl, rfl⟩
  refine Settles.of_step hstep (reporterStep_todo hstep).2 ?_
  refine (h.step hstep).to_test (m := 1) (n := 6) (by rw [ht]; rfl) fun u hu hutest hufresh => ?_
  exact hu.settles_test (ahead_zero hutest) (hufresh.trans hfresh)

/-- From the test it is one post at most. -/
theorem Outside.settles_any_test {atof : List Char → Double} {s : Reporting} (h : Outside s)
    (hpc : s.reporter = .test) : Settles atof 9 s := by
  by_cases hfresh : s.fresh = []
  · exact (h.settles_test hpc hfresh).mono (by decide)
  · obtain ⟨t, hstep, ht⟩ : ∃ t, reporterStep s = some t ∧ t.reporter = .see := by
      unfold reporterStep
      rw [hpc]
      exact ⟨_, if_neg fun hmeet => hfresh (h.counted.meet.mp hmeet), rfl⟩
    exact Settles.of_step hstep (reporterStep_todo hstep).2 ((h.step hstep).settles_see ht)

/-- **The reporter settles**, wherever it is. By induction on the statements that lie ahead of it:
each one that it takes leaves one less. -/
theorem Outside.settles {atof : List Char → Double} {s : Reporting} (h : Outside s) : Settles atof 15 s := by
  cases hahead : s.reporter.ahead with
  | some n =>
    have hle : n ≤ 6 := by
      cases hpc : s.reporter <;> rw [hpc] at hahead <;> cases hahead <;> decide
    refine Settles.mono (h.to_test hahead fun t ht htest _ => ht.settles_any_test (ahead_zero htest)) ?_
    omega
  | none =>
    cases hpc : s.reporter with
    | blocked => exact ⟨0, Nat.zero_le _, s, rfl, rfl, h.settled hpc⟩
    | see => exact (h.settles_see hpc).mono (by decide)
    | _ =>
      rw [hpc] at hahead
      cases hahead

theorem reach_consistent {atof : List Char → Double} {uptime : Nat} {density : Bool} {s : Reporting}
    (hrun : Runs.Reach (reportingStep atof) (fun s l => roomy s l = true) (Reporting.start uptime density) s) :
    Consistent s :=
  hrun.invariant (start_consistent uptime density) fun _ _ _ h hroom hstep => step_consistent h hroom hstep

/-- What was posted is in the order of what was left, without what was passed over. -/
theorem Consistent.in_order {s : Reporting} (h : Consistent s) : s.sent.Sublist (s.past ++ s.fresh) := by
  have hposted : s.sent.Sublist s.past := by
    have hc := h.carried
    unfold Carried at hc
    split at hc
    · exact hc.1
    · exact hc.1
    · exact hc.1
    · exact hc.1.1
    · exact hc.1.1
    all_goals
      obtain ⟨before, p, hpast, hsub, -⟩ := hc
      rw [hpast]
      exact hsub.trans (List.sublist_append_left _ _)
  exact hposted.trans (List.sublist_append_left _ _)

/-- **The reports are posted in order, whole, and the last one is.** In every run of the two threads in
which fewer than 2^32 reports are left while one is posted: what is posted is among what was left, in its
order and each at most once, and fits its buffers. From any state with the protocol thread outside
`report_now`, the reporter needs at most 15 statements of its own until it sleeps, and the last report posted
then says how the client stands. What is posted is what `report_send` is handed: a report that its socket
loses counts as posted, and nothing sends it again. -/
theorem reach_reported {atof : List Char → Double} {uptime : Nat} {density : Bool} {s : Reporting}
    (hrun : Runs.Reach (reportingStep atof) (fun s l => roomy s l = true) (Reporting.start uptime density) s)
    (secret : ReportSecret) :
    s.sent.Sublist (s.past ++ s.fresh) ∧ (∀ p ∈ s.sent, (request secret p).length < 288) ∧
      (s.todo = [] → ∃ k ≤ 15, ∃ t,
        Runs.exec (reportingStep atof) (fun _ _ => True) s (List.replicate k .reporter) = some t ∧
        t.reporter = .blocked ∧ Told s.client.cool (t.lastPosted.mode, t.lastPosted.armed)) := by
  have h := reach_consistent hrun
  refine ⟨h.in_order, fun p _ => (request_fits secret p).2, fun hidle => ?_⟩
  have hsettles : Settles atof 15 s := Outside.settles ⟨h, hidle⟩
  obtain ⟨k, hk, t, hexec, hclient, hsettled⟩ := hsettles
  refine ⟨k, hk, t, hexec, hsettled.asleep, ?_⟩
  rw [← hclient]
  exact hsettled.told

/-- An arm and its end while the reporter is not yet back from its first post: of the two reports the
first is posted, and then the second. -/
def armAndEnd : List ReportLabel :=
  [ReportLabel.reporter, .reporter, .call (.window 0 true)] ++
    List.replicate 7 ReportLabel.protocol ++ List.replicate 7 ReportLabel.reporter ++
    [ReportLabel.call (.window 0 false)] ++ List.replicate 7 ReportLabel.protocol

theorem reach_reported_arm :
    ∃ s, Runs.Reach (reportingStep fun _ => .number 0) (fun s l => roomy s l = true) (Reporting.start 0 true) s ∧
      (s.todo = [] ∧ s.sent = [] ∧ s.past.length = 1 ∧ s.fresh.length = 1) ∧
      ∃ k ≤ 15, ∃ t,
        Runs.exec (reportingStep fun _ => .number 0) (fun _ _ => True) s (List.replicate k .reporter) = some t ∧
        t.reporter = .blocked ∧ Told s.client.cool (t.lastPosted.mode, t.lastPosted.armed) := by
  have hex : ∃ s, Runs.Reach (reportingStep fun _ => .number 0) (fun s l => roomy s l = true) (Reporting.start 0 true) s ∧
      (s.todo = [] ∧ s.sent = [] ∧ s.past.length = 1 ∧ s.fresh.length = 1) :=
    Runs.exists_reach_of_exec armAndEnd (by decide +kernel)
  obtain ⟨s, hrun, hstate⟩ := hex
  exact ⟨s, hrun, hstate, (reach_reported hrun (reportSecret none)).2.2 hstate.1⟩

end Glowforge.Cooling
