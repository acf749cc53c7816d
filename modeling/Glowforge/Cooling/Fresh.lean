import Glowforge.Lib.Runs
import Glowforge.Cooling.Poll

/-!
# Glowforge — when a stale verdict reads as fresh

The deadline of the verdict cache is a point of a clock that wraps after 2^32 ms, and freshness
is the sign of the difference. The deadline's true value is that of the last verdict accepted,
or 0 when there was none; a clock that is more than half the range past it is again before it. A
document whose date is no number is accepted at every read, and keeps the deadline ahead.

* **`Dated`** — the invariant: the cache's deadline is the last accepted verdict's, and the date of
  every accepted verdict passed the comparisons when it was read.
* **`Accepted.InForce`** — the verdict is no older than the window.
* **`stale_reads_stale`** — at every reading of the cache, a verdict that is stale or missing reads as
  stale exactly while the clock is in the first half of the range after the deadline, or ahead of the
  deadline of a verdict with a date.
* **`undated_reads_fresh`** — a document whose date is no number reads as fresh at every read.
-/

namespace Glowforge.Cooling

open Glowforge.Laser (SysState)

/-! ## The cache alone

Only a read of the file writes the cache; what it accepts heads the history. -/

/-- The deadline of a cache, before it wraps. -/
def deadlineMs : List Accepted → ℤ
  | [] => 0
  | a :: _ => a.deadline

/-- The verdict's date passed the comparisons when it was read, by `clock`. -/
structure Accepted.ReadBy (a : Accepted) (clock : Nat) : Prop where
  inside : (a.ts.age a.first).outside = false
  delay : a.first ≤ a.second
  clock : a.second ≤ clock

/-- The cache at some time: its deadline is the newest verdict's. -/
structure Dated (c : Cool) (clock : Nat) : Prop where
  deadline : c.vFreshUntilMs = UInt32.ofInt (deadlineMs c.accepted)
  read : ∀ a ∈ c.accepted, a.ReadBy clock
  newest : ∀ b ∈ c.accepted.head?, ∀ a ∈ c.accepted, a.second ≤ b.second

theorem Dated.mono {c : Cool} {clock clock' : Nat} (h : Dated c clock) (hle : clock ≤ clock') :
    Dated c clock' where
  deadline := h.deadline
  read := fun a ha =>
    let hr := h.read a ha
    ⟨hr.inside, hr.delay, hr.clock.trans hle⟩
  newest := h.newest

theorem dated_init (now : Nat) : Dated (Cool.init now) now where
  deadline := rfl
  read := (by rintro _ ⟨⟩)
  newest := (by rintro _ ⟨⟩)

/-- **A read of the file.** What it accepts is the newest verdict from then on. -/
theorem Dated.verdictRead {c : Cool} {clock first second : Nat} (h : Dated c clock)
    (atof : List Char → Double) (file : Option (List Char)) (h1 : clock ≤ first)
    (h2 : first ≤ second) : Dated (verdictRead atof file first second c) second := by
  have hkeep : Dated c second := h.mono (by omega)
  unfold Cooling.verdictRead
  split
  · exact hkeep
  · split
    · exact hkeep
    · next ts _ =>
      split
      · exact hkeep
      · next hinside =>
        have hread : Accepted.ReadBy ⟨ts, first, second⟩ second :=
          ⟨Bool.eq_false_iff.mpr hinside, h2, le_rfl⟩
        refine ⟨?_, ?_, ?_⟩
        · exact Clock.ofNat_add_signed _ _
        · intro a ha
          rcases List.mem_cons.mp ha with rfl | ha
          · exact hread
          · exact hkeep.read a ha
        · intro b hb a ha
          obtain rfl : (⟨ts, first, second⟩ : Accepted) = b := Option.some.inj hb
          rcases List.mem_cons.mp ha with rfl | ha
          · exact le_rfl
          · exact (hkeep.read a ha).clock

/-! ## Everything else leaves the cache alone

A poll reads the file first; its tiers, its hold and its report find the cache that the read left. -/

theorem Dated.of_cache {c d : Cool} {clock : Nat} (h : Dated c clock) (hcache : d.cache = c.cache) :
    Dated d clock := by
  have hdeadline : d.vFreshUntilMs = c.vFreshUntilMs := congrArg Cache.freshUntilMs hcache
  have haccepted : d.accepted = c.accepted := congrArg Cache.accepted hcache
  exact ⟨by rw [hdeadline, haccepted, h.deadline], haccepted ▸ h.read, haccepted ▸ h.newest⟩

theorem holdTake_cache (stale : Bool) (s : Cool) : (holdTake stale s).1.cache = s.cache := rfl

theorem verdictMissing_cache (st : SysState) (s : Cool) :
    (verdictMissing st s).1.cache = s.cache := by
  unfold verdictMissing
  split
  · by_cases hcycle : st = .cycle
    · simp only [hcycle, if_true]
      split <;> exact holdTake_cache true _
    · by_cases hhold : st = .hold
      · simp only [hhold, reduceCtorEq, if_true, if_false]
        split <;> rfl
      · simp only [hcycle, hhold, if_false]
        split <;> rfl
  · rfl

theorem verdictHolds_cache (st : SysState) (s : Cool) :
    (verdictHolds st s).1.cache = s.cache := by
  unfold verdictHolds
  split
  · exact holdTake_cache false s
  · split
    · rfl
    · split <;> rfl

theorem verdictClean_cache (e : PollEnv) (st : SysState) (s : Cool) :
    (verdictClean e st s).1.cache = s.cache := by
  unfold verdictClean
  dsimp only
  split
  · split
    · rfl
    · split <;> rfl
  · rfl

theorem pollVerdict_cache (e : PollEnv) (st : SysState) (armed blocked fresh readNow : Bool)
    (s : Cool) : (pollVerdict e st armed blocked fresh readNow s).1.cache = s.cache := by
  have hrelay := congrArg Prod.fst (verdictRelay_kept readNow s)
  unfold pollVerdict
  split
  · dsimp only
    split
    · exact (verdictHolds_cache st _).trans hrelay
    · exact (verdictClean_cache e st _).trans hrelay
  · exact verdictMissing_cache st s

/-- A poll leaves the cache as its read did. -/
theorem gfcoolPoll_cache (atof : List Char → Double) (e : PollEnv) (st : SysState) (armed : Bool)
    (s : Cool) : (gfcoolPoll atof e st armed s).1.cache = (pollRead atof e s).cache := by
  unfold gfcoolPoll
  refine (congrArg Prod.fst (pollReport_kept e st _)).trans ?_
  exact (pollVerdict_cache e st armed _ _ _ _).trans (congrArg Prod.fst (enforced_kept e st armed _ _ _))

theorem Dated.pollRead {c : Cool} {clock : Nat} {e : PollEnv} (h : Dated c clock)
    (atof : List Char → Double) (h1 : clock ≤ e.now) (h2 : e.now ≤ e.first)
    (h3 : e.first ≤ e.second) : Dated (pollRead atof e c) e.second := by
  unfold Cooling.pollRead
  split
  · have hc : Dated { c with nextVerdictMs := monoMs e.now + 500 } clock :=
      ⟨h.deadline, h.read, h.newest⟩
    exact hc.verdictRead atof e.file (by omega) h3
  · exact h.mono (by omega)

/-! ## Runs -/

theorem inOrder_poll {clock : Nat} {e : PollEnv} (h : (Label.poll e).inOrder clock = true) :
    clock ≤ e.now ∧ e.now ≤ e.first ∧ e.first ≤ e.second ∧ e.second ≤ e.fresh ∧
      e.fresh ≤ e.fire ∧ e.fire ≤ e.report := by
  simp only [Label.inOrder, Bool.and_eq_true, decide_eq_true_eq] at h
  tauto

/-- **One step.** Only a poll that reads the file writes the cache, and the deadline that it writes
is the accepted verdict's own; every other step lets time pass. -/
theorem dated_step {atof : List Char → Double} {s t : State} {l : Label}
    (h : Dated s.cool s.clock) (hstep : step atof s l = some t) : Dated t.cool t.clock := by
  unfold step at hstep
  split at hstep
  · next horder =>
    cases l with
    | poll e =>
      obtain ⟨h1, h2, h3, h4, h5, h6⟩ := inOrder_poll horder
      cases hstep
      refine Dated.of_cache ?_ (gfcoolPoll_cache atof e s.core s.armed s.cool)
      exact (h.pollRead atof h1 h2 h3).mono (by simp only [State.issue]; omega)
    | feedHold enters =>
      simp only [act] at hstep
      split at hstep
      · cases hstep
        split <;> exact h
      · cases hstep
    | otherHold =>
      simp only [act] at hstep
      split at hstep
      · cases hstep
      · cases hstep
        exact h
    | core st =>
      simp only [act] at hstep
      split at hstep
      · cases hstep
      · cases hstep
        exact h
    | window now on =>
      cases hstep
      have hle : s.clock ≤ now := by simpa [Label.inOrder] using horder
      exact (h.mono hle).of_cache (congrArg Prod.fst (gfcoolLaserArmed_kept _ _ _ _))
    | armed on =>
      cases hstep
      exact h
    | coolant now flood =>
      cases hstep
      have hle : s.clock ≤ now := by simpa [Label.inOrder] using horder
      exact (h.mono hle).of_cache (congrArg Prod.fst (gfcoolCoolantSet_kept _ _ _ _))
  · cases hstep

/-! ## Freshness

A verdict that `verdict_fresh` rests on is one that was accepted, and still in the window. -/

/-- The verdict is no older than the window at `t`, apart from the delay between the two readings of the
clock. One without a date is of no age. -/
def Accepted.InForce (a : Accepted) (t : Nat) : Prop :=
  match a.ts with
  | .number x => seconds t - x ≤ 2 + (seconds a.second - seconds a.first)
  | _ => False

/-- A verdict that is stale or missing at `t` reads so: nothing may fire on it, it acknowledges
no window, and a poll that reads it takes the branch of the missing verdict. -/
def StaleReadsStale (c : Cool) (t : Nat) : Prop :=
  (¬∃ a ∈ c.accepted, a.InForce t) →
    verdictFresh t c = false ∧ gfcoolVerdictFireOk t c = false ∧ gfcoolRunAck t c = false ∧
      ∀ (e : PollEnv) (st : SysState) (armed blocked readNow : Bool) (d : Cool),
        pollVerdict e st armed blocked (verdictFresh t c) readNow d = verdictMissing st d

/-- The clock is in the first half of the range after the deadline. -/
def WithinHalfRange (c : Cool) (t : Nat) : Prop :=
  (((t / nsPerMs : Nat) : ℤ) - deadlineMs c.accepted) % 2 ^ 32 < 2 ^ 31

/-- The newest verdict has a date, and the clock is a millisecond before its deadline. In the last
millisecond, which the whole milliseconds of the deadline can leave too late, and behind a verdict
without a date it is an accepted one that must be in force. -/
def BeforeDeadline (c : Cool) (t : Nat) : Prop :=
  match c.accepted with
  | [] => False
  | a :: as =>
    match a.ts with
    | .number _ => ((t / nsPerMs : Nat) : ℤ) + 1 < a.deadline ∨
        ((t / nsPerMs : Nat) : ℤ) + 1 = a.deadline ∧ ∃ b ∈ a :: as, b.InForce t
    | _ => ∃ b ∈ as, b.InForce t

/-- The deadline lies no further from the reading of the clock than half the range. -/
theorem Accepted.deadline_le (a : Accepted) : a.deadline ≤ (a.second / nsPerMs : Nat) + 2 ^ 31 := by
  have hlt := a.leftMs.toNat_lt
  rw [deadline, Clock.toInt_toInt32]
  split <;> omega

/-- The deadline of a verdict with a date lies behind the reading of the clock, and its window is longer by
less than a millisecond. -/
theorem deadline_number {a : Accepted} {clock : Nat} {x : ℚ} (h : a.ReadBy clock) (hx : a.ts = .number x) :
    ((a.second / nsPerMs : Nat) : ℤ) ≤ a.deadline ∧
      (a.deadline : ℚ) < (a.second / nsPerMs : Nat) + 2001 - (seconds a.first - x) * 1000 := by
  obtain ⟨whole, hnan⟩ | ⟨y, hy, hreached, hyoung⟩ := Double.of_not_outside h.inside
  · rw [hx] at hnan
    cases hnan
  rw [hx] at hy
  obtain rfl : x = y := Double.number.inj hy
  have hage0 : 0 ≤ (seconds a.first - x) * 1000 := by linarith
  have hage2 : (seconds a.first - x) * 1000 ≤ 2000 := by linarith
  obtain ⟨n, hn⟩ : ∃ n : ℕ, ⌊(seconds a.first - x) * 1000⌋ = n :=
    Int.eq_ofNat_of_zero_le (Int.floor_nonneg.mpr hage0)
  have hle : n ≤ 2000 := by
    have hfloor : ⌊(seconds a.first - x) * 1000⌋ ≤ 2000 := Int.floor_le_iff.mpr (by push_cast; linarith)
    omega
  have hleft : a.leftMs.toInt32.toInt = 2000 - n := by
    have hnat : a.leftMs.toNat = 2000 - n := by
      rw [Accepted.leftMs, hx, Double.age, Double.wholeMs, hn, verdictMaxAgeMs, UInt32.toNat_sub]
      simp only [UInt32.toNat_ofNat', Int.toNat_natCast]
      omega
    rw [Clock.toInt_toInt32, hnat]
    split <;> omega
  have hfloor := Int.lt_floor_add_one ((seconds a.first - x) * 1000)
  rw [hn] at hfloor
  rw [Accepted.deadline, hleft]
  refine ⟨by omega, ?_⟩
  generalize a.second / nsPerMs = read
  push_cast at hfloor ⊢
  linarith

/-- The clock's milliseconds round it down. -/
theorem seconds_bounds (t : Nat) :
    ((t / nsPerMs : Nat) : ℚ) ≤ seconds t * 1000 ∧ seconds t * 1000 < (t / nsPerMs : Nat) + 1 := by
  have hlow : t / nsPerMs * nsPerMs ≤ t := Nat.div_mul_le_self _ _
  have hhigh : t < (t / nsPerMs + 1) * nsPerMs := by
    simp only [nsPerMs]
    omega
  have hlow' : ((t / nsPerMs : Nat) : ℚ) * 1000000 ≤ t := by exact_mod_cast hlow
  have hhigh' : (t : ℚ) < ((t / nsPerMs : Nat) + 1) * 1000000 := by exact_mod_cast hhigh
  have hsec : seconds t * 1000 = t / 1000000 := by
    simp only [seconds, nsPerMs]
    push_cast
    ring
  rw [hsec]
  constructor <;> linarith

/-- Before the last millisecond of its deadline a verdict is in force. -/
theorem inForce_of_lt {a : Accepted} {clock t : Nat} {x : ℚ} (h : a.ReadBy clock) (hx : a.ts = .number x)
    (hlt : ((t / nsPerMs : Nat) : ℤ) + 1 < a.deadline) : a.InForce t := by
  obtain ⟨-, hleft⟩ := deadline_number h hx
  have ht := (seconds_bounds t).2
  have hsecond := (seconds_bounds a.second).1
  simp only [Accepted.InForce, hx]
  generalize t / nsPerMs = now at hlt ht
  have hlt' : (now : ℚ) + 1 + 1 ≤ a.deadline := by exact_mod_cast Int.add_one_le_of_lt hlt
  linarith

/-- Half the range after it was read no verdict is in force. -/
theorem not_inForce_of_late {a : Accepted} {clock t : Nat} (h : a.ReadBy clock)
    (hlate : a.second / nsPerMs + 2 ^ 31 ≤ t / nsPerMs) : ¬a.InForce t := by
  obtain ⟨whole, hnan⟩ | ⟨x, hx, hreached, -⟩ := Double.of_not_outside h.inside
  · simp only [Accepted.InForce, hnan, not_false_eq_true]
  · have ht := (seconds_bounds t).1
    have hsecond := (seconds_bounds a.second).2
    have hlate' : ((a.second / nsPerMs : Nat) : ℚ) + 2 ^ 31 ≤ (t / nsPerMs : Nat) := by exact_mod_cast hlate
    simp only [Accepted.InForce, hx, not_le]
    linarith

theorem BeforeDeadline.inForce {c : Cool} {clock t : Nat} (h : Dated c clock) (hbefore : BeforeDeadline c t) :
    ∃ a ∈ c.accepted, a.InForce t := by
  unfold BeforeDeadline at hbefore
  split at hbefore
  · cases hbefore
  · next a as haccepted =>
    have hread : a.ReadBy clock := h.read a (haccepted ▸ List.mem_cons_self)
    rw [haccepted]
    split at hbefore
    · next x hx =>
      rcases hbefore with hlt | ⟨-, hforce⟩
      · exact ⟨a, List.mem_cons_self, inForce_of_lt hread hx hlt⟩
      · exact hforce
    · obtain ⟨b, hb, hforce⟩ := hbefore
      exact ⟨b, List.mem_cons_of_mem a hb, hforce⟩

/-- A verdict that is in force while the clock is not in the first half of the range is one whose
deadline is ahead, or stands behind one without a date. -/
theorem beforeDeadline_of_inForce {c : Cool} {clock t : Nat} (h : Dated c clock)
    (hhalf : ¬WithinHalfRange c t) (hforce : ∃ a ∈ c.accepted, a.InForce t) : BeforeDeadline c t := by
  obtain ⟨b, hb, hbforce⟩ := hforce
  unfold WithinHalfRange at hhalf
  unfold BeforeDeadline
  split
  · next hnil =>
    rw [hnil] at hb
    cases hb
  · next a as haccepted =>
    have ha : a ∈ c.accepted := haccepted ▸ List.mem_cons_self
    have hsecond : b.second / nsPerMs ≤ a.second / nsPerMs :=
      Nat.div_le_div_right (h.newest a (by rw [haccepted]; rfl) b hb)
    rw [haccepted] at hhalf hb
    split
    · next x hx =>
      have hread := (deadline_number (h.read a ha) hx).1
      simp only [deadlineMs] at hhalf
      have hahead : ((t / nsPerMs : Nat) : ℤ) < a.deadline := by
        by_contra hpast
        exact not_inForce_of_late (h.read b (haccepted ▸ hb)) (by omega) hbforce
      rcases Int.lt_or_eq_of_le (Int.add_one_le_of_lt hahead) with hlt | heq
      · exact .inl hlt
      · exact .inr ⟨heq, b, hb, hbforce⟩
    · next hnone =>
      refine ⟨b, ?_, hbforce⟩
      rcases List.mem_cons.mp hb with rfl | hb
      · -- the newest has no date, and is not in force
        unfold Accepted.InForce at hbforce
        split at hbforce
        · next x hx => exact absurd hx (hnone x)
        · cases hbforce
      · exact hb

/-- Freshness is the second half of the range after the deadline, modulo the range. -/
theorem Dated.fresh_iff {c : Cool} {clock : Nat} (h : Dated c clock) (t : Nat) :
    verdictFresh t c = true ↔ ¬WithinHalfRange c t := by
  rw [verdictFresh, monoMs, Clock.ofNat_eq_ofInt, h.deadline, Clock.before_iff, WithinHalfRange, not_lt]

/-- **The cache at one reading.** The sign of the wrapped difference is compared with the deadline
as a number, for a verdict that reads as stale. -/
theorem Dated.stale_iff {c : Cool} {clock : Nat} (h : Dated c clock) (t : Nat) :
    StaleReadsStale c t ↔ WithinHalfRange c t ∨ BeforeDeadline c t := by
  constructor
  · intro hstale
    by_cases hhalf : WithinHalfRange c t
    · exact .inl hhalf
    · have hfresh : verdictFresh t c = true := (h.fresh_iff t).mpr hhalf
      refine .inr (beforeDeadline_of_inForce h hhalf ?_)
      by_contra hnone
      exact absurd (hfresh.symm.trans (hstale hnone).1) Bool.noConfusion
  · rintro (hhalf | hbefore) hnone
    · have hfalse : verdictFresh t c = false := by
        rw [Bool.eq_false_iff, Ne, h.fresh_iff, not_not]
        exact hhalf
      refine ⟨hfalse, ?_, ?_, ?_⟩
      · rw [gfcoolVerdictFireOk, hfalse, Bool.false_and]
      · rw [gfcoolRunAck, hfalse, Bool.false_and]
      · intro e st armed blocked readNow d
        rw [hfalse]
        rfl
    · exact absurd (hbefore.inForce h) hnone

/-- The places at which the code reads the cache: between the steps of a run, at any later
time, and inside a poll, behind its read of the file. -/
inductive ReadAt (atof : List Char → Double) (s : State) : Cool → Nat → Prop where
  | between {t : Nat} (ht : s.clock ≤ t) : ReadAt atof s s.cool t
  | inPoll {e : PollEnv} {t : Nat} (horder : (Label.poll e).inOrder s.clock = true)
      (ht : e.second ≤ t) : ReadAt atof s (pollRead atof e s.cool) t

/-- **A stale verdict reads as stale exactly in the first half of the range, or ahead of its deadline.**
In every run from any uptime, with any files and any clock readings, wherever the cache is read: if no
accepted verdict is in force, the verdict reads as stale, blocks fire, acknowledges nothing and the poll
takes the branch of the missing verdict, if and only if the clock is less than half of its range past the
deadline of the last verdict accepted (of the clock's zero, when there was none), modulo the range, or
ahead of the deadline of a verdict that has a date. -/
theorem stale_reads_stale {atof : List Char → Double} {uptime t : Nat} {s : State} {c : Cool}
    (hrun : Runs.Reach (step atof) (fun _ _ => True) (State.init uptime) s)
    (hread : ReadAt atof s c t) : StaleReadsStale c t ↔ WithinHalfRange c t ∨ BeforeDeadline c t := by
  have hdated : Dated s.cool s.clock :=
    hrun.invariant (P := fun s => Dated s.cool s.clock) (dated_init uptime)
      fun _ _ _ h _ hstep => dated_step h hstep
  cases hread with
  | between => exact hdated.stale_iff t
  | inPoll horder =>
    obtain ⟨h1, h2, h3, -⟩ := inOrder_poll horder
    exact (hdated.pollRead atof h1 h2 h3).stale_iff t

/-- **A document without a date is a verdict at every read**, whenever it was published: the comparisons
let a NaN through, and what its conversion leaves of the window is counted from the read. -/
theorem undated_reads_fresh {atof : List Char → Double} {file : Option (List Char)} {body : List Char}
    {whole : UInt32} (hbody : completeDocument file = some body)
    (hdate : jsonNum atof body "ts_mono" = some (.nan whole)) (hwhole : whole.toNat < verdictMaxAgeMs)
    (first second : Nat) (s : Cool) :
    verdictFresh second (verdictRead atof file first second s) = true ∧
      (verdictRead atof file first second s).accepted = ⟨.nan whole, first, second⟩ :: s.accepted := by
  have hinside : (Double.nan whole).outside = false := rfl
  have hread : verdictRead atof file first second s = { s with
      vHold := jsonBool body "hold" true
      vResumeOk := jsonBool body "resume_ok" false
      vFireOk := jsonBool body "fire_ok" false
      vArmed := jsonBool body "armed" false
      vReason := jsonStr body "reason" 112
      vName := jsonStr body "verdict" 16
      vFreshUntilMs := monoMs second + Accepted.leftMs ⟨.nan whole, first, second⟩
      accepted := ⟨.nan whole, first, second⟩ :: s.accepted } := by
    simp only [verdictRead, hbody, hdate, Double.age, hinside, Bool.false_eq_true, if_false]
  have hleft : (Accepted.leftMs ⟨.nan whole, first, second⟩).toNat = verdictMaxAgeMs - whole.toNat := by
    simp only [verdictMaxAgeMs] at hwhole ⊢
    rw [Accepted.leftMs, Double.age, Double.wholeMs, verdictMaxAgeMs, UInt32.toNat_sub]
    simp only [UInt32.toNat_ofNat']
    omega
  rw [hread]
  refine ⟨?_, rfl⟩
  simp only [verdictMaxAgeMs] at hwhole hleft
  simp only [verdictFresh, monoMs]
  rw [Clock.ofNat_add_signed, Clock.toInt_toInt32, Clock.ofNat_eq_ofInt]
  apply Clock.before_of_lt
  · split <;> omega
  · split <;> omega

instance (a : Accepted) (t : Nat) : Decidable (a.InForce t) :=
  match h : a.ts with
  | .number x => decidable_of_iff (seconds t - x ≤ 2 + (seconds a.second - seconds a.first))
      (by simp only [Accepted.InForce, h])
  | .nan _ | .infinity _ => .isFalse (by simp only [Accepted.InForce, h, not_false_eq_true])

instance (c : Cool) (t : Nat) : Decidable (WithinHalfRange c t) :=
  inferInstanceAs (Decidable (_ < _))

/-- A poll at the clock's zero that finds a verdict of that moment, which lets the laser fire. -/
def firstVerdict : PollEnv where
  now := 0
  first := 0
  second := 0
  fresh := 0
  fire := 0
  report := 0
  file := some "\x7b\"ts_mono\":0,\"fire_ok\":true\x7d".toList
  holdComplete := false
  resumeGate := false

/-- One second past its deadline the verdict is stale, and reads so. -/
theorem stale_reads_stale_second :
    ∃ s, Runs.Reach (step fun _ => .number 0) (fun _ _ => True) (State.init 0) s ∧
      s.cool.vFireOk = true ∧ StaleReadsStale s.cool (3000 * nsPerMs) := by
  have hex : ∃ s, Runs.Reach (step fun _ => .number 0) (fun _ _ => True) (State.init 0) s ∧
      (s.clock ≤ 3000 * nsPerMs ∧ s.cool.vFireOk = true ∧
        WithinHalfRange s.cool (3000 * nsPerMs)) :=
    Runs.exists_reach_of_exec [.poll firstVerdict] (by decide +kernel)
  obtain ⟨s, hrun, hclock, hfire, hhalf⟩ := hex
  exact ⟨s, hrun, hfire, (stale_reads_stale hrun (.between hclock)).mpr (.inl hhalf)⟩

/-- **An engine gone for half the range authorizes fire.** 2^31 ms past its deadline, after 24
days without a verdict, the last one reads as fresh and lets the laser fire. -/
theorem lost_engine_authorizes_fire :
    ¬∀ (atof : List Char → Double) (uptime t : Nat) (s : State) (c : Cool),
      Runs.Reach (step atof) (fun _ _ => True) (State.init uptime) s → ReadAt atof s c t →
        StaleReadsStale c t := by
  intro hall
  have hex : ∃ s, Runs.Reach (step fun _ => .number 0) (fun _ _ => True) (State.init 0) s ∧
      (s.clock ≤ (2000 + 2 ^ 31) * nsPerMs ∧
        gfcoolVerdictFireOk ((2000 + 2 ^ 31) * nsPerMs) s.cool = true ∧
        ¬∃ a ∈ s.cool.accepted, a.InForce ((2000 + 2 ^ 31) * nsPerMs)) :=
    Runs.exists_reach_of_exec [.poll firstVerdict] (by decide +kernel)
  obtain ⟨s, hrun, hclock, hfire, hnone⟩ := hex
  have hblocked := (hall _ _ _ s s.cool hrun (.between hclock) hnone).2.1
  rw [hfire] at hblocked
  cases hblocked

end Glowforge.Cooling
