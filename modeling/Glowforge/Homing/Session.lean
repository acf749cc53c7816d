import Glowforge.Homing.Anchor
import Glowforge.Stream.Custody
import Glowforge.Laser.Basic

/-!
# Glowforge — the homing session (`glowforge_homing.c`)

A camera home is another process's work. `gfcloud_home` suspends the stream, starts the runner in a
process group of its own, watches it under a deadline, and takes the device back. The runner does as
it likes meanwhile, and the watch can end it with two signals.

* **`Session`**, **`sessionStep`** — the command's loops, one label for each turn, beside the runner
  and the machine that it takes its turns on (`sessionStep_machine`).
* **`Handed`** — the device: the runner is alive only in the watch's loop, and only while the stream
  is suspended.
* **`Watched`** — the deadline: an overdue runner has its SIGTERM, and 5 s later its SIGKILL.
* **`reach_session`** — both in every run, and what the command leaves behind.

The clock is in milliseconds, and its 32-bit reading wraps.
-/

namespace Glowforge.Homing

open Glowforge.Laser (SysState)

/-! ## The clock

The deadline is a point of a wrapping millisecond clock, and a difference of less than half the
range has the right sign. -/

/-- `(int32_t)(now - deadline) > 0`. -/
def past (now deadline : UInt32) : Bool := 0 < signed (now - deadline)

theorem signed_sub {a b : ℕ} (hlt : a < b + 2 ^ 31) (hge : b ≤ a + 2 ^ 31) :
    signed (UInt32.ofNat a - UInt32.ofNat b) = (a : ℤ) - b := by
  rw [signed, BitVec.toInt_eq_toNat_cond, UInt32.toNat_toBitVec, UInt32.toNat_sub, UInt32.toNat_ofNat',
    UInt32.toNat_ofNat']
  split <;> omega

theorem past_iff {now deadline : ℕ} (hlt : now < deadline + 2 ^ 31) (hge : deadline ≤ now + 2 ^ 31) :
    past (UInt32.ofNat now) (UInt32.ofNat deadline) = true ↔ deadline < now := by
  rw [past, decide_eq_true_eq, signed_sub hlt hge]
  omega

/-! ## The session

The command's loops, with a label for each turn of a wait. The runner's turns and the machine's come
between any two of them. -/

def suspendWaitMs : ℕ := 3000

def killGraceMs : ℕ := 5000

/-- `gfhome_clamp_timeout_s`, where `none` is a key that is not a number. -/
def gfhomeClampTimeoutS (s : Option ℚ) : ℚ :=
  match s with
  | none => 300
  | some s => if s < 10 then 10 else if 3600 < s then 3600 else s

/-- `timeout_ms`. -/
def sessionTimeoutMs (key : Option ℚ) : ℕ := ⌊gfhomeClampTimeoutS key * 1000⌋₊

theorem sessionTimeoutMs_le (key : Option ℚ) : sessionTimeoutMs key ≤ 3600000 := by
  have hle : gfhomeClampTimeoutS key ≤ 3600 := by
    unfold gfhomeClampTimeoutS
    split
    · norm_num
    · split_ifs with hlow hhigh
      · norm_num
      · exact le_rfl
      · exact not_lt.1 hhigh
  refine Nat.floor_le_of_le ?_
  push_cast
  linarith

/-- The runner's process. -/
inductive Runner where
  | none
  | alive
  -- It is gone, with its exit status or by a signal, and has not been waited for, or has been.
  | ended (status : Option ℕ)
  | reaped (status : Option ℕ)
deriving DecidableEq

/-- Where `gfcloud_home` is. -/
inductive Phase where
  | idle
  -- The loop around `gf_stream_suspend`, the fork, and the loop around `waitpid`.
  | handing
  | spawning
  | watching
  -- `gf_stream_resume`, and what follows it; `none` where there was no fork.
  | takingBack (homed : Option Bool)
  | returning (homed : Option Bool)
deriving DecidableEq

structure Session where
  machine : Machine
  phase : Phase
  runner : Runner
  core : SysState
  -- `entry_state`
  entry : SysState
  timeoutMs : ℕ
  giveUp : UInt32
  deadline : UInt32
  killAt : UInt32
  aborted : Bool
  termSent : Bool
  killSent : Bool
  -- `Alarm_HomingFail` has been raised, by this session or one before it.
  alarm : Bool
  clock : ℕ
  -- History: when the runner was started, and when its signals were sent; the exit statuses that
  -- a reference was set on, and whether the watch had been quiet.
  spawned : ℕ
  termed : ℕ
  killed : ℕ
  references : List (Runner × Bool × Bool)

def Session.start (m : Machine) : Session where
  machine := m
  phase := .idle
  runner := .none
  core := .idle
  entry := .idle
  timeoutMs := 0
  giveUp := 0
  deadline := 0
  killAt := 0
  aborted := false
  termSent := false
  killSent := false
  alarm := false
  clock := 0
  spawned := 0
  termed := 0
  killed := 0
  references := []

inductive SessionLabel where
  -- Any other turn of the machine; those of a pump are among them.
  | machine (l : Label)
  -- The core goes on to another state, by a reset in a pump too.
  | core (st : SysState)
  | begins (now : ℕ) (key : Option ℚ)
  -- One turn of the loop around `gf_stream_suspend`; `pumped` says that the system does not abort.
  | handOver (readOk pumped : Bool) (now : ℕ)
  | spawn (forked : Bool) (now : ℕ)
  -- The runner ends, by itself or by a signal.
  | ends (status : Option ℕ)
  -- One turn of the loop around `waitpid`, with its readings of the clock.
  | watch (pumped : Bool) (now later : ℕ)
  -- `waitpid` itself fails.
  | waitFails
  -- `gf_stream_resume` opens the device, and takes the kernel over.
  | takeBack (reopened latchOk emptied counted : Bool)
  -- It returns, and so does the command.
  | returns (resumed : Bool) (k : Keys) (seek opened : Bool)

/-- The turns that are the session's own. -/
def Label.ofSession : Label → Bool
  | .session | .sessionOver | .cloudHome _ _ _ => true
  | .stream (.suspend _) | .stream (.resume _ _ _) => true
  | _ => false

/-- `homed`: the runner's own success, under a watch that sent it no signal. -/
def Session.homed (s : Session) (status : Option ℕ) : Bool :=
  !s.aborted && !s.termSent && status == some 0

/-- One turn of the watch over a runner that is alive. -/
def Session.watch (s : Session) (pumped : Bool) (now later : ℕ) : Session :=
  let aborted := s.aborted || !pumped
  let overdue := past (.ofNat now) s.deadline
  if (aborted || overdue) && !s.termSent then
    { s with
      aborted := aborted
      termSent := true
      killAt := .ofNat later + .ofNat killGraceMs
      clock := later
      termed := later }
  else if s.termSent && !s.killSent then
    if past (.ofNat later) s.killAt then
      { s with aborted := aborted, killSent := true, clock := later, killed := later }
    else { s with aborted := aborted, clock := later }
  else { s with aborted := aborted, clock := now }

variable (cfg : Settings)

/-- The command returns without a reference. A device that could not be opened stays away, and the machine's
session with it: what a later `$H` makes of a lost device is not here. -/
def Session.leave (s : Session) (resumed : Bool) : Option Session :=
  if s.machine.stream.gf.suspended then if resumed then none else some { s with phase := .idle }
  else (machineStep cfg s.machine .sessionOver).map fun m => { s with machine := m, phase := .idle }

/-- What the command does behind `gf_stream_resume`. -/
def Session.finish (s : Session) (homed : Option Bool) (resumed : Bool) (k : Keys) (seek opened : Bool) :
    Option Session :=
  match homed with
  | none =>
    (s.leave cfg resumed).map fun t => { t with core := s.entry, alarm := s.alarm || !resumed }
  | some true =>
    if resumed then
      (machineStep cfg s.machine (.cloudHome k seek opened)).map fun m =>
        { s with
          machine := m
          phase := .idle
          core := .idle
          references := (s.runner, s.aborted, s.termSent) :: s.references }
    else
      (s.leave cfg resumed).map fun t =>
        { t with alarm := true, core := if s.core = .homing then .idle else s.core }
  | some false =>
    (s.leave cfg resumed).map fun t =>
      if !resumed || !s.aborted then
        { t with alarm := true, core := if s.core = .homing then .idle else s.core }
      else t

def sessionStep (s : Session) : SessionLabel → Option Session
  | .machine l =>
    if l.ofSession then none else (machineStep cfg s.machine l).map fun m => { s with machine := m }
  | .core st => if st = .homing then none else some { s with core := st }
  | .begins now key =>
    if s.phase = .idle ∧ (s.core = .idle ∨ s.core = .alarm) then
      (machineStep cfg s.machine .session).map fun m =>
        { s with
          machine := m
          phase := .handing
          runner := .none
          core := .homing
          entry := s.core
          timeoutMs := sessionTimeoutMs key
          giveUp := .ofNat now + .ofNat suspendWaitMs
          aborted := false
          termSent := false
          killSent := false
          clock := now }
    else none
  | .handOver readOk pumped now =>
    if s.phase = .handing then
      (machineStep cfg s.machine (.stream (.suspend readOk))).bind fun m =>
        let s := { s with machine := m, clock := now }
        if m.stream.gf.suspended then some { s with phase := .spawning }
        else if 0 < signed (s.giveUp - .ofNat now) ∧ pumped = true then some s
        else
          (machineStep cfg m .sessionOver).map fun m =>
            { s with machine := m, phase := .idle, core := s.entry }
    else none
  | .spawn forked now =>
    if s.phase = .spawning ∧ s.machine.stream.proto = [] then
      some (if forked then
        { s with
          phase := .watching
          runner := .alive
          deadline := .ofNat now + .ofNat s.timeoutMs
          clock := now
          spawned := now }
        else { s with phase := .takingBack none, clock := now })
    else none
  | .ends status => if s.runner = .alive then some { s with runner := .ended status } else none
  | .watch pumped now later =>
    if s.phase = .watching then
      match s.runner with
      | .alive => some (s.watch pumped now later)
      | .ended status =>
        some { s with runner := .reaped status, phase := .takingBack (some (s.homed status)) }
      | _ => none
    else none
  | .waitFails =>
    if s.phase = .watching then some { s with phase := .takingBack (some false) } else none
  | .takeBack reopened latchOk emptied counted =>
    match s.phase with
    | .takingBack homed =>
      if s.machine.stream.gf.active && !s.machine.stream.gf.inherited && !reopened then
        some { s with phase := .returning homed }
      else
        (machineStep cfg s.machine (.stream (.resume latchOk emptied counted))).map fun m =>
          { s with machine := m, phase := .returning homed }
    | _ => none
  | .returns resumed k seek opened =>
    match s.phase with
    | .returning homed =>
      if s.machine.stream.proto = [] then s.finish cfg homed resumed k seek opened else none
    | _ => none

/-! ## The machine under a session

What the machine may do while the device is away, and which of its turns the session makes itself. -/

variable {cfg}

/-- The turns of the stream that hand the device over or back. -/
def hands : Stream.Label → Bool
  | .suspend _ | .resume _ _ _ => true
  | _ => false

theorem homeCompleted_stream {seek opened : Bool} {a : Anchor} {st : State} {m n : Machine}
    (h : homeCompleted seek opened a st m = some n) :
    Stream.step m.stream (.clearPosition seek) = some n.stream := by
  obtain ⟨u, hu, rfl⟩ := Option.map_eq_some_iff.mp h
  exact hu

/-- The stream behind a turn of the machine: as it was, or one turn on. -/
theorem machineStep_stream {m n : Machine} {l : Label} (hstep : machineStep cfg m l = some n) :
    n.stream = m.stream ∨
      ∃ u, Stream.step m.stream u = some n.stream ∧ (hands u = true → l = .stream u) := by
  cases machineStep_turns cfg hstep with
  | stream hadmits hu => exact .inr ⟨_, hu, fun _ => rfl⟩
  | reset hfree hu => exact .inr ⟨_, hu, fun h => by cases h⟩
  | waits hu hanswer => exact .inr ⟨_, hu, fun h => by cases h⟩
  | answered hu hanswer => exact .inr ⟨_, hu, fun h => by cases h⟩
  | cloudHome hhome =>
    have hzero := homeCompleted_stream hhome
    exact .inr ⟨_, hzero, fun h => by cases h⟩
  | manualHome hfree hmay hhome =>
    have hzero := homeCompleted_stream hhome
    exact .inr ⟨_, hzero, fun h => by cases h⟩
  | lensHome hhome =>
    have hzero := homeCompleted_stream hhome
    exact .inr ⟨_, hzero, fun h => by cases h⟩
  | _ => exact .inl rfl

theorem machineStep_custody {m n : Machine} {l : Label} (hstep : machineStep cfg m l = some n)
    (h : Stream.Custody m.stream) : Stream.Custody n.stream := by
  rcases machineStep_stream hstep with hsame | ⟨u, hu, -⟩
  · rwa [hsame]
  · exact Stream.step_custody hu h

/-- The device is not the stream's, or a takeover of it is still to end. -/
def Out (s : Stream.State) : Prop := s.gf.suspended = true ∨ .resumeSwap ∈ s.proto

/-- The device is away, and nobody is taking it back. -/
structure Away (s : Stream.State) : Prop where
  suspended : s.gf.suspended = true
  noSwap : .resumeSwap ∉ s.proto

theorem machineStep_out {m n : Machine} {l : Label} (hstep : machineStep cfg m l = some n)
    (hhands : ∀ u, l = .stream u → hands u = false) (h : Out n.stream) : Out m.stream := by
  rcases machineStep_stream hstep with hsame | ⟨u, hu, hl⟩
  · rwa [hsame] at h
  · have hno : hands u = false := by
      cases hu' : hands u with
      | false => rfl
      | true => exact hu'.symm.trans (hhands u (hl hu'))
    obtain ⟨hen, hturn⟩ := Stream.step_eq_some.mp hu
    refine turn_suspended hen hturn (fun readOk heq => ?_) (fun a b c heq => ?_) h
    · rw [heq] at hno
      cases hno
    · rw [heq] at hno
      cases hno

/-- A turn of the stream that does not take the device back leaves it away. -/
theorem turn_away {s t : Stream.State} {u : Stream.Label} (hstep : Stream.step s u = some t)
    (hresume : ∀ a b c, u ≠ .resume a b c) (h : Away s) : Away t := by
  obtain ⟨hen, hturn⟩ := Stream.step_eq_some.mp hstep
  refine ⟨?_, Stream.turn_swap hturn hresume h.noSwap⟩
  by_cases hship : ∃ e, u = .ship e
  · obtain ⟨e, rfl⟩ := hship
    cases hturn
    exact (Stream.shipStep_suspended e s).trans h.suspended
  · have hto : ∀ {m : Stream.Marks}, t.gf.marks = m → m.suspended = true → t.gf.suspended = true :=
      fun hm hs => (congrArg Stream.Marks.suspended hm).trans hs
    cases Stream.turn_moved hturn fun e he => hship ⟨e, he⟩ with
    | still hmarks => exact hto hmarks h.suspended
    | wakesLive hl hlive hmarks => exact hto hmarks h.suspended
    | begins hl hidle hmarks => exact hto hmarks h.suspended
    | event hl hlive hmarks => exact hto hmarks h.suspended
    | idles hl hmarks => exact hto hmarks h.suspended
    | resets hl hafter => exact hafter.suspended.trans h.suspended
    | suspends hl hdrained hmarks => exact hto hmarks rfl
    | resumes hl hactive hmarks => exact absurd hl (hresume _ _ _)
    | latchFails hl hhead hmarks => exact hto hmarks h.suspended
    | swaps hl hhead hmarks =>
      cases hp : s.proto with
      | nil =>
        rw [hp] at hhead
        cases hhead
      | cons o rest =>
        rw [hp] at hhead
        cases hhead
        exact absurd (hp ▸ List.mem_cons_self) h.noSwap

theorem machineStep_away {m n : Machine} {l : Label} (hstep : machineStep cfg m l = some n)
    (hhands : ∀ u, l = .stream u → hands u = false) (h : Away m.stream) : Away n.stream := by
  rcases machineStep_stream hstep with hsame | ⟨u, hu, hl⟩
  · rwa [hsame]
  · refine turn_away hu (fun a b c heq => ?_) h
    have hhand : hands u = true := by rw [heq]; rfl
    rw [hhands u (hl hhand)] at hhand
    cases hhand

/-- A suspend owes no takeover. -/
theorem suspend_noSwap {m n : Machine} {readOk : Bool}
    (hstep : machineStep cfg m (.stream (.suspend readOk)) = some n) : .resumeSwap ∉ n.stream.proto := by
  cases machineStep_turns cfg hstep with
  | stream hadmits hu =>
    obtain ⟨hen, hturn⟩ := Stream.step_eq_some.mp hu
    refine Stream.turn_swap hturn (fun a b c heq => by cases heq) ?_
    rw [Stream.begins_idle hen rfl]
    exact List.not_mem_nil

theorem ofSession_hands {l : Label} (h : l.ofSession = false) (u : Stream.Label) (hl : l = .stream u) :
    hands u = false := by
  subst hl
  cases u with
  | suspend readOk => cases h
  | resume a b c => cases h
  | _ => rfl

/-! ## What a turn can do

The inversion lemma of the session's step: a turn of the machine or of the core, or a phase that is
left or goes on. -/

variable (cfg) in
/-- The turns of the session, with the guards that let them. -/
inductive Moves (s : Session) : SessionLabel → Session → Prop where
  | machine {l : Label} {m : Machine} (hl : l.ofSession = false) (hm : machineStep cfg s.machine l = some m) :
      Moves s (.machine l) { s with machine := m }
  | core {st : SysState} (hst : st ≠ .homing) : Moves s (.core st) { s with core := st }
  | begins {now : ℕ} {key : Option ℚ} {m : Machine} (hphase : s.phase = .idle) (hentry : s.core ≠ .homing)
      (hm : machineStep cfg s.machine .session = some m) :
      Moves s (.begins now key) { s with
        machine := m
        phase := .handing
        runner := .none
        core := .homing
        entry := s.core
        timeoutMs := sessionTimeoutMs key
        giveUp := .ofNat now + .ofNat suspendWaitMs
        aborted := false
        termSent := false
        killSent := false
        clock := now }
  | handed {readOk pumped : Bool} {now : ℕ} {m : Machine} (hphase : s.phase = .handing)
      (hm : machineStep cfg s.machine (.stream (.suspend readOk)) = some m)
      (htook : m.stream.gf.suspended = true) :
      Moves s (.handOver readOk pumped now) { s with machine := m, clock := now, phase := .spawning }
  | waits {readOk pumped : Bool} {now : ℕ} {m : Machine} (hphase : s.phase = .handing)
      (hm : machineStep cfg s.machine (.stream (.suspend readOk)) = some m) :
      Moves s (.handOver readOk pumped now) { s with machine := m, clock := now }
  | refused {readOk pumped : Bool} {now : ℕ} {m n : Machine} (hphase : s.phase = .handing)
      (hm : machineStep cfg s.machine (.stream (.suspend readOk)) = some m)
      (hleft : m.stream.gf.suspended = false) (hn : machineStep cfg m .sessionOver = some n) :
      Moves s (.handOver readOk pumped now) { s with machine := n, clock := now, phase := .idle, core := s.entry }
  | forked {now : ℕ} (hphase : s.phase = .spawning) :
      Moves s (.spawn true now) { s with
        phase := .watching
        runner := .alive
        deadline := .ofNat now + .ofNat s.timeoutMs
        clock := now
        spawned := now }
  | unforked {now : ℕ} (hphase : s.phase = .spawning) :
      Moves s (.spawn false now) { s with phase := .takingBack none, clock := now }
  | ends {status : Option ℕ} (halive : s.runner = .alive) :
      Moves s (.ends status) { s with runner := .ended status }
  | watches {pumped : Bool} {now later : ℕ} (hphase : s.phase = .watching) (halive : s.runner = .alive) :
      Moves s (.watch pumped now later) (s.watch pumped now later)
  | reaps {pumped : Bool} {now later : ℕ} {status : Option ℕ} (hphase : s.phase = .watching) :
      Moves s (.watch pumped now later)
        { s with runner := .reaped status, phase := .takingBack (some (s.homed status)) }
  | waitFails (hphase : s.phase = .watching) : Moves s .waitFails { s with phase := .takingBack (some false) }
  | lost {homed : Option Bool} {reopened latchOk emptied counted : Bool} (hphase : s.phase = .takingBack homed) :
      Moves s (.takeBack reopened latchOk emptied counted) { s with phase := .returning homed }
  | takes {homed : Option Bool} {reopened latchOk emptied counted : Bool} {m : Machine}
      (hphase : s.phase = .takingBack homed)
      (hm : machineStep cfg s.machine (.stream (.resume latchOk emptied counted)) = some m) :
      Moves s (.takeBack reopened latchOk emptied counted) { s with machine := m, phase := .returning homed }
  | away {homed : Option Bool} {k : Keys} {seek opened : Bool} {core : SysState}
      (hphase : s.phase = .returning homed)
      (hcore : core = .homing → s.entry = .homing ∨ s.aborted = true) :
      Moves s (.returns false k seek opened) { s with phase := .idle, core := core, alarm := true }
  | back {homed : Option Bool} {resumed : Bool} {k : Keys} {seek opened : Bool} {m : Machine} {core : SysState}
      {alarm : Bool} (hphase : s.phase = .returning homed) (hproto : s.machine.stream.proto = [])
      (hhere : s.machine.stream.gf.suspended = false) (hm : machineStep cfg s.machine .sessionOver = some m)
      (hcore : core = .homing → s.entry = .homing ∨ s.aborted = true) :
      Moves s (.returns resumed k seek opened)
        { s with machine := m, phase := .idle, core := core, alarm := alarm }
  | references {k : Keys} {seek opened : Bool} {m : Machine} (hphase : s.phase = .returning (some true))
      (hproto : s.machine.stream.proto = []) (hm : machineStep cfg s.machine (.cloudHome k seek opened) = some m) :
      Moves s (.returns true k seek opened) { s with
        machine := m
        phase := .idle
        core := .idle
        references := (s.runner, s.aborted, s.termSent) :: s.references }

/-- The two ways in which a command leaves without a reference. -/
theorem leave_cases {s t : Session} {resumed : Bool} (h : s.leave cfg resumed = some t) :
    (resumed = false ∧ t = { s with phase := .idle }) ∨
      (s.machine.stream.gf.suspended = false ∧ ∃ m, machineStep cfg s.machine .sessionOver = some m ∧
        t = { s with machine := m, phase := .idle }) := by
  unfold Session.leave at h
  split at h
  · split at h
    · cases h
    · next hresumed =>
      cases h
      exact .inl ⟨Bool.eq_false_iff.mpr hresumed, rfl⟩
  · next hhere =>
    obtain ⟨m, hm, rfl⟩ := Option.map_eq_some_iff.mp h
    exact .inr ⟨Bool.eq_false_iff.mpr hhere, m, hm, rfl⟩

/-- A command that leaves without a reference. -/
theorem moves_leave {s t : Session} {homed : Option Bool} {resumed alarm : Bool} {k : Keys} {seek opened : Bool}
    {core : SysState} (hphase : s.phase = .returning homed) (hproto : s.machine.stream.proto = [])
    (hleave : s.leave cfg resumed = some t) (halarm : resumed = false → alarm = true)
    (hcore : core = .homing → s.entry = .homing ∨ s.aborted = true) :
    Moves cfg s (.returns resumed k seek opened) { t with core := core, alarm := alarm } := by
  rcases leave_cases hleave with ⟨rfl, rfl⟩ | ⟨hhere, m, hm, rfl⟩
  · obtain rfl := halarm rfl
    exact .away hphase hcore
  · exact .back hphase hproto hhere hm hcore

theorem idle_ne_homing {st : SysState} : (if st = .homing then SysState.idle else st) ≠ .homing := by
  split
  · exact SysState.noConfusion
  · assumption

theorem finish_moves {s t : Session} {homed : Option Bool} {resumed : Bool} {k : Keys} {seek opened : Bool}
    (hphase : s.phase = .returning homed) (hproto : s.machine.stream.proto = [])
    (h : s.finish cfg homed resumed k seek opened = some t) :
    Moves cfg s (.returns resumed k seek opened) t := by
  unfold Session.finish at h
  split at h
  · obtain ⟨u, hu, rfl⟩ := Option.map_eq_some_iff.mp h
    exact moves_leave hphase hproto hu (fun hr => by rw [hr, Bool.not_false, Bool.or_true]) .inl
  · split at h
    · next hresumed =>
      subst hresumed
      obtain ⟨m, hm, rfl⟩ := Option.map_eq_some_iff.mp h
      exact .references hphase hproto hm
    · obtain ⟨u, hu, rfl⟩ := Option.map_eq_some_iff.mp h
      exact moves_leave hphase hproto hu (fun _ => rfl) fun hcore => absurd hcore idle_ne_homing
  · obtain ⟨u, hu, rfl⟩ := Option.map_eq_some_iff.mp h
    split
    · exact moves_leave hphase hproto hu (fun _ => rfl) fun hcore => absurd hcore idle_ne_homing
    · next hclean =>
      simp only [Bool.or_eq_true, Bool.not_eq_true', not_or, Bool.not_eq_false] at hclean
      rcases leave_cases hu with ⟨hlost, -⟩ | ⟨hhere, m, hm, rfl⟩
      · exact absurd (hclean.1.symm.trans hlost) (by decide)
      · exact .back hphase hproto hhere hm fun _ => .inr hclean.2

theorem sessionStep_moves {s t : Session} {l : SessionLabel} (hstep : sessionStep cfg s l = some t) :
    Moves cfg s l t := by
  cases l with
  | machine l =>
    obtain ⟨hl, hstep⟩ := Option.ite_none_left_eq_some.1 hstep
    obtain ⟨m, hm, rfl⟩ := Option.map_eq_some_iff.1 hstep
    exact .machine (Bool.eq_false_iff.mpr hl) hm
  | core st =>
    obtain ⟨hst, hstep⟩ := Option.ite_none_left_eq_some.1 hstep
    cases hstep
    exact .core hst
  | begins now key =>
    obtain ⟨⟨hphase, hcore⟩, hstep⟩ := Option.ite_none_right_eq_some.1 hstep
    obtain ⟨m, hm, rfl⟩ := Option.map_eq_some_iff.1 hstep
    refine .begins hphase (fun hhoming => ?_) hm
    rw [hhoming] at hcore
    rcases hcore with h | h <;> cases h
  | handOver readOk pumped now =>
    obtain ⟨hphase, hstep⟩ := Option.ite_none_right_eq_some.1 hstep
    obtain ⟨m, hm, hstep⟩ := Option.bind_eq_some_iff.1 hstep
    dsimp only at hstep
    split at hstep
    · next htook =>
      cases hstep
      exact .handed hphase hm htook
    · next hleft =>
      split at hstep
      · cases hstep
        exact .waits hphase hm
      · obtain ⟨n, hn, rfl⟩ := Option.map_eq_some_iff.1 hstep
        exact .refused hphase hm (Bool.eq_false_iff.mpr hleft) hn
  | spawn forked now =>
    obtain ⟨⟨hphase, -⟩, hstep⟩ := Option.ite_none_right_eq_some.1 hstep
    cases hstep
    cases forked with
    | true => exact .forked hphase
    | false => exact .unforked hphase
  | ends status =>
    obtain ⟨halive, hstep⟩ := Option.ite_none_right_eq_some.1 hstep
    cases hstep
    exact .ends halive
  | watch pumped now later =>
    obtain ⟨hphase, hstep⟩ := Option.ite_none_right_eq_some.1 hstep
    split at hstep
    · next halive =>
      cases hstep
      exact .watches hphase halive
    · cases hstep
      exact .reaps hphase
    · cases hstep
  | waitFails =>
    obtain ⟨hphase, hstep⟩ := Option.ite_none_right_eq_some.1 hstep
    cases hstep
    exact .waitFails hphase
  | takeBack reopened latchOk emptied counted =>
    simp only [sessionStep] at hstep
    split at hstep
    · next homed hphase =>
      split at hstep
      · cases hstep
        exact .lost hphase
      · obtain ⟨m, hm, rfl⟩ := Option.map_eq_some_iff.1 hstep
        exact .takes hphase hm
    · cases hstep
  | returns resumed k seek opened =>
    simp only [sessionStep] at hstep
    split at hstep
    · next homed hphase =>
      obtain ⟨hproto, hstep⟩ := Option.ite_none_right_eq_some.1 hstep
      exact finish_moves hphase hproto hstep
    · cases hstep

/-! ## The device

The handover brackets the runner: it is started behind the suspension and gone before the resume. -/

/-- The phases in which the device is the runner's, or nobody's. -/
def Phase.away : Phase → Bool
  | .spawning | .watching | .takingBack _ => true
  | _ => false

structure Handed (s : Session) : Prop where
  alive : s.runner = .alive → s.phase = .watching
  away : s.phase.away = true → Away s.machine.stream
  custody : Stream.Custody s.machine.stream

/-- The conditions on the surroundings: `waitpid` does not fail, and no two readings of the clock in the
watch are more than `gap` apart. -/
def calm (gap : ℕ) (s : Session) : SessionLabel → Bool
  | .waitFails => false
  | .spawn _ now => s.clock ≤ now
  | .watch _ now later => s.clock ≤ now && now ≤ later && later ≤ s.clock + gap
  | _ => true

theorem handed_step {gap : ℕ} {s t : Session} {l : SessionLabel} (h : Handed s) (hcalm : calm gap s l = true)
    (hstep : sessionStep cfg s l = some t) : Handed t := by
  cases sessionStep_moves hstep with
  | machine hl hm =>
    exact ⟨h.alive, fun haway => machineStep_away hm (ofSession_hands hl) (h.away haway),
      machineStep_custody hm h.custody⟩
  | core hst => exact ⟨h.alive, h.away, h.custody⟩
  | begins hphase hentry hm =>
    exact ⟨fun halive => (by cases halive), fun haway => (by cases haway), machineStep_custody hm h.custody⟩
  | handed hphase hm htook =>
    refine ⟨fun halive => ?_, fun _ => ⟨htook, suspend_noSwap hm⟩, machineStep_custody hm h.custody⟩
    exact absurd (hphase.symm.trans (h.alive halive)) Phase.noConfusion
  | waits hphase hm =>
    refine ⟨h.alive, fun haway => ?_, machineStep_custody hm h.custody⟩
    rw [hphase] at haway
    cases haway
  | refused hphase hm hleft hn =>
    refine ⟨fun halive => ?_, fun haway => (by cases haway),
      machineStep_custody hn (machineStep_custody hm h.custody)⟩
    exact absurd (hphase.symm.trans (h.alive halive)) Phase.noConfusion
  | forked hphase => exact ⟨fun _ => rfl, fun _ => h.away (by rw [hphase]; rfl), h.custody⟩
  | unforked hphase =>
    refine ⟨fun halive => ?_, fun _ => h.away (by rw [hphase]; rfl), h.custody⟩
    exact absurd (hphase.symm.trans (h.alive halive)) Phase.noConfusion
  | ends halive => exact ⟨fun hended => (by cases hended), h.away, h.custody⟩
  | watches hphase halive =>
    unfold Session.watch
    dsimp only
    split
    · exact ⟨h.alive, h.away, h.custody⟩
    · split
      · split <;> exact ⟨h.alive, h.away, h.custody⟩
      · exact ⟨h.alive, h.away, h.custody⟩
  | reaps hphase =>
    exact ⟨fun halive => (by cases halive), fun _ => h.away (by rw [hphase]; rfl), h.custody⟩
  | waitFails hphase => cases hcalm
  | lost hphase =>
    refine ⟨fun halive => ?_, fun haway => (by cases haway), h.custody⟩
    exact absurd (hphase.symm.trans (h.alive halive)) Phase.noConfusion
  | takes hphase hm =>
    refine ⟨fun halive => ?_, fun haway => (by cases haway), machineStep_custody hm h.custody⟩
    exact absurd (hphase.symm.trans (h.alive halive)) Phase.noConfusion
  | away hphase hcore =>
    refine ⟨fun halive => ?_, fun haway => (by cases haway), h.custody⟩
    exact absurd (hphase.symm.trans (h.alive halive)) Phase.noConfusion
  | back hphase hproto hhere hm hcore =>
    refine ⟨fun halive => ?_, fun haway => (by cases haway), machineStep_custody hm h.custody⟩
    exact absurd (hphase.symm.trans (h.alive halive)) Phase.noConfusion
  | references hphase hproto hm =>
    refine ⟨fun halive => ?_, fun haway => (by cases haway), machineStep_custody hm h.custody⟩
    exact absurd (hphase.symm.trans (h.alive halive)) Phase.noConfusion

/-! ## The deadline

The watch reads the clock once a turn, and each signal is sent by the first reading past its point. -/

/-- The watch over a runner that was started at `spawned`. -/
structure Watched (gap : ℕ) (s : Session) : Prop where
  deadline : s.deadline = .ofNat (s.spawned + s.timeoutMs)
  since : s.spawned ≤ s.clock
  -- without a signal the deadline lies ahead
  quiet : s.termSent = false → s.clock ≤ s.spawned + s.timeoutMs
  killAt : s.termSent = true → s.killAt = .ofNat (s.termed + killGraceMs)
  termed : s.termSent = true → s.termed ≤ s.clock ∧ s.termed ≤ s.spawned + s.timeoutMs + gap
  reason : s.termSent = true → s.aborted = true ∨ s.spawned + s.timeoutMs < s.termed
  patient : s.termSent = true → s.killSent = false → s.clock ≤ s.termed + killGraceMs
  killed : s.killSent = true →
    s.termSent = true ∧ s.termed + killGraceMs < s.killed ∧ s.killed ≤ s.termed + killGraceMs + gap

theorem ofNat_add_ofNat (a b : ℕ) : UInt32.ofNat a + UInt32.ofNat b = UInt32.ofNat (a + b) :=
  (UInt32.ofNat_add a b).symm

/-- **A turn of the watch keeps its deadlines.** The cases are the branches of the loop, in its
order: the runner has ended, a signal is due, or the wait goes on. -/
theorem Watched.watch {gap : ℕ} {s : Session} {pumped : Bool} {now later : ℕ} (h : Watched gap s)
    (hgap : gap < 2 ^ 30) (htimeout : s.timeoutMs ≤ 3600000)
    (hnow : s.clock ≤ now) (hlater : now ≤ later) (hin : later ≤ s.clock + gap) :
    Watched gap (s.watch pumped now later) := by
  have hsince := h.since
  have hgrace : killGraceMs = 5000 := rfl
  unfold Session.watch
  dsimp only
  split
  · next hterm =>
    -- the SIGTERM, for an abort or past the deadline
    simp only [Bool.and_eq_true, Bool.not_eq_true'] at hterm
    obtain ⟨hwhy, hsilent⟩ := hterm
    have hquiet := h.quiet hsilent
    have hnoKill : s.killSent = false := by
      cases hkill : s.killSent with
      | false => rfl
      | true =>
        have hsent := (h.killed hkill).1
        rw [hsilent] at hsent
        cases hsent
    refine ⟨h.deadline, ?_, fun hno => (by cases hno), fun _ => ?_, fun _ => ⟨le_rfl, ?_⟩, fun _ => ?_,
      fun _ _ => ?_, fun hkill => ?_⟩
    · dsimp only
      omega
    · exact ofNat_add_ofNat later killGraceMs
    · dsimp only
      omega
    · dsimp only
      rw [Bool.or_eq_true] at hwhy
      refine hwhy.imp id fun hpast => ?_
      rw [h.deadline, past_iff (by omega) (by omega)] at hpast
      omega
    · dsimp only
      omega
    · dsimp only at hkill
      rw [hnoKill] at hkill
      cases hkill
  · next hterm =>
    simp only [Bool.and_eq_true, Bool.not_eq_true', not_and, Bool.not_eq_false] at hterm
    split
    · next hwait =>
      simp only [Bool.and_eq_true, Bool.not_eq_true'] at hwait
      obtain ⟨hsent, hnoKill⟩ := hwait
      have htermed := h.termed hsent
      have hpatient := h.patient hsent hnoKill
      have hpast : past (.ofNat later) (.ofNat (s.termed + killGraceMs)) = true ↔
          s.termed + killGraceMs < later := past_iff (by omega) (by omega)
      rw [← h.killAt hsent] at hpast
      split
      · next hkill =>
        -- the SIGKILL, its grace over
        have hover := hpast.mp hkill
        refine {
          deadline := h.deadline
          since := by dsimp only; omega
          quiet := fun hno => by rw [hsent] at hno; cases hno
          killAt := h.killAt
          termed := fun _ => ⟨by dsimp only; omega, htermed.2⟩
          reason := fun _ => (h.reason hsent).imp (fun hab => by dsimp only; rw [hab, Bool.true_or]) id
          patient := fun _ hno => by cases hno
          killed := fun _ => ⟨hsent, hover, by dsimp only; omega⟩ }
      · next hkill =>
        have hover := fun hlt => hkill (hpast.mpr hlt)
        refine {
          deadline := h.deadline
          since := by dsimp only; omega
          quiet := fun hno => by rw [hsent] at hno; cases hno
          killAt := h.killAt
          termed := fun _ => ⟨by dsimp only; omega, htermed.2⟩
          reason := fun _ => (h.reason hsent).imp (fun hab => by dsimp only; rw [hab, Bool.true_or]) id
          patient := fun _ _ => not_lt.mp hover
          killed := fun hno => by rw [show s.killSent = true from hno] at hnoKill; cases hnoKill }
    · next hwait =>
      -- nothing is sent: no deadline is over, or both signals are out
      refine {
        deadline := h.deadline
        since := by dsimp only; omega
        quiet := fun hsilent => ?_
        killAt := h.killAt
        termed := fun hsent => ⟨by have := h.termed hsent; dsimp only; omega, (h.termed hsent).2⟩
        reason := fun hsent => (h.reason hsent).imp (fun hab => by dsimp only; rw [hab, Bool.true_or]) id
        patient := fun hsent hno => ?_
        killed := h.killed }
      · have hquiet := h.quiet hsilent
        have hnot : ¬past (.ofNat now) s.deadline = true := fun hpast => by
          have hsent := hterm (by rw [hpast, Bool.or_true])
          rw [show s.termSent = false from hsilent] at hsent
          cases hsent
        rw [h.deadline, past_iff (by omega) (by omega)] at hnot
        exact not_lt.mp hnot
      · refine absurd ?_ hwait
        rw [show s.termSent = true from hsent, show s.killSent = false from hno]
        rfl

/-- The deadlines hold throughout the watch. -/
structure Timed (gap : ℕ) (s : Session) : Prop where
  timeout : s.timeoutMs ≤ 3600000
  watched : s.phase = .watching → Watched gap s
  unsent : s.phase = .handing ∨ s.phase = .spawning → s.termSent = false ∧ s.killSent = false

/-- A turn of the watch writes the signals, the abort and the clock. -/
theorem watch_kept (s : Session) (pumped : Bool) (now later : ℕ) :
    (s.watch pumped now later).phase = s.phase ∧ (s.watch pumped now later).timeoutMs = s.timeoutMs ∧
      (s.watch pumped now later).entry = s.entry ∧ (s.watch pumped now later).references = s.references := by
  unfold Session.watch
  dsimp only
  split
  · exact ⟨rfl, rfl, rfl, rfl⟩
  · split
    · split <;> exact ⟨rfl, rfl, rfl, rfl⟩
    · exact ⟨rfl, rfl, rfl, rfl⟩

theorem timed_step {gap : ℕ} (hgap : gap < 2 ^ 30) {s t : Session} {l : SessionLabel} (h : Timed gap s)
    (hcalm : calm gap s l = true) (hstep : sessionStep cfg s l = some t) : Timed gap t := by
  cases sessionStep_moves hstep with
  | machine hl hm => exact ⟨h.timeout, fun hw => { h.watched hw with }, h.unsent⟩
  | core hst => exact ⟨h.timeout, fun hw => { h.watched hw with }, h.unsent⟩
  | begins hphase hentry hm => exact ⟨sessionTimeoutMs_le _, fun hw => (by cases hw), fun _ => ⟨rfl, rfl⟩⟩
  | handed hphase hm htook => exact ⟨h.timeout, fun hw => (by cases hw), fun _ => h.unsent (.inl hphase)⟩
  | waits hphase hm =>
    exact ⟨h.timeout, fun hw => absurd (hphase.symm.trans hw) Phase.noConfusion,
      fun _ => h.unsent (.inl hphase)⟩
  | refused hphase hm hleft hn =>
    exact ⟨h.timeout, fun hw => (by cases hw), fun hp => (by rcases hp with hp | hp <;> cases hp)⟩
  | forked hphase =>
    obtain ⟨hterm, hkill⟩ := h.unsent (.inr hphase)
    have hno : ∀ {p : Prop}, s.termSent = true → p :=
      fun hsent => absurd (hterm.symm.trans hsent) Bool.noConfusion
    refine ⟨h.timeout, fun _ => ?_, fun hp => (by rcases hp with hp | hp <;> cases hp)⟩
    exact {
      deadline := ofNat_add_ofNat _ _
      since := le_rfl
      quiet := fun _ => Nat.le_add_right _ _
      killAt := fun hsent => hno hsent
      termed := fun hsent => hno hsent
      reason := fun hsent => hno hsent
      patient := fun hsent => hno hsent
      killed := fun hsent => absurd (hkill.symm.trans hsent) Bool.noConfusion }
  | unforked hphase =>
    exact ⟨h.timeout, fun hw => (by cases hw), fun hp => (by rcases hp with hp | hp <;> cases hp)⟩
  | ends halive => exact ⟨h.timeout, fun hw => { h.watched hw with }, h.unsent⟩
  | @watches pumped now later hphase halive =>
    simp only [calm, Bool.and_eq_true, decide_eq_true_eq] at hcalm
    obtain ⟨⟨hnow, hlater⟩, hin⟩ := hcalm
    obtain ⟨hkept, htimeout, -⟩ := watch_kept s pumped now later
    refine ⟨htimeout.trans_le h.timeout, fun _ => ?_, fun hp => ?_⟩
    · exact (h.watched hphase).watch hgap h.timeout hnow hlater hin
    · rw [hkept, hphase] at hp
      rcases hp with hp | hp <;> cases hp
  | reaps hphase =>
    exact ⟨h.timeout, fun hw => (by cases hw), fun hp => (by rcases hp with hp | hp <;> cases hp)⟩
  | waitFails hphase => cases hcalm
  | lost hphase =>
    exact ⟨h.timeout, fun hw => (by cases hw), fun hp => (by rcases hp with hp | hp <;> cases hp)⟩
  | takes hphase hm =>
    exact ⟨h.timeout, fun hw => (by cases hw), fun hp => (by rcases hp with hp | hp <;> cases hp)⟩
  | away hphase hcore =>
    exact ⟨h.timeout, fun hw => (by cases hw), fun hp => (by rcases hp with hp | hp <;> cases hp)⟩
  | back hphase hproto hhere hm hcore =>
    exact ⟨h.timeout, fun hw => (by cases hw), fun hp => (by rcases hp with hp | hp <;> cases hp)⟩
  | references hphase hproto hm =>
    exact ⟨h.timeout, fun hw => (by cases hw), fun hp => (by rcases hp with hp | hp <;> cases hp)⟩

/-! ## What is left behind

The command leaves by one function. What it leaves depends on whether the runner said `homed` before
it ended. -/

structure Left (s : Session) : Prop where
  entry : s.phase ≠ .idle → s.entry ≠ .homing
  core : s.phase = .idle → s.core = .homing → s.aborted = true
  lost : s.phase = .idle → Out s.machine.stream → s.alarm = true
  success : s.phase = .takingBack (some true) ∨ s.phase = .returning (some true) →
    s.runner = .reaped (some 0) ∧ s.aborted = false ∧ s.termSent = false
  references : ∀ x ∈ s.references, x = (.reaped (some 0), false, false)

theorem homed_iff {s : Session} {status : Option ℕ} (h : s.homed status = true) :
    status = some 0 ∧ s.aborted = false ∧ s.termSent = false := by
  simp only [Session.homed, Bool.and_eq_true, Bool.not_eq_true', beq_iff_eq] at h
  exact ⟨h.2, h.1.1, h.1.2⟩

/-- Inside the command, and not behind the runner's success. -/
theorem Left.inside {s : Session} (hphase : s.phase ≠ .idle) (htaking : s.phase ≠ .takingBack (some true))
    (hreturning : s.phase ≠ .returning (some true)) (hentry : s.entry ≠ .homing)
    (hrefs : ∀ x ∈ s.references, x = (.reaped (some 0), false, false)) : Left s where
  entry := fun _ => hentry
  core := fun hp => absurd hp hphase
  lost := fun hp => absurd hp hphase
  success := fun hp => hp.elim (fun hp => absurd hp htaking) fun hp => absurd hp hreturning
  references := hrefs

/-- Behind the command. -/
theorem Left.behind {s : Session} (hphase : s.phase = .idle) (hcore : s.core = .homing → s.aborted = true)
    (hlost : Out s.machine.stream → s.alarm = true)
    (hrefs : ∀ x ∈ s.references, x = (.reaped (some 0), false, false)) : Left s where
  entry := fun hp => absurd hphase hp
  core := fun _ => hcore
  lost := fun _ => hlost
  success := fun hp => by rw [hphase] at hp; rcases hp with hp | hp <;> cases hp
  references := hrefs

/-- A machine whose device is here, with no call on the protocol thread, has it here after a turn that
hands nothing over. -/
theorem not_out {m n : Machine} {l : Label} (hstep : machineStep cfg m l = some n)
    (hhands : ∀ u, l = .stream u → hands u = false) (hhere : m.stream.gf.suspended = false)
    (hproto : .resumeSwap ∉ m.stream.proto) : ¬Out n.stream := by
  intro hout
  rcases machineStep_out hstep hhands hout with hsuspended | hswap
  · rw [hhere] at hsuspended
    cases hsuspended
  · exact hproto hswap

theorem left_step {s t : Session} {l : SessionLabel} (h : Left s) (hstep : sessionStep cfg s l = some t) :
    Left t := by
  cases sessionStep_moves hstep with
  | machine hl hm =>
    exact ⟨h.entry, h.core, fun hp hout => h.lost hp (machineStep_out hm (ofSession_hands hl) hout),
      h.success, h.references⟩
  | core hst => exact ⟨h.entry, fun hp hc => absurd hc hst, h.lost, h.success, h.references⟩
  | begins hphase hentry hm =>
    exact Left.inside Phase.noConfusion Phase.noConfusion Phase.noConfusion hentry h.references
  | handed hphase hm htook =>
    have hentry := h.entry (by rw [hphase]; exact Phase.noConfusion)
    exact Left.inside Phase.noConfusion Phase.noConfusion Phase.noConfusion hentry h.references
  | waits hphase hm =>
    have hnot : s.phase ≠ .idle := by rw [hphase]; exact Phase.noConfusion
    exact ⟨h.entry, fun hp => absurd hp hnot, fun hp => absurd hp hnot, h.success, h.references⟩
  | refused hphase hm hleft hn =>
    have hentry := h.entry (by rw [hphase]; exact Phase.noConfusion)
    exact Left.behind rfl (fun hc => absurd hc hentry)
      (fun hout => absurd hout (not_out hn (fun u hu => by cases hu) hleft (suspend_noSwap hm))) h.references
  | forked hphase =>
    have hentry := h.entry (by rw [hphase]; exact Phase.noConfusion)
    exact Left.inside Phase.noConfusion Phase.noConfusion Phase.noConfusion hentry h.references
  | unforked hphase =>
    have hentry := h.entry (by rw [hphase]; exact Phase.noConfusion)
    exact Left.inside Phase.noConfusion (by rintro ⟨⟩) Phase.noConfusion hentry h.references
  | ends halive =>
    refine ⟨h.entry, h.core, h.lost, fun hp => ?_, h.references⟩
    have hreaped := (h.success hp).1
    rw [halive] at hreaped
    cases hreaped
  | @watches pumped now later hphase halive =>
    obtain ⟨hkept, -, hentry, hrefs⟩ := watch_kept s pumped now later
    rw [hphase] at hkept
    refine Left.inside ?_ ?_ ?_ ?_ (fun x hx => h.references x (hrefs ▸ hx))
    · rw [hkept]
      exact Phase.noConfusion
    · rw [hkept]
      exact Phase.noConfusion
    · rw [hkept]
      exact Phase.noConfusion
    · rw [hentry]
      exact h.entry (by rw [hphase]; exact Phase.noConfusion)
  | reaps hphase =>
    refine ⟨fun _ => h.entry (by rw [hphase]; exact Phase.noConfusion), fun hp => (by cases hp),
      fun hp => (by cases hp), fun hp => ?_, h.references⟩
    rcases hp with hp | hp
    · injection hp with hhomed
      injection hhomed with hhomed
      obtain ⟨rfl, haborted, hterm⟩ := homed_iff hhomed
      exact ⟨rfl, haborted, hterm⟩
    · cases hp
  | waitFails hphase =>
    have hentry := h.entry (by rw [hphase]; exact Phase.noConfusion)
    exact Left.inside Phase.noConfusion (by rintro ⟨⟩) Phase.noConfusion hentry h.references
  | lost hphase =>
    refine ⟨fun _ => h.entry (by rw [hphase]; exact Phase.noConfusion), fun hp => (by cases hp),
      fun hp => (by cases hp), fun hp => h.success (.inl ?_), h.references⟩
    rcases hp with hp | hp
    · cases hp
    · injection hp with hhomed
      rw [hphase, hhomed]
  | takes hphase hm =>
    refine ⟨fun _ => h.entry (by rw [hphase]; exact Phase.noConfusion), fun hp => (by cases hp),
      fun hp => (by cases hp), fun hp => h.success (.inl ?_), h.references⟩
    rcases hp with hp | hp
    · cases hp
    · injection hp with hhomed
      rw [hphase, hhomed]
  | away hphase hcore =>
    have hentry := h.entry (by rw [hphase]; exact Phase.noConfusion)
    exact Left.behind rfl (fun hc => (hcore hc).resolve_left hentry) (fun _ => rfl) h.references
  | back hphase hproto hhere hm hcore =>
    have hentry := h.entry (by rw [hphase]; exact Phase.noConfusion)
    have hnone : .resumeSwap ∉ s.machine.stream.proto := by
      rw [hproto]
      exact List.not_mem_nil
    exact Left.behind rfl (fun hc => (hcore hc).resolve_left hentry)
      (fun hout => absurd hout (not_out hm (fun u hu => by cases hu) hhere hnone)) h.references
  | references hphase hproto hm =>
    obtain ⟨hreaped, haborted, hterm⟩ := h.success (.inr hphase)
    have hhere : s.machine.stream.gf.suspended = false := by
      have hguard := (Option.ite_none_right_eq_some.1 hm).1
      simp only [Bool.and_eq_true, Bool.not_eq_true'] at hguard
      exact hguard.2
    have hnone : .resumeSwap ∉ s.machine.stream.proto := by
      rw [hproto]
      exact List.not_mem_nil
    refine Left.behind rfl (fun hc => (by cases hc))
      (fun hout => absurd hout (not_out hm (fun u hu => by cases hu) hhere hnone)) fun x hx => ?_
    rcases List.mem_cons.mp hx with rfl | hx
    · rw [hreaped, haborted, hterm]
    · exact h.references x hx

/-! ## Runs

The three invariants in every run, and a second session behind a first. -/

theorem start_handed (c : Stream.Config) (k : Stream.Kernel) (emptied counted : Bool) (st : State) :
    Handed (Session.start (Machine.start (Stream.State.init c k emptied counted) st)) where
  alive := fun h => by cases h
  away := fun h => by cases h
  custody := Stream.init_custody c k emptied counted

theorem start_left (c : Stream.Config) (k : Stream.Kernel) (emptied counted : Bool) (st : State) :
    Left (Session.start (Machine.start (Stream.State.init c k emptied counted) st)) := by
  refine Left.behind rfl (fun hc => by cases hc) (fun hout => ?_) (fun x hx => by cases hx)
  have hhere : (Stream.State.init c k emptied counted).gf.suspended = false := by
    simp only [Stream.State.init, Stream.rebaseAtTakeover]
    split_ifs <;> rfl
  rcases hout with hout | hout
  · exact absurd (hhere.symm.trans hout) Bool.noConfusion
  · cases hout

/-- **A session owns its device, ends its runner in time, and says what it left.** In every run in which
`waitpid` does not fail and no two readings of the clock in the watch are more than `gap` apart:

* a runner that is alive is watched, the stream is suspended, and the shipper of an active stream has no
  pass under way (a stream on the null sink is suspended at once, whatever its shipper is doing);
* a watched runner has its SIGTERM, for an abort or an overdue session alone, by the timeout and `gap`,
  and its SIGKILL between 5 s and 5 s and `gap` later;
* the command leaves the homing state unless the system aborts, a device that does not come back leaves the
  alarm raised, and a reference is set on the runner's exit with 0 under a watch without a signal.

A run has any number of sessions one after another, up to the first that loses its device. -/
theorem reach_session {c : Stream.Config} {k : Stream.Kernel} {emptied counted : Bool} {st : State} {gap : ℕ}
    {s : Session} (hgap : gap < 2 ^ 30)
    (hrun : Runs.Reach (sessionStep cfg) (fun s l => calm gap s l = true)
      (Session.start (Machine.start (Stream.State.init c k emptied counted) st)) s) :
    (s.runner = .alive → s.phase = .watching ∧ s.machine.stream.gf.suspended = true ∧
      (s.machine.stream.gf.active = true → s.machine.stream.pc.site.owning = false)) ∧
    (s.phase = .watching →
      (s.termSent = false → s.clock ≤ s.spawned + s.timeoutMs) ∧
      (s.termSent = true → s.termed ≤ s.spawned + s.timeoutMs + gap ∧
        (s.aborted = true ∨ s.spawned + s.timeoutMs < s.termed) ∧
        (s.killSent = false → s.clock ≤ s.termed + killGraceMs)) ∧
      (s.killSent = true → s.termed + killGraceMs < s.killed ∧ s.killed ≤ s.termed + killGraceMs + gap)) ∧
    (s.phase = .idle → (s.core = .homing → s.aborted = true) ∧
      (s.machine.stream.gf.suspended = true → s.alarm = true)) ∧
    ∀ x ∈ s.references, x = (.reaped (some 0), false, false) := by
  have hhanded : Handed s := hrun.invariant (P := Handed) (start_handed c k emptied counted st)
    fun _ _ _ h hcalm hstep => handed_step h hcalm hstep
  have htimed : Timed gap s := hrun.invariant (P := Timed gap)
    ⟨Nat.zero_le _, fun hw => (by cases hw), fun hp => (by rcases hp with hp | hp <;> cases hp)⟩
    fun _ _ _ h hcalm hstep => timed_step hgap h hcalm hstep
  have hleft : Left s := hrun.invariant (P := Left) (start_left c k emptied counted st)
    fun _ _ _ h _ hstep => left_step h hstep
  refine ⟨fun halive => ?_, fun hwatch => ?_,
    fun hidle => ⟨hleft.core hidle, fun hlost => hleft.lost hidle (.inl hlost)⟩, hleft.references⟩
  · have hphase := hhanded.alive halive
    have haway := hhanded.away (by rw [hphase]; rfl)
    exact ⟨hphase, haway.suspended, fun hactive => (hhanded.custody.marks.here hactive haway.suspended).1⟩
  · have hw := htimed.watched hwatch
    exact ⟨hw.quiet, fun hsent => ⟨(hw.termed hsent).2, hw.reason hsent, hw.patient hsent⟩,
      fun hsent => (hw.killed hsent).2⟩

/-- A session that sets a reference, and a second one whose runner hears no signal. -/
def homedThenOverdue : List SessionLabel :=
  [.begins 0 none, .handOver true true 0, .spawn true 0, .ends (some 0), .watch true 0 0,
    .takeBack true true true true, .machine (.stream .proto), .returns true bareKeys true true,
    .begins 0 none, .handOver true true 0, .spawn true 0, .watch true 300001 300001, .watch true 305002 305002]

theorem reach_session_second :
    ∃ s, Runs.Reach (sessionStep tenSteps) (fun s l => calm 300001 s l = true)
        (Session.start (Machine.start (Stream.State.init (Stream.slowConfig true) Stream.idleKernel true true)
          unreferenced)) s ∧
      (s.phase = .watching ∧ s.runner = .alive ∧ s.killSent = true ∧ s.references.length = 1) ∧
      s.machine.stream.gf.suspended = true ∧ s.termed + killGraceMs < s.killed := by
  have hex : ∃ s, Runs.Reach (sessionStep tenSteps) (fun s l => calm 300001 s l = true)
        (Session.start (Machine.start (Stream.State.init (Stream.slowConfig true) Stream.idleKernel true true)
          unreferenced)) s ∧
      (s.phase = .watching ∧ s.runner = .alive ∧ s.killSent = true ∧ s.references.length = 1) :=
    Runs.exists_reach_of_exec homedThenOverdue (by decide +kernel)
  obtain ⟨s, hrun, hphase, halive, hkill, hrefs⟩ := hex
  obtain ⟨hdevice, hwatch, -, -⟩ := reach_session (by decide) hrun
  exact ⟨s, hrun, ⟨hphase, halive, hkill, hrefs⟩, (hdevice halive).2.1, ((hwatch hphase).2.2 hkill).1⟩

end Glowforge.Homing
