import Glowforge.Cooling.Decel
import Glowforge.Cooling.Fresh
import Glowforge.Laser.FireGate

/-!
# Glowforge — the cooling client beside the laser module

The two modules call each other: the client's poll asks whether the window is open and ends its job, the
laser module reads the client's verdict at every gate and reports its window to it.

* **`State.read`** — the laser module with the verdict as the client answers it at some time.
* **`step`** — a poll of the client's, an entry into the laser module at some time, a change of the
  coolant.
* **`dated`** — the verdict cache keeps its date over the runs of the two.
-/

namespace Glowforge.Fire

open Glowforge.Cooling (Cool PollEnv Act)

structure State where
  laser : Laser.State
  cool : Cool
  -- the last reading of the clock
  clock : Nat

def State.init (now : Nat) (hwActive available : Bool) (offValue : Nat) : State where
  laser := Laser.State.init hwActive available offValue
  cool := Cool.init now
  clock := now

/-- The laser module, and what it reads of the client at the time `now`. -/
def readAt (now : Nat) (cool : Cool) (laser : Laser.State) : Laser.State :=
  { laser with
    verdictFresh := Cooling.verdictFresh now cool
    vFireOk := cool.vFireOk
    vArmed := cool.vArmed
    decelLit := cool.decelLit
    laserOnWindow := cool.laserOnWindow }

def State.read (now : Nat) (s : State) : Laser.State := readAt now s.cool s.laser

/-- `gfcool_laser_armed`, called by the laser module. -/
def reported (now : Nat) (laser : Laser.State) (cool : Cool) (armed : Bool) : Cool :=
  (Cooling.gfcoolLaserArmed now laser.core armed cool).1

/-- What the poll calls in the laser module. -/
def serve (a : Laser.Env) (now : Nat) (cool : Cool) (laser : Laser.State) : Act → Laser.State
  | .verdictFail _ => Laser.gflaserVerdictFail a laser
  | .resume _ => Laser.gflaserResumeGate a (readAt now cool laser)
  | _ => laser

inductive Label where
  | poll (e : PollEnv) (a : Laser.Env)
  -- an entry at the time `now`, and the windows that it reports to the client, in order
  | laser (now : Nat) (l : Laser.Label) (reports : List Bool)
  | coolant (now : Nat) (flood : Bool)

/-- The verdict and its fail tier are the client's, and come to the laser module from there. -/
def ownLabel : Laser.Label → Bool
  | .verdict _ _ _ _ | .verdictFail _ => false
  | _ => true

def step (atof : List Char → Cooling.Double) (s : State) : Label → Option State
  | .poll e a =>
    if (Cooling.Label.poll e).inOrder s.clock then
      let polled := Cooling.gfcoolPoll atof e s.laser.core s.laser.laserOk s.cool
      let laser := polled.2.foldl (serve a e.report polled.1) s.laser
      some ⟨laser, reported e.report laser polled.1 laser.laserOnWindow, e.report⟩
    else none
  | .laser now l reports =>
    if s.clock ≤ now ∧ ownLabel l = true then
      (Laser.step (s.read now) l).bind fun laser =>
        let cool := reports.foldl (reported now laser) s.cool
        if cool.laserOnWindow = laser.laserOnWindow then some ⟨laser, cool, now⟩ else none
    else none
  | .coolant now flood =>
    if s.clock ≤ now then
      some { s with cool := (Cooling.gfcoolCoolantSet now s.laser.core flood s.cool).1, clock := now }
    else none

/-! ## The steps

Each module sees the other through two or three calls. A step is one module's, with the other's
answers as its environment. -/

theorem step_poll {atof : List Char → Cooling.Double} {s t : State} {e : PollEnv} {a : Laser.Env}
    (hstep : step atof s (.poll e a) = some t) :
    (Cooling.Label.poll e).inOrder s.clock = true ∧ t.clock = e.report ∧
      t.cool = reported e.report t.laser (Cooling.gfcoolPoll atof e s.laser.core s.laser.laserOk s.cool).1
        t.laser.laserOnWindow := by
  simp only [step] at hstep
  split at hstep
  · next horder =>
    cases hstep
    exact ⟨horder, rfl, rfl⟩
  · cases hstep

/-- The laser module behind a poll: the client's calls, in order. -/
theorem step_poll_laser {atof : List Char → Cooling.Double} {s t : State} {e : PollEnv} {a : Laser.Env}
    (hstep : step atof s (.poll e a) = some t) :
    t.laser = (Cooling.gfcoolPoll atof e s.laser.core s.laser.laserOk s.cool).2.foldl
      (serve a e.report (Cooling.gfcoolPoll atof e s.laser.core s.laser.laserOk s.cool).1) s.laser := by
  simp only [step] at hstep
  split at hstep
  · cases hstep
    rfl
  · cases hstep

theorem step_laser {atof : List Char → Cooling.Double} {s t : State} {now : Nat} {l : Laser.Label} {reports : List Bool}
    (hstep : step atof s (.laser now l reports) = some t) :
    s.clock ≤ now ∧ ownLabel l = true ∧ t.clock = now ∧ Laser.step (s.read now) l = some t.laser ∧
      t.cool = reports.foldl (reported now t.laser) s.cool := by
  simp only [step] at hstep
  split at hstep
  · next hown =>
    obtain ⟨laser, hlaser, hstep⟩ := Option.bind_eq_some_iff.mp hstep
    split at hstep
    · cases hstep
      exact ⟨hown.1, hown.2, rfl, hlaser, rfl⟩
    · cases hstep
  · cases hstep

theorem step_coolant {atof : List Char → Cooling.Double} {s t : State} {now : Nat} {flood : Bool}
    (hstep : step atof s (.coolant now flood) = some t) :
    s.clock ≤ now ∧ t = { s with
      cool := (Cooling.gfcoolCoolantSet now s.laser.core flood s.cool).1, clock := now } := by
  simp only [step] at hstep
  split at hstep
  · next hle =>
    cases hstep
    exact ⟨hle, rfl⟩
  · cases hstep

/-! ## What a report leaves alone

The laser module reports its window to the client; the gates are not touched by it. -/

/-- What the gates go by, apart from the window. -/
structure Gates where
  flags : Cooling.HoldFlags
  cache : Cooling.Cache

def gates (c : Cool) : Gates := ⟨c.flags, c.cache⟩

theorem reported_gates (now : Nat) (laser : Laser.State) (cool : Cool) (armed : Bool) :
    gates (reported now laser cool armed) = gates cool := by
  unfold reported Cooling.gfcoolLaserArmed
  split <;> rfl

theorem reports_gates (now : Nat) (laser : Laser.State) (cool : Cool) (reports : List Bool) :
    gates (reports.foldl (reported now laser) cool) = gates cool := by
  induction reports generalizing cool with
  | nil => rfl
  | cons armed reports ih => exact (ih _).trans (reported_gates now laser cool armed)

theorem coolant_gates (now : Nat) (st : Laser.SysState) (flood : Bool) (cool : Cool) :
    gates (Cooling.gfcoolCoolantSet now st flood cool).1 = gates cool := by
  unfold Cooling.gfcoolCoolantSet
  dsimp only
  split <;> rfl

/-- The clock does not go back. -/
theorem step_clock {atof : List Char → Cooling.Double} {s t : State} {l : Label} (hstep : step atof s l = some t) :
    s.clock ≤ t.clock := by
  cases l with
  | poll e a =>
    obtain ⟨horder, hclock, -⟩ := step_poll hstep
    obtain ⟨h1, h2, h3, h4, h5, h6⟩ := Cooling.inOrder_poll horder
    omega
  | laser now l reports =>
    obtain ⟨hle, -, hclock, -⟩ := step_laser hstep
    omega
  | coolant now flood =>
    obtain ⟨hle, rfl⟩ := step_coolant hstep
    exact hle

/-! ## The date of the verdict

The cache's date is the client's own invariant, and the laser module's entries read the cache and
never write it. -/

/-- A read of the poll's, and the cache behind it. -/
theorem dated_poll {atof : List Char → Cooling.Double} {s t : State} {e : PollEnv} {a : Laser.Env}
    (h : Cooling.Dated s.cool s.clock) (hstep : step atof s (.poll e a) = some t) :
    Cooling.Dated (Cooling.pollRead atof e s.cool) e.second ∧
      t.cool.cache = (Cooling.pollRead atof e s.cool).cache := by
  obtain ⟨horder, -, hcool⟩ := step_poll hstep
  obtain ⟨h1, h2, h3, -⟩ := Cooling.inOrder_poll horder
  refine ⟨h.pollRead atof h1 h2 h3, ?_⟩
  have hreport := congrArg Gates.cache (reported_gates e.report t.laser
    (Cooling.gfcoolPoll atof e s.laser.core s.laser.laserOk s.cool).1 t.laser.laserOnWindow)
  rw [hcool]
  exact hreport.trans (Cooling.gfcoolPoll_cache atof e s.laser.core s.laser.laserOk s.cool)

theorem dated_step {atof : List Char → Cooling.Double} {s t : State} {l : Label} (h : Cooling.Dated s.cool s.clock)
    (hstep : step atof s l = some t) : Cooling.Dated t.cool t.clock := by
  have hclock := step_clock hstep
  cases l with
  | poll e a =>
    obtain ⟨horder, hreport, -⟩ := step_poll hstep
    obtain ⟨h1, h2, h3, h4, h5, h6⟩ := Cooling.inOrder_poll horder
    obtain ⟨hread, hcache⟩ := dated_poll h hstep
    exact (hread.mono (by omega)).of_cache hcache
  | laser now l reports =>
    obtain ⟨-, -, -, -, hcool⟩ := step_laser hstep
    refine (h.mono hclock).of_cache ?_
    rw [hcool]
    exact congrArg Gates.cache (reports_gates now t.laser s.cool reports)
  | coolant now flood =>
    obtain ⟨-, rfl⟩ := step_coolant hstep
    exact (h.mono hclock).of_cache (congrArg Gates.cache (coolant_gates now s.laser.core flood s.cool))

/-- **The verdict cache keeps its date** in every run of the two modules. The laser module reads the
cache and never writes it, so only the client's polls have to be looked at. -/
theorem dated {atof : List Char → Cooling.Double} {ok : State → Label → Prop} {uptime : Nat} {hwActive available : Bool}
    {offValue : Nat} {s : State}
    (hrun : Runs.Reach (step atof) ok (State.init uptime hwActive available offValue) s) :
    Cooling.Dated s.cool s.clock :=
  hrun.invariant (P := fun s => Cooling.Dated s.cool s.clock) (Cooling.dated_init uptime)
    fun _ _ _ h _ hstep => dated_step h hstep

end Glowforge.Fire
