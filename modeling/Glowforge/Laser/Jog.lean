import Glowforge.Laser.Basic
import Glowforge.Stream.Frame

/-!
# Glowforge — the jog mask follows the core

The laser module keeps a copy of whether the core jogs, and hands a change of it to the stream, which
masks fire by a copy of its own. The stream takes no call while it has failed.

* **`Jogger`** — the stream, the core's state, the module's copy and the delivery under way.
* **`jogStep`** — a change of the core's state, the two steps of its `gf_stream_jog`, and every turn of
  the stream between them.
* **`dropped`** — the changes that came while the stream had failed: each is lost for good, and the next one
  that is lost with it sets the mask right again.
* **`acksEven`** — a fault is acknowledged behind an even number of them.
* **`jog_mask_follows`** — the mask is the core's state if and only if that number is even; under the
  condition it is, at every delivery and without a fault.

A fault under a jog is the odd case (`jog_mask_left_standing`).
-/

namespace Glowforge.Laser

/-! ## The machine

Between a change of the core's state and the locked section of its `gf_stream_jog` lies the test of
`gf.failed`, and the stream may fail and be reset anywhere around the two. -/

/-- Where the delivery of a change stands. -/
inductive Delivery where
  | none
  -- The module has changed its copy, and is at the stream's lock-free test.
  | test (jog : Bool)
  -- Behind the test.
  | entered (jog : Bool)
deriving DecidableEq

structure Jogger where
  stream : Stream.State
  core : SysState
  -- `jogging` of `glowforge_laser.c`.
  jogging : Bool
  delivery : Delivery

inductive JogLabel where
  -- The core enters a state, and `onStateChange` compares it with the copy.
  | state (st : SysState)
  -- `gf_stream_jog`: the test, and the section behind it.
  | test
  | locked (now : Nat)
  -- A turn of the stream, the faults and the resets included.
  | stream (l : Stream.Label)

/-- The turns that are not the delivery's own: the jog calls come from it alone, and it has the protocol
thread to itself. -/
def Jogger.admits (m : Jogger) : Stream.Label → Bool
  | .enter (.jog _) | .locked (.jog _) _ => false
  | .proto => m.delivery == .none
  | l => m.delivery == .none || !l.beginsCall

/-- `onStateChange`, up to the call. -/
def onStateChange (st : SysState) (m : Jogger) : Jogger :=
  let jog := st == .jog
  let m := { m with core := st }
  if jog != m.jogging then { m with jogging := jog, delivery := .test jog } else m

def jogStep (m : Jogger) : JogLabel → Option Jogger
  | .state st => if m.delivery = .none ∧ m.stream.proto = [] then some (onStateChange st m) else none
  | .test =>
    match m.delivery with
    | .test jog =>
      (Stream.step m.stream (.enter (.jog jog))).map fun t =>
        { m with stream := t, delivery := if Stream.Call.enters m.stream (.jog jog) then .entered jog else .none }
    | _ => none
  | .locked now =>
    match m.delivery with
    | .entered jog =>
      (Stream.step m.stream (.locked (.jog jog) now)).map fun t => { m with stream := t, delivery := .none }
    | _ => none
  | .stream l => if m.admits l then (Stream.step m.stream l).map fun t => { m with stream := t } else none

def Jogger.start (s : Stream.State) : Jogger where
  stream := s
  core := .idle
  jogging := false
  delivery := .none

/-! ## The condition

A jog is a change into its state and one out of it. What counts is which of them found the stream failed. -/

/-- The changes into or out of the jog state that `gf_stream_jog` was called for while the stream had
failed. -/
def dropped (m : Jogger) (l : JogLabel) (n : Nat) : Nat :=
  match l with
  | .test => n + m.stream.gf.failed.toNat
  | _ => n

/-- The turns that acknowledge a fault. -/
def acknowledges (s : Stream.State) : Stream.Label → Bool
  | .reset _ => true
  | .proto => s.proto.head? == some .resumeSwap
  | _ => false

/-- A fault is acknowledged with an even number of changes dropped: a jog that began and ended under faults,
or none. -/
def acksEven (m : Jogger) (n : Nat) : JogLabel → Bool
  | .stream l => !acknowledges m.stream l || !m.stream.gf.failed || n % 2 == 0
  | _ => true

/-! ## The invariant

The mask and the core's state differ exactly by the parity of what was dropped. -/

/-- The copy is the core's state; the mask is the copy, or its opposite with an odd number of changes dropped.
Behind the module's change and ahead of the stream's the mask is the copy of before. -/
structure JogInv (m : Jogger) (n : Nat) : Prop where
  copy : m.jogging = (m.core == .jog)
  mask : m.delivery = .none → m.stream.gf.jogging = (m.jogging == (n % 2 == 0))
  test : ∀ jog, m.delivery = .test jog → jog = m.jogging ∧ m.stream.gf.jogging = ((!jog) == (n % 2 == 0))
  entered : ∀ jog, m.delivery = .entered jog → jog = m.jogging ∧ n % 2 = 0
  clear : m.stream.gf.failed = false → n % 2 = 0

theorem even_succ (n : Nat) : ((n + 1) % 2 == 0) = !(n % 2 == 0) := by
  rcases Nat.mod_two_eq_zero_or_one n with heven | hodd
  · simp [Nat.succ_mod_two_eq_one_iff.mpr heven, heven]
  · simp [Nat.succ_mod_two_eq_zero_iff.mpr hodd, hodd]

open Glowforge.Stream (turn_failed)

theorem resetLocked_jogging (now : Nat) (g : Stream.Gf) :
    (Stream.resetLocked now g).jogging = g.jogging := by
  have hstream : ∀ killed (g : Stream.Gf), (Stream.resetStream now killed g).jogging = g.jogging := by
    intro killed g
    simp only [Stream.resetStream, Stream.resetReadback, Stream.resetRun]
    split_ifs <;> rfl
  have hended : (if Stream.resetEnds g then
      Stream.resetStream now g.killed { g with killed := false, readback := .none }
      else { g with killed := false, readback := .none }).jogging = g.jogging := by
    split
    · exact hstream _ _
    · rfl
  by_cases hf : g.failed = true
  · rw [Stream.resetLocked, if_pos hf]
    exact hended
  · rw [Stream.resetLocked, if_neg hf]
    exact hended

theorem laserEventLocked_jogging (power : UInt8) (fire : Bool) (u : Stream.State) :
    (Stream.laserEventLocked power fire u).gf.jogging = u.gf.jogging := by
  have hrec : ∀ idx (g : Stream.Gf), (Stream.levRecord idx power fire g).jogging = g.jogging := by
    intro idx g
    obtain ⟨lev, warned, hg⟩ := Stream.levRecord_frame idx power fire g
    rw [hg]
  simp only [Stream.laserEventLocked]
  split_ifs
  · rfl
  · exact hrec _ _
  · exact hrec _ _
  · rfl

theorem jogLocked_jogging (on : Bool) (s : Stream.State) : (Stream.jogLocked on s).gf.jogging = on :=
  laserEventLocked_jogging _ _ _

/-- **The mask is the delivery's alone.** No turn of the stream writes the flag but the locked
section of the delivery's own call; a reset and a failure leave it. -/
theorem turn_jogging {s t : Stream.State} {l : Stream.Label} (hturn : Stream.turn s l = some t)
    (hjog : ∀ on now, l ≠ .locked (.jog on) now) : t.gf.jogging = s.gf.jogging := by
  cases l with
  | ship e =>
    cases hturn
    exact congrArg (fun q => q.gf.jogging) (Stream.shipStep_quiet e s)
  | locked c now =>
    cases hturn
    cases c with
    | wakeup =>
      simp only [Stream.Call.locked, Stream.wakeupLocked]
      split
      · rfl
      · simp only [Stream.wakeupStream, Stream.wakeupAssert, Stream.wakeupIndex, Stream.wakeupContinue]
        split_ifs <;> rfl
    | pulse stepBits dirBits =>
      simp only [Stream.Call.locked, Stream.pulseLocked, Stream.pulseAt, Stream.pulsePlace]
      split_ifs <;> rfl
    | laser power fire => exact laserEventLocked_jogging _ _ _
    | jog on => exact absurd rfl (hjog on now)
  | goIdle reset stepBits dirBits =>
    cases hturn
    obtain ⟨killed, killStep, lev, streaming, hidle⟩ := Stream.goIdle_frame reset stepBits dirBits s
    rw [hidle]
  | laserModel p m =>
    cases hturn
    obtain ⟨power, period, least, hmodel⟩ := Stream.laserModel_frame p m s.gf
    rw [hmodel]
    rfl
  | reset now =>
    cases hturn
    exact resetLocked_jogging now s.gf
  | enter c =>
    cases hturn
    simp only [Stream.enter]
    split <;> rfl
  | readback expired =>
    cases hturn
    simp only [Stream.gfStreamReadback]
    split <;> rfl
  | clearPosition ok =>
    cases hturn
    simp only [Stream.gfStreamClearPosition]
    split_ifs <;> rfl
  | suspend readOk =>
    cases hturn
    simp only [Stream.gfStreamSuspend]
    split_ifs <;> rfl
  | resume latchOk emptied counted =>
    cases hturn
    simp only [Stream.gfStreamResume, Stream.rebaseAtTakeover]
    split_ifs <;> rfl
  | proto =>
    simp only [Stream.turn, Stream.protoStep] at hturn
    split at hturn <;> cases hturn <;> rfl
  | kernel a =>
    obtain ⟨k, -, rfl⟩ := Option.map_eq_some_iff.mp hturn
    rfl
  | _ =>
    cases hturn
    rfl

/-- A fault is gone only where it is acknowledged. -/
theorem turn_acknowledged {s t : Stream.State} {l : Stream.Label} (hturn : Stream.turn s l = some t)
    (hack : acknowledges s l = false) (h : t.gf.failed = false) : s.gf.failed = false := by
  cases hfailed : s.gf.failed with
  | false => rfl
  | true =>
    have hkept : t.gf.failed = true := by
      refine turn_failed hturn ?_ ?_ hfailed
      · rintro now rfl
        cases hack
      · rintro rfl hhead
        rw [acknowledges, hhead] at hack
        cases hack
    rw [hkept] at h
    cases h

/-! ## The run

Each label against the invariant: only a test that finds the stream failed drops a change, and only
an acknowledged fault leaves one behind. -/

theorem onStateChange_inv (st : SysState) {m : Jogger} {n : Nat} (h : JogInv m n) (hnone : m.delivery = .none) :
    JogInv (onStateChange st m) n := by
  have hmask := h.mask hnone
  simp only [onStateChange]
  split
  · next hchange =>
    -- the copy changes, so the mask is that of before
    have hbefore : m.jogging = !(st == .jog) := by
      rw [bne_iff_ne] at hchange
      exact Bool.eq_not.mpr hchange.symm
    constructor
    · rfl
    · rintro ⟨⟩
    · rintro jog ⟨⟩
      exact ⟨rfl, hmask.trans (by rw [hbefore])⟩
    · rintro jog ⟨⟩
    · exact h.clear
  · next hsame =>
    have hno {d : Delivery} {p : Prop} (hne : d ≠ .none) (hd : m.delivery = d) : p :=
      absurd (hd.symm.trans hnone) hne
    constructor
    · simp only [bne_iff_ne, ne_eq, not_not] at hsame
      exact hsame.symm
    · exact h.mask
    · exact fun jog hd => hno (by rintro ⟨⟩) hd
    · exact fun jog hd => hno (by rintro ⟨⟩) hd
    · exact h.clear

/-- No turn of the stream's own is a change; one that acknowledges a fault finds an even number dropped. -/
theorem stream_inv {m : Jogger} {n : Nat} {l : Stream.Label} {t : Stream.State} (h : JogInv m n)
    (hadmits : m.admits l = true) (hok : acksEven m n (.stream l) = true)
    (hstep : Stream.step m.stream l = some t) : JogInv { m with stream := t } n := by
  have hturn := (Stream.step_eq_some.mp hstep).2
  have hjogging : t.gf.jogging = m.stream.gf.jogging := by
    refine turn_jogging hturn ?_
    rintro on now rfl
    cases hadmits
  refine ⟨h.copy, fun hnone => hjogging.trans (h.mask hnone), fun jog htest => ?_, h.entered, fun hfailed => ?_⟩
  · exact ⟨(h.test jog htest).1, hjogging.trans (h.test jog htest).2⟩
  · simp only [acksEven, Bool.or_eq_true, Bool.not_eq_true', beq_iff_eq] at hok
    obtain (hack | hclear) | heven := hok
    · exact h.clear (turn_acknowledged hturn hack hfailed)
    · exact h.clear hclear
    · exact heven

/-- The delivery's test: a change that is dropped there is dropped for a fault. -/
theorem test_inv {m : Jogger} {n : Nat} {jog : Bool} (h : JogInv m n) (htest : m.delivery = .test jog) :
    JogInv { m with
      stream := Stream.enter (.jog jog) m.stream
      delivery := if Stream.Call.enters m.stream (.jog jog) then .entered jog else .none }
      (n + m.stream.gf.failed.toNat) := by
  obtain ⟨hjog, hmask⟩ := h.test jog htest
  cases hfailed : m.stream.gf.failed with
  | false =>
    have henters : Stream.Call.enters m.stream (.jog jog) = true := by simp [Stream.Call.enters, hfailed]
    rw [if_pos henters]
    refine ⟨h.copy, by rintro ⟨⟩, by rintro _ ⟨⟩, ?_, fun _ => h.clear hfailed⟩
    rintro on ⟨⟩
    exact ⟨hjog, h.clear hfailed⟩
  | true =>
    have hdrops : ¬Stream.Call.enters m.stream (.jog jog) = true := by simp [Stream.Call.enters, hfailed]
    rw [if_neg hdrops, Stream.enter, if_neg hdrops]
    refine ⟨h.copy, fun _ => ?_, by rintro _ ⟨⟩, by rintro _ ⟨⟩, fun hclear => ?_⟩
    · rw [Bool.toNat_true, even_succ]
      dsimp only
      rw [hmask, hjog]
      cases m.jogging <;> simp
    · exact absurd (hfailed.symm.trans hclear) (by decide)

theorem jogStep_inv {m m' : Jogger} {n : Nat} {l : JogLabel} (h : JogInv m n) (hok : acksEven m n l = true)
    (hstep : jogStep m l = some m') : JogInv m' (dropped m l n) := by
  cases l with
  | state st =>
    simp only [jogStep] at hstep
    split at hstep
    · next hidle =>
      cases hstep
      exact onStateChange_inv st h hidle.1
    · cases hstep
  | test =>
    simp only [jogStep] at hstep
    split at hstep
    · next jog htest =>
      obtain ⟨t, hturn, rfl⟩ := Option.map_eq_some_iff.mp hstep
      obtain rfl : t = Stream.enter (.jog jog) m.stream := by
        have hcall := (Stream.step_eq_some.mp hturn).2
        cases hcall
        rfl
      exact test_inv h htest
    · cases hstep
  | locked now =>
    simp only [jogStep] at hstep
    split at hstep
    · next jog hentered =>
      obtain ⟨t, hturn, rfl⟩ := Option.map_eq_some_iff.mp hstep
      obtain ⟨hjog, heven⟩ := h.entered jog hentered
      have hmask : t.gf.jogging = jog := by
        have hcall := (Stream.step_eq_some.mp hturn).2
        cases hcall
        exact jogLocked_jogging jog _
      refine ⟨h.copy, fun _ => ?_, by rintro _ ⟨⟩, by rintro _ ⟨⟩, fun _ => heven⟩
      simp [hmask, hjog, dropped, heven]
    · cases hstep
  | stream l =>
    simp only [jogStep] at hstep
    split at hstep
    · next hadmits =>
      obtain ⟨t, hturn, rfl⟩ := Option.map_eq_some_iff.mp hstep
      exact stream_inv h hadmits hok hturn
    · cases hstep

/-- **The jog mask follows the core.** In every run that acknowledges its faults with an even number of
changes dropped: behind every delivery the mask is the core's state if and only if that number is even, and
so it is whenever the stream has not failed. -/
theorem jog_mask_follows {c : Stream.Config} {k : Stream.Kernel} {emptied counted : Bool} {m : Jogger} {n : Nat}
    (hrun : Runs.Reach (Runs.observe jogStep dropped) (fun x l => acksEven x.1 x.2 l = true)
      (Jogger.start (Stream.State.init c k emptied counted), 0) (m, n))
    (hdelivered : m.delivery = .none) :
    (m.stream.gf.jogging = (m.core == .jog) ↔ n % 2 = 0) ∧
      (m.stream.gf.failed = false → m.stream.gf.jogging = (m.core == .jog)) := by
  have hinit : (Stream.State.init c k emptied counted).gf.jogging = false := by
    simp only [Stream.State.init, Stream.rebaseAtTakeover]
    split_ifs <;> rfl
  have hinv : JogInv m n := by
    refine hrun.invariant (P := fun x => JogInv x.1 x.2) ?_ ?_
    · exact ⟨rfl, fun _ => hinit, by rintro _ ⟨⟩, by rintro _ ⟨⟩, fun _ => rfl⟩
    · rintro ⟨m, n⟩ l ⟨m', n'⟩ h hok hstep
      obtain ⟨hs, rfl⟩ := Runs.observe_eq_some.mp hstep
      exact jogStep_inv h hok hs
  have hiff : m.stream.gf.jogging = (m.core == .jog) ↔ n % 2 = 0 := by
    rw [hinv.mask hdelivered, hinv.copy]
    cases m.core == .jog <;> simp
  exact ⟨hiff, fun hfailed => hiff.mpr (hinv.clear hfailed)⟩

/-- A latch write fails while the core is idle. A jog that begins and ends under that fault is dropped, the
reset acknowledges it, and the next jog is delivered. -/
def jogBehindFault : List JogLabel :=
  [.stream (.laserLatch true false), .stream .proto, .stream .proto, .stream .proto, .state .jog, .test,
    .state .alarm, .test, .stream (.reset 0), .stream .proto, .stream .proto, .stream .proto, .state .jog, .test,
    .locked 0]

theorem jog_mask_follows_delivered :
    ∃ m : Jogger, Runs.Reach (Runs.observe jogStep dropped) (fun x l => acksEven x.1 x.2 l = true)
        (Jogger.start (Stream.State.init (Stream.slowConfig true) Stream.idleKernel true true), 0) (m, 2) ∧
      (m.delivery = .none ∧ m.stream.gf.failed = false ∧ m.core = .jog) ∧
      m.stream.gf.jogging = (m.core == .jog) := by
  have hex : ∃ x : Jogger × Nat, Runs.Reach (Runs.observe jogStep dropped) (fun x l => acksEven x.1 x.2 l = true)
        (Jogger.start (Stream.State.init (Stream.slowConfig true) Stream.idleKernel true true), 0) x ∧
      (x.1.delivery = .none ∧ x.1.stream.gf.failed = false ∧ x.1.core = .jog ∧ x.2 = 2) :=
    Runs.exists_reach_of_exec jogBehindFault (by decide +kernel)
  obtain ⟨⟨m, n⟩, hrun, hdelivered, hfailed, hcore, rfl⟩ := hex
  exact ⟨m, hrun, ⟨hdelivered, hfailed, hcore⟩, (jog_mask_follows hrun hdelivered).2 hfailed⟩

/-- A jog whose mask is set, and a lock of the latch that fails under it: the alarm's change is dropped
at the test, and the reset that acknowledges the fault leaves the mask. -/
def faultUnderJog : List JogLabel :=
  [.state .jog, .test, .locked 0, .stream (.laserLatch true false), .stream .proto, .stream .proto,
    .stream .proto, .state .alarm, .test, .stream (.reset 0), .stream .proto, .stream .proto,
    .stream .proto, .state .idle]

/-- **The mask is left standing**: the core is idle, the fault acknowledged, and every later job dark. -/
theorem jog_mask_left_standing :
    ∃ m : Jogger, Runs.Reach jogStep (fun _ _ => True)
        (Jogger.start (Stream.State.init (Stream.slowConfig true) Stream.idleKernel true true)) m ∧
      m.delivery = .none ∧ m.stream.gf.failed = false ∧ ¬m.stream.gf.jogging = (m.core == .jog) :=
  Runs.exists_reach_of_exec faultUnderJog (by decide +kernel)

end Glowforge.Laser
