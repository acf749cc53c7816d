import Glowforge.Lib.Runs
import Glowforge.Stream.Basic

/-!
# Glowforge — a disarm against a relight

`gflaser_disarm` on the protocol thread and `issue_run` on the shipper, at the grain of single
flag accesses: `issue_run` holds `latch_mx` from the reads of its relight to its last look at
`laser_armed`, and the disarm takes it once to sample the record and once to lock. Every latch
write takes; the kernel answers as it likes.

* **`overtakes`** — the relight passes its last look at `laser_armed` between a sample that read
  "locked" and the disarm's clear of the flag.
* **`RelightInv`** — what the two calls keep.
* **`disarm_wins`** — the latch ends locked exactly when that has not happened.
-/

namespace Glowforge.Laser

open Glowforge.Stream (KernelState Kernel)

/-! ## The two calls

Every access of either call to a shared flag is a step, and the mutex is where the source has it. -/

inductive Thread where
  | protocol
  | shipper
deriving DecidableEq

/-- Where `issue_run` stands. -/
inductive RunPc where
  | enter
  -- the three reads of the relight, and its unlock
  | readArmed
  | readGate
  | readRecord
  | unlock
  | request (relight retried : Bool)
  | state (relight retried noData : Bool)
  -- an underrun, ahead of the read of `laser_armed`
  | underrun (relight retried : Bool)
  | acknowledge (relight : Bool)
  | fault (relight : Bool)
  | raise (relight : Bool)
  -- the last look at `laser_armed`
  | check (relight : Bool) (rc : Int)
  | relock (rc : Int)
  | leave (rc : Int)
  | returned (rc : Int)
deriving DecidableEq

/-- Where `gflaser_disarm` stands: `was` and `unlocked` are its locals. -/
inductive DisarmPc where
  | enter
  | enterSample (was : Bool)
  | sample (was : Bool)
  | leaveSample (was unlocked : Bool)
  | clearOk (was unlocked : Bool)
  | clearArmed (was unlocked : Bool)
  | clearGate (was unlocked : Bool)
  | enterLock
  | lock
  | leaveLock
  -- whether it went on to the LED, the cooling engine and the grace
  | returned (told : Bool)
deriving DecidableEq

structure Relight where
  laserOk : Bool
  laserArmed : Bool
  fireGate : Bool
  latchLockedByUs : Bool
  failed : Bool
  faultFlag : Bool
  homed : Bool
  -- the holder of `latch_mx`
  mx : Option Thread
  -- the last value written to `cnc/laser_latch`, and whether it was ever unlocked
  lastWrite : Option Bool
  everUnlocked : Bool
  run : RunPc
  disarm : DisarmPc
deriving DecidableEq

/-- Both calls begin, in an armed window with the gate open. The record follows the last write,
and starts locked. -/
def Relight.init (laserOk failed faultFlag homed : Bool) (lastWrite : Option Bool) : Relight where
  laserOk := laserOk
  laserArmed := true
  fireGate := true
  latchLockedByUs := lastWrite != some false
  failed := failed
  faultFlag := faultFlag
  homed := homed
  mx := none
  lastWrite := lastWrite
  everUnlocked := lastWrite == some false
  run := .enter
  disarm := .enter

/-- `latch_write_locked`, with `latch_mx` held, where the write takes. -/
def Relight.latchWriteLocked (lock : Bool) (s : Relight) : Relight :=
  if !lock && !s.latchLockedByUs then s
  else { s with
    latchLockedByUs := lock, lastWrite := some lock, everUnlocked := s.everUnlocked || !lock }

/-- What the kernel answers to a request and to a read of its state. -/
structure Answer where
  reply : Kernel.RunReply := .accepted
  state : Option KernelState := some .running
deriving DecidableEq

/-- One access of `issue_run`. -/
def runStep (a : Answer) (s : Relight) : Option Relight :=
  match s.run with
  | .enter => if s.mx = none then some { s with mx := some .shipper, run := .readArmed } else none
  | .readArmed => some { s with run := if s.laserArmed then .readGate else .request false false }
  | .readGate => some { s with run := if s.fireGate then .readRecord else .request false false }
  | .readRecord => some { s with run := if s.latchLockedByUs then .unlock else .request false false }
  | .unlock => some { s.latchWriteLocked false with run := .request true false }
  | .request relight retried =>
    some { s with run :=
        match a.reply with
        | .accepted => .check relight 1
        | .noData => .state relight retried true
        | .refused => .state relight retried false }
  | .state relight retried noData =>
    some { s with run :=
        match a.state with
        | some .underrun => .underrun relight retried
        | some .running => .check relight 0
        | some .idle => if noData then .check relight 2 else .fault relight
        | _ => .fault relight }
  | .underrun relight retried =>
    some { s with run := if !s.laserArmed && !retried then .acknowledge relight else .fault relight }
  | .acknowledge relight => some { s with homed := false, run := .request relight true }
  | .fault relight =>
    some { s with failed := true, run := if s.failed then .check relight (-1) else .raise relight }
  | .raise relight => some { s with faultFlag := true, run := .check relight (-1) }
  | .check relight rc =>
    some { s with run := if relight && !s.laserArmed then .relock rc else .leave rc }
  | .relock rc => some { s.latchWriteLocked true with run := .leave rc }
  | .leave rc => some { s with mx := none, run := .returned rc }
  | .returned _ => none

/-- One access of `gflaser_disarm`. -/
def disarmStep (s : Relight) : Option Relight :=
  match s.disarm with
  | .enter => some { s with disarm := .enterSample s.laserOk }
  | .enterSample was =>
    if s.mx = none then some { s with mx := some .protocol, disarm := .sample was } else none
  | .sample was => some { s with disarm := .leaveSample was (!s.latchLockedByUs) }
  | .leaveSample was unlocked => some { s with mx := none, disarm := .clearOk was unlocked }
  | .clearOk was unlocked => some { s with laserOk := false, disarm := .clearArmed was unlocked }
  | .clearArmed was unlocked => some { s with laserArmed := false, disarm := .clearGate was unlocked }
  | .clearGate was unlocked =>
    some { s with fireGate := false, disarm := if unlocked then .enterLock else .returned was }
  | .enterLock => if s.mx = none then some { s with mx := some .protocol, disarm := .lock } else none
  | .lock => some { s.latchWriteLocked true with disarm := .leaveLock }
  | .leaveLock => some { s with mx := none, disarm := .returned true }
  | .returned _ => none

inductive Access where
  | shipper (a : Answer)
  | protocol

def relightStep (s : Relight) : Access → Option Relight
  | .shipper a => runStep a s
  | .protocol => disarmStep s

/-! ## The overtaking relight

The one order in which both calls are right and the result is wrong. -/

/-- The disarm has sampled "locked", and `laser_armed` is still to be cleared. -/
def DisarmPc.trusting : DisarmPc → Bool
  | .leaveSample _ false | .clearOk _ false | .clearArmed _ false => true
  | _ => false

/-- The relight's last look at `laser_armed` comes between the disarm's sample of a locked record
and its clear of the flag. -/
def overtakes (s : Relight) : Access → Bool
  | .shipper _ =>
    match s.run with
    | .check true _ => s.disarm.trusting
    | _ => false
  | .protocol => false

def recordOvertakes (s : Relight) (l : Access) (overtook : Bool) : Bool := overtook || overtakes s l

/-! ## The invariant

What is known of the flags and of the latch at each point of either call. -/

/-- `latch_mx` is `issue_run`'s. -/
def RunPc.inside : RunPc → Bool
  | .enter | .returned _ => false
  | _ => true

/-- The relight has unlocked, and its last look is still to come. -/
def RunPc.relit : RunPc → Bool
  | .request relight _ | .state relight _ _ | .underrun relight _ | .acknowledge relight | .fault relight
  | .raise relight | .check relight _ => relight
  | .relock _ => true
  | _ => false

/-- Behind the last look. -/
def RunPc.over : RunPc → Bool
  | .leave _ | .returned _ => true
  | _ => false

def DisarmPc.inside : DisarmPc → Bool
  | .sample _ | .leaveSample _ _ | .lock | .leaveLock => true
  | _ => false

/-- `laser_armed` is still to be cleared. -/
def DisarmPc.armed : DisarmPc → Bool
  | .enter | .enterSample _ | .sample _ | .leaveSample _ _ | .clearOk _ _ | .clearArmed _ _ => true
  | _ => false

/-- The disarm has sampled, and writes no lock any more. -/
def DisarmPc.settled : DisarmPc → Bool
  | .leaveSample _ unlocked | .clearOk _ unlocked | .clearArmed _ unlocked | .clearGate _ unlocked =>
    !unlocked
  | .leaveLock | .returned _ => true
  | _ => false

theorem DisarmPc.trusting_eq (pc : DisarmPc) : pc.trusting = (pc.armed && pc.settled) := by
  cases pc with
  | leaveSample was unlocked => cases unlocked <;> rfl
  | clearOk was unlocked => cases unlocked <;> rfl
  | clearArmed was unlocked => cases unlocked <;> rfl
  | _ => rfl

structure RelightInv (s : Relight) (overtook : Bool) : Prop where
  shipper : s.run.inside = true → s.mx = some .shipper
  protocol : s.disarm.inside = true → s.mx = some .protocol
  armed : s.laserArmed = s.disarm.armed
  record : s.latchLockedByUs = (s.lastWrite != some false)
  written : s.everUnlocked = true → s.lastWrite ≠ none
  relit : s.run.relit = true → s.latchLockedByUs = false
  -- a disarm that writes no lock any more leaves the latch to a relight that still looks
  settled : overtook = false → s.disarm.settled = true → s.run.relit = true ∨ s.latchLockedByUs = true
  overtaken : overtook = true →
    s.latchLockedByUs = false ∧ s.run.over = true ∧ s.disarm.settled = true

namespace Relight

theorem latchWriteLocked_lock (s : Relight) :
    s.latchWriteLocked true = { s with latchLockedByUs := true, lastWrite := some true } := by
  simp [latchWriteLocked]

theorem latchWriteLocked_unlock {s : Relight} (hours : s.latchLockedByUs = true) :
    s.latchWriteLocked false =
      { s with latchLockedByUs := false, lastWrite := some false, everUnlocked := true } := by
  simp [latchWriteLocked, hours]

end Relight

namespace RelightInv

variable {s : Relight} {overtook : Bool}

theorem not_overtaken (h : RelightInv s overtook) (hearly : s.run.over = false) : overtook = false := by
  cases ho : overtook with
  | false => rfl
  | true =>
    rw [(h.overtaken ho).2.1] at hearly
    cases hearly

theorem not_settled (h : RelightInv s overtook) (hopen : s.disarm.settled = false) : overtook = false := by
  cases ho : overtook with
  | false => rfl
  | true =>
    rw [(h.overtaken ho).2.2] at hopen
    cases hopen

/-- `issue_run` goes on inside its section. -/
theorem goesOn (h : RelightInv s overtook) (hinside : s.run.inside = true) (hearly : s.run.over = false)
    {pc : RunPc} (hrelit : pc.relit = s.run.relit) (failed faultFlag homed : Bool) :
    RelightInv { s with failed := failed, faultFlag := faultFlag, homed := homed, run := pc } overtook := by
  have hnot := h.not_overtaken hearly
  refine ⟨fun _ => h.shipper hinside, h.protocol, h.armed, h.record, h.written, ?_, ?_, ?_⟩
  · rw [show RunPc.relit _ = s.run.relit from hrelit]
    exact h.relit
  · intro _ hsettled
    rw [show RunPc.relit _ = s.run.relit from hrelit]
    exact h.settled hnot hsettled
  · rw [hnot]
    rintro ⟨⟩

/-- The disarm goes on, and leaves the latch and `laser_armed` alone. -/
theorem disarms (h : RelightInv s overtook) {pc : DisarmPc} (hinside : pc.inside = s.disarm.inside)
    (harmed : pc.armed = s.disarm.armed) (hsettled : pc.settled = s.disarm.settled) (laserOk fireGate : Bool) :
    RelightInv { s with laserOk := laserOk, fireGate := fireGate, disarm := pc } overtook := by
  refine ⟨h.shipper, ?_, h.armed.trans harmed.symm, h.record, h.written, h.relit, ?_, ?_⟩
  · rw [show DisarmPc.inside _ = s.disarm.inside from hinside]
    exact h.protocol
  · rw [show DisarmPc.settled _ = s.disarm.settled from hsettled]
    exact h.settled
  · rw [show DisarmPc.settled _ = s.disarm.settled from hsettled]
    exact h.overtaken

/-- The disarm takes `latch_mx`. -/
theorem enters (h : RelightInv s overtook) (hfree : s.mx = none) {pc : DisarmPc}
    (harmed : pc.armed = s.disarm.armed) (hbefore : s.disarm.settled = false) (hafter : pc.settled = false) :
    RelightInv { s with mx := some .protocol, disarm := pc } overtook := by
  refine ⟨?_, fun _ => rfl, h.armed.trans harmed.symm, h.record, h.written, h.relit, ?_, ?_⟩
  · intro hinside
    rw [h.shipper hinside] at hfree
    cases hfree
  · rw [show DisarmPc.settled _ = false from hafter]
    rintro _ ⟨⟩
  · rw [h.not_settled hbefore]
    rintro ⟨⟩

/-- The disarm releases `latch_mx`. -/
theorem leaves (h : RelightInv s overtook) (hinside : s.disarm.inside = true) {pc : DisarmPc}
    (houtside : pc.inside = false) (harmed : pc.armed = s.disarm.armed)
    (hsettled : pc.settled = s.disarm.settled) :
    RelightInv { s with mx := none, disarm := pc } overtook := by
  refine ⟨?_, ?_, h.armed.trans harmed.symm, h.record, h.written, h.relit, ?_, ?_⟩
  · intro hrun
    have hboth := (h.protocol hinside).symm.trans (h.shipper hrun)
    cases hboth
  · rw [show DisarmPc.inside _ = false from houtside]
    rintro ⟨⟩
  · rw [show DisarmPc.settled _ = s.disarm.settled from hsettled]
    exact h.settled
  · rw [show DisarmPc.settled _ = s.disarm.settled from hsettled]
    exact h.overtaken

/-- The unlock of the relight. -/
theorem unlocks (h : RelightInv s overtook) (hpc : s.run = .unlock) :
    RelightInv { s.latchWriteLocked false with run := .request true false } overtook := by
  have hmx := h.shipper (by rw [hpc]; rfl)
  have hnot := h.not_overtaken (by rw [hpc]; rfl)
  cases hours : s.latchLockedByUs with
  | true =>
    rw [Relight.latchWriteLocked_unlock hours]
    refine ⟨fun _ => hmx, h.protocol, h.armed, rfl, by rintro _ ⟨⟩, fun _ => rfl,
        fun _ _ => .inl rfl, ?_⟩
    rw [hnot]
    rintro ⟨⟩
  | false =>
    have hskip : s.latchWriteLocked false = s := by simp [Relight.latchWriteLocked, hours]
    rw [hskip]
    refine ⟨fun _ => hmx, h.protocol, h.armed, h.record, h.written, fun _ => hours, fun _ _ => .inl rfl, ?_⟩
    rw [hnot]
    rintro ⟨⟩

/-- The last look of a relight: a disarm that has not cleared the flag has either sampled
nothing yet, or samples and trusts a lock that is gone. -/
theorem looks (h : RelightInv s overtook) {rc : Int} (hpc : s.run = .check true rc)
    (harmed : s.laserArmed = true) :
    RelightInv { s with run := .leave rc } (overtook || s.disarm.trusting) := by
  have hmx := h.shipper (by rw [hpc]; rfl)
  have hnot := h.not_overtaken (by rw [hpc]; rfl)
  have hopen := h.relit (by rw [hpc]; rfl)
  have htrusts : s.disarm.trusting = s.disarm.settled := by
    rw [DisarmPc.trusting_eq, ← h.armed, harmed, Bool.true_and]
  rw [hnot, Bool.false_or, htrusts]
  refine ⟨fun _ => hmx, h.protocol, h.armed, h.record, h.written, by rintro ⟨⟩, ?_,
      fun hsettled => ⟨hopen, rfl, hsettled⟩⟩
  intro hno hsettled
  rw [hno] at hsettled
  cases hsettled

/-- A lock that is written, by either call. -/
theorem locks (h : RelightInv s overtook) (hnot : overtook = false) {run : RunPc} {disarm : DisarmPc}
    (hshipper : run.inside = true → s.mx = some .shipper)
    (hprotocol : disarm.inside = true → s.mx = some .protocol) (harmed : disarm.armed = s.disarm.armed)
    (hrelit : run.relit = false) :
    RelightInv { s.latchWriteLocked true with run := run, disarm := disarm } overtook := by
  rw [Relight.latchWriteLocked_lock]
  refine ⟨hshipper, hprotocol, h.armed.trans harmed.symm, rfl, by rintro _ ⟨⟩, ?_,
      fun _ _ => .inr rfl, ?_⟩
  · rw [show RunPc.relit _ = false from hrelit]
    rintro ⟨⟩
  · rw [hnot]
    rintro ⟨⟩

end RelightInv

theorem runStep_inv {s t : Relight} {overtook : Bool} {a : Answer} (h : RelightInv s overtook)
    (hstep : runStep a s = some t) :
    RelightInv t (overtook || overtakes s (.shipper a)) := by
  cases hpc : s.run with (simp only [runStep, hpc] at hstep; simp only [overtakes, hpc, Bool.or_false])
  | enter =>
    split at hstep
    · next hfree =>
      cases hstep
      refine ⟨fun _ => rfl, ?_, h.armed, h.record, h.written, by rintro ⟨⟩, ?_, ?_⟩
      · intro hinside
        rw [h.protocol hinside] at hfree
        cases hfree
      · intro hno hsettled
        have hkept := h.settled hno hsettled
        rw [hpc] at hkept
        exact hkept
      · intro ho
        have hover := (h.overtaken ho).2.1
        rw [hpc] at hover
        cases hover
    · cases hstep
  | unlock =>
    cases hstep
    exact h.unlocks hpc
  | check relight rc =>
    cases relight with
    | false =>
      cases hstep
      simp only [Bool.or_false]
      exact h.goesOn (by rw [hpc]; rfl) (by rw [hpc]; rfl) (by rw [hpc]; rfl) _ _ _
    | true =>
      obtain rfl := Option.some.inj hstep
      show RelightInv _ (overtook || s.disarm.trusting)
      by_cases harmed : s.laserArmed = true
      · rw [if_neg (by simp [harmed])]
        exact h.looks hpc harmed
      · have hclear : s.disarm.armed = false := h.armed.symm.trans (by simpa using harmed)
        rw [if_pos (by simp [harmed]), DisarmPc.trusting_eq, hclear, Bool.false_and, Bool.or_false]
        exact h.goesOn (by rw [hpc]; rfl) (by rw [hpc]; rfl) (by rw [hpc]; rfl) _ _ _
  | relock rc =>
    cases hstep
    exact h.locks (h.not_overtaken (by rw [hpc]; rfl)) (fun _ => h.shipper (by rw [hpc]; rfl))
      h.protocol rfl rfl
  | leave rc =>
    cases hstep
    have hmx := h.shipper (by rw [hpc]; rfl)
    refine ⟨by rintro ⟨⟩, ?_, h.armed, h.record, h.written, by rintro ⟨⟩, ?_, ?_⟩
    · intro hinside
      rw [h.protocol hinside] at hmx
      cases hmx
    · intro hno hsettled
      have hkept := h.settled hno hsettled
      rw [hpc] at hkept
      exact hkept
    · intro ho
      obtain ⟨hopen, -, hsettled⟩ := h.overtaken ho
      exact ⟨hopen, rfl, hsettled⟩
  | returned rc => cases hstep
  | _ =>
    -- the section goes on, and relights no more and no less than before
    cases hstep
    refine h.goesOn (by rw [hpc]; rfl) (by rw [hpc]; rfl) ?_ _ _ _
    rw [hpc]
    first
    | rfl
    | (split <;> rfl)
    | (split <;> first | rfl | (split <;> rfl))

theorem disarmStep_inv {s t : Relight} {overtook : Bool} (h : RelightInv s overtook)
    (hstep : disarmStep s = some t) : RelightInv t overtook := by
  cases hpc : s.disarm with simp only [disarmStep, hpc] at hstep
  | enter =>
    cases hstep
    exact h.disarms (by rw [hpc]; rfl) (by rw [hpc]; rfl) (by rw [hpc]; rfl) _ _
  | enterSample was =>
    split at hstep
    · next hfree =>
      cases hstep
      exact h.enters hfree (by rw [hpc]; rfl) (by rw [hpc]; rfl) rfl
    · cases hstep
  | sample was =>
    cases hstep
    have hnot := h.not_settled (by rw [hpc]; rfl)
    refine ⟨h.shipper, fun _ => h.protocol (by rw [hpc]; rfl), ?_, h.record, h.written, h.relit, ?_, ?_⟩
    · rw [h.armed, hpc]
      rfl
    · intro _ hsettled
      exact .inr (by simpa [DisarmPc.settled] using hsettled)
    · rw [hnot]
      rintro ⟨⟩
  | leaveSample was unlocked =>
    cases hstep
    exact h.leaves (by rw [hpc]; rfl) rfl (by rw [hpc]; rfl) (by rw [hpc]; rfl)
  | clearOk was unlocked =>
    cases hstep
    exact h.disarms (by rw [hpc]; rfl) (by rw [hpc]; rfl) (by rw [hpc]; rfl) _ _
  | clearArmed was unlocked =>
    cases hstep
    have hsame : (DisarmPc.clearGate was unlocked).settled = s.disarm.settled := by rw [hpc]; rfl
    refine ⟨h.shipper, by rintro ⟨⟩, rfl, h.record, h.written, h.relit, ?_, ?_⟩
    · rw [show DisarmPc.settled _ = s.disarm.settled from hsame]
      exact h.settled
    · rw [show DisarmPc.settled _ = s.disarm.settled from hsame]
      exact h.overtaken
  | clearGate was unlocked =>
    cases hstep
    refine h.disarms ?_ ?_ ?_ _ _ <;> (rw [hpc]; cases unlocked <;> rfl)
  | enterLock =>
    split at hstep
    · next hfree =>
      cases hstep
      exact h.enters hfree (by rw [hpc]; rfl) (by rw [hpc]; rfl) rfl
    · cases hstep
  | lock =>
    cases hstep
    have hmx := h.protocol (by rw [hpc]; rfl)
    have hnot := h.not_settled (by rw [hpc]; rfl)
    have houtside : s.run.inside = false := by
      cases hinside : s.run.inside with
      | false => rfl
      | true =>
        rw [h.shipper hinside] at hmx
        cases hmx
    have hdark : s.run.relit = false := by
      cases hr : s.run with (rw [hr] at houtside)
      | enter => rfl
      | returned rc => rfl
      | _ => cases houtside
    exact h.locks hnot h.shipper (fun _ => hmx) (by rw [hpc]; rfl) hdark
  | leaveLock =>
    cases hstep
    exact h.leaves (by rw [hpc]; rfl) rfl (by rw [hpc]; rfl) (by rw [hpc]; rfl)
  | returned told => cases hstep

theorem init_relight (laserOk failed faultFlag homed : Bool) (lastWrite : Option Bool) :
    RelightInv (.init laserOk failed faultFlag homed lastWrite) false := by
  refine ⟨by rintro ⟨⟩, by rintro ⟨⟩, rfl, rfl, ?_, by rintro ⟨⟩, by rintro _ ⟨⟩, by rintro ⟨⟩⟩
  intro hever hnone
  rw [show lastWrite = none from hnone] at hever
  cases hever

/-! ## The disarm

The end of both calls: the latch is locked unless the relight has overtaken the disarm. -/

/-- **A disarm wins against a concurrent relight**, exactly when it is not overtaken. Behind both
calls the record says locked, and the last value written to a latch that was ever unlocked is the
lock, if and only if the relight has not passed its last look at `laser_armed` between the
disarm's sample of a locked record and its clear of the flag. -/
theorem disarm_wins {laserOk failed faultFlag homed : Bool} {lastWrite : Option Bool} {s : Relight}
    {overtook told : Bool} {rc : Int}
    (hreach : Runs.Reach (Runs.observe relightStep recordOvertakes) (fun _ _ => True)
      (.init laserOk failed faultFlag homed lastWrite, false) (s, overtook))
    (hrun : s.run = .returned rc) (hdisarm : s.disarm = .returned told) :
    (s.latchLockedByUs = true ∧ (s.everUnlocked = true → s.lastWrite = some true)) ↔ overtook = false := by
  have hinv : RelightInv s overtook := by
    refine Runs.Reach.invariant_observe (fun _ _ => True) hreach
      (init_relight laserOk failed faultFlag homed lastWrite) ?_
    intro s overtook l t h _ hstep
    cases l with
    | shipper a => exact runStep_inv h hstep
    | protocol =>
      rw [show recordOvertakes s .protocol overtook = overtook from Bool.or_false _]
      exact disarmStep_inv h hstep
  constructor
  · intro hlocked
    cases ho : overtook with
    | false => rfl
    | true =>
      rw [(hinv.overtaken ho).1] at hlocked
      cases hlocked.1
  · intro hno
    have hlocked : s.latchLockedByUs = true := by
      rcases hinv.settled hno (by rw [hdisarm]; rfl) with hrelit | hlocked
      · rw [hrun] at hrelit
        cases hrelit
      · exact hlocked
    refine ⟨hlocked, fun hever => ?_⟩
    have hrecord := hinv.record.symm.trans hlocked
    cases hlast : s.lastWrite with
    | none => exact absurd hlast (hinv.written hever)
    | some lock =>
      rw [hlast] at hrecord
      cases lock with
      | true => rfl
      | false => cases hrecord

/-- The theorem where the flag is cleared under the relight, which locks again. -/
theorem disarm_wins_relocked :
    ∃ s : Relight, s.everUnlocked = true ∧ s.latchLockedByUs = true ∧ s.lastWrite = some true := by
  have hex : ∃ x : Relight × Bool, Runs.Reach (Runs.observe relightStep recordOvertakes) (fun _ _ => True)
        (.init true false false true none, false) x ∧
      (x.1.run = .returned 1 ∧ x.1.disarm = .returned true ∧ x.2 = false ∧ x.1.everUnlocked = true) :=
    Runs.exists_reach_of_exec
      (List.replicate 4 Access.protocol ++ List.replicate 5 (Access.shipper {}) ++
        List.replicate 3 Access.protocol ++ List.replicate 4 (Access.shipper {})) (by decide +kernel)
  obtain ⟨⟨s, overtook⟩, hreach, hrun, hdisarm, hno, hever⟩ := hex
  obtain ⟨hlocked, hlast⟩ := (disarm_wins hreach hrun hdisarm).mpr hno
  exact ⟨s, hever, hlocked, hlast hever⟩

/-- **A relight can win.** The disarm samples a locked record; the whole relight then passes, with
`laser_armed` still set; the disarm clears the flag and returns with the latch open. -/
theorem relight_wins :
    ∃ s : Relight, Runs.Reach relightStep (fun _ _ => True) (.init true false false true none) s ∧
      (s.run = .returned 1 ∧ s.disarm = .returned true ∧ s.latchLockedByUs = false ∧
        s.everUnlocked = true ∧ s.lastWrite = some false) :=
  Runs.exists_reach_of_exec
    (List.replicate 4 Access.protocol ++ List.replicate 8 (Access.shipper {}) ++
      List.replicate 3 Access.protocol)
    (by decide +kernel)

end Glowforge.Laser
