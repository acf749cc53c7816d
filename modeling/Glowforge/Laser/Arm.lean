import Glowforge.Laser.Basic

/-!
# Glowforge — arming and disarming the laser

The functions of `glowforge_laser.c` that open and close the armed window, with what they call
of the stream engine (the latch writer, `laser_armed`, the fire gate) and of the cooling
client. A function that blocks in a pump is cut there: it leaves a `Frame` on the stack, and
`buttonPumped` and `ackPumped` are how it goes on when its pump returns.
-/

namespace Glowforge.Laser

/-! ## What the other modules keep

The calls that leave `glowforge_laser.c`: the latch writer and the gate of the stream engine, the
cooling client's report and answers, and the core's alarm and command queue. -/

/-- `gf_stream_laser_latch`: a lock that fails after its retries faults the stream, once per
episode. -/
def latchLock (lock : Bool) (e : Env) (s : State) : Bool × State :=
  let skips := !lock && !s.latchLockedByUs
  let took := !skips && e.latchOk
  let fails := lock && !e.latchOk
  (skips || e.latchOk,
    { s with
      latchLockedByUs := if took then lock else s.latchLockedByUs
      latchFailReported := if took then false else s.latchFailReported || fails
      faultFlag := s.faultFlag || (fails && !s.latchFailReported) })

def systemRaiseAlarm (s : State) : State :=
  { s with core := if s.core = .estop then .estop else .alarm, hooked := false }

def enqueue (c : Command) (s : State) : State := { s with sent := c :: s.sent }

/-- The report to the engine is left out. -/
def gfcoolLaserArmed (armed : Bool) (s : State) : State := { s with laserOnWindow := armed }

def gfcoolVerdictFireOk (s : State) : Bool := s.verdictFresh && s.vFireOk

/-- Inside the armed window the verdict must be one that the engine computed with it. -/
def gfcoolFireOk (s : State) : Bool :=
  gfcoolVerdictFireOk s && !(s.laserOnWindow && !s.vArmed)

def gfcoolRunAck (s : State) : Bool := s.verdictFresh && s.vArmed

def fireGatePublish (s : State) : State :=
  { s with fireGate := s.laserOk && (gfcoolVerdictFireOk s || s.decelLit) }

/-! ## The disarm

The window and both copies that the stream reads are cleared first, then the latch is locked and the
client is told. -/

/-- Closes the window, and locks the latch whenever this process unlocked it. -/
def gflaserDisarm (e : Env) (s : State) : State :=
  let was := s.laserOk
  let unlocked := !s.latchLockedByUs
  let s := { s with laserOk := false, laserArmed := false, fireGate := false }
  let s := if unlocked then (latchLock true e s).2 else s
  if !was && !unlocked then s
  else { gfcoolLaserArmed false s with disarmAt := 0, disarmRequest := false, disarmedAt := e.now }

/-! ## The spindle's level

What the core asks for while the spindle runs, and how a spindle change ends. -/

/-- `spindleUpdatePWM`: fire only inside the window and under a verdict that allows it. -/
def spindleUpdatePWM (pwm : Nat) (s : State) : State :=
  let fire := pwm != s.offValue && s.laserOk && gfcoolFireOk s
  let pwm := if pwm != s.offValue && !fire then s.offValue else pwm
  { s with pushedPower := if pwm > 127 then 127 else pwm, pushedFire := fire }

/-- The rest of `spindleSetState`, behind the arm. -/
def spindleFinish (on : Bool) (e : Env) (s : State) : State :=
  spindleUpdatePWM (if on then e.pwm else s.offValue) { s with spindleOn := on }

/-! ## The gates

The checks that stand ahead of a window, in the order in which they refuse. -/

/-- No head, no beam. -/
def headPresent (e : Env) (s : State) : Bool × State :=
  if !s.hwActive || e.head then (true, s) else (false, systemRaiseAlarm s)

def armGates (e : Env) (s : State) : Bool × State :=
  if !gfcoolFireOk s then (false, systemRaiseAlarm s)
  else
    let head := headPresent e s
    if !head.1 then head
    else if s.hwActive && !s.available then (false, systemRaiseAlarm s)
    else (true, s)

/-- An unlock that does not take refuses the arm. -/
def armUnlock (e : Env) (s : State) : Bool × State :=
  let write := latchLock false e s
  if write.1 then write else (false, systemRaiseAlarm (gfcoolLaserArmed false write.2))

/-- What every way out of an arm without the window does. -/
def armRefuse (e : Env) (s : State) : State := gfcoolLaserArmed false (latchLock true e s).2

/-! ## `arm_complete`

The second half of an arm, behind the press: it reports the window, waits for the acknowledgment,
and opens the window or gives up. The wait is a frame on the stack. -/

/-- The window opens. -/
def armOpen (since : UInt32) (s : State) : State :=
  fireGatePublish { s with
    disarmRequest := false, laserOk := true, disarmAt := 0
    armedClientGen := s.clientGeneration, laserArmed := true, windowSince := since }

/-- `arm_complete` behind the acknowledgment: the verdict and the head are checked again. -/
def armFinish (e : Env) (since : UInt32) (s : State) : Bool × State :=
  if !gfcoolFireOk s then (false, systemRaiseAlarm (armRefuse e s))
  else
    let head := headPresent e s
    if !head.1 then (false, armRefuse e head.2) else (true, armOpen since head.2)

def rearmEnd (armed : Bool) (e : Env) (s : State) : State :=
  let s := { s with rearmPending := false, arming := false }
  if armed then s else armRefuse e s

/-- Where `arm_complete` returns to. The callers of the resume gate issue the cycle start that
it does not take. -/
def armReturn (origin : Origin) (armed : Bool) (e : Env) (s : State) : State :=
  match origin with
  | .spindle => spindleFinish armed e s
  | .rearm =>
    let s := rearmEnd armed e s
    if s.laserOk then enqueue .cycleStart s else s
  | .gate => if armed then enqueue .cycleStart s else s

/-- `arm_complete` with the acknowledgment on file. -/
def armAcked (origin : Origin) (since : UInt32) (e : Env) (s : State) : State :=
  armReturn origin (armFinish e since s).1 e (armFinish e since s).2

/-- `arm_complete` up to its first pump. -/
def armComplete (origin : Origin) (since : UInt32) (e : Env) (s : State) : State :=
  if gfcoolRunAck s then armAcked origin since e s
  else { s with stack := .ack origin since (e.now + e.ackBudget) :: s.stack }

/-- `arm_complete` behind a pump. -/
def ackPumped (origin : Origin) (since : UInt32) (deadline : Nat) (e : Env) (s : State) : State :=
  if s.aborting then armReturn origin false e (armRefuse e s)
  else if e.now > deadline then armReturn origin false e (systemRaiseAlarm (armRefuse e s))
  else if gfcoolRunAck s then armAcked origin since e s
  else { s with stack := .ack origin since deadline :: s.stack }

/-! ## The button wait of `gflaser_arm`

The first half: a loop over the switches that counts a press once the button has been seen up, and
that pumps the core between two readings. -/

/-- The wait ends without consent. -/
def buttonAbort (e : Env) (s : State) : State :=
  spindleFinish false e (armRefuse e { s with arming := false })

/-- A press counts only after the button has been seen up. -/
def countsAs (released : Bool) (sw : ArmSwitch) : ArmSwitch :=
  if sw = .pressed && !released then .waiting else sw

/-- One turn of the wait up to its pump: the sender, the alarm, the switches. -/
def buttonTurn (senderGen : UInt32) (released : Bool) (unreadable deadline : Nat) (e : Env)
    (s : State) : State :=
  if s.clientGeneration ≠ senderGen then buttonAbort e (systemRaiseAlarm s)
  else if s.core.alarmed then buttonAbort e s
  else
    let sw := countsAs released (armSwitches e.raw)
    let released := released || armSwitches e.raw == .waiting
    let wait (unreadable : Nat) (lid : Bool) (s : State) : State :=
      { s with stack := .button senderGen released unreadable deadline lid :: s.stack }
    match sw with
    | .unreadable =>
      if unreadable + 1 ≥ 3 then buttonAbort e (systemRaiseAlarm s) else wait (unreadable + 1) false s
    | .pressed => armComplete .spindle senderGen e { s with arming := false }
    | .lidOpen | .interlockOpen => wait 0 true (enqueue .reset s)
    | .waiting => wait 0 false s

/-- **What a turn of the wait can do**: end it, wait on, or take the press. -/
theorem buttonTurn_cases (senderGen : UInt32) (released : Bool) (unreadable deadline : Nat) (e : Env)
    (s : State) :
    (∃ t, (t = s ∨ t = systemRaiseAlarm s) ∧
      buttonTurn senderGen released unreadable deadline e s = buttonAbort e t) ∨
    (∃ t n lid, (t = s ∨ t = enqueue .reset s) ∧ s.clientGeneration = senderGen ∧ s.core.alarmed = false ∧
      buttonTurn senderGen released unreadable deadline e s =
        { t with
          stack := .button senderGen (released || armSwitches e.raw == .waiting) n deadline lid :: s.stack }) ∨
    (s.clientGeneration = senderGen ∧ s.core.alarmed = false ∧
      countsAs released (armSwitches e.raw) = .pressed ∧
      buttonTurn senderGen released unreadable deadline e s =
        armComplete .spindle senderGen e { s with arming := false }) := by
  simp only [buttonTurn]
  split
  · exact .inl ⟨_, .inr rfl, rfl⟩
  · next hgen =>
    split
    · exact .inl ⟨_, .inl rfl, rfl⟩
    · next halarmed =>
      have hgen : s.clientGeneration = senderGen := by simpa using hgen
      have halarmed : s.core.alarmed = false := by simpa using halarmed
      split
      · split
        · exact .inl ⟨_, .inr rfl, rfl⟩
        · exact .inr (.inl ⟨_, _, _, .inl rfl, hgen, halarmed, rfl⟩)
      · next hsw => exact .inr (.inr ⟨hgen, halarmed, hsw, rfl⟩)
      · exact .inr (.inl ⟨_, _, _, .inr rfl, hgen, halarmed, rfl⟩)
      · exact .inr (.inl ⟨_, _, _, .inr rfl, hgen, halarmed, rfl⟩)
      · exact .inr (.inl ⟨_, _, _, .inl rfl, hgen, halarmed, rfl⟩)

/-- The wait behind a pump. -/
def buttonPumped (senderGen : UInt32) (released : Bool) (unreadable deadline : Nat) (lid : Bool)
    (e : Env) (s : State) : State :=
  if s.aborting then buttonAbort e s
  else if !lid && e.now > deadline then buttonAbort e (systemRaiseAlarm s)
  else buttonTurn senderGen released unreadable deadline e s

/-- The first laser-on of a job. -/
def gflaserArm (e : Env) (s : State) : State :=
  let gates := armGates e s
  if !gates.1 then spindleFinish false e gates.2
  else
    let unlock := armUnlock e (gfcoolLaserArmed true s)
    if !unlock.1 then spindleFinish false e unlock.2
    else if s.available then
      buttonTurn s.clientGeneration false 0 (e.now + e.buttonBudget) e { unlock.2 with arming := true }
    else armComplete .spindle s.clientGeneration e unlock.2

/-- `spindleSetState`: the arm question is whether the window is open. A dry run, and a
spindle restored inside a hold, stay dark. -/
def spindleSetState (on : Bool) (e : Env) (s : State) : State :=
  if on && !s.laserOk then
    if s.core = .checkMode then spindleFinish false e s
    else if s.core.held then spindleFinish false e s
    else gflaserArm e s
  else spindleFinish on e s

/-! ## The re-arm of a held job

The same press collected by the realtime hook, one reading a call, with what the loop keeps in
locals kept in the module's variables. -/

/-- The gate takes the request: the job is held, its window closed, its spindle on. -/
def gateTakes (s : State) : Bool := s.core.held && !s.rearmPending && !s.laserOk && s.modalOn

/-- The re-arm begins: the press is collected from the poll. -/
def rearmBegin (e : Env) (s : State) : State :=
  { s with
    rearmDeadline := e.now + e.buttonBudget, rearmPending := true, rearmReleased := false
    rearmClientGen := s.clientGeneration, rearmUnreadable := 0, arming := true }

/-- `gflaser_resume_gate`, with the cycle start that its callers issue where it takes nothing. -/
def gflaserResumeGate (e : Env) (s : State) : State :=
  if gateTakes s then
    let gates := armGates e s
    if !gates.1 then gates.2
    else
      let unlock := armUnlock e (gfcoolLaserArmed true s)
      if !unlock.1 then unlock.2
      else if s.available then rearmBegin e unlock.2
      else armComplete .gate s.clientGeneration e unlock.2
  else if s.core.held && s.rearmPending then s
  else enqueue .cycleStart s

/-- `rearm_poll`. -/
def rearmPoll (e : Env) (s : State) : State :=
  let s := { s with hooked := true }
  if !s.rearmPending then s
  else if !s.core.held then rearmEnd false e s
  else if s.clientGeneration ≠ s.rearmClientGen then rearmEnd false e s
  else
    match armSwitches e.raw with
    | .unreadable =>
      let s := { s with rearmUnreadable := s.rearmUnreadable + 1 }
      if s.rearmUnreadable ≥ 3 then systemRaiseAlarm (rearmEnd false e s) else s
    | .pressed =>
      let s := { s with rearmUnreadable := 0 }
      -- still the press that asked for the re-arm
      if !s.rearmReleased then s else armComplete .rearm s.rearmClientGen e s
    | .lidOpen | .interlockOpen => rearmEnd false e { s with rearmUnreadable := 0 }
    | .waiting =>
      let s := { s with rearmUnreadable := 0, rearmReleased := true }
      if e.now > s.rearmDeadline then rearmEnd false e s else s

/-- The re-arm takes its press at this reading. -/
def takesPress (e : Env) (s : State) : Bool :=
  s.rearmPending && s.core.held && s.clientGeneration == s.rearmClientGen &&
    armSwitches e.raw == .pressed && s.rearmReleased

/-- The re-arm ends without consent at this reading. -/
def rearmEnds (e : Env) (s : State) : Bool :=
  s.rearmPending && (!s.core.held || s.clientGeneration != s.rearmClientGen ||
    match armSwitches e.raw with
    | .unreadable => s.rearmUnreadable + 1 ≥ 3
    | .pressed => false
    | .lidOpen | .interlockOpen => true
    | .waiting => e.now > s.rearmDeadline)

theorem takesPress_iff {e : Env} {s : State} :
    takesPress e s = true ↔ s.rearmPending = true ∧ s.core.held = true ∧
      s.clientGeneration = s.rearmClientGen ∧ armSwitches e.raw = .pressed ∧ s.rearmReleased = true := by
  simp only [takesPress, Bool.and_eq_true, beq_iff_eq, and_assoc]

theorem rearmEnds_pending {e : Env} {s : State} (h : rearmEnds e s = true) : s.rearmPending = true :=
  (Bool.and_eq_true_iff.mp h).1

/-- **What a poll of the re-arm can do**: nothing, wait on, take the press, or end. -/
theorem rearmPoll_cases (e : Env) (s : State) :
    (s.rearmPending = false ∧ rearmPoll e s = { s with hooked := true }) ∨
    (s.rearmPending = true ∧ s.core.held = true ∧ takesPress e s = false ∧
      s.clientGeneration = s.rearmClientGen ∧ ∃ n, rearmPoll e s = { s with
        hooked := true, rearmUnreadable := n
        rearmReleased := s.rearmReleased || armSwitches e.raw == .waiting }) ∨
    (takesPress e s = true ∧ ∃ n, rearmPoll e s =
      armComplete .rearm s.rearmClientGen e { s with hooked := true, rearmUnreadable := n }) ∨
    (rearmEnds e s = true ∧ ∃ n r,
      rearmPoll e s = rearmEnd false e { s with hooked := true, rearmUnreadable := n, rearmReleased := r } ∨
      rearmPoll e s = systemRaiseAlarm (rearmEnd false e
        { s with hooked := true, rearmUnreadable := n, rearmReleased := r })) := by
  simp only [rearmPoll]
  split
  · next hnone => exact .inl ⟨by simpa using hnone, rfl⟩
  · next hpending =>
    have hp : s.rearmPending = true := by simpa using hpending
    right
    split
    · next hleft => exact .inr (.inr ⟨by simp [rearmEnds, hp, hleft], _, _, .inl rfl⟩)
    · next hheld =>
      have hh : s.core.held = true := by simpa using hheld
      split
      · next hgen => exact .inr (.inr ⟨by simp [rearmEnds, hp, hgen], _, _, .inl rfl⟩)
      · next hgen =>
        have hg : s.clientGeneration = s.rearmClientGen := by simpa using hgen
        split
        · next hsw =>
          split
          · next hcount => exact .inr (.inr ⟨by simp [rearmEnds, hp, hsw, hcount], _, _, .inr rfl⟩)
          · refine .inl ⟨hp, hh, by simp [takesPress, hsw], hg, s.rearmUnreadable + 1, ?_⟩
            rw [hsw, show (ArmSwitch.unreadable == .waiting) = false from rfl, Bool.or_false]
        · next hsw =>
          split
          · next hnot =>
            have hnot : s.rearmReleased = false := by simpa using hnot
            refine .inl ⟨hp, hh, by simp [takesPress, hnot], hg, 0, ?_⟩
            rw [hsw, show (ArmSwitch.pressed == .waiting) = false from rfl, Bool.or_false]
          · next hreleased =>
            have hr : s.rearmReleased = true := by simpa using hreleased
            exact .inr (.inl ⟨takesPress_iff.mpr ⟨hp, hh, hg, hsw, hr⟩, _, rfl⟩)
        · next hsw => exact .inr (.inr ⟨by simp [rearmEnds, hp, hsw], _, _, .inl rfl⟩)
        · next hsw => exact .inr (.inr ⟨by simp [rearmEnds, hp, hsw], _, _, .inl rfl⟩)
        · next hsw =>
          split
          · next hlate => exact .inr (.inr ⟨by simp [rearmEnds, hp, hsw, hlate], _, _, .inl rfl⟩)
          · refine .inl ⟨hp, hh, by simp [takesPress, hsw], hg, 0, ?_⟩
            rw [hsw, show (ArmSwitch.waiting == .waiting) = true from rfl, Bool.or_true]

/-! ## The verdict, the poll and the program's end

The entries that close a window without the operator: a verdict that fails, emission where none may
be, the grace's end, the end of the program. -/

/-- The fail tier: the window closes, the job is reset, and its alarm is owed. -/
def gflaserVerdictFail (e : Env) (s : State) : State :=
  if s.laserOk then { enqueue .reset (gflaserDisarm e s) with failAlarmPending := true } else s

/-- `gflaser_poll`: the alarm that a fail-tier reset from a standstill owes. -/
def failAlarm (e : Env) (s : State) : State :=
  if s.failAlarmPending then
    if s.core.alarmed then { s with failAlarmPending := false }
    else if s.core = .idle && !e.resetPending then systemRaiseAlarm { s with failAlarmPending := false }
    else s
  else s

/-- The emission witness is due, and senses light outside the window. -/
def emissionSensed (e : Env) (s : State) : Bool :=
  s.hwActive && e.now ≥ s.nextEmissionCheck &&
    (!s.laserOk && (s.disarmedAt == 0 || e.now - s.disarmedAt > 3000) && e.emitting)

/-- `gflaser_poll`: the emission witness, about once a second. -/
def emissionCheck (e : Env) (s : State) : State :=
  let s' := if s.hwActive && e.now ≥ s.nextEmissionCheck then { s with nextEmissionCheck := e.now + 1000 } else s
  if emissionSensed e s then systemRaiseAlarm (latchLock true e s').2 else s'

/-- `relock_ready`: an unreadable kernel is "still playing" for two seconds at most. -/
def relockReady (e : Env) (s : State) : Bool × State :=
  if !s.hwActive then (true, s)
  else
    match e.kernel with
    | none =>
      let since := if s.unreadableSince = 0 then e.now else s.unreadableSince
      if e.now - since < 2000 then (false, { s with unreadableSince := since })
      else (true, { s with unreadableSince := 0 })
    | some state => (state != .running, { s with unreadableSince := 0 })

theorem relockReady_frame (e : Env) (s : State) :
    ∃ since, (relockReady e s).2 = { s with unreadableSince := since } := by
  simp only [relockReady]
  split
  · exact ⟨_, rfl⟩
  · split
    · split_ifs <;> exact ⟨_, rfl⟩
    · exact ⟨_, rfl⟩

/-- The spindle-off grace of `gflaser_poll`. -/
def pollGrace (e : Env) (s : State) : State :=
  if s.spindleOn || s.core = .cycle then { s with disarmAt := 0 }
  else if s.disarmAt = 0 then { s with disarmAt := e.now + e.graceBudget }
  else if e.now ≥ s.disarmAt then
    let ready := relockReady e s
    if ready.1 then gflaserDisarm e ready.2 else { ready.2 with disarmAt := e.now + 500 }
  else s

/-- `gflaser_poll` behind the re-arm: what closes an open window. -/
def pollClose (e : Env) (s : State) : State :=
  if !s.laserOk then s
  else if s.core.alarmed || s.core = .homing then gflaserDisarm e s
  else if s.clientGeneration ≠ s.armedClientGen then
    gflaserDisarm e (if s.core = .cycle then enqueue .feedHold s else s)
  else if s.disarmRequest then
    let ready := relockReady e s
    if ready.1 then gflaserDisarm e ready.2 else pollGrace e ready.2
  else pollGrace e s

/-- `onProgramCompleted`. -/
def onProgramCompleted (checkMode : Bool) (s : State) : State :=
  if !checkMode && s.laserOk then { s with disarmRequest := true } else s

/-! ## The other ways in

What the stream engine and the driver's reset call of this module. -/

/-- The realtime hook takes a stream fault. -/
def streamFault (e : Env) (s : State) : State :=
  systemRaiseAlarm (gflaserDisarm e { s with faultFlag := false })

/-- `driverReset`, for a reset that is pending. The core leaves in `next`. -/
def driverReset (next : SysState) (e : Env) (s : State) : State :=
  { gflaserDisarm e s with core := next, aborting := true, hooked := false }

/-- `issue_run` undoes a lock that this process wrote inside a still-open window. -/
def relight (e : Env) (s : State) : State :=
  if s.laserArmed && s.fireGate && s.latchLockedByUs then (latchLock false e s).2 else s

end Glowforge.Laser
