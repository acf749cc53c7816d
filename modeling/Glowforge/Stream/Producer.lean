import Glowforge.Stream.Basic
import Mathlib.Logic.Function.Basic

/-!
# Glowforge — the producer side of the stream

The `hal.stepper` entry points and the laser's, as `stepper_stream.c` computes them under
`gf.lock`: a step event is mapped from virtual time onto the byte grid (`pulseLocked`), a
power or fire change is queued as a transition at the current virtual time
(`laserEventLocked`), a cycle begins and ends (`wakeupLocked`, `gfStreamGoIdle`). The density
model of the dose is here too, since the shipper and the arm share its state.

The lock-free test of `gf.failed` ahead of four of them is a step of its own
(`Glowforge.Stream.Machine`).
-/

namespace Glowforge.Stream

/-- The wall-clock due index: the ticks since shipping began, and the queue depth ahead. -/
def dueIndex (now : Nat) (g : Gf) : Nat := (now - g.shipT0) * g.rate / 1000000000 + g.depth

/-- The grid index of the current virtual time. -/
def virtualIndex (g : Gf) : Nat := g.base + g.vticks / vticksPerByte

/-! ## The dose model

The density model's parameters, and the dither that the shipper runs under it. -/

def ditherReset (g : Gf) : Gf := { g with dithLeft := 0, dithOn := 0, dithAcc := 0 }

/-- The start of a base period: the on-ticks that the level and the carried debt afford. -/
def ditherPeriod (g : Gf) : Gf :=
  let want := g.curPower.toUInt32 * g.dithPeriod + g.dithAcc
  let on := want / gfPwmPeriod.toUInt32
  if on < g.dithMin then
    { g with dithOn := 0, dithAcc := want, dithLeft := g.dithPeriod }
  else
    let on := if on > g.dithPeriod then g.dithPeriod else on
    { g with dithOn := on, dithAcc := want - on * gfPwmPeriod.toUInt32, dithLeft := g.dithPeriod }

/-- One tick of the density model: whether it fires (`dither_tick`). -/
def ditherTick (g : Gf) : Gf × Bool :=
  let g := if g.dithLeft = 0 then ditherPeriod g else g
  let g := { g with dithLeft := g.dithLeft - 1 }
  if g.dithOn ≠ 0 then ({ g with dithOn := g.dithOn - 1 }, true) else (g, false)

/-- Reference ticks as ticks of the stream, never below one (`ref_ticks_to_stream`). -/
def refTicksToStream (refTicks : UInt32) (g : Gf) : UInt32 :=
  let t := (refTicks.toNat * g.rate + gfTickX8Hz / 2) / gfTickX8Hz
  if t < 1 then 1 else UInt32.ofNat t

def gfStreamLaserModel (periodTicks minTicks : UInt32) (g : Gf) : Gf :=
  let periodTicks := if periodTicks > dithPeriodMax then dithPeriodMax else periodTicks
  let periodTicks := if periodTicks ≠ 0 then refTicksToStream periodTicks g else periodTicks
  let minTicks := if minTicks < 1 then 1 else minTicks
  let minTicks := if periodTicks ≠ 0 then refTicksToStream minTicks g else minTicks
  let minTicks := if minTicks > periodTicks then periodTicks else minTicks
  -- the two models keep different things in `curPower`: a switch leads dark
  let g := if (g.dithPeriod ≠ 0) ≠ (periodTicks ≠ 0) then { g with curPower := 0 } else g
  ditherReset { g with dithPeriod := periodTicks, dithMin := minTicks }

/-! ## Events behind the ship cursor -/

/-- A producer event behind the ship cursor (`clamp_locked`): counted, and inside an armed
window a fault, which stops the kernel. True when the caller must drop the event. -/
def clampLocked (s : State) : Bool × State :=
  let faults := s.laserArmed && !s.gf.failed
  (s.laserArmed,
    { s with
      gf := { s.gf with clamped := s.gf.clamped + 1, failed := s.gf.failed || s.laserArmed }
      faultFlag := s.faultFlag || faults
      kernel := if faults && s.gf.active then s.kernel.stop else s.kernel })

/-! ## Steps -/

/-- Puts a step byte at a grid index at or after the cursor, behind what is produced. -/
def pulsePlace (b : StepByte) (idx : Nat) (s : State) : State :=
  let idx := if idx < s.gf.produced then s.gf.produced else idx
  if idx - s.gf.shipped ≥ ringSize - 1 then
    { s with gf := { s.gf with failed := true }, faultFlag := true }
  else
    { s with gf := { s.gf with
        ring := Function.update s.gf.ring (slot idx) b
        produced := idx + 1 } }

/-- How close the event came to the ship cursor, before any correction. -/
def noteMargin (s : State) : State :=
  let margin : Int := virtualIndex s.gf - s.gf.shipped
  { s with gf := { s.gf with
      minMargin := if margin < s.gf.minMargin then margin else s.gf.minMargin } }

/-- A step at the current virtual time: one behind the cursor is pushed forward or dropped. -/
def pulseAt (b : StepByte) (s : State) : State :=
  if virtualIndex s.gf < s.gf.shipped then
    let late := clampLocked s
    if late.1 then late.2 else pulsePlace b s.gf.shipped late.2
  else pulsePlace b (virtualIndex s.gf) s

/-- The locked section of `gf_stream_pulse`. -/
def pulseLocked (b : StepByte) (s : State) : State :=
  if s.gf.streaming then pulseAt b (noteMargin s) else s

/-! ## Laser transitions

A change of the power or of fire, from virtual time to the queue. -/

/-- Records a transition in the queue: one per tick, and a full queue merges into its newest. -/
def levRecord (idx : Nat) (power : UInt8) (fire : Bool) (g : Gf) : Gf :=
  match g.lev.getLast? with
  | some e =>
    if e.idx = idx then { g with lev := g.lev.dropLast ++ [{ e with power := power, fire := fire }] }
    else if g.lev.length ≥ levN then
      { g with
        lev := g.lev.dropLast ++ [{ e with power := power, fire := fire }]
        levOverflowWarned := true }
    else { g with lev := g.lev ++ [⟨idx, power, fire⟩] }
  | none => { g with lev := [⟨idx, power, fire⟩] }

/-- Queues one transition at the current virtual time (`laser_event_locked`). -/
def laserEventLocked (power : UInt8) (fire : Bool) (s : State) : State :=
  if s.gf.streaming then
    if virtualIndex s.gf < s.gf.shipped then
      let late := clampLocked s
      if late.1 then late.2
      else { late.2 with gf := levRecord s.gf.shipped power fire late.2.gf }
    else { s with gf := levRecord (virtualIndex s.gf) power fire s.gf }
  else s

/-- The fire state the core's wish `fire` may be recorded with. -/
def mayFire (s : State) (fire : Bool) : Bool := fire && s.laserArmed && !s.gf.jogging

/-- The locked section of `gf_stream_laser`. -/
def laserLocked (power : UInt8) (fire : Bool) (s : State) : State :=
  laserEventLocked (power &&& 0x7f) (mayFire s fire)
    { s with gf := { s.gf with wantPower := power &&& 0x7f, wantFire := fire } }

/-- The locked section of `gf_stream_jog`. -/
def jogLocked (jog : Bool) (s : State) : State :=
  let s := { s with gf := { s.gf with jogging := jog } }
  laserEventLocked s.gf.wantPower (mayFire s s.gf.wantFire) s

/-! ## Cycles

The beginning of a cycle, which can continue a stream, and its end. -/

/-- A fresh stream: the index space restarts, one depth of pad slots is produced, and the
transitions of the old index space go. -/
def wakeupFresh (g : Gf) : Gf :=
  { g with shipped := 0, produced := g.depth, lev := [], curFire := false }

/-- A continuation while the kernel still drains: production resumes at the cursor's wall
position, and the slots it skips ship as dark pads. -/
def wakeupContinue (now : Nat) (g : Gf) : Gf :=
  if dueIndex now g > g.produced then { g with produced := dueIndex now g, curFire := false } else g

/-- Re-asserts the core's laser state at the first byte of the run. -/
def wakeupAssert (wantFire : Bool) (g : Gf) : Gf :=
  if g.wantPower ≠ g.curPower ∨ wantFire ≠ g.curFire then
    if g.lev.length < levN then { g with lev := g.lev ++ [⟨g.base, g.wantPower, wantFire⟩] } else g
  else g

/-- The virtual clock at the beginning of a stream. -/
def wakeupClock (now : Nat) (g : Gf) : Gf :=
  { g with streaming := true, vticks := 0, wallEpoch := now, holdPending := false }

/-- The index space at the beginning of a stream, and the base of its virtual time. -/
def wakeupIndex (now : Nat) (g : Gf) : Gf :=
  let g := if g.kernelRunning then wakeupContinue now g else wakeupFresh g
  { g with base := g.produced }

/-- The beginning of a stream in `gf_stream_wakeup`. -/
def wakeupStream (now : Nat) (s : State) : State :=
  { s with
    gf := wakeupAssert (mayFire s s.gf.wantFire) (wakeupIndex now (wakeupClock now s.gf))
    kernel := if s.gf.active then { s.kernel with live := true } else s.kernel }

/-- A new stream: no reset ended this one, and the producer is armed behind the section. -/
def wakeupMark (s : State) : State :=
  { s with gf := { s.gf with killed := false, killStep := 0 }, armed := true }

/-- The locked section of `gf_stream_wakeup`. -/
def wakeupLocked (now : Nat) (s : State) : State :=
  if s.gf.streaming then wakeupMark s else wakeupStream now (wakeupMark s)

/-- Under a reset the stream that ends here is the reset's, and a live one owes the step the
core counted and never output. -/
def goIdleMark (reset : Bool) (b : StepByte) (g : Gf) : Gf :=
  if reset && (g.streaming || !g.suspended) then
    { g with
      killStep := if g.streaming then b else if g.killed then g.killStep else 0
      killed := true }
  else g

/-- The cycle's laser-off, recorded where the cycle's last step ends. -/
def goIdleDark (g : Gf) : Gf :=
  if g.curFire ∨ g.lev ≠ [] then
    let idx := if g.produced > g.shipped then g.produced else g.shipped
    match g.lev.getLast? with
    | some t =>
      if t.idx ≥ idx ∨ g.lev.length ≥ levN then
        { g with lev := g.lev.dropLast ++ [{ t with fire := false }] }
      else { g with lev := g.lev ++ [⟨idx, t.power, false⟩] }
    | none => { g with lev := [⟨idx, g.curPower, false⟩] }
  else g

/-- The end of a live stream. -/
def goIdleEnd (g : Gf) : Gf := if g.streaming then { goIdleDark g with streaming := false } else g

def gfStreamGoIdle (reset : Bool) (stepBits dirBits : UInt8) (s : State) : State :=
  { s with gf := goIdleEnd (goIdleMark reset (pulseByte stepBits dirBits) s.gf), armed := false }

/-- The locked section of an entered call. `now` is its reading of the wall clock. -/
def Call.locked (now : Nat) : Call → State → State
  | .wakeup, s => wakeupLocked now s
  | .pulse stepBits dirBits, s => pulseLocked (pulseByte stepBits dirBits) s
  | .laser power fire, s => laserLocked power fire s
  | .jog on, s => jogLocked on s

/-- The test ahead of the lock: a failed stream takes no call, and a pulse with no step in it
is none. -/
def Call.enters (s : State) : Call → Bool
  | .pulse stepBits dirBits => !s.gf.failed && (pulseByte stepBits dirBits).val != 0
  | _ => !s.gf.failed

end Glowforge.Stream
