import Glowforge.Stream.Frame

/-!
# Glowforge — the events that fail a stream

A producer event fails the stream in two ways: it comes behind the ship cursor inside an armed
window (`clamp_locked`), or its step goes beyond the ring (`gf_stream_pulse`). Both are told
from the state in which the call takes the lock:

* **`State.clamps`, `State.overflows`** — when an event does.
* **`locked_faults`** — what an entered call leaves of `gf.failed` and `fault_flag`.
-/

namespace Glowforge.Stream

/-! ## The two ways

Decided from the state in which the call takes the lock. -/

/-- An event behind the ship cursor inside an armed window. -/
def State.clamps (s : State) : Bool :=
  s.gf.streaming && decide (virtualIndex s.gf < s.gf.shipped) && s.laserArmed

/-- The step event of a `gf_stream_pulse` goes beyond the ring. -/
def State.overflows (s : State) : Bool :=
  let late := virtualIndex s.gf < s.gf.shipped
  let idx := max (max (virtualIndex s.gf) s.gf.shipped) s.gf.produced
  s.gf.streaming && !(late && s.laserArmed) && decide (idx - s.gf.shipped ≥ ringSize - 1)

/-- A call that steps beyond the ring. -/
def Call.overflows (s : State) : Call → Bool
  | .pulse _ _ => s.overflows
  | _ => false

/-- A call that meets an event behind the cursor inside an armed window. -/
def Call.clamps (s : State) : Call → Bool
  | .wakeup => false
  | _ => s.clamps

/-! ## The calls

What each call leaves of the failure and of its flag. -/

/-- Where a call's locked section fails the stream: it raises the flag for a late event only
when the stream had not failed, and for a step beyond the ring in any case. -/
structure Faults (s t : State) (clamps overflows : Bool) : Prop where
  failed : t.gf.failed = (s.gf.failed || clamps || overflows)
  flag : t.faultFlag = (s.faultFlag || (clamps && !s.gf.failed) || overflows)

theorem laserEventLocked_faults (power : UInt8) (fire : Bool) (s : State) :
    Faults s (laserEventLocked power fire s) s.clamps false := by
  have hrec : ∀ (idx : Nat) (g : Gf), (levRecord idx power fire g).failed = g.failed := fun idx g =>
    levRecord_failed idx power fire g
  unfold laserEventLocked State.clamps
  cases hs : s.gf.streaming with
  | false => exact ⟨by simp, by simp⟩
  | true =>
    by_cases hlate : virtualIndex s.gf < s.gf.shipped
    · cases ha : s.laserArmed with
      | false => constructor <;> simp [hlate, clampLocked, ha, hrec]
      | true => constructor <;> simp [hlate, clampLocked, ha]
    · constructor <;> simp [hlate, hrec]

theorem pulsePlace_faults (b : StepByte) (idx : Nat) (s : State) :
    Faults s (pulsePlace b idx s) false
      (decide (max idx s.gf.produced - s.gf.shipped ≥ ringSize - 1)) := by
  have hmax : (if idx < s.gf.produced then s.gf.produced else idx) = max idx s.gf.produced := by
    split <;> omega
  unfold pulsePlace
  dsimp only
  rw [hmax]
  split
  · next hover => constructor <;> simp [hover]
  · next hover => constructor <;> simp [hover]

theorem pulseAt_faults (b : StepByte) (s : State) (hs : s.gf.streaming = true) :
    Faults s (pulseAt b s) s.clamps s.overflows := by
  unfold pulseAt State.clamps State.overflows
  simp only [hs, Bool.true_and]
  by_cases hlate : virtualIndex s.gf < s.gf.shipped
  · have hidx : max (virtualIndex s.gf) s.gf.shipped = s.gf.shipped := by omega
    simp only [hlate, if_true, decide_true, Bool.true_and, hidx]
    cases ha : s.laserArmed with
    | true => constructor <;> simp [clampLocked, ha]
    | false =>
      have hplace := pulsePlace_faults b s.gf.shipped (clampLocked s).2
      have hpass : (clampLocked s).1 = false := ha
      rw [hpass]
      constructor
      · have h := hplace.failed
        simpa [clampLocked, ha] using h
      · have h := hplace.flag
        simpa [clampLocked, ha] using h
  · have hidx : max (virtualIndex s.gf) s.gf.shipped = virtualIndex s.gf := by omega
    simp only [hlate, if_false, decide_false, Bool.false_and, Bool.not_false, Bool.true_and, hidx]
    exact pulsePlace_faults b (virtualIndex s.gf) s

theorem pulseLocked_faults (b : StepByte) (s : State) :
    Faults s (pulseLocked b s) s.clamps s.overflows := by
  unfold pulseLocked
  split
  · next hs =>
    -- the margin is noted ahead of the event, and read by no one here
    have h := pulseAt_faults b (noteMargin s) hs
    exact ⟨h.failed, h.flag⟩
  · next hs =>
    have hidle : s.gf.streaming = false := by simpa using hs
    constructor <;> simp [State.clamps, State.overflows, hidle]

theorem wakeupLocked_flag (now : Nat) (s : State) :
    (wakeupLocked now s).faultFlag = s.faultFlag := by
  unfold wakeupLocked wakeupStream wakeupMark
  split <;> rfl

theorem wakeupLocked_failed (now : Nat) (s : State) :
    (wakeupLocked now s).gf.failed = s.gf.failed := by
  unfold wakeupLocked
  split
  · rfl
  · exact wakeupStream_failed now (wakeupMark s)

theorem locked_faults (c : Call) (now : Nat) (s : State) :
    Faults s (c.locked now s) (c.clamps s) (c.overflows s) := by
  cases c with
  | wakeup =>
    constructor
    · simp [Call.locked, Call.clamps, Call.overflows, wakeupLocked_failed]
    · simp [Call.locked, Call.clamps, Call.overflows, wakeupLocked_flag]
  | pulse stepBits dirBits => exact pulseLocked_faults _ s
  | laser power fire =>
    have h := laserEventLocked_faults (power &&& 0x7f) (mayFire s fire)
      { s with gf := { s.gf with wantPower := power &&& 0x7f, wantFire := fire } }
    exact ⟨h.failed, h.flag⟩
  | jog on =>
    let u : State := { s with gf := { s.gf with jogging := on } }
    have h := laserEventLocked_faults u.gf.wantPower (mayFire u u.gf.wantFire) u
    exact ⟨h.failed, h.flag⟩

end Glowforge.Stream
