import Glowforge.Homing.Basic
import Glowforge.Stream.Pipeline

/-!
# Glowforge — the position, the stream and the kernel together

Three modules change one of the three terms of the machine's position: the core and the homes the
position, the homes the anchor, the stream and the kernel the counters. Here they are one machine:

* **`Machine`** — the stream, the position and its anchor, and what the protocol thread is busy with.
* **`counted`** — the core's own count: the step of a pulse when it is handed over, and the step that
  it has counted ahead when a reset ends a live stream.
* **`machineStep`** — a turn of the stream, a driver's reset and its read-back, a home, the start's
  lens reference, a tray switch, a motor release.

A home zeroes the counters and writes the anchor in one step: nothing on the protocol thread comes
between the two, and an invalidation from the shipper comes before or after them.
-/

namespace Glowforge.Homing

open Glowforge.Stream (Steps stepOf pulseByte gfStreamKernelIdle readbackAnswer)

structure Machine where
  stream : Stream.State
  home : State
  -- `$H` runs the web-service session.
  session : Bool
  -- The driver's reset is under way: it has reset the stream and waits for the read-back.
  resetting : Bool
  -- The start's lens reference has been taken, or there was none (`lens_referenced`).
  lensTaken : Bool

inductive Label where
  -- A turn of the stream, the producer's and the kernel's included.
  | stream (l : Stream.Label)
  -- The core marks the position as lost.
  | lost
  -- `driverReset`, up to its wait, and one poll of the read-back.
  | reset (now : Nat)
  | readback (expired : Bool)
  -- `gfcloud_home`: the beginning of its session, its end without a home, and with one.
  | session
  | sessionOver
  | cloudHome (k : Keys) (seek opened : Bool)
  -- `manual_home`; `energized` says that the motors hold.
  | manualHome (k : Keys) (readOk energized seek opened : Bool)
  -- `gfhome_startup_reference`; `edge` says that the marker stands.
  | startup (edge : Bool) (k : Keys) (seek opened : Bool)
  -- `M103`.
  | tray (key : Option ℚ) (want readOk saved opened : Bool)
  -- `$MD`, up to the reference.
  | release (readOk opened : Bool)

/-- What the core counts in `sys.position` at a call. -/
def counted (s : Stream.State) : Stream.Label → Steps
  | .enter c => c.steps
  | .goIdle true stepBits dirBits =>
    if s.gf.streaming then stepOf (pulseByte stepBits dirBits).val else 0
  | _ => 0

/-- The turns that drop the anchor: the protocol thread takes a fault, and the shipper acknowledges
an underrun. -/
def invalidates (s : Stream.State) : Stream.Label → Bool
  | .faultTake => s.faultFlag
  | .ship _ => match s.pc with
    | .runStop _ => true
    | _ => false
  | _ => false

/-- The turns of the stream that are not a call of this machine's own. A handover belongs to a
session, and the protocol thread makes no call while its reset waits. -/
def Machine.admits (m : Machine) : Stream.Label → Bool
  | .reset _ | .readback _ | .clearPosition _ => false
  | .suspend _ | .resume _ _ _ => m.session && !m.resetting
  | l => !(m.resetting && l.beginsCall)

/-- What a turn does to the position and to the anchor. -/
def turned (s : Stream.State) (l : Stream.Label) (st : State) : State :=
  let st := { st with position := st.position + counted s l }
  if invalidates s l then gfhomeInvalidate st else st

/-- `readback_position`, and the rest of `driverReset`: a position still lost drops the anchor. -/
def readbackPosition (rc : Int) (unplayed : Steps) (st : State) : State :=
  let st := if rc > 0 then { st with position := st.position - unplayed, positionLost := false } else st
  if st.positionLost then { gfhomeInvalidate st with positionLost := false } else st

/-- `home_completed`: the counters, and the anchor behind them whether they were zeroed or not. -/
def homeCompleted (seek opened : Bool) (a : Anchor) (st : State) (m : Machine) : Option Machine :=
  (Stream.step m.stream (.clearPosition seek)).map fun t =>
    { m with stream := t, home := anchorWrite opened a st }

/-- The anchor of the start's lens reference: Z alone. -/
def startupAnchor (st : State) : Anchor :=
  ⟨fun a => if a = 2 then st.homePosition 2 else 0, zAxisBit, .startup⟩

/-- The protocol thread is free for a command. -/
def Machine.free (m : Machine) : Bool := !m.session && !m.resetting

variable (cfg : Settings)

def machineStep (m : Machine) : Label → Option Machine
  | .stream l =>
    if m.admits l then
      (Stream.step m.stream l).map fun t => { m with stream := t, home := turned m.stream l m.home }
    else none
  | .lost => if m.resetting then none else some { m with home := { m.home with positionLost := true } }
  | .reset now =>
    if m.resetting then none
    else (Stream.step m.stream (.reset now)).map fun t => { m with stream := t, resetting := true }
  | .readback expired =>
    if m.resetting then
      (Stream.step m.stream (.readback expired)).map fun t =>
        match readbackAnswer expired m.stream.gf with
        | none => { m with stream := t }
        | some (rc, unplayed) =>
          { m with stream := t, resetting := false, home := readbackPosition rc unplayed m.home }
    else none
  | .session => if m.free then some { m with session := true, home := gfhomeInvalidate m.home } else none
  | .sessionOver =>
    if m.session && !m.resetting && !m.stream.gf.suspended && m.stream.proto.isEmpty then
      some { m with session := false }
    else none
  | .cloudHome k seek opened =>
    if m.session && !m.resetting && !m.stream.gf.suspended then
      let st := cloudHomed cfg k m.home
      homeCompleted seek opened ⟨st.homePosition, fun _ => true, .gfcloud⟩ st { m with session := false }
    else none
  | .manualHome k readOk energized seek opened =>
    if m.free then
      if gfStreamKernelIdle readOk m.stream && energized then
        let st := manualHomed cfg k m.home
        homeCompleted seek opened ⟨cfg.mm st.position, manualAxes st, .manual⟩ st m
      else some m
    else none
  | .startup edge k seek opened =>
    if m.resetting || m.lensTaken then none
    else if edge then
      let st := gfhomeReferenceZ cfg k m.home
      homeCompleted seek opened (startupAnchor st) st { m with lensTaken := true }
    else some { m with lensTaken := true }
  | .tray key want readOk saved opened =>
    if m.free then
      if gfStreamKernelIdle readOk m.stream then
        some { m with home := traySet cfg key want saved opened m.home }
      else some m
    else none
  | .release readOk opened =>
    if m.free then
      if gfStreamKernelIdle readOk m.stream then
        some { m with home := gfhomeInvalidateXy opened m.home }
      else some m
    else none

/-- What a turn can do: the guard that lets it, and the machine that it leaves. -/
inductive Turns (m : Machine) : Label → Machine → Prop where
  | stream {l : Stream.Label} {u : Stream.State} (hadmits : m.admits l = true)
      (hstep : Stream.step m.stream l = some u) :
      Turns m (.stream l) { m with stream := u, home := turned m.stream l m.home }
  | lost (hfree : m.resetting = false) :
      Turns m .lost { m with home := { m.home with positionLost := true } }
  | reset {now : Nat} {u : Stream.State} (hfree : m.resetting = false)
      (hstep : Stream.step m.stream (.reset now) = some u) :
      Turns m (.reset now) { m with stream := u, resetting := true }
  | waits {expired : Bool} {u : Stream.State}
      (hstep : Stream.step m.stream (.readback expired) = some u)
      (hanswer : readbackAnswer expired m.stream.gf = none) :
      Turns m (.readback expired) { m with stream := u }
  | answered {expired : Bool} {u : Stream.State} {rc : Int} {unplayed : Steps}
      (hstep : Stream.step m.stream (.readback expired) = some u)
      (hanswer : readbackAnswer expired m.stream.gf = some (rc, unplayed)) :
      Turns m (.readback expired)
        { m with stream := u, resetting := false, home := readbackPosition rc unplayed m.home }
  | session : Turns m .session { m with session := true, home := gfhomeInvalidate m.home }
  | sessionOver (hsession : m.session = true) (hhere : m.stream.gf.suspended = false)
      (hnone : m.stream.proto = []) : Turns m .sessionOver { m with session := false }
  | cloudHome {k : Keys} {seek opened : Bool} {n : Machine}
      (hhome : homeCompleted seek opened
        ⟨(cloudHomed cfg k m.home).homePosition, fun _ => true, .gfcloud⟩ (cloudHomed cfg k m.home)
        { m with session := false } = some n) :
      Turns m (.cloudHome k seek opened) n
  | manualHome {k : Keys} {readOk energized seek opened : Bool} {n : Machine} (hfree : m.free = true)
      (hmay : (gfStreamKernelIdle readOk m.stream && energized) = true)
      (hhome : homeCompleted seek opened
        ⟨cfg.mm (manualHomed cfg k m.home).position, manualAxes (manualHomed cfg k m.home), .manual⟩
        (manualHomed cfg k m.home) m = some n) :
      Turns m (.manualHome k readOk energized seek opened) n
  | manualRefused {k : Keys} {readOk energized seek opened : Bool}
      (hmay : (gfStreamKernelIdle readOk m.stream && energized) = false) :
      Turns m (.manualHome k readOk energized seek opened) m
  | lensHome {k : Keys} {seek opened : Bool} {n : Machine}
      (hhome : homeCompleted seek opened (startupAnchor (gfhomeReferenceZ cfg k m.home))
        (gfhomeReferenceZ cfg k m.home) { m with lensTaken := true } = some n) :
      Turns m (.startup true k seek opened) n
  | lensSkipped {k : Keys} {seek opened : Bool} :
      Turns m (.startup false k seek opened) { m with lensTaken := true }
  | tray {key : Option ℚ} {want readOk saved opened : Bool}
      (hidle : gfStreamKernelIdle readOk m.stream = true) :
      Turns m (.tray key want readOk saved opened)
        { m with home := traySet cfg key want saved opened m.home }
  | trayRefused {key : Option ℚ} {want readOk saved opened : Bool} :
      Turns m (.tray key want readOk saved opened) m
  | release {readOk opened : Bool} (hidle : gfStreamKernelIdle readOk m.stream = true) :
      Turns m (.release readOk opened) { m with home := gfhomeInvalidateXy opened m.home }
  | releaseRefused {readOk opened : Bool} : Turns m (.release readOk opened) m

theorem machineStep_turns {m n : Machine} {l : Label} (hstep : machineStep cfg m l = some n) :
    Turns cfg m l n := by
  cases l with
  | stream l =>
    obtain ⟨hadmits, hstep⟩ := Option.ite_none_right_eq_some.1 hstep
    obtain ⟨u, hu, rfl⟩ := Option.map_eq_some_iff.1 hstep
    exact .stream hadmits hu
  | lost =>
    obtain ⟨hfree, hstep⟩ := Option.ite_none_left_eq_some.1 hstep
    cases hstep
    exact .lost (Bool.not_eq_true _ ▸ hfree)
  | reset now =>
    obtain ⟨hfree, hstep⟩ := Option.ite_none_left_eq_some.1 hstep
    obtain ⟨u, hu, rfl⟩ := Option.map_eq_some_iff.1 hstep
    exact .reset (Bool.not_eq_true _ ▸ hfree) hu
  | readback expired =>
    obtain ⟨-, hstep⟩ := Option.ite_none_right_eq_some.1 hstep
    obtain ⟨u, hu, rfl⟩ := Option.map_eq_some_iff.1 hstep
    cases hanswer : readbackAnswer expired m.stream.gf with
    | none => exact .waits hu hanswer
    | some answer => exact .answered hu hanswer
  | session =>
    obtain ⟨-, hstep⟩ := Option.ite_none_right_eq_some.1 hstep
    cases hstep
    exact .session
  | sessionOver =>
    obtain ⟨hover, hstep⟩ := Option.ite_none_right_eq_some.1 hstep
    cases hstep
    simp only [Bool.and_eq_true, Bool.not_eq_true', List.isEmpty_iff] at hover
    obtain ⟨⟨⟨hsession, -⟩, hhere⟩, hnone⟩ := hover
    exact .sessionOver hsession hhere hnone
  | cloudHome k seek opened => exact .cloudHome (Option.ite_none_right_eq_some.1 hstep).2
  | manualHome k readOk energized seek opened =>
    obtain ⟨hfree, hstep⟩ := Option.ite_none_right_eq_some.1 hstep
    split at hstep
    case isTrue hmay => exact .manualHome hfree hmay hstep
    case isFalse hmay =>
      cases hstep
      exact .manualRefused (Bool.not_eq_true _ ▸ hmay)
  | startup edge k seek opened =>
    obtain ⟨-, hstep⟩ := Option.ite_none_left_eq_some.1 hstep
    cases edge with
    | true => exact .lensHome hstep
    | false =>
      cases hstep
      exact .lensSkipped
  | tray key want readOk saved opened =>
    obtain ⟨-, hstep⟩ := Option.ite_none_right_eq_some.1 hstep
    split at hstep
    case isTrue hidle =>
      cases hstep
      exact .tray hidle
    case isFalse =>
      cases hstep
      exact .trayRefused
  | release readOk opened =>
    obtain ⟨-, hstep⟩ := Option.ite_none_right_eq_some.1 hstep
    split at hstep
    case isTrue hidle =>
      cases hstep
      exact .release hidle
    case isFalse =>
      cases hstep
      exact .releaseRefused

/-- The controller has started: `gfhome_init` drops the anchor that an earlier one left. -/
def Machine.start (s : Stream.State) (st : State) : Machine where
  stream := s
  home := gfhomeInvalidate st
  session := false
  resetting := false
  lensTaken := false

end Glowforge.Homing
