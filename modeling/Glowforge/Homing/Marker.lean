import Glowforge.Homing.Envelope
import Glowforge.Homing.Tray
import Glowforge.Lib.Durable
import Glowforge.Lib.Runs

/-!
# Glowforge — the tray mode outlives the controller (`glowforge_tray.c`)

The tray mode is kept by a file's being there: `tray.out` stands beside the config while the tray is
out. A switch saves the marker first, one call after the other, and moves the frame behind it. The
controller may die, and the power may be cut, between any two calls.

* **`World`** — the marker's entry, as programs see it and as the disk keeps it, the config's key,
  and the controller, if one runs.
* **`mcodeValidate`**, **`drain`**, **`traySet`**, **`markerCall`** — `M103` as the code runs it.
* **`step`** — the machine; `markerSteps_traySet` says that a switch that runs through is
  `Frame.traySet`.
* **`orderly`** — what the directory and the daemon are relied on for.
* **`told_mode_stands`** — the mode and the shift that the sender was told outlive every restart,
  up to the next switch.

What a file system does beyond a power cut, and the log, are not here.
-/

namespace Glowforge.Homing.Marker

open Durable (Copy)
open Runs (Reach observe)

/-! ## `M103`

The command as the code runs it: the words are checked, the motion is drained, the marker is saved,
and the frame is moved behind it. Each call into the file system is a place where the controller can
die. -/

/-- What the parser's block has of an `M103`: the P word, and whether an axis word is there. -/
structure Words where
  p : Option ℚ
  axis : Bool

inductive WordsError where
  | gcodeValueWordMissing
  | gcodeValueOutOfRange
  | gcodeAxisWordsExist

/-- `mcodeValidate`: the mode that is asked for. -/
def mcodeValidate (w : Words) : Except WordsError Bool :=
  match w.p with
  | none => .error .gcodeValueWordMissing
  | some p =>
    if ¬(p = 0 ∨ p = 1) then .error .gcodeValueOutOfRange
    else if w.axis then .error .gcodeAxisWordsExist
    else .ok (p ≠ 0)

/-- Where the controller is in an `M103`. -/
inductive Pc where
  | between
  -- `mcodeExecute` waits for the kernel to play the last move.
  | draining (want : Bool) (drained : Nat)
  -- `marker_set`, up to its next call: `open`, `write` and `fsync`, and the `unlink` of a marker that
  -- could not be written; or the `unlink` of the tray that comes back.
  | opening (delta : ℤ)
  | writing (delta : ℤ)
  | undoing
  | removing (delta : ℤ)
  -- `sync_dir`, behind which the frame moves.
  | syncing (want : Bool) (delta : ℤ)
deriving DecidableEq

structure Controller where
  frame : Frame
  pc : Pc
  -- `EXEC_FEED_HOLD`
  feedHold : Bool

structure World where
  -- `tray.out` is there.
  entry : Copy Bool
  controller : Option Controller
  -- `tray_offset_mm`
  key : Option ℚ
  messages : List String

/-- No controller runs, and the marker stands or not. -/
def World.start (out : Bool) (key : Option ℚ) : World := ⟨⟨out, out⟩, none, key, []⟩

/-- `DRAIN_S`, in milliseconds. -/
def drainMs : Nat := 5000

section

variable (cfg : Settings)

def World.put (w : World) (c : Controller) : World := { w with controller := some c }

/-- `report_message`, at the end of the `M103`. -/
def World.tell (w : World) (c : Controller) (text : String) : World :=
  { w.put { c with pc := .between } with messages := w.messages ++ [text] }

/-- `hold_job`. -/
def World.holdJob (w : World) (c : Controller) (text : String) : World :=
  w.tell { c with feedHold := true } text

/-- What a turn of `mcodeExecute`'s wait reads: the kernel at the head of the loop and behind it, and
whether a reset or an alarm ends the wait. -/
structure Turned where
  kernelIdle : Bool
  idleBehind : Bool
  now : Nat
  stops : Bool

/-- `tray_set`, up to its first call, with the offset that the frame will move by. -/
def traySet (want : Bool) (w : World) (c : Controller) : World :=
  if want = c.frame.out then w.tell c (if c.frame.out then "Tray out" else "Tray in")
  else if want then w.put { c with pc := .opening (offsetSteps cfg w.key) }
  else
    let shift := c.frame.gftrayShiftSteps cfg w.key
    w.put { c with frame := shift.2, pc := .removing (-shift.1) }

/-- One turn of the wait. -/
def drain (want : Bool) (drained : Nat) (t : Turned) (w : World) (c : Controller) : World :=
  if !t.kernelIdle && decide (t.now < drained) then
    if t.stops then w.put { c with pc := .between } else w
  else if !t.idleBehind then
    w.holdJob c "Tray mode not changed: the move before M103 did not finish"
  else traySet cfg want w c

/-- `marker_set` has failed. -/
def unsaved (want : Bool) (w : World) (c : Controller) : World :=
  w.holdJob c (if want then "Tray mode not changed: the tray out could not be saved"
    else "Tray mode not changed: the tray in could not be saved")

/-- The next call of `marker_set`, and whether it succeeds. -/
def markerCall (ok : Bool) (w : World) (c : Controller) : Option World :=
  match c.pc with
  | .opening delta =>
    some (if ok then { w with entry := w.entry.write true }.put { c with pc := .writing delta }
      else unsaved true w c)
  | .writing delta => some (w.put { c with pc := if ok then .syncing true delta else .undoing })
  | .undoing => some (unsaved true (if ok then { w with entry := w.entry.write false } else w) c)
  | .removing delta =>
    some (if ok then { w with entry := w.entry.write false }.put { c with pc := .syncing false delta }
      else unsaved false w c)
  | _ => none

/-- The mode is saved: the frame moves, and the sender is told. `opened` is the anchor's file. -/
def switched (want : Bool) (delta : ℤ) (opened : Bool) (w : World) (c : Controller) : World :=
  let frame := { c.frame with out := want, shift := if want then delta else 0, shiftKnown := want }
  w.tell { c with frame := frame.gfhomeTrayShift cfg opened delta } (if want then "Tray out" else "Tray in")

/-! ## The machine

Calls, deaths, power cuts, restarts, and the daemon that rewrites the config's key, in any order. -/

inductive Move where
  -- The core reads an `M103`, and turns in its wait.
  | m103 (words : Words) (now : Nat)
  | turn (t : Turned)
  -- `marker_set` makes its next call; `sync_dir` syncs.
  | call (ok : Bool)
  | syncDir (ok opened : Bool)
  -- Something else moves the frame.
  | frame (t : Turn)

inductive Step where
  -- `gftray_init`, in a controller that starts where the counters are.
  | boots (position : Fin 3 → ℤ) (L : Limits)
  | dies
  | powerCut
  -- The system writes the directory back by itself.
  | writesBack
  -- The daemon changes the offset.
  | setsKey (key : Option ℚ)
  | moves (m : Move)

/-- Another turn of the frame: no switch, and no change of the key. -/
def others : Turn → Bool
  | .tray _ _ _ | .offset _ => false
  | _ => true

def act (w : World) (c : Controller) : Move → Option World
  | .m103 words now =>
    match c.pc, mcodeValidate words with
    | .between, .ok want => some (w.put { c with pc := .draining want (now + drainMs) })
    | .between, .error _ => some w
    | _, _ => none
  | .turn t =>
    match c.pc with
    | .draining want drained => some (drain cfg want drained t w c)
    | _ => none
  | .call ok => markerCall ok w c
  | .syncDir ok opened =>
    match c.pc with
    | .syncing want delta =>
      some (switched cfg want delta opened { w with entry := if ok then w.entry.sync else w.entry } c)
    | _ => none
  | .frame t =>
    if c.pc = .between ∧ others t = true then
      some (w.put { c with frame := (turn cfg ⟨c.frame, w.key⟩ t).frame })
    else none

/-- The controller that starts finds the mode by the marker. -/
def boots (position : Fin 3 → ℤ) (L : Limits) (w : World) : Controller where
  frame := { (Bench.start cfg position L w.key).frame with out := w.entry.seen }
  pc := .between
  feedHold := false

def step (w : World) : Step → Option World
  | .boots position L => if w.controller.isNone then some (w.put (boots cfg position L w)) else none
  | .dies => some { w with controller := none }
  | .powerCut => some { w with entry := w.entry.cut, controller := none }
  | .writesBack => some { w with entry := w.entry.sync }
  | .setsKey key => some { w with key := key }
  | .moves m => w.controller.bind fun c => act cfg w c m

/-! ## A switch that runs through

With nothing in between, the calls of a switch come to `Frame.traySet`. -/

/-- The calls of a switch, `saved` or not. -/
def markerSteps (want saved opened : Bool) : List Move :=
  if want then
    if saved then [.call true, .call true, .syncDir true opened] else [.call false]
  else if saved then [.call true, .syncDir true opened] else [.call false]

def acts (w : World) : List Move → Option World
  | [] => some w
  | m :: ms => (w.controller.bind fun c => act cfg w c m).bind fun v => acts v ms

/-- **A switch that runs through is `Frame.traySet`**, where `marker_set`'s answer is what its calls
come to. -/
theorem markerSteps_traySet {w : World} {c : Controller} {want : Bool} (hwant : want ≠ c.frame.out)
    (saved opened : Bool) :
    (acts cfg (traySet cfg want w c) (markerSteps want saved opened)).map World.controller =
      some (some ⟨c.frame.traySet cfg w.key want saved opened, .between, c.feedHold || !saved⟩) := by
  unfold traySet Frame.traySet
  rw [if_neg hwant, if_neg hwant]
  cases want with
  | true =>
    cases saved with
    | true => simp [acts, markerSteps, act, markerCall, World.put, switched, World.tell]
    | false => simp [acts, markerSteps, act, markerCall, World.put, unsaved, World.holdJob, World.tell]
  | false =>
    cases saved with
    | true => simp [acts, markerSteps, act, markerCall, World.put, switched, World.tell]
    | false => simp [acts, markerSteps, act, markerCall, World.put, unsaved, World.holdJob, World.tell]

end

/-! ## The order that is relied on

What the directory, the system and the daemon are relied on for. Power cuts come anywhere, and
deaths anywhere but in the middle of a save. -/

/-- Between the marker's change and its sync. -/
def Pc.saving : Pc → Bool
  | .writing _ | .undoing | .syncing _ _ => true
  | _ => false

/-- In a switch, from the first call on. -/
def Pc.switching : Pc → Bool
  | .between | .draining _ _ => false
  | _ => true

/-- The directory can be synced, and a marker that was created can be written, or else removed before
anything writes it back; the controller does not die while it saves, though the power may be cut;
and the daemon changes the offset only while the marker does not stand, nor a switch has read it. -/
def orderly (w : World) : Step → Bool
  | .dies => w.controller.all fun c => !c.pc.saving
  | .writesBack => w.controller.all fun c => c.pc != .undoing
  | .setsKey _ =>
    !w.entry.seen && w.controller.all fun c =>
      match c.pc with
      | .opening _ => false
      | _ => true
  | .moves (.call ok) =>
    w.controller.all fun c =>
      match c.pc with
      | .writing _ => ok || !w.entry.kept
      | .undoing => ok
      | _ => true
  | .moves (.syncDir ok _) => ok
  | _ => true

/-! ## The frame's mode

Beside the steps, the frame carries the mode and the shift, and only a switch changes those. -/

section

variable {cfg : Settings} {f g : Frame} {key : Option ℚ}

/-- A shift that is known is the offset's, with the tray out. -/
def Knows (cfg : Settings) (key : Option ℚ) (f : Frame) : Prop :=
  f.shiftKnown = true → f.out = true ∧ f.shift = offsetSteps cfg key

/-- The mode is the same, and what is known of the shift; the shift may be known since. -/
structure SameMode (cfg : Settings) (key : Option ℚ) (f g : Frame) : Prop where
  out : g.out = f.out
  knows : Knows cfg key f → Knows cfg key g

theorem SameMode.of_eq (hout : g.out = f.out) (hknown : g.shiftKnown = f.shiftKnown)
    (hshift : g.shift = f.shift) : SameMode cfg key f g := by
  refine ⟨hout, fun h => ?_⟩
  unfold Knows at h ⊢
  rw [hout, hknown, hshift]
  exact h

theorem gftrayShiftSteps_sameMode (cfg : Settings) (key : Option ℚ) (f : Frame) :
    SameMode cfg key f (f.gftrayShiftSteps cfg key).2 := by
  unfold Frame.gftrayShiftSteps
  split
  · next hout =>
    split
    · exact .of_eq rfl rfl rfl
    · exact ⟨rfl, fun _ _ => ⟨hout, rfl⟩⟩
  · exact .of_eq rfl rfl rfl

/-- A frame that knows its shift reads the offset's. -/
theorem Knows.shift (h : Knows cfg key f) :
    (f.gftrayShiftSteps cfg key).1 = if f.out then offsetSteps cfg key else 0 := by
  unfold Frame.gftrayShiftSteps
  split
  · split
    · next hknown => exact (h hknown).2
    · rfl
  · rfl

/-- Nothing but a switch changes the mode. -/
theorem turn_sameMode (cfg : Settings) (key : Option ℚ) (f : Frame) {t : Turn} (ht : others t = true) :
    SameMode cfg key f (turn cfg ⟨f, key⟩ t).frame := by
  cases t with
  | tray want saved opened => cases ht
  | offset key => cases ht
  | reference k opened =>
    obtain ⟨hout, hknows⟩ := gftrayShiftSteps_sameMode cfg key f
    exact ⟨hout, hknows⟩
  | cloudHome k envelope homed opened =>
    cases homed with
    | true =>
      obtain ⟨hout, hknows⟩ := gftrayShiftSteps_sameMode cfg key (f.gfhomeInvalidate cfg)
      exact ⟨hout, hknows⟩
    | false => exact .of_eq rfl rfl rfl
  | manualHome k envelope opened => exact .of_eq rfl rfl rfl
  | move span d =>
    simp only [turn, Frame.move]
    split <;> exact .of_eq rfl rfl rfl

end

/-! ## What the marker says

The entry that programs see and the one on the disk, at each call of a switch. -/

section

variable {cfg : Settings} {w v : World} {c : Controller} {key : Option ℚ}

/-- Between two switches the marker stands for the mode, on the disk too. -/
structure Rests (cfg : Settings) (w : World) (c : Controller) : Prop where
  settled : w.entry.Settled
  out : c.frame.out = w.entry.seen
  knows : Knows cfg w.key c.frame

/-- The tray goes out: the marker is there, the mode still in. -/
structure GoesOut (w : World) (c : Controller) : Prop where
  seen : w.entry.seen = true
  out : c.frame.out = false

/-- What the marker and the frame say of each other at each point of an `M103`. -/
def Stands (cfg : Settings) (w : World) (c : Controller) : Prop :=
  match c.pc with
  | .between | .draining _ _ => Rests cfg w c
  | .opening delta => Rests cfg w c ∧ c.frame.out = false ∧ delta = offsetSteps cfg w.key
  | .writing delta => GoesOut w c ∧ Knows cfg w.key c.frame ∧ delta = offsetSteps cfg w.key
  | .undoing => GoesOut w c ∧ Knows cfg w.key c.frame ∧ w.entry.kept = false
  | .removing _ => Rests cfg w c ∧ c.frame.out = true
  | .syncing want delta => w.entry.seen = want ∧ (want = true → delta = offsetSteps cfg w.key)

/-- The invariant. -/
def Kept (cfg : Settings) (w : World) : Prop :=
  match w.controller with
  | none => w.entry.Settled
  | some c => Stands cfg w c

theorem start_kept (out : Bool) (key : Option ℚ) : Kept cfg (World.start out key) := rfl

/-- At the end of an `M103` the marker and the mode agree. -/
theorem Rests.tell (h : Rests cfg w c) (text : String) : Kept cfg (w.tell c text) :=
  ⟨h.settled, h.out, h.knows⟩

theorem Rests.holdJob (h : Rests cfg w c) (text : String) : Kept cfg (w.holdJob c text) :=
  Rests.tell (c := { c with feedHold := true }) ⟨h.settled, h.out, h.knows⟩ text

theorem Rests.traySet (h : Rests cfg w c) (want : Bool) : Kept cfg (traySet cfg want w c) := by
  unfold Marker.traySet
  split
  · exact h.tell _
  · next hwant =>
    cases want with
    | true =>
      have hout : c.frame.out = false := by simpa using hwant
      exact ⟨⟨h.settled, h.out, h.knows⟩, hout, rfl⟩
    | false =>
      have hout : c.frame.out = true := by simpa using hwant
      obtain ⟨hmode, hknows⟩ := gftrayShiftSteps_sameMode cfg w.key c.frame
      exact ⟨⟨h.settled, hmode.trans h.out, hknows h.knows⟩, hmode.trans hout⟩

theorem Rests.drain (h : Rests cfg w c) {want : Bool} {drained : Nat} (hpc : c.pc = .draining want drained)
    (hctl : w.controller = some c) (t : Turned) : Kept cfg (drain cfg want drained t w c) := by
  unfold Marker.drain
  split
  · split
    · exact ⟨h.settled, h.out, h.knows⟩
    · unfold Kept Stands
      rw [hctl]
      dsimp only
      rw [hpc]
      exact h
  · split
    · exact h.holdJob _
    · exact h.traySet want

/-- A call of `marker_set`. -/
theorem Stands.markerCall (h : Stands cfg w c) (hctl : w.controller = some c) {ok : Bool}
    (horder : orderly w (.moves (.call ok)) = true) (hcall : markerCall ok w c = some v) : Kept cfg v := by
  unfold Stands at h
  simp only [orderly, hctl, Option.all_some] at horder
  unfold Marker.markerCall at hcall
  split at hcall
  · next delta hpc =>
    rw [hpc] at h
    obtain ⟨hrests, hout, hdelta⟩ := h
    cases ok with
    | true =>
      cases hcall
      exact ⟨⟨rfl, hout⟩, hrests.knows, hdelta⟩
    | false =>
      cases hcall
      exact hrests.holdJob _
  · next delta hpc =>
    rw [hpc] at h horder
    obtain ⟨hgoes, hknows, hdelta⟩ := h
    cases ok with
    | true =>
      cases hcall
      exact ⟨hgoes.seen, fun _ => hdelta⟩
    | false =>
      cases hcall
      rw [Bool.false_or, Bool.not_eq_true'] at horder
      exact ⟨⟨hgoes.seen, hgoes.out⟩, hknows, horder⟩
  · next hpc =>
    rw [hpc] at h horder
    obtain ⟨hgoes, hknows, hkept⟩ := h
    have hok : ok = true := horder
    subst hok
    cases hcall
    exact Rests.holdJob (w := { w with entry := w.entry.write false }) ⟨hkept.symm, hgoes.out, hknows⟩ _
  · next delta hpc =>
    rw [hpc] at h
    obtain ⟨hrests, -⟩ := h
    cases ok with
    | true =>
      cases hcall
      exact ⟨rfl, by rintro ⟨⟩⟩
    | false =>
      cases hcall
      exact hrests.holdJob _
  · cases hcall

theorem Stands.switched {want : Bool} {delta : ℤ} (hseen : w.entry.seen = want)
    (hdelta : want = true → delta = offsetSteps cfg w.key) (opened : Bool) :
    Kept cfg (switched cfg want delta opened { w with entry := w.entry.sync } c) := by
  obtain ⟨hout, hknown, hshift⟩ := gfhomeTrayShift_mode cfg opened delta
    { c.frame with out := want, shift := if want then delta else 0, shiftKnown := want }
  refine Rests.tell (w := { w with entry := w.entry.sync }) ⟨rfl, hout.trans hseen.symm, fun h => ?_⟩ _
  have hwant : want = true := hknown.symm.trans h
  refine ⟨hout.trans hwant, hshift.trans ?_⟩
  rw [if_pos hwant]
  exact hdelta hwant

theorem Stands.act (h : Stands cfg w c) (hctl : w.controller = some c) {m : Move}
    (horder : orderly w (.moves m) = true) (hact : act cfg w c m = some v) : Kept cfg v := by
  cases m with
  | m103 words now =>
    simp only [Marker.act] at hact
    split at hact
    · next hpc _ =>
      cases hact
      rw [Stands, hpc] at h
      exact ⟨h.settled, h.out, h.knows⟩
    · cases hact
      rw [Kept, hctl]
      exact h
    · cases hact
  | turn t =>
    simp only [Marker.act] at hact
    split at hact
    · next want drained hpc =>
      cases hact
      rw [Stands, hpc] at h
      exact Rests.drain h hpc hctl t
    · cases hact
  | call ok => exact h.markerCall hctl horder hact
  | syncDir ok opened =>
    simp only [Marker.act] at hact
    split at hact
    · next want delta hpc =>
      rw [Stands, hpc] at h
      have hok : ok = true := horder
      subst hok
      cases hact
      exact Stands.switched h.1 h.2 opened
    · cases hact
  | frame t =>
    simp only [Marker.act] at hact
    split at hact
    · next hmoves =>
      cases hact
      obtain ⟨hout, hknows⟩ := turn_sameMode cfg w.key c.frame hmoves.2
      rw [Stands, hmoves.1] at h
      have hrests : Rests cfg w c := h
      unfold Kept Stands
      simp only [World.put, hmoves.1]
      exact ⟨hrests.settled, hout.trans hrests.out, hknows hrests.knows⟩
    · cases hact

/-! ## The runs

A restart reads the marker, and takes the mode from it; the invariant says that this is the mode
that was told last, or the one that a switch under way will tell. -/

theorem boots_rests (h : w.entry.Settled) (position : Fin 3 → ℤ) (L : Limits) :
    Rests cfg w (boots cfg position L w) :=
  ⟨h, rfl, by rintro ⟨⟩⟩

/-- Outside of a save the disk holds the marker as programs see it. -/
theorem Kept.settled (h : Kept cfg w) (hsaves : (w.controller.all fun c => !c.pc.saving) = true) :
    w.entry.Settled := by
  obtain ⟨entry, controller, key, messages⟩ := w
  cases controller with
  | none => exact h
  | some c =>
    obtain ⟨frame, pc, feedHold⟩ := c
    cases pc with
    | between => exact Rests.settled h
    | draining want drained => exact Rests.settled h
    | opening delta => exact Rests.settled (And.left h)
    | removing delta => exact Rests.settled (And.left h)
    | writing delta => cases hsaves
    | undoing => cases hsaves
    | syncing want delta => cases hsaves

theorem Rests.sync (h : Rests cfg w c) : Rests cfg { w with entry := w.entry.sync } c :=
  ⟨Durable.Copy.settled_sync, h.out, h.knows⟩

/-- With the marker gone, no shift is known. -/
theorem Rests.rekey (h : Rests cfg w c) (hgone : w.entry.seen = false) (key : Option ℚ) :
    Rests cfg { w with key := key } c := by
  refine ⟨h.settled, h.out, fun hknown => ?_⟩
  have hout : c.frame.out = true := (h.knows hknown).1
  rw [h.out.trans hgone] at hout
  cases hout

theorem Kept.writesBack (h : Kept cfg w) (horder : orderly w .writesBack = true) :
    Kept cfg { w with entry := w.entry.sync } := by
  obtain ⟨entry, controller, key, messages⟩ := w
  cases controller with
  | none => exact Durable.Copy.settled_sync
  | some c =>
    obtain ⟨frame, pc, feedHold⟩ := c
    cases pc with
    | between => exact Rests.sync h
    | draining want drained => exact Rests.sync h
    | opening delta => exact ⟨Rests.sync (And.left h), And.right h⟩
    | removing delta => exact ⟨Rests.sync (And.left h), And.right h⟩
    | writing delta => exact ⟨⟨(And.left h).seen, (And.left h).out⟩, And.right h⟩
    | undoing => cases horder
    | syncing want delta => exact h

theorem Kept.setsKey (h : Kept cfg w) {key : Option ℚ} (horder : orderly w (.setsKey key) = true) :
    Kept cfg { w with key := key } := by
  obtain ⟨entry, controller, old, messages⟩ := w
  simp only [orderly, Bool.and_eq_true, Bool.not_eq_true'] at horder
  obtain ⟨hgone, hreads⟩ := horder
  cases controller with
  | none => exact h
  | some c =>
    obtain ⟨frame, pc, feedHold⟩ := c
    cases pc with
    | between => exact Rests.rekey h hgone key
    | draining want drained => exact Rests.rekey h hgone key
    | opening delta => cases hreads
    | removing delta => exact ⟨Rests.rekey (And.left h) hgone key, And.right h⟩
    | writing delta => cases (And.left h).seen.symm.trans hgone
    | undoing => cases (And.left h).seen.symm.trans hgone
    | syncing want delta =>
      have hin : want = false := (And.left h).symm.trans hgone
      exact ⟨And.left h, fun hwant => by cases hin.symm.trans hwant⟩

theorem step_kept {l : Step} (h : Kept cfg w) (horder : orderly w l = true) (hstep : step cfg w l = some v) :
    Kept cfg v := by
  cases l with
  | boots position L =>
    simp only [step] at hstep
    split at hstep
    · next hnone =>
      cases hstep
      have hsettled : w.entry.Settled := by
        rwa [Kept, Option.isNone_iff_eq_none.mp hnone] at h
      have hrests : Rests cfg w (boots cfg position L w) := boots_rests hsettled position L
      exact ⟨hrests.settled, hrests.out, hrests.knows⟩
    · cases hstep
  | dies =>
    cases hstep
    exact h.settled horder
  | powerCut =>
    cases hstep
    exact Durable.Copy.settled_cut
  | writesBack =>
    cases hstep
    exact h.writesBack horder
  | setsKey key =>
    cases hstep
    exact h.setsKey horder
  | moves m =>
    obtain ⟨c, hctl, hact⟩ := Option.bind_eq_some_iff.mp hstep
    have hstands : Stands cfg w c := by rwa [Kept, hctl] at h
    exact hstands.act hctl horder hact

/-! ## What the sender was told

The message is the last call of a switch. From there until the next switch begins, no death changes
what the controller would say. -/

/-- The mode and the shift in force at the last message, until a switch begins. -/
def told (cfg : Settings) (w : World) (l : Step) (h : Option (Bool × ℤ)) : Option (Bool × ℤ) :=
  match step cfg w l with
  | none => h
  | some v =>
    match v.controller with
    | none => h
    | some c =>
      if c.pc.switching then none
      else if v.messages = w.messages then h
      else some (c.frame.out, (c.frame.gftrayShiftSteps cfg v.key).1)

/-- The step begins no switch, and tells the sender nothing. -/
def Quiet (w v : World) : Prop :=
  ∀ c, v.controller = some c → c.pc.switching = false ∧ v.messages = w.messages

theorem tell_messages (w : World) (c : Controller) (text : String) :
    (w.tell c text).messages ≠ w.messages :=
  fun h => List.cons_ne_nil _ _ (List.append_right_eq_self.mp h)

/-- With the marker as the disk holds it, only a switch changes it, and the offset changes with the
tray in. -/
theorem quiet_keeps {l : Step} (horder : orderly w l = true) (hstep : step cfg w l = some v)
    (hsettled : w.entry.Settled) (hquiet : Quiet w v) :
    v.entry = w.entry ∧ (w.entry.seen = true → v.key = w.key) := by
  cases l with
  | boots position L =>
    simp only [step] at hstep
    split at hstep
    · cases hstep
      exact ⟨rfl, fun _ => rfl⟩
    · cases hstep
  | dies =>
    cases hstep
    exact ⟨rfl, fun _ => rfl⟩
  | powerCut =>
    cases hstep
    exact ⟨hsettled.cut_eq, fun _ => rfl⟩
  | writesBack =>
    cases hstep
    exact ⟨hsettled.sync_eq, fun _ => rfl⟩
  | setsKey key =>
    cases hstep
    refine ⟨rfl, fun hseen => ?_⟩
    rw [orderly, hseen] at horder
    cases horder
  | moves m =>
    obtain ⟨c, -, hact⟩ := Option.bind_eq_some_iff.mp hstep
    cases m with
    | m103 words now =>
      simp only [act] at hact
      split at hact <;> cases hact <;> exact ⟨rfl, fun _ => rfl⟩
    | turn t =>
      simp only [act] at hact
      split at hact
      · next want drained _ =>
        cases hact
        unfold drain traySet
        split_ifs <;> exact ⟨rfl, fun _ => rfl⟩
      · cases hact
    | call ok =>
      -- every call goes on in the switch, or ends it with a message
      simp only [act, markerCall] at hact
      split at hact
      · cases ok with
        | true =>
          cases hact
          cases (hquiet _ rfl).1
        | false =>
          cases hact
          exact absurd (hquiet _ rfl).2 (tell_messages _ _ _)
      · cases ok <;> cases hact <;> cases (hquiet _ rfl).1
      · cases ok <;> cases hact <;> exact absurd (hquiet _ rfl).2 (tell_messages _ _ _)
      · cases ok with
        | true =>
          cases hact
          cases (hquiet _ rfl).1
        | false =>
          cases hact
          exact absurd (hquiet _ rfl).2 (tell_messages _ _ _)
      · cases hact
    | syncDir ok opened =>
      simp only [act] at hact
      split at hact
      · cases hact
        exact absurd (hquiet _ rfl).2 (tell_messages _ _ _)
      · cases hact
    | frame t =>
      simp only [act] at hact
      split at hact
      · cases hact
        exact ⟨rfl, fun _ => rfl⟩
      · cases hact

/-- What was told stands: the marker is that mode's on the disk too, and the offset that shift's. -/
structure Said (cfg : Settings) (w : World) (out : Bool) (n : ℤ) : Prop where
  entry : w.entry = ⟨out, out⟩
  shift : n = if out then offsetSteps cfg w.key else 0
  between : ∀ c, w.controller = some c → c.pc.switching = false

/-- Outside of a switch the controller is at rest. -/
theorem Kept.rests (h : Kept cfg w) (hctl : w.controller = some c) (hpc : c.pc.switching = false) :
    Rests cfg w c := by
  rw [Kept, hctl] at h
  obtain ⟨frame, pc, feedHold⟩ := c
  cases pc with
  | between => exact h
  | draining want drained => exact h
  | _ => cases hpc

theorem Rests.entry (h : Rests cfg w c) : w.entry = ⟨c.frame.out, c.frame.out⟩ := by
  have hseen := h.out
  have hkept := hseen.trans h.settled
  obtain ⟨⟨seen, kept⟩, controller, key, messages⟩ := w
  rw [← show c.frame.out = seen from hseen, ← show c.frame.out = kept from hkept]

theorem step_said {l : Step} {h : Option (Bool × ℤ)} (hkept : Kept cfg w)
    (hsaid : ∀ out n, h = some (out, n) → Said cfg w out n) (horder : orderly w l = true)
    (hstep : step cfg w l = some v) {out : Bool} {n : ℤ} (hsome : told cfg w l h = some (out, n)) :
    Said cfg v out n := by
  have hkept' : Kept cfg v := step_kept hkept horder hstep
  have hstays (hquiet : Quiet w v) (hbefore : h = some (out, n)) : Said cfg v out n := by
    obtain ⟨hentry, hshift, -⟩ := hsaid out n hbefore
    have hsettled : w.entry.Settled := by rw [hentry]; rfl
    obtain ⟨hsame, hkey⟩ := quiet_keeps horder hstep hsettled hquiet
    refine ⟨hsame.trans hentry, ?_, fun c hctl => (hquiet c hctl).1⟩
    cases out with
    | true => rw [hshift, hkey (by rw [hentry])]
    | false => exact hshift
  rw [told, hstep] at hsome
  dsimp only at hsome
  cases hctl : v.controller with
  | none =>
    rw [hctl] at hsome
    exact hstays (fun c hc => by rw [hctl] at hc; cases hc) hsome
  | some c =>
    rw [hctl] at hsome
    dsimp only at hsome
    split_ifs at hsome with hswitching hmessages
    · have hpc : c.pc.switching = false := by simpa using hswitching
      refine hstays (fun d hd => ?_) hsome
      cases hctl.symm.trans hd
      exact ⟨hpc, hmessages⟩
    · have hpc : c.pc.switching = false := by simpa using hswitching
      have hrests : Rests cfg v c := hkept'.rests hctl hpc
      cases hsome
      refine ⟨hrests.entry, hrests.knows.shift, fun d hd => ?_⟩
      cases hctl.symm.trans hd
      exact hpc

/-- **The tray mode outlives the controller.** In every run of `M103`s, deaths, power cuts and
changes of the offset that keeps to the order relied on: from a message of the mode to the first
call of the next switch the disk holds the mode that the sender was told, and any controller, now
or from the next start on, is in that mode, its Z frame shifted by the steps that it was then. -/
theorem told_mode_stands (cfg : Settings) (was : Bool) (key : Option ℚ) {w : World} {out : Bool} {n : ℤ}
    (hrun : Reach (observe (step cfg) (told cfg)) (fun x l => orderly x.1 l = true)
      (World.start was key, none) (w, some (out, n))) :
    w.entry = ⟨out, out⟩ ∧
      (∀ c, w.controller = some c → c.frame.out = out ∧ (c.frame.gftrayShiftSteps cfg w.key).1 = n) ∧
      ∀ position L, (boots cfg position L w).frame.out = out ∧
        ((boots cfg position L w).frame.gftrayShiftSteps cfg w.key).1 = n := by
  have hinv : Kept cfg w ∧ ∀ m k, some (out, n) = some (m, k) → Said cfg w m k :=
    hrun.invariant_observe (fun w l => orderly w l = true)
      (P := fun w h => Kept cfg w ∧ ∀ m k, h = some (m, k) → Said cfg w m k)
      ⟨start_kept was key, by rintro _ _ ⟨⟩⟩
      fun t h l u hP hok hstep =>
        ⟨step_kept hP.1 hok hstep, fun m k hsome => step_said hP.1 hP.2 hok hstep hsome⟩
  obtain ⟨hkept, hsaid⟩ := hinv
  obtain ⟨hentry, hshift, hbetween⟩ := hsaid out n rfl
  have hstands {c : Controller} (hrests : Rests cfg w c) :
      c.frame.out = out ∧ (c.frame.gftrayShiftSteps cfg w.key).1 = n := by
    have hout : c.frame.out = out := by rw [hrests.out, hentry]
    exact ⟨hout, by rw [hrests.knows.shift, hout, hshift]⟩
  refine ⟨hentry, fun c hctl => hstands (hkept.rests hctl (hbetween c hctl)), fun position L => ?_⟩
  exact hstands (boots_rests (by rw [hentry]; rfl) position L)

/-- The tray goes out; the power is cut, and again while the tray comes back in: the controller that
starts then is asked for the tray in once more. -/
def trayTwice (position : Fin 3 → ℤ) (L : Limits) : List Step :=
  let m103 (p : ℚ) : List Step := [.moves (.m103 ⟨some p, false⟩ 0), .moves (.turn ⟨true, true, 1, false⟩)]
  [Step.boots position L] ++ m103 1 ++
  [Step.moves (.call true), .moves (.call true), .moves (.syncDir true true), .powerCut, .boots position L] ++
  m103 0 ++ [Step.moves (.call true), .powerCut, .boots position L] ++ m103 1 ++ [Step.dies]


theorem trayTwice_stands : ∃ w : World,
    (w.controller.isNone = true ∧ w.messages = ["Tray out", "Tray out"]) ∧ w.entry = ⟨true, true⟩ ∧
      (∀ c, w.controller = some c →
        c.frame.out = true ∧ (c.frame.gftrayShiftSteps bench w.key).1 = 300) ∧
      ∀ position L, (boots bench position L w).frame.out = true ∧
        ((boots bench position L w).frame.gftrayShiftSteps bench w.key).1 = 300 := by
  have hex : ∃ z, Reach (observe (step bench) (told bench)) (fun x l => orderly x.1 l = true)
      (World.start false (some 30), none) z ∧ (z.2 = some (true, 300) ∧
        z.1.controller.isNone = true ∧ z.1.messages = ["Tray out", "Tray out"]) :=
    Runs.exists_reach_of_exec
      (trayTwice (fun _ => 0) ⟨fun _ => 0, fun _ => 0, fun _ => false, fun _ => false, 0, 0⟩)
      (by decide +kernel)
  obtain ⟨⟨w, h⟩, hrun, rfl, hcase⟩ := hex
  exact ⟨w, hcase, told_mode_stands bench false (some 30) hrun⟩

end

end Glowforge.Homing.Marker
