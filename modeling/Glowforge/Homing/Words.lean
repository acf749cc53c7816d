import Glowforge.Homing.Lens
import Glowforge.Homing.Tray

/-!
# Glowforge — the tray's runs on an `int32_t`

The runs that `tray_is_shift` compares keep a position that does not wrap; `sys.position` does. Here
the same turns go through the writers of the machine's own state, and the limits are taken from the
position that it keeps. Where no position of a run leaves the range of an `int32_t` the two are one
run, and the shift is a shift of what the machine keeps:

* **`WordBench`** — the state, its limits and the key; read back as a frame by `frame`.
* **`wordTurn`**, **`wordRun`** — a turn by the writers of the state, and a run of them.
* **`settle_words`** — a writer that leaves the state of a frame that fits leaves its limits too.
* **`wordTurn_words`**, **`wordRun_words`** — a turn, and a run, of the two side by side.
* **`wordRun_shifted`** — the tray mode is a shift of the machine's Z frame.
-/

namespace Glowforge.Homing

/-! ## The turns of the state

Each turn calls the source's writers as the machine of `machineStep` does, with the stream idle: what
it would refuse there is no turn here. -/

structure WordBench where
  state : State
  limits : Limits
  key : Option ℚ

namespace WordBench

/-- The state and its limits, the position read as the number that an `int32_t` is. -/
def frame (w : WordBench) : Frame where
  position := fun a => signed (w.state.position a)
  homePosition := w.state.homePosition
  zReferenced := w.state.zReferenced
  limits := w.limits
  anchor := w.state.anchor
  file := w.state.file
  out := w.state.out
  shiftKnown := w.state.shiftKnown
  shift := w.state.shift

/-- The end of the command `l`, which leaves the state `st`: what it makes of the limits, and
`gfhome_apply_z_limit` behind that. -/
def settle (cfg : Settings) (envelope : Fin 3 → Option ℚ) (l : Label) (st : State) (w : WordBench) :
    WordBench :=
  { w with
    state := st
    limits := Lens.applied cfg st (limitEdits cfg envelope w.state st.homePosition w.limits l) }

end WordBench

/-- A turn by the writers of the state. -/
def wordTurn (cfg : Settings) (w : WordBench) : Turn → WordBench
  | .tray want saved opened =>
    let st := traySet cfg w.key want saved opened w.state
    if want != w.state.out && saved then
      w.settle cfg (fun _ => none) (.tray w.key want true saved opened) st
    else { w with state := st }
  | .offset key => { w with key := key }
  | .reference k opened =>
    let k := k.withOffset w.key
    let st := gfhomeReferenceZ cfg k w.state
    w.settle cfg (fun _ => none) (.startup true k true opened)
      (anchorWrite opened (startupAnchor st) st)
  | .cloudHome k envelope homed opened =>
    let w := w.settle cfg envelope .session (gfhomeInvalidate w.state)
    if homed then
      let k := k.withOffset w.key
      let st := cloudHomed cfg k w.state
      w.settle cfg envelope (.cloudHome k true opened)
        (anchorWrite opened ⟨st.homePosition, fun _ => true, .gfcloud⟩ st)
    else w
  | .manualHome k envelope opened =>
    let k := k.withOffset w.key
    let st := manualHomed cfg k w.state
    w.settle cfg envelope (.manualHome k true true true opened)
      (anchorWrite opened ⟨cfg.mm st.position, manualAxes st, .manual⟩ st)
  | .move span d =>
    if w.frame.admits cfg (w.frame.position 2 + span) ∧ min 0 span ≤ d ∧ d ≤ max 0 span then
      { w with
        state := { w.state with
          position := Function.update w.state.position 2 (w.state.position 2 + .ofInt d) } }
    else w

/-- A run, turn by turn. -/
def wordRun (cfg : Settings) : WordBench → List Turn → WordBench := List.foldl (wordTurn cfg)

/-- A bench as the machine keeps it. -/
def Bench.words (lost : Bool) (b : Bench) : WordBench where
  state := b.frame.wrapped lost
  limits := b.frame.limits
  key := b.key

section

variable {cfg : Settings} {lost : Bool} {b : Bench} {g : Frame}

/-! ## A turn of both

A writer leaves the frame's state, wrapped (`Homing.Limits`). Its limits are the frame's where the
position that it leaves fits, so each turn needs one fact more: what the frame's writer makes of them. -/

/-- A frame that fits is what its words read as. -/
theorem words_frame (lost : Bool) (h : b.frame.Fits) : (b.words lost).frame = b.frame := by
  have hposition : (fun a => signed ((b.frame.wrapped lost).position a)) = b.frame.position :=
    funext fun a => Frame.signed_ofInt (h a).1 (h a).2
  exact congrArg (fun position => ({ b.frame with position := position } : Frame)) hposition

/-- A writer that leaves the state of a frame that fits leaves the frame's limits. -/
theorem settle_words {envelope : Fin 3 → Option ℚ} {l : Label} {st : State}
    (hstate : g.wrapped lost = st) (hfits : g.Fits)
    (hlimits : g.limits = gfhomeApplyZLimit g.zReferenced (g.mm cfg 2)
      (limitEdits cfg envelope (b.frame.wrapped lost) g.homePosition b.frame.limits l)) :
    (b.words lost).settle cfg envelope l st = ({ b with frame := g } : Bench).words lost := by
  subst hstate
  have happlied : Lens.applied cfg (g.wrapped lost)
      (limitEdits cfg envelope (b.frame.wrapped lost) g.homePosition b.frame.limits l) = g.limits := by
    rw [Lens.applied, Frame.mm_wrapped lost hfits, hlimits]
    rfl
  exact congrArg (fun L => (⟨g.wrapped lost, L, b.key⟩ : WordBench)) happlied

/-- The edge of a reference, in the frame of the tray mode that stands. -/
theorem edgeSteps_wrapped (f : Frame) (k : Keys) :
    edgeSteps cfg k (f.wrapped lost) =
      gfhomeZSteps k.edgeZ (cfg.stepsPerMm 2) + (f.gftrayShiftSteps cfg k.trayOffset).1 := by
  rw [edgeSteps, Frame.gftrayShiftSteps_wrapped]

/-- Reading the shift leaves the limits. -/
theorem gftrayShiftSteps_limits (cfg : Settings) (key : Option ℚ) (f : Frame) :
    (f.gftrayShiftSteps cfg key).2.limits = f.limits := by
  obtain ⟨known, shift, hremembers⟩ := Frame.gftrayShiftSteps_remembers cfg key f
  rw [hremembers]

/-- The last call of a shift takes the limits from the position that the shift leaves. -/
theorem gfhomeTrayShift_limits (cfg : Settings) (opened : Bool) (delta : ℤ) (f : Frame) :
    (f.gfhomeTrayShift cfg opened delta).limits =
      gfhomeApplyZLimit (f.gfhomeTrayShift cfg opened delta).zReferenced
        ((f.gfhomeTrayShift cfg opened delta).mm cfg 2)
        (if f.zReferenced then f.limits.shiftLens cfg delta else f.limits) := by
  unfold Frame.gfhomeTrayShift
  dsimp only
  generalize (if f.zReferenced then f.limits.shiftLens cfg delta else f.limits) = L
  split <;> rfl

/-- The last call of a camera home takes them from the home, with the lens window around the edge in
the tray's frame. -/
theorem gfcloudHomed_limits (cfg : Settings) (k : Keys) (envelope : Fin 3 → Option ℚ) (opened : Bool)
    (f : Frame) :
    let g := f.gfcloudHomed cfg k envelope opened
    g.limits = gfhomeApplyZLimit g.zReferenced (g.mm cfg 2)
      ((f.limits.cloud cfg envelope g.homePosition).openLens cfg
        (gfhomeZSteps k.edgeZ (cfg.stepsPerMm 2) + (f.gftrayShiftSteps cfg k.trayOffset).1)
        (lensStop k.below 10) (lensStop k.above 12)) := by
  obtain ⟨known, shift, hremembers⟩ := Frame.gftrayShiftSteps_remembers cfg k.trayOffset f
  dsimp only [Frame.gfcloudHomed]
  rw [hremembers]
  rfl

/-- A switch that is made ends with the limits of the frame that it moves. -/
theorem traySet_switched (cfg : Settings) (key : Option ℚ) (opened : Bool) {want : Bool} {f : Frame}
    (hwant : want ≠ f.out) :
    let g := f.traySet cfg key want true opened
    let delta := if want then offsetSteps cfg key else -(f.gftrayShiftSteps cfg key).1
    g.limits = gfhomeApplyZLimit g.zReferenced (g.mm cfg 2)
      (if f.zReferenced then f.limits.shiftLens cfg delta else f.limits) := by
  obtain ⟨known, shift, hremembers⟩ := Frame.gftrayShiftSteps_remembers cfg key f
  unfold Frame.traySet
  rw [if_neg hwant]
  dsimp only
  rw [if_pos rfl, gfhomeTrayShift_limits, hremembers]
  cases want <;> rfl

/-- One that is not asked for, or could not be saved, leaves the limits. -/
theorem traySet_kept (cfg : Settings) (key : Option ℚ) (opened : Bool) {want saved : Bool} {f : Frame}
    (hkept : ¬(want != f.out && saved) = true) :
    (f.traySet cfg key want saved opened).limits = f.limits := by
  unfold Frame.traySet
  split
  case isTrue => rfl
  case isFalse hwant =>
    have hunsaved : ¬saved = true := fun hsaved =>
      hkept (Bool.and_eq_true_iff.2 ⟨bne_iff_ne.2 hwant, hsaved⟩)
    dsimp only
    rw [if_neg hunsaved]
    split
    · rfl
    · exact gftrayShiftSteps_limits cfg key f

/-- A switch. Its own arithmetic needs no bound; the limits of an unreferenced lens are read back
from the position, which has to fit. -/
theorem wordTurn_tray {want saved opened : Bool}
    (hfits : (b.frame.traySet cfg b.key want saved opened).Fits) :
    wordTurn cfg (b.words lost) (.tray want saved opened) =
      ({ b with frame := b.frame.traySet cfg b.key want saved opened } : Bench).words lost := by
  have hstate : (b.frame.traySet cfg b.key want saved opened).wrapped lost =
      traySet cfg b.key want saved opened (b.words lost).state := Frame.wrapped_traySet
  unfold wordTurn
  dsimp only
  split
  case isTrue hswitched =>
    obtain ⟨hwant, rfl⟩ := Bool.and_eq_true_iff.1 hswitched
    refine settle_words hstate hfits ?_
    rw [limitEdits, Frame.gftrayShiftSteps_wrapped]
    exact traySet_switched cfg b.key opened (bne_iff_ne.1 hwant)
  case isFalse hkept =>
    rw [show (b.words lost).key = b.key from rfl, ← hstate]
    exact congrArg
      (fun L => (⟨(b.frame.traySet cfg b.key want saved opened).wrapped lost, L, b.key⟩ : WordBench))
      (traySet_kept cfg b.key opened hkept).symm

/-- A lens reference writes the edge and the window around it, and then reads Z back for the limits.
-/
theorem wordTurn_reference {k : Keys} {opened : Bool}
    (hfits : (b.frame.gfhomeStartupReference cfg (k.withOffset b.key) opened).Fits) :
    wordTurn cfg (b.words lost) (.reference k opened) =
      ({ b with frame := b.frame.gfhomeStartupReference cfg (k.withOffset b.key) opened } : Bench).words
        lost := by
  have hstate : (b.frame.gfhomeStartupReference cfg (k.withOffset b.key) opened).wrapped lost =
      anchorWrite opened (startupAnchor (gfhomeReferenceZ cfg (k.withOffset b.key) (b.words lost).state))
        (gfhomeReferenceZ cfg (k.withOffset b.key) (b.words lost).state) := by
    rw [show (b.words lost).state = b.frame.wrapped lost from rfl, ← Frame.wrapped_gfhomeReferenceZ]
    rfl
  refine settle_words hstate hfits ?_
  obtain ⟨known, shift, hremembers⟩ :=
    Frame.gftrayShiftSteps_remembers cfg (k.withOffset b.key).trayOffset b.frame
  rw [limitEdits, edgeSteps_wrapped]
  unfold Frame.gfhomeStartupReference Frame.gfhomeReferenceZ
  dsimp only
  rw [hremembers]
  rfl

/-- A camera home drops the reference first, where the position still fits. -/
theorem wordTurn_cloudHome {k : Keys} {envelope : Fin 3 → Option ℚ} {homed opened : Bool}
    (hbefore : b.frame.Fits)
    (hfits : (b.frame.gfcloudHome cfg (k.withOffset b.key) envelope homed opened).Fits) :
    wordTurn cfg (b.words lost) (.cloudHome k envelope homed opened) =
      ({ b with frame := b.frame.gfcloudHome cfg (k.withOffset b.key) envelope homed opened } :
        Bench).words lost := by
  have hdropped : (b.words lost).settle cfg envelope .session (gfhomeInvalidate (b.words lost).state) =
      ({ b with frame := b.frame.gfhomeInvalidate cfg } : Bench).words lost :=
    settle_words Frame.wrapped_gfhomeInvalidate hbefore rfl
  unfold wordTurn
  dsimp only
  rw [hdropped]
  cases homed with
  | false => rfl
  | true =>
    refine settle_words (Frame.wrapped_gfcloudHomed hfits) hfits ?_
    rw [limitEdits, edgeSteps_wrapped]
    exact gfcloudHomed_limits cfg (k.withOffset b.key) envelope opened (b.frame.gfhomeInvalidate cfg)

/-- A manual home declares X and Y and reads the whole position back for its anchor. -/
theorem wordTurn_manualHome {k : Keys} {envelope : Fin 3 → Option ℚ} {opened : Bool}
    (hfits : (b.frame.manualHome cfg (k.withOffset b.key) envelope opened).Fits) :
    wordTurn cfg (b.words lost) (.manualHome k envelope opened) =
      ({ b with frame := b.frame.manualHome cfg (k.withOffset b.key) envelope opened } : Bench).words
        lost :=
  settle_words (Frame.wrapped_manualHome hfits) hfits rfl

/-- A motion of Z. Both cores admit it alike, since the words read as the frame; the count itself
may wrap. -/
theorem wordTurn_move {span d : ℤ} (hbefore : b.frame.Fits) :
    wordTurn cfg (b.words lost) (.move span d) =
      ({ b with frame := b.frame.move cfg span d } : Bench).words lost := by
  have hposition : (fun a => UInt32.ofInt (Function.update b.frame.position 2 (b.frame.position 2 + d) a)) =
      Function.update (b.frame.wrapped lost).position 2
        ((b.frame.wrapped lost).position 2 + .ofInt d) := by
    rw [Frame.wrapped_update b.frame _ 2, UInt32.ofInt_add]
    rfl
  unfold wordTurn Frame.move
  dsimp only
  rw [words_frame lost hbefore]
  by_cases hmoves : b.frame.admits cfg (b.frame.position 2 + span) ∧ min 0 span ≤ d ∧ d ≤ max 0 span
  · rw [if_pos hmoves, if_pos hmoves]
    exact congrArg (fun position => ({ b.words lost with
      state := { b.frame.wrapped lost with position := position } } : WordBench)) hposition.symm
  · rw [if_neg hmoves, if_neg hmoves]

/-- A turn whose position fits before and behind it. -/
theorem wordTurn_words {t : Turn} (hbefore : b.frame.Fits) (hfits : (turn cfg b t).frame.Fits) :
    wordTurn cfg (b.words lost) t = (turn cfg b t).words lost := by
  cases t with
  | tray want saved opened => exact wordTurn_tray hfits
  | offset key => rfl
  | reference k opened => exact wordTurn_reference hfits
  | cloudHome k envelope homed opened => exact wordTurn_cloudHome hbefore hfits
  | manualHome k envelope opened => exact wordTurn_manualHome hfits
  | move span d => exact wordTurn_move hbefore

/-! ## The runs of both

The condition is on the run that does not wrap: its position fits behind every turn. -/

/-- A run is a run of the words, by induction on its turns: each position that the run comes through
fits. -/
theorem wordRun_words {turns : List Turn} (hfits : ∀ n, (run cfg b (turns.take n)).frame.Fits) :
    wordRun cfg (b.words lost) turns = (run cfg b turns).words lost := by
  induction turns generalizing b with
  | nil => rfl
  | cons t turns ih =>
    have hturn : wordTurn cfg (b.words lost) t = (turn cfg b t).words lost :=
      wordTurn_words (hfits 0) (hfits 1)
    calc wordRun cfg (b.words lost) (t :: turns)
        = wordRun cfg ((turn cfg b t).words lost) turns := congrArg (wordRun cfg · turns) hturn
      _ = (run cfg (turn cfg b t) turns).words lost := ih fun n => hfits (n + 1)

/-- **The tray mode is a shift of what the machine keeps.** Where no position leaves the range, the
state of a run and the state of its twin, which has no switches, differ by the shift and by nothing
with the tray in; a switch that cannot be saved leaves the state as it is. -/
theorem wordRun_shifted (cfg : Settings) (position : Fin 3 → ℤ) (L : Limits) (key : Option ℚ)
    (lost : Bool) (turns : List Turn)
    (hfits : ∀ n, (run cfg (Bench.start cfg position L key) (turns.take n)).frame.Fits)
    (htwin : ∀ n, (run cfg (Bench.start cfg position L key)
      ((turns.filter fun t => !t.isTray).take n)).frame.Fits) :
    let w := wordRun cfg ((Bench.start cfg position L key).words lost) turns
    let v := wordRun cfg ((Bench.start cfg position L key).words lost) (turns.filter fun t => !t.isTray)
    Shifted cfg (gftrayShiftSteps cfg w.key w.state).1 w.frame v.frame ∧
      (w.state.out = false → SameLens w.frame v.frame) ∧
      ∀ want opened, wordTurn cfg w (.tray want false opened) = w := by
  dsimp only
  rw [wordRun_words hfits, wordRun_words htwin]
  have hrun := hfits turns.length
  have hrun' := htwin (turns.filter fun t => !t.isTray).length
  rw [List.take_length] at hrun hrun'
  rw [words_frame lost hrun, words_frame lost hrun']
  have h : Tracks cfg (run cfg (Bench.start cfg position L key) turns).frame
      (run cfg (Bench.start cfg position L key) (turns.filter fun t => !t.isTray)).frame :=
    run_tracks (start_tracks position L key) rfl turns
  generalize run cfg (Bench.start cfg position L key) turns = b at h hrun ⊢
  refine ⟨?_, h.sameLens, fun want opened => ?_⟩
  · show Shifted cfg (gftrayShiftSteps cfg b.key (b.frame.wrapped lost)).1 b.frame _
    rw [Frame.gftrayShiftSteps_wrapped, gftrayShiftSteps_eq h.known]
    exact h.shifted
  · have hunsaved : b.frame.traySet cfg b.key want false opened = b.frame :=
      traySet_unsaved h.known b.key want
    rw [wordTurn_tray (hunsaved.symm ▸ hrun), hunsaved]

end

end Glowforge.Homing
