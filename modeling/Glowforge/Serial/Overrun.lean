import Glowforge.Lib.Lines
import Glowforge.Lib.Runs
import Glowforge.Lib.Slots
import Glowforge.Serial.Inject

/-!
# Glowforge — an overrun drops whole lines

A sender that ignores flow control overruns the RX ring. `rx_byte` then unwrites the ring back
to its last end of line and discards the rest of the sender's line, so that the core never reads
a fragment.

* **`Feed`** — the ring as the code keeps it, with its cursors, and the flags that `rx_byte` and
  the core's reads advance while the gate is open and no line is injected.
* **`Feed.Models`** — the ring's bytes are those of the list in `Rx`; each operation keeps that.
* **`lineInRing`** — the overrun that the unwriting cannot undo: the core has read part of the
  line, and the ring holds no end of line to stop at.
* **`overrun_drops_whole_lines`** — without it the core reads whole lines of the sender's, in
  order, and none is missing before an overrun.
-/

namespace Glowforge.Serial

open Function (update)

/-! ## The ring with its cursors

The byte array with its head and tail, as `rx_byte` and the core's reads move them. -/

structure Feed where
  data : Nat → UInt8
  head : Nat
  tail : Nat
  overflow : Bool
  -- `rx_discarding`, and `rx_overrun`, which is latched until the driver takes it
  discarding : Bool
  overrun : Bool
  senderMidline : Bool
  senderEol : UInt8
  readMidline : Bool
  senderLineOpen : Bool

/-- The bytes that the ring holds. -/
def Feed.queued (f : Feed) : List UInt8 := Slots.between rxBufferSize f.data f.tail f.head

/-- The slot behind `head` is the tail's: the next byte overruns. -/
def Feed.full (f : Feed) : Bool := (f.head + 1) % rxBufferSize == f.tail

/-- `rx_byte` for a byte that is no real-time command. -/
def Feed.rxByte (data : UInt8) (f : Feed) : Feed :=
  if f.discarding then { f with discarding := !isEol data }
  else if f.full then
    { f with
      overflow := true
      overrun := true
      discarding := !isEol data
      head := Slots.retreat rxBufferSize f.data (fun b => !isEol b) f.tail rxBufferSize f.head
      senderMidline := false }
  else
    let f := { f with data := update f.data f.head data, head := (f.head + 1) % rxBufferSize }
    if isEol data then { f with senderEol := data, senderMidline := false }
    else { f with senderMidline := true }

/-- `serialGetC` with the gate open and no injected line; `none` for `-1`. -/
def Feed.serialGetC (f : Feed) : Option (UInt8 × Feed) :=
  if f.tail = f.head then none
  else
    let data := f.data f.tail
    let f := { f with tail := (f.tail + 1) % rxBufferSize, readMidline := !isEol data }
    some (data, if f.readMidline then { f with senderLineOpen := true } else f)

inductive FeedLabel where
  | byte (data : UInt8)
  | read
deriving DecidableEq

def feedStep (f : Feed) : FeedLabel → Option Feed
  | .byte data => some (f.rxByte data)
  | .read => some ((f.serialGetC.map Prod.snd).getD f)

/-- The bytes that the sender has sent, and those that the core has read. -/
structure Feeding where
  sent : List UInt8
  taken : List UInt8
deriving DecidableEq

def recordFeed (f : Feed) (l : FeedLabel) (h : Feeding) : Feeding :=
  match l with
  | .byte data => { h with sent := h.sent ++ [data] }
  | .read => { h with taken := h.taken ++ (f.serialGetC.map Prod.fst).toList }

/-- The ring is empty, wherever its cursors stand, and the core is between two lines. -/
structure Feed.Empty (f : Feed) : Prop where
  head : f.head < rxBufferSize
  tail : f.tail = f.head
  discarding : f.discarding = false
  overrun : f.overrun = false
  readMidline : f.readMidline = false

/-- When a byte overruns the ring, the line it belongs to is still in the ring whole: the ring
has an end of line, or the core has read nothing of the line. -/
def lineInRing (f : Feed) : FeedLabel → Bool
  | .byte _ => f.discarding || !f.full || f.queued.any isEol || !f.readMidline
  | .read => true

/-! ## The list behind it

The cursors stand for a list, and each operation on them is the list's. -/

/-- The ring as the list in `Rx`, with the same flags. -/
structure Feed.Models (f : Feed) (s : Rx) : Prop where
  head : f.head < rxBufferSize
  tail : f.tail < rxBufferSize
  ring : s.ring.map Cell.byte = f.queued
  overrun : s.overrun = f.overrun
  discarding : s.discarding = f.discarding
  readMidline : s.readMidline = f.readMidline
  gate : s.holdSender = false
  left : s.injLeft = 0

theorem length_queued (f : Feed) :
    f.queued.length = (f.head + rxBufferSize - f.tail) % rxBufferSize := Slots.length_between

/-- A full ring keeps one slot free. -/
theorem Feed.full_iff {f : Feed} (hh : f.head < rxBufferSize) (ht : f.tail < rxBufferSize) :
    f.full = true ↔ f.queued.length = rxBufferSize - 1 := by
  rw [length_queued, Slots.distance_eq ht hh, Feed.full, beq_iff_eq, Slots.succ_mod_eq hh]
  have hsize : 0 < rxBufferSize := by decide
  split_ifs <;> omega

theorem Feed.Models.full_iff {f : Feed} {s : Rx} (h : f.Models s) :
    f.full = true ↔ s.ring.length = rxBufferSize - 1 := by
  rw [Feed.full_iff h.head h.tail, ← h.ring, List.length_map]

theorem map_rdropWhile {α β : Type} (g : α → β) (p : β → Bool) (l : List α) :
    (l.rdropWhile fun a => p (g a)).map g = (l.map g).rdropWhile p := by
  rw [List.rdropWhile, List.rdropWhile, List.map_reverse, ← List.map_reverse (l := l),
    List.dropWhile_map]
  rfl

/-- **`rx_byte` on the ring is `rx_byte` on the list.** -/
theorem Feed.Models.rxByte {f : Feed} {s : Rx} (h : f.Models s) (data : UInt8) :
    (f.rxByte data).Models (Serial.rxByte data s) := by
  simp only [Feed.rxByte, Serial.rxByte, h.discarding]
  split
  · exact { h with discarding := rfl }
  · by_cases hfull : f.full = true
    · rw [if_pos hfull, if_pos (h.full_iff.mp hfull)]
      refine { h with head := Slots.retreat_lt h.head, ring := ?_, overrun := rfl, discarding := rfl }
      have hlen : f.queued.length ≤ rxBufferSize := by
        rw [length_queued]
        exact (Nat.mod_lt _ (by decide)).le
      simp only [Feed.queued] at hlen
      simp only [Feed.queued, Slots.between_retreat h.tail h.head hlen]
      rw [map_rdropWhile Cell.byte fun b => !isEol b, h.ring, Feed.queued]
    · rw [if_neg hfull, if_neg (mt h.full_iff.mpr hfull)]
      have hring : (s.ring ++ [Cell.mk data none]).map Cell.byte =
          Slots.between rxBufferSize (update f.data f.head data) f.tail ((f.head + 1) % rxBufferSize) := by
        rw [List.map_append, h.ring, Slots.between_put h.tail h.head (by simpa [Feed.full] using hfull)]
        rfl
      have hhead : (f.head + 1) % rxBufferSize < rxBufferSize := Nat.mod_lt _ (by decide)
      split
      · exact { h with head := hhead, ring := hring, discarding := rfl }
      · exact { h with head := hhead, ring := hring, discarding := rfl }

/-- A read takes the front of the list, and does nothing where that is empty. -/
theorem Feed.Models.serialGetC {f : Feed} {s : Rx} (h : f.Models s) :
    (s.ring = [] ∧ f.serialGetC = none ∧ Serial.serialGetC s = none) ∨
      ∃ c rest g t, s.ring = c :: rest ∧ f.serialGetC = some (c.byte, g) ∧
        Serial.serialGetC s = some (c, t) ∧ g.Models t ∧ t.ring = rest ∧
        t.readMidline = (!isEol c.byte) ∧ t.discarding = s.discarding ∧ t.overrun = s.overrun := by
  cases hring : s.ring with
  | nil =>
    refine .inl ⟨rfl, ?_, ?_⟩
    · have hlen := congrArg List.length h.ring
      rw [hring, length_queued, Slots.distance_eq h.tail h.head] at hlen
      have heq : f.tail = f.head := by
        have ht := h.tail
        have hh := h.head
        simp only [List.map_nil, List.length_nil] at hlen
        split_ifs at hlen <;> omega
      rw [Feed.serialGetC, if_pos heq]
    · rw [Serial.serialGetC, hring]
  | cons c rest =>
    have hbytes : f.queued = c.byte :: rest.map Cell.byte := by
      rw [← h.ring, hring]
      rfl
    have hpos : 1 ≤ (f.head + rxBufferSize - f.tail) % rxBufferSize := by
      rw [← length_queued, hbytes]
      exact Nat.succ_le_succ (Nat.zero_le _)
    have htake : f.queued = f.data f.tail ::
        Slots.between rxBufferSize f.data ((f.tail + 1) % rxBufferSize) f.head := by
      rw [Feed.queued, Slots.between_take h.tail h.head hpos]
      simp [Slots.slots, Nat.mod_eq_of_lt h.tail]
    rw [hbytes] at htake
    obtain ⟨hbyte, hrest⟩ := List.cons.inj htake
    have hne : f.tail ≠ f.head := by
      rintro heq
      rw [heq, Nat.add_sub_cancel_left, Nat.mod_self] at hpos
      omega
    have htail : (f.tail + 1) % rxBufferSize < rxBufferSize := Nat.mod_lt _ (by decide)
    refine .inr ⟨c, rest,
      { f with
        tail := (f.tail + 1) % rxBufferSize
        readMidline := !isEol c.byte
        senderLineOpen := !isEol c.byte || f.senderLineOpen },
      { s with
        ring := rest
        readMidline := !isEol c.byte
        senderLineOpen := !isEol c.byte || s.senderLineOpen }, rfl, ?_, ?_,
      { h with tail := htail, ring := hrest, readMidline := rfl }, rfl, rfl, rfl, rfl⟩
    · rw [Feed.serialGetC, if_neg hne, ← hbyte]
      dsimp only
      cases isEol c.byte <;> rfl
    · simp only [Serial.serialGetC, hring, h.gate, h.left]
      cases isEol c.byte <;> rfl

/-! ## The machine on the list

The same machine over the list, so that the property can be about lines. -/

def Rx.bytes (s : Rx) : List UInt8 := s.ring.map Cell.byte

def rxFeed (s : Rx) : FeedLabel → Option Rx
  | .byte data => some (rxByte data s)
  | .read => some (((serialGetC s).map Prod.snd).getD s)

def recordRx (s : Rx) (l : FeedLabel) (h : Feeding) : Feeding :=
  match l with
  | .byte data => { h with sent := h.sent ++ [data] }
  | .read => { h with taken := h.taken ++ ((serialGetC s).map fun x => x.1.byte).toList }

/-- `lineInRing` on the list. -/
def Rx.lineInRing (s : Rx) : FeedLabel → Bool
  | .byte _ =>
    s.discarding || s.ring.length != rxBufferSize - 1 || s.bytes.any isEol || !s.readMidline
  | .read => true

theorem Feed.Models.lineInRing_eq {f : Feed} {s : Rx} (h : f.Models s) (l : FeedLabel) :
    lineInRing f l = s.lineInRing l := by
  cases l with
  | byte data =>
    have hfull : (!f.full) = (s.ring.length != rxBufferSize - 1) := by
      have hiff := h.full_iff
      cases hf : f.full with
      | true => simp [hiff.mp hf]
      | false =>
        rw [hf] at hiff
        simpa using hiff
    rw [lineInRing, Rx.lineInRing, Rx.bytes, hfull, h.ring, h.discarding, h.readMidline]
  | read => rfl

/-- **A step of the ring is a step of the list**, and the history beside both is the same. -/
theorem Feed.Models.step {f : Feed} {s : Rx} (h : f.Models s) (l : FeedLabel) :
    ∃ g t, feedStep f l = some g ∧ rxFeed s l = some t ∧ g.Models t ∧
      ∀ k, recordFeed f l k = recordRx s l k := by
  cases l with
  | byte data => exact ⟨_, _, rfl, rfl, h.rxByte data, fun _ => rfl⟩
  | read =>
    rcases h.serialGetC with ⟨-, hnone, hnone'⟩ | ⟨c, rest, g, t, -, hget, hget', hg, -⟩
    · refine ⟨f, s, ?_, ?_, h, fun k => ?_⟩
      · rw [feedStep, hnone]
        rfl
      · rw [rxFeed, hnone']
        rfl
      · rw [recordFeed, recordRx, hnone, hnone']
        rfl
    · refine ⟨g, t, ?_, ?_, hg, fun k => ?_⟩
      · rw [feedStep, hget]
        rfl
      · rw [rxFeed, hget']
        rfl
      · rw [recordFeed, recordRx, hget, hget']
        rfl

/-- A run of the list is a run of the ring. -/
theorem Feed.Models.reach {f : Feed} {s t : Rx} {h k : Feeding} (hmodels : f.Models s)
    (ok : Rx → FeedLabel → Prop) (ok' : Feed → FeedLabel → Prop)
    (hok : ∀ f s l, f.Models s → ok s l → ok' f l)
    (hrun : Runs.Reach (Runs.observe rxFeed recordRx) (fun x l => ok x.1 l) (s, h) (t, k)) :
    ∃ g : Feed, g.Models t ∧
      Runs.Reach (Runs.observe feedStep recordFeed) (fun x l => ok' x.1 l) (f, h) (g, k) := by
  generalize hx : (s, h) = x at hrun
  generalize hy : (t, k) = y at hrun
  induction hrun generalizing t k with
  | refl =>
    cases hx.trans hy.symm
    exact ⟨f, hmodels, .refl⟩
  | @step y z l _ hokl hstep ih =>
    obtain ⟨u, j⟩ := y
    obtain ⟨g, hg, hreach⟩ := ih rfl
    subst hy
    obtain ⟨hu, rfl⟩ := Runs.observe_eq_some.mp hstep
    obtain ⟨g', t', hg', ht', hmodels', hrecord⟩ := hg.step l
    rw [ht'] at hu
    cases hu
    refine ⟨g', hmodels', .step hreach (hok _ _ _ hg hokl) (Runs.observe_eq_some.mpr ⟨hg', ?_⟩)⟩
    rw [hrecord]

/-! ## Whole lines

A stream that is unwritten to its last end of line keeps its lines, and what is discarded behind is
no line yet. -/

/-- What the core has read and the ring holds are lines of the sender's, and behind them the line
that the sender is in, unless the rest of that one is being discarded. -/
structure WholeLines (s : Rx) (h : Feeding) : Prop where
  lines : (Lines.lines isEol (h.taken ++ s.bytes)).Sublist (Lines.lines isEol h.sent)
  stored : s.discarding = false → Lines.rest isEol (h.taken ++ s.bytes) = Lines.rest isEol h.sent
  dropped : s.discarding = true → Lines.rest isEol (h.taken ++ s.bytes) = []
  midline : s.readMidline = false → Lines.rest isEol h.taken = []
  complete : s.overrun = false → s.discarding = false ∧ h.taken ++ s.bytes = h.sent

/-- The sender's lines with one more byte, where that byte's line is discarded or ends here. -/
theorem lines_sublist_concat (as : List UInt8) (b : UInt8) :
    (Lines.lines isEol as).Sublist (Lines.lines isEol (as ++ [b])) :=
  (Lines.lines_prefix as [b]).sublist

/-- A byte of a line that is being discarded. -/
theorem WholeLines.discard {s : Rx} {h : Feeding} (hw : WholeLines s h) (hd : s.discarding = true)
    (data : UInt8) :
    WholeLines { s with discarding := !isEol data } { h with sent := h.sent ++ [data] } where
  lines := hw.lines.trans (lines_sublist_concat h.sent data)
  stored := fun hnext => by
    have heol : isEol data = true := by simpa using hnext
    rw [Lines.rest_concat, if_pos heol]
    exact hw.dropped hd
  dropped := fun _ => hw.dropped hd
  midline := hw.midline
  complete := fun hno => by
    rw [(hw.complete hno).1] at hd
    cases hd

/-- A byte that overruns the ring, with its line still in the ring whole. -/
theorem WholeLines.unwrite {s : Rx} {h : Feeding} (hw : WholeLines s h)
    (hwhole : s.bytes.any isEol = true ∨ s.readMidline = false) (data : UInt8) :
    WholeLines { s with
      overflow := true
      overrun := true
      discarding := !isEol data
      ring := s.ring.rdropWhile fun c => !isEol c.byte
      senderMidline := false } { h with sent := h.sent ++ [data] } := by
  have hbytes : (s.ring.rdropWhile fun c => !isEol c.byte).map Cell.byte =
      s.bytes.rdropWhile fun b => !isEol b := map_rdropWhile Cell.byte (fun b => !isEol b) s.ring
  have hrest : Lines.rest isEol (h.taken ++ s.bytes.rdropWhile fun b => !isEol b) = [] := by
    refine Lines.rest_unwrite fun hnil => ?_
    rcases hwhole with hany | hmid
    · -- an end of line stops the unwriting
      obtain ⟨b, hb, heol⟩ := List.any_eq_true.mp hany
      have hall := List.rdropWhile_eq_nil_iff.mp hnil b hb
      simp [heol] at hall
    · exact hw.midline hmid
  constructor
  case lines =>
    rw [Rx.bytes, hbytes, Lines.lines_unwrite]
    exact hw.lines.trans (lines_sublist_concat h.sent data)
  case stored =>
    intro hnext
    have heol : isEol data = true := by simpa using hnext
    rw [Rx.bytes, hbytes, hrest, Lines.rest_concat, if_pos heol]
  case dropped =>
    intro _
    rw [Rx.bytes, hbytes, hrest]
  case midline => exact hw.midline
  case complete => rintro ⟨⟩

/-- A byte that goes into the ring. -/
theorem WholeLines.store {s t : Rx} {h : Feeding} (hw : WholeLines s h) (hd : s.discarding = false)
    {data : UInt8} (hbytes : t.bytes = s.bytes ++ [data]) (hdt : t.discarding = s.discarding)
    (hmid : t.readMidline = s.readMidline) (hover : t.overrun = s.overrun) :
    WholeLines t { h with sent := h.sent ++ [data] } := by
  have hrest := hw.stored hd
  constructor
  case lines =>
    rw [hbytes, ← List.append_assoc, Lines.lines_concat, Lines.lines_concat, hrest]
    split
    · exact hw.lines.append (List.Sublist.refl _)
    · exact hw.lines
  case stored =>
    intro _
    rw [hbytes, ← List.append_assoc, Lines.rest_concat, Lines.rest_concat, hrest]
  case dropped =>
    intro hnext
    rw [hdt, hd] at hnext
    cases hnext
  case midline =>
    rw [hmid]
    exact hw.midline
  case complete =>
    intro hno
    rw [hover] at hno
    refine ⟨hdt.trans hd, ?_⟩
    rw [hbytes, ← List.append_assoc, (hw.complete hno).2]

theorem WholeLines.byte {s : Rx} {h : Feeding} (hw : WholeLines s h) {data : UInt8}
    (hwhole : s.discarding = false → s.ring.length = rxBufferSize - 1 →
      s.bytes.any isEol = true ∨ s.readMidline = false) :
    WholeLines (rxByte data s) { h with sent := h.sent ++ [data] } := by
  unfold rxByte
  split
  · next hd => exact hw.discard hd data
  · next hd =>
    have hd : s.discarding = false := by simpa using hd
    split
    · next hfull => exact hw.unwrite (hwhole hd hfull) data
    · have hbytes : (s.ring ++ [Cell.mk data none]).map Cell.byte = s.bytes ++ [data] := by
        rw [List.map_append]
        rfl
      dsimp only
      split
      · exact hw.store hd hbytes rfl rfl rfl
      · exact hw.store hd hbytes rfl rfl rfl

theorem WholeLines.read {s t : Rx} {h : Feeding} (hw : WholeLines s h) {c : Cell} {rest : List Cell}
    (hring : s.ring = c :: rest) (hrest : t.ring = rest) (hmid : t.readMidline = !isEol c.byte)
    (hd : t.discarding = s.discarding) (hover : t.overrun = s.overrun) :
    WholeLines t { h with taken := h.taken ++ [c.byte] } := by
  have hsame : h.taken ++ [c.byte] ++ t.bytes = h.taken ++ s.bytes := by
    rw [Rx.bytes, Rx.bytes, hring, hrest, List.append_assoc]
    rfl
  constructor
  case lines =>
    rw [hsame]
    exact hw.lines
  case stored =>
    rw [hsame, hd]
    exact hw.stored
  case dropped =>
    rw [hsame, hd]
    exact hw.dropped
  case midline =>
    intro hnext
    rw [hmid] at hnext
    rw [Lines.rest_concat, if_pos (by simpa using hnext)]
  case complete =>
    rw [hsame, hd, hover]
    exact hw.complete

/-! ## The run

The induction over the run, brought back to the ring with its cursors. -/

/-- The list of the empty ring. -/
theorem Feed.Empty.models {f : Feed} (h : f.Empty) : f.Models Rx.start where
  head := h.head
  tail := h.tail ▸ h.head
  ring := by
    rw [Feed.queued, h.tail, Slots.between, Slots.distance_eq h.head h.head, if_pos le_rfl,
      Nat.sub_self]
    rfl
  overrun := h.overrun.symm
  discarding := h.discarding.symm
  readMidline := h.readMidline.symm
  gate := rfl
  left := rfl

theorem wholeLines_step {s t : Rx} {l : FeedLabel} {h : Feeding} (hok : s.lineInRing l = true)
    (hleft : s.injLeft = 0) (hstep : rxFeed s l = some t)
    (hw : WholeLines s h) : WholeLines t (recordRx s l h) := by
  cases l with
  | byte data =>
    cases hstep
    refine hw.byte fun hd hfull => ?_
    simpa [Rx.lineInRing, hd, hfull] using hok
  | read =>
    cases hstep
    cases hget : serialGetC s with
    | none => simpa [recordRx, hget] using hw
    | some x =>
      obtain ⟨c, t⟩ := x
      obtain ⟨rest, hring, ⟨-, lineOpen, rfl⟩ | ⟨hinj, -⟩⟩ := serialGetC_cases hget
      · rw [recordRx, hget]
        exact hw.read hring rfl rfl rfl rfl
      · exact absurd hleft hinj

/-- **An overrun drops whole lines.** In every run of sender bytes and reads from an empty ring,
in which each byte that overruns the ring finds its line there whole, the complete lines that the
core has read are lines of the sender's, each intact and in order; and as long as `rx_overrun` is
not set, what the core has read and the ring holds is everything that the sender sent. -/
theorem overrun_drops_whole_lines {f g : Feed} {h : Feeding} (hempty : f.Empty)
    (hrun : Runs.Reach (Runs.observe feedStep recordFeed) (fun x l => lineInRing x.1 l = true)
      (f, ⟨[], []⟩) (g, h)) :
    (Lines.lines isEol h.taken).Sublist (Lines.lines isEol h.sent) ∧
      (g.overrun = false → h.taken ++ g.queued = h.sent) := by
  have hstart : WholeLines Rx.start ⟨[], []⟩ :=
    ⟨List.Sublist.refl _, fun _ => rfl, fun _ => rfl, fun _ => rfl, fun _ => ⟨rfl, rfl⟩⟩
  obtain ⟨s, hmodels, hw⟩ := hrun.invariant_observe (fun f l => lineInRing f l = true)
    (P := fun f h => ∃ s, f.Models s ∧ WholeLines s h) ⟨_, hempty.models, hstart⟩ (by
      rintro f h l g ⟨s, hmodels, hw⟩ hok hstep
      obtain ⟨g', t, hg', ht, hmodels', hrecord⟩ := hmodels.step l
      rw [hg'] at hstep
      cases hstep
      rw [hmodels.lineInRing_eq] at hok
      refine ⟨t, hmodels', ?_⟩
      rw [hrecord]
      exact wholeLines_step hok hmodels.left ht hw)
  refine ⟨(Lines.lines_prefix h.taken s.bytes).sublist.trans hw.lines, fun hno => ?_⟩
  rw [← hmodels.overrun] at hno
  rw [← hmodels.ring]
  exact (hw.complete hno).2

/-- The ring as the controller starts with it. -/
def Feed.start : Feed where
  data := fun _ => 0
  head := 0
  tail := 0
  overflow := false
  discarding := false
  overrun := false
  senderMidline := false
  senderEol := 10
  readMidline := false
  senderLineOpen := false

theorem Feed.start_empty : Feed.start.Empty := ⟨by decide, rfl, rfl, rfl, rfl⟩

theorem rxByte_stores {s : Rx} (data : UInt8) (hd : s.discarding = false) (hroom : s.ring.length ≠ rxBufferSize - 1)
    (heol : isEol data = false) :
    rxByte data s = { s with ring := s.ring ++ [Cell.mk data none], senderMidline := true } := by
  rw [rxByte, if_neg (by simp [hd]), if_neg hroom]
  dsimp only
  rw [if_neg (by simp [heol])]

/-- The sender's line goes on with `n` bytes that the ring has room for. -/
theorem reach_stores {s : Rx} {h : Feeding} (ok : Rx → FeedLabel → Prop) (hd : s.discarding = false)
    (hmid : s.senderMidline = true) {n : Nat} (hroom : s.ring.length + n ≤ rxBufferSize - 1)
    (hok : ∀ t : Rx, t.ring.length ≠ rxBufferSize - 1 → ok t (.byte 88)) :
    Runs.Reach (Runs.observe rxFeed recordRx) (fun x l => ok x.1 l) (s, h)
      ({ s with ring := s.ring ++ List.replicate n ⟨88, none⟩ },
        { h with sent := h.sent ++ List.replicate n 88 }) := by
  induction n with
  | zero =>
    simp only [List.replicate_zero, List.append_nil]
    exact .refl
  | succ n ih =>
    have hlen : (s.ring ++ List.replicate n (Cell.mk 88 none)).length ≠ rxBufferSize - 1 := by
      rw [List.length_append, List.length_replicate]
      omega
    refine .step (ih (by omega)) (hok _ hlen) (Runs.observe_eq_some.mpr ⟨?_, ?_⟩)
    · have hstores := rxByte_stores 88
        (s := { s with ring := s.ring ++ List.replicate n (Cell.mk 88 none) }) hd hlen rfl
      rw [rxFeed, hstores, List.append_assoc, ← List.replicate_succ', hmid]
    · rw [recordRx, List.append_assoc, ← List.replicate_succ']

/-- The line `A` is in the ring, and the next line fills it to the last slot; then it overruns,
and the line `M` follows. -/
theorem overrun_drops_whole_lines_long :
    ∃ g h, Runs.Reach (Runs.observe feedStep recordFeed) (fun x l => lineInRing x.1 l = true)
        (Feed.start, ⟨[], []⟩) (g, h) ∧
      (g.overrun = true ∧ Lines.lines isEol h.taken = [[65], [77]]) ∧
      (Lines.lines isEol h.taken).Sublist (Lines.lines isEol h.sent) := by
  have hbegun : Runs.Reach (Runs.observe rxFeed recordRx) (fun x l => x.1.lineInRing l = true)
      (Rx.start, ⟨[], []⟩)
      ({ Rx.start with ring := [⟨65, none⟩, ⟨10, none⟩, ⟨88, none⟩], senderMidline := true },
        ⟨[65, 10, 88], []⟩) :=
    Runs.reach_of_exec (show Runs.exec _ _ _ [.byte 65, .byte 10, .byte 88] = _ from rfl)
  have hfull := hbegun.trans (reach_stores (n := 1020) (fun s l => s.lineInRing l = true)
    rfl rfl (by decide) fun t ht => by simp [Rx.lineInRing, ht])
  obtain ⟨⟨s, h⟩, hrun, hover, hlines⟩ := hfull.exists_of_exec
    (P := fun x => x.1.overrun = true ∧ Lines.lines isEol x.2.taken = [[65], [77]])
    [.byte 88, .byte 10, .read, .read, .byte 77, .byte 10, .read, .read] (by decide +kernel)
  obtain ⟨g, hg, hfeed⟩ := Feed.start_empty.models.reach
    (fun s l => s.lineInRing l = true) (fun f l => lineInRing f l = true)
    (fun f s l hmodels hl => (hmodels.lineInRing_eq l).trans hl) hrun
  exact ⟨g, h, hfeed, ⟨hg.overrun.symm.trans hover, hlines⟩,
    (overrun_drops_whole_lines Feed.start_empty hfeed).1⟩

/-- **A line that the core has begun is torn.** The core reads the first byte of a line that then
overruns the ring; the unwriting stops at the core's place, and the next line continues the
fragment. -/
theorem overrun_glues_lines :
    ¬∀ (f g : Feed) (h : Feeding), f.Empty →
      Runs.Reach (Runs.observe feedStep recordFeed) (fun _ _ => True) (f, ⟨[], []⟩) (g, h) →
      (Lines.lines isEol h.taken).Sublist (Lines.lines isEol h.sent) ∧
        (g.overrun = false → h.taken ++ g.queued = h.sent) := by
  intro hall
  have hbegun : Runs.Reach (Runs.observe rxFeed recordRx) (fun _ _ => True) (Rx.start, ⟨[], []⟩)
      ({ Rx.start with senderMidline := true, readMidline := true, senderLineOpen := true },
        ⟨[71], [71]⟩) :=
    Runs.reach_of_exec (show Runs.exec _ _ _ [.byte 71, .read] = _ from rfl)
  have hfull := hbegun.trans (reach_stores (n := 1023) (fun _ _ => True) rfl rfl (by decide)
    fun _ _ => trivial)
  obtain ⟨⟨s, h⟩, hrun, htaken, hnot⟩ := hfull.exists_of_exec
    (P := fun x => Lines.lines isEol x.2.taken = [[71, 77]] ∧ [71, 77] ∉ Lines.lines isEol x.2.sent)
    [.byte 88, .byte 10, .byte 77, .byte 10, .read, .read] (by decide +kernel)
  obtain ⟨g, -, hfeed⟩ := Feed.start_empty.models.reach (fun _ _ => True) (fun _ _ => True) (fun _ _ _ _ _ => trivial) hrun
  have hsub := (hall Feed.start g h Feed.start_empty hfeed).1
  rw [htaken] at hsub
  exact hnot (hsub.subset List.mem_cons_self)

end Glowforge.Serial
