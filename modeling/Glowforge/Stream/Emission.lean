import Glowforge.Stream.Tick

/-!
# Glowforge — fire is masked, never sourced

A transition of the laser is recorded at the virtual time of the core's call, and the shipper
applies it when its cursor gets there. What a tick may do is decided by the log of the calls
(`Rec`): the last transition recorded at or before the tick's index.

* **`Emits`** — the invariant: wherever the queue would have the cursor fire, the log's
  governing record is on; nothing is queued beyond the stream's horizon; and an ended cycle
  ends dark.
* **`levRecord_emits`**, **`goIdle_emits`**, **`wakeup_emits`** — the producer's calls keep it.
* **`buildTicks_emits`** — so does the tick loop, and each tick it lights is governed by a
  record that is on.
* **`emission_sound`** — hence in every run, if no cycle ends under a transition queued beyond
  its last step.

The end of a cycle coalesces its laser-off into the newest queued transition. When that one
lies beyond the last step, the off is recorded late, and the pads of the gap inherit the fire
state (`gap_pad_fires`).
-/

namespace Glowforge.Stream

/-! ## The log of transitions

Every call of the laser's as a record, at the index that it is recorded for, or clamped to. -/

/-- One recorded transition, with whether a jog was in force and whether it is the off that
ends a cycle. -/
structure Rec where
  idx : Nat
  fire : Bool
  jog : Bool
  idle : Bool
deriving DecidableEq, Repr

/-- The transition recorded last at or before stream index `i`. -/
abbrev governs (log : List Rec) (i : Nat) : Option Rec := Timeline.governing Rec.idx log i

/-- The index at which a call records: the virtual time, or the cursor if that is past it. -/
def recordIndex (g : Gf) : Nat := max (virtualIndex g) g.shipped

/-- Where a cycle's last step ends. -/
def cycleEnd (g : Gf) : Nat := max g.produced g.shipped

/-- The history: each call's transition, in the order of the calls. A fresh stream begins a new
index space, and with it a new log. -/
def recordTransition (s : State) (l : Label) (log : List Rec) : List Rec :=
  match l with
  | .locked (.laser _ fire) _ =>
    if s.gf.streaming then log ++ [⟨recordIndex s.gf, mayFire s fire, s.gf.jogging, false⟩] else log
  | .locked (.jog on) _ =>
    if s.gf.streaming then
      log ++ [⟨recordIndex s.gf, s.gf.wantFire && s.laserArmed && !on, on, false⟩]
    else log
  | .goIdle _ _ _ =>
    if s.gf.streaming then log ++ [⟨cycleEnd s.gf, false, s.gf.jogging, true⟩] else log
  | .locked .wakeup now =>
    if s.gf.streaming then log
    else (if s.gf.kernelRunning then log else []) ++
      [⟨(wakeupLocked now s).gf.base, mayFire s s.gf.wantFire, s.gf.jogging, false⟩]
  | _ => log

/-! ## One transition more

What an appended transition does to the queue, stated once for all writers. -/

/-- The queue `lev'` is `lev` with a transition at its end: appended, or written over the newest
one of the same tick. -/
inductive Put (idx : Nat) (fire : Bool) : List LaserEv → List LaserEv → Prop where
  | append {lev : List LaserEv} {e : LaserEv} (hidx : e.idx = idx) (hfire : e.fire = fire) :
      Put idx fire lev (lev ++ [e])
  | merge {lev : List LaserEv} {d e : LaserEv} (hold : d.idx = idx) (hidx : e.idx = idx)
      (hfire : e.fire = fire) : Put idx fire (lev ++ [d]) (lev ++ [e])

namespace Put

variable {idx : Nat} {fire : Bool} {lev lev' : List LaserEv}

theorem mem (h : Put idx fire lev lev') {e : LaserEv} (he : e ∈ lev') : e ∈ lev ∨ e.idx = idx := by
  cases h with
  | append hidx _ =>
    rcases List.mem_append.mp he with h1 | h2
    · exact .inl h1
    · exact .inr (List.mem_singleton.mp h2 ▸ hidx)
  | merge _ hidx _ =>
    rcases List.mem_append.mp he with h1 | h2
    · exact .inl (List.mem_append_left _ h1)
    · exact .inr (List.mem_singleton.mp h2 ▸ hidx)

theorem final (h : Put idx fire lev lev') (cur : Bool) :
    Timeline.final LaserEv.fire lev' cur = fire := by
  cases h with
  | append _ hfire => rw [Timeline.final_concat, hfire]
  | merge _ _ hfire => rw [Timeline.final_concat, hfire]

/-- From the cursor `lo` on, where no other transition lies ahead of both, the new transition
is in force from its own index. -/
theorem fireAt (h : Put idx fire lev lev') {cur : Bool} {lo i : Nat} (hlo : lo ≤ i)
    (hle : ∀ e ∈ lev, e.idx ≤ max idx lo) :
    fireAt lev' cur i = if idx ≤ i then fire else fireAt lev cur i := by
  split
  · next hi =>
    have hall : ∀ e ∈ lev', e.idx ≤ i := by
      intro e he
      rcases h.mem he with hold | hnew
      · have := hle e hold
        omega
      · omega
    rw [Stream.fireAt, Timeline.inForce_eq_final hall, h.final]
  · next hi =>
    have hlt : i < idx := Nat.lt_of_not_le hi
    cases h with
    | append hidx _ => exact Timeline.inForce_concat_of_lt (hidx ▸ hlt)
    | merge hold hidx _ =>
      exact (Timeline.inForce_concat_of_lt (hidx ▸ hlt)).trans
        (Timeline.inForce_concat_of_lt (hold ▸ hlt)).symm

end Put

/-- A call's transition, in a queue that has room. -/
theorem levRecord_put {g : Gf} (idx : Nat) (power : UInt8) (fire : Bool)
    (hroom : g.lev.length < levN) : Put idx fire g.lev (levRecord idx power fire g).lev := by
  unfold levRecord
  split
  · next e hlast =>
    have hlev : g.lev.dropLast ++ [e] = g.lev := List.dropLast_append_getLast? e hlast
    split
    · next heq =>
      have hput : Put idx fire (g.lev.dropLast ++ [e])
          (g.lev.dropLast ++ [{ e with power := power, fire := fire }]) := .merge heq heq rfl
      rwa [hlev] at hput
    · rw [if_neg (Nat.not_le.mpr hroom)]
      exact .append rfl rfl
  · next hnone =>
    rw [List.getLast?_eq_none_iff.mp hnone]
    exact @Put.append _ _ [] _ rfl rfl

/-- The laser-off of a cycle, where nothing is queued beyond the cycle's end. -/
theorem goIdleDark_put {g : Gf} (hroom : g.lev.length < levN)
    (hlast : ∀ e ∈ g.lev, e.idx ≤ cycleEnd g) (hlit : g.curFire = true ∨ g.lev ≠ []) :
    Put (cycleEnd g) false g.lev (goIdleDark g).lev := by
  have hidx : (if g.produced > g.shipped then g.produced else g.shipped) = cycleEnd g := by
    unfold cycleEnd
    split <;> omega
  simp only [goIdleDark, hlit, if_true, hidx]
  split
  · next e hget =>
    have hlev : g.lev.dropLast ++ [e] = g.lev := List.dropLast_append_getLast? e hget
    have hle : e.idx ≤ cycleEnd g := hlast e (List.mem_of_getLast? hget)
    split
    · next hcoalesce =>
      have heq : e.idx = cycleEnd g := by
        rcases hcoalesce with hge | hfull
        · omega
        · exact absurd hroom (Nat.not_lt.mpr hfull)
      have hput : Put (cycleEnd g) false (g.lev.dropLast ++ [e])
          (g.lev.dropLast ++ [{ e with fire := false }]) := .merge heq heq rfl
      rwa [hlev] at hput
    · exact .append rfl rfl
  · next hnone =>
    rw [List.getLast?_eq_none_iff.mp hnone]
    exact @Put.append _ _ [] _ rfl rfl

/-! ## The invariant -/

/-- What the invariant reads of the record. -/
structure LaserView where
  lev : List LaserEv
  curFire : Bool
  shipped : Nat
  -- The index that no queued transition lies beyond, unless the cursor is past it.
  horizon : Nat
  streaming : Bool

def Gf.laserView (g : Gf) : LaserView where
  lev := g.lev
  curFire := g.curFire
  shipped := g.shipped
  horizon := if g.streaming then virtualIndex g else g.produced
  streaming := g.streaming

/-- **The invariant** of the laser queue against the log. -/
structure LaserView.Emits (v : LaserView) (log : List Rec) : Prop where
  sound : ∀ i, v.shipped ≤ i → fireAt v.lev v.curFire i = true →
    ∃ r, governs log i = some r ∧ r.fire = true
  ahead : ∀ e ∈ v.lev, e.idx ≤ max v.horizon v.shipped
  ends : v.streaming = false → Timeline.final LaserEv.fire v.lev v.curFire = false

namespace LaserView.Emits

variable {v : LaserView} {log : List Rec}

/-- Without a queue and with the fire state off there is nothing to show. -/
theorem dark (hlev : v.lev = []) (hfire : v.curFire = false) : v.Emits log := by
  refine ⟨fun i _ h => ?_, fun e he => ?_, fun _ => ?_⟩
  · rw [hlev, hfire] at h
    cases h
  · rw [hlev] at he
    cases he
  · rw [hlev, hfire]
    rfl

/-- The fire state in force may go off. -/
theorem unlight (h : v.Emits log) : LaserView.Emits { v with curFire := false } log := by
  have hless : ∀ i, fireAt v.lev false i = true → fireAt v.lev v.curFire i = true := by
    intro i hi
    cases hl : v.lev with
    | nil =>
      rw [hl] at hi
      cases hi
    | cons e lev =>
      rw [hl] at hi
      simp only [fireAt, Timeline.inForce] at hi ⊢
      split at hi
      · next he => rwa [if_pos he]
      · cases hi
  refine ⟨fun i hi hf => h.sound i hi (hless i hf), h.ahead, fun hs => ?_⟩
  have hfinal := h.ends hs
  cases hl : v.lev with
  | nil => rfl
  | cons e lev =>
    rw [hl] at hfinal
    exact hfinal

/-- The horizon may move on. -/
theorem advance {horizon : Nat} (h : v.Emits log) (hle : v.horizon ≤ horizon) :
    LaserView.Emits { v with horizon := horizon } log :=
  ⟨h.sound, fun e he => Nat.le_trans (h.ahead e he) (by simp only; omega), h.ends⟩

/-- The cursor takes the transitions it has reached, and moves on by one. -/
theorem tick (h : v.Emits log) :
    LaserView.Emits { v with
      lev := v.lev.dropWhile (·.idx ≤ v.shipped)
      curFire := fireAt v.lev v.curFire v.shipped
      shipped := v.shipped + 1 } log := by
  refine ⟨fun i hi hf => ?_, fun e he => ?_, fun hs => ?_⟩
  · refine h.sound i (Nat.le_of_succ_le hi) ?_
    rw [← hf]
    exact (Timeline.inForce_dropWhile (Nat.le_of_succ_le hi)).symm
  · have hold := h.ahead e ((List.dropWhile_suffix _).subset he)
    simp only at hold ⊢
    omega
  · rw [← h.ends hs]
    exact Timeline.final_dropWhile

/-- Every queued fire-on and the one in force are cleared. -/
theorem clear (h : v.Emits log) :
    LaserView.Emits { v with
      lev := v.lev.map fun e => { e with fire := false }, curFire := false } log := by
  have hoff : ∀ (lev : List LaserEv) i,
      fireAt (lev.map fun e => { e with fire := false }) false i = false := by
    intro lev i
    induction lev with
    | nil => rfl
    | cons e lev ih =>
      simp only [List.map_cons, fireAt, Timeline.inForce]
      split
      · exact ih
      · rfl
  have hfinal : ∀ lev : List LaserEv,
      Timeline.final LaserEv.fire (lev.map fun e => { e with fire := false }) false = false := by
    intro lev
    induction lev with
    | nil => rfl
    | cons e lev ih => exact ih
  refine ⟨fun i _ hf => ?_, fun e he => ?_, fun _ => hfinal _⟩
  · rw [hoff] at hf
    cases hf
  · obtain ⟨d, hd, rfl⟩ := List.mem_map.mp he
    exact h.ahead d hd

/-- **A recorded transition** that is queued, with no other ahead of it and the cursor. -/
theorem record {r : Rec} {lev : List LaserEv} {horizon : Nat} {streaming : Bool}
    (h : v.Emits log) (hput : Put r.idx r.fire v.lev lev)
    (hle : ∀ e ∈ v.lev, e.idx ≤ max r.idx v.shipped) (hidx : r.idx ≤ max horizon v.shipped)
    (hends : streaming = false → r.fire = false) :
    LaserView.Emits ⟨lev, v.curFire, v.shipped, horizon, streaming⟩ (log ++ [r]) := by
  refine ⟨fun i hi hf => ?_, fun e he => ?_, fun hs => ?_⟩
  · simp only [hput.fireAt hi hle] at hf
    rw [governs, Timeline.governing_concat]
    split at hf
    · next hle => exact ⟨r, if_pos hle, hf⟩
    · next hlt =>
      rw [if_neg hlt]
      exact h.sound i hi hf
  · simp only
    rcases hput.mem he with hold | hnew
    · have := hle e hold
      omega
    · omega
  · rw [hput.final]
    exact hends hs

/-- A recorded transition that is not queued: after a cycle that ended dark the fire state in
force is what the record says. -/
theorem restate {r : Rec} {horizon : Nat} (h : v.Emits log) (hidle : v.streaming = false)
    (hfire : v.curFire = r.fire) (hle : ∀ e ∈ v.lev, e.idx ≤ max r.idx v.shipped)
    (hidx : r.idx ≤ max horizon v.shipped) :
    LaserView.Emits { v with horizon := horizon, streaming := true } (log ++ [r]) := by
  refine ⟨fun i hi hf => ?_, fun e he => ?_, fun hs => by cases hs⟩
  · rw [governs, Timeline.governing_concat]
    split
    · next hri =>
      refine ⟨r, rfl, ?_⟩
      have hall : ∀ e ∈ v.lev, e.idx ≤ i := fun e he => by
        have := hle e he
        simp only at hi
        omega
      simp only [fireAt, Timeline.inForce_eq_final hall] at hf
      have hfinal := h.ends hidle
      cases hl : v.lev with
      | nil =>
        rw [hl] at hf
        rw [← hfire]
        exact hf
      | cons e lev =>
        rw [hl] at hf hfinal
        exact absurd (hf.symm.trans hfinal) (by decide)
    · exact h.sound i hi hf
  · have := hle e he
    simp only
    omega

end LaserView.Emits

/-! ## The producer's calls

Each writer of the queue adds its record to the log. -/

theorem levRecord_laserView (idx : Nat) (power : UInt8) (fire : Bool) (g : Gf) :
    (levRecord idx power fire g).laserView =
      { g.laserView with lev := (levRecord idx power fire g).lev } := by
  simp only [levRecord]
  split
  · split_ifs <;> rfl
  · rfl

/-- A call's transition is recorded as the log has it, or the call faults the stream. -/
theorem levRecord_emits {s : State} {log : List Rec} (power : UInt8) {r : Rec}
    (hstream : s.gf.streaming = true) (hroom : s.gf.lev.length < levN)
    (hidx : r.idx = recordIndex s.gf) (h : s.gf.laserView.Emits log) :
    (laserEventLocked power r.fire s).gf.failed = true ∨
      (laserEventLocked power r.fire s).gf.laserView.Emits (log ++ [r]) := by
  -- the queue lies before the virtual time or the cursor, so the new transition is its last
  have hhorizon : s.gf.laserView.horizon = virtualIndex s.gf := if_pos hstream
  have hle : ∀ e ∈ s.gf.lev, e.idx ≤ max r.idx s.gf.shipped := by
    intro e he
    have hahead := h.ahead e he
    rw [hhorizon] at hahead
    simp only [hidx, recordIndex]
    exact Nat.le_trans hahead (Nat.le_max_left _ _)
  have hbound : r.idx ≤ max s.gf.laserView.horizon s.gf.shipped := by
    rw [hhorizon, hidx]
    exact Nat.le_refl _
  have hnot : s.gf.streaming = false → r.fire = false := by
    rw [hstream]
    rintro ⟨⟩
  simp only [laserEventLocked, hstream, if_true]
  split
  · next hlate =>
    have hcursor : s.gf.shipped = r.idx := by
      rw [hidx, recordIndex]
      omega
    split
    · next harmed =>
      left
      change (_ || s.laserArmed) = true
      rw [show s.laserArmed = true from harmed, Bool.or_true]
    · right
      rw [levRecord_laserView, hcursor]
      exact h.record (levRecord_put (g := (clampLocked s).2.gf) r.idx power r.fire hroom) hle hbound hnot
  · next hlate =>
    have hvirtual : virtualIndex s.gf = r.idx := by
      rw [hidx, recordIndex]
      omega
    right
    rw [levRecord_laserView, hvirtual]
    exact h.record (levRecord_put r.idx power r.fire hroom) hle hbound hnot

theorem Gf.laserView_of_streaming {g : Gf} (h : g.streaming = true) :
    g.laserView = ⟨g.lev, g.curFire, g.shipped, virtualIndex g, true⟩ := by
  rw [Gf.laserView, h, if_pos rfl]

/-- A step is no transition. -/
theorem pulseLocked_laserView (b : StepByte) (s : State) :
    (pulseLocked b s).gf.laserView = s.gf.laserView := by
  unfold pulseLocked
  split
  · next hstream =>
    rw [Gf.laserView_of_streaming hstream]
    simp only [pulseAt, pulsePlace]
    split_ifs <;> exact Gf.laserView_of_streaming hstream
  · rfl

/-- **The end of a cycle** is dark, if nothing is queued beyond it. Its laser-off is then a
transition of its own at the last step's index, and the log has it there. -/
theorem goIdle_emits {g : Gf} {log : List Rec} {jog idle : Bool} (hstream : g.streaming = true)
    (hroom : g.lev.length < levN) (hlast : ∀ e ∈ g.lev, e.idx ≤ cycleEnd g)
    (h : g.laserView.Emits log) :
    (goIdleEnd g).laserView.Emits (log ++ [⟨cycleEnd g, false, jog, idle⟩]) := by
  simp only [goIdleEnd, hstream, if_true]
  by_cases hlit : g.curFire = true ∨ g.lev ≠ []
  · have hview : (goIdleDark g).curFire = g.curFire ∧ (goIdleDark g).shipped = g.shipped ∧
        (goIdleDark g).produced = g.produced := by
      simp only [goIdleDark, hlit, if_true]
      split
      · split_ifs <;> exact ⟨rfl, rfl, rfl⟩
      · exact ⟨rfl, rfl, rfl⟩
    have hput := goIdleDark_put hroom hlast hlit
    have hrec : LaserView.Emits ⟨(goIdleDark g).lev, g.curFire, g.shipped, g.produced, false⟩
        (log ++ [⟨cycleEnd g, false, jog, idle⟩]) := h.record hput
      (fun e he => Nat.le_trans (hlast e he) (Nat.le_max_left _ _)) (Nat.le_refl _) (fun _ => rfl)
    simp only [Gf.laserView, hview, Bool.false_eq_true, if_false]
    exact hrec
  · -- nothing is queued and nothing is lit: no event is needed
    simp only [not_or, Bool.not_eq_true, ne_eq, not_not] at hlit
    have hsame : goIdleDark g = g := by simp [goIdleDark, hlit]
    rw [hsame]
    exact .dark hlit.2 hlit.1

/-- The index space that a wakeup begins, before the laser state is asserted. -/
theorem wakeupIndex_emits {g : Gf} (now : Nat) {log : List Rec} (hidle : g.streaming = false)
    (h : g.laserView.Emits log) :
    let u := wakeupIndex now (wakeupClock now g)
    LaserView.Emits ⟨u.lev, u.curFire, u.shipped, u.base, false⟩
      (if g.kernelRunning then log else []) := by
  have hproduced : g.laserView.horizon = g.produced := if_neg (by rw [hidle]; decide)
  have hview : LaserView.Emits ⟨g.lev, g.curFire, g.shipped, g.produced, false⟩ log := by
    have := h
    rw [Gf.laserView, hidle] at this
    exact this
  intro u
  by_cases hkr : g.kernelRunning = true
  · rw [if_pos hkr]
    have hu : u = { wakeupContinue now (wakeupClock now g) with
        base := (wakeupContinue now (wakeupClock now g)).produced } := by
      simp only [u, wakeupIndex]
      rw [if_pos (show (wakeupClock now g).kernelRunning = true from hkr)]
    rw [hu]
    simp only [wakeupContinue]
    split
    · next hgap => exact hview.unlight.advance (Nat.le_of_lt hgap)
    · exact hview
  · rw [if_neg hkr]
    have hu : u = { wakeupFresh (wakeupClock now g) with base := g.depth } := by
      simp only [u, wakeupIndex]
      rw [if_neg (show ¬(wakeupClock now g).kernelRunning = true from hkr)]
      rfl
    rw [hu]
    exact .dark rfl rfl

/-- **A wakeup** records the core's state at its base. Where it begins the index space over, the log
of the earlier stream no longer governs any tick. -/
theorem wakeup_emits {s : State} {now : Nat} {log : List Rec} {jog idle : Bool}
    (hidle : s.gf.streaming = false) (hroom : s.gf.lev.length < levN)
    (h : s.gf.laserView.Emits log) :
    (wakeupStream now s).gf.laserView.Emits
      ((if s.gf.kernelRunning then log else []) ++
        [⟨(wakeupStream now s).gf.base, mayFire s s.gf.wantFire, jog, idle⟩]) := by
  have hbegin := wakeupIndex_emits now hidle h
  have hbase : (wakeupStream now s).gf.base = (wakeupIndex now (wakeupClock now s.gf)).base := by
    simp only [wakeupStream, wakeupAssert]
    split_ifs <;> rfl
  rw [hbase]
  have hclock : ∀ g : Gf, (wakeupIndex now (wakeupClock now g)).streaming = true ∧
      (wakeupIndex now (wakeupClock now g)).vticks = 0 ∧
      (wakeupIndex now (wakeupClock now g)).lev.length ≤ g.lev.length := by
    intro g
    simp only [wakeupIndex, wakeupContinue, wakeupFresh]
    split_ifs <;> exact ⟨rfl, rfl, by simp [wakeupClock]⟩
  obtain ⟨hstream, hvticks, hlen⟩ := hclock s.gf
  change (wakeupAssert (mayFire s s.gf.wantFire) (wakeupIndex now (wakeupClock now s.gf))).laserView.Emits _
  generalize wakeupIndex now (wakeupClock now s.gf) = u at hbegin hstream hvticks hlen ⊢
  have hvirtual : virtualIndex u = u.base := by
    rw [virtualIndex, hvticks, Nat.zero_div, Nat.add_zero]
  have hhorizon : u.laserView = ⟨u.lev, u.curFire, u.shipped, u.base, true⟩ := by
    rw [Gf.laserView_of_streaming hstream, hvirtual]
  simp only [wakeupAssert]
  split
  · rw [if_pos (show u.lev.length < levN from by omega)]
    have hview : Gf.laserView { u with
        lev := u.lev ++ [⟨u.base, u.wantPower, mayFire s s.gf.wantFire⟩] } =
        { u.laserView with lev := u.lev ++ [⟨u.base, u.wantPower, mayFire s s.gf.wantFire⟩] } := rfl
    rw [hview, hhorizon]
    exact hbegin.record (r := ⟨u.base, mayFire s s.gf.wantFire, jog, idle⟩) (.append rfl rfl)
      hbegin.ahead (Nat.le_max_left _ _) (fun hs => by cases hs)
  · next hsame =>
    simp only [not_or, ne_eq, not_not] at hsame
    rw [hhorizon]
    exact hbegin.restate (r := ⟨u.base, mayFire s s.gf.wantFire, jog, idle⟩) rfl hsame.2.symm
      hbegin.ahead (Nat.le_max_left _ _)

/-! ## The shipper

The cursor moves on, and the record that governs it with it. -/

/-- The ticks from index `lo` on that fire are governed by a record that is on. -/
def LitGoverned (log : List Rec) (lo : Nat) (ticks : List UInt8) : Prop :=
  ∀ n b, ticks[n]? = some b → lit b = true → ∃ r, governs log (lo + n) = some r ∧ r.fire = true

theorem shipTick_laserView (gate : Bool) (g : Gf) :
    (shipTick gate g).1.laserView = { g.laserView with
      lev := g.lev.dropWhile (·.idx ≤ g.shipped)
      curFire := fireAt g.lev g.curFire g.shipped
      shipped := g.shipped + 1 } := by
  have hframe : (if (shipTick gate g).1.streaming then virtualIndex (shipTick gate g).1
      else (shipTick gate g).1.produced, (shipTick gate g).1.streaming) =
      (if g.streaming then virtualIndex g else g.produced, g.streaming) :=
    (shipTick_ticked gate g).frame
      (fun g => (if g.streaming then virtualIndex g else g.produced, g.streaming)) rfl
  obtain ⟨hhorizon, hstream⟩ := Prod.mk.injEq .. ▸ hframe
  rw [Gf.laserView, shipTick_lev, shipTick_curFire, shipTick_shipped, hhorizon, hstream]
  rfl

/-- **The tick loop** keeps the invariant, and lights no tick that the log does not. -/
theorem buildTicks_emits {log : List Rec} (gate : Bool) (due : Nat) (streaming : Bool) (fuel : Nat)
    (g : Gf) (h : g.laserView.Emits log) :
    let r := buildTicks gate due streaming fuel g []
    r.1.laserView.Emits log ∧ LitGoverned log g.shipped (r.2.filter isTick) := by
  have hloop := buildTicks_induct gate due streaming
    (P := fun r chunk => r.laserView.Emits log ∧
      r.shipped = g.shipped + (chunk.filter isTick).length ∧
      LitGoverned log g.shipped (chunk.filter isTick)) ?_ fuel g []
    ⟨h, rfl, fun n b hb => by cases hb⟩
  · exact ⟨hloop.1, hloop.2.2⟩
  · rintro r chunk ⟨hemits, hcount, hlit⟩ -
    obtain ⟨fires, hticks, hfires⟩ := shipTick_ticks gate r chunk
    rw [hticks, shipTick_laserView, shipTick_shipped]
    refine ⟨hemits.tick, ?_, ?_⟩
    · rw [List.length_append, hcount]
      rfl
    · intro n b hb hl
      rw [List.getElem?_append] at hb
      split at hb
      · exact hlit n b hb hl
      · next hlen =>
        -- the tick just built is the one at the cursor
        obtain ⟨hn, hbyte⟩ := List.getElem?_eq_some_iff.mp hb
        simp only [List.length_singleton, Nat.lt_one_iff] at hn
        simp only [hn, List.getElem_singleton] at hbyte
        rw [← hbyte, lit_shippedByte] at hl
        have hindex : g.shipped + n = r.shipped := by omega
        rw [hindex]
        exact hemits.sound r.shipped (Nat.le_refl _) (hfires hl).2

theorem shipLoop_emits {log : List Rec} (p : Pass) (streaming : Bool) (s : State)
    (h : s.gf.laserView.Emits log) : (shipLoop p streaming s).gf.laserView.Emits log := by
  simp only [shipLoop]
  split
  · exact (buildTicks_emits p.gate p.due streaming shipChunk s.gf h).1
  · exact h

theorem gateEdge_emits {log : List Rec} (gate : Bool) (g : Gf) (h : g.laserView.Emits log) :
    (gateEdge gate g).laserView.Emits log := by
  simp only [gateEdge]
  split_ifs
  · exact h
  · exact h
  · exact h.clear

/-- A stream that is over ends dark: its pad takes an index behind every transition. -/
theorem endStream_emits {log : List Rec} (e : Env) (s : State) (hidle : s.gf.streaming = false)
    (hover : s.gf.produced ≤ s.gf.shipped) (h : s.gf.laserView.Emits log) :
    (endStream e s).gf.laserView.Emits log := by
  unfold endStream
  split
  · unfold endPad
    split
    · have hahead : ∀ d ∈ s.gf.lev, d.idx ≤ s.gf.shipped := by
        intro d hd
        have hle := h.ahead d hd
        simp only [Gf.laserView, hidle, Bool.false_eq_true, if_false] at hle
        omega
      have hview : (endRun e.now { darkPad e.ok s with gf := { (darkPad e.ok s).gf with
          shipped := s.gf.shipped + 1, produced := s.gf.shipped + 1, curFire := false } }).gf.laserView =
          ⟨s.gf.lev, false, s.gf.shipped + 1, s.gf.shipped + 1, false⟩ := by
        change (⟨s.gf.lev, false, s.gf.shipped + 1, if s.gf.streaming then _ else _,
          s.gf.streaming⟩ : LaserView) = _
        rw [hidle]
        rfl
      have hfinal : Timeline.final LaserEv.fire s.gf.lev false = false := h.unlight.ends hidle
      change (endRun e.now { darkPad e.ok s with gf := { (darkPad e.ok s).gf with
          shipped := s.gf.shipped + 1, produced := s.gf.shipped + 1,
          curFire := false } }).gf.laserView.Emits log
      rw [hview]
      refine ⟨fun i hi hf => ?_, fun d hd => ?_, fun _ => hfinal⟩
      · rw [fireAt, Timeline.inForce_eq_final (fun d hd => Nat.le_trans (hahead d hd)
          (Nat.le_of_succ_le hi)), hfinal] at hf
        cases hf
      · have hle := hahead d hd
        simp only
        omega
    · exact h
  · exact h

theorem shipBody_emits {log : List Rec} (e : Env) (gate : Bool) (s : State)
    (h : s.gf.laserView.Emits log) : (shipBody e gate s).gf.laserView.Emits log := by
  have hedge := gateEdge_emits gate s.gf h
  have hhold : ∀ s, (pollHold e s).gf.laserView = s.gf.laserView := by
    intro s
    simp only [pollHold]
    split_ifs <;> rfl
  simp only [shipBody, shipGated]
  split
  · next hover =>
    simp only [Bool.and_eq_true, Bool.not_eq_true', beq_iff_eq] at hover
    change (pollHold e (endStream e _)).gf.laserView.Emits log
    rw [hhold]
    exact endStream_emits e _ hover.1 (Nat.sub_eq_zero_iff_le.mp hover.2) hedge
  · split
    · exact hedge
    · exact shipLoop_emits _ _ _ hedge

/-- **A step of the shipper** keeps the invariant. Only a round moves the cursor; the other steps
darken what is queued, or leave it. -/
theorem shipStep_emits {log : List Rec} (e : Env) (s : State) (h : s.gf.laserView.Emits log) :
    (shipStep e s).gf.laserView.Emits log := by
  unfold shipStep
  split
  case h_1 =>
    simp only [pendingSnapshot, resetPad]
    split_ifs
    · exact h
    · exact h
  case h_3 => simp only [pendingSeek]; split_ifs <;> exact h
  case h_5 cleared counts zeros _ =>
    rw [(pendingDone_settled cleared counts zeros s).frame Gf.laserView rfl]
    exact h
  case h_6 => simp only [pendingOurs]; split_ifs <;> exact h
  case h_7 =>
    simp only [shipLock, faultPad]
    split_ifs
    · exact h.unlight
    · exact h
    · exact h
  case h_8 => exact shipBody_emits _ _ _ h
  case h_9 => simp only [shipWrite]; split <;> (try split_ifs) <;> exact h
  case h_10 =>
    simp only [shipWrote, shipNext]
    split_ifs
    · exact h
    · exact shipLoop_emits _ _ _ h
    · exact h
  case h_15 => simp only [issueRelight]; split_ifs <;> exact h
  case h_20 => simp only [issueEnd]; split_ifs <;> exact h
  case h_23 => simp only [shipRc]; split_ifs <;> exact h
  all_goals exact h

/-- The ticks that a step adds are governed, if the stream has not failed. -/
theorem shipStep_governed {log : List Rec} {e : Env} {s : State}
    (h : s.gf.laserView.Emits log) : LitGoverned log s.gf.shipped (newTicks s (shipStep e s)) := by
  rcases shipStep_round e s with ⟨p, u, hround, heq⟩ | ⟨pad, hpad, hdump⟩
  · have hu : u.gf.laserView.Emits log ∧ u.gf.shipped = s.gf.shipped := by
      cases hround with
      | first hpc =>
        refine ⟨gateEdge_emits _ s.gf h, ?_⟩
        simp only [anchor, gateEdge]
        split_ifs <;> rfl
      | next hpc hok => exact ⟨h, rfl⟩
    rw [heq]
    rcases newTicks_shipLoop hround with hnil | hticks
    · rw [hnil]
      intro n b hb
      cases hb
    · rw [hticks, ← hu.2]
      exact (buildTicks_emits _ _ _ _ _ hu.1).2
  · intro n b hb hl
    rw [newTicks_pad hpad hdump b (List.mem_of_getElem? hb)] at hl
    cases hl

/-! ## Runs

The invariant in every run that meets the condition, and the gap whose pads inherit a fire state. -/

/-- No cycle ends under a transition queued beyond its last step. -/
def endsBehind (s : State) : Label → Bool
  | .goIdle _ _ _ => !s.gf.streaming || s.gf.lev.all (·.idx ≤ cycleEnd s.gf)
  | _ => true

/-- What the runs keep: a record that is on was made outside a jog and ends no cycle, a pass
under way has not failed, and the queue follows the log while the stream has not failed. -/
structure EmitInv (s : State) (log : List Rec) : Prop where
  laws : ∀ r ∈ log, r.fire = true → r.jog = false ∧ r.idle = false
  locked : s.pc.holdsLock = true → s.gf.failed = false
  queue : s.gf.failed = true ∨ s.gf.laserView.Emits log

theorem recordTransition_laws {s : State} {l : Label} {log : List Rec}
    (h : ∀ r ∈ log, r.fire = true → r.jog = false ∧ r.idle = false) :
    ∀ r ∈ recordTransition s l log, r.fire = true → r.jog = false ∧ r.idle = false := by
  have hadd : ∀ (log : List Rec) (r : Rec),
      (∀ r ∈ log, r.fire = true → r.jog = false ∧ r.idle = false) →
      (r.fire = true → r.jog = false ∧ r.idle = false) →
      ∀ q ∈ log ++ [r], q.fire = true → q.jog = false ∧ q.idle = false := by
    intro log r hlog hr q hq
    rcases List.mem_append.mp hq with h1 | h1
    · exact hlog q h1
    · rw [List.mem_singleton.mp h1]
      exact hr
  unfold recordTransition
  split
  · split
    · refine hadd _ _ h fun hf => ⟨?_, rfl⟩
      simp only [mayFire, Bool.and_eq_true, Bool.not_eq_true'] at hf
      exact hf.2
    · exact h
  · split
    · refine hadd _ _ h fun hf => ⟨?_, rfl⟩
      simp only [Bool.and_eq_true, Bool.not_eq_true'] at hf
      exact hf.2
    · exact h
  · split
    · exact hadd _ _ h fun hf => by cases hf
    · exact h
  · split
    · exact h
    · refine hadd _ _ ?_ fun hf => ⟨?_, rfl⟩
      · split
        · exact h
        · exact fun r hr => absurd hr List.not_mem_nil
      · simp only [mayFire, Bool.and_eq_true, Bool.not_eq_true'] at hf
        exact hf.2
  · exact h

/-- The lock that a pass holds keeps faults out. -/
theorem step_locked {s t : State} {l : Label} (h : s.pc.holdsLock = true → s.gf.failed = false)
    (hstep : step s l = some t) : t.pc.holdsLock = true → t.gf.failed = false := by
  obtain ⟨hen, hturn⟩ := step_eq_some.mp hstep
  intro hheld
  by_cases hship : ∃ e, l = .ship e
  · obtain ⟨e, rfl⟩ := hship
    cases hturn
    have hpass : (shipStep e s).pc.inPass = true := by
      generalize (shipStep e s).pc = pc at hheld
      cases pc <;> first | rfl | cases hheld
    have hmove := shipStep_pass e s hpass
    generalize (shipStep e s).pc = pc at hheld hmove
    cases hmove with
    | sample hpc hok =>
      simp only [shipStep, hpc, shipLock, faultPad]
      split_ifs <;> exact hok
    | round => cases hheld
    | byte => cases hheld
    | wrote => cases hheld
  · rw [(turn_turned hturn fun e he => hship ⟨e, he⟩).pc] at hheld
    have hok := h hheld
    simp only [Label.enabled, Bool.and_eq_true, hheld, Bool.and_true, Bool.not_eq_true'] at hen
    cases l with
    | ship e => exact absurd ⟨e, rfl⟩ hship
    | proto =>
      simp only [turn, protoStep] at hturn
      split at hturn <;> cases hturn
      case h_6.refl rest hp => simp [hp, Owed.blocked, hheld] at hen
      case h_8.refl rest hp => simp [hp, Owed.blocked, hheld] at hen
      all_goals exact hok
    | enter c =>
      cases hturn
      simp only [enter]
      split <;> exact hok
    | resume latchOk emptied counted =>
      cases hturn
      simp only [gfStreamResume, rebaseAtTakeover]
      split_ifs <;> exact hok
    | kernel a =>
      obtain ⟨k, -, rfl⟩ := Option.map_eq_some_iff.mp hturn
      exact hok
    | advance | cyclesPerTick | laserArm | fireGate | faultTake | laserLatch | foreign =>
      cases hturn
      exact hok
    | _ => simp [Label.needsLock] at hen

/-- A reset ends every transition, or finds nothing to end. -/
theorem reset_emits {s : State} {log : List Rec} (now : Nat)
    (h : s.gf.failed = true ∨ s.gf.laserView.Emits log) :
    (gfStreamReset now s).gf.laserView.Emits log := by
  have hstream : ∀ killed (g : Gf), (resetStream now killed g).lev = [] ∧
      (resetStream now killed g).curFire = false := by
    intro killed g
    simp only [resetStream, resetReadback, resetRun]
    split_ifs <;> exact ⟨rfl, rfl⟩
  simp only [gfStreamReset, resetLocked]
  by_cases hfailed : s.gf.failed = true
  · rw [if_pos hfailed]
    exact .dark rfl rfl
  · rw [if_neg hfailed]
    by_cases hends : resetEnds s.gf = true
    · rw [if_pos hends]
      exact .dark (hstream _ _).1 (hstream _ _).2
    · rw [if_neg hends]
      exact h.resolve_left hfailed

/-- **One call** is queued as the log has it, or the call faults the stream. -/
theorem locked_queue {s : State} {c : Call} {now : Nat} {log : List Rec}
    (hroom : s.gf.lev.length < levN) (h : s.gf.laserView.Emits log) :
    (c.locked now s).gf.failed = true ∨
      (c.locked now s).gf.laserView.Emits (recordTransition s (.locked c now) log) := by
  cases c with
  | wakeup =>
    right
    simp only [Call.locked, recordTransition, wakeupLocked]
    split
    · exact h
    · next hidle =>
      exact wakeup_emits (s := wakeupMark s) (Bool.not_eq_true _ ▸ hidle) hroom h
  | pulse stepBits dirBits =>
    right
    rw [Call.locked, pulseLocked_laserView]
    exact h
  | laser power fire =>
    simp only [Call.locked, recordTransition]
    split
    · next hstream =>
      exact levRecord_emits (r := ⟨recordIndex s.gf, mayFire s fire, s.gf.jogging, false⟩) _
        (s := { s with gf := { s.gf with wantPower := power &&& 0x7f, wantFire := fire } })
        hstream hroom rfl h
    · next hidle =>
      right
      rw [laserLocked, laserEventLocked, if_neg hidle]
      exact h
  | jog on =>
    simp only [Call.locked, recordTransition]
    split
    · next hstream =>
      exact levRecord_emits
        (r := ⟨recordIndex s.gf, s.gf.wantFire && s.laserArmed && !on, on, false⟩) _
        (s := { s with gf := { s.gf with jogging := on } }) hstream hroom rfl h
    · next hidle =>
      right
      rw [jogLocked, laserEventLocked, if_neg hidle]
      exact h

theorem goIdle_queue {s : State} {reset : Bool} {stepBits dirBits : UInt8} {log : List Rec}
    (hroom : s.gf.lev.length < levN)
    (hbehind : endsBehind s (.goIdle reset stepBits dirBits) = true)
    (h : s.gf.laserView.Emits log) :
    (gfStreamGoIdle reset stepBits dirBits s).gf.laserView.Emits
      (recordTransition s (.goIdle reset stepBits dirBits) log) := by
  have hmark : ∀ b, (goIdleMark reset b s.gf).laserView = s.gf.laserView ∧
      (goIdleMark reset b s.gf).streaming = s.gf.streaming ∧
      (goIdleMark reset b s.gf).lev = s.gf.lev ∧
      cycleEnd (goIdleMark reset b s.gf) = cycleEnd s.gf := by
    intro b
    simp only [goIdleMark]
    split <;> exact ⟨rfl, rfl, rfl, rfl⟩
  obtain ⟨hview, hstreaming, hlev, hend⟩ := hmark (pulseByte stepBits dirBits)
  simp only [gfStreamGoIdle, recordTransition]
  rw [← hview] at h
  split
  · next hstream =>
    simp only [endsBehind, hstream, Bool.not_true, Bool.false_or, List.all_eq_true,
      decide_eq_true_eq] at hbehind
    rw [← hend]
    refine goIdle_emits (hstreaming.trans hstream) (hlev ▸ hroom) ?_ h
    rw [hlev, hend]
    exact hbehind
  · next hidle =>
    rw [goIdleEnd, if_neg (hstreaming ▸ hidle)]
    exact h

/-- The virtual clock runs on, and with it the horizon. -/
theorem advance_emits {g : Gf} {log : List Rec} (h : g.laserView.Emits log) :
    Gf.laserView { g with vticks := g.vticks + g.periodLatched } |>.Emits log := by
  by_cases hstream : g.streaming = true
  · rw [Gf.laserView_of_streaming hstream] at h
    rw [Gf.laserView_of_streaming (g := { g with vticks := g.vticks + g.periodLatched }) hstream]
    refine h.advance ?_
    simp only [virtualIndex]
    exact Nat.add_le_add_left (Nat.div_le_div_right (Nat.le_add_right _ _)) _
  · have hview : Gf.laserView { g with vticks := g.vticks + g.periodLatched } = g.laserView := by
      simp only [Gf.laserView, hstream]
      rfl
    rw [hview]
    exact h

/-- **One step of a run** keeps the queue in line with the log, or the stream has failed. -/
theorem turn_queue {s t : State} {l : Label} {log : List Rec} (hroom : s.gf.lev.length < levN)
    (hbehind : endsBehind s l = true) (hturn : turn s l = some t)
    (h : s.gf.failed = true ∨ s.gf.laserView.Emits log) :
    t.gf.failed = true ∨ t.gf.laserView.Emits (recordTransition s l log) := by
  by_cases hreset : ∃ now, l = .reset now
  · obtain ⟨now, rfl⟩ := hreset
    cases hturn
    exact .inr (reset_emits now h)
  by_cases hproto : l = .proto
  · subst hproto
    simp only [turn, protoStep] at hturn
    split at hturn <;> cases hturn
    case h_6.refl => exact .inl rfl
    case h_8.refl => exact .inr (.dark rfl rfl)
    all_goals exact h
  rcases h with hfailed | hemits
  · exact .inl (turn_failed hturn (fun now he => hreset ⟨now, he⟩) (fun he => absurd he hproto) hfailed)
  cases l with
  | reset now => exact absurd ⟨now, rfl⟩ hreset
  | proto => exact absurd rfl hproto
  | locked c now =>
    cases hturn
    have hlog : recordTransition { s with entered := s.entered.erase c } (.locked c now) log =
        recordTransition s (.locked c now) log := by
      cases c with
      | wakeup =>
        simp only [recordTransition, wakeupLocked]
        split <;> rfl
      | _ => rfl
    rw [← hlog]
    exact locked_queue hroom hemits
  | ship e =>
    cases hturn
    exact .inr (shipStep_emits e s hemits)
  | advance =>
    cases hturn
    exact .inr (advance_emits hemits)
  | goIdle reset stepBits dirBits =>
    cases hturn
    exact .inr (goIdle_queue hroom hbehind hemits)
  | kernel a =>
    obtain ⟨k, -, rfl⟩ := Option.map_eq_some_iff.mp hturn
    exact .inr hemits
  | enter c =>
    cases hturn
    right
    simp only [enter]
    split <;> exact hemits
  | laserModel p m =>
    cases hturn
    right
    simp only [gfStreamLaserModel, ditherReset]
    split_ifs <;> exact hemits
  | readback expired =>
    cases hturn
    right
    simp only [gfStreamReadback]
    split <;> exact hemits
  | clearPosition ok =>
    cases hturn
    right
    simp only [gfStreamClearPosition, rebaseLocked]
    split_ifs <;> exact hemits
  | suspend readOk =>
    cases hturn
    right
    simp only [gfStreamSuspend]
    split_ifs <;> exact hemits
  | resume latchOk emptied counted =>
    cases hturn
    right
    simp only [gfStreamResume, rebaseAtTakeover, rebaseLocked]
    split_ifs <;> exact hemits
  | _ =>
    cases hturn
    exact .inr hemits

theorem step_emits {s t : State} {l : Label} {log : List Rec} (h : EmitInv s log)
    (hroom : s.gf.lev.length < levN) (hbehind : endsBehind s l = true)
    (hstep : step s l = some t) : EmitInv t (recordTransition s l log) :=
  ⟨recordTransition_laws h.laws, step_locked h.locked hstep,
    turn_queue hroom hbehind (step_eq_some.mp hstep).2 h.queue⟩

theorem init_emits (c : Config) (k : Kernel) (emptied counted : Bool) :
    EmitInv (State.init c k emptied counted) [] := by
  refine ⟨fun r hr => absurd hr List.not_mem_nil, by rintro ⟨⟩, .inr ?_⟩
  simp only [State.init, rebaseAtTakeover]
  split_ifs <;> exact .dark rfl rfl

/-- **Emission soundness.** In every run in which the transition queue has room and no cycle
ends under a transition queued beyond its last step: a tick that ships lit is governed by a
record that is on. Such a record ends no cycle and was made outside a jog, so no pad of a gap
and no tick of a jog is lit. -/
theorem emission_sound {c : Config} {k : Kernel} {emptied counted : Bool} {s t : State}
    {log : List Rec} {e : Env}
    (hrun : Runs.Reach (Runs.observe step recordTransition)
      (fun x l => x.1.gf.lev.length < levN ∧ endsBehind x.1 l = true)
      (State.init c k emptied counted, []) (s, log))
    (hstep : step s (.ship e) = some t) :
    ∀ n b, (newTicks s t)[n]? = some b → lit b = true →
      ∃ r, governs log (s.gf.shipped + n) = some r ∧ r.fire = true ∧ r.jog = false ∧
        r.idle = false := by
  have hinv : EmitInv s log :=
    Runs.Reach.invariant_observe (fun s l => s.gf.lev.length < levN ∧ endsBehind s l = true) hrun
      (init_emits c k emptied counted)
      (fun s log l u hs hok hu => step_emits hs hok.1 hok.2 hu)
  obtain ⟨-, hturn⟩ := step_eq_some.mp hstep
  cases hturn
  intro n b hb hlit
  rcases hinv.queue with hfailed | hemits
  · -- a failed stream ships no round, only dark pads
    rcases shipStep_round e s with ⟨p, u, hround, -⟩ | ⟨pad, hpad, hdump⟩
    · have hok : s.gf.failed = false := by
        cases hround with
        | first hpc => exact hinv.locked (hpc ▸ rfl)
        | next hpc hok => exact hok
      rw [hok] at hfailed
      cases hfailed
    · rw [newTicks_pad hpad hdump b (List.mem_of_getElem? hb)] at hlit
      cases hlit
  · obtain ⟨r, hr, hfire⟩ := shipStep_governed hemits n b hb hlit
    exact ⟨r, hr, hfire, hinv.laws r (Timeline.mem_of_governing hr) hfire⟩

/-- A cycle with the laser on from its base, one step one tick behind it. -/
def litCycle : List Label :=
  [.laserArm true, .fireGate true, .enter .wakeup, .locked .wakeup 0,
    .enter (.laser 127 true), .locked (.laser 127 true) 0,
    .advance, .enter (.pulse 0x01 0x00), .locked (.pulse 0x01 0x00) 0]

/-- The theorem at a tick that ships lit: the first one of the cycle. -/
theorem emission_sound_lit :
    ∃ s t b log, (newTicks s t)[0]? = some b ∧ lit b = true ∧
      ∃ r, governs log (s.gf.shipped + 0) = some r ∧ r.fire = true ∧ r.jog = false ∧
        r.idle = false := by
  have hrun : ∃ x : State × List Rec,
      Runs.Reach (Runs.observe step recordTransition)
        (fun x l => x.1.gf.lev.length < levN ∧ endsBehind x.1 l = true)
        (State.init (slowConfig false) idleKernel true true, []) x ∧
      (step x.1 (.ship { later := 3000000 })).any
        (fun t => (newTicks x.1 t)[0]?.any lit) = true :=
    Runs.exists_reach_of_exec (litCycle ++ List.replicate 9 (Label.ship {})) (by decide +kernel)
  obtain ⟨⟨s, log⟩, hreach, hnext⟩ := hrun
  obtain ⟨t, hstep, hfirst⟩ := (Option.any_eq_true _ _).mp hnext
  obtain ⟨b, hb, hlit⟩ := (Option.any_eq_true _ _).mp hfirst
  exact ⟨s, t, b, log, hb, hlit, emission_sound hreach hstep 0 b hb hlit⟩

/-- **A pad of the gap can fire.** The core asks for another power ten ticks past the cycle's
last step, and the cycle ends: its laser-off lands on that transition and not behind the last
step. The next cycle begins in between, and the pads up to its base ship lit. -/
theorem gap_pad_fires :
    ∃ s t log e n b r, Runs.Reach (Runs.observe step recordTransition)
        (fun x _ => x.1.gf.lev.length < levN)
        (State.init (slowConfig false) idleKernel true true, []) (s, log) ∧
      step s (.ship e) = some t ∧ (newTicks s t)[n]? = some b ∧ lit b = true ∧
      governs log (s.gf.shipped + n) = some r ∧ r.fire = false ∧ r.idle = true := by
  have hrun : ∃ x : State × List Rec,
      Runs.Reach (Runs.observe step recordTransition) (fun x _ => x.1.gf.lev.length < levN)
        (State.init (slowConfig false) idleKernel true true, []) x ∧
      ((governs x.2 (x.1.gf.shipped + 2)).any (fun r => !r.fire && r.idle) = true ∧
        (step x.1 (.ship { later := 6000000 })).any
          (fun t => (newTicks x.1 t)[2]?.any lit) = true) :=
    Runs.exists_reach_of_exec
      (litCycle ++ List.replicate 9 Label.advance ++
        [Label.enter (.laser 64 true), .locked (.laser 64 true) 0, .goIdle false 0 0] ++
        List.replicate 7 (Label.ship {}) ++ [Label.enter .wakeup, .locked .wakeup 6000000] ++
        List.replicate 2 (Label.ship {}))
      (by decide +kernel)
  obtain ⟨⟨s, log⟩, hreach, hgov, hnext⟩ := hrun
  obtain ⟨r, hr, hoff⟩ := (Option.any_eq_true _ _).mp hgov
  obtain ⟨t, hstep, htick⟩ := (Option.any_eq_true _ _).mp hnext
  obtain ⟨b, hb, hlit⟩ := (Option.any_eq_true _ _).mp htick
  simp only [Bool.and_eq_true, Bool.not_eq_true'] at hoff
  exact ⟨s, t, log, _, 2, b, r, hreach, hstep, hb, hlit, hr, hoff.1, hoff.2⟩

end Glowforge.Stream
