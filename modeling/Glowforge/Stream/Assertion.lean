import Glowforge.Stream.Emission
import Glowforge.Stream.Gate

/-!
# Glowforge — fire returns by an assertion

When a pass samples the fall of the gate, it clears the fire state in flight and every queued fire-on.
What is lit behind it has been written since:

* **`Call.transition`** — the transition that a call writes into the queue.
* **`Asserted`** — the fire-ons written since the gate was sampled, and the transition in force.
* **`AssertInv`** — every queued fire-on and the one in force are among them.
* **`lit_needs_assertion`** — so is the transition that governs a lit tick, in every run.

A fire-on written under a gate that is closed already is such an assertion, and lights when the gate
rises (`lit_behind_closed_sample`).
-/

namespace Glowforge.Stream

/-! ## The history

The fire-ons written since the gate was sampled, kept beside the run. A sample that falls empties
the list. -/

/-- A call at the current virtual time writes a transition: in a live stream, and not behind the cursor
of an armed one. -/
def recordsNow (s : State) : Bool :=
  s.gf.streaming && !(decide (virtualIndex s.gf < s.gf.shipped) && s.laserArmed)

/-- The transition that a call writes: the newest of the queue behind it. -/
def Call.transition (now : Nat) (s : State) : Call → Option LaserEv
  | .wakeup =>
    let u := wakeupIndex now (wakeupClock now (wakeupMark s).gf)
    let fire := mayFire s s.gf.wantFire
    if !s.gf.streaming && (u.wantPower != u.curPower || fire != u.curFire) && u.lev.length < levN then
      some ⟨u.base, u.wantPower, fire⟩
    else none
  | .pulse _ _ => none
  | .laser power fire => if recordsNow s then (laserLocked power fire s).gf.lev.getLast? else none
  | .jog on => if recordsNow s then (jogLocked on s).gf.lev.getLast? else none

/-- The queue as the ticks of a step find it. -/
def tickedQueue (s : State) : List LaserEv :=
  match s.pc with
  | .sampled gate => (gateEdge gate s.gf).lev
  | _ => s.gf.lev

/-- The transition in force once the cursor has come from `lo` to `hi`. -/
def lastTaken (lev : List LaserEv) (last : Option LaserEv) (lo hi : Nat) : Option LaserEv :=
  if hi ≤ lo then last else Timeline.inForce LaserEv.idx some lev last (hi - 1)

structure Asserted where
  -- The fire-ons written since the last sample that counts, as they stood in the queue.
  since : List LaserEv := []
  -- The transition in force at the last tick shipped.
  last : Option LaserEv := none

/-- The step samples the gate, and the sample counts. -/
def samples (counts : Bool → Gf → Bool) (s : State) : Bool :=
  match s.pc with
  | .sampled gate => counts gate s.gf
  | _ => false

/-- The history, with the samples that begin it anew. -/
def Asserted.record (counts : Bool → Gf → Bool) (s : State) (l : Label) (h : Asserted) : Asserted :=
  match l with
  | .locked c now => { h with since := h.since ++ (c.transition now s).toList.filter (·.fire) }
  | .ship e =>
    { since := if samples counts s then [] else h.since
      last := lastTaken (tickedQueue s) h.last s.gf.shipped (shipStep e s).gf.shipped }
  | _ => h

/-- The gate is sampled closed where the last pass sampled it open. -/
def falls (gate : Bool) (g : Gf) : Bool := !gate && g.gateSeen

/-! ## What is lit

A queued fire-on, or the one in force, is among the recent ones. Operations that only dim keep that
whatever they are. -/

/-- Every queued fire-on and the fire state in force come from `since`. -/
structure LitSince (since : List LaserEv) (last : Option LaserEv) (g : Gf) : Prop where
  queued : ∀ e ∈ g.lev, e.fire = true → e ∈ since
  inForce : g.curFire = true → ∃ e ∈ since, last = some e ∧ e.fire = true

/-- Nothing more is lit in `r` than in `g`. -/
structure Gf.Dims (g r : Gf) : Prop where
  queued : ∀ e ∈ r.lev, e.fire = true → e ∈ g.lev
  inForce : r.curFire = true → g.curFire = true

namespace LitSince

variable {since : List LaserEv} {last : Option LaserEv} {g r : Gf}

theorem dims (h : LitSince since last g) (hdims : g.Dims r) : LitSince since last r :=
  ⟨fun e he hf => h.queued e (hdims.queued e he hf) hf, fun hf => h.inForce (hdims.inForce hf)⟩

/-- A dark cursor may stand behind any transition. -/
theorem dark (h : ∀ e ∈ g.lev, e.fire = true → e ∈ since) (hdark : g.curFire = false) :
    LitSince since last g :=
  ⟨h, fun hf => by rw [hdark] at hf; cases hf⟩

theorem grow (h : LitSince since last g) (more : List LaserEv) : LitSince (since ++ more) last g where
  queued := fun e he hf => List.mem_append_left _ (h.queued e he hf)
  inForce := fun hf => by
    obtain ⟨e, he, hlast⟩ := h.inForce hf
    exact ⟨e, List.mem_append_left _ he, hlast⟩

/-- **The governing transition of a lit tick** is one of them. -/
theorem governs (h : LitSince since last g) {i : Nat} (hfire : fireAt g.lev g.curFire i = true) :
    ∃ e ∈ since, Timeline.inForce LaserEv.idx some g.lev last i = some e ∧ e.fire = true := by
  obtain ⟨hqueued, hforce⟩ := h
  generalize g.curFire = cur at hforce hfire
  generalize g.lev = lev at hqueued hfire
  induction lev generalizing last cur with
  | nil => exact hforce hfire
  | cons e lev ih =>
    simp only [fireAt, Timeline.inForce] at hfire ⊢
    split at hfire
    · next hidx =>
      rw [if_pos hidx]
      refine ih e.fire (fun hf => ?_) (fun d hd => hqueued d (List.mem_cons_of_mem _ hd)) hfire
      exact ⟨e, hqueued e List.mem_cons_self hf, rfl, hf⟩
    · next hidx =>
      rw [if_neg hidx]
      exact hforce hfire

end LitSince

/-! ## The tick loop

The walk of the cursor over the queue: what is in force behind a tick was in force or was queued
before it. -/

/-- The loop has come from the cursor `lo` to `g`, with the queue `lev` and the transition `last` in force
at its beginning. -/
structure Walk (since lev : List LaserEv) (last : Option LaserEv) (lo : Nat) (g : Gf) : Prop where
  le : lo ≤ g.shipped
  lit : LitSince since (lastTaken lev last lo g.shipped) g
  ahead : ∀ i, g.shipped ≤ i → Timeline.inForce LaserEv.idx some g.lev
    (lastTaken lev last lo g.shipped) i = Timeline.inForce LaserEv.idx some lev last i

theorem Walk.begin {since : List LaserEv} {last : Option LaserEv} {g : Gf} (h : LitSince since last g) :
    Walk since g.lev last g.shipped g := by
  have hlast : lastTaken g.lev last g.shipped g.shipped = last := if_pos (Nat.le_refl _)
  refine ⟨Nat.le_refl _, ?_, fun i _ => ?_⟩
  · rwa [hlast]
  · rw [hlast]

theorem Walk.tick {since lev : List LaserEv} {last : Option LaserEv} {lo : Nat} {g : Gf}
    (h : Walk since lev last lo g) (gate : Bool) : Walk since lev last lo (shipTick gate g).1 := by
  have hnext : lastTaken lev last lo (g.shipped + 1) =
      Timeline.inForce LaserEv.idx some g.lev (lastTaken lev last lo g.shipped) g.shipped := by
    have hle := h.le
    rw [h.ahead g.shipped (Nat.le_refl _)]
    exact if_neg (by omega)
  constructor
  · rw [shipTick_shipped]
    exact Nat.le_succ_of_le h.le
  · rw [shipTick_shipped, hnext]
    constructor
    · intro e he
      rw [shipTick_lev] at he
      exact h.lit.queued e ((List.dropWhile_suffix _).subset he)
    · rw [shipTick_curFire]
      exact fun hf => h.lit.governs hf
  · intro i hi
    rw [shipTick_shipped] at hi ⊢
    rw [hnext, shipTick_lev, Timeline.inForce_dropWhile (Nat.le_of_succ_le hi)]
    exact h.ahead i (Nat.le_of_succ_le hi)

/-- **The loop** lights a tick only where its governing transition is one of `since`. -/
theorem buildTicks_since {since : List LaserEv} {last : Option LaserEv} (gate : Bool) (due : Nat)
    (streaming : Bool) (fuel : Nat) {g : Gf} (h : LitSince since last g) :
    let r := buildTicks gate due streaming fuel g []
    Walk since g.lev last g.shipped r.1 ∧
      ∀ n b, (r.2.filter isTick)[n]? = some b → lit b = true →
        ∃ e ∈ since, Timeline.inForce LaserEv.idx some g.lev last (g.shipped + n) = some e ∧ e.fire = true := by
  have hloop := buildTicks_induct gate due streaming
    (P := fun r chunk => Walk since g.lev last g.shipped r ∧
      r.shipped = g.shipped + (chunk.filter isTick).length ∧
      ∀ n b, (chunk.filter isTick)[n]? = some b → lit b = true →
        ∃ e ∈ since, Timeline.inForce LaserEv.idx some g.lev last (g.shipped + n) = some e ∧ e.fire = true)
    ?_ fuel g [] ⟨.begin h, rfl, fun n b hb => by cases hb⟩
  · exact ⟨hloop.1, hloop.2.2⟩
  · rintro r chunk ⟨hwalk, hcount, hlit⟩ -
    obtain ⟨fires, hticks, hfires⟩ := shipTick_ticks gate r chunk
    rw [hticks, shipTick_shipped]
    refine ⟨hwalk.tick gate, ?_, ?_⟩
    · rw [List.length_append, hcount]
      rfl
    · intro n b hb hl
      rw [List.getElem?_append] at hb
      split at hb
      · exact hlit n b hb hl
      · next hlen =>
        -- the tick just built is the one at the cursor
        obtain ⟨hn, hbyte⟩ := List.getElem?_eq_some_iff.mp hb
        simp only [List.length_singleton, Nat.lt_one_iff] at hn
        simp only [hn, List.getElem_singleton] at hbyte
        rw [← hbyte, lit_shippedByte] at hl
        have hindex : g.shipped + n = r.shipped := by omega
        obtain ⟨e, he, hforce, hon⟩ := hwalk.lit.governs (hfires hl).2
        rw [hwalk.ahead r.shipped (Nat.le_refl _)] at hforce
        exact ⟨e, he, hindex ▸ hforce, hon⟩

theorem shipLoop_since {since : List LaserEv} {last : Option LaserEv} (p : Pass) (streaming : Bool)
    {s : State} (h : LitSince since last s.gf) :
    LitSince since (lastTaken s.gf.lev last s.gf.shipped (shipLoop p streaming s).gf.shipped)
      (shipLoop p streaming s).gf := by
  simp only [shipLoop]
  split
  · obtain ⟨hqueued, hforce⟩ := (buildTicks_since p.gate p.due streaming shipChunk h).1.lit
    exact ⟨hqueued, hforce⟩
  · rw [show lastTaken s.gf.lev last s.gf.shipped (shipFinish p s).gf.shipped = last from
      if_pos (Nat.le_refl _)]
    exact h

/-! ## The other steps

The fall of the gate darkens the queue, and the ends of a stream darken it as well. -/

theorem gateEdge_since {since : List LaserEv} {last : Option LaserEv} {gate : Bool} {g : Gf}
    (h : LitSince since last g) :
    LitSince (if falls gate g then [] else since) last (gateEdge gate g) := by
  by_cases hsame : gate = g.gateSeen
  · have hnone : falls gate g = false := by
      rw [falls, hsame]
      cases g.gateSeen <;> rfl
    rw [gateEdge, if_pos hsame, hnone]
    exact h
  · rw [gateEdge, if_neg hsame]
    cases gate with
    | true => exact ⟨h.queued, h.inForce⟩
    | false =>
      constructor
      · intro e he hf
        obtain ⟨d, -, rfl⟩ := List.mem_map.mp he
        cases hf
      · rintro ⟨⟩

theorem gateEdge_shipped (gate : Bool) (g : Gf) : (gateEdge gate g).shipped = g.shipped := by
  simp only [gateEdge]
  split_ifs <;> rfl

/-- A queue that is kept or dropped, and a fire state that is kept or goes off. -/
theorem Gf.Dims.of {g r : Gf} (hlev : r.lev = g.lev ∨ r.lev = [])
    (hfire : r.curFire = g.curFire ∨ r.curFire = false) : g.Dims r := by
  constructor
  · intro e he _
    rcases hlev with hsame | hnil
    · rwa [hsame] at he
    · rw [hnil] at he
      cases he
  · intro hf
    rcases hfire with hsame | hoff
    · rwa [hsame] at hf
    · rw [hoff] at hf
      cases hf

/-- The end of a cycle writes an off. -/
theorem goIdleDark_dims (g : Gf) : g.Dims (goIdleDark g) := by
  have hoff : ∀ (lev : List LaserEv) (d : LaserEv), (∀ e ∈ lev, e ∈ g.lev) → d.fire = false →
      ∀ e ∈ lev ++ [d], e.fire = true → e ∈ g.lev := by
    intro lev d hsub hdark e he hf
    rcases List.mem_append.mp he with hold | hnew
    · exact hsub e hold
    · rw [List.mem_singleton.mp hnew, hdark] at hf
      cases hf
  constructor
  · simp only [goIdleDark]
    generalize (if g.produced > g.shipped then g.produced else g.shipped) = idx
    split
    · split
      · split
        · next t _ _ => exact hoff _ { t with fire := false } (fun e he => List.mem_of_mem_dropLast he) rfl
        · next t _ _ => exact hoff _ ⟨_, t.power, false⟩ (fun e he => he) rfl
      · exact hoff [] ⟨_, g.curPower, false⟩ (by rintro _ ⟨⟩) rfl
    · exact fun e he _ => he
  · simp only [goIdleDark]
    split
    · split
      · split_ifs <;> exact id
      · exact id
    · exact id

theorem goIdle_dims (reset : Bool) (stepBits dirBits : UInt8) (s : State) :
    s.gf.Dims (gfStreamGoIdle reset stepBits dirBits s).gf := by
  have hmark : s.gf.Dims (goIdleMark reset (pulseByte stepBits dirBits) s.gf) := by
    simp only [goIdleMark]
    split <;> exact .of (.inl rfl) (.inl rfl)
  have hend : ∀ g : Gf, g.Dims (goIdleEnd g) := by
    intro g
    simp only [goIdleEnd]
    split
    · obtain ⟨hqueued, hforce⟩ := goIdleDark_dims g
      exact ⟨hqueued, hforce⟩
    · exact .of (.inl rfl) (.inl rfl)
  have hended := hend (goIdleMark reset (pulseByte stepBits dirBits) s.gf)
  exact ⟨fun e he hf => hmark.queued e (hended.queued e he hf) hf, fun hf => hmark.inForce (hended.inForce hf)⟩

theorem resetStream_dark (now : Nat) (killed : Bool) (g : Gf) :
    (resetStream now killed g).lev = [] ∧ (resetStream now killed g).curFire = false := by
  simp only [resetStream, resetReadback, resetRun]
  split_ifs <;> exact ⟨rfl, rfl⟩

theorem resetLocked_dims (now : Nat) (g : Gf) : g.Dims (resetLocked now g) := by
  by_cases hf : g.failed = true
  · rw [resetLocked, if_pos hf]
    exact .of (.inr rfl) (.inr rfl)
  · rw [resetLocked, if_neg hf]
    by_cases hends : resetEnds g = true
    · rw [if_pos hends]
      obtain ⟨hlev, hfire⟩ := resetStream_dark now g.killed { g with killed := false, readback := .none }
      exact .of (.inr hlev) (.inr hfire)
    · rw [if_neg hends]
      exact .of (.inl rfl) (.inl rfl)

/-- **Nothing else is lit** but by a call. -/
theorem turn_dims {s t : State} {l : Label} (hturn : turn s l = some t) (hship : ∀ e, l ≠ .ship e)
    (hcall : ∀ c now, l ≠ .locked c now) : s.gf.Dims t.gf := by
  cases l with
  | ship e => exact absurd rfl (hship e)
  | locked c now => exact absurd rfl (hcall c now)
  | goIdle reset stepBits dirBits =>
    cases hturn
    exact goIdle_dims _ _ _ s
  | laserModel p m =>
    cases hturn
    obtain ⟨power, period, least, hmodel⟩ := laserModel_frame p m s.gf
    rw [hmodel]
    exact .of (.inl rfl) (.inl rfl)
  | reset now =>
    cases hturn
    exact resetLocked_dims now s.gf
  | enter c =>
    cases hturn
    simp only [enter]
    split <;> exact .of (.inl rfl) (.inl rfl)
  | readback expired =>
    cases hturn
    simp only [gfStreamReadback]
    split <;> exact .of (.inl rfl) (.inl rfl)
  | clearPosition ok =>
    cases hturn
    simp only [gfStreamClearPosition]
    split_ifs <;> exact .of (.inl rfl) (.inl rfl)
  | suspend readOk =>
    cases hturn
    simp only [gfStreamSuspend]
    split_ifs <;> exact .of (.inl rfl) (.inl rfl)
  | resume latchOk emptied counted =>
    cases hturn
    simp only [gfStreamResume, rebaseAtTakeover]
    split_ifs <;> exact .of (.inl rfl) (.inl rfl)
  | proto =>
    simp only [turn, protoStep] at hturn
    split at hturn <;> cases hturn
    case h_8.refl rest hp => exact .of (.inr rfl) (.inr rfl)
    all_goals exact .of (.inl rfl) (.inl rfl)
  | kernel a =>
    obtain ⟨k, -, rfl⟩ := Option.map_eq_some_iff.mp hturn
    exact .of (.inl rfl) (.inl rfl)
  | _ =>
    cases hturn
    exact .of (.inl rfl) (.inl rfl)

/-! ## The calls

A call that writes a fire-on makes an assertion of it. -/

/-- A record writes one transition, the newest behind it. -/
theorem levRecord_newest (idx : Nat) (power : UInt8) (fire : Bool) (g : Gf) :
    ∀ e ∈ (levRecord idx power fire g).lev, e ∈ g.lev ∨ (levRecord idx power fire g).lev.getLast? = some e := by
  have hput : ∀ (lev : List LaserEv) (d : LaserEv), (∀ e ∈ lev, e ∈ g.lev) →
      ∀ e ∈ lev ++ [d], e ∈ g.lev ∨ (lev ++ [d]).getLast? = some e := by
    intro lev d hsub e he
    rcases List.mem_append.mp he with hold | hnew
    · exact .inl (hsub e hold)
    · right
      rw [List.mem_singleton.mp hnew, List.getLast?_concat]
  simp only [levRecord]
  split
  · split_ifs
    · exact hput _ _ fun e he => List.mem_of_mem_dropLast he
    · exact hput _ _ fun e he => List.mem_of_mem_dropLast he
    · exact hput _ _ fun e he => he
  · exact hput [] _ (by rintro _ ⟨⟩)

theorem levRecord_curFire (idx : Nat) (power : UInt8) (fire : Bool) (g : Gf) :
    (levRecord idx power fire g).curFire = g.curFire := by
  obtain ⟨lev, warned, hrec⟩ := levRecord_frame idx power fire g
  rw [hrec]

/-- A transition at the virtual time, or none. -/
theorem laserEventLocked_newest (power : UInt8) (fire : Bool) (s : State) :
    (laserEventLocked power fire s).gf.curFire = s.gf.curFire ∧
    ∀ e ∈ (laserEventLocked power fire s).gf.lev, e ∈ s.gf.lev ∨
      recordsNow s = true ∧ (laserEventLocked power fire s).gf.lev.getLast? = some e := by
  simp only [laserEventLocked]
  split
  · next hstream =>
    split
    · next hlate =>
      split
      · exact ⟨rfl, fun e he => .inl he⟩
      · next hdisarmed =>
        have hrecords : recordsNow s = true := by
          have harmed : s.laserArmed = false := Bool.eq_false_iff.mpr hdisarmed
          simp [recordsNow, hstream, harmed]
        refine ⟨levRecord_curFire _ _ _ _, fun e he => ?_⟩
        exact (levRecord_newest _ _ _ (clampLocked s).2.gf e he).imp_right fun h => ⟨hrecords, h⟩
    · next hahead =>
      have hrecords : recordsNow s = true := by simp [recordsNow, hstream, hahead]
      refine ⟨levRecord_curFire _ _ _ _, fun e he => ?_⟩
      exact (levRecord_newest _ _ _ s.gf e he).imp_right fun h => ⟨hrecords, h⟩
  · exact ⟨rfl, fun e he => .inl he⟩

/-- A wakeup keeps or drops what is queued, and then asserts the core's state. -/
theorem wakeupStream_newest (now : Nat) (s : State) (hidle : ¬s.gf.streaming = true) :
    ((wakeupStream now (wakeupMark s)).gf.curFire = true → s.gf.curFire = true) ∧
    ∀ e ∈ (wakeupStream now (wakeupMark s)).gf.lev, e ∈ s.gf.lev ∨
      Call.wakeup.transition now s = some e := by
  have hindex : ((wakeupIndex now (wakeupClock now (wakeupMark s).gf)).curFire = true → s.gf.curFire = true) ∧
      ∀ e ∈ (wakeupIndex now (wakeupClock now (wakeupMark s).gf)).lev, e ∈ s.gf.lev := by
    simp only [wakeupIndex, wakeupContinue, wakeupFresh]
    split_ifs
    · exact ⟨by rintro ⟨⟩, fun e he => he⟩
    · exact ⟨id, fun e he => he⟩
    · exact ⟨by rintro ⟨⟩, by rintro _ ⟨⟩⟩
  have hidle : s.gf.streaming = false := Bool.eq_false_iff.mpr hidle
  simp only [Call.transition, hidle, Bool.not_false, Bool.true_and]
  change ((wakeupAssert (mayFire s s.gf.wantFire) _).curFire = true → _) ∧
    ∀ e ∈ (wakeupAssert (mayFire s s.gf.wantFire) _).lev, _
  generalize wakeupIndex now (wakeupClock now (wakeupMark s).gf) = u at hindex ⊢
  obtain ⟨hforce, hlev⟩ := hindex
  simp only [wakeupAssert]
  split
  · next hdiffer =>
    split
    · next hroom =>
      refine ⟨hforce, fun e he => ?_⟩
      rcases List.mem_append.mp he with hold | hnew
      · exact .inl (hlev e hold)
      · right
        rw [if_pos (by simpa [hroom] using hdiffer), List.mem_singleton.mp hnew]
    · exact ⟨hforce, fun e he => .inl (hlev e he)⟩
  · exact ⟨hforce, fun e he => .inl (hlev e he)⟩

/-- **What a call lights** is the transition it writes. -/
theorem Call.locked_newest (c : Call) (now : Nat) (s : State) :
    ((c.locked now s).gf.curFire = true → s.gf.curFire = true) ∧
    ∀ e ∈ (c.locked now s).gf.lev, e ∈ s.gf.lev ∨ c.transition now s = some e := by
  cases c with
  | pulse stepBits dirBits =>
    have hpulsed := pulseLocked_pulsed (pulseByte stepBits dirBits) s
    have hfire : ((Call.pulse stepBits dirBits).locked now s).gf.curFire = s.gf.curFire :=
      hpulsed.frame Gf.curFire rfl
    have hlev : ((Call.pulse stepBits dirBits).locked now s).gf.lev = s.gf.lev := hpulsed.frame Gf.lev rfl
    exact ⟨fun h => hfire ▸ h, fun e he => .inl (hlev ▸ he)⟩
  | laser power fire =>
    obtain ⟨hforce, hlev⟩ := laserEventLocked_newest (power &&& 0x7f) (mayFire s fire)
      { s with gf := { s.gf with wantPower := power &&& 0x7f, wantFire := fire } }
    refine ⟨fun hf => hforce ▸ hf, fun e he => (hlev e he).imp_right fun hnew => ?_⟩
    exact (if_pos hnew.1).trans hnew.2
  | jog on =>
    obtain ⟨hforce, hlev⟩ := laserEventLocked_newest s.gf.wantPower
      (mayFire { s with gf := { s.gf with jogging := on } } s.gf.wantFire)
      { s with gf := { s.gf with jogging := on } }
    refine ⟨fun hf => hforce ▸ hf, fun e he => (hlev e he).imp_right fun hnew => ?_⟩
    exact (if_pos hnew.1).trans hnew.2
  | wakeup =>
    by_cases hstream : s.gf.streaming = true
    · rw [Call.locked, wakeupLocked, if_pos hstream]
      exact ⟨id, fun e he => .inl he⟩
    · rw [Call.locked, wakeupLocked, if_neg hstream]
      exact wakeupStream_newest now s hstream

/-- The calls that wait do not matter to the one that runs. -/
theorem Call.transition_entered (c : Call) (now : Nat) (s : State) (calls : List Call) :
    c.transition now { s with entered := calls } = c.transition now s := by
  have hevent : ∀ power fire (s : State), (laserEventLocked power fire { s with entered := calls }).gf =
      (laserEventLocked power fire s).gf := by
    intro power fire s
    simp only [laserEventLocked, show ∀ s : State, (clampLocked s).1 = s.laserArmed from fun _ => rfl]
    split_ifs <;> rfl
  cases c with
  | wakeup => rfl
  | pulse stepBits dirBits => rfl
  | laser power fire =>
    simp only [Call.transition, laserLocked]
    exact congrArg (fun g : Gf => if recordsNow s then g.lev.getLast? else none)
      (hevent _ _ { s with gf := { s.gf with wantPower := power &&& 0x7f, wantFire := fire } })
  | jog on =>
    simp only [Call.transition, jogLocked]
    exact congrArg (fun g : Gf => if recordsNow s then g.lev.getLast? else none)
      (hevent _ _ { s with gf := { s.gf with jogging := on } })

/-! ## The shipper -/

/-- A step that moves no cursor leaves the transition in force. -/
theorem lastTaken_self (lev : List LaserEv) (last : Option LaserEv) (i : Nat) : lastTaken lev last i i = last :=
  if_pos (Nat.le_refl i)

section Ships

variable {since : List LaserEv} {last : Option LaserEv} {e : Env} {s : State}

/-- The end of a stream passes an index with the fire state off. -/
theorem endStream_since {lev : List LaserEv} (h : LitSince since last s.gf) :
    LitSince since (lastTaken lev last s.gf.shipped (endStream e s).gf.shipped) (endStream e s).gf := by
  simp only [endStream]
  split
  · simp only [endPad]
    split
    · exact .dark h.queued rfl
    · rw [show (endRun e.now s).gf.shipped = s.gf.shipped from rfl, lastTaken_self]
      exact ⟨h.queued, h.inForce⟩
  · rw [lastTaken_self]
    exact h

theorem shipGated_since {gate : Bool} (h : LitSince since last s.gf) :
    LitSince since (lastTaken s.gf.lev last s.gf.shipped (shipGated e gate s).gf.shipped)
      (shipGated e gate s).gf := by
  have hhold : ∀ u : State, (pollHold e u).gf.lev = u.gf.lev ∧ (pollHold e u).gf.curFire = u.gf.curFire ∧
      (pollHold e u).gf.shipped = u.gf.shipped := by
    intro u
    simp only [pollHold]
    split_ifs <;> exact ⟨rfl, rfl, rfl⟩
  simp only [shipGated]
  split
  · obtain ⟨hlev, hfire, hshipped⟩ := hhold (endStream e s)
    have hend : LitSince since (lastTaken s.gf.lev last s.gf.shipped (endStream e s).gf.shipped)
        (endStream e s).gf := endStream_since h
    rw [hshipped]
    exact hend.dims (.of (.inl hlev) (.inl hfire))
  · split
    · rw [lastTaken_self]
      exact h
    · exact shipLoop_since (s := anchor e.now s) _ _ ⟨h.queued, h.inForce⟩

/-- Outside a pass's first section the shipper lights nothing but what is queued. -/
theorem shipStep_outside (h : LitSince since last s.gf) (hpc : ∀ gate, s.pc ≠ .sampled gate) :
    LitSince since (lastTaken s.gf.lev last s.gf.shipped (shipStep e s).gf.shipped) (shipStep e s).gf := by
  -- where the cursor stands, no more is lit
  have hstand : ∀ t : State, t.gf.shipped = s.gf.shipped → s.gf.Dims t.gf →
      LitSince since (lastTaken s.gf.lev last s.gf.shipped t.gf.shipped) t.gf := by
    intro t hshipped hdims
    rw [hshipped, lastTaken_self]
    exact h.dims hdims
  unfold shipStep
  split
  case h_8 gate hsampled => exact absurd hsampled (hpc gate)
  case h_10 p c ok _ =>
    cases ok with
    | false => exact hstand _ rfl (.of (.inl rfl) (.inl rfl))
    | true =>
      simp only [shipWrote, if_true, shipNext]
      split
      · exact hstand _ rfl (.of (.inl rfl) (.inl rfl))
      · exact shipLoop_since (s := chunkLanded c s) _ _ ⟨h.queued, h.inForce⟩
  case h_1 =>
    simp only [pendingSnapshot, resetPad]
    split_ifs <;> exact hstand _ rfl (.of (.inl rfl) (.inl rfl))
  case h_3 =>
    simp only [pendingSeek]
    split_ifs <;> exact hstand _ rfl (.of (.inl rfl) (.inl rfl))
  case h_5 cleared counts zeros _ =>
    have hsettled := pendingDone_settled cleared counts zeros s
    exact hstand _ (hsettled.frame Gf.shipped rfl)
      (.of (.inl (hsettled.frame Gf.lev rfl)) (.inl (hsettled.frame Gf.curFire rfl)))
  case h_6 =>
    simp only [pendingOurs]
    split_ifs <;> exact hstand _ rfl (.of (.inl rfl) (.inl rfl))
  case h_7 =>
    simp only [shipLock, faultPad]
    split_ifs
    · exact hstand _ rfl (.of (.inl rfl) (.inr rfl))
    · exact hstand _ rfl (.of (.inl rfl) (.inl rfl))
    · exact hstand _ rfl (.of (.inl rfl) (.inl rfl))
  case h_9 =>
    simp only [shipWrite]
    split <;> (try split_ifs) <;> exact hstand _ rfl (.of (.inl rfl) (.inl rfl))
  case h_15 =>
    simp only [issueRelight]
    split_ifs <;> exact hstand _ rfl (.of (.inl rfl) (.inl rfl))
  case h_20 =>
    simp only [issueEnd]
    split_ifs <;> exact hstand _ rfl (.of (.inl rfl) (.inl rfl))
  case h_23 =>
    simp only [shipRc]
    split_ifs <;> exact hstand _ rfl (.of (.inl rfl) (.inl rfl))
  all_goals exact hstand _ rfl (.of (.inl rfl) (.inl rfl))

/-- **A step of the shipper**: a fall begins the history anew, and the ticks take what is queued. -/
theorem shipStep_since (h : LitSince since last s.gf) :
    LitSince (if samples falls s then [] else since)
      (lastTaken (tickedQueue s) last s.gf.shipped (shipStep e s).gf.shipped) (shipStep e s).gf := by
  by_cases hsampled : ∃ gate, s.pc = .sampled gate
  · obtain ⟨gate, hpc⟩ := hsampled
    have hgated := @shipGated_since _ _ e { s with gf := gateEdge gate s.gf } gate (gateEdge_since h)
    have hstep : shipStep e s = shipBody e gate s := by rw [shipStep, hpc]
    have hsamples : samples falls s = falls gate s.gf := by rw [samples, hpc]
    have hqueue : tickedQueue s = (gateEdge gate s.gf).lev := by rw [tickedQueue, hpc]
    rw [hstep, hsamples, hqueue, ← gateEdge_shipped gate s.gf]
    exact hgated
  · have hpc : ∀ gate, s.pc ≠ .sampled gate := fun gate hgate => hsampled ⟨gate, hgate⟩
    have hsamples : samples falls s = false := by
      rw [samples]
      split
      · next gate hgate => exact absurd hgate (hpc gate)
      · rfl
    have hqueue : tickedQueue s = s.gf.lev := by
      rw [tickedQueue]
      split
      · next gate hgate => exact absurd hgate (hpc gate)
      · rfl
    rw [hsamples, hqueue]
    exact shipStep_outside h hpc

end Ships

/-! ## Runs

What governs a lit tick is an assertion since the last sample that fell. -/

/-- **Every step keeps the invariant.** A call can add an assertion, a sample that falls starts the
list over, and everything else only takes light away. -/
theorem step_since {s t : State} {l : Label} {h : Asserted} (hinv : LitSince h.since h.last s.gf)
    (hstep : step s l = some t) :
    LitSince (h.record falls s l).since (h.record falls s l).last t.gf := by
  have hturn := (step_eq_some.mp hstep).2
  by_cases hship : ∃ e, l = .ship e
  · obtain ⟨e, rfl⟩ := hship
    cases hturn
    exact shipStep_since hinv
  by_cases hcall : ∃ c now, l = .locked c now
  · obtain ⟨c, now, rfl⟩ := hcall
    cases hturn
    obtain ⟨hforce, hlev⟩ := c.locked_newest now { s with entered := s.entered.erase c }
    rw [c.transition_entered] at hlev
    obtain ⟨hqueued, hlast⟩ := hinv.grow ((c.transition now s).toList.filter (·.fire))
    refine ⟨fun e he hf => ?_, fun hf => hlast (hforce hf)⟩
    rcases hlev e he with hold | hnew
    · exact hqueued e hold hf
    · refine List.mem_append_right _ (List.mem_filter.mpr ⟨?_, hf⟩)
      rw [hnew]
      exact List.mem_singleton.mpr rfl
  · have hdims := turn_dims hturn (fun e he => hship ⟨e, he⟩) (fun c now hc => hcall ⟨c, now, hc⟩)
    have hsame : h.record falls s l = h := by
      cases l with
      | ship e => exact absurd ⟨e, rfl⟩ hship
      | locked c now => exact absurd ⟨c, now, rfl⟩ hcall
      | _ => rfl
    rw [hsame]
    exact hinv.dims hdims

/-- **After the gate has fallen, fire needs a new assertion.** Every lit tick of a step is governed by a
fire-on that a laser call, a jog call or a wakeup has written since the last pass that sampled the fall. -/
theorem lit_needs_assertion {c : Config} {k : Kernel} {emptied counted : Bool} {s t : State}
    {h : Asserted} {e : Env} {n : Nat} {b : UInt8}
    (hrun : Runs.Reach (Runs.observe step (fun s l h => h.record falls s l)) (fun _ _ => True)
      (State.init c k emptied counted, {}) (s, h))
    (hstep : step s (.ship e) = some t) (hb : (newTicks s t)[n]? = some b) (hlit : lit b = true) :
    ∃ ev ∈ h.since, ev.fire = true ∧
      Timeline.inForce LaserEv.idx some s.gf.lev h.last (s.gf.shipped + n) = some ev := by
  have hinit : (State.init c k emptied counted).gf.lev = [] ∧
      (State.init c k emptied counted).gf.curFire = false := by
    simp only [State.init, rebaseAtTakeover]
    split_ifs <;> exact ⟨rfl, rfl⟩
  have hinv : LitSince h.since h.last s.gf := by
    refine Runs.Reach.invariant_observe (fun _ _ => True)
      (P := fun (s : State) (h : Asserted) => LitSince h.since h.last s.gf) hrun ?_ ?_
    · refine .dark ?_ hinit.2
      rw [hinit.1]
      rintro _ ⟨⟩
    · exact fun s h l t hinv _ hstep => step_since hinv hstep
  obtain ⟨-, hturn⟩ := step_eq_some.mp hstep
  cases hturn
  rcases shipStep_round e s with ⟨p, u, hround, heq⟩ | ⟨pad, hpad, hdump⟩
  · rw [heq] at hb
    rcases newTicks_shipLoop hround with hnil | hticks
    · rw [hnil] at hb
      cases hb
    · rw [hticks] at hb
      -- a lit tick has an open sample, under which the edge leaves the queue alone
      have hu : u.gf.lev = s.gf.lev ∧ u.gf.curFire = s.gf.curFire ∧ u.gf.shipped = s.gf.shipped := by
        cases hround with
        | next hpc hok => exact ⟨rfl, rfl, rfl⟩
        | first hpc =>
          next gate =>
          cases gate with
          | true =>
            simp only [anchor, gateEdge]
            split_ifs <;> exact ⟨rfl, rfl, rfl⟩
          | false =>
            rw [buildTicks_masked _ _ _ _ b (List.mem_of_getElem? hb)] at hlit
            cases hlit
      have hlitu : LitSince h.since h.last u.gf := hinv.dims (.of (.inl hu.1) (.inl hu.2.1))
      obtain ⟨ev, hmem, hforce, hfire⟩ := (buildTicks_since p.gate p.due u.gf.streaming shipChunk hlitu).2 n b hb hlit
      rw [hu.1, hu.2.2] at hforce
      exact ⟨ev, hmem, hfire, hforce⟩
  · rw [newTicks_pad hpad hdump b (List.mem_of_getElem? hb)] at hlit
    cases hlit

/-- A stream whose gate is sampled open and then falls; the core asserts fire behind the fall, a second
pass samples the gate closed, and the gate rises. -/
def assertedClosed : List Label :=
  [Label.laserArm true, .fireGate true, .enter .wakeup, .locked .wakeup 0] ++ List.replicate 7 (Label.ship {}) ++
  [Label.fireGate false] ++ List.replicate 5 (Label.ship {}) ++
  [Label.enter (.laser 127 true), .locked (.laser 127 true) 0] ++ List.replicate 5 (Label.ship {}) ++
  [Label.fireGate true, .ship {}, .ship {}]

/-- The pass behind the rise ships lit ticks. -/
def lightsNext (s : State) : Prop :=
  (step s (.ship { later := 300000000 })).any (fun t => (newTicks s t)[0]?.any lit) = true

instance (s : State) : Decidable (lightsNext s) := inferInstanceAs (Decidable (_ = true))

theorem exists_of_lightsNext {s : State} (h : lightsNext s) :
    ∃ t b, step s (.ship { later := 300000000 }) = some t ∧ (newTicks s t)[0]? = some b ∧ lit b = true := by
  obtain ⟨t, hstep, hticks⟩ := (Option.any_eq_true _ _).mp h
  obtain ⟨b, hb, hlit⟩ := (Option.any_eq_true _ _).mp hticks
  exact ⟨t, b, hstep, hb, hlit⟩

/-- The theorem there: the first lit tick is governed by the assertion behind the fall. -/
theorem lit_needs_assertion_closed :
    ∃ (s t : State) (h : Asserted) (b : UInt8), (newTicks s t)[0]? = some b ∧ lit b = true ∧
      ∃ ev ∈ h.since, ev.fire = true ∧
        Timeline.inForce LaserEv.idx some s.gf.lev h.last (s.gf.shipped + 0) = some ev := by
  have hrun : ∃ x : State × Asserted,
      Runs.Reach (Runs.observe step (fun s l h => h.record falls s l)) (fun _ _ => True)
        (State.init (slowConfig false) idleKernel true true, {}) x ∧ lightsNext x.1 :=
    Runs.exists_reach_of_exec assertedClosed (by decide +kernel)
  obtain ⟨⟨s, h⟩, hreach, hlights⟩ := hrun
  obtain ⟨t, b, hstep, hb, hlit⟩ := exists_of_lightsNext hlights
  exact ⟨s, t, h, b, hb, hlit, lit_needs_assertion hreach hstep hb hlit⟩

/-- **A second closed sample asks for no new assertion**: the tick lit behind the rise is governed by the
fire-on written between the two. -/
theorem lit_behind_closed_sample :
    ∃ (s t : State) (h : Asserted) (e : Env) (n : Nat) (b : UInt8),
      Runs.Reach (Runs.observe step (fun s l h => h.record (fun gate _ => !gate) s l)) (fun _ _ => True)
        (State.init (slowConfig false) idleKernel true true, {}) (s, h) ∧
      step s (.ship e) = some t ∧ (newTicks s t)[n]? = some b ∧ lit b = true ∧
      ¬∃ ev ∈ h.since, ev.fire = true ∧
        Timeline.inForce LaserEv.idx some s.gf.lev h.last (s.gf.shipped + n) = some ev := by
  have hrun : ∃ x : State × Asserted,
      Runs.Reach (Runs.observe step (fun s l h => h.record (fun gate _ => !gate) s l)) (fun _ _ => True)
        (State.init (slowConfig false) idleKernel true true, {}) x ∧
      (lightsNext x.1 ∧ x.2.since = []) :=
    Runs.exists_reach_of_exec assertedClosed (by decide +kernel)
  obtain ⟨⟨s, h⟩, hreach, hlights, hnone⟩ := hrun
  obtain ⟨t, b, hstep, hb, hlit⟩ := exists_of_lightsNext hlights
  refine ⟨s, t, h, _, 0, b, hreach, hstep, hb, hlit, ?_⟩
  rintro ⟨ev, hmem, -⟩
  rw [show h.since = [] from hnone] at hmem
  cases hmem

end Glowforge.Stream
