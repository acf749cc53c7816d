import Glowforge.Stream.Assertion
import Glowforge.Stream.Cursor

/-!
# Glowforge — what a wakeup restates

A wakeup that begins a stream asserts the core's laser state at the stream's first byte. It queues a
transition only where the state at the cursor is another one, and does not look at what is queued
between the cursor and that byte:

* **`wanted`**, **`restates`** — the state to be restated, and when the wakeup gets it into force.
* **`quietly`** — no transition, no fall of the gate and no other model until the byte ships.
* **`Restated`** — the invariant: the byte is to come with that state, or is not to come.
* **`wakeup_restates_iff`** — in such a run the byte's tick applies the wanted state exactly then.

A continuation ahead of a cycle's queued laser-off does not meet the condition (`wakeup_leaves_dark`).
-/

namespace Glowforge.Stream

/-! ## The wakeup

What a wakeup wants in force at its first byte, and what it queues for it. -/

/-- The laser state that a wakeup restates. -/
def wanted (s : State) : UInt8 × Bool := (s.gf.wantPower, mayFire s s.gf.wantFire)

/-- The record in which the wakeup looks at the cursor. -/
def wakeupRecord (now : Nat) (s : State) : Gf := wakeupIndex now (wakeupClock now (wakeupMark s).gf)

/-- The cursor has another state and nothing is queued past the base, or what is queued up to the base
leaves the wanted one. -/
def restates (now : Nat) (s : State) : Prop :=
  (wanted s ≠ (wakeupRecord now s).state ∧
    ∀ e ∈ (wakeupRecord now s).lev, e.idx ≤ (wakeupRecord now s).base) ∨
  (wakeupRecord now s).stateAt (wakeupRecord now s).base = wanted s

instance (now : Nat) (s : State) : Decidable (restates now s) :=
  inferInstanceAs (Decidable ((_ ∧ ∀ e ∈ (wakeupRecord now s).lev, _) ∨ _))

theorem wakeupRecord_lev (now : Nat) (s : State) :
    (wakeupRecord now s).lev = s.gf.lev ∨ (wakeupRecord now s).lev = [] := by
  simp only [wakeupRecord, wakeupIndex, wakeupContinue, wakeupFresh]
  split_ifs
  · exact .inl rfl
  · exact .inl rfl
  · exact .inr rfl

theorem wakeupRecord_wantPower (now : Nat) (s : State) : (wakeupRecord now s).wantPower = s.gf.wantPower := by
  simp only [wakeupRecord, wakeupIndex, wakeupContinue, wakeupFresh]
  split_ifs <;> rfl

/-- **The assertion** has the wanted state in force at the base exactly under the condition. -/
theorem wakeup_stateAt {now : Nat} {s : State} (hidle : s.gf.streaming = false)
    (hroom : s.gf.lev.length < levN) :
    (wakeupLocked now s).gf.base = (wakeupRecord now s).base ∧
      ((wakeupLocked now s).gf.stateAt (wakeupLocked now s).gf.base = wanted s ↔ restates now s) := by
  have hlev : (wakeupRecord now s).lev.length < levN := by
    rcases wakeupRecord_lev now s with hsame | hnil
    · rwa [hsame]
    · rw [hnil]
      decide
  have hwant := wakeupRecord_wantPower now s
  have hgf : (wakeupLocked now s).gf = wakeupAssert (mayFire s s.gf.wantFire) (wakeupRecord now s) := by
    rw [wakeupLocked, if_neg (by rw [hidle]; rintro ⟨⟩)]
    rfl
  rw [restates, hgf, wanted]
  generalize wakeupRecord now s = u at hlev hwant ⊢
  rw [wakeupAssert, if_pos hlev, ← hwant]
  generalize mayFire s s.gf.wantFire = fire
  by_cases hdiffer : u.wantPower ≠ u.curPower ∨ fire ≠ u.curFire
  · rw [if_pos hdiffer]
    have hother : (u.wantPower, fire) ≠ u.state := by
      intro heq
      obtain ⟨hp, hf⟩ := Prod.mk.inj heq
      exact hdiffer.elim (fun h => h hp) (fun h => h hf)
    refine ⟨rfl, ?_⟩
    change Stream.stateAt (u.lev ++ [⟨u.base, u.wantPower, fire⟩]) u.state u.base = _ ↔ _
    by_cases hall : ∀ e ∈ u.lev, e.idx ≤ u.base
    · rw [stateAt, Timeline.inForce_concat hall, if_pos (Nat.le_refl _)]
      exact ⟨fun _ => .inl ⟨hother, hall⟩, fun _ => rfl⟩
    · have hahead : ∃ d ∈ u.lev, u.base < d.idx := by
        simp only [not_forall, Nat.not_le] at hall
        obtain ⟨d, hd, hlt⟩ := hall
        exact ⟨d, hd, hlt⟩
      rw [stateAt, Timeline.inForce_concat_of_ahead hahead]
      exact ⟨.inr, fun h => h.elim (fun hleft => absurd hleft.2 hall) id⟩
  · rw [if_neg hdiffer]
    have hsame : (u.wantPower, fire) = u.state := by
      simp only [not_or, ne_eq, not_not] at hdiffer
      exact Prod.ext hdiffer.1 hdiffer.2
    exact ⟨rfl, .inr, fun h => h.elim (fun hleft => absurd hsame hleft.1) id⟩

/-! ## Until the byte ships

Nothing else writes the queue, so the state at the byte's index stays what the wakeup left. -/

/-- Between the wakeup and the tick at its base no transition is recorded, no fall of the gate is sampled
and no other kind of dose model is set. -/
def quietly (s : State) : Label → Bool
  | .locked (.laser _ _) _ | .locked (.jog _) _ => !recordsNow s
  | .locked .wakeup _ => s.gf.streaming
  | .goIdle _ _ _ => !s.gf.streaming || (!s.gf.curFire && s.gf.lev.isEmpty)
  | .laserModel p m => (s.gf.dithPeriod == 0) == ((gfStreamLaserModel p m s.gf).dithPeriod == 0)
  | .ship _ => !samples falls s
  | _ => true

/-- **The invariant**: index `base` is ahead with state `v` in force at it, or no tick of the stream takes
it any more. -/
def Restated (base : Nat) (v : UInt8 × Bool) (g : Gf) : Prop :=
  g.failed = true ∨ (g.streaming = false ∧ g.produced ≤ g.shipped) ∨ base < g.shipped ∨ g.stateAt base = v

/-- What the record `r` keeps of `g`: the queue, the state in force and the cursor, a fault, and the end
of a stream. -/
structure Gf.Holds (g r : Gf) : Prop where
  lev : r.lev = g.lev
  state : r.state = g.state
  shipped : r.shipped = g.shipped
  failed : g.failed = true → r.failed = true
  ended : g.streaming = false → r.streaming = false ∧ r.produced = g.produced

namespace Restated

variable {base : Nat} {v : UInt8 × Bool} {g r : Gf}

theorem holds (h : Restated base v g) (hkept : g.Holds r) : Restated base v r := by
  obtain hfailed | ⟨hidle, hover⟩ | hpassed | hstate := h
  · exact .inl (hkept.failed hfailed)
  · refine .inr (.inl ⟨(hkept.ended hidle).1, ?_⟩)
    rw [(hkept.ended hidle).2, hkept.shipped]
    exact hover
  · refine .inr (.inr (.inl ?_))
    rwa [hkept.shipped]
  · refine .inr (.inr (.inr ?_))
    rw [Gf.stateAt, hkept.lev, hkept.state]
    exact hstate

/-- A stream that is over takes no tick any more. -/
theorem ended (hidle : g.streaming = false) (hover : g.produced ≤ g.shipped) : Restated base v g :=
  .inr (.inl ⟨hidle, hover⟩)

end Restated

/-! ## The calls -/

/-- Without a transition to record a laser call changes nothing that is in force. -/
theorem laserEventLocked_holds {power : UInt8} {fire : Bool} {s : State} (h : recordsNow s = false) :
    s.gf.Holds (laserEventLocked power fire s).gf := by
  simp only [laserEventLocked]
  split
  · next hstream =>
    simp only [recordsNow, hstream, Bool.true_and, Bool.not_eq_false', Bool.and_eq_true,
      decide_eq_true_eq] at h
    rw [if_pos h.1, if_pos (show (clampLocked s).1 = true from h.2)]
    exact ⟨rfl, rfl, rfl, clampLocked_failed, fun hidle => ⟨hidle, rfl⟩⟩
  · exact ⟨rfl, rfl, rfl, id, fun hidle => ⟨hidle, rfl⟩⟩

theorem pulseLocked_holds (stepBits dirBits : UInt8) (s : State) :
    s.gf.Holds (pulseLocked (pulseByte stepBits dirBits) s).gf := by
  have hfailed (h : s.gf.failed = true) : ((Call.pulse stepBits dirBits).locked 0 s).gf.failed = true :=
    Call.locked_failed h
  have hpulsed := pulseLocked_pulsed (pulseByte stepBits dirBits) s
  refine ⟨hpulsed.frame Gf.lev rfl, hpulsed.frame Gf.state rfl, hpulsed.frame Gf.shipped rfl, hfailed,
    fun hidle => ?_⟩
  · rw [pulseLocked, if_neg (by rw [hidle]; rintro ⟨⟩)]
    exact ⟨hidle, rfl⟩

/-- A model of the same kind leaves the level in force. -/
theorem laserModel_holds {p m : UInt32} {g : Gf}
    (h : ((g.dithPeriod == 0) == ((gfStreamLaserModel p m g).dithPeriod == 0)) = true) :
    g.Holds (gfStreamLaserModel p m g) := by
  have hpower : (gfStreamLaserModel p m g).curPower = g.curPower := by
    unfold gfStreamLaserModel at h ⊢
    dsimp only at h ⊢
    generalize (if p > dithPeriodMax then dithPeriodMax else p) = base at h ⊢
    generalize (if base ≠ 0 then refTicksToStream base g else base) = period at h ⊢
    by_cases hswitch : (g.dithPeriod ≠ 0) ≠ (period ≠ 0)
    · -- a switch leads dark, and is none here
      change ((g.dithPeriod == 0) == (period == 0)) = true at h
      refine absurd ?_ hswitch
      simp only [beq_iff_eq] at h
      rw [← beq_eq_false_iff_ne, ← beq_eq_false_iff_ne, h]
    · rw [if_neg hswitch]
      rfl
  obtain ⟨power, period, least, hmodel⟩ := laserModel_frame p m g
  rw [hmodel] at hpower ⊢
  exact ⟨rfl, Prod.ext hpower rfl, rfl, id, fun hidle => ⟨hidle, rfl⟩⟩

/-- An end of a cycle that finds nothing lit and nothing queued records nothing. -/
theorem goIdle_holds {reset : Bool} {stepBits dirBits : UInt8} {s : State}
    (h : (!s.gf.streaming || (!s.gf.curFire && s.gf.lev.isEmpty)) = true) :
    s.gf.Holds (gfStreamGoIdle reset stepBits dirBits s).gf := by
  have hend : ∀ g : Gf, (!g.streaming || (!g.curFire && g.lev.isEmpty)) = true →
      goIdleEnd g = { g with streaming := false } := by
    intro g hg
    cases hstream : g.streaming with
    | false =>
      rw [goIdleEnd, if_neg (by rw [hstream]; rintro ⟨⟩), ← hstream]
    | true =>
      simp only [hstream, Bool.not_true, Bool.false_or, Bool.and_eq_true, Bool.not_eq_true',
        List.isEmpty_iff] at hg
      rw [goIdleEnd, if_pos hstream, goIdleDark, if_neg (by simp [hg])]
  obtain ⟨killed, killStep, hmark⟩ := goIdleMark_frame reset (pulseByte stepBits dirBits) s.gf
  have hgo : (gfStreamGoIdle reset stepBits dirBits s).gf =
      { s.gf with killed := killed, killStep := killStep, streaming := false } := by
    change goIdleEnd (goIdleMark reset (pulseByte stepBits dirBits) s.gf) = _
    rw [hmark]
    exact hend _ h
  rw [hgo]
  exact ⟨rfl, rfl, rfl, id, fun _ => ⟨rfl, rfl⟩⟩

/-- A reset ends the stream, or leaves one that is over as it is. -/
theorem resetLocked_restated {base : Nat} {v : UInt8 × Bool} {now : Nat} {g : Gf} (h : Restated base v g) :
    Restated base v (resetLocked now g) := by
  have hafter := resetLocked_after now g
  by_cases hends : (resetEnds g || g.failed) = true
  · refine .ended hafter.streaming ?_
    rw [hafter.produced, hafter.shipped, if_pos hends]
  · simp only [Bool.or_eq_true, not_or, Bool.not_eq_true] at hends
    obtain ⟨hends, hfailed⟩ := hends
    have hrest : resetLocked now g = { g with
        killed := false, readback := .none, lastLit := resetStops g && g.lastLit } := by
      rw [resetLocked, if_neg (by rw [hfailed]; rintro ⟨⟩), if_neg (by rw [hends]; rintro ⟨⟩)]
    rw [hrest]
    exact h.holds ⟨rfl, rfl, rfl, id, fun hidle => ⟨hidle, rfl⟩⟩

theorem turn_restated {base : Nat} {v : UInt8 × Bool} {s t : State} {l : Label} (h : Restated base v s.gf)
    (hturn : turn s l = some t) (hship : ∀ e, l ≠ .ship e) (hquiet : quietly s l = true) :
    Restated base v t.gf := by
  have hsame : ∀ {r : Gf}, r.lev = s.gf.lev → r.state = s.gf.state → r.shipped = s.gf.shipped →
      r.failed = s.gf.failed → r.streaming = s.gf.streaming → r.produced = s.gf.produced →
      Restated base v r := by
    intro r hlev hstate hshipped hfailed hstream hproduced
    refine h.holds ⟨hlev, hstate, hshipped, fun hf => hfailed.trans hf, fun hidle => ?_⟩
    exact ⟨hstream.trans hidle, hproduced⟩
  cases l with
  | ship e => exact absurd rfl (hship e)
  | locked c now =>
    cases hturn
    cases c with
    | wakeup =>
      rw [Call.locked, wakeupLocked, if_pos (show s.gf.streaming = true from hquiet)]
      exact hsame rfl rfl rfl rfl rfl rfl
    | pulse stepBits dirBits =>
      exact h.holds (pulseLocked_holds stepBits dirBits { s with entered := s.entered.erase _ })
    | laser power fire =>
      simp only [quietly, Bool.not_eq_true'] at hquiet
      obtain ⟨hlev, hstate, hshipped, hfailed, hover⟩ := @laserEventLocked_holds
        (power &&& 0x7f) (mayFire s fire) { s with
          entered := s.entered.erase (.laser power fire)
          gf := { s.gf with wantPower := power &&& 0x7f, wantFire := fire } } hquiet
      exact h.holds ⟨hlev, hstate, hshipped, hfailed, hover⟩
    | jog on =>
      simp only [quietly, Bool.not_eq_true'] at hquiet
      obtain ⟨hlev, hstate, hshipped, hfailed, hover⟩ := @laserEventLocked_holds
        s.gf.wantPower (mayFire { s with gf := { s.gf with jogging := on } } s.gf.wantFire)
        { s with entered := s.entered.erase (.jog on), gf := { s.gf with jogging := on } } hquiet
      exact h.holds ⟨hlev, hstate, hshipped, hfailed, hover⟩
  | goIdle reset stepBits dirBits =>
    cases hturn
    exact h.holds (goIdle_holds hquiet)
  | laserModel p m =>
    cases hturn
    exact h.holds (laserModel_holds hquiet)
  | reset now =>
    cases hturn
    exact resetLocked_restated h
  | enter c =>
    cases hturn
    simp only [enter]
    split <;> exact hsame rfl rfl rfl rfl rfl rfl
  | readback expired =>
    cases hturn
    simp only [gfStreamReadback]
    split <;> exact hsame rfl rfl rfl rfl rfl rfl
  | clearPosition ok =>
    cases hturn
    simp only [gfStreamClearPosition]
    split_ifs <;> exact hsame rfl rfl rfl rfl rfl rfl
  | suspend readOk =>
    cases hturn
    simp only [gfStreamSuspend]
    split_ifs <;> exact hsame rfl rfl rfl rfl rfl rfl
  | resume latchOk emptied counted =>
    cases hturn
    simp only [gfStreamResume, rebaseAtTakeover]
    split_ifs <;> exact hsame rfl rfl rfl rfl rfl rfl
  | proto =>
    simp only [turn, protoStep] at hturn
    split at hturn <;> cases hturn
    case h_6.refl rest hp => exact .inl rfl
    case h_8.refl rest hp => exact .ended rfl (Nat.le_refl _)
    all_goals exact hsame rfl rfl rfl rfl rfl rfl
  | kernel a =>
    obtain ⟨k, -, rfl⟩ := Option.map_eq_some_iff.mp hturn
    exact hsame rfl rfl rfl rfl rfl rfl
  | _ =>
    cases hturn
    exact hsame rfl rfl rfl rfl rfl rfl

/-! ## The shipper

The cursor comes up to the byte, and the ticks ahead of it do not change its state. -/

/-- The loop goes towards the tick, takes it, or finds the stream over. -/
theorem shipLoop_restated {base : Nat} {v : UInt8 × Bool} {p : Pass} {s : State}
    (h : Restated base v s.gf) : Restated base v (shipLoop p s.gf.streaming s).gf := by
  simp only [shipLoop]
  split
  · next hdue =>
    obtain ⟨n, hwalk⟩ := buildTicks_ticks p.gate p.due s.gf.streaming shipChunk s.gf
    have hticked := buildTicks_ticked p.gate p.due s.gf.streaming shipChunk s.gf []
    rw [hwalk] at hticked ⊢
    change Restated base v { ticks p.gate n s.gf with kernelRunning := true, runBase := _ }
    obtain hfailed | ⟨hidle, hover⟩ | hpassed | hstate := h
    · exact .inl ((hticked.frame Gf.failed rfl).trans hfailed)
    · simp only [tickDue, hidle, Bool.false_or, Bool.and_eq_true, decide_eq_true_eq] at hdue
      omega
    · refine .inr (.inr (.inl ?_))
      change base < (ticks p.gate n s.gf).shipped
      rw [ticks_shipped]
      omega
    · by_cases hpast : base < s.gf.shipped + n
      · refine .inr (.inr (.inl ?_))
        change base < (ticks p.gate n s.gf).shipped
        rwa [ticks_shipped]
      · refine .inr (.inr (.inr ?_))
        exact (ticks_stateAt p.gate n (Nat.le_of_not_lt hpast)).trans hstate
  · exact h

theorem gateEdge_holds {gate : Bool} {g : Gf} (h : falls gate g = false) : g.Holds (gateEdge gate g) := by
  by_cases hsame : gate = g.gateSeen
  · rw [gateEdge, if_pos hsame]
    exact ⟨rfl, rfl, rfl, id, fun hidle => ⟨hidle, rfl⟩⟩
  · cases gate with
    | true =>
      rw [gateEdge, if_neg hsame, if_pos rfl]
      exact ⟨rfl, rfl, rfl, id, fun hidle => ⟨hidle, rfl⟩⟩
    | false =>
      cases hseen : g.gateSeen with
      | false => exact absurd hseen.symm hsame
      | true =>
        rw [falls, hseen] at h
        cases h

theorem shipBody_restated {base : Nat} {v : UInt8 × Bool} {e : Env} {gate : Bool} {s : State}
    (h : Restated base v s.gf) (hfall : falls gate s.gf = false) : Restated base v (shipBody e gate s).gf := by
  have hedge : Restated base v (gateEdge gate s.gf) := h.holds (gateEdge_holds hfall)
  have hhold : ∀ u : State, u.gf.Holds (pollHold e u).gf := by
    intro u
    simp only [pollHold]
    split_ifs <;> exact ⟨rfl, rfl, rfl, id, fun hidle => ⟨hidle, rfl⟩⟩
  simp only [shipBody, shipGated]
  generalize gateEdge gate s.gf = g at hedge ⊢
  split
  · next hover =>
    simp only [Bool.and_eq_true, Bool.not_eq_true', beq_iff_eq] at hover
    refine Restated.holds ?_ (hhold _)
    simp only [endStream, endPad]
    split_ifs
    · exact .ended hover.1 (Nat.le_refl _)
    · exact .ended hover.1 (Nat.sub_eq_zero_iff_le.mp hover.2)
    · exact hedge
  · split
    · exact hedge
    · exact shipLoop_restated (s := anchor e.now { s with gf := g })
        (hedge.holds ⟨rfl, rfl, rfl, id, fun hidle => ⟨hidle, rfl⟩⟩)

theorem shipStep_restated {base : Nat} {v : UInt8 × Bool} {e : Env} {s : State} (h : Restated base v s.gf)
    (hfall : samples falls s = false) : Restated base v (shipStep e s).gf := by
  have hsame : ∀ {r : Gf}, r.lev = s.gf.lev → r.state = s.gf.state → r.shipped = s.gf.shipped →
      (s.gf.failed = true → r.failed = true) → r.streaming = s.gf.streaming → r.produced = s.gf.produced →
      Restated base v r := by
    intro r hlev hstate hshipped hfailed hstream hproduced
    refine h.holds ⟨hlev, hstate, hshipped, hfailed, fun hidle => ?_⟩
    exact ⟨hstream.trans hidle, hproduced⟩
  unfold shipStep
  split
  case h_1 => simp only [pendingSnapshot, resetPad]; split_ifs <;> exact hsame rfl rfl rfl id rfl rfl
  case h_3 => simp only [pendingSeek]; split_ifs <;> exact hsame rfl rfl rfl id rfl rfl
  case h_5 cleared counts zeros _ =>
    have hsettled := pendingDone_settled cleared counts zeros s
    exact hsame (hsettled.frame Gf.lev rfl) (hsettled.frame Gf.state rfl) (hsettled.frame Gf.shipped rfl)
      (hsettled.frame Gf.failed rfl).trans (hsettled.frame Gf.streaming rfl) (hsettled.frame Gf.produced rfl)
  case h_6 =>
    simp only [pendingOurs]
    split
    · exact .inl rfl
    · exact hsame rfl rfl rfl id rfl rfl
  case h_7 =>
    simp only [shipLock, faultPad]
    split_ifs with _ hfault
    · exact .inl (Bool.and_eq_true_iff.mp hfault).1
    · exact hsame rfl rfl rfl id rfl rfl
    · exact hsame rfl rfl rfl id rfl rfl
  case h_8 gate hpc =>
    rw [samples, hpc] at hfall
    exact shipBody_restated h hfall
  case h_9 => simp only [shipWrite]; split <;> (try split_ifs) <;> exact hsame rfl rfl rfl id rfl rfl
  case h_10 p c ok _ =>
    cases ok with
    | false => exact .inl rfl
    | true =>
      simp only [shipWrote, if_true, shipNext]
      split
      · exact hsame rfl rfl rfl id rfl rfl
      · exact shipLoop_restated (s := chunkLanded c s) (hsame rfl rfl rfl id rfl rfl)
  case h_15 => simp only [issueRelight]; split_ifs <;> exact hsame rfl rfl rfl id rfl rfl
  case h_20 => simp only [issueEnd]; split_ifs <;> exact hsame rfl rfl rfl id rfl rfl
  case h_23 =>
    simp only [shipRc, exchangeFailed]
    split_ifs <;> first | exact .inl rfl | exact hsame rfl rfl rfl id rfl rfl
  all_goals first | exact hsame rfl rfl rfl id rfl rfl | exact .inl rfl

/-! ## The tick at the base -/

/-- The tick that a step builds has a live stream's record, in which the state at the tick is in force. -/
theorem Builds.state {base : Nat} {v : UInt8 × Bool} {e : Env} {s : State} {g : Gf}
    (hbuilds : Builds e s base g) (h : Restated base v s.gf)
    (hlocked : s.pc.holdsLock = true → s.gf.failed = false) (hfall : samples falls s = false) : g.state = v := by
  obtain ⟨hround, hloop, hidx, hbuilt⟩ := hbuilds
  rename_i p u n
  have hstart : Restated base v u.gf ∧ u.gf.failed = false := by
    cases hround with
    | first hpc =>
      rename_i gate
      have hedge : falls gate s.gf = false := by rwa [samples, hpc] at hfall
      have hfailed : s.gf.failed = false := hlocked (by rw [hpc]; rfl)
      refine ⟨(h.holds (gateEdge_holds hedge)).holds ⟨rfl, rfl, rfl, id, fun hidle => ⟨hidle, rfl⟩⟩, ?_⟩
      rw [← hfailed]
      simp only [anchor, gateEdge]
      split_ifs <;> rfl
    | next hpc hok => exact ⟨h.holds ⟨rfl, rfl, rfl, id, fun hidle => ⟨hidle, rfl⟩⟩, hok⟩
  obtain ⟨hrestated, hfailed⟩ := hstart
  rw [ticks_state, hidx]
  obtain hbad | ⟨hidle, hover⟩ | hpassed | hstate := hrestated
  · rw [hfailed] at hbad
    cases hbad
  · -- a stream that is over builds no tick
    have hnone : tickDue p.due u.gf.streaming u.gf = false := by
      simp [tickDue, hidle, Nat.not_lt.mpr hover]
    rw [hloop, shipLoop, if_neg (by rw [hnone]; rintro ⟨⟩)] at hbuilt
    change base < u.gf.shipped at hbuilt
    omega
  · omega
  · exact hstate

/-- **What is in force at an index stays** until its tick is built. -/
theorem Builds.stateAt {c : Config} {k : Kernel} {emptied counted : Bool} {t v : State} {i : Nat} {e : Env}
    {g : Gf} (hrun : Runs.Reach step (fun _ _ => True) (State.init c k emptied counted) t)
    (hquiet : Runs.Reach step (fun s l => quietly s l = true) t v) (hlast : quietly v (.ship e) = true)
    (hbuilds : Builds e v i g) : g.state = t.gf.stateAt i := by
  have hrestated : Restated i (t.gf.stateAt i) v.gf := by
    refine hquiet.invariant (P := fun w => Restated i (t.gf.stateAt i) w.gf)
      (.inr (.inr (.inr rfl))) fun w l x h hok hstep => ?_
    have hturn := (step_eq_some.mp hstep).2
    by_cases hship : ∃ e, l = .ship e
    · obtain ⟨e, rfl⟩ := hship
      cases hturn
      simp only [quietly, Bool.not_eq_true'] at hok
      exact shipStep_restated h hok
    · exact turn_restated h hturn (fun e he => hship ⟨e, he⟩) hok
  have hreach : Runs.Reach step (fun _ _ => True) (State.init c k emptied counted) v :=
    hrun.trans (hquiet.mono fun _ _ _ => trivial)
  have hlocked : v.pc.holdsLock = true → v.gf.failed = false :=
    hreach.invariant (P := fun w => w.pc.holdsLock = true → w.gf.failed = false) (by rintro ⟨⟩)
      fun _ _ _ h _ hstep => step_locked h hstep
  simp only [quietly, Bool.not_eq_true'] at hlast
  exact hbuilds.state hrestated hlocked hlast

/-- **What a wakeup restates**: at the base the shipper applies the wanted state if and only if the
condition held at the wakeup. -/
theorem wakeup_restates_iff {c : Config} {k : Kernel} {emptied counted : Bool} {s t v : State} {now : Nat}
    {e : Env} {g : Gf}
    (hrun : Runs.Reach step (fun _ _ => True) (State.init c k emptied counted) s)
    (hidle : s.gf.streaming = false) (hroom : s.gf.lev.length < levN)
    (hwake : step s (.locked .wakeup now) = some t)
    (hquiet : Runs.Reach step (fun s l => quietly s l = true) t v) (hlast : quietly v (.ship e) = true)
    (hbuilds : Builds e v t.gf.base g) : g.state = wanted s ↔ restates now s := by
  have hturn : t = wakeupLocked now { s with entered := s.entered.erase .wakeup } := by
    have := (step_eq_some.mp hwake).2
    cases this
    rfl
  obtain ⟨-, hrestates⟩ := @wakeup_stateAt now
    { s with entered := s.entered.erase .wakeup } hidle hroom
  rw [← hturn] at hrestates
  rw [hbuilds.stateAt (hrun.step trivial hwake) hquiet hlast]
  exact hrestates

/-! ## Concrete runs

A wakeup that restates, and one that leaves a dark state in force. -/

/-- A step that moves the cursor past an index behind a lit byte builds its tick: a pad is dark. -/
theorem exists_builds {e : Env} {s : State} {i : Nat} (hle : s.gf.shipped ≤ i)
    (hlt : i < (shipStep e s).gf.shipped) (hlit : ∃ b ∈ newTicks s (shipStep e s), lit b = true) :
    ∃ g, Builds e s i g := by
  obtain ⟨b, hb, hlit⟩ := hlit
  rcases shipStep_round e s with ⟨p, u, hround, heq⟩ | ⟨pad, hpad, hdump⟩
  · have hu : u.gf.shipped = s.gf.shipped := by
      cases hround with
      | first hpc => exact gateEdge_shipped _ _
      | next hpc hok => rfl
    exact ⟨_, .intro (n := i - s.gf.shipped) hround heq (by omega) hlt⟩
  · rw [newTicks_pad hpad hdump b hb] at hlit
    cases hlit

/-- The labels `ls` lead quietly to a step that builds the tick at the base, behind a lit one. -/
def comesToBase (ls : List Label) (e : Env) (t : State) : Bool :=
  (Runs.exec step (fun s l => quietly s l = true) t ls).any fun v =>
    quietly v (.ship e) && decide (v.gf.shipped ≤ t.gf.base) &&
      decide (t.gf.base < (shipStep e v).gf.shipped) && (newTicks v (shipStep e v)).any lit

theorem exists_of_comesToBase {ls : List Label} {e : Env} {t : State} (h : comesToBase ls e t = true) :
    ∃ v g, Runs.Reach step (fun s l => quietly s l = true) t v ∧ quietly v (.ship e) = true ∧
      Builds e v t.gf.base g := by
  obtain ⟨v, hexec, hv⟩ := (Option.any_eq_true _ _).mp h
  simp only [Bool.and_eq_true, decide_eq_true_eq, List.any_eq_true] at hv
  obtain ⟨⟨⟨hquiet, hle⟩, hlt⟩, hlit⟩ := hv
  obtain ⟨g, hbuilds⟩ := exists_builds hle hlt hlit
  exact ⟨v, g, Runs.reach_of_exec hexec, hquiet, hbuilds⟩

/-- A fresh stream begins with the wanted state set ahead of it. -/
def litAhead : List Label :=
  [.laserArm true, .fireGate true, .enter (.laser 127 true), .locked (.laser 127 true) 0, .enter .wakeup]

/-- The theorem there: the first byte of the run is lit at the wanted level. -/
theorem wakeup_restates_lit :
    ∃ (s : State) (g : Gf), wanted s = (127, true) ∧ restates 0 s ∧ (g.state = wanted s ↔ restates 0 s) := by
  have hrun : ∃ s, Runs.Reach step (fun _ _ => True) (State.init (slowConfig false) idleKernel true true) s ∧
      (s.gf.streaming = false ∧ s.gf.lev.length < levN ∧ wanted s = (127, true) ∧ restates 0 s ∧
        (step s (.locked .wakeup 0)).any (comesToBase (List.replicate 9 (.ship {}))
          { later := 300000000 }) = true) :=
    Runs.exists_reach_of_exec litAhead (by decide +kernel)
  obtain ⟨s, hreach, hidle, hroom, hwanted, hrestates, hnext⟩ := hrun
  obtain ⟨t, hwake, hbase⟩ := (Option.any_eq_true _ _).mp hnext
  obtain ⟨v, g, hquiet, hlast, hbuilds⟩ := exists_of_comesToBase hbase
  exact ⟨s, g, hwanted, hrestates,
    wakeup_restates_iff hreach hidle hroom hwake hquiet hlast hbuilds⟩

/-- A lit cycle ends with a hundred ticks ahead of the cursor, and its laser-off queued behind them. -/
def litCycleEnds : List Label :=
  litPass.dropLast ++ [Label.cyclesPerTick 100000, .advance, .ship { later := 1000000 }] ++
  [Label.enter (.pulse 0x01 0x00), .locked (.pulse 0x01 0x00) 0, .goIdle false 0 0, .enter .wakeup]

/-- **A continuation can leave the first byte dark.** The cursor is still lit, so the wakeup asserts
nothing, and the ended cycle's laser-off is what the base finds in force. -/
theorem wakeup_leaves_dark :
    ∃ (s t v : State) (now : Nat) (e : Env) (g : Gf),
      Runs.Reach step (fun _ _ => True) (State.init (slowConfig false) idleKernel true true) s ∧
      s.gf.streaming = false ∧ s.gf.lev.length < levN ∧ step s (.locked .wakeup now) = some t ∧
      Runs.Reach step (fun s l => quietly s l = true) t v ∧ quietly v (.ship e) = true ∧
      Builds e v t.gf.base g ∧ ¬g.state = wanted s := by
  have hrun : ∃ s, Runs.Reach step (fun _ _ => True) (State.init (slowConfig false) idleKernel true true) s ∧
      (s.gf.streaming = false ∧ s.gf.lev.length < levN ∧
        (step s (.locked .wakeup 1000000)).any (fun t => decide (t.gf.stateAt t.gf.base ≠ wanted s) &&
          comesToBase (List.replicate 6 (.ship {})) { later := 102000000 } t) = true) :=
    Runs.exists_reach_of_exec litCycleEnds (by decide +kernel)
  obtain ⟨s, hreach, hidle, hroom, hnext⟩ := hrun
  obtain ⟨t, hwake, hthere⟩ := (Option.any_eq_true _ _).mp hnext
  obtain ⟨hdark, hbase⟩ := Bool.and_eq_true_iff.mp hthere
  obtain ⟨v, g, hquiet, hlast, hbuilds⟩ := exists_of_comesToBase hbase
  refine ⟨s, t, v, _, _, g, hreach, hidle, hroom, hwake, hquiet, hlast, hbuilds, ?_⟩
  rw [hbuilds.stateAt (hreach.step trivial hwake) hquiet hlast]
  exact of_decide_eq_true hdark

end Glowforge.Stream
