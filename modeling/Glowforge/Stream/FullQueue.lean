import Glowforge.Stream.Overflow

/-!
# Glowforge — a run beside its unbounded queue

The stream and the queue without a bound, step by step:

* **`safely`** — no step merges a fire-on into a dark transition, or loses what the stream goes on with.
* **`turn_alongside`**, **`shipStep_alongside`** — the invariant, for the calls and for the shipper.
* **`full_queue_degrades`** — no tick is lit that the unbounded queue leaves dark, and from the last record
  on the ticks have its power and fire state.

Without the condition a merged fire-on lights the ticks ahead of it (`merge_lights_earlier`).
-/

namespace Glowforge.Stream

open Timeline (InOrder)

/-! ## The condition

What a full queue may be asked to take without lighting or losing anything. -/

/-- What a step does with a full queue lights nothing and loses nothing. A switch of the dose model is
taken while the queues are the same. -/
def safely (s : State) (u : Unbounded) : Label → Bool
  | .locked (.laser _ fire) _ => !recordsNow s || decide (mergeSafe s.gf (recordIndex s.gf) (mayFire s fire))
  | .locked (.jog on) _ =>
    !recordsNow s || decide (mergeSafe s.gf (recordIndex s.gf) (s.gf.wantFire && s.laserArmed && !on))
  | .locked .wakeup now =>
    s.gf.streaming || decide (assertSafe (wanted s) (wakeupRecord now s) (u.begins now s.gf))
  | .goIdle _ _ _ => !s.gf.streaming || decide (idleSafe s.gf)
  | .laserModel p m => !Unbounded.switches p m s.gf || decide (u.lev = s.gf.lev ∧ u.cur = s.gf.state)
  | _ => true

/-! ## The calls

Each writer beside the unbounded queue's; the calls that write no transition keep the two as they
are. -/

theorem Gf.Steady.of {g r : Gf} (hlev : r.lev = g.lev) (hstate : r.state = g.state) (hshipped : r.shipped = g.shipped)
    (hfailed : g.failed = true → r.failed = true) (hstream : r.streaming = g.streaming)
    (hproduced : r.produced = g.produced) (hkernel : r.kernelRunning = true → g.kernelRunning = true)
    (hvirtual : virtualIndex g ≤ virtualIndex r) : g.Steady r :=
  ⟨⟨hlev, hstate, hshipped, hfailed, fun hidle => ⟨hstream.trans hidle, hproduced⟩⟩, hstream, hkernel, hvirtual⟩

theorem pulseLocked_steady (stepBits dirBits : UInt8) (s : State) :
    s.gf.Steady (pulseLocked (pulseByte stepBits dirBits) s).gf := by
  have hpulsed := pulseLocked_pulsed (pulseByte stepBits dirBits) s
  have hkernel := hpulsed.frame Gf.kernelRunning rfl
  exact ⟨pulseLocked_holds stepBits dirBits s, hpulsed.frame Gf.streaming rfl, fun hrun => hkernel ▸ hrun,
    Nat.le_of_eq (hpulsed.frame virtualIndex rfl).symm⟩

/-- Without a transition to record a laser call is no more than a wish. -/
theorem laserEventLocked_steady {power : UInt8} {fire : Bool} {s : State} (h : recordsNow s = false) :
    s.gf.Steady (laserEventLocked power fire s).gf := by
  have hsame : (laserEventLocked power fire s).gf.streaming = s.gf.streaming ∧
      (laserEventLocked power fire s).gf.kernelRunning = s.gf.kernelRunning ∧
      virtualIndex (laserEventLocked power fire s).gf = virtualIndex s.gf := by
    simp only [laserEventLocked]
    split
    · next hstream =>
      simp only [recordsNow, hstream, Bool.true_and, Bool.not_eq_false', Bool.and_eq_true, decide_eq_true_eq] at h
      rw [if_pos h.1, if_pos (show (clampLocked s).1 = true from h.2)]
      exact ⟨rfl, rfl, rfl⟩
    · exact ⟨rfl, rfl, rfl⟩
  obtain ⟨hstream, hkernel, htime⟩ := hsame
  exact ⟨laserEventLocked_holds h, hstream, hkernel.symm.trans, Nat.le_of_eq htime.symm⟩

theorem wakeupMark_steady {s : State} : s.gf.Steady (wakeupMark s).gf :=
  .of rfl rfl rfl id rfl rfl id (Nat.le_refl _)

/-- **A locked section.** A wakeup, a laser call and a jog write a transition beside the unbounded
queue's; a pulse leaves both queues. -/
theorem Call.alongside {c : Call} {now : Nat} {s : State} {u : Unbounded} (h : Alongside s.gf u)
    (hsafe : safely s u (.locked c now) = true) :
    Alongside (c.locked now { s with entered := s.entered.erase c }).gf (u.record s (.locked c now)) := by
  cases c with
  | pulse stepBits dirBits =>
    exact h.steady (pulseLocked_steady stepBits dirBits { s with entered := s.entered.erase _ })
  | wakeup =>
    cases hstream : s.gf.streaming with
    | true =>
      have hmark : (Call.wakeup.locked now { s with entered := s.entered.erase .wakeup }).gf = (wakeupMark s).gf := by
        rw [Call.locked, wakeupLocked, if_pos hstream]
        rfl
      rw [hmark, Unbounded.record, if_pos hstream]
      exact h.steady wakeupMark_steady
    | false =>
      simp only [safely, hstream, Bool.false_or, decide_eq_true_eq] at hsafe
      rw [Unbounded.record, if_neg (by rw [hstream]; rintro ⟨⟩)]
      exact Alongside.wakeup (s := { s with entered := s.entered.erase .wakeup }) h hstream hsafe
  | laser power fire =>
    have hwish : Alongside { s.gf with wantPower := power &&& 0x7f, wantFire := fire } u :=
      h.steady (.of rfl rfl rfl id rfl rfl id (Nat.le_refl _))
    cases hrecords : recordsNow s with
    | false =>
      rw [Unbounded.record, if_neg (by rw [hrecords]; rintro ⟨⟩)]
      exact hwish.steady (@laserEventLocked_steady (power &&& 0x7f) (mayFire s fire) { s with
        entered := s.entered.erase (.laser power fire)
        gf := { s.gf with wantPower := power &&& 0x7f, wantFire := fire } } hrecords)
    | true =>
      simp only [safely, hrecords, Bool.not_true, Bool.false_or, decide_eq_true_eq] at hsafe
      have hstream : s.gf.streaming = true := (Bool.and_eq_true_iff.mp hrecords).1
      rw [Unbounded.record, if_pos hrecords]
      exact (hwish.record (power &&& 0x7f) hstream hsafe).steady
        (@laserEventLocked_records (power &&& 0x7f) (mayFire s fire) { s with
          entered := s.entered.erase (.laser power fire)
          gf := { s.gf with wantPower := power &&& 0x7f, wantFire := fire } } hrecords)
  | jog on =>
    have hwish : Alongside { s.gf with jogging := on } u :=
      h.steady (.of rfl rfl rfl id rfl rfl id (Nat.le_refl _))
    cases hrecords : recordsNow s with
    | false =>
      rw [Unbounded.record, if_neg (by rw [hrecords]; rintro ⟨⟩)]
      exact hwish.steady (@laserEventLocked_steady s.gf.wantPower
        (mayFire { s with gf := { s.gf with jogging := on } } s.gf.wantFire)
        { s with entered := s.entered.erase (.jog on), gf := { s.gf with jogging := on } } hrecords)
    | true =>
      simp only [safely, hrecords, Bool.not_true, Bool.false_or, decide_eq_true_eq] at hsafe
      have hstream : s.gf.streaming = true := (Bool.and_eq_true_iff.mp hrecords).1
      rw [Unbounded.record, if_pos hrecords]
      exact (hwish.record s.gf.wantPower hstream hsafe).steady
        (@laserEventLocked_records s.gf.wantPower
          (mayFire { s with gf := { s.gf with jogging := on } } s.gf.wantFire)
          { s with entered := s.entered.erase (.jog on), gf := { s.gf with jogging := on } } hrecords)

/-- **A new dose model.** -/
theorem laserModel_alongside {p m : UInt32} {s : State} {u : Unbounded} (h : Alongside s.gf u)
    (hsafe : safely s u (.laserModel p m) = true) :
    Alongside (gfStreamLaserModel p m s.gf) (u.record s (.laserModel p m)) := by
  obtain ⟨power, period, least, hmodel⟩ := laserModel_frame p m s.gf
  cases hswitch : Unbounded.switches p m s.gf with
  | false =>
    have hkept : s.gf.Holds (gfStreamLaserModel p m s.gf) := laserModel_holds (by
      simpa [Unbounded.switches, bne] using hswitch)
    rw [Unbounded.record, if_neg (by rw [hswitch]; rintro ⟨⟩)]
    refine h.steady ⟨hkept, ?_, ?_, ?_⟩
    · rw [hmodel]
      rfl
    · rw [hmodel]
      exact id
    · rw [hmodel]
      exact Nat.le_refl _
  | true =>
    simp only [safely, hswitch, Bool.not_true, Bool.false_or, decide_eq_true_eq] at hsafe
    have hpower : (gfStreamLaserModel p m s.gf).curPower = 0 := by
      unfold Unbounded.switches gfStreamLaserModel at hswitch
      unfold gfStreamLaserModel
      dsimp only at hswitch ⊢
      generalize (if p > dithPeriodMax then dithPeriodMax else p) = base at hswitch ⊢
      generalize (if base ≠ 0 then refTicksToStream base s.gf else base) = period at hswitch ⊢
      by_cases hmodels : (s.gf.dithPeriod ≠ 0) ≠ (period ≠ 0)
      · rw [if_pos hmodels]
        rfl
      · change ((s.gf.dithPeriod == 0) != (period == 0)) = true at hswitch
        refine absurd ?_ hmodels
        intro heq
        simp only [ne_eq, eq_iff_iff, not_iff_not] at heq
        simp [Bool.beq_eq_decide_eq, heq] at hswitch
    rw [Unbounded.record, if_pos hswitch]
    refine .same ?_ ?_
    · rw [hmodel]
      exact hsafe.1
    · refine Prod.ext hpower.symm ?_
      rw [hmodel, hsafe.2]
      rfl

/-- **A reset** ends a stream, or finds none. -/
theorem reset_alongside {now : Nat} {s : State} {u : Unbounded} (h : Alongside s.gf u) :
    Alongside (resetLocked now s.gf) (u.record s (.reset now)) := by
  have hafter := resetLocked_after now s.gf
  by_cases hends : (resetEnds s.gf || s.gf.failed) = true
  · have hnone : (resetLocked now s.gf).lev = [] ∧ (resetLocked now s.gf).curFire = false := by
      by_cases hf : s.gf.failed = true
      · rw [resetLocked, if_pos hf]
        exact ⟨rfl, rfl⟩
      · rw [resetLocked, if_neg hf, if_pos (by simpa [hf] using hends)]
        exact resetStream_dark now s.gf.killed { s.gf with killed := false, readback := .none }
    rw [Unbounded.record, if_pos hends]
    refine .gone hnone.1 hnone.2 rfl rfl hafter.streaming ?_ ?_
    · rw [hafter.kernelRunning]
      cases hrunning : s.gf.kernelRunning with
      | false => rfl
      | true =>
        rw [resetStops, hrunning, Bool.or_true, Bool.and_true, hends]
        rfl
    · rw [hafter.produced, hafter.shipped, if_pos hends]
  · rw [Unbounded.record, if_neg hends]
    simp only [Bool.or_eq_true, not_or, Bool.not_eq_true] at hends
    have hrest : resetLocked now s.gf = { s.gf with
        killed := false, readback := .none, lastLit := resetStops s.gf && s.gf.lastLit } := by
      rw [resetLocked, if_neg (by rw [hends.2]; rintro ⟨⟩), if_neg (by rw [hends.1]; rintro ⟨⟩)]
    rw [hrest]
    exact h.steady (.of rfl rfl rfl id rfl rfl id (Nat.le_refl _))

theorem goIdle_alongside {reset : Bool} {stepBits dirBits : UInt8} {s : State} {u : Unbounded}
    (h : Alongside s.gf u) (hsafe : safely s u (.goIdle reset stepBits dirBits) = true) :
    Alongside (gfStreamGoIdle reset stepBits dirBits s).gf (u.record s (.goIdle reset stepBits dirBits)) := by
  cases hstream : s.gf.streaming with
  | true =>
    simp only [safely, hstream, Bool.not_true, Bool.false_or, decide_eq_true_eq] at hsafe
    rw [Unbounded.record, if_pos hstream]
    exact (h.goIdle hstream hsafe).steady (gfStreamGoIdle_live reset stepBits dirBits hstream)
  | false =>
    obtain ⟨killed, killStep, hmark⟩ := goIdleMark_frame reset (pulseByte stepBits dirBits) s.gf
    have hgo : (gfStreamGoIdle reset stepBits dirBits s).gf = { s.gf with killed := killed, killStep := killStep } := by
      change goIdleEnd (goIdleMark reset (pulseByte stepBits dirBits) s.gf) = _
      rw [hmark, goIdleEnd, if_neg (by rw [hstream]; rintro ⟨⟩)]
    rw [hgo, Unbounded.record, if_neg (by rw [hstream]; rintro ⟨⟩)]
    exact h.steady (.of rfl rfl rfl id rfl rfl id (Nat.le_refl _))

/-- **Every turn outside the shipper** keeps the invariant. The condition is asked of the turns that
write a transition into a full queue. -/
theorem turn_alongside {s t : State} {l : Label} {u : Unbounded} (h : Alongside s.gf u)
    (hturn : turn s l = some t) (hship : ∀ e, l ≠ .ship e) (hsafe : safely s u l = true) :
    Alongside t.gf (u.record s l) := by
  have hsame : ∀ {r : Gf}, r.lev = s.gf.lev → r.state = s.gf.state → r.shipped = s.gf.shipped →
      r.failed = s.gf.failed → r.streaming = s.gf.streaming → r.produced = s.gf.produced →
      r.kernelRunning = s.gf.kernelRunning → virtualIndex s.gf ≤ virtualIndex r → Alongside r u := by
    intro r hlev hstate hshipped hfailed hstream hproduced hkernel htime
    exact h.steady (.of hlev hstate hshipped hfailed.trans hstream hproduced hkernel.symm.trans htime)
  cases l with
  | ship e => exact absurd rfl (hship e)
  | locked c now =>
    cases hturn
    exact Call.alongside h hsafe
  | goIdle reset stepBits dirBits =>
    cases hturn
    exact goIdle_alongside h hsafe
  | laserModel p m =>
    cases hturn
    exact laserModel_alongside h hsafe
  | reset now =>
    cases hturn
    exact reset_alongside h
  | advance =>
    cases hturn
    refine hsame rfl rfl rfl rfl rfl rfl rfl ?_
    exact Nat.add_le_add_left (Nat.div_le_div_right (Nat.le_add_right _ _)) _
  | enter c =>
    cases hturn
    simp only [enter]
    split <;> exact hsame rfl rfl rfl rfl rfl rfl rfl (Nat.le_refl _)
  | readback expired =>
    cases hturn
    simp only [gfStreamReadback]
    split <;> exact hsame rfl rfl rfl rfl rfl rfl rfl (Nat.le_refl _)
  | clearPosition ok =>
    cases hturn
    simp only [gfStreamClearPosition]
    split_ifs <;> exact hsame rfl rfl rfl rfl rfl rfl rfl (Nat.le_refl _)
  | suspend readOk =>
    cases hturn
    simp only [gfStreamSuspend]
    split_ifs <;> exact hsame rfl rfl rfl rfl rfl rfl rfl (Nat.le_refl _)
  | resume latchOk emptied counted =>
    cases hturn
    simp only [gfStreamResume, rebaseAtTakeover]
    split_ifs <;> exact hsame rfl rfl rfl rfl rfl rfl rfl (Nat.le_refl _)
  | proto =>
    by_cases hswap : s.proto.head? = some .resumeSwap
    · rw [Unbounded.record, if_pos hswap]
      simp only [turn, protoStep] at hturn
      split at hturn <;> cases hturn
      case h_8.refl rest hp => exact .gone rfl rfl rfl rfl rfl rfl (Nat.le_refl _)
      all_goals
        next hp =>
        rw [hp] at hswap
        cases hswap
    · rw [Unbounded.record, if_neg hswap]
      simp only [turn, protoStep] at hturn
      split at hturn <;> cases hturn
      case h_6.refl rest hp => exact .failed rfl
      case h_8.refl rest hp => exact absurd (hp ▸ rfl) hswap
      all_goals exact hsame rfl rfl rfl rfl rfl rfl rfl (Nat.le_refl _)
  | kernel a =>
    obtain ⟨k, -, rfl⟩ := Option.map_eq_some_iff.mp hturn
    exact hsame rfl rfl rfl rfl rfl rfl rfl (Nat.le_refl _)
  | _ =>
    cases hturn
    exact hsame rfl rfl rfl rfl rfl rfl rfl (Nat.le_refl _)

/-! ## The shipper

Both cursors move together, over ticks that the bounded queue lights no more than the other. -/

namespace Unbounded

/-- A cursor that stands takes nothing. -/
theorem advance_self (u : Unbounded) (i : Nat) : u.advance i i = u := if_pos (Nat.le_refl _)

theorem advance_succ (u : Unbounded) (i n : Nat) : u.advance i (i + (n + 1)) =
    { u with lev := u.lev.dropWhile (·.idx ≤ i + n), cur := stateAt u.lev u.cur (i + n) } := if_neg (by omega)

end Unbounded

/-- **A round of the loop.** Both cursors walk the same ticks, and the walk keeps the relation tick
by tick. -/
theorem shipLoop_alongside {p : Pass} {s : State} {u : Unbounded} (h : Alongside s.gf u) :
    Alongside (shipLoop p s.gf.streaming s).gf
      (u.advance s.gf.shipped (shipLoop p s.gf.streaming s).gf.shipped) := by
  by_cases hdue : tickDue p.due s.gf.streaming s.gf = true
  · obtain ⟨n, hwalk⟩ := buildTicks_ticks p.gate p.due s.gf.streaming shipChunk s.gf
    have hticked := buildTicks_ticked p.gate p.due s.gf.streaming shipChunk s.gf []
    have hloop : (shipLoop p s.gf.streaming s).gf = { ticks p.gate n s.gf with
        kernelRunning := true
        runBase := if !(ticks p.gate n s.gf).kernelRunning then (ticks p.gate n s.gf).written
          else (ticks p.gate n s.gf).runBase } := by
      rw [shipLoop, if_pos hdue, hwalk]
      rfl
    rw [hwalk] at hticked
    have hstream : (ticks p.gate n s.gf).streaming = s.gf.streaming := hticked.frame Gf.streaming rfl
    have htime : virtualIndex (ticks p.gate n s.gf) = virtualIndex s.gf := hticked.frame virtualIndex rfl
    have hshipped := ticks_shipped p.gate n s.gf
    rw [hloop]
    change Alongside _ (u.advance s.gf.shipped (ticks p.gate n s.gf).shipped)
    rw [hshipped]
    cases h with
    | failed hfailed => exact .failed ((hticked.frame Gf.failed rfl).trans hfailed)
    | gone _ _ _ _ hidle _ hover =>
      rw [hidle] at hdue
      simp only [tickDue, Bool.false_or, Bool.and_eq_true, decide_eq_true_eq] at hdue
      omega
    | same hlev hcur =>
      cases n with
      | zero =>
        rw [Nat.add_zero, u.advance_self]
        exact .same hlev hcur
      | succ n =>
        rw [u.advance_succ, hlev, hcur]
        exact .same (ticks_lev p.gate n s.gf).symm (ticks_state p.gate n s.gf).symm
    | merged hdegrades hlive hends =>
      cases n with
      | zero =>
        rw [Nat.add_zero, u.advance_self]
        exact .merged hdegrades hlive hends
      | succ n =>
        have hgoes := hdegrades.advance (show s.gf.shipped < s.gf.shipped + (n + 1) by omega)
        have hnew : (u.advance s.gf.shipped (s.gf.shipped + (n + 1))).newest = u.newest := by
          rw [u.advance_succ]
        have hstate := ticks_state p.gate n s.gf
        have hlev := ticks_lev p.gate n s.gf
        rw [show s.gf.shipped + (n + 1) - 1 = s.gf.shipped + n from rfl] at hgoes
        refine .merged ?_ (fun hon => ?_) fun hidle => ?_
        · change Degrades (ticks p.gate (n + 1) s.gf).lev (ticks p.gate (n + 1) s.gf).state
            (ticks p.gate (n + 1) s.gf).shipped _
          rw [hlev, hstate, hshipped]
          exact hgoes
        · have hle := hlive (hstream.symm.trans hon)
          rw [hnew]
          change u.newest ≤ max (virtualIndex (ticks p.gate (n + 1) s.gf)) (ticks p.gate (n + 1) s.gf).shipped
          rw [htime, hshipped]
          unfold recordIndex at hle
          omega
        · have hdark := hends (hstream.symm.trans hidle)
          rw [hnew]
          change EndsDark (ticks p.gate (n + 1) s.gf).lev (ticks p.gate (n + 1) s.gf).state
            (ticks p.gate (n + 1) s.gf).shipped _
          rw [hshipped]
          intro i hi hpast
          change ((ticks p.gate (n + 1) s.gf).stateAt i).2 = false
          rw [ticks_stateAt p.gate (n + 1) hi]
          exact hdark i (by omega) hpast
  · rw [shipLoop, if_neg hdue]
    change Alongside s.gf (u.advance s.gf.shipped s.gf.shipped)
    rw [u.advance_self]
    exact h

/-- **A sample of the gate.** -/
theorem gateEdge_alongside {gate : Bool} {g : Gf} {u : Unbounded} (h : Alongside g u) :
    Alongside (gateEdge gate g) (if falls gate g then u.clear else u) := by
  cases hfall : falls gate g with
  | false =>
    refine h.steady ⟨gateEdge_holds hfall, ?_, ?_, ?_⟩
    · simp only [gateEdge]
      split_ifs <;> rfl
    · simp only [gateEdge]
      split_ifs <;> exact id
    · simp only [gateEdge]
      split_ifs <;> exact Nat.le_refl _
  | true =>
    simp only [falls, Bool.and_eq_true, Bool.not_eq_true'] at hfall
    obtain ⟨rfl, hseen⟩ := hfall
    have hedge : gateEdge false g = ditherReset { g with
        gateSeen := false, curFire := false, lev := g.lev.map fun e => { e with fire := false } } := by
      rw [gateEdge, if_neg (by rw [hseen]; rintro ⟨⟩), if_neg (by decide)]
    rw [hedge, if_pos rfl]
    cases h with
    | failed hfailed => exact .failed hfailed
    | same hlev hcur =>
      refine .same ?_ ?_
      · rw [Unbounded.clear, hlev]
        rfl
      · rw [Unbounded.clear, hcur]
        rfl
    | merged hdegrades hlive _ =>
      refine .merged hdegrades.clear hlive fun _ i _ _ => ?_
      exact congrArg Prod.snd (Degrades.stateAt_clear g.lev g.state i)
    | gone hlev _ hlevU _ hidle hkernel hover =>
      refine .gone ?_ rfl ?_ rfl hidle hkernel hover
      · change g.lev.map _ = []
        rw [hlev]
        rfl
      · rw [Unbounded.clear, hlevU]
        rfl

/-- **The end of a stream**: the pad behind a lit last tick puts the fire at the cursor off. -/
theorem endStream_alongside {e : Env} {s : State} {u : Unbounded} (h : Alongside s.gf u)
    (hidle : s.gf.streaming = false) : Alongside (endStream e s).gf
      (if s.gf.kernelRunning && s.gf.lastLit then { u with cur := (u.cur.1, false) } else u) := by
  cases hrunning : s.gf.kernelRunning with
  | false =>
    rw [endStream, if_neg (by rw [hrunning]; rintro ⟨⟩)]
    exact h
  | true =>
    rw [endStream, if_pos hrunning, Bool.true_and]
    cases hlit : s.gf.lastLit with
    | false =>
      rw [endPad, if_neg (by rw [hlit]; rintro ⟨⟩)]
      exact h.steady (.of rfl rfl rfl id rfl rfl (by rintro ⟨⟩) (Nat.le_refl _))
    | true =>
      rw [endPad, if_pos hlit, if_pos rfl]
      cases h with
      | failed hfailed => exact .failed hfailed
      | same hlev hcur =>
        refine .same hlev ?_
        rw [hcur]
        rfl
      | gone _ _ _ _ _ hkernel => exact absurd (hrunning.symm.trans hkernel) (by decide)
      | merged hdegrades _ hends =>
        refine .merged ((hdegrades.unlight (hends hidle)).later (Nat.le_succ _)) ?_ fun _ i hi hpast => ?_
        · exact fun hon => absurd (hidle.symm.trans hon) (by decide)
        · have hdark := hends hidle i (Nat.le_of_succ_le hi) hpast
          exact (congrArg Prod.snd (Degrades.stateAt_unlit hdark)).trans hdark

/-- A pass behind the gate's edge. -/
theorem shipGated_alongside {e : Env} {gate : Bool} {s : State} {u : Unbounded} (h : Alongside s.gf u) :
    Alongside (shipGated e gate s).gf
      (if !s.gf.streaming && s.gf.produced - s.gf.shipped == 0 then
        if s.gf.kernelRunning && s.gf.lastLit then { u with cur := (u.cur.1, false) } else u
      else u.advance s.gf.shipped (shipGated e gate s).gf.shipped) := by
  have hhold : ∀ v : State, v.gf.Steady (pollHold e v).gf := by
    intro v
    simp only [pollHold]
    split_ifs <;> exact .of rfl rfl rfl id rfl rfl id (Nat.le_refl _)
  simp only [shipGated]
  split
  · next hover =>
    simp only [Bool.and_eq_true, Bool.not_eq_true'] at hover
    exact (endStream_alongside h hover.1).steady (hhold _)
  · split
    · rw [u.advance_self]
      exact h
    · exact shipLoop_alongside (s := anchor e.now s) (h.steady (.of rfl rfl rfl id rfl rfl id (Nat.le_refl _)))

/-- Outside its passes the shipper leaves the queue alone. -/
theorem shipStep_steady {e : Env} {s : State} (hpass : ∀ gate, s.pc ≠ .sampled gate)
    (hwrote : ∀ p c ok, s.pc ≠ .wrote p c ok) (hok : s.gf.failed = false) : s.gf.Steady (shipStep e s).gf := by
  have hsame : ∀ {r : Gf}, r.lev = s.gf.lev → r.state = s.gf.state → r.shipped = s.gf.shipped →
      r.streaming = s.gf.streaming → r.produced = s.gf.produced →
      (r.kernelRunning = true → s.gf.kernelRunning = true) → virtualIndex s.gf = virtualIndex r → s.gf.Steady r := by
    intro r hlev hstate hshipped hstream hproduced hkernel htime
    exact .of hlev hstate hshipped (fun hbad => absurd (hok.symm.trans hbad)
        (by decide)) hstream hproduced hkernel
      (Nat.le_of_eq htime)
  unfold shipStep
  split
  case h_8 gate hpc => exact absurd hpc (hpass gate)
  case h_10 p c ok hpc => exact absurd hpc (hwrote p c ok)
  case h_1 => simp only [pendingSnapshot, resetPad]; split_ifs <;> exact hsame rfl rfl rfl rfl rfl id rfl
  case h_3 => simp only [pendingSeek]; split_ifs <;> exact hsame rfl rfl rfl rfl rfl id rfl
  case h_5 cleared counts zeros _ =>
    have hsettled := pendingDone_settled cleared counts zeros s
    refine hsame (hsettled.frame Gf.lev rfl) (hsettled.frame Gf.state rfl) (hsettled.frame Gf.shipped rfl)
      (hsettled.frame Gf.streaming rfl) (hsettled.frame Gf.produced rfl) ?_ (hsettled.frame virtualIndex rfl).symm
    exact fun hon => absurd hon (by rintro ⟨⟩)
  case h_6 => simp only [pendingOurs]; split <;> exact hsame rfl rfl rfl rfl rfl id rfl
  case h_7 =>
    simp only [shipLock, faultPad]
    split_ifs with _ hfault
    · rw [hok] at hfault
      cases hfault
    · exact hsame rfl rfl rfl rfl rfl id rfl
    · exact hsame rfl rfl rfl rfl rfl id rfl
  case h_9 => simp only [shipWrite]; split <;> (try split_ifs) <;> exact hsame rfl rfl rfl rfl rfl id rfl
  case h_15 => simp only [issueRelight]; split_ifs <;> exact hsame rfl rfl rfl rfl rfl id rfl
  case h_20 => simp only [issueEnd]; split_ifs <;> exact hsame rfl rfl rfl rfl rfl id rfl
  case h_23 =>
    simp only [shipRc, exchangeFailed]
    split_ifs <;> exact hsame rfl rfl rfl rfl rfl id rfl
  all_goals exact hsame rfl rfl rfl rfl rfl id rfl

/-- **Every step of the shipper** keeps the invariant: a sample of the gate can clear both queues, a
round walks both, and the rest touches neither. -/
theorem shipStep_alongside {e : Env} {s : State} {u : Unbounded} (h : Alongside s.gf u) :
    Alongside (shipStep e s).gf (u.ship e s) := by
  cases hok : s.gf.failed with
  | true => exact .failed (shipStep_failed e s hok)
  | false =>
    by_cases hpass : ∃ gate, s.pc = .sampled gate
    · obtain ⟨gate, hpc⟩ := hpass
      have hedge : Alongside (gateEdge gate s.gf) (if falls gate s.gf then u.clear else u) := gateEdge_alongside h
      have hgated := @shipGated_alongside e gate { s with gf := gateEdge gate s.gf } _ hedge
      have hbody : shipStep e s = shipBody e gate s := by rw [shipStep, hpc]
      have hstep : shipStep e s = shipGated e gate { s with gf := gateEdge gate s.gf } := hbody
      have hfields : (gateEdge gate s.gf).streaming = s.gf.streaming ∧ (gateEdge gate s.gf).produced = s.gf.produced ∧
          (gateEdge gate s.gf).shipped = s.gf.shipped ∧ (gateEdge gate s.gf).kernelRunning = s.gf.kernelRunning ∧
          (gateEdge gate s.gf).lastLit = s.gf.lastLit := by
        simp only [gateEdge]
        split_ifs <;> exact ⟨rfl, rfl, rfl, rfl, rfl⟩
      have hsampled : u.sampled s = if falls gate s.gf then u.clear else u := by
        rw [Unbounded.sampled, samples, hpc]
      obtain ⟨hstream, hproduced, hshipped, hkernel, hlit⟩ := hfields
      simp only [hstream, hproduced, hshipped, hkernel, hlit, ← hsampled, ← hstep] at hgated
      simp only [Unbounded.ship, hpc]
      exact hgated
    by_cases hwrote : ∃ p c ok, s.pc = .wrote p c ok
    · obtain ⟨p, c, ok, hpc⟩ := hwrote
      simp only [Unbounded.ship, hpc]
      cases ok with
      | false =>
        refine .failed ?_
        rw [shipStep, hpc]
        rfl
      | true =>
        have hbody : shipStep e s = shipWrote p c true s := by rw [shipStep, hpc]
        have hstep : shipStep e s = shipNext p c (chunkLanded c s) := hbody
        have hlanded : Alongside (chunkLanded c s).gf u := h.steady (.of rfl rfl rfl id rfl rfl id (Nat.le_refl _))
        rw [hstep, shipNext]
        split
        · change Alongside (chunkLanded c s).gf (u.advance s.gf.shipped s.gf.shipped)
          rw [u.advance_self]
          exact hlanded
        · exact shipLoop_alongside hlanded
    · have hstays : u.ship e s = u := by
        rw [Unbounded.ship]
        split
        · next gate hpc => exact absurd ⟨gate, hpc⟩ hpass
        · next p c ok hpc => exact absurd ⟨p, c, ok, hpc⟩ hwrote
        · rw [hok]
          rfl
        · rfl
      rw [hstays]
      exact h.steady (shipStep_steady (fun gate hpc => hpass ⟨gate, hpc⟩)
        (fun p c ok hpc => hwrote ⟨p, c, ok, hpc⟩) hok)

/-! ## Runs -/

/-- What the invariant says of the states ahead of the cursor. -/
theorem Alongside.stateAt {g : Gf} {u : Unbounded} (h : Alongside g u) (hok : g.failed = false) {i : Nat}
    (hi : g.shipped ≤ i) :
    ((g.stateAt i).2 = true → (Stream.stateAt u.lev u.cur i).2 = true) ∧
    (g.streaming = true ∨ g.shipped < g.produced → u.newest ≤ i → g.stateAt i = Stream.stateAt u.lev u.cur i) := by
  cases h with
  | failed hfailed => exact absurd (hok.symm.trans hfailed) (by decide)
  | same hlev hcur =>
    have hsame : g.stateAt i = Stream.stateAt u.lev u.cur i := by rw [Gf.stateAt, hlev, hcur]
    exact ⟨fun hlit => hsame ▸ hlit, fun _ _ => hsame⟩
  | merged hdegrades => exact ⟨hdegrades.dark i hi, fun _ => hdegrades.final i hi⟩
  | gone hlev hdark _ _ hidle _ hover =>
    refine ⟨fun hlit => ?_, fun hgoes => ?_⟩
    · rw [Gf.stateAt, hlev] at hlit
      exact absurd (hdark.symm.trans hlit) (by decide)
    · rcases hgoes with hstream | hmore
      · exact absurd (hidle.symm.trans hstream) (by decide)
      · omega

/-- The beginning of a round, behind its sample. -/
theorem RoundAt.alongside {e : Env} {s v : State} {p : Pass} {u : Unbounded} (hround : RoundAt e s p v)
    (h : Alongside s.gf u) : Alongside v.gf (u.sampled s) := by
  cases hround with
  | first hpc =>
    rw [Unbounded.sampled, samples, hpc]
    exact (gateEdge_alongside h).steady (.of rfl rfl rfl id rfl rfl id (Nat.le_refl _))
  | next hpc hok =>
    rw [Unbounded.sampled, samples, hpc]
    exact h.steady (.of rfl rfl rfl id rfl rfl id (Nat.le_refl _))

theorem RoundAt.unfailed {e : Env} {s v : State} {p : Pass} (hround : RoundAt e s p v)
    (hlocked : s.pc.holdsLock = true → s.gf.failed = false) : v.gf.failed = false ∧ v.gf.shipped = s.gf.shipped := by
  cases hround with
  | first hpc =>
    refine ⟨?_, gateEdge_shipped _ _⟩
    rw [← hlocked (by rw [hpc]; rfl)]
    simp only [anchor, gateEdge]
    split_ifs <;> rfl
  | next hpc hok => exact ⟨hok, rfl⟩

/-- **A full queue degrades safely** where the condition holds: no tick is lit that the unbounded queue
leaves dark, and from the last record on the power and the fire state of a tick are that queue's. -/
theorem full_queue_degrades {c : Config} {k : Kernel} {emptied counted : Bool} {s t : State} {u : Unbounded}
    {e : Env}
    (hrun : Runs.Reach (Runs.observe step fun s l u => u.record s l) (fun x l => safely x.1 x.2 l = true)
      (State.init c k emptied counted, {}) (s, u))
    (hstep : step s (.ship e) = some t) :
    (∀ n b, (newTicks s t)[n]? = some b → lit b = true →
      (stateAt (u.sampled s).lev (u.sampled s).cur (s.gf.shipped + n)).2 = true) ∧
    (∀ i g, Builds e s i g → (u.sampled s).newest ≤ i →
      g.state = stateAt (u.sampled s).lev (u.sampled s).cur i) := by
  have hinit : (State.init c k emptied counted).gf.lev = [] ∧ (State.init c k emptied counted).gf.state = (0, false) := by
    simp only [State.init, rebaseAtTakeover]
    split_ifs <;> exact ⟨rfl, rfl⟩
  have halong : Alongside s.gf u := by
    refine hrun.invariant (P := fun x => Alongside x.1.gf x.2) (.same hinit.1.symm hinit.2.symm) ?_
    rintro ⟨v, w⟩ l ⟨v', w'⟩ h hsafe hnext
    obtain ⟨hgoes, rfl⟩ := Runs.observe_eq_some.mp hnext
    have hturn := (step_eq_some.mp hgoes).2
    by_cases hship : ∃ e, l = .ship e
    · obtain ⟨e, rfl⟩ := hship
      cases hturn
      exact shipStep_alongside h
    · exact turn_alongside h hturn (fun e he => hship ⟨e, he⟩) hsafe
  have hreach : Runs.Reach step (fun _ _ => True) (State.init c k emptied counted) s :=
    hrun.forget fun _ _ _ => trivial
  have hlocked : s.pc.holdsLock = true → s.gf.failed = false :=
    hreach.invariant (P := fun w => w.pc.holdsLock = true → w.gf.failed = false) (by rintro ⟨⟩)
      fun _ _ _ h _ hnext => step_locked h hnext
  obtain ⟨-, hturn⟩ := step_eq_some.mp hstep
  cases hturn
  constructor
  · intro n b hb hlit
    rcases shipStep_round e s with ⟨p, v, hround, heq⟩ | ⟨pad, hpad, hdump⟩
    · obtain ⟨hok, hshipped⟩ := hround.unfailed hlocked
      rw [heq] at hb
      rcases newTicks_shipLoop hround with hnil | hticks
      · rw [hnil] at hb
        cases hb
      · obtain ⟨m, hwalk⟩ := buildTicks_ticks p.gate p.due v.gf.streaming shipChunk v.gf
        rw [hticks, hwalk] at hb
        obtain ⟨-, hfire⟩ := (tickBytes_lit p.gate m v.gf).2 n b hb hlit
        rw [← hshipped]
        exact ((hround.alongside halong).stateAt hok (Nat.le_add_right _ _)).1 hfire
    · rw [newTicks_pad hpad hdump b (List.mem_of_getElem? hb)] at hlit
      cases hlit
  · rintro i g ⟨hround, hloop, hidx, hbuilt⟩ hnew
    rename_i p v n
    obtain ⟨hok, hshipped⟩ := hround.unfailed hlocked
    rw [ticks_state, hidx]
    refine ((hround.alongside halong).stateAt hok (by omega)).2 ?_ hnew
    -- a tick is built where there is one to ship
    by_contra hnot
    simp only [not_or, Bool.not_eq_true, Nat.not_lt] at hnot
    have hnone : tickDue p.due v.gf.streaming v.gf = false := by
      simp [tickDue, hnot.1, Nat.not_lt.mpr hnot.2]
    rw [hloop, shipLoop, if_neg (by rw [hnone]; rintro ⟨⟩)] at hbuilt
    change i < v.gf.shipped at hbuilt
    omega

/-! ## A full queue

A run that fills the queue meets the condition: its cycles begin and end at one tick, dark. What the next call
is decides whether the run still does. -/

/-- A call that enters and runs at once. -/
theorem reach_call (ok : State × Unbounded → Label → Prop) {c : Call} {s : State} {u : Unbounded} (now : Nat)
    (hfree : s.pc.holdsLock = false) (henters : c.enters s = true) (hokEnter : ok (s, u) (.enter c))
    (hok : ok ({ s with entered := c :: s.entered }, u) (.locked c now)) :
    Runs.Reach (Runs.observe step fun s l u => u.record s l) ok (s, u)
      (c.locked now s, u.record s (.locked c now)) := by
  have henter : step s (.enter c) = some { s with entered := c :: s.entered } := by
    refine step_eq_some.mpr ⟨rfl, ?_⟩
    rw [turn, enter, if_pos henters]
  have hlocked : step { s with entered := c :: s.entered } (.locked c now) = some (c.locked now s) := by
    refine step_eq_some.mpr ⟨?_, ?_⟩
    · simp [Label.enabled, Label.needsLock, Label.needsLatch, Label.beginsCall, hfree]
    · rw [turn, List.erase_cons_head]
  have hrecord : u.record { s with entered := c :: s.entered } (.locked c now) = u.record s (.locked c now) := by
    cases c <;> rfl
  refine (Runs.Reach.refl.step hokEnter (Runs.observe_eq_some.mpr ⟨henter, rfl⟩)).step hok
    (Runs.observe_eq_some.mpr ⟨hlocked, ?_⟩)
  rw [← hrecord]
  rfl

def ShipPc.isLock : ShipPc → Bool
  | .lock => true
  | _ => false

theorem ShipPc.eq_lock {pc : ShipPc} (h : pc.isLock = true) : pc = .lock := by
  cases pc <;> first | rfl | cases h

/-- A transition to full power, dark, at the first tick behind the preload. -/
def darkEntry : LaserEv := ⟨20, 127, false⟩

/-- Between two cycles `k` such transitions wait for the cursor, which stands at their tick. -/
structure Filled (k : Nat) (s : State) (u : Unbounded) : Prop where
  lev : s.gf.lev = List.replicate k darkEntry
  levU : u.lev = List.replicate k darkEntry
  cur : s.gf.state = (0, false)
  curU : u.cur = (0, false)
  want : (s.gf.wantPower, s.gf.wantFire, s.gf.jogging) = (127, false, false)
  flags : (s.gf.streaming, s.gf.kernelRunning, s.gf.failed, s.gf.suspended) = (false, true, false, false)
  cursor : (s.gf.produced, s.gf.shipped, s.gf.shipT0) = (20, 20, 0)
  setting : (s.gf.rate, s.gf.depth, s.gf.dithPeriod) = (1000, 20, 0)
  gate : (s.pc.isLock, s.laserArmed, s.fireGate) = (true, true, true)

namespace Filled

variable {k : Nat} {s : State} {u : Unbounded}

theorem noGap (h : Filled k s u) : ¬dueIndex 0 s.gf > s.gf.produced := by
  have hproduced : s.gf.produced = 20 := (Prod.mk.inj h.cursor).1
  have hdepth : s.gf.depth = 20 := (Prod.mk.inj (Prod.mk.inj h.setting).2).1
  rw [dueIndex, Nat.zero_sub, Nat.zero_mul, Nat.zero_div, hdepth, hproduced]
  decide

/-- The wakeup goes on at the cursor. -/
theorem wakeupRecord_eq (h : Filled k s u) :
    wakeupRecord 0 s = { s.gf with
      killed := false, killStep := 0, streaming := true, vticks := 0, wallEpoch := 0, holdPending := false
      base := s.gf.produced } := by
  have hrunning : s.gf.kernelRunning = true := (Prod.mk.inj (Prod.mk.inj h.flags).2).1
  have hgoes : wakeupContinue 0 (wakeupClock 0 (wakeupMark s).gf) = wakeupClock 0 (wakeupMark s).gf :=
    if_neg h.noGap
  rw [wakeupRecord, wakeupIndex,
    if_pos (show (wakeupClock 0 (wakeupMark s).gf).kernelRunning = true from hrunning), hgoes]
  rfl

theorem begins_eq (h : Filled k s u) : u.begins 0 s.gf = u := by
  have hrunning : s.gf.kernelRunning = true := (Prod.mk.inj (Prod.mk.inj h.flags).2).1
  rw [Unbounded.begins, if_pos hrunning, if_neg h.noGap]

theorem wanted_eq (h : Filled k s u) : wanted s = (127, false) := by
  obtain ⟨hpower, hrest⟩ := Prod.mk.inj h.want
  rw [wanted, mayFire, hpower, (Prod.mk.inj hrest).1]
  rfl

theorem enter (h : Filled k s u) (calls : List Call) : Filled k { s with entered := calls } u :=
  ⟨h.lev, h.levU, h.cur, h.curU, h.want, h.flags, h.cursor, h.setting, h.gate⟩

/-- With room the wakeup asserts. -/
theorem wakeup_gf (h : Filled k s u) (hroom : k < levN) :
    (wakeupLocked 0 s).gf = { s.gf with
      killed := false, killStep := 0, streaming := true, vticks := 0, wallEpoch := 0, holdPending := false
      base := s.gf.produced, lev := List.replicate k darkEntry ++ [darkEntry] } := by
  have hidle : s.gf.streaming = false := (Prod.mk.inj h.flags).1
  have hproduced : s.gf.produced = 20 := (Prod.mk.inj h.cursor).1
  have hqueues : queues (127, false) (wakeupRecord 0 s) = true := by
    rw [queues, h.wakeupRecord_eq]
    change (decide ((127, false) ≠ s.gf.state) && decide (s.gf.lev.length < levN)) = true
    rw [h.cur, h.lev, List.length_replicate, decide_eq_true hroom]
    rfl
  rw [wakeupLocked_asserted 0 hidle, h.wanted_eq, asserted, if_pos hqueues, h.wakeupRecord_eq]
  simp only [h.lev, hproduced, darkEntry]

theorem asserts_eq (h : Filled k s u) :
    (u.begins 0 s.gf).asserts (wakeupRecord 0 s).base (wanted s) = u.push darkEntry := by
  have hproduced : s.gf.produced = 20 := (Prod.mk.inj h.cursor).1
  have hne : ((127, false) : UInt8 × Bool) ≠ u.cur := by
    rw [h.curU]
    decide
  rw [h.begins_eq, h.wanted_eq, Unbounded.asserts, if_pos hne, h.wakeupRecord_eq]
  simp only [hproduced, darkEntry]

/-- Its wakeup is safe: the two queues are the same and there is room, or all that waits is due at the base
and is what the wakeup would assert. -/
theorem wakeup_safe (h : Filled k s u) (hpos : 0 < k) (entered : List Call) :
    safely { s with entered := entered } u (.locked .wakeup 0) = true := by
  have hidle : s.gf.streaming = false := (Prod.mk.inj h.flags).1
  have hproduced : s.gf.produced = 20 := (Prod.mk.inj h.cursor).1
  have hrecord := (h.enter entered).wakeupRecord_eq
  simp only [safely, hidle, Bool.false_or, decide_eq_true_eq, (h.enter entered).wanted_eq, h.begins_eq]
  rw [hrecord]
  by_cases hroom : k < levN
  · refine .inl ⟨h.levU.trans h.lev.symm, h.curU.trans h.cur.symm, ?_⟩
    rw [queues]
    dsimp only
    rw [h.lev, List.length_replicate, decide_eq_true hroom, Bool.and_true]
  · have hdue : ∀ e ∈ List.replicate k darkEntry, e.idx = 20 :=
      fun e he => congrArg LaserEv.idx (List.eq_of_mem_replicate he)
    refine .inr ⟨?_, fun e he => ?_, .inr ⟨?_, ?_⟩⟩
    · dsimp only
      rw [h.lev]
      exact List.pairwise_replicate.mpr (.inr (Nat.le_refl _))
    · dsimp only at he ⊢
      rw [h.lev, h.levU, ← List.replicate_add] at he
      rw [hproduced, List.eq_of_mem_replicate he]
      exact Nat.le_refl _
    · rw [h.curU]
      decide
    · dsimp only [Gf.stateAt]
      rw [h.lev, hproduced, stateAt, Timeline.inForce_eq_final fun e he => Nat.le_of_eq (hdue e he)]
      obtain ⟨n, rfl⟩ := Nat.exists_eq_succ_of_ne_zero (Nat.ne_of_gt hpos)
      rw [List.replicate_succ']
      exact Timeline.final_concat _

/-- The end of a cycle that finds the newest transition there, and dark. -/
theorem goIdle_same {g : Gf} {q : List LaserEv} (hlev : g.lev = q ++ [darkEntry])
    (hcursor : (g.produced, g.shipped) = (20, 20)) : (goIdleDark g).lev = q ++ [darkEntry] := by
  obtain ⟨hproduced, hshipped⟩ := Prod.mk.inj hcursor
  have hacts : g.curFire = true ∨ g.lev ≠ [] := by
    rw [hlev]
    exact .inr (List.append_ne_nil_of_right_ne_nil q (List.cons_ne_nil _ _))
  rw [goIdleDark, if_pos hacts, hlev, List.getLast?_concat, hproduced, hshipped]
  dsimp only
  rw [if_pos (.inl (by decide)), List.dropLast_concat]
  rfl

/-- **One more**: a cycle that begins and ends. -/
theorem more (h : Filled k s u) (hpos : 0 < k) (hroom : k < levN) :
    ∃ t v, Runs.Reach (Runs.observe step fun s l u => u.record s l) (fun x l => safely x.1 x.2 l = true) (s, u)
        (t, v) ∧
      Filled (k + 1) t v := by
  have hpc : s.pc = .lock := ShipPc.eq_lock (Prod.mk.inj h.gate).1
  have hidle : s.gf.streaming = false := (Prod.mk.inj h.flags).1
  have hok : s.gf.failed = false := (Prod.mk.inj (Prod.mk.inj (Prod.mk.inj h.flags).2).2).1
  have hbegins := reach_call (fun x l => safely x.1 x.2 l = true) (c := .wakeup) (s := s) (u := u) 0
    (by rw [hpc]; rfl) (by simp [Call.enters, hok]) rfl (h.wakeup_safe hpos _)
  have hrecord : u.record s (.locked .wakeup 0) = u.push darkEntry := by
    rw [Unbounded.record, if_neg (by rw [hidle]; rintro ⟨⟩)]
    exact h.asserts_eq
  rw [hrecord, Call.locked] at hbegins
  have hgf := h.wakeup_gf hroom
  have hgate : ((wakeupLocked 0 s).pc.isLock, (wakeupLocked 0 s).laserArmed, (wakeupLocked 0 s).fireGate) =
      (true, true, true) := by
    rw [← h.gate, wakeupLocked, if_neg (by rw [hidle]; rintro ⟨⟩)]
    rfl
  generalize wakeupLocked 0 s = t at hbegins hgf hgate
  have hlive : t.gf.streaming = true := by rw [hgf]
  have hlev : t.gf.lev = List.replicate k darkEntry ++ [darkEntry] := by rw [hgf]
  have hcursor : (t.gf.produced, t.gf.shipped) = (20, 20) := by
    rw [hgf]
    exact congrArg (fun c : Nat × Nat × Nat => (c.1, c.2.1)) h.cursor
  -- the end of the cycle changes nothing in either queue
  have hends : goIdleDark t.gf = t.gf := by
    rw [goIdleDark_eq, goIdle_same hlev hcursor, ← hlev]
  have hgo : (gfStreamGoIdle false 0 0 t).gf = { t.gf with streaming := false } := by
    change goIdleEnd t.gf = _
    rw [goIdleEnd, if_pos hlive, hends]
  have hlevU : (u.push darkEntry).lev = t.gf.lev := by
    rw [hlev, Unbounded.push, h.levU]
  have hcurU : (u.push darkEntry).cur = t.gf.state := by
    rw [hgf]
    exact h.curU.trans h.cur.symm
  have hlast : ∃ e ∈ t.gf.lev.getLast?, cycleEnd t.gf ≤ e.idx := by
    refine ⟨darkEntry, by rw [hlev, List.getLast?_concat]; rfl, ?_⟩
    rw [cycleEnd, (Prod.mk.inj hcursor).1, (Prod.mk.inj hcursor).2]
    decide
  obtain ⟨hq, hc⟩ := Alongside.goIdle_same hlevU hcurU (.inr hlast)
  have hnext : step t (.goIdle false 0 0) = some (gfStreamGoIdle false 0 0 t) := by
    refine step_eq_some.mpr ⟨?_, rfl⟩
    simp [Label.enabled, Label.needsLock, Label.needsLatch, Label.beginsCall, ShipPc.eq_lock (Prod.mk.inj hgate).1,
      ShipPc.holdsLock]
  have hrecordEnd : (u.push darkEntry).record t (.goIdle false 0 0) = (u.push darkEntry).goIdle t.gf := if_pos hlive
  have hsafe : safely t (u.push darkEntry) (.goIdle false 0 0) = true := by
    simp only [safely, hlive, Bool.not_true, Bool.false_or, decide_eq_true_eq]
    exact .inr (.inl hlast)
  refine ⟨_, _, hbegins.step hsafe (Runs.observe_eq_some.mpr ⟨hnext, rfl⟩), ?_⟩
  rw [List.replicate_succ'.symm] at hlev
  constructor
  · rw [hgo]
    exact hlev
  · rw [hrecordEnd, hq, hends]
    exact hlev
  · rw [hgo]
    exact hcurU.symm.trans h.curU
  · rw [hrecordEnd, hc]
    exact h.curU
  · rw [hgo, hgf]
    exact h.want
  · rw [hgo, hgf]
    exact congrArg (fun c : Bool × Bool × Bool × Bool => (false, c.2.1, c.2.2.1, c.2.2.2)) h.flags
  · rw [hgo, hgf]
    exact h.cursor
  · rw [hgo, hgf]
    exact h.setting
  · exact hgate

end Filled

/-- A lit cycle's power is set with its laser off, and its preload ships. -/
def darkAhead : List Label :=
  [.laserArm true, .fireGate true, .enter (.laser 127 false), .locked (.laser 127 false) 0,
    .enter .wakeup, .locked .wakeup 0] ++ List.replicate 13 (Label.ship {}) ++ [Label.goIdle false 0 0]

/-- **The queue fills** with cycles that begin and end. -/
theorem exists_filled {k : Nat} (hone : 1 ≤ k) (hle : k ≤ levN) :
    ∃ s u, Runs.Reach (Runs.observe step fun s l u => u.record s l) (fun x l => safely x.1 x.2 l = true)
      (State.init (slowConfig false) idleKernel true true, {}) (s, u) ∧ Filled k s u := by
  induction k, hone using Nat.le_induction with
  | base =>
    have hrun : ∃ x : State × Unbounded,
        Runs.Reach (Runs.observe step fun s l u => u.record s l) (fun x l => safely x.1 x.2 l = true)
          (State.init (slowConfig false) idleKernel true true, {}) x ∧
        (x.1.gf.lev = List.replicate 1 darkEntry ∧ x.2.lev = List.replicate 1 darkEntry ∧
          x.1.gf.state = (0, false) ∧ x.2.cur = (0, false) ∧
          (x.1.gf.wantPower, x.1.gf.wantFire, x.1.gf.jogging) = (127, false, false) ∧
          (x.1.gf.streaming, x.1.gf.kernelRunning, x.1.gf.failed, x.1.gf.suspended) = (false, true, false, false) ∧
          (x.1.gf.produced, x.1.gf.shipped, x.1.gf.shipT0) = (20, 20, 0) ∧
          (x.1.gf.rate, x.1.gf.depth, x.1.gf.dithPeriod) = (1000, 20, 0) ∧
          (x.1.pc.isLock, x.1.laserArmed, x.1.fireGate) = (true, true, true)) :=
      Runs.exists_reach_of_exec darkAhead (by decide +kernel)
    obtain ⟨⟨s, u⟩, hreach, hlev, hlevU, hcur, hcurU, hwant, hflags, hcursor, hsetting, hgate⟩ := hrun
    exact ⟨s, u, hreach, ⟨hlev, hlevU, hcur, hcurU, hwant, hflags, hcursor, hsetting, hgate⟩⟩
  | succ k hpos ih =>
    obtain ⟨s, u, hreach, hfilled⟩ := ih (Nat.le_of_succ_le hle)
    obtain ⟨t, v, hmore, hnext⟩ := hfilled.more hpos hle
    exact ⟨t, v, hreach.trans hmore, hnext⟩

/-! ## A merge

A call behind the last transition of a full queue goes into that transition, and so comes into force with
it. -/

/-- A loop that has one tick to build in the analog model. -/
theorem oneTick_lit {g : Gf} (hanalog : g.dithPeriod = 0) :
    ∃ b, ((buildTicks true (g.shipped + 1) true shipChunk g []).2.filter isTick)[0]? = some b ∧
      lit b = fireAt g.lev g.curFire g.shipped := by
  have hdue : tickDue (g.shipped + 1) true g = true := by simp [tickDue]
  have hover : tickDue (g.shipped + 1) true (shipTick true g).1 = false := by simp [tickDue, shipTick_shipped]
  have hloop : (buildTicks true (g.shipped + 1) true shipChunk g []).2 = (shipTick true g).2 := by
    change (buildTicks true (g.shipped + 1) true (254 + 1 + 1) g []).2 = _
    rw [buildTicks, if_pos (by rw [hdue]; decide)]
    change (buildTicks true (g.shipped + 1) true (254 + 1) (shipTick true g).1 ([] ++ (shipTick true g).2)).2 = _
    rw [buildTicks, if_neg (by rw [hover]; simp)]
    rfl
  obtain ⟨power, fires, hbytes, hpower, -⟩ := shipTick_bytes true g
  have hlast := @shipTick_analog true g hanalog
  have hnone : power.filter isTick = [] := by
    rw [List.filter_eq_nil_iff]
    intro b hb
    rw [hpower b hb]
    exact Bool.false_ne_true
  rw [hbytes, List.getLast?_concat] at hlast
  refine ⟨shippedByte (g.ring (slot g.shipped)) fires, ?_, ?_⟩
  · rw [hloop, hbytes, List.filter_append, hnone, List.nil_append,
      List.filter_cons_of_pos (isTick_shippedByte _ _)]
    rfl
  · rw [Option.some.inj hlast, lit_shippedByte]
    exact Bool.and_true _

/-- The ticks of a round that has one to build. -/
theorem newTicks_due {e : Env} {s v : State} {p : Pass} (hround : RoundAt e s p v)
    (hdue : tickDue p.due v.gf.streaming v.gf = true) :
    newTicks s (shipLoop p v.gf.streaming v) =
      (buildTicks p.gate p.due v.gf.streaming shipChunk v.gf []).2.filter isTick := by
  have hdump : (shipLoop p v.gf.streaming v).dump =
      s.dump ++ (buildTicks p.gate p.due v.gf.streaming shipChunk v.gf []).2 := by
    rw [shipLoop, if_pos hdue, ← hround.dump]
    rfl
  rw [newTicks, hdump, List.drop_left]

theorem gateEdge_open (g : Gf) : gateEdge true g = { g with gateSeen := true } := by
  by_cases hseen : true = g.gateSeen
  · rw [gateEdge, if_pos hseen]
    exact (congrArg (fun seen => { g with gateSeen := seen }) hseen).symm
  · rw [gateEdge, if_neg hseen, if_pos rfl]

/-- A pass that has sampled an open gate, in a live stream with one tick due. -/
theorem pass_ships {e : Env} {s : State} (hpc : s.pc = .sampled true) (hcursor : s.gf.shipped ≠ 0)
    (hlive : (s.gf.streaming, s.gf.kernelRunning, s.gf.dithPeriod) = (true, true, 0))
    (hdue : dueIndex e.later s.gf = s.gf.shipped + 1) :
    ∃ b, (newTicks s (shipStep e s))[0]? = some b ∧ lit b = fireAt s.gf.lev s.gf.curFire s.gf.shipped := by
  obtain ⟨hstream, hrest⟩ := Prod.mk.inj hlive
  obtain ⟨hrunning, hanalog⟩ := Prod.mk.inj hrest
  have hround := RoundAt.first (e := e) hpc
  have hrecord : (anchor e.now { s with gf := gateEdge true s.gf }).gf = { s.gf with gateSeen := true } := by
    have hkeeps : ¬(s.gf.shipped = 0 ∨ (!s.gf.kernelRunning) = true) := by simp [hcursor, hrunning]
    rw [gateEdge_open, anchor]
    exact congrArg (fun t => { s.gf with gateSeen := true, shipT0 := t }) (if_neg hkeeps)
  have hstep : shipStep e s = shipLoop ⟨true, dueIndex e.later (anchor e.now { s with gf := gateEdge true s.gf }).gf,
      false⟩ (anchor e.now { s with gf := gateEdge true s.gf }).gf.streaming
      (anchor e.now { s with gf := gateEdge true s.gf }) := by
    have hbody : shipStep e s = shipBody e true s := by rw [shipStep, hpc]
    rw [hbody, shipBody, shipGated, if_neg, if_neg]
    · rfl
    · rw [gateEdge_open]
      simp [hcursor, hrunning]
    · rw [gateEdge_open]
      simp [hstream]
  generalize anchor e.now { s with gf := gateEdge true s.gf } = v at hround hrecord hstep
  have hdueV : dueIndex e.later v.gf = v.gf.shipped + 1 := by rw [hrecord]; exact hdue
  have hstreamV : v.gf.streaming = true := by rw [hrecord]; exact hstream
  have hticks := newTicks_due hround (by simp [tickDue, hdueV, hstreamV])
  have hanalogV : v.gf.dithPeriod = 0 := by rw [hrecord]; exact hanalog
  have hfireV : fireAt v.gf.lev v.gf.curFire v.gf.shipped = fireAt s.gf.lev s.gf.curFire s.gf.shipped := by
    rw [hrecord]
  rw [hstep, hticks, hdueV, hstreamV, ← hfireV]
  exact oneTick_lit hanalogV

/-- A call ahead of the cursor goes into the newest transition of a full queue. -/
theorem laser_merges {power : UInt8} {fire : Bool} {s : State} {q : List LaserEv} {e : LaserEv}
    (hstream : s.gf.streaming = true) (hahead : s.gf.shipped ≤ virtualIndex s.gf) (hlev : s.gf.lev = q ++ [e])
    (hidx : e.idx ≠ virtualIndex s.gf) (hfull : levN ≤ s.gf.lev.length) :
    laserLocked power fire s = { s with gf := { s.gf with
      wantPower := power &&& 0x7f, wantFire := fire, levOverflowWarned := true
      lev := q ++ [⟨e.idx, power &&& 0x7f, mayFire s fire⟩] } } := by
  have hrecord : ∀ g : Gf, g.lev = q ++ [e] → levN ≤ g.lev.length →
      levRecord (virtualIndex s.gf) (power &&& 0x7f) (mayFire s fire) g = { g with
        lev := q ++ [⟨e.idx, power &&& 0x7f, mayFire s fire⟩], levOverflowWarned := true } := by
    intro g hg hlen
    rw [levRecord, hg, List.getLast?_concat]
    dsimp only
    rw [if_neg hidx, if_pos (hg ▸ hlen), List.dropLast_concat]
  have hevent : ∀ r : State, r.gf.streaming = true → r.gf.shipped ≤ virtualIndex r.gf →
      laserEventLocked (power &&& 0x7f) (mayFire s fire) r =
        { r with gf := levRecord (virtualIndex r.gf) (power &&& 0x7f) (mayFire s fire) r.gf } := by
    intro r hlive hplace
    rw [laserEventLocked, if_pos hlive, if_neg (Nat.not_lt.mpr hplace)]
  rw [laserLocked]
  refine (hevent { s with gf := { s.gf with wantPower := power &&& 0x7f, wantFire := fire } } hstream hahead).trans ?_
  exact congrArg (fun g => { s with gf := g })
    (hrecord { s.gf with wantPower := power &&& 0x7f, wantFire := fire } hlev hfull)

/-- A full queue drops the wakeup's assertion. -/
theorem Filled.wakeup_full {s : State} {u : Unbounded} (h : Filled levN s u) :
    (wakeupLocked 0 s).gf = wakeupRecord 0 s := by
  have hidle : s.gf.streaming = false := (Prod.mk.inj h.flags).1
  have hqueues : queues (wanted s) (wakeupRecord 0 s) = false := by
    rw [queues, h.wakeupRecord_eq]
    change (_ && decide (s.gf.lev.length < levN)) = false
    rw [h.lev, List.length_replicate, decide_eq_false (Nat.lt_irrefl _), Bool.and_false]
  rw [wakeupLocked_asserted 0 hidle, asserted, if_neg (by rw [hqueues]; rintro ⟨⟩)]

/-- A cycle begins over the full queue, and its virtual time comes ten ticks past the cursor. -/
theorem Filled.tenTicks {s : State} {u : Unbounded} (h : Filled levN s u) :
    ∃ t, Runs.Reach (Runs.observe step fun s l u => u.record s l) (fun x l => safely x.1 x.2 l = true) (s, u)
        (t, u.push darkEntry) ∧
      t.gf = { wakeupRecord 0 s with periodLatched := 10000, vticks := 10000 } ∧
      (t.pc, t.laserArmed, t.fireGate) = (.lock, true, true) := by
  have hpc : s.pc = .lock := ShipPc.eq_lock (Prod.mk.inj h.gate).1
  have hidle : s.gf.streaming = false := (Prod.mk.inj h.flags).1
  have hok : s.gf.failed = false := (Prod.mk.inj (Prod.mk.inj (Prod.mk.inj h.flags).2).2).1
  have hbegins := reach_call (fun x l => safely x.1 x.2 l = true) (c := .wakeup) (s := s) (u := u) 0
    (by rw [hpc]; rfl) (by simp [Call.enters, hok]) rfl (h.wakeup_safe (by decide) _)
  have hrecord : u.record s (.locked .wakeup 0) = u.push darkEntry := by
    rw [Unbounded.record, if_neg (by rw [hidle]; rintro ⟨⟩)]
    exact h.asserts_eq
  have hgate : ((wakeupLocked 0 s).pc, (wakeupLocked 0 s).laserArmed, (wakeupLocked 0 s).fireGate) =
      (.lock, true, true) := by
    rw [wakeupLocked, if_neg (by rw [hidle]; rintro ⟨⟩)]
    exact Prod.ext hpc (Prod.mk.inj h.gate).2
  have hticks : (wakeupLocked 0 s).gf.vticks = 0 := by
    rw [h.wakeup_full, h.wakeupRecord_eq]
  rw [hrecord, Call.locked] at hbegins
  rw [← h.wakeup_full]
  generalize wakeupLocked 0 s = t at hbegins hgate hticks
  have hrate : step t (.cyclesPerTick 10000) = some { t with gf := { t.gf with periodLatched := 10000 } } :=
    step_eq_some.mpr ⟨rfl, rfl⟩
  have hadvance : step { t with gf := { t.gf with periodLatched := 10000 } } .advance =
      some { t with gf := { t.gf with periodLatched := 10000, vticks := 10000 } } := by
    refine step_eq_some.mpr ⟨rfl, ?_⟩
    rw [turn]
    simp only [hticks, Nat.zero_add]
  exact ⟨_, (hbegins.step rfl (Runs.observe_eq_some.mpr ⟨hrate, rfl⟩)).step rfl
    (Runs.observe_eq_some.mpr ⟨hadvance, rfl⟩), rfl, hgate⟩

/-- With a transition at the cursor last in the queue and a pass to come, the tick at the cursor has its fire
state; the unbounded queue has that transition ten ticks on, and leaves the tick dark. -/
theorem cursor_ships {r : State} {u : Unbounded} {q p : List LaserEv} {power : UInt8} {fire : Bool}
    (hpc : r.pc = .lock) (hopen : r.gf.failed = false ∧ r.gf.suspended = false ∧ r.fireGate = true)
    (hlive : r.gf.streaming = true ∧ r.gf.kernelRunning = true ∧ r.gf.dithPeriod = 0)
    (hcursor : r.gf.shipped = 20 ∧ dueIndex 1000000 r.gf = 21)
    (hlev : r.gf.lev = q ++ [⟨20, power, fire⟩]) (hq : ∀ e ∈ q, e.idx ≤ 20)
    (hlevU : u.lev = p ++ [darkEntry] ++ [⟨30, power, fire⟩]) (hp : ∀ e ∈ p, e.idx ≤ 20) :
    ∃ s t b, step r (.ship {}) = some s ∧ u.record r (.ship {}) = u ∧ s.gf = r.gf ∧
      step s (.ship { later := 1000000 }) = some t ∧ (newTicks s t)[0]? = some b ∧ lit b = fire ∧
      ¬(stateAt (u.sampled s).lev (u.sampled s).cur (s.gf.shipped + 0)).2 = true := by
  obtain ⟨hok, hhere, hgate⟩ := hopen
  obtain ⟨hstream, hrunning, hanalog⟩ := hlive
  obtain ⟨hshipped, hdue⟩ := hcursor
  have hsample : shipStep {} r = { r with pc := .sampled true } := by
    have hbody : shipStep {} r = shipLock {} r := by rw [shipStep, hpc]
    rw [hbody, shipLock, if_neg (by rw [hok, hhere]; rintro ⟨⟩), hgate]
  have hstands : u.record r (.ship {}) = u := by
    simp only [Unbounded.record, Unbounded.ship, hpc, hok, Bool.false_and, Bool.false_eq_true, if_false]
  have hsampled : u.sampled { r with pc := .sampled true } = u := rfl
  have hstep : step r (.ship {}) = some { r with pc := .sampled true } :=
    step_eq_some.mpr ⟨rfl, congrArg some hsample⟩
  -- every transition of the bounded queue is due
  have hfire : fireAt r.gf.lev r.gf.curFire r.gf.shipped = fire := by
    rw [fireAt, hlev, hshipped, Timeline.inForce_eq_final, Timeline.final_concat]
    intro e he
    rcases List.mem_append.mp he with hmem | hmem
    · exact hq e hmem
    · exact Nat.le_of_eq (congrArg LaserEv.idx (List.mem_singleton.mp hmem))
  have hdark : (stateAt u.lev u.cur r.gf.shipped).2 = false := by
    have hlater : 20 < LaserEv.idx ⟨30, power, fire⟩ := by
      change 20 < 30
      decide
    rw [hlevU, hshipped, stateAt, Timeline.inForce_concat_of_lt hlater, Timeline.inForce_eq_final,
      Timeline.final_concat]
    · rfl
    · intro e he
      rcases List.mem_append.mp he with hmem | hmem
      · exact hp e hmem
      · exact Nat.le_of_eq (congrArg LaserEv.idx (List.mem_singleton.mp hmem))
  obtain ⟨b, hb, hlit⟩ := pass_ships (e := { later := 1000000 }) (s := { r with pc := .sampled true }) rfl
    (by change r.gf.shipped ≠ 0; omega) (by rw [hstream, hrunning, hanalog]) (by rw [hdue, hshipped])
  refine ⟨{ r with pc := .sampled true }, _, b, hstep, hstands, rfl, step_eq_some.mpr ⟨rfl, rfl⟩, hb,
    hlit.trans hfire, ?_⟩
  rw [hsampled]
  change ¬(stateAt u.lev u.cur r.gf.shipped).2 = true
  rw [hdark]
  rintro ⟨⟩

/-- **A call behind a full queue.** The queue is full of dark transitions at the cursor, and the core's call is
for ten ticks on. The tick at the cursor has the fire state of that call, where the unbounded queue leaves it
dark; and the run meets the condition unless the call fires. -/
theorem exists_merged (fire : Bool) :
    ∃ (s t : State) (u : Unbounded) (e : Env) (b : UInt8),
      Runs.Reach (Runs.observe step fun s l u => u.record s l) (fun x l => fire = false → safely x.1 x.2 l = true)
        (State.init (slowConfig false) idleKernel true true, {}) (s, u) ∧
      s.gf.lev.length = levN ∧ levN < u.lev.length ∧
      step s (.ship e) = some t ∧ (newTicks s t)[0]? = some b ∧ lit b = fire ∧
      ¬(stateAt (u.sampled s).lev (u.sampled s).cur (s.gf.shipped + 0)).2 = true := by
  obtain ⟨s, u, hreach, h⟩ := exists_filled (k := levN) (by decide) (Nat.le_refl _)
  obtain ⟨t, hticks, hgf, hgate⟩ := h.tenTicks
  rw [h.wakeupRecord_eq] at hgf
  obtain ⟨hpc, hgate⟩ := Prod.mk.inj hgate
  obtain ⟨harmed, hgate⟩ := Prod.mk.inj hgate
  have hflags : t.gf.kernelRunning = true ∧ t.gf.failed = false ∧ t.gf.suspended = false := by
    rw [hgf]
    exact ⟨(Prod.mk.inj (Prod.mk.inj h.flags).2).1, Prod.mk.inj (Prod.mk.inj (Prod.mk.inj h.flags).2).2⟩
  obtain ⟨hrunning, hok, hopen⟩ := hflags
  have hlive : t.gf.streaming = true := by rw [hgf]
  have hshipped : t.gf.shipped = 20 := by
    rw [hgf]
    exact (Prod.mk.inj (Prod.mk.inj h.cursor).2).1
  have htime : virtualIndex t.gf = 30 := by
    rw [hgf]
    change s.gf.produced + 10000 / vticksPerByte = 30
    rw [(Prod.mk.inj h.cursor).1]
    rfl
  have hlev : t.gf.lev = List.replicate (levN - 1) darkEntry ++ [darkEntry] := by
    rw [hgf, ← List.replicate_succ']
    exact h.lev
  have hfull : levN ≤ t.gf.lev.length := by
    rw [hgf]
    exact Nat.le_of_eq (by rw [h.lev, List.length_replicate])
  have hfire : mayFire t fire = fire := by
    have hjog : t.gf.jogging = false := by
      rw [hgf]
      exact (Prod.mk.inj (Prod.mk.inj h.want).2).2
    rw [mayFire, harmed, hjog]
    cases fire <;> rfl
  have hidx : recordIndex t.gf = 30 := by rw [recordIndex, htime, hshipped]; rfl
  -- a dark call changes no more than the power of the transition that it goes into
  have hsafe : fire = false →
      safely { t with entered := .laser 127 fire :: t.entered } (u.push darkEntry) (.locked (.laser 127 fire) 0) =
        true := by
    rintro rfl
    simp only [safely, Bool.or_eq_true, decide_eq_true_eq]
    refine .inr fun e he => ⟨?_, ?_, fun hlit => absurd (hfire.symm.trans hlit) Bool.false_ne_true⟩
    · rw [hlev, ← List.replicate_succ']
      exact List.pairwise_replicate.mpr (.inr (Nat.le_refl _))
    · have hlast : t.gf.lev.getLast? = some darkEntry := by rw [hlev, List.getLast?_concat]
      have hnewest : mergedInto t.gf 30 = some darkEntry := by
        rw [mergedInto, hlast]
        dsimp only
        rw [if_neg (by decide), if_pos hfull]
      rw [hidx, hnewest] at he
      cases he
      rw [hidx]
      decide
  have hcall := reach_call (fun x l => fire = false → safely x.1 x.2 l = true) (c := .laser 127 fire) (s := t)
    (u := u.push darkEntry) 0 (by rw [hpc]; rfl)
    (by change (!t.gf.failed) = true; rw [hok]; rfl) (fun _ => rfl) hsafe
  have hmerged := @laser_merges 127 fire t _ _ hlive (by omega) hlev (by rw [htime]; decide) hfull
  rw [Call.locked, hmerged, hfire] at hcall
  have hput : (u.push darkEntry).record t (.locked (.laser 127 fire) 0) =
      (u.push darkEntry).push ⟨30, 127, fire⟩ := by
    have hrecords : recordsNow t = true := by simp [recordsNow, hlive, htime, hshipped]
    have hnewest : (u.push darkEntry).lev.getLast? = some darkEntry := List.getLast?_concat
    rw [Unbounded.record, if_pos hrecords, hidx, hfire, Unbounded.put, hnewest]
    exact if_neg (by decide)
  rw [hput] at hcall
  have hanalog : t.gf.dithPeriod = 0 := by
    rw [hgf]
    exact (Prod.mk.inj (Prod.mk.inj h.setting).2).2
  have hdue : dueIndex 1000000 t.gf = 21 := by
    have hclock : t.gf.shipT0 = 0 ∧ t.gf.rate = 1000 ∧ t.gf.depth = 20 := by
      rw [hgf]
      exact ⟨(Prod.mk.inj (Prod.mk.inj h.cursor).2).2, (Prod.mk.inj h.setting).1,
        (Prod.mk.inj (Prod.mk.inj h.setting).2).1⟩
    rw [dueIndex, hclock.1, hclock.2.1, hclock.2.2]
  have hqueued : ∀ {n : Nat}, ∀ e ∈ List.replicate n darkEntry, e.idx ≤ 20 :=
    fun e he => Nat.le_of_eq (congrArg LaserEv.idx (List.eq_of_mem_replicate he))
  obtain ⟨v, w, b, hpass, hstands, hsame, hship, hb, hlit, hdark⟩ := cursor_ships
    (r := { t with gf := { t.gf with
      wantPower := 127 &&& 0x7f, wantFire := fire, levOverflowWarned := true
      lev := List.replicate (levN - 1) darkEntry ++ [⟨darkEntry.idx, 127 &&& 0x7f, fire⟩] } })
    (u := (u.push darkEntry).push ⟨30, 127, fire⟩) (q := List.replicate (levN - 1) darkEntry)
    (p := List.replicate levN darkEntry) hpc ⟨hok, hopen, hgate⟩ ⟨hlive, hrunning, hanalog⟩
    ⟨hshipped, hdue⟩ rfl hqueued (by rw [← h.levU]; rfl) hqueued
  have hfills : Runs.Reach (Runs.observe step fun s l u => u.record s l)
      (fun x l => fire = false → safely x.1 x.2 l = true)
      (State.init (slowConfig false) idleKernel true true, {}) (t, u.push darkEntry) :=
    (hreach.trans hticks).mono fun _ _ hsafe _ => hsafe
  refine ⟨v, w, _, _, b, (hfills.trans hcall).step (fun _ => rfl) (Runs.observe_eq_some.mpr ⟨hpass, hstands.symm⟩),
    ?_, ?_, hship, hb, hlit, hdark⟩
  · rw [hsame]
    dsimp only
    rw [List.length_append, List.length_replicate, List.length_singleton, Nat.sub_add_cancel (by decide)]
  · rw [Unbounded.push, Unbounded.push, h.levU, List.length_append, List.length_append, List.length_replicate]
    exact Nat.lt_succ_of_lt (Nat.lt_succ_self levN)

/-- The theorem behind a merge: the queue is full, a dark call has gone into its newest transition, and the tick
at the cursor ships dark. -/
theorem full_queue_degrades_merged :
    ∃ (s t : State) (u : Unbounded) (e : Env) (b : UInt8),
      Runs.Reach (Runs.observe step fun s l u => u.record s l) (fun x l => safely x.1 x.2 l = true)
        (State.init (slowConfig false) idleKernel true true, {}) (s, u) ∧
      (s.gf.lev.length = levN ∧ levN < u.lev.length) ∧ step s (.ship e) = some t ∧
      (newTicks s t)[0]? = some b ∧ lit b = false := by
  obtain ⟨s, t, u, e, b, hreach, hfull, hmore, hstep, hb, -, hdark⟩ := exists_merged false
  have hsafe : Runs.Reach (Runs.observe step fun s l u => u.record s l) (fun x l => safely x.1 x.2 l = true)
      (State.init (slowConfig false) idleKernel true true, {}) (s, u) := hreach.mono fun _ _ h => h rfl
  refine ⟨s, t, u, e, b, hsafe, ⟨hfull, hmore⟩, hstep, hb, ?_⟩
  by_contra hlit
  exact hdark ((full_queue_degrades hsafe hstep).1 0 b hb (by simpa using hlit))

/-- **A merged fire-on lights ahead of its call.** The queue is full of dark transitions at the cursor; the
core asks for fire ten ticks on, and the tick at the cursor is lit. -/
theorem merge_lights_earlier :
    ∃ (s t : State) (u : Unbounded) (e : Env) (n : Nat) (b : UInt8),
      Runs.Reach (Runs.observe step fun s l u => u.record s l) (fun _ _ => True)
        (State.init (slowConfig false) idleKernel true true, {}) (s, u) ∧
      step s (.ship e) = some t ∧ (newTicks s t)[n]? = some b ∧ lit b = true ∧
      ¬(stateAt (u.sampled s).lev (u.sampled s).cur (s.gf.shipped + n)).2 = true := by
  obtain ⟨s, t, u, e, b, hreach, -, -, hstep, hb, hlit, hdark⟩ := exists_merged true
  exact ⟨s, t, u, e, 0, b, hreach.mono fun _ _ _ => trivial, hstep, hb, hlit, hdark⟩

end Glowforge.Stream
