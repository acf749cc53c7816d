import Glowforge.Homing.Machine
import Glowforge.Stream.Clearing

/-!
# Glowforge — the anchor and the counters are the position

A reader outside the controller adds the kernel's counters to the anchor. That is the position
where every step counted since the anchor was written has been played, and none was lost on its
way:

* **`Tally`** — the steps that left the stream without being played, in the reset under way.
* **`sound`** — what a step must find: the counters of a home zeroed at a drained stream, and no step
  lost behind the read-back's back.
* **`AxisInv`** — the position of an anchored axis is its anchor, the counters, the steps on their
  way and the steps owed.
* **`anchor_is_position`** — at a drained stream, in every run of sound steps, nothing is on its way
  and nothing is owed.

A home writes the anchor behind a counter zero whether the zero took or not
(`home_anchors_failed_zero`).
-/

namespace Glowforge.Homing

open Glowforge.Stream (Steps Owes ReadInv stepOf stepsIn stepSum backlog resetEnds pipeline readbackAnswer
  gfStreamKernelIdle RingClean ShipPc)

/-! ## What a step must find

The condition of the runs. A home zeroes counters, and zeroing is sound only over a stream that has
nothing on its way; a read-back pays for the steps that a reset dropped only if no other reset comes
before its answer. -/

/-- The stream is drained and idle, and has not failed: nothing to ship, nothing in the kernel, no
call, write, clear, read-back or reset under way. -/
def Machine.drained (m : Machine) : Bool :=
  Stream.drained m.stream.gf && !m.stream.gf.failed && !m.stream.gf.suspended && !m.stream.gf.killed &&
  m.stream.gf.readback == .none && m.stream.kernel.state == .idle && m.stream.kernel.ring.isEmpty &&
  m.stream.pc.plain && m.stream.entered.isEmpty && !m.resetting

/-- The label zeroes the counters, or tries to. -/
def Label.zeroes (m : Machine) : Label → Bool
  | .cloudHome _ _ _ => true
  | .manualHome _ readOk energized _ _ => gfStreamKernelIdle readOk m.stream && energized
  | .startup edge _ _ _ => edge
  | _ => false

/-- Its seek. -/
def Label.seek : Label → Bool
  | .cloudHome _ seek _ | .manualHome _ _ _ seek _ | .startup _ _ seek _ => seek
  | _ => false

/-- The counters are zero behind it: the device is open here and the seek takes, or they were zero
before. -/
def Machine.zeroLands (m : Machine) (seek : Bool) : Bool :=
  m.stream.gf.active && m.stream.gf.fdOpen && (seek || decide (m.stream.kernel.counts = 0))

/-- No anchored axis has a step in `v`. -/
def Machine.spares (m : Machine) (v : Steps) : Bool := decide (∀ a, m.home.anchor.axes a = true → v a = 0)

/-- What the reset under way owes: the steps that it dropped with the kill byte's, and those that its
clear has removed. -/
structure Tally where
  owes : Owes := {}
  dropped : Steps := 0
  removed : Steps := 0

def Tally.record (m : Machine) (l : Label) (t : Tally) : Tally :=
  if l.zeroes m then {} else
  match l with
  | .stream sl =>
    { t with owes := Owes.record m.stream sl t.owes, removed := t.removed + sl.removed m.stream }
  | .reset now =>
    { owes := Owes.record m.stream (.reset now) t.owes
      dropped := if resetEnds m.stream.gf then stepOf t.owes.mark.val + stepSum (backlog m.stream.gf) else 0 }
  | .readback expired =>
    let owes := Owes.record m.stream (.readback expired) t.owes
    if (readbackAnswer expired m.stream.gf).isSome then { owes := owes } else { t with owes := owes }
  | _ => t

/-- The reset ends with the position corrected, with a position that the core gave up, or with no
anchored step owed. -/
def endsSound (m : Machine) (t : Tally) (expired : Bool) : Bool :=
  match readbackAnswer expired m.stream.gf with
  | none => true
  | some (rc, _) => rc == 1 || m.home.positionLost || (m.spares t.dropped && m.spares t.removed)

/-- **What a step must find.** -/
def sound (x : Machine × Tally) (l : Label) : Bool :=
  (!l.zeroes x.1 || (x.1.drained && x.1.zeroLands l.seek)) &&
  match l with
  -- no step is left behind in the index space, and no step that a reset has still to take over
  | .stream (.locked .wakeup now) =>
    Stream.restartsOver x.1.stream (.locked .wakeup now) && !x.1.stream.gf.killed
  | .stream .proto => Stream.restartsOver x.1.stream .proto
  -- the core hands steps to a live stream
  | .stream (.locked (.pulse _ _) _) => x.1.stream.gf.streaming
  -- a clear that the driver no longer waits for removes no step
  | .stream (.ship e) => x.1.resetting || x.1.spares (Stream.removedBy e x.1.stream)
  -- a fault is acknowledged once its steps are given up
  | .reset _ => !x.1.stream.gf.failed || x.1.home.positionLost || decide (x.1.home.anchor.axes = noAxes)
  | .readback expired => endsSound x.1 x.2 expired
  -- no lens reference within a session
  | .startup edge _ _ _ => !edge || !x.1.session
  | _ => true

/-! ## The invariant

For one axis: the position, the anchor, the counters, what is on its way and what is owed, in one
equation modulo 2^32. -/

/-- **An anchored axis.** -/
structure AxisInv (cfg : Settings) (m : Machine) (t : Tally) (a : Fin 3) : Prop where
  active : m.stream.gf.active = true
  home : m.session = false
  read : ReadInv t.owes m.stream.ledger m.stream.pc
  ended : m.stream.gf.killed = true → m.stream.gf.streaming = false
  calm : m.resetting = false → m.stream.gf.readback = .none ∧ t.dropped a = 0 ∧ t.removed a = 0
  fresh : m.stream.gf.clearPending = true → m.stream.pc.removedYet = false → t.removed a = 0
  late : m.stream.pc.removedYet = true → t.removed a = stepsIn t.owes.removed a
  wait : m.stream.gf.readback = .wait → t.dropped a = t.owes.atReset a
  done : m.stream.gf.readback = .done →
    t.dropped a = t.owes.atReset a ∧ t.removed a = stepsIn t.owes.removed a
  -- A fault, a write that failed and a position given up are settled by dropping the anchor.
  balance : m.stream.gf.failed = false → m.stream.pc.lostWrite = false →
    (m.resetting = true → m.home.positionLost = true →
      m.stream.gf.readback = .wait ∨ m.stream.gf.readback = .done) →
    m.home.position a =
      (cfg.steps m.home.anchor.home + pipeline m.stream + t.dropped + t.removed + stepOf t.owes.mark.val) a

structure MachineInv (cfg : Settings) (m : Machine) (t : Tally) : Prop where
  clean : RingClean m.stream.gf
  away : m.stream.gf.suspended = true ∨ .resumeSwap ∈ m.stream.proto → m.session = true
  axes : ∀ a, m.home.anchor.axes a = true → AxisInv cfg m t a

/-! ## A turn of the stream

The stream moves steps from its backlog to the kernel and from the kernel to the counters. The
equation moves them along with it. -/

section Turn

open Glowforge.Stream

/-- The history that the other turns leave alone. -/
theorem record_owes {s : Stream.State} {l : Stream.Label} (hl : l.settles s = false) (o : Owes) :
    (Owes.record s l o).kill = o.kill ∧ (Owes.record s l o).dropped = o.dropped ∧
      (Owes.record s l o).removed = o.removed := by
  unfold Owes.record
  split
  case h_1 => exact ⟨rfl, rfl, rfl⟩
  case h_2 => split <;> exact ⟨rfl, rfl, rfl⟩
  case h_3 => cases hl
  case h_4 => cases hl
  case h_5 => split <;> exact ⟨rfl, rfl, rfl⟩
  case h_6 => cases hl
  case h_7 => exact ⟨rfl, rfl, rfl⟩

theorem ship_owes (s : Stream.State) (e : Env) (o : Owes) :
    (Owes.ship s e o).mark = o.mark ∧ (Owes.ship s e o).kill = o.kill ∧
      (Owes.ship s e o).dropped = o.dropped := by
  unfold Owes.ship
  split
  case h_2 => split <;> exact ⟨rfl, rfl, rfl⟩
  all_goals exact ⟨rfl, rfl, rfl⟩

/-- What the core counts is handed over, or is the kill byte's step. -/
theorem counted_mark {s : Stream.State} {l : Stream.Label} {o : Owes} (hship : ∀ e, l ≠ .ship e)
    (hreset : ∀ now, l ≠ .reset now) (hmark : s.gf.killed = false → o.mark = 0)
    (hended : s.gf.killed = true → s.gf.streaming = false)
    (hwakes : ∀ now, l = .locked .wakeup now → s.gf.killed = false) :
    counted s l + stepOf o.mark.val = l.handed + stepOf (Owes.record s l o).mark.val := by
  cases l with
  | ship e => exact absurd rfl (hship e)
  | reset now => exact absurd rfl (hreset now)
  | enter c => rfl
  | locked c now =>
    cases c with
    | wakeup =>
      rw [hmark (hwakes now rfl)]
      rfl
    | _ => rfl
  | goIdle reset stepBits dirBits =>
    cases reset with
    | false => rfl
    | true =>
      simp only [counted, Stream.Label.handed, Owes.record]
      cases hlive : s.gf.streaming with
      | false => rfl
      | true =>
        have hunmarked : s.gf.killed = false := by
          cases hk : s.gf.killed with
          | false => rfl
          | true => exact absurd (hlive.symm.trans (hended hk)) (by decide)
        rw [hmark hunmarked, if_pos rfl, if_pos rfl, stepOf_zero, add_zero, zero_add]
  | readback expired =>
    simp only [counted, Stream.Label.handed, Owes.record]
    split <;> rfl
  | clearPosition ok =>
    simp only [counted, Stream.Label.handed, Owes.record]
    split <;> rfl
  | _ => rfl

variable {cfg : Settings} {m : Machine} {t : Tally} {a : Fin 3} {u : Stream.State}

theorem turned_kept {l : Stream.Label} {st : State} (h : invalidates m.stream l = false) :
    turned m.stream l st = { st with position := st.position + counted m.stream l } := by
  rw [turned, h]
  rfl

/-- The shipper counts no step. -/
theorem turned_ship {e : Env} (h : invalidates m.stream (.ship e) = false) :
    turned m.stream (.ship e) m.home = m.home := by
  rw [turned_kept h]
  exact congrArg (fun p => { m.home with position := p }) (add_zero m.home.position)

/-- A step that leaves the stream unfailed found it so, and no chunk lost. -/
theorem shipStep_whole {e : Env} {s : Stream.State} (h : (shipStep e s).gf.failed = false) :
    s.gf.failed = false ∧ s.pc.lostWrite = false := by
  constructor
  · cases hf : s.gf.failed with
    | false => rfl
    | true => exact absurd ((shipStep_failed e s hf).symm.trans h) (by decide)
  · cases hpc : s.pc with
    | wrote p c ok =>
      cases ok with
      | true => rfl
      | false =>
        have hbreaks : (shipStep e s).gf.failed = true := by
          rw [shipStep, hpc]
          rfl
        exact absurd (hbreaks.symm.trans h) (by decide)
    | _ => rfl

/-- What the shipper moves stays in the pipeline, or is removed from it. -/
theorem AxisInv.ship_balance {e : Env} (h : AxisInv cfg m t a)
    (hfailed : (shipStep e m.stream).gf.failed = false)
    (hlost : (shipStep e m.stream).pc.lostWrite = false)
    (hgiven : m.resetting = true → m.home.positionLost = true →
      m.stream.gf.readback = .wait ∨ m.stream.gf.readback = .done) :
    m.home.position a =
      (cfg.steps m.home.anchor.home + pipeline (shipStep e m.stream) + t.dropped +
        (t.removed + removedBy e m.stream) + stepOf (Owes.ship m.stream e t.owes).mark.val) a := by
  obtain ⟨hunfailed, hwhole⟩ := shipStep_whole hfailed
  have hpipe := shipStep_pipeline h.active hlost
  rw [(ship_owes m.stream e t.owes).1, h.balance hunfailed hwhole hgiven, ← hpipe]
  simp only [Pi.add_apply]
  abel

/-- **A step of the shipper.** It moves steps from the ring to the chunk and on to the kernel, which
leaves the sum; a seek-clear takes steps out of it, and the tally has them. -/
theorem AxisInv.ship {e : Env} (h : AxisInv cfg m t a) (hswap : .resumeSwap ∉ m.stream.proto)
    (hspares : m.resetting = false → removedBy e m.stream a = 0)
    (hstep : Stream.step m.stream (.ship e) = some u) (hkept : invalidates m.stream (.ship e) = false) :
    AxisInv cfg { m with stream := u, home := turned m.stream (.ship e) m.home }
      { t with owes := Owes.record m.stream (.ship e) t.owes, removed := t.removed + removedBy e m.stream } a := by
  obtain ⟨-, hturn⟩ := step_eq_some.mp hstep
  have hread := step_read h.read rfl hswap hstep
  have hended := turn_killed hturn h.ended
  have hactive := (turn_active hturn).trans h.active
  cases hturn
  rw [turned_ship hkept]
  obtain ⟨-, hkill, hdropped⟩ := ship_owes m.stream e t.owes
  have hatReset : (Owes.ship m.stream e t.owes).atReset = t.owes.atReset := by
    rw [Owes.atReset, Owes.atReset, hkill, hdropped]
  cases shipStep_cleared (e := e) h.active with
  | keeps hclear hread' hpc hseek hremoved =>
    exact
      { active := hactive, home := h.home, read := hread, ended := hended
        calm := fun hfree => by
          rw [hseek, add_zero]
          exact ⟨hread'.trans (h.calm hfree).1, (h.calm hfree).2⟩
        fresh := fun hc hyet => by
          rw [hseek, add_zero]
          exact h.fresh (hclear.symm.trans hc) (hpc.symm.trans hyet)
        late := fun hyet => by
          rw [hseek, add_zero]
          exact (h.late (hpc.symm.trans hyet)).trans (congrFun (congrArg stepsIn (hremoved t.owes)).symm a)
        wait := fun hw => (h.wait (hread'.symm.trans hw)).trans (congrFun hatReset a).symm
        done := fun hd => by
          rw [hseek, add_zero]
          exact ⟨(h.done (hread'.symm.trans hd)).1.trans (congrFun hatReset a).symm,
            (h.done (hread'.symm.trans hd)).2.trans (congrFun (congrArg stepsIn (hremoved t.owes)).symm a)⟩
        balance := fun hf hl hg => by
          rw [hread'] at hg
          exact h.ship_balance hf hl hg }
  | seeks hpc htakes hclear hread' hpc' =>
    have hclearing : m.stream.gf.clearPending = true := h.read.clearing (by rw [hpc]; rfl)
    have hnot : m.stream.gf.readback ≠ .done :=
      fun hd => absurd (hclearing.symm.trans (h.read.done hd).2.1) (by decide)
    have hnone : t.removed a = 0 := h.fresh hclearing (by rw [hpc]; rfl)
    have hremoved : removedBy e m.stream = stepsIn m.stream.kernel.ring := by
      simp only [removedBy, hpc, htakes, if_true]
    have howed : (Owes.ship m.stream e t.owes).removed = m.stream.kernel.ring := by
      simp only [Owes.ship, hpc, htakes, if_true]
    exact
      { active := hactive, home := h.home, read := hread, ended := hended
        calm := fun hfree => by
          refine ⟨hread'.trans (h.calm hfree).1, (h.calm hfree).2.1, ?_⟩
          change t.removed a + removedBy e m.stream a = 0
          rw [hspares hfree, hnone, add_zero]
        fresh := fun _ hyet => absurd (hpc'.symm.trans hyet) (by decide)
        late := fun _ => by
          change (t.removed + removedBy e m.stream) a = stepsIn (Owes.ship m.stream e t.owes).removed a
          rw [Pi.add_apply, hnone, zero_add, hremoved, howed]
        wait := fun hw => (h.wait (hread'.symm.trans hw)).trans (congrFun hatReset a).symm
        done := fun hd => absurd (hread'.symm.trans hd) hnot
        balance := fun hf hl hg => by
          rw [hread'] at hg
          exact h.ship_balance hf hl hg }
  | settles hpc hclear hpc' hread' =>
    have hclearing : m.stream.gf.clearPending = true := h.read.clearing (by rw [hpc]; rfl)
    have hnot : m.stream.gf.readback ≠ .done :=
      fun hd => absurd (hclearing.symm.trans (h.read.done hd).2.1) (by decide)
    have hseek : removedBy e m.stream = 0 := removedBy_eq_zero (by rw [hpc]; rintro _ ⟨⟩)
    have howed : (Owes.ship m.stream e t.owes).removed = t.owes.removed :=
      Owes.ship_removed (by rw [hpc]; rintro _ ⟨⟩) t.owes
    have hwaits : (shipStep e m.stream).gf.readback ≠ .wait := by
      rw [hread']
      exact settleReadback_wait
    rw [h.active, if_pos rfl] at hread'
    exact
      { active := hactive, home := h.home, read := hread, ended := hended
        calm := fun hfree => by
          rw [hseek, add_zero]
          refine ⟨?_, (h.calm hfree).2⟩
          have hidle : ¬m.stream.gf.readback = .wait := by
            rw [(h.calm hfree).1]
            rintro ⟨⟩
          exact hread'.trans ((congrArg Gf.readback (if_neg hidle)).trans (h.calm hfree).1)
        fresh := fun hc _ => absurd (hclear.symm.trans hc) (by decide)
        late := fun hyet => absurd (hpc'.symm.trans hyet) (by decide)
        wait := fun hw => absurd hw hwaits
        done := fun hd => by
          -- only a clear whose seek took has counters to settle with
          obtain ⟨hwait, -, -, c, hcounts, -⟩ := settleReadback_done hnot (hread'.symm.trans hd)
          have hat := h.read.ledger h.active
          have hyet : m.stream.pc.removedYet = true := by
            rw [hpc] at hat ⊢
            cases ‹Bool› with
            | true => rfl
            | false => exact absurd (hcounts.symm.trans hat.1) (by rintro ⟨⟩)
          rw [hseek, add_zero]
          refine ⟨(h.wait hwait).trans (congrFun hatReset a).symm, (h.late hyet).trans ?_⟩
          exact congrFun (congrArg stepsIn howed).symm a
        balance := fun hf hl hg => by
          refine h.ship_balance hf hl fun hr hp => ?_
          rcases hg hr hp with hw | hd
          · exact absurd hw hwaits
          · exact .inl (settleReadback_done hnot (hread'.symm.trans hd)).1 }
  | breaks hpc hclear hread' hpc' hfailed =>
    have hseek : removedBy e m.stream = 0 := removedBy_eq_zero (by rw [hpc]; rintro _ ⟨⟩)
    have howed : (Owes.ship m.stream e t.owes).removed = t.owes.removed :=
      Owes.ship_removed (by rw [hpc]; rintro _ ⟨⟩) t.owes
    have hyet : m.stream.pc.removedYet = false := by
      rw [hpc]
      rfl
    have hsame : ∀ r, (shipStep e m.stream).gf.readback = r → r ≠ .lost → m.stream.gf.readback = r := by
      rintro r hr hne
      rw [hread'] at hr
      split at hr
      · exact absurd hr.symm hne
      · exact hr
    exact
      { active := hactive, home := h.home, read := hread, ended := hended
        calm := fun hfree => by
          rw [hseek, add_zero]
          refine ⟨?_, (h.calm hfree).2⟩
          rw [hread', (h.calm hfree).1]
          rfl
        fresh := fun hc _ => by
          rw [hseek, add_zero]
          exact h.fresh (hclear.symm.trans hc) hyet
        late := fun hyet' => absurd (hpc'.symm.trans hyet') (by decide)
        wait := fun hw => (h.wait (hsame _ hw (by decide))).trans (congrFun hatReset a).symm
        done := fun hd => by
          have hbefore := h.done (hsame _ hd (by decide))
          rw [hseek, add_zero]
          exact ⟨hbefore.1.trans (congrFun hatReset a).symm,
            hbefore.2.trans (congrFun (congrArg stepsIn howed).symm a)⟩
        balance := fun hf => absurd (hfailed.symm.trans hf) (by decide) }

theorem unshipped_removed {l : Stream.Label} (hl : l.settles m.stream = false) : l.removed m.stream = 0 := by
  cases l with
  | ship e => cases hl
  | _ => rfl

/-- **The other turns** of a stream that this process drives. A call adds the step that the core has
counted, and the kernel's turn moves a step from its ring to its counters. -/
theorem AxisInv.turn {l : Stream.Label} (h : AxisInv cfg m t a) (hclean : RingClean m.stream.gf)
    (hswap : .resumeSwap ∉ m.stream.proto) (hl : l.settles m.stream = false) (hcarries : l.carries = true)
    (hok : readBackRun m.stream l = true)
    (hwakes : ∀ now, l = .locked .wakeup now → m.stream.gf.killed = false)
    (hlive : ∀ stepBits dirBits now, l = .locked (.pulse stepBits dirBits) now → m.stream.gf.streaming = true)
    (hstep : Stream.step m.stream l = some u) (hkept : invalidates m.stream l = false) :
    AxisInv cfg { m with stream := u, home := turned m.stream l m.home }
      { t with owes := Owes.record m.stream l t.owes, removed := t.removed + l.removed m.stream } a := by
  obtain ⟨hen, hturn⟩ := step_eq_some.mp hstep
  have hship : ∀ e, l ≠ .ship e := by
    rintro e rfl
    cases hl
  have hreset : ∀ now, l ≠ .reset now := by
    rintro now rfl
    cases hl
  have hhead : l = .proto → m.stream.proto.head? ≠ some .resumeSwap :=
    fun _ hsome => hswap (List.mem_of_mem_head? hsome)
  have hpc : u.pc = m.stream.pc := (turn_turned hturn hship).pc
  have hclearing := turn_clearing hturn hl
  have hclear : u.gf.clearPending = m.stream.gf.clearPending := congrArg Prod.fst hclearing
  have hback : u.gf.readback = m.stream.gf.readback := congrArg Prod.snd hclearing
  obtain ⟨hkill, hdropped, hremoved⟩ := record_owes hl t.owes
  have hatReset : (Owes.record m.stream l t.owes).atReset = t.owes.atReset := by
    rw [Owes.atReset, Owes.atReset, hkill, hdropped]
  have hnone := unshipped_removed hl
  rw [hnone, add_zero, turned_kept hkept]
  exact
    { active := (turn_active hturn).trans h.active, home := h.home
      read := step_read h.read hok hswap hstep
      ended := turn_killed hturn h.ended
      calm := fun hfree => ⟨hback.trans (h.calm hfree).1, (h.calm hfree).2⟩
      fresh := fun hc hyet => h.fresh (hclear.symm.trans hc) ((congrArg ShipPc.removedYet hpc).symm.trans hyet)
      late := fun hyet => by
        change t.removed a = stepsIn (Owes.record m.stream l t.owes).removed a
        rw [hremoved]
        exact h.late ((congrArg ShipPc.removedYet hpc).symm.trans hyet)
      wait := fun hw => (h.wait (hback.symm.trans hw)).trans (congrFun hatReset a).symm
      done := fun hd => by
        change t.dropped a = (Owes.record m.stream l t.owes).atReset a ∧
          t.removed a = stepsIn (Owes.record m.stream l t.owes).removed a
        rw [hatReset, hremoved]
        exact h.done (hback.symm.trans hd)
      balance := fun hfailed hlost hgiven => by
        have hunfailed : m.stream.gf.failed = false := by
          cases hf : m.stream.gf.failed with
          | false => rfl
          | true =>
            exact absurd ((turn_failed hturn hreset hhead hf).symm.trans hfailed) (by decide)
        have hpipe := turn_pipeline hen hturn hcarries h.active hclean hlive hfailed hlost
        have hcount := counted_mark hship hreset h.read.unmarked h.ended hwakes
        have hbefore := h.balance hunfailed ((congrArg ShipPc.lostWrite hpc).symm.trans hlost)
          (fun hr hp => by
            rw [← hback]
            exact hgiven hr hp)
        change m.home.position a + counted m.stream l a =
          (cfg.steps m.home.anchor.home + pipeline u + t.dropped + t.removed +
            stepOf (Owes.record m.stream l t.owes).mark.val) a
        rw [hnone, add_zero] at hpipe
        rw [hbefore, hpipe]
        have haxis := congrFun hcount a
        simp only [Pi.add_apply] at haxis ⊢
        calc _ = cfg.steps m.home.anchor.home a + pipeline m.stream a + t.dropped a + t.removed a +
              (counted m.stream l a + stepOf t.owes.mark.val a) := by abel
          _ = _ := by
            rw [haxis]
            abel }

/-! ## The driver's reset

A reset drops the steps of the backlog, and owes them to the position until the read-back has
answered. -/

theorem resetLocked_readback (now : Nat) (g : Gf) :
    (resetLocked now g).readback ≠ .done ∧
      ((resetLocked now g).readback = .wait → resetEnds g = true ∧ g.failed = false) := by
  have hback : ∀ (killed : Bool) dropped (r : Gf), r.readback = .none →
      (resetReadback killed dropped r).readback ≠ .done ∧
        ((resetReadback killed dropped r).readback = .wait → r.failed = false) := by
    intro killed dropped r hr
    by_cases hk : (killed && !r.failed) = true
    · rw [resetReadback, if_pos hk]
      refine ⟨?_, fun _ => by simpa using (Bool.and_eq_true_iff.mp hk).2⟩
      change (if r.baseValid then ReadBack.wait else .lost) ≠ .done
      split <;> rintro ⟨⟩
    · rw [resetReadback, if_neg hk, hr]
      exact ⟨by decide, by rintro ⟨⟩⟩
  have hstream : ∀ (killed : Bool) (r : Gf), r.readback = .none →
      (resetStream now killed r).readback ≠ .done ∧
        ((resetStream now killed r).readback = .wait → r.failed = false) := by
    intro killed r hr
    have hrun : ∀ g : Gf, (resetRun now killed g).readback = g.readback ∧
        (resetRun now killed g).failed = g.failed := by
      intro g
      simp only [resetRun]
      split <;> exact ⟨rfl, rfl⟩
    generalize hd : (if killed then tickSteps 0 r.killStep.val else 0) = d
    have hends := hback killed (dropBacklogLocked d r).2 (resetRun now killed (resetLaser (dropBacklogLocked d r).1))
      ((hrun _).1.trans hr)
    rw [(hrun _).2] at hends
    rw [resetStream, hd]
    exact hends
  by_cases hf : g.failed = true
  · have hends := hstream g.killed { g with killed := false, readback := .none } rfl
    rw [resetLocked, if_pos hf]
    by_cases he : resetEnds g = true
    · rw [if_pos he]
      refine ⟨hends.1, fun hw => ?_⟩
      exact absurd (hf.symm.trans (hends.2 hw)) (by decide)
    · rw [if_neg he]
      exact ⟨by rintro ⟨⟩, by rintro ⟨⟩⟩
  · rw [resetLocked, if_neg hf]
    have hunfailed : g.failed = false := by simpa using hf
    by_cases he : resetEnds g = true
    · rw [if_pos he]
      exact ⟨(hstream g.killed { g with killed := false, readback := .none } rfl).1, fun _ => ⟨he, hunfailed⟩⟩
    · rw [if_neg he]
      exact ⟨by rintro ⟨⟩, by rintro ⟨⟩⟩

/-- **The reset** owes the kill byte's step and the backlog that it drops. -/
theorem AxisInv.reset {now : Nat} (h : AxisInv cfg m t a) (hfree : m.resetting = false)
    (hgiven : m.stream.gf.failed = false ∨ m.home.positionLost = true)
    (hswap : .resumeSwap ∉ m.stream.proto) (hstep : Stream.step m.stream (.reset now) = some u) :
    AxisInv cfg { m with stream := u, resetting := true } (Tally.record m (.reset now) t) a := by
  have hread := step_read h.read rfl hswap hstep
  obtain ⟨-, hturn⟩ := step_eq_some.mp hstep
  cases hturn
  have hafter := resetLocked_after now m.stream.gf
  obtain ⟨hdone, hwait⟩ := resetLocked_readback now m.stream.gf
  obtain ⟨-, hdropped, hremoved⟩ := h.calm hfree
  have hnone : (Tally.record m (.reset now) t).removed = 0 := rfl
  have hdrops : (Tally.record m (.reset now) t).dropped =
      if resetEnds m.stream.gf then stepOf t.owes.mark.val + stepSum (backlog m.stream.gf) else 0 := rfl
  exact
    { active := hafter.active.trans h.active, home := h.home, read := hread
      ended := fun _ => hafter.streaming
      calm := (by rintro ⟨⟩)
      fresh := fun _ _ => rfl
      late := fun hyet => hremoved.symm.trans (h.late hyet)
      wait := fun hw => by
        rw [hdrops, if_pos (hwait hw).1]
        rfl
      done := fun hd => absurd hd hdone
      balance := fun _ hlost hgives => by
        have hunfailed : m.stream.gf.failed = false := by
          rcases hgiven with hf | hp
          · exact hf
          · rcases hgives rfl hp with hw | hd
            · exact (hwait hw).2
            · exact absurd hd hdone
        have hpipe := congrFun (@reset_pipeline now _ hunfailed) a
        have hbefore := h.balance hunfailed hlost (fun hr => absurd (hr.symm.trans hfree)
            (by decide))
        simp only [Pi.add_apply, hdropped, hremoved, add_zero] at hbefore
        change m.home.position a = (cfg.steps m.home.anchor.home + pipeline (gfStreamReset now m.stream) +
          (Tally.record m (.reset now) t).dropped + 0 + stepOf (0 : StepByte).val) a
        rw [hbefore, ← hpipe, hdrops, resetDrops, stepOf_zero]
        cases hends : resetEnds m.stream.gf with
        | true =>
          simp only [if_true, Pi.add_apply, Pi.zero_apply, add_zero]
          abel
        | false =>
          have hunmarked : t.owes.mark = 0 := by
            refine h.read.unmarked ?_
            rw [resetEnds, Bool.or_eq_false_iff] at hends
            exact hends.2
          rw [hunmarked, stepOf_zero]
          simp }

theorem readbackPosition_paid {rc : Int} {unplayed : Steps} {st : State} (hrc : rc > 0) :
    readbackPosition rc unplayed st = { st with position := st.position - unplayed, positionLost := false } := by
  rw [readbackPosition, if_pos hrc]
  rfl

theorem readbackPosition_held {rc : Int} {unplayed : Steps} {st : State} (hrc : ¬rc > 0)
    (hheld : st.positionLost = false) : readbackPosition rc unplayed st = st := by
  rw [readbackPosition, if_neg hrc, hheld]
  rfl

theorem readbackPosition_lost {rc : Int} {unplayed : Steps} {st : State} (hrc : ¬rc > 0)
    (hlost : st.positionLost = true) : (readbackPosition rc unplayed st).anchor.axes = noAxes := by
  rw [readbackPosition, if_neg hrc, hlost]
  rfl

/-- **The read-back** corrects the position by exactly what the reset owes. Its answer is the
engine's sum, and the sum is the tally's where the read-back is not spoiled. -/
theorem AxisInv.answered {rc : Int} {unplayed : Steps} {owes : Owes} (h : AxisInv cfg m t a)
    (hread : ReadInv owes (Stream.State.ledger { m.stream with gf := { m.stream.gf with readback := .none } })
      m.stream.pc)
    (howes : owes.mark = t.owes.mark ∧ owes.removed = t.owes.removed)
    (hdone : rc > 0 → m.stream.gf.readback = .done ∧ unplayed = m.stream.gf.unplayed)
    (hlost : ¬rc > 0 → m.home.positionLost = false ∧ t.dropped a = 0 ∧ t.removed a = 0) :
    AxisInv cfg
      { m with
        stream := { m.stream with gf := { m.stream.gf with readback := .none } }
        resetting := false
        home := readbackPosition rc unplayed m.home } { owes := owes } a := by
  have hpaid : rc > 0 → unplayed a = t.dropped a + t.removed a := by
    intro hrc
    obtain ⟨hrb, rfl⟩ := hdone hrc
    have hsum : m.stream.gf.unplayed = t.owes.atReset + stepsIn t.owes.removed := (h.read.done hrb).1
    rw [hsum, (h.done hrb).1, (h.done hrb).2]
    rfl
  have hkept : (readbackPosition rc unplayed m.home).anchor = m.home.anchor ∧
      ((m.stream.gf.failed = false → m.stream.pc.lostWrite = false →
        (readbackPosition rc unplayed m.home).position a =
          (cfg.steps m.home.anchor.home + pipeline m.stream + stepOf t.owes.mark.val) a)) := by
    by_cases hrc : rc > 0
    · have hhome : readbackPosition rc unplayed m.home =
          { m.home with position := m.home.position - unplayed, positionLost := false } := by
        rw [readbackPosition, if_pos hrc]
        rfl
      rw [hhome]
      refine ⟨rfl, fun hf hl => ?_⟩
      have hbefore := h.balance hf hl fun _ _ => .inr (hdone hrc).1
      change m.home.position a - unplayed a = _
      rw [hbefore, hpaid hrc]
      simp only [Pi.add_apply]
      abel
    · obtain ⟨hheld, hnodrop, hnoremove⟩ := hlost hrc
      rw [readbackPosition_held hrc hheld]
      refine ⟨rfl, fun hf hl => ?_⟩
      have hbefore := h.balance hf hl fun _ hp => absurd (hp.symm.trans hheld) (by decide)
      rw [hbefore]
      simp only [Pi.add_apply, hnodrop, hnoremove, add_zero]
  have hunclear : m.stream.pc.removedYet = true → stepsIn t.owes.removed a = 0 := by
    intro hyet
    by_cases hrc : rc > 0
    · -- the clear is over
      have hclearing : m.stream.pc.clearing = true := by
        cases hpc : m.stream.pc with (rw [hpc] at hyet)
        | pendCount zeros => rfl
        | pendDone cleared counts zeros => rfl
        | _ => cases hyet
      exact absurd ((h.read.clearing hclearing).symm.trans (h.read.done (hdone hrc).1).2.1)
          (by decide)
    · exact (h.late hyet).symm.trans (hlost hrc).2.2
  exact
    { active := h.active, home := h.home, read := hread, ended := h.ended
      calm := fun _ => ⟨rfl, rfl, rfl⟩
      fresh := fun _ _ => rfl
      late := fun hyet => by
        change (0 : UInt32) = stepsIn owes.removed a
        rw [howes.2]
        exact (hunclear hyet).symm
      wait := (by rintro ⟨⟩)
      done := (by rintro ⟨⟩)
      balance := fun hf hl _ => by
        rw [hkept.1]
        change _ = (cfg.steps m.home.anchor.home + pipeline m.stream + 0 + 0 + stepOf owes.mark.val) a
        rw [hkept.2 hf hl, howes.1, add_zero, add_zero] }

end Turn

/-! ## The homes, the tray and the release

The writers of the anchor. A home starts the equation afresh at zeroed counters; the tray shifts
position and anchor alike; a release drops the axes that it lets go. -/

section Homes

variable {cfg : Settings} {m : Machine} {t : Tally} {a : Fin 3}

/-- What a drained machine is. -/
structure Machine.Drained (m : Machine) : Prop where
  streaming : m.stream.gf.streaming = false
  clear : m.stream.gf.clearPending = false
  shipped : m.stream.gf.produced = m.stream.gf.shipped
  failed : m.stream.gf.failed = false
  killed : m.stream.gf.killed = false
  readback : m.stream.gf.readback = .none
  ring : m.stream.kernel.ring = []
  plain : m.stream.pc.plain = true
  entered : m.stream.entered = []
  resetting : m.resetting = false

theorem Machine.drained_spec (h : m.drained = true) : m.Drained := by
  simp only [Machine.drained, Stream.drained, Bool.and_eq_true, Bool.not_eq_true', beq_iff_eq,
    List.isEmpty_iff] at h
  obtain ⟨⟨⟨⟨⟨⟨⟨⟨⟨⟨⟨⟨hs, -⟩, hc⟩, hp⟩, hf⟩, -⟩, hk⟩, hr⟩, -⟩, hring⟩, hpc⟩, he⟩, hfree⟩ := h
  exact ⟨hs, hc, hp, hf, hk, hr, hring, hpc, he, hfree⟩

/-- Where the stream is drained nothing is on its way. -/
theorem Machine.Drained.pipeline (h : m.Drained) (hclean : RingClean m.stream.gf) :
    pipeline m.stream = m.stream.kernel.counts := by
  have hflight : m.stream.pc.flight = 0 := by
    refine Stream.ShipPc.flight_eq_zero ?_
    have hplain := h.plain
    simp only [Stream.ShipPc.plain, Bool.and_eq_true, Bool.not_eq_true'] at hplain
    exact hplain.2
  have hslots : Stream.ringSteps m.stream.gf.ring = 0 :=
    Stream.ringSteps_empty (hclean.empty (Stream.stepsLeft_of_shipped h.shipped))
  simp only [Stream.pipeline, Stream.State.places, Stream.Places.sum, h.ring, hflight, hslots, h.entered,
    Stream.enteredSteps, Stream.stepsIn_nil, List.map_nil, List.sum_nil, add_zero]

/-- With its counters at zero a drained stream has nothing in its pipeline. -/
theorem zeroed_pipeline {k : Stream.Kernel} {g : Stream.Gf} (hclean : RingClean m.stream.gf) (h : m.Drained)
    (hcounts : k.counts = 0) (hring : k.ring = []) (hslots : g.ring = m.stream.gf.ring) :
    pipeline { m.stream with kernel := k, gf := g } = 0 := by
  have hplaces : Stream.State.places { m.stream with kernel := k, gf := g } =
      { m.stream.places with counts := 0, ring := 0 } := by
    change (⟨k.counts, stepsIn k.ring, m.stream.pc.flight, g.ring, m.stream.entered⟩ : Stream.Places) =
      ⟨0, 0, m.stream.pc.flight, m.stream.gf.ring, m.stream.entered⟩
    rw [hcounts, hring, hslots, Stream.stepsIn_nil]
  have hbefore := h.pipeline hclean
  have hcounts' : m.stream.places.counts = m.stream.kernel.counts := rfl
  have hring' : m.stream.places.ring = 0 := by
    rw [Stream.State.places, h.ring]
    rfl
  rw [Stream.pipeline, Stream.Places.sum, hring', hcounts'] at hbefore
  rw [Stream.pipeline, hplaces, Stream.Places.sum]
  have hcancel : m.stream.kernel.counts + (0 + m.stream.places.flight + Stream.ringSteps m.stream.places.slots +
      Stream.enteredSteps m.stream.places.entered) = m.stream.kernel.counts + 0 := by
    refine Eq.trans ?_ (hbefore.trans (add_zero _).symm)
    abel
  have hrest := add_left_cancel hcancel
  simpa only [zero_add] using hrest

/-- The read-back of a drained stream with its counters at zero. -/
theorem zeroed_read {k : Stream.Kernel} {g : Stream.Gf} (h : m.Drained) (hcounts : k.counts = 0) (hring : k.ring = [])
    (hactive : g.active = true) (hkilled : g.killed = false) (hread : g.readback = .none)
    (hbase : g.baseValid = true → g.baseCounts = 0 ∧ g.baseSteps = g.steps) :
    ReadInv {} (Stream.State.ledger { m.stream with kernel := k, gf := g }) m.stream.pc :=
  { killed := fun hk => absurd (hkilled.symm.trans hk) (by decide)
    unmarked := fun _ => rfl
    null := fun hn => absurd (hactive.symm.trans hn) (by decide)
    device := fun _ => hactive
    ledger := fun _ => by
      rw [Stream.Ledger.at_plain h.plain]
      intro hvalid
      obtain ⟨hbc, hbs⟩ := hbase hvalid
      change k.counts + stepsIn k.ring + 0 = g.baseCounts + (g.steps - g.baseSteps)
      rw [hcounts, hring, hbc, hbs, sub_self, Stream.stepsIn_nil, add_zero]
    clearing := fun hc => by
      have hplain := h.plain
      simp [Stream.ShipPc.plain, hc] at hplain
    snapshot := by
      rw [Stream.ShipPc.snapshot_plain h.plain]
      exact Nat.zero_le _
    zeroed := (by rintro ⟨⟩)
    wait := fun hw => absurd (hread.symm.trans hw) (by decide)
    done := fun hd => absurd (hread.symm.trans hd) (by decide)
    once := fun _ => rfl
    answers := Nat.zero_le 1 }

/-- **A counter zero that lands at a drained stream** is where an axis is anchored. -/
theorem zeroed_axis {seek opened : Bool} {anchor : Anchor} {st : State} {u : Stream.State}
    (hclean : RingClean m.stream.gf) (h : m.Drained) (hsession : m.session = false)
    (hlands : m.zeroLands seek = true)
    (hstep : Stream.step m.stream (.clearPosition seek) = some u)
    (hposition : st.position a = cfg.steps anchor.home a) :
    AxisInv cfg { m with stream := u, home := anchorWrite opened anchor st } {} a := by
  simp only [Machine.zeroLands, Bool.and_eq_true, Bool.or_eq_true, decide_eq_true_eq] at hlands
  obtain ⟨⟨hactive, hopen⟩, hzero⟩ := hlands
  obtain ⟨-, hturn⟩ := Stream.step_eq_some.mp hstep
  cases hturn
  -- what a counter zero leaves, whether the seek takes or not
  obtain ⟨k, g, hu, hcounts, hring, hkept, hbase⟩ : ∃ k g,
      Stream.gfStreamClearPosition seek m.stream = { m.stream with kernel := k, gf := g } ∧
      k.counts = 0 ∧ k.ring = [] ∧
      (g.active = true ∧ g.killed = false ∧ g.streaming = false ∧ g.readback = .none ∧ g.ring = m.stream.gf.ring) ∧
      (g.baseValid = true → g.baseCounts = 0 ∧ g.baseSteps = g.steps) := by
    rw [Stream.gfStreamClearPosition, hactive, hopen]
    cases seek with
    | true =>
      exact ⟨_, _, rfl, rfl, h.ring, ⟨hactive, h.killed, h.streaming, h.readback, rfl⟩, fun _ => ⟨rfl, rfl⟩⟩
    | false =>
      refine ⟨_, _, rfl, ?_, h.ring, ⟨hactive, h.killed, h.streaming, h.readback, rfl⟩,
          by rintro ⟨⟩⟩
      simpa using hzero
  obtain ⟨hga, hgk, hgs, hgr, hgring⟩ := hkept
  have hpipe := zeroed_pipeline hclean h hcounts hring hgring
  have hread := zeroed_read h hcounts hring hga hgk hgr hbase
  have hunyet : m.stream.pc.removedYet = false := by
    have hplain := h.plain
    cases hpc : m.stream.pc with (rw [hpc] at hplain)
    | pendCount zeros => cases hplain
    | pendDone cleared counts zeros => cases hplain
    | _ => rfl
  rw [hu]
  exact
    { active := hga, home := hsession, read := hread
      ended := fun _ => hgs
      calm := fun _ => ⟨hgr, rfl, rfl⟩
      fresh := fun _ _ => rfl
      late := fun hyet => absurd (hunyet.symm.trans hyet) (by decide)
      wait := fun hw => absurd (hgr.symm.trans hw) (by decide)
      done := fun hd => absurd (hgr.symm.trans hd) (by decide)
      balance := fun _ _ _ => by
        change st.position a = (cfg.steps anchor.home + Stream.pipeline { m.stream with kernel := k, gf := g } +
          0 + 0 + stepOf (0 : Stream.StepByte).val) a
        rw [hposition, hpipe, Stream.stepOf_zero]
        simp }

/-- The position and the anchor move together, or neither does. -/
theorem AxisInv.rehome {st : State} (h : AxisInv cfg m t a) (hlost : st.positionLost = m.home.positionLost)
    (hmoved : st.position a + cfg.steps m.home.anchor.home a = m.home.position a + cfg.steps st.anchor.home a) :
    AxisInv cfg { m with home := st } t a :=
  { active := h.active, home := h.home, read := h.read, ended := h.ended, calm := h.calm, fresh := h.fresh
    late := h.late, wait := h.wait, done := h.done
    balance := fun hf hl hg => by
      have hbefore := h.balance hf hl fun hr hp => hg hr (hlost.trans hp)
      refine add_right_cancel (b := cfg.steps m.home.anchor.home a) ?_
      change st.position a + _ = _
      rw [hmoved, hbefore]
      simp only [Pi.add_apply]
      abel }

/-- A Z on the step grid, moved by whole half-steps. -/
theorem lround_gridShift (z : ℚ) (delta : ℤ) :
    lround (zGridShift cfg z delta * cfg.stepsPerMm 2) = lround (z * cfg.stepsPerMm 2) + delta :=
  cfg.lround_grid _ 2

/-- The tray moves the position's Z and the anchor's alike. -/
theorem trayShift_moved {opened : Bool} {delta : ℤ} {st : State} (haxis : st.anchor.axes a = true) :
    (gfhomeTrayShift cfg opened delta st).position a + cfg.steps st.anchor.home a =
        st.position a + cfg.steps (gfhomeTrayShift cfg opened delta st).anchor.home a ∧
      (gfhomeTrayShift cfg opened delta st).positionLost = st.positionLost := by
  have hany : (st.anchor.axes 0 || st.anchor.axes 1 || st.anchor.axes 2) = true := by
    obtain rfl | rfl | rfl := Stream.axis_cases a <;> simp [haxis]
  simp only [gfhomeTrayShift, hany, if_true, anchorWrite]
  refine ⟨?_, trivial⟩
  by_cases hz : a = 2
  · subst hz
    simp only [Function.update_self, Settings.steps, lround_gridShift, UInt32.ofInt_add]
    abel
  · simp only [Function.update_of_ne hz, Settings.steps]

theorem gftrayShiftSteps_moves (key : Option ℚ) (st : State) :
    ∃ known shift, (gftrayShiftSteps cfg key st).2 = { st with shiftKnown := known, shift := shift } := by
  simp only [gftrayShiftSteps]
  split_ifs <;> exact ⟨_, _, rfl⟩

/-- A tray switch is refused, or forgets and remembers a shift and moves the frame. -/
theorem traySet_cases (key : Option ℚ) (want saved opened : Bool) (st : State) :
    (∃ known shift, traySet cfg key want saved opened st = { st with shiftKnown := known, shift := shift }) ∨
      ∃ out known shift delta, traySet cfg key want saved opened st =
        gfhomeTrayShift cfg opened delta { st with out := out, shiftKnown := known, shift := shift } := by
  have hfrom : ∃ known shift, (if want = true then st else (gftrayShiftSteps cfg key st).2) =
      { st with shiftKnown := known, shift := shift } := by
    split
    · exact ⟨_, _, rfl⟩
    · exact gftrayShiftSteps_moves key st
  obtain ⟨known, shift, hfrom⟩ := hfrom
  simp only [traySet]
  split
  · exact .inl ⟨_, _, rfl⟩
  · rw [hfrom]
    split
    · exact .inr ⟨_, _, _, _, rfl⟩
    · exact .inl ⟨_, _, rfl⟩

theorem traySet_axes (key : Option ℚ) (want saved opened : Bool) (st : State) :
    (traySet cfg key want saved opened st).anchor.axes = st.anchor.axes := by
  obtain ⟨known, shift, hst⟩ | ⟨out, known, shift, delta, hst⟩ := traySet_cases key want saved opened st
  · rw [hst]
  · rw [hst]
    simp only [gfhomeTrayShift, anchorWrite]
    split_ifs <;> rfl

theorem traySet_moved {key : Option ℚ} {want saved opened : Bool} {st : State}
    (haxis : st.anchor.axes a = true) :
    (traySet cfg key want saved opened st).position a + cfg.steps st.anchor.home a =
        st.position a + cfg.steps (traySet cfg key want saved opened st).anchor.home a ∧
      (traySet cfg key want saved opened st).positionLost = st.positionLost := by
  obtain ⟨known, shift, hst⟩ | ⟨out, known, shift, delta, hst⟩ := traySet_cases key want saved opened st
  · rw [hst]
    exact ⟨rfl, rfl⟩
  · rw [hst]
    have hfrom : State.anchor { st with out := out, shiftKnown := known, shift := shift } = st.anchor := rfl
    exact trayShift_moved (hfrom ▸ haxis)

end Homes

/-! ## The run

Every label of the machine against the invariant, and at a drained stream the terms that are left:
position, anchor and counters. -/

section Run

open Glowforge.Stream (step_eq_some turn_moved turn_swap)

variable {cfg : Settings} {m n : Machine} {t : Tally} {u : Stream.State}

/-- A turn that is no handover leaves the device where it is. -/
theorem turn_suspended {s : Stream.State} {l : Stream.Label} (hen : l.enabled s = true)
    (hturn : Stream.turn s l = some u) (hsuspend : ∀ readOk, l ≠ .suspend readOk)
    (hresume : ∀ a b c, l ≠ .resume a b c) (h : u.gf.suspended = true ∨ .resumeSwap ∈ u.proto) :
    s.gf.suspended = true ∨ .resumeSwap ∈ s.proto := by
  rcases h with hs | hp
  · left
    by_cases hship : ∃ e, l = .ship e
    · obtain ⟨e, rfl⟩ := hship
      cases hturn
      exact (Stream.shipStep_suspended e s).symm.trans hs
    · have hfrom : ∀ {m : Stream.Marks}, u.gf.marks = m → m.suspended = true :=
        fun hm => (congrArg Stream.Marks.suspended hm).symm.trans hs
      cases turn_moved hturn fun e he => hship ⟨e, he⟩ with
      | still hmarks => exact hfrom hmarks
      | wakesLive hl hlive hmarks => exact hfrom hmarks
      | begins hl hidle hmarks => exact hfrom hmarks
      | event hl hlive hmarks => exact hfrom hmarks
      | idles hl hmarks => exact hfrom hmarks
      | resets hl hafter => exact hafter.suspended.symm.trans hs
      | suspends hl hdrained hmarks => exact absurd hl (hsuspend _)
      | resumes hl hactive hmarks => exact absurd hl (hresume _ _ _)
      | latchFails hl hhead hmarks => exact hfrom hmarks
      | swaps hl hhead hmarks => exact absurd (hfrom hmarks) (by rintro ⟨⟩)
  · right
    by_contra hno
    exact turn_swap hturn hresume hno hp

theorem spares_axis {v : Steps} {a : Fin 3} (h : m.spares v = true) (ha : m.home.anchor.axes a = true) :
    v a = 0 := of_decide_eq_true h a ha

/-- A turn of the stream. -/
theorem stream_inv {l : Stream.Label} (h : MachineInv cfg m t) (hsound : sound (m, t) (.stream l) = true)
    (hadmits : m.admits l = true) (hstep : Stream.step m.stream l = some u) :
    MachineInv cfg { m with stream := u, home := turned m.stream l m.home }
      (Tally.record m (.stream l) t) := by
  obtain ⟨hen, hturn⟩ := step_eq_some.mp hstep
  have hfind := (Bool.and_eq_true_iff.mp hsound).2
  have hhandover : (∃ readOk, l = .suspend readOk) ∨ (∃ a b c, l = .resume a b c) → m.session = true := by
    rintro (⟨readOk, rfl⟩ | ⟨a, b, c, rfl⟩)
    · exact (Bool.and_eq_true_iff.mp hadmits).1
    · exact (Bool.and_eq_true_iff.mp hadmits).1
  refine ⟨?_, ?_, ?_⟩
  · refine Stream.turn_clean hturn ?_ h.clean
    cases l with
    | locked c now =>
      cases c with
      | wakeup => exact (Bool.and_eq_true_iff.mp hfind).1
      | _ => rfl
    | proto => exact hfind
    | _ => rfl
  · intro haway
    by_cases hs : (∃ readOk, l = .suspend readOk) ∨ (∃ a b c, l = .resume a b c)
    · exact hhandover hs
    · exact h.away (turn_suspended hen hturn (fun r hr => hs (.inl ⟨r, hr⟩))
        (fun a b c hr => hs (.inr ⟨a, b, c, hr⟩)) haway)
  · intro a haxis
    have hkept : invalidates m.stream l = false := by
      cases hi : invalidates m.stream l with
      | false => rfl
      | true =>
        rw [turned, hi] at haxis
        cases haxis
    have hanchored : m.home.anchor.axes a = true := by
      rw [turned_kept hkept] at haxis
      exact haxis
    have hax := h.axes a hanchored
    have hsession := hax.home
    have hswap : .resumeSwap ∉ m.stream.proto :=
      fun hp => absurd ((h.away (.inr hp)).symm.trans hsession) (by decide)
    have hhere : m.stream.gf.suspended = false := by
      cases hs : m.stream.gf.suspended with
      | false => rfl
      | true => exact absurd ((h.away (.inl hs)).symm.trans hsession) (by decide)
    have hno : ¬((∃ readOk, l = .suspend readOk) ∨ (∃ a b c, l = .resume a b c)) :=
      fun hs => absurd ((hhandover hs).symm.trans hsession) (by decide)
    have hwakes : ∀ now, l = .locked .wakeup now → m.stream.gf.killed = false := by
      rintro now rfl
      simpa using (Bool.and_eq_true_iff.mp hfind).2
    have hlive : ∀ stepBits dirBits now, l = .locked (.pulse stepBits dirBits) now →
        m.stream.gf.streaming = true := by
      rintro stepBits dirBits now rfl
      exact hfind
    cases l with
    | ship e =>
      refine hax.ship hswap (fun hfree => ?_) hstep hkept
      have hspares : (m.resetting || m.spares (Stream.removedBy e m.stream)) = true := hfind
      rw [hfree, Bool.false_or] at hspares
      exact spares_axis hspares hanchored
    | reset now => cases hadmits
    | readback expired => cases hadmits
    | clearPosition ok => cases hadmits
    | suspend readOk => exact absurd (.inl ⟨readOk, rfl⟩) hno
    | resume a b c => exact absurd (.inr ⟨a, b, c, rfl⟩) hno
    | «foreign» k =>
      simp only [Stream.Label.enabled, hhere, Bool.and_eq_true] at hen
      exact absurd hen.2.1 (by decide)
    | proto =>
      have hsettles : Stream.Label.settles m.stream .proto = false := by
        rw [Stream.Label.settles, beq_eq_false_iff_ne]
        exact fun hsome => hswap (List.mem_of_mem_head? hsome)
      exact hax.turn h.clean hswap hsettles rfl rfl hwakes hlive hstep hkept
    | _ => exact hax.turn h.clean hswap rfl rfl rfl hwakes hlive hstep hkept

/-- The driver's reset. -/
theorem reset_inv {now : Nat} (h : MachineInv cfg m t) (hsound : sound (m, t) (.reset now) = true)
    (hfree : m.resetting = false) (hstep : Stream.step m.stream (.reset now) = some u) :
    MachineInv cfg { m with stream := u, resetting := true } (Tally.record m (.reset now) t) := by
  obtain ⟨hen, hturn⟩ := step_eq_some.mp hstep
  have hfind : (!m.stream.gf.failed || m.home.positionLost || decide (m.home.anchor.axes = noAxes)) = true :=
    hsound
  refine ⟨Stream.turn_clean hturn rfl h.clean, fun haway => ?_, fun a haxis => ?_⟩
  · exact h.away (turn_suspended hen hturn (fun _ => by rintro ⟨⟩)
      (fun _ _ _ => by rintro ⟨⟩) haway)
  · have hax := h.axes a haxis
    have hswap : .resumeSwap ∉ m.stream.proto :=
      fun hp => absurd ((h.away (.inr hp)).symm.trans hax.home) (by decide)
    have hanchored : m.home.anchor.axes ≠ noAxes := fun hno =>
      absurd (haxis.symm.trans (congrFun hno a)) (by rintro ⟨⟩)
    have hgiven : m.stream.gf.failed = false ∨ m.home.positionLost = true := by
      simpa [hanchored] using hfind
    exact hax.reset hfree hgiven hswap hstep

/-- An answer of 1 is a read-back done; the others say nothing of the steps. -/
theorem readbackAnswer_pos {expired : Bool} {g : Stream.Gf} {rc : Int} {unplayed : Steps}
    (h : readbackAnswer expired g = some (rc, unplayed)) :
    (rc > 0 → g.readback = .done ∧ unplayed = g.unplayed) ∧ (¬rc > 0 → rc ≠ 1) := by
  unfold readbackAnswer at h
  split at h
  case h_1 =>
    split at h
    · cases h
      exact ⟨by rintro ⟨⟩, fun _ => by decide⟩
    · cases h
  case h_2 hdone =>
    cases h
    exact ⟨fun _ => ⟨hdone, rfl⟩, fun hno => absurd (by decide) hno⟩
  all_goals
    cases h
    exact ⟨by rintro ⟨⟩, fun _ => by decide⟩

/-- The read-back's wait goes on. -/
theorem readback_waits {expired : Bool} (h : MachineInv cfg m t)
    (hstep : Stream.step m.stream (.readback expired) = some u)
    (hanswer : readbackAnswer expired m.stream.gf = none) :
    MachineInv cfg { m with stream := u } (Tally.record m (.readback expired) t) := by
  obtain ⟨-, hturn⟩ := step_eq_some.mp hstep
  have hwait : m.stream.gf.readback ≠ .done := by
    intro hd
    rw [readbackAnswer, hd] at hanswer
    cases hanswer
  have hsame : u = m.stream := by
    cases hturn
    rw [Stream.gfStreamReadback, hanswer]
    rfl
  have howes : Stream.Owes.record m.stream (.readback expired) t.owes = t.owes := if_neg hwait
  have hrecord : Tally.record m (.readback expired) t = t := by
    rw [Tally.record, if_neg (by rintro ⟨⟩)]
    simp only [hanswer, howes]
    rfl
  rw [hrecord, hsame]
  exact h

/-- The read-back has its answer. -/
theorem readback_answers {expired : Bool} {rc : Int} {unplayed : Steps} (h : MachineInv cfg m t)
    (hends : endsSound m t expired = true) (hstep : Stream.step m.stream (.readback expired) = some u)
    (hanswer : readbackAnswer expired m.stream.gf = some (rc, unplayed)) :
    MachineInv cfg { m with stream := u, resetting := false, home := readbackPosition rc unplayed m.home }
      (Tally.record m (.readback expired) t) := by
  obtain ⟨-, hturn⟩ := step_eq_some.mp hstep
  have hsame : u = { m.stream with gf := { m.stream.gf with readback := .none } } := by
    cases hturn
    rw [Stream.gfStreamReadback, hanswer]
    rfl
  have hrecord : Tally.record m (.readback expired) t =
      { owes := Stream.Owes.record m.stream (.readback expired) t.owes } := by
    rw [Tally.record, if_neg (by rintro ⟨⟩)]
    simp only [hanswer]
    rfl
  rw [hrecord]
  refine ⟨?_, ?_, fun a haxis => ?_⟩
  · rw [hsame]
    exact h.clean
  · rw [hsame]
    exact h.away
  · -- the anchor stands where the position is known
    have hkept : m.home.anchor.axes a = true ∧ (¬rc > 0 → m.home.positionLost = false) := by
      have hafter : (readbackPosition rc unplayed m.home).anchor.axes a = true := haxis
      by_cases hrc : rc > 0
      · rw [readbackPosition_paid hrc] at hafter
        exact ⟨hafter, fun hno => absurd hrc hno⟩
      · cases hlost : m.home.positionLost with
        | true =>
          rw [readbackPosition_lost hrc hlost] at hafter
          cases hafter
        | false =>
          rw [readbackPosition_held hrc hlost] at hafter
          exact ⟨hafter, fun _ => rfl⟩
    have hax := h.axes a hkept.1
    have hswap : .resumeSwap ∉ m.stream.proto :=
      fun hp => absurd ((h.away (.inr hp)).symm.trans hax.home) (by decide)
    obtain ⟨hdone, hnot⟩ := readbackAnswer_pos hanswer
    have hread := Stream.step_read hax.read rfl hswap hstep
    rw [hsame] at hread ⊢
    refine hax.answered hread ?_ hdone fun hrc => ?_
    · simp only [Stream.Owes.record]
      split <;> exact ⟨rfl, rfl⟩
    · have hheld := hkept.2 hrc
      have hspares : m.spares t.dropped = true ∧ m.spares t.removed = true := by
        simpa [endsSound, hanswer, hheld, hnot hrc] using hends
      exact ⟨hheld, spares_axis hspares.1 hkept.1, spares_axis hspares.2 hkept.1⟩

/-- **A home** that finds the stream drained and whose zero lands. -/
theorem homed_inv {seek opened : Bool} {anchor : Anchor} {st : State} (h : MachineInv cfg m t)
    (hdrained : m.drained = true) (hlands : m.zeroLands seek = true) {session lensTaken : Bool}
    (hsession : session = false)
    (hstep : homeCompleted seek opened anchor st { m with session := session, lensTaken := lensTaken } = some n)
    (hposition : ∀ a, anchor.axes a = true → st.position a = cfg.steps anchor.home a) :
    MachineInv cfg n {} := by
  obtain ⟨u, hu, rfl⟩ := Option.map_eq_some_iff.mp hstep
  obtain ⟨hen, hturn⟩ := step_eq_some.mp hu
  have hhere : m.stream.gf.suspended = false := by
    simp only [Machine.drained, Bool.and_eq_true, Bool.not_eq_true'] at hdrained
    exact hdrained.1.1.1.1.1.1.1.2
  have hnone : m.stream.proto = [] := by
    simp only [Stream.Label.enabled, Bool.and_eq_true] at hen
    simpa [Stream.Label.beginsCall] using hen.1.2
  refine ⟨Stream.turn_clean hturn rfl h.clean, fun haway => ?_, fun a haxis => ?_⟩
  · rcases turn_suspended hen hturn (fun _ => by rintro ⟨⟩) (fun _ _ _ => by rintro ⟨⟩) haway with
      hs | hp
    · exact absurd (hs.symm.trans hhere) (by decide)
    · rw [hnone] at hp
      cases hp
  · exact zeroed_axis (m := { m with session := session, lensTaken := lensTaken }) h.clean
      (Machine.drained_spec hdrained) hsession hlands hu (hposition a haxis)

theorem record_zeroes {l : Label} (h : l.zeroes m = true) : Tally.record m l t = {} := if_pos h

theorem sound_zeroes {l : Label} (hsound : sound (m, t) l = true) (h : l.zeroes m = true) :
    m.drained = true ∧ m.zeroLands l.seek = true := by
  have hhead := (Bool.and_eq_true_iff.mp hsound).1
  simpa [h] using hhead

/-- The motors' release keeps the anchor of the lens alone, if it has one. -/
theorem release_inv {opened : Bool} (h : MachineInv cfg m t) :
    MachineInv cfg { m with home := gfhomeInvalidateXy opened m.home } t := by
  refine ⟨h.clean, h.away, fun a haxis => ?_⟩
  have haxis' : (gfhomeInvalidateXy opened m.home).anchor.axes a = true := haxis
  by_cases hlens : m.home.anchor.axes 2 = true
  · have hhome : gfhomeInvalidateXy opened m.home =
        anchorWrite opened { m.home.anchor with axes := zAxisBit } m.home := if_pos hlens
    rw [hhome] at haxis' ⊢
    have hz : a = 2 := by simpa [anchorWrite, zAxisBit] using haxis'
    subst hz
    exact (h.axes 2 hlens).rehome rfl rfl
  · rw [gfhomeInvalidateXy, if_neg hlens] at haxis'
    cases haxis'

/-- A tray switch keeps the axes. -/
theorem tray_inv {key : Option ℚ} {want saved opened : Bool} (h : MachineInv cfg m t) :
    MachineInv cfg { m with home := traySet cfg key want saved opened m.home } t := by
  refine ⟨h.clean, h.away, fun a haxis => ?_⟩
  have hkept : (traySet cfg key want saved opened m.home).anchor.axes = m.home.anchor.axes :=
    traySet_axes key want saved opened m.home
  have hanchored : m.home.anchor.axes a = true := (congrFun hkept a).symm.trans haxis
  exact (h.axes a hanchored).rehome (traySet_moved hanchored).2 (traySet_moved hanchored).1

/-- **One step** keeps the anchor's invariant. The cases are those of `machineStep_turns`; a step
that drops an axis from the anchor has nothing to keep for it. -/
theorem machineStep_inv {l : Label} (h : MachineInv cfg m t) (hsound : sound (m, t) l = true)
    (hstep : machineStep cfg m l = some n) : MachineInv cfg n (Tally.record m l t) := by
  cases machineStep_turns cfg hstep with
  | stream hadmits hu => exact stream_inv h hsound hadmits hu
  | lost hfree =>
    refine ⟨h.clean, h.away, fun a haxis => ?_⟩
    have hax := h.axes a haxis
    exact { hax with balance := fun hf hl _ => hax.balance hf hl fun hr => absurd (hr.symm.trans hfree) (by decide) }
  | reset hfree hu => exact reset_inv h hsound hfree hu
  | waits hu hanswer => exact readback_waits h hu hanswer
  | answered hu hanswer => exact readback_answers h hsound hu hanswer
  | session => exact ⟨h.clean, fun _ => rfl, fun a haxis => by cases haxis⟩
  | sessionOver hsession hhere hnone =>
    refine ⟨h.clean, fun haway => ?_, fun a haxis => ?_⟩
    · rcases haway with hs | hp
      · exact absurd (hs.symm.trans hhere) (by decide)
      · change Stream.Owed.resumeSwap ∈ m.stream.proto at hp
        rw [hnone] at hp
        cases hp
    · exact absurd (hsession.symm.trans (h.axes a haxis).home) (by decide)
  | cloudHome hhome =>
    obtain ⟨hdrained, hlands⟩ := sound_zeroes hsound rfl
    rw [record_zeroes rfl]
    refine homed_inv h hdrained hlands rfl hhome fun a _ => ?_
    exact (congrFun (cfg.steps_mm _) a).symm
  | @manualHome k readOk energized seek opened n hfree hmay hhome =>
    obtain ⟨hdrained, hlands⟩ := sound_zeroes hsound hmay
    rw [record_zeroes (l := .manualHome k readOk energized seek opened) hmay]
    have hsession : m.session = false := by
      simp only [Machine.free, Bool.and_eq_true, Bool.not_eq_true'] at hfree
      exact hfree.1
    refine homed_inv h hdrained hlands hsession hhome fun a _ => ?_
    exact (congrFun (cfg.steps_mm _) a).symm
  | @manualRefused k readOk energized seek opened hmay =>
    have hrecord : Tally.record m (.manualHome k readOk energized seek opened) t = t :=
      if_neg (Bool.not_eq_true _ ▸ hmay)
    rw [hrecord]
    exact h
  | lensHome hhome =>
    obtain ⟨hdrained, hlands⟩ := sound_zeroes hsound rfl
    have hsession : m.session = false := by
      have hfind := (Bool.and_eq_true_iff.mp hsound).2
      simpa using hfind
    rw [record_zeroes rfl]
    refine homed_inv h hdrained hlands hsession hhome fun a haxis => ?_
    -- the lens reference carries Z alone
    have hz : a = 2 := by simpa [startupAnchor, zAxisBit] using haxis
    subst hz
    simp only [Settings.steps, startupAnchor, gfhomeReferenceZ, Function.update_self, if_true, cfg.lround_grid]
  | lensSkipped => exact ⟨h.clean, h.away, fun a haxis => { h.axes a haxis with }⟩
  | tray => exact tray_inv h
  | release => exact release_inv h
  | trayRefused | releaseRefused => exact h

/-- The start carries no reference. -/
theorem start_inv (c : Stream.Config) (k : Stream.Kernel) (emptied counted : Bool) (st : State) :
    MachineInv cfg (Machine.start (Stream.State.init c k emptied counted) st) {} := by
  refine ⟨Stream.init_clean c k emptied counted, fun haway => ?_, fun a haxis => by cases haxis⟩
  have hhere : (Stream.State.init c k emptied counted).gf.suspended = false ∧
      (Stream.State.init c k emptied counted).proto = [] := by
    simp only [Stream.State.init, Stream.rebaseAtTakeover, Stream.rebaseLocked]
    split_ifs <;> exact ⟨rfl, trivial⟩
  change (Stream.State.init c k emptied counted).gf.suspended = true ∨
    Stream.Owed.resumeSwap ∈ (Stream.State.init c k emptied counted).proto at haway
  rw [hhere.1, hhere.2] at haway
  rcases haway with hs | hp
  · cases hs
  · cases hp

/-- **The anchor and the counters are the position.** In every run whose homes zero the counters at
a drained stream, and whose resets and wakeups leave no step unaccounted, from any start: where the
stream is drained, the position of an axis that the anchor names is the anchor's coordinate in whole
steps and the kernel's counter, mod 2^32. -/
theorem anchor_is_position {c : Stream.Config} {k : Stream.Kernel} {emptied counted : Bool} {st : State}
    {a : Fin 3}
    (hrun : Runs.Reach (Runs.observe (machineStep cfg) Tally.record) (fun x l => sound x l = true)
      (Machine.start (Stream.State.init c k emptied counted) st, {}) (m, t))
    (hdrained : m.drained = true) (haxis : m.home.anchor.axes a = true) :
    m.home.position a =
      .ofInt (lround (m.home.anchor.home a * cfg.stepsPerMm a)) + m.stream.kernel.counts a := by
  have hinv : MachineInv cfg m t := by
    refine hrun.invariant (P := fun x => MachineInv cfg x.1 x.2) (start_inv c k emptied counted st) ?_
    rintro ⟨m, t⟩ l ⟨n, t'⟩ h hsound hstep
    obtain ⟨hs, rfl⟩ := Runs.observe_eq_some.mp hstep
    exact machineStep_inv h hsound hs
  have hax := hinv.axes a haxis
  have hend := Machine.drained_spec hdrained
  have hwhole : m.stream.pc.lostWrite = false := by
    have hplain := hend.plain
    cases hpc : m.stream.pc with
    | wrote p c ok =>
      rw [hpc] at hplain
      cases hplain
    | _ => rfl
  obtain ⟨-, hdropped, hremoved⟩ := hax.calm hend.resetting
  have hunmarked : t.owes.mark = 0 := hax.read.unmarked hend.killed
  have hbalance := hax.balance hend.failed hwhole fun hr => absurd (hr.symm.trans hend.resetting)
      (by decide)
  rw [hbalance, hunmarked, Stream.stepOf_zero, hend.pipeline hinv.clean]
  simp only [Pi.add_apply, Pi.zero_apply, hdropped, hremoved, add_zero, Settings.steps]

end Run

/-! ## A home, and a home whose zero fails

A run that meets the condition through a home and a reset, and the one that writes the anchor behind
a zero that did not take. -/

section Schedules

open Glowforge.Stream (State.init slowConfig idleKernel oneStep)

/-- Ten steps to a millimetre, and the beds of half a metre. -/
def tenSteps : Settings where
  stepsPerMm := fun _ => 10
  scaled := fun _ => by decide +kernel
  maxTravel := fun _ => -500

def bareKeys : Keys where
  home := fun _ => none
  edgeZ := 0
  parkZ := 0
  below := 0
  above := 0
  trayOffset := none

def unreferenced : State where
  position := 0
  positionLost := false
  homePosition := fun _ => 0
  zReferenced := false
  anchor := ⟨fun _ => 0, noAxes, .startup⟩
  file := none
  out := false
  shiftKnown := false
  shift := 0

/-- The controller starts on a kernel that has counted five steps on each axis. -/
def startedAtFive : Machine :=
  Machine.start (State.init (slowConfig true) { idleKernel with counts := fun _ => 5 } true true) unreferenced

/-- A manual home, a stream that plays one step in X, and a reset that drops the next one. -/
def homedThenReset : List Label :=
  let stream := oneStep ++ [Stream.Label.ship {}, .ship {}, .ship { now := 0, later := 1000000 }] ++
    List.replicate 33 (Stream.Label.ship {}) ++ List.replicate 22 (Stream.Label.kernel .play) ++
    [Stream.Label.enter (.pulse 0x01 0x00), .locked (.pulse 0x01 0x00) 0, .goIdle true 0x01 0x00]
  .manualHome bareKeys true true true true :: stream.map .stream ++
    [Label.lost, .reset 0, .stream .proto, .stream .proto, .stream (.kernel .rampEnd)] ++
    List.replicate 7 (Label.stream (.ship {})) ++ [Label.readback false]

/-- The theorem behind that reset: one step has been played. -/
theorem anchor_is_position_reset :
    ∃ m : Machine, m.drained = true ∧ m.home.anchor.axes 0 = true ∧ m.stream.kernel.counts 0 = 1 ∧
      m.home.position 0 = .ofInt (lround (m.home.anchor.home 0 * tenSteps.stepsPerMm 0)) +
        m.stream.kernel.counts 0 := by
  have hrun : ∃ x : Machine × Tally,
      Runs.Reach (Runs.observe (machineStep tenSteps) Tally.record) (fun x l => sound x l = true)
        (startedAtFive, {}) x ∧
      (x.1.drained = true ∧ x.1.home.anchor.axes 0 = true ∧ x.1.stream.kernel.counts 0 = 1) :=
    Runs.exists_reach_of_exec homedThenReset (by decide +kernel)
  obtain ⟨⟨m, t⟩, hreach, hdrained, haxis, hone⟩ := hrun
  exact ⟨m, hdrained, haxis, hone, anchor_is_position hreach hdrained haxis⟩

/-- **A home whose zero fails leaves an anchor all the same**: the counters stand at five, and the
position is the anchor's. -/
theorem home_anchors_failed_zero :
    ∃ m : Machine, Runs.Reach (machineStep tenSteps) (fun _ _ => True) startedAtFive m ∧
      m.drained = true ∧ m.home.anchor.axes 0 = true ∧
      ¬m.home.position 0 = .ofInt (lround (m.home.anchor.home 0 * tenSteps.stepsPerMm 0)) +
        m.stream.kernel.counts 0 :=
  Runs.exists_reach_of_exec [.manualHome bareKeys true true false true] (by decide +kernel)

end Schedules

end Glowforge.Homing
