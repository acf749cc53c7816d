import Mathlib.Algebra.BigOperators.Pi
import Glowforge.Stream.Conservation
import Glowforge.Stream.ReadBack

/-!
# Glowforge — the steps on their way to the machine

A step that the core has counted is on its way until the kernel plays it: in a call that waits for
the lock, in a slot of the stream ring, in the chunk of a write, in the kernel's ring. Counted with
the steps played, none is lost between two of these places:

* **`pipeline`** — the counters and the steps at every place before them.
* **`turn_pipeline`** — a turn adds to it what the core hands over, takes from it what a seek-clear
  removes, and otherwise only moves steps along, unless it ends in a fault or in a write that failed.
* **`reset_pipeline`** — a reset takes the backlog from it.
* **`turn_clean`** — the slots outside the window stay empty, in every run whose index space restarts
  over an empty window only.
-/

namespace Glowforge.Stream

/-! ## The places

Where a step can be between the core's count and the kernel's counters, and the sum over all of
them. -/

/-- The steps in the slots of the stream ring. -/
def ringSteps (ring : Nat → StepByte) : Steps := ∑ j ∈ Finset.range ringSize, stepOf (ring j).val

/-- The step of a call. -/
def Call.steps : Call → Steps
  | .pulse stepBits dirBits => stepOf (pulseByte stepBits dirBits).val
  | _ => 0

/-- The steps of the calls that wait for the lock. -/
def enteredSteps (calls : List Call) : Steps := (calls.map Call.steps).sum

/-- The steps of a chunk that its write has not put into the ring yet. -/
def ShipPc.flight : ShipPc → Steps
  | .writing _ _ rest => stepsIn rest
  | _ => 0

/-- A write has failed, and the stream does not know yet. -/
def ShipPc.lostWrite : ShipPc → Bool
  | .wrote _ _ false => true
  | _ => false

/-- Where steps are: the counters, the kernel's ring, the write, the slots and the calls. -/
structure Places where
  counts : Steps
  ring : Steps
  flight : Steps
  slots : Nat → StepByte
  entered : List Call

def State.places (s : State) : Places :=
  ⟨s.kernel.counts, stepsIn s.kernel.ring, s.pc.flight, s.gf.ring, s.entered⟩

def Places.sum (p : Places) : Steps :=
  p.counts + p.ring + p.flight + ringSteps p.slots + enteredSteps p.entered

/-- The steps played, and those on their way. -/
def pipeline (s : State) : Steps := s.places.sum

theorem slot_mem (i : Nat) : slot i ∈ Finset.range ringSize :=
  Finset.mem_range.mpr (Nat.mod_lt i ringSize_pos)

/-- A slot that is written: its old step goes and its new one comes. -/
theorem ringSteps_update (ring : Nat → StepByte) (i : Nat) (b : StepByte) :
    ringSteps (Function.update ring (slot i) b) + stepOf (ring (slot i)).val =
      ringSteps ring + stepOf b.val := by
  have hmap : (fun j => stepOf (Function.update ring (slot i) b j).val) =
      Function.update (fun j => stepOf (ring j).val) (slot i) (stepOf b.val) := by
    funext j
    by_cases hj : j = slot i
    · subst hj
      rw [Function.update_self, Function.update_self]
    · rw [Function.update_of_ne hj, Function.update_of_ne hj]
  rw [ringSteps, ringSteps, hmap, Finset.sum_update_of_mem (slot_mem i),
    ← Finset.add_sum_erase _ _ (slot_mem i), Finset.sdiff_singleton_eq_erase]
  abel

theorem ringSteps_empty {ring : Nat → StepByte} (h : ∀ i, ring (slot i) = 0) : ringSteps ring = 0 := by
  refine Finset.sum_eq_zero fun j hj => ?_
  have hslot : slot j = j := Nat.mod_eq_of_lt (Finset.mem_range.mp hj)
  rw [← hslot, h, stepOf_zero]

/-- FIRE is not read where a mask leaves it out. -/
theorem has_lit (mask : UInt8) (hmask : 0x10 &&& mask = 0) (b : UInt8) : has (b ||| 0x10) mask = has b mask := by
  have hand : (b ||| 0x10) &&& mask = b &&& mask := by
    apply UInt8.toBitVec_inj.mp
    have hzero : (0x10 : UInt8).toBitVec &&& mask.toBitVec = 0 := congrArg UInt8.toBitVec hmask
    rw [UInt8.toBitVec_and, UInt8.toBitVec_or, BitVec.and_or_distrib_right, hzero, UInt8.toBitVec_and]
    exact BitVec.or_zero
  rw [has, has, hand]

theorem stepOf_lit (b : UInt8) : stepOf (b ||| 0x10) = stepOf b := by
  funext a
  obtain rfl | rfl | rfl := axis_cases a
  · simp only [stepOf, has_lit 0x01 rfl, has_lit 0x02 rfl]
  · simp only [stepOf, has_lit 0x04 rfl, has_lit 0x08 rfl]
  · simp only [stepOf, has_lit 0x20 rfl, has_lit 0x40 rfl]

/-- The steps of a tick as it ships are those of its slot. -/
theorem stepsIn_shippedByte (b : StepByte) (fires : Bool) : stepsIn [shippedByte b fires] = stepOf b.val := by
  rw [stepsIn_cons, isTick_shippedByte, if_pos rfl, stepsIn_nil, add_zero, shippedByte]
  cases fires with
  | true => exact stepOf_lit b.val
  | false => rfl

theorem stepsIn_power {bs : List UInt8} (h : ∀ b ∈ bs, isTick b = false) : stepsIn bs = 0 := by
  have hnone : bs.filter isTick = [] := by
    rw [List.filter_eq_nil_iff]
    intro b hb
    rw [h b hb]
    exact Bool.false_ne_true
  rw [stepsIn, hnone]
  rfl

/-- **A tick** moves the step of its slot into the chunk. -/
theorem shipTick_steps (gate : Bool) (g : Gf) :
    stepsIn (shipTick gate g).2 + ringSteps (shipTick gate g).1.ring = ringSteps g.ring := by
  obtain ⟨power, fires, hbytes, hpower, -, -⟩ := shipTick_bytes gate g
  have hupdate := ringSteps_update g.ring g.shipped 0
  rw [stepOf_zero, add_zero] at hupdate
  rw [hbytes, stepsIn_append, stepsIn_power hpower, stepsIn_shippedByte, shipTick_ring, ← hupdate]
  abel

theorem buildTicks_steps (gate : Bool) (due : Nat) (streaming : Bool) (fuel : Nat) (g : Gf) :
    stepsIn (buildTicks gate due streaming fuel g []).2 +
      ringSteps (buildTicks gate due streaming fuel g []).1.ring = ringSteps g.ring := by
  refine buildTicks_induct gate due streaming
    (P := fun r chunk => stepsIn chunk + ringSteps r.ring = ringSteps g.ring) ?_ fuel g [] ?_
  · intro r chunk hsum _
    rw [stepsIn_append, ← hsum, ← shipTick_steps gate r]
    abel
  · rw [stepsIn_nil, zero_add]

/-- **`drop_backlog_locked`** takes from the ring what it sums up. -/
theorem dropSlots_ringSteps (n i : Nat) (ring : Nat → StepByte) (dropped : Steps) :
    ringSteps (dropSlots n i (ring, dropped)).1 + (dropSlots n i (ring, dropped)).2 =
      ringSteps ring + dropped := by
  induction n generalizing i ring dropped with
  | zero => rfl
  | succ n ih =>
    have hupdate := ringSteps_update ring i 0
    rw [stepOf_zero, add_zero] at hupdate
    rw [dropSlots, ih, tickSteps, ← hupdate]
    abel

/-! ## The shipper

The thread moves steps from the ring to the chunk and from the chunk to the kernel. -/

theorem places_pc {s : State} {pc : ShipPc} (h : pc.flight = s.pc.flight) :
    State.places { s with pc := pc } = s.places :=
  congrArg (fun f => { s.places with flight := f }) h

theorem ShipPc.flight_eq_zero {pc : ShipPc} (h : pc.inFlight = false) : pc.flight = 0 := by
  cases pc with
  | writing p c rest => cases h
  | _ => rfl

theorem ShipPc.tail_flight {pc : ShipPc} (h : pc.tail = true ∨ pc = .top ∨ pc = .lock) : pc.flight = 0 := by
  rcases h with h | rfl | rfl
  · cases pc with
    | writing p c rest => cases h
    | _ => rfl
  · rfl
  · rfl

theorem darkPad_places (ok : Bool) (s : State) : (darkPad ok s).places = s.places := by
  have hcounts : (darkPad ok s).kernel.counts = s.kernel.counts := by
    simp only [darkPad]
    split <;> rfl
  simp only [State.places, hcounts, stepsIn_pad]
  rfl

/-- A round of the loop moves the steps of its chunk from the slots into the write. -/
theorem shipLoop_pipeline {p : Pass} {streaming : Bool} {s : State} (hactive : s.gf.active = true)
    (hflight : s.pc.flight = 0) : pipeline (shipLoop p streaming s) = pipeline s := by
  simp only [shipLoop]
  split
  · have hsum := buildTicks_steps p.gate p.due streaming shipChunk s.gf
    have hopen : (buildTicks p.gate p.due streaming shipChunk s.gf []).1.active = true :=
      ((buildTicks_ticked p.gate p.due streaming shipChunk s.gf []).frame Gf.active rfl).trans hactive
    generalize buildTicks p.gate p.due streaming shipChunk s.gf [] = r at hsum hopen
    have hplaces : (shipChunkOut p r.1 r.2 s).places =
        { s.places with flight := stepsIn r.2, slots := r.1.ring } := by
      simp only [State.places, shipChunkOut, ShipPc.flight, hopen, if_true]
    have hstart : s.places.flight = 0 := hflight
    have hslots : s.places.slots = s.gf.ring := rfl
    rw [pipeline, pipeline, hplaces, Places.sum, Places.sum, hstart, hslots, ← hsum]
    abel
  · exact congrArg Places.sum (places_pc hflight.symm)

theorem endStream_places (e : Env) (s : State) : (endStream e s).places = s.places := by
  have hpad : (endPad e.ok s).places = s.places := by
    simp only [endPad]
    split
    · exact darkPad_places e.ok s
    · rfl
  simp only [endStream]
  split
  · rw [← hpad]
    simp only [State.places, endRun]
    split <;> rfl
  · rfl

theorem shipBody_pipeline {e : Env} {gate : Bool} {s : State} (hactive : s.gf.active = true)
    (hflight : s.pc.flight = 0) : pipeline (shipBody e gate s) = pipeline s := by
  have hedge : (gateEdge gate s.gf).ring = s.gf.ring ∧ (gateEdge gate s.gf).active = true := by
    rw [← hactive]
    simp only [gateEdge]
    split_ifs <;> exact ⟨rfl, rfl⟩
  have hhold : ∀ s, (pollHold e s).places = s.places := by
    intro s
    simp only [pollHold]
    split_ifs <;> rfl
  have hstart : State.places { s with gf := gateEdge gate s.gf } = s.places :=
    congrArg (fun r => { s.places with slots := r }) hedge.1
  simp only [shipBody, shipGated]
  split
  · have hend := (hhold _).trans ((endStream_places e _).trans hstart)
    have hpc : (ShipPc.check).flight = (pollHold e (endStream e { s with gf := gateEdge gate s.gf })).pc.flight :=
      hflight.symm.trans (congrArg Places.flight hend).symm
    exact congrArg Places.sum ((places_pc hpc).trans hend)
  · split
    · have hpc : ShipPc.check.flight = s.pc.flight := hflight.symm
      exact congrArg Places.sum ((places_pc (s := { s with gf := gateEdge gate s.gf }) hpc).trans hstart)
    · refine (shipLoop_pipeline (s := anchor e.now { s with gf := gateEdge gate s.gf }) hedge.2 hflight).trans ?_
      exact congrArg Places.sum hstart

/-- The steps that a seek-clear removes from the kernel's ring. -/
def removedBy (e : Env) (s : State) : Steps :=
  match s.pc with
  | .pendSeek _ => if seekTakes e s then stepsIn s.kernel.ring else 0
  | _ => 0

theorem removedBy_eq_zero {e : Env} {s : State} (h : ∀ zeros, s.pc ≠ .pendSeek zeros) : removedBy e s = 0 := by
  unfold removedBy
  split
  · next zeros hpc => exact absurd hpc (h zeros)
  · rfl

/-- The pieces of a pass that leave every step at its place. -/
def ShipPc.idles : ShipPc → Bool
  | .sampled _ | .writing _ _ _ | .wrote _ _ _ | .pendSeek _ => false
  | _ => true

theorem shipStep_places {e : Env} {s : State} (h : s.pc.idles = true) :
    (shipStep e s).places = s.places := by
  by_cases htail : s.pc.tail = true
  · have hframe := (shipStep_tail (e := e) htail).frame (fun g k => (k.counts, stepsIn k.ring, g.ring)) rfl
    simp only [Prod.mk.injEq] at hframe
    simp only [State.places, hframe, shipStep_entered, ShipPc.tail_flight (shipStep_tail_pc htail),
      ShipPc.tail_flight (.inl htail)]
  · cases hpc : s.pc with (rw [hpc] at h htail)
    | top =>
      have hpad : (resetPad e.ok { s with gf := { s.gf with runPending := keepsRun s.gf } }).places =
          s.places := by
        simp only [resetPad]
        split
        · exact darkPad_places _ _
        · rfl
      have hflight : ∀ g, (pendingNext g).flight = 0 := by
        intro g
        simp only [pendingNext]
        split_ifs <;> rfl
      have hstart : s.places.flight = 0 := by
        rw [State.places, hpc]
        rfl
      have hstep : shipStep e s = pendingSnapshot e s := by rw [shipStep, hpc]
      rw [hstep, pendingSnapshot]
      exact (places_pc ((hflight _).trans (hstart.symm.trans (congrArg Places.flight hpad).symm))).trans hpad
    | pendState clear zeros =>
      simp only [shipStep, hpc, pendingState]
      refine places_pc ?_
      rw [hpc]
      split <;> cases clear <;> rfl
    | pendCount zeros =>
      simp only [shipStep, hpc, pendingCount]
      exact places_pc (by rw [hpc]; rfl)
    | pendDone cleared counts zeros =>
      have hring := (pendingDone_settled cleared counts zeros s).frame Gf.ring rfl
      simp only [shipStep, hpc]
      simp only [State.places, hring, hpc]
      rfl
    | pendOurs =>
      simp only [shipStep, hpc, pendingOurs]
      split
      · refine (places_pc (s := { s with gf := { s.gf with runPending := false, failed := true } }) ?_).trans rfl
        rw [hpc]
        split <;> rfl
      · exact places_pc (by rw [hpc]; rfl)
    | lock =>
      have hpad : (faultPad e.ok s).places = s.places := by
        simp only [faultPad]
        split
        · exact darkPad_places e.ok s
        · rfl
      have hstart : s.places.flight = 0 := by
        rw [State.places, hpc]
        rfl
      simp only [shipStep, hpc, shipLock]
      split
      · refine (places_pc ?_).trans hpad
        exact hstart.symm.trans (congrArg Places.flight hpad).symm
      · exact places_pc (by rw [hpc]; rfl)
    | _ => first | exact absurd rfl htail | cases h

/-- **A step of the shipper** moves steps along, and a seek-clear removes those of the ring. -/
theorem shipStep_pipeline {e : Env} {s : State} (hactive : s.gf.active = true)
    (hlost : (shipStep e s).pc.lostWrite = false) :
    pipeline (shipStep e s) + removedBy e s = pipeline s := by
  cases hidles : s.pc.idles with
  | true =>
    have hnone : removedBy e s = 0 := by
      refine removedBy_eq_zero ?_
      rintro zeros hpc
      rw [hpc] at hidles
      cases hidles
    rw [hnone, add_zero]
    exact congrArg Places.sum (shipStep_places hidles)
  | false =>
    cases hpc : s.pc with (rw [hpc] at hidles)
    | sampled gate =>
      rw [removedBy_eq_zero (by rw [hpc]; rintro _ ⟨⟩), add_zero]
      simp only [shipStep, hpc]
      exact shipBody_pipeline hactive (by rw [hpc]; rfl)
    | pendSeek zeros =>
      simp only [removedBy, shipStep, hpc, pendingSeek]
      split
      · have hplaces : s.places = ⟨s.kernel.counts, stepsIn s.kernel.ring, 0, s.gf.ring, s.entered⟩ := by
          rw [State.places, hpc]
          rfl
        have hcleared : State.places { s with kernel := s.kernel.seekClear, pc := .pendCount zeros } =
            ⟨s.kernel.counts, 0, 0, s.gf.ring, s.entered⟩ := rfl
        rw [pipeline, pipeline, hplaces, hcleared, Places.sum, Places.sum]
        abel
      · rw [add_zero]
        exact congrArg Places.sum (places_pc (by rw [hpc]; rfl))
    | writing p c rest =>
      rw [removedBy_eq_zero (by rw [hpc]; rintro _ ⟨⟩), add_zero]
      simp only [shipStep, hpc] at hlost ⊢
      cases rest with
      | nil => exact congrArg Places.sum (places_pc (by rw [hpc]; rfl))
      | cons b rest =>
        simp only [shipWrite] at hlost ⊢
        split
        · have hplaces : s.places =
              ⟨s.kernel.counts, stepsIn s.kernel.ring, stepsIn (b :: rest), s.gf.ring, s.entered⟩ := by
            rw [State.places, hpc]
            rfl
          have htaken : State.places { s with kernel := s.kernel.take b, pc := .writing p c rest } =
              ⟨s.kernel.counts, stepsIn (s.kernel.ring ++ [b]), stepsIn rest, s.gf.ring, s.entered⟩ := rfl
          have hcons : stepsIn (b :: rest) = stepsIn [b] + stepsIn rest := stepsIn_append [b] rest
          simp only [pipeline, hplaces, htaken, Places.sum, stepsIn_append, hcons]
          abel
        · next hfails =>
          rw [if_neg hfails] at hlost
          cases hlost
    | wrote p c ok =>
      rw [removedBy_eq_zero (by rw [hpc]; rintro _ ⟨⟩), add_zero]
      have hflight : s.pc.flight = 0 := by
        rw [hpc]
        rfl
      simp only [shipStep, hpc, shipWrote, shipNext]
      split
      · split
        · exact congrArg Places.sum (places_pc (s := chunkLanded c s) hflight.symm)
        · exact shipLoop_pipeline (s := chunkLanded c s) hactive hflight
      · exact congrArg Places.sum (places_pc (s := chunkFailed s) hflight.symm)
    | _ => cases hidles

/-! ## The producer

A call carries its step from the wait for the lock to a slot. -/

theorem enteredSteps_erase {calls : List Call} {c : Call} (h : c ∈ calls) :
    c.steps + enteredSteps (calls.erase c) = enteredSteps calls :=
  List.sum_map_erase Call.steps h

/-- A call that the lock-free test drops while the stream has not failed has no step in it. -/
theorem steps_of_not_enters {c : Call} {s : State} (hfailed : s.gf.failed = false)
    (h : ¬c.enters s = true) : c.steps = 0 := by
  cases c with
  | pulse stepBits dirBits =>
    have hzero : (pulseByte stepBits dirBits).val = 0 := by simpa [Call.enters, hfailed] using h
    rw [Call.steps, hzero]
    exact stepOf_zero
  | _ => rfl

/-- A step that is placed takes an empty slot. -/
theorem pulsePlace_pipeline {b : StepByte} {idx : Nat} {s : State} (hclean : RingClean s.gf)
    (hidx : s.gf.shipped ≤ idx) (hfailed : (pulsePlace b idx s).gf.failed = false) :
    pipeline (pulsePlace b idx s) = pipeline s + stepOf b.val := by
  simp only [pulsePlace] at hfailed ⊢
  generalize hi : (if idx < s.gf.produced then s.gf.produced else idx) = i at hfailed ⊢
  have hship : s.gf.shipped ≤ i := by split at hi <;> omega
  have hprod : s.gf.produced ≤ i := by split at hi <;> omega
  split
  · next hfull =>
    rw [if_pos hfull] at hfailed
    cases hfailed
  · next hroom =>
    have hempty : s.gf.ring (slot i) = 0 := hclean i hship hprod (by omega)
    have hslots := ringSteps_update s.gf.ring i b
    rw [hempty, stepOf_zero, add_zero] at hslots
    have hplaces : State.places { s with gf := { s.gf with
        ring := Function.update s.gf.ring (slot i) b, produced := i + 1 } } =
        { s.places with slots := Function.update s.gf.ring (slot i) b } := rfl
    have hbefore : s.places.slots = s.gf.ring := rfl
    rw [pipeline, pipeline, hplaces, Places.sum, Places.sum, hslots, hbefore]
    abel

theorem clampLocked_places (s : State) : (clampLocked s).2.places = s.places := by
  simp only [clampLocked, State.places]
  split
  · rw [(Kernel.stop_ring _).1, (Kernel.stop_ring _).2]
  · rfl

theorem pulseLocked_pipeline {b : StepByte} {s : State} (hclean : RingClean s.gf)
    (hlive : s.gf.streaming = true) (hfailed : (pulseLocked b s).gf.failed = false) :
    pipeline (pulseLocked b s) = pipeline s + stepOf b.val := by
  have hclamp : pipeline (clampLocked (noteMargin s)).2 = pipeline s :=
    congrArg Places.sum (clampLocked_places (noteMargin s))
  simp only [pulseLocked, hlive, if_true, pulseAt] at hfailed ⊢
  split
  · next hlate =>
    rw [if_pos hlate] at hfailed
    split
    · next hdrops =>
      rw [if_pos hdrops] at hfailed
      have harmed : (clampLocked (noteMargin s)).2.gf.failed = true := by
        simp only [clampLocked] at hdrops ⊢
        rw [hdrops, Bool.or_true]
      exact absurd (harmed.symm.trans hfailed) (by decide)
    · next hkeeps =>
      rw [if_neg hkeeps] at hfailed
      rw [← hclamp]
      exact pulsePlace_pipeline hclean (le_refl _) hfailed
  · next hahead =>
    rw [if_neg hahead] at hfailed
    exact pulsePlace_pipeline (s := noteMargin s) hclean (Nat.le_of_not_lt hahead) hfailed

theorem laserEventLocked_places (power : UInt8) (fire : Bool) (s : State) :
    (laserEventLocked power fire s).places = s.places := by
  have hrecord : ∀ (u : State) idx, State.places { u with gf := levRecord idx power fire u.gf } = u.places := by
    intro u idx
    obtain ⟨lev, warned, hrec⟩ := levRecord_frame idx power fire u.gf
    rw [hrec]
    rfl
  simp only [laserEventLocked]
  split_ifs
  · exact clampLocked_places s
  · exact (hrecord _ _).trans (clampLocked_places s)
  · exact hrecord _ _
  · rfl

theorem wakeupLocked_places (now : Nat) (s : State) : (wakeupLocked now s).places = s.places := by
  have hindex : ∀ g, (wakeupIndex now g).ring = g.ring := by
    intro g
    simp only [wakeupIndex, wakeupContinue, wakeupFresh]
    split_ifs <;> rfl
  have hassert : ∀ w (g : Gf), (wakeupAssert w g).ring = g.ring := by
    intro w g
    simp only [wakeupAssert]
    split_ifs <;> rfl
  simp only [wakeupLocked]
  split
  · rfl
  · simp only [State.places, wakeupStream, hassert, hindex]
    split <;> rfl

/-- A call that runs its locked section hands its step to the slots. -/
theorem locked_pipeline {c : Call} {now : Nat} {s : State} (hclean : RingClean s.gf)
    (hlive : ∀ stepBits dirBits, c = .pulse stepBits dirBits → s.gf.streaming = true)
    (hfailed : (c.locked now s).gf.failed = false) : pipeline (c.locked now s) = pipeline s + c.steps := by
  cases c with
  | wakeup => exact (congrArg Places.sum (wakeupLocked_places now s)).trans (add_zero _).symm
  | pulse stepBits dirBits => exact pulseLocked_pipeline hclean (hlive _ _ rfl) hfailed
  | laser power fire =>
    exact (congrArg Places.sum (laserEventLocked_places _ _ _)).trans (add_zero _).symm
  | jog on => exact (congrArg Places.sum (laserEventLocked_places _ _ _)).trans (add_zero _).symm

/-! ## The turn

What a turn adds to the sum and what it takes from it. -/

/-- The steps that the core hands over. -/
def Label.handed : Label → Steps
  | .enter c => c.steps
  | _ => 0

/-- The steps that a turn removes from the kernel's ring. -/
def Label.removed (s : State) : Label → Steps
  | .ship e => removedBy e s
  | _ => 0

/-- The turns that neither end a stream nor take the device or its counters over. -/
def Label.carries : Label → Bool
  | .reset _ | .clearPosition _ | .resume _ _ _ | .foreign _ => false
  | _ => true

theorem act_places {a : KernelAct} {k : Kernel} {s : State} (hact : s.kernel.act a = some k) :
    k.counts + stepsIn k.ring = s.kernel.counts + stepsIn s.kernel.ring := by
  cases a with
  | play =>
    simp only [Kernel.act] at hact
    split at hact <;> cases hact
    next b rest hstate hring =>
      rw [hring, stepsIn_cons]
      simp only [Kernel.playByte, tickSteps]
      split <;> abel
  | runOut =>
    simp only [Kernel.act] at hact
    split at hact <;> cases hact
    rfl
  | rampEnd =>
    simp only [Kernel.act] at hact
    split at hact <;> cases hact
    rfl
  | foreignStop =>
    cases hact
    rw [(Kernel.stop_ring _).1, (Kernel.stop_ring _).2]
  | foreignDisable =>
    cases hact
    rfl
  | driverFault =>
    cases hact
    rfl

theorem protoStep_places {s t : State} (hstep : protoStep s = some t) : t.places = s.places := by
  simp only [protoStep] at hstep
  split at hstep <;> cases hstep
  case h_2.refl =>
    simp only [State.places]
    split
    · rw [(Kernel.stop_ring _).1, (Kernel.stop_ring _).2]
    · rfl
  case h_3.refl =>
    simp only [State.places]
    split <;> rfl
  all_goals rfl

/-- **One turn.** The sum gains the step that the core hands over and loses what a seek-clear
removes; for every other turn the places exchange steps and the sum stays. -/
theorem turn_pipeline {s t : State} {l : Label} (hen : l.enabled s = true) (hturn : turn s l = some t)
    (hcarries : l.carries = true) (hactive : s.gf.active = true) (hclean : RingClean s.gf)
    (hlive : ∀ stepBits dirBits now, l = .locked (.pulse stepBits dirBits) now → s.gf.streaming = true)
    (hfailed : t.gf.failed = false) (hlost : t.pc.lostWrite = false) :
    pipeline t + l.removed s = pipeline s + l.handed := by
  cases l with
  | ship e =>
    cases hturn
    simp only [Label.removed, Label.handed, add_zero]
    exact shipStep_pipeline hactive hlost
  | enter c =>
    cases hturn
    simp only [Label.removed, Label.handed, enter, add_zero] at hfailed ⊢
    split
    · have hplaces : State.places { s with entered := c :: s.entered } =
          { s.places with entered := c :: s.entered } := rfl
      have hcons : enteredSteps (c :: s.entered) = c.steps + enteredSteps s.entered := List.sum_cons
      have hbefore : s.places.entered = s.entered := rfl
      rw [pipeline, pipeline, hplaces, Places.sum, Places.sum, hcons, hbefore]
      abel
    · next hdropped =>
      rw [if_neg hdropped] at hfailed
      rw [steps_of_not_enters hfailed hdropped, add_zero]
  | locked c now =>
    cases hturn
    have hmem : c ∈ s.entered := by
      simp only [Label.enabled, Bool.and_eq_true] at hen
      exact List.contains_iff_mem.mp hen.2
    have hplaces : State.places { s with entered := s.entered.erase c } =
        { s.places with entered := s.entered.erase c } := rfl
    have hbefore : s.places.entered = s.entered := rfl
    have hlocked := locked_pipeline (c := c) (s := { s with entered := s.entered.erase c }) hclean
      (fun stepBits dirBits h => hlive stepBits dirBits now (h ▸ rfl)) hfailed
    simp only [Label.removed, Label.handed, add_zero]
    rw [hlocked, pipeline, pipeline, hplaces, Places.sum, Places.sum, hbefore, ← enteredSteps_erase hmem]
    abel
  | goIdle reset stepBits dirBits =>
    cases hturn
    obtain ⟨killed, killStep, lev, streaming, hgo⟩ := goIdle_frame reset stepBits dirBits s
    rw [hgo]
    rfl
  | kernel a =>
    obtain ⟨k, hact, rfl⟩ := Option.map_eq_some_iff.mp hturn
    have hplaces : State.places { s with kernel := k } =
        { s.places with counts := k.counts, ring := stepsIn k.ring } := rfl
    have hcounts : s.places.counts + s.places.ring = s.kernel.counts + stepsIn s.kernel.ring := rfl
    simp only [Label.removed, Label.handed, add_zero]
    rw [pipeline, pipeline, hplaces, Places.sum, Places.sum, act_places hact, hcounts]
  | proto =>
    simp only [Label.removed, Label.handed, add_zero]
    exact congrArg Places.sum (protoStep_places hturn)
  | laserModel p m =>
    cases hturn
    simp only [Label.removed, Label.handed, add_zero]
    refine congrArg Places.sum ?_
    simp only [gfStreamLaserModel, ditherReset, State.places]
    split_ifs <;> rfl
  | readback expired =>
    cases hturn
    simp only [Label.removed, Label.handed, add_zero]
    refine congrArg Places.sum ?_
    simp only [gfStreamReadback]
    split <;> rfl
  | suspend readOk =>
    cases hturn
    simp only [Label.removed, Label.handed, add_zero]
    refine congrArg Places.sum ?_
    simp only [gfStreamSuspend]
    split_ifs <;> rfl
  | reset now => cases hcarries
  | clearPosition ok => cases hcarries
  | resume latchOk emptied counted => cases hcarries
  | foreign k => cases hcarries
  | _ =>
    cases hturn
    rfl

/-! ## The reset -/

theorem resetStream_ring (now : Nat) (killed : Bool) (g : Gf) :
    (resetStream now killed g).ring =
      (dropSlots (g.produced - g.shipped) g.shipped
        (g.ring, if killed then tickSteps 0 g.killStep.val else 0)).1 := by
  have hback : ∀ dropped (g : Gf), (resetReadback killed dropped g).ring = g.ring := by
    intro dropped g
    simp only [resetReadback]
    split <;> rfl
  have hrun : ∀ g : Gf, (resetRun now killed g).ring = g.ring := by
    intro g
    simp only [resetRun]
    split <;> rfl
  simp only [resetStream, hback, hrun]
  rfl

theorem resetStream_slots (now : Nat) (killed : Bool) (g : Gf) :
    ringSteps (resetStream now killed g).ring + stepSum (backlog g) = ringSteps g.ring := by
  have hring := dropSlots_ringSteps (g.produced - g.shipped) g.shipped g.ring
    (if killed then tickSteps 0 g.killStep.val else 0)
  have hsum := dropSlots_steps (g.produced - g.shipped) g.shipped g.ring
    (if killed then tickSteps 0 g.killStep.val else 0)
  rw [resetStream_ring, stepSum_backlog]
  rw [hsum] at hring
  generalize (if killed then tickSteps 0 g.killStep.val else 0) = d at hring ⊢
  have hcancel : ringSteps (dropSlots (g.produced - g.shipped) g.shipped (g.ring, d)).1 +
      slotSteps g.ring g.shipped (min (g.produced - g.shipped) ringSize) + d = ringSteps g.ring + d := by
    rw [← hring]
    abel
  exact add_right_cancel hcancel

/-- The steps that a reset drops. -/
def resetDrops (g : Gf) : Steps := if resetEnds g then stepSum (backlog g) else 0

/-- **A reset** of a stream that has not failed takes the backlog from the steps on their way. -/
theorem reset_pipeline {now : Nat} {s : State} (hfailed : s.gf.failed = false) :
    pipeline (gfStreamReset now s) + resetDrops s.gf = pipeline s := by
  have hplaces : (gfStreamReset now s).places = { s.places with slots := (resetLocked now s.gf).ring } := rfl
  have hslots : ringSteps (resetLocked now s.gf).ring + resetDrops s.gf = ringSteps s.gf.ring := by
    have hunfailed : ¬s.gf.failed = true := by simp [hfailed]
    rw [resetLocked, if_neg hunfailed, resetDrops]
    cases hends : resetEnds s.gf with
    | true => exact resetStream_slots now s.gf.killed { s.gf with killed := false, readback := .none }
    | false => exact add_zero (ringSteps s.gf.ring)
  have hbefore : s.places.slots = s.gf.ring := rfl
  rw [pipeline, pipeline, hplaces, Places.sum, Places.sum, hbefore, ← hslots]
  abel

/-! ## The window

The slots outside the window are empty, so that the sum over the ring is the sum over the window. -/

/-- A window with no step in it, in a clean ring, is an empty ring. -/
theorem RingClean.empty {g : Gf} (h : RingClean g) (hleft : stepsLeft g = []) (i : Nat) :
    g.ring (slot i) = 0 := by
  rw [stepsLeft_eq_queued h] at hleft
  exact (Slots.lap_eq_nil ringSize_pos).mp hleft i

theorem stepsLeft_of_shipped {g : Gf} (h : g.produced = g.shipped) : stepsLeft g = [] := by
  rw [stepsLeft, backlog, h, Nat.sub_self, Nat.zero_min]
  rfl

theorem dropSlots_clean (n i : Nat) (ring : Nat → StepByte) (dropped : Steps)
    (h : Slots.Clean ringSize ring i (i + n)) :
    Slots.Clean ringSize (dropSlots n i (ring, dropped)).1 (i + n) (i + n) := by
  induction n generalizing i ring dropped with
  | zero => exact h
  | succ n ih =>
    rw [show i + (n + 1) = i + 1 + n by omega] at h ⊢
    exact ih (i + 1) _ _ (Slots.Clean.pop h)

/-- The backlog dropped, the ring is empty. -/
theorem dropSlots_empty {g : Gf} {dropped : Steps} (h : RingClean g) (i : Nat) :
    (dropSlots (g.produced - g.shipped) g.shipped (g.ring, dropped)).1 (slot i) = 0 :=
  Slots.Clean.empty ringSize_pos
    (dropSlots_clean (g.produced - g.shipped) g.shipped g.ring dropped (Slots.Clean.mono h (by omega)))
    (le_refl _) i

/-- The index space restarts over a window with no step in it: at a fresh wakeup, and at the end of
a takeover. -/
def restartsOver (s : State) : Label → Bool
  | .proto => s.proto.head? != some .resumeSwap || stepsLeft s.gf == []
  | l => restartsEmpty s l

theorem emitted_plain (b : BitVec 8) (h : isTick (UInt8.ofBitVec b) = true) :
    (UInt8.ofBitVec b &&& 0xEF) &&& 0x90 = 0 := by
  revert b
  decide

/-- What the sink was given is a list of step bytes. -/
theorem exists_emitted (dump : List UInt8) : ∃ bs : List StepByte, bs.map StepByte.val = emitted dump := by
  have hplain : ∀ b ∈ emitted dump, b &&& 0x90 = 0 := by
    intro b hb
    obtain ⟨x, hx, rfl⟩ := List.mem_map.mp (List.mem_of_mem_filter hb)
    exact emitted_plain x.toBitVec (List.mem_filter.mp hx).2
  generalize emitted dump = bytes at hplain
  induction bytes with
  | nil => exact ⟨[], rfl⟩
  | cons b bytes ih =>
    obtain ⟨bs, rfl⟩ := ih fun c hc => hplain c (List.mem_cons_of_mem b hc)
    exact ⟨⟨b, hplain b List.mem_cons_self⟩ :: bs, rfl⟩

/-- A clean ring is one whose steps are conserved, for the steps that it has seen. -/
theorem RingClean.conserved {s : State} (h : RingClean s.gf) : ∃ accepted, s.ringView.Conserved accepted := by
  obtain ⟨bs, hbs⟩ := exists_emitted s.dump
  refine ⟨bs ++ queued s.gf, h, ?_⟩
  rw [List.map_append, hbs]
  rfl

theorem pulseLocked_clean {b : StepByte} {s : State} (h : RingClean s.gf) : RingClean (pulseLocked b s).gf := by
  have hplace : ∀ (u : State) idx, RingClean u.gf → u.gf.shipped ≤ idx → RingClean (pulsePlace b idx u).gf := by
    intro u idx hu hidx
    simp only [pulsePlace]
    generalize hi : (if idx < u.gf.produced then u.gf.produced else idx) = i
    have hship : u.gf.shipped ≤ i := by split at hi <;> omega
    have hprod : u.gf.produced ≤ i := by split at hi <;> omega
    split
    · exact hu
    · exact Slots.Clean.put hu hship hprod
  simp only [pulseLocked, pulseAt]
  split_ifs with hlive hlate
  · exact h
  · exact hplace _ _ h (le_refl _)
  · exact hplace _ _ h (Nat.le_of_not_lt hlate)
  · exact h

/-- **The ring behind a reset** is clean: empty where it dropped the backlog. -/
theorem resetLocked_clean {now : Nat} {g : Gf} (h : RingClean g) : RingClean (resetLocked now g) := by
  have hstream : RingClean (resetStream now g.killed { g with killed := false, readback := .none }) := by
    refine Slots.Clean.of_empty fun i => ?_
    rw [resetStream_ring]
    exact dropSlots_empty (g := { g with killed := false, readback := .none }) h i
  have hfailed : ∀ r, RingClean r → RingClean (resetFailed r) :=
    fun r hr => Slots.Clean.of_empty fun i => dropSlots_empty (g := r) hr i
  have hended : RingClean (if resetEnds g then
      resetStream now g.killed { g with killed := false, readback := .none }
      else { g with killed := false, readback := .none }) := by
    split
    · exact hstream
    · exact h
  by_cases hf : g.failed = true
  · rw [resetLocked, if_pos hf]
    exact hfailed _ hended
  · rw [resetLocked, if_neg hf]
    exact hended

theorem clean_of_view {s t : State} (hview : t.ringView = s.ringView) (h : RingClean s.gf) : RingClean t.gf := by
  change Slots.Clean ringSize t.ringView.ring t.ringView.shipped t.ringView.produced
  rw [hview]
  exact h

/-- **One turn** leaves the slots outside the window empty. The shipper zeroes what it passes, a
pulse writes inside, and a restart is over a window that is empty itself. -/
theorem turn_clean {s t : State} {l : Label} (hturn : turn s l = some t) (hover : restartsOver s l = true)
    (h : RingClean s.gf) : RingClean t.gf := by
  cases l with
  | ship e =>
    cases hturn
    obtain ⟨accepted, hcons⟩ := h.conserved
    exact (shipStep_conserved e s hcons).clean
  | locked c now =>
    cases hturn
    cases c with
    | wakeup =>
      obtain ⟨accepted, hcons⟩ := RingClean.conserved (s := { s with entered := s.entered.erase .wakeup }) h
      refine (wakeup_conserved (fun hres => ?_) hcons).clean
      simpa [restartsOver, restartsEmpty, show restarts s.gf = true from hres] using hover
    | pulse stepBits dirBits => exact pulseLocked_clean (s := { s with entered := _ }) h
    | laser power fire => exact clean_of_view (laserEventLocked_ringView _ _ _) h
    | jog on => exact clean_of_view (laserEventLocked_ringView _ _ _) h
  | goIdle reset stepBits dirBits =>
    cases hturn
    exact clean_of_view (goIdle_ringView reset stepBits dirBits s) h
  | reset now =>
    cases hturn
    exact resetLocked_clean h
  | proto =>
    simp only [turn, protoStep] at hturn
    split at hturn <;> cases hturn
    case h_8.refl rest hp =>
      have hleft : stepsLeft s.gf = [] := by simpa [restartsOver, hp] using hover
      exact Slots.Clean.of_empty (h.empty hleft)
    all_goals exact h
  | kernel a =>
    obtain ⟨k, -, rfl⟩ := Option.map_eq_some_iff.mp hturn
    exact h
  | enter c =>
    cases hturn
    simp only [enter]
    split <;> exact h
  | laserModel p m =>
    cases hturn
    simp only [gfStreamLaserModel, ditherReset]
    split_ifs <;> exact h
  | readback expired =>
    cases hturn
    simp only [gfStreamReadback]
    split <;> exact h
  | clearPosition ok =>
    cases hturn
    simp only [gfStreamClearPosition, rebaseLocked]
    split_ifs <;> exact h
  | suspend readOk =>
    cases hturn
    simp only [gfStreamSuspend]
    split_ifs <;> exact h
  | resume latchOk emptied counted =>
    cases hturn
    simp only [gfStreamResume, rebaseAtTakeover, rebaseLocked]
    split_ifs <;> exact h
  | _ =>
    cases hturn
    exact h

theorem init_clean (c : Config) (k : Kernel) (emptied counted : Bool) :
    RingClean (State.init c k emptied counted).gf := by
  rcases (init_steps c k emptied counted).ring with hfailed | hring
  · simp only [State.init, rebaseAtTakeover] at hfailed
    split_ifs at hfailed <;> cases hfailed
  · exact hring.clean

end Glowforge.Stream
