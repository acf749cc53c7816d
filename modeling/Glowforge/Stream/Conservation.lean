import Glowforge.Lib.Slots
import Glowforge.Stream.Tick

/-!
# Glowforge — no step is lost, doubled or reordered

The stream ring is a queue of step bytes between the producer and the shipper
(`Slots`, at `ringSize` slots). A pulse appends to it, a tick of the shipper takes the front
off and hands it to the sink, and everything else leaves it alone:

* **`Conserved`** — the steps handed to the sink, and then the steps in the ring, are the
  steps accepted, in order.
* **`shipStep_conserved`** — a step of the shipper keeps it.
* **`wakeup_conserved`** — so does a wakeup, unless it restarts the index space over steps
  that have not shipped.
* **`steps_conserved`** — hence in every run without such a wakeup.

A fresh wakeup takes the previous stream for shipped out. A cycle that ends before the
shipper's first pass has shipped nothing, and its steps are left behind
(`fresh_wakeup_strands_step`).
-/

namespace Glowforge.Stream

/-! ## What the sink was given

The step bytes among all that was handed over: pads and power bytes carry none. -/

/-- The step bits of the tick bytes handed to the sink, FIRE masked out; power bytes and ticks
without a step are left out. -/
def emitted (dump : List UInt8) : List UInt8 :=
  Slots.entries ((dump.filter isTick).map (· &&& 0xEF))

@[simp] theorem emitted_append (d e : List UInt8) : emitted (d ++ e) = emitted d ++ emitted e := by
  simp [emitted]

theorem emitted_power {bs : List UInt8} (h : ∀ b ∈ bs, isTick b = false) : emitted bs = [] := by
  have hnone : bs.filter isTick = [] := by
    rw [List.filter_eq_nil_iff]
    intro b hb
    rw [h b hb]
    exact Bool.false_ne_true
  rw [emitted, hnone]
  rfl

theorem emitted_dark : emitted [0x00] = [] := rfl

theorem stepByte_eq_zero {b : StepByte} : b = 0 ↔ b.val = 0 := by
  refine ⟨fun h => h ▸ rfl, fun h => ?_⟩
  cases b
  simp only at h
  subst h
  rfl

/-- A shipped byte counts as what its slot held. -/
theorem emitted_shippedByte (b : StepByte) (fires : Bool) :
    emitted [shippedByte b fires] = (Slots.entries [b]).map StepByte.val := by
  simp only [emitted, List.filter_cons, isTick_shippedByte, if_true, List.filter_nil, List.map_cons,
    List.map_nil, shippedByte_unlit]
  by_cases hb : b = 0
  · subst hb
    rfl
  · have hv : b.val ≠ 0 := fun h => hb (stepByte_eq_zero.mpr h)
    simp [Slots.entries, hb, hv]

/-! ## The queue between producer and shipper

The ring's window as a list, and the one equation that the whole module is about: given, and then
queued, is accepted. -/

/-- The steps that the ring holds for the shipper, in order. -/
def queued (g : Gf) : List StepByte := Slots.lap ringSize g.ring g.shipped

/-- The ring holds steps only in its window `[shipped, produced)`. -/
def RingClean (g : Gf) : Prop := Slots.Clean ringSize g.ring g.shipped g.produced

/-- What the invariant of the ring reads. -/
structure RingView where
  ring : Nat → StepByte
  shipped : Nat
  produced : Nat
  emitted : List UInt8

def State.ringView (s : State) : RingView :=
  ⟨s.gf.ring, s.gf.shipped, s.gf.produced, emitted s.dump⟩

/-- **The invariant.** The window is all that holds steps, and the steps handed to the sink
followed by those in the ring are the steps accepted. -/
structure RingView.Conserved (v : RingView) (accepted : List StepByte) : Prop where
  clean : Slots.Clean ringSize v.ring v.shipped v.produced
  sum : v.emitted ++ (Slots.lap ringSize v.ring v.shipped).map StepByte.val =
    accepted.map StepByte.val

theorem ringSize_pos : 0 < ringSize := by decide

namespace RingView.Conserved

variable {v : RingView} {accepted : List StepByte}

/-- An accepted step joins at the end. -/
theorem put {i : Nat} {b : StepByte} (h : v.Conserved accepted) (hship : v.shipped ≤ i)
    (hprod : v.produced ≤ i) (hlap : i < v.shipped + ringSize) (hb : b ≠ 0) :
    RingView.Conserved { v with ring := Function.update v.ring (slot i) b, produced := i + 1 }
      (accepted ++ [b]) := by
  refine ⟨Slots.Clean.put h.clean hship hprod, ?_⟩
  rw [slot, Slots.lap_put h.clean hship hprod hlap hb, List.map_append, List.map_append,
    ← List.append_assoc, h.sum]

/-- The window can grow: its new slots are empty. -/
theorem grow {produced : Nat} (h : v.Conserved accepted) (hle : v.produced ≤ produced) :
    RingView.Conserved { v with produced := produced } accepted :=
  ⟨h.clean.mono hle, h.sum⟩

/-- An empty window means an empty ring. -/
theorem empty (h : v.Conserved accepted)
    (hwindow : Slots.entries (Slots.slots ringSize v.ring v.shipped
      (min (v.produced - v.shipped) ringSize)) = []) : ∀ i, v.ring (i % ringSize) = 0 :=
  (Slots.lap_eq_nil ringSize_pos).mp ((Slots.lap_eq_window h.clean).trans hwindow)

/-- Over an empty ring the cursors can start anywhere. -/
theorem restart {shipped produced : Nat} (h : v.Conserved accepted)
    (hempty : ∀ i, v.ring (i % ringSize) = 0) :
    RingView.Conserved { v with shipped := shipped, produced := produced } accepted := by
  have hlap : ∀ lo, Slots.lap ringSize v.ring lo = [] :=
    fun lo => (Slots.lap_eq_nil ringSize_pos).mpr hempty
  refine ⟨Slots.Clean.of_empty hempty, ?_⟩
  rw [← h.sum, hlap, hlap]

end RingView.Conserved

/-! ## The shipper

A tick moves one entry from the front of the queue to the end of what was given. -/

/-- The tick loop moves steps from the ring to the chunk and keeps their order. -/
theorem buildTicks_conserved (gate : Bool) (due : Nat) (streaming : Bool) (fuel : Nat) (g : Gf)
    (hclean : RingClean g) :
    let r := buildTicks gate due streaming fuel g []
    RingClean r.1 ∧
      emitted r.2 ++ (queued r.1).map StepByte.val = (queued g).map StepByte.val := by
  refine buildTicks_induct gate due streaming (P := fun r chunk => RingClean r ∧
    emitted chunk ++ (queued r).map StepByte.val = (queued g).map StepByte.val) ?_ fuel g []
    ⟨hclean, List.nil_append _⟩
  rintro r chunk ⟨hc, hsum⟩ -
  obtain ⟨power, fires, hbytes, hpower, -, -⟩ := shipTick_bytes gate r
  have hproduced : (shipTick gate r).1.produced = r.produced :=
    (shipTick_ticked gate r).frame Gf.produced rfl
  constructor
  · unfold RingClean
    rw [shipTick_ring, shipTick_shipped, hproduced]
    exact Slots.Clean.pop hc
  · have hpop : Slots.entries [r.ring (slot r.shipped)] ++ queued (shipTick gate r).1 = queued r := by
      rw [queued, shipTick_ring, shipTick_shipped]
      unfold queued slot
      exact (Slots.lap_pop ringSize_pos).symm
    rw [← hsum, ← hpop, hbytes, emitted_append, emitted_append, emitted_power hpower,
      List.nil_append, emitted_shippedByte, List.append_assoc, List.map_append]

theorem shipLoop_conserved {accepted : List StepByte} (p : Pass) (streaming : Bool) (s : State)
    (h : s.ringView.Conserved accepted) : (shipLoop p streaming s).ringView.Conserved accepted := by
  simp only [shipLoop]
  split
  · obtain ⟨hclean, hsum⟩ := buildTicks_conserved p.gate p.due streaming shipChunk s.gf h.clean
    refine ⟨hclean, ?_⟩
    rw [← h.sum]
    change emitted (s.dump ++ _) ++ _ = _
    rw [emitted_append, List.append_assoc]
    exact congrArg (emitted s.dump ++ ·) hsum
  · exact h

/-- A dark pad is no step. -/
theorem darkPad_ringView (ok : Bool) (s : State) : (darkPad ok s).ringView = s.ringView := by
  simp only [State.ringView, darkPad, emitted_append, emitted_dark, List.append_nil]

theorem endStream_conserved {accepted : List StepByte} (e : Env) (s : State)
    (hover : s.gf.produced ≤ s.gf.shipped) (h : s.ringView.Conserved accepted) :
    (endStream e s).ringView.Conserved accepted := by
  unfold endStream
  split
  · unfold endPad
    split
    · -- the pad takes an index of its own, and the ring is empty
      have hempty : ∀ i, s.gf.ring (i % ringSize) = 0 := by
        refine h.empty ?_
        rw [show s.ringView.produced - s.ringView.shipped = 0 from Nat.sub_eq_zero_of_le hover,
          Nat.zero_min]
        rfl
      rw [← darkPad_ringView e.ok s] at h
      exact h.restart hempty
    · exact h
  · exact h

theorem shipBody_conserved {accepted : List StepByte} (e : Env) (gate : Bool) (s : State)
    (h : s.ringView.Conserved accepted) : (shipBody e gate s).ringView.Conserved accepted := by
  have hedge : State.ringView { s with gf := gateEdge gate s.gf } = s.ringView := by
    simp only [gateEdge]
    split_ifs <;> rfl
  have hhold : ∀ s, (pollHold e s).ringView = s.ringView := by
    intro s
    simp only [pollHold]
    split_ifs <;> rfl
  rw [← hedge] at h
  simp only [shipBody, shipGated]
  split
  · next hover =>
    simp only [Bool.and_eq_true, beq_iff_eq] at hover
    change (pollHold e (endStream e _)).ringView.Conserved accepted
    rw [hhold]
    exact endStream_conserved e _ (Nat.sub_eq_zero_iff_le.mp hover.2) h
  · split
    · exact h
    · exact shipLoop_conserved _ _ _ h

theorem pendingDone_ringView (cleared : Bool) (counts : Option Steps) (zeros : Nat) (s : State) :
    (pendingDone cleared counts zeros s).ringView = s.ringView :=
  (pendingDone_settled cleared counts zeros s).frame
    (fun g => (⟨g.ring, g.shipped, g.produced, emitted s.dump⟩ : RingView)) rfl

/-- **A step of the shipper** moves steps from the ring to the sink, in order, or leaves both. -/
theorem shipStep_conserved {accepted : List StepByte} (e : Env) (s : State)
    (h : s.ringView.Conserved accepted) : (shipStep e s).ringView.Conserved accepted := by
  unfold shipStep
  split
  case h_1 =>
    simp only [pendingSnapshot, resetPad]
    split
    · change (darkPad e.ok _).ringView.Conserved accepted
      rw [darkPad_ringView]
      exact h
    · exact h
  case h_3 => simp only [pendingSeek]; split_ifs <;> exact h
  case h_5 => rwa [pendingDone_ringView]
  case h_6 => simp only [pendingOurs]; split_ifs <;> exact h
  case h_7 =>
    simp only [shipLock, faultPad]
    split_ifs
    · change (darkPad e.ok s).ringView.Conserved accepted
      rw [darkPad_ringView]
      exact h
    · exact h
    · exact h
  case h_8 => exact shipBody_conserved _ _ _ h
  case h_9 => simp only [shipWrite]; split <;> (try split_ifs) <;> exact h
  case h_10 =>
    simp only [shipWrote, shipNext]
    split_ifs
    · exact h
    · exact shipLoop_conserved _ _ _ h
    · exact h
  case h_15 => simp only [issueRelight]; split_ifs <;> exact h
  case h_20 => simp only [issueEnd]; split_ifs <;> exact h
  case h_23 => simp only [shipRc]; split_ifs <;> exact h
  all_goals exact h

/-! ## The producer -/

/-- A step that is placed joins the queue at its end, or overflows the ring and faults. -/
theorem pulsePlace_conserved {accepted : List StepByte} {b : StepByte} {idx : Nat} {s : State}
    (hidx : s.gf.shipped ≤ idx) (hb : b ≠ 0) (h : s.ringView.Conserved accepted) :
    (pulsePlace b idx s).gf.failed = true ∨
      (pulsePlace b idx s).ringView.Conserved (accepted ++ [b]) := by
  simp only [pulsePlace]
  -- the index that the step takes, behind everything produced
  generalize hi : (if idx < s.gf.produced then s.gf.produced else idx) = i
  have hship : s.gf.shipped ≤ i := by split at hi <;> omega
  have hprod : s.gf.produced ≤ i := by split at hi <;> omega
  split
  · exact .inl rfl
  · next hroom =>
    right
    have hlap : i < s.gf.shipped + ringSize := by omega
    exact h.put hship hprod hlap hb

theorem pulseLocked_conserved {accepted : List StepByte} {b : StepByte} {s : State} (hb : b ≠ 0)
    (hstream : s.gf.streaming = true) (h : s.ringView.Conserved accepted) :
    (pulseLocked b s).gf.failed = true ∨
      (pulseLocked b s).ringView.Conserved (accepted ++ [b]) := by
  simp only [pulseLocked, hstream, if_true, pulseAt]
  split
  · split
    · next harmed =>
      -- a late step inside an armed window is dropped, and faults the stream
      left
      change (_ || s.laserArmed) = true
      rw [show s.laserArmed = true from harmed, Bool.or_true]
    · exact pulsePlace_conserved (Nat.le_refl s.gf.shipped) hb h
  · next hlate => exact pulsePlace_conserved (Nat.le_of_not_lt hlate) hb h

theorem laserEventLocked_ringView (power : UInt8) (fire : Bool) (s : State) :
    (laserEventLocked power fire s).ringView = s.ringView := by
  have hrec : ∀ idx (g : Gf), (levRecord idx power fire g).ring = g.ring ∧
      (levRecord idx power fire g).shipped = g.shipped ∧
      (levRecord idx power fire g).produced = g.produced := by
    intro idx g
    simp only [levRecord]
    split
    · split_ifs <;> exact ⟨rfl, rfl, rfl⟩
    · exact ⟨rfl, rfl, rfl⟩
  simp only [laserEventLocked]
  split_ifs
  · rfl
  · simp only [State.ringView, hrec]
    rfl
  · simp only [State.ringView, hrec]
  · rfl

/-! ## Wakeups

A wakeup moves the cursors over an empty window. Where the window holds steps it leaves them behind. -/

/-- The steps left in the slots `[shipped, produced)`. -/
def stepsLeft (g : Gf) : List StepByte := Slots.entries (backlog g)

theorem stepsLeft_eq_queued {g : Gf} (h : RingClean g) : stepsLeft g = queued g :=
  (Slots.lap_eq_window h).symm

/-- A wakeup that begins a stream over no run of the kernel restarts the index space. -/
def restarts (g : Gf) : Bool := !g.streaming && !g.kernelRunning

/-- The re-asserted laser state is no step: the ring is where the index space begins. -/
theorem wakeupStream_ringView (now : Nat) (s : State) :
    (wakeupStream now s).ringView =
      ⟨(wakeupIndex now (wakeupClock now s.gf)).ring,
        (wakeupIndex now (wakeupClock now s.gf)).shipped,
        (wakeupIndex now (wakeupClock now s.gf)).produced, emitted s.dump⟩ := by
  have hassert : ∀ w (g : Gf), (wakeupAssert w g).ring = g.ring ∧
      (wakeupAssert w g).shipped = g.shipped ∧ (wakeupAssert w g).produced = g.produced := by
    intro w g
    simp only [wakeupAssert]
    split_ifs <;> exact ⟨rfl, rfl, rfl⟩
  simp only [State.ringView, wakeupStream, hassert]

/-- **A wakeup** keeps every step, unless it restarts the index space over steps left. A
continuation moves the cursor over slots that are empty, and so does a restart over a window that
has shipped. -/
theorem wakeup_conserved {accepted : List StepByte} {now : Nat} {s : State}
    (hleft : restarts s.gf = true → stepsLeft s.gf = []) (h : s.ringView.Conserved accepted) :
    (wakeupLocked now s).ringView.Conserved accepted := by
  simp only [wakeupLocked]
  split
  · exact h
  · next hnot =>
    rw [wakeupStream_ringView]
    simp only [wakeupIndex]
    split
    · -- a continuation: the window grows over slots that are empty
      simp only [wakeupContinue]
      split
      · next hgap => exact h.grow (Nat.le_of_lt hgap)
      · exact h
    · next hrun =>
      -- a fresh stream: nothing is queued, wherever the ring is read from
      refine h.restart (h.empty (hleft ?_))
      rw [Bool.not_eq_true] at hnot hrun
      rw [restarts, hnot, show s.gf.kernelRunning = false from hrun]
      rfl

/-! ## Runs

The equation over every run in which no wakeup restarts over steps, and the run that does. -/

/-- The history: the steps of the calls of `gf_stream_pulse` made while the stream was live. -/
def acceptPulse (s : State) (l : Label) (accepted : List StepByte) : List StepByte :=
  match l with
  | .locked (.pulse stepBits dirBits) _ =>
    if s.gf.streaming then accepted ++ [pulseByte stepBits dirBits] else accepted
  | _ => accepted

/-- A run of cycles: no reset and no handover. -/
def cycles : Label → Bool
  | .reset _ | .suspend _ | .resume _ _ _ => false
  | _ => true

/-- No wakeup restarts the index space over steps that have not shipped. -/
def restartsEmpty (s : State) : Label → Bool
  | .locked .wakeup _ => !restarts s.gf || stepsLeft s.gf == []
  | _ => true

/-- What the runs keep beside the ring: a pulse that waits for the lock has a step in it, and
no takeover is under way. -/
structure StepsInv (s : State) (accepted : List StepByte) : Prop where
  pulses : ∀ sb db, Call.pulse sb db ∈ s.entered → pulseByte sb db ≠ 0
  swap : .resumeSwap ∉ s.proto
  ring : s.gf.failed = true ∨ s.ringView.Conserved accepted

theorem turn_pulses {s t : State} {l : Label} (hturn : turn s l = some t)
    (h : ∀ sb db, Call.pulse sb db ∈ s.entered → pulseByte sb db ≠ 0) :
    ∀ sb db, Call.pulse sb db ∈ t.entered → pulseByte sb db ≠ 0 := by
  intro sb db hmem
  by_cases hship : ∃ e, l = .ship e
  · obtain ⟨e, rfl⟩ := hship
    cases hturn
    rw [shipStep_entered] at hmem
    exact h sb db hmem
  · rw [(turn_turned hturn fun e he => hship ⟨e, he⟩).entered] at hmem
    cases l with
    | enter c =>
      simp only [Label.enteredAfter] at hmem
      split at hmem
      · next henters =>
        rcases List.mem_cons.mp hmem with rfl | hmem
        · -- the lock-free test has dropped a pulse without a step
          simp only [Call.enters, Bool.and_eq_true, bne_iff_ne, ne_eq] at henters
          exact fun hz => henters.2 (stepByte_eq_zero.mp hz)
        · exact h sb db hmem
      · exact h sb db hmem
    | locked c now => exact h sb db (List.mem_of_mem_erase hmem)
    | _ => exact h sb db hmem

theorem goIdle_ringView (reset : Bool) (stepBits dirBits : UInt8) (s : State) :
    (gfStreamGoIdle reset stepBits dirBits s).ringView = s.ringView := by
  obtain ⟨killed, killStep, lev, streaming, hgo⟩ := goIdle_frame reset stepBits dirBits s
  rw [hgo]
  rfl

/-- **One step of a run** of cycles accepts a step, ships some, or leaves them where they are. -/
theorem turn_ring {s t : State} {l : Label} {accepted : List StepByte} (hinv : StepsInv s accepted)
    (hrun : cycles l = true) (hfresh : restartsEmpty s l = true) (hen : l.enabled s = true)
    (hturn : turn s l = some t) (h : s.ringView.Conserved accepted) :
    t.gf.failed = true ∨ t.ringView.Conserved (acceptPulse s l accepted) := by
  cases l with
  | locked c now =>
    cases hturn
    cases c with
    | wakeup =>
      right
      refine wakeup_conserved (fun hres => ?_) h
      simpa [restartsEmpty, show restarts s.gf = true from hres] using hfresh
    | pulse sb db =>
      simp only [acceptPulse]
      split
      · next hstream =>
        have hmem : Call.pulse sb db ∈ s.entered := by
          simp only [Label.enabled, Bool.and_eq_true] at hen
          exact List.contains_iff_mem.mp hen.2
        exact pulseLocked_conserved (hinv.pulses sb db hmem) hstream h
      · next hstream =>
        right
        rw [Call.locked, pulseLocked, if_neg hstream]
        exact h
    | laser power fire =>
      right
      change (laserEventLocked _ _ _).ringView.Conserved accepted
      rw [laserEventLocked_ringView]
      exact h
    | jog on =>
      right
      change (laserEventLocked _ _ _).ringView.Conserved accepted
      rw [laserEventLocked_ringView]
      exact h
  | goIdle reset stepBits dirBits =>
    cases hturn
    right
    rw [goIdle_ringView]
    exact h
  | ship e =>
    cases hturn
    exact .inr (shipStep_conserved e s h)
  | proto =>
    simp only [turn, protoStep] at hturn
    split at hturn <;> cases hturn
    case h_6.refl => exact .inl rfl
    case h_8.refl rest hp => exact absurd (hp ▸ List.mem_cons_self) hinv.swap
    all_goals exact .inr h
  | kernel a =>
    obtain ⟨k, -, rfl⟩ := Option.map_eq_some_iff.mp hturn
    exact .inr h
  | enter c =>
    cases hturn
    right
    simp only [enter]
    split <;> exact h
  | laserModel p m =>
    cases hturn
    right
    simp only [gfStreamLaserModel, ditherReset]
    split_ifs <;> exact h
  | readback expired =>
    cases hturn
    right
    simp only [gfStreamReadback]
    split <;> exact h
  | clearPosition ok =>
    cases hturn
    right
    simp only [gfStreamClearPosition, rebaseLocked]
    split_ifs <;> exact h
  | reset now => cases hrun
  | suspend readOk => cases hrun
  | resume latchOk emptied counted => cases hrun
  | _ =>
    cases hturn
    exact .inr h

theorem step_steps {s t : State} {l : Label} {accepted : List StepByte} (h : StepsInv s accepted)
    (hrun : cycles l = true) (hfresh : restartsEmpty s l = true) (hstep : step s l = some t) :
    StepsInv t (acceptPulse s l accepted) := by
  obtain ⟨hen, hturn⟩ := step_eq_some.mp hstep
  refine ⟨turn_pulses hturn h.pulses, ?_, ?_⟩
  · refine turn_swap hturn ?_ h.swap
    rintro a b c rfl
    cases hrun
  · rcases h.ring with hfailed | hring
    · left
      refine turn_failed hturn ?_ (fun _ hhead => h.swap (List.mem_of_mem_head? hhead)) hfailed
      rintro now rfl
      cases hrun
    · exact turn_ring h hrun hfresh hen hturn hring

theorem init_steps (c : Config) (k : Kernel) (emptied counted : Bool) :
    StepsInv (State.init c k emptied counted) [] := by
  have hview : (State.init c k emptied counted).ringView = ⟨fun _ => 0, 0, 0, []⟩ := by
    simp only [State.init, State.ringView, rebaseAtTakeover]
    split_ifs <;> rfl
  have hlap : Slots.lap ringSize (fun _ => (0 : StepByte)) 0 = [] :=
    (Slots.lap_eq_nil ringSize_pos).mpr fun _ => rfl
  refine ⟨fun _ _ h => absurd h List.not_mem_nil, List.not_mem_nil, .inr ?_⟩
  rw [hview]
  refine ⟨fun _ _ _ _ => rfl, ?_⟩
  simp only [hlap, List.map_nil, List.append_nil]

/-- The slots `[shipped, produced)` of the ring. -/
def InWindow (g : Gf) (j : Nat) : Prop := ∃ i, g.shipped ≤ i ∧ i < g.produced ∧ slot i = j

/-- What the sink was given and the ring still holds are the accepted steps, each once and in
order, and no slot outside the window holds one. -/
def StepsConserved (s : State) (accepted : List StepByte) : Prop :=
  emitted s.dump ++ (stepsLeft s.gf).map StepByte.val = accepted.map StepByte.val ∧
  ∀ j, j < ringSize → ¬InWindow s.gf j → s.gf.ring j = 0

/-- **Step conservation.** In every run of cycles that has not faulted, and in which no wakeup
restarts the index space over steps left in the ring, the steps are conserved: those given to the
sink, and then those in the ring, are the ones accepted, in their order. -/
theorem steps_conserved {c : Config} {k : Kernel} {emptied counted : Bool} {t : State}
    {accepted : List StepByte}
    (hrun : Runs.Reach (Runs.observe step acceptPulse)
      (fun x l => cycles l = true ∧ restartsEmpty x.1 l = true)
      (State.init c k emptied counted, []) (t, accepted))
    (hfailed : t.gf.failed = false) : StepsConserved t accepted := by
  have hinv : StepsInv t accepted :=
    Runs.Reach.invariant_observe (fun s l => cycles l = true ∧ restartsEmpty s l = true) hrun
      (init_steps c k emptied counted)
      (fun s acc l u hs hok hstep => step_steps hs hok.1 hok.2 hstep)
  rcases hinv.ring with h | h
  · rw [hfailed] at h
    cases h
  · refine ⟨?_, ?_⟩
    · rw [stepsLeft_eq_queued h.clean]
      exact h.sum
    · intro j hj hout
      exact Slots.Clean.outside h.clean hj hout

/-- The theorem at a run that ships the step: a pass one tick after the preload. -/
theorem steps_conserved_shipped :
    ∃ t accepted, accepted = [pulseByte 0x01 0x00] ∧ emitted t.dump = [0x01] ∧
      StepsConserved t accepted := by
  have hrun : ∃ x : State × List StepByte,
      Runs.Reach (Runs.observe step acceptPulse)
        (fun x l => cycles l = true ∧ restartsEmpty x.1 l = true)
        (State.init (slowConfig false) idleKernel true true, []) x ∧
      (x.1.gf.failed = false ∧ x.2 = [pulseByte 0x01 0x00] ∧ emitted x.1.dump = [0x01]) :=
    Runs.exists_reach_of_exec
      (oneStep ++ [Label.ship {}, .ship {}, .ship { now := 0, later := 1000000 }])
      (by decide +kernel)
  obtain ⟨⟨t, accepted⟩, hreach, hfailed, hacc, hout⟩ := hrun
  exact ⟨t, accepted, hacc, hout, steps_conserved hreach hfailed⟩

/-- **A wakeup can strand a step.** The first cycle ends before the shipper's first pass, and
the second one restarts the index space: the step is neither shipped nor in the window, and
its slot holds it for a later stream. -/
theorem fresh_wakeup_strands_step :
    ∃ t accepted, Runs.Reach (Runs.observe step acceptPulse) (fun _ l => cycles l = true)
        (State.init (slowConfig true) idleKernel true true, []) (t, accepted) ∧
      t.gf.failed = false ∧ ¬StepsConserved t accepted := by
  have hrun : ∃ x : State × List StepByte,
      Runs.Reach (Runs.observe step acceptPulse) (fun _ l => cycles l = true)
        (State.init (slowConfig true) idleKernel true true, []) x ∧
      (x.1.gf.failed = false ∧ x.2 = [pulseByte 0x01 0x00] ∧ emitted x.1.dump = [] ∧
        stepsLeft x.1.gf = []) :=
    Runs.exists_reach_of_exec
      (oneStep ++ [Label.goIdle false 0 0, .enter .wakeup, .locked .wakeup 0])
      (by decide +kernel)
  obtain ⟨⟨t, accepted⟩, hreach, hfailed, rfl, hout, hleft⟩ := hrun
  refine ⟨t, [pulseByte 0x01 0x00], hreach, hfailed, fun hcons => ?_⟩
  have hsum := hcons.1
  rw [hout, hleft] at hsum
  exact absurd hsum (by decide)

end Glowforge.Stream
