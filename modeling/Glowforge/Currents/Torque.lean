import Glowforge.Currents.Machine
import Glowforge.Stream.Clearing

/-!
# Glowforge — the run currents under a live stream

A drop to hold is decided under `gf.lock` for a stream that has played out, and written after it; a
wakeup writes the run currents ahead of its own section of the lock. Each is right by itself.

* **`dropsHold_played`**, **`suspendDrops_played`** — a drop is decided for a stream that is over.
* **`Torqued`** — a live stream has the run currents, and no drop is under way.
* **`Rising`** — a wakeup under way has left no attribute behind it to a drop.
* **`ordered`** — no drop is decided between the first write of a wakeup and its lock, and a wakeup
  writes no attribute that a drop has still to write.
* **`motion_has_run_current`** — runs so ordered keep the run currents while a stream plays.
-/

namespace Glowforge.Currents

open Glowforge.Stream (State Env Call Config Kernel)

/-! ## A stream that is over

A drop is decided only for a stream that has played out and that nothing has woken since. -/

/-- The stream has ended, its bytes are the kernel's, and the kernel does not play. -/
def played (s : State) : Bool :=
  !s.gf.streaming && s.gf.produced ≤ s.gf.shipped && !s.gf.kernelRunning && s.kernel.state != .running

/-- A stream is live from the lock of its wakeup until it has played out, or the stream starts over. -/
def goesLive (m : Machine) (l : Label) (live : Bool) : Bool :=
  match l with
  | .stream (.locked .wakeup _) => true
  | .stream (.resume _ _ _) | .restart _ _ _ _ => false
  | _ => live && !played m.stream

theorem endStream_over (e : Env) (s : State) (hidle : s.gf.streaming = false)
    (hshipped : s.gf.produced ≤ s.gf.shipped) :
    (Stream.endStream e s).gf.streaming = false ∧
      (Stream.endStream e s).gf.produced ≤ (Stream.endStream e s).gf.shipped ∧
      (Stream.endStream e s).gf.kernelRunning = false := by
  unfold Stream.endStream
  split
  · simp only [Stream.endRun, Stream.ditherReset, Stream.endPad]
    split
    · exact ⟨hidle, le_refl _, trivial⟩
    · exact ⟨hidle, hshipped, trivial⟩
  · next hrunning => exact ⟨hidle, hshipped, Bool.not_eq_true _ ▸ hrunning⟩

theorem pollHold_over (e : Env) (s : State) :
    (Stream.pollHold e s).kernel = s.kernel ∧ (Stream.pollHold e s).gf.streaming = s.gf.streaming ∧
      (Stream.pollHold e s).gf.produced = s.gf.produced ∧
      (Stream.pollHold e s).gf.shipped = s.gf.shipped ∧
      (Stream.pollHold e s).gf.kernelRunning = s.gf.kernelRunning := by
  unfold Stream.pollHold
  split_ifs <;> exact ⟨rfl, rfl, rfl, rfl, rfl⟩

/-- **The shipper drops to hold behind a stream that is over.** -/
theorem dropsHold_played {e : Env} {s : State} (h : dropsHold e s = true) :
    played (Stream.shipStep e s) = true := by
  cases hpc : s.pc with
  | sampled gate =>
    simp only [dropsHold, hpc, Bool.and_eq_true, Bool.not_eq_true', beq_iff_eq, decide_eq_true_eq]
      at h
    obtain ⟨⟨⟨⟨⟨hidle, hbacklog⟩, -⟩, -⟩, -⟩, hread⟩ := h
    rw [← hpc] at hread
    have hgated : (!(Stream.gateEdge gate s.gf).streaming &&
        (Stream.gateEdge gate s.gf).produced - (Stream.gateEdge gate s.gf).shipped == 0) = true := by
      simp [hidle, hbacklog]
    have hstep : Stream.shipStep e s = { Stream.pollHold e (Stream.endStream e
        { s with gf := Stream.gateEdge gate s.gf }) with pc := .check } := by
      simp only [Stream.shipStep, hpc, Stream.shipBody, Stream.shipGated, if_pos hgated]
    have hover := endStream_over e { s with gf := Stream.gateEdge gate s.gf } hidle
      (Nat.sub_eq_zero_iff_le.mp hbacklog)
    have hkernel := Stream.readState_eq hread
    revert hover hkernel hstep
    generalize Stream.endStream e { s with gf := Stream.gateEdge gate s.gf } = t
    rintro hstep ⟨hstreaming, hshipped, hrunning⟩ hkernel
    obtain ⟨hk, hs, hp, hsh, hr⟩ := pollHold_over e t
    rw [hstep]
    simp [played, hk, hs, hp, hsh, hr, hstreaming, hshipped, hrunning, hkernel]
  | _ => simp [dropsHold, hpc] at h

/-- **A handover drops to hold behind a stream that is over.** -/
theorem suspendDrops_played {readOk : Bool} {s : State} (h : suspendDrops readOk s = true) :
    played (Stream.gfStreamSuspend readOk s) = true := by
  simp only [suspendDrops, Bool.and_eq_true, beq_iff_eq] at h
  obtain ⟨⟨⟨⟨hactive, hdrained⟩, hread⟩, hkernel⟩, -⟩ := h
  have hover := hdrained
  simp only [Stream.drained, Bool.and_eq_true, Bool.not_eq_true', beq_iff_eq] at hover
  obtain ⟨⟨⟨hidle, hrunning⟩, -⟩, hshipped⟩ := hover
  simp only [Stream.gfStreamSuspend, hactive, hdrained, hread, hkernel]
  split_ifs <;> simp_all [played]

/-! ## The writes of one posture

A thread that is on its way through the run posture owes run currents and nothing else. -/

/-- What is left is the run posture's, with the flag read as clear. -/
def OnlyRun (ops : List Op) : Prop :=
  ∀ op ∈ ops, op = .choose .run op.attr ∨ op = .write op.attr (Posture.run.current op.attr)

theorem onlyRun_run : OnlyRun Posture.run.ops := by
  simp [OnlyRun, Posture.ops, Op.attr]

theorem onlyRun_nil : OnlyRun [] := (by rintro _ ⟨⟩)

theorem owes_ops (p : Posture) (a : Attr) : owes p.ops a = true := by
  cases a <;> rfl

theorem owes_cons (op : Op) (ops : List Op) (a : Attr) :
    owes (op :: ops) a = (op.attr == a || owes ops a) := rfl

/-- Nothing is owed to any attribute. -/
theorem eq_nil_of_owes {ops : List Op} (h : ∀ a, owes ops a = false) : ops = [] := by
  cases ops with
  | nil => rfl
  | cons op rest =>
    have hop := h op.attr
    simp [owes_cons] at hop

/-- One step of the run posture: it goes on, an attribute that it leaves behind is at the run current,
and the others are as they were. -/
theorem OnlyRun.next {ops : List Op} (h : OnlyRun ops) (values : Attr → Nat) :
    OnlyRun (nextOps false values ops).2 ∧ ∀ a,
      (owes (nextOps false values ops).2 a = owes ops a ∧ (nextOps false values ops).1 a = values a) ∨
      (nextOps false values ops).1 a = Posture.run.current a ∧ ∃ v rest, ops = .write a v :: rest := by
  cases ops with
  | nil => exact ⟨h, fun a => .inl ⟨rfl, rfl⟩⟩
  | cons op rest =>
    cases op with
    | choose p b =>
      obtain hop | hop := h _ List.mem_cons_self
      · cases hop
        refine ⟨?_, fun a => .inl ⟨rfl, rfl⟩⟩
        intro op hmem
        rcases List.mem_cons.mp hmem with rfl | hrest
        · exact .inr rfl
        · exact h op (List.mem_cons_of_mem _ hrest)
      · cases hop
    | write b v =>
      obtain hop | hop := h _ List.mem_cons_self
      · cases hop
      · refine ⟨fun op hmem => h op (List.mem_cons_of_mem _ hmem), fun a => ?_⟩
        by_cases hab : b = a
        · subst hab
          exact .inr ⟨by simpa [nextOps, Op.attr] using hop, v, rest, rfl⟩
        · exact .inl ⟨by simp [nextOps, owes_cons, Op.attr, hab],
            by simp [nextOps, Function.update_of_ne (Ne.symm hab)]⟩

/-- One step of any posture touches the attribute that it owes. -/
theorem nextOps_other {ops : List Op} {a : Attr} (released : Bool) (values : Attr → Nat)
    (h : owes ops a = false) :
    owes (nextOps released values ops).2 a = false ∧ (nextOps released values ops).1 a = values a := by
  cases ops with
  | nil => exact ⟨h, rfl⟩
  | cons op rest =>
    cases op with
    | choose p b => exact ⟨h, rfl⟩
    | write b v =>
      simp only [owes_cons, Op.attr, Bool.or_eq_false_iff, beq_eq_false_iff_ne] at h
      exact ⟨h.2, Function.update_of_ne (Ne.symm h.1) _ _⟩

/-! ## The order of the writes

The two threads are right one at a time; the condition keeps a drop's decision from falling between
a wakeup's first write and its lock. -/

/-- `gf_stream_wakeup` has begun its writes and not yet taken its lock. -/
def Machine.waking (m : Machine) : Bool := m.stream.entered.contains .wakeup

/-- A wakeup writes an attribute with no drop that has still to write it, a drop is decided ahead of the
first write of a wakeup or behind its lock, and the motors are not released. -/
def ordered (m : Machine) : Label → Bool
  | .core _ =>
    match m.core.ops with
    | .write a _ :: _ => !(m.waking && owes m.drop a)
    | _ => true
  | .stream (.ship e) =>
    !(m.waking && dropsHold e m.stream) || [Attr.x, .y, .z].all (owes m.core.ops)
  | .release _ _ _ => false
  | _ => true

/-- The run currents are in the attributes, and nothing is under way to change them. -/
structure Torqued (m : Machine) : Prop where
  core : OnlyRun m.core.ops
  drop : m.drop = []
  values : ∀ a, m.values a = Posture.run.current a

/-- Each attribute is still to be written by the wakeup, or at its run current with no drop behind it. -/
structure Rising (m : Machine) : Prop where
  core : OnlyRun m.core.ops
  attr : ∀ a, owes m.core.ops a = true ∨
    m.values a = Posture.run.current a ∧ owes m.drop a = false

/-- A wakeup that has written them all leaves the run currents. -/
theorem Rising.torqued {m : Machine} (h : Rising m) (hfree : m.core = .free) : Torqued m := by
  have hattr : ∀ a, m.values a = Posture.run.current a ∧ owes m.drop a = false := by
    intro a
    refine (h.attr a).resolve_left ?_
    simp [hfree, CorePc.ops, owes]
  exact ⟨h.core, eq_nil_of_owes fun a => (hattr a).2, fun a => (hattr a).1⟩

structure TorqueInv (m : Machine) (live : Bool) : Prop where
  flag : m.xyReleased = false
  released : m.released = false
  marker : m.marker = false
  pc : m.core = .free ∨ ∃ ops, m.core = .posture ops false
  playing : m.stream.gf.active = true → live = true → played m.stream = false → Torqued m
  waking : m.stream.gf.active = true → m.waking = true → Rising m

/-! ## The steps

The invariant under each label. The wakeup is where it is earned: its writes are done when the
stream comes alive. -/

theorem Machine.resting_free {m : Machine} (h : m.resting = true) : m.core = .free := by
  simp only [Machine.resting, Bool.and_eq_true, beq_iff_eq] at h
  exact h.1.1

theorem Machine.resting_asleep {m : Machine} (h : m.resting = true) : m.waking = false := by
  simp only [Machine.resting, Bool.and_eq_true, Bool.not_eq_true'] at h
  exact h.1.2

/-- A turn of the stream sees the wakeup under way, unless it begins it. -/
theorem wakes_of_turn {s t : State} {l : Stream.Label} (hstep : Stream.step s l = some t)
    (hwake : t.entered.contains .wakeup = true) :
    s.entered.contains .wakeup = true ∨ l = .enter .wakeup ∧ Call.wakeup.enters s = true := by
  have hturn := (Stream.step_eq_some.mp hstep).2
  by_cases hship : ∃ e, l = .ship e
  · obtain ⟨e, rfl⟩ := hship
    cases hturn
    rw [Stream.shipStep_entered] at hwake
    exact .inl hwake
  · have hentered := (Stream.turn_turned hturn fun e he => hship ⟨e, he⟩).entered
    rw [hentered] at hwake
    cases l with
    | enter c =>
      simp only [Stream.Label.enteredAfter] at hwake
      split at hwake
      · next henters =>
        rw [List.contains_cons, Bool.or_eq_true, beq_iff_eq] at hwake
        rcases hwake with rfl | hwake
        · exact .inr ⟨rfl, henters⟩
        · exact .inl hwake
      · exact .inl hwake
    | locked c now =>
      simp only [Stream.Label.enteredAfter, List.contains_iff_mem] at hwake
      exact .inl (List.contains_iff_mem.mpr (List.mem_of_mem_erase hwake))
    | _ => exact .inl hwake

/-- The section of a wakeup comes behind its writes. -/
theorem locked_wakes {m : Machine} {s : State} {now : Nat}
    (hallows : m.allows (.locked .wakeup now) = true)
    (hstep : Stream.step m.stream (.locked .wakeup now) = some s) : m.core = .free ∧ m.waking = true := by
  have hen := (Stream.step_eq_some.mp hstep).1
  simp only [Stream.Label.enabled, Bool.and_eq_true] at hen
  exact ⟨beq_iff_eq.mp hallows, hen.2⟩

/-- A posture that the core's thread begins finds it at rest. -/
theorem coreBegins_cases (m : Machine) {l : Stream.Label} (hallows : m.allows l = true) :
    coreBegins m.stream m.core l = m.core ∨ m.resting = true ∧
      ((l = .enter .wakeup ∧ coreBegins m.stream m.core l = .posture Posture.run.ops false) ∨
       (coreBegins m.stream m.core l = .posture Posture.hold.ops false ∧
        ((∃ readOk, l = .suspend readOk ∧ suspendDrops readOk m.stream = true) ∨
          ∃ latchOk emptied counted, l = .resume latchOk emptied counted))) := by
  cases l with
  | enter c =>
    cases c with
    | wakeup =>
      simp only [coreBegins]
      split
      · exact .inr ⟨hallows, .inl ⟨trivial, rfl⟩⟩
      · exact .inl rfl
    | _ => exact .inl rfl
  | suspend readOk =>
    simp only [coreBegins]
    split
    · next hdrops => exact .inr ⟨hallows, .inr ⟨rfl, .inl ⟨readOk, rfl, hdrops⟩⟩⟩
    · exact .inl rfl
  | resume latchOk emptied counted =>
    simp only [coreBegins]
    split
    · exact .inr ⟨hallows, .inr ⟨rfl, .inr ⟨latchOk, emptied, counted, rfl⟩⟩⟩
    · exact .inl rfl
  | _ => exact .inl rfl

theorem dropBegins_cases (s : State) (ops : List Op) (l : Stream.Label) :
    dropBegins s ops l = ops ∨
      dropBegins s ops l = Posture.hold.ops ∧ ∃ e, l = .ship e ∧ dropsHold e s = true := by
  cases l with
  | ship e =>
    simp only [dropBegins]
    split
    · next hdrops => exact .inr ⟨rfl, e, rfl, hdrops⟩
    · exact .inl rfl
  | _ => exact .inl rfl

/-- **A turn of the stream.** A wakeup comes alive behind its three writes, and a pass that decides
a drop decides it for a stream that is over; every other turn leaves the writes alone. -/
theorem TorqueInv.stream {m : Machine} {live : Bool} {l : Stream.Label} {s : State}
    (h : TorqueInv m live) (hallows : m.allows l = true) (hstep : Stream.step m.stream l = some s)
    (hordered : ordered m (.stream l) = true) :
    TorqueInv { m with
        stream := s, core := coreBegins m.stream m.core l, drop := dropBegins m.stream m.drop l }
      (goesLive m (.stream l) live) := by
  have hturn := (Stream.step_eq_some.mp hstep).2
  have hactive : s.gf.active = m.stream.gf.active := Stream.turn_active hturn
  have hcore := coreBegins_cases m hallows
  have hdrop := dropBegins_cases m.stream m.drop l
  refine ⟨h.flag, h.released, h.marker, ?_, fun hact hlive hplays => ?_, fun hact hwakes => ?_⟩
  · obtain hsame | ⟨-, ⟨-, hrun⟩ | ⟨hhold, -⟩⟩ := hcore
    · exact h.pc.imp hsame.trans fun hops => hops.imp fun ops hops => hsame.trans hops
    · exact .inr ⟨_, hrun⟩
    · exact .inr ⟨_, hhold⟩
  · rw [hactive] at hact
    -- the stream was live before this turn, or its wakeup ends here
    have htorqued : Torqued m := by
      cases l with
      | locked c now =>
        cases c with
        | wakeup =>
          obtain ⟨hfree, hwaking⟩ := locked_wakes hallows hstep
          exact (h.waking hact hwaking).torqued hfree
        | _ =>
          simp only [goesLive, Bool.and_eq_true, Bool.not_eq_true'] at hlive
          exact h.playing hact hlive.1 hlive.2
      | resume latchOk emptied counted => cases hlive
      | _ =>
        simp only [goesLive, Bool.and_eq_true, Bool.not_eq_true'] at hlive
        exact h.playing hact hlive.1 hlive.2
    refine ⟨?_, ?_, htorqued.values⟩
    · obtain hsame | ⟨-, ⟨-, hrun⟩ | ⟨-, ⟨readOk, rfl, hdrops⟩ | ⟨latchOk, emptied, counted, rfl⟩⟩⟩ := hcore
      · show OnlyRun (coreBegins m.stream m.core l).ops
        rw [hsame]
        exact htorqued.core
      · exact hrun ▸ onlyRun_run
      · cases hturn
        exact absurd (suspendDrops_played hdrops) (Bool.eq_false_iff.mp hplays)
      · cases hlive
    · obtain hsame | ⟨-, e, rfl, hdrops⟩ := hdrop
      · exact hsame.trans htorqued.drop
      · cases hturn
        exact absurd (dropsHold_played hdrops) (Bool.eq_false_iff.mp hplays)
  · rw [hactive] at hact
    obtain hwaking | ⟨rfl, henters⟩ := wakes_of_turn hstep hwakes
    · have hrising := h.waking hact hwaking
      have hkeeps : coreBegins m.stream m.core l = m.core := by
        refine hcore.resolve_right fun hrests => ?_
        exact absurd (hwaking.symm.trans (Machine.resting_asleep hrests.1)) (by decide)
      obtain hsame | ⟨-, e, rfl, hdrops⟩ := hdrop
      · rw [hkeeps, hsame]
        exact ⟨hrising.core, hrising.attr⟩
      · refine ⟨hkeeps ▸ hrising.core, fun a => .inl ?_⟩
        have hwaking : m.waking = true := hwaking
        simp only [ordered, hwaking, hdrops, Bool.and_self, Bool.not_true, Bool.false_or,
          List.all_cons, List.all_nil, Bool.and_true, Bool.and_eq_true] at hordered
        show owes (coreBegins m.stream m.core (.ship e)).ops a = true
        rw [hkeeps]
        cases a with
        | x => exact hordered.1
        | y => exact hordered.2.1
        | z => exact hordered.2.2
    · have hruns : coreBegins m.stream m.core (.enter .wakeup) = .posture Posture.run.ops false := by
        simp [coreBegins, henters, hact]
      rw [hruns]
      exact ⟨onlyRun_run, fun a => .inl (owes_ops .run a)⟩

/-- **A write of the core's thread.** Under a wakeup it is a write of a run current, and the
condition says that no drop has still to write the same attribute. -/
theorem TorqueInv.core {m n : Machine} {live : Bool} {ok : Bool} (h : TorqueInv m live)
    (hstep : coreStep ok m = some n) (hordered : ordered m (.core ok) = true) :
    TorqueInv n (goesLive m (.core ok) live) := by
  obtain hfree | ⟨ops, hops⟩ := h.pc
  · simp only [coreStep, hfree] at hstep
    cases hstep
  · cases ops with
    | nil =>
      simp only [coreStep, hops] at hstep
      cases hstep
      refine ⟨h.flag, h.released, h.marker, .inl rfl, fun hact hlive hplays => ?_, fun hact hwakes => ?_⟩
      · simp only [goesLive, Bool.and_eq_true] at hlive
        have htorqued := h.playing hact hlive.1 hplays
        exact ⟨onlyRun_nil, htorqued.drop, htorqued.values⟩
      · refine ⟨onlyRun_nil, fun a => .inr ?_⟩
        refine ((h.waking hact hwakes).attr a).resolve_left ?_
        simp [hops, CorePc.ops, owes]
    | cons op rest =>
      simp only [coreStep, hops] at hstep
      cases hstep
      rw [h.flag]
      refine ⟨rfl, h.released, h.marker, .inr ⟨_, rfl⟩, fun hact hlive hplays => ?_,
        fun hact hwakes => ?_⟩
      · simp only [goesLive, Bool.and_eq_true] at hlive
        have htorqued := h.playing hact hlive.1 hplays
        have hruns : OnlyRun (op :: rest) := by simpa [hops, CorePc.ops] using htorqued.core
        obtain ⟨hrest, hattr⟩ := hruns.next m.values
        exact ⟨hrest, htorqued.drop, fun a => (hattr a).elim
          (fun hkept => hkept.2.trans (htorqued.values a)) fun hrun => hrun.1⟩
      · have hwaking : m.waking = true := hwakes
        have hrising := h.waking hact hwaking
        have hruns : OnlyRun (op :: rest) := by simpa [hops, CorePc.ops] using hrising.core
        obtain ⟨hrest, hattr⟩ := hruns.next m.values
        refine ⟨hrest, fun a => ?_⟩
        obtain ⟨howes, hvalue⟩ | ⟨hvalue, v, later, hwrite⟩ := hattr a
        · show owes (nextOps false m.values (op :: rest)).2 a = true ∨ _
          rw [howes]
          refine (hrising.attr a).imp (fun howed => ?_) fun hdone => ⟨hvalue.trans hdone.1, hdone.2⟩
          simpa [hops, CorePc.ops] using howed
        · -- the wakeup writes this attribute, and no drop has still to write it
          refine .inr ⟨hvalue, ?_⟩
          simpa [ordered, hops, CorePc.ops, hwrite, hwaking] using hordered

/-- **A write of the shipper's drop.** There is a drop under way, so no stream is live, and a wakeup
under way has that attribute still ahead of it. -/
theorem TorqueInv.drop {m n : Machine} {live : Bool} (h : TorqueInv m live)
    (hstep : step m .drop = some n) : TorqueInv n (goesLive m .drop live) := by
  simp only [step] at hstep
  split at hstep
  · cases hstep
  · next hunder =>
    cases hstep
    rw [h.flag]
    refine ⟨rfl, h.released, h.marker, h.pc, fun hact hlive hplays => ?_, fun hact hwakes => ?_⟩
    · simp only [goesLive, Bool.and_eq_true] at hlive
      have htorqued := h.playing hact hlive.1 hplays
      exact absurd (List.isEmpty_iff.mpr htorqued.drop) hunder
    · have hrising := h.waking hact hwakes
      refine ⟨hrising.core, fun a => (hrising.attr a).imp_right fun hrests => ?_⟩
      obtain ⟨hvalue, howes⟩ := hrests
      obtain ⟨hleft, hother⟩ := nextOps_other false m.values howes
      exact ⟨hother.trans hvalue, hleft⟩

theorem torque_step {m n : Machine} {live : Bool} {l : Label} (h : TorqueInv m live)
    (hordered : ordered m l = true) (hstep : step m l = some n) : TorqueInv n (goesLive m l live) := by
  cases l with
  | stream l =>
    simp only [step] at hstep
    split at hstep
    · next hallows =>
      obtain ⟨s, hs, rfl⟩ := Option.map_eq_some_iff.mp hstep
      exact h.stream hallows hs hordered
    · cases hstep
  | core ok => exact h.core hstep hordered
  | drop => exact h.drop hstep
  | release atRest armed readOk => cases hordered
  | energize =>
    simp only [step, gfreleaseEnergize, h.released] at hstep
    split at hstep
    · cases hstep
      refine ⟨h.flag, h.released, h.marker, h.pc, fun hact hlive hplays => ?_, h.waking⟩
      simp only [goesLive, Bool.and_eq_true] at hlive
      exact h.playing hact hlive.1 hplays
    · cases hstep
  | restart c k emptied counted =>
    cases hstep
    refine ⟨h.marker, h.marker, h.marker, .inr ⟨_, rfl⟩, by rintro _ ⟨⟩, by rintro _ ⟨⟩⟩

/-! ## The runs

In every ordered run a live stream has the run currents. -/

/-- **Motion has run current.** In every run of the stream's threads with the writes of both postures
between their turns, the motors not released, whose wakeups and drops are ordered: from the lock of a
wakeup until its stream has played out, each attribute has the value of the run posture. -/
theorem motion_has_run_current (c : Config) (k : Kernel) (emptied counted : Bool) (values : Attr → Nat)
    {m : Machine}
    (hrun : Runs.Reach (Runs.observe step goesLive) (fun x l => ordered x.1 l = true)
      (start c k emptied counted false values, false) (m, true))
    (hactive : m.stream.gf.active = true) (hplays : played m.stream = false) (a : Attr) :
    m.values a = Posture.run.current a := by
  have hinv : TorqueInv m true := by
    refine hrun.invariant_observe (fun m l => ordered m l = true) ?_ ?_
    · exact ⟨rfl, rfl, rfl, .inr ⟨_, rfl⟩, by rintro _ ⟨⟩, by rintro _ ⟨⟩⟩
    · exact fun m live l n h hok hstep => torque_step h hok hstep
  exact (hinv.playing hactive rfl hplays).values a

/-! ### A wakeup at the start

A run that meets the condition, and one that does not: a drop decided before the wakeup is written
behind it. -/

/-- A whole posture on the core's thread. -/
def corePosture : List Label := List.replicate 6 (.core true)

/-- A controller starts, and the core's first reset leaves a hold to drop. -/
def starts : List Label :=
  corePosture ++ [Label.stream (.goIdle true 0 0), .stream (.reset 0), .stream .proto, .stream .proto] ++
    List.replicate 6 (Label.stream (.ship {}))

/-- The shipper finds the kernel idle and the hold due. -/
def dropDecided : Label := .stream (.ship { later := 1000000000 })

def wakes : List Label :=
  [Label.stream (.enter .wakeup)] ++ corePosture ++ [Label.stream (.locked .wakeup 1000000000)]

/-- A wakeup behind the drop. -/
theorem motion_has_run_current_first :
    ∃ m, Runs.Reach (Runs.observe step goesLive) (fun x l => ordered x.1 l = true)
        (start (Stream.slowConfig true) Stream.idleKernel true true false fun _ => 0, false) (m, true) ∧
      m.stream.gf.streaming = true ∧ ∀ a, m.values a = Posture.run.current a := by
  have hex : ∃ x, Runs.Reach (Runs.observe step goesLive) (fun x l => ordered x.1 l = true)
        (start (Stream.slowConfig true) Stream.idleKernel true true false fun _ => 0, false) x ∧
      (x.2 = true ∧ x.1.stream.gf.streaming = true ∧ x.1.stream.gf.active = true ∧
        played x.1.stream = false) :=
    Runs.exists_reach_of_exec (starts ++ [dropDecided] ++ List.replicate 5 Label.drop ++ wakes)
      (by decide +kernel)
  obtain ⟨⟨m, live⟩, hrun, hlive, hstreaming, hactive, hplays⟩ := hex
  obtain rfl : live = true := hlive
  exact ⟨m, hrun, hstreaming, fun a => motion_has_run_current _ _ _ _ _ hrun hactive hplays a⟩

/-- **A drop outlives the wakeup.** The shipper has decided its drop; the wakeup writes the run currents
and takes its lock, and the shipper writes the hold currents over them: the stream plays with those. -/
theorem hold_dropped_under_motion :
    ¬∀ (c : Config) (k : Kernel) (emptied counted : Bool) (values : Attr → Nat) (m : Machine),
      Runs.Reach (Runs.observe step goesLive) (fun _ l => l.releases = false)
        (start c k emptied counted false values, false) (m, true) →
      m.stream.gf.active = true → m.stream.gf.streaming = true →
      ∀ a, m.values a = Posture.run.current a := by
  intro hall
  have hex : ∃ x, Runs.Reach (Runs.observe step goesLive) (fun _ l => l.releases = false)
        (start (Stream.slowConfig true) Stream.idleKernel true true false fun _ => 0, false) x ∧
      (x.2 = true ∧ x.1.stream.gf.streaming = true ∧ x.1.stream.gf.active = true ∧
        x.1.values .x = Posture.hold.current .x) :=
    Runs.exists_reach_of_exec (starts ++ [dropDecided] ++ wakes ++ List.replicate 5 Label.drop)
      (by decide +kernel)
  obtain ⟨⟨m, live⟩, hrun, hlive, hstreaming, hactive, hx⟩ := hex
  obtain rfl : live = true := hlive
  have hrunning := hall _ _ _ _ _ m hrun hactive hstreaming .x
  exact absurd (hx.symm.trans hrunning) (by decide)

end Glowforge.Currents
