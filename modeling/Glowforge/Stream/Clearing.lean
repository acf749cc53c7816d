import Glowforge.Stream.Course
import Glowforge.Stream.Pipeline

/-!
# Glowforge — the marks of a read-back

A driver's reset waits for the clear of its residue. These are the marks that it goes by, and what
each turn does to them:

* **`Cleared`** — a step of the shipper seeks, settles the clear, loses it with a write that failed,
  or leaves the marks.
* **`turn_clearing`** — no other turn touches them, the calls of the reset itself apart.
* **`turn_killed`** — a stream that a reset has ended is not live.
-/

namespace Glowforge.Stream

/-- The seek of the clear in progress has taken. -/
def ShipPc.removedYet : ShipPc → Bool
  | .pendCount _ | .pendDone true _ _ => true
  | _ => false

/-- What a step of the shipper does to the clear that it is at, and to the read-back behind it. -/
inductive Cleared (e : Env) (s t : State) : Prop where
  | keeps (hclear : t.gf.clearPending = s.gf.clearPending) (hread : t.gf.readback = s.gf.readback)
      (hpc : t.pc.removedYet = s.pc.removedYet) (hseek : removedBy e s = 0)
      (hremoved : ∀ h : Owes, (Owes.ship s e h).removed = h.removed)
  | seeks {zeros : Nat} (hpc : s.pc = .pendSeek zeros) (htakes : seekTakes e s = true)
      (hclear : t.gf.clearPending = s.gf.clearPending) (hread : t.gf.readback = s.gf.readback)
      (hpc' : t.pc.removedYet = true)
  | settles {cleared : Bool} {counts : Option Steps} {zeros : Nat} (hpc : s.pc = .pendDone cleared counts zeros)
      (hclear : t.gf.clearPending = false) (hpc' : t.pc.removedYet = false)
      (hread : t.gf.readback =
        (settleReadback (if s.gf.active then counts else some s.gf.steps) (s.gf.zeros != zeros) s.gf).readback)
  | breaks {p : Pass} {c : Chunk} (hpc : s.pc = .wrote p c false) (hclear : t.gf.clearPending = s.gf.clearPending)
      (hread : t.gf.readback = if s.gf.readback = .wait then .lost else s.gf.readback)
      (hpc' : t.pc.removedYet = false) (hfailed : t.gf.failed = true)

theorem ShipPc.tail_removedYet {pc : ShipPc} (h : pc.tail = true ∨ pc = .top ∨ pc = .lock) :
    pc.removedYet = false := by
  rcases h with h | rfl | rfl
  · cases pc with
    | pendCount zeros => cases h
    | pendDone cleared counts zeros => cases h
    | _ => rfl
  · rfl
  · rfl

/-- Only a seek-clear writes what was removed. -/
theorem Owes.ship_removed {s : State} {e : Env} (h : ∀ zeros, s.pc ≠ .pendSeek zeros) (o : Owes) :
    (Owes.ship s e o).removed = o.removed := by
  unfold Owes.ship
  split
  case h_2 zeros hpc => exact absurd hpc (h zeros)
  all_goals rfl

/-- The clear and the read-back of a state, and whether the seek has taken. -/
def State.clearing (s : State) : Bool × ReadBack := (s.gf.clearPending, s.gf.readback)

theorem shipLoop_clearing (p : Pass) (streaming : Bool) (s : State) :
    (shipLoop p streaming s).clearing = s.clearing ∧ (shipLoop p streaming s).pc.removedYet = false := by
  simp only [shipLoop]
  split
  · exact ⟨(buildTicks_ticked p.gate p.due streaming shipChunk s.gf []).frame
      (fun g => (g.clearPending, g.readback)) rfl, rfl⟩
  · exact ⟨rfl, rfl⟩

theorem shipBody_clearing (e : Env) (gate : Bool) (s : State) :
    (shipBody e gate s).clearing = s.clearing ∧ (shipBody e gate s).pc.removedYet = false := by
  have hedge : State.clearing { s with gf := gateEdge gate s.gf } = s.clearing := by
    simp only [gateEdge]
    split_ifs <;> rfl
  have hhold : ∀ u, (pollHold e u).clearing = u.clearing := by
    intro u
    simp only [pollHold]
    split_ifs <;> rfl
  have hend : ∀ u, (endStream e u).clearing = u.clearing := by
    intro u
    simp only [endStream, endPad]
    split_ifs <;> rfl
  simp only [shipBody, shipGated]
  split
  · exact ⟨(hhold _).trans ((hend _).trans hedge), rfl⟩
  · split
    · exact ⟨hedge, rfl⟩
    · have hloop := shipLoop_clearing
        ⟨gate, dueIndex e.later (anchor e.now { s with gf := gateEdge gate s.gf }).gf, false⟩
        (anchor e.now { s with gf := gateEdge gate s.gf }).gf.streaming
        (anchor e.now { s with gf := gateEdge gate s.gf })
      exact ⟨hloop.1.trans hedge, hloop.2⟩

/-- **A step of the shipper**, as the read-back sees it. Most steps leave its marks; the cases are
the points of `pending_pass`, in their order. -/
theorem shipStep_cleared {e : Env} {s : State} (hactive : s.gf.active = true) :
    Cleared e s (shipStep e s) := by
  have hkeeps : (∀ zeros, s.pc ≠ .pendSeek zeros) → (shipStep e s).clearing = s.clearing →
      (shipStep e s).pc.removedYet = s.pc.removedYet → Cleared e s (shipStep e s) :=
    fun hseek hclear hpc =>
      .keeps (congrArg Prod.fst hclear) (congrArg Prod.snd hclear) hpc (removedBy_eq_zero hseek)
        (Owes.ship_removed hseek)
  by_cases htail : s.pc.tail = true
  · refine hkeeps ?_ ((shipStep_tail (e := e) htail).frame (fun g _ => (g.clearPending, g.readback)) rfl) ?_
    · rintro zeros hpc
      rw [hpc] at htail
      cases htail
    · rw [ShipPc.tail_removedYet (shipStep_tail_pc htail), ShipPc.tail_removedYet (.inl htail)]
  · cases hpc : s.pc with
    | top =>
      have hstep : shipStep e s = pendingSnapshot e s := by rw [shipStep, hpc]
      have hpad : ∀ u : State, (resetPad e.ok u).clearing = u.clearing ∧ (resetPad e.ok u).gf.active = u.gf.active := by
        intro u
        simp only [resetPad]
        split <;> exact ⟨rfl, rfl⟩
      have hnext : ∀ g, g.active = true → (pendingNext g).removedYet = false := by
        intro g hopen
        simp only [pendingNext, hopen]
        split_ifs <;> rfl
      refine hkeeps (by rw [hpc]; rintro _ ⟨⟩) ?_ ?_
      · rw [hstep, pendingSnapshot]
        exact (hpad _).1
      · rw [hstep, pendingSnapshot, hpc]
        exact hnext _ ((hpad _).2.trans hactive)
    | pendState clear zeros =>
      refine hkeeps (by rw [hpc]; rintro _ ⟨⟩) ?_ ?_
      · simp only [shipStep, hpc]
        rfl
      · simp only [shipStep, hpc, pendingState]
        split <;> cases clear <;> rfl
    | pendSeek zeros =>
      have hstep : shipStep e s = pendingSeek e zeros s := by rw [shipStep, hpc]
      cases htakes : seekTakes e s with
      | true =>
        have hseek : pendingSeek e zeros s = { s with kernel := s.kernel.seekClear, pc := .pendCount zeros } := by
          rw [pendingSeek, htakes, if_pos rfl]
        rw [hstep, hseek]
        exact .seeks hpc htakes rfl rfl rfl
      | false =>
        have hseek : pendingSeek e zeros s = { s with pc := .pendDone false none zeros } := by
          rw [pendingSeek, htakes]
          rfl
        rw [hstep, hseek]
        refine .keeps rfl rfl (by rw [hpc]; rfl) ?_ ?_
        · simp only [removedBy, hpc, htakes]
          rfl
        · intro h
          simp only [Owes.ship, hpc, htakes]
          rfl
    | pendCount zeros =>
      refine hkeeps (by rw [hpc]; rintro _ ⟨⟩) ?_ ?_
      · simp only [shipStep, hpc]
        rfl
      · simp only [shipStep, hpc]
        rfl
    | pendDone cleared counts zeros =>
      have hstep : shipStep e s = pendingDone cleared counts zeros s := by rw [shipStep, hpc]
      rw [hstep]
      refine .settles hpc rfl rfl ?_
      simp only [pendingDone, settleRun, settleBase, ditherReset, rebaseLocked]
      split
      · rfl
      · split <;> rfl
    | pendOurs =>
      refine hkeeps (by rw [hpc]; rintro _ ⟨⟩) ?_ ?_
      · simp only [shipStep, hpc, pendingOurs]
        split <;> rfl
      · simp only [shipStep, hpc, pendingOurs]
        split_ifs <;> rfl
    | lock =>
      refine hkeeps (by rw [hpc]; rintro _ ⟨⟩) ?_ ?_
      · simp only [shipStep, hpc, shipLock, faultPad]
        split_ifs <;> rfl
      · simp only [shipStep, hpc, shipLock]
        split_ifs <;> rfl
    | sampled gate =>
      have hstep : shipStep e s = shipBody e gate s := by rw [shipStep, hpc]
      refine hkeeps (by rw [hpc]; rintro _ ⟨⟩) ?_ ?_
      · rw [hstep]
        exact (shipBody_clearing e gate s).1
      · rw [hstep, hpc]
        exact (shipBody_clearing e gate s).2
    | writing p c rest =>
      refine hkeeps (by rw [hpc]; rintro _ ⟨⟩) ?_ ?_
      · simp only [shipStep, hpc, shipWrite]
        cases rest with
        | nil => rfl
        | cons b rest => simp only; split <;> rfl
      · simp only [shipStep, hpc, shipWrite]
        cases rest with
        | nil => rfl
        | cons b rest => simp only; split <;> rfl
    | wrote p c ok =>
      cases ok with
      | true =>
        have hstep : shipStep e s = shipNext p c (chunkLanded c s) := by
          rw [shipStep, hpc]
          rfl
        have hloop := shipLoop_clearing { p with startRun := p.startRun || c.first }
          (chunkLanded c s).gf.streaming (chunkLanded c s)
        refine hkeeps (by rw [hpc]; rintro _ ⟨⟩) ?_ ?_
        · rw [hstep, shipNext]
          split
          · rfl
          · exact hloop.1
        · rw [hstep, shipNext, hpc]
          split
          · rfl
          · exact hloop.2
      | false =>
        have hstep : shipStep e s = shipFinish p (chunkFailed s) := by
          rw [shipStep, hpc]
          rfl
        rw [hstep]
        exact .breaks hpc rfl rfl rfl rfl
    | _ =>
      rw [hpc] at htail
      exact absurd rfl htail

/-! ## The other turns

Outside the shipper the marks of a read-back are touched by the calls of the reset itself, and by
nothing else. -/

/-- The calls of a reset, and the end of a takeover. -/
def Label.settles (s : State) : Label → Bool
  | .ship _ | .reset _ | .readback _ | .resume _ _ _ => true
  | .proto => s.proto.head? == some .resumeSwap
  | _ => false

theorem locked_clearing (c : Call) (now : Nat) (s : State) : (c.locked now s).clearing = s.clearing := by
  have hledger : ∀ {t u : State}, t.ledger = u.ledger → t.clearing = u.clearing :=
    fun h => congrArg (fun v : Ledger => (v.clearPending, v.readback)) h
  cases c with
  | wakeup =>
    simp only [Call.locked, wakeupLocked]
    split
    · rfl
    · exact hledger (u := wakeupMark s) (wakeupStream_ledger now (wakeupMark s))
  | pulse stepBits dirBits => exact (pulseLocked_pulsed _ s).frame (fun g => (g.clearPending, g.readback)) rfl
  | laser power fire => exact hledger (laserEventLocked_ledger _ _ _)
  | jog on => exact hledger (laserEventLocked_ledger _ _ _)

/-- **The other turns** leave the clear and the read-back alone. -/
theorem turn_clearing {s t : State} {l : Label} (hturn : turn s l = some t) (hl : l.settles s = false) :
    t.clearing = s.clearing := by
  cases l with
  | ship e => cases hl
  | reset now => cases hl
  | readback expired => cases hl
  | resume latchOk emptied counted => cases hl
  | locked c now =>
    cases hturn
    exact locked_clearing c now { s with entered := s.entered.erase c }
  | goIdle reset stepBits dirBits =>
    cases hturn
    obtain ⟨killed, killStep, lev, streaming, hgo⟩ := goIdle_frame reset stepBits dirBits s
    rw [hgo]
    rfl
  | proto =>
    simp only [turn, protoStep] at hturn
    split at hturn <;> cases hturn
    case h_8.refl rest hp => simp [Label.settles, hp] at hl
    all_goals rfl
  | kernel a =>
    obtain ⟨k, -, rfl⟩ := Option.map_eq_some_iff.mp hturn
    rfl
  | enter c =>
    cases hturn
    simp only [enter]
    split <;> rfl
  | laserModel p m =>
    cases hturn
    simp only [gfStreamLaserModel, ditherReset]
    split_ifs <;> rfl
  | clearPosition ok =>
    cases hturn
    simp only [gfStreamClearPosition, rebaseLocked]
    split_ifs <;> rfl
  | suspend readOk =>
    cases hturn
    simp only [gfStreamSuspend]
    split_ifs <;> rfl
  | _ =>
    cases hturn
    rfl

/-- **A stream that a reset has ended** is not live: only a wakeup begins one, and it takes the mark off. -/
theorem turn_killed {s t : State} {l : Label} (hturn : turn s l = some t)
    (h : s.gf.killed = true → s.gf.streaming = false) (hkilled : t.gf.killed = true) :
    t.gf.streaming = false := by
  have hfrom : ∀ {m : Marks}, t.gf.marks = m → m.killed = true → t.gf.streaming = m.streaming :=
    fun hm _ => congrArg Marks.streaming hm
  have hmark : ∀ {m : Marks}, t.gf.marks = m → m.killed = true :=
    fun hm => (congrArg Marks.killed hm).symm.trans hkilled
  by_cases hship : ∃ e, l = .ship e
  · obtain ⟨e, rfl⟩ := hship
    cases hturn
    have hquiet := congrArg Quiet.gf (shipStep_quiet e s)
    have hs : (shipStep e s).gf.streaming = s.gf.streaming := congrArg QuietGf.streaming hquiet
    have hk : (shipStep e s).gf.killed = s.gf.killed := congrArg QuietGf.killed hquiet
    rw [hs]
    exact h (hk.symm.trans hkilled)
  · cases turn_moved hturn fun e he => hship ⟨e, he⟩ with
    | still hmarks => exact (hfrom hmarks (hmark hmarks)).trans (h (hmark hmarks))
    | wakesLive hl hlive hmarks => exact absurd (hmark hmarks) (by rintro ⟨⟩)
    | begins hl hidle hmarks => exact absurd (hmark hmarks) (by rintro ⟨⟩)
    | event hl hlive hmarks => exact (hfrom hmarks (hmark hmarks)).trans (h (hmark hmarks))
    | idles hl hmarks => exact hfrom hmarks (hmark hmarks)
    | resets hl hafter => exact hafter.streaming
    | suspends hl hdrained hmarks => exact (hfrom hmarks (hmark hmarks)).trans (h (hmark hmarks))
    | resumes hl hactive hmarks => exact (hfrom hmarks (hmark hmarks)).trans (h (hmark hmarks))
    | latchFails hl hhead hmarks => exact (hfrom hmarks (hmark hmarks)).trans (h (hmark hmarks))
    | swaps hl hhead hmarks => exact absurd (hmark hmarks) (by rintro ⟨⟩)

/-- The sink is chosen once. -/
theorem turn_active {s t : State} {l : Label} (hturn : turn s l = some t) : t.gf.active = s.gf.active := by
  by_cases hship : ∃ e, l = .ship e
  · obtain ⟨e, rfl⟩ := hship
    cases hturn
    exact shipStep_active e s
  · cases turn_moved hturn fun e he => hship ⟨e, he⟩ with
    | still hmarks => exact congrArg Marks.active hmarks
    | wakesLive hl hlive hmarks => exact congrArg Marks.active hmarks
    | begins hl hidle hmarks => exact congrArg Marks.active hmarks
    | event hl hlive hmarks => exact congrArg Marks.active hmarks
    | idles hl hmarks => exact congrArg Marks.active hmarks
    | resets hl hafter => exact hafter.active
    | suspends hl hdrained hmarks => exact congrArg Marks.active hmarks
    | resumes hl hactive hmarks => exact congrArg Marks.active hmarks
    | latchFails hl hhead hmarks => exact congrArg Marks.active hmarks
    | swaps hl hhead hmarks => exact congrArg Marks.active hmarks

end Glowforge.Stream
