import Glowforge.Stream.Restate

/-!
# Glowforge — a wakeup ahead of the backlog

A cycle can begin while ticks of the last one are still to ship. The wakeup puts its transition behind
them, and touches one thing that they read: over a gap it turns the fire state at the cursor off.

* **`rendered`** — the bytes of a tick ahead of the cursor, and the level in force at it.
* **`Gf.Abreast`** — records whose ticks agree up to an index.
* **`backlog_stays`** — the backlog renders as it would have where no lit tick of it lies ahead of the
  next transition, or there is no gap; in the analog model only there.

The lit ticks at the cursor go dark otherwise (`backlog_goes_dark`).
-/

namespace Glowforge.Stream

/-! ## Ticks that agree

Two records whose queues agree up to an index build the same ticks up to it. -/

/-- The record with another queue and another fire state in force. -/
abbrev Gf.relit (g : Gf) (lev : List LaserEv) (fire : Bool) : Gf := { g with lev := lev, curFire := fire }

/-- The record with the marks of another stream, which no tick reads. -/
abbrev Gf.marked (g x : Gf) : Gf :=
  { g with
    streaming := x.streaming, vticks := x.vticks, wallEpoch := x.wallEpoch, holdPending := x.holdPending
    produced := x.produced, base := x.base, killed := x.killed, killStep := x.killStep }

theorem marked_undithered (x : Gf) : Undithered (·.marked x) where
  power := fun _ => rfl
  period := fun _ => rfl
  minimum := fun _ => rfl
  left := fun _ => rfl
  on := fun _ => rfl
  acc := fun _ => rfl
  writes := fun _ _ _ _ => rfl

theorem relit_undithered (lev : List LaserEv) (fire : Bool) : Undithered (·.relit lev fire) where
  power := fun _ => rfl
  period := fun _ => rfl
  minimum := fun _ => rfl
  left := fun _ => rfl
  on := fun _ => rfl
  acc := fun _ => rfl
  writes := fun _ _ _ _ => rfl

theorem shipTick_marked (gate : Bool) (g x : Gf) :
    shipTick gate (g.marked x) = ((shipTick gate g).1.marked x, (shipTick gate g).2) := by
  have hlaser : tickLaser (g.marked x) = ((tickLaser g).1.marked x, (tickLaser g).2) := by
    simp only [tickLaser, Gf.marked]
    split_ifs <;> rfl
  have hpower : ∀ (g : Gf) p d, tickPower (g.marked x) p d = ((tickPower g p d).1.marked x, (tickPower g p d).2) := by
    intro g p d
    simp only [tickPower, Gf.marked]
    split_ifs <;> rfl
  have hfire : ∀ g : Gf, tickFire gate (g.marked x) = ((tickFire gate g).1.marked x, (tickFire gate g).2) :=
    fun g => (marked_undithered x).atFire (.inr rfl)
  have hbyte : ∀ g : Gf, tickByte gate (g.marked x) = ((tickByte gate g).1.marked x, (tickByte gate g).2) := by
    intro g
    simp only [tickByte]
    rw [hfire { g with ring := Function.update g.ring (slot g.shipped) 0 }]
  rw [shipTick_eq, shipTick_eq, tickReady, hlaser, hpower, hbyte]
  rfl

/-- A transition is due at the cursor. -/
def headDue (g : Gf) : Bool := g.lev.head?.any fun e => decide (e.idx ≤ g.shipped)

/-- Transitions past the cursor wait behind those that are due. -/
theorem applyDue_append {i : Nat} {more : List LaserEv} (hmore : ∀ e ∈ more, i < e.idx)
    (lev : List LaserEv) (fire : Bool) (power : UInt8) (due : Bool) :
    applyDue i (lev ++ more) fire power due =
      ((applyDue i lev fire power due).1 ++ more, (applyDue i lev fire power due).2) := by
  induction lev generalizing fire power due with
  | nil =>
    cases more with
    | nil => rfl
    | cons e more =>
      have hlt := hmore e List.mem_cons_self
      simp only [List.nil_append, applyDue, if_neg (Nat.not_le.mpr hlt)]
  | cons e lev ih =>
    simp only [List.cons_append, applyDue]
    split
    · exact ih _ _ _
    · rfl

/-- The fire state at the cursor is what a tick starts from only where no transition is due. -/
theorem applyDue_relit (g : Gf) (fire : Bool) :
    applyDue g.shipped g.lev fire g.curPower false =
      ((applyDue g.shipped g.lev g.curFire g.curPower false).1,
        if headDue g then (applyDue g.shipped g.lev g.curFire g.curPower false).2.1 else fire,
        (applyDue g.shipped g.lev g.curFire g.curPower false).2.2) := by
  rw [headDue]
  cases g.lev with
  | nil => rfl
  | cons e lev =>
    by_cases hdue : e.idx ≤ g.shipped
    · simp [applyDue, hdue]
    · simp [applyDue, hdue]

/-! ## One tick abreast

One tick keeps two records abreast, each part of it in turn. -/

/-- The record `r` builds the ticks before index `b` as `g` does: it has transitions of its own past them,
other marks, and where the fire state at the cursor is another one, it does not matter. -/
inductive Gf.Abreast (gate : Bool) (b : Nat) (g : Gf) : Gf → Prop where
  | intro {more : List LaserEv} {fire : Bool} {x : Gf} (hmore : ∀ e ∈ more, b ≤ e.idx)
      (hfire : gate = false ∨ fire = g.curFire ∨ headDue g = true) :
      Abreast gate b g ((g.relit (g.lev ++ more) fire).marked x)

theorem tickLaser_relit {g : Gf} {more : List LaserEv} (hmore : ∀ e ∈ more, g.shipped < e.idx) (fire : Bool) :
    tickLaser (g.relit (g.lev ++ more) fire) =
      ((tickLaser g).1.relit ((tickLaser g).1.lev ++ more)
        (if headDue g then (tickLaser g).1.curFire else fire), (tickLaser g).2) := by
  have hnone : headDue g = false → (applyDue g.shipped g.lev g.curFire g.curPower false).2.2.2 = false := by
    intro h
    rw [headDue] at h
    cases hlev : g.lev with
    | nil => rfl
    | cons e lev =>
      rw [hlev] at h
      simp only [List.head?_cons, Option.any_some, decide_eq_false_iff_not] at h
      rw [applyDue, if_neg h]
  simp only [tickLaser, Gf.relit]
  rw [applyDue_append hmore, applyDue_relit g fire]
  cases hdue : headDue g with
  | true =>
    simp only [if_true]
    split_ifs <;> rfl
  | false =>
    simp only [hnone hdue, Bool.false_and, Bool.false_eq_true, if_false]

theorem tickPower_relit (g : Gf) (lev : List LaserEv) (fire : Bool) (p : UInt8) (d : Bool) :
    tickPower (g.relit lev fire) p d = ((tickPower g p d).1.relit lev fire, (tickPower g p d).2) := by
  simp only [tickPower, Gf.relit]
  split_ifs <;> rfl

theorem tickByte_relit {gate : Bool} {g : Gf} (lev : List LaserEv) {fire : Bool}
    (hfire : gate = false ∨ fire = g.curFire) :
    tickByte gate (g.relit lev fire) = ((tickByte gate g).1.relit lev fire, (tickByte gate g).2) := by
  simp only [tickByte]
  rw [(relit_undithered lev fire).atFire (g := { g with ring := Function.update g.ring (slot g.shipped) 0 }) hfire]

namespace Gf.Abreast

variable {gate : Bool} {b : Nat} {g r : Gf}

/-- **One tick.** -/
theorem tick (h : g.Abreast gate b r) (hlt : g.shipped < b) :
    (shipTick gate r).2 = (shipTick gate g).2 ∧ (shipTick gate g).1.Abreast gate b (shipTick gate r).1 := by
  obtain @⟨more, fire, x, hmore, hfire⟩ := h
  have hpast : ∀ e ∈ more, g.shipped < e.idx := fun e he => Nat.lt_of_lt_of_le hlt (hmore e he)
  have hlaser := tickLaser_relit hpast fire
  have hforce : gate = false ∨ (if headDue g then (tickLaser g).1.curFire else fire) = (tickReady g).1.curFire := by
    have hkeeps : (tickReady g).1.curFire = (tickLaser g).1.curFire := (tickPower_keeps _ _ _).2.2.2
    rw [hkeeps]
    rcases hfire with hgate | hsame | hdue
    · exact .inl hgate
    · right
      split
      · rfl
      · next hnone =>
        rw [hsame, tickLaser_curFire, fireAt]
        rw [headDue] at hnone
        cases hlev : g.lev with
        | nil => rfl
        | cons e lev =>
          simp only [hlev, List.head?_cons, Option.any_some, decide_eq_true_eq] at hnone
          rw [Timeline.inForce, if_neg hnone]
    · right
      rw [if_pos hdue]
  have hlev : (shipTick gate g).1.lev = (tickLaser g).1.lev := by
    rw [shipTick_lev, tickLaser_lev]
  have hcur : (shipTick gate g).1.curFire = (tickReady g).1.curFire := (tickFire_keeps gate _).2.2.2
  have hstep : shipTick gate (g.relit (g.lev ++ more) fire) =
      ((shipTick gate g).1.relit ((shipTick gate g).1.lev ++ more)
        (if headDue g then (tickLaser g).1.curFire else fire), (shipTick gate g).2) := by
    have hready : tickReady (g.relit (g.lev ++ more) fire) =
        ((tickReady g).1.relit ((tickLaser g).1.lev ++ more)
          (if headDue g then (tickLaser g).1.curFire else fire), (tickReady g).2) := by
      rw [tickReady, hlaser]
      exact tickPower_relit _ _ _ _ _
    rw [hlev, shipTick_eq, hready, tickByte_relit _ hforce]
    rfl
  rw [shipTick_marked, hstep]
  refine ⟨rfl, .intro hmore ?_⟩
  rw [hcur]
  exact hforce.imp_right .inl

theorem shipped (h : g.Abreast gate b r) : r.shipped = g.shipped := by
  cases h
  rfl

theorem curPower (h : g.Abreast gate b r) : r.curPower = g.curPower := by
  cases h
  rfl

/-- **The walk up to the index.** -/
theorem ticks (h : g.Abreast gate b r) {n : Nat} (hle : g.shipped + n ≤ b) :
    (ticks gate n g).Abreast gate b (ticks gate n r) := by
  induction n with
  | zero => exact h
  | succ n ih =>
    rw [ticks_succ, ticks_succ]
    exact ((ih (by omega)).tick (by rw [ticks_shipped]; omega)).2

/-- A sample of the gate leaves both abreast. -/
theorem edge (h : g.Abreast gate b r) : (gateEdge gate g).Abreast gate b (gateEdge gate r) := by
  obtain @⟨more, fire, x, hmore, hfire⟩ := h
  by_cases hsame : gate = g.gateSeen
  · rw [gateEdge, gateEdge, if_pos hsame, if_pos (show gate = Gf.gateSeen _ from hsame)]
    exact .intro hmore hfire
  · rw [gateEdge, gateEdge, if_neg hsame, if_neg (show ¬gate = Gf.gateSeen _ from hsame)]
    cases gate with
    | true =>
      rcases hfire with hbad | hrest
      · cases hbad
      · exact @Abreast.intro _ _ { g with gateSeen := true } more fire x hmore (.inr hrest)
    | false =>
      have hmap : ∀ e ∈ more.map fun e => { e with fire := false }, b ≤ e.idx := by
        intro e he
        obtain ⟨d, hd, rfl⟩ := List.mem_map.mp he
        exact hmore d hd
      have hedge := @Abreast.intro false b (gateEdge false g) _ false x hmap (.inl rfl)
      rw [gateEdge, if_neg hsame, if_neg (by decide)] at hedge
      simp only [List.map_append, ditherReset, if_neg (show ¬(false = true) from (by decide))]
      exact hedge

end Gf.Abreast

/-! ## The wakeup

The wakeup changes the queue at its far end, and over a gap the fire state at the cursor. Only lit
ticks ahead of the next transition see the second. -/

/-- What tick `n` ahead of the cursor ships once a pass has sampled `gate`: its bytes, and the level in
force at it. -/
def rendered (gate : Bool) (n : Nat) (g : Gf) : List UInt8 × UInt8 :=
  (tickBytes gate n (gateEdge gate g), (ticks gate (n + 1) (gateEdge gate g)).curPower)

/-- No lit tick of the backlog lies ahead of the next transition, or the wakeup finds no gap. -/
def spares (now : Nat) (gate : Bool) (g : Gf) : Prop :=
  gate = false ∨ g.curFire = false ∨ headDue g = true ∨ g.produced ≤ g.shipped ∨ dueIndex now g ≤ g.produced

/-- What a continuation writes. -/
theorem wakeup_continues {now : Nat} {s : State} (hidle : s.gf.streaming = false)
    (hrunning : s.gf.kernelRunning = true) :
    ∃ more, (∀ e ∈ more, s.gf.produced ≤ e.idx) ∧ (wakeupLocked now s).gf =
      (s.gf.relit (s.gf.lev ++ more)
        (if dueIndex now s.gf > s.gf.produced then false else s.gf.curFire)).marked (wakeupLocked now s).gf := by
  have hrecord : wakeupRecord now s = (s.gf.relit s.gf.lev
      (if dueIndex now s.gf > s.gf.produced then false else s.gf.curFire)).marked (wakeupRecord now s) ∧
      s.gf.produced ≤ (wakeupRecord now s).base := by
    have hbegins : wakeupRecord now s = { wakeupContinue now (wakeupClock now (wakeupMark s).gf) with
        base := (wakeupContinue now (wakeupClock now (wakeupMark s).gf)).produced } := by
      rw [wakeupRecord, wakeupIndex,
        if_pos (show (wakeupClock now (wakeupMark s).gf).kernelRunning = true from hrunning)]
    have hgaps : wakeupContinue now (wakeupClock now (wakeupMark s).gf) =
        if dueIndex now s.gf > s.gf.produced then
          { wakeupClock now (wakeupMark s).gf with produced := dueIndex now s.gf, curFire := false }
        else wakeupClock now (wakeupMark s).gf := rfl
    rw [hbegins, hgaps]
    by_cases hgap : dueIndex now s.gf > s.gf.produced
    · rw [if_pos hgap, if_pos hgap]
      exact ⟨rfl, Nat.le_of_lt hgap⟩
    · rw [if_neg hgap, if_neg hgap]
      exact ⟨rfl, Nat.le_refl _⟩
  have hgf : (wakeupLocked now s).gf = wakeupAssert (mayFire s s.gf.wantFire) (wakeupRecord now s) := by
    rw [wakeupLocked, if_neg (by rw [hidle]; rintro ⟨⟩)]
    rfl
  rw [hgf]
  obtain ⟨hrecord, hbase⟩ := hrecord
  generalize (if dueIndex now s.gf > s.gf.produced then false else s.gf.curFire) = fire at hrecord ⊢
  generalize wakeupRecord now s = u at hrecord hbase ⊢
  have hnone : ∃ more, (∀ e ∈ more, s.gf.produced ≤ e.idx) ∧
      u = (s.gf.relit (s.gf.lev ++ more) fire).marked u := by
    refine ⟨[], by rintro _ ⟨⟩, ?_⟩
    rw [List.append_nil]
    exact hrecord
  rw [wakeupAssert]
  split
  · split
    · refine ⟨[⟨u.base, u.wantPower, mayFire s s.gf.wantFire⟩], ?_, ?_⟩
      · intro e he
        rw [List.mem_singleton.mp he]
        exact hbase
      · rw [hrecord]
    · exact hnone
  · exact hnone

/-- Where no transition is due, the fire state at the cursor is in force. -/
theorem fireAt_headDue {lev : List LaserEv} {fire : Bool} {i : Nat}
    (h : ∀ e ∈ lev.head?, i < e.idx) : fireAt lev fire i = fire := by
  cases lev with
  | nil => rfl
  | cons e lev => rw [fireAt, Timeline.inForce, if_neg (Nat.not_le.mpr (h e rfl))]

/-- **A continuation leaves the backlog alone** where the condition holds, and in the analog model only
there. -/
theorem backlog_stays {now : Nat} {gate : Bool} {s : State} (hidle : s.gf.streaming = false)
    (hrunning : s.gf.kernelRunning = true) :
    (spares now gate s.gf → ∀ n, s.gf.shipped + n < s.gf.produced →
      rendered gate n (wakeupLocked now s).gf = rendered gate n s.gf) ∧
    (s.gf.dithPeriod = 0 → (∀ n, s.gf.shipped + n < s.gf.produced →
      rendered gate n (wakeupLocked now s).gf = rendered gate n s.gf) → spares now gate s.gf) := by
  obtain ⟨more, hmore, hwakeup⟩ := @wakeup_continues now s hidle hrunning
  constructor
  · intro hspares n hn
    have habreast : s.gf.Abreast gate s.gf.produced (wakeupLocked now s).gf := by
      rw [hwakeup]
      refine .intro hmore ?_
      obtain hgate | hdark | hdue | hnone | hgap := hspares
      · exact .inl hgate
      · rw [hdark]
        exact .inr (.inl (ite_self _))
      · exact .inr (.inr hdue)
      · omega
      · exact .inr (.inl (if_neg (Nat.not_lt.mpr hgap)))
    have hedge := habreast.edge
    have hstart : (gateEdge gate s.gf).shipped = s.gf.shipped := gateEdge_shipped gate s.gf
    have hwalk := hedge.ticks (n := n) (by omega)
    have htick := hwalk.tick (by rw [ticks_shipped]; omega)
    refine Prod.ext htick.1 ?_
    change (ticks gate (n + 1) _).curPower = (ticks gate (n + 1) _).curPower
    rw [ticks_succ, ticks_succ]
    exact htick.2.curPower
  · intro hanalog hsame
    by_contra hnot
    simp only [spares, not_or, Bool.not_eq_false, Bool.not_eq_true, Nat.not_le] at hnot
    obtain ⟨rfl, hlit, hdue, hbacklog, hgap⟩ := hnot
    -- the tick at the cursor is lit in the one, and dark in the other
    have hbytes := congrArg (fun x => x.1.getLast?) (hsame 0 (by omega))
    have hedge : ∀ g : Gf, (gateEdge true g).dithPeriod = g.dithPeriod ∧ (gateEdge true g).lev = g.lev ∧
        (gateEdge true g).curFire = g.curFire ∧ (gateEdge true g).shipped = g.shipped := by
      intro g
      simp only [gateEdge]
      split_ifs <;> exact ⟨rfl, rfl, rfl, rfl⟩
    have hhead : ∀ e ∈ s.gf.lev.head?, s.gf.shipped < e.idx := by
      intro e he
      rw [headDue, show s.gf.lev.head? = some e from he] at hdue
      simpa using hdue
    have hhead' : ∀ e ∈ (s.gf.lev ++ more).head?, s.gf.shipped < e.idx := by
      intro e he
      cases hlev : s.gf.lev with
      | nil =>
        rw [hlev] at he
        have := hmore e (List.mem_of_mem_head? he)
        omega
      | cons d lev =>
        rw [hlev] at he hhead
        exact hhead e he
    obtain ⟨hmodel, hlev, hcur, hshipped⟩ := hedge s.gf
    obtain ⟨hmodel', hlev', hcur', hshipped'⟩ := hedge (wakeupLocked now s).gf
    change (shipTick true (gateEdge true (wakeupLocked now s).gf)).2.getLast? =
      (shipTick true (gateEdge true s.gf)).2.getLast? at hbytes
    have hanalog' : (wakeupLocked now s).gf.dithPeriod = 0 := by
      rw [hwakeup]
      exact hanalog
    rw [shipTick_analog (hmodel.trans hanalog), shipTick_analog (hmodel'.trans hanalog')] at hbytes
    have hfires := congrArg lit (Option.some.inj hbytes)
    rw [lit_shippedByte, lit_shippedByte, hlev, hcur, hshipped, hlev', hcur', hshipped', fireAt_headDue hhead,
      hlit, hwakeup] at hfires
    have hdark : fireAt (s.gf.lev ++ more) (if dueIndex now s.gf > s.gf.produced then false else s.gf.curFire)
        s.gf.shipped = false := (fireAt_headDue hhead').trans (if_pos hgap)
    exact absurd (hdark.symm.trans ((Bool.and_true _).symm.trans hfires)) (by decide)

/-- The theorem at a cycle that begins a millisecond into the last one's backlog: there is no gap, and its
hundred ticks stay. -/
theorem backlog_stays_lit :
    ∃ s : State, s.gf.curFire = true ∧ s.gf.shipped + 100 = s.gf.produced ∧
      ∀ n, s.gf.shipped + n < s.gf.produced →
        rendered true n (wakeupLocked 1000000 s).gf = rendered true n s.gf := by
  have hrun : ∃ s, Runs.Reach step (fun _ _ => True) (State.init (slowConfig false) idleKernel true true) s ∧
      (s.gf.streaming = false ∧ s.gf.kernelRunning = true ∧ s.gf.curFire = true ∧
        s.gf.shipped + 100 = s.gf.produced ∧ dueIndex 1000000 s.gf ≤ s.gf.produced) :=
    Runs.exists_reach_of_exec litCycleEnds (by decide +kernel)
  obtain ⟨s, -, hidle, hrunning, hlit, hbacklog, hgap⟩ := hrun
  exact ⟨s, hlit, hbacklog, (backlog_stays hidle hrunning).1 (.inr (.inr (.inr (.inr hgap))))⟩

/-- **Over a gap the lit backlog goes dark**: the wakeup comes when the wall clock is past the last cycle's
end and the shipper is late. -/
theorem backlog_goes_dark :
    ∃ (s t : State) (now n : Nat),
      Runs.Reach step (fun _ _ => True) (State.init (slowConfig false) idleKernel true true) s ∧
      s.gf.streaming = false ∧ s.gf.kernelRunning = true ∧ step s (.locked .wakeup now) = some t ∧
      s.gf.shipped + n < s.gf.produced ∧ ¬rendered true n t.gf = rendered true n s.gf := by
  have hrun : ∃ s, Runs.Reach step (fun _ _ => True) (State.init (slowConfig false) idleKernel true true) s ∧
      (s.gf.streaming = false ∧ s.gf.kernelRunning = true ∧ s.gf.shipped + 0 < s.gf.produced ∧
        (step s (.locked .wakeup 200000000)).any
          (fun t => decide (rendered true 0 t.gf ≠ rendered true 0 s.gf)) = true) :=
    Runs.exists_reach_of_exec litCycleEnds (by decide +kernel)
  obtain ⟨s, hreach, hidle, hrunning, hbacklog, hnext⟩ := hrun
  obtain ⟨t, hwake, hdark⟩ := (Option.any_eq_true _ _).mp hnext
  exact ⟨s, t, _, 0, hreach, hidle, hrunning, hwake, hbacklog, of_decide_eq_true hdark⟩

end Glowforge.Stream
