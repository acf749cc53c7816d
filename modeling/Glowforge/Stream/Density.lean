import Glowforge.Stream.Twin

/-!
# Glowforge — the ticks of one pass under the two dose models

A pass of the shipper builds its ticks chunk by chunk, and the chunks of the two models end at
different ticks: a level change costs the analog model a byte, and the density model none. The
ticks themselves are those of one loop, whatever the chunks:

* **`TickRun`** — the ticks that the loop ships from a record, up to another.
* **`shipTick_frame`** — what one tick leaves in the record, in either model.
* **`TickRun.twin`** — the loops of twins, run to their ends, ship the same ticks but for the FIRE
  bits that the density model withholds, and leave twins.
* **`shipStep_twin`** — a step of the shipper outside its writes keeps twins, if the device
  answers both alike.
-/

namespace Glowforge.Stream

/-! ## Ticks

A tick's bytes in either model, and the relation between the two: the same but for FIRE bits that
the density model withholds. -/

/-- A tick as it ships: its byte, and the level and the fire state in force behind it. -/
structure Tick where
  byte : UInt8
  power : UInt8
  fire : Bool
deriving DecidableEq, Repr

/-- The tick `d` of the density model is the tick `a` of the analog one, or that tick with its
FIRE bit withheld. -/
structure Withheld (a d : Tick) : Prop where
  byte : d.byte &&& 0xEF = a.byte &&& 0xEF
  lit : lit d.byte = true → lit a.byte = true
  power : d.power = a.power
  fire : d.fire = a.fire

/-- The tick at the cursor. -/
def tickAt (gate : Bool) (g : Gf) : Tick where
  byte := (tickByte gate (tickReady g).1).2
  power := (shipTick gate g).1.curPower
  fire := (shipTick gate g).1.curFire

/-- The ticks of a chunk, as `buildTicks` ships them. -/
def builtTicks (gate : Bool) (due : Nat) (streaming : Bool) : Nat → Gf → List UInt8 → List Tick
  | 0, _, _ => []
  | fuel + 1, g, chunk =>
    if chunk.length < shipChunk - 1 && tickDue due streaming g then
      tickAt gate g ::
        builtTicks gate due streaming fuel (shipTick gate g).1 (chunk ++ (shipTick gate g).2)
    else []

/-- The ticks of the loop from one record to another. -/
inductive TickRun (gate : Bool) (due : Nat) (streaming : Bool) : Gf → List Tick → Gf → Prop where
  | done (g : Gf) : TickRun gate due streaming g [] g
  | tick {g g' : Gf} {ts : List Tick} (hdue : tickDue due streaming g = true)
      (hrest : TickRun gate due streaming (shipTick gate g).1 ts g') :
      TickRun gate due streaming g (tickAt gate g :: ts) g'

section Loop

variable {gate streaming : Bool} {due : Nat}

theorem TickRun.trans {g g' g'' : Gf} {ts ts' : List Tick} (h : TickRun gate due streaming g ts g')
    (h' : TickRun gate due streaming g' ts' g'') : TickRun gate due streaming g (ts ++ ts') g'' := by
  induction h with
  | done => exact h'
  | tick hdue _ ih => exact .tick hdue (ih h')

/-- A chunk is a part of the loop. -/
theorem buildTicks_run (gate : Bool) (due : Nat) (streaming : Bool) (fuel : Nat) (g : Gf)
    (chunk : List UInt8) :
    TickRun gate due streaming g (builtTicks gate due streaming fuel g chunk)
      (buildTicks gate due streaming fuel g chunk).1 := by
  induction fuel generalizing g chunk with
  | zero => exact .done g
  | succ fuel ih =>
    simp only [builtTicks, buildTicks]
    split
    · next hgo => exact .tick (Bool.and_eq_true_iff.mp hgo).2 (ih _ _)
    · exact .done g

/-- The tick bytes of a chunk are the bytes of its ticks. -/
theorem buildTicks_bytes (fuel : Nat) (g : Gf) (chunk : List UInt8) :
    (buildTicks gate due streaming fuel g chunk).2.filter isTick =
      chunk.filter isTick ++ (builtTicks gate due streaming fuel g chunk).map Tick.byte := by
  induction fuel generalizing g chunk with
  | zero => exact (List.append_nil _).symm
  | succ fuel ih =>
    simp only [builtTicks, buildTicks]
    split
    · have hbytes : (shipTick gate g).2.filter isTick = [(tickAt gate g).byte] := by
        have hnone : (tickReady g).2.filter isTick = [] :=
          List.filter_eq_nil_iff.mpr fun b hb => by
            rw [tickPower_bytes _ _ _ b hb]
            rintro ⟨⟩
        have htick : isTick (tickAt gate g).byte = true := isTick_shippedByte _ _
        rw [shipTick_eq, List.filter_append, hnone, List.nil_append]
        exact List.filter_cons_of_pos htick
      rw [ih, List.filter_append, hbytes, List.append_assoc]
      rfl
    · exact (List.append_nil _).symm

end Loop

/-! ## One tick

The frame of one tick: what it changes, as one function of the record. -/

/-- The level in force behind the transitions at the cursor. -/
def powerAt (g : Gf) : UInt8 := (applyDue g.shipped g.lev g.curFire g.curPower false).2.2.1

/-- Without a transition the level stays. -/
theorem applyDue_power (i : Nat) (lev : List LaserEv) (fire : Bool) (power : UInt8) :
    (applyDue i lev fire power false).2.2.2 = true ∨ (applyDue i lev fire power false).2.2.1 = power := by
  have htrue : ∀ lev fire power, (applyDue i lev fire power true).2.2.2 = true := by
    intro lev
    induction lev with
    | nil => exact fun _ _ => rfl
    | cons e lev ih =>
      intro fire power
      simp only [applyDue]
      split
      · exact ih _ _
      · rfl
  cases lev with
  | nil => exact .inr rfl
  | cons e lev =>
    simp only [applyDue]
    split
    · exact .inl (htrue _ _ _)
    · exact .inr rfl

/-- In either model the level in force is the transitions', and the run's power byte is out. -/
theorem tickPower_frame (g : Gf) (evPower : UInt8) (dueEv : Bool)
    (hkept : dueEv = true ∨ evPower = g.curPower) :
    (tickPower g evPower dueEv).1 = { g with curPower := evPower, powerSent := true } := by
  simp only [tickPower]
  split_ifs with hmodel hsent hdue
  · rw [← hsent]
  · rfl
  · rfl
  · simp only [Bool.or_eq_true, Bool.and_eq_true, bne_iff_ne, ne_eq, Bool.not_eq_true', not_or,
      not_and, not_not, Bool.not_eq_false] at hdue
    have hpower : evPower = g.curPower := hkept.elim hdue.1 id
    rw [hpower, ← hdue.2]

/-- What a dose model keeps of a tick: the last byte's FIRE bit and the dither. -/
structure Dose where
  lastLit : Bool
  dithLeft : UInt32
  dithOn : UInt32
  dithAcc : UInt32

/-- The record behind the tick at the cursor, but for what the dose model keeps. -/
def Gf.ticked (g : Gf) (x : Dose) : Gf :=
  { g with
    lev := g.lev.dropWhile (·.idx ≤ g.shipped), curFire := fireAt g.lev g.curFire g.shipped
    curPower := powerAt g, powerSent := true
    ring := Function.update g.ring (slot g.shipped) 0, shipped := g.shipped + 1
    lastLit := x.lastLit, dithLeft := x.dithLeft, dithOn := x.dithOn, dithAcc := x.dithAcc }

theorem tickLaser_frame (g : Gf) : ∃ left on acc, (tickLaser g).1 =
    { g with lev := g.lev.dropWhile (·.idx ≤ g.shipped), curFire := fireAt g.lev g.curFire g.shipped
             dithLeft := left, dithOn := on, dithAcc := acc } := by
  rw [← applyDue_lev g.shipped g.lev g.curFire g.curPower false,
    ← applyDue_fire g.shipped g.lev g.curFire g.curPower false]
  simp only [tickLaser]
  split <;> exact ⟨_, _, _, rfl⟩

theorem tickByte_frame (gate : Bool) (g : Gf) : ∃ x : Dose, (tickByte gate g).1 =
    { g with ring := Function.update g.ring (slot g.shipped) 0, shipped := g.shipped + 1
             lastLit := x.lastLit, dithLeft := x.dithLeft, dithOn := x.dithOn, dithAcc := x.dithAcc } := by
  have hfire := tickFire_dithered gate { g with ring := Function.update g.ring (slot g.shipped) 0 }
  exact ⟨⟨_, _, _, _⟩, congrArg (fun r : Gf =>
    { r with lastLit := (tickByte gate g).1.lastLit, shipped := r.shipped + 1 }) hfire⟩

/-- **What one tick leaves**, in either model: one function of the record, in which only the dose
fields differ between the two. -/
theorem shipTick_frame (gate : Bool) (g : Gf) : ∃ x, (shipTick gate g).1 = g.ticked x := by
  obtain ⟨left, on, acc, hlaser⟩ := tickLaser_frame g
  have hkept : (tickLaser g).2.2 = true ∨ (tickLaser g).2.1 = (tickLaser g).1.curPower := by
    rw [hlaser]
    exact applyDue_power g.shipped g.lev g.curFire g.curPower
  have hready : (tickReady g).1 = { (tickLaser g).1 with curPower := powerAt g, powerSent := true } :=
    tickPower_frame _ _ _ hkept
  obtain ⟨x, hbyte⟩ := tickByte_frame gate (tickReady g).1
  refine ⟨x, ?_⟩
  rw [shipTick_eq, hbyte, hready, hlaser]
  rfl

/-- The byte of a tick fires as the core asked and the gate permits, and in the analog model
always then. -/
theorem tickAt_byte (gate : Bool) (g : Gf) : ∃ fires,
    (tickAt gate g).byte = shippedByte (g.ring (slot g.shipped)) fires ∧
      (fires = true → gate = true ∧ fireAt g.lev g.curFire g.shipped = true) ∧
      (g.dithPeriod = 0 → fires = (fireAt g.lev g.curFire g.shipped && gate)) := by
  obtain ⟨left, on, acc, hlaser⟩ := tickLaser_frame g
  have hfire : (tickReady g).1.curFire = fireAt g.lev g.curFire g.shipped :=
    (tickPower_keeps _ _ _).2.2.2.trans (tickLaser_curFire g)
  refine ⟨(tickFire gate { (tickReady g).1 with
    ring := Function.update (tickReady g).1.ring (slot (tickReady g).1.shipped) 0 }).2, ?_, ?_, ?_⟩
  · rw [← tickReady_ring g, ← tickReady_shipped g]
    rfl
  · intro h
    obtain ⟨hgate, hon⟩ := tickFire_fires h
    exact ⟨hgate, hfire.symm.trans hon⟩
  · intro hanalog
    have hperiod : (tickReady g).1.dithPeriod = 0 := by
      have hkeep : ∀ u p d, (tickPower u p d).1.dithPeriod = u.dithPeriod := by
        intro u p d
        simp only [tickPower]
        split_ifs <;> rfl
      rw [tickReady, hkeep, hlaser]
      exact hanalog
    rw [← hfire]
    simp only [tickFire, hperiod, if_true]
    split
    · next hc => exact hc.symm
    · next hc => exact (Bool.not_eq_true _ ▸ hc : (_ && _) = false).symm

/-! ## The loops of twins

Run to their ends the loops of twins ship the same ticks, though they cut them into chunks
differently. -/

/-- Twins of a live stream: the cursors and the fire state agree. -/
structure Gf.LiveTwin (g r : Gf) : Prop where
  alike : g.Alike r
  produced : r.produced = g.produced
  shipped : r.shipped = g.shipped
  curFire : r.curFire = g.curFire
  lev : r.lev = g.lev
  analog : g.dithPeriod = 0

theorem Gf.LiveTwin.twin {g r : Gf} (h : g.LiveTwin r) : g.Twin r :=
  ⟨h.alike, .live h.produced h.shipped h.curFire h.lev, h.analog⟩

section Twins

variable {g r : Gf} {gate streaming : Bool} {due : Nat}

theorem Gf.LiveTwin.fireAt (h : g.LiveTwin r) :
    fireAt r.lev r.curFire r.shipped = fireAt g.lev g.curFire g.shipped := by
  rw [h.lev, h.curFire, h.shipped]

theorem Gf.LiveTwin.powerAt (h : g.LiveTwin r) : powerAt r = powerAt g := by
  rw [Stream.powerAt, Stream.powerAt, h.lev, h.curFire, h.shipped,
    show r.curPower = g.curPower from h.alike.frame Gf.curPower rfl]

theorem Gf.LiveTwin.tickDue (h : g.LiveTwin r) : tickDue due streaming r = tickDue due streaming g := by
  rw [Stream.tickDue, Stream.tickDue, h.shipped, h.produced]

/-- **One tick of twins** leaves twins, and its bytes differ in a FIRE bit withheld at most. -/
theorem shipTick_twin (gate : Bool) (h : g.LiveTwin r) :
    (shipTick gate g).1.LiveTwin (shipTick gate r).1 ∧ Withheld (tickAt gate g) (tickAt gate r) := by
  have hring : r.ring = g.ring := h.alike.frame Gf.ring rfl
  obtain ⟨x, hg⟩ := shipTick_frame gate g
  obtain ⟨y, hr⟩ := shipTick_frame gate r
  have hpower : (shipTick gate r).1.curPower = (shipTick gate g).1.curPower := by
    rw [hg, hr]
    exact h.powerAt
  have hfire : (shipTick gate r).1.curFire = (shipTick gate g).1.curFire := by
    rw [hg, hr]
    exact h.fireAt
  refine ⟨?_, ?_⟩
  · have hticked : r.ticked y = { r with
        lev := g.lev.dropWhile (·.idx ≤ g.shipped), curFire := Stream.fireAt g.lev g.curFire g.shipped
        curPower := Stream.powerAt g, powerSent := true
        ring := Function.update g.ring (slot g.shipped) 0, shipped := g.shipped + 1
        lastLit := y.lastLit, dithLeft := y.dithLeft, dithOn := y.dithOn, dithAcc := y.dithAcc } := by
      rw [← h.powerAt, ← h.fireAt, ← hring, ← h.shipped, ← h.lev]
      rfl
    rw [hg, hr, hticked]
    refine ⟨?_, h.produced, rfl, rfl, rfl, h.analog⟩
    have halike := h.alike
    unfold Gf.Alike at halike ⊢
    rw [halike]
    rfl
  · obtain ⟨fires, hbyte, -, hanalog⟩ := tickAt_byte gate g
    obtain ⟨fires', hbyte', hlit, -⟩ := tickAt_byte gate r
    rw [hring, h.shipped] at hbyte'
    refine ⟨?_, ?_, hpower, hfire⟩
    · rw [hbyte, hbyte', shippedByte_unlit, shippedByte_unlit]
    · rw [hbyte, hbyte', lit_shippedByte, lit_shippedByte, hanalog h.analog]
      intro hfires
      obtain ⟨hgate, hon⟩ := hlit hfires
      rw [← h.fireAt, hon, hgate]
      rfl

/-- **The loops of twins**, each run to its end, ship the same ticks but for what is withheld. -/
theorem TickRun.twin {g' r' : Gf} {ts us : List Tick} (h : g.LiveTwin r)
    (hg : TickRun gate due streaming g ts g') (hend : Stream.tickDue due streaming g' = false)
    (hr : TickRun gate due streaming r us r') (hend' : Stream.tickDue due streaming r' = false) :
    g'.LiveTwin r' ∧ List.Forall₂ Withheld ts us := by
  induction hg generalizing r us with
  | done g =>
    cases hr with
    | done => exact ⟨h, .nil⟩
    | tick hdue =>
      rw [h.tickDue, hend] at hdue
      cases hdue
  | tick hdue _ ih =>
    cases hr with
    | done =>
      rw [h.tickDue, hdue] at hend'
      cases hend'
    | tick _ hrest =>
      obtain ⟨htwin, hwithheld⟩ := shipTick_twin gate h
      obtain ⟨hlast, hticks⟩ := ih htwin hend hrest
      exact ⟨hlast, .cons hwithheld hticks⟩

end Twins

/-! ## Steps abreast

The steps of the shipper outside its writes, for two machines whose devices answer alike. -/

/-- The shipper writes a chunk. -/
def ShipPc.writes : ShipPc → Bool
  | .writing _ _ _ | .wrote _ _ _ => true
  | _ => false

/-- The shippers of twins are at the same point; the counts they carry may differ. -/
inductive ShipPc.Beside : ShipPc → ShipPc → Prop where
  | same (pc : ShipPc) (hout : pc.writes = false) : Beside pc pc
  | pendDone (cleared : Bool) (counts counts' : Option Steps) (zeros : Nat) :
      Beside (.pendDone cleared counts zeros) (.pendDone cleared counts' zeros)
  | runTest (startRun : Bool) (base written base' written' : UInt32) :
      Beside (.runTest startRun base written) (.runTest startRun base' written')
  | gateState (base written base' written' : UInt32) :
      Beside (.gateState base written) (.gateState base' written')
  | gateCounts (base written base' written' : UInt32) :
      Beside (.gateCounts base written) (.gateCounts base' written')

/-- Twins whose shippers are at the same point. -/
structure Abreast (s t : State) : Prop where
  twin : s.Twin t
  pc : s.pc.Beside t.pc

/-- What the device answers in a step of the shipper. -/
structure Answer where
  state : Option KernelState := none
  -- the seek takes, or the counts at the run's gate are the run's
  took : Bool := false
  reply : Option Kernel.RunReply := none
deriving DecidableEq

/-- What a step of the shipper learns from the device, outside its writes. The poll for the hold
is not here: nothing that ships depends on it. -/
def answer (e : Env) (s : State) : Answer :=
  match s.pc with
  | .pendState _ _ | .gateState _ _ | .runState _ _ _ | .checkState => { state := readState e s }
  | .pendSeek _ => { took := seekTakes e s }
  | .gateCounts base written =>
    { took := !(!e.readOk || s.kernel.processed != base ||
        (s.kernel.took != written && s.kernel.took != 0xFFFFFFFF)) }
  | .runWrite _ _ => { reply := some (s.kernel.runReply e.ok) }
  | _ => {}

section Steps

variable {s t : State} (e : Env)

theorem darkPad_still (ok : Bool) (s : State) : s.gf.Still (darkPad ok s).gf := ⟨rfl, rfl, rfl⟩

theorem pendingNext_out (g : Gf) : (pendingNext g).writes = false := by
  unfold pendingNext
  split_ifs <;> rfl

theorem pendingSnapshot_abreast (h : s.Twin t) : Abreast (pendingSnapshot e s) (pendingSnapshot e t) := by
  have hkeeps : keepsRun t.gf = keepsRun s.gf := h.gf.alike.frame keepsRun rfl
  have hrun : ({ s.gf with runPending := keepsRun s.gf } : Gf).Twin
      { t.gf with runPending := keepsRun t.gf } := by
    rw [hkeeps]
    exact h.gf.map (fun g => { g with runPending := keepsRun s.gf }) (fun _ _ => rfl) (fun _ => rfl)
      (fun _ => id) (fun _ => rfl)
  have hpad : ∀ u : State, u.gf.Still (resetPad e.ok u).gf ∧ (resetPad e.ok u).flags = u.flags := by
    intro u
    unfold resetPad
    split
    · exact ⟨darkPad_still e.ok u, rfl⟩
    · exact ⟨⟨rfl, rfl, rfl⟩, rfl⟩
  have hgf := hrun.still (hpad { s with gf := { s.gf with runPending := keepsRun s.gf } }).1
    (hpad { t with gf := { t.gf with runPending := keepsRun t.gf } }).1
  refine ⟨⟨hgf, ?_⟩, ?_⟩
  · exact ((hpad { t with gf := { t.gf with runPending := keepsRun t.gf } }).2.trans h.flags).trans
      (hpad { s with gf := { s.gf with runPending := keepsRun s.gf } }).2.symm
  · have hnext := hgf.alike.frame pendingNext rfl
    change ShipPc.Beside (pendingNext _) (pendingNext _)
    rw [hnext]
    exact .same _ (pendingNext_out _)

theorem settle_still (counts : Option Steps) (stale : Bool) (g : Gf) :
    g.Still (settleBase counts stale (settleReadback counts stale g)) := by
  have hback : g.Still (settleReadback counts stale g) := by
    unfold settleReadback
    split
    · split <;> exact ⟨rfl, rfl, rfl⟩
    · exact ⟨rfl, rfl, rfl⟩
  refine hback.trans ?_
  unfold settleBase
  split
  · exact ⟨rfl, rfl, rfl⟩
  · split <;> exact ⟨rfl, rfl, rfl⟩

theorem settleRun_twin (cleared : Bool) {g r : Gf} (h : g.Twin r) :
    (settleRun cleared g).Twin (settleRun cleared r) := by
  refine ⟨h.alike.map (settleRun cleared) fun _ _ => rfl, ?_, h.analog⟩
  cases h.mode with
  | live hp hs hf hl => exact .live hp hs hf hl
  | failed hp hs hf => exact .failed hp hs hf
  | spent hg hr =>
    -- a run that is settled no longer plays
    have hspent : ∀ u : Gf, u.spent = true → (settleRun cleared u).spent = true := by
      intro u hu
      simp only [Gf.spent, Bool.and_eq_true] at hu ⊢
      exact ⟨⟨hu.1.1, rfl⟩, hu.2⟩
    exact .spent (hspent g hg) (hspent r hr)

theorem pendingDone_abreast (cleared : Bool) (counts counts' : Option Steps) (zeros : Nat)
    (h : s.Twin t) :
    Abreast (pendingDone cleared counts zeros s) (pendingDone cleared counts' zeros t) := by
  refine ⟨⟨settleRun_twin cleared ?_, h.flags⟩, .same .lock rfl⟩
  exact h.gf.still (settle_still _ _ _) (settle_still _ _ _)

theorem pendingOurs_abreast (h : s.Twin t) : Abreast (pendingOurs s) (pendingOurs t) := by
  have hpending : t.gf.runPending = s.gf.runPending := h.gf.alike.frame Gf.runPending rfl
  unfold pendingOurs
  rw [hpending, h.gf.alike.kernelRunning]
  split
  · refine ⟨⟨?_, h.flags⟩, ?_⟩
    · exact h.gf.map (fun g => { g with runPending := false, failed := true }) (fun _ _ => rfl)
        (fun _ => rfl) (fun _ _ => rfl) (fun _ => rfl)
    · dsimp only
      rw [h.gf.alike.failed]
      split <;> exact .same _ rfl
  · exact ⟨⟨h.gf, h.flags⟩, .same .lock rfl⟩

/-- A fault's pad ends the fire state of the one whose last byte is lit. -/
theorem faultPad_twin (ok : Bool) (h : s.gf.Twin t.gf) : (faultPad ok s).gf.Twin (faultPad ok t).gf := by
  have hpad : ∀ u : State, u.gf.Alike (faultPad ok u).gf ∧ u.gf.Kept (faultPad ok u).gf ∧
      (faultPad ok u).gf.dithPeriod = u.gf.dithPeriod ∧
      (u.gf.failed = false → (faultPad ok u).gf = u.gf) := by
    intro u
    unfold faultPad
    split
    · next hc =>
      refine ⟨rfl, rfl, rfl, fun hf => ?_⟩
      rw [hf] at hc
      cases hc
    · exact ⟨rfl, rfl, rfl, fun _ => rfl⟩
  obtain ⟨salike, skept, smodel, ssame⟩ := hpad s
  obtain ⟨talike, tkept, -, tsame⟩ := hpad t
  cases hfailed : s.gf.failed with
  | false =>
    rw [ssame hfailed, tsame (h.alike.failed.trans hfailed)]
    exact h
  | true =>
    refine ⟨salike.symm.trans (h.alike.trans talike), ?_, smodel.trans h.analog⟩
    have hstays : (faultPad ok s).gf.failed = true := salike.failed.trans hfailed
    have hcursor : t.gf.produced = s.gf.produced → t.gf.shipped = s.gf.shipped →
        (faultPad ok s).gf.Mode (faultPad ok t).gf := fun hp hs =>
      .failed (by rw [tkept.cursor.1, skept.cursor.1, hp]) (by rw [tkept.cursor.2, skept.cursor.2, hs])
        hstays
    cases h.mode with
    | live hp hs => exact hcursor hp hs
    | failed hp hs => exact hcursor hp hs
    | spent hsg hsr => exact .spent (skept.spent.trans hsg) (tkept.spent.trans hsr)

theorem shipLock_abreast (h : s.Twin t) : Abreast (shipLock e s) (shipLock e t) := by
  have hgate : t.fireGate = s.fireGate := congrArg Flags.fireGate h.flags
  have hflags : ∀ u : State, (faultPad e.ok u).flags = u.flags := by
    intro u
    unfold faultPad
    split <;> rfl
  unfold shipLock
  rw [h.gf.alike.failed, h.gf.alike.suspended]
  split
  · exact ⟨⟨faultPad_twin e.ok h.gf, ((hflags t).trans h.flags).trans (hflags s).symm⟩, .same .check rfl⟩
  · refine ⟨⟨h.gf, h.flags⟩, ?_⟩
    change ShipPc.Beside (.sampled s.fireGate) (.sampled t.fireGate)
    rw [hgate]
    exact .same _ rfl

theorem exchangeFailed_abreast (next : Raised) (hout : next.pc.writes = false) (h : s.Twin t) :
    Abreast (exchangeFailed next s) (exchangeFailed next t) := by
  refine ⟨⟨fail_twin h.gf, h.flags⟩, ?_⟩
  simp only [exchangeFailed]
  rw [h.gf.alike.failed]
  split
  · exact .same _ hout
  · exact .same _ rfl

theorem issueRelight_abreast (h : s.Twin t) : Abreast (issueRelight e s) (issueRelight e t) := by
  obtain ⟨htook, hflags⟩ := latchWriteLocked_twin false e.ok h.flags
  have harmed : t.laserArmed = s.laserArmed := congrArg Flags.laserArmed h.flags
  have hgate : t.fireGate = s.fireGate := congrArg Flags.fireGate h.flags
  have hlocked : t.latchLockedByUs = s.latchLockedByUs := congrArg Flags.latchLockedByUs h.flags
  have hcond : (t.laserArmed && t.fireGate && t.latchLockedByUs) =
      (s.laserArmed && s.fireGate && s.latchLockedByUs) := by rw [harmed, hgate, hlocked]
  unfold issueRelight
  rw [hcond]
  split
  · refine ⟨⟨h.gf, hflags⟩, ?_⟩
    dsimp only
    rw [htook]
    split <;> exact .same _ rfl
  · exact ⟨⟨h.gf, h.flags⟩, .same _ rfl⟩

theorem issueEnd_abreast (relight : Bool) (rc : Int) (h : s.Twin t) :
    Abreast (issueEnd e relight rc s) (issueEnd e relight rc t) := by
  obtain ⟨-, hflags⟩ := latchWriteLocked_twin true e.ok h.flags
  have hcond : (relight && !t.laserArmed) = (relight && !s.laserArmed) := by
    rw [show t.laserArmed = s.laserArmed from congrArg Flags.laserArmed h.flags]
  unfold issueEnd
  rw [hcond]
  split
  · exact ⟨⟨h.gf, hflags⟩, .same _ rfl⟩
  · exact ⟨⟨h.gf, h.flags⟩, .same _ rfl⟩

theorem latchFaultRecord_abreast (h : s.Twin t) : Abreast (latchFaultRecord s) (latchFaultRecord t) := by
  have hreported : t.latchFailReported = s.latchFailReported := congrArg Flags.latchFailReported h.flags
  refine ⟨⟨h.gf, congrArg (fun f : Flags => { f with latchFailReported := true }) h.flags⟩, ?_⟩
  simp only [latchFaultRecord]
  rw [hreported]
  split <;> exact .same _ rfl

theorem shipRc_abreast (rc : Int) (h : s.Twin t) : Abreast (shipRc rc s) (shipRc rc t) := by
  unfold shipRc
  split
  · refine ⟨⟨?_, h.flags⟩, .same .check rfl⟩
    exact h.gf.map (fun g => { g with runPending := true }) (fun _ _ => rfl) (fun _ => rfl) (fun _ => id)
      (fun _ => rfl)
  · split
    · exact exchangeFailed_abreast .check rfl h
    · exact ⟨⟨h.gf, h.flags⟩, .same .check rfl⟩

theorem runTest_abreast (startRun : Bool) (base written base' written' : UInt32) (h : s.Twin t) :
    Abreast (runTest startRun base written s) (runTest startRun base' written' t) := by
  refine ⟨⟨h.gf, h.flags⟩, ?_⟩
  simp only [runTest, h.gf.alike.active, h.gf.alike.failed]
  split
  · exact .gateState _ _ _ _
  · exact .same _ rfl

theorem checkSnapshot_abreast (h : s.Twin t) : Abreast (checkSnapshot s) (checkSnapshot t) := by
  refine ⟨⟨h.gf, h.flags⟩, ?_⟩
  simp only [checkSnapshot, h.gf.alike.active, h.gf.alike.kernelRunning, h.gf.alike.failed,
    h.gf.alike.suspended]
  split <;> exact .same _ rfl

/-- The readings of `cnc/state` that twins act on alike. -/
theorem pendingState_abreast (clear : Bool) (zeros : Nat) (h : s.Twin t)
    (hread : readState e t = readState e s) :
    Abreast (pendingState e clear zeros s) (pendingState e clear zeros t) := by
  refine ⟨⟨h.gf, h.flags⟩, ?_⟩
  simp only [pendingState, hread]
  split <;> split <;> exact .same _ rfl

theorem pendingSeek_abreast (zeros : Nat) (h : s.Twin t) (htakes : seekTakes e t = seekTakes e s) :
    Abreast (pendingSeek e zeros s) (pendingSeek e zeros t) := by
  unfold pendingSeek
  rw [htakes]
  split
  · exact ⟨⟨h.gf, h.flags⟩, .same _ rfl⟩
  · exact ⟨⟨h.gf, h.flags⟩, .same _ rfl⟩

theorem runGateState_abreast (base written base' written' : UInt32) (h : s.Twin t)
    (hread : readState e t = readState e s) :
    Abreast (runGateState e base written s) (runGateState e base' written' t) := by
  refine ⟨⟨h.gf, h.flags⟩, ?_⟩
  simp only [runGateState, hread]
  split <;> first | exact .same _ rfl | exact .gateCounts _ _ _ _

theorem runGateCounts_abreast (base written base' written' : UInt32) (h : s.Twin t)
    (hcounts : (!e.readOk || t.kernel.processed != base' ||
        (t.kernel.took != written' && t.kernel.took != 0xFFFFFFFF)) =
      (!e.readOk || s.kernel.processed != base ||
        (s.kernel.took != written && s.kernel.took != 0xFFFFFFFF))) :
    Abreast (runGateCounts e base written s) (runGateCounts e base' written' t) := by
  refine ⟨⟨h.gf, h.flags⟩, ?_⟩
  simp only [runGateCounts]
  rw [hcounts]
  split <;> exact .same _ rfl

theorem issueState_abreast (relight retried noData : Bool) (h : s.Twin t)
    (hread : readState e t = readState e s) :
    Abreast (issueState e relight retried noData s) (issueState e relight retried noData t) := by
  have harmed : t.laserArmed = s.laserArmed := congrArg Flags.laserArmed h.flags
  refine ⟨⟨h.gf, h.flags⟩, ?_⟩
  simp only [issueState, hread, harmed]
  split
  · split <;> exact .same _ rfl
  · exact .same _ rfl
  · split <;> exact .same _ rfl
  · exact .same _ rfl

theorem checkState_abreast (h : s.Twin t) (hread : readState e t = readState e s) :
    Abreast (checkState e s) (checkState e t) := by
  refine ⟨⟨h.gf, h.flags⟩, ?_⟩
  simp only [checkState, hread]
  split <;> exact .same _ rfl

theorem issueWrite_abreast (relight retried : Bool) (h : s.Twin t)
    (hreply : t.kernel.runReply e.ok = s.kernel.runReply e.ok) :
    Abreast (issueWrite e relight retried s) (issueWrite e relight retried t) := by
  refine ⟨⟨h.gf, h.flags⟩, ?_⟩
  simp only [issueWrite, hreply]
  split <;> exact .same _ rfl

/-- **A step of the shipper keeps twins abreast**, outside the body of a pass, if the device answers
both alike. -/
theorem shipStep_twin (h : Abreast s t) (hbody : s.pc.holdsLock = false)
    (hanswer : answer e t = answer e s) : Abreast (shipStep e s) (shipStep e t) := by
  obtain ⟨htwin, hpc⟩ := h
  unfold answer at hanswer
  unfold shipStep
  generalize hs : s.pc = p at hpc hbody hanswer ⊢
  generalize ht : t.pc = q at hpc hanswer ⊢
  cases hpc with
  | pendDone cleared counts counts' zeros => exact pendingDone_abreast cleared counts counts' zeros htwin
  | runTest startRun base written base' written' => exact runTest_abreast startRun _ _ _ _ htwin
  | gateState base written base' written' =>
    exact runGateState_abreast e _ _ _ _ htwin (congrArg Answer.state hanswer)
  | gateCounts base written base' written' =>
    exact runGateCounts_abreast e _ _ _ _ htwin (Bool.not_inj (congrArg Answer.took hanswer))
  | same _ hout =>
    cases p with
    | top => exact pendingSnapshot_abreast e htwin
    | pendState clear zeros => exact pendingState_abreast e clear zeros htwin (congrArg Answer.state hanswer)
    | pendSeek zeros => exact pendingSeek_abreast e zeros htwin (congrArg Answer.took hanswer)
    | pendCount zeros => exact ⟨⟨htwin.gf, htwin.flags⟩, .pendDone _ _ _ _⟩
    | pendDone cleared counts zeros => exact pendingDone_abreast cleared counts counts zeros htwin
    | pendOurs => exact pendingOurs_abreast htwin
    | lock => exact shipLock_abreast e htwin
    | sampled gate => cases hbody
    | writing p c rest => cases hout
    | wrote p c ok => cases hout
    | runTest startRun base written => exact runTest_abreast startRun _ _ _ _ htwin
    | gateState base written =>
      exact runGateState_abreast e _ _ _ _ htwin (congrArg Answer.state hanswer)
    | gateCounts base written =>
      exact runGateCounts_abreast e _ _ _ _ htwin (Bool.not_inj (congrArg Answer.took hanswer))
    | gateFault => exact exchangeFailed_abreast .check rfl htwin
    | runLatch => exact issueRelight_abreast e htwin
    | runWrite relight retried =>
      exact issueWrite_abreast e relight retried htwin (Option.some_inj.mp (congrArg Answer.reply hanswer))
    | runState relight retried noData =>
      exact issueState_abreast e relight retried noData htwin (congrArg Answer.state hanswer)
    | runStop relight => exact ⟨⟨htwin.gf, htwin.flags⟩, .same _ rfl⟩
    | runFault relight stop =>
      exact exchangeFailed_abreast (.runEnd relight (-1)) rfl ⟨htwin.gf, htwin.flags⟩
    | runEnd relight rc => exact issueEnd_abreast e relight rc htwin
    | latchFault => exact latchFaultRecord_abreast htwin
    | latchFail => exact ⟨⟨fail_twin htwin.gf, htwin.flags⟩, .same _ rfl⟩
    | runRc rc => exact shipRc_abreast rc htwin
    | check => exact checkSnapshot_abreast htwin
    | checkState => exact checkState_abreast e htwin (congrArg Answer.state hanswer)
    | checkFault => exact exchangeFailed_abreast .top rfl htwin
    | raise next => exact ⟨⟨htwin.gf, htwin.flags⟩, .same _ (by cases next <;> rfl)⟩

end Steps

end Glowforge.Stream
