import Glowforge.Stream.Schedule

/-!
# Glowforge — one schedule under both dose models

The two runs side by side:

* **`Both`** — the analog run and the density run, each with its output. Calls come between passes
  and are the same in both; in a pass the clock readings and the device's answers are. The density
  model is set in the second run, before its first wakeup.
* **`sideStep_bytes`** — the tick bytes of an output are the bytes of its ticks.
* **`density_only_withholds`** — where every handover finds the cursor level with what is produced,
  the ticks of the two runs agree but for the FIRE bits that the density model withholds, and the
  level and the fire state in force agree behind every tick.
* **`density_ships_more`** — where one does not, the runs part.
-/

namespace Glowforge.Stream

/-! ## Ticks and bytes

The output of a run, its ticks and the bytes that carry them. -/

theorem padDue_round {e : Env} {s u : State} {p : Pass} (hround : RoundAt e s p u)
    (hdue : tickDue p.due u.gf.streaming u.gf = true) : padDue s = false := by
  cases hround with
  | next hpc => rw [padDue, hpc]
  | @first gate hpc =>
    have hmarks := gateEdge_marks gate s.gf
    have hstreaming : (gateEdge gate s.gf).streaming = s.gf.streaming := congrArg Marks.streaming hmarks
    have hproduced : (gateEdge gate s.gf).produced = s.gf.produced := congrArg Marks.produced hmarks
    have hshipped : (gateEdge gate s.gf).shipped = s.gf.shipped := congrArg Marks.shipped hmarks
    have hmore : (s.gf.streaming || decide (s.gf.shipped < s.gf.produced)) = true := by
      rw [← hstreaming, ← hproduced, ← hshipped]
      exact (Bool.and_eq_true_iff.mp hdue).2
    rw [padDue, hpc]
    cases hlive : s.gf.streaming with
    | true => rfl
    | false =>
      rw [hlive, Bool.false_or, decide_eq_true_eq] at hmore
      have hbacklog : (s.gf.produced - s.gf.shipped == 0) = false :=
        beq_false_of_ne (Nat.sub_ne_zero_of_lt hmore)
      rw [hbacklog]
      rfl

/-- A step of the shipper hands over the bytes of its ticks, or a pad. -/
theorem shipStep_bytes (e : Env) (s : State) :
    (if padDue s then [] else handed s (shipStep e s)).filter isTick =
      (roundTicks e s).map Tick.byte := by
  cases shipStep_hands e s with
  | chunk hround hdue ht =>
    rw [padDue_round hround hdue, roundTicks_chunk hround ht, ht, handed_chunk hround]
    exact buildTicks_bytes shipChunk _ []
  | pad hdump _ _ _ hwrite =>
    have hticks : roundTicks e s = [] := by
      unfold roundTicks
      split
      · next hpc hpc' =>
        rw [hpc, hpc'] at hwrite
        exact absurd (hwrite rfl) (by rintro ⟨⟩)
      · next hpc hpc' =>
        rw [hpc, hpc'] at hwrite
        exact absurd (hwrite rfl) (by rintro ⟨⟩)
      · rfl
    rw [handed_append hdump, hticks]
    cases padDue s <;> rfl

/-- The tick bytes of an output are the bytes of its ticks. -/
def Output.Told (out : Output) : Prop := out.bytes.filter isTick = out.ticks.map Tick.byte

theorem sideStep_bytes {x y : Side} {l : Label} (h : x.2.Told) (hstep : sideStep x l = some y) :
    y.2.Told := by
  obtain ⟨s, out⟩ := x
  obtain ⟨t, out'⟩ := y
  obtain ⟨-, rfl⟩ := Runs.observe_eq_some.mp hstep
  cases l with
  | ship e =>
    change (out.bytes ++ _).filter isTick = (out.ticks ++ _).map Tick.byte
    rw [List.filter_append, List.map_append, shipStep_bytes, show out.bytes.filter isTick = _ from h]
  | _ => exact h

theorem finishWrites_bytes {x y : Side} {ls : List Label} (h : x.2.Told)
    (hrun : finishWrites x ls = some y) : y.2.Told := by
  obtain ⟨hexec, -⟩ := Option.filter_eq_some_iff.mp hrun
  exact (Runs.reach_of_exec hexec).invariant (P := fun z : Side => z.2.Told) h
    fun x l y hx _ hstep => sideStep_bytes hx hstep

theorem finishWrites_pastClear {x y : Side} {ls : List Label} (h : pastClear x.1 = true)
    (hrun : finishWrites x ls = some y) : pastClear y.1 = true := by
  obtain ⟨hexec, -⟩ := Option.filter_eq_some_iff.mp hrun
  refine (Runs.reach_of_exec hexec).invariant (P := fun z : Side => pastClear z.1 = true) h ?_
  rintro ⟨s, out⟩ l ⟨t, out'⟩ hx hok hstep
  obtain ⟨hs, -⟩ := Runs.observe_eq_some.mp hstep
  have hturn := (step_eq_some.mp hs).2
  cases l with
  | ship e =>
    cases hturn
    exact shipStep_pastClear hx
  | kernel a =>
    obtain ⟨k, -, rfl⟩ := Option.map_eq_some_iff.mp hturn
    exact hx
  | _ => cases (Bool.and_eq_true_iff.mp hok).2

/-! ## The two runs

One schedule for two machines: the calls are the same, and so are the device's answers within a
pass. -/

/-- The shipper is between two passes. -/
def ShipPc.between : ShipPc → Bool
  | .top | .check => true
  | _ => false

/-- The runs of one schedule, and whether a wakeup has come. -/
structure Both where
  analog : Side
  density : Side
  woken : Bool

inductive BothLabel where
  -- The same call in both runs, between two passes.
  | call (l : Label)
  -- `gf_stream_laser_model` in the density run, before the first wakeup.
  | model (periodTicks minTicks : UInt32)
  -- The same step of both shippers; a chunk that one builds is written, and so are the next.
  | ship (e : Env) (writes writes' : List Label)
  -- A pass that is over in the analog run goes on in the density run.
  | behind (e : Env) (writes : List Label)
  -- The device of one run: its kernel, or the process it is handed to.
  | device (density : Bool) (l : Label)

/-- The device's own steps. -/
def Label.isDevice : Label → Bool
  | .kernel _ | .foreign _ => true
  | _ => false

/-- A step of the shipper, with the writes that it begins. -/
def shipSide (e : Env) (writes : List Label) (x : Side) : Option Side :=
  (sideStep x (.ship e)).bind fun y => finishWrites y writes

def bothStep (w : Both) : BothLabel → Option Both
  | .call l =>
    if l.isCall && w.analog.1.pc.between && w.density.1.pc.between &&
        callAnswer w.density.1 l == callAnswer w.analog.1 l then
      (sideStep w.analog l).bind fun a => (sideStep w.density l).map fun d =>
        { analog := a, density := d, woken := w.woken || l.isWakeup }
    else none
  | .model periodTicks minTicks =>
    if w.woken then none
    else (sideStep w.density (.laserModel periodTicks minTicks)).map fun d => { w with density := d }
  | .ship e writes writes' =>
    if answer e w.density.1 = answer e w.analog.1 then
      (shipSide e writes w.analog).bind fun a => (shipSide e writes' w.density).map fun d =>
        { w with analog := a, density := d }
    else none
  | .behind e writes =>
    if w.analog.1.pc.between && !w.density.1.pc.between then
      (shipSide e writes w.density).map fun d => { w with density := d }
    else none
  | .device density l =>
    if !l.isDevice then none
    else if density then (sideStep w.density l).map fun d => { w with density := d }
    else (sideStep w.analog l).map fun a => { w with analog := a }

def Side.init (c : Config) (k : Kernel) (emptied counted : Bool) : Side :=
  (State.init c k emptied counted, ⟨[], []⟩)

/-- Both runs begin alike. -/
def Both.init (c : Config) (k : Kernel) (emptied counted : Bool) : Both where
  analog := Side.init c k emptied counted
  density := Side.init c k emptied counted
  woken := false

/-- A handover finds the cursor level with what is produced, in both runs. -/
def levelHandovers (w : Both) : BothLabel → Bool
  | .call l => handsOverLevel w.analog.1 l && handsOverLevel w.density.1 l
  | _ => true

/-- The outputs agree but for the FIRE bits that the density model withholds. -/
structure Agree (analog density : Output) : Prop where
  ticks : List.Forall₂ Withheld analog.ticks density.ticks
  analog : analog.Told
  density : density.Told

/-- What every such run keeps. -/
structure BothInv (w : Both) : Prop where
  agree : Agree w.analog.2 w.density.2
  abreast : Abreast w.analog.1 w.density.1
  past : pastClear w.analog.1 = true
  asleep : w.woken = false → Asleep w.analog.1.gf

/-! ## The steps

Each label of the schedule takes twins to twins and tells both outputs the same ticks. -/

theorem ShipPc.Beside.out {p q : ShipPc} (h : p.Beside q) : p.writes = false ∧ q.writes = false := by
  cases h with
  | same pc hout => exact ⟨hout, hout⟩
  | _ => exact ⟨rfl, rfl⟩

theorem ShipPc.Beside.between {p q : ShipPc} (h : p.Beside q) : q.between = p.between := by
  cases h with
  | _ => rfl

theorem pastClear_of_between {s : State} (h : s.pc.between = true) : pastClear s = true := by
  cases hpc : s.pc with
  | top =>
    have hsite : s.pc.site = .top := by rw [hpc]; rfl
    exact pastClear_of_rest hsite (by rintro ⟨⟩) (by rintro ⟨⟩)
  | check =>
    have hsite : s.pc.site = .rest := by rw [hpc]; rfl
    exact pastClear_of_rest hsite (by rintro ⟨⟩) (by rintro ⟨⟩)
  | _ =>
    rw [hpc] at h
    cases h

/-- A step that is not the shipper's leaves the output alone. -/
theorem sideStep_turn {x y : Side} {l : Label} (hship : ∀ e, l ≠ .ship e) (h : sideStep x l = some y) :
    turn x.1 l = some y.1 ∧ y.2 = x.2 := by
  obtain ⟨s, out⟩ := x
  obtain ⟨t, out'⟩ := y
  obtain ⟨hs, rfl⟩ := Runs.observe_eq_some.mp h
  refine ⟨(step_eq_some.mp hs).2, ?_⟩
  cases l with
  | ship e => exact absurd rfl (hship e)
  | _ => rfl

/-- The density model of a run that no stream has begun in. -/
theorem laserModel_twin (periodTicks minTicks : UInt32) {g r : Gf} (h : g.Twin r) (hdark : g.curPower = 0) :
    g.Twin (gfStreamLaserModel periodTicks minTicks r) := by
  have hpower : r.curPower = 0 := (h.alike.frame Gf.curPower rfl).trans hdark
  obtain ⟨power, period, least, hmodel⟩ := laserModel_frame periodTicks minTicks r
  have hzero : power = 0 := by
    have hkept : (gfStreamLaserModel periodTicks minTicks r).curPower = r.curPower ∨
        (gfStreamLaserModel periodTicks minTicks r).curPower = 0 := by
      unfold gfStreamLaserModel
      dsimp only
      split_ifs <;> first | exact .inl rfl | exact .inr rfl
    rw [hmodel, hpower] at hkept
    exact hkept.elim id id
  have hstill : r.Alike (gfStreamLaserModel periodTicks minTicks r) := by
    rw [hmodel, hzero, ← hpower]
    rfl
  refine ⟨h.alike.trans hstill, ?_, h.analog⟩
  rw [hmodel]
  exact h.mode.keep rfl rfl id id id

section Steps

variable {w v : Both}

theorem BothInv.call {l : Label} (h : BothInv w) (hlevel : levelHandovers w (.call l) = true)
    (hstep : bothStep w (.call l) = some v) : BothInv v := by
  simp only [bothStep] at hstep
  split at hstep
  case isFalse => cases hstep
  next hgo =>
  simp only [Bool.and_eq_true, beq_iff_eq] at hgo
  obtain ⟨⟨⟨hcall, hbetween⟩, -⟩, hanswer⟩ := hgo
  obtain ⟨a, ha, hmap⟩ := Option.bind_eq_some_iff.mp hstep
  obtain ⟨d, hd, rfl⟩ := Option.map_eq_some_iff.mp hmap
  have hship : ∀ e, l ≠ .ship e := by
    rintro e rfl
    cases hcall
  obtain ⟨haturn, haout⟩ := sideStep_turn hship ha
  obtain ⟨hdturn, hdout⟩ := sideStep_turn hship hd
  obtain ⟨hslevel, htlevel⟩ := Bool.and_eq_true_iff.mp hlevel
  have hapc := (turn_turned haturn hship).pc
  have hdpc := (turn_turned hdturn hship).pc
  refine ⟨?_, ⟨?_, ?_⟩, ?_, fun hwoken => ?_⟩
  · change Agree a.2 d.2
    rw [haout, hdout]
    exact h.agree
  · exact turn_twin h.abreast.twin haturn hdturn hcall hanswer hslevel htlevel
  · change a.1.pc.Beside d.1.pc
    rw [hapc, hdpc]
    exact h.abreast.pc
  · exact pastClear_of_between (by rw [hapc]; exact hbetween)
  · obtain ⟨hnot, hwakeup⟩ := Bool.or_eq_false_iff.mp hwoken
    exact turn_asleep (h.asleep hnot) haturn hcall hwakeup

theorem BothInv.model {periodTicks minTicks : UInt32} (h : BothInv w)
    (hstep : bothStep w (.model periodTicks minTicks) = some v) : BothInv v := by
  simp only [bothStep] at hstep
  split at hstep
  case isTrue => cases hstep
  next hnot =>
  obtain ⟨d, hd, rfl⟩ := Option.map_eq_some_iff.mp hstep
  obtain ⟨hturn, hout⟩ := sideStep_turn (fun e he => by cases he) hd
  have hdark := (h.asleep (Bool.not_eq_true _ ▸ hnot)).curPower
  have hd1 : d.1 = { w.density.1 with gf := gfStreamLaserModel periodTicks minTicks w.density.1.gf } :=
    (Option.some_inj.mp hturn).symm
  refine ⟨?_, ?_, h.past, h.asleep⟩
  · change Agree _ d.2
    rw [hout]
    exact h.agree
  · change Abreast _ d.1
    rw [hd1]
    exact ⟨⟨laserModel_twin periodTicks minTicks h.abreast.twin.gf hdark, h.abreast.twin.flags⟩, h.abreast.pc⟩

/-- A side whose record, flags and output are as they were. -/
structure SameSide (x y : Side) : Prop where
  gf : y.1.gf = x.1.gf
  flags : y.1.flags = x.1.flags
  pc : y.1.pc = x.1.pc
  out : y.2 = x.2

theorem BothInv.same {a d : Side} (h : BothInv w) (ha : SameSide w.analog a) (hd : SameSide w.density d) :
    BothInv { w with analog := a, density := d } := by
  refine ⟨?_, ⟨⟨?_, ?_⟩, ?_⟩, ?_, fun hwoken => ?_⟩
  · change Agree a.2 d.2
    rw [ha.out, hd.out]
    exact h.agree
  · change a.1.gf.Twin d.1.gf
    rw [ha.gf, hd.gf]
    exact h.abreast.twin.gf
  · exact (hd.flags.trans h.abreast.twin.flags).trans ha.flags.symm
  · change a.1.pc.Beside d.1.pc
    rw [ha.pc, hd.pc]
    exact h.abreast.pc
  · change pastClear a.1 = true
    unfold pastClear
    rw [ha.pc, ha.gf]
    exact h.past
  · change Asleep a.1.gf
    rw [ha.gf]
    exact h.asleep hwoken

/-- The device moves in no side but for its kernel. -/
theorem device_same {x y : Side} {l : Label} (hdevice : l.isDevice = true) (hstep : sideStep x l = some y) :
    SameSide x y := by
  have hship : ∀ e, l ≠ .ship e := by
    rintro e rfl
    cases hdevice
  obtain ⟨hturn, hout⟩ := sideStep_turn hship hstep
  cases l with
  | kernel a =>
    obtain ⟨k, -, hk⟩ := Option.map_eq_some_iff.mp hturn
    refine ⟨?_, ?_, ?_, hout⟩ <;> rw [← hk]
    rfl
  | «foreign» k =>
    have hk := Option.some_inj.mp hturn
    refine ⟨?_, ?_, ?_, hout⟩ <;> rw [← hk]
    rfl
  | _ => cases hdevice

theorem BothInv.device {density : Bool} {l : Label} (h : BothInv w)
    (hstep : bothStep w (.device density l) = some v) : BothInv v := by
  simp only [bothStep] at hstep
  split at hstep
  case isTrue => cases hstep
  next hnot =>
  have hdevice : l.isDevice = true := by simpa using hnot
  split at hstep
  · obtain ⟨d, hd, rfl⟩ := Option.map_eq_some_iff.mp hstep
    exact h.same ⟨rfl, rfl, rfl, rfl⟩ (device_same hdevice hd)
  · obtain ⟨a, ha, rfl⟩ := Option.map_eq_some_iff.mp hstep
    exact h.same (device_same hdevice ha) ⟨rfl, rfl, rfl, rfl⟩

/-- A step of the shipper and its writes, on one side. -/
theorem shipSide_eq {e : Env} {writes : List Label} {x y : Side} (h : shipSide e writes x = some y) :
    finishWrites (shipStep e x.1, recordOut x.1 (.ship e) x.2) writes = some y := by
  obtain ⟨z, hz, hy⟩ := Option.bind_eq_some_iff.mp h
  obtain ⟨s, out⟩ := x
  obtain ⟨t, out'⟩ := z
  obtain ⟨hs, rfl⟩ := Runs.observe_eq_some.mp hz
  have hturn := (step_eq_some.mp hs).2
  cases hturn
  exact hy

theorem shipSide_told {e : Env} {writes : List Label} {x y : Side} (htold : x.2.Told)
    (h : shipSide e writes x = some y) : y.2.Told := by
  obtain ⟨z, hz, hy⟩ := Option.bind_eq_some_iff.mp h
  exact finishWrites_bytes (sideStep_bytes htold hz) hy

/-- The shippers of both take one step, and write what they have built. -/
theorem shipSide_alike {e : Env} {writes writes' : List Label} {x y x' y' : Side} (h : Abreast x.1 y.1)
    (hpast : pastClear x.1 = true) (hanswer : answer e y.1 = answer e x.1)
    (hx : shipSide e writes x = some x') (hy : shipSide e writes' y = some y') :
    ShipsAlike x.2 y.2 x' y' := by
  have hx := shipSide_eq hx
  have hy := shipSide_eq hy
  cases hbody : x.1.pc.holdsLock with
  | false =>
    have hnext := shipStep_twin e h hbody hanswer
    exact .of_abreast e hnext hnext.pc.out.1 hnext.pc.out.2 hx hy
  | true =>
    cases hpc : x.1.pc with
    | sampled gate =>
      have hpc' : y.1.pc = .sampled gate := by
        have hbeside := h.pc
        rw [hpc] at hbeside
        generalize y.1.pc = q at hbeside
        cases hbeside with
        | same => rfl
      have hclear : (gateEdge gate x.1.gf).clear = true := by
        have hkept : (gateEdge gate x.1.gf).clear = x.1.gf.clear := by
          unfold gateEdge
          split_ifs <;> rfl
        unfold pastClear at hpast
        rw [hpc] at hpast
        exact hkept.trans hpast
      have hedge : State.Twin { x.1 with gf := gateEdge gate x.1.gf } { y.1 with gf := gateEdge gate y.1.gf } :=
        ⟨gateEdge_twin gate h.twin.gf, h.twin.flags⟩
      exact shipGated_twin e hedge hpc hpc' rfl rfl hclear hx hy
    | _ =>
      rw [hpc] at hbody
      cases hbody

theorem BothInv.ship {e : Env} {writes writes' : List Label} (h : BothInv w)
    (hstep : bothStep w (.ship e writes writes') = some v) : BothInv v := by
  simp only [bothStep] at hstep
  split at hstep
  case isFalse => cases hstep
  next hanswer =>
  obtain ⟨a, ha, hmap⟩ := Option.bind_eq_some_iff.mp hstep
  obtain ⟨d, hd, rfl⟩ := Option.map_eq_some_iff.mp hmap
  obtain ⟨habreast, ts, us, hats, hdts, hwithheld⟩ := shipSide_alike h.abreast h.past hanswer ha hd
  refine ⟨⟨?_, ?_, ?_⟩, habreast, ?_, fun hwoken => ?_⟩
  · change List.Forall₂ Withheld a.2.ticks d.2.ticks
    rw [hats, hdts]
    exact List.rel_append h.agree.ticks hwithheld
  · exact shipSide_told h.agree.analog ha
  · exact shipSide_told h.agree.density hd
  · exact finishWrites_pastClear (shipStep_pastClear h.past) (shipSide_eq ha)
  · obtain ⟨hasleep, hout⟩ := shipStep_asleep (e := e) (h.asleep hwoken) h.abreast.pc.out.1
    rw [show a = _ from finishWrites_none hout (shipSide_eq ha)]
    exact hasleep

/-- **A step of the two runs** keeps them abreast: a call of both, the model set in the second, a
step of both shippers, the rest of a pass that is over in the first, or a turn of one run's device.
-/
theorem BothInv.step {l : BothLabel} (h : BothInv w) (hlevel : levelHandovers w l = true)
    (hstep : bothStep w l = some v) : BothInv v := by
  cases l with
  | call l => exact h.call hlevel hstep
  | model periodTicks minTicks => exact h.model hstep
  | ship e writes writes' => exact h.ship hstep
  | device density l => exact h.device hstep
  | behind e writes =>
    -- twins end their passes together
    simp only [bothStep] at hstep
    rw [h.abreast.pc.between, Bool.and_not_self] at hstep
    cases hstep

end Steps

/-! ## The runs

The simulation over every schedule that meets the condition, and the handover at which the runs
part. -/

theorem BothInv.init (c : Config) (k : Kernel) (emptied counted : Bool) :
    BothInv (Both.init c k emptied counted) := by
  have hgf : ∀ g : Gf, g = rebaseAtTakeover (takeoverEmpties c.inherited emptied k) counted k (Gf.init c) ∨
      g = Gf.init c → g.dithPeriod = 0 ∧ Asleep g := by
    rintro g (rfl | rfl)
    · unfold rebaseAtTakeover
      split <;> exact ⟨rfl, rfl, rfl⟩
    · exact ⟨rfl, rfl, rfl⟩
  have hstart : (State.init c k emptied counted).gf.dithPeriod = 0 ∧
      Asleep (State.init c k emptied counted).gf := by
    refine hgf _ ?_
    simp only [State.init]
    split
    · exact .inl rfl
    · exact .inr rfl
  exact ⟨⟨.nil, rfl, rfl⟩, ⟨⟨⟨rfl, .live rfl rfl rfl rfl, hstart.1⟩, rfl⟩, .same .top rfl⟩, rfl,
    fun _ => hstart.2⟩

/-- **The density model only withholds ticks.** One schedule of calls, clock readings, device answers
and passes is run twice, once in the analog model and once with a density model that is set before the
first wakeup, and no write fails. If every handover that finds a stream over and the kernel idle finds
the cursor level with what is produced, the outputs agree tick by tick with the FIRE bits masked out,
every tick that is lit in the density run is lit in the analog one, and the level and the fire state in
force agree behind every tick. -/
theorem density_only_withholds {c : Config} {k : Kernel} {emptied counted : Bool} {w : Both}
    (hrun : Runs.Reach bothStep (fun w l => levelHandovers w l = true) (Both.init c k emptied counted) w) :
    Agree w.analog.2 w.density.2 := by
  have hinv : BothInv w :=
    hrun.invariant (BothInv.init c k emptied counted) fun _ _ _ h hlevel hstep => h.step hlevel hstep
  exact hinv.agree

/-- A stream whose shipping overtakes what is produced: the core asks for fire at level 1, the second
pass ships five ticks that no step has come for, and the stream ends. -/
def overtaken : List BothLabel :=
  let calls (ls : List Label) : List BothLabel := ls.map .call
  let steps (n : Nat) : List BothLabel := List.replicate n (.ship {} [] [])
  let writes (n : Nat) : List Label := List.replicate n (.ship {})
  [BothLabel.model 1000 1] ++
  calls [.laserArm true, .fireGate true, .enter .wakeup, .locked .wakeup 0,
    .enter (.laser 1 true), .locked (.laser 1 true) 0] ++
  -- the preload ships, and the kernel runs
  steps 2 ++ [BothLabel.ship {} (writes 23) (writes 23)] ++ steps 9 ++
  -- five milliseconds later
  steps 2 ++ [BothLabel.ship { now := 5000000, later := 5000000 } (writes 8) (writes 7)] ++ steps 3 ++
  calls [.goIdle false 0 0] ++ steps 4

/-- The analog run fires where the density run withholds, and the outputs agree. -/
theorem density_only_withholds_overtaken :
    ∃ w, Runs.Reach bothStep (fun w l => levelHandovers w l = true)
        (Both.init (slowConfig true) idleKernel true true) w ∧
      w.analog.2.ticks.length = 25 ∧ (∃ t ∈ w.analog.2.ticks, lit t.byte = true) ∧
      (∀ t ∈ w.density.2.ticks, lit t.byte = false) ∧ Agree w.analog.2 w.density.2 := by
  have hex : ∃ w, Runs.Reach bothStep (fun w l => levelHandovers w l = true)
        (Both.init (slowConfig true) idleKernel true true) w ∧
      (w.analog.2.ticks.length = 25 ∧ (∃ t ∈ w.analog.2.ticks, lit t.byte = true) ∧
        ∀ t ∈ w.density.2.ticks, lit t.byte = false) :=
    Runs.exists_reach_of_exec overtaken (by decide +kernel)
  obtain ⟨w, hrun, hlength, hlit, hdark⟩ := hex
  exact ⟨w, hrun, hlength, hlit, hdark, density_only_withholds hrun⟩

/-- Both kernels play out, a handover is asked for, and the next stream begins: the density run ships
it alone. -/
def partedRuns : List BothLabel :=
  let play (density : Bool) (n : Nat) : List BothLabel :=
    List.replicate n (BothLabel.device density (.kernel .play)) ++ [BothLabel.device density (.kernel .runOut)]
  overtaken ++ play false 28 ++ play true 26 ++
  [BothLabel.call (.suspend true), .call (.enter .wakeup), .call (.locked .wakeup 6000000)] ++
  List.replicate 2 (BothLabel.ship {} [] []) ++
  [BothLabel.behind { now := 6000000, later := 6000000 } (List.replicate 23 (.ship {}))] ++
  List.replicate 7 (BothLabel.behind {} [])

/-- **The runs part** at a handover that one of them refuses: behind the analog run's dark pad the
cursor is level and the handover is taken, and behind the density run's dark end it has run past what
is produced and the handover is refused. -/
theorem density_ships_more :
    ¬∀ w, Runs.Reach bothStep (fun _ _ => True) (Both.init (slowConfig true) idleKernel true true) w →
      Agree w.analog.2 w.density.2 := by
  intro hall
  have hex : ∃ w, Runs.Reach bothStep (fun _ _ => True)
        (Both.init (slowConfig true) idleKernel true true) w ∧
      (w.analog.2.ticks.length = 25 ∧ w.density.2.ticks.length = 45) :=
    Runs.exists_reach_of_exec partedRuns (by decide +kernel)
  obtain ⟨w, hrun, hanalog, hdensity⟩ := hex
  have hlength := (hall w hrun).ticks.length_eq
  omega

end Glowforge.Stream
