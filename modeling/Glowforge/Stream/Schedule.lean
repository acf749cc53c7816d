import Glowforge.Stream.Density

/-!
# Glowforge — a pass as a whole

What one run does with a schedule that a second run, in the other dose model, is to follow:

* **`Output`** — what a run ships: its ticks, and the bytes handed to the sink without the dark
  pads.
* **`finishWrites`** — the chunk writes of a pass, which each run makes for itself: the two models
  cut the same ticks into different chunks.
* **`Rounds`**, **`finishWrites_rounds`** — the chunks of a pass, however it is cut, ship the ticks from
  its first index to its last.
* **`Asleep`** — before its first stream a run has no power in force, in either model.
* **`pastClear`** — the steps of a pass behind its clear, which belong together.
-/

namespace Glowforge.Stream

/-! ## The output of a run

What a run ships, as ticks and as bytes, for one side of the schedule. -/

/-- What a run ships. -/
structure Output where
  ticks : List Tick
  bytes : List UInt8

/-- A run with its output beside it. -/
abbrev Side := State × Output

/-- The ticks of the chunk that a step of the shipper builds. -/
def roundTicks (e : Env) (s : State) : List Tick :=
  match s.pc, (shipStep e s).pc with
  | .sampled gate, .writing p _ _ =>
    let u := anchor e.now { s with gf := gateEdge gate s.gf }
    builtTicks gate p.due u.gf.streaming shipChunk u.gf []
  | .wrote _ c _, .writing p _ _ =>
    builtTicks p.gate p.due s.gf.streaming shipChunk (chunkLanded c s).gf []
  | _, _ => []

/-- The shipper's steps add to the output; a dark pad does not count. -/
def recordOut (s : State) (l : Label) (out : Output) : Output :=
  match l with
  | .ship e =>
    { ticks := out.ticks ++ roundTicks e s
      bytes := out.bytes ++ if padDue s then [] else handed s (shipStep e s) }
  | _ => out

/-- One step of a run beside its output. -/
def sideStep : Side → Label → Option Side := Runs.observe step recordOut

theorem roundTicks_chunk {e : Env} {s u : State} {p : Pass} (hround : RoundAt e s p u) {g : Gf}
    {bytes : List UInt8} (hstep : shipStep e s = shipChunkOut p g bytes u) :
    roundTicks e s = builtTicks p.gate p.due u.gf.streaming shipChunk u.gf [] := by
  have hpc : (shipStep e s).pc = .writing p ⟨bytes, stepsIn bytes, !g.kernelRunning⟩
      (if g.active then bytes else []) := by rw [hstep]; rfl
  unfold roundTicks
  cases hround with
  | first hs =>
    rw [hpc]
    simp only [hs]
  | next hs hok =>
    rw [hpc]
    simp only [hs]
    rfl

theorem roundTicks_none {e : Env} {s : State} (h : (shipStep e s).pc.writes = false) :
    roundTicks e s = [] := by
  unfold roundTicks
  split
  · next hpc => rw [hpc] at h; cases h
  · next hpc => rw [hpc] at h; cases h
  · rfl

/-! ## The writes of a pass

Between two chunks a pass only writes. Its rounds are collected into one walk of the loop, with the
books of the chunks kept apart. -/

/-- A step of the writes: a byte that the device takes, a chunk that is done, or the kernel's. No
write fails. -/
def Side.writesOn (x : Side) (l : Label) : Bool :=
  x.1.pc.writes &&
  match l, x.1.pc with
  | .ship e, .writing _ _ (_ :: _) => e.ok && canTake x.1
  | .ship _, _ => true
  | .kernel _, _ => true
  | _, _ => false

/-- The writes of a pass, up to their end. -/
def finishWrites (x : Side) (ls : List Label) : Option Side :=
  (Runs.exec sideStep (fun x l => x.writesOn l = true) x ls).filter fun y => !y.1.pc.writes

/-- The record with the books of the chunks that have been written. -/
def Gf.booked (g : Gf) (runBase written : UInt32) (steps : Steps) : Gf :=
  { g with kernelRunning := true, runBase := runBase, written := written, steps := steps }

section Books

variable (g : Gf) (runBase written : UInt32) (steps : Steps)

/-- A branch whose outcomes are images is the image of the branch. -/
theorem ite_eq_map {α β : Type} (f : α → β) {c : Prop} {inst : Decidable c} {a b : α} {a' b' : β}
    (ha : a' = f a) (hb : b' = f b) : @ite β c inst a' b' = f (@ite α c inst a b) := by
  split
  · exact ha
  · exact hb

/-- Books beside what a step of the loop returns. -/
def withBooks {α : Type} (x : Gf × α) : Gf × α := (x.1.booked runBase written steps, x.2)

theorem tickLaser_booked :
    tickLaser (g.booked runBase written steps) = withBooks runBase written steps (tickLaser g) := by
  have hsame : applyDue (g.booked runBase written steps).shipped (g.booked runBase written steps).lev
      (g.booked runBase written steps).curFire (g.booked runBase written steps).curPower false =
      applyDue g.shipped g.lev g.curFire g.curPower false := rfl
  unfold tickLaser
  rw [hsame]
  obtain ⟨lev, fire, evPower, dueEv⟩ := applyDue g.shipped g.lev g.curFire g.curPower false
  cases dueEv <;> cases fire <;> rfl

theorem tickPower_booked (evPower : UInt8) (dueEv : Bool) :
    tickPower (g.booked runBase written steps) evPower dueEv =
      withBooks runBase written steps (tickPower g evPower dueEv) :=
  ite_eq_map (withBooks runBase written steps) (ite_eq_map (withBooks runBase written steps) rfl rfl)
    (ite_eq_map (withBooks runBase written steps) rfl rfl)

theorem tickReady_booked :
    tickReady (g.booked runBase written steps) = withBooks runBase written steps (tickReady g) := by
  rw [tickReady, tickLaser_booked]
  exact tickPower_booked _ _ _ _ _ _

theorem booked_undithered : Undithered (·.booked runBase written steps) where
  power := fun _ => rfl
  period := fun _ => rfl
  minimum := fun _ => rfl
  left := fun _ => rfl
  on := fun _ => rfl
  acc := fun _ => rfl
  writes := fun _ _ _ _ => rfl

theorem tickFire_booked (gate : Bool) : tickFire gate (g.booked runBase written steps) =
    withBooks runBase written steps (tickFire gate g) :=
  (booked_undithered runBase written steps).atFire (.inr rfl)

theorem tickByte_booked (gate : Bool) : tickByte gate (g.booked runBase written steps) =
    withBooks runBase written steps (tickByte gate g) :=
  congrArg (fun x : Gf × Bool =>
    (({ x.1 with
        lastLit := lit (shippedByte (g.ring (slot g.shipped)) x.2), shipped := x.1.shipped + 1 } : Gf),
      shippedByte (g.ring (slot g.shipped)) x.2))
    (tickFire_booked { g with ring := Function.update g.ring (slot g.shipped) 0 } runBase written steps gate)

theorem shipTick_booked (gate : Bool) :
    (shipTick gate (g.booked runBase written steps)).1 = (shipTick gate g).1.booked runBase written steps ∧
      tickAt gate (g.booked runBase written steps) = tickAt gate g := by
  have hbyte : tickByte gate (tickReady (g.booked runBase written steps)).1 =
      withBooks runBase written steps (tickByte gate (tickReady g).1) := by
    rw [tickReady_booked]
    exact tickByte_booked _ _ _ _ gate
  have htick : (shipTick gate (g.booked runBase written steps)).1 =
      (shipTick gate g).1.booked runBase written steps := congrArg Prod.fst hbyte
  refine ⟨htick, ?_⟩
  simp only [tickAt, htick, hbyte]
  rfl

end Books

section Run

variable {gate streaming : Bool} {due : Nat}

/-- The loop does not read the books. -/
theorem TickRun.unbook {g h : Gf} {ts : List Tick} {runBase written : UInt32} {steps : Steps}
    (hrun : TickRun gate due streaming (g.booked runBase written steps) ts h) :
    ∃ g', TickRun gate due streaming g ts g' ∧ h = g'.booked runBase written steps := by
  generalize hg : g.booked runBase written steps = u at hrun
  induction hrun generalizing g with
  | done => exact ⟨g, .done g, hg.symm⟩
  | tick hdue _ ih =>
    subst hg
    obtain ⟨htick, hat⟩ := shipTick_booked g runBase written steps gate
    obtain ⟨g', hrest, hh⟩ := ih htick.symm
    rw [hat]
    exact ⟨g', .tick hdue hrest, hh⟩

/-- The loop leaves what no tick writes. -/
theorem TickRun.frame {β : Sort _} (f : Gf → β) (hf : ∀ g x, f (Gf.ticked g x) = f g) {g h : Gf}
    {ts : List Tick} (hrun : TickRun gate due streaming g ts h) : f h = f g := by
  induction hrun with
  | done => rfl
  | tick _ _ ih =>
    obtain ⟨x, hx⟩ := shipTick_frame gate _
    rw [ih, hx, hf]

end Run

/-- Where the writes of a pass stand: in a chunk, or at the end of the pass. `startRun` says that the
pass began a kernel run. -/
inductive RoundPc (gate : Bool) (due : Nat) (startRun : Bool) : ShipPc → Prop where
  | writing {p : Pass} {c : Chunk} {rest : List UInt8} (hgate : p.gate = gate) (hdue : p.due = due)
      (hstart : (p.startRun || c.first) = startRun) : RoundPc gate due startRun (.writing p c rest)
  | wrote {p : Pass} {c : Chunk} (hgate : p.gate = gate) (hdue : p.due = due)
      (hstart : (p.startRun || c.first) = startRun) : RoundPc gate due startRun (.wrote p c true)
  | ended (base written : UInt32) : RoundPc gate due startRun (.runTest startRun base written)

/-- A pass that began at the record `g` with `out` shipped has come this far in its writes. -/
structure Rounds (gate : Bool) (due : Nat) (g : Gf) (flags : Flags) (out : Output) (x : Side) : Prop where
  flags : x.1.flags = flags
  pc : RoundPc gate due (!g.kernelRunning) x.1.pc
  run : ∃ h ts, TickRun gate due g.streaming g ts h ∧ x.2.ticks = out.ticks ++ ts ∧
    (∃ runBase written steps, x.1.gf = h.booked runBase written steps) ∧
    (x.1.pc.writes = false → tickDue due g.streaming h = false)

/-- A stream whose pass no fault, handover or clear ends early. -/
def Gf.clear (g : Gf) : Bool := !g.failed && !g.suspended && !g.clearPending

section Rounds

variable {gate : Bool} {due : Nat} {g : Gf} {flags : Flags} {out : Output}

theorem shipLoop_chunk {p : Pass} {streaming : Bool} {u : State} (hdue : tickDue p.due streaming u.gf = true) :
    shipLoop p streaming u = shipChunkOut p (buildTicks p.gate p.due streaming shipChunk u.gf []).1
      (buildTicks p.gate p.due streaming shipChunk u.gf []).2 u := by
  rw [shipLoop, if_pos hdue]

/-- A chunk of the pass. -/
theorem chunk_rounds {e : Env} {s u : State} {p : Pass} {out' : Output} {H h : Gf} {bytes : List UInt8}
    {ts : List Tick} (hround : RoundAt e s p u) (hstep : shipStep e s = shipChunkOut p H bytes u)
    (hflags : u.flags = flags) (hgate : p.gate = gate) (hdue : p.due = due)
    (hstart : (p.startRun || !H.kernelRunning) = !g.kernelRunning)
    (hrun : TickRun gate due g.streaming g ts h)
    (hbooked : ∀ runBase, ∃ written steps,
      ({ H with kernelRunning := true, runBase := runBase } : Gf) = h.booked runBase written steps)
    (hticks : out'.ticks ++ builtTicks p.gate p.due u.gf.streaming shipChunk u.gf [] = out.ticks ++ ts) :
    Rounds gate due g flags out (shipStep e s, recordOut s (.ship e) out') := by
  refine ⟨by rw [hstep]; exact hflags, ?_, h, ts, hrun, ?_, ?_, ?_⟩
  · rw [hstep]
    exact .writing hgate hdue hstart
  · rw [← hticks, ← roundTicks_chunk hround hstep]
    rfl
  · obtain ⟨written, steps, hH⟩ := hbooked (if !H.kernelRunning then H.written else H.runBase)
    rw [hstep]
    exact ⟨_, written, steps, hH⟩
  · rw [hstep]
    rintro ⟨⟩

/-- **The first round** of a pass with a tick due. -/
theorem first_rounds {e : Env} {s u : State} (hpc : s.pc = .sampled gate)
    (hu : u = anchor e.now { s with gf := gateEdge gate s.gf })
    (hstep : shipStep e s = shipLoop ⟨gate, dueIndex e.later u.gf, false⟩ u.gf.streaming u)
    (hdue : tickDue (dueIndex e.later u.gf) u.gf.streaming u.gf = true) (out : Output) :
    Rounds gate (dueIndex e.later u.gf) u.gf s.flags out (shipStep e s, recordOut s (.ship e) out) := by
  have hbuilt := buildTicks_run gate (dueIndex e.later u.gf) u.gf.streaming shipChunk u.gf []
  have hround : RoundAt e s ⟨gate, dueIndex e.later u.gf, false⟩ u := by
    rw [hu]
    exact .first hpc
  refine chunk_rounds hround (hstep.trans (shipLoop_chunk hdue)) ?_ rfl rfl ?_ hbuilt
    (fun runBase => ⟨_, _, rfl⟩) rfl
  · rw [hu]
    rfl
  · rw [hbuilt.frame Gf.kernelRunning fun _ _ => rfl, Bool.false_or]

/-- **The next round**, behind a chunk that has landed: another chunk, or the end. -/
theorem next_rounds {e : Env} {s : State} {p : Pass} {c : Chunk} {out' : Output}
    (h : Rounds gate due g flags out (s, out')) (hclear : g.clear = true) (hpc : s.pc = .wrote p c true) :
    Rounds gate due g flags out (shipStep e s, recordOut s (.ship e) out') := by
  obtain ⟨hflags, hat, k, ts, hrun, hticks, ⟨runBase, written, steps, hgf⟩, -⟩ := h
  dsimp only at hflags hat hticks hgf
  rw [hpc] at hat
  cases hat with
  | wrote hgate hdue hstart =>
  subst hgate hdue
  have hkeeps : ∀ {β : Type} (f : Gf → β), (∀ g x, f (Gf.ticked g x) = f g) →
      (∀ g : Gf, ∀ b w st, f (g.booked b w st) = f g) → f s.gf = f g := by
    intro β f hf hb
    rw [hgf, hb]
    exact hrun.frame f hf
  have hgo : (s.gf.failed || s.gf.suspended || s.gf.clearPending) = false := by
    rw [hkeeps Gf.failed (fun _ _ => rfl) (fun _ _ _ _ => rfl),
      hkeeps Gf.suspended (fun _ _ => rfl) (fun _ _ _ _ => rfl),
      hkeeps Gf.clearPending (fun _ _ => rfl) (fun _ _ _ _ => rfl)]
    simpa [Gf.clear, and_assoc] using hclear
  have hstreaming : s.gf.streaming = g.streaming :=
    hkeeps Gf.streaming (fun _ _ => rfl) (fun _ _ _ _ => rfl)
  have hfailed : s.gf.failed = false := by
    simp only [Bool.or_eq_false_iff] at hgo
    exact hgo.1.1
  -- the record behind the chunk, with its books
  have hlanded : ∃ w st, (chunkLanded c s).gf = k.booked runBase w st :=
    ⟨_, _, by rw [chunkLanded, hgf]; rfl⟩
  obtain ⟨w, st, hlanded⟩ := hlanded
  have hstep : shipStep e s = shipLoop { p with startRun := p.startRun || c.first } g.streaming
      (chunkLanded c s) := by
    have hbody : shipStep e s = shipNext p c (chunkLanded c s) := by
      rw [shipStep, hpc]
      rfl
    rw [hbody, shipNext, if_neg, ← hstreaming]
    · rfl
    · change ¬(s.gf.failed || s.gf.suspended || s.gf.clearPending) = true
      rw [hgo]
      rintro ⟨⟩
  cases hmore : tickDue p.due g.streaming (chunkLanded c s).gf with
  | false =>
    have hend : shipStep e s = shipFinish { p with startRun := p.startRun || c.first } (chunkLanded c s) :=
      hstep.trans (if_neg (by rw [hmore]; rintro ⟨⟩))
    have hnone : roundTicks e s = [] := roundTicks_none (by rw [hend]; rfl)
    refine ⟨by rw [hend]; exact hflags, ?_, k, ts, hrun, ?_, ?_, fun _ => ?_⟩
    · rw [hend, ← hstart]
      exact .ended _ _
    · change out'.ticks ++ roundTicks e s = _
      rw [hnone, List.append_nil, hticks]
    · rw [hend]
      exact ⟨_, _, _, hlanded⟩
    · rw [hlanded] at hmore
      exact hmore
  | true =>
    have hbuilt := buildTicks_run p.gate p.due g.streaming shipChunk (chunkLanded c s).gf []
    have hkernel : (buildTicks p.gate p.due g.streaming shipChunk (chunkLanded c s).gf []).1.kernelRunning =
        true := by
      rw [hbuilt.frame Gf.kernelRunning fun _ _ => rfl, hlanded]
      rfl
    rw [hlanded] at hbuilt
    obtain ⟨k', hmoreRun, hk'⟩ := hbuilt.unbook
    rw [← hlanded] at hmoreRun hk'
    refine chunk_rounds (.next hpc hfailed) (hstep.trans (shipLoop_chunk hmore)) hflags rfl rfl ?_
      (hrun.trans hmoreRun) ?_ ?_
    · rw [hkernel, ← hstart]
      simp
    · intro b
      rw [hk']
      exact ⟨_, _, rfl⟩
    · rw [show (chunkLanded c s).gf.streaming = g.streaming from hstreaming, hticks, List.append_assoc]

/-- A step of the writes moves the bytes of the chunk, and the kernel. -/
theorem byte_rounds {x : Side} {t : State} {out' : Output} (h : Rounds gate due g flags out x)
    (hgf : t.gf = x.1.gf) (hflags : t.flags = x.1.flags) (hpc : RoundPc gate due (!g.kernelRunning) t.pc)
    (hwrites : t.pc.writes = true) (hticks : out'.ticks = x.2.ticks) :
    Rounds gate due g flags out (t, out') := by
  obtain ⟨hf, -, k, ts, hrun, hold, hbooked, -⟩ := h
  refine ⟨hflags.trans hf, hpc, k, ts, hrun, hticks.trans hold, by rw [hgf]; exact hbooked, ?_⟩
  rw [hwrites]
  rintro ⟨⟩

theorem rounds_step {x y : Side} {l : Label} (h : Rounds gate due g flags out x) (hclear : g.clear = true)
    (hok : x.writesOn l = true) (hstep : sideStep x l = some y) : Rounds gate due g flags out y := by
  obtain ⟨s, out'⟩ := x
  obtain ⟨t, out''⟩ := y
  obtain ⟨hs, rfl⟩ := Runs.observe_eq_some.mp hstep
  have hturn := (step_eq_some.mp hs).2
  obtain ⟨hwrites, hl⟩ := Bool.and_eq_true_iff.mp hok
  cases l with
  | kernel a =>
    obtain ⟨k, -, rfl⟩ := Option.map_eq_some_iff.mp hturn
    exact byte_rounds h rfl rfl h.pc hwrites rfl
  | ship e =>
    cases hturn
    have hpc := h.pc
    dsimp only at hpc hl
    cases hat : s.pc with (rw [hat] at hpc hl)
    | writing p c rest =>
      cases hpc with
      | writing hgate hdue hstart =>
      have hnone : (recordOut s (.ship e) out').ticks = out'.ticks := by
        change out'.ticks ++ roundTicks e s = _
        rw [roundTicks, hat]
        exact List.append_nil _
      cases rest with
      | nil =>
        have hship : shipStep e s = { s with pc := .wrote p c true } := by rw [shipStep, hat]; rfl
        rw [hship]
        exact byte_rounds h rfl rfl (.wrote hgate hdue hstart) rfl hnone
      | cons b rest =>
        have hship : shipStep e s = { s with kernel := s.kernel.take b, pc := .writing p c rest } := by
          rw [shipStep, hat]
          exact if_pos hl
        rw [hship]
        exact byte_rounds h rfl rfl (.writing hgate hdue hstart) rfl hnone
    | wrote p c ok =>
      cases hpc with
      | wrote hgate hdue hstart => exact next_rounds h hclear hat
    | _ => cases hpc <;> (rw [hat] at hwrites; cases hwrites)
  | _ => cases hl

/-- The writes of a pass, run to their end. -/
theorem finishWrites_rounds {x y : Side} {ls : List Label} (h : Rounds gate due g flags out x)
    (hclear : g.clear = true) (hrun : finishWrites x ls = some y) :
    Rounds gate due g flags out y ∧ y.1.pc.writes = false := by
  obtain ⟨hexec, hend⟩ := Option.filter_eq_some_iff.mp hrun
  refine ⟨?_, by simpa using hend⟩
  exact (Runs.reach_of_exec hexec).invariant h fun x l y hx hok hstep => rounds_step hx hclear hok hstep

/-- Outside the writes there is nothing to finish. -/
theorem finishWrites_none {x y : Side} {ls : List Label} (hout : x.1.pc.writes = false)
    (hrun : finishWrites x ls = some y) : y = x := by
  obtain ⟨hexec, -⟩ := Option.filter_eq_some_iff.mp hrun
  cases ls with
  | nil => exact (Option.some_inj.mp hexec).symm
  | cons l ls =>
    have hoff : ¬x.writesOn l = true := by
      unfold Side.writesOn
      rw [hout, Bool.false_and]
      rintro ⟨⟩
    rw [Runs.exec, if_neg hoff] at hexec
    cases hexec

end Rounds

/-! ## The body of a pass

A pass from its sample of the gate to its end, for both sides. -/

section Body

variable {s t : State} {gate : Bool} (e : Env)

theorem gateEdge_twin (gate : Bool) {g r : Gf} (h : g.Twin r) : (gateEdge gate g).Twin (gateEdge gate r) := by
  have hseen : r.gateSeen = g.gateSeen := h.alike.frame Gf.gateSeen rfl
  unfold gateEdge
  rw [hseen]
  split
  · exact h
  · split
    · exact h.map (fun g => { g with gateSeen := gate }) (fun _ _ => rfl) (fun _ => rfl) (fun _ => id)
        (fun _ => rfl)
    · refine ⟨h.alike.map (fun g => ditherReset { g with
        gateSeen := gate, curFire := false, lev := g.lev.map fun e => { e with fire := false } })
        fun _ _ => rfl, ?_, h.analog⟩
      cases h.mode with
      | live hp hs hf hl => exact .live hp hs rfl (congrArg (List.map _) hl)
      | spent hg hr => exact .spent hg hr
      | failed hp hs hf => exact .failed hp hs hf

/-- The stream is over, as `ship_pass` tests it. -/
def Gf.over (g : Gf) : Bool := !g.streaming && g.produced - g.shipped == 0

/-- What the end of a stream writes behind its pad. -/
def endGf (now : Nat) (g : Gf) : Gf :=
  ditherReset { g with
    kernelRunning := false, runPending := false, powerSent := false
    holdPending := true, holdPollAt := now + 100000000 }

theorem endStream_gf (s : State) : (endStream e s).gf =
    if s.gf.kernelRunning then endGf e.now (endPad e.ok s).gf else s.gf := by
  unfold endStream
  split <;> rfl

/-- A pad at the end leaves the stream over, and its cursor level. -/
theorem endPad_over (ok : Bool) {s : State} (h : s.gf.over = true) :
    s.gf.Alike (endPad ok s).gf ∧ (endGf e.now (endPad ok s).gf).spent = true ∧
      (endPad ok s).gf.dithPeriod = s.gf.dithPeriod := by
  obtain ⟨hstreaming, hlevel⟩ : s.gf.streaming = false ∧ s.gf.produced - s.gf.shipped = 0 := by
    simpa [Gf.over] using h
  unfold endPad
  split
  · refine ⟨rfl, ?_, rfl⟩
    change (!s.gf.streaming && true && decide (s.gf.shipped + 1 ≤ s.gf.shipped + 1)) = true
    rw [hstreaming]
    simp
  · refine ⟨rfl, ?_, rfl⟩
    change (!s.gf.streaming && true && decide (s.gf.produced ≤ s.gf.shipped)) = true
    rw [hstreaming, decide_eq_true (Nat.le_of_sub_eq_zero hlevel)]
    rfl

theorem endStream_twin (h : s.gf.Twin t.gf) (hs : s.gf.over = true) (ht : t.gf.over = true) :
    (endStream e s).gf.Twin (endStream e t).gf := by
  obtain ⟨salike, sspent, smodel⟩ := endPad_over e e.ok hs
  obtain ⟨talike, tspent, -⟩ := endPad_over e e.ok ht
  rw [endStream_gf, endStream_gf, h.alike.kernelRunning]
  split
  · refine ⟨?_, .spent sspent tspent, smodel.trans h.analog⟩
    exact (salike.symm.trans (h.alike.trans talike)).map (endGf e.now) fun _ _ => rfl
  · exact h

theorem pollHold_still (s : State) : s.gf.Still (pollHold e s).gf ∧ (pollHold e s).flags = s.flags := by
  unfold pollHold
  split
  · split
    · exact ⟨⟨rfl, rfl, rfl⟩, rfl⟩
    · split <;> exact ⟨⟨rfl, rfl, rfl⟩, rfl⟩
  · exact ⟨⟨rfl, rfl, rfl⟩, rfl⟩

theorem endStream_flags (s : State) : (endStream e s).flags = s.flags := by
  unfold endStream endPad
  split
  · split <;> rfl
  · rfl

/-- The end of a stream keeps twins: both are spent behind it. -/
theorem end_abreast (h : s.Twin t) (hs : s.gf.over = true) (ht : t.gf.over = true) :
    Abreast { pollHold e (endStream e s) with pc := .check } { pollHold e (endStream e t) with pc := .check } := by
  refine ⟨⟨?_, ?_⟩, .same .check rfl⟩
  · exact (endStream_twin e h.gf hs ht).still (pollHold_still e _).1 (pollHold_still e _).1
  · change (pollHold e (endStream e t)).flags = (pollHold e (endStream e s)).flags
    rw [(pollHold_still e _).2, (pollHold_still e _).2, endStream_flags, endStream_flags, h.flags]

/-- Twins that have not failed are over alike, and one that is not is live. -/
theorem Gf.Twin.live {g r : Gf} (h : g.Twin r) (hok : g.failed = false) (hover : g.over = false) :
    g.LiveTwin r := by
  cases h.mode with
  | live hp hs hf hl => exact ⟨h.alike, hp, hs, hf, hl, h.analog⟩
  | failed _ _ hf =>
    rw [hok] at hf
    cases hf
  | spent hg =>
    simp only [Gf.spent, Bool.and_eq_true, Bool.not_eq_true', decide_eq_true_eq] at hg
    rw [Gf.over, hg.1.1, Nat.sub_eq_zero_of_le hg.2] at hover
    cases hover

theorem Gf.Twin.over {g r : Gf} (h : g.Twin r) (hok : g.failed = false) : r.over = g.over := by
  cases h.mode with
  | live hp hs => rw [Gf.over, Gf.over, hp, hs, h.alike.streaming]
  | failed _ _ hf =>
    rw [hok] at hf
    cases hf
  | spent hg hr =>
    have hover : ∀ u : Gf, u.spent = true → u.over = true := by
      intro u hu
      simp only [Gf.spent, Bool.and_eq_true, Bool.not_eq_true', decide_eq_true_eq] at hu
      rw [Gf.over, hu.1.1, Nat.sub_eq_zero_of_le hu.2]
      rfl
    rw [hover g hg, hover r hr]

theorem anchor_live (now : Nat) (h : s.gf.LiveTwin t.gf) : (anchor now s).gf.LiveTwin (anchor now t).gf := by
  have hwhen : (if t.gf.shipped = 0 ∨ !t.gf.kernelRunning then now else t.gf.shipT0) =
      if s.gf.shipped = 0 ∨ !s.gf.kernelRunning then now else s.gf.shipT0 := by
    rw [h.shipped, h.alike.kernelRunning, show t.gf.shipT0 = s.gf.shipT0 from h.alike.frame Gf.shipT0 rfl]
  unfold anchor
  dsimp only
  rw [hwhen]
  exact ⟨h.alike.map (fun g => { g with
    shipT0 := if s.gf.shipped = 0 ∨ !s.gf.kernelRunning then now else s.gf.shipT0 }) fun _ _ => rfl,
    h.produced, h.shipped, h.curFire, h.lev, h.analog⟩

theorem booked_twin {g r : Gf} (h : g.LiveTwin r) (runBase written runBase' written' : UInt32)
    (steps steps' : Steps) : (g.booked runBase written steps).Twin (r.booked runBase' written' steps') := by
  refine ⟨?_, .live h.produced h.shipped h.curFire h.lev, h.analog⟩
  have hrunning : ({ g with kernelRunning := true } : Gf).Alike { r with kernelRunning := true } :=
    h.alike.map (fun g => { g with kernelRunning := true }) fun _ _ => rfl
  have hbooks : ∀ (u : Gf) (b w : UInt32) (st : Steps),
      Gf.Alike { u with kernelRunning := true } (u.booked b w st) := fun _ _ _ _ => rfl
  exact (hbooks g _ _ _).symm.trans (hrunning.trans (hbooks r _ _ _))

/-- What a pass ships under the two models. -/
def ShipsAlike (out out' : Output) (x y : Side) : Prop :=
  Abreast x.1 y.1 ∧ ∃ ts us, x.2.ticks = out.ticks ++ ts ∧ y.2.ticks = out'.ticks ++ us ∧
    List.Forall₂ Withheld ts us

variable {out out' : Output} {x y : Side} {ls ls' : List Label}

/-- A step that builds no chunk ships nothing. -/
theorem ShipsAlike.of_abreast (h : Abreast (shipStep e s) (shipStep e t))
    (hout : (shipStep e s).pc.writes = false) (hout' : (shipStep e t).pc.writes = false)
    (hx : finishWrites (shipStep e s, recordOut s (.ship e) out) ls = some x)
    (hy : finishWrites (shipStep e t, recordOut t (.ship e) out') ls' = some y) :
    ShipsAlike out out' x y := by
  rw [finishWrites_none hout hx, finishWrites_none hout' hy]
  refine ⟨h, [], [], ?_, ?_, .nil⟩
  · change out.ticks ++ roundTicks e s = _
    rw [roundTicks_none hout]
  · change out'.ticks ++ roundTicks e t = _
    rw [roundTicks_none hout']

/-- **The rounds of twins**, each with its own chunks, ship the same ticks but for what is
withheld. -/
theorem rounds_twin {u v : State} {due : Nat} (hlive : u.gf.LiveTwin v.gf) (hflags : t.flags = s.flags)
    (hx : Rounds gate due u.gf s.flags out x) (hxout : x.1.pc.writes = false)
    (hy : Rounds gate due v.gf t.flags out' y) (hyout : y.1.pc.writes = false) : ShipsAlike out out' x y := by
  obtain ⟨xflags, xpc, k, ts, xrun, xticks, ⟨b, w, st, xgf⟩, xend⟩ := hx
  obtain ⟨yflags, ypc, k', us, yrun, yticks, ⟨b', w', st', ygf⟩, yend⟩ := hy
  rw [hlive.alike.streaming] at yrun yend
  rw [hlive.alike.kernelRunning] at ypc
  obtain ⟨hlast, hticks⟩ := xrun.twin hlive (xend hxout) yrun (yend hyout)
  refine ⟨⟨⟨?_, by rw [xflags, yflags, hflags]⟩, ?_⟩, ts, us, xticks, yticks, hticks⟩
  · rw [xgf, ygf]
    exact booked_twin hlast _ _ _ _ _ _
  · generalize x.1.pc = p at xpc hxout
    generalize y.1.pc = q at ypc hyout
    cases xpc with
    | writing => cases hxout
    | wrote => cases hxout
    | ended base written =>
      cases ypc with
      | writing => cases hyout
      | wrote => cases hyout
      | ended base' written' => exact .runTest _ _ _ _ _

/-- The preload is short. -/
def Gf.waits (g : Gf) : Bool :=
  (g.shipped == 0 || !g.kernelRunning) && decide (g.produced - g.shipped < preload g)

theorem shipStep_body {u : State} (hu : u.pc = .sampled gate) : shipStep e u = shipBody e gate u := by
  rw [shipStep, hu]

/-- How the body of a pass goes: the stream ends, it waits, or it ships. -/
theorem shipGated_cases (gate : Bool) (w : State) :
    (w.gf.over = true → shipGated e gate w = { pollHold e (endStream e w) with pc := .check }) ∧
    (w.gf.over = false → w.gf.waits = true → shipGated e gate w = { w with pc := .check }) ∧
    (w.gf.over = false → w.gf.waits = false → shipGated e gate w = shipDue e gate (anchor e.now w)) := by
  have hnot : ∀ {b : Bool}, b = false → ¬b = true := fun h => by rw [h]; rintro ⟨⟩
  refine ⟨fun h => if_pos h, fun h hw => ?_, fun h hw => ?_⟩
  · exact (if_neg (hnot h)).trans (if_pos hw)
  · exact (if_neg (hnot h)).trans (if_neg (hnot hw))

/-- **The body of a pass**, behind the gate's edge, keeps twins. -/
theorem shipGated_twin (h : s.Twin t) {s₀ t₀ : State} (hs : s₀.pc = .sampled gate)
    (ht : t₀.pc = .sampled gate) (hsgf : s = { s₀ with gf := gateEdge gate s₀.gf })
    (htgf : t = { t₀ with gf := gateEdge gate t₀.gf }) (hclear : s.gf.clear = true)
    (hx : finishWrites (shipStep e s₀, recordOut s₀ (.ship e) out) ls = some x)
    (hy : finishWrites (shipStep e t₀, recordOut t₀ (.ship e) out') ls' = some y) :
    ShipsAlike out out' x y := by
  have hsbody : shipStep e s₀ = shipGated e gate s := by rw [hsgf]; exact shipStep_body e hs
  have htbody : shipStep e t₀ = shipGated e gate t := by rw [htgf]; exact shipStep_body e ht
  obtain ⟨send, swait, sship⟩ := shipGated_cases e gate s
  obtain ⟨tend, twait, tship⟩ := shipGated_cases e gate t
  have hfailed : s.gf.failed = false := by
    simp only [Gf.clear, Bool.and_eq_true, Bool.not_eq_true'] at hclear
    exact hclear.1.1
  have hsame := h.gf.over hfailed
  cases hover : s.gf.over with
  | true =>
    have hsend := hsbody.trans (send hover)
    have htend := htbody.trans (tend (hsame.trans hover))
    refine .of_abreast e ?_ (by rw [hsend]; rfl) (by rw [htend]; rfl) hx hy
    rw [hsend, htend]
    exact end_abreast e h hover (hsame.trans hover)
  | false =>
    have hlive := h.gf.live hfailed hover
    have hwaits : t.gf.waits = s.gf.waits := by
      rw [Gf.waits, Gf.waits, hlive.shipped, hlive.produced, hlive.alike.kernelRunning,
        show preload t.gf = preload s.gf from hlive.alike.frame preload rfl]
    cases hwait : s.gf.waits with
    | true =>
      have hswait := hsbody.trans (swait hover hwait)
      have htwait := htbody.trans (twait (hsame.trans hover) (hwaits.trans hwait))
      refine .of_abreast e ?_ (by rw [hswait]; rfl) (by rw [htwait]; rfl) hx hy
      rw [hswait, htwait]
      exact ⟨⟨h.gf, h.flags⟩, .same .check rfl⟩
    | false =>
      have hsship := hsbody.trans (sship hover hwait)
      have htship := htbody.trans (tship (hsame.trans hover) (hwaits.trans hwait))
      have hanchor := anchor_live e.now hlive
      generalize hu : anchor e.now s = u at hsship hanchor
      generalize hv : anchor e.now t = v at htship hanchor
      have huflags : u.flags = s₀.flags := by rw [← hu, hsgf]; rfl
      have hvflags : v.flags = t₀.flags := by rw [← hv, htgf]; rfl
      have hflags : t₀.flags = s₀.flags := by
        have := h.flags
        rw [hsgf, htgf] at this
        exact this
      have hdue : dueIndex e.later v.gf = dueIndex e.later u.gf := hanchor.alike.frame (dueIndex e.later) rfl
      have huclear : u.gf.clear = true := by rw [← hu]; exact hclear
      have hvclear : v.gf.clear = true := (hanchor.alike.frame Gf.clear rfl).trans huclear
      cases hticks : tickDue (dueIndex e.later u.gf) u.gf.streaming u.gf with
      | true =>
        have hticks' : tickDue (dueIndex e.later v.gf) v.gf.streaming v.gf = true := by
          rw [hdue, hanchor.alike.streaming, hanchor.tickDue]
          exact hticks
        obtain ⟨hxr, hxout⟩ := finishWrites_rounds
          (first_rounds hs (by rw [← hu, hsgf]) hsship hticks out) huclear hx
        obtain ⟨hyr, hyout⟩ := finishWrites_rounds
          (first_rounds ht (by rw [← hv, htgf]) htship hticks' out') hvclear hy
        rw [hdue] at hyr
        exact rounds_twin hanchor hflags hxr hxout hyr hyout
      | false =>
        have hticks' : tickDue (dueIndex e.later v.gf) v.gf.streaming v.gf = false := by
          rw [hdue, hanchor.alike.streaming, hanchor.tickDue]
          exact hticks
        have hsdone := hsship.trans (if_neg (by rw [hticks]; rintro ⟨⟩))
        have htdone := htship.trans (if_neg (by rw [hticks']; rintro ⟨⟩))
        refine .of_abreast e ?_ (by rw [hsdone]; rfl) (by rw [htdone]; rfl) hx hy
        rw [hsdone, htdone]
        exact ⟨⟨hanchor.twin, by rw [show (shipFinish _ v).flags = v.flags from rfl, hvflags, hflags, ← huflags]; rfl⟩,
          .runTest _ _ _ _ _⟩

end Body

/-! ## Before the first stream

What holds until the first wakeup, when the model is still to be chosen. -/

/-- No stream has begun: nothing is there to ship, and no level is in force. -/
structure Asleep (g : Gf) : Prop where
  spent : g.spent = true
  curPower : g.curPower = 0

theorem resetStream_curPower (now : Nat) (killed : Bool) (g : Gf) :
    (resetStream now killed g).curPower = g.curPower := by
  simp only [resetStream, resetReadback, resetRun]
  split_ifs <;> rfl

theorem resetLocked_curPower (now : Nat) (g : Gf) : (resetLocked now g).curPower = g.curPower := by
  have hended : (if resetEnds g then resetStream now g.killed { g with killed := false, readback := .none }
      else { g with killed := false, readback := .none }).curPower = g.curPower := by
    split
    · exact resetStream_curPower _ _ _
    · rfl
  by_cases hf : g.failed = true
  · rw [resetLocked, if_pos hf]
    exact hended
  · rw [resetLocked, if_neg hf]
    exact hended

theorem laserEventLocked_curPower (power : UInt8) (fire : Bool) (s : State) :
    (laserEventLocked power fire s).gf.curPower = s.gf.curPower := by
  have hrec : ∀ (idx : Nat) (power : UInt8) (fire : Bool) (g : Gf),
      (levRecord idx power fire g).curPower = g.curPower := by
    intro idx power fire g
    obtain ⟨lev, warned, hg⟩ := levRecord_frame idx power fire g
    rw [hg]
  simp only [laserEventLocked]
  split_ifs
  · rfl
  · exact hrec _ _ _ _
  · exact hrec _ _ _ _
  · rfl

/-- The producer's calls leave the level in force alone. -/
theorem locked_curPower (c : Call) (now : Nat) (s : State) :
    (c.locked now s).gf.curPower = s.gf.curPower := by
  cases c with
  | wakeup =>
    simp only [Call.locked, wakeupLocked]
    split
    · rfl
    · obtain ⟨lev, hassert⟩ := wakeupAssert_frame (mayFire (wakeupMark s) s.gf.wantFire)
        (wakeupIndex now (wakeupClock now (wakeupMark s).gf))
      simp only [wakeupStream]
      rw [show (wakeupMark s).gf.wantFire = s.gf.wantFire from rfl, hassert]
      simp only [wakeupIndex, wakeupContinue]
      split_ifs <;> rfl
  | pulse stepBits dirBits => exact (pulseLocked_pulsed _ s).frame Gf.curPower rfl
  | laser power fire => exact laserEventLocked_curPower _ _ _
  | jog on => exact laserEventLocked_curPower _ _ _

/-- The calls leave the level in force alone: only ticks and the choice of the model set it, and the
end of a handover starts over. -/
theorem turn_curPower {s t : State} {l : Label} (hturn : turn s l = some t) (hcall : l.isCall = true) :
    t.gf.curPower = s.gf.curPower ∨ t.gf.curPower = 0 := by
  cases l with
  | ship e => cases hcall
  | kernel a => cases hcall
  | «foreign» k => cases hcall
  | laserModel p m => cases hcall
  | locked c now =>
    cases hturn
    exact .inl (locked_curPower c now { s with entered := s.entered.erase c })
  | goIdle reset stepBits dirBits =>
    cases hturn
    obtain ⟨killed, killStep, lev, streaming, hidle⟩ := goIdle_frame reset stepBits dirBits s
    rw [hidle]
    exact .inl rfl
  | reset now =>
    cases hturn
    exact .inl (resetLocked_curPower now s.gf)
  | enter c =>
    cases hturn
    left
    simp only [enter]
    split <;> rfl
  | readback expired =>
    cases hturn
    left
    simp only [gfStreamReadback]
    split <;> rfl
  | clearPosition ok =>
    cases hturn
    left
    simp only [gfStreamClearPosition]
    split_ifs <;> rfl
  | suspend readOk =>
    cases hturn
    left
    simp only [gfStreamSuspend]
    split_ifs <;> rfl
  | resume latchOk emptied counted =>
    cases hturn
    left
    simp only [gfStreamResume, rebaseAtTakeover]
    split_ifs <;> rfl
  | proto =>
    obtain ⟨o, rest, hp⟩ := proto_owes hturn
    simp only [turn, protoStep] at hturn
    rw [hp] at hturn
    cases o with
    | resumeSwap =>
      cases hturn
      exact .inr rfl
    | _ =>
      cases hturn
      exact .inl rfl
  | _ =>
    cases hturn
    exact .inl rfl

/-- The label of a wakeup's locked section. -/
def Label.isWakeup : Label → Bool
  | .locked .wakeup _ => true
  | _ => false

theorem spent_of_marks {g : Gf} (h : g.spent = true) {r : Gf}
    (hstreaming : r.marks.streaming = true → g.streaming = true)
    (hrunning : r.marks.kernelRunning = true → g.kernelRunning = true)
    (hlevel : g.produced ≤ g.shipped → r.produced ≤ r.shipped) : r.spent = true := by
  simp only [Gf.spent, Bool.and_eq_true, Bool.not_eq_true', decide_eq_true_eq] at h ⊢
  obtain ⟨⟨hs, hr⟩, hl⟩ := h
  refine ⟨⟨?_, ?_⟩, hlevel hl⟩
  · cases hcase : r.streaming with
    | false => rfl
    | true => exact absurd (hstreaming hcase) (by rw [hs]; rintro ⟨⟩)
  · cases hcase : r.kernelRunning with
    | false => rfl
    | true => exact absurd (hrunning hcase) (by rw [hr]; rintro ⟨⟩)

theorem Marks.spent_eq {g r : Gf} {m : Marks} (hmarks : r.marks = m) (hg : g.spent = true)
    (hstreaming : m.streaming = true → g.streaming = true)
    (hrunning : m.kernelRunning = true → g.kernelRunning = true)
    (hlevel : g.produced ≤ g.shipped → m.produced ≤ m.shipped) : r.spent = true := by
  subst hmarks
  exact spent_of_marks hg hstreaming hrunning hlevel

/-- Only a wakeup begins a stream. -/
theorem turn_asleep {s t : State} {l : Label} (h : Asleep s.gf) (hturn : turn s l = some t)
    (hcall : l.isCall = true) (hwakeup : l.isWakeup = false) : Asleep t.gf := by
  have hnone : s.gf.streaming = false := by
    have hspent := h.spent
    simp only [Gf.spent, Bool.and_eq_true, Bool.not_eq_true'] at hspent
    exact hspent.1.1
  refine ⟨?_, (turn_curPower hturn hcall).elim (fun hsame => hsame.trans h.curPower) id⟩
  have hship : ∀ e, l ≠ .ship e := by
    rintro e rfl
    cases hcall
  cases turn_moved hturn hship with
  | still hmarks => exact Marks.spent_eq hmarks h.spent id id id
  | wakesLive hl hlive => rw [hl] at hwakeup; cases hwakeup
  | begins hl => rw [hl] at hwakeup; cases hwakeup
  | event hl hlive => rw [hnone] at hlive; cases hlive
  | idles hl hmarks => exact Marks.spent_eq hmarks h.spent (by rintro ⟨⟩) id id
  | suspends hl hdrained hmarks => exact Marks.spent_eq hmarks h.spent id id id
  | resumes hl hactive hmarks => exact Marks.spent_eq hmarks h.spent id id id
  | latchFails hl hhead hmarks => exact Marks.spent_eq hmarks h.spent id id id
  | swaps hl hhead hmarks =>
    exact Marks.spent_eq hmarks h.spent (by rintro ⟨⟩) (by rintro ⟨⟩) (fun _ => Nat.le_refl 0)
  | resets hl hafter =>
    refine spent_of_marks h.spent (fun hs => ?_) (fun hr => ?_) (fun hle => ?_)
    · rw [show t.gf.marks.streaming = false from hafter.streaming] at hs
      cases hs
    · have hrunning : t.gf.kernelRunning = true := hr
      rw [hafter.kernelRunning] at hrunning
      exact (Bool.and_eq_true_iff.mp hrunning).1
    · rw [hafter.produced, hafter.shipped]
      split
      · exact Nat.le_refl _
      · exact hle

/-- Nothing is there to ship. -/
theorem Asleep.live {g : Gf} (h : Asleep g) : g.marks.live = false := by
  have hspent := h.spent
  simp only [Gf.spent, Bool.and_eq_true, Bool.not_eq_true', decide_eq_true_eq] at hspent
  rw [Marks.live, show g.marks.streaming = false from hspent.1.1, Bool.false_or, decide_eq_false_iff_not]
  exact Nat.not_lt.mpr hspent.2

/-- The level in force is the ticks': a step of the shipper that builds none leaves it alone. -/
theorem shipStep_curPower {e : Env} {s : State} (hlive : s.gf.marks.live = false)
    (hout : s.pc.writes = false) : (shipStep e s).gf.curPower = s.gf.curPower := by
  by_cases htail : s.pc.tail = true
  · exact (shipStep_tail htail).frame (fun g _ => g.curPower) rfl
  unfold shipStep
  split
  case h_1 => simp only [pendingSnapshot, resetPad]; split_ifs <;> rfl
  case h_3 => simp only [pendingSeek]; split_ifs <;> rfl
  case h_5 cleared counts zeros _ => exact (pendingDone_settled cleared counts zeros s).frame Gf.curPower rfl
  case h_6 => simp only [pendingOurs]; split_ifs <;> rfl
  case h_7 => simp only [shipLock, faultPad]; split_ifs <;> rfl
  case h_8 gate hpc =>
    have hedge : (gateEdge gate s.gf).curPower = s.gf.curPower := by
      unfold gateEdge
      split_ifs <;> rfl
    have hover : Gf.over (gateEdge gate s.gf) = true := by
      have hmarks := gateEdge_marks gate s.gf
      rw [Marks.live, Bool.or_eq_false_iff, decide_eq_false_iff_not, Nat.not_lt] at hlive
      rw [Gf.over, show (gateEdge gate s.gf).streaming = false from
          (congrArg Marks.streaming hmarks).trans hlive.1,
        show (gateEdge gate s.gf).produced = s.gf.produced from congrArg Marks.produced hmarks,
        show (gateEdge gate s.gf).shipped = s.gf.shipped from congrArg Marks.shipped hmarks,
        show s.gf.produced - s.gf.shipped = 0 from Nat.sub_eq_zero_of_le hlive.2]
      rfl
    rw [← hedge, shipBody, (shipGated_cases e gate { s with gf := gateEdge gate s.gf }).1 hover]
    simp only [pollHold, endStream, endPad]
    split_ifs <;> rfl
  case h_9 hpc => rw [hpc] at hout; cases hout
  case h_10 hpc => rw [hpc] at hout; cases hout
  all_goals first
    | rfl
    | (next hpc => rw [hpc] at htail; exact absurd rfl htail)

theorem ShipPc.writes_site (p : ShipPc) : p.writes = p.site.inChunk := by
  cases p with
  | pendState clear zeros => cases clear <;> rfl
  | raise next => cases next <;> rfl
  | _ => rfl

/-- A pass wakes nothing. -/
theorem shipStep_asleep {e : Env} {s : State} (h : Asleep s.gf) (hout : s.pc.writes = false) :
    Asleep (shipStep e s).gf ∧ (shipStep e s).pc.writes = false := by
  have hpower := (shipStep_curPower (e := e) h.live hout).trans h.curPower
  have hend : ∀ {site : Site}, (shipStep e s).pc.site = site → site.inChunk = false →
      (shipStep e s).gf.spent = true → Asleep (shipStep e s).gf ∧ (shipStep e s).pc.writes = false := by
    intro site hsite hchunk hspent
    exact ⟨⟨hspent, hpower⟩, by rw [ShipPc.writes_site, hsite, hchunk]⟩
  have hoff : ∀ {site : Site}, s.pc.site = site → site.inChunk = true → False := by
    intro site hsite hchunk
    rw [ShipPc.writes_site, hsite, hchunk] at hout
    cases hout
  cases shipStep_course e s with
  | snapshot hsite hsite' hmarks =>
    refine hend hsite' ?_ (Marks.spent_eq hmarks h.spent id id id)
    split <;> rfl
  | clears hsite hsite' hmarks =>
    rcases hsite' with hsite' | hsite' <;> exact hend hsite' rfl (Marks.spent_eq hmarks h.spent id id id)
  | settles hsite hsite' hmarks =>
    exact hend hsite' rfl (Marks.spent_eq hmarks h.spent id (by rintro ⟨⟩) id)
  | waits hsite hsite' hmarks => exact hend hsite' rfl (Marks.spent_eq hmarks h.spent id id id)
  | turnsBack hsite hsite' hstop hmarks => exact hend hsite' rfl (Marks.spent_eq hmarks h.spent id id id)
  | samples hsite hsite' hfailed hsuspended hmarks =>
    exact hend hsite' rfl (Marks.spent_eq hmarks h.spent id id id)
  | ends hsite hsite' hover hmarks hover' =>
    refine hend hsite' rfl (Marks.spent_eq hmarks h.spent id (by rintro ⟨⟩) fun _ => ?_)
    rw [Marks.live, Bool.or_eq_false_iff, decide_eq_false_iff_not, Nat.not_lt] at hover'
    exact hover'.2
  | holds hsite hsite' hmarks => exact hend hsite' rfl (Marks.spent_eq hmarks h.spent id id id)
  | builds hround hsite' hlive =>
    rw [h.live] at hlive
    cases hlive
  | finishes hround hsite' hmarks => exact hend hsite' rfl (Marks.spent_eq hmarks h.spent id id id)
  | lands hsite => exact (hoff hsite rfl).elim
  | written hsite => exact (hoff hsite rfl).elim
  | writeFails hsite => exact (hoff hsite rfl).elim
  | breaks hsite => exact (hoff hsite rfl).elim
  | fails hsite => exact (hoff hsite rfl).elim
  | asks hsite hstart hactive hfailed hsite' hmarks =>
    exact hend hsite' rfl (Marks.spent_eq hmarks h.spent id id id)
  | skips hsite hsite' hmarks => exact hend hsite' rfl (Marks.spent_eq hmarks h.spent id id id)
  | starts hsite hsite' hmarks =>
    rcases hsite' with hsite' | hsite' | hsite' <;>
      exact hend hsite' rfl (Marks.spent_eq hmarks h.spent id id id)
  | faults hsite hsite' hmarks => exact hend hsite' rfl (Marks.spent_eq hmarks h.spent id id id)
  | rests hsite hsite' hmarks =>
    rcases hsite' with hsite' | hsite' <;> exact hend hsite' rfl (Marks.spent_eq hmarks h.spent id id id)

/-! ## The course of an atomic pass

The schedule makes no call inside a pass, so a clear is pending before the pass or not at all. -/

/-- No call comes inside a pass, so a clear that the pass has looked past is not pending, and a
stream that it ships from is clear. -/
def pastClear (s : State) : Bool :=
  match s.pc.site with
  | .gap => !s.gf.clearPending
  | .sampled => s.gf.clear
  | _ => true

theorem pastClear_of_rest {s : State} {site : Site} (h : s.pc.site = site) (hgap : site ≠ .gap)
    (hsampled : site ≠ .sampled) : pastClear s = true := by
  unfold pastClear
  rw [h]
  split
  · exact absurd rfl hgap
  · exact absurd rfl hsampled
  · rfl

theorem shipStep_pastClear {e : Env} {s : State} (h : pastClear s = true) :
    pastClear (shipStep e s) = true := by
  have hgap : ∀ {t : State}, t.pc.site = .gap → t.gf.marks.clearPending = false → pastClear t = true := by
    intro t hsite hclear
    unfold pastClear
    rw [hsite]
    exact (congrArg (!·) hclear : (!t.gf.clearPending) = true)
  cases shipStep_course e s with
  | snapshot hsite hsite' hmarks =>
    cases hclear : s.gf.clearPending with (rw [hclear] at hsite')
    | true => exact pastClear_of_rest hsite' (by rintro ⟨⟩) (by rintro ⟨⟩)
    | false =>
      refine hgap hsite' ?_
      rw [hmarks]
      exact hclear
  | clears hsite hsite' =>
    exact hsite'.elim (pastClear_of_rest · (by rintro ⟨⟩) (by rintro ⟨⟩)) (pastClear_of_rest ·
        (by rintro ⟨⟩) (by rintro ⟨⟩))
  | settles hsite hsite' hmarks => exact hgap hsite' (by rw [hmarks])
  | waits hsite hsite' hmarks =>
    refine hgap hsite' ?_
    rw [hmarks]
    unfold pastClear at h
    rw [hsite] at h
    exact Bool.not_eq_true' _ ▸ h
  | samples hsite hsite' hfailed hsuspended hmarks =>
    have hclear : s.gf.clearPending = false := by
      unfold pastClear at h
      rw [hsite] at h
      exact Bool.not_eq_true' _ ▸ h
    unfold pastClear
    rw [hsite', Gf.clear, show (shipStep e s).gf.failed = false from (congrArg Marks.failed hmarks).trans hfailed,
      show (shipStep e s).gf.suspended = false from (congrArg Marks.suspended hmarks).trans hsuspended,
      show (shipStep e s).gf.clearPending = false from (congrArg Marks.clearPending hmarks).trans hclear]
    rfl
  | starts hsite hsite' =>
    rcases hsite' with hsite' | hsite' | hsite' <;> exact pastClear_of_rest hsite' (by rintro ⟨⟩)
        (by rintro ⟨⟩)
  | rests hsite hsite' =>
    rcases hsite' with hsite' | hsite' <;> exact pastClear_of_rest hsite' (by rintro ⟨⟩)
        (by rintro ⟨⟩)
  | builds _ hsite' => exact pastClear_of_rest hsite' (by rintro ⟨⟩) (by rintro ⟨⟩)
  | finishes _ hsite' => exact pastClear_of_rest hsite' (by rintro ⟨⟩) (by rintro ⟨⟩)
  | turnsBack _ hsite' => exact pastClear_of_rest hsite' (by rintro ⟨⟩) (by rintro ⟨⟩)
  | ends _ hsite' => exact pastClear_of_rest hsite' (by rintro ⟨⟩) (by rintro ⟨⟩)
  | holds _ hsite' => exact pastClear_of_rest hsite' (by rintro ⟨⟩) (by rintro ⟨⟩)
  | lands _ hsite' => exact pastClear_of_rest hsite' (by rintro ⟨⟩) (by rintro ⟨⟩)
  | written _ hsite' => exact pastClear_of_rest hsite' (by rintro ⟨⟩) (by rintro ⟨⟩)
  | writeFails _ _ hsite' => exact pastClear_of_rest hsite' (by rintro ⟨⟩) (by rintro ⟨⟩)
  | breaks _ _ hsite' => exact pastClear_of_rest hsite' (by rintro ⟨⟩) (by rintro ⟨⟩)
  | fails _ hsite' => exact pastClear_of_rest hsite' (by rintro ⟨⟩) (by rintro ⟨⟩)
  | asks _ _ _ _ hsite' => exact pastClear_of_rest hsite' (by rintro ⟨⟩) (by rintro ⟨⟩)
  | skips _ hsite' => exact pastClear_of_rest hsite' (by rintro ⟨⟩) (by rintro ⟨⟩)
  | faults _ hsite' => exact pastClear_of_rest hsite' (by rintro ⟨⟩) (by rintro ⟨⟩)

end Glowforge.Stream
