import Glowforge.Stream.Residue

/-!
# Glowforge — a failed or reset stream starts no run

A pass writes its chunks, tests `gf.failed`, gates its run and asks for it with `gf.lock`
released, and carries a `start_run` of its own through all of that. A fault or a reset of
another thread lands anywhere in between.

* **`Bar`** — from the fault, or the reset that asks for a clear, the engine is barred; a wakeup
  behind the reset begins a new stream, whose first byte in the device opens it again.
* **`barsApart`** — no fault lands while a pass asks for its run, and no such reset while a pass
  asks for it or carries a `start_run`.
* **`BarInv`** — what the bar keeps out, and what a pass under way may still do.
* **`barred_starts_no_run`** — no `cnc/run` is written under the bar, and the device receives no
  more than the rest of the chunk that was under way and one dark pad.
-/

namespace Glowforge.Stream

/-! ## The history

The bar as a phase of its own. A fault or a reset that asks for a clear sets it, and the first byte
of a stream that is woken behind the reset lifts it. -/

inductive BarPhase where
  | unbarred
  -- a fault, or a reset that asks for a clear
  | barred
  -- a wakeup behind the reset, with none of its stream's bytes in the device yet
  | woken
deriving DecidableEq

structure Bar where
  phase : BarPhase
  -- the chunk under way was built for the stream of that wakeup
  fresh : Bool
  -- the rest of the chunk under way at the bar, and what has landed since of it and of pads
  under : List UInt8
  took : List UInt8
  pads : List UInt8
deriving DecidableEq

def Bar.init : Bar := ⟨.unbarred, false, [], [], []⟩

/-- What a step of the shipper puts into the device, and the chunk it builds. -/
def Bar.ships (e : Env) (s : State) (h : Bar) : Bar :=
  if s.pc.site.inWrite then
    { h with
      phase := if h.fresh && landed s (shipStep e s) != [] then .unbarred else h.phase
      fresh := h.fresh && landed s (shipStep e s) == []
      took := h.took ++ landed s (shipStep e s) }
  else
    { h with
      fresh := h.fresh || (buildsChunk e s && h.phase == .woken)
      pads := h.pads ++ landed s (shipStep e s) }

/-- The bar falls, if it is not down. -/
def Bar.falls (site : Site) (h : Bar) : Bar :=
  if h.phase = .barred then h else ⟨.barred, false, site.remaining, [], []⟩

/-- The step sets `gf.failed`, or is a reset that drops a stream and asks for a clear. -/
def Label.bars (s : State) (l : Label) : Bool :=
  match l with
  | .reset _ => asksClear s.gf
  | l => (turn s l).any fun t => !s.gf.failed && t.gf.failed

/-- A wakeup behind the reset begins a stream. -/
def Label.wakes (s : State) : Label → Bool
  | .locked .wakeup _ => !s.gf.failed && !s.gf.streaming
  | _ => false

def Bar.lands (s : State) (l : Label) (h : Bar) : Bar :=
  match l with
  | .ship e => h.ships e s
  | _ => h

def Bar.record (s : State) (l : Label) (h : Bar) : Bar :=
  if l.bars s then (h.lands s l).falls s.pc.site
  else if l.wakes s && h.phase == .barred then { h with phase := .woken }
  else h.lands s l

/-! ## The condition

A pass is open to a fault in two stretches, while it asks for its run and while it carries a
`start_run`. -/

/-- The pass can still write `cnc/run`. -/
def ShipPc.asking : ShipPc → Bool
  | .gateState _ _ | .gateCounts _ _ | .runLatch | .runWrite _ _ | .runState _ false _ | .runStop _ => true
  | _ => false

/-- The pass carries a `start_run`. -/
def Site.carries : Site → Bool
  | .writing p _ _ | .wrote p _ _ => p.startRun
  | .tested startRun => startRun
  | _ => false

/-- A fault of another thread lands on no pass that asks for its run, and a reset that asks for a
clear on none that asks or carries a `start_run`. -/
def barsApart (s : State) (l : Label) : Bool :=
  match l with
  | .ship _ => true
  | .reset _ => !asksClear s.gf || !(s.pc.asking || s.pc.site.carries)
  | l => !l.bars s || !s.pc.asking

/-! ## The invariant

What the device may still receive under the bar: the rest of the chunk under way, and one dark pad. -/

/-- A chunk's write is under way, or has landed whole. -/
def Site.landing : Site → Bool
  | .writing _ _ _ | .wrote _ _ true => true
  | _ => false

def Site.unwritten : Site → Bool
  | .writing _ _ (_ :: _) => true
  | _ => false

/-- What the device has received since the bar. -/
structure Received (s : State) (h : Bar) : Prop where
  took : h.took <+: h.under
  rest : ∀ p c bs, s.pc.site = .writing p c bs → h.under = h.took ++ bs
  pads : h.pads = [] ∨ (h.pads = [0x00] ∧ s.gf.lastLit = false)

structure BarInv (s : State) (h : Bar) : Prop where
  custody : Custody s
  asking : s.pc.asking = true → h.phase = .unbarred
  carries : s.gf.active = true → s.pc.site.carries = true → h.phase = .unbarred ∨ s.gf.failed = true
  -- a chunk under way is the open stream's, or the pass breaks behind it, or its first byte opens
  chunk : s.gf.active = true → s.pc.site.landing = true →
    h.phase = .unbarred ∨ s.gf.failed = true ∨ s.gf.clearPending = true ∨
      (h.fresh = true ∧ s.pc.site.unwritten = true)
  fresh : h.fresh = true → h.phase = .woken
  sampled : s.pc.site = .sampled → s.gf.failed = false
  -- a reset leaves nothing to ship
  dead : h.phase = .barred → s.gf.failed = false → s.gf.marks.live = false
  received : h.phase ≠ .unbarred → h.fresh = false → Received s h

/-! ## The shipper

The stretches of its loop against the bar. Nothing is asked for under it, and no chunk is begun. -/

theorem ShipPc.asking_site {pc : ShipPc} (h : pc.asking = true) : pc.site = .starting := by
  cases pc with
  | gateState base written => rfl
  | gateCounts base written => rfl
  | runLatch => rfl
  | runWrite relight retried => rfl
  | runState relight retried noData => rfl
  | runStop relight => rfl
  | _ => cases h

/-- A pass asks for its run from the test on. -/
theorem shipStep_asking (e : Env) {s : State} (h : (shipStep e s).pc.asking = true) :
    s.pc.asking = true ∨ (s.pc.site = .tested true ∧ s.gf.active = true ∧ s.gf.failed = false) := by
  have hstarting := ShipPc.asking_site h
  cases shipStep_course e s with
  | asks hsite hstart hactive hfailed =>
    subst hstart
    exact .inr ⟨hsite, hactive, hfailed⟩
  | starts hsite =>
    left
    revert h
    cases hpc : s.pc with (rw [hpc] at hsite)
    | runState relight retried noData =>
      cases retried with
      | false => exact fun _ => rfl
      | true =>
        -- a retry is asked for once
        simp only [shipStep, hpc, issueState]
        cases noData <;> split <;> simp [ShipPc.asking]
    | gateState base written => exact fun _ => rfl
    | gateCounts base written => exact fun _ => rfl
    | runLatch => exact fun _ => rfl
    | runWrite relight retried => exact fun _ => rfl
    | runStop relight => exact fun _ => rfl
    | pendState clear zeros => cases clear <;> cases hsite
    | raise next => cases next <;> cases hsite
    | _ => cases hsite
  | snapshot hsite hsite' =>
    rw [hsite'] at hstarting
    split at hstarting <;> cases hstarting
  | _ => simp_all

/-- A pass comes to its test with a `start_run` it carried, with a fault, or behind a chunk that
landed with nothing against it. -/
theorem Course.tested {e : Env} {s t : State} (h : Course e s t) (htested : t.pc.site = .tested true) :
    s.pc.site.carries = true ∨ t.gf.failed = true ∨
      (∃ p c, s.pc.site = .wrote p c true ∧ s.gf.failed = false ∧ s.gf.clearPending = false) := by
  cases h with
  | finishes hround =>
    cases hround with
    | first hsite => simp_all
    | next hsite hfailed hsuspended hclear => exact .inr (.inr ⟨_, _, hsite, hfailed, hclear⟩)
  | breaks hsite hstop hsite' =>
    left
    rw [hsite'] at htested
    rw [hsite]
    exact Site.tested.inj htested
  | fails hsite hsite' hmarks => exact .inr (.inl (congrArg Marks.failed hmarks))
  | snapshot hsite hsite' =>
    rw [hsite'] at htested
    split at htested <;> cases htested
  | _ => simp_all

theorem Course.sampled {e : Env} {s t : State} (h : Course e s t) (hsampled : t.pc.site = .sampled) :
    t.gf.failed = false := by
  cases h with
  | samples hsite hsite' hfailed hsuspended hmarks => exact (congrArg Marks.failed hmarks).trans hfailed
  | snapshot hsite hsite' =>
    rw [hsite'] at hsampled
    split at hsampled <;> cases hsampled
  | _ => simp_all

/-- A pass that asks for its run is not faulted by the shipper's own step. -/
theorem Course.starting {e : Env} {s t : State} (h : Course e s t) (hstarting : t.pc.site = .starting) :
    t.gf.failed = s.gf.failed := by
  cases h with
  | asks hsite hstart hactive hfailed hsite' hmarks => exact congrArg Marks.failed hmarks
  | starts hsite hsite' hmarks => exact congrArg Marks.failed hmarks
  | snapshot hsite hsite' =>
    rw [hsite'] at hstarting
    split at hstarting <;> cases hstarting
  | _ => simp_all

namespace Bar

theorem ships_write {e : Env} {s : State} (h : Bar) (hwrite : s.pc.site.inWrite = true) :
    h.ships e s = { h with
      phase := if h.fresh && landed s (shipStep e s) != [] then .unbarred else h.phase
      fresh := h.fresh && landed s (shipStep e s) == []
      took := h.took ++ landed s (shipStep e s) } := by
  rw [ships, if_pos hwrite]

theorem ships_outside {e : Env} {s : State} (h : Bar) (hwrite : s.pc.site.inWrite = false) :
    h.ships e s = { h with
      fresh := h.fresh || (buildsChunk e s && h.phase == .woken)
      pads := h.pads ++ landed s (shipStep e s) } := by
  rw [ships, if_neg (by simp [hwrite])]

/-- No chunk is built. -/
theorem ships_still {e : Env} {s : State} (h : Bar) (hsite : s.pc.site.inWrite = false)
    (hsite' : (shipStep e s).pc.site.inChunk = false) :
    h.ships e s = { h with pads := h.pads ++ landed s (shipStep e s) } := by
  have hbuild : buildsChunk e s = false := by
    rw [buildsChunk, Site.inWrite_of_inChunk hsite', Bool.and_false]
  rw [h.ships_outside hsite, hbuild, Bool.false_and, Bool.or_false]

/-- What opens the bar is not undone by the shipper. -/
theorem ships_unbarred {e : Env} {s : State} {h : Bar} (hopen : h.phase = .unbarred) :
    (h.ships e s).phase = .unbarred := by
  simp only [ships]
  split
  · show (if _ then BarPhase.unbarred else h.phase) = .unbarred
    rw [hopen, ite_self]
  · exact hopen

end Bar

theorem Site.landing_of_inChunk {site : Site} (h : site.inChunk = false) : site.landing = false := by
  cases site with
  | writing p c bs => cases h
  | wrote p c ok => cases h
  | _ => rfl

/-- Behind a chunk that landed with nothing against it, the stream is the open one. -/
theorem BarInv.landed {s : State} {h : Bar} (hinv : BarInv s h) (hactive : s.gf.active = true)
    {p : Pass} {c : Chunk} (hsite : s.pc.site = .wrote p c true) (hfailed : s.gf.failed = false)
    (hclear : s.gf.clearPending = false) : h.phase = .unbarred := by
  rcases hinv.chunk hactive (by rw [hsite]; rfl) with hopen | hf | hc | ⟨-, hunwritten⟩
  · exact hopen
  · rw [hfailed] at hf
    cases hf
  · rw [hclear] at hc
    cases hc
  · rw [hsite] at hunwritten
    cases hunwritten

/-- A round begins on no failed stream, and not under the bar. -/
theorem BarInv.round {s : State} {h : Bar} (hinv : BarInv s h) {startRun : Bool}
    (hround : RoundFrom s startRun) (hlive : s.gf.marks.live = true) : h.phase ≠ .barred := by
  have hfailed : s.gf.failed = false := by
    cases hround with
    | first hsite => exact hinv.sampled hsite
    | next hsite hfailed => exact hfailed
  intro hbarred
  rw [hinv.dead hbarred hfailed] at hlive
  cases hlive

/-- A step of the shipper outside a write adds at most a pad that was due. -/
theorem Received.outside {e : Env} {s : State} {h : Bar} {due : Bool} (hreceived : Received s h)
    (hsite : s.pc.site.inWrite = false) (hsite' : (shipStep e s).pc.site.inChunk = false)
    (hlit : (shipStep e s).gf.lastLit = (s.gf.lastLit && !due))
    (hland : landed s (shipStep e s) = padBytes (due && s.gf.lastLit) e.ok s) :
    Received (shipStep e s) (h.ships e s) := by
  rw [h.ships_outside hsite]
  refine ⟨hreceived.took, fun p c bs hwriting => ?_, ?_⟩
  · rw [hwriting] at hsite'
    cases hsite'
  · show h.pads ++ landed s (shipStep e s) = [] ∨ (h.pads ++ landed s (shipStep e s) = [0x00] ∧ _)
    rw [hland, hlit]
    rcases padBytes_eq (due && s.gf.lastLit) e.ok s with hnone | ⟨hpad, hdue⟩
    · rw [hnone, List.append_nil]
      rcases hreceived.pads with hpads | ⟨hpads, hdark⟩
      · exact .inl hpads
      · exact .inr ⟨hpads, by rw [hdark, Bool.false_and]⟩
    · rw [Bool.and_eq_true] at hdue
      rw [hpad, hdue.1, Bool.not_true, Bool.and_false]
      rcases hreceived.pads with hpads | ⟨hpads, hdark⟩
      · exact .inr ⟨by rw [hpads]; rfl, rfl⟩
      · rw [hdue.2] at hdark
        cases hdark

theorem RoundFrom.carried {s : State} {startRun : Bool} (h : RoundFrom s startRun)
    (hstart : startRun = true) :
    ∃ p c, s.pc.site = .wrote p c true ∧ s.gf.failed = false ∧ s.gf.clearPending = false := by
  cases h with
  | first => cases hstart
  | next hsite hfailed hsuspended hclear => exact ⟨_, _, hsite, hfailed, hclear⟩

/-- A chunk is built: for the open stream, or as the first of the stream that was woken. -/
theorem build_chunk {s : State} {h : Bar} (hinv : BarInv s h) {startRun : Bool} (hround : RoundFrom s startRun) (hlive : s.gf.marks.live = true) :
    h.phase = .unbarred ∨ h.phase = .woken := by
  cases hphase : h.phase with
  | unbarred => exact .inl rfl
  | woken => exact .inr rfl
  | barred => exact absurd hphase (hinv.round hround hlive)

section Ships

variable {e : Env} {s : State} {h : Bar}

/-- A pass that asks for its run asks for the open stream's. -/
theorem BarInv.ships_asking (hinv : BarInv s h) (hasking : (shipStep e s).pc.asking = true) :
    (h.ships e s).phase = .unbarred := by
  refine Bar.ships_unbarred ?_
  rcases shipStep_asking e hasking with hasks | ⟨hsite, hactive, hfailed⟩
  · exact hinv.asking hasks
  · rcases hinv.carries hactive (by rw [hsite]; rfl) with hopen | hf
    · exact hopen
    · rw [hfailed] at hf
      cases hf

/-- What a pass carries into the step. -/
theorem BarInv.ships_carried (hinv : BarInv s h) (hsame : (shipStep e s).gf.failed = s.gf.failed)
    (hact : (shipStep e s).gf.active = true) (hcarries : s.pc.site.carries = true) :
    (h.ships e s).phase = .unbarred ∨ (shipStep e s).gf.failed = true := by
  rcases hinv.carries ((shipStep_active e s).symm.trans hact) hcarries with hopen | hf
  · exact .inl (Bar.ships_unbarred hopen)
  · exact .inr (hsame.trans hf)

theorem bar_builds (hinv : BarInv s h) {p : Pass} {c : Chunk} {bs : List UInt8}
    (hround : RoundFrom s p.startRun) (hsite' : (shipStep e s).pc.site = .writing p c bs)
    (hlive : s.gf.marks.live = true) (hlast : lastTick c.bytes = some (shipStep e s).gf.lastLit)
    (hrest : bs = if s.gf.active then c.bytes else []) : BarInv (shipStep e s) (h.ships e s) := by
  have hactive := shipStep_active e s
  have hasking := hinv.ships_asking (e := e)
  have hnot := hinv.round hround hlive
  have hbuild : buildsChunk e s = true := by rw [buildsChunk, hround.outside, hsite']; rfl
  have hships := h.ships_outside (e := e) hround.outside
  rw [hbuild, Bool.true_and] at hships
  rw [hships] at hasking ⊢
  refine ⟨shipStep_custody hinv.custody, hasking, fun hact hcarries => ?_, fun hact _ => ?_, fun hfresh => ?_, (shipStep_course e s).sampled,
    fun hbarred => absurd hbarred hnot, fun hclosed hold => ?_⟩
  · rw [hsite'] at hcarries
    obtain ⟨p, c, hsite, hfailed, hclear⟩ := hround.carried hcarries
    exact .inl (hinv.landed (hactive.symm.trans hact) hsite hfailed hclear)
  · rw [hactive] at hact
    rcases build_chunk hinv hround hlive with hopen | hwoken
    · exact .inl hopen
    · right; right; right
      refine ⟨by simp [hwoken], ?_⟩
      rw [hsite', hrest, if_pos hact]
      cases hbytes : c.bytes with
      | nil =>
        rw [hbytes] at hlast
        cases hlast
      | cons b bs => rfl
  · cases hold : h.fresh with
    | true => exact hinv.fresh hold
    | false => simpa [hold] using hfresh
  · -- neither open nor barred, so the stream is the woken one, and the chunk is its own
    exfalso
    cases hphase : h.phase with
    | unbarred => exact hclosed hphase
    | barred => exact hnot hphase
    | woken => simp [hphase] at hold

theorem bar_lands (hinv : BarInv s h) (hsame : (shipStep e s).gf.failed = s.gf.failed) {p : Pass}
    {c : Chunk} {b : UInt8} {bs : List UInt8} (hsite : s.pc.site = .writing p c (b :: bs))
    (hsite' : (shipStep e s).pc.site = .writing p c bs) (hmarks : (shipStep e s).gf.marks = s.gf.marks)
    (hland : landed s (shipStep e s) = [b]) : BarInv (shipStep e s) (h.ships e s) := by
  have hactive := shipStep_active e s
  have hasking := hinv.ships_asking (e := e)
  have hcarried := hinv.ships_carried hsame
  have hships := h.ships_write (e := e) (s := s) (by rw [hsite]; rfl)
  rw [hland, show ([b] != []) = true from rfl, show ([b] == []) = false from rfl, Bool.and_true,
    Bool.and_false] at hships
  have hlit : (shipStep e s).gf.lastLit = s.gf.lastLit := congrArg Marks.lastLit hmarks
  rw [hships] at hasking hcarried ⊢
  refine ⟨shipStep_custody hinv.custody, hasking, fun hact hcarries => ?_, fun hact _ => ?_,
      by rintro ⟨⟩,
    (shipStep_course e s).sampled, fun hbarred hfailed => ?_, fun hclosed _ => ?_⟩
  · rw [hsite'] at hcarries
    exact hcarried hact (by rw [hsite]; exact hcarries)
  · rcases hinv.chunk (hactive.symm.trans hact) (by rw [hsite]; rfl) with hopen | hf | hc | ⟨hfresh, -⟩
    · exact .inl (by simp [hopen])
    · exact .inr (.inl (hsame.trans hf))
    · exact .inr (.inr (.inl ((congrArg Marks.clearPending hmarks).trans hc)))
    · exact .inl (by simp [hfresh])
  · cases hfresh : h.fresh with
    | true => simp [hfresh] at hbarred
    | false =>
      rw [hmarks]
      exact hinv.dead (by simpa [hfresh] using hbarred) (hsame.symm.trans hfailed)
  · cases hfresh : h.fresh with
    | true => simp [hfresh] at hclosed
    | false =>
      have hreceived := hinv.received (by simpa [hfresh] using hclosed) hfresh
      have hunder := hreceived.rest p c (b :: bs) hsite
      have hnext : h.under = (h.took ++ [b]) ++ bs := by
        rw [hunder, List.append_assoc]
        rfl
      refine ⟨⟨bs, hnext.symm⟩, fun p' c' bs' hwriting => ?_, ?_⟩
      · rw [hsite'] at hwriting
        cases hwriting
        exact hnext
      · rw [hlit]
        exact hreceived.pads

theorem bar_closes (hinv : BarInv s h) (hsame : (shipStep e s).gf.failed = s.gf.failed) {p : Pass}
    {c : Chunk} {ok : Bool} {bs : List UInt8} (hsite : s.pc.site = .writing p c bs)
    (hsite' : (shipStep e s).pc.site = .wrote p c ok) (hdone : ok = true → bs = [])
    (hmarks : (shipStep e s).gf.marks = s.gf.marks) (hland : landed s (shipStep e s) = []) :
    BarInv (shipStep e s) (h.ships e s) := by
  have hactive := shipStep_active e s
  have hasking := hinv.ships_asking (e := e)
  have hcarried := hinv.ships_carried hsame
  have hships := h.ships_write (e := e) (s := s) (by rw [hsite]; rfl)
  rw [hland, show (([] : List UInt8) != []) = false from rfl,
    show (([] : List UInt8) == []) = true from rfl, Bool.and_true, Bool.and_false, List.append_nil,
    if_neg Bool.false_ne_true] at hships
  rw [hships] at hasking hcarried ⊢
  refine ⟨shipStep_custody hinv.custody, hasking, fun hact hcarries => ?_, fun hact hlanding => ?_, hinv.fresh,
    (shipStep_course e s).sampled, fun hbarred hfailed => ?_, fun hclosed hold => ?_⟩
  · rw [hsite'] at hcarries
    exact hcarried hact (by rw [hsite]; exact hcarries)
  · obtain rfl : ok = true := by
      rw [hsite'] at hlanding
      cases ok with
      | true => rfl
      | false => cases hlanding
    rw [hdone rfl] at hsite
    rcases hinv.chunk (hactive.symm.trans hact) (by rw [hsite]; rfl) with hopen | hf | hc | ⟨-, hunwritten⟩
    · exact .inl hopen
    · exact .inr (.inl (hsame.trans hf))
    · exact .inr (.inr (.inl ((congrArg Marks.clearPending hmarks).trans hc)))
    · rw [hsite] at hunwritten
      cases hunwritten
  · rw [hmarks]
    exact hinv.dead hbarred (hsame.symm.trans hfailed)
  · have hreceived := hinv.received hclosed hold
    refine ⟨hreceived.took, fun p' c' bs' hwriting => ?_, ?_⟩
    · rw [hsite'] at hwriting
      cases hwriting
    · rw [show (shipStep e s).gf.lastLit = s.gf.lastLit from congrArg Marks.lastLit hmarks]
      exact hreceived.pads

theorem bar_outside (hinv : BarInv s h) (hsame : (shipStep e s).gf.failed = s.gf.failed) {due : Bool}
    (hsite : s.pc.site.inWrite = false) (hsite' : (shipStep e s).pc.site.inChunk = false)
    (hlit : (shipStep e s).gf.lastLit = (s.gf.lastLit && !due))
    (hland : landed s (shipStep e s) = padBytes (due && s.gf.lastLit) e.ok s)
    (hlive : (shipStep e s).gf.marks.live = true → s.gf.marks.live = true) :
    BarInv (shipStep e s) (h.ships e s) := by
  have hcourse := shipStep_course e s
  have hactive := shipStep_active e s
  have hships := h.ships_still hsite hsite'
  refine ⟨shipStep_custody hinv.custody, hinv.ships_asking, fun hact hcarries => ?_, fun _ hlanding => ?_, ?_, hcourse.sampled, ?_, ?_⟩
  · have htested : (shipStep e s).pc.site = .tested true := by
      cases hs : (shipStep e s).pc.site with (rw [hs] at hsite' hcarries)
      | tested startRun => rw [show startRun = true from hcarries]
      | writing p c bs => cases hsite'
      | wrote p c ok => cases hsite'
      | _ => cases hcarries
    rcases hcourse.tested htested with hcarries | hf | ⟨p, c, hsite, hfailed, hclear⟩
    · exact hinv.ships_carried hsame hact hcarries
    · exact .inr hf
    · exact .inl (Bar.ships_unbarred (hinv.landed (hactive.symm.trans hact) hsite hfailed hclear))
  · rw [Site.landing_of_inChunk hsite'] at hlanding
    cases hlanding
  · rw [hships]
    exact hinv.fresh
  · intro hbarred hfailed
    rw [hships] at hbarred
    cases hl : (shipStep e s).gf.marks.live with
    | false => rfl
    | true => exact (hlive hl).symm.trans (hinv.dead hbarred (hsame.symm.trans hfailed))
  · intro hclosed hold
    refine Received.outside ?_ hsite hsite' hlit hland
    rw [hships] at hclosed hold
    exact hinv.received hclosed hold

/-- The shipper keeps the invariant where its step faults nothing. -/
theorem ship_bar (hinv : BarInv s h) (hsame : (shipStep e s).gf.failed = s.gf.failed) :
    BarInv (shipStep e s) (h.ships e s) := by
  cases (shipStep_course e s).passage with
  | builds hround hsite' hlive hmarks hfirst hlast hrest hland =>
    exact bar_builds hinv hround hsite' hlive hlast hrest
  | lands hsite hsite' hmarks hland => exact bar_lands hinv hsame hsite hsite' hmarks hland
  | closes hsite hsite' hdone hfails hmarks hland =>
    exact bar_closes hinv hsame hsite hsite' hdone hmarks hland
  | outside due hsite hsite' hlit hland hlive => exact bar_outside hinv hsame hsite hsite' hlit hland hlive

end Ships

/-! ## The bar falls

At a fault or a reset, whatever the shipper is doing. -/

namespace Bar

theorem stale {h : Bar} (hfresh : h.fresh = true → h.phase = .woken) (hbarred : h.phase = .barred) :
    h.fresh = false := by
  cases hf : h.fresh with
  | false => rfl
  | true =>
    rw [hfresh hf] at hbarred
    cases hbarred

theorem falls_fresh {site : Site} {h : Bar} (hfresh : h.fresh = true → h.phase = .woken) :
    (h.falls site).fresh = false := by
  simp only [falls]
  split
  · next hbarred => exact stale hfresh hbarred
  · rfl

end Bar

/-- What the device has received where the bar falls: what it had under a bar already down, or
nothing. -/
theorem Received.falls {s t : State} {h : Bar} (hfresh : h.fresh = true → h.phase = .woken)
    (hreceived : h.phase = .barred → h.fresh = false → Received t h)
    (hsite : ∀ p c bs, t.pc.site = .writing p c bs → s.pc.site = t.pc.site) :
    Received t (h.falls s.pc.site) := by
  simp only [Bar.falls]
  split
  · next hbarred => exact hreceived hbarred (Bar.stale hfresh hbarred)
  · refine ⟨List.nil_prefix, fun p c bs hwriting => ?_, .inl rfl⟩
    show s.pc.site.remaining = [] ++ bs
    rw [hsite p c bs hwriting, hwriting]
    rfl

theorem Received.kept {s t : State} {h : Bar} (hreceived : Received s h) (hpc : t.pc = s.pc)
    (hlit : t.gf.lastLit = true → s.gf.lastLit = true) : Received t h := by
  refine ⟨hreceived.took, fun p c bs hwriting => hreceived.rest p c bs (hpc ▸ hwriting), ?_⟩
  rcases hreceived.pads with hpads | ⟨hpads, hdark⟩
  · exact .inl hpads
  · refine .inr ⟨hpads, ?_⟩
    cases hl : t.gf.lastLit with
    | false => rfl
    | true => exact (hlit hl).symm.trans hdark

/-- The shipper faults the stream itself. -/
theorem ship_falls {e : Env} {s : State} {h : Bar} (hinv : BarInv s h) (hunfailed : s.gf.failed = false)
    (hfailed : (shipStep e s).gf.failed = true) :
    BarInv (shipStep e s) ((h.ships e s).falls s.pc.site) := by
  have hcourse := shipStep_course e s
  have hkept : ∀ {m : Marks}, (shipStep e s).gf.marks = m → m.failed = s.gf.failed → False := by
    intro m hmarks hm
    have hsame : (shipStep e s).gf.failed = s.gf.failed := (congrArg Marks.failed hmarks).trans hm
    rw [hfailed, hunfailed] at hsame
    cases hsame
  cases hcourse.passage with
  | builds hround hsite' hlive hmarks => exact (hkept hmarks rfl).elim
  | lands hsite hsite' hmarks => exact (hkept hmarks rfl).elim
  | closes hsite hsite' hdone hfails hmarks => exact (hkept hmarks rfl).elim
  | outside due hsite hsite' hlit hland hlive =>
    have hships := h.ships_still hsite hsite'
    have hfresh : (h.ships e s).fresh = true → (h.ships e s).phase = .woken := by
      rw [hships]
      exact hinv.fresh
    refine ⟨shipStep_custody hinv.custody, fun hasking => ?_, fun _ _ => .inr hfailed,
      fun _ _ => .inr (.inl hfailed), fun hf => ?_, hcourse.sampled, fun _ hf => ?_, fun _ _ => ?_⟩
    · have hsame := hcourse.starting (ShipPc.asking_site hasking)
      rw [hfailed, hunfailed] at hsame
      cases hsame
    · rw [Bar.falls_fresh hfresh] at hf
      cases hf
    · rw [hfailed] at hf
      cases hf
    · refine Received.falls hfresh (fun hbarred hold => ?_) fun p c bs hwriting => ?_
      · refine Received.outside ?_ hsite hsite' hlit hland
        rw [hships] at hbarred hold
        exact hinv.received (by rw [hbarred]; rintro ⟨⟩) hold
      · rw [hwriting] at hsite'
        cases hsite'

/-- A fault or a reset of another thread. -/
theorem BarInv.fallen {s t : State} {h : Bar} (hinv : BarInv s h) (hcustody : Custody t)
    (hpc : t.pc = s.pc) (hlit : t.gf.lastLit = true → s.gf.lastLit = true)
    (hasking : s.pc.asking = false) (hunlocked : s.pc.site ≠ .sampled)
    (hcarries : t.gf.failed = true ∨ (t.gf.clearPending = true ∧ s.pc.site.carries = false))
    (hdead : t.gf.failed = false → t.gf.marks.live = false) : BarInv t (h.falls s.pc.site) := by
  refine ⟨hcustody, fun hasks => ?_, fun _ hc => ?_, fun _ _ => ?_, fun hf => ?_, fun hsite => ?_,
    fun _ => hdead, fun _ _ => ?_⟩
  · rw [hpc, hasking] at hasks
    cases hasks
  · rcases hcarries with hfailed | ⟨-, hnone⟩
    · exact .inr hfailed
    · rw [hpc, hnone] at hc
      cases hc
  · rcases hcarries with hfailed | ⟨hclear, -⟩
    · exact .inr (.inl hfailed)
    · exact .inr (.inr (.inl hclear))
  · rw [Bar.falls_fresh hinv.fresh] at hf
    cases hf
  · rw [hpc] at hsite
    exact absurd hsite hunlocked
  · refine Received.falls hinv.fresh (fun hbarred hold => ?_) fun p c bs _ => by rw [hpc]
    exact (hinv.received (by rw [hbarred]; rintro ⟨⟩) hold).kept hpc hlit

/-- A step of another thread that faults nothing. -/
theorem BarInv.kept {s t : State} {h : Bar} (hinv : BarInv s h) (hcustody : Custody t)
    (hpc : t.pc = s.pc) (hactive : t.gf.active = s.gf.active)
    (hfailed : s.pc.site.owning = true → s.gf.failed = true → t.gf.failed = true)
    (hunfailed : t.gf.failed = true → s.gf.failed = true)
    (hclear : s.gf.clearPending = true → t.gf.clearPending = true)
    (hlit : t.gf.lastLit = true → s.gf.lastLit = true)
    (hdead : h.phase = .barred → t.gf.failed = false → t.gf.marks.live = false) : BarInv t h := by
  have howns : s.pc.site.carries = true ∨ s.pc.site.landing = true → s.pc.site.owning = true := by
    intro hpass
    cases hsite : s.pc.site with (rw [hsite] at hpass)
    | writing p c bs => rfl
    | wrote p c ok => rfl
    | tested startRun =>
      cases startRun with
      | true => rfl
      | false => rcases hpass with h | h <;> cases h
    | _ => rcases hpass with h | h <;> cases h
  refine ⟨hcustody, ?_, fun hact hcarries => ?_, fun hact hlanding => ?_, hinv.fresh, fun hsite => ?_,
    hdead, fun hclosed hold => (hinv.received hclosed hold).kept hpc hlit⟩
  · rw [hpc]
    exact hinv.asking
  · rw [hpc] at hcarries
    rcases hinv.carries (hactive.symm.trans hact) hcarries with hopen | hf
    · exact .inl hopen
    · exact .inr (hfailed (howns (.inl hcarries)) hf)
  · rw [hpc] at hlanding ⊢
    rcases hinv.chunk (hactive.symm.trans hact) hlanding with hopen | hf | hc | hunwritten
    · exact .inl hopen
    · exact .inr (.inl (hfailed (howns (.inr hlanding)) hf))
    · exact .inr (.inr (.inl (hclear hc)))
    · exact .inr (.inr (.inr hunwritten))
  · rw [hpc] at hsite
    cases hf : t.gf.failed with
    | false => rfl
    | true => exact (hunfailed hf).symm.trans (hinv.sampled hsite)

/-! ## The other threads

What they do to the bar follows from the marks that they move. -/

/-- What a turn outside the shipper and the reset records. -/
theorem Bar.record_moved {s t : State} {l : Label} (h : Bar) (hturn : turn s l = some t)
    (hship : ∀ e, l ≠ .ship e) (hreset : ∀ now, l ≠ .reset now) :
    h.record s l =
      if !s.gf.failed && t.gf.failed then h.falls s.pc.site
      else if l.wakes s && h.phase == .barred then { h with phase := .woken } else h := by
  cases l with
  | ship e => exact absurd rfl (hship e)
  | reset now => exact absurd rfl (hreset now)
  | _ =>
    simp only [Bar.record, Bar.lands, Label.bars, hturn, Option.any_some]

/-- A fault of another thread takes `gf.lock`. -/
theorem fails_unlocked {s t : State} {l : Label} (hmoved : Moved s l t) (hen : l.enabled s = true)
    (hunfailed : s.gf.failed = false) (hfailed : t.gf.failed = true) :
    s.pc.site ≠ .sampled ∧ (t.gf.lastLit = true → s.gf.lastLit = true) := by
  have hsame : ∀ {m : Marks}, t.gf.marks = m → m.failed = s.gf.failed →
      s.pc.site ≠ .sampled ∧ (t.gf.lastLit = true → s.gf.lastLit = true) := by
    intro m hmarks hm
    have hf : t.gf.failed = s.gf.failed := (congrArg Marks.failed hmarks).trans hm
    rw [hfailed, hunfailed] at hf
    cases hf
  cases hmoved with
  | still hmarks => exact hsame hmarks rfl
  | wakesLive hl hlive hmarks => exact hsame hmarks rfl
  | begins hl hidle hmarks => exact hsame hmarks rfl
  | idles hl hmarks => exact hsame hmarks rfl
  | suspends hl hdrained hmarks => exact hsame hmarks rfl
  | resumes hl hactive hmarks => exact hsame hmarks rfl
  | event hl hlive hmarks =>
    subst hl
    refine ⟨Label.enabled_unlocked hen rfl, ?_⟩
    rw [show t.gf.lastLit = s.gf.lastLit from congrArg Marks.lastLit hmarks]
    exact id
  | latchFails hl hhead hmarks =>
    subst hl
    refine ⟨fun hsite => ?_, ?_⟩
    · simp [Label.enabled, hhead, Owed.blocked, ShipPc.site_sampled hsite] at hen
    · rw [show t.gf.lastLit = s.gf.lastLit from congrArg Marks.lastLit hmarks]
      exact id
  | resets hl hafter =>
    rw [hafter.failed] at hfailed
    cases hfailed
  | swaps hl hhead hmarks =>
    rw [show t.gf.failed = false from congrArg Marks.failed hmarks] at hfailed
    cases hfailed

/-- A wakeup behind the reset. -/
theorem wakes_bar {s t : State} {h : Bar} {l : Label} (hinv : BarInv s h) (hcustody : Custody t)
    (hmoved : Moved s l t) (hpc : t.pc = s.pc) (hwakes : l.wakes s = true) (hbarred : h.phase = .barred) :
    BarInv t { h with phase := .woken } := by
  have hquiet : ∃ now, l = .locked .wakeup now ∧ s.gf.failed = false ∧ s.gf.streaming = false := by
    cases l with
    | locked c now =>
      cases c with
      | wakeup =>
        simp only [Label.wakes, Bool.and_eq_true, Bool.not_eq_true'] at hwakes
        exact ⟨now, rfl, hwakes⟩
      | _ => cases hwakes
    | _ => cases hwakes
  obtain ⟨now, rfl, hfailed, hidle⟩ := hquiet
  have hnot : h.phase ≠ .unbarred := by rw [hbarred]; rintro ⟨⟩
  have hmarks : ∃ killed streaming produced shipped, t.gf.marks = { s.gf.marks with
      killed := killed, streaming := streaming, produced := produced, shipped := shipped } := by
    cases hmoved with
    | still hmarks => exact ⟨_, _, _, _, hmarks⟩
    | wakesLive hl hlive hmarks => exact ⟨_, _, _, _, hmarks⟩
    | begins hl hidle hmarks => exact ⟨_, _, _, _, hmarks⟩
    | event hl hlive =>
      rw [hidle] at hlive
      cases hlive
    | idles hl => cases hl
    | resets hl => cases hl
    | suspends hl => cases hl
    | resumes hl => cases hl
    | latchFails hl => cases hl
    | swaps hl => cases hl
  obtain ⟨killed, streaming, produced, shipped, hmarks⟩ := hmarks
  have hunfailed : t.gf.failed = false := (congrArg Marks.failed hmarks).trans hfailed
  have hlit : t.gf.lastLit = s.gf.lastLit := congrArg Marks.lastLit hmarks
  have hactive : t.gf.active = s.gf.active := congrArg Marks.active hmarks
  refine ⟨hcustody, fun hasking => ?_, fun hact hcarries => ?_, fun hact hlanding => ?_, fun _ => rfl,
    fun _ => hunfailed, by rintro ⟨⟩, fun _ hold => ?_⟩
  · rw [hpc] at hasking
    exact absurd (hinv.asking hasking) hnot
  · rw [hpc] at hcarries
    rcases hinv.carries (hactive.symm.trans hact) hcarries with hopen | hf
    · exact absurd hopen hnot
    · rw [hfailed] at hf
      cases hf
  · rw [hpc] at hlanding
    rcases hinv.chunk (hactive.symm.trans hact) hlanding with hopen | hf | hc | ⟨hfresh, -⟩
    · exact absurd hopen hnot
    · rw [hfailed] at hf
      cases hf
    · exact .inr (.inr (.inl ((congrArg Marks.clearPending hmarks).trans hc)))
    · rw [hinv.fresh hfresh] at hbarred
      cases hbarred
  · have hreceived := (hinv.received hnot hold).kept hpc (by rw [hlit]; exact id)
    exact ⟨hreceived.took, hreceived.rest, hreceived.pads⟩

/-- A turn that neither faults nor wakes. -/
theorem moved_bar {s t : State} {h : Bar} {l : Label} (hinv : BarInv s h) (hcustody : Custody t)
    (hmoved : Moved s l t) (hpc : t.pc = s.pc) (hreset : ∀ now, l ≠ .reset now)
    (hunfailed : t.gf.failed = true → s.gf.failed = true)
    (hwakes : h.phase = .barred → l.wakes s = false) : BarInv t h := by
  have hsame : ∀ {m : Marks}, t.gf.marks = m → m.active = s.gf.active → m.failed = s.gf.failed →
      m.clearPending = s.gf.clearPending → m.lastLit = s.gf.lastLit →
      (h.phase = .barred → s.gf.failed = false → s.gf.marks.live = false → m.live = false) →
      BarInv t h := by
    intro m hmarks hactive hfailed hclear hlit hlive
    have hf : t.gf.failed = s.gf.failed := (congrArg Marks.failed hmarks).trans hfailed
    refine hinv.kept hcustody hpc ((congrArg Marks.active hmarks).trans hactive) (fun _ h => hf.trans h)
      hunfailed ?_ ?_ fun hbarred hdead => ?_
    · rw [show t.gf.clearPending = _ from (congrArg Marks.clearPending hmarks).trans hclear]
      exact id
    · rw [show t.gf.lastLit = _ from (congrArg Marks.lastLit hmarks).trans hlit]
      exact id
    · rw [hmarks]
      exact hlive hbarred (hf.symm.trans hdead) (hinv.dead hbarred (hf.symm.trans hdead))
  cases hmoved with
  | still hmarks => exact hsame hmarks rfl rfl rfl rfl fun _ _ => id
  | wakesLive hl hlive hmarks => exact hsame hmarks rfl rfl rfl rfl fun _ _ => id
  | begins hl hidle hmarks =>
    refine hsame hmarks rfl rfl rfl rfl fun hbarred hfailed _ => ?_
    have hno := hwakes hbarred
    rw [hl] at hno
    simp [Label.wakes, hfailed, hidle] at hno
  | event hl hlive hmarks =>
    refine hinv.kept hcustody hpc (congrArg Marks.active hmarks) (fun _ hf => ?_) hunfailed ?_ ?_
      fun hbarred hdead => ?_
    · rw [show t.gf.failed = _ from congrArg Marks.failed hmarks, hf, Bool.true_or, Bool.true_or]
    · rw [show t.gf.clearPending = s.gf.clearPending from congrArg Marks.clearPending hmarks]
      exact id
    · rw [show t.gf.lastLit = s.gf.lastLit from congrArg Marks.lastLit hmarks]
      exact id
    · -- a live stream under the bar is a failed one
      have hf : s.gf.failed = false := by
        rw [show t.gf.failed = _ from congrArg Marks.failed hmarks, Bool.or_assoc, Bool.or_eq_false_iff] at hdead
        exact hdead.1
      have hover := hinv.dead hbarred hf
      simp [Marks.live, Gf.marks, hlive] at hover
  | idles hl hmarks =>
    refine hsame hmarks rfl rfl rfl rfl fun _ _ hover => ?_
    simp only [Marks.live, Bool.or_eq_false_iff] at hover
    exact hover.2
  | resets hl => exact absurd hl (hreset _)
  | suspends hl hdrained hmarks => exact hsame hmarks rfl rfl rfl rfl fun _ _ => id
  | resumes hl hactive hmarks => exact hsame hmarks rfl rfl rfl rfl fun _ _ => id
  | latchFails hl hhead hmarks =>
    have hfailed : t.gf.failed = true := congrArg Marks.failed hmarks
    refine hsame hmarks rfl (hunfailed hfailed).symm rfl rfl fun _ _ => id
  | swaps hl hhead hmarks =>
    obtain ⟨hactive, haway⟩ := hinv.custody.swapping hhead
    refine hinv.kept hcustody hpc (congrArg Marks.active hmarks) (fun hown => ?_) hunfailed ?_ ?_ ?_
    · rw [(hinv.custody.marks.here hactive haway).1] at hown
      cases hown
    · rw [show t.gf.clearPending = s.gf.clearPending from congrArg Marks.clearPending hmarks]
      exact id
    · rw [show t.gf.lastLit = false from congrArg Marks.lastLit hmarks]
      rintro ⟨⟩
    · intro _ _
      rw [hmarks]
      rfl

/-- A reset of another thread. -/
theorem reset_bar {s t : State} {h : Bar} {now : Nat} (hinv : BarInv s h) (hcustody : Custody t)
    (hafter : s.gf.AfterReset t.gf) (hpc : t.pc = s.pc) (hunlocked : s.pc.site ≠ .sampled)
    (hok : barsApart s (.reset now) = true) : BarInv t (h.record s (.reset now)) := by
  have hlit : t.gf.lastLit = true → s.gf.lastLit = true := by
    rw [hafter.lastLit, Bool.and_eq_true]
    exact And.right
  cases hasks : asksClear s.gf with
  | true =>
    simp only [barsApart, hasks, Bool.not_true, Bool.false_or, Bool.not_eq_true', Bool.or_eq_false_iff] at hok
    have hclear : t.gf.clearPending = true := by
      rw [hafter.clearPending, Bool.or_assoc, show (resetStops s.gf || s.gf.failed) = true from hasks, Bool.or_true]
    have hrecord : h.record s (.reset now) = h.falls s.pc.site := by
      simp only [Bar.record, Label.bars, hasks, if_true, Bar.lands]
    rw [hrecord]
    refine hinv.fallen hcustody hpc hlit hok.1 hunlocked (.inr ⟨hclear, hok.2⟩) fun _ => ?_
    cases hlive : t.gf.marks.live with
    | false => rfl
    | true =>
      rw [(hafter.live hlive).2] at hasks
      cases hasks
  | false =>
    have hrecord : h.record s (.reset now) = h := by
      simp only [Bar.record, Label.bars, hasks, Label.wakes, Bool.false_and, Bool.false_eq_true, if_false, Bar.lands]
    have hunfailed : s.gf.failed = false := by
      simp only [asksClear, Bool.or_eq_false_iff] at hasks
      exact hasks.2
    rw [hrecord]
    refine hinv.kept hcustody hpc hafter.active (fun _ hf => ?_) ?_ ?_ hlit fun hbarred _ => ?_
    · rw [hunfailed] at hf
      cases hf
    · rw [hafter.failed]
      rintro ⟨⟩
    · intro hclear
      rw [hafter.clearPending, hclear, Bool.true_or, Bool.true_or]
    · cases hlive : t.gf.marks.live with
      | false => rfl
      | true => exact (hafter.live hlive).1.symm.trans (hinv.dead hbarred hunfailed)

theorem step_bar {s t : State} {l : Label} {h : Bar} (hstep : step s l = some t)
    (hok : barsApart s l = true) (hinv : BarInv s h) : BarInv t (h.record s l) := by
  have hcustody := step_custody hstep hinv.custody
  obtain ⟨hen, hturn⟩ := step_eq_some.mp hstep
  have hmoves : (∀ e, l ≠ .ship e) → (∀ now, l ≠ .reset now) → (!l.bars s || !s.pc.asking) = true →
      l.bars s = (!s.gf.failed && t.gf.failed) → BarInv t (h.record s l) := by
    intro hship hreset hapart hbars
    have hmoved := turn_moved hturn hship
    have hpc := (turn_turned hturn hship).pc
    rw [h.record_moved hturn hship hreset]
    rw [hbars] at hapart
    split
    · next hfalls =>
      rw [hfalls, Bool.not_true, Bool.false_or, Bool.not_eq_true'] at hapart
      simp only [Bool.and_eq_true, Bool.not_eq_true'] at hfalls
      obtain ⟨hunlocked, hlit⟩ := fails_unlocked hmoved hen hfalls.1 hfalls.2
      refine hinv.fallen hcustody hpc hlit hapart hunlocked (.inl hfalls.2) fun hf => ?_
      rw [hfalls.2] at hf
      cases hf
    · next hstands =>
      split
      · next hwakes =>
        simp only [Bool.and_eq_true, beq_iff_eq] at hwakes
        exact wakes_bar hinv hcustody hmoved hpc hwakes.1 hwakes.2
      · next hwakes =>
        refine moved_bar hinv hcustody hmoved hpc hreset (fun hf => ?_) fun hbarred => ?_
        · simpa [hf] using hstands
        · simpa [hbarred] using hwakes
  cases l with
  | ship e =>
    cases hturn
    have hrecord : h.record s (.ship e) =
        if !s.gf.failed && (shipStep e s).gf.failed then (h.ships e s).falls s.pc.site else h.ships e s := by
      simp only [Bar.record, Label.bars, turn, Option.any_some, Bar.lands, Label.wakes, Bool.false_and,
        Bool.false_eq_true, if_false]
    rw [hrecord]
    split
    · next hfalls =>
      simp only [Bool.and_eq_true, Bool.not_eq_true'] at hfalls
      exact ship_falls hinv hfalls.1 hfalls.2
    · next hstands =>
      refine ship_bar hinv ?_
      cases hf : s.gf.failed with
      | true => exact shipStep_failed e s hf
      | false => simpa [hf] using hstands
  | reset now =>
    cases hturn
    exact reset_bar hinv hcustody (resetLocked_after now s.gf) rfl (Label.enabled_unlocked hen rfl) hok
  | _ => exact hmoves (by rintro _ ⟨⟩) (by rintro _ ⟨⟩) hok (by simp only [Label.bars, hturn,
      Option.any_some])

theorem init_bar (c : Config) (k : Kernel) (emptied counted : Bool) :
    BarInv (State.init c k emptied counted) .init :=
  ⟨init_custody c k emptied counted, by rintro ⟨⟩, by rintro _ ⟨⟩, by rintro _ ⟨⟩, by decide,
      by rintro ⟨⟩, by rintro ⟨⟩, fun h => absurd rfl h⟩

/-! ## The bar

The theorem, a chunk that is faulted in its middle, and the reset that a pass carries its run past. -/

/-- **A failed or reset stream starts no run.** From a fault, or a reset that drops a stream and
asks for a clear, until a wakeup behind the reset has put a byte of its stream into the device,
no `cnc/run` is written; a chunk that is built is that stream's, and until then the device
receives no more than the rest of the chunk that was under way and one dark pad: in every run in
which no other thread's fault lands on a pass that asks for its run, and no such reset on one
that asks or carries a `start_run`. -/
theorem barred_starts_no_run {c : Config} {k : Kernel} {emptied counted : Bool} {s : State} {h : Bar}
    (hrun : Runs.Reach (Runs.observe step Bar.record) (fun x l => barsApart x.1 l = true)
      (State.init c k emptied counted, .init) (s, h)) :
    (∀ relight retried, s.pc = .runWrite relight retried → h.phase = .unbarred) ∧
      (∀ e, buildsChunk e s = true → h.phase ≠ .barred) ∧
      (h.phase ≠ .unbarred → h.fresh = false →
        h.took <+: h.under ∧ (h.pads = [] ∨ h.pads = [0x00])) := by
  have hinv : BarInv s h :=
    Runs.Reach.invariant_observe (fun s l => barsApart s l = true) hrun (init_bar c k emptied counted)
      fun s h l t hs hok ht => step_bar ht hok hs
  refine ⟨fun relight retried hpc => hinv.asking (by rw [hpc]; rfl), fun e hbuild => ?_, fun hclosed hold => ?_⟩
  · simp only [buildsChunk, Bool.and_eq_true, Bool.not_eq_true'] at hbuild
    obtain ⟨⟨startRun, hround⟩, hlive⟩ := (shipStep_course e s).passage.round hbuild.1 hbuild.2
    exact hinv.round hround hlive
  · have hreceived := hinv.received hclosed hold
    exact ⟨hreceived.took, hreceived.pads.imp_right And.left⟩

/-- A stream's first chunk is under way, and the lock of the latch fails: the stream is
faulted. -/
def faultedChunk : List Label :=
  oneStep ++ List.replicate 13 (Label.ship {}) ++ [Label.laserLatch true false, .proto, .proto]

/-- The theorem where the fault lands under a chunk: the chunk is written to its end, and its run
is not asked for. -/
theorem barred_starts_no_run_chunk :
    ∃ (s : State) (h : Bar), s.gf.failed = true ∧ h.phase = .barred ∧ h.under.length = 11 ∧
      h.took.length = 11 ∧ h.took <+: h.under := by
  have hex : ∃ x : State × Bar,
      Runs.Reach (Runs.observe step Bar.record) (fun x l => barsApart x.1 l = true)
        (State.init (slowConfig true) idleKernel true true, .init) x ∧
      (x.1.gf.failed = true ∧ x.2.phase = .barred ∧ x.2.fresh = false ∧ x.2.under.length = 11 ∧
        x.2.took.length = 11) :=
    Runs.exists_reach_of_exec (faultedChunk ++ List.replicate 17 (Label.ship {})) (by decide +kernel)
  obtain ⟨⟨s, h⟩, hreach, hfailed, hbarred, hold, hunder, htook⟩ := hex
  have hreceived := (barred_starts_no_run hreach).2.2 (by rw [hbarred]; rintro ⟨⟩) hold
  exact ⟨s, h, hfailed, hbarred, hunder, htook, hreceived.1⟩

/-- **A reset stream's run can be started.** The reset lands while the pass is in its run's gate:
the request is written over a stream that has been dropped. -/
theorem reset_stream_runs :
    ∃ (s : State) (h : Bar), Runs.Reach (Runs.observe step Bar.record) (fun _ _ => True)
        (State.init (slowConfig true) idleKernel true true, .init) (s, h) ∧
      (∃ relight retried, s.pc = .runWrite relight retried) ∧ h.phase = .barred := by
  have hex : ∃ x : State × Bar, Runs.Reach (Runs.observe step Bar.record) (fun _ _ => True)
        (State.init (slowConfig true) idleKernel true true, .init) x ∧
      (x.1.pc.runFlags = some (false, false) ∧ x.2.phase = .barred) :=
    Runs.exists_reach_of_exec
      (oneStep ++ List.replicate 27 (Label.ship {}) ++ [Label.reset 0] ++ List.replicate 3 (Label.ship {}))
      (by decide +kernel)
  obtain ⟨⟨s, h⟩, hreach, hpc, hbarred⟩ := hex
  exact ⟨s, h, hreach, ⟨false, false, ShipPc.eq_runWrite hpc⟩, hbarred⟩

end Glowforge.Stream
