import Glowforge.Stream.Residue
import Glowforge.Stream.Emission

/-!
# Glowforge — every stream ends dark

`last_lit` says that the last tick byte of the last chunk fires, and whoever ends the stream owes
a dark pad behind it: the shipper at the end of a stream, at a fault, and ahead of a reset's
clear. The reset keeps the mark only for a stream it stops itself.

* **`recordLit`** — the last tick byte handed to the device, and whether it fires.
* **`DarkInv`** — outside a chunk's write a lit byte is marked, and inside one the mark tells of
  the write's end.
* **`endsDark`** — what must not come between the lit byte and its pad.
* **`stream_ends_dark`** — a stream that is over, a ring that is being cleared and a first chunk
  that is built find a dark byte last.
-/

namespace Glowforge.Stream

/-! ## The last byte

The last tick byte that the device has received, as history. -/

/-- Whether the last tick byte fires, with the bytes `bs` behind one that did or did not. -/
def litAfter (lit : Bool) (bs : List UInt8) : Bool := (lastTick bs).getD lit

theorem litAfter_nil (lit : Bool) : litAfter lit [] = lit := rfl

theorem litAfter_cons (lit : Bool) (b : UInt8) (bs : List UInt8) :
    litAfter lit (b :: bs) = litAfter (litAfter lit [b]) bs := by
  simp only [litAfter, lastTick, List.filter_cons, List.filter_nil]
  cases htick : isTick b with
  | false => rfl
  | true =>
    cases hbs : bs.filter isTick with
    | nil => rfl
    | cons c cs =>
      -- a later tick decides
      have hlast : (c :: cs).getLast? = some ((c :: cs).getLast (List.cons_ne_nil c cs)) :=
        List.getLast?_eq_some_getLast _
      simp [List.getLast?_cons_cons, hlast]

/-- The last tick byte handed to the device fires. -/
def recordLit (s : State) (l : Label) (lit : Bool) : Bool :=
  match l with
  | .ship e => litAfter lit (landed s (shipStep e s))
  | _ => lit

/-! ## The domain and the condition

Pads land; and nothing drops the mark between a lit byte and its pad. -/

/-- The step writes a dark pad: `last_lit` goes outside a chunk. -/
def writesPad (e : Env) (s : State) : Bool :=
  !s.pc.site.inWrite && !(shipStep e s).pc.site.inWrite && s.gf.lastLit && !(shipStep e s).gf.lastLit

/-- The dark pads land, where there is a device. -/
def padsLand (s : State) : Label → Bool
  | .ship e => !writesPad e s || !s.gf.active || padLands e.ok s
  | _ => true

/-- A chunk's write fails. -/
def failsWrite (e : Env) (s : State) : Bool :=
  match s.pc.site with
  | .writing _ _ (_ :: _) => !(e.ok && canTake s)
  | _ => false

/-- A reset that finds `last_lit` set stops the stream, or finds no lit byte in the device and
none on its way; a write that fails does not leave a lit byte of a chunk with a dark end; no
wakeup begins a stream in the gap of a clear. -/
def endsDark (s : State) (lit : Bool) (l : Label) : Bool :=
  match l with
  | .reset _ => !s.gf.lastLit || resetStops s.gf || (!s.pc.site.inWrite && !lit)
  | .ship e => !(failsWrite e s && lit && !s.gf.lastLit)
  | l => clearFirst s l

/-! ## The invariant

The mark tells of the last byte, or of the write that is under way. -/

structure DarkInv (s : State) (lit : Bool) : Prop where
  custody : Custody s
  outside : s.pc.site.inWrite = false → lit = true → s.gf.lastLit = true
  inside : ∀ p c rest, s.pc.site = .writing p c rest → s.gf.active = true →
    litAfter lit rest = s.gf.lastLit
  -- a null sink takes no byte, and a device handed over has been left dark
  null : s.gf.active = false → lit = false ∧ s.pc.site.remaining = []
  away : s.gf.active = true → s.gf.suspended = true → lit = false

/-! ## The shipper

A chunk sets the mark by its last byte before it writes it, and a pad clears it. -/

/-- A pad that is due lands, and leaves the device dark; without one nothing changes. -/
theorem pad_dark {e : Env} {s : State} {lit due : Bool} (hsite : s.pc.site.inWrite = false)
    (hsite' : (shipStep e s).pc.site.inWrite = false) (hpads : padsLand s (.ship e) = true)
    (hlit : (shipStep e s).gf.lastLit = (s.gf.lastLit && !due))
    (hmarked : lit = true → s.gf.lastLit = true) (hnull : s.gf.active = false → lit = false) :
    litAfter lit (padBytes (due && s.gf.lastLit) e.ok s) = true →
      lit = true ∧ (shipStep e s).gf.lastLit = true := by
  intro hlast
  have hkept : lit = true := by
    rcases padBytes_eq (due && s.gf.lastLit) e.ok s with hnone | ⟨hpad, -⟩
    · rw [hnone] at hlast
      exact hlast
    · rw [hpad] at hlast
      cases hlast
  refine ⟨hkept, ?_⟩
  have hmark := hmarked hkept
  have hactive : s.gf.active = true := by
    cases ha : s.gf.active with
    | true => rfl
    | false =>
      rw [hnull ha] at hkept
      cases hkept
  cases due with
  | false => rw [hlit, hmark, Bool.not_false, Bool.and_true]
  | true =>
    have hwrites : writesPad e s = true := by
      simp [writesPad, hsite, hsite', hmark, hlit]
    simp only [padsLand, hwrites, hactive, Bool.not_true, Bool.false_or] at hpads
    rw [padBytes, hmark, hpads] at hlast
    cases hlast

section Ships

variable {e : Env} {s : State} {lit : Bool}

/-- A lit byte is in a device. -/
theorem DarkInv.active (hinv : DarkInv s lit) (hlit : lit = true) : s.gf.active = true := by
  cases hactive : s.gf.active with
  | true => rfl
  | false =>
    rw [(hinv.null hactive).1] at hlit
    cases hlit

/-- No chunk is under way in a device handed over. -/
theorem DarkInv.nobody (hinv : DarkInv s lit) (hsite : s.pc.site = .sampled ∨ s.pc.site.inChunk = true)
    (hact : (shipStep e s).gf.active = true) (hsus : (shipStep e s).gf.suspended = true) : False := by
  rw [shipStep_active] at hact
  rw [shipStep_suspended] at hsus
  obtain ⟨hown, hsampled⟩ := hinv.custody.marks.here hact hsus
  rcases hsite with hsite | hsite
  · exact hsampled hsite
  · rw [Site.owning_of_inChunk hsite] at hown
    cases hown

theorem dark_builds (hinv : DarkInv s lit) {p : Pass} {c : Chunk} {rest : List UInt8}
    (hround : RoundFrom s p.startRun) (hsite' : (shipStep e s).pc.site = .writing p c rest)
    (hlast : lastTick c.bytes = some (shipStep e s).gf.lastLit)
    (hrest : rest = if s.gf.active then c.bytes else []) : DarkInv (shipStep e s) lit := by
  refine ⟨shipStep_custody hinv.custody, ?_, fun p c rest hwriting hact => ?_, fun hact => ?_,
    fun hact hsus => (hinv.nobody hround.under hact hsus).elim⟩
  · rw [hsite']
    rintro ⟨⟩
  · rw [hsite'] at hwriting
    cases hwriting
    rw [shipStep_active] at hact
    rw [hrest, if_pos hact, litAfter, hlast, Option.getD_some]
  · rw [shipStep_active] at hact
    refine ⟨(hinv.null hact).1, ?_⟩
    rw [hsite', hrest, hact]
    rfl

theorem dark_lands (hinv : DarkInv s lit) {p : Pass} {c : Chunk} {b : UInt8} {bs : List UInt8}
    (hsite : s.pc.site = .writing p c (b :: bs)) (hsite' : (shipStep e s).pc.site = .writing p c bs)
    (hmarks : (shipStep e s).gf.marks = s.gf.marks) : DarkInv (shipStep e s) (litAfter lit [b]) := by
  have hchunk : s.pc.site.inChunk = true := by rw [hsite]; rfl
  refine ⟨shipStep_custody hinv.custody, ?_, fun p' c' rest hwriting hact => ?_, fun hact => ?_,
    fun hact hsus => (hinv.nobody (.inr hchunk) hact hsus).elim⟩
  · rw [hsite']
    rintro ⟨⟩
  · rw [hsite'] at hwriting
    cases hwriting
    rw [shipStep_active] at hact
    rw [← litAfter_cons, hinv.inside p c (b :: bs) hsite hact]
    exact (congrArg Marks.lastLit hmarks).symm
  · -- a null sink takes no byte
    rw [shipStep_active] at hact
    have hnone := (hinv.null hact).2
    rw [hsite] at hnone
    cases hnone

theorem dark_closes (hinv : DarkInv s lit) (hok : endsDark s lit (.ship e) = true) {p : Pass} {c : Chunk}
    {ok : Bool} {bs : List UInt8} (hsite : s.pc.site = .writing p c bs)
    (hsite' : (shipStep e s).pc.site = .wrote p c ok) (hdone : ok = true → bs = [])
    (hfails : ok = false → bs ≠ [] ∧ (e.ok && canTake s) = false)
    (hmarks : (shipStep e s).gf.marks = s.gf.marks) : DarkInv (shipStep e s) lit := by
  have hlit : (shipStep e s).gf.lastLit = s.gf.lastLit := congrArg Marks.lastLit hmarks
  refine ⟨shipStep_custody hinv.custody, fun _ hl => ?_, fun p' c' rest hwriting => ?_, fun hact => ?_,
    fun hact hsus => ?_⟩
  · rw [hlit]
    cases ok with
    | true =>
      -- the whole chunk has landed
      have hinside := hinv.inside p c bs hsite (hinv.active hl)
      rw [hdone rfl, litAfter_nil] at hinside
      exact hinside.symm.trans hl
    | false =>
      obtain ⟨hrest, hno⟩ := hfails rfl
      have hfailed : failsWrite e s = true := by
        cases bs with
        | nil => exact absurd rfl hrest
        | cons b bs => simp [failsWrite, hsite, hno]
      simpa [endsDark, hfailed, hl] using hok
  · rw [hsite'] at hwriting
    cases hwriting
  · rw [shipStep_active] at hact
    refine ⟨(hinv.null hact).1, ?_⟩
    rw [hsite']
    rfl
  · rw [shipStep_active] at hact
    rw [shipStep_suspended] at hsus
    exact hinv.away hact hsus

theorem dark_outside (hinv : DarkInv s lit) (hpads : padsLand s (.ship e) = true) {due : Bool}
    (hsite : s.pc.site.inWrite = false) (hsite' : (shipStep e s).pc.site.inChunk = false)
    (hlit : (shipStep e s).gf.lastLit = (s.gf.lastLit && !due)) :
    DarkInv (shipStep e s) (litAfter lit (padBytes (due && s.gf.lastLit) e.ok s)) := by
  have hwrite : (shipStep e s).pc.site.inWrite = false := Site.inWrite_of_inChunk hsite'
  have hpad := pad_dark hsite hwrite hpads hlit (hinv.outside hsite) fun ha => (hinv.null ha).1
  -- no pad lights a dark device
  have hdark : lit = false → litAfter lit (padBytes (due && s.gf.lastLit) e.ok s) = false := by
    intro hdark
    cases hl : litAfter lit (padBytes (due && s.gf.lastLit) e.ok s) with
    | false => rfl
    | true => exact (hpad hl).1.symm.trans hdark
  refine ⟨shipStep_custody hinv.custody, fun _ hl => (hpad hl).2, fun p c rest hwriting => ?_,
    fun hact => ?_, fun hact hsus => ?_⟩
  · rw [hwriting] at hwrite
    cases hwrite
  · rw [shipStep_active] at hact
    refine ⟨hdark (hinv.null hact).1, ?_⟩
    cases hs : (shipStep e s).pc.site with (rw [hs] at hwrite)
    | writing p c bs => cases hwrite
    | _ => rfl
  · rw [shipStep_active] at hact
    rw [shipStep_suspended] at hsus
    exact hdark (hinv.away hact hsus)

theorem ship_dark (hinv : DarkInv s lit) (hpads : padsLand s (.ship e) = true)
    (hok : endsDark s lit (.ship e) = true) : DarkInv (shipStep e s) (recordLit s (.ship e) lit) := by
  simp only [recordLit]
  cases (shipStep_course e s).passage with
  | builds hround hsite' hlive hmarks hfirst hlast hrest hland =>
    rw [hland]
    exact dark_builds hinv hround hsite' hlast hrest
  | lands hsite hsite' hmarks hland =>
    rw [hland]
    exact dark_lands hinv hsite hsite' hmarks
  | closes hsite hsite' hdone hfails hmarks hland =>
    rw [hland]
    exact dark_closes hinv hok hsite hsite' hdone hfails hmarks
  | outside due hsite hsite' hlit hland hlive =>
    rw [hland]
    exact dark_outside hinv hpads hsite hsite' hlit

end Ships

/-! ## The other threads -/

/-- Where no mark tells of bytes in the kernel, the device is dark. -/
theorem DarkInv.unheld {s : State} {lit : Bool} (hinv : DarkInv s lit) (hnone : s.gf.marks.held = false) :
    lit = false := by
  have hsite : s.pc.site.inWrite = false := by
    refine Site.inWrite_of_inChunk ?_
    cases hchunk : s.pc.site.inChunk with
    | false => rfl
    | true =>
      rw [hinv.custody.marks.owns (Site.owning_of_inChunk hchunk)] at hnone
      cases hnone
  cases lit with
  | false => rfl
  | true =>
    rw [hinv.custody.marks.lit (hinv.outside hsite rfl)] at hnone
    cases hnone

/-- A reset keeps the mark of a lit byte. -/
theorem reset_dark {s t : State} {lit : Bool} {now : Nat} (hinv : DarkInv s lit) (hcustody : Custody t)
    (hafter : s.gf.AfterReset t.gf) (hpc : t.pc = s.pc) (hok : endsDark s lit (.reset now) = true) :
    DarkInv t lit := by
  simp only [endsDark, Bool.or_eq_true, Bool.and_eq_true, Bool.not_eq_true'] at hok
  refine ⟨hcustody, fun hsite hl => ?_, fun p c rest hwriting hact => ?_, fun hact => ?_, fun hact hsus => ?_⟩
  · rw [hpc] at hsite
    have hmark := hinv.outside hsite hl
    rw [hafter.lastLit, hmark, Bool.and_true]
    rcases hok with (hdark | hstops) | ⟨-, hdark⟩
    · rw [hmark] at hdark
      cases hdark
    · exact hstops
    · rw [hl] at hdark
      cases hdark
  · rw [hpc] at hwriting
    rw [hinv.inside p c rest hwriting (hafter.active.symm.trans hact), hafter.lastLit]
    rcases hok with (hdark | hstops) | ⟨hsite, -⟩
    · rw [hdark, Bool.and_false]
    · rw [hstops, Bool.true_and]
    · rw [hwriting] at hsite
      cases hsite
  · rw [hpc]
    exact hinv.null (hafter.active.symm.trans hact)
  · exact hinv.away (hafter.active.symm.trans hact) (hafter.suspended.symm.trans hsus)

theorem moved_dark {s t : State} {l : Label} {lit : Bool} (hinv : DarkInv s lit) (hcustody : Custody t)
    (hmoved : Moved s l t) (hpc : t.pc = s.pc) (hok : endsDark s lit l = true) : DarkInv t lit := by
  have hsame : ∀ {m : Marks}, t.gf.marks = m → m.active = s.gf.active → m.lastLit = s.gf.lastLit →
      (m.active = true → m.suspended = true → lit = false) → DarkInv t lit := by
    intro m hmarks hactive hlit haway
    have hact : t.gf.active = s.gf.active := (congrArg Marks.active hmarks).trans hactive
    have hkept : t.gf.lastLit = s.gf.lastLit := (congrArg Marks.lastLit hmarks).trans hlit
    refine ⟨hcustody, ?_, ?_, ?_, fun ha hs => ?_⟩
    · rw [hpc, hkept]
      exact hinv.outside
    · rw [hpc, hkept, hact]
      exact hinv.inside
    · rw [hpc, hact]
      exact hinv.null
    · exact haway ((congrArg Marks.active hmarks).symm.trans ha)
        ((congrArg Marks.suspended hmarks).symm.trans hs)
  cases hmoved with
  | still hmarks => exact hsame hmarks rfl rfl hinv.away
  | wakesLive hl hlive hmarks => exact hsame hmarks rfl rfl hinv.away
  | begins hl hidle hmarks => exact hsame hmarks rfl rfl hinv.away
  | event hl hlive hmarks => exact hsame hmarks rfl rfl hinv.away
  | idles hl hmarks => exact hsame hmarks rfl rfl hinv.away
  | latchFails hl hhead hmarks => exact hsame hmarks rfl rfl hinv.away
  | resets hl hafter =>
    subst hl
    exact reset_dark hinv hcustody hafter hpc hok
  | suspends hl hdrained hmarks =>
    refine hsame hmarks rfl rfl fun hactive _ => hinv.unheld ?_
    have h := hdrained hactive
    simp only [drained, Bool.and_eq_true, Bool.not_eq_true'] at h
    simp [Marks.held, Gf.marks, h.1.1.2, h.1.2]
  | resumes hl hactive hmarks => exact hsame hmarks rfl rfl (by rintro _ ⟨⟩)
  | swaps hl hhead hmarks =>
    obtain ⟨hactive, haway⟩ := hinv.custody.swapping hhead
    have hdark := hinv.away hactive haway
    refine ⟨hcustody, fun _ hl => ?_, fun p c rest hwriting => ?_, fun ha => ?_, fun _ _ => hdark⟩
    · rw [hdark] at hl
      cases hl
    · rw [hpc] at hwriting
      have hown := (hinv.custody.marks.here hactive haway).1
      rw [hwriting] at hown
      cases hown
    · rw [show t.gf.active = s.gf.active from congrArg Marks.active hmarks, hactive] at ha
      cases ha

theorem step_dark {s t : State} {l : Label} {lit : Bool} (hstep : step s l = some t)
    (hpads : padsLand s l = true) (hok : endsDark s lit l = true) (hinv : DarkInv s lit) :
    DarkInv t (recordLit s l lit) := by
  have hcustody := step_custody hstep hinv.custody
  obtain ⟨-, hturn⟩ := step_eq_some.mp hstep
  cases l with
  | ship e =>
    cases hturn
    exact ship_dark hinv hpads hok
  | _ => exact moved_dark hinv hcustody (turn_moved hturn (by rintro _ ⟨⟩)) (turn_turned hturn
      (by rintro _ ⟨⟩)).pc hok

theorem init_dark (c : Config) (k : Kernel) (emptied counted : Bool) :
    DarkInv (State.init c k emptied counted) false :=
  ⟨init_custody c k emptied counted, by rintro _ ⟨⟩, by rintro _ _ _ ⟨⟩, fun _ => ⟨rfl, rfl⟩,
      fun _ _ => rfl⟩

theorem endsDark_clearFirst {s : State} {lit : Bool} {l : Label} (h : endsDark s lit l = true) :
    clearFirst s l = true := by
  cases l with
  | reset now => rfl
  | ship e => rfl
  | _ => exact h

/-! ## The end of a stream

At the three places where a stream is over the last byte is dark; and the reset that drops the mark. -/

/-- **Every stream ends dark.** The last tick byte handed to the device does not fire where a
stream is over and no clear is outstanding, while the ring is being cleared for a reset or a fault
acknowledged, and where the first chunk of a stream is built; a lit one outside a chunk's write is
marked for the shipper's pad. So it is in every run whose dark pads land, and in which no reset
drops the mark of a lit byte, no write fails behind a lit byte of a chunk with a dark end, and no
wakeup begins a stream in the gap of a clear. -/
theorem stream_ends_dark {c : Config} {k : Kernel} {emptied counted : Bool} {s : State} {lit : Bool}
    (hrun : Runs.Reach (Runs.observe step recordLit)
      (fun x l => padsLand x.1 l = true ∧ endsDark x.1 x.2 l = true)
      (State.init c k emptied counted, false) (s, lit)) :
    (s.gf.kernelRunning = false → s.gf.clearPending = false → lit = false) ∧
      (s.pc.site = .clearing → lit = false) ∧
      (∀ e, buildsChunk e s = true → s.gf.kernelRunning = false → lit = false) ∧
      (s.pc.site.inWrite = false → lit = true → s.gf.lastLit = true) := by
  have hinv : DarkInv s lit := by
    refine hrun.invariant (P := fun x => DarkInv x.1 x.2) (init_dark c k emptied counted) ?_
    rintro ⟨s, lit⟩ l ⟨t, lit'⟩ h hok hstep
    obtain ⟨ht, rfl⟩ := Runs.observe_eq_some.mp hstep
    exact step_dark ht hok.1 hok.2 h
  have hover : s.gf.kernelRunning = false → s.gf.clearPending = false → lit = false := by
    intro hrunning hclear
    refine hinv.unheld ?_
    simp [Marks.held, Gf.marks, hrunning, hclear]
  refine ⟨hover, fun hsite => ?_, fun e hbuild hrunning => hover hrunning ?_, hinv.outside⟩
  · have hdark : s.gf.lastLit = false := (hinv.custody.marks.clears hsite).2
    cases lit with
    | false => rfl
    | true =>
      rw [hinv.outside (by rw [hsite]; rfl) rfl] at hdark
      cases hdark
  · -- a chunk is built under no clear
    have hplain : Runs.Reach step (fun s l => clearFirst s l = true) (State.init c k emptied counted) s :=
      hrun.forget fun x l hok => endsDark_clearFirst hok.2
    obtain ⟨h, hfresh⟩ := hplain.remember Fresh.record ⟨false, 0⟩
    exact (reach_fresh hfresh).build hbuild

/-- A stream's first chunk has landed with a lit byte last, and its run has started. -/
def litStream : List Label :=
  litCycle ++ [Label.ship {}, .ship {}, .ship { later := 3000000 }] ++ List.replicate 36 (Label.ship {})

/-- The theorem where a reset stops a stream behind a lit byte: its pad is ahead of its clear. -/
theorem stream_ends_dark_reset :
    ∃ (s : State) (lit : Bool), s.pc.site = .clearing ∧ s.kernel.ring.length = 26 ∧ lit = false := by
  have hex : ∃ x : State × Bool, Runs.Reach (Runs.observe step recordLit)
        (fun x l => padsLand x.1 l = true ∧ endsDark x.1 x.2 l = true)
        (State.init (slowConfig true) idleKernel true true, false) x ∧
      (x.1.pc.seekZeros = some 0 ∧ x.1.kernel.ring.length = 26) :=
    Runs.exists_reach_of_exec
      (litStream ++ [Label.reset 0, .proto, .proto, .kernel .rampEnd, .ship {}, .ship {}]) (by decide +kernel)
  obtain ⟨⟨s, lit⟩, hreach, hpc, hring⟩ := hex
  have hsite : s.pc.site = .clearing := by
    rw [ShipPc.eq_pendSeek hpc]
    rfl
  exact ⟨s, lit, hsite, hring, (stream_ends_dark hreach).2.1 hsite⟩

/-- **A stream can end lit.** The core goes idle behind a lit byte, and a reset lands ahead of the
pass that ends the stream: the reset leaves the stream to that pass, and drops the mark that the
pass would pad for. -/
theorem stream_ends_lit :
    ∃ s : State, Runs.Reach (Runs.observe step recordLit) (fun x l => padsLand x.1 l = true)
        (State.init (slowConfig true) idleKernel true true, false) (s, true) ∧
      s.gf.streaming = false ∧ s.gf.kernelRunning = false ∧ s.gf.clearPending = false := by
  have hex : ∃ x : State × Bool, Runs.Reach (Runs.observe step recordLit)
        (fun x l => padsLand x.1 l = true)
        (State.init (slowConfig true) idleKernel true true, false) x ∧
      (x.2 = true ∧ x.1.gf.streaming = false ∧ x.1.gf.kernelRunning = false ∧
        x.1.gf.clearPending = false) :=
    Runs.exists_reach_of_exec
      (litStream ++ [Label.goIdle false 0x00 0x00, .reset 0] ++ List.replicate 3 (Label.ship {})) (by decide +kernel)
  obtain ⟨⟨s, lit⟩, hreach, hlit, hover⟩ := hex
  obtain rfl : lit = true := hlit
  exact ⟨s, hreach, hover⟩

end Glowforge.Stream
