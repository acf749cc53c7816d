import Glowforge.Stream.Custody

/-!
# Glowforge — the clear of a reset and the next stream's bytes

A reset leaves `clear_pending` for `pending_pass`, which holds shipping until the ring has been
cleared. `pending_pass` releases `gf.lock` before `ship_pass` takes it, and a reset with a
wakeup behind it can land between the two.

* **`Fresh`** — the bytes in the device of chunks built since the last reset that asked for a
  clear.
* **`FreshInv`** — while a clear is outstanding there are none, and there is nothing to ship
  for a pass that has already been let through.
* **`clear_spares_new_bytes`** — no chunk is built while a clear is outstanding, and no clear
  removes a byte of a later stream, in every run in which no wakeup lands in that gap.
-/

namespace Glowforge.Stream

/-! ## The history

The bytes of chunks that were built since the last reset that asked for a clear. -/

structure Fresh where
  -- the chunk under way was built since the last reset that asked for a clear
  built : Bool
  -- the bytes of such chunks that the device took since the last clear
  inside : Nat
deriving DecidableEq

/-- The reset drops a stream and asks for a clear. -/
def asksClear (g : Gf) : Bool := resetStops g || g.failed

def Fresh.ship (s : State) (e : Env) (h : Fresh) : Fresh :=
  match s.pc with
  | .pendSeek _ => if seekTakes e s then { h with inside := 0 } else h
  | _ =>
    { built := h.built || buildsChunk e s
      inside := h.inside + if h.built then (landed s (shipStep e s)).length else 0 }

def Fresh.record (s : State) (l : Label) (h : Fresh) : Fresh :=
  match l with
  | .ship e => h.ship s e
  | .reset _ => if asksClear s.gf then ⟨false, 0⟩ else h
  | _ => h

/-- A pass has been let through to `gf.lock`. -/
def Site.isGap : Site → Bool
  | .gap => true
  | _ => false

/-- A wakeup that begins a stream under a clear finds no pass let through. -/
def clearFirst (s : State) : Label → Bool
  | .locked .wakeup _ => s.gf.streaming || !s.gf.clearPending || !s.pc.site.isGap
  | _ => true

/-! ## The invariant

While a clear is outstanding there are no such bytes, and a pass that was let through before has
nothing to ship. -/

structure FreshInv (s : State) (h : Fresh) : Prop where
  custody : Custody s
  held : s.gf.clearPending = true → s.gf.marks.live = true → s.pc.site ≠ .gap ∧ s.pc.site ≠ .sampled
  none : s.gf.clearPending = true → h.built = false ∧ h.inside = 0

/-- No clear is outstanding where a chunk is built. -/
theorem FreshInv.build {s : State} {h : Fresh} {e : Env} (hinv : FreshInv s h)
    (hbuild : buildsChunk e s = true) : s.gf.clearPending = false := by
  simp only [buildsChunk, Bool.and_eq_true, Bool.not_eq_true'] at hbuild
  obtain ⟨⟨startRun, hround⟩, hlive⟩ := (shipStep_course e s).passage.round hbuild.1 hbuild.2
  cases hround with
  | next hsite hfailed hsuspended hclear => exact hclear
  | first hsite =>
    cases hclear : s.gf.clearPending with
    | false => rfl
    | true => exact absurd hsite (hinv.held hclear hlive).2

theorem ship_fresh_held {e : Env} {s t : State} (hcourse : Course e s t)
    (hheld : s.gf.clearPending = true → s.gf.marks.live = true →
      s.pc.site ≠ .gap ∧ s.pc.site ≠ .sampled)
    (hclear : t.gf.clearPending = true) (hlive : t.gf.marks.live = true) :
    t.pc.site ≠ .gap ∧ t.pc.site ≠ .sampled := by
  have hs := hcourse.clearPending hclear
  cases hcourse with
  | snapshot hsite hsite' =>
    rw [hsite', hs]
    exact ⟨by rintro ⟨⟩, by rintro ⟨⟩⟩
  | settles hsite hsite' hmarks =>
    rw [show t.gf.clearPending = false from congrArg Marks.clearPending hmarks] at hclear
    cases hclear
  | waits hsite hsite' hmarks =>
    have hlive : s.gf.marks.live = true := by
      rw [hmarks] at hlive
      exact hlive
    exact absurd hsite (hheld hs hlive).1
  | samples hsite hsite' hfailed hsuspended hmarks =>
    rw [hmarks] at hlive
    exact absurd hsite (hheld hs hlive).1
  | clears hsite hsite' => rcases hsite' with hsite' | hsite'
      <;> (rw [hsite']; exact ⟨by rintro ⟨⟩, by rintro ⟨⟩⟩)
  | starts hsite hsite' =>
    rcases hsite' with hsite' | hsite' | hsite' <;> (rw [hsite']; exact ⟨by rintro ⟨⟩,
        by rintro ⟨⟩⟩)
  | rests hsite hsite' => rcases hsite' with hsite' | hsite' <;> (rw [hsite']; exact ⟨by rintro ⟨⟩,
      by rintro ⟨⟩⟩)
  | turnsBack hsite hsite' => rw [hsite']; exact ⟨by rintro ⟨⟩, by rintro ⟨⟩⟩
  | ends hsite hsite' => rw [hsite']; exact ⟨by rintro ⟨⟩, by rintro ⟨⟩⟩
  | holds hsite hsite' => rw [hsite']; exact ⟨by rintro ⟨⟩, by rintro ⟨⟩⟩
  | builds hround hsite' => rw [hsite']; exact ⟨by rintro ⟨⟩, by rintro ⟨⟩⟩
  | finishes hround hsite' => rw [hsite']; exact ⟨by rintro ⟨⟩, by rintro ⟨⟩⟩
  | lands hsite hsite' => rw [hsite']; exact ⟨by rintro ⟨⟩, by rintro ⟨⟩⟩
  | written hsite hsite' => rw [hsite']; exact ⟨by rintro ⟨⟩, by rintro ⟨⟩⟩
  | writeFails hsite hno hsite' => rw [hsite']; exact ⟨by rintro ⟨⟩, by rintro ⟨⟩⟩
  | breaks hsite hstop hsite' => rw [hsite']; exact ⟨by rintro ⟨⟩, by rintro ⟨⟩⟩
  | fails hsite hsite' => rw [hsite']; exact ⟨by rintro ⟨⟩, by rintro ⟨⟩⟩
  | asks hsite hstart hactive hfailed hsite' => rw [hsite']; exact ⟨by rintro ⟨⟩, by rintro ⟨⟩⟩
  | skips hsite hsite' => rw [hsite']; exact ⟨by rintro ⟨⟩, by rintro ⟨⟩⟩
  | faults hsite hsite' => rw [hsite']; exact ⟨by rintro ⟨⟩, by rintro ⟨⟩⟩

theorem ship_fresh {e : Env} {s : State} {h : Fresh} (hinv : FreshInv s h) :
    FreshInv (shipStep e s) (h.ship s e) := by
  have hcourse := shipStep_course e s
  refine ⟨shipStep_custody hinv.custody, ship_fresh_held hcourse hinv.held, fun hclear => ?_⟩
  have hs := hcourse.clearPending hclear
  obtain ⟨hbuilt, hinside⟩ := hinv.none hs
  have hnone : buildsChunk e s = false := by
    cases hbuild : buildsChunk e s with
    | false => rfl
    | true =>
      rw [hinv.build hbuild] at hs
      cases hs
  simp only [Fresh.ship]
  split
  · split
    · exact ⟨hbuilt, rfl⟩
    · exact ⟨hbuilt, hinside⟩
  · simp [hbuilt, hinside, hnone]

/-- The live part of the marks behind a reset. -/
theorem Gf.AfterReset.live {g r : Gf} (h : g.AfterReset r) (hlive : r.marks.live = true) :
    g.marks.live = true ∧ asksClear g = false := by
  simp only [Marks.live, Gf.marks, h.streaming, h.produced, h.shipped, Bool.false_or,
    decide_eq_true_eq] at hlive
  cases hends : (resetEnds g || g.failed) with
  | true =>
    rw [hends, if_pos rfl] at hlive
    omega
  | false =>
    rw [hends, if_neg (by decide)] at hlive
    simp only [Bool.or_eq_false_iff] at hends
    refine ⟨?_, ?_⟩
    · simp [Marks.live, Gf.marks, hlive]
    · simp [asksClear, resetStops, hends.1, hends.2]

theorem reset_fresh {s t : State} {now : Nat} {h : Fresh} (hafter : s.gf.AfterReset t.gf)
    (hpc : t.pc = s.pc) (hinv : FreshInv s h) (hcustody : Custody t) :
    FreshInv t (h.record s (.reset now)) := by
  simp only [Fresh.record]
  refine ⟨hcustody, fun hclear hlive => ?_, fun hclear => ?_⟩
  · obtain ⟨hlive, hasks⟩ := hafter.live hlive
    rw [hpc]
    refine hinv.held ?_ hlive
    rw [hafter.clearPending, Bool.or_assoc, show (resetStops s.gf || s.gf.failed) = false from hasks,
      Bool.or_false] at hclear
    exact hclear
  · cases hasks : asksClear s.gf with
    | true => exact ⟨rfl, rfl⟩
    | false =>
      rw [hafter.clearPending, Bool.or_assoc, show (resetStops s.gf || s.gf.failed) = false from hasks,
        Bool.or_false] at hclear
      exact hinv.none hclear

theorem moved_fresh {s t : State} {l : Label} {h : Fresh} (hmoved : Moved s l t)
    (hen : l.enabled s = true) (hpc : t.pc = s.pc) (hok : clearFirst s l = true)
    (hreset : ∀ now, l ≠ .reset now) (hinv : FreshInv s h) (hcustody : Custody t) : FreshInv t h := by
  have hsame : ∀ {m : Marks}, t.gf.marks = m → m.clearPending = s.gf.clearPending →
      (m.live = true → s.gf.marks.live = true) → FreshInv t h := by
    intro m hmarks hclear hlive
    have hcleared : t.gf.clearPending = s.gf.clearPending :=
      (congrArg Marks.clearPending hmarks).trans hclear
    refine ⟨hcustody, ?_, ?_⟩
    · rw [hcleared, hpc, hmarks]
      exact fun hc hl => hinv.held hc (hlive hl)
    · rw [hcleared]
      exact hinv.none
  cases hmoved with
  | still hmarks => exact hsame hmarks rfl id
  | wakesLive hl hlive hmarks => exact hsame hmarks rfl id
  | begins hl hidle hmarks =>
    subst hl
    have hcleared : t.gf.clearPending = s.gf.clearPending := congrArg Marks.clearPending hmarks
    refine ⟨hcustody, fun hclear _ => ?_, ?_⟩
    · rw [hcleared] at hclear
      rw [hpc]
      refine ⟨fun hsite => ?_, Label.enabled_unlocked hen rfl⟩
      simp [clearFirst, hidle, hclear, hsite, Site.isGap] at hok
    · rw [hcleared]
      exact hinv.none
  | event hl hlive hmarks => exact hsame hmarks rfl fun _ => by simp [Marks.live, Gf.marks, hlive]
  | idles hl hmarks =>
    refine hsame hmarks rfl fun hlive => ?_
    simp only [Marks.live, Bool.false_or] at hlive
    simp [Marks.live, hlive]
  | resets hl hafter => exact absurd hl (hreset _)
  | suspends hl hdrained hmarks => exact hsame hmarks rfl id
  | resumes hl hactive hmarks => exact hsame hmarks rfl id
  | latchFails hl hhead hmarks => exact hsame hmarks rfl id
  | swaps hl hhead hmarks =>
    refine hsame hmarks rfl fun hlive => ?_
    cases hlive

theorem step_fresh {s t : State} {l : Label} {h : Fresh} (hstep : step s l = some t)
    (hok : clearFirst s l = true) (hinv : FreshInv s h) : FreshInv t (h.record s l) := by
  have hcustody := step_custody hstep hinv.custody
  obtain ⟨hen, hturn⟩ := step_eq_some.mp hstep
  cases l with
  | ship e =>
    cases hturn
    exact ship_fresh hinv
  | reset now =>
    cases hturn
    exact reset_fresh (resetLocked_after now s.gf) rfl hinv hcustody
  | _ => exact moved_fresh (turn_moved hturn (by rintro _ ⟨⟩)) hen (turn_turned hturn
      (by rintro _ ⟨⟩)).pc hok (by rintro _ ⟨⟩) hinv hcustody

theorem init_fresh (c : Config) (k : Kernel) (emptied counted : Bool) :
    FreshInv (State.init c k emptied counted) ⟨false, 0⟩ :=
  ⟨init_custody c k emptied counted, fun _ _ => ⟨by rintro ⟨⟩, by rintro ⟨⟩⟩, fun _ => ⟨rfl, rfl⟩⟩

theorem reach_fresh {c : Config} {k : Kernel} {emptied counted : Bool} {s : State} {h : Fresh}
    (hrun : Runs.Reach (Runs.observe step Fresh.record) (fun x l => clearFirst x.1 l = true)
      (State.init c k emptied counted, ⟨false, 0⟩) (s, h)) : FreshInv s h :=
  Runs.Reach.invariant_observe (fun s l => clearFirst s l = true) hrun (init_fresh c k emptied counted)
    fun _ _ _ _ hs hok ht => step_fresh ht hok hs

/-! ## The clear and the new bytes

The theorem, and the wakeup that lands in the gap between the two sections. -/

/-- **The clear of a reset spares the next stream's bytes.** No chunk is built while a clear is
outstanding, and a seek-clear finds no byte in the device of a chunk built behind the reset it
belongs to: in every run in which no wakeup begins a stream under an outstanding clear while a
pass stands between its `pending_pass` and its lock. -/
theorem clear_spares_new_bytes {c : Config} {k : Kernel} {emptied counted : Bool} {s : State}
    {h : Fresh} (hrun : Runs.Reach (Runs.observe step Fresh.record) (fun x l => clearFirst x.1 l = true)
      (State.init c k emptied counted, ⟨false, 0⟩) (s, h)) :
    (∀ e, buildsChunk e s = true → s.gf.clearPending = false) ∧
      ∀ zeros, s.pc = .pendSeek zeros → h.inside = 0 := by
  have hinv := reach_fresh hrun
  refine ⟨fun e hbuild => hinv.build hbuild, fun zeros hpc => ?_⟩
  have hsite : s.pc.site = .clearing := by rw [hpc]; rfl
  exact (hinv.none (hinv.custody.marks.clears hsite).1).2

/-- A stream's first chunk has landed and its run has started; the shipper is ahead of its next
pass. -/
def runningStream : List Label := oneStep ++ List.replicate 35 (Label.ship {})

/-- A reset, and the next stream's wakeup. -/
def resetAndWake : List Label := [.reset 0, .proto, .proto, .enter .wakeup, .locked .wakeup 0]

/-- The theorem where the wakeup comes ahead of `pending_pass`: the clear is made first. -/
theorem clear_spares_new_bytes_held :
    ∃ (s : State) (h : Fresh), s.pc.site = .clearing ∧ s.gf.streaming = true ∧ s.kernel.ring.length = 21 ∧
      h.inside = 0 := by
  have hex : ∃ x : State × Fresh,
      Runs.Reach (Runs.observe step Fresh.record) (fun x l => clearFirst x.1 l = true)
        (State.init (slowConfig true) idleKernel true true, ⟨false, 0⟩) x ∧
      (x.1.pc.seekZeros = some 0 ∧ x.1.gf.streaming = true ∧
        x.1.kernel.ring.length = 21) :=
    Runs.exists_reach_of_exec (runningStream ++ resetAndWake ++ [Label.kernel .rampEnd, .ship {}, .ship {}])
      (by decide +kernel)
  obtain ⟨⟨s, h⟩, hreach, hpc, hlive, hring⟩ := hex
  have hseek : s.pc = .pendSeek 0 := ShipPc.eq_pendSeek hpc
  exact ⟨s, h, by rw [hseek]; rfl, hlive, hring, (clear_spares_new_bytes hreach).2 0 hseek⟩

/-- **A clear can eat a new stream's bytes.** The reset and the wakeup land while a pass stands
at its lock: the pass ships the new stream's first chunk, and the clear of the reset removes
it. -/
theorem clear_eats_new_bytes :
    ∃ (s : State) (h : Fresh), Runs.Reach (Runs.observe step Fresh.record) (fun _ _ => True)
        (State.init (slowConfig true) idleKernel true true, ⟨false, 0⟩) (s, h) ∧
      (∃ zeros, s.pc = .pendSeek zeros) ∧ seekTakes {} s = true ∧ h.inside = 21 := by
  have hex : ∃ x : State × Fresh, Runs.Reach (Runs.observe step Fresh.record) (fun _ _ => True)
        (State.init (slowConfig true) idleKernel true true, ⟨false, 0⟩) x ∧
      (x.1.pc.seekZeros = some 0 ∧ seekTakes {} x.1 = true ∧
        x.2.inside = 21) :=
    Runs.exists_reach_of_exec
      (runningStream ++ [Label.ship {}] ++ resetAndWake ++ List.replicate 28 (Label.ship {}) ++
        [Label.kernel .rampEnd, .ship {}, .ship {}])
      (by decide +kernel)
  obtain ⟨⟨s, h⟩, hreach, hpc, htakes, hinside⟩ := hex
  exact ⟨s, h, hreach, ⟨0, ShipPc.eq_pendSeek hpc⟩, htakes, hinside⟩

end Glowforge.Stream
