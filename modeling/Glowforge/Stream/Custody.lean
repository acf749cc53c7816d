import Glowforge.Stream.Course

/-!
# Glowforge — whose the bytes in the kernel are

The shipper writes its chunks and starts its runs with `gf.lock` released, and the marks
`kernel_running` and `clear_pending` are what the other threads see of it. They never tell less
than there is, in any run:

* **`Custody`** — a pass with bytes under way has one of the marks set, and so has a lit last
  byte; a clear is at work only while it is pending; a device that is handed over has no pass.
* **`reach_custody`** — the invariant holds in every state.
-/

namespace Glowforge.Stream

/-- The shipper has a chunk under way, or the start of its run. -/
def Site.owning : Site → Bool
  | .writing _ _ _ | .wrote _ _ _ | .tested true | .starting | .faulting => true
  | _ => false

theorem Site.owning_of_inChunk {site : Site} (h : site.inChunk = true) : site.owning = true := by
  cases site with
  | writing p c bs => rfl
  | wrote p c ok => rfl
  | _ => cases h

/-- A mark tells that the kernel has, or may have, bytes of the engine's. -/
def Marks.held (m : Marks) : Bool := m.kernelRunning || m.clearPending

/-- What the marks `m` tell of a shipper at `site`. -/
structure CustodyAt (site : Site) (m : Marks) : Prop where
  owns : site.owning = true → m.held = true
  lit : m.lastLit = true → m.held = true
  clears : site = .clearing → m.clearPending = true ∧ m.lastLit = false
  here : m.active = true → m.suspended = true → site.owning = false ∧ site ≠ .sampled

structure Custody (s : State) : Prop where
  marks : CustodyAt s.pc.site s.gf.marks
  -- the end of a takeover is owed once, and only for a device that is handed over
  swap : s.proto.count .resumeSwap ≤ (s.gf.active && s.gf.suspended).toNat

/-! ## The shipper

A step that puts bytes under way finds one of the marks set or sets it, and no mark is lowered
before they are out. -/

/-- Neither a pass nor a clear is under way. -/
def Site.quiet : Site → Bool
  | .top | .gap | .tested false | .rest => true
  | _ => false

theorem Site.quiet_spec {site : Site} (h : site.quiet = true) :
    site.owning = false ∧ site ≠ .clearing ∧ site ≠ .sampled := by
  cases site with
  | tested startRun =>
    cases startRun with
    | false => exact ⟨rfl, by rintro ⟨⟩, by rintro ⟨⟩⟩
    | true => cases h
  | top => exact ⟨rfl, by rintro ⟨⟩, by rintro ⟨⟩⟩
  | gap => exact ⟨rfl, by rintro ⟨⟩, by rintro ⟨⟩⟩
  | rest => exact ⟨rfl, by rintro ⟨⟩, by rintro ⟨⟩⟩
  | _ => cases h

namespace CustodyAt

variable {site site' : Site} {m : Marks}

theorem quiet (h : CustodyAt site m) (hquiet : site'.quiet = true) : CustodyAt site' m where
  owns := by
    rw [(Site.quiet_spec hquiet).1]
    rintro ⟨⟩
  lit := h.lit
  clears := fun hsite => absurd hsite (Site.quiet_spec hquiet).2.1
  here := fun _ _ => ⟨(Site.quiet_spec hquiet).1, (Site.quiet_spec hquiet).2.2⟩

/-- A pass with bytes under way goes on, and is not in a device handed over. -/
theorem carry (h : CustodyAt site m) (hown : site.owning = true) (hclear : site' ≠ .clearing) :
    CustodyAt site' m where
  owns := fun _ => h.owns hown
  lit := h.lit
  clears := fun hsite => absurd hsite hclear
  here := by
    intro hactive hsuspended
    rw [(h.here hactive hsuspended).1] at hown
    cases hown

theorem failed (h : CustodyAt site m) (f : Bool) : CustodyAt site { m with failed := f } :=
  ⟨h.owns, h.lit, h.clears, h.here⟩

/-- A last byte that is dark owes nothing. -/
theorem dark (h : CustodyAt site m) (lit : Bool) (hlit : lit = true → m.lastLit = true) :
    CustodyAt site { m with lastLit := lit } where
  owns := h.owns
  lit := fun hl => h.lit (hlit hl)
  clears := by
    intro hsite
    obtain ⟨hclear, hdark⟩ := h.clears hsite
    refine ⟨hclear, ?_⟩
    cases lit with
    | false => rfl
    | true => exact (hlit rfl).symm.trans hdark
  here := h.here

end CustodyAt

theorem RoundFrom.away {s : State} {startRun : Bool} (h : RoundFrom s startRun)
    (hinv : CustodyAt s.pc.site s.gf.marks) :
    s.gf.active = true → s.gf.suspended = false := by
  intro hactive
  cases hsuspended : s.gf.suspended with
  | false => rfl
  | true =>
    obtain ⟨hown, hsampled⟩ := hinv.here hactive hsuspended
    cases h with
    | first hsite => exact absurd hsite hsampled
    | next hsite =>
      rw [hsite] at hown
      cases hown

/-- The shipper keeps the custody. -/
theorem Course.custody {e : Env} {s t : State} (hcourse : Course e s t)
    (h : CustodyAt s.pc.site s.gf.marks) : CustodyAt t.pc.site t.gf.marks := by
  cases hcourse with
  | snapshot hsite hsite' hmarks hland =>
    rw [hsite', hmarks]
    have hdark := CustodyAt.dark h (s.gf.lastLit && !s.gf.clearPending)
      fun hlit => (Bool.and_eq_true_iff.mp hlit).1
    cases hclear : s.gf.clearPending with
    | false =>
      rw [hclear] at hdark
      exact hdark.quiet rfl
    | true =>
      rw [hclear] at hdark
      refine ⟨by rintro ⟨⟩, hdark.lit, fun _ => ⟨hclear, Bool.and_false _⟩, fun _ _ => ⟨rfl,
          by rintro ⟨⟩⟩⟩
  | clears hsite hsite' hmarks hland =>
    rw [hmarks]
    rcases hsite' with hsite' | hsite'
    · rw [hsite', ← hsite]
      exact h
    · rw [hsite']
      exact h.quiet rfl
  | settles hsite hsite' hmarks hland =>
    rw [hsite', hmarks]
    have hdark := (h.clears hsite).2
    refine ⟨by rintro ⟨⟩, ?_, by rintro ⟨⟩, fun _ _ => ⟨rfl, by rintro ⟨⟩⟩⟩
    intro hlit
    rw [show s.gf.marks.lastLit = false from hdark] at hlit
    cases hlit
  | waits hsite hsite' hmarks hfailed hland =>
    rw [hsite', hmarks]
    exact (h.quiet rfl).failed _
  | turnsBack hsite hsite' hstop hmarks hland =>
    rw [hsite', hmarks]
    exact (CustodyAt.quiet h rfl).dark _ fun hlit => (Bool.and_eq_true_iff.mp hlit).1
  | samples hsite hsite' hfailed hsuspended hmarks hland =>
    rw [hsite', hmarks]
    refine ⟨by rintro ⟨⟩, h.lit, by rintro ⟨⟩, fun _ haway => ?_⟩
    rw [show s.gf.marks.suspended = false from hsuspended] at haway
    cases haway
  | ends hsite hsite' hover hmarks hover' hland =>
    rw [hsite', hmarks]
    refine ⟨by rintro ⟨⟩, ?_, by rintro ⟨⟩, fun _ _ => ⟨rfl, by rintro ⟨⟩⟩⟩
    intro hlit
    simp only [Bool.and_eq_true, Bool.not_eq_true'] at hlit
    have hheld := h.lit hlit.1
    simpa [Marks.held, Gf.marks, hlit.2] using hheld
  | holds hsite hsite' hmarks hland =>
    rw [hsite', hmarks]
    exact h.quiet rfl
  | builds hround hsite' hlive hmarks hfirst hlast hrest hland =>
    rw [hsite', hmarks]
    refine ⟨fun _ => rfl, fun _ => rfl, by rintro ⟨⟩, fun hactive haway => ?_⟩
    rw [show s.gf.marks.suspended = false from hround.away h hactive] at haway
    cases haway
  | finishes hround hsite' hmarks hland =>
    rw [hsite', hmarks]
    cases hround with
    | first hsite => exact h.quiet rfl
    | next hsite => exact h.carry (by rw [hsite]; rfl) (by rintro ⟨⟩)
  | lands hsite hsite' hmarks hland =>
    rw [hsite', hmarks]
    exact h.carry (by rw [hsite]; rfl) (by rintro ⟨⟩)
  | written hsite hsite' hmarks hland =>
    rw [hsite', hmarks]
    exact h.carry (by rw [hsite]; rfl) (by rintro ⟨⟩)
  | writeFails hsite hno hsite' hmarks hland =>
    rw [hsite', hmarks]
    exact h.carry (by rw [hsite]; rfl) (by rintro ⟨⟩)
  | breaks hsite hstop hsite' hmarks hland =>
    rw [hsite', hmarks]
    exact h.carry (by rw [hsite]; rfl) (by rintro ⟨⟩)
  | fails hsite hsite' hmarks hland =>
    rw [hmarks]
    refine (CustodyAt.carry h (by rw [hsite]; rfl) ?_).failed true
    rw [hsite']
    rintro ⟨⟩
  | asks hsite hstart hactive hfailed hsite' hmarks hland =>
    rw [hsite', hmarks]
    exact h.carry (by rw [hsite, hstart]; rfl) (by rintro ⟨⟩)
  | skips hsite hsite' hmarks hland =>
    rw [hsite', hmarks]
    exact h.quiet rfl
  | starts hsite hsite' hmarks hland =>
    rw [hmarks]
    refine h.carry (by rw [hsite]; rfl) ?_
    rcases hsite' with hsite' | hsite' | hsite' <;> rw [hsite'] <;> rintro ⟨⟩
  | faults hsite hsite' hmarks hland =>
    rw [hsite', hmarks]
    exact (CustodyAt.quiet h rfl).failed true
  | rests hsite hsite' hmarks hfailed hland =>
    rw [hmarks]
    refine (CustodyAt.quiet h ?_).failed _
    rcases hsite' with hsite' | hsite' <;> rw [hsite'] <;> rfl

theorem shipStep_custody {e : Env} {s : State} (h : Custody s) : Custody (shipStep e s) := by
  refine ⟨(shipStep_course e s).custody h.marks, ?_⟩
  rw [shipStep_proto, shipStep_active, shipStep_suspended]
  exact h.swap

/-! ## The other threads

Whatever another thread makes of the marks, one of them stays set over bytes under way. -/

/-- A reset of a stream with bytes in the kernel leaves them to the clear. -/
theorem Gf.AfterReset.held {g r : Gf} (h : g.AfterReset r) (hheld : g.marks.held = true) :
    r.marks.held = true := by
  have hall : ∀ running clear stops failed : Bool, (running || clear) = true →
      (running && !(stops || failed) || (clear || stops || failed)) = true := by decide
  simp only [Marks.held, Gf.marks, h.kernelRunning, h.clearPending]
  exact hall _ _ _ _ hheld

theorem ShipPc.site_sampled {pc : ShipPc} (h : pc.site = .sampled) : pc.holdsLock = true := by
  cases pc with
  | sampled gate => rfl
  | pendState clear zeros => cases clear <;> cases h
  | raise next => cases next <;> cases h
  | _ => cases h

/-- What takes `gf.lock` finds no pass at its sample. -/
theorem Label.enabled_unlocked {s : State} {l : Label} (hen : l.enabled s = true)
    (hlock : l.needsLock = true) : s.pc.site ≠ .sampled := by
  intro hsite
  simp [Label.enabled, hlock, ShipPc.site_sampled hsite] at hen

/-- The end of a takeover comes while the device is handed over. -/
theorem Custody.swapping {s : State} (h : Custody s) (hhead : s.proto.head? = some .resumeSwap) :
    s.gf.active = true ∧ s.gf.suspended = true := by
  have hcount : 1 ≤ s.proto.count .resumeSwap :=
    List.one_le_count_iff.mpr (List.mem_of_mem_head? hhead)
  have hone := hcount.trans h.swap
  cases ha : s.gf.active <;> cases hs : s.gf.suspended <;> simp_all

theorem Moved.custody {s t : State} {l : Label} (hmoved : Moved s l t) (hen : l.enabled s = true)
    (hpc : t.pc = s.pc) (h : Custody s) : CustodyAt t.pc.site t.gf.marks := by
  have hinv := h.marks
  rw [hpc]
  cases hmoved with
  | still hmarks =>
    rw [hmarks]
    exact hinv
  | wakesLive hl hlive hmarks =>
    rw [hmarks]
    exact ⟨hinv.owns, hinv.lit, hinv.clears, hinv.here⟩
  | begins hl hidle hmarks =>
    rw [hmarks]
    exact ⟨hinv.owns, hinv.lit, hinv.clears, hinv.here⟩
  | event hl hlive hmarks =>
    rw [hmarks]
    exact ⟨hinv.owns, hinv.lit, hinv.clears, hinv.here⟩
  | idles hl hmarks =>
    rw [hmarks]
    exact ⟨hinv.owns, hinv.lit, hinv.clears, hinv.here⟩
  | resets hl hafter =>
    refine ⟨fun hown => hafter.held (hinv.owns hown), fun hlit => ?_, fun hsite => ?_, ?_⟩
    · have hstops : resetStops s.gf = true := by
        rw [show t.gf.marks.lastLit = _ from hafter.lastLit] at hlit
        exact (Bool.and_eq_true_iff.mp hlit).1
      simp [Marks.held, Gf.marks, hafter.clearPending, hstops]
    · obtain ⟨hclear, hdark⟩ := hinv.clears hsite
      have hclear : s.gf.clearPending = true := hclear
      have hdark : s.gf.lastLit = false := hdark
      simp [Gf.marks, hafter.clearPending, hafter.lastLit, hclear, hdark]
    · intro hactive haway
      exact hinv.here (hafter.active.symm.trans hactive) (hafter.suspended.symm.trans haway)
  | suspends hl hdrained hmarks =>
    rw [hmarks]
    refine ⟨hinv.owns, hinv.lit, hinv.clears, fun hactive _ => ?_⟩
    have hnone : s.gf.marks.held = false := by
      have h := hdrained hactive
      simp only [drained, Bool.and_eq_true, Bool.not_eq_true'] at h
      simp [Marks.held, Gf.marks, h.1.1.2, h.1.2]
    constructor
    · cases hown : s.pc.site.owning with
      | false => rfl
      | true => rw [hinv.owns hown] at hnone; cases hnone
    · subst hl
      exact Label.enabled_unlocked hen rfl
  | resumes hl hactive hmarks =>
    rw [hmarks]
    refine ⟨hinv.owns, hinv.lit, hinv.clears, fun _ haway => ?_⟩
    cases haway
  | latchFails hl hhead hmarks =>
    rw [hmarks]
    exact hinv.failed true
  | swaps hl hhead hmarks =>
    obtain ⟨hactive, haway⟩ := h.swapping hhead
    rw [hmarks]
    refine ⟨fun hown => ?_, by rintro ⟨⟩, fun hsite => ⟨(hinv.clears hsite).1, rfl⟩, by rintro _ ⟨⟩⟩
    rw [(hinv.here hactive haway).1] at hown
    cases hown

theorem turn_swap_count {s t : State} {l : Label} (hen : l.enabled s = true) (hturn : turn s l = some t)
    (hresume : ∀ a b c, l ≠ .resume a b c) :
    t.proto.count .resumeSwap ≤ s.proto.count .resumeSwap := by
  cases hbegins : l.beginsCall with
  | true =>
    have hidle : .resumeSwap ∉ s.proto := by
      rw [begins_idle hen hbegins]
      exact List.not_mem_nil
    rw [List.count_eq_zero.mpr (turn_swap hturn hresume hidle)]
    exact Nat.zero_le _
  | false =>
    by_cases hl : l = .proto
    · subst hl
      obtain ⟨o, rest, hp⟩ := proto_owes hturn
      simp only [turn, protoStep] at hturn
      rw [hp] at hturn ⊢
      cases o with
      | latchFault =>
        cases hturn
        cases s.latchFailReported <;> simp
      | _ =>
        cases hturn
        simp
    · rw [turn_proto hturn hbegins hl]

theorem resume_swapOwed {s : State} {latchOk emptied counted : Bool} (haway : s.gf.suspended = true)
    (hidle : s.proto = []) :
    (gfStreamResume latchOk emptied counted s).proto.count .resumeSwap ≤
      ((gfStreamResume latchOk emptied counted s).gf.active &&
        (gfStreamResume latchOk emptied counted s).gf.suspended).toNat := by
  cases hactive : s.gf.active with
  | false => simp [gfStreamResume, hactive, hidle]
  | true =>
    have hmarks : (gfStreamResume latchOk emptied counted s).gf.marks = s.gf.marks := by
      simp only [gfStreamResume, rebaseAtTakeover]
      rw [if_neg (by simp [hactive])]
      split <;> rfl
    rw [show (gfStreamResume latchOk emptied counted s).gf.active = true from
        (congrArg Marks.active hmarks).trans hactive,
      show (gfStreamResume latchOk emptied counted s).gf.suspended = true from
        (congrArg Marks.suspended hmarks).trans haway]
    simp only [gfStreamResume, hactive]
    cases (latchWriteLocked true latchOk s).1 <;> simp

/-- What a turn owes of a takeover's end. -/
theorem turn_swapOwed {s t : State} {l : Label} (hen : l.enabled s = true) (hturn : turn s l = some t)
    (hship : ∀ e, l ≠ .ship e) (h : Custody s) :
    t.proto.count .resumeSwap ≤ (t.gf.active && t.gf.suspended).toNat := by
  by_cases hresume : ∃ a b c, l = .resume a b c
  · obtain ⟨latchOk, emptied, counted, rfl⟩ := hresume
    have haway : s.gf.suspended = true := by
      simp only [Label.enabled, Bool.and_eq_true] at hen
      exact hen.2
    have hidle := begins_idle hen rfl
    cases hturn
    exact resume_swapOwed haway hidle
  · have hcount := turn_swap_count hen hturn fun a b c hl => hresume ⟨a, b, c, hl⟩
    have hkept : ∀ {m : Marks}, t.gf.marks = m → m.active = s.gf.active →
        m.suspended = s.gf.suspended →
        t.proto.count .resumeSwap ≤ (t.gf.active && t.gf.suspended).toNat := by
      rintro m hm hactive hsuspended
      rw [show t.gf.active = s.gf.active from (congrArg Marks.active hm).trans hactive,
        show t.gf.suspended = s.gf.suspended from (congrArg Marks.suspended hm).trans hsuspended]
      exact hcount.trans h.swap
    cases turn_moved hturn hship with
    | resumes hl => exact absurd ⟨_, _, _, hl⟩ hresume
    | suspends hl hdrained hmarks =>
      rw [show t.gf.active = s.gf.active from congrArg Marks.active hmarks,
        show t.gf.suspended = true from congrArg Marks.suspended hmarks]
      refine (hcount.trans h.swap).trans ?_
      cases s.gf.active <;> cases s.gf.suspended <;> simp
    | swaps hl hhead hmarks =>
      -- the one that is owed is taken here
      subst hl
      have hone : s.proto.count .resumeSwap ≤ 1 := h.swap.trans (Bool.toNat_le _)
      obtain ⟨o, rest, hp⟩ := proto_owes hturn
      simp only [turn, protoStep] at hturn
      rw [hp] at hhead hturn hone
      obtain rfl : o = .resumeSwap := by simpa using hhead
      cases hturn
      simp only [List.count_cons_self] at hone
      change rest.count .resumeSwap ≤ _
      omega
    | resets hl hafter =>
      rw [hafter.active, hafter.suspended]
      exact hcount.trans h.swap
    | still hmarks => exact hkept hmarks rfl rfl
    | wakesLive hl hlive hmarks => exact hkept hmarks rfl rfl
    | begins hl hidle hmarks => exact hkept hmarks rfl rfl
    | event hl hlive hmarks => exact hkept hmarks rfl rfl
    | idles hl hmarks => exact hkept hmarks rfl rfl
    | latchFails hl hhead hmarks => exact hkept hmarks rfl rfl

theorem step_custody {s t : State} {l : Label} (hstep : step s l = some t) (h : Custody s) :
    Custody t := by
  obtain ⟨hen, hturn⟩ := step_eq_some.mp hstep
  cases l with
  | ship e =>
    cases hturn
    exact shipStep_custody h
  | _ =>
    exact ⟨(turn_moved hturn (by rintro _ ⟨⟩)).custody hen (turn_turned hturn
        (by rintro _ ⟨⟩)).pc h,
      turn_swapOwed hen hturn (by rintro _ ⟨⟩) h⟩

theorem init_custody (c : Config) (k : Kernel) (emptied counted : Bool) :
    Custody (State.init c k emptied counted) := by
  have hmarks : (State.init c k emptied counted).gf.marks = (Gf.init c).marks := by
    simp only [State.init, rebaseAtTakeover]
    split_ifs <;> rfl
  refine ⟨?_, Nat.zero_le _⟩
  rw [hmarks]
  exact ⟨by rintro ⟨⟩, by rintro ⟨⟩, by rintro ⟨⟩, by rintro _ ⟨⟩⟩

/-- **The custody of the bytes in the kernel**, in every run and under no condition: the marks are
never behind what the shipper has under way. -/
theorem reach_custody {c : Config} {k : Kernel} {emptied counted : Bool} {s : State}
    {ok : State → Label → Prop} (hrun : Runs.Reach step ok (State.init c k emptied counted) s) :
    Custody s :=
  hrun.invariant (init_custody c k emptied counted) fun _ _ _ h _ hstep => step_custody hstep h

end Glowforge.Stream
