import Glowforge.Stream.Custody

/-!
# Glowforge — the power bytes of the device stream

The kernel starts a run at full duty, and only a power byte ahead of the run's first tick sets
the level that was asked for. What the engine hands to the device keeps a small grammar:

* **`paired`** — every power byte is followed by a tick byte, in the call that writes it.
* **`CallLog`** — the write calls since the kernel's ring was last empty of the stream: from
  its start, the end of a stream or a seek-clear.
* **`shipStep_hands`** — a step of the shipper hands over the chunk of a round, or at most one
  dark pad behind a lit byte.
* **`power_byte_grammar`** — in every run the bytes of a log begin with a power byte, no two
  power bytes are adjacent in it, and `power_sent` is false while `kernel_running` is.
-/

namespace Glowforge.Stream

/-! ## Pairs

A power byte with the tick byte that follows it, in one chunk and across chunks. -/

/-- Every power byte is followed by a tick byte. -/
def paired : List UInt8 → Bool
  | [] => true
  | b :: rest => (isTick b || rest.head?.any isTick) && paired rest

theorem paired_append {xs ys : List UInt8} (hx : paired xs = true) (hy : paired ys = true) :
    paired (xs ++ ys) = true := by
  induction xs with
  | nil => exact hy
  | cons b rest ih =>
    simp only [paired, Bool.and_eq_true] at hx
    rw [List.cons_append, paired, ih hx.2, Bool.and_true]
    cases rest with
    | nil =>
      -- a last byte of a call is a tick
      have hb : isTick b = true := by simpa using hx.1
      rw [hb, Bool.true_or]
    | cons c rest => exact hx.1

theorem paired_flatten {calls : List (List UInt8)} (h : ∀ call ∈ calls, paired call = true) :
    paired calls.flatten = true := by
  induction calls with
  | nil => rfl
  | cons call calls ih =>
    rw [List.flatten_cons]
    exact paired_append (h call List.mem_cons_self) (ih fun c hc => h c (List.mem_cons_of_mem _ hc))

/-- No two power bytes are adjacent. -/
def Apart (bs : List UInt8) : Prop := bs.IsChain fun a b => isTick a = true ∨ isTick b = true

theorem apart_of_paired {bs : List UInt8} (h : paired bs = true) : Apart bs := by
  induction bs with
  | nil => exact .nil
  | cons a rest ih =>
    simp only [paired, Bool.and_eq_true, Bool.or_eq_true] at h
    cases rest with
    | nil => exact .singleton a
    | cons b rest =>
      refine .cons_cons ?_ (ih h.2)
      simpa using h.1

/-- The bytes begin with a power byte, if there are any. -/
def leads (bs : List UInt8) : Bool := bs.head?.all fun b => !isTick b

theorem leads_append {xs : List UInt8} (ys : List UInt8) (hx : leads xs = true) (hne : xs ≠ []) :
    leads (xs ++ ys) = true := by
  cases xs with
  | nil => exact absurd rfl hne
  | cons b rest => exact hx

/-! ## A chunk

The tick loop sends a power byte only ahead of a tick, and `power_sent` says whether one has been
sent. -/

theorem tickByte_sent (gate : Bool) (g : Gf) : (tickByte gate g).1.powerSent = g.powerSent :=
  (tickFire_dithered gate { g with ring := Function.update g.ring (slot g.shipped) 0 }).frame Gf.powerSent rfl

theorem tickLaser_sent (g : Gf) : (tickLaser g).1.powerSent = g.powerSent := by
  simp only [tickLaser]
  split <;> rfl

/-- Behind the decision the run's power byte has been sent; one that had not been is sent
here. -/
theorem tickPower_sent (g : Gf) (evPower : UInt8) (dueEv : Bool) :
    (tickPower g evPower dueEv).1.powerSent = true ∧
      ((tickPower g evPower dueEv).2 = [] ∧ g.powerSent = true ∨
        ∃ b, (tickPower g evPower dueEv).2 = [b] ∧ isTick b = false) := by
  simp only [tickPower]
  split_ifs with hmodel hsent hdue
  · exact ⟨hsent, .inl ⟨rfl, hsent⟩⟩
  · exact ⟨rfl, .inr ⟨_, rfl, isTick_power _⟩⟩
  · exact ⟨rfl, .inr ⟨_, rfl, isTick_power _⟩⟩
  · have hkept : (dueEv = true → evPower = g.curPower) ∧ g.powerSent = true := by simpa using hdue
    exact ⟨hkept.2, .inl ⟨rfl, hkept.2⟩⟩

/-- **The bytes of one tick**, in either dose model: the tick byte, or a power byte and the tick
byte, and the power byte is there if the run has not had one. -/
theorem shipTick_sent (gate : Bool) (g : Gf) :
    (shipTick gate g).1.powerSent = true ∧ paired (shipTick gate g).2 = true ∧
      (shipTick gate g).2 ≠ [] ∧ (g.powerSent = false → leads (shipTick gate g).2 = true) := by
  obtain ⟨hsent, hpower⟩ := tickPower_sent (tickLaser g).1 (tickLaser g).2.1 (tickLaser g).2.2
  obtain ⟨power, fires, hbytes, -⟩ := shipTick_bytes gate g
  have hready : power = (tickReady g).2 := by
    rw [shipTick_eq] at hbytes
    exact (List.append_inj_left' hbytes rfl).symm
  refine ⟨?_, ?_, ?_, ?_⟩
  · rw [shipTick_eq]
    exact (tickByte_sent gate _).trans hsent
  · rw [hbytes, hready]
    rcases hpower with ⟨hnone, -⟩ | ⟨b, hone, -⟩
    · rw [tickReady, hnone]
      simp [paired, isTick_shippedByte]
    · rw [tickReady, hone]
      simp [paired, isTick_shippedByte]
  · rw [hbytes]
    simp
  · intro hfresh
    rw [hbytes, hready]
    rcases hpower with ⟨-, hkept⟩ | ⟨b, hone, hb⟩
    · rw [tickLaser_sent, hfresh] at hkept
      cases hkept
    · rw [tickReady, hone]
      simp [leads, hb]

/-- **A chunk** is paired, leaves the run's power byte sent, and begins with it if it was not. -/
theorem buildTicks_sent (gate : Bool) {streaming : Bool} {due : Nat} {g : Gf}
    (hdue : tickDue due streaming g = true) :
    (buildTicks gate due streaming shipChunk g []).1.powerSent = true ∧
      paired (buildTicks gate due streaming shipChunk g []).2 = true ∧
      (buildTicks gate due streaming shipChunk g []).2 ≠ [] ∧
      (g.powerSent = false → leads (buildTicks gate due streaming shipChunk g []).2 = true) := by
  rw [show buildTicks gate due streaming shipChunk g [] = _ from buildTicks_due 255 hdue]
  refine buildTicks_induct gate due streaming
    (P := fun g' chunk => g'.powerSent = true ∧ paired chunk = true ∧ chunk ≠ [] ∧
      (g.powerSent = false → leads chunk = true)) ?_ 255 _ _ (shipTick_sent gate g)
  rintro g' chunk ⟨-, hpaired, hne, hleads⟩ -
  obtain ⟨hsent', hpaired', -, -⟩ := shipTick_sent gate g'
  exact ⟨hsent', paired_append hpaired hpaired', List.append_ne_nil_of_left_ne_nil hne _,
    fun hfresh => leads_append _ (hleads hfresh) hne⟩

/-! ## What a step hands over

The inversion lemma for the bytes: nothing, a chunk, or a dark pad. -/

/-- A dark pad is due behind a lit byte: at the snapshot of a clear, at the entry of a failed
stream, or at a stream's end. -/
def padDue (s : State) : Bool :=
  match s.pc with
  | .top => s.gf.clearPending && s.gf.lastLit
  | .lock => s.gf.failed && s.gf.lastLit
  | .sampled _ =>
    !s.gf.streaming && s.gf.produced - s.gf.shipped == 0 && s.gf.kernelRunning && s.gf.lastLit
  | _ => false

theorem lastLit_of_padDue {s : State} (h : padDue s = true) : s.gf.lastLit = true := by
  unfold padDue at h
  split at h
  · exact (Bool.and_eq_true_iff.mp h).2
  · exact (Bool.and_eq_true_iff.mp h).2
  · exact (Bool.and_eq_true_iff.mp h).2
  · cases h

/-- The bytes of the one call that a step makes. -/
def handed (s t : State) : List UInt8 := t.dump.drop s.dump.length

/-- What a step of the shipper hands to the sink. -/
inductive Hands (e : Env) (s t : State) : Prop where
  | chunk {p : Pass} {u : State} (hround : RoundAt e s p u)
      (hdue : tickDue p.due u.gf.streaming u.gf = true)
      (ht : t = shipChunkOut p (buildTicks p.gate p.due u.gf.streaming shipChunk u.gf []).1
        (buildTicks p.gate p.due u.gf.streaming shipChunk u.gf []).2 u)
  | pad (hdump : t.dump = s.dump ++ if padDue s then [0x00] else [])
      (hlit : t.gf.lastLit = (s.gf.lastLit && !padDue s))
      (hsent : t.gf.powerSent = true →
        s.gf.powerSent = true ∧ t.gf.kernelRunning = s.gf.kernelRunning)
      (hrunning : t.gf.kernelRunning = true → s.gf.kernelRunning = true)
      (hwrite : t.pc.site.inWrite = true → s.pc.site.inWrite = true)

/-- A step that leaves the last byte and the run as they are. -/
theorem Hands.none {e : Env} {s t : State} (hdue : padDue s = false) (hdump : t.dump = s.dump)
    (hlit : t.gf.lastLit = s.gf.lastLit) (hsent : t.gf.powerSent = s.gf.powerSent)
    (hrunning : t.gf.kernelRunning = s.gf.kernelRunning)
    (hwrite : t.pc.site.inWrite = true → s.pc.site.inWrite = true) : Hands e s t := by
  refine .pad ?_ ?_ (fun h => ⟨hsent.symm.trans h, hrunning⟩) hrunning.symm.trans hwrite
  · rw [hdump, hdue]
    exact (List.append_nil _).symm
  · rw [hlit, hdue, Bool.not_false, Bool.and_true]

theorem shipLoop_hands {e : Env} {s u : State} {p : Pass} (hround : RoundAt e s p u)
    (hdue : padDue s = false) : Hands e s (shipLoop p u.gf.streaming u) := by
  have hsame : u.gf.lastLit = s.gf.lastLit ∧ u.gf.powerSent = s.gf.powerSent ∧
      u.gf.kernelRunning = s.gf.kernelRunning := by
    cases hround with
    | first hpc =>
      simp only [anchor, gateEdge]
      split_ifs <;> exact ⟨rfl, rfl, rfl⟩
    | next hpc hok => exact ⟨rfl, rfl, rfl⟩
  simp only [shipLoop]
  split
  · next hticks => exact .chunk hround hticks rfl
  · exact .none hdue hround.dump hsame.1 hsame.2.1 hsame.2.2 (by rintro ⟨⟩)

theorem shipBody_hands {e : Env} {gate : Bool} {s : State} (hpc : s.pc = .sampled gate) :
    Hands e s (shipBody e gate s) := by
  have hedge : (gateEdge gate s.gf).marks = s.gf.marks ∧
      (gateEdge gate s.gf).powerSent = s.gf.powerSent := by
    refine ⟨gateEdge_marks gate s.gf, ?_⟩
    simp only [gateEdge]
    split_ifs <;> rfl
  have hlit : (gateEdge gate s.gf).lastLit = s.gf.lastLit := congrArg Marks.lastLit hedge.1
  have hrunning : (gateEdge gate s.gf).kernelRunning = s.gf.kernelRunning :=
    congrArg Marks.kernelRunning hedge.1
  have hover : (!(gateEdge gate s.gf).streaming &&
      (gateEdge gate s.gf).produced - (gateEdge gate s.gf).shipped == 0) =
      (!s.gf.streaming && s.gf.produced - s.gf.shipped == 0) := by
    rw [show (gateEdge gate s.gf).streaming = s.gf.streaming from congrArg Marks.streaming hedge.1,
      show (gateEdge gate s.gf).produced = s.gf.produced from congrArg Marks.produced hedge.1,
      show (gateEdge gate s.gf).shipped = s.gf.shipped from congrArg Marks.shipped hedge.1]
  simp only [shipBody, shipGated, hover]
  split
  · next hend =>
    have hhold : ∀ u, (pollHold e u).dump = u.dump ∧ (pollHold e u).gf.lastLit = u.gf.lastLit ∧
        (pollHold e u).gf.powerSent = u.gf.powerSent ∧
        (pollHold e u).gf.kernelRunning = u.gf.kernelRunning := by
      intro u
      simp only [pollHold]
      split_ifs <;> exact ⟨rfl, rfl, rfl, rfl⟩
    obtain ⟨hdump, hlit', hsent, hrun⟩ := hhold (endStream e { s with gf := gateEdge gate s.gf })
    have hpad : padDue s = (s.gf.kernelRunning && s.gf.lastLit) := by
      simp only [padDue, hpc, hend, Bool.true_and]
    refine .pad (hdump.trans ?_) (hlit'.trans ?_) (fun h => ?_) (fun h => ?_) (by rintro ⟨⟩)
    · rw [hpad]
      simp only [endStream, endPad, hlit, hrunning]
      cases s.gf.kernelRunning <;> cases s.gf.lastLit <;> simp [endRun, darkPad]
    · rw [hpad]
      simp only [endStream, endPad, hlit, hrunning]
      cases hr : s.gf.kernelRunning <;> cases hl : s.gf.lastLit <;>
        simp [endRun, darkPad, ditherReset, hlit, hl]
    · -- the end of a run takes the mark with it
      rw [hsent] at h
      rw [hrun]
      revert h
      simp only [endStream, hrunning]
      split
      · intro h
        cases h
      · exact fun h => ⟨hedge.2.symm.trans h, hrunning⟩
    · rw [hrun] at h
      revert h
      simp only [endStream, hrunning]
      split
      · rintro ⟨⟩
      · exact hrunning.symm.trans
  · next hgo =>
    have hdue : padDue s = false := by
      have hgo : (!s.gf.streaming && s.gf.produced - s.gf.shipped == 0) = false := by
        simpa using hgo
      simp only [padDue, hpc, hgo, Bool.false_and]
    split
    · exact .none hdue rfl hlit hedge.2 hrunning (by rintro ⟨⟩)
    · exact shipLoop_hands (.first hpc) hdue

/-- The tail of a pass hands nothing over. -/
theorem tail_hands {e : Env} {s : State} (htail : s.pc.tail = true) : Hands e s (shipStep e s) := by
  have hgf := (shipStep_tail (e := e) htail).gf
  have hdue : padDue s = false := by
    unfold padDue
    split
    · next hpc => rw [hpc] at htail; cases htail
    · next hpc => rw [hpc] at htail; cases htail
    · next hpc => rw [hpc] at htail; cases htail
    · rfl
  have hdump : (shipStep e s).dump = s.dump := by
    unfold shipStep
    cases hpc : s.pc with (rw [hpc] at htail)
    | runLatch => simp only [issueRelight]; split_ifs <;> rfl
    | runEnd relight rc => simp only [issueEnd]; split_ifs <;> rfl
    | runRc rc => simp only [shipRc]; split_ifs <;> rfl
    | _ => first | rfl | cases htail
  refine .none hdue hdump (by rw [hgf]) (by rw [hgf]) (by rw [hgf]) fun hwrite => ?_
  rcases shipStep_tail_pc (e := e) htail with hnext | hnext | hnext
  · cases hpc : (shipStep e s).pc with (rw [hpc] at hnext hwrite)
    | writing p c rest => cases hnext
    | pendState clear zeros => cases hnext
    | raise next => cases next <;> cases hwrite
    | _ => cases hwrite
  · rw [hnext] at hwrite
    cases hwrite
  · rw [hnext] at hwrite
    cases hwrite

/-- **What a step hands over.** By the points of the thread: the loop hands over a chunk that starts
a write, a pad follows a lit byte, and everything else hands over nothing. -/
theorem shipStep_hands (e : Env) (s : State) : Hands e s (shipStep e s) := by
  by_cases htail : s.pc.tail = true
  · exact tail_hands htail
  unfold shipStep
  split
  case h_1 hpc =>
    have hdue : padDue s = (s.gf.clearPending && s.gf.lastLit) := by simp only [padDue, hpc]
    simp only [pendingSnapshot, resetPad]
    have hwrite : ∀ g : Gf, (pendingNext g).site.inWrite = false := by
      intro g
      simp only [pendingNext]
      split_ifs <;> first | rfl | (cases g.clearPending <;> rfl)
    split
    · next hpad =>
      refine .pad ?_ ?_ (fun h => ⟨h, rfl⟩) id ?_
      · rw [hdue, hpad]
        rfl
      · rw [hdue, hpad]
        exact (Bool.and_false _).symm
      · rw [hwrite]
        rintro ⟨⟩
    · next hpad =>
      have hnone : padDue s = false := hdue.trans (by simpa using hpad)
      refine .none hnone rfl rfl rfl rfl ?_
      rw [hwrite]
      rintro ⟨⟩
  case h_7 hpc =>
    have hdue : padDue s = (s.gf.failed && s.gf.lastLit) := by simp only [padDue, hpc]
    simp only [shipLock, faultPad]
    split
    · split
      · next hpad =>
        refine .pad ?_ ?_ (fun h => ⟨h, rfl⟩) id (by rintro ⟨⟩)
        · rw [hdue, hpad]
          rfl
        · rw [hdue, hpad]
          exact (Bool.and_false _).symm
      · next hpad => exact .none (hdue.trans (by simpa using hpad)) rfl rfl rfl rfl (by rintro ⟨⟩)
    · next hgo =>
      have hok : s.gf.failed = false := by
        simp only [Bool.or_eq_true, not_or, Bool.not_eq_true] at hgo
        exact hgo.1
      exact .none (by rw [hdue, hok, Bool.false_and]) rfl rfl rfl rfl (by rintro ⟨⟩)
  case h_8 gate hpc => exact shipBody_hands hpc
  case h_10 p c ok hpc =>
    have hdue : padDue s = false := by simp only [padDue, hpc]
    cases ok with
    | false => exact .none hdue rfl rfl rfl rfl (by rintro ⟨⟩)
    | true =>
      simp only [shipWrote, if_true, shipNext]
      split
      · exact .none hdue rfl rfl rfl rfl (by rintro ⟨⟩)
      · next hgo =>
        simp only [Bool.or_eq_true, not_or, Bool.not_eq_true] at hgo
        exact shipLoop_hands (.next hpc hgo.1.1) hdue
  case h_9 p c rest hpc =>
    have hdue : padDue s = false := by simp only [padDue, hpc]
    have hin : s.pc.site.inWrite = true := by rw [hpc]; rfl
    simp only [shipWrite]
    split
    · exact .none hdue rfl rfl rfl rfl (by rintro ⟨⟩)
    · split
      · exact .none hdue rfl rfl rfl rfl fun _ => hin
      · exact .none hdue rfl rfl rfl rfl (by rintro ⟨⟩)
  case h_5 cleared counts zeros hpc =>
    have hdue : padDue s = false := by simp only [padDue, hpc]
    have hlit : (pendingDone cleared counts zeros s).gf.lastLit = s.gf.lastLit :=
      (pendingDone_settled cleared counts zeros s).frame Gf.lastLit rfl
    refine .pad ?_ ?_ (by rintro ⟨⟩) (by rintro ⟨⟩) (by rintro ⟨⟩)
    · rw [hdue]
      exact (List.append_nil _).symm
    · rw [hlit, hdue, Bool.not_false, Bool.and_true]
  case h_2 clear zeros hpc =>
    have hdue : padDue s = false := by simp only [padDue, hpc]
    refine .none hdue rfl rfl rfl rfl fun hwrite => ?_
    simp only [pendingState] at hwrite
    split at hwrite <;> cases clear <;> cases hwrite
  case h_3 zeros hpc =>
    have hdue : padDue s = false := by simp only [padDue, hpc]
    simp only [pendingSeek]
    split <;> exact .none hdue rfl rfl rfl rfl (by rintro ⟨⟩)
  case h_4 zeros hpc =>
    have hdue : padDue s = false := by simp only [padDue, hpc]
    exact .none hdue rfl rfl rfl rfl (by rintro ⟨⟩)
  case h_6 hpc =>
    have hdue : padDue s = false := by simp only [padDue, hpc]
    simp only [pendingOurs]
    split
    · refine .none hdue rfl rfl rfl rfl fun hwrite => ?_
      simp only at hwrite
      split at hwrite <;> cases hwrite
    · exact .none hdue rfl rfl rfl rfl (by rintro ⟨⟩)
  all_goals
    next hpc => exact absurd (by rw [hpc]; rfl) htail

/-! ## The other threads

They do not touch `power_sent`, a reset apart, which ends the log's run. -/

/-- The marks of a run: its power byte has been sent, and it has bytes in the kernel. -/
def Gf.run (g : Gf) : Bool × Bool := (g.powerSent, g.kernelRunning)

theorem laserEventLocked_run (power : UInt8) (fire : Bool) (s : State) :
    (laserEventLocked power fire s).gf.run = s.gf.run := by
  simp only [laserEventLocked]
  split_ifs
  · rfl
  · obtain ⟨lev, warned, hrec⟩ := levRecord_frame s.gf.shipped power fire (clampLocked s).2.gf
    rw [hrec]
    rfl
  · obtain ⟨lev, warned, hrec⟩ := levRecord_frame (virtualIndex s.gf) power fire s.gf
    rw [hrec]
    rfl
  · rfl

theorem Call.locked_run (c : Call) (now : Nat) (s : State) : (c.locked now s).gf.run = s.gf.run := by
  cases c with
  | wakeup =>
    simp only [Call.locked, wakeupLocked, wakeupStream, wakeupAssert, wakeupIndex, wakeupContinue,
      wakeupFresh]
    split_ifs <;> rfl
  | pulse stepBits dirBits => exact (pulseLocked_pulsed _ s).frame Gf.run rfl
  | laser power fire => exact laserEventLocked_run _ _ _
  | jog on => exact laserEventLocked_run _ _ _

/-- A reset that ends a stream, or acknowledges a fault, takes the run's power byte with it. -/
theorem resetLocked_sent {now : Nat} {g : Gf} (h : (resetLocked now g).powerSent = true) :
    resetEnds g = false ∧ g.failed = false ∧ g.powerSent = true := by
  cases hfailed : g.failed with
  | true =>
    rw [show (resetLocked now g).powerSent = false from by
      simp [resetLocked, hfailed, resetFailed, resetLaser, ditherReset]] at h
    cases h
  | false =>
    cases hends : resetEnds g with
    | true =>
      have hfalse : ∀ killed (r : Gf), (resetStream now killed r).powerSent = false := by
        intro killed r
        simp only [resetStream, resetReadback, resetRun]
        split_ifs <;> rfl
      rw [show (resetLocked now g).powerSent = false from by
        simp [resetLocked, hfailed, hends, hfalse]] at h
      cases h
    | false =>
      refine ⟨rfl, rfl, ?_⟩
      rw [← h]
      simp [resetLocked, hfailed, hends]

/-- **Outside the shipper** the power byte's mark only goes, and never from a run that goes on. -/
theorem turn_sent {s t : State} {l : Label} (hturn : turn s l = some t) (hship : ∀ e, l ≠ .ship e)
    (hsent : t.gf.powerSent = true) :
    s.gf.powerSent = true ∧ t.gf.kernelRunning = s.gf.kernelRunning := by
  have hsame : t.gf.run = s.gf.run →
      s.gf.powerSent = true ∧ t.gf.kernelRunning = s.gf.kernelRunning := by
    intro hrun
    simp only [Gf.run, Prod.mk.injEq] at hrun
    exact ⟨hrun.1.symm.trans hsent, hrun.2⟩
  cases l with
  | ship e => exact absurd rfl (hship e)
  | locked c now =>
    cases hturn
    exact hsame (c.locked_run now _)
  | goIdle reset stepBits dirBits =>
    cases hturn
    obtain ⟨killed, killStep, lev, streaming, hidle⟩ := goIdle_frame reset stepBits dirBits s
    refine hsame ?_
    rw [hidle]
    rfl
  | laserModel p m =>
    cases hturn
    obtain ⟨power, period, least, hmodel⟩ := laserModel_frame p m s.gf
    refine hsame ?_
    rw [hmodel]
    rfl
  | reset now =>
    cases hturn
    obtain ⟨hends, hfailed, hkept⟩ := resetLocked_sent hsent
    refine ⟨hkept, (resetLocked_after now s.gf).kernelRunning.trans ?_⟩
    rw [resetStops, hends, hfailed, Bool.false_and, Bool.or_self, Bool.not_false, Bool.and_true]
  | proto =>
    obtain ⟨o, rest, hp⟩ := proto_owes hturn
    simp only [turn, protoStep] at hturn
    rw [hp] at hturn
    cases o with
    | resumeSwap =>
      cases hturn
      cases hsent
    | _ =>
      cases hturn
      exact hsame rfl
  | kernel a =>
    obtain ⟨k, -, rfl⟩ := Option.map_eq_some_iff.mp hturn
    exact hsame rfl
  | enter c =>
    cases hturn
    refine hsame ?_
    simp only [enter]
    split <;> rfl
  | readback expired =>
    cases hturn
    refine hsame ?_
    simp only [gfStreamReadback]
    split <;> rfl
  | clearPosition ok =>
    cases hturn
    refine hsame ?_
    simp only [gfStreamClearPosition]
    split_ifs <;> rfl
  | suspend readOk =>
    cases hturn
    refine hsame ?_
    simp only [gfStreamSuspend]
    split_ifs <;> rfl
  | resume latchOk emptied counted =>
    cases hturn
    refine hsame ?_
    simp only [gfStreamResume, rebaseAtTakeover]
    split_ifs <;> rfl
  | _ =>
    cases hturn
    exact hsame rfl

/-- Outside the shipper a dark last byte stays dark. -/
theorem Moved.lastLit {s t : State} {l : Label} (h : Moved s l t) (hlit : t.gf.lastLit = true) :
    s.gf.lastLit = true := by
  have hkept : ∀ {m : Marks}, t.gf.marks = m → m.lastLit = s.gf.lastLit → s.gf.lastLit = true := by
    intro m hmarks hm
    rw [← hm, ← hmarks]
    exact hlit
  cases h with
  | resets hl hafter =>
    rw [hafter.lastLit] at hlit
    exact (Bool.and_eq_true_iff.mp hlit).2
  | swaps hl hhead hmarks =>
    rw [show t.gf.lastLit = false from congrArg Marks.lastLit hmarks] at hlit
    cases hlit
  | still hmarks => exact hkept hmarks rfl
  | wakesLive hl hlive hmarks => exact hkept hmarks rfl
  | begins hl hidle hmarks => exact hkept hmarks rfl
  | event hl hlive hmarks => exact hkept hmarks rfl
  | idles hl hmarks => exact hkept hmarks rfl
  | suspends hl hdrained hmarks => exact hkept hmarks rfl
  | resumes hl hactive hmarks => exact hkept hmarks rfl
  | latchFails hl hhead hmarks => exact hkept hmarks rfl

/-! ## The log of a ring

The write calls since the ring was last empty, each as the bytes that it handed over. -/

/-- The write calls since the kernel's ring was last empty of the stream. -/
structure CallLog where
  calls : List (List UInt8)
  -- what the device has taken of them
  landed : List UInt8
  -- no write of theirs has failed
  whole : Bool
  -- the ring is empty of the stream again, and the next call begins a new log
  cleared : Bool

namespace CallLog

def start : CallLog := ⟨[], [], true, true⟩

/-- The bytes of the calls, in order. -/
def bytes (w : CallLog) : List UInt8 := w.calls.flatten

/-- One step hands `call` over, and the device takes `bs`; `ok` says that no write failed. -/
def hand (call bs : List UInt8) (ok : Bool) (w : CallLog) : CallLog :=
  if call = [] then { w with landed := w.landed ++ bs, whole := w.whole && ok }
  else if w.cleared then ⟨[call], bs, ok, false⟩
  else ⟨w.calls ++ [call], w.landed ++ bs, w.whole && ok, false⟩

end CallLog

/-- A write that the step makes does not take. -/
def missesWrite (e : Env) (s : State) : Bool :=
  match s.pc with
  | .writing _ _ (_ :: _) => !(e.ok && canTake s)
  | _ => padDue s && !padLands e.ok s

/-- The step leaves the ring empty of the stream: a seek-clear that takes, the end of a stream,
or a takeover of the device with its clear. -/
def emptiesRing (s : State) : Label → Bool
  | .ship e =>
    match s.pc with
    | .pendSeek _ => seekTakes e s
    | .sampled _ => !s.gf.streaming && s.gf.produced - s.gf.shipped == 0 && s.gf.kernelRunning
    | _ => false
  | .resume _ emptied _ => s.gf.active && takeoverEmpties s.gf.inherited emptied s.kernel
  | _ => false

/-- What one step adds to the log. -/
def logCalls (s : State) (l : Label) (w : CallLog) : CallLog :=
  let w :=
    match l with
    | .ship e => w.hand (handed s (shipStep e s)) (landed s (shipStep e s)) (!missesWrite e s)
    | _ => w
  { w with cleared := w.cleared || emptiesRing s l }

/-! ## The grammar

The property over a log, and what the program counter adds to it between two calls. -/

/-- A clear has been made and is still to be settled. -/
def ShipPc.settling : ShipPc → Bool
  | .pendCount _ | .pendDone _ _ _ => true
  | _ => false

/-- What a log's bytes are. -/
structure Grammar (w : CallLog) : Prop where
  leads : leads w.bytes = true
  paired : ∀ call ∈ w.calls, paired call = true
  begun : w.cleared = false → w.bytes ≠ []

structure GrammarInv (s : State) (w : CallLog) : Prop where
  custody : Custody s
  sent : s.gf.kernelRunning = false → s.gf.powerSent = false
  away : s.gf.active = true → s.gf.suspended = true →
    s.gf.kernelRunning = false ∧ s.gf.lastLit = false
  -- the next call of an empty ring is a chunk, with its power byte still to be sent
  fresh : w.cleared = true → s.gf.lastLit = false ∧ (s.gf.powerSent = true → s.pc.settling = true)
  grammar : Grammar w
  landed : s.gf.active = true → w.whole = true → w.landed ++ s.pc.site.remaining = w.bytes
  dump : paired s.dump = true

theorem CallLog.hand_grammar {call bs : List UInt8} {ok : Bool} {w : CallLog} (h : Grammar w)
    (hpaired : paired call = true) (hleads : w.cleared = true → leads call = true) :
    Grammar (w.hand call bs ok) := by
  unfold CallLog.hand
  split
  · exact ⟨h.leads, h.paired, h.begun⟩
  · next hcall =>
    split
    · next hover =>
      have hbytes : CallLog.bytes ⟨[call], bs, ok, false⟩ = call := by simp [CallLog.bytes]
      refine ⟨?_, ?_, ?_⟩
      · rw [hbytes]
        exact hleads hover
      · intro c hc
        rw [List.mem_singleton.mp hc]
        exact hpaired
      · rw [hbytes]
        exact fun _ => hcall
    · next hover =>
      have hbegun : w.bytes ≠ [] := h.begun (by simpa using hover)
      have hbytes : CallLog.bytes ⟨w.calls ++ [call], w.landed ++ bs, w.whole && ok, false⟩ =
          w.bytes ++ call := by simp [CallLog.bytes]
      refine ⟨?_, ?_, ?_⟩
      · rw [hbytes]
        exact leads_append _ h.leads hbegun
      · intro c hc
        rcases List.mem_append.mp hc with hc | hc
        · exact h.paired c hc
        · rw [List.mem_singleton.mp hc]
          exact hpaired
      · rw [hbytes]
        exact fun _ => List.append_ne_nil_of_left_ne_nil hbegun _

theorem CallLog.hand_over {call bs : List UInt8} {ok : Bool} {w : CallLog}
    (h : (w.hand call bs ok).cleared = true) : w.cleared = true ∧ call = [] := by
  unfold CallLog.hand at h
  split_ifs at h with hcall hover
  exact ⟨h, hcall⟩

/-- The log of a step keeps what has landed and what is under way together. -/
theorem CallLog.hand_landed {call bs before after : List UInt8} {ok : Bool} {w : CallLog}
    (h : w.whole = true → w.landed ++ before = w.bytes)
    (hstep : ok = true → bs ++ after = before ++ call) (hnew : call ≠ [] → before = [])
    (hwhole : (w.hand call bs ok).whole = true) :
    (w.hand call bs ok).landed ++ after = (w.hand call bs ok).bytes := by
  unfold CallLog.hand at hwhole ⊢
  split at hwhole
  · next hcall =>
    have hboth := Bool.and_eq_true_iff.mp hwhole
    have hsame : (w.landed ++ bs) ++ after = w.bytes := by
      rw [List.append_assoc, hstep hboth.2, hcall, List.append_nil]
      exact h hboth.1
    rw [if_pos hcall]
    exact hsame
  · next hcall =>
    rw [if_neg hcall]
    split at hwhole
    · next hover =>
      have hstep := hstep hwhole
      rw [hnew hcall, List.nil_append] at hstep
      rw [if_pos hover]
      simp [CallLog.bytes, hstep]
    · next hover =>
      have hboth := Bool.and_eq_true_iff.mp hwhole
      rw [if_neg hover]
      simp only [CallLog.bytes, List.flatten_append, List.flatten_singleton, List.append_assoc]
      rw [hstep hboth.2, ← List.append_assoc, h hboth.1, CallLog.bytes]

/-! ## The shipper -/

section Ship

variable {e : Env} {s t : State} {w : CallLog}

theorem RoundAt.sent {p : Pass} {u : State} (h : RoundAt e s p u) :
    u.gf.powerSent = s.gf.powerSent ∧ u.gf.active = s.gf.active ∧ u.kernel = s.kernel ∧
      s.pc.site.remaining = [] ∧ s.pc.settling = false := by
  cases h with
  | first hpc =>
    have hedge : ∀ gate, (gateEdge gate s.gf).powerSent = s.gf.powerSent ∧
        (gateEdge gate s.gf).active = s.gf.active := by
      intro gate
      simp only [gateEdge]
      split_ifs <;> exact ⟨rfl, rfl⟩
    exact ⟨(hedge _).1, (hedge _).2, rfl, by rw [hpc]; rfl, by rw [hpc]; rfl⟩
  | next hpc hok => exact ⟨rfl, rfl, rfl, by rw [hpc]; rfl, by rw [hpc]; rfl⟩

theorem handed_chunk {p : Pass} {u : State} {g : Gf} {bytes : List UInt8} (hround : RoundAt e s p u) :
    handed s (shipChunkOut p g bytes u) = bytes := by
  change (u.dump ++ bytes).drop s.dump.length = bytes
  rw [hround.dump, List.drop_left]

theorem handed_append {bs : List UInt8} (hdump : t.dump = s.dump ++ bs) : handed s t = bs := by
  rw [handed, hdump, List.drop_left]

theorem Hands.dump (hands : Hands e s t) : t.dump = s.dump ++ handed s t := by
  cases hands with
  | chunk hround hdue ht =>
    rw [ht, handed_chunk hround, ← hround.dump]
    rfl
  | pad hdump => rw [handed_append hdump, hdump]

theorem Hands.keeps_sent (hands : Hands e s t)
    (h : s.gf.kernelRunning = false → s.gf.powerSent = false) (hidle : t.gf.kernelRunning = false) :
    t.gf.powerSent = false := by
  cases hands with
  | chunk hround hdue ht =>
    rw [ht] at hidle
    cases hidle
  | pad hdump hlit hsent hrunning hwrite =>
    cases hmark : t.gf.powerSent with
    | false => rfl
    | true =>
      obtain ⟨hbefore, hsame⟩ := hsent hmark
      rw [h (hsame.symm.trans hidle)] at hbefore
      cases hbefore

theorem Hands.keeps_away (hands : Hands e s t) (hcustody : Custody s) (hactive : s.gf.active = true)
    (haway : s.gf.suspended = true) (h : s.gf.kernelRunning = false ∧ s.gf.lastLit = false) :
    t.gf.kernelRunning = false ∧ t.gf.lastLit = false := by
  obtain ⟨hown, hsampled⟩ := hcustody.marks.here hactive haway
  cases hands with
  | chunk hround hdue ht =>
    -- a device that is handed over has no pass
    cases hround with
    | first hpc => exact absurd (by rw [hpc]; rfl) hsampled
    | next hpc hok =>
      rw [hpc] at hown
      cases hown
  | pad hdump hlit hsent hrunning hwrite =>
    refine ⟨?_, by rw [hlit, h.2, Bool.false_and]⟩
    cases hrun : t.gf.kernelRunning with
    | false => rfl
    | true => exact (hrunning hrun).symm.trans h.1

/-- The call of a step is paired, and the first of an empty ring begins with a power byte. -/
theorem Hands.call (hands : Hands e s t) :
    paired (handed s t) = true ∧
      (s.gf.lastLit = false → (s.gf.powerSent = true → s.pc.settling = true) →
        leads (handed s t) = true) := by
  cases hands with
  | chunk hround hdue ht =>
    obtain ⟨-, hpaired, -, hleads⟩ := buildTicks_sent _ hdue
    obtain ⟨hsame, -, -, -, hsettling⟩ := hround.sent
    rw [ht, handed_chunk hround]
    refine ⟨hpaired, fun _ hfresh => hleads (hsame.trans ?_)⟩
    cases hmark : s.gf.powerSent with
    | false => rfl
    | true =>
      rw [hfresh hmark] at hsettling
      cases hsettling
  | pad hdump hlit hsent hrunning hwrite =>
    rw [handed_append hdump]
    refine ⟨?_, fun hdark _ => ?_⟩
    · split <;> rfl
    · split
      · next hdue =>
        rw [lastLit_of_padDue hdue] at hdark
        cases hdark
      · rfl

/-- A settled clear has ended its run. -/
theorem settling_step (h : s.pc.settling = true) :
    (shipStep e s).pc.settling = true ∨ (shipStep e s).gf.kernelRunning = false := by
  cases hpc : s.pc with (rw [hpc] at h)
  | pendCount zeros =>
    simp only [shipStep, hpc]
    exact .inl rfl
  | pendDone cleared counts zeros =>
    simp only [shipStep, hpc]
    exact .inr rfl
  | _ => cases h

/-- An empty ring stays fresh until the next call. -/
theorem shipStep_fresh (h : GrammarInv s w) (hover : w.cleared = true)
    (hcall : handed s (shipStep e s) = []) :
    (shipStep e s).gf.lastLit = false ∧
      ((shipStep e s).gf.powerSent = true → (shipStep e s).pc.settling = true) := by
  have hands := shipStep_hands e s
  have hidle := hands.keeps_sent h.sent
  obtain ⟨hdark, hfresh⟩ := h.fresh hover
  cases hands with
  | chunk hround hdue ht =>
    rw [ht, handed_chunk hround] at hcall
    exact absurd hcall (buildTicks_sent _ hdue).2.2.1
  | pad hdump hlit hsent hrunning hwrite =>
    refine ⟨by rw [hlit, hdark, Bool.false_and], fun hmark => ?_⟩
    rcases settling_step (e := e) (hfresh (hsent hmark).1) with hnext | hnext
    · exact hnext
    · rw [hidle hnext] at hmark
      cases hmark

/-- The end of a stream leaves no run and a dark last byte. -/
theorem shipStep_ends {gate : Bool} (hpc : s.pc = .sampled gate)
    (hover : (!s.gf.streaming && s.gf.produced - s.gf.shipped == 0) = true)
    (hrun : s.gf.kernelRunning = true) :
    (shipStep e s).gf.kernelRunning = false ∧ (shipStep e s).gf.lastLit = false := by
  have hedge := gateEdge_marks gate s.gf
  have hlive : (gateEdge gate s.gf).marks.live = false := by
    simp only [Bool.and_eq_true, Bool.not_eq_true', beq_iff_eq] at hover
    have hnone : ¬s.gf.shipped < s.gf.produced := by omega
    rw [hedge]
    simp [Marks.live, Gf.marks, hover.1, hnone]
  have heq : shipStep e s =
      { pollHold e (endStream e { s with gf := gateEdge gate s.gf }) with pc := .check } := by
    simp only [shipStep, hpc, shipBody, shipGated]
    rw [show (gateEdge gate s.gf).streaming = s.gf.streaming from congrArg Marks.streaming hedge,
      show (gateEdge gate s.gf).produced = s.gf.produced from congrArg Marks.produced hedge,
      show (gateEdge gate s.gf).shipped = s.gf.shipped from congrArg Marks.shipped hedge, if_pos hover]
  have hmarks := (pollHold_course e _).1.trans
    (endStream_course e (s := { s with gf := gateEdge gate s.gf }) hlive).1
  rw [heq]
  refine ⟨congrArg Marks.kernelRunning hmarks, (congrArg Marks.lastLit hmarks).trans ?_⟩
  change ((gateEdge gate s.gf).lastLit && !(gateEdge gate s.gf).kernelRunning) = false
  rw [show (gateEdge gate s.gf).kernelRunning = true from
    (congrArg Marks.kernelRunning hedge).trans hrun, Bool.not_true, Bool.and_false]

/-- A step that empties the ring of the stream leaves the next run to its power byte. -/
theorem shipStep_empties (h : GrammarInv s w) (hempty : emptiesRing s (.ship e) = true) :
    (shipStep e s).gf.lastLit = false ∧
      ((shipStep e s).gf.powerSent = true → (shipStep e s).pc.settling = true) := by
  have hands := shipStep_hands e s
  have hidle := hands.keeps_sent h.sent
  simp only [emptiesRing] at hempty
  split at hempty
  · next zeros hpc =>
    have hdark : s.gf.lastLit = false := (h.custody.marks.clears (by rw [hpc]; rfl)).2
    simp only [shipStep, hpc, pendingSeek, if_pos hempty]
    exact ⟨hdark, fun _ => rfl⟩
  · next gate hpc =>
    obtain ⟨hover, hrun⟩ := Bool.and_eq_true_iff.mp hempty
    obtain ⟨hended, hdark⟩ := shipStep_ends (e := e) hpc hover hrun
    refine ⟨hdark, fun hmark => ?_⟩
    rw [hidle hended] at hmark
    cases hmark
  · cases hempty

theorem padDue_outside (h : s.pc.site.inWrite = true) : padDue s = false := by
  unfold padDue
  split
  · next hpc => rw [hpc] at h; cases h
  · next hpc => rw [hpc] at h; cases h
  · next hpc => rw [hpc] at h; cases h
  · rfl

theorem missesWrite_outside (h : s.pc.site.inWrite = false) :
    missesWrite e s = (padDue s && !padLands e.ok s) := by
  unfold missesWrite
  split
  · next hpc =>
    rw [hpc] at h
    cases h
  · rfl

theorem Site.remaining_outside {site : Site} (h : site.inWrite = false) : site.remaining = [] := by
  cases site with
  | writing p c rest => cases h
  | _ => rfl

theorem ShipPc.site_writing {pc : ShipPc} {p : Pass} {c : Chunk} {rest : List UInt8}
    (h : pc.site = .writing p c rest) : pc = .writing p c rest := by
  cases pc with
  | writing p c rest =>
    cases h
    rfl
  | pendState clear zeros => cases clear <;> cases h
  | raise next => cases next <;> cases h
  | _ => cases h

/-- What lands of a step's call, unless one of its writes fails. -/
theorem shipStep_lands (hactive : s.gf.active = true) (hok : missesWrite e s = false) :
    landed s (shipStep e s) ++ (shipStep e s).pc.site.remaining =
      s.pc.site.remaining ++ handed s (shipStep e s) := by
  have hpassage := (shipStep_course e s).passage
  cases shipStep_hands e s with
  | chunk hround hdue ht =>
    obtain ⟨-, hsame, hkernel, hnone, -⟩ := hround.sent
    rw [ht, handed_chunk hround, hnone]
    refine congrArg₂ (· ++ ·) (landed_same (congrArg Kernel.ring hkernel)) ?_
    refine if_pos ?_
    rw [← hactive, ← hsame]
    exact (buildTicks_ticked _ _ _ shipChunk _ []).frame Gf.active rfl
  | pad hdump hlit hsent hrunning hwrite =>
    rw [handed_append hdump]
    cases hpassage with
    | builds hround hsite' =>
      have hin := hwrite (by rw [hsite']; rfl)
      rw [hround.outside] at hin
      cases hin
    | lands hsite hsite' hmarks hland =>
      rw [hland, hsite, hsite', padDue_outside (by rw [hsite]; rfl)]
      exact (List.append_nil _).symm
    | closes hsite hsite' hdone hfails hmarks hland =>
      rename_i p c ok rest
      rw [hland, hsite, hsite', padDue_outside (by rw [hsite]; rfl)]
      cases ok with
      | true =>
        rw [hdone rfl]
        rfl
      | false =>
        -- the write fails
        obtain ⟨hne, hno⟩ := hfails rfl
        obtain ⟨b, rest, rfl⟩ := List.exists_cons_of_ne_nil hne
        simp only [missesWrite, ShipPc.site_writing hsite, hno] at hok
        cases hok
    | outside due hsite hsite' hlit' hland hlive =>
      have hpad : (due && s.gf.lastLit) = padDue s := by
        rw [hlit] at hlit'
        cases hdark : s.gf.lastLit with
        | true =>
          rw [hdark] at hlit'
          simpa using hlit'.symm
        | false =>
          cases hdue : padDue s with
          | false => exact Bool.and_false _
          | true =>
            rw [lastLit_of_padDue hdue] at hdark
            cases hdark
      rw [missesWrite_outside hsite] at hok
      rw [hland, hpad, Site.remaining_outside hsite,
        Site.remaining_outside (Site.inWrite_of_inChunk hsite'), List.append_nil, List.nil_append]
      cases hdue : padDue s with
      | false => rfl
      | true =>
        rw [hdue, Bool.true_and, Bool.not_eq_false'] at hok
        rw [padBytes, hok]
        rfl

theorem shipStep_grammar (h : GrammarInv s w) :
    GrammarInv (shipStep e s) (logCalls s (.ship e) w) := by
  have hands := shipStep_hands e s
  obtain ⟨hpaired, hleads⟩ := hands.call
  have hgrammar : Grammar (w.hand (handed s (shipStep e s)) (landed s (shipStep e s))
      (!missesWrite e s)) :=
    CallLog.hand_grammar h.grammar hpaired fun hover =>
      hleads (h.fresh hover).1 (h.fresh hover).2
  refine ⟨shipStep_custody h.custody, hands.keeps_sent h.sent, ?_, ?_, ?_, ?_, ?_⟩
  · rw [shipStep_active, shipStep_suspended]
    intro hactive haway
    exact hands.keeps_away h.custody hactive haway (h.away hactive haway)
  · intro hover
    rcases Bool.or_eq_true_iff.mp hover with hover | hempty
    · obtain ⟨hover, hcall⟩ := CallLog.hand_over hover
      exact shipStep_fresh h hover hcall
    · exact shipStep_empties h hempty
  · refine ⟨hgrammar.leads, hgrammar.paired, fun hover => hgrammar.begun ?_⟩
    exact (Bool.or_eq_false_iff.mp hover).1
  · rw [shipStep_active]
    intro hactive
    refine CallLog.hand_landed (h.landed hactive) (fun hok => ?_) (fun hcall => ?_)
    · exact shipStep_lands hactive (by simpa using hok)
    · cases hands with
      | chunk hround hdue ht => exact hround.sent.2.2.2.1
      | pad hdump hlit hsent hrunning hwrite =>
        cases hin : s.pc.site.inWrite with
        | false => exact Site.remaining_outside hin
        | true =>
          rw [handed_append hdump, padDue_outside hin] at hcall
          exact absurd rfl hcall
  · rw [hands.dump]
    exact paired_append h.dump hpaired

end Ship

/-! ## Every run

The grammar in every run, and a first chunk that shows it. -/

theorem Moved.active {s t : State} {l : Label} (h : Moved s l t) : t.gf.active = s.gf.active := by
  cases h with
  | resets hl hafter => exact hafter.active
  | swaps hl hhead hmarks => exact congrArg Marks.active hmarks
  | still hmarks => exact congrArg Marks.active hmarks
  | wakesLive hl hlive hmarks => exact congrArg Marks.active hmarks
  | begins hl hidle hmarks => exact congrArg Marks.active hmarks
  | event hl hlive hmarks => exact congrArg Marks.active hmarks
  | idles hl hmarks => exact congrArg Marks.active hmarks
  | suspends hl hdrained hmarks => exact congrArg Marks.active hmarks
  | resumes hl hactive hmarks => exact congrArg Marks.active hmarks
  | latchFails hl hhead hmarks => exact congrArg Marks.active hmarks

/-- A device is handed over with no run, and has none until it is back. -/
theorem Moved.away {s t : State} {l : Label} (hmoved : Moved s l t) (hcustody : Custody s)
    (h : s.gf.active = true → s.gf.suspended = true →
      s.gf.kernelRunning = false ∧ s.gf.lastLit = false)
    (hactive : t.gf.active = true) (haway : t.gf.suspended = true) :
    t.gf.kernelRunning = false ∧ t.gf.lastLit = false := by
  have hkept : ∀ {m : Marks}, t.gf.marks = m → m.active = s.gf.active → m.suspended = s.gf.suspended →
      m.kernelRunning = s.gf.kernelRunning → m.lastLit = s.gf.lastLit →
      t.gf.kernelRunning = false ∧ t.gf.lastLit = false := by
    intro m hmarks hactive' haway' hrunning hlit
    rw [show t.gf.kernelRunning = _ from congrArg Marks.kernelRunning hmarks,
      show t.gf.lastLit = _ from congrArg Marks.lastLit hmarks, hrunning, hlit]
    refine h ?_ ?_
    · rw [← hactive', ← hmarks]
      exact hactive
    · rw [← haway', ← hmarks]
      exact haway
  cases hmoved with
  | resets hl hafter =>
    obtain ⟨hidle, hdark⟩ := h (hafter.active.symm.trans hactive) (hafter.suspended.symm.trans haway)
    rw [hafter.kernelRunning, hafter.lastLit, hidle, hdark]
    exact ⟨Bool.false_and _, Bool.and_false _⟩
  | suspends hl hdrained hmarks =>
    have hactive' : s.gf.active = true := (congrArg Marks.active hmarks).symm.trans hactive
    have hnone := hdrained hactive'
    simp only [drained, Bool.and_eq_true, Bool.not_eq_true'] at hnone
    have hdark : s.gf.lastLit = false := by
      cases hlit : s.gf.lastLit with
      | false => rfl
      | true =>
        have hheld := hcustody.marks.lit hlit
        simp [Marks.held, Gf.marks, hnone.1.1.2, hnone.1.2] at hheld
    exact ⟨(congrArg Marks.kernelRunning hmarks).trans hnone.1.1.2,
      (congrArg Marks.lastLit hmarks).trans hdark⟩
  | resumes hl hnull hmarks =>
    rw [show t.gf.suspended = false from congrArg Marks.suspended hmarks] at haway
    cases haway
  | swaps hl hhead hmarks =>
    rw [show t.gf.suspended = false from congrArg Marks.suspended hmarks] at haway
    cases haway
  | still hmarks => exact hkept hmarks rfl rfl rfl rfl
  | wakesLive hl hlive hmarks => exact hkept hmarks rfl rfl rfl rfl
  | begins hl hidle hmarks => exact hkept hmarks rfl rfl rfl rfl
  | event hl hlive hmarks => exact hkept hmarks rfl rfl rfl rfl
  | idles hl hmarks => exact hkept hmarks rfl rfl rfl rfl
  | latchFails hl hhead hmarks => exact hkept hmarks rfl rfl rfl rfl

theorem logCalls_turn {l : Label} (hship : ∀ e, l ≠ .ship e) (s : State) (w : CallLog) :
    logCalls s l w = { w with cleared := w.cleared || emptiesRing s l } := by
  cases l with
  | ship e => exact absurd rfl (hship e)
  | _ => rfl

/-- A takeover that empties the ring finds a device that was handed over. -/
theorem emptiesRing_away {s : State} {l : Label} (hen : l.enabled s = true) (hship : ∀ e, l ≠ .ship e)
    (h : emptiesRing s l = true) : s.gf.active = true ∧ s.gf.suspended = true := by
  cases l with
  | ship e => exact absurd rfl (hship e)
  | resume latchOk emptied counted =>
    simp only [Label.enabled, Bool.and_eq_true] at hen
    exact ⟨(Bool.and_eq_true_iff.mp h).1, hen.2⟩
  | _ => cases h

theorem turn_grammar {s t : State} {l : Label} {w : CallLog} (h : GrammarInv s w)
    (hen : l.enabled s = true) (hturn : turn s l = some t) (hship : ∀ e, l ≠ .ship e)
    (hcustody : Custody t) : GrammarInv t (logCalls s l w) := by
  have hmoved := turn_moved hturn hship
  have hpc := (turn_turned hturn hship).pc
  rw [logCalls_turn hship]
  refine ⟨hcustody, fun hidle => ?_, hmoved.away h.custody h.away, fun hover => ?_, ?_, ?_, ?_⟩
  · cases hmark : t.gf.powerSent with
    | false => rfl
    | true =>
      obtain ⟨hbefore, hsame⟩ := turn_sent hturn hship hmark
      rw [h.sent (hsame.symm.trans hidle)] at hbefore
      cases hbefore
  · have hfresh : s.gf.lastLit = false ∧ (s.gf.powerSent = true → s.pc.settling = true) := by
      rcases Bool.or_eq_true_iff.mp hover with hover | hempty
      · exact h.fresh hover
      · obtain ⟨hactive, haway⟩ := emptiesRing_away hen hship hempty
        obtain ⟨hidle, hdark⟩ := h.away hactive haway
        refine ⟨hdark, fun hmark => ?_⟩
        rw [h.sent hidle] at hmark
        cases hmark
    refine ⟨?_, fun hmark => ?_⟩
    · cases hlit : t.gf.lastLit with
      | false => rfl
      | true =>
        rw [hmoved.lastLit hlit] at hfresh
        cases hfresh.1
    · rw [hpc]
      exact hfresh.2 (turn_sent hturn hship hmark).1
  · exact ⟨h.grammar.leads, h.grammar.paired, fun hover =>
      h.grammar.begun (Bool.or_eq_false_iff.mp hover).1⟩
  · rw [hpc, hmoved.active]
    exact h.landed
  · rw [(turn_turned hturn hship).dump]
    exact h.dump

theorem step_grammar {s t : State} {l : Label} {w : CallLog} (h : GrammarInv s w)
    (hstep : step s l = some t) : GrammarInv t (logCalls s l w) := by
  obtain ⟨hen, hturn⟩ := step_eq_some.mp hstep
  have hcustody := step_custody hstep h.custody
  cases l with
  | ship e =>
    cases hturn
    exact shipStep_grammar h
  | _ => exact turn_grammar h hen hturn (by rintro _ ⟨⟩) hcustody

theorem init_grammar (c : Config) (k : Kernel) (emptied counted : Bool) :
    GrammarInv (State.init c k emptied counted) CallLog.start := by
  have hsame : (State.init c k emptied counted).gf.marks = (Gf.init c).marks ∧
      (State.init c k emptied counted).gf.powerSent = false := by
    simp only [State.init, rebaseAtTakeover]
    split_ifs <;> exact ⟨rfl, rfl⟩
  refine ⟨init_custody c k emptied counted, fun _ => hsame.2, fun _ haway => ?_, fun _ => ?_,
    ⟨rfl, by rintro _ ⟨⟩, by decide⟩, fun _ _ => rfl, rfl⟩
  · rw [show (State.init c k emptied counted).gf.suspended = false from
      congrArg Marks.suspended hsame.1] at haway
    cases haway
  · refine ⟨congrArg Marks.lastLit hsame.1, fun hmark => ?_⟩
    rw [hsame.2] at hmark
    cases hmark

/-- **The grammar of the power bytes.** In every run, in either dose model: the bytes handed to
the device since its ring was last empty of the stream begin with a power byte; each power byte
is followed by a tick byte of the same call; no two power bytes of all that was ever handed over
are adjacent; and the mark of the power byte is never set without a run. What the device has
taken is the bytes of the log, up to what a write under way has still to put into it, as long as
no write fails. -/
theorem power_byte_grammar {c : Config} {k : Kernel} {emptied counted : Bool} {s : State} {w : CallLog}
    (hrun : Runs.Reach (Runs.observe step logCalls) (fun _ _ => True)
      (State.init c k emptied counted, CallLog.start) (s, w)) :
    leads w.bytes = true ∧ (∀ call ∈ w.calls, paired call = true) ∧ Apart w.bytes ∧ Apart s.dump ∧
      (s.gf.kernelRunning = false → s.gf.powerSent = false) ∧
      (s.gf.active = true → w.whole = true → w.landed ++ s.pc.site.remaining = w.bytes) := by
  have h : GrammarInv s w :=
    Runs.Reach.invariant_observe (fun _ _ => True) hrun (init_grammar c k emptied counted)
      fun _ _ _ _ h _ hstep => step_grammar h hstep
  exact ⟨h.grammar.leads, h.grammar.paired, apart_of_paired (paired_flatten h.grammar.paired),
    apart_of_paired h.dump, h.sent, h.landed⟩

/-- The first chunk of a stream: 20 ticks behind their power byte, two bytes of it in the ring. -/
theorem power_byte_grammar_first_chunk :
    ∃ s w, Runs.Reach (Runs.observe step logCalls) (fun _ _ => True)
        (State.init (slowConfig true) idleKernel true true, CallLog.start) (s, w) ∧
      (w.bytes.length = 21 ∧ w.landed.length = 2 ∧ w.whole = true) ∧
      (leads w.bytes = true ∧ (∀ call ∈ w.calls, paired call = true) ∧ Apart w.bytes ∧ Apart s.dump ∧
        (s.gf.kernelRunning = false → s.gf.powerSent = false) ∧
        (s.gf.active = true → w.whole = true → w.landed ++ s.pc.site.remaining = w.bytes)) := by
  have hex : ∃ x : State × CallLog, Runs.Reach (Runs.observe step logCalls) (fun _ _ => True)
        (State.init (slowConfig true) idleKernel true true, CallLog.start) x ∧
      (x.2.bytes.length = 21 ∧ x.2.landed.length = 2 ∧ x.2.whole = true) :=
    Runs.exists_reach_of_exec (oneStep ++ [Label.ship {}, .ship {}, .ship {}, .ship {}, .ship {}])
      (by decide +kernel)
  obtain ⟨⟨s, w⟩, hrun, hlog⟩ := hex
  exact ⟨s, w, hrun, hlog, power_byte_grammar hrun⟩

end Glowforge.Stream
