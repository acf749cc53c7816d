import Glowforge.Lib.Timeline
import Glowforge.Stream.Frame

/-!
# Glowforge — one tick of the ship loop

The specification of `shipTick`, which the invariants of the ring and of the laser use in
place of its body:

* **`shipTick_ring`**, **`shipTick_shipped`** — the slot at the cursor is zeroed, and the
  cursor moves by one.
* **`shipTick_lev`**, **`shipTick_curFire`** — the transitions up to the cursor are taken, and
  the last of them is in force.
* **`shipTick_bytes`** — the tick adds at most a power byte and then the slot's byte, lit only
  if the gate is open and the fire state in force is on.

`buildTicks` repeats it; `buildTicks_induct` is the rule for what every tick keeps.
-/

namespace Glowforge.Stream

/-! ## Bytes -/

/-- A tick byte as it ships: the slot's step bits, and FIRE where the tick fires. -/
def shippedByte (b : StepByte) (fires : Bool) : UInt8 := if fires then b.val ||| 0x10 else b.val

theorem isTick_power (p : UInt8) : isTick (0x80 ||| p) = false := by
  obtain ⟨p⟩ := p
  revert p
  decide

/-- The byte facts of a step byte, by its eight bits. -/
theorem stepByte_bits : ∀ b : BitVec 8, UInt8.ofBitVec b &&& 0x90 = 0 →
    isTick (UInt8.ofBitVec b) = true ∧ lit (UInt8.ofBitVec b) = false ∧
    isTick (UInt8.ofBitVec b ||| 0x10) = true ∧ lit (UInt8.ofBitVec b ||| 0x10) = true ∧
    UInt8.ofBitVec b &&& 0xEF = UInt8.ofBitVec b ∧
    (UInt8.ofBitVec b ||| 0x10) &&& 0xEF = UInt8.ofBitVec b := by
  decide

theorem isTick_shippedByte (b : StepByte) (fires : Bool) : isTick (shippedByte b fires) = true := by
  obtain ⟨h1, -, h3, -⟩ := stepByte_bits b.val.toBitVec b.plain
  cases fires
  · exact h1
  · exact h3

theorem lit_shippedByte (b : StepByte) (fires : Bool) : lit (shippedByte b fires) = fires := by
  obtain ⟨-, h2, -, h4, -⟩ := stepByte_bits b.val.toBitVec b.plain
  cases fires
  · exact h2
  · exact h4

/-- Masking FIRE out of a shipped byte gives the slot's byte back. -/
theorem shippedByte_unlit (b : StepByte) (fires : Bool) : shippedByte b fires &&& 0xEF = b.val := by
  obtain ⟨-, -, -, -, h5, h6⟩ := stepByte_bits b.val.toBitVec b.plain
  cases fires
  · exact h5
  · exact h6

/-! ## The transitions at the cursor

The transitions up to the cursor are taken off the front, and the last of them is in force. -/

/-- The fire state a reader with the cursor at `i` has in force. -/
abbrev fireAt (lev : List LaserEv) (fire : Bool) (i : Nat) : Bool :=
  Timeline.inForce LaserEv.idx LaserEv.fire lev fire i

theorem applyDue_lev (i : Nat) (lev : List LaserEv) (fire : Bool) (power : UInt8) (due : Bool) :
    (applyDue i lev fire power due).1 = lev.dropWhile (·.idx ≤ i) := by
  induction lev generalizing fire power due with
  | nil => rfl
  | cons e lev ih =>
    simp only [applyDue, List.dropWhile_cons]
    split
    · simp [*]
    · simp [*]

theorem applyDue_fire (i : Nat) (lev : List LaserEv) (fire : Bool) (power : UInt8) (due : Bool) :
    (applyDue i lev fire power due).2.1 = fireAt lev fire i := by
  induction lev generalizing fire power due with
  | nil => rfl
  | cons e lev ih =>
    simp only [applyDue, fireAt, Timeline.inForce]
    split
    · exact ih _ _ _
    · rfl

theorem tickLaser_lev (g : Gf) : (tickLaser g).1.lev = g.lev.dropWhile (·.idx ≤ g.shipped) := by
  rw [← applyDue_lev g.shipped g.lev g.curFire g.curPower false]
  simp only [tickLaser]
  split <;> rfl

theorem tickLaser_curFire (g : Gf) : (tickLaser g).1.curFire = fireAt g.lev g.curFire g.shipped := by
  rw [← applyDue_fire g.shipped g.lev g.curFire g.curPower false]
  simp only [tickLaser]
  split <;> rfl

/-! ## The tick

The parts of `shipTick`, and then the whole, by what it leaves. -/

/-- The tick's fire decision leaves the ring, the cursor and the transitions alone. -/
theorem tickFire_keeps (gate : Bool) (g : Gf) :
    (tickFire gate g).1.ring = g.ring ∧ (tickFire gate g).1.shipped = g.shipped ∧
    (tickFire gate g).1.lev = g.lev ∧ (tickFire gate g).1.curFire = g.curFire := by
  have h := tickFire_dithered gate g
  exact ⟨h.frame Gf.ring rfl, h.frame Gf.shipped rfl, h.frame Gf.lev rfl, h.frame Gf.curFire rfl⟩

/-- A tick fires only as the core asked and the gate permits. -/
theorem tickFire_fires {gate : Bool} {g : Gf} (h : (tickFire gate g).2 = true) :
    gate = true ∧ g.curFire = true := by
  simp only [tickFire] at h
  split at h
  · next hc => simpa [and_comm] using hc
  · cases h

theorem tickPower_keeps (g : Gf) (p : UInt8) (d : Bool) :
    (tickPower g p d).1.ring = g.ring ∧ (tickPower g p d).1.shipped = g.shipped ∧
    (tickPower g p d).1.lev = g.lev ∧ (tickPower g p d).1.curFire = g.curFire := by
  simp only [tickPower]
  split_ifs <;> exact ⟨rfl, rfl, rfl, rfl⟩

theorem tickPower_bytes (g : Gf) (p : UInt8) (d : Bool) :
    ∀ b ∈ (tickPower g p d).2, isTick b = false := by
  simp only [tickPower]
  split_ifs
  · simp
  · simp [isTick_power]
  · simp [isTick_power]
  · simp

theorem tickLaser_keeps (g : Gf) :
    (tickLaser g).1.ring = g.ring ∧ (tickLaser g).1.shipped = g.shipped := by
  simp only [tickLaser]
  split <;> exact ⟨rfl, rfl⟩

/-- The record ahead of the tick byte: the transitions taken and the power byte decided. -/
def tickReady (g : Gf) : Gf × List UInt8 :=
  tickPower (tickLaser g).1 (tickLaser g).2.1 (tickLaser g).2.2

theorem shipTick_eq (gate : Bool) (g : Gf) :
    shipTick gate g = ((tickByte gate (tickReady g).1).1,
      (tickReady g).2 ++ [(tickByte gate (tickReady g).1).2]) := rfl

theorem tickReady_ring (g : Gf) : (tickReady g).1.ring = g.ring :=
  (tickPower_keeps _ _ _).1.trans (tickLaser_keeps g).1

theorem tickReady_shipped (g : Gf) : (tickReady g).1.shipped = g.shipped :=
  (tickPower_keeps _ _ _).2.1.trans (tickLaser_keeps g).2

theorem shipTick_ring (gate : Bool) (g : Gf) :
    (shipTick gate g).1.ring = Function.update g.ring (slot g.shipped) 0 := by
  rw [← tickReady_ring g, ← tickReady_shipped g]
  exact (tickFire_keeps gate _).1

theorem shipTick_shipped (gate : Bool) (g : Gf) : (shipTick gate g).1.shipped = g.shipped + 1 := by
  rw [← tickReady_shipped g]
  exact congrArg (· + 1) (tickFire_keeps gate _).2.1

theorem shipTick_lev (gate : Bool) (g : Gf) :
    (shipTick gate g).1.lev = g.lev.dropWhile (·.idx ≤ g.shipped) := by
  rw [← tickLaser_lev]
  exact (tickFire_keeps gate _).2.2.1.trans (tickPower_keeps _ _ _).2.2.1

theorem shipTick_curFire (gate : Bool) (g : Gf) :
    (shipTick gate g).1.curFire = fireAt g.lev g.curFire g.shipped := by
  rw [← tickLaser_curFire]
  exact (tickFire_keeps gate _).2.2.2.trans (tickPower_keeps _ _ _).2.2.2

/-- **The bytes of a tick.** A power byte goes ahead of it where the level has changed, and the
slot's byte is lit only under an open gate with the fire state on. -/
theorem shipTick_bytes (gate : Bool) (g : Gf) :
    ∃ power fires, (shipTick gate g).2 = power ++ [shippedByte (g.ring (slot g.shipped)) fires] ∧
      (∀ b ∈ power, isTick b = false) ∧
      (shipTick gate g).1.lastLit = fires ∧
      (fires = true → gate = true ∧ fireAt g.lev g.curFire g.shipped = true) := by
  refine ⟨(tickReady g).2, (tickFire gate { (tickReady g).1 with
    ring := Function.update (tickReady g).1.ring (slot (tickReady g).1.shipped) 0 }).2,
    ?_, tickPower_bytes _ _ _, ?_, ?_⟩
  · rw [shipTick_eq, ← tickReady_ring g, ← tickReady_shipped g]
    rfl
  · rw [shipTick_eq]
    exact lit_shippedByte _ _
  · intro h
    obtain ⟨hgate, hfire⟩ := tickFire_fires h
    refine ⟨hgate, ?_⟩
    rw [← tickLaser_curFire]
    exact (tickPower_keeps _ _ _).2.2.2.symm.trans hfire

/-- The tick bytes of a chunk with one more tick. -/
theorem shipTick_ticks (gate : Bool) (g : Gf) (chunk : List UInt8) :
    ∃ fires, (chunk ++ (shipTick gate g).2).filter isTick =
        chunk.filter isTick ++ [shippedByte (g.ring (slot g.shipped)) fires] ∧
      (fires = true → gate = true ∧ fireAt g.lev g.curFire g.shipped = true) := by
  obtain ⟨power, fires, hbytes, hpower, -, hfires⟩ := shipTick_bytes gate g
  have hnone : power.filter isTick = [] := by
    rw [List.filter_eq_nil_iff]
    intro b hb
    rw [hpower b hb]
    exact Bool.false_ne_true
  refine ⟨fires, ?_, hfires⟩
  rw [hbytes, List.filter_append, List.filter_append, hnone, List.nil_append,
    List.filter_cons_of_pos (isTick_shippedByte _ _), List.filter_nil]

/-! ## The loop -/

/-- **The loop rule.** What holds of the record and the chunk at the start, and survives every
tick that the loop takes, holds at its end. -/
theorem buildTicks_induct (gate : Bool) (due : Nat) (streaming : Bool)
    {P : Gf → List UInt8 → Prop}
    (hkeep : ∀ g chunk, P g chunk → tickDue due streaming g = true →
      P (shipTick gate g).1 (chunk ++ (shipTick gate g).2))
    (fuel : Nat) (g : Gf) (chunk : List UInt8) (h0 : P g chunk) :
    P (buildTicks gate due streaming fuel g chunk).1 (buildTicks gate due streaming fuel g chunk).2 := by
  induction fuel generalizing g chunk with
  | zero => exact h0
  | succ fuel ih =>
    simp only [buildTicks]
    split
    · next hc =>
      have hdue : tickDue due streaming g = true := (Bool.and_eq_true_iff.mp hc).2
      exact ih _ _ (hkeep g chunk h0 hdue)
    · exact h0

/-! ## Rounds

A step of the shipper hands bytes to the sink in a round of the loop, or as a dark pad. -/

/-- The state in which a round begins: behind the gate's edge of a pass, or behind a chunk
that has landed and met no fault. -/
inductive RoundAt (e : Env) (s : State) : Pass → State → Prop where
  | first {gate : Bool} (hpc : s.pc = .sampled gate) :
      RoundAt e s ⟨gate, dueIndex e.later (anchor e.now { s with gf := gateEdge gate s.gf }).gf, false⟩
        (anchor e.now { s with gf := gateEdge gate s.gf })
  | next {p : Pass} {c : Chunk} (hpc : s.pc = .wrote p c true) (hok : s.gf.failed = false) :
      RoundAt e s { p with startRun := p.startRun || c.first } (chunkLanded c s)

/-- **What a step hands to the sink.** A round hands over its chunk; any other step hands over a
dark pad or nothing. -/
theorem shipStep_round (e : Env) (s : State) :
    (∃ p u, RoundAt e s p u ∧ shipStep e s = shipLoop p u.gf.streaming u) ∨
    (∃ pad, (∀ b ∈ pad, b = 0x00) ∧ (shipStep e s).dump = s.dump ++ pad) := by
  have hnone : ∀ t : State, t.dump = s.dump →
      ∃ pad, (∀ b ∈ pad, b = (0x00 : UInt8)) ∧ t.dump = s.dump ++ pad :=
    fun t ht => ⟨[], fun _ h => absurd h List.not_mem_nil, by rw [ht, List.append_nil]⟩
  have hpad : ∀ t : State, t.dump = s.dump ++ [0x00] →
      ∃ pad, (∀ b ∈ pad, b = (0x00 : UInt8)) ∧ t.dump = s.dump ++ pad :=
    fun t ht => ⟨[0x00], fun _ h => List.mem_singleton.mp h, ht⟩
  unfold shipStep
  split
  case h_8 gate hpc =>
    simp only [shipBody, shipGated]
    split
    · right
      have hhold : ∀ u, (pollHold e u).dump = u.dump := by
        intro u
        simp only [pollHold]
        split_ifs <;> rfl
      change ∃ pad, _ ∧ (pollHold e (endStream e _)).dump = _
      rw [hhold]
      simp only [endStream, endPad]
      split_ifs
      · exact hpad _ rfl
      · exact hnone _ rfl
      · exact hnone _ rfl
    · split
      · exact .inr (hnone _ rfl)
      · exact .inl ⟨_, _, .first hpc, rfl⟩
  case h_10 p c ok hpc =>
    cases ok with
    | false => exact .inr (hnone _ rfl)
    | true =>
      simp only [shipWrote, if_true, shipNext]
      split
      · exact .inr (hnone _ rfl)
      · next hgo =>
        simp only [Bool.or_eq_true, not_or, Bool.not_eq_true] at hgo
        exact .inl ⟨_, _, .next hpc hgo.1.1, rfl⟩
  all_goals right
  case h_1 =>
    simp only [pendingSnapshot, resetPad]
    split_ifs
    · exact hpad _ rfl
    · exact hnone _ rfl
  case h_3 => simp only [pendingSeek]; split_ifs <;> exact hnone _ rfl
  case h_6 => simp only [pendingOurs]; split_ifs <;> exact hnone _ rfl
  case h_7 =>
    simp only [shipLock, faultPad]
    split_ifs
    · exact hpad _ rfl
    · exact hnone _ rfl
    · exact hnone _ rfl
  case h_9 => simp only [shipWrite]; split <;> (try split_ifs) <;> exact hnone _ rfl
  case h_15 => simp only [issueRelight]; split_ifs <;> exact hnone _ rfl
  case h_20 => simp only [issueEnd]; split_ifs <;> exact hnone _ rfl
  case h_23 => simp only [shipRc]; split_ifs <;> exact hnone _ rfl
  all_goals exact hnone _ rfl

/-- The tick bytes that a step adds to what the sink was given. -/
def newTicks (s t : State) : List UInt8 := (t.dump.drop s.dump.length).filter isTick

theorem RoundAt.dump {e : Env} {s u : State} {p : Pass} (h : RoundAt e s p u) : u.dump = s.dump := by
  cases h <;> rfl

/-- The ticks of a round are those that its loop built. -/
theorem newTicks_shipLoop {e : Env} {s u : State} {p : Pass} (h : RoundAt e s p u) :
    newTicks s (shipLoop p u.gf.streaming u) = [] ∨
    newTicks s (shipLoop p u.gf.streaming u) =
      (buildTicks p.gate p.due u.gf.streaming shipChunk u.gf []).2.filter isTick := by
  simp only [shipLoop]
  split
  · right
    change ((u.dump ++ _).drop s.dump.length).filter isTick = _
    rw [h.dump, List.drop_left]
  · left
    change (u.dump.drop s.dump.length).filter isTick = _
    rw [h.dump, List.drop_length]
    rfl

/-- A pad is dark. -/
theorem newTicks_pad {s t : State} {pad : List UInt8} (hpad : ∀ b ∈ pad, b = 0x00)
    (hdump : t.dump = s.dump ++ pad) : ∀ b ∈ newTicks s t, lit b = false := by
  intro b hb
  rw [newTicks, hdump, List.drop_left] at hb
  rw [hpad b (List.mem_of_mem_filter hb)]
  rfl

/-! ## The course of a pass -/

/-- The shipper is in the loop of a pass. -/
def ShipPc.inPass : ShipPc → Bool
  | .sampled _ | .writing _ _ _ | .wrote _ _ _ => true
  | _ => false

/-- How the shipper comes to a point of a pass. -/
inductive PassMove (e : Env) (s : State) : ShipPc → Prop where
  | sample (hpc : s.pc = .lock) (hok : s.gf.failed = false) : PassMove e s (.sampled s.fireGate)
  | round {p : Pass} {u : State} {c : Chunk} {rest : List UInt8} (hround : RoundAt e s p u) :
      PassMove e s (.writing p c rest)
  | byte {p : Pass} {c : Chunk} {rest rest' : List UInt8} (hpc : s.pc = .writing p c rest) :
      PassMove e s (.writing p c rest')
  | wrote {p : Pass} {c : Chunk} {rest : List UInt8} {ok : Bool} (hpc : s.pc = .writing p c rest) :
      PassMove e s (.wrote p c ok)

theorem shipLoop_pass {e : Env} {s u : State} {p : Pass} (hround : RoundAt e s p u)
    (h : (shipLoop p u.gf.streaming u).pc.inPass = true) :
    PassMove e s (shipLoop p u.gf.streaming u).pc := by
  simp only [shipLoop] at h ⊢
  split at h
  · next hdue =>
    rw [if_pos hdue]
    exact .round hround
  · cases h

/-- **A pass** begins at the lock, and goes round by round. -/
theorem shipStep_pass (e : Env) (s : State) (h : (shipStep e s).pc.inPass = true) :
    PassMove e s (shipStep e s).pc := by
  unfold shipStep at h ⊢
  split at h
  case h_1 =>
    simp only [pendingSnapshot, pendingNext] at h
    split_ifs at h <;> cases h
  case h_2 =>
    simp only [pendingState] at h
    split at h <;> split at h <;> cases h
  case h_3 => simp only [pendingSeek] at h; split at h <;> cases h
  case h_6 =>
    simp only [pendingOurs] at h
    split_ifs at h <;> cases h
  case h_7 hpc =>
    simp only [shipLock] at h ⊢
    split at h
    · cases h
    · next hgo =>
      rw [if_neg hgo]
      simp only [Bool.or_eq_true, not_or, Bool.not_eq_true] at hgo
      exact .sample hpc hgo.1
  case h_8 gate hpc =>
    simp only [shipBody, shipGated] at h ⊢
    split at h
    · cases h
    · next hover =>
      rw [if_neg hover]
      split at h
      · cases h
      · next hwait =>
        rw [if_neg hwait]
        exact shipLoop_pass (.first hpc) h
  case h_9 p c rest hpc =>
    simp only [shipWrite]
    split
    · exact .wrote hpc
    · split
      · exact .byte hpc
      · exact .wrote hpc
  case h_10 p c ok hpc =>
    cases ok with
    | false => cases h
    | true =>
      simp only [shipWrote, if_true, shipNext] at h ⊢
      split at h
      · cases h
      · next hgo =>
        rw [if_neg hgo]
        simp only [Bool.or_eq_true, not_or, Bool.not_eq_true] at hgo
        exact shipLoop_pass (.next hpc hgo.1.1) h
  case h_11 => simp only [runTest] at h; split at h <;> cases h
  case h_12 => simp only [runGateState] at h; split at h <;> cases h
  case h_13 => simp only [runGateCounts] at h; split at h <;> cases h
  case h_14 => simp only [exchangeFailed] at h; split at h <;> cases h
  case h_15 => simp only [issueRelight] at h; split_ifs at h <;> cases h
  case h_16 => simp only [issueWrite] at h; split at h <;> cases h
  case h_17 =>
    simp only [issueState] at h
    split at h
    case h_1 => split at h <;> cases h
    case h_3 => split at h <;> cases h
    all_goals cases h
  case h_19 => simp only [issueFault, exchangeFailed] at h; split at h <;> cases h
  case h_20 => simp only [issueEnd] at h; split at h <;> cases h
  case h_21 => simp only [latchFaultRecord] at h; split at h <;> cases h
  case h_23 =>
    simp only [shipRc, exchangeFailed] at h
    split_ifs at h <;> cases h
  case h_24 => simp only [checkSnapshot] at h; split at h <;> cases h
  case h_25 => simp only [checkState] at h; split at h <;> cases h
  case h_26 => simp only [exchangeFailed] at h; split at h <;> cases h
  case h_27 next _ => cases next <;> cases h
  all_goals cases h

end Glowforge.Stream
