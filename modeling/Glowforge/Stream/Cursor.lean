import Glowforge.Stream.Tick
import Mathlib.Logic.Function.Iterate

/-!
# Glowforge — the walk of the cursor

The loop of a pass is a number of ticks, and what each of them applies can be read off the queue
beforehand:

* **`stateAt`** — the power and the fire state that a queue puts in force at an index.
* **`shipTick_state`** — a tick applies the state at the cursor, and leaves the states ahead alone.
* **`ticks`** — the record behind a number of ticks; `buildTicks_ticks` says that the loop is one.
* **`Builds`** — a step of the shipper builds the tick of an index.
-/

namespace Glowforge.Stream

/-! ## The state in force

The power and the fire state at an index, read off the queue. -/

/-- The power and the fire state of a transition, and those in force. -/
def LaserEv.state (e : LaserEv) : UInt8 × Bool := (e.power, e.fire)

def Gf.state (g : Gf) : UInt8 × Bool := (g.curPower, g.curFire)

/-- The state at index `i` of a reader that has `cur` in force and a queue ahead. -/
abbrev stateAt (lev : List LaserEv) (cur : UInt8 × Bool) (i : Nat) : UInt8 × Bool :=
  Timeline.inForce LaserEv.idx LaserEv.state lev cur i

def Gf.stateAt (g : Gf) (i : Nat) : UInt8 × Bool := Stream.stateAt g.lev g.state i

theorem stateAt_fire (lev : List LaserEv) (power : UInt8) (fire : Bool) (i : Nat) :
    (stateAt lev (power, fire) i).2 = fireAt lev fire i := by
  induction lev generalizing power fire with
  | nil => rfl
  | cons e lev ih =>
    simp only [stateAt, fireAt, Timeline.inForce]
    split
    · exact ih e.power e.fire
    · rfl

theorem applyDue_level (i : Nat) (lev : List LaserEv) (fire : Bool) (power : UInt8) (due : Bool) :
    (applyDue i lev fire power due).2.2.1 = (stateAt lev (power, fire) i).1 := by
  induction lev generalizing fire power due with
  | nil => rfl
  | cons e lev ih =>
    simp only [applyDue, stateAt, Timeline.inForce]
    split
    · exact ih e.fire e.power true
    · rfl

/-- Where no transition was due, the power is what it was. -/
theorem applyDue_none {i : Nat} {lev : List LaserEv} {fire : Bool} {power : UInt8} {due : Bool}
    (h : (applyDue i lev fire power due).2.2.2 = false) :
    (applyDue i lev fire power due).2.2.1 = power := by
  have hdue : ∀ (lev : List LaserEv) fire power, (applyDue i lev fire power true).2.2.2 = true := by
    intro lev
    induction lev with
    | nil => exact fun _ _ => rfl
    | cons e lev ih =>
      intro fire power
      simp only [applyDue]
      split
      · exact ih _ _
      · rfl
  cases lev with
  | nil => rfl
  | cons e lev =>
    simp only [applyDue] at h ⊢
    split at h
    · rw [hdue] at h
      cases h
    · next hidx => rw [if_neg hidx]

/-! ## One tick

A tick takes the transitions up to the cursor and leaves the states ahead as they were. -/

theorem tickLaser_power (g : Gf) : (tickLaser g).2.1 = (g.stateAt g.shipped).1 :=
  applyDue_level g.shipped g.lev g.curFire g.curPower false

theorem tickLaser_none {g : Gf} (h : (tickLaser g).2.2 = false) : (tickLaser g).2.1 = g.curPower :=
  @applyDue_none g.shipped g.lev g.curFire g.curPower false h

theorem tickLaser_curPower (g : Gf) : (tickLaser g).1.curPower = g.curPower := by
  simp only [tickLaser]
  split <;> rfl

/-- The level of the tick is the one that its transitions leave. -/
theorem tickReady_curPower (g : Gf) : (tickReady g).1.curPower = (g.stateAt g.shipped).1 := by
  rw [← tickLaser_power, tickReady, tickPower]
  split_ifs with hdensity hsent hchange
  · rfl
  · rfl
  · rfl
  · -- no power byte: no transition was due, or it has the level in force
    simp only [Bool.or_eq_true, Bool.and_eq_true, bne_iff_ne, ne_eq, not_or, not_and, not_not] at hchange
    rw [tickLaser_curPower]
    cases hdue : (tickLaser g).2.2 with
    | false => exact (tickLaser_none hdue).symm
    | true => exact ((hchange.1 hdue).trans (tickLaser_curPower g)).symm

theorem tickByte_curPower (gate : Bool) (g : Gf) : (tickByte gate g).1.curPower = g.curPower :=
  (tickFire_dithered gate { g with ring := Function.update g.ring (slot g.shipped) 0 }).frame Gf.curPower rfl

/-- **A tick applies the state at the cursor.** It takes every transition up to its index, and the
last of them is what the queue has there. -/
theorem shipTick_state (gate : Bool) (g : Gf) : (shipTick gate g).1.state = g.stateAt g.shipped := by
  refine Prod.ext ?_ ?_
  · exact (tickByte_curPower gate _).trans (tickReady_curPower g)
  · exact (shipTick_curFire gate g).trans (stateAt_fire _ _ _ _).symm

/-- The states ahead of the cursor stay. -/
theorem shipTick_stateAt (gate : Bool) {g : Gf} {i : Nat} (h : g.shipped < i) :
    (shipTick gate g).1.stateAt i = g.stateAt i := by
  simp only [Gf.stateAt]
  rw [shipTick_state, shipTick_lev]
  exact Timeline.inForce_dropWhile (Nat.le_of_lt h)

/-- A tick of the analog model fires as the core asked and the gate permits. -/
theorem shipTick_analog {gate : Bool} {g : Gf} (hanalog : g.dithPeriod = 0) :
    (shipTick gate g).2.getLast? =
      some (shippedByte (g.ring (slot g.shipped)) (fireAt g.lev g.curFire g.shipped && gate)) := by
  have hmodel : (tickReady g).1.dithPeriod = 0 :=
    ((tickLaser_ticked g).trans (tickPower_ticked _ _ _)).frame Gf.dithPeriod rfl |>.trans hanalog
  have hcur : (tickReady g).1.curFire = fireAt g.lev g.curFire g.shipped :=
    (tickPower_keeps _ _ _).2.2.2.trans (tickLaser_curFire g)
  rw [shipTick_eq, List.getLast?_concat, ← hcur, ← tickReady_ring g, ← tickReady_shipped g]
  simp only [tickByte, tickFire, hmodel, if_true]
  cases (tickReady g).1.curFire && gate <;> rfl

/-! ## The walk -/

/-- The record behind `n` ticks. -/
def ticks (gate : Bool) (n : Nat) (g : Gf) : Gf := (fun g => (shipTick gate g).1)^[n] g

/-- The bytes of the tick behind `n` others. -/
def tickBytes (gate : Bool) (n : Nat) (g : Gf) : List UInt8 := (shipTick gate (ticks gate n g)).2

theorem ticks_succ (gate : Bool) (n : Nat) (g : Gf) :
    ticks gate (n + 1) g = (shipTick gate (ticks gate n g)).1 := Function.iterate_succ_apply' _ n g

theorem ticks_shipped (gate : Bool) (n : Nat) (g : Gf) : (ticks gate n g).shipped = g.shipped + n := by
  induction n with
  | zero => rfl
  | succ n ih =>
    rw [ticks_succ, shipTick_shipped, ih]
    rfl

theorem ticks_stateAt (gate : Bool) (n : Nat) {g : Gf} {i : Nat} (h : g.shipped + n ≤ i) :
    (ticks gate n g).stateAt i = g.stateAt i := by
  induction n with
  | zero => rfl
  | succ n ih =>
    rw [ticks_succ, shipTick_stateAt gate (by rw [ticks_shipped]; omega)]
    exact ih (by omega)

/-- **What a tick of the walk applies** is the state that the queue had for it at the beginning. -/
theorem ticks_state (gate : Bool) (n : Nat) (g : Gf) :
    (ticks gate (n + 1) g).state = g.stateAt (g.shipped + n) := by
  rw [ticks_succ, shipTick_state, ticks_shipped]
  exact ticks_stateAt gate n (Nat.le_refl _)

/-- The walk takes the transitions up to its last tick off the queue. -/
theorem ticks_lev (gate : Bool) (n : Nat) (g : Gf) :
    (ticks gate (n + 1) g).lev = g.lev.dropWhile (·.idx ≤ g.shipped + n) := by
  induction n with
  | zero => exact shipTick_lev gate g
  | succ n ih =>
    rw [ticks_succ, shipTick_lev, ih, ticks_shipped]
    exact Timeline.dropWhile_dropWhile (Nat.le_succ _)

/-- The walk has one tick byte per tick, and a lit one has the fire state on. -/
theorem tickBytes_lit (gate : Bool) (n : Nat) (g : Gf) :
    (((List.range n).flatMap fun i => tickBytes gate i g).filter isTick).length = n ∧
    ∀ i b, (((List.range n).flatMap fun i => tickBytes gate i g).filter isTick)[i]? = some b → lit b = true →
      gate = true ∧ (g.stateAt (g.shipped + i)).2 = true := by
  induction n with
  | zero => exact ⟨rfl, by rintro _ _ ⟨⟩⟩
  | succ n ih =>
    obtain ⟨hlen, hlit⟩ := ih
    rw [List.range_succ, List.flatMap_append, List.flatMap_singleton]
    obtain ⟨fires, hticks, hfires⟩ := shipTick_ticks gate (ticks gate n g)
      ((List.range n).flatMap fun i => tickBytes gate i g)
    change ((((List.range n).flatMap fun i => tickBytes gate i g) ++
      (shipTick gate (ticks gate n g)).2).filter isTick).length = _ ∧ ∀ i b,
      ((((List.range n).flatMap fun i => tickBytes gate i g) ++
        (shipTick gate (ticks gate n g)).2).filter isTick)[i]? = some b → _
    rw [hticks]
    refine ⟨by rw [List.length_append, hlen]; rfl, fun i b hb hon => ?_⟩
    by_cases hi : i < n
    · rw [List.getElem?_append_left (by omega)] at hb
      exact hlit i b hb hon
    · -- the tick at the end
      rw [List.getElem?_append_right (by omega), hlen, List.getElem?_singleton] at hb
      split at hb
      · next hzero =>
        cases hb
        rw [lit_shippedByte] at hon
        obtain ⟨hgate, hfire⟩ := hfires hon
        refine ⟨hgate, ?_⟩
        rw [show i = n by omega, ← ticks_stateAt gate n (Nat.le_refl _), ← ticks_shipped gate n g]
        exact (stateAt_fire _ _ _ _).trans hfire
      · cases hb

/-- **The loop is a walk.** It ends when the chunk is full or nothing is due, and what it has built
until then are so many ticks of one record. -/
theorem buildTicks_ticks (gate : Bool) (due : Nat) (streaming : Bool) (fuel : Nat) (g : Gf) :
    ∃ n, buildTicks gate due streaming fuel g [] =
      (ticks gate n g, (List.range n).flatMap fun i => tickBytes gate i g) := by
  have hloop := buildTicks_induct gate due streaming
    (P := fun r chunk => ∃ n, (r, chunk) = (ticks gate n g, (List.range n).flatMap fun i => tickBytes gate i g))
    ?_ fuel g [] ⟨0, rfl⟩
  · exact hloop
  · rintro r chunk ⟨n, hwalk⟩ -
    obtain ⟨rfl, rfl⟩ := Prod.mk.injEq .. ▸ hwalk
    refine ⟨n + 1, ?_⟩
    rw [ticks_succ, List.range_succ, List.flatMap_append]
    simp [tickBytes]

/-- The step `e` of the shipper builds tick `i`, and leaves the record `g` behind it. -/
inductive Builds (e : Env) (s : State) (i : Nat) : Gf → Prop where
  | intro {p : Pass} {u : State} {n : Nat} (hround : RoundAt e s p u)
      (hloop : shipStep e s = shipLoop p u.gf.streaming u) (hidx : u.gf.shipped + n = i)
      (hbuilt : i < (shipStep e s).gf.shipped) : Builds e s i (ticks p.gate (n + 1) u.gf)

end Glowforge.Stream
