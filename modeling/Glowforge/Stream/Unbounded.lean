import Glowforge.Stream.Restate
import Mathlib.Data.List.TakeWhile

/-!
# Glowforge — the transition queue without its bound

The queue holds `levN` transitions, and three writers meet a full one: a laser call merges into the
newest, the end of a cycle clears the newest's fire, and a wakeup drops its assertion. Beside the stream
runs the queue that a memory without bound would hold:

* **`Unbounded`** — its transitions, the state that the cursor has in force of them, and the index of the
  last one recorded; `Unbounded.record` extends it call by call and tick by tick.
* **`Follows`** — the bounded queue lights nothing that the other leaves dark; **`Degrades`** — and it
  agrees with it from the last record on.
* **`Follows.puts`**, **`Follows.drops`** — a transition that both take, or only the unbounded queue,
  leads to agreement; **`Degrades.advance`** — the cursor's way on.
-/

namespace Glowforge.Stream

open Timeline (InOrder Puts)

/-! ## The unbounded queue

The same calls over a queue with no bound, and the cursor's walk over it. -/

structure Unbounded where
  lev : List LaserEv := []
  cur : UInt8 × Bool := (0, false)
  -- The index of the last transition recorded.
  newest : Nat := 0
deriving DecidableEq

namespace Unbounded

/-- The queue with one transition more. -/
def push (u : Unbounded) (e : LaserEv) : Unbounded := { u with lev := u.lev ++ [e], newest := e.idx }

/-- The newest transition `t` rewritten to `e`, of the same index. -/
def rewrite (u : Unbounded) (e : LaserEv) : Unbounded :=
  { u with lev := u.lev.dropLast ++ [e], newest := e.idx }

/-- `laser_event_locked`: one transition per tick. -/
def put (u : Unbounded) (idx : Nat) (power : UInt8) (fire : Bool) : Unbounded :=
  match u.lev.getLast? with
  | some e => if e.idx = idx then u.rewrite ⟨idx, power, fire⟩ else u.push ⟨idx, power, fire⟩
  | none => u.push ⟨idx, power, fire⟩

/-- The laser-off of `gf_stream_go_idle`. -/
def goIdle (g : Gf) (u : Unbounded) : Unbounded :=
  if u.cur.2 ∨ u.lev ≠ [] then
    match u.lev.getLast? with
    | some t =>
      if t.idx ≥ cycleEnd g then u.rewrite { t with fire := false } else u.push ⟨cycleEnd g, t.power, false⟩
    | none => u.push ⟨cycleEnd g, u.cur.1, false⟩
  else u

/-- The index space that a wakeup begins. -/
def begins (now : Nat) (g : Gf) (u : Unbounded) : Unbounded :=
  if g.kernelRunning then
    if dueIndex now g > g.produced then { u with cur := (u.cur.1, false) } else u
  else { lev := [], cur := (u.cur.1, false), newest := 0 }

/-- The assertion of `gf_stream_wakeup`. -/
def asserts (base : Nat) (want : UInt8 × Bool) (u : Unbounded) : Unbounded :=
  if want ≠ u.cur then u.push ⟨base, want.1, want.2⟩ else u

/-- Every queued fire-on and the one in force cleared. -/
def clear (u : Unbounded) : Unbounded :=
  { u with lev := u.lev.map fun e => { e with fire := false }, cur := (u.cur.1, false) }

/-- The cursor goes from `lo` to `hi`. -/
def advance (lo hi : Nat) (u : Unbounded) : Unbounded :=
  if hi ≤ lo then u
  else { u with lev := u.lev.dropWhile (·.idx ≤ hi - 1), cur := stateAt u.lev u.cur (hi - 1) }

/-- Behind a fall that the pass samples. -/
def sampled (s : State) (u : Unbounded) : Unbounded := if samples falls s then u.clear else u

/-- A step of the shipper: the sample, the end of a stream, the ticks, and the dark pad of a fault. -/
def ship (e : Env) (s : State) (u : Unbounded) : Unbounded :=
  match s.pc with
  | .sampled _ =>
    if !s.gf.streaming && s.gf.produced - s.gf.shipped == 0 then
      if s.gf.kernelRunning && s.gf.lastLit then { u.sampled s with cur := ((u.sampled s).cur.1, false) }
      else u.sampled s
    else (u.sampled s).advance s.gf.shipped (shipStep e s).gf.shipped
  | .wrote _ _ _ => u.advance s.gf.shipped (shipStep e s).gf.shipped
  | .lock => if s.gf.failed && s.gf.lastLit then { u with cur := (u.cur.1, false) } else u
  | _ => u

/-- A switch of the dose model. -/
def switches (p m : UInt32) (g : Gf) : Bool :=
  (g.dithPeriod == 0) != ((gfStreamLaserModel p m g).dithPeriod == 0)

/-- The history beside the stream. -/
def record (s : State) (l : Label) (u : Unbounded) : Unbounded :=
  match l with
  | .locked (.laser power fire) _ =>
    if recordsNow s then u.put (recordIndex s.gf) (power &&& 0x7f) (mayFire s fire) else u
  | .locked (.jog on) _ =>
    if recordsNow s then u.put (recordIndex s.gf) s.gf.wantPower (s.gf.wantFire && s.laserArmed && !on) else u
  | .locked .wakeup now =>
    if s.gf.streaming then u else (u.begins now s.gf).asserts (wakeupRecord now s).base (wanted s)
  | .goIdle _ _ _ => if s.gf.streaming then u.goIdle s.gf else u
  | .laserModel p m => if switches p m s.gf then { u with cur := (0, u.cur.2) } else u
  | .reset _ =>
    if resetEnds s.gf || s.gf.failed then { lev := [], cur := (u.cur.1, false), newest := 0 } else u
  | .proto => if s.proto.head? = some .resumeSwap then {} else u
  | .ship e => u.ship e s
  | _ => u

end Unbounded

/-! ## The relation

How the bounded queue stands to the other: it lights no more, and from the last record on it agrees. -/

/-- The bounded queue lights no tick more, seen from the cursor `lo`. -/
structure Follows (lev : List LaserEv) (cur : UInt8 × Bool) (lo : Nat) (u : Unbounded) : Prop where
  order : InOrder LaserEv.idx lev
  orderU : InOrder LaserEv.idx u.lev
  ahead : ∀ e ∈ lev, e.idx ≤ max u.newest lo
  aheadU : ∀ e ∈ u.lev, e.idx ≤ max u.newest lo
  newest : u.newest ≤ lo ∨ ∃ e ∈ u.lev, e.idx = u.newest
  empty : u.lev = [] → lev = []
  -- a lit transition of the bounded queue lies where the unbounded one has one
  lit : ∀ e ∈ lev, e.fire = true → ∃ d ∈ u.lev, d.idx = e.idx
  dark : ∀ i, lo ≤ i → (stateAt lev cur i).2 = true → (stateAt u.lev u.cur i).2 = true

/-- **The bounded queue degrades** the unbounded one: behind the last record the state is the same, too. -/
structure Degrades (lev : List LaserEv) (cur : UInt8 × Bool) (lo : Nat) (u : Unbounded) : Prop
    extends Follows lev cur lo u where
  final : ∀ i, lo ≤ i → u.newest ≤ i → stateAt lev cur i = stateAt u.lev u.cur i

variable {lev lev' : List LaserEv} {cur : UInt8 × Bool} {lo : Nat} {u : Unbounded}

/-- A queue in order degrades itself. -/
theorem Degrades.of_inOrder {t : LaserEv} (horder : InOrder LaserEv.idx lev) (hlast : lev.getLast? = some t) :
    Degrades lev cur lo ⟨lev, cur, t.idx⟩ := by
  have hle : ∀ e ∈ lev, e.idx ≤ max t.idx lo :=
    fun e he => Nat.le_trans (horder.le_last hlast e he) (Nat.le_max_left _ _)
  exact
    { order := horder
      orderU := horder
      ahead := hle
      aheadU := hle
      newest := .inr ⟨t, List.mem_of_getLast? hlast, rfl⟩
      empty := id
      lit := fun e he _ => ⟨e, he, rfl⟩
      dark := fun _ _ => id
      final := fun _ _ _ => rfl }

/-- **Both queues take a transition**, the bounded one at its index or ahead of it: what it lights in
between was lit before. -/
theorem Follows.puts (h : Follows lev cur lo u) {e d : LaserEv} {levU : List LaserEv} (hb : Puts LaserEv.idx e lev lev')
    (hu : Puts LaserEv.idx d u.lev levU) (hle : ∀ x ∈ lev, x.idx ≤ e.idx) (hleU : ∀ x ∈ u.lev, x.idx ≤ d.idx)
    (hidx : e.idx ≤ d.idx) (hstate : e.state = d.state)
    (hfire : e.fire = true → e.idx = d.idx ∨ ∀ i, lo ≤ i → e.idx ≤ i → (stateAt lev cur i).2 = true)
    (hmatch : e.fire = true → ∃ x ∈ levU, x.idx = e.idx) : Degrades lev' cur lo ⟨levU, u.cur, d.idx⟩ := by
  have hall : ∀ x ∈ lev', x.idx ≤ e.idx := by
    intro x hx
    rcases hb.old_or_new hx with hold | rfl
    · exact hle x hold
    · exact Nat.le_refl _
  have hallU : ∀ x ∈ levU, x.idx ≤ d.idx := by
    intro x hx
    rcases hu.old_or_new hx with hold | rfl
    · exact hleU x hold
    · exact Nat.le_refl _
  refine ⟨⟨?_, ?_, ?_, ?_, ?_, ?_, ?_, ?_⟩, ?_⟩
  · exact hb.inOrder h.order hle
  · exact hu.inOrder h.orderU hleU
  · exact fun x hx => Nat.le_trans (Nat.le_trans (hall x hx) hidx) (Nat.le_max_left _ _)
  · exact fun x hx => Nat.le_trans (hallU x hx) (Nat.le_max_left _ _)
  · exact .inr ⟨d, hu.mem, rfl⟩
  · intro hnil
    have hmem := hu.mem
    rw [show levU = [] from hnil] at hmem
    cases hmem
  · intro x hx hlit
    rcases hb.old_or_new hx with hold | rfl
    · obtain ⟨y, hy, hyx⟩ := h.lit x hold hlit
      obtain ⟨z, hz, hzy⟩ := hu.keeps hy
      exact ⟨z, hz, hzy.trans hyx⟩
    · exact hmatch hlit
  · intro i hi hlit
    change (stateAt levU u.cur i).2 = true
    rw [stateAt, hb.inForce hle] at hlit
    rw [stateAt, hu.inForce hleU]
    by_cases hd : d.idx ≤ i
    · rw [if_pos (by omega)] at hlit
      rw [if_pos hd]
      exact (congrArg Prod.snd hstate).symm.trans hlit
    · rw [if_neg hd]
      refine h.dark i hi ?_
      split at hlit
      · next he =>
        -- between the two indices the new transition lights nothing
        rcases hfire hlit with heq | hbefore
        · omega
        · exact hbefore i hi he
      · exact hlit
  · intro i hi hnew
    change stateAt lev' cur i = stateAt levU u.cur i
    rw [stateAt, stateAt, hb.inForce hle, hu.inForce hleU, if_pos (show d.idx ≤ i from hnew),
      if_pos (by have : d.idx ≤ i := hnew; omega)]
    exact hstate

/-- **Only the unbounded queue takes a transition**, of a state that the bounded one has in force there. -/
theorem Follows.drops (h : Follows lev cur lo u) {d : LaserEv} {levU : List LaserEv}
    (hu : Puts LaserEv.idx d u.lev levU) (hleU : ∀ x ∈ u.lev, x.idx ≤ d.idx)
    (hahead : ∀ e ∈ lev, e.idx ≤ max d.idx lo)
    (hstate : ∀ i, lo ≤ i → d.idx ≤ i → stateAt lev cur i = d.state) : Degrades lev cur lo ⟨levU, u.cur, d.idx⟩ := by
  refine ⟨⟨?_, ?_, ?_, ?_, ?_, ?_, ?_, ?_⟩, ?_⟩
  · exact h.order
  · exact hu.inOrder h.orderU hleU
  · exact hahead
  · intro x hx
    rcases hu.old_or_new hx with hold | rfl
    · exact Nat.le_trans (hleU x hold) (Nat.le_max_left _ _)
    · exact Nat.le_max_left _ _
  · exact .inr ⟨d, hu.mem, rfl⟩
  · intro hnil
    have hmem := hu.mem
    rw [show levU = [] from hnil] at hmem
    cases hmem
  · intro x hx hlit
    obtain ⟨y, hy, hyx⟩ := h.lit x hx hlit
    obtain ⟨z, hz, hzy⟩ := hu.keeps hy
    exact ⟨z, hz, hzy.trans hyx⟩
  · intro i hi hlit
    change (stateAt levU u.cur i).2 = true
    rw [stateAt, hu.inForce hleU]
    by_cases hd : d.idx ≤ i
    · rw [if_pos hd]
      exact (congrArg Prod.snd (hstate i hi hd)).symm.trans hlit
    · rw [if_neg hd]
      exact h.dark i hi hlit
  · intro i hi hnew
    change stateAt lev cur i = stateAt levU u.cur i
    rw [hstate i hi hnew, stateAt, hu.inForce hleU, if_pos (show d.idx ≤ i from hnew)]

namespace Degrades

/-- **The cursor goes on.** -/
theorem advance (h : Degrades lev cur lo u) {hi : Nat} (hlt : lo < hi) :
    Degrades (lev.dropWhile (·.idx ≤ hi - 1)) (stateAt lev cur (hi - 1)) hi (u.advance lo hi) := by
  have hgoes : u.advance lo hi =
      { u with lev := u.lev.dropWhile (·.idx ≤ hi - 1), cur := stateAt u.lev u.cur (hi - 1) } :=
    if_neg (Nat.not_le.mpr hlt)
  rw [hgoes]
  have hsub : ∀ {q : List LaserEv} {e : LaserEv}, e ∈ q.dropWhile (·.idx ≤ hi - 1) → e ∈ q :=
    fun he => (List.dropWhile_suffix _).subset he
  have hstate : ∀ i, hi ≤ i → stateAt (lev.dropWhile (·.idx ≤ hi - 1)) (stateAt lev cur (hi - 1)) i =
      stateAt lev cur i := fun i hi => Timeline.inForce_dropWhile (by omega)
  have hstateU : ∀ i, hi ≤ i → stateAt (u.lev.dropWhile (·.idx ≤ hi - 1)) (stateAt u.lev u.cur (hi - 1)) i =
      stateAt u.lev u.cur i := fun i hi => Timeline.inForce_dropWhile (by omega)
  refine ⟨⟨?_, ?_, ?_, ?_, ?_, ?_, ?_, ?_⟩, ?_⟩
  · exact h.order.sublist (List.dropWhile_sublist _)
  · exact h.orderU.sublist (List.dropWhile_sublist _)
  · intro e he
    have := h.ahead e (hsub he)
    change e.idx ≤ max u.newest hi
    omega
  · intro e he
    have := h.aheadU e (hsub he)
    change e.idx ≤ max u.newest hi
    omega
  · rcases h.newest with hle | ⟨e, he, heq⟩
    · exact .inl (by change u.newest ≤ hi; omega)
    · by_cases hpast : e.idx ≤ hi - 1
      · exact .inl (by change u.newest ≤ hi; omega)
      · exact .inr ⟨e, Timeline.mem_dropWhile_of_lt he (by omega), heq⟩
  · -- where the cursor has taken all of the unbounded queue, it has passed the last record
    intro hnil
    change u.lev.dropWhile (·.idx ≤ hi - 1) = [] at hnil
    refine List.dropWhile_eq_nil_iff.mpr fun e he => decide_eq_true ?_
    have hahead := h.ahead e he
    rcases h.newest with hle | ⟨d, hd, heq⟩
    · omega
    · have hpassed := List.dropWhile_eq_nil_iff.mp hnil d hd
      simp only [decide_eq_true_eq] at hpassed
      omega
  · intro e he hlit
    obtain ⟨d, hd, heq⟩ := h.lit e (hsub he) hlit
    have hahead := h.order.ahead e he
    exact ⟨d, Timeline.mem_dropWhile_of_lt hd (by omega), heq⟩
  · intro i hi hlit
    rw [hstate i hi] at hlit
    rw [hstateU i hi]
    exact h.dark i (by omega) hlit
  · intro i hi hnew
    rw [hstate i hi, hstateU i hi]
    exact h.final i (by omega) hnew

/-- The same seen from a later index. -/
theorem later (h : Degrades lev cur lo u) {hi : Nat} (hle : lo ≤ hi) : Degrades lev cur hi u where
  order := h.order
  orderU := h.orderU
  ahead e he := Nat.le_trans (h.ahead e he) (max_le_max (Nat.le_refl _) hle)
  aheadU e he := Nat.le_trans (h.aheadU e he) (max_le_max (Nat.le_refl _) hle)
  newest := h.newest.imp_left fun hn => Nat.le_trans hn hle
  empty := h.empty
  lit := h.lit
  dark i hi := h.dark i (Nat.le_trans hle hi)
  final i hi := h.final i (Nat.le_trans hle hi)

/-- A cleared queue keeps its levels. -/
theorem stateAt_clear (lev : List LaserEv) (cur : UInt8 × Bool) (i : Nat) :
    stateAt (lev.map fun e => { e with fire := false }) (cur.1, false) i = ((stateAt lev cur i).1, false) := by
  induction lev generalizing cur with
  | nil => rfl
  | cons e lev ih =>
    simp only [List.map_cons, stateAt, Timeline.inForce]
    split
    · exact ih e.state
    · rfl

/-- **A sampled fall** clears both. -/
theorem clear (h : Degrades lev cur lo u) :
    Degrades (lev.map fun e => { e with fire := false }) (cur.1, false) lo u.clear := by
  have horder : ∀ {q : List LaserEv}, InOrder LaserEv.idx q →
      InOrder LaserEv.idx (q.map fun e => { e with fire := false }) := by
    intro q hq
    exact List.pairwise_map.mpr hq
  refine ⟨⟨?_, ?_, ?_, ?_, ?_, ?_, ?_, ?_⟩, ?_⟩
  · exact horder h.order
  · exact horder h.orderU
  · intro e he
    obtain ⟨d, hd, rfl⟩ := List.mem_map.mp he
    exact h.ahead d hd
  · intro e he
    obtain ⟨d, hd, rfl⟩ := List.mem_map.mp he
    exact h.aheadU d hd
  · rcases h.newest with hle | ⟨e, he, heq⟩
    · exact .inl hle
    · exact .inr ⟨_, List.mem_map.mpr ⟨e, he, rfl⟩, heq⟩
  · intro hnil
    rw [h.empty (List.map_eq_nil_iff.mp hnil)]
    rfl
  · intro e he hlit
    obtain ⟨d, -, rfl⟩ := List.mem_map.mp he
    cases hlit
  · intro i hi hlit
    rw [stateAt_clear] at hlit
    cases hlit
  · intro i hi hnew
    change _ = stateAt (u.lev.map _) (u.cur.1, false) i
    rw [stateAt_clear, stateAt_clear, h.final i hi hnew]

/-- Where the state in force is dark, so it is with the fire at the cursor off. -/
theorem stateAt_unlit {lev : List LaserEv} {cur : UInt8 × Bool} {i : Nat} (h : (stateAt lev cur i).2 = false) :
    stateAt lev (cur.1, false) i = stateAt lev cur i := by
  cases lev with
  | nil => exact Prod.ext rfl h.symm
  | cons e lev =>
    by_cases he : e.idx ≤ i
    · exact Timeline.inForce_cons_passed he
    · rw [stateAt, Timeline.inForce_cons_ahead (Nat.lt_of_not_le he)] at h ⊢
      rw [stateAt, Timeline.inForce_cons_ahead (Nat.lt_of_not_le he)]
      exact Prod.ext rfl h.symm

/-- Behind a transition that has been passed nothing depends on the state that the reader began with. -/
theorem stateAt_passed {lev : List LaserEv} {i : Nat} (h : InOrder LaserEv.idx lev) {e : LaserEv} (he : e ∈ lev)
    (hle : e.idx ≤ i) (cur cur' : UInt8 × Bool) : stateAt lev cur i = stateAt lev cur' i := by
  cases lev with
  | nil => cases he
  | cons d lev =>
    have hd : d.idx ≤ i := by
      rcases List.mem_cons.mp he with rfl | hmem
      · exact hle
      · exact Nat.le_trans ((List.pairwise_cons.mp h).1 e hmem) hle
    exact Timeline.inForce_cons_passed hd

/-- **The fire at the cursor goes off** in both, where the last record leaves it off. -/
theorem unlight (h : Degrades lev cur lo u) (hends : ∀ i, lo ≤ i → u.newest ≤ i → (stateAt lev cur i).2 = false) :
    Degrades lev (cur.1, false) lo { u with cur := (u.cur.1, false) } := by
  refine ⟨⟨h.order, h.orderU, h.ahead, h.aheadU, h.newest, h.empty, h.lit, ?_⟩, ?_⟩
  · intro i hi hlit
    -- a lit transition has been passed, and so has the unbounded queue's of the same index
    have hcases : stateAt lev (cur.1, false) i = (cur.1, false) ∨
        ∃ e ∈ lev, e.idx ≤ i ∧ stateAt lev (cur.1, false) i = e.state := Timeline.inForce_cases
    rcases hcases with hcur | ⟨e, he, hei, hval⟩
    · rw [hcur] at hlit
      cases hlit
    · have hon : e.fire = true := by
        rw [hval] at hlit
        exact hlit
      obtain ⟨d, hd, heq⟩ := h.lit e he hon
      rw [stateAt_passed h.order he hei _ cur] at hlit
      change (stateAt u.lev (u.cur.1, false) i).2 = true
      rw [stateAt_passed h.orderU hd (by omega) _ u.cur]
      exact h.dark i hi hlit
  · intro i hi hnew
    have hdark := hends i hi hnew
    have hsame := h.final i hi hnew
    change _ = stateAt u.lev (u.cur.1, false) i
    rw [stateAt_unlit hdark, stateAt_unlit (hsame ▸ hdark)]
    exact hsame

end Degrades

end Glowforge.Stream
