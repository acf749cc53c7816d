import Glowforge.Stream.Twin
import Glowforge.Stream.Unbounded

/-!
# Glowforge — a full transition queue

The three writers of the transition queue beside those of the unbounded one. A transition that a full
queue takes goes into an older entry, and moves to that entry's index:

* **`mergeSafe`**, **`idleSafe`**, **`assertSafe`** — when that lights nothing, and loses nothing of what
  the stream goes on with.
* **`Alongside`** — the invariant: the two queues are the same, the bounded one degrades the other, the
  stream has failed, or nothing is left of it.
* **`Alongside.record`**, **`Alongside.goIdle`**, **`Alongside.wakeup`** — it is kept by each of the three.
-/

namespace Glowforge.Stream

open Timeline (InOrder Puts)

/-! ## What the writers do

Each writer of the queue as one transition put, in the bounded queue and in the other. -/

/-- The newest transition of a full queue, where a record at `idx` is merged into it. -/
def mergedInto (g : Gf) (idx : Nat) : Option LaserEv :=
  match g.lev.getLast? with
  | some t => if t.idx = idx then none else if g.lev.length ≥ levN then some t else none
  | none => none

theorem rewrite_puts {lev : List LaserEv} {t e : LaserEv} (hlast : lev.getLast? = some t) (hidx : t.idx = e.idx) :
    Puts LaserEv.idx e lev (lev.dropLast ++ [e]) := by
  have hlev : lev.dropLast ++ [t] = lev := List.dropLast_append_getLast? t hlast
  have hputs : Puts LaserEv.idx e (lev.dropLast ++ [t]) (lev.dropLast ++ [e]) := .replace _ hidx
  rwa [hlev] at hputs

theorem levRecord_puts {g : Gf} {idx : Nat} (power : UInt8) (fire : Bool) (h : mergedInto g idx = none) :
    Puts LaserEv.idx ⟨idx, power, fire⟩ g.lev (levRecord idx power fire g).lev := by
  unfold mergedInto at h
  unfold levRecord
  cases hlast : g.lev.getLast? with
  | none =>
    rw [List.getLast?_eq_none_iff.mp hlast]
    exact .append []
  | some t =>
    rw [hlast] at h
    dsimp only at h ⊢
    by_cases hidx : t.idx = idx
    · rw [if_pos hidx, ← hidx]
      exact rewrite_puts hlast rfl
    · rw [if_neg hidx] at h ⊢
      by_cases hfull : g.lev.length ≥ levN
      · rw [if_pos hfull] at h
        cases h
      · rw [if_neg hfull]
        exact .append _

theorem levRecord_merges {g : Gf} {idx : Nat} {t : LaserEv} (power : UInt8) (fire : Bool)
    (h : mergedInto g idx = some t) :
    g.lev.getLast? = some t ∧
      Puts LaserEv.idx { t with power := power, fire := fire } g.lev (levRecord idx power fire g).lev := by
  unfold mergedInto at h
  unfold levRecord
  cases hlast : g.lev.getLast? with
  | none =>
    rw [hlast] at h
    cases h
  | some d =>
    rw [hlast] at h
    dsimp only at h ⊢
    by_cases hidx : d.idx = idx
    · rw [if_pos hidx] at h
      cases h
    · rw [if_neg hidx] at h ⊢
      by_cases hfull : g.lev.length ≥ levN
      · rw [if_pos hfull] at h ⊢
        cases h
        exact ⟨rfl, rewrite_puts hlast rfl⟩
      · rw [if_neg hfull] at h
        cases h

namespace Unbounded

theorem put_puts (u : Unbounded) (idx : Nat) (power : UInt8) (fire : Bool) :
    Puts LaserEv.idx ⟨idx, power, fire⟩ u.lev (u.put idx power fire).lev := by
  unfold put
  split
  · next t hlast =>
    split
    · next hidx => exact rewrite_puts hlast hidx
    · exact .append _
  · exact .append _

theorem put_eq (u : Unbounded) (idx : Nat) (power : UInt8) (fire : Bool) :
    u.put idx power fire = ⟨(u.put idx power fire).lev, u.cur, idx⟩ := by
  unfold put
  split
  · split <;> rfl
  · rfl

/-- Where the bounded queue merges nothing, the two stay the same. -/
theorem put_same {u : Unbounded} {g : Gf} {idx : Nat} (power : UInt8) (fire : Bool) (hlev : u.lev = g.lev)
    (h : mergedInto g idx = none) : (u.put idx power fire).lev = (levRecord idx power fire g).lev := by
  unfold mergedInto at h
  unfold put levRecord
  rw [hlev]
  cases hlast : g.lev.getLast? with
  | none =>
    change u.lev ++ [_] = [_]
    rw [hlev, List.getLast?_eq_none_iff.mp hlast]
    rfl
  | some t =>
    rw [hlast] at h
    dsimp only at h ⊢
    by_cases hidx : t.idx = idx
    · rw [if_pos hidx, if_pos hidx, ← hidx]
      change u.lev.dropLast ++ [_] = g.lev.dropLast ++ [_]
      rw [hlev]
    · rw [if_neg hidx] at h ⊢
      rw [if_neg hidx]
      by_cases hfull : g.lev.length ≥ levN
      · rw [if_pos hfull] at h
        cases h
      · rw [if_neg hfull]
        change u.lev ++ [_] = g.lev ++ [_]
        rw [hlev]

end Unbounded

/-- The transition of a cycle's end at `c`: the newest one cleared, where that is at the end already or the
queue is full, and a transition of its own otherwise. -/
def laserOff (c : Nat) (full : Bool) (lev : List LaserEv) (power : UInt8) : LaserEv :=
  match lev.getLast? with
  | some t => if c ≤ t.idx ∨ full then { t with fire := false } else ⟨c, t.power, false⟩
  | none => ⟨c, power, false⟩

theorem laserOff_fire (c : Nat) (full : Bool) (lev : List LaserEv) (power : UInt8) :
    (laserOff c full lev power).fire = false := by
  unfold laserOff
  split
  · split <;> rfl
  · rfl

/-- It lies behind every transition of a queue in order. -/
theorem laserOff_le (c : Nat) (full : Bool) (power : UInt8) {lev : List LaserEv} (h : InOrder LaserEv.idx lev) :
    ∀ e ∈ lev, e.idx ≤ (laserOff c full lev power).idx := by
  intro e he
  unfold laserOff
  split
  · next t hlast =>
    have hle := h.le_last hlast e he
    split
    · exact hle
    · next hnot =>
      simp only [not_or, Nat.not_le] at hnot
      exact Nat.le_trans hle (Nat.le_of_lt hnot.1)
  · next hnone =>
    rw [List.getLast?_eq_none_iff.mp hnone] at he
    cases he

/-- It keeps the level that the queue ends with. -/
theorem laserOff_power {c : Nat} {full : Bool} {lev : List LaserEv} {cur : UInt8 × Bool} {i : Nat}
    (h : ∀ e ∈ lev, e.idx ≤ i) : (laserOff c full lev cur.1).power = (stateAt lev cur i).1 := by
  rw [stateAt, Timeline.inForce_eq_final h]
  unfold laserOff
  cases hlast : lev.getLast? with
  | none =>
    rw [List.getLast?_eq_none_iff.mp hlast]
    rfl
  | some t =>
    obtain ⟨q, rfl⟩ := List.getLast?_eq_some_iff.mp hlast
    rw [Timeline.final_concat]
    dsimp only
    split <;> rfl

theorem goIdleDark_puts {g : Gf} (h : g.curFire = true ∨ g.lev ≠ []) :
    Puts LaserEv.idx (laserOff (cycleEnd g) (decide (levN ≤ g.lev.length)) g.lev g.curPower) g.lev
      (goIdleDark g).lev := by
  have hidx : (if g.produced > g.shipped then g.produced else g.shipped) = cycleEnd g := by
    unfold cycleEnd
    split <;> omega
  simp only [goIdleDark, h, if_true, hidx, laserOff, decide_eq_true_eq, ge_iff_le]
  cases hlast : g.lev.getLast? with
  | none =>
    rw [List.getLast?_eq_none_iff.mp hlast]
    exact .append []
  | some t =>
    dsimp only
    split
    · exact rewrite_puts hlast rfl
    · exact .append _

namespace Unbounded

theorem goIdle_puts {u : Unbounded} {g : Gf} (h : u.cur.2 = true ∨ u.lev ≠ []) :
    Puts LaserEv.idx (laserOff (cycleEnd g) false u.lev u.cur.1) u.lev (u.goIdle g).lev ∧
      u.goIdle g = ⟨(u.goIdle g).lev, u.cur, (laserOff (cycleEnd g) false u.lev u.cur.1).idx⟩ := by
  simp only [goIdle, h, if_true, laserOff, Bool.false_eq_true, or_false, ge_iff_le]
  cases hlast : u.lev.getLast? with
  | none =>
    refine ⟨?_, rfl⟩
    exact .append _
  | some t =>
    dsimp only
    by_cases hle : cycleEnd g ≤ t.idx
    · rw [if_pos hle, if_pos hle]
      exact ⟨rewrite_puts hlast rfl, rfl⟩
    · rw [if_neg hle, if_neg hle]
      exact ⟨.append _, rfl⟩

end Unbounded

/-- Behind the last record nothing is lit. -/
def EndsDark (lev : List LaserEv) (cur : UInt8 × Bool) (lo newest : Nat) : Prop :=
  ∀ i, lo ≤ i → newest ≤ i → (stateAt lev cur i).2 = false

/-! ## The end of a cycle

The laser-off that ends a cycle, which coalesces with what is queued beyond it. -/

theorem laserOff_idx_le {c m : Nat} {full : Bool} {lev : List LaserEv} {power : UInt8} (hc : c ≤ m)
    (hle : ∀ e ∈ lev, e.idx ≤ m) : (laserOff c full lev power).idx ≤ m := by
  unfold laserOff
  split
  · next t hlast =>
    split
    · exact hle t (List.mem_of_getLast? hlast)
    · exact hc
  · exact hc

theorem le_laserOff_idx (c : Nat) (lev : List LaserEv) (power : UInt8) :
    c ≤ (laserOff c false lev power).idx := by
  unfold laserOff
  split
  · split
    · next hpast => exact hpast.resolve_right (by decide)
    · exact Nat.le_refl _
  · exact Nat.le_refl _

namespace Degrades

variable {g : Gf} {u : Unbounded}

/-- Every transition lies up to the last record or the cursor, where the two agree. -/
theorem agree (h : Degrades g.lev g.state g.shipped u) :
    g.stateAt (max u.newest g.shipped) = stateAt u.lev u.cur (max u.newest g.shipped) :=
  h.final _ (Nat.le_max_right _ _) (Nat.le_max_left _ _)

/-- Where the bounded queue takes a laser-off, so does the unbounded one. -/
theorem goIdle_acts (h : Degrades g.lev g.state g.shipped u) (hacts : g.curFire = true ∨ g.lev ≠ []) :
    u.cur.2 = true ∨ u.lev ≠ [] := by
  by_contra hnot
  simp only [not_or, Bool.not_eq_true, ne_eq, not_not] at hnot
  have hnil := h.empty hnot.2
  have hlit : g.curFire = true := hacts.resolve_right fun hne => hne hnil
  have hdark := h.dark g.shipped (Nat.le_refl _) (by rw [hnil]; exact hlit)
  rw [hnot.2] at hdark
  exact absurd (hnot.1.symm.trans hdark) (by decide)

/-- **The end of a cycle**: a full queue loses its fire from the newest transition on. -/
theorem goIdle (h : Degrades g.lev g.state g.shipped u) :
    Degrades (goIdleDark g).lev g.state g.shipped (u.goIdle g) ∧
      EndsDark (goIdleDark g).lev g.state g.shipped (u.goIdle g).newest := by
  have hend : g.shipped ≤ cycleEnd g := Nat.le_max_right _ _
  have hpowerU : (laserOff (cycleEnd g) false u.lev u.cur.1).power =
      (g.stateAt (max u.newest g.shipped)).1 := (laserOff_power h.aheadU).trans (congrArg Prod.fst h.agree).symm
  by_cases hacts : g.curFire = true ∨ g.lev ≠ []
  · obtain ⟨hputsU, hgoes⟩ := Unbounded.goIdle_puts (g := g) (h.goIdle_acts hacts)
    have hputs := goIdleDark_puts hacts
    have hpower : (laserOff (cycleEnd g) (decide (levN ≤ g.lev.length)) g.lev g.curPower).power =
        (g.stateAt (max u.newest g.shipped)).1 := @laserOff_power (cycleEnd g) _ g.lev g.state _ h.ahead
    have hfire := laserOff_fire (cycleEnd g) (decide (levN ≤ g.lev.length)) g.lev g.curPower
    have hfireU := laserOff_fire (cycleEnd g) false u.lev u.cur.1
    -- the newest of a full queue lies ahead of the cycle's end
    have hidx : (laserOff (cycleEnd g) (decide (levN ≤ g.lev.length)) g.lev g.curPower).idx ≤
        (laserOff (cycleEnd g) false u.lev u.cur.1).idx := by
      have hcycle := le_laserOff_idx (cycleEnd g) u.lev u.cur.1
      refine laserOff_idx_le hcycle fun e he => ?_
      have hahead := h.ahead e he
      rcases h.newest with hnew | ⟨d, hd, hnew⟩
      · omega
      · have hlast := laserOff_le (cycleEnd g) false u.cur.1 h.orderU d hd
        omega
    have hle := laserOff_le (cycleEnd g) (decide (levN ≤ g.lev.length)) g.curPower h.order
    rw [hgoes]
    constructor
    · refine h.puts hputs hputsU hle (laserOff_le _ _ _ h.orderU) hidx ?_ ?_ ?_
      · exact Prod.ext (hpower.trans hpowerU.symm) (hfire.trans hfireU.symm)
      · exact fun hlit => absurd (hfire.symm.trans hlit) (by decide)
      · exact fun hlit => absurd (hfire.symm.trans hlit) (by decide)
    · intro i hi hnew
      rw [stateAt, hputs.inForce hle, if_pos (Nat.le_trans hidx hnew)]
      exact hfire
  · simp only [not_or, Bool.not_eq_true, ne_eq, not_not] at hacts
    have hsame : goIdleDark g = g := by
      rw [goIdleDark, if_neg (by simp [hacts])]
    have hnil : ∀ i, stateAt g.lev g.state i = g.state := by
      rw [hacts.2]
      exact fun _ => rfl
    have hdark : ∀ n, EndsDark g.lev g.state g.shipped n := fun n i _ _ => (congrArg Prod.snd (hnil i)).trans hacts.1
    rw [hsame]
    by_cases hactsU : u.cur.2 = true ∨ u.lev ≠ []
    · obtain ⟨hputsU, hgoes⟩ := Unbounded.goIdle_puts (g := g) hactsU
      rw [hgoes]
      refine ⟨h.drops hputsU (laserOff_le _ _ _ h.orderU) (by rw [hacts.2]; rintro _ ⟨⟩)
          fun i _ _ => ?_, hdark _⟩
      rw [hnil]
      rw [Gf.stateAt, hnil] at hpowerU
      exact Prod.ext hpowerU.symm (hacts.1.trans (laserOff_fire _ _ _ _).symm)
    · have hstays : u.goIdle g = u := by rw [Unbounded.goIdle, if_neg hactsU]
      rw [hstays]
      exact ⟨h, hdark _⟩

end Degrades

/-! ## A call's transition

A call's transition in a full queue moves to an older entry's index; the condition says when that is
harmless. -/

/-- A merge lights nothing: the queue is in order up to the call, and fire joins fire. -/
def mergeSafe (g : Gf) (idx : Nat) (fire : Bool) : Prop :=
  ∀ t ∈ mergedInto g idx, InOrder LaserEv.idx g.lev ∧ t.idx ≤ idx ∧ (fire = true → t.fire = true)

instance (g : Gf) (idx : Nat) (fire : Bool) : Decidable (mergeSafe g idx fire) :=
  inferInstanceAs (Decidable (∀ t ∈ mergedInto g idx, _))

/-- Once the newest transition of a queue in order has been passed, it is in force. -/
theorem stateAt_last {lev : List LaserEv} {t : LaserEv} {i : Nat} (cur : UInt8 × Bool)
    (horder : InOrder LaserEv.idx lev) (hlast : lev.getLast? = some t) (hi : t.idx ≤ i) :
    stateAt lev cur i = t.state := by
  rw [stateAt, Timeline.inForce_eq_final fun e he => Nat.le_trans (horder.le_last hlast e he) hi]
  obtain ⟨q, rfl⟩ := List.getLast?_eq_some_iff.mp hlast
  exact Timeline.final_concat t

namespace Degrades

variable {g : Gf} {u : Unbounded}

/-- **A call's transition**, on its own or merged into the newest. -/
theorem record (h : Degrades g.lev g.state g.shipped u) {idx : Nat} (power : UInt8) {fire : Bool}
    (hidx : g.shipped ≤ idx) (hnew : u.newest ≤ idx) (hsafe : mergeSafe g idx fire) :
    Degrades (levRecord idx power fire g).lev g.state g.shipped (u.put idx power fire) := by
  have hle : ∀ e ∈ g.lev, e.idx ≤ idx := fun e he => Nat.le_trans (h.ahead e he) (max_le hnew hidx)
  have hleU : ∀ e ∈ u.lev, e.idx ≤ idx := fun e he => Nat.le_trans (h.aheadU e he) (max_le hnew hidx)
  have hputsU := u.put_puts idx power fire
  rw [u.put_eq]
  cases hmerge : mergedInto g idx with
  | none =>
    refine h.puts (levRecord_puts power fire hmerge) hputsU hle hleU (Nat.le_refl _) rfl ?_ ?_
    · exact fun _ => .inl rfl
    · exact fun _ => ⟨_, hputsU.mem, rfl⟩
  | some t =>
    obtain ⟨hlast, hputs⟩ := levRecord_merges power fire hmerge
    obtain ⟨-, -, hfire⟩ := hsafe t hmerge
    have hmem := List.mem_of_getLast? hlast
    refine h.puts hputs hputsU (fun e he => h.order.le_last hlast e he) hleU (hle t hmem) rfl ?_ ?_
    · intro hlit
      right
      intro i _ hi
      rw [stateAt_last _ h.order hlast hi]
      exact hfire hlit
    · intro hlit
      obtain ⟨d, hd, heq⟩ := h.lit t hmem (hfire hlit)
      obtain ⟨e, he, hkept⟩ := hputsU.keeps hd
      exact ⟨e, he, hkept.trans heq⟩

end Degrades

/-! ## The invariant

Four ways in which the two queues can stand to each other. -/

/-- The bounded queue beside the unbounded one: what can be said of the two in every state. -/
inductive Alongside (g : Gf) (u : Unbounded) : Prop where
  -- no tick ships any more until a reset
  | failed (hfailed : g.failed = true)
  -- nothing has been merged or dropped so far
  | same (hlev : u.lev = g.lev) (hcur : u.cur = g.state)
  | merged (hdegrades : Degrades g.lev g.state g.shipped u)
      (hlive : g.streaming = true → u.newest ≤ recordIndex g)
      (hends : g.streaming = false → EndsDark g.lev g.state g.shipped u.newest)
  -- a reset has left nothing
  | gone (hlev : g.lev = []) (hdark : g.curFire = false) (hlevU : u.lev = []) (hdarkU : u.cur.2 = false)
      (hidle : g.streaming = false) (hkernel : g.kernelRunning = false) (hover : g.produced ≤ g.shipped)

/-- What the record `r` keeps of `g` for the two queues. -/
structure Gf.Steady (g r : Gf) : Prop extends g.Holds r where
  streaming : r.streaming = g.streaming
  kernelRunning : r.kernelRunning = true → g.kernelRunning = true
  time : virtualIndex g ≤ virtualIndex r

namespace Alongside

variable {g r : Gf} {u : Unbounded}

theorem steady (h : Alongside g u) (hkept : g.Steady r) : Alongside r u := by
  cases h with
  | failed hfailed => exact .failed (hkept.failed hfailed)
  | same hlev hcur => exact .same (hlev.trans hkept.lev.symm) (hcur.trans hkept.state.symm)
  | merged hdegrades hlive hends =>
    rw [← hkept.lev, ← hkept.state, ← hkept.shipped] at hdegrades hends
    refine .merged hdegrades (fun hstream => ?_) fun hidle => hends (hkept.streaming.symm.trans hidle)
    have hnew := hlive (hkept.streaming.symm.trans hstream)
    have hvirtual := hkept.time
    have hshipped := hkept.shipped
    unfold recordIndex at hnew ⊢
    omega
  | gone hlev hdark hlevU hdarkU hidle hkernel hover =>
    obtain ⟨hidle', hproduced⟩ := hkept.ended hidle
    refine .gone (hkept.lev.trans hlev) ?_ hlevU hdarkU hidle' ?_ ?_
    · exact (congrArg Prod.snd hkept.state).trans hdark
    · exact Bool.eq_false_iff.mpr fun hon => absurd (hkernel.symm.trans (hkept.kernelRunning hon))
        (by decide)
    · rw [hproduced, hkept.shipped]
      exact hover

end Alongside

/-! ## The laser calls -/

namespace Unbounded

/-- The index of the last record does not matter to the next. -/
theorem put_congr {u v : Unbounded} (hlev : u.lev = v.lev) (hcur : u.cur = v.cur) (idx : Nat) (power : UInt8)
    (fire : Bool) : u.put idx power fire = v.put idx power fire := by
  simp only [put, push, rewrite, hlev, hcur]

theorem goIdle_congr {u v : Unbounded} (hlev : u.lev = v.lev) (hcur : u.cur = v.cur) (hne : v.lev ≠ []) (g : Gf) :
    u.goIdle g = v.goIdle g := by
  have hacts : v.cur.2 = true ∨ v.lev ≠ [] := .inr hne
  simp only [goIdle, push, rewrite, hlev, hcur, hacts, if_true]

end Unbounded

/-- A call that records writes one transition. -/
theorem laserEventLocked_records {power : UInt8} {fire : Bool} {s : State} (h : recordsNow s = true) :
    ({ s.gf with lev := (levRecord (recordIndex s.gf) power fire s.gf).lev } : Gf).Steady
      (laserEventLocked power fire s).gf := by
  simp only [recordsNow, Bool.and_eq_true, Bool.not_eq_true', Bool.and_eq_false_iff, decide_eq_false_iff_not] at h
  obtain ⟨hstream, hplace⟩ := h
  have hrecord : ∀ (idx : Nat) (g : Gf), levRecord idx power fire g = { g with
      lev := (levRecord idx power fire g).lev, levOverflowWarned := (levRecord idx power fire g).levOverflowWarned } := by
    intro idx g
    simp only [levRecord]
    split <;> (try split_ifs) <;> rfl
  have hlev : ∀ (idx : Nat) {g r : Gf}, r.lev = g.lev →
      (levRecord idx power fire r).lev = (levRecord idx power fire g).lev := by
    intro idx g r heq
    simp only [levRecord, heq]
    split <;> (try split_ifs) <;> rfl
  rw [laserEventLocked, if_pos hstream]
  by_cases hlate : virtualIndex s.gf < s.gf.shipped
  · have hclosed : s.laserArmed = false := hplace.resolve_left fun hnot => hnot hlate
    have hidx : recordIndex s.gf = s.gf.shipped := Nat.max_eq_right (Nat.le_of_lt hlate)
    have harmed : (clampLocked s).1 = s.laserArmed := rfl
    rw [if_pos hlate, if_neg (by rw [harmed, hclosed]; rintro ⟨⟩), hidx]
    dsimp only
    rw [hrecord s.gf.shipped (clampLocked s).2.gf]
    have hkept := hlev s.gf.shipped (show (clampLocked s).2.gf.lev = s.gf.lev from rfl)
    refine ⟨⟨hkept, rfl, rfl, clampLocked_failed, fun hidle => ⟨hidle, rfl⟩⟩, rfl, id, Nat.le_refl _⟩
  · have hidx : recordIndex s.gf = virtualIndex s.gf := Nat.max_eq_left (Nat.le_of_not_lt hlate)
    rw [if_neg hlate, hidx]
    dsimp only
    rw [hrecord (virtualIndex s.gf) s.gf]
    exact ⟨⟨rfl, rfl, rfl, id, fun hidle => ⟨hidle, rfl⟩⟩, rfl, id, Nat.le_refl _⟩

namespace Alongside

variable {g : Gf} {u : Unbounded}

/-- **A laser call.** -/
theorem record (h : Alongside g u) (power : UInt8) {fire : Bool} (hstream : g.streaming = true)
    (hsafe : mergeSafe g (recordIndex g) fire) :
    Alongside { g with lev := (levRecord (recordIndex g) power fire g).lev } (u.put (recordIndex g) power fire) := by
  have hmerged : ∀ v : Unbounded, Degrades g.lev g.state g.shipped v → v.newest ≤ recordIndex g →
      Alongside { g with lev := (levRecord (recordIndex g) power fire g).lev } (v.put (recordIndex g) power fire) := by
    intro v hv hnew
    refine .merged (hv.record power (Nat.le_max_right _ _) hnew hsafe) (fun _ => ?_) fun hidle => ?_
    · rw [v.put_eq]
      exact Nat.le_refl _
    · exact absurd (hstream.symm.trans hidle) (by decide)
  cases h with
  | failed hfailed => exact .failed hfailed
  | gone _ _ _ _ hidle => exact absurd (hstream.symm.trans hidle) (by decide)
  | merged hdegrades hlive => exact hmerged u hdegrades (hlive hstream)
  | same hlev hcur =>
    cases hmerge : mergedInto g (recordIndex g) with
    | none =>
      refine .same (Unbounded.put_same power fire hlev hmerge) ?_
      rw [u.put_eq]
      exact hcur
    | some t =>
      obtain ⟨horder, hidx, -⟩ := hsafe t hmerge
      obtain ⟨hlast, -⟩ := levRecord_merges power fire hmerge
      have hput := hmerged ⟨g.lev, g.state, t.idx⟩ (.of_inOrder horder hlast) hidx
      rwa [← Unbounded.put_congr (v := ⟨g.lev, g.state, t.idx⟩) hlev hcur] at hput

end Alongside

/-! ## The two ends of a cycle

The end clears, and the wakeup asserts; in a full queue the first rewrites the newest entry and the
second is dropped. -/

/-- A cycle's end finds room, or a queue in order. -/
def idleSafe (g : Gf) : Prop :=
  g.lev.length < levN ∨ (∃ t ∈ g.lev.getLast?, cycleEnd g ≤ t.idx) ∨ InOrder LaserEv.idx g.lev

instance (g : Gf) : Decidable (idleSafe g) := inferInstanceAs (Decidable (_ ∨ (∃ t ∈ g.lev.getLast?, _) ∨ _))

theorem goIdleDark_eq (g : Gf) : goIdleDark g = { g with lev := (goIdleDark g).lev } := by
  obtain ⟨lev, hlev⟩ := goIdleDark_frame g
  rw [hlev]

/-- The end of a live stream under its lock. -/
theorem gfStreamGoIdle_live (reset : Bool) (stepBits dirBits : UInt8) {s : State} (h : s.gf.streaming = true) :
    ({ goIdleDark s.gf with streaming := false } : Gf).Steady (gfStreamGoIdle reset stepBits dirBits s).gf := by
  obtain ⟨killed, killStep, hmark⟩ := goIdleMark_frame reset (pulseByte stepBits dirBits) s.gf
  have hgo : (gfStreamGoIdle reset stepBits dirBits s).gf =
      { goIdleDark { s.gf with killed := killed, killStep := killStep } with streaming := false } := by
    change goIdleEnd (goIdleMark reset (pulseByte stepBits dirBits) s.gf) = _
    rw [hmark, goIdleEnd, if_pos h]
  have hsame : (goIdleDark { s.gf with killed := killed, killStep := killStep }).lev = (goIdleDark s.gf).lev :=
    goIdleDark_lev rfl rfl rfl rfl rfl
  rw [hgo, goIdleDark_eq s.gf, goIdleDark_eq { s.gf with killed := killed, killStep := killStep }, hsame]
  exact ⟨⟨rfl, rfl, rfl, id, fun _ => ⟨rfl, rfl⟩⟩, rfl, id, Nat.le_refl _⟩

namespace Alongside

variable {g : Gf} {u : Unbounded}

/-- With room, or with the newest transition at the end already, the two do the same. -/
theorem goIdle_same (hlev : u.lev = g.lev) (hcur : u.cur = g.state)
    (hroom : g.lev.length < levN ∨ ∃ t ∈ g.lev.getLast?, cycleEnd g ≤ t.idx) :
    (u.goIdle g).lev = (goIdleDark g).lev ∧ (u.goIdle g).cur = u.cur := by
  have hidx : (if g.produced > g.shipped then g.produced else g.shipped) = cycleEnd g := by
    unfold cycleEnd
    split <;> omega
  have hacts : (u.cur.2 = true ∨ g.lev ≠ []) ↔ (g.curFire = true ∨ g.lev ≠ []) := by
    rw [hcur]
    rfl
  simp only [Unbounded.goIdle, goIdleDark, hlev, hacts, hidx]
  by_cases hgoes : g.curFire = true ∨ g.lev ≠ []
  · rw [if_pos hgoes, if_pos hgoes]
    cases hlast : g.lev.getLast? with
    | none => exact ⟨by simp [Unbounded.push, hlev, hcur, List.getLast?_eq_none_iff.mp hlast, Gf.state], rfl⟩
    | some t =>
      dsimp only
      by_cases hpast : cycleEnd g ≤ t.idx
      · rw [if_pos hpast, if_pos (.inl hpast)]
        exact ⟨by rw [Unbounded.rewrite, hlev], rfl⟩
      · have hfree : g.lev.length < levN := by
          refine hroom.resolve_right ?_
          rintro ⟨d, hd, hle⟩
          rw [hlast] at hd
          cases hd
          exact hpast hle
        rw [if_neg hpast, if_neg (by omega)]
        exact ⟨by rw [Unbounded.push, hlev], rfl⟩
  · rw [if_neg hgoes, if_neg hgoes]
    exact ⟨hlev, rfl⟩

/-- **The end of a cycle.** -/
theorem goIdle (h : Alongside g u) (hstream : g.streaming = true) (hsafe : idleSafe g) :
    Alongside { goIdleDark g with streaming := false } (u.goIdle g) := by
  have hfields : (goIdleDark g).state = g.state ∧ (goIdleDark g).shipped = g.shipped ∧
      (goIdleDark g).failed = g.failed := by
    rw [goIdleDark_eq g]
    exact ⟨rfl, rfl, rfl⟩
  obtain ⟨hstate, hshipped, hfailed⟩ := hfields
  have hmerged : ∀ v : Unbounded, Degrades g.lev g.state g.shipped v →
      Alongside { goIdleDark g with streaming := false } (v.goIdle g) := by
    intro v hv
    obtain ⟨hdegrades, hends⟩ := hv.goIdle
    rw [← hstate, ← hshipped] at hdegrades hends
    exact .merged hdegrades (by rintro ⟨⟩) fun _ => hends
  cases h with
  | failed hbad => exact .failed (hfailed.trans hbad)
  | gone _ _ _ _ hidle => exact absurd (hstream.symm.trans hidle) (by decide)
  | merged hdegrades => exact hmerged u hdegrades
  | same hlev hcur =>
    by_cases hroom : g.lev.length < levN ∨ ∃ t ∈ g.lev.getLast?, cycleEnd g ≤ t.idx
    · obtain ⟨hq, hc⟩ := goIdle_same hlev hcur hroom
      exact .same hq (hc.trans (hcur.trans hstate.symm))
    · have horder : InOrder LaserEv.idx g.lev := (or_assoc.mpr hsafe).resolve_left hroom
      simp only [not_or, Nat.not_lt] at hroom
      have hne : g.lev ≠ [] := by
        intro hnil
        rw [hnil] at hroom
        exact absurd hroom.1 (by decide)
      have hlast := List.getLast?_eq_some_getLast hne
      have hgoes := hmerged ⟨g.lev, g.state, _⟩ (.of_inOrder horder hlast)
      rwa [← Unbounded.goIdle_congr (v := ⟨g.lev, g.state, _⟩) hlev hcur hne] at hgoes

end Alongside

/-- A wakeup that wants `want` queues an assertion. -/
def queues (want : UInt8 × Bool) (g : Gf) : Bool := decide (want ≠ g.state) && decide (g.lev.length < levN)

/-- The record behind the assertion. -/
def asserted (want : UInt8 × Bool) (g : Gf) : Gf :=
  if queues want g then { g with lev := g.lev ++ [⟨g.base, want.1, want.2⟩] } else g

/-- The two queues are the same and the assertion finds room; or nothing is queued past the base, and
both assert or neither, or the wanted state is in force there as it is. -/
def assertSafe (want : UInt8 × Bool) (g : Gf) (u : Unbounded) : Prop :=
  (u.lev = g.lev ∧ u.cur = g.state ∧ queues want g = decide (want ≠ g.state)) ∨
  (InOrder LaserEv.idx g.lev ∧ (∀ e ∈ g.lev ++ u.lev, e.idx ≤ g.base) ∧
    (queues want g = decide (want ≠ u.cur) ∨ (want ≠ u.cur ∧ g.stateAt g.base = want)))

instance (want : UInt8 × Bool) (g : Gf) (u : Unbounded) : Decidable (assertSafe want g u) :=
  inferInstanceAs (Decidable ((_ ∧ _ ∧ _) ∨ (_ ∧ (∀ e ∈ _, _) ∧ (_ ∨ _))))

theorem wakeupLocked_asserted (now : Nat) {s : State} (hidle : s.gf.streaming = false) :
    (wakeupLocked now s).gf = asserted (wanted s) (wakeupRecord now s) := by
  have hwant := wakeupRecord_wantPower now s
  have hgf : (wakeupLocked now s).gf = wakeupAssert (mayFire s s.gf.wantFire) (wakeupRecord now s) := by
    rw [wakeupLocked, if_neg (by rw [hidle]; rintro ⟨⟩)]
    rfl
  have hdiffer : ((wakeupRecord now s).wantPower ≠ (wakeupRecord now s).curPower ∨
      mayFire s s.gf.wantFire ≠ (wakeupRecord now s).curFire) ↔ wanted s ≠ (wakeupRecord now s).state := by
    rw [hwant, ne_eq, ne_eq, ne_eq, wanted, Gf.state, Prod.mk.injEq, not_and_or]
  rw [hgf, wakeupAssert, asserted, queues]
  simp only [hdiffer]
  generalize wakeupRecord now s = r at hwant ⊢
  by_cases hne : wanted s ≠ r.state
  · by_cases hroom : r.lev.length < levN
    · rw [if_pos hne, if_pos hroom, if_pos (by simp [hne, hroom]), hwant]
      rfl
    · rw [if_pos hne, if_neg hroom, if_neg (by simp [hroom])]
  · rw [if_neg hne, if_neg (by simp [hne])]

/-- The record that a wakeup begins with. -/
theorem wakeupRecord_cases (now : Nat) (s : State) :
    (s.gf.kernelRunning = true ∧ wakeupRecord now s = { wakeupRecord now s with
        lev := s.gf.lev, curPower := s.gf.curPower, shipped := s.gf.shipped
        curFire := if dueIndex now s.gf > s.gf.produced then false else s.gf.curFire }) ∨
    (s.gf.kernelRunning = false ∧ (wakeupRecord now s).lev = [] ∧
      (wakeupRecord now s).state = (s.gf.curPower, false) ∧ (wakeupRecord now s).shipped = 0) := by
  cases hrunning : s.gf.kernelRunning with
  | true =>
    refine .inl ⟨rfl, ?_⟩
    have hbegins : wakeupRecord now s = { wakeupContinue now (wakeupClock now (wakeupMark s).gf) with
        base := (wakeupContinue now (wakeupClock now (wakeupMark s).gf)).produced } := by
      rw [wakeupRecord, wakeupIndex,
        if_pos (show (wakeupClock now (wakeupMark s).gf).kernelRunning = true from hrunning)]
    have hgaps : wakeupContinue now (wakeupClock now (wakeupMark s).gf) =
        if dueIndex now s.gf > s.gf.produced then
          { wakeupClock now (wakeupMark s).gf with produced := dueIndex now s.gf, curFire := false }
        else wakeupClock now (wakeupMark s).gf := rfl
    rw [hbegins, hgaps]
    split <;> rfl
  | false =>
    refine .inr ⟨rfl, ?_⟩
    have hbegins : wakeupRecord now s = { wakeupFresh (wakeupClock now (wakeupMark s).gf) with
        base := (wakeupFresh (wakeupClock now (wakeupMark s).gf)).produced } := by
      rw [wakeupRecord, wakeupIndex, if_neg (by
        rw [show (wakeupClock now (wakeupMark s).gf).kernelRunning = s.gf.kernelRunning from rfl, hrunning]
        rintro ⟨⟩)]
    rw [hbegins]
    exact ⟨rfl, rfl, rfl⟩

theorem wakeupRecord_live (now : Nat) (s : State) :
    (wakeupRecord now s).streaming = true ∧ (wakeupRecord now s).failed = s.gf.failed ∧
      (wakeupRecord now s).base ≤ recordIndex (wakeupRecord now s) := by
  have hclock : (wakeupRecord now s).vticks = 0 ∧ (wakeupRecord now s).streaming = true ∧
      (wakeupRecord now s).failed = s.gf.failed := by
    simp only [wakeupRecord, wakeupIndex, wakeupContinue, wakeupFresh]
    split_ifs <;> exact ⟨rfl, rfl, rfl⟩
  obtain ⟨hticks, hstream, hfailed⟩ := hclock
  refine ⟨hstream, hfailed, ?_⟩
  rw [recordIndex, virtualIndex, hticks, Nat.zero_div]
  exact Nat.le_max_left _ _

/-- The two queues in the index space that a wakeup begins, ahead of its assertion. -/
inductive Begun (g : Gf) (u : Unbounded) : Prop where
  | failed (hfailed : g.failed = true)
  | same (hlev : u.lev = g.lev) (hcur : u.cur = g.state)
  | merged (hdegrades : Degrades g.lev g.state g.shipped u)
  -- both are empty and dark, and may differ in the power
  | fresh (hlev : g.lev = []) (hlevU : u.lev = []) (hdark : g.curFire = false) (hnew : u.newest = 0)

/-- **The index space begins**, or goes on: over a gap both lose the fire at the cursor. -/
theorem Alongside.begins {now : Nat} {s : State} {u : Unbounded} (h : Alongside s.gf u)
    (hidle : s.gf.streaming = false) : Begun (wakeupRecord now s) (u.begins now s.gf) := by
  obtain ⟨-, hfailed, -⟩ := wakeupRecord_live now s
  rcases wakeupRecord_cases now s with ⟨hrunning, hrecord⟩ | ⟨hrunning, hlev, hstate, hshipped⟩
  · have hbegins : u.begins now s.gf =
        if dueIndex now s.gf > s.gf.produced then { u with cur := (u.cur.1, false) } else u := by
      rw [Unbounded.begins, if_pos hrunning]
    cases h with
    | failed hbad => exact .failed (hfailed.trans hbad)
    | gone _ _ _ _ _ hkernel => exact absurd (hrunning.symm.trans hkernel) (by decide)
    | same hlev hcur =>
      refine .same ?_ ?_
      · rw [hbegins, hrecord]
        split <;> exact hlev
      · rw [hbegins, hrecord]
        split
        · rw [hcur]
          rfl
        · exact hcur
    | merged hdegrades _ hends =>
      refine .merged ?_
      rw [hbegins, hrecord]
      change Degrades s.gf.lev (s.gf.curPower, _) s.gf.shipped _
      split
      · exact hdegrades.unlight (hends hidle)
      · exact hdegrades
  · have hbegins : u.begins now s.gf = { lev := [], cur := (u.cur.1, false), newest := 0 } := by
      rw [Unbounded.begins, if_neg (by rw [hrunning]; rintro ⟨⟩)]
    rw [hbegins]
    exact .fresh hlev rfl (congrArg Prod.snd hstate) rfl

/-- **The assertion.** -/
theorem Follows.asserts {g : Gf} {u : Unbounded} {want : UInt8 × Bool} (h : Follows g.lev g.state g.shipped u)
    (hle : ∀ e ∈ g.lev ++ u.lev, e.idx ≤ g.base) :
    Degrades (g.lev ++ [⟨g.base, want.1, want.2⟩]) g.state g.shipped (u.push ⟨g.base, want.1, want.2⟩) ∧
      (g.stateAt g.base = want → Degrades g.lev g.state g.shipped (u.push ⟨g.base, want.1, want.2⟩)) := by
  have hleB : ∀ e ∈ g.lev, e.idx ≤ g.base := fun e he => hle e (List.mem_append_left _ he)
  have hleU : ∀ e ∈ u.lev, e.idx ≤ g.base := fun e he => hle e (List.mem_append_right _ he)
  have hputs : ∀ q : List LaserEv, Puts LaserEv.idx ⟨g.base, want.1, want.2⟩ q (q ++ [⟨g.base, want.1, want.2⟩]) :=
    fun q => .append q
  constructor
  · refine h.puts (hputs g.lev) (hputs u.lev) hleB hleU (Nat.le_refl _) rfl ?_ ?_
    · exact fun _ => .inl rfl
    · exact fun _ => ⟨_, (hputs u.lev).mem, rfl⟩
  · intro hforce
    refine h.drops (hputs u.lev) hleU ?_ fun i _ hi => ?_
    · exact fun e he => Nat.le_trans (hleB e he) (Nat.le_max_left _ _)
    · change g.base ≤ i at hi
      rw [Gf.stateAt, stateAt, Timeline.inForce_eq_final hleB] at hforce
      rw [stateAt, Timeline.inForce_eq_final fun e he => Nat.le_trans (hleB e he) hi]
      exact hforce

theorem Follows.fresh {g : Gf} {u : Unbounded} (hlev : g.lev = []) (hlevU : u.lev = []) (hdark : g.curFire = false)
    (hnew : u.newest = 0) : Follows g.lev g.state g.shipped u := by
  rw [hlev]
  refine ⟨.nil, hlevU ▸ .nil, by rintro _ ⟨⟩, ?_, .inl (by omega), fun _ => rfl, by rintro _ ⟨⟩, ?_⟩
  · rw [hlevU]
    rintro _ ⟨⟩
  · exact fun i _ hlit => absurd (hdark.symm.trans hlit) (by decide)

/-- **The assertion** of the unbounded queue, which the bounded one makes too or has in force. -/
theorem Follows.asserted {g : Gf} {u : Unbounded} {want : UInt8 × Bool} (h : Follows g.lev g.state g.shipped u)
    (hstream : g.streaming = true) (hbase : g.base ≤ recordIndex g) (hle : ∀ e ∈ g.lev ++ u.lev, e.idx ≤ g.base)
    (hne : want ≠ u.cur) (hor : queues want g = true ∨ g.stateAt g.base = want) :
    Alongside (asserted want g) (u.asserts g.base want) := by
  obtain ⟨hputs, hdrops⟩ := @Follows.asserts g u want h hle
  rw [Stream.asserted, Unbounded.asserts, if_pos hne]
  by_cases hqueues : queues want g = true
  · rw [if_pos hqueues]
    exact .merged hputs (fun _ => hbase) fun hidle => absurd (hstream.symm.trans hidle)
        (by decide)
  · rw [if_neg hqueues]
    exact .merged (hdrops (hor.resolve_left hqueues)) (fun _ => hbase)
      fun hidle => absurd (hstream.symm.trans hidle) (by decide)

/-- The same queues stay the same where both assert or neither. -/
theorem Alongside.asserted_same {g : Gf} {u : Unbounded} {want : UInt8 × Bool} (hlev : u.lev = g.lev)
    (hcur : u.cur = g.state) (hboth : queues want g = decide (want ≠ u.cur)) :
    Alongside (asserted want g) (u.asserts g.base want) := by
  rw [asserted, hboth, Unbounded.asserts]
  by_cases hne : want ≠ u.cur
  · rw [if_pos (decide_eq_true hne), if_pos hne]
    exact .same (by rw [Unbounded.push, hlev]) hcur
  · rw [if_neg (by simp [hne]), if_neg hne]
    exact .same hlev hcur

theorem Begun.asserts {g : Gf} {u : Unbounded} {want : UInt8 × Bool} (h : Begun g u) (hstream : g.streaming = true)
    (hbase : g.base ≤ recordIndex g) (hsafe : assertSafe want g u) :
    Alongside (asserted want g) (u.asserts g.base want) := by
  rcases hsafe with ⟨hlev, hcur, hboth⟩ | ⟨horder, hle, hor⟩
  · exact .asserted_same hlev hcur (hcur ▸ hboth)
  by_cases hne : want ≠ u.cur
  · -- the unbounded queue asserts
    have hforce : queues want g = true ∨ g.stateAt g.base = want :=
      hor.imp (fun hboth => hboth.trans (decide_eq_true hne)) And.right
    cases h with
    | failed hfailed =>
      refine .failed ?_
      rw [asserted]
      split <;> exact hfailed
    | merged hdegrades => exact hdegrades.asserted hstream hbase hle hne hforce
    | fresh hlev hlevU hdark hnew => exact (Follows.fresh hlev hlevU hdark hnew).asserted hstream hbase hle hne hforce
    | same hlev hcur =>
      by_cases hqueues : queues want g = true
      · exact .asserted_same hlev hcur (hqueues.trans (decide_eq_true hne).symm)
      · -- the bounded one is full, and not empty
        have hnil : g.lev ≠ [] := by
          intro hnil
          rw [queues, hnil, ← hcur, decide_eq_true hne] at hqueues
          exact hqueues (by decide)
        obtain ⟨t, hlast⟩ : ∃ t, g.lev.getLast? = some t := ⟨_, List.getLast?_eq_some_getLast hnil⟩
        have hself : Follows g.lev g.state g.shipped ⟨g.lev, g.state, t.idx⟩ :=
          (Degrades.of_inOrder horder hlast).toFollows
        obtain ⟨lev, cur, newest⟩ := u
        obtain rfl : lev = g.lev := hlev
        obtain rfl : cur = g.state := hcur
        have hagain : (⟨g.lev, g.state, newest⟩ : Unbounded).asserts g.base want =
            (⟨g.lev, g.state, t.idx⟩ : Unbounded).asserts g.base want := by
          rw [Unbounded.asserts, Unbounded.asserts, if_pos hne, if_pos hne]
          rfl
        rw [hagain]
        exact hself.asserted hstream hbase hle hne hforce
  · -- the unbounded queue does not, and so neither does the bounded one
    have hnone : queues want g = false := by
      rcases hor with hboth | ⟨hbad, -⟩
      · exact hboth.trans (decide_eq_false hne)
      · exact absurd hbad hne
    have hboth : queues want g = decide (want ≠ u.cur) := hnone.trans (decide_eq_false hne).symm
    cases h with
    | failed hfailed =>
      refine .failed ?_
      rw [asserted]
      split <;> exact hfailed
    | same hlev hcur => exact .asserted_same hlev hcur hboth
    | merged hdegrades =>
      rw [asserted, if_neg (by rw [hnone]; rintro ⟨⟩), Unbounded.asserts, if_neg hne]
      refine .merged hdegrades (fun _ => ?_) fun hidle => absurd (hstream.symm.trans hidle)
          (by decide)
      rcases hdegrades.newest with hnew | ⟨e, he, heq⟩
      · exact Nat.le_trans hnew (Nat.le_max_right _ _)
      · rw [← heq]
        exact Nat.le_trans (hle e (List.mem_append_right _ he)) hbase
    | fresh hlev hlevU _ _ =>
      -- with room for it the wanted state is in force in both
      have hwant : want = g.state := by
        by_contra hdiffer
        rw [queues, hlev, decide_eq_true hdiffer] at hnone
        exact absurd hnone (by decide)
      refine .asserted_same (hlevU.trans hlev.symm) ?_ hboth
      rw [← hwant]
      exact (not_not.mp hne).symm

/-- **The beginning of a cycle.** -/
theorem Alongside.wakeup {now : Nat} {s : State} {u : Unbounded} (h : Alongside s.gf u)
    (hidle : s.gf.streaming = false) (hsafe : assertSafe (wanted s) (wakeupRecord now s) (u.begins now s.gf)) :
    Alongside (wakeupLocked now s).gf ((u.begins now s.gf).asserts (wakeupRecord now s).base (wanted s)) := by
  obtain ⟨hstream, -, hbase⟩ := wakeupRecord_live now s
  rw [wakeupLocked_asserted now hidle]
  exact (h.begins hidle).asserts hstream hbase hsafe

end Glowforge.Stream
