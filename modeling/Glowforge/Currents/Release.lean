import Glowforge.Currents.Torque

/-!
# Glowforge — the currents of a released gantry

`release_cmd` sets the flag of the current scheme, writes its zeros and returns; from there every
posture reads the flag and writes 0. A drop of the shipper's that has read the flag before and
writes after it is the one that does not.

* **`settled`** — no write under way on the attribute is of a current.
* **`Settling`** — the attribute is at 0, or a posture that reads the flag is on its way to it.
* **`clean`** — a release writes its zero with no such drop under way, and a controller that starts
  over a released gantry finds the marker.
* **`released_gantry_stays_dead`** — runs so clean leave X and Y at 0 until the energize.
-/

namespace Glowforge.Currents

open Glowforge.Stream (State Env Call Config Kernel)

/-! ## The order of the writes

A release is clean when its zero comes with no drop behind it that has read the flag as clear; a
start is clean when it finds the marker of a released gantry. -/

/-- No value other than 0 has been chosen for the attribute. -/
def settled (ops : List Op) (a : Attr) : Bool :=
  ops.all fun
    | .write b v => b != a || v == 0
    | .choose _ _ => true

/-- The attribute writes of `release_cmd` succeed. -/
def writesTake (m : Machine) : Label → Bool
  | .core ok =>
    match m.core with
    | .releaseX | .releaseY => ok
    | _ => true
  | _ => true

/-- The zero of a release comes with no drop behind it that read the flag as clear, and a controller
that starts over a released gantry finds the marker. -/
def clean (m : Machine) : Label → Bool
  | .core _ =>
    match m.core with
    | .releaseX => settled m.drop .x
    | .releaseY => settled m.drop .y
    | _ => true
  | .restart _ _ _ _ => !m.released || m.marker
  | _ => true

/-- `release_cmd` has returned `Status_OK`, and `gfrelease_energize` has not been called since. -/
def staysFree (m : Machine) (l : Label) (free : Bool) : Bool :=
  match l with
  | .release _ _ _ => free || m.released
  | .core _ => free || m.core == .releaseDone
  | .energize => false
  | _ => free

/-! ## One step of a posture

A posture reads the flag before it writes, and behind a release what it reads is the flag set. -/

theorem settled_ops (p : Posture) {a : Attr} (ha : a ≠ .z) : settled p.ops a = true := by
  cases a with
  | z => exact absurd rfl ha
  | _ => rfl

/-- Under the flag a posture writes 0 and nothing else. -/
theorem settled_next {ops : List Op} {a : Attr} (values : Attr → Nat) (h : settled ops a = true) :
    settled (nextOps true values ops).2 a = true ∧
      (values a = 0 → (nextOps true values ops).1 a = 0) ∧
      (owes ops a = true →
        (nextOps true values ops).1 a = 0 ∨ owes (nextOps true values ops).2 a = true) := by
  cases ops with
  | nil => exact ⟨h, id, .inr⟩
  | cons op rest =>
    cases op with
    | choose p b =>
      refine ⟨?_, id, .inr⟩
      simpa [nextOps, settled] using h
    | write b v =>
      simp only [settled, List.all_cons, Bool.and_eq_true, Bool.or_eq_true, bne_iff_ne, beq_iff_eq] at h
      obtain ⟨hv, hrest⟩ := h
      by_cases hab : b = a
      · subst hab
        have hzero : v = 0 := hv.resolve_left fun hne => hne rfl
        exact ⟨hrest, fun _ => by simp [nextOps, hzero], fun _ => .inl (by simp [nextOps, hzero])⟩
      · have hkept : (nextOps true values (.write b v :: rest)).1 a = values a :=
          Function.update_of_ne (Ne.symm hab) _ _
        refine ⟨hrest, hkept.trans, fun howes => .inr ?_⟩
        simpa [nextOps, owes_cons, Op.attr, hab] using howes

/-! ## The invariant

For X and for Y: the attribute is at 0, or the posture on the core's thread has still to write its
0; and no write under way there is of a current. -/

/-- The attribute is at 0, or the posture on the core's thread has still to write its 0. -/
structure Settling (m : Machine) (a : Attr) : Prop where
  core : settled m.core.ops a = true
  drop : settled m.drop a = true
  value : m.values a = 0 ∨ owes m.core.ops a = true

/-- Both are, under the flag. -/
structure Dead (m : Machine) : Prop where
  flag : m.xyReleased = true
  x : Settling m .x
  y : Settling m .y

/-- What holds where the core's thread is. -/
def AtPc (m : Machine) : CorePc → Prop
  | .free | .posture _ false => m.released = true → Dead m
  | .posture _ true | .energizeFlag | .releaseFlag => True
  | .releaseX => m.xyReleased = true
  | .releaseY => m.xyReleased = true ∧ Settling m .x
  | .releaseDone => Dead m
  | .releaseUndo => False

/-- The core's thread is in no call of the release. -/
def CorePc.plain : CorePc → Bool
  | .free | .posture _ false => true
  | _ => false

structure FreeInv (m : Machine) (free : Bool) : Prop where
  pc : AtPc m m.core
  released : free = true → m.released = true
  plain : free = true → m.core.plain = true
  x : free = true → m.values .x = 0
  y : free = true → m.values .y = 0

/-- While the motors are not free the invariant is what holds where the core's thread stands. -/
theorem FreeInv.of_pc {m : Machine} (h : AtPc m m.core) : FreeInv m false :=
  ⟨h, by rintro ⟨⟩, by rintro ⟨⟩, by rintro ⟨⟩, by rintro ⟨⟩⟩

theorem FreeInv.dead {m : Machine} (h : FreeInv m true) : Dead m := by
  have hpc := h.pc
  have hplain := h.plain rfl
  cases hcore : m.core with
  | free =>
    rw [hcore] at hpc
    exact hpc (h.released rfl)
  | posture ops energizes =>
    rw [hcore] at hpc hplain
    cases energizes with
    | false => exact hpc (h.released rfl)
    | true => cases hplain
  | _ =>
    rw [hcore] at hplain
    cases hplain

/-- A settling attribute that the core's thread owes no more is at 0. -/
theorem Settling.zero {m : Machine} {a : Attr} (h : Settling m a) (hfree : m.core.ops = []) :
    m.values a = 0 :=
  h.value.resolve_right (by simp [hfree, owes])

/-! ## What carries over

Most of the invariant only asks where the threads stand. It is carried from one place to the next by
what lies between the two. -/

/-- The flags are the same, and a settling attribute goes on settling under the flag. -/
structure Carries (m n : Machine) : Prop where
  flag : n.xyReleased = m.xyReleased
  released : n.released = m.released
  settles : ∀ a, a ≠ .z → m.xyReleased = true → Settling m a → Settling n a

theorem Dead.carries {m n : Machine} (h : Dead m) (hc : Carries m n) : Dead n :=
  ⟨hc.flag.trans h.flag, hc.settles .x (by decide) h.flag h.x, hc.settles .y (by decide) h.flag h.y⟩

theorem AtPc.carries {m n : Machine} {pc : CorePc} (h : AtPc m pc) (hc : Carries m n) : AtPc n pc := by
  cases pc with
  | free => exact fun hreleased => (h (hc.released ▸ hreleased)).carries hc
  | posture ops energizes =>
    cases energizes with
    | false => exact fun hreleased => (h (hc.released ▸ hreleased)).carries hc
    | true => trivial
  | energizeFlag | releaseFlag => trivial
  | releaseX => exact hc.flag.trans h
  | releaseY => exact ⟨hc.flag.trans h.1, hc.settles .x (by decide) h.1 h.2⟩
  | releaseDone => exact Dead.carries h hc
  | releaseUndo => exact h

/-- A posture begins on the core's thread, which was in none. -/
theorem Settling.begins {m : Machine} {a : Attr} (h : Settling m a) (ha : a ≠ .z) (s : State)
    (p : Posture) : Settling { m with stream := s, core := .posture p.ops false } a :=
  ⟨settled_ops p ha, h.drop, .inr (owes_ops p a)⟩

/-- A drop begins on the shipper's. -/
theorem Settling.drops {m : Machine} {a : Attr} (h : Settling m a) (ha : a ≠ .z) (s : State)
    (l : Stream.Label) : Settling { m with stream := s, drop := dropBegins m.stream m.drop l } a := by
  refine ⟨h.core, ?_, h.value⟩
  show settled (dropBegins m.stream m.drop l) a = true
  obtain hsame | ⟨hdrop, -⟩ := dropBegins_cases m.stream m.drop l
  · rw [hsame]
    exact h.drop
  · rw [hdrop]
    exact settled_ops .hold ha

/-! ## The steps

Each label of the machine against the invariant, with the release itself as the one that establishes
it. -/

theorem FreeInv.stream {m : Machine} {free : Bool} {l : Stream.Label} (h : FreeInv m free)
    (hallows : m.allows l = true) (s : State) :
    FreeInv { m with
      stream := s, core := coreBegins m.stream m.core l, drop := dropBegins m.stream m.drop l } free := by
  have hdrop : Carries m { m with stream := s, drop := dropBegins m.stream m.drop l } :=
    ⟨rfl, rfl, fun a ha _ hsettling => hsettling.drops ha s l⟩
  have hpc := h.pc.carries hdrop
  obtain hsame | ⟨hrests, hbegins⟩ := coreBegins_cases m hallows
  · rw [hsame]
    exact ⟨hpc, h.released, h.plain, h.x, h.y⟩
  · have hposture : ∃ p : Posture, coreBegins m.stream m.core l = .posture p.ops false := by
      obtain ⟨-, hrun⟩ | ⟨hhold, -⟩ := hbegins
      · exact ⟨.run, hrun⟩
      · exact ⟨.hold, hhold⟩
    obtain ⟨p, hp⟩ := hposture
    rw [hp]
    rw [Machine.resting_free hrests] at hpc
    refine ⟨fun hreleased => ?_, h.released, fun _ => rfl, h.x, h.y⟩
    exact (hpc hreleased).carries ⟨rfl, rfl, fun a ha _ hsettling => hsettling.begins ha s p⟩

/-- A write of the shipper's drop under the flag. -/
theorem Settling.dropNext {m : Machine} {a : Attr} (h : Settling m a) (hflag : m.xyReleased = true) :
    Settling { m with
      values := (nextOps m.xyReleased m.values m.drop).1
      drop := (nextOps m.xyReleased m.values m.drop).2 } a := by
  obtain ⟨hdrop, hzero, -⟩ := settled_next m.values h.drop
  rw [hflag]
  exact ⟨h.core, hdrop, h.value.imp_left hzero⟩

theorem FreeInv.dropNext {m : Machine} {free : Bool} (h : FreeInv m free) :
    FreeInv { m with
      values := (nextOps m.xyReleased m.values m.drop).1
      drop := (nextOps m.xyReleased m.values m.drop).2 } free := by
  have hstays : ∀ a, a ≠ .z → free = true → m.values a = 0 →
      (nextOps m.xyReleased m.values m.drop).1 a = 0 := by
    rintro a ha rfl hvalue
    have hdead := h.dead
    rw [hdead.flag]
    cases a with
    | x => exact (settled_next m.values hdead.x.drop).2.1 hvalue
    | y => exact (settled_next m.values hdead.y.drop).2.1 hvalue
    | z => exact absurd rfl ha
  refine ⟨h.pc.carries ⟨rfl, rfl, fun a _ hflag hsettling => hsettling.dropNext hflag⟩, h.released,
    h.plain, fun hfree => hstays .x (by decide) hfree (h.x hfree),
    fun hfree => hstays .y (by decide) hfree (h.y hfree)⟩

/-- A step of a posture on the core's thread under the flag. -/
theorem Settling.coreNext {m : Machine} {a : Attr} {ops : List Op} (h : Settling m a)
    (hops : m.core = .posture ops false) (hflag : m.xyReleased = true) :
    Settling { m with
      values := (nextOps m.xyReleased m.values ops).1
      core := .posture (nextOps m.xyReleased m.values ops).2 false } a := by
  obtain ⟨hcore, hdrop, hvalue⟩ := h
  simp only [hops, CorePc.ops] at hcore hvalue
  obtain ⟨hrest, hzero, howes⟩ := settled_next m.values hcore
  rw [hflag]
  exact ⟨hrest, hdrop, hvalue.elim (fun h => .inl (hzero h)) howes⟩

/-- A step of a posture that is no part of a release. -/
theorem FreeInv.posture {m n : Machine} {free ok : Bool} {ops : List Op} (h : FreeInv m free)
    (hcore : m.core = .posture ops false) (hstep : coreStep ok m = some n) : FreeInv n free := by
  have hdead : m.released = true → Dead m := by
    have hpc := h.pc
    rw [hcore] at hpc
    exact hpc
  cases ops with
  | cons op rest =>
    simp only [coreStep, hcore] at hstep
    cases hstep
    have hzero (a : Attr) (hold : Dead m) (hsettled : settled m.core.ops a = true) (hvalue : m.values a = 0) :
        (nextOps m.xyReleased m.values (op :: rest)).1 a = 0 := by
      rw [hcore] at hsettled
      rw [hold.flag]
      exact (settled_next m.values hsettled).2.1 hvalue
    refine ⟨fun hreleased => ?_, h.released, fun _ => rfl, fun hfree => ?_, fun hfree => ?_⟩
    · have hold := hdead hreleased
      exact ⟨hold.flag, hold.x.coreNext hcore hold.flag, hold.y.coreNext hcore hold.flag⟩
    · have hold := hdead (h.released hfree)
      exact hzero .x hold hold.x.core (h.x hfree)
    · have hold := hdead (h.released hfree)
      exact hzero .y hold hold.y.core (h.y hfree)
  | nil =>
    simp only [coreStep, hcore] at hstep
    cases hstep
    refine ⟨fun hreleased => ?_, h.released, fun _ => rfl, h.x, h.y⟩
    refine Dead.carries (hdead hreleased) ⟨rfl, rfl, fun a _ _ hsettling => ?_⟩
    exact ⟨rfl, hsettling.drop, .inl (hsettling.zero (by rw [hcore]; rfl))⟩

/-- **A step of the call on the core's thread.** By the place where it stands: a posture reads or
writes, and the release writes its flag, its two zeros and its marker. -/
theorem FreeInv.core {m n : Machine} {free ok : Bool} (h : FreeInv m free)
    (hstep : coreStep ok m = some n) (htakes : writesTake m (.core ok) = true)
    (hclean : clean m (.core ok) = true) : FreeInv n (staysFree m (.core ok) free) := by
  have hpc := h.pc
  -- outside the release's last step the history is as it was
  have hheld : m.core ≠ .releaseDone → staysFree m (.core ok) free = free := by
    intro hne
    simp [staysFree, hne]
  have hbusy : m.core.plain = false → free = false := fun hplain =>
    Bool.eq_false_iff.mpr fun hfree => absurd ((h.plain hfree).symm.trans hplain) (by decide)
  cases hcore : m.core with
  | free =>
    simp only [coreStep, hcore] at hstep
    cases hstep
  | posture ops energizes =>
    cases energizes with
    | false =>
      rw [hheld (by simp [hcore])]
      exact h.posture hcore hstep
    | true =>
      cases ops with
      | cons op rest =>
        simp only [coreStep, hcore] at hstep
        cases hstep
        rw [hheld (by simp [hcore]), hbusy (by rw [hcore]; rfl)]
        exact .of_pc trivial
      | nil =>
        simp only [coreStep, hcore] at hstep
        cases hstep
        rw [hheld (by simp [hcore]), hbusy (by rw [hcore]; rfl)]
        exact .of_pc (by rintro ⟨⟩)
  | releaseFlag =>
    simp only [coreStep, hcore] at hstep
    cases hstep
    rw [hheld (by simp [hcore]), hbusy (by rw [hcore]; rfl)]
    exact .of_pc rfl
  | releaseX =>
    simp only [writesTake, hcore] at htakes
    simp only [clean, hcore] at hclean
    simp only [coreStep, hcore, htakes, if_true] at hstep
    cases hstep
    rw [hheld (by simp [hcore]), hbusy (by rw [hcore]; rfl)]
    rw [hcore] at hpc
    have hzero : Function.update m.values .x 0 .x = 0 := Function.update_self _ _ _
    exact .of_pc ⟨hpc, rfl, hclean, .inl hzero⟩
  | releaseY =>
    simp only [writesTake, hcore] at htakes
    simp only [clean, hcore] at hclean
    simp only [coreStep, hcore, htakes, if_true] at hstep
    cases hstep
    rw [hheld (by simp [hcore]), hbusy (by rw [hcore]; rfl)]
    rw [hcore] at hpc
    obtain ⟨hflag, hx⟩ := hpc
    have hzero : m.values .x = 0 := hx.zero (by rw [hcore]; rfl)
    have hzeroY : Function.update m.values .y 0 .y = 0 := Function.update_self _ _ _
    exact .of_pc ⟨hflag, ⟨rfl, hx.drop, .inl hzero⟩, ⟨rfl, hclean, .inl hzeroY⟩⟩
  | releaseDone =>
    simp only [coreStep, hcore] at hstep
    cases hstep
    rw [hcore] at hpc
    obtain ⟨hflag, hx, hy⟩ : Dead m := hpc
    have hzeroX : m.values .x = 0 := hx.zero (by rw [hcore]; rfl)
    have hzeroY : m.values .y = 0 := hy.zero (by rw [hcore]; rfl)
    exact ⟨fun _ => ⟨hflag, ⟨rfl, hx.drop, .inl hzeroX⟩, ⟨rfl, hy.drop, .inl hzeroY⟩⟩,
      fun _ => rfl, fun _ => rfl, fun _ => hzeroX, fun _ => hzeroY⟩
  | releaseUndo =>
    rw [hcore] at hpc
    exact hpc.elim
  | energizeFlag =>
    simp only [coreStep, hcore] at hstep
    cases hstep
    rw [hheld (by simp [hcore]), hbusy (by rw [hcore]; rfl)]
    exact .of_pc trivial

/-- **The release is asked for.** A second one on a released gantry returns at once. -/
theorem FreeInv.release {m : Machine} {free : Bool} (h : FreeInv m free) (hrests : m.resting = true)
    (atRest armed readOk : Bool) :
    FreeInv (releaseCmd atRest armed readOk m) (staysFree m (.release atRest armed readOk) free) := by
  have hfree := Machine.resting_free hrests
  unfold releaseCmd
  cases hreleased : m.released with
  | true =>
    have hpc := h.pc
    rw [hfree] at hpc
    obtain ⟨hflag, hx, hy⟩ : Dead m := hpc hreleased
    rw [if_pos rfl]
    refine ⟨h.pc, fun _ => hreleased, fun _ => hfree ▸ rfl, fun _ => hx.zero ?_, fun _ => hy.zero ?_⟩ <;>
      rw [hfree] <;> rfl
  | false =>
    have hnone : free = false :=
      Bool.eq_false_iff.mpr fun hf => absurd ((h.released hf).symm.trans hreleased) (by decide)
    have hstill : staysFree m (.release atRest armed readOk) free = false := by
      simp [staysFree, hnone, hreleased]
    rw [hstill]
    subst hnone
    have hgoes : FreeInv { m with core := .releaseFlag } false :=
      .of_pc trivial
    rw [if_neg Bool.false_ne_true]
    split_ifs
    · exact h
    · exact h
    · exact h
    · exact hreleased ▸ hgoes

theorem free_step {m n : Machine} {free : Bool} {l : Label} (h : FreeInv m free)
    (htakes : writesTake m l = true) (hclean : clean m l = true) (hstep : step m l = some n) :
    FreeInv n (staysFree m l free) := by
  cases l with
  | stream l =>
    simp only [step] at hstep
    split at hstep
    · next hallows =>
      obtain ⟨s, -, rfl⟩ := Option.map_eq_some_iff.mp hstep
      exact h.stream hallows s
    · cases hstep
  | core ok => exact h.core hstep htakes hclean
  | drop =>
    simp only [step] at hstep
    split at hstep
    · cases hstep
    · cases hstep
      exact h.dropNext
  | release atRest armed readOk =>
    simp only [step] at hstep
    split at hstep
    · next hrests =>
      cases hstep
      exact h.release hrests atRest armed readOk
    · cases hstep
  | energize =>
    simp only [step] at hstep
    split at hstep
    · cases hstep
      simp only [gfreleaseEnergize]
      split
      · exact .of_pc h.pc
      · exact .of_pc trivial
    · cases hstep
  | restart c k emptied counted =>
    cases hstep
    have hmarked : free = true → m.marker = true := by
      intro hfree
      simpa [clean, h.released hfree] using hclean
    refine ⟨fun hreleased => ?_, hmarked, fun _ => rfl, h.x, h.y⟩
    exact ⟨hreleased, ⟨rfl, rfl, .inr rfl⟩, ⟨rfl, rfl, .inr rfl⟩⟩

/-! ## The runs

From the release to the energize, in every run whose releases and starts are clean. -/

/-- **A released gantry is never energized.** In every run of releases, energizes, restarts and the
stream's threads with the writes of all postures between their turns, the writes of the releases
succeeding, whose releases and restarts are clean: from the release's return to the energize, X and Y
are at 0. -/
theorem released_gantry_stays_dead (c : Config) (k : Kernel) (emptied counted marker : Bool)
    (values : Attr → Nat) {m : Machine}
    (hrun : Runs.Reach (Runs.observe step staysFree)
      (fun x l => writesTake x.1 l = true ∧ clean x.1 l = true)
      (start c k emptied counted marker values, false) (m, true)) :
    m.values .x = 0 ∧ m.values .y = 0 := by
  have hinv : FreeInv m true := by
    refine hrun.invariant_observe (fun m l => writesTake m l = true ∧ clean m l = true) ?_ ?_
    · exact .of_pc fun hreleased => ⟨hreleased, ⟨rfl, rfl, .inr rfl⟩, ⟨rfl, rfl, .inr rfl⟩⟩
    · exact fun m free l n h hok hstep => free_step h hok.1 hok.2 hstep
  exact ⟨hinv.x rfl, hinv.y rfl⟩

/-! ### A release under a drop

The drop decides under the lock that the motors are to hold, reads the flag as it was, and writes
after the release. -/

/-- `$MD` to its return. -/
def releases : List Label := [Label.release true false true] ++ List.replicate 4 (Label.core true)

/-- The drop is decided, and the release is through before it reads the flag. -/
theorem released_gantry_stays_dead_drop :
    ∃ m, Runs.Reach (Runs.observe step staysFree)
        (fun x l => writesTake x.1 l = true ∧ clean x.1 l = true)
        (start (Stream.slowConfig true) Stream.idleKernel true true false fun _ => 7, false) (m, true) ∧
      m.drop = [] ∧ m.values .x = 0 ∧ m.values .y = 0 := by
  have hex : ∃ x, Runs.Reach (Runs.observe step staysFree)
        (fun x l => writesTake x.1 l = true ∧ clean x.1 l = true)
        (start (Stream.slowConfig true) Stream.idleKernel true true false fun _ => 7, false) x ∧
      (x.2 = true ∧ x.1.drop = []) :=
    Runs.exists_reach_of_exec (starts ++ [dropDecided] ++ releases ++ List.replicate 5 Label.drop)
      (by decide +kernel)
  obtain ⟨⟨m, free⟩, hrun, hfree, hdrop⟩ := hex
  obtain rfl : free = true := hfree
  exact ⟨m, hrun, hdrop, released_gantry_stays_dead _ _ _ _ _ _ hrun⟩

/-- **A drop that has read the flag writes after the release.** The shipper has read `xy_released` as
clear for X; `release_cmd` sets it, writes its zeros and returns, and the hold current is written. -/
theorem drop_energizes_released :
    ¬∀ (c : Config) (k : Kernel) (emptied counted marker : Bool) (values : Attr → Nat) (m : Machine),
      Runs.Reach (Runs.observe step staysFree) (fun x l => writesTake x.1 l = true)
        (start c k emptied counted marker values, false) (m, true) →
      m.values .x = 0 ∧ m.values .y = 0 := by
  intro hall
  have hex : ∃ x, Runs.Reach (Runs.observe step staysFree) (fun x l => writesTake x.1 l = true)
        (start (Stream.slowConfig true) Stream.idleKernel true true false fun _ => 7, false) x ∧
      (x.2 = true ∧ x.1.values .x = Posture.hold.current .x) :=
    Runs.exists_reach_of_exec (starts ++ [dropDecided, .drop] ++ releases ++ [Label.drop])
      (by decide +kernel)
  obtain ⟨⟨m, free⟩, hrun, hfree, hx⟩ := hex
  obtain rfl : free = true := hfree
  exact absurd (hx.symm.trans (hall _ _ _ _ _ _ m hrun).1) (by decide)

end Glowforge.Currents
