import Glowforge.Serial.Tx

/-!
# Glowforge — what `tx_blocked` says, and the welcome that goes by it

`tx_blocked` is one bit for a stack of waits: a wait sets it, and clears it when it ends with space or with
a dropped peer; a callback that returns false leaves it set.

* **`Out`** — the TX side with the banner that a sender is owed.
* **`freeSlots`**, **`serialWriteS_waits`** — a string waits exactly if it does not fit.
* **`endsTruly`** — a wait that ends leaves the bit as the stack behind it is.
* **`blocked_iff_waits`** — the bit says whether a call waits, in every run whose waits end so.
-/

namespace Glowforge.Serial

/-! ## The poll

The poll greets a new sender while the bit is clear, and then drains the ring. -/

structure Out where
  tx : Tx
  bannerPending : Bool

/-- `welcome`; `banner` is what `init_message` writes. -/
def Out.welcome (now : Nat) (banner : List UInt8) (s : Out) : Out :=
  if s.bannerPending && !s.tx.blocked && s.tx.client then
    { tx := serialWriteS now banner s.tx, bannerPending := false }
  else s

inductive OutLabel where
  | tx (l : TxLabel)
  -- `rx_poll`: a sender connects, and displaces the one before; the sender hangs up.
  | connect
  | hangUp
  | welcome (now : Nat) (banner : List UInt8)

/-- One `serial_poll`; the port's messages are writes between the two. -/
def serialPoll (now : Nat) (banner : List UInt8) (ps : List Peer) : List OutLabel :=
  [.welcome now banner, .tx (.drain ps)]

def outStep (s : Out) : OutLabel → Option Out
  | .tx l => (txStep s.tx l).map fun tx => { s with tx := tx }
  | .connect =>
    if s.tx.listening then some { tx := { s.tx with client := true }, bannerPending := true } else none
  | .hangUp => some { s with tx := dropClient s.tx }
  | .welcome now banner => some (s.welcome now banner)

/-! ## The room of the ring

A string is written byte by byte, so it waits exactly where it has more bytes than the ring has free
slots. -/

/-- The slots that a write finds free. -/
def freeSlots (head tail : Nat) : Nat := (tail + txBufferSize - head - 1) % txBufferSize

/-- The string that `serialWriteS` writes. -/
def cString (data : List UInt8) : List UInt8 := data.takeWhile (· != 0)

/-- It fits in the ring. -/
def fits (data : List UInt8) (head tail : Nat) : Bool := (cString data).length ≤ freeSlots head tail

theorem freeSlots_eq_zero {head tail : Nat} (hhead : head < txBufferSize) (htail : tail < txBufferSize) :
    freeSlots head tail = 0 ↔ tail = (head + 1) % txBufferSize := by
  rw [freeSlots]
  unfold txBufferSize at *
  omega

theorem freeSlots_succ {head tail : Nat} (hhead : head < txBufferSize) (htail : tail < txBufferSize)
    (hroom : tail ≠ (head + 1) % txBufferSize) :
    freeSlots head tail = freeSlots ((head + 1) % txBufferSize) tail + 1 := by
  rw [freeSlots, freeSlots]
  unfold txBufferSize at *
  omega

/-- **A string waits exactly if it does not fit.** -/
theorem serialWriteS_waits (now : Nat) (data : List UInt8) {s : Tx} (h : s.Ok) :
    (fits data s.head s.tail = true ∧ (serialWriteS now data s).waits = s.waits ∧
      (serialWriteS now data s).blocked = s.blocked) ∨
    (fits data s.head s.tail = false ∧ (∃ w, (serialWriteS now data s).waits = w :: s.waits) ∧
      (serialWriteS now data s).blocked = true) := by
  induction data generalizing s with
  | nil => exact .inl ⟨rfl, rfl, rfl⟩
  | cons c cs ih =>
    unfold serialWriteS
    by_cases hend : c = 0
    · have hfits : fits (c :: cs) s.head s.tail = true := by simp [fits, cString, hend]
      rw [if_pos hend]
      exact .inl ⟨hfits, rfl, rfl⟩
    · have hstring : cString (c :: cs) = c :: cString cs := by simp [cString, hend]
      rw [if_neg hend]
      by_cases hfull : s.tail = (s.head + 1) % txBufferSize
      · have hfits : fits (c :: cs) s.head s.tail = false := by
          simp [fits, hstring, (freeSlots_eq_zero h.head h.tail).mpr hfull]
        simp only [serialPutC, if_pos hfull]
        exact .inr ⟨hfits, ⟨_, rfl⟩, trivial⟩
      · have hfits : fits (c :: cs) s.head s.tail = fits cs ((s.head + 1) % txBufferSize) s.tail := by
          rw [fits, fits, hstring, List.length_cons, freeSlots_succ h.head h.tail hfull]
          simp only [Nat.add_le_add_iff_right]
        simp only [serialPutC, if_neg hfull]
        rw [hfits]
        exact ih (s := s.put c ((s.head + 1) % txBufferSize)) (h.put (nextHead_lt _))

/-! ## The ends of a wait

Three ways out of a wait, two of which clear the bit. -/

/-- A wait that is over leaves the bit clear and `ws` behind it, unless the rest of its string waits again. -/
def clearsTruly (rest : List UInt8) (head tail : Nat) (ws : List Wait) : Bool := ws.isEmpty || !fits rest head tail

/-- The innermost callback's return leaves the bit as the stack behind it is: a callback returns false under
another wait, or the rest of its string waits again; a wait that ends with space or a dropped peer is the
outermost, or the rest of its string waits again. -/
def endsTruly (s : Tx) : TxLabel → Bool
  | .callback ok now => match s.waits with
    | [] => true
    | w :: ws =>
      if !ok then !(ws.isEmpty && fits w.rest s.head s.tail)
      else if s.tail = w.seenTail ∧ now - w.t0 > txStallMs then clearsTruly w.rest w.nextHead s.head ws
      else s.tail == w.nextHead || clearsTruly w.rest w.nextHead s.tail ws
  | _ => true

/-- The bit says whether a call waits. -/
def Tx.TellsTruth (s : Tx) : Prop := s.blocked = !s.waits.isEmpty

theorem serialWriteS_truth (now : Nat) (data : List UInt8) {s : Tx} (h : s.Ok) (htruth : s.TellsTruth) :
    (serialWriteS now data s).TellsTruth := by
  rcases serialWriteS_waits now data h with ⟨-, hwaits, hblocked⟩ | ⟨-, ⟨w, hwaits⟩, hblocked⟩
  · rw [Tx.TellsTruth, hwaits, hblocked]
    exact htruth
  · rw [Tx.TellsTruth, hwaits, hblocked]
    rfl

theorem serialPutC_truth (now : Nat) (c : UInt8) (rest : List UInt8) {s : Tx} (htruth : s.TellsTruth) :
    (serialPutC now c rest s).1.TellsTruth := by
  unfold serialPutC
  dsimp only
  split
  · rfl
  · exact htruth

theorem txDrain_ok (ps : List Peer) {s : Tx} (h : s.Ok) :
    (txDrain ps s).Ok ∧ (txDrain ps s).blocked = s.blocked ∧ (txDrain ps s).waits = s.waits := by
  induction ps generalizing s with
  | nil => exact ⟨h, rfl, rfl⟩
  | cons p ps ih =>
    have htook (w : Nat) : (s.took w).Ok := ⟨h.head, nextHead_lt _, h.waits⟩
    have hdrop : (dropClient s).Ok := ⟨h.head, h.tail, h.waits⟩
    unfold txDrain
    split
    · exact ⟨h, rfl, rfl⟩
    · split
      · exact ⟨⟨h.head, h.head, h.waits⟩, rfl, rfl⟩
      · split
        · exact ⟨h, rfl, rfl⟩
        · exact ih (htook _)
        · split
          · exact ih hdrop
          · exact ⟨hdrop, rfl, rfl⟩

/-- **A wait that is over**, from a ring with the tail at `tail`. -/
theorem waitEnds_truth (now : Nat) {s : Tx} {w : Wait} {ws : List Wait} (h : s.Ok) (hw : w.nextHead < txBufferSize)
    (hws : ∀ v ∈ ws, v.nextHead < txBufferSize) :
    (waitEnds now w ws s).Ok ∧
      ((waitEnds now w ws s).TellsTruth ↔ clearsTruly w.rest w.nextHead s.tail ws = true) := by
  have hok : (({ s with blocked := false, waits := ws } : Tx).put w.c w.nextHead).Ok := ⟨hw, h.tail, hws⟩
  refine ⟨(serialWriteS_spec now w.rest hok).1, ?_⟩
  have hwrites := serialWriteS_waits now w.rest hok
  have hput : fits w.rest (({ s with blocked := false, waits := ws } : Tx).put w.c w.nextHead).head
      (({ s with blocked := false, waits := ws } : Tx).put w.c w.nextHead).tail =
        fits w.rest w.nextHead s.tail := rfl
  rw [hput] at hwrites
  rw [Tx.TellsTruth, clearsTruly, waitEnds]
  rcases hwrites with ⟨hfits, hwaits, hblocked⟩ | ⟨hfits, ⟨v, hwaits⟩, hblocked⟩
  · rw [hwaits, hblocked, hfits]
    cases ws with
    | nil => exact iff_of_true rfl rfl
    | cons v ws => exact iff_of_false (by rintro ⟨⟩) (by rintro ⟨⟩)
  · rw [hwaits, hblocked, hfits]
    exact iff_of_true rfl (by simp)

/-- **One step of the TX side.** A write that waits sets the bit and pushes a wait; a drain leaves
both; the end of a wait is decided by the condition. -/
theorem txStep_truth {s t : Tx} {l : TxLabel} (h : s.Ok) (htruth : s.TellsTruth) (hstep : txStep s l = some t) :
    t.Ok ∧ (t.TellsTruth ↔ endsTruly s l = true) := by
  cases l with
  | putC now c =>
    cases hstep
    exact ⟨serialPutC_ok h now c [], iff_of_true (serialPutC_truth now c [] htruth) rfl⟩
  | writeS now data =>
    cases hstep
    exact ⟨(serialWriteS_spec now data h).1, iff_of_true (serialWriteS_truth now data h htruth) rfl⟩
  | drain ps =>
    cases hstep
    obtain ⟨hok, hblocked, hwaits⟩ := txDrain_ok ps h
    refine ⟨hok, iff_of_true ?_ rfl⟩
    rw [Tx.TellsTruth, hblocked, hwaits]
    exact htruth
  | callback ok now =>
    simp only [txStep, callbackReturns] at hstep
    cases hw : s.waits with
    | nil =>
      rw [hw] at hstep
      cases hstep
    | cons w ws =>
      rw [hw] at hstep
      have hnext : w.nextHead < txBufferSize := h.waits w (hw ▸ List.mem_cons_self)
      have hws : ∀ v ∈ ws, v.nextHead < txBufferSize := fun v hv => h.waits v (hw ▸ List.mem_cons_of_mem w hv)
      have hblocked : s.blocked = true := by
        rw [htruth, hw]
        rfl
      simp only [endsTruly, hw]
      cases ok with
      | false =>
        -- the abort: the bit stays set
        cases hstep
        have hok : ({ s with waits := ws } : Tx).Ok := ⟨h.head, h.tail, hws⟩
        refine ⟨(serialWriteS_spec now w.rest hok).1, ?_⟩
        have hwrites := serialWriteS_waits now w.rest hok
        rw [Tx.TellsTruth]
        rcases hwrites with ⟨hfits, hwaits, hstill⟩ | ⟨hfits, ⟨v, hwaits⟩, hstill⟩
        · have hfits : fits w.rest s.head s.tail = true := hfits
          rw [hwaits, hstill, hfits]
          cases ws with
          | nil => exact iff_of_false (by simp [hblocked]) (by simp)
          | cons v ws => exact iff_of_true (by simp [hblocked]) (by simp)
        · have hfits : fits w.rest s.head s.tail = false := hfits
          rw [hwaits, hstill, hfits]
          exact iff_of_true rfl (by simp)
      | true =>
        -- the `while` test: the wait goes on, or it is over
        have htest (w' : Wait) (hnext' : w'.nextHead = w.nextHead) (hrest : w'.rest = w.rest) :
            (waitTest now w' ws s).Ok ∧ ((waitTest now w' ws s).TellsTruth ↔
              (s.tail == w.nextHead || clearsTruly w.rest w.nextHead s.tail ws) = true) := by
          unfold waitTest
          rw [hnext']
          split
          · next hfull =>
            refine ⟨⟨h.head, h.tail, ?_⟩, iff_of_true ?_ (by simp [hfull])⟩
            · intro v hv
              rcases List.mem_cons.mp hv with rfl | hv
              · exact hnext'.trans_lt hnext
              · exact hws v hv
            · exact hblocked
          · next hroom =>
            have hends := waitEnds_truth now h (w := w') (hnext'.trans_lt hnext) hws
            rw [hnext', hrest] at hends
            rw [beq_false_of_ne hroom, Bool.false_or]
            exact hends
        simp only [Bool.not_true, Bool.false_eq_true, if_false] at hstep ⊢
        by_cases hprogress : s.tail = w.seenTail
        · simp only [hprogress, ne_eq, not_true_eq_false, if_false, true_and] at hstep ⊢
          split at hstep
          · next hstall =>
            cases hstep
            rw [if_pos hstall]
            exact waitEnds_truth now (s := { dropClient s with tail := s.head })
              ⟨h.head, h.head, h.waits⟩ hnext hws
          · next hstall =>
            cases hstep
            rw [if_neg hstall, ← hprogress]
            exact htest w rfl rfl
        · rw [if_pos hprogress] at hstep
          cases hstep
          rw [if_neg fun hstall => hprogress hstall.1]
          exact htest _ rfl rfl

/-! ## The poll's steps -/

def endsTrulyIn (s : Out) : OutLabel → Bool
  | .tx l => endsTruly s.tx l
  | _ => true

theorem outStep_truth {s t : Out} {l : OutLabel} (h : s.tx.Ok) (htruth : s.tx.TellsTruth)
    (hstep : outStep s l = some t) : t.tx.Ok ∧ (t.tx.TellsTruth ↔ endsTrulyIn s l = true) := by
  cases l with
  | tx l =>
    obtain ⟨tx, htx, rfl⟩ := Option.map_eq_some_iff.mp hstep
    exact txStep_truth h htruth htx
  | connect =>
    simp only [outStep] at hstep
    split at hstep
    · cases hstep
      exact ⟨⟨h.head, h.tail, h.waits⟩, iff_of_true htruth rfl⟩
    · cases hstep
  | hangUp =>
    cases hstep
    exact ⟨⟨h.head, h.tail, h.waits⟩, iff_of_true htruth rfl⟩
  | welcome now banner =>
    cases hstep
    unfold Out.welcome
    split
    · exact ⟨(serialWriteS_spec now banner h).1, iff_of_true (serialWriteS_truth now banner h htruth) rfl⟩
    · exact ⟨h, iff_of_true htruth rfl⟩

/-! ## The runs

The equivalence in every run, and the next step that would break it. -/

/-- No call waits, and the cursors lie in the ring. -/
structure Out.Start (s : Out) : Prop where
  head : s.tx.head < txBufferSize
  tail : s.tx.tail < txBufferSize
  waits : s.tx.waits = []
  blocked : s.tx.blocked = false

/-- **`tx_blocked` says whether a call waits.** In every run of writes, drains, callbacks, connects, drops and
polls, nested as they come, in which every wait ends with the bit as the stack behind it is: the bit is set
exactly while a call waits, a poll inside a wait writes no banner, and a poll outside every wait writes the
banner of a connected sender that is owed one. From there the bit stays true exactly if the next step ends no
wait otherwise. -/
theorem blocked_iff_waits {s t : Out} (h0 : s.Start)
    (hrun : Runs.Reach outStep (fun s l => endsTrulyIn s l = true) s t) :
    t.tx.TellsTruth ∧
      (∀ now banner, t.tx.waits ≠ [] → t.welcome now banner = t) ∧
      (∀ now banner, t.tx.waits = [] → t.bannerPending = true → t.tx.client = true →
        t.welcome now banner = { tx := serialWriteS now banner t.tx, bannerPending := false }) ∧
      ∀ l u, outStep t l = some u → (u.tx.TellsTruth ↔ endsTrulyIn t l = true) := by
  have hinv : t.tx.Ok ∧ t.tx.TellsTruth := by
    refine hrun.invariant (P := fun t => t.tx.Ok ∧ t.tx.TellsTruth) ?_ ?_
    · refine ⟨⟨h0.head, h0.tail, by simp [h0.waits]⟩, ?_⟩
      rw [Tx.TellsTruth, h0.waits, h0.blocked]
      rfl
    · rintro t l u ⟨hok, htruth⟩ hends hstep
      obtain ⟨hok', htruth'⟩ := outStep_truth hok htruth hstep
      exact ⟨hok', htruth'.mpr hends⟩
  have htruth : t.tx.blocked = !t.tx.waits.isEmpty := hinv.2
  refine ⟨htruth, fun now banner hwaits => ?_, fun now banner hwaits hpending hclient => ?_,
    fun l u hstep => (outStep_truth hinv.1 hinv.2 hstep).2⟩
  · rw [← List.isEmpty_eq_false_iff] at hwaits
    rw [hwaits] at htruth
    simp [Out.welcome, htruth]
  · rw [hwaits] at htruth
    simp [Out.welcome, htruth, hpending, hclient]

/-! ### A sender at a full ring

A sender that connects to a full ring, and the wait that is aborted and leaves the bit set. -/

def fullOut : Out := ⟨fullRing, false⟩

theorem fullOut_start : fullOut.Start := ⟨by decide, by decide, rfl, rfl⟩

/-- A sender connects while a call waits, and is welcomed once it has ended. -/
theorem blocked_iff_waits_connect :
    ∃ t, Runs.Reach outStep (fun s l => endsTrulyIn s l = true) fullOut t ∧
      (t.tx.waits = [] ∧ t.bannerPending = true) ∧
      t.welcome 2 [71] = { tx := serialWriteS 2 [71] t.tx, bannerPending := false } := by
  have hex : ∃ t, Runs.Reach outStep (fun s l => endsTrulyIn s l = true) fullOut t ∧
      (t.tx.waits = [] ∧ t.bannerPending = true ∧ t.tx.client = true) :=
    Runs.exists_reach_of_exec
      [.tx (.putC 0 97), .connect, .welcome 0 [71], .tx (.drain [.room 2]), .tx (.callback true 1)]
      (by decide +kernel)
  obtain ⟨t, hrun, hwaits, hpending, hclient⟩ := hex
  exact ⟨t, hrun, ⟨hwaits, hpending⟩,
    (blocked_iff_waits fullOut_start hrun).2.2.1 2 [71] hwaits hpending hclient⟩

/-- **An aborted call leaves the bit set.** The callback returns false, no call waits any more, and no
welcome is written under the bit. -/
theorem aborted_wait_stays_blocked :
    ¬∀ s t : Out, s.Start → Runs.Reach outStep (fun _ _ => True) s t → t.tx.TellsTruth := by
  intro hall
  have hex : ∃ t, Runs.Reach outStep (fun _ _ => True) fullOut t ∧
      (t.tx.waits = [] ∧ t.tx.blocked = true) :=
    Runs.exists_reach_of_exec [.tx (.putC 0 97), .tx (.callback false 1)] (by decide +kernel)
  obtain ⟨t, hrun, hwaits, hblocked⟩ := hex
  have htruth : t.tx.blocked = !t.tx.waits.isEmpty := hall fullOut t fullOut_start hrun
  rw [hwaits, hblocked] at htruth
  cases htruth

end Glowforge.Serial
