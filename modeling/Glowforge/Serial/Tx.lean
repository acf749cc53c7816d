import Glowforge.Lib.Runs
import Glowforge.Lib.Slots

/-!
# Glowforge — the TX ring of the sender's stream (`serial.c`)

Output is queued in a ring and drained by polls. A `serialPutC` that meets a full ring waits in
the core's blocking callback, which runs the driver's realtime hook on the same thread: the hook
polls, which drains the ring, and writes reports of its own through the same functions. The
model is a machine with one stack of waits:

* **`Wait`** — a `serialPutC` inside its callback, with the locals it keeps across it and the
  rest of the string of the `serialWriteS` around it.
* **`serialWriteS`**, **`serialPutC`** — run to their return, or to the first wait.
* **`callbackReturns`** — the innermost callback returns, and the wait loop goes on from there.
* **`txDrain`** — the drain of one poll.

A ring keeps one slot free, so what it holds is what lies from `tail` up to `head`.

* **`tx_fifo`** — the ring is a FIFO in every run in which no wait ends with the head moved
  under it, and the first wait that does end so breaks it.
-/

namespace Glowforge.Serial

open Function (update)

/-- Slots of the TX ring (`TX_BUFFER_SIZE`); a cursor is masked with one less. -/
def txBufferSize : Nat := 2048

/-- Milliseconds without drain progress before a stalled client is dropped (`TX_STALL_MS`). -/
def txStallMs : Nat := 1000

structure Wait where
  c : UInt8
  nextHead : Nat
  seenTail : Nat
  t0 : Nat
  -- what the `serialWriteS` around this call has left to write
  rest : List UInt8
deriving DecidableEq

structure Tx where
  data : Nat → UInt8
  head : Nat
  tail : Nat
  -- `listen_fd >= 0`: output goes to a connected client only, never to stdout
  listening : Bool
  -- `client_fd >= 0`
  client : Bool
  -- `tx_blocked`
  blocked : Bool
  -- the calls inside the blocking callback, innermost first
  waits : List Wait
  -- the bytes that the writes took, and those of the calls that returned true, in that order
  sent : List UInt8
  accepted : List UInt8

/-! ## Writing

`serialPutC` with its wait cut open: what it keeps across the callback is a frame on the stack of
waits. -/

/-- `drop_client`, as far as the TX side sees it. -/
def dropClient (s : Tx) : Tx := { s with client := false }

/-- The end of a `serialPutC` that returns true. -/
def Tx.put (s : Tx) (c : UInt8) (nextHead : Nat) : Tx :=
  { s with
    data := update s.data s.head c
    head := nextHead
    accepted := s.accepted ++ [c] }

/-- `serialPutC` up to its return (`true`) or to its first wait. -/
def serialPutC (now : Nat) (c : UInt8) (rest : List UInt8) (s : Tx) : Tx × Bool :=
  let nextHead := (s.head + 1) % txBufferSize
  if s.tail = nextHead then
    ({ s with blocked := true, waits := ⟨c, nextHead, s.tail, now, rest⟩ :: s.waits }, false)
  else (s.put c nextHead, true)

/-- `serialWriteS`: a string ends at its NUL, and what its calls return is not looked at. -/
def serialWriteS (now : Nat) : List UInt8 → Tx → Tx
  | [], s => s
  | c :: cs, s =>
    if c = 0 then s
    else match serialPutC now c cs s with
      | (s, true) => serialWriteS now cs s
      | (s, false) => s

/-- A wait is over: the byte is stored with the `next_head` computed before the wait. -/
def waitEnds (now : Nat) (w : Wait) (ws : List Wait) (s : Tx) : Tx :=
  serialWriteS now w.rest ({ s with blocked := false, waits := ws }.put w.c w.nextHead)

/-- The `while` test of the wait loop. -/
def waitTest (now : Nat) (w : Wait) (ws : List Wait) (s : Tx) : Tx :=
  if s.tail = w.nextHead then { s with waits := w :: ws } else waitEnds now w ws s

/-- The innermost blocking callback returns `ok`. -/
def callbackReturns (ok : Bool) (now : Nat) (s : Tx) : Option Tx :=
  match s.waits with
  | [] => none
  | w :: ws =>
    -- returns false, with `tx_blocked` left set
    if !ok then some (serialWriteS now w.rest { s with waits := ws })
    else if s.tail ≠ w.seenTail then
      some (waitTest now { w with seenTail := s.tail, t0 := now } ws s)
    else if now - w.t0 > txStallMs then
      -- a stalled peer: dropped, and the ring flushed
      some (waitEnds now w ws { dropClient s with tail := s.head })
    else some (waitTest now w ws s)

/-! ## Draining

The socket takes what it likes of what is offered, and the tail moves by that. -/

/-- What the `write` of a drain meets: a peer with room for some bytes (`EAGAIN` for none), or
an error. -/
inductive Peer where
  | room (w : Nat)
  | error
deriving DecidableEq

/-- The bytes that a `write` is offered: up to the head, or to the ring's end. -/
def Tx.offered (s : Tx) : Nat :=
  if s.tail ≤ s.head then s.head - s.tail else txBufferSize - s.tail

/-- One `write` that took `w` bytes. -/
def Tx.took (s : Tx) (w : Nat) : Tx :=
  { s with
    tail := (s.tail + w) % txBufferSize
    sent := s.sent ++ (List.range w).map fun i => s.data (s.tail + i) }

/-- `tx_drain`, with what each `write` of its loop meets; past the last the peer has no room. -/
def txDrain : List Peer → Tx → Tx
  | [], s => s
  | p :: ps, s =>
    if s.tail = s.head then s
    else if !s.client && s.listening then { s with tail := s.head }
    else match p with
      | .room 0 => s
      | .room (w + 1) => txDrain ps (s.took (min (w + 1) s.offered))
      | .error => if s.listening then txDrain ps (dropClient s) else dropClient s

/-! ## The machine

Everything runs on the protocol thread. With no wait open a label is a top-level call; with
waits open it is a call of the innermost callback. -/

inductive TxLabel where
  | putC (now : Nat) (c : UInt8)
  | writeS (now : Nat) (data : List UInt8)
  | drain (ps : List Peer)
  | callback (ok : Bool) (now : Nat)
deriving DecidableEq

def txStep (s : Tx) : TxLabel → Option Tx
  | .putC now c => some (serialPutC now c [] s).1
  | .writeS now data => some (serialWriteS now data s)
  | .drain ps => some (txDrain ps s)
  | .callback ok now => callbackReturns ok now s

/-! ## First in, first out

The property over the history of bytes put and bytes taken, and the condition on the end of a wait. -/

/-- The bytes that the ring holds. -/
def Tx.queued (s : Tx) : List UInt8 := Slots.between txBufferSize s.data s.tail s.head

/-- What went out and what the ring holds are the accepted bytes, in order. -/
def Tx.Fifo (s : Tx) : Prop := s.sent ++ s.queued = s.accepted

/-- A sequence begins with a client, outside every wait, and owes what the ring holds. -/
structure Tx.Start (s : Tx) : Prop where
  head : s.head < txBufferSize
  tail : s.tail < txBufferSize
  client : s.client = true
  waits : s.waits = []
  sent : s.sent = []
  accepted : s.accepted = s.queued

/-- The step leaves the client connected. -/
def KeepsClient (s : Tx) (l : TxLabel) : Prop := ∀ t ∈ txStep s l, t.client = true

/-- Unless the step ends a wait whose call finds the head moved since it began to wait. -/
def HeadUnmoved (s : Tx) : TxLabel → Prop
  | .callback true _ => ∀ w ∈ s.waits.head?, s.tail ≠ w.nextHead →
      w.nextHead = (s.head + 1) % txBufferSize
  | _ => True

instance (s : Tx) (l : TxLabel) : Decidable (KeepsClient s l) :=
  inferInstanceAs (Decidable (∀ t ∈ txStep s l, t.client = true))

instance (s : Tx) : (l : TxLabel) → Decidable (HeadUnmoved s l)
  | .callback true _ => inferInstanceAs (Decidable (∀ w ∈ s.waits.head?, s.tail ≠ w.nextHead →
      w.nextHead = (s.head + 1) % txBufferSize))
  | .callback false _ | .putC _ _ | .writeS _ _ | .drain _ => isTrue trivial

/-- The cursors lie in the ring, those that the waits keep too. -/
structure Tx.Ok (s : Tx) : Prop where
  head : s.head < txBufferSize
  tail : s.tail < txBufferSize
  waits : ∀ w ∈ s.waits, w.nextHead < txBufferSize

theorem nextHead_lt (n : Nat) : n % txBufferSize < txBufferSize := Nat.mod_lt _ (by decide)

/-! ### Writes -/

theorem Tx.Ok.put {s : Tx} {c : UInt8} {nextHead : Nat} (h : s.Ok)
    (hlt : nextHead < txBufferSize) : (s.put c nextHead).Ok := ⟨hlt, h.tail, h.waits⟩

/-- **A byte stored at the next head is the queue's last.** -/
theorem fifo_put {s : Tx} {c : UInt8} (h : s.Ok) (hroom : s.tail ≠ (s.head + 1) % txBufferSize) :
    (s.put c ((s.head + 1) % txBufferSize)).Fifo ↔ s.Fifo := by
  have hput : (s.put c ((s.head + 1) % txBufferSize)).queued = s.queued ++ [c] :=
    Slots.between_put h.tail h.head hroom.symm
  rw [Tx.Fifo, Tx.Fifo, hput, ← List.append_assoc]
  exact List.append_left_inj [c]

theorem serialPutC_ok {s : Tx} (h : s.Ok) (now : Nat) (c : UInt8) (rest : List UInt8) :
    (serialPutC now c rest s).1.Ok := by
  unfold serialPutC
  dsimp only
  split
  · refine ⟨h.head, h.tail, fun w hw => ?_⟩
    rcases List.mem_cons.mp hw with rfl | hw
    · exact nextHead_lt _
    · exact h.waits w hw
  · exact h.put (nextHead_lt _)

theorem serialPutC_fifo {s : Tx} (h : s.Ok) (now : Nat) (c : UInt8) (rest : List UInt8) :
    (serialPutC now c rest s).1.Fifo ↔ s.Fifo := by
  unfold serialPutC
  dsimp only
  split
  · exact Iff.rfl
  · next hroom => exact fifo_put h hroom

@[simp] theorem serialPutC_client (s : Tx) (now : Nat) (c : UInt8) (rest : List UInt8) :
    (serialPutC now c rest s).1.client = s.client := by
  unfold serialPutC
  dsimp only
  split <;> rfl

/-- A string that is written keeps the order, whether it was, and the client. -/
theorem serialWriteS_spec (now : Nat) (data : List UInt8) {s : Tx} (h : s.Ok) :
    (serialWriteS now data s).Ok ∧ ((serialWriteS now data s).Fifo ↔ s.Fifo) ∧
      (serialWriteS now data s).client = s.client := by
  induction data generalizing s with
  | nil => exact ⟨h, Iff.rfl, rfl⟩
  | cons c cs ih =>
    unfold serialWriteS
    split
    · exact ⟨h, Iff.rfl, rfl⟩
    · have hok := serialPutC_ok h now c cs
      have hfifo := serialPutC_fifo h now c cs
      have hclient := serialPutC_client s now c cs
      split
      · next s' heq =>
        rw [heq] at hok hfifo hclient
        obtain ⟨h1, h2, h3⟩ := ih hok
        exact ⟨h1, h2.trans hfifo, h3.trans hclient⟩
      · next s' heq =>
        rw [heq] at hok hfifo hclient
        exact ⟨hok, hfifo, hclient⟩

/-! ### Drains -/

theorem offered_le {s : Tx} (h : s.Ok) :
    s.offered ≤ (s.head + txBufferSize - s.tail) % txBufferSize := by
  rw [Slots.distance_eq h.tail h.head, Tx.offered]
  have hhead := h.head
  split <;> omega

/-- The slots that a `write` is offered do not wrap. -/
theorem tail_add_lt {s : Tx} {i : Nat} (h : s.Ok) (hi : i < s.offered) :
    s.tail + i < txBufferSize := by
  have hhead := h.head
  rw [Tx.offered] at hi
  split at hi <;> omega

/-- **A drain takes the front.** What the peer took is a prefix of what was offered, and that is the
ring from its tail on. -/
theorem fifo_took {s : Tx} {w : Nat} (h : s.Ok) (hw : w ≤ s.offered) :
    (s.took w).Fifo ↔ s.Fifo := by
  have hslots : ((List.range w).map fun i => s.data (s.tail + i)) =
      Slots.slots txBufferSize s.data s.tail w := by
    refine List.map_congr_left fun i hi => ?_
    rw [Nat.mod_eq_of_lt (tail_add_lt h (Nat.lt_of_lt_of_le (List.mem_range.mp hi) hw))]
  have hqueued : s.queued = Slots.slots txBufferSize s.data s.tail w ++ (s.took w).queued :=
    Slots.between_take h.tail h.head (Nat.le_trans hw (offered_le h))
  rw [Tx.Fifo, Tx.Fifo, hqueued, ← List.append_assoc, ← hslots]
  rfl

/-- No drain brings a client back. -/
theorem txDrain_client {ps : List Peer} {s : Tx} (h : (txDrain ps s).client = true) :
    s.client = true := by
  induction ps generalizing s with
  | nil => exact h
  | cons p ps ih =>
    unfold txDrain at h
    split at h
    · exact h
    · split at h
      · exact h
      · split at h
        · exact h
        · exact ih (s := s.took _) h
        · have hdrop : (dropClient s).client = true := by
            split at h
            · exact ih h
            · exact h
          exact absurd hdrop (by simp [dropClient])

theorem txDrain_spec (ps : List Peer) {s : Tx} (h : s.Ok) (hc : (txDrain ps s).client = true) :
    (txDrain ps s).Ok ∧ ((txDrain ps s).Fifo ↔ s.Fifo) := by
  induction ps generalizing s with
  | nil => exact ⟨h, Iff.rfl⟩
  | cons p ps ih =>
    have hclient : s.client = true := txDrain_client hc
    unfold txDrain at hc ⊢
    split at hc
    · next hempty =>
      rw [if_pos hempty]
      exact ⟨h, Iff.rfl⟩
    · next hempty =>
      rw [if_neg hempty]
      simp only [hclient, Bool.not_true, Bool.false_and, Bool.false_eq_true, if_false] at hc ⊢
      split at hc
      · exact ⟨h, Iff.rfl⟩
      · next w =>
        have hok : (s.took (min (w + 1) s.offered)).Ok := ⟨h.head, nextHead_lt _, h.waits⟩
        obtain ⟨h1, h2⟩ := ih hok hc
        exact ⟨h1, h2.trans (fifo_took h (Nat.min_le_right _ _))⟩
      · -- an error drops the client, which nothing here brings back
        have hdrop : (dropClient s).client = true := by
          split at hc
          · exact txDrain_client hc
          · exact hc
        exact absurd hdrop (by simp [dropClient])

/-! ### The end of a wait

The wait's end stores at the head it computed before; it appends exactly when the head is still
there. -/

/-- **A byte stored after a wait.** The queue grows by it exactly if the head that the call
computed before the wait is still the next one. -/
theorem fifo_put_iff {s : Tx} {c : UInt8} {nextHead : Nat} (h : s.Ok) (hfifo : s.Fifo)
    (hlt : nextHead < txBufferSize) (hne : s.tail ≠ nextHead) :
    (s.put c nextHead).Fifo ↔ nextHead = (s.head + 1) % txBufferSize := by
  constructor
  · intro hput
    -- both sides have grown by one byte, so the cursors' distance has
    have hlen : (nextHead + txBufferSize - s.tail) % txBufferSize =
        (s.head + txBufferSize - s.tail) % txBufferSize + 1 := by
      have h1 := congrArg List.length hfifo
      have h2 : (s.sent ++ (s.put c nextHead).queued).length = (s.accepted ++ [c]).length :=
        congrArg List.length hput
      simp only [List.length_append, List.length_cons, List.length_nil, Tx.queued,
        Slots.length_between] at h1 h2
      simp only [Tx.put] at h2
      omega
    have hhead := h.head
    have htail := h.tail
    rw [Slots.distance_eq h.tail hlt, Slots.distance_eq h.tail h.head] at hlen
    rw [Slots.succ_mod_eq h.head]
    split_ifs at hlen ⊢ <;> omega
  · rintro rfl
    exact (fifo_put h hne).mpr hfifo

theorem waitEnds_spec (now : Nat) {s : Tx} {w : Wait} {ws : List Wait} (h : s.Ok)
    (hw : s.waits = w :: ws) (hfifo : s.Fifo) (hne : s.tail ≠ w.nextHead) :
    (waitEnds now w ws s).Ok ∧
      ((waitEnds now w ws s).Fifo ↔ w.nextHead = (s.head + 1) % txBufferSize) := by
  have hlt : w.nextHead < txBufferSize := h.waits w (hw ▸ List.mem_cons_self)
  have hok : Tx.Ok { s with blocked := false, waits := ws } :=
    ⟨h.head, h.tail, fun v hv => h.waits v (hw ▸ List.mem_cons_of_mem w hv)⟩
  obtain ⟨h1, h2, -⟩ := serialWriteS_spec now w.rest (hok.put (c := w.c) hlt)
  exact ⟨h1, h2.trans (fifo_put_iff hok hfifo hlt hne)⟩

theorem waitTest_spec (now seen t0 : Nat) {s : Tx} {w : Wait} {ws : List Wait} (h : s.Ok)
    (hw : s.waits = w :: ws) (hfifo : s.Fifo) :
    (waitTest now { w with seenTail := seen, t0 := t0 } ws s).Ok ∧
      ((waitTest now { w with seenTail := seen, t0 := t0 } ws s).Fifo ↔
        (s.tail ≠ w.nextHead → w.nextHead = (s.head + 1) % txBufferSize)) := by
  unfold waitTest
  split
  · next heq =>
    refine ⟨⟨h.head, h.tail, ?_⟩, iff_of_true hfifo fun hne => absurd heq hne⟩
    intro v hv
    rcases List.mem_cons.mp hv with rfl | hv
    · exact h.waits w (hw ▸ List.mem_cons_self)
    · exact h.waits v (hw ▸ List.mem_cons_of_mem w hv)
  · next hne =>
    obtain ⟨h1, h2⟩ := waitEnds_spec now h hw hfifo hne
    exact ⟨h1, h2.trans ⟨fun h _ => h, fun h => h hne⟩⟩

/-! ### Runs

Every step but one keeps the ring a FIFO, and that one is decided by the condition. -/

/-- **One step.** From an ordered queue the step leads to an ordered queue exactly if it does
not end a wait with the head moved. -/
theorem txStep_fifo {s t : Tx} {l : TxLabel} (h : s.Ok) (hfifo : s.Fifo)
    (hstep : txStep s l = some t) (hc : t.client = true) :
    t.Ok ∧ (t.Fifo ↔ HeadUnmoved s l) := by
  cases l with
  | putC now c =>
    cases hstep
    exact ⟨serialPutC_ok h now c [], iff_of_true ((serialPutC_fifo h now c []).mpr hfifo) trivial⟩
  | writeS now data =>
    cases hstep
    obtain ⟨h1, h2, -⟩ := serialWriteS_spec now data h
    exact ⟨h1, iff_of_true (h2.mpr hfifo) trivial⟩
  | drain ps =>
    cases hstep
    obtain ⟨h1, h2⟩ := txDrain_spec ps h hc
    exact ⟨h1, iff_of_true (h2.mpr hfifo) trivial⟩
  | callback ok now =>
    simp only [txStep, callbackReturns] at hstep
    cases hw : s.waits with
    | nil =>
      rw [hw] at hstep
      cases hstep
    | cons w ws =>
      rw [hw] at hstep
      have hends : HeadUnmoved s (.callback true now) ↔
          (s.tail ≠ w.nextHead → w.nextHead = (s.head + 1) % txBufferSize) := by
        simp only [HeadUnmoved, hw, List.head?_cons, Option.mem_some_iff, forall_eq']
      cases ok with
      | false =>
        -- the call returns false and has stored nothing
        cases hstep
        have hok : Tx.Ok { s with waits := ws } :=
          ⟨h.head, h.tail, fun v hv => h.waits v (hw ▸ List.mem_cons_of_mem w hv)⟩
        obtain ⟨h1, h2, -⟩ := serialWriteS_spec now w.rest hok
        exact ⟨h1, iff_of_true (h2.mpr hfifo) trivial⟩
      | true =>
        rw [hends]
        simp only [Bool.not_true, Bool.false_eq_true, if_false] at hstep
        split_ifs at hstep with hprogress hstall
        · cases hstep
          exact waitTest_spec now s.tail now h hw hfifo
        · -- a stall drops the client
          cases hstep
          have hgone : (waitEnds now w ws { dropClient s with tail := s.head }).client = false := by
            refine (serialWriteS_spec now w.rest ?_).2.2
            exact ⟨h.waits w (hw ▸ List.mem_cons_self), h.head,
              fun v hv => h.waits v (hw ▸ List.mem_cons_of_mem w hv)⟩
          rw [hgone] at hc
          cases hc
        · cases hstep
          exact waitTest_spec now w.seenTail w.t0 h hw hfifo

/-- **The TX ring is a FIFO while no wait ends with the head moved under it.** In every run of
outer and nested writes, drains and callbacks that keeps the client and in which each wait that
ends finds the head where it left it, what went out and what the ring holds are the accepted
bytes in the order of their returns. From there the order survives the next step exactly if
that step meets the condition too. -/
theorem tx_fifo {s t : Tx} (h0 : s.Start)
    (hrun : Runs.Reach txStep (fun s l => KeepsClient s l ∧ HeadUnmoved s l) s t) :
    t.Fifo ∧ ∀ l u, txStep t l = some u → u.client = true → (u.Fifo ↔ HeadUnmoved t l) := by
  have hinv : t.Ok ∧ t.Fifo := by
    refine hrun.invariant (P := fun t => t.Ok ∧ t.Fifo) ?_ ?_
    · refine ⟨⟨h0.head, h0.tail, by simp [h0.waits]⟩, ?_⟩
      rw [Tx.Fifo, h0.sent, h0.accepted, List.nil_append]
    · rintro t l u ⟨hok, hfifo⟩ ⟨hkeep, hunmoved⟩ hstep
      obtain ⟨h1, h2⟩ := txStep_fifo hok hfifo hstep (hkeep u hstep)
      exact ⟨h1, h2.mpr hunmoved⟩
  exact ⟨hinv.2, fun l u hstep hc => (txStep_fifo hinv.1 hinv.2 hstep hc).2⟩

/-- A full ring with no call in progress. -/
def fullRing : Tx where
  data := fun _ => 120
  head := 2047
  tail := 0
  listening := true
  client := true
  blocked := false
  waits := []
  sent := []
  accepted := List.replicate 2047 120

theorem fullRing_start : fullRing.Start where
  head := by decide
  tail := by decide
  client := rfl
  waits := rfl
  sent := rfl
  accepted := by
    change List.replicate 2047 120 = (List.range 2047).map fun _ => (120 : UInt8)
    rw [List.map_const', List.length_range]

/-- A wait in whose callback two bytes go out and nothing is written. -/
theorem tx_fifo_drained_wait :
    ∃ t, Runs.Reach txStep (fun s l => KeepsClient s l ∧ HeadUnmoved s l) fullRing t ∧
      t.accepted.length = 2048 ∧ t.Fifo := by
  have hex : ∃ t, Runs.Reach txStep (fun s l => KeepsClient s l ∧ HeadUnmoved s l) fullRing t ∧
      t.accepted.length = 2048 :=
    Runs.exists_reach_of_exec [.putC 0 97, .drain [.room 2], .callback true 1]
      (by decide +kernel)
  obtain ⟨t, hrun, hlen⟩ := hex
  exact ⟨t, hrun, hlen, (tx_fifo fullRing_start hrun).1⟩

/-- **A report from the callback swallows the byte that waits.** The callback drains two bytes
and reports one: it takes the slot that the waiting call meant to leave free, and the waiting
byte is stored behind the head it then puts back. -/
theorem nested_write_loses_byte :
    ¬∀ s t : Tx, s.Start → Runs.Reach txStep KeepsClient s t → t.Fifo := by
  intro hall
  have hex : ∃ t, Runs.Reach txStep KeepsClient fullRing t ∧
      (t.sent ++ t.queued).length ≠ t.accepted.length :=
    Runs.exists_reach_of_exec [.putC 0 97, .drain [.room 2], .putC 0 98, .callback true 1]
      (by decide +kernel)
  obtain ⟨t, hrun, hlen⟩ := hex
  exact hlen (congrArg List.length (hall fullRing t fullRing_start hrun))

end Glowforge.Serial
