import Glowforge.Port.Frame

/-!
# Glowforge — an open envelope is the port's alone

While the envelope is open for the bed check the sender's bytes wait in the ring. The hold is set
by `ctlport_poll`, ahead of the requests that the poll then handles: an envelope that a request
opens is held by the next poll, and not while a line's status is outstanding. The request looks at
neither the ring nor the line that the core is in.

* **`EnvelopeWatch`** — the envelope was opened and no such poll has come since; the core is in a line of the
  sender's that has something in it.
* **`opensClear`** — the envelope is opened with the core in no such line, and what the core reads ahead
  of that poll it reads from a ring without a claim of the sender's.
* **`Held`** — an open envelope that a poll has seen is held, and so is a port jog.
* **`open_envelope_holds`** — then no byte of the sender's passes the gate, and the core runs no line of
  the sender's against the opened edges.
-/

namespace Glowforge.Port

open Laser (SysState)
open Serial (Rx Status isEol)

/-! ## The gate

What stands beside the machine is the history that the condition needs: the poll that has not come yet,
and the line that the core is in. -/

/-- What the read gate lets pass whoever wrote it: a cancel, and an end of line between lines. -/
def gatePasses (r : Rx) : Bool :=
  match r.ring with
  | [] => true
  | c :: _ => c.byte == Serial.asciiCan || (isEol c.byte && !r.readMidline)

/-- The envelope has been opened, and no poll without a line outstanding has come since. -/
def recordOpening (s : State) (l : Label) (unseen : Bool) : Bool :=
  match l with
  | .pollHold => unseen && s.awaiting
  | .pollRead r => unseen || (!s.envelopeOpen && (pollRead r s).envelopeOpen)
  | _ => unseen

/-- The history beside a run. -/
structure EnvelopeWatch where
  unseen : Bool
  texted : Bool
deriving DecidableEq

def EnvelopeWatch.start : EnvelopeWatch := ⟨false, false⟩

/-- The request that opens the envelope finds the core in no line of the sender's; and what the core reads
between it and that poll it reads of an injected line, or from a ring that holds nothing of the sender's
but ends of lines. -/
def opensClear (s : State) (h : EnvelopeWatch) : Label → Bool
  | .pollRead r =>
    s.envelopeOpen || !(pollRead r s).envelopeOpen || (!h.texted && !s.rx.readMidline)
  | .read _ | .getC => !(s.envelopeOpen && h.unseen) || s.rx.injLeft != 0 || !serialSenderPending s.rx
  | _ => true

structure Gate where
  opened : Bool
  jog : Bool
  hold : Bool

def State.gate (s : State) : Gate := ⟨s.envelopeOpen, s.portJog, s.rx.holdSender⟩

structure Held (g : Gate) (unseen : Bool) : Prop where
  opened : g.opened = true → unseen = false → g.hold = true
  jog : g.jog = true → g.hold = true

theorem Held.close {g : Gate} {unseen : Bool} (h : Held g unseen) : Held { g with opened := false } unseen :=
  ⟨by rintro ⟨⟩, h.jog⟩

theorem Held.of_closed {g : Gate} {unseen : Bool} (hclosed : g.opened = false)
    (hjog : g.jog = true → g.hold = true) : Held g unseen := by
  refine ⟨fun hopened => ?_, hjog⟩
  rw [hclosed] at hopened
  cases hopened

/-- What is held stays so where more is unseen. -/
theorem Held.more {g : Gate} {unseen : Bool} (h : Held g unseen) (more : Bool) : Held g (unseen || more) :=
  ⟨fun hopened hseen => h.opened hopened (Bool.or_eq_false_iff.mp hseen).1, h.jog⟩

/-! ## The steps

What each operation does to the gate, to the hold and to the client's jog. -/

theorem cancelPortJog_gate (s : State) : (cancelPortJog s).gate = s.gate := by
  obtain ⟨sent, jogs, heq⟩ := cancelPortJog_eq s
  rw [heq]
  rfl

theorem Held.dropPort {s : State} {unseen : Bool} (h : Held s.gate unseen) :
    Held (dropPortClient s).gate unseen := by
  cases hfd : s.fd with
  | none => rwa [dropPortClient_none hfd]
  | some conn =>
    obtain ⟨sent, jogs, heq⟩ := dropPortClient_eq hfd
    rw [heq]
    exact h.close

theorem Held.reply {e : Env} {a : Asker} {text : String} {s : State} {unseen : Bool}
    (h : Held s.gate unseen) : Held (reply e a text s).gate unseen := by
  unfold Port.reply
  split
  · exact h
  · split
    · exact h
    · exact h.dropPort

/-- A jog that the port takes over is held. -/
theorem Held.lineDone {e : Env} {status : Option Status} {s : State} {unseen : Bool}
    (h : Held s.gate unseen) : Held (lineDone e status s).gate unseen := by
  unfold Port.lineDone
  dsimp only
  split
  · exact Held.reply h
  · split
    · exact Held.reply h
    · refine Held.reply ?_
      split
      · exact ⟨fun _ _ => rfl, fun _ => rfl⟩
      · exact h
  · exact Held.reply h

theorem Held.inject {e : Env} {a : Asker} {line : List UInt8} {jog : Bool} {s : State} {unseen : Bool}
    (h : Held s.gate unseen) : Held (inject e a line jog s).gate unseen := by
  unfold Port.inject
  split
  · next htakes =>
    obtain ⟨-, -, hinject⟩ := takesLine_eq htakes
    rw [await, hinject]
    exact h
  · split
    · exact h
    · exact Held.reply (s := { s with trayWant := none }) h

theorem Held.told {e : Env} {s : State} {r : Rx} {unseen : Bool} (h : Held s.gate unseen)
    (hflush : Flushed s r) :
    Held (if s.rx.injActive then Port.lineDone e none { s with rx := r } else { s with rx := r }).gate
      unseen := by
  have hgate : ({ s with rx := r } : State).gate = s.gate := by
    rw [State.gate, hflush.hold]
    rfl
  split
  · refine Held.lineDone ?_
    rwa [hgate]
  · rwa [hgate]

theorem Held.dropClient {e : Env} {s : State} {unseen : Bool} (h : Held s.gate unseen)
    (hlined : Lined s) : Held (dropClient e s).gate unseen := by
  unfold Port.dropClient
  split
  · have hflags : Flagged { s.rx with client := false } := { hlined.flags with }
    exact Held.told (s := { s with rx := { s.rx with client := false }, loopback := false }) h
      (flushed_flush (s := { s with rx := { s.rx with client := false }, loopback := false }) hflags)
  · exact h

theorem Held.dropSender {e : Env} {s : State} {unseen : Bool} (h : Held s.gate unseen)
    (hlined : Lined s) : Held (serialDropSender e s).gate unseen := by
  unfold serialDropSender
  split
  · exact h
  · exact Held.dropClient (s := { s with messages := _ }) h ⟨hlined.flags, hlined.deferred⟩

/-- A request that opens the envelope leaves it unseen. -/
theorem Held.handled {e : Env} {a : Asker} {req : List UInt8} {s t : State} {unseen : Bool}
    (h : Held s.gate unseen) (hlined : Lined s) (hhandled : Handled e a req s t) :
    Held t.gate (unseen || (!s.envelopeOpen && t.envelopeOpen)) := by
  cases hhandled with
  | answers text => exact h.reply.more _
  | cancels hreq =>
    refine Held.more (Held.reply ?_) _
    rwa [cancelPortJog_gate]
  | envelope opening hidle =>
    have hgate : Held (Port.reply e a "ok\n" { s with envelopeOpen := opening }).gate
        (unseen || (!s.envelopeOpen && opening)) := by
      refine Held.reply ⟨fun hopened hseen => ?_, h.jog⟩
      have hopening : opening = true := hopened
      rw [hopening, Bool.and_true, Bool.or_eq_false_iff, Bool.not_eq_false'] at hseen
      exact h.opened hseen.2 hseen.1
    refine ⟨fun hopened hseen => hgate.opened hopened ?_, hgate.jog⟩
    have hopened : (Port.reply e a "ok\n" { s with envelopeOpen := opening }).envelopeOpen = true := hopened
    -- the reply leaves the envelope as it is, or closes it
    have hsame : opening = true := by
      unfold Port.reply at hopened
      split at hopened
      · exact hopened
      · next conn hfd =>
        split at hopened
        · exact hopened
        · obtain ⟨sent, jogs, heq⟩ := dropPortClient_eq (s := { s with envelopeOpen := opening }) hfd
          rw [heq] at hopened
          cases hopened
    rw [hopened] at hseen
    rwa [hsame]
  | keepsOut hjog hclosed =>
    exact (Held.reply (Held.dropSender (s := { s with keepOut := true }) h
      ⟨hlined.flags, hlined.deferred⟩)).more _
  | letsIn => exact (Held.reply (s := { s with keepOut := false }) h).more _
  | injects k hasks => exact (Held.inject (s := { s with trayWant := k.want.or s.trayWant }) h).more _

theorem Held.pollRead {r : Read} {s : State} {unseen : Bool} (h : Held s.gate unseen) (hlined : Lined s) :
    Held (pollRead r s).gate (recordOpening s (.pollRead r) unseen) := by
  simp only [recordOpening]
  unfold Port.pollRead
  split
  · exact h.more _
  · exact h.dropPort.more _
  · next conn c e hfd =>
    split
    · exact Held.handled (s := { s with
        req := [], asked := s.asked + 1, log := s.log ++ [.asked conn s.asked] }) h
        ⟨hlined.flags, hlined.deferred⟩ (handleRequest_handled _ _ _ _)
    · split
      · exact h.more _
      · split
        · exact h.more _
        · exact h.dropPort.more _

/-- **A poll without a line outstanding** holds an open envelope, or closes it for the sender. -/
theorem Held.pollHold {s : State} {unseen : Bool} (h : Held s.gate unseen) :
    Held (pollHold s).gate (unseen && s.awaiting) := by
  cases hawaiting : s.awaiting with
  | true =>
    have hjog : pollJog s = s := by simp [pollJog, hawaiting]
    rw [Port.pollHold, hjog, Bool.and_true]
    simp only [pollEnvelope, hawaiting, Bool.not_true, Bool.and_false, Bool.false_eq_true, if_false]
    split
    · next hclosed =>
      simp only [Bool.and_eq_true, Bool.not_eq_true'] at hclosed
      have hopened : s.gate.opened = false := hclosed.2
      split
      · exact h
      · next hjog => exact .of_closed hopened fun hj => absurd hj hjog
    · exact h
  | false =>
    -- the port jog is over, or it goes on and is held
    have hjog : ∃ t, pollJog s = t ∧ (t.gate.jog = true → t.gate.hold = true) ∧
        t.awaiting = false := by
      refine ⟨_, rfl, ?_⟩
      unfold pollJog
      split_ifs
      · exact ⟨by rintro ⟨⟩, hawaiting⟩
      · obtain ⟨sent, jogs, heq⟩ := cancelPortJog_eq s
        rw [heq]
        exact ⟨h.jog, hawaiting⟩
      · exact ⟨h.jog, hawaiting⟩
      · exact ⟨h.jog, hawaiting⟩
    obtain ⟨t, ht, hheld, hidle⟩ := hjog
    rw [Port.pollHold, ht, Bool.and_false]
    unfold pollEnvelope
    split
    · split
      · exact ⟨fun _ _ => rfl, fun _ => rfl⟩
      · split
        · next hport =>
          rw [cancelPortJog_gate]
          exact ⟨fun _ _ => hheld hport, hheld⟩
        · next hport => exact ⟨by rintro ⟨⟩, fun hj => absurd hj hport⟩
    · next hclosed =>
      have hclosed : t.gate.opened = false := by simpa [State.gate, hidle] using hclosed
      split
      · dsimp only
        split
        · exact .of_closed hclosed hheld
        · next hport => exact .of_closed hclosed fun hj => absurd hj hport
      · exact .of_closed hclosed hheld

/-- **Every step keeps the hold**, whatever the core reads. An envelope is opened by a request, and
the next poll without an outstanding line sets the hold before any other request is handled. -/
theorem step_held {s t : State} {l : Label} {unseen : Bool} (hstep : portStep s l = some t)
    (hlined : Lined s) (h : Held s.gate unseen) : Held t.gate (recordOpening s l unseen) := by
  -- a step that goes on with the injected line leaves the gate alone
  have hsame : ∀ r, SameLine s.rx r → Held ({ s with rx := r } : State).gate unseen := by
    intro r hr
    have hgate : ({ s with rx := r } : State).gate = s.gate := by
      rw [State.gate, hr.hold]
      rfl
    rwa [hgate]
  cases l with
  | byte data realtime now =>
    cases hstep
    split
    · exact h
    · exact hsame _ (rxByte_sameLine hlined.flags data)
  | connect loopback e =>
    cases hstep
    unfold accept
    split
    · exact h
    · exact h.dropClient hlined
  | drop e =>
    cases hstep
    exact h.dropClient hlined
  | welcome =>
    cases hstep
    exact hsame _ (welcome_sameLine hlined.flags)
  | pollHold =>
    cases hstep
    exact h.pollHold
  | pollAccept hungUp =>
    cases hstep
    rw [pollAccept_eq]
    split
    · exact h
    · exact h.dropPort
  | pollDeferred e =>
    cases hstep
    unfold pollDeferred
    split
    · exact h
    · split
      · next htakes =>
        obtain ⟨-, -, hinject⟩ := takesLine_eq htakes
        rw [await, hinject]
        exact h
      · split
        · exact Held.reply (s := { s with deferred := none, trayWant := none }) h
        · exact h
  | pollRead r =>
    simp only [portStep] at hstep
    split at hstep
    · cases hstep
      exact h.pollRead hlined
    · cases hstep
  | read skip =>
    obtain ⟨r, hr, rfl⟩ := Option.map_eq_some_iff.mp hstep
    exact hsame r (coreRead_sameLine hlined.flags hr)
  | complete run e =>
    obtain ⟨line, r, -, hr, rfl⟩ := coreReports_eq hstep
    obtain ⟨-, -, -, hhold⟩ := coreCompletes_flags hlined.flags hr
    obtain ⟨jogs, heq⟩ := acceptJog_eq line.owner (run line.entry s.rx.lastError).1 { s with rx := r }
    have hgate : ({ s with rx := r, jogs := jogs } : State).gate = s.gate := by
      rw [State.gate, hhold]
      rfl
    rw [report, heq]
    split
    · refine Held.lineDone ?_
      rwa [hgate]
    · rwa [hgate]
  | abort e =>
    cases hstep
    exact h.told (flushed_aborts hlined.flags)
  | cancel e =>
    cases hstep
    exact h.told (flushed_cancel hlined.flags)
  | core next =>
    cases hstep
    exact h
  | getC =>
    cases hstep
    cases hget : Serial.serialGetC s.rx with
    | none => exact h
    | some x => exact hsame _ (serialGetC_sameLine hlined.flags hget)
  | closeEnvelope =>
    cases hstep
    exact h.close

/-- A byte that is read with the gate held, and no injected line in front, passes it. -/
theorem serialGetC_passes {r t : Rx} {c : Serial.Cell} (hhold : r.holdSender = true) (hleft : r.injLeft = 0)
    (hget : Serial.serialGetC r = some (c, t)) : gatePasses r = true := by
  unfold Serial.serialGetC at hget
  cases hring : r.ring with
  | nil => rw [gatePasses, hring]
  | cons d rest =>
    rw [gatePasses, hring]
    rw [hring] at hget
    dsimp only at hget
    by_contra hno
    rw [if_pos] at hget
    · cases hget
    · simpa [hhold, hleft, not_or] using hno

/-! ## The line that the core is in

Ahead of the poll that holds it an open envelope is clear of the sender's lines by its opening: the core
is between them, and stays there. -/

/-- The last byte that the core read is one of the sender's, inside a line. -/
def inSenderLine (r : Rx) : Bool := r.injLeft == 0 && r.readMidline

def Label.reads : Label → Bool
  | .read _ | .getC => true
  | _ => false

/-- An open envelope is held from the poll that sees it on, and clear of the sender's lines until then. -/
structure Clear (s : State) (h : EnvelopeWatch) : Prop where
  lined : Lined s
  held : Held s.gate h.unseen
  between : s.envelopeOpen = true → h.unseen = true → inSenderLine s.rx = false
  texted : s.envelopeOpen = true → h.texted = false

/-- What a read returns of the sender's while the envelope is open. -/
theorem Clear.passes {s : State} {h : EnvelopeWatch} {c : Serial.Cell} {r : Rx} (hclear : Clear s h)
    (hread : opensClear s h .getC = true) (hopen : s.envelopeOpen = true)
    (hget : Serial.serialGetC s.rx = some (c, r)) (hsender : c.owner = none) :
    c.byte = Serial.asciiCan ∨ (isEol c.byte = true ∧ s.rx.readMidline = false) := by
  obtain ⟨rest, hring, -⟩ := Serial.serialGetC_cases hget
  -- the byte in front is the sender's, so no injected line is left
  have hleft : s.rx.injLeft = 0 := by
    have hqueue := hclear.lined.flags.ring
    rw [hring] at hqueue
    generalize s.rx.injLeft = n at hqueue
    cases hqueue with
    | sender => rfl
    | eol he ho hcs =>
      rw [hsender] at ho
      cases ho
    | byte he ho hrest =>
      rw [hsender] at ho
      cases ho
  cases hseen : h.unseen with
  | false =>
    have hpasses := serialGetC_passes (hclear.held.opened hopen hseen) hleft hget
    rw [gatePasses, hring] at hpasses
    simpa using hpasses
  | true =>
    have hnone : serialSenderPending s.rx = false := by
      simpa [opensClear, hopen, hseen, hleft] using hread
    simp only [serialSenderPending, hleft, List.drop_zero, hring, List.any_cons, Bool.or_eq_false_iff,
      Bool.not_eq_false'] at hnone
    have hbetween := hclear.between hopen hseen
    rw [inSenderLine, hleft, beq_self_eq_true, Bool.true_and] at hbetween
    exact .inr ⟨hnone.1, hbetween⟩

end Glowforge.Port
