import Glowforge.Port.Machine
import Glowforge.Serial.Inject

/-!
# Glowforge — what the port's steps can do

* **`Flagged`** — the flags of the multiplexer agree: an injected line with bytes left or a
  status due is active, and what is left of it are the ring's first bytes.
* **`SameLine`** — what a step that neither injects a line nor ends one leaves alone.
* **`handleRequest_handled`** — what a request can come to.
* **`step_lined`** — the flags agree in every state.
-/

namespace Glowforge.Port

open Laser (SysState)
open Serial (Rx Status isEol)

/-! ## The multiplexer

The flags that count an injected line, and what the operations of the ring do to them. -/

/-- An injected line that has bytes left, or whose status is due, is active; the sender's bytes
lie behind it. -/
structure Flagged (r : Rx) : Prop where
  left : 0 < r.injLeft → r.injActive = true
  due : r.injStatusDue = true → r.injActive = true ∧ r.injLeft = 0
  ring : Serial.Queued (r.injected - 1) r.injLeft r.ring
  eol : isEol r.senderEol = true

theorem flagged_start : Flagged Rx.start := ⟨by decide, by decide, .nil _, rfl⟩

/-- With no line active nothing is left of one. -/
theorem Flagged.left_eq {r : Rx} (h : Flagged r) (hactive : r.injActive = false) : r.injLeft = 0 := by
  by_contra hpos
  rw [h.left (Nat.pos_of_ne_zero hpos)] at hactive
  cases hactive

/-- The step goes on with the line that is injected, and leaves the gate as it is. -/
structure SameLine (r t : Rx) : Prop where
  flags : Flagged t
  active : t.injActive = r.injActive
  injected : t.injected = r.injected
  hold : t.holdSender = r.holdSender

/-- A flush leaves no line active, and the lines injected so far are the same. -/
theorem serialRxFlush_flags {r : Rx} (h : Flagged r) :
    Flagged (Serial.serialRxFlush r) ∧ (Serial.serialRxFlush r).injActive = false ∧
      (Serial.serialRxFlush r).injected = r.injected ∧
      (Serial.serialRxFlush r).holdSender = r.holdSender := by
  unfold Serial.serialRxFlush
  dsimp only
  split
  · exact ⟨⟨by rintro ⟨⟩, by rintro ⟨⟩, .nil _, h.eol⟩, rfl, rfl, rfl⟩
  · next hnot =>
    have hactive : r.injActive = false := by simpa using hnot
    have hleft := h.left_eq hactive
    refine ⟨⟨h.left, h.due, ?_, h.eol⟩, hactive, rfl, rfl⟩
    simp only [hleft]
    exact .nil _

theorem serialRxFlush_running (r : Rx) : (Serial.serialRxFlush r).running = r.running := by
  unfold Serial.serialRxFlush
  dsimp only
  split <;> rfl

/-- The injected line goes on with its next byte. -/
theorem queued_rest {k n : Nat} {c : Serial.Cell} {cs : List Serial.Cell}
    (h : Serial.Queued k n (c :: cs)) (hn : n ≠ 0) : Serial.Queued k (n - 1) cs := by
  cases h with
  | sender => exact absurd rfl hn
  | eol he ho hcs => exact .sender hcs
  | byte he ho hrest => exact hrest

theorem serialGetC_sameLine {r t : Rx} {c : Serial.Cell} (h : Flagged r)
    (hget : Serial.serialGetC r = some (c, t)) : SameLine r t := by
  obtain ⟨rest, hring, ⟨hleft, lineOpen, rfl⟩ | ⟨hleft, rfl⟩⟩ := Serial.serialGetC_cases hget
  · have hqueue := h.ring
    rw [hleft, hring] at hqueue
    refine ⟨⟨h.left, h.due, ?_, h.eol⟩, rfl, rfl, rfl⟩
    simp only [hleft]
    exact .sender fun d hd => hqueue.sender_of_zero d (List.mem_cons_of_mem c hd)
  · have hactive := h.left (Nat.pos_of_ne_zero hleft)
    rw [Serial.countInjected_eq]
    refine ⟨⟨fun _ => hactive, fun hdue => ⟨hactive, ?_⟩, ?_, h.eol⟩, rfl, rfl, rfl⟩
    · by_contra hmore
      simp only [hmore, if_false] at hdue
      exact hleft (h.due hdue).2
    · have hqueue := h.ring
      rw [hring] at hqueue
      exact queued_rest hqueue hleft

theorem coreRead_sameLine {r t : Rx} {skip : Bool} (h : Flagged r)
    (hread : Serial.coreRead skip r = some t) : SameLine r t := by
  unfold Serial.coreRead at hread
  split at hread
  · cases hread
  · split at hread
    · cases hread
      exact ⟨h, rfl, rfl, rfl⟩
    · next c u hget =>
      obtain ⟨hflags, hactive, hinjected, hhold⟩ := serialGetC_sameLine h hget
      split at hread
      · cases hread
        exact ⟨{ hflags with }, hactive, hinjected, hhold⟩
      · cases hread
        exact ⟨{ hflags with }, hactive, hinjected, hhold⟩

/-- The status of a line ends the injected one where its status is due. -/
theorem injectStatusMessage_flags {r : Rx} (h : Flagged r) (status : Status) :
    Flagged (Serial.injectStatusMessage status r) ∧
      (Serial.injectStatusMessage status r).injActive = (r.injActive && !r.injStatusDue) ∧
      (Serial.injectStatusMessage status r).injected = r.injected ∧
      (Serial.injectStatusMessage status r).holdSender = r.holdSender := by
  unfold Serial.injectStatusMessage
  split
  · next hdue =>
    refine ⟨⟨fun hleft => ?_, by rintro ⟨⟩, h.ring, h.eol⟩, ?_, rfl, rfl⟩
    · exact absurd (h.due hdue).2 (Nat.ne_of_gt hleft)
    · rw [hdue, Bool.not_true, Bool.and_false]
      rfl
  · next hdue =>
    refine ⟨{ h with }, ?_, rfl, rfl⟩
    rw [show r.injStatusDue = false from by simpa using hdue, Bool.not_false, Bool.and_true]

/-- The core has run its line: behind the report it runs none. -/
theorem coreCompletes_eq {r t : Rx} {run : Status → Status → Status × Status}
    (hdone : Serial.coreCompletes run r = some t) : ∃ status error senderLines held lines,
      t = Serial.injectStatusMessage status { r with
        running := none, lastError := error, senderLines := senderLines, held := held, lines := lines } := by
  unfold Serial.coreCompletes at hdone
  split at hdone
  · cases hdone
  · next line _ =>
    cases hdone
    cases line.owner with
    | none => exact ⟨_, _, _, _, r.lines, rfl⟩
    | some k => exact ⟨_, _, r.senderLines, r.held, _, rfl⟩

theorem coreCompletes_flags {r t : Rx} {run : Status → Status → Status × Status} (h : Flagged r)
    (hdone : Serial.coreCompletes run r = some t) :
    Flagged t ∧ t.injActive = (r.injActive && !r.injStatusDue) ∧ t.injected = r.injected ∧
      t.holdSender = r.holdSender := by
  obtain ⟨status, error, senderLines, held, lines, rfl⟩ := coreCompletes_eq hdone
  exact injectStatusMessage_flags (r := { r with
    running := none, lastError := error, senderLines := senderLines, held := held, lines := lines }) { h with } status

theorem injectStatusMessage_running (status : Status) (r : Rx) :
    (Serial.injectStatusMessage status r).running = r.running := by
  unfold Serial.injectStatusMessage
  split <;> rfl

theorem coreCompletes_running {run : Status → Status → Status × Status} {r t : Rx}
    (hdone : Serial.coreCompletes run r = some t) : t.running = none := by
  obtain ⟨status, error, senderLines, held, lines, rfl⟩ := coreCompletes_eq hdone
  rw [injectStatusMessage_running]

theorem rxByte_sameLine {r : Rx} (h : Flagged r) (data : UInt8) : SameLine r (Serial.rxByte data r) := by
  unfold Serial.rxByte
  split
  · exact ⟨{ h with }, rfl, rfl, rfl⟩
  · split
    · exact ⟨{ h with ring := h.ring.unwrite }, rfl, rfl, rfl⟩
    · have hring : Serial.Queued (r.injected - 1) r.injLeft (r.ring ++ [Serial.Cell.mk data none]) :=
        h.ring.append rfl
      dsimp only
      split
      · next heol => exact ⟨{ h with ring := hring, eol := heol }, rfl, rfl, rfl⟩
      · exact ⟨{ h with ring := hring }, rfl, rfl, rfl⟩

theorem welcome_sameLine {r : Rx} (h : Flagged r) : SameLine r (Serial.welcome r) := by
  unfold Serial.welcome
  split
  · exact ⟨{ h with }, rfl, rfl, rfl⟩
  · exact ⟨h, rfl, rfl, rfl⟩

/-- The multiplexer takes a line only with none in flight. -/
theorem takesLine_eq {line : List UInt8} {r : Rx} (h : takesLine line r = true) :
    r.injActive = false ∧ r.ring = [] ∧ Serial.serialInjectLine line r = { r with
      ring := line.map (Serial.Cell.mk · (some r.injected)) ++ [Serial.Cell.mk r.senderEol (some r.injected)]
      injLeft := line.length + 1
      injActive := true
      injFirst := true
      injStatusDue := false
      injected := r.injected + 1
      lines := Function.update r.lines r.injected ⟨none, []⟩ } := by
  simp only [takesLine, Bool.not_eq_true', Bool.or_eq_false_iff, decide_eq_false_iff_not,
    Bool.not_eq_false', List.isEmpty_iff, List.isEmpty_eq_false_iff] at h
  obtain ⟨⟨⟨⟨⟨hactive, hmid⟩, hdisc⟩, hline⟩, hring⟩, hroom⟩ := h
  refine ⟨hactive, hring, ?_⟩
  rw [Serial.serialInjectLine, if_neg]
  simp [hactive, hmid, hdisc, hline, hring]
  omega

/-! ## The ring behind the client

Dropping a client, replying to it and injecting a line, each in terms of the ring it leaves. -/

theorem Flagged.hold {r : Rx} (h : Flagged r) (on : Bool) : Flagged { r with holdSender := on } :=
  { h with }

/-- A line without a terminator is injected. -/
theorem Flagged.inject {r : Rx} (h : Flagged r) {line : List UInt8} (htakes : takesLine line r = true)
    (hline : ∀ b ∈ line, isEol b = false) : Flagged (Serial.serialInjectLine line r) := by
  obtain ⟨-, -, hinject⟩ := takesLine_eq htakes
  rw [hinject]
  exact ⟨fun _ => rfl, by rintro ⟨⟩, Serial.Queued.inject h.eol hline, h.eol⟩

theorem cancelPortJog_eq (s : State) :
    ∃ sent jogs, cancelPortJog s = { s with cancelSent := sent, jogs := jogs } := by
  unfold cancelPortJog
  split
  · exact ⟨true, _, rfl⟩
  · exact ⟨s.cancelSent, s.jogs, rfl⟩

theorem cancelPortJog_rx (s : State) : (cancelPortJog s).rx = s.rx := by
  obtain ⟨sent, jogs, heq⟩ := cancelPortJog_eq s
  rw [heq]

/-- A client that is dropped takes its request and its deferred line with it. -/
theorem dropPortClient_eq {s : State} {conn : Nat} (h : s.fd = some conn) :
    ∃ sent jogs, dropPortClient s = { s with
      fd := none
      req := []
      deferred := none
      envelopeOpen := false
      cancelSent := sent
      jogs := jogs } := by
  obtain ⟨sent, jogs, heq⟩ := cancelPortJog_eq
    { s with fd := none, req := [], deferred := none, jogs := s.jogs.map (Jog.drop conn) }
  refine ⟨sent, jogs, ?_⟩
  simp only [dropPortClient, h, heq]
  rfl

theorem dropPortClient_none {s : State} (h : s.fd = none) : dropPortClient s = s := by
  simp only [dropPortClient, h]

theorem dropPortClient_rx (s : State) : (dropPortClient s).rx = s.rx := by
  cases h : s.fd with
  | none => rw [dropPortClient_none h]
  | some conn =>
    obtain ⟨sent, jogs, heq⟩ := dropPortClient_eq h
    rw [heq]

theorem reply_rx (e : Env) (a : Asker) (text : String) (s : State) : (reply e a text s).rx = s.rx := by
  unfold reply
  split
  · rfl
  · split
    · rfl
    · exact dropPortClient_rx s

/-- The ring, and the line that waits to go into it. -/
structure Lined (s : State) : Prop where
  flags : Flagged s.rx
  deferred : ∀ d ∈ s.deferred, ∀ b ∈ d.line, isEol b = false

/-- A reply keeps the line that waits, or drops it. -/
theorem reply_deferred (e : Env) (a : Asker) (text : String) (s : State) :
    (reply e a text s).deferred = s.deferred ∨ (reply e a text s).deferred = none := by
  unfold reply
  split
  · exact .inl rfl
  · next conn hfd =>
    split
    · exact .inl rfl
    · obtain ⟨sent, jogs, heq⟩ := dropPortClient_eq hfd
      rw [heq]
      exact .inr rfl

theorem Lined.reply {e : Env} {a : Asker} {text : String} {s : State} (h : Lined s) :
    Lined (reply e a text s) := by
  refine ⟨by rw [reply_rx]; exact h.flags, ?_⟩
  rcases reply_deferred e a text s with heq | heq
  · rw [heq]
    exact h.deferred
  · rw [heq]
    rintro _ ⟨⟩

theorem Lined.lineDone {e : Env} {status : Option Status} {s : State} (h : Lined s) :
    Lined (lineDone e status s) := by
  unfold Port.lineDone
  dsimp only
  split
  · exact Lined.reply (s := { s with awaiting := false, trayWant := none }) ⟨h.flags, h.deferred⟩
  · split
    · exact Lined.reply (s := { s with awaiting := false, trayWant := none }) ⟨h.flags, h.deferred⟩
    · refine Lined.reply ?_
      split
      · exact ⟨h.flags.hold true, h.deferred⟩
      · exact ⟨h.flags, h.deferred⟩
  · exact Lined.reply (s := { s with awaiting := false, trayWant := none }) ⟨h.flags, h.deferred⟩

theorem Lined.inject {e : Env} {a : Asker} {line : List UInt8} {jog : Bool} {s : State}
    (h : Lined s) (hline : ∀ b ∈ line, isEol b = false) : Lined (inject e a line jog s) := by
  unfold Port.inject
  split
  · next htakes => exact ⟨h.flags.inject htakes hline, h.deferred⟩
  · split
    · refine ⟨h.flags, ?_⟩
      rintro d ⟨⟩
      exact hline
    · exact Lined.reply (s := { s with trayWant := none }) ⟨h.flags, h.deferred⟩

theorem Lined.dropPort {s : State} (h : Lined s) : Lined (dropPortClient s) := by
  cases hfd : s.fd with
  | none => rwa [dropPortClient_none hfd]
  | some conn =>
    obtain ⟨sent, jogs, heq⟩ := dropPortClient_eq hfd
    rw [heq]
    exact ⟨h.flags, by rintro _ ⟨⟩⟩

/-! ### Flushes

Every path that empties the ring empties the flags with it. -/

/-- A flush, with the injected line's source told. -/
structure Flushed (s : State) (r : Rx) : Prop where
  flags : Flagged r
  active : r.injActive = false
  injected : r.injected = s.rx.injected
  hold : r.holdSender = s.rx.holdSender

theorem flushed_flush {s : State} (h : Flagged s.rx) : Flushed s (Serial.serialRxFlush s.rx) := by
  obtain ⟨hflags, hactive, hinjected, hhold⟩ := serialRxFlush_flags h
  exact ⟨hflags, hactive, hinjected, hhold⟩

theorem flushed_cancel {s : State} (h : Flagged s.rx) : Flushed s (Serial.serialRxCancel s.rx) := by
  obtain ⟨hflags, hactive, hinjected, hhold⟩ := serialRxFlush_flags h
  refine ⟨⟨hflags.left, hflags.due, ?_, hflags.eol⟩, hactive, hinjected, hhold⟩
  have hleft := hflags.left_eq hactive
  simp only [Serial.serialRxCancel, hleft]
  exact .sender fun c hc => by rw [List.mem_singleton.mp hc]

theorem flushed_aborts {s : State} (h : Flagged s.rx) : Flushed s (Serial.coreAborts s.rx) := by
  obtain ⟨hflags, hactive, hinjected, hhold⟩ :=
    serialRxFlush_flags (r := { s.rx with running := none, coreMidline := false }) { h with }
  exact ⟨hflags, hactive, hinjected, hhold⟩

theorem Lined.told {e : Env} {s : State} {r : Rx} (h : Lined s) (hflush : Flushed s r) :
    Lined (if s.rx.injActive then Port.lineDone e none { s with rx := r } else { s with rx := r }) := by
  split
  · exact Lined.lineDone ⟨hflush.flags, h.deferred⟩
  · exact ⟨hflush.flags, h.deferred⟩

theorem Lined.dropClient {e : Env} {s : State} (h : Lined s) : Lined (dropClient e s) := by
  unfold Port.dropClient
  split
  · have hflags : Flagged { s.rx with client := false } := { h.flags with }
    exact Lined.told (s := { s with rx := { s.rx with client := false }, loopback := false })
      ⟨hflags, h.deferred⟩
      (flushed_flush (s := { s with rx := { s.rx with client := false }, loopback := false }) hflags)
  · exact h

theorem Lined.dropSender {e : Env} {s : State} (h : Lined s) : Lined (serialDropSender e s) := by
  unfold serialDropSender
  split
  · exact h
  · exact Lined.dropClient ⟨h.flags, h.deferred⟩

/-- With no line in flight nobody is told of a sender that is put out. -/
theorem serialDropSender_eq {e : Env} {s : State} (h : s.rx.injActive = false) :
    ∃ r loopback messages,
      serialDropSender e s = { s with rx := r, loopback := loopback, messages := messages } ∧
      (r = s.rx ∨ r = Serial.serialRxFlush { s.rx with client := false }) := by
  unfold serialDropSender
  split
  · exact ⟨s.rx, s.loopback, s.messages, rfl, .inl rfl⟩
  · unfold dropClient flush
    split
    · simp only [h, Bool.false_eq_true, if_false]
      exact ⟨_, _, _, rfl, .inr rfl⟩
    · exact ⟨s.rx, s.loopback, _, rfl, .inl rfl⟩

/-! ## The requests

The inversion lemma of `handleRequest`: a request is refused, answered, deferred or injected, and
for the last two it says which line and with what meaning. -/

/-- A line that a request asks for, and the tray mode that it is a switch to. -/
structure Ask where
  line : List UInt8
  jog : Bool
  want : Option Bool

def isJogLine (line : List UInt8) : Bool := ascii "$J=" <+: line

def isTrayLine (line : List UInt8) : Bool := line = ascii "M103 P1" || line = ascii "M103 P0"

/-- A jog passes its checks. -/
def jogPasses (e : Env) (words : List UInt8) (s : State) : Bool :=
  words ≠ [] && words.all jogWord && !e.released && !e.mcodeWaiting &&
    (s.core == .idle || s.core == .jog && s.portJog) &&
    !(serialSenderPending s.rx || senderSpoke senderQuietMs e s)

/-- A `$` command does. -/
def commandPasses (s : State) : Bool := (s.core == .idle || s.core == .alarm) && !serialSenderPending s.rx

/-- A tray switch does. -/
def trayPasses (e : Env) (mode : List UInt8) (s : State) : Bool :=
  (mode = ascii "out" || mode = ascii "in") && !e.mcodeWaiting && s.core == .idle && !s.portJog &&
    !serialSenderPending s.rx

/-- What the request `req` asks for, once it has passed its checks. -/
def asks (e : Env) (req : List UInt8) (s : State) : Option Ask :=
  if ascii "jog " <+: req then
    if jogPasses e (req.drop 4) s then some ⟨ascii "$J=" ++ req.drop 4, true, none⟩ else none
  else if ascii "tray " <+: req then
    let want := req.drop 5 == ascii "out"
    if trayPasses e (req.drop 5) s then
      some ⟨if want then ascii "M103 P1" else ascii "M103 P0", false, some want⟩
    else none
  else if commandPasses s then
    if req = ascii "release" then some ⟨ascii "$MD", false, none⟩
    else if req = ascii "energize" then some ⟨ascii "$ME", false, none⟩
    else if req = ascii "home" ∧ e.manual then some ⟨ascii "$H", false, none⟩
    else none
  else none

/-- What the request `req` can come to: a reply, at once or behind a change of a flag, or a line of
its own. -/
inductive Handled (e : Env) (a : Asker) (req : List UInt8) (s : State) : State → Prop where
  | answers (text : String) : Handled e a req s (reply e a text s)
  | cancels (hreq : req = ascii "cancel") : Handled e a req s (reply e a "ok\n" (cancelPortJog s))
  | envelope (opening : Bool) (hidle : s.core = .idle) :
      Handled e a req s (reply e a "ok\n" { s with envelopeOpen := opening })
  | keepsOut (hjog : s.portJog = false) (hclosed : s.envelopeOpen = false) :
      Handled e a req s (reply e a "ok\n" (serialDropSender e { s with keepOut := true }))
  | letsIn : Handled e a req s (reply e a "ok\n" { s with keepOut := false })
  | injects (k : Ask) (hasks : asks e req s = some k) :
      Handled e a req s (inject e a k.line k.jog { s with trayWant := k.want.or s.trayWant })

theorem not_isEol_of_jogWord {c : UInt8} (h : jogWord c = true) : isEol c = false := by
  by_contra heol
  have heol : isEol c = true := by simpa using heol
  simp only [isEol, Bool.or_eq_true, beq_iff_eq] at heol
  rcases heol with rfl | rfl
  · exact absurd h (by decide)
  · exact absurd h (by decide)

/-- What is asked for: a jog, a tray switch of the mode that is wanted, or a `$` command. -/
theorem asks_cases {e : Env} {req : List UInt8} {s : State} {k : Ask} (h : asks e req s = some k) :
    (ascii "jog " <+: req ∧ jogPasses e (req.drop 4) s = true ∧ k = ⟨ascii "$J=" ++ req.drop 4, true, none⟩) ∨
    (ascii "tray " <+: req ∧ trayPasses e (req.drop 5) s = true ∧
      ∃ want, k = ⟨if want then ascii "M103 P1" else ascii "M103 P0", false, some want⟩) ∨
    (commandPasses s = true ∧ (req = ascii "release" ∧ k = ⟨ascii "$MD", false, none⟩ ∨
      req = ascii "energize" ∧ k = ⟨ascii "$ME", false, none⟩ ∨
      req = ascii "home" ∧ e.manual = true ∧ k = ⟨ascii "$H", false, none⟩)) := by
  unfold asks at h
  split_ifs at h with hjog hpasses htray hpasses hcommand hrelease henergize hhome
  · exact .inl ⟨hjog, hpasses, (Option.some.inj h).symm⟩
  · exact .inr (.inl ⟨htray, hpasses, _, (Option.some.inj h).symm⟩)
  · exact .inr (.inr ⟨hcommand, .inl ⟨hrelease, (Option.some.inj h).symm⟩⟩)
  · exact .inr (.inr ⟨hcommand, .inr (.inl ⟨henergize, (Option.some.inj h).symm⟩)⟩)
  · exact .inr (.inr ⟨hcommand, .inr (.inr ⟨hhome.1, hhome.2, (Option.some.inj h).symm⟩)⟩)

/-- A line asked for holds no end of line. -/
theorem asks_noEol {e : Env} {req : List UInt8} {s : State} {k : Ask} (h : asks e req s = some k) :
    ∀ b ∈ k.line, isEol b = false := by
  have hfixed (line : List UInt8) (hall : line.all (fun b => !isEol b) = true) :
      ∀ b ∈ line, isEol b = false := fun b hb => by simpa using List.all_eq_true.mp hall b hb
  rcases asks_cases h with ⟨-, hpasses, rfl⟩ | ⟨-, -, want, rfl⟩ | ⟨-, ⟨-, rfl⟩ | ⟨-, rfl⟩ | ⟨-, -, rfl⟩⟩
  · intro b hb
    simp only [jogPasses, Bool.and_eq_true] at hpasses
    rcases List.mem_append.mp hb with hb | hb
    · exact hfixed _ (by decide) b hb
    · exact not_isEol_of_jogWord (List.all_eq_true.mp hpasses.1.1.1.1.2 b hb)
  · cases want
    · exact hfixed _ (by decide)
    · exact hfixed _ (by decide)
  · exact hfixed _ (by decide)
  · exact hfixed _ (by decide)
  · exact hfixed _ (by decide)

/-- It is a jog line for a jog and a tray line for a tray switch, and for nothing else. -/
theorem asks_kind {e : Env} {req : List UInt8} {s : State} {k : Ask} (h : asks e req s = some k) :
    k.jog = isJogLine k.line ∧ k.want.isSome = isTrayLine k.line := by
  rcases asks_cases h with ⟨-, -, rfl⟩ | ⟨-, -, want, rfl⟩ | ⟨-, ⟨-, rfl⟩ | ⟨-, rfl⟩ | ⟨-, -, rfl⟩⟩
  · refine ⟨(decide_eq_true (List.prefix_append _ _)).symm, ?_⟩
    -- a jog line begins with `$`, a tray line with `M`
    simp [isTrayLine, ascii]
  · cases want <;> decide
  · decide
  · decide
  · decide

/-- A tray switch is no jog. -/
theorem asks_want {e : Env} {req : List UInt8} {s : State} {k : Ask} (h : asks e req s = some k)
    (hwant : k.want ≠ none) : k.jog = false := by
  rcases asks_cases h with ⟨-, -, rfl⟩ | ⟨-, -, want, rfl⟩ | ⟨-, ⟨-, rfl⟩ | ⟨-, rfl⟩ | ⟨-, -, rfl⟩⟩
  · exact absurd rfl hwant
  all_goals rfl

theorem opJog_handled (e : Env) (a : Asker) {req : List UInt8} (s : State) (hreq : ascii "jog " <+: req) :
    Handled e a req s (opJog e a (req.drop 4) s) := by
  unfold opJog
  split_ifs with hwords hreleased hwaiting hstate hsender
  · exact .answers _
  · exact .answers _
  · exact .answers _
  · exact .answers _
  · exact .answers _
  · refine .injects ⟨ascii "$J=" ++ req.drop 4, true, none⟩ ?_
    have hpasses : jogPasses e (req.drop 4) s = true := by
      rw [Bool.not_eq_true, Bool.not_eq_false'] at hstate
      rw [Bool.not_eq_true] at hreleased hwaiting hsender
      simp only [Bool.or_eq_true, not_or, decide_eq_true_eq, Bool.not_eq_true', Bool.not_eq_false] at hwords
      simp only [jogPasses, hreleased, hwaiting, hstate, hsender, hwords.2, Bool.not_false, Bool.and_true,
        decide_eq_true_eq, hwords.1, ne_eq, not_false_eq_true]
    simp only [asks, if_pos hreq, if_pos hpasses]

theorem opCommand_handled (e : Env) (a : Asker) {req line : List UInt8} (s : State)
    (hline : commandPasses s = true → asks e req s = some ⟨line, false, none⟩) :
    Handled e a req s (opCommand e a line s) := by
  unfold opCommand
  split_ifs with hstate hsender
  · exact .answers _
  · exact .answers _
  · refine .injects ⟨line, false, none⟩ (hline ?_)
    rw [Bool.not_eq_true, Bool.not_eq_false'] at hstate
    rw [Bool.not_eq_true] at hsender
    rw [commandPasses, hstate, hsender, Bool.not_false, Bool.and_self]

theorem opSenderOut_handled (e : Env) (a : Asker) {req : List UInt8} (s : State) :
    Handled e a req s (opSenderOut e a s) := by
  unfold opSenderOut
  split_ifs with hkeep hstate hsender
  · exact .answers _
  · exact .answers _
  · exact .answers _
  · simp only [Bool.or_eq_true, not_or, Bool.not_eq_true] at hstate
    exact .keepsOut hstate.1.1.1.1.1.2 hstate.1.2

theorem opTray_handled (e : Env) (a : Asker) {req : List UInt8} (s : State) (hreq : ascii "tray " <+: req)
    (hjog : ¬ascii "jog " <+: req) : Handled e a req s (opTray e a (req.drop 5) s) := by
  unfold opTray
  split_ifs with hmode hwaiting hstate hsender
  · exact .answers _
  · exact .answers _
  · exact .answers _
  · exact .answers _
  · refine .injects ⟨_, false, some (req.drop 5 == ascii "out")⟩ ?_
    have hpasses : trayPasses e (req.drop 5) s = true := by
      simp only [Bool.or_eq_true, not_or, bne_iff_ne, ne_eq, not_not, Bool.not_eq_true] at hstate
      simp only [trayPasses, Bool.and_eq_true, Bool.or_eq_true, decide_eq_true_eq, Bool.not_eq_true',
        beq_iff_eq]
      exact ⟨⟨⟨⟨by tauto, by simpa using hwaiting⟩, hstate.1⟩, hstate.2⟩, by simpa using hsender⟩
    simp only [asks, if_neg hjog, if_pos hreq, if_pos hpasses]
    rfl

theorem opHome_handled (e : Env) (a : Asker) {req : List UInt8} (s : State) (hreq : req = ascii "home") :
    Handled e a req s (opHome e a s) := by
  unfold opHome
  split_ifs with hmanual
  · refine opCommand_handled e a s fun hpasses => ?_
    subst hreq
    simp only [asks, hpasses, hmanual, and_self, if_true]
    rfl
  · exact .answers _

theorem opEnvelope_handled (e : Env) (a : Asker) {req : List UInt8} (opening : Bool) (s : State) :
    Handled e a req s (opEnvelope e a opening s) := by
  unfold opEnvelope
  split_ifs with hhomed hstate
  · exact .answers _
  · exact .answers _
  · refine .envelope opening ?_
    simp only [Bool.or_eq_true, not_or, bne_iff_ne, ne_eq, not_not] at hstate
    exact hstate.1

theorem opMcodeResult_handled (e : Env) (a : Asker) {req : List UInt8} (args : List UInt8) (s : State) :
    Handled e a req s (opMcodeResult e a args s) := by
  unfold opMcodeResult
  dsimp only
  split
  · split_ifs <;> exact .answers _
  · exact .answers _

theorem Handled.ite {e : Env} {a : Asker} {req : List UInt8} {s t u : State} {p : Prop} [Decidable p]
    (ht : p → Handled e a req s t) (hu : ¬p → Handled e a req s u) :
    Handled e a req s (if p then t else u) := by
  split
  · next hp => exact ht hp
  · next hp => exact hu hp

/-- **What a request can come to.** The six cases of `Handled` are the ways in which a command can
end, and each says what it leaves of the ring, the client and the line. -/
theorem handleRequest_handled (e : Env) (a : Asker) (req : List UInt8) (s : State) :
    Handled e a req s (handleRequest e a req s) := by
  refine .ite (fun _ => .answers _) fun _ => ?_
  refine .ite (fun hreq => opJog_handled e a s hreq) fun hjog => ?_
  refine .ite .cancels fun _ => ?_
  refine .ite (fun hreq => opCommand_handled e a s fun hpasses => ?_) fun _ => ?_
  · subst hreq
    simp only [asks, hpasses, if_true]
    rfl
  refine .ite (fun hreq => opCommand_handled e a s fun hpasses => ?_) fun _ => ?_
  · subst hreq
    simp only [asks, hpasses, if_true]
    rfl
  refine .ite (fun hreq => opHome_handled e a s hreq) fun _ => ?_
  refine .ite (fun _ => opEnvelope_handled e a _ s) fun _ => ?_
  refine .ite (fun hreq => opTray_handled e a s hreq hjog) fun _ => ?_
  refine .ite (fun _ => .answers _) fun _ => ?_
  refine .ite (fun _ => opMcodeResult_handled e a _ s) fun _ => ?_
  refine .ite (fun _ => opSenderOut_handled e a s) fun _ => ?_
  exact .ite (fun _ => .letsIn) fun _ => .answers _

theorem Lined.handled {e : Env} {a : Asker} {req : List UInt8} {s t : State} (h : Lined s)
    (hhandled : Handled e a req s t) :
    Lined t := by
  cases hhandled with
  | answers text => exact h.reply
  | cancels hreq =>
    obtain ⟨sent, jogs, heq⟩ := cancelPortJog_eq s
    rw [heq]
    exact Lined.reply ⟨h.flags, h.deferred⟩
  | envelope opening hidle => exact Lined.reply ⟨h.flags, h.deferred⟩
  | keepsOut hjog hclosed =>
    exact Lined.reply (Lined.dropSender (s := { s with keepOut := true }) ⟨h.flags, h.deferred⟩)
  | letsIn => exact Lined.reply ⟨h.flags, h.deferred⟩
  | injects k hasks =>
    exact Lined.inject (s := { s with trayWant := k.want.or s.trayWant }) ⟨h.flags, h.deferred⟩ (asks_noEol hasks)

/-! ## The polls -/

/-- The polls of the jog and of the envelope set the gate and the port's own flags. -/
theorem Lined.pollHold {s : State} (h : Lined s) : Lined (pollHold s) := by
  have hjog : Lined (pollJog s) := by
    unfold pollJog
    split_ifs
    · exact ⟨h.flags.hold false, h.deferred⟩
    · obtain ⟨sent, jogs, heq⟩ := cancelPortJog_eq s
      rw [heq]
      exact ⟨h.flags, h.deferred⟩
    · exact h
    · exact h
  unfold Port.pollHold
  generalize pollJog s = t at hjog ⊢
  unfold pollEnvelope
  split_ifs
  · exact ⟨hjog.flags.hold true, hjog.deferred⟩
  · obtain ⟨sent, jogs, heq⟩ := cancelPortJog_eq t
    rw [heq]
    exact ⟨hjog.flags, hjog.deferred⟩
  · exact ⟨hjog.flags.hold false, hjog.deferred⟩
  · dsimp only
    split
    · exact ⟨hjog.flags, hjog.deferred⟩
    · exact ⟨hjog.flags.hold false, hjog.deferred⟩
  · exact hjog

/-- A new connection is served. -/
def State.serve (s : State) : State := { s with fd := some s.accepted, accepted := s.accepted + 1 }

/-- A connection is refused beside a client that is there, and served else. -/
theorem pollAccept_eq (hungUp : Bool) (s : State) :
    pollAccept hungUp s = if s.fd.isSome && !hungUp then s else (dropPortClient s).serve := by
  cases hfd : s.fd with
  | none =>
    rw [dropPortClient_none hfd]
    simp [pollAccept, hfd, State.serve]
  | some conn =>
    cases hungUp with
    | false => simp [pollAccept, hfd]
    | true =>
      obtain ⟨sent, jogs, heq⟩ := dropPortClient_eq hfd
      simp [pollAccept, hfd, heq, State.serve]

theorem Lined.pollAccept {hungUp : Bool} {s : State} (h : Lined s) : Lined (pollAccept hungUp s) := by
  rw [pollAccept_eq]
  split
  · exact h
  · exact ⟨h.dropPort.flags, h.dropPort.deferred⟩

theorem Lined.pollDeferred {e : Env} {s : State} (h : Lined s) : Lined (pollDeferred e s) := by
  unfold Port.pollDeferred
  split
  · exact h
  · next d hd =>
    split
    · next htakes => exact ⟨h.flags.inject htakes (h.deferred d hd), by rintro _ ⟨⟩⟩
    · split
      · exact Lined.reply (s := { s with deferred := none, trayWant := none }) ⟨h.flags,
          by rintro _ ⟨⟩⟩
      · exact h

theorem Lined.pollRead {r : Read} {s : State} (h : Lined s) : Lined (pollRead r s) := by
  unfold Port.pollRead
  split
  · exact h
  · exact h.dropPort
  · split
    · refine Lined.handled ?_ (handleRequest_handled _ _ _ _)
      exact ⟨h.flags, h.deferred⟩
    · split
      · exact h
      · split
        · exact ⟨h.flags, h.deferred⟩
        · exact h.dropPort

/-! ## The core's statuses

A status comes only from a line that has run to its end. -/

/-- The core reports the status of the line that it ran. -/
theorem coreReports_eq {run : Status → Status → Status × Status} {e : Env} {s t : State}
    (h : coreReports run e s = some t) :
    ∃ line r, s.rx.running = some line ∧ Serial.coreCompletes run s.rx = some r ∧
      t = report line.owner s.rx.injStatusDue (run line.entry s.rx.lastError).1 e { s with rx := r } := by
  unfold coreReports at h
  split at h
  · cases h
  · next line hrun =>
    obtain ⟨r, hr, rfl⟩ := Option.map_eq_some_iff.mp h
    exact ⟨line, r, hrun, hr, rfl⟩

/-- The jog of an accepted line joins the core's. -/
theorem acceptJog_eq (owner : Option Nat) (status : Status) (s : State) :
    ∃ jogs, acceptJog owner status s = { s with jogs := jogs } := by
  unfold acceptJog
  split
  · exact ⟨s.jogs, rfl⟩
  · split
    · exact ⟨_, rfl⟩
    · exact ⟨s.jogs, rfl⟩

/-- **The multiplexer's flags agree in every state.** A flush clears them together with the ring, an
injection sets them for a whole line, and each read of the core's counts one byte down. -/
theorem step_lined {s t : State} {l : Label} (hstep : portStep s l = some t) (h : Lined s) : Lined t := by
  cases l with
  | byte data realtime now =>
    cases hstep
    split
    · exact h
    · exact ⟨(rxByte_sameLine h.flags data).flags, h.deferred⟩
  | connect loopback e =>
    cases hstep
    unfold accept
    split
    · exact h
    · have hdrop := h.dropClient (e := e)
      exact ⟨{ hdrop.flags with }, hdrop.deferred⟩
  | drop e =>
    cases hstep
    exact h.dropClient
  | welcome =>
    cases hstep
    exact ⟨(welcome_sameLine h.flags).flags, h.deferred⟩
  | pollHold =>
    cases hstep
    exact h.pollHold
  | pollAccept hungUp =>
    cases hstep
    exact h.pollAccept
  | pollDeferred e =>
    cases hstep
    exact h.pollDeferred
  | pollRead r =>
    simp only [portStep] at hstep
    split at hstep
    · cases hstep
      exact h.pollRead
    · cases hstep
  | read skip =>
    obtain ⟨r, hr, rfl⟩ := Option.map_eq_some_iff.mp hstep
    exact ⟨(coreRead_sameLine h.flags hr).flags, h.deferred⟩
  | complete run e =>
    obtain ⟨line, r, -, hr, rfl⟩ := coreReports_eq hstep
    obtain ⟨hflags, -⟩ := coreCompletes_flags h.flags hr
    obtain ⟨jogs, heq⟩ := acceptJog_eq line.owner (run line.entry s.rx.lastError).1 { s with rx := r }
    rw [report, heq]
    split
    · exact Lined.lineDone ⟨hflags, h.deferred⟩
    · exact ⟨hflags, h.deferred⟩
  | abort e =>
    cases hstep
    exact h.told (flushed_aborts h.flags)
  | cancel e =>
    cases hstep
    exact h.told (flushed_cancel h.flags)
  | core next =>
    cases hstep
    exact ⟨h.flags, h.deferred⟩
  | getC =>
    cases hstep
    cases hget : Serial.serialGetC s.rx with
    | none => exact h
    | some x => exact ⟨(serialGetC_sameLine h.flags hget).flags, h.deferred⟩
  | closeEnvelope =>
    cases hstep
    exact ⟨h.flags, h.deferred⟩

theorem start_lined : Lined State.start := ⟨flagged_start, by rintro _ ⟨⟩⟩

/-! ## The lines injected so far

A list that only grows; the inversion lemma for it says which labels add to it. -/

/-- A status sets no more of the multiplexer than the gate. -/
theorem lineDone_rx (e : Env) (status : Option Status) (s : State) :
    ∃ hold, (lineDone e status s).rx = { s.rx with holdSender := hold } := by
  unfold lineDone
  dsimp only
  split
  · exact ⟨_, reply_rx _ _ _ _⟩
  · split
    · exact ⟨_, reply_rx _ _ _ _⟩
    · rw [reply_rx]
      split
      · exact ⟨true, rfl⟩
      · exact ⟨_, rfl⟩
  · exact ⟨_, reply_rx _ _ _ _⟩

theorem lineDone_injected (e : Env) (status : Option Status) (s : State) :
    (lineDone e status s).rx.injected = s.rx.injected := by
  obtain ⟨hold, heq⟩ := lineDone_rx e status s
  rw [heq]

theorem told_injected {e : Env} {s : State} {r : Rx} (hflush : Flushed s r) :
    (if s.rx.injActive then lineDone e none { s with rx := r } else { s with rx := r }).rx.injected =
      s.rx.injected := by
  split
  · rw [lineDone_injected]
    exact hflush.injected
  · exact hflush.injected

theorem dropClient_injected {e : Env} {s : State} (hflags : Flagged s.rx) :
    (dropClient e s).rx.injected = s.rx.injected := by
  unfold dropClient
  split
  · exact told_injected (flushed_flush (s := { s with rx := { s.rx with client := false }, loopback := false })
      { hflags with })
  · rfl

theorem serialDropSender_injected {e : Env} {s : State} (hflags : Flagged s.rx) :
    (serialDropSender e s).rx.injected = s.rx.injected := by
  unfold serialDropSender
  split
  · rfl
  · exact dropClient_injected (s := { s with messages := _ }) hflags

theorem await_injected {line : List UInt8} {s : State} (a : Asker) (jog : Bool) (htakes : takesLine line s.rx = true) :
    (await a line jog s).rx.injected = s.rx.injected + 1 := by
  rw [await, (takesLine_eq htakes).2.2]

/-- Nor do the polls of the jog and of the envelope. -/
theorem pollHold_rx (s : State) : ∃ hold, (pollHold s).rx = { s.rx with holdSender := hold } := by
  have hjog : ∃ hold, (pollJog s).rx = { s.rx with holdSender := hold } := by
    unfold pollJog
    split_ifs
    · exact ⟨false, rfl⟩
    · exact ⟨_, cancelPortJog_rx s⟩
    · exact ⟨_, rfl⟩
    · exact ⟨_, rfl⟩
  obtain ⟨hold, hjog⟩ := hjog
  have henvelope (t : State) : ∃ on, (pollEnvelope t).rx = { t.rx with holdSender := on } := by
    unfold pollEnvelope
    split_ifs
    · exact ⟨true, rfl⟩
    · exact ⟨_, cancelPortJog_rx t⟩
    · exact ⟨false, rfl⟩
    · dsimp only
      split
      · exact ⟨_, rfl⟩
      · exact ⟨false, rfl⟩
    · exact ⟨_, rfl⟩
  obtain ⟨on, heq⟩ := henvelope (pollJog s)
  exact ⟨on, by rw [pollHold, heq, hjog]⟩

theorem pollHold_injected (s : State) : (pollHold s).rx.injected = s.rx.injected := by
  obtain ⟨hold, heq⟩ := pollHold_rx s
  rw [heq]

theorem pollAccept_rx (hungUp : Bool) (s : State) : (pollAccept hungUp s).rx = s.rx := by
  rw [pollAccept_eq]
  split
  · rfl
  · exact dropPortClient_rx s

/-- The port injects for a request, or a line that it has deferred. -/
def Label.mayInject : Label → Bool
  | .pollDeferred _ | .pollRead _ => true
  | _ => false

/-- **No other step injects a line.** A request does, and the poll that finds a deferred line and a
ring that takes it. -/
theorem step_injected {s t : State} {l : Label} (hstep : portStep s l = some t) (hlined : Lined s)
    (hother : l.mayInject = false) : t.rx.injected = s.rx.injected := by
  cases l with
  | byte data realtime now =>
    cases hstep
    split
    · rfl
    · exact (rxByte_sameLine hlined.flags data).injected
  | connect loopback e =>
    cases hstep
    unfold accept
    split
    · rfl
    · exact dropClient_injected hlined.flags
  | drop e =>
    cases hstep
    exact dropClient_injected hlined.flags
  | welcome =>
    cases hstep
    exact (welcome_sameLine hlined.flags).injected
  | pollHold =>
    cases hstep
    exact pollHold_injected s
  | pollAccept hungUp =>
    cases hstep
    rw [pollAccept_rx]
  | pollDeferred e => cases hother
  | pollRead r => cases hother
  | read skip =>
    obtain ⟨r, hr, rfl⟩ := Option.map_eq_some_iff.mp hstep
    exact (coreRead_sameLine hlined.flags hr).injected
  | complete run e =>
    obtain ⟨line, r, -, hr, rfl⟩ := coreReports_eq hstep
    obtain ⟨-, -, hinjected, -⟩ := coreCompletes_flags hlined.flags hr
    obtain ⟨jogs, heq⟩ := acceptJog_eq line.owner (run line.entry s.rx.lastError).1 { s with rx := r }
    rw [report, heq]
    split
    · rw [lineDone_injected]
      exact hinjected
    · exact hinjected
  | abort e =>
    cases hstep
    exact told_injected (flushed_aborts hlined.flags)
  | cancel e =>
    cases hstep
    exact told_injected (flushed_cancel hlined.flags)
  | core next =>
    cases hstep
    rfl
  | getC =>
    cases hstep
    cases hget : Serial.serialGetC s.rx with
    | none => rfl
    | some x => exact (serialGetC_sameLine hlined.flags hget).injected
  | closeEnvelope =>
    cases hstep
    rfl

end Glowforge.Port
