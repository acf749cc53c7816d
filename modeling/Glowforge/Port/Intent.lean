import Glowforge.Port.Envelope

/-!
# Glowforge — what the status of an injected line is taken for

`line_done` is told a status and not whose it is: `awaiting_jog` says that the line was a jog, `tray_want`
that it was a tray switch. `inject` writes the one with every line; the other stands until a status, and a
dropped client leaves it behind with its deferred line gone. And a flush of the ring ends the wait for a line
that the core may be running: the status that the core reports for it then is nobody's.

* **`Watch`** — the texts of the lines injected so far, and a jog accepted and not yet over.
* **`Intent`** — the two flags are the line's own.
* **`CoreLine`** — a line of the port's that the core runs is the one whose status is due.
* **`ownsStatus`** — no other line is asked for while a tray switch is wanted, and nothing flushes the ring
  while the core runs a jog of the port's.
* **`accepted_jog_owned`** — then an accepted jog is the port's, the sender waits for its end, and a tray
  reply is a tray line's.
-/

namespace Glowforge.Port

open Function (update)
open Laser (SysState)
open Serial (Rx Status isEol)

/-! ## The history

What a status is for is the number of the line that the core ran, and the text that was injected under it. -/

/-- The line that the ring was filled with. -/
def injectedText (r : Rx) : List UInt8 := r.ring.dropLast.map Serial.Cell.byte

/-- The texts of the lines by number, behind a step from `r` to `t`. -/
def textsBehind (r t : Rx) (texts : Nat → List UInt8) : Nat → List UInt8 :=
  if t.injected = r.injected then texts else update texts (t.injected - 1) (injectedText t)

/-- The line injected last, behind a step from `r` to `t`. -/
def textBehind (r t : Rx) (text : List UInt8) : List UInt8 :=
  if t.injected = r.injected then text else injectedText t

theorem textsBehind_same {r t : Rx} (h : t.injected = r.injected) (texts : Nat → List UInt8) :
    textsBehind r t texts = texts := if_pos h

theorem textBehind_same {r t : Rx} (h : t.injected = r.injected) (text : List UInt8) :
    textBehind r t text = text := if_pos h

theorem textsBehind_last (r t : Rx) (texts : Nat → List UInt8) :
    textsBehind r t texts (t.injected - 1) = textBehind r t (texts (r.injected - 1)) := by
  unfold textsBehind textBehind
  split
  · next hsame => rw [hsame]
  · rw [Function.update_self]

structure Watch where
  texts : Nat → List UInt8
  -- A jog's status has come back as `Status_OK`, and no poll since has found the core out of its jog state.
  owned : Bool

/-- The core reports `Status_OK` for a line of the port's: its number. -/
def okLine (s : State) : Label → Option Nat
  | .complete run _ =>
    s.rx.running.bind fun line => if (run line.entry s.rx.lastError).1 = 0 then line.owner else none
  | _ => none

/-- The line is a jog. -/
def jogAccepted (s : State) (texts : Nat → List UInt8) (l : Label) : Bool :=
  (okLine s l).any fun k => isJogLine (texts k)

def watch (s : State) (l : Label) (w : Watch) : Watch where
  texts := ((portStep s l).map fun t => textsBehind s.rx t.rx w.texts).getD w.texts
  owned := match l with
    | .pollHold => w.owned && s.core == .jog
    | _ => w.owned || jogAccepted s w.texts l

/-- `line_done` is called with `Status_OK` and answers with the mode of the tray. -/
def repliesTray (s : State) : Label → Bool
  | .complete run _ =>
    s.rx.injStatusDue && (s.rx.running.any fun line => (run line.entry s.rx.lastError).1 == 0) &&
      s.trayWant.isSome
  | _ => false

/-- A request that is complete with this step asks for no line of its own while a tray switch is wanted,
unless it is one. -/
def wantsOwn (s : State) : Label → Bool
  | .pollRead (.byte c e) =>
    !(c == 10 && s.trayWant.isSome && (asks e (s.req.takeWhile (· != 0)) s).any fun k => k.want.isNone)
  | _ => true

/-- The core runs a jog line of the port's. -/
def runsJog (r : Rx) (texts : Nat → List UInt8) : Bool :=
  r.running.any fun line => line.owner.any fun k => isJogLine (texts k)

/-- Nothing flushes the ring while the core runs a jog of the port's (a reset takes the jog with it); and
the bytes of an injected line are read where the core reads lines. -/
def keepsJog (s : State) (texts : Nat → List UInt8) : Label → Bool
  | .connect loopback _ => s.keepOut && !loopback || !s.rx.client || !runsJog s.rx texts
  | .drop _ => !s.rx.client || !runsJog s.rx texts
  | .cancel _ => !runsJog s.rx texts
  | .getC => s.rx.injLeft == 0
  | _ => true

def ownsStatus (s : State) (w : Watch) (l : Label) : Bool := wantsOwn s l && keepsJog s w.texts l

/-! ## The invariant

The two flags that give a status its meaning belong to the line whose status is outstanding, or to a
switch that still waits to be injected. -/

/-- What a status goes by. -/
structure Slot where
  awaiting : Bool
  active : Bool
  jog : Bool
  want : Option Bool
  deferred : Option Deferred
  portJog : Bool

def State.slot (s : State) : Slot :=
  ⟨s.awaiting, s.rx.injActive, s.awaitingJog, s.trayWant, s.deferred, s.portJog⟩

structure Intent (v : Slot) (text : List UInt8) (owned : Bool) : Prop where
  active : v.awaiting = v.active
  single : v.awaiting = true → v.deferred = none
  jog : v.awaiting = true → v.jog = isJogLine text
  tray : v.awaiting = true → v.want ≠ none → isTrayLine text = true
  deferredJog : ∀ d, v.deferred = some d → d.jog = isJogLine d.line
  deferredTray : ∀ d, v.deferred = some d → v.want ≠ none → isTrayLine d.line = true
  owned : owned = true → v.portJog = true

/-- No line is both. -/
theorem not_jog_of_tray {line : List UInt8} (h : isTrayLine line = true) : isJogLine line = false := by
  simp only [isTrayLine, Bool.or_eq_true, decide_eq_true_eq] at h
  rcases h with rfl | rfl
  · decide
  · decide

namespace Intent

variable {v : Slot} {text : List UInt8} {owned : Bool}

theorem drop (h : Intent v text owned) : Intent { v with deferred := none } text owned :=
  ⟨h.active, fun _ => rfl, h.jog, h.tray, by rintro _ ⟨⟩, by rintro _ ⟨⟩, h.owned⟩

/-- The status has come. -/
theorem done (h : Intent v text owned) (portJog : Bool) (hkept : v.portJog = true → portJog = true) :
    Intent { v with awaiting := false, active := false, want := none, portJog := portJog } text owned where
  active := rfl
  single := (by rintro ⟨⟩)
  jog := (by rintro ⟨⟩)
  tray := (by rintro ⟨⟩)
  deferredJog := h.deferredJog
  deferredTray := fun _ _ hwant => absurd rfl hwant
  owned := fun howned => hkept (h.owned howned)

theorem reply {e : Env} {a : Asker} {answer : String} {s : State} (h : Intent s.slot text owned) :
    Intent (reply e a answer s).slot text owned := by
  unfold Port.reply
  split
  · exact h
  · next conn hfd =>
    split
    · exact h
    · obtain ⟨sent, jogs, heq⟩ := dropPortClient_eq hfd
      rw [heq]
      exact h.drop

theorem dropPort {s : State} (h : Intent s.slot text owned) : Intent (dropPortClient s).slot text owned := by
  cases hfd : s.fd with
  | none => rwa [dropPortClient_none hfd]
  | some conn =>
    obtain ⟨sent, jogs, heq⟩ := dropPortClient_eq hfd
    rw [heq]
    exact h.drop

end Intent

/-! ## The injected line

`inject` writes one flag; the other is the line's because nothing else was asked for meanwhile. -/

/-- A line that the multiplexer takes is the one injected last. -/
theorem await_text {line : List UInt8} {s : State} (a : Asker) (jog : Bool)
    (htakes : takesLine line s.rx = true) (text : List UInt8) :
    textBehind s.rx (await a line jog s).rx text = line := by
  obtain ⟨-, -, hinject⟩ := takesLine_eq htakes
  have hcount := await_injected a jog htakes
  rw [textBehind, if_neg (by omega), injectedText, await, hinject]
  simp only [List.dropLast_concat, List.map_map, Function.comp_def, List.map_id']

/-- **A line is injected**, with what it was asked for as. -/
theorem Intent.await {a : Asker} {line : List UInt8} {jog : Bool} {s : State} {text : List UInt8} {owned : Bool}
    (h : Intent s.slot text owned) (htakes : takesLine line s.rx = true) (hjog : jog = isJogLine line)
    (htray : s.trayWant ≠ none → isTrayLine line = true) :
    Intent ({ Port.await a line jog s with deferred := none } : State).slot line owned := by
  obtain ⟨-, -, hinject⟩ := takesLine_eq htakes
  have hactive : (Port.await a line jog s).rx.injActive = true := by rw [Port.await, hinject]
  exact {
    active := hactive.symm
    single := fun _ => rfl
    jog := fun _ => hjog
    tray := fun _ => htray
    deferredJog := (by rintro _ ⟨⟩)
    deferredTray := (by rintro _ ⟨⟩)
    owned := h.owned }

theorem Intent.inject {e : Env} {a : Asker} {line : List UInt8} {jog : Bool} {s : State} {text : List UInt8}
    {owned : Bool} (h : Intent { s.slot with want := none } text owned)
    (hidle : s.awaiting = false) (hdeferred : s.deferred = none) (hjog : jog = isJogLine line)
    (htray : s.trayWant ≠ none → isTrayLine line = true) :
    Intent (inject e a line jog s).slot (textBehind s.rx (inject e a line jog s).rx text) owned := by
  unfold Port.inject
  split
  · next htakes =>
    rw [await_text a jog htakes]
    have hs : Intent s.slot text owned :=
      { h with
        tray := fun hawaiting => absurd (hidle.symm.trans hawaiting) Bool.false_ne_true
        deferredTray := fun d hd => absurd (hdeferred.symm.trans hd) (by rintro ⟨⟩) }
    have hput := Intent.await (a := a) hs htakes hjog htray
    have heq : ({ Port.await a line jog s with deferred := none } : State) = Port.await a line jog s := by
      rw [← hdeferred]
      rfl
    rwa [heq] at hput
  · split
    · rw [textBehind_same rfl]
      refine { h with
        single := fun hawaiting => absurd (hidle.symm.trans hawaiting) Bool.false_ne_true
        tray := fun hawaiting => absurd (hidle.symm.trans hawaiting) Bool.false_ne_true
        deferredJog := fun d hd => ?_
        deferredTray := fun d hd hwant => ?_ }
      · cases hd
        exact hjog
      · cases hd
        exact htray hwant
    · rw [reply_rx, textBehind_same rfl]
      exact Intent.reply (s := { s with trayWant := none }) h

/-- A status other than an accepted jog's. -/
theorem Intent.lineDone {e : Env} {status : Option Status} {s : State} {text : List UInt8} {owned : Bool}
    (h : Intent { s.slot with awaiting := true, active := true } text owned) (hactive : s.rx.injActive = false) :
    Intent (lineDone e status s).slot text owned := by
  have hdone : Intent ({ s with awaiting := false, trayWant := none } : State).slot text owned := by
    have := h.done s.portJog id
    simpa only [State.slot, hactive] using this
  have hjog : Intent (ownJog { s with awaiting := false, trayWant := none }).slot text owned := by
    have := h.done true fun _ => rfl
    simpa only [State.slot, ownJog, serialHoldSender, hactive] using this
  unfold Port.lineDone
  dsimp only
  split
  · exact hdone.reply
  · split
    · exact hdone.reply
    · split
      · exact hjog.reply
      · exact hdone.reply
  · exact hdone.reply

/-! ## Flushes

A flush that takes a line away tells the port, for which that is the line's status. -/

theorem Intent.told {e : Env} {s : State} {r : Rx} {text : List UInt8} {owned : Bool}
    (h : Intent s.slot text owned) (hflush : Flushed s r) :
    Intent (if s.rx.injActive then Port.lineDone e none { s with rx := r } else { s with rx := r }).slot
      text owned := by
  cases hactive : s.rx.injActive with
  | true =>
    have hawaiting : s.awaiting = true := h.active.trans hactive
    rw [if_pos rfl]
    refine Intent.lineDone ?_ hflush.active
    have hslot :
        ({ ({ s with rx := r } : State).slot with awaiting := true, active := true } : Slot) = s.slot := by
      simp only [State.slot, hawaiting, hactive]
    rwa [hslot]
  | false =>
    rw [if_neg Bool.false_ne_true]
    have hslot : ({ s with rx := r } : State).slot = s.slot := by
      simp only [State.slot, hflush.active, hactive]
    rwa [hslot]

theorem Intent.sameLine {s : State} {r : Rx} {text : List UInt8} {owned : Bool} (h : Intent s.slot text owned)
    (hr : SameLine s.rx r) : Intent ({ s with rx := r } : State).slot text owned := by
  have hslot : ({ s with rx := r } : State).slot = s.slot := by
    rw [State.slot, hr.active]
    rfl
  rwa [hslot]

theorem Intent.dropClient {e : Env} {s : State} {text : List UInt8} {owned : Bool} (h : Intent s.slot text owned)
    (hflags : Flagged s.rx) : Intent (dropClient e s).slot text owned := by
  unfold Port.dropClient
  split
  · exact Intent.told (s := { s with rx := { s.rx with client := false }, loopback := false }) h
      (flushed_flush (s := { s with rx := { s.rx with client := false }, loopback := false }) { hflags with })
  · exact h

/-! ## The requests

A request asks for one line, and the condition refuses a second one under a tray switch. -/

/-- **A request that asks for no line of its own while a tray switch is wanted.** -/
theorem Intent.handled {e : Env} {a : Asker} {req : List UInt8} {s t : State} {text : List UInt8} {owned : Bool}
    (h : Intent s.slot text owned) (hflags : Flagged s.rx) (hidle : s.awaiting = false)
    (hdeferred : s.deferred = none) (hhandled : Handled e a req s t)
    (hwant : s.trayWant ≠ none → ∀ k, asks e req s = some k → k.want ≠ none) :
    Intent t.slot (textBehind s.rx t.rx text) owned := by
  cases hhandled with
  | answers answer =>
    rw [textBehind_same (by rw [reply_rx])]
    exact h.reply
  | cancels hreq =>
    rw [textBehind_same (by rw [reply_rx, cancelPortJog_rx])]
    obtain ⟨sent, jogs, heq⟩ := cancelPortJog_eq s
    rw [heq]
    exact Intent.reply (s := { s with cancelSent := sent, jogs := jogs }) h
  | envelope opening hcore =>
    rw [textBehind_same (by rw [reply_rx])]
    exact Intent.reply (s := { s with envelopeOpen := opening }) h
  | keepsOut hjog hclosed =>
    have hdrop : Intent (serialDropSender e { s with keepOut := true }).slot text owned := by
      unfold serialDropSender
      split
      · exact h
      · exact Intent.dropClient (s := { s with keepOut := true, messages := _ }) h hflags
    have hinjected := serialDropSender_injected (e := e) (s := { s with keepOut := true }) hflags
    rw [textBehind_same (by rw [reply_rx]; exact hinjected)]
    exact hdrop.reply
  | letsIn =>
    rw [textBehind_same (by rw [reply_rx])]
    exact Intent.reply (s := { s with keepOut := false }) h
  | injects k hasks =>
    obtain ⟨hjog, htray⟩ := asks_kind hasks
    refine Intent.inject (s := { s with trayWant := k.want.or s.trayWant }) ?_ hidle hdeferred hjog fun hne => ?_
    · exact { h with
        tray := fun hawaiting => absurd (hidle.symm.trans hawaiting) Bool.false_ne_true
        deferredTray := fun d hd => absurd (hdeferred.symm.trans hd) (by rintro ⟨⟩) }
    · rw [← htray, Option.isSome_iff_ne_none]
      intro hnone
      rw [hnone, Option.none_or] at hne
      exact hwant hne k hasks hnone

theorem Intent.pollRead {r : Read} {s : State} {text : List UInt8} {owned : Bool} (h : Intent s.slot text owned)
    (hflags : Flagged s.rx) (hreads : reads s = true) (hwants : wantsOwn s (.pollRead r) = true) :
    Intent (pollRead r s).slot (textBehind s.rx (Port.pollRead r s).rx text) owned := by
  simp only [reads, Bool.and_eq_true, Bool.not_eq_true', Option.isNone_iff_eq_none] at hreads
  obtain ⟨⟨-, hidle⟩, hdeferred⟩ := hreads
  have hdrop : Intent (dropPortClient s).slot (textBehind s.rx (dropPortClient s).rx text) owned := by
    rw [dropPortClient_rx, textBehind_same rfl]
    exact h.dropPort
  unfold Port.pollRead
  split
  · rw [textBehind_same rfl]
    exact h
  · exact hdrop
  · next conn c e hfd =>
    split
    · next hend =>
      refine Intent.handled (s := { s with
          req := [], asked := s.asked + 1, log := s.log ++ [.asked conn s.asked] }) h hflags hidle hdeferred
        (handleRequest_handled _ _ _ _) fun hne k hasks hnone => ?_
      have hasks : asks e (s.req.takeWhile (· != 0)) s = some k := hasks
      have hne : s.trayWant.isSome = true := Option.isSome_iff_ne_none.mpr hne
      simp only [wantsOwn, hend, hne, hasks, Option.any_some, hnone, Option.isNone_none, beq_self_eq_true,
        Bool.and_self, Bool.not_true, Bool.false_eq_true] at hwants
    · split
      · rw [textBehind_same rfl]
        exact h
      · split
        · rw [textBehind_same rfl]
          exact h
        · exact hdrop

/-! ## The poll

Of its parts only the deferred line is a line that goes in, and it goes in with the meaning that its
request gave it. -/

/-- The port's jog ends only where the poll finds the core out of its jog state. -/
theorem Intent.pollHold {s : State} {text : List UInt8} {owned : Bool} (h : Intent s.slot text owned) :
    Intent (pollHold s).slot text (owned && s.core == .jog) := by
  have hjog : Intent (pollJog s).slot text (owned && s.core == .jog) := by
    have hless : Intent s.slot text (owned && s.core == .jog) :=
      { h with owned := fun howned => h.owned (Bool.and_eq_true_iff.mp howned).1 }
    unfold pollJog
    split_ifs with hmine hcore
    · refine { h with owned := fun howned => ?_ }
      rw [bne_iff_ne] at hcore
      rw [Bool.and_eq_true, beq_iff_eq] at howned
      exact absurd howned.2 hcore
    · obtain ⟨sent, jogs, heq⟩ := cancelPortJog_eq s
      rw [heq]
      exact hless
    · exact hless
    · exact hless
  have henvelope (t : State) : (pollEnvelope t).slot = t.slot := by
    unfold pollEnvelope
    split_ifs
    · rfl
    · obtain ⟨sent, jogs, heq⟩ := cancelPortJog_eq t
      rw [heq]
      rfl
    · rfl
    · dsimp only
      split <;> rfl
    · rfl
  unfold Port.pollHold
  rw [henvelope]
  exact hjog

theorem Intent.pollAccept {hungUp : Bool} {s : State} {text : List UInt8} {owned : Bool}
    (h : Intent s.slot text owned) : Intent (pollAccept hungUp s).slot text owned := by
  rw [pollAccept_eq]
  split
  · exact h
  · exact h.dropPort

theorem Intent.pollDeferred {e : Env} {s : State} {text : List UInt8} {owned : Bool}
    (h : Intent s.slot text owned) :
    Intent (pollDeferred e s).slot (textBehind s.rx (Port.pollDeferred e s).rx text) owned := by
  unfold Port.pollDeferred
  split
  · rw [textBehind_same rfl]
    exact h
  · next d hd =>
    split
    · next htakes =>
      have htext : textBehind s.rx ({ Port.await d.asker d.line d.jog s with deferred := none } : State).rx text =
          d.line := await_text d.asker d.jog htakes text
      rw [htext]
      exact Intent.await h htakes (h.deferredJog d hd) (h.deferredTray d hd)
    · split
      · rw [reply_rx, textBehind_same rfl]
        refine Intent.reply (s := { s with deferred := none, trayWant := none }) ?_
        exact { h with
          single := fun _ => rfl
          tray := fun _ hwant => absurd rfl hwant
          deferredJog := (by rintro _ ⟨⟩)
          deferredTray := (by rintro _ ⟨⟩) }
      · rw [textBehind_same rfl]
        exact h

/-! ## The core's line

The status that `line_done` is told is the one of the line that the core has run. A line in flight ends with
its status or with a flush; behind a flush the core may still run it. -/

theorem runsJog_eq_false {r : Rx} {texts : Nat → List UInt8} : runsJog r texts = false ↔
    ∀ line k, r.running = some line → line.owner = some k → isJogLine (texts k) = false := by
  simp only [runsJog, Option.any_eq_false]
  exact ⟨fun h line k hrun howner => h line hrun k howner, fun h line hrun k howner => h line k hrun howner⟩

/-- A line of the port's that the core reads, runs or has given back. -/
structure CoreLine (r : Rx) (texts : Nat → List UInt8) : Prop where
  pos : r.injActive = true → 0 < r.injected
  due : r.injStatusDue = true → ∃ line, r.running = some line ∧ line.owner = some (r.injected - 1)
  runs : ∀ line k, r.running = some line → line.owner = some k → k < r.injected ∧
    (isJogLine (texts k) = true → r.injStatusDue = true ∧ k = r.injected - 1)
  -- its end is read inside the line, and so is not skipped
  first : 0 < r.injLeft → r.injFirst = true → 2 ≤ r.injLeft
  mid : 0 < r.injLeft → r.injFirst = false → r.coreMidline = true

theorem coreLine_start (texts : Nat → List UInt8) : CoreLine Rx.start texts where
  pos := (by rintro ⟨⟩)
  due := (by rintro ⟨⟩)
  runs := (by rintro _ _ ⟨⟩)
  first := (by rintro ⟨⟩)
  mid := (by rintro ⟨⟩)

namespace CoreLine

variable {r t : Rx} {texts : Nat → List UInt8}

/-- With no line in flight the core runs no jog of the port's. -/
theorem quiet (h : CoreLine r texts) (hflags : Flagged r) (hactive : r.injActive = false) :
    runsJog r texts = false := by
  refine runsJog_eq_false.mpr fun line k hrun howner => ?_
  by_contra hjog
  have hdue := ((h.runs line k hrun howner).2 (by simpa using hjog)).1
  exact absurd (hactive.symm.trans (hflags.due hdue).1) Bool.false_ne_true

/-- **No line is in flight**, and the core runs no jog of the port's. -/
theorem between (hflags : Flagged t) (hactive : t.injActive = false)
    (hruns : ∀ line k, t.running = some line → line.owner = some k → k < t.injected)
    (hquiet : runsJog t texts = false) : CoreLine t texts where
  pos := fun hyes => absurd (hactive.symm.trans hyes) Bool.false_ne_true
  due := fun hdue => absurd (hactive.symm.trans (hflags.due hdue).1) Bool.false_ne_true
  runs := fun line k hrun howner => ⟨hruns line k hrun howner, fun hjog =>
    absurd ((runsJog_eq_false.mp hquiet line k hrun howner).symm.trans hjog) Bool.false_ne_true⟩
  first := fun hpos => absurd (hflags.left_eq hactive) (Nat.ne_of_gt hpos)
  mid := fun hpos => absurd (hflags.left_eq hactive) (Nat.ne_of_gt hpos)

/-- A flush, of the ring alone or of the core's line with it. -/
theorem flush {s : State} (h : CoreLine s.rx texts) (hflush : Flushed s t)
    (hruns : ∀ line, t.running = some line → s.rx.running = some line)
    (hquiet : t.running = none ∨ runsJog s.rx texts = false) : CoreLine t texts := by
  refine .between hflush.flags hflush.active (fun line k hrun howner => ?_) ?_
  · rw [hflush.injected]
    exact (h.runs line k (hruns line hrun) howner).1
  · refine runsJog_eq_false.mpr fun line k hrun howner => ?_
    rcases hquiet with hnone | hquiet
    · rw [hnone] at hrun
      cases hrun
    · exact runsJog_eq_false.mp hquiet line k (hruns line hrun) howner

theorem told {e : Env} {s : State} {active : Bool} (h : CoreLine s.rx texts) :
    CoreLine (if active then Port.lineDone e none s else s).rx texts := by
  split
  · obtain ⟨hold, heq⟩ := lineDone_rx e none s
    rw [heq]
    exact { h with }
  · exact h

theorem dropClient {e : Env} {s : State} (h : CoreLine s.rx texts) (hflags : Flagged s.rx)
    (hquiet : s.rx.client = true → runsJog s.rx texts = false) : CoreLine (dropClient e s).rx texts := by
  unfold Port.dropClient
  split
  · next hclient =>
    have hruns (line : Serial.Running)
        (hrun : (Serial.serialRxFlush { s.rx with client := false }).running = some line) :
        s.rx.running = some line := by rwa [serialRxFlush_running] at hrun
    have hflush : Flushed { s with rx := { s.rx with client := false } }
        (Serial.serialRxFlush { s.rx with client := false }) := flushed_flush { hflags with }
    have hgone : CoreLine { s.rx with client := false } texts := { h with }
    exact told (flush hgone hflush hruns (.inr (hquiet hclient)))
  · exact h

/-- **A line is injected**, and none of the port's jogs is running. -/
theorem inject {line : List UInt8} {s : State} (h : CoreLine s.rx texts) (a : Asker) (jog : Bool)
    (hflags : Flagged s.rx) (htakes : takesLine line s.rx = true) :
    CoreLine (await a line jog s).rx (textsBehind s.rx (await a line jog s).rx texts) := by
  obtain ⟨hactive, -, hinject⟩ := takesLine_eq htakes
  have hline : line ≠ [] := by
    rintro rfl
    simp [takesLine] at htakes
  have hquiet := runsJog_eq_false.mp (h.quiet hflags hactive)
  have hcount := await_injected a jog htakes
  have htexts (k : Nat) (hk : k < s.rx.injected) : textsBehind s.rx (await a line jog s).rx texts k = texts k := by
    rw [textsBehind, if_neg (by omega), Function.update_of_ne (by omega)]
  generalize textsBehind s.rx (await a line jog s).rx texts = behind at htexts
  rw [await, hinject]
  exact {
    pos := fun _ => Nat.succ_pos _
    due := (by rintro ⟨⟩)
    runs := fun running k hrun howner => by
      have hlt := (h.runs running k hrun howner).1
      refine ⟨Nat.lt_succ_of_lt hlt, fun hjog => ?_⟩
      rw [htexts k hlt, hquiet running k hrun howner] at hjog
      cases hjog
    first := fun _ _ => by
      have hpos := List.length_pos_iff.mpr hline
      dsimp only
      omega
    mid := (by rintro _ ⟨⟩) }

/-- The core reads a byte, and runs the line behind its last. -/
theorem coreRead {skip : Bool} (h : CoreLine r texts) (hflags : Flagged r)
    (hread : Serial.coreRead skip r = some t) : CoreLine t texts := by
  unfold Serial.coreRead at hread
  split at hread
  · cases hread
  · next hidle =>
    have hnone (line : Serial.Running) (hrun : r.running = some line) : False := by
      rw [hidle] at hrun
      cases hrun
    -- the core runs nothing, so no status is due
    have hdue : r.injStatusDue = false := by
      by_contra hdue
      obtain ⟨line, hrun, -⟩ := h.due (by simpa using hdue)
      exact hnone line hrun
    split at hread
    · cases hread
      exact h
    · next c u hget =>
      obtain ⟨rest, hring, ⟨hleft, lineOpen, rfl⟩ | ⟨hleft, rfl⟩⟩ := Serial.serialGetC_cases hget
      · have howner : c.owner = none := by
          have hqueue := hflags.ring
          rw [hleft, hring] at hqueue
          exact hqueue.sender_of_zero c List.mem_cons_self
        have hmore {p : Prop} (hpos : 0 < r.injLeft) : p := absurd hleft (Nat.ne_of_gt hpos)
        split at hread
        · cases hread
          exact {
            pos := h.pos
            due := fun hyes => absurd (hdue.symm.trans hyes) Bool.false_ne_true
            runs := fun line k hrun hk => by
              cases hrun
              rw [howner] at hk
              cases hk
            first := hmore
            mid := hmore }
        · cases hread
          exact { h with first := hmore, mid := hmore }
      · have hpos := Nat.pos_of_ne_zero hleft
        have hactive := hflags.left hpos
        rw [Serial.countInjected_eq] at hread
        have hqueue := hflags.ring
        rw [hring] at hqueue
        generalize hn : r.injLeft = n at hqueue
        cases hqueue with
        | sender => exact absurd hn hleft
        | eol heol howner hcs =>
          -- the line's end, in the middle of the line
          have hfirst : r.injFirst = false := by
            by_contra hfirst
            have htwo := h.first hpos (by simpa using hfirst)
            omega
          rw [if_pos ⟨heol, by simp [h.mid hpos hfirst]⟩] at hread
          cases hread
          simp only [hn]
          exact {
            pos := h.pos
            due := fun _ => ⟨_, rfl, howner⟩
            runs := fun line k hrun hk => by
              cases hrun
              rw [howner] at hk
              cases hk
              exact ⟨Nat.sub_lt (h.pos hactive) Nat.one_pos, fun _ => ⟨rfl, rfl⟩⟩
            first := (by rintro ⟨⟩)
            mid := (by rintro ⟨⟩) }
        | @byte _ m _ heol howner hrest =>
          rw [if_neg (by simp [heol])] at hread
          cases hread
          simp only [hn, heol]
          exact {
            pos := h.pos
            due := fun hyes => absurd (hdue.symm.trans hyes) Bool.false_ne_true
            runs := fun line k hrun => (hnone line hrun).elim
            first := (by rintro _ ⟨⟩)
            mid := fun _ _ => rfl }

/-- The core has run its line. -/
theorem coreCompletes {run : Status → Status → Status × Status} (h : CoreLine r texts) (hflags : Flagged r)
    (hdone : Serial.coreCompletes run r = some t) : CoreLine t texts := by
  obtain ⟨hsame, hactive, -, -⟩ := coreCompletes_flags hflags hdone
  have hrunning := coreCompletes_running hdone
  have hnone {p : Prop} (line : Serial.Running) (hrun : t.running = some line) : p := by
    rw [hrunning] at hrun
    cases hrun
  cases hdue : r.injStatusDue with
  | true =>
    rw [hdue, Bool.not_true, Bool.and_false] at hactive
    exact between hsame hactive (fun line k hrun => hnone line hrun)
      (runsJog_eq_false.mpr fun line k hrun => hnone line hrun)
  | false =>
    obtain ⟨status, error, senderLines, held, lines, rfl⟩ := coreCompletes_eq hdone
    simp only [Serial.injectStatusMessage, hdue, Bool.false_eq_true, if_false] at hnone ⊢
    exact { h with
      due := (by rintro ⟨⟩)
      runs := fun line k hrun => hnone line hrun }

end CoreLine

/-! ## The status

The status of a line that was accepted, and of one that was not. -/

/-- The status of a jog line makes the jog the port's. -/
theorem Intent.accepts {e : Env} {s : State} {text : List UInt8} {owned : Bool}
    (h : Intent { s.slot with awaiting := true, active := true } text owned) (hactive : s.rx.injActive = false)
    (hline : isJogLine text = true) : Intent (Port.lineDone e (some 0) s).slot text true := by
  have htray : s.trayWant = none := by
    by_contra hwant
    exact absurd ((not_jog_of_tray (h.tray rfl hwant)).symm.trans hline) Bool.false_ne_true
  have hjog : s.awaitingJog = true := (h.jog rfl).trans hline
  have hown : Port.lineDone e (some 0) s = Port.reply e (s.injected (s.rx.injected - 1)).asker "ok\n"
      (ownJog { s with awaiting := false, trayWant := none }) := by
    simp only [Port.lineDone, htray, hjog, if_true]
  rw [hown]
  refine Intent.reply ?_
  have hdone := h.done true fun _ => rfl
  have hmine : Intent (ownJog { s with awaiting := false, trayWant := none }).slot text owned := by
    simpa only [State.slot, ownJog, serialHoldSender, hactive] using hdone
  exact { hmine with owned := fun _ => rfl }

theorem Intent.complete {run : Status → Status → Status × Status} {e : Env} {s t : State}
    {texts : Nat → List UInt8} {owned : Bool} (h : Intent s.slot (texts (s.rx.injected - 1)) owned)
    (hflags : Flagged s.rx) (hcore : CoreLine s.rx texts) (hreports : coreReports run e s = some t) :
    Intent t.slot (texts (s.rx.injected - 1)) (owned || jogAccepted s texts (.complete run e)) := by
  obtain ⟨line, r, hrun, hr, rfl⟩ := coreReports_eq hreports
  obtain ⟨-, hactive, -, -⟩ := coreCompletes_flags hflags hr
  obtain ⟨jogs, heq⟩ := acceptJog_eq line.owner (run line.entry s.rx.lastError).1 { s with rx := r }
  rw [report, heq]
  cases hdue : s.rx.injStatusDue with
  | false =>
    -- a line that no status is due for: the sender's, or one that was flushed and is no jog
    have hother : jogAccepted s texts (.complete run e) = false := by
      have hquiet (k : Nat) (howner : line.owner = some k) : isJogLine (texts k) = false := by
        by_contra hjog
        have hyes := ((hcore.runs line k hrun howner).2 (by simpa using hjog)).1
        exact absurd (hdue.symm.trans hyes) Bool.false_ne_true
      simp only [jogAccepted, okLine, hrun, Option.bind_some, Option.any_eq_false]
      intro k hk
      split at hk
      · exact hquiet k hk
      · cases hk
    rw [hdue, Bool.not_false, Bool.and_true] at hactive
    rw [hother, Bool.or_false, if_neg Bool.false_ne_true]
    have hslot : ({ s with rx := r, jogs := jogs } : State).slot = s.slot := by
      simp only [State.slot, hactive]
    rwa [hslot]
  | true =>
    rw [hdue, Bool.not_true, Bool.and_false] at hactive
    have hmux : s.rx.injActive = true := (hflags.due hdue).1
    have hpending : Intent { ({ s with rx := r, jogs := jogs } : State).slot with
        awaiting := true, active := true } (texts (s.rx.injected - 1)) owned := by
      have hawaiting : s.awaiting = true := h.active.trans hmux
      have hslot : ({ ({ s with rx := r, jogs := jogs } : State).slot with
          awaiting := true, active := true } : Slot) = s.slot := by
        simp only [State.slot, hawaiting, hmux]
      rwa [hslot]
    -- the core ran the line injected last
    obtain ⟨line', hrun', howner⟩ := hcore.due hdue
    obtain rfl : line = line' := Option.some.inj (hrun.symm.trans hrun')
    rw [if_pos rfl]
    simp only [jogAccepted, okLine, hrun, Option.bind_some, howner]
    by_cases hstatus : (run line.entry s.rx.lastError).1 = 0
    · rw [hstatus, if_pos rfl, Option.any_some]
      cases hline : isJogLine (texts (s.rx.injected - 1)) with
      | true =>
        rw [Bool.or_true]
        exact hpending.accepts hactive hline
      | false =>
        rw [Bool.or_false]
        exact Intent.lineDone hpending hactive
    · rw [if_neg hstatus, Option.any_none, Bool.or_false]
      exact Intent.lineDone hpending hactive

/-! ## The runs

`Intent` goes by the line injected last, `CoreLine` by the line that the core runs; they meet at the status. -/

theorem watch_texts {s t : State} {l : Label} (hstep : portStep s l = some t) (w : Watch) :
    (watch s l w).texts = textsBehind s.rx t.rx w.texts := by
  simp only [watch, hstep, Option.map_some, Option.getD_some]

/-- **Every step but a request that takes over a tray switch.** The flags of the outstanding line
are written with it and read with its status, and what comes between the two leaves them. -/
theorem intent_step {s t : State} {l : Label} {w : Watch} (hstep : portStep s l = some t) (hlined : Lined s)
    (hwants : wantsOwn s l = true) (hcore : CoreLine s.rx w.texts)
    (h : Intent s.slot (w.texts (s.rx.injected - 1)) w.owned) :
    Intent t.slot ((watch s l w).texts (t.rx.injected - 1)) (watch s l w).owned := by
  rw [watch_texts hstep, textsBehind_last]
  generalize htext : w.texts (s.rx.injected - 1) = text at h
  -- most steps inject no line, and no status of a jog comes with them
  have hsame (hother : l.mayInject = false) : textBehind s.rx t.rx text = text :=
    textBehind_same (step_injected hstep hlined hother) _
  have hkeep (ht : Intent t.slot text w.owned) (hother : l.mayInject = false)
      (hquiet : jogAccepted s w.texts l = false)
      (howned : (watch s l w).owned = (w.owned || jogAccepted s w.texts l)) :
      Intent t.slot (textBehind s.rx t.rx text) (watch s l w).owned := by
    rw [hsame hother, howned, hquiet, Bool.or_false]
    exact ht
  cases l with
  | byte data realtime now =>
    cases hstep
    refine hkeep ?_ rfl rfl rfl
    split
    · exact h
    · have hr := rxByte_sameLine hlined.flags data
      exact h.sameLine hr
  | connect loopback e =>
    cases hstep
    refine hkeep ?_ rfl rfl rfl
    unfold accept
    split
    · exact h
    · exact h.dropClient (e := e) hlined.flags
  | drop e =>
    cases hstep
    exact hkeep (h.dropClient hlined.flags) rfl rfl rfl
  | welcome =>
    cases hstep
    have hr := welcome_sameLine hlined.flags
    have ht := h.sameLine hr
    exact hkeep ht rfl rfl rfl
  | pollHold =>
    cases hstep
    rw [hsame rfl]
    exact h.pollHold
  | pollAccept hungUp =>
    cases hstep
    exact hkeep h.pollAccept rfl rfl rfl
  | pollDeferred e =>
    cases hstep
    simpa only [watch, jogAccepted, okLine, Option.any_none, Bool.or_false] using h.pollDeferred (e := e)
  | pollRead r =>
    simp only [portStep] at hstep
    split at hstep
    · next hreads =>
      cases hstep
      simpa only [watch, jogAccepted, okLine, Option.any_none, Bool.or_false] using
        h.pollRead hlined.flags hreads hwants
    · cases hstep
  | read skip =>
    obtain ⟨r, hr, rfl⟩ := Option.map_eq_some_iff.mp hstep
    have hr := coreRead_sameLine hlined.flags hr
    have ht := h.sameLine hr
    exact hkeep ht rfl rfl rfl
  | complete run e =>
    rw [hsame rfl, ← htext]
    exact Intent.complete (htext ▸ h) hlined.flags hcore hstep
  | abort e =>
    cases hstep
    have hflush := flushed_aborts hlined.flags
    exact hkeep (h.told hflush) rfl rfl rfl
  | cancel e =>
    cases hstep
    have hflush := flushed_cancel hlined.flags
    exact hkeep (h.told hflush) rfl rfl rfl
  | core next =>
    cases hstep
    exact hkeep h rfl rfl rfl
  | getC =>
    cases hstep
    have hr : SameLine s.rx (((Serial.serialGetC s.rx).map Prod.snd).getD s.rx) := by
      cases hget : Serial.serialGetC s.rx with
      | none => exact ⟨hlined.flags, rfl, rfl, rfl⟩
      | some x => exact serialGetC_sameLine hlined.flags hget
    have ht := h.sameLine hr
    exact hkeep ht rfl rfl rfl
  | closeEnvelope =>
    cases hstep
    exact hkeep h rfl rfl rfl

/-- A request that is handled with no line in flight. -/
theorem CoreLine.handled {e : Env} {a : Asker} {req : List UInt8} {s t : State} {texts : Nat → List UInt8}
    (h : CoreLine s.rx texts) (hflags : Flagged s.rx) (hactive : s.rx.injActive = false)
    (hhandled : Handled e a req s t) : CoreLine t.rx (textsBehind s.rx t.rx texts) := by
  have hsame {u : State} (hrx : u.rx = s.rx) : CoreLine u.rx (textsBehind s.rx u.rx texts) := by
    rwa [hrx, textsBehind_same rfl]
  cases hhandled with
  | answers answer => exact hsame (reply_rx _ _ _ _)
  | cancels hreq => exact hsame (by rw [reply_rx, cancelPortJog_rx])
  | envelope opening hidle => exact hsame (reply_rx _ _ _ _)
  | keepsOut hjog hclosed =>
    have hinjected := serialDropSender_injected (e := e) (s := { s with keepOut := true }) hflags
    rw [reply_rx, textsBehind_same hinjected]
    unfold serialDropSender
    split
    · exact h
    · exact dropClient (s := { s with keepOut := true, messages := _ }) h hflags fun _ => h.quiet hflags hactive
  | letsIn => exact hsame (reply_rx _ _ _ _)
  | injects k hasks =>
    unfold Port.inject
    split
    · next htakes => exact inject (s := { s with trayWant := k.want.or s.trayWant }) h a k.jog hflags htakes
    · split
      · exact hsame rfl
      · exact hsame (reply_rx _ _ _ _)

theorem CoreLine.pollRead {r : Read} {s : State} {texts : Nat → List UInt8} (h : CoreLine s.rx texts)
    (hflags : Flagged s.rx) (hactive : s.rx.injActive = false) :
    CoreLine (pollRead r s).rx (textsBehind s.rx (Port.pollRead r s).rx texts) := by
  have hsame {u : State} (hrx : u.rx = s.rx) : CoreLine u.rx (textsBehind s.rx u.rx texts) := by
    rwa [hrx, textsBehind_same rfl]
  unfold Port.pollRead
  split
  · exact hsame rfl
  · exact hsame (dropPortClient_rx s)
  · next conn c e hfd =>
    split
    · exact handled (s := { s with
        req := [], asked := s.asked + 1, log := s.log ++ [.asked conn s.asked] }) h hflags hactive
        (handleRequest_handled _ _ _ _)
    · split
      · exact hsame rfl
      · split
        · exact hsame rfl
        · exact hsame (dropPortClient_rx s)

theorem CoreLine.pollDeferred {e : Env} {s : State} {texts : Nat → List UInt8} (h : CoreLine s.rx texts)
    (hflags : Flagged s.rx) :
    CoreLine (pollDeferred e s).rx (textsBehind s.rx (Port.pollDeferred e s).rx texts) := by
  have hsame {u : State} (hrx : u.rx = s.rx) : CoreLine u.rx (textsBehind s.rx u.rx texts) := by
    rwa [hrx, textsBehind_same rfl]
  unfold Port.pollDeferred
  split
  · exact hsame rfl
  · next d hd =>
    split
    · next htakes => exact inject h d.asker d.jog hflags htakes
    · split
      · exact hsame (reply_rx _ _ _ _)
      · exact hsame rfl

/-- **Every step that keeps the port's jog** keeps the core's line known. -/
theorem coreLine_step {s t : State} {l : Label} {texts : Nat → List UInt8} (hstep : portStep s l = some t)
    (hlined : Lined s) (hactive : s.awaiting = s.rx.injActive) (hkeeps : keepsJog s texts l = true)
    (h : CoreLine s.rx texts) : CoreLine t.rx (textsBehind s.rx t.rx texts) := by
  have hsame (hother : l.mayInject = false) : textsBehind s.rx t.rx texts = texts :=
    textsBehind_same (step_injected hstep hlined hother) _
  cases l with
  | byte data realtime now =>
    rw [hsame rfl]
    cases hstep
    split
    · exact h
    · simp only [rxByte]
      unfold Serial.rxByte
      split
      · exact { h with }
      · split
        · exact { h with }
        · dsimp only
          split <;> exact { h with }
  | connect loopback e =>
    rw [hsame rfl]
    cases hstep
    unfold accept
    split
    · exact h
    · next haccepts =>
      have hquiet : s.rx.client = true → runsJog s.rx texts = false := by
        intro hclient
        simpa [keepsJog, hclient, haccepts] using hkeeps
      exact { h.dropClient (e := e) hlined.flags hquiet with }
  | drop e =>
    rw [hsame rfl]
    cases hstep
    exact h.dropClient hlined.flags fun hclient => by simpa [keepsJog, hclient] using hkeeps
  | welcome =>
    rw [hsame rfl]
    cases hstep
    dsimp only
    unfold Serial.welcome
    split
    · exact { h with }
    · exact h
  | pollHold =>
    rw [hsame rfl]
    cases hstep
    obtain ⟨hold, heq⟩ := pollHold_rx s
    rw [heq]
    exact { h with }
  | pollAccept hungUp =>
    rw [hsame rfl]
    cases hstep
    rwa [pollAccept_rx]
  | pollDeferred e =>
    cases hstep
    exact h.pollDeferred hlined.flags
  | pollRead r =>
    simp only [portStep] at hstep
    split at hstep
    · next hreads =>
      cases hstep
      simp only [reads, Bool.and_eq_true, Bool.not_eq_true'] at hreads
      exact h.pollRead hlined.flags (hactive.symm.trans hreads.1.2)
    · cases hstep
  | read skip =>
    rw [hsame rfl]
    obtain ⟨r, hr, rfl⟩ := Option.map_eq_some_iff.mp hstep
    exact h.coreRead hlined.flags hr
  | complete run e =>
    rw [hsame rfl]
    obtain ⟨line, r, -, hr, rfl⟩ := coreReports_eq hstep
    have hdone := h.coreCompletes hlined.flags hr
    obtain ⟨jogs, heq⟩ := acceptJog_eq line.owner (run line.entry s.rx.lastError).1 { s with rx := r }
    rw [report, heq]
    split
    · obtain ⟨hold, hrx⟩ := lineDone_rx e (some (run line.entry s.rx.lastError).1) { s with rx := r, jogs := jogs }
      rw [hrx]
      exact { hdone with }
    · exact hdone
  | abort e =>
    rw [hsame rfl]
    cases hstep
    have hgone : (Serial.coreAborts s.rx).running = none := by
      rw [Serial.coreAborts, serialRxFlush_running]
    refine CoreLine.told (s := { s with rx := Serial.coreAborts s.rx }) ?_
    exact h.flush (flushed_aborts hlined.flags) (fun line hrun => by rw [hgone] at hrun; cases hrun) (.inl hgone)
  | cancel e =>
    rw [hsame rfl]
    cases hstep
    refine CoreLine.told (s := { s with rx := Serial.serialRxCancel s.rx }) ?_
    refine h.flush (flushed_cancel hlined.flags) (fun line hrun => ?_) (.inr (by simpa [keepsJog] using hkeeps))
    exact (serialRxFlush_running s.rx).symm.trans hrun
  | core next =>
    rw [hsame rfl]
    cases hstep
    exact h
  | getC =>
    rw [hsame rfl]
    cases hstep
    have hleft : s.rx.injLeft = 0 := by simpa [keepsJog] using hkeeps
    cases hget : Serial.serialGetC s.rx with
    | none => exact h
    | some x =>
      obtain ⟨c, r⟩ := x
      obtain ⟨rest, -, ⟨-, lineOpen, rfl⟩ | ⟨hmore, -⟩⟩ := Serial.serialGetC_cases hget
      · exact { h with }
      · exact absurd hleft hmore
  | closeEnvelope =>
    rw [hsame rfl]
    cases hstep
    exact h

def Watch.start : Watch := ⟨fun _ => [], false⟩

/-- What a run keeps of the port. -/
structure Minds (s : State) (w : Watch) : Prop where
  lined : Lined s
  intent : Intent s.slot (w.texts (s.rx.injected - 1)) w.owned
  core : CoreLine s.rx w.texts
  held : ∃ unseen, Held s.gate unseen

theorem start_minds : Minds State.start Watch.start where
  lined := start_lined
  intent :=
    { active := rfl
      single := (by decide)
      jog := (by decide)
      tray := (by decide)
      deferredJog := (by rintro _ ⟨⟩)
      deferredTray := (by rintro _ ⟨⟩)
      owned := (by decide) }
  core := coreLine_start _
  held := ⟨false, by decide, by decide⟩

/-- **An accepted jog is the port's, and a tray reply a tray line's.** In every run of the port, the sender and
the core (requests, deferrals, drops, reconnects, flushes, statuses) in which no request asks for another line
while a tray switch is wanted, and in which no drop of the sender, no sender in its place and no cancel flushes
the ring while the core runs an injected `$J=` line: from the `Status_OK` that the core reports for such a line
until a poll finds the core out of its jog state `port_jog` is set and the sender held, and `line_done` answers
with the mode of the tray for the status of a tray switch only. -/
theorem accepted_jog_owned {s : State} {w : Watch}
    (hrun : Runs.Reach (Runs.observe portStep watch) (fun x l => ownsStatus x.1 x.2 l = true)
      (State.start, Watch.start) (s, w)) :
    (w.owned = true → s.portJog = true ∧ s.rx.holdSender = true) ∧
      ∀ l, repliesTray s l = true → ∃ k, okLine s l = some k ∧ isTrayLine (w.texts k) = true := by
  have h : Minds s w := by
    refine hrun.invariant (P := fun x => Minds x.1 x.2) start_minds ?_
    rintro ⟨s, w⟩ l ⟨t, w'⟩ h hok hstep
    obtain ⟨hs, rfl⟩ := Runs.observe_eq_some.mp hstep
    obtain ⟨hwants, hkeeps⟩ := Bool.and_eq_true_iff.mp hok
    obtain ⟨unseen, hheld⟩ := h.held
    have hcore := coreLine_step hs h.lined h.intent.active hkeeps h.core
    exact ⟨step_lined hs h.lined, intent_step hs h.lined hwants h.core h.intent,
      by rwa [watch_texts hs], _, step_held hs h.lined hheld⟩
  refine ⟨fun howned => ?_, fun l htray => ?_⟩
  · obtain ⟨unseen, hheld⟩ := h.held
    have hmine : s.portJog = true := h.intent.owned howned
    exact ⟨hmine, hheld.jog hmine⟩
  · cases l with
    | complete run e =>
      simp only [repliesTray, Bool.and_eq_true, Option.isSome_iff_ne_none] at htray
      obtain ⟨⟨hdue, hstatus⟩, hwant⟩ := htray
      obtain ⟨line, hrunning, howner⟩ := h.core.due hdue
      have hawaiting : s.awaiting = true := h.intent.active.trans (h.lined.flags.due hdue).1
      refine ⟨s.rx.injected - 1, ?_, h.intent.tray hawaiting hwant⟩
      rw [hrunning, Option.any_some, beq_iff_eq] at hstatus
      simp only [okLine, hrunning, Option.bind_some, hstatus, if_true, howner]
    | _ => cases htray

/-! ### A jog behind a tray switch

A run that meets the condition, and the jog whose status is taken for a switch's. -/

/-- The panel's jog is accepted. -/
theorem accepted_jog_owned_panel :
    ∃ s w, Runs.Reach (Runs.observe portStep watch) (fun x l => ownsStatus x.1 x.2 l = true)
        (State.start, Watch.start) (s, w) ∧
      w.texts 0 = ascii "$J=X1" ∧ s.portJog = true ∧ s.rx.holdSender = true := by
  have hex : ∃ x, Runs.Reach (Runs.observe portStep watch) (fun x l => ownsStatus x.1 x.2 l = true)
        (State.start, Watch.start) x ∧ (x.2.texts 0 = ascii "$J=X1" ∧ x.2.owned = true) :=
    Runs.exists_reach_of_exec ([Label.pollAccept false] ++ requestLine "jog X1" {} ++ jogRuns 0 {})
      (by decide +kernel)
  obtain ⟨⟨s, w⟩, hrun, htext, howned⟩ := hex
  exact ⟨s, w, hrun, htext, (accepted_jog_owned hrun).1 howned⟩

/-- A tray switch waits for the sender's empty line, its client hangs up and comes back; the core reads the
empty line. -/
def traySwitchDropped : List Label :=
  [Label.pollAccept false, .byte 10 false 0] ++ requestLine "tray out" {} ++
    [Label.pollAccept true, .read false, .complete (fun _ _ => (0, 0)) {}]

/-- **The next jog is nobody's.** Its status finds the dropped switch still wanted and is answered with the
mode of the tray; the port does not take the jog, and the sender is not held under it. -/
theorem jog_taken_for_tray :
    ¬∀ (s : State) (w : Watch),
      Runs.Reach (Runs.observe portStep watch) (fun _ _ => True) (State.start, Watch.start) (s, w) →
      w.owned = true → s.portJog = true ∧ s.rx.holdSender = true := by
  intro hall
  have hex : ∃ x, Runs.Reach (Runs.observe portStep watch) (fun _ _ => True) (State.start, Watch.start) x ∧
      (x.2.owned = true ∧ x.1.portJog = false) :=
    Runs.exists_reach_of_exec (traySwitchDropped ++ requestLine "jog X1" {} ++ jogRuns 0 {}) (by decide +kernel)
  obtain ⟨⟨s, w⟩, hrun, howned, hnone⟩ := hex
  exact absurd (hnone.symm.trans (hall s w hrun howned).1) Bool.false_ne_true

end Glowforge.Port
