import Glowforge.Port.Frame

/-!
# Glowforge — the port's replies are to its requests

Nothing is read from the client while a line's status is outstanding or a line waits to be
injected, so a connection has one request open at most, and the next reply is for it. The status
of a line whose connection was dropped finds no client, unless another has connected by then.

* **`Desk`** — what the replies depend on.
* **`Matched`** — each connection's replies are to its requests, in order, and the one that is
  served has at most the open request unanswered.
* **`replies_match`** — so it stays as long as no connection is accepted while the line of a
  dropped one is outstanding.
-/

namespace Glowforge.Port

open Laser (SysState)
open Serial (Rx Status isEol)

/-! ## The log -/

def askedIn (conn : Nat) : Event → Option Nat
  | .asked c n => if c = conn then some n else none
  | .replied _ _ _ => none

def repliedIn (conn : Nat) : Event → Option Nat
  | .asked _ _ => none
  | .replied c n _ => if c = conn then some n else none

/-- The requests that a connection has sent. -/
def askedOf (conn : Nat) (log : List Event) : List Nat := log.filterMap (askedIn conn)

/-- The requests that a connection has been sent replies to. -/
def repliedOf (conn : Nat) (log : List Event) : List Nat := log.filterMap (repliedIn conn)

theorem askedOf_asked (conn c n : Nat) (log : List Event) :
    askedOf conn (log ++ [.asked c n]) = askedOf conn log ++ if c = conn then [n] else [] := by
  simp only [askedOf, List.filterMap_append, List.filterMap_cons, List.filterMap_nil, askedIn]
  split_ifs <;> rfl

theorem askedOf_replied (conn c n : Nat) (text : String) (log : List Event) :
    askedOf conn (log ++ [.replied c n text]) = askedOf conn log := by
  simp [askedOf, askedIn]

theorem repliedOf_asked (conn c n : Nat) (log : List Event) :
    repliedOf conn (log ++ [.asked c n]) = repliedOf conn log := by
  simp [repliedOf, repliedIn]

theorem repliedOf_replied (conn c n : Nat) (text : String) (log : List Event) :
    repliedOf conn (log ++ [.replied c n text]) = repliedOf conn log ++ if c = conn then [n] else [] := by
  simp only [repliedOf, List.filterMap_append, List.filterMap_cons, List.filterMap_nil, repliedIn]
  split_ifs <;> rfl

/-! ## The desk

What a reply can depend on: the client, the line whose status is outstanding, and the line that is
deferred. -/

structure Desk where
  fd : Option Nat
  awaiting : Bool
  deferred : Option Asker
  -- `inj_active`, and the request of the line that was injected last
  active : Bool
  current : Asker
  accepted : Nat
  asked : Nat
  log : List Event

def State.desk (s : State) : Desk where
  fd := s.fd
  awaiting := s.awaiting
  deferred := s.deferred.map Deferred.asker
  active := s.rx.injActive
  current := (s.injected (s.rx.injected - 1)).asker
  accepted := s.accepted
  asked := s.asked
  log := s.log

/-- The request that is open. -/
def Desk.outstanding (d : Desk) : List Asker := if d.awaiting then [d.current] else d.deferred.toList

/-- The log so far: the requests are numbered in order, and each connection's replies are to the
first of its requests. -/
structure Logged (d : Desk) : Prop where
  active : d.awaiting = d.active
  known : ∀ c, d.fd = some c → c < d.accepted
  fresh : ∀ c, d.accepted ≤ c → askedOf c d.log = [] ∧ repliedOf c d.log = []
  ordered : ∀ c, (askedOf c d.log).Pairwise (· < ·)
  below : ∀ c, ∀ n ∈ askedOf c d.log, n < d.asked
  own : ∀ c c' n, n ∈ askedOf c d.log → n ∈ askedOf c' d.log → c = c'
  answered : ∀ c, repliedOf c d.log <+: askedOf c d.log

/-- The connection that is served has the requests `as` unanswered. -/
structure Owes (d : Desk) (as : List Asker) : Prop extends Logged d where
  open_ : ∀ c, d.fd = some c → askedOf c d.log = repliedOf c d.log ++ as.map Asker.request

structure Matched (d : Desk) : Prop where
  owes : Owes d d.outstanding
  single : d.awaiting = true → d.deferred = none
  closed : d.fd = none → d.deferred = none

/-- Nobody is served. -/
theorem Logged.drop {d : Desk} (h : Logged d) (as : List Asker) :
    Owes { d with fd := none, deferred := none } as :=
  ⟨{ h with known := (by rintro _ ⟨⟩) }, by rintro _ ⟨⟩⟩

/-! ## The client -/

theorem dropPortClient_desk {s : State} {conn : Nat} (h : s.fd = some conn) :
    (dropPortClient s).desk = { s.desk with fd := none, deferred := none } := by
  obtain ⟨sent, jogs, heq⟩ := dropPortClient_eq h
  rw [heq]
  rfl

/-- A reply to the one request that is open. -/
theorem Owes.reply {e : Env} {a : Asker} {text : String} {s : State} (h : Owes s.desk [a])
    (hawaiting : s.awaiting = false) (hdeferred : s.deferred = none) :
    Matched (reply e a text s).desk := by
  unfold Port.reply
  split
  · next hfd =>
    refine ⟨⟨h.toLogged, fun c hc => ?_⟩, fun _ => ?_, fun _ => ?_⟩
    · rw [show s.desk.fd = none from hfd] at hc
      cases hc
    · simp [State.desk, hdeferred]
    · simp [State.desk, hdeferred]
  · next conn hfd =>
    split
    · -- the reply goes to the connection that is served, and so is the request's
      have hopen := h.open_ conn hfd
      have hout : ({ s with log := s.log ++ [.replied conn a.request text] } : State).desk.outstanding = [] := by
        simp [Desk.outstanding, State.desk, hawaiting, hdeferred]
      refine ⟨⟨⟨h.active, h.known, fun c hc => ?_, ?_, ?_, ?_, fun c => ?_⟩, fun c hc => ?_⟩, fun _ => ?_,
        fun _ => ?_⟩
      · have hne : conn ≠ c := by
          have hlt := h.known conn hfd
          exact Nat.ne_of_lt (Nat.lt_of_lt_of_le hlt hc)
        simp only [State.desk, askedOf_replied, repliedOf_replied, if_neg hne, List.append_nil]
        exact h.fresh c hc
      · simpa only [State.desk, askedOf_replied] using h.ordered
      · simpa only [State.desk, askedOf_replied] using h.below
      · simpa only [State.desk, askedOf_replied] using h.own
      · simp only [State.desk, askedOf_replied, repliedOf_replied]
        split
        · next heq =>
          subst heq
          exact hopen ▸ List.prefix_rfl
        · rw [List.append_nil]
          exact h.answered c
      · obtain rfl : conn = c := Option.some.inj (hfd.symm.trans hc)
        rw [hout]
        simp only [State.desk, askedOf_replied, repliedOf_replied, if_true, List.map_nil, List.append_nil]
        exact hopen
      · simp [State.desk, hdeferred]
      · simp [State.desk, hdeferred]
    · rw [dropPortClient_desk hfd]
      exact ⟨h.toLogged.drop _, fun _ => rfl, fun _ => rfl⟩

/-- The line of the one request that is open is injected. -/
theorem Owes.await {a : Asker} {line : List UInt8} {jog : Bool} {s : State} (h : Owes s.desk [a])
    (htakes : takesLine line s.rx = true) (hdeferred : s.deferred = none) :
    Matched (await a line jog s).desk := by
  obtain ⟨-, -, hinject⟩ := takesLine_eq htakes
  have hdesk : (Port.await a line jog s).desk = { s.desk with awaiting := true, active := true, current := a } := by
    simp only [Port.await, State.desk, hinject, Nat.add_sub_cancel, Function.update_self]
  rw [hdesk]
  have hnone : s.desk.deferred = none := by simp [State.desk, hdeferred]
  exact ⟨⟨{ h.toLogged with active := rfl }, h.open_⟩, fun _ => hnone, fun _ => hnone⟩

theorem Owes.inject {e : Env} {a : Asker} {line : List UInt8} {jog : Bool} {s : State}
    (h : Owes s.desk [a]) (hfd : s.fd ≠ none) (hawaiting : s.awaiting = false) (hdeferred : s.deferred = none) :
    Matched (inject e a line jog s).desk := by
  unfold Port.inject
  split
  · next htakes => exact h.await htakes hdeferred
  · split
    · refine ⟨⟨{ h.toLogged with }, fun c hc => ?_⟩, fun hno => ?_, fun hno => absurd hno hfd⟩
      · have hout : ({ s with deferred := some ⟨line, jog, e.now + deferMs, a⟩ } : State).desk.outstanding = [a] := by
          simp [Desk.outstanding, State.desk, hawaiting]
        rw [hout]
        exact h.open_ c hc
      · rw [show s.awaiting = true from hno] at hawaiting
        cases hawaiting
    · exact Owes.reply (s := { s with trayWant := none }) h hawaiting hdeferred

/-- **The status of the injected line** answers the open request. -/
theorem Owes.lineDone {e : Env} {status : Option Status} {s : State} {a : Asker}
    (h : Owes { s.desk with awaiting := false } [a])
    (ha : (s.injected (s.rx.injected - 1)).asker = a) (hdeferred : s.deferred = none) :
    Matched (lineDone e status s).desk := by
  subst ha
  unfold Port.lineDone
  dsimp only
  split
  · exact Owes.reply (s := { s with awaiting := false, trayWant := none }) h rfl hdeferred
  · split
    · exact Owes.reply (s := { s with awaiting := false, trayWant := none }) h rfl hdeferred
    · split
      · exact Owes.reply (s := ownJog { s with awaiting := false, trayWant := none }) h rfl hdeferred
      · exact Owes.reply (s := { s with awaiting := false, trayWant := none }) h rfl hdeferred
  · exact Owes.reply (s := { s with awaiting := false, trayWant := none }) h rfl hdeferred

/-! ## The steps

A reply answers the one open request; a request is read only when there is none. -/

/-- The injected line ends: its flag goes down, and the port is told. -/
theorem Matched.done {e : Env} {status : Option Status} {s t : State} (h : Matched s.desk)
    (hactive : s.rx.injActive = true) (hdesk : t.desk = { s.desk with active := false })
    (hdeferred : t.deferred = s.deferred) : Matched (lineDone e status t).desk := by
  have hawaiting : s.desk.awaiting = true := h.owes.active.trans hactive
  have hout : s.desk.outstanding = [s.desk.current] := by rw [Desk.outstanding, if_pos hawaiting]
  refine Owes.lineDone (a := s.desk.current) ?_ (congrArg Desk.current hdesk) ?_
  · rw [hdesk]
    refine ⟨{ h.owes.toLogged with active := rfl }, ?_⟩
    rw [← hout]
    exact h.owes.open_
  · have hnone := h.single hawaiting
    rw [hdeferred]
    cases hd : s.deferred with
    | none => rfl
    | some d =>
      rw [State.desk, hd] at hnone
      cases hnone

theorem Matched.told {e : Env} {s : State} {r : Rx} (h : Matched s.desk) (hflush : Flushed s r) :
    Matched (if s.rx.injActive then lineDone e none { s with rx := r } else { s with rx := r }).desk := by
  have hdesk : ({ s with rx := r } : State).desk = { s.desk with active := false } := by
    rw [State.desk, hflush.active, hflush.injected]
    rfl
  split
  · next hactive => exact h.done hactive hdesk rfl
  · next hactive =>
    have hactive : s.desk.active = false := by simpa [State.desk] using hactive
    rw [hdesk, ← hactive]
    exact h

theorem Matched.dropClient {e : Env} {s : State} (h : Matched s.desk) (hflags : Flagged s.rx) :
    Matched (dropClient e s).desk := by
  unfold Port.dropClient
  split
  · exact Matched.told (s := { s with rx := { s.rx with client := false }, loopback := false }) h
      (flushed_flush (s := { s with rx := { s.rx with client := false }, loopback := false })
        { hflags with })
  · exact h

/-- With no line in flight a sender that is dropped changes nothing here. -/
theorem serialDropSender_desk {e : Env} {s : State} (hflags : Flagged s.rx)
    (hactive : s.rx.injActive = false) : (serialDropSender e s).desk = s.desk ∧
      (serialDropSender e s).awaiting = s.awaiting ∧ (serialDropSender e s).deferred = s.deferred := by
  obtain ⟨r, loopback, messages, heq, rfl | rfl⟩ := serialDropSender_eq (e := e) hactive
  · rw [heq]
    exact ⟨rfl, rfl, rfl⟩
  · have hflush := serialRxFlush_flags (r := { s.rx with client := false }) { hflags with }
    rw [heq]
    refine ⟨?_, rfl, rfl⟩
    rw [State.desk, hflush.2.1, hflush.2.2.1, ← hactive]
    rfl

/-- What a request comes to answers it, or leaves it open. -/
theorem Owes.handled {e : Env} {a : Asker} {req : List UInt8} {s t : State} (hhandled : Handled e a req s t)
    (h : Owes s.desk [a]) (hflags : Flagged s.rx) (hfd : s.fd ≠ none) (hawaiting : s.awaiting = false)
    (hdeferred : s.deferred = none) : Matched t.desk := by
  cases hhandled with
  | answers text => exact h.reply hawaiting hdeferred
  | cancels hreq =>
    obtain ⟨sent, jogs, heq⟩ := cancelPortJog_eq s
    rw [heq]
    exact Owes.reply (s := { s with cancelSent := sent, jogs := jogs }) h hawaiting hdeferred
  | envelope opening hidle =>
    exact Owes.reply (s := { s with envelopeOpen := opening }) h hawaiting hdeferred
  | keepsOut hjog hclosed =>
    obtain ⟨hdesk, haw, hdef⟩ := serialDropSender_desk (e := e) (s := { s with keepOut := true }) hflags
      (h.active.symm.trans hawaiting)
    refine Owes.reply ?_ (haw.trans hawaiting) (hdef.trans hdeferred)
    rw [hdesk]
    exact h
  | letsIn => exact Owes.reply (s := { s with keepOut := false }) h hawaiting hdeferred
  | injects k hasks =>
    exact Owes.inject (s := { s with trayWant := k.want.or s.trayWant }) h hfd hawaiting hdeferred

/-- A complete request is open until it is answered. -/
theorem Matched.request {e : Env} {conn : Nat} {s : State} (h : Matched s.desk) (hflags : Flagged s.rx)
    (hfd : s.fd = some conn) (hawaiting : s.awaiting = false) (hdeferred : s.deferred = none) :
    Matched (request e conn s).desk := by
  have hout : s.desk.outstanding = [] := by
    simp [Desk.outstanding, State.desk, hawaiting, hdeferred]
  refine Owes.handled (handleRequest_handled _ _ _ _) ?_ hflags (by simp [hfd]) hawaiting hdeferred
  have hl := h.owes.toLogged
  have hnew : ∀ c, s.desk.asked ∉ askedOf c s.log := fun c hmem => Nat.lt_irrefl _ (hl.below c _ hmem)
  refine ⟨⟨hl.active, hl.known, fun c hc => ?_, fun c => ?_, fun c n hn => ?_, fun c c' n hn hn' => ?_,
    fun c => ?_⟩, fun c hc => ?_⟩
  · have hne : conn ≠ c := Nat.ne_of_lt (Nat.lt_of_lt_of_le (hl.known conn hfd) hc)
    simp only [State.desk, askedOf_asked, repliedOf_asked, if_neg hne, List.append_nil]
    exact hl.fresh c hc
  · simp only [State.desk, askedOf_asked]
    split
    · refine List.pairwise_append.mpr ⟨hl.ordered c, List.pairwise_singleton _ _, fun n hn m hm => ?_⟩
      rw [List.mem_singleton.mp hm]
      exact hl.below c n hn
    · rw [List.append_nil]
      exact hl.ordered c
  · simp only [State.desk, askedOf_asked] at hn ⊢
    rcases List.mem_append.mp hn with hn | hn
    · exact Nat.lt_succ_of_lt (hl.below c n hn)
    · split at hn
      · rw [List.mem_singleton.mp hn]
        exact Nat.lt_succ_self _
      · cases hn
  · simp only [State.desk, askedOf_asked] at hn hn'
    rcases List.mem_append.mp hn with hn | hn <;> rcases List.mem_append.mp hn' with hn' | hn'
    · exact hl.own c c' n hn hn'
    · split at hn'
      · rw [List.mem_singleton.mp hn'] at hn
        exact absurd hn (hnew c)
      · cases hn'
    · split at hn
      · rw [List.mem_singleton.mp hn] at hn'
        exact absurd hn' (hnew c')
      · cases hn
    · split at hn
      · split at hn'
        · next heq heq' => rw [← heq, ← heq']
        · cases hn'
      · cases hn
  · simp only [State.desk, askedOf_asked, repliedOf_asked]
    exact (hl.answered c).trans (List.prefix_append _ _)
  · obtain rfl : conn = c := Option.some.inj (hfd.symm.trans hc)
    have hopen := h.owes.open_ conn hfd
    rw [hout, List.map_nil, List.append_nil] at hopen
    simp only [State.desk, askedOf_asked, repliedOf_asked, if_true, List.map_cons, List.map_nil]
    rw [show askedOf conn s.log = repliedOf conn s.log from hopen]

theorem Matched.dropPort {s : State} (h : Matched s.desk) : Matched (dropPortClient s).desk := by
  cases hfd : s.fd with
  | none =>
    unfold dropPortClient
    rw [hfd]
    exact h
  | some conn =>
    rw [dropPortClient_desk hfd]
    exact ⟨h.owes.toLogged.drop _, fun _ => rfl, fun _ => rfl⟩

theorem Matched.pollRead {r : Read} {s : State} (h : Matched s.desk) (hflags : Flagged s.rx)
    (hreads : reads s = true) : Matched (pollRead r s).desk := by
  simp only [reads, Bool.and_eq_true, Bool.not_eq_true', Option.isNone_iff_eq_none] at hreads
  unfold Port.pollRead
  split
  · exact h
  · exact h.dropPort
  · next hfd =>
    split
    · exact h.request hflags hfd hreads.1.2 hreads.2
    · split
      · exact h
      · split
        · exact h
        · exact h.dropPort

theorem Matched.pollDeferred {e : Env} {s : State} (h : Matched s.desk) :
    Matched (pollDeferred e s).desk := by
  unfold Port.pollDeferred
  split
  · exact h
  · next d hd =>
    have hawaiting : s.awaiting = false := by
      by_contra hno
      have hnone := h.single (by simpa [State.desk] using hno)
      rw [State.desk, hd] at hnone
      cases hnone
    have howes : Owes ({ s with deferred := none } : State).desk [d.asker] := by
      refine ⟨{ h.owes.toLogged with }, fun c hc => ?_⟩
      have hopen := h.owes.open_ c hc
      rwa [Desk.outstanding, if_neg (by simp [State.desk, hawaiting]), State.desk, hd] at hopen
    split
    · next htakes => exact Owes.await (s := { s with deferred := none }) howes htakes rfl
    · split
      · exact Owes.reply (s := { s with deferred := none, trayWant := none }) howes hawaiting rfl
      · exact h

/-- No connection is accepted while the line of a dropped one is outstanding. -/
def acceptsSettled (s : State) : Label → Bool
  | .pollAccept hungUp => !(s.fd.isNone || hungUp) || !s.awaiting
  | _ => true

/-- A new connection is served, and nothing is open. -/
theorem Matched.serve {s : State} (h : Matched s.desk) (hfd : s.fd = none) (hawaiting : s.awaiting = false) :
    Matched s.serve.desk := by
  have hdeferred : s.desk.deferred = none := h.closed hfd
  have hl := h.owes.toLogged
  refine ⟨⟨⟨hl.active, fun c hc => ?_, fun c hc => hl.fresh c (Nat.le_of_succ_le hc), hl.ordered, hl.below,
    hl.own, hl.answered⟩, fun c hc => ?_⟩, fun _ => hdeferred, by rintro ⟨⟩⟩
  · cases hc
    exact Nat.lt_succ_self _
  · cases hc
    obtain ⟨hasked, hreplied⟩ := hl.fresh s.accepted le_rfl
    have hout : s.serve.desk.outstanding = [] := by
      rw [Desk.outstanding, if_neg (by simp [State.desk, State.serve, hawaiting])]
      exact congrArg Option.toList hdeferred
    rw [hout, List.map_nil, List.append_nil]
    exact hasked.trans hreplied.symm

theorem Matched.pollAccept {hungUp : Bool} {s : State} (h : Matched s.desk)
    (hok : acceptsSettled s (.pollAccept hungUp) = true) : Matched (pollAccept hungUp s).desk := by
  rw [pollAccept_eq]
  split
  · exact h
  · next hgone =>
    have hgone : s.fd = none ∨ hungUp = true := by
      cases hfd : s.fd with
      | none => exact .inl rfl
      | some conn => exact .inr (by simpa [hfd] using hgone)
    have hawaiting : s.awaiting = false := by
      rcases hgone with hnone | hhung
      · simpa [acceptsSettled, hnone] using hok
      · simpa [acceptsSettled, hhung] using hok
    have hdrop := h.dropPort
    cases hfd : s.fd with
    | none =>
      rw [dropPortClient_none hfd]
      exact h.serve hfd hawaiting
    | some conn =>
      obtain ⟨sent, jogs, heq⟩ := dropPortClient_eq hfd
      rw [heq] at hdrop ⊢
      exact hdrop.serve rfl hawaiting

end Glowforge.Port
