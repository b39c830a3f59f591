import Interdomain.Proofs.Books
import Interdomain.Proofs.Replies

/-! What the parts of an operation mean to the books. Most of what a gateway does leaves them alone; timeouts end
authorizations only; an event on the stream of a peer may besides begin a stream, authorize a pair of domains,
or deliver what came in. -/
namespace Interdomain

open Protocol (Dialback)

namespace Gateway

variable {g g' : Gateway} {t : LinkId} {k : Claim} {r : Route} {n : Negotiation} {e : Xml.Element}

theorem sendElement_rests (g : Gateway) (link : LinkId) (e : Xml.Element) :
    Rests g (g.act (·.sendElement link e)) := .act (.emit _ id)

theorem bounce_rests (g : Gateway) (stanzas : List Xml.Element) (reason : BounceReason) :
    Rests g (stanzas.foldl (fun g s => g.emit (.bounce s reason)) g) :=
  foldl_relation .refl (fun _ _ _ => .trans) (f := fun g s => g.emit (.bounce s reason))
    (fun _ _ _ => .act (.emit _ id)) g

/-- The settlement of a claim grants it, or nothing. -/
theorem SettleStep.rests {valid : Bool} (h : g.SettleStep k valid g') :
    Rests g g' ∨ valid = true ∧ ∃ t, g.IsOpen k t ∧ g.Admits k t ∧ g' = g.grant k t := by
  have sent (t : LinkId) : Rests g ((g.closeClaim k).sendResult t k false) := ⟨rfl, rfl, rfl, rfl, .emit _ id⟩
  cases h with
  | ignored _ => exact .inl (.refl g)
  | @granted t isOpen admits => exact .inr ⟨rfl, t, isOpen, admits, rfl⟩
  | refused _ => exact .inl (sent _)
  | violates _ _ => exact .inl ((sent _).trans (fail_rests _ _ _))

theorem failVerify_rests (g : Gateway) (v : Xml.Element) : Rests g (g.failVerify v) := by
  rcases g.failVerify_cases v with ⟨k, hk⟩ | h
  · rw [failVerify_of_names hk]
    rcases (g.settle_step k false).rests with h | ⟨h, _⟩
    · exact h
    · cases h
  · rw [h]
    exact .refl g

theorem onVerify_rests (g : Gateway) (link : LinkId) (e : Xml.Element) :
    Rests g (g.onVerify link e) ∨ ∃ k t, Dialback.Vouches e k ∧ g.IsOpen k t ∧ g.Admits k t ∧
      g.onVerify link e = g.grant k t := by
  have hs := g.onVerify_step link e
  generalize g.onVerify link e = g' at hs
  cases hs with
  | @settles claim valid decides =>
    rcases (g.settle_step claim valid).rests with h | ⟨rfl, t, isOpen, admits, h⟩
    · exact .inl h
    · exact .inr ⟨claim, t, Dialback.vouches_iff.mpr decides, isOpen, admits, h⟩
  | replies => exact .inl (sendElement_rests _ _ _)
  | fails => exact .inl (fail_rests _ _ _)

theorem retire_rests (g : Gateway) (route : Route) (linkGone : Bool) : Rests g (g.retire route linkGone) := by
  cases hn : g.negotiations.get? route with
  | none =>
    rw [retire, hn]
    exact .refl g
  | some n =>
    rw [retire_eq hn]
    refine Rests.trans ?_ ((bounce_rests _ n.stanzas _).trans
      (foldl_relation .refl (fun _ _ _ => .trans) (fun g v _ => g.failVerify_rests v) _))
    cases linkGone with
    | true => exact ⟨rfl, rfl, rfl, rfl, .refl _⟩
    | false => exact ⟨rfl, rfl, rfl, rfl, .emit _ id⟩

theorem setNegotiation_rests {turn : Turn} (hs : turn.Serves n g.world) :
    Rests g (g.setNegotiation turn.negotiation turn.world) := ⟨rfl, rfl, rfl, rfl, hs.speaks.unbooked⟩

theorem hold_rests (g : Gateway) (n : Negotiation) (e : Xml.Element) : Rests g (g.hold n e).1 := by
  unfold hold Negotiation.addVerify
  split
  · dsimp only
    split
    · exact ⟨rfl, rfl, rfl, rfl, .emit _ id⟩
    · exact ⟨rfl, rfl, rfl, rfl, .refl _⟩
  · exact ⟨rfl, rfl, rfl, rfl, .refl _⟩

theorem putNegotiation_rests {w : World} (begins : n.Begins g.world w) : Rests g (g.putNegotiation n w) := by
  obtain ⟨address, timeout, rfl, _⟩ := begins.opens
  exact ⟨rfl, rfl, rfl, rfl, .connect _ id⟩

/-- An element for a route goes out on it. -/
theorem submit_of_carrier {c : Carrier} (goes : GoesTo e r) (found : g.routes.get? r = some c)
    (resolved : Option String) : (g.submit e resolved).1 = { g with
      world := g.world.sendElement c.link e
      routes := g.routes.modify r (·.carry g.now) } := by
  obtain ⟨a, ha, rfl⟩ := goes
  simp only [submit, ha, submitOn, found]

theorem submit_rests (unrouted : ∀ r, GoesTo e r → g.routes.get? r = none) (resolved : Option String) :
    Rests g (g.submit e resolved).1 := by
  have hs := g.submit_step e resolved
  generalize g.submit e resolved = s at hs
  cases hs with
  | @carried r c goes found =>
    rw [unrouted r goes] at found
    cases found
  | @asked r n _ _ _ =>
    have kept : Rests g (g.setNegotiation n g.world) := ⟨rfl, rfl, rfl, rfl, .refl _⟩
    exact kept.trans (hold_rests _ _ _)
  | @joined r n _ _ _ => exact (setNegotiation_rests (n.want_serves g.setup g.world)).trans (hold_rests _ _ _)
  | began _ _ _ begins _ _ => exact (putNegotiation_rests begins).trans (hold_rests _ _ _)
  | refused _ _ _ => exact failVerify_rests _ _
  | dropped _ _ => exact .refl g
  | returned _ => exact bounce_rests g [e] _

theorem ClosedStep.rests (hc : g.ClosedStep n g') : Rests g g' := by
  have forgotten (m : Negotiation) :
      Rests g { g.setNegotiation m g.world with attempts := g.attempts.erase m.link } :=
    ⟨rfl, rfl, rfl, rfl, .refl _⟩
  cases hc with
  | @advanced m k w _ _ _ advances _ =>
    obtain ⟨begins, _⟩ := Negotiation.advance?_begins advances
    exact (forgotten m).trans (putNegotiation_rests begins)
  | @retired m _ _ _ _ => exact (forgotten m).trans (retire_rests _ _ _)

theorem endChallenge_rests (g : Gateway) (challenge : String) : Rests g (g.endChallenge challenge).1 := by
  unfold endChallenge
  split
  · exact .refl g
  · exact ⟨rfl, rfl, rfl, rfl, .emit _ id⟩

theorem closeAttempt_rests (g : Gateway) (route : Route) : Rests g (g.closeAttempt route).1 := by
  unfold closeAttempt
  split
  · exact .refl g
  · exact close_rests _ _

theorem sweepQueue_rests (now : Nat) (g : Gateway) (route : Route) : Rests g (sweepQueue now g route).1 :=
  sweepQueue_relation .refl (fun _ _ _ => .trans) (fun _ _ => ⟨rfl, rfl, rfl, rfl, .refl _⟩) bounce_rests
    fun g _ _ _ => g.retire_rests route false

theorem sweepIdle_lapses (g : Gateway) (now : Nat) : Lapses g (g.sweepIdle now).1 := by
  unfold sweepIdle
  dsimp only
  refine Lapses.trans (sweepEach_relation .refl (fun _ _ _ => .trans) (fun g r => ?_) _ g)
    (Lapses.trans (sweepEach_relation .refl (fun _ _ _ => .trans) (fun g k => ?_) _ _)
      (sweepEach_relation .refl (fun _ _ _ => .trans) endLegacy_lapses _ _))
  · exact g.releaseRoute_lapses r
  · exact g.releaseClaim_lapses k

theorem sweepUnauthorized_lapses (g : Gateway) (now : Nat) : Lapses g (g.sweepUnauthorized now).1 := by
  have ended (g : Gateway) (x : String) : Lapses g (g.endChallenge x).1 := by
    refine (Lapses.refl g).rests (g.endChallenge_rests x) ?_
    unfold endChallenge
    split <;> rfl
  have closed (g : Gateway) (r : Route) : Lapses g (g.closeAttempt r).1 := by
    refine (Lapses.refl g).rests (g.closeAttempt_rests r) ?_
    unfold closeAttempt
    split <;> rfl
  unfold sweepUnauthorized
  dsimp only
  refine Lapses.trans (sweepEach_relation .refl (fun _ _ _ => .trans) ended (g.staleChallenges now) g)
    (Lapses.trans ?_ (sweepEach_relation .refl (fun _ _ _ => .trans) closed _ _))
  generalize (sweepEach endChallenge (g.staleChallenges now) g).1 = g₁
  refine (sweepEach_induction (I := fun g => Lapses g₁ g ∧ ∀ t stream, g.streams.get? t = some stream →
    g₁.streams.get? t = some stream) ?_ ⟨.refl g₁, fun _ _ => id⟩).1
  rintro g ⟨hg, hs⟩ t ht
  refine ⟨hg.trans (endSilent_lapses fun stream h => ?_), fun u stream h => hs u stream (endSilent_streams g t h)⟩
  obtain ⟨stream', hs', hp⟩ := mem_keysWhere.mp ht
  rw [hs t stream h] at hs'
  cases hs'
  simp only [Bool.and_eq_true, decide_eq_true_eq] at hp
  exact hp.1

/-- A sweep ends authorizations that were idle, and streams that were idle or said nothing. -/
theorem sweepAt_books (g : Gateway) (now : Nat) : (∃ gone, Drops g (g.sweepAt now).1 gone) ∧
    ∃ gone left, Dismisses g (g.sweepAt now).1 gone left := by
  have lapsed := (g.sweepIdle_lapses now).trans ((g.sweepIdle now).1.sweepUnauthorized_lapses now)
  have queues (g : Gateway) (rs : List Route) : Rests g (sweepQueues now rs g).1 :=
    sweepQueues_relation .refl (fun _ _ _ => .trans) (sweepQueue_rests now) rs g
  obtain ⟨gone, drops⟩ := lapsed.drops
  obtain ⟨ended, left, dismisses⟩ := lapsed.dismisses
  unfold sweepAt
  dsimp only
  exact ⟨⟨gone, drops.rests (queues _ _)⟩, ended, left, dismisses.rests (queues _ _)⟩

/-- A stream that is not legacy changes, and is not legacy afterwards. -/
theorem modifyStream_lapses {s : InboundStream} (hs : g.streams.get? t = some s)
    (before : legacy? (t, s) = none) {f : InboundStream → InboundStream} (after : legacy? (t, f s) = none) :
    Lapses g { g with streams := g.streams.modify t f } := by
  have old := legacies_erase hs
  have new := legacies_modify hs f
  rw [before] at old
  rw [after] at new
  exact ⟨rfl, ⟨[], .refl _, id, [], by simp, rfl⟩, [], [], .refl _, old.trans new.symm, [], by simp, by simp, .refl _⟩

/-- A stream that opens waits for a header, so it is no legacy one. -/
theorem legacies_openStream (g : Gateway) (link : LinkId) : (g.openStream link).legacies.Perm g.legacies := by
  unfold openStream
  split
  · exact .refl _
  · rename_i hc
    have h := (Table.entries_insert g.streams link { since := g.now }).filterMap legacy?
    rwa [Table.erase_of_get? (Table.contains_eq_false.mp (Bool.eq_false_iff.mpr hc))] at h

theorem openStream_admissions (g : Gateway) (link : LinkId) : (g.openStream link).admissions = g.admissions := by
  unfold openStream
  split <;> rfl

theorem openStream_lapses (g : Gateway) (link : LinkId) : Lapses g (g.openStream link) := by
  have trace : (g.openStream link).world.trace = g.world.trace ++ [] := by rw [openStream_world, List.append_nil]
  have admissions : g.admissions.entries.Perm ([] ++ (g.openStream link).admissions.entries) := by
    rw [openStream_admissions, List.nil_append]
  exact ⟨congrArg World.now (g.openStream_world link),
    ⟨_, drops_of_keeps (g.openStream_keepsOutbound link) (.of_trace (by rw [openStream_world]))⟩,
    [], [], admissions, (g.legacies_openStream link).symm, [], trace, by simp, .refl _⟩

theorem restart_lapses {s : Session} (hs : g.sessionOn t = some s) : Lapses g (g.restart t s) := by
  obtain ⟨stream, hstream, hp⟩ := sessionOn_eq_some hs
  have reset : Rests g ((g.act (·.reset t)).dropChallenge s.challenge) := ⟨rfl, rfl, rfl, rfl, .emit _ id⟩
  exact ((Lapses.refl g).rests reset rfl).trans
    (modifyStream_lapses (g := (g.act (·.reset t)).dropChallenge s.challenge) hstream (by simp [legacy?, hp])
      (f := fun x => { x with phase := .awaitingHeader, since := g.now }) rfl)

theorem identify_lapses {s : Session} (hs : g.sessionOn t = some s) (identity : String) :
    Lapses g (g.identify t s identity) := by
  obtain ⟨stream, hstream, hp⟩ := sessionOn_eq_some hs
  have sent : Lapses g (g.act (·.sendElement t Protocol.saslSuccess)) :=
    (Lapses.refl g).rests (sendElement_rests _ _ _) rfl
  refine (sent.trans (restart_lapses hs)).trans (modifyStream_lapses (s :=
    { stream with phase := .awaitingHeader, since := g.now }) ?_ rfl rfl)
  show (g.streams.modify t fun x => { x with phase := .awaitingHeader, since := g.now }).get? t = _
  rw [Table.get?_modify, if_pos rfl, hstream]
  rfl

theorem refuseHeader_rests (g : Gateway) (link : LinkId) (reply : Stream.Header) (reason : Refusal) :
    Rests g (g.refuseHeader link reply reason) := .act (.trans (.emit _ id) (.fail _ (fun _ => id) id _))

/-- What an event on the stream of a peer means to the books, if no request for a claim is passed on. -/
inductive GuestStep (g : Gateway) (t : LinkId) : LinkEvent → Gateway → Prop
  | rests {event} {g' : Gateway} (rests : Rests g g') : GuestStep g t event g'
  | lapses {event} {g' : Gateway} (lapses : Lapses g g') : GuestStep g t event g'
  | asks {e v : Xml.Element} {k : Claim} (request : e.is "result" Xml.Namespace.dialback = true)
      (verify : Dialback.isVerify v = true) :
      GuestStep g t (.element e) ((g.openClaim k).emit (.deliver v))
  | grants {e : Xml.Element} {k : Claim} {u} (hears : g.Hears e (.inbound t (.element e)))
      (vouches : Dialback.Vouches e k) (isOpen : g.IsOpen k u) (admits : g.Admits k u) :
      GuestStep g t (.element e) (g.grant k u)
  | greets {header reply peer} : GuestStep g t (.header header) ((g.openStream t).admitLegacy t reply peer)
  | accepts {header reply host peer version offer}
      (greeting : g.setup.greet (g.world.link t) ((g.openStream t).identityOn t).isSome header =
        .accepted reply host peer version offer) :
      GuestStep g t (.header header) ((g.openStream t).acceptStream t reply host peer version offer)
  | delivers {e : Xml.Element} {k : Claim} {c} (found : g.admissions.get? k = some c) :
      GuestStep g t (.element e)
        ({ g with admissions := g.admissions.modify k (·.carry g.now) }.emit (.deliver e))
  | carries {e : Xml.Element} {stream peer carrier} (found : g.streams.get? t = some stream)
      (phase : stream.phase = .legacy peer carrier) :
      GuestStep g t (.element e) ({ g with streams := g.streams.modify t fun x =>
        { x with phase := .legacy peer (carrier.carry g.now) } }.emit (.deliver e))

namespace GuestStep

theorem fail (g : Gateway) (t : LinkId) (event : LinkEvent) (error : Stream.Error) :
    GuestStep g t event (g.act (·.fail t error)) := .rests (g.fail_rests t error)

theorem onHeader (g : Gateway) (t : LinkId) (header : Stream.Header) :
    GuestStep g t (.header header) ((g.openStream t).onHeader t header) := by
  unfold Gateway.onHeader
  split
  · exact .lapses ((g.openStream_lapses t).rests (refuseHeader_rests _ t _ _) rfl)
  · exact .greets
  · rename_i hg
    rw [openStream_setup, openStream_world] at hg
    exact .accepts hg

theorem onStartTls {event : LinkEvent} {s : Session} (hs : g.sessionOn t = some s) :
    GuestStep g t event (g.onStartTls t s) := by
  unfold Gateway.onStartTls
  dsimp only
  split
  · exact .rests (.act (.trans (.emit _ id) (.finish _ (fun _ => id) id)))
  · have proceeds : Rests g (g.act fun w =>
        (w.sendElement t Protocol.tlsProceed).startTls t .server s.host) :=
      .act (.trans (.emit _ id) (.startTls _ id))
    split
    · exact .lapses (((Lapses.refl g).rests proceeds rfl).trans (restart_lapses hs))
    · exact .rests (proceeds.trans (close_rests _ _))

theorem onSaslAuth {s : Session} (hs : g.sessionOn t = some s) (e : Xml.Element) :
    GuestStep g t (.element e) (g.onSaslAuth t s e) := by
  unfold Gateway.onSaslAuth
  split
  · rename_i identity _
    exact .lapses (identify_lapses hs identity)
  · have failed := sendElement_rests g t
    dsimp only
    split
    · exact .rests ((failed _).trans (fail_rests _ _ _))
    · exact .rests ((failed _).trans (finish_rests _ _))

theorem onVerify {s : Session} (hs : g.sessionOn t = some s) (hv : Dialback.isVerify e = true) :
    GuestStep g t (.element e) (g.onVerify t e) := by
  rcases g.onVerify_rests t e with h | ⟨k, u, vouches, isOpen, admits, heq⟩
  · exact .rests h
  · exact heq ▸ .grants (.peer hv hs) vouches isOpen admits

theorem onStanza (g : Gateway) (t : LinkId) (s : Session) (e : Xml.Element) :
    GuestStep g t (.element e) (g.onStanza t s e) := by
  unfold Gateway.onStanza
  cases ha : Protocol.addresses e with
  | error fault => exact fail ..
  | ok a =>
    dsimp only
    split
    · rename_i hany
      obtain ⟨carrier, hc, _⟩ := (Option.any_eq_true ..).mp hany
      exact .delivers hc
    · exact fail ..

theorem onClaim {s : Session} (hs : g.sessionOn t = some s) (hr : e.is "result" Xml.Namespace.dialback = true)
    (quiet : g.inquiry? t e = none) : GuestStep g t (.element e) (g.onClaim t s e) := by
  unfold Gateway.onClaim
  cases hm : Dialback.ofElement e with
  | error fault => exact fail ..
  | ok m =>
    dsimp only
    split
    · exact fail ..
    · split
      · exact fail ..
      · rename_i hreply hchallenge
        unfold dispatchVerify
        split
        · rename_i hreaches
          have hreaches : g.reaches ⟨m.sender, m.recipient⟩ = true := hreaches
          have hchallenge : g.challenges.contains s.challenge = true := by simpa using hchallenge
          simp [inquiry?, hs, hm, hr, hreaches, hreply, hchallenge] at quiet
        · exact .asks (k := ⟨s.challenge, m.recipient, m.sender⟩) hr (by simp)

theorem onElement (g : Gateway) (t : LinkId) (e : Xml.Element) (quiet : g.inquiry? t e = none) :
    GuestStep g t (.element e) (g.onElement t e) := by
  unfold Gateway.onElement
  cases hf : g.streams.get? t with
  | none => exact .rests (.refl g)
  | some stream =>
    dsimp only
    cases hp : stream.phase with
    | awaitingHeader => exact fail ..
    | legacy peer carrier => exact .carries hf hp
    | streaming s =>
      have hs := sessionOn_of_streaming hf hp
      dsimp only
      unfold onStreaming
      split
      · exact .rests (close_rests _ _)
      · split
        · exact onStartTls hs
        · split
          · exact onSaslAuth hs e
          · split
            · exact onVerify hs ‹_›
            · split
              · exact onClaim hs ‹_› quiet
              · exact onStanza ..

end GuestStep

theorem onInbound_guest (g : Gateway) (t : LinkId) (event : LinkEvent)
    (quiet : Moment.inquiry? ⟨g, .inbound t event⟩ = none) : GuestStep g t event (g.onInbound t event) := by
  cases event with
  | connected => exact .lapses (g.openStream_lapses t)
  | header header => exact GuestStep.onHeader g t header
  | element e => exact GuestStep.onElement g t e quiet
  | closed error => exact .lapses (g.onClosed_lapses t)

/-- What an event on the link of an outbound stream means to the books, if it is no verification. -/
inductive HostStep (g : Gateway) (t : LinkId) (event : LinkEvent) : Prop
  | rests (rests : Rests g (g.onOutbound t event))
  | lapses (lapses : Lapses g (g.onOutbound t event))
      (still : ∀ r, g.routes.get? r = none → (g.onOutbound t event).routes.get? r = none)
  | enters {n m : Negotiation} (attempt : g.attempts.get? t = some n.route)
      (found : g.negotiations.get? n.route = some n) (route : m.route = n.route) (link : m.link = n.link)
      (queue : m.queue = n.queue) (verifies : m.verifies = n.verifies)
      (establishes : g.onOutbound t event = (g.setNegotiation m g.world).establish n.route)

namespace HostStep

variable {event : LinkEvent}

/-- A turn that is no verification authorizes its route, or is not about the books. -/
theorem turned {turn : Turn} (attempt : g.attempts.get? t = some n.route)
    (found : g.negotiations.get? n.route = some n) (turns : g.turnOn n event = some turn)
    (serves : turn.Serves n g.world) (unheard : ∀ e, ¬ g.Hears e (.outbound t event))
    (follows : g.onOutbound t event = g.follow turn) : HostStep g t event := by
  have set := setNegotiation_rests serves
  cases hv : turn.verdict with
  | proceed =>
    have heq : g.follow turn = g.setNegotiation turn.negotiation turn.world := by simp only [follow, hv]
    exact .rests (follows ▸ heq ▸ set)
  | giveUp =>
    have heq : g.follow turn =
        (g.setNegotiation turn.negotiation turn.world).retire turn.negotiation.route false := by simp only [follow, hv]
    exact .rests (follows ▸ heq ▸ set.trans (retire_rests _ _ _))
  | verify e =>
    obtain ⟨rfl, verify, _⟩ := turnOn_verify turns hv
    exact absurd (.negotiation verify attempt found) (unheard e)
  | authorize =>
    obtain ⟨world, verifies, _⟩ := turnOn_authorize turns hv
    refine .enters attempt found serves.route serves.link serves.queue verifies ?_
    simp only [follows, follow, hv, serves.route, world]

theorem onRoute (free : g.attempts.get? t = none) (carried : g.carried.get? t = some r)
    (unheard : ∀ e, ¬ g.Hears e (.outbound t event)) (heq : g.onOutbound t event = g.onRoute r t event) :
    HostStep g t event := by
  have dropped {g₁ : Gateway} (rests : Rests g g₁) (now : g₁.now = g.now)
      (follows : g.onRoute r t event = g₁.dropRoute r t) : HostStep g t event := by
    refine .lapses ?_ fun x hx => ?_
    · rw [heq, follows]
      exact Lapses.trans ((Lapses.refl g).rests rests now) (g₁.dropRoute_lapses r t)
    · rw [heq, follows]
      exact (g₁.dropRoute_recedes r t).route x (by rw [rests.routes, hx])
  cases event with
  | connected => exact .rests (heq ▸ .refl g)
  | header header => exact .rests (heq ▸ .refl g)
  | closed error => exact dropped (.refl g) rfl rfl
  | element e =>
    have hv : Dialback.isVerify e = false :=
      Bool.eq_false_iff.mpr fun hv => unheard e (.route hv free carried)
    by_cases he : e.is "error" Xml.Namespace.stream
    · exact dropped (close_rests g t) rfl (by
        simp only [Gateway.onRoute, hv, he, Bool.false_eq_true, if_false, if_true])
    · exact dropped (fail_rests g t _) rfl (by
        simp only [Gateway.onRoute, hv, he, Bool.false_eq_true, if_false]
        rfl)

end HostStep

theorem onOutbound_host (ho : g.Orderly) {event : LinkEvent} (unheard : ∀ e, ¬ g.Hears e (.outbound t event)) :
    HostStep g t event := by
  cases ha : g.attempts.get? t with
  | some route =>
    cases hn : g.negotiations.get? route with
    | none =>
      have heq : g.onOutbound t event = { g with attempts := g.attempts.erase t } := by simp only [onOutbound, ha, hn]
      exact .rests (heq ▸ ⟨rfl, rfl, rfl, rfl, .refl _⟩)
    | some n =>
      have heq : g.onOutbound t event = g.onAttempt n event := by simp only [onOutbound, ha, hn]
      have hr := ho.route route n hn
      subst hr
      have turned {turn : Turn} (turns : g.turnOn n event = some turn)
          (follows : g.onAttempt n event = g.follow turn) : HostStep g t event :=
        .turned ha hn turns (turnOn_serves (ho.verifies _ n hn) turns) unheard (heq.trans follows)
      cases event with
      | connected => exact turned rfl rfl
      | header header => exact turned rfl rfl
      | element e => exact turned rfl rfl
      | closed error => exact .rests (heq ▸ (g.onAttemptClosed_step n error).rests)
  | none =>
    cases hc : g.carried.get? t with
    | none => exact .rests (by
        rw [show g.onOutbound t event = g by simp only [onOutbound, ha, hc]]
        exact .refl g)
    | some route => exact .onRoute ha hc unheard (by simp only [onOutbound, ha, hc])

end Gateway

end Interdomain
