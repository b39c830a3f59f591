import Interdomain.Proofs.Greetings
import Interdomain.Proofs.Guests

/-! The calls with which streams are begun and secured: headers and features are written, TLS is asked for and
started. What the gateway passes on is none of these, and neither are its answers and the ends of streams. So
they are made in three places only: at a header that a peer sends, at its request for TLS, and in the turns of
negotiations. -/
namespace Interdomain

open Protocol (Dialback)

/-- The call begins a stream or secures it. -/
inductive Effect.IsOverture : Effect → Prop
  | header {t h} : IsOverture (.send t (.header h))
  | features {t tls sasl} : IsOverture (.send t (.element (Protocol.features tls sasl)))
  | asksTls {t} : IsOverture (.send t (.element Protocol.startTls))
  | startsTls {t role domain started} : IsOverture (.startTls t role domain started)

namespace Effect

variable {t : LinkId} {e : Xml.Element}

theorem IsOverture.on {c : Effect} (h : c.IsOverture) : ∃ t, c.link? = some t := by
  cases h <;> exact ⟨_, rfl⟩

/-- What begins or secures a stream has no addresses. -/
theorem IsOverture.unaddressed (h : (Effect.send t (.element e)).IsOverture) (name : String) :
    e.attribute? name = none := by
  cases h with
  | @features _ tls sasl => cases tls <;> cases sasl <;> rfl
  | asksTls => rfl

theorem IsOverture.name (h : (Effect.send t (.element e)).IsOverture) :
    e.name = "features" ∨ e.name = "starttls" := by
  cases h with
  | @features _ tls sasl => cases tls <;> cases sasl <;> exact .inl rfl
  | asksTls => exact .inr rfl

theorem not_isOverture_of_name (features : e.name ≠ "features") (startTls : e.name ≠ "starttls") :
    ¬ (Effect.send t (.element e)).IsOverture :=
  fun h => h.name.elim features startTls

theorem not_isOverture_of_isVerify (h : Dialback.isVerify e = true) : ¬ (Effect.send t (.element e)).IsOverture := by
  have hn : e.name = "verify" ∧ e.ns = Xml.Namespace.dialback := by simpa [Dialback.isVerify, Xml.Element.is] using h
  exact not_isOverture_of_name (by simp [hn.1]) (by simp [hn.1])

/-- A stanza that is routed has addresses. -/
theorem not_isOverture_of_goesTo {r : Route} (h : Gateway.GoesTo e r) :
    ¬ (Effect.send t (.element e)).IsOverture := by
  intro ho
  obtain ⟨a, ha, _⟩ := h
  simp [Protocol.addresses, Protocol.addressDomain, ho.unaddressed "to", bind, Except.bind] at ha

end Effect

namespace World

variable {u v w : World}

/-- On the way to a later world no stream is begun or secured. -/
def Tacit (u v : World) : Prop := Omits Effect.IsOverture u v

/-- What is not called on the way to a later world was called before. -/
theorem Omits.mem_since {P : Effect → Prop} {Q : CallKind → Prop} (h : Omits P v w) (before : Grows Q u v)
    {c : Effect} (hp : P c) (hc : c ∈ w.since u) : c ∈ v.since u := by
  obtain ⟨es, he, hes⟩ := h
  rw [since, he, before.since.1, List.append_assoc, List.drop_left] at hc
  exact (List.mem_append.mp hc).resolve_right fun hm => hes c hm hp

theorem tacit_sendElement (w : World) (id : LinkId) {e : Xml.Element} (features : e.name ≠ "features")
    (startTls : e.name ≠ "starttls") : Tacit w (w.sendElement id e) :=
  .emit w (Effect.not_isOverture_of_name features startTls)

theorem tacit_error (w : World) (id : LinkId) (error : Stream.Error) : Tacit w (w.send id (.error error)) :=
  .emit w (by intro h; cases h)

theorem tacit_close (w : World) (id : LinkId) : Tacit w (w.close id) := .emit w (by intro h; cases h)

theorem tacit_reset (w : World) (id : LinkId) : Tacit w (w.reset id) := .emit w (by intro h; cases h)

theorem tacit_fail (w : World) (id : LinkId) (error : Stream.Error) : Tacit w (w.fail id error) :=
  .trans (w.tacit_error id error) (tacit_close _ id)

theorem tacit_finish (w : World) (id : LinkId) : Tacit w (w.finish id) :=
  .trans (.emit w (by intro h; cases h)) (tacit_close _ id)

/-- On the way to a later world, streams are begun and secured in these ways only. -/
def Confines (P : Effect → Prop) (u v : World) : Prop := Omits (fun c => c.IsOverture ∧ ¬ P c) u v

variable {P : Effect → Prop} {c : Effect}

theorem Tacit.confines (h : Tacit u v) : Confines P u v := h.mono fun _ => And.left

theorem Confines.of_mem (h : Confines P u v) (overture : c.IsOverture) (hc : c ∈ v.since u) : P c :=
  Classical.byContradiction fun hn => h.not_mem ⟨overture, hn⟩ hc

theorem confines_emit (w : World) (h : P c) : Confines P w (w.emit c) := .emit w fun hn => hn.2 h

end World

namespace Gateway

/-- What becomes of a header on the link. -/
def greeting (g : Gateway) (t : LinkId) (header : Stream.Header) : Greeting :=
  g.setup.greet (g.world.link t) (g.identityOn t).isSome header

variable {g g' : Gateway} {n : Negotiation} {r : Route} {t : LinkId} {e : Xml.Element} {c : Effect}

/-- A header that begins a stream is understood, and has the version that the terms for its sender leave it. -/
theorem understands_of_greeting {header reply : Stream.Header} {host : String} {peer : Option String} {version : Nat}
    {offer : Offer} (h : g.greeting t header = .accepted reply host peer version offer) :
    g.setup.Understands header host peer ∧ version = Setup.versionFor (g.setup.termsFor peer) header :=
  have understood := Setup.understands_of_greet h
  ⟨understood.1, understood.2.1⟩

theorem setRoutes_tacit {α : Type} (g : Gateway) (change : Registry.Change Route Carrier α) :
    World.Tacit g.world (g.setRoutes change).world :=
  (g.setRoutes_linkless change).mono fun _ => Effect.IsOverture.on

theorem setAdmissions_tacit {α : Type} (g : Gateway) (change : Registry.Change Claim Carrier α) :
    World.Tacit g.world (g.setAdmissions change).world :=
  (g.setAdmissions_linkless change).mono fun _ => Effect.IsOverture.on

theorem sendResult_tacit (g : Gateway) (t : LinkId) (k : Claim) (valid : Bool) :
    World.Tacit g.world (g.sendResult t k valid).world :=
  World.tacit_sendElement _ _ (by simp [Dialback.resultReply]) (by simp [Dialback.resultReply])

theorem settle_tacit (g : Gateway) (k : Claim) (valid : Bool) : World.Tacit g.world (g.settle k valid).world := by
  have h := g.settle_step k valid
  generalize g.settle k valid = g' at h
  cases h with
  | ignored _ => exact .refl _
  | @granted t _ _ => exact .trans (setAdmissions_tacit (g.closeClaim k) _) (sendResult_tacit _ t k true)
  | @refused t _ => exact (g.closeClaim k).sendResult_tacit t k false
  | @violates t _ _ _ => exact .trans ((g.closeClaim k).sendResult_tacit t k false) (World.tacit_fail _ _ _)

theorem failVerify_tacit (g : Gateway) (v : Xml.Element) : World.Tacit g.world (g.failVerify v).world := by
  rcases g.failVerify_cases v with ⟨k, hk⟩ | heq
  · rw [failVerify_of_names hk]
    exact g.settle_tacit k false
  · rw [heq]
    exact .refl _

theorem onVerify_tacit (g : Gateway) (t : LinkId) (e : Xml.Element) : World.Tacit g.world (g.onVerify t e).world := by
  have h := g.onVerify_step t e
  generalize g.onVerify t e = g' at h
  cases h with
  | settles _ => exact g.settle_tacit _ _
  | replies =>
    exact World.tacit_sendElement _ _ (by simp [Dialback.verifyReply]) (by simp [Dialback.verifyReply])
  | fails => exact World.tacit_fail _ _ _

theorem hold_tacit (g : Gateway) (n : Negotiation) (e : Xml.Element) :
    World.Tacit g.world (g.hold n e).1.world := by
  unfold hold Negotiation.addVerify
  split
  · rename_i hv
    dsimp only
    split
    · exact .emit _ (Effect.not_isOverture_of_isVerify hv)
    · exact .refl _
  · exact .refl _

theorem sendRequest_tacit (n : Negotiation) (setup : Setup) (w : World) :
    World.Tacit w (n.sendRequest setup w).2 := by
  unfold Negotiation.sendRequest
  split
  · exact World.tacit_sendElement _ _ (by simp [Dialback.result]) (by simp [Dialback.result])
  · exact .refl w

theorem want_tacit (n : Negotiation) (setup : Setup) (w : World) : World.Tacit w (n.want setup w).2 := by
  unfold Negotiation.want
  split
  · exact .refl w
  · exact sendRequest_tacit n setup w
  · exact .refl w
  · exact .refl w

theorem SubmitStep.tacit {s : Gateway × Delivery} (h : g.SubmitStep e s) : World.Tacit g.world s.1.world := by
  cases h with
  | carried goes _ => exact .emit _ (Effect.not_isOverture_of_goesTo goes)
  | @asked _ n _ _ _ => exact (g.setNegotiation n g.world).hold_tacit n e
  | @joined _ n _ _ _ =>
    exact .trans (want_tacit n g.setup g.world) ((g.setNegotiation _ (n.want g.setup g.world).2).hold_tacit _ e)
  | @began n w _ _ _ begins _ _ =>
    obtain ⟨address, timeout, rfl, _⟩ := begins.opens
    exact .trans (.connect _ (by intro h; cases h)) ((g.putNegotiation n _).hold_tacit n e)
  | refused _ _ _ => exact g.failVerify_tacit e
  | dropped _ _ => exact .refl _
  | returned _ => exact .emit _ (by intro h; cases h)

theorem dispatchVerify_tacit (g : Gateway) (r : Route) (v : Xml.Element) :
    World.Tacit g.world (g.dispatchVerify r v).world := by
  unfold dispatchVerify
  split
  · exact (g.submit_step v none).tacit
  · exact .emit _ (by intro h; cases h)

theorem bounces_tacit (g : Gateway) (stanzas : List Xml.Element) (reason : BounceReason) :
    World.Tacit g.world (stanzas.foldl (fun g s => g.emit (.bounce s reason)) g).world :=
  (g.bounce_linkless stanzas reason).mono fun _ => Effect.IsOverture.on

theorem retire_tacit (g : Gateway) (r : Route) (linkGone : Bool) :
    World.Tacit g.world (g.retire r linkGone).world := by
  cases hn : g.negotiations.get? r with
  | none =>
    rw [retire, hn]
    exact .refl _
  | some n =>
    have discarded : World.Tacit g.world (g.discard r n linkGone).world := by
      cases linkGone
      · exact g.world.tacit_close n.link
      · exact .refl _
    have failed (g : Gateway) : World.Tacit g.world (n.verifies.foldl failVerify g).world :=
      foldl_relation (R := fun a b : Gateway => World.Tacit a.world b.world) (fun g => .refl g.world)
        (fun _ _ _ a b => a.trans b) (fun g v _ => g.failVerify_tacit v) g
    rw [retire_eq hn]
    exact .trans discarded (.trans (bounces_tacit _ _ _) (failed _))

/-- A negotiation that is established passes on what waited for it. -/
theorem establish_tacit (hn : g.negotiations.get? r = some n)
    (verifies : ∀ v ∈ n.verifies, Dialback.isVerify v = true) (own : ∀ x ∈ n.stanzas, GoesTo x r) :
    World.Tacit g.world (g.establish r).world := by
  obtain ⟨carrier, _, heq⟩ := establish_eq hn
  have written : World.Tacit g.world (g.handOver r n).world :=
    .trans (.sendElements _ fun v hv => Effect.not_isOverture_of_isVerify (verifies v hv))
      (.sendElements _ fun x hx => Effect.not_isOverture_of_goesTo (own x hx))
  rw [heq]
  exact .trans written (setRoutes_tacit _ _)

/-- What follows a turn begins no stream. -/
theorem follow_tacit (g : Gateway) {turn : Turn}
    (verifies : ∀ v ∈ turn.negotiation.verifies, Dialback.isVerify v = true)
    (own : ∀ x ∈ turn.negotiation.stanzas, GoesTo x turn.negotiation.route) :
    World.Tacit turn.world (g.follow turn).world := by
  have found : (g.setNegotiation turn.negotiation turn.world).negotiations.get? turn.negotiation.route =
      some turn.negotiation := by simp [setNegotiation, Table.get?_insert]
  unfold follow
  dsimp only
  split
  · exact .refl _
  · exact establish_tacit found verifies own
  · exact (g.setNegotiation turn.negotiation turn.world).retire_tacit _ _
  · exact (g.setNegotiation turn.negotiation turn.world).onVerify_tacit _ _

theorem ClosedStep.tacit (h : g.ClosedStep n g') : World.Tacit g.world g'.world := by
  cases h with
  | advanced _ _ _ advances _ =>
    obtain ⟨_, _, rfl, _⟩ := (Negotiation.advance?_begins advances).1.opens
    exact .connect _ (by intro h; cases h)
  | @retired m _ _ _ _ =>
    exact retire_tacit { g.setNegotiation m g.world with attempts := g.attempts.erase m.link } m.route true

theorem onRoute_tacit (g : Gateway) (r : Route) (t : LinkId) (event : LinkEvent) :
    World.Tacit g.world (g.onRoute r t event).world := by
  have dropped (g : Gateway) : World.Tacit g.world (g.dropRoute r t).world :=
    setRoutes_tacit { g with carried := g.carried.erase t } _
  unfold onRoute
  split
  · exact .refl _
  · exact .refl _
  · exact dropped g
  · split
    · exact onVerify_tacit { g with routes := g.routes.modify r (·.carry g.now) } t _
    · split
      · exact .trans (g.world.tacit_close t) (dropped _)
      · exact .trans (g.world.tacit_fail t _) (dropped _)

theorem releaseRoute_tacit (g : Gateway) (r : Route) : World.Tacit g.world (g.releaseRoute r).1.world := by
  unfold releaseRoute
  split
  · exact .refl _
  · exact .trans (g.setRoutes_tacit _) (World.tacit_finish _ _)

theorem releaseClaim_tacit (g : Gateway) (k : Claim) : World.Tacit g.world (g.releaseClaim k).1.world := by
  unfold releaseClaim
  split
  · exact .refl _
  · refine .trans (g.setAdmissions_tacit (g.admissions.unregister k)) ?_
    dsimp only
    split
    · exact .refl _
    · exact World.tacit_finish _ _

theorem endLegacy_tacit (g : Gateway) (t : LinkId) : World.Tacit g.world (g.endLegacy t).1.world := by
  unfold endLegacy
  split
  · exact .refl _
  · split
    · exact .trans (.emit _ (by intro h; cases h)) (World.tacit_finish _ _)
    · exact .refl _

theorem endChallenge_tacit (g : Gateway) (x : String) : World.Tacit g.world (g.endChallenge x).1.world := by
  unfold endChallenge
  split
  · exact .refl _
  · exact World.tacit_close _ _

theorem endSilent_tacit (g : Gateway) (t : LinkId) : World.Tacit g.world (g.endSilent t).1.world := by
  unfold endSilent
  split
  · exact .trans (setAdmissions_tacit { g with streams := g.streams.erase t } _) (World.tacit_close _ _)
  · exact .refl _

theorem closeAttempt_tacit (g : Gateway) (r : Route) : World.Tacit g.world (g.closeAttempt r).1.world := by
  unfold closeAttempt
  split
  · exact .refl _
  · exact World.tacit_close _ _

theorem sweepQueue_tacit (now : Nat) (g : Gateway) (r : Route) :
    World.Tacit g.world (sweepQueue now g r).1.world :=
  sweepQueue_relation (R := fun a b : Gateway => World.Tacit a.world b.world) (fun g => .refl g.world)
    (fun _ _ _ a b => a.trans b) (fun _ _ => .refl _) bounces_tacit fun g _ _ _ => g.retire_tacit r false

theorem sweepAt_tacit (g : Gateway) (now : Nat) : World.Tacit g.world (g.sweepAt now).1.world :=
  sweepAt_relation (R := fun a b : Gateway => World.Tacit a.world b.world) (fun g => .refl g.world)
    (fun _ _ _ a b => a.trans b) releaseRoute_tacit releaseClaim_tacit endLegacy_tacit endChallenge_tacit
    endSilent_tacit closeAttempt_tacit (sweepQueue_tacit now) g

theorem onClosed_tacit (g : Gateway) (t : LinkId) : World.Tacit g.world (g.onClosed t).world := by
  unfold onClosed
  split
  · exact .refl _
  · refine .trans ?_ (setAdmissions_tacit _ _)
    split
    · exact .refl _
    · exact .refl _
    · exact .emit _ (by intro h; cases h)

theorem onSaslAuth_tacit (g : Gateway) (t : LinkId) (s : Session) (e : Xml.Element) :
    World.Tacit g.world (g.onSaslAuth t s e).world := by
  have succeeded (w : World) : World.Tacit w (w.sendElement t Protocol.saslSuccess) :=
    World.tacit_sendElement _ _ (by simp [Protocol.saslSuccess, Protocol.bare])
      (by simp [Protocol.saslSuccess, Protocol.bare])
  have failed (w : World) (reason : String) : World.Tacit w (w.sendElement t (Protocol.saslFailure reason)) :=
    World.tacit_sendElement _ _ (by simp [Protocol.saslFailure, Protocol.bare])
      (by simp [Protocol.saslFailure, Protocol.bare])
  unfold onSaslAuth
  split
  · exact .trans (succeeded _) (World.tacit_reset _ _)
  · dsimp only
    split
    · exact .trans (failed _ _) (World.tacit_fail _ _ _)
    · exact .trans (failed _ _) (World.tacit_finish _ _)

theorem onClaim_tacit (g : Gateway) (t : LinkId) (s : Session) (e : Xml.Element) :
    World.Tacit g.world (g.onClaim t s e).world := by
  unfold onClaim
  split
  · exact World.tacit_fail _ _ _
  · rename_i m _
    split
    · exact World.tacit_fail _ _ _
    · split
      · exact World.tacit_fail _ _ _
      · exact dispatchVerify_tacit (g.openClaim ⟨s.challenge, m.recipient, m.sender⟩) _ _

theorem onStanza_tacit (g : Gateway) (t : LinkId) (s : Session) (e : Xml.Element) :
    World.Tacit g.world (g.onStanza t s e).world := by
  unfold onStanza
  split
  · exact World.tacit_fail _ _ _
  · dsimp only
    split
    · exact .emit _ (by intro h; cases h)
    · exact World.tacit_fail _ _ _

/-- An element from a peer begins no stream, and secures it only if it asks for TLS. -/
theorem onElement_tacit (g : Gateway) (t : LinkId) (e : Xml.Element) :
    World.Tacit g.world (g.onElement t e).world ∨ ∃ s, g.sessionOn t = some s ∧
      e.is "starttls" Xml.Namespace.tls = true ∧ g.onElement t e = g.onStartTls t s := by
  unfold onElement
  cases hs : g.streams.get? t with
  | none => exact .inl (.refl _)
  | some stream =>
    dsimp only
    cases hp : stream.phase with
    | awaitingHeader => exact .inl (World.tacit_fail _ _ _)
    | legacy peer carrier => exact .inl (.emit _ (by intro h; cases h))
    | streaming s =>
      dsimp only
      unfold onStreaming
      split
      · exact .inl (World.tacit_close _ _)
      · split
        · exact .inr ⟨s, sessionOn_of_streaming hs hp, ‹_›, rfl⟩
        · split
          · exact .inl (g.onSaslAuth_tacit t s e)
          · split
            · exact .inl (g.onVerify_tacit t e)
            · split
              · exact .inl (g.onClaim_tacit t s e)
              · exact .inl (g.onStanza_tacit t s e)

/-- What is written at a header begins a stream: the answer to the header, and the features of a stream that is
accepted and has a version. -/
theorem onHeader_overtures (g : Gateway) (t : LinkId) (header : Stream.Header) :
    World.Confines (fun c => (∃ id, c = .send t (.header { (g.greeting t header).reply with id })) ∨
        ∃ reply host peer version offer, g.greeting t header = .accepted reply host peer version offer ∧
          1 ≤ version ∧ c = .send t (.element (Protocol.features offer.startTls offer.sasl)))
      g.world (g.onHeader t header).world := by
  have greets : g.setup.greet (g.world.link t) (g.identityOn t).isSome header = g.greeting t header := rfl
  rw [onHeader, greets]
  cases hg : g.greeting t header with
  | refused reply reason =>
    exact .trans (World.confines_emit g.world (.inl ⟨reply.id, rfl⟩)) (World.tacit_fail _ _ _).confines
  | legacy reply peer => exact .trans (.of_trace rfl) (World.confines_emit g.world.draw.1 (.inl ⟨_, rfl⟩))
  | accepted reply host peer version offer =>
    have challenged : World.Tacit g.world (g.challenge t host peer version).world := by
      unfold challenge
      dsimp only
      split
      · exact .trans (.of_trace rfl) (setAdmissions_tacit _ _)
      · exact .of_trace rfl
    dsimp only
    rw [acceptStream_eq]
    refine challenged.confines.trans ?_
    change World.Confines _ _ (welcome _ t reply version offer g.world.draw.2)
    unfold welcome
    dsimp only
    split
    · rename_i versioned
      exact .trans (World.confines_emit _ (.inl ⟨_, rfl⟩))
        (World.confines_emit _ (.inr ⟨reply, host, peer, version, offer, rfl, versioned, rfl⟩))
    · exact World.confines_emit _ (.inl ⟨_, rfl⟩)

/-- TLS is started for a peer if its terms and the link allow it, and the peer has not been authenticated. -/
theorem onStartTls_overtures (g : Gateway) (t : LinkId) (s : Session) :
    World.Confines (fun c => g.identityOn t = none ∧ (g.termsOf s).tls.allowsStartTls = true ∧
        (g.world.link t).offersTls s.host = true ∧ c = .startTls t .server s.host (g.world.link t).tlsStarts)
      g.world (g.onStartTls t s).world := by
  unfold onStartTls
  dsimp only
  split
  · have failed : World.Tacit g.world ((g.world.sendElement t Protocol.tlsFailure).finish t) :=
      .trans (World.tacit_sendElement _ _ (by simp [Protocol.tlsFailure, Protocol.bare])
        (by simp [Protocol.tlsFailure, Protocol.bare])) (World.tacit_finish _ _)
    exact failed.confines
  · rename_i able
    simp only [Bool.or_eq_true, Bool.not_eq_true', not_or, Bool.not_eq_true, Bool.not_eq_false] at able
    have proceed : World.Tacit g.world (g.world.sendElement t Protocol.tlsProceed) :=
      World.tacit_sendElement _ _ (by simp [Protocol.tlsProceed, Protocol.bare])
        (by simp [Protocol.tlsProceed, Protocol.bare])
    refine World.Omits.trans (v := (g.world.sendElement t Protocol.tlsProceed).startTls t .server s.host)
      (proceed.confines.trans (.startTls _ fun hn => hn.2 ⟨by simpa using able.1.1, able.1.2, able.2, rfl⟩)) ?_
    split
    · exact (World.tacit_reset _ t).confines
    · exact (World.tacit_close _ t).confines

end Gateway

namespace Negotiation

variable {n : Negotiation} {setup : Setup} {w : World} {e : Xml.Element} {c : Effect}

/-- The overtures that a negotiation makes at an event on its link. -/
inductive Overture (n : Negotiation) (setup : Setup) (w : World) : LinkEvent → Effect → Prop
  | greets : Overture n setup w .connected (.send n.link (.header (setup.headerFor n.route)))
  | asksTls {x} (features : x.is "features" Xml.Namespace.stream = true) (fresh : n.stage ≠ .saslSucceeded)
      (offered : Protocol.offersStartTls x = true) (allowed : (n.terms setup).tls.allowsStartTls = true)
      (able : (w.link n.link).offersTls n.route.source = true) :
      Overture n setup w (.element x) (.send n.link (.element Protocol.startTls))
  | startsTls {x} (proceed : x.is "proceed" Xml.Namespace.tls = true) :
      Overture n setup w (.element x) (.startTls n.link .client n.route.source (w.link n.link).tlsStarts)
  | secured {x} (proceed : x.is "proceed" Xml.Namespace.tls = true) (starts : (w.link n.link).tlsStarts = true) :
      Overture n setup w (.element x) (.send n.link (.header (setup.headerFor n.route)))
  | authenticated {x} (success : x.is "success" Xml.Namespace.sasl = true) :
      Overture n setup w (.element x) (.send n.link (.header (setup.headerFor n.route)))

theorem underPolicy_tacit (n : Negotiation) (setup : Setup) (w : World) (used : Policy.Mechanism) {next : Turn}
    (h : World.Tacit w next.world) : World.Tacit w (n.underPolicy setup w used next).world := by
  unfold underPolicy
  split
  · exact h
  · exact World.tacit_fail _ _ _

theorem becomeReady_tacit (n : Negotiation) (setup : Setup) (w : World)
    (verifies : ∀ v ∈ n.verifies, Dialback.isVerify v = true) : World.Tacit w (n.becomeReady setup w).world := by
  have flush (m : Negotiation) (u : World) (hm : m.verifies = n.verifies) :
      World.Tacit u (u.sendElements m.link m.verifies) :=
    .sendElements _ fun v hv => Effect.not_isOverture_of_isVerify (verifies v (hm ▸ hv))
  unfold becomeReady
  cases hr : n.request with
  | wantRequest =>
    exact .trans (Gateway.sendRequest_tacit { n with ready := true } setup w)
      (flush _ _ ({ n with ready := true }.verifies_sendRequest setup w))
  | notRequested => simpa only [hr] using flush { n with ready := true, request := .couldRequest } w rfl
  | couldRequest => simpa only [hr] using flush { n with ready := true } w rfl
  | sentRequest => simpa only [hr] using flush { n with ready := true } w rfl

theorem onAccepted_tacit (n : Negotiation) (setup : Setup) (w : World) (header : Stream.Header)
    (verifies : ∀ v ∈ n.verifies, Dialback.isVerify v = true) :
    World.Tacit w (n.onAccepted setup w header).world := by
  unfold onAccepted
  split
  · exact n.underPolicy_tacit setup w _ (.refl w)
  · split
    · exact .refl w
    · split
      · exact World.tacit_fail _ _ _
      · exact n.underPolicy_tacit setup w _ (n.becomeReady_tacit setup w verifies)

theorem onHeader_tacit (n : Negotiation) (setup : Setup) (w : World) (header : Stream.Header)
    (isOwn : String → Bool) (verifies : ∀ v ∈ n.verifies, Dialback.isVerify v = true) :
    World.Tacit w (n.onHeader setup w header isOwn).world := by
  have same : (if n.stage = .saslSucceeded then n else { n with stage := .gotHeader }).verifies = n.verifies := by
    split <;> rfl
  unfold onHeader
  dsimp only
  generalize (if n.stage = .saslSucceeded then n else { n with stage := .gotHeader }) = m at same ⊢
  split
  · exact World.tacit_fail _ _ _
  · split
    · exact World.tacit_fail _ _ _
    · exact onAccepted_tacit _ setup w header fun v hv => verifies v (same ▸ hv)

theorem onResult_tacit (n : Negotiation) (w : World) (e : Xml.Element) : World.Tacit w (n.onResult w e).world := by
  unfold onResult
  split
  · exact World.tacit_fail _ _ _
  · split
    · exact World.tacit_fail _ _ _
    · split
      · exact .refl w
      · exact World.tacit_finish _ _

theorem onFeatures_overtures (n : Negotiation) (setup : Setup) (w : World)
    (verifies : ∀ v ∈ n.verifies, Dialback.isVerify v = true) (features : e.is "features" Xml.Namespace.stream = true) :
    World.Confines (n.Overture setup w (.element e)) w (n.onFeatures setup w e).world := by
  have auth (u : World) : World.Tacit u (u.sendElement n.link (Protocol.saslAuth n.route.source)) :=
    World.tacit_sendElement _ _ (by simp [Protocol.saslAuth, Protocol.bare])
      (by simp [Protocol.saslAuth, Protocol.bare])
  unfold onFeatures
  split
  · exact .refl w
  · rename_i fresh
    dsimp only
    split
    · rename_i asks
      simp only [Bool.and_eq_true] at asks
      exact w.confines_emit (.asksTls features fresh asks.1.1 asks.1.2 asks.2)
    · split
      · exact (auth w).confines
      · have ready := ({ n with stage := .gotFeatures } : Negotiation).underPolicy_tacit setup w .dialback
          (({ n with stage := .gotFeatures } : Negotiation).becomeReady_tacit setup w verifies)
        exact ready.confines

theorem onTlsProceed_overtures (n : Negotiation) (setup : Setup) (w : World)
    (proceed : e.is "proceed" Xml.Namespace.tls = true) :
    World.Confines (n.Overture setup w (.element e)) w (n.onTlsProceed setup w).world := by
  have started : World.Confines (n.Overture setup w (.element e)) w (w.startTls n.link .client n.route.source) :=
    .startTls w fun h => h.2 (.startsTls proceed)
  unfold onTlsProceed
  dsimp only
  split
  · rename_i starts
    exact started.trans ((World.tacit_reset _ _).confines.trans (World.confines_emit _ (.secured proceed starts)))
  · exact started.trans (World.tacit_close _ _).confines

/-- The overtures of a negotiation at an element: a request for TLS or its start, and a header once the stream is
secured or authenticated. -/
theorem onElement_overtures (n : Negotiation) (setup : Setup) (w : World)
    (verifies : ∀ v ∈ n.verifies, Dialback.isVerify v = true) (e : Xml.Element) :
    World.Confines (n.Overture setup w (.element e)) w (n.onElement setup w e).world := by
  unfold onElement
  repeat' split
  · exact n.onFeatures_overtures setup w verifies ‹_›
  · exact (w.tacit_close _).confines
  · exact n.onTlsProceed_overtures setup w ‹_›
  · exact (World.tacit_finish _ _).confines
  · exact (World.tacit_reset _ _).confines.trans (World.confines_emit _ (.authenticated ‹_›))
  · exact (World.tacit_finish _ _).confines
  · exact (n.onResult_tacit w e).confines
  · exact .refl w
  · exact (World.tacit_fail _ _ _).confines

/-- An element that tells to proceed with TLS has it started, whoever asked for it. -/
theorem startTls_of_proceed (setup : Setup) (w : World) (proceed : e.is "proceed" Xml.Namespace.tls = true) :
    .startTls n.link .client n.route.source (w.link n.link).tlsStarts ∈ (n.onElement setup w e).world.since w := by
  have named : e.name = "proceed" ∧ e.ns = Xml.Namespace.tls := by simpa [Xml.Element.is] using proceed
  have other (name ns : String) (hn : name ≠ "proceed") : ¬ e.is name ns = true := by
    simp [Xml.Element.is, named.1, Ne.symm hn]
  rw [onElement, if_neg (other _ _ (by decide)), if_neg (other _ _ (by decide)), if_pos proceed, onTlsProceed]
  dsimp only
  split <;> simp [World.since, World.startTls, World.reset, World.close, writeHeader, World.send]

end Negotiation

namespace Gateway

variable {g g' : Gateway} {n : Negotiation} {r : Route} {t : LinkId} {e : Xml.Element} {c : Effect}

/-- Where an operation may begin a stream or secure it. -/
inductive OvertureStep (m : Moment) : Prop
  | tacit (tacit : World.Tacit m.gateway.world m.next.world)
  | greets {t header} (operation : m.operation = .inbound t (.header header))
  | secures {t e s} (operation : m.operation = .inbound t (.element e)) (session : m.gateway.sessionOn t = some s)
      (asks : e.is "starttls" Xml.Namespace.tls = true) (next : m.next = m.gateway.onStartTls t s)
  | turns {t r n event turn} (operation : m.operation = .outbound t event)
      (attempt : m.gateway.attempts.get? t = some r) (found : m.gateway.negotiations.get? r = some n)
      (turns : m.gateway.turnOn n event = some turn) (serves : turn.Serves n m.gateway.world)
      (follows : World.Tacit turn.world m.next.world)

/-- An operation begins a stream, or secures it, at a header of a peer, at its request for TLS, or in the turn of a
negotiation. -/
theorem step_overtures (ho : g.Orderly) (own : ∀ r n, g.negotiations.get? r = some n → ∀ x ∈ n.stanzas, GoesTo x r)
    (op : Operation) : OvertureStep ⟨g, op⟩ := by
  have quiet {op : Operation} {g' : Gateway} (step : g.step op = g') (tacit : World.Tacit g.world g'.world) :
      OvertureStep ⟨g, op⟩ := by
    subst step
    exact .tacit tacit
  cases op with
  | submit stanza resolved => exact quiet (g.step_submit stanza resolved) (g.submit_step stanza resolved).tacit
  | inbound t event =>
    cases event with
    | connected => exact quiet rfl (.of_trace (congrArg World.trace (g.openStream_world t)))
    | header header => exact .greets rfl
    | element e =>
      rcases g.onElement_tacit t e with tacit | ⟨s, session, asks, next⟩
      · exact quiet rfl tacit
      · exact .secures rfl session asks next
    | closed error => exact quiet rfl (g.onClosed_tacit t)
  | outbound t event =>
    cases ha : g.attempts.get? t with
    | some r =>
      cases hn : g.negotiations.get? r with
      | some n =>
        have step : g.step (.outbound t event) = g.onAttempt n event := by
          change g.onOutbound t event = _
          simp only [onOutbound, ha, hn]
        have turned {turn : Turn} (turns : g.turnOn n event = some turn)
            (follows : g.onAttempt n event = g.follow turn) : OvertureStep ⟨g, .outbound t event⟩ := by
          have serves := turnOn_serves (ho.verifies r n hn) turns
          refine .turns rfl ha hn turns serves ?_
          rw [Moment.next, step, follows]
          refine g.follow_tacit (fun v hv => ho.verifies r n hn v (serves.verifies hv)) fun x hx => ?_
          rw [serves.route, ho.route r n hn]
          refine own r n hn x ?_
          rwa [Negotiation.stanzas, ← serves.queue]
        cases event with
        | connected => exact turned rfl rfl
        | header header => exact turned rfl rfl
        | element e => exact turned rfl rfl
        | closed error => exact quiet step (g.onAttemptClosed_step n error).tacit
      | none =>
        have step : g.step (.outbound t event) = { g with attempts := g.attempts.erase t } := by
          change g.onOutbound t event = _
          simp only [onOutbound, ha, hn]
        exact quiet step (.refl _)
    | none =>
      cases hc : g.carried.get? t with
      | some r =>
        have step : g.step (.outbound t event) = g.onRoute r t event := by
          change g.onOutbound t event = _
          simp only [onOutbound, ha, hc]
        exact quiet step (g.onRoute_tacit r t event)
      | none =>
        have step : g.step (.outbound t event) = g := by
          change g.onOutbound t event = _
          simp only [onOutbound, ha, hc]
        exact quiet step (.refl _)
  | sweep ahead => exact quiet (g.step_sweep ahead) (g.sweepAt_tacit _)
  | releaseRoute route => exact quiet (g.step_releaseRoute route) (g.releaseRoute_tacit route)
  | releaseClaim claim => exact quiet (g.step_releaseClaim claim) (g.releaseClaim_tacit claim)
  | wait duration => exact quiet rfl (.of_trace rfl)
  | learn link facts => exact quiet rfl (.of_trace rfl)

/-- The overtures that a negotiation makes in a turn. -/
theorem turnOn_overtures {event : LinkEvent} {turn : Turn} (verifies : ∀ v ∈ n.verifies, Dialback.isVerify v = true)
    (turns : g.turnOn n event = some turn) (overture : c.IsOverture) (hc : c ∈ turn.world.since g.world) :
    n.Overture g.setup g.world event c := by
  cases event with
  | connected =>
    cases turns
    have written : c = .send n.link (.header (g.setup.headerFor n.route)) := by
      have hl : (n.onConnected g.setup g.world).world =
          g.world.emit (.send n.link (.header (g.setup.headerFor n.route))) := by
        unfold Negotiation.onConnected
        dsimp only
        split
        · rfl
        · split <;> rfl
      simpa [World.since, hl] using hc
    exact written ▸ .greets
  | header header =>
    cases turns
    exact absurd hc ((n.onHeader_tacit g.setup g.world header _ verifies).not_mem overture)
  | element e =>
    cases turns
    exact (n.onElement_overtures g.setup g.world verifies e).of_mem overture hc
  | closed error => cases turns

end Gateway

namespace Moment

/-- The overtures that an operation makes. -/
inductive Overture (m : Moment) : Effect → Prop
  | answers {t header} (id : Option String) (operation : m.operation = .inbound t (.header header)) :
      Overture m (.send t (.header { (m.gateway.greeting t header).reply with id }))
  | offers {t header reply host peer version offer} (operation : m.operation = .inbound t (.header header))
      (greeting : m.gateway.greeting t header = .accepted reply host peer version offer) (versioned : 1 ≤ version) :
      Overture m (.send t (.element (Protocol.features offer.startTls offer.sasl)))
  | serves {t e s} (operation : m.operation = .inbound t (.element e)) (session : m.gateway.sessionOn t = some s)
      (asks : e.is "starttls" Xml.Namespace.tls = true) (unproved : m.gateway.identityOn t = none)
      (allowed : (m.gateway.termsOf s).tls.allowsStartTls = true)
      (able : (m.gateway.world.link t).offersTls s.host = true) :
      Overture m (.startTls t .server s.host (m.gateway.world.link t).tlsStarts)
  | negotiates {t r n event c} (operation : m.operation = .outbound t event)
      (attempt : m.gateway.attempts.get? t = some r) (found : m.gateway.negotiations.get? r = some n)
      (makes : n.Overture m.gateway.setup m.gateway.world event c) : Overture m c

end Moment

namespace Gateway

variable {g : Gateway} {c : Effect}

/-- Every stream is begun and secured in one of the ways above. -/
theorem overture_of_calls (ho : g.Orderly)
    (own : ∀ r n, g.negotiations.get? r = some n → ∀ x ∈ n.stanzas, GoesTo x r) {op : Operation}
    (overture : c.IsOverture) (hc : c ∈ (⟨g, op⟩ : Moment).calls) : (⟨g, op⟩ : Moment).Overture c := by
  cases step_overtures ho own op with
  | tacit tacit => exact absurd hc (tacit.not_mem overture)
  | @greets t header operation =>
    cases operation
    have same : (g.openStream t).greeting t header = g.greeting t header := by
      rw [greeting, greeting, openStream_setup, openStream_world, openStream_identityOn]
    have hc : c ∈ ((g.openStream t).onHeader t header).world.since (g.openStream t).world := by
      rw [openStream_world]
      exact hc
    rcases ((g.openStream t).onHeader_overtures t header).of_mem overture hc with
      ⟨id, rfl⟩ | ⟨reply, host, peer, version, offer, hg, hv, rfl⟩
    · rw [same]
      exact .answers id rfl
    · exact .offers rfl (same ▸ hg) hv
  | @secures t e s operation session asks next =>
    cases operation
    have hc : c ∈ (g.onStartTls t s).world.since g.world := next ▸ hc
    obtain ⟨unproved, allowed, able, rfl⟩ := (g.onStartTls_overtures t s).of_mem overture hc
    exact .serves rfl session asks unproved allowed able
  | @turns t r n event turn operation attempt found turns serves follows =>
    have hc : c ∈ turn.world.since g.world := follows.mem_since serves.grows overture hc
    exact .negotiates operation attempt found (turnOn_overtures (ho.verifies r n found) turns overture hc)

theorem run_setup (setup : Setup) (world : World) (ops : List Operation) :
    ((initial setup world).run ops).setup = setup := by
  have key := run_invariant (P := fun g => g.Orderly ∧ g.setup = setup) ⟨initial_orderly setup world, rfl⟩
    (fun g op h => ⟨(step_total h.1 op).1, (step_setup h.1 op).trans h.2⟩) ops
  exact key.2

theorem run_overture (setup : Setup) (world : World) (ops : List Operation) {op : Operation} (overture : c.IsOverture)
    (hc : c ∈ (⟨(initial setup world).run ops, op⟩ : Moment).calls) :
    (⟨(initial setup world).run ops, op⟩ : Moment).Overture c :=
  have order := run_inOrder setup world ops
  overture_of_calls order.1 order.2.own overture hc

/-- A header that the gateway writes answers one of the peer's, or it is that of a route that is negotiated. -/
theorem header_of_calls (setup : Setup) (world : World) (ops : List Operation) {op : Operation} {t : LinkId}
    {header : Stream.Header}
    (hc : .send t (.header header) ∈ (⟨(initial setup world).run ops, op⟩ : Moment).calls) :
    (∃ asked id, op = .inbound t (.header asked) ∧
      header = { (((initial setup world).run ops).greeting t asked).reply with id }) ∨
    ∃ r, ((initial setup world).run ops).Negotiates r t ∧ header = setup.headerFor r := by
  have same := run_setup setup world ops
  have ho := run_orderly setup world ops
  cases run_overture setup world ops .header hc with
  | answers id operation => exact .inl ⟨_, id, operation, rfl⟩
  | @negotiates _ r n _ _ operation _ found makes =>
    have hr := ho.route r n found
    rw [same] at makes
    cases makes with
    | greets => exact .inr ⟨r, ⟨n, found, rfl⟩, by rw [hr]⟩
    | secured _ _ => exact .inr ⟨r, ⟨n, found, rfl⟩, by rw [hr]⟩
    | authenticated _ => exact .inr ⟨r, ⟨n, found, rfl⟩, by rw [hr]⟩

/-- The sample gateway, with terms of its own for one domain. -/
def sampleWith (allowLegacy : Bool) (domain : String) (terms : Policy.Terms) : Gateway :=
  initial ⟨{ secret := "secret", allowLegacy }, Policy.Book.insert {} domain terms, ⟨id⟩⟩ sample.world

end Gateway

end Interdomain
