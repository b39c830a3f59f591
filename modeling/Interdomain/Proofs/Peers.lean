import Interdomain.Proofs.Fading

/-! What an event on the stream of a peer can do: end something, deliver a stanza, settle or open a claim,
prove an identity, or give the stream its challenge. None of it concerns the negotiations and the routes,
but for the verify request that goes out for a new claim. -/
namespace Interdomain.Gateway

open Protocol (Dialback)

variable {P : CallKind → Prop} {g g' : Gateway} {link : LinkId}

/-- The gateway once a claim is open. -/
def openClaim (g : Gateway) (claim : Claim) : Gateway :=
  { g with challenges := g.challenges.modify claim.challenge fun c =>
      { c with claims := c.claims.insert claim } }

/-- The gateway once the peer of a session has proved an identity. -/
def identify (g : Gateway) (link : LinkId) (s : Session) (identity : String) : Gateway :=
  let g := (g.act (·.sendElement link Protocol.saslSuccess)).restart link s
  { g with streams := g.streams.modify link fun t => { t with identity := some identity } }

/-- A request on an open stream for a claim to be authorized. -/
def Asks (g : Gateway) (link : LinkId) (e : Xml.Element) (claim : Claim) : Prop :=
  e.is "result" Xml.Namespace.dialback = true ∧ g.challenges.contains claim.challenge = true ∧
    (∃ s, g.sessionOn link = some s ∧ s.challenge = claim.challenge) ∧
    ∃ m, Dialback.ofElement e = .ok m ∧ m.isReply = false ∧ m.recipient = claim.destination ∧
      m.sender = claim.source

/-- What an event on the stream of a peer can do. -/
inductive PeerStep (g : Gateway) (link : LinkId) : LinkEvent → Gateway → Prop
  | ends {event g'} (fades : Fades CallKind.IsPlain g g') (keeps : KeepsOutbound g g')
      (calm : ∀ t, World.Calm t g.world g'.world) : PeerStep g link event g'
  | legacy {e g' stream peer carrier} (found : g.streams.get? link = some stream)
      (phase : stream.phase = .legacy peer carrier) (fades : Fades CallKind.IsDelivery g g')
      (keeps : KeepsOutbound g g') : PeerStep g link (.element e) g'
  | delivers {e g' s a carrier} (session : g.sessionOn link = some s)
      (addressed : Protocol.addresses e = .ok a)
      (admitted : g.admissions.get? ⟨s.challenge, a.recipient, a.sender⟩ = some carrier)
      (own : carrier.link = link) (fades : Fades CallKind.IsDelivery g g')
      (keeps : KeepsOutbound g g') : PeerStep g link (.element e) g'
  | hears {e s} (session : g.sessionOn link = some s) (verify : Dialback.isVerify e = true) :
      PeerStep g link (.element e) (g.onVerify link e)
  | asks {e claim m} (asks : g.Asks link e claim) (message : Dialback.ofElement e = .ok m) :
      PeerStep g link (.element e) ((g.openClaim claim).dispatchVerify ⟨claim.source, claim.destination⟩
        (Dialback.verify claim.source claim.destination claim.challenge m.key))
  | proves {e s identity} (session : g.sessionOn link = some s)
      (auth : e.is "auth" Xml.Namespace.sasl = true)
      (proof : g.provenIdentity link s e = .ok identity) :
      PeerStep g link (.element e) (g.identify link s identity)
  | accepts {header reply host peer version offer}
      (greeting : g.setup.greet (g.world.link link) ((g.openStream link).identityOn link).isSome header =
        .accepted reply host peer version offer) :
      PeerStep g link (.header header) ((g.openStream link).acceptStream link reply host peer version offer)

theorem sessionOn_of_streaming {stream : InboundStream} {s : Session}
    (hs : g.streams.get? link = some stream) (hp : stream.phase = .streaming s) :
    g.sessionOn link = some s :=
  sessionOn_of_get? hs (by rw [hp]; rfl)

theorem openStream_keepsOutbound (g : Gateway) (link : LinkId) : KeepsOutbound g (g.openStream link) := by
  unfold openStream
  split
  · exact .refl g
  · exact ⟨rfl, rfl, rfl, rfl, rfl, rfl⟩

theorem openStream_world (g : Gateway) (link : LinkId) : (g.openStream link).world = g.world := by
  unfold openStream
  split <;> rfl

theorem openStream_calm (g : Gateway) (link t : LinkId) : World.Calm t g.world (g.openStream link).world :=
  .of_trace (by rw [openStream_world])

theorem openStream_setup (g : Gateway) (link : LinkId) : (g.openStream link).setup = g.setup := by
  unfold openStream
  split <;> rfl

theorem enterPhase_keepsOutbound (g : Gateway) (link : LinkId) (phase : Phase) :
    KeepsOutbound g (g.enterPhase link phase) := ⟨rfl, rfl, rfl, rfl, rfl, rfl⟩

theorem admitLegacy_fades (g : Gateway) (link : LinkId) (reply : Stream.Header) (peer : String) :
    Fades CallKind.IsPlain g (g.admitLegacy link reply peer) := by
  have hw : World.Grows CallKind.IsPlain g.world
      (g.world.draw.1.send link (.header { reply with id := some g.world.draw.2 })) :=
    (World.grows_draw _).trans (World.grows_header _ _ CallKind.isPlain _)
  refine (g.act_fades (f := fun _ => _) hw).trans (enterPhase_fades _ link ?_)
  rfl

theorem releaseClaim_keepsOutbound (g : Gateway) (claim : Claim) :
    KeepsOutbound g (g.releaseClaim claim).1 := by
  unfold releaseClaim
  split
  · exact .refl g
  · have hk := g.setAdmissions_keepsOutbound (g.admissions.unregister claim)
    dsimp only
    split
    · exact hk
    · exact hk.trans (act_keepsOutbound _ _)

theorem endLegacy_keepsOutbound (g : Gateway) (link : LinkId) :
    KeepsOutbound g (g.endLegacy link).1 := by
  unfold endLegacy
  split
  · exact .refl g
  · split
    · exact ⟨rfl, rfl, rfl, rfl, rfl, rfl⟩
    · exact .refl g

theorem endChallenge_keepsOutbound (g : Gateway) (challenge : String) :
    KeepsOutbound g (g.endChallenge challenge).1 := by
  unfold endChallenge
  split
  · exact .refl g
  · exact ⟨rfl, rfl, rfl, rfl, rfl, rfl⟩

theorem closeAttempt_keepsOutbound (g : Gateway) (route : Route) :
    KeepsOutbound g (g.closeAttempt route).1 := by
  unfold closeAttempt
  split
  · exact .refl g
  · exact ⟨rfl, rfl, rfl, rfl, rfl, rfl⟩

theorem dismiss_keepsOutbound (g : Gateway) (link : LinkId) : KeepsOutbound g (g.dismiss link) :=
  g.setAdmissions_keepsOutbound _

theorem endSilent_keepsOutbound (g : Gateway) (link : LinkId) :
    KeepsOutbound g (g.endSilent link).1 := by
  unfold endSilent
  split
  · have hd := dismiss_keepsOutbound { g with streams := g.streams.erase link } link
    exact ⟨hd.setup, hd.negotiations, hd.routes, hd.addresses, hd.attempts, hd.carried⟩
  · exact .refl g

theorem restart_fades (g : Gateway) (link : LinkId) (s : Session) :
    Fades CallKind.IsPlain g (g.restart link s) :=
  (g.act_fades (World.grows_reset _ _ CallKind.isPlain)).trans
    ((dropChallenge_fades _ _).trans (enterPhase_fades _ _ rfl))

theorem restart_keepsOutbound (g : Gateway) (link : LinkId) (s : Session) :
    KeepsOutbound g (g.restart link s) := ⟨rfl, rfl, rfl, rfl, rfl, rfl⟩

theorem deliver_fades (g : Gateway) (e : Xml.Element) :
    Fades CallKind.IsDelivery g (g.emit (.deliver e)) :=
  g.act_fades (World.grows_emit _ rfl (by simp [Effect.kind]))

theorem carryAdmission_fades (g : Gateway) (claim : Claim) :
    Fades P g { g with admissions := g.admissions.modify claim (·.carry g.now) } := by
  refine ⟨rfl, fun _ _ => id, fun _ _ => id, ?_,
    fun _ c h => ⟨c, h, rfl, List.Sublist.refl _⟩, .refl _⟩
  intro c k hk
  rw [Registry.get?_modify] at hk
  split at hk
  · obtain ⟨k₀, h₀, rfl⟩ := Option.map_eq_some_iff.mp hk
    exact ⟨k₀, h₀, rfl⟩
  · exact ⟨k, hk, rfl⟩

namespace PeerStep

theorem fail (g : Gateway) (link : LinkId) (event : LinkEvent) (error : Stream.Error) :
    PeerStep g link event (g.act (·.fail link error)) :=
  .ends (g.fail_fades _ _) (g.act_keepsOutbound _) fun _ => World.calm_fail _ _ _

theorem onHeader (g : Gateway) (link : LinkId) (header : Stream.Header) :
    PeerStep g link (.header header) ((g.openStream link).onHeader link header) := by
  have hf := g.openStream_fades (P := CallKind.IsPlain) link
  have hk := g.openStream_keepsOutbound link
  unfold Gateway.onHeader
  split
  · refine .ends (hf.trans (act_fades _ ?_)) (hk.trans (act_keepsOutbound _ _)) fun _ => ?_
    · exact (World.grows_header _ _ CallKind.isPlain _).trans (World.grows_fail _ _ CallKind.isPlain _)
    · exact (g.openStream_calm link _).trans ((World.calm_header _ _ _).trans (World.calm_fail _ _ _))
  · rename_i reply peer _
    refine .ends (hf.trans (admitLegacy_fades _ link reply peer)) (hk.trans ⟨rfl, rfl, rfl, rfl, rfl, rfl⟩)
      fun _ => ?_
    exact (g.openStream_calm link _).trans ((World.Calm.of_trace rfl).trans (World.calm_header _ _ _))
  · rename_i hg
    rw [openStream_setup, openStream_world] at hg
    exact .accepts hg

theorem onStartTls {event : LinkEvent} (g : Gateway) (link : LinkId) (s : Session) :
    PeerStep g link event (g.onStartTls link s) := by
  unfold Gateway.onStartTls
  dsimp only
  split
  · refine .ends (act_fades _ ?_) (act_keepsOutbound _ _) fun _ => ?_
    · exact (World.grows_sendElement _ _ (by simp [CallKind.IsPlain])).trans
        (World.grows_finish _ _ CallKind.isPlain)
    · exact (World.calm_sendElement _ _ rfl).trans (World.calm_finish _ _)
  · have hf : Fades CallKind.IsPlain g (g.act fun w =>
        (w.sendElement link Protocol.tlsProceed).startTls link .server s.host) :=
      act_fades _ ((World.grows_sendElement _ _ (by simp [CallKind.IsPlain])).trans
        (World.grows_startTls _ _ CallKind.isPlain _ _))
    have hc (t : LinkId) : World.Calm t g.world
        ((g.world.sendElement link Protocol.tlsProceed).startTls link .server s.host) :=
      (World.calm_sendElement _ _ rfl).trans (World.calm_startTls _ _ _ _)
    split
    · exact .ends (hf.trans (restart_fades _ _ _))
        ((act_keepsOutbound _ _).trans (restart_keepsOutbound _ _ _))
        fun t => (hc t).trans (World.calm_reset _ _)
    · exact .ends (hf.trans (close_fades _ _)) ((act_keepsOutbound _ _).trans (act_keepsOutbound _ _))
        fun t => (hc t).trans (World.calm_close _ _)

theorem onSaslAuth {s : Session} {e : Xml.Element} (hs : g.sessionOn link = some s)
    (ha : e.is "auth" Xml.Namespace.sasl = true) :
    PeerStep g link (.element e) (g.onSaslAuth link s e) := by
  unfold Gateway.onSaslAuth
  split
  · rename_i identity hp
    exact .proves hs ha hp
  · have hf (reason : String) :
        Fades CallKind.IsPlain g (g.act (·.sendElement link (Protocol.saslFailure reason))) :=
      act_fades _ (World.grows_sendElement _ _ (by simp [CallKind.IsPlain]))
    have hk := g.act_keepsOutbound
    dsimp only
    split
    · exact .ends ((hf _).trans (fail_fades _ _ _)) ((hk _).trans (act_keepsOutbound _ _))
        fun _ => (World.calm_sendElement _ _ rfl).trans (World.calm_fail _ _ _)
    · exact .ends ((hf _).trans (finish_fades _ _)) ((hk _).trans (act_keepsOutbound _ _))
        fun _ => (World.calm_sendElement _ _ rfl).trans (World.calm_finish _ _)

theorem onClaim {s : Session} {e : Xml.Element} (hs : g.sessionOn link = some s)
    (hr : e.is "result" Xml.Namespace.dialback = true) :
    PeerStep g link (.element e) (g.onClaim link s e) := by
  unfold Gateway.onClaim
  cases hm : Dialback.ofElement e with
  | error fault => exact fail ..
  | ok m =>
    dsimp only
    split
    · exact fail ..
    · rename_i hreply
      split
      · exact fail ..
      · rename_i hc
        have ha : g.Asks link e ⟨s.challenge, m.recipient, m.sender⟩ :=
          ⟨hr, by simpa using hc, ⟨s, hs, rfl⟩, m, hm, by simpa using hreply, rfl, rfl⟩
        exact .asks ha hm

theorem onStanza {s : Session} {e : Xml.Element} (hs : g.sessionOn link = some s) :
    PeerStep g link (.element e) (g.onStanza link s e) := by
  unfold Gateway.onStanza
  cases ha : Protocol.addresses e with
  | error fault => exact fail ..
  | ok a =>
    dsimp only
    split
    · rename_i hany
      obtain ⟨carrier, hc, hl⟩ := (Option.any_eq_true ..).mp hany
      refine .delivers hs ha hc (by simpa using hl) ?_ ⟨rfl, rfl, rfl, rfl, rfl, rfl⟩
      exact (carryAdmission_fades g _).trans (deliver_fades _ _)
    · exact fail ..

theorem onElement (g : Gateway) (link : LinkId) (e : Xml.Element) :
    PeerStep g link (.element e) (g.onElement link e) := by
  unfold Gateway.onElement
  cases hf : g.streams.get? link with
  | none => exact .ends (.refl g) (.refl g) fun _ => .refl _
  | some stream =>
    dsimp only
    cases hp : stream.phase with
    | awaitingHeader => exact fail ..
    | legacy peer carrier =>
      refine .legacy hf hp ?_ ⟨rfl, rfl, rfl, rfl, rfl, rfl⟩
      have hm := g.modifyStream_fades (P := CallKind.IsDelivery) link
        (f := fun t => { t with phase := .legacy peer (carrier.carry g.now) }) (fun _ => rfl) fun _ => rfl
      exact hm.trans (deliver_fades _ e)
    | streaming s =>
      have hs := sessionOn_of_streaming hf hp
      dsimp only
      unfold onStreaming
      split
      · exact .ends (g.close_fades _) (g.act_keepsOutbound _) fun _ => World.calm_close _ _
      · split
        · exact onStartTls ..
        · split
          · exact onSaslAuth hs ‹_›
          · split
            · exact .hears hs ‹_›
            · split
              · exact onClaim hs ‹_›
              · exact onStanza hs

end PeerStep

theorem onClosed_keepsOutbound (g : Gateway) (link : LinkId) : KeepsOutbound g (g.onClosed link) := by
  unfold onClosed
  split
  · exact .refl g
  · refine .trans ?_ (dismiss_keepsOutbound _ link)
    split <;> exact ⟨rfl, rfl, rfl, rfl, rfl, rfl⟩

theorem onClosed_calm (g : Gateway) (link t : LinkId) : World.Calm t g.world (g.onClosed link).world := by
  unfold onClosed
  split
  · exact .refl _
  · refine World.Calm.trans ?_ (setAdmissions_calm _ _)
    split
    · exact .refl _
    · exact .refl _
    · exact World.calm_emit _ fun h => h

/-- An event on the stream of a peer does one of a few things. -/
theorem onInbound_step (g : Gateway) (link : LinkId) (event : LinkEvent) :
    PeerStep g link event (g.onInbound link event) := by
  cases event with
  | connected => exact .ends (g.openStream_fades link) (g.openStream_keepsOutbound link) (g.openStream_calm link)
  | header header => exact .onHeader g link header
  | element e => exact .onElement g link e
  | closed error => exact .ends (g.onClosed_fades link) (g.onClosed_keepsOutbound link) (g.onClosed_calm link)

theorem identify_keepsOutbound (g : Gateway) (link : LinkId) (s : Session) (identity : String) :
    KeepsOutbound g (g.identify link s identity) := ⟨rfl, rfl, rfl, rfl, rfl, rfl⟩

theorem identify_grows (g : Gateway) (link : LinkId) (s : Session) (identity : String) :
    World.Grows CallKind.IsPlain g.world (g.identify link s identity).world :=
  (World.grows_sendElement _ _ (by simp [CallKind.IsPlain])).trans
    (World.grows_reset _ _ CallKind.isPlain)

theorem sessionOn_enterPhase (g : Gateway) (link t : LinkId) (phase : Phase) :
    (g.enterPhase link phase).sessionOn t =
      if t = link then (g.streams.get? link).bind fun _ => phase.session? else g.sessionOn t := by
  simp only [sessionOn, enterPhase, Table.get?_modify]
  split
  · rename_i h
    rw [h]
    cases g.streams.get? link <;> rfl
  · rfl

theorem identityOn_enterPhase (g : Gateway) (link t : LinkId) (phase : Phase) :
    (g.enterPhase link phase).identityOn t = g.identityOn t := by
  simp only [identityOn, enterPhase, Table.get?_modify]
  split
  · cases g.streams.get? t <;> rfl
  · rfl

section Identify

variable (g : Gateway) (link : LinkId) (s : Session) (identity : String)

theorem identify_challenge {x : String} {c : Challenge}
    (h : (g.identify link s identity).challenges.get? x = some c) : g.challenges.get? x = some c := by
  have h : (g.challenges.erase s.challenge).get? x = some c := h
  rw [Table.get?_erase] at h
  split at h
  · cases h
  · exact h

/-- The stream begins anew, without a session. -/
theorem identify_session {t : LinkId} {x : Session}
    (h : (g.identify link s identity).sessionOn t = some x) : t ≠ link ∧ g.sessionOn t = some x := by
  simp only [sessionOn, identify, restart, enterPhase, dropChallenge, act, Table.get?_modify] at h
  split at h
  · obtain ⟨y, hy, hx⟩ := Option.bind_eq_some_iff.mp h
    obtain ⟨z, hz, rfl⟩ := Option.map_eq_some_iff.mp hy
    obtain ⟨_, _, rfl⟩ := Option.map_eq_some_iff.mp hz
    cases hx
  · exact ⟨‹_›, h⟩

theorem identify_identity {t : LinkId} {i : String}
    (h : (g.identify link s identity).identityOn t = some i) :
    t = link ∧ i = identity ∨ g.identityOn t = some i := by
  simp only [identityOn, identify, restart, enterPhase, dropChallenge, act, Table.get?_modify] at h
  split at h
  · obtain ⟨y, hy, hx⟩ := Option.bind_eq_some_iff.mp h
    obtain ⟨z, _, rfl⟩ := Option.map_eq_some_iff.mp hy
    cases hx
    exact .inl ⟨‹_›, rfl⟩
  · exact .inr h

end Identify

theorem get?_authorize (g : Gateway) (claim c : Claim) (link : LinkId) :
    (g.authorize claim link).admissions.get? c =
      if c = claim then some (Carrier.start link (g.world.link link).peerAddress g.now)
      else g.admissions.get? c := by
  rw [authorize, setAdmissions_admissions, Registry.get?_register]

/-- The gateway once a stream has its challenge, and the identity proved on it is authorized. -/
def challenge (g : Gateway) (link : LinkId) (host : String) (peer : Option String) (version : Nat) :
    Gateway :=
  let g' := { g with
    world := g.world.draw.1
    challenges := g.challenges.insert g.world.draw.2 ⟨link, peer, host, version, [], g.now⟩ }
  match g.identityOn link with
  | some identity => g'.authorize ⟨g.world.draw.2, host, identity⟩ link
  | none => g'

section Challenge

variable (g : Gateway) (link : LinkId) (host : String) (peer : Option String) (version : Nat)

theorem challenge_setup : (g.challenge link host peer version).setup = g.setup := by
  unfold challenge
  dsimp only
  split
  · exact setAdmissions_setup _ _
  · rfl

theorem challenge_streams : (g.challenge link host peer version).streams = g.streams := by
  unfold challenge
  dsimp only
  split
  · exact setAdmissions_streams _ _
  · rfl

theorem challenge_challenges : (g.challenge link host peer version).challenges =
    g.challenges.insert g.world.draw.2 ⟨link, peer, host, version, [], g.now⟩ := by
  unfold challenge
  dsimp only
  split
  · exact setAdmissions_challenges _ _
  · rfl

theorem challenge_admissions {c : Claim} {k : Carrier}
    (h : (g.challenge link host peer version).admissions.get? c = some k) :
    g.admissions.get? c = some k ∨ c.challenge = g.world.draw.2 ∧ c.destination = host ∧
      g.identityOn link = some c.source ∧ k.link = link := by
  unfold challenge at h
  dsimp only at h
  split at h
  · rename_i identity hi
    rw [get?_authorize] at h
    split at h
    · rename_i hc
      cases h
      rw [hc]
      exact .inr ⟨rfl, rfl, hi, rfl⟩
    · exact .inl h
  · exact .inl h

theorem challenge_keepsOutbound : KeepsOutbound g (g.challenge link host peer version) := by
  unfold challenge
  dsimp only
  split
  · refine .trans ?_ (authorize_keepsOutbound _ _ _)
    exact ⟨rfl, rfl, rfl, rfl, rfl, rfl⟩
  · exact ⟨rfl, rfl, rfl, rfl, rfl, rfl⟩

theorem challenge_grows :
    World.Grows CallKind.IsPlain g.world.draw.1 (g.challenge link host peer version).world := by
  unfold challenge
  dsimp only
  split
  · exact setAdmissions_grows { g with world := g.world.draw.1, challenges := _ } CallKind.isPlain _
  · exact .refl _

end Challenge

/-- What is written on a stream that has been accepted. -/
def welcome (w : World) (link : LinkId) (reply : Stream.Header) (version : Nat) (offer : Offer)
    (token : String) : World :=
  let w := w.send link (.header { reply with id := some token })
  if 1 ≤ version then w.sendElement link (Protocol.features offer.startTls offer.sasl) else w

theorem acceptStream_eq (g : Gateway) (link : LinkId) (reply : Stream.Header) (host : String)
    (peer : Option String) (version : Nat) (offer : Offer) :
    g.acceptStream link reply host peer version offer =
      ((g.challenge link host peer version).act
        (welcome · link reply version offer g.world.draw.2)).enterPhase link
        (.streaming ⟨g.world.draw.2, host, peer, version⟩) := by
  unfold acceptStream welcome
  by_cases hv : 1 ≤ version
  · simp only [if_pos hv]
    rfl
  · simp only [if_neg hv]
    rfl

/-- Calls on links, but for a header and features on this one, are not made. -/
theorem acceptStream_omits {P : Effect → Prop} (g : Gateway) (link : LinkId) (reply : Stream.Header) (host : String)
    (peer : Option String) (version : Nat) (offer : Offer) (on : ∀ e, P e → ∃ t, e.link? = some t)
    (header : ∀ h, ¬ P (.send link (.header h)))
    (features : ¬ P (.send link (.element (Protocol.features offer.startTls offer.sasl)))) :
    World.Omits P g.world (g.acceptStream link reply host peer version offer).world := by
  have challenged : World.Omits P g.world (g.challenge link host peer version).world := by
    unfold challenge
    dsimp only
    split
    · exact .trans (.of_trace rfl) ((setAdmissions_linkless _ _).mono on)
    · exact .of_trace rfl
  rw [acceptStream_eq]
  refine challenged.trans ?_
  change World.Omits P _ (welcome _ link reply version offer g.world.draw.2)
  unfold welcome
  dsimp only
  split
  · exact .trans (.emit _ (header _)) (.emit _ features)
  · exact .emit _ (header _)

/-- What an accepted header makes of a gateway. -/
structure Accepted (g : Gateway) (link : LinkId) (host : String) (g' : Gateway) : Prop where
  setup : g'.setup = g.setup
  session : ∀ t s, g'.sessionOn t = some s →
    t = link ∧ s.challenge = g.world.draw.2 ∧ s.host = host ∨ t ≠ link ∧ g.sessionOn t = some s
  identity : ∀ t, g'.identityOn t = g.identityOn t
  challenge : ∀ x c, g'.challenges.get? x = some c →
    x = g.world.draw.2 ∧ c.link = link ∧ c.claims = [] ∨ g.challenges.get? x = some c
  admission : ∀ c k, g'.admissions.get? c = some k → g.admissions.get? c = some k ∨
    c.challenge = g.world.draw.2 ∧ c.destination = host ∧ g.identityOn link = some c.source ∧
      k.link = link
  keeps : KeepsOutbound g g'
  grows : World.Grows CallKind.IsPlain g.world.draw.1 g'.world

theorem acceptStream_accepted (g : Gateway) (link : LinkId) (reply : Stream.Header) (host : String)
    (peer : Option String) (version : Nat) (offer : Offer) :
    Accepted g link host (g.acceptStream link reply host peer version offer) := by
  rw [acceptStream_eq]
  have hs := g.challenge_streams link host peer version
  refine ⟨g.challenge_setup .., ?_, ?_, ?_, ?_, ?_, ?_⟩
  · intro t s h
    rw [sessionOn_enterPhase] at h
    split at h
    · rename_i ht
      obtain ⟨_, _, h⟩ := Option.bind_eq_some_iff.mp h
      cases h
      exact .inl ⟨ht, rfl, rfl⟩
    · rename_i ht
      simp only [sessionOn, act, hs] at h
      exact .inr ⟨ht, h⟩
  · intro t
    rw [identityOn_enterPhase]
    simp only [identityOn, act, hs]
  · intro x c h
    have h : (g.challenge link host peer version).challenges.get? x = some c := h
    rw [challenge_challenges, Table.get?_insert] at h
    split at h
    · rename_i hx
      cases h
      exact .inl ⟨hx, rfl, rfl⟩
    · exact .inr h
  · intro c k h
    exact g.challenge_admissions _ _ _ _ h
  · exact (g.challenge_keepsOutbound ..).trans ((act_keepsOutbound _ _).trans (enterPhase_keepsOutbound ..))
  · refine (g.challenge_grows link host peer version).trans ?_
    unfold welcome
    dsimp only
    split
    · exact (World.grows_header _ _ CallKind.isPlain _).trans
        (World.grows_sendElement _ _ (by simp [CallKind.IsPlain]))
    · exact World.grows_header _ _ CallKind.isPlain _

/-- What an event on the stream of a peer means to the negotiations and the routes: nothing, unless it opens
a claim. -/
theorem PeerStep.answers {event : LinkEvent} (h : PeerStep g link event g') :
    (KeepsOutbound g g' ∧ World.Grows CallKind.IsAnswer g.world g'.world) ∨
      ∃ e claim key, event = .element e ∧ g.Asks link e claim ∧
        g' = (g.openClaim claim).dispatchVerify ⟨claim.source, claim.destination⟩
          (Dialback.verify claim.source claim.destination claim.challenge key) := by
  cases h with
  | ends fades keeps _ => exact .inl ⟨keeps, fades.grows.mono fun _ h => .inl (.inl h)⟩
  | legacy _ _ fades keeps => exact .inl ⟨keeps, fades.grows.mono fun _ => .inr⟩
  | delivers _ _ _ _ fades keeps => exact .inl ⟨keeps, fades.grows.mono fun _ => .inr⟩
  | hears =>
    exact .inl ⟨g.onVerify_keepsOutbound _ _, (g.onVerify_grows _ _).mono fun _ => .inl⟩
  | asks asks _ => exact .inr ⟨_, _, _, rfl, asks, rfl⟩
  | proves =>
    exact .inl ⟨g.identify_keepsOutbound _ _ _, (g.identify_grows _ _ _).mono fun _ h => .inl (.inl h)⟩
  | accepts greeting =>
    have ha := acceptStream_accepted (g.openStream link)
    refine .inl ⟨(g.openStream_keepsOutbound link).trans (ha ..).keeps, ?_⟩
    rw [← openStream_world g link]
    exact (World.grows_draw _).trans ((ha ..).grows.mono fun _ h => .inl (.inl h))

end Interdomain.Gateway
