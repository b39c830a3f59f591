import Interdomain.Proofs.Belongings
import Interdomain.Proofs.Overtures

/-! Connections of the server to itself. Every header that the gateway writes for a route bears its token, and a
header with that token is refused, so that nothing comes of its stream; but not where the header is taken for
one from before dialback, which is admitted before the token is looked at. -/
namespace Interdomain

namespace Setup

variable {s : Setup} {r : Route} {header : Stream.Header} {peer : Option String}

/-- The header is one of this server's own. -/
def Wrote (s : Setup) (header : Stream.Header) : Prop := header.loopToken = some s.signer.loopToken

/-- The header is admitted without authentication, for a peer that it names or for none. -/
def AdmitsUnauthenticated (s : Setup) (header : Stream.Header) : Prop := ∃ peer, s.AdmitsUnproved header peer

theorem wrote_headerFor (s : Setup) (r : Route) : s.Wrote (s.headerFor r) := rfl

/-- The terms for the domains of a route make its header one from before dialback: those for its destination leave
out the namespace of dialback, and those for one of the two the version, which is not demanded either. -/
structure Obscures (s : Setup) (r : Route) : Prop where
  allowed : s.settings.allowLegacy = true
  undeclared : (s.policy.lookup r.destination).auth = .saslOnly
  recipient : ∃ host, Jid.domain? r.destination = some host
  unversioned : ∃ name, Jid.domain? r.source = some name ∧ (s.policy.lookup name).version ≠ .forced ∧
    ((s.policy.lookup r.destination).version = .disabled ∨ (s.policy.lookup name).version = .disabled)

theorem versionFor_headerFor (s : Setup) (r : Route) (terms : Policy.Terms) :
    versionFor terms (s.headerFor r) = 0 ↔
      (s.policy.lookup r.destination).version = .disabled ∨ terms.version = .disabled := by
  have one : Stream.Header.majorOf "1.0" = 1 := by decide +kernel
  by_cases ht : terms.version = .disabled <;>
    by_cases hd : (s.policy.lookup r.destination).version = .disabled <;>
    simp [versionFor, headerFor, Stream.Header.majorVersion, ht, hd, one]

/-- Which of the headers that the gateway writes are admitted without authentication when they come back. -/
theorem admitsUnauthenticated_headerFor (s : Setup) (r : Route) :
    s.AdmitsUnauthenticated (s.headerFor r) ↔ s.Obscures r := by
  have sender (peer : Option String) : optionalDomain? (s.headerFor r).sender = some peer ↔
      ∃ name, Jid.domain? r.source = some name ∧ peer = some name := by
    change (Jid.domain? r.source).map some = some peer ↔ _
    rw [Option.map_eq_some_iff]
    exact exists_congr fun name => and_congr_right fun _ => eq_comm
  have undeclared : (s.headerFor r).declaresDialback = false ↔
      (s.policy.lookup r.destination).auth = .saslOnly := by
    by_cases h : (s.policy.lookup r.destination).auth = .saslOnly <;>
      simp [headerFor, Stream.Header.declaresDialback, h]
  constructor
  · rintro ⟨peer, admits⟩
    obtain ⟨host, understood⟩ := admits.understood
    obtain ⟨name, hn, rfl⟩ := (sender peer).mp understood.sender
    refine ⟨admits.allowed, undeclared.mp admits.undeclared, ⟨host, understood.recipient⟩, name, hn, ?_, ?_⟩
    · exact fun forced => understood.version forced admits.version
    · exact (s.versionFor_headerFor r _).mp admits.version
  · rintro ⟨allowed, auth, ⟨host, recipient⟩, name, hn, optional, unversioned⟩
    have namespaces : hasNamespaces (s.headerFor r) = true := by simp [hasNamespaces, headerFor, auth]
    exact ⟨some name, allowed, ⟨host, recipient, (sender _).mpr ⟨name, hn, rfl⟩, namespaces,
      fun forced => absurd forced optional⟩, (s.versionFor_headerFor r _).mpr unversioned, undeclared.mpr auth⟩

end Setup

namespace Gateway

variable {g g' : Gateway} {t : LinkId} {header : Stream.Header} {stream : InboundStream}

/-- The stream on the link, if there is one, waits for its header. -/
def Unheaded (g : Gateway) (t : LinkId) : Prop :=
  ∀ stream, g.streams.get? t = some stream → stream.phase = .awaitingHeader

/-- A header is answered and refused, and the stream goes on waiting for one: nothing is drawn, opened or
registered for it, and its link is closed. -/
structure TurnsAway (g : Gateway) (t : LinkId) (header : Stream.Header) (g' : Gateway) : Prop where
  calls : ∃ reply error, g'.world.since g.world = [.send t (.header reply), .send t (.error error), .close t]
  drawn : g'.world.drawn = g.world.drawn
  challenges : g'.challenges = g.challenges
  admissions : g'.admissions = g.admissions
  outbound : KeepsOutbound g g'
  waits : ∃ stream, g'.streams.get? t = some stream ∧ stream.phase = .awaitingHeader
  others : ∀ u, u ≠ t → g'.streams.get? u = g.streams.get? u

theorem openStream_challenges (g : Gateway) (t : LinkId) : (g.openStream t).challenges = g.challenges := by
  unfold openStream
  split <;> rfl

theorem step_header (g : Gateway) (t : LinkId) (header : Stream.Header) :
    g.step (.inbound t (.header header)) = match g.greeting t header with
      | .refused reply reason => (g.openStream t).refuseHeader t reply reason
      | .legacy reply peer => (g.openStream t).admitLegacy t reply peer
      | .accepted reply host peer version offer => (g.openStream t).acceptStream t reply host peer version offer := by
  change (g.openStream t).onHeader t header = _
  rw [onHeader, openStream_setup, openStream_world, openStream_identityOn]
  rfl

/-- What a refused header does to the gateway. -/
theorem turnsAway_of_refused {reply : Stream.Header} {reason : Refusal} (unheaded : g.Unheaded t)
    (refused : g.greeting t header = .refused reply reason) :
    TurnsAway g t header (g.step (.inbound t (.header header))) := by
  have challenges := g.openStream_challenges t
  have admissions := g.openStream_admissions t
  have world := g.openStream_world t
  have keeps := g.openStream_keepsOutbound t
  have waits := openStream_awaits unheaded
  have others u (hu : u ≠ t) := g.get?_openStream_of_ne hu
  rw [step_header, refused]
  dsimp only
  generalize g.openStream t = f at *
  refine ⟨⟨reply, reason.error, ?_⟩, ?_, challenges, admissions, keeps.trans (act_keepsOutbound _ _), waits, others⟩
  · simp [refuseHeader, act, World.fail, World.close, World.send, World.since, world]
  · rw [← world]
    rfl

/-- A header of this server's own is turned away, unless it is admitted without authentication. -/
theorem own_turnsAway (unheaded : g.Unheaded t) (own : g.setup.Wrote header)
    (not_admitted : ¬ g.setup.AdmitsUnauthenticated header) :
    TurnsAway g t header (g.step (.inbound t (.header header))) := by
  rcases Setup.greet_own own (g.world.link t) (g.identityOn t).isSome with ⟨_, _, refused⟩ | ⟨peer, admits, _⟩
  · exact turnsAway_of_refused unheaded refused
  · exact absurd ⟨peer, admits⟩ not_admitted

/-- A header that is admitted without authentication begins a stream on which everything is delivered. -/
theorem admitted_delivers (admitted : g.setup.AdmitsUnauthenticated header) :
    let g' := g.step (.inbound t (.header header))
    (∃ stream peer carrier, g'.streams.get? t = some stream ∧ stream.phase = .legacy peer carrier) ∧
      ∀ e, .deliver e ∈ (⟨g', .inbound t (.element e)⟩ : Moment).calls := by
  intro g'
  obtain ⟨peer, admits⟩ := admitted
  have legacy := (Setup.greet_legacy_iff (g.world.link t) (g.identityOn t).isSome).mpr ⟨peer, admits, rfl, rfl⟩
  have step : g' = (g.openStream t).admitLegacy t (g.setup.replyFor header peer) (peer.getD "unknown") := by
    change g.step _ = _
    rw [step_header, greeting, legacy]
  obtain ⟨stream, hs⟩ : ∃ stream, (g.openStream t).streams.get? t = some stream := by
    unfold openStream
    split
    · exact Option.isSome_iff_exists.mp ‹_›
    · simp [Table.get?_insert]
  obtain ⟨after, hafter, carrier, phase⟩ : ∃ after, g'.streams.get? t = some after ∧ ∃ carrier,
      after.phase = .legacy (peer.getD "unknown") carrier := by
    rw [step]
    simp [admitLegacy, enterPhase, Table.get?_modify, hs]
  refine ⟨⟨after, _, carrier, hafter, phase⟩, fun e => ?_⟩
  change .deliver e ∈ (g'.onElement t e).world.since g'.world
  simp [onElement, hafter, phase, emit, act, World.since]

/-- A stream comes from an event on its link, or was there before. -/
theorem stream_of_step (ho : g.Orderly) {op : Operation} (event : ∀ event, op ≠ .inbound t event)
    (hs : (g.step op).streams.get? t = some stream) : g.streams.get? t = some stream := by
  have same {g' : Gateway} (hk : Stays g g') (h : g'.streams.get? t = some stream) :
      g.streams.get? t = some stream := hk.streams ▸ h
  cases op with
  | submit stanza resolved => exact same (g.step_submit stanza resolved ▸ (g.submit_step stanza resolved).stays) hs
  | inbound u e => exact (g.onInbound_streams u e).other (fun h => event e (h ▸ rfl)) ▸ hs
  | outbound u e => exact same (onOutbound_stays ho u e) hs
  | sweep ahead =>
    rw [step_sweep] at hs
    exact sweepAt_streams hs
  | releaseRoute route => exact same (g.step_releaseRoute route ▸ g.releaseRoute_stays route) hs
  | releaseClaim claim => exact same (g.step_releaseClaim claim ▸ g.releaseClaim_stays claim) hs
  | wait duration => exact hs
  | learn link facts => exact hs

/-- A stream goes on waiting for its header as long as only headers come that are turned away. -/
theorem Unheaded.step (ho : g.Orderly) (unheaded : g.Unheaded t) {op : Operation}
    (headers : ∀ header, op = .inbound t (.header header) →
      g.setup.Wrote header ∧ ¬ g.setup.AdmitsUnauthenticated header) : (g.step op).Unheaded t := by
  intro stream hs
  by_cases hop : ∃ event, op = .inbound t event
  · obtain ⟨event, rfl⟩ := hop
    refine Decidable.byContradiction fun hp => ?_
    rcases (g.onInbound_streams t event).past hs hp with ⟨header, rfl⟩ | ⟨⟨before, hb, hpb⟩, _⟩
    · obtain ⟨own, not_admitted⟩ := headers header rfl
      obtain ⟨after, ha, hpa⟩ := (own_turnsAway unheaded own not_admitted).waits
      rw [hs] at ha
      cases ha
      exact hp hpa
    · exact hpb (unheaded before hb)
  · exact unheaded stream (stream_of_step ho (fun event h => hop ⟨event, h⟩) hs)

/-- Nothing is delivered from a stream that waits for its header. -/
theorem Unheaded.not_delivers (unheaded : g.Unheaded t) (e : Xml.Element) :
    .deliver e ∉ (⟨g, .inbound t (.element e)⟩ : Moment).calls := by
  change .deliver e ∉ (g.onElement t e).world.since g.world
  unfold onElement
  cases hs : g.streams.get? t with
  | none => simp [World.since]
  | some stream => simp [unheaded stream hs, act, World.fail, World.close, World.send, World.since]

/-- Nothing is delivered from a link on which only headers come that are turned away. -/
theorem Unheaded.run (ho : g.Orderly) (unheaded : g.Unheaded t) {more : List Operation}
    (headers : ∀ header, .inbound t (.header header) ∈ more →
      g.setup.Wrote header ∧ ¬ g.setup.AdmitsUnauthenticated header) :
    ∀ m ∈ g.history more, ∀ e, m.operation = .inbound t (.element e) → .deliver e ∉ m.calls := by
  induction more generalizing g with
  | nil => intro m hm; cases hm
  | cons op more ih =>
    intro m hm e he
    rcases List.mem_cons.mp hm with rfl | hm
    · cases he
      exact unheaded.not_delivers e
    · have next := unheaded.step ho fun header h => headers header (h ▸ List.mem_cons_self)
      refine ih (step_total ho op).1 next (fun header h => ?_) m hm e he
      rw [step_setup ho op]
      exact headers header (List.mem_cons_of_mem _ h)

/-- One of the gateway's own headers on a stream that waits for one is turned away, unless it is admitted without
authentication; and those are so admitted that the terms for the two domains obscure. -/
theorem own_header_turned_away (setup : Setup) (world : World) (ops : List Operation) (t : LinkId)
    (header : Stream.Header) :
    let g := (initial setup world).run ops
    let g' := g.step (.inbound t (.header header))
    (∀ op v written, .send v (.header written) ∈ (⟨g, op⟩ : Moment).calls →
      (∃ asked, op = .inbound v (.header asked)) ∨ setup.Wrote written ∧
        ∃ r, g.Negotiates r v ∧ (setup.AdmitsUnauthenticated written ↔ setup.Obscures r)) ∧
    (g.Unheaded t → setup.Wrote header →
      (¬ setup.AdmitsUnauthenticated header → TurnsAway g t header g' ∧
        ∀ more, (∀ other, .inbound t (.header other) ∈ more →
            setup.Wrote other ∧ ¬ setup.AdmitsUnauthenticated other) →
          ∀ m ∈ g'.history more, ∀ e, m.operation = .inbound t (.element e) → .deliver e ∉ m.calls) ∧
      (setup.AdmitsUnauthenticated header →
        (∃ stream peer carrier, g'.streams.get? t = some stream ∧ stream.phase = .legacy peer carrier) ∧
        ∀ e, .deliver e ∈ (⟨g', .inbound t (.element e)⟩ : Moment).calls)) := by
  intro g g'
  have same : g.setup = setup := run_setup setup world ops
  have ho : g.Orderly := run_orderly setup world ops
  refine ⟨fun op v written hw => ?_, fun unheaded own => ⟨fun not_admitted => ?_, fun admitted => ?_⟩⟩
  · rcases header_of_calls setup world ops hw with ⟨asked, _, answers, _⟩ | ⟨r, negotiates, rfl⟩
    · exact .inl ⟨asked, answers⟩
    · exact .inr ⟨setup.wrote_headerFor r, r, negotiates, setup.admitsUnauthenticated_headerFor r⟩
  · have away : TurnsAway g t header g' := own_turnsAway unheaded (same ▸ own) (same ▸ not_admitted)
    refine ⟨away, fun more headers => ?_⟩
    have waits : g'.Unheaded t := by
      obtain ⟨after, ha, hp⟩ := away.waits
      intro stream hs
      rw [ha] at hs
      cases hs
      exact hp
    have same' : g'.setup = setup := (step_setup ho _).trans same
    exact waits.run (step_total ho _).1 (by rw [same']; exact headers)
  · exact admitted_delivers (same ▸ admitted)

/-- A stanza waits, and the header for its route is written. -/
def greeted : List Operation :=
  [.submit (sampleMessage "bob@b.example" "alice@a.example") (some "192.0.2.1"), .outbound 100 .connected]

theorem own_header_refused_once :
    let header := sample.setup.headerFor ⟨"b.example", "a.example"⟩
    let g := sample.run greeted
    g.Unheaded 1 ∧ sample.setup.Wrote header ∧ ¬ sample.setup.AdmitsUnauthenticated header ∧
      TurnsAway g 1 header (g.step (.inbound 1 (.header header))) := by
  intro header g
  have own : sample.setup.Wrote header := sample.setup.wrote_headerFor _
  have unheaded : g.Unheaded 1 := by
    have none : g.streams.get? 1 = none := by decide +kernel
    intro stream hs
    rw [none] at hs
    cases hs
  have not_admitted : ¬ sample.setup.AdmitsUnauthenticated header := by
    rintro ⟨peer, admits⟩
    have := admits.allowed
    revert this
    decide
  exact ⟨unheaded, own, not_admitted,
    (((own_header_turned_away sample.setup sample.world greeted 1 header).2 unheaded own).1 not_admitted).1⟩

/-- The header for a route to a peer without versions and without dialback comes back, and is admitted. -/
theorem own_header_admitted :
    let start := sampleWith true "b.example" { auth := .saslOnly, version := .disabled }
    let header := start.setup.headerFor ⟨"b.example", "a.example"⟩
    let g := start.run greeted
    let g' := g.step (.inbound 1 (.header header))
    let e := sampleMessage "bob@b.example" "alice@a.example"
    .send 100 (.header header) ∈ g.world.trace ∧ start.setup.Wrote header ∧ g.Unheaded 1 ∧
      .close 1 ∉ (⟨g, .inbound 1 (.header header)⟩ : Moment).calls ∧
      .deliver e ∈ (⟨g', .inbound 1 (.element e)⟩ : Moment).calls := by
  intro start header g g' e
  have unheaded : g.Unheaded 1 := by
    have none : g.streams.get? 1 = none := by decide +kernel
    intro stream hs
    rw [none] at hs
    cases hs
  exact ⟨by decide +kernel, start.setup.wrote_headerFor _, unheaded, by decide +kernel, by decide +kernel⟩

end Gateway

end Interdomain
