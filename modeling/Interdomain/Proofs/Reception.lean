import Interdomain.Proofs.Loops
import Interdomain.Proofs.Sweeps

/-! Which headers begin a stream. What a header must be like is said here of its addresses, its namespaces and its
version, without the order in which they are looked at; a header that is like that begins a stream, and every other
one is refused, of which nothing remains but the answer. -/
namespace Interdomain

namespace Setup

variable (s : Setup) {link : Link} {authenticated : Bool} {header : Stream.Header} {host : String}

/-- The domain that the header names as its sender, if it names one. -/
def senderIn (header : Stream.Header) : Option String := header.sender.bind Jid.domain?

/-- The version of the stream, on the terms for its sender. -/
def versionIn (header : Stream.Header) : Nat := versionFor (s.termsFor (senderIn header)) header

/-- The addresses of the header are those of servers and its namespaces the right ones, and it has a version if the
terms for its sender demand that. -/
structure Proper (header : Stream.Header) (host : String) : Prop where
  sender : ∀ text, header.sender = some text → ∃ domain, Jid.domain? text = some domain
  ns : header.ns = Xml.Namespace.server
  dialback : ∀ ns, header.dialback = some ns → ns = Xml.Namespace.dialback
  version : (s.termsFor (senderIn header)).version = .forced → s.versionIn header ≠ 0
  recipient : ∃ text, header.recipient = some text ∧ Jid.domain? text = some host

/-- The stream is from before dialback. -/
def Predates (header : Stream.Header) : Prop := s.versionIn header = 0 ∧ header.dialback = none

/-- The ways to go on with a stream: dialback where the header declares it, TLS or SASL where the link and the terms
have them for a stream with a version, and none if that was done before. -/
inductive GoesOn (link : Link) (authenticated : Bool) (header : Stream.Header) (host : String) : Prop
  | dialback (declared : ∃ ns, header.dialback = some ns)
  | startTls (fresh : authenticated = false) (versioned : 1 ≤ s.versionIn header)
      (allowed : (s.termsFor (senderIn header)).tls.allowsStartTls = true) (offered : link.offersTls host = true)
  | sasl (fresh : authenticated = false) (versioned : 1 ≤ s.versionIn header) (protection : 0 < link.level)
      (certified : ∃ domain, senderIn header = some domain ∧ link.certifies domain = true)
      (permitted : (s.termsFor (senderIn header)).auth.permits .sasl = true)
  | known (authenticated : authenticated = true)

/-- The header begins a stream: one from before dialback where the settings allow that, or one that goes on in some
way and is not of this server's own. -/
def Admits (link : Link) (authenticated : Bool) (header : Stream.Header) : Prop :=
  ∃ host, s.Proper header host ∧
    (s.Predates header ∧ s.settings.allowLegacy = true ∨
      ¬ s.Predates header ∧ s.GoesOn link authenticated header host ∧ ¬ s.Wrote header)

variable {s}

theorem optionalDomain?_eq_some {text : Option String} {peer : Option String} :
    optionalDomain? text = some peer ↔
      (∀ t, text = some t → ∃ domain, Jid.domain? t = some domain) ∧ peer = text.bind Jid.domain? := by
  cases text with
  | none => simp [optionalDomain?, eq_comm]
  | some t => cases h : Jid.domain? t <;> simp [optionalDomain?, h, eq_comm]

theorem hasNamespaces_iff : hasNamespaces header = true ↔
    header.ns = Xml.Namespace.server ∧ ∀ ns, header.dialback = some ns → ns = Xml.Namespace.dialback := by
  cases h : header.dialback <;> simp [hasNamespaces, h]

/-- A proper header is understood, as one of the sender that it names. -/
theorem understands_iff {peer : Option String} :
    s.Understands header host peer ↔ s.Proper header host ∧ peer = senderIn header := by
  constructor
  · intro h
    obtain ⟨sender, rfl⟩ := optionalDomain?_eq_some.mp h.sender
    obtain ⟨ns, dialback⟩ := hasNamespaces_iff.mp h.namespaces
    exact ⟨⟨sender, ns, dialback, h.version, Option.bind_eq_some_iff.mp h.recipient⟩, rfl⟩
  · rintro ⟨h, rfl⟩
    exact ⟨Option.bind_eq_some_iff.mpr h.recipient, optionalDomain?_eq_some.mpr ⟨h.sender, rfl⟩,
      hasNamespaces_iff.mpr ⟨h.ns, h.dialback⟩, h.version⟩

theorem predates_iff : s.Predates header ↔ s.versionIn header = 0 ∧ header.declaresDialback = false := by
  rw [Predates, Stream.Header.declaresDialback, Option.isSome_eq_false_iff, Option.isNone_iff_eq_none]

theorem offer_startTls_iff (terms : Policy.Terms) (link : Link) (authenticated : Bool) (host : String)
    (peer : Option String) (version : Nat) : (offer terms link authenticated host peer version).startTls = true ↔
      authenticated = false ∧ 1 ≤ version ∧ terms.tls.allowsStartTls = true ∧ link.offersTls host = true := by
  simp only [offer, Bool.and_eq_true, Bool.not_eq_true', decide_eq_true_eq, and_assoc]

theorem offer_sasl_iff (terms : Policy.Terms) (link : Link) (authenticated : Bool) (host : String)
    (peer : Option String) (version : Nat) : (offer terms link authenticated host peer version).sasl = true ↔
      authenticated = false ∧ 1 ≤ version ∧ 0 < link.level ∧
        (∃ domain, peer = some domain ∧ link.certifies domain = true) ∧ terms.auth.permits .sasl = true := by
  cases peer <;> simp [offer, and_assoc]

/-- A stream goes on exactly if dialback is declared, something is offered, or it is authenticated. -/
theorem goesOn_iff {offer : Offer} (offers : offer = Setup.offer (s.termsFor (senderIn header)) link authenticated
    host (senderIn header) (s.versionIn header)) : s.GoesOn link authenticated header host ↔
      header.declaresDialback = true ∨ offer.sasl = true ∨ offer.startTls = true ∨ authenticated = true := by
  rw [offers, offer_sasl_iff, offer_startTls_iff, Stream.Header.declaresDialback, Option.isSome_iff_exists]
  constructor
  · intro h
    cases h with
    | dialback declared => exact .inl declared
    | startTls fresh versioned allowed offered =>
      exact .inr (.inr (.inl ⟨fresh, versioned, allowed, offered⟩))
    | sasl fresh versioned protection certified permitted =>
      exact .inr (.inl ⟨fresh, versioned, protection, certified, permitted⟩)
    | known known => exact .inr (.inr (.inr known))
  · rintro (declared | ⟨fresh, versioned, protection, certified, permitted⟩ | ⟨fresh, versioned, allowed, offered⟩ |
      known)
    · exact .dialback declared
    · exact .sasl fresh versioned protection certified permitted
    · exact .startTls fresh versioned allowed offered
    · exact .known known

/-- What becomes of a proper header. -/
theorem greetAt_refuses_iff (reply : Stream.Header) :
    (∃ other reason, s.greetAt (s.termsFor (senderIn header)) link authenticated header reply host (senderIn header)
      (s.versionIn header) = .refused other reason) ↔
    ¬ (s.Predates header ∧ s.settings.allowLegacy = true ∨
      ¬ s.Predates header ∧ s.GoesOn link authenticated header host ∧ ¬ s.Wrote header) := by
  rw [predates_iff, goesOn_iff rfl, Wrote, greetAt]
  by_cases predates : s.versionIn header = 0 ∧ header.declaresDialback = false
  · rw [if_pos predates]
    cases s.settings.allowLegacy <;> simp [predates]
  · rw [if_neg predates]
    generalize Setup.offer _ _ _ _ _ _ = offer
    generalize hways : (header.declaresDialback = true ∨ offer.sasl = true ∨ offer.startTls = true ∨
      authenticated = true) = way
    have stuck : (!header.declaresDialback && !offer.sasl && !offer.startTls && !authenticated) = true ↔ ¬ way := by
      simp [← hways, not_or, and_assoc]
    by_cases ways : way
    · rw [if_neg (mt stuck.mp (not_not.mpr ways))]
      by_cases own : header.loopToken = some s.signer.loopToken
      · rw [if_pos own]
        simp [predates, own]
      · rw [if_neg own]
        simp [predates, ways, own]
    · rw [if_pos (stuck.mpr ways)]
      simp [predates, ways]

/-- A header is refused exactly if it does not begin a stream. -/
theorem refuses_iff : (∃ reply reason, s.greet link authenticated header = .refused reply reason) ↔
    ¬ s.Admits link authenticated header := by
  by_cases proper : ∃ host, s.Proper header host
  · obtain ⟨host, proper⟩ := proper
    have understood := understands_iff.mpr ⟨proper, rfl⟩
    rw [greet_of_understands understood]
    apply (greetAt_refuses_iff _).trans
    apply not_congr
    constructor
    · exact fun ways => ⟨host, proper, ways⟩
    · rintro ⟨host', proper', ways⟩
      obtain ⟨rfl, -⟩ := (understands_iff.mpr ⟨proper', rfl⟩).unique understood
      exact ways
  · constructor
    · rintro - ⟨host, h, -⟩
      exact proper ⟨host, h⟩
    · intro
      apply greet_of_not_understands
      intro host peer understood
      exact proper ⟨host, (understands_iff.mp understood).1⟩

/-- The answer to a header has no id of its own. -/
theorem id_reply_greet (s : Setup) (link : Link) (authenticated : Bool) (header : Stream.Header) :
    (s.greet link authenticated header).reply.id = none := by
  rcases s.reply_greet link authenticated header with reply | ⟨peer, -, reply⟩
  · rw [reply]
  · rw [reply]
    rfl

end Setup

namespace Gateway

variable {g g' : Gateway} {t : LinkId} {header reply : Stream.Header} {host name : String} {peer : Option String}
  {version : Nat} {offer : Offer}

/-- The header begins a stream on the link. -/
def LetsIn (g : Gateway) (t : LinkId) (header : Stream.Header) : Prop :=
  g.setup.Admits (g.world.link t) (g.identityOn t).isSome header

/-- A stream begins: the next token is drawn for it, it is answered with a header that bears the token, its link stays
open, and it waits for its header no more. -/
structure TakesUp (g : Gateway) (t : LinkId) (g' : Gateway) : Prop where
  drawn : g'.world.drawn = g.world.drawn + 1
  answered : ∃ reply, reply.id = some g.world.draw.2 ∧ .send t (.header reply) ∈ g'.world.since g.world
  stays : .close t ∉ g'.world.since g.world
  waits : ¬ g'.Unheaded t

theorem openStream_of_stream {stream : InboundStream} (hs : g.streams.get? t = some stream) : g.openStream t = g := by
  rw [openStream, if_pos (Table.contains_iff.mpr ⟨stream, hs⟩)]

theorem exists_openStream (g : Gateway) (t : LinkId) : ∃ stream, (g.openStream t).streams.get? t = some stream := by
  unfold openStream
  split
  · exact Table.contains_iff.mp ‹_›
  · exact ⟨_, by rw [Table.get?_insert, if_pos rfl]⟩

/-- A stream that enters a phase does not wait for its header, unless that is what it enters. -/
theorem not_unheaded_enterPhase {phase : Phase} (entered : phase ≠ .awaitingHeader)
    (hs : ∃ stream, g.streams.get? t = some stream) : ¬ (g.enterPhase t phase).Unheaded t := by
  obtain ⟨stream, hs⟩ := hs
  intro unheaded
  apply entered
  apply unheaded { stream with phase, since := g.now }
  rw [enterPhase, Table.get?_modify, if_pos rfl, hs]
  rfl

theorem refuseHeader_eq (g : Gateway) (t : LinkId) (reply : Stream.Header) (reason : Refusal) :
    g.refuseHeader t reply reason =
      g.act (·.emitAll [.send t (.header reply), .send t (.error reason.error), .close t]) := by
  simp [refuseHeader, act, World.fail, World.close, World.send, World.emit, World.emitAll]

theorem admitLegacy_takesUp (hs : ∃ stream, g.streams.get? t = some stream) :
    g.TakesUp t (g.admitLegacy t reply name) := by
  have made : (g.admitLegacy t reply name).world.since g.world =
      [.send t (.header { reply with id := some g.world.draw.2 })] := List.drop_left
  refine ⟨rfl, ⟨_, rfl, made ▸ List.mem_singleton_self _⟩, ?_, ?_⟩
  · rw [made]
    simp
  · exact not_unheaded_enterPhase (by simp) hs

/-- What is written on a stream that is accepted: a header with its challenge, and the features if it has a version. -/
def opening (t : LinkId) (reply : Stream.Header) (version : Nat) (offer : Offer) (challenge : String) : List Effect :=
  .send t (.header { reply with id := some challenge }) ::
    if 1 ≤ version then [.send t (.element (Protocol.features offer.startTls offer.sasl))] else []

theorem welcome_eq (w : World) (challenge : String) :
    welcome w t reply version offer challenge = w.emitAll (opening t reply version offer challenge) := by
  unfold welcome opening
  dsimp only
  split <;> simp [World.emitAll, World.sendElement, World.send, World.emit]

theorem authorize_world (g : Gateway) (k : Claim) (t : LinkId) :
    ∃ records : List Account, (g.authorize k t).world = g.world.emitAll (records.map .account) := by
  obtain ⟨c, -, eq⟩ := g.authorize_eq k t
  refine ⟨(g.admissions.entryOf k).map (admissionRecord g.now), ?_⟩
  rw [eq, List.map_map]
  rfl

/-- On a stream that was authenticated before, an admission may be replaced, of which the record is written. -/
theorem challenge_world (g : Gateway) (t : LinkId) (host : String) (peer : Option String) (version : Nat) :
    ∃ records : List Account,
      (g.challenge t host peer version).world = g.world.draw.1.emitAll (records.map .account) := by
  unfold challenge
  dsimp only
  split
  · exact authorize_world { g with world := g.world.draw.1, challenges := _ } _ t
  · exact ⟨[], by simp⟩

/-- What an accepted header makes of the surroundings. -/
theorem acceptStream_world (g : Gateway) (t : LinkId) (reply : Stream.Header) (host : String) (peer : Option String)
    (version : Nat) (offer : Offer) : ∃ records : List Account,
      (g.acceptStream t reply host peer version offer).world =
        g.world.draw.1.emitAll (records.map .account ++ opening t reply version offer g.world.draw.2) := by
  obtain ⟨records, world⟩ := g.challenge_world t host peer version
  refine ⟨records, ?_⟩
  rw [acceptStream_eq]
  change welcome (g.challenge t host peer version).world t reply version offer g.world.draw.2 = _
  rw [welcome_eq, world, World.emitAll_emitAll]

theorem acceptStream_takesUp (hs : ∃ stream, g.streams.get? t = some stream) :
    g.TakesUp t (g.acceptStream t reply host peer version offer) := by
  obtain ⟨records, world⟩ := g.acceptStream_world t reply host peer version offer
  have calls : (g.acceptStream t reply host peer version offer).world.since g.world =
      records.map .account ++ opening t reply version offer g.world.draw.2 := by
    rw [world]
    exact List.drop_left
  constructor
  · rw [world]
    rfl
  · refine ⟨{ reply with id := some g.world.draw.2 }, rfl, ?_⟩
    rw [calls]
    exact List.mem_append_right _ (.head _)
  · rw [calls, opening]
    split <;> simp
  · rw [acceptStream_eq]
    apply not_unheaded_enterPhase (by simp)
    obtain ⟨stream, hs⟩ := hs
    exact ⟨stream, (congrArg (Table.get? · t) (g.challenge_streams t host peer version)).trans hs⟩

/-- A header that is let in begins a stream. -/
theorem LetsIn.takesUp (h : g.LetsIn t header) : g.TakesUp t (g.step (.inbound t (.header header))) := by
  have opened := g.exists_openStream t
  have same (g') (begins : (g.openStream t).TakesUp t g') : g.TakesUp t g' := by
    obtain ⟨drawn, answered, stays, waits⟩ := begins
    rw [openStream_world] at drawn answered stays
    exact ⟨drawn, answered, stays, waits⟩
  apply same
  rw [step_header]
  cases greeted : g.greeting t header with
  | refused reply reason => exact absurd h (Setup.refuses_iff.mp ⟨reply, reason, greeted⟩)
  | legacy reply name => exact admitLegacy_takesUp opened
  | accepted reply host peer version offer => exact acceptStream_takesUp opened

/-- Of a header that is not let in nothing remains but the answer. -/
theorem step_of_not_letsIn (h : ¬ g.LetsIn t header) : ∃ (reply : Stream.Header) (reason : Refusal),
    reply.id = none ∧ g.step (.inbound t (.header header)) = { g.openStream t with
      world := g.world.emitAll [.send t (.header reply), .send t (.error reason.error), .close t] } := by
  obtain ⟨reply, reason, refused⟩ := Setup.refuses_iff.mpr h
  have greeted : g.greeting t header = .refused reply reason := refused
  refine ⟨reply, reason, ?_, ?_⟩
  · have id := g.setup.id_reply_greet (g.world.link t) (g.identityOn t).isSome header
    rw [refused] at id
    exact id
  · rw [step_header, greeted, ← openStream_world g t]
    exact refuseHeader_eq ..

/-- A header on a stream that waits for one begins the stream exactly if it is let in, and bears a challenge in its
answer. If not, it is answered with a header, an error and the end of the link, and nothing else comes of it. -/
theorem header_all_or_nothing (unheaded : g.Unheaded t) (header : Stream.Header) :
    let g' := g.step (.inbound t (.header header))
    (¬ g'.Unheaded t ↔ g.LetsIn t header) ∧
    (g.LetsIn t header → g.TakesUp t g') ∧
    (¬ g.LetsIn t header →
      ∃ (reply : Stream.Header) (reason : Refusal), reply.id = none ∧ g' = { g.openStream t with
        world := g.world.emitAll [.send t (.header reply), .send t (.error reason.error), .close t] }) ∧
    (∀ stream, g.streams.get? t = some stream → g.openStream t = g) := by
  intro g'
  refine ⟨?_, LetsIn.takesUp, step_of_not_letsIn, fun _ => openStream_of_stream⟩
  constructor
  · intro begun
    by_contra out
    obtain ⟨reply, reason, -, left⟩ := step_of_not_letsIn out
    apply begun
    intro stream hs
    obtain ⟨awaiting, ha, phase⟩ := openStream_awaits unheaded
    have after : (g.openStream t).streams.get? t = some stream := by
      rw [show g' = _ from left] at hs
      exact hs
    rw [ha] at after
    exact Option.some.inj after ▸ phase
  · exact fun h => h.takesUp.waits

/-- A header that declares dialback begins a stream; without a recipient it does not, and nothing is drawn for it. -/
theorem recipient_needed :
    let header := sampleHeader "b.example"
    let stray := { header with recipient := none }
    sample.Unheaded 1 ∧
      ¬ (sample.step (.inbound 1 (.header header))).Unheaded 1 ∧
      (sample.step (.inbound 1 (.header stray))).Unheaded 1 ∧
      (sample.step (.inbound 1 (.header stray))).world.drawn = 0 := by
  intro header stray
  have unheaded : sample.Unheaded 1 := by
    intro stream hs
    cases hs
  have host : Jid.domain? "a.example" = some "a.example" := by decide +kernel
  have name : Jid.domain? "b.example" = some "b.example" := by decide +kernel
  have letsIn : sample.LetsIn 1 header := by
    refine ⟨"a.example", ⟨?_, rfl, ?_, ?_, "a.example", rfl, host⟩, .inr ⟨?_, .dialback ⟨_, rfl⟩, ?_⟩⟩
    · rintro _ ⟨⟩
      exact ⟨_, name⟩
    · rintro _ ⟨⟩
      rfl
    · decide +kernel
    · rintro ⟨-, undeclared⟩
      cases undeclared
    · rintro ⟨⟩
  have out : ¬ sample.LetsIn 1 stray := by
    rintro ⟨_, ⟨-, -, -, -, text, named, -⟩, -⟩
    cases named
  have begun := (header_all_or_nothing unheaded header).1.mpr letsIn
  obtain ⟨stays, -, nothing, -⟩ := header_all_or_nothing unheaded stray
  refine ⟨unheaded, begun, not_not.mp (mt stays.mp out), ?_⟩
  obtain ⟨reply, reason, -, left⟩ := nothing out
  rw [left]
  rfl

end Gateway

end Interdomain
