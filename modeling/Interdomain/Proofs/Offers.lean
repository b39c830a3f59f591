import Interdomain.Proofs.Encryption
import Interdomain.Proofs.Reception

/-! What the features of a stream offer, and what a request is given. The offer is made when a header is accepted, and
the request is looked at when it comes; what both depend on stays as it was between them, if the facts about the link
do. A request for TLS is then granted where TLS was offered. A request for SASL is looked at on its own, and may be
granted where it was not. -/
namespace Interdomain

/-- An element is written on the link of which the reading is true. -/
def Effect.shows (t : LinkId) (reads : Xml.Element → Bool) : Effect → Bool
  | .send u (.element e) => u = t && reads e
  | _ => false

theorem Protocol.offersStartTls_features (tls sasl : Bool) : offersStartTls (features tls sasl) = tls := by
  cases tls <;> cases sasl <;> decide

theorem Protocol.offersExternal_features (tls sasl : Bool) : offersExternal (features tls sasl) = sasl := by
  cases tls <;> cases sasl <;> decide +kernel

/-- What an accepted stream is offered. -/
theorem Setup.offer_of_greet {s : Setup} {link : Link} {authenticated : Bool} {header reply : Stream.Header}
    {host : String} {peer : Option String} {version : Nat} {offer : Offer}
    (hg : s.greet link authenticated header = .accepted reply host peer version offer) :
    offer = Setup.offer (s.termsFor peer) link authenticated host peer version := by
  obtain ⟨understood, hv, -, -⟩ := understands_of_greet hg
  rw [greet_of_understands understood, greetAt] at hg
  repeat' split at hg
  all_goals cases hg
  rfl

namespace Moment

variable {m : Moment} {t : LinkId} {s : Session}

/-- Features that offer TLS are written on the link. -/
def OffersTls (m : Moment) (t : LinkId) : Prop := m.calls.any (Effect.shows t Protocol.offersStartTls) = true

/-- Features that offer the mechanism EXTERNAL are written on the link. -/
def OffersExternal (m : Moment) (t : LinkId) : Prop := m.calls.any (Effect.shows t Protocol.offersExternal) = true

/-- The peer on the link is told that it has proved its domain. -/
def Succeeded (m : Moment) (t : LinkId) : Prop :=
  m.calls.any (Effect.shows t (·.is "success" Xml.Namespace.sasl)) = true

/-- The stream on the link waits for a header from now on. -/
def StartsOver (m : Moment) (t : LinkId) : Prop :=
  ∃ stream, m.next.streams.get? t = some stream ∧ stream.phase = .awaitingHeader

end Moment

namespace Gateway

variable {g : Gateway} {t : LinkId} {s : Session} {e : Xml.Element}

/-- The stream is one on which SASL is offered where the terms permit it: nobody has been authenticated on it, it has a
version, its link is protected, and the certificate fits the peer that its header named. -/
structure FitsSasl (g : Gateway) (t : LinkId) (s : Session) : Prop where
  fresh : g.identityOn t = none
  versioned : 1 ≤ s.version
  protection : 0 < (g.world.link t).level
  certified : ∃ domain, s.peer = some domain ∧ (g.world.link t).certifies domain = true

/-- What is read off the features of a stream that begins. -/
theorem shows_opening (t : LinkId) (reply : Stream.Header) (version : Nat) (offer : Offer) (challenge : String)
    (reads : Xml.Element → Bool) : (opening t reply version offer challenge).any (Effect.shows t reads) =
      (decide (1 ≤ version) && reads (Protocol.features offer.startTls offer.sasl)) := by
  unfold opening
  split <;> simp_all [Effect.shows]

/-- What is written on the link when a session begins there. -/
theorem any_shows_begins {m : Moment} (began : m.BeginsSession t s) (reads : Xml.Element → Bool) :
    let offer := Setup.offer (m.gateway.setup.termsFor s.peer) (m.gateway.world.link t) (m.gateway.identityOn t).isSome
      s.host s.peer s.version
    m.calls.any (Effect.shows t reads) =
      (decide (1 ≤ s.version) && reads (Protocol.features offer.startTls offer.sasl)) := by
  intro offer
  obtain ⟨header, reply, offered, operation, greets⟩ := began
  obtain ⟨f, op⟩ := m
  cases operation
  have same : offered = offer := Setup.offer_of_greet greets
  obtain ⟨records, world⟩ := (f.openStream t).acceptStream_world t reply s.host s.peer s.version offered
  have calls : (⟨f, .inbound t (.header header)⟩ : Moment).calls =
      records.map .account ++ opening t reply s.version offered (f.openStream t).world.draw.2 := by
    rw [Moment.calls, Moment.next, step_header, greets]
    dsimp only
    rw [world, ← openStream_world f t]
    exact List.drop_left
  have silent : (records.map Effect.account).any (Effect.shows t reads) = false := by
    simp [Effect.shows]
  rw [calls, List.any_append, silent, Bool.false_or, shows_opening, same]

theorem offersTls_iff {m : Moment} (began : m.BeginsSession t s) : m.OffersTls t ↔
    m.gateway.identityOn t = none ∧ 1 ≤ s.version ∧
      (m.gateway.setup.termsFor s.peer).tls.allowsStartTls = true ∧
      (m.gateway.world.link t).offersTls s.host = true := by
  rw [Moment.OffersTls, any_shows_begins began, Protocol.offersStartTls_features, Bool.and_eq_true,
    Setup.offer_startTls_iff, decide_eq_true_eq, Option.isSome_eq_false_iff, Option.isNone_iff_eq_none]
  constructor
  · exact And.right
  · exact fun h => ⟨h.2.1, h⟩

theorem offersExternal_iff {m : Moment} (began : m.BeginsSession t s) : m.OffersExternal t ↔
    m.gateway.FitsSasl t s ∧ (m.gateway.setup.termsFor s.peer).auth.permits .sasl = true := by
  rw [Moment.OffersExternal, any_shows_begins began, Protocol.offersExternal_features, Bool.and_eq_true,
    Setup.offer_sasl_iff, decide_eq_true_eq, Option.isSome_eq_false_iff, Option.isNone_iff_eq_none]
  constructor
  · rintro ⟨-, fresh, versioned, protection, certified, permitted⟩
    exact ⟨⟨fresh, versioned, protection, certified⟩, permitted⟩
  · rintro ⟨⟨fresh, versioned, protection, certified⟩, permitted⟩
    exact ⟨versioned, fresh, versioned, protection, certified, permitted⟩

/-- Where there is a session, nothing has changed the identity. -/
theorem identityOn_step (ho : g.Orderly) {op : Operation} (hs : (g.step op).sessionOn t = some s) :
    (g.step op).identityOn t = g.identityOn t := by
  obtain ⟨stream, found, phase⟩ := sessionOn_eq_some hs
  have kept {g' : Gateway} (same : g'.streams.get? t = g.streams.get? t) : g'.identityOn t = g.identityOn t := by
    rw [identityOn, identityOn, same]
  by_cases hop : ∃ event, op = .inbound t event
  · obtain ⟨event, rfl⟩ := hop
    change (g.onInbound t event).sessionOn t = some s at hs
    change (g.onInbound t event).streams.get? t = some stream at found
    change (g.onInbound t event).identityOn t = _
    have step := g.onInbound_streams t event
    generalize g.onInbound t event = g' at hs found step
    cases step with
    | stays stays _ => exact kept (congrArg (Table.get? · t) stays.streams)
    | opens => exact g.openStream_identityOn t t
    | refuses stays =>
      rw [identityOn, stays.streams]
      exact g.openStream_identityOn t t
    | admits =>
      rw [admitLegacy, sessionOn_enterPhase, if_pos rfl] at hs
      obtain ⟨_, _, hs⟩ := Option.bind_eq_some_iff.mp hs
      cases hs
    | accepts =>
      rw [(acceptStream_accepted ..).identity]
      exact g.openStream_identityOn t t
    | carries before _ => simp [identityOn, emit, act, Table.get?_modify, before]
    | restarts _ _ here =>
      obtain ⟨after, ha, waits⟩ := here
      rw [found] at ha
      cases ha
      rw [phase] at waits
      cases waits
    | closes =>
      rw [onClosed_streams, if_pos rfl] at found
      cases found
  · apply kept
    rw [found, stream_of_step ho (fun event h => hop ⟨event, h⟩) found]

/-- Where no header is admitted, a session was there before, and nothing has changed the identity. -/
theorem identityOn_run (ho : g.Orderly) {ops : List Operation} (quiet : ∀ m ∈ g.history ops, ¬ m.AdmitsHeader t)
    (hs : (g.run ops).sessionOn t = some s) :
    g.sessionOn t = some s ∧ (g.run ops).identityOn t = g.identityOn t := by
  induction ops generalizing g with
  | nil => exact ⟨hs, rfl⟩
  | cons op ops ih =>
    obtain ⟨session, identity⟩ := ih (step_total ho op).1 (fun m hm => quiet m (.tail _ hm)) hs
    exact ⟨session_of_step ho (quiet _ (.head _)) session, identity.trans (identityOn_step ho session)⟩

/-- A session began with the last header that was admitted on its link, and the identity is the one of then. -/
theorem run_rooted (setup : Setup) (world : World) (ops : List Operation)
    (hs : ((initial setup world).run ops).sessionOn t = some s) :
    ∃ i, Happens ((initial setup world).history ops) i (fun m => m.BeginsSession t s ∧
        m.gateway.identityOn t = ((initial setup world).run ops).identityOn t) ∧
      ∀ j, i < j → ¬ Happens ((initial setup world).history ops) j (·.AdmitsHeader t) := by
  obtain ⟨i, ⟨m, hm, began⟩, last⟩ := (run_headed setup world ops).session t s hs
  refine ⟨i, ⟨m, hm, began, ?_⟩, last⟩
  rw [getElem?_history] at hm
  obtain ⟨op, hop, rfl⟩ := Option.map_eq_some_iff.mp hm
  have orderly := run_orderly setup world (ops.take i)
  have next : (initial setup world).run (ops.take (i + 1)) = ((initial setup world).run (ops.take i)).step op := by
    rw [List.take_add_one, hop, run, List.foldl_append]
    rfl
  have quiet : ∀ m ∈ ((initial setup world).run (ops.take (i + 1))).history (ops.drop (i + 1)),
      ¬ m.AdmitsHeader t := by
    intro m later admits
    rw [← history_drop] at later
    obtain ⟨j, hj⟩ := List.getElem?_of_mem later
    rw [List.getElem?_drop] at hj
    exact last (i + 1 + j) (by omega) ⟨m, hj, admits⟩
  rw [run_split _ ops (i + 1), next] at hs ⊢
  rw [next] at quiet
  obtain ⟨session, identity⟩ := identityOn_run (step_total orderly op).1 quiet hs
  rw [identity, identityOn_step orderly session]

/-- An element with the name in the namespace has no other one. -/
theorem not_is_of_is {name ns name' ns' : String} (he : e.is name ns = true) (hne : name' ≠ name) :
    e.is name' ns' = false := by
  simp only [Xml.Element.is, Bool.and_eq_true, decide_eq_true_eq] at he
  simp [Xml.Element.is, he.1, Ne.symm hne]

theorem step_element (hs : g.sessionOn t = some s) : g.step (.inbound t (.element e)) = g.onStreaming t s e :=
  g.onInbound_element hs e

/-- TLS is started for a peer that asks for it, where its terms and the link allow that and it is not authenticated; the
stream begins anew then, and if TLS cannot be started it ends. -/
theorem grants_tls (hs : g.sessionOn t = some s) (he : e.is "starttls" Xml.Namespace.tls = true)
    (unproved : g.identityOn t = none) (allowed : (g.termsOf s).tls.allowsStartTls = true)
    (able : (g.world.link t).offersTls s.host = true) :
    let m : Moment := ⟨g, .inbound t (.element e)⟩
    let started := (g.world.link t).tlsStarts
    (∃ proceed, proceed.is "proceed" Xml.Namespace.tls = true ∧
      m.calls = [.send t (.element proceed), .startTls t .server s.host started,
        if started then .reset t else .close t]) ∧
    (started = true → m.StartsOver t) := by
  intro m started
  obtain ⟨stream, found, -⟩ := sessionOn_eq_some hs
  have step : m.next = if started then ((g.act fun w =>
        (w.sendElement t Protocol.tlsProceed).startTls t .server s.host).restart t s)
      else (g.act fun w => (w.sendElement t Protocol.tlsProceed).startTls t .server s.host).act (·.close t) := by
    rw [Moment.next, step_element hs, onStreaming, not_is_of_is he (by decide), he, onStartTls]
    simp [unproved, allowed, able, started]
  constructor
  · refine ⟨Protocol.tlsProceed, rfl, m.calls_eq ?_⟩
    rw [step]
    split <;> simp [m, started, restart, enterPhase, dropChallenge, act, World.startTls, World.reset, World.close,
      World.sendElement, World.send, World.emit, World.link]
  · intro starts
    refine ⟨{ stream with phase := .awaitingHeader, since := g.now }, ?_, rfl⟩
    rw [step, if_pos starts, restart, enterPhase, Table.get?_modify, if_pos rfl]
    exact congrArg (Option.map _) found

/-- What a request for SASL is to prove. -/
theorem provenIdentity_iff (he : e.is "auth" Xml.Namespace.sasl = true) :
    (∃ domain, g.provenIdentity t s e = .ok domain) ↔ (g.termsOf s).auth.permits .sasl = true ∧
      ∃ domain, (⟨g, .inbound t (.element e)⟩ : Moment).ProvesIdentity t domain := by
  constructor
  · rintro ⟨domain, proof⟩
    refine ⟨?_, domain, provesIdentity_of_proof he proof⟩
    by_contra forbidden
    rw [provenIdentity, if_pos (by simp [forbidden])] at proof
    cases proof
  · rintro ⟨permitted, domain, _, ⟨⟩, -, mechanism, identity, certified, check⟩
    refine ⟨domain, ?_⟩
    simp [provenIdentity, permitted, mechanism, identity, certified, check]

/-- A peer that asks for SASL is told that it has proved its domain exactly if the terms for the peer that its header
named permit SASL and it has proved one. -/
theorem succeeded_iff (hs : g.sessionOn t = some s) (he : e.is "auth" Xml.Namespace.sasl = true) :
    let m : Moment := ⟨g, .inbound t (.element e)⟩
    m.Succeeded t ↔ (g.termsOf s).auth.permits .sasl = true ∧ ∃ domain, m.ProvesIdentity t domain := by
  intro m
  have step : m.next = g.onSaslAuth t s e := by
    rw [Moment.next, step_element hs, onStreaming, not_is_of_is he (by decide), not_is_of_is he (by decide), he]
    simp only [Bool.false_eq_true, if_false, if_true]
  rw [← provenIdentity_iff he]
  cases proof : g.provenIdentity t s e with
  | ok domain =>
    have calls : m.calls = [.send t (.element Protocol.saslSuccess), .reset t] := by
      apply m.calls_eq
      rw [step]
      unfold onSaslAuth
      rw [proof]
      simp [m, restart, enterPhase, dropChallenge, act, World.reset, World.sendElement, World.send, World.emit]
    constructor
    · exact fun _ => ⟨domain, rfl⟩
    · intro
      rw [Moment.Succeeded, calls]
      simp [Effect.shows, Protocol.saslSuccess, Protocol.bare, Xml.Element.is]
  | error refusal =>
    have calls : ∃ frame, (∀ element, frame ≠ .element element) ∧ m.calls =
        [.send t (.element (Protocol.saslFailure refusal.reason)), .send t frame, .close t] := by
      cases error : refusal.error? with
      | some error' =>
        refine ⟨.error error', by simp, m.calls_eq ?_⟩
        rw [step]
        unfold onSaslAuth
        rw [proof]
        simp [m, error, act, World.fail, World.close, World.sendElement, World.send, World.emit]
      | none =>
        refine ⟨.close, by simp, m.calls_eq ?_⟩
        rw [step]
        unfold onSaslAuth
        rw [proof]
        simp [m, error, act, World.finish, World.close, World.sendElement, World.send, World.emit]
    constructor
    · intro succeeded
      obtain ⟨frame, other, calls⟩ := calls
      have silent : Effect.shows t (·.is "success" Xml.Namespace.sasl) (.send t frame) = false := by
        cases frame with
        | element element => exact absurd rfl (other element)
        | _ => rfl
      rw [Moment.Succeeded, calls, List.any_cons, List.any_cons, silent] at succeeded
      simp [Effect.shows, Protocol.saslFailure, Protocol.bare, Xml.Element.is] at succeeded
    · rintro ⟨_, ⟨⟩⟩

/-- Only on a stream that goes on is a request for SASL looked at. -/
theorem session_of_succeeded (succeeded : (⟨g, .inbound t (.element e)⟩ : Moment).Succeeded t) :
    ∃ s, g.sessionOn t = some s := by
  by_contra none
  apply none
  change ((g.onElement t e).world.since g.world).any _ = true at succeeded
  unfold onElement at succeeded
  split at succeeded
  · simp [World.since] at succeeded
  · rename_i stream found
    split at succeeded
    · simp [act, World.fail, World.close, World.send, World.emit, World.since, Effect.shows] at succeeded
    · exact ⟨_, sessionOn_of_streaming found ‹_›⟩
    · simp [emit, act, World.emit, World.since, Effect.shows] at succeeded

/-- If the facts about its link are still the same, a request for TLS is granted if the features of the stream offered
it. One for SASL succeeds if the terms permit it and a domain is proved, whatever was offered. -/
theorem offers_honoured (setup : Setup) (world : World) (ops : List Operation) (t : LinkId) :
    let g := (initial setup world).run ops
    let moments := (initial setup world).history ops
    (∀ e, (⟨g, .inbound t (.element e)⟩ : Moment).Succeeded t → ∃ s, g.sessionOn t = some s) ∧
    ∀ s, g.sessionOn t = some s → ∃ i m, moments[i]? = some m ∧ m.BeginsSession t s ∧
      (∀ j, i < j → ¬ Happens moments j (·.AdmitsHeader t)) ∧
      (m.gateway.world.link t = g.world.link t → ∀ e,
        let asked : Moment := ⟨g, .inbound t (.element e)⟩
        let started := (g.world.link t).tlsStarts
        (m.OffersTls t → e.is "starttls" Xml.Namespace.tls = true →
          (∃ proceed, proceed.is "proceed" Xml.Namespace.tls = true ∧
            asked.calls = [.send t (.element proceed), .startTls t .server s.host started,
              if started then .reset t else .close t]) ∧ (started = true → asked.StartsOver t)) ∧
        (e.is "auth" Xml.Namespace.sasl = true →
          (asked.Succeeded t ↔ (setup.termsFor s.peer).auth.permits .sasl = true ∧
            ∃ domain, asked.ProvesIdentity t domain) ∧
          (asked.Succeeded t → (m.OffersExternal t ↔ g.FitsSasl t s)))) := by
  intro g moments
  refine ⟨fun e => session_of_succeeded, ?_⟩
  intro s session
  have same : g.setup = setup := run_setup setup world ops
  obtain ⟨i, ⟨m, hm, began, identity⟩, last⟩ := run_rooted setup world ops session
  have before : m.gateway.setup = setup :=
    history_invariant (P := fun g => g.setup = setup) (run_setup setup world) (List.mem_of_getElem? hm)
  have terms : g.termsOf s = setup.termsFor s.peer := by rw [termsOf, same, Setup.termsFor]
  refine ⟨i, m, hm, began, last, ?_⟩
  intro facts e asked started
  constructor
  · intro offered he
    obtain ⟨fresh, -, allowed, able⟩ := (offersTls_iff began).mp offered
    rw [identity] at fresh
    rw [before, ← terms] at allowed
    rw [facts] at able
    exact grants_tls session he fresh allowed able
  · intro he
    have success := succeeded_iff session he
    rw [terms] at success
    refine ⟨success, ?_⟩
    intro succeeded
    have permitted := (success.mp succeeded).1
    have fits : m.gateway.FitsSasl t s ↔ g.FitsSasl t s := by
      constructor
      · rintro ⟨fresh, versioned, protection, certified⟩
        exact ⟨identity ▸ fresh, versioned, facts ▸ protection, facts ▸ certified⟩
      · rintro ⟨fresh, versioned, protection, certified⟩
        exact ⟨identity ▸ fresh, versioned, facts ▸ protection, facts ▸ certified⟩
    rw [offersExternal_iff began, before, fits, and_iff_left permitted]

/-- On a link that is protected but not encrypted, both TLS and SASL are offered at the first header. -/
def offeredBoth : List Operation :=
  [.learn 1 { level := 1, encryptedFrom := 2, certified := ["b.example"] },
    .inbound 1 (.header (sampleHeader "b.example"))]

theorem offered_tls_granted :
    let m : Moment := ⟨sample.run (offeredBoth.take 1), .inbound 1 (.header (sampleHeader "b.example"))⟩
    let asked : Moment := ⟨sample.run offeredBoth, .inbound 1 (.element Protocol.startTls)⟩
    m.OffersTls 1 ∧ m.OffersExternal 1 ∧
      (∃ proceed, proceed.is "proceed" Xml.Namespace.tls = true ∧
        asked.calls = [.send 1 (.element proceed), .startTls 1 .server "a.example" true, .reset 1]) ∧
      asked.StartsOver 1 := by
  intro m asked
  obtain ⟨-, honoured⟩ := offers_honoured sample.setup sample.world offeredBoth 1
  have session : (sample.run offeredBoth).sessionOn 1 = some ⟨"c", "a.example", some "b.example", 1⟩ := by
    decide +kernel
  obtain ⟨i, n, hn, ⟨header, reply, offer, brings, -⟩, -, granted⟩ := honoured _ session
  obtain rfl : n = m := by
    obtain _ | _ | i := i
    · cases hn
      cases brings
    · exact (Option.some.inj hn).symm
    · cases hn
  have facts : m.gateway.world.link 1 = (sample.run offeredBoth).world.link 1 := by decide +kernel
  have tls : m.OffersTls 1 := by
    unfold Moment.OffersTls
    decide +kernel
  have external : m.OffersExternal 1 := by
    unfold Moment.OffersExternal
    decide +kernel
  obtain ⟨calls, startsOver⟩ := (granted facts Protocol.startTls).1 tls (by decide)
  exact ⟨tls, external, calls, startsOver (by decide)⟩

/-- A peer proves its domain on a protected link, and begins the stream anew. -/
def proved : List Operation :=
  [.learn 1 { level := 256, certified := ["b.example"] },
    .inbound 1 (.header (sampleHeader "b.example")),
    .inbound 1 (.element (Protocol.saslAuth "b.example"))]

/-- Nothing is offered on the new stream, but the peer proves its domain once more. -/
theorem unoffered_sasl_succeeds :
    let m : Moment := ⟨sample.run proved, .inbound 1 (.header (sampleHeader "b.example"))⟩
    let asked : Moment := ⟨m.next, .inbound 1 (.element (Protocol.saslAuth "b.example"))⟩
    m.BeginsSession 1 ⟨"cc", "a.example", some "b.example", 1⟩ ∧
      m.gateway.world.link 1 = asked.gateway.world.link 1 ∧
      ¬ m.OffersExternal 1 ∧ asked.Succeeded 1 := by
  intro m asked
  have greets : m.gateway.greeting 1 (sampleHeader "b.example") = .accepted
      { recipient := some "b.example", sender := some "a.example", version := some "1.0",
        dialback := some Xml.Namespace.dialback }
      "a.example" (some "b.example") 1 ⟨false, false⟩ := by
    decide +kernel
  refine ⟨⟨_, _, _, rfl, greets⟩, by decide +kernel, ?_, ?_⟩
  · unfold Moment.OffersExternal
    decide +kernel
  · unfold Moment.Succeeded
    decide +kernel

end Gateway

end Interdomain
