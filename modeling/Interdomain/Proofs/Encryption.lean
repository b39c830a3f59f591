import Interdomain.Proofs.Protection

/-! When TLS is started. A negotiation asks for it where the terms for its peer and the link allow that, and starts it
when the peer tells it to proceed, asked or not; a stream of a peer has it started at the peer's request, where the
terms for the peer that its header named and the link allow that and nobody has been authenticated. -/
namespace Interdomain

namespace Moment

variable {m : Moment} {t : LinkId} {r : Route} {domain : String} {role : TlsRole}

/-- A header is written on the link. -/
def WritesHeader (m : Moment) (t : LinkId) : Prop := ∃ header, .send t (.header header) ∈ m.calls

/-- TLS is asked for on the link. -/
def AsksTls (m : Moment) (t : LinkId) : Prop := .send t (.element Protocol.startTls) ∈ m.calls

/-- TLS is started on the link for a local domain. -/
def StartsTls (m : Moment) (t : LinkId) (role : TlsRole) (domain : String) : Prop :=
  ∃ started, .startTls t role domain started ∈ m.calls

/-- The negotiation of a route hears on its link that it may proceed with TLS. -/
def HearsProceed (m : Moment) (r : Route) (t : LinkId) : Prop :=
  ∃ u e n, m.operation = .outbound u (.element e) ∧ m.gateway.attempts.get? u = some r ∧
    m.gateway.negotiations.get? r = some n ∧ n.link = t ∧ e.is "proceed" Xml.Namespace.tls = true

/-- A header is accepted on the link, and begins the session. -/
def BeginsSession (m : Moment) (t : LinkId) (s : Session) : Prop :=
  ∃ header reply offer, m.operation = .inbound t (.header header) ∧
    m.gateway.greeting t header = .accepted reply s.host s.peer s.version offer

end Moment

/-- TLS was asked for on the link, and no header has been written there since. -/
def Wanted (h : List Moment) (t : LinkId) : Prop :=
  ∃ i, Happens h i (·.AsksTls t) ∧ ∀ j, i < j → ¬ Happens h j (·.WritesHeader t)

theorem Protocol.features_ne_startTls (tls sasl : Bool) : Protocol.features tls sasl ≠ Protocol.startTls := by
  cases tls <;> cases sasl <;> decide

/-- A header that begins a session is admitted. -/
theorem Moment.BeginsSession.admits {m : Moment} {t : LinkId} {s : Session} (h : m.BeginsSession t s) :
    m.AdmitsHeader t := by
  obtain ⟨header, reply, offer, operation, greets⟩ := h
  refine .inl ⟨_, s.host, header, reply, s.peer, s.version, offer, operation, ?_, ?_, rfl⟩
  · rw [Gateway.openStream_identityOn]
    exact greets
  · exact (Gateway.understands_of_greeting greets).1.recipient

namespace Gateway

variable {g g' : Gateway} {t : LinkId} {r r' : Route} {s : Session} {h : List Moment} {domain : String}

/-- After a header that was admitted on its link, a session is one that the header began. -/
theorem beginsSession_of_admitsHeader {op : Operation} (admits : (⟨g, op⟩ : Moment).AdmitsHeader t)
    (hs : (g.step op).sessionOn t = some s) : (⟨g, op⟩ : Moment).BeginsSession t s := by
  obtain ⟨header, rfl, admitted⟩ : ∃ header, op = .inbound t (.header header) ∧
      ∀ reply reason, g.greeting t header ≠ .refused reply reason := by
    rcases admits with ⟨_, _, header, _, _, _, _, operation, greets, _⟩ | ⟨header, _, _, operation, greets⟩
    all_goals
      rw [openStream_identityOn] at greets
      exact ⟨header, operation, fun reply reason => by simp [greeting, greets]⟩
  rw [step_header] at hs
  cases hg : g.greeting t header with
  | refused reply reason => exact absurd hg (admitted reply reason)
  | legacy reply peer =>
    rw [hg] at hs
    simp only [admitLegacy, sessionOn_enterPhase, if_true] at hs
    obtain ⟨_, _, hs⟩ := Option.bind_eq_some_iff.mp hs
    cases hs
  | accepted reply host peer version offer =>
    rw [hg] at hs
    simp only [acceptStream_eq, sessionOn_enterPhase, if_true] at hs
    obtain ⟨_, _, hs⟩ := Option.bind_eq_some_iff.mp hs
    cases hs
    exact ⟨header, reply, offer, rfl, hg⟩

/-- Sessions began with the last header that was admitted on their links. -/
structure Headed (h : List Moment) (g : Gateway) : Prop where
  orderly : g.Orderly
  session : ∀ t s, g.sessionOn t = some s → ∃ i, Happens h i (·.BeginsSession t s) ∧
    ∀ j, i < j → ¬ Happens h j (·.AdmitsHeader t)

theorem Headed.step (hh : Headed h g) (op : Operation) : Headed (h ++ [⟨g, op⟩]) (g.step op) := by
  refine ⟨(step_total hh.orderly op).1, fun t s hs => ?_⟩
  by_cases admits : (⟨g, op⟩ : Moment).AdmitsHeader t
  · refine ⟨h.length, Happens.last (beginsSession_of_admitsHeader admits hs), fun j hj later => ?_⟩
    have hlt := later.lt_length
    simp only [List.length_append, List.length_singleton] at hlt
    omega
  · obtain ⟨i, began, last⟩ := hh.session t s (session_of_step hh.orderly admits hs)
    refine ⟨i, began.append, fun j hj later => ?_⟩
    rcases Happens.concat_iff.mp later with later | ⟨_, now⟩
    · exact last j hj later
    · exact admits now

theorem run_headed (setup : Setup) (world : World) (ops : List Operation) :
    Headed ((initial setup world).history ops) ((initial setup world).run ops) :=
  run_induction (P := Headed) ⟨initial_orderly setup world, fun t s hs => by cases hs⟩
    (fun _ _ op hh => hh.step op) ops

/-- A negotiation asks for TLS at features that offer it, where its terms and its link allow that. -/
theorem asksTls_of_calls (setup : Setup) (world : World) (ops : List Operation) {op : Operation}
    (asks : (⟨(initial setup world).run ops, op⟩ : Moment).AsksTls t) :
    ∃ r, ((initial setup world).run ops).Negotiates r t ∧
      (setup.policy.lookup r.destination).tls.allowsStartTls = true ∧
      (((initial setup world).run ops).world.link t).offersTls r.source = true := by
  have ho := run_orderly setup world ops
  have made := run_overture setup world ops .asksTls asks
  generalize hc : Effect.send t (.element Protocol.startTls) = c at made
  cases made with
  | answers _ _ => cases hc
  | offers _ _ _ =>
    simp only [Effect.send.injEq, Frame.element.injEq] at hc
    exact absurd hc.2.symm (Protocol.features_ne_startTls _ _)
  | serves _ _ _ _ _ _ => cases hc
  | @negotiates _ r n _ _ operation _ found makes =>
    have hr := ho.route r n found
    cases makes with
    | greets => cases hc
    | asksTls _ _ _ allowed able =>
      cases hc
      rw [Negotiation.terms, run_setup, hr] at allowed
      exact ⟨r, ⟨n, found, rfl⟩, allowed, hr ▸ able⟩
    | startsTls _ => cases hc
    | secured _ _ => cases hc
    | authenticated _ => cases hc

/-- TLS is started on the side of the client when its negotiation is told to proceed, and only then. -/
theorem startsTls_client_iff (ho : g.Orderly)
    (own : ∀ r n, g.negotiations.get? r = some n → ∀ x ∈ n.stanzas, GoesTo x r) {op : Operation} :
    (⟨g, op⟩ : Moment).StartsTls t .client domain ↔
      ∃ r, (⟨g, op⟩ : Moment).HearsProceed r t ∧ r.source = domain := by
  constructor
  · rintro ⟨started, hc⟩
    cases overture_of_calls ho own .startsTls hc with
    | @negotiates u r n event _ operation attempt found makes =>
      cases makes with
      | startsTls proceed =>
        exact ⟨r, ⟨u, _, n, operation, attempt, found, rfl, proceed⟩, by rw [ho.route r n found]⟩
  · rintro ⟨r, ⟨u, e, n, operation, attempt, found, rfl, proceed⟩, rfl⟩
    cases operation
    have serves := n.onElement_serves g.setup g.world (ho.verifies r n found) e
    have step : g.step (.outbound u (.element e)) = g.follow (n.onElement g.setup g.world e) := by
      change g.onOutbound u (.element e) = _
      simp only [onOutbound, attempt, found, onAttempt]
    refine ⟨(g.world.link n.link).tlsStarts, ?_⟩
    rw [Moment.calls, Moment.next, step, ← ho.route r n found]
    exact (serves.grows.mem_since_iff (g.grows_follow _)).mpr (.inl (Negotiation.startTls_of_proceed _ _ proceed))

/-- TLS is started on the side of the server where the terms for the peer that the last header named, and the link,
allow that, and nobody has been authenticated. -/
theorem startsTls_server (setup : Setup) (world : World) (ops : List Operation) {op : Operation}
    (starts : (⟨(initial setup world).run ops, op⟩ : Moment).StartsTls t .server domain) :
    let g := (initial setup world).run ops
    g.identityOn t = none ∧ (g.world.link t).offersTls domain = true ∧
      ∃ i header peer, Happens ((initial setup world).history ops) i
          (fun m => m.operation = .inbound t (.header header) ∧ m.AdmitsHeader t) ∧
        (∀ j, i < j → ¬ Happens ((initial setup world).history ops) j (·.AdmitsHeader t)) ∧
        setup.Understands header domain peer ∧ (setup.termsFor peer).tls.allowsStartTls = true := by
  intro g
  obtain ⟨started, hc⟩ := starts
  cases run_overture setup world ops .startsTls hc with
  | @serves _ e s operation session asks unproved allowed able =>
    obtain ⟨i, ⟨m, hm, began⟩, last⟩ := (run_headed setup world ops).session t s session
    have admits := began.admits
    obtain ⟨header, reply, offer, heads, greets⟩ := began
    have same : m.gateway.setup = setup :=
      history_invariant (P := fun g => g.setup = setup) (run_setup setup world) (List.mem_of_getElem? hm)
    have understands := (understands_of_greeting greets).1
    rw [same] at understands
    rw [termsOf, run_setup] at allowed
    exact ⟨unproved, able, i, header, s.peer, ⟨m, hm, heads, admits⟩, last, understands, allowed⟩
  | @negotiates _ r n _ _ operation _ found makes => cases makes

/-- A link that is there for a route was never there for another one. -/
theorem route_of_link {setup : Setup} {world : World} (links : Function.Injective world.sources.linkId)
    {ops : List Operation} {i : Nat}
    (before : Happens ((initial setup world).history ops) i (·.gateway.Tracks r' t))
    (now : ((initial setup world).run ops).Tracks r t) : r' = r := by
  obtain ⟨m, hm, tracks⟩ := before
  rw [getElem?_history] at hm
  obtain ⟨op, _, rfl⟩ := Option.map_eq_some_iff.mp hm
  have connected := run_connected setup world links (ops.take i)
  rw [run_split _ ops i] at now
  have tracked := (tracks.spent connected.indexed).since connected (ops.drop i) now 0
  exact tracked.unique connected.indexed connected.exclusive tracks

/-- TLS is asked for, and started for a peer, only where the terms and the link allow it. For the server's own
negotiations it is started whenever the peer tells them to proceed, wanted or not. -/
theorem tls_started (setup : Setup) (world : World) (ops : List Operation) (op : Operation) (t : LinkId) :
    let m : Moment := ⟨(initial setup world).run ops, op⟩
    let moments := (initial setup world).history ops
    (m.AsksTls t → ∃ r, m.gateway.Negotiates r t ∧
      (setup.policy.lookup r.destination).tls.allowsStartTls = true ∧
      (m.gateway.world.link t).offersTls r.source = true) ∧
    (∀ domain, m.StartsTls t .server domain → m.gateway.identityOn t = none ∧
      (m.gateway.world.link t).offersTls domain = true ∧ ∃ i header peer,
        Happens moments i (fun m => m.operation = .inbound t (.header header) ∧ m.AdmitsHeader t) ∧
        (∀ j, i < j → ¬ Happens moments j (·.AdmitsHeader t)) ∧ setup.Understands header domain peer ∧
        (setup.termsFor peer).tls.allowsStartTls = true) ∧
    (∀ domain, m.StartsTls t .client domain ↔ ∃ r, m.HearsProceed r t ∧ r.source = domain) ∧
    (Function.Injective world.sources.linkId → Wanted moments t → ∀ r, m.HearsProceed r t →
      (setup.policy.lookup r.destination).tls.allowsStartTls = true) := by
  intro m moments
  obtain ⟨ho, hi⟩ := run_inOrder setup world ops
  refine ⟨asksTls_of_calls setup world ops, fun domain => startsTls_server setup world ops,
    fun domain => startsTls_client_iff ho hi.own, ?_⟩
  rintro links ⟨i, ⟨m', hm', asks⟩, _⟩ r ⟨_, _, n, _, _, found, link, _⟩
  have hm := hm'
  rw [getElem?_history] at hm
  obtain ⟨op', _, rfl⟩ := Option.map_eq_some_iff.mp hm
  obtain ⟨r', negotiates, allowed, _⟩ := asksTls_of_calls setup world (ops.take i) asks
  have same : r' = r := route_of_link links ⟨_, hm', .inl negotiates⟩ (.inl ⟨n, found, link⟩)
  exact same ▸ allowed

/-- Features that offer TLS come, and then the word to proceed. -/
def secured : List Operation :=
  [.submit (sampleMessage "bob@b.example" "alice@a.example") (some "192.0.2.1"),
    .outbound 100 .connected,
    .outbound 100 (.element (Protocol.features true false))]

theorem tls_started_when_asked :
    let r : Route := ⟨"b.example", "a.example"⟩
    let m : Moment := ⟨sample.run secured, .outbound 100 (.element Protocol.tlsProceed)⟩
    m.StartsTls 100 .client "a.example" ∧ Wanted (sample.history secured) 100 ∧
      (sample.setup.policy.lookup r.destination).tls.allowsStartTls = true := by
  intro r m
  have wanted : Wanted (sample.history secured) 100 := by
    refine ⟨2, ⟨_, rfl, by unfold Moment.AsksTls; decide +kernel⟩, fun j hj ⟨m, hm, _⟩ => ?_⟩
    have hlt := (List.getElem?_eq_some_iff.mp hm).1
    have length : (sample.history secured).length = 3 := rfl
    omega
  have hears : m.HearsProceed r 100 := by
    have attempt : m.gateway.attempts.get? 100 = some r := by decide +kernel
    obtain ⟨n, found, link⟩ : ∃ n, m.gateway.negotiations.get? r = some n ∧ n.link = 100 := by
      have h : (m.gateway.negotiations.get? r).map (·.link) = some 100 := by decide +kernel
      exact Option.map_eq_some_iff.mp h
    exact ⟨100, _, n, rfl, attempt, found, link, rfl⟩
  obtain ⟨_, _, client, allowed⟩ := tls_started sample.setup sample.world secured m.operation 100
  exact ⟨(client "a.example").mpr ⟨r, hears, rfl⟩, wanted, allowed sample_linkId_injective wanted r hears⟩

/-- The peer says that TLS may start although it was never asked for, and its terms rule TLS out. -/
theorem unwanted_tls_started :
    let start := sampleWith false "b.example" { tls := .disabled }
    let m : Moment := ⟨start.run greeted, .outbound 100 (.element Protocol.tlsProceed)⟩
    m.StartsTls 100 .client "a.example" ∧ ¬ Wanted (start.history greeted) 100 ∧
      m.HearsProceed ⟨"b.example", "a.example"⟩ 100 ∧
      (start.setup.policy.lookup "b.example").tls = .disabled := by
  intro start m
  have unasked : ∀ m ∈ start.history greeted, .send 100 (.element Protocol.startTls) ∉ m.calls := by decide +kernel
  have attempt : m.gateway.attempts.get? 100 = some ⟨"b.example", "a.example"⟩ := by decide +kernel
  obtain ⟨n, found, link⟩ : ∃ n, m.gateway.negotiations.get? ⟨"b.example", "a.example"⟩ = some n ∧ n.link = 100 := by
    have h : (m.gateway.negotiations.get? ⟨"b.example", "a.example"⟩).map (·.link) = some 100 := by decide +kernel
    exact Option.map_eq_some_iff.mp h
  refine ⟨⟨true, by decide +kernel⟩, ?_, ⟨100, _, n, rfl, attempt, found, link, rfl⟩, by decide +kernel⟩
  rintro ⟨i, ⟨m, hm, asks⟩, _⟩
  exact unasked m (List.mem_of_getElem? hm) asks

end Gateway

end Interdomain
