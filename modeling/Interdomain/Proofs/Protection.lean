import Interdomain.Proofs.Loops

/-! The protection of the streams on which peers are admitted. A peer is admitted by dialback, by SASL, or without
authentication; the first two ask for the level that the terms for the peer demand, and the third does not. What is
admitted at any time goes back to moments at which peers were admitted. -/
namespace Interdomain

/-- The link is protected as well as the terms for the domain demand. -/
def Gateway.Protects (g : Gateway) (t : LinkId) (domain : String) : Prop :=
  (g.setup.policy.lookup domain).tls.requiredLevel ≤ (g.world.link t).level

namespace Moment

variable {m : Moment} {t : LinkId} {domain name : String} {k : Claim}

/-- The peer on a link proves that it speaks for a domain, by dialback or by SASL. -/
def Authenticates (m : Moment) (t : LinkId) (domain : String) : Prop :=
  (∃ k, m.Confirms k t ∧ k.source = domain) ∨ m.ProvesIdentity t domain

/-- The stream on a link is admitted without authentication, as that of a domain. -/
def AdmitsLegacy (m : Moment) (t : LinkId) (name : String) : Prop :=
  ∃ header reply, m.operation = .inbound t (.header header) ∧ m.gateway.greeting t header = .legacy reply name

/-- The peer on a link is admitted to send stanzas as a domain. -/
def AdmitsPeer (m : Moment) (t : LinkId) (domain : String) : Prop :=
  m.Authenticates t domain ∨ m.AdmitsLegacy t domain

/-- Whoever is authenticated has the protection that the terms demand. -/
theorem Authenticates.protects (h : m.Authenticates t domain) : m.gateway.Protects t domain := by
  rcases h with ⟨k, ⟨_, _, admits⟩, rfl⟩ | ⟨_, _, _, _, _, _, check⟩
  · exact (Policy.Book.check_eq_ok_iff ..).mp admits |>.1
  · exact (Policy.Book.check_eq_ok_iff ..).mp check |>.1

/-- Whoever is admitted without authentication is so for the settings and the header alone. -/
theorem admitsLegacy_iff {header : Stream.Header} (operation : m.operation = .inbound t (.header header)) :
    m.AdmitsLegacy t name ↔ ∃ peer, m.gateway.setup.AdmitsUnproved header peer ∧ name = peer.getD "unknown" := by
  constructor
  · rintro ⟨header', reply, operation', legacy⟩
    rw [operation] at operation'
    cases operation'
    obtain ⟨peer, admits, hname, _⟩ := (Setup.greet_legacy_iff _ _).mp legacy
    exact ⟨peer, admits, hname⟩
  · rintro ⟨peer, admits, rfl⟩
    exact ⟨header, _, operation, (Setup.greet_legacy_iff _ _).mpr ⟨peer, admits, rfl, rfl⟩⟩

end Moment

namespace Gateway

variable {g g' : Gateway} {t : LinkId} {domain name : String} {k : Claim} {c : Carrier} {h : List Moment}
  {stream : InboundStream} {carrier : Carrier}

/-- Whoever was authenticated had the protection that the terms demanded then. -/
theorem authenticated_protects {i : Nat} (hp : Happens h i (·.Authenticates t domain)) :
    Happens h i fun m => m.Authenticates t domain ∧ m.gateway.Protects t domain := by
  obtain ⟨m, hm, authenticates⟩ := hp
  exact ⟨m, hm, authenticates, authenticates.protects⟩

theorem proved_protects {i : Nat} (hp : Happens h i (·.ProvesIdentity t domain)) :
    Happens h i fun m => m.ProvesIdentity t domain ∧ m.gateway.Protects t domain := by
  obtain ⟨m, hm, proves⟩ := hp
  exact ⟨m, hm, proves, Moment.Authenticates.protects (.inr proves)⟩

/-- An identity on a stream was there before, or is proved now. -/
theorem identity_of_step (ho : g.Orderly) {op : Operation} (hi : (g.step op).identityOn t = some domain) :
    g.identityOn t = some domain ∨ (⟨g, op⟩ : Moment).ProvesIdentity t domain := by
  rcases step_cases ho op with hw | ⟨e, _, hr⟩ | hb
  · exact .inl (hw.fades.identity t domain hi)
  · rcases hr.cases with hf | ⟨claim, link, g₁, _, _, _, hk, _, he⟩
    · exact .inl (hf.identity t domain hi)
    · rw [he, identityOn, grant_streams, hk.streams] at hi
      exact .inl hi
  · generalize g.step op = g' at hi hb
    cases hb with
    | asks _ fades => exact .inl (fades.identity t domain hi)
    | proves _ auth proof =>
      rcases identify_identity _ _ _ _ hi with ⟨rfl, rfl⟩ | before
      · exact .inr (provesIdentity_of_proof auth proof)
      · exact .inl before
    | accepts _ accepted =>
      rw [accepted.identity, openStream_identityOn] at hi
      exact .inl hi

/-- An admission was there before, on the same link, or its claim is confirmed there now, or its domain was proved
there before. -/
theorem admission_of_step (ho : g.Orderly) {op : Operation} (hc : (g.step op).admissions.get? k = some c) :
    (∃ c₀, g.admissions.get? k = some c₀ ∧ c₀.link = c.link) ∨ (⟨g, op⟩ : Moment).Confirms k c.link ∨
      g.identityOn c.link = some k.source := by
  rcases step_cases ho op with hw | ⟨e, hh, hr⟩ | hb
  · exact .inl (hw.fades.admission k c hc)
  · rcases hr.cases with hf | ⟨claim, link, g₁, hv, isOpen, admits, hk, _, he⟩
    · exact .inl (hf.admission k c hc)
    · rw [he, get?_grant] at hc
      split at hc
      · rename_i hclaim
        cases hc
        exact .inr (.inl ⟨⟨e, hh, hclaim ▸ hv⟩, hclaim ▸ isOpen, hclaim ▸ admits⟩)
      · exact .inl ⟨c, hk.admissions ▸ hc, rfl⟩
  · generalize g.step op = g' at hc hb
    cases hb with
    | asks _ fades => exact .inl (fades.admission k c hc)
    | proves _ _ _ => exact .inl ⟨c, hc, rfl⟩
    | @accepts u _ _ _ _ _ _ _ _ accepted =>
      rcases accepted.admission k c hc with before | ⟨_, _, identity, hl⟩
      · exact .inl ⟨c, openStream_admissions g u ▸ before, rfl⟩
      · rw [openStream_identityOn] at identity
        exact .inr (.inr (hl ▸ identity))

/-- A stream that is opened waits for its header, unless it was there before. -/
theorem openStream_stream (hs : (g.openStream t).streams.get? t = some stream) :
    g.streams.get? t = some stream ∨ stream.phase = .awaitingHeader := by
  unfold openStream at hs
  split at hs
  · exact .inl hs
  · simp only [Table.get?_insert, if_true, Option.some.injEq] at hs
    exact .inr (by rw [← hs])

/-- A stream admitted without authentication was so before a header on its link, or the header admits it. -/
theorem legacy_of_header {header : Stream.Header}
    (hs : (g.step (.inbound t (.header header))).streams.get? t = some stream)
    (hp : stream.phase = .legacy name carrier) :
    g.streams.get? t = some stream ∨ (⟨g, .inbound t (.header header)⟩ : Moment).AdmitsLegacy t name := by
  have entered {phase : Phase} {f : Gateway} (hf : (f.enterPhase t phase).streams.get? t = some stream) :
      stream.phase = phase := by
    simp only [enterPhase, Table.get?_modify, if_true] at hf
    obtain ⟨_, _, rfl⟩ := Option.map_eq_some_iff.mp hf
    rfl
  rw [step_header] at hs
  cases hg : g.greeting t header with
  | refused reply reason =>
    rw [hg] at hs
    rcases openStream_stream hs with before | waits
    · exact .inl before
    · rw [hp] at waits
      cases waits
  | legacy reply peer =>
    rw [hg] at hs
    have phase := entered hs
    rw [hp] at phase
    cases phase
    exact .inr ⟨header, reply, rfl, hg⟩
  | accepted reply host peer version offer =>
    rw [hg] at hs
    simp only [acceptStream_eq] at hs
    rw [entered hs] at hp
    cases hp

/-- A stream that was admitted without authentication was so before, or is admitted now. -/
theorem legacy_of_step (ho : g.Orderly) {op : Operation} (hs : (g.step op).streams.get? t = some stream)
    (hp : stream.phase = .legacy name carrier) :
    (∃ before carrier, g.streams.get? t = some before ∧ before.phase = .legacy name carrier) ∨
      (⟨g, op⟩ : Moment).AdmitsLegacy t name := by
  have same (before : g.streams.get? t = some stream) :
      ∃ before carrier, g.streams.get? t = some before ∧ before.phase = .legacy name carrier :=
    ⟨stream, carrier, before, hp⟩
  by_cases hop : ∃ event, op = .inbound t event
  · obtain ⟨event, rfl⟩ := hop
    by_cases hh : ∃ header, event = .header header
    · obtain ⟨header, rfl⟩ := hh
      exact (legacy_of_header hs hp).imp_left same
    · have step := g.onInbound_streams t event
      change (g.onInbound t event).streams.get? t = some stream at hs
      generalize g.onInbound t event = g' at hs step
      refine .inl ?_
      cases step with
      | stays stays _ => exact same (stays.streams ▸ hs)
      | opens =>
        rcases openStream_stream hs with before | waits
        · exact same before
        · rw [hp] at waits
          cases waits
      | refuses _ => exact absurd ⟨_, rfl⟩ hh
      | admits => exact absurd ⟨_, rfl⟩ hh
      | accepts => exact absurd ⟨_, rfl⟩ hh
      | @carries _ before peer old found phase =>
        simp only [emit, act, Table.get?_modify, if_true, found, Option.map_some, Option.some.injEq] at hs
        rw [← hs] at hp
        cases hp
        exact ⟨before, old, found, phase⟩
      | restarts _ _ here _ _ _ =>
        obtain ⟨after, ha, hpa⟩ := here
        rw [hs] at ha
        cases ha
        rw [hp] at hpa
        cases hpa
      | closes =>
        rw [onClosed_streams, if_pos rfl] at hs
        cases hs
  · exact .inl (same (stream_of_step ho (fun event h => hop ⟨event, h⟩) hs))

/-- Peers were authenticated for what they were admitted to, and streams admitted that are so without. -/
structure Guarded (h : List Moment) (g : Gateway) : Prop where
  orderly : g.Orderly
  identity : ∀ t d, g.identityOn t = some d → ∃ i, Happens h i (·.ProvesIdentity t d)
  admission : ∀ k c, g.admissions.get? k = some c → ∃ i, Happens h i (·.Authenticates c.link k.source)
  legacy : ∀ t stream name carrier, g.streams.get? t = some stream → stream.phase = .legacy name carrier →
    ∃ i, Happens h i (·.AdmitsLegacy t name)

theorem Guarded.step (hg : Guarded h g) (op : Operation) : Guarded (h ++ [⟨g, op⟩]) (g.step op) := by
  have past {P : Moment → Prop} : (∃ i, Happens h i P) → ∃ i, Happens (h ++ [⟨g, op⟩]) i P :=
    fun ⟨i, hi⟩ => ⟨i, hi.append⟩
  have now {P : Moment → Prop} (hp : P ⟨g, op⟩) : ∃ i, Happens (h ++ [⟨g, op⟩]) i P := ⟨h.length, Happens.last hp⟩
  refine ⟨(step_total hg.orderly op).1, fun t d hi => ?_, fun k c hc => ?_, fun t stream name carrier hs hp => ?_⟩
  · rcases identity_of_step hg.orderly hi with before | proves
    · exact past (hg.identity t d before)
    · exact now proves
  · rcases admission_of_step hg.orderly hc with ⟨c₀, before, hl⟩ | confirms | identity
    · exact past (hl ▸ hg.admission k c₀ before)
    · exact now (.inl ⟨k, confirms, rfl⟩)
    · obtain ⟨i, m, hm, proves⟩ := hg.identity c.link k.source identity
      exact past ⟨i, m, hm, .inr proves⟩
  · rcases legacy_of_step hg.orderly hs hp with ⟨before, old, hb, hpb⟩ | admits
    · exact past (hg.legacy t before name old hb hpb)
    · exact now admits

theorem run_guarded (setup : Setup) (world : World) (ops : List Operation) :
    Guarded ((initial setup world).history ops) ((initial setup world).run ops) := by
  refine run_induction (P := Guarded) ⟨initial_orderly setup world, ?_, ?_, ?_⟩ (fun _ _ op hg => hg.step op) ops
  · exact fun t d hi => by cases hi
  · exact fun k c hc => by cases hc
  · exact fun t stream name carrier hs => by cases hs

/-- An admission begins at the level that the terms for its source demand, but for those without authentication, and a
stanza is delivered on the strength of one or the other. -/
theorem admitted_at_level (setup : Setup) (world : World) (ops : List Operation) :
    let g := (initial setup world).run ops
    let moments := (initial setup world).history ops
    (∀ op k c, (g.step op).admissions.get? k = some c →
      (∃ c₀, g.admissions.get? k = some c₀ ∧ c₀.link = c.link) ∨
      (⟨g, op⟩ : Moment).Confirms k c.link ∧ g.Protects c.link k.source ∨
      ∃ i, Happens moments i fun m => m.ProvesIdentity c.link k.source ∧ m.gateway.Protects c.link k.source) ∧
    (∀ op t stream name carrier, (g.step op).streams.get? t = some stream → stream.phase = .legacy name carrier →
      (∃ before carrier, g.streams.get? t = some before ∧ before.phase = .legacy name carrier) ∨
      ∃ header peer, op = .inbound t (.header header) ∧ setup.AdmitsUnproved header peer ∧
        name = peer.getD "unknown") ∧
    (∀ t e, .deliver e ∈ (⟨g, .inbound t (.element e)⟩ : Moment).calls →
      (∃ stream name carrier, g.streams.get? t = some stream ∧ stream.phase = .legacy name carrier ∧
        ∃ i, Happens moments i (·.AdmitsLegacy t name)) ∨
      ∃ a, Protocol.addresses e = .ok a ∧
        ∃ i, Happens moments i fun m => m.Authenticates t a.sender ∧ m.gateway.Protects t a.sender) ∧
    ((∀ i t domain, Happens moments i (·.AdmitsPeer t domain) → Happens moments i (·.gateway.Protects t domain)) ↔
      ∀ i t name, Happens moments i (·.AdmitsLegacy t name) → Happens moments i (·.gateway.Protects t name)) := by
  intro g moments
  have hg : Guarded moments g := run_guarded setup world ops
  have same : g.setup = setup := run_setup setup world ops
  refine ⟨fun op k c hc => ?_, fun op t stream name carrier hs hp => ?_, fun t e hd => ?_, fun all i t name => ?_,
    fun legacy i t domain => ?_⟩
  · rcases admission_of_step hg.orderly hc with before | confirms | identity
    · exact .inl before
    · have authenticates : (⟨g, op⟩ : Moment).Authenticates c.link k.source := .inl ⟨k, confirms, rfl⟩
      exact .inr (.inl ⟨confirms, authenticates.protects⟩)
    · obtain ⟨i, proves⟩ := hg.identity c.link k.source identity
      exact .inr (.inr ⟨i, proved_protects proves⟩)
  · refine (legacy_of_step hg.orderly hs hp).imp_right fun admits => ?_
    obtain ⟨header, reply, operation, greeting⟩ := admits
    obtain ⟨peer, unproved, hname⟩ := (Moment.admitsLegacy_iff operation).mp ⟨header, reply, operation, greeting⟩
    exact ⟨header, peer, operation, same ▸ unproved, hname⟩
  · by_cases legacy : ∃ stream name carrier, g.streams.get? t = some stream ∧ stream.phase = .legacy name carrier
    · obtain ⟨stream, name, carrier, hs, hp⟩ := legacy
      exact .inl ⟨stream, name, carrier, hs, hp, hg.legacy t stream name carrier hs hp⟩
    · cases hs : g.streams.get? t with
      | none =>
        have ignored : (⟨g, .inbound t (.element e)⟩ : Moment).calls = [] := by
          change (g.onElement t e).world.since g.world = []
          simp [onElement, hs, World.since]
        rw [ignored] at hd
        cases hd
      | some stream =>
        obtain ⟨s, a, c, _, addressed, admitted, hl⟩ := admitted_of_delivers hs
          (fun name carrier hp => legacy ⟨stream, name, carrier, hs, hp⟩) hd
        obtain ⟨i, authenticates⟩ := hg.admission _ c admitted
        rw [hl] at authenticates
        exact .inr ⟨a, addressed, i, authenticated_protects authenticates⟩
  · rintro ⟨m, hm, admits⟩
    exact all i t name ⟨m, hm, .inr admits⟩
  · rintro ⟨m, hm, authenticates | admits⟩
    · exact ⟨m, hm, authenticates.protects⟩
    · exact legacy i t domain ⟨m, hm, admits⟩

/-- A peer that TLS is demanded of opens a stream from before dialback. -/
def unprotected : List Operation :=
  [.inbound 1 (.header { recipient := some "a.example", sender := some "old.example" })]

/-- The peer is admitted on a link without TLS, and its stanza is delivered. -/
theorem unprotected_admitted :
    let start := sampleWith true "old.example" { tls := .forced }
    let g := start.run unprotected
    let e := sampleMessage "bob@a.example" "alice@old.example"
    Happens (start.history unprotected) 0 (·.AdmitsPeer 1 "old.example") ∧
      ¬ Happens (start.history unprotected) 0 (·.gateway.Protects 1 "old.example") ∧
      .deliver e ∈ (⟨g, .inbound 1 (.element e)⟩ : Moment).calls := by
  intro start g e
  refine ⟨⟨_, rfl, .inr ⟨_, _, rfl, rfl⟩⟩, ?_, by decide +kernel⟩
  rintro ⟨m, hm, protects⟩
  cases hm
  revert protects
  unfold Protects
  decide +kernel

end Gateway

end Interdomain
