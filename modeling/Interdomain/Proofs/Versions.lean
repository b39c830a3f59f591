import Interdomain.Proofs.Descent
import Interdomain.Proofs.Encryption

/-! The versions of streams. The gateway writes none to a peer whose streams are those from before there were
versions, and offers it no features; but of the headers of such a peer it takes the version as it is, so that its
negotiation waits for features instead of going on to dialback. -/
namespace Interdomain

open Protocol (Dialback)

namespace Negotiation

variable {n k : Negotiation} {setup : Setup} {w : World} {header : Stream.Header}

/-- The version stays, and the negotiation does not begin to wait for features. -/
structure Steady (n k : Negotiation) : Prop where
  version : k.version = n.version
  stage : k.stage = .awaitingFeatures → n.stage = .awaitingFeatures

theorem Idles.steady (h : n.Idles k) : n.Steady k := by
  refine ⟨h.version, fun hk => ?_⟩
  rcases h.stage with hs | hs
  · rw [← hs, hk]
  · rw [hk] at hs
    cases hs

theorem becomeReady_idles (n : Negotiation) (setup : Setup) (w : World) :
    n.Idles (n.becomeReady setup w).negotiation := by
  unfold becomeReady
  cases hr : n.request with
  | wantRequest =>
    have h := { n with ready := true }.sendRequest_idles setup w
    exact ⟨h.link, h.version, h.stage⟩
  | notRequested => exact ⟨rfl, rfl, .inl rfl⟩
  | couldRequest => exact ⟨rfl, rfl, .inl rfl⟩
  | sentRequest => exact ⟨rfl, rfl, .inl rfl⟩

theorem underPolicy_idles (n : Negotiation) (setup : Setup) (w : World) (used : Policy.Mechanism) {next : Turn}
    (h : n.Idles next.negotiation) : n.Idles (n.underPolicy setup w used next).negotiation := by
  unfold underPolicy
  split
  · exact h
  · exact ⟨rfl, rfl, .inl rfl⟩

theorem steady_of_stage (n : Negotiation) {stage : Stage} (other : stage ≠ .awaitingFeatures) :
    n.Steady { n with stage } :=
  ⟨rfl, fun h => absurd h other⟩

theorem onFeatures_steady (n : Negotiation) (setup : Setup) (w : World) (e : Xml.Element) :
    n.Steady (n.onFeatures setup w e).negotiation := by
  unfold onFeatures
  split
  · exact (Idles.refl n).steady
  · dsimp only
    split
    · exact n.steady_of_stage (by simp)
    · split
      · exact n.steady_of_stage (by simp)
      · have ready := ({ n with stage := .gotFeatures } : Negotiation).underPolicy_idles setup w .dialback
          (({ n with stage := .gotFeatures } : Negotiation).becomeReady_idles setup w)
        refine ⟨ready.version, fun h => ?_⟩
        have waited := ready.steady.stage h
        cases waited

theorem onTlsProceed_steady (n : Negotiation) (setup : Setup) (w : World) :
    n.Steady (n.onTlsProceed setup w).negotiation := by
  unfold onTlsProceed
  dsimp only
  split
  · exact n.steady_of_stage (by simp)
  · exact ⟨rfl, id⟩

theorem onResult_steady (n : Negotiation) (w : World) (e : Xml.Element) :
    n.Steady (n.onResult w e).negotiation := by
  unfold onResult
  split
  · exact ⟨rfl, id⟩
  · split
    · exact ⟨rfl, id⟩
    · split
      · exact n.steady_of_stage (by simp)
      · exact ⟨rfl, fun h => by simp [note] at h⟩

/-- An element does not change the version. -/
theorem onElement_steady (n : Negotiation) (setup : Setup) (w : World) (e : Xml.Element) :
    n.Steady (n.onElement setup w e).negotiation := by
  unfold onElement
  repeat' split
  · exact n.onFeatures_steady setup w e
  · exact ⟨rfl, id⟩
  · exact n.onTlsProceed_steady setup w
  · exact ⟨rfl, id⟩
  · exact n.steady_of_stage (by simp)
  · exact ⟨rfl, fun h => by simp [note] at h⟩
  · exact n.onResult_steady w e
  · exact (Idles.refl n).steady
  · exact (Idles.refl n).steady

theorem onConnected_steady (n : Negotiation) (setup : Setup) (w : World) :
    n.Steady (n.onConnected setup w).negotiation := by
  unfold onConnected
  dsimp only
  split
  · exact (Idles.refl n).steady
  · split <;> exact ⟨rfl, fun h => by simp at h⟩

/-- The negotiation that a header with this id has come for. -/
def headed (n : Negotiation) (id : String) (header : Stream.Header) : Negotiation :=
  { n with
    stage := if n.stage = .saslSucceeded then .saslSucceeded else .gotHeader
    streamId := some id
    version := header.majorVersion }

/-- A header whose id the server has not given out is accepted, with its version. -/
theorem onHeader_eq {id : String} {isOwn : String → Bool} (named : header.id = some id) (nonempty : id ≠ "")
    (foreign : isOwn id = false) :
    n.onHeader setup w header isOwn = (n.headed id header).onAccepted setup w header := by
  have found : header.id.filter (· ≠ "") = some id := by simp [named, Option.filter, nonempty]
  unfold onHeader headed
  dsimp only
  rw [found]
  simp only [foreign, Bool.false_eq_true, if_false]
  split <;> simp_all

/-- Every other header ends the stream. -/
theorem onHeader_steady {isOwn : String → Bool} (not_taken : ∀ id, header.id = some id → id ≠ "" → isOwn id = true) :
    n.Steady (n.onHeader setup w header isOwn).negotiation := by
  have stage : n.Steady (if n.stage = .saslSucceeded then n else { n with stage := .gotHeader }) := by
    split
    · exact (Idles.refl n).steady
    · exact ⟨rfl, fun h => by simp at h⟩
  unfold onHeader
  dsimp only
  generalize (if n.stage = .saslSucceeded then n else { n with stage := .gotHeader }) = m at stage ⊢
  split
  · exact ⟨stage.version, stage.stage⟩
  · rename_i id found
    obtain ⟨named, nonempty⟩ := Option.filter_eq_some_iff.mp found
    rw [if_pos (not_taken id named (by simpa using nonempty))]
    exact ⟨stage.version, stage.stage⟩

/-- An accepted header leaves the negotiation with its version, and waiting for features only if there is one. -/
theorem onAccepted_version (n : Negotiation) (setup : Setup) (w : World) (header : Stream.Header)
    (before : n.stage ≠ .awaitingFeatures) :
    (n.onAccepted setup w header).negotiation.version = n.version ∧
      ((n.onAccepted setup w header).negotiation.stage = .awaitingFeatures → 1 ≤ n.version) := by
  have idle {k : Negotiation} (h : n.Idles k) :
      k.version = n.version ∧ (k.stage = .awaitingFeatures → 1 ≤ n.version) :=
    ⟨h.version, fun hk => absurd (h.steady.stage hk) before⟩
  unfold onAccepted
  split
  · exact idle (n.underPolicy_idles setup w _ (.refl n))
  · split
    · exact ⟨rfl, fun _ => ‹_›⟩
    · split
      · exact idle ⟨rfl, rfl, .inl rfl⟩
      · exact idle (n.underPolicy_idles setup w _ (n.becomeReady_idles setup w))

end Negotiation

namespace Gateway

/-- The header has an id, and not one that this server has given to a peer. -/
def Foreign (g : Gateway) (header : Stream.Header) : Prop :=
  ∃ id, header.id = some id ∧ id ≠ "" ∧ g.challenges.contains id = false

end Gateway

/-- What is left of a negotiation after a turn is as the turn left it. -/
theorem Turn.negotiation_of_rest {turn : Turn} {k : Negotiation} (h : turn.rest = some k) :
    turn.negotiation = k := by
  unfold rest at h
  split at h <;> simp_all

namespace Moment

/-- The negotiation of a route is told a header that it accepts. -/
def TakesHeader (m : Moment) (r : Route) (n : Negotiation) (header : Stream.Header) : Prop :=
  ∃ t, m.operation = .outbound t (.header header) ∧ m.gateway.attempts.get? t = some r ∧
    m.gateway.negotiations.get? r = some n ∧ m.gateway.Foreign header

/-- A negotiation settles whether it speaks dialback: its request is sent, or has been sent before, or is remembered
as possible; or the stream is refused. -/
inductive DecidesDialback (m : Moment) (r : Route) (n : Negotiation) : Prop
  | sent {k id} (found : m.next.negotiations.get? r = some k) (request : k.request = .sentRequest)
      (written : .send n.link (.element (m.gateway.setup.requestFor r id)) ∈ m.calls)
  | standing {k} (found : m.next.negotiations.get? r = some k) (before : n.request = .sentRequest)
      (request : k.request = .sentRequest)
  | remembered {k} (found : m.next.negotiations.get? r = some k) (ready : k.ready = true)
      (request : k.request = .couldRequest)
  | refused {error} (gone : m.next.negotiations.get? r = none) (told : .send n.link (.error error) ∈ m.calls)
      (closes : .close n.link ∈ m.calls)

/-- A negotiation begins to wait for the features of its stream, and nothing is written. -/
structure Waits (m : Moment) (r : Route) (n : Negotiation) (version : Nat) : Prop where
  waiting : ∃ k, m.next.negotiations.get? r = some k ∧ k.link = n.link ∧ k.version = version ∧
    k.stage = .awaitingFeatures ∧ k.request = n.request ∧ k.ready = n.ready
  silent : m.calls = []

/-- A negotiation that waits for features while a request is wanted has decided nothing. -/
theorem Waits.not_decides {m : Moment} {r : Route} {n : Negotiation} {version : Nat} (h : m.Waits r n version)
    (wanted : n.request = .wantRequest) : ¬ m.DecidesDialback r n := by
  obtain ⟨k, hk, _, _, _, request, _⟩ := h.waiting
  intro decides
  cases decides with
  | sent _ _ written =>
    rw [h.silent] at written
    cases written
  | standing _ before _ =>
    rw [wanted] at before
    cases before
  | @remembered j found _ possible =>
    rw [hk] at found
    cases found
    rw [request, wanted] at possible
    cases possible
  | refused _ told _ =>
    rw [h.silent] at told
    cases told

end Moment

namespace Negotiation

variable {n : Negotiation} {setup : Setup} {w : World} {header : Stream.Header}

/-- What comes of an accepted header without a version, but after SASL. -/
inductive Speaks (n : Negotiation) (setup : Setup) (w : World) (t : Turn) : Prop
  | sent {id} (rest : t.rest = some t.negotiation) (request : t.negotiation.request = .sentRequest)
      (written : .send n.link (.element (setup.requestFor n.route id)) ∈ t.world.since w)
  | standing (rest : t.rest = some t.negotiation) (before : n.request = .sentRequest)
      (request : t.negotiation.request = .sentRequest)
  | remembered (rest : t.rest = some t.negotiation) (ready : t.negotiation.ready = true)
      (request : t.negotiation.request = .couldRequest)
  | refused {error} (rest : t.rest = none) (told : .send n.link (.error error) ∈ t.world.since w)
      (closes : .close n.link ∈ t.world.since w)

theorem refused_speaks (n k : Negotiation) (setup : Setup) (w : World) (error : Stream.Error) :
    n.Speaks setup w ⟨k, w.fail n.link error, .giveUp⟩ := by
  have told : .send n.link (.error error) ∈ (w.fail n.link error).since w := by
    simp [World.since, World.fail, World.close, World.send]
  have closes : .close n.link ∈ (w.fail n.link error).since w := by
    simp [World.since, World.fail, World.close, World.send]
  exact .refused rfl told closes

/-- A stream that becomes ready has its request sent if it is wanted, and remembered if not. -/
theorem becomeReady_speaks (n : Negotiation) (setup : Setup) (w : World) {id : String} (hid : n.streamId = some id) :
    n.Speaks setup w (n.becomeReady setup w) := by
  cases hr : n.request with
  | wantRequest =>
    have sent : .send n.link (.element (setup.requestFor n.route id)) ∈ (n.becomeReady setup w).world.since w := by
      simp only [becomeReady, hr, sendRequest, hid]
      rw [World.since, World.trace_sendElements]
      simp [World.sendElement, World.send, Setup.requestFor]
    refine .sent rfl ?_ sent
    simp only [becomeReady, hr, sendRequest, hid]
  | notRequested => exact .remembered rfl (by simp [becomeReady, hr]) (by simp [becomeReady, hr])
  | couldRequest => exact .remembered rfl (by simp [becomeReady, hr]) (by simp [becomeReady, hr])
  | sentRequest => exact .standing rfl hr (by simp [becomeReady, hr])

/-- Without a version, an accepted header is followed by dialback or by a refusal. -/
theorem onAccepted_speaks (n : Negotiation) (setup : Setup) (w : World) (header : Stream.Header)
    (before : n.stage ≠ .saslSucceeded) (unversioned : n.version = 0) {id : String} (hid : n.streamId = some id) :
    n.Speaks setup w (n.onAccepted setup w header) := by
  rw [onAccepted, if_neg before, if_neg (by omega)]
  split
  · exact n.refused_speaks _ setup w _
  · unfold underPolicy
    split
    · exact n.becomeReady_speaks setup w hid
    · exact n.refused_speaks _ setup w _

end Negotiation

namespace Gateway

variable {g : Gateway} {r : Route} {n k : Negotiation} {header : Stream.Header} {h : List Moment}

theorem step_of_takes {op : Operation} (takes : (⟨g, op⟩ : Moment).TakesHeader r n header) :
    ∃ id, g.step op = g.follow ((n.headed id header).onAccepted g.setup g.world header) := by
  obtain ⟨t, operation, attempt, found, id, named, nonempty, foreign⟩ := takes
  cases operation
  refine ⟨id, ?_⟩
  change g.onOutbound t (.header header) = _
  simp only [onOutbound, attempt, found, onAttempt, Negotiation.onHeader_eq named nonempty foreign]

/-- A header without a version is followed by the decision on dialback at once, but after SASL. -/
theorem decides_of_takes (ho : g.Orderly) {op : Operation} (takes : (⟨g, op⟩ : Moment).TakesHeader r n header)
    (fresh : n.stage ≠ .saslSucceeded) (unversioned : header.majorVersion = 0) :
    (⟨g, op⟩ : Moment).DecidesDialback r n := by
  obtain ⟨id, step⟩ := step_of_takes takes
  obtain ⟨_, _, _, found, _⟩ := takes
  have hr : n.route = r := ho.route r n found
  have serves := (n.headed id header).onAccepted_serves g.setup g.world (ho.verifies r n found) header
  have named : (n.headed id header).streamId = some id := rfl
  have speaks := (n.headed id header).onAccepted_speaks g.setup g.world header
    (by simp [Negotiation.headed, fresh]) unversioned named
  generalize (n.headed id header).onAccepted g.setup g.world header = turn at step serves speaks
  have next : (⟨g, op⟩ : Moment).next.negotiations.get? r = turn.rest := by
    rw [Moment.next, step, get?_follow, if_pos (hr.symm.trans serves.route.symm)]
  have calls {e : Effect} (he : e ∈ turn.world.since g.world) : e ∈ (⟨g, op⟩ : Moment).calls := by
    rw [Moment.calls, Moment.next, step]
    exact (g.grows_follow turn).mem_since he
  cases speaks with
  | sent rest request written => exact .sent (next.trans rest) request (hr ▸ calls written)
  | standing rest before request => exact .standing (next.trans rest) before request
  | remembered rest ready request => exact .remembered (next.trans rest) ready request
  | refused rest told closes => exact .refused (next.trans rest) (calls told) (calls closes)

/-- A header with a version has the negotiation wait for features, but after SASL. -/
theorem waits_of_takes (ho : g.Orderly) {op : Operation} (takes : (⟨g, op⟩ : Moment).TakesHeader r n header)
    (fresh : n.stage ≠ .saslSucceeded) (versioned : 1 ≤ header.majorVersion) :
    (⟨g, op⟩ : Moment).Waits r n header.majorVersion := by
  obtain ⟨id, step⟩ := step_of_takes takes
  obtain ⟨_, _, _, found, _⟩ := takes
  have hr : n.route = r := ho.route r n found
  have turn : (n.headed id header).onAccepted g.setup g.world header =
      ⟨{ n.headed id header with stage := .awaitingFeatures }, g.world, .proceed⟩ := by
    rw [Negotiation.onAccepted, if_neg (by simp [Negotiation.headed, fresh]),
      if_pos (by simpa [Negotiation.headed] using versioned)]
  rw [turn] at step
  refine ⟨⟨{ n.headed id header with stage := .awaitingFeatures }, ?_, rfl, rfl, rfl, rfl, rfl⟩, ?_⟩
  · rw [Moment.next, step, get?_follow]
    exact if_pos hr.symm
  · rw [Moment.calls, Moment.next, step]
    simp [follow, setNegotiation, World.since]

/-- A negotiation that has accepted a header has its version, and waits for features only if there is one. -/
theorem version_of_takes (ho : g.Orderly) {op : Operation} (takes : (⟨g, op⟩ : Moment).TakesHeader r n header)
    (hk : (g.step op).negotiations.get? r = some k) :
    k.version = header.majorVersion ∧ (k.stage = .awaitingFeatures → 1 ≤ k.version) := by
  obtain ⟨id, step⟩ := step_of_takes takes
  obtain ⟨_, _, _, found, _⟩ := takes
  have route := ((n.headed id header).onAccepted_serves g.setup g.world (ho.verifies r n found) header).route
  have version := (n.headed id header).onAccepted_version g.setup g.world header
    (by unfold Negotiation.headed; split <;> simp)
  rw [step, get?_follow, if_pos ((ho.route r n found).symm.trans route.symm)] at hk
  rw [← Turn.negotiation_of_rest hk, version.1]
  exact ⟨rfl, version.2⟩

/-- No other turn changes the version. -/
theorem turnOn_steady {event : LinkEvent} {turn : Turn} (turns : g.turnOn n event = some turn)
    (not_taken : ∀ header, event = .header header → ¬ g.Foreign header) : n.Steady turn.negotiation := by
  cases event with
  | connected =>
    cases turns
    exact n.onConnected_steady g.setup g.world
  | header header =>
    cases turns
    refine Negotiation.onHeader_steady fun id named nonempty => ?_
    refine Decidable.byContradiction fun foreign => not_taken header rfl ⟨id, named, nonempty, ?_⟩
    simpa using foreign
  | element e =>
    cases turns
    exact n.onElement_steady g.setup g.world e
  | closed error => cases turns

/-- Without a header, the version of a negotiation is the one it had, or the negotiation has just begun. -/
theorem version_of_step (ho : g.Orderly) {op : Operation}
    (not_taken : ∀ n header, ¬ (⟨g, op⟩ : Moment).TakesHeader r n header)
    (hk : (g.step op).negotiations.get? r = some k) :
    (∃ n, g.negotiations.get? r = some n ∧ n.Steady k) ∨ k.version = 0 ∧ k.stage ≠ .awaitingFeatures := by
  cases step_derives ho hk with
  | @lingers n found idles => exact .inl ⟨n, found, idles.steady⟩
  | @turned t event n turn operation attempt found turns rest =>
    refine .inl ⟨n, found, Turn.negotiation_of_rest rest ▸ turnOn_steady turns fun header heads foreign => ?_⟩
    exact not_taken n header ⟨t, heads ▸ operation, attempt, found, foreign⟩
  | begins version stage =>
    refine .inr ⟨version, fun waits => ?_⟩
    rw [waits] at stage
    rcases stage with stage | stage <;> cases stage

/-- The header is the last one that was accepted for the route. -/
def LastTaken (h : List Moment) (r : Route) (header : Stream.Header) : Prop :=
  ∃ i, Happens h i (fun m => ∃ n, m.TakesHeader r n header) ∧
    ∀ j, i < j → ¬ Happens h j fun m => ∃ n header, m.TakesHeader r n header

/-- Negotiations have the version of the last header that was accepted for their routes, or none, and those that
wait for features have one. -/
structure Versioned (h : List Moment) (g : Gateway) : Prop where
  orderly : g.Orderly
  waiting : ∀ r n, g.negotiations.get? r = some n → n.stage = .awaitingFeatures → 1 ≤ n.version
  version : ∀ r n, g.negotiations.get? r = some n →
    n.version = 0 ∨ ∃ header, LastTaken h r header ∧ n.version = header.majorVersion

theorem Versioned.step (hv : Versioned h g) (op : Operation) : Versioned (h ++ [⟨g, op⟩]) (g.step op) := by
  have later {i : Nat} {P : Moment → Prop} (last : ∀ j, i < j → ¬ Happens h j P) (now : i < h.length → ¬ P ⟨g, op⟩)
      (j : Nat) (hj : i < j) : ¬ Happens (h ++ [⟨g, op⟩]) j P := by
    intro happens
    rcases Happens.concat_iff.mp happens with before | ⟨hl, here⟩
    · exact last j hj before
    · exact now (hl ▸ hj) here
  refine ⟨(step_total hv.orderly op).1, fun r k hk => ?_, fun r k hk => ?_⟩
  all_goals by_cases takes : ∃ n header, (⟨g, op⟩ : Moment).TakesHeader r n header
  · obtain ⟨n, header, takes⟩ := takes
    exact (version_of_takes hv.orderly takes hk).2
  · intro waits
    rcases version_of_step hv.orderly (fun n header h => takes ⟨n, header, h⟩) hk with ⟨n, hn, steady⟩ | ⟨_, other⟩
    · exact steady.version ▸ hv.waiting r n hn (steady.stage waits)
    · exact absurd waits other
  · obtain ⟨n, header, takes⟩ := takes
    refine .inr ⟨header, ⟨h.length, Happens.last ⟨n, takes⟩, ?_⟩, (version_of_takes hv.orderly takes hk).1⟩
    exact later (fun j hj before => absurd before.lt_length (by omega)) fun hl => absurd hl (by omega)
  · rcases version_of_step hv.orderly (fun n header h => takes ⟨n, header, h⟩) hk with ⟨n, hn, steady⟩ | ⟨zero, _⟩
    · rw [steady.version]
      refine (hv.version r n hn).imp_right fun ⟨header, ⟨i, taken, last⟩, version⟩ => ?_
      exact ⟨header, ⟨i, taken.append, later last fun _ => takes⟩, version⟩
    · exact .inl zero

theorem run_versioned (setup : Setup) (world : World) (ops : List Operation) :
    Versioned ((initial setup world).history ops) ((initial setup world).run ops) := by
  refine run_induction (P := Versioned) ⟨initial_orderly setup world, ?_, ?_⟩ (fun _ _ op hv => hv.step op) ops
  · exact fun r n hn => by cases hn
  · exact fun r n hn => by cases hn

/-- A header that the gateway writes to a peer whose streams are those from before there were versions has none. -/
theorem unversioned_of_calls (setup : Setup) (world : World) (ops : List Operation) {op : Operation} {t : LinkId}
    {domain : String} (written : .send t (.header header) ∈ (⟨(initial setup world).run ops, op⟩ : Moment).calls)
    (recipient : header.recipient = some domain) (disabled : (setup.policy.lookup domain).version = .disabled) :
    header.version = none := by
  have same := run_setup setup world ops
  rcases header_of_calls setup world ops written with ⟨asked, id, _, rfl⟩ | ⟨r, _, rfl⟩
  · rw [← same] at disabled
    exact Setup.version_reply _ _ recipient disabled
  · have destination : r.destination = domain := by simpa [Setup.headerFor] using recipient
    simp [Setup.headerFor, destination, disabled]

/-- Features are offered in answer to a header, and not to a peer whose streams are those from before there were
versions. -/
theorem features_of_calls (setup : Setup) (world : World) (ops : List Operation) {op : Operation} {t : LinkId}
    {tls sasl : Bool} (written : .send t (.element (Protocol.features tls sasl)) ∈
      (⟨(initial setup world).run ops, op⟩ : Moment).calls) :
    ∃ header host peer, op = .inbound t (.header header) ∧ setup.Understands header host peer ∧
      (setup.termsFor peer).version ≠ .disabled := by
  have same := run_setup setup world ops
  have made := run_overture setup world ops .features written
  generalize hc : Effect.send t (.element (Protocol.features tls sasl)) = c at made
  cases made with
  | answers _ _ => cases hc
  | @offers _ header reply host peer version offer operation greeting versioned =>
    simp only [Effect.send.injEq] at hc
    obtain ⟨rfl, _⟩ := hc
    obtain ⟨understands, left⟩ := understands_of_greeting greeting
    rw [same] at understands left
    refine ⟨header, host, peer, operation, understands, fun disabled => ?_⟩
    simp [left, Setup.versionFor, disabled] at versioned
  | serves _ _ _ _ _ _ => cases hc
  | negotiates _ _ _ makes =>
    cases makes with
    | greets => cases hc
    | asksTls _ _ _ _ _ =>
      simp only [Effect.send.injEq, Frame.element.injEq] at hc
      exact absurd hc.2 (Protocol.features_ne_startTls _ _)
    | startsTls _ => cases hc
    | secured _ _ => cases hc
    | authenticated _ => cases hc

/-- To a peer whose streams are those from before there were versions no header is written with one, and no features.
But a negotiation has the version that the last header announces, whatever the terms for the peer. -/
theorem versions_as_announced (setup : Setup) (world : World) (ops : List Operation) :
    let g := (initial setup world).run ops
    let moments := (initial setup world).history ops
    (∀ op t header domain, .send t (.header header) ∈ (⟨g, op⟩ : Moment).calls → header.recipient = some domain →
      (setup.policy.lookup domain).version = .disabled → header.version = none) ∧
    (∀ op t tls sasl, .send t (.element (Protocol.features tls sasl)) ∈ (⟨g, op⟩ : Moment).calls →
      ∃ header host peer, op = .inbound t (.header header) ∧ setup.Understands header host peer ∧
        (setup.termsFor peer).version ≠ .disabled) ∧
    (∀ r n, g.negotiations.get? r = some n → (n.stage = .awaitingFeatures → 1 ≤ n.version) ∧
      (n.version = 0 ∨ ∃ header, LastTaken moments r header ∧ n.version = header.majorVersion)) ∧
    (∀ op r n header, (⟨g, op⟩ : Moment).TakesHeader r n header → n.stage ≠ .saslSucceeded →
      (header.majorVersion = 0 → (⟨g, op⟩ : Moment).DecidesDialback r n) ∧
      (1 ≤ header.majorVersion → (⟨g, op⟩ : Moment).Waits r n header.majorVersion)) := by
  intro g moments
  have hv : Versioned moments g := run_versioned setup world ops
  refine ⟨fun op t header domain => unversioned_of_calls setup world ops,
    fun op t tls sasl => features_of_calls setup world ops,
    fun r n hn => ⟨hv.waiting r n hn, hv.version r n hn⟩, fun op r n header takes fresh => ⟨?_, ?_⟩⟩
  · exact decides_of_takes hv.orderly takes fresh
  · exact waits_of_takes hv.orderly takes fresh

/-- A header with a version comes from a peer whose streams have none, and the negotiation waits for features. -/
theorem versioned_header_awaited :
    let start := sampleWith false "b.example" { version := .disabled }
    let header := { sampleHeader "b.example" with id := some "one" }
    let m : Moment := ⟨start.run greeted, .outbound 100 (.header header)⟩
    (start.setup.policy.lookup "b.example").version = .disabled ∧
      ∃ n, m.TakesHeader ⟨"b.example", "a.example"⟩ n header ∧ n.stage ≠ .saslSucceeded ∧
        m.Waits ⟨"b.example", "a.example"⟩ n 1 ∧ ¬ m.DecidesDialback ⟨"b.example", "a.example"⟩ n := by
  intro start header m
  have attempt : m.gateway.attempts.get? 100 = some ⟨"b.example", "a.example"⟩ := by decide +kernel
  obtain ⟨n, found, now⟩ : ∃ n, m.gateway.negotiations.get? ⟨"b.example", "a.example"⟩ = some n ∧
      (n.stage, n.request) = (.connected, .wantRequest) := by
    have h : (m.gateway.negotiations.get? ⟨"b.example", "a.example"⟩).map (fun n => (n.stage, n.request)) =
        some (.connected, .wantRequest) := by decide +kernel
    exact Option.map_eq_some_iff.mp h
  obtain ⟨fresh, wanted⟩ := Prod.mk.inj now
  have takes : m.TakesHeader ⟨"b.example", "a.example"⟩ n header :=
    ⟨100, rfl, attempt, found, "one", rfl, by decide, by decide +kernel⟩
  have after : n.stage ≠ .saslSucceeded := by simp [fresh]
  have waits := waits_of_takes (run_orderly start.setup start.world greeted) takes after (by decide +kernel)
  exact ⟨by decide +kernel, n, takes, after, waits, waits.not_decides wanted⟩

end Gateway

end Interdomain
