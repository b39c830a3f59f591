import Interdomain.Proofs.Claims
import Interdomain.Proofs.Domains
import Interdomain.Proofs.Progress

/-! Routes that are authorized by dialback. The history of a link tells how far its negotiation may have come:
it was opened for one route, its stream became ready under the policy, its last header gave it an id, and one
request was written with the key for that id. An answer authorizes the route only at the end of all this. -/
namespace Interdomain

open Protocol (Dialback)

/-- The element grants a request for the route. -/
structure Protocol.Dialback.Grants (e : Xml.Element) (r : Route) : Prop
    extends Between e r.source r.destination where
  name : e.name = "result"
  ns : e.ns = Xml.Namespace.dialback
  kind : e.attribute? "type" = some "valid"

namespace Gateway

/-- The link carries the route. -/
def Carries (g : Gateway) (r : Route) (t : LinkId) : Prop :=
  ∃ c, g.routes.get? r = some c ∧ c.link = t

/-- The stream on the link, on which the route is negotiated, may carry dialback. -/
def IsReady (g : Gateway) (r : Route) (t : LinkId) : Prop :=
  ∃ n, g.negotiations.get? r = some n ∧ n.link = t ∧ n.ready = true

/-- The route is negotiated on the link, and its request is outstanding. -/
def Awaits (g : Gateway) (r : Route) (t : LinkId) : Prop :=
  ∃ n, g.negotiations.get? r = some n ∧ n.link = t ∧ n.request = .sentRequest ∧ n.stage = .sentRequest

end Gateway

namespace Moment

/-- The operation opens the link on behalf of the route. -/
def Opens (m : Moment) (r : Route) (t : LinkId) : Prop :=
  ∃ address timeout, .connect t r address timeout ∈ m.calls

/-- An event on the link makes its stream ready, which the policy permits on the link as it is. -/
def Readies (m : Moment) (r : Route) (t : LinkId) : Prop :=
  (∃ event, m.operation = .outbound t event) ∧ m.gateway.setup.Permits m.gateway.world r t ∧
    ¬ m.gateway.IsReady r t ∧ m.next.IsReady r t

/-- The operation writes a request on the link. -/
def WritesRequest (m : Moment) (t : LinkId) (e : Xml.Element) : Prop :=
  m.next.world.requests t = m.gateway.world.requests t ++ [e]

/-- The operation makes the link carry the route. -/
def Enters (m : Moment) (r : Route) (t : LinkId) : Prop :=
  ¬ m.gateway.Carries r t ∧ m.next.Carries r t

end Moment

/-- The header with this id, accepted at the moment `x`, is the last one that was accepted on the link. -/
def LastHeader (h : List Moment) (t : LinkId) (id : String) (x : Nat) : Prop :=
  Happens h x (·.AcceptsPeer t id) ∧ ∀ k other, x < k → ¬ Happens h k (·.AcceptsPeer t other)

/-- Since the moment `o`, the stream on the link became ready and its last header was accepted, and not
before both the only request that was ever written on the link, with the key for the id of that header. -/
def WasAsked (h : List Moment) (g : Gateway) (r : Route) (t : LinkId) (o : Nat) : Prop :=
  ∃ p x j id request, o < p ∧ o < x ∧ p ≤ j ∧ x ≤ j ∧ Happens h p (·.Readies r t) ∧ LastHeader h t id x ∧
    Happens h j (·.WritesRequest t request) ∧ g.world.requests t = [request] ∧
    Dialback.Shows request r.destination r.source
      (g.setup.signer.digest (r.destination ++ " " ++ r.source ++ " " ++ id))

/-- What the history tells about a negotiation whose link was opened at the moment `o`. -/
structure Trail (h : List Moment) (g : Gateway) (r : Route) (n : Negotiation) (o : Nat) : Prop where
  opened : Happens h o (·.Opens r n.link)
  ready : n.ready = true → ∃ p, o < p ∧ Happens h p (·.Readies r n.link)
  streamId : ∀ id, n.streamId = some id → ∃ x, o < x ∧ LastHeader h n.link id x
  unasked : n.request ≠ .sentRequest → g.world.requests n.link = []
  asked : n.request = .sentRequest → n.stage = .sentRequest → WasAsked h g r n.link o

/-- Every negotiation has its trail. -/
def Traced (h : List Moment) (g : Gateway) : Prop :=
  ∀ r n, g.negotiations.get? r = some n → ∃ o, Trail h g r n o

variable {h : List Moment} {m : Moment} {g : Gateway} {r : Route} {n k : Negotiation} {t : LinkId}
  {id : String} {o x : Nat}

namespace LastHeader

theorem lt_length (hl : LastHeader h t id x) : x < h.length := hl.1.lt_length

theorem concat (hl : LastHeader h t id x) (quiet : ∀ other, ¬ m.AcceptsPeer t other) :
    LastHeader (h ++ [m]) t id x := by
  refine ⟨hl.1.append, ?_⟩
  intro k other hk hn
  rcases Happens.concat_iff.mp hn with hn | ⟨_, hn⟩
  · exact hl.2 k other hk hn
  · exact quiet other hn

theorem last (ha : m.AcceptsPeer t id) : LastHeader (h ++ [m]) t id h.length := by
  refine ⟨Happens.last ha, ?_⟩
  intro k other hk hn
  have hlt := hn.lt_length
  simp only [List.length_append, List.length_singleton] at hlt
  omega

end LastHeader

namespace Trail

/-- A negotiation that goes on leaves a longer trail. -/
theorem goesOn (ht : Trail h m.gateway r n o) (hn : m.gateway.negotiations.get? r = some n)
    (hk : m.next.negotiations.get? r = some k) (keeps : m.Keeps r n k m.next.world)
    (setup : m.next.setup = m.gateway.setup) : Trail (h ++ [m]) m.next r k o := by
  have ready (hr : k.ready = true) : ∃ p, o < p ∧ Happens (h ++ [m]) p (·.Readies r n.link) := by
    cases hold : n.ready with
    | true =>
      obtain ⟨p, hp, hh⟩ := ht.ready hold
      exact ⟨p, hp, hh.append⟩
    | false =>
      rcases keeps.ready hr with hr | ⟨hevent, hpermits⟩
      · rw [hold] at hr
        cases hr
      · refine ⟨h.length, ht.opened.lt_length, Happens.last ⟨hevent, hpermits, ?_, k, hk, keeps.link, hr⟩⟩
        rintro ⟨n', hn', _, hr'⟩
        rw [hn] at hn'
        cases hn'
        rw [hold] at hr'
        cases hr'
  have streamId (id : String) (hid : k.streamId = some id) :
      ∃ x, o < x ∧ LastHeader (h ++ [m]) n.link id x := by
    rcases keeps.streamId with ⟨id', ha, hs⟩ | ⟨quiet, hs⟩
    · rw [hs] at hid
      cases hid
      exact ⟨h.length, ht.opened.lt_length, .last ha⟩
    · obtain ⟨x, hx, hl⟩ := ht.streamId id (hs ▸ hid)
      exact ⟨x, hx, hl.concat quiet⟩
  refine ⟨keeps.link ▸ ht.opened.append, keeps.link ▸ ready, keeps.link ▸ streamId, ?_, ?_⟩
  · intro hu
    rw [keeps.link]
    rcases keeps.request with ⟨hq, hs, _⟩ | ⟨_, hs, _⟩
    · exact hq.trans (ht.unasked fun hn => hu (hs.mpr hn))
    · exact absurd hs hu
  · intro hs hg
    rw [keeps.link]
    rcases keeps.request with ⟨hq, hiff, hstage⟩ | ⟨hne, _, hr, id, hid, hq⟩
    · obtain ⟨hg, quiet⟩ := hstage hg
      obtain ⟨p, x, j, id, request, hop, hox, hpj, hxj, hp, hl, hj, hone, shows⟩ := ht.asked (hiff.mp hs) hg
      rw [WasAsked, setup]
      exact ⟨p, x, j, id, request, hop, hox, hpj, hxj, hp.append, hl.concat quiet, hj.append, hq.trans hone, shows⟩
    · obtain ⟨p, hop, hp⟩ := ready hr
      obtain ⟨x, hox, hl⟩ := streamId id hid
      have hlt := hp.lt_length
      have hlx := hl.lt_length
      simp only [List.length_append, List.length_singleton] at hlt hlx
      rw [WasAsked, setup]
      refine ⟨p, x, h.length, id, _, hop, hox, by omega, by omega, hp, hl, Happens.last hq, ?_,
        Dialback.result_shows _ _ _⟩
      rw [hq, ht.unasked hne]
      rfl

/-- A negotiation that begins has a trail of one moment. -/
theorem begins (opens : m.Opens r n.link) (ready : n.ready = false) (streamId : n.streamId = none)
    (request : n.request ≠ .sentRequest) (requests : m.next.world.requests n.link = []) :
    Trail (h ++ [m]) m.next r n h.length := by
  refine ⟨Happens.last opens, ?_, ?_, fun _ => requests, fun hs _ => absurd hs request⟩
  · intro hr
    rw [ready] at hr
    cases hr
  · intro id hid
    rw [streamId] at hid
    cases hid

end Trail

theorem Traced.step (ht : Traced h m.gateway) (hp : m.Proceeds m.next)
    (setup : m.next.setup = m.gateway.setup) : Traced (h ++ [m]) m.next := by
  intro r k hk
  cases hp.negotiation r k hk with
  | @goesOn n found keeps =>
    obtain ⟨o, hn⟩ := ht r n found
    exact ⟨o, hn.goesOn found hk keeps setup⟩
  | begins opens ready streamId request requests =>
    exact ⟨h.length, .begins opens ready streamId request requests⟩

namespace Gateway

theorem initial_indexed {setup : Setup} {world : World}
    (links : Function.Injective world.sources.linkId) : (initial setup world).Indexed := by
  refine ⟨links, ?_, ?_, ?_⟩
  · intro t r
    constructor
    · intro h
      cases h
    · rintro ⟨n, hn, _⟩
      cases hn
  · intro r c hc
    cases hc
  · intro i _
    refine ⟨rfl, ?_, rfl⟩
    intro r c hc
    cases hc

theorem run_traced (setup : Setup) (world : World) (links : Function.Injective world.sources.linkId)
    (ops : List Operation) :
    let g := (initial setup world).run ops
    g.Orderly ∧ g.Indexed ∧ g.setup = setup ∧ Traced ((initial setup world).history ops) g := by
  refine run_induction (g := initial setup world)
    (P := fun h g => g.Orderly ∧ g.Indexed ∧ g.setup = setup ∧ Traced h g) ?_ ?_ ops
  · refine ⟨initial_orderly setup world, initial_indexed links, rfl, ?_⟩
    intro r n hn
    cases hn
  · rintro h g op ⟨ho, hi, hs, ht⟩
    have hp := step_proceeds ho hi op
    have hsetup := step_setup ho op
    exact ⟨(step_total ho op).1, hp.indexed, hsetup.trans hs, ht.step (m := ⟨g, op⟩) hp hsetup⟩

/-- If links are never numbered twice, a route that is authorized without SASL has been through the whole handshake on
its link, and its one request, with the key for the id of the last header, was outstanding when it was granted. -/
theorem authorized_after_handshake (setup : Setup) (world : World)
    (links : Function.Injective world.sources.linkId) (ops : List Operation) (op : Operation) (r : Route)
    (t : LinkId) :
    let g := (initial setup world).run ops
    let moments := (initial setup world).history ops
    (⟨g, op⟩ : Moment).Enters r t →
    (∀ n, g.negotiations.get? r = some n → n.stage ≠ .saslSucceeded) →
    g.setup = setup ∧ (∃ o, Happens moments o (·.Opens r t) ∧ WasAsked moments g r t o) ∧ g.Awaits r t ∧
      ∃ e, op = .outbound t (.element e) ∧ Dialback.Grants e r := by
  intro g moments henters hsasl
  obtain ⟨ho, hi, hsetup, htraced⟩ := run_traced setup world links ops
  obtain ⟨hnot, c, hc, hl⟩ := henters
  rcases (step_proceeds ho hi op).route r c hc with ⟨c₀, h₀, hl₀⟩ | ⟨n, e, turn, hop, hn, hlink, ha⟩
  · exact absurd ⟨c₀, h₀, hl₀.trans hl⟩ hnot
  · have hn : g.negotiations.get? r = some n := hn
    rw [hl] at hop hlink
    cases ha with
    | sasl stage _ => exact absurd stage (hsasl n hn)
    | dialback request stage element answer _ =>
      obtain ⟨o, htrail⟩ := htraced r n hn
      obtain ⟨a, hm, hto, hval⟩ := answer
      rw [ho.route r n hn] at hto
      simp only [Negotiation.isAnswerTo, Bool.and_eq_true, decide_eq_true_eq] at hto
      have grants : Dialback.Grants e r := by
        obtain ⟨between, _, kind, _⟩ := Dialback.ofElement_eq_ok.mp hm
        have named : e.name = "result" ∧ e.ns = Xml.Namespace.dialback := by simpa [Xml.Element.is] using element
        refine ⟨hto.1 ▸ hto.2 ▸ between, named.1, named.2, ?_⟩
        rw [← kind]
        simpa [Dialback.isValid] using hval
      exact ⟨hsetup, ⟨o, hlink ▸ htrail.opened, hlink ▸ htrail.asked request stage⟩,
        ⟨n, hn, hlink, request, stage⟩, e, hop, grants⟩

theorem sample_linkId_injective : Function.Injective sample.world.sources.linkId := by
  intro m n h
  simpa [sample, initial, start] using h

/-- A stanza waits for its route, whose stream turns to TLS and begins anew before the request goes out. -/
def handshake : List Operation :=
  [.submit (sampleMessage "bob@b.example" "alice@a.example") (some "192.0.2.1"),
    .outbound 100 .connected,
    .outbound 100 (.header { sampleHeader "b.example" with id := some "one" }),
    .outbound 100 (.element (Protocol.features true false)),
    .outbound 100 (.element Protocol.tlsProceed),
    .outbound 100 (.header { sampleHeader "b.example" with id := some "two" }),
    .outbound 100 (.element (Protocol.features false false))]

theorem route_authorized :
    let r : Route := ⟨"b.example", "a.example"⟩
    let answer := Dialback.resultReply "a.example" "b.example" true
    let g := sample.run handshake
    let moments := sample.history handshake
    (⟨g, .outbound 100 (.element answer)⟩ : Moment).Enters r 100 ∧
    (g.negotiations.get? r).map (·.stage) = some .sentRequest ∧
    g.setup = sample.setup ∧ (∃ o, Happens moments o (·.Opens r 100) ∧ WasAsked moments g r 100 o) ∧
    g.Awaits r 100 ∧
    ∃ e, Operation.outbound 100 (.element answer) = .outbound 100 (.element e) ∧ Dialback.Grants e r := by
  intro r answer g moments
  have before : g.routes.get? r = none := by decide +kernel
  have after : (g.step (.outbound 100 (.element answer))).routes.get? r =
      some ⟨100, some "192.0.2.1:5269", 1, 0, 0⟩ := by decide +kernel
  have stage : (g.negotiations.get? r).map (·.stage) = some .sentRequest := by decide +kernel
  have enters : (⟨g, .outbound 100 (.element answer)⟩ : Moment).Enters r 100 := by
    refine ⟨?_, _, after, rfl⟩
    rintro ⟨c, hc, _⟩
    rw [before] at hc
    cases hc
  refine ⟨enters, stage, ?_⟩
  refine authorized_after_handshake sample.setup sample.world sample_linkId_injective handshake _ r 100
    enters ?_
  intro n hn
  have hn : g.negotiations.get? r = some n := hn
  simp only [hn, Option.map_some, Option.some.injEq] at stage
  simp [stage]

end Gateway

end Interdomain
