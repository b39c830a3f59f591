import Interdomain.Proofs.Messages
import Interdomain.Proofs.Order

/-! The part of one gateway in a dialback between two servers, on links without protection. It opens a stream
and asks for its pair of domains, or asks an authority about a key; it answers the streams of a peer, and hands
over what they bring once they are admitted. Each step is given by the calls that it makes, and by what the
gateway waits for next. -/
namespace Interdomain

open Protocol (Dialback)

namespace World

variable {u v w : World} {cs ds : List Effect}

/-- No link is protected, nor can any be. -/
structure Plain (w : World) : Prop where
  unknown : w.unknown.IsPlain
  links : ∀ t l, w.links.get? t = some l → l.IsPlain
  upcoming : ∀ l ∈ w.upcoming, l.IsPlain

theorem Plain.link (h : w.Plain) (t : LinkId) : (w.link t).IsPlain := by
  unfold World.link
  cases hl : w.links.get? t with
  | none => exact h.unknown
  | some l => exact h.links t l hl

/-- These calls are made and no others, and nothing becomes known that would protect a link. -/
structure Makes (cs : List Effect) (u v : World) : Prop where
  sources : v.sources = u.sources
  plain : u.Plain → v.Plain
  trace : v.trace = u.trace ++ cs

namespace Makes

theorem refl (w : World) : Makes [] w w := ⟨rfl, id, by simp⟩

theorem trans (h : Makes cs u v) (k : Makes ds v w) : Makes (cs ++ ds) u w :=
  ⟨k.sources.trans h.sources, fun hp => k.plain (h.plain hp), by rw [k.trace, h.trace, List.append_assoc]⟩

theorem since (h : Makes cs u v) : v.since u = cs := by
  rw [World.since, h.trace, List.drop_left]

theorem emit (w : World) (e : Effect) : Makes [e] w (w.emit e) :=
  ⟨rfl, fun h => ⟨h.unknown, h.links, h.upcoming⟩, rfl⟩

theorem draw (w : World) : Makes [] w w.draw.1 :=
  ⟨rfl, fun h => ⟨h.unknown, h.links, h.upcoming⟩, by simp [World.draw]⟩

theorem sendElements (w : World) (id : LinkId) (es : List Xml.Element) :
    Makes (es.map fun e => .send id (.element e)) w (w.sendElements id es) := by
  induction es generalizing w with
  | nil => exact .refl w
  | cons e es ih => exact (emit w _).trans (ih _)

theorem connect (w : World) (route : Route) (address : Candidate) (timeout : Nat) :
    Makes [.connect (w.sources.linkId w.opened) route address timeout] w (w.connect route address timeout).1 := by
  refine ⟨rfl, fun h => ⟨h.unknown, fun t l hl => ?_, fun l hl => h.upcoming l (List.mem_of_mem_tail hl)⟩, rfl⟩
  have hl : (w.links.insert (w.sources.linkId w.opened) (w.upcoming.headD w.unknown)).get? t = some l := hl
  rw [Table.get?_insert] at hl
  split at hl
  · cases hl
    cases hu : w.upcoming with
    | nil => exact h.unknown
    | cons l ls => exact h.upcoming l (by simp [hu])
  · exact h.links t l hl

end Makes

end World

/-- The header that the gateway sends for a route. -/
def Setup.headerFor (setup : Setup) (route : Route) : Stream.Header where
  recipient := route.destination
  sender := route.source
  version := if (setup.policy.lookup route.destination).version = .disabled then none else some "1.0"
  dialback := if (setup.policy.lookup route.destination).auth = .saslOnly then none else some Xml.Namespace.dialback
  loopToken := setup.signer.loopToken

/-- What a negotiation is for: its route and its link, whether a request is wanted, and what waits for it. -/
structure Load where
  route : Route
  link : LinkId
  request : Request
  verifies : List Xml.Element := []
  stanzas : List Xml.Element := []

/-- The load of the first element for a route. A verify request needs no permission. -/
def Load.first (route : Route) (link : LinkId) (e : Xml.Element) : Load :=
  if Dialback.isVerify e then { route, link, request := .notRequested, verifies := [e] }
  else { route, link, request := .wantRequest, stanzas := [e] }

section First

variable {r : Route} {t : LinkId} {e : Xml.Element}

theorem Load.first_verify (h : Dialback.isVerify e = true) :
    first r t e = { route := r, link := t, request := .notRequested, verifies := [e] } := by
  simp [first, h]

theorem Load.first_stanza (h : Dialback.isVerify e = false) :
    first r t e = { route := r, link := t, request := .wantRequest, stanzas := [e] } := by
  simp [first, h]

end First

namespace Negotiation

variable {n : Negotiation}

def load (n : Negotiation) : Load := ⟨n.route, n.link, n.request, n.verifies, n.stanzas⟩

theorem onElement_of_result {setup : Setup} {w : World} {e : Xml.Element}
    (h : e.is "result" Xml.Namespace.dialback = true) : n.onElement setup w e = n.onResult w e := by
  have hn : e.name = "result" ∧ e.ns = Xml.Namespace.dialback := by simpa [Xml.Element.is] using h
  simp [onElement, Xml.Element.is, hn]

/-- The header depends on the route alone. -/
theorem header_eq (n : Negotiation) (setup : Setup) : n.header setup = setup.headerFor n.route := rfl

end Negotiation

namespace Gateway

variable {g g' : Gateway} {r : Route} {n : Negotiation} {load : Load} {stage : Stage} {id : Option String}

/-- Nothing is known of a route, nor of a way to its destination. -/
structure Unconnected (g : Gateway) (r : Route) : Prop where
  route : g.routes.get? r = none
  negotiation : g.negotiations.get? r = none
  address : g.addresses.get? r.destination = none

/-- The negotiation is the one for its route, which has none yet. -/
structure Negotiating (g : Gateway) (n : Negotiation) : Prop where
  found : g.negotiations.get? n.route = some n
  attempt : g.attempts.get? n.link = some n.route
  unrouted : g.routes.get? n.route = none

/-- A negotiation with this load has come to a stage, on a stream with this id. -/
def Waits (g : Gateway) (load : Load) (stage : Stage) (id : Option String) : Prop :=
  ∃ n, g.Negotiating n ∧ n.load = load ∧ n.stage = stage ∧ n.streamId = id

theorem Unconnected.of_keepsOutbound (h : g.Unconnected r) (k : KeepsOutbound g g') : g'.Unconnected r :=
  ⟨k.routes ▸ h.route, k.negotiations ▸ h.negotiation, k.addresses ▸ h.address⟩

theorem Waits.of_keepsOutbound (h : g.Waits load stage id) (k : KeepsOutbound g g') : g'.Waits load stage id := by
  obtain ⟨n, hn, rest⟩ := h
  exact ⟨n, ⟨k.negotiations ▸ hn.found, k.attempts ▸ hn.attempt, k.routes ▸ hn.unrouted⟩, rest⟩

theorem Carries.of_keepsOutbound {t : LinkId} (h : g.Carries r t) (k : KeepsOutbound g g') : g'.Carries r t := by
  rwa [Carries, k.routes]

/-- A step on a stream that the gateway opens: it makes these calls and leaves the streams of peers alone. -/
structure Outward (g : Gateway) (cs : List Effect) (g' : Gateway) : Prop where
  makes : g.world.Makes cs g'.world
  keeps : KeepsInbound g g'

theorem Outward.refl (g : Gateway) : g.Outward [] g := ⟨.refl _, .refl _⟩

/-- A step on the stream of a peer: it makes these calls and leaves the gateway's own streams alone. -/
structure Inward (g : Gateway) (cs : List Effect) (g' : Gateway) : Prop where
  makes : g.world.Makes cs g'.world
  keeps : KeepsOutbound g g'

namespace Negotiating

variable {m : Negotiation} {w : World} {cs : List Effect}

/-- A negotiation that goes on is still the one for its route. -/
theorem set (h : g.Negotiating n) (route : m.route = n.route) (link : m.link = n.link) (hw : g.world.Makes cs w) :
    g.Outward cs (g.setNegotiation m w) ∧ (g.setNegotiation m w).Waits m.load m.stage m.streamId := by
  refine ⟨⟨hw, ⟨rfl, rfl, rfl, rfl⟩⟩, m, ⟨by simp [setNegotiation, Table.get?_insert], ?_, ?_⟩, rfl, rfl, rfl⟩
  · rw [link, route]
    exact h.attempt
  · rw [route]
    exact h.unrouted

theorem onOutbound_eq (h : g.Negotiating n) (event : LinkEvent) :
    g.onOutbound n.link event = g.onAttempt n event := by
  simp only [onOutbound, h.attempt, h.found]

end Negotiating

namespace Waits

/-- The link is there: the header goes out on it. -/
theorem connected (h : g.Waits load .connecting id) :
    g.Outward [.send load.link (.header (g.setup.headerFor load.route))] (g.onOutbound load.link .connected) ∧
      (g.onOutbound load.link .connected).Waits load .connected id := by
  obtain ⟨n, hn, rfl, hs, rfl⟩ := h
  have turn : g.onOutbound n.link .connected = g.setNegotiation { n.note "Connected" with stage := .connected }
      (g.world.send n.link (.header (g.setup.headerFor n.route))) := by
    rw [hn.onOutbound_eq]
    simp only [onAttempt, Negotiation.onConnected, hs, ← n.header_eq g.setup]
    rfl
  exact turn ▸ hn.set (m := { n.note "Connected" with stage := .connected }) rfl rfl (.emit _ _)

/-- The header of a peer that speaks XMPP 1.0 is accepted. -/
theorem header (h : g.Waits load .connected id) {header : Stream.Header} {c : String} (hid : header.id = some c)
    (hc : c ≠ "") (other : g.challenges.contains c = false) (version : 1 ≤ header.majorVersion) :
    g.Outward [] (g.onOutbound load.link (.header header)) ∧
      (g.onOutbound load.link (.header header)).Waits load .awaitingFeatures (some c) := by
  obtain ⟨n, hn, rfl, hs, rfl⟩ := h
  let m : Negotiation := { n with stage := .awaitingFeatures, streamId := some c, version := header.majorVersion }
  have turn : g.onOutbound n.link (.header header) = g.setNegotiation m g.world := by
    rw [hn.onOutbound_eq]
    have hf : header.id.filter (· ≠ "") = some c := by simp [hid, hc, Option.filter]
    simp only [onAttempt, Negotiation.onHeader, hf, other, hs, Negotiation.onAccepted]
    simp [version]
    rfl
  exact turn ▸ hn.set (m := m) rfl rfl (.refl _)

section Features

variable {c : String} (plain : g.world.Plain)
  (permits : g.setup.policy.check load.route.destination .dialback 0 = .ok ())
include plain permits

/-- Features that offer nothing leave dialback, and the policy accepts that. -/
theorem onFeatures_eq (hn : g.Negotiating n) (hl : n.load = load) (hs : n.stage = .awaitingFeatures) :
    g.onOutbound n.link (.element (Protocol.features false false)) =
      g.follow ({ n with stage := .gotFeatures }.becomeReady g.setup g.world) := by
  have is_features : (Protocol.features false false).is "features" Xml.Namespace.stream = true := by decide
  have no_tls : Protocol.offersStartTls (Protocol.features false false) = false := by decide
  have no_sasl : Protocol.offersExternal (Protocol.features false false) = false := by decide
  have ok : g.setup.policy.check n.route.destination .dialback 0 = .ok () := by
    subst hl
    exact permits
  rw [hn.onOutbound_eq]
  simp [onAttempt, Negotiation.onElement, is_features, Negotiation.onFeatures, hs, no_tls, no_sasl,
    Negotiation.underPolicy, (plain.link n.link).1, ok]

/-- The features of the peer are there: a request that is wanted goes out. -/
theorem features_asks (h : g.Waits load .awaitingFeatures (some c)) (wants : load.request = .wantRequest)
    (none : load.verifies = []) :
    g.Outward [.send load.link (.element (g.setup.requestFor load.route c))]
        (g.onOutbound load.link (.element (Protocol.features false false))) ∧
      (g.onOutbound load.link (.element (Protocol.features false false))).Waits { load with request := .sentRequest }
        .sentRequest (some c) := by
  obtain ⟨n, hn, rfl, hs, hi⟩ := h
  have hr : n.request = .wantRequest := wants
  have hv : n.verifies = [] := none
  let m : Negotiation :=
    { n with stage := .sentRequest, request := .sentRequest, ready := true, streamId := some c, verifies := [] }
  have turn : g.onOutbound n.link (.element (Protocol.features false false)) =
      g.setNegotiation m (g.world.sendElement n.link (g.setup.requestFor n.route c)) := by
    rw [onFeatures_eq plain permits hn rfl hs]
    simp only [Negotiation.becomeReady, hr, Negotiation.sendRequest, hi, hv]
    rfl
  obtain ⟨made, waits⟩ := hn.set (m := m) rfl rfl
    (.emit g.world (.send n.link (.element (g.setup.requestFor n.route c))))
  have hm : m.load = { n.load with request := .sentRequest } := by simp [m, Negotiation.load, hv, Negotiation.stanzas]
  exact turn ▸ ⟨made, hm ▸ waits⟩

/-- The features of the peer are there: no request is wanted, but the verify requests that waited go out. -/
theorem features_flushes (h : g.Waits load .awaitingFeatures id) (unasked : load.request = .notRequested) :
    g.Outward (load.verifies.map fun v => .send load.link (.element v))
        (g.onOutbound load.link (.element (Protocol.features false false))) ∧
      (g.onOutbound load.link (.element (Protocol.features false false))).Waits
        { load with request := .couldRequest, verifies := [] } .gotFeatures id := by
  obtain ⟨n, hn, rfl, hs, rfl⟩ := h
  have hr : n.request = .notRequested := unasked
  let m : Negotiation := { n with stage := .gotFeatures, request := .couldRequest, ready := true, verifies := [] }
  have turn : g.onOutbound n.link (.element (Protocol.features false false)) =
      g.setNegotiation m (g.world.sendElements n.link n.verifies) := by
    rw [onFeatures_eq plain permits hn rfl hs]
    simp only [Negotiation.becomeReady, hr]
    rfl
  exact turn ▸ hn.set (m := m) rfl rfl (.sendElements g.world n.link n.verifies)

end Features

/-- The request is granted: the route begins, and the stanzas that waited go out on it. -/
theorem result (h : g.Waits load .sentRequest id) (requested : load.request = .sentRequest)
    (none : load.verifies = [])
    (destination : Jid.parseDomain load.route.destination = .ok load.route.destination)
    (source : Jid.parseDomain load.route.source = .ok load.route.source) :
    let e := Dialback.resultReply load.route.source load.route.destination true
    g.Outward (load.stanzas.map (fun e => .send load.link (.element e)) ++ [.routeUp load.route.destination])
        (g.onOutbound load.link (.element e)) ∧
      (g.onOutbound load.link (.element e)).Carries load.route load.link := by
  obtain ⟨n, hn, rfl, hs, rfl⟩ := h
  intro e
  have hr : n.request = .sentRequest := requested
  have hv : n.verifies = [] := none
  have answer := Dialback.ofElement_resultReply source destination true
  let m : Negotiation := { n with stage := .dialbackSucceeded, request := .sentRequest }
  have turn : g.onOutbound n.link (.element e) = (g.setNegotiation m g.world).establish n.route := by
    have answers : (Dialback.ofElement e).toOption.filter (Negotiation.isAnswerTo n.route) =
        some ⟨n.route.source, n.route.destination, Option.none, some (Dialback.verdict true), ""⟩ := by
      rw [answer]
      simp [Except.toOption, Option.filter, Negotiation.isAnswerTo, Negotiation.load]
    have granted : n.onResult g.world e = ⟨m, g.world, .authorize⟩ := by
      simp only [Negotiation.onResult, hr, hs, answers]
      rfl
    rw [hn.onOutbound_eq]
    simp only [onAttempt, Negotiation.onElement_of_result (e := e) (by rfl), granted]
    rfl
  have hset : (g.setNegotiation m g.world).negotiations.get? n.route = some m := by
    simp [setNegotiation, Table.get?_insert, m]
  have keeps : KeepsInbound g (g.setNegotiation m g.world) := ⟨rfl, rfl, rfl, rfl⟩
  obtain ⟨carrier, hl, routes⟩ := establish_routes hset
  rw [show g.onOutbound n.load.link (.element e) = _ from turn]
  refine ⟨⟨?_, keeps.trans (establish_keepsInbound _ _)⟩, carrier, by simp [routes, Negotiation.load], hl⟩
  have written := World.Makes.sendElements g.world n.link n.stanzas
  rw [establish_world hset hn.unrouted, show m.verifies = [] from hv]
  exact written.trans (.emit _ _)

end Waits

theorem submit_of_goesTo {e : Xml.Element} (h : GoesTo e r) (resolved : Option String) :
    g.submit e resolved = g.submitOn r e resolved := by
  obtain ⟨a, ha, rfl⟩ := h
  simp only [submit, ha]

/-- The first element for a route opens a link for it and waits there. -/
theorem Unconnected.submit (h : g.Unconnected r) {e : Xml.Element} (goes : GoesTo e r) {address : String}
    (usable : Candidate.parseList g.setup.settings.defaultPort address ≠ []) :
    let t := g.world.sources.linkId g.world.opened
    ∃ first timeout, g.Outward [.connect t r first timeout] (g.submit e (some address)).1 ∧
      (g.submit e (some address)).1.Waits (.first r t e) .connecting none := by
  intro t
  obtain ⟨first, remaining, hc⟩ := List.exists_cons_of_ne_nil usable
  have hcand : g.candidates r (some address) = first :: remaining := hc
  let w := (g.world.connect r first g.setup.settings.connectTimeout).1
  have opened (n m : Negotiation) (hn : n.route = r ∧ n.link = t) (hm : m.route = r ∧ m.link = t) :
      g.Outward [.connect t r first g.setup.settings.connectTimeout] ((g.putNegotiation n w).setNegotiation m w) ∧
        ((g.putNegotiation n w).setNegotiation m w).Waits m.load m.stage m.streamId := by
    refine ⟨⟨.connect _ _ _ _, ⟨rfl, rfl, rfl, rfl⟩⟩, m, ⟨?_, ?_, ?_⟩, rfl, rfl, rfl⟩
    · simp [setNegotiation, Table.get?_insert]
    · simp [setNegotiation, putNegotiation, Table.get?_insert, hn, hm]
    · simpa [setNegotiation, putNegotiation, hm] using h.route
  refine ⟨first, g.setup.settings.connectTimeout, ?_⟩
  rw [submit_of_goesTo goes]
  simp only [submitOn, h.route, h.negotiation, hcand, Negotiation.start?]
  cases hv : Dialback.isVerify e with
  | true =>
    simp only [hold, hv, if_true]
    rw [Load.first_verify hv]
    exact opened _ { Negotiation.fresh r .notRequested first remaining t w.now with verifies := [e] } ⟨rfl, rfl⟩
      ⟨rfl, rfl⟩
  | false =>
    simp only [hold, hv]
    rw [Load.first_stanza hv]
    exact opened _ ((Negotiation.fresh r .wantRequest first remaining t w.now).enqueue e w.now) ⟨rfl, rfl⟩ ⟨rfl, rfl⟩

/-- A stanza for a route that is negotiated waits there. -/
theorem Waits.submit (h : g.Waits load stage id) (asked : load.request = .wantRequest ∨ load.request = .sentRequest)
    {e : Xml.Element} (goes : GoesTo e load.route) (plain : Dialback.isVerify e = false) (resolved : Option String) :
    g.Outward [] (g.submit e resolved).1 ∧
      (g.submit e resolved).1.Waits { load with stanzas := load.stanzas ++ [e] } stage id := by
  obtain ⟨n, hn, rfl, rfl, rfl⟩ := h
  have want : n.want g.setup g.world = (n, g.world) := by
    rcases asked with h | h
    · rw [Negotiation.want, show n.request = .wantRequest from h]
    · rw [Negotiation.want, show n.request = .sentRequest from h]
  have step : (g.submit e resolved).1 = (g.setNegotiation n g.world).setNegotiation (n.enqueue e g.now) g.world := by
    rw [submit_of_goesTo goes]
    simp only [submitOn, Negotiation.load, hn.unrouted, hn.found, plain, want, hold]
    rfl
  have hl : (n.enqueue e g.now).load = { n.load with stanzas := n.load.stanzas ++ [e] } := by
    simp [Negotiation.load, Negotiation.enqueue, Negotiation.stanzas]
  rw [step, ← hl]
  have set : (g.setNegotiation n g.world).Negotiating n :=
    ⟨by simp [setNegotiation, Table.get?_insert], hn.attempt, hn.unrouted⟩
  have next := set.set (m := n.enqueue e g.now) rfl rfl (.refl g.world)
  exact ⟨⟨.refl _, (setNegotiation_keepsInbound _ _ _).trans next.1.keeps⟩, next.2⟩

/-- A stanza for a route goes out on it. -/
theorem Carries.submit {t : LinkId} (h : g.Carries r t) {e : Xml.Element} (goes : GoesTo e r)
    (resolved : Option String) :
    g.Outward [.send t (.element e)] (g.submit e resolved).1 ∧ (g.submit e resolved).1.Carries r t := by
  obtain ⟨c, hc, rfl⟩ := h
  rw [submit_of_goesTo goes]
  simp only [submitOn, hc]
  refine ⟨⟨.emit _ _, rfl, rfl, rfl, rfl⟩, c.carry g.now, ?_, rfl⟩
  simp [Registry.get?_modify, hc]

variable {t : LinkId} {s : Session} {k : Claim} {ks : List Claim}

/-- No peer has opened a stream, but for one on the link perhaps that has not sent its header. -/
structure Expects (g : Gateway) (t : LinkId) : Prop where
  stream : ∀ stream, g.streams.get? t = some stream → stream.phase = .awaitingHeader ∧ stream.identity = none
  challenge : ∀ x, g.challenges.get? x = none
  admission : ∀ k, g.admissions.get? k = none

/-- The stream of a peer is open, under the challenge of a header that was written there. -/
structure Streaming (g : Gateway) (t : LinkId) (s : Session) : Prop where
  session : g.sessionOn t = some s
  issued : ∃ header : Stream.Header, .send t (.header header) ∈ g.world.trace ∧ header.id = some s.challenge

/-- These claims are made on the stream of a peer; no other has a challenge, and none is admitted. -/
structure Talks (g : Gateway) (t : LinkId) (s : Session) (ks : List Claim) : Prop extends g.Streaming t s where
  challenge : ∃ c, g.challenges.get? s.challenge = some c ∧ c.link = t ∧ c.claims = ks
  only : ∀ x, x ≠ s.challenge → g.challenges.get? x = none
  admission : ∀ k, g.admissions.get? k = none

/-- The stream of a peer is admitted for a claim. -/
structure Serves (g : Gateway) (t : LinkId) (s : Session) (k : Claim) : Prop extends g.Streaming t s where
  admission : ∃ c, g.admissions.get? k = some c ∧ c.link = t

theorem KeepsInbound.sessionOn_eq (k : KeepsInbound g g') (t : LinkId) : g'.sessionOn t = g.sessionOn t := by
  rw [sessionOn, sessionOn, k.streams]

theorem Expects.of_keepsInbound (h : g.Expects t) (k : KeepsInbound g g') : g'.Expects t :=
  ⟨k.streams ▸ h.stream, k.challenges ▸ h.challenge, k.admissions ▸ h.admission⟩

theorem Streaming.makes {cs : List Effect} (h : g.Streaming t s) (made : g.world.Makes cs g'.world)
    (session : g'.sessionOn t = g.sessionOn t) : g'.Streaming t s := by
  obtain ⟨header, sent, id⟩ := h.issued
  exact ⟨session.trans h.session, header, made.trace ▸ List.mem_append_left _ sent, id⟩

theorem Talks.outward {cs : List Effect} (h : g.Talks t s ks) (out : g.Outward cs g') : g'.Talks t s ks :=
  ⟨h.toStreaming.makes out.makes (out.keeps.sessionOn_eq t), out.keeps.challenges ▸ h.challenge,
    out.keeps.challenges ▸ h.only, out.keeps.admissions ▸ h.admission⟩

theorem Serves.outward {cs : List Effect} (h : g.Serves t s k) (out : g.Outward cs g') : g'.Serves t s k :=
  ⟨h.toStreaming.makes out.makes (out.keeps.sessionOn_eq t), out.keeps.admissions ▸ h.admission⟩

namespace Expects

theorem openStream (h : g.Expects t) : g.Inward [] (g.openStream t) ∧ (g.openStream t).Expects t ∧
    ∃ stream, (g.openStream t).streams.get? t = some stream := by
  have keeps := g.openStream_keepsOutbound t
  unfold Gateway.openStream at keeps ⊢
  split
  · rename_i hc
    exact ⟨⟨.refl _, .refl g⟩, h, Table.contains_iff.mp hc⟩
  · rename_i hc
    rw [if_neg hc] at keeps
    refine ⟨⟨.refl _, keeps⟩, ⟨fun stream hs => ?_, h.challenge, h.admission⟩, { since := g.now }, ?_⟩
    · simp only [Table.get?_insert, if_true, Option.some.injEq] at hs
      simp [← hs]
    · simp [Table.get?_insert]

theorem connected (h : g.Expects t) :
    g.Inward [] (g.onInbound t .connected) ∧ (g.onInbound t .connected).Expects t :=
  ⟨h.openStream.1, h.openStream.2.1⟩

/-- A header that is accepted with nothing on offer is answered with a challenge. -/
theorem header (h : g.Expects t) {header reply : Stream.Header} {host : String} {peer : Option String}
    (greeting : g.setup.greet (g.world.link t) false header = .accepted reply host peer 1 ⟨false, false⟩) :
    let c := g.world.sources.token g.world.drawn
    g.Inward [.send t (.header { reply with id := some c }), .send t (.element (Protocol.features false false))]
        (g.onInbound t (.header header)) ∧
      (g.onInbound t (.header header)).Talks t ⟨c, host, peer, 1⟩ [] := by
  intro c
  obtain ⟨opened, awaits, stream, hs⟩ := h.openStream
  have hid : (g.openStream t).identityOn t = none := by simp [identityOn, hs, (awaits.stream _ hs).2]
  have step : g.onInbound t (.header header) = (g.openStream t).acceptStream t reply host peer 1 ⟨false, false⟩ := by
    simp only [onInbound, onHeader, hid, g.openStream_setup, g.openStream_world]
    simp only [Option.isSome_none, greeting]
  have eq := (g.openStream t).acceptStream_eq t reply host peer 1 ⟨false, false⟩
  simp only [Gateway.challenge, hid, welcome, g.openStream_world, Nat.le_refl, if_true,
    show g.world.draw.2 = c from rfl] at eq
  rw [step, eq]
  have drawn : g.world.Makes _ _ := (World.Makes.draw g.world).trans
    ((World.Makes.emit _ (.send t (.header { reply with id := some c }))).trans
      (World.Makes.emit _ (.send t (.element (Protocol.features false false)))))
  refine ⟨⟨drawn, opened.keeps.trans ⟨rfl, rfl, rfl, rfl, rfl, rfl⟩⟩, ⟨?_, { reply with id := some c }, ?_, rfl⟩, ?_,
    fun x hx => ?_, awaits.admission⟩
  · simp [sessionOn, enterPhase, act, Table.get?_modify, hs, Phase.session?]
  · exact drawn.trace ▸ List.mem_append_right _ (by simp)
  · exact ⟨⟨t, peer, host, 1, [], (g.openStream t).now⟩, by simp [enterPhase, act, Table.get?_insert], rfl, rfl⟩
  · simpa [enterPhase, act, Table.get?_insert, show x ≠ c from hx] using awaits.challenge x

end Expects

theorem onInbound_element (h : g.sessionOn t = some s) (e : Xml.Element) :
    g.onInbound t (.element e) = g.onStreaming t s e := by
  obtain ⟨stream, hs, hp⟩ := sessionOn_eq_some h
  simp only [onInbound, onElement, hs, hp]

namespace Talks

/-- A request for a claim opens it, and the router is asked to find its authority. -/
theorem result (h : g.Talks t s []) {a b : String} (ha : Jid.parseDomain a = .ok a) (hb : Jid.parseDomain b = .ok b)
    (unknown : g.Unconnected ⟨a, b⟩) (key : String) :
    let k : Claim := ⟨s.challenge, b, a⟩
    g.Inward [.deliver (k.inquiry (Text.trim key))] (g.onInbound t (.element (Dialback.result b a key))) ∧
      (g.onInbound t (.element (Dialback.result b a key))).Talks t s [k] := by
  intro k
  obtain ⟨c, hc, hl, hcs⟩ := h.challenge
  have named : (Dialback.result b a key).name = "result" ∧ (Dialback.result b a key).ns = Xml.Namespace.dialback := by
    simp [Dialback.result]
  have here : g.challenges.contains s.challenge = true := Table.contains_iff.mpr ⟨c, hc⟩
  have claimed : g.onInbound t (.element (Dialback.result b a key)) =
      (g.openClaim k).dispatchVerify k.route (k.inquiry (Text.trim key)) := by
    rw [onInbound_element h.session]
    simp [onStreaming, Dialback.isVerify, Xml.Element.is, named, onClaim, Dialback.ofElement_result hb ha key,
      Dialback.isReply, here]
    rfl
  have step : g.onInbound t (.element (Dialback.result b a key)) =
      (g.openClaim k).emit (.deliver (k.inquiry (Text.trim key))) := by
    have unrouted : g.routes.contains k.route = false := Table.contains_eq_false.mpr unknown.route
    have free : g.negotiations.contains k.route = false := Table.contains_eq_false.mpr unknown.negotiation
    have nowhere : g.addresses.get? k.route.destination = none := unknown.address
    rw [claimed]
    simp [dispatchVerify, openClaim, unrouted, free, cachedAddress?, nowhere]
  rw [step]
  refine ⟨⟨.emit _ _, ⟨rfl, rfl, rfl, rfl, rfl, rfl⟩⟩, h.toStreaming.makes (.emit _ _) rfl, ?_, fun x hx => ?_,
    h.admission⟩
  · refine ⟨{ c with claims := c.claims.insert k }, ?_, hl, by simp [hcs]⟩
    simp [openClaim, emit, act, Table.get?_modify, hc, k]
  · simp [openClaim, emit, act, Table.get?_modify, hx, h.only x hx, k]

/-- A request that asks about a key is answered on the stream, and nothing else happens. -/
theorem verify (h : g.sessionOn t = some s) {k : Claim} (source : Jid.parseDomain k.source = .ok k.source)
    (destination : Jid.parseDomain k.destination = .ok k.destination) (key : String) :
    let valid : Bool := g.setup.signer.key k.destination k.source k.challenge = Text.trim key
    g.Inward [.send t (.element (Dialback.verifyReply k.destination k.source k.challenge valid))]
        (g.onInbound t (.element (k.inquiry key))) ∧
      KeepsInbound g (g.onInbound t (.element (k.inquiry key))) := by
  intro valid
  have hv : Dialback.isVerify (k.inquiry key) = true := Dialback.isVerify_verify ..
  have step : g.onInbound t (.element (k.inquiry key)) = g.act (·.sendElement t
      (Dialback.verifyReply k.destination k.source k.challenge valid)) := by
    rw [onInbound_element h]
    simp only [onStreaming, Dialback.not_is_of_isVerify hv "error" _ (by decide),
      Dialback.not_is_of_isVerify hv "starttls" _ (by decide), Dialback.not_is_of_isVerify hv "auth" _ (by decide),
      hv]
    simp [onVerify, Claim.inquiry, Dialback.ofElement_verify source destination, Dialback.isReply, knowsKey, valid]
  rw [step]
  exact ⟨⟨.emit _ _, g.act_keepsOutbound _⟩, g.act_keepsInbound _⟩

theorem authorize_world (h : g.admissions.get? k = none) (t : LinkId) : (g.authorize k t).world = g.world := by
  simp [authorize, setAdmissions, Registry.notices_register _ h, noticeAdmission]

/-- A reply that vouches for an open claim admits it, if the policy accepts its stream as it is. -/
theorem vouched (h : g.Talks t s [k]) (hk : k.challenge = s.challenge) (waits : g.Waits load stage id)
    (source : Jid.parseDomain k.source = .ok k.source)
    (destination : Jid.parseDomain k.destination = .ok k.destination)
    (permits : g.setup.policy.check k.source .dialback 0 = .ok ()) (plain : g.world.Plain) :
    let g' := g.onOutbound load.link (.element (Dialback.verifyReply k.destination k.source k.challenge true))
    g.world.Makes [.send t (.element (Dialback.resultReply k.source k.destination true))] g'.world ∧
      g'.setup = g.setup ∧ g'.Waits load stage id ∧ g'.Serves t s k := by
  intro g'
  obtain ⟨n, hn, rfl, rfl, rfl⟩ := waits
  let f := g.setNegotiation n g.world
  have isOpen : f.IsOpen k t := by
    obtain ⟨c, hc, hl, hcs⟩ := h.challenge
    exact ⟨c, hk ▸ hc, hl, by simp [hcs]⟩
  have admits : f.Admits k t := by
    rw [Admits, show (f.world.link t).level = 0 from (plain.link t).1]
    exact permits
  have decides : Dialback.Decides (Dialback.verifyReply k.destination k.source k.challenge true) k true :=
    ⟨_, Dialback.ofElement_verifyReply destination source _ _, rfl, rfl, rfl, rfl, rfl⟩
  have verifies : Dialback.isVerify (Dialback.verifyReply k.destination k.source k.challenge true) = true := rfl
  have step : g' = f.grant k t := by
    have turn : g' = f.onVerify n.link (Dialback.verifyReply k.destination k.source k.challenge true) := by
      refine (hn.onOutbound_eq _).trans ?_
      rw [onAttempt, Negotiation.onElement_of_isVerify n g.setup g.world verifies]
      rfl
    rw [turn, onVerify_of_decides decides, settle_of_isOpen isOpen admits]
  have unadmitted : (f.closeClaim k).admissions.get? k = none := h.admission k
  have world : (f.grant k t).world =
      g.world.emit (.send t (.element (Dialback.resultReply k.source k.destination true))) :=
    congrArg (World.emit · _) (authorize_world unadmitted t)
  have keeps : KeepsOutbound f (f.grant k t) := (f.closeClaim_keepsOutbound k).trans
    ((authorize_keepsOutbound _ k t).trans (sendResult_keepsOutbound _ _ _ _))
  have made : g.world.Makes [.send t (.element (Dialback.resultReply k.source k.destination true))]
      (f.grant k t).world := world ▸ .emit _ _
  have session : (f.grant k t).sessionOn t = g.sessionOn t := by
    rw [sessionOn, grant_streams]
    rfl
  rw [step]
  refine ⟨made, f.grant_setup k t, ?_, h.toStreaming.makes made session, _,
    (f.get?_grant k k t).trans (if_pos rfl), rfl⟩
  exact ((hn.set (m := n) rfl rfl (.refl g.world)).2).of_keepsOutbound keeps

end Talks

/-- A stanza between the domains that a stream is admitted for is delivered. -/
theorem Serves.stanza (h : g.Serves t s k) (hk : k.challenge = s.challenge) {e : Xml.Element}
    (goes : GoesTo e ⟨k.destination, k.source⟩) (server : e.ns = Xml.Namespace.server) :
    g.Inward [.deliver e] (g.onInbound t (.element e)) ∧ (g.onInbound t (.element e)).Serves t s k := by
  obtain ⟨c, hc, hl⟩ := h.admission
  obtain ⟨a, ha, hr⟩ := goes
  have hclaim : (⟨s.challenge, a.recipient, a.sender⟩ : Claim) = k := by
    obtain ⟨hd, hs⟩ : a.recipient = k.destination ∧ a.sender = k.source := by simpa [routeOf] using hr
    rw [← hk, hd, hs]
  have step : g.onInbound t (.element e) =
      { g with admissions := g.admissions.modify k (·.carry g.now) }.emit (.deliver e) := by
    have other (name ns : String) (hn : ns ≠ Xml.Namespace.server) : e.is name ns = false := by
      simp [Xml.Element.is, server, Ne.symm hn]
    rw [onInbound_element h.session]
    simp [onStreaming, other "error" Xml.Namespace.stream (by decide), other "starttls" Xml.Namespace.tls (by decide),
      other "auth" Xml.Namespace.sasl (by decide), other "result" Xml.Namespace.dialback (by decide),
      Dialback.isVerify, other "verify" Xml.Namespace.dialback (by decide), onStanza, ha, hclaim, hc, hl]
  rw [step]
  refine ⟨⟨.emit _ _, ⟨rfl, rfl, rfl, rfl, rfl, rfl⟩⟩, h.toStreaming.makes (.emit _ _) rfl, c.carry g.now, ?_, hl⟩
  simp [emit, act, Registry.get?_modify, hc]

end Gateway

end Interdomain
