import Interdomain.Proofs.Links

/-! How a negotiation comes to send its dialback request. It needs a stream that is ready, which the policy has
to permit, and the id of that stream; it sends no second request on the same link. -/
namespace Interdomain

open Protocol (Dialback)

namespace Protocol.Dialback

/-- The element has the name, and is directed to one domain by another. -/
structure Directed (e : Xml.Element) (name recipient sender : String) : Prop where
  name : e.name = name
  ns : e.ns = Xml.Namespace.dialback
  recipient : e.attribute? "to" = some recipient
  sender : e.attribute? "from" = some sender

/-- The element asks one domain to accept another, and shows it the key. -/
structure Shows (e : Xml.Element) (recipient sender key : String) : Prop
    extends Directed e "result" recipient sender where
  kind : e.attribute? "type" = none
  key : e.text = key

theorem result_shows (recipient sender key : String) : Shows (result recipient sender key) recipient sender key := by
  refine ⟨⟨?_, ?_, ?_, ?_⟩, ?_, Xml.Element.text_appendText rfl key⟩ <;> simp [result]

theorem verifyReply_directed (recipient sender id : String) (valid : Bool) :
    Directed (verifyReply recipient sender id valid) "verify" recipient sender := by
  constructor <;> simp [verifyReply]

end Protocol.Dialback

/-- The request that the gateway sends for a route on a stream with this id. -/
def Setup.requestFor (setup : Setup) (route : Route) (id : String) : Xml.Element :=
  Dialback.result route.destination route.source
    (setup.signer.key route.destination route.source id)

/-- The policy for the destination accepts dialback on the link as it is. -/
def Setup.Permits (setup : Setup) (w : World) (route : Route) (t : LinkId) : Prop :=
  setup.policy.check route.destination .dialback (w.link t).level = .ok ()

theorem isRequest_requestFor (setup : Setup) (route : Route) (id : String) :
    Protocol.isRequest (setup.requestFor route id) = true := by
  simp [Setup.requestFor, Dialback.result, Protocol.isRequest, Xml.Element.is]

namespace Negotiation

variable {allowed : Prop} (n : Negotiation) (setup : Setup) (w : World)

/-- A negotiation goes on to `m` and the world to `u`, on the same stream. The stream becomes ready only if that is
allowed, and a request is sent for the first time only on a stream that is ready and has an id. -/
structure Paces (allowed : Prop) (m : Negotiation) (u : World) : Prop where
  link : m.link = n.link
  streamId : m.streamId = n.streamId
  ready : m.ready = true → n.ready = true ∨ allowed
  elsewhere : ∀ t, t ≠ n.link → u.requests t = w.requests t
  request : (u.requests n.link = w.requests n.link ∧ (m.request = .sentRequest ↔ n.request = .sentRequest) ∧
      (m.stage = .sentRequest → n.stage = .sentRequest)) ∨
    n.request ≠ .sentRequest ∧ m.request = .sentRequest ∧ m.ready = true ∧ ∃ id, n.streamId = some id ∧
      u.requests n.link = w.requests n.link ++ [setup.requestFor n.route id]

/-- Nothing is said about the request. -/
theorem paces_of_plain {m : Negotiation} {u : World} (link : m.link = n.link)
    (streamId : m.streamId = n.streamId) (ready : m.ready = n.ready) (request : m.request = n.request)
    (stage : m.stage = .sentRequest → n.stage = .sentRequest) (hw : World.Grows CallKind.IsPlain w u) :
    n.Paces setup w allowed m u := by
  have hq := hw.requests_eq (by simp [CallKind.IsPlain])
  exact ⟨link, streamId, fun h => .inl (ready ▸ h), fun t _ => hq t, .inl ⟨hq _, by rw [request], stage⟩⟩

namespace Paces

variable {n : Negotiation} {setup : Setup} {w : World} {m : Negotiation} {u : World}

theorem mono (h : n.Paces setup w allowed m u) {p : Prop} (hi : allowed → p) :
    n.Paces setup w p m u :=
  ⟨h.link, h.streamId, fun hr => (h.ready hr).imp_right hi, h.elsewhere, h.request⟩

/-- What came before on the same stream was no progress, but for the stage perhaps. -/
theorem before (h : m.Paces setup w allowed k u) (link : m.link = n.link) (route : m.route = n.route)
    (streamId : m.streamId = n.streamId) (ready : m.ready = true → n.ready = true ∨ allowed)
    (request : m.request = n.request) (stage : m.stage = .sentRequest → n.stage = .sentRequest) :
    n.Paces setup w allowed k u := by
  refine ⟨h.link.trans link, h.streamId.trans streamId, ?_, fun t ht => h.elsewhere t (link ▸ ht), ?_⟩
  · intro hr
    rcases h.ready hr with hr | ha
    · exact ready hr
    · exact .inr ha
  · rw [← link, ← request, ← route, ← streamId]
    exact h.request.imp_left fun ⟨hq, hs, hg⟩ => ⟨hq, hs, fun h => stage (hg h)⟩

/-- What comes after is no progress, and no request. -/
theorem after (h : n.Paces setup w allowed m u) {k : Negotiation} {v : World}
    (hp : k.progress = m.progress) (hq : ∀ t, v.requests t = u.requests t) :
    n.Paces setup w allowed k v := by
  simp only [progress, Prod.mk.injEq] at hp
  obtain ⟨hl, hr, hs, hk, hg⟩ := hp
  refine ⟨hl.trans h.link, hs.trans h.streamId, fun hy => h.ready (hr ▸ hy), ?_, ?_⟩
  · exact fun t ht => (hq t).trans (h.elsewhere t ht)
  · rw [hq, hk, hr, hg]
    exact h.request

end Paces

theorem complain_paces (note : String) (condition : Stream.Condition) (text : String) :
    n.Paces setup w allowed (n.complain w note condition text).negotiation
      (n.complain w note condition text).world :=
  n.paces_of_plain setup w rfl rfl rfl rfl id (World.grows_fail _ _ CallKind.isPlain _)

/-- A turn under the policy makes the stream ready only if the policy permits it. -/
theorem underPolicy_paces {next : Turn} (h : n.Paces setup w True next.negotiation next.world) :
    n.Paces setup w (setup.Permits w n.route n.link) (n.underPolicy setup w .dialback next).negotiation
      (n.underPolicy setup w .dialback next).world := by
  unfold underPolicy
  split
  · rename_i hp
    exact h.mono fun _ => hp
  · exact n.paces_of_plain setup w rfl rfl rfl rfl id (World.grows_fail _ _ CallKind.isPlain _)

theorem sendRequest_paces (h : n.request ≠ .sentRequest) :
    n.Paces setup w False (n.sendRequest setup w).1 (n.sendRequest setup w).2 := by
  unfold sendRequest
  split
  · rename_i id hr hid
    refine ⟨rfl, rfl, fun h => .inl h, fun t ht => w.requests_sendElement_of_ne ht _, ?_⟩
    refine .inr ⟨h, rfl, hr, id, hid, ?_⟩
    rw [World.requests_sendElement, if_pos ⟨rfl, isRequest_requestFor setup n.route id⟩]
    rfl
  · exact ⟨rfl, rfl, fun h => .inl h, fun t _ => rfl, .inl ⟨rfl, by simp [h], id⟩⟩

theorem want_paces : n.Paces setup w False (n.want setup w).1 (n.want setup w).2 := by
  unfold want
  split
  · rename_i hr
    exact ⟨rfl, rfl, fun h => .inl h, fun t _ => rfl, .inl ⟨rfl, by simp [hr], id⟩⟩
  · rename_i hr
    exact n.sendRequest_paces setup w (by simp [hr])
  · exact n.paces_of_plain setup w rfl rfl rfl rfl id (.refl w)
  · exact n.paces_of_plain setup w rfl rfl rfl rfl id (.refl w)

theorem becomeReady_paces (hv : ∀ v ∈ n.verifies, Dialback.isVerify v = true) :
    n.Paces setup w True (n.becomeReady setup w).negotiation (n.becomeReady setup w).world := by
  have flush (m : Negotiation) (u : World) (hm : n.Paces setup w True m u)
      (he : m.verifies = n.verifies) :
      n.Paces setup w True { m with verifies := [] } (u.sendElements m.link m.verifies) := by
    have hw : World.Grows CallKind.IsPlain u (u.sendElements m.link m.verifies) :=
      World.grows_sendElements _ _ fun v h => CallKind.ofElement_verify (hv v (he ▸ h))
    exact hm.after rfl (hw.requests_eq (by simp [CallKind.IsPlain]))
  unfold becomeReady
  cases hr : n.request with
  | wantRequest =>
    have hs := { n with ready := true }.sendRequest_paces setup w (by simp [hr])
    have hm := hs.mono (p := True) fun _ => trivial
    exact flush _ _ (hm.before rfl rfl rfl (fun _ => .inr trivial) rfl id)
      ({ n with ready := true }.verifies_sendRequest setup w)
  | notRequested =>
    have hm : n.Paces setup w True { n with ready := true, request := .couldRequest } w :=
      ⟨rfl, rfl, fun _ => .inr trivial, fun _ _ => rfl, .inl ⟨rfl, by simp [hr], id⟩⟩
    simpa only [hr] using flush _ _ hm rfl
  | couldRequest =>
    have hm : n.Paces setup w True { n with ready := true } w :=
      ⟨rfl, rfl, fun _ => .inr trivial, fun _ _ => rfl, .inl ⟨rfl, .rfl, id⟩⟩
    simpa only [hr] using flush _ _ hm rfl
  | sentRequest =>
    have hm : n.Paces setup w True { n with ready := true } w :=
      ⟨rfl, rfl, fun _ => .inr trivial, fun _ _ => rfl, .inl ⟨rfl, .rfl, id⟩⟩
    simpa only [hr] using flush _ _ hm rfl

theorem onConnected_paces : n.Paces setup w allowed (n.onConnected setup w).negotiation
    (n.onConnected setup w).world := by
  have written (m : Negotiation) : World.Grows CallKind.IsPlain w (m.writeHeader setup w) :=
    World.grows_header _ _ CallKind.isPlain _
  unfold onConnected
  dsimp only
  split
  · exact n.paces_of_plain setup w rfl rfl rfl rfl id (written _)
  · split <;> exact n.paces_of_plain setup w rfl rfl rfl rfl (fun h => by cases h) (written _)

section Verifies

variable (hv : ∀ v ∈ n.verifies, Dialback.isVerify v = true)
include hv

theorem onAccepted_paces (header : Stream.Header) :
    n.Paces setup w (setup.Permits w n.route n.link) (n.onAccepted setup w header).negotiation
      (n.onAccepted setup w header).world := by
  unfold onAccepted
  split
  · unfold underPolicy
    split
    · exact n.paces_of_plain setup w rfl rfl rfl rfl id (.refl w)
    · exact n.paces_of_plain setup w rfl rfl rfl rfl id (World.grows_fail _ _ CallKind.isPlain _)
  · split
    · exact n.paces_of_plain setup w rfl rfl rfl rfl (fun h => by cases h) (.refl w)
    · split
      · exact n.complain_paces setup w _ _ _
      · exact n.underPolicy_paces setup w (n.becomeReady_paces setup w hv)

/-- A header gives the stream its id, if it is accepted, and goes on from there. -/
theorem onHeader_paces (header : Stream.Header) (isOwn : String → Bool) :
    ∃ m : Negotiation, (m.link = n.link ∧ m.route = n.route ∧ m.ready = n.ready ∧
        m.request = n.request ∧ m.stage ≠ .sentRequest) ∧
      m.Paces setup w (setup.Permits w n.route n.link) (n.onHeader setup w header isOwn).negotiation
        (n.onHeader setup w header isOwn).world ∧
      ((∃ id, header.id = some id ∧ id ≠ "" ∧ isOwn id = false ∧ m.streamId = some id) ∨
        m.streamId = n.streamId ∧ ∀ id, header.id = some id → id ≠ "" → isOwn id = true) := by
  obtain ⟨m, hm⟩ : ∃ m, m = if n.stage = .saslSucceeded then n else { n with stage := .gotHeader } :=
    ⟨_, rfl⟩
  have same : (m.link = n.link ∧ m.route = n.route ∧ m.ready = n.ready ∧ m.request = n.request ∧
      m.stage ≠ .sentRequest) ∧ m.streamId = n.streamId ∧ m.verifies = n.verifies := by
    rw [hm]
    split
    · rename_i hs
      exact ⟨⟨rfl, rfl, rfl, rfl, by simp [hs]⟩, rfl, rfl⟩
    · exact ⟨⟨rfl, rfl, rfl, rfl, by simp⟩, rfl, rfl⟩
  obtain ⟨hs, hid, hve⟩ := same
  unfold onHeader
  dsimp only
  rw [← hm]
  cases hi : header.id.filter (· ≠ "") with
  | none =>
    refine ⟨m, hs, m.complain_paces setup w _ _ _, .inr ⟨hid, ?_⟩⟩
    intro id h hne
    simp [h, hne] at hi
  | some id =>
    obtain ⟨h, hne⟩ := Option.filter_eq_some_iff.mp hi
    have hne : id ≠ "" := by simpa using hne
    dsimp only
    by_cases ho : isOwn id = true
    · rw [if_pos ho]
      refine ⟨m, hs, m.complain_paces setup w _ _ _, .inr ⟨hid, ?_⟩⟩
      intro x hx _
      rw [h] at hx
      cases hx
      exact ho
    · rw [if_neg ho]
      refine ⟨{ m with streamId := some id, version := header.majorVersion }, hs, ?_,
        .inl ⟨id, h, hne, by simpa using ho, rfl⟩⟩
      have ha := onAccepted_paces { m with streamId := some id, version := header.majorVersion } setup w
        (fun v h => hv v (hve ▸ h)) header
      rw [← hs.1, ← hs.2.1]
      exact ha

theorem onFeatures_paces (features : Xml.Element) :
    n.Paces setup w (setup.Permits w n.route n.link) (n.onFeatures setup w features).negotiation
      (n.onFeatures setup w features).world := by
  unfold onFeatures
  split
  · exact n.paces_of_plain setup w rfl rfl rfl rfl id (.refl w)
  · dsimp only
    split
    · exact n.paces_of_plain setup w rfl rfl rfl rfl (fun h => by cases h)
        (World.grows_sendElement _ _ (by simp [CallKind.IsPlain]))
    · split
      · exact n.paces_of_plain setup w rfl rfl rfl rfl (fun h => by cases h)
          (World.grows_sendElement _ _ (by simp [CallKind.IsPlain]))
      · have hp := underPolicy_paces { n with stage := .gotFeatures } setup w
          (becomeReady_paces { n with stage := .gotFeatures } setup w hv)
        exact hp.before rfl rfl rfl .inl rfl fun h => by cases h

omit hv in
theorem onTlsProceed_paces : n.Paces setup w allowed (n.onTlsProceed setup w).negotiation
    (n.onTlsProceed setup w).world := by
  have ht := World.grows_startTls w n.link CallKind.isPlain .client n.route.source
  unfold onTlsProceed
  dsimp only
  split
  · exact n.paces_of_plain setup w rfl rfl rfl rfl (fun h => by cases h) (ht.trans
      ((World.grows_reset _ _ CallKind.isPlain).trans (World.grows_header _ _ CallKind.isPlain _)))
  · exact n.paces_of_plain setup w rfl rfl rfl rfl id
      (ht.trans (World.grows_close _ _ CallKind.isPlain))

omit hv in
theorem onResult_paces (e : Xml.Element) :
    n.Paces setup w allowed (n.onResult w e).negotiation (n.onResult w e).world := by
  unfold onResult
  split
  · exact n.complain_paces setup w _ _ _
  · split
    · exact n.complain_paces setup w _ _ _
    · split
      · exact n.paces_of_plain setup w rfl rfl rfl rfl (fun h => by cases h) (.refl w)
      · exact n.paces_of_plain setup w rfl rfl rfl rfl (fun h => by cases h)
          (World.grows_finish _ _ CallKind.isPlain)

theorem onElement_paces (e : Xml.Element) :
    n.Paces setup w (setup.Permits w n.route n.link) (n.onElement setup w e).negotiation
      (n.onElement setup w e).world := by
  unfold onElement
  repeat' split
  · exact n.onFeatures_paces setup w hv e
  · exact n.paces_of_plain setup w rfl rfl rfl rfl id (World.grows_close _ _ CallKind.isPlain)
  · exact n.onTlsProceed_paces setup w
  · exact n.paces_of_plain setup w rfl rfl rfl rfl id (World.grows_finish _ _ CallKind.isPlain)
  · exact n.paces_of_plain setup w rfl rfl rfl rfl (fun h => by cases h)
      ((World.grows_reset _ _ CallKind.isPlain).trans (World.grows_header _ _ CallKind.isPlain _))
  · exact n.paces_of_plain setup w rfl rfl rfl rfl (fun h => by cases h)
      (World.grows_finish _ _ CallKind.isPlain)
  · exact n.onResult_paces setup w e
  · exact n.paces_of_plain setup w rfl rfl rfl rfl id (.refl w)
  · exact n.paces_of_plain setup w rfl rfl rfl rfl id (World.grows_fail _ _ CallKind.isPlain _)

end Verifies

end Negotiation

end Interdomain
