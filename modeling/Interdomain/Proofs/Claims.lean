import Interdomain.Proofs.Conservation

/-! How claims are settled as valid. The gateway hears verify elements on the streams of peers, on its
negotiations and on its routes; whoever sends it, an element that vouches for an open claim confirms it, and
nothing else does. -/
namespace Interdomain

open Protocol (Dialback)

namespace Gateway

variable {P : CallKind → Prop} {g g' : Gateway}

/-- The operation brings a verify element that the gateway looks at. -/
inductive Hears (g : Gateway) (e : Xml.Element) : Operation → Prop
  | peer {t s} (verify : Dialback.isVerify e = true) (session : g.sessionOn t = some s) :
      Hears g e (.inbound t (.element e))
  | negotiation {t r n} (verify : Dialback.isVerify e = true) (attempt : g.attempts.get? t = some r)
      (found : g.negotiations.get? r = some n) : Hears g e (.outbound t (.element e))
  | route {t r} (verify : Dialback.isVerify e = true) (free : g.attempts.get? t = none)
      (carried : g.carried.get? t = some r) : Hears g e (.outbound t (.element e))

/-- No claim is settled as valid: each that was open stays so, or no request is granted. -/
structure Withholds (g g' : Gateway) : Prop where
  fades : Fades (fun _ => True) g g'
  grants : g'.challenges = g.challenges ∨ World.Grows CallKind.IsUngranting g.world g'.world

theorem KeepsInbound.withholds (h : KeepsInbound g g') (hw : World.Grows P g.world g'.world) :
    Withholds g g' := ⟨h.fades (hw.mono fun _ _ => trivial), .inl h.challenges⟩

theorem Fades.withholds (h : Fades P g g') (hi : ∀ k, P k → CallKind.IsUngranting k) :
    Withholds g g' := ⟨h.mono fun _ _ => trivial, .inr (h.grows.mono hi)⟩

theorem setNegotiation_fades {n : Negotiation} {t : Turn} (ht : t.Serves n g.world) :
    Fades CallKind.IsUngranting g (g.setNegotiation t.negotiation t.world) :=
  (g.setNegotiation_keepsInbound _ _).fades (ht.grows.mono fun _ => CallKind.IsTurn.ungranting)

theorem retire_ungranting (g : Gateway) (route : Route) (linkGone : Bool) :
    Fades CallKind.IsUngranting g (g.retire route linkGone) :=
  (g.retire_fades route linkGone).mono fun _ => CallKind.IsReturn.ungranting

/-- What follows a turn grants nothing, unless the turn ends with a verify element. -/
theorem follow_withholds {n : Negotiation} {t : Turn} (ht : t.Serves n g.world)
    (hv : ∀ e, t.verdict ≠ .verify e) : Withholds g (g.follow t) := by
  have hs := setNegotiation_fades ht
  have hk := g.setNegotiation_keepsInbound t.negotiation t.world
  unfold follow
  dsimp only
  cases he : t.verdict with
  | proceed => exact hs.withholds fun _ => id
  | authorize =>
    exact (hk.trans (establish_keepsInbound _ _)).withholds (P := fun _ => True)
      ((hs.grows.mono fun _ _ => trivial).trans ((establish_grows _ _).mono fun _ _ => trivial))
  | giveUp => exact (hs.trans (retire_ungranting _ _ _)).withholds fun _ => id
  | verify e => exact absurd he (hv e)

theorem onAttemptClosed_fades (g : Gateway) (n : Negotiation) (error : Option String) :
    Fades CallKind.IsUngranting g (g.onAttemptClosed n error) := by
  have advanced (g : Gateway) (n : Negotiation) : Fades CallKind.IsUngranting g (g.advance n) := by
    unfold advance
    split
    · split
      · rename_i m w ha
        exact (putNegotiation_keepsInbound _ _ _).fades
          ((Negotiation.advance?_begins ha).1.grows.mono fun _ => CallKind.IsInquiry.ungranting)
      · exact retire_ungranting _ _ _
    · exact retire_ungranting _ _ _
  unfold onAttemptClosed
  refine Fades.trans ?_ (advanced _ _)
  exact KeepsInbound.fades ⟨rfl, rfl, rfl, rfl⟩ (.refl _)

/-- The gateway passes a verify element on to be looked at, with its streams of peers as they were. -/
def Reads (g : Gateway) (e : Xml.Element) (g' : Gateway) : Prop :=
  ∃ g₁ t, KeepsInbound g g₁ ∧ g₁.world = g.world ∧ g' = g₁.onVerify t e

theorem onAttempt_cases {n : Negotiation} (hv : ∀ v ∈ n.verifies, Dialback.isVerify v = true)
    (event : LinkEvent) : Withholds g (g.onAttempt n event) ∨
      ∃ e, event = .element e ∧ Dialback.isVerify e = true ∧ g.Reads e (g.onAttempt n event) := by
  cases event with
  | connected =>
    exact .inl (follow_withholds (n.onConnected_serves g.setup g.world) fun e h => by cases h)
  | header header =>
    refine .inl (follow_withholds (n.onHeader_serves g.setup g.world hv header _) fun e h => ?_)
    rcases n.onHeader_verdict g.setup g.world header g.challenges.contains with hp | hp <;>
      rw [hp] at h <;> cases h
  | element e =>
    have ht := n.onElement_serves g.setup g.world hv e
    rcases n.onElement_verdict g.setup g.world e with hp | hp | ⟨hp, _, _⟩ | ⟨hve, he⟩
    · exact .inl (follow_withholds ht fun e h => by rw [hp] at h; cases h)
    · exact .inl (follow_withholds ht fun e h => by rw [hp] at h; cases h)
    · exact .inl (follow_withholds ht fun e h => by rw [hp] at h; cases h)
    · refine .inr ⟨e, rfl, hve, g.setNegotiation n g.world, n.link,
        g.setNegotiation_keepsInbound _ _, rfl, ?_⟩
      simp only [onAttempt, he, follow]
  | closed error =>
    exact .inl ((g.onAttemptClosed_fades n error).withholds fun _ => id)

theorem onRoute_cases (g : Gateway) (route : Route) (link : LinkId) (event : LinkEvent) :
    Withholds g (g.onRoute route link event) ∨
      ∃ e, event = .element e ∧ Dialback.isVerify e = true ∧
        g.Reads e (g.onRoute route link event) := by
  have withheld {g' : Gateway} (h : Fades CallKind.IsPlain g g') : Withholds g g' :=
    h.withholds fun _ => CallKind.IsPlain.ungranting
  unfold onRoute
  split
  · exact .inl (withheld (.refl g))
  · exact .inl (withheld (.refl g))
  · exact .inl (withheld (g.dropRoute_fades route link))
  · rename_i e
    split
    · rename_i hv
      exact .inr ⟨e, rfl, hv, { g with routes := g.routes.modify route (·.carry g.now) }, link,
        ⟨rfl, rfl, rfl, rfl⟩, rfl, rfl⟩
    · split
      · exact .inl (withheld ((g.close_fades link).trans (dropRoute_fades _ _ _)))
      · exact .inl (withheld ((g.fail_fades link _).trans (dropRoute_fades _ _ _)))

/-- An event on an outbound link grants nothing, unless it brings a verify element. -/
theorem onOutbound_cases (ho : g.Orderly) (link : LinkId) (event : LinkEvent) :
    Withholds g (g.onOutbound link event) ∨
      ∃ e, g.Hears e (.outbound link event) ∧ g.Reads e (g.onOutbound link event) := by
  unfold onOutbound
  cases ha : g.attempts.get? link with
  | some route =>
    dsimp only
    cases hn : g.negotiations.get? route with
    | some n =>
      rcases onAttempt_cases (g := g) (ho.verifies _ n hn) event with h | ⟨e, rfl, hv, h⟩
      · exact .inl h
      · exact .inr ⟨e, .negotiation hv ha hn, h⟩
    | none => exact .inl (KeepsInbound.withholds (P := fun _ => True) ⟨rfl, rfl, rfl, rfl⟩ (.refl _))
  | none =>
    dsimp only
    cases hc : g.carried.get? link with
    | some route =>
      rcases g.onRoute_cases route link event with h | ⟨e, rfl, hv, h⟩
      · exact .inl h
      · exact .inr ⟨e, .route hv ha hc, h⟩
    | none => exact .inl ((KeepsInbound.refl g).withholds (P := fun _ => True) (.refl _))

theorem dispatchVerify_fades (g : Gateway) (route : Route) {verify : Xml.Element}
    (hv : Dialback.isVerify verify = true) :
    Fades CallKind.IsUngranting g (g.dispatchVerify route verify) := by
  unfold dispatchVerify
  split
  · exact ((g.submit_step verify none).fades hv).mono fun _ => CallKind.IsInquiry.ungranting
  · exact g.act_fades (World.grows_emit _ (by simp [CallKind.IsUngranting, Effect.kind])
      (by simp [Effect.kind]))

/-- An operation that begins something on the stream of a peer, none of which grants a request. -/
inductive Begins (g : Gateway) : Operation → Gateway → Prop
  | asks {t e claim g'} (asks : g.Asks t e claim)
      (fades : Fades CallKind.IsUngranting (g.openClaim claim) g') : Begins g (.inbound t (.element e)) g'
  | proves {t s e identity} (session : g.sessionOn t = some s)
      (auth : e.is "auth" Xml.Namespace.sasl = true) (proof : g.provenIdentity t s e = .ok identity) :
      Begins g (.inbound t (.element e)) (g.identify t s identity)
  | accepts {t header reply host peer version offer g'}
      (greeting : g.setup.greet (g.world.link t) ((g.openStream t).identityOn t).isSome header =
        .accepted reply host peer version offer)
      (accepted : Accepted (g.openStream t) t host g') : Begins g (.inbound t (.header header)) g'

theorem identify_ungranting (g : Gateway) (t : LinkId) (s : Session) (identity : String) :
    World.Grows CallKind.IsUngranting g.world (g.identify t s identity).world :=
  (g.identify_grows t s identity).mono fun _ => CallKind.IsPlain.ungranting

theorem Begins.ungranting {op : Operation} (h : g.Begins op g') :
    World.Grows CallKind.IsUngranting g.world g'.world := by
  cases h with
  | asks _ fades => exact fades.grows
  | proves _ _ _ => exact identify_ungranting ..
  | @accepts t _ _ _ _ _ _ _ _ accepted =>
    have hw := (World.grows_draw (P := CallKind.IsPlain) _).trans accepted.grows
    rw [openStream_world] at hw
    exact hw.mono fun _ => CallKind.IsPlain.ungranting

/-- An operation grants nothing, brings a verify element, or begins something. -/
theorem step_cases (ho : g.Orderly) (op : Operation) :
    Withholds g (g.step op) ∨ (∃ e, g.Hears e op ∧ g.Reads e (g.step op)) ∨
      g.Begins op (g.step op) := by
  have ended {g' : Gateway} (h : Fades CallKind.IsPlain g g') : Withholds g g' :=
    h.withholds fun _ => CallKind.IsPlain.ungranting
  cases op with
  | submit stanza resolved =>
    rw [step_submit]
    have hs := g.submit_step stanza resolved
    by_cases hv : Dialback.isVerify stanza = true
    · exact .inl ((hs.fades hv).withholds fun _ => CallKind.IsInquiry.ungranting)
    · have hk := hs.keepsInbound (Bool.eq_false_iff.mpr hv)
      exact .inl (hk.withholds (P := fun _ => True) hs.grows)
  | inbound link event =>
    have hs := g.onInbound_step link event
    change Withholds g (g.onInbound link event) ∨
      (∃ e, g.Hears e _ ∧ g.Reads e (g.onInbound link event)) ∨ g.Begins _ (g.onInbound link event)
    generalize g.onInbound link event = g' at hs ⊢
    cases hs with
    | ends fades _ _ => exact .inl (ended fades)
    | legacy _ _ fades keeps =>
      exact .inl (fades.withholds fun _ h => by rw [h]; simp [CallKind.IsUngranting])
    | delivers _ _ _ _ fades keeps =>
      exact .inl (fades.withholds fun _ h => by rw [h]; simp [CallKind.IsUngranting])
    | hears session verify =>
      exact .inr (.inl ⟨_, .peer verify session, g, link, .refl g, rfl, rfl⟩)
    | asks asks _ =>
      exact .inr (.inr (.asks asks (dispatchVerify_fades _ _ (Dialback.isVerify_verify ..))))
    | proves session auth proof => exact .inr (.inr (.proves session auth proof))
    | accepts greeting => exact .inr (.inr (.accepts greeting (acceptStream_accepted ..)))
  | outbound link event =>
    rcases onOutbound_cases ho link event with h | h
    · exact .inl h
    · exact .inr (.inl h)
  | sweep ahead =>
    rw [step_sweep]
    exact .inl ((g.sweepAt_fades _).withholds fun _ => CallKind.IsReturn.ungranting)
  | releaseRoute route =>
    rw [step_releaseRoute]
    exact .inl (ended (g.releaseRoute_fades route))
  | releaseClaim claim =>
    rw [step_releaseClaim]
    exact .inl (ended (g.releaseClaim_fades claim))
  | wait duration => exact .inl (ended (g.wait_fades duration))
  | learn link facts => exact .inl (ended (g.learn_fades link facts))

end Gateway

/-- The operation brings an element that vouches for an open claim, and the policy accepts the link on which
the claim was made. -/
def Moment.Confirms (m : Moment) (claim : Claim) (link : LinkId) : Prop :=
  (∃ e, m.gateway.Hears e m.operation ∧ Dialback.Vouches e claim) ∧
    m.gateway.IsOpen claim link ∧ m.gateway.Admits claim link

namespace Gateway

variable {g g' : Gateway}

/-- Before an element that an operation brings is looked at: a route that brings it has carried one more. -/
inductive Notes (g : Gateway) : Operation → LinkId → Gateway → Prop
  | peer {t e} : Notes g (.inbound t (.element e)) t g
  | negotiation {t r n e} (attempt : g.attempts.get? t = some r) (found : g.negotiations.get? r = some n) :
      Notes g (.outbound t (.element e)) n.link (g.setNegotiation n g.world)
  | route {t r e} (free : g.attempts.get? t = none) (carried : g.carried.get? t = some r) :
      Notes g (.outbound t (.element e)) t { g with routes := g.routes.modify r (·.carry g.now) }

theorem Notes.keepsInbound {op : Operation} {t : LinkId} (h : g.Notes op t g') : KeepsInbound g g' := by
  cases h with
  | peer => exact .refl g
  | negotiation _ _ => exact g.setNegotiation_keepsInbound _ _
  | route _ _ => exact ⟨rfl, rfl, rfl, rfl⟩

theorem Notes.world {op : Operation} {t : LinkId} (h : g.Notes op t g') : g'.world = g.world := by
  cases h <;> rfl

/-- A verify element that is heard is looked at. -/
theorem Hears.step_eq {e : Xml.Element} {op : Operation} (h : g.Hears e op) :
    ∃ t g₁, g.Notes op t g₁ ∧ g.step op = g₁.onVerify t e := by
  cases h with
  | @peer t s hv hs =>
    obtain ⟨stream, hf, hp⟩ := Option.bind_eq_some_iff.mp hs
    have hp : stream.phase = .streaming s := by
      cases hq : stream.phase <;> rw [hq] at hp <;> cases hp
      rfl
    refine ⟨t, g, .peer, ?_⟩
    change g.onElement t e = _
    simp only [onElement, hf, hp]
    have other := Dialback.not_is_of_isVerify hv
    rw [onStreaming, if_neg (other _ _ (by decide)), if_neg (other _ _ (by decide)),
      if_neg (other _ _ (by decide)), if_pos hv]
  | @negotiation t r n hv ha hn =>
    refine ⟨n.link, _, .negotiation ha hn, ?_⟩
    change g.onOutbound t (.element e) = _
    simp only [onOutbound, ha, hn, onAttempt, n.onElement_of_isVerify g.setup g.world hv, follow]
  | @route t r hv hf hc =>
    refine ⟨t, _, .route hf hc, ?_⟩
    change g.onOutbound t (.element e) = _
    simp only [onOutbound, hf, hc, onRoute, if_pos hv]

theorem KeepsInbound.isOpen_iff (h : KeepsInbound g g') {claim : Claim} {link : LinkId} :
    g'.IsOpen claim link ↔ g.IsOpen claim link := by
  simp only [IsOpen, h.challenges]

theorem KeepsInbound.admits_iff (h : KeepsInbound g g') (hw : g'.world = g.world) {claim : Claim}
    {link : LinkId} : g'.Admits claim link ↔ g.Admits claim link := by
  simp only [Admits, h.setup, hw]

/-- An element that is read grants nothing, or it vouches for a claim, which is then granted. -/
theorem Reads.cases {e : Xml.Element} (h : g.Reads e g') :
    Fades CallKind.IsPlain g g' ∨ ∃ claim link g₁, Dialback.Vouches e claim ∧ g.IsOpen claim link ∧
      g.Admits claim link ∧ KeepsInbound g g₁ ∧ g₁.world = g.world ∧ g' = g₁.grant claim link := by
  obtain ⟨g₁, t, hk, hw, rfl⟩ := h
  rcases g₁.onVerify_cases t e with hf | ⟨claim, link, hv, ho, ha, he⟩
  · have hg : World.Grows CallKind.IsPlain g.world g₁.world := by
      rw [hw]
      exact .refl _
    exact .inl ((hk.fades hg).trans hf)
  · exact .inr ⟨claim, link, g₁, hv, hk.isOpen_iff.mp ho, (hk.admits_iff hw).mp ha, hk, hw, he⟩

theorem grant_challenges (g : Gateway) (claim : Claim) (link : LinkId) :
    (g.grant claim link).challenges = (g.closeClaim claim).challenges :=
  setAdmissions_challenges _ _

theorem grant_streams (g : Gateway) (claim : Claim) (link : LinkId) :
    (g.grant claim link).streams = g.streams :=
  setAdmissions_streams _ _

theorem grant_setup (g : Gateway) (claim : Claim) (link : LinkId) :
    (g.grant claim link).setup = g.setup :=
  setAdmissions_setup _ _

theorem get?_grant (g : Gateway) (claim c : Claim) (link : LinkId) :
    (g.grant claim link).admissions.get? c =
      if c = claim then some (Carrier.start link (g.world.link link).peerAddress g.now)
      else g.admissions.get? c :=
  (g.closeClaim claim).get?_authorize claim c link

theorem step_setup (ho : g.Orderly) (op : Operation) : (g.step op).setup = g.setup := by
  rcases step_cases ho op with h | ⟨e, _, hr⟩ | h
  · exact h.fades.setup
  · rcases hr.cases with hf | ⟨claim, link, g₁, _, _, _, hk, _, he⟩
    · exact hf.setup
    · rw [he, grant_setup, hk.setup]
  · generalize g.step op = g' at h
    cases h with
    | asks _ fades => exact fades.setup
    | proves _ _ _ => rfl
    | @accepts t _ _ _ _ _ _ _ _ accepted => exact accepted.setup.trans (g.openStream_setup t)

theorem step_grows (ho : g.Orderly) (op : Operation) :
    World.Grows (fun _ => True) g.world (g.step op).world := by
  rcases step_cases ho op with h | ⟨e, _, hr⟩ | h
  · exact h.fades.grows
  · rcases hr.cases with hf | ⟨claim, link, g₁, _, _, _, _, hw, he⟩
    · exact hf.grows.mono fun _ _ => trivial
    · rw [he, ← hw]
      exact (g₁.grant_grows claim link).mono fun _ _ => trivial
  · exact h.ungranting.mono fun _ _ => trivial

end Gateway

end Interdomain
