import Interdomain.Proofs.Handshake

/-! What an operation makes of the negotiations and the routes. Each negotiation goes on from what it was, by
an event on its own link at most, or has just begun on a new link; each route was there before, or its
negotiation has just been authorized by an element on its link. -/
namespace Interdomain

open Protocol (Dialback)

theorem World.Grows.mem_since {P : CallKind → Prop} {u v w : World} (h : World.Grows P u v) {e : Effect}
    (he : e ∈ u.since w) : e ∈ v.since w := by
  obtain ⟨es, ht, _⟩ := h.calls
  rw [World.since, ht, List.drop_append]
  exact List.mem_append_left _ he

namespace Moment

/-- The operation brings a header on a link that is being negotiated, with an id, and not one that this
server has given to a peer. -/
def AcceptsPeer (m : Moment) (t : LinkId) (id : String) : Prop :=
  (∃ header, m.operation = .outbound t (.header header) ∧ header.id = some id) ∧ id ≠ "" ∧
    m.gateway.challenges.contains id = false ∧ ∃ r, m.gateway.attempts.get? t = some r

/-- The operation brings an element that authorizes the negotiation of the route on the link. -/
def Authorizes (m : Moment) (r : Route) (t : LinkId) : Prop :=
  ∃ n e turn, m.operation = .outbound t (.element e) ∧ m.gateway.negotiations.get? r = some n ∧
    n.link = t ∧ n.Authorizes e turn

/-- The negotiation of a route goes on from `n` to `k` on its link, and the world to `u`. -/
structure Keeps (m : Moment) (r : Route) (n k : Negotiation) (u : World) : Prop where
  link : k.link = n.link
  ready : k.ready = true → n.ready = true ∨ (∃ event, m.operation = .outbound n.link event) ∧
    m.gateway.setup.Permits m.gateway.world r n.link
  streamId : (∃ id, m.AcceptsPeer n.link id ∧ k.streamId = some id) ∨
    (∀ id, ¬ m.AcceptsPeer n.link id) ∧ k.streamId = n.streamId
  request : (u.requests n.link = m.gateway.world.requests n.link ∧
      (k.request = .sentRequest ↔ n.request = .sentRequest) ∧
      (k.stage = .sentRequest → n.stage = .sentRequest ∧ ∀ id, ¬ m.AcceptsPeer n.link id)) ∨
    n.request ≠ .sentRequest ∧ k.request = .sentRequest ∧ k.ready = true ∧ ∃ id, k.streamId = some id ∧
      u.requests n.link = m.gateway.world.requests n.link ++ [m.gateway.setup.requestFor r id]

/-- Where a negotiation comes from: it was there before, or it begins on a new link. -/
inductive Leads (m : Moment) (u : World) (r : Route) (k : Negotiation) : Prop
  | goesOn {n} (found : m.gateway.negotiations.get? r = some n) (keeps : m.Keeps r n k u)
  | begins (opens : ∃ address timeout, .connect k.link r address timeout ∈ u.since m.gateway.world)
      (ready : k.ready = false) (streamId : k.streamId = none) (request : k.request ≠ .sentRequest)
      (requests : u.requests k.link = [])

/-- What an operation makes of the gateway. -/
structure Proceeds (m : Moment) (g : Gateway) : Prop where
  indexed : g.Indexed
  negotiation : ∀ r k, g.negotiations.get? r = some k → m.Leads g.world r k
  route : ∀ r c, g.routes.get? r = some c →
    (∃ c₀, m.gateway.routes.get? r = some c₀ ∧ c₀.link = c.link) ∨ m.Authorizes r c.link

variable {m : Moment} {r : Route} {n k : Negotiation} {u v : World} {g g' : Gateway} {allowed : Prop}

/-- A negotiation stays as it is. -/
theorem keeps_still (r : Route) (n : Negotiation) (quiet : ∀ id, ¬ m.AcceptsPeer n.link id)
    (hq : u.requests n.link = m.gateway.world.requests n.link) : m.Keeps r n n u :=
  ⟨rfl, .inl, .inr ⟨quiet, rfl⟩, .inl ⟨hq, .rfl, fun h => ⟨h, quiet⟩⟩⟩

/-- A negotiation goes on without a header. -/
theorem keeps_of_paces (h : n.Paces m.gateway.setup m.gateway.world allowed k u)
    (quiet : ∀ id, ¬ m.AcceptsPeer n.link id)
    (ready : allowed → (∃ event, m.operation = .outbound n.link event) ∧
      m.gateway.setup.Permits m.gateway.world n.route n.link) : m.Keeps n.route n k u := by
  refine ⟨h.link, fun hr => (h.ready hr).imp_right ready, .inr ⟨quiet, h.streamId⟩, ?_⟩
  rcases h.request with ⟨hq, hs, hg⟩ | ⟨hq, hk, hr, id, hid, hw⟩
  · exact .inl ⟨hq, hs, fun h => ⟨hg h, quiet⟩⟩
  · exact .inr ⟨hq, hk, hr, id, h.streamId.trans hid, hw⟩

/-- A negotiation goes on with a header. -/
theorem keeps_of_header (hi : g.Indexed) (hn : g.negotiations.get? n.route = some n)
    (hv : ∀ v ∈ n.verifies, Dialback.isVerify v = true) (header : Stream.Header) :
    let t := n.onHeader g.setup g.world header g.challenges.contains
    (⟨g, .outbound n.link (.header header)⟩ : Moment).Keeps n.route n t.negotiation t.world := by
  intro t
  obtain ⟨l, ⟨hl, hroute, hready, hrequest, hstage⟩, h, hid⟩ :=
    n.onHeader_paces g.setup g.world hv header g.challenges.contains
  have permits : g.setup.Permits g.world n.route n.link →
      (∃ event, Operation.outbound n.link (.header header) = .outbound n.link event) ∧
        g.setup.Permits g.world n.route n.link := fun hp => ⟨⟨_, rfl⟩, hp⟩
  have request := h.request
  rw [hl, hroute, hrequest] at request
  refine ⟨h.link.trans hl, fun hr => (hready ▸ h.ready hr).imp_right permits, ?_, ?_⟩
  · rw [h.streamId]
    rcases hid with ⟨id, hh, hne, ho, hs⟩ | ⟨hs, hno⟩
    · exact .inl ⟨id, ⟨⟨header, rfl, hh⟩, hne, ho, _, hi.attempt hn⟩, hs⟩
    · refine .inr ⟨?_, hs⟩
      rintro id ⟨⟨header', heq, hh⟩, hne, ho, _⟩
      cases heq
      rw [hno id hh hne] at ho
      cases ho
  · rcases request with ⟨hq, hs, hg⟩ | ⟨hq, hk, hr, id, hsid, hw⟩
    · exact .inl ⟨hq, hs, fun h => absurd (hg h) hstage⟩
    · exact .inr ⟨hq, hk, hr, id, h.streamId.trans hsid, hw⟩

/-- What comes after is no progress of the negotiation. -/
theorem Leads.after (h : m.Leads u r n) (hp : k.progress = n.progress)
    (hq : v.requests n.link = u.requests n.link)
    (hs : ∀ e ∈ u.since m.gateway.world, e ∈ v.since m.gateway.world) : m.Leads v r k := by
  simp only [Negotiation.progress, Prod.mk.injEq] at hp
  obtain ⟨hl, hr, hid, hreq, hst⟩ := hp
  cases h with
  | @goesOn n₀ found keeps =>
    have hw : v.requests n₀.link = u.requests n₀.link := keeps.link ▸ hq
    refine .goesOn found ⟨hl.trans keeps.link, ?_, ?_, ?_⟩
    · rw [hr]
      exact keeps.ready
    · rw [hid]
      exact keeps.streamId
    · rw [hw, hr, hid, hreq, hst]
      exact keeps.request
  | begins opens ready streamId request requests =>
    obtain ⟨address, timeout, ho⟩ := opens
    refine .begins ⟨address, timeout, hl ▸ hs _ ho⟩ (hr.trans ready) (hid.trans streamId) ?_ ?_
    · rw [hreq]
      exact request
    · rw [hl, hq, requests]

namespace Proceeds

/-- Nothing happens. -/
theorem still (hi : m.gateway.Indexed) (quiet : ∀ t id, ¬ m.AcceptsPeer t id) :
    m.Proceeds m.gateway :=
  ⟨hi, fun r k hk => .goesOn hk (keeps_still r k (quiet _) rfl), fun _ c hc => .inl ⟨c, hc, rfl⟩⟩

theorem dwindles (h : m.Proceeds g) (hd : Gateway.Dwindles g g') : m.Proceeds g' := by
  refine ⟨hd.indexed h.indexed, ?_, ?_⟩
  · intro r k hk
    obtain ⟨n, hn, hp⟩ := hd.negotiation r k hk
    exact (h.negotiation r n hn).after hp (hd.requests _) fun e he => hd.grows.mem_since he
  · intro r c hc
    obtain ⟨c₀, h₀, hl⟩ := hd.route r c hc
    rw [← hl]
    exact h.route r c₀ h₀

/-- One negotiation goes on. -/
theorem insert (hi : m.gateway.Indexed) (hn : m.gateway.negotiations.get? r = some n)
    (keeps : m.Keeps r n k u) (hw : World.Grows CallKind.IsTurn m.gateway.world u)
    (elsewhere : ∀ t, t ≠ n.link → u.requests t = m.gateway.world.requests t)
    (own : ∀ t id, m.AcceptsPeer t id → t = n.link)
    (hg : g'.negotiations = m.gateway.negotiations.insert r k)
    (ha : g'.attempts = m.gateway.attempts) (hr : g'.routes = m.gateway.routes) (hu : g'.world = u) :
    m.Proceeds g' := by
  subst hu
  refine ⟨?_, ?_, fun _ c hc => .inl ⟨c, hr ▸ hc, rfl⟩⟩
  · exact hi.insert hn keeps.link hg ha hr hw.sources (hw.opened (by simp [CallKind.IsTurn])) elsewhere
  · intro x j hj
    rw [hg, Table.get?_insert] at hj
    split at hj
    · rename_i hx
      cases hj
      rw [hx]
      exact .goesOn hn keeps
    · have hne := hi.link_ne hn hj ‹_›
      exact .goesOn hj (keeps_still x j (fun id h => hne (own _ id h)) (elsewhere _ hne))

/-- A negotiation begins on a new link, perhaps after it has ended on another one. -/
theorem opens (h : m.Proceeds g) (hw : g.world = m.gateway.world) (hb : k.Begins g.world g'.world)
    (hn : g.negotiations.get? k.route = none)
    (hg : g'.negotiations = g.negotiations.insert k.route k)
    (ha : g'.attempts = g.attempts.insert k.link k.route) (hr : g'.routes = g.routes) :
    m.Proceeds g' := by
  have hq := hb.grows.requests_eq (by simp [CallKind.IsInquiry])
  obtain ⟨address, timeout, hu, hl⟩ := hb.opens
  refine ⟨?_, ?_, fun x c hc => h.route x c (hr ▸ hc)⟩
  · exact h.indexed.opens hn hl hg ha hr hb.grows.sources (by rw [hu]; rfl) hq
  · intro x j hj
    rw [hg, Table.get?_insert] at hj
    split at hj
    · rename_i hx
      cases hj
      rw [hx]
      refine .begins ⟨address, timeout, ?_⟩ hb.ready hb.streamId hb.request ?_
      · rw [hu, ← hw, hl]
        simp [World.since, World.connect, World.emit]
      · rw [hq, hl]
        exact h.indexed.requests_next
    · exact (h.negotiation x j hj).after rfl (hq _) fun e he => hb.grows.mem_since he

/-- The moment of a claim that is opened matters only for its request. -/
theorem of_openClaim {op : Operation} (claim : Claim)
    (h : (⟨g.openClaim claim, op⟩ : Moment).Proceeds g') (quiet : ∀ t event, op ≠ .outbound t event) :
    (⟨g, op⟩ : Moment).Proceeds g' := by
  have never (challenges : Table String Challenge) (t : LinkId) (id : String) :
      ¬ (⟨{ g with challenges := challenges }, op⟩ : Moment).AcceptsPeer t id := by
    rintro ⟨⟨_, ho, _⟩, _⟩
    exact quiet _ _ ho
  refine ⟨h.indexed, ?_, h.route⟩
  intro r k hk
  cases h.negotiation r k hk with
  | @goesOn n found keeps =>
    refine .goesOn found ⟨keeps.link, keeps.ready, ?_, ?_⟩
    · rcases keeps.streamId with ⟨id, ha, _⟩ | ⟨_, hs⟩
      · exact absurd ha (never _ _ _)
      · exact .inr ⟨never g.challenges _, hs⟩
    · refine keeps.request.imp_left ?_
      rintro ⟨hq, hs, hg⟩
      exact ⟨hq, hs, fun h => ⟨(hg h).1, never g.challenges _⟩⟩
  | begins opens ready streamId request requests => exact .begins opens ready streamId request requests

end Proceeds

end Moment

namespace Gateway

variable {g : Gateway} {n : Negotiation} {r : Route} {op : Operation}

/-- A stanza that is left with a negotiation is no progress. -/
theorem hold_dwindles (hn : g.negotiations.get? n.route = some n) (stanza : Xml.Element) :
    Dwindles g (g.hold n stanza).1 := by
  have hw := (g.hold_grows n stanza).mono fun _ => CallKind.IsPlain.closing
  unfold hold at hw ⊢
  split at hw <;> rename_i hv
  · rw [if_pos hv]
    unfold Negotiation.addVerify at hw ⊢
    dsimp only at hw ⊢
    split at hw <;> rename_i hr
    · rw [if_pos hr]
      exact .of_insert (m := n) hn rfl rfl rfl rfl hw
    · rw [if_neg hr]
      exact .of_insert (m := { n with verifies := n.verifies ++ [stanza] }) hn rfl rfl rfl rfl hw
  · rw [if_neg hv]
    exact .of_insert (m := n.enqueue stanza g.now) hn rfl rfl rfl rfl hw

/-- A stanza that is written on a route shows on no negotiation. -/
theorem carry_proceeds (hi : g.Indexed) (quiet : ∀ t id, ¬ (⟨g, op⟩ : Moment).AcceptsPeer t id)
    {c : Carrier} (hc : g.routes.get? r = some c) (stanza : Xml.Element) :
    (⟨g, op⟩ : Moment).Proceeds { g with
      world := g.world.sendElement c.link stanza
      routes := g.routes.modify r (·.carry g.now) } := by
  have hd := g.carryRoute_dwindles r
  have hw : World.Grows (· ≠ .connect) g.world (g.world.sendElement c.link stanza) :=
    World.grows_sendElement _ _ (CallKind.ofElement_ne_connect stanza)
  refine ⟨?_, ?_, fun x k hk => .inl (hd.route x k hk)⟩
  · refine hi.narrow rfl (hw.opened (by simp)) hi.attempts (fun _ h => h)
      (fun x k hk => .inl (hd.route x k hk)) ?_
    intro t _ ht
    exact World.requests_sendElement_of_ne _ (Ne.symm (ht r c hc)) _
  · intro x k hk
    have hne := hi.link_ne_carrier hk hc
    exact .goesOn hk (Moment.keeps_still x k (quiet _) (World.requests_sendElement_of_ne _ hne _))

theorem SubmitStep.proceeds {stanza : Xml.Element} {s : Gateway × Delivery} (h : g.SubmitStep stanza s)
    (ho : g.Orderly) (hi : g.Indexed) (quiet : ∀ t id, ¬ (⟨g, op⟩ : Moment).AcceptsPeer t id) :
    (⟨g, op⟩ : Moment).Proceeds s.1 := by
  have still := Moment.Proceeds.still (m := ⟨g, op⟩) hi quiet
  cases h with
  | carried _ found => exact carry_proceeds hi quiet found stanza
  | @asked r n _ _ found =>
    have hs : Dwindles g (g.setNegotiation n g.world) := by
      refine .of_insert (r := r) (m := n) found rfl ?_ rfl rfl (.refl _)
      rw [← ho.route r n found]
      rfl
    exact (still.dwindles hs).dwindles (hold_dwindles (by simp [setNegotiation, Table.get?_insert]) stanza)
  | @joined r n _ _ found =>
    have hr := ho.route r n found
    have hs := n.want_serves g.setup g.world
    have hp := n.want_paces g.setup g.world
    have keeps := Moment.keeps_of_paces (m := ⟨g, op⟩) hp (quiet _) False.elim
    rw [hr] at keeps
    have wanted : (⟨g, op⟩ : Moment).Proceeds
        (g.setNegotiation (n.want g.setup g.world).1 (n.want g.setup g.world).2) := by
      refine .insert hi found keeps hs.grows hp.elsewhere (fun t id h => (quiet t id h).elim) ?_ rfl rfl rfl
      rw [← hr, ← hs.route]
      rfl
    exact wanted.dwindles (hold_dwindles (by simp [setNegotiation, Table.get?_insert]) stanza)
  | @began n w _ free _ begins queue verifies =>
    have hp : (⟨g, op⟩ : Moment).Proceeds (g.putNegotiation n w) :=
      still.opens rfl begins free rfl rfl rfl
    exact hp.dwindles (hold_dwindles (by simp [putNegotiation, Table.get?_insert]) stanza)
  | refused _ verify _ => exact still.dwindles ((g.failVerify_fades _).dwindles (g.failVerify_keepsOutbound _))
  | dropped _ verify => exact still
  | @returned reason _ =>
    refine still.dwindles (KeepsOutbound.dwindles (g.act_keepsOutbound (·.emit _)) ?_)
    exact (g.bounce_fades stanza reason).grows.mono fun _ => CallKind.IsReturn.closing

theorem onAttemptClosed_proceeds (hi : g.Indexed) (quiet : ∀ t id, ¬ (⟨g, op⟩ : Moment).AcceptsPeer t id)
    (hn : g.negotiations.get? n.route = some n) (error : Option String) :
    (⟨g, op⟩ : Moment).Proceeds (g.onAttemptClosed n error) := by
  have still := Moment.Proceeds.still (m := ⟨g, op⟩) hi quiet
  have noted (m : Negotiation) (hr : m.route = n.route) (hl : m.link = n.link) :
      (⟨g, op⟩ : Moment).Proceeds
        ({ g.setNegotiation m g.world with attempts := g.attempts.erase m.link }.advance m) := by
    have hd : Dwindles g { g with
        negotiations := g.negotiations.erase m.route
        attempts := g.attempts.erase m.link } :=
      .of_discard (by rw [hr]; exact hn) rfl (by rw [hl]) rfl (.refl _)
    have retired : (⟨g, op⟩ : Moment).Proceeds
        ({ g.setNegotiation m g.world with attempts := g.attempts.erase m.link }.retire m.route true) := by
      rw [retire_eq (n := m) (by simp [setNegotiation, Table.get?_insert])]
      refine (still.dwindles hd).dwindles ?_
      have he : { g.setNegotiation m g.world with attempts := g.attempts.erase m.link }.discard
          m.route m true = { g with
            negotiations := g.negotiations.erase m.route
            attempts := g.attempts.erase m.link } := by
        simp only [discard, setNegotiation, Table.erase_insert, if_true]
      rw [he]
      exact return_dwindles _ _ _ _
    unfold advance
    split
    · split
      · rename_i k w ha
        obtain ⟨hb, hroute, _⟩ := Negotiation.advance?_begins ha
        refine (still.dwindles hd).opens rfl hb ?_ ?_ rfl rfl
        · simp [hroute, Table.get?_erase]
        · simp only [putNegotiation, setNegotiation, hroute, Table.insert_insert]
      · exact retired
    · exact retired
  unfold onAttemptClosed
  cases error with
  | none => exact noted n rfl rfl
  | some text => exact noted (n.note text) rfl rfl

/-- A negotiation that is authorized becomes a route, and its link belongs to that. -/
theorem establish_proceeds {m : Moment} (h : m.Proceeds g) (hn : g.negotiations.get? r = some n)
    (authorizes : m.Authorizes r n.link) : m.Proceeds (g.establish r) := by
  have hgrows := g.establish_grows r
  obtain ⟨carrier, hl, he⟩ := establish_eq hn
  have elsewhere (t : LinkId) (ht : t ≠ n.link) :
      (g.establish r).world.requests t = g.world.requests t := by
    have hs := ((g.handOver r n).setRoutes_grows CallKind.isPlain (g.routes.register r carrier)).requests_eq
      (by simp [CallKind.IsPlain]) t
    rw [he]
    refine hs.trans ?_
    simp only [handOver, World.requests_sendElements_of_ne _ ht]
  have hroutes : ∀ x c, (g.establish r).routes.get? x = some c →
      x = r ∧ c.link = n.link ∨ g.routes.get? x = some c := by
    intro x c hc
    rw [he] at hc
    simp only [setRoutes_routes] at hc
    rw [Registry.get?_register] at hc
    split at hc
    · cases hc
      exact .inl ⟨‹_›, hl⟩
    · exact .inr hc
  have hnegotiations : (g.establish r).negotiations = g.negotiations.erase r := by
    rw [he]
    exact setRoutes_negotiations _ _
  have hattempts : (g.establish r).attempts = g.attempts.erase n.link := by
    rw [he]
    exact setRoutes_attempts _ _
  refine ⟨?_, ?_, ?_⟩
  · refine h.indexed.narrow hgrows.sources (hgrows.opened (by simp)) ?_ ?_ ?_ ?_
    · rw [hnegotiations, hattempts]
      exact h.indexed.attempts_erase hn
    · intro t ht
      rw [hattempts, Table.get?_erase, ht]
      split <;> rfl
    · intro x c hc
      rcases hroutes x c hc with ⟨_, hc⟩ | hc
      · rw [hc, hattempts]
        exact .inr ⟨by simp [h.indexed.attempt hn], by simp [Table.get?_erase]⟩
      · exact .inl ⟨c, hc, rfl⟩
    · intro t ht _
      refine elsewhere t ?_
      intro heq
      rw [heq, h.indexed.attempt hn] at ht
      cases ht
  · intro x k hk
    rw [hnegotiations, Table.get?_erase] at hk
    split at hk
    · cases hk
    · have hne := h.indexed.link_ne hn hk ‹_›
      exact (h.negotiation x k hk).after rfl (elsewhere _ hne) fun e he => hgrows.mem_since he
  · intro x c hc
    rcases hroutes x c hc with ⟨rfl, hl⟩ | hc
    · rw [hl]
      exact .inr authorizes
    · exact h.route x c hc

/-- What follows a turn of a negotiation. -/
theorem follow_proceeds (hi : g.Indexed) (hn : g.negotiations.get? n.route = some n) {t : Turn}
    (hs : t.Serves n g.world)
    (elsewhere : ∀ u, u ≠ n.link → t.world.requests u = g.world.requests u)
    (own : ∀ u id, (⟨g, op⟩ : Moment).AcceptsPeer u id → u = n.link)
    (keeps : (⟨g, op⟩ : Moment).Keeps n.route n t.negotiation t.world)
    (authorizes : t.verdict = .authorize → (⟨g, op⟩ : Moment).Authorizes n.route n.link) :
    (⟨g, op⟩ : Moment).Proceeds (g.follow t) := by
  have hp : (⟨g, op⟩ : Moment).Proceeds (g.setNegotiation t.negotiation t.world) := by
    refine .insert hi hn keeps hs.grows elsewhere own ?_ rfl rfl rfl
    rw [← hs.route]
    rfl
  unfold follow
  dsimp only
  split
  · exact hp
  · rename_i hv
    rw [hs.route]
    refine establish_proceeds (n := t.negotiation) hp ?_ ?_
    · rw [← hs.route]
      simp [setNegotiation, Table.get?_insert]
    · rw [hs.link]
      exact authorizes hv
  · exact hp.dwindles (retire_dwindles _ _)
  · exact hp.dwindles (onVerify_dwindles _ _ _)

theorem onAttempt_proceeds (ho : g.Orderly) (hi : g.Indexed)
    (hn : g.negotiations.get? n.route = some n) (event : LinkEvent) :
    (⟨g, .outbound n.link event⟩ : Moment).Proceeds (g.onAttempt n event) := by
  have hv := ho.verifies _ n hn
  have own : ∀ u id, (⟨g, .outbound n.link event⟩ : Moment).AcceptsPeer u id → u = n.link := by
    rintro u id ⟨⟨_, h, _⟩, _⟩
    cases h
    rfl
  have quiet (h : ∀ header, event ≠ .header header) (u : LinkId) (id : String) :
      ¬ (⟨g, .outbound n.link event⟩ : Moment).AcceptsPeer u id := by
    rintro ⟨⟨header, he, _⟩, _⟩
    cases he
    exact h header rfl
  cases event with
  | connected =>
    have hp : n.Paces g.setup g.world False _ _ := n.onConnected_paces g.setup g.world
    refine follow_proceeds hi hn (n.onConnected_serves g.setup g.world) hp.elsewhere own ?_ ?_
    · exact Moment.keeps_of_paces hp (quiet (by simp) _) False.elim
    · intro h
      rw [n.onConnected_verdict] at h
      cases h
  | header header =>
    obtain ⟨m, ⟨hl, _⟩, hp, _⟩ := n.onHeader_paces g.setup g.world hv header g.challenges.contains
    refine follow_proceeds hi hn (n.onHeader_serves g.setup g.world hv header _) ?_ own ?_ ?_
    · exact fun u hu => hp.elsewhere u (hl ▸ hu)
    · exact Moment.keeps_of_header hi hn hv header
    · intro h
      rcases n.onHeader_verdict g.setup g.world header g.challenges.contains with hd | hd <;>
        rw [hd] at h <;> cases h
  | element e =>
    have hp := n.onElement_paces g.setup g.world hv e
    refine follow_proceeds hi hn (n.onElement_serves g.setup g.world hv e) hp.elsewhere own ?_ ?_
    · exact Moment.keeps_of_paces hp (quiet (by simp) _) fun h => ⟨⟨_, rfl⟩, h⟩
    · intro h
      rcases n.onElement_verdict g.setup g.world e with hd | hd | ⟨_, _, ha⟩ | ⟨_, hd⟩
      · rw [hd] at h
        cases h
      · rw [hd] at h
        cases h
      · exact ⟨n, e, _, rfl, hn, rfl, ha⟩
      · rw [hd] at h
        cases h
  | closed error => exact onAttemptClosed_proceeds hi (quiet (by simp)) hn error

theorem onOutbound_proceeds (ho : g.Orderly) (hi : g.Indexed) (link : LinkId) (event : LinkEvent) :
    (⟨g, .outbound link event⟩ : Moment).Proceeds (g.onOutbound link event) := by
  unfold onOutbound
  cases ha : g.attempts.get? link with
  | some route =>
    obtain ⟨n, hn, rfl⟩ := (hi.attempts link route).mp ha
    simp only [hn]
    exact onAttempt_proceeds ho hi (by rw [ho.route _ n hn]; exact hn) event
  | none =>
    have still : (⟨g, .outbound link event⟩ : Moment).Proceeds g := by
      refine Moment.Proceeds.still (m := ⟨g, .outbound link event⟩) hi ?_
      rintro t id ⟨⟨_, h, _⟩, _, _, r, hr⟩
      cases h
      rw [ha] at hr
      cases hr
    dsimp only
    split
    · exact still.dwindles (g.onRoute_dwindles _ link event)
    · exact still

theorem step_proceeds (ho : g.Orderly) (hi : g.Indexed) (op : Operation) :
    (⟨g, op⟩ : Moment).Proceeds (g.step op) := by
  have quiet (h : ∀ t event, op ≠ .outbound t event) (t : LinkId) (id : String) :
      ¬ (⟨g, op⟩ : Moment).AcceptsPeer t id := by
    rintro ⟨⟨_, he, _⟩, _⟩
    exact h _ _ he
  have ended (h : ∀ t event, op ≠ .outbound t event) {g' : Gateway} (hd : Dwindles g g') :
      (⟨g, op⟩ : Moment).Proceeds g' :=
    (Moment.Proceeds.still (m := ⟨g, op⟩) hi (quiet h)).dwindles hd
  cases op with
  | submit stanza resolved =>
    rw [step_submit]
    exact (g.submit_step stanza resolved).proceeds ho hi (quiet (by simp))
  | inbound link event =>
    change (⟨g, .inbound link event⟩ : Moment).Proceeds (g.onInbound link event)
    rcases (g.onInbound_step link event).answers with ⟨hk, hw⟩ | ⟨e, claim, key, _, _, he⟩
    · exact ended (by simp) (hk.dwindles (hw.mono fun _ => CallKind.IsAnswer.closing))
    · rw [he]
      have hopen : Dwindles g (g.openClaim claim) := .of_routes rfl rfl (fun _ c h => ⟨c, h, rfl⟩) (.refl _)
      refine Moment.Proceeds.of_openClaim claim ?_ (by simp)
      have hiopen := hopen.indexed hi
      have never : ∀ t id, ¬ (⟨g.openClaim claim, .inbound link event⟩ : Moment).AcceptsPeer t id := by
        rintro t id ⟨⟨_, h, _⟩, _⟩
        cases h
      unfold dispatchVerify
      split
      · exact ((g.openClaim claim).submit_step _ none).proceeds ⟨ho.route, ho.verifies⟩ hiopen never
      · refine (Moment.Proceeds.still (m := ⟨g.openClaim claim, _⟩) hiopen never).dwindles ?_
        exact KeepsOutbound.dwindles (act_keepsOutbound _ (·.emit _))
          (World.grows_emit _ (by simp [CallKind.IsClosing, Effect.kind]) (by simp [Effect.kind]))
  | outbound link event => exact onOutbound_proceeds ho hi link event
  | sweep ahead =>
    rw [step_sweep]
    exact ended (by simp) (sweepAt_dwindles ho _)
  | releaseRoute route =>
    rw [step_releaseRoute]
    exact ended (by simp) (g.releaseRoute_dwindles route)
  | releaseClaim claim =>
    rw [step_releaseClaim]
    exact ended (by simp) ((g.releaseClaim_fades claim).dwindles (g.releaseClaim_keepsOutbound claim))
  | wait duration =>
    exact ended (by simp) ((g.wait_fades duration).dwindles (g.wait_keepsOutbound duration))
  | learn link facts =>
    exact ended (by simp) ((g.learn_fades link facts).dwindles (g.learn_keepsOutbound link facts))

end Gateway

end Interdomain
