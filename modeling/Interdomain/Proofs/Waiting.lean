import Interdomain.Proofs.Inquiries

/-! What waits for a negotiation, and what an operation does to it. Mostly no more waits after an operation
than before. Otherwise an element is passed on to its route, or a negotiation becomes a route. -/
namespace Interdomain

open Protocol (Dialback)

namespace Gateway

/-- A way to the destination is known: a route, a negotiation or an address. -/
def reaches (g : Gateway) (r : Route) : Bool :=
  g.routes.contains r || g.negotiations.contains r || (g.cachedAddress? r.destination).isSome

/-- The request by which the authority of a claim is asked at once, if the element makes a claim on the
link and a way to its authority is known. -/
def inquiry? (g : Gateway) (link : LinkId) (e : Xml.Element) : Option Xml.Element :=
  match g.sessionOn link, Dialback.ofElement e with
  | some s, .ok m =>
    if e.is "result" Xml.Namespace.dialback && !m.isReply && g.challenges.contains s.challenge &&
        g.reaches ⟨m.sender, m.recipient⟩ then
      some (Dialback.verify m.sender m.recipient s.challenge m.key)
    else none
  | _, _ => none

end Gateway

/-- The verify request that an operation passes on to another domain. -/
def Moment.inquiry? (m : Moment) : Option Xml.Element :=
  match m.operation with
  | .submit v _ => if Dialback.isVerify v then some v else none
  | .inbound link (.element e) => m.gateway.inquiry? link e
  | _ => none

/-- A stanza that is written shows in the calls. -/
theorem World.Grows.not_writes {P : CallKind → Prop} {u v : World} {e : Xml.Element} (h : World.Grows P u v)
    (hp : ¬ P .stanza) (hs : Protocol.isStanza e = true) (t : LinkId) :
    .send t (.element e) ∉ v.since u :=
  fun hm => hp (Effect.kind_of_written? (c := .send t (.element e)) rfl hs ▸ h.since.2 _ hm)

theorem Negotiation.ready_want (n : Negotiation) (setup : Setup) (w : World) :
    (n.want setup w).1.ready = n.ready := by
  unfold want sendRequest
  repeat' split
  all_goals rfl

theorem Registry.notices_register {κ ν : Type} [DecidableEq κ] {r : Registry κ ν} {k : κ} (v : ν)
    (h : r.get? k = none) : (r.register k v).notices = [.registered k v] := by
  simp [register, unregister, h]

namespace Gateway

variable {g g' : Gateway} {h : List Moment} {m : Moment} {r : Route} {n : Negotiation} {e v : Xml.Element}

/-- No stanza is written, no route begins, and no more waits for any negotiation than before. -/
structure Recedes (g g' : Gateway) : Prop where
  negotiation : ∀ r n', g'.negotiations.get? r = some n' → ∃ n, g.negotiations.get? r = some n ∧
    n'.stanzas.Sublist n.stanzas ∧
    (n'.verifies = n.verifies ∧ (n'.ready = true → n.ready = true) ∨ n'.verifies = [])
  route : ∀ r, g.routes.get? r = none → g'.routes.get? r = none
  grows : World.Grows (· ≠ .stanza) g.world g'.world

namespace Recedes

theorem refl (g : Gateway) : Recedes g g :=
  ⟨fun _ n hn => ⟨n, hn, List.Sublist.refl _, .inl ⟨rfl, id⟩⟩, fun _ => id, .refl _⟩

theorem trans {f g h : Gateway} (a : Recedes f g) (b : Recedes g h) : Recedes f h := by
  refine ⟨fun r n hn => ?_, fun r hr => b.route r (a.route r hr), a.grows.trans b.grows⟩
  obtain ⟨n₁, h₁, s₁, v₁⟩ := b.negotiation r n hn
  obtain ⟨n₂, h₂, s₂, v₂⟩ := a.negotiation r n₁ h₁
  refine ⟨n₂, h₂, s₁.trans s₂, ?_⟩
  rcases v₁ with ⟨e₁, r₁⟩ | e₁
  · rcases v₂ with ⟨e₂, r₂⟩ | e₂
    · exact .inl ⟨e₁.trans e₂, r₂ ∘ r₁⟩
    · exact .inr (e₁.trans e₂)
  · exact .inr e₁

/-- A negotiation changes, and no more waits for it. -/
theorem of_insert {k : Negotiation} (hn : g.negotiations.get? r = some n)
    (hg : g'.negotiations = g.negotiations.insert r k) (hr : g'.routes = g.routes)
    (stanzas : k.stanzas.Sublist n.stanzas)
    (verifies : k.verifies = n.verifies ∧ (k.ready = true → n.ready = true) ∨ k.verifies = [])
    (grows : World.Grows (· ≠ .stanza) g.world g'.world) : Recedes g g' := by
  refine ⟨fun x n' hx => ?_, fun x hx => hr ▸ hx, grows⟩
  rw [hg, Table.get?_insert] at hx
  split at hx
  · rename_i heq
    cases hx
    exact ⟨n, heq ▸ hn, stanzas, verifies⟩
  · exact ⟨n', hx, List.Sublist.refl _, .inl ⟨rfl, id⟩⟩

/-- A negotiation ends. -/
theorem of_erase (hg : g'.negotiations = g.negotiations.erase r) (hr : g'.routes = g.routes)
    (grows : World.Grows (· ≠ .stanza) g.world g'.world) : Recedes g g' := by
  refine ⟨fun x n' hx => ?_, fun x hx => hr ▸ hx, grows⟩
  rw [hg, Table.get?_erase] at hx
  split at hx
  · cases hx
  · exact ⟨n', hx, List.Sublist.refl _, .inl ⟨rfl, id⟩⟩

/-- The negotiations stay as they are. -/
theorem of_eq (hg : g'.negotiations = g.negotiations)
    (hr : ∀ r, g.routes.get? r = none → g'.routes.get? r = none)
    (grows : World.Grows (· ≠ .stanza) g.world g'.world) : Recedes g g' :=
  ⟨fun _ n hn => ⟨n, hg ▸ hn, List.Sublist.refl _, .inl ⟨rfl, id⟩⟩, hr, grows⟩

end Recedes

theorem KeepsOutbound.recedes (hk : KeepsOutbound g g')
    (grows : World.Grows (· ≠ .stanza) g.world g'.world) : Recedes g g' :=
  .of_eq hk.negotiations (fun _ hr => hk.routes ▸ hr) grows

theorem Fades.recedes {P : CallKind → Prop} (hf : Fades P g g') (hp : ¬ P .stanza)
    (hk : KeepsOutbound g g') : Recedes g g' :=
  hk.recedes (hf.grows.mono fun _ hq hs => hp (hs ▸ hq))

theorem retire_recedes (g : Gateway) (route : Route) (linkGone : Bool) :
    Recedes g (g.retire route linkGone) := by
  cases hn : g.negotiations.get? route with
  | none =>
    rw [retire, hn]
    exact .refl g
  | some n =>
    have hw := (g.retire_fades route linkGone).grows.mono (Q := (· ≠ .stanza))
      (by rintro k (rfl | rfl) <;> simp)
    rw [retire_eq hn] at hw ⊢
    have hk := return_keepsOutbound (g.discard route n linkGone) n.stanzas n.verifies n.failureReason
    refine .of_erase (r := route) (hk.negotiations.trans (discard_negotiations ..)) (hk.routes.trans ?_) hw
    cases linkGone <;> rfl

theorem releaseRoute_recedes (g : Gateway) (route : Route) : Recedes g (g.releaseRoute route).1 := by
  refine .of_eq ?_ ?_ ((g.releaseRoute_fades route).grows.mono (by rintro k rfl; simp))
  · unfold releaseRoute
    split
    · rfl
    · exact setRoutes_negotiations _ _
  · intro r hr
    unfold releaseRoute
    split
    · exact hr
    · simp only [act, setRoutes_routes, Registry.get?_unregister]
      split
      · rfl
      · exact hr

theorem dropRoute_recedes (g : Gateway) (route : Route) (link : LinkId) :
    Recedes g (g.dropRoute route link) := by
  refine .of_eq (setRoutes_negotiations _ _) ?_
    ((g.dropRoute_fades route link).grows.mono (by rintro k rfl; simp))
  intro r hr
  simp only [dropRoute, setRoutes_routes, Registry.get?_unregisterWhere]
  simp [hr]

theorem onVerify_recedes (g : Gateway) (link : LinkId) (e : Xml.Element) :
    Recedes g (g.onVerify link e) :=
  (g.onVerify_keepsOutbound link e).recedes ((g.onVerify_grows link e).mono (by rintro k (rfl | rfl) <;> simp))

theorem onRoute_recedes (g : Gateway) (route : Route) (link : LinkId) (event : LinkEvent) :
    Recedes g (g.onRoute route link event) := by
  have acted {f : World → World} (hf : Fades CallKind.IsPlain g (g.act f)) :
      Recedes g ((g.act f).dropRoute route link) :=
    (hf.recedes (by simp [CallKind.IsPlain]) (g.act_keepsOutbound f)).trans (dropRoute_recedes _ _ _)
  unfold onRoute
  split
  · exact .refl g
  · exact .refl g
  · exact g.dropRoute_recedes route link
  · split
    · have carried : Recedes g { g with routes := g.routes.modify route (·.carry g.now) } := by
        refine .of_eq rfl (fun r hr => ?_) (.refl _)
        simp [Registry.get?_modify, hr]
      exact carried.trans (onVerify_recedes _ _ _)
    · split
      · exact acted (g.close_fades link)
      · exact acted (g.fail_fades link _)

theorem sweepQueue_recedes (ho : g.Orderly) (now : Nat) (route : Route) :
    Recedes g (sweepQueue now g route).1 := by
  refine sweepQueue_relation .refl (fun _ _ _ => .trans) (fun n hn => ?_) (fun g stanzas reason => ?_)
    fun g _ _ _ => g.retire_recedes route false
  · refine .of_insert (r := n.route) (n := n) ((ho.route route n hn).symm ▸ hn) rfl rfl ?_ (.inl ⟨rfl, id⟩) (.refl _)
    exact List.Sublist.map _ List.filter_sublist
  · refine (g.return_keepsOutbound stanzas [] reason).recedes ?_
    exact (g.foldl_bounce_fades stanzas reason).grows.mono (by rintro k (rfl | rfl) <;> simp)

theorem sweepAt_recedes (ho : g.Orderly) (now : Nat) : Recedes g (g.sweepAt now).1 :=
  ho.sweepAt_relation .refl (fun _ _ _ => .trans) (fun _ _ hf => hf.recedes (by simp [CallKind.IsPlain]))
    releaseRoute_recedes fun _ ho => sweepQueue_recedes ho now

/-- What an operation means to the order on routes: nothing more waits than before, or an element is passed
on to its route, or a negotiation becomes a route. -/
inductive OrderStep (m : Moment) : Prop
  | recedes {g : Gateway} (recedes : Recedes m.gateway g) (quiet : m.inquiry? = none) (next : m.next = g)
  | passes {e : Xml.Element} {g : Gateway} {s : Gateway × Delivery} (opened : Recedes m.gateway g)
      (verify : Dialback.isVerify e = true → m.inquiry? = some e)
      (plain : Dialback.isVerify e = false → m.inquiry? = none ∧ m.operation.submitted? = some e)
      (orderly : g.Orderly) (step : g.SubmitStep e s) (next : m.next = s.1)
  | enters {n : Negotiation} {t : Turn} (found : m.gateway.negotiations.get? n.route = some n)
      (serves : t.Serves n m.gateway.world) (verifies : t.negotiation.verifies = n.verifies)
      (ready : t.negotiation.ready = n.ready) (world : t.world = m.gateway.world) (quiet : m.inquiry? = none)
      (next : m.next = (m.gateway.setNegotiation t.negotiation t.world).establish n.route)

/-- A turn authorizes the connection without a call. -/
theorem turnOn_authorize {event : LinkEvent} {t : Turn} (turns : g.turnOn n event = some t)
    (hv : t.verdict = .authorize) :
    t.world = g.world ∧ t.negotiation.verifies = n.verifies ∧ t.negotiation.ready = n.ready := by
  cases event with
  | connected =>
    cases turns
    rw [n.onConnected_verdict] at hv
    cases hv
  | header header =>
    cases turns
    rcases n.onHeader_verdict g.setup g.world header g.challenges.contains with h | h <;>
      · rw [h] at hv
        cases hv
  | element e =>
    cases turns
    rcases n.onElement_verdict g.setup g.world e with h | h | ⟨_, hw, ha⟩ | ⟨_, h⟩
    · rw [h] at hv
      cases hv
    · rw [h] at hv
      cases hv
    · refine ⟨hw, ?_⟩
      cases ha with
      | sasl _ same _ => simp [same]
      | dialback _ _ _ _ same => simp [same]
    · rw [h] at hv
      cases hv
  | closed error => cases turns

theorem follow_step {event : LinkEvent} {t : Turn} (found : g.negotiations.get? n.route = some n)
    (turns : g.turnOn n event = some t) (hs : t.Serves n g.world) :
    Recedes g (g.follow t) ∨
      t.verdict = .authorize ∧ g.follow t = (g.setNegotiation t.negotiation t.world).establish n.route := by
  have set : Recedes g (g.setNegotiation t.negotiation t.world) := by
    refine .of_insert found (by rw [← hs.route]; rfl) rfl ?_ ?_ (hs.grows.mono (by rintro k (rfl | rfl) <;> simp))
    · simp [Negotiation.stanzas, hs.queue]
    · rcases turnOn_flushes turns with ⟨hv, hr⟩ | ⟨_, hv, _⟩
      · exact .inl ⟨hv, hr⟩
      · exact .inr hv
  cases hv : t.verdict with
  | proceed => exact .inl (by simpa only [follow, hv] using set)
  | authorize => exact .inr ⟨rfl, by simp only [follow, hv, hs.route]⟩
  | giveUp => exact .inl (by simpa only [follow, hv] using set.trans (retire_recedes _ _ _))
  | verify e => exact .inl (by simpa only [follow, hv] using set.trans (onVerify_recedes _ _ _))

theorem ClosedStep.recedes (hc : g.ClosedStep n g') (found : g.negotiations.get? n.route = some n) :
    Recedes g g' := by
  cases hc with
  | @advanced m k w route _ verifies advances queue =>
    obtain ⟨begins, hk, kqueue, kverifies⟩ := Negotiation.advance?_begins advances
    refine .of_insert found (k := k) ?_ rfl ?_ (.inl ⟨kverifies.trans verifies, ?_⟩) ?_
    · simp only [putNegotiation, setNegotiation, hk, route, Table.insert_insert]
      simp only [Table.insert, Table.erase_erase]
    · simp [Negotiation.stanzas, kqueue, queue]
    · simp [begins.ready]
    · exact begins.grows.mono (by rintro k (rfl | rfl) <;> simp)
  | @retired m route _ _ _ =>
    have hw := (retire_fades { g.setNegotiation m g.world with attempts := g.attempts.erase m.link } m.route
      true).grows.mono (Q := (· ≠ .stanza)) (by rintro k (rfl | rfl) <;> simp)
    rw [retire_eq (n := m) (by simp [setNegotiation, Table.get?_insert])] at hw ⊢
    have hk := return_keepsOutbound
      (discard { g.setNegotiation m g.world with attempts := g.attempts.erase m.link } m.route m true)
      m.stanzas m.verifies m.failureReason
    refine .of_erase (r := m.route) (hk.negotiations.trans ?_) hk.routes hw
    rw [discard_negotiations]
    exact Table.erase_insert _ _ _

theorem onOutbound_order (ho : g.Orderly) (t : LinkId) (event : LinkEvent) :
    OrderStep ⟨g, .outbound t event⟩ := by
  have still {g' : Gateway} (heq : g.onOutbound t event = g') (h : Recedes g g') :
      OrderStep ⟨g, .outbound t event⟩ := .recedes h rfl heq
  cases ha : g.attempts.get? t with
  | some route =>
    cases hn : g.negotiations.get? route with
    | some n =>
      have heq : g.onOutbound t event = g.onAttempt n event := by simp only [onOutbound, ha, hn]
      have hr := ho.route route n hn
      subst hr
      have turned {turn : Turn} (turns : g.turnOn n event = some turn)
          (follows : g.onAttempt n event = g.follow turn) : OrderStep ⟨g, .outbound t event⟩ := by
        have hs := turnOn_serves (ho.verifies _ n hn) turns
        rcases follow_step hn turns hs with h | ⟨hv, h⟩
        · exact still (heq.trans follows) h
        · obtain ⟨hw, verifies, ready⟩ := turnOn_authorize turns hv
          exact .enters hn hs verifies ready hw rfl (heq.trans (follows.trans h))
      cases event with
      | connected => exact turned rfl rfl
      | header header => exact turned rfl rfl
      | element e => exact turned rfl rfl
      | closed error => exact still heq ((g.onAttemptClosed_step n error).recedes hn)
    | none =>
      have heq : g.onOutbound t event = { g with attempts := g.attempts.erase t } := by
        simp only [onOutbound, ha, hn]
      exact still heq (.of_eq rfl (fun _ => id) (.refl _))
  | none =>
    cases hc : g.carried.get? t with
    | some route => exact still (by simp only [onOutbound, ha, hc]) (g.onRoute_recedes route t event)
    | none => exact still (by simp only [onOutbound, ha, hc]) (.refl g)

/-- The request for a claim is passed on once the claim is open. -/
theorem onElement_of_inquiry {t : LinkId} (hi : g.inquiry? t e = some v) :
    ∃ claim, Dialback.isVerify v = true ∧ g.onElement t e = ((g.openClaim claim).submit v none).1 := by
  unfold inquiry? at hi
  split at hi
  · rename_i s m hs hm
    split at hi
    · rename_i hc
      cases hi
      simp only [Bool.and_eq_true, Bool.not_eq_true'] at hc
      obtain ⟨⟨⟨hresult, hreply⟩, hchallenge⟩, hreaches⟩ := hc
      obtain ⟨stream, hstream, hphase⟩ := sessionOn_eq_some hs
      have other (name ns : String) (hne : ns ≠ Xml.Namespace.dialback) : e.is name ns = false := by
        simp only [Xml.Element.is, Bool.and_eq_true, decide_eq_true_eq] at hresult
        simp [Xml.Element.is, hresult.2, Ne.symm hne]
      have hverify : Dialback.isVerify e = false := by
        simp only [Xml.Element.is, Bool.and_eq_true, decide_eq_true_eq] at hresult
        simp [Dialback.isVerify, Xml.Element.is, hresult.1]
      refine ⟨⟨s.challenge, m.recipient, m.sender⟩, by simp, ?_⟩
      simp only [onElement, hstream, hphase, onStreaming, other _ _ (show Xml.Namespace.stream ≠ _ by decide),
        other _ _ (show Xml.Namespace.tls ≠ _ by decide), other _ _ (show Xml.Namespace.sasl ≠ _ by decide),
        hverify, hresult, Bool.false_eq_true, if_false, if_true, onClaim, hm, hreply, hchallenge,
        Bool.not_true]
      exact if_pos hreaches
    · cases hi
  · cases hi

theorem onInbound_order (ho : g.Orderly) (t : LinkId) (event : LinkEvent) :
    OrderStep ⟨g, .inbound t event⟩ := by
  cases hi : Moment.inquiry? ⟨g, .inbound t event⟩ with
  | some v =>
    cases event with
    | element e =>
      obtain ⟨claim, hv, heq⟩ := onElement_of_inquiry hi
      have opened : KeepsOutbound g (g.openClaim claim) := ⟨rfl, rfl, rfl, rfl, rfl, rfl⟩
      refine .passes (opened.recedes (.refl _)) (fun _ => hi) (fun h => ?_) ⟨ho.route, ho.verifies⟩
        (submit_step _ v none) heq
      rw [hv] at h
      cases h
    | _ => cases hi
  | none =>
    rcases (g.onInbound_step t event).answers with ⟨hk, hw⟩ | ⟨e, claim, key, rfl, hasks, heq⟩
    · exact .recedes (hk.recedes (hw.mono (by rintro k ((rfl | rfl) | rfl) <;> simp))) hi rfl
    · have opened : KeepsOutbound g (g.openClaim claim) := ⟨rfl, rfl, rfl, rfl, rfl, rfl⟩
      refine .recedes ?_ hi heq
      unfold dispatchVerify
      split
      · rename_i hreaches
        obtain ⟨hresult, hchallenge, ⟨s, hs, hsc⟩, m, hm, hreply, hd, hsource⟩ := hasks
        have hreaches : g.reaches ⟨claim.source, claim.destination⟩ = true := hreaches
        simp [Moment.inquiry?, inquiry?, hs, hm, hresult, hreply, hsc, hchallenge, hsource, hd, hreaches] at hi
      · refine (opened.recedes (.refl _)).trans ((act_keepsOutbound _ _).recedes ?_)
        exact World.grows_emit _ (by simp [Effect.kind]) (by simp [Effect.kind])

theorem step_order (ho : g.Orderly) (op : Operation) : OrderStep ⟨g, op⟩ := by
  cases op with
  | submit stanza resolved =>
    refine .passes (.refl g) (fun hv => if_pos hv) (fun hv => ⟨?_, rfl⟩) ho
      (g.submit_step stanza resolved) (g.step_submit stanza resolved)
    simp [Moment.inquiry?, hv]
  | inbound t event => exact onInbound_order ho t event
  | outbound t event => exact onOutbound_order ho t event
  | sweep ahead => exact .recedes (sweepAt_recedes ho _) rfl (g.step_sweep ahead)
  | releaseRoute route => exact .recedes (g.releaseRoute_recedes route) rfl (g.step_releaseRoute route)
  | releaseClaim claim =>
    exact .recedes ((g.releaseClaim_fades claim).recedes (by simp [CallKind.IsPlain])
      (g.releaseClaim_keepsOutbound claim)) rfl (g.step_releaseClaim claim)
  | wait duration =>
    exact .recedes ((g.wait_fades (P := CallKind.IsPlain) duration).recedes (by simp [CallKind.IsPlain])
      (g.wait_keepsOutbound duration)) rfl rfl
  | learn link facts =>
    exact .recedes ((g.learn_fades (P := CallKind.IsPlain) link facts).recedes (by simp [CallKind.IsPlain])
      (g.learn_keepsOutbound link facts)) rfl rfl

end Gateway

end Interdomain
