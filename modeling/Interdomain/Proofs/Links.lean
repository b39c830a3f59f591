import Interdomain.Proofs.Conservation

/-! Which link belongs to what. A link that the gateway opens belongs to one negotiation, later perhaps to one
route, and never again to another; so what is written on behalf of one negotiation shows on no other link.
Requests are followed in particular: those that were written on a link so far. -/
namespace Interdomain

open Protocol (Dialback)

/-- The request that a call writes on the link. -/
def Effect.requestOn? (t : LinkId) : Effect → Option Xml.Element
  | .send u (.element e) => if u = t ∧ Protocol.isRequest e = true then some e else none
  | _ => none

theorem Effect.requestOn?_of_kind {e : Effect} (h : e.kind ≠ .request) (t : LinkId) :
    e.requestOn? t = none := by
  cases e with
  | send u frame =>
    cases frame with
    | element e =>
      have hr : ¬ Protocol.isRequest e = true := by
        intro hr
        refine h ?_
        have hns : e.ns = Xml.Namespace.dialback := by
          simp only [Protocol.isRequest, Xml.Element.is, Bool.and_eq_true, decide_eq_true_eq] at hr
          exact hr.1.2
        simp [kind, CallKind.ofElement, Protocol.isStanza, Protocol.namespaces, hns, hr]
      simp [requestOn?, hr]
    | _ => rfl
  | _ => rfl

/-- What is done when something ends or goes on as before: no link is opened, and nothing is requested. -/
def CallKind.IsClosing (k : CallKind) : Prop := k ≠ .connect ∧ k ≠ .request

theorem CallKind.IsPlain.closing {k : CallKind} (h : IsPlain k) : IsClosing k := by
  rw [IsPlain] at h
  simp [h, IsClosing]

theorem CallKind.IsReturn.closing {k : CallKind} (h : IsReturn k) : IsClosing k := by
  rcases h with rfl | rfl <;> simp [IsClosing]

theorem CallKind.IsAnswer.closing {k : CallKind} (h : IsAnswer k) : IsClosing k := by
  rcases h with (rfl | rfl) | rfl <;> simp [IsClosing]

namespace World

variable {P : CallKind → Prop} {w w' : World}

/-- The requests that were written on the link, in order. -/
def requests (w : World) (t : LinkId) : List Xml.Element := w.trace.filterMap (Effect.requestOn? t)

theorem Grows.requests_eq (h : Grows P w w') (hp : ¬ P .request) (t : LinkId) :
    w'.requests t = w.requests t := by
  obtain ⟨es, ht, hk, _⟩ := h.calls
  have hz : es.filterMap (Effect.requestOn? t) = [] := by
    rw [List.filterMap_eq_nil_iff]
    intro e he
    refine Effect.requestOn?_of_kind ?_ t
    intro hr
    exact hp (hr ▸ hk e he)
  rw [requests, ht, List.filterMap_append, hz, List.append_nil]
  rfl

theorem requests_sendElement (w : World) (u t : LinkId) (e : Xml.Element) :
    (w.sendElement u e).requests t =
      w.requests t ++ if u = t ∧ Protocol.isRequest e = true then [e] else [] := by
  simp only [requests, sendElement, send, trace_emit, List.filterMap_append]
  congr 1
  simp only [Effect.requestOn?, List.filterMap_cons, List.filterMap_nil]
  split <;> rename_i h <;> split at h <;> simp_all

theorem requests_sendElement_of_ne (w : World) {u t : LinkId} (h : t ≠ u) (e : Xml.Element) :
    (w.sendElement u e).requests t = w.requests t := by
  rw [requests_sendElement, if_neg (by simp [Ne.symm h]), List.append_nil]

theorem requests_sendElements_of_ne (w : World) {u t : LinkId} (h : t ≠ u) (es : List Xml.Element) :
    (w.sendElements u es).requests t = w.requests t := by
  induction es generalizing w with
  | nil => rfl
  | cons e es ih => exact (ih (w.sendElement u e)).trans (w.requests_sendElement_of_ne h e)

end World

/-- How far a negotiation has come on its link. -/
def Negotiation.progress (n : Negotiation) : LinkId × Bool × Option String × Request × Stage :=
  (n.link, n.ready, n.streamId, n.request, n.stage)

namespace Gateway

variable {P : CallKind → Prop} {g g' : Gateway} {r : Route} {n : Negotiation}

/-- The links that are being negotiated are those of the negotiations, none of them carries a route, and the
links that will be opened next are not in use. -/
structure Indexed (g : Gateway) : Prop where
  injective : Function.Injective g.world.sources.linkId
  attempts : ∀ t r, g.attempts.get? t = some r ↔ ∃ n, g.negotiations.get? r = some n ∧ n.link = t
  apart : ∀ r c, g.routes.get? r = some c → g.attempts.get? c.link = none
  fresh : ∀ i, g.world.opened ≤ i → g.attempts.get? (g.world.sources.linkId i) = none ∧
    (∀ r c, g.routes.get? r = some c → c.link ≠ g.world.sources.linkId i) ∧
    g.world.requests (g.world.sources.linkId i) = []

namespace Indexed

theorem attempt (hi : g.Indexed) (hn : g.negotiations.get? r = some n) :
    g.attempts.get? n.link = some r := (hi.attempts n.link r).mpr ⟨n, hn, rfl⟩

/-- Two negotiations have different links. -/
theorem link_ne (hi : g.Indexed) (hn : g.negotiations.get? r = some n) {x : Route} {m : Negotiation}
    (hm : g.negotiations.get? x = some m) (h : x ≠ r) : m.link ≠ n.link := by
  intro he
  have hx := hi.attempt hm
  rw [he, hi.attempt hn] at hx
  exact h (Option.some.inj hx).symm

/-- A negotiation and a route have different links. -/
theorem link_ne_carrier (hi : g.Indexed) (hn : g.negotiations.get? r = some n) {x : Route} {c : Carrier}
    (hc : g.routes.get? x = some c) : n.link ≠ c.link := by
  intro he
  have ha := hi.apart x c hc
  rw [← he, hi.attempt hn] at ha
  cases ha

/-- Nothing is known yet about the link that is opened next. -/
theorem attempts_next (hi : g.Indexed) :
    g.attempts.get? (g.world.sources.linkId g.world.opened) = none := (hi.fresh _ (Nat.le_refl _)).1

theorem requests_next (hi : g.Indexed) :
    g.world.requests (g.world.sources.linkId g.world.opened) = [] := (hi.fresh _ (Nat.le_refl _)).2.2

/-- What is indexed stays so if no link is opened and only attempts become routes. -/
theorem narrow (hi : g.Indexed) (sources : g'.world.sources = g.world.sources)
    (opened : g'.world.opened = g.world.opened)
    (attempts : ∀ t r, g'.attempts.get? t = some r ↔ ∃ n, g'.negotiations.get? r = some n ∧ n.link = t)
    (kept : ∀ t, g.attempts.get? t = none → g'.attempts.get? t = none)
    (routes : ∀ x c, g'.routes.get? x = some c → (∃ c₀, g.routes.get? x = some c₀ ∧ c₀.link = c.link) ∨
      g.attempts.get? c.link ≠ none ∧ g'.attempts.get? c.link = none)
    (requests : ∀ t, g.attempts.get? t = none → (∀ x c, g.routes.get? x = some c → c.link ≠ t) →
      g'.world.requests t = g.world.requests t) : g'.Indexed := by
  refine ⟨by rw [sources]; exact hi.injective, attempts, ?_, ?_⟩
  · intro x c hc
    rcases routes x c hc with ⟨c₀, h₀, hl⟩ | ⟨_, ha⟩
    · exact kept _ (hl ▸ hi.apart x c₀ h₀)
    · exact ha
  · intro i hle
    rw [opened] at hle
    obtain ⟨ha, hr, hq⟩ := hi.fresh i hle
    rw [sources]
    refine ⟨kept _ ha, ?_, (requests _ ha hr).trans hq⟩
    intro x c hc he
    rcases routes x c hc with ⟨c₀, h₀, hl⟩ | ⟨hne, _⟩
    · exact hr x c₀ h₀ (hl.trans he)
    · exact hne (he ▸ ha)

/-- A negotiation that stays on its link changes, and perhaps writes on it. -/
theorem insert (hi : g.Indexed) (hn : g.negotiations.get? r = some n) {n' : Negotiation}
    (hl : n'.link = n.link) (hg : g'.negotiations = g.negotiations.insert r n')
    (ha : g'.attempts = g.attempts) (hr : g'.routes = g.routes)
    (sources : g'.world.sources = g.world.sources) (opened : g'.world.opened = g.world.opened)
    (requests : ∀ t, t ≠ n.link → g'.world.requests t = g.world.requests t) : g'.Indexed := by
  refine hi.narrow sources opened ?_ (fun t h => ha ▸ h) ?_ ?_
  · intro t x
    rw [ha, hi.attempts t x, hg, Table.get?_insert]
    by_cases hx : x = r
    · subst hx
      simp [hn, hl]
    · simp [hx]
  · exact fun x c hc => .inl ⟨c, hr ▸ hc, rfl⟩
  · intro t ht _
    refine requests t ?_
    intro he
    rw [he, hi.attempt hn] at ht
    cases ht

/-- Without one of the negotiations and its link the others stay as they are. -/
theorem attempts_erase (hi : g.Indexed) (hn : g.negotiations.get? r = some n) (t : LinkId) (x : Route) :
    (g.attempts.erase n.link).get? t = some x ↔
      ∃ m, (g.negotiations.erase r).get? x = some m ∧ m.link = t := by
  rw [Table.get?_erase, Table.get?_erase]
  by_cases hx : x = r
  · subst hx
    by_cases ht : t = n.link
    · simp [ht]
    · simp only [if_neg ht, if_pos, hi.attempts t x, hn]
      simp [Ne.symm ht]
  · by_cases ht : t = n.link
    · simp only [if_pos ht, if_neg hx]
      constructor
      · intro h
        cases h
      · rintro ⟨m, hm, hl⟩
        exact absurd (hl.trans ht) (hi.link_ne hn hm hx)
    · rw [if_neg ht, if_neg hx]
      exact hi.attempts t x

/-- A negotiation begins on the link that was to be opened next. -/
theorem opens (hi : g.Indexed) (hn : g.negotiations.get? r = none)
    (hl : n.link = g.world.sources.linkId g.world.opened)
    (hg : g'.negotiations = g.negotiations.insert r n) (ha : g'.attempts = g.attempts.insert n.link r)
    (hr : g'.routes = g.routes) (sources : g'.world.sources = g.world.sources)
    (opened : g'.world.opened = g.world.opened + 1)
    (requests : ∀ t, g'.world.requests t = g.world.requests t) : g'.Indexed := by
  have hnext := hi.attempts_next
  rw [← hl] at hnext
  refine ⟨by rw [sources]; exact hi.injective, ?_, ?_, ?_⟩
  · intro t x
    rw [ha, hg, Table.get?_insert, Table.get?_insert]
    by_cases ht : t = n.link
    · subst ht
      by_cases hx : x = r
      · simp [hx]
      · have h := hi.attempts n.link x
        rw [hnext] at h
        simp only [if_pos, if_neg hx, ← h]
        simp [Ne.symm hx]
    · rw [if_neg ht, hi.attempts t x]
      by_cases hx : x = r
      · subst hx
        simp [hn, Ne.symm ht]
      · simp [hx]
  · intro x c hc
    rw [hr] at hc
    rw [ha, Table.get?_insert, if_neg, hi.apart x c hc]
    rw [hl]
    exact (hi.fresh _ (Nat.le_refl _)).2.1 x c hc
  · intro i hle
    rw [opened] at hle
    obtain ⟨h₁, h₂, h₃⟩ := hi.fresh i (by omega)
    have hne : g.world.sources.linkId i ≠ n.link := by
      rw [hl]
      intro he
      have := hi.injective he
      omega
    rw [sources, ha, hr, Table.get?_insert, if_neg hne, requests]
    exact ⟨h₁, h₂, h₃⟩

end Indexed

/-- Negotiations and routes can only end, the links that are left belong to what they belonged to, and no
request is written. -/
structure Dwindles (g g' : Gateway) : Prop where
  indexed : g.Indexed → g'.Indexed
  negotiation : ∀ r n', g'.negotiations.get? r = some n' →
    ∃ n, g.negotiations.get? r = some n ∧ n'.progress = n.progress
  route : ∀ r c, g'.routes.get? r = some c → ∃ c₀, g.routes.get? r = some c₀ ∧ c₀.link = c.link
  grows : World.Grows CallKind.IsClosing g.world g'.world

namespace Dwindles

theorem refl (g : Gateway) : Dwindles g g :=
  ⟨id, fun _ n h => ⟨n, h, rfl⟩, fun _ c h => ⟨c, h, rfl⟩, .refl _⟩

theorem trans {f g h : Gateway} (a : Dwindles f g) (b : Dwindles g h) : Dwindles f h := by
  refine ⟨fun hi => b.indexed (a.indexed hi), ?_, ?_, a.grows.trans b.grows⟩
  · intro r n hn
    obtain ⟨n₁, h₁, e₁⟩ := b.negotiation r n hn
    obtain ⟨n₀, h₀, e₀⟩ := a.negotiation r n₁ h₁
    exact ⟨n₀, h₀, e₁.trans e₀⟩
  · intro r c hc
    obtain ⟨c₁, h₁, e₁⟩ := b.route r c hc
    obtain ⟨c₀, h₀, e₀⟩ := a.route r c₁ h₁
    exact ⟨c₀, h₀, e₀.trans e₁⟩

theorem requests (h : Dwindles g g') (t : LinkId) : g'.world.requests t = g.world.requests t :=
  h.grows.requests_eq (fun h => h.2 rfl) t

/-- Routes end and the negotiations stay. -/
theorem of_routes (hn : g'.negotiations = g.negotiations) (ha : g'.attempts = g.attempts)
    (hr : ∀ r c, g'.routes.get? r = some c → ∃ c₀, g.routes.get? r = some c₀ ∧ c₀.link = c.link)
    (hw : World.Grows CallKind.IsClosing g.world g'.world) : Dwindles g g' := by
  refine ⟨fun hi => ?_, fun r n h => ⟨n, hn ▸ h, rfl⟩, hr, hw⟩
  refine hi.narrow hw.sources (hw.opened fun h => h.1 rfl) ?_ (fun t h => ha ▸ h)
    (fun r c h => .inl (hr r c h)) fun t _ _ => hw.requests_eq (fun h => h.2 rfl) t
  intro t r
  rw [ha, hn]
  exact hi.attempts t r

/-- A negotiation ends, together with its attempt. -/
theorem of_discard (hn : g.negotiations.get? r = some n)
    (hg : g'.negotiations = g.negotiations.erase r) (ha : g'.attempts = g.attempts.erase n.link)
    (hr : g'.routes = g.routes) (hw : World.Grows CallKind.IsClosing g.world g'.world) :
    Dwindles g g' := by
  refine ⟨fun hi => ?_, ?_, fun x c h => ⟨c, hr ▸ h, rfl⟩, hw⟩
  · refine hi.narrow hw.sources (hw.opened fun h => h.1 rfl) ?_ ?_ (fun x c h => .inl ⟨c, hr ▸ h, rfl⟩)
      fun t _ _ => hw.requests_eq (fun h => h.2 rfl) t
    · intro t x
      rw [ha, hg]
      exact hi.attempts_erase hn t x
    · intro t ht
      rw [ha, Table.get?_erase, ht]
      split <;> rfl
  · intro x m hm
    rw [hg, Table.get?_erase] at hm
    split at hm
    · cases hm
    · exact ⟨m, hm, rfl⟩

/-- A negotiation changes without any progress. -/
theorem of_insert {m : Negotiation} (hn : g.negotiations.get? r = some n)
    (hp : m.progress = n.progress) (hg : g'.negotiations = g.negotiations.insert r m)
    (ha : g'.attempts = g.attempts) (hr : g'.routes = g.routes)
    (hw : World.Grows CallKind.IsClosing g.world g'.world) : Dwindles g g' := by
  refine ⟨fun hi => ?_, ?_, fun x c h => ⟨c, hr ▸ h, rfl⟩, hw⟩
  · exact hi.insert hn (congrArg Prod.fst hp) hg ha hr hw.sources (hw.opened fun h => h.1 rfl)
      fun t _ => hw.requests_eq (fun h => h.2 rfl) t
  · intro x k hk
    rw [hg, Table.get?_insert] at hk
    split at hk
    · rename_i hx
      cases hk
      exact ⟨n, hx ▸ hn, hp⟩
    · exact ⟨k, hk, rfl⟩

end Dwindles

theorem KeepsOutbound.dwindles (h : KeepsOutbound g g')
    (hw : World.Grows CallKind.IsClosing g.world g'.world) : Dwindles g g' :=
  .of_routes h.negotiations h.attempts (fun _ c hr => ⟨c, h.routes ▸ hr, rfl⟩) hw

theorem Fades.dwindles (h : Fades CallKind.IsPlain g g') (hk : KeepsOutbound g g') : Dwindles g g' :=
  hk.dwindles (h.grows.mono fun _ => CallKind.IsPlain.closing)

theorem setRoutes_dwindles {α : Type} (g : Gateway) (change : Registry.Change Route Carrier α)
    (h : ∀ r c, change.registry.get? r = some c → g.routes.get? r = some c) :
    Dwindles g (g.setRoutes change) := by
  refine .of_routes (g.setRoutes_negotiations _) (g.setRoutes_attempts _) ?_
    (g.setRoutes_grows (by simp [CallKind.IsClosing]) _)
  intro r c hc
  rw [setRoutes_routes] at hc
  exact ⟨c, h r c hc, rfl⟩

theorem releaseRoute_dwindles (g : Gateway) (route : Route) : Dwindles g (g.releaseRoute route).1 := by
  unfold releaseRoute
  split
  · exact .refl g
  · have hs : Dwindles g (g.setRoutes (g.routes.unregister route)) := by
      refine g.setRoutes_dwindles _ ?_
      intro r c hc
      rw [Registry.get?_unregister] at hc
      split at hc
      · cases hc
      · exact hc
    exact hs.trans (.of_routes rfl rfl (fun _ c h => ⟨c, h, rfl⟩)
      (World.grows_finish _ _ (by simp [CallKind.IsClosing])))

theorem dropRoute_dwindles (g : Gateway) (route : Route) (link : LinkId) :
    Dwindles g (g.dropRoute route link) := by
  have hc : Dwindles g { g with carried := g.carried.erase link } :=
    .of_routes rfl rfl (fun _ c h => ⟨c, h, rfl⟩) (.refl _)
  refine hc.trans (setRoutes_dwindles _ _ ?_)
  intro r c h
  rw [Registry.get?_unregisterWhere] at h
  exact (Option.filter_eq_some_iff.mp h).1

theorem carryRoute_dwindles (g : Gateway) (route : Route) :
    Dwindles g { g with routes := g.routes.modify route (·.carry g.now) } := by
  refine .of_routes rfl rfl ?_ (.refl _)
  intro r c h
  rw [Registry.get?_modify] at h
  split at h
  · obtain ⟨c₀, h₀, rfl⟩ := Option.map_eq_some_iff.mp h
    exact ⟨c₀, h₀, rfl⟩
  · exact ⟨c, h, rfl⟩

theorem onVerify_dwindles (g : Gateway) (link : LinkId) (e : Xml.Element) :
    Dwindles g (g.onVerify link e) :=
  (g.onVerify_keepsOutbound link e).dwindles
    ((g.onVerify_grows link e).mono fun _ h => CallKind.IsAnswer.closing (.inl h))

theorem onRoute_dwindles (g : Gateway) (route : Route) (link : LinkId) (event : LinkEvent) :
    Dwindles g (g.onRoute route link event) := by
  unfold onRoute
  split
  · exact .refl g
  · exact .refl g
  · exact g.dropRoute_dwindles route link
  · split
    · exact (g.carryRoute_dwindles route).trans (onVerify_dwindles _ _ _)
    · split
      · exact ((g.close_fades link).dwindles (g.act_keepsOutbound _)).trans (dropRoute_dwindles _ _ _)
      · exact ((g.fail_fades link _).dwindles (g.act_keepsOutbound _)).trans (dropRoute_dwindles _ _ _)

/-- What waited for a negotiation that is given up returns to its senders. -/
theorem return_dwindles (g : Gateway) (stanzas verifies : List Xml.Element) (reason : BounceReason) :
    Dwindles g (verifies.foldl failVerify
      (stanzas.foldl (fun g s => g.emit (.bounce s reason)) g)) := by
  have hb := (g.foldl_bounce_keepsOutbound stanzas reason).dwindles
    ((g.foldl_bounce_fades stanzas reason).grows.mono fun _ => CallKind.IsReturn.closing)
  exact hb.trans ((foldl_failVerify_fades _ _).dwindles (foldl_failVerify_keepsOutbound _ _))

theorem retire_dwindles (g : Gateway) (route : Route) : Dwindles g (g.retire route false) := by
  cases hn : g.negotiations.get? route with
  | none =>
    rw [retire, hn]
    exact .refl g
  | some n =>
    have hd : Dwindles g (g.discard route n false) :=
      .of_discard hn rfl rfl rfl
        ((g.discard_fades route n false).grows.mono fun _ => CallKind.IsPlain.closing)
    rw [retire_eq hn]
    exact hd.trans (return_dwindles _ _ _ _)

theorem bounceExpired_dwindles (ho : g.Orderly) (now : Nat) (route : Route) :
    Dwindles g (g.bounceExpired now route).1 := by
  unfold bounceExpired
  split
  · exact .refl g
  · rename_i n hn
    have hr : n.route = route := ho.route route n hn
    have hs : Dwindles g (g.setNegotiation (n.dropExpired now g.setup.settings.queueTimeout) g.world) := by
      refine .of_insert (m := n.dropExpired now g.setup.settings.queueTimeout) hn rfl ?_ rfl rfl
        (.refl _)
      rw [← hr]
      rfl
    exact hs.trans (return_dwindles _ _ [] _)

theorem sweepQueue_dwindles (ho : g.Orderly) (now : Nat) (route : Route) :
    Dwindles g (sweepQueue now g route).1 :=
  sweepQueue_relation_of_expired .refl (fun _ _ _ => .trans) (bounceExpired_dwindles ho now route)
    fun g _ _ _ => g.retire_dwindles route

theorem sweepAt_dwindles (ho : g.Orderly) (now : Nat) : Dwindles g (g.sweepAt now).1 :=
  ho.sweepAt_relation .refl (fun _ _ _ => .trans) (fun _ _ => Fades.dwindles) releaseRoute_dwindles
    fun _ ho => sweepQueue_dwindles ho now

end Gateway

end Interdomain
