import Interdomain.Proofs.Overtures

/-! Where negotiations come from, as far as the version of their streams goes. A negotiation after an operation was
there before with the same version, or it has taken its turn at an event on its link, or it has just begun. -/
namespace Interdomain

open Protocol (Dialback)

/-- Nothing has come in on the link of a negotiation: at most, stanzas and requests wait or have been sent. -/
structure Negotiation.Idles (n k : Negotiation) : Prop where
  link : k.link = n.link
  version : k.version = n.version
  stage : k.stage = n.stage ∨ k.stage = .sentRequest

theorem Negotiation.Idles.refl (n : Negotiation) : n.Idles n := ⟨rfl, rfl, .inl rfl⟩

theorem Negotiation.Idles.trans {n m k : Negotiation} (a : n.Idles m) (b : m.Idles k) : n.Idles k := by
  refine ⟨b.link.trans a.link, b.version.trans a.version, ?_⟩
  rcases b.stage with hb | hb
  · rw [hb]
    exact a.stage
  · exact .inr hb

theorem Negotiation.sendRequest_idles (n : Negotiation) (setup : Setup) (w : World) :
    n.Idles (n.sendRequest setup w).1 := by
  unfold sendRequest
  split
  · exact ⟨rfl, rfl, .inr rfl⟩
  · exact ⟨rfl, rfl, .inl rfl⟩

theorem Negotiation.want_idles (n : Negotiation) (setup : Setup) (w : World) : n.Idles (n.want setup w).1 := by
  unfold want
  split
  · exact ⟨rfl, rfl, .inl rfl⟩
  · exact n.sendRequest_idles setup w
  · exact .refl n
  · exact .refl n

namespace Gateway

variable {g g' : Gateway} {r : Route} {n k : Negotiation}

/-- Every negotiation was there before. -/
def Lingers (g g' : Gateway) : Prop :=
  ∀ r k, g'.negotiations.get? r = some k → ∃ n, g.negotiations.get? r = some n ∧ n.Idles k

namespace Lingers

theorem of_eq (h : g'.negotiations = g.negotiations) : Lingers g g' := fun _ k hk => ⟨k, h ▸ hk, .refl k⟩

theorem refl (g : Gateway) : Lingers g g := .of_eq rfl

theorem trans {f g h : Gateway} (a : Lingers f g) (b : Lingers g h) : Lingers f h := by
  intro r k hk
  obtain ⟨m, hm, later⟩ := b r k hk
  obtain ⟨n, hn, before⟩ := a r m hm
  exact ⟨n, hn, before.trans later⟩

theorem of_insert (hn : g.negotiations.get? r = some n) (h : g'.negotiations = g.negotiations.insert r k)
    (idles : n.Idles k) : Lingers g g' := by
  intro x j hj
  rw [h, Table.get?_insert] at hj
  split at hj
  · rename_i hx
    cases hj
    exact ⟨n, hx ▸ hn, idles⟩
  · exact ⟨j, hj, .refl j⟩

theorem of_erase (h : g'.negotiations = g.negotiations.erase r) : Lingers g g' := by
  intro x j hj
  rw [h, Table.get?_erase] at hj
  split at hj
  · cases hj
  · exact ⟨j, hj, .refl j⟩

end Lingers

theorem KeepsOutbound.lingers (h : KeepsOutbound g g') : Lingers g g' := .of_eq h.negotiations

theorem hold_lingers (hn : g.negotiations.get? n.route = some n) (e : Xml.Element) : Lingers g (g.hold n e).1 := by
  unfold hold Negotiation.addVerify
  split
  · dsimp only
    split
    · exact .of_insert hn rfl (.refl n)
    · exact .of_insert hn rfl ⟨rfl, rfl, .inl rfl⟩
  · exact .of_insert hn rfl ⟨rfl, rfl, .inl rfl⟩

theorem retire_lingers (g : Gateway) (r : Route) (linkGone : Bool) : Lingers g (g.retire r linkGone) := by
  cases hn : g.negotiations.get? r with
  | none =>
    rw [retire, hn]
    exact .refl g
  | some n =>
    refine .of_erase (r := r) ?_
    rw [retire_eq hn, (return_keepsOutbound _ _ _ _).negotiations, discard_negotiations]

theorem dropRoute_lingers (g : Gateway) (r : Route) (t : LinkId) : Lingers g (g.dropRoute r t) :=
  .of_eq (setRoutes_negotiations _ _)

theorem onRoute_lingers (g : Gateway) (r : Route) (t : LinkId) (event : LinkEvent) :
    Lingers g (g.onRoute r t event) := by
  unfold onRoute
  split
  · exact .refl g
  · exact .refl g
  · exact g.dropRoute_lingers r t
  · split
    · exact (onVerify_keepsOutbound { g with routes := g.routes.modify r (·.carry g.now) } t _).lingers
    · split <;> exact dropRoute_lingers (g.act _) r t

theorem releaseRoute_lingers (g : Gateway) (r : Route) : Lingers g (g.releaseRoute r).1 := by
  unfold releaseRoute
  split
  · exact .refl g
  · exact .of_eq (setRoutes_negotiations _ _)

theorem sweepQueue_lingers (ho : g.Orderly) (now : Nat) (r : Route) : Lingers g (sweepQueue now g r).1 := by
  refine sweepQueue_relation .refl (fun _ _ _ => .trans) (fun n hn => ?_)
    (fun g stanzas reason => (g.return_keepsOutbound stanzas [] reason).lingers)
    fun g _ _ _ => g.retire_lingers r false
  exact .of_insert (k := n.dropExpired now g.setup.settings.queueTimeout) hn (by rw [← ho.route r n hn]; rfl)
    ⟨rfl, rfl, .inl rfl⟩

theorem sweepAt_lingers (ho : g.Orderly) (now : Nat) : Lingers g (g.sweepAt now).1 :=
  ho.sweepAt_relation .refl (fun _ _ _ => .trans) (fun _ _ _ => KeepsOutbound.lingers) releaseRoute_lingers
    fun _ ho => sweepQueue_lingers ho now

end Gateway

/-- Where a negotiation comes from. -/
inductive Moment.Derives (m : Moment) (r : Route) (k : Negotiation) : Prop
  | lingers {n} (found : m.gateway.negotiations.get? r = some n) (idles : n.Idles k)
  | turned {t event n turn} (operation : m.operation = .outbound t event)
      (attempt : m.gateway.attempts.get? t = some r) (found : m.gateway.negotiations.get? r = some n)
      (turns : m.gateway.turnOn n event = some turn) (rest : turn.rest = some k)
  | begins (version : k.version = 0) (stage : k.stage = .connecting ∨ k.stage = .sentRequest)

namespace Gateway

variable {g g' : Gateway} {r : Route} {n k : Negotiation} {op : Operation}

theorem Lingers.derives (h : Lingers g g') (hk : g'.negotiations.get? r = some k) :
    (⟨g, op⟩ : Moment).Derives r k := by
  obtain ⟨n, hn, idles⟩ := h r k hk
  exact .lingers hn idles

theorem SubmitStep.derives {e : Xml.Element} {s : Gateway × Delivery} (h : g.SubmitStep e s) (ho : g.Orderly)
    (hk : s.1.negotiations.get? r = some k) : (⟨g, op⟩ : Moment).Derives r k := by
  cases h with
  | carried _ _ => exact (Lingers.of_eq rfl).derives hk
  | @asked x n _ _ found =>
    have set : Lingers g (g.setNegotiation n g.world) :=
      .of_insert (k := n) found (by rw [← ho.route x n found]; rfl) (.refl n)
    exact (set.trans (hold_lingers (by simp [setNegotiation, Table.get?_insert]) e)).derives hk
  | @joined x n _ _ found =>
    have hr : (n.want g.setup g.world).1.route = x :=
      (n.want_serves g.setup g.world).route.trans (ho.route x n found)
    have set : Lingers g (g.setNegotiation (n.want g.setup g.world).1 (n.want g.setup g.world).2) :=
      .of_insert found (by rw [← hr]; rfl) (n.want_idles g.setup g.world)
    exact (set.trans (hold_lingers (by simp [setNegotiation, Table.get?_insert]) e)).derives hk
  | @began n w _ _ _ begins _ _ =>
    have held := hold_lingers (g := g.putNegotiation n w) (n := n) (by simp [putNegotiation, Table.get?_insert]) e
    obtain ⟨m, hm, idles⟩ := held r k hk
    simp only [putNegotiation, Table.get?_insert] at hm
    split at hm
    · cases hm
      exact .begins (idles.version.trans begins.version) (begins.stage ▸ idles.stage)
    · exact .lingers hm idles
  | refused _ _ _ => exact (g.failVerify_keepsOutbound _).lingers.derives hk
  | dropped _ _ => exact (Lingers.refl g).derives hk
  | returned _ => exact (Lingers.of_eq rfl).derives hk

theorem ClosedStep.derives (h : g.ClosedStep n g') (hk : g'.negotiations.get? r = some k) :
    (⟨g, op⟩ : Moment).Derives r k := by
  by_cases hr : r = n.route
  · cases h with
    | @advanced m j w route _ _ advances _ =>
      obtain ⟨begins, hj, _⟩ := Negotiation.advance?_begins advances
      simp only [putNegotiation, Table.get?_insert, hj, route, if_pos hr, Option.some.injEq] at hk
      subst hk
      exact .begins begins.version (.inl begins.stage)
    | @retired m route link _ _ =>
      rw [retire_eq (n := m) (by simp [setNegotiation, Table.get?_insert]),
        (return_keepsOutbound _ _ _ _).negotiations, discard_negotiations] at hk
      simp [Table.get?_erase, route, hr] at hk
  · exact .lingers ((h.get?_other hr).symm.trans hk) (.refl k)

theorem onOutbound_derives (ho : g.Orderly) {t : LinkId} {event : LinkEvent}
    (hk : (g.onOutbound t event).negotiations.get? r = some k) : (⟨g, .outbound t event⟩ : Moment).Derives r k := by
  unfold onOutbound at hk
  cases ha : g.attempts.get? t with
  | none =>
    rw [ha] at hk
    dsimp only at hk
    split at hk
    · exact (g.onRoute_lingers _ t event).derives hk
    · exact (Lingers.refl g).derives hk
  | some x =>
    rw [ha] at hk
    dsimp only at hk
    cases hn : g.negotiations.get? x with
    | none =>
      rw [hn] at hk
      exact (Lingers.of_eq rfl).derives hk
    | some n =>
      rw [hn] at hk
      dsimp only at hk
      have turned {turn : Turn} (turns : g.turnOn n event = some turn)
          (hk : (g.follow turn).negotiations.get? r = some k) : (⟨g, .outbound t event⟩ : Moment).Derives r k := by
        have route : turn.negotiation.route = x :=
          (turnOn_serves (ho.verifies x n hn) turns).route.trans (ho.route x n hn)
        rw [get?_follow, route] at hk
        split at hk
        · rename_i hr
          subst hr
          exact .turned rfl ha hn turns hk
        · exact .lingers hk (.refl k)
      cases event with
      | connected => exact turned rfl hk
      | header header => exact turned rfl hk
      | element e => exact turned rfl hk
      | closed error => exact (g.onAttemptClosed_step n error).derives hk

/-- Every negotiation comes from somewhere. -/
theorem step_derives (ho : g.Orderly) (hk : (g.step op).negotiations.get? r = some k) :
    (⟨g, op⟩ : Moment).Derives r k := by
  cases op with
  | submit stanza resolved =>
    rw [step_submit] at hk
    exact (g.submit_step stanza resolved).derives ho hk
  | inbound t event =>
    change (g.onInbound t event).negotiations.get? r = some k at hk
    rcases (g.onInbound_step t event).answers with ⟨keeps, _⟩ | ⟨e, claim, key, _, _, heq⟩
    · exact keeps.lingers.derives hk
    · rw [heq] at hk
      unfold dispatchVerify at hk
      split at hk
      · have opened : (⟨g.openClaim claim, .inbound t event⟩ : Moment).Derives r k :=
          ((g.openClaim claim).submit_step _ none).derives ⟨ho.route, ho.verifies⟩ hk
        cases opened with
        | lingers found idles => exact .lingers found idles
        | turned operation _ _ _ _ => cases operation
        | begins version stage => exact .begins version stage
      · exact (Lingers.of_eq rfl).derives hk
  | outbound t event => exact onOutbound_derives ho hk
  | sweep ahead =>
    rw [step_sweep] at hk
    exact (sweepAt_lingers ho _).derives hk
  | releaseRoute route =>
    rw [step_releaseRoute] at hk
    exact (g.releaseRoute_lingers route).derives hk
  | releaseClaim claim =>
    rw [step_releaseClaim] at hk
    exact (g.releaseClaim_keepsOutbound claim).lingers.derives hk
  | wait duration => exact (Lingers.of_eq rfl).derives hk
  | learn link facts => exact (Lingers.of_eq rfl).derives hk

end Gateway

end Interdomain
