import Interdomain.Proofs.Bookkeeping
import Interdomain.Proofs.Order

/-! What an operation means to the routes: it ends some of them, or hands an element to one, or hears a
verification on one, or makes a negotiation a route and hands over what waited for it. -/
namespace Interdomain

open Protocol (Dialback)

namespace Moment

/-- The element that is to go out: one that is submitted, or the request for a claim. -/
def outgoing? (m : Moment) : Option Xml.Element :=
  match m.operation with
  | .submit e _ => some e
  | .inbound link (.element e) => m.gateway.inquiry? link e
  | _ => none

/-- The element that goes out on a route at once. -/
def direct (m : Moment) : List Xml.Element :=
  (m.outgoing?.filter fun e => (Protocol.routed? e).any fun r => m.gateway.routes.contains r).toList

/-- The stanzas that waited for the route that is authorized now. -/
def flushed (m : Moment) : List Xml.Element :=
  match m.operation with
  | .outbound link _ =>
    match m.gateway.attempts.get? link with
    | some r => if m.next.routes.contains r then m.gateway.queued r else []
    | none => []
  | _ => []

/-- The elements that are handed to authorized routes for sending. -/
def handed (m : Moment) : List Xml.Element := m.direct ++ m.flushed

/-- A verification comes in on an authorized outbound stream. -/
def HearsOnRoute (m : Moment) : Prop :=
  ∃ t e r, m.operation = .outbound t (.element e) ∧ Dialback.isVerify e = true ∧
    m.gateway.attempts.get? t = none ∧ m.gateway.carried.get? t = some r

end Moment

namespace Gateway

variable {g g' : Gateway} {t : LinkId} {k : Claim} {r : Route} {n : Negotiation} {e : Xml.Element}

/-- What an operation means to the routes. -/
inductive RouteStep (m : Moment) : Prop
  | drops {gone} (drops : Drops m.gateway m.next gone) (handed : m.handed = []) (unheard : ¬ m.HearsOnRoute)
  | sends {r : Route} {c : Carrier} {e : Xml.Element} (found : m.gateway.routes.get? r = some c)
      (routes : m.next.routes = m.gateway.routes.modify r (·.carry m.gateway.now))
      (carried : m.next.carried = m.gateway.carried) (calls : m.calls = [.send c.link (.element e)])
      (handed : m.handed = [e]) (unheard : ¬ m.HearsOnRoute)
  | hears {r : Route} {c : Carrier} (found : m.gateway.routes.get? r = some c)
      (routes : m.next.routes = m.gateway.routes.modify r (·.carry m.gateway.now))
      (carried : m.next.carried = m.gateway.carried) (calls : announcements m.calls = [])
      (handed : m.handed = []) (heard : m.HearsOnRoute)
  | enters {r : Route} {n : Negotiation} {c : Carrier} (found : m.gateway.negotiations.get? r = some n)
      (link : c.link = n.link) (count : c.stanzas = n.stanzas.length)
      (routes : m.next.routes = (m.gateway.routes.register r c).registry)
      (carried : m.next.carried = m.gateway.carried.insert n.link r) (calls : m.calls = handOverCalls r n)
      (handed : m.handed = n.stanzas) (unheard : ¬ m.HearsOnRoute)

theorem setAdmissions_unannounced {α : Type} (g : Gateway) (change : Registry.Change Claim Carrier α) :
    World.Omits (·.announces = true) g.world (g.setAdmissions change).world := by
  refine foldl_relation (R := fun a b : Gateway => World.Omits _ a.world b.world) (fun a => .refl _)
    (fun _ _ _ => .trans) ?_ { g with admissions := change.registry }
  intro a n _
  cases n with
  | registered claim carrier => exact .refl _
  | unregistered claim carrier => exact .emit _ (by simp [Effect.announces, Carrier.account])

theorem grant_unannounced (g : Gateway) (k : Claim) (t : LinkId) :
    World.Omits (·.announces = true) g.world (g.grant k t).world :=
  ((g.closeClaim k).setAdmissions_unannounced _).trans (.emit _ (by simp [Effect.announces]))

theorem welcome_unbooked (w : World) (link : LinkId) (reply : Stream.Header) (version : Nat) (offer : Offer)
    (token : String) : World.Omits Effect.IsEntry w (welcome w link reply version offer token) := by
  unfold welcome
  dsimp only
  split
  · exact .trans (.emit _ id) (.emit _ id)
  · exact .emit _ id

theorem GuestStep.drops {event : LinkEvent} (hs : g.GuestStep t event g') : ∃ gone, Drops g g' gone := by
  have opened := g.openStream_keepsOutbound t
  have same : (g.openStream t).world = g.world := g.openStream_world t
  have delivered {f : Gateway} {v : Xml.Element} (keeps : KeepsOutbound g f) (world : f.world = g.world) :
      ∃ gone, Drops g (f.emit (.deliver v)) gone :=
    ⟨_, drops_of_keeps (keeps.trans (f.act_keepsOutbound _)) (world ▸ .emit f.world (by simp [Effect.announces]))⟩
  cases hs with
  | rests rests => exact ⟨_, rests.drops⟩
  | lapses lapses => exact lapses.drops
  | asks _ _ => exact delivered ⟨rfl, rfl, rfl, rfl, rfl, rfl⟩ rfl
  | grants _ _ isOpen admits =>
    exact ⟨_, drops_of_keeps (SettleStep.keepsOutbound (.granted isOpen admits)) (g.grant_unannounced _ _)⟩
  | greets =>
    refine ⟨_, drops_of_keeps (opened.trans ⟨rfl, rfl, rfl, rfl, rfl, rfl⟩) ?_⟩
    rw [← same]
    exact World.Omits.trans (.of_trace rfl) (.emit _ (by simp [Effect.announces]))
  | @accepts header reply host peer version offer _ =>
    have accepted := acceptStream_accepted (g.openStream t) t reply host peer version offer
    refine ⟨_, drops_of_keeps (opened.trans accepted.keeps) ?_⟩
    rw [← same, acceptStream_eq]
    refine World.Omits.trans ?_
      ((welcome_unbooked _ t reply version offer _).mono fun _ => Effect.isEntry_of_announces)
    unfold challenge
    dsimp only
    split
    · exact .trans (.of_trace rfl) (setAdmissions_unannounced _ _)
    · exact .of_trace rfl
  | delivers _ => exact delivered ⟨rfl, rfl, rfl, rfl, rfl, rfl⟩ rfl
  | carries _ _ => exact delivered ⟨rfl, rfl, rfl, rfl, rfl, rfl⟩ rfl

/-- A submission sends the element on its route, or is not about routes. -/
theorem submit_cases (g : Gateway) (e : Xml.Element) (resolved : Option String) :
    (∃ r c, GoesTo e r ∧ g.routes.get? r = some c ∧ (g.submit e resolved).1 = { g with
      world := g.world.sendElement c.link e
      routes := g.routes.modify r (·.carry g.now) }) ∨
    (∀ r, GoesTo e r → g.routes.get? r = none) ∧ Rests g (g.submit e resolved).1 := by
  by_cases h : ∃ r c, GoesTo e r ∧ g.routes.get? r = some c
  · obtain ⟨r, c, goes, found⟩ := h
    exact .inl ⟨r, c, goes, found, submit_of_carrier goes found resolved⟩
  · have unrouted (r : Route) (goes : GoesTo e r) : g.routes.get? r = none := by
      cases found : g.routes.get? r with
      | none => rfl
      | some c => exact absurd ⟨r, c, goes, found⟩ h
    exact .inr ⟨unrouted, submit_rests unrouted resolved⟩

/-- What goes out goes to its route, if the gateway is as at first but for its claims. -/
theorem RouteStep.passes {m : Moment} {resolved : Option String} (routes : g.routes = m.gateway.routes)
    (carried : g.carried = m.gateway.carried) (world : g.world = m.gateway.world)
    (next : m.next = (g.submit e resolved).1) (outgoing : m.outgoing? = some e) (flushed : m.flushed = [])
    (unheard : ¬ m.HearsOnRoute) : RouteStep m := by
  rcases g.submit_cases e resolved with ⟨r, c, goes, found, heq⟩ | ⟨unrouted, rests⟩
  · refine .sends (r := r) (c := c) (e := e) (routes ▸ found) ?_ ?_ ?_ ?_ unheard
    · rw [next, heq, routes, Gateway.now, world]
      rfl
    · rw [next, heq, carried]
    · refine m.calls_eq ?_
      rw [next, heq, ← world]
      rfl
    · have contained : m.gateway.routes.contains r = true := Table.contains_iff.mpr ⟨c, routes ▸ found⟩
      simp [Moment.handed, flushed, Moment.direct, outgoing, routed?_eq_some.mpr goes, contained]
  · refine .drops (show Drops _ _ [] from ?_) ?_ unheard
    · have drops := rests.drops
      rw [← next] at drops
      obtain ⟨es, trace, calls⟩ := drops.calls
      refine ⟨routes ▸ drops.routes, fun ha => drops.anchored fun t r hc => ?_, es, world ▸ trace, calls⟩
      obtain ⟨c, found, hl⟩ := ha t r (carried ▸ hc)
      exact ⟨c, routes.symm ▸ found, hl⟩
    · have refused : (m.outgoing?.filter fun e => (Protocol.routed? e).any fun r => m.gateway.routes.contains r) =
          none := by
        rw [outgoing, Option.filter_eq_none_iff]
        rintro x hx hany
        cases hx
        obtain ⟨r, hr, hc⟩ := (Option.any_eq_true ..).mp hany
        obtain ⟨c, found⟩ := Table.contains_iff.mp hc
        have free := unrouted r (routed?_eq_some.mp hr)
        rw [routes] at free
        rw [show m.gateway.routes.table.get? r = m.gateway.routes.get? r from rfl, free] at found
        cases found
      simp [Moment.handed, Moment.direct, flushed, refused]

theorem stanzas_foldl_carry (c : Carrier) (now : Nat) (es : List Xml.Element) :
    (es.foldl (fun c _ => c.carry now) c).stanzas = c.stanzas + es.length := by
  induction es generalizing c with
  | nil => rfl
  | cons e es ih =>
    rw [List.foldl_cons, ih, List.length_cons]
    simp only [Carrier.carry]
    omega

/-- A negotiation that becomes a route begins with the count of what it hands over. -/
theorem establish_carrier (hn : g.negotiations.get? r = some n) : ∃ c : Carrier, c.link = n.link ∧
    c.stanzas = n.stanzas.length ∧ (g.establish r).routes = (g.routes.register r c).registry ∧
      (g.establish r).carried = g.carried.insert n.link r := by
  obtain ⟨c, hc⟩ : ∃ c, c = n.stanzas.foldl (fun c _ => c.carry g.now)
    (Carrier.start n.link (some n.current.toString) g.now) := ⟨_, rfl⟩
  refine ⟨c, by rw [hc]; exact link_foldl_carry _ _ _, ?_, ?_, ?_⟩
  · rw [hc, stanzas_foldl_carry]
    simp [Carrier.start]
  · simp only [establish, hn, ← hc]
    exact setRoutes_routes _ _
  · simp only [establish, hn, setRoutes_carried]

/-- An outbound event hands nothing over if it leaves the routes as they are. -/
theorem handed_of_still (apart : ∀ r n, g.negotiations.get? r = some n → g.routes.get? r = none) {event : LinkEvent}
    (still : ∀ r, g.routes.get? r = none → (g.onOutbound t event).routes.get? r = none) :
    Moment.handed ⟨g, .outbound t event⟩ = [] := by
  have next : Moment.next ⟨g, .outbound t event⟩ = g.onOutbound t event := rfl
  simp only [Moment.handed, Moment.direct, Moment.outgoing?, Moment.flushed, next, Option.filter_none,
    Option.toList_none, List.nil_append]
  split
  · rename_i r _
    split
    · rename_i hc
      obtain ⟨c, found⟩ := Table.contains_iff.mp hc
      cases hn : g.negotiations.get? r with
      | none => exact queued_of_free hn
      | some n =>
        have free := still r (apart r n hn)
        rw [show (g.onOutbound t event).routes.table.get? r = (g.onOutbound t event).routes.get? r from rfl,
          free] at found
        cases found
    · rfl
  · rfl

theorem onVerify_drops (g : Gateway) (link : LinkId) (e : Xml.Element) : Drops g (g.onVerify link e) [] := by
  rcases g.onVerify_rests link e with h | ⟨k, u, _, isOpen, admits, heq⟩
  · exact h.drops
  · exact heq ▸ drops_of_keeps (SettleStep.keepsOutbound (.granted isOpen admits)) (g.grant_unannounced _ _)

/-- A verification on an outbound link is about no route, but counts on the route that the link carries. -/
theorem RouteStep.heard (apart : ∀ r n, g.negotiations.get? r = some n → g.routes.get? r = none)
    (anchored : g.Anchored) {event : LinkEvent} (hears : g.Hears e (.outbound t event)) :
    RouteStep ⟨g, .outbound t event⟩ := by
  cases hears with
  | @negotiation t r n verify attempt found =>
    have heq : g.onOutbound t (.element e) = (g.setNegotiation n g.world).onVerify n.link e := by
      simp only [onOutbound, attempt, found, onAttempt, n.onElement_of_isVerify g.setup g.world verify, follow]
    have rests : Rests g (g.setNegotiation n g.world) := ⟨rfl, rfl, rfl, rfl, .refl _⟩
    have drops := rests.drops.trans (onVerify_drops _ n.link e) (.inl rfl)
    refine .drops (show Drops g (g.onOutbound t (.element e)) [] from heq ▸ drops) (handed_of_still apart
      fun r hr => by rw [heq, (onVerify_keepsOutbound _ _ e).routes, rests.routes, hr]) ?_
    rintro ⟨u, x, r, hop, _, free, _⟩
    cases hop
    rw [free] at attempt
    cases attempt
  | @route t r verify free carried =>
    obtain ⟨c, found, _⟩ := anchored t r carried
    have next : Moment.next ⟨g, .outbound t (.element e)⟩ =
        { g with routes := g.routes.modify r (·.carry g.now) }.onVerify t e := by
      show g.onOutbound t (.element e) = _
      simp only [onOutbound, free, carried, onRoute, if_pos verify]
    have keeps := onVerify_keepsOutbound { g with routes := g.routes.modify r (·.carry g.now) } t e
    obtain ⟨es, trace, calls⟩ := (onVerify_drops { g with routes := g.routes.modify r (·.carry g.now) } t e).calls
    refine .hears found (by rw [next, keeps.routes]) (by rw [next, keeps.carried]) ?_
      (handed_of_still apart fun x hx => ?_) ⟨t, e, r, rfl, verify, free, carried⟩
    · rw [← next] at trace
      exact Moment.calls_eq trace ▸ calls
    · rw [show g.onOutbound t (.element e) = _ from next, keeps.routes, Registry.get?_modify, hx]
      simp

/-- A negotiation that becomes a route hands over what waited for it. -/
theorem RouteStep.establishes {m : Negotiation} {event : LinkEvent}
    (apart : ∀ r n, g.negotiations.get? r = some n → g.routes.get? r = none)
    (attempt : g.attempts.get? t = some n.route) (found : g.negotiations.get? n.route = some n)
    (route : m.route = n.route) (link : m.link = n.link) (queue : m.queue = n.queue) (verifies : m.verifies = n.verifies)
    (heq : g.onOutbound t event = (g.setNegotiation m g.world).establish n.route)
    (unheard : ¬ Moment.HearsOnRoute ⟨g, .outbound t event⟩) : RouteStep ⟨g, .outbound t event⟩ := by
  have here : (g.setNegotiation m g.world).negotiations.get? n.route = some m := by
    simp [setNegotiation, Table.get?_insert, route]
  have unrouted : (g.setNegotiation m g.world).routes.get? n.route = none := apart n.route n found
  obtain ⟨c, own, count, routes, carried⟩ := establish_carrier here
  have stanzas : m.stanzas = n.stanzas := by simp [Negotiation.stanzas, queue]
  have next : Moment.next ⟨g, .outbound t event⟩ = (g.setNegotiation m g.world).establish n.route := heq
  have contained : (Moment.next ⟨g, .outbound t event⟩).routes.contains n.route = true := by
    rw [next, routes]
    have h := (g.setNegotiation m g.world).routes.get?_register n.route n.route c
    exact Table.contains_iff.mpr ⟨c, by rwa [if_pos rfl] at h⟩
  refine .enters found (own.trans link) (count.trans (by rw [stanzas])) (by rw [next, routes]; rfl)
    (by rw [next, carried, link]; rfl) ?_ ?_ unheard
  · have trace := establish_trace here unrouted
    rw [← next] at trace
    rw [Moment.calls_eq trace]
    simp only [handOverCalls, link, verifies, stanzas]
  · simp only [Moment.handed, Moment.direct, Moment.outgoing?, Moment.flushed, attempt, contained, if_true,
      queued_of_get? found, Option.filter_none, Option.toList_none, List.nil_append]

theorem RouteStep.outbound (apart : ∀ r n, g.negotiations.get? r = some n → g.routes.get? r = none)
    (anchored : g.Anchored) (ho : g.Orderly) (t : LinkId) (event : LinkEvent) :
    RouteStep ⟨g, .outbound t event⟩ := by
  by_cases hears : ∃ e, g.Hears e (.outbound t event)
  · obtain ⟨e, hears⟩ := hears
    exact .heard apart anchored hears
  · have unheard : ¬ Moment.HearsOnRoute ⟨g, .outbound t event⟩ := by
      rintro ⟨u, e, r, hop, verify, free, carried⟩
      cases hop
      exact hears ⟨e, .route verify free carried⟩
    cases onOutbound_host ho fun e he => hears ⟨e, he⟩ with
    | rests rests =>
      exact .drops (show Drops g (g.onOutbound t event) [] from rests.drops)
        (handed_of_still apart fun r hr => by rw [rests.routes, hr]) unheard
    | lapses lapses still =>
      obtain ⟨gone, drops⟩ := lapses.drops
      exact .drops (show Drops g (g.onOutbound t event) gone from drops) (handed_of_still apart still) unheard
    | enters attempt found route link queue verifies heq =>
      exact .establishes apart attempt found route link queue verifies heq unheard

theorem step_routes (apart : ∀ r n, g.negotiations.get? r = some n → g.routes.get? r = none)
    (anchored : g.Anchored) (ho : g.Orderly) (op : Operation) : RouteStep ⟨g, op⟩ := by
  have unheard (other : ∀ t event, op ≠ .outbound t event) : ¬ Moment.HearsOnRoute ⟨g, op⟩ :=
    fun ⟨t, e, _, hop, _⟩ => other t (.element e) hop
  cases op with
  | submit e resolved =>
    exact .passes (g := g) rfl rfl rfl (g.step_submit e resolved) rfl rfl (unheard (by simp))
  | inbound t event =>
    cases hi : Moment.inquiry? ⟨g, .inbound t event⟩ with
    | some v =>
      cases event with
      | element e =>
        obtain ⟨k, _, heq⟩ := onElement_of_inquiry hi
        exact .passes (g := g.openClaim k) rfl rfl rfl heq hi rfl (unheard (by simp))
      | _ => cases hi
    | none =>
      obtain ⟨gone, drops⟩ := (g.onInbound_guest t event hi).drops
      refine .drops drops ?_ (unheard (by simp))
      have outgoing : Moment.outgoing? ⟨g, .inbound t event⟩ = none := by
        cases event with
        | element e => exact hi
        | _ => rfl
      simp [Moment.handed, Moment.direct, Moment.flushed, outgoing]
  | outbound t event => exact .outbound apart anchored ho t event
  | sweep ahead =>
    obtain ⟨gone, drops⟩ := (g.sweepAt_books (g.now + ahead)).1
    rw [← g.step_sweep ahead] at drops
    exact .drops drops rfl (unheard (by simp))
  | releaseRoute r =>
    obtain ⟨gone, drops⟩ := (g.releaseRoute_lapses r).drops
    rw [← g.step_releaseRoute r] at drops
    exact .drops drops rfl (unheard (by simp))
  | releaseClaim k =>
    obtain ⟨gone, drops⟩ := (g.releaseClaim_lapses k).drops
    rw [← g.step_releaseClaim k] at drops
    exact .drops drops rfl (unheard (by simp))
  | wait duration =>
    have rests : Rests g (g.step (.wait duration)) := ⟨rfl, rfl, rfl, rfl, .refl _⟩
    exact .drops rests.drops rfl (unheard (by simp))
  | learn link facts =>
    have rests : Rests g (g.step (.learn link facts)) := ⟨rfl, rfl, rfl, rfl, .refl _⟩
    exact .drops rests.drops rfl (unheard (by simp))

/-- A link that the tables give for a route carries it, whatever the operation. -/
theorem RouteStep.anchored {m : Moment} (hs : RouteStep m)
    (apart : ∀ r n, m.gateway.negotiations.get? r = some n → m.gateway.routes.get? r = none)
    (anchored : m.gateway.Anchored) : m.next.Anchored := by
  have counted {r : Route} (routes : m.next.routes = m.gateway.routes.modify r (·.carry m.gateway.now))
      (carried : m.next.carried = m.gateway.carried) : m.next.Anchored := by
    intro t x ht
    obtain ⟨c, found, hl⟩ := anchored t x (carried ▸ ht)
    rw [Carries, routes, Registry.get?_modify, found]
    split
    · exact ⟨_, rfl, hl⟩
    · exact ⟨c, rfl, hl⟩
  cases hs with
  | drops drops _ _ => exact drops.anchored anchored
  | sends _ routes carried _ _ _ => exact counted routes carried
  | hears _ routes carried _ _ _ => exact counted routes carried
  | @enters r n c found link _ routes carried _ _ _ =>
    intro t x ht
    rw [carried, Table.get?_insert] at ht
    rw [Carries, routes, Registry.get?_register]
    split at ht
    · cases ht
      rw [if_pos rfl]
      exact ⟨c, rfl, by rw [link]; exact Eq.symm ‹_›⟩
    · obtain ⟨c', found', hl⟩ := anchored t x ht
      have hne : x ≠ r := by
        rintro rfl
        rw [apart x n found] at found'
        cases found'
      rw [if_neg hne]
      exact ⟨c', found', hl⟩

/-- What the steps of a run need to know to keep the books. -/
structure Kept (h : List Moment) (g : Gateway) : Prop where
  orderly : g.Orderly
  order : InOrder h g
  anchored : g.Anchored

theorem Kept.routes {h : List Moment} (hk : Kept h g) (op : Operation) : RouteStep ⟨g, op⟩ :=
  step_routes hk.order.apart hk.anchored hk.orderly op

theorem Kept.step {h : List Moment} (hk : Kept h g) (op : Operation) : Kept (h ++ [⟨g, op⟩]) (g.step op) :=
  ⟨(step_total hk.orderly op).1, hk.order.step hk.orderly, (hk.routes op).anchored hk.order.apart hk.anchored⟩

theorem initial_kept (setup : Setup) (world : World) : Kept [] (initial setup world) :=
  ⟨initial_orderly setup world, initial_inOrder setup world, nofun⟩

theorem run_kept (setup : Setup) (world : World) (ops : List Operation) :
    Kept ((initial setup world).history ops) ((initial setup world).run ops) :=
  run_induction (P := Kept) (initial_kept setup world) (fun _ _ op hk => hk.step op) ops

theorem kept_of_mem {setup : Setup} {world : World} {ops : List Operation} {m : Moment}
    (hm : m ∈ (initial setup world).history ops) : ∃ h, Kept h m.gateway :=
  history_invariant (P := fun g => ∃ h, Kept h g) (fun ops => ⟨_, run_kept setup world ops⟩) hm

end Gateway

end Interdomain
