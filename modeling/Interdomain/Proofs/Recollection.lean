import Interdomain.Proofs.Addresses
import Interdomain.Proofs.Candidates
import Interdomain.Proofs.Overtures
import Interdomain.Proofs.Routing
import Mathlib.Data.List.Induction

/-! The address that is remembered for a domain. It is the written form of the candidate on a link to which a route
to the domain was authorized last, whatever the source of that route. When nothing is resolved for the domain, the
next link to it is opened to the candidate that is read from what is remembered. -/
namespace Interdomain

open Protocol (Dialback)

/-- The operation authorizes a route to the domain, on a link to the candidate. -/
def Moment.AuthorizesOver (m : Moment) (domain : String) (c : Candidate) : Prop :=
  ∃ r n, r.destination = domain ∧ m.gateway.negotiations.get? r = some n ∧ n.current = c ∧ m.Enters r n.link

/-- No route to the domain has been authorized since one was on a link to the candidate. -/
def LastAuthorized (h : List Moment) (domain : String) (c : Candidate) : Prop :=
  ∃ i, Happens h i (·.AuthorizesOver domain c) ∧ ∀ k other, i < k → ¬ Happens h k (·.AuthorizesOver domain other)

namespace LastAuthorized

variable {h : List Moment} {m : Moment} {domain : String} {c : Candidate}

theorem last (authorizes : m.AuthorizesOver domain c) : LastAuthorized (h ++ [m]) domain c := by
  refine ⟨h.length, .last authorizes, fun k other later happens => ?_⟩
  have within := happens.lt_length
  rw [List.length_append, List.length_singleton] at within
  omega

theorem concat_iff : LastAuthorized (h ++ [m]) domain c ↔
    m.AuthorizesOver domain c ∨ LastAuthorized h domain c ∧ ∀ other, ¬ m.AuthorizesOver domain other := by
  constructor
  · rintro ⟨i, happens, since⟩
    rcases Happens.concat_iff.mp happens with before | ⟨_, now⟩
    · have quiet (other : Candidate) (now : m.AuthorizesOver domain other) : False :=
        since h.length other before.lt_length (.last now)
      exact .inr ⟨⟨i, before, fun k other later happens => since k other later happens.append⟩, quiet⟩
    · exact .inl now
  · rintro (now | ⟨⟨i, happens, since⟩, quiet⟩)
    · exact last now
    · refine ⟨i, happens.append, fun k other later happens => ?_⟩
      rcases Happens.concat_iff.mp happens with before | ⟨_, now⟩
      · exact since k other later before
      · exact quiet other now

/-- What has happened has happened a last time. -/
theorem of_mem (hm : m ∈ h) (authorizes : m.AuthorizesOver domain c) : ∃ c, LastAuthorized h domain c := by
  induction h using List.reverseRecOn with
  | nil => cases hm
  | append_singleton past now ih =>
    by_cases quiet : ∃ other, now.AuthorizesOver domain other
    · exact quiet.imp fun _ => last
    · rcases List.mem_append.mp hm with before | same
      · obtain ⟨c, before⟩ := ih before
        exact ⟨c, concat_iff.mpr (.inr ⟨before, not_exists.mp quiet⟩)⟩
      · rw [List.mem_singleton.mp same] at authorizes
        exact absurd ⟨c, authorizes⟩ quiet

end LastAuthorized

namespace Gateway

variable {g g' : Gateway} {r : Route} {n : Negotiation} {t : LinkId} {e : Xml.Element} {op : Operation}

/-- The addresses are as they were, and no link has come to carry a route. -/
structure Recalls (g g' : Gateway) : Prop where
  addresses : g'.addresses = g.addresses
  route : ∀ r t, g'.Carries r t → g.Carries r t

namespace Recalls

theorem trans {f g h : Gateway} (a : Recalls f g) (b : Recalls g h) : Recalls f h :=
  ⟨b.addresses.trans a.addresses, fun r t hc => a.route r t (b.route r t hc)⟩

theorem of_routes (addresses : g'.addresses = g.addresses) (routes : g'.routes = g.routes) : Recalls g g' :=
  ⟨addresses, fun r t hc => by rwa [Carries, routes] at hc⟩

theorem refl (g : Gateway) : Recalls g g := .of_routes rfl rfl

end Recalls

theorem KeepsOutbound.recalls (h : KeepsOutbound g g') : Recalls g g' := .of_routes h.addresses h.routes

theorem Dwindles.recalls (h : Dwindles g g') (addresses : g'.addresses = g.addresses) : Recalls g g' := by
  refine ⟨addresses, ?_⟩
  rintro r t ⟨c, found, rfl⟩
  exact h.route r c found

theorem setRoutes_addresses {α : Type} {change : Registry.Change Route Carrier α} {gone : List (Route × Carrier)}
    (removes : change.Removes g.routes gone) : (g.setRoutes change).addresses = g.addresses := by
  rw [setRoutes_of_removes removes]

theorem releaseRoute_recalls (g : Gateway) (route : Route) : Recalls g (g.releaseRoute route).1 := by
  refine (g.releaseRoute_dwindles route).recalls ?_
  unfold releaseRoute
  split
  · rfl
  · exact setRoutes_addresses (g.routes.unregister_removes route)

theorem dropRoute_addresses (g : Gateway) (route : Route) (link : LinkId) :
    (g.dropRoute route link).addresses = g.addresses :=
  setRoutes_addresses (g := { g with carried := g.carried.erase link }) (g.routes.unregisterAll_removes _)

theorem onRoute_recalls (g : Gateway) (route : Route) (link : LinkId) (event : LinkEvent) :
    Recalls g (g.onRoute route link event) := by
  refine (g.onRoute_dwindles route link event).recalls ?_
  unfold onRoute
  repeat' split
  · rfl
  · rfl
  · exact g.dropRoute_addresses route link
  · exact (onVerify_keepsOutbound _ _ _).addresses
  · exact dropRoute_addresses _ route link
  · exact dropRoute_addresses _ route link

theorem retire_recalls (g : Gateway) (route : Route) (linkGone : Bool) : Recalls g (g.retire route linkGone) := by
  cases hn : g.negotiations.get? route with
  | none =>
    rw [retire, hn]
    exact .refl g
  | some n =>
    rw [retire_eq hn]
    refine Recalls.trans ?_ (return_keepsOutbound _ _ _ _).recalls
    cases linkGone <;> exact .of_routes rfl rfl

theorem ClosedStep.recalls (hc : g.ClosedStep n g') : Recalls g g' := by
  cases hc with
  | advanced _ _ _ _ _ => exact .of_routes rfl rfl
  | @retired m _ _ _ _ =>
    have forgotten : Recalls g { g.setNegotiation m g.world with attempts := g.attempts.erase m.link } :=
      .of_routes rfl rfl
    exact forgotten.trans (retire_recalls _ _ _)

theorem hold_recalls (g : Gateway) (n : Negotiation) (e : Xml.Element) : Recalls g (g.hold n e).1 := by
  unfold hold
  split <;> exact .of_routes rfl rfl

theorem submit_recalls (g : Gateway) (e : Xml.Element) (resolved : Option String) :
    Recalls g (g.submit e resolved).1 := by
  have hs := g.submit_step e resolved
  generalize g.submit e resolved = s at hs
  have set (n : Negotiation) (w : World) : Recalls g (g.setNegotiation n w) := .of_routes rfl rfl
  cases hs with
  | @carried r c _ _ => exact ⟨rfl, fun x t => ((g.carryRoute_retains r).route x t).mp⟩
  | asked _ _ _ => exact (set _ _).trans (hold_recalls _ _ _)
  | joined _ _ _ => exact (set _ _).trans (hold_recalls _ _ _)
  | @began n w _ _ _ _ _ _ =>
    have put : Recalls g (g.putNegotiation n w) := .of_routes rfl rfl
    exact put.trans (hold_recalls _ _ _)
  | refused _ _ _ => exact (g.failVerify_keepsOutbound e).recalls
  | dropped _ _ => exact .refl g
  | returned _ => exact .of_routes rfl rfl

theorem onInbound_recalls (g : Gateway) (t : LinkId) (event : LinkEvent) : Recalls g (g.onInbound t event) := by
  rcases (g.onInbound_step t event).answers with ⟨keeps, _⟩ | ⟨e, claim, key, _, _, heq⟩
  · exact keeps.recalls
  · have opened : Recalls g (g.openClaim claim) := .of_routes rfl rfl
    rw [heq]
    refine opened.trans ?_
    unfold dispatchVerify
    split
    · exact submit_recalls _ _ none
    · exact .of_routes rfl rfl

/-- The route that was negotiated is authorized, and the address of the negotiation is remembered for its
destination. -/
structure Remembers (g : Gateway) (r : Route) (n : Negotiation) (g' : Gateway) : Prop where
  addresses : g'.addresses = g.addresses.insert r.destination n.current.toString
  route : ∀ x t, g'.Carries x t ↔ if x = r then n.link = t else g.Carries x t

theorem setRoutes_register_addresses {c : Carrier} {address : String} (known : c.address = some address) :
    (g.setRoutes (g.routes.register r c)).addresses = g.addresses.insert r.destination address := by
  obtain ⟨rest, _, _, notices⟩ := g.routes.entries_register r c
  rw [setRoutes, notices, List.foldl_append, foldl_noticeRoute_unregistered]
  simp [noticeRoute, known, emit, act]

theorem address_foldl_carry (c : Carrier) (now : Nat) (es : List Xml.Element) :
    (es.foldl (fun c _ => c.carry now) c).address = c.address := by
  induction es generalizing c with
  | nil => rfl
  | cons e es ih => exact ih (c.carry now)

theorem establish_remembers (hn : g.negotiations.get? r = some n) : Remembers g r n (g.establish r) := by
  constructor
  · simp only [establish, hn]
    exact setRoutes_register_addresses (g := g.handOver r n) (address_foldl_carry _ _ _)
  · intro x t
    obtain ⟨carrier, link, routes⟩ := establish_routes hn
    rw [Carries, routes]
    by_cases hx : x = r
    · simp [hx, link]
    · simp [hx, Carries]

theorem Remembers.before {g₁ : Gateway} {m : Negotiation} (h : Remembers g₁ r m g') (same : Recalls g g₁)
    (routes : g₁.routes = g.routes) (link : m.link = n.link) (current : m.current = n.current) :
    Remembers g r n g' := by
  refine ⟨by rw [h.addresses, same.addresses, current], fun x t => ?_⟩
  rw [h.route, link, Carries, routes, Carries]

/-- A turn authorizes the route of its negotiation, or leaves the addresses alone. -/
theorem follow_recalls {event : LinkEvent} {turn : Turn} (turns : g.turnOn n event = some turn)
    (serves : turn.Serves n g.world) :
    Recalls g (g.follow turn) ∨ Remembers g n.route n (g.follow turn) := by
  have set : Recalls g (g.setNegotiation turn.negotiation turn.world) := .of_routes rfl rfl
  have found := g.get?_setNegotiation_self turn.negotiation turn.world
  unfold follow
  dsimp only
  split
  · exact .inl set
  · refine .inr ?_
    rw [serves.route] at found ⊢
    exact (establish_remembers found).before set rfl serves.link (turnOn_continues turns).current
  · exact .inl (set.trans (retire_recalls _ _ _))
  · exact .inl (set.trans (onVerify_keepsOutbound _ _ _).recalls)

theorem onOutbound_recalls (ho : g.Orderly) (t : LinkId) (event : LinkEvent) :
    Recalls g (g.onOutbound t event) ∨
      ∃ r n, g.negotiations.get? r = some n ∧ Remembers g r n (g.onOutbound t event) := by
  unfold onOutbound
  cases ha : g.attempts.get? t with
  | none =>
    dsimp only
    cases hc : g.carried.get? t with
    | none => exact .inl (.refl g)
    | some r => exact .inl (g.onRoute_recalls r t event)
  | some r =>
    dsimp only
    cases hn : g.negotiations.get? r with
    | none => exact .inl (.of_routes rfl rfl)
    | some n =>
      have route : n.route = r := ho.route r n hn
      have turned {turn : Turn} (turns : g.turnOn n event = some turn) : Recalls g (g.follow turn) ∨
          ∃ x k, g.negotiations.get? x = some k ∧ Remembers g x k (g.follow turn) :=
        (follow_recalls turns (turnOn_serves (ho.verifies r n hn) turns)).imp_right fun remembers =>
          ⟨n.route, n, route ▸ hn, remembers⟩
      cases event with
      | closed error => exact .inl (g.onAttemptClosed_step n error).recalls
      | connected => exact turned rfl
      | header header => exact turned rfl
      | element e => exact turned rfl

/-- An operation leaves the addresses alone, or authorizes a route that was negotiated and remembers its address. -/
theorem step_recalls (ho : g.Orderly) (op : Operation) :
    Recalls g (g.step op) ∨ ∃ r n, g.negotiations.get? r = some n ∧ Remembers g r n (g.step op) := by
  cases op with
  | submit e resolved => exact .inl (g.step_submit e resolved ▸ g.submit_recalls e resolved)
  | inbound t event => exact .inl (g.onInbound_recalls t event)
  | outbound t event => exact onOutbound_recalls ho t event
  | sweep ahead =>
    have dwindles := sweepAt_dwindles ho (g.now + ahead)
    rw [← g.step_sweep ahead] at dwindles
    refine .inl (dwindles.recalls ?_)
    rw [step_sweep, sweepAt_eq ho]
    rfl
  | releaseRoute r => exact .inl (g.step_releaseRoute r ▸ g.releaseRoute_recalls r)
  | releaseClaim k => exact .inl (g.step_releaseClaim k ▸ (g.releaseClaim_keepsOutbound k).recalls)
  | wait duration => exact .inl (.of_routes rfl rfl)
  | learn link facts => exact .inl (.of_routes rfl rfl)

/-- The address of each domain is the written form of the candidate over which it was authorized last. -/
def Recollects (h : List Moment) (g : Gateway) : Prop :=
  ∀ domain c, LastAuthorized h domain c → g.addresses.get? domain = some c.toString

theorem Recollects.step {h : List Moment} (hr : Recollects h g) (ho : g.Orderly)
    (apart : ∀ r n, g.negotiations.get? r = some n → g.routes.get? r = none) (op : Operation) :
    Recollects (h ++ [⟨g, op⟩]) (g.step op) := by
  intro domain c last
  rcases step_recalls ho op with recalls | ⟨r, n, found, remembers⟩
  · have quiet (other : Candidate) : ¬ (⟨g, op⟩ : Moment).AuthorizesOver domain other := by
      rintro ⟨x, k, _, _, _, absent, present⟩
      exact absent (recalls.route x k.link present)
    rcases LastAuthorized.concat_iff.mp last with now | ⟨before, _⟩
    · exact absurd now (quiet c)
    · rw [recalls.addresses, hr domain c before]
  · have enters : (⟨g, op⟩ : Moment).Enters r n.link := by
      refine ⟨?_, (remembers.route r n.link).mpr (by simp)⟩
      rintro ⟨carrier, routed, _⟩
      rw [apart r n found] at routed
      cases routed
    rw [remembers.addresses, Table.get?_insert]
    rcases LastAuthorized.concat_iff.mp last with now | ⟨before, quiet⟩
    · obtain ⟨x, k, destination, negotiated, current, absent, present⟩ := now
      have same : x = r := by
        by_contra other
        rw [Moment.next, remembers.route, if_neg other] at present
        exact absent present
      subst same
      have negotiated : g.negotiations.get? x = some k := negotiated
      rw [found] at negotiated
      cases negotiated
      rw [if_pos destination.symm, current]
    · have other : domain ≠ r.destination := by
        rintro rfl
        exact quiet n.current ⟨r, n, rfl, found, rfl, enters⟩
      rw [if_neg other, hr domain c before]

theorem run_recollects (setup : Setup) (world : World) (ops : List Operation) :
    Recollects ((initial setup world).history ops) ((initial setup world).run ops) := by
  have key := run_induction (P := fun h g => Kept h g ∧ Recollects h g) ⟨initial_kept setup world, ?_⟩
    (fun h g op hp => ⟨hp.1.step op, hp.2.step hp.1.orderly hp.1.order.apart op⟩) ops
  · exact key.2
  · rintro domain c ⟨i, happens, _⟩
    exact absurd happens.lt_length (by simp)

/-- A negotiation is at an address from a list, and its link was opened to it. -/
theorem run_current {setup : Setup} (default : setup.settings.defaultPort ≤ Text.max16) (world : World)
    (ops : List Operation) (found : ((initial setup world).run ops).negotiations.get? r = some n) :
    n.current.port ≤ Text.max16 ∧ (n.link, n.current) ∈ ((initial setup world).history ops).flatMap (·.opened r) := by
  obtain ⟨_, o, walk⟩ := (run_walking setup world ops).walk r n found
  have opened := List.mem_of_getLast? walk.current
  obtain ⟨m, hm, _, list⟩ := walk.began
  have same : m.gateway.setup = setup :=
    history_invariant (P := fun g => g.setup = setup) (run_setup setup world) (List.mem_of_getElem? hm)
  have listed : n.current ∈ m.gateway.candidates r m.operation.resolved? := by
    rw [list, ← walk.opened]
    exact List.mem_append_left _ (List.mem_map_of_mem opened)
  obtain ⟨x, hx, there⟩ := List.mem_flatMap.mp opened
  refine ⟨?_, List.mem_flatMap.mpr ⟨x, List.mem_of_mem_drop hx, there⟩⟩
  unfold candidates at listed
  split at listed
  · rw [same] at listed
    exact Candidate.port_le_of_mem_parseList default listed
  · cases listed

theorem run_lastAuthorized {setup : Setup} (default : setup.settings.defaultPort ≤ Text.max16) (world : World)
    (ops : List Operation) {domain : String} {c : Candidate}
    (last : LastAuthorized ((initial setup world).history ops) domain c) :
    c.port ≤ Text.max16 ∧
      ∃ r t, r.destination = domain ∧ (t, c) ∈ ((initial setup world).history ops).flatMap (·.opened r) ∧
        ∃ m ∈ (initial setup world).history ops, m.Enters r t := by
  obtain ⟨i, ⟨m, hm, r, n, destination, found, rfl, enters⟩, _⟩ := last
  have happened := List.mem_of_getElem? hm
  rw [getElem?_history] at hm
  obtain ⟨op, _, rfl⟩ := Option.map_eq_some_iff.mp hm
  obtain ⟨port, opened⟩ := run_current default world (ops.take i) found
  refine ⟨port, r, n.link, destination, ?_, _, happened, enters⟩
  have whole := (initial setup world).history_append (ops.take i) (ops.drop i)
  rw [List.take_append_drop] at whole
  rw [whole, List.flatMap_append]
  exact List.mem_append_left _ opened

theorem submit_begins {first : Candidate} {rest : List Candidate} {resolved : Option String} (goes : GoesTo e r)
    (unrouted : g.routes.get? r = none) (free : g.negotiations.get? r = none)
    (list : g.candidates r resolved = first :: rest) : (g.submit e resolved).1.negotiations.get? r ≠ none := by
  rw [submit_of_goesTo goes]
  simp only [submitOn, unrouted, free, list, Negotiation.start?]
  rw [hold_replaces (putNegotiation_replaces g _ _) e r]
  simp [Negotiation.fresh]

/-- An element that is to go out begins the negotiation of its route, if there is an address to try. -/
theorem step_begins {first : Candidate} {rest : List Candidate} (outgoing : (⟨g, op⟩ : Moment).outgoing? = some e)
    (goes : GoesTo e r) (unrouted : g.routes.get? r = none) (free : g.negotiations.get? r = none)
    (list : g.candidates r op.resolved? = first :: rest) : (g.step op).negotiations.get? r ≠ none := by
  unfold Moment.outgoing? at outgoing
  split at outgoing
  · rename_i x resolved operation
    cases outgoing
    have operation : op = .submit e resolved := operation
    subst operation
    rw [step_submit]
    exact submit_begins goes unrouted free list
  · rename_i link x operation
    have operation : op = .inbound link (.element x) := operation
    subst operation
    obtain ⟨claim, _, heq⟩ := onElement_of_inquiry outgoing
    have next : g.step (.inbound link (.element x)) = ((g.openClaim claim).submit e none).1 := heq
    rw [next]
    exact submit_begins (g := g.openClaim claim) goes unrouted free list
  · cases outgoing

/-- With one address to try, a link for a route that is not negotiated is opened to it, if any is. -/
theorem opened_of_candidates {c : Candidate} (ho : g.Orderly) (free : g.negotiations.get? r = none)
    (list : g.candidates r op.resolved? = [c]) :
    (∀ x ∈ (⟨g, op⟩ : Moment).opened r, x.2 = c) ∧
      ((g.step op).negotiations.get? r ≠ none → ∃ t, (⟨g, op⟩ : Moment).opened r = [(t, c)]) := by
  have course := step_course ho op r
  rw [free] at course
  cases begun : (g.step op).negotiations.get? r with
  | none =>
    rw [begun] at course
    cases course with
    | rests _ opens _ => simp [opens]
  | some k =>
    rw [begun] at course
    obtain ⟨same, addresses, _, opens, _⟩ := course.begins
    have same : g.candidates r op.resolved? = k.addresses ++ k.remaining := same
    rw [list, addresses] at same
    have current : k.current = c := by simp_all
    simp [opens, current]

/-- Candidates that were written are read back, each and in order. The address that is remembered for a domain is the
candidate over which a route to it was authorized last, and with a plain host the one to be tried next. -/
theorem candidates_recalled :
    (∀ (entries : List (String × Option Candidate)) (defaultPort : Nat),
      (∀ e ∈ entries, Candidate.IsEntry e.1 e.2) →
      Candidate.parseList defaultPort (",".intercalate (entries.map (·.1))) = entries.filterMap (·.2)) ∧
    (∀ entry defaultPort, Candidate.ofEntry? defaultPort entry = none ↔ Candidate.IsUnusable entry) ∧
    ∀ (setup : Setup) (world : World) (ops : List Operation) (domain : String),
      setup.settings.defaultPort ≤ Text.max16 →
      let g := (initial setup world).run ops
      let moments := (initial setup world).history ops
      ((∃ m ∈ moments, ∃ c, m.AuthorizesOver domain c) → ∃ c, LastAuthorized moments domain c) ∧
      ∀ c, LastAuthorized moments domain c →
        g.addresses.get? domain = some c.toString ∧
        (∃ r t, r.destination = domain ∧ (t, c) ∈ moments.flatMap (·.opened r) ∧ ∃ m ∈ moments, m.Enters r t) ∧
        (Candidate.PlainHost c.host → ∀ op r, let m : Moment := ⟨g, op⟩
          r.destination = domain → op.resolved? = none → g.negotiations.get? r = none →
          (∀ x ∈ m.opened r, x.2 = c) ∧
          ∀ e, m.outgoing? = some e → GoesTo e r → g.routes.get? r = none → ∃ t, m.opened r = [(t, c)]) := by
  refine ⟨fun entries defaultPort h => Candidate.parseList_of_entries h defaultPort,
    fun _ _ => Candidate.ofEntry?_eq_none_iff, fun setup world ops domain default => ?_⟩
  intro g moments
  refine ⟨fun ⟨m, hm, c, authorizes⟩ => LastAuthorized.of_mem hm authorizes, fun c last => ?_⟩
  obtain ⟨port, opened⟩ := run_lastAuthorized default world ops last
  have remembered : g.addresses.get? domain = some c.toString := run_recollects setup world ops domain c last
  refine ⟨remembered, opened, fun host op r => ?_⟩
  intro m destination resolved free
  have list : g.candidates r op.resolved? = [c] := by
    rw [candidates, resolved, destination, cachedAddress?, remembered]
    exact Candidate.parseList_toString host port _
  obtain ⟨only, begins⟩ := opened_of_candidates (run_orderly setup world ops) free list
  exact ⟨only, fun e outgoing goes unrouted => begins (step_begins outgoing goes unrouted free list)⟩

/-- The link to the first of two addresses is gone, and the route is authorized on the link to the second. -/
def secondAddressAuthorized : List Operation :=
  [.submit (sampleMessage "bob@b.example" "alice@a.example") (some "192.0.2.1,[2001:db8::1]:5271"),
    .outbound 100 (.closed (some "refused")),
    .outbound 101 .connected,
    .outbound 101 (.header { sampleHeader "b.example" with id := some "one", version := none }),
    .outbound 101 (.element (Dialback.resultReply "a.example" "b.example" true))]

theorem lastAuthorized_secondAddress :
    LastAuthorized (sample.history secondAddressAuthorized) "b.example" ⟨"2001:db8::1", 5271⟩ := by
  let x : Route := ⟨"b.example", "a.example"⟩
  let g := sample.run (secondAddressAuthorized.take 4)
  have negotiated : (g.negotiations.get? x).map (fun n => (n.link, n.current)) =
      some (101, ⟨"2001:db8::1", 5271⟩) := by
    decide +kernel
  obtain ⟨n, found, same⟩ := Option.map_eq_some_iff.mp negotiated
  obtain ⟨link, current⟩ := Prod.mk.inj same
  have before : (g.routes.get? x).map (·.link) = none := by decide +kernel
  have after : ((sample.run secondAddressAuthorized).routes.get? x).map (·.link) = some 101 := by decide +kernel
  refine ⟨4, ⟨⟨g, _⟩, getElem?_history .., x, n, rfl, found, current, ?_, ?_⟩, fun k other later happens => ?_⟩
  · rintro ⟨carrier, routed, _⟩
    rw [Option.map_eq_none_iff.mp before] at routed
    cases routed
  · rw [link]
    exact Option.map_eq_some_iff.mp after
  · have within : k < 5 := happens.lt_length
    omega

theorem second_address_recalled :
    let c : Candidate := ⟨"2001:db8::1", 5271⟩
    let r : Route := ⟨"b.example", "c.example"⟩
    let m : Moment :=
      ⟨sample.run secondAddressAuthorized, .submit (sampleMessage "bob@b.example" "carol@c.example") none⟩
    Candidate.parseList 5269 " [2001:db8::1]:5271,[::1,192.0.2.1:1" = [c, ⟨"192.0.2.1", 1⟩] ∧
      LastAuthorized (sample.history secondAddressAuthorized) "b.example" c ∧
      m.gateway.addresses.get? "b.example" = some "[2001:db8::1]:5271" ∧ ∃ t, m.opened r = [(t, c)] := by
  intro c r m
  obtain ⟨lists, _, runs⟩ := candidates_recalled
  have entries : ∀ e ∈ [(" [2001:db8::1]:5271", some c), ("[::1", none), ("192.0.2.1:1", some ⟨"192.0.2.1", 1⟩)],
      Candidate.IsEntry e.1 e.2 := by
    simp only [List.forall_mem_cons]
    have blank : Text.isBlank ' ' = true := by decide
    have unclosed : Candidate.IsUnusable ('[' :: "::1".toList) := .unclosed (by decide)
    refine ⟨.candidate [' '] [] ?_ ?_ (List.forall_mem_singleton.mpr blank) nofun ?_, .unusable ?_ unclosed,
      .candidate [] [] ?_ ?_ nofun nofun ?_, nofun⟩
    all_goals decide +kernel
  have last : LastAuthorized (sample.history secondAddressAuthorized) "b.example" c :=
    lastAuthorized_secondAddress
  obtain ⟨_, recalls⟩ := runs sample.setup sample.world secondAddressAuthorized "b.example" (by decide)
  obtain ⟨remembered, _, opens⟩ := recalls c last
  have written : c.toString = "[2001:db8::1]:5271" := by decide +kernel
  refine ⟨lists _ 5269 entries, last, written ▸ remembered, ?_⟩
  have goes : GoesTo (sampleMessage "bob@b.example" "carol@c.example") r := routed?_eq_some.mp (by decide +kernel)
  exact (opens (by decide) m.operation r rfl rfl (by decide +kernel)).2 _ rfl goes (by decide +kernel)

end Gateway

end Interdomain
