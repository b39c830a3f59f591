import Interdomain.Proofs.Waiting

/-! The order on a route. What waits for a negotiation waits in the order in which it came: stanzas in the
queue, and verify requests apart from it until the stream is ready. A pair of domains that is negotiated has
no route, so no stanza is written past the queue; and a negotiation that becomes a route writes its requests
before its stanzas. -/
namespace Interdomain

open Protocol (Dialback)

/-- The route that an element is addressed to, if its addresses are in order. -/
def Protocol.routed? (e : Xml.Element) : Option Route := (addresses e).toOption.map Gateway.routeOf

/-- The stanzas for a route, of a list of elements. -/
def stanzasFor (r : Route) (es : List Xml.Element) : List Xml.Element :=
  es.filter fun e => Protocol.isStanza e && Protocol.routed? e = some r

/-- The elements that have been written on links, in order. -/
def World.output (w : World) : List Xml.Element := w.trace.filterMap Effect.written?

/-- The verify requests for a route, in the order in which they arrived. -/
def arrivals (r : Route) (h : List Moment) : List Xml.Element :=
  (h.filterMap Moment.inquiry?).filter fun v => Protocol.routed? v = some r

/-- The stanzas that were submitted, in order. -/
def submissions (h : List Moment) : List Xml.Element := h.filterMap (·.operation.submitted?)

theorem routed?_eq_some {e : Xml.Element} {r : Route} :
    Protocol.routed? e = some r ↔ Gateway.GoesTo e r := by
  simp only [Protocol.routed?, Gateway.GoesTo]
  cases Protocol.addresses e <;> simp [Except.toOption]

theorem isStanza_of_isVerify {v : Xml.Element} (hv : Dialback.isVerify v = true) :
    Protocol.isStanza v = false := by
  simp only [Dialback.isVerify, Xml.Element.is, Bool.and_eq_true, decide_eq_true_eq] at hv
  simp [Protocol.isStanza, Protocol.namespaces, hv.2]

section Stanzas

variable {r : Route} {e : Xml.Element} {es fs : List Xml.Element}

@[simp] theorem stanzasFor_nil : stanzasFor r [] = [] := rfl

@[simp] theorem stanzasFor_append : stanzasFor r (es ++ fs) = stanzasFor r es ++ stanzasFor r fs :=
  List.filter_append es fs

theorem stanzasFor_eq_nil (h : ∀ e ∈ es, Protocol.isStanza e = true → Protocol.routed? e ≠ some r) :
    stanzasFor r es = [] := by
  rw [stanzasFor, List.filter_eq_nil_iff]
  intro e he hs
  simp only [Bool.and_eq_true, decide_eq_true_eq] at hs
  exact h e he hs.1 hs.2

theorem stanzasFor_of_isVerify (h : ∀ e ∈ es, Dialback.isVerify e = true) : stanzasFor r es = [] := by
  refine stanzasFor_eq_nil fun e he hs => ?_
  rw [isStanza_of_isVerify (h e he)] at hs
  cases hs

theorem World.output_sendElements (w : World) (id : LinkId) (es : List Xml.Element) :
    (w.sendElements id es).output = w.output ++ es := by
  simp only [output, trace_sendElements, List.filterMap_append, List.filterMap_map]
  congr 1
  exact List.filterMap_some

theorem World.output_sendElement (w : World) (id : LinkId) (e : Xml.Element) :
    (w.sendElement id e).output = w.output ++ [e] :=
  w.output_sendElements id [e]

theorem World.Grows.stanzasFor_output {P : CallKind → Prop} {u v : World} (h : World.Grows P u v)
    (hp : ¬ P .stanza) : stanzasFor r v.output = stanzasFor r u.output := by
  obtain ⟨es, he, hk, _⟩ := h.calls
  have hnone : stanzasFor r (es.filterMap Effect.written?) = [] := by
    refine stanzasFor_eq_nil fun e hm hs _ => ?_
    obtain ⟨c, hc, hw⟩ := List.mem_filterMap.mp hm
    exact hp (Effect.kind_of_written? hw hs ▸ hk c hc)
  simp only [output, he, List.filterMap_append, stanzasFor_append, hnone, List.append_nil]

end Stanzas

namespace Gateway

variable {g g' : Gateway} {h : List Moment} {m : Moment} {r : Route} {n : Negotiation} {e v : Xml.Element}

/-- The stanzas that wait for the negotiation of the route. -/
def queued (g : Gateway) (r : Route) : List Xml.Element :=
  (g.negotiations.get? r).elim [] (·.stanzas)

/-- The verify requests that wait for the negotiation of the route. -/
def held (g : Gateway) (r : Route) : List Xml.Element :=
  (g.negotiations.get? r).elim [] (·.verifies)

/-- What keeps the order: a pair of domains that is negotiated has no route; a stream that is ready has no
request waiting; and what was written, and then what waits, is in the order of arrival. -/
structure InOrder (h : List Moment) (g : Gateway) : Prop where
  apart : ∀ r n, g.negotiations.get? r = some n → g.routes.get? r = none
  flushed : ∀ r n, g.negotiations.get? r = some n → n.ready = true → n.verifies = []
  own : ∀ r n, g.negotiations.get? r = some n → ∀ e ∈ n.stanzas, GoesTo e r
  stanzas : ∀ r, (stanzasFor r g.world.output ++ stanzasFor r (g.queued r)).Sublist
    (stanzasFor r (submissions h))
  verifies : ∀ r, g.held r <:+ arrivals r h

theorem queued_of_get? (hn : g.negotiations.get? r = some n) : g.queued r = n.stanzas := by
  rw [queued, hn]
  rfl

theorem held_of_get? (hn : g.negotiations.get? r = some n) : g.held r = n.verifies := by
  rw [held, hn]
  rfl

theorem queued_of_free (hn : g.negotiations.get? r = none) : g.queued r = [] := by
  rw [queued, hn]
  rfl

theorem held_of_free (hn : g.negotiations.get? r = none) : g.held r = [] := by
  rw [held, hn]
  rfl

theorem Recedes.queued (hr : Recedes g g') (r : Route) : (g'.queued r).Sublist (g.queued r) := by
  cases hn : g'.negotiations.get? r with
  | none => simp [queued_of_free hn]
  | some n' =>
    obtain ⟨n, h₀, hs, _⟩ := hr.negotiation r n' hn
    rw [queued_of_get? hn, queued_of_get? h₀]
    exact hs

theorem Recedes.held (hr : Recedes g g') (r : Route) : g'.held r = g.held r ∨ g'.held r = [] := by
  cases hn : g'.negotiations.get? r with
  | none => exact .inr (held_of_free hn)
  | some n' =>
    obtain ⟨n, h₀, _, hv⟩ := hr.negotiation r n' hn
    rw [held_of_get? hn, held_of_get? h₀]
    exact hv.imp_left And.left

namespace InOrder

variable (hi : InOrder h g)
include hi

theorem recedes (hr : Recedes g g') : InOrder h g' := by
  refine ⟨fun r n' hn => ?_, fun r n' hn hready => ?_, fun r n' hn e he => ?_, fun r => ?_, fun r => ?_⟩
  · obtain ⟨n, h₀, _⟩ := hr.negotiation r n' hn
    exact hr.route r (hi.apart r n h₀)
  · obtain ⟨n, h₀, _, ⟨hv, ready⟩ | hv⟩ := hr.negotiation r n' hn
    · exact hv.trans (hi.flushed r n h₀ (ready hready))
    · exact hv
  · obtain ⟨n, h₀, hs, _⟩ := hr.negotiation r n' hn
    exact hi.own r n h₀ e (hs.subset he)
  · rw [hr.grows.stanzasFor_output (by simp)]
    exact (List.Sublist.append_left ((hr.queued r).filter _) _).trans (hi.stanzas r)
  · rcases hr.held r with he | he
    · exact he ▸ hi.verifies r
    · exact he ▸ List.nil_suffix

/-- A moment passes, and no request comes to wait. -/
theorem later (hq : ∀ v r, m.inquiry? = some v → GoesTo v r → g.held r = []) : InOrder (h ++ [m]) g := by
  refine ⟨hi.apart, hi.flushed, hi.own, fun r => ?_, fun r => ?_⟩
  · simp only [submissions, List.filterMap_append, stanzasFor_append]
    exact (hi.stanzas r).trans (List.sublist_append_left _ _)
  · cases hm : m.inquiry? with
    | none => simpa [arrivals, hm] using hi.verifies r
    | some v =>
      by_cases hv : Protocol.routed? v = some r
      · rw [hq v r hm (routed?_eq_some.mp hv)]
        exact List.nil_suffix
      · simpa [arrivals, hm, hv] using hi.verifies r

/-- A negotiation comes, or changes, in the order of arrival. -/
theorem put {h' : List Moment} {k : Negotiation} (hn : g'.negotiations = g.negotiations.insert k.route k)
    (hr : g'.routes = g.routes) (hw : World.Grows (· ≠ .stanza) g.world g'.world)
    (unrouted : g.routes.get? k.route = none) (flushed : k.ready = true → k.verifies = [])
    (own : ∀ e ∈ k.stanzas, GoesTo e k.route)
    (stanzas : (stanzasFor k.route g.world.output ++ stanzasFor k.route k.stanzas).Sublist
      (stanzasFor k.route (submissions h')))
    (verifies : k.verifies <:+ arrivals k.route h')
    (later : ∀ r ≠ k.route, (stanzasFor r (submissions h)).Sublist (stanzasFor r (submissions h')) ∧
      arrivals r h' = arrivals r h) : InOrder h' g' := by
  have here : g'.negotiations.get? k.route = some k := by rw [hn, Table.get?_insert, if_pos rfl]
  have other {r : Route} (hne : r ≠ k.route) : g'.negotiations.get? r = g.negotiations.get? r := by
    rw [hn, Table.get?_insert, if_neg hne]
  refine ⟨fun r x hx => ?_, fun r x hx => ?_, fun r x hx => ?_, fun r => ?_, fun r => ?_⟩
  · by_cases hk : r = k.route
    · rw [hr, hk, unrouted]
    · rw [hr]
      exact hi.apart r x (other hk ▸ hx)
  · by_cases hk : r = k.route
    · rw [hk, here] at hx
      cases hx
      exact flushed
    · exact hi.flushed r x (other hk ▸ hx)
  · by_cases hk : r = k.route
    · rw [hk, here] at hx
      cases hx
      exact hk ▸ own
    · exact hi.own r x (other hk ▸ hx)
  · rw [hw.stanzasFor_output (by simp)]
    by_cases hk : r = k.route
    · rw [hk, queued_of_get? here]
      exact stanzas
    · rw [queued, other hk]
      exact (hi.stanzas r).trans (later r hk).1
  · by_cases hk : r = k.route
    · rw [hk, held_of_get? here]
      exact verifies
    · rw [held, other hk, (later r hk).2]
      exact hi.verifies r

/-- A stanza waits behind the others. -/
theorem enqueue (hn : g.negotiations.get? n.route = some n) (goes : GoesTo e n.route)
    (quiet : m.inquiry? = none) (submitted : m.operation.submitted? = some e) :
    InOrder (h ++ [m]) (g.setNegotiation (n.enqueue e g.now) g.world) := by
  have stanzas : (n.enqueue e g.now).stanzas = n.stanzas ++ [e] := by
    simp [Negotiation.stanzas, Negotiation.enqueue]
  have submissions : submissions (h ++ [m]) = submissions h ++ [e] := by simp [submissions, submitted]
  have arrivals (r : Route) : arrivals r (h ++ [m]) = arrivals r h := by simp [arrivals, quiet]
  refine hi.put (k := n.enqueue e g.now) rfl rfl (.refl _) (hi.apart _ n hn) (hi.flushed _ n hn) ?_ ?_ ?_ ?_
  · intro x hx
    rw [stanzas, List.mem_append, List.mem_singleton] at hx
    rcases hx with hx | rfl
    · exact hi.own _ n hn x hx
    · exact goes
  · have before := hi.stanzas n.route
    rw [queued_of_get? hn] at before
    rw [stanzas, submissions, stanzasFor_append, stanzasFor_append, ← List.append_assoc]
    exact before.append_right _
  · rw [arrivals]
    exact held_of_get? hn ▸ hi.verifies n.route
  · intro r _
    rw [submissions, stanzasFor_append]
    exact ⟨List.sublist_append_left _ _, arrivals r⟩

/-- A request waits behind the others until the stream is ready, or is written. -/
theorem addVerify (hn : g.negotiations.get? n.route = some n) (goes : GoesTo v n.route)
    (hv : Dialback.isVerify v = true) (asks : m.inquiry? = some v) :
    InOrder (h ++ [m]) (g.setNegotiation (n.addVerify g.world v).1 (n.addVerify g.world v).2) := by
  unfold Negotiation.addVerify
  split
  · rename_i hready
    have written : Recedes g (g.setNegotiation n (g.world.sendElement n.link v)) :=
      .of_insert hn rfl rfl (List.Sublist.refl _) (.inl ⟨rfl, id⟩)
        (g.world.grows_sendElement _ (by simp [CallKind.ofElement_verify hv]))
    refine (hi.recedes written).later fun x r hx hgoes => ?_
    rw [asks] at hx
    cases hx
    rw [goes.unique hgoes]
    rcases written.held n.route with hh | hh
    · rw [hh, held_of_get? hn, hi.flushed _ n hn hready]
    · exact hh
  · rename_i hready
    have longer (r : Route) :
        (stanzasFor r (submissions h)).Sublist (stanzasFor r (submissions (h ++ [m]))) := by
      simp only [submissions, List.filterMap_append, stanzasFor_append]
      exact List.sublist_append_left _ _
    refine hi.put (k := { n with verifies := n.verifies ++ [v] }) rfl rfl (.refl _) (hi.apart _ n hn)
      (fun h => absurd h hready) (hi.own _ n hn) ?_ ?_ ?_
    · have before := hi.stanzas n.route
      rw [queued_of_get? hn] at before
      exact before.trans (longer n.route)
    · have harrivals : arrivals n.route (h ++ [m]) = arrivals n.route h ++ [v] := by
        simp [arrivals, asks, routed?_eq_some.mpr goes]
      obtain ⟨earlier, he⟩ := hi.verifies n.route
      rw [held_of_get? hn] at he
      exact ⟨earlier, by rw [harrivals, ← he, List.append_assoc]⟩
    · intro r hr
      have hne : Protocol.routed? v ≠ some r := fun h => hr (goes.unique (routed?_eq_some.mp h))
      exact ⟨longer r, by simp [arrivals, asks, hne]⟩

theorem hold (hn : g.negotiations.get? n.route = some n) (goes : GoesTo e n.route)
    (verify : Dialback.isVerify e = true → m.inquiry? = some e)
    (plain : Dialback.isVerify e = false → m.inquiry? = none ∧ m.operation.submitted? = some e) :
    InOrder (h ++ [m]) (g.hold n e).1 := by
  unfold Gateway.hold
  split
  · exact hi.addVerify hn goes ‹_› (verify ‹_›)
  · have hp := plain (Bool.eq_false_iff.mpr ‹_›)
    exact hi.enqueue hn goes hp.1 hp.2

/-- A negotiation begins for a pair of domains without a route. -/
theorem begins {w : World} (unrouted : g.routes.get? n.route = none)
    (fresh : n.Begins g.world w) (queue : n.queue = []) (verifies : n.verifies = []) :
    InOrder h (g.putNegotiation n w) := by
  have stanzas : n.stanzas = [] := by simp [Negotiation.stanzas, queue]
  refine hi.put (k := n) rfl rfl (fresh.grows.mono (by rintro k (rfl | rfl) <;> simp)) unrouted
    (fun _ => verifies) (by simp [stanzas]) ?_ (by simp [verifies])
    fun r _ => ⟨List.Sublist.refl _, rfl⟩
  rw [stanzas, stanzasFor_nil, List.append_nil]
  exact (List.sublist_append_left _ _).trans (hi.stanzas n.route)

/-- A stanza is written on the route, where none waits. -/
theorem carry {c : Carrier} (hc : g.routes.get? r = some c) (goes : GoesTo e r)
    (verify : Dialback.isVerify e = true → m.inquiry? = some e)
    (plain : Dialback.isVerify e = false → m.inquiry? = none ∧ m.operation.submitted? = some e) :
    InOrder (h ++ [m]) { g with
      world := g.world.sendElement c.link e
      routes := g.routes.modify r (·.carry g.now) } := by
  have free : g.negotiations.get? r = none := by
    cases hn : g.negotiations.get? r with
    | none => rfl
    | some n =>
      rw [hi.apart r n hn] at hc
      cases hc
  have apart (x : Route) (n : Negotiation) (hn : g.negotiations.get? x = some n) :
      (g.routes.modify r (·.carry g.now)).get? x = none := by
    simp [Registry.get?_modify, hi.apart x n hn]
  have one {x : Route} (hs : stanzasFor x [e] ≠ []) : x = r ∧ Dialback.isVerify e = false := by
    obtain ⟨y, hy⟩ := List.exists_mem_of_ne_nil _ hs
    simp only [stanzasFor, List.mem_filter, List.mem_singleton, Bool.and_eq_true, decide_eq_true_eq] at hy
    obtain ⟨rfl, hstanza, hx⟩ := hy
    refine ⟨(goes.unique (routed?_eq_some.mp hx)), Bool.eq_false_iff.mpr fun hv => ?_⟩
    rw [isStanza_of_isVerify hv] at hstanza
    cases hstanza
  have written : InOrder h { g with routes := g.routes.modify r (·.carry g.now) } :=
    ⟨apart, hi.flushed, hi.own, hi.stanzas, hi.verifies⟩
  have later := written.later (m := m) fun v x hv hx => ?_
  · refine ⟨apart, hi.flushed, hi.own, fun x => ?_, later.verifies⟩
    show (stanzasFor x (g.world.sendElement c.link e).output ++ stanzasFor x (g.queued x)).Sublist _
    rw [World.output_sendElement, stanzasFor_append]
    by_cases hs : stanzasFor x [e] = []
    · rw [hs, List.append_nil]
      exact later.stanzas x
    · obtain ⟨rfl, hplain⟩ := one hs
      have before := hi.stanzas x
      rw [queued_of_free free, stanzasFor_nil, List.append_nil] at before ⊢
      have hsub : submissions (h ++ [m]) = submissions h ++ [e] := by
        simp [submissions, (plain hplain).2]
      rw [hsub, stanzasFor_append]
      exact before.append_right _
  · cases hv' : Dialback.isVerify e with
    | true =>
      rw [verify hv'] at hv
      cases hv
      rw [← goes.unique hx] at free
      exact held_of_free free
    | false =>
      rw [(plain hv').1] at hv
      cases hv

end InOrder

theorem SubmitStep.inOrder {s : Gateway × Delivery} (hs : g.SubmitStep e s) (ho : g.Orderly) (hi : InOrder h g)
    (verify : Dialback.isVerify e = true → m.inquiry? = some e)
    (plain : Dialback.isVerify e = false → m.inquiry? = none ∧ m.operation.submitted? = some e) :
    InOrder (h ++ [m]) s.1 := by
  cases hs with
  | carried goes found => exact hi.carry found goes verify plain
  | @asked r n goes _ found =>
    have hr := ho.route r n found
    have same : Recedes g (g.setNegotiation n g.world) :=
      .of_insert found (by rw [← hr]; rfl) rfl (List.Sublist.refl _) (.inl ⟨rfl, id⟩) (.refl _)
    exact (hi.recedes same).hold (by simp [setNegotiation, Table.get?_insert]) (hr.symm ▸ goes) verify plain
  | @joined r n goes _ found =>
    have hr := ho.route r n found
    have hw := n.want_serves g.setup g.world
    have wanted : Recedes g (g.setNegotiation (n.want g.setup g.world).1 (n.want g.setup g.world).2) := by
      refine .of_insert found (by rw [← hr, ← hw.route]; rfl) rfl ?_
        (.inl ⟨n.verifies_want _ _, fun h => n.ready_want g.setup g.world ▸ h⟩)
        (hw.grows.mono (by rintro k (rfl | rfl) <;> simp))
      have hq : (n.want g.setup g.world).1.queue = n.queue := hw.queue
      simp [Negotiation.stanzas, hq]
    exact (hi.recedes wanted).hold (by simp [setNegotiation, Table.get?_insert])
      ((hw.route.trans hr).symm ▸ goes) verify plain
  | began goes free unrouted begins queue verifies =>
    exact (hi.begins unrouted begins queue verifies).hold (by simp [putNegotiation, Table.get?_insert]) goes
      verify plain
  | refused goes hv free =>
    have hf := (g.failVerify_fades e).recedes (by simp [CallKind.IsPlain]) (g.failVerify_keepsOutbound e)
    refine (hi.recedes hf).later fun v r hasks hx => ?_
    rw [verify hv] at hasks
    cases hasks
    rw [goes.unique hx]
    rcases hf.held _ with hh | hh
    · rw [hh, held_of_free free]
    · exact hh
  | dropped lost hv =>
    refine hi.later fun v r hasks hx => ?_
    rw [verify hv] at hasks
    cases hasks
    obtain ⟨a, ha, _⟩ := hx
    exact absurd ha (lost a)
  | @returned reason hv =>
    have bounced : Recedes g (g.emit (.bounce e reason)) := (g.act_keepsOutbound _).recedes
      (World.grows_emit _ (by simp [Effect.kind]) (by simp [Effect.kind]))
    refine (hi.recedes bounced).later fun v r hasks hx => ?_
    rw [(plain hv).1] at hasks
    cases hasks

/-- The calls by which a negotiation hands over what waited for it, as its link becomes a route. -/
def handOverCalls (r : Route) (n : Negotiation) : List Effect :=
  n.verifies.map (fun v => .send n.link (.element v)) ++ n.stanzas.map (fun e => .send n.link (.element e)) ++
    [.routeUp r.destination]

theorem establish_world (hn : g.negotiations.get? r = some n) (unrouted : g.routes.get? r = none) :
    (g.establish r).world = ((g.world.sendElements n.link n.verifies).sendElements n.link n.stanzas).emit
      (.routeUp r.destination) := by
  obtain ⟨carrier, _, heq⟩ := establish_eq hn
  have noticed (g : Gateway) : (g.noticeRoute (.registered r carrier)).world =
      g.world.emit (.routeUp r.destination) := by
    simp only [noticeRoute]
    cases carrier.address <;> rfl
  rw [heq]
  simp only [setRoutes, Registry.notices_register carrier unrouted, List.foldl_cons, List.foldl_nil, noticed,
    handOver]

theorem establish_trace (hn : g.negotiations.get? r = some n) (unrouted : g.routes.get? r = none) :
    (g.establish r).world.trace = g.world.trace ++ handOverCalls r n := by
  simp only [establish_world hn unrouted, World.trace_emit, World.trace_sendElements, handOverCalls,
    List.append_assoc]

/-- The link of the negotiation carries the new route, and the others stay. -/
theorem establish_routes (hn : g.negotiations.get? r = some n) : ∃ carrier : Carrier, carrier.link = n.link ∧
    ∀ x, (g.establish r).routes.get? x = if x = r then some carrier else g.routes.get? x := by
  obtain ⟨carrier, hl, heq⟩ := establish_eq hn
  refine ⟨carrier, hl, fun x => ?_⟩
  rw [heq]
  simp only [setRoutes_routes, Registry.get?_register]

theorem establish_negotiations (hn : g.negotiations.get? r = some n) (x : Route) :
    (g.establish r).negotiations.get? x = if x = r then none else g.negotiations.get? x := by
  obtain ⟨carrier, _, heq⟩ := establish_eq hn
  rw [heq]
  simp [handOver, Table.get?_erase]

/-- A negotiation that becomes a route writes all that waited, in order. -/
theorem InOrder.establish (hi : InOrder h g) (ho : g.Orderly) (hn : g.negotiations.get? r = some n) :
    InOrder h (g.establish r) := by
  obtain ⟨carrier, _, routes⟩ := establish_routes hn
  have negotiations := establish_negotiations hn
  have output : (g.establish r).world.output = g.world.output ++ (n.verifies ++ n.stanzas) := by
    rw [World.output, establish_trace hn (hi.apart r n hn)]
    simp only [handOverCalls, List.filterMap_append, List.filterMap_map]
    simp [World.output, Function.comp_def, Effect.written?]
  have verifies (x : Route) : stanzasFor x n.verifies = [] := stanzasFor_of_isVerify (ho.verifies r n hn)
  have other {x : Route} {k : Negotiation} (hk : (g.establish r).negotiations.get? x = some k) :
      x ≠ r ∧ g.negotiations.get? x = some k := by
    rw [negotiations] at hk
    split at hk
    · cases hk
    · exact ⟨‹_›, hk⟩
  refine ⟨fun x k hk => ?_, fun x k hk => hi.flushed x k (other hk).2, fun x k hk => hi.own x k (other hk).2,
    fun x => ?_, fun x => ?_⟩
  · rw [routes, if_neg (other hk).1]
    exact hi.apart x k (other hk).2
  · rw [output, stanzasFor_append, stanzasFor_append, verifies, List.nil_append]
    by_cases hx : x = r
    · have before := hi.stanzas x
      rw [hx, queued_of_get? hn] at before
      rw [hx, queued_of_free (by rw [negotiations, if_pos rfl]), stanzasFor_nil, List.append_nil]
      exact before
    · have none : stanzasFor x n.stanzas = [] := stanzasFor_eq_nil fun e he _ hr =>
        hx ((hi.own r n hn e he).unique (routed?_eq_some.mp hr))
      rw [none, List.append_nil, queued, negotiations, if_neg hx]
      exact hi.stanzas x
  · rw [held, negotiations]
    split
    · exact List.nil_suffix
    · exact hi.verifies x

theorem setNegotiation_recedes {t : Turn} (hn : g.negotiations.get? n.route = some n) (hs : t.Serves n g.world)
    (hv : t.negotiation.verifies = n.verifies) (hr : t.negotiation.ready = n.ready) :
    Recedes g (g.setNegotiation t.negotiation t.world) := by
  refine .of_insert hn (by rw [← hs.route]; rfl) rfl ?_ (.inl ⟨hv, hr ▸ id⟩)
    (hs.grows.mono (by rintro k (rfl | rfl) <;> simp))
  simp [Negotiation.stanzas, hs.queue]

theorem InOrder.step {op : Operation} (hi : InOrder h g) (ho : g.Orderly) :
    InOrder (h ++ [⟨g, op⟩]) (g.step op) := by
  have quietly {g' : Gateway} (hq : Moment.inquiry? ⟨g, op⟩ = none) (hi : InOrder h g') :
      InOrder (h ++ [⟨g, op⟩]) g' := hi.later fun v r hv _ => by rw [hq] at hv; cases hv
  cases step_order ho op with
  | recedes recedes quiet next =>
    rw [show g.step op = _ from next]
    exact quietly quiet (hi.recedes recedes)
  | passes opened verify plain orderly step next =>
    rw [show g.step op = _ from next]
    exact step.inOrder orderly (hi.recedes opened) verify plain
  | @enters n t found serves verifies ready world quiet next =>
    rw [show g.step op = _ from next]
    refine quietly quiet ((hi.recedes (setNegotiation_recedes found serves verifies ready)).establish
      (n := t.negotiation) ?_ ?_)
    · exact ((setNegotiation_leaves found serves).orderly ho)
    · simp [setNegotiation, Table.get?_insert, serves.route]

/-- A submission writes the stanza on its route at most. -/
theorem SubmitStep.writes {s : Gateway × Delivery} (hs : g.SubmitStep e s) {t : LinkId} {x : Xml.Element}
    (hx : Protocol.isStanza x = true) (hm : .send t (.element x) ∈ s.1.world.since g.world) :
    ∃ r, GoesTo x r ∧ s.1.Carries r t ∧ g.Carries r t := by
  have none {P : CallKind → Prop} {w : World} (hw : World.Grows P g.world w) (hp : ¬ P .stanza)
      (heq : s.1.world = w) : ∃ r, GoesTo x r ∧ s.1.Carries r t ∧ g.Carries r t :=
    absurd (heq ▸ hm) (hw.not_writes hp hx t)
  have plain : ¬ CallKind.IsPlain .stanza := by simp [CallKind.IsPlain]
  cases hs with
  | @carried r c goes found =>
    simp only [World.since, World.sendElement, World.send, World.emit, List.drop_left, List.mem_singleton,
      Effect.send.injEq, Frame.element.injEq] at hm
    obtain ⟨rfl, rfl⟩ := hm
    exact ⟨r, goes, ((g.carryRoute_retains r).route r c.link).mpr ⟨c, found, rfl⟩, c, found, rfl⟩
  | @asked r n _ _ _ => exact none ((g.setNegotiation n g.world).hold_grows n e) plain rfl
  | @joined r n _ _ _ =>
    refine none (P := CallKind.IsTurn) ((n.want_serves g.setup g.world).grows.trans ?_) (by simp [CallKind.IsTurn]) rfl
    exact (hold_grows (g.setNegotiation _ (n.want g.setup g.world).2) _ e).mono fun _ => .inl
  | @began n w _ _ _ begins _ _ =>
    refine none (begins.grows.trans ?_) (by simp [CallKind.IsInquiry]) rfl
    exact (hold_grows (g.putNegotiation n w) n e).mono fun _ => .inl
  | refused _ _ _ => exact none (g.failVerify_fades _).grows plain rfl
  | dropped _ _ => exact none (P := CallKind.IsPlain) (.refl _) plain rfl
  | returned _ => exact none (g.bounce_fades _ _).grows (by simp [CallKind.IsReturn]) rfl

/-- A stanza is written on a link that carries its route. -/
theorem InOrder.writes {op : Operation} (hi : InOrder h g) (ho : g.Orderly) {t : LinkId} {x : Xml.Element}
    (hx : Protocol.isStanza x = true) (hm : .send t (.element x) ∈ Moment.calls ⟨g, op⟩) :
    ∃ r, GoesTo x r ∧ (g.step op).Carries r t := by
  have hm : .send t (.element x) ∈ (g.step op).world.since g.world := hm
  cases step_order ho op with
  | recedes recedes _ next =>
    rw [show g.step op = _ from next] at hm
    exact absurd hm (recedes.grows.not_writes (by simp) hx t)
  | passes opened _ _ _ step next =>
    rw [show g.step op = _ from next] at hm ⊢
    rcases (opened.grows.mem_since_iff step.grows).mp hm with hm | hm
    · exact absurd hm (opened.grows.not_writes (by simp) hx t)
    · obtain ⟨r, goes, carries, _⟩ := step.writes hx hm
      exact ⟨r, goes, carries⟩
  | @enters n turn found serves verifies ready world quiet next =>
    rw [show g.step op = _ from next] at hm ⊢
    have set := setNegotiation_recedes found serves verifies ready
    have here : (g.setNegotiation turn.negotiation turn.world).negotiations.get? n.route = some turn.negotiation := by
      simp [setNegotiation, Table.get?_insert, serves.route]
    have unrouted := (hi.recedes set).apart _ _ here
    have hw : (g.setNegotiation turn.negotiation turn.world).world = g.world := world
    rw [World.since, establish_trace here unrouted, hw, List.drop_left] at hm
    simp only [handOverCalls, List.mem_append, List.mem_map, Effect.send.injEq, Frame.element.injEq,
      List.mem_singleton, reduceCtorEq, or_false] at hm
    rcases hm with ⟨v, hv, _, rfl⟩ | ⟨s, hs, rfl, rfl⟩
    · rw [verifies] at hv
      rw [isStanza_of_isVerify (ho.verifies _ n found _ hv)] at hx
      cases hx
    · obtain ⟨carrier, hl, routes⟩ := establish_routes here
      exact ⟨n.route, (hi.recedes set).own _ _ here _ hs, carrier, by rw [routes, if_pos rfl], hl⟩

/-- A route begins as a negotiation hands over what waited for it. -/
theorem step_enters {op : Operation} (ho : g.Orderly) {c : Carrier}
    (unrouted : g.routes.get? r = none) (routed : (g.step op).routes.get? r = some c) :
    ∃ n, g.negotiations.get? r = some n ∧ c.link = n.link ∧ Moment.calls ⟨g, op⟩ = handOverCalls r n := by
  cases step_order ho op with
  | recedes recedes _ next =>
    rw [show g.step op = _ from next, recedes.route r unrouted] at routed
    cases routed
  | @passes e g₁ s opened _ _ _ step next =>
    have free := opened.route r unrouted
    have held (g : Gateway) (n : Negotiation) : (g.hold n e).1.routes = g.routes := by
      unfold hold
      split <;> rfl
    have still : s.1.routes.get? r = none := by
      cases step with
      | carried _ _ => simp [Registry.get?_modify, free]
      | refused _ _ _ => rw [(failVerify_keepsOutbound _ _).routes, free]
      | asked _ _ _ => exact (held _ _).symm ▸ free
      | joined _ _ _ => exact (held _ _).symm ▸ free
      | began _ _ _ _ _ _ => exact (held _ _).symm ▸ free
      | dropped _ _ => exact free
      | returned _ => exact free
    rw [show g.step op = _ from next, still] at routed
    cases routed
  | @enters n turn found serves verifies ready world quiet next =>
    have here : (g.setNegotiation turn.negotiation turn.world).negotiations.get? n.route = some turn.negotiation := by
      simp [setNegotiation, Table.get?_insert, serves.route]
    have unrouted' : (g.setNegotiation turn.negotiation turn.world).routes.get? r = none := unrouted
    obtain ⟨carrier, hl, routes⟩ := establish_routes here
    rw [show g.step op = _ from next, routes] at routed
    split at routed
    · rename_i hr
      subst hr
      cases routed
      refine ⟨n, found, hl.trans serves.link, ?_⟩
      have hw : (g.setNegotiation turn.negotiation turn.world).world = g.world := world
      have hc : handOverCalls n.route turn.negotiation = handOverCalls n.route n := by
        simp only [handOverCalls, serves.link, verifies, Negotiation.stanzas, serves.queue]
      rw [Moment.calls, show Moment.next ⟨g, op⟩ = _ from next, World.since, establish_trace here unrouted', hw,
        List.drop_left]
      exact hc
    · rw [unrouted'] at routed
      cases routed

theorem initial_inOrder (setup : Setup) (world : World) : InOrder [] (initial setup world) := by
  refine ⟨fun r n hn => ?_, fun r n hn => ?_, fun r n hn => ?_, fun r => ?_, fun r => List.nil_suffix⟩
  · cases hn
  · cases hn
  · cases hn
  · exact List.Sublist.refl _

theorem run_inOrder (setup : Setup) (world : World) (ops : List Operation) :
    ((initial setup world).run ops).Orderly ∧
      InOrder ((initial setup world).history ops) ((initial setup world).run ops) :=
  run_induction (P := fun h g => g.Orderly ∧ InOrder h g)
    ⟨initial_orderly setup world, initial_inOrder setup world⟩
    (fun _ _ op h => ⟨(step_total h.1 op).1, h.2.step h.1⟩) ops

theorem submissions_history (g : Gateway) (ops : List Operation) :
    submissions (g.history ops) = ops.filterMap Operation.submitted? := by
  induction ops generalizing g with
  | nil => rfl
  | cons op ops ih =>
    have hrest := ih (g.step op)
    simp only [submissions, history, List.filterMap_cons] at hrest ⊢
    rw [hrest]

/-- The stanzas for each route are written in the order in which they were submitted, on links that carry the
route. When the link of a negotiation becomes a route, first the verify requests that still wait are written
there, each once and in the order in which they arrived, and then the stanzas that wait. -/
theorem written_in_order (setup : Setup) (world : World) (ops : List Operation) (op : Operation) (r : Route) :
    let g := (initial setup world).run ops
    let m : Moment := ⟨g, op⟩
    (stanzasFor r g.world.output).Sublist (stanzasFor r (ops.filterMap Operation.submitted?)) ∧
      (∀ t e, .send t (.element e) ∈ m.calls → Protocol.isStanza e = true →
        ∃ x, GoesTo e x ∧ m.next.Carries x t) ∧
      ∀ c, g.routes.get? r = none → m.next.routes.get? r = some c →
        ∃ n earlier, g.negotiations.get? r = some n ∧ c.link = n.link ∧
          arrivals r ((initial setup world).history ops) = earlier ++ n.verifies ∧
          m.calls = n.verifies.map (fun v => .send c.link (.element v)) ++
            n.stanzas.map (fun e => .send c.link (.element e)) ++ [.routeUp r.destination] := by
  obtain ⟨ho, hi⟩ := run_inOrder setup world ops
  refine ⟨?_, fun t e hm he => hi.writes ho he hm, fun c unrouted routed => ?_⟩
  · rw [← submissions_history (initial setup world) ops]
    exact (List.sublist_append_left _ _).trans (hi.stanzas r)
  · obtain ⟨n, found, hl, hcalls⟩ := step_enters ho unrouted routed
    obtain ⟨earlier, he⟩ := hi.verifies r
    rw [held_of_get? found] at he
    refine ⟨n, earlier, found, hl, he.symm, ?_⟩
    rw [hl]
    exact hcalls

/-- A stanza, then a verify request and then another stanza wait for a route that is proved by SASL. -/
def waitingForSasl : List Operation :=
  [.submit (sampleMessage "bob@b.example" "alice@a.example") (some "192.0.2.1"),
    .submit (Dialback.verify "b.example" "a.example" "one" "key") none,
    .outbound 100 .connected,
    .outbound 100 (.header { sampleHeader "b.example" with id := some "two" }),
    .outbound 100 (.element (Protocol.features false true)),
    .submit (sampleMessage "carol@b.example" "alice@a.example") none,
    .outbound 100 (.element Protocol.saslSuccess),
    .outbound 100 (.header { sampleHeader "b.example" with id := some "three" })]

theorem requests_handed_over :
    let r : Route := ⟨"b.example", "a.example"⟩
    let op : Operation := .outbound 100 (.element (Protocol.features false false))
    let g := sample.run waitingForSasl
    let m : Moment := ⟨g, op⟩
    let v := Dialback.verify "b.example" "a.example" "one" "key"
    let bob := sampleMessage "bob@b.example" "alice@a.example"
    let carol := sampleMessage "carol@b.example" "alice@a.example"
    .send 100 (.element carol) ∈ m.calls ∧ Protocol.isStanza carol = true ∧
      (∃ x, GoesTo carol x ∧ m.next.Carries x 100) ∧
      ∃ c n earlier, g.routes.get? r = none ∧ m.next.routes.get? r = some c ∧
        g.negotiations.get? r = some n ∧ arrivals r (sample.history waitingForSasl) = earlier ++ n.verifies ∧
        m.calls = n.verifies.map (fun v => .send c.link (.element v)) ++
          n.stanzas.map (fun e => .send c.link (.element e)) ++ [.routeUp r.destination] ∧
        c.link = 100 ∧ n.verifies = [v] ∧ n.stanzas = [bob, carol] := by
  intro r op g m v bob carol
  have before : g.routes.get? r = none := by decide +kernel
  have after : m.next.routes.get? r = some ⟨100, some "192.0.2.1:5269", 2, 0, 0⟩ := by decide +kernel
  have written : .send 100 (.element carol) ∈ m.calls := by decide +kernel
  have plain : Protocol.isStanza carol = true := by decide +kernel
  have waits : (g.negotiations.get? r).map (fun n => (n.verifies, n.stanzas)) = some ([v], [bob, carol]) := by
    decide +kernel
  have ordered := written_in_order sample.setup sample.world waitingForSasl op r
  obtain ⟨n, earlier, found, _, harrivals, hcalls⟩ := ordered.2.2 _ before after
  obtain ⟨k, hk, hw⟩ := Option.map_eq_some_iff.mp waits
  have heq : some n = some k := found.symm.trans hk
  cases heq
  exact ⟨written, plain, ordered.2.1 100 carol written plain, _, n, earlier, before, after, found, harrivals,
    hcalls, rfl, congrArg Prod.fst hw, congrArg Prod.snd hw⟩

end Gateway

end Interdomain
