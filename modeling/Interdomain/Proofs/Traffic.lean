import Interdomain.Proofs.Announcements

/-! What authorizations carry. A stanza that comes in and is delivered, and an element that is handed to a route, are
counted once, with the admission, the legacy stream or the route that carries them; and the count of each that ends
goes into its record. -/
namespace Interdomain

open Protocol (Dialback)

/-- How many stanzas the records account for. -/
def recorded (rs : List Account) : Nat := (rs.map (·.stanzas)).sum

/-- How many stanzas legacy streams have carried. -/
def Gateway.legacyStanzas (g : Gateway) : Nat := (g.legacies.map (·.2.2.stanzas)).sum

theorem recorded_append (rs qs : List Account) : recorded (rs ++ qs) = recorded rs + recorded qs := by
  rw [recorded, List.map_append, List.sum_append]
  rfl

/-- Streams that begin have carried nothing. -/
theorem Moment.Welcomes.stanzas {m : Moment} (hw : m.Welcomes) (fresh : m.HeadsFresh) :
    m.next.legacyStanzas = m.gateway.legacyStanzas := by
  obtain ⟨l, empty, perm⟩ := hw fresh
  have h := (perm.map (·.2.2.stanzas)).sum_nat
  have zero : (l.map (·.2.2.stanzas)).sum = 0 := by
    refine List.sum_eq_zero_iff_forall_eq_nat.mpr fun n hn => ?_
    obtain ⟨e, he, rfl⟩ := List.mem_map.mp hn
    exact empty e he
  rw [List.map_append, List.sum_append, zero, Nat.zero_add] at h
  exact h

namespace Gateway

variable {g g' : Gateway} {h : List Moment} {m : Moment}

theorem recorded_admissions (now : Nat) (ended : List (Claim × Carrier)) :
    recorded (ended.map (admissionRecord now)) = (ended.map (·.2.stanzas)).sum := by
  rw [recorded, List.map_map]
  rfl

theorem recorded_legacies (now : Nat) (left : List (LinkId × String × Carrier)) :
    recorded (left.map (legacyRecord now)) = (left.map (·.2.2.stanzas)).sum := by
  rw [recorded, List.map_map]
  rfl

theorem recorded_routes (now : Nat) (gone : List (Route × Carrier)) :
    recorded (gone.map (routeRecord now)) = (gone.map (·.2.stanzas)).sum := by
  rw [recorded, List.map_map]
  rfl

/-- What is received is counted, and no count is lost. -/
theorem AdmissionStep.counts (hs : AdmissionStep m) (fresh : m.HeadsFresh) :
    m.received + (m.gateway.admissions.table.total (·.stanzas) + m.gateway.legacyStanzas) =
      recorded (inboundRecords m.calls) + (m.next.admissions.table.total (·.stanzas) + m.next.legacyStanzas) := by
  have kept (streams : m.next.streams = m.gateway.streams) : m.next.legacyStanzas = m.gateway.legacyStanzas := by
    rw [legacyStanzas, legacyStanzas, legacies, legacies, streams]
  cases hs with
  | @dismisses gone left dismisses _ received =>
    obtain ⟨es, trace, _, records⟩ := dismisses.calls
    have ended := (dismisses.admissions.map (·.2.stanzas)).sum_nat
    have closed := (dismisses.legacies.map (·.2.2.stanzas)).sum_nat
    have sum : recorded (inboundRecords es) = (gone.map (·.2.stanzas)).sum + (left.map (·.2.2.stanzas)).sum := by
      rw [← recorded_admissions m.gateway.now, ← recorded_legacies m.gateway.now, ← recorded_append]
      exact (records.map (·.stanzas)).sum_nat
    rw [List.map_append, List.sum_append] at ended closed
    rw [received, m.calls_eq trace, sum, Table.total_eq, Table.total_eq, legacyStanzas, legacyStanzas]
    simp only [Registry.entries] at ended
    omega
  | @registers k c _ empty admissions records legacies received =>
    obtain ⟨rest, before, after, _⟩ := m.gateway.admissions.entries_register k c
    have old := (before.map (·.2.stanzas)).sum_nat
    have new := (after.map (·.2.stanzas)).sum_nat
    rw [List.map_append, List.sum_append] at old
    rw [List.map_cons, List.sum_cons, empty] at new
    simp only [Registry.entries] at old new
    rw [received, records, recorded_admissions, legacies.stanzas fresh, admissions, Table.total_eq, Table.total_eq]
    omega
  | welcomes _ admissions records legacies received =>
    rw [received, records, legacies.stanzas fresh, admissions]
    rfl
  | @delivers k c _ found admissions streams records received =>
    have h := Table.total_modify (·.stanzas) found (·.carry m.gateway.now)
    change _ + c.stanzas = _ + (c.stanzas + 1) at h
    rw [received, records, admissions, kept streams]
    simp only [recorded, List.map_nil, List.sum_nil, Registry.modify]
    omega
  | @carries t stream peer carrier _ found phase admissions streams records received =>
    have old := ((legacies_erase found).map (·.2.2.stanzas)).sum_nat
    have new := ((legacies_modify found fun x =>
      { x with phase := .legacy peer (carrier.carry m.gateway.now) }).map (·.2.2.stanzas)).sum_nat
    have next : m.next.legacies = { m.gateway with streams := m.gateway.streams.modify t fun x =>
        { x with phase := .legacy peer (carrier.carry m.gateway.now) } }.legacies := by
      rw [legacies, legacies, streams]
    simp only [legacy?, phase, Option.toList_some, List.singleton_append, List.map_cons, List.sum_cons] at old new
    change _ = (carrier.stanzas + 1) + _ at new
    rw [received, records, admissions, legacyStanzas, legacyStanzas, next, old, new]
    simp only [recorded, List.map_nil, List.sum_nil]
    omega

/-- What is handed to routes, or heard on them, is counted, and no count is lost. -/
theorem Announces.stanzas {gone came : List (Route × Carrier)} (ha : Announces m gone came) :
    recorded (outboundRecords m.calls) = (gone.map (·.2.stanzas)).sum := by
  rw [ha.records, recorded_routes]

/-- What routes carry for the gateway is written on their links. -/
theorem RouteStep.written (hs : RouteStep m) {e : Xml.Element} (handed : e ∈ m.handed) :
    ∃ r t, m.next.Carries r t ∧ .send t (.element e) ∈ m.calls := by
  cases hs with
  | drops _ none _ => rw [none] at handed; cases handed
  | @sends r c x found routes _ calls single _ =>
    rw [single, List.mem_singleton] at handed
    refine ⟨r, c.link, ⟨c.carry m.gateway.now, ?_, rfl⟩, by rw [calls, handed]; exact List.mem_singleton.mpr rfl⟩
    rw [routes, Registry.get?_modify, if_pos rfl, found]
    rfl
  | hears _ _ _ _ none _ => rw [none] at handed; cases handed
  | @enters r n c _ link _ routes _ calls flushed _ =>
    rw [flushed] at handed
    refine ⟨r, n.link, ⟨c, ?_, link⟩, ?_⟩
    · rw [routes, Registry.get?_register, if_pos rfl]
    · rw [calls]
      simp [handOverCalls, handed]

/-- What was counted on authorizations over the history is in their records, or on those there are. -/
structure Counted (h : List Moment) (g : Gateway) : Prop where
  received : (h.map (·.received)).sum =
    recorded (inboundRecords g.world.trace) + (g.admissions.table.total (·.stanzas) + g.legacyStanzas)
  handed : recorded (outboundRecords g.world.trace) + g.routes.table.total (·.stanzas) =
    (h.map (·.handed.length)).sum + howOften h (·.HearsOnRoute)

theorem Counted.step (hk : Kept h g) (hc : Counted h g) {op : Operation} (fresh : Moment.HeadsFresh ⟨g, op⟩) :
    Counted (h ++ [⟨g, op⟩]) (g.step op) := by
  obtain ⟨gone, came, ha⟩ := hk.announces op
  have counts := (hk.admissions op).counts fresh
  have trace := hk.trace op
  refine ⟨?_, ?_⟩
  · rw [trace, List.map_append, List.sum_append, hc.received, inboundRecords_append, recorded_append]
    simp only [List.map_cons, List.map_nil, List.sum_cons, List.sum_nil]
    change Moment.received ⟨g, op⟩ + (g.admissions.table.total (·.stanzas) + g.legacyStanzas) =
      recorded (inboundRecords (Moment.calls ⟨g, op⟩)) +
        ((g.step op).admissions.table.total (·.stanzas) + (g.step op).legacyStanzas) at counts
    omega
  · have before := hc.handed
    have step := ha.counts
    rw [← ha.stanzas] at step
    rw [trace, outboundRecords_append, recorded_append, List.map_append, List.sum_append, howOften_concat]
    simp only [List.map_cons, List.map_nil, List.sum_cons, List.sum_nil]
    change g.routes.table.total (·.stanzas) + _ =
      recorded (outboundRecords (Moment.calls ⟨g, op⟩)) + (g.step op).routes.table.total (·.stanzas) at step
    omega

/-- A header comes on a stream that waits for one, if it comes first there or after a restart. -/
theorem Lodged.headsFresh {op : Operation} (hl : Lodged h g) (headers : HeadsOnce (h ++ [⟨g, op⟩])) :
    Moment.HeadsFresh ⟨g, op⟩ := by
  intro t header hop stream hs
  by_contra hp
  exact headers.not_greeted ⟨header, hop⟩ (hl.greeted t stream hs hp)

theorem run_counted (setup : Setup) (world : World) (ops : List Operation)
    (headers : HeadsOnce ((initial setup world).history ops)) :
    Counted ((initial setup world).history ops) ((initial setup world).run ops) := by
  refine (run_induction (P := fun h g => Kept h g ∧ (HeadsOnce h → Lodged h g ∧ Counted h g))
    ⟨initial_kept setup world, fun hh => ⟨run_lodged setup world [] hh, rfl, rfl⟩⟩ (fun h g op hp => ?_) ops).2
    headers |>.2
  refine ⟨hp.1.step op, fun hh => ?_⟩
  obtain ⟨lodged, counted⟩ := hp.2 hh.left
  exact ⟨lodged.step hh, counted.step hp.1 (lodged.headsFresh hh)⟩

/-- If a stream brings a header only as its first or after it was restarted, the stanzas delivered from peers, and
those written on routes, are what records and carriers have counted. -/
theorem stanzas_counted (setup : Setup) (world : World) (ops : List Operation)
    (headers : HeadsOnce ((initial setup world).history ops)) :
    let g := (initial setup world).run ops
    let moments := (initial setup world).history ops
    (moments.map (·.received)).sum =
      recorded (inboundRecords g.world.trace) + (g.admissions.table.total (·.stanzas) + g.legacyStanzas) ∧
    recorded (outboundRecords g.world.trace) + g.routes.table.total (·.stanzas) =
      (moments.map (·.handed.length)).sum + howOften moments (·.HearsOnRoute) ∧
    ∀ m ∈ moments, ∀ e ∈ m.handed, ∃ r t, m.next.Carries r t ∧ .send t (.element e) ∈ m.calls := by
  intro g moments
  obtain ⟨received, handed⟩ := run_counted setup world ops headers
  refine ⟨received, handed, fun m hm e he => ?_⟩
  obtain ⟨h, kept⟩ := kept_of_mem hm
  exact (kept.routes m.operation).written he

/-- A peer is authorized and sends a stanza; a stanza waits for a route and another goes out on it, and a
verification is heard on it; then the peer goes, and the route is released. -/
def traffic : List Operation :=
  admission ++ .inbound 1 (.element (sampleMessage "alice@a.example" "bob@b.example")) :: authorized ++
    [.submit (sampleMessage "carol@b.example" "alice@a.example") none,
      .outbound 100 (.element (Dialback.verify "a.example" "b.example" "one" "key")),
      .inbound 1 (.closed none),
      .releaseRoute ⟨"b.example", "a.example"⟩]

theorem traffic_counted :
    let g := sample.run traffic
    let moments := sample.history traffic
    HeadsOnce moments ∧ (moments.map (·.received)).sum = 1 ∧
      (moments.map (·.handed.length)).sum + howOften moments (·.HearsOnRoute) = 3 ∧
      recorded (inboundRecords g.world.trace) = 1 ∧ recorded (outboundRecords g.world.trace) = 3 := by
  intro g moments
  have heads (i : Nat) (t : LinkId) (h : Happens moments i (·.Heads t)) : t = 1 ∧ i = 0 ∨ t = 2 ∧ i = 2 := by
    obtain ⟨m, hm, header, hop⟩ := h
    rw [getElem?_history] at hm
    obtain ⟨op, hi, rfl⟩ := Option.map_eq_some_iff.mp hm
    rcases i with _ | _ | _ | _ | _ | _ | _ | _ | _ | _ | _ | _ | _ | i <;>
      simp_all [traffic, admission, authorized]
  have headers : HeadsOnce moments := by
    intro t j i hji hj hi
    rcases heads j t hj with ⟨rfl, rfl⟩ | ⟨rfl, rfl⟩ <;> rcases heads i _ hi with ⟨h, rfl⟩ | ⟨h, rfl⟩
    all_goals first | omega | cases h
  obtain ⟨received, handed, _⟩ := stanzas_counted sample.setup sample.world traffic headers
  refine ⟨headers, received.trans ?_, handed.symm.trans ?_, ?_, ?_⟩
  all_goals decide +kernel

end Gateway

end Interdomain
