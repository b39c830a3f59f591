import Interdomain.Proofs.Accounting
import Interdomain.Proofs.Guests
import Mathlib.Algebra.Ring.Nat

/-! What the router and the accounting log hear of authorizations over a run. The calls of an operation are those
for the routes and admissions that end with it and for the route that begins with it, so that over a run what has
been reported as begun is what has been reported as ended and what there is. -/
namespace Interdomain

open Protocol (Dialback)

/-- What is taken from a list without repetition is what is not among the rest. -/
theorem mem_iff_of_perm_append {α : Type} {l taken rest : List α} (h : l.Perm (taken ++ rest)) (nodup : l.Nodup)
    {x : α} : x ∈ taken ↔ x ∈ l ∧ x ∉ rest := by
  have apart := List.nodup_append.mp (h.nodup_iff.mp nodup)
  rw [h.mem_iff, List.mem_append]
  exact ⟨fun hx => ⟨.inl hx, fun hr => apart.2.2 x hx x hr rfl⟩, fun ⟨hx, hr⟩ => hx.resolve_right hr⟩

namespace Table

variable {κ ν : Type} (f : ν → Nat)

theorem total_eq (t : Table κ ν) : t.total f = (t.entries.map fun e => f e.2).sum := by
  simp only [total, values, List.sum, List.foldr_map]

variable [DecidableEq κ] {t : Table κ ν} {k : κ} {v : ν}

/-- The entries come in some order, with other values under the same keys. -/
theorem keys_modify (t : Table κ ν) (k : κ) (f : ν → ν) : (t.modify k f).keys = t.keys := by
  simp [keys, modify, map, Function.comp_def]

theorem total_modify (h : t.get? k = some v) (g : ν → ν) :
    (t.modify k g).total f + f v = t.total f + f (g v) := by
  have old := ((entries_erase h).map fun e => f e.2).sum_nat
  have new := ((entries_modify h g).map fun e => f e.2).sum_nat
  simp only [List.map_cons, List.sum_cons] at old new
  rw [total_eq, total_eq, old, new]
  omega

end Table

namespace Registry

variable {κ ν : Type} [DecidableEq κ] (r : Registry κ ν) (k x : κ)

theorem contains_iff {r : Registry κ ν} {k : κ} : r.contains k = true ↔ ∃ v, (k, v) ∈ r.entries :=
  Table.contains_iff.trans (exists_congr fun _ => Table.get?_eq_some)

theorem mem_keys {r : Registry κ ν} {k : κ} : k ∈ r.keys ↔ r.contains k = true :=
  Table.mem_keys.trans Table.contains_iff.symm

theorem contains_modify (f : ν → ν) : (r.modify k f).contains x = r.contains x := by
  have h := r.get?_modify k x f
  simp only [get?] at h
  rw [contains, contains, Table.contains, Table.contains, h]
  split <;> simp

theorem contains_register (v : ν) : (r.register k v).registry.contains x = true ↔ x = k ∨ r.contains x = true := by
  have h := r.get?_register k x v
  simp only [get?] at h
  rw [contains, contains, Table.contains, Table.contains, h]
  split <;> simp [*]

theorem mem_entryOf {r : Registry κ ν} {k : κ} {e : κ × ν} :
    e ∈ r.entryOf k ↔ e.1 = k ∧ r.get? k = some e.2 := by
  obtain ⟨x, v⟩ := e
  cases h : r.get? k <;> simp [entryOf, h, eq_comm, and_comm]

end Registry

namespace Moment

/-- The operation ends an admission: it removes it, or puts another in its place. -/
def Withdraws (m : Moment) (k : Claim) : Prop :=
  m.gateway.admissions.contains k = true ∧ (m.Registers k ∨ m.next.admissions.contains k = false)

/-- The records of peers that the operation writes are those of the admissions it ends, one for each, and of the
legacy streams that it ends. -/
structure WritesOff (m : Moment) (ended : List (Claim × Carrier)) (left : List (LinkId × String × Carrier)) :
    Prop where
  records : (inboundRecords m.calls).Perm
    (ended.map (admissionRecord m.gateway.now) ++ left.map (legacyRecord m.gateway.now))
  distinct : (ended.map (·.1)).Nodup
  apart : (left.map (·.1)).Nodup
  ended : ∀ k c, (k, c) ∈ ended ↔ m.gateway.admissions.get? k = some c ∧ m.Withdraws k
  left : ∀ e ∈ left, e ∈ m.gateway.legacies ∧ e.1 ∉ m.next.legacies.map (·.1)

/-- A route to the domain begins. -/
def GainsRoute (m : Moment) (d : String) : Prop :=
  ∃ r : Route, r.destination = d ∧ m.gateway.routes.contains r = false ∧ m.next.routes.contains r = true

/-- A route to the domain ends. -/
def LosesRoute (m : Moment) (d : String) : Prop :=
  ∃ r : Route, r.destination = d ∧ m.gateway.routes.contains r = true ∧ m.next.routes.contains r = false

end Moment

/-- What the router is told of a domain. -/
def Effect.tells (d : String) : Effect → Option Bool
  | .routeUp x => if x = d then some true else none
  | .routeDown x => if x = d then some false else none
  | _ => none

/-- What the router was last told of a domain, of which at first it knows no route. -/
def World.told (w : World) (d : String) : Bool := ((w.trace.filterMap (Effect.tells d)).getLast?).getD false

theorem World.told_append {u v : World} {es : List Effect} (h : v.trace = u.trace ++ es) (d : String) :
    v.told d = (((es.filterMap (Effect.tells d)).getLast?).getD (u.told d)) := by
  rw [told, h, List.filterMap_append, List.getLast?_append, told]
  cases (es.filterMap (Effect.tells d)).getLast? <;> rfl

theorem count_announcements {e : Effect} (h : e.announces = true) (es : List Effect) :
    (announcements es).count e = es.count e := List.count_filter h

/-- What concerns only announcements can be read off them. -/
theorem filterMap_announcements {α : Type} {f : Effect → Option α} (h : ∀ e, e.announces = false → f e = none)
    (es : List Effect) : (announcements es).filterMap f = es.filterMap f := by
  rw [announcements, List.filterMap_filter]
  refine List.filterMap_congr fun e _ => ?_
  cases he : e.announces with
  | true => rfl
  | false => simp [h e he]

theorem outboundRecords_announcements (es : List Effect) : outboundRecords (announcements es) = outboundRecords es :=
  filterMap_announcements (fun e he => by cases e <;> simp_all [Effect.announces, Effect.outboundRecord?]) es

theorem tells_announcements (d : String) (es : List Effect) :
    (announcements es).filterMap (Effect.tells d) = es.filterMap (Effect.tells d) :=
  filterMap_announcements (fun e he => by cases e <;> simp_all [Effect.announces, Effect.tells]) es

section Farewell

variable (now : Nat) (gone : List (Route × Carrier)) (d : String)

theorem count_routeUp_farewell : (gone.flatMap (farewell now)).count (.routeUp d) = 0 := by
  simp [List.count_eq_zero, farewell]

theorem count_routeDown_farewell :
    (gone.flatMap (farewell now)).count (.routeDown d) = (gone.map (·.1)).countP (·.destination = d) := by
  induction gone with
  | nil => rfl
  | cons e gone ih =>
    simp only [List.flatMap_cons, List.count_append, ih, List.map_cons, List.countP_cons, farewell]
    by_cases h : e.1.destination = d <;> simp [h, Nat.add_comm]

theorem outboundRecords_farewell : outboundRecords (gone.flatMap (farewell now)) = gone.map (routeRecord now) := by
  induction gone with
  | nil => rfl
  | cons e gone ih =>
    rw [outboundRecords] at ih ⊢
    rw [List.flatMap_cons, List.filterMap_append, ih]
    rfl

theorem tells_farewell : (gone.flatMap (farewell now)).filterMap (Effect.tells d) =
    ((gone.map (·.1)).filter (·.destination = d)).map fun _ => false := by
  induction gone with
  | nil => rfl
  | cons e gone ih =>
    rw [List.flatMap_cons, List.filterMap_append, ih]
    by_cases h : e.1.destination = d <;> simp [farewell, Effect.tells, h]

theorem tells_arrival (came : List (Route × Carrier)) :
    (came.map fun e => Effect.routeUp e.1.destination).filterMap (Effect.tells d) =
      ((came.map (·.1)).filter (·.destination = d)).map fun _ => true := by
  induction came with
  | nil => rfl
  | cons e came ih =>
    rw [List.map_cons, List.filterMap_cons, ih]
    by_cases h : e.1.destination = d <;> simp [Effect.tells, h]

end Farewell

namespace Gateway

variable {g g' : Gateway} {h : List Moment} {m : Moment} {k : Claim} {r : Route} {d : String}
variable {gone came : List (Route × Carrier)}

open Classical in
/-- The operation ends the routes `gone` and begins the routes `came`, and says so. What it hands to routes, or hears
on one, is counted: on those that end, or on those there are then. -/
structure Announces (m : Moment) (gone came : List (Route × Carrier)) : Prop where
  calls : announcements m.calls = gone.flatMap (farewell m.gateway.now) ++ came.map fun e => .routeUp e.1.destination
  keys : (m.gateway.routes.keys ++ came.map (·.1)).Perm (gone.map (·.1) ++ m.next.routes.keys)
  counts : m.gateway.routes.table.total (·.stanzas) + (m.handed.length + if m.HearsOnRoute then 1 else 0) =
    (gone.map (·.2.stanzas)).sum + m.next.routes.table.total (·.stanzas)
  single : gone = [] ∨ came = []

theorem announcements_handOverCalls (r : Route) (n : Negotiation) :
    announcements (handOverCalls r n) = [.routeUp r.destination] := by
  have written (es : List Xml.Element) : announcements (es.map fun e => .send n.link (.element e)) = [] :=
    List.filter_eq_nil_iff.mpr fun e he => by
      obtain ⟨x, _, rfl⟩ := List.mem_map.mp he
      simp [Effect.announces]
  rw [handOverCalls, announcements_append, announcements_append, written, written]
  rfl

theorem RouteStep.announces (hs : RouteStep m)
    (apart : ∀ r n, m.gateway.negotiations.get? r = some n → m.gateway.routes.get? r = none) :
    ∃ gone came, Announces m gone came := by
  cases hs with
  | @drops gone drops handed unheard =>
    obtain ⟨es, trace, calls⟩ := drops.calls
    refine ⟨gone, [], ?_, ?_, ?_, .inr rfl⟩
    · rw [m.calls_eq trace, calls, List.map_nil, List.append_nil]
    · have h := drops.routes.map (·.1)
      rw [List.map_append] at h
      rwa [List.map_nil, List.append_nil]
    · have h := (drops.routes.map (·.2.stanzas)).sum_nat
      rw [List.map_append, List.sum_append] at h
      rw [handed, if_neg unheard, Table.total_eq, Table.total_eq]
      exact h
  | @sends r c e found routes carried calls handed unheard =>
    refine ⟨[], [], by rw [calls]; rfl, ?_, ?_, .inl rfl⟩
    · rw [routes]
      exact .of_eq ((List.append_nil _).trans (m.gateway.routes.table.keys_modify r _).symm)
    · have h := Table.total_modify (·.stanzas) found (·.carry m.gateway.now)
      change _ + c.stanzas = _ + (c.stanzas + 1) at h
      rw [routes, handed, if_neg unheard]
      simp only [List.length_singleton, List.map_nil, List.sum_nil, Registry.modify]
      omega
  | @hears r c found routes carried calls handed heard =>
    refine ⟨[], [], by rw [calls]; rfl, ?_, ?_, .inl rfl⟩
    · rw [routes]
      exact .of_eq ((List.append_nil _).trans (m.gateway.routes.table.keys_modify r _).symm)
    · have h := Table.total_modify (·.stanzas) found (·.carry m.gateway.now)
      change _ + c.stanzas = _ + (c.stanzas + 1) at h
      rw [routes, handed, if_pos heard]
      simp only [List.length_nil, List.map_nil, List.sum_nil, Registry.modify]
      omega
  | @enters r n c found link count routes carried calls handed unheard =>
    obtain ⟨rest, before, after, _⟩ := m.gateway.routes.entries_register r c
    have free : m.gateway.routes.entryOf r = [] := by simp [Registry.entryOf, apart r n found]
    rw [free, List.nil_append] at before
    have entries : m.next.routes.entries.Perm ((r, c) :: m.gateway.routes.entries) :=
      routes ▸ after.trans (before.symm.cons _)
    refine ⟨[], [(r, c)], by rw [calls]; exact announcements_handOverCalls r n, ?_, ?_, .inl rfl⟩
    · have h := (entries.map (·.1)).symm
      exact (List.perm_append_singleton r _).trans h
    · have h := (entries.map (·.2.stanzas)).sum_nat
      rw [List.map_cons, List.sum_cons, count] at h
      rw [handed, if_neg unheard, Table.total_eq, Table.total_eq, List.map_nil, List.sum_nil, Nat.zero_add,
        Nat.add_zero, Nat.add_comm]
      exact h.symm

/-- An admission is registered, or stays unless it ends. -/
theorem AdmissionStep.contains (hs : AdmissionStep m) (k : Claim) :
    m.next.admissions.contains k = true ↔
      m.Registers k ∨ m.gateway.admissions.contains k = true ∧ ¬ m.Withdraws k := by
  have kept (unregistered : ∀ k, ¬ m.Registers k)
      (fewer : m.next.admissions.contains k = true → m.gateway.admissions.contains k = true) :
      m.next.admissions.contains k = true ↔
        m.Registers k ∨ m.gateway.admissions.contains k = true ∧ ¬ m.Withdraws k := by
    have hu := unregistered k
    simp only [Moment.Withdraws, hu, false_or]
    cases hn : m.next.admissions.contains k <;> simp_all
  cases hs with
  | @dismisses gone left dismisses unregistered _ =>
    refine kept unregistered fun hn => ?_
    obtain ⟨c, hc⟩ := Registry.contains_iff.mp hn
    exact Registry.contains_iff.mpr ⟨c, dismisses.admissions.mem_iff.mpr (List.mem_append_right _ hc)⟩
  | @registers x c registers _ admissions _ _ _ =>
    have after : m.next.admissions.contains k = true ↔ m.Registers k ∨ m.gateway.admissions.contains k = true := by
      rw [admissions, Registry.contains_register, registers]
    rw [after]
    by_cases hr : m.Registers k
    · simp [hr]
    · have hn : m.next.admissions.contains k = m.gateway.admissions.contains k := by
        rw [Bool.eq_iff_iff, after]
        simp [hr]
      cases hg : m.gateway.admissions.contains k <;> simp [Moment.Withdraws, hr, hn, hg]
  | welcomes unregistered admissions _ _ _ => exact kept unregistered (by rw [admissions]; exact id)
  | delivers unregistered _ admissions _ _ _ =>
    exact kept unregistered (by rw [admissions, Registry.contains_modify]; exact id)
  | carries unregistered _ _ admissions _ _ _ => exact kept unregistered (by rw [admissions]; exact id)

open Classical in
/-- One admission is registered more, or ends, or was there before and is there no more. -/
theorem AdmissionStep.balance (hs : AdmissionStep m) (k : Claim) :
    ((if m.Registers k then 1 else 0) + if m.gateway.admissions.contains k then 1 else 0) =
      (if m.Withdraws k then 1 else 0) + if m.next.admissions.contains k then 1 else 0 := by
  have contains := hs.contains k
  have replaced (hr : m.Registers k) : m.Withdraws k ↔ m.gateway.admissions.contains k = true :=
    ⟨And.left, fun hc => ⟨hc, .inl hr⟩⟩
  by_cases hr : m.Registers k
  · simp [contains, replaced hr, hr, Nat.add_comm]
  · by_cases hw : m.Withdraws k
    · simp [contains, hr, hw, hw.1]
    · simp [contains, hr, hw]

theorem legacies_distinct (g : Gateway) : (g.legacies.map (·.1)).Nodup := by
  have own {t : LinkId} {s : InboundStream} {e : LinkId × String × Carrier} (h : legacy? (t, s) = some e) :
      e.1 = t := by
    unfold legacy? at h
    split at h
    · cases h
      rfl
    · cases h
  refine List.pairwise_map.mpr (List.pairwise_filterMap.mpr (g.streams.distinct.imp ?_))
  rintro ⟨t, s⟩ ⟨t', s'⟩ hne e he e' he'
  rw [own he, own he']
  exact hne

namespace Dismisses

variable {gone : List (Claim × Carrier)} {left : List (LinkId × String × Carrier)} (hd : Dismisses g g' gone left)
include hd

theorem keys : g.admissions.keys.Perm (gone.map (·.1) ++ g'.admissions.keys) := by
  have h := hd.admissions.map (·.1)
  rwa [List.map_append] at h

theorem links : (g.legacies.map (·.1)).Perm (left.map (·.1) ++ g'.legacies.map (·.1)) := by
  have h := hd.legacies.map (·.1)
  rwa [List.map_append] at h

theorem distinct : (gone.map (·.1)).Nodup :=
  (List.nodup_append.mp (hd.keys.nodup_iff.mp g.admissions.table.keys_nodup)).1

theorem apart : (left.map (·.1)).Nodup := (List.nodup_append.mp (hd.links.nodup_iff.mp g.legacies_distinct)).1

/-- The admissions that end are those that are there no more. -/
theorem mem_gone {c : Carrier} :
    (k, c) ∈ gone ↔ g.admissions.get? k = some c ∧ g'.admissions.contains k = false := by
  have entry : g.admissions.get? k = some c ↔ (k, c) ∈ gone ++ g'.admissions.entries :=
    Table.get?_eq_some.trans hd.admissions.mem_iff
  rw [entry, List.mem_append, ← Bool.not_eq_true, ← Registry.mem_keys]
  constructor
  · intro hm
    exact ⟨.inl hm, ((mem_iff_of_perm_append hd.keys g.admissions.table.keys_nodup).mp (List.mem_map_of_mem hm)).2⟩
  · rintro ⟨hm | hm, hn⟩
    · exact hm
    · exact absurd (List.mem_map_of_mem hm) hn

theorem mem_left {e : LinkId × String × Carrier} (he : e ∈ left) :
    e ∈ g.legacies ∧ e.1 ∉ g'.legacies.map (·.1) :=
  ⟨hd.legacies.mem_iff.mpr (List.mem_append_left _ he),
    ((mem_iff_of_perm_append hd.links g.legacies_distinct).mp (List.mem_map_of_mem he)).2⟩

end Dismisses

theorem AdmissionStep.writesOff (hs : AdmissionStep m) : ∃ ended left, m.WritesOff ended left := by
  have present {k : Claim} {c : Carrier} (hc : m.gateway.admissions.get? k = some c) :
      m.gateway.admissions.contains k = true := Table.contains_iff.mpr ⟨c, hc⟩
  have nothing (unregistered : ∀ k, ¬ m.Registers k)
      (kept : ∀ k, m.next.admissions.contains k = m.gateway.admissions.contains k)
      (records : inboundRecords m.calls = []) : ∃ ended left, m.WritesOff ended left := by
    refine ⟨[], [], by rw [records]; exact .refl _, .nil, .nil, fun k c => ?_, nofun⟩
    simp only [List.not_mem_nil, false_iff]
    rintro ⟨_, h, hr | hn⟩
    · exact unregistered k hr
    · rw [kept k, h] at hn
      cases hn
  cases hs with
  | @dismisses gone left dismisses unregistered _ =>
    obtain ⟨es, trace, _, records⟩ := dismisses.calls
    refine ⟨gone, left, m.calls_eq trace ▸ records, dismisses.distinct, dismisses.apart, fun k c => ?_,
      fun e he => dismisses.mem_left he⟩
    rw [dismisses.mem_gone]
    exact and_congr_right fun hc => ⟨fun hn => ⟨present hc, .inr hn⟩, fun hw => hw.2.resolve_left (unregistered k)⟩
  | @registers x c registers _ admissions records _ _ =>
    refine ⟨m.gateway.admissions.entryOf x, [], by rw [records]; exact .of_eq (List.append_nil _).symm, ?_, .nil,
      fun k c => ?_, nofun⟩
    · cases h : m.gateway.admissions.get? x <;> simp [Registry.entryOf, h]
    · rw [Registry.mem_entryOf]
      constructor
      · rintro ⟨rfl, hc⟩
        exact ⟨hc, present hc, .inl ((registers _).mpr rfl)⟩
      · rintro ⟨hc, _, hr | hn⟩
        · exact (registers k).mp hr ▸ ⟨rfl, hc⟩
        · rw [admissions, ← Bool.not_eq_true, Registry.contains_register] at hn
          exact absurd (.inr (present hc)) hn
  | welcomes unregistered admissions records _ _ => exact nothing unregistered (by simp [admissions]) records
  | delivers unregistered _ admissions _ records _ =>
    exact nothing unregistered (by simp [admissions, Registry.contains_modify]) records
  | carries unregistered _ _ admissions _ records _ => exact nothing unregistered (by simp [admissions]) records

theorem Kept.announces (hk : Kept h g) (op : Operation) : ∃ gone came, Announces ⟨g, op⟩ gone came :=
  (hk.routes op).announces hk.order.apart

theorem Kept.trace (hk : Kept h g) (op : Operation) :
    (g.step op).world.trace = g.world.trace ++ Moment.calls ⟨g, op⟩ := (step_grows hk.orderly op).since.1

/-- What has been reported of authorizations, up and down, accounts for those there are. -/
structure Reported (h : List Moment) (g : Gateway) : Prop where
  routes : ∀ d, g.world.trace.count (.routeUp d) =
    g.world.trace.count (.routeDown d) + g.routes.keys.countP (·.destination = d)
  records : ∀ d, (outboundRecords g.world.trace).countP (·.peer = d) = g.world.trace.count (.routeDown d)
  admissions : ∀ k, howOften h (·.Registers k) =
    howOften h (·.Withdraws k) + if g.admissions.contains k then 1 else 0

theorem Announces.count_routeUp (ha : Announces m gone came) (d : String) :
    m.calls.count (.routeUp d) = (came.map (·.1)).countP (·.destination = d) := by
  rw [← count_announcements rfl, ha.calls, List.count_append, count_routeUp_farewell, Nat.zero_add, List.count,
    List.countP_map, List.countP_map]
  exact List.countP_congr fun e _ => by simp

theorem Announces.count_routeDown (ha : Announces m gone came) (d : String) :
    m.calls.count (.routeDown d) = (gone.map (·.1)).countP (·.destination = d) := by
  rw [← count_announcements rfl, ha.calls, List.count_append, count_routeDown_farewell]
  simp [List.count_eq_zero]

theorem Announces.records (ha : Announces m gone came) :
    outboundRecords m.calls = gone.map (routeRecord m.gateway.now) := by
  rw [← outboundRecords_announcements, ha.calls, outboundRecords_append, outboundRecords_farewell, outboundRecords]
  simp [Effect.outboundRecord?, List.filterMap_map, Function.comp_def]

theorem Reported.step (hk : Kept h g) (hr : Reported h g) (op : Operation) :
    Reported (h ++ [⟨g, op⟩]) (g.step op) := by
  obtain ⟨gone, came, ha⟩ := hk.announces op
  have trace := hk.trace op
  refine ⟨fun d => ?_, fun d => ?_, fun k => ?_⟩
  · have keys : g.routes.keys.countP (·.destination = d) + (came.map (·.1)).countP (·.destination = d) =
        (gone.map (·.1)).countP (·.destination = d) + (g.step op).routes.keys.countP (·.destination = d) := by
      rw [← List.countP_append, ← List.countP_append]
      exact ha.keys.countP_eq _
    have before := hr.routes d
    rw [trace, List.count_append, List.count_append, ha.count_routeUp, ha.count_routeDown]
    omega
  · rw [trace, List.count_append, ha.count_routeDown, outboundRecords_append, List.countP_append, ha.records,
      hr.records]
    simp only [Nat.add_left_cancel_iff, List.countP_map]
    rfl
  · have before := hr.admissions k
    have balance := (hk.admissions op).balance k
    rw [howOften_concat, howOften_concat, before, Nat.add_assoc, Nat.add_assoc, Nat.add_comm (ite _ _ _)]
    exact congrArg _ balance

theorem run_reported (setup : Setup) (world : World) (ops : List Operation) :
    Reported ((initial setup world).history ops) ((initial setup world).run ops) := by
  refine (run_induction (P := fun h g => Kept h g ∧ Reported h g) ⟨initial_kept setup world, ?_⟩
    (fun _ _ op hp => ⟨hp.1.step op, hp.2.step hp.1 op⟩) ops).2
  exact ⟨fun d => rfl, fun d => rfl, fun k => rfl⟩

/-- Over every run, each authorization is reported to begin once and to end once, with one record for each that ends.
-/
theorem reported_once (setup : Setup) (world : World) (ops : List Operation) :
    let g := (initial setup world).run ops
    let moments := (initial setup world).history ops
    (∀ d, g.world.trace.count (.routeUp d) =
      g.world.trace.count (.routeDown d) + g.routes.keys.countP (·.destination = d)) ∧
    (∀ d, (outboundRecords g.world.trace).countP (·.peer = d) = g.world.trace.count (.routeDown d)) ∧
    (∀ k, howOften moments (·.Registers k) =
      howOften moments (·.Withdraws k) + if g.admissions.contains k then 1 else 0) ∧
    ∀ m ∈ moments, ∃ ended left, m.WritesOff ended left := by
  intro g moments
  obtain ⟨routes, records, admissions⟩ := run_reported setup world ops
  refine ⟨routes, records, admissions, fun m hm => ?_⟩
  obtain ⟨h, kept⟩ := kept_of_mem hm
  exact (kept.admissions m.operation).writesOff

namespace Announces

variable (ha : Announces m gone came)
include ha

theorem mem_came : r ∈ came.map (·.1) ↔ m.next.routes.contains r = true ∧ m.gateway.routes.contains r = false := by
  rw [← Bool.not_eq_true, ← Registry.mem_keys, ← Registry.mem_keys]
  have keys := ha.keys
  rcases ha.single with rfl | rfl
  · exact mem_iff_of_perm_append (keys.symm.trans List.perm_append_comm) m.next.routes.table.keys_nodup
  · rw [List.map_nil, List.append_nil] at keys
    simp only [List.map_nil, List.not_mem_nil, false_iff, not_and, not_not]
    exact fun hr => keys.mem_iff.mpr (List.mem_append_right _ hr)

theorem mem_gone : r ∈ gone.map (·.1) ↔ m.gateway.routes.contains r = true ∧ m.next.routes.contains r = false := by
  rw [← Bool.not_eq_true, ← Registry.mem_keys, ← Registry.mem_keys]
  have keys := ha.keys
  rcases ha.single with rfl | rfl
  · simp only [List.map_nil, List.not_mem_nil, false_iff, not_and, not_not]
    exact fun hr => keys.mem_iff.mp (List.mem_append_left _ hr)
  · rw [List.map_nil, List.append_nil] at keys
    exact mem_iff_of_perm_append keys m.gateway.routes.table.keys_nodup

open Classical in
/-- The last word on a domain is that of the operation, if a route to the domain begins or ends with it. -/
theorem told (trace : m.next.world.trace = m.gateway.world.trace ++ m.calls) (d : String) :
    m.next.world.told d =
      if m.GainsRoute d then true else if m.LosesRoute d then false else m.gateway.world.told d := by
  have gains : m.GainsRoute d ↔ (came.map (·.1)).filter (·.destination = d) ≠ [] := by
    simp only [Moment.GainsRoute, ne_eq, List.filter_eq_nil_iff, decide_eq_true_eq, not_forall, not_not, ha.mem_came]
    exact exists_congr fun r => by tauto
  have loses : m.LosesRoute d ↔ (gone.map (·.1)).filter (·.destination = d) ≠ [] := by
    simp only [Moment.LosesRoute, ne_eq, List.filter_eq_nil_iff, decide_eq_true_eq, not_forall, not_not, ha.mem_gone]
    exact exists_congr fun r => by tauto
  have last (l : List Route) (b : Bool) (hl : l ≠ []) : (l.map fun _ => b).getLast? = some b := by
    rw [List.getLast?_map, List.getLast?_eq_some_getLast hl]
    rfl
  rw [World.told_append trace, ← tells_announcements, ha.calls, List.filterMap_append, tells_farewell, tells_arrival,
    gains, loses, List.getLast?_append]
  by_cases hc : (came.map (·.1)).filter (·.destination = d) = []
  · by_cases hg : (gone.map (·.1)).filter (·.destination = d) = []
    · simp [hc, hg]
    · rw [hc, last _ false hg]
      simp [hg]
  · rw [last _ true hc]
    simp [hc]

end Announces

/-- There is a route to the domain. -/
def RoutesTo (g : Gateway) (d : String) : Prop := ∃ r : Route, r.destination = d ∧ g.routes.contains r = true

/-- The router was last told of the domain that a route to it began, exactly if one did and none has ended since; and
it is so for each route, if no route to the domain ever ended while there was another. -/
structure Told (d : String) (h : List Moment) (g : Gateway) : Prop where
  last : g.world.told d = true ↔ ∃ i, Happens h i (·.GainsRoute d) ∧ ∀ j, i < j → ¬ Happens h j (·.LosesRoute d)
  routed : g.world.told d = true → g.RoutesTo d
  heard : (∀ m ∈ h, m.LosesRoute d → ¬ m.next.RoutesTo d) → g.RoutesTo d → g.world.told d = true

theorem Told.step (hk : Kept h g) (ht : Told d h g) (op : Operation) : Told d (h ++ [⟨g, op⟩]) (g.step op) := by
  obtain ⟨gone, came, ha⟩ := hk.announces op
  have told := ha.told (hk.trace op) d
  have kept (gains : ¬ Moment.GainsRoute ⟨g, op⟩ d) (hr : (g.step op).RoutesTo d) : g.RoutesTo d := by
    obtain ⟨r, hd, hn⟩ := hr
    refine ⟨r, hd, ?_⟩
    cases hg : g.routes.contains r with
    | true => rfl
    | false => exact absurd ⟨r, hd, hg, hn⟩ gains
  change (g.step op).world.told d = _ at told
  by_cases gains : Moment.GainsRoute ⟨g, op⟩ d
  · rw [if_pos gains] at told
    refine ⟨iff_of_true told ⟨h.length, .last gains, fun j hj hl => ?_⟩, fun _ => ?_, fun _ _ => told⟩
    · have := hl.lt_length
      simp at this
      omega
    · obtain ⟨r, hd, _, hn⟩ := gains
      exact ⟨r, hd, hn⟩
  · rw [if_neg gains] at told
    have before {i : Nat} (hi : Happens (h ++ [⟨g, op⟩]) i (·.GainsRoute d)) : Happens h i (·.GainsRoute d) :=
      (Happens.concat_iff.mp hi).resolve_right fun hg => gains hg.2
    by_cases loses : Moment.LosesRoute ⟨g, op⟩ d
    · rw [if_pos loses] at told
      refine ⟨iff_of_false (by simp [told]) ?_, fun h => by simp [told] at h, fun never hr => ?_⟩
      · rintro ⟨i, hi, hj⟩
        exact hj h.length (before hi).lt_length (.last loses)
      · exact absurd hr (never _ (by simp) loses)
    · rw [if_neg loses] at told
      have since (i : Nat) : (∀ j, i < j → ¬ Happens (h ++ [⟨g, op⟩]) j (·.LosesRoute d)) ↔
          ∀ j, i < j → ¬ Happens h j (·.LosesRoute d) := by
        simp only [Happens.concat_iff, show ¬ Moment.LosesRoute ⟨g, op⟩ d from loses, and_false, or_false]
      refine ⟨?_, fun hn => ?_, fun never hr => ?_⟩
      · rw [told]
        change g.world.told d = true ↔ _
        rw [ht.last]
        exact exists_congr fun i => and_congr ⟨Happens.append, before⟩ (since i).symm
      · obtain ⟨r, hd, hc⟩ := ht.routed (told ▸ hn)
        refine ⟨r, hd, ?_⟩
        cases hn : (g.step op).routes.contains r with
        | true => rfl
        | false => exact absurd ⟨r, hd, hc, hn⟩ loses
      · rw [told]
        exact ht.heard (fun m hm => never m (List.mem_append_left _ hm)) (kept gains hr)

theorem initial_told (setup : Setup) (world : World) (d : String) : Told d [] (initial setup world) := by
  refine ⟨iff_of_false nofun ?_, nofun, fun _ ⟨r, _, hr⟩ => nomatch hr⟩
  rintro ⟨i, hi, _⟩
  exact absurd hi.lt_length (Nat.not_lt_zero i)

/-- What the router was last told of a domain is that a route to it began, exactly if one did and none to it has ended
since. This is what there is, if no route to the domain ever ended while there was another to it. -/
theorem told_iff (setup : Setup) (world : World) (ops : List Operation) (d : String) :
    let g := (initial setup world).run ops
    let moments := (initial setup world).history ops
    (g.world.told d = true ↔
      ∃ i, Happens moments i (·.GainsRoute d) ∧ ∀ j, i < j → ¬ Happens moments j (·.LosesRoute d)) ∧
    (g.world.told d = true → g.RoutesTo d) ∧
    ((∀ m ∈ moments, m.LosesRoute d → ¬ m.next.RoutesTo d) → g.RoutesTo d → g.world.told d = true) := by
  intro g moments
  obtain ⟨last, routed, heard⟩ := (run_induction (P := fun h g => Kept h g ∧ Told d h g)
    ⟨initial_kept setup world, initial_told setup world d⟩ (fun _ _ op hp => ⟨hp.1.step op, hp.2.step hp.1 op⟩) ops).2
  exact ⟨last, routed, heard⟩

/-- Two local domains have a route to the same domain, and that of the second is released. -/
def twoSources : List Operation :=
  authorized ++ [.submit (sampleMessage "bob@b.example" "carol@c.example") (some "192.0.2.1"),
    .outbound 101 .connected,
    .outbound 101 (.header { sampleHeader "b.example" with
      recipient := some "c.example", id := some "two", version := none }),
    .outbound 101 (.element (Dialback.resultReply "c.example" "b.example" true)),
    .releaseRoute ⟨"b.example", "c.example"⟩]

/-- The router was last told of the end of a route to a domain to which there is still another. -/
theorem routed_but_untold :
    let g := sample.run twoSources
    g.RoutesTo "b.example" ∧ g.world.told "b.example" = false := by
  intro g
  have routed : g.routes.contains ⟨"b.example", "a.example"⟩ = true := by decide +kernel
  exact ⟨⟨_, rfl, routed⟩, by decide +kernel⟩

end Gateway

end Interdomain
