import Interdomain.Proofs.Closing

/-! The books of a gateway: what the router hears of routes, the records of what authorizations carried, and what
is delivered under them. Whatever ends an authorization does so by way of its registry, which makes the entry for
it. The relations between an earlier and a later gateway say here which authorizations have ended in between, with
the entries made for them, and that no other entry was made. -/
namespace Interdomain

open Protocol (Dialback)

namespace Table

variable {κ ν : Type}

theorem entries_nodup (t : Table κ ν) : t.entries.Nodup :=
  t.distinct.imp fun h he => h (congrArg Prod.fst he)

theorem keys_nodup (t : Table κ ν) : t.keys.Nodup := List.pairwise_map.mpr t.distinct

variable [DecidableEq κ] {t : Table κ ν} {k : κ} {v : ν}

/-- A list without repetition of what the keys look up to is the list of entries, in some order. -/
theorem entries_perm {l : List (κ × ν)} (nodup : l.Nodup) (h : ∀ k v, (k, v) ∈ l ↔ t.get? k = some v) :
    t.entries.Perm l := by
  rw [List.perm_ext_iff_of_nodup t.entries_nodup nodup]
  rintro ⟨k, v⟩
  rw [h, get?_eq_some]

/-- An entry, and the others. -/
theorem entries_erase (h : t.get? k = some v) : t.entries.Perm ((k, v) :: (t.erase k).entries) := by
  have mem (x : κ) (w : ν) : (x, w) ∈ (t.erase k).entries ↔ x ≠ k ∧ t.get? x = some w := by
    rw [← get?_eq_some, get?_erase]
    by_cases hx : x = k <;> simp [hx]
  refine entries_perm (List.nodup_cons.mpr ⟨fun hm => ((mem k v).mp hm).1 rfl, entries_nodup _⟩) fun x w => ?_
  rw [List.mem_cons, mem, Prod.mk.injEq]
  by_cases hx : x = k
  · subst hx
    simp [h, eq_comm]
  · simp [hx]

theorem erase_of_get? (h : t.get? k = none) : (t.erase k).entries = t.entries := by
  refine List.filter_eq_self.mpr fun e he => ?_
  have hne : e.1 ≠ k := by
    rintro rfl
    rw [(get?_eq_some (t := t) (k := e.1) (v := e.2)).mpr he] at h
    cases h
  simpa using hne

theorem entries_insert (t : Table κ ν) (k : κ) (v : ν) :
    (t.insert k v).entries.Perm ((k, v) :: (t.erase k).entries) := List.perm_append_comm

theorem entries_modify (h : t.get? k = some v) (f : ν → ν) :
    (t.modify k f).entries.Perm ((k, f v) :: (t.erase k).entries) := by
  have same : (t.modify k f).erase k = t.erase k := by
    simp only [erase, filter, modify, map, Table.mk.injEq, List.filter_map, Function.comp_def]
    refine (List.map_congr_left fun e he => ?_).trans (List.map_id _)
    have hk : e.1 ≠ k := by simpa using (List.mem_filter.mp he).2
    simp [hk]
  have modified : (t.modify k f).get? k = some (f v) := by simp [get?_modify, h]
  rw [← same]
  exact entries_erase modified

end Table

namespace Registry

variable {κ ν α : Type} [DecidableEq κ]

/-- The change removes the entries `gone`, of which it gives notice, and nothing else. -/
def Change.Removes (c : Change κ ν α) (r : Registry κ ν) (gone : List (κ × ν)) : Prop :=
  r.entries.Perm (gone ++ c.registry.entries) ∧ c.notices = gone.map fun e => .unregistered e.1 e.2

/-- What there is under a key, as a list of entries. -/
def entryOf (r : Registry κ ν) (k : κ) : List (κ × ν) := ((r.get? k).map fun v => (k, v)).toList

theorem unregister_removes (r : Registry κ ν) (k : κ) : (r.unregister k).Removes r (r.entryOf k) := by
  unfold unregister Change.Removes entryOf
  cases h : r.get? k with
  | none => exact ⟨.refl _, rfl⟩
  | some v => exact ⟨Table.entries_erase h, rfl⟩

theorem result_unregister (r : Registry κ ν) (k : κ) : (r.unregister k).result = r.get? k := by
  unfold unregister
  cases r.get? k <;> rfl

theorem unregisterAll_removes (r : Registry κ ν) (ks : List κ) :
    (r.unregisterAll ks).Removes r (r.unregisterAll ks).result := by
  induction ks generalizing r with
  | nil => exact ⟨.refl _, rfl⟩
  | cons k ks ih =>
    obtain ⟨first, notice⟩ := r.unregister_removes k
    obtain ⟨others, notices⟩ := ih (r.unregister k).registry
    simp only [unregisterAll, Change.Removes, result_unregister, notice, notices, List.map_append, List.append_assoc,
      entryOf, and_true] at first others ⊢
    exact first.trans (others.append_left _)

/-- The registration of a value removes what there was, and puts the value there. -/
theorem entries_register (r : Registry κ ν) (k : κ) (v : ν) : ∃ rest,
    r.entries.Perm (r.entryOf k ++ rest) ∧ (r.register k v).registry.entries.Perm ((k, v) :: rest) ∧
      (r.register k v).notices = ((r.entryOf k).map fun e => .unregistered e.1 e.2) ++ [.registered k v] := by
  obtain ⟨removed, notices⟩ := r.unregister_removes k
  have free : (r.unregister k).registry.table.get? k = none := by
    have h := r.get?_unregister k k
    rwa [if_pos rfl] at h
  refine ⟨_, removed, ?_, congrArg (· ++ [_]) notices⟩
  have inserted := Table.entries_insert (r.unregister k).registry.table k v
  rwa [Table.erase_of_get? free] at inserted

end Registry

/-- The call is an entry of the books. -/
def Effect.IsEntry : Effect → Prop
  | .routeUp _ | .routeDown _ | .account _ | .deliver _ => True
  | _ => False

/-- The call tells the router of a route, or accounts for the end of one. -/
def Effect.announces : Effect → Bool
  | .routeUp _ | .routeDown _ => true
  | .account record => record.direction = .outbound
  | _ => false

/-- The record of an authorization of a peer that has ended. -/
def Effect.inboundRecord? : Effect → Option Account
  | .account record => if record.direction = .inbound then some record else none
  | _ => none

/-- The record of a route that has ended. -/
def Effect.outboundRecord? : Effect → Option Account
  | .account record => if record.direction = .outbound then some record else none
  | _ => none

def announcements (es : List Effect) : List Effect := es.filter Effect.announces

def outboundRecords (es : List Effect) : List Account := es.filterMap Effect.outboundRecord?

def inboundRecords (es : List Effect) : List Account := es.filterMap Effect.inboundRecord?

def routeRecord (now : Nat) (e : Route × Carrier) : Account := e.2.account e.1.destination .outbound now

/-- The calls by which the end of a route is announced. -/
def farewell (now : Nat) (e : Route × Carrier) : List Effect :=
  [.routeDown e.1.destination, .account (routeRecord now e)]

def admissionRecord (now : Nat) (e : Claim × Carrier) : Account := e.2.account e.1.source .inbound now

def legacyRecord (now : Nat) (e : LinkId × String × Carrier) : Account := e.2.2.account e.2.1 .inbound now

/-- The calls of an operation are what it adds to the trace. -/
theorem Moment.calls_eq {m : Moment} {es : List Effect} (h : m.next.world.trace = m.gateway.world.trace ++ es) :
    m.calls = es := by
  rw [calls, World.since, h, List.drop_left]

theorem announcements_append (es fs : List Effect) :
    announcements (es ++ fs) = announcements es ++ announcements fs := List.filter_append ..

theorem inboundRecords_append (es fs : List Effect) :
    inboundRecords (es ++ fs) = inboundRecords es ++ inboundRecords fs := List.filterMap_append

theorem outboundRecords_append (es fs : List Effect) :
    outboundRecords (es ++ fs) = outboundRecords es ++ outboundRecords fs := List.filterMap_append

theorem announcements_eq_nil {es : List Effect} (h : ∀ e ∈ es, ¬ e.IsEntry) : announcements es = [] :=
  List.filter_eq_nil_iff.mpr fun e he => by
    have hn := h e he
    cases e <;> simp_all [Effect.IsEntry, Effect.announces]

theorem inboundRecords_eq_nil {es : List Effect} (h : ∀ e ∈ es, ¬ e.IsEntry) : inboundRecords es = [] :=
  List.filterMap_eq_nil_iff.mpr fun e he => by
    have hn := h e he
    cases e <;> simp_all [Effect.IsEntry, Effect.inboundRecord?]

theorem Effect.isEntry_of_announces {e : Effect} (h : e.announces = true) : e.IsEntry := by
  cases e <;> trivial

theorem Effect.IsEntry.linkless {e : Effect} (h : e.IsEntry) : e.link? = none := by
  cases e <;> first | rfl | cases h

theorem World.Speaks.unbooked {P : CallKind → Prop} {id : LinkId} {u v : World} (h : World.Speaks P id u v) :
    World.Omits Effect.IsEntry u v := h.only.mono fun e he => by simp [he.linkless]

namespace Gateway

variable {f g g' h : Gateway} {t u : LinkId} {k : Claim} {r : Route} {n : Negotiation} {e v : Xml.Element}

/-- A stream of a peer from before dialback, with its peer and what it carried. -/
def legacy? (e : LinkId × InboundStream) : Option (LinkId × String × Carrier) :=
  match e.2.phase with
  | .legacy peer carrier => some (e.1, peer, carrier)
  | _ => none

def legacies (g : Gateway) : List (LinkId × String × Carrier) := g.streams.entries.filterMap legacy?

/-- A link carries the route that the tables give for it. -/
def Anchored (g : Gateway) : Prop := ∀ t r, g.carried.get? t = some r → g.Carries r t

/-- Nothing that the books are about changes. -/
structure Rests (g g' : Gateway) : Prop where
  routes : g'.routes = g.routes
  carried : g'.carried = g.carried
  admissions : g'.admissions = g.admissions
  streams : g'.streams = g.streams
  calls : World.Omits Effect.IsEntry g.world g'.world

/-- The routes `gone` end, and are announced to have ended; no other route changes. -/
structure Drops (g g' : Gateway) (gone : List (Route × Carrier)) : Prop where
  routes : g.routes.entries.Perm (gone ++ g'.routes.entries)
  anchored : g.Anchored → g'.Anchored
  calls : ∃ es, g'.world.trace = g.world.trace ++ es ∧ announcements es = gone.flatMap (farewell g.now)

/-- The admissions `gone` and the streams `left` end, each with a record; nothing else that peers are
authorized for changes. -/
structure Dismisses (g g' : Gateway) (gone : List (Claim × Carrier)) (left : List (LinkId × String × Carrier)) :
    Prop where
  admissions : g.admissions.entries.Perm (gone ++ g'.admissions.entries)
  legacies : g.legacies.Perm (left ++ g'.legacies)
  calls : ∃ es, g'.world.trace = g.world.trace ++ es ∧ (∀ e, .deliver e ∉ es) ∧
    (inboundRecords es).Perm (gone.map (admissionRecord g.now) ++ left.map (legacyRecord g.now))

namespace Rests

theorem refl (g : Gateway) : Rests g g := ⟨rfl, rfl, rfl, rfl, .refl _⟩

theorem trans (a : Rests f g) (b : Rests g h) : Rests f h :=
  ⟨b.routes.trans a.routes, b.carried.trans a.carried, b.admissions.trans a.admissions,
    b.streams.trans a.streams, a.calls.trans b.calls⟩

theorem act {w : World → World} (calls : World.Omits Effect.IsEntry g.world (w g.world)) : Rests g (g.act w) :=
  ⟨rfl, rfl, rfl, rfl, calls⟩

theorem anchored (h : Rests g g') (ha : g.Anchored) : g'.Anchored := by
  intro t r hc
  obtain ⟨c, found, hl⟩ := ha t r (h.carried ▸ hc)
  exact ⟨c, h.routes.symm ▸ found, hl⟩

theorem drops (h : Rests g g') : Drops g g' [] := by
  obtain ⟨es, trace, plain⟩ := h.calls
  exact ⟨by simp [h.routes], h.anchored, es, trace, announcements_eq_nil plain⟩

theorem dismisses (h : Rests g g') : Dismisses g g' [] [] := by
  obtain ⟨es, trace, plain⟩ := h.calls
  exact ⟨by simp [h.admissions], by simp [Gateway.legacies, h.streams], es, trace, fun e he => plain _ he trivial,
    by simp [inboundRecords_eq_nil plain]⟩

end Rests

/-- No route changes, and none is announced. -/
theorem drops_of_keeps (keeps : KeepsOutbound g g')
    (calls : World.Omits (·.announces = true) g.world g'.world) : Drops g g' [] := by
  obtain ⟨es, trace, silent⟩ := calls
  refine ⟨by simp [keeps.routes], fun ha t r hc => ?_, es, trace, ?_⟩
  · obtain ⟨c, found, hl⟩ := ha t r (keeps.carried ▸ hc)
    exact ⟨c, keeps.routes.symm ▸ found, hl⟩
  · exact List.filter_eq_nil_iff.mpr silent

/-- Nobody's authorization changes, and none is accounted for. -/
theorem dismisses_of_keeps (keeps : KeepsInbound g g') (calls : ∃ es, g'.world.trace = g.world.trace ++ es ∧
    (∀ e, .deliver e ∉ es) ∧ inboundRecords es = []) : Dismisses g g' [] [] := by
  obtain ⟨es, trace, received, records⟩ := calls
  exact ⟨by simp [keeps.admissions], by simp [legacies, keeps.streams], es, trace, received, by simp [records]⟩

theorem Drops.rests {gone : List (Route × Carrier)} (a : Drops f g gone) (b : Rests g h) : Drops f h gone := by
  obtain ⟨es, trace, calls⟩ := a.calls
  obtain ⟨fs, trace', plain⟩ := b.calls
  refine ⟨b.routes.symm ▸ a.routes, b.anchored ∘ a.anchored, es ++ fs, by rw [trace', trace, List.append_assoc], ?_⟩
  rw [announcements_append, calls, announcements_eq_nil plain, List.append_nil]

theorem Dismisses.rests {gone : List (Claim × Carrier)} {left : List (LinkId × String × Carrier)}
    (a : Dismisses f g gone left) (b : Rests g h) : Dismisses f h gone left := by
  obtain ⟨es, trace, received, calls⟩ := a.calls
  obtain ⟨fs, trace', plain⟩ := b.calls
  have legacies : h.legacies = g.legacies := by simp [Gateway.legacies, b.streams]
  refine ⟨b.admissions.symm ▸ a.admissions, legacies.symm ▸ a.legacies, es ++ fs,
    by rw [trace', trace, List.append_assoc], fun e he => ?_, ?_⟩
  · rcases List.mem_append.mp he with he | he
    · exact received e he
    · exact plain _ he trivial
  · rwa [inboundRecords_append, inboundRecords_eq_nil plain, List.append_nil]

theorem Drops.trans {gone others : List (Route × Carrier)} (a : Drops f g gone) (b : Drops g h others)
    (now : others = [] ∨ g.now = f.now) : Drops f h (gone ++ others) := by
  obtain ⟨es, trace, calls⟩ := a.calls
  obtain ⟨fs, trace', calls'⟩ := b.calls
  refine ⟨?_, b.anchored ∘ a.anchored, es ++ fs, by rw [trace', trace, List.append_assoc], ?_⟩
  · rw [List.append_assoc]
    exact a.routes.trans (b.routes.append_left _)
  · rw [announcements_append, calls, calls', List.flatMap_append]
    rcases now with rfl | now
    · simp
    · rw [now]

theorem Dismisses.trans {gone others : List (Claim × Carrier)} {left further : List (LinkId × String × Carrier)}
    (a : Dismisses f g gone left) (b : Dismisses g h others further) (now : g.now = f.now) :
    Dismisses f h (gone ++ others) (left ++ further) := by
  obtain ⟨es, trace, received, calls⟩ := a.calls
  obtain ⟨fs, trace', received', calls'⟩ := b.calls
  refine ⟨?_, ?_, es ++ fs, by rw [trace', trace, List.append_assoc], fun e he => ?_, ?_⟩
  · rw [List.append_assoc]
    exact a.admissions.trans (b.admissions.append_left _)
  · rw [List.append_assoc]
    exact a.legacies.trans (b.legacies.append_left _)
  · exact (List.mem_append.mp he).elim (received e) (received' e)
  · rw [now] at calls'
    rw [inboundRecords_append, List.map_append, List.map_append]
    refine (calls.append calls').trans ?_
    simp only [List.perm_iff_count, List.count_append]
    intro record
    omega

theorem foldl_noticeRoute_unregistered (g : Gateway) (gone : List (Route × Carrier)) :
    (gone.map fun e => Notice.unregistered e.1 e.2).foldl noticeRoute g =
      g.act fun w => { w with trace := w.trace ++ gone.flatMap (farewell g.now) } := by
  induction gone generalizing g with
  | nil => simp [act]
  | cons e gone ih =>
    rw [List.map_cons, List.foldl_cons, ih]
    simp [noticeRoute, emit, act, World.emit, farewell, routeRecord, now]

theorem foldl_noticeAdmission_unregistered (g : Gateway) (gone : List (Claim × Carrier)) :
    (gone.map fun e => Notice.unregistered e.1 e.2).foldl noticeAdmission g =
      g.act fun w => { w with trace := w.trace ++ gone.map fun e => .account (admissionRecord g.now e) } := by
  induction gone generalizing g with
  | nil => simp [act]
  | cons e gone ih =>
    rw [List.map_cons, List.foldl_cons, ih]
    simp [noticeAdmission, emit, act, World.emit, admissionRecord, now]

@[simp] theorem announcements_farewell (now : Nat) (gone : List (Route × Carrier)) :
    announcements (gone.flatMap (farewell now)) = gone.flatMap (farewell now) := by
  refine List.filter_eq_self.mpr fun e he => ?_
  obtain ⟨x, _, hx⟩ := List.mem_flatMap.mp he
  simp only [farewell, List.mem_cons, List.not_mem_nil, or_false] at hx
  rcases hx with rfl | rfl <;> rfl

@[simp] theorem inboundRecords_farewell (now : Nat) (gone : List (Route × Carrier)) :
    inboundRecords (gone.flatMap (farewell now)) = [] := by
  refine List.filterMap_eq_nil_iff.mpr fun e he => ?_
  obtain ⟨x, _, hx⟩ := List.mem_flatMap.mp he
  simp only [farewell, List.mem_cons, List.not_mem_nil, or_false] at hx
  rcases hx with rfl | rfl <;> rfl

@[simp] theorem announcements_admission (now : Nat) (gone : List (Claim × Carrier)) :
    announcements (gone.map fun e => .account (admissionRecord now e)) = [] := by
  refine List.filter_eq_nil_iff.mpr fun e he => ?_
  obtain ⟨x, _, rfl⟩ := List.mem_map.mp he
  simp [Effect.announces, admissionRecord, Carrier.account]

@[simp] theorem inboundRecords_admission (now : Nat) (gone : List (Claim × Carrier)) :
    inboundRecords (gone.map fun e => .account (admissionRecord now e)) = gone.map (admissionRecord now) := by
  simp [inboundRecords, List.filterMap_map, Function.comp_def, Effect.inboundRecord?, admissionRecord,
    Carrier.account]

/-- Authorizations end, and each end is entered into the books as of now. -/
structure Lapses (g g' : Gateway) : Prop where
  now : g'.now = g.now
  drops : ∃ gone, Drops g g' gone
  dismisses : ∃ gone left, Dismisses g g' gone left

namespace Lapses

theorem refl (g : Gateway) : Lapses g g :=
  ⟨rfl, ⟨_, (Rests.refl g).drops⟩, _, _, (Rests.refl g).dismisses⟩

theorem trans (a : Lapses f g) (b : Lapses g h) : Lapses f h := by
  obtain ⟨_, da⟩ := a.drops
  obtain ⟨_, db⟩ := b.drops
  obtain ⟨_, _, ea⟩ := a.dismisses
  obtain ⟨_, _, eb⟩ := b.dismisses
  exact ⟨b.now.trans a.now, ⟨_, da.trans db (.inr a.now)⟩, _, _, ea.trans eb a.now⟩

theorem rests (a : Lapses f g) (b : Rests g h) (now : h.now = g.now) : Lapses f h := by
  obtain ⟨gone, drops⟩ := a.drops
  obtain ⟨ended, left, dismisses⟩ := a.dismisses
  exact ⟨now.trans a.now, ⟨gone, drops.rests b⟩, ended, left, dismisses.rests b⟩

end Lapses

theorem setRoutes_of_removes {α : Type} {change : Registry.Change Route Carrier α} {gone : List (Route × Carrier)}
    (removes : change.Removes g.routes gone) : g.setRoutes change = { g with
      routes := change.registry
      world := { g.world with trace := g.world.trace ++ gone.flatMap (farewell g.now) } } := by
  rw [setRoutes, removes.2, foldl_noticeRoute_unregistered]
  rfl

theorem setAdmissions_of_removes {α : Type} {change : Registry.Change Claim Carrier α}
    {gone : List (Claim × Carrier)} (removes : change.Removes g.admissions gone) :
    g.setAdmissions change = { g with
      admissions := change.registry
      world := { g.world with trace := g.world.trace ++ gone.map fun e => .account (admissionRecord g.now e) } } := by
  rw [setAdmissions, removes.2, foldl_noticeAdmission_unregistered]
  rfl

theorem setAdmissions_lapses {α : Type} {change : Registry.Change Claim Carrier α}
    {gone : List (Claim × Carrier)} (removes : change.Removes g.admissions gone) :
    Lapses g (g.setAdmissions change) := by
  rw [setAdmissions_of_removes removes]
  exact ⟨rfl, ⟨[], .refl _, id, _, rfl, announcements_admission _ _⟩, gone, [], removes.1, .refl _, _, rfl,
    by simp, by simp⟩

/-- Routes are removed, and no link that the tables still give carried one of them. -/
theorem setRoutes_lapses {α : Type} {change : Registry.Change Route Carrier α} {gone : List (Route × Carrier)}
    (removes : change.Removes g.routes gone) {l : Table LinkId Route}
    (anchored : g.Anchored → ∀ t r, l.get? t = some r → ∃ c, change.registry.get? r = some c ∧ c.link = t) :
    Lapses g { g.setRoutes change with carried := l } := by
  rw [setRoutes_of_removes removes]
  exact ⟨rfl, ⟨gone, removes.1, anchored, _, rfl, announcements_farewell _ _⟩, [], [], .refl _, .refl _, _, rfl,
    by simp [farewell], by simp⟩

theorem finish_rests (g : Gateway) (link : LinkId) : Rests g (g.act (·.finish link)) :=
  .act (World.Speaks.finish (P := CallKind.IsPlain) _ rfl).unbooked

theorem close_rests (g : Gateway) (link : LinkId) : Rests g (g.act (·.close link)) :=
  .act (World.Speaks.close (P := CallKind.IsPlain) _ rfl).unbooked

theorem fail_rests (g : Gateway) (link : LinkId) (error : Stream.Error) : Rests g (g.act (·.fail link error)) :=
  .act (World.Speaks.fail (P := CallKind.IsPlain) _ rfl error).unbooked

theorem releaseRoute_lapses (g : Gateway) (route : Route) : Lapses g (g.releaseRoute route).1 := by
  unfold releaseRoute
  cases hc : g.routes.get? route with
  | none => exact .refl g
  | some carrier =>
    refine (setRoutes_lapses (g.routes.unregister_removes route) fun ha t r ht => ?_).rests
      (finish_rests _ _) rfl
    rw [setRoutes_carried, Table.get?_erase] at ht
    split at ht
    · cases ht
    · rename_i hne
      obtain ⟨c, found, hl⟩ := ha t r ht
      refine ⟨c, ?_, hl⟩
      rw [Registry.get?_unregister, if_neg, found]
      rintro rfl
      rw [hc] at found
      cases found
      exact hne hl.symm

theorem dropRoute_lapses (g : Gateway) (route : Route) (link : LinkId) :
    Lapses g (g.dropRoute route link) := by
  have removes := g.routes.unregisterAll_removes (g.routes.table.filter fun r c => r = route ∧ c.link = link).keys
  have dropped := setRoutes_lapses (l := g.carried.erase link) removes fun ha t r ht => ?_
  · have same : g.dropRoute route link = { g.setRoutes (g.routes.unregisterWhere fun r c => r = route ∧ c.link = link)
        with carried := g.carried.erase link } := by
      unfold dropRoute
      simp only [Registry.unregisterWhere]
      rw [setRoutes_of_removes (g := { g with carried := g.carried.erase link }) removes,
        setRoutes_of_removes removes]
      rfl
    rw [same]
    exact dropped
  · rw [Table.get?_erase] at ht
    split at ht
    · cases ht
    · rename_i hne
      obtain ⟨c, found, hl⟩ := ha t r ht
      refine ⟨c, ?_, hl⟩
      have kept := g.routes.get?_unregisterWhere (fun r c => r = route ∧ c.link = link) r
      rw [Registry.unregisterWhere] at kept
      rw [kept, found]
      simp [Option.filter, hl, hne]

theorem dismiss_lapses (g : Gateway) (link : LinkId) : Lapses g (g.dismiss link) :=
  setAdmissions_lapses (g.admissions.unregisterAll_removes _)

theorem releaseClaim_lapses (g : Gateway) (claim : Claim) : Lapses g (g.releaseClaim claim).1 := by
  unfold releaseClaim
  split
  · exact .refl g
  · have released := setAdmissions_lapses (g.admissions.unregister_removes claim)
    dsimp only
    split
    · exact released
    · exact released.rests (finish_rests _ _) rfl

/-- A stream, and the legacy streams among the others. -/
theorem legacies_erase {stream : InboundStream} (hs : g.streams.get? t = some stream) :
    g.legacies.Perm ((legacy? (t, stream)).toList ++ { g with streams := g.streams.erase t }.legacies) := by
  have h := (Table.entries_erase hs).filterMap legacy?
  rw [List.filterMap_cons] at h
  unfold legacies
  cases hl : legacy? (t, stream) <;> simpa [hl] using h

/-- A stream in a new state, and the legacy streams among the others. -/
theorem legacies_modify {stream : InboundStream} (hs : g.streams.get? t = some stream)
    (f : InboundStream → InboundStream) : { g with streams := g.streams.modify t f }.legacies.Perm
      ((legacy? (t, f stream)).toList ++ { g with streams := g.streams.erase t }.legacies) := by
  have h := (Table.entries_modify hs f).filterMap legacy?
  rw [List.filterMap_cons] at h
  unfold legacies
  cases hl : legacy? (t, f stream) <;> simpa [hl] using h

/-- A stream that ends without a record of its own is not one from before dialback. -/
theorem eraseStream_lapses {stream : InboundStream} (hs : g.streams.get? t = some stream)
    (silent : legacy? (t, stream) = none) : Lapses g { g with streams := g.streams.erase t } := by
  have h := legacies_erase hs
  rw [silent] at h
  exact ⟨rfl, ⟨[], .refl _, id, [], by simp, rfl⟩, [], [], .refl _, h, [], by simp, by simp, .refl _⟩

theorem endStream_lapses {stream : InboundStream} {peer : String} {carrier : Carrier}
    (hs : g.streams.get? t = some stream) (hp : stream.phase = .legacy peer carrier) :
    Lapses g ({ g with streams := g.streams.erase t }.emit (.account (carrier.account peer .inbound g.now))) := by
  have h := legacies_erase hs
  rw [show legacy? (t, stream) = some (t, peer, carrier) by simp [legacy?, hp]] at h
  exact ⟨rfl, ⟨[], .refl _, id, [_], rfl, rfl⟩, [], [(t, peer, carrier)], .refl _, h, [_], rfl, by simp, .refl _⟩

theorem endLegacy_lapses (g : Gateway) (link : LinkId) : Lapses g (g.endLegacy link).1 := by
  unfold endLegacy
  cases hs : g.streams.get? link with
  | none => exact .refl g
  | some stream =>
    dsimp only
    cases hp : stream.phase with
    | legacy peer carrier => exact (endStream_lapses hs hp).rests (finish_rests _ _) rfl
    | awaitingHeader => exact .refl g
    | streaming s => exact .refl g

theorem onClosed_lapses (g : Gateway) (link : LinkId) : Lapses g (g.onClosed link) := by
  unfold onClosed
  cases hs : g.streams.get? link with
  | none => exact .refl g
  | some stream =>
    refine Lapses.trans ?_ (dismiss_lapses _ _)
    cases hp : stream.phase with
    | legacy peer carrier => exact endStream_lapses hs hp
    | awaitingHeader => exact eraseStream_lapses hs (by simp [legacy?, hp])
    | streaming s =>
      exact (eraseStream_lapses hs (by simp [legacy?, hp])).rests ⟨rfl, rfl, rfl, rfl, .refl _⟩ rfl

theorem endSilent_lapses (silent : ∀ stream, g.streams.get? t = some stream → stream.phase = .awaitingHeader) :
    Lapses g (g.endSilent t).1 := by
  unfold endSilent
  split
  · rename_i hc
    obtain ⟨stream, hs⟩ := Table.contains_iff.mp hc
    have hp := silent stream hs
    exact ((eraseStream_lapses hs (by simp [legacy?, hp])).trans (dismiss_lapses _ _)).rests (close_rests _ _) rfl
  · exact .refl g

end Gateway

end Interdomain
