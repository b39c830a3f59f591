import Interdomain.Proofs.Books
import Mathlib.Data.List.Basic

/-! Sweeps. What a sweep does is given here by what the tables hold when it begins: the entries that have expired,
the calls that their ends make, and what is left. A sweep goes through its passes one after the other and through
each pass entry by entry; the lemmas follow the passes, and the last one adds them up. -/
namespace Interdomain

open Protocol (Dialback)

namespace Table

variable {κ ν : Type} {s t : Table κ ν} {e : κ × ν} {es : List (κ × ν)}

theorem eq_of_entries (h : s.entries = t.entries) : s = t := by
  cases s
  cases t
  simpa using h

theorem filter_filter (t : Table κ ν) (p q : κ → ν → Bool) :
    (t.filter p).filter q = t.filter fun k v => p k v && q k v := by
  apply eq_of_entries
  simp only [filter, List.filter_filter, Bool.and_comm]

variable [DecidableEq κ]

/-- The table without what there is under the keys. -/
def without (t : Table κ ν) (ks : List κ) : Table κ ν := t.filter fun k _ => k ∉ ks

@[simp] theorem without_nil (t : Table κ ν) : t.without [] = t := by
  apply eq_of_entries
  simp [without, filter]

@[simp] theorem erase_without (t : Table κ ν) (k : κ) (ks : List κ) :
    (t.erase k).without ks = t.without (k :: ks) := by
  simp [without, erase, filter_filter]

theorem get?_without (t : Table κ ν) (ks : List κ) (k : κ) :
    (t.without ks).get? k = if k ∈ ks then none else t.get? k := by
  rw [without, get?_filter]
  by_cases h : k ∈ ks <;> cases t.get? k <;> simp [h]

theorem get?_of_erase {k x : κ} {v : ν} (h : (t.erase k).get? x = some v) : t.get? x = some v := by
  rw [get?_erase] at h
  split at h
  · cases h
  · exact h

/-- The table holds the entries, which are under distinct keys. -/
structure Holds (t : Table κ ν) (es : List (κ × ν)) : Prop where
  distinct : (es.map (·.1)).Nodup
  found : ∀ e ∈ es, t.get? e.1 = some e.2

theorem holds_filter (t : Table κ ν) (p : κ × ν → Bool) : t.Holds (t.entries.filter p) :=
  ⟨t.keys_nodup.sublist (List.filter_sublist.map _), fun _ he => get?_eq_some.mpr (List.mem_filter.mp he).1⟩

theorem Holds.ne (h : t.Holds (e :: es)) {x : κ × ν} (hx : x ∈ es) : x.1 ≠ e.1 := by
  intro same
  have mem : x.1 ∈ es.map (·.1) := List.mem_map_of_mem hx
  rw [same] at mem
  exact (List.nodup_cons.mp h.distinct).1 mem

/-- The first of some entries is there, and the others are still there without it. -/
theorem Holds.cons (h : t.Holds (e :: es)) : t.get? e.1 = some e.2 ∧ (t.erase e.1).Holds es := by
  refine ⟨h.found e (.head _), (List.nodup_cons.mp h.distinct).2, fun x hx => ?_⟩
  rw [get?_erase, if_neg (h.ne hx)]
  exact h.found x (.tail _ hx)

/-- What is held without some of the entries is held by the others. -/
theorem mem_entries_iff (h : t.Holds es) {x : κ × ν} :
    x ∈ t.entries ↔ x ∈ es ∨ x ∈ (t.without (es.map (·.1))).entries := by
  have mem : x ∈ (t.without (es.map (·.1))).entries ↔ x ∈ t.entries ∧ x.1 ∉ es.map (·.1) := by
    simp only [without, filter, List.mem_filter, decide_not, Bool.not_eq_true', decide_eq_false_iff_not]
  rw [mem]
  constructor
  · intro hx
    by_cases hk : x.1 ∈ es.map (·.1)
    · obtain ⟨y, hy, same⟩ := List.mem_map.mp hk
      have value : t.get? x.1 = some y.2 := same ▸ h.found y hy
      rw [get?_eq_some.mpr hx] at value
      exact .inl (Prod.ext same (Option.some.inj value).symm ▸ hy)
    · exact .inr ⟨hx, hk⟩
  · rintro (hx | hx)
    · exact get?_eq_some.mp (h.found x hx)
    · exact hx.1

/-- Without the entries that satisfy a test, the table holds those that do not. -/
theorem without_filter (t : Table κ ν) (p : κ → ν → Bool) :
    t.without ((t.entries.filter fun e => p e.1 e.2).map (·.1)) = t.filter fun k v => !p k v := by
  apply eq_of_entries
  refine List.filter_congr fun e he => ?_
  have found := get?_eq_some.mpr he
  have mem : e.1 ∈ (t.entries.filter fun e => p e.1 e.2).map (·.1) ↔ p e.1 e.2 = true := by
    rw [List.mem_map]
    constructor
    · rintro ⟨x, hx, same⟩
      obtain ⟨hx, hp⟩ := List.mem_filter.mp hx
      have value := get?_eq_some.mpr hx
      rw [same, found] at value
      rwa [same, ← Option.some.inj value] at hp
    · exact fun hp => ⟨e, List.mem_filter.mpr ⟨he, hp⟩, rfl⟩
  simp only [mem]
  cases p e.1 e.2 <;> rfl

end Table

namespace Registry

variable {κ ν : Type} [DecidableEq κ] {r : Registry κ ν} {es : List (κ × ν)}

theorem unregister_of_get? {k : κ} {v : ν} (h : r.get? k = some v) :
    r.unregister k = ⟨⟨r.table.erase k⟩, some v, [.unregistered k v]⟩ := by
  rw [unregister, h]

theorem unregisterAll_of_holds (h : r.table.Holds es) : r.unregisterAll (es.map (·.1)) =
    ⟨⟨r.table.without (es.map (·.1))⟩, es, es.map fun e => .unregistered e.1 e.2⟩ := by
  induction es generalizing r with
  | nil => simp [unregisterAll]
  | cons e es ih =>
    obtain ⟨first, others⟩ := h.cons
    rw [List.map_cons, unregisterAll, unregister_of_get? first]
    dsimp only
    rw [ih (r := ⟨r.table.erase e.1⟩) others]
    simp

theorem unregisterWhere_eq (r : Registry κ ν) (p : κ → ν → Bool) : r.unregisterWhere p =
    ⟨⟨r.table.filter fun k v => !p k v⟩, r.entries.filter fun e => p e.1 e.2,
      (r.entries.filter fun e => p e.1 e.2).map fun e => .unregistered e.1 e.2⟩ := by
  rw [unregisterWhere, ← Table.without_filter]
  exact unregisterAll_of_holds (r.table.holds_filter fun e => p e.1 e.2)

end Registry

namespace World

/-- The world after the calls, which change nothing else in it. -/
def emitAll (w : World) (es : List Effect) : World := { w with trace := w.trace ++ es }

@[simp] theorem emitAll_nil (w : World) : w.emitAll [] = w := by simp [emitAll]

@[simp] theorem emitAll_emitAll (w : World) (es fs : List Effect) :
    (w.emitAll es).emitAll fs = w.emitAll (es ++ fs) := by simp [emitAll]

@[simp] theorem now_emitAll (w : World) (es : List Effect) : (w.emitAll es).now = w.now := rfl

/-- The closing tag of a stream, and the end of its link. -/
def closing (link : LinkId) : List Effect := [.send link .close, .close link]

theorem finish_eq (w : World) (link : LinkId) : w.finish link = w.emitAll (closing link) := by
  simp [finish, send, close, emit, emitAll, closing]

end World

namespace Settings

variable (s : Settings) (now : Nat)

/-- It has carried nothing for as long as the settings allow. -/
def idles (c : Carrier) : Bool := s.idleTimeout ≤ now - c.lastUsed

/-- The time that the settings allow for authorization has gone by. -/
def overdue (since : Nat) : Bool := s.authTimeout ≤ now - since

/-- It is the stream of a peer from before dialback, and idle. -/
def idlesAsLegacy (stream : InboundStream) : Bool :=
  match stream.phase with
  | .legacy _ carrier => s.idles now carrier
  | _ => false

/-- No header has come on the stream for too long. -/
def silent (stream : InboundStream) : Bool := stream.phase = .awaitingHeader && s.overdue now stream.since

/-- The stanzas on a negotiation that have waited too long, in the order in which they came. -/
def expired (n : Negotiation) : List Xml.Element :=
  (n.queue.filter fun q => s.queueTimeout ≤ now - q.since).map (·.stanza)

/-- A negotiation with the stanzas only that have waited for less time than the settings allow. -/
def pruned (n : Negotiation) : Negotiation := { n with queue := n.queue.filter fun q => now - q.since < s.queueTimeout }

/-- All that waits on the negotiation are stanzas that have waited too long, and its stream is not ready. -/
def abandoned (n : Negotiation) : Bool :=
  (n.queue.all fun q => s.queueTimeout ≤ now - q.since) && decide (n.verifies = []) && decide (n.ready = false)

/-- What has waited too long on a negotiation returns; without anything else that waits, its link is closed. -/
def queueEnd (n : Negotiation) : List Effect :=
  (s.expired now n).map (.bounce · n.timeoutReason) ++ if s.abandoned now n then [.close n.link] else []

variable (n : Negotiation)

theorem expired_eq : n.expired now s.queueTimeout = s.expired now n := rfl

theorem pruned_eq : n.dropExpired now s.queueTimeout = s.pruned now n := by
  have kept (q : Waiting) : (!q.isExpired now s.queueTimeout) = decide (now - q.since < s.queueTimeout) := by
    rw [Waiting.isExpired, ← decide_not, decide_eq_decide, Nat.not_le]
  simp only [Negotiation.dropExpired, pruned, kept]

theorem isIdle_pruned : ((s.pruned now n).isIdle && !(s.pruned now n).ready) = s.abandoned now n := by
  rw [Bool.eq_iff_iff]
  simp [pruned, abandoned, Negotiation.isIdle, List.filter_eq_nil_iff]

end Settings

namespace Gateway

open World (closing)

variable {g : Gateway} {now : Nat}

/-- Some admission on the link is not idle. -/
def staysAdmitted (g : Gateway) (now : Nat) (link : LinkId) : Bool :=
  g.admissions.entries.any fun e => !g.setup.settings.idles now e.2 && e.2.link = link

/-- The challenge was issued too long ago, and its link is left without any admission. -/
def stale (g : Gateway) (now : Nat) (c : Challenge) : Bool :=
  g.setup.settings.overdue now c.issued && !g.staysAdmitted now c.link

/-- The stream of the link is silent. -/
def silentOn (g : Gateway) (now : Nat) (link : LinkId) : Bool :=
  link ∈ (g.streams.entries.filter fun e => g.setup.settings.silent now e.2).map (·.1)

def expiredRoutes (g : Gateway) (now : Nat) : List (Route × Carrier) :=
  g.routes.entries.filter fun e => g.setup.settings.idles now e.2

def expiredAdmissions (g : Gateway) (now : Nat) : List (Claim × Carrier) :=
  g.admissions.entries.filter fun e => g.setup.settings.idles now e.2

def keptAdmissions (g : Gateway) (now : Nat) : List (Claim × Carrier) :=
  g.admissions.entries.filter fun e => !g.setup.settings.idles now e.2

def expiredLegacies (g : Gateway) (now : Nat) : List (LinkId × InboundStream) :=
  g.streams.entries.filter fun e => g.setup.settings.idlesAsLegacy now e.2

def expiredChallenges (g : Gateway) (now : Nat) : List (String × Challenge) :=
  g.challenges.entries.filter fun e => g.stale now e.2

def expiredStreams (g : Gateway) (now : Nat) : List (LinkId × InboundStream) :=
  g.streams.entries.filter fun e => g.setup.settings.silent now e.2

def overdueNegotiations (g : Gateway) (now : Nat) : List (Route × Negotiation) :=
  g.negotiations.entries.filter fun e => g.setup.settings.overdue now e.2.started

def abandonedNegotiations (g : Gateway) (now : Nat) : List (Route × Negotiation) :=
  g.negotiations.entries.filter fun e => g.setup.settings.abandoned now e.2

def routeEnd (now : Nat) (e : Route × Carrier) : List Effect := farewell now e ++ closing e.2.link

/-- Admissions end in turn. Each has its record, and the stream is closed by the end of the last one on its
link, if none is kept there. -/
def admissionEnds (now : Nat) (kept : List (Claim × Carrier)) : List (Claim × Carrier) → List Effect
  | [] => []
  | e :: es =>
    .account (admissionRecord now e) ::
      (if (es ++ kept).any (·.2.link = e.2.link) then [] else closing e.2.link) ++ admissionEnds now kept es

def legacyEnd (now : Nat) (e : LinkId × InboundStream) : List Effect :=
  match e.2.phase with
  | .legacy peer carrier => .account (legacyRecord now (e.1, peer, carrier)) :: closing e.1
  | _ => []

/-- A stream ends with the admissions that are on its link. -/
def streamEnd (now : Nat) (kept : List (Claim × Carrier)) (link : LinkId) : List Effect :=
  ((kept.filter (·.2.link = link)).map fun e => .account (admissionRecord now e)) ++ [.close link]

/-- The calls of a sweep, pass after pass. -/
def sweepCalls (g : Gateway) (now : Nat) : List Effect :=
  (g.expiredRoutes now).flatMap (routeEnd g.now) ++
  admissionEnds g.now (g.keptAdmissions now) (g.expiredAdmissions now) ++
  (g.expiredLegacies now).flatMap (legacyEnd g.now) ++
  (g.expiredChallenges now).map (fun e => .close e.2.link) ++
  (g.expiredStreams now).flatMap (fun e => streamEnd g.now (g.keptAdmissions now) e.1) ++
  (g.overdueNegotiations now).map (fun e => .close e.2.link) ++
  g.negotiations.entries.flatMap fun e => g.setup.settings.queueEnd now e.2

/-- What a sweep leaves. -/
def swept (g : Gateway) (now : Nat) : Gateway :=
  { g with
    world := g.world.emitAll (g.sweepCalls now)
    routes := ⟨g.routes.table.filter fun _ c => !g.setup.settings.idles now c⟩
    carried := g.carried.without ((g.expiredRoutes now).map (·.2.link))
    admissions := ⟨g.admissions.table.filter fun _ c => !g.setup.settings.idles now c && !g.silentOn now c.link⟩
    streams := g.streams.filter fun _ s => !g.setup.settings.idlesAsLegacy now s && !g.setup.settings.silent now s
    challenges := g.challenges.filter fun _ c => !g.stale now c
    negotiations := (g.negotiations.filter fun _ n => !g.setup.settings.abandoned now n).map
      fun _ n => g.setup.settings.pruned now n
    attempts := g.attempts.without ((g.abandonedNegotiations now).map (·.2.link)) }

/-- How much has expired. The admissions that end with a silent stream are not counted. -/
def sweepCounts (g : Gateway) (now : Nat) : SweepReport where
  idleOutbound := (g.expiredRoutes now).length
  idleInbound := (g.expiredAdmissions now).length + (g.expiredLegacies now).length
  authTimeouts := (g.expiredChallenges now).length + (g.expiredStreams now).length +
    (g.overdueNegotiations now).length
  bounced := (g.negotiations.entries.flatMap fun e => g.setup.settings.expired now e.2).length
  retired := (g.abandonedNegotiations now).length

theorem sweepEach_cons {κ : Type} {f : Gateway → κ → Gateway × Nat} {k : κ} {ks : List κ} {g₁ : Gateway}
    (h : f g k = (g₁, 1)) : sweepEach f (k :: ks) g = ((sweepEach f ks g₁).1, (sweepEach f ks g₁).2 + 1) := by
  simp only [sweepEach, h, Nat.add_comm]

theorem releaseRoute_of_get? {r : Route} {c : Carrier} (h : g.routes.get? r = some c) :
    g.releaseRoute r = ({ g with
      routes := ⟨g.routes.table.erase r⟩
      carried := g.carried.erase c.link
      world := g.world.emitAll (routeEnd g.now (r, c)) }, true) := by
  have removes := g.routes.unregister_removes r
  rw [Registry.entryOf, h] at removes
  simp only [releaseRoute, h]
  rw [setRoutes_of_removes removes, Registry.unregister_of_get? h]
  simp [World.finish_eq, World.emitAll, act, routeEnd]

theorem sweepEach_releaseRoute {es : List (Route × Carrier)} (h : g.routes.table.Holds es) :
    sweepEach (fun g r => (g.releaseRoute r).map id Bool.toNat) (es.map (·.1)) g = ({ g with
      routes := ⟨g.routes.table.without (es.map (·.1))⟩
      carried := g.carried.without (es.map (·.2.link))
      world := g.world.emitAll (es.flatMap (routeEnd g.now)) }, es.length) := by
  induction es generalizing g with
  | nil => simp [sweepEach]
  | cons e es ih =>
    obtain ⟨first, others⟩ := h.cons
    rw [List.map_cons, sweepEach_cons (f := fun g r => (g.releaseRoute r).map id Bool.toNat)
      (congrArg _ (releaseRoute_of_get? first)), ih]
    · simp [Gateway.now]
    · exact others

theorem releaseClaim_of_get? {k : Claim} {c : Carrier} (h : g.admissions.get? k = some c) :
    g.releaseClaim k = ({ g with
      admissions := ⟨g.admissions.table.erase k⟩
      world := g.world.emitAll (.account (admissionRecord g.now (k, c)) ::
        if (g.admissions.table.erase k).entries.any (·.2.link = c.link) then [] else closing c.link) }, true) := by
  have removes := g.admissions.unregister_removes k
  rw [Registry.entryOf, h] at removes
  simp only [releaseClaim, h]
  rw [setAdmissions_of_removes removes, Registry.unregister_of_get? h]
  simp only [carriesAdmission, Registry.entries, act, World.finish_eq]
  split <;> simp [World.emitAll, *]

theorem sweepEach_releaseClaim {es : List (Claim × Carrier)} (h : g.admissions.table.Holds es) :
    sweepEach (fun g k => (g.releaseClaim k).map id Bool.toNat) (es.map (·.1)) g = ({ g with
      admissions := ⟨g.admissions.table.without (es.map (·.1))⟩
      world := g.world.emitAll
        (admissionEnds g.now (g.admissions.table.without (es.map (·.1))).entries es) }, es.length) := by
  induction es generalizing g with
  | nil => simp [sweepEach, admissionEnds]
  | cons e es ih =>
    obtain ⟨first, others⟩ := h.cons
    have left : (g.admissions.table.erase e.1).entries.any (·.2.link = e.2.link) =
        (es ++ (g.admissions.table.without (e.1 :: es.map (·.1))).entries).any (·.2.link = e.2.link) := by
      rw [Bool.eq_iff_iff, List.any_eq_true, List.any_eq_true, ← Table.erase_without]
      simp only [Table.mem_entries_iff others, List.mem_append]
    rw [List.map_cons, sweepEach_cons (f := fun g k => (g.releaseClaim k).map id Bool.toNat)
      (congrArg _ (releaseClaim_of_get? first)), left, ih]
    · simp [Gateway.now, admissionEnds]
    · exact others

theorem sweepEach_endLegacy {es : List (LinkId × InboundStream)} (h : g.streams.Holds es)
    (legacy : ∀ e ∈ es, g.setup.settings.idlesAsLegacy now e.2 = true) :
    sweepEach endLegacy (es.map (·.1)) g = ({ g with
      streams := g.streams.without (es.map (·.1))
      world := g.world.emitAll (es.flatMap (legacyEnd g.now)) }, es.length) := by
  induction es generalizing g with
  | nil => simp [sweepEach]
  | cons e es ih =>
    obtain ⟨first, others⟩ := h.cons
    have ends : g.endLegacy e.1 = ({ g with
        streams := g.streams.erase e.1, world := g.world.emitAll (legacyEnd g.now e) }, 1) := by
      have idle := legacy e (.head _)
      unfold Settings.idlesAsLegacy at idle
      split at idle
      · rename_i peer carrier phase
        simp only [endLegacy, first, phase, act, emit, World.finish_eq]
        simp [World.emitAll, World.emit, legacyEnd, legacyRecord, phase, Gateway.now]
      · cases idle
    rw [List.map_cons, sweepEach_cons ends, ih]
    · simp [Gateway.now]
    · exact others
    · exact fun x hx => legacy x (.tail _ hx)

theorem sweepEach_endChallenge {es : List (String × Challenge)} (h : g.challenges.Holds es) :
    sweepEach endChallenge (es.map (·.1)) g = ({ g with
      challenges := g.challenges.without (es.map (·.1))
      world := g.world.emitAll (es.map fun e => .close e.2.link) }, es.length) := by
  induction es generalizing g with
  | nil => simp [sweepEach]
  | cons e es ih =>
    obtain ⟨first, others⟩ := h.cons
    have ends : g.endChallenge e.1 = ({ g with
        challenges := g.challenges.erase e.1, world := g.world.emitAll [.close e.2.link] }, 1) := by
      rw [endChallenge, first]
      rfl
    rw [List.map_cons, sweepEach_cons ends, ih]
    · simp
    · exact others

theorem dismiss_eq (g : Gateway) (link : LinkId) : g.dismiss link = { g with
    admissions := ⟨g.admissions.table.filter fun _ c => c.link ≠ link⟩
    world := g.world.emitAll
      ((g.admissions.entries.filter (·.2.link = link)).map fun e => .account (admissionRecord g.now e)) } := by
  have removes := g.admissions.unregisterAll_removes
    (g.admissions.table.filter fun _ c => decide (c.link = link)).keys
  rw [← Registry.unregisterWhere, Registry.unregisterWhere_eq] at removes
  rw [dismiss, Registry.unregisterWhere_eq, setAdmissions_of_removes removes]
  simp [World.emitAll]

theorem sweepEach_endSilent {es : List (LinkId × InboundStream)} (h : g.streams.Holds es) :
    sweepEach endSilent (es.map (·.1)) g = ({ g with
      streams := g.streams.without (es.map (·.1))
      admissions := ⟨g.admissions.table.filter fun _ c => !decide (c.link ∈ es.map (·.1))⟩
      world := g.world.emitAll (es.flatMap fun e => streamEnd g.now g.admissions.entries e.1) }, es.length) := by
  induction es generalizing g with
  | nil =>
    have all : (g.admissions.table.filter fun _ _ => true) = g.admissions.table :=
      Table.eq_of_entries (List.filter_true _)
    simp [sweepEach, all]
  | cons e es ih =>
    obtain ⟨first, others⟩ := h.cons
    have ends : g.endSilent e.1 = ({ g with
        streams := g.streams.erase e.1
        admissions := ⟨g.admissions.table.filter fun _ c => c.link ≠ e.1⟩
        world := g.world.emitAll (streamEnd g.now g.admissions.entries e.1) }, 1) := by
      rw [endSilent, if_pos (Table.contains_iff.mpr ⟨_, first⟩), dismiss_eq]
      simp [act, World.close, World.emit, World.emitAll, streamEnd, Gateway.now]
    have apart : (es.flatMap fun x => streamEnd g.now
        (g.admissions.table.filter fun _ c => c.link ≠ e.1).entries x.1) =
        es.flatMap fun x => streamEnd g.now g.admissions.entries x.1 := by
      refine List.flatMap_congr fun x hx => ?_
      have ne := h.ne hx
      simp only [streamEnd, Table.filter, List.filter_filter]
      congr 2
      refine List.filter_congr fun y _ => ?_
      by_cases hy : y.2.link = x.1 <;> simp [hy, ne]
    rw [List.map_cons, sweepEach_cons ends, ih]
    · simp only [Gateway.now, World.now_emitAll, Registry.entries] at apart ⊢
      rw [apart]
      simp [Table.filter_filter, beq_eq_decide]
    · exact others

theorem sweepEach_closeAttempt {es : List (Route × Negotiation)} (h : g.negotiations.Holds es) :
    sweepEach closeAttempt (es.map (·.1)) g =
      (g.act (·.emitAll (es.map fun e => .close e.2.link)), es.length) := by
  have found := h.found
  clear h
  induction es generalizing g with
  | nil => simp [sweepEach, act]
  | cons e es ih =>
    have ends : g.closeAttempt e.1 = (g.act (·.emitAll [.close e.2.link]), 1) := by
      rw [closeAttempt, found e (.head _)]
      rfl
    rw [List.map_cons, sweepEach_cons ends, ih]
    · simp [act]
    · exact fun x hx => found x (.tail _ hx)

theorem foldl_bounce (g : Gateway) (es : List Xml.Element) (reason : BounceReason) :
    es.foldl (fun g stanza => g.emit (.bounce stanza reason)) g =
      g.act (·.emitAll (es.map (.bounce · reason))) := by
  induction es generalizing g with
  | nil => simp [act]
  | cons e es ih =>
    rw [List.foldl_cons, ih]
    simp [act, emit, World.emit, World.emitAll]

theorem retireIdle_of_get? {r : Route} {n : Negotiation} (h : g.negotiations.get? r = some n) :
    g.retireIdle r = if n.isIdle && !n.ready then ({ g with
      negotiations := g.negotiations.erase r
      attempts := g.attempts.erase n.link
      world := g.world.emitAll [.close n.link] }, 1) else (g, 0) := by
  simp only [retireIdle, h]
  split
  · rename_i idle
    obtain ⟨queue, verifies⟩ : n.queue = [] ∧ n.verifies = [] := by
      simpa [Negotiation.isIdle] using (Bool.and_eq_true_iff.mp idle).1
    rw [retire, h]
    simp [Negotiation.stanzas, queue, verifies, World.close, World.emit, World.emitAll]
  · rfl

theorem sweepQueue_of_get? {r : Route} {n : Negotiation} (h : g.negotiations.get? r = some n) (hr : n.route = r) :
    sweepQueue now g r = ({ g with
      negotiations := if g.setup.settings.abandoned now n then g.negotiations.erase r
        else g.negotiations.insert r (g.setup.settings.pruned now n)
      attempts := if g.setup.settings.abandoned now n then g.attempts.erase n.link else g.attempts
      world := g.world.emitAll (g.setup.settings.queueEnd now n) },
      { bounced := (g.setup.settings.expired now n).length, retired := (g.setup.settings.abandoned now n).toNat }) := by
  have bounced : g.bounceExpired now r = ({ g with
      negotiations := g.negotiations.insert r (g.setup.settings.pruned now n)
      world := g.world.emitAll ((g.setup.settings.expired now n).map (.bounce · n.timeoutReason)) },
      (g.setup.settings.expired now n).length) := by
    simp only [bounceExpired, h, foldl_bounce, Settings.expired_eq, Settings.pruned_eq]
    simp [setNegotiation, act, Settings.pruned, Negotiation.timeoutReason, Negotiation.historyText, hr]
  simp only [sweepQueue, bounced]
  rw [retireIdle_of_get? (n := g.setup.settings.pruned now n) (by simp [Table.get?_insert])]
  rw [Settings.isIdle_pruned]
  cases ha : g.setup.settings.abandoned now n
  · simp [Settings.queueEnd, ha]
  · simp [Settings.queueEnd, ha, Table.erase_insert, Settings.pruned]

theorem sweepQueues_cons {r : Route} {rs : List Route} {g₁ : Gateway} {report : SweepReport}
    (h : sweepQueue now g r = (g₁, report)) : sweepQueues now (r :: rs) g =
      ((sweepQueues now rs g₁).1, report.add (sweepQueues now rs g₁).2) := by
  simp only [sweepQueues, h]

/-- The negotiations that are still to do stand at the head of the table, and those that are done, as they are
left, behind them. -/
theorem sweepQueues_eq (final : Table Route Negotiation) {todo rest : List (Route × Negotiation)}
    (h : g.negotiations.entries = todo ++ rest) (routes : ∀ e ∈ todo, e.2.route = e.1)
    (left : final.entries = rest ++
      (todo.filter fun e => !g.setup.settings.abandoned now e.2).map fun e => (e.1, g.setup.settings.pruned now e.2)) :
    sweepQueues now (todo.map (·.1)) g = ({ g with
      negotiations := final
      attempts := g.attempts.without ((todo.filter fun e => g.setup.settings.abandoned now e.2).map (·.2.link))
      world := g.world.emitAll (todo.flatMap fun e => g.setup.settings.queueEnd now e.2) },
      { bounced := (todo.flatMap fun e => g.setup.settings.expired now e.2).length
        retired := (todo.filter fun e => g.setup.settings.abandoned now e.2).length }) := by
  induction todo generalizing g rest with
  | nil =>
    have same : final = g.negotiations := Table.eq_of_entries (by simp_all)
    simp [sweepQueues, same]
  | cons e todo ih =>
    have distinct := g.negotiations.distinct
    rw [h, List.cons_append, List.pairwise_cons] at distinct
    have first : g.negotiations.get? e.1 = some e.2 := Table.get?_eq_some.mpr (by simp [h])
    have others : (g.negotiations.erase e.1).entries = todo ++ rest := by
      simp only [Table.erase, Table.filter, h, List.cons_append]
      rw [List.filter_cons_of_neg (by simp), List.filter_eq_self]
      exact fun x hx => decide_eq_true (distinct.1 x hx).symm
    have further : ∀ x ∈ todo, x.2.route = x.1 := fun x hx => routes x (.tail _ hx)
    rw [List.map_cons, sweepQueues_cons (sweepQueue_of_get? first (routes e (.head _)))]
    cases ha : g.setup.settings.abandoned now e.2 with
    | true =>
      rw [ih others further (by simpa [ha] using left)]
      simp [ha, SweepReport.add, Nat.add_comm]
    | false =>
      have behind : (g.negotiations.insert e.1 (g.setup.settings.pruned now e.2)).entries =
          todo ++ (rest ++ [(e.1, g.setup.settings.pruned now e.2)]) := by
        rw [← List.append_assoc, ← others]
        rfl
      rw [ih behind further (by simpa [ha] using left)]
      simp [ha, SweepReport.add]

theorem sweepEach_idleRoutes (g : Gateway) (now : Nat) :
    sweepEach (fun g r => (g.releaseRoute r).map id Bool.toNat) (g.idleRoutes now) g = ({ g with
      routes := ⟨g.routes.table.filter fun _ c => !g.setup.settings.idles now c⟩
      carried := g.carried.without ((g.expiredRoutes now).map (·.2.link))
      world := g.world.emitAll ((g.expiredRoutes now).flatMap (routeEnd g.now)) },
      (g.expiredRoutes now).length) := by
  rw [← Table.without_filter]
  exact sweepEach_releaseRoute (g.routes.table.holds_filter _)

theorem sweepEach_idleClaims (g : Gateway) (now : Nat) :
    sweepEach (fun g k => (g.releaseClaim k).map id Bool.toNat) (g.idleClaims now) g = ({ g with
      admissions := ⟨g.admissions.table.filter fun _ c => !g.setup.settings.idles now c⟩
      world := g.world.emitAll (admissionEnds g.now (g.keptAdmissions now) (g.expiredAdmissions now)) },
      (g.expiredAdmissions now).length) := by
  have kept : g.keptAdmissions now =
      (g.admissions.table.filter fun _ c => !g.setup.settings.idles now c).entries := rfl
  rw [kept, ← Table.without_filter]
  exact sweepEach_releaseClaim (g.admissions.table.holds_filter _)

theorem sweepEach_idleLegacy (g : Gateway) (now : Nat) :
    sweepEach endLegacy (g.idleLegacy now) g = ({ g with
      streams := g.streams.filter fun _ s => !g.setup.settings.idlesAsLegacy now s
      world := g.world.emitAll ((g.expiredLegacies now).flatMap (legacyEnd g.now)) },
      (g.expiredLegacies now).length) := by
  rw [← Table.without_filter]
  exact sweepEach_endLegacy (g.streams.holds_filter _) fun e he => (List.mem_filter.mp he).2

/-- What the pass over the idle authorizations leaves. -/
def withoutIdle (g : Gateway) (now : Nat) : Gateway :=
  { g with
    world := g.world.emitAll ((g.expiredRoutes now).flatMap (routeEnd g.now) ++
      admissionEnds g.now (g.keptAdmissions now) (g.expiredAdmissions now) ++
      (g.expiredLegacies now).flatMap (legacyEnd g.now))
    routes := ⟨g.routes.table.filter fun _ c => !g.setup.settings.idles now c⟩
    carried := g.carried.without ((g.expiredRoutes now).map (·.2.link))
    admissions := ⟨g.admissions.table.filter fun _ c => !g.setup.settings.idles now c⟩
    streams := g.streams.filter fun _ s => !g.setup.settings.idlesAsLegacy now s }

theorem sweepIdle_eq (g : Gateway) (now : Nat) : g.sweepIdle now = (g.withoutIdle now,
    { idleOutbound := (g.expiredRoutes now).length
      idleInbound := (g.expiredAdmissions now).length + (g.expiredLegacies now).length }) := by
  rw [sweepIdle, sweepEach_idleRoutes]
  dsimp only
  rw [sweepEach_idleClaims]
  dsimp only
  rw [sweepEach_idleLegacy, World.emitAll_emitAll, World.emitAll_emitAll]
  rfl

theorem carriesAdmission_withoutIdle (g : Gateway) (now : Nat) :
    (g.withoutIdle now).carriesAdmission = g.staysAdmitted now := by
  funext link
  exact List.any_filter

theorem awaiting_of_silent {s : Settings} {stream : InboundStream} (h : s.silent now stream = true) :
    stream.phase = .awaitingHeader := by
  simpa using (Bool.and_eq_true_iff.mp h).1

/-- A silent stream is not one from before dialback. -/
theorem idlesAsLegacy_of_silent {s : Settings} {stream : InboundStream} (h : s.silent now stream = true) :
    s.idlesAsLegacy now stream = false := by
  rw [Settings.idlesAsLegacy, awaiting_of_silent h]

theorem expiredStreams_withoutIdle (g : Gateway) (now : Nat) :
    (g.withoutIdle now).expiredStreams now = g.expiredStreams now := by
  simp only [expiredStreams, withoutIdle, Table.filter, List.filter_filter]
  refine List.filter_congr fun e _ => ?_
  cases h : g.setup.settings.silent now e.2
  · rfl
  · simp [idlesAsLegacy_of_silent h]

theorem silentOn_withoutIdle (g : Gateway) (now : Nat) : (g.withoutIdle now).silentOn now = g.silentOn now := by
  funext link
  have same := expiredStreams_withoutIdle g now
  simp only [expiredStreams] at same
  simp only [silentOn, same]

theorem sweepEach_staleChallenges (g : Gateway) (now : Nat) :
    sweepEach endChallenge ((g.withoutIdle now).staleChallenges now) (g.withoutIdle now) = ({ g.withoutIdle now with
      challenges := g.challenges.filter fun _ c => !g.stale now c
      world := (g.withoutIdle now).world.emitAll ((g.expiredChallenges now).map fun e => .close e.2.link) },
      (g.expiredChallenges now).length) := by
  have keys : (g.withoutIdle now).staleChallenges now = (g.expiredChallenges now).map (·.1) := by
    rw [staleChallenges, carriesAdmission_withoutIdle]
    rfl
  rw [keys, ← Table.without_filter]
  exact sweepEach_endChallenge (g.challenges.holds_filter _)

theorem sweepEach_silentStreams (g : Gateway) (now : Nat) :
    sweepEach endSilent (g.silentStreams now) g = ({ g with
      streams := g.streams.filter fun _ s => !g.setup.settings.silent now s
      admissions := ⟨g.admissions.table.filter fun _ c => !g.silentOn now c.link⟩
      world := g.world.emitAll
        ((g.expiredStreams now).flatMap fun e => streamEnd g.now g.admissions.entries e.1) },
      (g.expiredStreams now).length) := by
  rw [← Table.without_filter g.streams]
  exact sweepEach_endSilent (g.streams.holds_filter _)

theorem sweepEach_slowNegotiations (g : Gateway) (now : Nat) :
    sweepEach closeAttempt (g.slowNegotiations now) g =
      (g.act (·.emitAll ((g.overdueNegotiations now).map fun e => .close e.2.link)),
        (g.overdueNegotiations now).length) :=
  sweepEach_closeAttempt (g.negotiations.holds_filter _)

/-- What the passes over what was not authorized in time leave in turn. -/
def withoutOverdue (g : Gateway) (now : Nat) : Gateway :=
  { g.withoutIdle now with
    world := (g.withoutIdle now).world.emitAll ((g.expiredChallenges now).map (fun e => .close e.2.link) ++
      (g.expiredStreams now).flatMap (fun e => streamEnd g.now (g.keptAdmissions now) e.1) ++
      (g.overdueNegotiations now).map fun e => .close e.2.link)
    admissions := ⟨(g.withoutIdle now).admissions.table.filter fun _ c => !g.silentOn now c.link⟩
    streams := (g.withoutIdle now).streams.filter fun _ s => !g.setup.settings.silent now s
    challenges := g.challenges.filter fun _ c => !g.stale now c }

theorem sweepUnauthorized_eq (g : Gateway) (now : Nat) :
    (g.withoutIdle now).sweepUnauthorized now = (g.withoutOverdue now,
      { authTimeouts := (g.expiredChallenges now).length + (g.expiredStreams now).length +
          (g.overdueNegotiations now).length }) := by
  rw [sweepUnauthorized, sweepEach_staleChallenges]
  dsimp only
  rw [sweepEach_silentStreams]
  dsimp only
  rw [sweepEach_slowNegotiations, withoutOverdue, ← silentOn_withoutIdle g, ← expiredStreams_withoutIdle g]
  simp only [act, World.emitAll_emitAll]
  rfl

/-- Each negotiation is kept under its own route. -/
def Filed (g : Gateway) : Prop := ∀ r n, g.negotiations.get? r = some n → n.route = r

/-- A sweep does what the entries that have expired call for, and nothing else. -/
theorem Filed.sweepAt_eq (filed : g.Filed) (now : Nat) : g.sweepAt now = (g.swept now, g.sweepCounts now) := by
  have routes : ∀ e ∈ (g.withoutOverdue now).negotiations.entries, e.2.route = e.1 :=
    fun e he => filed e.1 e.2 (Table.get?_eq_some.mpr he)
  have queues := sweepQueues_eq (g.swept now).negotiations (List.append_nil _).symm routes rfl
  rw [sweepAt, sweepIdle_eq]
  dsimp only
  rw [sweepUnauthorized_eq]
  dsimp only
  rw [Table.keys, queues]
  simp only [withoutOverdue, withoutIdle, World.emitAll_emitAll, Table.filter_filter]
  simp only [swept, sweepCalls, sweepCounts, SweepReport.add, List.append_assoc, Nat.zero_add, Nat.add_zero]
  rfl

theorem sweepAt_eq (ho : g.Orderly) (now : Nat) : g.sweepAt now = (g.swept now, g.sweepCounts now) :=
  Filed.sweepAt_eq ho.route now

/-- The stream of a link is closed with its idle admissions, and once, if they are all that it had. -/
theorem count_close_admissionEnds (now : Nat) (kept es : List (Claim × Carrier)) (link : LinkId) :
    (admissionEnds now kept es).count (.close link) =
      if es.any (·.2.link = link) && !kept.any (·.2.link = link) then 1 else 0 := by
  induction es with
  | nil => simp [admissionEnds]
  | cons e es ih =>
    rw [admissionEnds, List.count_append, List.count_cons, ih, List.any_cons, List.any_append]
    by_cases same : e.2.link = link
    · subst same
      cases es.any (·.2.link = e.2.link) <;> cases kept.any (·.2.link = e.2.link) <;> simp [closing]
    · have apart : (if es.any (·.2.link = e.2.link) || kept.any (·.2.link = e.2.link) then []
          else closing e.2.link).count (.close link) = 0 := by
        split <;> simp [closing, same]
      rw [apart, decide_eq_false same, Bool.false_or]
      simp

/-- In every state that a run reaches, and as of any instant, a sweep removes exactly what has expired by then, with
the calls that this means, and reports how much it was. -/
theorem sweepAt_removes_expired (setup : Setup) (world : World) (ops : List Operation) (now : Nat) :
    let g := (initial setup world).run ops
    g.sweepAt now = (g.swept now, g.sweepCounts now) ∧
      ∀ link, (admissionEnds g.now (g.keptAdmissions now) (g.expiredAdmissions now)).count (.close link) =
        if (g.expiredAdmissions now).any (·.2.link = link) && !(g.keptAdmissions now).any (·.2.link = link)
          then 1 else 0 :=
  ⟨sweepAt_eq (run_orderly setup world ops) now, count_close_admissionEnds _ _ _⟩

end Gateway

end Interdomain
