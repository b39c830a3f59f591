import Interdomain.Proofs.Sweeps
import Mathlib.Data.List.Dedup
import Mathlib.Data.List.Perm.Basic

/-! The order in which tables list their entries. A gateway that holds the same as another one in tables with
another order cannot be told from it by what a sweep does: what has expired is the same up to order, a stream is
closed with the last of its admissions whichever that is, and each negotiation returns its stanzas in the order of
its own queue. -/
namespace Interdomain

open Protocol (Dialback)

section Lists

variable {α β : Type}

/-- Blocks that may change places do not show the order of what they come from. -/
theorem flatMap_eq_of_perm {f : α → List β} (commutes : ∀ a b, f a ++ f b = f b ++ f a) {l l' : List α}
    (h : l.Perm l') : l.flatMap f = l'.flatMap f := by
  induction h with
  | nil => rfl
  | cons a _ ih => rw [List.flatMap_cons, List.flatMap_cons, ih]
  | swap a b l =>
    simp only [List.flatMap_cons, ← List.append_assoc]
    rw [commutes]
  | trans _ _ ih₁ ih₂ => exact ih₁.trans ih₂

/-- A block that is there or not has no order. -/
theorem flatMap_ite_eq_of_perm (block : List β) (p : α → Prop) [DecidablePred p] {l l' : List α} (h : l.Perm l') :
    (l.flatMap fun a => if p a then block else []) = l'.flatMap fun a => if p a then block else [] := by
  apply flatMap_eq_of_perm _ h
  intro a b
  by_cases ha : p a <;> by_cases hb : p b <;> simp [ha, hb]

end Lists

namespace Table

variable {κ ν : Type}

/-- The table with its entries in the opposite order. -/
def reversed (t : Table κ ν) : Table κ ν :=
  ⟨t.entries.reverse, List.pairwise_reverse.mpr (t.distinct.imp Ne.symm)⟩

theorem sameEntries_reversed (t : Table κ ν) : t.SameEntries t.reversed := t.entries.reverse_perm.symm

namespace SameEntries

variable {s t : Table κ ν}

theorem entries_filter (h : s.SameEntries t) (p : κ × ν → Bool) :
    (s.entries.filter p).Perm (t.entries.filter p) := List.Perm.filter p h

theorem filter (h : s.SameEntries t) (p : κ → ν → Bool) : (s.filter p).SameEntries (t.filter p) :=
  h.entries_filter fun e => p e.1 e.2

theorem map (h : s.SameEntries t) (f : κ → ν → ν) : (s.map f).SameEntries (t.map f) :=
  List.Perm.map (fun e : κ × ν => (e.1, f e.1 e.2)) h

variable [DecidableEq κ]

/-- No look-up tells the order of the entries. -/
theorem get?_eq (h : s.SameEntries t) (k : κ) : s.get? k = t.get? k := by
  apply Option.ext
  intro v
  rw [get?_eq_some, get?_eq_some]
  exact h.mem_iff

theorem without (h : s.SameEntries t) {ks ls : List κ} (same : ks.Perm ls) :
    (s.without ks).SameEntries (t.without ls) := by
  have names : (fun (k : κ) (_ : ν) => decide (k ∉ ks)) = fun k _ => decide (k ∉ ls) := by
    funext k _
    rw [decide_eq_decide, same.mem_iff]
  rw [Table.without, names]
  exact h.filter _

end SameEntries

end Table

/-- A stanza returns to its sender. -/
def Effect.isBounce : Effect → Bool
  | .bounce .. => true
  | _ => false

namespace Gateway

open World (closing)

variable {g h : Gateway} {now : Nat} {t : LinkId}

/-- The gateways hold the same, whatever the order in which their tables list it and whatever calls they made. -/
structure Alike (g h : Gateway) : Prop where
  setup : h.setup = g.setup
  world : h.world = { g.world with trace := h.world.trace }
  negotiations : g.negotiations.SameEntries h.negotiations
  routes : g.routes.table.SameEntries h.routes.table
  addresses : g.addresses.SameEntries h.addresses
  attempts : g.attempts.SameEntries h.attempts
  carried : g.carried.SameEntries h.carried
  challenges : g.challenges.SameEntries h.challenges
  admissions : g.admissions.table.SameEntries h.admissions.table
  streams : g.streams.SameEntries h.streams

/-- The gateway with each of its tables in the opposite order. -/
def reversed (g : Gateway) : Gateway where
  setup := g.setup
  world := g.world
  negotiations := g.negotiations.reversed
  routes := ⟨g.routes.table.reversed⟩
  addresses := g.addresses.reversed
  attempts := g.attempts.reversed
  carried := g.carried.reversed
  challenges := g.challenges.reversed
  admissions := ⟨g.admissions.table.reversed⟩
  streams := g.streams.reversed

theorem alike_reversed (g : Gateway) : g.Alike g.reversed :=
  ⟨rfl, rfl, g.negotiations.sameEntries_reversed, g.routes.table.sameEntries_reversed,
    g.addresses.sameEntries_reversed, g.attempts.sameEntries_reversed, g.carried.sameEntries_reversed,
    g.challenges.sameEntries_reversed, g.admissions.table.sameEntries_reversed, g.streams.sameEntries_reversed⟩

/-- In every state that a run reaches, each negotiation is kept under its own route. -/
theorem run_filed (setup : Setup) (world : World) (ops : List Operation) :
    ((initial setup world).run ops).Filed := (run_orderly setup world ops).route

namespace Alike

variable (same : g.Alike h)
include same

theorem now_eq : h.now = g.now := by
  rw [Gateway.now, same.world]
  rfl

theorem filed (filed : g.Filed) : h.Filed := by
  intro r n hn
  apply filed r n
  rw [same.negotiations.get?_eq]
  exact hn

theorem expiredRoutes (now : Nat) : (g.expiredRoutes now).Perm (h.expiredRoutes now) := by
  rw [Gateway.expiredRoutes, Gateway.expiredRoutes, same.setup]
  exact same.routes.entries_filter _

theorem expiredAdmissions (now : Nat) : (g.expiredAdmissions now).Perm (h.expiredAdmissions now) := by
  rw [Gateway.expiredAdmissions, Gateway.expiredAdmissions, same.setup]
  exact same.admissions.entries_filter _

theorem keptAdmissions (now : Nat) : (g.keptAdmissions now).Perm (h.keptAdmissions now) := by
  rw [Gateway.keptAdmissions, Gateway.keptAdmissions, same.setup]
  exact same.admissions.entries_filter _

theorem expiredLegacies (now : Nat) : (g.expiredLegacies now).Perm (h.expiredLegacies now) := by
  rw [Gateway.expiredLegacies, Gateway.expiredLegacies, same.setup]
  exact same.streams.entries_filter _

theorem expiredStreams (now : Nat) : (g.expiredStreams now).Perm (h.expiredStreams now) := by
  rw [Gateway.expiredStreams, Gateway.expiredStreams, same.setup]
  exact same.streams.entries_filter _

theorem overdueNegotiations (now : Nat) : (g.overdueNegotiations now).Perm (h.overdueNegotiations now) := by
  rw [Gateway.overdueNegotiations, Gateway.overdueNegotiations, same.setup]
  exact same.negotiations.entries_filter _

theorem abandonedNegotiations (now : Nat) :
    (g.abandonedNegotiations now).Perm (h.abandonedNegotiations now) := by
  rw [Gateway.abandonedNegotiations, Gateway.abandonedNegotiations, same.setup]
  exact same.negotiations.entries_filter _

theorem stale_eq (now : Nat) : h.stale now = g.stale now := by
  funext c
  rw [stale, stale, staysAdmitted, staysAdmitted, same.setup]
  congr 2
  exact same.admissions.symm.any_eq

theorem silentOn_eq (now : Nat) : h.silentOn now = g.silentOn now := by
  funext link
  rw [silentOn, silentOn, decide_eq_decide]
  exact ((same.expiredStreams now).map (·.1)).symm.mem_iff

theorem expiredChallenges (now : Nat) : (g.expiredChallenges now).Perm (h.expiredChallenges now) := by
  rw [Gateway.expiredChallenges, Gateway.expiredChallenges, same.stale_eq]
  exact same.challenges.entries_filter _

end Alike

/-- The links of some admissions that are left without any, each once. -/
def linksLeft (kept es : List (Claim × Carrier)) : List LinkId :=
  (es.map (·.2.link)).dedup.filter fun link => !kept.any (·.2.link = link)

/-- Each admission that ends has its record, and each link that is left without any has its stream closed. -/
theorem admissionEnds_perm (now : Nat) (kept es : List (Claim × Carrier)) : (admissionEnds now kept es).Perm
    ((es.map fun e => .account (admissionRecord now e)) ++ (linksLeft kept es).flatMap closing) := by
  induction es with
  | nil => exact .refl _
  | cons e es ih =>
    have closes : linksLeft kept (e :: es) =
        (if (es ++ kept).any (·.2.link = e.2.link) then [] else [e.2.link]) ++ linksLeft kept es := by
      have later : e.2.link ∈ es.map (·.2.link) ↔ es.any (·.2.link = e.2.link) = true := by simp
      rw [linksLeft, List.map_cons, List.dedup_cons, List.any_append]
      by_cases more : es.any (·.2.link = e.2.link) = true
      · rw [if_pos (later.mpr more), more]
        rfl
      · rw [if_neg (mt later.mp more), List.filter_cons]
        cases kept.any (·.2.link = e.2.link) <;> simp [more, linksLeft]
    rw [admissionEnds, closes, List.map_cons, List.cons_append, List.cons_append]
    apply List.Perm.cons
    refine ((ih.append_left _).trans ?_)
    split
    · exact .refl _
    · exact (List.perm_append_comm_assoc _ _ _).trans (by simp)

theorem admissionEnds_perm_of_perm {kept kept' es es' : List (Claim × Carrier)} (now : Nat) (hk : kept.Perm kept')
    (he : es.Perm es') : (admissionEnds now kept es).Perm (admissionEnds now kept' es') := by
  have links : (linksLeft kept es).Perm (linksLeft kept' es') := by
    have kept_eq : (fun link => !kept.any (·.2.link = link)) = fun link => !kept'.any (·.2.link = link) := by
      funext link
      rw [hk.any_eq]
    rw [linksLeft, kept_eq]
    exact ((he.map _).dedup).filter _
  refine (admissionEnds_perm now kept es).trans (.trans ?_ (admissionEnds_perm now kept' es').symm)
  exact (he.map _).append (links.flatMap_right _)

theorem streamEnd_perm {kept kept' : List (Claim × Carrier)} (now : Nat) (hk : kept.Perm kept') (link : LinkId) :
    (streamEnd now kept link).Perm (streamEnd now kept' link) :=
  ((hk.filter _).map _).append_right _

/-- What the end of a route calls on the link. -/
theorem filter_routeEnd (now : Nat) (t : LinkId) (e : Route × Carrier) :
    (routeEnd now e).filter (·.link? = some t) = if e.2.link = t then closing t else [] := by
  by_cases same : e.2.link = t <;> simp [routeEnd, farewell, closing, Effect.link?, same]

/-- The stream of the link is closed once, with the last of its admissions, if none is kept. -/
theorem filter_admissionEnds (now : Nat) (kept es : List (Claim × Carrier)) (t : LinkId) :
    (admissionEnds now kept es).filter (·.link? = some t) =
      if es.any (·.2.link = t) && !kept.any (·.2.link = t) then closing t else [] := by
  induction es with
  | nil => rfl
  | cons e es ih =>
    rw [admissionEnds, List.cons_append, List.filter_cons_of_neg (by simp [Effect.link?]), List.filter_append, ih,
      List.any_cons, List.any_append]
    by_cases same : e.2.link = t
    · subst same
      cases es.any (·.2.link = e.2.link) <;> cases kept.any (·.2.link = e.2.link) <;>
        simp [closing, Effect.link?]
    · have apart : (if es.any (·.2.link = e.2.link) || kept.any (·.2.link = e.2.link) then []
          else closing e.2.link).filter (·.link? = some t) = [] := by
        split <;> simp [closing, Effect.link?, same]
      rw [apart, decide_eq_false same, Bool.false_or, List.nil_append]

theorem filter_legacyEnd {s : Settings} {e : LinkId × InboundStream} (legacy : s.idlesAsLegacy now e.2 = true)
    (recorded : Nat) (t : LinkId) :
    (legacyEnd recorded e).filter (·.link? = some t) = if e.1 = t then closing t else [] := by
  obtain ⟨peer, carrier, phase⟩ : ∃ peer carrier, e.2.phase = .legacy peer carrier := by
    unfold Settings.idlesAsLegacy at legacy
    split at legacy
    · exact ⟨_, _, ‹_›⟩
    · cases legacy
  by_cases same : e.1 = t <;> simp [legacyEnd, phase, closing, Effect.link?, same]

theorem filter_streamEnd (now : Nat) (kept : List (Claim × Carrier)) (link t : LinkId) :
    (streamEnd now kept link).filter (·.link? = some t) = if link = t then [.close t] else [] := by
  have records : (((kept.filter (·.2.link = link)).map fun e => Effect.account (admissionRecord now e)).filter
      (·.link? = some t)) = [] := by
    simp [List.filter_map, Function.comp_def, Effect.link?]
  rw [streamEnd, List.filter_append, records, List.nil_append]
  by_cases same : link = t <;> simp [Effect.link?, same]

theorem filter_queueEnd (s : Settings) (now : Nat) (t : LinkId) (n : Negotiation) :
    (s.queueEnd now n).filter (·.link? = some t) =
      if s.abandoned now n && n.link = t then [.close t] else [] := by
  have bounces : (((s.expired now n).map (Effect.bounce · n.timeoutReason)).filter (·.link? = some t)) = [] := by
    simp [List.filter_map, Function.comp_def, Effect.link?]
  rw [Settings.queueEnd, List.filter_append, bounces, List.nil_append]
  by_cases same : n.link = t <;> cases s.abandoned now n <;> simp [Effect.link?, same]

/-- What a sweep calls on the link. -/
theorem filter_sweepCalls (g : Gateway) (now : Nat) (t : LinkId) : (g.sweepCalls now).filter (·.link? = some t) =
    ((g.expiredRoutes now).flatMap fun e => if e.2.link = t then closing t else []) ++
    (if (g.expiredAdmissions now).any (·.2.link = t) && !(g.keptAdmissions now).any (·.2.link = t)
      then closing t else []) ++
    ((g.expiredLegacies now).flatMap fun e => if e.1 = t then closing t else []) ++
    ((g.expiredChallenges now).flatMap fun e => if e.2.link = t then [.close t] else []) ++
    ((g.expiredStreams now).flatMap fun e => if e.1 = t then [.close t] else []) ++
    ((g.overdueNegotiations now).flatMap fun e => if e.2.link = t then [.close t] else []) ++
    g.negotiations.entries.flatMap fun e =>
      if g.setup.settings.abandoned now e.2 && e.2.link = t then [.close t] else [] := by
  have legacies : ((g.expiredLegacies now).flatMap fun e => (legacyEnd g.now e).filter (·.link? = some t)) =
      (g.expiredLegacies now).flatMap fun e => if e.1 = t then closing t else [] := by
    apply List.flatMap_congr
    exact fun e he => filter_legacyEnd (List.mem_filter.mp he).2 g.now t
  have closes {α : Type} (link : α → LinkId) (es : List α) :
      (es.map fun e => Effect.close (link e)).filter (·.link? = some t) =
        es.flatMap fun e => if link e = t then [.close t] else [] := by
    induction es with
    | nil => rfl
    | cons e es ih => by_cases same : link e = t <;> simp_all [Effect.link?]
  simp only [sweepCalls, List.filter_append, List.filter_flatMap, filter_routeEnd, filter_admissionEnds, legacies,
    filter_streamEnd, filter_queueEnd, closes]

/-- What has waited too long on the negotiation of a route returns, in the order in which it came. -/
def bouncesOn (g : Gateway) (now : Nat) (r : Route) : List Effect :=
  match g.negotiations.get? r with
  | none => []
  | some n => (g.setup.settings.expired now n).map (.bounce · n.timeoutReason)

/-- What a sweep returns, one negotiation after the other. -/
theorem bounces_sweepCalls (g : Gateway) (now : Nat) :
    (g.sweepCalls now).filter Effect.isBounce = g.negotiations.keys.flatMap (g.bouncesOn now) := by
  have admissions (kept es : List (Claim × Carrier)) : (admissionEnds g.now kept es).filter Effect.isBounce = [] := by
    apply List.filter_eq_nil_iff.mpr
    intro c hc
    rcases List.mem_append.mp ((admissionEnds_perm g.now kept es).mem_iff.mp hc) with hc | hc
    · obtain ⟨e, _, rfl⟩ := List.mem_map.mp hc
      simp [Effect.isBounce]
    · obtain ⟨link, _, hc⟩ := List.mem_flatMap.mp hc
      rcases List.mem_pair.mp hc with rfl | rfl <;> simp [Effect.isBounce]
  have legacies (e : LinkId × InboundStream) : (legacyEnd g.now e).filter Effect.isBounce = [] := by
    unfold legacyEnd
    split <;> simp [closing, Effect.isBounce]
  have queues : (g.negotiations.entries.flatMap fun e =>
      (g.setup.settings.queueEnd now e.2).filter Effect.isBounce) =
        g.negotiations.entries.flatMap fun e => g.bouncesOn now e.1 := by
    apply List.flatMap_congr
    intro e he
    have found : g.negotiations.get? e.1 = some e.2 := Table.get?_eq_some.mpr he
    rw [bouncesOn, found, Settings.queueEnd, List.filter_append, List.filter_map]
    split <;> simp [Function.comp_def, Effect.isBounce]
  have none {α : Type} (es : List α) : (es.flatMap fun _ => ([] : List Effect)) = [] :=
    List.flatMap_eq_nil_iff.mpr fun _ _ => rfl
  rw [Table.keys, List.flatMap_map, ← queues]
  simp only [sweepCalls, List.filter_append, List.filter_flatMap, admissions, legacies]
  simp [routeEnd, farewell, closing, streamEnd, List.filter_map, Function.comp_def, Effect.isBounce, none]

namespace Alike

variable (same : g.Alike h)
include same

theorem bouncesOn (now : Nat) : h.bouncesOn now = g.bouncesOn now := by
  funext r
  rw [Gateway.bouncesOn, Gateway.bouncesOn, same.negotiations.get?_eq, same.setup]

theorem sweepCounts (now : Nat) : h.sweepCounts now = g.sweepCounts now := by
  have bounced := (same.negotiations.symm.flatMap_right fun e => g.setup.settings.expired now e.2).length_eq
  simp only [Gateway.sweepCounts, (same.expiredRoutes now).length_eq, (same.expiredAdmissions now).length_eq,
    (same.expiredLegacies now).length_eq, (same.expiredChallenges now).length_eq,
    (same.expiredStreams now).length_eq, (same.overdueNegotiations now).length_eq,
    (same.abandonedNegotiations now).length_eq, same.setup, bounced]

/-- A sweep makes the same calls, in some order. -/
theorem sweepCalls_perm (now : Nat) : (g.sweepCalls now).Perm (h.sweepCalls now) := by
  have streams : ((g.expiredStreams now).flatMap fun e => streamEnd g.now (g.keptAdmissions now) e.1).Perm
      ((h.expiredStreams now).flatMap fun e => streamEnd g.now (h.keptAdmissions now) e.1) :=
    .flatMap (same.expiredStreams now) fun e _ => streamEnd_perm g.now (same.keptAdmissions now) e.1
  have admissions := admissionEnds_perm_of_perm g.now (same.keptAdmissions now) (same.expiredAdmissions now)
  rw [Gateway.sweepCalls, Gateway.sweepCalls, same.now_eq, same.setup]
  apply List.Perm.append
  · apply List.Perm.append
    · apply List.Perm.append
      · apply List.Perm.append
        · exact (((same.expiredRoutes now).flatMap_right _).append admissions).append
            ((same.expiredLegacies now).flatMap_right _)
        · exact (same.expiredChallenges now).map _
      · exact streams
    · exact (same.overdueNegotiations now).map _
  · exact same.negotiations.flatMap_right _

/-- On each link it makes them in the same order. -/
theorem sweepCalls_on (now : Nat) (t : LinkId) :
    (h.sweepCalls now).filter (·.link? = some t) = (g.sweepCalls now).filter (·.link? = some t) := by
  rw [filter_sweepCalls, filter_sweepCalls, same.setup,
    (same.expiredAdmissions now).any_eq, (same.keptAdmissions now).any_eq,
    flatMap_ite_eq_of_perm _ (·.2.link = t) (same.expiredRoutes now),
    flatMap_ite_eq_of_perm _ (·.1 = t) (same.expiredLegacies now),
    flatMap_ite_eq_of_perm _ (·.2.link = t) (same.expiredChallenges now),
    flatMap_ite_eq_of_perm _ (·.1 = t) (same.expiredStreams now),
    flatMap_ite_eq_of_perm _ (·.2.link = t) (same.overdueNegotiations now),
    flatMap_ite_eq_of_perm _ (fun e => (g.setup.settings.abandoned now e.2 && e.2.link = t) = true)
      same.negotiations]

/-- What a sweep leaves is the same. -/
theorem swept (now : Nat) : (g.swept now).Alike (h.swept now) := by
  constructor
  · exact same.setup
  · simp only [Gateway.swept, World.emitAll]
    rw [same.world]
  · simp only [Gateway.swept]
    rw [same.setup]
    exact (same.negotiations.filter _).map _
  · simp only [Gateway.swept]
    rw [same.setup]
    exact same.routes.filter _
  · exact same.addresses
  · exact same.attempts.without ((same.abandonedNegotiations now).map _)
  · exact same.carried.without ((same.expiredRoutes now).map _)
  · simp only [Gateway.swept]
    rw [same.stale_eq]
    exact same.challenges.filter _
  · simp only [Gateway.swept]
    rw [same.setup, same.silentOn_eq]
    exact same.admissions.filter _
  · simp only [Gateway.swept]
    rw [same.setup]
    exact same.streams.filter _

end Alike

theorem since_swept (g : Gateway) (now : Nat) : (g.swept now).world.since g.world = g.sweepCalls now :=
  List.drop_left

/-- A sweep of two gateways that hold the same in tables with different orders reports and leaves the same, with the
same calls in the same order on each link and for each negotiation. -/
theorem sweep_ignores_order (setup : Setup) (world : World) (ops : List Operation) :
    ((initial setup world).run ops).Filed ∧
    ∀ g h : Gateway, g.Filed → g.Alike h → ∀ now,
      let ours := (g.sweepAt now).1.world.since g.world
      let theirs := (h.sweepAt now).1.world.since h.world
      (h.sweepAt now).2 = (g.sweepAt now).2 ∧
      (g.sweepAt now).1.Alike (h.sweepAt now).1 ∧
      ours.Perm theirs ∧
      (∀ t, theirs.filter (·.link? = some t) = ours.filter (·.link? = some t)) ∧
      ours.filter Effect.isBounce = g.negotiations.keys.flatMap (g.bouncesOn now) ∧
      theirs.filter Effect.isBounce = h.negotiations.keys.flatMap (g.bouncesOn now) := by
  refine ⟨run_filed setup world ops, ?_⟩
  intro g h filed same now
  rw [filed.sweepAt_eq, (same.filed filed).sweepAt_eq]
  dsimp only
  rw [since_swept, since_swept, same.sweepCounts]
  refine ⟨rfl, same.swept now, same.sweepCalls_perm now, same.sweepCalls_on now, bounces_sweepCalls g now, ?_⟩
  rw [bounces_sweepCalls, same.bouncesOn]

/-- A stream with two admitted pairs of one source, and three stanzas that wait for two domains. -/
def crowd : List Operation :=
  [.inbound 1 (.header (sampleHeader "b.example")),
    .inbound 1 (.element (Dialback.result "z.example" "b.example" "key")),
    .inbound 1 (.element (Dialback.verifyReply "z.example" "b.example" "c" true)),
    .inbound 1 (.element (Dialback.result "a.example" "b.example" "key")),
    .inbound 1 (.element (Dialback.verifyReply "a.example" "b.example" "c" true)),
    .submit (sampleMessage "bob@b.example" "alice@a.example") (some "192.0.2.1"),
    .submit (sampleMessage "carol@c.example" "alice@a.example") (some "192.0.2.1"),
    .submit (sampleMessage "bert@b.example" "alice@a.example") (some "192.0.2.1")]

/-- In the opposite order as well the sweep releases the two pairs and returns the three stanzas, in other places. -/
theorem crowd_swept_backwards :
    let g := sample.run crowd
    let ours := (g.sweepAt 1800000).1.world.since g.world
    let theirs := (g.reversed.sweepAt 1800000).1.world.since g.world
    (g.sweepAt 1800000).2 = { idleInbound := 2, authTimeouts := 3, bounced := 3, retired := 2 } ∧
      (g.reversed.sweepAt 1800000).2 = (g.sweepAt 1800000).2 ∧
      ours.Perm theirs ∧ ours ≠ theirs ∧
      theirs.filter (·.link? = some 1) = ours.filter (·.link? = some 1) := by
  intro g ours theirs
  obtain ⟨filed, known⟩ := sweep_ignores_order sample.setup sample.world crowd
  obtain ⟨report, -, calls, links, -⟩ := known g g.reversed filed g.alike_reversed 1800000
  exact ⟨by decide +kernel, report, calls, by decide +kernel, links 1⟩

end Gateway

end Interdomain
