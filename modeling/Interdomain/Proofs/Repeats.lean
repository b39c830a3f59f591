import Interdomain.Proofs.Sweeps

/-! Sweeps one after the other. A sweep leaves nothing behind that another one as of the same instant would end,
with two exceptions: a negotiation that has taken too long has its link closed and stays until the close is
reported, and a challenge stays whose link was given up together with its admissions. What a second sweep does is
computed here from the state before the first. -/
namespace Interdomain

namespace Table

variable {κ ν : Type} {t : Table κ ν} {p q : κ → ν → Bool}

theorem filter_eq_self (h : ∀ e ∈ t.entries, p e.1 e.2 = true) : t.filter p = t :=
  eq_of_entries (List.filter_eq_self.mpr h)

/-- A weaker filter finds nothing more to remove. -/
theorem filter_filter_of_imp (h : ∀ k v, p k v = true → q k v = true) : (t.filter p).filter q = t.filter p :=
  filter_eq_self fun e he => h e.1 e.2 (List.mem_filter.mp he).2

end Table

namespace Settings

variable (s : Settings) (now : Nat) (n : Negotiation)

theorem pruned_pruned : s.pruned now (s.pruned now n) = s.pruned now n := by
  simp [pruned]

theorem expired_pruned : s.expired now (s.pruned now n) = [] := by
  simp [expired, pruned]

theorem abandoned_pruned : s.abandoned now (s.pruned now n) = s.abandoned now n := by
  rw [← isIdle_pruned, pruned_pruned, isIdle_pruned]

theorem queueEnd_pruned (h : s.abandoned now n = false) : s.queueEnd now (s.pruned now n) = [] := by
  simp [queueEnd, expired_pruned, abandoned_pruned, h]

end Settings

/-- Nothing happens but that time passes and timeouts are looked after. -/
def Operation.IsQuiet : Operation → Prop
  | .sweep _ | .wait _ => True
  | _ => False

namespace Gateway

variable {g : Gateway} {now : Nat}

/-- The challenge is overdue, and the admissions that kept it go with a silent stream. -/
def orphaned (g : Gateway) (now : Nat) (c : Challenge) : Bool :=
  g.setup.settings.overdue now c.issued && g.staysAdmitted now c.link && g.silentOn now c.link

def orphanedChallenges (g : Gateway) (now : Nat) : List (String × Challenge) :=
  g.challenges.entries.filter fun e => g.orphaned now e.2

/-- The negotiations that have taken too long, and are not given up. -/
def lingering (g : Gateway) (now : Nat) : List (Route × Negotiation) :=
  (g.overdueNegotiations now).filter fun e => !g.setup.settings.abandoned now e.2

/-- The links that a second sweep closes. -/
def closedAgain (g : Gateway) (now : Nat) : List LinkId :=
  (g.orphanedChallenges now).map (·.2.link) ++ (g.lingering now).map (·.2.link)

theorem expiredRoutes_swept (g : Gateway) (now : Nat) : (g.swept now).expiredRoutes now = [] := by
  simp [expiredRoutes, swept, Registry.entries, Table.filter]

theorem expiredAdmissions_swept (g : Gateway) (now : Nat) : (g.swept now).expiredAdmissions now = [] := by
  simp only [expiredAdmissions, swept, Registry.entries, Table.filter, List.filter_filter]
  refine List.filter_eq_nil_iff.mpr fun e _ => ?_
  cases g.setup.settings.idles now e.2 <;> simp

theorem expiredLegacies_swept (g : Gateway) (now : Nat) : (g.swept now).expiredLegacies now = [] := by
  simp only [expiredLegacies, swept, Table.filter, List.filter_filter]
  refine List.filter_eq_nil_iff.mpr fun e _ => ?_
  cases g.setup.settings.idlesAsLegacy now e.2 <;> simp

theorem expiredStreams_swept (g : Gateway) (now : Nat) : (g.swept now).expiredStreams now = [] := by
  simp only [expiredStreams, swept, Table.filter, List.filter_filter]
  refine List.filter_eq_nil_iff.mpr fun e _ => ?_
  cases g.setup.settings.silent now e.2 <;> simp

theorem silentOn_swept (g : Gateway) (now : Nat) (link : LinkId) : (g.swept now).silentOn now link = false := by
  have none := g.expiredStreams_swept now
  rw [expiredStreams] at none
  simp [silentOn, none]

/-- An admission stays on a link if one that is not idle is there, and the link's own stream is not silent. -/
theorem staysAdmitted_swept (g : Gateway) (now : Nat) (link : LinkId) :
    (g.swept now).staysAdmitted now link = (g.staysAdmitted now link && !g.silentOn now link) := by
  simp only [staysAdmitted, swept, Registry.entries, Table.filter, List.any_filter]
  rw [Bool.eq_iff_iff, Bool.and_eq_true, List.any_eq_true, List.any_eq_true]
  constructor
  · rintro ⟨e, he, h⟩
    simp only [Bool.and_eq_true, decide_eq_true_eq] at h
    obtain ⟨⟨idle, silent⟩, -, rfl⟩ := h
    exact ⟨⟨e, he, by simpa using idle⟩, silent⟩
  · rintro ⟨⟨e, he, h⟩, silent⟩
    simp only [Bool.and_eq_true, decide_eq_true_eq] at h
    obtain ⟨idle, rfl⟩ := h
    exact ⟨e, he, by simp [idle, silent]⟩

theorem stale_swept (g : Gateway) (now : Nat) (c : Challenge) :
    ((g.swept now).stale now c && !g.stale now c) = g.orphaned now c := by
  have same : (g.swept now).setup = g.setup := rfl
  rw [stale, stale, orphaned, staysAdmitted_swept, same]
  cases g.setup.settings.overdue now c.issued <;> cases g.staysAdmitted now c.link <;>
    cases g.silentOn now c.link <;> rfl

theorem expiredChallenges_swept (g : Gateway) (now : Nat) :
    (g.swept now).expiredChallenges now = g.orphanedChallenges now := by
  have same : (g.swept now).challenges.entries = g.challenges.entries.filter fun e => !g.stale now e.2 := rfl
  rw [expiredChallenges, same, List.filter_filter]
  simp only [stale_swept]
  rfl

theorem entries_negotiations_swept (g : Gateway) (now : Nat) : (g.swept now).negotiations.entries =
    (g.negotiations.entries.filter fun e => !g.setup.settings.abandoned now e.2).map
      fun e => (e.1, g.setup.settings.pruned now e.2) := rfl

theorem overdueNegotiations_swept (g : Gateway) (now : Nat) : (g.swept now).overdueNegotiations now =
    (g.lingering now).map fun e => (e.1, g.setup.settings.pruned now e.2) := by
  rw [overdueNegotiations, entries_negotiations_swept, List.filter_map, lingering, overdueNegotiations,
    List.filter_filter, List.filter_filter]
  congr 1
  refine List.filter_congr fun e _ => ?_
  exact Bool.and_comm _ _

theorem abandonedNegotiations_swept (g : Gateway) (now : Nat) : (g.swept now).abandonedNegotiations now = [] := by
  rw [abandonedNegotiations, entries_negotiations_swept, List.filter_eq_nil_iff]
  intro e he
  obtain ⟨x, hx, rfl⟩ := List.mem_map.mp he
  have kept := (List.mem_filter.mp hx).2
  simpa [swept, Settings.abandoned_pruned] using kept

theorem flatMap_swept {α : Type} {f : Negotiation → List α}
    (h : ∀ n, g.setup.settings.abandoned now n = false → f (g.setup.settings.pruned now n) = []) :
    (g.swept now).negotiations.entries.flatMap (fun e => f e.2) = [] := by
  rw [entries_negotiations_swept, List.flatMap_eq_nil_iff]
  intro e he
  obtain ⟨x, hx, rfl⟩ := List.mem_map.mp he
  exact h x.2 (by simpa using (List.mem_filter.mp hx).2)

/-- The calls of a second sweep close links, and that is all. -/
theorem sweepCalls_swept (g : Gateway) (now : Nat) :
    (g.swept now).sweepCalls now = (g.closedAgain now).map .close := by
  have queues : (g.swept now).negotiations.entries.flatMap
      (fun e => (g.swept now).setup.settings.queueEnd now e.2) = [] :=
    flatMap_swept fun n hn => g.setup.settings.queueEnd_pruned now n hn
  rw [sweepCalls, expiredRoutes_swept, expiredAdmissions_swept, expiredLegacies_swept, expiredChallenges_swept,
    expiredStreams_swept, overdueNegotiations_swept, queues]
  simp [admissionEnds, closedAgain, Settings.pruned, Function.comp_def]

theorem sweepCounts_swept (g : Gateway) (now : Nat) :
    (g.swept now).sweepCounts now = { authTimeouts := (g.closedAgain now).length } := by
  have queues : (g.swept now).negotiations.entries.flatMap
      (fun e => (g.swept now).setup.settings.expired now e.2) = [] :=
    flatMap_swept fun n _ => g.setup.settings.expired_pruned now n
  rw [sweepCounts, expiredRoutes_swept, expiredAdmissions_swept, expiredLegacies_swept, expiredChallenges_swept,
    expiredStreams_swept, overdueNegotiations_swept, abandonedNegotiations_swept, queues]
  simp [closedAgain]

theorem filter_stale_swept (g : Gateway) (now : Nat) :
    ((g.swept now).challenges.filter fun _ c => !(g.swept now).stale now c) =
      (g.swept now).challenges.filter fun _ c => !g.orphaned now c := by
  apply Table.eq_of_entries
  refine List.filter_congr fun e he => ?_
  have kept : (!g.stale now e.2) = true := (List.mem_filter.mp he).2
  simp only [← stale_swept, kept, Bool.and_true]

/-- A second sweep takes away the challenges that the first has left without a stream, and nothing else. -/
theorem swept_swept (g : Gateway) (now : Nat) : (g.swept now).swept now = { g.swept now with
    world := (g.swept now).world.emitAll ((g.closedAgain now).map .close)
    challenges := (g.swept now).challenges.filter fun _ c => !g.orphaned now c } := by
  have routes : ((g.swept now).routes.table.filter fun _ c => !g.setup.settings.idles now c) =
      (g.swept now).routes.table := Table.filter_filter_of_imp fun _ _ h => h
  have streams : ((g.swept now).streams.filter fun _ s =>
      !g.setup.settings.idlesAsLegacy now s && !g.setup.settings.silent now s) = (g.swept now).streams :=
    Table.filter_filter_of_imp fun _ _ h => h
  have admissions : ((g.swept now).admissions.table.filter fun _ c =>
      !g.setup.settings.idles now c && !(g.swept now).silentOn now c.link) = (g.swept now).admissions.table := by
    refine Table.filter_eq_self fun e he => ?_
    rw [silentOn_swept, Bool.not_false, Bool.and_true]
    exact (Bool.and_eq_true_iff.mp (List.mem_filter.mp he).2).1
  have negotiations : (((g.swept now).negotiations.filter fun _ n => !g.setup.settings.abandoned now n).map
      fun _ n => g.setup.settings.pruned now n) = (g.swept now).negotiations := by
    apply Table.eq_of_entries
    simp [Table.map, Table.filter, swept, List.filter_map, Function.comp_def, Settings.abandoned_pruned,
      Settings.pruned_pruned]
  have same : (g.swept now).setup = g.setup := rfl
  rw [swept, sweepCalls_swept, expiredRoutes_swept, abandonedNegotiations_swept, filter_stale_swept, same, routes,
    streams, admissions, negotiations]
  simp [same]

theorem orderly_swept (ho : g.Orderly) (now : Nat) : (g.swept now).Orderly := by
  have kept := (g.sweepAt_conserves now).orderly ho
  rwa [sweepAt_eq ho] at kept

theorem sweepAt_swept (ho : g.Orderly) (now : Nat) : (g.swept now).sweepAt now = ({ g.swept now with
    world := (g.swept now).world.emitAll ((g.closedAgain now).map .close)
    challenges := (g.swept now).challenges.filter fun _ c => !g.orphaned now c },
    { authTimeouts := (g.closedAgain now).length }) := by
  rw [sweepAt_eq (orderly_swept ho now), swept_swept, sweepCounts_swept]

/-- A second sweep does nothing exactly if there is no link for it to close. -/
theorem sweepAt_swept_eq_self (ho : g.Orderly) (now : Nat) :
    (g.swept now).sweepAt now = (g.swept now, {}) ↔ g.closedAgain now = [] := by
  rw [sweepAt_swept ho]
  constructor
  · intro h
    have count := congrArg (·.2.authTimeouts) h
    exact List.length_eq_zero_iff.mp count
  · intro h
    have orphaned : ∀ e ∈ (g.swept now).challenges.entries, (!g.orphaned now e.2) = true := by
      intro e he
      have none := List.filter_eq_nil_iff.mp (List.map_eq_nil_iff.mp (List.append_eq_nil_iff.mp h).1)
      simpa using none e (List.mem_filter.mp he).1
    rw [h, Table.filter_eq_self orphaned]
    simp

/-- The links of peers that a sweep gives up, each with the close of its link. -/
def peerTimeouts (g : Gateway) (now : Nat) : List LinkId :=
  (g.expiredChallenges now).map (·.2.link) ++ (g.expiredStreams now).map (·.1)

/-- The routes whose negotiations a sweep finds to have taken too long, each with the close of its link. -/
def routeTimeouts (g : Gateway) (now : Nat) : List Route := (g.overdueNegotiations now).map (·.1)

/-- The stream of a peer on the link may still time out. -/
def Unauthorized (g : Gateway) (t : LinkId) : Prop :=
  (∃ x c, g.challenges.get? x = some c ∧ c.link = t) ∨
    ∃ stream, g.streams.get? t = some stream ∧ stream.phase = .awaitingHeader

end Gateway

namespace Moment

variable (m : Moment)

/-- The instant as of which timeouts are looked after, if they are. -/
def sweeps? : Option Nat :=
  match m.operation with
  | .sweep ahead => some (m.gateway.now + ahead)
  | _ => none

def peerTimeouts : List LinkId := (m.sweeps?.map m.gateway.peerTimeouts).getD []

def routeTimeouts : List Route := (m.sweeps?.map m.gateway.routeTimeouts).getD []

/-- What a sweep closes because it has taken too long and gives up. -/
def Settles : Prop := ∀ now ∈ m.sweeps?, m.gateway.lingering now = []

end Moment

namespace Gateway

variable {g : Gateway} {now : Nat}

/-- What each moment takes away from what there was, and nothing brings back, is taken away once. -/
theorem nodup_flatMap_history {α : Type} {taken : Moment → List α} {A : Gateway → α → Prop}
    {I : Gateway → Prop} {P : Moment → Prop}
    (step : ∀ m, I m.gateway → P m → I m.next ∧ (taken m).Nodup ∧ (∀ a ∈ taken m, A m.gateway a) ∧
      ∀ a, A m.next a → A m.gateway a ∧ a ∉ taken m)
    {ops : List Operation} (start : I g) (each : ∀ m ∈ g.history ops, P m) :
    ((g.history ops).flatMap taken).Nodup ∧ ∀ a ∈ (g.history ops).flatMap taken, A g a := by
  induction ops generalizing g with
  | nil => simp [history]
  | cons op ops ih =>
    obtain ⟨next, nodup, before, after⟩ := step ⟨g, op⟩ start (each _ (.head _))
    obtain ⟨rest, later⟩ := ih next fun m hm => each m (.tail _ hm)
    rw [history, List.flatMap_cons]
    refine ⟨List.nodup_append.mpr ⟨nodup, rest, fun a ha b hb hab => ?_⟩, fun a ha => ?_⟩
    · subst hab
      exact (after a (later a hb)).2 ha
    · rcases List.mem_append.mp ha with ha | ha
      · exact before a ha
      · exact (after a (later a ha)).1

namespace Housed

variable (hg : Housed g)
include hg

/-- A link has one pending challenge at most. -/
theorem challenge_unique {x y : String} {c d : Challenge} (hc : g.challenges.get? x = some c)
    (hd : g.challenges.get? y = some d) (link : c.link = d.link) : x = y := by
  obtain ⟨s, hs, rfl⟩ := hg.pending x c hc
  obtain ⟨s', hs', rfl⟩ := hg.pending y d hd
  rw [link, hs'] at hs
  rw [Option.some.inj hs]

/-- A stream that awaits its header has no pending challenge. -/
theorem not_awaiting {x : String} {c : Challenge} (hc : g.challenges.get? x = some c) {stream : InboundStream}
    (hs : g.streams.get? c.link = some stream) : stream.phase ≠ .awaitingHeader := by
  intro phase
  obtain ⟨s, session, _⟩ := hg.pending x c hc
  rw [sessionOn, hs, Option.bind_some, phase] at session
  cases session

end Housed

theorem mem_expiredChallenges {e : String × Challenge} : e ∈ g.expiredChallenges now ↔
    g.challenges.get? e.1 = some e.2 ∧ g.stale now e.2 = true := by
  rw [expiredChallenges, List.mem_filter, Table.get?_eq_some]

theorem mem_expiredStreams {e : LinkId × InboundStream} : e ∈ g.expiredStreams now ↔
    g.streams.get? e.1 = some e.2 ∧ g.setup.settings.silent now e.2 = true := by
  rw [expiredStreams, List.mem_filter, Table.get?_eq_some]

theorem nodup_peerTimeouts (hg : Housed g) (now : Nat) : (g.peerTimeouts now).Nodup := by
  refine List.nodup_append.mpr ⟨?_, g.streams.keys_nodup.sublist (List.filter_sublist.map _), ?_⟩
  · have keys : (g.expiredChallenges now).Pairwise fun a b => a.1 ≠ b.1 := g.challenges.distinct.filter _
    refine List.pairwise_map.mpr (keys.imp_of_mem fun ha hb distinct link => distinct ?_)
    exact hg.challenge_unique (mem_expiredChallenges.mp ha).1 (mem_expiredChallenges.mp hb).1 link
  · rintro _ ha _ hb rfl
    obtain ⟨⟨x, c⟩, hc, rfl⟩ := List.mem_map.mp ha
    obtain ⟨⟨t, stream⟩, hs, rfl⟩ := List.mem_map.mp hb
    obtain ⟨found, silent⟩ := mem_expiredStreams.mp hs
    exact hg.not_awaiting (mem_expiredChallenges.mp hc).1 found (awaiting_of_silent silent)

theorem unauthorized_of_peerTimeouts {t : LinkId} (h : t ∈ g.peerTimeouts now) : g.Unauthorized t := by
  rcases List.mem_append.mp h with h | h
  · obtain ⟨⟨x, c⟩, hc, rfl⟩ := List.mem_map.mp h
    exact .inl ⟨x, c, (mem_expiredChallenges.mp hc).1, rfl⟩
  · obtain ⟨⟨t, stream⟩, hs, rfl⟩ := List.mem_map.mp h
    obtain ⟨found, silent⟩ := mem_expiredStreams.mp hs
    exact .inr ⟨stream, found, awaiting_of_silent silent⟩

/-- What may still time out after a sweep might have done so before, and has not done so in it. -/
theorem unauthorized_swept (hg : Housed g) {t : LinkId} (h : (g.swept now).Unauthorized t) :
    g.Unauthorized t ∧ t ∉ g.peerTimeouts now := by
  rcases h with ⟨x, c, hc, rfl⟩ | ⟨stream, hs, phase⟩
  · obtain ⟨hc, fresh⟩ := Option.filter_eq_some_iff.mp ((g.challenges.get?_filter _ x).symm.trans hc)
    refine ⟨.inl ⟨x, c, hc, rfl⟩, fun mem => ?_⟩
    rcases List.mem_append.mp mem with mem | mem
    · obtain ⟨⟨y, d⟩, hd, link⟩ := List.mem_map.mp mem
      obtain ⟨hd, stale⟩ := mem_expiredChallenges.mp hd
      obtain rfl := hg.challenge_unique hc hd link.symm
      rw [hc] at hd
      cases hd
      simp [stale] at fresh
    · obtain ⟨⟨t, stream⟩, hs, rfl⟩ := List.mem_map.mp mem
      obtain ⟨found, silent⟩ := mem_expiredStreams.mp hs
      exact hg.not_awaiting hc found (awaiting_of_silent silent)
  · obtain ⟨hs, kept⟩ := Option.filter_eq_some_iff.mp ((g.streams.get?_filter _ t).symm.trans hs)
    refine ⟨.inr ⟨stream, hs, phase⟩, fun mem => ?_⟩
    rcases List.mem_append.mp mem with mem | mem
    · obtain ⟨⟨x, c⟩, hc, rfl⟩ := List.mem_map.mp mem
      exact hg.not_awaiting (mem_expiredChallenges.mp hc).1 hs phase
    · obtain ⟨⟨t, other⟩, ho, rfl⟩ := List.mem_map.mp mem
      obtain ⟨found, silent⟩ := mem_expiredStreams.mp ho
      rw [hs] at found
      cases found
      simp [silent] at kept

theorem nodup_routeTimeouts (g : Gateway) (now : Nat) : (g.routeTimeouts now).Nodup :=
  g.negotiations.keys_nodup.sublist (List.filter_sublist.map _)

/-- A negotiation that a sweep leaves was there before, and has not taken too long if none that has is left. -/
theorem negotiation_swept (settles : g.lingering now = []) {r : Route}
    (h : ∃ n, (g.swept now).negotiations.get? r = some n) :
    (∃ n, g.negotiations.get? r = some n) ∧ r ∉ g.routeTimeouts now := by
  obtain ⟨n, h⟩ := h
  have entry := Table.get?_eq_some.mp h
  rw [entries_negotiations_swept] at entry
  obtain ⟨⟨r, n⟩, kept, same⟩ := List.mem_map.mp entry
  cases same
  obtain ⟨entry, kept⟩ := List.mem_filter.mp kept
  have found := Table.get?_eq_some.mpr entry
  refine ⟨⟨n, found⟩, fun mem => ?_⟩
  obtain ⟨⟨r', n'⟩, overdue, rfl⟩ := List.mem_map.mp mem
  have other := Table.get?_eq_some.mpr (List.mem_filter.mp overdue).1
  rw [found] at other
  cases other
  have none := List.filter_eq_nil_iff.mp settles _ overdue
  exact none kept

/-- While nothing happens but sweeps, a moment is a sweep, or leaves all tables as they are. -/
theorem step_quiet {op : Operation} (ho : g.Orderly) (quiet : op.IsQuiet) :
    (∃ now, (⟨g, op⟩ : Moment).sweeps? = some now ∧ g.step op = g.swept now) ∨
      (⟨g, op⟩ : Moment).sweeps? = none ∧ ∃ w, g.step op = { g with world := w } ∧ w.now ≥ g.now := by
  cases op with
  | sweep ahead =>
    refine .inl ⟨g.now + ahead, rfl, ?_⟩
    rw [step_sweep, sweepAt_eq ho]
  | wait duration => exact .inr ⟨rfl, _, rfl, Nat.le_add_right _ _⟩
  | _ => cases quiet

/-- Of the streams of peers none times out twice, as long as nothing happens but sweeps. -/
theorem nodup_peerTimeouts_history (ho : g.Orderly) (hg : Housed g) {ops : List Operation}
    (quiet : ∀ m ∈ g.history ops, m.operation.IsQuiet) :
    ((g.history ops).flatMap Moment.peerTimeouts).Nodup := by
  refine (nodup_flatMap_history (I := fun g => g.Orderly ∧ Housed g) (A := Unauthorized) ?_ ⟨ho, hg⟩ quiet).1
  rintro ⟨g, op⟩ ⟨ho, hg⟩ quiet
  rcases step_quiet ho quiet with ⟨now, sweeps, next⟩ | ⟨none, w, next, later⟩
  · have housed : Housed (g.swept now) := by
      have kept := sweepAt_housed hg now
      rwa [sweepAt_eq ho] at kept
    simp only [Moment.next, Moment.peerTimeouts, sweeps, next, Option.map_some, Option.getD_some]
    exact ⟨⟨orderly_swept ho now, housed⟩, nodup_peerTimeouts hg now, fun t => unauthorized_of_peerTimeouts,
      fun t => unauthorized_swept hg⟩
  · simp only [Moment.next, Moment.peerTimeouts, none, next, Option.map_none, Option.getD_none]
    exact ⟨⟨⟨ho.route, ho.verifies⟩, hg.stays (KeepsInbound.stays ⟨rfl, rfl, rfl, rfl⟩ later)⟩, List.nodup_nil,
      by simp, fun t ht => ⟨ht, by simp⟩⟩

/-- Nor does a negotiation, if none goes on that has taken too long. -/
theorem nodup_routeTimeouts_history (ho : g.Orderly) {ops : List Operation}
    (quiet : ∀ m ∈ g.history ops, m.operation.IsQuiet ∧ m.Settles) :
    ((g.history ops).flatMap Moment.routeTimeouts).Nodup := by
  refine (nodup_flatMap_history (I := Orderly) (A := fun g r => ∃ n, g.negotiations.get? r = some n) ?_
    ho quiet).1
  rintro ⟨g, op⟩ ho ⟨quiet, settles⟩
  rcases step_quiet ho quiet with ⟨now, sweeps, next⟩ | ⟨none, w, next, later⟩
  · simp only [Moment.next, Moment.routeTimeouts, sweeps, next, Option.map_some, Option.getD_some]
    refine ⟨orderly_swept ho now, g.nodup_routeTimeouts now, fun r hr => ?_,
      fun r => negotiation_swept (settles now sweeps)⟩
    obtain ⟨⟨r, n⟩, overdue, rfl⟩ := List.mem_map.mp hr
    exact ⟨n, Table.get?_eq_some.mpr (List.mem_filter.mp overdue).1⟩
  · simp only [Moment.next, Moment.routeTimeouts, none, next, Option.map_none, Option.getD_none]
    exact ⟨⟨ho.route, ho.verifies⟩, List.nodup_nil, by simp, fun r hr => ⟨hr, by simp⟩⟩

/-- A challenge that a sweep leaves without a stream has a link on which a header came twice. -/
theorem orphanedChallenges_eq_nil (hg : Housed g) (now : Nat) : g.orphanedChallenges now = [] := by
  refine List.filter_eq_nil_iff.mpr fun e he orphaned => ?_
  have silentOn : g.silentOn now e.2.link = true := (Bool.and_eq_true_iff.mp orphaned).2
  obtain ⟨⟨t, stream⟩, silent, link⟩ := List.mem_map.mp (of_decide_eq_true silentOn)
  obtain ⟨found, silent⟩ := mem_expiredStreams.mp silent
  refine hg.not_awaiting (Table.get?_eq_some.mpr he) ?_ (awaiting_of_silent silent)
  rwa [← link]

/-- A second sweep as of the same instant closes the links of the negotiations that have taken too long and go on, and
of the challenges that the first left without a stream, and does nothing else. -/
theorem sweep_after_sweep (setup : Setup) (world : World) (ops : List Operation) (now : Nat) :
    let g := (initial setup world).run ops
    let swept := (g.sweepAt now).1
    swept.sweepAt now = ({ swept with
        world := swept.world.emitAll ((g.closedAgain now).map .close)
        challenges := swept.challenges.filter fun _ c => !g.orphaned now c },
      { authTimeouts := (g.closedAgain now).length }) ∧
    (swept.sweepAt now = (swept, {}) ↔ g.closedAgain now = []) ∧
    (∀ later, (∀ m ∈ g.history later, m.operation.IsQuiet ∧ m.Settles) →
      ((g.history later).flatMap Moment.routeTimeouts).Nodup) ∧
    (HeadsOnce ((initial setup world).history ops) → g.orphanedChallenges now = [] ∧
      ∀ later, (∀ m ∈ g.history later, m.operation.IsQuiet) →
        ((g.history later).flatMap Moment.peerTimeouts).Nodup) := by
  intro g swept
  have ho : g.Orderly := run_orderly setup world ops
  have left : swept = g.swept now := congrArg Prod.fst (sweepAt_eq ho now)
  rw [left]
  refine ⟨sweepAt_swept ho now, sweepAt_swept_eq_self ho now, fun later quiet => ?_, fun headers => ?_⟩
  · exact nodup_routeTimeouts_history ho quiet
  · have hg := (run_lodged setup world ops headers).housed
    exact ⟨orphanedChallenges_eq_nil hg now, fun later quiet => nodup_peerTimeouts_history ho hg quiet⟩

/-- Of the two peers one has gone, and the stream of the other times out once. -/
theorem remaining_peer_times_out_once :
    let g := sample.run departure
    let later := [.sweep 900000, .wait 60000, .sweep 900000]
    2 ∈ (g.history later).flatMap Moment.peerTimeouts ∧ ((g.history later).flatMap Moment.peerTimeouts).Nodup := by
  intro g later
  have known := sweep_after_sweep sample.setup sample.world departure 900000
  have quiet : ∀ m ∈ g.history later, m.operation.IsQuiet := by
    simp [later, history, Operation.IsQuiet]
  exact ⟨by decide +kernel, (known.2.2.2 departure_headsOnce).2 later quiet⟩

/-- The peer has answered with a header, and is to answer the dialback request. -/
def unanswered : List Operation :=
  [.submit (sampleMessage "bob@b.example" "alice@a.example") (some "192.0.2.1"), .outbound 100 .connected,
    .outbound 100 (.header { sampleHeader "b.example" with version := none, id := some "one" })]

/-- The link of a negotiation that has taken too long is closed, and counted, by the second sweep as well. -/
theorem attempt_times_out_twice :
    let g := sample.run unanswered
    let swept := (g.sweepAt 900000).1
    (g.sweepAt 900000).2 = { authTimeouts := 1, bounced := 1 } ∧
      (swept.sweepAt 900000).2 = { authTimeouts := 1 } ∧
      (swept.sweepAt 900000).1.world.trace = swept.world.trace ++ [.close 100] ∧
      swept.sweepAt 900000 ≠ (swept, {}) := by
  intro g swept
  have again : (swept.sweepAt 900000).2 = { authTimeouts := 1 } := by decide +kernel
  refine ⟨by decide +kernel, again, by decide +kernel, fun same => ?_⟩
  rw [same] at again
  cases again

end Gateway

end Interdomain
