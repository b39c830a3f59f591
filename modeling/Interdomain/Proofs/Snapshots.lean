import Interdomain.Gateway.Snapshot
import Interdomain.Proofs.Enumeration

/-! What status reports show of a gateway, and how much of it comes from the order in which the tables list their
entries. A list that is sorted by the whole of a key shows nothing of that order; the admissions are sorted by source
and challenge, which those of one stream from one source share. -/
namespace Interdomain

open Protocol (Dialback)

section Sorting

variable {α : Type} {le : α → α → Bool} {l l' : List α}

/-- The order does not tell the two apart. -/
def tied (le : α → α → Bool) (a b : α) : Bool := le a b && le b a

theorem tied_iff {a b : α} : tied le a b = true ↔ le a b = true ∧ le b a = true := Bool.and_eq_true_iff

variable (trans : ∀ a b c, le a b → le b c → le a c) (total : ∀ a b, le a b || le b a)
include total

theorem tied_self (a : α) : tied le a a = true := by
  have h := total a a
  simp only [Bool.or_self] at h
  rw [tied, h]
  rfl

include trans

/-- What an order tells apart it sorts in one way. -/
theorem mergeSort_eq_of_perm (h : l.Perm l') (apart : ∀ a ∈ l, ∀ b ∈ l, tied le a b = true → a = b) :
    l.mergeSort le = l'.mergeSort le := by
  have sorted := List.pairwise_mergeSort trans total l
  have sorted' := List.pairwise_mergeSort trans total l'
  have perm := (List.mergeSort_perm l le).trans (h.trans (List.mergeSort_perm l' le).symm)
  apply perm.eq_of_pairwise _ sorted sorted'
  intro a b ha hb hab hba
  apply apart a (List.mem_mergeSort.mp ha) b
  · exact h.mem_iff.mpr (List.mem_mergeSort.mp hb)
  · exact tied_iff.mpr ⟨hab, hba⟩

/-- What an order does not tell apart stays as it was. -/
theorem filter_tied_mergeSort (a : α) (l : List α) :
    (l.mergeSort le).filter (tied le a) = l.filter (tied le a) := by
  have sorted : (l.filter (tied le a)).Pairwise fun b c => le b c = true := by
    apply List.pairwise_of_forall_mem_list
    intro b hb c hc
    have before := (tied_iff.mp (List.mem_filter.mp hb).2).2
    exact trans b a c before (tied_iff.mp (List.mem_filter.mp hc).2).1
  have kept := (List.sublist_mergeSort trans total sorted List.filter_sublist).filter (tied le a)
  rw [List.filter_filter] at kept
  simp only [Bool.and_self] at kept
  symm
  apply kept.eq_of_length
  exact ((List.mergeSort_perm l le).symm.filter _).length_eq

omit trans in
/-- Of two sorted lists that hold the same in every tie, each is the other. -/
theorem eq_of_filter_tied (hl : l.Pairwise fun a b => le a b = true) (hl' : l'.Pairwise fun a b => le a b = true)
    (same : ∀ a, l.filter (tied le a) = l'.filter (tied le a)) : l = l' := by
  have mem (a : α) : a ∈ l ↔ a ∈ l' := by
    have h := congrArg (a ∈ ·) (same a)
    simpa [List.mem_filter, tied_self total a] using h
  induction l generalizing l' with
  | nil =>
    symm
    apply List.eq_nil_iff_forall_not_mem.mpr
    exact fun a ha => List.not_mem_nil ((mem a).mpr ha)
  | cons x xs ih =>
    cases l' with
    | nil => exact absurd ((mem x).mp (.head _)) List.not_mem_nil
    | cons y ys =>
      have refl (a : α) := (tied_iff.mp (tied_self total a)).1
      have before : tied le x y = true := by
        apply tied_iff.mpr
        constructor
        · rcases List.mem_cons.mp ((mem y).mpr (.head _)) with rfl | hy
          · exact refl y
          · exact (List.pairwise_cons.mp hl).1 y hy
        · rcases List.mem_cons.mp ((mem x).mp (.head _)) with rfl | hx
          · exact refl x
          · exact (List.pairwise_cons.mp hl').1 x hx
      have heads := same x
      rw [List.filter_cons_of_pos (tied_self total x), List.filter_cons_of_pos before] at heads
      obtain ⟨rfl, -⟩ := List.cons.inj heads
      have tails (a : α) : xs.filter (tied le a) = ys.filter (tied le a) := by
        have h := same a
        rw [List.filter_cons, List.filter_cons] at h
        split at h
        · exact (List.cons.inj h).2
        · exact h
      rw [ih (List.pairwise_cons.mp hl).2 (List.pairwise_cons.mp hl').2 tails]
      intro a
      have h := congrArg (a ∈ ·) (tails a)
      simpa [List.mem_filter, tied_self total a] using h

/-- Two lists are sorted into one exactly if they hold the same in every tie. -/
theorem mergeSort_eq_iff :
    l.mergeSort le = l'.mergeSort le ↔ ∀ a, l.filter (tied le a) = l'.filter (tied le a) := by
  constructor
  · intro h a
    rw [← filter_tied_mergeSort trans total a l, h, filter_tied_mergeSort trans total]
  · intro same
    apply eq_of_filter_tied total (List.pairwise_mergeSort trans total l) (List.pairwise_mergeSort trans total l')
    intro a
    rw [filter_tied_mergeSort trans total, filter_tied_mergeSort trans total, same a]

end Sorting

/-- A list of which all members are equal has no order. -/
theorem eq_of_perm_of_forall_eq {α : Type} {l l' : List α} (h : l.Perm l') (one : ∀ a ∈ l, ∀ b ∈ l, a = b) :
    l = l' := by
  have all : l.Pairwise (· = ·) := List.pairwise_of_forall_mem_list one
  exact h.eq_of_pairwise (fun _ _ _ _ same _ => same) all (h.pairwise all Eq.symm)

/-- A list without repetition that reads the same backwards has no two members. -/
theorem eq_of_reverse_eq {α : Type} {l : List α} (nodup : l.Nodup) (same : l.reverse = l) {a b : α} (ha : a ∈ l)
    (hb : b ∈ l) : a = b := by
  cases l with
  | nil => exact absurd ha List.not_mem_nil
  | cons x xs =>
    cases xs with
    | nil => rw [List.mem_singleton.mp ha, List.mem_singleton.mp hb]
    | cons y ys =>
      have last : (y :: ys).getLast? = some x := by
        rw [← List.getLast?_cons_cons (a := x), ← List.head?_reverse, same]
        rfl
      exact absurd (List.mem_of_getLast? last) (List.nodup_cons.mp nodup).1

section Lexicographic

variable {α : Type} {first second : α → String}

/-- By one string, and then by another. -/
def lex (first second : α → String) (a b : α) : Bool :=
  first a < first b || (first a = first b && second a ≤ second b)

theorem lex_iff {a b : α} :
    lex first second a b = true ↔ first a < first b ∨ first a = first b ∧ second a ≤ second b := by
  simp [lex]

theorem lex_trans (a b c : α) (hab : lex first second a b) (hbc : lex first second b c) :
    lex first second a c := by
  rw [lex_iff] at *
  rcases hab with hab | ⟨hab, hab'⟩
  · rcases hbc with hbc | ⟨hbc, -⟩
    · exact .inl (String.lt_trans hab hbc)
    · exact .inl (hbc ▸ hab)
  · rcases hbc with hbc | ⟨hbc, hbc'⟩
    · exact .inl (hab ▸ hbc)
    · exact .inr ⟨hab.trans hbc, String.le_trans hab' hbc'⟩

theorem lex_total (a b : α) : lex first second a b || lex first second b a := by
  rw [Bool.or_eq_true, lex_iff, lex_iff]
  by_cases same : first a = first b
  · rcases String.le_total (second a) (second b) with h | h
    · exact .inl (.inr ⟨same, h⟩)
    · exact .inr (.inr ⟨same.symm, h⟩)
  · by_cases less : first a < first b
    · exact .inl (.inl less)
    · apply Or.inr
      apply Or.inl
      apply String.not_le.mp
      intro h
      exact same (String.le_antisymm h (String.not_lt.mp less))

/-- What agrees in both strings, and nothing else, is tied. -/
theorem tied_lex_iff {a b : α} :
    tied (lex first second) a b = true ↔ first a = first b ∧ second a = second b := by
  rw [tied_iff, lex_iff, lex_iff]
  constructor
  · rintro ⟨h | ⟨same, h⟩, h' | ⟨same', h'⟩⟩
    · exact absurd (String.lt_trans h h') (String.lt_irrefl _)
    · exact absurd (same' ▸ h) (String.lt_irrefl _)
    · exact absurd (same ▸ h') (String.lt_irrefl _)
    · exact ⟨same, String.le_antisymm h h'⟩
  · rintro ⟨same, same'⟩
    exact ⟨.inr ⟨same, same' ▸ String.le_refl _⟩, .inr ⟨same.symm, same' ▸ String.le_refl _⟩⟩

end Lexicographic

section Routes

variable {α : Type} (route : α → Route)

theorem routes_le_eq_lex :
    (fun a b => (route a).le (route b)) = lex (fun a => (route a).destination) (fun a => (route a).source) := rfl

theorem route_eq_of_tied {a b : α}
    (h : tied (lex (fun a => (route a).destination) fun a => (route a).source) a b = true) : route a = route b := by
  obtain ⟨destination, source⟩ := tied_lex_iff.mp h
  cases ha : route a
  cases hb : route b
  simp_all

end Routes

theorem AdmissionStatus.le_eq_lex :
    AdmissionStatus.le = lex (fun a => a.claim.source) (fun a => a.claim.challenge) := rfl

theorem challenge_trans (a b c : ChallengeStatus) (hab : decide (a.challenge ≤ b.challenge))
    (hbc : decide (b.challenge ≤ c.challenge)) : decide (a.challenge ≤ c.challenge) := by
  simp only [decide_eq_true_eq] at *
  exact String.le_trans hab hbc

theorem challenge_total (a b : ChallengeStatus) :
    decide (a.challenge ≤ b.challenge) || decide (b.challenge ≤ a.challenge) := by
  simpa using String.le_total a.challenge b.challenge

/-- The claims are of one source on one stream. -/
def Claim.Together (k l : Claim) : Prop := k.source = l.source ∧ k.challenge = l.challenge

instance (k l : Claim) : Decidable (k.Together l) := inferInstanceAs (Decidable (_ ∧ _))

/-- The entries of a table are told apart by their keys. -/
theorem Table.eq_of_key {κ ν : Type} [DecidableEq κ] {t : Table κ ν} {e e' : κ × ν} (he : e ∈ t.entries)
    (he' : e' ∈ t.entries) (key : e.1 = e'.1) : e = e' := by
  have found := get?_eq_some.mpr he
  rw [key, get?_eq_some.mpr he'] at found
  exact Prod.ext key (Option.some.inj found).symm

namespace Gateway

variable {g h : Gateway}

/-- What is shown of the admission of a claim. -/
def admissionStatus (g : Gateway) (k : Claim) : AdmissionStatus :=
  match g.admissions.get? k with
  | none => ⟨k, 0, 0⟩
  | some c => ⟨k, c.stanzas, g.idleSeconds c⟩

theorem claim_admissionStatus (g : Gateway) (k : Claim) : (g.admissionStatus k).claim = k := by
  unfold admissionStatus
  split <;> rfl

theorem admissionStatuses_eq (g : Gateway) : g.admissionStatuses = g.admissions.keys.map g.admissionStatus := by
  rw [admissionStatuses, Registry.keys, Table.keys, List.map_map]
  apply List.map_congr_left
  intro e he
  have found : g.admissions.get? e.1 = some e.2 := Table.get?_eq_some.mpr he
  rw [Function.comp_apply, admissionStatus, found]

/-- The snapshot has one element for each entry. -/
structure Shows (g : Gateway) (s : Snapshot) : Prop where
  routes : s.routes.Perm g.routeStatuses
  negotiations : s.negotiations.Perm g.negotiationStatuses
  admissions : s.admissions.Perm g.admissionStatuses
  challenges : s.challenges.Perm g.challengeStatuses

theorem shows_snapshot (g : Gateway) : g.Shows g.snapshot :=
  ⟨List.mergeSort_perm .., List.mergeSort_perm .., List.mergeSort_perm .., List.mergeSort_perm ..⟩

namespace Alike

variable (same : g.Alike h)
include same

theorem idleSeconds (c : Carrier) : h.idleSeconds c = g.idleSeconds c := by
  rw [Gateway.idleSeconds, Gateway.idleSeconds, same.now_eq]

theorem routeStatuses : g.routeStatuses.Perm h.routeStatuses := by
  simp only [Gateway.routeStatuses, same.idleSeconds]
  exact List.Perm.map _ same.routes

theorem negotiationStatuses : g.negotiationStatuses.Perm h.negotiationStatuses :=
  (List.Perm.map _ same.negotiations).map _

theorem admissionStatuses : g.admissionStatuses.Perm h.admissionStatuses := by
  simp only [Gateway.admissionStatuses, same.idleSeconds]
  exact List.Perm.map _ same.admissions

theorem challengeStatuses : g.challengeStatuses.Perm h.challengeStatuses := List.Perm.map _ same.challenges

theorem admissionStatus : h.admissionStatus = g.admissionStatus := by
  funext k
  have found : h.admissions.get? k = g.admissions.get? k := (same.admissions.get?_eq k).symm
  rw [Gateway.admissionStatus, Gateway.admissionStatus, found]
  simp only [same.idleSeconds]

end Alike

namespace Alike

variable (same : g.Alike h)
include same

theorem snapshot_routes : h.snapshot.routes = g.snapshot.routes := by
  rw [Gateway.snapshot, Gateway.snapshot, routes_le_eq_lex]
  apply mergeSort_eq_of_perm lex_trans lex_total same.routeStatuses.symm
  intro a ha b hb ties
  obtain ⟨e, he, rfl⟩ := List.mem_map.mp ha
  obtain ⟨e', he', rfl⟩ := List.mem_map.mp hb
  rw [Table.eq_of_key he he' (route_eq_of_tied RouteStatus.route ties)]

theorem snapshot_negotiations (filed : g.Filed) : h.snapshot.negotiations = g.snapshot.negotiations := by
  rw [Gateway.snapshot, Gateway.snapshot, routes_le_eq_lex]
  apply mergeSort_eq_of_perm lex_trans lex_total same.negotiationStatuses.symm
  have keyed : ∀ e ∈ h.negotiations.entries, e.2.route = e.1 :=
    fun e he => same.filed filed e.1 e.2 (Table.get?_eq_some.mpr he)
  intro a ha b hb ties
  rw [Gateway.negotiationStatuses, Table.values, List.map_map] at ha hb
  obtain ⟨e, he, rfl⟩ := List.mem_map.mp ha
  obtain ⟨e', he', rfl⟩ := List.mem_map.mp hb
  have key : e.1 = e'.1 := by
    rw [← keyed e he, ← keyed e' he']
    exact route_eq_of_tied NegotiationStatus.route ties
  rw [Table.eq_of_key he he' key]

theorem snapshot_challenges : h.snapshot.challenges = g.snapshot.challenges := by
  apply mergeSort_eq_of_perm challenge_trans challenge_total same.challengeStatuses.symm
  intro a ha b hb ties
  obtain ⟨e, he, rfl⟩ := List.mem_map.mp ha
  obtain ⟨e', he', rfl⟩ := List.mem_map.mp hb
  have key : e.1 = e'.1 := by
    obtain ⟨le, ge⟩ := tied_iff.mp ties
    exact String.le_antisymm (of_decide_eq_true le) (of_decide_eq_true ge)
  rw [Table.eq_of_key he he' key]

theorem snapshot_admissions_perm : h.snapshot.admissions.Perm g.snapshot.admissions :=
  h.shows_snapshot.admissions.trans (same.admissionStatuses.symm.trans g.shows_snapshot.admissions.symm)

/-- The admissions are shown in one order exactly if those of one source on one stream are listed in one. -/
theorem snapshot_admissions_iff : h.snapshot.admissions = g.snapshot.admissions ↔
    ∀ k, h.admissions.keys.filter (Claim.Together k ·) = g.admissions.keys.filter (Claim.Together k ·) := by
  have ties (a : AdmissionStatus) (ks : List Claim) :
      (ks.map g.admissionStatus).filter (tied AdmissionStatus.le a) =
        (ks.filter (Claim.Together a.claim ·)).map g.admissionStatus := by
    rw [List.filter_map]
    congr 2
    funext k
    rw [Function.comp_apply, AdmissionStatus.le_eq_lex, Bool.eq_iff_iff, tied_lex_iff, claim_admissionStatus,
      decide_eq_true_eq]
    rfl
  have injective : Function.Injective g.admissionStatus := by
    apply Function.LeftInverse.injective (g := AdmissionStatus.claim)
    exact g.claim_admissionStatus
  rw [Gateway.snapshot, Gateway.snapshot, AdmissionStatus.le_eq_lex, mergeSort_eq_iff lex_trans lex_total,
    ← AdmissionStatus.le_eq_lex, admissionStatuses_eq, admissionStatuses_eq, same.admissionStatus]
  constructor
  · intro all k
    have h := all (g.admissionStatus k)
    rw [ties, ties, claim_admissionStatus] at h
    exact List.map_injective_iff.mpr injective h
  · intro all a
    rw [ties, ties, all]

theorem snapshot_iff (filed : g.Filed) : h.snapshot = g.snapshot ↔
    ∀ k, h.admissions.keys.filter (Claim.Together k ·) = g.admissions.keys.filter (Claim.Together k ·) := by
  rw [← same.snapshot_admissions_iff]
  constructor
  · exact congrArg Snapshot.admissions
  · intro admissions
    apply (Snapshot.mk.injEq ..).mpr
    exact ⟨same.snapshot_routes, same.snapshot_negotiations filed, admissions, same.snapshot_challenges⟩

end Alike

/-- The snapshot does not show the order in which the tables list their entries exactly if on no stream two admitted
claims are of one source. -/
theorem Filed.snapshot_iff (filed : g.Filed) : (∀ h, g.Alike h → h.snapshot = g.snapshot) ↔
    ∀ k ∈ g.admissions.keys, ∀ l ∈ g.admissions.keys, k.Together l → k = l := by
  constructor
  · intro always k hk l hl together
    have same := (g.alike_reversed.snapshot_iff filed).mp (always g.reversed g.alike_reversed) k
    have turned : g.reversed.admissions.keys = g.admissions.keys.reverse := List.map_reverse
    rw [turned, List.filter_reverse] at same
    apply eq_of_reverse_eq (g.admissions.table.keys_nodup.filter _) same
    · exact List.mem_filter.mpr ⟨hk, decide_eq_true ⟨rfl, rfl⟩⟩
    · exact List.mem_filter.mpr ⟨hl, decide_eq_true together⟩
  · intro apart h same
    apply (same.snapshot_iff filed).mpr
    intro k
    have perm : h.admissions.keys.Perm g.admissions.keys := List.Perm.map _ same.admissions.symm
    apply eq_of_perm_of_forall_eq (perm.filter _)
    intro a ha b hb
    obtain ⟨ha, hka⟩ := List.mem_filter.mp ha
    obtain ⟨hb, hkb⟩ := List.mem_filter.mp hb
    have first := of_decide_eq_true hka
    have second := of_decide_eq_true hkb
    apply apart a (perm.mem_iff.mp ha) b (perm.mem_iff.mp hb)
    exact ⟨first.1.symm.trans second.1, first.2.symm.trans second.2⟩

/-- The snapshot has one element for each entry. Gateways that hold the same show the same, up to the order of the
admissions, and exactly the same unless two admitted claims have one source and one stream. -/
theorem snapshot_up_to_ties (setup : Setup) (world : World) (ops : List Operation) :
    ((initial setup world).run ops).Filed ∧
    ∀ g : Gateway, g.Filed →
      g.Shows g.snapshot ∧
      (∀ h, g.Alike h →
        h.snapshot.routes = g.snapshot.routes ∧ h.snapshot.negotiations = g.snapshot.negotiations ∧
        h.snapshot.challenges = g.snapshot.challenges ∧
        h.snapshot.admissions.Perm g.snapshot.admissions ∧
        (h.snapshot = g.snapshot ↔
          ∀ k, h.admissions.keys.filter (Claim.Together k ·) = g.admissions.keys.filter (Claim.Together k ·))) ∧
      ((∀ h, g.Alike h → h.snapshot = g.snapshot) ↔
        ∀ k ∈ g.admissions.keys, ∀ l ∈ g.admissions.keys, k.Together l → k = l) := by
  refine ⟨run_filed setup world ops, ?_⟩
  intro g filed
  refine ⟨g.shows_snapshot, ?_, filed.snapshot_iff⟩
  intro h same
  exact ⟨same.snapshot_routes, same.snapshot_negotiations filed, same.snapshot_challenges,
    same.snapshot_admissions_perm, same.snapshot_iff filed⟩

/-- A stream with two admitted pairs, which are of two sources. -/
def twoNames : List Operation :=
  [.inbound 1 (.header (sampleHeader "b.example")),
    .inbound 1 (.element (Dialback.result "a.example" "b.example" "key")),
    .inbound 1 (.element (Dialback.verifyReply "a.example" "b.example" "c" true)),
    .inbound 1 (.element (Dialback.result "a.example" "c.example" "key")),
    .inbound 1 (.element (Dialback.verifyReply "a.example" "c.example" "c" true))]

theorem twoNames_shown_backwards :
    let g := sample.run twoNames
    g.admissions.size = 2 ∧ g.reversed.snapshot = g.snapshot := by
  intro g
  obtain ⟨filed, known⟩ := snapshot_up_to_ties sample.setup sample.world twoNames
  obtain ⟨-, -, always⟩ := known g filed
  have apart : ∀ k ∈ g.admissions.keys, ∀ l ∈ g.admissions.keys, k.Together l → k = l := by decide +kernel
  exact ⟨by decide +kernel, always.mpr apart g.reversed g.alike_reversed⟩

/-- The two admitted pairs of one source are shown as the table lists them, so that the opposite order is another
snapshot. -/
theorem crowd_shown_backwards :
    let g := sample.run crowd
    g.Alike g.reversed ∧
      g.admissions.keys = [⟨"c", "z.example", "b.example"⟩, ⟨"c", "a.example", "b.example"⟩] ∧
      g.reversed.snapshot ≠ g.snapshot := by
  intro g
  refine ⟨g.alike_reversed, by decide +kernel, ?_⟩
  intro same
  have order := (g.alike_reversed.snapshot_iff (run_filed sample.setup sample.world crowd)).mp same
    ⟨"c", "a.example", "b.example"⟩
  exact absurd order (by decide +kernel)

end Gateway

end Interdomain
