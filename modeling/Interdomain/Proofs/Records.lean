import Interdomain.Log.Store

/-! Queries of the accounting log. A query is put together from the criteria that are given, and each value stands at
the place of its condition whichever criteria are left out; so what is found is what meets the criteria, the newest
first and up to the limit. -/
namespace Interdomain.Log

theorem valueAt?_append (given : List Parameter) (value : Parameter) (more : List Parameter) :
    valueAt? (given ++ value :: more) (given.length + 1) = some value := by
  rw [valueAt?, List.getElem?_append_right (Nat.le_refl _), Nat.sub_self, List.getElem?_cons_zero]

/-- Whatever is given after its own values, the conditions of the draft hold of the rows with this property, and its
places are numbered from one on without a gap. -/
structure Draft.Means (d : Draft) (p : Row → Bool) : Prop where
  next : d.next = d.given.length + 1
  last : (d.conditions.filterMap Condition.place?).foldl max 0 = d.given.length
  holds : ∀ more r, d.conditions.all (·.holds (d.given ++ more) r) = p r

namespace Draft.Means

variable {d : Draft} {p : Row → Bool}

theorem blank : ({} : Draft).Means fun _ => true := ⟨rfl, rfl, fun _ _ => rfl⟩

/-- A condition is about the value that was added with it. -/
theorem compare (h : d.Means p) (column : Column) (comparison : Comparison) (value : Option String) :
    (d.compare column comparison value).Means fun r =>
      p r && value.all fun value => comparison.holds (column.read r) value := by
  cases value with
  | none => simpa [Draft.compare] using h
  | some value =>
    refine ⟨by simp [Draft.compare, h.next], ?_, fun more r => ?_⟩
    · simp only [Draft.compare, List.filterMap_append, List.foldl_append, h.last, List.length_append]
      simp [Condition.place?, h.next]
    · simp only [Draft.compare, List.all_append, List.append_assoc, List.singleton_append, h.holds, h.next]
      simp [Condition.holds, valueAt?_append, Parameter.asText]

/-- The limit stands after all other values. -/
theorem run_finish (h : d.Means p) (limit : Int) (rows : List Row) :
    (d.finish limit).1.run (d.finish limit).2 rows =
      some (Selection.cut limit ((rows.filter p).mergeSort fun a b => b.id ≤ a.id)) := by
  have arity : (d.finish limit).2.length = (d.finish limit).1.arity := by
    simp [Selection.arity, Selection.places, Draft.finish, h.last, h.next]
  rw [Selection.run, if_pos arity]
  simp only [Draft.finish, h.next, valueAt?_append, h.holds]

end Draft.Means

/-- The entry meets all criteria of the filter: it is about the peer when that is put into lowercase, has the
direction, and was not closed before the instant, byte by byte. -/
structure Filter.Meets (f : Filter) (e : Entry) : Prop where
  peer : ∀ peer ∈ f.peer, e.peer = Text.lowercase peer
  direction : ∀ direction ∈ f.direction, e.direction = direction
  since : ∀ since ∈ f.since, textBytes since ≤ textBytes e.closedAt

theorem Filter.meets_iff {f : Filter} {e : Entry} : f.Meets e ↔
    (∀ peer ∈ f.peer, e.peer = Text.lowercase peer) ∧ (∀ direction ∈ f.direction, e.direction = direction) ∧
      ∀ since ∈ f.since, textBytes since ≤ textBytes e.closedAt :=
  ⟨fun h => ⟨h.peer, h.direction, h.since⟩, fun h => ⟨h.1, h.2.1, h.2.2⟩⟩

instance (f : Filter) : DecidablePred f.Meets := fun _ => decidable_of_iff _ Filter.meets_iff.symm

/-- An entry as the row that it is read from. -/
def Entry.row (e : Entry) : Row :=
  ⟨e.id, e.peer, e.direction.toString, e.stanzas, e.address, e.seconds, e.closedAt⟩

theorem entry_row (e : Entry) : e.row.entry = .ok e := by
  rw [Row.entry, Entry.row, Policy.Direction.parse_toString]

theorem entries_map_row (es : List Entry) : entries (es.map Entry.row) = .ok es := by
  induction es with
  | nil => rfl
  | cons e es ih =>
    rw [List.map_cons, entries, entry_row, ih]

theorem toString_eq_iff {d d' : Policy.Direction} : d.toString = d'.toString ↔ d = d' := by
  cases d <;> cases d' <;> decide

theorem Filter.means_meets (f : Filter) :
    ∃ p, f.draft.Means p ∧ ∀ e : Entry, p e.row = decide (f.Meets e) := by
  refine ⟨_, ((Draft.Means.blank.compare ..).compare ..).compare .., fun e => ?_⟩
  rw [Bool.eq_iff_iff, decide_eq_true_iff, meets_iff]
  simp [Column.read, Entry.row, Option.all_eq_true, toString_eq_iff, and_assoc]

/-- Rows that are in the order of their numbers are sorted by turning them around. -/
theorem mergeSort_eq_reverse {rows : List Row} (h : rows.Pairwise fun a b => a.id < b.id) :
    rows.mergeSort (fun a b => b.id ≤ a.id) = rows.reverse := by
  have perm := List.mergeSort_perm rows fun a b => b.id ≤ a.id
  have sorted : (rows.mergeSort fun a b => b.id ≤ a.id).Pairwise fun a b => b.id ≤ a.id := by
    have trans : ∀ a b c : Row, decide (b.id ≤ a.id) = true → decide (c.id ≤ b.id) = true →
        decide (c.id ≤ a.id) = true := by
      intro a b c hab hbc
      simp only [decide_eq_true_eq] at hab hbc ⊢
      omega
    have total : ∀ a b : Row, (decide (b.id ≤ a.id) || decide (a.id ≤ b.id)) = true := by
      intro a b
      simp only [Bool.or_eq_true, decide_eq_true_eq]
      omega
    exact (List.pairwise_mergeSort trans total rows).imp of_decide_eq_true
  have distinct : (rows.mergeSort fun a b => b.id ≤ a.id).Pairwise fun a b => a.id ≠ b.id :=
    (perm.pairwise_iff fun h => Ne.symm h).mpr (h.imp Nat.ne_of_lt)
  have strict : (rows.mergeSort fun a b => b.id ≤ a.id).Pairwise fun a b => b.id < a.id :=
    (sorted.and distinct).imp fun ⟨le, ne⟩ => Nat.lt_of_le_of_ne le (Ne.symm ne)
  have reversed : rows.reverse.Pairwise fun a b => b.id < a.id := List.pairwise_reverse.mpr h
  exact (perm.trans (List.reverse_perm rows).symm).eq_of_pairwise
    (fun a b _ _ hab hba => absurd hab (Nat.lt_asymm hba)) strict reversed

theorem cut_map {α β : Type} (limit : Int) (g : α → β) (found : List α) :
    Selection.cut limit (found.map g) = (Selection.cut limit found).map g := by
  unfold Selection.cut
  split
  · rfl
  · exact List.map_take.symm

theorem cut_sublist {α : Type} (limit : Int) (found : List α) : (Selection.cut limit found).Sublist found := by
  unfold Selection.cut
  split
  · exact .refl _
  · exact List.take_sublist _ _

/-- A query of entries in the order of their numbers finds those that meet the criteria, the last first. -/
theorem query_of_entries {s : Store} {es : List Entry} (hs : s.content.table = some (es.map Entry.row))
    (h : es.Pairwise fun a b => a.id < b.id) (f : Filter) :
    s.query f = .ok (Selection.cut (f.limit.getD defaultLimit) (es.filter f.Meets).reverse) := by
  obtain ⟨p, means, property⟩ := f.means_meets
  have kept : (es.map Entry.row).filter p = (es.filter f.Meets).map Entry.row := by
    rw [List.filter_map]
    exact congrArg _ (List.filter_congr fun e _ => property e)
  have ordered : ((es.filter f.Meets).map Entry.row).Pairwise fun a b => a.id < b.id :=
    List.pairwise_map.mpr (h.filter _)
  rw [Store.query, hs]
  simp only [Filter.selection, means.run_finish, kept, mergeSort_eq_reverse ordered, ← List.map_reverse, cut_map,
    entries_map_row]

/-- The largest number that is stored. -/
def largest : Nat := Nat.pow 2 63 - 1

/-- What an account shows as when it is read again: as it was written, with numbers that are too large replaced by the
largest. -/
def entryOf (id : Nat) (a : Account) (closed : Nat) : Entry where
  id := id
  peer := a.peer
  direction := a.direction
  stanzas := min a.stanzas largest
  address := a.address
  seconds := min (a.duration / 1000) largest
  closedAt := timestamp closed

/-- The entries of accounts that were written one after the other, each with the instant at which its authorization
ended. -/
def entriesOf (accounts : List (Account × Nat)) : List Entry :=
  accounts.mapIdx fun i written => entryOf (i + 1) written.1 written.2

/-- Writes accounts one after the other: the log after that, and their numbers. -/
def Store.recordAll : List (Account × Nat) → Store → Except StoreError (Store × List Nat)
  | [], s => .ok (s, [])
  | (a, closed) :: rest, s => do
    let (s, id) ← s.record a closed
    let (s, ids) ← recordAll rest s
    return (s, id :: ids)

/-- A new log that was brought up to date. -/
def Store.fresh : Store := Store.empty.upgrade.database

theorem record_eq {s : Store} {rows : List Row} (hs : s.content.table = some rows) (a : Account) (closed : Nat) :
    s.record a closed = .ok ({ s with
      content.table := some (rows ++ [(entryOf (rows.length + 1) a closed).row]) }, rows.length + 1) := by
  rw [Store.record, Store.append, hs]
  rfl

theorem recordAll_eq (accounts : List (Account × Nat)) {s : Store} {rows : List Row}
    (hs : s.content.table = some rows) :
    s.recordAll accounts = .ok ({ s with
      content.table := some (rows ++ accounts.mapIdx fun i written =>
        (entryOf (rows.length + i + 1) written.1 written.2).row) },
      List.range' (rows.length + 1) accounts.length) := by
  induction accounts generalizing s rows with
  | nil => simp [Store.recordAll, ← hs]
  | cons written accounts ih =>
    obtain ⟨a, closed⟩ := written
    have next := ih (s := { s with content.table := some (rows ++ [(entryOf (rows.length + 1) a closed).row]) }) rfl
    simp only [List.length_append, List.length_singleton, List.append_assoc] at next
    simp only [Store.recordAll, record_eq hs, bind, Except.bind, next, List.mapIdx_cons, List.length_cons,
      List.range'_succ, pure, Except.pure]
    simp only [Nat.add_zero, List.singleton_append, Nat.add_assoc, Nat.add_comm 1]

theorem entriesOf_ascending (accounts : List (Account × Nat)) :
    (entriesOf accounts).Pairwise fun a b => a.id < b.id := by
  rw [List.pairwise_iff_getElem]
  intro i j hi hj hij
  simpa [entriesOf, entryOf] using hij

/-- A query finds the entries that meet its criteria, the newest first, up to the limit; they are the accounts as they
were written, but for numbers beyond the largest. -/
theorem queries_exact (accounts : List (Account × Nat)) :
    ∃ log, Store.fresh.recordAll accounts = .ok (log, List.range' 1 accounts.length) ∧
      ∀ f : Filter, ∃ found, log.query f = .ok found ∧ found.Pairwise (fun a b => b.id < a.id) ∧
        let matching := ((entriesOf accounts).filter f.Meets).reverse
        (f.limit = none → found = matching.take 100) ∧
        ∀ limit, f.limit = some limit →
          (limit < 0 → found = matching) ∧ (0 ≤ limit → found = matching.take limit.toNat) := by
  have empty : Store.fresh.content.table = some [] := rfl
  have written := recordAll_eq accounts empty
  simp only [List.nil_append, List.length_nil, Nat.zero_add] at written
  refine ⟨_, written, fun f => ?_⟩
  have rows : (accounts.mapIdx fun i written => (entryOf (i + 1) written.1 written.2).row) =
      (entriesOf accounts).map Entry.row := by
    rw [List.mapIdx_eq_iff]
    intro i
    simp [entriesOf, Function.comp_def]
  refine ⟨_, query_of_entries (congrArg some rows) (entriesOf_ascending accounts) f, ?_, ?_, ?_⟩
  · have descending : ((entriesOf accounts).filter f.Meets).reverse.Pairwise fun a b => b.id < a.id :=
      List.pairwise_reverse.mpr ((entriesOf_ascending accounts).filter _)
    exact descending.sublist (cut_sublist _ _)
  · intro none
    rw [none]
    rfl
  · intro limit given
    rw [given, Option.getD_some]
    exact ⟨fun negative => if_pos negative, fun natural => if_neg (Int.not_lt.mpr natural)⟩

end Interdomain.Log
