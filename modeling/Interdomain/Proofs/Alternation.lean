import Interdomain.Proofs.Announcements
import Interdomain.Proofs.Enumeration

/-! Registries over a course of edits. A hook hears the notices of a registry one after the other. Whatever the edits,
and in whatever order the table lists its entries, arrivals and removals alternate under each key, and the last of them
tells whether the key is there; a removal comes with the value as it then stands, with the changes made to it in
place. -/
namespace Interdomain

namespace Notice

variable {κ ν : Type}

def key : Notice κ ν → κ
  | .registered k _ | .unregistered k _ => k

/-- The entry came in. -/
def arrives : Notice κ ν → Bool
  | .registered .. => true
  | .unregistered .. => false

theorem eq_registered {n : Notice κ ν} (h : n.arrives = true) : ∃ v, n = .registered n.key v := by
  cases n with
  | registered k v => exact ⟨v, rfl⟩
  | unregistered => cases h

/-- Arrivals and removals take turns, and the first is an arrival. -/
def Alternate (ns : List (Notice κ ν)) : Prop := ∀ i (h : i < ns.length), ns[i].arrives = true ↔ i % 2 = 0

variable [DecidableEq κ]

/-- Those of the notices that are of one key. -/
def about (k : κ) (ns : List (Notice κ ν)) : List (Notice κ ν) := ns.filter fun n => n.key = k

theorem about_append (k : κ) (ns ms : List (Notice κ ν)) : about k (ns ++ ms) = about k ns ++ about k ms :=
  List.filter_append ..

theorem about_unregistered (k : κ) (es : List (κ × ν)) :
    about k (es.map fun e => .unregistered e.1 e.2) =
      (es.filter fun e => e.1 = k).map fun e => .unregistered e.1 e.2 := by
  rw [about, List.filter_map]
  rfl

end Notice

namespace Registry

/-- A change of a registry from outside. A predicate that remembers what it was asked is asked of each entry once, so
that its answers, too, are those of some `p`. -/
inductive Edit (κ ν : Type) where
  | register (key : κ) (value : ν)
  | unregister (key : κ)
  | unregisterWhere (p : κ → ν → Bool)
  | modify (key : κ) (f : ν → ν)
  | mapValues (f : κ → ν → ν)

/-- An edit, and the registry as it finds it. -/
structure Occasion (κ ν : Type) where
  registry : Registry κ ν
  edit : Edit κ ν

variable {κ ν σ : Type}

/-- What may happen under a key: from what was there, by the notices that are given of it, to what is there then. -/
inductive Passes (k : κ) : Option ν → List (Notice κ ν) → Option ν → Prop
  | rests {before after} (h : after.isSome = before.isSome) : Passes k before [] after
  | comes (v) : Passes k none [.registered k v] (some v)
  | goes (v) : Passes k (some v) [.unregistered k v] none
  | replaced (v w) : Passes k (some v) [.unregistered k v, .registered k w] (some w)

/-- What goes is what was there. -/
theorem Passes.eq_some {k : κ} {before after : Option ν} {ns : List (Notice κ ν)} (h : Passes k before ns after)
    {v : ν} (mem : .unregistered k v ∈ ns) : before = some v := by
  cases h with
  | rests | comes => simp at mem
  | goes | replaced =>
    simp at mem
    rw [mem]

/-- The notices of a key so far take turns, and their number tells whether the key is there. The number carries the
induction over a course: it says whose turn the next notice is. -/
structure InTurn (ns : List (Notice κ ν)) (held : Option ν) : Prop where
  alternate : Notice.Alternate ns
  parity : held.isSome = true ↔ ns.length % 2 = 1

namespace InTurn

variable {ns : List (Notice κ ν)} {held : Option ν}

theorem concat (h : InTurn ns held) {n : Notice κ ν} (turn : n.arrives = !held.isSome) {after : Option ν}
    (left : after.isSome = n.arrives) : InTurn (ns ++ [n]) after := by
  have parity := h.parity
  refine ⟨fun i hi => ?_, ?_⟩
  · rw [List.length_append, List.length_singleton] at hi
    by_cases last : i < ns.length
    · rw [List.getElem_append_left last]
      exact h.alternate i last
    · obtain rfl : i = ns.length := by omega
      rw [List.getElem_concat_length rfl, turn]
      cases hs : held.isSome <;> simp [hs] at parity ⊢ <;> omega
  · rw [left, turn, List.length_append, List.length_singleton]
    cases hs : held.isSome <;> simp [hs] at parity ⊢ <;> omega

/-- What happens under a key is in turn with what happened before. -/
theorem append (h : InTurn ns held) {k : κ} {ms : List (Notice κ ν)} {after : Option ν}
    (passes : Passes k held ms after) : InTurn (ns ++ ms) after := by
  cases passes with
  | rests same => exact ⟨by simpa using h.alternate, by simpa [same] using h.parity⟩
  | comes v => exact h.concat rfl rfl
  | goes v => exact h.concat rfl rfl
  | replaced v w =>
    have gone : InTurn (ns ++ [.unregistered k v]) none := h.concat rfl rfl
    simpa using gone.concat rfl rfl

theorem last (h : InTurn ns held) : held.isSome = true ↔ ∃ n, ns.getLast? = some n ∧ n.arrives = true := by
  rw [h.parity]
  rcases List.eq_nil_or_concat' ns with rfl | ⟨before, n, rfl⟩
  · simp
  · have turn : n.arrives = true ↔ before.length % 2 = 0 := by simpa using h.alternate before.length (by simp)
    simp only [List.length_append, List.length_singleton, List.getLast?_concat, Option.some.injEq, exists_eq_left',
      turn]
    omega

end InTurn

variable [DecidableEq κ]

/-- Under one key there is one entry or none. -/
theorem entries_filter_key (r : Registry κ ν) (k : κ) : (r.entries.filter fun e => e.1 = k) = r.entryOf k := by
  have ⟨⟨es, distinct⟩⟩ := r
  simp only [entries, entryOf, get?, Table.get?]
  induction es with
  | nil => rfl
  | cons e es ih =>
    obtain ⟨apart, distinct⟩ := List.pairwise_cons.mp distinct
    by_cases he : e.1 = k
    · subst he
      have no_other : (es.filter fun x => x.1 = e.1) = [] :=
        List.filter_eq_nil_iff.mpr fun x hx => by simpa using (apart x hx).symm
      simp only [List.filter_cons, List.find?_cons, decide_true, if_true, no_other, Option.map_some, Option.toList_some]
    · simp only [List.filter_cons, List.find?_cons, he, decide_false, Bool.false_eq_true, if_false, ih distinct]

theorem filter_entryOf (r : Registry κ ν) (x k : κ) :
    ((r.entryOf x).filter fun e => e.1 = k) = if k = x then r.entryOf k else [] := by
  by_cases hx : k = x
  · rw [if_pos hx, ← hx]
    exact List.filter_eq_self.mpr fun e he => by simpa using (mem_entryOf.mp he).1
  · rw [if_neg hx]
    exact List.filter_eq_nil_iff.mpr fun e he => by simpa [(mem_entryOf.mp he).1] using Ne.symm hx

/-- What an edit leaves under a key of what was there. -/
def Edit.leaves (k : κ) (held : Option ν) : Edit κ ν → Option ν
  | .register x v => if k = x then some v else held
  | .unregister x => if k = x then none else held
  | .unregisterWhere p => held.filter fun v => !p k v
  | .modify x f => if k = x then held.map f else held
  | .mapValues f => held.map (f k)

namespace Occasion

def next (o : Occasion κ ν) : Registry κ ν :=
  match o.edit with
  | .register k v => (o.registry.register k v).registry
  | .unregister k => (o.registry.unregister k).registry
  | .unregisterWhere p => (o.registry.unregisterWhere p).registry
  | .modify k f => o.registry.modify k f
  | .mapValues f => o.registry.mapValues f

def notices (o : Occasion κ ν) : List (Notice κ ν) :=
  match o.edit with
  | .register k v => (o.registry.register k v).notices
  | .unregister k => (o.registry.unregister k).notices
  | .unregisterWhere p => (o.registry.unregisterWhere p).notices
  | .modify .. | .mapValues _ => []

variable (o : Occasion κ ν) (k : κ)

theorem get?_next : o.next.get? k = o.edit.leaves k (o.registry.get? k) := by
  obtain ⟨r, edit⟩ := o
  cases edit with
  | register x v => exact r.get?_register x k v
  | unregister x => exact r.get?_unregister x k
  | unregisterWhere p => exact r.get?_unregisterWhere p k
  | modify x f => exact r.get?_modify x k f
  | mapValues f => exact r.table.get?_map f k

/-- Under each key an edit does one of these. -/
theorem passes : Passes k (o.registry.get? k) (Notice.about k o.notices) (o.next.get? k) := by
  rw [get?_next]
  obtain ⟨r, edit⟩ := o
  cases edit with
  | register x v =>
    obtain ⟨-, -, -, notices⟩ := r.entries_register x v
    simp only [Occasion.notices, notices, Notice.about_append, Notice.about_unregistered, filter_entryOf, Edit.leaves]
    by_cases hx : k = x
    · subst hx
      cases found : r.get? k with
      | none => simpa [Notice.about, Notice.key, entryOf, found] using Passes.comes v
      | some w => simpa [Notice.about, Notice.key, entryOf, found] using Passes.replaced w v
    · simpa [Notice.about, Notice.key, hx, Ne.symm hx] using Passes.rests rfl
  | unregister x =>
    simp only [Occasion.notices, (r.unregister_removes x).2, Notice.about_unregistered, filter_entryOf, Edit.leaves]
    by_cases hx : k = x
    · subst hx
      cases found : r.get? k with
      | none => simpa [entryOf, found] using Passes.rests rfl
      | some w => simpa [entryOf, found] using Passes.goes w
    · simpa [hx] using Passes.rests rfl
  | unregisterWhere p =>
    simp only [Occasion.notices, unregisterWhere_eq, Notice.about_unregistered, Edit.leaves]
    rw [List.filter_comm, entries_filter_key]
    cases found : r.get? k with
    | none => simpa [entryOf, found] using Passes.rests rfl
    | some w =>
      cases hp : p k w with
      | false => simpa [entryOf, found, Option.filter, hp] using Passes.rests rfl
      | true => simpa [entryOf, found, Option.filter, hp] using Passes.goes w
  | modify x f =>
    refine .rests ?_
    simp only [Edit.leaves]
    split <;> simp
  | mapValues f => exact .rests Option.isSome_map

/-- What the edit removes and returns is what was found under the keys before it. -/
structure Exact (found : κ → Option ν) : Prop where
  /-- A removal comes with the value as it then stands. -/
  unregistered : ∀ k v, .unregistered k v ∈ o.notices → found k = some v
  /-- What is replaced is removed first, and returned. -/
  register : ∀ k v, o.edit = .register k v →
    o.notices = (found k).toList.map (.unregistered k) ++ [.registered k v] ∧
      (o.registry.register k v).result = found k
  /-- What is not there is not removed, so a second removal does nothing. -/
  unregister : ∀ k, o.edit = .unregister k →
    o.notices = (found k).toList.map (.unregistered k) ∧ (o.registry.unregister k).result = found k
  /-- What satisfies the predicate is removed and returned once, and all else stays. -/
  unregisterWhere : ∀ p, o.edit = .unregisterWhere p →
    let removed := (o.registry.unregisterWhere p).result
    (removed.map (·.1)).Nodup ∧ (∀ k v, (k, v) ∈ removed ↔ found k = some v ∧ p k v = true) ∧
      (o.notices = removed.map fun e => .unregistered e.1 e.2) ∧
      ∀ k, o.next.get? k = (found k).filter fun v => !p k v

end Occasion

/-- The value that stands under a key after the edits, by these alone: the one it was last registered with, as the
later edits have changed it, unless one of them has removed it. -/
def standing (edits : List (Edit κ ν)) (k : κ) : Option ν := edits.foldl (Edit.leaves k) none

/-- A registry that begins empty goes through the edits one after the other, and its hook hears the notices of each.
Between two of them its table may come to list its entries in another order. -/
inductive Course (hook : σ → Notice κ ν → σ) (start : σ) : List (Occasion κ ν) → Registry κ ν → σ → Prop
  | start : Course hook start [] ∅ start
  | step {os : List (Occasion κ ν)} {r : Registry κ ν} {heard : σ} (earlier : Course hook start os r heard)
      (o : Occasion κ ν) (same : r.table.SameEntries o.registry.table) :
      Course hook start (os ++ [o]) o.next (o.notices.foldl hook heard)

namespace Course

variable {hook : σ → Notice κ ν → σ} {start : σ} {os : List (Occasion κ ν)} {r : Registry κ ν} {heard : σ}

theorem heard_eq (h : Course hook start os r heard) : heard = (os.flatMap Occasion.notices).foldl hook start := by
  induction h with
  | start => rfl
  | step _ o _ ih => rw [ih, List.flatMap_append, List.foldl_append, List.flatMap_singleton]

theorem get?_eq_standing (h : Course hook start os r heard) (k : κ) :
    r.get? k = standing (os.map Occasion.edit) k := by
  induction h with
  | start => rfl
  | step _ o same ih =>
    have found : o.registry.get? k = _ := (same.get?_eq k).symm.trans ih
    rw [o.get?_next, found, List.map_append, standing, standing, List.foldl_append]
    rfl

theorem inTurn (h : Course hook start os r heard) (k : κ) :
    InTurn (Notice.about k (os.flatMap Occasion.notices)) (r.get? k) := by
  induction h with
  | start => exact ⟨fun i hi => absurd hi (Nat.not_lt_zero i), iff_of_false Bool.false_ne_true Nat.zero_ne_one⟩
  | step _ o same ih =>
    rw [List.flatMap_append, List.flatMap_singleton, Notice.about_append]
    have held := o.passes k
    rw [get?, ← same.get?_eq k] at held
    exact ih.append held

/-- A key is there if and only if the last that was heard of it is an arrival. -/
theorem contains_iff_last (h : Course hook start os r heard) (k : κ) : r.contains k = true ↔
    ∃ v, (Notice.about k (os.flatMap Occasion.notices)).getLast? = some (.registered k v) := by
  rw [show r.contains k = (r.get? k).isSome from rfl, (h.inTurn k).last]
  constructor
  · rintro ⟨n, last, arrives⟩
    have of_key : n.key = k := by simpa using (List.mem_filter.mp (List.mem_of_getLast? last)).2
    obtain ⟨v, same⟩ := Notice.eq_registered arrives
    exact ⟨v, by rw [last, same, of_key]⟩
  · rintro ⟨v, last⟩
    exact ⟨_, last, rfl⟩

/-- What an edit of a course finds under a key is what stands there after the edits before it. -/
theorem found_eq_standing (h : Course hook start os r heard) {earlier later : List (Occasion κ ν)}
    {o : Occasion κ ν} (split : os = earlier ++ o :: later) (k : κ) :
    o.registry.get? k = standing (earlier.map Occasion.edit) k := by
  induction h generalizing later with
  | start => exact absurd split (by simp)
  | step before o' same ih =>
    rcases List.eq_nil_or_concat' later with rfl | ⟨later, last, rfl⟩
    · obtain ⟨rfl, ⟨⟩⟩ := List.append_inj' split rfl
      exact (same.get?_eq k).symm.trans (before.get?_eq_standing k)
    · rw [← List.cons_append, ← List.append_assoc] at split
      exact ih (List.append_inj' split rfl).1

/-- Any edits can follow. -/
theorem extend (h : Course hook start os r heard) (edits : List (Edit κ ν)) : ∃ more r' heard',
    Course hook start (os ++ more) r' heard' ∧ more.map Occasion.edit = edits := by
  induction edits generalizing os r heard with
  | nil => exact ⟨[], r, heard, by rwa [List.append_nil], rfl⟩
  | cons e edits ih =>
    obtain ⟨more, r', heard', course, made⟩ := ih (h.step ⟨r, e⟩ (.refl _))
    refine ⟨⟨r, e⟩ :: more, r', heard', ?_, congrArg (e :: ·) made⟩
    rwa [List.append_cons]

end Course

theorem Occasion.exact_get? (o : Occasion κ ν) : o.Exact o.registry.get? where
  unregistered k v mem := (o.passes k).eq_some (List.mem_filter.mpr ⟨mem, by simp [Notice.key]⟩)
  register k v made := by
    obtain ⟨-, -, -, notices⟩ := o.registry.entries_register k v
    refine ⟨?_, o.registry.result_unregister k⟩
    simp only [Occasion.notices, made, notices, entryOf, Option.toList_map, List.map_map]
    rfl
  unregister k made := by
    refine ⟨?_, o.registry.result_unregister k⟩
    simp only [Occasion.notices, made, (o.registry.unregister_removes k).2, entryOf, Option.toList_map, List.map_map]
    rfl
  unregisterWhere p made := by
    refine ⟨?_, fun k v => ?_, ?_, fun k => ?_⟩
    · rw [unregisterWhere_eq]
      exact List.pairwise_map.mpr (o.registry.table.distinct.filter _)
    · rw [unregisterWhere_eq, List.mem_filter]
      exact and_congr_left' Table.get?_eq_some.symm
    · simp only [Occasion.notices, made, unregisterWhere_eq]
    · rw [o.get?_next, made]
      rfl

/-- Whatever the hook and the edits, the hook hears of each key arrivals and removals in turn, with the values that
the edits gave it. Each edit removes and returns what stands after those before it. -/
theorem notices_in_turn (hook : σ → Notice κ ν → σ) (start : σ) :
    (∀ edits : List (Edit κ ν), ∃ os r heard, Course hook start os r heard ∧ os.map Occasion.edit = edits) ∧
    ∀ os r heard, Course hook start os r heard →
      let notices := os.flatMap Occasion.notices
      heard = notices.foldl hook start ∧
      (∀ k, Notice.Alternate (Notice.about k notices) ∧
        (r.contains k = true ↔ ∃ v, (Notice.about k notices).getLast? = some (.registered k v)) ∧
        r.get? k = standing (os.map Occasion.edit) k) ∧
      ∀ earlier o later, os = earlier ++ o :: later → o.Exact (standing (earlier.map Occasion.edit)) := by
  refine ⟨Course.start.extend, fun os r heard course => ⟨course.heard_eq, fun k => ?_, fun earlier o later split => ?_⟩⟩
  · exact ⟨(course.inTurn k).alternate, course.contains_iff_last k, course.get?_eq_standing k⟩
  · have found : o.registry.get? = standing (earlier.map Occasion.edit) := funext (course.found_eq_standing split)
    exact found ▸ o.exact_get?

/-- The value that is replaced comes with the change that was made to it in place. Of the two that are there in the end
only the one beyond the bound is removed. -/
theorem changed_value_in_turn :
    let bounded (_ v : Nat) : Bool := 20 < v
    let record (heard : List (Notice Nat Nat)) (n : Notice Nat Nat) := n :: heard
    ∃ os replaces removes r heard, Course record [] (os ++ [replaces, removes]) r heard ∧
      os.map Occasion.edit = [.register 1 10, .register 2 20, .modify 1 (· + 5)] ∧
      replaces.edit = .register 1 30 ∧ removes.edit = .unregisterWhere bounded ∧
      heard = ((os ++ [replaces, removes]).flatMap Occasion.notices).reverse ∧
      replaces.notices = [.unregistered 1 15, .registered 1 30] ∧
      (1, 30) ∈ (removes.registry.unregisterWhere bounded).result ∧
      (2, 20) ∉ (removes.registry.unregisterWhere bounded).result ∧
      r.contains 1 = false ∧ r.get? 2 = some 20 := by
  intro bounded record
  obtain ⟨some_course, law⟩ := notices_in_turn record []
  obtain ⟨os, r, heard, course, made⟩ := some_course
    ([.register 1 10, .register 2 20, .modify 1 (· + 5)] ++ [.register 1 30, .unregisterWhere bounded])
  obtain ⟨os, rest, rfl, before, made⟩ := List.map_eq_append_iff.mp made
  obtain ⟨replaces, rest, rfl, replacing, made⟩ := List.map_eq_cons_iff.mp made
  obtain ⟨removes, rest, rfl, removing, made⟩ := List.map_eq_cons_iff.mp made
  obtain rfl := List.map_eq_nil_iff.mp made
  obtain ⟨recorded, keys, edits⟩ := law _ _ _ course
  have replaced := (edits os replaces [removes] rfl).register 1 30 replacing
  have removed := (edits (os ++ [replaces]) removes [] (by simp)).unregisterWhere bounded removing
  have value (k : Nat) := (keys k).2.2
  simp only [List.map_append, List.map_cons, List.map_nil, before, replacing, removing] at replaced removed value
  refine ⟨os, replaces, removes, r, heard, course, before, replacing, removing, ?_, replaced.1, ?_, ?_, ?_, value 2⟩
  · rw [recorded, List.foldl_flip_cons_eq_append, List.append_nil, List.map_id']
  · exact (removed.2.1 1 30).mpr ⟨rfl, rfl⟩
  · exact fun mem => absurd ((removed.2.1 2 20).mp mem).2 (by decide)
  · have gone : r.get? 1 = none := value 1
    rw [contains]
    exact Table.contains_eq_false.mpr gone

end Registry

end Interdomain
