/-! Finite tables: values under distinct keys. A table lists its entries in some order, which none of the
look-ups depends on; `SameEntries` holds of two tables that differ in nothing but that order. -/
namespace Interdomain

/-- Values under distinct keys. -/
structure Table (κ ν : Type) where
  entries : List (κ × ν)
  distinct : entries.Pairwise fun a b => a.1 ≠ b.1

namespace Table

variable {κ ν : Type}

def empty : Table κ ν := ⟨[], .nil⟩

instance : EmptyCollection (Table κ ν) := ⟨empty⟩
instance : Inhabited (Table κ ν) := ⟨empty⟩

instance [DecidableEq κ] [DecidableEq ν] : DecidableEq (Table κ ν) := fun s t =>
  decidable_of_iff (s.entries = t.entries) (by cases s; cases t; simp)

/-- The two tables hold the same values under the same keys. -/
def SameEntries (s t : Table κ ν) : Prop := s.entries.Perm t.entries

def size (t : Table κ ν) : Nat := t.entries.length

def isEmpty (t : Table κ ν) : Bool := t.entries.isEmpty

def keys (t : Table κ ν) : List κ := t.entries.map (·.1)

def values (t : Table κ ν) : List ν := t.entries.map (·.2)

def filter (p : κ → ν → Bool) (t : Table κ ν) : Table κ ν :=
  ⟨t.entries.filter fun e => p e.1 e.2, t.distinct.filter _⟩

def map (f : κ → ν → ν) (t : Table κ ν) : Table κ ν :=
  ⟨t.entries.map fun e => (e.1, f e.1 e.2), List.pairwise_map.2 t.distinct⟩

variable [DecidableEq κ]

def get? (t : Table κ ν) (k : κ) : Option ν := (t.entries.find? (·.1 = k)).map (·.2)

def contains (t : Table κ ν) (k : κ) : Bool := (t.get? k).isSome

def erase (t : Table κ ν) (k : κ) : Table κ ν := t.filter fun x _ => x ≠ k

def insert (t : Table κ ν) (k : κ) (v : ν) : Table κ ν where
  entries := (t.erase k).entries ++ [(k, v)]
  distinct := by
    refine List.pairwise_append.2 ⟨(t.erase k).distinct, List.pairwise_singleton .., ?_⟩
    simp [erase, filter]

def modify (t : Table κ ν) (k : κ) (f : ν → ν) : Table κ ν :=
  t.map fun x v => if x = k then f v else v

/-- The look-up of a key finds exactly the entry under it. -/
theorem get?_eq_some {t : Table κ ν} {k : κ} {v : ν} : t.get? k = some v ↔ (k, v) ∈ t.entries := by
  have ⟨es, h⟩ := t
  simp only [get?]
  induction es with
  | nil => simp
  | cons e es ih => grind [List.pairwise_cons]

theorem get?_filter (p : κ → ν → Bool) (t : Table κ ν) (x : κ) :
    (t.filter p).get? x = (t.get? x).filter (p x) := by
  apply Option.ext
  intro v
  rw [get?_eq_some, Option.filter_eq_some_iff, get?_eq_some]
  exact List.mem_filter

theorem get?_erase (t : Table κ ν) (k x : κ) :
    (t.erase k).get? x = if x = k then none else t.get? x := by
  have ⟨es, h⟩ := t
  simp only [get?, erase, filter]
  induction es with
  | nil => simp
  | cons e es ih => grind [List.pairwise_cons]

theorem get?_insert (t : Table κ ν) (k x : κ) (v : ν) :
    (t.insert k v).get? x = if x = k then some v else t.get? x := by
  have h := get?_erase t k x
  simp only [get?, insert, List.find?_append] at h ⊢
  by_cases hx : x = k
  · subst hx
    have hn : List.find? (fun e => decide (e.1 = x)) (t.erase x).entries = none := by simpa using h
    simp [hn]
  · simp only [hx, if_false] at h ⊢
    rw [← h]
    cases List.find? (fun e => decide (e.1 = x)) (t.erase k).entries <;> simp [Ne.symm hx]

theorem erase_erase (t : Table κ ν) (k : κ) : (t.erase k).erase k = t.erase k := by
  simp [erase, filter]

theorem erase_insert (t : Table κ ν) (k : κ) (v : ν) : (t.insert k v).erase k = t.erase k := by
  simp [erase, insert, filter]

theorem insert_insert (t : Table κ ν) (k : κ) (v w : ν) :
    (t.insert k v).insert k w = (t.erase k).insert k w := by
  have h : (t.insert k v).erase k = (t.erase k).erase k := by rw [erase_insert, erase_erase]
  simp only [insert] at h ⊢
  simp only [h]

theorem get?_map (f : κ → ν → ν) (t : Table κ ν) (x : κ) :
    (t.map f).get? x = (t.get? x).map (f x) := by
  have ⟨es, h⟩ := t
  simp only [get?, map]
  induction es with
  | nil => simp
  | cons e es ih => grind [List.pairwise_cons]

theorem get?_modify (t : Table κ ν) (k x : κ) (f : ν → ν) :
    (t.modify k f).get? x = if x = k then (t.get? x).map f else t.get? x := by
  rw [modify, get?_map]
  by_cases hx : x = k <;> simp [hx]

theorem contains_iff {t : Table κ ν} {k : κ} : t.contains k = true ↔ ∃ v, t.get? k = some v := by
  simp [contains, Option.isSome_iff_exists]

theorem contains_eq_false {t : Table κ ν} {k : κ} : t.contains k = false ↔ t.get? k = none := by
  simp [contains]

theorem mem_keys {t : Table κ ν} {k : κ} : k ∈ t.keys ↔ ∃ v, t.get? k = some v := by
  simp only [keys, List.mem_map, get?_eq_some]
  constructor
  · rintro ⟨⟨k', v⟩, h, rfl⟩
    exact ⟨v, h⟩
  · rintro ⟨v, h⟩
    exact ⟨(k, v), h, rfl⟩

end Table

end Interdomain
