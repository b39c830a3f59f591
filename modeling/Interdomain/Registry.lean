import Interdomain.Table

/-! Registries: tables that give notice of every entry that comes in and of every entry that goes out.
Replacing an entry is a removal followed by an arrival, and a removal gives notice of the value as it then
stands, so under one key arrivals and removals alternate. -/
namespace Interdomain

/-- An entry came in or went out. -/
inductive Notice (κ ν : Type) where
  | registered (key : κ) (value : ν)
  | unregistered (key : κ) (value : ν)
  deriving Repr, DecidableEq

structure Registry (κ ν : Type) where
  table : Table κ ν
  deriving DecidableEq

namespace Registry

variable {κ ν : Type}

def empty : Registry κ ν := ⟨∅⟩

instance : EmptyCollection (Registry κ ν) := ⟨empty⟩
instance : Inhabited (Registry κ ν) := ⟨empty⟩

/-- A registry after a change, what the change returned, and the notices it gave, oldest first. -/
structure Change (κ ν α : Type) where
  registry : Registry κ ν
  result : α
  notices : List (Notice κ ν)

def size (r : Registry κ ν) : Nat := r.table.size

def isEmpty (r : Registry κ ν) : Bool := r.table.isEmpty

def keys (r : Registry κ ν) : List κ := r.table.keys

def entries (r : Registry κ ν) : List (κ × ν) := r.table.entries

variable [DecidableEq κ]

def get? (r : Registry κ ν) (k : κ) : Option ν := r.table.get? k

def contains (r : Registry κ ν) (k : κ) : Bool := r.table.contains k

/-- Changes the value under a key in place, without notice. -/
def modify (r : Registry κ ν) (k : κ) (f : ν → ν) : Registry κ ν := ⟨r.table.modify k f⟩

def mapValues (r : Registry κ ν) (f : κ → ν → ν) : Registry κ ν := ⟨r.table.map f⟩

def unregister (r : Registry κ ν) (k : κ) : Change κ ν (Option ν) :=
  match r.get? k with
  | none => ⟨r, none, []⟩
  | some v => ⟨⟨r.table.erase k⟩, some v, [.unregistered k v]⟩

/-- Puts a value under a key and returns the value it replaces. -/
def register (r : Registry κ ν) (k : κ) (v : ν) : Change κ ν (Option ν) :=
  let removed := r.unregister k
  ⟨⟨removed.registry.table.insert k v⟩, removed.result, removed.notices ++ [.registered k v]⟩

/-- Removes the entries under the keys, one after the other, and returns those there were. -/
def unregisterAll (r : Registry κ ν) : List κ → Change κ ν (List (κ × ν))
  | [] => ⟨r, [], []⟩
  | k :: ks =>
    let first := r.unregister k
    let others := first.registry.unregisterAll ks
    ⟨others.registry, (first.result.map fun v => (k, v)).toList ++ others.result,
      first.notices ++ others.notices⟩

def unregisterWhere (r : Registry κ ν) (p : κ → ν → Bool) : Change κ ν (List (κ × ν)) :=
  r.unregisterAll (r.table.filter p).keys

theorem get?_modify (r : Registry κ ν) (k x : κ) (f : ν → ν) :
    (r.modify k f).get? x = if x = k then (r.get? x).map f else r.get? x :=
  r.table.get?_modify k x f

theorem get?_unregister (r : Registry κ ν) (k x : κ) :
    (r.unregister k).registry.get? x = if x = k then none else r.get? x := by
  unfold unregister
  cases h : r.get? k with
  | none => by_cases hx : x = k <;> simp [hx, h]
  | some v => exact r.table.get?_erase k x

theorem get?_register (r : Registry κ ν) (k x : κ) (v : ν) :
    (r.register k v).registry.get? x = if x = k then some v else r.get? x := by
  have h := r.get?_unregister k x
  simp only [register, get?, Table.get?_insert] at h ⊢
  by_cases hx : x = k <;> simp_all

/-- After the removal of some keys, what is left is what was under the others. -/
theorem get?_unregisterAll (r : Registry κ ν) (ks : List κ) (x : κ) :
    (r.unregisterAll ks).registry.get? x = if x ∈ ks then none else r.get? x := by
  induction ks generalizing r with
  | nil => simp [unregisterAll]
  | cons k ks ih =>
    simp only [unregisterAll, ih, get?_unregister, List.mem_cons]
    by_cases hx : x = k <;> by_cases hm : x ∈ ks <;> simp [hx, hm]

/-- After the removal of the entries that satisfy `p`, what is left is the others. -/
theorem get?_unregisterWhere (r : Registry κ ν) (p : κ → ν → Bool) (x : κ) :
    (r.unregisterWhere p).registry.get? x = (r.get? x).filter fun v => !p x v := by
  have h : x ∈ (r.table.filter p).keys ↔ ∃ v, (r.get? x).filter (p x) = some v := by
    rw [Table.mem_keys, Table.get?_filter]
    rfl
  rw [unregisterWhere, get?_unregisterAll]
  cases hx : r.get? x with
  | none => simp
  | some v => by_cases hp : p x v <;> simp [h, hx, hp, Option.filter]

end Registry

end Interdomain
