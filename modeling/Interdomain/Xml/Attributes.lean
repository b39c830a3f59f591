/-! The attributes of an element: values under distinct names, in ascending order of the names. The order
is part of the type, so two equal sets of attributes are the same value however they were built. -/
namespace Interdomain.Xml

/-- The entry list with `value` under `name`. -/
def putEntry (name value : String) : List (String × String) → List (String × String)
  | [] => [(name, value)]
  | e :: es =>
    if name < e.1 then (name, value) :: e :: es
    else if name = e.1 then (name, value) :: es
    else e :: putEntry name value es

theorem mem_putEntry {name value : String} {es : List (String × String)} {e : String × String}
    (h : e ∈ putEntry name value es) : e = (name, value) ∨ e ∈ es := by
  induction es with
  | nil => simpa [putEntry] using h
  | cons x es ih => grind [putEntry]

theorem putEntry_ascending {name value : String} {es : List (String × String)}
    (h : es.Pairwise fun a b => a.1 < b.1) :
    (putEntry name value es).Pairwise fun a b => a.1 < b.1 := by
  induction es with
  | nil => simp [putEntry]
  | cons x es ih =>
    have hx := List.pairwise_cons.1 h
    simp only [putEntry]
    split
    · refine List.pairwise_cons.2 ⟨fun e he => ?_, h⟩
      rcases List.mem_cons.1 he with rfl | he
      · assumption
      · exact String.lt_trans ‹_› (hx.1 e he)
    · split
      · refine List.pairwise_cons.2 ⟨fun e he => ?_, hx.2⟩
        simpa [‹name = x.1›] using hx.1 e he
      · refine List.pairwise_cons.2 ⟨fun e he => ?_, ih hx.2⟩
        rcases mem_putEntry he with rfl | he
        · grind
        · exact hx.1 e he

/-- Attribute values under distinct names. -/
structure Attributes where
  entries : List (String × String)
  ascending : entries.Pairwise fun a b => a.1 < b.1
  deriving DecidableEq, Repr

namespace Attributes

def empty : Attributes := ⟨[], .nil⟩

instance : EmptyCollection Attributes := ⟨empty⟩

def get? (a : Attributes) (name : String) : Option String :=
  (a.entries.find? (·.1 = name)).map (·.2)

def set (a : Attributes) (name value : String) : Attributes :=
  ⟨putEntry name value a.entries, putEntry_ascending a.ascending⟩

def erase (a : Attributes) (name : String) : Attributes :=
  ⟨a.entries.filter (·.1 ≠ name), a.ascending.filter _⟩

theorem get?_set (a : Attributes) (name value x : String) :
    (a.set name value).get? x = if x = name then some value else a.get? x := by
  have ⟨es, h⟩ := a
  simp only [get?, set]
  induction es with
  | nil => by_cases hx : x = name <;> simp [putEntry, hx, eq_comm]
  | cons e es ih => grind [putEntry, List.pairwise_cons]

end Attributes

end Interdomain.Xml
