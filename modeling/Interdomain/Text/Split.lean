/-! Cutting a text at a separator: at its first occurrence, or at all of them. Joining the pieces with
the separator gives the text back. -/
namespace Interdomain.Text

/-- The characters before and after the first `sep`, if there is one. -/
def splitFirst (sep : Char) : List Char → Option (List Char × List Char)
  | [] => none
  | c :: cs =>
    if c = sep then some ([], cs) else (splitFirst sep cs).map fun p => (c :: p.1, p.2)

/-- The pieces between all occurrences of `sep`; there is always at least one. -/
def splitAll (sep : Char) : List Char → List (List Char)
  | [] => [[]]
  | c :: cs =>
    if c = sep then [] :: splitAll sep cs
    else match splitAll sep cs with
      | [] => [[c]]
      | piece :: pieces => (c :: piece) :: pieces

/-- What `splitFirst` finds is the first occurrence, and nothing is lost. -/
theorem splitFirst_eq_some {sep : Char} {cs a b : List Char} :
    splitFirst sep cs = some (a, b) ↔ cs = a ++ sep :: b ∧ sep ∉ a := by
  induction cs generalizing a with
  | nil => simp [splitFirst]
  | cons c cs ih =>
    by_cases h : c = sep
    · subst h
      cases a with
      | nil => simp [splitFirst, eq_comm]
      | cons x a => simp only [splitFirst, if_true]; grind
    · cases a with
      | nil => simp [splitFirst, h]
      | cons x a =>
        simp only [splitFirst, h, if_false, Option.map_eq_some_iff, Prod.exists, Prod.mk.injEq]
        grind

theorem splitFirst_eq_none {sep : Char} {cs : List Char} :
    splitFirst sep cs = none ↔ sep ∉ cs := by
  induction cs with
  | nil => simp [splitFirst]
  | cons c cs ih =>
    by_cases h : c = sep
    · simp [splitFirst, h]
    · simp [splitFirst, h, ih, Ne.symm h]

end Interdomain.Text
