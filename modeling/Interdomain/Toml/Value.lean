/-! Values of TOML. A table remembers how it was written, because that decides whether later lines of the
document may add to it. -/
namespace Interdomain.Toml

/-- How a table came to be. -/
inductive Origin where
  /-- By a header of its own, or as the document. -/
  | header
  /-- By a header of a table inside it. -/
  | implied
  /-- By a dotted key. -/
  | dotted
  deriving Repr, DecidableEq

inductive Value where
  | string (text : String)
  | integer (number : Int)
  /-- A number that is no integer, as it was written. -/
  | float (text : String)
  | boolean (truth : Bool)
  /-- A date, a time or both, as it was written. -/
  | datetime (text : String)
  /-- An array that was written as one. -/
  | array (items : List Value)
  /-- An array of the tables that headers in double brackets opened, oldest first. -/
  | tables (items : List Value)
  | table (origin : Origin) (entries : List (String × Value))
  /-- A table that was written as one; nothing is ever added to it. -/
  | inlineTable (entries : List (String × Value))
  deriving Repr

/-- The entries of a table, in the order of their keys' first appearance. -/
abbrev Entries := List (String × Value)

def Entries.get? (es : Entries) (key : String) : Option Value :=
  (es.find? (·.1 = key)).map (·.2)

def Entries.replace (es : Entries) (key : String) (v : Value) : Entries :=
  es.map fun e => if e.1 = key then (key, v) else e

/-- The items of an array, however it was written. -/
def Value.items? : Value → Option (List Value)
  | array items | tables items => some items
  | _ => none

/-- The entries of a table, however it was written. -/
def Value.entries? : Value → Option Entries
  | table _ entries | inlineTable entries => some entries
  | _ => none

end Interdomain.Toml
