/-! Rows of the accounting log, and prepared queries of them. The text of a query has numbered places for values,
and the values are given apart from the text, so what a condition means depends on which of them stands at its
place. -/
namespace Interdomain.Log

/-- A row as it is stored; the direction is a text that other programs may have written. -/
structure Row where
  id : Nat
  peer : String
  direction : String
  stanzas : Nat
  address : Option String
  seconds : Nat
  closedAt : String
  deriving Repr, DecidableEq

/-- The columns that a condition can be about, all of them texts. -/
inductive Column where
  | peer
  | direction
  | closedAt
  deriving Repr, DecidableEq

namespace Column

def name : Column → String
  | peer => "peer_domain"
  | direction => "direction"
  | closedAt => "closed_at"

def read (r : Row) : Column → String
  | peer => r.peer
  | direction => r.direction
  | closedAt => r.closedAt

end Column

inductive Comparison where
  | equal
  | atLeast
  deriving Repr, DecidableEq

def textBytes (s : String) : List UInt8 := s.toUTF8.data.toList

namespace Comparison

def symbol : Comparison → String
  | equal => "="
  | atLeast => ">="

/-- Texts are compared byte by byte. -/
def holds (stored given : String) : Comparison → Bool
  | equal => stored = given
  | atLeast => textBytes given ≤ textBytes stored

@[simp] theorem holds_equal (stored given : String) : equal.holds stored given = true ↔ stored = given :=
  decide_eq_true_iff

@[simp] theorem holds_atLeast (stored given : String) :
    atLeast.holds stored given = true ↔ textBytes given ≤ textBytes stored := decide_eq_true_iff

end Comparison

/-- A value that is given with a query. -/
inductive Parameter where
  | text (value : String)
  | integer (value : Int)
  deriving Repr, DecidableEq

/-- What a column of texts is compared with; a number is compared as its digits. -/
def Parameter.asText : Parameter → String
  | text value => value
  | integer value => toString value

/-- The value at a place; places are counted from one. -/
def valueAt? (given : List Parameter) : Nat → Option Parameter
  | 0 => none
  | place + 1 => given[place]?

inductive Condition where
  | always
  | compares (column : Column) (comparison : Comparison) (place : Nat)
  deriving Repr, DecidableEq

def placeText (place : Nat) : String := "?" ++ Nat.repr place

namespace Condition

def text : Condition → String
  | always => "1 = 1"
  | compares column comparison place => column.name ++ " " ++ comparison.symbol ++ " " ++ placeText place

def place? : Condition → Option Nat
  | always => none
  | compares _ _ place => some place

/-- A condition on a place without a value does not hold. -/
def holds (given : List Parameter) (r : Row) : Condition → Bool
  | always => true
  | compares column comparison place =>
    match valueAt? given place with
    | some value => comparison.holds (column.read r) value.asText
    | none => false

end Condition

/-- A query of the rows that meet all conditions, the one with the largest number first; the limit stands at a
place of its own. -/
structure Selection where
  conditions : List Condition
  limit : Nat
  deriving Repr, DecidableEq

namespace Selection

def text (q : Selection) : String :=
  "SELECT id, peer_domain, direction, stanza_count, peer_ip, duration_secs, closed_at\n" ++
  "         FROM connection_log\n" ++
  "         WHERE " ++ " AND ".intercalate (q.conditions.map Condition.text) ++ "\n" ++
  "         ORDER BY id DESC\n" ++
  "         LIMIT " ++ placeText q.limit

def places (q : Selection) : List Nat := q.conditions.filterMap Condition.place? ++ [q.limit]

/-- How many values the query takes, which is the number of its last place. -/
def arity (q : Selection) : Nat := q.places.foldl max 0

/-- The first so many; all of them if the limit is negative. -/
def cut {α : Type} (limit : Int) (found : List α) : List α :=
  if limit < 0 then found else found.take limit.toNat

/-- The rows that the query finds with these values. It fails if there are too many or too few of them, or if the
limit is no number. -/
def run (q : Selection) (given : List Parameter) (rows : List Row) : Option (List Row) :=
  if given.length = q.arity then
    match valueAt? given q.limit with
    | some (.integer limit) =>
      let met := rows.filter fun r => q.conditions.all (·.holds given r)
      some (cut limit (met.mergeSort fun a b => b.id ≤ a.id))
    | _ => none
  else none

end Selection

/-- A query that is being put together with its values; the number of the next place is counted along. -/
structure Draft where
  conditions : List Condition := [.always]
  given : List Parameter := []
  next : Nat := 1
  deriving Repr, DecidableEq

namespace Draft

/-- Adds a condition, with the value it compares a column with, if there is a value. -/
def compare (d : Draft) (column : Column) (comparison : Comparison) : Option String → Draft
  | none => d
  | some value =>
    ⟨d.conditions ++ [.compares column comparison d.next], d.given ++ [.text value], d.next + 1⟩

def finish (d : Draft) (limit : Int) : Selection × List Parameter :=
  (⟨d.conditions, d.next⟩, d.given ++ [.integer limit])

end Draft

end Interdomain.Log
