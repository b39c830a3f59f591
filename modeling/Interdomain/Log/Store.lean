import Interdomain.Effect
import Interdomain.Log.Migration
import Interdomain.Log.Selection
import Interdomain.Log.Timestamp
import Interdomain.Text.Decimal
import Interdomain.Text.Lowercase

/-! The accounting log: one row for each authorization that ended, numbered from one in the order in which
they were written. A query returns the rows that meet all of its criteria, the newest first. -/
namespace Interdomain.Log

/-- The table of rows, oldest first, once there is one, and the names of its indexes. -/
structure Content where
  table : Option (List Row) := none
  indexes : List String := []
  deriving Repr, DecidableEq

abbrev Store := Database Content

def createTable : Statement Content := fun c => some { c with table := some (c.table.getD []) }

def createIndex (name : String) : Statement Content := fun c =>
  c.table.map fun _ => { c with indexes := c.indexes.insert name }

def migrations : List (Migration Content) := [
  ⟨"000_connection_log", [createTable]⟩,
  ⟨"001_connection_log_indexes",
    [createIndex "idx_connection_log_peer", createIndex "idx_connection_log_direction"]⟩]

inductive StoreError where
  | database
  /-- The direction of a row is none. -/
  | corruptRow (id : Nat) (cause : Malformed)
  deriving Repr, DecidableEq

def StoreError.message : StoreError → String
  | database => "accounting database error"
  | corruptRow id cause => "corrupt accounting row " ++ Nat.repr id ++ ": " ++ cause.message

def Store.empty : Store := ⟨{}, none⟩

/-- Writes a row under the next number, and returns the number. -/
def Store.append (s : Store) (row : Nat → Row) : Except StoreError (Store × Nat) :=
  match s.content.table with
  | none => .error .database
  | some rows =>
    let id := rows.length + 1
    .ok ({ s with content.table := some (rows ++ [row id]) }, id)

def Store.insertUnchecked (s : Store) (peer direction closedAt : String) :
    Except StoreError (Store × Nat) :=
  s.append fun id => ⟨id, peer, direction, 0, none, 0, closedAt⟩

/-- Writes a row, which must have one of the two directions. -/
def Store.insert (s : Store) (peer direction closedAt : String) : Except StoreError (Store × Nat) :=
  match Policy.Direction.parse direction with
  | .ok _ => s.insertUnchecked peer direction closedAt
  | .error _ => .error .database

/-- A number as it is stored: at most the largest signed number of sixty-four bits. -/
def clamp (n : Nat) : Nat := min n (Nat.pow 2 63 - 1)

/-- Writes the account of an authorization that ended at an instant, given in seconds since the beginning
of 1970. -/
def Store.record (s : Store) (a : Account) (closed : Nat) : Except StoreError (Store × Nat) :=
  s.append fun id =>
    ⟨id, a.peer, a.direction.toString, clamp a.stanzas, a.address, clamp (a.duration / 1000),
      timestamp closed⟩

/-- The criteria of a query; those that are absent hold of every row. -/
structure Filter where
  peer : Option String := none
  direction : Option Policy.Direction := none
  since : Option String := none
  /-- At most so many rows; any number if it is negative, and a hundred if it is absent. -/
  limit : Option Int := none
  deriving Repr, DecidableEq

structure Entry where
  id : Nat
  peer : String
  direction : Policy.Direction
  stanzas : Nat
  address : Option String
  seconds : Nat
  closedAt : String
  deriving Repr, DecidableEq

def defaultLimit : Int := 100

/-- The criteria that are given, each with its value. -/
def Filter.draft (f : Filter) : Draft :=
  let byPeer := ({} : Draft).compare .peer .equal (f.peer.map Text.lowercase)
  let byDirection := byPeer.compare .direction .equal (f.direction.map Policy.Direction.toString)
  byDirection.compare .closedAt .atLeast f.since

def Filter.selection (f : Filter) : Selection × List Parameter :=
  f.draft.finish (f.limit.getD defaultLimit)

def Row.entry (r : Row) : Except StoreError Entry :=
  match Policy.Direction.parse r.direction with
  | .ok direction =>
    .ok ⟨r.id, r.peer, direction, r.stanzas, r.address, r.seconds, r.closedAt⟩
  | .error cause => .error (.corruptRow r.id cause)

/-- The entries of the rows, unless one of them is corrupt. -/
def entries : List Row → Except StoreError (List Entry)
  | [] => .ok []
  | r :: rows =>
    match r.entry with
    | .error e => .error e
    | .ok entry =>
      match entries rows with
      | .error e => .error e
      | .ok rest => .ok (entry :: rest)

/-- The rows that meet the criteria, the newest first. -/
def Store.query (s : Store) (f : Filter) : Except StoreError (List Entry) :=
  match s.content.table with
  | none => .error .database
  | some rows =>
    let (selection, given) := f.selection
    match selection.run given rows with
    | none => .error .database
    | some found => entries found

def Store.upgrade (s : Store) : MigrationRun Content := migrate noOutages migrations s

end Interdomain.Log
