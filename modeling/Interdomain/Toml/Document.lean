import Interdomain.Toml.Value

/-! How the lines of a document build up its tables. A header may open each table only once, but may give a
table of its own to one that the headers inside it had implied; a key may be given a value only once; and
a dotted key may add only to tables that dotted keys made. -/
namespace Interdomain.Toml

inductive Line where
  | header (path : List String) (key : String)
  | arrayHeader (path : List String) (key : String)
  | assignment (path : List String) (key : String) (value : Value)
  deriving Repr

/-- Changes the table at the end of a path of headers; tables on the way that are not there are implied, and
the way through an array of tables leads to its last one. -/
def descend (change : Entries → Option Entries) : List String → Entries → Option Entries
  | [], es => change es
  | k :: path, es =>
    match es.get? k with
    | none => (descend change path []).map fun sub => es ++ [(k, .table .implied sub)]
    | some (.table origin sub) =>
      (descend change path sub).map fun sub => es.replace k (.table origin sub)
    | some (.tables items) =>
      match items.getLast? with
      | some (.table origin sub) =>
        (descend change path sub).map fun sub =>
          es.replace k (.tables (items.dropLast ++ [.table origin sub]))
      | _ => none
    | some _ => none

/-- Opens the table under a key by a header. -/
def openTable (key : String) (es : Entries) : Option Entries :=
  match es.get? key with
  | none => some (es ++ [(key, .table .header [])])
  | some (.table .implied sub) => some (es.replace key (.table .header sub))
  | some _ => none

/-- Opens another table of the array under a key by a header. -/
def openItem (key : String) (es : Entries) : Option Entries :=
  match es.get? key with
  | none => some (es ++ [(key, .tables [.table .header []])])
  | some (.tables items) => some (es.replace key (.tables (items ++ [.table .header []])))
  | some _ => none

def assignKey (key : String) (v : Value) (es : Entries) : Option Entries :=
  match es.get? key with
  | none => some (es ++ [(key, v)])
  | some _ => none

/-- Puts a value under a dotted key. The last table on the way must be one that dotted keys made. -/
def assign (key : String) (v : Value) : List String → Entries → Option Entries
  | [], es => assignKey key v es
  | k :: path, es =>
    match es.get? k with
    | none => (assign key v path []).map fun sub => es ++ [(k, .table .dotted sub)]
    | some (.table .dotted sub) =>
      (assign key v path sub).map fun sub => es.replace k (.table .dotted sub)
    | some (.table .implied sub) =>
      if path.isEmpty then none
      else (assign key v path sub).map fun sub => es.replace k (.table .implied sub)
    | some (.tables items) =>
      match items.getLast? with
      | some (.table origin sub) =>
        if path.isEmpty then none
        else (assign key v path sub).map fun sub =>
          es.replace k (.tables (items.dropLast ++ [.table origin sub]))
      | _ => none
    | some _ => none

/-- A document under construction: all tables, and the path of the one that assignments go to. -/
structure Document where
  entries : Entries := []
  current : List String := []

def Document.add (d : Document) : Line → Option Document
  | .header path key =>
    (descend (openTable key) path d.entries).map fun es => ⟨es, path ++ [key]⟩
  | .arrayHeader path key =>
    (descend (openItem key) path d.entries).map fun es => ⟨es, path ++ [key]⟩
  | .assignment path key value =>
    (descend (assign key value path) d.current d.entries).map fun es => { d with entries := es }

def inlineEntries (assignments : List (List String × String × Value)) : Option Entries :=
  assignments.foldlM (fun es a => assign a.2.1 a.2.2 a.1 es) []

end Interdomain.Toml
