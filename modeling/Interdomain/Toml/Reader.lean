import Interdomain.Toml.Document
import Interdomain.Toml.Quoted
import Interdomain.Toml.Scalar

/-! Reading a TOML document. Every reader takes the characters from where it stands and returns what it read
and the characters after it. Arrays and inline tables are nested to a limited depth, and loops go on only
with fewer characters than they began with. -/
namespace Interdomain.Toml

abbrev Read (α : Type) := List Char → Option (α × List Char)

/-- Arrays and inline tables may be nested this deep, and a dotted key may have this many parts. -/
def maxDepth : Nat := 79

def isBlank (c : Char) : Bool := c = ' ' || c = '\t'

def skipBlanks (cs : List Char) : List Char := cs.dropWhile isBlank

/-- The characters after blanks, line ends and comments, which a line end must follow. -/
def skipLayout (inComment : Bool) : List Char → Option (List Char)
  | '\n' :: rest => skipLayout false rest
  | '\r' :: '\n' :: rest => skipLayout false rest
  | c :: rest =>
    if inComment then (if isTextChar c then skipLayout true rest else none)
    else if isBlank c then skipLayout false rest
    else if c = '#' then skipLayout true rest
    else if c = '\r' then none
    else some (c :: rest)
  | [] => if inComment then none else some []

def skipComment : List Char → List Char
  | '#' :: rest => rest.dropWhile isTextChar
  | cs => cs

/-- What follows the end of a line that has nothing left but blanks and a comment. -/
def endLine? (cs : List Char) : Option (List Char) :=
  match skipComment (skipBlanks cs) with
  | [] => some []
  | '\n' :: rest | '\r' :: '\n' :: rest => some rest
  | _ => none

def isKeyChar (c : Char) : Bool :=
  ('a' ≤ c && c ≤ 'z') || ('A' ≤ c && c ≤ 'Z') || ('0' ≤ c && c ≤ '9') || c = '-' || c = '_'

/-- A quoted text of one line, or a key without quotes. -/
def simpleKey : Read String := fun cs =>
  match cs with
  | '"' :: rest => (basicText? rest).map fun s => (String.ofList s.1, s.2)
  | '\'' :: rest => (literalText? rest).map fun s => (String.ofList s.1, s.2)
  | _ =>
    let name := cs.takeWhile isKeyChar
    if name.isEmpty then none else some (String.ofList name, cs.dropWhile isKeyChar)

/-- A key of at most so many parts: the parts before the last one, and the last one. -/
def dottedKey : Nat → Read (List String × String)
  | 0, _ => none
  | parts + 1, cs => do
    let (first, rest) ← simpleKey (skipBlanks cs)
    match skipBlanks rest with
    | '.' :: rest => do
      let ((path, key), rest) ← dottedKey parts rest
      some ((first :: path, key), rest)
    | rest => some (([], first), rest)

def assignment (value : Read Value) : Read (List String × String × Value) := fun cs => do
  let ((path, key), rest) ← dottedKey maxDepth cs
  match rest with
  | '=' :: rest => do
    let (v, rest) ← value (skipBlanks rest)
    some ((path, key, v), skipBlanks rest)
  | _ => none

/-- The items of an array up to its closing bracket; a comma may follow the last one. -/
def arrayItems (value : Read Value) (cs : List Char) : Option (List Value × List Char) := do
  match ← skipLayout false cs with
  | ']' :: rest => some ([], rest)
  | start => do
    let (v, rest) ← value start
    match ← skipLayout false rest with
    | ']' :: rest => some ([v], rest)
    | ',' :: rest =>
      if _h : rest.length < cs.length then do
        let (vs, rest) ← arrayItems value rest
        some (v :: vs, rest)
      else none
    | _ => none
termination_by cs.length

/-- The assignments of an inline table up to its closing brace, of which there is at least one. -/
def inlineItems (value : Read Value) (cs : List Char) :
    Option (List (List String × String × Value) × List Char) := do
  let (a, rest) ← assignment value cs
  match rest with
  | '}' :: rest => some ([a], rest)
  | ',' :: rest =>
    if _h : rest.length < cs.length then do
      let (as, rest) ← inlineItems value rest
      some (a :: as, rest)
    else none
  | _ => none
termination_by cs.length

def inlineTable (value : Read Value) : Read Value := fun cs =>
  match skipBlanks cs with
  | '}' :: rest => some (.inlineTable [], rest)
  | start => do
    let (as, rest) ← inlineItems value start
    let es ← inlineEntries as
    some (.inlineTable es, rest)

def isScalarChar (c : Char) : Bool := isKeyChar c || c = '+' || c = '.' || c = ':'

/-- A value without quotes or brackets. A blank may stand between a date and a time. -/
def scalarValue : Read Value := fun cs =>
  let first := cs.takeWhile isScalarChar
  let rest := cs.dropWhile isScalarChar
  match isDate first, rest with
  | true, ' ' :: more =>
    let second := more.takeWhile isScalarChar
    if second.isEmpty then (scalar? first).map (·, rest)
    else (scalar? (first ++ ' ' :: second)).map (·, more.dropWhile isScalarChar)
  | _, _ => (scalar? first).map (·, rest)

/-- A value with arrays and inline tables nested at most so deep. -/
def valueAt : Nat → Read Value
  | depth, '[' :: rest =>
    match depth with
    | 0 => none
    | depth + 1 => (arrayItems (valueAt depth) rest).map fun p => (.array p.1, p.2)
  | depth, '{' :: rest =>
    match depth with
    | 0 => none
    | depth + 1 => inlineTable (valueAt depth) rest
  | _, '"' :: rest => (quoted? ('"' :: rest)).map fun s => (.string (String.ofList s.1), s.2)
  | _, '\'' :: rest => (quoted? ('\'' :: rest)).map fun s => (.string (String.ofList s.1), s.2)
  | _, cs => scalarValue cs

def arrayHeader : Read Line := fun cs => do
  let ((path, key), rest) ← dottedKey maxDepth cs
  match rest with
  | ']' :: ']' :: rest => some (.arrayHeader path key, rest)
  | _ => none

def header : Read Line := fun cs => do
  let ((path, key), rest) ← dottedKey maxDepth cs
  match rest with
  | ']' :: rest => some (.header path key, rest)
  | _ => none

/-- A line that begins with a character other than a blank, with its end; comments and empty lines mean
nothing. -/
def line : Read (Option Line) := fun cs =>
  match cs with
  | '[' :: '[' :: rest => do
    let (l, rest) ← arrayHeader rest
    (endLine? rest).map (some l, ·)
  | '[' :: rest => do
    let (l, rest) ← header rest
    (endLine? rest).map (some l, ·)
  | '#' :: _ | '\n' :: _ | '\r' :: _ => (endLine? cs).map (none, ·)
  | _ => do
    let ((path, key, v), rest) ← assignment (valueAt maxDepth) cs
    (endLine? rest).map (some (.assignment path key v), ·)

def readLines (d : Document) (cs : List Char) : Option Document := do
  match skipBlanks cs with
  | [] => some d
  | start => do
    let (l, rest) ← line start
    let next ← match l with
      | some l => d.add l
      | none => some d
    if _h : rest.length < cs.length then readLines next rest else none
termination_by cs.length

/-- The entries of a document; a byte order mark may stand in front. -/
def parse? (s : String) : Option Entries :=
  let cs := match s.toList with
    | c :: rest => if c.toNat = 0xFEFF then rest else c :: rest
    | [] => []
  (readLines {} cs).map (·.entries)

end Interdomain.Toml
