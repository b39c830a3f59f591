import Interdomain.Text.Split

/-! Targets of requests for a status report. A target is a path with an optional query, alone or after a scheme
and an authority; an authority alone, and the target `*`, have a path that nothing is found at. A fragment is
no part of either. -/
namespace Interdomain.Status

structure Target where
  path : String
  query : String
  deriving Repr, DecidableEq

def isAuthorityChar (c : Char) : Bool := c.isAlphanum || c ∈ "!$&'()*+,-.;=_~".toList

/-- An authority as far as it has been read: a user before the last `@`, and a host, perhaps an address in brackets,
with an optional port. Colons and percent signs count from the last `@` or `]`. -/
structure Authority where
  colons : Nat := 0
  percent : Bool := false
  opened : Bool := false
  closed : Bool := false
  /-- Nothing has been read after an `@`. -/
  hostless : Bool := false
  deriving Repr, DecidableEq

namespace Authority

/-- The most colons between one `@` or `]` and the next. -/
def maxColons : Nat := 8

/-- The authority after one more character. There is one pair of brackets, and no percent sign before it. -/
def next? (a : Authority) (c : Char) : Option Authority :=
  if c = '@' then some { a with colons := 0, percent := false, hostless := true }
  else
    let a := { a with hostless := false }
    if c = ':' then if a.colons < maxColons then some { a with colons := a.colons + 1 } else none
    else if c = '%' then some { a with percent := true }
    else if c = '[' then if a.opened || a.percent then none else some { a with opened := true }
    else if c = ']' then
      if a.opened && !a.closed then some { a with closed := true, colons := 0, percent := false } else none
    else if isAuthorityChar c then some a
    else none

/-- It may end here: brackets are closed, and a host has one port at most and no percent sign. -/
def isComplete (a : Authority) : Bool := a.opened = a.closed && a.colons ≤ 1 && !a.percent && !a.hostless

/-- The text is an authority; so is the empty one. -/
def accepts (cs : List Char) : Bool := (cs.foldlM next? {}).any isComplete

end Authority

namespace Target

/-- Neither a blank nor a control character. -/
def isVisible (c : Char) : Bool := 0x20 < c.toNat && c.toNat ≠ 0x7F

/-- The characters of a query: those of ASCII but for a few, and all characters beyond it. -/
def isQueryChar (c : Char) : Bool := isVisible c && c ∉ "\"#<>".toList

def isPathChar (c : Char) : Bool := isVisible c && c ∉ "#<>?".toList && c.toNat ≠ 0x60

def isSchemeChar (c : Char) : Bool := c.isAlphanum || c ∈ "+-.~".toList

def endsAuthority (c : Char) : Bool := c = '/' || c = '?' || c = '#'

/-- A path with an optional query, and perhaps a fragment after them. -/
def ofPath? (cs : List Char) : Option Target :=
  let shown := cs.takeWhile (· ≠ '#')
  let (path, query) := (Text.splitFirst '?' shown).getD (shown, [])
  if path.all isPathChar && query.all isQueryChar then some ⟨String.ofList path, String.ofList query⟩
  else none

def splitScheme? (cs : List Char) : Option (List Char × List Char) :=
  match cs.dropWhile isSchemeChar with
  | ':' :: '/' :: '/' :: rest => some (cs.takeWhile isSchemeChar, rest)
  | _ => none

def maxScheme : Nat := 64

/-- A target after a scheme: an authority, which is not left out, and a path, which is `/` if it is. -/
def ofAuthority? (cs : List Char) : Option Target :=
  let authority := cs.takeWhile fun c => !endsAuthority c
  if authority ≠ [] ∧ Authority.accepts authority then
    (ofPath? (cs.dropWhile fun c => !endsAuthority c)).map fun t =>
      { t with path := if t.path = "" then "/" else t.path }
  else none

/-- The longest target, in bytes. -/
def maxBytes : Nat := 65534

def parse? (s : String) : Option Target :=
  if s.utf8ByteSize > maxBytes then none
  else match s.toList with
    | [] => none
    | ['*'] => some ⟨"*", ""⟩
    | '/' :: rest => ofPath? ('/' :: rest)
    | cs =>
      match splitScheme? cs with
      | some (scheme, rest) => if scheme.length ≤ maxScheme then ofAuthority? rest else none
      | none => if Authority.accepts cs then some ⟨"", ""⟩ else none

example : ["a:b@[::1]:80", "a@", "::1", "a%41"].map (fun s => Authority.accepts s.toList) =
    [true, false, false, false] := by decide

end Target

end Interdomain.Status
