import Interdomain.Malformed
import Interdomain.Text.Blank
import Interdomain.Text.Lowercase
import Interdomain.Text.Split

/-! Jabber identifiers `node@domain/resource`. The resource begins after the first slash and the node
ends at the first at-sign before it; either may be absent, but not empty. The domain is kept in lowercase
and without trailing dots. -/
namespace Interdomain

/-- An address; a server's own address is a domain alone. -/
structure Jid where
  node : Option String := none
  domain : String
  resource : Option String := none
  deriving Repr, DecidableEq

namespace Jid

def maxDomainBytes : Nat := 1023

/-- The characters, apart from blanks, that no domain contains. -/
def forbidden : List Char := ['@', '/', '<', '>', '\'', '"']

/-- The characters are those of a domain before it is put into lowercase. -/
def isDomain (cs : List Char) : Bool :=
  cs ≠ [] && (String.ofList cs).utf8ByteSize ≤ maxDomainBytes &&
    cs.all fun c => !Text.isBlank c && c ∉ forbidden

/-- The normal form of a domain, if the characters are a domain with any number of dots after it. -/
def normalDomain? (cs : List Char) : Option String :=
  let bare := Text.dropEndWhile (· = '.') cs
  if isDomain bare then some (Text.lowercase (String.ofList bare)) else none

/-- The part before the separator, which must not be empty, and the rest; or all is the rest. -/
def splitNode? (cs : List Char) : Option (Option String × List Char) :=
  match Text.splitFirst '@' cs with
  | none => some (none, cs)
  | some ([], _) => none
  | some (node, rest) => some (some (String.ofList node), rest)

/-- The part after the separator, which must not be empty, and what is before it. -/
def splitResource? (cs : List Char) : Option (List Char × Option String) :=
  match Text.splitFirst '/' cs with
  | none => some (cs, none)
  | some (_, []) => none
  | some (bare, resource) => some (bare, some (String.ofList resource))

def ofChars? (cs : List Char) : Option Jid := do
  let (bare, resource) ← splitResource? cs
  let (node, rest) ← splitNode? bare
  let domain ← normalDomain? rest
  some ⟨node, domain, resource⟩

def parse (s : String) : Except Malformed Jid :=
  match ofChars? s.toList with
  | some jid => .ok jid
  | none => .error (.jid s)

def isServer (j : Jid) : Bool := j.node.isNone && j.resource.isNone

/-- The domain of a text that is a server's address. -/
def parseDomain (s : String) : Except Malformed String :=
  match ofChars? s.toList with
  | some jid => if jid.isServer then .ok jid.domain else .error (.jid s)
  | none => .error (.jid s)

def domain? (s : String) : Option String := (parseDomain s).toOption

def toString (j : Jid) : String :=
  (match j.node with
    | some node => node ++ "@"
    | none => "") ++ j.domain ++
  (match j.resource with
    | some resource => "/" ++ resource
    | none => "")

end Jid

end Interdomain
