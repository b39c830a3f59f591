import Interdomain.Text.Blank
import Interdomain.Text.Decimal
import Interdomain.Text.Split

/-! Lists of addresses to try for a domain. Entries are separated by commas. An entry is a host, a host
with a port, an address in brackets with or without a port, or an address with two or more colons, which
then has no port. Entries of any other form are passed over. -/
namespace Interdomain

structure Candidate where
  host : String
  port : Nat
  deriving Repr, DecidableEq

namespace Candidate

/-- The host and the port; a host with a colon stands in brackets. -/
def toString (c : Candidate) : String :=
  if ':' ∈ c.host.toList then "[" ++ c.host ++ "]:" ++ Nat.repr c.port
  else c.host ++ ":" ++ Nat.repr c.port

/-- A candidate must have a host. -/
def ofHost? (host : List Char) (port : Nat) : Option Candidate :=
  if host = [] then none else some ⟨String.ofList host, port⟩

/-- The port in what follows a bracketed address. -/
def portAfterBracket? (defaultPort : Nat) : List Char → Option Nat
  | [] => some defaultPort
  | ':' :: port => Text.naturalChars? Text.max16 port
  | _ => none

/-- The candidate in an entry without blanks at its ends. -/
def ofEntry? (defaultPort : Nat) : List Char → Option Candidate
  | [] => none
  | '[' :: rest => do
    let (host, tail) ← Text.splitFirst ']' rest
    let port ← portAfterBracket? defaultPort tail
    ofHost? host port
  | entry =>
    if 2 ≤ entry.count ':' then ofHost? entry defaultPort
    else match Text.splitFirst ':' entry with
      | none => ofHost? entry defaultPort
      | some (host, port) => do
        let port ← Text.naturalChars? Text.max16 port
        ofHost? host port

/-- The usable entries of a list, in order. -/
def parseList (defaultPort : Nat) (list : String) : List Candidate :=
  (Text.splitAll ',' list.toList).filterMap fun entry => ofEntry? defaultPort (Text.trimChars entry)

end Candidate

end Interdomain
