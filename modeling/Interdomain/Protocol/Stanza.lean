import Interdomain.Jid
import Interdomain.Stream.Error

/-! The addresses of elements. An element that is routed names its recipient and its sender; what is wrong
with one that does not is a fault, which the stream that it came in on is closed for. -/
namespace Interdomain.Protocol

inductive Fault where
  | missingAttribute (name : String)
  | notADomain (name value : String)
  | encoding
  deriving Repr, DecidableEq

namespace Fault

def message : Fault → String
  | missingAttribute name => "missing '" ++ name ++ "' attribute"
  | notADomain name value => "'" ++ name ++ "' is not a server domain: " ++ value
  | encoding => "malformed SASL payload"

def condition : Fault → Stream.Condition
  | missingAttribute _ => .improperAddressing
  | notADomain .. => .improperAddressing
  | encoding => .badFormat

def toError (f : Fault) : Stream.Error := ⟨f.condition, some f.message⟩

end Fault

def addressDomain (e : Xml.Element) (name : String) : Except Fault String :=
  match e.attribute? name with
  | none => .error (.missingAttribute name)
  | some value =>
    match Jid.parse value with
    | .ok jid => .ok jid.domain
    | .error _ => .error (.notADomain name value)

def serverDomain (e : Xml.Element) (name : String) : Except Fault String :=
  match e.attribute? name with
  | none => .error (.missingAttribute name)
  | some value =>
    match Jid.parseDomain value with
    | .ok domain => .ok domain
    | .error _ => .error (.notADomain name value)

structure Addresses where
  recipient : String
  sender : String
  deriving Repr, DecidableEq

/-- The domains between which a stanza is routed. -/
def addresses (e : Xml.Element) : Except Fault Addresses := do
  let recipient ← addressDomain e "to"
  let sender ← addressDomain e "from"
  return { recipient, sender }

end Interdomain.Protocol
