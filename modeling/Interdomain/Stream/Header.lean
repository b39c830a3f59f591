import Interdomain.Xml.Render
import Interdomain.Text.Blank
import Interdomain.Text.Decimal
import Interdomain.Text.Split

/-! Stream headers: the opening tag of a stream with its addresses, id and version. -/
namespace Interdomain.Stream

structure Header where
  recipient : Option String := none
  sender : Option String := none
  id : Option String := none
  version : Option String := none
  ns : String := Xml.Namespace.server
  dialback : Option String := none
  loopToken : Option String := none
  deriving Repr, DecidableEq

namespace Header

/-- The header binds a prefix to the namespace of dialback. -/
def declaresDialback (h : Header) : Bool := h.dialback.isSome

/-- The number before the first point of a version, or zero if it is not one. -/
def majorOf (version : String) : Nat :=
  let first := match Text.splitFirst '.' version.toList with
    | some (first, _) => first
    | none => version.toList
  (Text.naturalChars? Text.max32 (Text.trimChars first)).getD 0

/-- The major version; streams from before there were versions have version zero. -/
def majorVersion (h : Header) : Nat := (h.version.map majorOf).getD 0

def renderOptional (name : String) : Option String → List Char
  | some value => Xml.renderAttribute name value
  | none => []

/-- The token by which a server recognises itself, with the prefix it needs. -/
def renderLoopToken : Option String → List Char
  | some token =>
    Xml.renderAttribute "xmlns:loop" Xml.Namespace.loopcheck ++ Xml.renderAttribute "loop:check" token
  | none => []

def render (h : Header) : String :=
  String.ofList <|
    "<?xml version='1.0'?><stream:stream".toList ++
    Xml.renderAttribute "xmlns:stream" Xml.Namespace.stream ++
    Xml.renderAttribute "xmlns" h.ns ++
    renderOptional "xmlns:db" h.dialback ++
    renderOptional "to" h.recipient ++
    renderOptional "from" h.sender ++
    renderOptional "id" h.id ++
    renderOptional "version" h.version ++
    renderLoopToken h.loopToken ++ ['>']

end Header

end Interdomain.Stream
