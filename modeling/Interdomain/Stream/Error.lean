import Interdomain.Malformed
import Interdomain.Xml.Render

/-! Stream errors: a defined condition with an optional text. An error is written as an element with one
child for the condition and one for the text, and read back from such an element. -/
namespace Interdomain.Stream

inductive Condition where
  | badFormat
  | badNamespacePrefix
  | conflict
  | connectionTimeout
  | hostGone
  | hostUnknown
  | improperAddressing
  | internalServerError
  | invalidFrom
  | invalidId
  | invalidNamespace
  | invalidXml
  | notAuthorized
  | policyViolation
  | remoteConnectionFailed
  | resourceConstraint
  | restrictedXml
  | seeOtherHost
  | systemShutdown
  | undefinedCondition
  | unsupportedEncoding
  | unsupportedStanzaType
  | unsupportedVersion
  | xmlNotWellFormed
  deriving Repr, DecidableEq

/-- How alarming an error that a peer sent is. -/
inductive Severity where
  /-- Ordinary shutdowns and timeouts. -/
  | normal
  /-- A fault in the names or addresses that one side was set up with. -/
  | configuration
  /-- One side lacks something that the other needs. -/
  | missingFeature
  | error
  deriving Repr, DecidableEq

namespace Condition

def name : Condition → String
  | badFormat => "bad-format"
  | badNamespacePrefix => "bad-namespace-prefix"
  | conflict => "conflict"
  | connectionTimeout => "connection-timeout"
  | hostGone => "host-gone"
  | hostUnknown => "host-unknown"
  | improperAddressing => "improper-addressing"
  | internalServerError => "internal-server-error"
  | invalidFrom => "invalid-from"
  | invalidId => "invalid-id"
  | invalidNamespace => "invalid-namespace"
  | invalidXml => "invalid-xml"
  | notAuthorized => "not-authorized"
  | policyViolation => "policy-violation"
  | remoteConnectionFailed => "remote-connection-failed"
  | resourceConstraint => "resource-constraint"
  | restrictedXml => "restricted-xml"
  | seeOtherHost => "see-other-host"
  | systemShutdown => "system-shutdown"
  | undefinedCondition => "undefined-condition"
  | unsupportedEncoding => "unsupported-encoding"
  | unsupportedStanzaType => "unsupported-stanza-type"
  | unsupportedVersion => "unsupported-version"
  | xmlNotWellFormed => "xml-not-well-formed"

def all : List Condition := [
  .badFormat, .badNamespacePrefix, .conflict, .connectionTimeout, .hostGone, .hostUnknown,
  .improperAddressing, .internalServerError, .invalidFrom, .invalidId, .invalidNamespace,
  .invalidXml, .notAuthorized, .policyViolation, .remoteConnectionFailed, .resourceConstraint,
  .restrictedXml, .seeOtherHost, .systemShutdown, .undefinedCondition, .unsupportedEncoding,
  .unsupportedStanzaType, .unsupportedVersion, .xmlNotWellFormed]

def ofName? (s : String) : Option Condition := all.find? (·.name = s)

def parse (s : String) : Except Malformed Condition :=
  match ofName? s with
  | some c => .ok c
  | none => .error (.condition s)

def severity : Condition → Severity
  | connectionTimeout | systemShutdown | conflict => .normal
  | hostGone | hostUnknown | improperAddressing | remoteConnectionFailed | seeOtherHost
  | invalidFrom | policyViolation => .configuration
  | unsupportedEncoding | unsupportedStanzaType | unsupportedVersion | invalidNamespace
  | badNamespacePrefix | restrictedXml => .missingFeature
  | _ => .error

@[simp] theorem ofName?_name (c : Condition) : ofName? c.name = some c := by cases c <;> decide

end Condition

structure Error where
  condition : Condition
  text : Option String := none
  deriving Repr, DecidableEq

namespace Error

def toString (e : Error) : String :=
  match e.text with
  | some text => e.condition.name ++ ": " ++ text
  | none => e.condition.name

/-- What one child of an error element adds to what the children before it said: a text, or a condition
that has this name; other children add nothing. -/
def readChild (e : Error) (child : Xml.Element) : Error :=
  if child.ns ≠ Xml.Namespace.streamErrors then e
  else if child.name = "text" then { e with text := some child.text }
  else match Condition.ofName? child.name with
    | some condition => { e with condition }
    | none => e

def ofElement (element : Xml.Element) : Error :=
  element.children.foldl readChild ⟨.undefinedCondition, none⟩

def toElement (e : Error) : Xml.Element :=
  let bare : Xml.Element := { name := "error", ns := Xml.Namespace.stream }
  let named := bare.appendChild { name := e.condition.name, ns := Xml.Namespace.streamErrors }
  match e.text with
  | some text =>
    let child : Xml.Element := { name := "text", ns := Xml.Namespace.streamErrors }
    named.appendChild (child.appendText text)
  | none => named

end Error

end Interdomain.Stream
