import Interdomain.Protocol.Stanza

/-! The messages of server dialback. A result asks a server to accept a pair of domains and shows it a key;
a verify asks the server of a domain whether a key is one of its own. The answer to each has a type. -/
namespace Interdomain.Protocol

/-- A result or verify element that was received. -/
structure Dialback where
  recipient : String
  sender : String
  id : Option String
  /-- The type of an answer; requests have none. -/
  kind : Option String
  key : String
  deriving Repr, DecidableEq

namespace Dialback

def ofElement (e : Xml.Element) : Except Fault Dialback := do
  let recipient ← serverDomain e "to"
  let sender ← serverDomain e "from"
  return {
    recipient, sender
    id := e.attribute? "id"
    kind := e.attribute? "type"
    key := Text.trim e.text }

def isReply (m : Dialback) : Bool := m.kind.isSome

/-- The message is an answer, and a favourable one. -/
def isValid (m : Dialback) : Bool := m.kind = some "valid"

/-- An element that asks about a key. -/
def isVerify (e : Xml.Element) : Bool := e.is "verify" Xml.Namespace.dialback

def verdict (valid : Bool) : String := if valid then "valid" else "invalid"

def addressed (name recipient sender : String) : Xml.Element :=
  let bare : Xml.Element := { name, ns := Xml.Namespace.dialback }
  (bare.setAttribute "to" recipient).setAttribute "from" sender

def result (recipient sender key : String) : Xml.Element :=
  (addressed "result" recipient sender).appendText key

def resultReply (recipient sender : String) (valid : Bool) : Xml.Element :=
  (addressed "result" recipient sender).setAttribute "type" (verdict valid)

def verify (recipient sender id key : String) : Xml.Element :=
  ((addressed "verify" recipient sender).setAttribute "id" id).appendText key

def verifyReply (recipient sender id : String) (valid : Bool) : Xml.Element :=
  ((addressed "verify" recipient sender).setAttribute "id" id).setAttribute "type" (verdict valid)

@[simp] theorem name_addressed (name recipient sender : String) :
    (addressed name recipient sender).name = name := rfl

@[simp] theorem ns_addressed (name recipient sender : String) :
    (addressed name recipient sender).ns = Xml.Namespace.dialback := rfl

@[simp] theorem attribute?_addressed (name recipient sender x : String) :
    (addressed name recipient sender).attribute? x =
      if x = "from" then some sender else if x = "to" then some recipient else none := by
  simp only [addressed, Xml.Element.attribute?_setAttribute]
  rfl

@[simp] theorem isVerify_verify (recipient sender id key : String) :
    isVerify (verify recipient sender id key) = true := by
  simp [isVerify, verify, Xml.Element.is]

theorem not_is_of_isVerify {e : Xml.Element} (h : isVerify e = true) (name ns : String)
    (hn : name ≠ "verify") : ¬ e.is name ns = true := by
  have hv : e.name = "verify" ∧ e.ns = Xml.Namespace.dialback := by
    simpa [isVerify, Xml.Element.is] using h
  simp [Xml.Element.is, hv.1, Ne.symm hn]

end Dialback

end Interdomain.Protocol
