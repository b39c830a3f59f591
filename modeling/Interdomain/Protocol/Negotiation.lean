import Interdomain.Protocol.Stanza
import Interdomain.Text.Base64

/-! The elements that negotiate a stream: the features one side offers, the start of TLS, and SASL with
the mechanism EXTERNAL, which takes the identity from the certificate. -/
namespace Interdomain.Protocol

/-- An element of the namespace of TLS or SASL without attributes and content. -/
def bare (name ns : String) : Xml.Element := { name, ns }

/-- The request to start TLS, which is also the feature that offers it. -/
def startTls : Xml.Element := bare "starttls" Xml.Namespace.tls

def tlsProceed : Xml.Element := bare "proceed" Xml.Namespace.tls

def tlsFailure : Xml.Element := bare "failure" Xml.Namespace.tls

def external : String := "EXTERNAL"

def eqIgnoringCase (s t : String) : Bool := s.toList.map Char.toLower = t.toList.map Char.toLower

/-- The feature that offers the mechanism EXTERNAL. -/
def mechanisms : Xml.Element :=
  (bare "mechanisms" Xml.Namespace.sasl).appendChild
    ((bare "mechanism" Xml.Namespace.sasl).appendText external)

def features (tls sasl : Bool) : Xml.Element :=
  let none := bare "features" Xml.Namespace.stream
  let withTls := if tls then none.appendChild startTls else none
  if sasl then withTls.appendChild mechanisms else withTls

def offersStartTls (features : Xml.Element) : Bool :=
  (features.child? "starttls" Xml.Namespace.tls).isSome

/-- The features offer the mechanism EXTERNAL, in the first list of mechanisms. -/
def offersExternal (features : Xml.Element) : Bool :=
  match features.child? "mechanisms" Xml.Namespace.sasl with
  | none => false
  | some list => list.children.any fun m =>
    m.is "mechanism" Xml.Namespace.sasl && eqIgnoringCase (Text.trim m.text) external

def saslAuth (identity : String) : Xml.Element :=
  ((bare "auth" Xml.Namespace.sasl).setAttribute "mechanism" external).appendText
    (String.ofList (Text.Base64.encode identity.toUTF8.data.toList))

def saslSuccess : Xml.Element := bare "success" Xml.Namespace.sasl

def saslFailure (reason : String) : Xml.Element :=
  (bare "failure" Xml.Namespace.sasl).appendChild (bare reason Xml.Namespace.sasl)

/-- The address in the text of a request: Base64 of UTF-8. -/
def saslIdentity (payload : String) : Except Fault Jid :=
  match Text.Base64.decode? (Text.trimChars payload.toList) with
  | none => .error .encoding
  | some bytes =>
    match String.fromUTF8? ⟨bytes.toArray⟩ with
    | none => .error .encoding
    | some text =>
      match Jid.parse text with
      | .ok jid => .ok jid
      | .error _ => .error (.notADomain "authzid" text)

end Interdomain.Protocol
