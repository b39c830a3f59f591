import Interdomain.Jid
import Interdomain.Link
import Interdomain.Settings

/-! What becomes of the header of an inbound stream. The decision depends on the setup, the facts about the
link, the identity proved earlier on the stream, and the header, and on nothing else: the stream is refused
for one reason, admitted without authentication, or accepted with an offer of ways to go on. -/
namespace Interdomain

inductive Refusal where
  | invalidSender
  | invalidNamespace
  | versionRequired
  | noHost
  | legacyDenied
  | noMethod
  /-- The header is one of this server's own. -/
  | ownHeader
  deriving Repr, DecidableEq

def Refusal.error : Refusal → Stream.Error
  | invalidSender => ⟨.invalidFrom, none⟩
  | invalidNamespace => ⟨.invalidNamespace, none⟩
  | versionRequired => ⟨.unsupportedVersion, some "XMPP 1.0 streams are required for this peer"⟩
  | noHost => ⟨.hostUnknown, some "no valid 'to' attribute on the stream header"⟩
  | legacyDenied => ⟨.notAuthorized, some "Legacy Access Denied!"⟩
  | noMethod => ⟨.notAuthorized, some "no authentication method is available for this stream"⟩
  | ownHeader => ⟨.remoteConnectionFailed, some "this server connected to itself"⟩

/-- The ways to go on that the features of a stream offer. -/
structure Offer where
  startTls : Bool
  sasl : Bool
  deriving Repr, DecidableEq

/-- What becomes of a header, with the header that answers it. -/
inductive Greeting where
  | refused (reply : Stream.Header) (reason : Refusal)
  /-- The stream is admitted without authentication, as that of `peer`. -/
  | legacy (reply : Stream.Header) (peer : String)
  | accepted (reply : Stream.Header) (host : String) (peer : Option String) (version : Nat)
      (offer : Offer)
  deriving Repr, DecidableEq

/-- The domain in an attribute that may be absent; the outer `none` means that it is there and malformed. -/
def optionalDomain? : Option String → Option (Option String)
  | none => some none
  | some text => (Jid.domain? text).map some

namespace Setup

def versionFor (terms : Policy.Terms) (header : Stream.Header) : Nat :=
  if terms.version = .disabled then 0 else header.majorVersion

def replyTo (terms : Policy.Terms) (host peer : Option String) (version : Nat) : Stream.Header where
  recipient := peer
  sender := host
  version := if 1 ≤ version then some "1.0" else none
  dialback := if terms.auth = .saslOnly then none else some Xml.Namespace.dialback

def hasNamespaces (header : Stream.Header) : Bool :=
  header.ns = Xml.Namespace.server &&
    (match header.dialback with
      | none => true
      | some ns => ns = Xml.Namespace.dialback)

/-- The ways to go on that a stream offers: none if its version is zero or it is authenticated; TLS where
the terms and the link allow it; SASL where the link is protected and the certificate fits. -/
def offer (terms : Policy.Terms) (link : Link) (authenticated : Bool) (host : String)
    (peer : Option String) (version : Nat) : Offer where
  startTls := !authenticated && decide (1 ≤ version) && terms.tls.allowsStartTls && link.offersTls host
  sasl := !authenticated && decide (1 ≤ version) && decide (0 < link.level) &&
    (match peer with
      | none => false
      | some domain => link.certifies domain) && terms.auth.permits .sasl

def greetAt (s : Setup) (terms : Policy.Terms) (link : Link) (authenticated : Bool)
    (header reply : Stream.Header) (host : String) (peer : Option String) (version : Nat) : Greeting :=
  let offer := offer terms link authenticated host peer version
  if version = 0 ∧ header.declaresDialback = false then
    if s.settings.allowLegacy then .legacy reply (peer.getD "unknown")
    else .refused reply .legacyDenied
  else if !header.declaresDialback && !offer.sasl && !offer.startTls && !authenticated then
    .refused reply .noMethod
  else if header.loopToken = some s.signer.loopToken then .refused reply .ownHeader
  else .accepted reply host peer version offer

/-- What becomes of a header; of several defects, the first in the order of the rules counts. -/
def greet (s : Setup) (link : Link) (authenticated : Bool) (header : Stream.Header) : Greeting :=
  let host := header.recipient.bind Jid.domain?
  match optionalDomain? header.sender with
  | none => .refused { sender := host } .invalidSender
  | some peer =>
    let terms := s.policy.lookup (peer.getD "")
    let version := versionFor terms header
    let reply := replyTo terms host peer version
    if !hasNamespaces header then .refused reply .invalidNamespace
    else if terms.version = .forced ∧ version = 0 then .refused reply .versionRequired
    else match host with
      | none => .refused reply .noHost
      | some host => s.greetAt terms link authenticated header reply host peer version

end Setup

end Interdomain
