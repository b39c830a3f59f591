import Interdomain.Gateway.Greeting
import Interdomain.Gateway.Outbound

/-! Streams that peers open. An accepted stream is given a challenge; on it a peer may start TLS, prove its
domain by SASL, or claim pairs of domains by dialback, and may send stanzas for the pairs it is authorized
for. -/
namespace Interdomain.Gateway

open Protocol (Dialback)

def openStream (g : Gateway) (link : LinkId) : Gateway :=
  if g.streams.contains link then g
  else { g with streams := g.streams.insert link { since := g.now } }

def enterPhase (g : Gateway) (link : LinkId) (phase : Phase) : Gateway :=
  { g with streams := g.streams.modify link fun s => { s with phase, since := g.now } }

def identityOn (g : Gateway) (link : LinkId) : Option String :=
  (g.streams.get? link).bind (·.identity)

/-- Refuses a header: an answer, the error and the end of the link. -/
def refuseHeader (g : Gateway) (link : LinkId) (reply : Stream.Header) (reason : Refusal) : Gateway :=
  g.act fun w => (w.send link (.header reply)).fail link reason.error

def admitLegacy (g : Gateway) (link : LinkId) (reply : Stream.Header) (peer : String) : Gateway :=
  let (w, id) := g.world.draw
  let g := { g with world := w.send link (.header { reply with id := some id }) }
  g.enterPhase link (.legacy peer (Carrier.start link (g.world.link link).peerAddress g.now))

/-- Gives an accepted stream its challenge and offers it the ways to go on. A stream that has proved a
domain is authorized for it at once. -/
def acceptStream (g : Gateway) (link : LinkId) (reply : Stream.Header) (host : String)
    (peer : Option String) (version : Nat) (offer : Offer) : Gateway :=
  let (w, challenge) := g.world.draw
  let g := { g with
    world := w
    challenges := g.challenges.insert challenge ⟨link, peer, host, version, [], g.now⟩ }
  let g := match g.identityOn link with
    | some identity => g.authorize ⟨challenge, host, identity⟩ link
    | none => g
  let g := g.act (·.send link (.header { reply with id := some challenge }))
  let g := if 1 ≤ version then
      g.act (·.sendElement link (Protocol.features offer.startTls offer.sasl))
    else g
  g.enterPhase link (.streaming ⟨challenge, host, peer, version⟩)

def onHeader (g : Gateway) (link : LinkId) (header : Stream.Header) : Gateway :=
  match g.setup.greet (g.world.link link) (g.identityOn link).isSome header with
  | .refused reply reason => g.refuseHeader link reply reason
  | .legacy reply peer => g.admitLegacy link reply peer
  | .accepted reply host peer version offer => g.acceptStream link reply host peer version offer

def dropChallenge (g : Gateway) (challenge : String) : Gateway :=
  { g with challenges := g.challenges.erase challenge }

def termsOf (g : Gateway) (s : Session) : Policy.Terms := g.setup.policy.lookup (s.peer.getD "")

/-- The stream begins anew, now that its link has changed or its peer is known. -/
def restart (g : Gateway) (link : LinkId) (s : Session) : Gateway :=
  ((g.act (·.reset link)).dropChallenge s.challenge).enterPhase link .awaitingHeader

def onStartTls (g : Gateway) (link : LinkId) (s : Session) : Gateway :=
  let facts := g.world.link link
  if (g.identityOn link).isSome || !(g.termsOf s).tls.allowsStartTls || !facts.offersTls s.host then
    g.act fun w => (w.sendElement link Protocol.tlsFailure).finish link
  else
    let g := g.act fun w => (w.sendElement link Protocol.tlsProceed).startTls link .server s.host
    if facts.tlsStarts then g.restart link s else g.act (·.close link)

inductive SaslRefusal where
  /-- The terms for the peer do not permit SASL. -/
  | forbidden
  /-- The terms for the identity refuse the stream. -/
  | tooWeak (violation : Policy.Violation)
  | unknownMechanism
  | noIdentity
  | malformedIdentity
  | malformedEncoding
  | notCertified
  deriving Repr, DecidableEq

namespace SaslRefusal

def reason : SaslRefusal → String
  | forbidden | unknownMechanism => "invalid-mechanism"
  | tooWeak _ => "mechanism-too-weak"
  | noIdentity | notCertified => "not-authorized"
  | malformedIdentity => "invalid-authzid"
  | malformedEncoding => "incorrect-encoding"

/-- The stream error that ends the stream, for the refusals that break the policy. -/
def error? : SaslRefusal → Option Stream.Error
  | forbidden => some ⟨.policyViolation, some "SASL is not permitted for this peer"⟩
  | tooWeak violation => some ⟨.policyViolation, some violation.message⟩
  | _ => none

end SaslRefusal

def identityIn (payload : String) : Except SaslRefusal String :=
  if Text.trim payload = "" ∨ Text.trim payload = "=" then .error .noIdentity
  else match Protocol.saslIdentity payload with
    | .ok jid => if jid.isServer then .ok jid.domain else .error .malformedIdentity
    | .error .encoding => .error .malformedEncoding
    | .error _ => .error .malformedIdentity

def provenIdentity (g : Gateway) (link : LinkId) (s : Session) (auth : Xml.Element) :
    Except SaslRefusal String :=
  if !(g.termsOf s).auth.permits .sasl then .error .forbidden
  else if !((auth.attribute? "mechanism").any (Protocol.eqIgnoringCase · Protocol.external)) then
    .error .unknownMechanism
  else match identityIn auth.text with
    | .error e => .error e
    | .ok identity =>
      if !(g.world.link link).certifies identity then .error .notCertified
      else match g.setup.policy.check identity .sasl (g.world.link link).level with
        | .error violation => .error (.tooWeak violation)
        | .ok () => .ok identity

def onSaslAuth (g : Gateway) (link : LinkId) (s : Session) (auth : Xml.Element) : Gateway :=
  match g.provenIdentity link s auth with
  | .ok identity =>
    let g := (g.act (·.sendElement link Protocol.saslSuccess)).restart link s
    { g with streams := g.streams.modify link fun t => { t with identity := some identity } }
  | .error e =>
    let g := g.act (·.sendElement link (Protocol.saslFailure e.reason))
    match e.error? with
    | some error => g.act (·.fail link error)
    | none => g.act (·.finish link)

/-- Sends a verify request to the authority of a claim: on a way that is known, or by the router, which
finds an address for it. -/
def dispatchVerify (g : Gateway) (route : Route) (verify : Xml.Element) : Gateway :=
  if g.routes.contains route || g.negotiations.contains route ||
      (g.cachedAddress? route.destination).isSome then
    (g.submit verify none).1
  else g.emit (.deliver verify)

/-- The peer claims a pair of domains. The claim is open until its authority has answered. -/
def onClaim (g : Gateway) (link : LinkId) (s : Session) (element : Xml.Element) : Gateway :=
  match Dialback.ofElement element with
  | .error fault => g.act (·.fail link fault.toError)
  | .ok m =>
    if m.isReply then
      g.act (·.fail link ⟨.undefinedCondition, some "unexpected dialback result reply"⟩)
    else if !g.challenges.contains s.challenge then
      let text := "no dialback challenge is pending on this stream"
      g.act (·.fail link ⟨.notAuthorized, some text⟩)
    else
      let claim : Claim := ⟨s.challenge, m.recipient, m.sender⟩
      let g := { g with challenges := g.challenges.modify s.challenge fun c =>
        { c with claims := c.claims.insert claim } }
      g.dispatchVerify ⟨m.sender, m.recipient⟩
        (Dialback.verify m.sender m.recipient s.challenge m.key)

/-- A stanza on an inbound stream is delivered if its pair of domains is authorized there. -/
def onStanza (g : Gateway) (link : LinkId) (s : Session) (stanza : Xml.Element) : Gateway :=
  match Protocol.addresses stanza with
  | .error fault => g.act (·.fail link fault.toError)
  | .ok a =>
    let claim : Claim := ⟨s.challenge, a.recipient, a.sender⟩
    if (g.admissions.get? claim).any (·.link = link) then
      { g with admissions := g.admissions.modify claim (·.carry g.now) }.emit (.deliver stanza)
    else
      g.act (·.fail link ⟨.invalidFrom, some (a.sender ++ " is not authorized on this stream")⟩)

def onStreaming (g : Gateway) (link : LinkId) (s : Session) (e : Xml.Element) : Gateway :=
  if e.is "error" Xml.Namespace.stream then g.act (·.close link)
  else if e.is "starttls" Xml.Namespace.tls then g.onStartTls link s
  else if e.is "auth" Xml.Namespace.sasl then g.onSaslAuth link s e
  else if Dialback.isVerify e then g.onVerify link e
  else if e.is "result" Xml.Namespace.dialback then g.onClaim link s e
  else g.onStanza link s e

/-- An element on the stream of a link; on a link without one it is ignored. -/
def onElement (g : Gateway) (link : LinkId) (e : Xml.Element) : Gateway :=
  match g.streams.get? link with
  | none => g
  | some stream =>
    match stream.phase with
    | .awaitingHeader => g.act (·.fail link ⟨.notAuthorized, some "stream not open"⟩)
    | .streaming s => g.onStreaming link s e
    | .legacy peer carrier =>
      { g with streams := g.streams.modify link fun t =>
          { t with phase := .legacy peer (carrier.carry g.now) } }.emit (.deliver e)

/-- The link of a stream is gone, and with it all that was authorized on it. -/
def onClosed (g : Gateway) (link : LinkId) : Gateway :=
  match g.streams.get? link with
  | none => g
  | some stream =>
    let g := { g with streams := g.streams.erase link }
    let g := match stream.phase with
      | .awaitingHeader => g
      | .streaming s => g.dropChallenge s.challenge
      | .legacy peer carrier => g.emit (.account (carrier.account peer .inbound g.now))
    g.dismiss link

def onInbound (g : Gateway) (link : LinkId) : LinkEvent → Gateway
  | .connected => g.openStream link
  | .header header => (g.openStream link).onHeader link header
  | .element element => g.onElement link element
  | .closed _ => g.onClosed link

end Interdomain.Gateway
