import Interdomain.Negotiation.Basic
import Interdomain.Protocol.Negotiation

/-! What a negotiation does with an event on its link. Each handler is a turn: it takes the negotiation and
the world, writes on the link, and ends with a verdict on how the connection goes on. -/
namespace Interdomain

inductive Verdict where
  | proceed
  | authorize
  /-- The connection is given up, whatever addresses are left. -/
  | giveUp
  | verify (element : Xml.Element)
  deriving Repr, DecidableEq

structure Turn where
  negotiation : Negotiation
  world : World
  verdict : Verdict := .proceed

namespace Negotiation

def terms (n : Negotiation) (setup : Setup) : Policy.Terms := setup.policy.lookup n.route.destination

def header (n : Negotiation) (setup : Setup) : Stream.Header where
  recipient := n.route.destination
  sender := n.route.source
  version := if (n.terms setup).version = .disabled then none else some "1.0"
  dialback := if (n.terms setup).auth = .saslOnly then none else some Xml.Namespace.dialback
  loopToken := setup.signer.loopToken

def writeHeader (n : Negotiation) (setup : Setup) (w : World) : World :=
  w.send n.link (.header (n.header setup))

/-- Ends the stream for a defect of the peer's that another address may not have. -/
def complain (n : Negotiation) (w : World) (note : String) (condition : Stream.Condition)
    (text : String) : Turn :=
  ⟨n.note note, w.fail n.link ⟨condition, some text⟩, .proceed⟩

/-- Goes on with `next` if the policy accepts the stream with the mechanism, and gives up otherwise. -/
def underPolicy (n : Negotiation) (setup : Setup) (w : World) (used : Policy.Mechanism)
    (next : Turn) : Turn :=
  match setup.policy.check n.route.destination used (w.link n.link).level with
  | .ok () => next
  | .error violation =>
    ⟨{ n with refused := true }, w.fail n.link ⟨.policyViolation, some violation.message⟩, .giveUp⟩

/-- Sends the dialback request if the stream is ready and has an id, and else remembers that one is
wanted. -/
def sendRequest (n : Negotiation) (setup : Setup) (w : World) : Negotiation × World :=
  match n.ready, n.streamId with
  | true, some id =>
    let key := setup.signer.key n.route.destination n.route.source id
    ({ n with request := .sentRequest, stage := .sentRequest },
      w.sendElement n.link (Protocol.Dialback.result n.route.destination n.route.source key))
  | _, _ => ({ n with request := .wantRequest }, w)

/-- A stanza waits for the pair to be authorized. -/
def want (n : Negotiation) (setup : Setup) (w : World) : Negotiation × World :=
  match n.request with
  | .notRequested => ({ n with request := .wantRequest }, w)
  | .couldRequest => n.sendRequest setup w
  | .wantRequest | .sentRequest => (n, w)

/-- The stream may carry dialback from now on: the request goes out if it is wanted, and then the verify
requests that waited. -/
def becomeReady (n : Negotiation) (setup : Setup) (w : World) : Turn :=
  let n := { n with ready := true }
  let (n, w) : Negotiation × World := match n.request with
    | .wantRequest => n.sendRequest setup w
    | .notRequested => ({ n with request := .couldRequest }, w)
    | .couldRequest | .sentRequest => (n, w)
  ⟨{ n with verifies := [] }, w.sendElements n.link n.verifies, .proceed⟩

def addVerify (n : Negotiation) (w : World) (verify : Xml.Element) : Negotiation × World :=
  if n.ready then (n, w.sendElement n.link verify)
  else ({ n with verifies := n.verifies ++ [verify] }, w)

def onConnected (n : Negotiation) (setup : Setup) (w : World) : Turn :=
  let noted := if n.stage = .connected then n else n.note "Connected"
  let next := if n.stage = .saslSucceeded then n else { noted with stage := .connected }
  ⟨next, next.writeHeader setup w, .proceed⟩

/-- The peer's header was accepted: after SASL only the policy is asked; a stream with a version waits for
its features; one without must speak dialback, which begins at once. -/
def onAccepted (n : Negotiation) (setup : Setup) (w : World) (header : Stream.Header) : Turn :=
  if n.stage = .saslSucceeded then n.underPolicy setup w .sasl ⟨n, w, .proceed⟩
  else if 1 ≤ n.version then ⟨{ n with stage := .awaitingFeatures }, w, .proceed⟩
  else if !header.declaresDialback then
    { n.complain w " (peer supports neither dialback nor XMPP 1.0)" .notAuthorized
        "Legacy Access Denied!" with verdict := .giveUp }
  else n.underPolicy setup w .dialback (n.becomeReady setup w)

/-- The peer's stream header. It must have an id, and not one that this server has given out. -/
def onHeader (n : Negotiation) (setup : Setup) (w : World) (header : Stream.Header)
    (isOwn : String → Bool) : Turn :=
  let n := if n.stage = .saslSucceeded then n else { n with stage := .gotHeader }
  match header.id.filter (· ≠ "") with
  | none => n.complain w " (no stream id)" .invalidId "a stream id is required"
  | some id =>
    if isOwn id then
      n.complain w " (connected to ourselves)" .internalServerError "this server connected to itself"
    else
      onAccepted { n with streamId := some id, version := header.majorVersion } setup w header

/-- The features of the stream: TLS comes first, then SASL, then dialback. After SASL they complete the
authorization. -/
def onFeatures (n : Negotiation) (setup : Setup) (w : World) (features : Xml.Element) : Turn :=
  if n.stage = .saslSucceeded then ⟨n, w, .authorize⟩
  else
    let n := { n with stage := .gotFeatures }
    let terms := n.terms setup
    if Protocol.offersStartTls features && terms.tls.allowsStartTls &&
        (w.link n.link).offersTls n.route.source then
      ⟨n, w.sendElement n.link Protocol.startTls, .proceed⟩
    else if Protocol.offersExternal features && terms.auth.permits .sasl then
      ⟨{ n with stage := .saslStarted },
        w.sendElement n.link (Protocol.saslAuth n.route.source), .proceed⟩
    else n.underPolicy setup w .dialback (n.becomeReady setup w)

def onTlsProceed (n : Negotiation) (setup : Setup) (w : World) : Turn :=
  let started := (w.link n.link).tlsStarts
  let w := w.startTls n.link .client n.route.source
  if started then
    let n := { n with stage := .connected }
    ⟨n, n.writeHeader setup (w.reset n.link), .proceed⟩
  else ⟨n.note " (TLS handshake could not be started)", w.close n.link, .proceed⟩

def onSaslSuccess (n : Negotiation) (setup : Setup) (w : World) : Turn :=
  let n := { n with stage := .saslSucceeded }
  ⟨n, n.writeHeader setup (w.reset n.link), .proceed⟩

/-- The answer to a dialback request is from the destination and to the source. -/
def isAnswerTo (route : Route) (m : Protocol.Dialback) : Bool :=
  m.sender = route.destination && m.recipient = route.source

def onResult (n : Negotiation) (w : World) (element : Xml.Element) : Turn :=
  if n.request ≠ .sentRequest ∨ n.stage ≠ .sentRequest then
    n.complain w " (unrequested dialback result)" .notAuthorized "No dialback request is outstanding"
  else match (Protocol.Dialback.ofElement element).toOption.filter (isAnswerTo n.route) with
    | none => n.complain w " (invalid dialback result)" .notAuthorized "Invalid Dialback Result"
    | some answer =>
      if answer.isValid then ⟨{ n with stage := .dialbackSucceeded }, w, .authorize⟩
      else
        let kind := answer.kind.getD "no type attribute"
        ⟨{ n with stage := .dialbackFailed }.note (" (dialback result: " ++ kind ++ ")"),
          w.finish n.link, .giveUp⟩

def onElement (n : Negotiation) (setup : Setup) (w : World) (e : Xml.Element) : Turn :=
  if e.is "features" Xml.Namespace.stream then n.onFeatures setup w e
  else if e.is "error" Xml.Namespace.stream then
    ⟨n.note (" (" ++ (Stream.Error.ofElement e).toString ++ ")"), w.close n.link, .proceed⟩
  else if e.is "proceed" Xml.Namespace.tls then n.onTlsProceed setup w
  else if e.is "failure" Xml.Namespace.tls then
    ⟨n.note " (STARTTLS refused)", w.finish n.link, .proceed⟩
  else if e.is "success" Xml.Namespace.sasl then n.onSaslSuccess setup w
  else if e.is "failure" Xml.Namespace.sasl then
    ⟨{ n with stage := .saslFailed }.note " (SASL EXTERNAL auth failed)", w.finish n.link, .giveUp⟩
  else if e.is "result" Xml.Namespace.dialback then n.onResult w e
  else if Protocol.Dialback.isVerify e then ⟨n, w, .verify e⟩
  else
    ⟨n, w.fail n.link ⟨.notAuthorized, some "Not allowed to send data on this stream"⟩, .proceed⟩

end Negotiation

end Interdomain
