import Interdomain.Gateway.Verify
import Interdomain.Negotiation.Turn

/-! Stanzas on their way out. A stanza goes out on the authorized route of its pair of domains, or waits on
the negotiation for that pair, which is started if there is none. A negotiation that succeeds becomes a
route and hands over what waited; one that fails returns its stanzas and settles its verify requests. -/
namespace Interdomain

inductive Delivery where
  | sent
  | queued
  | verifySent
  | verifyQueued
  /-- The claim that the verify request was for is settled as refused. -/
  | verifyFailed
  | bounced
  deriving Repr, DecidableEq

namespace Gateway

open Protocol (Dialback)

def routeOf (a : Protocol.Addresses) : Route := ⟨a.recipient, a.sender⟩

/-- Gives up a negotiation: its stanzas return to their senders and the claims of its verify requests are
settled as refused. Its link is closed unless it is already gone. -/
def retire (g : Gateway) (route : Route) (linkGone : Bool) : Gateway :=
  match g.negotiations.get? route with
  | none => g
  | some n =>
    let g := { g with negotiations := g.negotiations.erase route }
    let g := if linkGone then g else
      { g with attempts := g.attempts.erase n.link, world := g.world.close n.link }
    let g := n.stanzas.foldl (fun g stanza => g.emit (.bounce stanza n.failureReason)) g
    n.verifies.foldl failVerify g

/-- Makes a negotiation an authorized route: first the verify requests that waited go out, then the stanzas
in the order in which they came. -/
def establish (g : Gateway) (route : Route) : Gateway :=
  match g.negotiations.get? route with
  | none => g
  | some n =>
    let carrier := n.stanzas.foldl (fun c _ => c.carry g.now)
      (Carrier.start n.link (some n.current.toString) g.now)
    let g := { g with
      negotiations := g.negotiations.erase route
      attempts := g.attempts.erase n.link
      world := (g.world.sendElements n.link n.verifies).sendElements n.link n.stanzas }
    let g := g.setRoutes (g.routes.register route carrier)
    { g with carried := g.carried.insert n.link route }

/-- A stanza that no address is known for: it returns to its sender, and for a verify request the claim is
settled as refused. -/
def undeliverable (g : Gateway) (stanza : Xml.Element) (route : Route) : Gateway × Delivery :=
  if Dialback.isVerify stanza then (g.failVerify stanza, .verifyFailed)
  else (g.emit (.bounce stanza (.noAddress route.destination)), .bounced)

/-- Puts a negotiation that has just opened its link into the tables. -/
def putNegotiation (g : Gateway) (n : Negotiation) (w : World) : Gateway :=
  { g with
    world := w
    attempts := g.attempts.insert n.link n.route
    negotiations := g.negotiations.insert n.route n }

def setNegotiation (g : Gateway) (n : Negotiation) (w : World) : Gateway :=
  { g with world := w, negotiations := g.negotiations.insert n.route n }

def hold (g : Gateway) (n : Negotiation) (stanza : Xml.Element) : Gateway × Delivery :=
  if Dialback.isVerify stanza then
    let (next, w) := n.addVerify g.world stanza
    (g.setNegotiation next w, if n.ready then .verifySent else .verifyQueued)
  else (g.setNegotiation (n.enqueue stanza g.now) g.world, .queued)

/-- The addresses to try for a route: those found by the resolver, or else the one last used. -/
def candidates (g : Gateway) (route : Route) (resolved : Option String) : List Candidate :=
  match resolved <|> g.cachedAddress? route.destination with
  | some list => Candidate.parseList g.setup.settings.defaultPort list
  | none => []

def submitOn (g : Gateway) (route : Route) (stanza : Xml.Element) (resolved : Option String) :
    Gateway × Delivery :=
  let isVerify := Dialback.isVerify stanza
  match g.routes.get? route with
  | some carrier =>
    ({ g with
      world := g.world.sendElement carrier.link stanza
      routes := g.routes.modify route (·.carry g.now) }, if isVerify then .verifySent else .sent)
  | none =>
    match g.negotiations.get? route with
    | some n =>
      let (n, w) := if isVerify then (n, g.world) else n.want g.setup g.world
      (g.setNegotiation n w).hold n stanza
    | none =>
      let request : Request := if isVerify then .notRequested else .wantRequest
      match Negotiation.start? g.setup route request g.world (g.candidates route resolved) with
      | none => g.undeliverable stanza route
      | some (n, w) => (g.putNegotiation n w).hold n stanza

/-- Sends a stanza, or a verify request, to the domain it is addressed to. -/
def submit (g : Gateway) (stanza : Xml.Element) (resolved : Option String) : Gateway × Delivery :=
  match Protocol.addresses stanza with
  | .ok a => g.submitOn (routeOf a) stanza resolved
  | .error _ =>
    if Dialback.isVerify stanza then (g, .verifyFailed)
    else (g.emit (.bounce stanza .invalidAddress), .bounced)

/-- Tries the next address of a negotiation whose link is gone, or gives it up. -/
def advance (g : Gateway) (n : Negotiation) : Gateway :=
  if n.canRetry then
    match n.advance? g.setup g.world with
    | some (n, w) => g.putNegotiation n w
    | none => g.retire n.route true
  else g.retire n.route true

def onAttemptClosed (g : Gateway) (n : Negotiation) (error : Option String) : Gateway :=
  let n := match error with
    | some text => n.note text
    | none => n
  let g := { g.setNegotiation n g.world with attempts := g.attempts.erase n.link }
  g.advance n

/-- Takes over what a negotiation did with an event, and follows its verdict. -/
def follow (g : Gateway) (turn : Turn) : Gateway :=
  let route := turn.negotiation.route
  let g := g.setNegotiation turn.negotiation turn.world
  match turn.verdict with
  | .proceed => g
  | .authorize => g.establish route
  | .giveUp => g.retire route false
  | .verify element => g.onVerify turn.negotiation.link element

def onAttempt (g : Gateway) (n : Negotiation) : LinkEvent → Gateway
  | .connected => g.follow (n.onConnected g.setup g.world)
  | .header header => g.follow (n.onHeader g.setup g.world header g.challenges.contains)
  | .element element => g.follow (n.onElement g.setup g.world element)
  | .closed error => g.onAttemptClosed n error

def dropRoute (g : Gateway) (route : Route) (link : LinkId) : Gateway :=
  let g := { g with carried := g.carried.erase link }
  g.setRoutes (g.routes.unregisterWhere fun r c => r = route ∧ c.link = link)

/-- An event on the link of an authorized route: verification goes on over it, and any other element ends
it. -/
def onRoute (g : Gateway) (route : Route) (link : LinkId) : LinkEvent → Gateway
  | .connected | .header _ => g
  | .closed _ => g.dropRoute route link
  | .element element =>
    if Dialback.isVerify element then
      let g := { g with routes := g.routes.modify route (·.carry g.now) }
      g.onVerify link element
    else if element.is "error" Xml.Namespace.stream then (g.act (·.close link)).dropRoute route link
    else
      let text := "only dialback verification is accepted on this stream"
      (g.act (·.fail link ⟨.undefinedCondition, some text⟩)).dropRoute route link

/-- An event on an outbound link; events on links that are not tracked are ignored. -/
def onOutbound (g : Gateway) (link : LinkId) (event : LinkEvent) : Gateway :=
  match g.attempts.get? link with
  | some route =>
    match g.negotiations.get? route with
    | some n => g.onAttempt n event
    | none => { g with attempts := g.attempts.erase link }
  | none =>
    match g.carried.get? link with
    | some route => g.onRoute route link event
    | none => g

end Gateway

end Interdomain
