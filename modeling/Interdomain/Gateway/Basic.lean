import Interdomain.Jid
import Interdomain.Negotiation.Basic
import Interdomain.Registry

/-! The gateway of a server: its outbound connections, negotiating and authorized, and its inbound streams
with the challenges they were given and the pairs of domains they were authorized for. -/
namespace Interdomain

/-- What was agreed when an inbound stream opened. -/
structure Session where
  /-- The challenge it was given, which is the id of the stream. -/
  challenge : String
  /-- The local domain that the peer addressed. -/
  host : String
  /-- The domain that the peer gave as its own, if it gave one. -/
  peer : Option String
  version : Nat
  deriving Repr, DecidableEq

inductive Phase where
  /-- No header has come since the stream began or was restarted. -/
  | awaitingHeader
  | streaming (session : Session)
  /-- A peer from before dialback, admitted without authentication. -/
  | legacy (peer : String) (carrier : Carrier)
  deriving Repr, DecidableEq

structure InboundStream where
  phase : Phase := .awaitingHeader
  /-- The domain proved by SASL, which a restart of the stream does not undo. -/
  identity : Option String := none
  /-- When the phase began. -/
  since : Nat
  deriving Repr, DecidableEq

/-- A challenge that an inbound stream was given, with the claims made under it and not yet settled. -/
structure Challenge where
  link : LinkId
  peer : Option String
  host : String
  version : Nat
  claims : List Claim
  issued : Nat
  deriving Repr, DecidableEq

structure Gateway where
  setup : Setup
  world : World
  negotiations : Table Route Negotiation := ∅
  routes : Registry Route Carrier := ∅
  /-- The address over which each domain was last authorized. -/
  addresses : Table String String := ∅
  /-- The route of each link that is being negotiated. -/
  attempts : Table LinkId Route := ∅
  /-- The route of each link that carries one. -/
  carried : Table LinkId Route := ∅
  challenges : Table String Challenge := ∅
  admissions : Registry Claim Carrier := ∅
  streams : Table LinkId InboundStream := ∅

namespace Gateway

def start (setup : Setup) (world : World) : Gateway := { setup, world }

def now (g : Gateway) : Nat := g.world.now

def act (g : Gateway) (f : World → World) : Gateway := { g with world := f g.world }

def emit (g : Gateway) (e : Effect) : Gateway := g.act (·.emit e)

/-- What an outbound authorization that comes or goes means: its address is kept, the router hears of the
route, and its end is accounted for. -/
def noticeRoute (g : Gateway) : Notice Route Carrier → Gateway
  | .registered route carrier =>
    let g := match carrier.address with
      | some address => { g with addresses := g.addresses.insert route.destination address }
      | none => g
    g.emit (.routeUp route.destination)
  | .unregistered route carrier =>
    (g.emit (.routeDown route.destination)).emit
      (.account (carrier.account route.destination .outbound g.now))

/-- What an inbound authorization that comes or goes means: its end is accounted for. -/
def noticeAdmission (g : Gateway) : Notice Claim Carrier → Gateway
  | .registered .. => g
  | .unregistered claim carrier => g.emit (.account (carrier.account claim.source .inbound g.now))

def setRoutes {α : Type} (g : Gateway) (change : Registry.Change Route Carrier α) : Gateway :=
  change.notices.foldl noticeRoute { g with routes := change.registry }

def setAdmissions {α : Type} (g : Gateway) (change : Registry.Change Claim Carrier α) : Gateway :=
  change.notices.foldl noticeAdmission { g with admissions := change.registry }

def carriesAdmission (g : Gateway) (link : LinkId) : Bool :=
  g.admissions.entries.any (·.2.link = link)

def authorize (g : Gateway) (claim : Claim) (link : LinkId) : Gateway :=
  let carrier := Carrier.start link (g.world.link link).peerAddress g.now
  g.setAdmissions (g.admissions.register claim carrier)

def dismiss (g : Gateway) (link : LinkId) : Gateway :=
  g.setAdmissions (g.admissions.unregisterWhere fun _ c => c.link = link)

/-- Ends an authorized route and its stream; without one, nothing happens. -/
def releaseRoute (g : Gateway) (route : Route) : Gateway × Bool :=
  match g.routes.get? route with
  | none => (g, false)
  | some carrier =>
    let g := g.setRoutes (g.routes.unregister route)
    let g := { g with carried := g.carried.erase carrier.link }
    (g.act (·.finish carrier.link), true)

/-- Withdraws an admission and ends its stream once no other admission is on it; without one, nothing
happens. -/
def releaseClaim (g : Gateway) (claim : Claim) : Gateway × Bool :=
  match g.admissions.get? claim with
  | none => (g, false)
  | some carrier =>
    let g := g.setAdmissions (g.admissions.unregister claim)
    (if g.carriesAdmission carrier.link then g else g.act (·.finish carrier.link), true)

def cachedAddress? (g : Gateway) (domain : String) : Option String := g.addresses.get? domain

end Gateway

end Interdomain
