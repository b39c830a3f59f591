import Interdomain.Gateway.Basic

/-! The view of a gateway that status reports show: one entry for each connection, in an order that depends
on the keys of the entries. -/
namespace Interdomain

structure RouteStatus where
  route : Route
  address : Option String
  stanzas : Nat
  idleSeconds : Nat
  deriving Repr, DecidableEq

structure NegotiationStatus where
  route : Route
  stage : Stage
  request : Request
  current : String
  remaining : List String
  streamId : Option String
  queued : Nat
  verifies : Nat
  history : String
  deriving Repr, DecidableEq

structure AdmissionStatus where
  claim : Claim
  stanzas : Nat
  idleSeconds : Nat
  deriving Repr, DecidableEq

structure ChallengeStatus where
  challenge : String
  peer : Option String
  host : String
  version : Nat
  openClaims : Nat
  deriving Repr, DecidableEq

structure Snapshot where
  routes : List RouteStatus
  negotiations : List NegotiationStatus
  admissions : List AdmissionStatus
  challenges : List ChallengeStatus
  deriving Repr, DecidableEq

def Negotiation.status (n : Negotiation) : NegotiationStatus where
  route := n.route
  stage := n.stage
  request := n.request
  current := n.current.toString
  remaining := n.remaining.map Candidate.toString
  streamId := n.streamId
  queued := n.queue.length
  verifies := n.verifies.length
  history := n.historyText

/-- Admissions are listed by source, then by challenge. -/
def AdmissionStatus.le (a b : AdmissionStatus) : Bool :=
  a.claim.source < b.claim.source ||
    (a.claim.source = b.claim.source && a.claim.challenge ≤ b.claim.challenge)

namespace Gateway

def idleSeconds (g : Gateway) (c : Carrier) : Nat := c.idleFor g.now / 1000

def routeStatuses (g : Gateway) : List RouteStatus :=
  g.routes.entries.map fun e => ⟨e.1, e.2.address, e.2.stanzas, g.idleSeconds e.2⟩

def negotiationStatuses (g : Gateway) : List NegotiationStatus :=
  g.negotiations.values.map Negotiation.status

def admissionStatuses (g : Gateway) : List AdmissionStatus :=
  g.admissions.entries.map fun e => ⟨e.1, e.2.stanzas, g.idleSeconds e.2⟩

def challengeStatuses (g : Gateway) : List ChallengeStatus :=
  g.challenges.entries.map fun e => ⟨e.1, e.2.peer, e.2.host, e.2.version, e.2.claims.length⟩

def snapshot (g : Gateway) : Snapshot where
  routes := g.routeStatuses.mergeSort fun a b => a.route.le b.route
  negotiations := g.negotiationStatuses.mergeSort fun a b => a.route.le b.route
  admissions := g.admissionStatuses.mergeSort AdmissionStatus.le
  challenges := g.challengeStatuses.mergeSort fun a b => a.challenge ≤ b.challenge

end Gateway

end Interdomain
