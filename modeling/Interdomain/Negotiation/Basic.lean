import Interdomain.Carrier
import Interdomain.Protocol.Dialback
import Interdomain.Settings
import Interdomain.World

/-! Negotiations: outbound connections that are not authorized yet, each with its current link, the
addresses left to try, and the stanzas and verify requests that wait for it. -/
namespace Interdomain

structure Waiting where
  stanza : Xml.Element
  since : Nat
  deriving Repr, DecidableEq

def Waiting.isExpired (q : Waiting) (now timeout : Nat) : Bool := timeout ≤ now - q.since

/-- An address that was tried, and what was noted about it. -/
structure Trial where
  address : Candidate
  notes : String
  deriving Repr, DecidableEq

def Trial.toString (t : Trial) : String := t.address.toString ++ ": " ++ t.notes

/-- An outbound connection on its way to be authorized. -/
structure Negotiation where
  route : Route
  stage : Stage
  request : Request
  remaining : List Candidate
  current : Candidate
  link : LinkId
  started : Nat
  /-- The stream may carry dialback elements. -/
  ready : Bool
  streamId : Option String
  version : Nat
  /-- The verify requests that wait for the stream to be ready. -/
  verifies : List Xml.Element
  queue : List Waiting
  history : List Trial
  /-- The policy for the peer refused the stream, so no other address can help. -/
  refused : Bool
  deriving Repr, DecidableEq

namespace Negotiation

def isIdle (n : Negotiation) : Bool := n.queue.isEmpty && n.verifies.isEmpty

/-- Another address is worth a try. -/
def canRetry (n : Negotiation) : Bool := !n.refused && !n.remaining.isEmpty && !n.isIdle

def age (n : Negotiation) (now : Nat) : Nat := now - n.started

def stanzas (n : Negotiation) : List Xml.Element := n.queue.map (·.stanza)

def historyText (n : Negotiation) : String := " / ".intercalate (n.history.map Trial.toString)

def note (n : Negotiation) (text : String) : Negotiation :=
  { n with history := n.history.dropLast ++
      (n.history.getLast?.map fun t => { t with notes := t.notes ++ text }).toList }

def enqueue (n : Negotiation) (stanza : Xml.Element) (now : Nat) : Negotiation :=
  { n with queue := n.queue ++ [⟨stanza, now⟩] }

def expired (n : Negotiation) (now timeout : Nat) : List Xml.Element :=
  (n.queue.filter (·.isExpired now timeout)).map (·.stanza)

def dropExpired (n : Negotiation) (now timeout : Nat) : Negotiation :=
  { n with queue := n.queue.filter fun q => !q.isExpired now timeout }

def failureReason (n : Negotiation) : BounceReason :=
  if n.refused then .refusedByPolicy else .failed n.stage n.historyText

def timeoutReason (n : Negotiation) : BounceReason := .timedOut n.stage n.historyText

/-- The request state on a new link: a request sent on the old one has to be sent again. -/
def requestAfresh : Request → Request
  | .sentRequest => .wantRequest
  | .couldRequest => .notRequested
  | r => r

/-- The negotiation that has just opened a link to its first address. -/
def fresh (route : Route) (request : Request) (first : Candidate) (remaining : List Candidate)
    (link : LinkId) (now : Nat) : Negotiation where
  route; request; remaining; link
  stage := .connecting
  current := first
  started := now
  ready := false
  streamId := none
  version := 0
  verifies := []
  queue := []
  history := [⟨first, ""⟩]
  refused := false

def start? (setup : Setup) (route : Route) (request : Request) (w : World) :
    List Candidate → Option (Negotiation × World)
  | [] => none
  | first :: remaining =>
    let (w, link) := w.connect route first setup.settings.connectTimeout
    some (.fresh route request first remaining link w.now, w)

def advance? (setup : Setup) (n : Negotiation) (w : World) : Option (Negotiation × World) :=
  match n.remaining with
  | [] => none
  | next :: remaining =>
    let (w, link) := w.connect n.route next setup.settings.connectTimeout
    some ({ n with
      remaining, link
      stage := .connecting
      request := requestAfresh n.request
      current := next
      started := w.now
      ready := false
      streamId := none
      version := 0
      history := n.history ++ [⟨next, ""⟩] }, w)

end Negotiation

end Interdomain
