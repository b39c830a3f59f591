import Interdomain.Candidate
import Interdomain.Link
import Interdomain.Negotiation.Stage
import Interdomain.Route

/-! The calls that the gateway makes to its surroundings: on links, to the local router, and to the
accounting log. -/
namespace Interdomain

/-- What one authorization carried over its lifetime. -/
structure Account where
  peer : String
  direction : Policy.Direction
  stanzas : Nat
  address : Option String
  /-- The lifetime in milliseconds. -/
  duration : Nat
  deriving Repr, DecidableEq

/-- Why a stanza comes back to its sender. -/
inductive BounceReason where
  | invalidAddress
  | noAddress (domain : String)
  /-- The policy for the peer refused the stream. -/
  | refusedByPolicy
  | failed (stage : Stage) (history : String)
  | timedOut (stage : Stage) (history : String)
  deriving Repr, DecidableEq

def BounceReason.message : BounceReason → String
  | invalidAddress => "Invalid sender or recipient address"
  | noAddress domain => "No address known for " ++ domain
  | refusedByPolicy =>
    "Failed to deliver stanza to other server because of configured stream parameters."
  | failed stage history =>
    "Failed to deliver stanza to other server while " ++ stage.describe ++ ": " ++ history
  | timedOut stage history =>
    "Server connect timeout while " ++ stage.describe ++ ": " ++ history

inductive Effect where
  | connect (link : LinkId) (route : Route) (address : Candidate) (timeout : Nat)
  | send (link : LinkId) (frame : Frame)
  | close (link : LinkId)
  /-- The next thing on the link is a new stream header. -/
  | reset (link : LinkId)
  | startTls (link : LinkId) (role : TlsRole) (domain : String) (started : Bool)
  | deliver (stanza : Xml.Element)
  | bounce (stanza : Xml.Element) (reason : BounceReason)
  | routeUp (domain : String)
  | routeDown (domain : String)
  | account (record : Account)
  deriving Repr, DecidableEq

def Effect.link? : Effect → Option LinkId
  | connect link .. | send link _ | close link | reset link | startTls link .. => some link
  | _ => none

end Interdomain
