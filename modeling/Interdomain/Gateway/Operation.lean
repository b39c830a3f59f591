import Interdomain.Gateway.Sweep

/-! Runs of a gateway. An operation is anything that can happen to it: a stanza is submitted, a link
reports an event, time passes, timeouts are looked after, an authorization is withdrawn, or the facts
about a link change. -/
namespace Interdomain

inductive Operation where
  /-- A stanza is to go out; the resolver may have found addresses for it. -/
  | submit (stanza : Xml.Element) (resolved : Option String)
  | inbound (link : LinkId) (event : LinkEvent)
  | outbound (link : LinkId) (event : LinkEvent)
  /-- Timeouts are looked after as of so many milliseconds from now. -/
  | sweep (ahead : Nat)
  | releaseRoute (route : Route)
  | releaseClaim (claim : Claim)
  | wait (duration : Nat)
  | learn (link : LinkId) (facts : Link)
  deriving Repr, DecidableEq

inductive Answer where
  | none
  | delivery (delivery : Delivery)
  | released (was : Bool)
  | swept (report : SweepReport)
  deriving Repr, DecidableEq

namespace Gateway

def perform (g : Gateway) : Operation → Gateway × Answer
  | .submit stanza resolved => (g.submit stanza resolved).map id .delivery
  | .inbound link event => (g.onInbound link event, .none)
  | .outbound link event => (g.onOutbound link event, .none)
  | .sweep ahead => (g.sweepAt (g.now + ahead)).map id .swept
  | .releaseRoute route => (g.releaseRoute route).map id .released
  | .releaseClaim claim => (g.releaseClaim claim).map id .released
  | .wait duration => (g.act fun w => { w with now := w.now + duration }, .none)
  | .learn link facts => (g.act fun w => { w with links := w.links.insert link facts }, .none)

def step (g : Gateway) (op : Operation) : Gateway := (g.perform op).1

def run (g : Gateway) (ops : List Operation) : Gateway := ops.foldl step g

end Gateway

end Interdomain
