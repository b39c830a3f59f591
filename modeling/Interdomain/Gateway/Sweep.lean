import Interdomain.Gateway.Inbound

/-! Timeouts. A sweep ends the authorizations that were idle for too long, then the streams that were not
authorized in time, and last returns the stanzas that waited too long and gives up the negotiations that
nothing waits for. -/
namespace Interdomain

structure SweepReport where
  idleOutbound : Nat := 0
  idleInbound : Nat := 0
  authTimeouts : Nat := 0
  bounced : Nat := 0
  retired : Nat := 0
  deriving Repr, DecidableEq

namespace SweepReport

def add (a b : SweepReport) : SweepReport :=
  ⟨a.idleOutbound + b.idleOutbound, a.idleInbound + b.idleInbound, a.authTimeouts + b.authTimeouts,
    a.bounced + b.bounced, a.retired + b.retired⟩

end SweepReport

namespace Gateway

def keysWhere {κ ν : Type} (entries : List (κ × ν)) (p : κ → ν → Bool) : List κ :=
  (entries.filter fun e => p e.1 e.2).map (·.1)

/-- Does a step for each key in turn, and counts the steps that did something. -/
def sweepEach {κ : Type} (step : Gateway → κ → Gateway × Nat) :
    List κ → Gateway → Gateway × Nat
  | [], g => (g, 0)
  | k :: ks, g =>
    let (g, first) := step g k
    let (g, others) := sweepEach step ks g
    (g, first + others)

def idleRoutes (g : Gateway) (now : Nat) : List Route :=
  keysWhere g.routes.entries fun _ c => g.setup.settings.idleTimeout ≤ c.idleFor now

def idleClaims (g : Gateway) (now : Nat) : List Claim :=
  keysWhere g.admissions.entries fun _ c => g.setup.settings.idleTimeout ≤ c.idleFor now

def idleLegacy (g : Gateway) (now : Nat) : List LinkId :=
  keysWhere g.streams.entries fun _ s =>
    match s.phase with
    | .legacy _ carrier => g.setup.settings.idleTimeout ≤ carrier.idleFor now
    | _ => false

def endLegacy (g : Gateway) (link : LinkId) : Gateway × Nat :=
  match g.streams.get? link with
  | none => (g, 0)
  | some stream =>
    match stream.phase with
    | .legacy peer carrier =>
      let g := { g with streams := g.streams.erase link }
      ((g.emit (.account (carrier.account peer .inbound g.now))).act (·.finish link), 1)
    | _ => (g, 0)

def sweepIdle (g : Gateway) (now : Nat) : Gateway × SweepReport :=
  let (g, outbound) := sweepEach (fun g r => (g.releaseRoute r).map id Bool.toNat) (g.idleRoutes now) g
  let (g, inbound) := sweepEach (fun g c => (g.releaseClaim c).map id Bool.toNat) (g.idleClaims now) g
  let (g, legacy) := sweepEach endLegacy (g.idleLegacy now) g
  (g, { idleOutbound := outbound, idleInbound := inbound + legacy })

/-- The challenges issued too long ago on links without any admission. -/
def staleChallenges (g : Gateway) (now : Nat) : List String :=
  keysWhere g.challenges.entries fun _ c =>
    decide (g.setup.settings.authTimeout ≤ now - c.issued) && !g.carriesAdmission c.link

def endChallenge (g : Gateway) (challenge : String) : Gateway × Nat :=
  match g.challenges.get? challenge with
  | none => (g, 0)
  | some c => ((g.dropChallenge challenge).act (·.close c.link), 1)

def silentStreams (g : Gateway) (now : Nat) : List LinkId :=
  keysWhere g.streams.entries fun _ s =>
    decide (s.phase = .awaitingHeader) && decide (g.setup.settings.authTimeout ≤ now - s.since)

def endSilent (g : Gateway) (link : LinkId) : Gateway × Nat :=
  if g.streams.contains link then
    (({ g with streams := g.streams.erase link }.dismiss link).act (·.close link), 1)
  else (g, 0)

def slowNegotiations (g : Gateway) (now : Nat) : List Route :=
  keysWhere g.negotiations.entries fun _ n => g.setup.settings.authTimeout ≤ n.age now

/-- Closes the link of a negotiation, which goes on when the link is gone. -/
def closeAttempt (g : Gateway) (route : Route) : Gateway × Nat :=
  match g.negotiations.get? route with
  | none => (g, 0)
  | some n => (g.act (·.close n.link), 1)

def sweepUnauthorized (g : Gateway) (now : Nat) : Gateway × SweepReport :=
  let (g, stale) := sweepEach endChallenge (g.staleChallenges now) g
  let (g, silent) := sweepEach endSilent (g.silentStreams now) g
  let (g, slow) := sweepEach closeAttempt (g.slowNegotiations now) g
  (g, { authTimeouts := stale + silent + slow })

def bounceExpired (g : Gateway) (now : Nat) (route : Route) : Gateway × Nat :=
  match g.negotiations.get? route with
  | none => (g, 0)
  | some n =>
    let expired := n.expired now g.setup.settings.queueTimeout
    let n := n.dropExpired now g.setup.settings.queueTimeout
    let g := g.setNegotiation n g.world
    (expired.foldl (fun g stanza => g.emit (.bounce stanza n.timeoutReason)) g, expired.length)

/-- Gives up a negotiation that nothing waits for, unless its stream is ready. -/
def retireIdle (g : Gateway) (route : Route) : Gateway × Nat :=
  match g.negotiations.get? route with
  | none => (g, 0)
  | some n => if n.isIdle && !n.ready then (g.retire route false, 1) else (g, 0)

def sweepQueue (now : Nat) (g : Gateway) (route : Route) : Gateway × SweepReport :=
  let (g, bounced) := g.bounceExpired now route
  let (g, retired) := g.retireIdle route
  (g, { bounced, retired })

def sweepQueues (now : Nat) : List Route → Gateway → Gateway × SweepReport
  | [], g => (g, {})
  | r :: rs, g =>
    let (g, first) := sweepQueue now g r
    let (g, others) := sweepQueues now rs g
    (g, first.add others)

def sweepAt (g : Gateway) (now : Nat) : Gateway × SweepReport :=
  let (g, idle) := g.sweepIdle now
  let (g, unauthorized) := g.sweepUnauthorized now
  let (g, queues) := sweepQueues now g.negotiations.keys g
  (g, (idle.add unauthorized).add queues)

def sweep (g : Gateway) : Gateway × SweepReport := g.sweepAt g.now

end Gateway

end Interdomain
