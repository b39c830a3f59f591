import Interdomain.Config.Basic
import Interdomain.Gateway.Operation
import Interdomain.Gateway.Snapshot
import Interdomain.Log.Store

/-! A federation service: a gateway that runs until it is stopped. As time passes, timeouts are looked after at
regular intervals, and what the gateway accounts for is written to the log. -/
namespace Interdomain

structure Service where
  gateway : Option Gateway
  log : Log.Store
  /-- When timeouts were last looked after in regular course. -/
  swept : Nat
  /-- The instant at which the clock of the gateway showed zero, in seconds since the beginning of 1970. -/
  epoch : Nat

inductive StartError where
  | config (cause : Config.Error)
  | database (cause : Log.MigrationFailure)
  deriving Repr, DecidableEq

inductive ServiceError where
  | stopped
  deriving Repr, DecidableEq

def ServiceError.message : ServiceError → String
  | stopped => "dialback engine is not running"

def Effect.account? : Effect → Option Account
  | account record => some record
  | _ => none

/-- Operations that the gateway is asked for; the others befall its surroundings. -/
def Operation.isRequest : Operation → Bool
  | wait _ | learn .. => false
  | _ => true

namespace Service

/-- Starts a service with the log of an earlier one. The configured policy must be well formed, and the log is
brought up to date; a secret is drawn if none is configured. -/
def start (config : Config.Dialback) (world : World) (log : Log.Store) (epoch : Nat) :
    Except StartError Service :=
  match config.policy with
  | .error cause => .error (.config cause)
  | .ok policy =>
    let upgrade := log.upgrade
    match upgrade.outcome with
    | .error cause => .error (.database cause)
    | .ok _ =>
      let (drawn, token) := world.draw
      let world := if config.givenSecret?.isSome then world else drawn
      let setup := Setup.ofSettings (config.settings token) policy
      .ok { gateway := some (.start setup world), log := upgrade.database, swept := world.now, epoch }

/-- Looks after timeouts if it is time to: the gateway after that, and when it was last done. -/
def tend (g : Gateway) (swept : Nat) : Gateway × Nat :=
  if g.setup.settings.sweepInterval ≤ g.now - swept then (g.sweep.1, g.now) else (g, swept)

/-- The log with some accounts of authorizations that ended at an instant. One that cannot be written is
lost. -/
def record (log : Log.Store) (accounts : List Account) (closed : Nat) : Log.Store :=
  accounts.foldl (fun log a => ((log.record a closed).toOption.map (·.1)).getD log) log

/-- What an operation came to: the service after it, its answer, and the calls that were made for it, except
those that hand over an account. -/
structure Result where
  service : Service
  answer : Except ServiceError Answer
  calls : List Effect

/-- One operation, after which timeouts are looked after if it is time to. -/
def perform (s : Service) (op : Operation) : Result :=
  match s.gateway with
  | none => ⟨s, if op.isRequest then .error .stopped else .ok .none, []⟩
  | some before =>
    let (next, answer) := before.perform op
    let (after, swept) := tend next s.swept
    let calls := after.world.since before.world
    let log := record s.log (calls.filterMap Effect.account?) (s.epoch + after.now / 1000)
    ⟨{ s with gateway := some after, log, swept }, .ok answer,
      calls.filter fun e => e.account?.isNone⟩

def snapshot (s : Service) : Except ServiceError Snapshot :=
  match s.gateway with
  | none => .error .stopped
  | some g => .ok g.snapshot

/-- Stops the gateway, and whether it was running. Its connections are not accounted for. -/
def stop (s : Service) : Service × Bool := ({ s with gateway := none }, s.gateway.isSome)

end Service

end Interdomain
