import Interdomain.Service
import Interdomain.Status.Request
import Interdomain.Text.FormEncoded

/-! Status reports of a service: that it is alive, its connections at present, and what its log has of earlier
ones. Reports on the log go on when the gateway has been stopped. -/
namespace Interdomain.Status

inductive Resource where
  | health
  | connections
  | log
  deriving Repr, DecidableEq

/-- What is found at a path, which must be written exactly. -/
def Resource.ofPath? (path : String) : Option Resource :=
  if path = "/health" then some .health
  else if path = "/api/connections" then some .connections
  else if path = "/api/connections/log" then some .log
  else none

inductive Content where
  | health (status version : String)
  | connections (snapshot : Snapshot)
  | log (records : List Log.Entry)
  | error (message : String)
  deriving Repr, DecidableEq

structure Response where
  code : Nat
  content : Option Content
  deriving Repr, DecidableEq

/-- The parameters of a query of the log, which may each be given once; others mean nothing. -/
structure LogQuery where
  peer : Option String := none
  direction : Option String := none
  since : Option String := none
  limit : Option Int := none
  deriving Repr, DecidableEq

namespace LogQuery

/-- Sets a parameter that has not been set. -/
def once {α : Type} (set : Option α) (value : α) : Option (Option α) :=
  if set.isSome then none else some (some value)

def add? (q : LogQuery) (name value : String) : Option LogQuery :=
  if name = "peer" then (once q.peer value).map fun peer => { q with peer }
  else if name = "direction" then (once q.direction value).map fun direction => { q with direction }
  else if name = "since" then (once q.since value).map fun since => { q with since }
  else if name = "limit" then
    (Text.integer? Text.minInt64 Text.maxInt64 value).bind fun n =>
      (once q.limit n).map fun limit => { q with limit }
  else some q

def parse? (query : String) : Option LogQuery :=
  (Text.FormEncoded.parse query).foldlM (fun q p => add? q p.1 p.2) {}

/-- The limit of a report: at least one entry and at most a thousand, and a hundred if it is left out. -/
def boundedLimit (q : LogQuery) : Int := max 1 (min 1000 (q.limit.getD 100))

/-- The criteria of the query, whose direction must be one. -/
def filter (q : LogQuery) : Except Malformed Log.Filter := do
  let direction ← q.direction.mapM Policy.Direction.parse
  return { peer := q.peer, direction, since := q.since, limit := some q.boundedLimit }

end LogQuery

end Interdomain.Status

namespace Interdomain.Service

open Status (Response Resource LogQuery)

def version : String := "0.0.1"

def reportConnections (s : Service) : Response :=
  match s.snapshot with
  | .ok snapshot => ⟨200, some (.connections snapshot)⟩
  | .error e => ⟨503, some (.error e.message)⟩

def reportLog (s : Service) (query : String) : Response :=
  match LogQuery.parse? query with
  | none => ⟨400, none⟩
  | some q =>
    match q.filter with
    | .error e => ⟨400, some (.error e.message)⟩
    | .ok filter =>
      match s.log.query filter with
      | .ok entries => ⟨200, some (.log entries)⟩
      | .error e => ⟨500, some (.error e.message)⟩

def report (s : Service) (query : String) : Resource → Response
  | .health => ⟨200, some (.health "ok" version)⟩
  | .connections => s.reportConnections
  | .log => s.reportLog query

def respond (s : Service) (r : Status.Request) : Response :=
  match Resource.ofPath? r.target.path, r.method with
  | none, _ => ⟨404, none⟩
  | some resource, .get => s.report r.target.query resource
  | some resource, .head => { s.report r.target.query resource with content := none }
  | some _, .other => ⟨405, none⟩

end Interdomain.Service
