import Interdomain.Config.Basic
import Interdomain.Toml.Reader

/-! The configuration in a TOML file. Keys that mean nothing are ignored. A group of settings is a table, or
an array that gives them in order; settings that may be left out of a table may be left out at the end of
the array only if they have a default. A date in the place of a group is one without settings. -/
namespace Interdomain.Config

open Toml (Value)

/-- The settings of a group, by name. -/
structure Group where
  get? : String → Option Value
  /-- They were given in order. -/
  inOrder : Bool

/-- The group of settings that a value gives, whose names are given in order. -/
def group? (names : List String) (v : Value) : Option Group :=
  match v.entries?, v.items?, v with
  | some entries, _, _ => some ⟨entries.get?, false⟩
  | none, some items, _ => some ⟨fun name => (names.findIdx? (· = name)).bind (items[·]?), true⟩
  | none, none, .datetime _ => some ⟨fun _ => none, false⟩
  | none, none, _ => none

def Group.required {α : Type} (g : Group) (read : Value → Option α) (name : String) : Option α :=
  (g.get? name).bind read

def Group.withDefault {α : Type} (g : Group) (read : Value → Option α) (default : α)
    (name : String) : Option α :=
  match g.get? name with
  | some v => read v
  | none => some default

def Group.optional {α : Type} (g : Group) (read : Value → Option α) (name : String) :
    Option (Option α) :=
  match g.get? name with
  | some v => (read v).map some
  | none => if g.inOrder then none else some none

def text? : Value → Option String
  | .string s => some s
  | _ => none

def truth? : Value → Option Bool
  | .boolean b => some b
  | _ => none

def between? (least most : Int) : Value → Option Int
  | .integer i => if least ≤ i ∧ i ≤ most then some i else none
  | _ => none

def upTo? (most : Nat) (v : Value) : Option Nat := (between? 0 most v).map Int.toNat

def port? : Value → Option Nat := upTo? Text.max16
def count? : Value → Option Nat := upTo? Text.max32
def duration? : Value → Option Nat := upTo? Text.max64
def points? : Value → Option Int := between? Text.minInt32 Text.maxInt32

def address? (v : Value) : Option IpAddress := (text? v).bind IpAddress.parse?

def list? {α : Type} (read : Value → Option α) (v : Value) : Option (List α) :=
  v.items?.bind (·.mapM read)

def row? (v : Value) : Option Policy.Row := do
  let g ← group? ["name", "tls", "auth", "xmpp"] v
  let name ← g.required text? "name"
  let tls ← g.optional text? "tls"
  let auth ← g.optional text? "auth"
  let version ← g.optional text? "xmpp"
  some { name, tls, auth, version }

def rate? (v : Value) : Option Rate := do
  let g ← group? ["points", "time_secs"] v
  let points ← g.required count? "points"
  let seconds ← g.required duration? "time_secs"
  some { points, seconds }

def karma? (v : Value) : Option Karma := do
  let g ← group? ["initial", "max", "increment", "decrement", "restore", "penalty"] v
  let initial ← g.required points? "initial"
  let max ← g.required points? "max"
  let increment ← g.required points? "increment"
  let decrement ← g.required points? "decrement"
  let restore ← g.required points? "restore"
  let penalty ← g.required points? "penalty"
  some { initial, max, increment, decrement, restore, penalty }

def listener? (v : Value) : Option Listener := do
  let base : Listener := {}
  let g ← group? ["address", "port", "rate", "karma"] v
  let address ← g.withDefault address? base.address "address"
  let port ← g.withDefault port? base.port "port"
  let rate ← g.optional rate? "rate"
  let karma ← g.optional karma? "karma"
  some { address, port, rate, karma }

def dialback? (v : Value) : Option Dialback := do
  let base : Dialback := {}
  let g ← group? ["secret", "allow_legacy", "idle_timeout_secs", "queue_timeout_secs",
    "auth_timeout_secs", "connect_timeout_secs", "default_port", "hosts", "listeners"] v
  let secret ← g.withDefault (fun v => (text? v).map some) none "secret"
  let allowLegacy ← g.withDefault truth? base.allowLegacy "allow_legacy"
  let idleTimeout ← g.withDefault duration? base.idleTimeout "idle_timeout_secs"
  let queueTimeout ← g.withDefault duration? base.queueTimeout "queue_timeout_secs"
  let authTimeout ← g.withDefault (fun v => (duration? v).map some) none "auth_timeout_secs"
  let connectTimeout ← g.withDefault duration? base.connectTimeout "connect_timeout_secs"
  let defaultPort ← g.withDefault port? base.defaultPort "default_port"
  let hosts ← g.withDefault (list? row?) [] "hosts"
  let listeners ← g.withDefault (list? listener?) [] "listeners"
  some { secret, allowLegacy, idleTimeout, queueTimeout, authTimeout, connectTimeout, defaultPort,
         hosts, listeners }

def database? (v : Value) : Option Database := do
  let base : Database := {}
  let g ← group? ["path", "busy_timeout_ms", "pool_max_size"] v
  let path ← g.withDefault text? base.path "path"
  let busyTimeout ← g.withDefault duration? base.busyTimeout "busy_timeout_ms"
  let poolSize ← g.withDefault count? base.poolSize "pool_max_size"
  some { path, busyTimeout, poolSize }

def status? (v : Value) : Option Status := do
  let base : Status := {}
  let g ← group? ["host", "port"] v
  let host ← g.withDefault address? base.host "host"
  let port ← g.withDefault port? base.port "port"
  some { host, port }

def logging? (v : Value) : Option Logging := do
  let base : Logging := {}
  let g ← group? ["level", "json"] v
  let level ← g.withDefault text? base.level "level"
  let json ← g.withDefault truth? base.json "json"
  some { level, json }

def ofEntries? (entries : Toml.Entries) : Option Config := do
  let g : Group := ⟨entries.get?, false⟩
  let dialback ← g.withDefault dialback? {} "dialback"
  let database ← g.withDefault database? {} "database"
  let status ← g.withDefault status? {} "status"
  let logging ← g.withDefault logging? {} "logging"
  some { dialback, database, status, logging }

def parse (s : String) : Except Error Config :=
  match (Toml.parse? s).bind ofEntries? with
  | some config => .ok config
  | none => .error .unparsable

end Interdomain.Config
