import Interdomain.IpAddress
import Interdomain.Settings

/-! The configuration of a federation service, all of it optional. -/
namespace Interdomain

namespace Config

/-- A limit on new connections: so many points in so many seconds. -/
structure Rate where
  points : Nat
  seconds : Nat
  deriving Repr, DecidableEq

/-- The parameters by which reading from a peer is slowed down. -/
structure Karma where
  initial : Int
  max : Int
  increment : Int
  decrement : Int
  restore : Int
  penalty : Int
  deriving Repr, DecidableEq

structure Listener where
  address : IpAddress := .unspecified
  port : Nat := 5269
  rate : Option Rate := none
  karma : Option Karma := none
  deriving Repr, DecidableEq

/-- The settings of the gateway, with times in seconds. -/
structure Dialback where
  /-- One is generated if there is none, or an empty one. -/
  secret : Option String := none
  allowLegacy : Bool := false
  idleTimeout : Nat := 900
  queueTimeout : Nat := 30
  /-- The idle timeout, if it is absent. -/
  authTimeout : Option Nat := none
  connectTimeout : Nat := 20
  defaultPort : Nat := 5269
  hosts : List Policy.Row := []
  listeners : List Listener := []
  deriving Repr, DecidableEq

structure Database where
  path : String := "s2s.db"
  /-- How many milliseconds a busy database is waited for. -/
  busyTimeout : Nat := 5000
  poolSize : Nat := 8
  deriving Repr, DecidableEq

structure Status where
  host : IpAddress := .localhost
  port : Nat := 5280
  deriving Repr, DecidableEq

structure Logging where
  level : String := "info"
  json : Bool := false
  deriving Repr, DecidableEq

inductive Error where
  /-- The file cannot be read as text. -/
  | unreadable
  /-- The text is no configuration. -/
  | unparsable
  /-- The policy row of a host has a malformed setting. -/
  | policy (host : String) (cause : Malformed)
  deriving Repr, DecidableEq

def Error.message : Error → String
  | unreadable => "failed to read config file"
  | unparsable => "failed to parse config file"
  | policy host cause => "invalid policy for host '" ++ host ++ "': " ++ cause.message

namespace Dialback

def givenSecret? (d : Dialback) : Option String := d.secret.filter (· ≠ "")

def settings (d : Dialback) (generated : String) : Settings where
  secret := d.givenSecret?.getD generated
  allowLegacy := d.allowLegacy
  idleTimeout := d.idleTimeout * 1000
  queueTimeout := d.queueTimeout * 1000
  authTimeout := d.authTimeout.getD d.idleTimeout * 1000
  connectTimeout := d.connectTimeout * 1000
  defaultPort := d.defaultPort

def policy (d : Dialback) : Except Error Policy.Book :=
  match Policy.Book.ofRows d.hosts with
  | .ok book => .ok book
  | .error (host, cause) => .error (.policy host cause)

end Dialback

def Status.address (s : Status) : String := s.host.withPort s.port

end Config

structure Config where
  dialback : Config.Dialback := {}
  database : Config.Database := {}
  status : Config.Status := {}
  logging : Config.Logging := {}
  deriving Repr, DecidableEq

end Interdomain
