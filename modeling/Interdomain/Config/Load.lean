import Interdomain.Config.File

/-! How a configuration is put together: from a file, if there is one, and from the environment, whose
variables take precedence. -/
namespace Interdomain.Config

abbrev Environment := String → Option String

/-- A variable whose value, without the blanks around it, can be read; others count as absent. -/
def readable {α : Type} (env : Environment) (read : String → Option α) (name : String) : Option α :=
  (env name).bind fun text => read (Text.trim text)

def overriding {α : Type} (value : Option α) (setting : α) : α := value.getD setting

/-- The variables that set a time in seconds hold a number of sixty-four bits. -/
def seconds (env : Environment) (name : String) : Option Nat :=
  readable env (Text.natural? Text.max64) name

/-- The logs are in JSON if the variable says so. -/
def saysTrue (text : String) : Bool := text = "true" || text = "1"

/-- The configuration with the settings that variables of the environment override. -/
def override (c : Config) (env : Environment) : Config where
  dialback := { c.dialback with
    secret := env "S2S_SECRET" <|> c.dialback.secret
    idleTimeout := overriding (seconds env "S2S_IDLE_TIMEOUT_SECS") c.dialback.idleTimeout
    queueTimeout := overriding (seconds env "S2S_QUEUE_TIMEOUT_SECS") c.dialback.queueTimeout
    authTimeout := seconds env "S2S_AUTH_TIMEOUT_SECS" <|> c.dialback.authTimeout
    connectTimeout := overriding (seconds env "S2S_CONNECT_TIMEOUT_SECS") c.dialback.connectTimeout }
  database := { c.database with path := overriding (env "S2S_DB_PATH") c.database.path }
  status := {
    host := overriding (readable env IpAddress.parse? "S2S_STATUS_HOST") c.status.host
    port := overriding (readable env (Text.natural? Text.max16) "S2S_STATUS_PORT") c.status.port }
  logging := {
    level := overriding (env "S2S_LOG_LEVEL") c.logging.level
    json := overriding ((env "S2S_LOG_JSON").map saysTrue) c.logging.json }

/-- What is found at the path of the configuration. -/
inductive File where
  | absent
  | present (bytes : List UInt8)

/-- The configuration in a file; one that is not there configures nothing. -/
def File.read : File → Except Error Config
  | .absent => .ok {}
  | .present bytes =>
    match String.fromUTF8? ⟨bytes.toArray⟩ with
    | some text => parse text
    | none => .error .unreadable

/-- The configuration in a file and the environment, whose policy rows must be well formed. -/
def load (file : File) (env : Environment) : Except Error Config := do
  let config := (← file.read).override env
  let _ ← config.dialback.policy
  return config

/-- Where the path of the configuration came from. -/
inductive PathSource where
  | argument
  | environment
  | default
  deriving Repr, DecidableEq

def PathSource.name : PathSource → String
  | argument => "cli-arg"
  | environment => "env-var"
  | default => "default"

/-- The path of the configuration: the one given as an argument, or else the one that the environment names,
unless they are blank. -/
def path (argument named : Option String) : String × PathSource :=
  match argument.filter (Text.trim · ≠ ""), named.filter (Text.trim · ≠ "") with
  | some p, _ => (p, .argument)
  | none, some p => (p, .environment)
  | none, none => ("config.toml", .default)

end Interdomain.Config
