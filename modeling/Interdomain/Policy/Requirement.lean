import Interdomain.Malformed
import Interdomain.Text.Blank
import Interdomain.Text.Decimal

/-! What may be demanded of the streams of a peer: a protection level and whether TLS is negotiated at
all, the ways of authentication, and the protocol version. -/
namespace Interdomain.Policy

/-- How well a stream is protected: nothing at zero, integrity at one, and the bits of the cipher above. -/
abbrev Level := Nat

namespace Level

def toString (l : Level) : String :=
  match l with
  | 0 => "none"
  | 1 => "integrity-only"
  | n => Nat.repr n ++ "-bit"

def isEncrypted (l : Level) : Bool := 2 ≤ l

end Level

inductive TlsRequirement where
  /-- TLS is never negotiated. -/
  | disabled
  /-- TLS is negotiated where it is offered, and the level must be reached. -/
  | minimum (level : Level)
  deriving Repr, DecidableEq

inductive AuthRequirement where
  | any
  | dialbackOnly
  | saslOnly
  deriving Repr, DecidableEq

inductive VersionRequirement where
  | allowed
  /-- Streams are those from before there were versions. -/
  | disabled
  /-- Streams from before there were versions are refused. -/
  | forced
  deriving Repr, DecidableEq

inductive Mechanism where
  | dialback
  | sasl
  deriving Repr, DecidableEq

/-- The side that opened a stream: a peer, or this server. -/
inductive Direction where
  | inbound
  | outbound
  deriving Repr, DecidableEq

namespace TlsRequirement

/-- The lowest level that encrypts. -/
def forced : TlsRequirement := .minimum 2

def parse (s : String) : Except Malformed TlsRequirement :=
  let t := Text.trim s
  if t = "no" then .ok .disabled
  else if t = "force" then .ok forced
  else match Text.natural? Text.max32 t with
    | some level => .ok (.minimum level)
    | none => .error (.tlsRequirement s)

def toString : TlsRequirement → String
  | disabled => "no"
  | minimum level => Nat.repr level

/-- The level that a stream must have to carry stanzas. -/
def requiredLevel : TlsRequirement → Level
  | disabled => 0
  | minimum level => level

def allowsStartTls : TlsRequirement → Bool
  | disabled => false
  | minimum _ => true

end TlsRequirement

namespace AuthRequirement

def parse (s : String) : Except Malformed AuthRequirement :=
  let t := Text.trim s
  if t = "db" then .ok dialbackOnly
  else if t = "sasl" then .ok saslOnly
  else .error (.authRequirement s)

def toString : AuthRequirement → String
  | any => "any"
  | dialbackOnly => "db"
  | saslOnly => "sasl"

def permits : AuthRequirement → Mechanism → Bool
  | saslOnly, .dialback => false
  | dialbackOnly, .sasl => false
  | _, _ => true

end AuthRequirement

namespace VersionRequirement

def parse (s : String) : Except Malformed VersionRequirement :=
  let t := Text.trim s
  if t = "no" then .ok disabled
  else if t = "force" then .ok forced
  else .error (.versionRequirement s)

def toString : VersionRequirement → String
  | allowed => "allowed"
  | disabled => "no"
  | forced => "force"

end VersionRequirement

namespace Mechanism

def toString : Mechanism → String
  | dialback => "db"
  | sasl => "sasl"

end Mechanism

namespace Direction

def toString : Direction → String
  | inbound => "in"
  | outbound => "out"

def parse (s : String) : Except Malformed Direction :=
  if s = "in" then .ok inbound
  else if s = "out" then .ok outbound
  else .error (.direction s)

@[simp] theorem parse_toString (d : Direction) : parse d.toString = .ok d := by cases d <;> rfl

end Direction

end Interdomain.Policy
