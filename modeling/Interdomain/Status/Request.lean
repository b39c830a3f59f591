import Interdomain.Status.Target

/-! Requests for a status report: a method and a target. -/
namespace Interdomain.Status

inductive Method where
  | get
  | head
  | other
  deriving Repr, DecidableEq

structure Request where
  method : Method
  target : Target
  deriving Repr, DecidableEq

namespace Request

def isTokenChar (c : Char) : Bool := c.isAlphanum || c ∈ "!#$%&'*+-.^_|~".toList || c.toNat = 0x60

def method? (s : String) : Option Method :=
  if s = "GET" then some .get
  else if s = "HEAD" then some .head
  else if s ≠ "" ∧ s.toList.all isTokenChar then some .other
  else none

/-- The request with the name of a method and a target, if it can be written. -/
def parse? (name target : String) : Option Request := do
  let method ← method? name
  let target ← Target.parse? target
  some { method, target }

end Request

end Interdomain.Status
