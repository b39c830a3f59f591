import Interdomain.Effect

/-! Carriers: streams that are authorized to carry the stanzas of one pair of domains, with a count of what
they carried. -/
namespace Interdomain

/-- A stream with the right to carry stanzas. -/
structure Carrier where
  link : LinkId
  address : Option String
  stanzas : Nat
  opened : Nat
  lastUsed : Nat
  deriving Repr, DecidableEq

namespace Carrier

def start (link : LinkId) (address : Option String) (now : Nat) : Carrier :=
  ⟨link, address, 0, now, now⟩

def carry (c : Carrier) (now : Nat) : Carrier :=
  { c with stanzas := c.stanzas + 1, lastUsed := now }

/-- How long it has carried nothing; zero for an instant before its last use. -/
def idleFor (c : Carrier) (now : Nat) : Nat := now - c.lastUsed

def account (c : Carrier) (peer : String) (direction : Policy.Direction) (now : Nat) : Account :=
  ⟨peer, direction, c.stanzas, c.address, now - c.opened⟩

end Carrier

end Interdomain
