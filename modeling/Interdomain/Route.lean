/-! The keys of the federation tables. A route is a pair of domains for stanzas on their way out; a claim
is a pair of domains for stanzas on their way in, together with the challenge of the stream that they come
in on. Both are ordered field by field. -/
namespace Interdomain

/-- Stanzas from a local domain to a remote one. -/
structure Route where
  destination : String
  source : String
  deriving Repr, DecidableEq

/-- The right, claimed on the stream with this challenge, to send stanzas from the remote domain `source`
to the local domain `destination`. -/
structure Claim where
  challenge : String
  destination : String
  source : String
  deriving Repr, DecidableEq

namespace Route

def toString (r : Route) : String := r.destination ++ "/" ++ r.source

/-- By destination, then by source. -/
def le (a b : Route) : Bool :=
  a.destination < b.destination || (a.destination = b.destination && a.source ≤ b.source)

end Route

namespace Claim

def toString (c : Claim) : String := c.challenge ++ "@" ++ c.destination ++ "/" ++ c.source

/-- By challenge, then by destination, then by source. -/
def le (a b : Claim) : Bool :=
  a.challenge < b.challenge || (a.challenge = b.challenge &&
    (a.destination < b.destination || (a.destination = b.destination && a.source ≤ b.source)))

end Claim

end Interdomain
