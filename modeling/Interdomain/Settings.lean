import Interdomain.Policy.Book
import Interdomain.Signer

/-! The settings of a gateway, all times in milliseconds, and what never changes while it runs. -/
namespace Interdomain

structure Settings where
  secret : String
  /-- Streams from before dialback are admitted without authentication. -/
  allowLegacy : Bool := false
  /-- How long an authorization may carry nothing. -/
  idleTimeout : Nat := 900000
  /-- How long a stanza may wait for a route. -/
  queueTimeout : Nat := 30000
  /-- How long a stream may take to be authorized. -/
  authTimeout : Nat := 900000
  /-- How long the opening of a link may take. -/
  connectTimeout : Nat := 20000
  defaultPort : Nat := 5269
  deriving Repr, DecidableEq

/-- How often timeouts are looked after: each minute, or at the shorter of the idle and the authentication
timeout if that is less, but never more than once a second. -/
def Settings.sweepInterval (s : Settings) : Nat :=
  max 1000 (min 60000 (min s.idleTimeout s.authTimeout))

structure Setup where
  settings : Settings
  policy : Policy.Book
  signer : Signer

def Setup.ofSettings (settings : Settings) (policy : Policy.Book) : Setup :=
  ⟨settings, policy, .ofSecret settings.secret⟩

end Interdomain
