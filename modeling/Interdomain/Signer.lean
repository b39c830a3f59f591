import Interdomain.Digest.Hmac
import Interdomain.Text.Hex

/-! The keys a server gives out. A dialback key is the digest, under the server's secret, of the pair of
domains and the challenge that it vouches for; the loop token is the digest of a fixed text, so a server
knows its own stream headers again. -/
namespace Interdomain

structure Signer where
  digest : String → String

namespace Signer

/-- The digest is HMAC-SHA256 in hexadecimal, under the hexadecimal SHA-256 digest of the secret. -/
def ofSecret (secret : String) : Signer where
  digest text :=
    let key := (Text.hex (Digest.sha256 secret.toUTF8.data.toList)).toUTF8.data.toList
    Text.hex (Digest.hmacSha256 key text.toUTF8.data.toList)

def keyText (destination source challenge : String) : String :=
  destination ++ " " ++ source ++ " " ++ challenge

def loopText : String := "loopcheck"

/-- The key that lets `source` send to `destination` on the stream with this challenge. -/
def key (s : Signer) (destination source challenge : String) : String :=
  s.digest (keyText destination source challenge)

def loopToken (s : Signer) : String := s.digest loopText

end Signer

end Interdomain
