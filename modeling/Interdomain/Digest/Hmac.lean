import Interdomain.Digest.Sha256

/-! Keyed digests: HMAC over SHA-256. -/
namespace Interdomain.Digest

/-- The key as one block: digested first if it is longer, then filled with zeros. -/
def hmacKeyBlock (key : List UInt8) : List UInt8 :=
  let short := if key.length ≤ 64 then key else sha256 key
  short ++ List.replicate (64 - short.length) 0

def hmacSha256 (key message : List UInt8) : List UInt8 :=
  let block := hmacKeyBlock key
  sha256 (block.map (· ^^^ 0x5c) ++ sha256 (block.map (· ^^^ 0x36) ++ message))

end Interdomain.Digest
