/-! Base64 with the standard alphabet and padding. Three bytes become four characters; a last group of
one or two bytes is filled up with `=`. Decoding takes exactly the canonical form: full padding, and no
stray bits in the last character before it. -/
namespace Interdomain.Text.Base64

def encodeDigit (n : Nat) : Char :=
  if n < 26 then Char.ofNat ('A'.toNat + n)
  else if n < 52 then Char.ofNat ('a'.toNat + (n - 26))
  else if n < 62 then Char.ofNat ('0'.toNat + (n - 52))
  else if n = 62 then '+'
  else '/'

def decodeDigit? (c : Char) : Option Nat :=
  if 'A' ≤ c ∧ c ≤ 'Z' then some (c.toNat - 'A'.toNat)
  else if 'a' ≤ c ∧ c ≤ 'z' then some (c.toNat - 'a'.toNat + 26)
  else if '0' ≤ c ∧ c ≤ '9' then some (c.toNat - '0'.toNat + 52)
  else if c = '+' then some 62
  else if c = '/' then some 63
  else none

def encode : List UInt8 → List Char
  | [] => []
  | [a] =>
    [encodeDigit (a.toNat / 4), encodeDigit (a.toNat % 4 * 16), '=', '=']
  | [a, b] =>
    [encodeDigit (a.toNat / 4), encodeDigit (a.toNat % 4 * 16 + b.toNat / 16),
      encodeDigit (b.toNat % 16 * 4), '=']
  | a :: b :: c :: rest =>
    encodeDigit (a.toNat / 4) :: encodeDigit (a.toNat % 4 * 16 + b.toNat / 16) ::
      encodeDigit (b.toNat % 16 * 4 + c.toNat / 64) :: encodeDigit (c.toNat % 64) :: encode rest

/-- The last group of characters, with its padding. -/
def decodeLast? (a b c d : Char) : Option (List UInt8) := do
  let x ← decodeDigit? a
  let y ← decodeDigit? b
  if c = '=' ∧ d = '=' then
    if y % 16 = 0 then some [UInt8.ofNat (x * 4 + y / 16)] else none
  else
    let z ← decodeDigit? c
    if d = '=' then
      if z % 4 = 0 then some [UInt8.ofNat (x * 4 + y / 16), UInt8.ofNat (y % 16 * 16 + z / 4)] else none
    else
      let w ← decodeDigit? d
      some [UInt8.ofNat (x * 4 + y / 16), UInt8.ofNat (y % 16 * 16 + z / 4), UInt8.ofNat (z % 4 * 64 + w)]

/-- A group of characters that others follow, and so has no padding. -/
def decodeGroup? (a b c d : Char) : Option (List UInt8) := do
  let x ← decodeDigit? a
  let y ← decodeDigit? b
  let z ← decodeDigit? c
  let w ← decodeDigit? d
  some [UInt8.ofNat (x * 4 + y / 16), UInt8.ofNat (y % 16 * 16 + z / 4), UInt8.ofNat (z % 4 * 64 + w)]

/-- The bytes that a canonical text stands for. -/
def decode? : List Char → Option (List UInt8)
  | [] => some []
  | [a, b, c, d] => decodeLast? a b c d
  | a :: b :: c :: d :: rest => do
    let group ← decodeGroup? a b c d
    let bytes ← decode? rest
    some (group ++ bytes)
  | _ => none

example : encode [97, 46, 98] = "YS5i".toList := by decide
example : decode? "YS5iYw==".toList = some [97, 46, 98, 99] := by decide
example : decode? "YS5iYx==".toList = none := by decide

end Interdomain.Text.Base64
