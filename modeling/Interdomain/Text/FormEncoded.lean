import Interdomain.Text.Hex
import Interdomain.Text.Split
import Interdomain.Text.Utf8

/-! Form-encoded pairs of a name and a value, as in the query of a request. Pairs stand between ampersands, and
the first equals sign of a pair ends its name; a plus sign is a space, and a percent sign with two hexadecimal
digits is a byte. Any text is read as some pairs: a percent sign without two digits stands for itself. -/
namespace Interdomain.Text.FormEncoded

/-- Two hexadecimal digits, as the codes of characters, make a byte. -/
def escapedByte? (high low : UInt8) : Option UInt8 := do
  let x ← hexValue? (Char.ofNat high.toNat)
  let y ← hexValue? (Char.ofNat low.toNat)
  some (UInt8.ofNat (16 * x + y))

def unescape : List UInt8 → List UInt8
  | [] => []
  | [a] => [a]
  | [a, b] => [a, b]
  | a :: b :: c :: bytes =>
    if a = 0x25 then
      match escapedByte? b c with
      | some x => x :: unescape bytes
      | none => a :: unescape (b :: c :: bytes)
    else a :: unescape (b :: c :: bytes)

def decode (cs : List Char) : String :=
  let spaced := cs.map fun c => if c = '+' then ' ' else c
  String.ofList (Utf8.decode (unescape (String.ofList spaced).toUTF8.toList))

/-- The pair in a text that is not empty; without an equals sign the value is empty. -/
def pair (cs : List Char) : String × String :=
  match splitFirst '=' cs with
  | some (name, value) => (decode name, decode value)
  | none => (decode cs, "")

/-- The pairs in a text; nothing between two ampersands is no pair. -/
def parse (s : String) : List (String × String) :=
  ((splitAll '&' s.toList).filter (· ≠ [])).map pair

end Interdomain.Text.FormEncoded
