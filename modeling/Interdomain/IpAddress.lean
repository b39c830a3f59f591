import Interdomain.Text.Hex
import Interdomain.Text.Split

/-! Internet addresses and their texts. An address of version 4 is four decimal numbers. One of version 6 is
eight groups of hexadecimal digits; one run of zero groups may be left out, and the last two groups may be
written as an address of version 4. -/
namespace Interdomain

inductive IpAddress where
  /-- Four numbers below 256. -/
  | v4 (octets : List Nat)
  /-- Eight numbers below 65536. -/
  | v6 (groups : List Nat)
  deriving Repr, DecidableEq

namespace IpAddress

def number? (base : Nat) : List Char → Option Nat
  | [] => none
  | cs => cs.foldlM (fun n c => (Text.digitIn? base c).map (base * n + ·)) 0

/-- A number below 256 without zeros in front. -/
def octet? (cs : List Char) : Option Nat :=
  if cs.length ≤ 3 ∧ (cs.length = 1 ∨ cs.head? ≠ some '0') then (number? 10 cs).filter (· < 256)
  else none

def octets? (cs : List Char) : Option (List Nat) :=
  ((Text.splitAll '.' cs).mapM octet?).filter (·.length = 4)

/-- A group of at most four hexadecimal digits. -/
def group? (cs : List Char) : Option Nat := if cs.length ≤ 4 then number? 16 cs else none

def groupsOfOctets : List Nat → List Nat
  | a :: b :: rest => (256 * a + b) :: groupsOfOctets rest
  | _ => []

/-- The groups in pieces that colons separate; the last piece may be an address of version 4 where
`mayEndIn4` says so. -/
def groupsOf? (mayEndIn4 : Bool) : List (List Char) → Option (List Nat)
  | [] => some []
  | [last] =>
    match group? last with
    | some g => some [g]
    | none => if mayEndIn4 then (octets? last).map groupsOfOctets else none
  | piece :: rest => do
    let g ← group? piece
    let gs ← groupsOf? mayEndIn4 rest
    some (g :: gs)

def groups? (mayEndIn4 : Bool) (cs : List Char) : Option (List Nat) :=
  if cs.isEmpty then some [] else groupsOf? mayEndIn4 (Text.splitAll ':' cs)

def splitDoubleColon : List Char → Option (List Char × List Char)
  | ':' :: ':' :: rest => some ([], rest)
  | c :: rest => (splitDoubleColon rest).map fun p => (c :: p.1, p.2)
  | [] => none

def v6Groups? (cs : List Char) : Option (List Nat) :=
  match splitDoubleColon cs with
  | none => (groups? true cs).filter (·.length = 8)
  | some (front, back) => do
    let head ← groups? false front
    let tail ← groups? true back
    let missing := 8 - (head.length + tail.length)
    if missing = 0 then none else some (head ++ List.replicate missing 0 ++ tail)

def parse? (s : String) : Option IpAddress :=
  match octets? s.toList with
  | some octets => some (.v4 octets)
  | none => (v6Groups? s.toList).map .v6

def hexText (n : Nat) : String := String.ofList (Nat.toDigits 16 n)

def dotted (octets : List Nat) : String := ".".intercalate (octets.map Nat.repr)

def colons (groups : List Nat) : String := ":".intercalate (groups.map hexText)

def octetsOfGroups (groups : List Nat) : List Nat := groups.flatMap fun g => [g / 256, g % 256]

def leadingZeros (groups : List Nat) : Nat := (groups.takeWhile (· = 0)).length

/-- Where the longest run of zero groups begins, counted from `start`, and how long it is; of several, the
first. -/
def longestZeros (start : Nat) : List Nat → Nat × Nat
  | [] => (start, 0)
  | g :: gs =>
    let here := leadingZeros (g :: gs)
    let later := longestZeros (start + 1) gs
    if later.2 ≤ here then (start, here) else later

/-- The text of an address of version 6: an address of version 4 mapped into it is written as such, and the
longest run of two or more zero groups is left out. -/
def v6Text (groups : List Nat) : String :=
  if groups.take 6 = [0, 0, 0, 0, 0, 0xffff] then
    "::ffff:" ++ dotted (octetsOfGroups (groups.drop 6))
  else
    let (start, length) := longestZeros 0 groups
    if 2 ≤ length then colons (groups.take start) ++ "::" ++ colons (groups.drop (start + length))
    else colons groups

def toString : IpAddress → String
  | v4 octets => dotted octets
  | v6 groups => v6Text groups

/-- The address with a port; one of version 6 stands in brackets. -/
def withPort (a : IpAddress) (port : Nat) : String :=
  match a with
  | v4 _ => a.toString ++ ":" ++ Nat.repr port
  | v6 _ => "[" ++ a.toString ++ "]:" ++ Nat.repr port

def unspecified : IpAddress := .v4 [0, 0, 0, 0]

def localhost : IpAddress := .v4 [127, 0, 0, 1]

end IpAddress

end Interdomain
