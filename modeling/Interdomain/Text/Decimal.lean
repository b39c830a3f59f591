/-! Decimal numbers within bounds. A number is an optional sign and one or more ASCII digits; a number
outside the bounds is not read at all. -/
namespace Interdomain.Text

def digit? (c : Char) : Option Nat :=
  if '0' ≤ c ∧ c ≤ '9' then some (c.toNat - '0'.toNat) else none

/-- The value of the digits, read on from the value `n` of the digits before them. -/
def digitsFrom? (n : Nat) : List Char → Option Nat
  | [] => some n
  | c :: cs => (digit? c).bind fun d => digitsFrom? (10 * n + d) cs

def digits? : List Char → Option Nat
  | [] => none
  | cs => digitsFrom? 0 cs

/-- A number up to `most`; a leading plus sign is allowed. -/
def naturalChars? (most : Nat) (cs : List Char) : Option Nat :=
  let unsigned := match cs with
    | '+' :: rest => rest
    | _ => cs
  (digits? unsigned).filter (· ≤ most)

def natural? (most : Nat) (s : String) : Option Nat := naturalChars? most s.toList

/-- A number from `least` to `most`; a leading sign is allowed. -/
def integer? (least most : Int) (s : String) : Option Int :=
  let value : Option Int := match s.toList with
    | '+' :: rest => (digits? rest).map Int.ofNat
    | '-' :: rest => (digits? rest).map fun n => -Int.ofNat n
    | cs => (digits? cs).map Int.ofNat
  value.filter fun i => least ≤ i ∧ i ≤ most

/-- The largest numbers of sixteen, thirty-two and sixty-four bits. -/
def max16 : Nat := Nat.pow 2 16 - 1
def max32 : Nat := Nat.pow 2 32 - 1
def max64 : Nat := Nat.pow 2 64 - 1

def minInt32 : Int := -Int.pow 2 31
def maxInt32 : Int := Int.pow 2 31 - 1
def minInt64 : Int := -Int.pow 2 63
def maxInt64 : Int := Int.pow 2 63 - 1

theorem naturalChars?_le {most n : Nat} {cs : List Char} (h : naturalChars? most cs = some n) :
    n ≤ most := by
  simp only [naturalChars?, Option.filter_eq_some_iff, decide_eq_true_eq] at h
  exact h.2

example : natural? max16 "+5269" = some 5269 := by decide
example : natural? max16 "65536" = none := by decide
example : natural? max16 "-0" = none := by decide
example : integer? minInt64 maxInt64 "-1" = some (-1) := by decide

end Interdomain.Text
