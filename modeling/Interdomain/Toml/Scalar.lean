import Interdomain.Text.Decimal
import Interdomain.Text.Hex
import Interdomain.Toml.Value

/-! Numbers, truth values, dates and times of TOML, each read from the whole of its text. -/
namespace Interdomain.Toml

/-- Digits that begin and end with a digit and have single underscores between them. -/
def numeral? (base : Nat) : List Char → Option (List Nat)
  | [] => none
  | [c] => (Text.digitIn? base c).map ([·])
  | c :: '_' :: rest => do
    let d ← Text.digitIn? base c
    let ds ← numeral? base rest
    some (d :: ds)
  | c :: rest => do
    let d ← Text.digitIn? base c
    let ds ← numeral? base rest
    some (d :: ds)

def valueOf (base : Nat) (digits : List Nat) : Nat := digits.foldl (fun n d => base * n + d) 0

/-- A sign, and what follows it; no sign is a plus. -/
def splitSign : List Char → Bool × List Char
  | '+' :: rest => (false, rest)
  | '-' :: rest => (true, rest)
  | cs => (false, cs)

/-- The digits of a decimal number, which begins with zero only if it is zero. -/
def decimal? (cs : List Char) : Option (List Nat) :=
  (numeral? 10 cs).filter fun digits => digits.length = 1 || digits.head? ≠ some 0

/-- An integer of sixty-four bits, in one of four bases. -/
def integer? (cs : List Char) : Option Int :=
  let value : Option Int := match cs with
    | '0' :: 'x' :: rest => (numeral? 16 rest).map fun ds => (valueOf 16 ds : Int)
    | '0' :: 'o' :: rest => (numeral? 8 rest).map fun ds => (valueOf 8 ds : Int)
    | '0' :: 'b' :: rest => (numeral? 2 rest).map fun ds => (valueOf 2 ds : Int)
    | _ =>
      let (negative, digits) := splitSign cs
      (decimal? digits).map fun ds => if negative then -(valueOf 10 ds : Int) else valueOf 10 ds
  value.filter fun i => Text.minInt64 ≤ i ∧ i ≤ Text.maxInt64

structure Scientific where
  negative : Bool
  whole : List Nat
  fraction : List Nat
  exponent : Int
  deriving Repr, DecidableEq

def exponent? (cs : List Char) : Option Int :=
  let (negative, digits) := splitSign cs
  (numeral? 10 digits).map fun ds => if negative then -(valueOf 10 ds : Int) else valueOf 10 ds

def isExponentMark (c : Char) : Bool := c = 'e' || c = 'E'

def scientific? (cs : List Char) : Option Scientific := do
  let (negative, body) := splitSign cs
  let mantissa := body.takeWhile fun c => !isExponentMark c
  let whole ← decimal? (mantissa.takeWhile (· ≠ '.'))
  let fraction ← match mantissa.dropWhile (· ≠ '.') with
    | [] => some []
    | _ :: digits => numeral? 10 digits
  let exponent ← match body.dropWhile fun c => !isExponentMark c with
    | [] => if fraction.isEmpty then none else some 0
    | _ :: digits => exponent? digits
  some ⟨negative, whole, fraction, exponent⟩

/-- The number rounds to a finite one of sixty-four bits: it lies below the middle between the largest of
these and the next that there would be. -/
def Scientific.isFinite (s : Scientific) : Bool :=
  let digits := valueOf 10 (s.whole ++ s.fraction)
  let exponent := s.exponent - s.fraction.length
  let limit := Nat.pow 2 1024 - Nat.pow 2 970
  if digits = 0 then true
  else if 400 < exponent then false
  else if exponent < -(s.whole.length + s.fraction.length : Int) then true
  else if 0 ≤ exponent then digits * Nat.pow 10 exponent.toNat < limit
  else digits < limit * Nat.pow 10 (-exponent).toNat

/-- A number with a point or an exponent, or one of the names of infinity and of no number. No number is
too large to be finite, unless it is negative. -/
def isFloat (cs : List Char) : Bool :=
  let (_, unsigned) := splitSign cs
  unsigned = "inf".toList || unsigned = "nan".toList ||
    (scientific? cs).any fun s => s.negative || s.isFinite

def fixed? (least most : Nat) (cs : List Char) : Option Nat :=
  (Text.digits? cs).filter fun n => least ≤ n && n ≤ most

def isLeap (year : Nat) : Bool := year % 4 = 0 && (year % 100 ≠ 0 || year % 400 = 0)

def daysIn (year month : Nat) : Nat :=
  if month = 2 then (if isLeap year then 29 else 28)
  else if month = 4 || month = 6 || month = 9 || month = 11 then 30
  else 31

/-- The text `YYYY-MM-DD` of a day that there is. -/
def isDate : List Char → Bool
  | [y₁, y₂, y₃, y₄, '-', m₁, m₂, '-', d₁, d₂] =>
    match fixed? 0 9999 [y₁, y₂, y₃, y₄], fixed? 1 12 [m₁, m₂], fixed? 1 31 [d₁, d₂] with
    | some year, some month, some day => day ≤ daysIn year month
    | _, _, _ => false
  | _ => false

/-- The text `HH:MM:SS`, with or without a fraction of the second. -/
def isTime : List Char → Bool
  | h₁ :: h₂ :: ':' :: m₁ :: m₂ :: ':' :: s₁ :: s₂ :: fraction =>
    (fixed? 0 23 [h₁, h₂]).isSome && (fixed? 0 59 [m₁, m₂]).isSome && (fixed? 0 60 [s₁, s₂]).isSome &&
      (match fraction with
        | [] => true
        | '.' :: digits => (Text.digits? digits).isSome
        | _ => false)
  | _ => false

def isOffset : List Char → Bool
  | ['Z'] | ['z'] => true
  | [sign, h₁, h₂, ':', m₁, m₂] =>
    (sign = '+' || sign = '-') && (fixed? 0 23 [h₁, h₂]).isSome && (fixed? 0 59 [m₁, m₂]).isSome
  | _ => false

def beginsOffset (c : Char) : Bool := c = 'Z' || c = 'z' || c = '+' || c = '-'

/-- A date, a time, or a date and a time with or without an offset. -/
def isDatetime (cs : List Char) : Bool :=
  isDate cs || isTime cs ||
    (isDate (cs.take 10) &&
      match cs.drop 10 with
      | mark :: rest =>
        let time := rest.takeWhile fun c => !beginsOffset c
        let offset := rest.dropWhile fun c => !beginsOffset c
        (mark = 'T' || mark = 't' || mark = ' ') && isTime time && (offset.isEmpty || isOffset offset)
      | [] => false)

def scalar? (cs : List Char) : Option Value :=
  if cs = "true".toList then some (.boolean true)
  else if cs = "false".toList then some (.boolean false)
  else if isDatetime cs then some (.datetime (String.ofList cs))
  else if isFloat cs then some (.float (String.ofList cs))
  else (integer? cs).map .integer

example : (integer? "1_000".toList, integer? "0x10".toList, integer? "007".toList) =
    (some 1000, some 16, none) := by decide
example : isDatetime "2024-02-29 07:32:00.5Z".toList = true := by decide
example : isDatetime "2023-02-29".toList = false := by decide

end Interdomain.Toml
