import Interdomain.Text.CaseTable

/-! Full Unicode lowercase of a text. One character maps to two (`İ` to `i` and a dot above), and a
capital sigma maps to the final form `ς` at the end of a word: when the nearest character before it that
case mapping does not ignore is cased, and the nearest one after it is not. -/
namespace Interdomain.Text

def CaseRun.covers (r : CaseRun) (n : Nat) : Bool :=
  r.first ≤ n && n ≤ r.last && (n - r.first) % r.stride = 0

/-- The lowercase form of a character that has exactly one. -/
def lowerChar (c : Char) : Char :=
  if c.toNat < 128 then c.toLower
  else match lowercaseRuns.find? (·.covers c.toNat) with
    | some r => Char.ofNat (r.target + (c.toNat - r.first))
    | none => c

def inRanges (ranges : List (Nat × Nat)) (c : Char) : Bool :=
  ranges.any fun r => r.1 ≤ c.toNat && c.toNat ≤ r.2

/-- The first character that case mapping does not ignore is cased. -/
def leadsCased (cs : List Char) : Bool :=
  match cs.find? (fun c => !inRanges caseIgnorableRanges c) with
  | some c => inRanges casedRanges c
  | none => false

/-- The lowercase form of `c` between the characters `before`, nearest first, and `after`. -/
def lowerAt (before : List Char) (c : Char) (after : List Char) : List Char :=
  if c = 'Σ' then [if leadsCased before && !leadsCased after then 'ς' else 'σ']
  else if c = 'İ' then ['i', Char.ofNat 0x307]
  else [lowerChar c]

/-- The lowercase form of the characters that follow `before`, which is given nearest first. -/
def lowerFrom (before : List Char) : List Char → List Char
  | [] => []
  | c :: cs => lowerAt before c cs ++ lowerFrom (c :: before) cs

def lowercase (s : String) : String := String.ofList (lowerFrom [] s.toList)

example : lowercase "Mail.EXAMPLE" = "mail.example" := by decide
example : lowercase "ΣΑΣ" = "σας" := by decide +kernel

end Interdomain.Text
