/-! Reading bytes as UTF-8 when they may not be. Each longest run of bytes that begins a character but does not
end one, and each byte that begins none, is read as the replacement character. -/
namespace Interdomain.Text.Utf8

/-- What is read in the place of bytes that are no character. -/
def replacement : Char := Char.ofNat 0xFFFD

/-- What the first byte of a character says: its bits of the code, how many bytes follow, and the bounds of the
next byte. -/
structure Lead where
  bits : Nat
  following : Nat
  least : Nat := 0x80
  most : Nat := 0xBF

/-- The first byte of a character. The bounds leave out codes that fewer bytes would do for, surrogates, and
codes beyond the last character. -/
def lead? (b : Nat) : Option Lead :=
  if b < 0x80 then some { bits := b, following := 0 }
  else if b < 0xC2 then none
  else if b < 0xE0 then some { bits := b - 0xC0, following := 1 }
  else if b = 0xE0 then some { bits := 0, following := 2, least := 0xA0 }
  else if b = 0xED then some { bits := 0xD, following := 2, most := 0x9F }
  else if b < 0xF0 then some { bits := b - 0xE0, following := 2 }
  else if b = 0xF0 then some { bits := 0, following := 3, least := 0x90 }
  else if b < 0xF4 then some { bits := b - 0xF0, following := 3 }
  else if b = 0xF4 then some { bits := 4, following := 3, most := 0x8F }
  else none

/-- The character whose bits so far are given and so many bytes of which follow, and the bytes after it. -/
def finish (bits least most : Nat) : Nat → List UInt8 → Char × List UInt8
  | 0, bytes => (Char.ofNat bits, bytes)
  | _ + 1, [] => (replacement, [])
  | n + 1, b :: bytes =>
    if least ≤ b.toNat ∧ b.toNat ≤ most then finish (64 * bits + b.toNat % 64) 0x80 0xBF n bytes
    else (replacement, b :: bytes)

def first (b : UInt8) (bytes : List UInt8) : Char × List UInt8 :=
  match lead? b.toNat with
  | none => (replacement, bytes)
  | some l => finish l.bits l.least l.most l.following bytes

theorem finish_length_le (bits least most n : Nat) (bytes : List UInt8) :
    (finish bits least most n bytes).2.length ≤ bytes.length := by
  induction n generalizing bits least most bytes with
  | zero => simp [finish]
  | succ n ih =>
    cases bytes with
    | nil => simp [finish]
    | cons b bytes =>
      simp only [finish]
      split
      · exact Nat.le_succ_of_le (ih ..)
      · exact Nat.le_refl _

theorem first_length_le (b : UInt8) (bytes : List UInt8) : (first b bytes).2.length ≤ bytes.length := by
  unfold first
  split
  · exact Nat.le_refl _
  · exact finish_length_le ..

def decode : List UInt8 → List Char
  | [] => []
  | b :: bytes => (first b bytes).1 :: decode (first b bytes).2
termination_by bytes => bytes.length
decreasing_by exact Nat.lt_succ_of_le (first_length_le b bytes)

example : decode [0x61, 0xC3, 0xA9, 0xFF, 0xE2, 0x82, 0x62] =
    ['a', 'é', replacement, replacement, 'b'] := by
  simp [decode, first, lead?, finish]

end Interdomain.Text.Utf8
