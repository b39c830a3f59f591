import Interdomain.Text.Hex

/-! Quoted texts of TOML. Between double quotes there may be escapes; between single quotes every character
stands for itself. Three quotes open a text over several lines, which a line end right after them does not
belong to. -/
namespace Interdomain.Toml

/-- The characters of comments and texts: blanks, printable ASCII, and all characters beyond ASCII. -/
def isTextChar (c : Char) : Bool :=
  c = '\t' || (0x20 ≤ c.toNat && c.toNat ≤ 0x7E) || 0x80 ≤ c.toNat

def escaped? (c : Char) : Option Char :=
  if c = 'b' then some (Char.ofNat 8)
  else if c = 't' then some '\t'
  else if c = 'n' then some '\n'
  else if c = 'f' then some (Char.ofNat 12)
  else if c = 'r' then some '\r'
  else if c = '"' then some '"'
  else if c = '\\' then some '\\'
  else none

def codeChar? (digits : List Char) : Option Char := do
  let values ← digits.mapM Text.hexValue?
  let code := values.foldl (fun n d => 16 * n + d) 0
  if code.isValidChar then some (Char.ofNat code) else none

/-- A text that was read, and what follows its end. -/
abbrev Scanned := List Char × List Char

def Scanned.cons (c : Char) (s : Scanned) : Scanned := (c :: s.1, s.2)

def basicText? : List Char → Option Scanned
  | '"' :: rest => some ([], rest)
  | '\\' :: 'u' :: a :: b :: c :: d :: rest => do
    let x ← codeChar? [a, b, c, d]
    (basicText? rest).map (Scanned.cons x)
  | '\\' :: 'U' :: a :: b :: c :: d :: e :: f :: g :: h :: rest => do
    let x ← codeChar? [a, b, c, d, e, f, g, h]
    (basicText? rest).map (Scanned.cons x)
  | '\\' :: c :: rest => do
    let x ← escaped? c
    (basicText? rest).map (Scanned.cons x)
  | c :: rest => if isTextChar c then (basicText? rest).map (Scanned.cons c) else none
  | [] => none

def literalText? : List Char → Option Scanned
  | '\'' :: rest => some ([], rest)
  | c :: rest => if isTextChar c then (literalText? rest).map (Scanned.cons c) else none
  | [] => none

/-- The line ends before anything but blanks. -/
def endsLine : List Char → Bool
  | ' ' :: rest | '\t' :: rest => endsLine rest
  | '\n' :: _ | '\r' :: '\n' :: _ => true
  | _ => false

/-- The text up to three closing double quotes, before which there may be one or two that belong to it. After
a backslash at the end of a line, blanks and line ends are `skipped`. -/
def basicLines? (skipped : Bool) : List Char → Option Scanned
  | '"' :: '"' :: '"' :: '"' :: '"' :: rest => some (['"', '"'], rest)
  | '"' :: '"' :: '"' :: '"' :: rest => some (['"'], rest)
  | '"' :: '"' :: '"' :: rest => some ([], rest)
  | '\\' :: 'u' :: a :: b :: c :: d :: rest => do
    let x ← codeChar? [a, b, c, d]
    (basicLines? false rest).map (Scanned.cons x)
  | '\\' :: 'U' :: a :: b :: c :: d :: e :: f :: g :: h :: rest => do
    let x ← codeChar? [a, b, c, d, e, f, g, h]
    (basicLines? false rest).map (Scanned.cons x)
  | '\r' :: '\n' :: rest =>
    if skipped then basicLines? true rest else (basicLines? false rest).map (Scanned.cons '\n')
  | '\n' :: rest =>
    if skipped then basicLines? true rest else (basicLines? false rest).map (Scanned.cons '\n')
  | '\\' :: c :: rest =>
    if endsLine (c :: rest) then basicLines? true (c :: rest)
    else do
      let x ← escaped? c
      (basicLines? false rest).map (Scanned.cons x)
  | c :: rest =>
    if skipped && (c = ' ' || c = '\t') then basicLines? true rest
    else if isTextChar c then (basicLines? false rest).map (Scanned.cons c)
    else none
  | [] => none

/-- The text up to three closing single quotes, before which there may be one or two that belong to it. -/
def literalLines? : List Char → Option Scanned
  | '\'' :: '\'' :: '\'' :: '\'' :: '\'' :: rest => some (['\'', '\''], rest)
  | '\'' :: '\'' :: '\'' :: '\'' :: rest => some (['\''], rest)
  | '\'' :: '\'' :: '\'' :: rest => some ([], rest)
  | '\r' :: '\n' :: rest => (literalLines? rest).map (Scanned.cons '\n')
  | '\n' :: rest => (literalLines? rest).map (Scanned.cons '\n')
  | c :: rest => if isTextChar c then (literalLines? rest).map (Scanned.cons c) else none
  | [] => none

/-- What follows a line end, if the text begins with one. -/
def afterLineEnd : List Char → List Char
  | '\n' :: rest | '\r' :: '\n' :: rest => rest
  | cs => cs

def quoted? : List Char → Option Scanned
  | '"' :: '"' :: '"' :: rest => basicLines? false (afterLineEnd rest)
  | '"' :: rest => basicText? rest
  | '\'' :: '\'' :: '\'' :: rest => literalLines? (afterLineEnd rest)
  | '\'' :: rest => literalText? rest
  | _ => none

end Interdomain.Toml
