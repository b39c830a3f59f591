import Interdomain.Policy.Requirement
import Interdomain.Table
import Interdomain.Text.Lowercase

/-! The policy book: the terms on which streams are held with each peer. The terms of a domain are those of
the most specific row: its own, else that of the nearest domain above it, else the row `*`, else none are
set. Names are compared in lowercase. -/
namespace Interdomain.Policy

/-- What is demanded of the streams of a peer. -/
structure Terms where
  tls : TlsRequirement := .minimum 0
  auth : AuthRequirement := .any
  version : VersionRequirement := .allowed
  deriving Repr, DecidableEq

/-- Terms by domain, under lowercase names. -/
structure Book where
  rows : Table String Terms := ∅
  deriving DecidableEq

inductive Violation where
  | insufficientProtection (achieved required : Level)
  | mechanismForbidden (used : Mechanism)
  deriving Repr, DecidableEq

def Violation.message : Violation → String
  | .insufficientProtection achieved required =>
    "stream protection " ++ achieved.toString ++ " is below the required level " ++ required.toString
  | .mechanismForbidden used =>
    "authentication with " ++ used.toString ++ " is not permitted for this peer"

/-- The domains above a domain, nearest first: what follows each of its dots, but not the empty text. -/
def domainsAbove : List Char → List (List Char)
  | [] => []
  | c :: cs => if c = '.' ∧ cs ≠ [] then cs :: domainsAbove cs else domainsAbove cs

/-- A domain and the domains above it, nearest first. -/
def ancestry (domain : List Char) : List (List Char) :=
  if domain = [] then [] else domain :: domainsAbove domain

/-- The name of the row for domains without one of their own. -/
def defaultRow : String := "*"

namespace Book

def insert (b : Book) (domain : String) (terms : Terms) : Book :=
  ⟨b.rows.insert (Text.lowercase domain) terms⟩

/-- The terms of the most specific row for a domain. -/
def lookup (b : Book) (domain : String) : Terms :=
  let names := (ancestry (Text.lowercase domain).toList).map String.ofList
  ((names ++ [defaultRow]).findSome? b.rows.get?).getD {}

/-- A stream of a peer, protected to `achieved`, may be authenticated in the way `used`. -/
def check (b : Book) (peer : String) (used : Mechanism) (achieved : Level) : Except Violation Unit :=
  let terms := b.lookup peer
  if achieved < terms.tls.requiredLevel then
    .error (.insufficientProtection achieved terms.tls.requiredLevel)
  else if terms.auth.permits used then .ok ()
  else .error (.mechanismForbidden used)

/-- The terms allow exactly the streams that reach the level and use a permitted mechanism. -/
theorem check_eq_ok_iff (b : Book) (peer : String) (used : Mechanism) (achieved : Level) :
    b.check peer used achieved = .ok () ↔
      (b.lookup peer).tls.requiredLevel ≤ achieved ∧ (b.lookup peer).auth.permits used = true := by
  simp only [check]
  grind

end Book

structure Row where
  name : String
  tls : Option String := none
  auth : Option String := none
  version : Option String := none
  deriving Repr, DecidableEq

def readSetting {α : Type} (parse : String → Except Malformed α) (default : α) :
    Option String → Except Malformed α
  | some text => parse text
  | none => .ok default

/-- The terms of a row; its first malformed setting is reported. -/
def Row.terms (r : Row) : Except Malformed Terms := do
  let tls ← readSetting TlsRequirement.parse (.minimum 0) r.tls
  let auth ← readSetting AuthRequirement.parse .any r.auth
  let version ← readSetting VersionRequirement.parse .allowed r.version
  return { tls, auth, version }

/-- The book of the rows from `b` on, or the first row that is malformed and what is wrong with it. -/
def Book.addRows (b : Book) : List Row → Except (String × Malformed) Book
  | [] => .ok b
  | r :: rs =>
    match r.terms with
    | .ok terms => (b.insert r.name terms).addRows rs
    | .error e => .error (r.name, e)

def Book.ofRows (rows : List Row) : Except (String × Malformed) Book := ({} : Book).addRows rows

end Interdomain.Policy
