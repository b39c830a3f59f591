import Interdomain.Candidate
import Interdomain.Proofs.Messages
import Mathlib.Data.List.Basic

/-! Lists of candidates, written and read. The written form of a candidate is one entry of a list, with the host in
brackets if it has colons; whatever stands around and between such entries, they are read back as the candidates
in order. -/
namespace Interdomain

namespace Text

theorem splitAll_of_not_mem {sep : Char} {cs : List Char} (h : sep ∉ cs) : splitAll sep cs = [cs] := by
  induction cs with
  | nil => rfl
  | cons c cs ih =>
    rw [List.mem_cons, not_or] at h
    rw [splitAll, if_neg (Ne.symm h.1), ih h.2]

theorem splitAll_append {sep : Char} {a : List Char} (h : sep ∉ a) (b : List Char) :
    splitAll sep (a ++ sep :: b) = a :: splitAll sep b := by
  induction a with
  | nil => simp [splitAll]
  | cons c a ih =>
    rw [List.mem_cons, not_or] at h
    rw [List.cons_append, splitAll, if_neg (Ne.symm h.1), ih h.2]

/-- Pieces that were joined are found again. -/
theorem splitAll_intercalate {sep : Char} {pieces : List (List Char)} (nonempty : pieces ≠ [])
    (h : ∀ p ∈ pieces, sep ∉ p) : splitAll sep ([sep].intercalate pieces) = pieces := by
  induction pieces with
  | nil => exact absurd rfl nonempty
  | cons p pieces ih =>
    cases pieces with
    | nil => simpa [List.intercalate] using splitAll_of_not_mem (h p (by simp))
    | cons q pieces =>
      have rest := ih (by simp) fun x hx => h x (by simp [hx])
      have joined : [sep].intercalate (p :: q :: pieces) = p ++ sep :: [sep].intercalate (q :: pieces) := by
        simp [List.intercalate]
      rw [joined, splitAll_append (h p (by simp)), rest]

/-- The text neither begins nor ends with a blank. -/
def isTrimmed (cs : List Char) : Bool := cs.head?.all (!isBlank ·) && cs.getLast?.all (!isBlank ·)

theorem isTrimmed_iff {cs : List Char} : isTrimmed cs = true ↔
    (∀ c, cs.head? = some c → isBlank c = false) ∧ ∀ c, cs.getLast? = some c → isBlank c = false := by
  simp [isTrimmed, Option.all_eq_true]

/-- Trimming takes away the blanks around a text. -/
theorem trimChars_between {before cs after : List Char} (hb : ∀ c ∈ before, isBlank c = true)
    (ha : ∀ c ∈ after, isBlank c = true) (trimmed : isTrimmed cs = true)
    (nonempty : cs ≠ []) : trimChars (before ++ cs ++ after) = cs := by
  have h := isTrimmed_iff.mp trimmed
  have front : (before ++ cs ++ after).dropWhile isBlank = cs ++ after := by
    rw [List.append_assoc, List.dropWhile_append_of_pos hb]
    cases cs with
    | nil => exact absurd rfl nonempty
    | cons c cs => rw [List.cons_append, List.dropWhile_cons_of_neg (by simp [h.1 c rfl])]
  have back : dropEndWhile isBlank (cs ++ after) = dropEndWhile isBlank cs := by
    rw [dropEndWhile, List.reverse_append, List.dropWhile_append_of_pos fun c hc => ha c (by simpa using hc)]
    rfl
  rw [trimChars, front, back, dropEndWhile_eq_self h.2]

theorem digit?_of_isDigit {c : Char} (h : c.isDigit = true) : digit? c = some (c.toNat - '0'.toNat) := by
  rw [Char.isDigit_iff_toNat] at h
  exact if_pos ⟨Char.le_def.mpr h.1, h.2⟩

theorem digitsFrom?_eq {cs : List Char} (h : ∀ c ∈ cs, c.isDigit = true) (n : Nat) :
    digitsFrom? n cs = some (Nat.ofDigitChars 10 cs n) := by
  induction cs generalizing n with
  | nil => rfl
  | cons c cs ih =>
    rw [digitsFrom?, digit?_of_isDigit (h c (by simp)), Option.bind_some, ih fun x hx => h x (by simp [hx])]
    rfl

theorem isDigit_repr {n : Nat} {c : Char} (h : c ∈ (Nat.repr n).toList) : c.isDigit = true := by
  rw [Nat.repr_eq_ofList_toDigits, String.toList_ofList] at h
  exact Nat.isDigit_of_mem_toDigits (by decide) (by decide) h

theorem digits?_repr (n : Nat) : digits? (Nat.repr n).toList = some n := by
  have read := digitsFrom?_eq (fun c => isDigit_repr (n := n)) 0
  rw [Nat.toList_repr, Nat.ofDigitChars_ten_toDigits] at read
  rw [Nat.toList_repr]
  cases hd : Nat.toDigits 10 n with
  | nil => exact absurd hd Nat.toDigits_ne_nil
  | cons c cs =>
    rw [hd] at read
    exact read

theorem not_isBlank_of_isDigit {c : Char} (h : c.isDigit = true) : isBlank c = false := by
  have bounds : 48 ≤ c.toNat ∧ c.toNat ≤ 57 := Char.isDigit_iff_toNat.mp h
  simp only [isBlank, Bool.or_eq_false_iff, Bool.and_eq_false_iff, decide_eq_false_iff_not]
  omega

theorem repr_ne_nil (n : Nat) : (Nat.repr n).toList ≠ [] := by
  rw [Nat.toList_repr]
  exact Nat.toDigits_ne_nil

/-- The decimal digits of a number are read as the number, if it is not too large. -/
theorem naturalChars?_repr {most n : Nat} (h : n ≤ most) : naturalChars? most (Nat.repr n).toList = some n := by
  have unsigned : naturalChars? most (Nat.repr n).toList = (digits? (Nat.repr n).toList).filter (· ≤ most) := by
    unfold naturalChars?
    split
    · rename_i rest plus
      have digit : '+'.isDigit = true := isDigit_repr (n := n) (by simp [plus])
      exact absurd digit (by decide)
    · rfl
  rw [unsigned, digits?_repr, Option.filter_some, if_pos (by simpa using h)]

end Text

namespace Candidate

/-- A host that can stand in a list as it is: it has a character, but no comma, no bracket and no blank at its
ends. -/
structure PlainHost (host : String) : Prop where
  nonempty : host.toList ≠ []
  comma : ',' ∉ host.toList
  opening : '[' ∉ host.toList
  closing : ']' ∉ host.toList
  trimmed : Text.isTrimmed host.toList = true

instance (host : String) : Decidable (PlainHost host) :=
  decidable_of_iff (host.toList ≠ [] ∧ ',' ∉ host.toList ∧ '[' ∉ host.toList ∧ ']' ∉ host.toList ∧
      Text.isTrimmed host.toList = true)
    ⟨fun ⟨nonempty, comma, opening, closing, trimmed⟩ => ⟨nonempty, comma, opening, closing, trimmed⟩,
      fun h => ⟨h.nonempty, h.comma, h.opening, h.closing, h.trimmed⟩⟩

variable {c : Candidate}

theorem toList_toString (c : Candidate) : c.toString.toList =
    if ':' ∈ c.host.toList then '[' :: (c.host.toList ++ ']' :: ':' :: (Nat.repr c.port).toList)
    else c.host.toList ++ ':' :: (Nat.repr c.port).toList := by
  unfold toString
  split <;> simp

theorem not_mem_repr {d : Char} (h : d.isDigit = false) (n : Nat) : d ∉ (Nat.repr n).toList := by
  intro hd
  rw [Text.isDigit_repr hd] at h
  exact absurd h (by simp)

theorem ofEntry?_of_unbracketed {entry : List Char} (nonempty : entry ≠ []) (head : entry.head? ≠ some '[')
    (defaultPort : Nat) : ofEntry? defaultPort entry =
      if 2 ≤ entry.count ':' then ofHost? entry defaultPort
      else match Text.splitFirst ':' entry with
        | none => ofHost? entry defaultPort
        | some (host, port) => (Text.naturalChars? Text.max16 port).bind fun port => ofHost? host port := by
  unfold ofEntry?
  split
  · exact absurd rfl nonempty
  · exact absurd rfl head
  · rfl

theorem ofEntry?_of_closed {host tail : List Char} (closing : ']' ∉ host) (defaultPort : Nat) :
    ofEntry? defaultPort ('[' :: (host ++ ']' :: tail)) =
      (portAfterBracket? defaultPort tail).bind fun port => ofHost? host port := by
  have cut : Text.splitFirst ']' (host ++ ']' :: tail) = some (host, tail) :=
    Text.splitFirst_eq_some.mpr ⟨rfl, closing⟩
  unfold ofEntry?
  simp only [cut, Option.bind_eq_bind, Option.bind_some]

theorem ofEntry?_of_single {host port : List Char} (unbracketed : host.head? ≠ some '[') (first : ':' ∉ host)
    (single : ':' ∉ port) (defaultPort : Nat) : ofEntry? defaultPort (host ++ ':' :: port) =
      (Text.naturalChars? Text.max16 port).bind fun port => ofHost? host port := by
  have head : (host ++ ':' :: port).head? ≠ some '[' := by
    cases host with
    | nil => simp
    | cons c host => exact unbracketed
  have cut : Text.splitFirst ':' (host ++ ':' :: port) = some (host, port) :=
    Text.splitFirst_eq_some.mpr ⟨rfl, first⟩
  have once : ¬ 2 ≤ (host ++ ':' :: port).count ':' := by
    rw [List.count_append, List.count_cons_self, List.count_eq_zero_of_not_mem first,
      List.count_eq_zero_of_not_mem single]
    omega
  rw [ofEntry?_of_unbracketed (by simp) head, if_neg once, cut]

theorem toString_ne_nil (c : Candidate) : c.toString.toList ≠ [] := by
  rw [toList_toString]
  split <;> simp

/-- The written form begins with the bracket or as the host does. -/
theorem head?_toString (host : PlainHost c.host) :
    c.toString.toList.head? = if ':' ∈ c.host.toList then some '[' else c.host.toList.head? := by
  obtain ⟨first, others, begins⟩ := List.exists_cons_of_ne_nil host.nonempty
  rw [toList_toString]
  split
  · rfl
  · rw [begins]
    rfl

/-- A candidate is read as it is written, whatever the default port. -/
theorem ofEntry?_toString (host : PlainHost c.host) (port : c.port ≤ Text.max16) (defaultPort : Nat) :
    ofEntry? defaultPort c.toString.toList = some c := by
  have made : ofHost? c.host.toList c.port = some c := by
    rw [ofHost?, if_neg host.nonempty, String.ofList_toList]
  rw [toList_toString]
  split
  case isTrue =>
    rw [ofEntry?_of_closed host.closing, portAfterBracket?, Text.naturalChars?_repr port]
    exact made
  case isFalse colon =>
    have unbracketed : c.host.toList.head? ≠ some '[' := fun head => host.opening (List.mem_of_head? head)
    have single : ':' ∉ (Nat.repr c.port).toList := not_mem_repr (by decide) _
    rw [ofEntry?_of_single unbracketed colon single, Text.naturalChars?_repr port]
    exact made

theorem not_mem_toString (host : PlainHost c.host) : ',' ∉ c.toString.toList := by
  have port : ',' ∉ (Nat.repr c.port).toList := not_mem_repr (by decide) _
  rw [toList_toString]
  split <;> simp [host.comma, port, -Nat.toList_repr]

/-- There is no blank at the ends of the written form, which ends in a digit. -/
theorem isTrimmed_toString (host : PlainHost c.host) : Text.isTrimmed c.toString.toList = true := by
  refine Text.isTrimmed_iff.mpr ⟨?_, ?_⟩
  · intro d hd
    rw [head?_toString host] at hd
    split at hd
    case isTrue =>
      cases hd
      decide
    case isFalse => exact (Text.isTrimmed_iff.mp host.trimmed).1 d hd
  · intro d hd
    obtain ⟨front, last, ends⟩ :=
      (List.eq_nil_or_concat (Nat.repr c.port).toList).resolve_left (Text.repr_ne_nil _)
    have digit : last.isDigit = true := Text.isDigit_repr (n := c.port) (by rw [ends]; simp)
    have same : last = d := by
      rw [toList_toString, ends] at hd
      split at hd <;> simpa [List.getLast?_cons] using hd
    exact same ▸ Text.not_isBlank_of_isDigit digit

/-- No candidate can be read from the text, which has no blanks at its ends: a part is missing, or a bracket is not
closed, or what follows it is no port. -/
inductive IsUnusable : List Char → Prop
  | empty : IsUnusable []
  | unclosed {rest : List Char} (closing : ']' ∉ rest) : IsUnusable ('[' :: rest)
  | bare {tail : List Char} : IsUnusable ('[' :: ']' :: tail)
  | trailing {host tail : List Char} (closing : ']' ∉ host) (nonempty : tail ≠ [])
      (unread : ∀ port, tail = ':' :: port → Text.naturalChars? Text.max16 port = none) :
      IsUnusable ('[' :: (host ++ ']' :: tail))
  | hostless {port : List Char} (single : ':' ∉ port) : IsUnusable (':' :: port)
  | portless {host port : List Char} (unbracketed : host.head? ≠ some '[') (first : ':' ∉ host) (single : ':' ∉ port)
      (unread : Text.naturalChars? Text.max16 port = none) : IsUnusable (host ++ ':' :: port)

theorem ofHost?_eq_none {host : List Char} {port : Nat} : ofHost? host port = none ↔ host = [] := by
  unfold ofHost?
  split <;> simp [*]

theorem portAfterBracket?_eq_none {defaultPort : Nat} {tail : List Char} :
    portAfterBracket? defaultPort tail = none ↔
      tail ≠ [] ∧ ∀ port, tail = ':' :: port → Text.naturalChars? Text.max16 port = none := by
  unfold portAfterBracket?
  split
  · simp
  · simp
  · rename_i nonempty uncoloned
    exact ⟨fun _ => ⟨nonempty, fun port h => absurd h (uncoloned port)⟩, fun _ => rfl⟩

/-- An entry is passed over exactly if no candidate can be read from it, whatever the default port. -/
theorem ofEntry?_eq_none_iff {defaultPort : Nat} {entry : List Char} :
    ofEntry? defaultPort entry = none ↔ IsUnusable entry := by
  constructor
  · intro none
    cases entry with
    | nil => exact .empty
    | cons c rest =>
      by_cases bracket : c = '['
      case pos =>
        subst bracket
        cases cut : Text.splitFirst ']' rest with
        | none => exact .unclosed (Text.splitFirst_eq_none.mp cut)
        | some parts =>
          obtain ⟨host, tail⟩ := parts
          obtain ⟨rfl, closing⟩ := Text.splitFirst_eq_some.mp cut
          rw [ofEntry?_of_closed closing] at none
          cases after : portAfterBracket? defaultPort tail with
          | none =>
            obtain ⟨nonempty, unread⟩ := portAfterBracket?_eq_none.mp after
            exact .trailing closing nonempty unread
          | some port =>
            rw [after, Option.bind_some, ofHost?_eq_none] at none
            rw [none]
            exact .bare
      case neg =>
        have head : (c :: rest).head? ≠ some '[' := by simpa using bracket
        rw [ofEntry?_of_unbracketed (by simp) head] at none
        split at none
        case isTrue => exact absurd (ofHost?_eq_none.mp none) (by simp)
        case isFalse once =>
          cases cut : Text.splitFirst ':' (c :: rest) with
          | none =>
            rw [cut] at none
            exact absurd (ofHost?_eq_none.mp none) (by simp)
          | some parts =>
            obtain ⟨host, port⟩ := parts
            obtain ⟨whole, first⟩ := Text.splitFirst_eq_some.mp cut
            rw [cut] at none
            rw [whole] at once head ⊢
            have single : ':' ∉ port := by
              intro again
              have twice := List.count_pos_iff.mpr again
              rw [List.count_append, List.count_cons_self] at once
              omega
            dsimp only at none
            cases read : Text.naturalChars? Text.max16 port with
            | none =>
              refine .portless (fun bracketed => head ?_) first single read
              rw [List.head?_append, bracketed]
              rfl
            | some n =>
              rw [read, Option.bind_some, ofHost?_eq_none] at none
              rw [none]
              exact .hostless single
  · intro unusable
    cases unusable with
    | empty => rfl
    | unclosed closing =>
      unfold ofEntry?
      simp [Text.splitFirst_eq_none.mpr closing]
    | @bare tail =>
      have cut : ofEntry? defaultPort ('[' :: ([] ++ ']' :: tail)) = _ :=
        ofEntry?_of_closed List.not_mem_nil defaultPort
      refine cut.trans ?_
      cases portAfterBracket? defaultPort tail <;> rfl
    | trailing closing nonempty unread =>
      rw [ofEntry?_of_closed closing, portAfterBracket?_eq_none.mpr ⟨nonempty, unread⟩]
      rfl
    | @hostless port single =>
      have cut : ofEntry? defaultPort ([] ++ ':' :: port) = _ :=
        ofEntry?_of_single (by simp) List.not_mem_nil single defaultPort
      refine cut.trans ?_
      cases Text.naturalChars? Text.max16 port <;> rfl
    | portless unbracketed first single unread =>
      rw [ofEntry?_of_single unbracketed first single, unread]
      rfl

/-- An entry of a list, with the candidate in it, if there is one: a candidate as it is written, with blanks around
it, or a text from which none can be read. -/
inductive IsEntry : String → Option Candidate → Prop
  | candidate {text : String} {c : Candidate} (before after : List Char) (host : PlainHost c.host)
      (port : c.port ≤ Text.max16) (before_blank : ∀ d ∈ before, Text.isBlank d = true)
      (after_blank : ∀ d ∈ after, Text.isBlank d = true)
      (written : text.toList = before ++ c.toString.toList ++ after) : IsEntry text (some c)
  | unusable {text : String} (comma : ',' ∉ text.toList) (unusable : IsUnusable (Text.trimChars text.toList)) :
      IsEntry text none

namespace IsEntry

variable {text : String} {o : Option Candidate}

theorem not_mem (h : IsEntry text o) : ',' ∉ text.toList := by
  cases h with
  | candidate _ _ host port before after written =>
    have blank {cs : List Char} (hcs : ∀ d ∈ cs, Text.isBlank d = true) : ',' ∉ cs := fun hd =>
      absurd (hcs _ hd) (by decide)
    simp [written, blank before, blank after, not_mem_toString host]
  | unusable comma => exact comma

theorem read (h : IsEntry text o) (defaultPort : Nat) :
    ofEntry? defaultPort (Text.trimChars text.toList) = o := by
  cases h with
  | candidate _ _ host port before after written =>
    rw [written, Text.trimChars_between before after (isTrimmed_toString host) (toString_ne_nil _),
      ofEntry?_toString host port]
  | unusable _ unusable => exact ofEntry?_eq_none_iff.mpr unusable

end IsEntry

/-- A list of entries is read as the candidates in them, in order. -/
theorem parseList_of_entries {entries : List (String × Option Candidate)} (h : ∀ e ∈ entries, IsEntry e.1 e.2)
    (defaultPort : Nat) :
    parseList defaultPort (",".intercalate (entries.map (·.1))) = entries.filterMap (·.2) := by
  cases entries with
  | nil => rfl
  | cons first others =>
    have pieces : Text.splitAll ',' (",".intercalate ((first :: others).map (·.1))).toList =
        (first :: others).map (·.1.toList) := by
      rw [String.toList_intercalate, List.map_map]
      refine Text.splitAll_intercalate (by simp) fun p hp => ?_
      obtain ⟨e, he, rfl⟩ := List.mem_map.mp hp
      exact (h e he).not_mem
    rw [parseList, pieces, List.filterMap_map]
    exact List.filterMap_congr fun e he => (h e he).read defaultPort

/-- The written form of one candidate is a list of it alone. -/
theorem parseList_toString (host : PlainHost c.host) (port : c.port ≤ Text.max16) (defaultPort : Nat) :
    parseList defaultPort c.toString = [c] := by
  have entry : IsEntry c.toString (some c) := .candidate [] [] host port nofun nofun (by simp)
  have entries : ∀ e ∈ [(c.toString, some c)], IsEntry e.1 e.2 := List.forall_mem_singleton.mpr entry
  simpa using parseList_of_entries entries defaultPort

/-- The ports of a list are numbers of sixteen bits, as the default port is. -/
theorem port_le_of_mem_parseList {defaultPort : Nat} {list : String} (default : defaultPort ≤ Text.max16)
    (h : c ∈ parseList defaultPort list) : c.port ≤ Text.max16 := by
  obtain ⟨entry, _, read⟩ := List.mem_filterMap.mp h
  have made {host : List Char} {port : Nat} (le : port ≤ Text.max16) (made : ofHost? host port = some c) :
      c.port ≤ Text.max16 := by
    unfold ofHost? at made
    split at made
    · cases made
    · cases made
      exact le
  generalize Text.trimChars entry = entry at read
  unfold ofEntry? at read
  split at read
  · cases read
  · obtain ⟨⟨host, tail⟩, _, read⟩ := Option.bind_eq_some_iff.mp read
    obtain ⟨port, after, read⟩ := Option.bind_eq_some_iff.mp read
    refine made ?_ read
    unfold portAfterBracket? at after
    split at after
    · cases after
      exact default
    · exact Text.naturalChars?_le after
    · cases after
  · split at read
    · exact made default read
    · split at read
      · exact made default read
      · obtain ⟨port, number, read⟩ := Option.bind_eq_some_iff.mp read
        exact made (Text.naturalChars?_le number) read

end Candidate

end Interdomain
