import Interdomain.Proofs.Messages
import Mathlib.Data.String.Basic

/-! Reading addresses again. The written form of an address has its node and its resource where they were, and
nothing in the normal form of its domain is taken for a separator. Only the length of the domain can differ: it
is limited before the domain is put into lowercase, and a lowercase form can be longer by half. -/
namespace Interdomain

open Protocol (Dialback)

namespace Text

/-- The number of bytes of the character with the code `n`. -/
def width (n : Nat) : Nat :=
  if n < 0x80 then 1 else if n < 0x800 then 2 else if n < 0x10000 then 3 else 4

theorem utf8Size_eq_width (c : Char) : c.utf8Size = width c.toNat := by
  unfold Char.utf8Size width Char.toNat
  simp only [UInt32.le_iff_toNat_le, UInt32.toNat_ofNatLT]
  split_ifs <;> omega

theorem width_mono {m n : Nat} (h : m ≤ n) : width m ≤ width n := by
  unfold width
  split_ifs <;> omega

theorem toNat_ofNat_le (n : Nat) : (Char.ofNat n).toNat ≤ n := by
  by_cases h : n.isValidChar
  · exact (toNat_ofNat h).le
  · rw [Char.ofNat, dif_neg h]
    exact Nat.zero_le n

/-- The lowercase forms in the run are longer by half at most. -/
def CaseRun.isModest (r : CaseRun) : Bool := 2 * width (r.target + (r.last - r.first)) ≤ 3 * width r.first

theorem lowercaseRuns_isModest : lowercaseRuns.all CaseRun.isModest = true := by decide +kernel

theorem utf8Size_lowerChar (c : Char) : 2 * (lowerChar c).utf8Size ≤ 3 * c.utf8Size := by
  unfold lowerChar
  split
  · rename_i hc
    have hl : c.toLower.toNat < 128 := by
      have ascii : ∀ n < 128, (Char.ofNat n).toLower.toNat < 128 := by decide +kernel
      simpa using ascii c.toNat hc
    simp only [utf8Size_eq_width, width]
    split_ifs
    omega
  · split
    · rename_i r hr
      have modest := List.all_eq_true.mp lowercaseRuns_isModest r (List.mem_of_find?_eq_some hr)
      have covers : r.covers c.toNat = true := by simpa using List.find?_some hr
      simp only [CaseRun.isModest, CaseRun.covers, Bool.and_eq_true, decide_eq_true_eq] at modest covers
      have hc := width_mono covers.1.1
      have hl := width_mono ((toNat_ofNat_le (r.target + (c.toNat - r.first))).trans
        (show _ ≤ r.target + (r.last - r.first) by omega))
      rw [utf8Size_eq_width, utf8Size_eq_width]
      omega
    · omega

theorem utf8Len_lowerAt (before : List Char) (c : Char) (after : List Char) :
    2 * String.utf8Len (lowerAt before c after) ≤ 3 * c.utf8Size := by
  unfold lowerAt
  split
  · subst c
    split
    · decide
    · decide
  · split
    · subst c
      decide
    · have := utf8Size_lowerChar c
      simpa [String.utf8Len_cons] using this

theorem utf8Len_lowerFrom (before cs : List Char) :
    2 * String.utf8Len (lowerFrom before cs) ≤ 3 * String.utf8Len cs := by
  induction cs generalizing before with
  | nil => exact Nat.le_refl _
  | cons c cs ih =>
    have hc := utf8Len_lowerAt before c cs
    have hcs := ih (c :: before)
    rw [lowerFrom, String.utf8Len_append, String.utf8Len_cons]
    omega

theorem lowerFrom_replicate {c d : Char} (h : ∀ before after, lowerAt before c after = [d]) (before : List Char)
    (n : Nat) : lowerFrom before (List.replicate n c) = List.replicate n d := by
  induction n generalizing before with
  | zero => rfl
  | succ n ih => rw [List.replicate_succ, lowerFrom, h, ih]; rfl

theorem dropEndWhile_sublist (p : Char → Bool) (cs : List Char) : (dropEndWhile p cs).Sublist cs := by
  have h := List.dropWhile_sublist p (l := cs.reverse)
  simpa [dropEndWhile] using h.reverse

end Text

namespace Jid

open Text

def nodeChars : Option String → List Char
  | some node => node.toList ++ ['@']
  | none => []

def resourceChars : Option String → List Char
  | some resource => '/' :: resource.toList
  | none => []

theorem toList_toString (j : Jid) :
    j.toString.toList = nodeChars j.node ++ j.domain.toList ++ resourceChars j.resource := by
  obtain ⟨node, domain, resource⟩ := j
  cases node <;> cases resource <;> simp [toString, nodeChars, resourceChars]

variable {cs bare rest : List Char} {node resource : Option String} {s d : String} {j : Jid}

theorem eq_of_splitNode? (h : splitNode? cs = some (node, rest)) : cs = nodeChars node ++ rest := by
  unfold splitNode? at h
  split at h
  · cases h
    rfl
  · cases h
  · rename_i hs
    cases h
    simp [nodeChars, (splitFirst_eq_some.mp hs).1]

theorem eq_of_splitResource? (h : splitResource? cs = some (bare, resource)) :
    cs = bare ++ resourceChars resource ∧ '/' ∉ bare := by
  unfold splitResource? at h
  split at h
  · rename_i hs
    cases h
    exact ⟨by simp [resourceChars], splitFirst_eq_none.mp hs⟩
  · cases h
  · rename_i hs
    cases h
    obtain ⟨heq, hn⟩ := splitFirst_eq_some.mp hs
    exact ⟨by simp [resourceChars, heq], hn⟩

/-- A node is found again before another domain. -/
theorem splitNode?_nodeChars (h : splitNode? cs = some (node, rest)) {domain : List Char} (hd : '@' ∉ domain) :
    splitNode? (nodeChars node ++ domain) = some (node, domain) := by
  unfold splitNode? at h
  split at h
  · cases h
    rw [nodeChars, List.nil_append, splitNode?, splitFirst_eq_none.mpr hd]
  · cases h
  · rename_i name _ _ hs
    cases h
    have again : splitFirst '@' (name ++ '@' :: domain) = some (name, domain) :=
      splitFirst_eq_some.mpr ⟨rfl, (splitFirst_eq_some.mp hs).2⟩
    simp only [nodeChars, String.toList_ofList, List.append_assoc, List.singleton_append, splitNode?, again]

/-- A resource is found again after another address. -/
theorem splitResource?_resourceChars (h : splitResource? cs = some (bare, resource)) {address : List Char}
    (ha : '/' ∉ address) : splitResource? (address ++ resourceChars resource) = some (address, resource) := by
  unfold splitResource? at h
  split at h
  · cases h
    rw [resourceChars, List.append_nil, splitResource?, splitFirst_eq_none.mpr ha]
  · cases h
  · rename_i name _ hs
    cases h
    have again : splitFirst '/' (address ++ '/' :: name) = some (address, name) := splitFirst_eq_some.mpr ⟨rfl, ha⟩
    simp only [resourceChars, String.toList_ofList, splitResource?, again]

/-- An address that was read is read again from its written form, unless its domain has grown too long. -/
theorem ofChars?_toString (h : ofChars? cs = some j) :
    ofChars? j.toString.toList = if j.domain.utf8ByteSize ≤ maxDomainBytes then some j else none := by
  have hd := isNormal_of_ofChars? h
  have hclean := hd.chars.2.2.1
  obtain ⟨bare, rest, hresource, hnode, _⟩ := ofChars?_eq_some.mp h
  have hbare : '/' ∉ nodeChars j.node ++ j.domain.toList := by
    rw [List.mem_append, not_or]
    constructor
    · intro hm
      apply (eq_of_splitResource? hresource).2
      rw [eq_of_splitNode? hnode]
      exact List.mem_append_left _ hm
    · exact fun hm => (hclean _ hm).2 (by decide)
  have hdomain : '@' ∉ j.domain.toList := fun hm => (hclean _ hm).2 (by decide)
  rw [toList_toString, ofChars?, splitResource?_resourceChars hresource hbare]
  simp only [Option.bind_eq_bind, Option.bind_some, splitNode?_nodeChars hnode hdomain,
    normalDomain?_of_isNormal hd]
  split <;> rfl

/-- The domain of an address is longer than the address by half at most. -/
theorem utf8ByteSize_domain (h : ofChars? cs = some j) :
    2 * j.domain.utf8ByteSize ≤ 3 * (String.ofList cs).utf8ByteSize := by
  obtain ⟨bare, rest, hresource, hnode, hd⟩ := ofChars?_eq_some.mp h
  unfold normalDomain? at hd
  dsimp only at hd
  split at hd
  · have part : (dropEndWhile (· = '.') rest).Sublist cs := by
      rw [(eq_of_splitResource? hresource).1, eq_of_splitNode? hnode]
      exact (dropEndWhile_sublist _ _).trans ((List.sublist_append_right _ _).trans (List.sublist_append_left _ _))
    have hl := utf8Len_lowerFrom [] (dropEndWhile (· = '.') rest)
    have hp := String.utf8Len_le_of_sublist part
    rw [← Option.some.inj hd]
    simp only [lowercase, String.utf8ByteSize_ofList, String.toList_ofList]
    omega
  · cases hd

theorem fits_of_short (h : parse s = .ok j) (hs : s.utf8ByteSize ≤ 682) :
    j.domain.utf8ByteSize ≤ maxDomainBytes := by
  have hd := utf8ByteSize_domain (parse_eq_ok.mp h)
  rw [String.ofList_toList] at hd
  unfold maxDomainBytes
  omega

theorem parse_toString (h : parse s = .ok j) :
    parse j.toString = if j.domain.utf8ByteSize ≤ maxDomainBytes then .ok j else .error (.jid j.toString) := by
  rw [parse, ofChars?_toString (parse_eq_ok.mp h)]
  split_ifs <;> rfl

theorem parseDomain_of_isNormal (h : IsNormal d) :
    parseDomain d = if d.utf8ByteSize ≤ maxDomainBytes then .ok d else .error (.jid d) := by
  rw [parseDomain, ofChars?_of_isNormal h]
  split_ifs <;> rfl

/-- What is read is in normal form and is read again as itself, unless the lowercase form of a domain has outgrown the
longest domain, which takes a text of more than 682 bytes. -/
theorem normal_forms_stable (s : String) :
    (∀ j, parse s = .ok j → parse j.toString =
      if j.domain.utf8ByteSize ≤ maxDomainBytes then .ok j else .error (.jid j.toString)) ∧
    (∀ d, parseDomain s = .ok d → parseDomain d =
      if d.utf8ByteSize ≤ maxDomainBytes then .ok d else .error (.jid d)) ∧
    (∀ j, parse s = .ok j → s.utf8ByteSize ≤ 682 → j.domain.utf8ByteSize ≤ maxDomainBytes) ∧
    ∀ e m, Dialback.ofElement e = .ok m → m.recipient.utf8ByteSize ≤ maxDomainBytes →
      m.sender.utf8ByteSize ≤ maxDomainBytes → ∀ answer : Xml.Element,
      answer.attribute? "to" = some m.sender → answer.attribute? "from" = some m.recipient →
        Protocol.addresses answer = .ok ⟨m.sender, m.recipient⟩ ∧
        Dialback.ofElement answer = .ok ⟨m.sender, m.recipient, answer.attribute? "id", answer.attribute? "type",
          Text.trim answer.text⟩ := by
  refine ⟨fun j => parse_toString, fun d h => parseDomain_of_isNormal (isNormal_of_parseDomain h),
    fun j => fits_of_short, ?_⟩
  intro e m hm recipient sender answer hto hfrom
  obtain ⟨hr, hs⟩ := Dialback.isNormal_of_ofElement hm
  constructor
  · rw [Protocol.addresses, Protocol.addressDomain_of_isNormal hto hs, Protocol.addressDomain_of_isNormal hfrom hr,
      if_pos sender, if_pos recipient]
    rfl
  · have readsSender : parseDomain m.sender = .ok m.sender := by rw [parseDomain_of_isNormal hs, if_pos sender]
    have readsRecipient : parseDomain m.recipient = .ok m.recipient := by
      rw [parseDomain_of_isNormal hr, if_pos recipient]
    exact Dialback.ofElement_of_addresses readsSender readsRecipient hto hfrom

/-- Capitals and dots at the end go when an address is read, and what is left stays. -/
theorem full_address_stable :
    parse "Alice@B.Example./Phone/1" = .ok ⟨some "Alice", "b.example", some "Phone/1"⟩ ∧
    parse "Alice@b.example/Phone/1" = .ok ⟨some "Alice", "b.example", some "Phone/1"⟩ ∧
    parseDomain "B.Example.." = .ok "b.example" ∧ parseDomain "b.example" = .ok "b.example" := by
  have address : parse "Alice@B.Example./Phone/1" = .ok ⟨some "Alice", "b.example", some "Phone/1"⟩ := by
    decide +kernel
  have domain : parseDomain "B.Example.." = .ok "b.example" := by decide +kernel
  refine ⟨address, ?_, domain, ?_⟩
  · obtain ⟨again, _, fits, _⟩ := normal_forms_stable "Alice@B.Example./Phone/1"
    exact (again _ address).trans (if_pos (fits _ address (by decide)))
  · exact ((normal_forms_stable "B.Example..").2.1 _ domain).trans (if_pos (by decide))

/-- A domain of 342 letters whose lowercase forms take three bytes instead of two is read, but what is read is
refused. -/
theorem outgrown_refused :
    let capitals := String.ofList (List.replicate 342 'Ⱥ')
    let grown := String.ofList (List.replicate 342 'ⱥ')
    parse capitals = .ok ⟨none, grown, none⟩ ∧ toString ⟨none, grown, none⟩ = grown ∧
      parse grown = .error (.jid grown) ∧ parseDomain capitals = .ok grown ∧
      parseDomain grown = .error (.jid grown) := by
  intro capitals grown
  have lower : Text.lowercase capitals = grown := by
    rw [Text.lowercase, String.toList_ofList, lowerFrom_replicate fun before after => ?_]
    simp only [lowerAt, if_neg (show 'Ⱥ' ≠ 'Σ' by decide), if_neg (show 'Ⱥ' ≠ 'İ' by decide)]
    decide +kernel
  have bare : dropEndWhile (· = '.') (List.replicate 342 'Ⱥ') = List.replicate 342 'Ⱥ' :=
    dropEndWhile_eq_self fun c hc => by
      rw [List.eq_of_mem_replicate (List.mem_of_getLast? hc)]
      decide
  have absent (c : Char) (hc : c ≠ 'Ⱥ') : splitFirst c (List.replicate 342 'Ⱥ') = none :=
    splitFirst_eq_none.mpr fun h => hc (List.eq_of_mem_replicate h)
  have domain : isDomain (List.replicate 342 'Ⱥ') = true := by
    rw [isDomain, String.utf8ByteSize_ofList]
    decide +kernel
  have read : ofChars? capitals.toList = some ⟨none, grown, none⟩ := by
    rw [String.toList_ofList, ofChars?_eq_some]
    refine ⟨List.replicate 342 'Ⱥ', List.replicate 342 'Ⱥ', ?_, ?_, ?_⟩
    · rw [splitResource?, absent '/' (by decide)]
    · rw [splitNode?, absent '@' (by decide)]
    · rw [normalDomain?, bare, if_pos domain, lower]
  have long : ¬ grown.utf8ByteSize ≤ maxDomainBytes := by
    rw [String.utf8ByteSize_ofList]
    decide +kernel
  have written : toString ⟨none, grown, none⟩ = grown := by simp [toString]
  refine ⟨parse_eq_ok.mpr read, written, ?_, parseDomain_eq_ok.mpr read, ?_⟩
  · have again := parse_toString (parse_eq_ok.mpr read)
    rw [written] at again
    exact again.trans (if_neg long)
  · rw [parseDomain_of_isNormal (isNormal_of_ofChars? read), if_neg long]

end Jid

end Interdomain
