import Interdomain.Protocol.Dialback

/-! Domains in normal form. Lowercase forms are their own lowercase forms, and no character becomes a blank,
a dot or another character that has a meaning in addresses. So a domain that was read from an address and is
written into another one is read from there again, unless it has grown too long. -/
namespace Interdomain

namespace Text

/-- No lowercase form in the first run has one in the second. -/
def CaseRun.misses (r s : CaseRun) : Bool :=
  (r.target + (r.last - r.first)).blt s.first || s.last.blt r.target ||
    s.stride = 2 && (r.stride = 2 || r.first = r.last) && (r.target + s.first) % 2 = 1

theorem CaseRun.not_covers {r s : CaseRun} (h : r.misses s = true) {n : Nat} (hn : r.covers n = true) :
    s.covers (r.target + (n - r.first)) = false := by
  simp only [misses, covers, Bool.or_eq_true, Bool.and_eq_true, decide_eq_true_eq, Nat.blt_eq] at h hn
  simp only [covers, Bool.and_eq_false_iff, decide_eq_false_iff_not]
  rcases h with (h | h) | ⟨⟨hs, hr⟩, h⟩
  · omega
  · omega
  · rw [hs]
    rcases hr with hr | hr
    · rw [hr] at hn
      omega
    · omega

/-- The blank characters beyond ASCII, as closed ranges. -/
def blankRanges : List (Nat × Nat) :=
  [(0x85, 0x85), (0xA0, 0xA0), (0x1680, 0x1680), (0x2000, 0x200A), (0x2028, 0x2029), (0x202F, 0x202F),
    (0x205F, 0x205F), (0x3000, 0x3000)]

/-- The lowercase forms in the run are characters beyond ASCII, but for `k`; none of them is a capital that is
not in the tables, and none is blank. -/
def CaseRun.isSound (r : CaseRun) : Bool :=
  let top := r.target + (r.last - r.first)
  (128 ≤ r.target || r.target = 107 && r.first = r.last) && (top < 0xD800 || 0xE000 ≤ r.target && top < 0x110000) &&
    (top < 304 || 304 < r.target) && (top < 931 || 931 < r.target) && blankRanges.all fun b => top < b.1 || b.2 < r.target

theorem lowercaseRuns_isSound : lowercaseRuns.all CaseRun.isSound = true := by decide +kernel

theorem lowercaseRuns_misses : (lowercaseRuns.all fun r => lowercaseRuns.all r.misses) = true := by
  decide +kernel

/-- The character is part of the lowercase form of another one: it is its own lowercase form, and it is not
blank and nothing that has a meaning in addresses unless the other one is. -/
structure Lowers (x c : Char) : Prop where
  capital : x ≠ 'Σ' ∧ x ≠ 'İ'
  lower : lowerChar x = x
  blank : isBlank x = true → isBlank c = true
  special : x ∈ '.' :: Jid.forbidden → x = c

theorem lowers_ascii : ∀ n < 128, ((Char.ofNat n).toLower ≠ 'Σ' ∧ (Char.ofNat n).toLower ≠ 'İ') ∧
    lowerChar (Char.ofNat n).toLower = (Char.ofNat n).toLower ∧
    (isBlank (Char.ofNat n).toLower = true → isBlank (Char.ofNat n) = true) ∧
    ((Char.ofNat n).toLower ∈ '.' :: Jid.forbidden → (Char.ofNat n).toLower = Char.ofNat n) := by
  decide +kernel

theorem lowers_of_ascii {c : Char} (h : c.toNat < 128) : Lowers c.toLower c := by
  have hc := lowers_ascii c.toNat h
  rw [Char.ofNat_toNat] at hc
  exact ⟨hc.1, hc.2.1, hc.2.2.1, hc.2.2.2⟩

/-- Beyond ASCII there are none of the characters that have a meaning in addresses. -/
theorem lt_of_special {c : Char} (h : c ∈ '.' :: Jid.forbidden) : c.toNat < 128 := by
  simp only [Jid.forbidden, List.mem_cons, List.not_mem_nil, or_false] at h
  rcases h with rfl | rfl | rfl | rfl | rfl | rfl | rfl <;> decide

/-- A character without a lowercase form of its own. -/
theorem lowers_self {c : Char} (hs : c ≠ 'Σ') (hi : c ≠ 'İ') (hl : lowerChar c = c) : Lowers c c :=
  ⟨⟨hs, hi⟩, hl, id, fun _ => rfl⟩

theorem toNat_ofNat {n : Nat} (h : n.isValidChar) : (Char.ofNat n).toNat = n := by
  rw [Char.ofNat, dif_pos h]
  rfl

theorem isBlank_eq_false {n : Nat} (h : ∀ b ∈ blankRanges, n < b.1 ∨ b.2 < n) (hn : 128 ≤ n)
    (hv : n.isValidChar) : isBlank (Char.ofNat n) = false := by
  simp only [blankRanges, List.mem_cons, List.not_mem_nil, or_false, forall_eq_or_imp, forall_eq] at h
  simp only [isBlank, toNat_ofNat hv, Bool.or_eq_false_iff, Bool.and_eq_false_iff, decide_eq_false_iff_not]
  omega

/-- A character with a lowercase form in the tables. -/
theorem lowers_of_covers {r : CaseRun} (hr : r ∈ lowercaseRuns) {c : Char} (hc : r.covers c.toNat = true) :
    Lowers (Char.ofNat (r.target + (c.toNat - r.first))) c := by
  have sound := List.all_eq_true.mp lowercaseRuns_isSound r hr
  have misses := List.all_eq_true.mp lowercaseRuns_misses r hr
  have range : c.toNat - r.first ≤ r.last - r.first := by
    simp only [CaseRun.covers, Bool.and_eq_true, decide_eq_true_eq] at hc
    omega
  simp only [CaseRun.isSound, Bool.and_eq_true, Bool.or_eq_true, decide_eq_true_eq, List.all_eq_true] at sound
  obtain ⟨⟨⟨⟨ascii, valid⟩, dotted⟩, sigma⟩, blank⟩ := sound
  obtain ⟨n, hn⟩ : ∃ n, n = r.target + (c.toNat - r.first) := ⟨_, rfl⟩
  rw [← hn]
  have hv : n.isValidChar := by
    rw [Nat.isValidChar]
    omega
  have ht := toNat_ofNat hv
  rcases Nat.lt_or_ge n 128 with hlt | hge
  · obtain rfl : n = 107 := by omega
    exact ⟨by decide, by decide, fun h => absurd h (by decide), fun h => absurd h (by decide)⟩
  · have hlower : lowerChar (Char.ofNat n) = Char.ofNat n := by
      have hnone : lowercaseRuns.find? (·.covers n) = none := by
        rw [List.find?_eq_none]
        intro s hs
        rw [hn, CaseRun.not_covers (List.all_eq_true.mp misses s hs) hc]
        simp
      rw [lowerChar, ht, if_neg (by omega), hnone]
    have other {d : Char} (h : n ≠ d.toNat) : Char.ofNat n ≠ d := by
      rintro rfl
      exact h ht.symm
    refine ⟨⟨other ?_, other ?_⟩, hlower, fun h => ?_, fun h => ?_⟩
    · change n ≠ 931
      omega
    · change n ≠ 304
      omega
    · rw [isBlank_eq_false (fun b hb => ?_) hge hv] at h
      · cases h
      · have hb := blank b hb
        omega
    · have hlt := lt_of_special h
      omega

/-- Each character of a lowercase form is its own lowercase form. -/
theorem lowers_lowerAt {x c : Char} {before after : List Char} (hx : x ∈ lowerAt before c after) :
    Lowers x c := by
  have fixed {d : Char} (hd : d ≠ 'Σ' ∧ d ≠ 'İ') (hl : lowerChar d = d) (hb : isBlank d = false)
      (hs : d ∉ '.' :: Jid.forbidden) : Lowers d c :=
    ⟨hd, hl, fun h => absurd h (by simp [hb]), fun h => absurd h hs⟩
  unfold lowerAt at hx
  split at hx
  · rw [List.mem_singleton] at hx
    split at hx <;> subst hx
    · exact fixed (by decide) (by decide +kernel) (by decide) (by decide)
    · exact fixed (by decide) (by decide +kernel) (by decide) (by decide)
  · rename_i hsigma
    split at hx
    · simp only [List.mem_cons, List.not_mem_nil, or_false] at hx
      rcases hx with rfl | rfl
      · exact fixed (by decide) (by decide +kernel) (by decide) (by decide)
      · exact fixed (by decide) (by decide +kernel) (by decide) (by decide)
    · rename_i hdotted
      rw [List.mem_singleton] at hx
      subst hx
      unfold lowerChar
      split
      · exact lowers_of_ascii ‹_›
      · split
        · rename_i r hr
          exact lowers_of_covers (List.mem_of_find?_eq_some hr) (by simpa using List.find?_some hr)
        · refine lowers_self hsigma hdotted ?_
          simp only [lowerChar, *, if_false]

theorem lowers_lowerFrom {x : Char} {cs before : List Char} (hx : x ∈ lowerFrom before cs) :
    ∃ c ∈ cs, Lowers x c := by
  induction cs generalizing before with
  | nil => cases hx
  | cons c cs ih =>
    rcases List.mem_append.mp hx with hx | hx
    · exact ⟨c, by simp, lowers_lowerAt hx⟩
    · obtain ⟨d, hd, hl⟩ := ih hx
      exact ⟨d, by simp [hd], hl⟩

/-- What is its own lowercase form already stays. -/
theorem lowerFrom_eq_self {cs before : List Char} (h : ∀ x ∈ cs, ∃ c, Lowers x c) :
    lowerFrom before cs = cs := by
  induction cs generalizing before with
  | nil => rfl
  | cons c cs ih =>
    obtain ⟨_, hc⟩ := h c (by simp)
    rw [lowerFrom, lowerAt, if_neg hc.capital.1, if_neg hc.capital.2, hc.lower, ih fun x hx => h x (by simp [hx])]
    rfl

theorem lowerAt_ne_nil (before : List Char) (c : Char) (after : List Char) : lowerAt before c after ≠ [] := by
  unfold lowerAt
  split
  · simp
  · split <;> simp

/-- The last character of a lowercase form comes from the last character. -/
theorem getLast?_lowerFrom {x : Char} {cs before : List Char} (hx : (lowerFrom before cs).getLast? = some x) :
    ∃ c, cs.getLast? = some c ∧ Lowers x c := by
  induction cs generalizing before with
  | nil => cases hx
  | cons c cs ih =>
    rw [lowerFrom, List.getLast?_append] at hx
    cases cs with
    | nil =>
      simp only [lowerFrom, List.getLast?_nil, Option.none_or] at hx
      exact ⟨c, rfl, lowers_lowerAt (List.mem_of_getLast? hx)⟩
    | cons d ds =>
      cases hl : (lowerFrom (c :: before) (d :: ds)).getLast? with
      | none =>
        rw [List.getLast?_eq_none_iff, lowerFrom, List.append_eq_nil_iff] at hl
        exact absurd hl.1 (lowerAt_ne_nil _ _ _)
      | some y =>
        rw [hl, Option.some_or] at hx
        cases hx
        obtain ⟨e, he, hy⟩ := ih hl
        exact ⟨e, by rw [List.getLast?_cons_cons]; exact he, hy⟩

theorem getLast?_dropEndWhile {p : Char → Bool} {cs : List Char} {c : Char}
    (h : (dropEndWhile p cs).getLast? = some c) : p c = false := by
  rw [dropEndWhile, List.getLast?_reverse] at h
  have hd := List.head?_dropWhile_not p cs.reverse
  rw [h] at hd
  exact hd

theorem dropEndWhile_eq_self {p : Char → Bool} {cs : List Char}
    (h : ∀ c, cs.getLast? = some c → p c = false) : dropEndWhile p cs = cs := by
  rw [dropEndWhile]
  cases hr : cs.reverse with
  | nil => simpa using hr
  | cons c rest =>
    have hl : cs.getLast? = some c := by rw [← List.head?_reverse, hr]; rfl
    rw [List.dropWhile_cons_of_neg (by simp [h c hl]), ← hr, List.reverse_reverse]

end Text

namespace Jid

open Text

/-- The text is a domain in normal form. -/
def IsNormal (d : String) : Prop := ∃ cs, normalDomain? cs = some d

variable {cs : List Char} {d s : String}

/-- An address is read part by part. -/
theorem ofChars?_eq_some {j : Jid} : ofChars? cs = some j ↔ ∃ bare rest,
    splitResource? cs = some (bare, j.resource) ∧ splitNode? bare = some (j.node, rest) ∧
      normalDomain? rest = some j.domain := by
  simp only [ofChars?, Option.bind_eq_bind, Option.bind_eq_some_iff, Prod.exists]
  constructor
  · rintro ⟨bare, resource, hresource, node, rest, hnode, domain, hd, hj⟩
    cases hj
    exact ⟨bare, rest, hresource, hnode, hd⟩
  · rintro ⟨bare, rest, hresource, hnode, hd⟩
    exact ⟨bare, j.resource, hresource, j.node, rest, hnode, j.domain, hd, rfl⟩

theorem isNormal_of_ofChars? {j : Jid} (h : ofChars? cs = some j) : IsNormal j.domain := by
  obtain ⟨_, rest, _, _, hd⟩ := ofChars?_eq_some.mp h
  exact ⟨rest, hd⟩

theorem parse_eq_ok {j : Jid} : parse s = .ok j ↔ ofChars? s.toList = some j := by
  unfold parse
  cases ofChars? s.toList <;> simp

theorem parseDomain_eq_ok : parseDomain s = .ok d ↔ ofChars? s.toList = some ⟨none, d, none⟩ := by
  unfold parseDomain
  cases hc : ofChars? s.toList with
  | none => simp
  | some jid =>
    obtain ⟨node, domain, resource⟩ := jid
    cases node <;> cases resource <;> simp [isServer]

theorem domain?_eq_some : domain? s = some d ↔ parseDomain s = .ok d := by
  cases h : parseDomain s <;> simp [domain?, h, Except.toOption]

theorem isNormal_of_parseDomain (h : parseDomain s = .ok d) : IsNormal d :=
  isNormal_of_ofChars? (parseDomain_eq_ok.mp h)

/-- The characters of a domain in normal form. -/
theorem IsNormal.chars (h : IsNormal d) : d.toList ≠ [] ∧ (∀ x ∈ d.toList, ∃ c, Lowers x c) ∧
    (∀ x ∈ d.toList, isBlank x = false ∧ x ∉ forbidden) ∧ d.toList.getLast? ≠ some '.' := by
  obtain ⟨cs, h⟩ := h
  unfold normalDomain? at h
  dsimp only at h
  obtain ⟨bare, hbare⟩ : ∃ b, b = dropEndWhile (· = '.') cs := ⟨_, rfl⟩
  rw [← hbare] at h
  split at h
  · rename_i hd
    simp only [isDomain, Bool.and_eq_true, decide_eq_true_eq, List.all_eq_true, Bool.not_eq_true'] at hd
    cases h
    simp only [lowercase, String.toList_ofList]
    refine ⟨?_, ?_, ?_, ?_⟩
    · obtain ⟨⟨hne, _⟩, _⟩ := hd
      cases bare with
      | nil => exact absurd rfl hne
      | cons c bare => exact fun h => lowerAt_ne_nil _ _ _ (List.append_eq_nil_iff.mp h).1
    · intro x hx
      obtain ⟨c, _, hl⟩ := lowers_lowerFrom hx
      exact ⟨c, hl⟩
    · intro x hx
      obtain ⟨c, hc, hl⟩ := lowers_lowerFrom hx
      obtain ⟨hb, hf⟩ := hd.2 c hc
      refine ⟨Bool.eq_false_iff.mpr fun hx => ?_, fun hx => ?_⟩
      · rw [hl.blank hx] at hb
        cases hb
      · exact hf (hl.special (List.mem_cons_of_mem _ hx) ▸ hx)
    · intro hlast
      obtain ⟨c, hc, hl⟩ := getLast?_lowerFrom hlast
      rw [← hl.special (by simp), hbare] at hc
      have := getLast?_dropEndWhile hc
      simp at this
  · cases h

/-- The normal form of a domain in normal form is the domain, unless it has grown too long. -/
theorem normalDomain?_of_isNormal (h : IsNormal d) :
    normalDomain? d.toList = if d.utf8ByteSize ≤ maxDomainBytes then some d else none := by
  obtain ⟨hne, hlower, hclean, hlast⟩ := h.chars
  have hbare : dropEndWhile (· = '.') d.toList = d.toList := by
    refine dropEndWhile_eq_self fun c hc => ?_
    rw [decide_eq_false_iff_not]
    rintro rfl
    exact hlast hc
  have hall : (d.toList.all fun c => !isBlank c && c ∉ forbidden) = true := by
    simp only [List.all_eq_true, Bool.and_eq_true, Bool.not_eq_true', decide_eq_true_eq]
    exact hclean
  simp only [normalDomain?, hbare, isDomain, hall, String.ofList_toList, lowercase, lowerFrom_eq_self hlower,
    hne, ne_eq, not_false_eq_true, decide_true, Bool.true_and, Bool.and_true, decide_eq_true_eq]

/-- A domain in normal form is read as itself, unless it has grown too long to be read at all. -/
theorem ofChars?_of_isNormal (h : IsNormal d) : ofChars? d.toList =
    if d.utf8ByteSize ≤ maxDomainBytes then some ⟨none, d, none⟩ else none := by
  have hclean := h.chars.2.2.1
  have hresource : splitResource? d.toList = some (d.toList, none) := by
    rw [splitResource?, splitFirst_eq_none.mpr fun h => (hclean _ h).2 (by decide)]
  have hnode : splitNode? d.toList = some (none, d.toList) := by
    rw [splitNode?, splitFirst_eq_none.mpr fun h => (hclean _ h).2 (by decide)]
  rw [ofChars?, hresource]
  simp only [Option.bind_eq_bind, Option.bind_some, hnode, normalDomain?_of_isNormal h]
  split <;> rfl

end Jid

namespace Protocol

/-- A domain in normal form that an element is given is the one that it is routed by, unless it is too long. -/
theorem addressDomain_of_isNormal {e : Xml.Element} {name d : String} (he : e.attribute? name = some d)
    (h : Jid.IsNormal d) : addressDomain e name =
      if d.utf8ByteSize ≤ Jid.maxDomainBytes then .ok d else .error (.notADomain name d) := by
  simp only [addressDomain, he, Jid.parse, Jid.ofChars?_of_isNormal h]
  by_cases hd : d.utf8ByteSize ≤ Jid.maxDomainBytes <;> simp [hd]

theorem serverDomain_eq_ok {e : Xml.Element} {name d : String} : serverDomain e name = .ok d ↔
    ∃ text, e.attribute? name = some text ∧ Jid.domain? text = some d := by
  unfold serverDomain Jid.domain?
  cases e.attribute? name with
  | none => simp
  | some text =>
    simp only [Option.some.injEq, exists_eq_left']
    cases Jid.parseDomain text <;> simp [Except.toOption]

/-- The element comes from one domain to another, as its addresses are read. -/
structure Dialback.Between (e : Xml.Element) (recipient sender : String) : Prop where
  recipient : ∃ text, e.attribute? "to" = some text ∧ Jid.domain? text = some recipient
  sender : ∃ text, e.attribute? "from" = some text ∧ Jid.domain? text = some sender

/-- An element between two domains is a message, of which its attributes and its text say the rest. -/
theorem Dialback.ofElement_eq_ok {e : Xml.Element} {m : Dialback} : ofElement e = .ok m ↔
    Between e m.recipient m.sender ∧ m.id = e.attribute? "id" ∧ m.kind = e.attribute? "type" ∧
      m.key = Text.trim e.text := by
  have between : Between e m.recipient m.sender ↔
      serverDomain e "to" = .ok m.recipient ∧ serverDomain e "from" = .ok m.sender := by
    rw [serverDomain_eq_ok, serverDomain_eq_ok]
    exact ⟨fun h => ⟨h.recipient, h.sender⟩, fun h => ⟨h.1, h.2⟩⟩
  obtain ⟨recipient, sender, id, kind, key⟩ := m
  rw [between, ofElement]
  cases serverDomain e "to" with
  | error f => simp [bind, Except.bind]
  | ok r =>
    cases serverDomain e "from" with
    | error f => simp [bind, Except.bind]
    | ok s => simp [bind, Except.bind, pure, Except.pure, and_assoc, eq_comm]

/-- The domains of an element are read in normal form. -/
theorem Dialback.Between.isNormal {e : Xml.Element} {recipient sender : String} (h : Between e recipient sender) :
    Jid.IsNormal recipient ∧ Jid.IsNormal sender := by
  obtain ⟨⟨_, -, hr⟩, _, -, hs⟩ := h
  exact ⟨Jid.isNormal_of_parseDomain (Jid.domain?_eq_some.mp hr),
    Jid.isNormal_of_parseDomain (Jid.domain?_eq_some.mp hs)⟩

theorem Dialback.isNormal_of_ofElement {e : Xml.Element} {m : Dialback} (h : ofElement e = .ok m) :
    Jid.IsNormal m.recipient ∧ Jid.IsNormal m.sender := (ofElement_eq_ok.mp h).1.isNormal

/-- A verify request is routed between the two domains that it was made for, unless they are too long. -/
theorem Dialback.addresses_verify {recipient sender : String} (hr : Jid.IsNormal recipient)
    (hs : Jid.IsNormal sender) (fits : recipient.utf8ByteSize ≤ Jid.maxDomainBytes ∧
      sender.utf8ByteSize ≤ Jid.maxDomainBytes) (id key : String) :
    addresses (verify recipient sender id key) = .ok ⟨recipient, sender⟩ := by
  have hto : (verify recipient sender id key).attribute? "to" = some recipient := by simp [verify]
  have hfrom : (verify recipient sender id key).attribute? "from" = some sender := by simp [verify]
  rw [addresses, addressDomain_of_isNormal hto hr, addressDomain_of_isNormal hfrom hs, if_pos fits.1,
    if_pos fits.2]
  rfl

end Protocol

end Interdomain
