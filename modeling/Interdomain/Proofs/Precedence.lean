import Interdomain.Policy.Book
import Interdomain.Text.Split

/-! Which row of the policy book holds for a domain. The rows are described by themselves, with the last row of a
name in force; the names that are tried for a domain are its suffixes at the boundaries of labels, the longest
first. -/
namespace Interdomain.Policy

/-- The text is the domain or what follows one of its dots, and it is not empty. -/
def IsLabelSuffix (s domain : String) : Prop :=
  s ≠ "" ∧ (s = domain ∨ ∃ front, domain = front ++ "." ++ s)

theorem mem_domainsAbove {s d : List Char} : s ∈ domainsAbove d ↔ s ≠ [] ∧ ∃ front, d = front ++ '.' :: s := by
  induction d with
  | nil => simp [domainsAbove]
  | cons c d ih =>
    have step : (∃ front, c :: d = front ++ '.' :: s) ↔ (c = '.' ∧ d = s) ∨ ∃ front, d = front ++ '.' :: s := by
      constructor
      · rintro ⟨_ | ⟨x, front⟩, h⟩
        · exact .inl (List.cons_eq_cons.mp h)
        · exact .inr ⟨front, (List.cons_eq_cons.mp h).2⟩
      · rintro (⟨rfl, rfl⟩ | ⟨front, rfl⟩)
        · exact ⟨[], rfl⟩
        · exact ⟨c :: front, rfl⟩
    rw [domainsAbove, step, and_or_left, ← ih]
    split
    · rw [List.mem_cons]
      grind
    · grind

theorem mem_ancestry {s d : List Char} :
    s ∈ ancestry d ↔ s ≠ [] ∧ (s = d ∨ ∃ front, d = front ++ '.' :: s) := by
  unfold ancestry
  split
  · rename_i hd
    simp [hd]
  · rw [List.mem_cons, mem_domainsAbove]
    grind

/-- The names that are tried for a domain before the default row. -/
def triedNames (domain : String) : List String := (ancestry domain.toList).map String.ofList

theorem mem_triedNames {s d : String} : s ∈ triedNames d ↔ IsLabelSuffix s d := by
  have chars : s ∈ triedNames d ↔ s.toList ∈ ancestry d.toList := by
    rw [triedNames, List.mem_map]
    constructor
    · rintro ⟨cs, hcs, rfl⟩
      rwa [String.toList_ofList]
    · exact fun h => ⟨s.toList, h, String.ofList_toList⟩
  have cut : (∃ front, d.toList = front ++ '.' :: s.toList) ↔ ∃ front, d = front ++ "." ++ s := by
    constructor
    · rintro ⟨front, h⟩
      exact ⟨String.ofList front, String.toList_inj.mp (by simp [h])⟩
    · rintro ⟨front, rfl⟩
      exact ⟨front.toList, by simp⟩
  rw [chars, mem_ancestry, cut, String.toList_inj, IsLabelSuffix, ne_eq, String.toList_eq_nil_iff]

/-- What follows a later dot is shorter. -/
theorem pairwise_domainsAbove (d : List Char) :
    (domainsAbove d).Pairwise fun a b => b.length < a.length := by
  induction d with
  | nil => exact .nil
  | cons c d ih =>
    rw [domainsAbove]
    split
    · refine List.pairwise_cons.mpr ⟨fun s hs => ?_, ih⟩
      obtain ⟨_, front, rfl⟩ := mem_domainsAbove.mp hs
      simp only [List.length_append, List.length_cons]
      omega
    · exact ih

/-- The names are tried in the order of their length, the longest first. -/
theorem pairwise_triedNames (d : String) : (triedNames d).Pairwise fun a b => b.length < a.length := by
  have chars : (ancestry d.toList).Pairwise fun a b => b.length < a.length := by
    unfold ancestry
    split
    · exact .nil
    · refine List.pairwise_cons.mpr ⟨fun s hs => ?_, pairwise_domainsAbove _⟩
      obtain ⟨_, front, hd⟩ := mem_domainsAbove.mp hs
      rw [hd, List.length_append, List.length_cons]
      omega
  rw [triedNames, List.pairwise_map]
  simpa using chars

/-- Two suffixes of the same length are the same. -/
theorem IsLabelSuffix.eq_of_length {s t d : String} (hs : IsLabelSuffix s d) (ht : IsLabelSuffix t d)
    (h : s.length = t.length) : s = t := by
  have isSuffix {s : String} (hs : IsLabelSuffix s d) : s.toList <:+ d.toList := by
    rcases hs.2 with rfl | ⟨front, rfl⟩
    · exact List.suffix_rfl
    · rw [String.toList_append]
      exact List.suffix_append _ _
  have hl : s.toList.length = t.toList.length := h
  have hst : s.toList <:+ t.toList :=
    List.suffix_of_suffix_length_le (isSuffix hs) (isSuffix ht) (Nat.le_of_eq hl)
  exact String.toList_inj.mp (hst.eq_of_length hl)

/-- The names are tried one after the other: a text unless it is empty, and then what follows its first dot. -/
inductive Tries : List Char → List (List Char) → Prop
  | empty : Tries [] []
  | last {d} (nonempty : d ≠ []) (whole : Text.splitFirst '.' d = none) : Tries d [d]
  | next {d front parent names} (nonempty : d ≠ []) (cut : Text.splitFirst '.' d = some (front, parent))
      (rest : Tries parent names) : Tries d (d :: names)

theorem domainsAbove_eq (d : List Char) :
    domainsAbove d = match Text.splitFirst '.' d with
      | none => []
      | some (_, parent) => ancestry parent := by
  induction d with
  | nil => rfl
  | cons c d ih =>
    by_cases hc : c = '.'
    · subst hc
      cases d with
      | nil => rfl
      | cons x d => simp [domainsAbove, Text.splitFirst, ancestry]
    · rw [domainsAbove, if_neg (fun h => hc h.1), ih, Text.splitFirst, if_neg hc]
      cases Text.splitFirst '.' d <;> rfl

/-- The walk from a domain ends, after the domain and the domains above it. -/
theorem tries_ancestry (d : List Char) : Tries d (ancestry d) := by
  by_cases hd : d = []
  · rw [hd]
    exact .empty
  · rw [ancestry, if_neg hd, domainsAbove_eq]
    cases hs : Text.splitFirst '.' d with
    | none => exact .last hd hs
    | some cut =>
      have : cut.2.length < d.length := by
        rw [(Text.splitFirst_eq_some.mp hs).1, List.length_append, List.length_cons]
        omega
      exact .next hd hs (tries_ancestry cut.2)
termination_by d.length

theorem length_ancestry (d : List Char) : (ancestry d).length ≤ d.count '.' + 1 := by
  have above : (domainsAbove d).length ≤ d.count '.' := by
    induction d with
    | nil => exact Nat.le_refl _
    | cons c d ih =>
      rw [domainsAbove]
      split
      · rename_i h
        rw [h.1, List.count_cons_self, List.length_cons]
        omega
      · exact Nat.le_trans ih List.count_le_count_cons
  unfold ancestry
  split
  · exact Nat.zero_le _
  · rw [List.length_cons]
    omega

/-- A row has the name, in lowercase. -/
def Named (rows : List Row) (name : String) : Prop := ∃ r ∈ rows, Text.lowercase r.name = name

/-- The last row with the name. -/
def lastRow? (rows : List Row) (name : String) : Option Row :=
  rows.reverse.find? fun r => Text.lowercase r.name = name

theorem named_iff {rows : List Row} {name : String} : Named rows name ↔ ∃ r, lastRow? rows name = some r := by
  rw [← Option.isSome_iff_exists, lastRow?, List.find?_isSome]
  simp [Named]

theorem lastRow?_cons (r : Row) (rows : List Row) (name : String) : lastRow? (r :: rows) name =
    (lastRow? rows name).or (if Text.lowercase r.name = name then some r else none) := by
  rw [lastRow?, List.reverse_cons, List.find?_append, List.find?_singleton]
  simp [lastRow?]

/-- A row under another name is passed over. -/
theorem lastRow?_insert {front back : List Row} {r : Row} {name : String} (h : Text.lowercase r.name ≠ name) :
    lastRow? (front ++ r :: back) name = lastRow? (front ++ back) name := by
  simp [lastRow?, List.find?_append, h]

/-- The rows all have terms. -/
def AllParse (rows : List Row) : Prop := ∀ r ∈ rows, ∃ t, r.terms = .ok t

/-- The book holds the terms of the last row of each name. -/
def Book.Holds (b : Book) (rows : List Row) : Prop :=
  ∀ name t, b.rows.get? name = some t ↔ ∃ r, lastRow? rows name = some r ∧ r.terms = .ok t

/-- Adding rows to a book puts them in force before what was there. -/
theorem addRows_get? {rows : List Row} (h : AllParse rows) (b : Book) :
    ∃ b', b.addRows rows = .ok b' ∧ ∀ name, b'.rows.get? name =
      ((lastRow? rows name).bind fun r => r.terms.toOption).or (b.rows.get? name) := by
  induction rows generalizing b with
  | nil => exact ⟨b, rfl, fun name => rfl⟩
  | cons r rows ih =>
    obtain ⟨t, ht⟩ := h r (by simp)
    obtain ⟨b', hb', hget⟩ := ih (fun x hx => h x (by simp [hx])) (b.insert r.name t)
    refine ⟨b', by rw [Book.addRows, ht]; exact hb', fun name => ?_⟩
    rw [hget, lastRow?_cons, Book.insert, Table.get?_insert]
    cases hl : lastRow? rows name with
    | none =>
      by_cases hn : Text.lowercase r.name = name
      · simp [hn, ht, Except.toOption]
      · simp [hn, Ne.symm hn]
    | some x =>
      obtain ⟨u, hu⟩ := h x (by
        have := List.mem_of_find?_eq_some hl
        simp_all)
      simp [hu, Except.toOption]

theorem ofRows_holds {rows : List Row} (h : AllParse rows) : ∃ b, Book.ofRows rows = .ok b ∧ b.Holds rows := by
  obtain ⟨b, hb, hget⟩ := addRows_get? h {}
  refine ⟨b, hb, fun name t => ?_⟩
  have empty : ({} : Book).rows.get? name = none := rfl
  rw [hget, empty, Option.or_none, Option.bind_eq_some_iff]
  have toOption (r : Row) : r.terms.toOption = some t ↔ r.terms = .ok t := by
    cases r.terms <;> simp [Except.toOption]
  simp only [toOption]

/-- The terms `t` hold for a domain: those of the row of its longest suffix that has one, else those of the default
row, else the terms that are built in. -/
inductive Governs (rows : List Row) (domain : String) : Terms → Prop
  | named {s r t} (suffix : IsLabelSuffix s domain) (row : lastRow? rows s = some r) (terms : r.terms = .ok t)
      (longest : ∀ s', IsLabelSuffix s' domain → Named rows s' → s'.length ≤ s.length) : Governs rows domain t
  | default {r t} (unnamed : ∀ s, IsLabelSuffix s domain → ¬ Named rows s)
      (row : lastRow? rows defaultRow = some r) (terms : r.terms = .ok t) : Governs rows domain t
  | builtIn (unnamed : ∀ s, IsLabelSuffix s domain → ¬ Named rows s) (bare : ¬ Named rows defaultRow) :
      Governs rows domain {}

variable {rows : List Row} {b : Book}

/-- No two terms hold for a domain. -/
theorem Governs.unique {d : String} {t u : Terms} (ht : Governs rows d t) (hu : Governs rows d u) : t = u := by
  have same {r r' : Row} {t u : Terms} {name : String} (hr : lastRow? rows name = some r)
      (hr' : lastRow? rows name = some r') (ht : r.terms = .ok t) (hu : r'.terms = .ok u) : t = u := by
    rw [hr] at hr'
    cases hr'
    rw [ht] at hu
    exact Except.ok.inj hu
  cases ht with
  | named suffix row terms longest =>
    cases hu with
    | named suffix' row' terms' longest' =>
      have hl := Nat.le_antisymm (longest' _ suffix (named_iff.mpr ⟨_, row⟩))
        (longest _ suffix' (named_iff.mpr ⟨_, row'⟩))
      cases suffix.eq_of_length suffix' hl
      exact same row row' terms terms'
    | default unnamed => exact absurd (named_iff.mpr ⟨_, row⟩) (unnamed _ suffix)
    | builtIn unnamed => exact absurd (named_iff.mpr ⟨_, row⟩) (unnamed _ suffix)
  | default unnamed row terms =>
    cases hu with
    | named suffix row' => exact absurd (named_iff.mpr ⟨_, row'⟩) (unnamed _ suffix)
    | default _ row' terms' => exact same row row' terms terms'
    | builtIn _ bare => exact absurd (named_iff.mpr ⟨_, row⟩) bare
  | builtIn unnamed bare =>
    cases hu with
    | named suffix row' => exact absurd (named_iff.mpr ⟨_, row'⟩) (unnamed _ suffix)
    | default _ row' => exact absurd (named_iff.mpr ⟨_, row'⟩) bare
    | builtIn => rfl

/-- A book without the terms of a name has no row of the name. -/
theorem Book.Holds.not_named (hb : b.Holds rows) (h : AllParse rows) {name : String}
    (hn : b.rows.get? name = none) : ¬ Named rows name := by
  intro named
  obtain ⟨r, hr⟩ := named_iff.mp named
  obtain ⟨t, ht⟩ := h r (by simpa using List.mem_of_find?_eq_some hr)
  rw [(hb name t).mpr ⟨r, hr, ht⟩] at hn
  cases hn

/-- What is found for a domain are the terms that hold for it. -/
theorem Book.Holds.governs (hb : b.Holds rows) (h : AllParse rows) (domain : String) :
    Governs rows (Text.lowercase domain) (b.lookup domain) := by
  have hl : b.lookup domain =
      (((triedNames (Text.lowercase domain)).findSome? b.rows.get?).or (b.rows.get? defaultRow)).getD {} := by
    rw [Book.lookup, List.findSome?_append]
    cases hd : b.rows.get? defaultRow <;> simp [triedNames, hd]
  rw [hl]
  cases hf : (triedNames (Text.lowercase domain)).findSome? b.rows.get? with
  | some t =>
    obtain ⟨longer, s, shorter, hsplit, hs, hnone⟩ := List.findSome?_eq_some_iff.mp hf
    obtain ⟨r, hr, ht⟩ := (hb s t).mp hs
    have order := pairwise_triedNames (Text.lowercase domain)
    rw [hsplit, List.pairwise_append, List.pairwise_cons] at order
    refine .named (mem_triedNames.mp (by simp [hsplit])) hr ht fun s' hs' named => ?_
    have hmem := mem_triedNames.mpr hs'
    rw [hsplit, List.mem_append, List.mem_cons] at hmem
    rcases hmem with hmem | rfl | hmem
    · exact absurd named (hb.not_named h (hnone s' hmem))
    · exact Nat.le_refl _
    · exact Nat.le_of_lt (order.2.1.1 s' hmem)
  | none =>
    have unnamed : ∀ s, IsLabelSuffix s (Text.lowercase domain) → ¬ Named rows s := fun s hs =>
      hb.not_named h (List.findSome?_eq_none_iff.mp hf s (mem_triedNames.mpr hs))
    cases hd : b.rows.get? defaultRow with
    | none => exact .builtIn unnamed (hb.not_named h hd)
    | some t =>
      obtain ⟨r, hr, ht⟩ := (hb defaultRow t).mp hd
      exact .default unnamed hr ht

/-- What one more row can change: its own domain, the domains below it that have no more specific row, and if it is
the default row, the domains without a row. -/
inductive Affected (rows : List Row) (name domain : String) : Prop
  | own (same : domain = name)
  | below (above : name ≠ "" ∧ ∃ front, domain = front ++ "." ++ name)
      (longest : ∀ s, IsLabelSuffix s domain → Named rows s → s.length ≤ name.length)
  | unmatched (default : name = defaultRow) (unnamed : ∀ s, IsLabelSuffix s domain → ¬ Named rows s)

theorem Named.insert {front back : List Row} {name : String} (h : Named (front ++ back) name) (r : Row) :
    Named (front ++ r :: back) name := by
  obtain ⟨x, hx, hn⟩ := h
  exact ⟨x, by grind, hn⟩

/-- The terms that hold with one more row hold without it, or the row affects the domain. -/
theorem Governs.remove {front back : List Row} {r : Row} {d : String} {t : Terms}
    (h : Governs (front ++ r :: back) d t) :
    Affected (front ++ back) (Text.lowercase r.name) d ∨ Governs (front ++ back) d t := by
  cases h with
  | @named s x t suffix row terms longest =>
    have shorter : ∀ s', IsLabelSuffix s' d → Named (front ++ back) s' → s'.length ≤ s.length :=
      fun s' hs' named => longest s' hs' (named.insert r)
    by_cases hn : Text.lowercase r.name = s
    · left
      rw [hn]
      rcases suffix.2 with rfl | cut
      · exact .own rfl
      · exact .below ⟨suffix.1, cut⟩ shorter
    · right
      rw [lastRow?_insert hn] at row
      exact .named suffix row terms shorter
  | @default x t unnamed row terms =>
    have unnamed' : ∀ s, IsLabelSuffix s d → ¬ Named (front ++ back) s :=
      fun s hs named => unnamed s hs (named.insert r)
    by_cases hn : Text.lowercase r.name = defaultRow
    · exact .inl (.unmatched hn unnamed')
    · right
      rw [lastRow?_insert hn] at row
      exact .default unnamed' row terms
  | builtIn unnamed bare =>
    exact .inr (.builtIn (fun s hs named => unnamed s hs (named.insert r)) fun named => bare (named.insert r))

/-- Of rows that all have terms, a domain has those of the row of its longest suffix at a label boundary, else of the
default row, else those that are built in. One more row changes this only for what it governs. -/
theorem most_specific_row {rows : List Row} (h : AllParse rows) :
    ∃ b, Book.ofRows rows = .ok b ∧
      (∀ domain t, b.lookup domain = t ↔ Governs rows (Text.lowercase domain) t) ∧
      (∀ domain, ∃ tried, Tries (Text.lowercase domain).toList tried ∧
        tried.length ≤ (Text.lowercase domain).toList.count '.' + 1 ∧
        b.lookup domain = ((tried.map String.ofList ++ [defaultRow]).findSome? b.rows.get?).getD {}) ∧
      ∀ front r back, rows = front ++ r :: back → ∃ without, Book.ofRows (front ++ back) = .ok without ∧
        ∀ domain, b.lookup domain ≠ without.lookup domain →
          Affected (front ++ back) (Text.lowercase r.name) (Text.lowercase domain) := by
  obtain ⟨b, hb, holds⟩ := ofRows_holds h
  refine ⟨b, hb, fun domain t => ⟨?_, fun ht => (holds.governs h domain).unique ht⟩, fun domain =>
    ⟨_, tries_ancestry _, length_ancestry _, rfl⟩, ?_⟩
  · rintro rfl
    exact holds.governs h domain
  · rintro front r back rfl
    have parse : AllParse (front ++ back) := fun x hx => h x (by grind)
    obtain ⟨without, hw, holds'⟩ := ofRows_holds parse
    refine ⟨without, hw, fun domain hne => ?_⟩
    rcases (holds.governs h domain).remove with affected | same
    · exact affected
    · exact absurd (same.unique (holds'.governs parse domain)) hne

/-- Of three rows that match, the longest name counts, and of two rows of that name the later one. -/
theorem longest_of_three_rows :
    let rows : List Row := [⟨"Example", some "no", none, none⟩, ⟨"b.example", none, some "db", none⟩,
      ⟨"*", none, none, some "no"⟩, ⟨"B.Example", some "force", none, none⟩]
    AllParse rows ∧ ∃ b, Book.ofRows rows = .ok b ∧ Governs rows "x.b.example" (b.lookup "X.b.Example") ∧
      b.lookup "X.b.Example" = { tls := .forced } := by
  intro rows
  have parse : AllParse rows := by
    have all : (rows.all fun r => r.terms.toOption.isSome) = true := by decide +kernel
    intro r hr
    have hs := List.all_eq_true.mp all r hr
    cases ht : r.terms with
    | ok t => exact ⟨t, rfl⟩
    | error e => simp [ht, Except.toOption] at hs
  obtain ⟨b, hb, spec, -⟩ := most_specific_row parse
  have governs := (spec "X.b.Example" _).mp rfl
  have found : (Book.ofRows rows).toOption.map (·.lookup "X.b.Example") = some { tls := .forced } := by decide +kernel
  rw [hb] at found
  exact ⟨parse, b, hb, governs, Option.some.inj found⟩

end Interdomain.Policy
