import Interdomain.Xml.Render

/-! The text of an element, character by character. A reader that knows nothing of elements takes a text apart into
opening tags, closing tags and characters; from the text of an element it gets the tags and characters that the element
was written with. Whatever stands in texts and attribute values comes back as characters and values, since the
characters that end a text or a value are written as entities. -/
namespace Interdomain.Xml

/-- A tag or a character of a text. The parts of a tag are as they were written, apart from entities in values. -/
inductive Token where
  | character (c : Char)
  | opening (name : String) (attributes : List (String × String))
  | closing (name : String)
  deriving DecidableEq, Repr

/-- The part of an opening tag that has been read. -/
structure Tag where
  name : String
  attributes : List (String × String) := []
  deriving DecidableEq, Repr

def Tag.add (tag : Tag) (name value : String) : Tag :=
  { tag with attributes := tag.attributes ++ [(name, value)] }

/-- Where text stands: in the content, or in the value of an attribute, of which some has been read. -/
inductive Place where
  | content
  | value (tag : Tag) (name : String) (before : List Char)
  deriving DecidableEq, Repr

/-- What the next character belongs to. -/
inductive Mode where
  | text (place : Place)
  | entity (place : Place) (letters : List Char)
  | tagStart
  | closing (name : List Char)
  | name (name : List Char)
  | attribute (tag : Tag) (name : List Char)
  | valueStart (tag : Tag) (name : String)
  | valueEnd (tag : Tag)
  | tagEnd (tag : Tag)
  deriving DecidableEq, Repr

/-- A character that can stand in a name, with or without a prefix: one that has no meaning in tags and is none of the
four blanks of XML. -/
def isNameChar (c : Char) : Bool :=
  c ∉ ['<', '>', '&', '\'', '"', '=', '/'] && !c.isWhitespace

/-- The character that an entity stands for. -/
def entityChar? (letters : List Char) : Option Char :=
  if letters = "amp".toList then some '&'
  else if letters = "lt".toList then some '<'
  else if letters = "gt".toList then some '>'
  else if letters = "apos".toList then some '\''
  else if letters = "quot".toList then some '"'
  else none

/-- Takes a character as a character of the text that stands there. -/
def Place.take (c : Char) : Place → Mode × List Token
  | .content => (.text .content, [.character c])
  | .value tag name before => (.text (.value tag name (before ++ [c])), [])

/-- The character that ends a text, and what follows it. -/
def Place.ending : Place → Char × Mode
  | .content => ('<', .tagStart)
  | .value tag name before => ('\'', .valueEnd (tag.add name (String.ofList before)))

/-- Goes on after the name of an opening tag or after one of its attributes. -/
def Tag.proceed (tag : Tag) (c : Char) : Option (Mode × List Token) :=
  if c = ' ' then some (.attribute tag [], [])
  else if c = '/' then some (.tagEnd tag, [])
  else if c = '>' then some (.text .content, [.opening tag.name tag.attributes])
  else none

/-- Reads one character. An element without content is read as an opening tag and a closing one. -/
def scan : Mode → Char → Option (Mode × List Token)
  | .text place, c =>
    if c = place.ending.1 then some (place.ending.2, [])
    else if c = '&' then some (.entity place [], [])
    else if c = '<' then none
    else some (place.take c)
  | .entity place letters, c =>
    if c = ';' then (entityChar? letters).map fun c => place.take c
    else some (.entity place (letters ++ [c]), [])
  | .tagStart, c =>
    if c = '/' then some (.closing [], []) else if isNameChar c then some (.name [c], []) else none
  | .closing name, c =>
    if isNameChar c then some (.closing (name ++ [c]), [])
    else if c = '>' then some (.text .content, [.closing (String.ofList name)]) else none
  | .name name, c =>
    if isNameChar c then some (.name (name ++ [c]), []) else Tag.proceed ⟨String.ofList name, []⟩ c
  | .attribute tag name, c =>
    if isNameChar c then some (.attribute tag (name ++ [c]), [])
    else if c = '=' then some (.valueStart tag (String.ofList name), []) else none
  | .valueStart tag name, c => if c = '\'' then some (.text (.value tag name []), []) else none
  | .valueEnd tag, c => tag.proceed c
  | .tagEnd tag, c =>
    if c = '>' then some (.text .content, [.opening tag.name tag.attributes, .closing tag.name]) else none

def scanAll (mode : Mode) : List Char → Option (Mode × List Token)
  | [] => some (mode, [])
  | c :: cs => do
    let (mode, first) ← scan mode c
    let (mode, more) ← scanAll mode cs
    return (mode, first ++ more)

theorem scanAll_cons {m m' m'' : Mode} {c : Char} {cs : List Char} {first more : List Token}
    (h : scan m c = some (m', first)) (rest : scanAll m' cs = some (m'', more)) :
    scanAll m (c :: cs) = some (m'', first ++ more) := by
  simp [scanAll, h, rest]

/-- What is read from two stretches of a text, one after the other, is read from both together. -/
theorem scanAll_append {m m' m'' : Mode} {cs ds : List Char} {first more : List Token}
    (h : scanAll m cs = some (m', first)) (rest : scanAll m' ds = some (m'', more)) :
    scanAll m (cs ++ ds) = some (m'', first ++ more) := by
  induction cs generalizing m first with
  | nil =>
    simp only [scanAll, Option.some.injEq, Prod.mk.injEq] at h
    obtain ⟨rfl, rfl⟩ := h
    exact rest
  | cons c cs ih =>
    simp only [scanAll, Option.bind_eq_bind, Option.bind_eq_some_iff, Prod.exists, Option.pure_def,
      Option.some.injEq, Prod.mk.injEq] at h
    obtain ⟨between, one, step, _, others, run, rfl, rfl⟩ := h
    rw [List.append_assoc]
    exact scanAll_cons step (ih run)

/-- Characters that a mode collects are collected in their order. -/
theorem scanAll_collect (collect : List Char → Mode) {p : Char → Bool}
    (h : ∀ before c, p c = true → scan (collect before) c = some (collect (before ++ [c]), []))
    (before : List Char) {cs : List Char} (hcs : ∀ c ∈ cs, p c = true) :
    scanAll (collect before) cs = some (collect (before ++ cs), []) := by
  induction cs generalizing before with
  | nil => simp [scanAll]
  | cons c cs ih =>
    have step := h before c (hcs c List.mem_cons_self)
    have rest := ih (before ++ [c]) fun d hd => hcs d (List.mem_cons_of_mem _ hd)
    rw [List.append_assoc] at rest
    exact scanAll_cons step rest

theorem Place.ending_eq (place : Place) : place.ending.1 = '<' ∨ place.ending.1 = '\'' := by
  cases place with
  | content => exact .inl rfl
  | value => exact .inr rfl

theorem scanAll_entity (place : Place) {letters : List Char} {c : Char} (h : entityChar? letters = some c)
    (hl : letters.all (· != ';') = true) :
    scanAll (.text place) ('&' :: (letters ++ [';'])) = some (place.take c) := by
  have start : scan (.text place) '&' = some (.entity place [], []) := by
    rcases place.ending_eq with hp | hp <;> simp [scan, hp]
  have collected := scanAll_collect (.entity place) (fun before x (hx : (x != ';') = true) => by
    simp [scan, bne_iff_ne.mp hx]) [] (List.all_eq_true.mp hl)
  have finish : scanAll (.entity place letters) [';'] = some (place.take c) := by
    simp [scanAll, scan, h]
  exact scanAll_cons start (scanAll_append collected finish)

/-- A character is written as an entity that stands for it, or as itself if it ends neither texts nor values and starts
no entity. -/
theorem escapeChar_eq (c : Char) :
    (∃ letters, entityChar? letters = some c ∧ letters.all (· != ';') = true ∧
      escapeChar c = '&' :: (letters ++ [';'])) ∨ (c ≠ '&' ∧ c ≠ '<' ∧ c ≠ '\'') ∧ escapeChar c = [c] := by
  unfold escapeChar
  split
  · exact .inl ⟨"amp".toList, by simp [*, entityChar?], by decide, rfl⟩
  split
  · exact .inl ⟨"lt".toList, by simp [*, entityChar?], by decide, rfl⟩
  split
  · exact .inl ⟨"gt".toList, by simp [*, entityChar?], by decide, rfl⟩
  split
  · exact .inl ⟨"apos".toList, by simp [*, entityChar?], by decide, rfl⟩
  split
  · exact .inl ⟨"quot".toList, by simp [*, entityChar?], by decide, rfl⟩
  · exact .inr ⟨⟨‹_›, ‹_›, ‹_›⟩, rfl⟩

/-- However a character is written, it is read as that character. -/
theorem scanAll_escapeChar (place : Place) (c : Char) :
    scanAll (.text place) (escapeChar c) = some (place.take c) := by
  rcases escapeChar_eq c with ⟨letters, entity, plain, written⟩ | ⟨⟨notAmp, notLt, notQuote⟩, written⟩
  · rw [written]
    exact scanAll_entity place entity plain
  · have goesOn : c ≠ place.ending.1 := by rcases place.ending_eq with hp | hp <;> rwa [hp]
    rw [written]
    simp [scanAll, scan, goesOn, notAmp, notLt]

/-- A text is read as its characters, whatever they are. -/
theorem scanAll_text (s : String) :
    scanAll (.text .content) (escape s) = some (.text .content, s.toList.map .character) := by
  rw [escape, escapeChars]
  induction s.toList with
  | nil => rfl
  | cons c cs ih => exact scanAll_append (scanAll_escapeChar .content c) ih

/-- What is read of a value stays in the value. -/
theorem scanAll_value (tag : Tag) (name : String) (before cs : List Char) :
    scanAll (.text (.value tag name before)) (escapeChars cs) = some (.text (.value tag name (before ++ cs)), []) := by
  induction cs generalizing before with
  | nil => simp [escapeChars, scanAll]
  | cons c cs ih =>
    have rest := ih (before ++ [c])
    rw [List.append_assoc] at rest
    exact scanAll_append (scanAll_escapeChar (.value tag name before) c) rest

/-- The name of an opening tag, or one of its attributes, ends here. -/
inductive Mode.Ends : Mode → Tag → Prop
  | name (name : List Char) : Ends (.name name) ⟨String.ofList name, []⟩
  | value (tag : Tag) : Ends (.valueEnd tag) tag

theorem Mode.Ends.scan_eq {m : Mode} {tag : Tag} (h : m.Ends tag) {c : Char} (hc : isNameChar c = false) :
    scan m c = tag.proceed c := by
  cases h with
  | name name => simp [scan, hc]
  | value tag => rfl

theorem scanAll_attributeName (tag : Tag) {name : String} (hn : ∀ c ∈ name.toList, isNameChar c = true) :
    scanAll (.attribute tag []) name.toList = some (.attribute tag name.toList, []) :=
  scanAll_collect (.attribute tag) (fun before c hc => by simp [scan, hc]) [] hn

theorem Mode.Ends.scan_attribute {m : Mode} {tag : Tag} (h : m.Ends tag) {name : String}
    (hn : ∀ c ∈ name.toList, isNameChar c = true) (value : String) :
    scanAll m (renderAttribute name value) = some (.valueEnd (tag.add name value), []) := by
  have blank : scanAll m [' '] = some (.attribute tag [], []) := by
    simp [scanAll, h.scan_eq (show isNameChar ' ' = false by decide), Tag.proceed]
  have quote : scanAll (.attribute tag name.toList) "='".toList = some (.text (.value tag name []), []) := by
    simp [scanAll, scan, show isNameChar '=' = false by decide]
  have text : scanAll (.text (.value tag name [])) (escape value) = some (.text (.value tag name value.toList), []) :=
    scanAll_value tag name [] value.toList
  have last : scanAll (.text (.value tag name value.toList)) ['\''] = some (.valueEnd (tag.add name value), []) := by
    simp [scanAll, scan, Place.ending]
  exact scanAll_append (scanAll_append (scanAll_append (scanAll_append blank (scanAll_attributeName tag hn)) quote)
    text) last

theorem Mode.Ends.scan_attributes {m : Mode} {tag : Tag} (h : m.Ends tag) {es : List (String × String)}
    (hes : ∀ e ∈ es, ∀ c ∈ e.1.toList, isNameChar c = true) :
    ∃ m', scanAll m (es.flatMap fun e => renderAttribute e.1 e.2) = some (m', []) ∧
      m'.Ends ⟨tag.name, tag.attributes ++ es⟩ := by
  induction es generalizing m tag with
  | nil => exact ⟨m, rfl, by simpa using h⟩
  | cons e es ih =>
    have first := h.scan_attribute (hes e List.mem_cons_self) e.2
    obtain ⟨m', rest, ends⟩ := ih (.value (tag.add e.1 e.2)) fun d hd => hes d (List.mem_cons_of_mem _ hd)
    rw [Tag.add, List.append_assoc] at ends
    exact ⟨m', scanAll_append first rest, ends⟩

theorem scanAll_tagStart {name : List Char} (hne : name ≠ []) (hn : ∀ c ∈ name, isNameChar c = true) :
    scanAll .tagStart name = some (.name name, []) := by
  obtain ⟨c, cs, rfl⟩ := List.exists_cons_of_ne_nil hne
  have hc := hn c List.mem_cons_self
  have notSlash : c ≠ '/' := by
    rintro rfl
    exact absurd hc (by decide)
  have start : scan .tagStart c = some (.name [c], []) := by simp [scan, notSlash, hc]
  exact scanAll_cons start (scanAll_collect .name (fun before x hx => by simp [scan, hx]) [c]
    fun x hx => hn x (List.mem_cons_of_mem _ hx))

theorem scanAll_closing {name : List Char} (hn : ∀ c ∈ name, isNameChar c = true) :
    scanAll (.text .content) ("</".toList ++ name ++ ['>']) =
      some (.text .content, [.closing (String.ofList name)]) := by
  have start : scanAll (.text .content) "</".toList = some (.closing [], []) := by rfl
  have collected := scanAll_collect .closing (fun before x hx => by simp [scan, hx]) [] hn
  have finish : scanAll (.closing name) ['>'] = some (.text .content, [.closing (String.ofList name)]) := by
    simp [scanAll, scan, show isNameChar '>' = false by decide]
  exact scanAll_append (scanAll_append start collected) finish

mutual
/-- The node and all nodes in it, at every depth, have the property. -/
def Node.Each (p : Node → Prop) : Node → Prop
  | .text s => p (.text s)
  | .element name ns attributes nodes => p (.element name ns attributes nodes) ∧ EachOf p nodes

def EachOf (p : Node → Prop) : List Node → Prop
  | [] => True
  | n :: rest => n.Each p ∧ EachOf p rest
end

mutual
def decideEach (p : Node → Prop) [DecidablePred p] : (n : Node) → Decidable (n.Each p)
  | .text s => inferInstanceAs (Decidable (p (.text s)))
  | .element name ns attributes nodes =>
    have := decideEachOf p nodes
    inferInstanceAs (Decidable (p (.element name ns attributes nodes) ∧ EachOf p nodes))

def decideEachOf (p : Node → Prop) [DecidablePred p] : (nodes : List Node) → Decidable (EachOf p nodes)
  | [] => inferInstanceAs (Decidable True)
  | n :: rest =>
    have := decideEach p n
    have := decideEachOf p rest
    inferInstanceAs (Decidable (n.Each p ∧ EachOf p rest))
end

instance (p : Node → Prop) [DecidablePred p] : DecidablePred (Node.Each p) := decideEach p

/-- A name without a prefix. -/
def IsName (s : String) : Prop :=
  s ≠ "" ∧ ∀ c ∈ s.toList, isNameChar c = true ∧ c ≠ ':'

instance : DecidablePred IsName := fun s =>
  decidable_of_iff (s ≠ "" ∧ s.toList.all (fun c => isNameChar c && c != ':') = true) (by simp [IsName])

/-- The node is a text, or an element that has a name and whose attributes have names and declare no namespace. -/
def Node.Named : Node → Prop
  | .text _ => True
  | .element name _ attributes _ => IsName name ∧ ∀ e ∈ attributes.entries, IsName e.1 ∧ e.1 ≠ "xmlns"

instance : DecidablePred Node.Named
  | .text _ => inferInstanceAs (Decidable True)
  | .element .. => inferInstanceAs (Decidable (_ ∧ _))

/-- The attributes by which an element declares its namespace inside one that `inherited` holds for. -/
def declarations (ns inherited : String) : List (String × String) :=
  if ns = Namespace.stream then []
  else if ns = Namespace.dialback then [("xmlns:db", ns)]
  else if ns = inherited then []
  else [("xmlns", ns)]

mutual
/-- The tags and characters that a node is written with. -/
def Node.tokens (inherited : String) : Node → List Token
  | .text s => s.toList.map .character
  | .element name ns attributes nodes =>
    .opening (String.ofList (qualifiedName name ns)) (declarations ns inherited ++ attributes.entries) ::
      (tokensOf (inheritedBy ns inherited) nodes ++ [.closing (String.ofList (qualifiedName name ns))])

def tokensOf (inherited : String) : List Node → List Token
  | [] => []
  | n :: rest => n.tokens inherited ++ tokensOf inherited rest
end

theorem IsName.isNameChar {s : String} (h : IsName s) : ∀ c ∈ s.toList, Xml.isNameChar c = true :=
  fun c hc => (h.2 c hc).1

theorem IsName.toList_ne_nil {s : String} (h : IsName s) : s.toList ≠ [] := by
  simpa using h.1

theorem qualifiedName_ne_nil {name : String} (h : IsName name) (ns : String) : qualifiedName name ns ≠ [] := by
  unfold qualifiedName
  split
  · simp
  split
  · simp
  · exact h.toList_ne_nil

theorem isNameChar_of_mem_qualifiedName {name : String} (h : IsName name) (ns : String) :
    ∀ c ∈ qualifiedName name ns, isNameChar c = true := by
  have labels := List.all_eq_true.mp (show ("stream:".toList ++ "db:".toList).all isNameChar = true by decide)
  intro c hc
  unfold qualifiedName at hc
  split at hc
  · rcases List.mem_append.mp hc with hc | hc
    · exact labels c (List.mem_append_left _ hc)
    · exact h.isNameChar c hc
  split at hc
  · rcases List.mem_append.mp hc with hc | hc
    · exact labels c (List.mem_append_right _ hc)
    · exact h.isNameChar c hc
  · exact h.isNameChar c hc

theorem renderDeclaration_eq (ns inherited : String) :
    renderDeclaration ns inherited = (declarations ns inherited).flatMap fun e => renderAttribute e.1 e.2 := by
  unfold renderDeclaration declarations
  split
  · rfl
  split
  · simp
  split
  · rfl
  · simp

theorem name_of_mem_declarations {ns inherited : String} {e : String × String} (he : e ∈ declarations ns inherited) :
    e.1 = "xmlns" ∨ e.1 = "xmlns:db" := by
  unfold declarations at he
  split at he
  · cases he
  split at he
  · exact .inr (congrArg Prod.fst (List.mem_singleton.mp he))
  split at he
  · cases he
  · exact .inl (congrArg Prod.fst (List.mem_singleton.mp he))

theorem isNameChar_of_mem_declarations {ns inherited : String} {e : String × String}
    (he : e ∈ declarations ns inherited) : ∀ c ∈ e.1.toList, isNameChar c = true := by
  apply List.all_eq_true.mp
  rcases name_of_mem_declarations he with name | name
  · rw [name]
    decide
  · rw [name]
    decide

/-- The start of an element, up to the end of its last attribute. -/
theorem scanAll_opening {name : String} (hn : IsName name) (ns inherited : String) {attributes : Attributes}
    (ha : ∀ e ∈ attributes.entries, IsName e.1) :
    ∃ m, scanAll (.text .content) ('<' :: qualifiedName name ns ++ renderDeclaration ns inherited ++
        renderAttributes attributes) = some (m, []) ∧
      m.Ends ⟨String.ofList (qualifiedName name ns), declarations ns inherited ++ attributes.entries⟩ := by
  have start : scan (.text .content) '<' = some (.tagStart, []) := by rfl
  have named := scanAll_tagStart (qualifiedName_ne_nil hn ns) (isNameChar_of_mem_qualifiedName hn ns)
  have names : ∀ e ∈ declarations ns inherited ++ attributes.entries, ∀ c ∈ e.1.toList, isNameChar c = true := by
    intro e he
    rcases List.mem_append.mp he with he | he
    · exact isNameChar_of_mem_declarations he
    · exact (ha e he).isNameChar
  obtain ⟨m, attributed, ends⟩ := (Mode.Ends.name (qualifiedName name ns)).scan_attributes names
  rw [List.flatMap_append, ← renderDeclaration_eq] at attributed
  rw [List.append_assoc]
  exact ⟨m, scanAll_append (scanAll_cons start named) attributed, ends⟩

theorem render_empty (inherited name ns : String) (attributes : Attributes) :
    (Node.element name ns attributes []).render inherited =
      '<' :: qualifiedName name ns ++ renderDeclaration ns inherited ++ renderAttributes attributes ++ "/>".toList := by
  rw [Node.render]

theorem render_filled (inherited name ns : String) (attributes : Attributes) {nodes : List Node} (h : nodes ≠ []) :
    (Node.element name ns attributes nodes).render inherited =
      '<' :: qualifiedName name ns ++ renderDeclaration ns inherited ++ renderAttributes attributes ++
        ('>' :: renderNodes (inheritedBy ns inherited) nodes ++ ("</".toList ++ qualifiedName name ns ++ ['>'])) := by
  obtain ⟨n, rest, rfl⟩ := List.exists_cons_of_ne_nil h
  simp only [Node.render, renderNodes, List.cons_append, List.append_assoc]

theorem Mode.Ends.scan_empty {m : Mode} {tag : Tag} (h : m.Ends tag) :
    scanAll m "/>".toList = some (.text .content, [.opening tag.name tag.attributes, .closing tag.name]) := by
  have slash : scan m '/' = some (.tagEnd tag, []) := h.scan_eq (by decide)
  exact scanAll_cons slash rfl

theorem Mode.Ends.scan_end {m : Mode} {tag : Tag} (h : m.Ends tag) :
    scan m '>' = some (.text .content, [.opening tag.name tag.attributes]) :=
  h.scan_eq (by decide)

mutual
/-- The text of a node is read as the tags and characters that it was written with. -/
theorem scanAll_render (inherited : String) : ∀ n : Node, n.Each Node.Named →
    scanAll (.text .content) (n.render inherited) = some (.text .content, n.tokens inherited)
  | .text s, _ => scanAll_text s
  | .element name ns attributes nodes, h => by
    obtain ⟨⟨hn, ha⟩, hnodes⟩ := h
    obtain ⟨m, opening, ends⟩ := scanAll_opening hn ns inherited fun e he => (ha e he).1
    have closing := scanAll_closing (isNameChar_of_mem_qualifiedName hn ns)
    have content := scanAll_renderNodes (inheritedBy ns inherited) nodes hnodes
    by_cases empty : nodes = []
    · subst empty
      rw [render_empty]
      exact scanAll_append opening ends.scan_empty
    · rw [render_filled inherited name ns attributes empty]
      exact scanAll_append opening (scanAll_append (scanAll_cons ends.scan_end content) closing)

theorem scanAll_renderNodes (inherited : String) : ∀ nodes : List Node, EachOf Node.Named nodes →
    scanAll (.text .content) (renderNodes inherited nodes) = some (.text .content, tokensOf inherited nodes)
  | [], _ => rfl
  | n :: rest, h => scanAll_append (scanAll_render inherited n h.1) (scanAll_renderNodes inherited rest h.2)
end

end Interdomain.Xml
