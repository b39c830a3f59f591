import Interdomain.Text.Split
import Interdomain.Proofs.Tokens

/-! The text of an element stands for that element only. A reader that puts tags and characters together again, with
the namespaces that are declared in them, gets the element back from its text, apart from texts that stood next to each
other, which no reader can tell from one. So two elements with the same text are equal up to that. -/
namespace Interdomain.Xml

/-- The node before others; a text before a text is one text with it. -/
def Node.followedBy : Node → List Node → List Node
  | .text s, .text t :: rest => .text (s ++ t) :: rest
  | n, rest => n :: rest

mutual
/-- The node with neighbouring texts joined, at every depth. -/
def Node.joined : Node → Node
  | .text s => .text s
  | .element name ns attributes nodes => .element name ns attributes (joinNodes nodes)

def joinNodes : List Node → List Node
  | [] => []
  | n :: rest => n.joined.followedBy (joinNodes rest)
end

/-- The element with neighbouring texts joined, at every depth. -/
def Element.joined (e : Element) : Element := { e with nodes := joinNodes e.nodes }

@[simp] theorem Element.toNode_joined (e : Element) : e.joined.toNode = e.toNode.joined := by
  rw [toNode, toNode, Node.joined]
  rfl

theorem followedBy_ne_nil (n : Node) (rest : List Node) : n.followedBy rest ≠ [] := by
  unfold Node.followedBy
  split <;> simp

theorem joinNodes_eq_nil {nodes : List Node} : joinNodes nodes = [] ↔ nodes = [] := by
  cases nodes with
  | nil => simp [joinNodes]
  | cons n rest => simp [joinNodes, followedBy_ne_nil]

theorem escape_append (s t : String) : escape (s ++ t) = escape s ++ escape t := by
  simp [escape, escapeChars]

theorem renderNodes_followedBy (inherited : String) (n : Node) (rest : List Node) :
    renderNodes inherited (n.followedBy rest) = n.render inherited ++ renderNodes inherited rest := by
  unfold Node.followedBy
  split
  · simp [renderNodes, Node.render, escape_append]
  · rfl

mutual
/-- Texts that stand next to each other are written as one. -/
theorem render_joined (inherited : String) : ∀ n : Node, n.joined.render inherited = n.render inherited
  | .text s => rfl
  | .element name ns attributes nodes => by
    have content := renderNodes_joinNodes (inheritedBy ns inherited) nodes
    by_cases empty : nodes = []
    · subst empty
      rfl
    · rw [Node.joined, render_filled _ _ _ _ empty, render_filled _ _ _ _ (mt joinNodes_eq_nil.mp empty), content]

theorem renderNodes_joinNodes (inherited : String) :
    ∀ nodes : List Node, renderNodes inherited (joinNodes nodes) = renderNodes inherited nodes
  | [] => rfl
  | n :: rest => by
    rw [joinNodes, renderNodes_followedBy, render_joined inherited n, renderNodes_joinNodes inherited rest, renderNodes]
end

/-- The namespaces that labels stand for; the empty label is that of names without one. -/
abbrev Scope := String → Option String

namespace Scope

/-- The namespaces bound by the header of a stream. -/
def outermost : Scope := fun label =>
  if label = "" then some Namespace.server else if label = "stream" then some Namespace.stream else none

def declare (scope : Scope) (label ns : String) : Scope := fun l => if l = label then some ns else scope l

end Scope

/-- The label that an attribute with this name declares. -/
def declared? (name : String) : Option String :=
  if name = "xmlns" then some ""
  else match Text.splitFirst ':' name.toList with
    | some (first, label) => if first = "xmlns".toList then some (String.ofList label) else none
    | none => none

/-- The scope inside an element with these attributes. -/
def Scope.enter (scope : Scope) (attributes : List (String × String)) : Scope :=
  attributes.foldl (fun scope e => (declared? e.1).elim scope fun label => scope.declare label e.2) scope

/-- The name and the namespace of an element whose tag has this name. -/
def Scope.resolve? (scope : Scope) (tag : String) : Option (String × String) :=
  match Text.splitFirst ':' tag.toList with
  | some (label, name) => (scope (String.ofList label)).map fun ns => (String.ofList name, ns)
  | none => (scope "").map fun ns => (tag, ns)

/-- The attributes with these values under these names. -/
def Attributes.ofList (es : List (String × String)) : Attributes :=
  es.foldl (fun as e => as.set e.1 e.2) ∅

/-- The attributes that declare no namespace. -/
def plainAttributes (attributes : List (String × String)) : Attributes :=
  .ofList (attributes.filter fun e => (declared? e.1).isNone)

/-- What follows is inside an element whose content inherits this namespace. -/
structure Scope.Inherits (scope : Scope) (inherited : String) : Prop where
  unlabelled : scope "" = some inherited
  stream : scope "stream" = some Namespace.stream

theorem Scope.outermost_inherits : outermost.Inherits Namespace.server := ⟨rfl, rfl⟩

theorem IsName.colon_notMem {s : String} (h : IsName s) : ':' ∉ s.toList :=
  fun hc => (h.2 ':' hc).2 rfl

theorem IsName.splitFirst {s : String} (h : IsName s) : Text.splitFirst ':' s.toList = none :=
  Text.splitFirst_eq_none.mpr h.colon_notMem

theorem declared?_eq_none {name : String} (h : IsName name) (hx : name ≠ "xmlns") : declared? name = none := by
  rw [declared?, if_neg hx, h.splitFirst]

theorem splitFirst_label {label : List Char} (h : ':' ∉ label) (name : List Char) :
    Text.splitFirst ':' (label ++ ':' :: name) = some (label, name) :=
  Text.splitFirst_eq_some.mpr ⟨rfl, h⟩

/-- Attributes that declare nothing leave the scope as it is. -/
theorem Scope.enter_append (scope : Scope) (declarations : List (String × String)) {es : List (String × String)}
    (h : ∀ e ∈ es, declared? e.1 = none) : scope.enter (declarations ++ es) = scope.enter declarations := by
  rw [enter, List.foldl_append]
  change es.foldl _ (scope.enter declarations) = _
  generalize scope.enter declarations = inner
  induction es with
  | nil => rfl
  | cons e es ih =>
    rw [List.foldl_cons, h e List.mem_cons_self]
    exact ih fun d hd => h d (List.mem_cons_of_mem _ hd)

theorem Scope.resolve?_labelled (scope : Scope) (label : String) (h : ':' ∉ label.toList) (name : String) :
    scope.resolve? (String.ofList (label.toList ++ ':' :: name.toList)) = (scope label).map fun ns => (name, ns) := by
  simp only [resolve?, String.toList_ofList, splitFirst_label h, String.ofList_toList]

theorem Scope.resolve?_unlabelled (scope : Scope) {name : String} (h : IsName name) :
    scope.resolve? (String.ofList name.toList) = (scope "").map fun ns => (name, ns) := by
  simp only [resolve?, h.splitFirst, String.ofList_toList]

theorem declared?_default : declared? "xmlns" = some "" := rfl

theorem declared?_dialback : declared? "xmlns:db" = some "db" := by decide

theorem Scope.enter_singleton (scope : Scope) {name label : String} (h : declared? name = some label) (ns : String) :
    scope.enter [(name, ns)] = scope.declare label ns := by
  simp [enter, h]

/-- An element is in the namespace that its tag shows, and its content inherits what it should. -/
theorem Scope.Inherits.resolve {scope : Scope} {inherited : String} (h : scope.Inherits inherited) {name : String}
    (hn : IsName name) (ns : String) :
    (scope.enter (declarations ns inherited)).resolve? (String.ofList (qualifiedName name ns)) = some (name, ns) ∧
      (scope.enter (declarations ns inherited)).Inherits (inheritedBy ns inherited) := by
  unfold declarations qualifiedName inheritedBy
  by_cases stream : ns = Namespace.stream
  · simp only [if_pos stream, if_pos (Or.inl stream : _ ∨ ns = Namespace.dialback)]
    have tag := scope.resolve?_labelled "stream" (by decide) name
    rw [h.stream, ← stream] at tag
    exact ⟨tag, h⟩
  by_cases dialback : ns = Namespace.dialback
  · simp only [if_neg stream, if_pos dialback, if_pos (Or.inr dialback : ns = Namespace.stream ∨ _)]
    rw [enter_singleton scope declared?_dialback]
    have tag := (scope.declare "db" ns).resolve?_labelled "db" (by decide) name
    exact ⟨tag, h.unlabelled, h.stream⟩
  simp only [if_neg stream, if_neg dialback, if_neg (not_or.mpr ⟨stream, dialback⟩)]
  by_cases same : ns = inherited
  · have tag := scope.resolve?_unlabelled hn
    rw [h.unlabelled, ← same] at tag
    rw [if_pos same]
    exact ⟨tag, same ▸ h⟩
  · rw [if_neg same, enter_singleton scope declared?_default]
    exact ⟨(scope.declare "" ns).resolve?_unlabelled hn, rfl, h.stream⟩

/-- The node after others, the latest first; a text after a text is one text with it. -/
def Node.onto : Node → List Node → List Node
  | .text t, .text s :: before => .text (s ++ t) :: before
  | n, before => n :: before

/-- An element whose closing tag has not been read: its tag, the nodes before it, and the scope around it. -/
structure Unclosed where
  tag : String
  name : String
  ns : String
  attributes : Attributes
  before : List Node
  scope : Scope

/-- The nodes of the innermost element so far, the latest first, and the elements around them, the innermost first. -/
structure Assembly where
  nodes : List Node
  scope : Scope
  around : List Unclosed

namespace Assembly

def start : Assembly := ⟨[], .outermost, []⟩

def take (a : Assembly) : Token → Option Assembly
  | .character c => some { a with nodes := (Node.text (String.singleton c)).onto a.nodes }
  | .opening tag attributes =>
    let scope := a.scope.enter attributes
    (scope.resolve? tag).map fun e =>
      ⟨[], scope, ⟨tag, e.1, e.2, plainAttributes attributes, a.nodes, a.scope⟩ :: a.around⟩
  | .closing tag =>
    match a.around with
    | [] => none
    | e :: around =>
      if e.tag = tag then
        some ⟨(Node.element e.name e.ns e.attributes a.nodes.reverse).onto e.before, e.scope, around⟩
      else none

end Assembly

/-- The element that a text stands for, if it is the text of one. -/
def read (s : String) : Option Element :=
  match scanAll (.text .content) s.toList with
  | some (.text .content, tokens) =>
    match tokens.foldlM Assembly.take .start with
    | some ⟨[n], _, []⟩ => n.element?
    | _ => none
  | _ => none

theorem putEntry_of_last {name : String} (value : String) {es : List (String × String)} (h : ∀ e ∈ es, e.1 < name) :
    putEntry name value es = es ++ [(name, value)] := by
  induction es with
  | nil => rfl
  | cons e es ih =>
    have first := h e List.mem_cons_self
    have notBefore : ¬name < e.1 := String.lt_asymm first
    have notSame : name ≠ e.1 := fun same => String.lt_irrefl name (same ▸ first)
    rw [putEntry, if_neg notBefore, if_neg notSame, ih fun d hd => h d (List.mem_cons_of_mem _ hd)]
    rfl

theorem entries_foldl_set {a : Attributes} {es : List (String × String)}
    (h : (a.entries ++ es).Pairwise fun d e => d.1 < e.1) :
    (es.foldl (fun as e => as.set e.1 e.2) a).entries = a.entries ++ es := by
  induction es generalizing a with
  | nil => simp
  | cons e es ih =>
    have last : (a.set e.1 e.2).entries = a.entries ++ [e] :=
      putEntry_of_last e.2 fun d hd => (List.pairwise_append.mp h).2.2 d hd e List.mem_cons_self
    rw [List.append_cons, ← last] at h ⊢
    exact ih h

/-- Attributes put under their names one after another are the same attributes. -/
theorem ofList_entries (a : Attributes) : Attributes.ofList a.entries = a := by
  have same : (Attributes.ofList a.entries).entries = a.entries := entries_foldl_set (a := ∅) a.ascending
  cases h : Attributes.ofList a.entries with
  | mk es ascending =>
    rw [h] at same
    subst same
    rfl

theorem declared?_of_mem_declarations {ns inherited : String} {e : String × String}
    (he : e ∈ declarations ns inherited) : (declared? e.1).isSome = true := by
  rcases name_of_mem_declarations he with name | name
  · rw [name, declared?_default]
    rfl
  · rw [name, declared?_dialback]
    rfl

theorem plainAttributes_append (ns inherited : String) {a : Attributes} (h : ∀ e ∈ a.entries, declared? e.1 = none) :
    plainAttributes (declarations ns inherited ++ a.entries) = a := by
  have dropped : (declarations ns inherited).filter (fun e => (declared? e.1).isNone) = [] := by
    rw [List.filter_eq_nil_iff]
    intro e he
    simpa [Option.isSome_iff_ne_none] using declared?_of_mem_declarations he
  have kept : a.entries.filter (fun e => (declared? e.1).isNone) = a.entries := by
    rw [List.filter_eq_self]
    intro e he
    simp [h e he]
  rw [plainAttributes, List.filter_append, dropped, kept, List.nil_append, ofList_entries]

theorem onto_nil (n : Node) : n.onto [] = [n] := by
  cases n <;> rfl

theorem text_onto_text (s t : String) (before : List Node) :
    (Node.text t).onto ((Node.text s).onto before) = (Node.text (s ++ t)).onto before := by
  cases before with
  | nil => rfl
  | cons n before =>
    cases n with
    | text u => simp [Node.onto, String.append_assoc]
    | element => rfl

theorem followedBy_followedBy (s t : String) (rest : List Node) :
    (Node.text s).followedBy ((Node.text t).followedBy rest) = (Node.text (s ++ t)).followedBy rest := by
  cases rest with
  | nil => rfl
  | cons n rest =>
    cases n with
    | text u => simp [Node.followedBy, String.append_assoc]
    | element => rfl

/-- Nodes put one after another are the nodes put one before another. -/
theorem reverse_foldl_onto (n : Node) (before nodes : List Node) :
    (nodes.foldl (fun before n => n.joined.onto before) (n :: before)).reverse =
      before.reverse ++ n.followedBy (joinNodes nodes) := by
  induction nodes generalizing n before with
  | nil => simp [joinNodes, Node.followedBy]
  | cons m nodes ih =>
    rw [List.foldl_cons, joinNodes]
    generalize m.joined = k
    cases n with
    | text s =>
      cases k with
      | text t => rw [followedBy_followedBy, ← ih]; rfl
      | element => exact (ih _ _).trans (by simp [Node.followedBy])
    | element =>
      cases k with
      | text t => exact (ih _ _).trans (by simp [Node.followedBy])
      | element => exact (ih _ _).trans (by simp [Node.followedBy])

/-- What stands after one another in reading order is what stands before one another, joined in the same way. -/
theorem foldl_onto (nodes : List Node) :
    (nodes.foldl (fun before n => n.joined.onto before) []).reverse = joinNodes nodes := by
  cases nodes with
  | nil => rfl
  | cons n nodes =>
    rw [List.foldl_cons, onto_nil, reverse_foldl_onto, joinNodes]
    rfl

/-- Not the empty text. -/
def Node.Solid (n : Node) : Prop := n ≠ .text ""

namespace Assembly

/-- The characters of a text make up one node with the text before them. -/
theorem foldlM_characters (a : Assembly) (s : String) (cs : List Char) :
    (cs.map .character).foldlM take { a with nodes := (Node.text s).onto a.nodes } =
      some { a with nodes := (Node.text (s ++ String.ofList cs)).onto a.nodes } := by
  induction cs generalizing s with
  | nil => simp
  | cons c cs ih =>
    have step : take { a with nodes := (Node.text s).onto a.nodes } (.character c) =
        some { a with nodes := (Node.text (s ++ String.singleton c)).onto a.nodes } := by
      simp only [take, text_onto_text]
    have joined : s ++ String.singleton c ++ String.ofList cs = s ++ String.ofList (c :: cs) := by
      rw [String.append_assoc, ← String.toList_inj]
      simp
    rw [List.map_cons, List.foldlM_cons, step, ← joined]
    exact ih (s ++ String.singleton c)

theorem foldlM_text (a : Assembly) {s : String} (h : s ≠ "") :
    (s.toList.map .character).foldlM take a = some { a with nodes := (Node.text s).onto a.nodes } := by
  obtain ⟨c, cs, hs⟩ := List.exists_cons_of_ne_nil (mt String.toList_eq_nil_iff.mp h)
  have whole : String.singleton c ++ String.ofList cs = s := by
    rw [← String.toList_inj]
    simp [hs]
  have rest := a.foldlM_characters (String.singleton c) cs
  rw [whole] at rest
  rw [hs]
  exact rest

/-- The opening tag of an element leads inside it, with its name, namespace and attributes kept. -/
theorem take_opening (a : Assembly) {inherited : String} (scope : a.scope.Inherits inherited) {name : String}
    (hn : IsName name) (ns : String) {attributes : Attributes}
    (ha : ∀ e ∈ attributes.entries, IsName e.1 ∧ e.1 ≠ "xmlns") :
    a.take (.opening (String.ofList (qualifiedName name ns)) (declarations ns inherited ++ attributes.entries)) =
      some ⟨[], a.scope.enter (declarations ns inherited),
        ⟨String.ofList (qualifiedName name ns), name, ns, attributes, a.nodes, a.scope⟩ :: a.around⟩ := by
  have plain : ∀ e ∈ attributes.entries, declared? e.1 = none := fun e he =>
    declared?_eq_none (ha e he).1 (ha e he).2
  simp only [take, Scope.enter_append _ _ plain, (scope.resolve hn ns).1, plainAttributes_append ns inherited plain,
    Option.map_some]

mutual
/-- What is read of a node is the node, with neighbouring texts joined. -/
theorem foldlM_tokens (a : Assembly) {inherited : String} (scope : a.scope.Inherits inherited) :
    ∀ n : Node, n.Each Node.Solid → n.Each Node.Named →
      (n.tokens inherited).foldlM take a = some { a with nodes := n.joined.onto a.nodes }
  | .text s, solid, _ => foldlM_text a (by simpa [Node.Each, Node.Solid] using solid)
  | .element name ns attributes nodes, solid, named => by
    obtain ⟨⟨hn, ha⟩, hnodes⟩ := named
    have content := foldlM_tokensOf ⟨[], a.scope.enter (declarations ns inherited),
      ⟨String.ofList (qualifiedName name ns), name, ns, attributes, a.nodes, a.scope⟩ :: a.around⟩
      (scope.resolve hn ns).2 nodes solid.2 hnodes
    rw [Node.tokens, List.foldlM_cons, take_opening a scope hn ns ha, Option.bind_eq_bind, Option.bind_some,
      List.foldlM_append, content, Option.bind_eq_bind, Option.bind_some, List.foldlM_cons, take]
    simp [foldl_onto, Node.joined]

theorem foldlM_tokensOf (a : Assembly) {inherited : String} (scope : a.scope.Inherits inherited) :
    ∀ nodes : List Node, EachOf Node.Solid nodes → EachOf Node.Named nodes →
      (tokensOf inherited nodes).foldlM take a =
        some { a with nodes := nodes.foldl (fun before n => n.joined.onto before) a.nodes }
  | [], _, _ => rfl
  | n :: rest, solid, named => by
    rw [tokensOf, List.foldlM_append, foldlM_tokens a scope n solid.1 named.1]
    exact foldlM_tokensOf { a with nodes := n.joined.onto a.nodes } scope rest solid.2 named.2
end

end Assembly

namespace Element

/-- The elements that can be put together from others. -/
inductive Built : Element → Prop
  | new (name ns : String) : Built { name, ns }
  | setAttribute {e : Element} (h : e.Built) (name value : String) : Built (e.setAttribute name value)
  | eraseAttribute {e : Element} (h : e.Built) (name : String) : Built (e.eraseAttribute name)
  | appendText {e : Element} (h : e.Built) (content : String) : Built (e.appendText content)
  | appendChild {e child : Element} (h : e.Built) (hc : child.Built) : Built (e.appendChild child)
  | clear {e : Element} (h : e.Built) : Built e.clear

/-- All names in the element, at every depth, are names without a prefix, and no attribute declares a namespace. -/
def Named (e : Element) : Prop := e.toNode.Each Node.Named

instance : DecidablePred Named := fun e => inferInstanceAs (Decidable (e.toNode.Each Node.Named))

theorem eachOf_append {p : Node → Prop} {nodes more : List Node} :
    EachOf p (nodes ++ more) ↔ EachOf p nodes ∧ EachOf p more := by
  induction nodes with
  | nil => simp [EachOf]
  | cons n nodes ih => simp [EachOf, ih, and_assoc]

/-- No empty text is ever put into an element. -/
theorem Built.solid {e : Element} (h : e.Built) : e.toNode.Each Node.Solid := by
  induction h with
  | new name ns => exact ⟨by simp [Node.Solid], trivial⟩
  | setAttribute _ name value ih => exact ⟨by simp [Node.Solid], ih.2⟩
  | eraseAttribute _ name ih => exact ⟨by simp [Node.Solid], ih.2⟩
  | appendText _ content ih =>
    rw [Element.appendText]
    split
    · exact ih
    · next notEmpty =>
      have text : (Node.text content).Each Node.Solid := by simpa [Node.Each, Node.Solid] using notEmpty
      exact ⟨by simp [Node.Solid], eachOf_append.mpr ⟨ih.2, text, trivial⟩⟩
  | appendChild _ _ ih ihc => exact ⟨by simp [Node.Solid], eachOf_append.mpr ⟨ih.2, ihc, trivial⟩⟩
  | clear _ _ => exact ⟨by simp [Node.Solid], trivial⟩

/-- The text of an element is read as the element, with neighbouring texts joined. -/
theorem read_render {e : Element} (built : e.Built) (named : e.Named) : read e.render = some e.joined := by
  have tokens := scanAll_render Namespace.server e.toNode named
  have assembled := Assembly.foldlM_tokens .start Scope.outermost_inherits e.toNode built.solid named
  rw [Assembly.start, onto_nil] at assembled
  rw [read, render, String.toList_ofList, tokens]
  simp only [Assembly.start, assembled, ← toNode_joined, element?_toNode]

theorem render_joined (e : Element) : e.joined.render = e.render := by
  rw [render, render, toNode_joined, Xml.render_joined]

/-- A text stands for one element only: two that were put together from names without a prefix have the same text if
and only if they are equal once neighbouring texts are joined, and each is read back from it. -/
theorem text_stands_for_one {e f : Element} (he : e.Built) (hf : f.Built) (ne : e.Named) (nf : f.Named) :
    (e.render = f.render ↔ e.joined = f.joined) ∧ read e.render = some e.joined := by
  refine ⟨⟨fun same => ?_, fun same => ?_⟩, read_render he ne⟩
  · rw [← Option.some_inj, ← read_render he ne, ← read_render hf nf, same]
  · rw [← e.render_joined, same, f.render_joined]

/-- A message with two texts of a peer, next to children in the namespaces of the stream, of SASL, of dialback and in
none. -/
def crowded (first second : String) : Element :=
  let mechanism := ({ name := "mechanism", ns := Namespace.sasl } : Element).appendText "EXTERNAL"
  let mechanisms := ({ name := "mechanisms", ns := Namespace.sasl } : Element).appendChild mechanism
  let features := ({ name := "features", ns := Namespace.stream } : Element).appendChild mechanisms
  let message := (({ name := "message" } : Element).setAttribute "to" "a'>b").appendText first
  (((message.appendText second).appendChild features).appendChild
    { name := "result", ns := Namespace.dialback }).appendChild { name := "bare", ns := "" }

theorem built_crowded (first second : String) : (crowded first second).Built := by
  have mechanisms := ((Built.new "mechanisms" Namespace.sasl).appendChild
    ((Built.new "mechanism" Namespace.sasl).appendText "EXTERNAL"))
  have message := (((Built.new "message" Namespace.server).setAttribute "to" "a'>b").appendText first).appendText second
  exact ((message.appendChild ((Built.new "features" Namespace.stream).appendChild mechanisms)).appendChild
    (Built.new "result" Namespace.dialback)).appendChild (Built.new "bare" "")

/-- Two texts full of markup are read as the one that they make up, and nothing else is. -/
theorem texts_read_as_one :
    crowded "1 < 2 &amp; " "</message>" ≠ crowded "1 < 2 &amp; </message>" "" ∧
      (crowded "1 < 2 &amp; " "</message>").render = (crowded "1 < 2 &amp; </message>" "").render ∧
      read (crowded "1 < 2 &amp; " "</message>").render = some (crowded "1 < 2 &amp; </message>" "") := by
  have named : (crowded "1 < 2 &amp; " "</message>").Named := by decide +kernel
  have named' : (crowded "1 < 2 &amp; </message>" "").Named := by decide +kernel
  have joined : (crowded "1 < 2 &amp; " "</message>").joined = crowded "1 < 2 &amp; </message>" "" := by
    decide +kernel
  have alone : (crowded "1 < 2 &amp; </message>" "").joined = crowded "1 < 2 &amp; </message>" "" := by
    decide +kernel
  obtain ⟨same, read⟩ := text_stands_for_one (built_crowded ..) (built_crowded ..) named named'
  exact ⟨by decide +kernel, same.mpr (joined.trans alone.symm), read.trans (congrArg some joined)⟩

end Element

end Interdomain.Xml
