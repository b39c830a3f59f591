import Interdomain.Xml.Attributes
import Interdomain.Xml.Namespace

/-! Elements: a name in a namespace, attributes, and a list of nodes, each a text or an element.
Text is added by `appendText`, which adds no node for the empty text. -/
namespace Interdomain.Xml

inductive Node where
  | text (content : String)
  | element (name ns : String) (attributes : Attributes) (nodes : List Node)
  deriving Repr

/-- An element, opened up to its content. -/
structure Element where
  name : String
  ns : String := Namespace.server
  attributes : Attributes := ∅
  nodes : List Node := []
  deriving Repr

mutual
def decideNode : (m n : Node) → Decidable (m = n)
  | .text s, .text t => decidable_of_iff (s = t) (by simp)
  | .element name ns as ms, .element name₂ ns₂ bs ks =>
    match decideNodes ms ks with
    | .isTrue h => decidable_of_iff (name = name₂ ∧ ns = ns₂ ∧ as = bs) (by simp [h])
    | .isFalse h => .isFalse (by simp [h])
  | .text _, .element .. => .isFalse (by simp)
  | .element .., .text _ => .isFalse (by simp)

def decideNodes : (ms ks : List Node) → Decidable (ms = ks)
  | [], [] => .isTrue rfl
  | m :: ms, k :: ks =>
    match decideNode m k, decideNodes ms ks with
    | .isTrue h, .isTrue t => .isTrue (by rw [h, t])
    | .isFalse h, _ => .isFalse (by simp [h])
    | _, .isFalse t => .isFalse (by simp [t])
  | [], _ :: _ => .isFalse (by simp)
  | _ :: _, [] => .isFalse (by simp)
end

instance : DecidableEq Node := decideNode

deriving instance DecidableEq for Element

def Node.text? : Node → Option String
  | .text content => some content
  | .element .. => none

def Node.element? : Node → Option Element
  | .text _ => none
  | .element name ns attributes nodes => some ⟨name, ns, attributes, nodes⟩

namespace Element

def toNode (e : Element) : Node := .element e.name e.ns e.attributes e.nodes

@[simp] theorem element?_toNode (e : Element) : e.toNode.element? = some e := rfl

def is (e : Element) (name ns : String) : Bool := e.name = name && e.ns = ns

def attribute? (e : Element) (name : String) : Option String := e.attributes.get? name

def setAttribute (e : Element) (name value : String) : Element :=
  { e with attributes := e.attributes.set name value }

def eraseAttribute (e : Element) (name : String) : Element :=
  { e with attributes := e.attributes.erase name }

/-- Adds a text after the content; the empty text adds nothing. -/
def appendText (e : Element) (content : String) : Element :=
  if content = "" then e else { e with nodes := e.nodes ++ [.text content] }

def appendChild (e child : Element) : Element :=
  { e with nodes := e.nodes ++ [child.toNode] }

/-- Drops the content and keeps name and attributes. -/
def clear (e : Element) : Element := { e with nodes := [] }

/-- The texts directly in the element, joined. -/
def text (e : Element) : String := String.join (e.nodes.filterMap Node.text?)

/-- The elements directly in the element. -/
def children (e : Element) : List Element := e.nodes.filterMap Node.element?

/-- The first child element with this name in this namespace. -/
def child? (e : Element) (name ns : String) : Option Element :=
  e.children.find? (·.is name ns)

@[simp] theorem name_setAttribute (e : Element) (name value : String) :
    (e.setAttribute name value).name = e.name := rfl

@[simp] theorem ns_setAttribute (e : Element) (name value : String) :
    (e.setAttribute name value).ns = e.ns := rfl

@[simp] theorem name_appendChild (e child : Element) : (e.appendChild child).name = e.name := rfl

@[simp] theorem ns_appendChild (e child : Element) : (e.appendChild child).ns = e.ns := rfl

@[simp] theorem name_appendText (e : Element) (content : String) :
    (e.appendText content).name = e.name := by
  unfold appendText; split <;> rfl

@[simp] theorem ns_appendText (e : Element) (content : String) :
    (e.appendText content).ns = e.ns := by
  unfold appendText; split <;> rfl

@[simp] theorem attribute?_setAttribute (e : Element) (name value x : String) :
    (e.setAttribute name value).attribute? x = if x = name then some value else e.attribute? x :=
  e.attributes.get?_set name value x

@[simp] theorem attribute?_appendText (e : Element) (content x : String) :
    (e.appendText content).attribute? x = e.attribute? x := by
  unfold appendText; split <;> rfl

@[simp] theorem children_appendChild (e child : Element) :
    (e.appendChild child).children = e.children ++ [child] := by
  simp [children, appendChild, toNode, Node.element?]

theorem text_appendText {e : Element} (h : e.nodes = []) (content : String) :
    (e.appendText content).text = content := by
  simp only [text, appendText]
  split
  · simp_all
  · simp [h, Node.text?, String.join]

end Element

end Interdomain.Xml
