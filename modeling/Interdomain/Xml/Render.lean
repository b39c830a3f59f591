import Interdomain.Xml.Element

/-! The XML text of elements. A namespace is declared where it differs from the one inherited from the
parent, except that elements of the stream carry the prefix `stream:`, bound on the stream header, and
elements of dialback the prefix `db:`, which they bind themselves; neither of these changes what their
content inherits. -/
namespace Interdomain.Xml

/-- A character of text or of an attribute value, with the five special characters as entities. -/
def escapeChar (c : Char) : List Char :=
  if c = '&' then "&amp;".toList
  else if c = '<' then "&lt;".toList
  else if c = '>' then "&gt;".toList
  else if c = '\'' then "&apos;".toList
  else if c = '"' then "&quot;".toList
  else [c]

def escapeChars (cs : List Char) : List Char := cs.flatMap escapeChar

def escape (s : String) : List Char := escapeChars s.toList

/-- The name with the prefix of its namespace, if it has one. -/
def qualifiedName (name ns : String) : List Char :=
  if ns = Namespace.stream then "stream:".toList ++ name.toList
  else if ns = Namespace.dialback then "db:".toList ++ name.toList
  else name.toList

def renderAttribute (name value : String) : List Char :=
  ' ' :: name.toList ++ "='".toList ++ escape value ++ ['\'']

/-- The declaration of a namespace inside one that `inherited` holds for. -/
def renderDeclaration (ns inherited : String) : List Char :=
  if ns = Namespace.stream then []
  else if ns = Namespace.dialback then renderAttribute "xmlns:db" ns
  else if ns = inherited then []
  else renderAttribute "xmlns" ns

/-- The namespace that the content of an element inherits. -/
def inheritedBy (ns inherited : String) : String :=
  if ns = Namespace.stream ∨ ns = Namespace.dialback then inherited else ns

def renderAttributes (as : Attributes) : List Char :=
  as.entries.flatMap fun e => renderAttribute e.1 e.2

mutual
/-- The text of a node inside an element whose content inherits `inherited`. -/
def Node.render (inherited : String) : Node → List Char
  | .text content => escape content
  | .element name ns attributes nodes =>
    '<' :: qualifiedName name ns ++ renderDeclaration ns inherited ++ renderAttributes attributes ++
      (match nodes with
      | [] => "/>".toList
      | n :: rest =>
        '>' :: n.render (inheritedBy ns inherited) ++ renderNodes (inheritedBy ns inherited) rest ++
          "</".toList ++ qualifiedName name ns ++ ['>'])

def renderNodes (inherited : String) : List Node → List Char
  | [] => []
  | n :: rest => n.render inherited ++ renderNodes inherited rest
end

def Element.render (e : Element) : String :=
  String.ofList (e.toNode.render Namespace.server)

end Interdomain.Xml
