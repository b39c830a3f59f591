import Interdomain.Policy.Requirement
import Interdomain.Stream.Error
import Interdomain.Stream.Header

/-! Links: the connections that streams run over. A link belongs to the layer below, which reports events
on it; what is known about it here is its number and a few facts about its protection. -/
namespace Interdomain

abbrev LinkId := Nat

structure Link where
  /-- How well the link is protected at present. -/
  level : Policy.Level := 0
  /-- The local domains that TLS is set up for; all of them if there is no list. -/
  tlsDomains : Option (List String) := none
  /-- The level from which on the layer below takes the link to be encrypted, and offers no TLS on it. -/
  encryptedFrom : Policy.Level := 1
  tlsStarts : Bool := true
  tlsLevel : Policy.Level := 256
  /-- The domains that the peer has shown a valid certificate for. -/
  certified : List String := []
  peerAddress : Option String := none
  deriving Repr, DecidableEq

namespace Link

def offersTls (l : Link) (domain : String) : Bool :=
  (match l.tlsDomains with
    | none => true
    | some domains => domain ∈ domains) && decide (l.level < l.encryptedFrom)

def certifies (l : Link) (domain : String) : Bool := domain ∈ l.certified

def startTls (l : Link) : Link := if l.tlsStarts then { l with level := l.tlsLevel } else l

end Link

inductive TlsRole where
  | client
  | server
  deriving Repr, DecidableEq

inductive Frame where
  | header (header : Stream.Header)
  | element (element : Xml.Element)
  | error (error : Stream.Error)
  /-- The closing tag of the stream. -/
  | close
  deriving Repr, DecidableEq

/-- What the layer below reports of a link. -/
inductive LinkEvent where
  | connected
  | header (header : Stream.Header)
  | element (element : Xml.Element)
  | closed (error : Option String)
  deriving Repr, DecidableEq

end Interdomain
