import Interdomain.Effect
import Interdomain.Table

/-! The surroundings of a gateway as far as it can see them: the clock, the facts about links, the source of
link numbers and of random tokens, and the trace of all calls made to them. -/
namespace Interdomain

structure Sources where
  /-- The number of each link that is opened, counted from zero. -/
  linkId : Nat → LinkId
  /-- Each random token that is drawn, counted from zero. -/
  token : Nat → String

structure World where
  sources : Sources
  /-- The time in milliseconds. -/
  now : Nat := 0
  /-- The links there are facts about; about others there is nothing but `unknown`. -/
  links : Table LinkId Link := ∅
  /-- The facts about links without an entry. -/
  unknown : Link := {}
  /-- The facts about the links that will be opened next, in order. -/
  upcoming : List Link := []
  opened : Nat := 0
  drawn : Nat := 0
  /-- The calls made so far, oldest first. -/
  trace : List Effect := []

namespace World

def link (w : World) (id : LinkId) : Link := (w.links.get? id).getD w.unknown

def emit (w : World) (e : Effect) : World := { w with trace := w.trace ++ [e] }

def send (w : World) (id : LinkId) (frame : Frame) : World := w.emit (.send id frame)

def sendElement (w : World) (id : LinkId) (e : Xml.Element) : World := w.send id (.element e)

def sendElements (w : World) (id : LinkId) (es : List Xml.Element) : World :=
  es.foldl (fun w e => w.sendElement id e) w

def close (w : World) (id : LinkId) : World := w.emit (.close id)

/-- Writes a stream error and closes the link. -/
def fail (w : World) (id : LinkId) (error : Stream.Error) : World :=
  (w.send id (.error error)).close id

/-- Writes the closing tag and closes the link. -/
def finish (w : World) (id : LinkId) : World := (w.send id .close).close id

def reset (w : World) (id : LinkId) : World := w.emit (.reset id)

/-- Tries to start TLS for a local domain, which succeeds exactly if the facts about the link say so. -/
def startTls (w : World) (id : LinkId) (role : TlsRole) (domain : String) : World :=
  let link := w.link id
  { w.emit (.startTls id role domain link.tlsStarts) with links := w.links.insert id link.startTls }

def connect (w : World) (route : Route) (address : Candidate) (timeout : Nat) : World × LinkId :=
  let id := w.sources.linkId w.opened
  let opened := { w with
    links := w.links.insert id (w.upcoming.headD w.unknown)
    upcoming := w.upcoming.tail
    opened := w.opened + 1 }
  (opened.emit (.connect id route address timeout), id)

def draw (w : World) : World × String := ({ w with drawn := w.drawn + 1 }, w.sources.token w.drawn)

/-- The calls made since an earlier moment. -/
def since (w earlier : World) : List Effect := w.trace.drop earlier.trace.length

@[simp] theorem trace_emit (w : World) (e : Effect) : (w.emit e).trace = w.trace ++ [e] := rfl

end World

end Interdomain
