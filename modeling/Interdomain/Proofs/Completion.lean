import Interdomain.Proofs.Opening

/-! Dialback between two servers that reach each other completes. The left side opens a stream and requests its pair
of domains there; the right side opens a stream in turn to ask about the key, and grants the request once the left
side vouches for it; then the stanzas flow. A run is always in one of these phases, and knows how many steps are to
go. Each step, whichever comes first, is one step less. -/
namespace Interdomain

open Protocol (Dialback)

namespace Meeting

/-- What the right side is asked to admit, on the stream with this challenge. -/
def claim (m : Meeting) (c : String) : Claim := ⟨c, m.domain .right, m.domain .left⟩

/-- What the right side asks the left one about. -/
def inquiry (m : Meeting) (c : String) : Xml.Element :=
  (m.claim c).inquiry ((m.setup .left).signer.key (m.domain .right) (m.domain .left) c)

/-- What the left side answers to that. -/
def voucher (m : Meeting) (c : String) : Xml.Element := Dialback.verifyReply (m.domain .right) (m.domain .left) c true

/-- What the right side answers in the end. -/
def grant (m : Meeting) : Xml.Element := Dialback.resultReply (m.domain .left) (m.domain .right) true

/-- A key of the left side is read as it was written. -/
theorem trim_key (m : Meeting) (a b c : String) :
    Text.trim ((m.setup .left).signer.key a b c) = (m.setup .left).signer.key a b c :=
  Signer.trim_key _ a b c

theorem isVerify_inquiry (m : Meeting) (c : String) : Dialback.isVerify (m.inquiry c) = true :=
  Dialback.isVerify_verify ..

theorem not_isVerify (m : Meeting) {e : Xml.Element} (he : e ∈ m.stanzas) : Dialback.isVerify e = false := by
  have other : Xml.Namespace.server ≠ Xml.Namespace.dialback := by decide
  simp [Dialback.isVerify, Xml.Element.is, m.server e he, other]

/-- Each stanza is still to be delivered, and some are still to be submitted. -/
def todo (m : Meeting) (n : Net) : Nat := m.stanzas.length + n.outbox.length

/-- The left side has called, and has for the request to be granted what was submitted so far. -/
structure Calling (m : Meeting) (n : Net) (load : Load) (w : Wire) : Prop where
  wires : n.wires .left = [w]
  link : load.link = w.caller
  route : load.route = m.route .left
  verifies : load.verifies = []
  stanzas : load.stanzas ++ n.outbox = m.stanzas

/-- The right side has given out a challenge, and the left side has sent its request and waits for the answer. -/
structure Asked (m : Meeting) (n : Net) (c : String) (load : Load) (w : Wire) : Prop extends m.Calling n load w where
  drawn : ∃ j, c = (m.world .right).sources.token j
  request : load.request = .sentRequest
  waits : (n.gateway .left).Waits load .sentRequest (some c)

/-- The right side has not called, whatever its router has been given. -/
structure Uncalled (m : Meeting) (n : Net) (es : List Xml.Element) : Prop where
  wires : n.wires .right = []
  unconnected : (n.gateway .right).Unconnected (m.route .right)
  expects : ∀ t, (n.gateway .left).Expects t
  errands : n.errands .right = es
  deliveries : n.deliveries .right = es

/-- The right side has called about its challenge. -/
structure Called (m : Meeting) (n : Net) (c : String) (v : Wire) : Prop where
  wires : n.wires .right = [v]
  errands : n.errands .right = []
  deliveries : n.deliveries .right = [m.inquiry c]

/-- The right side has called, and opens a stream for its inquiry. -/
structure Inquiring (m : Meeting) (n : Net) (c : String) (load : Load) (v : Wire) (i : Nat) : Prop
    extends m.Called n c v where
  link : load.link = v.caller
  route : load.route = m.route .right
  request : load.request = .notRequested
  verifies : load.verifies = [m.inquiry c]
  opening : m.Opening .right load (n.gateway .right) (n.gateway .left) v i

/-- The request has been heard on its connection, where nothing is under way. -/
structure Claimed (m : Meeting) (n : Net) (c : String) (w : Wire) : Prop where
  talks : (n.gateway .right).Talks w.callee (m.session .left c) [m.claim c]
  forth : w.forth = []
  back : w.back = []

/-- How far the answer to a request is, with so many steps to go until it is heard. -/
inductive Answering (m : Meeting) (n : Net) (c : String) (w : Wire) : Nat → Prop
  | hears (uncalled : m.Uncalled n []) (talks : (n.gateway .right).Talks w.callee (m.session .left c) [])
      (forth : w.forth = [.element ((m.setup .left).requestFor (m.route .left) c)]) (back : w.back = []) :
      Answering m n c w 10
  | claims (claimed : m.Claimed n c w) (uncalled : m.Uncalled n [m.inquiry c]) : Answering m n c w 9
  | inquires {load v i} (claimed : m.Claimed n c w) (inquiring : m.Inquiring n c load v i) : Answering m n c w (4 + i)
  | asks {load v stage id session} (claimed : m.Claimed n c w) (called : m.Called n c v)
      (link : load.link = v.caller) (waits : (n.gateway .right).Waits load stage id)
      (here : (n.gateway .left).sessionOn v.callee = some session) (forth : v.forth = [.element (m.inquiry c)])
      (back : v.back = []) : Answering m n c w 3
  | vouches {load v stage id} (claimed : m.Claimed n c w) (called : m.Called n c v) (link : load.link = v.caller)
      (waits : (n.gateway .right).Waits load stage id) (forth : v.forth = [])
      (back : v.back = [.element (m.voucher c)]) : Answering m n c w 2
  | grants {v} (called : m.Called n c v) (serves : (n.gateway .right).Serves w.callee (m.session .left c) (m.claim c))
      (silent : v.forth = [] ∧ v.back = []) (forth : w.forth = []) (back : w.back = [.element m.grant]) :
      Answering m n c w 1

/-- The route is there, with some stanzas under way on it, and some delivered. -/
structure Flowing (m : Meeting) (n : Net) (c : String) (w v : Wire) (ds es : List Xml.Element) : Prop where
  left : n.wires .left = [w]
  right : n.wires .right = [v]
  errands : n.errands .right = []
  carries : (n.gateway .left).Carries (m.route .left) w.caller
  serves : (n.gateway .right).Serves w.callee (m.session .left c) (m.claim c)
  silent : v.forth = [] ∧ v.back = []
  forth : w.forth = es.map .element
  back : w.back = []
  deliveries : n.deliveries .right = m.inquiry c :: ds
  stanzas : ds ++ es ++ n.outbox = m.stanzas

/-- How far the two sides have come, with so many steps to go. -/
inductive Phase (m : Meeting) (n : Net) : Nat → Prop
  | begins (uncalled : m.Uncalled n []) (wires : n.wires .left = [])
      (unconnected : (n.gateway .left).Unconnected (m.route .left)) (expects : ∀ t, (n.gateway .right).Expects t)
      (outbox : n.outbox = m.stanzas) : Phase m n (15 + m.todo n)
  | opens {load w i} (calling : m.Calling n load w) (uncalled : m.Uncalled n []) (wants : load.request = .wantRequest)
      (opening : m.Opening .left load (n.gateway .left) (n.gateway .right) w i) : Phase m n (11 + i + m.todo n)
  | awaits {c load w k} (asked : m.Asked n c load w) (answering : m.Answering n c w k) : Phase m n (k + m.todo n)
  | flows {c w v ds es} (flowing : m.Flowing n c w v ds es) : Phase m n (es.length + 2 * n.outbox.length)

/-- One step less is to go. -/
def Leads (m : Meeting) (r : Nat) (n : Net) : Prop := ∃ r', r = r' + 1 ∧ m.Phase n r' ∧ m.Sound n

variable {m : Meeting} {n n' : Net} {s : Side} {load load' : Load} {w v x : Wire} {c : String} {i k r : Nat}
  {e : Xml.Element} {es : List Xml.Element} {event : LinkEvent} {rest : List LinkEvent}

theorem Phase.start (m : Meeting) : m.Phase m.start (15 + m.todo m.start) := by
  have expects (s : Side) (t : LinkId) : (m.start.gateway s).Expects t := by
    refine ⟨fun stream h => ?_, fun _ => rfl, fun _ => rfl⟩
    cases h
  exact .begins ⟨rfl, ⟨rfl, rfl, rfl⟩, expects .left, rfl, rfl⟩ rfl ⟨rfl, rfl, rfl⟩ (expects .right) rfl

theorem left_wire (left : n.wires .left = [w]) (right : n.wires .right = []) (wire : (n.wires s)[i]? = some x) :
    s = .left ∧ i = 0 ∧ x = w := by
  cases s with
  | left => cases i <;> simp_all
  | right => simp [right] at wire

theorem one_wire (left : n.wires .left = [w]) (right : n.wires .right = [v]) (wire : (n.wires s)[i]? = some x) :
    (s = .left ∧ i = 0 ∧ x = w) ∨ (s = .right ∧ i = 0 ∧ x = v) := by
  cases s <;> cases i <;> simp_all

theorem Calling.go (calling : m.Calling n load w) (wires : n'.wires .left = [v]) (caller : v.caller = w.caller)
    (outbox : n'.outbox = n.outbox) : m.Calling n' load v :=
  ⟨wires, caller ▸ calling.link, calling.route, calling.verifies, outbox ▸ calling.stanzas⟩

theorem Calling.again (calling : m.Calling n load w) (request : Request) : m.Calling n { load with request } w :=
  ⟨calling.wires, calling.link, calling.route, calling.verifies, calling.stanzas⟩

theorem Asked.go (asked : m.Asked n c load w) (wires : n'.wires .left = [v]) (caller : v.caller = w.caller)
    (outbox : n'.outbox = n.outbox) (keeps : Gateway.KeepsOutbound (n.gateway .left) (n'.gateway .left)) :
    m.Asked n' c load v :=
  ⟨asked.toCalling.go wires caller outbox, asked.drawn, asked.request, asked.waits.of_keepsOutbound keeps⟩

theorem Uncalled.go (uncalled : m.Uncalled n es) (wires : n'.wires .right = n.wires .right)
    (errands : n'.errands .right = n.errands .right) (deliveries : n'.deliveries .right = n.deliveries .right)
    (right : Gateway.KeepsOutbound (n.gateway .right) (n'.gateway .right))
    (left : Gateway.KeepsInbound (n.gateway .left) (n'.gateway .left)) : m.Uncalled n' es :=
  ⟨wires.trans uncalled.wires, uncalled.unconnected.of_keepsOutbound right,
    fun t => (uncalled.expects t).of_keepsInbound left, errands.trans uncalled.errands,
    deliveries.trans uncalled.deliveries⟩

theorem Called.go (called : m.Called n c w) (wires : n'.wires .right = [v])
    (errands : n'.errands .right = n.errands .right) (deliveries : n'.deliveries .right = n.deliveries .right) :
    m.Called n' c v :=
  ⟨wires, errands.trans called.errands, deliveries.trans called.deliveries⟩

theorem Inquiring.go (h : m.Inquiring n c load w i) (wires : n'.wires .right = [v]) (caller : v.caller = w.caller)
    (errands : n'.errands .right = n.errands .right) (deliveries : n'.deliveries .right = n.deliveries .right)
    (opening : m.Opening .right load (n'.gateway .right) (n'.gateway .left) v k) : m.Inquiring n' c load v k :=
  ⟨h.toCalled.go wires errands deliveries, caller ▸ h.link, h.route, h.request, h.verifies, opening⟩

theorem Claimed.go {cs : List Effect} (claimed : m.Claimed n c w)
    (out : (n.gateway .right).Outward cs (n'.gateway .right)) : m.Claimed n' c w :=
  ⟨claimed.talks.outward out, claimed.forth, claimed.back⟩

/-- Nothing is heard, and no call is made; the right side does nothing at all. -/
structure Quiet (n n' : Net) : Prop where
  wires : n'.wires = n.wires
  errands : n'.errands = n.errands
  outward : ∀ s, (n.gateway s).Outward [] (n'.gateway s)
  right : Gateway.KeepsOutbound (n.gateway .right) (n'.gateway .right)

namespace Quiet

theorem deliveries (q : Quiet n n') (s : Side) : n'.deliveries s = n.deliveries s := by
  rw [Net.deliveries, (q.outward s).makes.trace, List.append_nil]
  rfl

theorem sound (q : Quiet n n') (hn : m.Sound n) : m.Sound n' :=
  ⟨fun s => (hn.runs s).makes (q.outward s).keeps.setup (q.outward s).makes (by simp), q.wires ▸ hn.wired,
    q.errands ▸ hn.idle⟩

theorem uncalled (q : Quiet n n') (uncalled : m.Uncalled n es) : m.Uncalled n' es :=
  uncalled.go (q.wires ▸ rfl) (q.errands ▸ rfl) (q.deliveries .right) q.right (q.outward .left).keeps

theorem called (q : Quiet n n') (called : m.Called n c v) : m.Called n' c v :=
  called.go (q.wires ▸ called.wires) (q.errands ▸ rfl) (q.deliveries .right)

theorem inquiring (q : Quiet n n') (h : m.Inquiring n c load v i) : m.Inquiring n' c load v i :=
  h.go (q.wires ▸ h.wires) rfl (q.errands ▸ rfl) (q.deliveries .right)
    ((h.opening.reload rfl fun _ _ waits => waits.of_keepsOutbound q.right).keep (q.outward .left))

/-- The answer does not depend on what else the left side does, nor on the time. -/
theorem answering (q : Quiet n n') (h : m.Answering n c w k) : m.Answering n' c w k := by
  have right := q.outward .right
  cases h with
  | hears uncalled talks forth back => exact .hears (q.uncalled uncalled) (talks.outward right) forth back
  | claims claimed uncalled => exact .claims (claimed.go right) (q.uncalled uncalled)
  | inquires claimed inquiring => exact .inquires (claimed.go right) (q.inquiring inquiring)
  | asks claimed called link waits here forth back =>
    exact .asks (claimed.go right) (q.called called) link (waits.of_keepsOutbound q.right)
      (((q.outward .left).keeps.sessionOn_eq _).trans here) forth back
  | vouches claimed called link waits forth back =>
    exact .vouches (claimed.go right) (q.called called) link (waits.of_keepsOutbound q.right) forth back
  | grants called serves silent forth back =>
    exact .grants (q.called called) (serves.outward right) silent forth back

end Quiet

/-- Nothing happens but that time passes. -/
structure Still (n n' : Net) : Prop extends Quiet n n' where
  outbox : n'.outbox = n.outbox
  left : Gateway.KeepsOutbound (n.gateway .left) (n'.gateway .left)

/-- What relates each gateway to itself, and one to what it becomes, relates all of them. -/
theorem update_each {P : Gateway → Gateway → Prop} (refl : ∀ g, P g g) {f : Side → Gateway} {g : Gateway}
    (step : P (f s) g) (u : Side) : P (f u) (Function.update f s g u) := by
  by_cases hu : u = s
  · subst hu
    rwa [Function.update_self]
  · rw [Function.update_of_ne hu]
    exact refl _

theorem Still.wait (m : Meeting) (s : Side) (duration : Nat) (n : Net) :
    Still n (m.perform s (.wait duration) n) := by
  have makes : (n.gateway s).world.Makes [] ((n.gateway s).step (.wait duration)).world :=
    ⟨rfl, fun h => ⟨h.unknown, h.links, h.upcoming⟩, (List.append_nil _).symm⟩
  have keeps := update_each Gateway.KeepsOutbound.refl (Gateway.wait_keepsOutbound (n.gateway s) duration)
  have outward := update_each (P := (Gateway.Outward · [] ·)) .refl ⟨makes, rfl, rfl, rfl, rfl⟩
  rw [perform_eq rfl makes]
  exact ⟨⟨rfl, rfl, outward, keeps .right⟩, rfl, keeps .left⟩

theorem Still.phase (h : Still n n') (hp : m.Phase n r) : m.Phase n' r := by
  have todo : m.todo n' = m.todo n := by rw [Meeting.todo, h.outbox, Meeting.todo]
  cases hp with
  | begins uncalled wires unconnected expects outbox =>
    rw [← todo]
    exact .begins (h.uncalled uncalled) (h.wires ▸ wires) (unconnected.of_keepsOutbound h.left)
      (fun t => (expects t).of_keepsInbound (h.outward .right).keeps) (h.outbox ▸ outbox)
  | opens calling uncalled wants opening =>
    rw [← todo]
    exact .opens (calling.go (h.wires ▸ calling.wires) rfl h.outbox) (h.uncalled uncalled) wants
      ((opening.reload rfl fun _ _ waits => waits.of_keepsOutbound h.left).keep (h.outward .right))
  | awaits asked answering =>
    rw [← todo]
    exact .awaits (asked.go (h.wires ▸ asked.wires) rfl h.outbox h.left) (h.answering answering)
  | flows flowing =>
    rw [← h.outbox]
    exact .flows ⟨h.wires ▸ flowing.left, h.wires ▸ flowing.right, h.errands ▸ flowing.errands,
      flowing.carries.of_keepsOutbound h.left, flowing.serves.outward (h.outward .right), flowing.silent,
      flowing.forth, flowing.back, (h.deliveries .right).trans flowing.deliveries, h.outbox ▸ flowing.stanzas⟩

section Hears

variable (hn : m.Sound n)
include hn

section Opens

variable (calling : m.Calling n load w) (uncalled : m.Uncalled n []) (wants : load.request = .wantRequest)
  (opening : m.Opening .left load (n.gateway .left) (n.gateway .right) w i)
include calling uncalled wants opening

theorem opens_toCaller (back : w.back = event :: rest) :
    m.Leads (11 + i + m.todo n) (m.toCaller .left 0 w event rest n) := by
  cases i with
  | succ i =>
    have own (j : Nat) : (n.gateway .left).challenges.contains ((m.world .right).sources.token j) = false :=
      Table.contains_eq_false.mpr ((uncalled.expects 0).challenge _)
    obtain ⟨fs, out, opening⟩ := opening.outward (hn.runs .left) own back
    rw [calling.link] at out opening
    obtain ⟨eq, sound⟩ := hn.toCaller calling.wires rest out (m.sends_conveys _ _ fs)
    rw [eq]
    exact ⟨11 + i + m.todo n, by omega, .opens (calling.go rfl rfl rfl)
      (uncalled.go rfl rfl (Net.deliveries_sends out.makes .right) (.refl _) out.keeps) wants opening, sound⟩
  | zero =>
    obtain ⟨j, out, waits, talks, forth, rfl⟩ :=
      opening.asks (hn.runs .left) calling.route back wants calling.verifies
    rw [calling.link] at out waits
    obtain ⟨eq, sound⟩ := hn.toCaller calling.wires [] out (m.sends_conveys _ _ _)
    rw [eq]
    refine ⟨10 + m.todo n, by omega, .awaits ⟨(calling.again .sentRequest).go rfl rfl rfl, ⟨j, rfl⟩, rfl, ?_⟩
      (.hears (uncalled.go rfl rfl (Net.deliveries_sends out.makes .right) (.refl _) out.keeps) talks ?_ rfl), sound⟩
    · rw [calling.link]
      exact waits
    · simp [forth]
      rfl

theorem opens_toCallee (forth : w.forth = event :: rest) :
    m.Leads (11 + i + m.todo n) (m.toCallee .left 0 w event rest n) := by
  obtain ⟨fs, i, rfl, inw, opening⟩ := opening.inward (hn.runs .right) calling.route forth
  obtain ⟨eq, sound⟩ := hn.toCallee calling.wires rest inw (m.sends_conveys _ _ fs)
  rw [eq]
  exact ⟨11 + i + m.todo n, by omega, .opens (calling.go rfl rfl rfl)
    (uncalled.go rfl rfl (Net.deliveries_sends inw.makes .right) inw.keeps (.refl _)) wants opening, sound⟩

end Opens

section Awaits

variable (asked : m.Asked n c load w)
include asked

/-- The request is heard, and the router is given the inquiry. -/
theorem hears_toCallee (uncalled : m.Uncalled n []) (talks : (n.gateway .right).Talks w.callee (m.session .left c) [])
    (back : w.back = []) : m.Leads (10 + m.todo n)
      (m.toCallee .left 0 w (.element ((m.setup .left).requestFor (m.route .left) c)) [] n) := by
  obtain ⟨inw, talks⟩ := talks.result (m.normal .left) (m.normal .right) uncalled.unconnected
    ((m.setup .left).signer.key (m.domain .right) (m.domain .left) c)
  rw [m.trim_key] at inw
  have inw : (n.gateway .right).Inward [.deliver (m.inquiry c)] ((n.gateway .right).onInbound w.callee
    (.element ((m.setup .left).requestFor (m.route .left) c))) := inw
  obtain ⟨eq, sound⟩ := hn.inquires asked.wires [] (m.isVerify_inquiry c) inw
  have delivered := Net.deliveries_put (s := .left) (w := { w with forth := [] }) inw.makes .right
  rw [uncalled.deliveries] at delivered
  rw [eq]
  refine ⟨9 + m.todo n, by omega, .awaits (asked.go rfl rfl rfl (.refl _)) (.claims ⟨talks, rfl, back⟩
    ⟨uncalled.wires, uncalled.unconnected.of_keepsOutbound inw.keeps, uncalled.expects, ?_, delivered⟩), sound⟩
  simp [uncalled.errands]

theorem inquires_toCaller (claimed : m.Claimed n c w) (h : m.Inquiring n c load' v i)
    (back : v.back = event :: rest) : m.Leads (4 + i + m.todo n) (m.toCaller .right 0 v event rest n) := by
  cases i with
  | succ i =>
    have own (j : Nat) : (n.gateway .right).challenges.contains ((m.world .left).sources.token j) = false := by
      obtain ⟨i, hc⟩ := asked.drawn
      exact Table.contains_eq_false.mpr (claimed.talks.only _ (hc ▸ m.distinct j i))
    obtain ⟨fs, out, opening⟩ := h.opening.outward (hn.runs .right) own back
    rw [h.link] at out opening
    obtain ⟨eq, sound⟩ := hn.toCaller h.wires rest out (m.sends_conveys _ _ fs)
    rw [eq]
    exact ⟨4 + i + m.todo n, by omega, .awaits (asked.go asked.wires rfl rfl (.refl _)) (.inquires (claimed.go out)
      (h.go rfl rfl rfl (Net.deliveries_sends out.makes .right) opening)), sound⟩
  | zero =>
    obtain ⟨session, out, ⟨load₂, stage, id, link, waits⟩, here, forth, rfl⟩ :=
      h.opening.flushes (hn.runs .right) h.route back h.request
    rw [h.link] at out waits
    obtain ⟨eq, sound⟩ := hn.toCaller h.wires [] out (m.sends_conveys _ _ _)
    rw [eq]
    refine ⟨3 + m.todo n, by omega, .awaits (asked.go asked.wires rfl rfl (.refl _)) (.asks (claimed.go out)
      (h.toCalled.go rfl rfl (Net.deliveries_sends out.makes .right)) (link.trans h.link) waits here ?_ rfl), sound⟩
    simp [forth, h.verifies]
    rfl

theorem inquires_toCallee (claimed : m.Claimed n c w) (h : m.Inquiring n c load' v i)
    (forth : v.forth = event :: rest) : m.Leads (4 + i + m.todo n) (m.toCallee .right 0 v event rest n) := by
  obtain ⟨fs, i, rfl, inw, opening⟩ := h.opening.inward (hn.runs .left) h.route forth
  obtain ⟨eq, sound⟩ := hn.toCallee h.wires rest inw (m.sends_conveys _ _ fs)
  rw [eq]
  exact ⟨4 + i + m.todo n, by omega, .awaits (asked.go asked.wires rfl rfl inw.keeps) (.inquires (claimed.go (.refl _))
    (h.go rfl rfl rfl (Net.deliveries_sends inw.makes .right) opening)), sound⟩

/-- The left side knows its own key again. -/
theorem asks_toCallee {stage : Stage} {id : Option String} {session : Session} (claimed : m.Claimed n c w)
    (called : m.Called n c v) (link : load'.link = v.caller) (waits : (n.gateway .right).Waits load' stage id)
    (here : (n.gateway .left).sessionOn v.callee = some session) (back : v.back = []) :
    m.Leads (3 + m.todo n) (m.toCallee .right 0 v (.element (m.inquiry c)) [] n) := by
  obtain ⟨inw, keeps⟩ := Gateway.Talks.verify here (k := m.claim c) (m.normal .left) (m.normal .right)
    ((m.setup .left).signer.key (m.domain .right) (m.domain .left) c)
  have valid : decide ((n.gateway .left).setup.signer.key (m.domain .right) (m.domain .left) c =
      Text.trim ((m.setup .left).signer.key (m.domain .right) (m.domain .left) c)) = true := by
    simp [m.trim_key, (hn.runs .left).setup]
  have inw : (n.gateway .left).Inward ([Frame.element (m.voucher c)].map (.send v.callee))
      ((n.gateway .left).onInbound v.callee (.element (m.inquiry c))) := by
    rw [voucher, ← valid]
    exact inw
  obtain ⟨eq, sound⟩ := hn.toCallee called.wires [] inw (m.sends_conveys _ _ _)
  rw [eq]
  refine ⟨2 + m.todo n, by omega, .awaits (asked.go asked.wires rfl rfl inw.keeps)
    (.vouches (claimed.go (.refl _)) (called.go rfl rfl (Net.deliveries_sends inw.makes .right)) link waits rfl ?_),
    sound⟩
  simp [back]
  rfl

/-- The claim is admitted, and the request granted. -/
theorem vouches_toCaller {stage : Stage} {id : Option String} (claimed : m.Claimed n c w) (called : m.Called n c v)
    (link : load'.link = v.caller) (waits : (n.gateway .right).Waits load' stage id) (forth : v.forth = []) :
    m.Leads (2 + m.todo n) (m.toCaller .right 0 v (.element (m.voucher c)) [] n) := by
  obtain ⟨made, setup, _, serves⟩ := claimed.talks.vouched rfl waits (m.normal .left) (m.normal .right)
    (hn.runs .right).permits (hn.runs .right).plain
  rw [link] at made setup serves
  have made : (n.gateway .right).world.Makes ([Frame.element m.grant].map (.send w.callee))
    ((n.gateway .right).onOutbound v.caller (.element (m.voucher c))).world := made
  obtain ⟨eq, sound⟩ := hn.crosses called.wires [] asked.wires made setup (m.sends_conveys _ _ _)
  rw [eq]
  have delivered := Net.deliveries_sends (w := v) (s := .right) made .right
  refine ⟨1 + m.todo n, by omega, .awaits (asked.go rfl rfl rfl (.refl _))
    (.grants (called.go rfl rfl delivered) serves ⟨forth, rfl⟩ claimed.forth ?_), sound⟩
  simp [claimed.back]
  rfl

/-- The route begins, and what was submitted goes out on it. -/
theorem grants_toCaller (called : m.Called n c v)
    (serves : (n.gateway .right).Serves w.callee (m.session .left c) (m.claim c))
    (silent : v.forth = [] ∧ v.back = []) (forth : w.forth = []) :
    m.Leads (1 + m.todo n) (m.toCaller .left 0 w (.element m.grant) [] n) := by
  obtain ⟨out, carries⟩ := asked.waits.result asked.request asked.verifies (asked.route ▸ m.normal .right)
    (asked.route ▸ m.normal .left)
  rw [asked.link, asked.route] at out carries
  have out : (n.gateway .left).Outward _ ((n.gateway .left).onOutbound w.caller (.element m.grant)) := out
  have conveys := m.routeUp_conveys .left w.caller (load.stanzas.map .element) (m.route .left).destination
  simp only [List.map_map, Function.comp_def] at conveys
  obtain ⟨eq, sound⟩ := hn.toCaller asked.wires [] out conveys
  have total : load.stanzas.length + n.outbox.length = m.stanzas.length := by
    rw [← List.length_append, asked.stanzas]
  rw [eq]
  refine ⟨load.stanzas.length + 2 * n.outbox.length, ?_, .flows ⟨rfl, called.wires, called.errands, carries, serves,
    silent, ?_, rfl, called.deliveries, asked.stanzas⟩, sound⟩
  · rw [todo]
    omega
  · simp [forth, Frame.event]

theorem Answering.toCaller (h : m.Answering n c w k) (wire : (n.wires s)[i]? = some x)
    (back : x.back = event :: rest) : m.Leads (k + m.todo n) (m.toCaller s i x event rest n) := by
  cases h with
  | hears uncalled _ _ hb =>
    obtain ⟨rfl, rfl, rfl⟩ := left_wire asked.wires uncalled.wires wire
    simp [hb] at back
  | claims claimed uncalled =>
    obtain ⟨rfl, rfl, rfl⟩ := left_wire asked.wires uncalled.wires wire
    simp [claimed.back] at back
  | inquires claimed inquiring =>
    obtain ⟨rfl, rfl, rfl⟩ | ⟨rfl, rfl, rfl⟩ := one_wire asked.wires inquiring.wires wire
    · simp [claimed.back] at back
    · exact inquires_toCaller hn asked claimed inquiring back
  | asks claimed called _ _ _ _ hb =>
    obtain ⟨rfl, rfl, rfl⟩ | ⟨rfl, rfl, rfl⟩ := one_wire asked.wires called.wires wire
    · simp [claimed.back] at back
    · simp [hb] at back
  | vouches claimed called link waits forth hb =>
    obtain ⟨rfl, rfl, rfl⟩ | ⟨rfl, rfl, rfl⟩ := one_wire asked.wires called.wires wire
    · simp [claimed.back] at back
    · obtain ⟨rfl, rfl⟩ : event = .element (m.voucher c) ∧ rest = [] := by simpa [hb, eq_comm] using back
      exact vouches_toCaller hn asked claimed called link waits forth
  | grants called serves silent forth hb =>
    obtain ⟨rfl, rfl, rfl⟩ | ⟨rfl, rfl, rfl⟩ := one_wire asked.wires called.wires wire
    · obtain ⟨rfl, rfl⟩ : event = .element m.grant ∧ rest = [] := by simpa [hb, eq_comm] using back
      exact grants_toCaller hn asked called serves silent forth
    · simp [silent.2] at back

theorem Answering.toCallee (h : m.Answering n c w k) (wire : (n.wires s)[i]? = some x)
    (forth : x.forth = event :: rest) : m.Leads (k + m.todo n) (m.toCallee s i x event rest n) := by
  cases h with
  | hears uncalled talks hf back =>
    obtain ⟨rfl, rfl, rfl⟩ := left_wire asked.wires uncalled.wires wire
    obtain ⟨rfl, rfl⟩ : event = .element ((m.setup .left).requestFor (m.route .left) c) ∧ rest = [] := by
      simpa [hf, eq_comm] using forth
    exact hears_toCallee hn asked uncalled talks back
  | claims claimed uncalled =>
    obtain ⟨rfl, rfl, rfl⟩ := left_wire asked.wires uncalled.wires wire
    simp [claimed.forth] at forth
  | inquires claimed inquiring =>
    obtain ⟨rfl, rfl, rfl⟩ | ⟨rfl, rfl, rfl⟩ := one_wire asked.wires inquiring.wires wire
    · simp [claimed.forth] at forth
    · exact inquires_toCallee hn asked claimed inquiring forth
  | asks claimed called link waits here hf back =>
    obtain ⟨rfl, rfl, rfl⟩ | ⟨rfl, rfl, rfl⟩ := one_wire asked.wires called.wires wire
    · simp [claimed.forth] at forth
    · obtain ⟨rfl, rfl⟩ : event = .element (m.inquiry c) ∧ rest = [] := by simpa [hf, eq_comm] using forth
      exact asks_toCallee hn asked claimed called link waits here back
  | vouches claimed called _ _ hf _ =>
    obtain ⟨rfl, rfl, rfl⟩ | ⟨rfl, rfl, rfl⟩ := one_wire asked.wires called.wires wire
    · simp [claimed.forth] at forth
    · simp [hf] at forth
  | grants called _ silent hf _ =>
    obtain ⟨rfl, rfl, rfl⟩ | ⟨rfl, rfl, rfl⟩ := one_wire asked.wires called.wires wire
    · simp [hf] at forth
    · simp [silent.1] at forth

end Awaits

/-- A stanza is delivered. -/
theorem Flowing.toCallee {ds : List Xml.Element} (h : m.Flowing n c w v ds (e :: es)) :
    m.Leads ((e :: es).length + 2 * n.outbox.length) (m.toCallee .left 0 w (.element e) (es.map .element) n) := by
  have he : e ∈ m.stanzas := by simp [← h.stanzas]
  obtain ⟨inw, serves⟩ := h.serves.stanza rfl (m.addressed e he) (m.server e he)
  obtain ⟨eq, sound⟩ := hn.toCallee h.left (es.map .element) inw (m.deliver_conveys _ _ (m.not_isVerify he))
  have delivered := Net.deliveries_put (w := w) (s := .left) inw.makes .right
  rw [h.deliveries] at delivered
  rw [eq]
  refine ⟨es.length + 2 * n.outbox.length, ?_, .flows ⟨rfl, h.right, h.errands, h.carries, serves, h.silent, rfl,
    by simp [h.back], delivered, ?_⟩, sound⟩
  · rw [List.length_cons]
    omega
  · simpa [Effect.delivered?, Net.put] using h.stanzas

/-- What a caller hears. -/
theorem Phase.toCaller (hp : m.Phase n r) (wire : (n.wires s)[i]? = some x) (back : x.back = event :: rest) :
    m.Leads r (m.toCaller s i x event rest n) := by
  cases hp with
  | begins uncalled wires _ _ _ => cases s <;> simp [wires, uncalled.wires] at wire
  | opens calling uncalled wants opening =>
    obtain ⟨rfl, rfl, rfl⟩ := left_wire calling.wires uncalled.wires wire
    exact opens_toCaller hn calling uncalled wants opening back
  | awaits asked answering => exact answering.toCaller hn asked wire back
  | flows flowing =>
    obtain ⟨rfl, rfl, rfl⟩ | ⟨rfl, rfl, rfl⟩ := one_wire flowing.left flowing.right wire
    · simp [flowing.back] at back
    · simp [flowing.silent.2] at back

/-- What a callee hears. -/
theorem Phase.toCallee (hp : m.Phase n r) (wire : (n.wires s)[i]? = some x) (forth : x.forth = event :: rest) :
    m.Leads r (m.toCallee s i x event rest n) := by
  cases hp with
  | begins uncalled wires _ _ _ => cases s <;> simp [wires, uncalled.wires] at wire
  | opens calling uncalled wants opening =>
    obtain ⟨rfl, rfl, rfl⟩ := left_wire calling.wires uncalled.wires wire
    exact opens_toCallee hn calling uncalled wants opening forth
  | awaits asked answering => exact answering.toCallee hn asked wire forth
  | @flows c w v ds es flowing =>
    obtain ⟨rfl, rfl, rfl⟩ | ⟨rfl, rfl, rfl⟩ := one_wire flowing.left flowing.right wire
    · cases es with
      | nil => simp [flowing.forth] at forth
      | cons e es =>
        obtain ⟨rfl, rfl⟩ : event = .element e ∧ rest = es.map .element := by
          simpa [flowing.forth, eq_comm] using forth
        exact flowing.toCallee hn
    · simp [flowing.silent.1] at forth

end Hears

section Submits

variable (out : n.outbox = e :: es)
include out

/-- A stanza waits with those before it. -/
theorem Calling.submit {stage : Stage} {id : Option String} (calling : m.Calling n load w)
    (waits : (n.gateway .left).Waits load stage id)
    (asked : load.request = .wantRequest ∨ load.request = .sentRequest) :
    Quiet n (m.submit e es n) ∧ m.Calling (m.submit e es n) { load with stanzas := load.stanzas ++ [e] } w ∧
      ((m.submit e es n).gateway .left).Waits { load with stanzas := load.stanzas ++ [e] } stage id ∧
      m.todo n = m.todo (m.submit e es n) + 1 := by
  have he : e ∈ m.stanzas := by simp [← calling.stanzas, out]
  obtain ⟨outward, waits⟩ :=
    waits.submit asked (calling.route ▸ m.addressed e he) (m.not_isVerify he) (some (m.address .right))
  have eq : m.submit e es n = { n with
      gateway := Function.update n.gateway .left ((n.gateway .left).submit e (m.address .right)).1, outbox := es } :=
    perform_eq (n := { n with outbox := es }) (Gateway.step_submit _ _ _) outward.makes
  have stanzas := calling.stanzas
  rw [out] at stanzas
  rw [eq]
  refine ⟨⟨rfl, rfl, update_each (P := (Gateway.Outward · [] ·)) .refl outward, .refl _⟩,
    ⟨calling.wires, calling.link, calling.route, calling.verifies, ?_⟩, waits, ?_⟩
  · simpa using stanzas
  · simp only [todo, out, List.length_cons]
    omega

variable (hn : m.Sound n)
include hn

/-- The first stanza makes the left side call. -/
theorem begins_submit (uncalled : m.Uncalled n []) (wires : n.wires .left = [])
    (unconnected : (n.gateway .left).Unconnected (m.route .left)) (expects : ∀ t, (n.gateway .right).Expects t)
    (outbox : n.outbox = m.stanzas) : m.Leads (15 + m.todo n) (m.submit e es n) := by
  have he : e ∈ m.stanzas := by simp [← outbox, out]
  have usable : Candidate.parseList (n.gateway .left).setup.settings.defaultPort (m.address .right) ≠ [] := by
    rw [(hn.runs .left).setup]
    exact m.usable .right
  obtain ⟨first, timeout, outward, waits⟩ := unconnected.submit (m.addressed e he) usable
  rw [Load.first_stanza (m.not_isVerify he)] at waits
  have others : m.Sound { n with outbox := es } := ⟨hn.runs, hn.wired, hn.idle⟩
  obtain ⟨eq, sound⟩ := others.calls wires outward
  have todo : m.todo n = m.stanzas.length + es.length + 1 := by rw [todo, out, List.length_cons, Nat.add_assoc]
  rw [show m.submit e es n = _ from eq]
  refine ⟨11 + (1 + 3) + (m.stanzas.length + es.length), by omega, .opens ⟨rfl, rfl, rfl, rfl, ?_⟩
    ⟨uncalled.wires, uncalled.unconnected, fun t => (uncalled.expects t).of_keepsInbound outward.keeps,
      uncalled.errands, uncalled.deliveries⟩ rfl (.dialled waits (expects _) rfl rfl), sound⟩
  exact out.symm.trans outbox

theorem opens_submit (calling : m.Calling n load w) (uncalled : m.Uncalled n []) (wants : load.request = .wantRequest)
    (opening : m.Opening .left load (n.gateway .left) (n.gateway .right) w i) :
    m.Leads (11 + i + m.todo n) (m.submit e es n) := by
  obtain ⟨stage, id, waits⟩ := opening.waiting
  obtain ⟨quiet, next, _, todo⟩ := calling.submit out waits (.inl wants)
  have reloaded : m.Opening .left { load with stanzas := load.stanzas ++ [e] } _ (n.gateway .right) w i :=
    opening.reload rfl fun _ _ waits => (calling.submit out waits (.inl wants)).2.2.1
  exact ⟨11 + i + m.todo (m.submit e es n), by omega, .opens next (quiet.uncalled uncalled) wants
    (reloaded.keep (quiet.outward .right)), quiet.sound hn⟩

theorem Asked.submit (asked : m.Asked n c load w) (answering : m.Answering n c w k) :
    m.Leads (k + m.todo n) (m.submit e es n) := by
  obtain ⟨quiet, calling, waits, todo⟩ := asked.toCalling.submit out asked.waits (.inr asked.request)
  exact ⟨k + m.todo (m.submit e es n), by omega, .awaits ⟨calling, asked.drawn, asked.request, waits⟩
    (quiet.answering answering), quiet.sound hn⟩

/-- A stanza goes out on the route. -/
theorem Flowing.submit {ds fs : List Xml.Element} (h : m.Flowing n c w v ds fs) :
    m.Leads (fs.length + 2 * n.outbox.length) (m.submit e es n) := by
  have he : e ∈ m.stanzas := by simp [← h.stanzas, out]
  obtain ⟨outward, carries⟩ := h.carries.submit (m.addressed e he) (some (m.address .right))
  have conveys : m.Conveys .left w.caller [.element e] [.send w.caller (.element e)] := m.sends_conveys _ _ [.element e]
  let g := ((n.gateway .left).submit e (m.address .right)).1
  have put := hn.put (u := .left) (g := g) (v := { w with forth := w.forth ++ [.element e] }) h.left
    ((hn.runs .left).makes outward.keeps.setup outward.makes conveys.kept) rfl rfl
  have eq : m.submit e es n =
      { n.put .left g .left { w with forth := w.forth ++ [.element e] } with outbox := es } := by
    let sent : Net := { n with gateway := Function.update n.gateway .left g, outbox := es }
    have write : sent.write .left w.caller [.element e] = _ := Net.write_own h.left fun x hx =>
      hn.callee_ne (s := .left) (by simp [h.left]) hx
    refine (perform_eq (n := { n with outbox := es }) (Gateway.step_submit _ _ _) outward.makes).trans ?_
    exact (conveys.carried sent).trans (write.trans rfl)
  have total : n.outbox.length = es.length + 1 := by rw [out, List.length_cons]
  have stanzas := h.stanzas
  rw [out] at stanzas
  rw [eq]
  refine ⟨(fs ++ [e]).length + 2 * es.length, ?_, .flows ⟨rfl, h.right, h.errands, carries, h.serves, h.silent, ?_,
    h.back, h.deliveries, ?_⟩, put.runs, put.wired, put.idle⟩
  · rw [List.length_append, List.length_singleton]
    omega
  · simp [h.forth]
  · simpa using stanzas

theorem Phase.submit (hp : m.Phase n r) : m.Leads r (m.submit e es n) := by
  cases hp with
  | begins uncalled wires unconnected expects outbox =>
    exact begins_submit out hn uncalled wires unconnected expects outbox
  | opens calling uncalled wants opening => exact opens_submit out hn calling uncalled wants opening
  | awaits asked answering => exact asked.submit out hn answering
  | flows flowing => exact flowing.submit out hn

end Submits

/-- The inquiry makes the right side call. -/
theorem claims_handBack (hn : m.Sound n) (asked : m.Asked n c load w) (claimed : m.Claimed n c w)
    (uncalled : m.Uncalled n [m.inquiry c]) (errand : n.errands .right = e :: es) :
    m.Leads (9 + m.todo n) (m.handBack .right e es n) := by
  obtain ⟨he, rfl⟩ : e = m.inquiry c ∧ es = [] := by
    rw [uncalled.errands] at errand
    simpa [eq_comm] using errand
  have usable : Candidate.parseList (n.gateway .right).setup.settings.defaultPort (m.address .left) ≠ [] := by
    rw [(hn.runs .right).setup]
    exact m.usable .left
  have goes : Gateway.GoesTo e (m.route .right) :=
    he ▸ Claim.goesTo_inquiry (k := m.claim c) (m.normal .left) (m.normal .right) _
  obtain ⟨first, timeout, outward, waits⟩ := uncalled.unconnected.submit goes usable
  rw [Load.first_verify (he ▸ m.isVerify_inquiry c)] at waits
  have free : m.Sound { n with errands := Function.update n.errands .right [] } := ⟨hn.runs, hn.wired, hn.idle⟩
  obtain ⟨eq, sound⟩ := free.calls uncalled.wires outward
  rw [show m.handBack .right e [] n = _ from eq]
  refine ⟨4 + (1 + 3) + m.todo n, by omega, .awaits (asked.go asked.wires rfl rfl (.refl _)) (.inquires
    (claimed.go outward) ⟨⟨rfl, rfl, ?_⟩, rfl, rfl, rfl, congrArg (fun e => [e]) he,
      .dialled waits (uncalled.expects _) rfl rfl⟩), sound⟩
  simpa [Net.deliveries, Net.put, outward.makes.trace, List.filterMap_cons, Effect.delivered?] using
    uncalled.deliveries

theorem Phase.handBack (hp : m.Phase n r) (hn : m.Sound n) (errand : n.errands s = e :: es) :
    m.Leads r (m.handBack s e es n) := by
  obtain rfl : s = .right := by
    cases s with
    | left => simp [hn.idle] at errand
    | right => rfl
  cases hp with
  | begins uncalled _ _ _ _ => simp [uncalled.errands] at errand
  | opens _ uncalled _ _ => simp [uncalled.errands] at errand
  | awaits asked answering =>
    cases answering with
    | hears uncalled _ _ _ => simp [uncalled.errands] at errand
    | claims claimed uncalled => exact claims_handBack hn asked claimed uncalled errand
    | inquires _ inquiring => simp [inquiring.errands] at errand
    | asks _ called _ _ _ _ _ => simp [called.errands] at errand
    | vouches _ called _ _ _ _ => simp [called.errands] at errand
    | grants called _ _ _ _ => simp [called.errands] at errand
  | flows flowing => simp [flowing.errands] at errand

/-- Each of the two streams takes five events to open. The request is heard, and the inquiry comes back from the
router and is heard, and so are both answers; each stanza is submitted and delivered. -/
def steps (m : Meeting) : Nat := 15 + 2 * m.stanzas.length

/-- Each step is one of those that were to go. -/
theorem Phase.step (hp : m.Phase n r) (hn : m.Sound n) (step : m.Step n n') : m.Leads r n' := by
  cases step with
  | submit out => exact hp.submit out hn
  | handBack errand => exact hp.handBack hn errand
  | toCaller wire back => exact hp.toCaller hn wire back
  | toCallee wire forth => exact hp.toCallee hn wire forth

/-- Something under way on a connection can arrive. -/
theorem exists_step (wires : n.wires s = [w]) (live : w.back ≠ [] ∨ w.forth ≠ []) : ∃ n', m.Step n n' := by
  have wire : (n.wires s)[0]? = some w := by simp [wires]
  rcases live with live | live
  · obtain ⟨event, rest, back⟩ := List.exists_cons_of_ne_nil live
    exact ⟨_, .toCaller wire back⟩
  · obtain ⟨event, rest, forth⟩ := List.exists_cons_of_ne_nil live
    exact ⟨_, .toCallee wire forth⟩

theorem Answering.progress (h : m.Answering n c w k) (wires : n.wires .left = [w]) : ∃ n', m.Step n n' := by
  cases h with
  | hears _ _ forth _ => exact exists_step wires (.inr (by simp [forth]))
  | claims _ uncalled => exact ⟨_, .handBack uncalled.errands⟩
  | inquires _ inquiring => exact exists_step inquiring.wires inquiring.opening.live
  | asks _ called _ _ _ forth _ => exact exists_step called.wires (.inr (by simp [forth]))
  | vouches _ called _ _ _ back => exact exists_step called.wires (.inl (by simp [back]))
  | grants _ _ _ _ back => exact exists_step wires (.inl (by simp [back]))

/-- While there are steps to go, one can be taken. -/
theorem Phase.progress (hp : m.Phase n r) (h : r ≠ 0) : ∃ n', m.Step n n' := by
  cases hp with
  | begins _ _ _ _ outbox =>
    obtain ⟨e, es, out⟩ := List.exists_cons_of_ne_nil m.any
    exact ⟨_, .submit (outbox.trans out)⟩
  | opens calling _ _ opening => exact exists_step calling.wires opening.live
  | awaits asked answering => exact answering.progress asked.wires
  | @flows c w v ds es flowing =>
    cases es with
    | cons e es => exact exists_step flowing.left (.inr (by simp [flowing.forth]))
    | nil =>
      cases out : n.outbox with
      | nil => simp [out] at h
      | cons e es => exact ⟨_, .submit out⟩

/-- Every run has taken some of the steps, and has the others to go. -/
theorem Run.phase (run : m.Run k n) : ∃ r, k + r = m.steps ∧ m.Phase n r ∧ m.Sound n := by
  induction run with
  | start =>
    have total : 15 + m.todo m.start = m.steps := by
      simp only [todo, steps, Meeting.start]
      omega
    exact ⟨15 + m.todo m.start, by omega, .start m, .start m⟩
  | step run step ih =>
    obtain ⟨r, total, hp, hn⟩ := ih
    obtain ⟨r', rfl, hp, hn⟩ := hp.step hn step
    exact ⟨r', by omega, hp, hn⟩
  | @wait k n run s duration ih =>
    obtain ⟨r, total, hp, hn⟩ := ih
    have still := Still.wait m s duration n
    exact ⟨r, total, still.phase hp, still.sound hn⟩

/-- There are runs of every length up to that. -/
theorem Run.exists (m : Meeting) (h : k ≤ m.steps) : ∃ n, m.Run k n := by
  induction k with
  | zero => exact ⟨_, .start⟩
  | succ k ih =>
    obtain ⟨n, run⟩ := ih (by omega)
    obtain ⟨r, total, hp, _⟩ := run.phase
    obtain ⟨n', step⟩ := hp.progress (by omega)
    exact ⟨n', .step run step⟩

/-- The route is authorized on the connection of the left side, and at its other end the pair of domains. The right
side has been given the request about it and each stanza once, in order, and nothing is left or came back. -/
structure Completed (m : Meeting) (n : Net) (w : Wire) (c : String) : Prop where
  wires : n.wires .left = [w]
  carries : (n.gateway .left).Carries (m.route .left) w.caller
  serves : (n.gateway .right).Serves w.callee (m.session .left c) (m.claim c)
  deliveries : n.deliveries .right = m.inquiry c :: m.stanzas
  outbox : n.outbox = []
  kept : ∀ s stanza reason, .bounce stanza reason ∉ (n.gateway s).world.trace

theorem Answering.pos (h : m.Answering n c w k) : 0 < k := by
  cases h <;> omega

theorem Phase.completed (hp : m.Phase n r) (hn : m.Sound n) (h : r = 0) : ∃ w c, m.Completed n w c := by
  cases hp with
  | begins _ _ _ _ _ => omega
  | opens _ _ _ _ => omega
  | awaits _ answering =>
    have := answering.pos
    omega
  | @flows c w v ds es flowing =>
    have outbox : n.outbox = [] := List.length_eq_zero_iff.mp (by omega)
    obtain rfl : es = [] := List.length_eq_zero_iff.mp (by omega)
    have stanzas := flowing.stanzas
    rw [outbox, List.append_nil, List.append_nil] at stanzas
    exact ⟨w, c, flowing.left, flowing.carries, flowing.serves, stanzas ▸ flowing.deliveries, outbox,
      fun s stanza reason h => (hn.runs s).kept _ h rfl⟩

/-- However what is under way on the two connections arrives, and whatever time it takes, a run goes on for the same
number of steps, and is completed then. -/
theorem dialback_completes (run : m.Run k n) :
    k ≤ m.steps ∧ (k < m.steps → ∃ n', m.Step n n') ∧ (k = m.steps → ∃ w c, m.Completed n w c) := by
  obtain ⟨r, total, hp, hn⟩ := run.phase
  exact ⟨by omega, fun hk => hp.progress (by omega), fun hk => hp.completed hn (by omega)⟩

/-- Two servers with the default settings, and two stanzas from one to the other. -/
def sample : Meeting where
  domain s := if s = .left then "a.example" else "b.example"
  settings s := { secret := if s = .left then "left" else "right" }
  policy _ := {}
  world s :=
    { sources := ⟨(2 * ·), fun i => String.ofList (List.replicate (i + 1) (if s = .left then 'c' else 'd'))⟩
      unknown := { tlsDomains := some [] } }
  address _ := "192.0.2.1"
  number _ i := 2 * i + 1
  stanzas := [Gateway.sampleMessage "bob@b.example" "alice@a.example",
    Gateway.sampleMessage "carol@b.example" "alice@a.example"]
  normal s := by cases s <;> rfl
  apart := by decide +kernel
  permits s := by cases s <;> rfl
  versioned s := by cases s <;> decide +kernel
  plain s := ⟨⟨rfl, fun _ => rfl⟩, (fun _ _ h => nomatch h), (fun _ h => nomatch h)⟩
  proper s i h := by
    have := congrArg String.toList h
    simp [List.replicate_succ] at this
  distinct i j h := by
    have := congrArg String.toList h
    simp [List.replicate_succ] at this
  usable s := by cases s <;> decide +kernel
  numbered s i j := by
    change 2 * i + 1 ≠ 2 * j
    omega
  any := by simp
  server e he := by
    simp only [List.mem_cons, List.not_mem_nil, or_false] at he
    rcases he with rfl | rfl <;> rfl
  addressed e he := by
    simp only [List.mem_cons, List.not_mem_nil, or_false] at he
    rcases he with rfl | rfl <;> exact routed?_eq_some.mp (by decide +kernel)

theorem sample_completes : sample.steps = 19 ∧ ∃ n, sample.Run 19 n ∧ ∃ w c, sample.Completed n w c := by
  obtain ⟨n, run⟩ := Run.exists sample (k := 19) (by decide)
  exact ⟨rfl, n, run, (dialback_completes run).2.2 rfl⟩

end Meeting

end Interdomain
