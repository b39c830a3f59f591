import Interdomain.Proofs.Conversation
import Mathlib.Logic.Function.Basic

/-! Two servers that reach each other. Each is a gateway; what one writes on a connection the other hears at the
other end, in the same order, whenever its turn comes, and a request that a router is given comes back to its
gateway. A run is any interleaving of these steps, with any time between them. While each side has opened no more
than one connection, a step changes one gateway and the connection that the step is about. -/
namespace Interdomain

open Protocol (Dialback)

inductive Side where
  | left
  | right
  deriving Repr, DecidableEq

def Side.other : Side → Side
  | left => right
  | right => left

@[simp] theorem Side.other_other (s : Side) : s.other.other = s := by cases s <;> rfl

@[simp] theorem Side.other_ne (s : Side) : s.other ≠ s := by cases s <;> decide

/-- What is heard at the other end of a link when a frame is written. -/
def Frame.event : Frame → LinkEvent
  | .header h => .header h
  | .element e => .element e
  | .error e => .element e.toElement
  | .close => .closed none

/-- A connection, with the numbers that its two ends have for it, and with what is under way in each direction. -/
structure Wire where
  caller : LinkId
  callee : LinkId
  /-- What the callee is still to hear. -/
  forth : List LinkEvent := [.connected]
  /-- What the caller is still to hear. -/
  back : List LinkEvent := [.connected]

/-- What one end writes is under way to the other; `calls` tells whether it is the end of the caller. -/
def Wire.write (w : Wire) (calls : Bool) (t : LinkId) (events : List LinkEvent) : Wire :=
  if calls then if w.caller = t then { w with forth := w.forth ++ events } else w
  else if w.callee = t then { w with back := w.back ++ events } else w

/-- When one end closes the connection, both hear of it. -/
def Wire.close (w : Wire) (calls : Bool) (t : LinkId) : Wire :=
  if (if calls then w.caller else w.callee) = t then
    { w with forth := w.forth ++ [.closed none], back := w.back ++ [.closed none] }
  else w

/-- The element that a call hands to the router. -/
def Effect.delivered? : Effect → Option Xml.Element
  | deliver e => some e
  | _ => none

structure Net where
  gateway : Side → Gateway
  /-- The connections that each side has opened. -/
  wires : Side → List Wire
  /-- The verify requests that the router of each side has. -/
  errands : Side → List Xml.Element
  /-- The stanzas that the left side is still to submit. -/
  outbox : List Xml.Element

/-- Two servers that take neither the other's headers nor its challenges for their own, and permit each other
dialback on links without protection; and the stanzas that one has for the other. -/
structure Meeting where
  domain : Side → String
  settings : Side → Settings
  policy : Side → Policy.Book
  world : Side → World
  /-- The address at which a side is reached. -/
  address : Side → String
  /-- The number that a side has for each connection that the other one opens, in order. -/
  number : Side → Nat → LinkId
  stanzas : List Xml.Element
  normal : ∀ s, Jid.parseDomain (domain s) = .ok (domain s)
  apart : (Signer.ofSecret (settings .left).secret).loopToken ≠ (Signer.ofSecret (settings .right).secret).loopToken
  permits : ∀ s, (policy s).check (domain s.other) .dialback 0 = .ok ()
  versioned : ∀ s, ((policy s).lookup (domain s.other)).version ≠ .disabled
  plain : ∀ s, (world s).Plain
  proper : ∀ s i, (world s).sources.token i ≠ ""
  distinct : ∀ i j, (world .left).sources.token i ≠ (world .right).sources.token j
  /-- The other side makes something of the address. -/
  usable : ∀ s, Candidate.parseList (settings s.other).defaultPort (address s) ≠ []
  /-- A side gives the connections of the other one numbers that it gives to none of its own. -/
  numbered : ∀ s i j, number s i ≠ (world s).sources.linkId j
  any : stanzas ≠ []
  server : ∀ e ∈ stanzas, e.ns = Xml.Namespace.server
  addressed : ∀ e ∈ stanzas, Gateway.GoesTo e ⟨domain .right, domain .left⟩

namespace Net

/-- What a side writes on one of its links is under way on the connection that has this number there. -/
def write (n : Net) (s : Side) (t : LinkId) (events : List LinkEvent) : Net :=
  { n with wires := fun u => (n.wires u).map (·.write (u = s) t events) }

def close (n : Net) (s : Side) (t : LinkId) : Net :=
  { n with wires := fun u => (n.wires u).map (·.close (u = s) t) }

/-- The gateway of one side goes on, and the only connection of one side. -/
def put (n : Net) (u : Side) (g : Gateway) (s : Side) (w : Wire) : Net :=
  { n with gateway := Function.update n.gateway u g, wires := Function.update n.wires s [w] }

/-- The elements that the gateway of a side has handed to its router, in order. -/
def deliveries (n : Net) (s : Side) : List Xml.Element :=
  (n.gateway s).world.trace.filterMap Effect.delivered?

section

variable {n : Net} {s : Side} {t : LinkId} {w : Wire} {es fs : List LinkEvent}

theorem write_nil : n.write s t [] = n := by
  have h (u : Side) : (n.wires u).map (·.write (u = s) t []) = n.wires u := by
    refine List.map_id'' (fun w => ?_) _
    simp [Wire.write]
  simp only [write, h]

theorem write_append : (n.write s t es).write s t fs = n.write s t (es ++ fs) := by
  have h (u : Side) (w : Wire) : (w.write (u = s) t es).write (u = s) t fs = w.write (u = s) t (es ++ fs) := by
    unfold Wire.write
    split <;> split <;> simp_all
  simp only [write, List.map_map, Function.comp_def, h]

/-- A side writes on the one connection that it has opened. -/
theorem write_own (wires : n.wires s = [w]) (other : ∀ v ∈ n.wires s.other, v.callee ≠ w.caller) :
    n.write s w.caller es = { n with wires := Function.update n.wires s [{ w with forth := w.forth ++ es }] } := by
  have h : (fun u => (n.wires u).map (·.write (u = s) w.caller es)) =
      Function.update n.wires s [{ w with forth := w.forth ++ es }] := by
    funext u
    by_cases hu : u = s
    · simp [hu, wires, Wire.write]
    · have hu' : u = s.other := by cases u <;> cases s <;> simp_all [Side.other]
      subst hu'
      rw [Function.update_of_ne hu]
      refine (List.map_congr_left fun v hv => ?_).trans (List.map_id _)
      simp [Wire.write, other v hv]
  simp only [write, h]

/-- A side writes on the one connection that the other side has opened. -/
theorem write_peer (wires : n.wires s.other = [w]) (own : ∀ v ∈ n.wires s, v.caller ≠ w.callee) :
    n.write s w.callee es =
      { n with wires := Function.update n.wires s.other [{ w with back := w.back ++ es }] } := by
  have h : (fun u => (n.wires u).map (·.write (u = s) w.callee es)) =
      Function.update n.wires s.other [{ w with back := w.back ++ es }] := by
    funext u
    by_cases hu : u = s.other
    · simp [hu, wires, Wire.write]
    · have hu' : u = s := by cases u <;> cases s <;> simp_all [Side.other]
      subst hu'
      rw [Function.update_of_ne hu]
      refine (List.map_congr_left fun v hv => ?_).trans (List.map_id _)
      simp [Wire.write, own v hv]
  simp only [write, h]

variable {u : Side} {g : Gateway} {cs : List Effect}

theorem deliveries_put (made : (n.gateway u).world.Makes cs g.world) (x : Side) : (n.put u g s w).deliveries x =
    n.deliveries x ++ if x = u then cs.filterMap Effect.delivered? else [] := by
  by_cases hx : x = u
  · subst hx
    simp [deliveries, put, made.trace]
  · simp [deliveries, put, hx]

/-- What is written on a link is not delivered. -/
theorem deliveries_sends {frames : List Frame} (made : (n.gateway u).world.Makes (frames.map (.send t)) g.world)
    (x : Side) : (n.put u g s w).deliveries x = n.deliveries x := by
  have none : (frames.map (Effect.send t)).filterMap Effect.delivered? = [] := by simp [Effect.delivered?]
  rw [deliveries_put made, none, ite_self, List.append_nil]

end

end Net

namespace Meeting

variable (m : Meeting)

def setup (s : Side) : Setup := .ofSettings (m.settings s) (m.policy s)

/-- The route from a side to the other one. -/
def route (s : Side) : Route := ⟨m.domain s.other, m.domain s⟩

/-- Two gateways without any connection, and all stanzas still to submit. -/
def start : Net where
  gateway s := .initial (m.setup s) (m.world s)
  wires _ := []
  errands _ := []
  outbox := m.stanzas

/-- What comes of a call by the gateway of a side. The other side is what it connects to, and verify requests are
all that the router comes back with. -/
def carry (s : Side) (n : Net) : Effect → Net
  | .connect t _ _ _ =>
    let wire : Wire := { caller := t, callee := m.number s.other (n.wires s).length }
    { n with wires := Function.update n.wires s (n.wires s ++ [wire]) }
  | .send t frame => n.write s t [frame.event]
  | .close t => n.close s t
  | .deliver e => if Dialback.isVerify e then
      { n with errands := Function.update n.errands s (n.errands s ++ [e]) } else n
  | .reset _ | .startTls .. | .bounce .. | .routeUp _ | .routeDown _ | .account _ => n

/-- The gateway of a side does an operation, and its calls are carried out. -/
def perform (s : Side) (op : Operation) (n : Net) : Net :=
  let g := (n.gateway s).step op
  (g.world.since (n.gateway s).world).foldl (m.carry s) { n with gateway := Function.update n.gateway s g }

/-- A stanza is submitted, after which the others are still to submit. -/
def submit (e : Xml.Element) (rest : List Xml.Element) (n : Net) : Net :=
  m.perform .left (.submit e (m.address .right)) { n with outbox := rest }

/-- The router of a side comes back with a verify request, after which it still has the others. -/
def handBack (s : Side) (e : Xml.Element) (rest : List Xml.Element) (n : Net) : Net :=
  m.perform s (.submit e (m.address s.other)) { n with errands := Function.update n.errands s rest }

/-- The caller of a connection hears an event on it, after which the rest is still under way. -/
def toCaller (s : Side) (i : Nat) (w : Wire) (event : LinkEvent) (rest : List LinkEvent) (n : Net) : Net :=
  m.perform s (.outbound w.caller event)
    { n with wires := Function.update n.wires s ((n.wires s).set i { w with back := rest }) }

/-- The callee of a connection hears an event on it, after which the rest is still under way. -/
def toCallee (s : Side) (i : Nat) (w : Wire) (event : LinkEvent) (rest : List LinkEvent) (n : Net) : Net :=
  m.perform s.other (.inbound w.callee event)
    { n with wires := Function.update n.wires s ((n.wires s).set i { w with forth := rest }) }

/-- A stanza is submitted, a router comes back with a verify request, or something under way arrives. -/
inductive Step (n : Net) : Net → Prop
  | submit {e rest} (out : n.outbox = e :: rest) : Step n (m.submit e rest n)
  | handBack {s e rest} (errand : n.errands s = e :: rest) : Step n (m.handBack s e rest n)
  | toCaller {s i w event rest} (wire : (n.wires s)[i]? = some w) (back : w.back = event :: rest) :
      Step n (m.toCaller s i w event rest n)
  | toCallee {s i w event rest} (wire : (n.wires s)[i]? = some w) (forth : w.forth = event :: rest) :
      Step n (m.toCallee s i w event rest n)

/-- A run with so many steps, between which any time may pass. -/
inductive Run : Nat → Net → Prop
  | start : Run 0 m.start
  | step {k n n'} (run : Run k n) (step : m.Step n n') : Run (k + 1) n'
  | wait {k n} (run : Run k n) (s : Side) (duration : Nat) : Run k (m.perform s (.wait duration) n)

variable {m} {s u : Side} {n : Net} {op : Operation} {g : Gateway} {t : LinkId} {w v : Wire} {event : LinkEvent}
  {es : List LinkEvent} {cs : List Effect}

theorem foldl_sends (fs : List Frame) (n : Net) :
    (fs.map (Effect.send t)).foldl (m.carry s) n = n.write s t (fs.map Frame.event) := by
  induction fs generalizing n with
  | nil => exact Net.write_nil.symm
  | cons f fs ih =>
    rw [List.map_cons, List.foldl_cons, ih]
    exact Net.write_append

theorem perform_eq (step : (n.gateway s).step op = g) (made : (n.gateway s).world.Makes cs g.world) :
    m.perform s op n = cs.foldl (m.carry s) { n with gateway := Function.update n.gateway s g } := by
  rw [perform, step, made.since]

/-- Calls of a side that come to these events at the other end of a link, and to nothing else but what its router
is given. -/
structure Conveys (m : Meeting) (s : Side) (t : LinkId) (es : List LinkEvent) (cs : List Effect) : Prop where
  carried : ∀ n : Net, cs.foldl (m.carry s) n = n.write s t es
  kept : ∀ e ∈ cs, e.kind ≠ .bounce

theorem sends_conveys (m : Meeting) (s : Side) (t : LinkId) (fs : List Frame) :
    m.Conveys s t (fs.map Frame.event) (fs.map (.send t)) := by
  refine ⟨foldl_sends fs, fun e he => ?_⟩
  obtain ⟨f, _, rfl⟩ := List.mem_map.mp he
  cases f with
  | element e => exact CallKind.ofElement_ne_bounce e
  | header _ | error _ | close => simp [Effect.kind]

theorem routeUp_conveys (m : Meeting) (s : Side) (t : LinkId) (fs : List Frame) (domain : String) :
    m.Conveys s t (fs.map Frame.event) (fs.map (.send t) ++ [.routeUp domain]) := by
  obtain ⟨carried, kept⟩ := m.sends_conveys s t fs
  refine ⟨fun n => ?_, fun e he => ?_⟩
  · rw [List.foldl_append, carried]
    rfl
  · rcases List.mem_append.mp he with he | he
    · exact kept e he
    · simp [List.mem_singleton.mp he, Effect.kind]

theorem deliver_conveys (m : Meeting) (s : Side) (t : LinkId) {e : Xml.Element} (he : Dialback.isVerify e = false) :
    m.Conveys s t [] [.deliver e] :=
  ⟨fun n => by simp [carry, he, Net.write_nil], by simp [Effect.kind]⟩

/-- The gateway is that of a side, its links are unprotected, and no stanza has come back from it. -/
structure Runs (m : Meeting) (s : Side) (g : Gateway) : Prop where
  setup : g.setup = m.setup s
  sources : g.world.sources = (m.world s).sources
  plain : g.world.Plain
  kept : ∀ e ∈ g.world.trace, e.kind ≠ .bounce

theorem Runs.makes {g' : Gateway} (h : m.Runs s g) (setup : g'.setup = g.setup) (made : g.world.Makes cs g'.world)
    (kept : ∀ e ∈ cs, e.kind ≠ .bounce) : m.Runs s g' := by
  refine ⟨setup.trans h.setup, made.sources.trans h.sources, made.plain h.plain, fun e he => ?_⟩
  rw [made.trace] at he
  rcases List.mem_append.mp he with he | he
  · exact h.kept e he
  · exact kept e he

/-- What holds of the two sides and their connections all along. -/
structure Sound (m : Meeting) (n : Net) : Prop where
  runs : ∀ s, m.Runs s (n.gateway s)
  wired : ∀ s, ∀ w ∈ n.wires s, (∃ i, w.caller = (m.world s).sources.linkId i) ∧ ∃ i, w.callee = m.number s.other i
  idle : n.errands .left = []

namespace Sound

theorem start (m : Meeting) : m.Sound m.start := by
  refine ⟨fun s => ⟨rfl, rfl, ⟨(m.plain s).unknown, (m.plain s).links, (m.plain s).upcoming⟩, fun e he => ?_⟩,
    fun s w hw => ?_, rfl⟩
  · cases he
  · cases hw

variable (hn : m.Sound n)
include hn

theorem callee_ne (hw : w ∈ n.wires s) (hv : v ∈ n.wires s.other) : v.callee ≠ w.caller := by
  obtain ⟨⟨i, hi⟩, _⟩ := hn.wired s w hw
  obtain ⟨_, j, hj⟩ := hn.wired s.other v hv
  rw [Side.other_other] at hj
  rw [hi, hj]
  exact m.numbered s j i

theorem put (wires : n.wires s = [w]) (runs : m.Runs u g) (caller : v.caller = w.caller)
    (callee : v.callee = w.callee) : m.Sound (n.put u g s v) := by
  refine ⟨fun x => ?_, fun x y hy => ?_, hn.idle⟩
  · by_cases hx : x = u
    · subst hx
      simpa [Net.put] using runs
    · simpa [Net.put, hx] using hn.runs x
  · by_cases hx : x = s
    · subst hx
      obtain rfl : y = v := by simpa [Net.put] using hy
      rw [caller, callee]
      exact hn.wired x w (by simp [wires])
    · exact hn.wired x y (by simpa [Net.put, hx] using hy)

section Hears

variable (wires : n.wires s = [w]) (rest : List LinkEvent)
include wires

/-- A caller hears something, and writes on the same connection. -/
theorem toCaller (out : (n.gateway s).Outward cs ((n.gateway s).onOutbound w.caller event))
    (conveys : m.Conveys s w.caller es cs) :
    let n' := n.put s ((n.gateway s).onOutbound w.caller event) s { w with back := rest, forth := w.forth ++ es }
    m.toCaller s 0 w event rest n = n' ∧ m.Sound n' := by
  refine ⟨?_, hn.put wires ((hn.runs s).makes out.keeps.setup out.makes conveys.kept) rfl rfl⟩
  rw [Meeting.toCaller, wires, List.set_cons_zero, perform_eq rfl out.makes, conveys.carried,
    Net.write_own (w := { w with back := rest }) (by simp)]
  · simp [Net.put]
    rfl
  · intro x hx
    exact hn.callee_ne (s := s) (w := w) (by simp [wires]) (by simpa using hx)

/-- A callee hears something, and writes on the same connection. -/
theorem toCallee (inw : (n.gateway s.other).Inward cs ((n.gateway s.other).onInbound w.callee event))
    (conveys : m.Conveys s.other w.callee es cs) :
    let n' := n.put s.other ((n.gateway s.other).onInbound w.callee event) s
      { w with forth := rest, back := w.back ++ es }
    m.toCallee s 0 w event rest n = n' ∧ m.Sound n' := by
  refine ⟨?_, hn.put wires ((hn.runs s.other).makes inw.keeps.setup inw.makes conveys.kept) rfl rfl⟩
  rw [Meeting.toCallee, wires, List.set_cons_zero, perform_eq rfl inw.makes, conveys.carried,
    Net.write_peer (w := { w with forth := rest }) (by simp)]
  · simp [Net.put]
    rfl
  · intro x hx
    exact (hn.callee_ne (s := s.other) (v := w) (by simpa using hx) (by simp [wires])).symm

/-- A caller hears something, and writes on the connection that the other side has opened. -/
theorem crosses (peer : n.wires s.other = [v])
    (made : (n.gateway s).world.Makes cs ((n.gateway s).onOutbound w.caller event).world)
    (setup : ((n.gateway s).onOutbound w.caller event).setup = (n.gateway s).setup) (conveys : m.Conveys s v.callee es cs) :
    let n' := (n.put s ((n.gateway s).onOutbound w.caller event) s { w with back := rest }).put s
      ((n.gateway s).onOutbound w.caller event) s.other { v with back := v.back ++ es }
    m.toCaller s 0 w event rest n = n' ∧ m.Sound n' := by
  have runs := (hn.runs s).makes setup made conveys.kept
  have put := hn.put (v := { w with back := rest }) wires runs rfl rfl
  refine ⟨?_, put.put (s := s.other) (w := v) (by simp [Net.put, peer]) runs rfl rfl⟩
  rw [Meeting.toCaller, wires, List.set_cons_zero, perform_eq rfl made, conveys.carried,
    Net.write_peer (w := v) (by simp [peer])]
  · simp [Net.put]
    rfl
  · intro x hx
    obtain rfl : x = { w with back := rest } := by simpa using hx
    exact (hn.callee_ne (s := s) (w := w) (v := v) (by simp [wires]) (by simp [peer])).symm

end Hears

/-- The right side hears something on the connection of the left one, and its router is given a verify request. -/
theorem inquires (wires : n.wires .left = [w]) (rest : List LinkEvent) {e : Xml.Element}
    (he : Dialback.isVerify e = true)
    (inw : (n.gateway .right).Inward [.deliver e] ((n.gateway .right).onInbound w.callee event)) :
    let n' := { n.put .right ((n.gateway .right).onInbound w.callee event) .left { w with forth := rest } with
      errands := Function.update n.errands .right (n.errands .right ++ [e]) }
    m.toCallee .left 0 w event rest n = n' ∧ m.Sound n' := by
  have put := hn.put (v := { w with forth := rest }) wires
    ((hn.runs .right).makes inw.keeps.setup inw.makes (by simp [Effect.kind])) rfl rfl
  refine ⟨?_, put.runs, put.wired, hn.idle⟩
  rw [Meeting.toCallee, wires, List.set_cons_zero, perform_eq rfl inw.makes]
  simp [carry, he, Net.put, Side.other]
  rfl

/-- A side that has not called calls. -/
theorem calls {e : Xml.Element} {address : String} {r : Route} {first : Candidate} {timeout : Nat}
    (none : n.wires s = []) (out : (n.gateway s).Outward
      [.connect ((n.gateway s).world.sources.linkId (n.gateway s).world.opened) r first timeout]
      ((n.gateway s).submit e (some address)).1) :
    let w : Wire :=
      { caller := (n.gateway s).world.sources.linkId (n.gateway s).world.opened, callee := m.number s.other 0 }
    let n' := n.put s ((n.gateway s).submit e (some address)).1 s w
    m.perform s (.submit e (some address)) n = n' ∧ m.Sound n' := by
  intro w n'
  have runs := (hn.runs s).makes out.keeps.setup out.makes (by simp [Effect.kind])
  refine ⟨?_, fun x => ?_, fun x y hy => ?_, hn.idle⟩
  · rw [perform_eq (Gateway.step_submit _ _ _) out.makes]
    simp [carry, none, n', w, Net.put]
  · by_cases hx : x = s
    · subst hx
      simpa [n', Net.put] using runs
    · simpa [n', Net.put, hx] using hn.runs x
  · by_cases hx : x = s
    · subst hx
      obtain rfl : y = w := by simpa [n', Net.put] using hy
      exact ⟨⟨_, by rw [← (hn.runs x).sources]⟩, 0, rfl⟩
    · exact hn.wired x y (by simpa [n', Net.put, hx] using hy)

end Sound

end Meeting

end Interdomain
