import Interdomain.Proofs.Sweeps

/-! The course of a negotiation, from the first address to the last. A turn at an event notes what it finds and may
make the stream ready; it goes back to no address and forgets no failure. Between events a negotiation takes in
what is submitted and returns what has waited too long, and when its link is gone it goes on to its next address.
Every operation is one of these moves. -/
namespace Interdomain

open Protocol (Dialback)

/-- The request state once the stream is ready, with an id or without. -/
def Request.whenReady (q : Request) (hasId : Bool) : Request :=
  match q with
  | .notRequested => .couldRequest
  | .wantRequest => if hasId then .sentRequest else .wantRequest
  | .couldRequest => .couldRequest
  | .sentRequest => .sentRequest

namespace Negotiation

/-- The dialback was refused, SASL failed, or the policy refused the stream. -/
def HasFailed (n : Negotiation) : Prop :=
  n.refused = true ∨ n.stage = .dialbackFailed ∨ n.stage = .saslFailed

/-- The addresses that were tried, in order. -/
def addresses (n : Negotiation) : List Candidate := n.history.map (·.address)

@[simp] theorem addresses_note (n : Negotiation) (text : String) : (n.note text).addresses = n.addresses := by
  unfold addresses note
  rcases List.eq_nil_or_concat n.history with h | ⟨past, last, h⟩ <;> simp [h]

end Negotiation

/-- The turn keeps to the course of the negotiation: it notes at most what happens at the address, its stream is as
ready as it was or has become so, and a failure that it finds ends it. -/
structure Turn.Continues (t : Turn) (n : Negotiation) : Prop where
  addresses : t.negotiation.addresses = n.addresses
  current : t.negotiation.current = n.current
  request : t.negotiation.ready = n.ready ∧ t.negotiation.request = n.request ∨
    t.negotiation.ready = true ∧ t.negotiation.request = n.request.whenReady t.negotiation.streamId.isSome
  sound : t.verdict ≠ .giveUp → ¬ n.HasFailed → ¬ t.negotiation.HasFailed

/-- A turn after the stage or the stream id has changed. -/
theorem Turn.Continues.of_eq {t : Turn} {n m : Negotiation} (h : t.Continues m) (addresses : m.addresses = n.addresses)
    (current : m.current = n.current) (ready : m.ready = n.ready) (request : m.request = n.request)
    (sound : ¬ n.HasFailed → ¬ m.HasFailed) : t.Continues n :=
  ⟨h.addresses.trans addresses, h.current.trans current, ready ▸ request ▸ h.request,
    fun verdict hn => h.sound verdict (sound hn)⟩

namespace Negotiation

variable (n : Negotiation) (setup : Setup) (w : World)

/-- A turn that leaves the stream as ready as it was. -/
theorem continues_of_eq {t : Turn} (addresses : t.negotiation.addresses = n.addresses)
    (current : t.negotiation.current = n.current) (ready : t.negotiation.ready = n.ready)
    (request : t.negotiation.request = n.request)
    (sound : t.verdict ≠ .giveUp → ¬ n.HasFailed → ¬ t.negotiation.HasFailed) : t.Continues n :=
  ⟨addresses, current, .inl ⟨ready, request⟩, sound⟩

/-- At another stage, which is no failure, nothing has failed that had not. -/
theorem not_hasFailed_of_stage {n : Negotiation} {stage : Stage} (h : stage ≠ .dialbackFailed ∧ stage ≠ .saslFailed)
    (hn : ¬ n.HasFailed) : ¬ { n with stage }.HasFailed := by
  simp only [HasFailed, not_or] at hn ⊢
  exact ⟨hn.1, h⟩

/-- A turn that does no more than move the stage on. -/
theorem continues_of_stage {stage : Stage} {w : World} {verdict : Verdict}
    (h : stage ≠ .dialbackFailed ∧ stage ≠ .saslFailed) : (Turn.mk { n with stage } w verdict).Continues n :=
  n.continues_of_eq rfl rfl rfl rfl fun _ => not_hasFailed_of_stage h

theorem continues_self (verdict : Verdict) : (Turn.mk n w verdict).Continues n :=
  n.continues_of_eq rfl rfl rfl rfl fun _ => id

theorem continues_note (text : String) : (Turn.mk (n.note text) w .proceed).Continues n :=
  n.continues_of_eq (n.addresses_note text) rfl rfl rfl fun _ => id

theorem underPolicy_continues (used : Policy.Mechanism) {next : Turn} (h : next.Continues n) :
    (n.underPolicy setup w used next).Continues n := by
  unfold underPolicy
  split
  · exact h
  · exact n.continues_of_eq rfl rfl rfl rfl fun verdict => absurd rfl verdict

theorem becomeReady_continues : (n.becomeReady setup w).Continues n := by
  unfold becomeReady
  cases hr : n.request with
  | wantRequest =>
    cases hs : n.streamId with
    | none => exact ⟨rfl, rfl, .inr ⟨rfl, by simp [sendRequest, Request.whenReady, hr]⟩, fun _ => id⟩
    | some id =>
      refine ⟨rfl, rfl, .inr ⟨rfl, by simp [sendRequest, Request.whenReady, hr]⟩, fun _ hn => ?_⟩
      have sound : ¬ { n with stage := .sentRequest }.HasFailed := not_hasFailed_of_stage (by simp) hn
      exact sound
  | notRequested => exact ⟨rfl, rfl, .inr ⟨rfl, by simp [Request.whenReady, hr]⟩, fun _ => id⟩
  | couldRequest => exact ⟨rfl, rfl, .inr ⟨rfl, by simp [Request.whenReady, hr]⟩, fun _ => id⟩
  | sentRequest => exact ⟨rfl, rfl, .inr ⟨rfl, by simp [Request.whenReady, hr]⟩, fun _ => id⟩

theorem onConnected_continues : (n.onConnected setup w).Continues n := by
  unfold onConnected
  dsimp only
  split
  · exact n.continues_self _ _
  · split
    · exact n.continues_of_stage (by simp)
    · refine n.continues_of_eq (n.addresses_note _) rfl rfl rfl fun _ hn => ?_
      have noted : ¬ (n.note "Connected").HasFailed := hn
      exact not_hasFailed_of_stage (by simp) noted

theorem onAccepted_continues (header : Stream.Header) : (n.onAccepted setup w header).Continues n := by
  unfold onAccepted
  split
  · exact n.underPolicy_continues setup w _ (n.continues_self w _)
  · split
    · exact n.continues_of_stage (by simp)
    · split
      · exact n.continues_of_eq (n.addresses_note _) rfl rfl rfl fun _ => id
      · exact n.underPolicy_continues setup w _ (n.becomeReady_continues setup w)

theorem onHeader_continues (header : Stream.Header) (isOwn : String → Bool) :
    (n.onHeader setup w header isOwn).Continues n := by
  have arrived {t : Turn}
      (h : t.Continues (if n.stage = .saslSucceeded then n else { n with stage := .gotHeader })) : t.Continues n := by
    split at h
    · exact h
    · exact h.of_eq rfl rfl rfl rfl (not_hasFailed_of_stage (by simp))
  unfold onHeader
  dsimp only
  apply arrived
  generalize (if n.stage = .saslSucceeded then n else { n with stage := .gotHeader }) = m
  split
  · exact m.continues_note _ _
  · split
    · exact m.continues_note _ _
    · exact (onAccepted_continues _ setup w header).of_eq rfl rfl rfl rfl fun hn => hn

theorem onFeatures_continues (features : Xml.Element) : (n.onFeatures setup w features).Continues n := by
  unfold onFeatures
  split
  · exact n.continues_self w _
  · dsimp only
    split
    · exact n.continues_of_stage (by simp)
    · split
      · exact n.continues_of_stage (by simp)
      · refine (underPolicy_continues _ setup w _ (becomeReady_continues _ setup w)).of_eq rfl rfl rfl rfl ?_
        exact not_hasFailed_of_stage (by simp)

theorem onTlsProceed_continues : (n.onTlsProceed setup w).Continues n := by
  unfold onTlsProceed
  dsimp only
  split
  · exact n.continues_of_stage (by simp)
  · exact n.continues_note _ _

theorem onResult_continues (e : Xml.Element) : (n.onResult w e).Continues n := by
  unfold onResult
  split
  · exact n.continues_note _ _
  · split
    · exact n.continues_note _ _
    · split
      · exact n.continues_of_stage (by simp)
      · exact n.continues_of_eq (addresses_note _ _) rfl rfl rfl fun verdict => absurd rfl verdict

theorem onElement_continues (e : Xml.Element) : (n.onElement setup w e).Continues n := by
  unfold onElement
  repeat' split
  · exact n.onFeatures_continues setup w e
  · exact n.continues_note _ _
  · exact n.onTlsProceed_continues setup w
  · exact n.continues_note _ _
  · exact n.continues_of_stage (by simp)
  · exact n.continues_of_eq (addresses_note _ _) rfl rfl rfl fun verdict => absurd rfl verdict
  · exact n.onResult_continues w e
  · exact n.continues_self w _
  · exact n.continues_self _ _

end Negotiation

/-- A negotiation that goes on after its turn. -/
theorem Turn.of_rest {t : Turn} {k : Negotiation} (h : t.rest = some k) :
    t.verdict ≠ .giveUp ∧ t.negotiation = k := by
  unfold rest at h
  split at h <;> simp_all

theorem Gateway.turnOn_continues {g : Gateway} {n : Negotiation} {event : LinkEvent} {turn : Turn}
    (h : g.turnOn n event = some turn) : turn.Continues n := by
  cases event with
  | connected =>
    cases h
    exact n.onConnected_continues g.setup g.world
  | header header =>
    cases h
    exact n.onHeader_continues g.setup g.world header _
  | element e =>
    cases h
    exact n.onElement_continues g.setup g.world e
  | closed error => cases h

/-- The link that a call opens for the route, and the address it is opened to. -/
def Effect.opensFor? (r : Route) : Effect → Option (LinkId × Candidate)
  | .connect t x address _ => if x = r then some (t, address) else none
  | _ => none

/-- The links that are opened for the route, each with its address, in order. -/
def openedFor (r : Route) (es : List Effect) : List (LinkId × Candidate) := es.filterMap (Effect.opensFor? r)

theorem openedFor_of_grows {P : CallKind → Prop} {u v : World} (h : World.Grows P u v) (hp : ¬ P .connect)
    (r : Route) : openedFor r (v.since u) = [] := by
  refine List.filterMap_eq_nil_iff.mpr fun e he => ?_
  have kind := h.since.2 e he
  cases e with
  | connect t x address timeout => exact absurd kind hp
  | _ => rfl

namespace Negotiation

/-- The negotiation of a route that has just begun with the first of its addresses, and with what is submitted. -/
inductive Starts (g : Gateway) (r : Route) (first : Candidate) (rest : List Candidate) : Negotiation → Prop
  | stanza (e : Xml.Element) : Starts g r first rest
      ((fresh r .wantRequest first rest (g.world.sources.linkId g.world.opened) g.now).enqueue e g.now)
  | verify (v : Xml.Element) : Starts g r first rest
      { fresh r .notRequested first rest (g.world.sources.linkId g.world.opened) g.now with verifies := [v] }

/-- A stanza or a verify request joins the negotiation. -/
inductive Takes (g : Gateway) (n : Negotiation) : Negotiation → Prop
  | stanza (e : Xml.Element) : Takes g n ((n.want g.setup g.world).1.enqueue e g.now)
  | verify (v : Xml.Element) : Takes g n (n.addVerify g.world v).1

theorem now_want (n : Negotiation) (setup : Setup) (w : World) : (n.want setup w).2.now = w.now := by
  unfold want sendRequest
  repeat' split
  all_goals rfl

/-- What is noted when the link is gone. -/
def noted (n : Negotiation) (error : Option String) : Negotiation :=
  match error with
  | some text => n.note text
  | none => n

/-- The negotiation on the link to its next address. -/
def atNext (n : Negotiation) (next : Candidate) (rest : List Candidate) (link : LinkId) (now : Nat) : Negotiation :=
  { n with
    remaining := rest
    link
    stage := .connecting
    request := requestAfresh n.request
    current := next
    started := now
    ready := false
    streamId := none
    version := 0
    history := n.history ++ [⟨next, ""⟩] }

end Negotiation

namespace Gateway

/-- The negotiation of a route is replaced, and no other changes. -/
def Replaces (g g' : Gateway) (r : Route) (o : Option Negotiation) : Prop :=
  ∀ x, g'.negotiations.get? x = if x = r then o else g.negotiations.get? x

/-- No link is opened. -/
def OpensNone (g g' : Gateway) : Prop := ∀ r, openedFor r (g'.world.since g.world) = []

/-- One link is opened, for the route and to the current address of its negotiation. -/
def OpensOne (g g' : Gateway) (r : Route) (k : Negotiation) : Prop :=
  ∀ x, openedFor x (g'.world.since g.world) = if x = r then [(k.link, k.current)] else []

/-- What a submission does to the negotiations. -/
inductive Submits (g : Gateway) (resolved : Option String) (g' : Gateway) : Prop
  | still (negotiations : g'.negotiations = g.negotiations) (attempts : g'.attempts = g.attempts)
      (opens : OpensNone g g')
  | takes {r n k} (found : g.negotiations.get? r = some n) (takes : n.Takes g k) (replaces : Replaces g g' r (some k))
      (attempts : g'.attempts = g.attempts) (opens : OpensNone g g')
  | starts {r first rest k} (free : g.negotiations.get? r = none) (list : g.candidates r resolved = first :: rest)
      (starts : k.Starts g r first rest) (replaces : Replaces g g' r (some k))
      (attempts : g'.attempts = g.attempts.insert k.link r) (opens : OpensOne g g' r k)

variable {g g' : Gateway} {r : Route} {n k : Negotiation}

theorem opensNone_of_grows {P : CallKind → Prop} (h : World.Grows P g.world g'.world) (hp : ¬ P .connect) :
    OpensNone g g' := openedFor_of_grows h hp

theorem OpensNone.refl (g : Gateway) : OpensNone g g :=
  opensNone_of_grows (P := CallKind.IsPlain) (.refl _) (by simp [CallKind.IsPlain])

/-- A step that leaves the negotiations alone. -/
theorem Submits.unmoved {resolved : Option String} {P : CallKind → Prop}
    (tables : g'.negotiations = g.negotiations ∧ g'.attempts = g.attempts) (grows : World.Grows P g.world g'.world)
    (hp : ¬ P .connect) : g.Submits resolved g' := .still tables.1 tables.2 (opensNone_of_grows grows hp)

/-- A negotiation that has been put into the table, and what is held with it. -/
theorem hold_replaces (set : Replaces g g' n.route (some n)) (e : Xml.Element) :
    Replaces g (g'.hold n e).1 n.route
      (some (if Dialback.isVerify e then (n.addVerify g'.world e).1 else n.enqueue e g'.now)) := by
  intro x
  unfold hold
  split
  · have route : (n.addVerify g'.world e).1.route = n.route := by
      unfold Negotiation.addVerify
      split <;> rfl
    simp only [setNegotiation, Table.get?_insert, route, set x]
    split <;> rfl
  · simp only [setNegotiation, Table.get?_insert, set x]
    by_cases hx : x = n.route <;> simp [hx, Negotiation.enqueue]

theorem hold_attempts (g : Gateway) (n : Negotiation) (e : Xml.Element) : (g.hold n e).1.attempts = g.attempts := by
  unfold hold
  split <;> rfl

theorem setNegotiation_replaces (g : Gateway) (n : Negotiation) (w : World) :
    Replaces g (g.setNegotiation n w) n.route (some n) := fun x => g.negotiations.get?_insert n.route x n

theorem putNegotiation_replaces (g : Gateway) (n : Negotiation) (w : World) :
    Replaces g (g.putNegotiation n w) n.route (some n) := fun x => g.negotiations.get?_insert n.route x n

theorem hold_opensNone {w : World} (set : World.Grows (· ≠ .connect) g.world w) (n : Negotiation) (e : Xml.Element)
    (hw : g'.world = w) : OpensNone g (g'.hold n e).1 := by
  have held := (g'.hold_grows n e).mono (Q := (· ≠ .connect)) (by rintro k rfl; simp)
  rw [hw] at held
  exact opensNone_of_grows (set.trans held) (by simp)

/-- A negotiation opens its link, and nothing after that opens another. -/
theorem opensOne_of_grows {w : World} {address : Candidate} {timeout : Nat} {P : CallKind → Prop}
    (opened : w = (g.world.connect r address timeout).1) (link : k.link = (g.world.connect r address timeout).2)
    (current : k.current = address) (h : World.Grows P w g'.world) (hp : ¬ P .connect) : OpensOne g g' r k := by
  intro x
  have calls : g'.world.since g.world = .connect k.link r k.current timeout :: g'.world.since w := by
    obtain ⟨es, trace, _⟩ := h.calls
    simp [World.since, trace, opened, link, current, World.connect, World.emit]
  rw [calls, openedFor, List.filterMap_cons]
  have rest : (g'.world.since w).filterMap (Effect.opensFor? x) = [] := openedFor_of_grows h hp x
  rw [rest, Effect.opensFor?]
  by_cases hx : x = r
  · simp [hx]
  · simp [hx, Ne.symm hx]

/-- A negotiation that has just opened its link holds what was submitted. -/
theorem hold_starts {first : Candidate} {rest : List Candidate} {resolved : Option String}
    (free : g.negotiations.get? r = none) (list : g.candidates r resolved = first :: rest) (e : Xml.Element)
    {w : World} (started : Negotiation.start? g.setup r
      (if Dialback.isVerify e then .notRequested else .wantRequest) g.world (first :: rest) = some (n, w)) :
    g.Submits resolved ((g.putNegotiation n w).hold n e).1 := by
  have made : n = .fresh r (if Dialback.isVerify e then .notRequested else .wantRequest) first rest
        (g.world.sources.linkId g.world.opened) g.now ∧
      w = (g.world.connect r first g.setup.settings.connectTimeout).1 := by
    cases started
    exact ⟨rfl, rfl⟩
  obtain ⟨begun, opened⟩ := made
  have route : n.route = r := by rw [begun]; rfl
  have link : n.link = g.world.sources.linkId g.world.opened := by rw [begun]; rfl
  have current : n.current = first := by rw [begun]; rfl
  have now : (g.putNegotiation n w).now = g.now := by rw [opened]; rfl
  have held := hold_replaces (g.putNegotiation_replaces n w) e
  have grows := hold_grows (g.putNegotiation n w) n e
  have plain : ¬ CallKind.IsPlain .connect := by simp [CallKind.IsPlain]
  rw [route, now] at held
  cases hv : Dialback.isVerify e with
  | true =>
    rw [hv, if_pos rfl] at held begun
    have starts : (n.addVerify (g.putNegotiation n w).world e).1.Starts g r first rest := by
      rw [begun]
      exact .verify e
    have verifies : (n.addVerify (g.putNegotiation n w).world e).1 = { n with verifies := [e] } := by
      rw [begun]
      rfl
    refine .starts free list starts held ?_ ?_
    · rw [hold_attempts, verifies]
      simp [putNegotiation, route]
    · rw [verifies]
      exact opensOne_of_grows opened link current grows plain
  | false =>
    rw [hv, if_neg (by simp)] at held begun
    have starts : (n.enqueue e g.now).Starts g r first rest := by
      rw [begun]
      exact .stanza e
    refine .starts free list starts held ?_ (opensOne_of_grows opened link current grows plain)
    rw [hold_attempts]
    simp [putNegotiation, route, Negotiation.enqueue]

theorem submitOn_submits (ho : g.Orderly) (r : Route) (e : Xml.Element) (resolved : Option String) :
    g.Submits resolved (g.submitOn r e resolved).1 := by
  unfold submitOn
  dsimp only
  cases hc : g.routes.get? r with
  | some carrier =>
    exact .unmoved (P := (· ≠ .connect)) ⟨rfl, rfl⟩
      (World.grows_sendElement _ carrier.link (CallKind.ofElement_ne_connect e)) (by simp)
  | none =>
    dsimp only
    cases hn : g.negotiations.get? r with
    | some n =>
      have route : n.route = r := ho.route r n hn
      dsimp only
      cases hv : Dialback.isVerify e with
      | true =>
        have held := hold_replaces (g.setNegotiation_replaces n g.world) e
        rw [hv, if_pos rfl, route] at held
        exact .takes hn (.verify e) held (hold_attempts _ _ _) (hold_opensNone (.refl _) n e rfl)
      | false =>
        have serves := n.want_serves g.setup g.world
        have held := hold_replaces (g.setNegotiation_replaces (n.want g.setup g.world).1 (n.want g.setup g.world).2) e
        have now : (g.setNegotiation (n.want g.setup g.world).1 (n.want g.setup g.world).2).now = g.now :=
          n.now_want g.setup g.world
        rw [hv, if_neg (by simp), serves.route, route, now] at held
        exact .takes hn (.stanza e) held (hold_attempts _ _ _)
          (hold_opensNone (serves.grows.mono (by rintro k (rfl | rfl) <;> simp)) _ e rfl)
    | none =>
      dsimp only
      cases hl : g.candidates r resolved with
      | nil =>
        simp only [Negotiation.start?, undeliverable]
        split
        · have fades := g.failVerify_fades e
          have keeps := g.failVerify_keepsOutbound e
          exact .unmoved ⟨keeps.negotiations, keeps.attempts⟩ fades.grows (by simp [CallKind.IsPlain])
        · exact .unmoved ⟨rfl, rfl⟩ (g.bounce_fades _ _).grows (by simp [CallKind.IsReturn])
      | cons first rest => exact hold_starts hn hl e rfl

theorem submit_submits (ho : g.Orderly) (e : Xml.Element) (resolved : Option String) :
    g.Submits resolved (g.submit e resolved).1 := by
  unfold submit
  split
  · exact submitOn_submits ho _ e resolved
  · split
    · exact .still rfl rfl (.refl g)
    · exact .unmoved ⟨rfl, rfl⟩ (g.bounce_fades _ _).grows (by simp [CallKind.IsReturn])

theorem dropRoute_tables (g : Gateway) (r : Route) (t : LinkId) :
    (g.dropRoute r t).negotiations = g.negotiations ∧ (g.dropRoute r t).attempts = g.attempts :=
  ⟨setRoutes_negotiations _ _, setRoutes_attempts _ _⟩

theorem onRoute_tables (g : Gateway) (r : Route) (t : LinkId) (event : LinkEvent) :
    (g.onRoute r t event).negotiations = g.negotiations ∧ (g.onRoute r t event).attempts = g.attempts := by
  unfold onRoute
  split
  · exact ⟨rfl, rfl⟩
  · exact ⟨rfl, rfl⟩
  · exact g.dropRoute_tables r t
  · split
    · have keeps := onVerify_keepsOutbound { g with routes := g.routes.modify r (·.carry g.now) } t
      exact ⟨(keeps _).negotiations, (keeps _).attempts⟩
    · split
      · exact dropRoute_tables (g.act (·.close t)) r t
      · exact dropRoute_tables (g.act (·.fail t _)) r t

theorem releaseRoute_tables (g : Gateway) (r : Route) :
    (g.releaseRoute r).1.negotiations = g.negotiations ∧ (g.releaseRoute r).1.attempts = g.attempts := by
  unfold releaseRoute
  split
  · exact ⟨rfl, rfl⟩
  · exact ⟨setRoutes_negotiations _ _, setRoutes_attempts _ _⟩

end Gateway

/-- The addresses that the resolver has found for what is submitted. -/
def Operation.resolved? : Operation → Option String
  | .submit _ resolved => resolved
  | _ => none

/-- The gateway when the link of a negotiation is gone. -/
def Gateway.unlink (g : Gateway) (n : Negotiation) (error : Option String) : Gateway :=
  { g.setNegotiation (n.noted error) g.world with attempts := g.attempts.erase n.link }

/-- What becomes of a negotiation whose link is gone: it goes on to its next address, if something waits on it and
the policy has not refused it; or else it is given up. -/
inductive Gateway.Passes (g : Gateway) (n : Negotiation) (error : Option String) (g' : Gateway) : Prop
  | advances {next rest k} (remaining : n.remaining = next :: rest) (waits : n.isIdle = false)
      (accepted : n.refused = false)
      (atNext : k = (n.noted error).atNext next rest (g.world.sources.linkId g.world.opened) g.now)
      (replaces : Replaces g g' n.route (some k))
      (attempts : g'.attempts = (g.attempts.erase n.link).insert k.link n.route) (opens : OpensOne g g' n.route k)
  | retires (stops : n.canRetry = false) (next : g' = (g.unlink n error).retire n.route true)

/-- What an operation does to the negotiations. -/
inductive Moment.Moves (m : Moment) : Prop
  | submits (untried : ∀ t event, m.operation = .outbound t event → m.gateway.attempts.get? t = none)
      (next : m.gateway.Submits m.operation.resolved? m.next)
  | swept {ahead} (operation : m.operation = .sweep ahead) (next : m.next = m.gateway.swept (m.gateway.now + ahead))
      (opens : m.gateway.OpensNone m.next)
  | forgotten {t event r} (operation : m.operation = .outbound t event) (attempt : m.gateway.attempts.get? t = some r)
      (free : m.gateway.negotiations.get? r = none)
      (next : m.next = { m.gateway with attempts := m.gateway.attempts.erase t })
  | turned {t event r n turn} (operation : m.operation = .outbound t event)
      (attempt : m.gateway.attempts.get? t = some r) (found : m.gateway.negotiations.get? r = some n)
      (turns : m.gateway.turnOn n event = some turn) (next : m.next = m.gateway.follow turn)
      (serves : turn.Serves n m.gateway.world)
  | closed {t error r n} (operation : m.operation = .outbound t (.closed error))
      (attempt : m.gateway.attempts.get? t = some r) (found : m.gateway.negotiations.get? r = some n)
      (passes : m.gateway.Passes n error m.next)

namespace Negotiation

variable (n : Negotiation) (error : Option String)

@[simp] theorem route_noted : (n.noted error).route = n.route := by cases error <;> rfl

@[simp] theorem queue_noted : (n.noted error).queue = n.queue := by cases error <;> rfl

@[simp] theorem verifies_noted : (n.noted error).verifies = n.verifies := by cases error <;> rfl

@[simp] theorem request_noted : (n.noted error).request = n.request := by cases error <;> rfl

@[simp] theorem remaining_noted : (n.noted error).remaining = n.remaining := by cases error <;> rfl

@[simp] theorem refused_noted : (n.noted error).refused = n.refused := by cases error <;> rfl

@[simp] theorem addresses_noted : (n.noted error).addresses = n.addresses := by
  cases error with
  | none => rfl
  | some text => exact n.addresses_note text

@[simp] theorem route_atNext (next : Candidate) (rest : List Candidate) (link : LinkId) (now : Nat) :
    (n.atNext next rest link now).route = n.route := rfl

theorem advance?_eq {next : Candidate} {rest : List Candidate} (setup : Setup) (w : World)
    (h : n.remaining = next :: rest) : n.advance? setup w =
      some (n.atNext next rest (w.sources.linkId w.opened) w.now,
        (w.connect n.route next setup.settings.connectTimeout).1) := by
  rw [advance?, h]
  rfl

theorem canRetry_noted : (n.noted error).canRetry = n.canRetry := by cases error <;> rfl

end Negotiation

namespace Gateway

variable {g : Gateway}

theorem onAttemptClosed_passes (g : Gateway) (n : Negotiation) (error : Option String) :
    g.Passes n error (g.onAttemptClosed n error) := by
  have closed : g.onAttemptClosed n error = (g.unlink n error).advance (n.noted error) := by cases error <;> rfl
  rw [closed, Gateway.advance, n.canRetry_noted error]
  split
  · rename_i retry
    obtain ⟨⟨accepted, left⟩, waits⟩ : (n.refused = false ∧ n.remaining ≠ []) ∧ n.isIdle = false := by
      simpa [Negotiation.canRetry] using retry
    obtain ⟨next, rest, remaining⟩ := List.exists_cons_of_ne_nil left
    rw [Negotiation.advance?_eq _ _ _ ((n.remaining_noted error).trans remaining)]
    refine .advances remaining waits accepted rfl (fun x => ?_) ?_ ?_
    · simp only [putNegotiation, unlink, setNegotiation, Negotiation.route_atNext, Negotiation.route_noted,
        Table.get?_insert]
      split <;> rfl
    · simp only [putNegotiation, unlink, Negotiation.route_atNext, Negotiation.route_noted]
      rfl
    · have opened : (g.world.connect (n.noted error).route next g.setup.settings.connectTimeout).1 =
          (g.world.connect n.route next g.setup.settings.connectTimeout).1 := by rw [n.route_noted error]
      exact opensOne_of_grows opened rfl rfl (World.Grows.refl (P := CallKind.IsPlain) _)
        (by simp [CallKind.IsPlain])
  · rename_i stops
    rw [n.route_noted error]
    exact .retires (Bool.eq_false_iff.mpr stops) rfl

theorem onOutbound_moves (ho : g.Orderly) (t : LinkId) (event : LinkEvent) :
    (⟨g, .outbound t event⟩ : Moment).Moves := by
  have next : (⟨g, .outbound t event⟩ : Moment).next = g.onOutbound t event := rfl
  unfold onOutbound at next
  cases ha : g.attempts.get? t with
  | none =>
    rw [ha] at next
    dsimp only at next
    have untried : ∀ u happens, Operation.outbound t event = .outbound u happens → g.attempts.get? u = none := by
      rintro u happens heq
      cases heq
      exact ha
    cases hc : g.carried.get? t with
    | none =>
      rw [hc] at next
      exact .submits untried (next ▸ .still rfl rfl (.refl g))
    | some r =>
      rw [hc] at next
      have tables := g.onRoute_tables r t event
      exact .submits untried (next ▸ .unmoved tables (g.onRoute_dwindles r t event).grows
        (by simp [CallKind.IsClosing]))
  | some r =>
    rw [ha] at next
    dsimp only at next
    cases hn : g.negotiations.get? r with
    | none =>
      rw [hn] at next
      exact .forgotten rfl ha hn next
    | some n =>
      rw [hn] at next
      have turned {turn : Turn} (turns : g.turnOn n event = some turn) (next : g.onOutbound t event = g.follow turn) :
          (⟨g, .outbound t event⟩ : Moment).Moves :=
        .turned rfl ha hn turns next (turnOn_serves (ho.verifies r n hn) turns)
      cases event with
      | closed error => exact .closed rfl ha hn (next ▸ g.onAttemptClosed_passes n error)
      | connected => exact turned rfl next
      | header header => exact turned rfl next
      | element e => exact turned rfl next

theorem Submits.of_openClaim (claim : Claim) {g' : Gateway} {resolved : Option String}
    (h : (g.openClaim claim).Submits resolved g') : g.Submits resolved g' := by
  cases h with
  | still negotiations attempts opens => exact .still negotiations attempts opens
  | takes found takes replaces attempts opens =>
    refine .takes found ?_ replaces attempts opens
    cases takes with
    | stanza e => exact .stanza e
    | verify v => exact .verify v
  | starts free list starts replaces attempts opens =>
    refine .starts free list ?_ replaces attempts opens
    cases starts with
    | stanza e => exact .stanza e
    | verify v => exact .verify v

theorem onInbound_submits (ho : g.Orderly) (t : LinkId) (event : LinkEvent) :
    g.Submits none (g.onInbound t event) := by
  rcases (g.onInbound_step t event).answers with ⟨keeps, grows⟩ | ⟨e, claim, key, _, _, heq⟩
  · exact .unmoved ⟨keeps.negotiations, keeps.attempts⟩ grows (by simp [CallKind.IsAnswer, CallKind.IsVerdict])
  · rw [heq]
    refine Submits.of_openClaim claim ?_
    unfold dispatchVerify
    split
    · exact submit_submits (g := g.openClaim claim) ⟨ho.route, ho.verifies⟩ _ none
    · exact .unmoved ⟨rfl, rfl⟩ (World.grows_emit (P := (· ≠ .connect)) _ (by simp [Effect.kind])
        (by simp [Effect.kind])) (by simp)

theorem step_moves (ho : g.Orderly) (op : Operation) : (⟨g, op⟩ : Moment).Moves := by
  cases op with
  | submit e resolved =>
    have submits := submit_submits ho e resolved
    rw [← step_submit] at submits
    exact .submits (by simp) submits
  | inbound t event => exact .submits (by simp) (onInbound_submits ho t event)
  | outbound t event => exact onOutbound_moves ho t event
  | sweep ahead =>
    have next : (⟨g, .sweep ahead⟩ : Moment).next = g.swept (g.now + ahead) := by
      rw [Moment.next, step_sweep, sweepAt_eq ho]
    have dwindles := sweepAt_dwindles ho (g.now + ahead)
    rw [sweepAt_eq ho] at dwindles
    exact .swept rfl next (next ▸ opensNone_of_grows dwindles.grows (by simp [CallKind.IsClosing]))
  | releaseRoute r =>
    have next : (⟨g, .releaseRoute r⟩ : Moment).next = (g.releaseRoute r).1 := g.step_releaseRoute r
    exact .submits (by simp) (next ▸ .unmoved (g.releaseRoute_tables r) (g.releaseRoute_dwindles r).grows
      (by simp [CallKind.IsClosing]))
  | releaseClaim k =>
    have next : (⟨g, .releaseClaim k⟩ : Moment).next = (g.releaseClaim k).1 := g.step_releaseClaim k
    have keeps := g.releaseClaim_keepsOutbound k
    exact .submits (by simp) (next ▸ .unmoved ⟨keeps.negotiations, keeps.attempts⟩ (g.releaseClaim_fades k).grows
      (by simp [CallKind.IsPlain]))
  | wait duration =>
    have grows : World.Grows CallKind.IsPlain g.world (g.step (.wait duration)).world := (g.wait_fades duration).grows
    exact .submits (by simp) (.unmoved ⟨rfl, rfl⟩ grows (by simp [CallKind.IsPlain]))
  | learn link facts =>
    have grows : World.Grows CallKind.IsPlain g.world (g.step (.learn link facts)).world :=
      (g.learn_fades link facts).grows
    exact .submits (by simp) (.unmoved ⟨rfl, rfl⟩ grows (by simp [CallKind.IsPlain]))

end Gateway

namespace Moment

/-- The links that the operation opens for the route, each with its address. -/
def opened (m : Moment) (r : Route) : List (LinkId × Candidate) := openedFor r m.calls

/-- The operation reports that the link on which the route is negotiated is gone. -/
def losesLink (m : Moment) (r : Route) : Bool :=
  match m.operation with
  | .outbound t (.closed _) => m.gateway.attempts.get? t = some r
  | _ => false

/-- How the negotiation of a route goes on. -/
inductive Course (m : Moment) (r : Route) : Option Negotiation → Option Negotiation → Prop
  | rests (o) (opens : m.opened r = []) (holds : o ≠ none → m.losesLink r = false) : m.Course r o o
  | starts {first rest k} (list : m.gateway.candidates r m.operation.resolved? = first :: rest)
      (starts : k.Starts m.gateway r first rest) (opens : m.opened r = [(k.link, k.current)])
      (holds : m.losesLink r = false) : m.Course r none (some k)
  | takes {n k} (takes : n.Takes m.gateway k) (opens : m.opened r = []) (holds : m.losesLink r = false) :
      m.Course r (some n) (some k)
  | swept {n now} (next : m.next = m.gateway.swept now) (opens : m.opened r = []) (holds : m.losesLink r = false) :
      m.Course r (some n) (if m.gateway.setup.settings.abandoned now n then none
        else some (m.gateway.setup.settings.pruned now n))
  | turned {t event n turn} (operation : m.operation = .outbound t event)
      (attempt : m.gateway.attempts.get? t = some r) (turns : m.gateway.turnOn n event = some turn)
      (serves : turn.Serves n m.gateway.world) (next : m.next = m.gateway.follow turn) (opens : m.opened r = [])
      (holds : m.losesLink r = false) : m.Course r (some n) turn.rest
  | advances {t error n k next rest} (operation : m.operation = .outbound t (.closed error))
      (attempt : m.gateway.attempts.get? t = some r) (remaining : n.remaining = next :: rest)
      (waits : n.isIdle = false) (accepted : n.refused = false)
      (atNext : k = (n.noted error).atNext next rest (m.gateway.world.sources.linkId m.gateway.world.opened)
        m.gateway.now)
      (opens : m.opened r = [(k.link, k.current)]) : m.Course r (some n) (some k)
  | retires {t error n} (operation : m.operation = .outbound t (.closed error))
      (attempt : m.gateway.attempts.get? t = some r) (stops : n.canRetry = false)
      (next : m.next = (m.gateway.unlink n error).retire r true) (opens : m.opened r = []) : m.Course r (some n) none

end Moment

namespace Gateway

theorem get?_swept (g : Gateway) (now : Nat) (r : Route) : (g.swept now).negotiations.get? r =
    (g.negotiations.get? r).bind fun n =>
      if g.setup.settings.abandoned now n then none else some (g.setup.settings.pruned now n) := by
  rw [swept, Table.get?_map, Table.get?_filter]
  cases g.negotiations.get? r with
  | none => rfl
  | some n => cases h : g.setup.settings.abandoned now n <;> simp [h]

variable {g : Gateway} {r : Route} {n : Negotiation}

theorem get?_retire (hn : g.negotiations.get? r = some n) (linkGone : Bool) (x : Route) :
    (g.retire r linkGone).negotiations.get? x = if x = r then none else g.negotiations.get? x := by
  rw [retire_eq hn, (return_keepsOutbound _ _ _ _).negotiations, discard_negotiations, Table.get?_erase]

theorem get?_unlink (g : Gateway) (n : Negotiation) (error : Option String) :
    (g.unlink n error).negotiations.get? n.route = some (n.noted error) := by
  simp [unlink, setNegotiation, Table.get?_insert]

theorem unlink_retire_replaces (g : Gateway) (n : Negotiation) (error : Option String) :
    Replaces g ((g.unlink n error).retire n.route true) n.route none := by
  intro x
  rw [get?_retire (g.get?_unlink n error)]
  split
  · rfl
  · rename_i other
    simp [unlink, setNegotiation, Table.get?_insert, other]

theorem unlink_retire_opensNone (g : Gateway) (n : Negotiation) (error : Option String) :
    OpensNone g ((g.unlink n error).retire n.route true) :=
  opensNone_of_grows (P := CallKind.IsReturn) (retire_fades (g.unlink n error) n.route true).grows
    (by simp [CallKind.IsReturn])

theorem follow_opensNone {turn : Turn} (serves : turn.Serves n g.world) : OpensNone g (g.follow turn) :=
  opensNone_of_grows (follow_grows serves) (by simp)

/-- Another negotiation has changed, so that this one rests. -/
theorem Replaces.rests {g' : Gateway} {x : Route} {o : Option Negotiation} {m : Moment} (h : Replaces g g' x o)
    (hr : r ≠ x) (opens : m.opened r = []) (holds : m.losesLink r = false) :
    m.Course r (g.negotiations.get? r) (g'.negotiations.get? r) := by
  rw [h r, if_neg hr]
  exact .rests _ opens fun _ => holds

theorem Submits.course {m : Moment} (h : m.gateway.Submits m.operation.resolved? m.next)
    (untried : ∀ t event, m.operation = .outbound t event → m.gateway.attempts.get? t = none) (r : Route) :
    m.Course r (m.gateway.negotiations.get? r) (m.next.negotiations.get? r) := by
  have holds : m.losesLink r = false := by
    unfold Moment.losesLink
    split
    · rename_i t error operation
      simp [untried t _ operation]
    · rfl
  cases h with
  | still negotiations attempts opens =>
    rw [negotiations]
    exact .rests _ (opens r) fun _ => holds
  | @takes x n k found takes replaces attempts opens =>
    by_cases hr : r = x
    · subst hr
      rw [replaces r, if_pos rfl, found]
      exact .takes takes (opens r) holds
    · exact replaces.rests hr (opens r) holds
  | @starts x first rest k free list starts replaces attempts opens =>
    have opened := opens r
    by_cases hr : r = x
    · subst hr
      rw [if_pos rfl] at opened
      rw [replaces r, if_pos rfl, free]
      exact .starts list starts opened holds
    · rw [if_neg hr] at opened
      exact replaces.rests hr opened holds

theorem step_course (ho : g.Orderly) (op : Operation) (r : Route) :
    (⟨g, op⟩ : Moment).Course r (g.negotiations.get? r) ((g.step op).negotiations.get? r) := by
  have next : g.step op = (⟨g, op⟩ : Moment).next := rfl
  have holds {t : LinkId} {event : LinkEvent} {x : Route} (operation : op = .outbound t event)
      (attempt : g.attempts.get? t = some x) (hr : r ≠ x) : (⟨g, op⟩ : Moment).losesLink r = false := by
    subst operation
    unfold Moment.losesLink
    split
    · rename_i heq
      cases heq
      simpa [attempt] using Ne.symm hr
    · rfl
  rw [next]
  cases step_moves ho op with
  | submits untried submits => exact submits.course untried r
  | @swept ahead operation swept opens =>
    have unlost : (⟨g, op⟩ : Moment).losesLink r = false := by
      rw [Moment.losesLink, operation]
    have found := get?_swept g (g.now + ahead) r
    rw [swept, found]
    cases hn : g.negotiations.get? r with
    | none => exact .rests none (opens r) fun h => absurd rfl h
    | some n => exact .swept swept (opens r) unlost
  | @forgotten t event x operation attempt free forgotten =>
    have opens : OpensNone g (⟨g, op⟩ : Moment).next := by
      rw [forgotten]
      exact .refl g
    have same : (⟨g, op⟩ : Moment).next.negotiations = g.negotiations := by
      rw [forgotten]
    rw [same]
    refine .rests _ (opens r) fun there => holds operation attempt ?_
    rintro rfl
    exact there free
  | @turned t event x n turn operation attempt found turns follows serves =>
    have route : turn.negotiation.route = x := serves.route.trans (ho.route x n found)
    have opens : (⟨g, op⟩ : Moment).opened r = [] := by
      rw [Moment.opened, Moment.calls, follows]
      exact follow_opensNone serves r
    rw [follows, get?_follow, route]
    by_cases hr : r = x
    · subst hr
      rw [if_pos rfl, found]
      have unlost : (⟨g, op⟩ : Moment).losesLink r = false := by
        subst operation
        cases event with
        | closed error => cases turns
        | _ => rfl
      exact .turned operation attempt turns serves follows opens unlost
    · rw [if_neg hr]
      exact .rests _ opens fun _ => holds operation attempt hr
  | @closed t error x n operation attempt found passes =>
    have route : n.route = x := ho.route x n found
    subst route
    cases passes with
    | advances remaining waits accepted atNext replaces attempts opens =>
      have opened := opens r
      by_cases hr : r = n.route
      · subst hr
        rw [if_pos rfl] at opened
        rw [replaces n.route, if_pos rfl, found]
        exact .advances operation attempt remaining waits accepted atNext opened
      · rw [if_neg hr] at opened
        exact replaces.rests hr opened (holds operation attempt hr)
    | retires stops retires =>
      have opens : (⟨g, op⟩ : Moment).opened r = [] := by
        rw [Moment.opened, Moment.calls, retires]
        exact g.unlink_retire_opensNone n error r
      have replaces := g.unlink_retire_replaces n error
      rw [← retires] at replaces
      by_cases hr : r = n.route
      · subst hr
        rw [replaces n.route, if_pos rfl, found]
        exact .retires operation attempt stops retires opens
      · exact replaces.rests hr opens (holds operation attempt hr)

end Gateway

end Interdomain
