import Interdomain.Proofs.Settlement
import Interdomain.Proofs.Turns

/-! What grants nothing to streams of peers: stanzas and verify requests on their way out, negotiations that
end, timeouts, and the end of a stream. -/
namespace Interdomain

open Protocol (Dialback)

namespace Negotiation

variable {setup : Setup} {n m : Negotiation} {w w' : World}

/-- The negotiation has just opened a link for its route, and nothing has happened there. -/
structure Begins (n : Negotiation) (w w' : World) : Prop where
  opens : ∃ address timeout, w' = (w.connect n.route address timeout).1 ∧
    n.link = (w.connect n.route address timeout).2
  stage : n.stage = .connecting
  ready : n.ready = false
  streamId : n.streamId = none
  request : n.request ≠ .sentRequest
  version : n.version = 0

theorem Begins.grows (h : n.Begins w w') : World.Grows CallKind.IsInquiry w w' := by
  obtain ⟨address, timeout, rfl, _⟩ := h.opens
  exact World.grows_connect _ _ _ _ (.inr rfl)

theorem start?_begins {route : Route} {request : Request} {addresses : List Candidate}
    (h : start? setup route request w addresses = some (n, w')) (hr : request ≠ .sentRequest) :
    n.Begins w w' ∧ n.route = route ∧ n.queue = [] ∧ n.verifies = [] := by
  cases addresses with
  | nil => cases h
  | cons first remaining =>
    cases h
    exact ⟨⟨⟨first, setup.settings.connectTimeout, rfl, rfl⟩, rfl, rfl, rfl, hr, rfl⟩, rfl, rfl, rfl⟩

theorem requestAfresh_ne (q : Request) : requestAfresh q ≠ .sentRequest := by
  cases q <;> simp [requestAfresh]

/-- A negotiation that goes on to its next address keeps all that waits for it. -/
theorem advance?_begins (h : n.advance? setup w = some (m, w')) :
    m.Begins w w' ∧ m.route = n.route ∧ m.queue = n.queue ∧ m.verifies = n.verifies := by
  unfold advance? at h
  cases hr : n.remaining with
  | nil =>
    rw [hr] at h
    cases h
  | cons next remaining =>
    rw [hr] at h
    cases h
    exact ⟨⟨⟨next, setup.settings.connectTimeout, rfl, rfl⟩, rfl, rfl, rfl, requestAfresh_ne _, rfl⟩, rfl, rfl, rfl⟩

end Negotiation

namespace Gateway

variable {P : CallKind → Prop} {g g' : Gateway}

theorem bounce_fades (g : Gateway) (stanza : Xml.Element) (reason : BounceReason) :
    Fades CallKind.IsReturn g (g.emit (.bounce stanza reason)) :=
  g.act_fades (World.grows_emit _ (.inr rfl) (by simp [Effect.kind]))

theorem foldl_bounce_fades (g : Gateway) (stanzas : List Xml.Element) (reason : BounceReason) :
    Fades CallKind.IsReturn g (stanzas.foldl (fun g s => g.emit (.bounce s reason)) g) :=
  foldl_relation .refl (fun _ _ _ => .trans) (fun g s _ => g.bounce_fades s reason) g

/-- The gateway without a negotiation, whose link is closed unless it is already gone. -/
def discard (g : Gateway) (route : Route) (n : Negotiation) (linkGone : Bool) : Gateway :=
  let g := { g with negotiations := g.negotiations.erase route }
  if linkGone then g else
    { g with attempts := g.attempts.erase n.link, world := g.world.close n.link }

/-- A negotiation that is given up is discarded, and what waited for it returns. -/
theorem retire_eq {route : Route} {n : Negotiation} (hn : g.negotiations.get? route = some n)
    (linkGone : Bool) : g.retire route linkGone =
      n.verifies.foldl failVerify (n.stanzas.foldl (fun g s => g.emit (.bounce s n.failureReason))
        (g.discard route n linkGone)) := by
  simp only [retire, hn]
  rfl

theorem discard_negotiations (g : Gateway) (route : Route) (n : Negotiation) (linkGone : Bool) :
    (g.discard route n linkGone).negotiations = g.negotiations.erase route := by
  cases linkGone <;> rfl

theorem discard_fades (g : Gateway) (route : Route) (n : Negotiation) (linkGone : Bool) :
    Fades CallKind.IsPlain g (g.discard route n linkGone) := by
  cases linkGone with
  | true => exact KeepsInbound.fades ⟨rfl, rfl, rfl, rfl⟩ (.refl _)
  | false => exact KeepsInbound.fades ⟨rfl, rfl, rfl, rfl⟩ (World.grows_close _ _ CallKind.isPlain)

/-- A negotiation that is given up grants nothing. -/
theorem retire_fades (g : Gateway) (route : Route) (linkGone : Bool) :
    Fades CallKind.IsReturn g (g.retire route linkGone) := by
  cases hn : g.negotiations.get? route with
  | none =>
    rw [retire, hn]
    exact .refl g
  | some n =>
    rw [retire_eq hn]
    exact ((g.discard_fades route n linkGone).mono fun _ => .inl).trans
      ((foldl_bounce_fades _ _ _).trans ((foldl_failVerify_fades _ _).mono fun _ => .inl))

theorem link_foldl_carry (c : Carrier) (now : Nat) (es : List Xml.Element) :
    (es.foldl (fun c _ => c.carry now) c).link = c.link := by
  induction es generalizing c with
  | nil => rfl
  | cons e es ih => exact ih (c.carry now)

/-- The gateway once a negotiation has handed over what waited for it. -/
def handOver (g : Gateway) (route : Route) (n : Negotiation) : Gateway :=
  { g with
    negotiations := g.negotiations.erase route
    attempts := g.attempts.erase n.link
    world := (g.world.sendElements n.link n.verifies).sendElements n.link n.stanzas }

/-- A negotiation that succeeds hands over what waited, and its link carries the route. -/
theorem establish_eq {route : Route} {n : Negotiation} (hn : g.negotiations.get? route = some n) :
    ∃ carrier, carrier.link = n.link ∧ g.establish route =
      { (g.handOver route n).setRoutes (g.routes.register route carrier) with
        carried := g.carried.insert n.link route } := by
  obtain ⟨carrier, hc⟩ : ∃ c, c = n.stanzas.foldl (fun c _ => c.carry g.now)
    (Carrier.start n.link (some n.current.toString) g.now) := ⟨_, rfl⟩
  refine ⟨carrier, by rw [hc]; exact link_foldl_carry _ _ _, ?_⟩
  have hk : ((g.handOver route n).setRoutes (g.routes.register route carrier)).carried = g.carried :=
    setRoutes_carried _ _
  rw [← hk]
  simp only [establish, hn, ← hc]
  rfl

theorem establish_keepsInbound (g : Gateway) (route : Route) : KeepsInbound g (g.establish route) := by
  cases hn : g.negotiations.get? route with
  | none =>
    rw [establish, hn]
    exact .refl g
  | some n =>
    obtain ⟨carrier, _, he⟩ := establish_eq hn
    have h := setRoutes_keepsInbound (g.handOver route n) (g.routes.register route carrier)
    rw [he]
    exact ⟨h.setup, h.challenges, h.admissions, h.streams⟩

/-- What a new route carries has waited for it; no link is opened. -/
theorem establish_grows (g : Gateway) (route : Route) :
    World.Grows (· ≠ .connect) g.world (g.establish route).world := by
  cases hn : g.negotiations.get? route with
  | none =>
    rw [establish, hn]
    exact .refl _
  | some n =>
    obtain ⟨carrier, _, he⟩ := establish_eq hn
    have ho : CallKind.other ≠ .connect := by simp
    have written (w : World) (es : List Xml.Element) :
        World.Grows (· ≠ .connect) w (w.sendElements n.link es) :=
      w.grows_sendElements _ fun e _ => CallKind.ofElement_ne_connect e
    rw [he]
    exact ((written _ _).trans (written _ _)).trans (setRoutes_grows (g.handOver route n) ho _)

theorem setNegotiation_keepsInbound (g : Gateway) (n : Negotiation) (w : World) :
    KeepsInbound g (g.setNegotiation n w) := ⟨rfl, rfl, rfl, rfl⟩

theorem putNegotiation_keepsInbound (g : Gateway) (n : Negotiation) (w : World) :
    KeepsInbound g (g.putNegotiation n w) := ⟨rfl, rfl, rfl, rfl⟩

theorem hold_keepsInbound (g : Gateway) (n : Negotiation) (stanza : Xml.Element) :
    KeepsInbound g (g.hold n stanza).1 := by
  unfold hold
  split <;> exact ⟨rfl, rfl, rfl, rfl⟩

theorem hold_grows (g : Gateway) (n : Negotiation) (stanza : Xml.Element) :
    World.Grows CallKind.IsPlain g.world (g.hold n stanza).1.world := by
  unfold hold
  split
  · rename_i hv
    dsimp only [Negotiation.addVerify]
    split
    · exact World.grows_sendElement _ _ (CallKind.ofElement_verify hv)
    · exact .refl _
  · exact .refl _

/-- The stanza goes out on this route. -/
def GoesTo (stanza : Xml.Element) (r : Route) : Prop :=
  ∃ a, Protocol.addresses stanza = .ok a ∧ routeOf a = r

/-- What the submission of a stanza, or of a verify request, does. -/
inductive SubmitStep (g : Gateway) (stanza : Xml.Element) : Gateway × Delivery → Prop
  | carried {r c} (goes : GoesTo stanza r) (found : g.routes.get? r = some c) :
      SubmitStep g stanza ({ g with
        world := g.world.sendElement c.link stanza
        routes := g.routes.modify r (·.carry g.now) },
        if Dialback.isVerify stanza then .verifySent else .sent)
  | asked {r n} (goes : GoesTo stanza r) (verify : Dialback.isVerify stanza = true)
      (found : g.negotiations.get? r = some n) :
      SubmitStep g stanza ((g.setNegotiation n g.world).hold n stanza)
  | joined {r n} (goes : GoesTo stanza r) (plain : Dialback.isVerify stanza = false)
      (found : g.negotiations.get? r = some n) :
      SubmitStep g stanza ((g.setNegotiation (n.want g.setup g.world).1 (n.want g.setup g.world).2).hold
        (n.want g.setup g.world).1 stanza)
  | began {n w} (goes : GoesTo stanza n.route) (free : g.negotiations.get? n.route = none)
      (unrouted : g.routes.get? n.route = none) (begins : n.Begins g.world w) (queue : n.queue = [])
      (verifies : n.verifies = []) : SubmitStep g stanza ((g.putNegotiation n w).hold n stanza)
  | refused {r} (goes : GoesTo stanza r) (verify : Dialback.isVerify stanza = true)
      (free : g.negotiations.get? r = none) :
      SubmitStep g stanza (g.failVerify stanza, .verifyFailed)
  | dropped (lost : ∀ a, Protocol.addresses stanza ≠ .ok a) (verify : Dialback.isVerify stanza = true) :
      SubmitStep g stanza (g, .verifyFailed)
  | returned {reason} (plain : Dialback.isVerify stanza = false) :
      SubmitStep g stanza (g.emit (.bounce stanza reason), .bounced)

theorem submitOn_step (g : Gateway) {route : Route} {stanza : Xml.Element} (goes : GoesTo stanza route)
    (resolved : Option String) : g.SubmitStep stanza (g.submitOn route stanza resolved) := by
  unfold submitOn
  dsimp only
  split
  · exact .carried goes ‹_›
  · rename_i unrouted
    split
    · split
      · exact .asked goes ‹_› ‹_›
      · exact .joined goes (Bool.eq_false_iff.mpr ‹_›) ‹_›
    · rename_i free
      split
      · unfold undeliverable
        split
        · exact .refused goes ‹_› free
        · exact .returned (Bool.eq_false_iff.mpr ‹_›)
      · rename_i hs
        obtain ⟨begins, rfl, queue, verifies⟩ := Negotiation.start?_begins hs (by split <;> simp)
        exact .began goes free unrouted begins queue verifies

theorem submit_step (g : Gateway) (stanza : Xml.Element) (resolved : Option String) :
    g.SubmitStep stanza (g.submit stanza resolved) := by
  unfold submit
  cases ha : Protocol.addresses stanza with
  | ok a => exact g.submitOn_step ⟨a, ha, rfl⟩ resolved
  | error fault =>
    dsimp only
    split
    · exact .dropped (by simp [ha]) ‹_›
    · exact .returned (Bool.eq_false_iff.mpr ‹_›)

namespace SubmitStep

variable {stanza : Xml.Element} {r : Gateway × Delivery}

/-- A stanza on its way out is nothing to the streams of peers. -/
theorem keepsInbound (h : g.SubmitStep stanza r) (hv : Dialback.isVerify stanza = false) :
    KeepsInbound g r.1 := by
  cases h with
  | carried _ found => exact ⟨rfl, rfl, rfl, rfl⟩
  | asked _ verify found => exact (setNegotiation_keepsInbound _ _ _).trans (hold_keepsInbound _ _ _)
  | joined _ plain found => exact (setNegotiation_keepsInbound _ _ _).trans (hold_keepsInbound _ _ _)
  | began _ free _ begins queue verifies =>
    exact (putNegotiation_keepsInbound _ _ _).trans (hold_keepsInbound _ _ _)
  | refused _ verify _ =>
    rw [hv] at verify
    cases verify
  | dropped _ verify => exact .refl g
  | returned plain => exact g.act_keepsInbound (·.emit _)

/-- A verify request that is submitted goes out, waits, or is settled as refused. -/
theorem fades (h : g.SubmitStep stanza r) (hv : Dialback.isVerify stanza = true) :
    Fades CallKind.IsInquiry g r.1 := by
  have held (g : Gateway) (n : Negotiation) :
      World.Grows CallKind.IsInquiry g.world (g.hold n stanza).1.world :=
    (g.hold_grows n stanza).mono fun _ => .inl
  cases h with
  | carried _ found =>
    exact KeepsInbound.fades ⟨rfl, rfl, rfl, rfl⟩
      (World.grows_sendElement _ _ (.inl (CallKind.ofElement_verify hv)))
  | @asked _ n _ _ found =>
    exact KeepsInbound.fades ((setNegotiation_keepsInbound _ _ _).trans (hold_keepsInbound _ _ _))
      (held (g.setNegotiation n g.world) n)
  | joined _ plain found =>
    rw [hv] at plain
    cases plain
  | @began n w _ free _ begins queue verifies =>
    exact KeepsInbound.fades ((putNegotiation_keepsInbound _ _ _).trans (hold_keepsInbound _ _ _))
      (begins.grows.trans (held (g.putNegotiation n w) n))
  | refused _ verify _ => exact (g.failVerify_fades _).mono fun _ => .inl
  | dropped _ verify => exact .refl g
  | returned plain =>
    rw [hv] at plain
    cases plain

theorem grows (h : g.SubmitStep stanza r) : World.Grows (fun _ => True) g.world r.1.world := by
  have held (g : Gateway) (n : Negotiation) :
      World.Grows (fun _ => True) g.world (g.hold n stanza).1.world :=
    (g.hold_grows n stanza).mono fun _ _ => trivial
  cases h with
  | carried _ found => exact World.grows_sendElement _ _ trivial
  | @asked _ n _ _ found => exact held (g.setNegotiation n g.world) n
  | @joined _ n _ _ found =>
    exact ((n.want_serves g.setup g.world).grows.mono fun _ _ => trivial).trans
      (held (g.setNegotiation _ (n.want g.setup g.world).2) _)
  | @began n w _ free _ begins queue verifies =>
    exact (begins.grows.mono fun _ _ => trivial).trans (held (g.putNegotiation n w) n)
  | refused _ verify _ => exact (g.failVerify_fades _).grows.mono fun _ _ => trivial
  | dropped _ verify => exact .refl _
  | returned plain => exact World.grows_emit _ trivial (by simp [Effect.kind])

end SubmitStep

theorem fades_of_streams (g : Gateway) (streams : Table LinkId InboundStream)
    (session : ∀ t s x, streams.get? t = some s → s.phase.session? = some x → g.sessionOn t = some x)
    (identity : ∀ t s i, streams.get? t = some s → s.identity = some i → g.identityOn t = some i) :
    Fades P g { g with streams := streams } := by
  refine ⟨rfl, ?_, ?_, fun _ k h => ⟨k, h, rfl⟩, fun _ c h => ⟨c, h, rfl, List.Sublist.refl _⟩, .refl _⟩
  · intro t x hx
    obtain ⟨s, hs, hp⟩ := Option.bind_eq_some_iff.mp hx
    exact session t s x hs hp
  · intro t i hi
    obtain ⟨s, hs, hp⟩ := Option.bind_eq_some_iff.mp hi
    exact identity t s i hs hp

theorem sessionOn_of_get? {t : LinkId} {s : InboundStream} {x : Session}
    (h : g.streams.get? t = some s) (hx : s.phase.session? = some x) : g.sessionOn t = some x := by
  rw [sessionOn, h]
  exact hx

theorem sessionOn_eq_some {t : LinkId} {s : Session} (h : g.sessionOn t = some s) :
    ∃ stream, g.streams.get? t = some stream ∧ stream.phase = .streaming s := by
  obtain ⟨stream, hs, hp⟩ := Option.bind_eq_some_iff.mp h
  refine ⟨stream, hs, ?_⟩
  cases hphase : stream.phase <;> simp_all [Phase.session?]

theorem identityOn_of_get? {t : LinkId} {s : InboundStream} {i : String}
    (h : g.streams.get? t = some s) (hi : s.identity = some i) : g.identityOn t = some i := by
  rw [identityOn, h]
  exact hi

theorem openStream_fades (g : Gateway) (link : LinkId) : Fades P g (g.openStream link) := by
  unfold openStream
  split
  · exact .refl g
  · refine g.fades_of_streams _ ?_ ?_
    · intro t s x hs hx
      rw [Table.get?_insert] at hs
      split at hs
      · cases hs
        cases hx
      · exact sessionOn_of_get? hs hx
    · intro t s i hs hi
      rw [Table.get?_insert] at hs
      split at hs
      · cases hs
        cases hi
      · exact identityOn_of_get? hs hi

/-- A stream that is changed without a session keeps its identity at most. -/
theorem modifyStream_fades (g : Gateway) (link : LinkId) {f : InboundStream → InboundStream}
    (session : ∀ s, (f s).phase.session? = none) (identity : ∀ s, (f s).identity = s.identity) :
    Fades P g { g with streams := g.streams.modify link f } := by
  refine g.fades_of_streams _ ?_ ?_
  · intro t s x hs hx
    rw [Table.get?_modify] at hs
    split at hs
    · obtain ⟨s₀, _, rfl⟩ := Option.map_eq_some_iff.mp hs
      rw [session] at hx
      cases hx
    · exact sessionOn_of_get? hs hx
  · intro t s i hs hi
    rw [Table.get?_modify] at hs
    split at hs
    · obtain ⟨s₀, hs₀, rfl⟩ := Option.map_eq_some_iff.mp hs
      rw [identity] at hi
      exact identityOn_of_get? hs₀ hi
    · exact identityOn_of_get? hs hi

theorem enterPhase_fades (g : Gateway) (link : LinkId) {phase : Phase} (h : phase.session? = none) :
    Fades P g (g.enterPhase link phase) :=
  g.modifyStream_fades link (fun _ => h) fun _ => rfl

theorem eraseStream_fades (g : Gateway) (link : LinkId) :
    Fades P g { g with streams := g.streams.erase link } := by
  have kept {t : LinkId} {s : InboundStream} (hs : (g.streams.erase link).get? t = some s) :
      g.streams.get? t = some s := by
    rw [Table.get?_erase] at hs
    split at hs
    · cases hs
    · exact hs
  exact g.fades_of_streams _ (fun _ _ _ hs hx => sessionOn_of_get? (kept hs) hx)
    fun _ _ _ hs hi => identityOn_of_get? (kept hs) hi

theorem dropChallenge_fades (g : Gateway) (challenge : String) : Fades P g (g.dropChallenge challenge) := by
  refine ⟨rfl, fun _ _ => id, fun _ _ => id, fun _ k h => ⟨k, h, rfl⟩, ?_, .refl _⟩
  intro x c hc
  rw [dropChallenge, Table.get?_erase] at hc
  split at hc
  · cases hc
  · exact ⟨c, hc, rfl, List.Sublist.refl _⟩

/-- Admissions that are withdrawn leave the others as they are. -/
theorem setAdmissions_fades {α : Type} (g : Gateway) (change : Registry.Change Claim Carrier α)
    (h : ∀ c k, change.registry.get? c = some k → g.admissions.get? c = some k) :
    Fades CallKind.IsPlain g (g.setAdmissions change) := by
  refine ⟨g.setAdmissions_setup _, ?_, ?_, ?_, ?_, g.setAdmissions_grows CallKind.isPlain _⟩
  · intro t s hs
    rwa [sessionOn, setAdmissions_streams] at hs
  · intro t i hi
    rwa [identityOn, setAdmissions_streams] at hi
  · intro c k hk
    rw [setAdmissions_admissions] at hk
    exact ⟨k, h c k hk, rfl⟩
  · intro x c hc
    rw [setAdmissions_challenges] at hc
    exact ⟨c, hc, rfl, List.Sublist.refl _⟩

theorem dismiss_fades (g : Gateway) (link : LinkId) : Fades CallKind.IsPlain g (g.dismiss link) := by
  refine g.setAdmissions_fades _ ?_
  intro c k hk
  rw [Registry.get?_unregisterWhere] at hk
  exact (Option.filter_eq_some_iff.mp hk).1

theorem releaseClaim_fades (g : Gateway) (claim : Claim) :
    Fades CallKind.IsPlain g (g.releaseClaim claim).1 := by
  unfold releaseClaim
  split
  · exact .refl g
  · have h : Fades CallKind.IsPlain g (g.setAdmissions (g.admissions.unregister claim)) := by
      refine g.setAdmissions_fades _ ?_
      intro c k hk
      rw [Registry.get?_unregister] at hk
      split at hk
      · cases hk
      · exact hk
    dsimp only
    split
    · exact h
    · exact h.trans (finish_fades _ _)

theorem onClosed_fades (g : Gateway) (link : LinkId) : Fades CallKind.IsPlain g (g.onClosed link) := by
  unfold onClosed
  split
  · exact .refl g
  · refine (g.eraseStream_fades link).trans (Fades.trans ?_ (dismiss_fades _ link))
    split
    · exact .refl _
    · exact dropChallenge_fades _ _
    · exact act_fades _ (World.grows_emit _ CallKind.isPlain (by simp [Effect.kind]))

theorem setRoutes_fades {α : Type} (g : Gateway) (change : Registry.Change Route Carrier α) :
    Fades CallKind.IsPlain g (g.setRoutes change) :=
  (g.setRoutes_keepsInbound change).fades (g.setRoutes_grows CallKind.isPlain change)

theorem releaseRoute_fades (g : Gateway) (route : Route) :
    Fades CallKind.IsPlain g (g.releaseRoute route).1 := by
  unfold releaseRoute
  split
  · exact .refl g
  · have hk := (g.setRoutes_fades (g.routes.unregister route))
    exact hk.trans (KeepsInbound.fades ⟨rfl, rfl, rfl, rfl⟩ (World.grows_finish _ _ CallKind.isPlain))

theorem dropRoute_fades (g : Gateway) (route : Route) (link : LinkId) :
    Fades CallKind.IsPlain g (g.dropRoute route link) :=
  Fades.trans (g := { g with carried := g.carried.erase link })
    (KeepsInbound.fades ⟨rfl, rfl, rfl, rfl⟩ (.refl _)) (setRoutes_fades _ _)

/-- A relation that composes holds along a sweep if it holds of each step. -/
theorem sweepEach_relation {κ : Type} {R : Gateway → Gateway → Prop} (refl : ∀ g, R g g)
    (trans : ∀ f g h, R f g → R g h → R f h) {step : Gateway → κ → Gateway × Nat}
    (each : ∀ g k, R g (step g k).1) (ks : List κ) (g : Gateway) : R g (sweepEach step ks g).1 := by
  induction ks generalizing g with
  | nil => exact refl g
  | cons k ks ih => exact trans _ _ _ (each g k) (ih _)

theorem sweepQueues_relation {R : Gateway → Gateway → Prop} (refl : ∀ g, R g g)
    (trans : ∀ f g h, R f g → R g h → R f h) {now : Nat} (each : ∀ g r, R g (sweepQueue now g r).1)
    (rs : List Route) (g : Gateway) : R g (sweepQueues now rs g).1 := by
  induction rs generalizing g with
  | nil => exact refl g
  | cons r rs ih => exact trans _ _ _ (each g r) (ih _)

theorem endLegacy_fades (g : Gateway) (link : LinkId) :
    Fades CallKind.IsPlain g (g.endLegacy link).1 := by
  unfold endLegacy
  split
  · exact .refl g
  · split
    · refine (g.eraseStream_fades link).trans (Fades.trans ?_ (finish_fades _ _))
      exact act_fades _ (World.grows_emit _ CallKind.isPlain (by simp [Effect.kind]))
    · exact .refl g

theorem endChallenge_fades (g : Gateway) (challenge : String) :
    Fades CallKind.IsPlain g (g.endChallenge challenge).1 := by
  unfold endChallenge
  split
  · exact .refl g
  · exact (g.dropChallenge_fades challenge).trans (close_fades _ _)

theorem endSilent_fades (g : Gateway) (link : LinkId) :
    Fades CallKind.IsPlain g (g.endSilent link).1 := by
  unfold endSilent
  split
  · exact (g.eraseStream_fades link).trans ((dismiss_fades _ link).trans (close_fades _ _))
  · exact .refl g

theorem closeAttempt_fades (g : Gateway) (route : Route) :
    Fades CallKind.IsPlain g (g.closeAttempt route).1 := by
  unfold closeAttempt
  split
  · exact .refl g
  · exact g.close_fades _

/-- A relation that composes holds along the sweep of a queue if it holds where expired stanzas return, and where a
negotiation that nothing waits for is given up. -/
theorem sweepQueue_relation_of_expired {R : Gateway → Gateway → Prop} (refl : ∀ g, R g g)
    (trans : ∀ f g h, R f g → R g h → R f h) {now : Nat} {g : Gateway} {r : Route}
    (expired : R g (g.bounceExpired now r).1)
    (retired : ∀ (g : Gateway) n, g.negotiations.get? r = some n → n.isIdle = true → R g (g.retire r false)) :
    R g (sweepQueue now g r).1 := by
  refine trans _ _ _ expired ?_
  show R _ ((g.bounceExpired now r).1.retireIdle r).1
  unfold retireIdle
  split
  · exact refl _
  · rename_i n hn
    split
    · exact retired _ n hn (Bool.and_eq_true_iff.mp ‹_›).1
    · exact refl _

/-- Expired stanzas leave the queue first, and return to their senders then. -/
theorem sweepQueue_relation {R : Gateway → Gateway → Prop} (refl : ∀ g, R g g)
    (trans : ∀ f g h, R f g → R g h → R f h) {now : Nat} {g : Gateway} {r : Route}
    (pruned : ∀ n, g.negotiations.get? r = some n →
      R g (g.setNegotiation (n.dropExpired now g.setup.settings.queueTimeout) g.world))
    (bounced : ∀ (g : Gateway) (stanzas : List Xml.Element) (reason : BounceReason),
      R g (stanzas.foldl (fun g s => g.emit (.bounce s reason)) g))
    (retired : ∀ (g : Gateway) n, g.negotiations.get? r = some n → n.isIdle = true → R g (g.retire r false)) :
    R g (sweepQueue now g r).1 := by
  refine sweepQueue_relation_of_expired refl trans ?_ retired
  unfold bounceExpired
  split
  · exact refl g
  · rename_i n hn
    exact trans _ _ _ (pruned n hn) (bounced _ _ _)

theorem sweepQueue_fades (now : Nat) (g : Gateway) (route : Route) :
    Fades CallKind.IsReturn g (sweepQueue now g route).1 :=
  sweepQueue_relation .refl (fun _ _ _ => .trans)
    (fun _ _ => KeepsInbound.fades (setNegotiation_keepsInbound _ _ _) (.refl _)) foldl_bounce_fades
    fun g _ _ _ => g.retire_fades route false

/-- A relation that composes holds along the sweep of all timeouts if it holds of each of its steps. -/
theorem sweepAt_relation {R : Gateway → Gateway → Prop} (refl : ∀ g, R g g)
    (trans : ∀ f g h, R f g → R g h → R f h) {now : Nat}
    (route : ∀ g r, R g (g.releaseRoute r).1) (claim : ∀ g c, R g (g.releaseClaim c).1)
    (legacy : ∀ g t, R g (g.endLegacy t).1) (challenge : ∀ g x, R g (g.endChallenge x).1)
    (silent : ∀ g t, R g (g.endSilent t).1) (attempt : ∀ g r, R g (g.closeAttempt r).1)
    (queue : ∀ g r, R g (sweepQueue now g r).1) (g : Gateway) : R g (g.sweepAt now).1 := by
  have each {κ : Type} (step : Gateway → κ → Gateway × Nat) (h : ∀ g k, R g (step g k).1)
      (ks : List κ) (g : Gateway) : R g (sweepEach step ks g).1 :=
    sweepEach_relation refl trans h ks g
  have idle (g : Gateway) : R g (g.sweepIdle now).1 := by
    have outbound := each (fun g r => (g.releaseRoute r).map id Bool.toNat) route
    have inbound := each (fun g c => (g.releaseClaim c).map id Bool.toNat) claim
    exact trans _ _ _ (outbound _ g) (trans _ _ _ (inbound _ _) (each endLegacy legacy _ _))
  have unauthorized (g : Gateway) : R g (g.sweepUnauthorized now).1 :=
    trans _ _ _ (each endChallenge challenge _ g)
      (trans _ _ _ (each endSilent silent _ _) (each closeAttempt attempt _ _))
  unfold sweepAt
  dsimp only
  refine trans _ _ _ (idle g) (trans _ _ _ (unauthorized _) ?_)
  exact sweepQueues_relation refl trans queue _ _

/-- The sweep of all timeouts grants nothing. -/
theorem sweepAt_fades (g : Gateway) (now : Nat) : Fades CallKind.IsReturn g (g.sweepAt now).1 :=
  sweepAt_relation (fun g => Fades.refl g) (fun _ _ _ => Fades.trans)
    (fun g r => (g.releaseRoute_fades r).mono fun _ => .inl)
    (fun g c => (g.releaseClaim_fades c).mono fun _ => .inl)
    (fun g t => (g.endLegacy_fades t).mono fun _ => .inl)
    (fun g x => (g.endChallenge_fades x).mono fun _ => .inl)
    (fun g t => (g.endSilent_fades t).mono fun _ => .inl)
    (fun g r => (g.closeAttempt_fades r).mono fun _ => .inl) (sweepQueue_fades now) g

theorem wait_fades (g : Gateway) (duration : Nat) : Fades P g (g.step (.wait duration)) :=
  g.act_fades (f := fun w => { w with now := w.now + duration })
    (World.grows_of_trace rfl rfl (Nat.le_add_right _ _) rfl rfl)

theorem learn_fades (g : Gateway) (link : LinkId) (facts : Link) :
    Fades P g (g.step (.learn link facts)) :=
  g.act_fades (f := fun w => { w with links := w.links.insert link facts })
    (World.grows_of_trace rfl rfl (Nat.le_refl _) rfl rfl)

theorem wait_keepsOutbound (g : Gateway) (duration : Nat) :
    KeepsOutbound g (g.step (.wait duration)) := ⟨rfl, rfl, rfl, rfl, rfl, rfl⟩

theorem learn_keepsOutbound (g : Gateway) (link : LinkId) (facts : Link) :
    KeepsOutbound g (g.step (.learn link facts)) := ⟨rfl, rfl, rfl, rfl, rfl, rfl⟩

end Gateway

end Interdomain
