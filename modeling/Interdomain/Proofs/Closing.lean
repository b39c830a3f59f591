import Interdomain.Proofs.Belongings
import Interdomain.Proofs.Order

/-! Links that are closed. A link that is closed while it is there for a route is mostly let go in the same
step, and a link that was let go is not written on again. Three kinds of closings leave the link in place until
it reports that it is gone: those in the midst of a negotiation, those of slow negotiations by a sweep, and the
one for a verify element that cannot be read. On such a link stanzas can still be written. -/
namespace Interdomain

open Protocol (Dialback)

/-- The element cannot be read as a verify element with an id. -/
def Protocol.Dialback.Unreadable (e : Xml.Element) : Prop := ∀ m id, ofElement e = .ok m → m.id ≠ some id

/-- The link is one that a peer opened. -/
def Gateway.Hosts (g : Gateway) (t : LinkId) : Prop :=
  (∃ stream, g.streams.get? t = some stream) ∨ (∃ x c, g.challenges.get? x = some c ∧ c.link = t) ∨
    ∃ k c, g.admissions.get? k = some c ∧ c.link = t

namespace Moment

/-- The operation closes the link. -/
def Closes (m : Moment) (t : LinkId) : Prop := .close t ∈ m.calls

/-- The link is one that a peer opened, or on which one has just said something. -/
def OfPeer (m : Moment) (t : LinkId) : Prop := m.gateway.Hosts t ∨ ∃ event, m.operation = .inbound t event

/-- The operation is one that closes the link of a route and does not let it go. -/
inductive Spares (m : Moment) (r : Route) (t : LinkId) : Prop
  | negotiated {event : LinkEvent} (negotiates : m.gateway.Negotiates r t) (on : m.operation = .outbound t event)
      (alive : ∀ error, event ≠ .closed error)
  | slow {n : Negotiation} {ahead : Nat} (found : m.gateway.negotiations.get? r = some n) (link : n.link = t)
      (on : m.operation = .sweep ahead)
      (late : m.gateway.setup.settings.authTimeout ≤ n.age (m.gateway.now + ahead))
  | unread {e : Xml.Element} (carries : m.gateway.Carries r t) (on : m.operation = .outbound t (.element e))
      (verify : Dialback.isVerify e = true) (unreadable : Dialback.Unreadable e)

end Moment

namespace World

variable {t id : LinkId} {u v w : World}

/-- On the way to a later world the link is not closed. -/
def Unclosed (t : LinkId) (u v : World) : Prop := Omits (· = .close t) u v

theorem Intact.unclosed (h : Intact t u v) : Unclosed t u v := h.mono fun _ => .inl

theorem Speaks.unclosed {P : CallKind → Prop} (h : Speaks P id u v) (ht : id ≠ t) : Unclosed t u v :=
  h.only.mono fun e he => by simpa [he, Effect.link?] using ht.symm

theorem unclosed_close (w : World) (ht : id ≠ t) : Unclosed t w (w.close id) := .emit w (by simpa using ht)

theorem unclosed_fail (w : World) (ht : id ≠ t) (error : Stream.Error) : Unclosed t w (w.fail id error) :=
  .fail w (by simp) (by simpa using ht) error

theorem unclosed_finish (w : World) (ht : id ≠ t) : Unclosed t w (w.finish id) :=
  .finish w (by simp) (by simpa using ht)

end World

namespace Gateway

variable {g g' : Gateway} {r x : Route} {t u : LinkId} {n : Negotiation}

theorem on_of_close {e : Effect} (h : e = .close t) : ∃ u, e.link? = some u := ⟨t, by rw [h]; rfl⟩

theorem settle_unclosed (hosts : ¬ g.Hosts t) (k : Claim) (valid : Bool) :
    World.Unclosed t g.world (g.settle k valid).world := by
  rcases (g.settle_step k valid).intact (t := t) with h | ⟨u, error, ⟨c, hc, hl, _⟩, _, heq⟩
  · exact h.unclosed
  · have hu : u ≠ t := fun h => hosts (.inr (.inl ⟨_, c, hc, hl.trans h⟩))
    rw [heq]
    exact .trans (World.intact_sendElement _ _).unclosed (World.unclosed_fail _ hu _)

/-- A verify element closes no link but the one that it comes on, and that only if it cannot be read. -/
theorem onVerify_unclosed (hosts : ¬ g.Hosts t) {e : Xml.Element} (read : u = t → ¬ Dialback.Unreadable e) :
    World.Unclosed t g.world (g.onVerify u e).world := by
  have failed (error : Stream.Error) (unread : Dialback.Unreadable e) :
      World.Unclosed t g.world (g.world.fail u error) :=
    World.unclosed_fail _ (fun h => read h unread) error
  unfold onVerify
  split
  · rename_i hm
    exact failed _ fun m id h => by rw [hm] at h; cases h
  · rename_i m hm
    split
    · rename_i hid
      refine failed _ fun m' id h => ?_
      rw [hm] at h
      cases h
      simp [hid]
    · split
      · exact settle_unclosed hosts _ _
      · exact (World.intact_sendElement _ _).unclosed

theorem foldl_failVerify_intact (g : Gateway) (vs : List Xml.Element) :
    World.Intact t g.world (vs.foldl failVerify g).world :=
  foldl_relation (R := fun a b : Gateway => World.Intact t a.world b.world) (fun _ => .refl _)
    (fun _ _ _ => .trans) (fun _ v _ => failVerify_intact _ v) g

theorem bounce_intact (g : Gateway) (stanzas : List Xml.Element) (reason : BounceReason) :
    World.Intact t g.world (stanzas.foldl (fun g s => g.emit (.bounce s reason)) g).world :=
  (g.bounce_linkless stanzas reason).mono fun _ h => ⟨t, h.on⟩

/-- What a peer says closes no link but its own. -/
theorem onStreaming_unclosed (hosts : ¬ g.Hosts t) (hu : u ≠ t) (s : Session) (e : Xml.Element) :
    World.Unclosed t g.world (g.onStreaming u s e).world := by
  have failed (error : Stream.Error) : World.Unclosed t g.world (g.world.fail u error) :=
    World.unclosed_fail _ hu error
  have finished (x : Xml.Element) : World.Unclosed t g.world ((g.world.sendElement u x).finish u) :=
    .trans (World.intact_sendElement _ _).unclosed (World.unclosed_finish _ hu)
  unfold onStreaming
  split
  · exact World.unclosed_close _ hu
  split
  · unfold onStartTls
    dsimp only
    split
    · exact finished _
    · have started : World.Unclosed t g.world ((g.world.sendElement u Protocol.tlsProceed).startTls u .server s.host) :=
        .trans (World.intact_sendElement _ _).unclosed (.startTls _ (by simp))
      split
      · exact started.trans (.emit _ (by simp))
      · exact started.trans (World.unclosed_close _ hu)
  split
  · unfold onSaslAuth
    split
    · exact .trans (World.intact_sendElement _ _).unclosed (.emit _ (by simp))
    · dsimp only
      split
      · exact .trans (World.intact_sendElement _ _).unclosed (World.unclosed_fail _ hu _)
      · exact finished _
  split
  · exact onVerify_unclosed hosts fun h => absurd h hu
  split
  · unfold onClaim
    split
    · exact failed _
    · split
      · exact failed _
      · split
        · exact failed _
        · exact (dispatchVerify_intact _ _ _).unclosed
  · unfold onStanza
    split
    · exact failed _
    · dsimp only
      split
      · exact .emit _ (by simp)
      · exact failed _

theorem onInbound_unclosed (hosts : ¬ g.Hosts t) (hu : u ≠ t) (event : LinkEvent) :
    World.Unclosed t g.world (g.onInbound u event).world := by
  have header (w : World) (h : Stream.Header) : World.Unclosed t w (w.send u (.header h)) := .emit w (by simp)
  cases event with
  | connected => exact .of_trace (by rw [onInbound, openStream_world])
  | header h =>
    rw [onInbound, ← g.openStream_world u]
    unfold onHeader
    split
    · exact (header _ _).trans (World.unclosed_fail _ hu _)
    · exact .trans (.of_trace rfl) (header _ _)
    · exact acceptStream_omits _ _ _ _ _ _ _ (fun _ => on_of_close) (by simp) (by simp)
  | element e =>
    simp only [onInbound, onElement]
    split
    · exact .refl _
    · split
      · exact World.unclosed_fail _ hu _
      · exact onStreaming_unclosed hosts hu _ e
      · exact .emit _ (by simp)
  | closed error =>
    simp only [onInbound, onClosed]
    split
    · exact .refl _
    · refine .trans ?_ (setAdmissions_intact _ _).unclosed
      split
      · exact .refl _
      · exact .refl _
      · exact .emit _ (by simp)

/-- A step by which a link that stays with its route is not closed. No link comes to a route, and none to a
peer. -/
structure Lets (t : LinkId) (g g' : Gateway) : Prop where
  tracks : ∀ r, g'.Tracks r t → g.Tracks r t
  hosts : g'.Hosts t → g.Hosts t
  unclosed : ∀ r, g'.Tracks r t → World.Unclosed t g.world g'.world

theorem Lets.refl (t : LinkId) (g : Gateway) : Lets t g g := ⟨fun _ => id, id, fun _ _ => .refl _⟩

theorem Lets.trans {f g h : Gateway} (a : Lets t f g) (b : Lets t g h) : Lets t f h :=
  ⟨fun r hr => a.tracks r (b.tracks r hr), fun hh => a.hosts (b.hosts hh),
    fun r hr => (a.unclosed r (b.tracks r hr)).trans (b.unclosed r hr)⟩

theorem KeepsOutbound.tracks (h : KeepsOutbound g g') (ht : g'.Tracks r t) : g.Tracks r t := by
  rw [Tracks, Negotiates, Carries, h.negotiations, h.routes] at ht
  exact ht

theorem Stays.hosts (h : Stays g g') (hh : g'.Hosts t) : g.Hosts t := by
  rcases hh with ⟨stream, hs⟩ | ⟨x, c, hc, rfl⟩ | ⟨k, c, hk, rfl⟩
  · exact .inl ⟨stream, h.streams ▸ hs⟩
  · obtain ⟨c₀, h₀, hl, _⟩ := h.challenge x c hc
    exact .inr (.inl ⟨x, c₀, h₀, hl⟩)
  · rcases h.admission k c hk with ⟨c₀, h₀, hl, _⟩ | ⟨⟨s, hs⟩ | ⟨x, c₀, h₀, hl⟩, _⟩
    · exact .inr (.inr ⟨k, c₀, h₀, hl⟩)
    · obtain ⟨stream, hs, _⟩ := sessionOn_eq_some hs
      exact .inl ⟨stream, hs⟩
    · exact .inr (.inl ⟨x, c₀, h₀, hl⟩)

theorem Fades.hosts {P : CallKind → Prop} (h : Fades P g g')
    (streams : ∀ stream, g'.streams.get? t = some stream → g.streams.get? t = some stream) (hh : g'.Hosts t) :
    g.Hosts t := by
  rcases hh with ⟨stream, hs⟩ | ⟨x, c, hc, rfl⟩ | ⟨k, c, hk, rfl⟩
  · exact .inl ⟨stream, streams stream hs⟩
  · obtain ⟨c₀, h₀, hl, _⟩ := h.challenge x c hc
    exact .inr (.inl ⟨x, c₀, h₀, hl⟩)
  · obtain ⟨c₀, h₀, hl⟩ := h.admission k c hk
    exact .inr (.inr ⟨k, c₀, h₀, hl⟩)

theorem Dwindles.tracks (h : Dwindles g g') (ht : g'.Tracks r t) : g.Tracks r t := by
  rcases ht with ⟨k, hk, rfl⟩ | ⟨c, hc, rfl⟩
  · obtain ⟨n, hn, hp⟩ := h.negotiation r k hk
    exact .inl ⟨n, hn, (congrArg Prod.fst hp).symm⟩
  · obtain ⟨c₀, h₀, hl⟩ := h.route r c hc
    exact .inr ⟨c₀, h₀, hl⟩

theorem releaseRoute_lets (hi : g.Indexed) (he : g.Exclusive) (x : Route) : Lets t g (g.releaseRoute x).1 := by
  refine ⟨fun _ => (g.releaseRoute_dwindles x).tracks, (g.releaseRoute_stays x).hosts, fun r ht => ?_⟩
  unfold releaseRoute at ht ⊢
  split at ht
  · exact .refl _
  · rename_i c hx
    have other : c.link ≠ t := by
      rintro rfl
      rcases ht with ⟨n, hn, hl⟩ | ⟨c', hc', hl⟩
      · exact hi.link_ne_carrier (n := n) (by simpa [act] using hn) hx hl
      · simp only [act, setRoutes_routes, Registry.get?_unregister] at hc'
        split at hc'
        · cases hc'
        · rename_i hne
          exact hne (he.route_eq ⟨c, hx, rfl⟩ ⟨c', hc', hl⟩)
    refine .trans ?_ (World.unclosed_finish _ other)
    exact (g.setRoutes_linkless _).mono fun _ => on_of_close

theorem retire_unclosed (hn : g.negotiations.get? x = some n) (ht : n.link ≠ t) :
    World.Unclosed t g.world (g.retire x false).world := by
  rw [retire_eq hn]
  have discarded : World.Unclosed t g.world (g.discard x n false).world := World.unclosed_close _ ht
  exact discarded.trans ((bounce_intact _ _ _).unclosed.trans (foldl_failVerify_intact _ _).unclosed)

/-- A negotiation that is given up lets its link go. -/
theorem retire_lets (hi : g.Indexed) (x : Route) : Lets t g (g.retire x false) := by
  refine ⟨fun _ => (g.retire_dwindles x).tracks, (g.retire_stays x false).hosts, fun r ht => ?_⟩
  cases hn : g.negotiations.get? x with
  | none =>
    rw [retire, hn]
    exact .refl _
  | some n =>
    refine retire_unclosed hn ?_
    rintro rfl
    have hkeeps := (return_keepsOutbound (g.discard x n false) n.stanzas n.verifies n.failureReason)
    rw [retire_eq hn] at ht
    rcases hkeeps.tracks ht with ⟨k, hk, hl⟩ | ⟨c, hc, hl⟩
    · rw [discard_negotiations, Table.get?_erase] at hk
      split at hk
      · cases hk
      · exact hi.link_ne hn hk ‹_› hl
    · exact hi.link_ne_carrier hn hc hl.symm

theorem sweepQueue_lets (ho : g.Orderly) (hi : g.Indexed) (now : Nat) (x : Route) :
    Lets t g (sweepQueue now g x).1 := by
  have expired : World.Unclosed t g.world (g.bounceExpired now x).1.world := by
    unfold bounceExpired
    split
    · exact .refl _
    · exact (bounce_intact (g.setNegotiation _ g.world) _ _).unclosed
  have bounced := bounceExpired_dwindles ho now x
  refine ⟨fun _ => (sweepQueue_dwindles ho now x).tracks, (sweepQueue_stays now g x).hosts, fun r ht => ?_⟩
  refine expired.trans ?_
  change ((g.bounceExpired now x).1.retireIdle x).1.Tracks r t at ht
  change World.Unclosed t _ ((g.bounceExpired now x).1.retireIdle x).1.world
  unfold retireIdle at ht ⊢
  split at ht
  · exact .refl _
  · split at ht <;> rename_i hidle
    · rw [if_pos hidle]
      exact (retire_lets (bounced.indexed hi) x).unclosed r ht
    · rw [if_neg hidle]
      exact .refl _

section Sweep

variable (hosts : ¬ g.Hosts t)
include hosts

theorem releaseClaim_unclosed (k : Claim) : World.Unclosed t g.world (g.releaseClaim k).1.world := by
  unfold releaseClaim
  split
  · exact .refl _
  · rename_i c hc
    have other : c.link ≠ t := fun h => hosts (.inr (.inr ⟨k, c, hc, h⟩))
    have withdrawn := (setAdmissions_intact (t := t) g (g.admissions.unregister k)).unclosed
    dsimp only
    split
    · exact withdrawn
    · exact withdrawn.trans (World.unclosed_finish _ other)

theorem endLegacy_unclosed (u : LinkId) : World.Unclosed t g.world (g.endLegacy u).1.world := by
  unfold endLegacy
  split
  · exact .refl _
  · rename_i stream hs
    have other : u ≠ t := by
      rintro rfl
      exact hosts (.inl ⟨stream, hs⟩)
    split
    · exact .trans (.emit g.world (by simp)) (World.unclosed_finish _ other)
    · exact .refl _

theorem endChallenge_unclosed (token : String) : World.Unclosed t g.world (g.endChallenge token).1.world := by
  unfold endChallenge
  split
  · exact .refl _
  · rename_i c hc
    exact World.unclosed_close _ fun h => hosts (.inr (.inl ⟨token, c, hc, h⟩))

theorem endSilent_unclosed (u : LinkId) : World.Unclosed t g.world (g.endSilent u).1.world := by
  unfold endSilent
  split
  · rename_i hs
    obtain ⟨stream, hs⟩ := Option.isSome_iff_exists.mp hs
    have other : u ≠ t := by
      rintro rfl
      exact hosts (.inl ⟨stream, hs⟩)
    exact .trans (setAdmissions_intact { g with streams := g.streams.erase u } _).unclosed
      (World.unclosed_close _ other)
  · exact .refl _

end Sweep

/-- What a part of a sweep keeps: the order of the tables, and the links that stay with their routes. -/
structure Swept (t : LinkId) (g g' : Gateway) : Prop where
  orderly : g'.Orderly
  indexed : g'.Indexed
  exclusive : g'.Exclusive
  lets : Lets t g g'

/-- A part of a sweep that leaves the negotiations alone. -/
structure Passed (t : LinkId) (g g' : Gateway) : Prop extends Swept t g g' where
  negotiations : g'.negotiations = g.negotiations
  setup : g'.setup = g.setup

theorem Swept.sweepQueue (hs : Swept t g g') (now : Nat) (x : Route) : Swept t g (Gateway.sweepQueue now g' x).1 :=
  ⟨(sweepQueue_conserves now g' x).orderly hs.orderly, (sweepQueue_dwindles hs.orderly now x).indexed hs.indexed,
    (sweepQueue_retains hs.orderly now x).exclusive hs.exclusive,
    hs.lets.trans (sweepQueue_lets hs.orderly hs.indexed now x)⟩

theorem Passed.keeps {f : Gateway} (hs : Passed t f g) (hf : Fades CallKind.IsPlain g g') (hk : KeepsOutbound g g')
    (streams : ∀ stream, g'.streams.get? t = some stream → g.streams.get? t = some stream)
    (unclosed : World.Unclosed t g.world g'.world) : Passed t f g' :=
  ⟨⟨(hf.leaves hk).orderly hs.orderly, (hf.dwindles hk).indexed hs.indexed, hk.retains.exclusive hs.exclusive,
    hs.lets.trans ⟨fun _ => hk.tracks, hf.hosts streams, fun _ _ => unclosed⟩⟩,
    hk.negotiations.trans hs.negotiations, hk.setup.trans hs.setup⟩

theorem Passed.releaseRoute (hs : Passed t g g') (x : Route) : Passed t g (g'.releaseRoute x).1 := by
  have negotiations : (g'.releaseRoute x).1.negotiations = g'.negotiations := by
    unfold Gateway.releaseRoute
    split
    · rfl
    · exact setRoutes_negotiations _ _
  exact ⟨⟨(g'.releaseRoute_leaves x).orderly hs.orderly, (g'.releaseRoute_dwindles x).indexed hs.indexed,
    releaseRoute_exclusive hs.exclusive x, hs.lets.trans (releaseRoute_lets hs.indexed hs.exclusive x)⟩,
    negotiations.trans hs.negotiations, (g'.releaseRoute_fades x).setup.trans hs.setup⟩

section Sweep

variable (hosts : ¬ g.Hosts t)
include hosts

theorem sweepIdle_passed (hs : Passed t g g') (now : Nat) : Passed t g (g'.sweepIdle now).1 := by
  unfold sweepIdle
  dsimp only
  refine sweepEach_induction (fun f hf u _ => hf.keeps (f.endLegacy_fades u) (f.endLegacy_keepsOutbound u)
    (fun _ => f.endLegacy_streams u) (endLegacy_unclosed (hosts ∘ hf.lets.hosts) u)) ?_
  refine sweepEach_induction (fun f hf k _ => hf.keeps (f.releaseClaim_fades k) (f.releaseClaim_keepsOutbound k)
    (fun _ h => (f.releaseClaim_stays k).streams ▸ h) (releaseClaim_unclosed (hosts ∘ hf.lets.hosts) k)) ?_
  exact sweepEach_induction (fun f hf x _ => hf.releaseRoute x) hs

theorem endChallenges_passed (hs : Passed t g g') (tokens : List String) :
    Passed t g (sweepEach endChallenge tokens g').1 :=
  sweepEach_induction (fun f hf token _ => hf.keeps (f.endChallenge_fades token)
    (f.endChallenge_keepsOutbound token) (fun _ h => (f.endChallenge_stays token).streams ▸ h)
    (endChallenge_unclosed (hosts ∘ hf.lets.hosts) token)) hs

theorem endSilents_passed (hs : Passed t g g') (links : List LinkId) :
    Passed t g (sweepEach endSilent links g').1 :=
  sweepEach_induction (fun f hf u _ => hf.keeps (f.endSilent_fades u) (f.endSilent_keepsOutbound u)
    (fun _ => f.endSilent_streams u) (endSilent_unclosed (hosts ∘ hf.lets.hosts) u)) hs

end Sweep

/-- The link of a negotiation is closed if it is too slow. -/
theorem closeAttempts_closes (g : Gateway) (now : Nat) :
    World.Unclosed t g.world (sweepEach closeAttempt (g.slowNegotiations now) g).1.world ∨
      ∃ x n, g.negotiations.get? x = some n ∧ n.link = t ∧ g.setup.settings.authTimeout ≤ n.age now := by
  by_cases slow : ∃ x n, g.negotiations.get? x = some n ∧ n.link = t ∧ g.setup.settings.authTimeout ≤ n.age now
  · exact .inr slow
  · refine .inl (sweepEach_induction (I := fun f => f.negotiations = g.negotiations ∧
      World.Unclosed t g.world f.world) (fun f hf x hx => ?_) ⟨rfl, .refl _⟩).2
    refine ⟨(f.closeAttempt_keepsOutbound x).negotiations.trans hf.1, hf.2.trans ?_⟩
    obtain ⟨n, hn, late⟩ := mem_keysWhere.mp hx
    have other : n.link ≠ t := fun h => slow ⟨x, n, hn, h, of_decide_eq_true late⟩
    unfold closeAttempt
    rw [hf.1, hn]
    exact World.unclosed_close _ other

/-- A sweep that closes the link of a route and leaves it in place has found its negotiation too slow. -/
theorem sweepAt_closes (ho : g.Orderly) (hi : g.Indexed) (he : g.Exclusive) (hosts : ¬ g.Hosts t) (now : Nat)
    (tracked : (g.sweepAt now).1.Tracks r t) (closes : .close t ∈ (g.sweepAt now).1.world.since g.world) :
    ∃ n, g.negotiations.get? r = some n ∧ n.link = t ∧ g.setup.settings.authTimeout ≤ n.age now := by
  have idle := sweepIdle_passed hosts (⟨⟨ho, hi, he, .refl t g⟩, rfl, rfl⟩ : Passed t g g) now
  have stale := endChallenges_passed hosts idle ((g.sweepIdle now).1.staleChallenges now)
  have silent := endSilents_passed hosts stale ((sweepEach endChallenge
    ((g.sweepIdle now).1.staleChallenges now) (g.sweepIdle now).1).1.silentStreams now)
  unfold sweepAt sweepUnauthorized at tracked closes
  dsimp only at tracked closes
  generalize (sweepEach endSilent _ _).1 = g₁ at silent tracked closes
  have closed := g₁.closeAttempts_closes (t := t) now
  have attempts : Fades CallKind.IsPlain g₁ (sweepEach closeAttempt (g₁.slowNegotiations now) g₁).1 ∧
      KeepsOutbound g₁ (sweepEach closeAttempt (g₁.slowNegotiations now) g₁).1 :=
    sweepEach_induction (I := fun f => Fades CallKind.IsPlain g₁ f ∧ KeepsOutbound g₁ f)
      (fun f hf x _ => ⟨hf.1.trans (f.closeAttempt_fades x), hf.2.trans (f.closeAttempt_keepsOutbound x)⟩)
      ⟨.refl g₁, .refl g₁⟩
  generalize (sweepEach closeAttempt _ _).1 = g₂ at closed attempts tracked closes
  obtain ⟨fades, keeps⟩ := attempts
  have queues := sweepQueues_relation (R := fun f f' => Swept t g₂ f → Swept t g₂ f') (fun _ => id)
    (fun _ _ _ a b => b ∘ a) (fun _ x hf => hf.sweepQueue now x) g₂.negotiations.keys g₂
    ⟨(fades.leaves keeps).orderly silent.orderly, (fades.dwindles keeps).indexed silent.indexed,
      keeps.retains.exclusive silent.exclusive, .refl t g₂⟩
  have before := keeps.tracks (queues.lets.tracks r tracked)
  rcases closed with closed | ⟨x, n, hn, hl, late⟩
  · have unclosed := ((silent.lets.unclosed r before).trans closed).trans (queues.lets.unclosed r tracked)
    exact absurd closes (unclosed.not_mem rfl)
  · have hx : x = r := before.unique silent.indexed silent.exclusive (.inl ⟨n, hn, hl⟩)
    rw [silent.negotiations, hx] at hn
    exact ⟨n, hn, hl, silent.setup ▸ late⟩

/-- What follows a turn on another link closes none, unless it is for a claim of a peer. -/
theorem follow_unclosed (hosts : ¬ g.Hosts t) {turn : Turn} (hs : turn.Serves n g.world) (hl : n.link ≠ t) :
    World.Unclosed t g.world (g.follow turn).world := by
  have set : World.Unclosed t g.world (g.setNegotiation turn.negotiation turn.world).world := hs.speaks.unclosed hl
  have found : (g.setNegotiation turn.negotiation turn.world).negotiations.get? turn.negotiation.route =
      some turn.negotiation := by simp [setNegotiation, Table.get?_insert]
  unfold follow
  dsimp only
  split
  · exact set
  · refine set.trans ?_
    obtain ⟨carrier, _, heq⟩ := establish_eq found
    rw [heq]
    refine .trans (v := ((g.setNegotiation turn.negotiation turn.world).handOver turn.negotiation.route
      turn.negotiation).world) ?_ ?_
    · exact .trans (.sendElements _ (by simp)) (.sendElements _ (by simp))
    · exact (setRoutes_linkless _ _).mono fun _ => on_of_close
  · exact set.trans (retire_unclosed found (hs.link ▸ hl))
  · exact set.trans (onVerify_unclosed (g := g.setNegotiation turn.negotiation turn.world) hosts
      fun h => absurd (hs.link.symm.trans h) hl)

theorem ClosedStep.unclosed (h : g.ClosedStep n g') : World.Unclosed t g.world g'.world := by
  cases h with
  | @advanced m k w _ _ _ advances _ =>
    obtain ⟨address, timeout, heq, _⟩ := (Negotiation.advance?_begins advances).1.opens
    show World.Unclosed t g.world w
    rw [heq]
    exact .connect _ (by simp)
  | @retired m _ _ _ _ =>
    rw [retire_eq (n := m) (by simp [setNegotiation, Table.get?_insert])]
    have discarded : World.Unclosed t g.world ({ g.setNegotiation m g.world with
        attempts := g.attempts.erase m.link }.discard m.route m true).world := .refl _
    exact discarded.trans ((bounce_intact _ _ _).unclosed.trans (foldl_failVerify_intact _ _).unclosed)

/-- An event on the link of a route closes it at most, and lets it go then, unless it is an unreadable verify
element. -/
theorem onRoute_unclosed (hi : g.Indexed) (he : g.Exclusive) (hosts : ¬ g.Hosts t) (hc : g.Carries x u)
    {event : LinkEvent} (read : ∀ e, event = .element e → Dialback.isVerify e = true → u = t →
      ¬ Dialback.Unreadable e) (tracked : (g.onRoute x u event).Tracks r t) :
    World.Unclosed t g.world (g.onRoute x u event).world := by
  have dropped (f : Gateway) : World.Unclosed t f.world (f.dropRoute x u).world :=
    (setRoutes_linkless { f with carried := f.carried.erase u } _).mono fun _ => on_of_close
  have other {f : World → World} (grows : World.Grows CallKind.IsPlain g.world (f g.world))
      (tracked : ((g.act f).dropRoute x u).Tracks r t) : u ≠ t := by
    rintro rfl
    have keeps := g.act_keepsOutbound f
    have dwindles := keeps.dwindles (grows.mono fun _ => CallKind.IsPlain.closing)
    exact dropRoute_untracked (dwindles.indexed hi) (keeps.retains.exclusive he) hc r tracked
  unfold onRoute at tracked ⊢
  split at tracked
  · exact .refl _
  · exact .refl _
  · exact dropped g
  · rename_i e
    dsimp only at tracked ⊢
    split at tracked <;> rename_i hv
    · rw [if_pos hv]
      exact onVerify_unclosed (g := { g with routes := g.routes.modify x (·.carry g.now) }) hosts (read e rfl hv)
    · rw [if_neg hv]
      split at tracked <;> rename_i herror
      · rw [if_pos herror]
        have hu := other (World.grows_close _ _ CallKind.isPlain) tracked
        exact (World.unclosed_close g.world hu).trans (dropped _)
      · rw [if_neg herror]
        have hu := other (World.grows_fail _ _ CallKind.isPlain _) tracked
        exact (World.unclosed_fail g.world hu _).trans (dropped _)

/-- An operation that closes the link of a route and leaves it in place is one of three kinds. -/
theorem step_spares (ho : g.Orderly) (hi : g.Indexed) (he : g.Exclusive) {op : Operation}
    (foreign : ¬ (⟨g, op⟩ : Moment).OfPeer t) (closes : (⟨g, op⟩ : Moment).Closes t)
    (tracked : (g.step op).Tracks r t) : (⟨g, op⟩ : Moment).Spares r t := by
  have hosts : ¬ g.Hosts t := fun h => foreign (.inl h)
  have none (h : World.Unclosed t g.world (g.step op).world) : (⟨g, op⟩ : Moment).Spares r t :=
    absurd closes (h.not_mem rfl)
  cases op with
  | submit e resolved =>
    rw [step_submit] at none
    exact none (g.submit_step e resolved).intact.unclosed
  | inbound u event =>
    refine none (onInbound_unclosed hosts (fun h => foreign (.inr ⟨event, ?_⟩)) event)
    rw [h]
  | outbound u event =>
    have before := step_tracks ho hi tracked
    change (g.onOutbound u event).Tracks r t at tracked
    change World.Unclosed t g.world (g.onOutbound u event).world → _ at none
    cases g.onOutbound_step ho hi he u event with
    | @turned n turn found link turns serves follows =>
      rw [follows] at none
      by_cases hu : u = t
      · subst hu
        have before : g.Tracks r u := before.resolve_right fun ⟨_, _, opens⟩ => by
          change _ ∈ (g.onOutbound u event).world.since g.world at opens
          rw [follows] at opens
          exact (follow_grows serves).not_opens (by simp) opens
        have hr : n.route = r := before.unique hi he (.inl ⟨n, found, link⟩)
        refine .negotiated ⟨n, hr ▸ found, link⟩ rfl ?_
        rintro error rfl
        cases turns
      · exact none (follow_unclosed hosts serves (link ▸ hu))
    | gone _ _ _ step => exact none step.unclosed
    | @carried x carries heq =>
      rw [heq] at none tracked
      by_cases unread : ∃ e, event = .element e ∧ Dialback.isVerify e = true ∧ u = t ∧ Dialback.Unreadable e
      · obtain ⟨e, rfl, hv, rfl, hu⟩ := unread
        have hr : x = r := Tracks.unique hi he ((g.onRoute_dwindles x u _).tracks tracked) (.inr carries)
        exact .unread (hr ▸ carries) rfl hv hu
      · exact none (onRoute_unclosed hi he hosts carries
          (fun e hevent hv hu h => unread ⟨e, hevent, hv, hu, h⟩) tracked)
    | ignored _ still => exact none (.of_trace (congrArg (·.world.trace) still))
  | sweep ahead =>
    rw [step_sweep] at tracked
    obtain ⟨n, found, link, late⟩ := sweepAt_closes ho hi he hosts _ tracked (g.step_sweep ahead ▸ closes)
    exact .slow found link rfl late
  | releaseRoute x =>
    rw [step_releaseRoute] at none tracked
    exact none ((releaseRoute_lets hi he x).unclosed r tracked)
  | releaseClaim k =>
    rw [step_releaseClaim] at none
    exact none (releaseClaim_unclosed hosts k)
  | wait duration => exact none (.of_trace rfl)
  | learn link facts => exact none (.of_trace rfl)

/-- The number of the link will not be given to another one. -/
def Spent (g : Gateway) (t : LinkId) : Prop := ∀ i, g.world.opened ≤ i → g.world.sources.linkId i ≠ t

theorem Tracks.spent (hi : g.Indexed) (ht : g.Tracks r t) : g.Spent t := by
  rintro i hle rfl
  rcases ht with ⟨n, hn, hl⟩ | ⟨c, hc, hl⟩
  · have ha := (hi.fresh i hle).1
    rw [← hl, hi.attempt hn] at ha
    cases ha
  · exact (hi.fresh i hle).2.1 r c hc hl

theorem Spent.step (ho : g.Orderly) (hs : g.Spent t) (op : Operation) : (g.step op).Spent t := by
  intro i hle
  have grows := step_grows ho op
  rw [grows.sources]
  exact hs i (Nat.le_trans grows.opened_le hle)

/-- A link that is there for a route after an operation was there before, if its number was spent. -/
theorem Spent.tracks (ho : g.Orderly) (hi : g.Indexed) (hs : g.Spent t) {op : Operation}
    (ht : (g.step op).Tracks r t) : g.Tracks r t := by
  refine (step_tracks ho hi ht).resolve_right fun ⟨address, timeout, opens⟩ => ?_
  obtain ⟨i, hle, _, hl⟩ := (step_grows ho op).numbered t r address timeout opens
  exact hs i hle hl

/-- A link that is there for a route has been there for it all the time since its number was spent. -/
theorem Spent.since {h : List Moment} (hc : Connected h g) (hs : g.Spent t) (ops : List Operation)
    (ht : (g.run ops).Tracks r t) (k : Nat) : (g.run (ops.take k)).Tracks r t := by
  induction ops generalizing g h k with
  | nil => simpa using ht
  | cons op ops ih =>
    have later := ih (hc.step op) (hs.step hc.orderly op) ht
    cases k with
    | zero => exact hs.tracks hc.orderly hc.indexed (later 0)
    | succ k => exact later k

/-- A stanza is written on a link that was there for its route before. -/
theorem tracks_of_writes {h h' : List Moment} (hc : Connected h g) (hi : InOrder h' g) {op : Operation}
    {e : Xml.Element} (he : Protocol.isStanza e = true) (hm : .send t (.element e) ∈ Moment.calls ⟨g, op⟩) :
    ∃ r, GoesTo e r ∧ g.Tracks r t := by
  obtain ⟨r, goes, c, routed, hl⟩ := hi.writes hc.orderly he hm
  refine ⟨r, goes, (step_tracks hc.orderly hc.indexed (.inr ⟨c, routed, hl⟩)).resolve_right fun opens => ?_⟩
  have unrouted : g.routes.get? r = none := by
    cases hr : g.routes.get? r with
    | none => rfl
    | some c => exact absurd ⟨c, hr, rfl⟩ ((step_opens hc.orderly hc.indexed hc.exclusive opens).1 c.link)
  obtain ⟨n, _, _, calls⟩ := step_enters hc.orderly unrouted routed
  obtain ⟨address, timeout, opens⟩ := opens
  rw [calls] at opens
  simp [handOverCalls] at opens

/-- If a stanza is written on a link that was closed earlier, the closing was one of three kinds that leave the link
in place for the route, or the link is also one of a peer. On a link that carries a route, closed or not, a stanza for
it is written at once. -/
theorem written_after_closing (setup : Setup) (world : World)
    (links : Function.Injective world.sources.linkId) (ops : List Operation) (op : Operation) :
    let m : Moment := ⟨(initial setup world).run ops, op⟩
    (∀ t ops' op' e, (∃ r, m.gateway.Tracks r t) → m.Closes t → Protocol.isStanza e = true →
      .send t (.element e) ∈ Moment.calls ⟨m.next.run ops', op'⟩ →
        ∃ r, GoesTo e r ∧ (m.Spares r t ∨ m.OfPeer t) ∧ ∀ k, (m.next.run (ops'.take k)).Tracks r t) ∧
    ∀ t r e resolved, m.gateway.Carries r t → GoesTo e r → op = .submit e resolved →
      m.calls = [.send t (.element e)] := by
  intro m
  have hc := run_connected setup world links ops
  refine ⟨fun t ops' op' e ⟨x, tracked⟩ closes stanza written => ?_, fun t r e resolved carries goes hop => ?_⟩
  · have spent : m.next.Spent t := (tracked.spent hc.indexed).step hc.orderly op
    have hrun : m.next.run ops' = (initial setup world).run (ops ++ op :: ops') := by
      simp [m, Moment.next, run]
    have later := run_connected setup world links (ops ++ op :: ops')
    have order := (run_inOrder setup world (ops ++ op :: ops')).2
    rw [← hrun] at later order
    obtain ⟨r, goes, here⟩ := tracks_of_writes later order stanza written
    have since := spent.since (hc.step op) ops' here
    refine ⟨r, goes, ?_, since⟩
    by_cases foreign : m.OfPeer t
    · exact .inr foreign
    · exact .inl (step_spares hc.orderly hc.indexed hc.exclusive foreign closes (since 0))
  · obtain ⟨c, found, rfl⟩ := carries
    obtain ⟨a, ha, rfl⟩ := goes
    subst hop
    change ((m.gateway.step (.submit e resolved)).world.since m.gateway.world) = _
    rw [step_submit]
    simp [submit, submitOn, ha, found, World.since, World.sendElement, World.send, World.emit]

/-- A route is authorized on link 100. -/
def authorized : List Operation :=
  [.submit (sampleMessage "bob@b.example" "alice@a.example") (some "192.0.2.1"),
    .outbound 100 .connected,
    .outbound 100 (.header { sampleHeader "b.example" with id := some "one", version := none }),
    .outbound 100 (.element (Dialback.resultReply "a.example" "b.example" true))]

/-- A verify element without an id. -/
def verifyWithoutId : Operation :=
  .outbound 100 (.element (((({ name := "verify", ns := Xml.Namespace.dialback } : Xml.Element).setAttribute
    "to" "a.example").setAttribute "from" "b.example").setAttribute "type" "valid"))

/-- Stanzas are written on a link that was closed: on a route that ended with a verify element without an id, and
on one whose negotiation was ended by the peer, or by a sweep, before the peer authorized it all the same. -/
theorem written_on_closed_links :
    let bob := sampleMessage "bob@b.example" "alice@a.example"
    let carol := sampleMessage "carol@b.example" "alice@a.example"
    let granted : Operation := .outbound 100 (.element (Dialback.resultReply "a.example" "b.example" true))
    let carried : Moment := ⟨sample.run authorized, verifyWithoutId⟩
    let ended : Moment := ⟨sample.run (authorized.take 3),
      .outbound 100 (.element { name := "error", ns := Xml.Namespace.stream })⟩
    let swept : Moment := ⟨sample.run (authorized.take 3), .sweep 900000⟩
    (carried.Closes 100 ∧ .send 100 (.element carol) ∈ Moment.calls ⟨carried.next, .submit carol none⟩) ∧
      (ended.Closes 100 ∧ .send 100 (.element bob) ∈ Moment.calls ⟨ended.next, granted⟩) ∧
      swept.Closes 100 ∧ .send 100 (.element carol) ∈ Moment.calls ⟨swept.next.step (.submit carol none), granted⟩ := by
  unfold Moment.Closes
  decide +kernel

theorem carried_after_closing :
    let r : Route := ⟨"b.example", "a.example"⟩
    let carol := sampleMessage "carol@b.example" "alice@a.example"
    let m : Moment := ⟨sample.run authorized, verifyWithoutId⟩
    m.gateway.Tracks r 100 ∧ m.Closes 100 ∧ Protocol.isStanza carol = true ∧
      .send 100 (.element carol) ∈ Moment.calls ⟨m.next.run [], .submit carol none⟩ ∧
      (∃ r, GoesTo carol r ∧ (m.Spares r 100 ∨ m.OfPeer 100) ∧ ∀ k, (m.next.run ([].take k)).Tracks r 100) ∧
      Moment.calls ⟨sample.run (authorized ++ [verifyWithoutId]), .submit carol none⟩ =
        [.send 100 (.element carol)] := by
  intro r carol m
  have tracked : m.gateway.Tracks r 100 := by
    have h : (m.gateway.routes.get? r).map (·.link) = some 100 := by decide +kernel
    exact .inr (Option.map_eq_some_iff.mp h)
  have closes : m.Closes 100 := by
    unfold Moment.Closes
    decide +kernel
  have stanza : Protocol.isStanza carol = true := by decide +kernel
  have written : .send 100 (.element carol) ∈ Moment.calls ⟨m.next.run [], .submit carol none⟩ := by decide +kernel
  have carries : (sample.run (authorized ++ [verifyWithoutId])).Carries r 100 := by
    have h : ((sample.run (authorized ++ [verifyWithoutId])).routes.get? r).map (·.link) = some 100 := by
      decide +kernel
    exact Option.map_eq_some_iff.mp h
  have goes : GoesTo carol r := routed?_eq_some.mp (by decide +kernel)
  exact ⟨tracked, closes, stanza, written,
    (written_after_closing sample.setup sample.world sample_linkId_injective authorized verifyWithoutId).1
      100 [] (.submit carol none) carol ⟨r, tracked⟩ closes stanza written,
    (written_after_closing sample.setup sample.world sample_linkId_injective (authorized ++ [verifyWithoutId])
      (.submit carol none)).2 100 r carol none carries goes rfl⟩

end Gateway

end Interdomain
