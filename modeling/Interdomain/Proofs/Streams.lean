import Interdomain.Proofs.Exclusion

/-! The streams of peers, and what is kept under them. A challenge belongs to the stream that was given it, and
an admission to the stream that it was granted on; a change of the stream takes with it what belonged to it. -/
namespace Interdomain

open Protocol (Dialback)

/-- The call ends the stream on the link, or begins it anew. -/
def Effect.Breaks (t : LinkId) (e : Effect) : Prop := e = .close t ∨ e = .reset t

theorem Effect.not_breaks_send {t id : LinkId} {frame : Frame} : ¬ (Effect.send id frame).Breaks t := by
  simp [Breaks]

theorem Effect.Breaks.on {t : LinkId} {e : Effect} (h : e.Breaks t) : e.link? = some t := by
  rcases h with rfl | rfl <;> rfl

namespace World

variable {t id : LinkId} {u v w : World}

/-- On the way to a later world the stream on the link neither ends nor begins anew. -/
def Intact (t : LinkId) (u v : World) : Prop := Omits (Effect.Breaks t) u v

/-- On the way to a later world the stream on the link does not begin anew. -/
def Unreset (t : LinkId) (u v : World) : Prop := Omits (· = .reset t) u v

theorem Intact.unreset (h : Intact t u v) : Unreset t u v := h.mono fun _ => .inr

theorem intact_sendElement (w : World) (e : Xml.Element) : Intact t w (w.sendElement id e) :=
  .emit w Effect.not_breaks_send

theorem unreset_fail (w : World) (error : Stream.Error) : Unreset t w (w.fail id error) :=
  .fail w (by simp) (by simp) error

theorem unreset_finish (w : World) : Unreset t w (w.finish id) := .finish w (by simp) (by simp)

end World

theorem Negotiation.want_intact {t : LinkId} (n : Negotiation) (setup : Setup) (w : World) :
    World.Intact t w (n.want setup w).2 := by
  unfold want sendRequest
  split
  · exact .refl w
  · split
    · exact w.intact_sendElement _
    · exact .refl w
  · exact .refl w
  · exact .refl w

namespace Gateway

variable {g g' : Gateway} {t u : LinkId} {s : Session} {now : Nat}

/-- The link has a stream with a session, or one for which a challenge is pending. -/
def Lives (g : Gateway) (t : LinkId) : Prop :=
  (∃ s, g.sessionOn t = some s) ∨ ∃ x c, g.challenges.get? x = some c ∧ c.link = t

/-- The streams of peers stay, and nothing new is kept under them but claims with the challenge that they are
kept under, and admissions on streams that live. -/
structure Stays (g g' : Gateway) : Prop where
  streams : g'.streams = g.streams
  challenge : ∀ x c, g'.challenges.get? x = some c → ∃ c₀, g.challenges.get? x = some c₀ ∧ c₀.link = c.link ∧
    ∀ k ∈ c.claims, k ∈ c₀.claims ∨ k.challenge = x
  admission : ∀ k c, g'.admissions.get? k = some c →
    (∃ c₀, g.admissions.get? k = some c₀ ∧ c₀.link = c.link ∧ c₀.lastUsed = c.lastUsed) ∨
      g.Lives c.link ∧ c.lastUsed ≤ g'.now
  now : g.now ≤ g'.now

namespace Stays

theorem refl (g : Gateway) : Stays g g :=
  ⟨rfl, fun _ c h => ⟨c, h, rfl, fun _ => .inl⟩, fun _ c h => .inl ⟨c, h, rfl, rfl⟩, Nat.le_refl _⟩

theorem lives (h : Stays g g') (hl : g'.Lives t) : g.Lives t := by
  rcases hl with ⟨s, hs⟩ | ⟨x, c, hc, rfl⟩
  · exact .inl ⟨s, by rwa [sessionOn, ← h.streams]⟩
  · obtain ⟨c₀, h₀, hl, _⟩ := h.challenge x c hc
    exact .inr ⟨x, c₀, h₀, hl⟩

theorem trans {f g h : Gateway} (a : Stays f g) (b : Stays g h) : Stays f h := by
  refine ⟨b.streams.trans a.streams, fun x c hc => ?_, fun k c hk => ?_, Nat.le_trans a.now b.now⟩
  · obtain ⟨c₁, h₁, l₁, m₁⟩ := b.challenge x c hc
    obtain ⟨c₀, h₀, l₀, m₀⟩ := a.challenge x c₁ h₁
    exact ⟨c₀, h₀, l₀.trans l₁, fun k hk => (m₁ k hk).elim (m₀ k) .inr⟩
  · rcases b.admission k c hk with ⟨c₁, h₁, l₁, u₁⟩ | ⟨hl, hu⟩
    · rcases a.admission k c₁ h₁ with ⟨c₀, h₀, l₀, u₀⟩ | ⟨hl, hu⟩
      · exact .inl ⟨c₀, h₀, l₀.trans l₁, u₀.trans u₁⟩
      · exact .inr ⟨l₁ ▸ hl, Nat.le_trans (u₁ ▸ hu) b.now⟩
    · exact .inr ⟨a.lives hl, hu⟩

end Stays

theorem KeepsInbound.stays (h : KeepsInbound g g') (now : g.now ≤ g'.now) : Stays g g' :=
  ⟨h.streams, fun _ c hc => ⟨c, h.challenges ▸ hc, rfl, fun _ => .inl⟩,
    fun _ c hc => .inl ⟨c, h.admissions ▸ hc, rfl, rfl⟩, now⟩

theorem act_stays (g : Gateway) {f : World → World} (now : g.now ≤ (f g.world).now) : Stays g (g.act f) :=
  (g.act_keepsInbound f).stays now

theorem emit_stays (g : Gateway) (e : Effect) : Stays g (g.emit e) := g.act_stays (Nat.le_refl _)

theorem fail_stays (g : Gateway) (link : LinkId) (error : Stream.Error) : Stays g (g.act (·.fail link error)) :=
  g.act_stays (Nat.le_refl _)

theorem close_stays (g : Gateway) (link : LinkId) : Stays g (g.act (·.close link)) := g.act_stays (Nat.le_refl _)

theorem openClaim_stays (g : Gateway) (k : Claim) : Stays g (g.openClaim k) := by
  refine ⟨rfl, fun x c hc => ?_, fun _ c hc => .inl ⟨c, hc, rfl, rfl⟩, Nat.le_refl _⟩
  rw [openClaim, Table.get?_modify] at hc
  split at hc
  · rename_i hx
    obtain ⟨c₀, h₀, rfl⟩ := Option.map_eq_some_iff.mp hc
    refine ⟨c₀, h₀, rfl, fun j hj => ?_⟩
    rcases List.mem_insert_iff.mp hj with rfl | hj
    · exact .inr hx.symm
    · exact .inl hj
  · exact ⟨c, hc, rfl, fun _ => .inl⟩

theorem closeClaim_stays (g : Gateway) (k : Claim) : Stays g (g.closeClaim k) := by
  refine ⟨rfl, fun x c hc => ?_, fun _ c hc => .inl ⟨c, hc, rfl, rfl⟩, Nat.le_refl _⟩
  obtain ⟨c₀, h₀, hl, hs⟩ := (g.closeClaim_fades (P := CallKind.IsPlain) k).challenge x c hc
  exact ⟨c₀, h₀, hl, fun j hj => .inl (hs.subset hj)⟩

theorem dropChallenge_stays (g : Gateway) (x : String) : Stays g (g.dropChallenge x) := by
  refine ⟨rfl, fun y c hc => ?_, fun _ c hc => .inl ⟨c, hc, rfl, rfl⟩, Nat.le_refl _⟩
  rw [dropChallenge, Table.get?_erase] at hc
  split at hc
  · cases hc
  · exact ⟨c, hc, rfl, fun _ => .inl⟩

/-- Admissions are withdrawn, or granted on streams that live. -/
theorem setAdmissions_stays {α : Type} (change : Registry.Change Claim Carrier α)
    (h : ∀ k c, change.registry.get? k = some c → g.admissions.get? k = some c ∨ g.Lives c.link ∧ c.lastUsed ≤ g.now) :
    Stays g (g.setAdmissions change) := by
  have now : g.now ≤ (g.setAdmissions change).now := (g.setAdmissions_grows CallKind.isPlain change).now
  refine ⟨setAdmissions_streams _ _, fun x c hc => ?_, fun k c hk => ?_, now⟩
  · rw [setAdmissions_challenges] at hc
    exact ⟨c, hc, rfl, fun _ => .inl⟩
  · rw [setAdmissions_admissions] at hk
    rcases h k c hk with hk | ⟨hl, hu⟩
    · exact .inl ⟨c, hk, rfl, rfl⟩
    · exact .inr ⟨hl, Nat.le_trans hu now⟩

theorem setAdmissions_intact {α : Type} (g : Gateway) (change : Registry.Change Claim Carrier α) :
    World.Intact t g.world (g.setAdmissions change).world :=
  (g.setAdmissions_linkless change).mono fun _ h => ⟨t, h.on⟩

theorem authorize_stays {k : Claim} (hl : g.Lives t) : Stays g (g.authorize k t) := by
  refine setAdmissions_stays _ fun j c hj => ?_
  rw [Registry.get?_register] at hj
  split at hj
  · cases hj
    exact .inr ⟨hl, Nat.le_refl _⟩
  · exact .inl hj

theorem sendResult_stays (g : Gateway) (link : LinkId) (k : Claim) (valid : Bool) :
    Stays g (g.sendResult link k valid) := g.act_stays (Nat.le_refl _)

theorem settle_stays (g : Gateway) (k : Claim) (valid : Bool) : Stays g (g.settle k valid) := by
  have h := g.settle_step k valid
  have hclose := g.closeClaim_stays k
  generalize g.settle k valid = g' at h
  cases h with
  | ignored _ => exact .refl g
  | @granted t isOpen _ =>
    obtain ⟨c, hc, hl, _⟩ := isOpen
    have lives : (g.closeClaim k).Lives t := by
      refine .inr ⟨k.challenge, { c with claims := c.claims.erase k }, ?_, hl⟩
      rw [get?_closeClaim, hc]
      simp
    exact hclose.trans ((authorize_stays lives).trans (sendResult_stays _ _ _ _))
  | refused _ => exact hclose.trans (sendResult_stays _ _ _ _)
  | violates _ _ => exact hclose.trans ((sendResult_stays _ _ _ _).trans (fail_stays _ _ _))

/-- Unless the policy refuses its stream, the settling of a claim breaks none. -/
theorem SettleStep.intact {k : Claim} {valid : Bool} (h : g.SettleStep k valid g') :
    World.Intact t g.world g'.world ∨ ∃ u error, g.IsOpen k u ∧ valid = true ∧
      g' = ((g.closeClaim k).sendResult u k false).act (·.fail u error) := by
  cases h with
  | ignored _ => exact .inl (.refl _)
  | granted _ _ =>
    exact .inl (.trans (setAdmissions_intact (g.closeClaim k) _) (World.intact_sendElement _ _))
  | refused _ => exact .inl (g.world.intact_sendElement _)
  | violates isOpen _ => exact .inr ⟨_, _, isOpen, rfl, rfl⟩

theorem settle_unreset (g : Gateway) (k : Claim) (valid : Bool) :
    World.Unreset t g.world (g.settle k valid).world := by
  rcases (g.settle_step k valid).intact (t := t) with h | ⟨u, error, _, _, heq⟩
  · exact h.unreset
  · rw [heq]
    exact .trans (World.intact_sendElement _ _).unreset (World.unreset_fail _ _)

theorem failVerify_stays (g : Gateway) (v : Xml.Element) : Stays g (g.failVerify v) := by
  rcases g.failVerify_cases v with ⟨k, hk⟩ | heq
  · rw [failVerify_of_names hk]
    exact g.settle_stays k false
  · rw [heq]
    exact .refl g

theorem failVerify_intact (g : Gateway) (v : Xml.Element) : World.Intact t g.world (g.failVerify v).world := by
  rcases g.failVerify_cases v with ⟨k, hk⟩ | heq
  · rw [failVerify_of_names hk]
    rcases (g.settle_step k false).intact (t := t) with h | ⟨_, _, _, h, _⟩
    · exact h
    · cases h
  · rw [heq]
    exact .refl _

theorem onVerify_stays (g : Gateway) (link : LinkId) (e : Xml.Element) : Stays g (g.onVerify link e) := by
  have h := g.onVerify_step link e
  generalize g.onVerify link e = g' at h
  cases h with
  | settles _ => exact g.settle_stays _ _
  | replies => exact g.act_stays (Nat.le_refl _)
  | fails => exact g.fail_stays _ _

theorem onVerify_unreset (g : Gateway) (link : LinkId) (e : Xml.Element) :
    World.Unreset t g.world (g.onVerify link e).world := by
  have h := g.onVerify_step link e
  generalize g.onVerify link e = g' at h
  cases h with
  | settles _ => exact g.settle_unreset _ _
  | replies => exact (World.intact_sendElement _ _).unreset
  | fails => exact World.unreset_fail _ _

theorem hold_stays (g : Gateway) (n : Negotiation) (e : Xml.Element) : Stays g (g.hold n e).1 :=
  (g.hold_keepsInbound n e).stays (g.hold_grows n e).now

theorem SubmitStep.stays {e : Xml.Element} {r : Gateway × Delivery} (h : g.SubmitStep e r) : Stays g r.1 := by
  cases h with
  | carried _ _ => exact KeepsInbound.stays ⟨rfl, rfl, rfl, rfl⟩ (Nat.le_refl _)
  | @asked _ n _ _ _ =>
    exact ((g.setNegotiation_keepsInbound n g.world).stays (Nat.le_refl _)).trans (hold_stays _ _ _)
  | @joined _ n _ _ _ =>
    exact ((g.setNegotiation_keepsInbound _ _).stays (n.want_serves g.setup g.world).grows.now).trans
      (hold_stays _ _ _)
  | @began n w _ _ _ begins _ _ =>
    exact ((g.putNegotiation_keepsInbound n w).stays begins.grows.now).trans (hold_stays _ _ _)
  | refused _ _ _ => exact g.failVerify_stays e
  | dropped _ _ => exact .refl g
  | returned _ => exact g.emit_stays _

theorem hold_intact (g : Gateway) (n : Negotiation) (e : Xml.Element) :
    World.Intact t g.world (g.hold n e).1.world := by
  unfold hold Negotiation.addVerify
  split
  · dsimp only
    split
    · exact World.intact_sendElement _ _
    · exact .refl _
  · exact .refl _

/-- What is on its way out breaks no stream. -/
theorem SubmitStep.intact {e : Xml.Element} {r : Gateway × Delivery} (h : g.SubmitStep e r) :
    World.Intact t g.world r.1.world := by
  cases h with
  | carried _ _ => exact World.intact_sendElement _ _
  | @asked _ n _ _ _ => exact (g.setNegotiation n g.world).hold_intact n e
  | @joined _ n _ _ _ =>
    refine .trans ?_ ((g.setNegotiation _ (n.want g.setup g.world).2).hold_intact _ e)
    exact n.want_intact g.setup g.world
  | @began n w _ _ _ begins _ _ =>
    obtain ⟨address, timeout, rfl, _⟩ := begins.opens
    exact .trans (.connect _ (by simp [Effect.Breaks])) ((g.putNegotiation n _).hold_intact n e)
  | refused _ _ _ => exact g.failVerify_intact e
  | dropped _ _ => exact .refl _
  | returned _ => exact .emit _ (by simp [Effect.Breaks])

theorem dispatchVerify_stays (g : Gateway) (route : Route) (v : Xml.Element) : Stays g (g.dispatchVerify route v) := by
  unfold dispatchVerify
  split
  · exact (g.submit_step v none).stays
  · exact g.emit_stays _

theorem dispatchVerify_intact (g : Gateway) (route : Route) (v : Xml.Element) :
    World.Intact t g.world (g.dispatchVerify route v).world := by
  unfold dispatchVerify
  split
  · exact (g.submit_step v none).intact
  · exact .emit _ (by simp [Effect.Breaks])

theorem retire_stays (g : Gateway) (route : Route) (linkGone : Bool) : Stays g (g.retire route linkGone) := by
  cases hn : g.negotiations.get? route with
  | none =>
    rw [retire, hn]
    exact .refl g
  | some n =>
    rw [retire_eq hn]
    have discarded : Stays g (g.discard route n linkGone) := by
      cases linkGone <;> exact KeepsInbound.stays ⟨rfl, rfl, rfl, rfl⟩ (Nat.le_refl _)
    have bounced := foldl_relation (R := Stays) (l := n.stanzas) .refl (fun _ _ _ => .trans)
      (fun g s _ => g.emit_stays (.bounce s n.failureReason)) (g.discard route n linkGone)
    exact discarded.trans (bounced.trans
      (foldl_relation .refl (fun _ _ _ => .trans) (fun g v _ => g.failVerify_stays v) _))

theorem follow_stays {n : Negotiation} {turn : Turn} (hs : turn.Serves n g.world) : Stays g (g.follow turn) := by
  have set : Stays g (g.setNegotiation turn.negotiation turn.world) :=
    (g.setNegotiation_keepsInbound _ _).stays hs.grows.now
  unfold follow
  dsimp only
  split
  · exact set
  · exact set.trans ((establish_keepsInbound _ _).stays (establish_grows _ _).now)
  · exact set.trans (retire_stays _ _ _)
  · exact set.trans (onVerify_stays _ _ _)

theorem onAttemptClosed_stays (g : Gateway) (n : Negotiation) (error : Option String) :
    Stays g (g.onAttemptClosed n error) := by
  have h := g.onAttemptClosed_step n error
  generalize g.onAttemptClosed n error = g' at h
  cases h with
  | advanced _ _ _ advances _ =>
    exact KeepsInbound.stays ⟨rfl, rfl, rfl, rfl⟩ (Negotiation.advance?_begins advances).1.grows.now
  | @retired m _ _ _ _ =>
    refine Stays.trans (g := { g.setNegotiation m g.world with attempts := g.attempts.erase m.link }) ?_
      (retire_stays _ _ _)
    exact KeepsInbound.stays ⟨rfl, rfl, rfl, rfl⟩ (Nat.le_refl _)

theorem setRoutes_stays {α : Type} (g : Gateway) (change : Registry.Change Route Carrier α) :
    Stays g (g.setRoutes change) :=
  (g.setRoutes_keepsInbound change).stays (g.setRoutes_grows CallKind.isPlain change).now

theorem onRoute_stays (g : Gateway) (route : Route) (link : LinkId) (event : LinkEvent) :
    Stays g (g.onRoute route link event) := by
  have dropped (g : Gateway) : Stays g (g.dropRoute route link) :=
    .trans (g := { g with carried := g.carried.erase link })
      (KeepsInbound.stays ⟨rfl, rfl, rfl, rfl⟩ (Nat.le_refl _)) (setRoutes_stays _ _)
  unfold onRoute
  split
  · exact .refl g
  · exact .refl g
  · exact dropped g
  · split
    · have carried : Stays g { g with routes := g.routes.modify route (·.carry g.now) } :=
        KeepsInbound.stays ⟨rfl, rfl, rfl, rfl⟩ (Nat.le_refl _)
      exact carried.trans (onVerify_stays _ _ _)
    · split
      · exact (g.act_stays (Nat.le_refl _)).trans (dropped _)
      · exact (g.fail_stays _ _).trans (dropped _)

/-- What happens on the links that the gateway opened is nothing to the streams of peers. -/
theorem onOutbound_stays (ho : g.Orderly) (link : LinkId) (event : LinkEvent) : Stays g (g.onOutbound link event) := by
  unfold onOutbound
  split
  · rename_i route _
    split
    · rename_i n hn
      have hv := ho.verifies route n hn
      cases event with
      | connected => exact follow_stays (n.onConnected_serves g.setup g.world)
      | header header => exact follow_stays (n.onHeader_serves g.setup g.world hv header _)
      | element e => exact follow_stays (n.onElement_serves g.setup g.world hv e)
      | closed error => exact g.onAttemptClosed_stays n error
    · exact KeepsInbound.stays ⟨rfl, rfl, rfl, rfl⟩ (Nat.le_refl _)
  · split
    · exact g.onRoute_stays _ link event
    · exact .refl g

theorem releaseRoute_stays (g : Gateway) (route : Route) : Stays g (g.releaseRoute route).1 := by
  unfold releaseRoute
  split
  · exact .refl g
  · exact (g.setRoutes_stays _).trans (KeepsInbound.stays ⟨rfl, rfl, rfl, rfl⟩ (Nat.le_refl _))

theorem releaseClaim_stays (g : Gateway) (claim : Claim) : Stays g (g.releaseClaim claim).1 := by
  have released : Stays g (g.setAdmissions (g.admissions.unregister claim)) := by
    refine setAdmissions_stays _ fun k c hk => .inl ?_
    rw [Registry.get?_unregister] at hk
    split at hk
    · cases hk
    · exact hk
  unfold releaseClaim
  split
  · exact .refl g
  · dsimp only
    split
    · exact released
    · exact released.trans (act_stays _ (Nat.le_refl _))

theorem endChallenge_stays (g : Gateway) (x : String) : Stays g (g.endChallenge x).1 := by
  unfold endChallenge
  split
  · exact .refl g
  · exact (g.dropChallenge_stays x).trans (close_stays _ _)

theorem closeAttempt_stays (g : Gateway) (route : Route) : Stays g (g.closeAttempt route).1 := by
  unfold closeAttempt
  split
  · exact .refl g
  · exact g.close_stays _

theorem sweepQueue_stays (now : Nat) (g : Gateway) (route : Route) : Stays g (sweepQueue now g route).1 :=
  sweepQueue_relation .refl (fun _ _ _ => .trans)
    (fun _ _ => (g.setNegotiation_keepsInbound _ _).stays (Nat.le_refl _))
    (fun g _ _ => foldl_relation (R := Stays) .refl (fun _ _ _ => .trans) (fun g _ _ => g.emit_stays _) g)
    fun g _ _ _ => g.retire_stays route false

theorem endLegacy_streams (g : Gateway) (u : LinkId) {t : LinkId} {stream : InboundStream}
    (h : (g.endLegacy u).1.streams.get? t = some stream) : g.streams.get? t = some stream := by
  unfold endLegacy at h
  split at h
  · exact h
  · split at h
    · have h : (g.streams.erase u).get? t = some stream := h
      rw [Table.get?_erase] at h
      split at h
      · cases h
      · exact h
    · exact h

theorem endSilent_streams (g : Gateway) (u : LinkId) {t : LinkId} {stream : InboundStream}
    (h : (g.endSilent u).1.streams.get? t = some stream) : g.streams.get? t = some stream := by
  unfold endSilent at h
  split at h
  · simp only [act, dismiss, setAdmissions_streams, Table.get?_erase] at h
    split at h
    · cases h
    · exact h
  · exact h

/-- A sweep leaves streams alone, or ends them. -/
theorem sweepAt_streams {stream : InboundStream} (h : (g.sweepAt now).1.streams.get? t = some stream) :
    g.streams.get? t = some stream := by
  have same {g g' : Gateway} (hk : Stays g g') (t : LinkId) (stream : InboundStream)
      (h : g'.streams.get? t = some stream) : g.streams.get? t = some stream := hk.streams ▸ h
  exact sweepAt_relation (R := fun g g' => ∀ t stream, g'.streams.get? t = some stream →
      g.streams.get? t = some stream) (fun _ _ _ => id) (fun _ _ _ a b t s => a t s ∘ b t s)
    (fun g r => same (g.releaseRoute_stays r)) (fun g c => same (g.releaseClaim_stays c))
    (fun g u t _ => endLegacy_streams g u) (fun g x => same (g.endChallenge_stays x))
    (fun g u t _ => endSilent_streams g u) (fun g r => same (g.closeAttempt_stays r))
    (fun g r => same (sweepQueue_stays now g r)) g t stream h

/-- What an event on the stream of a peer does to the streams. -/
inductive StreamStep (g : Gateway) (t : LinkId) : LinkEvent → Gateway → Prop
  | stays {event g'} (stays : Stays g g') (unreset : World.Unreset t g.world g'.world) : StreamStep g t event g'
  | opens : StreamStep g t .connected (g.openStream t)
  | refuses {header g'} (stays : Stays (g.openStream t) g') : StreamStep g t (.header header) g'
  | admits {header reply peer} : StreamStep g t (.header header) ((g.openStream t).admitLegacy t reply peer)
  | accepts {header reply host peer version offer} :
      StreamStep g t (.header header) ((g.openStream t).acceptStream t reply host peer version offer)
  | carries {e stream peer carrier} (found : g.streams.get? t = some stream)
      (phase : stream.phase = .legacy peer carrier) :
      StreamStep g t (.element e) ({ g with streams := g.streams.modify t fun x =>
        { x with phase := .legacy peer (carrier.carry g.now) } }.emit (.deliver e))
  | restarts {e g' s} (session : g.sessionOn t = some s)
      (other : ∀ u, u ≠ t → g'.streams.get? u = g.streams.get? u)
      (here : ∃ stream, g'.streams.get? t = some stream ∧ stream.phase = .awaitingHeader)
      (challenges : g'.challenges = g.challenges.erase s.challenge) (admissions : g'.admissions = g.admissions)
      (now : g.now ≤ g'.now) : StreamStep g t (.element e) g'
  | closes {error} : StreamStep g t (.closed error) (g.onClosed t)

theorem restart_step {e : Xml.Element} (hs : g.sessionOn t = some s) {f : World → World}
    (now : g.now ≤ (f g.world).now) : StreamStep g t (.element e) ((g.act f).restart t s) := by
  obtain ⟨stream, hstream, _⟩ := sessionOn_eq_some hs
  refine .restarts hs (fun u hu => ?_) ?_ rfl rfl now
  · simp [restart, enterPhase, dropChallenge, act, Table.get?_modify, hu]
  · simp [restart, enterPhase, dropChallenge, act, Table.get?_modify, hstream]

theorem identify_step {e : Xml.Element} (hs : g.sessionOn t = some s) (identity : String) :
    StreamStep g t (.element e) (g.identify t s identity) := by
  obtain ⟨stream, hstream, _⟩ := sessionOn_eq_some hs
  refine .restarts hs (fun u hu => ?_) ?_ rfl rfl (Nat.le_refl _)
  · simp [identify, restart, enterPhase, dropChallenge, act, Table.get?_modify, hu]
  · simp [identify, restart, enterPhase, dropChallenge, act, Table.get?_modify, hstream]

namespace StreamStep

theorem fail (g : Gateway) (t : LinkId) (event : LinkEvent) (error : Stream.Error) :
    StreamStep g t event (g.act (·.fail t error)) :=
  .stays (g.fail_stays _ _) (World.unreset_fail _ _)

theorem onHeader (g : Gateway) (t : LinkId) (header : Stream.Header) :
    StreamStep g t (.header header) ((g.openStream t).onHeader t header) := by
  unfold Gateway.onHeader
  split
  · exact .refuses (act_stays _ (Nat.le_refl _))
  · exact .admits
  · exact .accepts

theorem onStartTls {e : Xml.Element} (hs : g.sessionOn t = some s) :
    StreamStep g t (.element e) (g.onStartTls t s) := by
  unfold Gateway.onStartTls
  dsimp only
  split
  · exact .stays (act_stays _ (Nat.le_refl _)) (.trans (World.intact_sendElement _ _).unreset (World.unreset_finish _))
  · split
    · exact restart_step hs (Nat.le_refl _)
    · exact .stays ((act_stays _ (Nat.le_refl _)).trans (close_stays _ _))
        (.trans (World.intact_sendElement _ _).unreset (.trans (.startTls _ (by simp)) (.emit _ (by simp))))

theorem onSaslAuth {e : Xml.Element} (hs : g.sessionOn t = some s) :
    StreamStep g t (.element e) (g.onSaslAuth t s e) := by
  unfold Gateway.onSaslAuth
  split
  · exact identify_step hs _
  · dsimp only
    split
    · exact .stays ((act_stays _ (Nat.le_refl _)).trans (fail_stays _ _ _))
        (.trans (World.intact_sendElement _ _).unreset (World.unreset_fail _ _))
    · exact .stays ((act_stays _ (Nat.le_refl _)).trans (act_stays _ (Nat.le_refl _)))
        (.trans (World.intact_sendElement _ _).unreset (World.unreset_finish _))

theorem onClaim (g : Gateway) (t : LinkId) (s : Session) (e : Xml.Element) :
    StreamStep g t (.element e) (g.onClaim t s e) := by
  unfold Gateway.onClaim
  split
  · exact fail ..
  · rename_i m _
    split
    · exact fail ..
    · split
      · exact fail ..
      · have opened := g.openClaim_stays ⟨s.challenge, m.recipient, m.sender⟩
        exact .stays (opened.trans (dispatchVerify_stays _ _ _))
          (dispatchVerify_intact (g.openClaim ⟨s.challenge, m.recipient, m.sender⟩) _ _).unreset

theorem onStanza {e : Xml.Element} (hs : g.sessionOn t = some s) :
    StreamStep g t (.element e) (g.onStanza t s e) := by
  unfold Gateway.onStanza
  split
  · exact fail ..
  · rename_i a _
    dsimp only
    split
    · rename_i hany
      obtain ⟨carrier, hc, hl⟩ := (Option.any_eq_true ..).mp hany
      have hl : carrier.link = t := by simpa using hl
      refine .stays (Stays.trans ?_ (emit_stays _ _)) (.emit _ (by simp))
      refine ⟨rfl, fun x c h => ⟨c, h, rfl, fun _ => .inl⟩, fun k c hk => ?_, Nat.le_refl _⟩
      simp only [Registry.get?_modify] at hk
      split at hk
      · rename_i hkey
        rw [hkey, hc] at hk
        cases hk
        exact .inr ⟨.inl ⟨s, hl.symm ▸ hs⟩, Nat.le_refl _⟩
      · exact .inl ⟨c, hk, rfl, rfl⟩
    · exact fail ..

theorem onElement (g : Gateway) (t : LinkId) (e : Xml.Element) :
    StreamStep g t (.element e) (g.onElement t e) := by
  unfold Gateway.onElement
  split
  · exact .stays (.refl g) (.refl _)
  · rename_i stream hf
    split
    · exact fail ..
    · rename_i s hp
      have hs := sessionOn_of_streaming hf hp
      unfold onStreaming
      split
      · exact .stays (g.close_stays _) (.emit _ (by simp))
      · split
        · exact onStartTls hs
        · split
          · exact onSaslAuth hs
          · split
            · exact .stays (g.onVerify_stays _ _) (g.onVerify_unreset _ _)
            · split
              · exact onClaim ..
              · exact onStanza hs
    · exact .carries hf ‹_›

end StreamStep

theorem onInbound_streams (g : Gateway) (t : LinkId) (event : LinkEvent) :
    StreamStep g t event (g.onInbound t event) := by
  cases event with
  | connected => exact .opens
  | header header => exact .onHeader g t header
  | element e => exact .onElement g t e
  | closed error => exact .closes

theorem get?_openStream_of_ne (g : Gateway) (hu : u ≠ t) :
    (g.openStream t).streams.get? u = g.streams.get? u := by
  unfold openStream
  split
  · rfl
  · simp [Table.get?_insert, hu]

/-- A stream that awaits its header is there, unless there was another one on the link. -/
theorem openStream_awaits
    (fresh : ∀ stream, g.streams.get? t = some stream → stream.phase = .awaitingHeader) :
    ∃ stream, (g.openStream t).streams.get? t = some stream ∧ stream.phase = .awaitingHeader := by
  unfold openStream
  split
  · rename_i hc
    obtain ⟨stream, hs⟩ := Option.isSome_iff_exists.mp hc
    exact ⟨stream, hs, fresh stream hs⟩
  · simp [Table.get?_insert]

theorem onClosed_streams (g : Gateway) (t u : LinkId) :
    (g.onClosed t).streams.get? u = if u = t then none else g.streams.get? u := by
  unfold onClosed
  split
  · rename_i hn
    split
    · rename_i hu
      rw [hu, hn]
    · rfl
  · dsimp only
    rw [dismiss, setAdmissions_streams]
    split <;> exact Table.get?_erase _ _ _

namespace StreamStep

variable {event : LinkEvent}

/-- An event changes no stream but the one on its link. -/
theorem other (hs : StreamStep g t event g') (hu : u ≠ t) : g'.streams.get? u = g.streams.get? u := by
  have opened := g.get?_openStream_of_ne hu
  cases hs with
  | stays stays _ => rw [stays.streams]
  | opens => exact opened
  | refuses stays => rw [stays.streams, opened]
  | admits => exact (by simp [admitLegacy, enterPhase, Table.get?_modify, hu] : _ = _).trans opened
  | accepts =>
    refine Eq.trans ?_ opened
    rw [acceptStream_eq]
    simp [enterPhase, Table.get?_modify, act, hu, challenge_streams]
  | carries _ _ => simp [emit, act, Table.get?_modify, hu]
  | restarts _ other _ _ _ _ => exact other u hu
  | closes => rw [onClosed_streams, if_neg hu]

/-- A stream that does not await its header got it now, or had it before and was not restarted. -/
theorem past (hs : StreamStep g t event g') {stream : InboundStream} (hstream : g'.streams.get? t = some stream)
    (hp : stream.phase ≠ .awaitingHeader) : (∃ header, event = .header header) ∨
      (∃ before, g.streams.get? t = some before ∧ before.phase ≠ .awaitingHeader) ∧
        .reset t ∉ g'.world.since g.world := by
  cases hs with
  | stays stays unreset => exact .inr ⟨⟨stream, stays.streams ▸ hstream, hp⟩, unreset.not_mem rfl⟩
  | opens =>
    refine .inr ⟨⟨stream, ?_, hp⟩, ?_⟩
    · unfold openStream at hstream
      split at hstream
      · exact hstream
      · simp only [Table.get?_insert, if_true, Option.some.injEq] at hstream
        exact absurd (by rw [← hstream]) hp
    · rw [openStream_world]
      exact World.Omits.not_mem (.refl _) rfl
  | refuses _ => exact .inl ⟨_, rfl⟩
  | admits => exact .inl ⟨_, rfl⟩
  | accepts => exact .inl ⟨_, rfl⟩
  | @carries _ before peer carrier found phase =>
    refine .inr ⟨⟨before, found, by simp [phase]⟩, ?_⟩
    exact World.Omits.not_mem (P := (· = .reset t)) (.emit g.world (by simp)) rfl
  | restarts _ _ here _ _ _ =>
    obtain ⟨stream', hs', hp'⟩ := here
    rw [hstream] at hs'
    cases hs'
    exact absurd hp' hp
  | closes =>
    rw [onClosed_streams, if_pos rfl] at hstream
    cases hstream

end StreamStep

end Gateway

end Interdomain
