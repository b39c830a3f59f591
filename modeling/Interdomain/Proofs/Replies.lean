import Interdomain.Proofs.Admission
import Interdomain.Proofs.Outstanding
import Interdomain.Proofs.Verdicts

/-! Which operations answer claims. An operation looks at an element that it brings, or has requests fail, or
answers no claim at all: what it writes besides are headers, errors and negotiations, and what it passes on goes
out on links of its own. -/
namespace Interdomain

open Protocol (Dialback)

/-- A peer asks for the claim to be authorized, and the request is recorded with a challenge of the link. -/
def Moment.Records (m : Moment) (k : Claim) (t : LinkId) : Prop :=
  (∃ u, m.Requests u k) ∧ ∃ c, m.gateway.challenges.get? k.challenge = some c ∧ c.link = t

/-- The request is due to fail at the moment: it waits for a negotiation, is submitted, or has just been made for
a claim. -/
def Moment.Due (m : Moment) (v : Xml.Element) : Prop :=
  (∃ r, m.gateway.Holds r v) ∨ (∃ resolved, m.operation = .submit v resolved) ∨
    ∃ t k key, m.Requests t k ∧ v = k.inquiry key

namespace Gateway

variable {g g' : Gateway} {r : Route} {n : Negotiation} {t t' : LinkId} {op : Operation}

theorem calm_of_begins {w w' : World} (h : n.Begins w w') : World.Calm t w w' := by
  obtain ⟨address, timeout, rfl, _⟩ := h.opens
  exact w.calm_connect _ _ _

theorem bounce_calm (g : Gateway) (stanzas : List Xml.Element) (reason : BounceReason) :
    World.Calm t g.world (stanzas.foldl (fun g s => g.emit (.bounce s reason)) g).world :=
  (g.bounce_linkless stanzas reason).mono fun _ h => ⟨t, h.on⟩

theorem discard_calm (g : Gateway) (r : Route) (n : Negotiation) (linkGone : Bool) :
    World.Calm t g.world (g.discard r n linkGone).world := by
  cases linkGone with
  | true => exact .refl _
  | false => exact World.calm_close _ _

theorem hold_calm (g : Gateway) (n : Negotiation) (stanza : Xml.Element) (hl : n.ready = true → n.link ≠ t) :
    World.Calm t g.world (g.hold n stanza).1.world := by
  unfold hold
  split
  · unfold Negotiation.addVerify
    dsimp only
    split
    · exact World.calm_sendElement_of_ne _ (hl ‹_›) _
    · exact .refl _
  · exact .refl _

theorem establish_calm {r : Route} (hn : g.negotiations.get? r = some n) (hl : n.link ≠ t) :
    World.Calm t g.world (g.establish r).world := by
  obtain ⟨carrier, _, heq⟩ := establish_eq hn
  have written (w : World) (es : List Xml.Element) : World.Calm t w (w.sendElements n.link es) :=
    w.calm_sendElements_of_ne hl es
  rw [heq]
  exact ((written _ _).trans (written _ _)).trans (setRoutes_calm (g.handOver r n) _)

theorem dropRoute_calm (g : Gateway) (r : Route) (link : LinkId) :
    World.Calm t g.world (g.dropRoute r link).world := setRoutes_calm { g with carried := g.carried.erase link } _

theorem releaseRoute_calm (g : Gateway) (r : Route) : World.Calm t g.world (g.releaseRoute r).1.world := by
  unfold releaseRoute
  split
  · exact .refl _
  · exact (g.setRoutes_calm _).trans (World.calm_finish _ _)

theorem releaseClaim_calm (g : Gateway) (k : Claim) : World.Calm t g.world (g.releaseClaim k).1.world := by
  unfold releaseClaim
  split
  · exact .refl _
  · dsimp only
    split
    · exact g.setAdmissions_calm _
    · exact (g.setAdmissions_calm _).trans (World.calm_finish _ _)

theorem endLegacy_calm (g : Gateway) (link : LinkId) : World.Calm t g.world (g.endLegacy link).1.world := by
  unfold endLegacy
  split
  · exact .refl _
  · split
    · exact (World.calm_emit _ (e := .account _) fun h => h).trans (World.calm_finish _ _)
    · exact .refl _

theorem endChallenge_calm (g : Gateway) (token : String) : World.Calm t g.world (g.endChallenge token).1.world := by
  unfold endChallenge
  split
  · exact .refl _
  · exact World.calm_close _ _

theorem endSilent_calm (g : Gateway) (link : LinkId) : World.Calm t g.world (g.endSilent link).1.world := by
  unfold endSilent
  split
  · exact (setAdmissions_calm { g with streams := g.streams.erase link } _).trans (World.calm_close _ _)
  · exact .refl _

theorem closeAttempt_calm (g : Gateway) (r : Route) : World.Calm t g.world (g.closeAttempt r).1.world := by
  unfold closeAttempt
  split
  · exact .refl _
  · exact World.calm_close _ _

/-- A negotiation that nothing waits for has no requests that could fail. -/
theorem sweepQueue_calm (now : Nat) (g : Gateway) (r : Route) :
    World.Calm t g.world (sweepQueue now g r).1.world := by
  refine sweepQueue_relation (R := fun g g' => World.Calm t g.world g'.world) (fun _ => .refl _)
    (fun _ _ _ => .trans) (fun _ _ => .refl _) bounce_calm fun g n hn idle => ?_
  simp only [Negotiation.isIdle, Bool.and_eq_true, List.isEmpty_iff] at idle
  rw [retire_eq hn, idle.2]
  exact (discard_calm _ _ _ _).trans (bounce_calm _ _ _)

theorem sweepAt_calm (g : Gateway) (now : Nat) : World.Calm t g.world (g.sweepAt now).1.world :=
  sweepAt_relation (R := fun g g' => World.Calm t g.world g'.world) (fun _ => .refl _) (fun _ _ _ => .trans)
    releaseRoute_calm releaseClaim_calm endLegacy_calm endChallenge_calm endSilent_calm closeAttempt_calm
    (sweepQueue_calm now) g

theorem acceptStream_calm (g : Gateway) (link : LinkId) (reply : Stream.Header) (host : String)
    (peer : Option String) (version : Nat) (offer : Offer) :
    World.Calm t g.world (g.acceptStream link reply host peer version offer).world := by
  refine g.acceptStream_omits link reply host peer version offer (fun _ h => ⟨t, h.on⟩) (fun _ h => h)
    (Effect.not_replies ?_)
  cases offer.startTls <;> cases offer.sasl <;> rfl

/-- What an operation does about claims made on a link. It answers none; or the requests `vs` fail once all else
is done; or it looks at an element that it brings. -/
inductive Decision (g : Gateway) (op : Operation) (t : LinkId) : Gateway → Prop
  | calm {g' : Gateway} (calm : World.Calm t g.world g'.world) : Decision g op t g'
  | fails {g₁ : Gateway} (vs : List Xml.Element) (calm : World.Calm t g.world g₁.world)
      (distinct : g₁.ClaimsDistinct) (admissions : g₁.admissions = g.admissions)
      (claims : ∀ k u, g₁.IsOpen k u → g.IsOpen k u ∨ (⟨g, op⟩ : Moment).Records k u)
      (due : ∀ v ∈ vs, (⟨g, op⟩ : Moment).Due v) : Decision g op t (vs.foldl failVerify g₁)
  | hears {g₁ : Gateway} {e : Xml.Element} {u : LinkId} (hears : g.Hears e op) (keeps : KeepsInbound g g₁)
      (world : g₁.world = g.world) : Decision g op t (g₁.onVerify u e)

/-- A claim that is opened was recorded with a challenge of its link. -/
theorem openClaim_link {k x : Claim} {u : LinkId} (ho : (g.openClaim k).IsOpen x u) :
    ∃ c, g.challenges.get? x.challenge = some c ∧ c.link = u := by
  obtain ⟨c, hc, hl, _⟩ := ho
  rw [openClaim, Table.get?_modify] at hc
  split at hc
  · obtain ⟨c₀, h₀, rfl⟩ := Option.map_eq_some_iff.mp hc
    exact ⟨c₀, h₀, hl⟩
  · exact ⟨c, hc, hl⟩

/-- A negotiation is given up after what leaves the streams of peers alone. -/
theorem retire_decision (hd : g.ClaimsDistinct) {m : Negotiation} (calm : World.Calm t g.world g'.world)
    (keeps : KeepsInbound g g') (set : g'.negotiations.get? r = some m)
    (due : ∀ v ∈ m.verifies, (⟨g, op⟩ : Moment).Due v) (linkGone : Bool) :
    g.Decision op t (g'.retire r linkGone) := by
  have returned : World.Calm t (g'.discard r m linkGone).world
      (m.stanzas.foldl (fun g s => g.emit (.bounce s m.failureReason)) (g'.discard r m linkGone)).world :=
    bounce_calm _ _ _
  have hk := keeps.trans (g'.discard_keepsInbound r m linkGone)
  rw [retire_eq set]
  exact .fails _ (calm.trans ((g'.discard_calm r m linkGone).trans returned)) (hk.claimsDistinct hd) hk.admissions
    (fun _ _ ho => .inl (hk.isOpen_iff.mp ho)) due

/-- A submission answers no claim on a link that is not there for a route, unless it fails. -/
theorem SubmitStep.calm_or {stanza : Xml.Element} {s : Gateway × Delivery} (h : g.SubmitStep stanza s)
    (foreign : ∀ r u, g.Tracks r u → u ≠ t) :
    World.Calm t g.world s.1.world ∨ s.1 = g.failVerify stanza := by
  have negotiated {r : Route} {n : Negotiation} (hn : g.negotiations.get? r = some n) : n.link ≠ t :=
    foreign r n.link (.inl ⟨n, hn, rfl⟩)
  cases h with
  | @carried r c _ found =>
    exact .inl (World.calm_sendElement_of_ne _ (foreign r c.link (.inr ⟨c, found, rfl⟩)) _)
  | @asked r n _ _ found => exact .inl (hold_calm (g.setNegotiation n g.world) n stanza fun _ => negotiated found)
  | @joined r n _ _ found =>
    have hs := n.want_serves g.setup g.world
    refine .inl ((hs.speaks.calm t (negotiated found)).trans ?_)
    refine hold_calm (g.setNegotiation _ (n.want g.setup g.world).2) _ stanza fun _ => ?_
    have hl : (n.want g.setup g.world).1.link = n.link := hs.link
    exact hl ▸ negotiated found
  | @began n w _ _ _ begins _ _ =>
    refine .inl ((calm_of_begins begins).trans (hold_calm (g.putNegotiation n w) n stanza fun hr => ?_))
    rw [begins.ready] at hr
    cases hr
  | refused _ _ _ => exact .inr rfl
  | dropped _ _ => exact .inl (.refl _)
  | returned _ => exact .inl (World.calm_emit _ fun h => h)

/-- A turn ends with a verify element only when the element comes. -/
theorem turnOn_verify {event : LinkEvent} {turn : Turn} {e : Xml.Element} (turns : g.turnOn n event = some turn)
    (hverdict : turn.verdict = .verify e) :
    event = .element e ∧ Dialback.isVerify e = true ∧ turn = ⟨n, g.world, .verify e⟩ := by
  cases event with
  | connected =>
    cases turns
    cases hverdict
  | header header =>
    cases turns
    rcases n.onHeader_verdict g.setup g.world header g.challenges.contains with h | h <;>
      rw [h] at hverdict <;> cases hverdict
  | element x =>
    cases turns
    rcases n.onElement_verdict g.setup g.world x with h | h | ⟨h, _, _⟩ | ⟨hv, h⟩
    · rw [h] at hverdict
      cases hverdict
    · rw [h] at hverdict
      cases hverdict
    · rw [h] at hverdict
      cases hverdict
    · rw [h] at hverdict ⊢
      cases hverdict
      exact ⟨rfl, hv, rfl⟩
  | closed error => cases turns

theorem follow_decision (hd : g.ClaimsDistinct) (hi : g.Indexed)
    (found : g.negotiations.get? n.route = some n) (hl : n.link ≠ t) {event : LinkEvent} {turn : Turn}
    (turns : g.turnOn n event = some turn) (serves : turn.Serves n g.world) :
    g.Decision (.outbound n.link event) t (g.follow turn) := by
  have set : (g.setNegotiation turn.negotiation turn.world).negotiations.get? turn.negotiation.route =
      some turn.negotiation := by simp [setNegotiation, Table.get?_insert]
  have calm := serves.speaks.calm t hl
  have hlink : turn.negotiation.link ≠ t := serves.link ▸ hl
  unfold follow
  dsimp only
  cases hverdict : turn.verdict with
  | proceed => exact .calm calm
  | authorize => exact .calm (calm.trans (establish_calm set hlink))
  | giveUp =>
    exact retire_decision hd calm (g.setNegotiation_keepsInbound _ _) set
      (fun v hm => .inl ⟨n.route, n, found, serves.verifies hm⟩) false
  | verify e =>
    obtain ⟨rfl, hve, rfl⟩ := turnOn_verify turns hverdict
    exact .hears (.negotiation hve (hi.attempt found) found) (g.setNegotiation_keepsInbound _ _) rfl

theorem ClosedStep.decision (h : g.ClosedStep n g') (hd : g.ClaimsDistinct)
    (found : g.negotiations.get? n.route = some n) : g.Decision op t g' := by
  cases h with
  | advanced _ _ _ advances _ => exact .calm (calm_of_begins (Negotiation.advance?_begins advances).1)
  | @retired m _ _ verifies _ =>
    have set : Table.get? { g.setNegotiation m g.world with attempts := g.attempts.erase m.link }.negotiations
        m.route = some m := by simp [setNegotiation, Table.get?_insert]
    refine retire_decision hd ?_ ?_ set (fun v hm => .inl ⟨n.route, n, found, verifies ▸ hm⟩) true
    · exact .refl _
    · exact ⟨rfl, rfl, rfl, rfl⟩

theorem onRoute_decision (free : g.attempts.get? t' = none) (carried : g.carried.get? t' = some r)
    (event : LinkEvent) : g.Decision (.outbound t' event) t (g.onRoute r t' event) := by
  unfold onRoute
  split
  · exact .calm (.refl _)
  · exact .calm (.refl _)
  · exact .calm (g.dropRoute_calm _ _)
  · split
    · exact .hears (.route ‹_› free carried) ⟨rfl, rfl, rfl, rfl⟩ rfl
    · split
      · exact .calm ((World.calm_close _ _).trans (dropRoute_calm _ _ _))
      · exact .calm ((World.calm_fail _ _ _).trans (dropRoute_calm _ _ _))

theorem PeerStep.decision {link : LinkId} {event : LinkEvent} (h : g.PeerStep link event g')
    (hd : g.ClaimsDistinct) (foreign : ∀ r u, g.Tracks r u → u ≠ t) : g.Decision (.inbound link event) t g' := by
  cases h with
  | ends _ _ calm => exact .calm (calm t)
  | legacy _ _ fades _ => exact .calm (.of_deliveries fades.grows)
  | delivers _ _ _ _ fades _ => exact .calm (.of_deliveries fades.grows)
  | hears session verify => exact .hears (.peer verify session) (.refl g) rfl
  | @asks e k m asks message =>
    unfold dispatchVerify
    split
    · rcases ((g.openClaim k).submit_step (k.inquiry m.key) none).calm_or foreign with hc | heq
      · exact .calm hc
      · have requests : (⟨g, .inbound link (.element e)⟩ : Moment).Requests link k := ⟨e, rfl, asks⟩
        change g.Decision _ t ((g.openClaim k).submit (k.inquiry m.key) none).1
        rw [heq]
        refine .fails [k.inquiry m.key] (.refl _) (openClaim_claimsDistinct hd k) rfl (fun x u hx => ?_) ?_
        · rcases isOpen_openClaim hx with rfl | hbefore
          · exact .inr ⟨⟨link, requests⟩, openClaim_link hx⟩
          · exact .inl hbefore
        · intro v hv
          exact .inr (.inr ⟨link, k, m.key, requests, List.mem_singleton.mp hv⟩)
    · exact .calm (World.calm_emit _ fun h => h)
  | proves => exact .calm ((World.calm_sendElement _ _ rfl).trans (World.calm_reset _ _))
  | accepts => exact .calm ((g.openStream_calm link t).trans (acceptStream_calm _ _ _ _ _ _ _))

/-- What an operation does about claims made on a link that is not there for a route. -/
theorem step_decision (ho : g.Orderly) (hi : g.Indexed) (he : g.Exclusive) (hd : g.ClaimsDistinct)
    (foreign : ∀ r u, g.Tracks r u → u ≠ t) (op : Operation) : g.Decision op t (g.step op) := by
  cases op with
  | submit stanza resolved =>
    rw [step_submit]
    rcases (g.submit_step stanza resolved).calm_or foreign with hc | heq
    · exact .calm hc
    · rw [heq]
      refine .fails [stanza] (.refl _) hd rfl (fun _ _ => .inl) fun v hv => ?_
      exact .inr (.inl ⟨resolved, by rw [List.mem_singleton.mp hv]⟩)
  | inbound link event => exact (g.onInbound_step link event).decision hd foreign
  | outbound link event =>
    change g.Decision _ t (g.onOutbound link event)
    cases g.onOutbound_step ho hi he link event with
    | turned found hl turns serves follows =>
      rw [follows, ← hl]
      exact follow_decision hd hi found (foreign _ _ (.inl ⟨_, found, rfl⟩)) turns serves
    | gone found _ _ step => exact step.decision hd found
    | @carried x carries onRoute =>
      have free : g.attempts.get? link = none := by
        obtain ⟨c, hc, rfl⟩ := carries
        exact hi.apart x c hc
      rw [onRoute]
      exact onRoute_decision free ((he.carried link x).mpr carries) event
    | ignored _ still =>
      rw [still]
      exact .calm (.refl _)
  | sweep ahead =>
    rw [step_sweep]
    exact .calm (g.sweepAt_calm _)
  | releaseRoute route =>
    rw [step_releaseRoute]
    exact .calm (g.releaseRoute_calm route)
  | releaseClaim claim =>
    rw [step_releaseClaim]
    exact .calm (g.releaseClaim_calm claim)
  | wait duration => exact .calm (.of_trace rfl)
  | learn link facts => exact .calm (.of_trace rfl)

end Gateway

end Interdomain
