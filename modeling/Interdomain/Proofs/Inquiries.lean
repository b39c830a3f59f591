import Interdomain.Proofs.Domains
import Interdomain.Proofs.Exclusion
import Interdomain.Proofs.Vouching

/-! Where the requests are by which the authorities of claims are asked. A request waits for a negotiation,
or was written on a link that is there for its route, or the router has it. When a negotiation is given up
the claims of the requests that wait for it are settled; but a request that was written on a link is forgotten
with the link. -/
namespace Interdomain

open Protocol (Dialback)

/-- The route on which the authority of a claim is asked. -/
def Claim.route (k : Claim) : Route := ⟨k.source, k.destination⟩

/-- The request that asks the authority of a claim about a key. -/
def Claim.inquiry (k : Claim) (key : String) : Xml.Element :=
  Dialback.verify k.source k.destination k.challenge key

theorem Claim.names_inquiry (k : Claim) (key : String) : Dialback.Names (k.inquiry key) k := by
  simp [Dialback.Names, inquiry, Dialback.verify]

/-- The domains of a claim are short enough to be addressed. -/
def Claim.Fits (k : Claim) : Prop :=
  k.source.utf8ByteSize ≤ Jid.maxDomainBytes ∧ k.destination.utf8ByteSize ≤ Jid.maxDomainBytes

instance (k : Claim) : Decidable k.Fits := inferInstanceAs (Decidable (_ ∧ _))

/-- A turn leaves the requests that wait alone, and its stream no readier than it was, or it goes on and has
written them all. -/
def Turn.Flushes (t : Turn) (n : Negotiation) (w : World) : Prop :=
  t.negotiation.verifies = n.verifies ∧ (t.negotiation.ready = true → n.ready = true) ∨
    t.verdict = .proceed ∧ t.negotiation.verifies = [] ∧
      ∀ v ∈ n.verifies, .send n.link (.element v) ∈ t.world.since w

theorem World.trace_sendElements (w : World) (id : LinkId) (es : List Xml.Element) :
    (w.sendElements id es).trace = w.trace ++ es.map fun e => .send id (.element e) := by
  induction es generalizing w with
  | nil => simp [sendElements]
  | cons e es ih =>
    refine (ih (w.sendElement id e)).trans ?_
    simp [sendElement, send]

theorem World.mem_since_sendElements {P : CallKind → Prop} {w u : World} (h : World.Grows P w u) (id : LinkId)
    {es : List Xml.Element} {e : Xml.Element} (he : e ∈ es) :
    .send id (.element e) ∈ (u.sendElements id es).since w := by
  rw [World.since, trace_sendElements, h.since.1, List.append_assoc, List.drop_left]
  exact List.mem_append_right _ (List.mem_map_of_mem he)

namespace Negotiation

variable (n : Negotiation) (setup : Setup) (w : World)

theorem becomeReady_flushes : (n.becomeReady setup w).Flushes n w := by
  have flush (m : Negotiation) (u : World) (hm : (Turn.mk m u .proceed).Serves n w)
      (he : m.verifies = n.verifies) :
      (Turn.mk { m with verifies := [] } (u.sendElements m.link m.verifies) .proceed).Flushes n w := by
    refine .inr ⟨rfl, rfl, fun v hv => ?_⟩
    have hl : m.link = n.link := hm.link
    rw [hl, he]
    exact World.mem_since_sendElements hm.grows n.link hv
  unfold becomeReady
  have hself : (Turn.mk n w .proceed).Serves n w := n.serves_of_eq w rfl rfl rfl rfl rfl (.refl w)
  cases hr : n.request with
  | wantRequest =>
    have hs := { n with ready := true }.sendRequest_serves setup w
    exact flush _ _ ⟨hs.route, hs.link, hs.queue, hs.remaining, hs.verifies, hs.speaks⟩
      ({ n with ready := true }.verifies_sendRequest setup w)
  | notRequested =>
    simpa only [hr] using flush { n with ready := true, request := .couldRequest } w
      ⟨rfl, rfl, rfl, rfl, hself.verifies, .refl w⟩ rfl
  | couldRequest =>
    simpa only [hr] using flush { n with ready := true } w ⟨rfl, rfl, rfl, rfl, hself.verifies, .refl w⟩ rfl
  | sentRequest =>
    simpa only [hr] using flush { n with ready := true } w ⟨rfl, rfl, rfl, rfl, hself.verifies, .refl w⟩ rfl

theorem underPolicy_flushes (used : Policy.Mechanism) {next : Turn} (h : next.Flushes n w) :
    (n.underPolicy setup w used next).Flushes n w := by
  unfold underPolicy
  split
  · exact h
  · exact .inl ⟨rfl, id⟩

theorem onConnected_flushes : (n.onConnected setup w).Flushes n w := by
  refine .inl ?_
  unfold onConnected
  dsimp only
  split
  · exact ⟨rfl, id⟩
  · split <;> exact ⟨rfl, id⟩

theorem onAccepted_flushes (header : Stream.Header) : (n.onAccepted setup w header).Flushes n w := by
  unfold onAccepted
  split
  · exact n.underPolicy_flushes setup w _ (.inl ⟨rfl, id⟩)
  · split
    · exact .inl ⟨rfl, id⟩
    · split
      · exact .inl ⟨rfl, id⟩
      · exact n.underPolicy_flushes setup w _ (n.becomeReady_flushes setup w)

theorem onHeader_flushes (header : Stream.Header) (isOwn : String → Bool) :
    (n.onHeader setup w header isOwn).Flushes n w := by
  have same : (if n.stage = .saslSucceeded then n else { n with stage := .gotHeader }).verifies = n.verifies ∧
      (if n.stage = .saslSucceeded then n else { n with stage := .gotHeader }).link = n.link ∧
      (if n.stage = .saslSucceeded then n else { n with stage := .gotHeader }).ready = n.ready := by
    split <;> exact ⟨rfl, rfl, rfl⟩
  unfold onHeader
  dsimp only
  generalize (if n.stage = .saslSucceeded then n else { n with stage := .gotHeader }) = m at same ⊢
  obtain ⟨verifies, link, ready⟩ := same
  split
  · exact .inl ⟨verifies, ready ▸ id⟩
  · split
    · exact .inl ⟨verifies, ready ▸ id⟩
    · rename_i id _ _
      have h := onAccepted_flushes { m with streamId := some id, version := header.majorVersion } setup w header
      rw [Turn.Flushes] at h ⊢
      rw [← verifies, ← link, ← ready]
      exact h

theorem onFeatures_flushes (e : Xml.Element) : (n.onFeatures setup w e).Flushes n w := by
  unfold onFeatures
  split
  · exact .inl ⟨rfl, id⟩
  · dsimp only
    split
    · exact .inl ⟨rfl, id⟩
    · split
      · exact .inl ⟨rfl, id⟩
      · exact underPolicy_flushes { n with stage := .gotFeatures } setup w _ (becomeReady_flushes _ setup w)

theorem onElement_flushes (e : Xml.Element) : (n.onElement setup w e).Flushes n w := by
  unfold onElement
  repeat' split
  · exact n.onFeatures_flushes setup w e
  · exact .inl ⟨rfl, id⟩
  · unfold onTlsProceed
    dsimp only
    split <;> exact .inl ⟨rfl, id⟩
  · exact .inl ⟨rfl, id⟩
  · exact .inl ⟨rfl, id⟩
  · exact .inl ⟨rfl, id⟩
  · unfold onResult
    split
    · exact .inl ⟨rfl, id⟩
    · split
      · exact .inl ⟨rfl, id⟩
      · split <;> exact .inl ⟨rfl, id⟩
  · exact .inl ⟨rfl, id⟩
  · exact .inl ⟨rfl, id⟩

end Negotiation

namespace Gateway

variable {g g' : Gateway} {r : Route} {v : Xml.Element} {n : Negotiation} {k : Claim} {t : LinkId}

theorem turnOn_flushes {event : LinkEvent} {turn : Turn} (h : g.turnOn n event = some turn) :
    turn.Flushes n g.world := by
  cases event with
  | connected =>
    cases h
    exact n.onConnected_flushes g.setup g.world
  | header header =>
    cases h
    exact n.onHeader_flushes g.setup g.world header _
  | element e =>
    cases h
    exact n.onElement_flushes g.setup g.world e
  | closed error => cases h

/-- An open claim is settled as refused: it is open no longer, and the peer that made it hears of it. -/
def Refused (g g' : Gateway) (k : Claim) (t : LinkId) : Prop :=
  (∀ u, ¬ g'.IsOpen k u) ∧
    .send t (.element (Dialback.resultReply k.source k.destination false)) ∈ g'.world.since g.world

/-- The claim stays open, or is settled as refused. -/
def Remains (g g' : Gateway) (k : Claim) (t : LinkId) : Prop := g'.IsOpen k t ∨ Refused g g' k t

/-- An open claim is refused when its request has failed. -/
theorem settle_refused (hd : g.ClaimsDistinct) (ho : g.IsOpen k t) : Refused g (g.settle k false) k t := by
  have h := g.settle_step k false
  generalize g.settle k false = g' at h ⊢
  cases h with
  | ignored closed => exact absurd ho (closed t)
  | @refused u isOpen =>
    cases ho.link_eq isOpen
    refine ⟨fun u h => ((isOpen_closeClaim hd k k u).mp h).1 rfl, ?_⟩
    exact World.mem_since_sendElement (.refl (P := CallKind.IsPlain) g.world) _ _

theorem settle_isOpen (hd : g.ClaimsDistinct) {other : Claim} (ho : g.IsOpen k t) (hne : k ≠ other) :
    (g.settle other false).IsOpen k t := by
  have h := g.settle_step other false
  generalize g.settle other false = g' at h ⊢
  cases h with
  | ignored _ => exact ho
  | refused _ => exact (isOpen_closeClaim hd other k t).mpr ⟨hne, ho⟩

theorem failVerify_remains (hd : g.ClaimsDistinct) (ho : g.IsOpen k t) (v : Xml.Element) :
    Remains g (g.failVerify v) k t := by
  rcases g.failVerify_cases v with ⟨other, hk⟩ | heq
  · rw [failVerify_of_names hk]
    by_cases h : k = other
    · exact .inr (h ▸ settle_refused hd (h ▸ ho))
    · exact .inl (settle_isOpen hd ho h)
  · rw [heq]
    exact .inl ho

theorem Refused.after {g₁ : Gateway} (h : Refused g g₁ k t) {P : CallKind → Prop} (hf : Fades P g₁ g') :
    Refused g g' k t := ⟨fun u ho => h.1 u (hf.isOpen ho), hf.grows.mem_since h.2⟩

theorem Refused.before {g₁ : Gateway} {P : CallKind → Prop} (hw : World.Grows P g.world g₁.world)
    (h : Refused g₁ g' k t) {Q : CallKind → Prop} (hk : World.Grows Q g₁.world g'.world) : Refused g g' k t :=
  ⟨h.1, (hw.mem_since_iff hk).mpr (.inr h.2)⟩

/-- Of the requests that fail together, one is for the claim. -/
theorem foldl_failVerify_refused (hd : g.ClaimsDistinct) (ho : g.IsOpen k t) (names : Dialback.Names v k)
    {vs : List Xml.Element} (hv : v ∈ vs) : Refused g (vs.foldl failVerify g) k t := by
  induction vs generalizing g with
  | nil => cases hv
  | cons w vs ih =>
    have hrest := foldl_failVerify_fades (g.failVerify w) vs
    rcases failVerify_remains hd ho w with hopen | hrefused
    · rcases List.mem_cons.mp hv with rfl | hv
      · rw [failVerify_of_names names] at hopen
        exact absurd hopen ((settle_refused hd ho).1 t)
      · have hd' := (g.failVerify_fades w).claimsDistinct hd
        exact (ih hd' hopen hv).before (g.failVerify_fades w).grows hrest.grows
    · exact hrefused.after hrest

/-- The request waits for the negotiation of the route. -/
def Holds (g : Gateway) (r : Route) (v : Xml.Element) : Prop :=
  ∃ n, g.negotiations.get? r = some n ∧ v ∈ n.verifies

/-- The request was written on a link that is there for the route. -/
def Wrote (g : Gateway) (r : Route) (v : Xml.Element) : Prop :=
  ∃ t, .send t (.element v) ∈ g.world.trace ∧ g.Tracks r t

/-- What waits for a negotiation goes on waiting. -/
def KeepsHeld (g g' : Gateway) : Prop :=
  ∀ r n, g.negotiations.get? r = some n → n.verifies ≠ [] →
    ∃ n', g'.negotiations.get? r = some n' ∧ n.verifies ⊆ n'.verifies

theorem KeepsHeld.holds (h : KeepsHeld g g') (hv : g.Holds r v) : g'.Holds r v := by
  obtain ⟨n, hn, hm⟩ := hv
  obtain ⟨n', hn', hs⟩ := h r n hn (List.ne_nil_of_mem hm)
  exact ⟨n', hn', hs hm⟩

namespace KeepsHeld

theorem of_eq (h : g'.negotiations = g.negotiations) : KeepsHeld g g' :=
  fun _ n hn _ => ⟨n, by rw [h, hn], List.Subset.refl _⟩

theorem refl (g : Gateway) : KeepsHeld g g := .of_eq rfl

theorem trans {f g h : Gateway} (a : KeepsHeld f g) (b : KeepsHeld g h) : KeepsHeld f h := by
  intro r n hn hne
  obtain ⟨n₁, h₁, s₁⟩ := a r n hn hne
  have hne₁ : n₁.verifies ≠ [] := by
    intro h
    rw [h, List.subset_nil] at s₁
    exact hne s₁
  obtain ⟨n₂, h₂, s₂⟩ := b r n₁ h₁ hne₁
  exact ⟨n₂, h₂, List.Subset.trans s₁ s₂⟩

/-- A negotiation changes and loses nothing that waits for it. -/
theorem of_insert {m : Negotiation} (hg : g'.negotiations = g.negotiations.insert r m)
    (hv : ∀ n, g.negotiations.get? r = some n → n.verifies ⊆ m.verifies) : KeepsHeld g g' := by
  intro x n hn _
  rw [hg, Table.get?_insert]
  split
  · rename_i hx
    exact ⟨m, rfl, hv n (hx ▸ hn)⟩
  · exact ⟨n, hn, List.Subset.refl _⟩

end KeepsHeld

theorem KeepsOutbound.keepsHeld (h : KeepsOutbound g g') : KeepsHeld g g' := .of_eq h.negotiations

theorem hold_keepsHeld (hn : g.negotiations.get? n.route = some n) (stanza : Xml.Element) :
    KeepsHeld g (g.hold n stanza).1 := by
  have same {x : Negotiation} (hx : g.negotiations.get? n.route = some x) : x = n := by
    rw [hn] at hx
    exact (Option.some.inj hx).symm
  unfold hold
  split
  · unfold Negotiation.addVerify
    dsimp only
    split
    · exact .of_insert (r := n.route) (m := n) rfl fun x hx => same hx ▸ List.Subset.refl _
    · exact .of_insert (r := n.route) (m := { n with verifies := n.verifies ++ [stanza] }) rfl
        fun x hx => same hx ▸ List.subset_append_left _ _
  · exact .of_insert (r := n.route) (m := n.enqueue stanza g.now) rfl fun x hx => same hx ▸ List.Subset.refl _

theorem SubmitStep.keepsHeld {stanza : Xml.Element} {s : Gateway × Delivery} (h : g.SubmitStep stanza s)
    (ho : g.Orderly) : KeepsHeld g s.1 := by
  cases h with
  | carried _ _ => exact .of_eq rfl
  | @asked x n _ _ found =>
    have hr := ho.route x n found
    have hs : KeepsHeld g (g.setNegotiation n g.world) := by
      refine .of_insert (r := n.route) (m := n) rfl fun m hm => ?_
      rw [hr, found] at hm
      cases hm
      exact List.Subset.refl _
    exact hs.trans (hold_keepsHeld (by simp [setNegotiation, Table.get?_insert]) stanza)
  | @joined x n _ _ found =>
    have hr := ho.route x n found
    have hs : KeepsHeld g (g.setNegotiation (n.want g.setup g.world).1 (n.want g.setup g.world).2) := by
      refine .of_insert (r := (n.want g.setup g.world).1.route) (m := (n.want g.setup g.world).1) rfl fun m hm => ?_
      rw [(n.want_serves g.setup g.world).route, hr, found] at hm
      cases hm
      rw [n.verifies_want]
      exact List.Subset.refl _
    exact hs.trans (hold_keepsHeld (by simp [setNegotiation, Table.get?_insert]) stanza)
  | @began n w _ free _ _ _ _ =>
    have hs : KeepsHeld g (g.putNegotiation n w) := by
      refine .of_insert (r := n.route) (m := n) rfl fun m hm => ?_
      rw [free] at hm
      cases hm
    exact hs.trans (hold_keepsHeld (by simp [putNegotiation, Table.get?_insert]) stanza)
  | refused _ _ _ => exact (g.failVerify_keepsOutbound _).keepsHeld
  | dropped _ _ => exact .refl g
  | returned _ => exact .of_eq rfl

theorem releaseRoute_keepsHeld (g : Gateway) (route : Route) : KeepsHeld g (g.releaseRoute route).1 := by
  unfold releaseRoute
  split
  · exact .refl g
  · exact .of_eq (setRoutes_negotiations _ _)

theorem onRoute_keepsHeld (g : Gateway) (route : Route) (link : LinkId) (event : LinkEvent) :
    KeepsHeld g (g.onRoute route link event) := by
  have dropped (g : Gateway) : KeepsHeld g (g.dropRoute route link) := .of_eq (setRoutes_negotiations _ _)
  unfold onRoute
  split
  · exact .refl g
  · exact .refl g
  · exact dropped g
  · split
    · have carried : KeepsHeld g { g with routes := g.routes.modify route (·.carry g.now) } := .of_eq rfl
      exact carried.trans (onVerify_keepsOutbound _ _ _).keepsHeld
    · split
      · exact (g.act_keepsOutbound _).keepsHeld.trans (dropped _)
      · exact (g.act_keepsOutbound _).keepsHeld.trans (dropped _)

/-- A negotiation that nothing waits for holds no request that could be lost with it. -/
theorem retire_keepsHeld (hn : g.negotiations.get? r = some n) (idle : n.isIdle = true) :
    KeepsHeld g (g.retire r false) := by
  simp only [Negotiation.isIdle, Bool.and_eq_true, List.isEmpty_iff] at idle
  rw [retire_eq hn]
  intro x m hm hne
  rw [(return_keepsOutbound _ _ _ _).negotiations, discard_negotiations, Table.get?_erase]
  split
  · rename_i hx
    rw [hx, hn] at hm
    cases hm
    exact absurd idle.2 hne
  · exact ⟨m, hm, List.Subset.refl _⟩

theorem sweepQueue_keepsHeld (ho : g.Orderly) (now : Nat) (route : Route) :
    KeepsHeld g (sweepQueue now g route).1 := by
  refine sweepQueue_relation .refl (fun _ _ _ => .trans) (fun n hn => ?_)
    (fun g stanzas reason => (g.foldl_bounce_keepsOutbound stanzas reason).keepsHeld)
    fun _ _ => retire_keepsHeld
  have hr := ho.route route n hn
  refine .of_insert (r := n.route) (m := n.dropExpired now g.setup.settings.queueTimeout) rfl fun m hm => ?_
  rw [hr, hn] at hm
  cases hm
  exact List.Subset.refl _

theorem sweepAt_keepsHeld (ho : g.Orderly) (now : Nat) : KeepsHeld g (g.sweepAt now).1 :=
  ho.sweepAt_relation .refl (fun _ _ _ => .trans) (fun _ _ _ => KeepsOutbound.keepsHeld) releaseRoute_keepsHeld
    fun _ ho => sweepQueue_keepsHeld ho now

/-- An open claim that the request is for is settled as refused. -/
def Fails (g g' : Gateway) (v : Xml.Element) : Prop :=
  ∀ k key t, v = Claim.inquiry k key → g.IsOpen k t → Refused g g' k t

/-- The request waits, or was written on a link that is there for its route, or has failed. -/
inductive Accounted (g g' : Gateway) (r : Route) (v : Xml.Element) : Prop
  | holds (holds : g'.Holds r v)
  | wrote (wrote : g'.Wrote r v)
  | fails (fails : Fails g g' v)

theorem Fails.before {g₁ : Gateway} (h : KeepsInbound g g₁) {P Q : CallKind → Prop}
    (hw : World.Grows P g.world g₁.world) (hf : Fails g₁ g' v) (hk : World.Grows Q g₁.world g'.world) :
    Fails g g' v := by
  intro k key t hv ho
  exact (hf k key t hv (h.isOpen_iff.mpr ho)).before hw hk

/-- A negotiation ends, and its stanzas return, without the streams of peers. -/
theorem discard_keepsInbound (g : Gateway) (r : Route) (n : Negotiation) (linkGone : Bool) :
    KeepsInbound g (n.stanzas.foldl (fun g s => g.emit (.bounce s n.failureReason)) (g.discard r n linkGone)) := by
  have hdiscard : KeepsInbound g (g.discard r n linkGone) := by cases linkGone <;> exact ⟨rfl, rfl, rfl, rfl⟩
  exact hdiscard.trans (foldl_relation .refl (fun _ _ _ => .trans) (fun g _ _ => g.act_keepsInbound _) _)

/-- A claim is settled as refused when the negotiation on which its request waits is given up. -/
theorem retire_refused (hd : g.ClaimsDistinct) (hn : g.negotiations.get? r = some n) (linkGone : Bool)
    (hv : v ∈ n.verifies) (names : Dialback.Names v k) (ho : g.IsOpen k t) :
    Refused g (g.retire r linkGone) k t := by
  have hk := g.discard_keepsInbound r n linkGone
  have hw := (((g.discard_fades r n linkGone).mono fun _ => .inl).trans
    (foldl_bounce_fades _ n.stanzas n.failureReason)).grows
  rw [retire_eq hn]
  exact (foldl_failVerify_refused (hk.claimsDistinct hd) (hk.isOpen_iff.mpr ho) names hv).before hw
    (foldl_failVerify_fades _ n.verifies).grows

/-- The requests that wait for a negotiation fail when it is given up. -/
theorem retire_fails (hd : g.ClaimsDistinct) (hn : g.negotiations.get? r = some n) (linkGone : Bool)
    (hv : v ∈ n.verifies) : Fails g (g.retire r linkGone) v := by
  rintro k key t rfl ho
  exact retire_refused hd hn linkGone hv (k.names_inquiry key) ho

/-- The requests that wait for a negotiation are written when it is authorized. -/
theorem establish_wrote (hn : g.negotiations.get? r = some n) (hv : v ∈ n.verifies) : (g.establish r).Wrote r v := by
  obtain ⟨carrier, hl, heq⟩ := establish_eq hn
  refine ⟨n.link, ?_, .inr ⟨carrier, ?_, hl⟩⟩
  · have hw := (g.handOver r n).setRoutes_grows CallKind.isPlain (g.routes.register r carrier)
    rw [heq]
    refine hw.since.1 ▸ List.mem_append_left _ ?_
    simp only [handOver, World.trace_sendElements, List.mem_append, List.mem_map]
    exact .inl (.inr ⟨v, hv, rfl⟩)
  · rw [heq]
    simp only [setRoutes_routes, Registry.get?_register, if_pos]

theorem follow_accounted (hd : g.ClaimsDistinct) {event : LinkEvent} {turn : Turn}
    (turns : g.turnOn n event = some turn) (hs : turn.Serves n g.world) (hv : v ∈ n.verifies) :
    Accounted g (g.follow turn) n.route v := by
  have set : (g.setNegotiation turn.negotiation turn.world).negotiations.get? n.route = some turn.negotiation := by
    simp [setNegotiation, Table.get?_insert, hs.route]
  have rest : (g.follow turn).negotiations.get? n.route = turn.rest := by
    rw [get?_follow, hs.route, if_pos rfl]
  rcases turnOn_flushes turns with ⟨hsame, _⟩ | ⟨hproceed, _, hwritten⟩
  · cases hverdict : turn.verdict with
    | proceed =>
      rw [Turn.rest, hverdict] at rest
      exact .holds ⟨_, rest, hsame ▸ hv⟩
    | verify e =>
      rw [Turn.rest, hverdict] at rest
      exact .holds ⟨_, rest, hsame ▸ hv⟩
    | authorize =>
      have hf : g.follow turn = (g.setNegotiation turn.negotiation turn.world).establish n.route := by
        simp only [follow, hverdict, hs.route]
      rw [hf]
      exact .wrote (establish_wrote set (hsame ▸ hv))
    | giveUp =>
      have hf : g.follow turn = (g.setNegotiation turn.negotiation turn.world).retire n.route false := by
        simp only [follow, hverdict, hs.route]
      have hk := g.setNegotiation_keepsInbound turn.negotiation turn.world
      rw [hf]
      exact .fails (Fails.before hk hs.grows (retire_fails (hk.claimsDistinct hd) set false (hsame ▸ hv))
        (retire_fades _ _ _).grows)
  · rw [Turn.rest, hproceed] at rest
    refine .wrote ⟨n.link, ?_, .inl ⟨_, rest, hs.link⟩⟩
    have hm := (g.grows_follow turn).mem_since (hwritten v hv)
    exact List.mem_of_mem_drop hm

theorem ClosedStep.accounted (h : g.ClosedStep n g') (hd : g.ClaimsDistinct) (hv : v ∈ n.verifies) :
    Accounted g g' n.route v := by
  cases h with
  | @advanced m k w route _ verifies advances _ =>
    obtain ⟨_, hk, _, hkv⟩ := Negotiation.advance?_begins advances
    refine .holds ⟨k, ?_, ?_⟩
    · simp [putNegotiation, Table.get?_insert, hk, route]
    · rw [hkv, verifies]
      exact hv
  | @retired m route _ verifies _ =>
    have hk : KeepsInbound g { g.setNegotiation m g.world with attempts := g.attempts.erase m.link } :=
      ⟨rfl, rfl, rfl, rfl⟩
    have hf := retire_fails (hk.claimsDistinct hd) (r := m.route) (n := m)
      (by simp [setNegotiation, Table.get?_insert]) true (verifies ▸ hv)
    exact .fails (Fails.before (P := CallKind.IsPlain) hk (.refl _) hf (retire_fades _ _ _).grows)

theorem onOutbound_accounted (ho : g.Orderly) (hi : g.Indexed) (he : g.Exclusive) (hd : g.ClaimsDistinct)
    (t : LinkId) (event : LinkEvent) (hh : g.Holds r v) : Accounted g (g.onOutbound t event) r v := by
  obtain ⟨k, hk, hv⟩ := hh
  cases g.onOutbound_step ho hi he t event with
  | @turned n turn found _ turns serves follows =>
    rw [follows]
    by_cases hr : r = n.route
    · subst hr
      rw [found] at hk
      cases hk
      exact follow_accounted hd turns serves hv
    · refine .holds ⟨k, ?_, hv⟩
      rw [get?_follow, serves.route, if_neg hr, hk]
  | @gone n found _ _ step =>
    by_cases hr : r = n.route
    · subst hr
      rw [found] at hk
      cases hk
      exact step.accounted hd hv
    · exact .holds ⟨k, (step.get?_other hr).trans hk, hv⟩
  | @carried x _ onRoute =>
    rw [onRoute]
    exact .holds ((g.onRoute_keepsHeld x t event).holds ⟨k, hk, hv⟩)
  | ignored _ still =>
    rw [still]
    exact .holds ⟨k, hk, hv⟩

theorem GoesTo.unique {x : Route} (h : GoesTo v r) (k : GoesTo v x) : x = r := by
  obtain ⟨a, ha, rfl⟩ := h
  obtain ⟨b, hb, rfl⟩ := k
  rw [ha] at hb
  cases hb
  rfl

/-- A request that is left with a negotiation waits for it, or is written on its link. -/
theorem hold_accounted (hv : Dialback.isVerify v = true) (n : Negotiation) :
    (g.hold n v).1.Holds n.route v ∨ (g.hold n v).1.Wrote n.route v := by
  unfold hold
  rw [if_pos hv]
  unfold Negotiation.addVerify
  dsimp only
  split
  · refine .inr ⟨n.link, ?_, .inl ⟨n, ?_, rfl⟩⟩
    · simp [setNegotiation, World.sendElement, World.send]
    · simp [setNegotiation, Table.get?_insert]
  · exact .inl ⟨{ n with verifies := n.verifies ++ [v] }, by simp [setNegotiation, Table.get?_insert], by simp⟩

theorem SubmitStep.accounted {s : Gateway × Delivery} (h : g.SubmitStep v s) (ho : g.Orderly) (hd : g.ClaimsDistinct)
    (hv : Dialback.isVerify v = true) (goes : GoesTo v r) : Accounted g s.1 r v := by
  have held (g' : Gateway) {n : Negotiation} (hr : n.route = r) : Accounted g (g'.hold n v).1 r v := by
    subst hr
    rcases hold_accounted (g := g') hv n with h | h
    · exact .holds h
    · exact .wrote h
  cases h with
  | @carried x c gone found =>
    rw [goes.unique gone]
    refine .wrote ⟨c.link, ?_, .inr (((g.carryRoute_retains r).route r c.link).mpr ⟨c, ?_, rfl⟩)⟩
    · simp [World.sendElement, World.send]
    · rw [← goes.unique gone]
      exact found
  | @asked x n gone _ found => exact held _ ((ho.route x n found).trans (goes.unique gone))
  | joined _ plain _ =>
    rw [hv] at plain
    cases plain
  | began gone _ _ _ _ _ => exact held _ (goes.unique gone)
  | refused _ _ _ =>
    refine .fails ?_
    rintro k key t rfl hopen
    rw [failVerify_of_names (k.names_inquiry key)]
    exact settle_refused hd hopen
  | dropped lost _ =>
    obtain ⟨a, ha, _⟩ := goes
    exact absurd ha (lost a)
  | returned plain =>
    rw [hv] at plain
    cases plain

theorem goesTo_inquiry {key : String} (hs : Jid.IsNormal k.source) (hd : Jid.IsNormal k.destination)
    (hf : k.Fits) : GoesTo (k.inquiry key) k.route :=
  ⟨_, Dialback.addresses_verify hs hd hf k.challenge key, rfl⟩

/-- A request that waits goes on waiting, is written, or fails. -/
theorem step_accounted {h : List Moment} (hc : Connected h g) (hd : g.ClaimsDistinct) (op : Operation)
    (hh : g.Holds r v) : Accounted g (g.step op) r v := by
  obtain ⟨ho, hi, he, _⟩ := hc
  cases op with
  | submit stanza resolved =>
    rw [step_submit]
    exact .holds (((g.submit_step stanza resolved).keepsHeld ho).holds hh)
  | inbound link event =>
    change Accounted g (g.onInbound link event) r v
    rcases (g.onInbound_step link event).answers with ⟨hk, _⟩ | ⟨e, claim, key, _, _, heq⟩
    · exact .holds (hk.keepsHeld.holds hh)
    · rw [heq]
      unfold dispatchVerify
      split
      · exact .holds ((((g.openClaim claim).submit_step _ none).keepsHeld ⟨ho.route, ho.verifies⟩).holds hh)
      · exact .holds hh
  | outbound link event => exact onOutbound_accounted ho hi he hd link event hh
  | sweep ahead =>
    rw [step_sweep]
    exact .holds ((sweepAt_keepsHeld ho _).holds hh)
  | releaseRoute route =>
    rw [step_releaseRoute]
    exact .holds ((g.releaseRoute_keepsHeld route).holds hh)
  | releaseClaim claim =>
    rw [step_releaseClaim]
    exact .holds ((g.releaseClaim_keepsOutbound claim).keepsHeld.holds hh)
  | wait duration => exact .holds hh
  | learn link facts => exact .holds hh

end Gateway

end Interdomain
