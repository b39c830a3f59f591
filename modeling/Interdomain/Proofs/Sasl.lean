import Interdomain.Proofs.Exclusion

/-! Routes that are authorized by SASL. The gateway takes the peer's word that SASL has succeeded whenever it
comes, asks the policy at every header after that, and authorizes the route at the next features. Whether SASL
was asked for at all shows only if the word came while the gateway waited for it. -/
namespace Interdomain

open Protocol (Dialback)

namespace Negotiation

variable (n : Negotiation) (setup : Setup) (w : World)

/-- How a turn of a negotiation bears on SASL: it begins with a request that is written, it succeeds with the
peer's word, and after that the policy has to accept it at every header. -/
structure Shifts (event : LinkEvent) (isOwn : String → Bool) (t : Turn) : Prop where
  started : t.negotiation.stage = .saslStarted → n.stage = .saslStarted ∨
    .send n.link (.element (Protocol.saslAuth n.route.source)) ∈ t.world.since w
  succeeded : t.negotiation.stage = .saslSucceeded → n.stage = .saslSucceeded ∨
    ∃ e, event = .element e ∧ e.is "success" Xml.Namespace.sasl = true
  checked : n.stage = .saslSucceeded → t.verdict ≠ .giveUp → ∀ header id, event = .header header →
    header.id = some id → id ≠ "" → isOwn id = false →
    setup.policy.check n.route.destination .sasl (w.link n.link).level = .ok ()

variable {event : LinkEvent} {isOwn : String → Bool} {t : Turn}

/-- A turn without a header after which the stage is the same, or has nothing to do with SASL. -/
theorem shifts_of_stage (h : t.negotiation.stage = n.stage ∨
      t.negotiation.stage ≠ .saslStarted ∧ t.negotiation.stage ≠ .saslSucceeded)
    (headless : ∀ header, event ≠ .header header) : n.Shifts setup w event isOwn t := by
  refine ⟨fun hs => ?_, fun hs => ?_, fun _ _ header _ he => absurd he (headless header)⟩
  · rcases h with h | h
    · exact .inl (h ▸ hs)
    · exact absurd hs h.1
  · rcases h with h | h
    · exact .inl (h ▸ hs)
    · exact absurd hs h.2

theorem sendRequest_stage :
    (n.sendRequest setup w).1.stage = n.stage ∨ (n.sendRequest setup w).1.stage = .sentRequest := by
  unfold sendRequest
  split
  · exact .inr rfl
  · exact .inl rfl

theorem want_stage : (n.want setup w).1.stage = n.stage ∨ (n.want setup w).1.stage = .sentRequest := by
  unfold want
  split
  · exact .inl rfl
  · exact n.sendRequest_stage setup w
  · exact .inl rfl
  · exact .inl rfl

theorem becomeReady_stage : (n.becomeReady setup w).negotiation.stage = n.stage ∨
    (n.becomeReady setup w).negotiation.stage = .sentRequest := by
  unfold becomeReady
  cases n.request with
  | wantRequest => exact sendRequest_stage { n with ready := true } setup w
  | notRequested => exact .inl rfl
  | couldRequest => exact .inl rfl
  | sentRequest => exact .inl rfl

theorem underPolicy_stage (used : Policy.Mechanism) (next : Turn) :
    (n.underPolicy setup w used next).negotiation.stage = next.negotiation.stage ∨
      (n.underPolicy setup w used next).negotiation.stage = n.stage := by
  unfold underPolicy
  split
  · exact .inl rfl
  · exact .inr rfl

theorem onConnected_shifts : n.Shifts setup w .connected isOwn (n.onConnected setup w) := by
  refine n.shifts_of_stage setup w ?_ (by simp)
  unfold onConnected
  dsimp only
  split
  · exact .inl rfl
  · exact .inr ⟨by simp, by simp⟩

theorem onFeatures_shifts (e : Xml.Element) :
    n.Shifts setup w (.element e) isOwn (n.onFeatures setup w e) := by
  unfold onFeatures
  split
  · exact n.shifts_of_stage setup w (.inl rfl) (by simp)
  · dsimp only
    split
    · exact n.shifts_of_stage setup w (.inr ⟨by simp, by simp⟩) (by simp)
    · split
      · refine ⟨fun _ => .inr ?_, ?_, ?_⟩
        · exact World.mem_since_sendElement (.refl (P := CallKind.IsPlain) w) _ _
        · intro hs
          cases hs
        · intro _ _ header _ he
          cases he
      · refine n.shifts_of_stage setup w (.inr ?_) (by simp)
        rcases underPolicy_stage { n with stage := .gotFeatures } setup w .dialback
          (becomeReady { n with stage := .gotFeatures } setup w) with hs | hs
        · rw [hs]
          rcases becomeReady_stage { n with stage := .gotFeatures } setup w with hs | hs <;> simp [hs]
        · simp [hs]

theorem onElement_shifts (e : Xml.Element) :
    n.Shifts setup w (.element e) isOwn (n.onElement setup w e) := by
  have same {t : Turn} (h : t.negotiation.stage = n.stage) : n.Shifts setup w (.element e) isOwn t :=
    n.shifts_of_stage setup w (.inl h) (by simp)
  have apart {t : Turn} (h : t.negotiation.stage ≠ .saslStarted ∧ t.negotiation.stage ≠ .saslSucceeded) :
      n.Shifts setup w (.element e) isOwn t := n.shifts_of_stage setup w (.inr h) (by simp)
  unfold onElement
  repeat' split
  · exact n.onFeatures_shifts setup w e
  · exact same rfl
  · unfold onTlsProceed
    dsimp only
    split
    · exact apart ⟨by simp, by simp⟩
    · exact same rfl
  · exact same rfl
  · rename_i hs
    refine ⟨?_, fun _ => .inr ⟨e, rfl, hs⟩, ?_⟩
    · intro h
      cases h
    · intro _ _ header _ he
      cases he
  · exact apart ⟨by simp [note], by simp [note]⟩
  · unfold onResult
    split
    · exact same rfl
    · split
      · exact same rfl
      · split
        · exact apart ⟨by simp, by simp⟩
        · exact apart ⟨by simp [note], by simp [note]⟩
  · exact same rfl
  · exact same rfl

/-- After a header that comes before SASL has succeeded the stage has nothing to do with SASL. -/
theorem onAccepted_stage (hs : n.stage = .gotHeader) (header : Stream.Header) :
    (n.onAccepted setup w header).negotiation.stage ≠ .saslStarted ∧
      (n.onAccepted setup w header).negotiation.stage ≠ .saslSucceeded := by
  unfold onAccepted
  rw [if_neg (by simp [hs])]
  split
  · exact ⟨by simp, by simp⟩
  · split
    · exact ⟨by simp [complain, note, hs], by simp [complain, note, hs]⟩
    · rcases n.underPolicy_stage setup w .dialback (n.becomeReady setup w) with h | h
      · rw [h]
        rcases n.becomeReady_stage setup w with h | h <;> simp [h, hs]
      · simp [h, hs]

theorem onHeader_shifts (header : Stream.Header) :
    n.Shifts setup w (.header header) isOwn (n.onHeader setup w header isOwn) := by
  unfold onHeader
  by_cases hs : n.stage = .saslSucceeded
  · simp only [if_pos hs]
    split
    · rename_i hid
      refine ⟨fun h => .inl h, fun h => .inl h, ?_⟩
      intro _ _ header' id heq hh hne _
      cases heq
      simp [hh, hne] at hid
    · rename_i id hid
      split
      · rename_i hown
        refine ⟨fun h => .inl h, fun h => .inl h, ?_⟩
        intro _ _ header' id' heq hh hne hforeign
        cases heq
        obtain ⟨hid, _⟩ : id' = id ∧ id ≠ "" := by simpa [hh] using hid
        rw [← hid, hforeign] at hown
        cases hown
      · unfold onAccepted
        rw [if_pos hs]
        unfold underPolicy
        split
        · rename_i hok
          exact ⟨fun h => .inl h, fun h => .inl h, fun _ _ _ _ _ _ _ _ => hok⟩
        · exact ⟨fun h => .inl h, fun h => .inl h, fun _ h => absurd rfl h⟩
  · simp only [if_neg hs]
    have apart {t : Turn} (h : t.negotiation.stage ≠ .saslStarted ∧ t.negotiation.stage ≠ .saslSucceeded) :
        n.Shifts setup w (.header header) isOwn t :=
      ⟨fun hk => absurd hk h.1, fun hk => absurd hk h.2, fun hk => absurd hk hs⟩
    split
    · exact apart ⟨by simp [complain, note], by simp [complain, note]⟩
    · split
      · exact apart ⟨by simp [complain, note], by simp [complain, note]⟩
      · exact apart (onAccepted_stage _ setup w rfl header)

end Negotiation

/-- Where a negotiation comes from, as far as its progress goes: it was there and no event came on its link, it
has taken its turn at an event, or it has just begun on a new link. -/
inductive Moment.Descends (m : Moment) (r : Route) (k : Negotiation) : Prop
  | stays {n : Negotiation} (found : m.gateway.negotiations.get? r = some n)
      (quiet : ∀ event, m.operation ≠ .outbound n.link event) (link : k.link = n.link)
      (stage : k.stage = n.stage ∨ k.stage = .sentRequest)
  | turned {n : Negotiation} {event : LinkEvent} {turn : Turn}
      (found : m.gateway.negotiations.get? r = some n) (happens : m.operation = .outbound n.link event)
      (turns : m.gateway.turnOn n event = some turn) (lasts : turn.verdict ≠ .giveUp) (link : k.link = n.link)
      (stage : k.stage = turn.negotiation.stage) (calls : ∀ e ∈ turn.world.since m.gateway.world, e ∈ m.calls)
  | begins (opens : m.Opens r k.link) (stage : k.stage = .connecting)

namespace Gateway

variable {m : Moment} {g g' : Gateway} {n k : Negotiation} {r : Route} {op : Operation}

/-- What dwindles makes no progress. -/
theorem Dwindles.descends (hd : Dwindles g g') (hg : m.gateway.negotiations = g.negotiations)
    (quiet : ∀ n, g.negotiations.get? r = some n → ∀ event, m.operation ≠ .outbound n.link event)
    (hk : g'.negotiations.get? r = some k) : m.Descends r k := by
  obtain ⟨n, hn, hp⟩ := hd.negotiation r k hk
  simp only [Negotiation.progress, Prod.mk.injEq] at hp
  exact .stays (hg ▸ hn) (quiet n hn) hp.1 (.inl hp.2.2.2.2)

theorem SubmitStep.descends {stanza : Xml.Element} {s : Gateway × Delivery} (h : g.SubmitStep stanza s)
    (ho : g.Orderly) (hg : m.gateway.negotiations = g.negotiations) (hw : m.gateway.world = g.world)
    (next : m.next = s.1) (quiet : ∀ t event, m.operation ≠ .outbound t event)
    (hk : s.1.negotiations.get? r = some k) : m.Descends r k := by
  have ended (hd : Dwindles g s.1) : m.Descends r k := hd.descends hg (fun n _ => quiet n.link) hk
  have stays {n : Negotiation} (hn : g.negotiations.get? r = some n) (link : k.link = n.link)
      (stage : k.stage = n.stage ∨ k.stage = .sentRequest) : m.Descends r k :=
    .stays (hg ▸ hn) (quiet n.link) link stage
  cases h with
  | carried _ _ => exact stays hk rfl (.inl rfl)
  | @asked x n _ _ found =>
    have hr := ho.route x n found
    have hs : Dwindles g (g.setNegotiation n g.world) := by
      refine .of_insert (r := x) (m := n) found rfl ?_ rfl rfl (.refl _)
      rw [← hr]
      rfl
    exact ended (hs.trans (hold_dwindles (by simp [setNegotiation, Table.get?_insert]) stanza))
  | @joined x n _ _ found =>
    have hr := ho.route x n found
    have hs := n.want_serves g.setup g.world
    obtain ⟨k₀, h₀, hp⟩ := (hold_dwindles (g := g.setNegotiation (n.want g.setup g.world).1
      (n.want g.setup g.world).2) (by simp [setNegotiation, Table.get?_insert]) stanza).negotiation r k hk
    simp only [Negotiation.progress, Prod.mk.injEq] at hp
    simp only [setNegotiation, Table.get?_insert] at h₀
    split at h₀
    · rename_i hx
      cases h₀
      have hx : r = x := hx.trans (hs.route.trans hr)
      subst hx
      refine stays found (hp.1.trans hs.link) ?_
      rw [hp.2.2.2.2]
      exact n.want_stage g.setup g.world
    · exact stays h₀ hp.1 (.inl hp.2.2.2.2)
  | @began n w _ _ _ begins _ _ =>
    have hh := hold_dwindles (g := g.putNegotiation n w) (n := n) (by simp [putNegotiation, Table.get?_insert]) stanza
    obtain ⟨k₀, h₀, hp⟩ := hh.negotiation r k hk
    simp only [Negotiation.progress, Prod.mk.injEq] at hp
    simp only [putNegotiation, Table.get?_insert] at h₀
    split at h₀
    · rename_i hx
      cases h₀
      refine .begins ?_ (hp.2.2.2.2.trans begins.stage)
      obtain ⟨address, timeout, hu, hl⟩ := begins.opens
      refine ⟨address, timeout, ?_⟩
      have hm : .connect n.link n.route address timeout ∈ (g.putNegotiation n w).world.since g.world := by
        simp [putNegotiation, hu, hl, World.since, World.connect, World.emit]
      rw [hx, hp.1, Moment.calls, next, hw]
      exact hh.grows.mem_since hm
    · exact stays h₀ hp.1 (.inl hp.2.2.2.2)
  | refused _ _ _ => exact ended ((g.failVerify_fades _).dwindles (g.failVerify_keepsOutbound _))
  | dropped _ _ => exact ended (.refl g)
  | @returned reason _ =>
    refine ended (KeepsOutbound.dwindles (g.act_keepsOutbound (·.emit _)) ?_)
    exact (g.bounce_fades stanza reason).grows.mono fun _ => CallKind.IsReturn.closing

theorem follow_descends (hi : g.Indexed) {event : LinkEvent} {turn : Turn}
    (hn : g.negotiations.get? n.route = some n) (turns : g.turnOn n event = some turn)
    (hs : turn.Serves n g.world) (next : (⟨g, .outbound n.link event⟩ : Moment).next = g.follow turn)
    (hk : (g.follow turn).negotiations.get? r = some k) :
    (⟨g, .outbound n.link event⟩ : Moment).Descends r k := by
  rw [get?_follow, hs.route] at hk
  split at hk
  · rename_i hr
    rw [hr]
    have lasts : turn.verdict ≠ .giveUp ∧ turn.negotiation = k := by
      unfold Turn.rest at hk
      split at hk <;> simp_all
    obtain ⟨lasts, rfl⟩ := lasts
    refine .turned hn rfl turns lasts hs.link rfl ?_
    intro e he
    rw [Moment.calls, next]
    exact (g.grows_follow turn).mem_since he
  · refine .stays hk ?_ rfl (.inl rfl)
    intro event' heq
    exact hi.link_ne hn hk ‹_› (Operation.outbound.inj heq).1.symm

theorem ClosedStep.descends (h : g.ClosedStep n g') (hi : g.Indexed) (hn : g.negotiations.get? n.route = some n)
    {error : Option String} (next : (⟨g, .outbound n.link (.closed error)⟩ : Moment).next = g')
    (hk : g'.negotiations.get? r = some k) :
    (⟨g, .outbound n.link (.closed error)⟩ : Moment).Descends r k := by
  by_cases hr : r = n.route
  · cases h with
    | @advanced m j w route _ _ advances _ =>
      obtain ⟨begins, hj, _⟩ := Negotiation.advance?_begins advances
      obtain ⟨address, timeout, hu, hl⟩ := begins.opens
      simp only [putNegotiation, Table.get?_insert, hj, route, if_pos hr, Option.some.injEq] at hk
      subst hk
      refine .begins ⟨address, timeout, ?_⟩ begins.stage
      rw [Moment.calls, next, hr, ← route, ← hj]
      simp [putNegotiation, hu, hl, hj, World.since, World.connect, World.emit]
    | @retired m route link _ _ =>
      rw [retire_eq (n := m) (by simp [setNegotiation, Table.get?_insert]),
        (return_keepsOutbound _ _ _ _).negotiations, discard_negotiations] at hk
      simp [Table.get?_erase, route, hr] at hk
  · have hk : g.negotiations.get? r = some k := (h.get?_other hr).symm.trans hk
    refine .stays hk ?_ rfl (.inl rfl)
    intro event heq
    exact hi.link_ne hn hk hr (Operation.outbound.inj heq).1.symm

theorem step_descends (ho : g.Orderly) (hi : g.Indexed) (he : g.Exclusive)
    (hk : (g.step op).negotiations.get? r = some k) : (⟨g, op⟩ : Moment).Descends r k := by
  have ended (quiet : ∀ t event, op ≠ .outbound t event) {g' : Gateway} (hd : Dwindles g g')
      (hk : g'.negotiations.get? r = some k) : (⟨g, op⟩ : Moment).Descends r k :=
    hd.descends (m := ⟨g, op⟩) rfl (fun n _ => quiet n.link) hk
  cases op with
  | submit stanza resolved =>
    rw [step_submit] at hk
    exact (g.submit_step stanza resolved).descends ho rfl rfl (g.step_submit stanza resolved) (by simp) hk
  | inbound link event =>
    change (g.onInbound link event).negotiations.get? r = some k at hk
    rcases (g.onInbound_step link event).answers with ⟨hk', hw⟩ | ⟨e, claim, key, _, _, heq⟩
    · exact ended (by simp) (hk'.dwindles (hw.mono fun _ => CallKind.IsAnswer.closing)) hk
    · have next : (⟨g, .inbound link event⟩ : Moment).next = _ := heq
      rw [heq] at hk
      unfold dispatchVerify at hk next
      split at hk
      · rename_i hknown
        rw [if_pos hknown] at next
        exact SubmitStep.descends ((g.openClaim claim).submit_step _ none) ⟨ho.route, ho.verifies⟩ rfl rfl next
          (by simp) hk
      · exact .stays hk (by simp) rfl (.inl rfl)
  | outbound link event =>
    change (g.onOutbound link event).negotiations.get? r = some k at hk
    cases g.onOutbound_step ho hi he link event with
    | turned found hl turns serves follows =>
      subst hl
      rw [follows] at hk
      exact follow_descends hi found turns serves follows hk
    | gone found hl hclosed step =>
      subst hl
      obtain ⟨error, rfl⟩ := hclosed
      exact step.descends hi found rfl hk
    | @carried x carries onRoute =>
      rw [onRoute] at hk
      refine (g.onRoute_dwindles x link event).descends (m := ⟨g, .outbound link event⟩) rfl ?_ hk
      intro n hn event' heq
      obtain ⟨c, hc, hl⟩ := carries
      exact hi.link_ne_carrier hn hc ((Operation.outbound.inj heq).1.symm.trans hl.symm)
    | ignored untracked still =>
      rw [still] at hk
      refine .stays hk ?_ rfl (.inl rfl)
      intro event' heq
      exact untracked r (.inl ⟨k, hk, (Operation.outbound.inj heq).1.symm⟩)
  | sweep ahead =>
    rw [step_sweep] at hk
    exact ended (by simp) (sweepAt_dwindles ho _) hk
  | releaseRoute route =>
    rw [step_releaseRoute] at hk
    exact ended (by simp) (g.releaseRoute_dwindles route) hk
  | releaseClaim claim =>
    rw [step_releaseClaim] at hk
    exact ended (by simp) ((g.releaseClaim_fades claim).dwindles (g.releaseClaim_keepsOutbound claim)) hk
  | wait duration => exact .stays hk (by simp) rfl (.inl rfl)
  | learn link facts => exact .stays hk (by simp) rfl (.inl rfl)

end Gateway

/-- The element asks to be authenticated as the domain by the certificate of the link. -/
structure Protocol.AsksExternal (e : Xml.Element) (domain : String) : Prop where
  name : e.name = "auth"
  ns : e.ns = Xml.Namespace.sasl
  mechanism : e.attribute? "mechanism" = some "EXTERNAL"
  identity : e.text = String.ofList (Text.Base64.encode domain.toUTF8.data.toList)

theorem Protocol.saslAuth_asksExternal (domain : String) : AsksExternal (saslAuth domain) domain := by
  refine ⟨?_, ?_, ?_, Xml.Element.text_appendText rfl _⟩ <;> simp [saslAuth, bare, external]

namespace Moment

/-- The operation writes a request to be authenticated by SASL on the link. -/
def WritesAuth (m : Moment) (r : Route) (t : LinkId) : Prop :=
  ∃ e, Protocol.AsksExternal e r.source ∧ .send t (.element e) ∈ m.calls

/-- The operation brings the peer's word on the link that SASL has succeeded. -/
def Succeeds (m : Moment) (t : LinkId) : Prop :=
  ∃ e, m.operation = .outbound t (.element e) ∧ e.is "success" Xml.Namespace.sasl = true

/-- The policy for the destination accepts SASL on the link as it is. -/
def PermitsSasl (m : Moment) (r : Route) (t : LinkId) : Prop :=
  m.gateway.setup.policy.check r.destination .sasl (m.gateway.world.link t).level = .ok ()

/-- The route is negotiated on the link, and its request to be authenticated by SASL is outstanding. -/
def AwaitsSasl (m : Moment) (r : Route) (t : LinkId) : Prop :=
  ∃ n, m.gateway.negotiations.get? r = some n ∧ n.link = t ∧ n.stage = .saslStarted

end Moment

/-- The last word on the link that SASL has succeeded came at the moment `s`. -/
def LastSuccess (h : List Moment) (t : LinkId) (s : Nat) : Prop :=
  Happens h s (·.Succeeds t) ∧ ∀ k, s < k → ¬ Happens h k (·.Succeeds t)

/-- The request to be authenticated by SASL was written, then the peer said that it succeeded, and then a
header was accepted while the policy permitted SASL. -/
def ProvedBySasl (h : List Moment) (r : Route) (t : LinkId) : Prop :=
  ∃ a s x id, a < s ∧ s < x ∧ Happens h a (·.WritesAuth r t) ∧ Happens h s (·.Succeeds t) ∧
    Happens h x fun m => m.AcceptsPeer t id ∧ m.PermitsSasl r t

/-- What the history tells about SASL on the link of a negotiation. -/
structure SaslTrail (h : List Moment) (r : Route) (n : Negotiation) (o : Nat) : Prop where
  opened : Happens h o (·.Opens r n.link)
  started : n.stage = .saslStarted → ∃ a, o < a ∧ Happens h a (·.WritesAuth r n.link)
  succeeded : n.stage = .saslSucceeded → ∃ s, o < s ∧ LastSuccess h n.link s ∧
    (∀ x id, s < x → Happens h x (·.AcceptsPeer n.link id) → Happens h x (·.PermitsSasl r n.link)) ∧
    (Happens h s (·.AwaitsSasl r n.link) → ∃ a, o < a ∧ a < s ∧ Happens h a (·.WritesAuth r n.link))

variable {h : List Moment} {m : Moment} {r : Route} {n k : Negotiation} {t : LinkId} {o s : Nat}

theorem LastSuccess.concat (hl : LastSuccess h t s) (quiet : ¬ m.Succeeds t) : LastSuccess (h ++ [m]) t s := by
  refine ⟨hl.1.append, fun k hk hs => ?_⟩
  rcases Happens.concat_iff.mp hs with hs | ⟨_, hs⟩
  · exact hl.2 k hk hs
  · exact quiet hs

theorem LastSuccess.last (hs : m.Succeeds t) : LastSuccess (h ++ [m]) t h.length := by
  refine ⟨Happens.last hs, fun k hk hs => ?_⟩
  have hlt := hs.lt_length
  simp only [List.length_append, List.length_singleton] at hlt
  omega

theorem Gateway.turnOn_shifts {g : Gateway} {event : LinkEvent} {turn : Turn}
    (turns : g.turnOn n event = some turn) :
    n.Shifts g.setup g.world event g.challenges.contains turn := by
  cases event with
  | connected =>
    cases turns
    exact n.onConnected_shifts g.setup g.world
  | header header =>
    cases turns
    exact n.onHeader_shifts g.setup g.world header
  | element e =>
    cases turns
    exact n.onElement_shifts g.setup g.world e
  | closed error => cases turns

namespace SaslTrail

/-- A success that the history tells of stays the last one, and the policy has been asked at every header since. -/
theorem concat_succeeded (ht : SaslTrail h r n o) (hs : n.stage = .saslSucceeded) (quiet : ¬ m.Succeeds n.link)
    (checked : ∀ id, m.AcceptsPeer n.link id → m.PermitsSasl r n.link) :
    ∃ s, o < s ∧ LastSuccess (h ++ [m]) n.link s ∧
      (∀ x id, s < x → Happens (h ++ [m]) x (·.AcceptsPeer n.link id) →
        Happens (h ++ [m]) x (·.PermitsSasl r n.link)) ∧
      (Happens (h ++ [m]) s (·.AwaitsSasl r n.link) →
        ∃ a, o < a ∧ a < s ∧ Happens (h ++ [m]) a (·.WritesAuth r n.link)) := by
  obtain ⟨s, hos, hl, headers, asked⟩ := ht.succeeded hs
  refine ⟨s, hos, hl.concat quiet, fun x id hx ha => ?_, fun ha => ?_⟩
  · rcases Happens.concat_iff.mp ha with hold | ⟨rfl, hnow⟩
    · exact (headers x id hx hold).append
    · exact Happens.last (checked id hnow)
  · rcases Happens.concat_iff.mp ha with ha | ⟨rfl, _⟩
    · obtain ⟨a, hoa, has, hw⟩ := asked ha
      exact ⟨a, hoa, has, hw.append⟩
    · exact absurd hl.1.lt_length (Nat.lt_irrefl _)

theorem step (ht : ∀ n, m.gateway.negotiations.get? r = some n → ∃ o, SaslTrail h r n o)
    (route : ∀ n, m.gateway.negotiations.get? r = some n → n.route = r) (hd : m.Descends r k) :
    ∃ o, SaslTrail (h ++ [m]) r k o := by
  cases hd with
  | @stays n found quiet link stage =>
    obtain ⟨o, hn⟩ := ht n found
    refine ⟨o, link ▸ hn.opened.append, fun hs => ?_, fun hs => ?_⟩ <;> rw [link]
    · have hs : n.stage = .saslStarted := by rcases stage with h | h <;> rw [hs] at h <;> simp_all
      obtain ⟨a, hoa, ha⟩ := hn.started hs
      exact ⟨a, hoa, ha.append⟩
    · have hs : n.stage = .saslSucceeded := by rcases stage with h | h <;> rw [hs] at h <;> simp_all
      refine hn.concat_succeeded hs ?_ ?_
      · rintro ⟨e, heq, _⟩
        exact quiet _ heq
      · rintro id ⟨⟨header, heq, _⟩, _⟩
        exact absurd heq (quiet _)
  | @turned n event turn found happens turns lasts link stage calls =>
    obtain ⟨o, hn⟩ := ht n found
    have shifts := Gateway.turnOn_shifts turns
    have hr := route n found
    have started (hs : turn.negotiation.stage = .saslStarted) :
        ∃ a, o < a ∧ Happens (h ++ [m]) a (·.WritesAuth r n.link) := by
      rcases shifts.started hs with hs | hw
      · obtain ⟨a, hoa, ha⟩ := hn.started hs
        exact ⟨a, hoa, ha.append⟩
      · exact ⟨h.length, hn.opened.lt_length,
          Happens.last ⟨_, Protocol.saslAuth_asksExternal r.source, hr ▸ calls _ hw⟩⟩
    refine ⟨o, link ▸ hn.opened.append, fun hs => ?_, fun hs => ?_⟩ <;> rw [link]
    · exact started (stage ▸ hs)
    · by_cases hnow : m.Succeeds n.link
      · refine ⟨h.length, hn.opened.lt_length, .last hnow, fun x id hx ha => ?_, fun ha => ?_⟩
        · have hlt := ha.lt_length
          simp only [List.length_append, List.length_singleton] at hlt
          omega
        · rcases Happens.concat_iff.mp ha with ha | ⟨_, n', hn', _, hs⟩
          · exact absurd ha.lt_length (Nat.lt_irrefl _)
          · rw [found] at hn'
            cases hn'
            obtain ⟨a, hoa, ha⟩ := hn.started hs
            exact ⟨a, hoa, ha.lt_length, ha.append⟩
      · have hs : n.stage = .saslSucceeded := by
          rcases shifts.succeeded (stage ▸ hs) with hs | ⟨e, rfl, hsuccess⟩
          · exact hs
          · exact absurd ⟨e, happens, hsuccess⟩ hnow
        refine hn.concat_succeeded hs hnow ?_
        rintro id ⟨⟨header, heq, hid⟩, hne, hforeign, _⟩
        rw [happens] at heq
        have hc := shifts.checked hs lasts header id (Operation.outbound.inj heq).2 hid hne hforeign
        rw [hr] at hc
        exact hc
  | begins opens stage =>
    refine ⟨h.length, Happens.last opens, fun hs => ?_, fun hs => ?_⟩ <;> rw [stage] at hs <;> cases hs

end SaslTrail

namespace Gateway

/-- Every negotiation has its trail. -/
theorem run_saslTrail (setup : Setup) (world : World) (links : Function.Injective world.sources.linkId)
    (ops : List Operation) : ∀ r n, ((initial setup world).run ops).negotiations.get? r = some n →
      ∃ o, SaslTrail ((initial setup world).history ops) r n o := by
  refine (run_induction (g := initial setup world)
    (P := fun h g => Connected h g ∧ ∀ r n, g.negotiations.get? r = some n → ∃ o, SaslTrail h r n o)
    ⟨initial_connected links, ?_⟩ ?_ ops).2
  · intro r n hn
    cases hn
  · rintro h g op ⟨hc, ht⟩
    exact ⟨hc.step op, fun r k hk => SaslTrail.step (m := ⟨g, op⟩) (ht r) (hc.orderly.route r)
      (step_descends hc.orderly hc.indexed hc.exclusive hk)⟩

/-- If links are never numbered twice, a route that is authorized by SASL is so at the features on its link, after the
peer said that SASL succeeded. If the gateway waited for that word, SASL was asked for and passed the policy. -/
theorem authorized_after_success (setup : Setup) (world : World)
    (links : Function.Injective world.sources.linkId) (ops : List Operation) (op : Operation) (r : Route)
    (t : LinkId) :
    let g := (initial setup world).run ops
    let moments := (initial setup world).history ops
    (⟨g, op⟩ : Moment).Enters r t →
    (∃ n, g.negotiations.get? r = some n ∧ n.stage = .saslSucceeded) →
    (∃ e, op = .outbound t (.element e) ∧ e.is "features" Xml.Namespace.stream = true) ∧
      ∃ o s, o < s ∧ Happens moments o (·.Opens r t) ∧ LastSuccess moments t s ∧
        (∀ x id, s < x → Happens moments x (·.AcceptsPeer t id) → Happens moments x (·.PermitsSasl r t)) ∧
        (Happens moments s (·.AwaitsSasl r t) →
          (∃ x id, s < x ∧ Happens moments x (·.AcceptsPeer t id)) → ProvedBySasl moments r t) := by
  intro g moments henters hstage
  have hc := run_connected setup world links ops
  obtain ⟨n, hn, hs⟩ := hstage
  obtain ⟨hnot, c, hroute, hl⟩ := henters
  have hp := step_proceeds hc.orderly hc.indexed op
  rcases hp.route r c hroute with ⟨c₀, h₀, hl₀⟩ | ⟨n', e, turn, hop, hn', hlink, ha⟩
  · exact absurd ⟨c₀, h₀, hl₀.trans hl⟩ hnot
  · have hn' : g.negotiations.get? r = some n' := hn'
    rw [hn] at hn'
    cases hn'
    rw [hl] at hop hlink
    obtain ⟨o, htrail⟩ := run_saslTrail setup world links ops r n hn
    obtain ⟨s, hos, hlast, headers, asked⟩ := htrail.succeeded hs
    have hopened := htrail.opened
    rw [hlink] at hlast headers asked hopened
    cases ha with
    | dialback _ stage _ _ _ =>
      rw [hs] at stage
      cases stage
    | sasl _ _ element =>
      refine ⟨⟨e, hop, element⟩, o, s, hos, hopened, hlast, headers, ?_⟩
      rintro hawaits ⟨x, id, hsx, hx⟩
      obtain ⟨a, _, has, hw⟩ := asked hawaits
      exact ⟨a, s, x, id, has, hsx, hw, hlast.1, hx.and (headers x id hsx hx)⟩

/-- A stanza waits for its route, whose stream offers SASL. -/
def external : List Operation :=
  [.submit (sampleMessage "bob@b.example" "alice@a.example") (some "192.0.2.1"),
    .outbound 100 .connected,
    .outbound 100 (.header { sampleHeader "b.example" with id := some "one" }),
    .outbound 100 (.element (Protocol.features false true)),
    .outbound 100 (.element Protocol.saslSuccess),
    .outbound 100 (.header { sampleHeader "b.example" with id := some "two" })]

theorem route_authorized_by_sasl :
    let r : Route := ⟨"b.example", "a.example"⟩
    let op : Operation := .outbound 100 (.element (Protocol.features false false))
    let g := sample.run external
    let moments := sample.history external
    (⟨g, op⟩ : Moment).Enters r 100 ∧ (∃ n, g.negotiations.get? r = some n ∧ n.stage = .saslSucceeded) ∧
      ∃ o s, o < s ∧ Happens moments o (·.Opens r 100) ∧ LastSuccess moments 100 s ∧
        (∀ x id, s < x → Happens moments x (·.AcceptsPeer 100 id) → Happens moments x (·.PermitsSasl r 100)) ∧
        (Happens moments s (·.AwaitsSasl r 100) →
          (∃ x id, s < x ∧ Happens moments x (·.AcceptsPeer 100 id)) → ProvedBySasl moments r 100) := by
  intro r op g moments
  have before : g.routes.get? r = none := by decide +kernel
  have after : (g.step op).routes.get? r = some ⟨100, some "192.0.2.1:5269", 1, 0, 0⟩ := by decide +kernel
  have stage : (g.negotiations.get? r).map (·.stage) = some .saslSucceeded := by decide +kernel
  have enters : (⟨g, op⟩ : Moment).Enters r 100 := by
    refine ⟨?_, _, after, rfl⟩
    rintro ⟨c, hc, _⟩
    rw [before] at hc
    cases hc
  have succeeded := Option.map_eq_some_iff.mp stage
  exact ⟨enters, succeeded, (authorized_after_success sample.setup sample.world sample_linkId_injective
    external op r 100 enters succeeded).2⟩

/-- The peer says that SASL succeeded although it was never asked, and sends no header. -/
def unasked : List Operation :=
  [.submit (sampleMessage "bob@b.example" "alice@a.example") (some "192.0.2.1"),
    .outbound 100 .connected,
    .outbound 100 (.element Protocol.saslSuccess)]

theorem unasked_success_authorizes :
    let r : Route := ⟨"b.example", "a.example"⟩
    let op : Operation := .outbound 100 (.element (Protocol.features false false))
    let g := sample.run unasked
    (⟨g, op⟩ : Moment).Enters r 100 ∧ (∃ n, g.negotiations.get? r = some n ∧ n.stage = .saslSucceeded) ∧
      (∀ e, .send 100 (.element e) ∉ g.world.trace) ∧
      ¬ ProvedBySasl (sample.history unasked) r 100 := by
  intro r op g
  have before : g.routes.get? r = none := by decide +kernel
  have after : (g.step op).routes.get? r = some ⟨100, some "192.0.2.1:5269", 1, 0, 0⟩ := by decide +kernel
  have stage : (g.negotiations.get? r).map (·.stage) = some .saslSucceeded := by decide +kernel
  have silent : g.world.trace.filterMap Effect.written? = [] := by decide +kernel
  refine ⟨⟨?_, _, after, rfl⟩, Option.map_eq_some_iff.mp stage, fun e written => ?_, ?_⟩
  · rintro ⟨c, hc, _⟩
    rw [before] at hc
    cases hc
  · have none_written := List.filterMap_eq_nil_iff.mp silent _ written
    cases none_written
  · rintro ⟨a, s, x, id, has, hsx, _, _, m, hm, ⟨⟨header, hop, _⟩, _⟩, _⟩
    have hx := (List.getElem?_eq_some_iff.mp hm).1
    have hlength : (sample.history unasked).length = 3 := rfl
    obtain rfl : x = 2 := by omega
    cases hm
    cases hop

end Gateway

end Interdomain
