import Interdomain.Proofs.Frame

/-! What the settling of claims does. A claim is open from the request for it until it is settled; it is
settled as valid in one way only, by a reply that vouches for it. All else that the gateway does about
streams of peers can end what they were granted, but grants nothing. -/
namespace Interdomain

open Protocol (Dialback)

/-- The element says that the claim is valid. -/
def Protocol.Dialback.Vouches (e : Xml.Element) (claim : Claim) : Prop :=
  ∃ m, ofElement e = .ok m ∧ m.id = some claim.challenge ∧ m.sender = claim.source ∧
    m.recipient = claim.destination ∧ m.isValid = true

/-- The element is the answer about a claim: whether its key is valid. -/
def Protocol.Dialback.Decides (e : Xml.Element) (claim : Claim) (valid : Bool) : Prop :=
  ∃ m, ofElement e = .ok m ∧ m.isReply = true ∧ m.id = some claim.challenge ∧ m.sender = claim.source ∧
    m.recipient = claim.destination ∧ m.isValid = valid

/-- The request is one about a claim. -/
def Protocol.Dialback.Names (v : Xml.Element) (claim : Claim) : Prop :=
  v.attribute? "to" = some claim.source ∧ v.attribute? "from" = some claim.destination ∧
    v.attribute? "id" = some claim.challenge

/-- What vouches for a claim is the answer that it is valid. -/
theorem Protocol.Dialback.vouches_iff {e : Xml.Element} {claim : Claim} :
    Vouches e claim ↔ Decides e claim true := by
  constructor
  · rintro ⟨m, hm, hi, hs, hr, hval⟩
    have hreply : m.isReply = true := by
      simp only [isValid, decide_eq_true_eq] at hval
      simp [isReply, hval]
    exact ⟨m, hm, hreply, hi, hs, hr, hval⟩
  · rintro ⟨m, hm, _, hi, hs, hr, hval⟩
    exact ⟨m, hm, hi, hs, hr, hval⟩

/-- The session of a stream in this phase. -/
def Phase.session? : Phase → Option Session
  | .streaming s => some s
  | _ => none

namespace Gateway

variable {P Q : CallKind → Prop} {g g' : Gateway}

/-- The session of the stream on a link. -/
def sessionOn (g : Gateway) (link : LinkId) : Option Session :=
  (g.streams.get? link).bind (·.phase.session?)

/-- The claim was made on the link, and nothing has settled it. -/
def IsOpen (g : Gateway) (claim : Claim) (link : LinkId) : Prop :=
  ∃ c, g.challenges.get? claim.challenge = some c ∧ c.link = link ∧ claim ∈ c.claims

/-- The policy for the source of a claim accepts the link on which it was made. -/
def Admits (g : Gateway) (claim : Claim) (link : LinkId) : Prop :=
  g.setup.policy.check claim.source .dialback (g.world.link link).level = .ok ()

/-- The gateway once a claim has been settled as valid. -/
def grant (g : Gateway) (claim : Claim) (link : LinkId) : Gateway :=
  ((g.closeClaim claim).authorize claim link).sendResult link claim true

/-- Nothing is granted to streams of peers: their sessions and identities, their challenges with the claims
that are open, and their admissions can only end. -/
structure Fades (P : CallKind → Prop) (g g' : Gateway) : Prop where
  setup : g'.setup = g.setup
  session : ∀ t s, g'.sessionOn t = some s → g.sessionOn t = some s
  identity : ∀ t i, g'.identityOn t = some i → g.identityOn t = some i
  admission : ∀ c k, g'.admissions.get? c = some k →
    ∃ k₀, g.admissions.get? c = some k₀ ∧ k₀.link = k.link
  challenge : ∀ x c, g'.challenges.get? x = some c →
    ∃ c₀, g.challenges.get? x = some c₀ ∧ c₀.link = c.link ∧ c.claims.Sublist c₀.claims
  grows : World.Grows P g.world g'.world

namespace Fades

theorem refl (g : Gateway) : Fades P g g :=
  ⟨rfl, fun _ _ => id, fun _ _ => id, fun _ k h => ⟨k, h, rfl⟩,
    fun _ c h => ⟨c, h, rfl, List.Sublist.refl _⟩, .refl _⟩

theorem trans {f g h : Gateway} (a : Fades P f g) (b : Fades P g h) : Fades P f h := by
  refine ⟨b.setup.trans a.setup, fun t s hs => a.session t s (b.session t s hs),
    fun t i hi => a.identity t i (b.identity t i hi), ?_, ?_, a.grows.trans b.grows⟩
  · intro c k hk
    obtain ⟨k₁, h₁, e₁⟩ := b.admission c k hk
    obtain ⟨k₀, h₀, e₀⟩ := a.admission c k₁ h₁
    exact ⟨k₀, h₀, e₀.trans e₁⟩
  · intro x c hc
    obtain ⟨c₁, h₁, e₁, s₁⟩ := b.challenge x c hc
    obtain ⟨c₀, h₀, e₀, s₀⟩ := a.challenge x c₁ h₁
    exact ⟨c₀, h₀, e₀.trans e₁, s₁.trans s₀⟩

theorem mono (h : Fades P g g') (hi : ∀ k, P k → Q k) : Fades Q g g' :=
  ⟨h.setup, h.session, h.identity, h.admission, h.challenge, h.grows.mono hi⟩

theorem isOpen {claim : Claim} {t : LinkId} (hf : Fades P g g') (ho : g'.IsOpen claim t) : g.IsOpen claim t := by
  obtain ⟨c, hc, hl, hm⟩ := ho
  obtain ⟨c₀, h₀, hl₀, hs⟩ := hf.challenge _ c hc
  exact ⟨c₀, h₀, hl₀.trans hl, hs.subset hm⟩

end Fades

theorem KeepsInbound.fades (h : KeepsInbound g g') (hw : World.Grows P g.world g'.world) :
    Fades P g g' := by
  refine ⟨h.setup, ?_, ?_, ?_, ?_, hw⟩
  · intro t s hs
    rwa [sessionOn, h.streams] at hs
  · intro t i hi
    rwa [identityOn, h.streams] at hi
  · intro c k hk
    exact ⟨k, h.admissions ▸ hk, rfl⟩
  · intro x c hc
    exact ⟨c, h.challenges ▸ hc, rfl, List.Sublist.refl _⟩

theorem act_fades (g : Gateway) {f : World → World} (h : World.Grows P g.world (f g.world)) :
    Fades P g (g.act f) := (g.act_keepsInbound f).fades h

theorem close_fades (g : Gateway) (link : LinkId) :
    Fades CallKind.IsPlain g (g.act (·.close link)) :=
  g.act_fades (World.grows_close _ _ CallKind.isPlain)

theorem finish_fades (g : Gateway) (link : LinkId) :
    Fades CallKind.IsPlain g (g.act (·.finish link)) :=
  g.act_fades (World.grows_finish _ _ CallKind.isPlain)

theorem fail_fades (g : Gateway) (link : LinkId) (error : Stream.Error) :
    Fades CallKind.IsPlain g (g.act (·.fail link error)) :=
  g.act_fades (World.grows_fail _ _ CallKind.isPlain _)

theorem get?_closeClaim (g : Gateway) (claim : Claim) (x : String) :
    (g.closeClaim claim).challenges.get? x =
      (g.challenges.get? x).map fun c =>
        if x = claim.challenge then { c with claims := c.claims.erase claim } else c := by
  rw [closeClaim, Table.get?_modify]
  by_cases hx : x = claim.challenge <;> simp [hx]

theorem closeClaim_fades (g : Gateway) (claim : Claim) : Fades P g (g.closeClaim claim) := by
  refine ⟨rfl, fun _ _ => id, fun _ _ => id, fun _ k h => ⟨k, h, rfl⟩, ?_, .refl _⟩
  intro x c hc
  rw [get?_closeClaim] at hc
  obtain ⟨c₀, h₀, rfl⟩ := Option.map_eq_some_iff.mp hc
  refine ⟨c₀, h₀, ?_, ?_⟩
  · split <;> rfl
  · split
    · exact List.erase_sublist
    · exact List.Sublist.refl _

theorem sendResult_fades (g : Gateway) (link : LinkId) (claim : Claim) :
    Fades CallKind.IsPlain g (g.sendResult link claim false) :=
  g.act_fades (World.grows_sendElement _ _ (CallKind.ofElement_resultReply ..))

theorem grant_grows (g : Gateway) (claim : Claim) (link : LinkId) :
    World.Grows CallKind.IsVerdict g.world (g.grant claim link).world :=
  ((g.closeClaim claim).setAdmissions_grows (.inl rfl) _).trans
    (World.grows_sendElement _ _ (.inr (CallKind.ofElement_resultReply ..)))

/-- A claim is made on one link. -/
theorem IsOpen.link_eq {k : Claim} {t u : LinkId} (h : g.IsOpen k t) (h' : g.IsOpen k u) : u = t := by
  obtain ⟨c, hc, rfl, _⟩ := h
  obtain ⟨c', hc', rfl, _⟩ := h'
  rw [hc] at hc'
  cases hc'
  rfl

/-- What the settling of a claim does. -/
inductive SettleStep (g : Gateway) (k : Claim) : Bool → Gateway → Prop
  | ignored {valid : Bool} (closed : ∀ t, ¬ g.IsOpen k t) : SettleStep g k valid g
  | granted {t : LinkId} (isOpen : g.IsOpen k t) (admits : g.Admits k t) : SettleStep g k true (g.grant k t)
  | refused {t : LinkId} (isOpen : g.IsOpen k t) : SettleStep g k false ((g.closeClaim k).sendResult t k false)
  | violates {t : LinkId} {violation : String} (isOpen : g.IsOpen k t) (denied : ¬ g.Admits k t) :
      SettleStep g k true
        (((g.closeClaim k).sendResult t k false).act (·.fail t ⟨.policyViolation, some violation⟩))

theorem settle_step (g : Gateway) (k : Claim) (valid : Bool) : g.SettleStep k valid (g.settle k valid) := by
  unfold settle
  split
  · rename_i hc
    refine .ignored ?_
    rintro t ⟨c, h, _⟩
    rw [hc] at h
    cases h
  · rename_i c hc
    split
    · rename_i hm
      have hopen : g.IsOpen k c.link := ⟨c, hc, rfl, hm⟩
      cases valid with
      | false => exact .refused hopen
      | true =>
        rw [if_pos rfl]
        unfold confirm
        split
        · exact .granted hopen ‹_›
        · rename_i hp
          refine .violates hopen fun ha => ?_
          have ha : (g.closeClaim k).setup.policy.check k.source .dialback
            ((g.closeClaim k).world.link c.link).level = .ok () := ha
          rw [hp] at ha
          cases ha
    · rename_i hm
      refine .ignored ?_
      rintro t ⟨c', h, _, hm'⟩
      rw [hc] at h
      cases h
      exact hm hm'

/-- A claim is settled without a grant, unless it was open, is found valid, and its link suits the policy. -/
theorem settle_cases (g : Gateway) (claim : Claim) (valid : Bool) :
    Fades CallKind.IsPlain g (g.settle claim valid) ∨
      valid = true ∧ ∃ link, g.IsOpen claim link ∧ g.Admits claim link ∧
        g.settle claim valid = g.grant claim link := by
  have h := g.settle_step claim valid
  have hclose := g.closeClaim_fades (P := CallKind.IsPlain) claim
  generalize g.settle claim valid = g' at h ⊢
  cases h with
  | ignored _ => exact .inl (.refl g)
  | granted isOpen admits => exact .inr ⟨rfl, _, isOpen, admits, rfl⟩
  | refused _ => exact .inl (hclose.trans (sendResult_fades _ _ _))
  | violates _ _ => exact .inl (hclose.trans ((sendResult_fades _ _ _).trans (fail_fades _ _ _)))

/-- An open claim that suits the policy is settled as valid when it is found to be. -/
theorem settle_of_isOpen {claim : Claim} {link : LinkId} (ho : g.IsOpen claim link)
    (ha : g.Admits claim link) : g.settle claim true = g.grant claim link := by
  have h := g.settle_step claim true
  generalize g.settle claim true = g' at h ⊢
  cases h with
  | ignored closed => exact absurd ho (closed link)
  | granted isOpen _ => rw [ho.link_eq isOpen]
  | violates isOpen denied => exact absurd ha (ho.link_eq isOpen ▸ denied)

theorem settle_of_closed {k : Claim} (hc : ∀ t, ¬ g.IsOpen k t) (valid : Bool) : g.settle k valid = g := by
  have h := g.settle_step k valid
  generalize g.settle k valid = g' at h
  cases h with
  | ignored _ => rfl
  | granted isOpen _ => exact absurd isOpen (hc _)
  | refused isOpen => exact absurd isOpen (hc _)
  | violates isOpen _ => exact absurd isOpen (hc _)

theorem settle_fades (g : Gateway) (claim : Claim) :
    Fades CallKind.IsPlain g (g.settle claim false) := by
  rcases g.settle_cases claim false with h | ⟨h, _⟩
  · exact h
  · cases h

theorem failVerify_of_names {v : Xml.Element} {k : Claim} (h : Dialback.Names v k) :
    g.failVerify v = g.settle k false := by
  obtain ⟨hs, hd, hi⟩ := h
  simp only [failVerify, hs, hd, hi]

/-- A request that fails is one about a claim, or nothing happens. -/
theorem failVerify_cases (g : Gateway) (v : Xml.Element) :
    (∃ k, Dialback.Names v k) ∨ g.failVerify v = g := by
  unfold failVerify
  split
  · exact .inl ⟨⟨_, _, _⟩, ‹_›, ‹_›, ‹_›⟩
  · exact .inr rfl

theorem failVerify_fades (g : Gateway) (request : Xml.Element) :
    Fades CallKind.IsPlain g (g.failVerify request) := by
  rcases g.failVerify_cases request with ⟨k, hk⟩ | heq
  · rw [failVerify_of_names hk]
    exact g.settle_fades k
  · rw [heq]
    exact .refl g

theorem foldl_failVerify_fades (g : Gateway) (requests : List Xml.Element) :
    Fades CallKind.IsPlain g (requests.foldl failVerify g) :=
  foldl_relation .refl (fun _ _ _ => .trans) (fun g e _ => g.failVerify_fades e) g

/-- What the look at a verify element does: it settles the claim that the element decides, or the element is
answered, or refused. -/
inductive VerifyStep (g : Gateway) (link : LinkId) (e : Xml.Element) : Gateway → Prop
  | settles {claim : Claim} {valid : Bool} (decides : Dialback.Decides e claim valid) :
      VerifyStep g link e (g.settle claim valid)
  | replies {recipient sender id : String} {valid : Bool} :
      VerifyStep g link e (g.act (·.sendElement link (Dialback.verifyReply recipient sender id valid)))
  | fails {error : Stream.Error} : VerifyStep g link e (g.act (·.fail link error))

theorem onVerify_step (g : Gateway) (link : LinkId) (e : Xml.Element) :
    g.VerifyStep link e (g.onVerify link e) := by
  unfold onVerify
  split
  · exact .fails
  · rename_i m hm
    split
    · exact .fails
    · rename_i id hi
      split
      · rename_i hr
        exact .settles ⟨m, hm, hr, hi, rfl, rfl, rfl⟩
      · exact .replies

theorem onVerify_of_decides {e : Xml.Element} {claim : Claim} {valid : Bool}
    (h : Dialback.Decides e claim valid) (link : LinkId) : g.onVerify link e = g.settle claim valid := by
  obtain ⟨m, hm, hr, hi, hs, hd, hv⟩ := h
  simp only [onVerify, hm, hi, hr, if_true, hs, hd, hv]

/-- A verify element grants nothing unless it vouches for an open claim on a link that suits the policy. -/
theorem onVerify_cases (g : Gateway) (link : LinkId) (e : Xml.Element) :
    Fades CallKind.IsPlain g (g.onVerify link e) ∨
      ∃ claim carrier, Dialback.Vouches e claim ∧ g.IsOpen claim carrier ∧ g.Admits claim carrier ∧
        g.onVerify link e = g.grant claim carrier := by
  have h := g.onVerify_step link e
  generalize g.onVerify link e = g' at h ⊢
  cases h with
  | @settles claim valid decides =>
    rcases g.settle_cases claim valid with h | ⟨rfl, carrier, ho, ha, he⟩
    · exact .inl h
    · exact .inr ⟨claim, carrier, Dialback.vouches_iff.mpr decides, ho, ha, he⟩
  | replies => exact .inl (g.act_fades (World.grows_sendElement _ _ (CallKind.ofElement_verifyReply ..)))
  | fails => exact .inl (g.fail_fades _ _)

/-- A reply that vouches for an open claim on a link that suits the policy settles it as valid. -/
theorem onVerify_of_vouches {e : Xml.Element} {claim : Claim} {carrier : LinkId} (link : LinkId)
    (hv : Dialback.Vouches e claim) (ho : g.IsOpen claim carrier) (ha : g.Admits claim carrier) :
    g.onVerify link e = g.grant claim carrier :=
  (onVerify_of_decides (Dialback.vouches_iff.mp hv) link).trans (settle_of_isOpen ho ha)

theorem onVerify_grows (g : Gateway) (link : LinkId) (e : Xml.Element) :
    World.Grows CallKind.IsVerdict g.world (g.onVerify link e).world := by
  rcases g.onVerify_cases link e with h | ⟨claim, carrier, _, _, _, he⟩
  · exact h.grows.mono fun _ => .inl
  · rw [he]
    exact g.grant_grows claim carrier

theorem closeClaim_keepsOutbound (g : Gateway) (claim : Claim) :
    KeepsOutbound g (g.closeClaim claim) := ⟨rfl, rfl, rfl, rfl, rfl, rfl⟩

theorem authorize_keepsOutbound (g : Gateway) (claim : Claim) (link : LinkId) :
    KeepsOutbound g (g.authorize claim link) := g.setAdmissions_keepsOutbound _

theorem sendResult_keepsOutbound (g : Gateway) (link : LinkId) (claim : Claim) (valid : Bool) :
    KeepsOutbound g (g.sendResult link claim valid) := g.act_keepsOutbound _

theorem SettleStep.keepsOutbound {claim : Claim} {valid : Bool} (h : g.SettleStep claim valid g') :
    KeepsOutbound g g' := by
  have hc := g.closeClaim_keepsOutbound claim
  cases h with
  | ignored _ => exact .refl g
  | granted _ _ => exact hc.trans ((authorize_keepsOutbound _ _ _).trans (sendResult_keepsOutbound _ _ _ _))
  | refused _ => exact hc.trans (sendResult_keepsOutbound _ _ _ _)
  | violates _ _ => exact hc.trans ((sendResult_keepsOutbound _ _ _ _).trans (act_keepsOutbound _ _))

theorem failVerify_keepsOutbound (g : Gateway) (request : Xml.Element) :
    KeepsOutbound g (g.failVerify request) := by
  rcases g.failVerify_cases request with ⟨k, hk⟩ | heq
  · rw [failVerify_of_names hk]
    exact (g.settle_step k false).keepsOutbound
  · rw [heq]
    exact .refl g

theorem foldl_failVerify_keepsOutbound (g : Gateway) (requests : List Xml.Element) :
    KeepsOutbound g (requests.foldl failVerify g) :=
  foldl_relation .refl (fun _ _ _ => .trans) (fun g e _ => g.failVerify_keepsOutbound e) g

theorem onVerify_keepsOutbound (g : Gateway) (link : LinkId) (e : Xml.Element) :
    KeepsOutbound g (g.onVerify link e) := by
  have h := g.onVerify_step link e
  generalize g.onVerify link e = g' at h
  cases h with
  | settles _ => exact (g.settle_step _ _).keepsOutbound
  | replies => exact g.act_keepsOutbound _
  | fails => exact g.act_keepsOutbound _

end Gateway

end Interdomain
