import Interdomain.Negotiation.Turn
import Interdomain.Proofs.Calm

/-! What every turn of a negotiation has in common: it stays on its link and its route, leaves the waiting
stanzas alone, and writes nothing but what streams are negotiated with, on no other link. -/
namespace Interdomain

open Protocol (Dialback)

/-- The turn is one of the negotiation: what it is about stays, and it makes only the calls of a turn. -/
structure Turn.Serves (t : Turn) (n : Negotiation) (w : World) : Prop where
  route : t.negotiation.route = n.route
  link : t.negotiation.link = n.link
  queue : t.negotiation.queue = n.queue
  remaining : t.negotiation.remaining = n.remaining
  verifies : t.negotiation.verifies ⊆ n.verifies
  speaks : w.Speaks CallKind.IsTurn n.link t.world

theorem Turn.Serves.grows {t : Turn} {n : Negotiation} {w : World} (h : t.Serves n w) :
    w.Grows CallKind.IsTurn t.world := h.speaks.grows

/-- A turn after another one. -/
theorem Turn.Serves.trans {t u : Turn} {n : Negotiation} {w : World} (h : t.Serves n w)
    (k : u.Serves t.negotiation t.world) : u.Serves n w :=
  ⟨k.route.trans h.route, k.link.trans h.link, k.queue.trans h.queue, k.remaining.trans h.remaining,
    List.Subset.trans k.verifies h.verifies, h.speaks.trans (by rw [← h.link]; exact k.speaks)⟩

namespace Negotiation

variable (n : Negotiation) (setup : Setup) (w : World)

/-- A turn that leaves the waiting verify requests alone. -/
theorem serves_of_eq {t : Turn} (hr : t.negotiation.route = n.route) (hl : t.negotiation.link = n.link)
    (hq : t.negotiation.queue = n.queue) (hm : t.negotiation.remaining = n.remaining)
    (hv : t.negotiation.verifies = n.verifies) (hw : w.Speaks CallKind.IsPlain n.link t.world) : t.Serves n w :=
  ⟨hr, hl, hq, hm, by rw [hv]; exact List.Subset.refl _, hw.mono fun _ => .inl⟩

theorem complain_serves (note : String) (condition : Stream.Condition) (text : String) :
    (n.complain w note condition text).Serves n w :=
  n.serves_of_eq w rfl rfl rfl rfl rfl (World.Speaks.fail _ CallKind.isPlain _)

theorem underPolicy_serves (used : Policy.Mechanism) {next : Turn} (h : next.Serves n w) :
    (n.underPolicy setup w used next).Serves n w := by
  unfold underPolicy
  split
  · exact h
  · exact n.serves_of_eq w rfl rfl rfl rfl rfl (World.Speaks.fail _ CallKind.isPlain _)

theorem sendRequest_serves :
    (Turn.mk (n.sendRequest setup w).1 (n.sendRequest setup w).2 .proceed).Serves n w := by
  unfold sendRequest
  split
  · exact ⟨rfl, rfl, rfl, rfl, List.Subset.refl _, World.Speaks.sendElement _ (.inr (by simp))⟩
  · exact n.serves_of_eq w rfl rfl rfl rfl rfl (.refl w)

theorem verifies_sendRequest : (n.sendRequest setup w).1.verifies = n.verifies := by
  unfold sendRequest
  split <;> rfl

theorem verifies_want : (n.want setup w).1.verifies = n.verifies := by
  unfold want
  split
  · rfl
  · exact n.verifies_sendRequest setup w
  · rfl
  · rfl

theorem want_serves : (Turn.mk (n.want setup w).1 (n.want setup w).2 .proceed).Serves n w := by
  unfold want
  split
  · exact n.serves_of_eq w rfl rfl rfl rfl rfl (.refl w)
  · exact n.sendRequest_serves setup w
  · exact n.serves_of_eq w rfl rfl rfl rfl rfl (.refl w)
  · exact n.serves_of_eq w rfl rfl rfl rfl rfl (.refl w)

/-- What is written when the verify requests that waited are, besides the dialback request. -/
theorem becomeReady_serves (hv : ∀ v ∈ n.verifies, Dialback.isVerify v = true) :
    (n.becomeReady setup w).Serves n w := by
  have flush (m : Negotiation) (u : World) (hm : (Turn.mk m u .proceed).Serves n w)
      (he : m.verifies = n.verifies) :
      (Turn.mk { m with verifies := [] } (u.sendElements m.link m.verifies) .proceed).Serves n w := by
    refine ⟨hm.route, hm.link, hm.queue, hm.remaining, List.nil_subset _, hm.speaks.trans ?_⟩
    have hl : n.link = m.link := hm.link.symm
    rw [hl]
    refine World.Speaks.sendElements u fun v h => .inl ?_
    exact CallKind.ofElement_verify (hv v (he ▸ h))
  unfold becomeReady
  cases hr : n.request with
  | wantRequest =>
    have hs := { n with ready := true }.sendRequest_serves setup w
    exact flush _ _ ⟨hs.route, hs.link, hs.queue, hs.remaining, hs.verifies, hs.speaks⟩
      ({ n with ready := true }.verifies_sendRequest setup w)
  | notRequested =>
    simpa only [hr] using flush { n with ready := true, request := .couldRequest } w
      (n.serves_of_eq w rfl rfl rfl rfl rfl (.refl w)) rfl
  | couldRequest =>
    simpa only [hr] using flush { n with ready := true } w
      (n.serves_of_eq w rfl rfl rfl rfl rfl (.refl w)) rfl
  | sentRequest =>
    simpa only [hr] using flush { n with ready := true } w
      (n.serves_of_eq w rfl rfl rfl rfl rfl (.refl w)) rfl

theorem onConnected_serves : (n.onConnected setup w).Serves n w := by
  have written (m : Negotiation) (hm : (Turn.mk m w .proceed).Serves n w) :
      (Turn.mk m (m.writeHeader setup w) .proceed).Serves n w :=
    hm.trans (m.serves_of_eq w rfl rfl rfl rfl rfl (World.Speaks.header _ CallKind.isPlain _))
  unfold onConnected
  apply written
  split
  · exact n.serves_of_eq w rfl rfl rfl rfl rfl (.refl w)
  · split <;> exact n.serves_of_eq w rfl rfl rfl rfl rfl (.refl w)

variable (hv : ∀ v ∈ n.verifies, Dialback.isVerify v = true)
include hv

theorem onAccepted_serves (header : Stream.Header) : (n.onAccepted setup w header).Serves n w := by
  unfold onAccepted
  split
  · exact n.underPolicy_serves setup w _ (n.serves_of_eq w rfl rfl rfl rfl rfl (.refl w))
  · split
    · exact n.serves_of_eq w rfl rfl rfl rfl rfl (.refl w)
    · split
      · exact n.serves_of_eq w rfl rfl rfl rfl rfl (World.Speaks.fail _ CallKind.isPlain _)
      · exact n.underPolicy_serves setup w _ (n.becomeReady_serves setup w hv)

theorem onHeader_serves (header : Stream.Header) (isOwn : String → Bool) :
    (n.onHeader setup w header isOwn).Serves n w := by
  have stage : (Turn.mk (if n.stage = .saslSucceeded then n else { n with stage := .gotHeader }) w
      .proceed).Serves n w ∧
      (if n.stage = .saslSucceeded then n else { n with stage := .gotHeader }).verifies = n.verifies := by
    split
    · exact ⟨n.serves_of_eq w rfl rfl rfl rfl rfl (.refl w), rfl⟩
    · exact ⟨n.serves_of_eq w rfl rfl rfl rfl rfl (.refl w), rfl⟩
  unfold onHeader
  dsimp only
  generalize (if n.stage = .saslSucceeded then n else { n with stage := .gotHeader }) = m at stage ⊢
  obtain ⟨hs, he⟩ := stage
  split
  · exact hs.trans (m.complain_serves w _ _ _)
  · split
    · exact hs.trans (m.complain_serves w _ _ _)
    · rename_i id _ _
      have hm : (Turn.mk { m with streamId := some id, version := header.majorVersion } w
          .proceed).Serves m w := m.serves_of_eq w rfl rfl rfl rfl rfl (.refl w)
      have ha := onAccepted_serves { m with streamId := some id, version := header.majorVersion } setup w
        (fun v h => hv v (by rw [← he]; exact h)) header
      exact hs.trans (hm.trans ha)

theorem onFeatures_serves (features : Xml.Element) : (n.onFeatures setup w features).Serves n w := by
  unfold onFeatures
  split
  · exact n.serves_of_eq w rfl rfl rfl rfl rfl (.refl w)
  · have hs : (Turn.mk { n with stage := .gotFeatures } w .proceed).Serves n w :=
      n.serves_of_eq w rfl rfl rfl rfl rfl (.refl w)
    dsimp only
    split
    · exact n.serves_of_eq w rfl rfl rfl rfl rfl (World.Speaks.sendElement _ (by simp [CallKind.IsPlain]))
    · split
      · exact n.serves_of_eq w rfl rfl rfl rfl rfl
          (World.Speaks.sendElement _ (by simp [CallKind.IsPlain]))
      · exact hs.trans (underPolicy_serves _ setup w _ (becomeReady_serves _ setup w hv))

omit hv in
theorem onTlsProceed_serves : (n.onTlsProceed setup w).Serves n w := by
  have ht : w.Speaks CallKind.IsPlain n.link (w.startTls n.link .client n.route.source) :=
    .startTls w CallKind.isPlain ..
  unfold onTlsProceed
  dsimp only
  split
  · exact n.serves_of_eq w rfl rfl rfl rfl rfl (ht.trans
      ((World.Speaks.reset _ CallKind.isPlain).trans (World.Speaks.header _ CallKind.isPlain _)))
  · exact n.serves_of_eq w rfl rfl rfl rfl rfl (ht.trans (World.Speaks.close _ CallKind.isPlain))

omit hv in
theorem onSaslSuccess_serves : (n.onSaslSuccess setup w).Serves n w :=
  n.serves_of_eq w rfl rfl rfl rfl rfl
    ((World.Speaks.reset _ CallKind.isPlain).trans (World.Speaks.header _ CallKind.isPlain _))

omit hv in
theorem onResult_serves (e : Xml.Element) : (n.onResult w e).Serves n w := by
  unfold onResult
  split
  · exact n.complain_serves w _ _ _
  · split
    · exact n.complain_serves w _ _ _
    · split
      · exact n.serves_of_eq w rfl rfl rfl rfl rfl (.refl w)
      · exact n.serves_of_eq w rfl rfl rfl rfl rfl (World.Speaks.finish _ CallKind.isPlain)

theorem onElement_serves (e : Xml.Element) : (n.onElement setup w e).Serves n w := by
  unfold onElement
  repeat' split
  · exact n.onFeatures_serves setup w hv e
  · exact n.serves_of_eq w rfl rfl rfl rfl rfl (World.Speaks.close _ CallKind.isPlain)
  · exact n.onTlsProceed_serves setup w
  · exact n.serves_of_eq w rfl rfl rfl rfl rfl (World.Speaks.finish _ CallKind.isPlain)
  · exact n.onSaslSuccess_serves setup w
  · exact n.serves_of_eq w rfl rfl rfl rfl rfl (World.Speaks.finish _ CallKind.isPlain)
  · exact n.onResult_serves w e
  · exact n.serves_of_eq w rfl rfl rfl rfl rfl (.refl w)
  · exact n.serves_of_eq w rfl rfl rfl rfl rfl (World.Speaks.fail _ CallKind.isPlain _)

omit hv

theorem onFeatures_verdict (features : Xml.Element) :
    (n.onFeatures setup w features).verdict = .proceed ∨
      (n.onFeatures setup w features).verdict = .giveUp ∨
      n.stage = .saslSucceeded ∧ n.onFeatures setup w features = ⟨n, w, .authorize⟩ := by
  unfold onFeatures
  split
  · rename_i hs
    exact .inr (.inr ⟨hs, rfl⟩)
  · dsimp only
    split
    · exact .inl rfl
    · split
      · exact .inl rfl
      · unfold underPolicy
        split
        · exact .inl rfl
        · exact .inr (.inl rfl)

/-- An answer to the dialback request authorizes the connection if it is valid and the request is
outstanding. -/
theorem onResult_verdict (e : Xml.Element) :
    (n.onResult w e).verdict = .proceed ∨ (n.onResult w e).verdict = .giveUp ∨
      n.request = .sentRequest ∧ n.stage = .sentRequest ∧
        (∃ m, Dialback.ofElement e = .ok m ∧ isAnswerTo n.route m = true ∧ m.isValid = true) ∧
        n.onResult w e = ⟨{ n with stage := .dialbackSucceeded }, w, .authorize⟩ := by
  unfold onResult
  split
  · exact .inl rfl
  · rename_i ho
    simp only [ne_eq, not_or, Decidable.not_not] at ho
    split
    · exact .inl rfl
    · rename_i answer ha
      obtain ⟨hm, hr⟩ := Option.filter_eq_some_iff.mp ha
      split
      · rename_i hval
        refine .inr (.inr ⟨ho.1, ho.2, ⟨answer, ?_, hr, hval⟩, rfl⟩)
        cases he : Dialback.ofElement e with
        | error _ => simp [he, Except.toOption] at hm
        | ok m => simpa [he, Except.toOption] using hm
      · exact .inr (.inl rfl)

theorem onConnected_verdict : (n.onConnected setup w).verdict = .proceed := rfl

theorem onHeader_verdict (header : Stream.Header) (isOwn : String → Bool) :
    (n.onHeader setup w header isOwn).verdict = .proceed ∨
      (n.onHeader setup w header isOwn).verdict = .giveUp := by
  unfold onHeader
  dsimp only
  generalize (if n.stage = .saslSucceeded then n else { n with stage := .gotHeader }) = m
  split
  · exact .inl rfl
  · split
    · exact .inl rfl
    · unfold onAccepted underPolicy
      repeat' split
      all_goals first | exact .inl rfl | exact .inr rfl

/-- A turn after which the connection is authorized. -/
inductive Authorizes (n : Negotiation) (e : Xml.Element) (t : Turn) : Prop
  | sasl (stage : n.stage = .saslSucceeded) (same : t.negotiation = n)
      (element : e.is "features" Xml.Namespace.stream = true)
  | dialback (request : n.request = .sentRequest) (stage : n.stage = .sentRequest)
      (element : e.is "result" Xml.Namespace.dialback = true)
      (answer : ∃ m, Dialback.ofElement e = .ok m ∧ isAnswerTo n.route m = true ∧ m.isValid = true)
      (same : t.negotiation = { n with stage := .dialbackSucceeded })

/-- After an element the connection goes on or is given up, unless the element authorizes it or is a verify
element. -/
theorem onElement_verdict (e : Xml.Element) :
    (n.onElement setup w e).verdict = .proceed ∨ (n.onElement setup w e).verdict = .giveUp ∨
      (n.onElement setup w e).verdict = .authorize ∧ (n.onElement setup w e).world = w ∧
        n.Authorizes e (n.onElement setup w e) ∨
      Dialback.isVerify e = true ∧ n.onElement setup w e = ⟨n, w, .verify e⟩ := by
  unfold onElement
  split
  · rename_i hf
    rcases n.onFeatures_verdict setup w e with h | h | ⟨hs, h⟩
    · exact .inl h
    · exact .inr (.inl h)
    · rw [h]
      exact .inr (.inr (.inl ⟨rfl, rfl, .sasl hs rfl hf⟩))
  · split
    · exact .inl rfl
    · split
      · unfold onTlsProceed
        dsimp only
        split <;> exact .inl rfl
      · split
        · exact .inl rfl
        · split
          · exact .inl rfl
          · split
            · exact .inr (.inl rfl)
            · split
              · rename_i hr
                rcases n.onResult_verdict w e with h | h | ⟨hq, hs, ha, h⟩
                · exact .inl h
                · exact .inr (.inl h)
                · rw [h]
                  exact .inr (.inr (.inl ⟨rfl, rfl, .dialback hq hs hr ha rfl⟩))
              · split
                · rename_i hv
                  exact .inr (.inr (.inr ⟨hv, rfl⟩))
                · exact .inl rfl

theorem onElement_of_isVerify {e : Xml.Element} (hv : Dialback.isVerify e = true) :
    n.onElement setup w e = ⟨n, w, .verify e⟩ := by
  have other := Dialback.not_is_of_isVerify hv
  unfold onElement
  rw [if_neg (other _ _ (by decide)), if_neg (other _ _ (by decide)), if_neg (other _ _ (by decide)),
    if_neg (other _ _ (by decide)), if_neg (other _ _ (by decide)), if_neg (other _ _ (by decide)),
    if_neg (other _ _ (by decide)), if_pos hv]

end Negotiation

end Interdomain
