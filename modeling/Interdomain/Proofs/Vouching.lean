import Interdomain.Proofs.Claims

/-! Who can have a claim settled as valid. Any stream that the gateway reads verify elements from will do, be
it that of the claimant; only if all that vouch for open claims are their authorities is the settlement of
every claim theirs. -/
namespace Interdomain

open Protocol (Dialback)

namespace Moment

/-- The operation settles a claim as valid: the claim was open and no longer is, the peer that made it hears
of its success, and the claim is authorized on the link on which it was made. -/
def SettlesAsValid (m : Moment) (claim : Claim) : Prop :=
  ∃ link, m.gateway.IsOpen claim link ∧ ¬ m.next.IsOpen claim link ∧
    .send link (.element (Dialback.resultReply claim.source claim.destination true)) ∈ m.calls ∧
    ∃ carrier, m.next.admissions.get? claim = some carrier ∧ carrier.link = link

/-- The operation comes from the authority of a claim: on a link that was opened for the route to the source
of the claim, and on which since then a verify request was written with the challenge of the claim. -/
def FromAuthority (m : Moment) (claim : Claim) : Prop :=
  ∃ t e, m.operation = .outbound t (.element e) ∧ ∃ old address timeout new,
    m.gateway.world.trace = old ++ .connect t ⟨claim.source, claim.destination⟩ address timeout :: new ∧
    ∃ v, .send t (.element v) ∈ new ∧ Dialback.isVerify v = true ∧
      v.attribute? "id" = some claim.challenge ∧ v.attribute? "type" = none

end Moment

namespace Gateway

variable {P : CallKind → Prop} {g g' : Gateway}

/-- No claim is listed twice. -/
def ClaimsDistinct (g : Gateway) : Prop := ∀ x c, g.challenges.get? x = some c → c.claims.Nodup

theorem Fades.claimsDistinct (h : Fades P g g') (hd : g.ClaimsDistinct) : g'.ClaimsDistinct := by
  intro x c hc
  obtain ⟨c₀, h₀, _, hs⟩ := h.challenge x c hc
  exact (hd x c₀ h₀).sublist hs

theorem KeepsInbound.claimsDistinct (h : KeepsInbound g g') (hd : g.ClaimsDistinct) : g'.ClaimsDistinct :=
  fun x c hc => hd x c (h.challenges ▸ hc)

theorem openClaim_claimsDistinct (hd : g.ClaimsDistinct) (claim : Claim) :
    (g.openClaim claim).ClaimsDistinct := by
  intro x c hc
  rw [openClaim, Table.get?_modify] at hc
  split at hc
  · obtain ⟨c₀, h₀, rfl⟩ := Option.map_eq_some_iff.mp hc
    have hn := hd x c₀ h₀
    by_cases hm : claim ∈ c₀.claims
    · simpa only [List.insert_of_mem hm] using hn
    · simpa only [List.insert_of_not_mem hm] using List.nodup_cons.mpr ⟨hm, hn⟩
  · exact hd x c hc

theorem grant_claimsDistinct (hd : g.ClaimsDistinct) (claim : Claim) (link : LinkId) :
    (g.grant claim link).ClaimsDistinct := by
  intro x c hc
  rw [grant_challenges] at hc
  exact (g.closeClaim_fades (P := CallKind.IsPlain) claim).claimsDistinct hd x c hc

theorem step_claimsDistinct (ho : g.Orderly) (hd : g.ClaimsDistinct) (op : Operation) :
    (g.step op).ClaimsDistinct := by
  rcases step_cases ho op with h | ⟨e, _, hr⟩ | h
  · exact h.fades.claimsDistinct hd
  · rcases hr.cases with hf | ⟨claim, link, g₁, _, _, _, hk, _, he⟩
    · exact hf.claimsDistinct hd
    · rw [he]
      exact grant_claimsDistinct (hk.claimsDistinct hd) claim link
  · generalize g.step op = g' at h ⊢
    cases h with
    | asks _ fades => exact fades.claimsDistinct (openClaim_claimsDistinct hd _)
    | proves _ _ _ => exact fun x c hc => hd x c (identify_challenge _ _ _ _ hc)
    | @accepts t _ _ _ _ _ _ _ _ accepted =>
      intro x c hc
      rcases accepted.challenge x c hc with ⟨_, _, hn⟩ | h₀
      · rw [hn]
        exact List.nodup_nil
      · exact (g.openStream_fades (P := CallKind.IsPlain) t).claimsDistinct hd x c h₀

theorem run_claimsDistinct (setup : Setup) (world : World) (ops : List Operation) :
    ((initial setup world).run ops).Orderly ∧ ((initial setup world).run ops).ClaimsDistinct := by
  refine run_invariant (P := fun g => g.Orderly ∧ g.ClaimsDistinct) ?_ ?_ ops
  · refine ⟨initial_orderly setup world, ?_⟩
    intro x c h
    cases h
  · intro g op ⟨ho, hd⟩
    exact ⟨(step_total ho op).1, step_claimsDistinct ho hd op⟩

/-- A claim that is closed is open no longer, and the others are as they were. -/
theorem isOpen_closeClaim (hd : g.ClaimsDistinct) (claim other : Claim) (t : LinkId) :
    (g.closeClaim claim).IsOpen other t ↔ other ≠ claim ∧ g.IsOpen other t := by
  simp only [IsOpen, get?_closeClaim, Option.map_eq_some_iff]
  constructor
  · rintro ⟨_, ⟨c, found, rfl⟩, hl, hm⟩
    split at hm
    · have hne : other ≠ claim := by
        intro h
        rw [h] at hm
        exact (hd _ c found).not_mem_erase hm
      rw [if_pos ‹_›] at hl
      exact ⟨hne, c, found, hl, List.mem_of_mem_erase hm⟩
    · rename_i hx
      rw [if_neg hx] at hl
      exact ⟨fun h => hx (by rw [h]), c, found, hl, hm⟩
  · rintro ⟨hne, c, hc, hl, hm⟩
    refine ⟨_, ⟨c, hc, rfl⟩, ?_, ?_⟩
    · split <;> exact hl
    · split
      · exact (List.mem_erase_of_ne hne).mpr hm
      · exact hm

theorem isOpen_grant (hd : g.ClaimsDistinct) (claim other : Claim) (link t : LinkId) :
    (g.grant claim link).IsOpen other t ↔ other ≠ claim ∧ g.IsOpen other t := by
  rw [← isOpen_closeClaim hd, IsOpen, grant_challenges]
  rfl

theorem not_grant_of_grows {w w' : World} (h : World.Grows CallKind.IsUngranting w w') (t : LinkId)
    (a b : String) : .send t (.element (Dialback.resultReply a b true)) ∉ w'.since w := by
  intro hm
  exact h.since.2 _ hm (CallKind.ofElement_resultReply a b true)

end Gateway

namespace Moment

variable {m : Moment}

/-- An element that vouches for an open claim settles it as valid. -/
theorem Confirms.settles (hd : m.gateway.ClaimsDistinct) {claim : Claim} {link : LinkId}
    (h : m.Confirms claim link) : m.SettlesAsValid claim := by
  obtain ⟨⟨e, hh, hv⟩, ho, ha⟩ := h
  obtain ⟨t, g₁, hnotes, he⟩ := hh.step_eq
  have hk := hnotes.keepsInbound
  have hw := hnotes.world
  have hn : m.next = g₁.grant claim link :=
    he.trans (Gateway.onVerify_of_vouches t hv (hk.isOpen_iff.mpr ho) ((hk.admits_iff hw).mpr ha))
  have hd₁ : g₁.ClaimsDistinct := hk.claimsDistinct hd
  refine ⟨link, ho, ?_, ?_, ?_⟩
  · rw [hn, Gateway.isOpen_grant hd₁]
    exact fun h => h.1 rfl
  · have hg := ((g₁.closeClaim claim).setAdmissions_grows (P := CallKind.IsPlain) CallKind.isPlain
      ((g₁.closeClaim claim).admissions.register claim
        (Carrier.start link ((g₁.closeClaim claim).world.link link).peerAddress
          (g₁.closeClaim claim).now)))
    have hs : m.calls = (g₁.grant claim link).world.since g₁.world := by rw [calls, hn, hw]
    rw [hs]
    exact World.mem_since_sendElement hg link _
  · rw [hn]
    exact ⟨_, (g₁.get?_grant claim claim link).trans (if_pos rfl), rfl⟩

/-- A claim is settled as valid exactly when an element that the gateway hears confirms it. -/
theorem settlesAsValid_iff (ho : m.gateway.Orderly) (hd : m.gateway.ClaimsDistinct) (claim : Claim) :
    m.SettlesAsValid claim ↔ ∃ link, m.Confirms claim link := by
  refine ⟨?_, fun ⟨link, h⟩ => h.settles hd⟩
  rintro ⟨link, hopen, hclosed, hsend, _⟩
  rcases Gateway.step_cases ho m.operation with h | ⟨e, hh, hr⟩ | h
  · rcases h.grants with hc | hg
    · refine absurd ?_ hclosed
      obtain ⟨c, hc₀, hl⟩ := hopen
      exact ⟨c, by rw [next, hc]; exact hc₀, hl⟩
    · exact absurd hsend (Gateway.not_grant_of_grows hg _ _ _)
  · rcases hr.cases with hf | ⟨other, carrier, g₁, hv, ho', ha, hk, _, he⟩
    · have hg := hf.grows.mono fun _ => CallKind.IsPlain.ungranting
      exact absurd hsend (Gateway.not_grant_of_grows hg _ _ _)
    · by_cases hne : claim = other
      · rw [hne]
        exact ⟨carrier, ⟨e, hh, hv⟩, ho', ha⟩
      · refine absurd ?_ hclosed
        rw [next, he]
        exact (Gateway.isOpen_grant (hk.claimsDistinct hd) other claim carrier link).mpr
          ⟨hne, hk.isOpen_iff.mpr hopen⟩
  · exact absurd hsend (Gateway.not_grant_of_grows h.ungranting _ _ _)

end Moment

/-- In every run, what settles a claim as valid is a verify element that vouches for it while it is open,
from whatever stream the gateway hears it; so claims are settled by their authorities alone in just those
runs in which nobody else vouches for one that is open. -/
theorem Gateway.settled_by_whoever_vouches (setup : Setup) (world : World) (ops : List Operation) :
    let moments := (initial setup world).history ops
    (∀ m ∈ moments, ∀ claim, m.SettlesAsValid claim ↔ ∃ link, m.Confirms claim link) ∧
    ((∀ m ∈ moments, ∀ claim, m.SettlesAsValid claim → m.FromAuthority claim) ↔
      ∀ m ∈ moments, ∀ claim link, m.Confirms claim link → m.FromAuthority claim) := by
  intro moments
  have settled : ∀ m ∈ moments, ∀ claim, m.SettlesAsValid claim ↔ ∃ link, m.Confirms claim link := by
    intro m hm claim
    have hi := history_invariant (P := fun g => g.Orderly ∧ g.ClaimsDistinct)
      (run_claimsDistinct setup world) hm
    exact Moment.settlesAsValid_iff hi.1 hi.2 claim
  refine ⟨settled, ?_, ?_⟩
  · intro h m hm claim link hc
    exact h m hm claim ((settled m hm claim).mpr ⟨link, hc⟩)
  · intro h m hm claim hs
    obtain ⟨link, hc⟩ := (settled m hm claim).mp hs
    exact h m hm claim link hc

namespace Gateway

/-- A peer claims a domain, and says itself that the claim is valid. -/
def forgery : List Operation :=
  [.inbound 1 (.header (sampleHeader "b.example")),
    .inbound 1 (.element (Dialback.result "a.example" "b.example" "forged")),
    .inbound 1 (.element (Dialback.verifyReply "a.example" "b.example" "c" true))]

/-- A claim can be settled as valid by the peer that makes it, on the very stream of the claim. -/
theorem forgery_settles : ∃ m ∈ sample.history forgery,
    m.SettlesAsValid ⟨"c", "a.example", "b.example"⟩ ∧
      ¬ m.FromAuthority ⟨"c", "a.example", "b.example"⟩ := by
  have pending : (sample.run (forgery.take 2)).challenges.get? "c" = some
      ⟨1, some "b.example", "a.example", 1, [⟨"c", "a.example", "b.example"⟩], 0⟩ := by decide +kernel
  have settled : (sample.run forgery).challenges.get? "c" = some
      ⟨1, some "b.example", "a.example", 1, [], 0⟩ := by decide +kernel
  have admitted : (sample.run forgery).admissions.get? ⟨"c", "a.example", "b.example"⟩ =
      some ⟨1, none, 0, 0, 0⟩ := by decide +kernel
  have told : Effect.send 1 (.element (Dialback.resultReply "b.example" "a.example" true)) ∈
      (sample.run forgery).world.since (sample.run (forgery.take 2)).world := by decide +kernel
  refine ⟨⟨sample.run (forgery.take 2), _⟩, .tail _ (.tail _ (.head _)), ?_, ?_⟩
  · refine ⟨1, ⟨_, pending, rfl, .head _⟩, ?_, told, _, admitted, rfl⟩
    rintro ⟨c, hc, _, hm⟩
    cases settled.symm.trans hc
    cases hm
  · rintro ⟨t, e, he, _⟩
    cases he

end Gateway

end Interdomain
