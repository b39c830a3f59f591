import Interdomain.Proofs.Admission
import Interdomain.Proofs.Streams

/-! Nothing outlives the stream of a peer. A stream that reports a header only at its start, and after it was
restarted, has a session exactly while its challenge may be pending; so all challenges, claims and admissions
belong to streams that are there, and go with them. The sweep of idle streams without authentication relies on
the order of last uses: an admission on such a stream is from before, so it is idle no later than the stream. -/
namespace Interdomain

open Protocol (Dialback)

namespace Moment

/-- The peer's header arrives on the link. -/
def Heads (m : Moment) (t : LinkId) : Prop := ∃ header, m.operation = .inbound t (.header header)

/-- The stream of the peer on the link is restarted, and not that of a link with the same number that the
gateway opened. -/
def Restarts (m : Moment) (t : LinkId) : Prop := (∃ event, m.operation = .inbound t event) ∧ .reset t ∈ m.calls

end Moment

/-- On every link a header arrives once, and once more after each restart. -/
def HeadsOnce (h : List Moment) : Prop :=
  ∀ t j i, j < i → Happens h j (·.Heads t) → Happens h i (·.Heads t) →
    ∃ k, j < k ∧ k < i ∧ Happens h k (·.Restarts t)

/-- A header has arrived on the link, and the stream has not been restarted since. -/
def Greeted (h : List Moment) (t : LinkId) : Prop :=
  ∃ j, Happens h j (·.Heads t) ∧ ∀ k, j < k → ¬ Happens h k (·.Restarts t)

section Headers

variable {h k : List Moment} {m : Moment} {t : LinkId}

theorem HeadsOnce.left (hh : HeadsOnce (h ++ k)) : HeadsOnce h := by
  intro t j i hji hj hi
  obtain ⟨x, hjx, hxi, m, hm, hx⟩ := hh t j i hji hj.append hi.append
  refine ⟨x, hjx, hxi, m, ?_, hx⟩
  rwa [List.getElem?_append_left (Nat.lt_trans hxi hi.lt_length)] at hm

theorem Greeted.concat (hg : Greeted h t) (hn : ¬ m.Restarts t) : Greeted (h ++ [m]) t := by
  obtain ⟨j, hj, hk⟩ := hg
  refine ⟨j, hj.append, fun k hjk hr => ?_⟩
  rcases Happens.concat_iff.mp hr with hr | ⟨_, hr⟩
  · exact hk k hjk hr
  · exact hn hr

theorem Greeted.last (hm : m.Heads t) : Greeted (h ++ [m]) t := by
  refine ⟨h.length, Happens.last hm, fun k hk hr => ?_⟩
  have hlt := hr.lt_length
  simp only [List.length_append, List.length_singleton] at hlt
  omega

/-- No header arrives on a stream that has had its own. -/
theorem HeadsOnce.not_greeted (hh : HeadsOnce (h ++ [m])) (hm : m.Heads t) : ¬ Greeted h t := by
  rintro ⟨j, hj, hk⟩
  obtain ⟨k, hjk, hlt, hr⟩ := hh t j h.length hj.lt_length hj.append (Happens.last hm)
  rcases Happens.concat_iff.mp hr with hr | ⟨rfl, _⟩
  · exact hk k hjk hr
  · omega

end Headers

namespace Gateway

variable {g g' : Gateway} {h : List Moment} {t u : LinkId} {s : Session} {now : Nat}

/-- A pending challenge belongs to the stream whose session has it, and the claims under it are made with it;
an admission belongs to a stream that is there, and was not used after one without authentication. -/
structure Housed (g : Gateway) : Prop where
  pending : ∀ x c, g.challenges.get? x = some c → ∃ s, g.sessionOn c.link = some s ∧ s.challenge = x
  claims : ∀ x c, g.challenges.get? x = some c → ∀ k ∈ c.claims, k.challenge = x
  admitted : ∀ k c, g.admissions.get? k = some c → ∃ stream, g.streams.get? c.link = some stream ∧
    ∀ peer carrier, stream.phase = .legacy peer carrier → c.lastUsed ≤ carrier.lastUsed
  past : ∀ k c, g.admissions.get? k = some c → c.lastUsed ≤ g.now

namespace Housed

variable (hg : Housed g)
include hg

/-- A stream without a session has no challenge. -/
theorem unchallenged (ht : g.sessionOn t = none) {x : String} {c : Challenge}
    (hc : g.challenges.get? x = some c) : c.link ≠ t := by
  rintro rfl
  obtain ⟨s, hs, _⟩ := hg.pending x c hc
  rw [ht] at hs
  cases hs

theorem stays (h : Stays g g') : Housed g' := by
  have session (t : LinkId) : g'.sessionOn t = g.sessionOn t := by rw [sessionOn, sessionOn, h.streams]
  refine ⟨fun x c hc => ?_, fun x c hc k hk => ?_, fun k c hk => ?_, fun k c hk => ?_⟩
  · obtain ⟨c₀, h₀, hl, _⟩ := h.challenge x c hc
    rw [session, ← hl]
    exact hg.pending x c₀ h₀
  · obtain ⟨c₀, h₀, _, hm⟩ := h.challenge x c hc
    exact (hm k hk).elim (hg.claims x c₀ h₀ k) id
  · rw [h.streams]
    rcases h.admission k c hk with ⟨c₀, h₀, hl, hu⟩ | ⟨hl, _⟩
    · rw [← hl, ← hu]
      exact hg.admitted k c₀ h₀
    · have live : ∃ s, g.sessionOn c.link = some s := by
        rcases hl with hs | ⟨x, ch, hc, hl⟩
        · exact hs
        · obtain ⟨s, hs, _⟩ := hg.pending x ch hc
          exact ⟨s, hl ▸ hs⟩
      obtain ⟨s, hs⟩ := live
      obtain ⟨stream, hstream, hp⟩ := sessionOn_eq_some hs
      refine ⟨stream, hstream, fun peer carrier hlegacy => ?_⟩
      rw [hp] at hlegacy
      cases hlegacy
  · rcases h.admission k c hk with ⟨c₀, h₀, _, hu⟩ | ⟨_, hu⟩
    · exact hu ▸ Nat.le_trans (hg.past k c₀ h₀) h.now
    · exact hu

/-- One stream changes: it keeps no challenge but one that its session has, and no admission unless it is
there. -/
theorem change (t : LinkId) (other : ∀ u, u ≠ t → g'.streams.get? u = g.streams.get? u)
    (challenge : ∀ x c, g'.challenges.get? x = some c → g.challenges.get? x = some c ∧ c.link ≠ t ∨
      c.link = t ∧ c.claims = [] ∧ ∃ s, g'.sessionOn t = some s ∧ s.challenge = x)
    (admission : ∀ k c, g'.admissions.get? k = some c → g.admissions.get? k = some c ∨
      c.link = t ∧ c.lastUsed ≤ g'.now)
    (there : ∀ k c, g'.admissions.get? k = some c → c.link = t → ∃ stream, g'.streams.get? t = some stream ∧
      ∀ peer carrier, stream.phase = .legacy peer carrier → c.lastUsed ≤ carrier.lastUsed)
    (now : g.now ≤ g'.now) : Housed g' := by
  refine ⟨fun x c hc => ?_, fun x c hc k hk => ?_, fun k c hk => ?_, fun k c hk => ?_⟩
  · rcases challenge x c hc with ⟨hc, hne⟩ | ⟨hl, _, hs⟩
    · rw [sessionOn, other _ hne]
      exact hg.pending x c hc
    · exact hl ▸ hs
  · rcases challenge x c hc with ⟨hc, _⟩ | ⟨_, hnil, _⟩
    · exact hg.claims x c hc k hk
    · rw [hnil] at hk
      cases hk
  · by_cases hl : c.link = t
    · exact hl ▸ there k c hk hl
    · rcases admission k c hk with h₀ | ⟨hl', _⟩
      · rw [other _ hl]
        exact hg.admitted k c h₀
      · exact absurd hl' hl
  · rcases admission k c hk with h₀ | ⟨_, hu⟩
    · exact Nat.le_trans (hg.past k c h₀) now
    · exact hu

theorem openStream (t : LinkId) : Housed (g.openStream t) := by
  unfold Gateway.openStream
  split
  · exact hg
  · rename_i hfree
    have free : g.streams.get? t = none := by simpa [Table.contains] using hfree
    have none : g.sessionOn t = none := by rw [sessionOn, free]; rfl
    refine hg.change t (fun u hu => ?_) (fun x c hc => .inl ⟨hc, hg.unchallenged none hc⟩)
      (fun k c hk => .inl hk) (fun k c hk hl => ?_) (Nat.le_refl _)
    · simp [Table.get?_insert, hu]
    · obtain ⟨stream, hs, _⟩ := hg.admitted k c hk
      rw [hl, free] at hs
      cases hs

theorem admitLegacy {stream : InboundStream} (hs : g.streams.get? t = some stream)
    (hp : stream.phase = .awaitingHeader) (reply : Stream.Header) (peer : String) :
    Housed (g.admitLegacy t reply peer) := by
  have none : g.sessionOn t = none := by
    rw [sessionOn, hs]
    simp [hp, Phase.session?]
  refine hg.change t (fun u hu => ?_) (fun x c hc => .inl ⟨hc, hg.unchallenged none hc⟩) (fun k c hk => .inl hk)
    (fun k c hk _ => ?_) (Nat.le_refl _)
  · simp [Gateway.admitLegacy, enterPhase, Table.get?_modify, hu]
  · simp only [Gateway.admitLegacy, enterPhase, Table.get?_modify, hs, if_true, Option.map_some,
      Option.some.injEq, exists_eq_left', Phase.legacy.injEq]
    rintro _ carrier ⟨_, rfl⟩
    exact hg.past k c hk

/-- An accepted header gives the stream its challenge. -/
theorem acceptStream {stream : InboundStream} (hs : g.streams.get? t = some stream)
    (hp : stream.phase = .awaitingHeader) (reply : Stream.Header) (host : String) (peer : Option String)
    (version : Nat) (offer : Offer) : Housed (g.acceptStream t reply host peer version offer) := by
  have none : g.sessionOn t = none := by
    rw [sessionOn, hs]
    simp [hp, Phase.session?]
  have hstreams := g.challenge_streams t host peer version
  obtain ⟨stream', here, phase⟩ : ∃ stream',
      (g.acceptStream t reply host peer version offer).streams.get? t = some stream' ∧
        stream'.phase = .streaming ⟨g.world.draw.2, host, peer, version⟩ := by
    rw [acceptStream_eq]
    simp [enterPhase, Table.get?_modify, act, hstreams, hs]
  have hnow : g.now ≤ (g.acceptStream t reply host peer version offer).now :=
    (acceptStream_accepted g t reply host peer version offer).grows.now
  refine hg.change t (fun u hu => ?_) (fun x c hc => ?_) (fun k c hk => ?_) (fun k c hk _ => ?_) hnow
  · rw [acceptStream_eq]
    simp [enterPhase, Table.get?_modify, hu, act, hstreams]
  · rw [acceptStream_eq] at hc
    have hc : (g.challenge t host peer version).challenges.get? x = some c := hc
    rw [challenge_challenges, Table.get?_insert] at hc
    split at hc
    · rename_i hx
      cases hc
      exact .inr ⟨rfl, rfl, _, sessionOn_of_get? here (by rw [phase]; rfl), hx.symm⟩
    · exact .inl ⟨hc, hg.unchallenged none hc⟩
  · rw [acceptStream_eq] at hk
    have hk : (g.challenge t host peer version).admissions.get? k = some c := hk
    unfold challenge at hk
    dsimp only at hk
    split at hk
    · rw [get?_authorize] at hk
      split at hk
      · cases hk
        exact .inr ⟨rfl, hnow⟩
      · exact .inl hk
    · exact .inl hk
  · refine ⟨stream', here, fun peer carrier hlegacy => ?_⟩
    rw [phase] at hlegacy
    cases hlegacy

/-- A stream without authentication goes on. -/
theorem carryLegacy {stream : InboundStream} {peer : String} {carrier : Carrier}
    (hs : g.streams.get? t = some stream) (hp : stream.phase = .legacy peer carrier) :
    Housed { g with streams := g.streams.modify t fun x => { x with phase := .legacy peer (carrier.carry g.now) } } := by
  have none : g.sessionOn t = none := by
    rw [sessionOn, hs]
    simp [hp, Phase.session?]
  refine hg.change t (fun u hu => ?_) (fun x c hc => .inl ⟨hc, hg.unchallenged none hc⟩) (fun k c hk => .inl hk)
    (fun k c hk _ => ?_) (Nat.le_refl _)
  · simp [Table.get?_modify, hu]
  · simp only [Table.get?_modify, hs, if_true, Option.map_some, Option.some.injEq, exists_eq_left',
      Phase.legacy.injEq]
    rintro _ _ ⟨_, rfl⟩
    exact hg.past k c hk

/-- A stream begins anew, and its challenge goes. -/
theorem restart (hs : g.sessionOn t = some s) (other : ∀ u, u ≠ t → g'.streams.get? u = g.streams.get? u)
    (here : ∃ stream, g'.streams.get? t = some stream ∧ stream.phase = .awaitingHeader)
    (challenges : g'.challenges = g.challenges.erase s.challenge) (admissions : g'.admissions = g.admissions)
    (now : g.now ≤ g'.now) : Housed g' := by
  obtain ⟨stream, hstream, hp⟩ := here
  refine hg.change t other (fun x c hc => .inl ?_) (fun k c hk => .inl (admissions ▸ hk)) (fun k c _ _ => ?_) now
  · rw [challenges, Table.get?_erase] at hc
    split at hc
    · cases hc
    · rename_i hne
      refine ⟨hc, ?_⟩
      rintro rfl
      obtain ⟨s', hs', hx⟩ := hg.pending x c hc
      rw [hs] at hs'
      cases hs'
      exact hne hx.symm
  · refine ⟨stream, hstream, fun peer carrier hlegacy => ?_⟩
    rw [hp] at hlegacy
    cases hlegacy

/-- A stream goes, with its challenge and its admissions. -/
theorem remove (gone : ∀ u, g'.streams.get? u = if u = t then none else g.streams.get? u)
    (challenge : ∀ x c, g'.challenges.get? x = some c → g.challenges.get? x = some c ∧ c.link ≠ t)
    (admission : ∀ k c, g'.admissions.get? k = some c → g.admissions.get? k = some c ∧ c.link ≠ t)
    (now : g.now ≤ g'.now) : Housed g' :=
  hg.change t (fun u hu => by rw [gone, if_neg hu]) (fun x c hc => .inl (challenge x c hc))
    (fun k c hk => .inl (admission k c hk).1) (fun k c hk hl => absurd hl (admission k c hk).2) now

end Housed

theorem get?_dismiss (g : Gateway) (link : LinkId) (k : Claim) :
    (g.dismiss link).admissions.get? k = (g.admissions.get? k).filter fun c => c.link ≠ link := by
  rw [dismiss, setAdmissions_admissions, Registry.get?_unregisterWhere]
  simp

theorem dismiss_now (g : Gateway) (link : LinkId) : g.now ≤ (g.dismiss link).now :=
  (g.dismiss_fades link).grows.now

/-- What is left after a stream has gone belongs to others. -/
theorem onClosed_housed (hg : Housed g) (t : LinkId) : Housed (g.onClosed t) := by
  unfold onClosed
  split
  · exact hg
  · rename_i stream hs
    have challenged (x : String) (c : Challenge) (hc : g.challenges.get? x = some c) (hl : c.link = t) :
        ∃ s, stream.phase = .streaming s ∧ s.challenge = x := by
      obtain ⟨s, hs', hx⟩ := hg.pending x c hc
      obtain ⟨stream', hstream, hp⟩ := sessionOn_eq_some hs'
      rw [hl, hs] at hstream
      cases hstream
      exact ⟨s, hp, hx⟩
    have removed (g₁ : Gateway) (hstreams : g₁.streams = g.streams.erase t) (hnow : g.now ≤ g₁.now)
        (hadmissions : g₁.admissions = g.admissions)
        (hchallenges : ∀ x c, g₁.challenges.get? x = some c → g.challenges.get? x = some c ∧ c.link ≠ t) :
        Housed (g₁.dismiss t) := by
      refine hg.remove (t := t) (fun u => ?_) (fun x c hc => ?_) (fun k c hk => ?_)
        (Nat.le_trans hnow (dismiss_now _ _))
      · rw [dismiss, setAdmissions_streams, hstreams, Table.get?_erase]
      · rw [dismiss, setAdmissions_challenges] at hc
        exact hchallenges x c hc
      · rw [get?_dismiss, hadmissions] at hk
        obtain ⟨hk, hl⟩ := Option.filter_eq_some_iff.mp hk
        exact ⟨hk, by simpa using hl⟩
    have free (hp : ∀ s, stream.phase ≠ .streaming s) (x : String) (c : Challenge)
        (hc : g.challenges.get? x = some c) : g.challenges.get? x = some c ∧ c.link ≠ t := by
      refine ⟨hc, fun hl => ?_⟩
      obtain ⟨s, hs, _⟩ := challenged x c hc hl
      exact hp s hs
    dsimp only
    split
    · exact removed _ rfl (Nat.le_refl _) rfl (free (by simp_all))
    · rename_i s hp
      refine removed _ rfl (Nat.le_refl _) rfl fun x c hc => ?_
      have hc : (g.challenges.erase s.challenge).get? x = some c := hc
      rw [Table.get?_erase] at hc
      split at hc
      · cases hc
      · rename_i hne
        refine ⟨hc, fun hl => ?_⟩
        obtain ⟨s', hs', hx⟩ := challenged x c hc hl
        rw [hp] at hs'
        cases hs'
        exact hne hx.symm
    · exact removed _ rfl (Nat.le_refl _) rfl (free (by simp_all))

/-- What holds before a sweep and is kept by each of its steps holds after it. -/
theorem sweepEach_induction {κ : Type} {I : Gateway → Prop} {step : Gateway → κ → Gateway × Nat} {ks : List κ}
    (each : ∀ g, I g → ∀ k ∈ ks, I (step g k).1) (hg : I g) : I (sweepEach step ks g).1 := by
  induction ks generalizing g with
  | nil => exact hg
  | cons k ks ih => exact ih (fun g hg j hj => each g hg j (by simp [hj])) (each g hg k (by simp))

theorem mem_keysWhere {κ ν : Type} [DecidableEq κ] {t : Table κ ν} {p : κ → ν → Bool} {k : κ} :
    k ∈ keysWhere t.entries p ↔ ∃ v, t.get? k = some v ∧ p k v = true := by
  simp only [keysWhere, List.mem_map, List.mem_filter, Prod.exists, Table.get?_eq_some]
  constructor
  · rintro ⟨_, v, ⟨hm, hp⟩, rfl⟩
    exact ⟨v, hm, hp⟩
  · rintro ⟨v, hm, hp⟩
    exact ⟨k, v, ⟨hm, hp⟩, rfl⟩

theorem get?_releaseClaim (g : Gateway) (claim k : Claim) :
    (g.releaseClaim claim).1.admissions.get? k = if k = claim then none else g.admissions.get? k := by
  have released : (g.setAdmissions (g.admissions.unregister claim)).admissions.get? k =
      if k = claim then none else g.admissions.get? k := by
    rw [setAdmissions_admissions, Registry.get?_unregister]
  unfold releaseClaim
  split
  · rename_i hn
    split
    · rename_i hk
      rw [hk, hn]
    · rfl
  · dsimp only
    split
    · exact released
    · exact released

/-- The claims of a sweep are released, and no other. -/
theorem get?_releaseClaims (ks : List Claim) (g : Gateway) (k : Claim) :
    (sweepEach (fun g c => (g.releaseClaim c).map id Bool.toNat) ks g).1.admissions.get? k =
      if k ∈ ks then none else g.admissions.get? k := by
  induction ks generalizing g with
  | nil => simp [sweepEach]
  | cons c ks ih =>
    refine (ih (g.releaseClaim c).1).trans ?_
    rw [get?_releaseClaim]
    by_cases hk : k = c <;> by_cases hm : k ∈ ks <;> simp [hk, hm]

theorem endLegacy_housed (hg : Housed g) (free : ∀ k c, g.admissions.get? k = some c → c.link ≠ t) :
    Housed (g.endLegacy t).1 := by
  unfold endLegacy
  split
  · exact hg
  · rename_i stream hs
    split
    · rename_i peer carrier hp
      have none : g.sessionOn t = none := by
        rw [sessionOn, hs]
        simp [hp, Phase.session?]
      exact hg.remove (t := t) (fun u => Table.get?_erase _ _ _)
        (fun x c hc => ⟨hc, hg.unchallenged none hc⟩) (fun k c hk => ⟨hk, free k c hk⟩) (Nat.le_refl _)
    · exact hg

theorem endSilent_housed (hg : Housed g)
    (silent : ∀ stream, g.streams.get? t = some stream → stream.phase = .awaitingHeader) :
    Housed (g.endSilent t).1 := by
  unfold endSilent
  split
  · have none : g.sessionOn t = none := by
      rw [sessionOn]
      cases hs : g.streams.get? t with
      | none => rfl
      | some stream => simp [silent stream hs, Phase.session?]
    refine hg.remove (t := t) (fun u => ?_) (fun x c hc => ?_) (fun k c hk => ?_)
      (dismiss_now { g with streams := g.streams.erase t } t)
    · simp only [act, dismiss, setAdmissions_streams, Table.get?_erase]
    · simp only [act, dismiss, setAdmissions_challenges] at hc
      exact ⟨hc, hg.unchallenged none hc⟩
    · have hk : (dismiss { g with streams := g.streams.erase t } t).admissions.get? k = some c := hk
      rw [get?_dismiss] at hk
      obtain ⟨hk, hl⟩ := Option.filter_eq_some_iff.mp hk
      exact ⟨hk, by simpa using hl⟩
  · exact hg

/-- Idle streams without authentication end after the idle admissions, so no admission is left on them. -/
theorem sweepIdle_housed (hg : Housed g) (now : Nat) : Housed (g.sweepIdle now).1 := by
  unfold sweepIdle
  dsimp only
  generalize hg₁ : (sweepEach _ (g.idleRoutes now) g).1 = g₁
  have housed₁ : Housed g₁ := hg₁ ▸ sweepEach_induction
    (fun g hg r _ => hg.stays (g.releaseRoute_stays r)) hg
  generalize hg₂ : (sweepEach _ (g₁.idleClaims now) g₁).1 = g₂
  have housed₂ : Housed g₂ := hg₂ ▸ sweepEach_induction
    (fun g hg c _ => hg.stays (g.releaseClaim_stays c)) housed₁
  have setup : g₂.setup = g₁.setup := hg₂ ▸ sweepEach_induction (I := (·.setup = g₁.setup))
    (fun g hg c _ => (g.releaseClaim_fades c).setup.trans hg) rfl
  have busy (k : Claim) (c : Carrier) (hk : g₂.admissions.get? k = some c) :
      ¬ g₂.setup.settings.idleTimeout ≤ c.idleFor now := by
    intro hidle
    rw [← hg₂] at hk
    rw [get?_releaseClaims] at hk
    split at hk
    · cases hk
    · rename_i hm
      exact hm (mem_keysWhere.mpr ⟨c, hk, by simpa [← setup] using hidle⟩)
  have free (k : Claim) (c : Carrier) (hk : g₂.admissions.get? k = some c) :
      c.link ∉ g₂.idleLegacy now := by
    intro hm
    obtain ⟨stream, hs, hp⟩ := mem_keysWhere.mp hm
    split at hp
    · rename_i peer carrier hphase
      obtain ⟨stream', hs', before⟩ := housed₂.admitted k c hk
      rw [hs] at hs'
      cases hs'
      have hused := before peer carrier hphase
      have hidle : g₂.setup.settings.idleTimeout ≤ carrier.idleFor now := by simpa using hp
      refine busy k c hk (Nat.le_trans hidle ?_)
      simp only [Carrier.idleFor]
      omega
    · cases hp
  refine (sweepEach_induction (I := fun g => Housed g ∧ g.admissions = g₂.admissions) ?_ ⟨housed₂, rfl⟩).1
  rintro g ⟨hg, ha⟩ t ht
  refine ⟨endLegacy_housed hg fun k c hk hl => free k c (ha ▸ hk) (hl ▸ ht), ?_⟩
  unfold endLegacy
  split
  · exact ha
  · split <;> exact ha

/-- Streams that say nothing have no challenge. -/
theorem sweepUnauthorized_housed (hg : Housed g) (now : Nat) : Housed (g.sweepUnauthorized now).1 := by
  unfold sweepUnauthorized
  dsimp only
  generalize hg₁ : (sweepEach endChallenge (g.staleChallenges now) g).1 = g₁
  have housed₁ : Housed g₁ := hg₁ ▸ sweepEach_induction
    (fun g hg x _ => hg.stays (g.endChallenge_stays x)) hg
  refine sweepEach_induction (fun g hg r _ => hg.stays (g.closeAttempt_stays r)) ?_
  have silent (t : LinkId) (ht : t ∈ g₁.silentStreams now) (stream : InboundStream)
      (hs : g₁.streams.get? t = some stream) : stream.phase = .awaitingHeader := by
    obtain ⟨stream', hs', hp⟩ := mem_keysWhere.mp ht
    rw [hs] at hs'
    cases hs'
    simp only [Bool.and_eq_true, decide_eq_true_eq] at hp
    exact hp.1
  refine (sweepEach_induction (I := fun g => Housed g ∧ ∀ t stream, g.streams.get? t = some stream →
    g₁.streams.get? t = some stream) ?_ ⟨housed₁, fun _ _ => id⟩).1
  rintro g ⟨hg, hs⟩ t ht
  exact ⟨endSilent_housed hg fun stream h => silent t ht stream (hs t stream h),
    fun u stream h => hs u stream (endSilent_streams g t h)⟩

theorem sweepAt_housed (hg : Housed g) (now : Nat) : Housed (g.sweepAt now).1 := by
  have unauthorized := sweepUnauthorized_housed (sweepIdle_housed hg now) now
  unfold sweepAt
  dsimp only
  exact sweepQueues_relation (R := fun g g' => Housed g → Housed g') (fun _ => id) (fun _ _ _ a b => b ∘ a)
    (fun g r hg => hg.stays (sweepQueue_stays now g r)) _ _ unauthorized

theorem StreamStep.housed {event : LinkEvent} (hs : StreamStep g t event g') (hg : Housed g)
    (fresh : (∃ header, event = .header header) →
      ∀ stream, g.streams.get? t = some stream → stream.phase = .awaitingHeader) : Housed g' := by
  have hopen := hg.openStream t
  cases hs with
  | stays stays _ => exact hg.stays stays
  | opens => exact hopen
  | refuses stays => exact hopen.stays stays
  | admits =>
    obtain ⟨stream, hstream, hp⟩ := openStream_awaits (fresh ⟨_, rfl⟩)
    exact hopen.admitLegacy hstream hp _ _
  | accepts =>
    obtain ⟨stream, hstream, hp⟩ := openStream_awaits (fresh ⟨_, rfl⟩)
    exact hopen.acceptStream hstream hp _ _ _ _ _
  | carries found phase => exact (hg.carryLegacy found phase).stays (emit_stays _ _)
  | restarts session other here challenges admissions now =>
    exact hg.restart session other here challenges admissions now
  | closes => exact onClosed_housed hg t

/-- What keeps the streams of peers and their belongings together. -/
structure Lodged (h : List Moment) (g : Gateway) : Prop where
  orderly : g.Orderly
  housed : g.Housed
  greeted : ∀ t stream, g.streams.get? t = some stream → stream.phase ≠ .awaitingHeader → Greeted h t

theorem Lodged.step {op : Operation} (hl : Lodged h g) (hh : HeadsOnce (h ++ [⟨g, op⟩])) :
    Lodged (h ++ [⟨g, op⟩]) (g.step op) := by
  have orderly := (step_total hl.orderly op).1
  have still (event : ∀ t e, op ≠ .inbound t e) (housed : (g.step op).Housed)
      (streams : ∀ t stream, (g.step op).streams.get? t = some stream → g.streams.get? t = some stream) :
      Lodged (h ++ [⟨g, op⟩]) (g.step op) := by
    refine ⟨orderly, housed, fun t stream hs hp => (hl.greeted t stream (streams t stream hs) hp).concat ?_⟩
    rintro ⟨⟨e, he⟩, _⟩
    exact event t e he
  have stays (event : ∀ t e, op ≠ .inbound t e) (hs : Stays g (g.step op)) : Lodged (h ++ [⟨g, op⟩]) (g.step op) :=
    still event (hl.housed.stays hs) fun t stream => by rw [hs.streams]; exact id
  cases op with
  | submit stanza resolved =>
    exact stays (by simp) (g.step_submit stanza resolved ▸ (g.submit_step stanza resolved).stays)
  | inbound t event =>
    have hs := g.onInbound_streams t event
    refine ⟨orderly, hs.housed hl.housed ?_, fun u stream hu hp => ?_⟩
    · rintro ⟨header, rfl⟩ stream hstream
      refine Decidable.byContradiction fun hp => ?_
      exact hh.not_greeted ⟨header, rfl⟩ (hl.greeted t stream hstream hp)
    · by_cases hut : u = t
      · subst hut
        rcases hs.past hu hp with ⟨header, rfl⟩ | ⟨⟨before, hbefore, hpb⟩, hreset⟩
        · exact .last ⟨header, rfl⟩
        · exact (hl.greeted u before hbefore hpb).concat fun hr => hreset hr.2
      · refine (hl.greeted u stream (hs.other hut ▸ hu) hp).concat ?_
        rintro ⟨⟨e, he⟩, _⟩
        cases he
        exact hut rfl
  | outbound t event => exact stays (by simp) (onOutbound_stays hl.orderly t event)
  | sweep ahead =>
    refine still (by simp) (g.step_sweep ahead ▸ sweepAt_housed hl.housed _) fun t stream hs => ?_
    rw [step_sweep] at hs
    exact sweepAt_streams hs
  | releaseRoute route => exact stays (by simp) (g.step_releaseRoute route ▸ g.releaseRoute_stays route)
  | releaseClaim claim => exact stays (by simp) (g.step_releaseClaim claim ▸ g.releaseClaim_stays claim)
  | wait duration => exact stays (by simp) (KeepsInbound.stays ⟨rfl, rfl, rfl, rfl⟩ (Nat.le_add_right _ _))
  | learn link facts => exact stays (by simp) (KeepsInbound.stays ⟨rfl, rfl, rfl, rfl⟩ (Nat.le_refl _))

theorem run_lodged (setup : Setup) (world : World) (ops : List Operation)
    (headers : HeadsOnce ((initial setup world).history ops)) :
    Lodged ((initial setup world).history ops) ((initial setup world).run ops) := by
  refine run_induction (P := fun h g => HeadsOnce h → Lodged h g) (fun _ => ?_)
    (fun h g op hl hh => (hl hh.left).step hh) ops headers
  refine ⟨initial_orderly setup world, ⟨?_, ?_, ?_, ?_⟩, ?_⟩
  · exact fun x c hc => by cases hc
  · exact fun x c hc => by cases hc
  · exact fun k c hk => by cases hk
  · exact fun k c hk => by cases hk
  · exact fun t stream hs => by cases hs

/-- A claim that was ever open on a link is under the challenge of a header that was accepted there. -/
theorem run_opened (setup : Setup) (world : World) (tokens : Function.Injective world.sources.token)
    (ops : List Operation) {i : Nat} {k : Claim} {t : LinkId}
    (ho : Happens ((initial setup world).history ops) i (·.gateway.IsOpen k t)) :
    ∃ j host, Happens ((initial setup world).history ops) j (·.AcceptsHeader t k.challenge host) := by
  obtain ⟨m, hm, ho⟩ := ho
  rw [getElem?_history] at hm
  obtain ⟨op, _, rfl⟩ := Option.map_eq_some_iff.mp hm
  obtain ⟨_, _, hg⟩ := run_grounded setup world tokens (ops.take i)
  obtain ⟨j, host, _, _, hj, _⟩ := hg.opened k t ho
  have whole : (initial setup world).history ops = (initial setup world).history (ops.take i) ++
      ((initial setup world).run (ops.take i)).history (ops.drop i) := by
    rw [← history_append, List.take_append_drop]
  exact ⟨j, host, whole ▸ hj.append⟩

/-- Every pending challenge, with the claims under it, and every admission belongs to the stream of a peer that is
there. So an answer about a claim on a stream that is not authorizes nothing. -/
theorem nothing_outlives_stream (setup : Setup) (world : World) (ops : List Operation)
    (headers : HeadsOnce ((initial setup world).history ops)) :
    let g := (initial setup world).run ops
    (∀ x c, g.challenges.get? x = some c →
      (∃ s, g.sessionOn c.link = some s ∧ s.challenge = x) ∧ (∀ k ∈ c.claims, k.challenge = x) ∧
        (Function.Injective world.sources.token →
          ∀ t s, g.sessionOn t = some s → s.challenge = x → t = c.link)) ∧
      (∀ k c, g.admissions.get? k = some c → g.streams.contains c.link = true) ∧
      (∀ t, g.streams.contains t = false →
        (∀ x c, g.challenges.get? x = some c → c.link ≠ t) ∧
          (∀ k c, g.admissions.get? k = some c → c.link ≠ t) ∧
          (Function.Injective world.sources.token → ∀ i k e valid op,
            Happens ((initial setup world).history ops) i (·.gateway.IsOpen k t) →
            Dialback.Decides e k valid → g.Hears e op → (g.step op).admissions = g.admissions)) ∧
      ∀ t error, (g.step (.inbound t (.closed error))).streams.contains t = false := by
  intro g
  have hg := (run_lodged setup world ops headers).housed
  have tracked (k : Claim) (c : Carrier) (hk : g.admissions.get? k = some c) : g.streams.contains c.link = true := by
    obtain ⟨stream, hs, _⟩ := hg.admitted k c hk
    exact Table.contains_iff.mpr ⟨stream, hs⟩
  have challenged (x : String) (c : Challenge) (hc : g.challenges.get? x = some c) :
      g.streams.contains c.link = true := by
    obtain ⟨s, hs, _⟩ := hg.pending x c hc
    obtain ⟨stream, hstream, _⟩ := sessionOn_eq_some hs
    exact Table.contains_iff.mpr ⟨stream, hstream⟩
  refine ⟨fun x c hc => ⟨hg.pending x c hc, hg.claims x c hc, fun tokens t s hs hx => ?_⟩, tracked,
    fun t ht => ⟨?_, ?_, fun tokens i k e valid op hopen hd hh => ?_⟩, fun t error => ?_⟩
  · obtain ⟨hcurrent, hdated, hgrounded⟩ := run_grounded setup world tokens ops
    obtain ⟨i, hi, _⟩ := hcurrent t s hs
    obtain ⟨j, host, hj⟩ := hgrounded.challenge x c hc
    exact (hdated.unique _ _ _ _ _ _ _ (hx ▸ hi) hj).2.1
  · rintro x c hc rfl
    rw [challenged x c hc] at ht
    cases ht
  · rintro k c hk rfl
    rw [tracked k c hk] at ht
    cases ht
  · have closed (u : LinkId) : ¬ g.IsOpen k u := by
      rintro ⟨c, hc, rfl, _⟩
      obtain ⟨_, hdated, hgrounded⟩ := run_grounded setup world tokens ops
      obtain ⟨i, host, hi⟩ := hgrounded.challenge k.challenge c hc
      obtain ⟨j, host', hj⟩ := run_opened setup world tokens ops hopen
      have hl := (hdated.unique _ _ _ _ _ _ _ hi hj).2.1
      rw [← hl, challenged _ c hc] at ht
      cases ht
    obtain ⟨u, g₁, notes, heq⟩ := hh.step_eq
    have hk := notes.keepsInbound
    rw [heq, onVerify_of_decides hd, settle_of_closed fun u hu => closed u (hk.isOpen_iff.mp hu)]
    exact hk.admissions
  · have hs := g.onClosed_streams t t
    rw [if_pos rfl] at hs
    exact Table.contains_eq_false.mpr hs

/-- A peer starts TLS and makes a claim after its second header; another peer arrives, and the first goes. -/
def departure : List Operation :=
  [.inbound 1 (.header (sampleHeader "b.example")),
    .inbound 1 (.element Protocol.startTls),
    .inbound 1 (.header (sampleHeader "b.example")),
    .inbound 1 (.element (Dialback.result "a.example" "b.example" "key")),
    .inbound 2 (.header (sampleHeader "c.example")),
    .inbound 1 (.closed none)]

theorem departure_headsOnce : HeadsOnce (sample.history departure) := by
  have heads (i : Nat) (t : LinkId) (h : Happens (sample.history departure) i (·.Heads t)) :
      t = 1 ∧ (i = 0 ∨ i = 2) ∨ t = 2 ∧ i = 4 := by
    obtain ⟨m, hm, header, hop⟩ := h
    rw [getElem?_history] at hm
    obtain ⟨op, hi, rfl⟩ := Option.map_eq_some_iff.mp hm
    rcases i with _ | _ | _ | _ | _ | _ | i <;> simp_all [departure]
  have restarts : Happens (sample.history departure) 1 (·.Restarts 1) :=
    ⟨_, rfl, ⟨_, rfl⟩, by decide +kernel⟩
  intro t j i hji hj hi
  rcases heads j t hj with ⟨rfl, hj⟩ | ⟨rfl, rfl⟩
  · rcases heads i 1 hi with ⟨_, hi⟩ | ⟨ht, _⟩
    · obtain rfl : j = 0 := by omega
      obtain rfl : i = 2 := by omega
      exact ⟨1, by omega, by omega, restarts⟩
    · cases ht
  · rcases heads i 2 hi with ⟨ht, _⟩ | ⟨_, rfl⟩
    · cases ht
    · omega

/-- The answer about the claim of the peer that has gone authorizes nothing. -/
theorem answer_after_departure :
    let g := sample.run departure
    let k : Claim := ⟨"cc", "a.example", "b.example"⟩
    let answer := Dialback.verifyReply "a.example" "b.example" "cc" true
    Happens (sample.history departure) 4 (·.gateway.IsOpen k 1) ∧ g.streams.contains 1 = false ∧
      (∃ c, g.challenges.get? "ccc" = some c ∧ c.link = 2 ∧
        ∃ s, g.sessionOn c.link = some s ∧ s.challenge = "ccc") ∧
      g.Hears answer (.inbound 2 (.element answer)) ∧
      (g.step (.inbound 2 (.element answer))).admissions = g.admissions := by
  intro g k answer
  have kept := nothing_outlives_stream sample.setup sample.world departure departure_headsOnce
  have made : Happens (sample.history departure) 4 (·.gateway.IsOpen k 1) := by
    refine ⟨_, rfl, ⟨1, some "b.example", "a.example", 1, [k], 0⟩, ?_, rfl, by simp⟩
    decide +kernel
  have gone : g.streams.contains 1 = false := by decide +kernel
  have pending : g.challenges.get? "ccc" = some ⟨2, some "c.example", "a.example", 1, [], 0⟩ := by decide +kernel
  have hears : g.Hears answer (.inbound 2 (.element answer)) :=
    .peer (s := ⟨"ccc", "a.example", some "c.example", 1⟩) (by decide) (by decide +kernel)
  have decides : Dialback.Decides answer k true :=
    ⟨⟨"a.example", "b.example", some "cc", some "valid", ""⟩, by rfl, rfl, rfl, rfl, rfl, by decide⟩
  refine ⟨made, gone, ⟨_, pending, rfl, (kept.1 _ _ pending).1⟩, hears, ?_⟩
  exact (kept.2.2.1 1 gone).2.2 sample_token_injective 4 k answer true _ made decides hears

end Gateway

end Interdomain
