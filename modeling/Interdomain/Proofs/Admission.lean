import Interdomain.Proofs.Claims

/-! What stands behind a stanza that is delivered. Every admission goes back to a header that was accepted on
its link, and to what was proved there: under the challenge of that header a claim that was confirmed, or
before it an identity. Challenges never repeat, so the header is the one that the stream is on. -/
namespace Interdomain

open Protocol (Dialback)

namespace Moment

/-- A header is accepted on a link for a local domain, and the stream is given a challenge. -/
def AcceptsHeader (m : Moment) (t : LinkId) (challenge host : String) : Prop :=
  ∃ header reply peer version offer, m.operation = .inbound t (.header header) ∧
    m.gateway.setup.greet (m.gateway.world.link t) ((m.gateway.openStream t).identityOn t).isSome header =
      .accepted reply host peer version offer ∧
    header.recipient.bind Jid.domain? = some host ∧
    challenge = m.gateway.world.sources.token m.gateway.world.drawn

/-- A header is admitted on a link, with or without authentication. -/
def AdmitsHeader (m : Moment) (t : LinkId) : Prop :=
  (∃ challenge host, m.AcceptsHeader t challenge host) ∨
    ∃ header reply peer, m.operation = .inbound t (.header header) ∧
      m.gateway.setup.greet (m.gateway.world.link t) ((m.gateway.openStream t).identityOn t).isSome
        header = .legacy reply peer

/-- The peer on a link asks for a claim to be authorized. -/
def Requests (m : Moment) (t : LinkId) (claim : Claim) : Prop :=
  ∃ e, m.operation = .inbound t (.element e) ∧ m.gateway.Asks t e claim

/-- The peer on a link proves by its certificate that it speaks for a domain. -/
def ProvesIdentity (m : Moment) (t : LinkId) (domain : String) : Prop :=
  ∃ e, m.operation = .inbound t (.element e) ∧ e.is "auth" Xml.Namespace.sasl = true ∧
    (e.attribute? "mechanism").any (Protocol.eqIgnoringCase · Protocol.external) = true ∧
    Gateway.identityIn e.text = .ok domain ∧ (m.gateway.world.link t).certifies domain = true ∧
    m.gateway.setup.policy.check domain .sasl (m.gateway.world.link t).level = .ok ()

end Moment

/-- A claim was requested on a link, after a header that was accepted there with the challenge. -/
def WasRequested (h : List Moment) (t : LinkId) (claim : Claim) : Prop :=
  ∃ i host j, i < j ∧ Happens h i (·.AcceptsHeader t claim.challenge host) ∧
    Happens h j (·.Requests t claim)

/-- After the moment `i` the claim was requested on the link and then confirmed, or it is for the local
domain `host` and its source was proved on the link before. -/
def WasAuthorized (h : List Moment) (t : LinkId) (claim : Claim) (i : Nat) (host : String) : Prop :=
  (∃ j v, i < j ∧ j < v ∧ Happens h j (·.Requests t claim) ∧ Happens h v (·.Confirms claim t)) ∨
    host = claim.destination ∧ ∃ j, j < i ∧ Happens h j (·.ProvesIdentity t claim.source)

section Append

variable {h k : List Moment} {t : LinkId} {claim : Claim} {i : Nat} {host : String}

theorem WasRequested.append (hr : WasRequested h t claim) : WasRequested (h ++ k) t claim := by
  obtain ⟨i, host, j, hij, ha, hq⟩ := hr
  exact ⟨i, host, j, hij, ha.append, hq.append⟩

theorem WasAuthorized.append (ha : WasAuthorized h t claim i host) :
    WasAuthorized (h ++ k) t claim i host := by
  rcases ha with ⟨j, v, hij, hjv, hq, hc⟩ | ⟨hh, j, hji, hp⟩
  · exact .inl ⟨j, v, hij, hjv, hq.append, hc.append⟩
  · exact .inr ⟨hh, j, hji, hp.append⟩

end Append

namespace Gateway

variable {P : CallKind → Prop} {g g' : Gateway} {h : List Moment}

/-- The header of an accepted stream is addressed to the local domain that it is accepted for. -/
theorem host_of_greet {s : Setup} {link : Link} {authenticated : Bool} {header reply : Stream.Header}
    {host : String} {peer : Option String} {version : Nat} {offer : Offer}
    (hg : s.greet link authenticated header = .accepted reply host peer version offer) :
    header.recipient.bind Jid.domain? = some host := by
  unfold Setup.greet at hg
  dsimp only at hg
  split at hg
  · cases hg
  · split at hg
    · cases hg
    · split at hg
      · cases hg
      · split at hg
        · cases hg
        · rename_i found
          unfold Setup.greetAt at hg
          dsimp only at hg
          repeat' split at hg
          all_goals cases hg
          exact found

/-- What is proved by a request for SASL that is accepted. -/
theorem provesIdentity_of_proof {t : LinkId} {s : Session} {e : Xml.Element} {domain : String}
    (ha : e.is "auth" Xml.Namespace.sasl = true) (hp : g.provenIdentity t s e = .ok domain) :
    (⟨g, .inbound t (.element e)⟩ : Moment).ProvesIdentity t domain := by
  unfold provenIdentity at hp
  split at hp
  · cases hp
  · split at hp
    · cases hp
    · rename_i hm
      split at hp
      · cases hp
      · rename_i identity hi
        split at hp
        · cases hp
        · rename_i hc
          split at hp
          · cases hp
          · rename_i hl
            cases hp
            exact ⟨e, rfl, ha, by simpa using hm, hi, by simpa using hc, hl⟩

theorem drawn_of_acceptsHeader {op : Operation} {t : LinkId} {challenge host : String}
    (ha : (⟨g, op⟩ : Moment).AcceptsHeader t challenge host) :
    g.world.drawn < (g.step op).world.drawn := by
  obtain ⟨header, reply, peer, version, offer, rfl, hg, _⟩ := ha
  change _ < ((g.openStream t).onHeader t header).world.drawn
  rw [← openStream_setup g t, ← openStream_world g t] at hg
  rw [onHeader, hg]
  have hd := (acceptStream_accepted (g.openStream t) t reply host peer version offer).grows.drawn
  rw [openStream_world] at hd
  exact hd

/-- After a header that was admitted on its link, a session is one that the header began. -/
theorem session_of_admitsHeader {op : Operation} {t : LinkId} {s : Session}
    (ha : (⟨g, op⟩ : Moment).AdmitsHeader t) (hs : (g.step op).sessionOn t = some s) :
    (⟨g, op⟩ : Moment).AcceptsHeader t s.challenge s.host := by
  rcases ha with ⟨_, host, header, reply, peer, version, offer, rfl, hg, hh, _⟩ |
    ⟨header, reply, peer, rfl, hg⟩
  · refine ⟨header, reply, peer, version, offer, rfl, ?_⟩
    have he : (g.step (.inbound t (.header header))) =
        (g.openStream t).acceptStream t reply host peer version offer := by
      change (g.openStream t).onHeader t header = _
      rw [onHeader, openStream_setup, openStream_world, hg]
    rw [he] at hs
    rcases (acceptStream_accepted ..).session t s hs with ⟨_, hc, hhost⟩ | ⟨hne, _⟩
    · rw [openStream_world] at hc
      exact ⟨hhost ▸ hg, hhost ▸ hh, hc⟩
    · exact absurd rfl hne
  · have he : (g.step (.inbound t (.header header))) = (g.openStream t).admitLegacy t reply peer := by
      change (g.openStream t).onHeader t header = _
      rw [onHeader, openStream_setup, openStream_world, hg]
    rw [he, admitLegacy, sessionOn_enterPhase, if_pos rfl] at hs
    obtain ⟨_, _, hs⟩ := Option.bind_eq_some_iff.mp hs
    cases hs

/-- A session that goes on is not touched by other operations than headers on its link. -/
theorem session_of_step (ho : g.Orderly) {op : Operation} {t : LinkId} {s : Session}
    (hn : ¬ (⟨g, op⟩ : Moment).AdmitsHeader t) (hs : (g.step op).sessionOn t = some s) :
    g.sessionOn t = some s := by
  rcases step_cases ho op with hw | ⟨e, _, hr⟩ | hb
  · exact hw.fades.session t s hs
  · rcases hr.cases with hf | ⟨claim, link, g₁, _, _, _, hk, _, he⟩
    · exact hf.session t s hs
    · rw [he, sessionOn, grant_streams, hk.streams] at hs
      exact hs
  · generalize g.step op = g' at hs hb
    cases hb with
    | asks _ fades => exact fades.session t s hs
    | proves _ _ _ => exact (identify_session _ _ _ _ hs).2
    | @accepts u header reply host peer version offer _ greeting accepted =>
      rcases accepted.session t s hs with ⟨rfl, _, _⟩ | ⟨_, hold⟩
      · exact absurd (.inl ⟨_, host, header, reply, peer, version, offer, rfl, greeting,
          host_of_greet greeting, rfl⟩) hn
      · exact (g.openStream_fades (P := CallKind.IsPlain) u).session t s hold

/-- Headers that were accepted are told apart by their challenges. -/
structure Dated (h : List Moment) (g : Gateway) : Prop where
  tokens : Function.Injective g.world.sources.token
  drawn : ∀ i t c host, Happens h i (·.AcceptsHeader t c host) →
    ∃ n, n < g.world.drawn ∧ c = g.world.sources.token n
  unique : ∀ i j t u c host host', Happens h i (·.AcceptsHeader t c host) →
    Happens h j (·.AcceptsHeader u c host') → i = j ∧ t = u ∧ host = host'

theorem Dated.step (ho : g.Orderly) (hd : Dated h g) (op : Operation) :
    Dated (h ++ [⟨g, op⟩]) (g.step op) := by
  have hw := step_grows ho op
  have fresh {i : Nat} {t u : LinkId} {c host host' : String}
      (hi : Happens h i (·.AcceptsHeader t c host))
      (hn : (⟨g, op⟩ : Moment).AcceptsHeader u c host') : False := by
    obtain ⟨n, hlt, hc⟩ := hd.drawn i t c host hi
    obtain ⟨_, _, _, _, _, _, _, _, hc'⟩ := hn
    have he : n = g.world.drawn := hd.tokens (hc.symm.trans hc')
    omega
  refine ⟨by rw [hw.sources]; exact hd.tokens, ?_, ?_⟩
  · intro i t c host hi
    rw [hw.sources]
    rcases Happens.concat_iff.mp hi with hi | ⟨_, hn⟩
    · obtain ⟨n, hlt, hc⟩ := hd.drawn i t c host hi
      exact ⟨n, Nat.lt_of_lt_of_le hlt hw.drawn, hc⟩
    · have hlt := drawn_of_acceptsHeader hn
      obtain ⟨_, _, _, _, _, _, _, _, hc⟩ := hn
      exact ⟨_, hlt, hc⟩
  · intro i j t u c host host' hi hj
    rcases Happens.concat_iff.mp hi with hi | ⟨hil, hi⟩
    · rcases Happens.concat_iff.mp hj with hj | ⟨_, hj⟩
      · exact hd.unique i j t u c host host' hi hj
      · exact (fresh hi hj).elim
    · rcases Happens.concat_iff.mp hj with hj | ⟨hjl, hj⟩
      · exact (fresh hj hi).elim
      · obtain ⟨_, _, _, _, _, ho, hg, _⟩ := hi
        obtain ⟨_, _, _, _, _, ho', hg', _⟩ := hj
        cases ho.symm.trans ho'
        cases hg.symm.trans hg'
        exact ⟨hil.trans hjl.symm, rfl, rfl⟩

/-- Identities were proved, challenges given, claims requested, and admissions authorized. -/
structure Grounded (h : List Moment) (g : Gateway) : Prop where
  identity : ∀ t d, g.identityOn t = some d → ∃ j, Happens h j (·.ProvesIdentity t d)
  challenge : ∀ x c, g.challenges.get? x = some c →
    ∃ i host, Happens h i (·.AcceptsHeader c.link x host)
  opened : ∀ claim t, g.IsOpen claim t → WasRequested h t claim
  admission : ∀ claim k, g.admissions.get? claim = some k → ∃ i host,
    Happens h i (·.AcceptsHeader k.link claim.challenge host) ∧ WasAuthorized h k.link claim i host

/-- A session began with the last header that was admitted on its link. -/
def Current (h : List Moment) (g : Gateway) : Prop :=
  ∀ t s, g.sessionOn t = some s → ∃ i, Happens h i (·.AcceptsHeader t s.challenge s.host) ∧
    ∀ j, i < j → ¬ Happens h j (·.AdmitsHeader t)

theorem Current.step (ho : g.Orderly) (hc : Current h g) (op : Operation) :
    Current (h ++ [⟨g, op⟩]) (g.step op) := by
  intro t s hs
  by_cases ha : (⟨g, op⟩ : Moment).AdmitsHeader t
  · refine ⟨h.length, Happens.last (session_of_admitsHeader ha hs), ?_⟩
    intro j hj hn
    have hlt := hn.lt_length
    simp only [List.length_append, List.length_singleton] at hlt
    omega
  · obtain ⟨i, hi, hlast⟩ := hc t s (session_of_step ho ha hs)
    refine ⟨i, hi.append, ?_⟩
    intro j hj hn
    rcases Happens.concat_iff.mp hn with hn | ⟨_, hn⟩
    · exact hlast j hj hn
    · exact ha hn

namespace Grounded

theorem append (hg : Grounded h g) (k : List Moment) : Grounded (h ++ k) g where
  identity t d hi := by
    obtain ⟨j, hj⟩ := hg.identity t d hi
    exact ⟨j, hj.append⟩
  challenge x c hc := by
    obtain ⟨i, host, hi⟩ := hg.challenge x c hc
    exact ⟨i, host, hi.append⟩
  opened claim t ho := (hg.opened claim t ho).append
  admission claim k hk := by
    obtain ⟨i, host, hi, ha⟩ := hg.admission claim k hk
    exact ⟨i, host, hi.append, ha.append⟩

theorem of_fades (hg : Grounded h g) (hf : Fades P g g') : Grounded h g' where
  identity t d hi := hg.identity t d (hf.identity t d hi)
  challenge x c hc := by
    obtain ⟨c₀, h₀, hl, _⟩ := hf.challenge x c hc
    obtain ⟨i, host, hi⟩ := hg.challenge x c₀ h₀
    exact ⟨i, host, hl ▸ hi⟩
  opened claim t ho := by
    obtain ⟨c, hc, hl, hm⟩ := ho
    obtain ⟨c₀, h₀, hl₀, hs⟩ := hf.challenge _ c hc
    exact hg.opened claim t ⟨c₀, h₀, hl₀.trans hl, hs.subset hm⟩
  admission claim k hk := by
    obtain ⟨k₀, h₀, hl⟩ := hf.admission claim k hk
    obtain ⟨i, host, hi, ha⟩ := hg.admission claim k₀ h₀
    rw [hl] at hi ha
    exact ⟨i, host, hi, ha⟩

/-- A claim that is confirmed was requested before. -/
theorem grant (hg : Grounded h g) {m : Moment} {claim : Claim} {t : LinkId} (ho : g.IsOpen claim t)
    (hc : m.Confirms claim t) : Grounded (h ++ [m]) (g.grant claim t) := by
  have hclosed := (hg.append [m]).of_fades (g.closeClaim_fades (P := CallKind.IsPlain) claim)
  refine ⟨?_, ?_, ?_, ?_⟩
  · intro u d hi
    rw [identityOn, grant_streams] at hi
    exact hclosed.identity u d hi
  · intro x c hx
    rw [grant_challenges] at hx
    exact hclosed.challenge x c hx
  · intro other u hu
    simp only [IsOpen, grant_challenges] at hu
    exact hclosed.opened other u hu
  · intro other k hk
    rw [get?_grant] at hk
    split at hk
    · rename_i he
      cases hk
      rw [he]
      obtain ⟨i, host, j, hij, hi, hj⟩ := hg.opened claim t ho
      exact ⟨i, host, hi.append, .inl ⟨j, h.length, hij, hj.lt_length, hj.append, Happens.last hc⟩⟩
    · exact hclosed.admission other k hk

/-- A claim that is requested is under the challenge of the session that it comes from. -/
theorem openClaim (hd : Dated h g) (hs : Current h g) (hg : Grounded h g) {t : LinkId} {e : Xml.Element}
    {claim : Claim} (ha : g.Asks t e claim) :
    Grounded (h ++ [⟨g, .inbound t (.element e)⟩]) (g.openClaim claim) := by
  have hold := hg.append [⟨g, .inbound t (.element e)⟩]
  have listed {x : String} {c : Challenge} (hc : (g.openClaim claim).challenges.get? x = some c) :
      ∃ c₀, g.challenges.get? x = some c₀ ∧ c₀.link = c.link ∧
        ∀ other ∈ c.claims, other = claim ∨ other ∈ c₀.claims := by
    rw [Gateway.openClaim, Table.get?_modify] at hc
    split at hc
    · obtain ⟨c₀, h₀, rfl⟩ := Option.map_eq_some_iff.mp hc
      refine ⟨c₀, h₀, rfl, ?_⟩
      intro other ho
      exact List.mem_insert_iff.mp ho
    · exact ⟨c, hc, rfl, fun other ho => .inr ho⟩
  refine ⟨hold.identity, ?_, ?_, hold.admission⟩
  · intro x c hc
    obtain ⟨c₀, h₀, hl, _⟩ := listed hc
    exact hl ▸ hold.challenge x c₀ h₀
  · intro other u ho
    obtain ⟨c, hc, hl, hm⟩ := ho
    obtain ⟨c₀, h₀, hl₀, hor⟩ := listed hc
    rcases hor other hm with rfl | hm₀
    · obtain ⟨i, host, hi⟩ := hg.challenge _ c₀ h₀
      obtain ⟨s, hsession, hx⟩ := ha.2.2.1
      obtain ⟨i', hi', _⟩ := hs t s hsession
      rw [hx] at hi'
      obtain ⟨rfl, hlt, rfl⟩ := hd.unique _ _ _ _ _ _ _ hi hi'
      have hu : u = t := (hl.symm.trans hl₀.symm).trans hlt
      rw [hu]
      exact ⟨i, _, h.length, hi'.lt_length, hi'.append, Happens.last ⟨e, rfl, ha⟩⟩
    · exact hold.opened other u ⟨c₀, h₀, hl₀.trans hl, hm₀⟩

theorem identify (hg : Grounded h g) {t : LinkId} {s : Session} {e : Xml.Element} {domain : String}
    (ha : e.is "auth" Xml.Namespace.sasl = true) (hp : g.provenIdentity t s e = .ok domain) :
    Grounded (h ++ [⟨g, .inbound t (.element e)⟩]) (g.identify t s domain) := by
  have hold := hg.append [⟨g, .inbound t (.element e)⟩]
  refine ⟨?_, ?_, ?_, hold.admission⟩
  · intro u d hi
    rcases identify_identity _ _ _ _ hi with ⟨rfl, rfl⟩ | hi
    · exact ⟨h.length, Happens.last (provesIdentity_of_proof ha hp)⟩
    · exact hold.identity u d hi
  · exact fun x c hc => hold.challenge x c (identify_challenge _ _ _ _ hc)
  · rintro claim u ⟨c, hc, hl, hm⟩
    exact hold.opened claim u ⟨c, identify_challenge _ _ _ _ hc, hl, hm⟩

/-- A stream that is accepted is authorized for no more than the identity proved on it before. -/
theorem accept (hg : Grounded h g) {op : Operation} {t : LinkId} {host : String}
    (ha : (⟨g, op⟩ : Moment).AcceptsHeader t g.world.draw.2 host)
    (hacc : Accepted (g.openStream t) t host g') : Grounded (h ++ [⟨g, op⟩]) g' := by
  have hopen := hg.of_fades (g.openStream_fades (P := CallKind.IsPlain) t)
  have hold := hopen.append [⟨g, op⟩]
  have hdraw : (g.openStream t).world.draw.2 = g.world.draw.2 := by rw [openStream_world]
  refine ⟨?_, ?_, ?_, ?_⟩
  · intro u d hi
    rw [hacc.identity] at hi
    exact hold.identity u d hi
  · intro x c hc
    rcases hacc.challenge x c hc with ⟨hx, hl, _⟩ | hc
    · rw [hx, hl, hdraw]
      exact ⟨h.length, host, Happens.last ha⟩
    · exact hold.challenge x c hc
  · rintro claim u ⟨c, hc, hl, hm⟩
    rcases hacc.challenge _ c hc with ⟨_, _, hn⟩ | hc
    · rw [hn] at hm
      cases hm
    · exact hold.opened claim u ⟨c, hc, hl, hm⟩
  · intro claim k hk
    rcases hacc.admission claim k hk with hk | ⟨hx, hh, hi, hl⟩
    · exact hold.admission claim k hk
    · obtain ⟨j, hj⟩ := hopen.identity t claim.source hi
      rw [hl, hx, hdraw]
      exact ⟨h.length, host, Happens.last ha, .inr ⟨hh.symm, j, hj.lt_length, hj.append⟩⟩

theorem step (ho : g.Orderly) (hd : Dated h g) (hs : Current h g) (hg : Grounded h g) (op : Operation) :
    Grounded (h ++ [⟨g, op⟩]) (g.step op) := by
  rcases step_cases ho op with hw | ⟨e, hh, hr⟩ | hb
  · exact (hg.append _).of_fades hw.fades
  · rcases hr.cases with hf | ⟨claim, link, g₁, hv, hopen, hadm, hk, hw, he⟩
    · exact (hg.append _).of_fades hf
    · have hf : Fades CallKind.IsPlain g g₁ := hk.fades (by rw [hw]; exact .refl _)
      rw [he]
      exact (hg.of_fades hf).grant (hk.isOpen_iff.mpr hopen) ⟨⟨e, hh, hv⟩, hopen, hadm⟩
  · generalize g.step op = g' at hb
    cases hb with
    | asks asks fades => exact (openClaim hd hs hg asks).of_fades fades
    | proves _ auth proof => exact hg.identify auth proof
    | accepts greeting accepted =>
      exact hg.accept ⟨_, _, _, _, _, rfl, greeting, host_of_greet greeting, rfl⟩ accepted

end Grounded

/-- The verify request for a claim is all that its dispatch can hand to the router. -/
theorem dispatchVerify_delivers {route : Route} {verify e : Xml.Element}
    (hv : Dialback.isVerify verify = true)
    (hd : .deliver e ∈ (g.dispatchVerify route verify).world.since g.world) : e = verify := by
  unfold dispatchVerify at hd
  split at hd
  · have hk := ((g.submit_step verify none).fades hv).grows.since.2 _ hd
    rcases hk with hk | hk <;> cases hk
  · simpa [emit, act, World.since] using hd

/-- A stanza is delivered from a stream that authenticates if its pair of domains is admitted there. -/
theorem admitted_of_delivers {t : LinkId} {e : Xml.Element} {stream : InboundStream}
    (hf : g.streams.get? t = some stream) (hp : ∀ peer carrier, stream.phase ≠ .legacy peer carrier)
    (hd : .deliver e ∈ (⟨g, .inbound t (.element e)⟩ : Moment).calls) :
    ∃ s a carrier, g.sessionOn t = some s ∧ Protocol.addresses e = .ok a ∧
      g.admissions.get? ⟨s.challenge, a.recipient, a.sender⟩ = some carrier ∧ carrier.link = t := by
  have hs := g.onInbound_step t (.element e)
  change .deliver e ∈ (g.onInbound t (.element e)).world.since g.world at hd
  generalize g.onInbound t (.element e) = g' at hs hd
  cases hs with
  | ends fades _ _ => cases fades.grows.since.2 _ hd
  | legacy found phase _ _ =>
    rw [hf] at found
    cases found
    exact absurd phase (hp _ _)
  | delivers session addressed admitted own _ _ => exact ⟨_, _, _, session, addressed, admitted, own⟩
  | hears _ _ => rcases (g.onVerify_grows t e).since.2 _ hd with hk | hk <;> cases hk
  | @asks _ claim message asks _ =>
    have he := dispatchVerify_delivers (g := g.openClaim claim) (Dialback.isVerify_verify ..) hd
    have hv := Dialback.isVerify_verify claim.source claim.destination claim.challenge message.key
    exact absurd asks.1 (Dialback.not_is_of_isVerify (by rw [he]; exact hv) _ _ (by decide))
  | proves _ _ _ => cases (g.identify_grows _ _ _).since.2 _ hd

theorem run_grounded (setup : Setup) (world : World)
    (tokens : Function.Injective world.sources.token) (ops : List Operation) :
    Current ((initial setup world).history ops) ((initial setup world).run ops) ∧
      Dated ((initial setup world).history ops) ((initial setup world).run ops) ∧
      Grounded ((initial setup world).history ops) ((initial setup world).run ops) := by
  have key := run_induction (g := initial setup world)
    (P := fun h g => g.Orderly ∧ Current h g ∧ Dated h g ∧ Grounded h g) ?_ ?_ ops
  · exact key.2
  · have none {i : Nat} {Q : Moment → Prop} : ¬ Happens [] i Q := fun hi => by
      have := hi.lt_length
      simp at this
    refine ⟨initial_orderly setup world, ?_, ⟨tokens, ?_, ?_⟩, ?_, ?_, ?_, ?_⟩
    · exact fun t s hs => by cases hs
    · exact fun i t c host hi => (none hi).elim
    · exact fun i j t u c host host' hi => (none hi).elim
    · exact fun t d hi => by cases hi
    · exact fun x c hc => by cases hc
    · exact fun claim t ⟨c, hc, _⟩ => by cases hc
    · exact fun claim k hk => by cases hk
  · rintro h g op ⟨ho, hc, hd, hg⟩
    exact ⟨(step_total ho op).1, hc.step ho op, hd.step ho op, hg.step ho hd hc op⟩

/-- If challenges never repeat, a stanza from a stream that authenticates is delivered only if its pair of domains was
requested and confirmed after the last header on its link, or its sender was proved before that header. -/
theorem delivered_if_authorized (setup : Setup) (world : World)
    (tokens : Function.Injective world.sources.token) (ops : List Operation) (t : LinkId)
    (e : Xml.Element) :
    let g := (initial setup world).run ops
    let moments := (initial setup world).history ops
    (∃ stream, g.streams.get? t = some stream ∧
      ∀ peer carrier, stream.phase ≠ .legacy peer carrier) →
    .deliver e ∈ (⟨g, .inbound t (.element e)⟩ : Moment).calls →
    ∃ a challenge host i, Protocol.addresses e = .ok a ∧
      Happens moments i (·.AcceptsHeader t challenge host) ∧
      (∀ j, i < j → ¬ Happens moments j (·.AdmitsHeader t)) ∧
      WasAuthorized moments t ⟨challenge, a.recipient, a.sender⟩ i host := by
  intro g moments hstream hd
  obtain ⟨stream, hf, hp⟩ := hstream
  obtain ⟨s, a, carrier, hs, ha, hadm, hl⟩ := admitted_of_delivers hf hp hd
  obtain ⟨hcurrent, hdated, hgrounded⟩ := run_grounded setup world tokens ops
  obtain ⟨i, hi, hlast⟩ := hcurrent t s hs
  obtain ⟨i', host, hi', hw⟩ := hgrounded.admission _ carrier hadm
  rw [hl] at hi' hw
  obtain ⟨rfl, _, rfl⟩ := hdated.unique _ _ _ _ _ _ _ hi hi'
  exact ⟨a, s.challenge, s.host, i, ha, hi, hlast, hw⟩

theorem sample_token_injective : Function.Injective sample.world.sources.token := by
  intro m n h
  have hl := congrArg String.length h
  simpa [sample, initial, start] using hl

/-- A peer claims a domain, and its authority confirms the claim on its own stream. -/
def admission : List Operation :=
  [.inbound 1 (.header (sampleHeader "b.example")),
    .inbound 1 (.element (Dialback.result "a.example" "b.example" "key")),
    .inbound 2 (.header (sampleHeader "b.example")),
    .inbound 2 (.element (Dialback.verifyReply "a.example" "b.example" "c" true))]

theorem message_delivered :
    let e := sampleMessage "alice@a.example" "bob@b.example"
    .deliver e ∈ (⟨sample.run admission, .inbound 1 (.element e)⟩ : Moment).calls ∧
    ∃ a challenge host i, Protocol.addresses e = .ok a ∧
      Happens (sample.history admission) i (·.AcceptsHeader 1 challenge host) ∧
      (∀ j, i < j → ¬ Happens (sample.history admission) j (·.AdmitsHeader 1)) ∧
      WasAuthorized (sample.history admission) 1 ⟨challenge, a.recipient, a.sender⟩ i host := by
  intro e
  have open_ : (sample.run admission).streams.get? 1 =
      some { phase := .streaming ⟨"c", "a.example", some "b.example", 1⟩, since := 0 } := by
    decide +kernel
  have delivered : .deliver e ∈ (⟨sample.run admission, .inbound 1 (.element e)⟩ : Moment).calls := by
    decide +kernel
  refine ⟨delivered, ?_⟩
  exact delivered_if_authorized sample.setup sample.world sample_token_injective admission 1 e
    ⟨_, open_, fun _ _ h => by cases h⟩ delivered

end Gateway

end Interdomain
