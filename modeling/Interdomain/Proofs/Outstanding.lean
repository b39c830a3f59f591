import Interdomain.Proofs.Inquiries

/-! Where the request of an open claim is, in the course of a run. From the moment at which its peer shows a
key the request waits for a negotiation, was written on a link that is there for its route, or is with the
router; and when it is refused, or its negotiation is given up, the claim is settled. Only the loss of a link
on which it was written leaves a claim open without a request. -/
namespace Interdomain

open Protocol (Dialback)

/-- The router was given the request, and has not handed it back. -/
def WithRouter (h : List Moment) (v : Xml.Element) : Prop :=
  ∃ i, Happens h i (.deliver v ∈ ·.calls) ∧
    ∀ j resolved, i < j → ¬ Happens h j (·.operation = .submit v resolved)

namespace Moment

/-- A peer asks for a claim to be authorized, and shows a key for it. -/
def Shows (m : Moment) (k : Claim) (key : String) : Prop :=
  ∃ t e message, m.operation = .inbound t (.element e) ∧ m.gateway.Asks t e k ∧
    Dialback.ofElement e = .ok message ∧ message.key = key

/-- A link on which a request for the claim was written is no longer there for its route. -/
def Loses (m : Moment) (k : Claim) : Prop :=
  ∃ key t, .send t (.element (k.inquiry key)) ∈ m.gateway.world.trace ∧ m.gateway.Tracks k.route t ∧
    ¬ m.next.Tracks k.route t

end Moment

/-- A peer showed a key for the claim, and the request about that key waits, was written on a link that is
there for its route, or is with the router. -/
def Placed (h : List Moment) (g : Gateway) (k : Claim) : Prop :=
  ∃ key, (∃ i, Happens h i (·.Shows k key)) ∧
    (g.Holds k.route (k.inquiry key) ∨ g.Wrote k.route (k.inquiry key) ∨ WithRouter h (k.inquiry key))

/-- A request for the claim was lost with its link, and the claim has been open ever since. -/
def Lost (h : List Moment) (k : Claim) : Prop :=
  ∃ j, Happens h j (·.Loses k) ∧ ∀ i m, j ≤ i → h[i]? = some m → ∃ t, m.next.IsOpen k t

namespace WithRouter

variable {h : List Moment} {m : Moment} {v : Xml.Element}

theorem concat (hr : WithRouter h v) (hm : ∀ resolved, m.operation ≠ .submit v resolved) :
    WithRouter (h ++ [m]) v := by
  obtain ⟨i, hi, hj⟩ := hr
  refine ⟨i, hi.append, fun j resolved hlt hs => ?_⟩
  rcases Happens.concat_iff.mp hs with hs | ⟨_, hs⟩
  · exact hj j resolved hlt hs
  · exact hm resolved hs

theorem last (hm : .deliver v ∈ m.calls) : WithRouter (h ++ [m]) v := by
  refine ⟨h.length, Happens.last hm, fun j resolved hlt hs => ?_⟩
  have hj := hs.lt_length
  simp only [List.length_append, List.length_singleton] at hj
  omega

end WithRouter

namespace Lost

variable {h : List Moment} {m : Moment} {k : Claim} {t : LinkId}

theorem concat (hl : Lost h k) (ho : m.next.IsOpen k t) : Lost (h ++ [m]) k := by
  obtain ⟨j, hj, hopen⟩ := hl
  refine ⟨j, hj.append, fun i x hi hx => ?_⟩
  rcases Happens.concat_iff.mp ⟨x, hx, rfl⟩ with ⟨_, hy, rfl⟩ | ⟨_, rfl⟩
  · exact hopen i _ hi hy
  · exact ⟨t, ho⟩

theorem last (hl : m.Loses k) (ho : m.next.IsOpen k t) : Lost (h ++ [m]) k := by
  refine ⟨h.length, Happens.last hl, fun i x hi hx => ?_⟩
  rcases Happens.concat_iff.mp ⟨x, hx, rfl⟩ with hy | ⟨_, rfl⟩
  · exact absurd hy.lt_length (by omega)
  · exact ⟨t, ho⟩

end Lost

namespace Gateway

variable {g g' : Gateway} {k : Claim} {t : LinkId} {op : Operation} {h past : List Moment}

theorem Reads.isOpen {e : Xml.Element} (hr : g.Reads e g') (ho : g'.IsOpen k t) : g.IsOpen k t := by
  rcases hr.cases with hf | ⟨claim, link, g₁, _, _, _, hk, _, rfl⟩
  · exact hf.isOpen ho
  · rw [IsOpen, grant_challenges] at ho
    exact hk.isOpen_iff.mp ((g₁.closeClaim_fades (P := CallKind.IsPlain) claim).isOpen ho)

theorem isOpen_openClaim {claim : Claim} (ho : (g.openClaim claim).IsOpen k t) : k = claim ∨ g.IsOpen k t := by
  obtain ⟨c, hc, hl, hm⟩ := ho
  rw [openClaim, Table.get?_modify] at hc
  split at hc
  · obtain ⟨c₀, h₀, rfl⟩ := Option.map_eq_some_iff.mp hc
    exact (List.mem_insert_iff.mp hm).imp id fun hm => ⟨c₀, h₀, hl, hm⟩
  · exact .inr ⟨c, hc, hl, hm⟩

/-- The operation opens the claim: its peer shows a key for it, and the request about the key goes out. -/
def OpensClaim (g : Gateway) (k : Claim) (op : Operation) (g' : Gateway) : Prop :=
  ∃ link e m, op = .inbound link (.element e) ∧ g.Asks link e k ∧ Dialback.ofElement e = .ok m ∧
    g' = (g.openClaim k).dispatchVerify k.route (k.inquiry m.key)

/-- A claim that is open was open before, or the operation has opened it. -/
theorem step_isOpen (ho : g.Orderly) (op : Operation) (hopen : (g.step op).IsOpen k t) :
    g.IsOpen k t ∨ g.OpensClaim k op (g.step op) := by
  by_cases hin : ∃ link event, op = .inbound link event
  · obtain ⟨link, event, rfl⟩ := hin
    have hs := g.onInbound_step link event
    change (g.onInbound link event).IsOpen k t at hopen
    change _ ∨ g.OpensClaim k _ (g.onInbound link event)
    generalize g.onInbound link event = g' at hs hopen ⊢
    cases hs with
    | ends fades _ _ => exact .inl (fades.isOpen hopen)
    | legacy _ _ fades _ => exact .inl (fades.isOpen hopen)
    | delivers _ _ _ _ fades _ => exact .inl (fades.isOpen hopen)
    | hears => exact .inl (Reads.isOpen ⟨g, link, .refl g, rfl, rfl⟩ hopen)
    | @asks e _ m asks message =>
      rcases isOpen_openClaim ((dispatchVerify_fades _ _ (Dialback.isVerify_verify ..)).isOpen hopen) with rfl | h
      · exact .inr ⟨link, e, m, rfl, asks, message, rfl⟩
      · exact .inl h
    | proves =>
      obtain ⟨c, hc, hl, hm⟩ := hopen
      exact .inl ⟨c, identify_challenge _ _ _ _ hc, hl, hm⟩
    | accepts =>
      obtain ⟨c, hc, hl, hm⟩ := hopen
      rcases (acceptStream_accepted (g.openStream link) ..).challenge _ c hc with ⟨_, _, hn⟩ | h₀
      · rw [hn] at hm
        cases hm
      · exact .inl ((g.openStream_fades (P := CallKind.IsPlain) link).isOpen ⟨c, h₀, hl, hm⟩)
  · refine .inl ?_
    rcases step_cases ho op with hw | ⟨e, _, hr⟩ | hb
    · exact hw.fades.isOpen hopen
    · exact hr.isOpen hopen
    · generalize g.step op = g' at hb
      cases hb <;> exact absurd ⟨_, _, rfl⟩ hin

namespace OpensClaim

theorem isNormal (h : g.OpensClaim k op g') : Jid.IsNormal k.source ∧ Jid.IsNormal k.destination := by
  obtain ⟨_, _, _, _, ⟨_, _, _, m, hm, _, hr, hs⟩, _⟩ := h
  have hn := Dialback.isNormal_of_ofElement hm
  exact ⟨hs ▸ hn.2, hr ▸ hn.1⟩

/-- The request for a claim that has just been opened is somewhere. -/
theorem placed (ho : g.Orderly) (hd : g.ClaimsDistinct) (hf : k.Fits) (h : g.OpensClaim k op (g.step op))
    (hopen : (g.step op).IsOpen k t) : Placed (past ++ [⟨g, op⟩]) (g.step op) k := by
  have hnormal := h.isNormal
  obtain ⟨link, e, m, hop, asks, message, heq⟩ := h
  have shows : Happens (past ++ [⟨g, op⟩]) past.length (·.Shows k m.key) :=
    Happens.last ⟨link, e, m, hop, asks, message, rfl⟩
  have hverify := Dialback.isVerify_verify k.source k.destination k.challenge m.key
  refine ⟨m.key, ⟨past.length, shows⟩, ?_⟩
  by_cases hknown : (g.routes.contains k.route || g.negotiations.contains k.route ||
      (g.cachedAddress? k.route.destination).isSome) = true
  · have hsub : g.step op = ((g.openClaim k).submit (k.inquiry m.key) none).1 := heq.trans (if_pos hknown)
    have hs := (g.openClaim k).submit_step (k.inquiry m.key) none
    rw [hsub] at hopen ⊢
    cases hs.accounted ⟨ho.route, ho.verifies⟩ (openClaim_claimsDistinct hd k) hverify
        (goesTo_inquiry hnormal.1 hnormal.2 hf) with
    | holds holds => exact .inl holds
    | wrote wrote => exact .inr (.inl wrote)
    | fails fails => exact absurd hopen ((fails k m.key t rfl ((hs.fades hverify).isOpen hopen)).1 t)
  · have hgiven : g.step op = (g.openClaim k).emit (.deliver (k.inquiry m.key)) := heq.trans (if_neg hknown)
    refine .inr (.inr (.last ?_))
    have hc : (⟨g, op⟩ : Moment).calls = (g.step op).world.since g.world := rfl
    rw [hc, hgiven]
    simp [emit, act, World.emit, World.since, openClaim]

end OpensClaim

/-- A claim whose request is somewhere keeps a request, unless one is lost with its link or the claim is
settled as refused. -/
theorem step_placed (hc : Connected h g) (hd : g.ClaimsDistinct) (op : Operation) (hs : Jid.IsNormal k.source)
    (hn : Jid.IsNormal k.destination) (hf : k.Fits) (hopen : g.IsOpen k t) (hp : Placed h g k) :
    Placed (h ++ [⟨g, op⟩]) (g.step op) k ∨ (⟨g, op⟩ : Moment).Loses k ∨ Refused g (g.step op) k t := by
  obtain ⟨key, ⟨i, hi⟩, hp⟩ := hp
  have shown : ∃ i, Happens (h ++ [⟨g, op⟩]) i (·.Shows k key) := ⟨i, hi.append⟩
  have placed {g' : Gateway} (ha : Accounted g g' k.route (k.inquiry key)) :
      Placed (h ++ [⟨g, op⟩]) g' k ∨ (⟨g, op⟩ : Moment).Loses k ∨ Refused g g' k t := by
    cases ha with
    | holds holds => exact .inl ⟨key, shown, .inl holds⟩
    | wrote wrote => exact .inl ⟨key, shown, .inr (.inl wrote)⟩
    | fails fails => exact .inr (.inr (fails k key t rfl hopen))
  rcases hp with hp | ⟨u, hu, htracks⟩ | hp
  · exact placed (step_accounted hc hd op hp)
  · by_cases hkept : (g.step op).Tracks k.route u
    · have hw := (step_grows hc.orderly op).since.1
      exact .inl ⟨key, shown, .inr (.inl ⟨u, hw ▸ List.mem_append_left _ hu, hkept⟩)⟩
    · exact .inr (.inl ⟨key, u, hu, htracks, hkept⟩)
  · by_cases hback : ∃ resolved, op = .submit (k.inquiry key) resolved
    · obtain ⟨resolved, rfl⟩ := hback
      rw [step_submit]
      exact placed ((g.submit_step _ resolved).accounted hc.orderly hd (Dialback.isVerify_verify ..)
        (goesTo_inquiry hs hn hf))
    · exact .inl ⟨key, shown, .inr (.inr (hp.concat fun resolved heq => hback ⟨resolved, heq⟩))⟩

/-- What keeps open claims answerable. -/
structure Answerable (h : List Moment) (g : Gateway) : Prop where
  connected : Connected h g
  distinct : g.ClaimsDistinct
  normal : ∀ k t, g.IsOpen k t → Jid.IsNormal k.source ∧ Jid.IsNormal k.destination
  placed : ∀ k t, g.IsOpen k t → k.Fits → Placed h g k ∨ Lost h k

theorem Answerable.step (ha : Answerable h g) (op : Operation) : Answerable (h ++ [⟨g, op⟩]) (g.step op) := by
  obtain ⟨hc, hd, hn, hp⟩ := ha
  refine ⟨hc.step op, step_claimsDistinct hc.orderly hd op, fun k t hopen => ?_, fun k t hopen hf => ?_⟩
  · rcases step_isOpen hc.orderly op hopen with hbefore | hopens
    · exact hn k t hbefore
    · exact hopens.isNormal
  · rcases step_isOpen hc.orderly op hopen with hbefore | hopens
    · have hnormal := hn k t hbefore
      rcases hp k t hbefore hf with hplaced | hlost
      · rcases step_placed hc hd op hnormal.1 hnormal.2 hf hbefore hplaced with hplaced | hloses | hrefused
        · exact .inl hplaced
        · exact .inr (.last hloses hopen)
        · exact absurd hopen (hrefused.1 t)
      · exact .inr (hlost.concat hopen)
    · exact .inl (hopens.placed hc.orderly hd hf hopen)

theorem run_answerable (setup : Setup) (world : World) (links : Function.Injective world.sources.linkId)
    (ops : List Operation) :
    Answerable ((initial setup world).history ops) ((initial setup world).run ops) := by
  refine run_induction (P := Answerable) ⟨initial_connected links, ?_, ?_, ?_⟩ (fun _ _ op ha => ha.step op) ops
  · intro x c hc
    cases hc
  · rintro k t ⟨c, hc, _⟩
    cases hc
  · rintro k t ⟨c, hc, _⟩
    cases hc

/-- If links are never numbered twice, an open claim whose domains can be addressed has a request on its way, and is
settled as refused when the last one fails. Only the loss of a link on which one was written leaves it without. -/
theorem open_claims_answerable (setup : Setup) (world : World)
    (links : Function.Injective world.sources.linkId) (ops : List Operation) (k : Claim) (t : LinkId) :
    let g := (initial setup world).run ops
    let moments := (initial setup world).history ops
    g.IsOpen k t → k.Fits →
    (Placed moments g k ∨ Lost moments k) ∧
    ∀ op, Placed moments g k → ¬ (⟨g, op⟩ : Moment).Loses k →
      Placed (moments ++ [⟨g, op⟩]) (g.step op) k ∨ Refused g (g.step op) k t := by
  intro g moments hopen hf
  obtain ⟨hc, hd, hn, hp⟩ := run_answerable setup world links ops
  refine ⟨hp k t hopen hf, fun op hplaced hkept => ?_⟩
  rcases step_placed hc hd op (hn k t hopen).1 (hn k t hopen).2 hf hopen hplaced with h | h | h
  · exact .inl h
  · exact absurd h hkept
  · exact .inr h

/-- A peer claims a domain; the router hands the request for the claim back, and it is written on a link to the
authority. -/
def inquiry : List Operation :=
  [.inbound 1 (.header (sampleHeader "b.example")),
    .inbound 1 (.element (Dialback.result "a.example" "b.example" "key")),
    .submit (Dialback.verify "b.example" "a.example" "c" "key") (some "192.0.2.1"),
    .outbound 100 .connected,
    .outbound 100 (.header { sampleHeader "b.example" with version := none, id := some "one" })]

theorem inquiry_open : (sample.run inquiry).IsOpen ⟨"c", "a.example", "b.example"⟩ 1 := by
  have challenge : (sample.run inquiry).challenges.get? "c" = some
      ⟨1, some "b.example", "a.example", 1, [⟨"c", "a.example", "b.example"⟩], 0⟩ := by decide +kernel
  exact ⟨_, challenge, rfl, .head _⟩

theorem inquiry_placed :
    let k : Claim := ⟨"c", "a.example", "b.example"⟩
    let g := sample.run inquiry
    let moments := sample.history inquiry
    g.IsOpen k 1 ∧ k.Fits ∧ (Placed moments g k ∨ Lost moments k) := by
  intro k g moments
  have fits : k.Fits := by decide +kernel
  exact ⟨inquiry_open, fits, (open_claims_answerable sample.setup sample.world sample_linkId_injective inquiry
    k 1 inquiry_open fits).1⟩

/-- The link is gone on which the request was written, and the peer is told nothing. -/
theorem claim_left_open :
    let k : Claim := ⟨"c", "a.example", "b.example"⟩
    let op : Operation := .outbound 100 (.closed none)
    let g := sample.run inquiry
    let moments := sample.history inquiry
    Placed moments g k ∧ k.Fits ∧ (g.step op).IsOpen k 1 ∧ ¬ Placed (moments ++ [⟨g, op⟩]) (g.step op) k ∧
      (⟨g, op⟩ : Moment).calls = [] := by
  intro k op g moments
  have fits : k.Fits := by decide +kernel
  obtain ⟨before, written⟩ : (g.negotiations.get? k.route).map (·.link) = some 100 ∧
      .send 100 (.element (k.inquiry "key")) ∈ g.world.trace := by decide +kernel
  obtain ⟨challenge, negotiation, route, silent⟩ :
      (g.step op).challenges.get? "c" = some ⟨1, some "b.example", "a.example", 1, [k], 0⟩ ∧
      (g.step op).negotiations.get? k.route = none ∧ (g.step op).routes.get? k.route = none ∧
      (⟨g, op⟩ : Moment).calls = [] := by decide +kernel
  refine ⟨⟨"key", ?_, .inr (.inl ⟨100, written, .inl (Option.map_eq_some_iff.mp before)⟩)⟩, fits,
    ⟨_, challenge, rfl, .head _⟩, ?_, silent⟩
  · obtain ⟨session, pending⟩ :
        (sample.run (inquiry.take 1)).sessionOn 1 = some ⟨"c", "a.example", some "b.example", 1⟩ ∧
        (sample.run (inquiry.take 1)).challenges.contains "c" = true := by decide +kernel
    have message : Dialback.ofElement (Dialback.result "a.example" "b.example" "key") =
        .ok ⟨"a.example", "b.example", none, none, "key"⟩ := by rfl
    exact ⟨1, _, rfl, 1, _, _, rfl, ⟨rfl, pending, ⟨_, session, rfl⟩, _, message, rfl, rfl, rfl⟩, message, rfl⟩
  · rintro ⟨key, _, ⟨n, hn, _⟩ | ⟨t, _, ⟨n, hn, _⟩ | ⟨c, hc, _⟩⟩ | ⟨i, ⟨m, hm, hd⟩, hback⟩⟩
    · rw [negotiation] at hn
      cases hn
    · rw [negotiation] at hn
      cases hn
    · rw [route] at hc
      cases hc
    · have deliveries : List.map (fun m : Moment => m.calls.filter (·.kind = .deliver)) (moments ++ [⟨g, op⟩]) =
          [[], [Effect.deliver (k.inquiry "key")], [], [], [], []] := by decide +kernel
      have hcalls := congrArg (·[i]?) deliveries
      have hmem : .deliver (k.inquiry key) ∈ m.calls.filter (·.kind = .deliver) := by simpa [Effect.kind] using hd
      simp only [List.getElem?_map, hm, Option.map_some] at hcalls
      rcases i with _ | _ | i
      · rw [Option.some.inj hcalls] at hmem
        cases hmem
      · rw [Option.some.inj hcalls, List.mem_singleton, Effect.deliver.injEq] at hmem
        rw [hmem] at hback
        exact hback 2 _ (by omega) ⟨_, rfl, rfl⟩
      · have later : m.calls.filter (·.kind = .deliver) ∈ ([[], [], [], []] : List (List Effect)) :=
          List.mem_of_getElem? hcalls.symm
        have none : m.calls.filter (·.kind = .deliver) = [] := by simpa using later
        rw [none] at hmem
        cases hmem

end Gateway

end Interdomain
