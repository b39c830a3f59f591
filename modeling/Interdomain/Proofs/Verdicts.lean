import Interdomain.Proofs.Calm
import Interdomain.Proofs.Vouching

/-! What the settling of a claim does. It closes the claim, answers it once on the link on which it was made,
and admits it if it is valid and the policy agrees; all other claims and admissions, the streams of peers, the
negotiations and the routes stay as they are. A claim that is not open is left alone. -/
namespace Interdomain

open Protocol (Dialback)

namespace Protocol.Dialback

variable {a b x y : String} {p q : Bool}

theorem verdict_injective : Function.Injective verdict := by
  intro p q
  cases p <;> cases q <;> simp [verdict]

theorem resultReply_inj : resultReply a b p = resultReply x y q ↔ a = x ∧ b = y ∧ p = q := by
  refine ⟨fun h => ⟨?_, ?_, ?_⟩, ?_⟩
  · simpa [resultReply] using congrArg (·.attribute? "to") h
  · simpa [resultReply] using congrArg (·.attribute? "from") h
  · exact verdict_injective (by simpa [resultReply] using congrArg (·.attribute? "type") h)
  · rintro ⟨rfl, rfl, rfl⟩
    rfl

end Protocol.Dialback

namespace World

variable {t : LinkId} {u v : World}

/-- How often a claim of `b` on `a` was answered on the link. -/
def answers (w : World) (t : LinkId) (a b : String) (valid : Bool) : Nat :=
  w.trace.count (.send t (.element (Dialback.resultReply a b valid)))

theorem Calm.answers_eq (h : Calm t u v) (a b : String) (valid : Bool) :
    v.answers t a b valid = u.answers t a b valid := by
  obtain ⟨es, he, hn⟩ := h
  have none : es.count (.send t (.element (Dialback.resultReply a b valid))) = 0 :=
    List.count_eq_zero.mpr fun hm => hn _ hm ⟨rfl, a, b, valid, rfl⟩
  rw [answers, he, List.count_append, none]
  rfl

theorem answers_sendElement (w : World) (id t : LinkId) (a b x y : String) (p q : Bool) :
    (w.sendElement id (Dialback.resultReply a b p)).answers t x y q =
      w.answers t x y q + if id = t ∧ a = x ∧ b = y ∧ p = q then 1 else 0 := by
  simp only [answers, sendElement, send, trace_emit, List.count_append, List.count_singleton, beq_iff_eq,
    Effect.send.injEq, Frame.element.injEq, Dialback.resultReply_inj]

/-- A claim was answered since if there are more answers than before. -/
theorem mem_since_of_answers {P : CallKind → Prop} (h : Grows P u v) {a b : String} {valid : Bool} :
    u.answers t a b valid < v.answers t a b valid ↔
      .send t (.element (Dialback.resultReply a b valid)) ∈ v.since u := by
  rw [answers, answers, h.since.1, List.count_append, ← List.count_pos_iff]
  omega

end World

namespace Gateway

variable {g g' : Gateway} {k : Claim} {t u : LinkId} {valid : Bool} {op : Operation}

/-- The claim is registered for the link, as of now. -/
def Registers (g g' : Gateway) (k : Claim) (t : LinkId) : Prop :=
  g'.admissions.get? k = some (Carrier.start t (g.world.link t).peerAddress g.now)

/-- An open claim is answered once: as valid if it is admitted, and else as refused. -/
theorem SettleStep.answers (h : g.SettleStep k valid g') (ho : g.IsOpen k u) :
    ∃ verdict, (∀ t a b p, g'.world.answers t a b p =
        g.world.answers t a b p + if u = t ∧ k.source = a ∧ k.destination = b ∧ verdict = p then 1 else 0) ∧
      (verdict = true → valid = true ∧ g.Admits k u ∧ Registers g g' k u) ∧
      (verdict = false → g'.admissions = g.admissions) := by
  cases h with
  | ignored closed => exact absurd ho (closed u)
  | @granted t isOpen admits =>
    cases isOpen.link_eq ho
    refine ⟨true, fun x a b p => ?_, fun _ => ⟨rfl, admits, ?_⟩, nofun⟩
    · refine (World.answers_sendElement _ _ x _ _ a b true p).trans ?_
      exact congrArg (· + _) ((setAdmissions_calm (g.closeClaim k) _).answers_eq a b p)
    · exact (g.get?_grant k k u).trans (if_pos rfl)
  | @refused t isOpen =>
    cases isOpen.link_eq ho
    exact ⟨false, fun x a b p => World.answers_sendElement _ _ x _ _ a b false p, nofun, fun _ => rfl⟩
  | @violates t violation isOpen _ =>
    cases isOpen.link_eq ho
    refine ⟨false, fun x a b p => ?_, nofun, fun _ => rfl⟩
    refine ((World.calm_fail _ _ _).answers_eq a b p).trans ?_
    exact World.answers_sendElement _ _ x _ _ a b false p

/-- Of all there is, the claim on the link alone is concerned, with its admission. -/
structure Concerns (g : Gateway) (k : Claim) (t : LinkId) (g' : Gateway) : Prop where
  outbound : KeepsOutbound g g'
  streams : g'.streams = g.streams
  challenges : g'.challenges = (g.closeClaim k).challenges
  claims : ∀ other u, g'.IsOpen other u ↔ other ≠ k ∧ g.IsOpen other u
  admissions : ∀ other, other ≠ k → g'.admissions.get? other = g.admissions.get? other
  surroundings : { g'.world with trace := g.world.trace } = g.world
  calls : ∀ e ∈ g'.world.since g.world, e.link? = some t ∨ ∃ record, e = .account record

/-- The withdrawal of admissions, or their registration, is accounted for. -/
theorem setAdmissions_world {α : Type} (g : Gateway) (change : Registry.Change Claim Carrier α) :
    ∃ es, (g.setAdmissions change).world = { g.world with trace := g.world.trace ++ es } ∧
      ∀ e ∈ es, ∃ record, e = .account record := by
  refine foldl_relation (R := fun a b : Gateway => ∃ es, b.world = { a.world with trace := a.world.trace ++ es } ∧
    ∀ e ∈ es, ∃ record, e = .account record) ?_ ?_ ?_ { g with admissions := change.registry }
  · exact fun a => ⟨[], by simp, by simp⟩
  · rintro a b c ⟨es, hb, he⟩ ⟨fs, hc, hf⟩
    refine ⟨es ++ fs, by rw [hc, hb, List.append_assoc], fun e hm => ?_⟩
    exact (List.mem_append.mp hm).elim (he e) (hf e)
  · intro a n _
    cases n with
    | registered claim carrier => exact ⟨[], by simp [noticeAdmission], by simp⟩
    | unregistered claim carrier => exact ⟨[_], rfl, by simp⟩

/-- What concerns nothing but the claim, as far as the claims that are open tell. -/
theorem Concerns.of_challenges (hd : g.ClaimsDistinct) (outbound : KeepsOutbound g g')
    (streams : g'.streams = g.streams) (challenges : g'.challenges = (g.closeClaim k).challenges)
    (admissions : ∀ other, other ≠ k → g'.admissions.get? other = g.admissions.get? other) (es : List Effect)
    (world : g'.world = { g.world with trace := g.world.trace ++ es })
    (calls : ∀ e ∈ es, e.link? = some t ∨ ∃ record, e = .account record) : g.Concerns k t g' := by
  refine ⟨outbound, streams, challenges, fun other u => ?_, admissions, by rw [world], ?_⟩
  · rw [← isOpen_closeClaim hd]
    simp only [IsOpen, challenges]
  · rw [world]
    simpa [World.since] using calls

theorem SettleStep.concerns (hd : g.ClaimsDistinct) (h : g.SettleStep k valid g') (ho : g.IsOpen k t) :
    g.Concerns k t g' := by
  have outbound := h.keepsOutbound
  cases h with
  | ignored closed => exact absurd ho (closed t)
  | granted isOpen _ =>
    cases isOpen.link_eq ho
    obtain ⟨es, hw, hes⟩ := (g.closeClaim k).setAdmissions_world ((g.closeClaim k).admissions.register k
      (Carrier.start t ((g.closeClaim k).world.link t).peerAddress (g.closeClaim k).now))
    have world : (g.grant k t).world = { g.world with
        trace := g.world.trace ++ (es ++ [.send t (.element (Dialback.resultReply k.source k.destination true))]) } := by
      change World.sendElement (setAdmissions (g.closeClaim k) _).world t _ = _
      rw [hw, ← List.append_assoc]
      rfl
    refine .of_challenges hd outbound (g.grant_streams k t) (g.grant_challenges k t) ?_ _ world fun e hm => ?_
    · exact fun other hne => (g.get?_grant k other t).trans (if_neg hne)
    · rcases List.mem_append.mp hm with hm | hm
      · exact .inr (hes e hm)
      · rw [List.mem_singleton.mp hm]
        exact .inl rfl
  | refused isOpen =>
    cases isOpen.link_eq ho
    exact .of_challenges hd outbound rfl rfl (fun _ _ => rfl) [_] rfl (by simp [Effect.link?])
  | @violates _ violation isOpen _ =>
    cases isOpen.link_eq ho
    have world : (((g.closeClaim k).sendResult t k false).act
        (·.fail t ⟨.policyViolation, some violation⟩)).world = { g.world with
          trace := g.world.trace ++ [.send t (.element (Dialback.resultReply k.source k.destination false)),
            .send t (.error ⟨.policyViolation, some violation⟩), .close t] } := by
      simp [act, sendResult, closeClaim, World.fail, World.sendElement, World.send, World.close, World.emit]
    exact .of_challenges hd outbound rfl rfl (fun _ _ => rfl) _ world (by simp [Effect.link?])

theorem foldl_failVerify_admissions (g : Gateway) (vs : List Xml.Element) :
    (vs.foldl failVerify g).admissions = g.admissions := by
  refine foldl_relation (R := fun g g' : Gateway => g'.admissions = g.admissions) (fun _ => rfl)
    (fun _ _ _ h h' => h'.trans h) (fun g v _ => ?_) g
  rcases g.failVerify_cases v with ⟨k, hk⟩ | heq
  · have h := g.settle_step k false
    rw [failVerify_of_names hk]
    generalize g.settle k false = g' at h ⊢
    cases h <;> rfl
  · rw [heq]

/-- A request that fails settles the open claim that it names, or nothing happens. -/
theorem failVerify_step (hd : g.ClaimsDistinct) (v : Xml.Element) :
    (∃ k u, Dialback.Names v k ∧ g.IsOpen k u ∧ g.Concerns k u (g.failVerify v) ∧
      ∀ t a b, (g.failVerify v).world.answers t a b false = g.world.answers t a b false +
        if u = t ∧ k.source = a ∧ k.destination = b then 1 else 0) ∨ g.failVerify v = g := by
  rcases g.failVerify_cases v with ⟨k, hk⟩ | heq
  · by_cases hopen : ∃ u, g.IsOpen k u
    · obtain ⟨u, hopen⟩ := hopen
      have hstep := g.settle_step k false
      rw [← failVerify_of_names hk] at hstep
      obtain ⟨verdict, hanswers, hvalid, _⟩ := hstep.answers hopen
      cases verdict with
      | true => cases (hvalid rfl).1
      | false => exact .inl ⟨k, u, hk, hopen, hstep.concerns hd hopen, fun t a b => by simp [hanswers]⟩
    · rw [failVerify_of_names hk]
      exact .inr (settle_of_closed (not_exists.mp hopen) false)
  · exact .inr heq

/-- Of the requests that fail together, each answers one claim at most, and no claim is answered twice. -/
theorem foldl_failVerify_answers (hd : g.ClaimsDistinct) (vs : List Xml.Element) (t : LinkId) (a b : String) :
    ∃ tokens : List String, tokens.Nodup ∧
      (vs.foldl failVerify g).world.answers t a b false = g.world.answers t a b false + tokens.length ∧
      ∀ x ∈ tokens, g.IsOpen ⟨x, b, a⟩ t ∧ (∀ u, ¬ (vs.foldl failVerify g).IsOpen ⟨x, b, a⟩ u) ∧
        ∃ v ∈ vs, Dialback.Names v ⟨x, b, a⟩ := by
  induction vs generalizing g with
  | nil => exact ⟨[], by simp, rfl, by simp⟩
  | cons v vs ih =>
    have later {tokens : List String} (h : ∀ x ∈ tokens, (g.failVerify v).IsOpen ⟨x, b, a⟩ t ∧
        (∀ u, ¬ ((v :: vs).foldl failVerify g).IsOpen ⟨x, b, a⟩ u) ∧ ∃ w ∈ vs, Dialback.Names w ⟨x, b, a⟩) :
        ∀ x ∈ tokens, g.IsOpen ⟨x, b, a⟩ t ∧ (∀ u, ¬ ((v :: vs).foldl failVerify g).IsOpen ⟨x, b, a⟩ u) ∧
          ∃ w ∈ v :: vs, Dialback.Names w ⟨x, b, a⟩ := by
      intro x hx
      obtain ⟨ho, hc, w, hw, hn⟩ := h x hx
      exact ⟨(g.failVerify_fades v).isOpen ho, hc, w, .tail _ hw, hn⟩
    obtain ⟨tokens, hn, hcount, htokens⟩ := ih ((g.failVerify_fades v).claimsDistinct hd)
    rw [List.foldl_cons, hcount]
    rcases g.failVerify_step hd v with ⟨k, u, hk, hopen, hconcerns, hanswers⟩ | heq
    · rw [hanswers]
      by_cases hm : u = t ∧ k.source = a ∧ k.destination = b
      · obtain ⟨rfl, rfl, rfl⟩ := hm
        refine ⟨k.challenge :: tokens, List.nodup_cons.mpr ⟨fun hx => ?_, hn⟩, by simp; omega, ?_⟩
        · exact ((hconcerns.claims _ _).mp (htokens _ hx).1).1 rfl
        · intro x hx
          rcases List.mem_cons.mp hx with rfl | hx
          · refine ⟨hopen, fun w ho => ?_, v, .head _, hk⟩
            exact ((hconcerns.claims k w).mp ((foldl_failVerify_fades _ vs).isOpen ho)).1 rfl
          · exact later htokens x hx
      · exact ⟨tokens, hn, by rw [if_neg hm, Nat.add_zero], later htokens⟩
    · exact ⟨tokens, hn, by rw [heq], later htokens⟩

/-- A route that brings an element has carried one more; nothing else is there that was not. -/
structure Heard (g : Gateway) (op : Operation) (g' : Gateway) : Prop where
  inbound : KeepsInbound g g'
  world : g'.world = g.world
  negotiations : ∀ r, g'.negotiations.get? r = g.negotiations.get? r
  addresses : g'.addresses = g.addresses
  attempts : g'.attempts = g.attempts
  carried : g'.carried = g.carried
  routes : ∀ r, g'.routes.get? r = g.routes.get? r ∨
    (∃ t event, op = .outbound t event ∧ g.carried.get? t = some r) ∧
      g'.routes.get? r = (g.routes.get? r).map (·.carry g.now)

theorem Notes.heard (ho : g.Orderly) (h : g.Notes op u g') : g.Heard op g' := by
  cases h with
  | peer => exact ⟨.refl g, rfl, fun _ => rfl, rfl, rfl, rfl, fun _ => .inl rfl⟩
  | @negotiation t r n e _ found =>
    refine ⟨g.setNegotiation_keepsInbound _ _, rfl, fun x => ?_, rfl, rfl, rfl, fun _ => .inl rfl⟩
    rw [setNegotiation, Table.get?_insert, ho.route r n found]
    split
    · rw [‹x = r›, found]
    · rfl
  | @route _ r e _ carried =>
    refine ⟨⟨rfl, rfl, rfl, rfl⟩, rfl, fun _ => rfl, rfl, rfl, rfl, fun x => ?_⟩
    rw [Registry.get?_modify]
    split
    · rename_i hx
      exact .inr ⟨⟨u, .element e, rfl, hx ▸ carried⟩, rfl⟩
    · exact .inl rfl

theorem Hears.concerns (ho : g.Orderly) (hd : g.ClaimsDistinct) {e : Xml.Element}
    (hears : g.Hears e op) (decides : Dialback.Decides e k valid) :
    ∃ g₁, g.Heard op g₁ ∧ ((∀ t, ¬ g.IsOpen k t) → g.step op = g₁) ∧
      ∀ t, g.IsOpen k t → g₁.Concerns k t (g.step op) := by
  obtain ⟨u, g₁, hnotes, hstep⟩ := hears.step_eq
  have hk := hnotes.keepsInbound
  rw [onVerify_of_decides decides] at hstep
  refine ⟨g₁, hnotes.heard ho, fun hc => ?_, fun t hopen => ?_⟩
  · rw [hstep, settle_of_closed fun t hopen => hc t (hk.isOpen_iff.mp hopen)]
  · rw [hstep]
    exact (g₁.settle_step k valid).concerns (hk.claimsDistinct hd) (hk.isOpen_iff.mpr hopen)

theorem failVerify_of_closed {v : Xml.Element} (hc : ∀ k t, Dialback.Names v k → ¬ g.IsOpen k t) :
    g.failVerify v = g := by
  rcases g.failVerify_cases v with ⟨k, hk⟩ | heq
  · rw [failVerify_of_names hk, settle_of_closed fun t => hc k t hk]
  · exact heq

theorem failVerify_concerns (hd : g.ClaimsDistinct) {v : Xml.Element} (hk : Dialback.Names v k)
    (hopen : g.IsOpen k t) : g.Concerns k t (g.failVerify v) := by
  rw [failVerify_of_names hk]
  exact (g.settle_step k false).concerns hd hopen

end Gateway

end Interdomain
