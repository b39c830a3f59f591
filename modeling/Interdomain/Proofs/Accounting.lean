import Interdomain.Proofs.Replies
import Mathlib.Data.List.Perm.Subperm

/-! The accounts of claims. Over every run a claim is answered at most as often as it was requested, each time by
an answer, or by the failure of a request, that is about this very claim; and every answer that a peer receives
is that of a claim of its own. -/
namespace Interdomain

open Protocol (Dialback)

/-- How often a claim of `b` on `a` was answered on the link, be it as valid or not. -/
def World.replies (w : World) (t : LinkId) (a b : String) : Nat := w.answers t a b true + w.answers t a b false

namespace World

variable {t : LinkId} {u v : World}

theorem Calm.replies_eq (h : Calm t u v) (a b : String) : v.replies t a b = u.replies t a b := by
  simp only [replies, h.answers_eq]

/-- Without a grant no claim is answered as valid. -/
theorem answers_of_ungranting (h : Grows CallKind.IsUngranting u v) (t : LinkId) (a b : String) :
    v.answers t a b true = u.answers t a b true := by
  have hle : u.answers t a b true ≤ v.answers t a b true := by
    rw [answers, answers, h.since.1, List.count_append]
    exact Nat.le_add_right _ _
  have hnot : ¬ u.answers t a b true < v.answers t a b true := fun hlt =>
    Gateway.not_grant_of_grows h t a b ((mem_since_of_answers h).mp hlt)
  omega

end World

namespace Moment

/-- The operation decides the claim: it brings an answer about it, or has a request about it fail. -/
def Decides (m : Moment) (k : Claim) : Prop :=
  (∃ e valid, m.gateway.Hears e m.operation ∧ Dialback.Decides e k valid) ∨
    ∃ v, m.Due v ∧ Dialback.Names v k

/-- The operation answers the claim, which was open on the link or has just been recorded there, and is open no
longer. -/
def Answers (m : Moment) (k : Claim) (t : LinkId) : Prop :=
  (m.gateway.IsOpen k t ∨ m.Records k t) ∧ (∀ u, ¬ m.next.IsOpen k u) ∧ m.Decides k ∧
    ∃ valid, .send t (.element (Dialback.resultReply k.source k.destination valid)) ∈ m.calls

/-- The answers of the operation on a link are those of different claims, each of which was open there and is
registered if and only if its answer says valid. -/
structure Accounts (m : Moment) (t : LinkId) : Prop where
  answered : ∀ a b, ∃ tokens : List String, tokens.Nodup ∧
    m.next.world.replies t a b = m.gateway.world.replies t a b + tokens.length ∧
    ∀ x ∈ tokens, m.Answers ⟨x, b, a⟩ t
  granted : ∀ a b, .send t (.element (Dialback.resultReply a b true)) ∈ m.calls →
    ∃ x, m.gateway.IsOpen ⟨x, b, a⟩ t ∧ m.Answers ⟨x, b, a⟩ t ∧ m.gateway.Admits ⟨x, b, a⟩ t ∧
      m.gateway.Registers m.next ⟨x, b, a⟩ t
  refused : ∀ a b, .send t (.element (Dialback.resultReply a b false)) ∈ m.calls →
    m.next.admissions = m.gateway.admissions

end Moment

namespace Gateway

variable {g g' : Gateway} {k : Claim} {t u : LinkId} {op : Operation} {h : List Moment}

/-- An answer that is written is one more. -/
theorem answers_lt_iff (ho : g.Orderly) (op : Operation) (t : LinkId) (a b : String) (valid : Bool) :
    .send t (.element (Dialback.resultReply a b valid)) ∈ (⟨g, op⟩ : Moment).calls ↔
      g.world.answers t a b valid < (g.step op).world.answers t a b valid :=
  (World.mem_since_of_answers (step_grows ho op)).symm

theorem accounts_of_calm (ho : g.Orderly) (hc : World.Calm t g.world (g.step op).world) :
    (⟨g, op⟩ : Moment).Accounts t := by
  have none {a b : String} {valid : Bool} :
      .send t (.element (Dialback.resultReply a b valid)) ∉ (⟨g, op⟩ : Moment).calls := by
    rw [answers_lt_iff ho, hc.answers_eq]
    exact Nat.lt_irrefl _
  exact ⟨fun a b => ⟨[], .nil, hc.replies_eq a b, by simp⟩, fun a b hm => absurd hm none,
    fun a b hm => absurd hm none⟩

theorem accounts_of_fails (ho : g.Orderly) {g₁ : Gateway} {vs : List Xml.Element}
    (calm : World.Calm t g.world g₁.world) (distinct : g₁.ClaimsDistinct)
    (admissions : g₁.admissions = g.admissions)
    (claims : ∀ k u, g₁.IsOpen k u → g.IsOpen k u ∨ (⟨g, op⟩ : Moment).Records k u)
    (due : ∀ v ∈ vs, (⟨g, op⟩ : Moment).Due v) (heq : g.step op = vs.foldl failVerify g₁) :
    (⟨g, op⟩ : Moment).Accounts t := by
  have valid (a b : String) : (g.step op).world.answers t a b true = g.world.answers t a b true := by
    rw [heq, ← calm.answers_eq a b true]
    exact World.answers_of_ungranting ((foldl_failVerify_fades g₁ vs).grows.mono
      fun _ => CallKind.IsPlain.ungranting) t a b
  refine ⟨fun a b => ?_, fun a b hm => ?_, fun a b _ => ?_⟩
  · obtain ⟨tokens, hn, hcount, htokens⟩ := foldl_failVerify_answers distinct vs t a b
    rw [← heq, calm.answers_eq] at hcount
    refine ⟨tokens, hn, ?_, fun x hx => ?_⟩
    · change (g.step op).world.replies t a b = _
      rw [World.replies, World.replies, valid, hcount, Nat.add_assoc]
    · obtain ⟨hopen, hclosed, v, hv, hnames⟩ := htokens x hx
      refine ⟨claims _ t hopen, ?_, .inr ⟨v, due v hv, hnames⟩, false, ?_⟩
      · intro u
        change ¬ (g.step op).IsOpen _ u
        exact heq ▸ hclosed u
      · refine (answers_lt_iff ho op t a b false).mpr ?_
        rw [hcount]
        exact Nat.lt_add_of_pos_right (List.length_pos_of_mem hx)
  · rw [answers_lt_iff ho, valid] at hm
    exact absurd hm (Nat.lt_irrefl _)
  · change (g.step op).admissions = g.admissions
    rw [heq, foldl_failVerify_admissions, admissions]

theorem accounts_of_settles (ho : g.Orderly) {g₁ : Gateway} (hd : g₁.ClaimsDistinct) (keeps : KeepsInbound g g₁)
    (world : g₁.world = g.world) {valid : Bool} (decides : (⟨g, op⟩ : Moment).Decides k) (hopen : g₁.IsOpen k u)
    (hstep : g₁.SettleStep k valid (g.step op)) : (⟨g, op⟩ : Moment).Accounts t := by
  obtain ⟨verdict, hanswers, hgranted, hrefused⟩ := hstep.answers hopen
  simp only [world] at hanswers
  have before : g.IsOpen k u := keeps.isOpen_iff.mp hopen
  have closed (x : LinkId) : ¬ (g.step op).IsOpen k x := fun hx => (((hstep.concerns hd hopen).claims k x).mp hx).1 rfl
  have written (a b : String) (p : Bool) :
      .send t (.element (Dialback.resultReply a b p)) ∈ (⟨g, op⟩ : Moment).calls ↔
        u = t ∧ k.source = a ∧ k.destination = b ∧ verdict = p := by
    rw [answers_lt_iff ho, hanswers]
    split <;> simp [*]
  have answers (hl : u = t) : (⟨g, op⟩ : Moment).Answers k t :=
    ⟨.inl (hl ▸ before), closed, decides, verdict, (written _ _ _).mpr ⟨hl, rfl, rfl, rfl⟩⟩
  refine ⟨fun a b => ?_, fun a b hm => ?_, fun a b hm => ?_⟩
  · by_cases hm : u = t ∧ k.source = a ∧ k.destination = b
    · obtain ⟨hl, rfl, rfl⟩ := hm
      refine ⟨[k.challenge], by simp, ?_, fun x hx => ?_⟩
      · change (g.step op).world.replies t _ _ = _
        simp only [World.replies, hanswers]
        cases verdict <;> simp [hl] <;> omega
      · rw [List.mem_singleton.mp hx]
        exact answers hl
    · refine ⟨[], .nil, ?_, by simp⟩
      change (g.step op).world.replies t a b = _
      have other (p : Bool) : ¬ (u = t ∧ k.source = a ∧ k.destination = b ∧ verdict = p) :=
        fun h => hm ⟨h.1, h.2.1, h.2.2.1⟩
      simp only [World.replies, hanswers, if_neg (other _)]
      rfl
  · obtain ⟨rfl, rfl, rfl, hv⟩ := (written _ _ _).mp hm
    obtain ⟨_, admits, registers⟩ := hgranted hv
    refine ⟨k.challenge, before, answers rfl, (keeps.admits_iff world).mp admits, ?_⟩
    simp only [Registers, now, world] at registers
    exact registers
  · obtain ⟨_, _, _, hv⟩ := (written _ _ _).mp hm
    exact (hrefused hv).trans keeps.admissions

theorem step_accounts (ho : g.Orderly) (hi : g.Indexed) (he : g.Exclusive) (hd : g.ClaimsDistinct)
    (foreign : ∀ r u, g.Tracks r u → u ≠ t) (op : Operation) : (⟨g, op⟩ : Moment).Accounts t := by
  have h := step_decision ho hi he hd foreign op
  generalize heq : g.step op = g' at h
  cases h with
  | calm calm => exact accounts_of_calm ho (heq ▸ calm)
  | fails _ calm distinct admissions claims due =>
    exact accounts_of_fails ho calm distinct admissions claims due heq
  | @hears g₁ e u hears keeps world =>
    have hs := g₁.onVerify_step u e
    generalize g₁.onVerify u e = g₂ at hs heq
    cases hs with
    | @settles k valid decides =>
      by_cases hopen : ∃ x, g₁.IsOpen k x
      · obtain ⟨x, hopen⟩ := hopen
        have hstep : g₁.SettleStep k valid (g.step op) := heq ▸ g₁.settle_step k valid
        exact accounts_of_settles ho (keeps.claimsDistinct hd) keeps world (.inl ⟨e, valid, hears, decides⟩) hopen
          hstep
      · rw [settle_of_closed (not_exists.mp hopen)] at heq
        exact accounts_of_calm ho (.of_trace (by rw [heq, world]))
    | replies =>
      refine accounts_of_calm ho ?_
      rw [heq, ← world]
      exact World.calm_sendElement _ _ (by simp [Dialback.verifyReply, Xml.Element.is])
    | fails =>
      refine accounts_of_calm ho ?_
      rw [heq, ← world]
      exact World.calm_fail _ _ _

end Gateway

open Classical in
/-- How many moments of a history have a property. -/
noncomputable def howOften (h : List Moment) (P : Moment → Prop) : Nat := h.countP fun m => P m

open Classical in
theorem howOften_concat (h : List Moment) (m : Moment) (P : Moment → Prop) :
    howOften (h ++ [m]) P = howOften h P + if P m then 1 else 0 := by
  simp [howOften, List.countP_singleton]

/-- An operation records one claim at most. -/
theorem Moment.Records.unique {m : Moment} {k k' : Claim} {t t' : LinkId} (h : m.Records k t)
    (h' : m.Records k' t') : k' = k := by
  obtain ⟨⟨u, e, hop, _, _, ⟨s, hs, hc⟩, x, hx, _, hd, hsrc⟩, _⟩ := h
  obtain ⟨⟨u', e', hop', _, _, ⟨s', hs', hc'⟩, x', hx', _, hd', hsrc'⟩, _⟩ := h'
  rw [hop] at hop'
  cases hop'
  rw [hs] at hs'
  rw [hx] at hx'
  cases hs'
  cases hx'
  cases k
  cases k'
  simp_all

namespace Gateway

variable {g g' : Gateway} {k : Claim} {t u : LinkId} {op : Operation} {h : List Moment} {a b x : String}

/-- The gateway has opened the link itself. -/
def HasOpened (g : Gateway) (t : LinkId) : Prop :=
  ∃ r address timeout, .connect t r address timeout ∈ g.world.trace

/-- The challenges with a claim of `b` on `a` that is open on the link. -/
def pending (g : Gateway) (t : LinkId) (a b : String) : List String :=
  (g.challenges.entries.filter fun e => e.2.link = t ∧ ⟨e.1, b, a⟩ ∈ e.2.claims).map (·.1)

theorem mem_pending : x ∈ g.pending t a b ↔ g.IsOpen ⟨x, b, a⟩ t := by
  simp only [pending, List.mem_map, List.mem_filter, decide_eq_true_eq, IsOpen, Table.get?_eq_some]
  constructor
  · rintro ⟨⟨y, c⟩, ⟨he, hl, hm⟩, rfl⟩
    exact ⟨c, he, hl, hm⟩
  · rintro ⟨c, he, hl, hm⟩
    exact ⟨(x, c), ⟨he, hl, hm⟩, rfl⟩

theorem pending_nodup (g : Gateway) (t : LinkId) (a b : String) : (g.pending t a b).Nodup :=
  List.pairwise_map.mpr (g.challenges.distinct.filter _)

/-- A claim that is open was open before, or has just been recorded. -/
theorem step_records (ho : g.Orderly) (op : Operation) (hopen : (g.step op).IsOpen k t) :
    g.IsOpen k t ∨ (⟨g, op⟩ : Moment).Records k t := by
  rcases step_isOpen ho op hopen with h | ⟨u, e, m, rfl, asks, _, heq⟩
  · exact .inl h
  · have hfades := dispatchVerify_fades (g.openClaim k) k.route
      (Dialback.isVerify_verify k.source k.destination k.challenge m.key)
    rw [heq] at hopen
    exact .inr ⟨⟨u, e, rfl, asks⟩, openClaim_link (hfades.isOpen hopen)⟩

/-- A link that the gateway has not opened is not there for a route. -/
theorem Connected.foreign (hc : Connected h g) (traced : ∀ i e, Happens h i (e ∈ ·.calls) → e ∈ g.world.trace)
    (hn : ¬ g.HasOpened t) (r : Route) (u : LinkId) (ht : g.Tracks r u) : u ≠ t := by
  rintro rfl
  obtain ⟨i, ⟨m, hm, address, timeout, hcall⟩, _⟩ := hc.stays r u ht
  exact hn ⟨r, address, timeout, traced i _ ⟨m, hm, hcall⟩⟩

/-- The books of a run: no claim is answered, or open, more often than it was recorded, and what is written on
the stream of a peer is accounted for. -/
structure Balanced (h : List Moment) (g : Gateway) : Prop where
  connected : Connected h g
  distinct : g.ClaimsDistinct
  traced : ∀ i e, Happens h i (e ∈ ·.calls) → e ∈ g.world.trace
  claim : ∀ k t, howOften h (·.Answers k t) ≤ howOften h (·.Records k t)
  spare : ∀ k t, g.IsOpen k t → howOften h (·.Answers k t) < howOften h (·.Records k t)
  written : ∀ t, ¬ g.HasOpened t → ∀ a b,
    g.world.replies t a b + (g.pending t a b).length ≤ howOften h fun m => ∃ x, m.Records ⟨x, b, a⟩ t

theorem Balanced.accounts (hb : Balanced h g) (hn : ¬ g.HasOpened t) (op : Operation) :
    (⟨g, op⟩ : Moment).Accounts t :=
  step_accounts hb.connected.orderly hb.connected.indexed hb.connected.exclusive hb.distinct
    (hb.connected.foreign hb.traced hn) op

open Classical in
/-- What is answered, and what is open then, was open before or has just been recorded. -/
theorem replies_le_of_accounts (ho : g.Orderly) (ha : (⟨g, op⟩ : Moment).Accounts t) (a b : String) :
    (g.step op).world.replies t a b + ((g.step op).pending t a b).length ≤
      g.world.replies t a b + (g.pending t a b).length +
        if ∃ x, (⟨g, op⟩ : Moment).Records ⟨x, b, a⟩ t then 1 else 0 := by
  obtain ⟨tokens, hn, hcount, htokens⟩ := ha.answered a b
  change (g.step op).world.replies t a b = g.world.replies t a b + _ at hcount
  have distinct : (tokens ++ (g.step op).pending t a b).Nodup :=
    List.nodup_append.mpr ⟨hn, pending_nodup _ t a b, fun x hx y hy heq =>
      (htokens x hx).2.1 t (mem_pending.mp (heq ▸ hy))⟩
  have source : ∀ x ∈ tokens ++ (g.step op).pending t a b,
      x ∈ g.pending t a b ∨ (⟨g, op⟩ : Moment).Records ⟨x, b, a⟩ t := by
    intro x hx
    rw [mem_pending]
    exact (List.mem_append.mp hx).elim (fun hx => (htokens x hx).1)
      fun hx => step_records ho op (mem_pending.mp hx)
  suffices hle : (tokens ++ (g.step op).pending t a b).length ≤ (g.pending t a b).length +
      if ∃ x, (⟨g, op⟩ : Moment).Records ⟨x, b, a⟩ t then 1 else 0 by
    rw [List.length_append] at hle
    omega
  split
  · obtain ⟨x, hx⟩ := ‹∃ _, _›
    have hsub : tokens ++ (g.step op).pending t a b ⊆ x :: g.pending t a b := by
      intro y hy
      rcases source y hy with hm | hr
      · exact .tail _ hm
      · cases hx.unique hr
        exact .head _
    exact (List.subperm_of_subset distinct hsub).length_le
  · rename_i hnone
    exact (List.subperm_of_subset distinct fun y hy =>
      (source y hy).resolve_right fun hr => hnone ⟨y, hr⟩).length_le

theorem Balanced.step (hb : Balanced h g) (op : Operation) : Balanced (h ++ [⟨g, op⟩]) (g.step op) := by
  have ho := hb.connected.orderly
  have hgrows := (step_grows ho op).since.1
  have kept {e : Effect} (he : e ∈ g.world.trace) : e ∈ (g.step op).world.trace := by
    rw [hgrows]
    exact List.mem_append_left _ he
  refine ⟨hb.connected.step op, step_claimsDistinct ho hb.distinct op, ?_, ?_, ?_, ?_⟩
  · intro i e he
    rcases Happens.concat_iff.mp he with he | ⟨_, he⟩
    · exact kept (hb.traced i e he)
    · rw [hgrows]
      exact List.mem_append_right _ he
  · intro k t
    have hle := hb.claim k t
    rw [howOften_concat, howOften_concat]
    split
    · rename_i hanswers
      rcases hanswers.1 with hopen | hrecords
      · have hlt := hb.spare k t hopen
        split <;> omega
      · rw [if_pos hrecords]
        omega
    · split <;> omega
  · intro k t hopen
    have hle := hb.claim k t
    have hnone : ¬ (⟨g, op⟩ : Moment).Answers k t := fun ha => ha.2.1 t hopen
    rw [howOften_concat, howOften_concat, if_neg hnone]
    rcases step_records ho op hopen with hbefore | hrecords
    · have hlt := hb.spare k t hbefore
      split <;> omega
    · rw [if_pos hrecords]
      omega
  · intro t hn a b
    have before : ¬ g.HasOpened t := fun ⟨r, address, timeout, hm⟩ => hn ⟨r, address, timeout, kept hm⟩
    have hle := hb.written t before a b
    have hstep := replies_le_of_accounts ho (hb.accounts before op) a b
    rw [howOften_concat]
    omega

theorem run_balanced (setup : Setup) (world : World) (links : Function.Injective world.sources.linkId)
    (ops : List Operation) : Balanced ((initial setup world).history ops) ((initial setup world).run ops) := by
  refine run_induction (P := Balanced) ⟨initial_connected links, ?_, ?_, ?_, ?_, ?_⟩ (fun _ _ op hb => hb.step op)
    ops
  · intro x c hc
    cases hc
  · rintro i e ⟨m, hm, _⟩
    cases hm
  · exact fun k t => Nat.le_refl 0
  · rintro k t ⟨c, hc, _⟩
    cases hc
  · exact fun t _ a b => Nat.zero_le _

/-- If links are never numbered twice, a claim is answered no more often than it was recorded, and only as an element
about it or the failure of its request demands. Where none is open, such an element does nothing. -/
theorem claims_settled_once (setup : Setup) (world : World)
    (links : Function.Injective world.sources.linkId) (ops : List Operation) :
    let g := (initial setup world).run ops
    let moments := (initial setup world).history ops
    (∀ k t, howOften moments (·.Answers k t) ≤ howOften moments (·.Records k t) ∧
      (g.IsOpen k t → howOften moments (·.Answers k t) < howOften moments (·.Records k t))) ∧
    (∀ t, ¬ g.HasOpened t → (∀ op, (⟨g, op⟩ : Moment).Accounts t) ∧
      ∀ a b, g.world.replies t a b + (g.pending t a b).length ≤
        howOften moments fun m => ∃ x, m.Records ⟨x, b, a⟩ t) ∧
    (∀ op e k valid, g.Hears e op → Dialback.Decides e k valid → ∃ g₁, g.Heard op g₁ ∧
      ((∀ t, ¬ g.IsOpen k t) → g.step op = g₁) ∧ ∀ t, g.IsOpen k t → g₁.Concerns k t (g.step op)) ∧
    ∀ v, ((∀ k t, Dialback.Names v k → ¬ g.IsOpen k t) → g.failVerify v = g) ∧
      ∀ k t, Dialback.Names v k → g.IsOpen k t → g.Concerns k t (g.failVerify v) := by
  intro g moments
  have hb := run_balanced setup world links ops
  refine ⟨fun k t => ⟨hb.claim k t, hb.spare k t⟩, fun t hn => ⟨hb.accounts hn, hb.written t hn⟩, ?_, ?_⟩
  · exact fun op e k valid hears decides => hears.concerns hb.connected.orderly hb.distinct decides
  · exact fun v => ⟨failVerify_of_closed, fun k t => failVerify_concerns hb.distinct⟩

theorem forgery_accounted :
    let g := sample.run (forgery.take 2)
    let op : Operation := .inbound 1 (.element (Dialback.verifyReply "a.example" "b.example" "c" true))
    let k : Claim := ⟨"c", "a.example", "b.example"⟩
    Function.Injective sample.world.sources.linkId ∧ ¬ g.HasOpened 1 ∧ (⟨g, op⟩ : Moment).Accounts 1 ∧
      ∃ e, g.Hears e op ∧ Dialback.Decides e k true ∧ g.IsOpen k 1 ∧
        (∃ g₁, g.Heard op g₁ ∧ g₁.Concerns k 1 (g.step op)) ∧
        howOften (sample.history (forgery.take 2)) (·.Answers k 1) <
          howOften (sample.history (forgery.take 2)) (·.Records k 1) ∧
        ∃ v, Dialback.Names v k ∧ g.Concerns k 1 (g.failVerify v) := by
  intro g op k
  obtain ⟨counts, accounts, heard, failed⟩ :=
    claims_settled_once sample.setup sample.world sample_linkId_injective (forgery.take 2)
  have quiet : g.world.trace.filter (fun e => e matches .connect ..) = [] := by decide +kernel
  have unopened : ¬ g.HasOpened 1 := by
    rintro ⟨r, address, timeout, hm⟩
    exact List.not_mem_nil (quiet ▸ List.mem_filter.mpr ⟨hm, rfl⟩)
  have pending : g.challenges.get? "c" = some ⟨1, some "b.example", "a.example", 1, [k], 0⟩ := by decide +kernel
  have isOpen : g.IsOpen k 1 := ⟨_, pending, rfl, .head _⟩
  have session : g.sessionOn 1 = some ⟨"c", "a.example", some "b.example", 1⟩ := by decide +kernel
  have hears : g.Hears (Dialback.verifyReply "a.example" "b.example" "c" true) op := .peer (by decide) session
  have decides : Dialback.Decides (Dialback.verifyReply "a.example" "b.example" "c" true) k true :=
    ⟨⟨"a.example", "b.example", some "c", some "valid", ""⟩, by rfl, rfl, rfl, rfl, rfl, by decide⟩
  obtain ⟨g₁, hg₁, _, concerns⟩ := heard op _ k true hears decides
  exact ⟨sample_linkId_injective, unopened, (accounts 1 unopened).1 op, _, hears, decides, isOpen,
    ⟨g₁, hg₁, concerns 1 isOpen⟩, (counts k 1).2 isOpen, _, k.names_inquiry "forged",
    (failed _).2 k 1 (k.names_inquiry "forged") isOpen⟩

/-- An element about a claim that is not open is noted for the route that brings it. -/
theorem unmatched_answer_noted :
    let answer := Dialback.resultReply "a.example" "b.example" true
    let e := Dialback.verifyReply "a.example" "b.example" "unknown" true
    let k : Claim := ⟨"unknown", "a.example", "b.example"⟩
    let op : Operation := .outbound 100 (.element e)
    let g := sample.run (handshake ++ [.outbound 100 (.element answer)])
    g.Hears e op ∧ Dialback.Decides e k true ∧ (∀ t, ¬ g.IsOpen k t) ∧ g.step op ≠ g := by
  intro answer e k op g
  have free : g.attempts.get? 100 = none := by decide +kernel
  have carried : g.carried.get? 100 = some ⟨"b.example", "a.example"⟩ := by decide +kernel
  have closed : g.challenges.get? "unknown" = none := by decide +kernel
  refine ⟨.route (by decide) free carried, ?_, ?_, ?_⟩
  · exact ⟨⟨"a.example", "b.example", some "unknown", some "valid", ""⟩, by rfl, rfl, rfl, rfl, rfl, by decide⟩
  · rintro t ⟨c, hc, _⟩
    rw [closed] at hc
    cases hc
  · intro h
    have used := congrArg (fun g => (g.routes.get? ⟨"b.example", "a.example"⟩).map (·.stanzas)) h
    revert used
    decide +kernel

end Gateway

end Interdomain
