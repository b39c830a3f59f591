import Interdomain.Gateway.Operation
import Interdomain.Proofs.History
import Interdomain.Proofs.Ledger
import Interdomain.Proofs.Peers

/-! Stanzas are neither lost nor doubled. Each part of the gateway moves a stanza from one of its places to
another; only a submission adds one, in the place that its delivery says. -/
namespace Interdomain

open Protocol (Dialback)

namespace CallKind

/-- No stanza is written, and none returns. -/
def IsQuiet (k : CallKind) : Prop := k ≠ .stanza ∧ k ≠ .bounce

theorem IsPlain.quiet {k : CallKind} (h : IsPlain k) : IsQuiet k := by
  rw [IsPlain] at h
  simp [h, IsQuiet]

theorem IsTurn.quiet {k : CallKind} (h : IsTurn k) : IsQuiet k := by
  rcases h with rfl | rfl <;> simp [IsQuiet]

theorem IsInquiry.quiet {k : CallKind} (h : IsInquiry k) : IsQuiet k := by
  rcases h with rfl | rfl <;> simp [IsQuiet]

theorem IsVerdict.quiet {k : CallKind} (h : IsVerdict k) : IsQuiet k := by
  rcases h with rfl | rfl <;> simp [IsQuiet]

theorem IsAnswer.quiet {k : CallKind} (h : IsAnswer k) : IsQuiet k := by
  rcases h with h | rfl
  · exact h.quiet
  · simp [IsQuiet]

end CallKind

/-- A verify element is no stanza. -/
theorem ne_of_isVerify {e v : Xml.Element} (he : Protocol.isStanza e = true)
    (hv : Dialback.isVerify v = true) : e ≠ v := by
  rintro rfl
  have hk := CallKind.ofElement_verify hv
  simp [CallKind.ofElement, he] at hk

/-- What satisfies a condition and what does not make up a list. -/
theorem count_map_filter_add {α β : Type} [DecidableEq β] (f : α → β) (p : α → Bool) (l : List α) (b : β) :
    (l.map f).count b = ((l.filter p).map f).count b + ((l.filter fun x => !p x).map f).count b := by
  induction l with
  | nil => rfl
  | cons x l ih =>
    cases hp : p x
    · simp only [List.filter_cons, hp, List.map_cons, List.count_cons, Bool.not_false, if_true,
        Bool.false_eq_true, if_false]
      omega
    · simp only [List.filter_cons, hp, List.map_cons, List.count_cons, Bool.not_true, if_true,
        Bool.false_eq_true, if_false]
      omega

/-- The stanza that an operation submits. -/
def Operation.submitted? : Operation → Option Xml.Element
  | .submit stanza _ => some stanza
  | _ => none

namespace Gateway

variable {g g' : Gateway}

/-- Each negotiation is kept under its route, and what waits on it as a verify request is one. -/
structure Orderly (g : Gateway) : Prop where
  route : ∀ r n, g.negotiations.get? r = some n → n.route = r
  verifies : ∀ r n, g.negotiations.get? r = some n → ∀ v ∈ n.verifies, Dialback.isVerify v = true

/-- The gateway stays in order, and no stanza goes elsewhere. -/
structure Leaves (g g' : Gateway) : Prop where
  orderly : g.Orderly → g'.Orderly
  tally : g.Orderly → ∀ e, Protocol.isStanza e = true → g'.tally e = g.tally e

/-- The gateway stays in order, and no stanza is lost or doubled. -/
structure Conserves (g g' : Gateway) : Prop where
  orderly : g.Orderly → g'.Orderly
  total : g.Orderly → ∀ e, Protocol.isStanza e = true → (g'.tally e).total = (g.tally e).total

namespace Leaves

theorem refl (g : Gateway) : Leaves g g := ⟨id, fun _ _ _ => rfl⟩

theorem trans {f g h : Gateway} (a : Leaves f g) (b : Leaves g h) : Leaves f h :=
  ⟨fun ho => b.orderly (a.orderly ho),
    fun ho e he => (b.tally (a.orderly ho) e he).trans (a.tally ho e he)⟩

theorem conserves (h : Leaves g g') : Conserves g g' :=
  ⟨h.orderly, fun ho e he => congrArg Tally.total (h.tally ho e he)⟩

end Leaves

namespace Conserves

theorem refl (g : Gateway) : Conserves g g := (Leaves.refl g).conserves

theorem trans {f g h : Gateway} (a : Conserves f g) (b : Conserves g h) : Conserves f h :=
  ⟨fun ho => b.orderly (a.orderly ho),
    fun ho e he => (b.total (a.orderly ho) e he).trans (a.total ho e he)⟩

end Conserves

/-- What keeps the negotiations and passes no stanza on leaves all stanzas where they are. -/
theorem leaves_of_grows (hn : g'.negotiations = g.negotiations)
    (hw : World.Grows CallKind.IsQuiet g.world g'.world) : Leaves g g' := by
  refine ⟨fun ho => ⟨hn ▸ ho.route, hn ▸ ho.verifies⟩, fun _ e he => ?_⟩
  have h₁ := hw.written_eq (fun h => h.1 rfl) he
  have h₂ := hw.returned_eq (e := e) fun h => h.2 rfl
  simp only [tally, h₁, h₂, waiting, hn]

theorem Fades.leaves (h : Fades CallKind.IsPlain g g') (hk : KeepsOutbound g g') : Leaves g g' :=
  leaves_of_grows hk.negotiations (h.grows.mono fun _ => CallKind.IsPlain.quiet)

theorem Orderly.insert (ho : g.Orderly) {n : Negotiation}
    (hv : ∀ v ∈ n.verifies, Dialback.isVerify v = true)
    (hn : g'.negotiations = g.negotiations.insert n.route n) : g'.Orderly := by
  constructor
  · intro r m hm
    rw [hn, Table.get?_insert] at hm
    split at hm
    · cases hm
      exact Eq.symm ‹_›
    · exact ho.route r m hm
  · intro r m hm
    rw [hn, Table.get?_insert] at hm
    split at hm
    · cases hm
      exact hv
    · exact ho.verifies r m hm

theorem Orderly.erase (ho : g.Orderly) {r : Route} (hn : g'.negotiations = g.negotiations.erase r) :
    g'.Orderly := by
  have kept {x : Route} {m : Negotiation} (hm : g'.negotiations.get? x = some m) :
      g.negotiations.get? x = some m := by
    rw [hn, Table.get?_erase] at hm
    split at hm
    · cases hm
    · exact hm
  exact ⟨fun x m hm => ho.route x m (kept hm), fun x m hm => ho.verifies x m (kept hm)⟩

/-- A negotiation takes the place of one with other stanzas. -/
theorem waiting_insert {k : Gateway} {n m : Negotiation} (hg : g.negotiations.get? m.route = some n)
    (hn : k.negotiations = g.negotiations.insert m.route m) (e : Xml.Element) :
    k.waiting e + n.stanzas.count e = g.waiting e + m.stanzas.count e := by
  have h := g.negotiations.total_insert (fun n => n.stanzas.count e) m.route m
  rw [hg] at h
  rw [waiting, hn]
  exact h

theorem waiting_erase {k : Gateway} {n : Negotiation} {r : Route} (hg : g.negotiations.get? r = some n)
    (hn : k.negotiations = g.negotiations.erase r) (e : Xml.Element) :
    k.waiting e + n.stanzas.count e = g.waiting e := by
  have h := g.negotiations.total_erase (fun n => n.stanzas.count e) r
  rw [hg] at h
  rw [waiting, hn]
  exact h

/-- A negotiation that changes without its stanzas, and passes none on. -/
theorem leaves_of_insert {n m : Negotiation} (hg : g.negotiations.get? m.route = some n)
    (hn : g'.negotiations = g.negotiations.insert m.route m) (hq : m.queue = n.queue)
    (hv : ∀ v ∈ m.verifies, v ∈ n.verifies ∨ Dialback.isVerify v = true)
    (hw : World.Grows CallKind.IsQuiet g.world g'.world) : Leaves g g' := by
  refine ⟨fun ho => ho.insert (fun v h => ?_) hn, fun _ e he => ?_⟩
  · exact (hv v h).elim (ho.verifies _ n hg v) id
  have h₁ := hw.written_eq (fun h => h.1 rfl) he
  have h₂ := hw.returned_eq (e := e) fun h => h.2 rfl
  have h₃ := waiting_insert hg hn e
  have hs : m.stanzas = n.stanzas := by rw [Negotiation.stanzas, hq]; rfl
  rw [hs] at h₃
  simp only [tally, h₁, h₂, Tally.mk.injEq, true_and]
  omega

theorem setNegotiation_leaves {n : Negotiation} {t : Turn} (hg : g.negotiations.get? n.route = some n)
    (ht : t.Serves n g.world) : Leaves g (g.setNegotiation t.negotiation t.world) :=
  leaves_of_insert (n := n) (m := t.negotiation) (by rw [ht.route]; exact hg) rfl ht.queue
    (fun _ h => .inl (ht.verifies h)) (ht.grows.mono fun _ => CallKind.IsTurn.quiet)

theorem foldl_bounce_returned (g : Gateway) (stanzas : List Xml.Element) (reason : BounceReason)
    (e : Xml.Element) : (stanzas.foldl (fun g s => g.emit (.bounce s reason)) g).world.returned e =
      g.world.returned e + stanzas.count e := by
  induction stanzas generalizing g with
  | nil => rfl
  | cons s stanzas ih =>
    have h := ih (g.emit (.bounce s reason))
    have hs : (g.emit (.bounce s reason)).world.returned e =
        g.world.returned e + if s = e then 1 else 0 := by
      simp [World.returned, emit, act, Effect.returned?]
    simp only [List.foldl_cons, List.count_cons, beq_iff_eq] at h ⊢
    omega

theorem foldl_bounce_keepsOutbound (g : Gateway) (stanzas : List Xml.Element) (reason : BounceReason) :
    KeepsOutbound g (stanzas.foldl (fun g s => g.emit (.bounce s reason)) g) :=
  foldl_relation .refl (fun _ _ _ => .trans) (fun g _ _ => g.act_keepsOutbound (·.emit _)) g

/-- Stanzas that return no longer wait. -/
theorem conserves_of_bounce {stanzas : List Xml.Element} (reason : BounceReason)
    (ho : g.Orderly → g'.Orderly) (hw : World.Grows CallKind.IsQuiet g.world g'.world)
    (hq : ∀ e, g'.waiting e + stanzas.count e = g.waiting e) :
    Conserves g (stanzas.foldl (fun g s => g.emit (.bounce s reason)) g') := by
  have hk := g'.foldl_bounce_keepsOutbound stanzas reason
  refine ⟨fun h => ⟨hk.negotiations ▸ (ho h).route, hk.negotiations ▸ (ho h).verifies⟩, fun _ e he => ?_⟩
  have h₁ := ((g'.foldl_bounce_fades stanzas reason).grows).written_eq
    (by simp [CallKind.IsReturn]) he
  have h₂ := hw.written_eq (fun h => h.1 rfl) he
  have h₃ := g'.foldl_bounce_returned stanzas reason e
  have h₄ := hw.returned_eq (e := e) fun h => h.2 rfl
  have h₅ := hq e
  simp only [tally, Tally.total, h₁, h₂, h₃, h₄, waiting, hk.negotiations] at h₅ ⊢
  omega

/-- The stanzas of a negotiation that is given up return to their senders. -/
theorem retire_conserves (g : Gateway) (route : Route) (linkGone : Bool) :
    Conserves g (g.retire route linkGone) := by
  cases hn : g.negotiations.get? route with
  | none =>
    rw [retire, hn]
    exact .refl g
  | some n =>
    have hd := g.discard_negotiations route n linkGone
    have hb := conserves_of_bounce n.failureReason (fun ho : g.Orderly => ho.erase hd)
      ((g.discard_fades route n linkGone).grows.mono fun _ => CallKind.IsPlain.quiet)
      (waiting_erase hn hd)
    rw [retire_eq hn]
    exact hb.trans
      ((foldl_failVerify_fades _ _).leaves (foldl_failVerify_keepsOutbound _ _)).conserves

/-- The stanzas of a negotiation that succeeds are written. -/
theorem establish_conserves (g : Gateway) (route : Route) : Conserves g (g.establish route) := by
  cases hn : g.negotiations.get? route with
  | none =>
    rw [establish, hn]
    exact .refl g
  | some n =>
    obtain ⟨carrier, _, he⟩ := establish_eq hn
    have hover : Conserves g (g.handOver route n) := by
      refine ⟨fun ho => ho.erase rfl, fun ho e he => ?_⟩
      have hz : n.verifies.count e = 0 := by
        rw [List.count_eq_zero]
        intro hm
        exact ne_of_isVerify he (ho.verifies _ n hn e hm) rfl
      have hq := waiting_erase (k := g.handOver route n) hn rfl e
      simp only [tally, Tally.total, handOver, World.written_sendElements,
        World.returned_sendElements, hz] at hq ⊢
      omega
    refine hover.trans (Leaves.conserves ?_)
    rw [he]
    exact leaves_of_grows (setRoutes_negotiations _ _) (setRoutes_grows _ (by simp [CallKind.IsQuiet]) _)

/-- The submission of a stanza puts it where its delivery says, and leaves all other stanzas. -/
structure Puts (stanza : Xml.Element) (g : Gateway) (r : Gateway × Delivery) : Prop where
  orderly : g.Orderly → r.1.Orderly
  tally : g.Orderly → ∀ e, Protocol.isStanza e = true →
    r.1.tally e = if e = stanza then (g.tally e).put r.2 else g.tally e

theorem Conserves.of_orderly (h : g.Orderly → Conserves g g') : Conserves g g' :=
  ⟨fun ho => (h ho).orderly ho, fun ho => (h ho).total ho⟩

namespace Puts

variable {stanza : Xml.Element} {r : Gateway × Delivery}

theorem of_orderly (h : g.Orderly → Puts stanza g r) : Puts stanza g r :=
  ⟨fun ho => (h ho).orderly ho, fun ho => (h ho).tally ho⟩

theorem of_leaves (h : Leaves g r.1) (hv : Dialback.isVerify stanza = true) : Puts stanza g r := by
  refine ⟨h.orderly, fun ho e he => ?_⟩
  rw [if_neg (ne_of_isVerify he hv)]
  exact h.tally ho e he

/-- A verify request that is submitted is no stanza. -/
theorem leaves (h : Puts stanza g r) (hv : Dialback.isVerify stanza = true) : Leaves g r.1 := by
  refine ⟨h.orderly, fun ho e he => ?_⟩
  have ht := h.tally ho e he
  rwa [if_neg (ne_of_isVerify he hv)] at ht

theorem after {f : Gateway} (a : Leaves f g) (b : Puts stanza g r) : Puts stanza f r := by
  refine ⟨fun ho => b.orderly (a.orderly ho), fun ho e he => ?_⟩
  rw [b.tally (a.orderly ho) e he, a.tally ho e he]

end Puts

theorem bounce_puts (g : Gateway) (stanza : Xml.Element) (reason : BounceReason) :
    Puts stanza g (g.emit (.bounce stanza reason), .bounced) := by
  refine ⟨fun ho => ⟨ho.route, ho.verifies⟩, fun _ e he => ?_⟩
  have h₁ := (g.bounce_fades stanza reason).grows.written_eq (by simp [CallKind.IsReturn]) he
  have h₂ := g.foldl_bounce_returned [stanza] reason e
  simp only [List.foldl_cons, List.foldl_nil, List.count_singleton, beq_iff_eq] at h₂
  have h₃ : (g.emit (.bounce stanza reason)).waiting e = g.waiting e := rfl
  simp only [tally, h₁, h₂, h₃]
  by_cases hs : e = stanza
  · simp [hs, Tally.put]
  · simp [hs, Ne.symm hs]

/-- A stanza is left with a negotiation. -/
theorem hold_puts {n : Negotiation} (hn : g.negotiations.get? n.route = some n) (stanza : Xml.Element) :
    Puts stanza g (g.hold n stanza) := by
  have hw := (g.hold_grows n stanza).mono fun _ => CallKind.IsPlain.quiet
  by_cases hv : Dialback.isVerify stanza = true
  · refine .of_leaves ?_ hv
    simp only [hold, if_pos hv, Negotiation.addVerify] at hw ⊢
    by_cases hr : n.ready = true
    · simp only [if_pos hr] at hw ⊢
      exact leaves_of_insert hn rfl rfl (fun _ h => .inl h) hw
    · simp only [if_neg hr] at hw ⊢
      refine leaves_of_insert (m := { n with verifies := n.verifies ++ [stanza] }) hn rfl rfl ?_ hw
      intro v h
      rcases List.mem_append.mp h with h | h
      · exact .inl h
      · rw [List.mem_singleton.mp h]
        exact .inr hv
  · simp only [hold, if_neg hv] at hw ⊢
    refine ⟨fun ho => ho.insert (n := n.enqueue stanza g.now) (ho.verifies _ n hn) rfl, fun _ e he => ?_⟩
    have h₁ := hw.written_eq (fun h => h.1 rfl) he
    have h₂ := hw.returned_eq (e := e) fun h => h.2 rfl
    have h₃ := waiting_insert (k := g.setNegotiation (n.enqueue stanza g.now) g.world)
      (m := n.enqueue stanza g.now) hn rfl e
    have h₄ : (n.enqueue stanza g.now).stanzas.count e =
        n.stanzas.count e + if stanza = e then 1 else 0 := by
      simp [Negotiation.stanzas, Negotiation.enqueue, List.count_append, List.count_singleton]
    simp only [tally, h₁, h₂]
    by_cases hs : e = stanza
    · simp only [hs, if_pos, Tally.put, Tally.mk.injEq, true_and] at h₃ h₄ ⊢
      omega
    · simp only [hs, Ne.symm hs, if_false, Tally.mk.injEq, true_and] at h₃ h₄ ⊢
      omega

/-- A stanza that is carried by a route is written there. -/
theorem carry_puts (g : Gateway) (route : Route) (carrier : Carrier) (stanza : Xml.Element) :
    Puts stanza g ({ g with
      world := g.world.sendElement carrier.link stanza
      routes := g.routes.modify route (·.carry g.now) },
      if Dialback.isVerify stanza then .verifySent else .sent) := by
  by_cases hv : Dialback.isVerify stanza = true
  · refine .of_leaves (leaves_of_grows rfl (World.grows_sendElement _ _ ?_)) hv
    exact CallKind.IsPlain.quiet (CallKind.ofElement_verify hv)
  · rw [if_neg hv]
    refine ⟨fun ho => ⟨ho.route, ho.verifies⟩, fun _ e he => ?_⟩
    have h₁ := g.world.written_sendElement carrier.link stanza e
    have h₂ := g.world.returned_sendElements carrier.link [stanza] e
    simp only [World.sendElements, List.foldl_cons, List.foldl_nil] at h₂
    by_cases hs : e = stanza
    · subst hs
      rw [if_pos rfl] at h₁ ⊢
      simp only [tally, h₁, h₂, Tally.put]
      rfl
    · rw [if_neg (Ne.symm hs)] at h₁
      rw [if_neg hs]
      simp only [tally, h₁, h₂]
      rfl

/-- A negotiation that has just begun holds no stanza. -/
theorem putNegotiation_leaves {n : Negotiation} {w : World} (free : g.negotiations.get? n.route = none)
    (begins : n.Begins g.world w) (queue : n.queue = []) (verifies : n.verifies = []) :
    Leaves g (g.putNegotiation n w) := by
  have hw := begins.grows.mono fun _ => CallKind.IsInquiry.quiet
  refine ⟨fun ho => ho.insert (by simp [verifies]) rfl, fun _ e he => ?_⟩
  have h₁ := hw.written_eq (fun h => h.1 rfl) he
  have h₂ := hw.returned_eq (e := e) fun h => h.2 rfl
  have h₃ := g.negotiations.total_insert (fun n => n.stanzas.count e) n.route n
  rw [free] at h₃
  simp only [Negotiation.stanzas, queue, List.map_nil, List.count_nil, Option.map_none,
    Option.getD_none] at h₃
  simp only [tally, putNegotiation, waiting, h₁, h₂, Tally.mk.injEq, true_and]
  exact h₃

namespace SubmitStep

variable {stanza : Xml.Element} {r : Gateway × Delivery}

theorem puts (h : g.SubmitStep stanza r) : Puts stanza g r := by
  refine .of_orderly fun ho => ?_
  cases h with
  | @carried route carrier _ found => exact g.carry_puts route carrier stanza
  | @asked _ n _ _ found =>
    have hs : Leaves g (g.setNegotiation n g.world) :=
      leaves_of_insert (by rw [ho.route _ n found]; exact found) rfl rfl (fun _ h => .inl h) (.refl _)
    exact .after hs (hold_puts (by simp [setNegotiation, Table.get?_insert]) stanza)
  | @joined _ n _ _ found =>
    have hn : g.negotiations.get? n.route = some n := by
      rw [ho.route _ n found]
      exact found
    exact .after (setNegotiation_leaves hn (n.want_serves g.setup g.world))
      (hold_puts (by simp [setNegotiation, Table.get?_insert]) stanza)
  | began _ free _ begins queue verifies =>
    exact .after (putNegotiation_leaves free begins queue verifies)
      (hold_puts (by simp [putNegotiation, Table.get?_insert]) stanza)
  | refused _ verify _ =>
    exact .of_leaves ((g.failVerify_fades _).leaves (g.failVerify_keepsOutbound _)) verify
  | dropped _ verify => exact .of_leaves (.refl g) verify
  | returned plain => exact g.bounce_puts stanza _

/-- A stanza that is submitted is written, waits, or returns to its sender. -/
theorem delivery (h : g.SubmitStep stanza r) (he : Protocol.isStanza stanza = true) :
    r.2 ∈ [.sent, .queued, .bounced] := by
  have hv : ¬ Dialback.isVerify stanza = true := fun hv => ne_of_isVerify he hv rfl
  cases h with
  | carried _ found => simp [hv]
  | asked _ verify found => exact absurd verify hv
  | joined _ plain found => simp [hold, hv]
  | began _ free _ begins queue verifies => simp [hold, hv]
  | refused _ verify _ => exact absurd verify hv
  | dropped _ verify => exact absurd verify hv
  | returned plain => simp

end SubmitStep

theorem dispatchVerify_leaves (g : Gateway) (route : Route) {verify : Xml.Element}
    (hv : Dialback.isVerify verify = true) : Leaves g (g.dispatchVerify route verify) := by
  unfold dispatchVerify
  split
  · exact (g.submit_step verify none).puts.leaves hv
  · exact leaves_of_grows rfl (World.grows_emit _ (by simp [CallKind.IsQuiet, Effect.kind])
      (by simp [Effect.kind]))

theorem onInbound_leaves (g : Gateway) (link : LinkId) (event : LinkEvent) :
    Leaves g (g.onInbound link event) := by
  rcases (g.onInbound_step link event).answers with ⟨hk, hw⟩ | ⟨e, claim, key, _, _, he⟩
  · exact leaves_of_grows hk.negotiations (hw.mono fun _ => CallKind.IsAnswer.quiet)
  · rw [he]
    have ho : Leaves g (g.openClaim claim) := leaves_of_grows rfl (.refl _)
    exact ho.trans (dispatchVerify_leaves _ _ (Dialback.isVerify_verify ..))

theorem onVerify_leaves (g : Gateway) (link : LinkId) (e : Xml.Element) :
    Leaves g (g.onVerify link e) :=
  leaves_of_grows (g.onVerify_keepsOutbound link e).negotiations
    ((g.onVerify_grows link e).mono fun _ => CallKind.IsVerdict.quiet)

/-- What follows a turn of a negotiation. -/
theorem follow_conserves {n : Negotiation} {t : Turn} (hn : g.negotiations.get? n.route = some n)
    (ht : t.Serves n g.world) : Conserves g (g.follow t) := by
  have hs := (setNegotiation_leaves hn ht).conserves
  unfold follow
  dsimp only
  split
  · exact hs
  · exact hs.trans (establish_conserves _ _)
  · exact hs.trans (retire_conserves _ _ _)
  · exact hs.trans (onVerify_leaves _ _ _).conserves

/-- The next address is tried, or the negotiation is given up. -/
theorem advance_conserves {n : Negotiation} (hn : g.negotiations.get? n.route = some n) :
    Conserves g (g.advance n) := by
  unfold advance
  split
  · split
    · rename_i m w ha
      obtain ⟨hb, hr, hq, hv⟩ := Negotiation.advance?_begins ha
      refine (leaves_of_insert (n := n) (m := m) (by rw [hr]; exact hn) rfl hq ?_ ?_).conserves
      · intro v h
        rw [hv] at h
        exact .inl h
      · exact hb.grows.mono fun _ => CallKind.IsInquiry.quiet
    · exact retire_conserves _ _ _
  · exact retire_conserves _ _ _

theorem onAttemptClosed_conserves {n : Negotiation} (hn : g.negotiations.get? n.route = some n)
    (error : Option String) : Conserves g (g.onAttemptClosed n error) := by
  have noted (m : Negotiation) (hr : m.route = n.route) (hq : m.queue = n.queue)
      (hv : m.verifies = n.verifies) :
      Conserves g ({ g.setNegotiation m g.world with attempts := g.attempts.erase m.link }.advance m) := by
    have hs : Leaves g { g.setNegotiation m g.world with attempts := g.attempts.erase m.link } := by
      refine leaves_of_insert (n := n) (m := m) (by rw [hr]; exact hn) rfl hq ?_ (.refl _)
      intro v h
      rw [hv] at h
      exact .inl h
    refine hs.conserves.trans (advance_conserves ?_)
    simp [setNegotiation, Table.get?_insert]
  unfold onAttemptClosed
  cases error with
  | none => exact noted n rfl rfl rfl
  | some text => exact noted (n.note text) rfl rfl rfl

theorem onAttempt_conserves {n : Negotiation} (hn : g.negotiations.get? n.route = some n)
    (event : LinkEvent) : Conserves g (g.onAttempt n event) := by
  refine .of_orderly fun ho => ?_
  have hv := ho.verifies _ n hn
  cases event with
  | connected => exact follow_conserves hn (n.onConnected_serves g.setup g.world)
  | header header => exact follow_conserves hn (n.onHeader_serves g.setup g.world hv header _)
  | element e => exact follow_conserves hn (n.onElement_serves g.setup g.world hv e)
  | closed error => exact onAttemptClosed_conserves hn error

theorem setRoutes_leaves {α : Type} (g : Gateway) (change : Registry.Change Route Carrier α) :
    Leaves g (g.setRoutes change) :=
  leaves_of_grows (g.setRoutes_negotiations change) (g.setRoutes_grows (by simp [CallKind.IsQuiet]) change)

theorem dropRoute_leaves (g : Gateway) (route : Route) (link : LinkId) :
    Leaves g (g.dropRoute route link) :=
  Leaves.trans (g := { g with carried := g.carried.erase link }) (leaves_of_grows rfl (.refl _))
    (setRoutes_leaves _ _)

theorem onRoute_leaves (g : Gateway) (route : Route) (link : LinkId) (event : LinkEvent) :
    Leaves g (g.onRoute route link event) := by
  unfold onRoute
  split
  · exact .refl g
  · exact .refl g
  · exact g.dropRoute_leaves route link
  · split
    · exact Leaves.trans (g := { g with routes := g.routes.modify route (·.carry g.now) })
        (leaves_of_grows rfl (.refl _)) (onVerify_leaves _ _ _)
    · split
      · exact ((g.close_fades link).leaves (g.act_keepsOutbound _)).trans (dropRoute_leaves _ _ _)
      · exact ((g.fail_fades link _).leaves (g.act_keepsOutbound _)).trans (dropRoute_leaves _ _ _)

theorem onOutbound_conserves (g : Gateway) (link : LinkId) (event : LinkEvent) :
    Conserves g (g.onOutbound link event) := by
  refine .of_orderly fun ho => ?_
  unfold onOutbound
  split
  · split
    · rename_i n hn
      exact onAttempt_conserves (by rw [ho.route _ n hn]; exact hn) event
    · have hl : Leaves g { g with attempts := g.attempts.erase link } := leaves_of_grows rfl (.refl _)
      exact hl.conserves
  · split
    · exact (g.onRoute_leaves _ link event).conserves
    · exact .refl g

/-- Stanzas that have waited too long return to their senders. -/
theorem bounceExpired_conserves (g : Gateway) (now : Nat) (route : Route) :
    Conserves g (g.bounceExpired now route).1 := by
  refine .of_orderly fun ho => ?_
  unfold bounceExpired
  split
  · exact .refl g
  · rename_i n hn
    dsimp only
    have hr : (n.dropExpired now g.setup.settings.queueTimeout).route = route := ho.route _ n hn
    refine conserves_of_bounce _ (fun ho => ?_) (.refl _) ?_
    · exact ho.insert (n := n.dropExpired now g.setup.settings.queueTimeout) (ho.verifies _ n hn) rfl
    · intro e
      have hw := waiting_insert (k := g.setNegotiation (n.dropExpired now g.setup.settings.queueTimeout)
        g.world) (m := n.dropExpired now g.setup.settings.queueTimeout) (by rw [hr]; exact hn) rfl e
      have hc : n.stanzas.count e = (n.expired now g.setup.settings.queueTimeout).count e +
          (n.dropExpired now g.setup.settings.queueTimeout).stanzas.count e := by
        simp only [Negotiation.stanzas, Negotiation.expired, Negotiation.dropExpired]
        exact count_map_filter_add _ _ _ _
      omega

theorem sweepQueue_conserves (now : Nat) (g : Gateway) (route : Route) :
    Conserves g (sweepQueue now g route).1 :=
  sweepQueue_relation_of_expired .refl (fun _ _ _ => .trans) (g.bounceExpired_conserves now route)
    fun g _ _ _ => g.retire_conserves route false

theorem releaseRoute_leaves (g : Gateway) (route : Route) : Leaves g (g.releaseRoute route).1 := by
  unfold releaseRoute
  split
  · exact .refl g
  · exact (g.setRoutes_leaves _).trans
      (leaves_of_grows rfl (World.grows_finish _ _ (by simp [CallKind.IsQuiet])))

/-- A relation that composes holds along the sweep of all timeouts if it holds where negotiations and routes stay as
they are, where a route is released, and where the queue of a negotiation is swept. -/
theorem sweepAt_relation_of_ended {R : Gateway → Gateway → Prop} (refl : ∀ g, R g g)
    (trans : ∀ f g h, R f g → R g h → R f h) {now : Nat}
    (ended : ∀ g g', Fades CallKind.IsPlain g g' → KeepsOutbound g g' → R g g')
    (released : ∀ g r, R g (g.releaseRoute r).1) (queue : ∀ g r, R g (sweepQueue now g r).1) (g : Gateway) :
    R g (g.sweepAt now).1 :=
  sweepAt_relation refl trans released
    (fun g claim => ended _ _ (g.releaseClaim_fades claim) (g.releaseClaim_keepsOutbound claim))
    (fun g link => ended _ _ (g.endLegacy_fades link) (g.endLegacy_keepsOutbound link))
    (fun g token => ended _ _ (g.endChallenge_fades token) (g.endChallenge_keepsOutbound token))
    (fun g link => ended _ _ (g.endSilent_fades link) (g.endSilent_keepsOutbound link))
    (fun g route => ended _ _ (g.closeAttempt_fades route) (g.closeAttempt_keepsOutbound route)) queue g

theorem sweepAt_conserves (g : Gateway) (now : Nat) : Conserves g (g.sweepAt now).1 :=
  sweepAt_relation_of_ended .refl (fun _ _ _ => .trans) (fun _ _ hf hk => (hf.leaves hk).conserves)
    (fun g route => (g.releaseRoute_leaves route).conserves) (sweepQueue_conserves now) g

/-- For the queues, the gateway may be taken to be in order. -/
theorem Orderly.sweepAt_relation {R : Gateway → Gateway → Prop} (ho : g.Orderly) (refl : ∀ g, R g g)
    (trans : ∀ f g h, R f g → R g h → R f h) {now : Nat}
    (ended : ∀ g g', Fades CallKind.IsPlain g g' → KeepsOutbound g g' → R g g')
    (released : ∀ g r, R g (g.releaseRoute r).1) (queue : ∀ g, g.Orderly → ∀ r, R g (sweepQueue now g r).1) :
    R g (g.sweepAt now).1 := by
  have along {g g' : Gateway} (kept : Conserves g g') (h : g.Orderly → R g g') : g.Orderly → g'.Orderly ∧ R g g' :=
    fun ho => ⟨kept.orderly ho, h ho⟩
  refine (sweepAt_relation_of_ended (R := fun g g' => g.Orderly → g'.Orderly ∧ R g g')
    (fun g ho => ⟨ho, refl g⟩) ?_ ?_ ?_ ?_ g ho).2
  · intro f g h first second ho
    obtain ⟨hg, a⟩ := first ho
    obtain ⟨hh, b⟩ := second hg
    exact ⟨hh, trans f g h a b⟩
  · exact fun g g' hf hk => along (hf.leaves hk).conserves fun _ => ended g g' hf hk
  · exact fun g r => along (g.releaseRoute_leaves r).conserves fun _ => released g r
  · exact fun g r => along (sweepQueue_conserves now g r) fun ho => queue g ho r

theorem put_total (t : Tally) {d : Delivery} (hd : d ∈ [.sent, .queued, .bounced]) :
    (t.put d).total = t.total + 1 := by
  simp only [List.mem_cons, List.not_mem_nil, or_false] at hd
  rcases hd with rfl | rfl | rfl <;> simp only [Tally.put, Tally.total] <;> omega

/-- An operation adds the stanza that it submits, and otherwise no stanza is lost or doubled. -/
theorem step_total (ho : g.Orderly) (op : Operation) :
    (g.step op).Orderly ∧ ∀ e, Protocol.isStanza e = true → ((g.step op).tally e).total =
      (g.tally e).total + if op.submitted? = some e then 1 else 0 := by
  have kept {g' : Gateway} (h : Conserves g g') (hs : op.submitted? = none) :
      g'.Orderly ∧ ∀ e, Protocol.isStanza e = true → (g'.tally e).total =
        (g.tally e).total + if op.submitted? = some e then 1 else 0 := by
    refine ⟨h.orderly ho, fun e he => ?_⟩
    rw [h.total ho e he, hs]
    rfl
  cases op with
  | submit stanza resolved =>
    have hs := g.submit_step stanza resolved
    rw [step_submit]
    refine ⟨hs.puts.orderly ho, fun e he => ?_⟩
    rw [hs.puts.tally ho e he]
    by_cases he' : e = stanza
    · subst he'
      rw [if_pos rfl, put_total _ (hs.delivery he)]
      simp [Operation.submitted?]
    · simp [Operation.submitted?, he', Ne.symm he']
  | inbound link event => exact kept (g.onInbound_leaves link event).conserves rfl
  | outbound link event => exact kept (g.onOutbound_conserves link event) rfl
  | sweep ahead =>
    rw [step_sweep]
    exact kept (g.sweepAt_conserves _) rfl
  | releaseRoute route =>
    rw [step_releaseRoute]
    exact kept (g.releaseRoute_leaves route).conserves rfl
  | releaseClaim claim =>
    rw [step_releaseClaim]
    exact kept ((g.releaseClaim_fades claim).leaves (g.releaseClaim_keepsOutbound claim)).conserves rfl
  | wait duration =>
    exact kept ((g.wait_fades duration).leaves (g.wait_keepsOutbound duration)).conserves rfl
  | learn link facts =>
    exact kept ((g.learn_fades link facts).leaves (g.learn_keepsOutbound link facts)).conserves rfl

theorem initial_orderly (setup : Setup) (world : World) : (initial setup world).Orderly := by
  constructor
  · intro r n h
    cases h
  · intro r n h
    cases h

theorem run_orderly (setup : Setup) (world : World) (ops : List Operation) :
    ((initial setup world).run ops).Orderly :=
  run_invariant (initial_orderly setup world) (fun _ op ho => (step_total ho op).1) ops

theorem run_total (ho : g.Orderly) (ops : List Operation) {e : Xml.Element}
    (he : Protocol.isStanza e = true) :
    ((g.run ops).tally e).total = (g.tally e).total + ops.countP (·.submitted? = some e) := by
  induction ops generalizing g with
  | nil => rfl
  | cons op ops ih =>
    have hs := step_total ho op
    have hr := ih hs.1
    rw [hs.2 e he] at hr
    rw [List.countP_cons]
    simp only [decide_eq_true_eq]
    change ((g.step op |>.run ops).tally e).total = _
    omega

/-- At every moment of every run, each stanza that was submitted has been written on a link, has returned to
its sender, or waits on a negotiation, as often as it was submitted; and a further submission puts it into
the place that its delivery says, while all other stanzas stay where they are. -/
theorem stanzas_accounted (setup : Setup) (world : World) (ops : List Operation) (e : Xml.Element)
    (he : Protocol.isStanza e = true) :
    let g := (initial setup world).run ops
    ops.countP (·.submitted? = some e) = g.world.written e + g.world.returned e + g.waiting e ∧
    ∀ resolved, (g.submit e resolved).2 ∈ [.sent, .queued, .bounced] ∧
      ∀ x, Protocol.isStanza x = true → (g.submit e resolved).1.tally x =
        if x = e then (g.tally x).put (g.submit e resolved).2 else g.tally x := by
  intro g
  have ht := run_total (initial_orderly setup world) ops he
  have hz : ((initial setup world).tally e).total = 0 := rfl
  rw [hz, Nat.zero_add] at ht
  refine ⟨ht.symm, fun resolved => ?_⟩
  have hs := g.submit_step e resolved
  exact ⟨hs.delivery he, hs.puts.tally (run_orderly setup world ops)⟩

/-- Of a stanza that was submitted twice, and once to nowhere, two copies wait and one has returned. -/
theorem message_accounted :
    let e := sampleMessage "alice@a.example" "bob@b.example"
    let ops : List Operation := [.submit e none, .submit e (some "192.0.2.1"), .submit e none]
    Protocol.isStanza e = true ∧ (sample.run ops).tally e = ⟨0, 1, 2⟩ ∧
    ops.countP (·.submitted? = some e) = (sample.run ops).world.written e +
      (sample.run ops).world.returned e + (sample.run ops).waiting e ∧
    ∀ resolved, ((sample.run ops).submit e resolved).2 ∈ [.sent, .queued, .bounced] ∧
      ∀ x, Protocol.isStanza x = true → ((sample.run ops).submit e resolved).1.tally x =
        if x = e then ((sample.run ops).tally x).put ((sample.run ops).submit e resolved).2
        else (sample.run ops).tally x := by
  intro e ops
  refine ⟨by decide +kernel, by decide +kernel, ?_⟩
  exact stanzas_accounted sample.setup sample.world ops e (by decide +kernel)

end Gateway

end Interdomain
