import Interdomain.Gateway.Operation
import Interdomain.Proofs.Calls

/-! What a part of the gateway leaves alone. The state of a gateway falls into two sides, one for the streams
that peers open and one for those it opens itself, which meet in the settling of claims only. -/
namespace Interdomain

/-- A relation that composes holds along a fold if it holds of each step. -/
theorem foldl_relation {α β : Type} {R : α → α → Prop} (refl : ∀ a, R a a)
    (trans : ∀ a b c, R a b → R b c → R a c) {f : α → β → α} {l : List β}
    (step : ∀ a, ∀ b ∈ l, R a (f a b)) (a : α) : R a (l.foldl f a) := by
  induction l generalizing a with
  | nil => exact refl a
  | cons b l ih =>
    exact trans _ _ _ (step a b (by simp)) (ih (fun a x hx => step a x (by simp [hx])) (f a b))

namespace Gateway

/-- The streams of peers, their challenges and their admissions are as they were. -/
structure KeepsInbound (g g' : Gateway) : Prop where
  setup : g'.setup = g.setup
  challenges : g'.challenges = g.challenges
  admissions : g'.admissions = g.admissions
  streams : g'.streams = g.streams

/-- The negotiations and the routes, with their links, are as they were. -/
structure KeepsOutbound (g g' : Gateway) : Prop where
  setup : g'.setup = g.setup
  negotiations : g'.negotiations = g.negotiations
  routes : g'.routes = g.routes
  addresses : g'.addresses = g.addresses
  attempts : g'.attempts = g.attempts
  carried : g'.carried = g.carried

theorem KeepsInbound.refl (g : Gateway) : KeepsInbound g g := ⟨rfl, rfl, rfl, rfl⟩

theorem KeepsInbound.trans {f g h : Gateway} (a : KeepsInbound f g) (b : KeepsInbound g h) :
    KeepsInbound f h :=
  ⟨b.setup.trans a.setup, b.challenges.trans a.challenges, b.admissions.trans a.admissions,
    b.streams.trans a.streams⟩

theorem KeepsOutbound.refl (g : Gateway) : KeepsOutbound g g := ⟨rfl, rfl, rfl, rfl, rfl, rfl⟩

theorem KeepsOutbound.trans {f g h : Gateway} (a : KeepsOutbound f g) (b : KeepsOutbound g h) :
    KeepsOutbound f h :=
  ⟨b.setup.trans a.setup, b.negotiations.trans a.negotiations, b.routes.trans a.routes,
    b.addresses.trans a.addresses, b.attempts.trans a.attempts, b.carried.trans a.carried⟩

variable (g : Gateway)

theorem act_keepsInbound (f : World → World) : KeepsInbound g (g.act f) := ⟨rfl, rfl, rfl, rfl⟩

theorem act_keepsOutbound (f : World → World) : KeepsOutbound g (g.act f) :=
  ⟨rfl, rfl, rfl, rfl, rfl, rfl⟩

/-- A notice of a route changes the addresses and the world only. -/
theorem foldl_noticeRoute (ns : List (Notice Route Carrier)) :
    KeepsInbound g (ns.foldl noticeRoute g) ∧
      (ns.foldl noticeRoute g).routes = g.routes ∧
      (ns.foldl noticeRoute g).negotiations = g.negotiations ∧
      (ns.foldl noticeRoute g).attempts = g.attempts ∧
      (ns.foldl noticeRoute g).carried = g.carried := by
  induction ns generalizing g with
  | nil => exact ⟨.refl g, rfl, rfl, rfl, rfl⟩
  | cons n ns ih =>
    obtain ⟨hi, hr, hn, ha, hc⟩ := ih (g.noticeRoute n)
    have hk : KeepsInbound g (g.noticeRoute n) ∧ (g.noticeRoute n).routes = g.routes ∧
        (g.noticeRoute n).negotiations = g.negotiations ∧
        (g.noticeRoute n).attempts = g.attempts ∧ (g.noticeRoute n).carried = g.carried := by
      cases n with
      | registered route carrier =>
        simp only [noticeRoute]
        cases carrier.address <;> exact ⟨⟨rfl, rfl, rfl, rfl⟩, rfl, rfl, rfl, rfl⟩
      | unregistered route carrier => exact ⟨⟨rfl, rfl, rfl, rfl⟩, rfl, rfl, rfl, rfl⟩
    obtain ⟨hi₀, hr₀, hn₀, ha₀, hc₀⟩ := hk
    exact ⟨hi₀.trans hi, hr.trans hr₀, hn.trans hn₀, ha.trans ha₀, hc.trans hc₀⟩

theorem setRoutes_keepsInbound {α : Type} (change : Registry.Change Route Carrier α) :
    KeepsInbound g (g.setRoutes change) :=
  .trans (g := { g with routes := change.registry }) ⟨rfl, rfl, rfl, rfl⟩ (foldl_noticeRoute _ _).1

@[simp] theorem setRoutes_routes {α : Type} (change : Registry.Change Route Carrier α) :
    (g.setRoutes change).routes = change.registry := (foldl_noticeRoute _ _).2.1

@[simp] theorem setRoutes_negotiations {α : Type} (change : Registry.Change Route Carrier α) :
    (g.setRoutes change).negotiations = g.negotiations := (foldl_noticeRoute _ _).2.2.1

@[simp] theorem setRoutes_attempts {α : Type} (change : Registry.Change Route Carrier α) :
    (g.setRoutes change).attempts = g.attempts := (foldl_noticeRoute _ _).2.2.2.1

@[simp] theorem setRoutes_carried {α : Type} (change : Registry.Change Route Carrier α) :
    (g.setRoutes change).carried = g.carried := (foldl_noticeRoute _ _).2.2.2.2

/-- A notice of an admission changes the world only. -/
theorem foldl_noticeAdmission (ns : List (Notice Claim Carrier)) :
    KeepsOutbound g (ns.foldl noticeAdmission g) ∧ KeepsInbound g (ns.foldl noticeAdmission g) := by
  induction ns generalizing g with
  | nil => exact ⟨.refl g, .refl g⟩
  | cons n ns ih =>
    obtain ⟨ho, hi⟩ := ih (g.noticeAdmission n)
    have hk : KeepsOutbound g (g.noticeAdmission n) ∧ KeepsInbound g (g.noticeAdmission n) := by
      cases n <;> exact ⟨⟨rfl, rfl, rfl, rfl, rfl, rfl⟩, rfl, rfl, rfl, rfl⟩
    exact ⟨hk.1.trans ho, hk.2.trans hi⟩

theorem setAdmissions_keepsOutbound {α : Type} (change : Registry.Change Claim Carrier α) :
    KeepsOutbound g (g.setAdmissions change) :=
  .trans (g := { g with admissions := change.registry }) ⟨rfl, rfl, rfl, rfl, rfl, rfl⟩
    (foldl_noticeAdmission _ _).1

@[simp] theorem setAdmissions_admissions {α : Type} (change : Registry.Change Claim Carrier α) :
    (g.setAdmissions change).admissions = change.registry := (foldl_noticeAdmission _ _).2.admissions

@[simp] theorem setAdmissions_challenges {α : Type} (change : Registry.Change Claim Carrier α) :
    (g.setAdmissions change).challenges = g.challenges := (foldl_noticeAdmission _ _).2.challenges

@[simp] theorem setAdmissions_streams {α : Type} (change : Registry.Change Claim Carrier α) :
    (g.setAdmissions change).streams = g.streams := (foldl_noticeAdmission _ _).2.streams

@[simp] theorem setAdmissions_setup {α : Type} (change : Registry.Change Claim Carrier α) :
    (g.setAdmissions change).setup = g.setup := (foldl_noticeAdmission _ _).2.setup

section Calls

variable {P : CallKind → Prop} (h : P .other)
include h

theorem setRoutes_grows {α : Type} (change : Registry.Change Route Carrier α) :
    World.Grows P g.world (g.setRoutes change).world := by
  refine foldl_relation (R := fun a b : Gateway => World.Grows P a.world b.world) (fun a => .refl _)
    (fun _ _ _ => .trans) ?_ { g with routes := change.registry }
  intro a n _
  cases n with
  | registered route carrier =>
    simp only [noticeRoute]
    cases carrier.address <;> exact World.grows_emit _ h (by simp [Effect.kind])
  | unregistered route carrier =>
    exact (World.grows_emit _ h (by simp [Effect.kind])).trans
      (World.grows_emit _ h (by simp [Effect.kind]))

theorem setAdmissions_grows {α : Type} (change : Registry.Change Claim Carrier α) :
    World.Grows P g.world (g.setAdmissions change).world := by
  refine foldl_relation (R := fun a b : Gateway => World.Grows P a.world b.world) (fun a => .refl _)
    (fun _ _ _ => .trans) ?_ { g with admissions := change.registry }
  intro a n _
  cases n with
  | registered claim carrier => exact .refl _
  | unregistered claim carrier => exact World.grows_emit _ h (by simp [Effect.kind])

end Calls

/-- What is noticed of routes is not called on a link. -/
theorem setRoutes_linkless {α : Type} (change : Registry.Change Route Carrier α) :
    World.Omits (fun e => ∃ t, e.link? = some t) g.world (g.setRoutes change).world := by
  refine foldl_relation (R := fun a b : Gateway => World.Omits _ a.world b.world) (fun a => .refl _)
    (fun _ _ _ => .trans) ?_ { g with routes := change.registry }
  intro a n _
  cases n with
  | registered route carrier =>
    simp only [noticeRoute]
    cases carrier.address <;> exact .emit _ (by simp [Effect.link?])
  | unregistered route carrier =>
    exact World.Omits.trans (.emit _ (by simp [Effect.link?])) (.emit _ (by simp [Effect.link?]))

theorem setAdmissions_linkless {α : Type} (change : Registry.Change Claim Carrier α) :
    World.Omits (fun e => ∃ t, e.link? = some t) g.world (g.setAdmissions change).world := by
  refine foldl_relation (R := fun a b : Gateway => World.Omits _ a.world b.world) (fun a => .refl _)
    (fun _ _ _ => .trans) ?_ { g with admissions := change.registry }
  intro a n _
  cases n with
  | registered claim carrier => exact .refl _
  | unregistered claim carrier => exact .emit _ (by simp [Effect.link?])

theorem bounce_linkless (stanzas : List Xml.Element) (reason : BounceReason) :
    World.Omits (fun e => ∃ t, e.link? = some t) g.world
      (stanzas.foldl (fun g s => g.emit (.bounce s reason)) g).world :=
  foldl_relation (R := fun a b : Gateway => World.Omits _ a.world b.world) (fun a => .refl _) (fun _ _ _ => .trans)
    (f := fun g s => g.emit (.bounce s reason)) (fun a _ _ => .emit a.world (by simp [Effect.link?])) g

end Gateway

end Interdomain
