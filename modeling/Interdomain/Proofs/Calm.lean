import Interdomain.Proofs.Frame

/-! Which calls answer claims. A claim is answered by a result with a type, written on the link on which it was
made. Most of what the gateway does answers none; and what it does for a negotiation it does on one link, so
that it answers none on any other. -/
namespace Interdomain

open Protocol (Dialback)

/-- The call answers a claim on the link. -/
def Effect.Replies (t : LinkId) : Effect → Prop
  | .send u (.element e) => u = t ∧ ∃ a b valid, e = Dialback.resultReply a b valid
  | _ => False

theorem Effect.Replies.on {t : LinkId} {e : Effect} (h : e.Replies t) : e.link? = some t := by
  cases e with
  | send link frame =>
    cases frame with
    | element x => exact congrArg some h.1
    | _ => exact h.elim
  | _ => exact h.elim

/-- An answer to a claim is a result. -/
theorem Effect.not_replies {t u : LinkId} {e : Xml.Element} (h : e.is "result" Xml.Namespace.dialback = false) :
    ¬ (Effect.send u (.element e)).Replies t := by
  rintro ⟨_, a, b, valid, rfl⟩
  simp [Dialback.resultReply, Xml.Element.is] at h

namespace World

variable {t : LinkId} {u v w : World}

/-- On the way to a later world no claim is answered on the link. -/
def Calm (t : LinkId) (u v : World) : Prop := Omits (Effect.Replies t) u v

namespace Calm

theorem refl (w : World) : Calm t w w := Omits.refl w

theorem trans (h : Calm t u v) (k : Calm t v w) : Calm t u w := Omits.trans h k

theorem of_trace (h : v.trace = u.trace) : Calm t u v := Omits.of_trace h

/-- A stanza that is delivered answers no claim. -/
theorem of_deliveries (h : Grows CallKind.IsDelivery u v) : Calm t u v := by
  obtain ⟨es, he, hp, _⟩ := h.calls
  refine ⟨es, he, fun e hm hr => ?_⟩
  cases e with
  | send id frame =>
    cases frame with
    | element x =>
      obtain ⟨_, a, b, valid, rfl⟩ := hr
      have hk := hp _ hm
      rw [CallKind.IsDelivery, Effect.kind, CallKind.ofElement_resultReply] at hk
      cases valid <;> cases hk
    | _ => exact hr
  | _ => exact hr

end Calm

variable (w : World)

theorem calm_emit {e : Effect} (h : ¬ e.Replies t) : Calm t w (w.emit e) := Omits.emit w h

theorem calm_sendElement (id : LinkId) {e : Xml.Element} (h : e.is "result" Xml.Namespace.dialback = false) :
    Calm t w (w.sendElement id e) := w.calm_emit (Effect.not_replies h)

theorem calm_sendElement_of_ne {id : LinkId} (h : id ≠ t) (e : Xml.Element) : Calm t w (w.sendElement id e) :=
  w.calm_emit fun hr => h hr.1

theorem calm_sendElements_of_ne {id : LinkId} (h : id ≠ t) (es : List Xml.Element) :
    Calm t w (w.sendElements id es) := Omits.sendElements w fun _ _ hr => h hr.1

theorem calm_header (id : LinkId) (header : Stream.Header) : Calm t w (w.send id (.header header)) :=
  w.calm_emit fun h => h

theorem calm_close (id : LinkId) : Calm t w (w.close id) := w.calm_emit fun h => h

theorem calm_fail (id : LinkId) (error : Stream.Error) : Calm t w (w.fail id error) :=
  (w.calm_emit (e := .send id (.error error)) fun h => h).trans (calm_close _ id)

theorem calm_finish (id : LinkId) : Calm t w (w.finish id) :=
  (calm_emit w (e := .send id .close) fun h => h).trans (calm_close _ id)

theorem calm_reset (id : LinkId) : Calm t w (w.reset id) := w.calm_emit fun h => h

theorem calm_startTls (id : LinkId) (role : TlsRole) (domain : String) : Calm t w (w.startTls id role domain) :=
  Omits.startTls w fun h => h

theorem calm_connect (route : Route) (address : Candidate) (timeout : Nat) :
    Calm t w (w.connect route address timeout).1 := Omits.connect w fun h => h

/-- Calls of certain kinds, and none that is not on the link. -/
structure Speaks (P : CallKind → Prop) (id : LinkId) (u v : World) : Prop where
  grows : Grows P u v
  only : Omits (fun e => e.link? ≠ some id) u v

namespace Speaks

variable {P Q : CallKind → Prop} {id : LinkId}

/-- No claim is answered on any other link. -/
theorem calm (h : Speaks P id u v) (t : LinkId) (ht : id ≠ t) : Calm t u v := by
  refine h.only.mono fun e hr => ?_
  rw [hr.on]
  simpa using ht.symm

theorem refl (w : World) : Speaks P id w w := ⟨.refl w, .refl w⟩

theorem trans {x : World} (h : Speaks P id u v) (k : Speaks P id v x) : Speaks P id u x :=
  ⟨h.grows.trans k.grows, h.only.trans k.only⟩

theorem mono (h : Speaks P id u v) (hi : ∀ k, P k → Q k) : Speaks Q id u v := ⟨h.grows.mono hi, h.only⟩

theorem sendElement {e : Xml.Element} (h : P (.ofElement e)) : Speaks P id w (w.sendElement id e) :=
  ⟨w.grows_sendElement id h, .emit w (by simp [Effect.link?])⟩

theorem sendElements {es : List Xml.Element} (h : ∀ e ∈ es, P (.ofElement e)) :
    Speaks P id w (w.sendElements id es) :=
  ⟨w.grows_sendElements id h, .sendElements w fun _ _ => by simp [Effect.link?]⟩

theorem header (h : P .other) (header : Stream.Header) : Speaks P id w (w.send id (.header header)) :=
  ⟨w.grows_header id h header, .emit w (by simp [Effect.link?])⟩

theorem close (h : P .other) : Speaks P id w (w.close id) :=
  ⟨w.grows_close id h, .emit w (by simp [Effect.link?])⟩

theorem fail (h : P .other) (error : Stream.Error) : Speaks P id w (w.fail id error) :=
  ⟨w.grows_fail id h error, .fail w (by simp [Effect.link?]) (by simp [Effect.link?]) error⟩

theorem finish (h : P .other) : Speaks P id w (w.finish id) :=
  ⟨w.grows_finish id h, .finish w (by simp [Effect.link?]) (by simp [Effect.link?])⟩

theorem reset (h : P .other) : Speaks P id w (w.reset id) :=
  ⟨w.grows_reset id h, .emit w (by simp [Effect.link?])⟩

theorem startTls (h : P .other) (role : TlsRole) (domain : String) : Speaks P id w (w.startTls id role domain) :=
  ⟨w.grows_startTls id h role domain, .startTls w (by simp [Effect.link?])⟩

end Speaks

end World

namespace Gateway

variable {t : LinkId} (g : Gateway)

theorem setRoutes_calm {α : Type} (change : Registry.Change Route Carrier α) :
    World.Calm t g.world (g.setRoutes change).world :=
  (g.setRoutes_linkless change).mono fun _ h => ⟨t, h.on⟩

theorem setAdmissions_calm {α : Type} (change : Registry.Change Claim Carrier α) :
    World.Calm t g.world (g.setAdmissions change).world :=
  (g.setAdmissions_linkless change).mono fun _ h => ⟨t, h.on⟩

end Gateway

end Interdomain
