import Interdomain.Protocol.Dialback
import Interdomain.Protocol.Negotiation
import Interdomain.World

/-! What kinds of calls there are. The elements that the gateway writes of its own accord belong to a few
namespaces; all other elements are stanzas, which it only passes on. Of a call it matters whether it opens
a link, passes a stanza on, asks for a pair of domains to be authorized, or grants such a request. -/
namespace Interdomain

namespace Protocol

/-- The namespaces of what streams are negotiated with. -/
def namespaces : List String :=
  [Xml.Namespace.dialback, Xml.Namespace.stream, Xml.Namespace.tls, Xml.Namespace.sasl]

/-- The element is not one that streams are negotiated with. -/
def isStanza (e : Xml.Element) : Bool := e.ns ∉ namespaces

/-- The element asks for a pair of domains to be authorized. -/
def isRequest (e : Xml.Element) : Bool :=
  e.is "result" Xml.Namespace.dialback && (e.attribute? "type").isNone

/-- The element grants such a request. -/
def isGrant (e : Xml.Element) : Bool :=
  e.is "result" Xml.Namespace.dialback && e.attribute? "type" = some "valid"

end Protocol

/-- What a call is about. -/
inductive CallKind where
  | connect
  /-- A stanza is written. -/
  | stanza
  /-- A pair of domains is to be authorized. -/
  | request
  /-- A pair of domains has been authorized. -/
  | grant
  /-- A stanza, or what was taken for one, comes back to its sender. -/
  | bounce
  /-- A stanza is handed to the local router. -/
  | deliver
  | other
  deriving Repr, DecidableEq

/-- The kind of an element that is written. -/
def CallKind.ofElement (e : Xml.Element) : CallKind :=
  if Protocol.isStanza e then .stanza
  else if Protocol.isRequest e then .request
  else if Protocol.isGrant e then .grant
  else .other

def Effect.kind : Effect → CallKind
  | .connect .. => .connect
  | .send _ (.element e) => .ofElement e
  | .bounce .. => .bounce
  | .deliver _ => .deliver
  | _ => .other

namespace CallKind

open Protocol

theorem ofElement_dialback {e : Xml.Element} (h : e.ns = Xml.Namespace.dialback)
    (hn : e.name ≠ "result") : ofElement e = .other := by
  simp [ofElement, isStanza, isRequest, isGrant, namespaces, Xml.Element.is, h, hn]

theorem ofElement_verify {e : Xml.Element} (h : Dialback.isVerify e = true) :
    ofElement e = .other := by
  simp only [Dialback.isVerify, Xml.Element.is, Bool.and_eq_true, decide_eq_true_eq] at h
  exact ofElement_dialback h.2 (by rw [h.1]; decide)

@[simp] theorem ofElement_verifyReply (a b id : String) (valid : Bool) :
    ofElement (Dialback.verifyReply a b id valid) = .other :=
  ofElement_verify (by simp [Dialback.isVerify, Dialback.verifyReply, Xml.Element.is])

@[simp] theorem ofElement_result (a b key : String) :
    ofElement (Dialback.result a b key) = .request := by
  simp [ofElement, isStanza, isRequest, namespaces, Dialback.result, Xml.Element.is]

/-- A favourable answer is a grant, and any other is nothing in particular. -/
theorem ofElement_resultReply (a b : String) (valid : Bool) :
    ofElement (Dialback.resultReply a b valid) = if valid then .grant else .other := by
  cases valid <;>
    simp [ofElement, isStanza, isRequest, isGrant, namespaces, Dialback.resultReply, Dialback.verdict,
      Xml.Element.is]

theorem ofElement_ne_connect (e : Xml.Element) : ofElement e ≠ .connect := by
  unfold ofElement
  repeat' split
  all_goals simp

theorem kind_send_ne_connect (id : LinkId) (frame : Frame) : (Effect.send id frame).kind ≠ .connect := by
  cases frame with
  | element e => exact ofElement_ne_connect e
  | header header => simp [Effect.kind]
  | error error => simp [Effect.kind]
  | close => simp [Effect.kind]

theorem ofElement_ne_bounce (e : Xml.Element) : ofElement e ≠ .bounce := by
  unfold ofElement
  repeat' split
  all_goals simp

/-- An element of TLS, SASL or the stream itself. -/
theorem ofElement_negotiation {e : Xml.Element} (h : e.ns ∈ namespaces)
    (hn : e.ns ≠ Xml.Namespace.dialback) : ofElement e = .other := by
  simp [ofElement, isStanza, isRequest, isGrant, Xml.Element.is, h, hn]

@[simp] theorem ofElement_startTls : ofElement startTls = .other := by decide

@[simp] theorem ofElement_tlsProceed : ofElement tlsProceed = .other := by decide

@[simp] theorem ofElement_tlsFailure : ofElement tlsFailure = .other := by decide

@[simp] theorem ofElement_saslSuccess : ofElement saslSuccess = .other := by decide

@[simp] theorem ofElement_saslFailure (reason : String) : ofElement (saslFailure reason) = .other := by
  have h : (saslFailure reason).ns = Xml.Namespace.sasl := rfl
  exact ofElement_negotiation (by rw [h]; decide) (by rw [h]; decide)

@[simp] theorem ofElement_saslAuth (identity : String) : ofElement (saslAuth identity) = .other := by
  have h : (saslAuth identity).ns = Xml.Namespace.sasl := by simp [saslAuth, bare]
  exact ofElement_negotiation (by rw [h]; decide) (by rw [h]; decide)

@[simp] theorem ofElement_features (tls sasl : Bool) : ofElement (features tls sasl) = .other := by
  cases tls <;> cases sasl <;> decide

/-- Nothing in particular. -/
def IsPlain (k : CallKind) : Prop := k = .other

/-- What a turn of a negotiation does. -/
def IsTurn (k : CallKind) : Prop := k = .other ∨ k = .request

/-- What is done when stanzas return to their senders. -/
def IsReturn (k : CallKind) : Prop := k = .other ∨ k = .bounce

/-- What is done to get a request to the authority of a claim. -/
def IsInquiry (k : CallKind) : Prop := k = .other ∨ k = .connect

/-- A stanza is delivered. -/
def IsDelivery (k : CallKind) : Prop := k = .deliver

/-- What is done when a verify element is looked at. -/
def IsVerdict (k : CallKind) : Prop := k = .other ∨ k = .grant

/-- What is done about the stream of a peer. -/
def IsAnswer (k : CallKind) : Prop := IsVerdict k ∨ k = .deliver

/-- No request is granted. -/
def IsUngranting (k : CallKind) : Prop := k ≠ .grant

theorem isPlain : IsPlain .other := rfl

theorem IsPlain.ungranting {k : CallKind} (h : IsPlain k) : IsUngranting k := by
  rw [IsPlain] at h
  simp [h, IsUngranting]

theorem IsTurn.ungranting {k : CallKind} (h : IsTurn k) : IsUngranting k := by
  rcases h with rfl | rfl <;> simp [IsUngranting]

theorem IsReturn.ungranting {k : CallKind} (h : IsReturn k) : IsUngranting k := by
  rcases h with rfl | rfl <;> simp [IsUngranting]

theorem IsInquiry.ungranting {k : CallKind} (h : IsInquiry k) : IsUngranting k := by
  rcases h with rfl | rfl <;> simp [IsUngranting]

end CallKind

namespace World

/-- The world `w'` comes from `w` by calls whose kinds satisfy `P`. The sources stay, no token is taken
back, the clock does not go back, and every link that was opened shows in the calls, with the next number. -/
structure Grows (P : CallKind → Prop) (w w' : World) : Prop where
  sources : w'.sources = w.sources
  drawn : w.drawn ≤ w'.drawn
  now : w.now ≤ w'.now
  numbered : ∀ t r address timeout, .connect t r address timeout ∈ w'.since w →
    ∃ i, w.opened ≤ i ∧ i < w'.opened ∧ w.sources.linkId i = t
  calls : ∃ es, w'.trace = w.trace ++ es ∧ (∀ e ∈ es, P e.kind) ∧
    w'.opened = w.opened + es.countP (·.kind = .connect)

namespace Grows

variable {P Q : CallKind → Prop} {u v w : World}

/-- The calls that were made are those since the earlier moment. -/
theorem since (h : Grows P u v) : v.trace = u.trace ++ v.since u ∧ ∀ e ∈ v.since u, P e.kind := by
  obtain ⟨es, he, hp, _⟩ := h.calls
  have hs : v.since u = es := by simp [World.since, he]
  exact ⟨hs ▸ he, hs ▸ hp⟩

/-- What was done on the way to a later world was done before or after a moment in between. -/
theorem mem_since_iff (h : Grows P u v) (k : Grows Q v w) {e : Effect} :
    e ∈ w.since u ↔ e ∈ v.since u ∨ e ∈ w.since v := by
  have hw : w.since u = v.since u ++ w.since v := by
    rw [World.since, k.since.1, h.since.1, List.append_assoc, List.drop_left]
  rw [hw, List.mem_append]

theorem opened_le (h : Grows P u v) : u.opened ≤ v.opened := by
  obtain ⟨es, _, _, ho⟩ := h.calls
  omega

theorem refl (w : World) : Grows P w w :=
  ⟨rfl, Nat.le_refl _, Nat.le_refl _, by simp [World.since], [], by simp, by simp, by simp⟩

theorem trans (h : Grows P u v) (k : Grows P v w) : Grows P u w := by
  obtain ⟨es, he, hp, ho⟩ := h.calls
  obtain ⟨fs, hf, hq, hr⟩ := k.calls
  refine ⟨k.sources.trans h.sources, Nat.le_trans h.drawn k.drawn, Nat.le_trans h.now k.now, ?_, es ++ fs,
    by simp [hf, he], ?_, ?_⟩
  · intro t r address timeout hm
    rcases (h.mem_since_iff k).mp hm with hm | hm
    · obtain ⟨i, hl, hlt, ht⟩ := h.numbered t r address timeout hm
      exact ⟨i, hl, Nat.lt_of_lt_of_le hlt k.opened_le, ht⟩
    · obtain ⟨i, hl, hlt, ht⟩ := k.numbered t r address timeout hm
      exact ⟨i, Nat.le_trans h.opened_le hl, hlt, h.sources ▸ ht⟩
  · intro e hm
    rcases List.mem_append.mp hm with hm | hm
    · exact hp e hm
    · exact hq e hm
  · rw [hr, ho, List.countP_append]
    omega

theorem mono (h : Grows P u v) (hi : ∀ k, P k → Q k) : Grows Q u v := by
  obtain ⟨es, he, hp, ho⟩ := h.calls
  exact ⟨h.sources, h.drawn, h.now, h.numbered, es, he, fun e hm => hi _ (hp e hm), ho⟩

/-- Without a call that opens a link, none is opened. -/
theorem opened (h : Grows P u v) (hc : ¬ P .connect) : v.opened = u.opened := by
  obtain ⟨es, _, hp, ho⟩ := h.calls
  have hz : es.countP (·.kind = .connect) = 0 := by
    rw [List.countP_eq_zero]
    intro e hm he
    exact hc (of_decide_eq_true he ▸ hp e hm)
  omega

end Grows

variable {P : CallKind → Prop} (w : World) (id : LinkId)

/-- One call that opens no link. -/
theorem grows_call {w w' : World} {e : Effect} (hs : w'.sources = w.sources) (hd : w'.drawn = w.drawn)
    (hn : w'.now = w.now) (ht : w'.trace = w.trace ++ [e]) (ho : w'.opened = w.opened) (h : P e.kind)
    (hc : e.kind ≠ .connect) : Grows P w w' := by
  refine ⟨hs, Nat.le_of_eq hd.symm, Nat.le_of_eq hn.symm, fun t r address timeout hm => ?_, [e], ht,
    by simpa using h, by simp [ho, hc]⟩
  rw [since, ht, List.drop_left, List.mem_singleton] at hm
  exact absurd (congrArg Effect.kind hm).symm hc

theorem grows_emit {e : Effect} (h : P e.kind) (hc : e.kind ≠ .connect) : Grows P w (w.emit e) :=
  grows_call rfl rfl rfl rfl rfl h hc

/-- Without a call nothing grows. -/
theorem grows_of_trace {w w' : World} (hs : w'.sources = w.sources) (hd : w'.drawn = w.drawn)
    (hn : w.now ≤ w'.now) (ht : w'.trace = w.trace) (ho : w'.opened = w.opened) : Grows P w w' :=
  ⟨hs, Nat.le_of_eq hd.symm, hn, by simp [since, ht], [], by simp [ht], by simp, by simp [ho]⟩

theorem grows_sendElement {e : Xml.Element} (h : P (.ofElement e)) : Grows P w (w.sendElement id e) := by
  exact w.grows_emit h (CallKind.kind_send_ne_connect id _)

theorem mem_since_sendElement {w₀ w : World} (h : Grows P w₀ w) (id : LinkId) (e : Xml.Element) :
    .send id (.element e) ∈ (w.sendElement id e).since w₀ := by
  obtain ⟨es, hs, _⟩ := h.calls
  simp [World.since, sendElement, send, hs]

theorem grows_sendElements {es : List Xml.Element} (h : ∀ e ∈ es, P (.ofElement e)) :
    Grows P w (w.sendElements id es) := by
  induction es generalizing w with
  | nil => exact .refl w
  | cons e es ih =>
    exact (w.grows_sendElement id (h e (by simp))).trans
      (ih (w.sendElement id e) fun x hx => h x (by simp [hx]))

theorem grows_draw : Grows P w w.draw.1 :=
  ⟨rfl, Nat.le_succ _, Nat.le_refl _, by simp [since, draw], [], by simp [draw], by simp, by simp [draw]⟩

theorem grows_connect (route : Route) (address : Candidate) (timeout : Nat) (h : P .connect) :
    Grows P w (w.connect route address timeout).1 := by
  refine ⟨rfl, Nat.le_refl _, Nat.le_refl _, fun t r _ _ hm => ⟨w.opened, Nat.le_refl _, Nat.lt_succ_self _, ?_⟩,
    [_], rfl, by simpa [Effect.kind] using h, by simp [connect, emit, Effect.kind]⟩
  simp only [since, connect, emit, List.drop_left, List.mem_singleton, Effect.connect.injEq] at hm
  exact hm.1.symm

variable (h : P .other)
include h

theorem grows_header (header : Stream.Header) : Grows P w (w.send id (.header header)) :=
  w.grows_emit h (CallKind.kind_send_ne_connect id _)

theorem grows_close : Grows P w (w.close id) := w.grows_emit h (by simp [Effect.kind])

theorem grows_fail (error : Stream.Error) : Grows P w (w.fail id error) :=
  (w.grows_emit h (CallKind.kind_send_ne_connect id _)).trans (grows_close _ id h)

theorem grows_finish : Grows P w (w.finish id) :=
  (w.grows_emit h (CallKind.kind_send_ne_connect id _)).trans (grows_close _ id h)

theorem grows_reset : Grows P w (w.reset id) := w.grows_emit h (by simp [Effect.kind])

theorem grows_startTls (role : TlsRole) (domain : String) : Grows P w (w.startTls id role domain) :=
  grows_call rfl rfl rfl rfl rfl h (by simp [Effect.kind])

omit h

/-- On the way to a later world there is no such call. -/
def Omits (P : Effect → Prop) (u v : World) : Prop := ∃ es, v.trace = u.trace ++ es ∧ ∀ e ∈ es, ¬ P e

namespace Omits

variable {P Q : Effect → Prop} {u v w : World} {id : LinkId}

theorem of_trace (h : v.trace = u.trace) : Omits P u v := ⟨[], by simp [h], by simp⟩

theorem refl (w : World) : Omits P w w := .of_trace rfl

theorem trans (h : Omits P u v) (k : Omits P v w) : Omits P u w := by
  obtain ⟨es, he, hp⟩ := h
  obtain ⟨fs, hf, hq⟩ := k
  refine ⟨es ++ fs, by simp [hf, he], fun e hm => ?_⟩
  rcases List.mem_append.mp hm with hm | hm
  · exact hp e hm
  · exact hq e hm

theorem mono (h : Omits P u v) (hi : ∀ e, Q e → P e) : Omits Q u v := by
  obtain ⟨es, he, hp⟩ := h
  exact ⟨es, he, fun e hm hq => hp e hm (hi e hq)⟩

theorem not_mem (h : Omits P u v) {e : Effect} (he : P e) : e ∉ v.since u := by
  obtain ⟨es, hs, hp⟩ := h
  rw [since, hs, List.drop_left]
  exact fun hm => hp e hm he

variable (w)

theorem emit {e : Effect} (h : ¬ P e) : Omits P w (w.emit e) := ⟨[e], rfl, by simpa using h⟩

theorem startTls {role : TlsRole} {domain : String}
    (h : ¬ P (.startTls id role domain (w.link id).tlsStarts)) : Omits P w (w.startTls id role domain) :=
  ⟨[_], rfl, by simpa using h⟩

theorem connect {route : Route} {address : Candidate} {timeout : Nat}
    (h : ¬ P (.connect (w.sources.linkId w.opened) route address timeout)) :
    Omits P w (w.connect route address timeout).1 := ⟨[_], rfl, by simpa using h⟩

theorem sendElements {es : List Xml.Element} (h : ∀ e ∈ es, ¬ P (.send id (.element e))) :
    Omits P w (w.sendElements id es) := by
  induction es generalizing w with
  | nil => exact .refl w
  | cons e es ih =>
    exact (emit w (h e (by simp))).trans (ih (w.sendElement id e) fun x hx => h x (by simp [hx]))

variable (hs : ∀ frame, ¬ P (.send id frame)) (hc : ¬ P (.close id))
include hs hc

theorem fail (error : Stream.Error) : Omits P w (w.fail id error) := (emit w (hs _)).trans (emit _ hc)

theorem finish : Omits P w (w.finish id) := (emit w (hs _)).trans (emit _ hc)

end Omits

end World

end Interdomain
