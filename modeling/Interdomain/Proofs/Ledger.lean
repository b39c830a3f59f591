import Interdomain.Proofs.Fading

/-! Where stanzas are. A stanza that has been submitted was written on a link, has returned to its sender, or
waits on a negotiation; the tally of a stanza counts how often it is in each of these places. -/
namespace Interdomain

open Protocol (Dialback)

namespace Table

variable {κ ν : Type} [DecidableEq κ] (f : ν → Nat) (t : Table κ ν) (k : κ) (v : ν)

/-- The sum of a number over the values. -/
def total {κ ν : Type} (f : ν → Nat) (t : Table κ ν) : Nat := t.values.foldr (fun v n => f v + n) 0

theorem total_erase : (t.erase k).total f + ((t.get? k).map f).getD 0 = t.total f := by
  obtain ⟨es, h⟩ := t
  simp only [total, values, erase, filter, get?]
  induction es with
  | nil => rfl
  | cons e es ih =>
    obtain ⟨hd, ht⟩ := List.pairwise_cons.mp h
    have ih := ih ht
    by_cases he : e.1 = k
    · have hn : es.filter (fun x => decide (x.1 ≠ k)) = es := by
        rw [List.filter_eq_self]
        intro x hx
        simpa [he] using Ne.symm (hd x hx)
      rw [List.filter_cons_of_neg (by simp [he]), List.find?_cons_of_pos (by simp [he]), hn]
      simp [Nat.add_comm]
    · rw [List.filter_cons_of_pos (by simp [he]), List.find?_cons_of_neg (by simp [he])]
      simp only [List.map_cons, List.foldr_cons]
      omega

theorem foldr_total (es : List ν) (n : Nat) :
    es.foldr (fun v m => f v + m) n = es.foldr (fun v m => f v + m) 0 + n := by
  induction es with
  | nil => simp
  | cons e es ih =>
    simp only [List.foldr_cons, ih]
    omega

theorem total_insert :
    (t.insert k v).total f + ((t.get? k).map f).getD 0 = t.total f + f v := by
  have he := t.total_erase f k
  have hi : (t.insert k v).total f = (t.erase k).total f + f v := by
    simp only [total, values, insert, List.map_append, List.foldr_append]
    exact foldr_total f _ (f v)
  omega

end Table

/-- The element that a call writes. -/
def Effect.written? : Effect → Option Xml.Element
  | .send _ (.element e) => some e
  | _ => none

/-- The stanza that a call returns to its sender. -/
def Effect.returned? : Effect → Option Xml.Element
  | .bounce e _ => some e
  | _ => none

/-- A stanza that was written is among the calls as one. -/
theorem Effect.kind_of_written? {c : Effect} {e : Xml.Element} (hw : c.written? = some e)
    (hs : Protocol.isStanza e = true) : c.kind = .stanza := by
  cases c with
  | send link frame =>
    cases frame with
    | element x =>
      have hx : x = e := by simpa [written?] using hw
      simp [kind, CallKind.ofElement, hx, hs]
    | _ => simp [written?] at hw
  | _ => simp [written?] at hw

namespace World

/-- How often an element was written. -/
def written (w : World) (e : Xml.Element) : Nat := w.trace.countP (·.written? = some e)

/-- How often a stanza has returned to its sender. -/
def returned (w : World) (e : Xml.Element) : Nat := w.trace.countP (·.returned? = some e)

variable {P : CallKind → Prop} {w w' : World} {e : Xml.Element}

theorem Grows.written_eq (h : Grows P w w') (hp : ¬ P .stanza) (he : Protocol.isStanza e = true) :
    w'.written e = w.written e := by
  obtain ⟨hs, hk⟩ := h.since
  have hz : (w'.since w).countP (·.written? = some e) = 0 := by
    rw [List.countP_eq_zero]
    intro c hc hw
    exact hp (Effect.kind_of_written? (by simpa using hw) he ▸ hk c hc)
  rw [written, hs, List.countP_append, hz]
  rfl

theorem Grows.returned_eq (h : Grows P w w') (hp : ¬ P .bounce) : w'.returned e = w.returned e := by
  obtain ⟨hs, hk⟩ := h.since
  have hz : (w'.since w).countP (·.returned? = some e) = 0 := by
    rw [List.countP_eq_zero]
    intro c hc hr
    have hkind : c.kind = .bounce := by
      cases c with
      | bounce x reason => rfl
      | _ => simp [Effect.returned?] at hr
    exact hp (hkind ▸ hk c hc)
  rw [returned, hs, List.countP_append, hz]
  rfl

theorem written_sendElement (w : World) (link : LinkId) (x e : Xml.Element) :
    (w.sendElement link x).written e = w.written e + if x = e then 1 else 0 := by
  simp [written, sendElement, send, Effect.written?]

theorem written_sendElements (w : World) (link : LinkId) (xs : List Xml.Element) (e : Xml.Element) :
    (w.sendElements link xs).written e = w.written e + xs.count e := by
  induction xs generalizing w with
  | nil => rfl
  | cons x xs ih =>
    have h := ih (w.sendElement link x)
    rw [written_sendElement] at h
    rw [List.count_cons]
    simp only [sendElements, List.foldl_cons, beq_iff_eq] at h ⊢
    omega

theorem returned_sendElements (w : World) (link : LinkId) (xs : List Xml.Element) (e : Xml.Element) :
    (w.sendElements link xs).returned e = w.returned e :=
  (w.grows_sendElements link (P := (· ≠ .bounce)) fun x _ => CallKind.ofElement_ne_bounce x).returned_eq
    (by simp)

end World

/-- How often a stanza is in each of its places. -/
structure Tally where
  written : Nat
  returned : Nat
  waiting : Nat
  deriving Repr, DecidableEq

namespace Tally

def total (t : Tally) : Nat := t.written + t.returned + t.waiting

/-- The stanza goes where its delivery says. -/
def put (t : Tally) : Delivery → Tally
  | .sent => { t with written := t.written + 1 }
  | .queued => { t with waiting := t.waiting + 1 }
  | .bounced => { t with returned := t.returned + 1 }
  | .verifySent | .verifyQueued | .verifyFailed => t

end Tally

namespace Gateway

/-- How often a stanza waits on the negotiations. -/
def waiting (g : Gateway) (e : Xml.Element) : Nat := g.negotiations.total fun n => n.stanzas.count e

def tally (g : Gateway) (e : Xml.Element) : Tally := ⟨g.world.written e, g.world.returned e, g.waiting e⟩

end Gateway

end Interdomain
