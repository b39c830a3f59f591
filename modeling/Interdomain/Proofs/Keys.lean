import Interdomain.Proofs.Authorization
import Interdomain.Proofs.Messages
import Interdomain.Proofs.Overtures

/-! What a dialback key vouches for. Domains contain no spaces, so the text that is signed tells the two domains and
the challenge apart, whatever the challenge; and a server that is asked about a key accepts the one that a server
with the same secret writes for this pair of domains on a stream with this id. -/
namespace Interdomain

open Protocol (Dialback)

/-- The domain is part of an address that was read. -/
def Jid.IsRead (d : String) : Prop := ∃ s j, parse s = .ok j ∧ j.domain = d

namespace Jid

variable {d : String}

theorem IsRead.isNormal (h : IsRead d) : IsNormal d := by
  obtain ⟨s, j, hj, rfl⟩ := h
  exact isNormal_of_ofChars? (parse_eq_ok.mp hj)

theorem IsNormal.no_space (h : IsNormal d) : ' ' ∉ d.toList := by
  intro hm
  have blank := (h.chars.2.2.1 _ hm).1
  cases blank

end Jid

/-- Two texts are different and have the same digest. -/
def Signer.Collides (s : Signer) (a b : String) : Prop := a ≠ b ∧ s.digest a = s.digest b

theorem Text.append_sep_inj {sep : Char} {a b c d : List Char} (ha : sep ∉ a) (hc : sep ∉ c)
    (h : a ++ sep :: b = c ++ sep :: d) : a = c ∧ b = d := by
  have left : splitFirst sep (a ++ sep :: b) = some (a, b) := splitFirst_eq_some.mpr ⟨rfl, ha⟩
  have right : splitFirst sep (c ++ sep :: d) = some (c, d) := splitFirst_eq_some.mpr ⟨rfl, hc⟩
  rw [h, right] at left
  cases left
  exact ⟨rfl, rfl⟩

namespace Signer

theorem toList_keyText (destination source challenge : String) :
    (keyText destination source challenge).toList =
      destination.toList ++ ' ' :: (source.toList ++ ' ' :: challenge.toList) := by
  simp [keyText]

/-- The signed text determines the domains and the challenge. -/
theorem keyText_inj {d s c d' s' c' : String} (hd : Jid.IsNormal d) (hs : Jid.IsNormal s) (hd' : Jid.IsNormal d')
    (hs' : Jid.IsNormal s') (h : keyText d s c = keyText d' s' c') : d = d' ∧ s = s' ∧ c = c' := by
  have chars := congrArg String.toList h
  rw [toList_keyText, toList_keyText] at chars
  obtain ⟨first, rest⟩ := Text.append_sep_inj hd.no_space hd'.no_space chars
  obtain ⟨second, third⟩ := Text.append_sep_inj hs.no_space hs'.no_space rest
  exact ⟨String.toList_inj.mp first, String.toList_inj.mp second, String.toList_inj.mp third⟩

/-- The text of the loop token is not the text of a key. -/
theorem keyText_ne_loopText (d s c : String) : keyText d s c ≠ loopText := by
  intro h
  have space : ' ' ∈ loopText.toList := by
    rw [← h, toList_keyText]
    simp
  exact absurd space (by decide)

end Signer

/-- The last header on a link has one id. -/
theorem LastHeader.unique {h : List Moment} {t : LinkId} {id id' : String} {x x' : Nat} (hl : LastHeader h t id x)
    (hl' : LastHeader h t id' x') : id = id' := by
  obtain ⟨m, hm, ⟨header, brings, named⟩, -⟩ := hl.1
  obtain ⟨m', hm', ⟨header', brings', named'⟩, -⟩ := hl'.1
  obtain hlt | rfl | hgt := Nat.lt_trichotomy x x'
  · exact absurd hl'.1 (hl.2 x' id' hlt)
  · rw [hm] at hm'
    cases hm'
    rw [brings] at brings'
    cases brings'
    exact Option.some.inj (named.symm.trans named')
  · exact absurd hl.1 (hl'.2 x id hgt)

/-- The operation writes a request for the route on the link of its negotiation. -/
def Moment.Asks (m : Moment) (r : Route) (t : LinkId) (request : Xml.Element) : Prop :=
  (∃ n, m.next.negotiations.get? r = some n ∧ n.link = t) ∧ m.WritesRequest t request

namespace Gateway

variable {g g' : Gateway} {op : Operation} {t : LinkId}

/-- The request carries the key for the route and the id that the last header on the link gave the stream. -/
theorem request_of_asks (ho : g.Orderly) (hi : g.Indexed) {h : List Moment} (traced : Traced h (g.step op))
    {r : Route} {id : String} {x : Nat} (last : LastHeader h t id x) {request : Xml.Element}
    (asks : (⟨g, op⟩ : Moment).Asks r t request) : request = g.setup.requestFor r id := by
  obtain ⟨⟨k, hk, rfl⟩, written⟩ := asks
  have hw : (g.step op).world.requests k.link = g.world.requests k.link ++ [request] := written
  cases (step_proceeds ho hi op).negotiation r k hk with
  | goesOn _ keeps =>
    rw [keeps.link] at hw
    rcases keeps.request with ⟨same, _⟩ | ⟨_, _, _, id', hid, new⟩
    · rw [same] at hw
      simp at hw
    · obtain ⟨o, trail⟩ := traced r k hk
      obtain ⟨x', -, last'⟩ := trail.streamId id' hid
      rw [new, ← last.unique last'] at hw
      simpa using hw.symm
  | begins _ _ _ _ none =>
    rw [none] at hw
    simp at hw

/-- What is noted of an element that is heard is on the link that brought it. -/
theorem Hears.on_link {e : Xml.Element} (h : g.Hears e op) (notes : g.Notes op t g') (hi : g.Indexed) :
    op = .inbound t (.element e) ∨ op = .outbound t (.element e) := by
  cases notes with
  | peer =>
    cases h
    exact .inl rfl
  | @negotiation u r n _ attempt found =>
    have link : n.link = u := by
      obtain ⟨m, hm, hl⟩ := (hi.attempts u r).mp attempt
      rw [found] at hm
      cases hm
      exact hl
    subst link
    cases h <;> exact .inr rfl
  | route _ _ => cases h <;> exact .inr rfl

/-- A verify request that is heard gets one answer, and nothing else is done. -/
theorem answer_of_hears {e : Xml.Element} {asker asked id : String} (h : g.Hears e op)
    (between : Dialback.Between e asked asker) (identified : e.attribute? "id" = some id)
    (request : e.attribute? "type" = none) :
    ∃ t answer, (⟨g, op⟩ : Moment).calls = [.send t (.element answer)] ∧
      (g.Indexed → op = .inbound t (.element e) ∨ op = .outbound t (.element e)) ∧
      Dialback.Directed answer "verify" asker asked ∧ answer.attribute? "id" = some id ∧
      answer.attribute? "type" =
        some (if Text.trim e.text = g.setup.signer.key asker asked id then "valid" else "invalid") := by
  obtain ⟨t, g₁, notes, heq⟩ := h.step_eq
  obtain ⟨m, hm⟩ : ∃ m : Dialback, m = ⟨asked, asker, some id, none, Text.trim e.text⟩ := ⟨_, rfl⟩
  have read : Dialback.ofElement e = .ok m :=
    Dialback.ofElement_eq_ok.mpr (hm ▸ ⟨between, identified.symm, request.symm, rfl⟩)
  have knows : g₁.knowsKey m id = decide (Text.trim e.text = g.setup.signer.key asker asked id) := by
    simp [hm, knowsKey, notes.keepsInbound.setup, eq_comm]
  refine ⟨t, Dialback.verifyReply asker asked id (g₁.knowsKey m id), ?_, h.on_link notes,
    Dialback.verifyReply_directed _ _ _ _, by simp [Dialback.verifyReply], ?_⟩
  · simp [Moment.calls, Moment.next, heq, onVerify, read, hm, Dialback.isReply, act, World.since, World.sendElement,
      World.send, World.trace_emit, notes.world]
  · simp [Dialback.verifyReply, Dialback.verdict, knows]

/-- The text that is signed for a key tells the domains and the challenge. A verify request that is heard has one
answer, favourable exactly for the key that a server with the same signer writes for these domains and this id. -/
theorem key_vouches_for_one_triple :
    (∀ d s c d' s' c', Jid.IsRead d → Jid.IsRead s → Jid.IsRead d' → Jid.IsRead s' →
      Signer.keyText d s c = Signer.keyText d' s' c' → d = d' ∧ s = s' ∧ c = c') ∧
    (∀ d s c, Signer.keyText d s c ≠ Signer.loopText) ∧
    ∀ (setup : Setup) (world : World) (ops : List Operation) (op : Operation) (e : Xml.Element)
      (asker asked id : String), ((initial setup world).run ops).Hears e op → Dialback.Between e asked asker →
      e.attribute? "id" = some id → e.attribute? "type" = none →
      ∃ t answer, (⟨(initial setup world).run ops, op⟩ : Moment).calls = [.send t (.element answer)] ∧
        (Function.Injective world.sources.linkId →
          op = .inbound t (.element e) ∨ op = .outbound t (.element e)) ∧
        Dialback.Directed answer "verify" asker asked ∧ answer.attribute? "id" = some id ∧
        answer.attribute? "type" =
          some (if Text.trim e.text = setup.signer.key asker asked id then "valid" else "invalid") ∧
        (∀ (server : Setup) (surroundings : World) (past : List Operation) (now : Operation) (u : LinkId) (x : Nat)
          (request : Xml.Element), server.signer = setup.signer →
          Function.Injective surroundings.sources.linkId →
          (⟨(initial server surroundings).run past, now⟩ : Moment).Asks ⟨asker, asked⟩ u request →
          LastHeader ((initial server surroundings).history (past ++ [now])) u id x →
          Dialback.Shows request asker asked (setup.signer.key asker asked id) ∧
            (answer.attribute? "type" = some "valid" ↔ Text.trim e.text = request.text)) ∧
        (∀ d s c, Jid.IsRead d → Jid.IsRead s → (d, s, c) ≠ (asker, asked, id) →
          Text.trim e.text = setup.signer.key d s c → answer.attribute? "type" = some "valid" →
          setup.signer.Collides (Signer.keyText d s c) (Signer.keyText asker asked id)) ∧
        (Text.trim e.text = setup.signer.loopToken → answer.attribute? "type" = some "valid" →
          setup.signer.Collides Signer.loopText (Signer.keyText asker asked id)) := by
  refine ⟨fun d s c d' s' c' hd hs hd' hs' => Signer.keyText_inj hd.isNormal hs.isNormal hd'.isNormal hs'.isNormal,
    Signer.keyText_ne_loopText, ?_⟩
  intro setup world ops op e asker asked id hears between identified kind
  obtain ⟨t, answer, calls, link, directed, named, type⟩ := answer_of_hears hears between identified kind
  rw [run_setup] at type
  have valid : answer.attribute? "type" = some "valid" ↔ Text.trim e.text = setup.signer.key asker asked id := by
    rw [type]
    split <;> simp [*]
  refine ⟨t, answer, calls, fun links => link (run_traced setup world links ops).2.1, directed, named, type, ?_, ?_, ?_⟩
  · intro server surroundings past now u x request same links asks last
    obtain ⟨ho, hi, hsetup, _⟩ := run_traced server surroundings links past
    have traced := (run_traced server surroundings links (past ++ [now])).2.2.2
    rw [run_concat] at traced
    have shows := Dialback.result_shows asker asked (setup.signer.key asker asked id)
    rw [request_of_asks ho hi traced last asks, hsetup, Setup.requestFor, same]
    exact ⟨shows, by rw [valid, shows.key]⟩
  · intro d s c hd hs other key accepted
    refine ⟨fun same => other ?_, ?_⟩
    · obtain ⟨rfl, rfl, rfl⟩ := Signer.keyText_inj hd.isNormal hs.isNormal between.isNormal.2 between.isNormal.1 same
      rfl
    · exact key.symm.trans (valid.mp accepted)
  · intro token accepted
    exact ⟨fun same => Signer.keyText_ne_loopText _ _ _ same.symm, token.symm.trans (valid.mp accepted)⟩

/-- The key that a server writes at the end of a handshake is accepted by the server that is asked about it. -/
theorem key_of_handshake_accepted :
    let r : Route := ⟨"b.example", "a.example"⟩
    let e := Dialback.verify "a.example" "b.example" "two" " b.example a.example two "
    let g := sample.run [.inbound 1 (.header (sampleHeader "b.example"))]
    let last : Moment := ⟨sample.run handshake.dropLast, .outbound 100 (.element (Protocol.features false false))⟩
    g.Hears e (.inbound 1 (.element e)) ∧ last.Asks r 100 (sample.setup.requestFor r "two") ∧
      LastHeader (sample.history handshake) 100 "two" 5 ∧
      (sample.setup.requestFor r "two").text = "b.example a.example two" ∧
      ∃ answer, (⟨g, .inbound 1 (.element e)⟩ : Moment).calls = [.send 1 (.element answer)] ∧
        Dialback.Directed answer "verify" "b.example" "a.example" ∧ answer.attribute? "id" = some "two" ∧
        answer.attribute? "type" = some "valid" := by
  intro r e g last
  obtain ⟨s, session⟩ : ∃ s, g.sessionOn 1 = some s := by
    apply Option.isSome_iff_exists.mp
    decide +kernel
  have hears : g.Hears e (.inbound 1 (.element e)) := .peer (by decide) session
  have between : Dialback.Between e "a.example" "b.example" :=
    ⟨⟨_, rfl, by decide +kernel⟩, _, rfl, by decide +kernel⟩
  have asks : last.Asks r 100 (sample.setup.requestFor r "two") := by
    have found : (last.next.negotiations.get? r).map (·.link) = some 100 := by decide +kernel
    refine ⟨Option.map_eq_some_iff.mp found, ?_⟩
    change _ = _
    decide +kernel
  have header : LastHeader (sample.history handshake) 100 "two" 5 := by
    refine ⟨⟨⟨sample.run (handshake.take 5), _⟩, rfl, ⟨_, rfl, rfl⟩, by decide, by decide +kernel, r, ?_⟩, ?_⟩
    · decide +kernel
    · rintro k other later ⟨m, hm, ⟨header, brings, _⟩, _⟩
      have bound := (List.getElem?_eq_some_iff.mp hm).1
      have count : (sample.history handshake).length = 7 := rfl
      obtain rfl : k = 6 := by omega
      cases hm
      cases brings
  have text : (sample.setup.requestFor r "two").text = "b.example a.example two" := by decide +kernel
  obtain ⟨t, answer, calls, link, directed, identified, -, requests, -⟩ :=
    key_vouches_for_one_triple.2.2 sample.setup sample.world _ _ e _ _ "two" hears between rfl rfl
  have accepted : answer.attribute? "type" = some "valid" := by
    refine (requests sample.setup sample.world _ _ _ _ _ rfl sample_linkId_injective asks header).2.mpr ?_
    rw [text]
    decide +kernel
  obtain rfl : t = 1 := by
    rcases link sample_linkId_injective with same | same <;> cases same
    rfl
  exact ⟨hears, asks, header, text, answer, calls, directed, identified, accepted⟩

end Gateway

end Interdomain
