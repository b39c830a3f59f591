import Interdomain.Proofs.Courses

/-! The requests of negotiations. A stanza that waits has a request that is wanted or has been sent; on the link of
a negotiation there is the one request that has been sent, or none; and if headers come first, a stream that is
ready has sent the request that a stanza waits for. -/
namespace Interdomain

open Protocol (Dialback)

/-- On every link that is tried, a header is accepted before any element comes. -/
def HeaderFirst (h : List Moment) : Prop :=
  ∀ i t, Happens h i (fun m => (∃ e, m.operation = .outbound t (.element e)) ∧
      ∃ r, m.gateway.attempts.get? t = some r) →
    ∃ j id, j < i ∧ Happens h j (·.AcceptsPeer t id)

theorem HeaderFirst.of_concat {h : List Moment} {m : Moment} (hf : HeaderFirst (h ++ [m])) : HeaderFirst h := by
  intro i t hi
  obtain ⟨j, id, hlt, hj⟩ := hf i t hi.append
  refine ⟨j, id, hlt, (Happens.concat_iff.mp hj).resolve_right fun ⟨last, _⟩ => ?_⟩
  have before := hi.lt_length
  omega

/-- Before the element that comes last, a header was accepted on its link. -/
theorem HeaderFirst.of_element {h : List Moment} {m : Moment} (hf : HeaderFirst (h ++ [m])) {t : LinkId}
    {e : Xml.Element} {r : Route} (operation : m.operation = .outbound t (.element e))
    (attempt : m.gateway.attempts.get? t = some r) : ∃ j id, Happens h j (·.AcceptsPeer t id) := by
  obtain ⟨j, id, hlt, hj⟩ := hf h.length t (.last ⟨⟨e, operation⟩, r, attempt⟩)
  exact ⟨j, id, (Happens.concat_iff.mp hj).resolve_right fun ⟨last, _⟩ => by omega⟩

namespace Negotiation

variable {n k : Negotiation}

/-- If a stanza waits, a request is wanted or has been sent. -/
def Seeks (n : Negotiation) : Prop := n.queue ≠ [] → n.request = .wantRequest ∨ n.request = .sentRequest

theorem request_want (n : Negotiation) (setup : Setup) (w : World) :
    (n.want setup w).1.request = .wantRequest ∨ (n.want setup w).1.request = .sentRequest := by
  unfold want
  split
  · exact .inl rfl
  · unfold sendRequest
    split
    · exact .inr rfl
    · exact .inl rfl
  · exact .inl ‹_›
  · exact .inr ‹_›

theorem Takes.seeks {g : Gateway} (h : n.Takes g k) (hn : n.Seeks) : k.Seeks := by
  cases h with
  | stanza e => exact fun _ => n.request_want g.setup g.world
  | verify v =>
    unfold addVerify
    split <;> exact hn

theorem Starts.seeks {g : Gateway} {r : Route} {first : Candidate} {rest : List Candidate}
    (h : k.Starts g r first rest) : k.Seeks := by
  cases h with
  | stanza e => exact fun _ => .inl rfl
  | verify v => exact fun waits => absurd rfl waits

end Negotiation

theorem Turn.Continues.seeks {t : Turn} {n : Negotiation} {w : World} (h : t.Continues n) (serves : t.Serves n w)
    (hn : n.Seeks) : t.negotiation.Seeks := by
  intro waits
  have before := hn (serves.queue ▸ waits)
  rcases h.request with ⟨_, same⟩ | ⟨_, ready⟩
  · exact same ▸ before
  · rw [ready]
    rcases before with wanted | sent
    · rw [wanted, Request.whenReady]
      split <;> simp
    · rw [sent]
      exact .inr rfl

/-- A stanza that waits goes on having its request. -/
theorem Moment.Course.seeks {m : Moment} {r : Route} {o : Option Negotiation} {k : Negotiation}
    (h : m.Course r o (some k)) (before : ∀ n, o = some n → n.Seeks) : k.Seeks := by
  generalize hk : some k = after at h
  cases h with
  | rests _ opens holds => exact before k hk.symm
  | starts list starts opens holds =>
    cases hk
    exact starts.seeks
  | takes takes opens holds =>
    cases hk
    exact takes.seeks (before _ rfl)
  | @swept n now next opens holds =>
    split at hk
    · cases hk
    · cases hk
      exact fun waits => before n rfl fun none => waits (by simp [Settings.pruned, none])
  | turned operation attempt turns serves next opens holds =>
    obtain ⟨_, rfl⟩ := Turn.of_rest hk.symm
    exact (Gateway.turnOn_continues turns).seeks serves (before _ rfl)
  | @advances t error n _ next rest operation attempt remaining waits accepted atNext opens =>
    cases hk
    subst atNext
    intro waits
    have wanted := before n rfl (by simpa [Negotiation.atNext] using waits)
    simp only [Negotiation.atNext, n.request_noted error]
    rcases wanted with wanted | sent
    · exact .inl (by rw [wanted]; rfl)
    · exact .inl (by rw [sent]; rfl)
  | retires operation attempt stops next opens => cases hk

/-- At a header, the stream of a negotiation becomes ready only with the id of the stream. -/
theorem Negotiation.onHeader_ready (n : Negotiation) (setup : Setup) (w : World)
    (hv : ∀ v ∈ n.verifies, Dialback.isVerify v = true) (header : Stream.Header) (isOwn : String → Bool)
    (ready : (n.onHeader setup w header isOwn).negotiation.ready = true) :
    n.ready = true ∨ (n.onHeader setup w header isOwn).negotiation.streamId ≠ none := by
  have same : (if n.stage = .saslSucceeded then n else { n with stage := .gotHeader }).ready = n.ready ∧
      (if n.stage = .saslSucceeded then n else { n with stage := .gotHeader }).verifies = n.verifies := by
    split <;> exact ⟨rfl, rfl⟩
  unfold onHeader at ready ⊢
  dsimp only at ready ⊢
  generalize (if n.stage = .saslSucceeded then n else { n with stage := .gotHeader }) = m at same ready ⊢
  rw [← same.1]
  rw [← same.2] at hv
  split at ready
  · exact .inl ready
  · split at ready
    · exact .inl ready
    · rename_i id _ other
      have paces := onAccepted_paces { m with streamId := some id, version := header.majorVersion } setup w hv header
      rw [if_neg other, paces.streamId]
      exact .inr (Option.some_ne_none id)

namespace Gateway

variable {g : Gateway} {n : Negotiation}

/-- Without an element, the stream of a negotiation becomes ready only with the id of the stream. -/
theorem turnOn_ready (hv : ∀ v ∈ n.verifies, Dialback.isVerify v = true) {event : LinkEvent} {turn : Turn}
    (turns : g.turnOn n event = some turn) (ready : turn.negotiation.ready = true) :
    n.ready = true ∨ (∃ e, event = .element e) ∨ turn.negotiation.streamId ≠ none := by
  cases event with
  | connected =>
    cases turns
    have paces : n.Paces g.setup g.world False _ _ := n.onConnected_paces g.setup g.world
    exact .inl ((paces.ready ready).resolve_right id)
  | header header =>
    cases turns
    exact (n.onHeader_ready g.setup g.world hv header _ ready).imp_right .inr
  | element e => exact .inr (.inl ⟨e, rfl⟩)
  | closed error => cases turns

end Gateway

/-- The stream has its id, and the request can be sent or has been. -/
def Negotiation.Settled (n : Negotiation) : Prop :=
  n.streamId ≠ none ∧ (n.request = .couldRequest ∨ n.request = .sentRequest)

theorem Request.whenReady_true (q : Request) : q.whenReady true = .couldRequest ∨ q.whenReady true = .sentRequest := by
  cases q <;> simp [whenReady]

theorem Negotiation.Takes.settled {g : Gateway} {n k : Negotiation} (h : n.Takes g k) (ready : k.ready = true)
    (before : n.ready = true → n.Settled) : k.Settled := by
  cases h with
  | stanza e =>
    have paces := n.want_paces g.setup g.world
    have readyBefore : n.ready = true := (paces.ready ready).resolve_right id
    obtain ⟨known, request⟩ := before readyBefore
    obtain ⟨id, streamId⟩ := Option.ne_none_iff_exists'.mp known
    refine ⟨?_, .inr ?_⟩
    · exact fun none => known (paces.streamId.symm.trans none)
    · rcases request with could | sent
      · simp [Negotiation.want, Negotiation.sendRequest, Negotiation.enqueue, could, readyBefore, streamId]
      · simp [Negotiation.want, Negotiation.enqueue, sent]
  | verify v =>
    unfold Negotiation.addVerify at ready ⊢
    split at ready <;> split <;> exact before ready

/-- A stream that becomes ready, if a header was accepted before any element, has its id and its request. -/
theorem Moment.Course.settled {m : Moment} {r : Route} {n k : Negotiation} {u : World}
    (h : m.Course r (some n) (some k)) (hv : ∀ v ∈ n.verifies, Dialback.isVerify v = true) (keeps : m.Keeps r n k u)
    (heard : ∀ t e, m.operation = .outbound t (.element e) → m.gateway.attempts.get? t = some r → n.streamId ≠ none)
    (before : n.ready = true → n.Settled) (ready : k.ready = true) : k.Settled := by
  have kept (known : n.streamId ≠ none) : k.streamId ≠ none := by
    rcases keeps.streamId with ⟨id, _, streamId⟩ | ⟨_, streamId⟩
    · rw [streamId]
      exact Option.some_ne_none id
    · rwa [streamId]
  generalize hk : some k = after at h
  cases h with
  | rests _ opens holds =>
    cases hk
    exact before ready
  | takes takes opens holds =>
    cases hk
    exact takes.settled ready before
  | swept next opens holds =>
    split at hk
    · cases hk
    · cases hk
      exact before ready
  | @turned t event _ turn operation attempt turns serves next opens holds =>
    obtain ⟨_, rfl⟩ := Turn.of_rest hk.symm
    have known : turn.negotiation.streamId ≠ none := by
      rcases Gateway.turnOn_ready hv turns ready with readyBefore | ⟨e, element⟩ | known
      · exact kept (before readyBefore).1
      · exact kept (heard t e (element ▸ operation) attempt)
      · exact known
    rcases (Gateway.turnOn_continues turns).request with ⟨same, request⟩ | ⟨_, request⟩
    · exact ⟨known, request ▸ (before (same ▸ ready)).2⟩
    · rw [Option.isSome_iff_ne_none.mpr known] at request
      exact ⟨known, request ▸ n.request.whenReady_true⟩
  | advances operation attempt remaining waits accepted atNext opens =>
    cases hk
    rw [atNext] at ready
    cases ready
  | retires operation attempt stops next opens => cases hk

/-- What there is to say of the request of a negotiation, with the headers that were accepted on its link. -/
structure Poised (h : List Moment) (g : Gateway) (r : Route) (n : Negotiation) : Prop where
  seeks : n.Seeks
  unasked : n.request ≠ .sentRequest → g.world.requests n.link = []
  asked : n.request = .sentRequest → ∃ id, g.world.requests n.link = [g.setup.requestFor r id]
  heard : ∀ j id, Happens h j (·.AcceptsPeer n.link id) → n.streamId ≠ none
  settled : HeaderFirst h → n.ready = true → n.Settled

namespace Poised

variable {h : List Moment} {m : Moment} {r : Route} {n k : Negotiation}

theorem goesOn (hp : Poised h m.gateway r n) (hv : ∀ v ∈ n.verifies, Dialback.isVerify v = true)
    (indexed : m.gateway.Indexed) (found : m.gateway.negotiations.get? r = some n)
    (keeps : m.Keeps r n k m.next.world) (course : m.Course r (some n) (some k))
    (setup : m.next.setup = m.gateway.setup) : Poised (h ++ [m]) m.next r k := by
  refine ⟨course.seeks fun _ same => Option.some.inj same ▸ hp.seeks, ?_, ?_, ?_, fun first ready => ?_⟩
  · intro unsent
    rw [keeps.link]
    rcases keeps.request with ⟨requests, sent, _⟩ | ⟨_, sent, _⟩
    · rw [requests]
      exact hp.unasked fun before => unsent (sent.mpr before)
    · exact absurd sent unsent
  · intro sentNow
    rw [keeps.link, setup]
    rcases keeps.request with ⟨requests, sent, _⟩ | ⟨unsent, _, _, id, _, requests⟩
    · rw [requests]
      exact hp.asked (sent.mp sentNow)
    · exact ⟨id, by rw [requests, hp.unasked unsent]; rfl⟩
  · intro j id accepted
    rw [keeps.link] at accepted
    rcases keeps.streamId with ⟨other, _, streamId⟩ | ⟨quiet, streamId⟩
    · rw [streamId]
      exact Option.some_ne_none other
    · rw [streamId]
      rcases Happens.concat_iff.mp accepted with earlier | ⟨_, now⟩
      · exact hp.heard j id earlier
      · exact absurd now (quiet id)
  · refine course.settled hv keeps (fun t e operation attempt => ?_) (hp.settled first.of_concat) ready
    obtain ⟨j, id, accepted⟩ := first.of_element operation attempt
    obtain ⟨x, hx, link⟩ := (indexed.attempts t r).mp attempt
    rw [found] at hx
    cases hx
    exact hp.heard j id (link ▸ accepted)

/-- A negotiation that has just begun, or moved on, is on a link on which nothing has happened. -/
theorem begins (seeks : k.Seeks) (ready : k.ready = false) (request : k.request ≠ .sentRequest)
    (requests : m.next.world.requests k.link = []) (fresh : ∀ j id, ¬ Happens (h ++ [m]) j (·.AcceptsPeer k.link id)) :
    Poised (h ++ [m]) m.next r k := by
  refine ⟨seeks, fun _ => requests, fun sent => absurd sent request, fun j id accepted => absurd accepted (fresh j id),
    fun _ hr => ?_⟩
  rw [ready] at hr
  cases hr

end Poised

namespace Gateway

variable {g : Gateway} {h : List Moment}

/-- What the requests of all negotiations need and keep. -/
structure Asking (h : List Moment) (g : Gateway) : Prop extends Connected h g where
  accepted : ∀ j t id, Happens h j (·.AcceptsPeer t id) → g.Spent t
  poised : ∀ r n, g.negotiations.get? r = some n → Poised h g r n

theorem Asking.step (ha : Asking h g) (op : Operation) : Asking (h ++ [⟨g, op⟩]) (g.step op) := by
  have ho := ha.orderly
  have setup : (⟨g, op⟩ : Moment).next.setup = g.setup := step_setup ho op
  have spent (j : Nat) (t : LinkId) (id : String) (accepted : Happens (h ++ [⟨g, op⟩]) j (·.AcceptsPeer t id)) :
      g.Spent t := by
    rcases Happens.concat_iff.mp accepted with earlier | ⟨_, _, _, _, r, attempt⟩
    · exact ha.accepted j t id earlier
    · exact Tracks.spent ha.indexed (.inl ((ha.indexed.attempts t r).mp attempt))
  refine ⟨ha.toConnected.step op, fun j t id accepted => (spent j t id accepted).step ho op, fun r k hk => ?_⟩
  have course := step_course ho op r
  rw [hk] at course
  cases (step_proceeds ho ha.indexed op).negotiation r k hk with
  | @goesOn n found keeps =>
    have same : g.negotiations.get? r = some n := found
    rw [same] at course
    exact (ha.poised r n same).goesOn (m := ⟨g, op⟩) (ho.verifies r n same) ha.indexed same keeps course setup
  | begins opens ready streamId request requests =>
    refine .begins (m := ⟨g, op⟩) (course.seeks fun n hn => (ha.poised r n hn).seeks) ready request requests ?_
    intro j id accepted
    obtain ⟨address, timeout, opens⟩ := opens
    obtain ⟨i, hle, _, hl⟩ := (step_grows ho op).numbered k.link r address timeout opens
    exact spent j k.link id accepted i hle hl

theorem run_asking (setup : Setup) (world : World) (links : Function.Injective world.sources.linkId)
    (ops : List Operation) :
    Asking ((initial setup world).history ops) ((initial setup world).run ops) := by
  refine run_induction (P := Asking) ⟨initial_connected links, ?_, ?_⟩ (fun _ _ op ha => ha.step op) ops
  · rintro j t id ⟨m, hm, _⟩
    cases hm
  · intro r n hn
    cases hn

/-- If links are never numbered twice, a stanza that waits has a request that is wanted or has been sent, and there is
one request on the link if it has been sent and none before. -/
theorem requests_follow_stanzas (setup : Setup) (world : World) (links : Function.Injective world.sources.linkId)
    (ops : List Operation) (r : Route) (n : Negotiation) :
    let g := (initial setup world).run ops
    let moments := (initial setup world).history ops
    g.negotiations.get? r = some n →
    (n.queue ≠ [] → n.request = .wantRequest ∨ n.request = .sentRequest) ∧
    (n.request = .sentRequest → ∃ id, g.world.requests n.link = [setup.requestFor r id]) ∧
    (n.request ≠ .sentRequest → g.world.requests n.link = []) ∧
    (n.ready = true → n.verifies = []) ∧
    (HeaderFirst moments → n.ready = true →
      (n.request = .couldRequest ∨ n.request = .sentRequest) ∧ (n.queue ≠ [] → n.request = .sentRequest)) := by
  intro g moments found
  have poised := (run_asking setup world links ops).poised r n found
  have same : g.setup = setup := (run_traced setup world links ops).2.2.1
  refine ⟨poised.seeks, fun sent => same ▸ poised.asked sent, poised.unasked,
    (run_inOrder setup world ops).2.flushed r n found, fun first ready => ?_⟩
  have request := (poised.settled first ready).2
  refine ⟨request, fun waits => request.resolve_left fun could => ?_⟩
  rcases poised.seeks waits with wanted | sent
  · rw [wanted] at could
    cases could
  · rw [sent] at could
    cases could

/-- In the handshake each element comes after the first header. -/
theorem headerFirst_handshake : HeaderFirst (sample.history handshake) := by
  rintro i t ⟨m, hm, ⟨e, operation⟩, r, attempt⟩
  have accepted : Happens (sample.history handshake) 2 (·.AcceptsPeer 100 "one") := by
    refine ⟨⟨sample.run (handshake.take 2), _⟩, rfl, ⟨_, rfl, rfl⟩, by decide, by decide +kernel,
      ⟨"b.example", "a.example"⟩, ?_⟩
    decide +kernel
  have performed : handshake[i]? = some (.outbound t (.element e)) := by
    rw [getElem?_history] at hm
    obtain ⟨op, performed, rfl⟩ := Option.map_eq_some_iff.mp hm
    exact operation ▸ performed
  have link : t = 100 := by
    have listed := List.mem_of_getElem? performed
    simp only [handshake, List.mem_cons, Operation.outbound.injEq, LinkEvent.element.injEq, reduceCtorEq, and_false,
      false_or, List.not_mem_nil, or_false] at listed
    rcases listed with ⟨link, _⟩ | ⟨link, _⟩ | ⟨link, _⟩ <;> exact link
  obtain _ | _ | _ | i := i
  · cases performed
  · cases performed
  · cases performed
  · exact ⟨2, "one", by omega, link ▸ accepted⟩

theorem stanza_requested_once :
    let r : Route := ⟨"b.example", "a.example"⟩
    let g := sample.run handshake
    ∃ n, g.negotiations.get? r = some n ∧ n.queue ≠ [] ∧ n.ready = true ∧ n.request = .sentRequest ∧
      ∃ id, g.world.requests n.link = [sample.setup.requestFor r id] := by
  intro r g
  have negotiated : (g.negotiations.get? r).map (fun n => (n.queue.length, n.ready)) = some (1, true) := by
    decide +kernel
  obtain ⟨n, found, same⟩ := Option.map_eq_some_iff.mp negotiated
  obtain ⟨waiting, ready⟩ := Prod.mk.inj same
  have waits : n.queue ≠ [] := List.ne_nil_of_length_pos (by omega)
  obtain ⟨_, asked, _, _, settled⟩ :=
    requests_follow_stanzas sample.setup sample.world sample_linkId_injective handshake r n found
  have sent := (settled headerFirst_handshake ready).2 waits
  exact ⟨n, found, waits, ready, sent, asked sent⟩

end Gateway

end Interdomain
