import Interdomain.Proofs.Admission
import Interdomain.Proofs.Replies
import Interdomain.Proofs.Routing

/-! What an operation means to what peers are authorized for: it ends some of that, or registers an admission, or
begins a stream, or delivers what came in under an admission or on a stream from before dialback. -/
namespace Interdomain

open Protocol (Dialback)

namespace Moment

/-- The operation registers an admission: its claim is confirmed, or the stream of a peer that has proved its
domain is given the challenge. -/
def Registers (m : Moment) (k : Claim) : Prop :=
  (∃ t, m.Confirms k t) ∨
    ∃ t, m.AcceptsHeader t k.challenge k.destination ∧ m.gateway.identityOn t = some k.source

/-- How often what came in on the stream of a peer is handed to the router for delivery. -/
def received (m : Moment) : Nat :=
  match m.operation with
  | .inbound _ (.element e) => m.calls.count (.deliver e)
  | _ => 0

/-- A header comes only on a stream that waits for one. -/
def HeadsFresh (m : Moment) : Prop :=
  ∀ t header, m.operation = .inbound t (.header header) →
    ∀ stream, m.gateway.streams.get? t = some stream → stream.phase = .awaitingHeader

/-- Streams from before dialback begin, with nothing carried, and none ends; if a header comes only when it is
waited for. -/
def Welcomes (m : Moment) : Prop :=
  m.HeadsFresh → ∃ l : List (LinkId × String × Carrier), (∀ e ∈ l, e.2.2.stanzas = 0) ∧
    m.next.legacies.Perm (l ++ m.gateway.legacies)

end Moment

namespace Gateway

variable {g g' : Gateway} {t u : LinkId} {k x : Claim} {r : Route} {n : Negotiation} {e : Xml.Element}

/-- What an operation means to what peers are authorized for. -/
inductive AdmissionStep (m : Moment) : Prop
  | dismisses {gone left} (dismisses : Dismisses m.gateway m.next gone left) (unregistered : ∀ k, ¬ m.Registers k)
      (received : m.received = 0)
  | registers {k : Claim} {c : Carrier} (registers : ∀ x, m.Registers x ↔ x = k) (fresh : c.stanzas = 0)
      (admissions : m.next.admissions = (m.gateway.admissions.register k c).registry)
      (records : inboundRecords m.calls = (m.gateway.admissions.entryOf k).map (admissionRecord m.gateway.now))
      (legacies : m.Welcomes) (received : m.received = 0)
  | welcomes (unregistered : ∀ k, ¬ m.Registers k) (admissions : m.next.admissions = m.gateway.admissions)
      (records : inboundRecords m.calls = []) (legacies : m.Welcomes) (received : m.received = 0)
  | delivers {k : Claim} {c : Carrier} (unregistered : ∀ k, ¬ m.Registers k)
      (found : m.gateway.admissions.get? k = some c)
      (admissions : m.next.admissions = m.gateway.admissions.modify k (·.carry m.gateway.now))
      (streams : m.next.streams = m.gateway.streams) (records : inboundRecords m.calls = [])
      (received : m.received = 1)
  | carries {t : LinkId} {stream peer carrier} (unregistered : ∀ k, ¬ m.Registers k)
      (found : m.gateway.streams.get? t = some stream) (phase : stream.phase = .legacy peer carrier)
      (admissions : m.next.admissions = m.gateway.admissions)
      (streams : m.next.streams = m.gateway.streams.modify t fun x =>
        { x with phase := .legacy peer (carrier.carry m.gateway.now) })
      (records : inboundRecords m.calls = []) (received : m.received = 1)

theorem Hears.unique {op : Operation} {e f : Xml.Element} (h : g.Hears e op) (h' : g.Hears f op) : f = e := by
  cases h <;> cases h' <;> rfl

theorem Hears.not_heads {op : Operation} (h : g.Hears e op) {header : Stream.Header} :
    op ≠ .inbound t (.header header) := by
  rintro rfl
  cases h

/-- An element vouches for one claim at most. -/
theorem vouches_unique (h : Dialback.Vouches e k) (h' : Dialback.Vouches e x) : x = k := by
  obtain ⟨m, hm, hid, hsource, hdestination, _⟩ := h
  obtain ⟨m', hm', hid', hsource', hdestination', _⟩ := h'
  rw [hm] at hm'
  cases hm'
  rw [hid] at hid'
  cases k
  cases x
  simp_all

theorem registers_unique {m : Moment} (h : m.Registers k) (h' : m.Registers x) : x = k := by
  rcases h with ⟨t, ⟨e, hears, vouches⟩, _⟩ | ⟨t, ⟨header, _, _, _, _, hop, hg, _, hc⟩, hi⟩
  · rcases h' with ⟨u, ⟨f, hears', vouches'⟩, _⟩ | ⟨u, ⟨header', _, _, _, _, hop', _⟩, _⟩
    · exact vouches_unique vouches (hears.unique hears' ▸ vouches')
    · exact absurd hop' hears.not_heads
  · rcases h' with ⟨u, ⟨f, hears', _⟩, _⟩ | ⟨u, ⟨header', _, _, _, _, hop', hg', _, hc'⟩, hi'⟩
    · exact absurd hop hears'.not_heads
    · rw [hop] at hop'
      cases hop'
      rw [hg] at hg'
      rw [hi] at hi'
      cases k
      cases x
      simp_all

/-- What is dismissed is not received. -/
theorem received_of_dismisses {m : Moment} {gone left} (h : Dismisses m.gateway m.next gone left) :
    m.received = 0 := by
  obtain ⟨es, trace, received, _⟩ := h.calls
  unfold Moment.received
  split
  · rw [m.calls_eq trace]
    exact List.count_eq_zero.mpr (received _)
  · rfl

theorem setAdmissions_register (g : Gateway) (k : Claim) (c : Carrier) :
    g.setAdmissions (g.admissions.register k c) = { g with
      admissions := (g.admissions.register k c).registry
      world := { g.world with
        trace := g.world.trace ++ (g.admissions.entryOf k).map fun e => .account (admissionRecord g.now e) } } := by
  obtain ⟨_, _, _, notices⟩ := g.admissions.entries_register k c
  rw [setAdmissions, notices, List.foldl_append, foldl_noticeAdmission_unregistered]
  rfl

/-- The registration of an admission writes the record of the one that it replaces. -/
theorem authorize_eq (g : Gateway) (k : Claim) (t : LinkId) : ∃ c : Carrier, c.stanzas = 0 ∧
    g.authorize k t = { g with
      admissions := (g.admissions.register k c).registry
      world := { g.world with
        trace := g.world.trace ++ (g.admissions.entryOf k).map fun e => .account (admissionRecord g.now e) } } :=
  ⟨_, rfl, g.setAdmissions_register k _⟩

/-- A claim that is confirmed becomes an admission. -/
theorem AdmissionStep.grants {m : Moment} (keeps : KeepsInbound m.gateway g) (world : g.world = m.gateway.world)
    (next : m.next = g.grant k t) (confirms : m.Confirms k t) : AdmissionStep m := by
  obtain ⟨c, fresh, authorized⟩ := (g.closeClaim k).authorize_eq k t
  have heq : g.grant k t = ((g.closeClaim k).authorize k t).sendResult t k true := rfl
  have admissions : (g.closeClaim k).admissions = m.gateway.admissions := keeps.admissions
  have now : (g.closeClaim k).now = m.gateway.now := congrArg World.now world
  have calls : m.calls = ((m.gateway.admissions.entryOf k).map fun e =>
      .account (admissionRecord m.gateway.now e)) ++
        [.send t (.element (Dialback.resultReply k.source k.destination true))] := by
    refine m.calls_eq ?_
    rw [next, heq, authorized, admissions, now, ← world, ← List.append_assoc]
    rfl
  have registers : m.Registers k := .inl ⟨t, confirms⟩
  refine .registers (fun x => ⟨registers_unique registers, fun hx => hx ▸ registers⟩) fresh ?_ ?_ ?_ ?_
  · rw [next, heq, authorized, admissions]
    rfl
  · rw [calls, inboundRecords_append, inboundRecords_admission]
    exact List.append_nil _
  · refine fun _ => ⟨[], by simp, ?_⟩
    rw [next, List.nil_append, legacies, grant_streams, keeps.streams]
    exact .refl _
  · unfold Moment.received
    split
    · rw [calls]
      refine List.count_eq_zero.mpr fun hm => ?_
      simp at hm
    · rfl

/-- A verification that is heard settles a claim at most. -/
theorem AdmissionStep.heard {op : Operation} (hears : g.Hears e op) : AdmissionStep ⟨g, op⟩ := by
  obtain ⟨t, g₁, notes, heq⟩ := hears.step_eq
  have keeps := notes.keepsInbound
  have world := notes.world
  by_cases hc : ∃ k u, (⟨g, op⟩ : Moment).Confirms k u
  · obtain ⟨k, u, confirms⟩ := hc
    obtain ⟨⟨f, hears', vouches⟩, isOpen, admits⟩ := confirms
    have granted := onVerify_of_vouches t (hears.unique hears' ▸ vouches) (keeps.isOpen_iff.mpr isOpen)
      ((keeps.admits_iff world).mpr admits)
    exact .grants keeps world (heq.trans granted) ⟨⟨f, hears', vouches⟩, isOpen, admits⟩
  · rcases g₁.onVerify_rests t e with rests | ⟨k, u, vouches, isOpen, admits, _⟩
    · have dismisses : Dismisses g (g.step op) [] [] := by
        obtain ⟨admissions, legacies, calls⟩ := rests.dismisses
        rw [← heq] at admissions legacies calls
        exact ⟨keeps.admissions ▸ admissions, by simpa [Gateway.legacies, keeps.streams] using legacies,
          by simpa [world, now] using calls⟩
      refine .dismisses dismisses (fun k hk => ?_) (received_of_dismisses (m := ⟨g, op⟩) dismisses)
      rcases hk with ⟨u, confirms⟩ | ⟨u, ⟨header, _, _, _, _, hop, _⟩, _⟩
      · exact hc ⟨k, u, confirms⟩
      · exact hears.not_heads hop
    · exact absurd ⟨k, u, ⟨e, hears, vouches⟩, keeps.isOpen_iff.mp isOpen, (keeps.admits_iff world).mp admits⟩ hc

/-- A stream enters a phase, and the legacy streams among the others. -/
theorem legacies_enterPhase {stream : InboundStream} (hs : g.streams.get? t = some stream) (phase : Phase) :
    (g.enterPhase t phase).legacies.Perm
      ((legacy? (t, { stream with phase := phase })).toList ++ { g with streams := g.streams.erase t }.legacies) :=
  legacies_modify hs fun s => { s with phase, since := g.now }

/-- The stream of a peer leaves the wait for a header. -/
theorem welcomes_of_enterPhase {header : Stream.Header} {phase : Phase}
    (fresh : ∀ peer c, phase = .legacy peer c → c.stanzas = 0) (streams : g'.streams = (g.openStream t).streams)
    (next : Moment.next ⟨g, .inbound t (.header header)⟩ = g'.enterPhase t phase) :
    Moment.Welcomes ⟨g, .inbound t (.header header)⟩ := by
  intro heads
  obtain ⟨stream, hs, hp⟩ := openStream_awaits (heads t header rfl)
  have entered := legacies_enterPhase (g := g') (streams ▸ hs) phase
  have others : { g' with streams := g'.streams.erase t }.legacies.Perm g.legacies := by
    have erased := legacies_erase hs
    rw [show legacy? (t, stream) = none by simp [legacy?, hp], Option.toList_none, List.nil_append] at erased
    have same : { g' with streams := g'.streams.erase t }.legacies =
        { g.openStream t with streams := (g.openStream t).streams.erase t }.legacies := by
      simp only [legacies, streams]
    exact same ▸ erased.symm.trans (g.legacies_openStream t)
  refine ⟨_, ?_, next ▸ entered.trans (others.append_left _)⟩
  intro x hx
  cases phase with
  | legacy peer c =>
    simp only [legacy?, Option.toList_some, List.mem_singleton] at hx
    rw [hx]
    exact fresh peer c rfl
  | awaitingHeader => simp [legacy?] at hx
  | streaming s => simp [legacy?] at hx

theorem openStream_identityOn (g : Gateway) (t u : LinkId) : (g.openStream t).identityOn u = g.identityOn u := by
  unfold openStream
  split
  · rfl
  · rename_i hc
    have free := Table.contains_eq_false.mp (Bool.eq_false_iff.mpr hc)
    simp only [identityOn, Table.get?_insert]
    split
    · rename_i hu
      simp [hu, free]
    · rfl

/-- A header is no confirmation: what it registers, it does so for a domain that was proved before. -/
theorem registers_header {header : Stream.Header} :
    Moment.Registers ⟨g, .inbound t (.header header)⟩ k ↔
      Moment.AcceptsHeader ⟨g, .inbound t (.header header)⟩ t k.challenge k.destination ∧
        g.identityOn t = some k.source := by
  constructor
  · rintro (⟨u, ⟨e, hears, _⟩, _⟩ | ⟨u, ⟨_, _, _, _, _, hop, hg⟩, hi⟩)
    · exact absurd rfl hears.not_heads
    · cases hop
      exact ⟨⟨_, _, _, _, _, rfl, hg⟩, hi⟩
  · exact fun h => .inr ⟨t, h⟩

/-- An accepted stream is given a challenge, and an admission if its peer has proved its domain. -/
theorem AdmissionStep.accepts {header reply host peer version offer}
    (hg : g.setup.greet (g.world.link t) ((g.openStream t).identityOn t).isSome header =
      .accepted reply host peer version offer) : AdmissionStep ⟨g, .inbound t (.header header)⟩ := by
  have accepted : Moment.AcceptsHeader ⟨g, .inbound t (.header header)⟩ t g.world.draw.2 host :=
    ⟨header, reply, peer, version, offer, rfl, hg, host_of_greet hg, rfl⟩
  have next : Moment.next ⟨g, .inbound t (.header header)⟩ =
      (((g.openStream t).challenge t host peer version).act
        (welcome · t reply version offer (g.openStream t).world.draw.2)).enterPhase t
        (.streaming ⟨(g.openStream t).world.draw.2, host, peer, version⟩) := by
    have step : Moment.next ⟨g, .inbound t (.header header)⟩ =
        (g.openStream t).acceptStream t reply host peer version offer := by
      show (g.openStream t).onHeader t header = _
      rw [onHeader, openStream_setup, openStream_world, hg]
    exact step.trans (acceptStream_eq ..)
  have legacies : Moment.Welcomes ⟨g, .inbound t (.header header)⟩ := by
    refine welcomes_of_enterPhase ?_ ?_ next
    · simp
    · exact (g.openStream t).challenge_streams t host peer version
  have admissions : (Moment.next ⟨g, .inbound t (.header header)⟩).admissions =
      ((g.openStream t).challenge t host peer version).admissions := by
    rw [next]
    rfl
  have records (es : List Effect)
      (trace : ((g.openStream t).challenge t host peer version).world.trace = g.world.trace ++ es) :
      inboundRecords (Moment.calls ⟨g, .inbound t (.header header)⟩) = inboundRecords es := by
    obtain ⟨fs, more, plain⟩ := welcome_unbooked ((g.openStream t).challenge t host peer version).world t reply
      version offer (g.openStream t).world.draw.2
    have after : (Moment.next ⟨g, .inbound t (.header header)⟩).world.trace = g.world.trace ++ (es ++ fs) := by
      rw [next, ← List.append_assoc, ← trace]
      exact more
    rw [Moment.calls_eq after, inboundRecords_append, inboundRecords_eq_nil plain, List.append_nil]
  cases hi : g.identityOn t with
  | none =>
    have given : (g.openStream t).challenge t host peer version = { g.openStream t with
        world := g.world.draw.1
        challenges := (g.openStream t).challenges.insert g.world.draw.2 ⟨t, peer, host, version, [], g.now⟩ } := by
      simp only [challenge, openStream_identityOn, hi, openStream_world, now]
    refine .welcomes (fun k hk => ?_) ?_ (records [] ?_) legacies rfl
    · rw [(registers_header.mp hk).2] at hi
      cases hi
    · rw [admissions, given, openStream_admissions]
    · rw [given, List.append_nil]
      rfl
  | some identity =>
    have given : (g.openStream t).challenge t host peer version = { g.openStream t with
        world := g.world.draw.1
        challenges := (g.openStream t).challenges.insert g.world.draw.2 ⟨t, peer, host, version, [], g.now⟩
        }.authorize ⟨g.world.draw.2, host, identity⟩ t := by
      simp only [challenge, openStream_identityOn, hi, openStream_world, now]
    have registers : Moment.Registers ⟨g, .inbound t (.header header)⟩ ⟨g.world.draw.2, host, identity⟩ :=
      registers_header.mpr ⟨accepted, hi⟩
    obtain ⟨c, fresh, authorized⟩ := authorize_eq { g.openStream t with
        world := g.world.draw.1
        challenges := (g.openStream t).challenges.insert g.world.draw.2 ⟨t, peer, host, version, [], g.now⟩
        } ⟨g.world.draw.2, host, identity⟩ t
    refine .registers (fun x => ⟨registers_unique registers, fun hx => hx ▸ registers⟩) fresh ?_ ?_ legacies rfl
    · rw [admissions, given, authorized]
      simp only [openStream_admissions]
    · refine (records _ ?_).trans (inboundRecords_admission _ _)
      rw [given, authorized]
      simp only [openStream_admissions]
      rfl

theorem AdmissionStep.header (g : Gateway) (t : LinkId) (header : Stream.Header) :
    AdmissionStep ⟨g, .inbound t (.header header)⟩ := by
  have next : Moment.next ⟨g, .inbound t (.header header)⟩ = (g.openStream t).onHeader t header := rfl
  have unregistered (other : ∀ reply host peer version offer,
      g.setup.greet (g.world.link t) ((g.openStream t).identityOn t).isSome header ≠
        .accepted reply host peer version offer) (k : Claim) :
      ¬ Moment.Registers ⟨g, .inbound t (.header header)⟩ k := by
    rw [registers_header]
    rintro ⟨⟨_, reply, peer, version, offer, hop, hg, _⟩, _⟩
    cases hop
    exact other _ _ _ _ _ hg
  rw [onHeader, openStream_setup, openStream_world] at next
  cases hg : g.setup.greet (g.world.link t) ((g.openStream t).identityOn t).isSome header with
  | refused reply reason =>
    rw [hg] at next
    obtain ⟨gone, left, dismisses⟩ :=
      ((g.openStream_lapses t).rests (refuseHeader_rests _ t reply reason) rfl).dismisses
    have dismisses : Dismisses g (Moment.next ⟨g, .inbound t (.header header)⟩) gone left := next ▸ dismisses
    exact .dismisses dismisses (unregistered fun _ _ _ _ _ h => by rw [hg] at h; cases h) rfl
  | legacy reply peer =>
    rw [hg] at next
    have calls : Moment.calls ⟨g, .inbound t (.header header)⟩ =
        [.send t (.header { reply with id := some g.world.draw.2 })] := by
      refine Moment.calls_eq ?_
      rw [next, ← g.openStream_world t]
      rfl
    refine .welcomes (unregistered fun _ _ _ _ _ h => by rw [hg] at h; cases h) ?_ ?_
      (welcomes_of_enterPhase ?_ ?_ next) rfl
    · rw [next]
      exact g.openStream_admissions t
    · rw [calls]
      rfl
    · rintro _ _ ⟨⟩
      rfl
    · rfl
  | accepted reply host peer version offer => exact .accepts hg

theorem unregistered_of_unheard {op : Operation} (unheard : ∀ e, ¬ g.Hears e op)
    (other : ∀ t header, op ≠ .inbound t (.header header)) (k : Claim) : ¬ Moment.Registers ⟨g, op⟩ k := by
  rintro (⟨u, ⟨e, hears, _⟩, _⟩ | ⟨u, ⟨header, _, _, _, _, hop, _⟩, _⟩)
  · exact unheard e hears
  · exact other u header hop

/-- An operation that is neither heard as a verification nor a header only ends authorizations, if it does that. -/
theorem AdmissionStep.dismissing {op : Operation} (dismisses : ∃ gone left, Dismisses g (g.step op) gone left)
    (unheard : ∀ e, ¬ g.Hears e op) (other : ∀ t header, op ≠ .inbound t (.header header)) :
    AdmissionStep ⟨g, op⟩ := by
  obtain ⟨gone, left, dismisses⟩ := dismisses
  exact .dismisses dismisses (unregistered_of_unheard unheard other) (received_of_dismisses (m := ⟨g, op⟩) dismisses)

theorem submit_dismisses (g : Gateway) (e : Xml.Element) (resolved : Option String) :
    Dismisses g (g.submit e resolved).1 [] [] := by
  rcases g.submit_cases e resolved with ⟨r, c, _, _, heq⟩ | ⟨_, rests⟩
  · rw [heq]
    exact dismisses_of_keeps ⟨rfl, rfl, rfl, rfl⟩ ⟨[_], rfl, by simp, rfl⟩
  · exact rests.dismisses

theorem establish_dismisses (hn : g.negotiations.get? r = some n) (unrouted : g.routes.get? r = none) :
    Dismisses g (g.establish r) [] [] := by
  refine dismisses_of_keeps (g.establish_keepsInbound r) ⟨_, establish_trace hn unrouted, ?_, ?_⟩
  · simp [handOverCalls]
  · simp [handOverCalls, inboundRecords, List.filterMap_map, Function.comp_def,
      Effect.inboundRecord?]

/-- An element on the stream of a peer that is no verification. -/
theorem AdmissionStep.guest {event : LinkEvent} (unheard : ∀ e, ¬ g.Hears e (.inbound t event)) :
    AdmissionStep ⟨g, .inbound t event⟩ := by
  by_cases heads : ∃ header, event = .header header
  · obtain ⟨header, rfl⟩ := heads
    exact .header g t header
  have other (u : LinkId) (header : Stream.Header) : Operation.inbound t event ≠ .inbound u (.header header) :=
    fun h => heads ⟨header, by injection h⟩
  have unregistered := unregistered_of_unheard unheard other
  cases hi : Moment.inquiry? ⟨g, .inbound t event⟩ with
  | some v =>
    cases event with
    | element e =>
      obtain ⟨k, _, heq⟩ := onElement_of_inquiry hi
      have passed := (g.openClaim k).submit_dismisses v none
      rw [← heq] at passed
      exact .dismissing ⟨[], [], passed.admissions, passed.legacies, passed.calls⟩ unheard other
    | _ => cases hi
  | none =>
    have hs := g.onInbound_guest t event hi
    have next : g.step (.inbound t event) = g.onInbound t event := rfl
    generalize g.onInbound t event = g' at hs next
    have delivered {f : Gateway} {v : Xml.Element} (heq : g.step (.inbound t event) = f.emit (.deliver v))
        (world : f.world = g.world) :
        Moment.calls ⟨g, .inbound t event⟩ = [.deliver v] := by
      refine Moment.calls_eq ?_
      rw [← world]
      exact congrArg (·.world.trace) heq
    cases hs with
    | rests rests => exact .dismissing ⟨_, _, next ▸ rests.dismisses⟩ unheard other
    | lapses lapses => exact .dismissing (next ▸ lapses.dismisses) unheard other
    | @asks e v k request verify =>
      have calls := delivered next rfl
      have different : v ≠ e := by
        rintro rfl
        exact Dialback.not_is_of_isVerify verify _ _ (by decide) request
      refine .welcomes unregistered (by rw [Moment.next, next]; rfl) (by rw [calls]; rfl)
        (fun _ => ⟨[], by simp, ?_⟩) ?_
      · rw [Moment.next, next]
        exact .refl _
      · simp [Moment.received, calls, different]
    | grants hears _ _ _ => exact absurd hears (unheard _)
    | greets => exact absurd ⟨_, rfl⟩ heads
    | accepts _ => exact absurd ⟨_, rfl⟩ heads
    | delivers found =>
      have calls := delivered next rfl
      exact .delivers unregistered found (by rw [Moment.next, next]; rfl) (by rw [Moment.next, next]; rfl)
        (by rw [calls]; rfl) (by simp [Moment.received, calls])
    | carries found phase =>
      have calls := delivered next rfl
      exact .carries unregistered found phase (by rw [Moment.next, next]; rfl) (by rw [Moment.next, next]; rfl)
        (by rw [calls]; rfl) (by simp [Moment.received, calls])

theorem AdmissionStep.outbound (apart : ∀ r n, g.negotiations.get? r = some n → g.routes.get? r = none)
    (ho : g.Orderly) {event : LinkEvent} (unheard : ∀ e, ¬ g.Hears e (.outbound t event)) :
    AdmissionStep ⟨g, .outbound t event⟩ := by
  have ended (dismisses : ∃ gone left, Dismisses g (g.onOutbound t event) gone left) :
      AdmissionStep ⟨g, .outbound t event⟩ := .dismissing dismisses unheard fun _ _ h => nomatch h
  cases onOutbound_host ho unheard with
  | rests rests => exact ended ⟨_, _, rests.dismisses⟩
  | lapses lapses _ => exact ended lapses.dismisses
  | @enters n m attempt found route link queue verifies heq =>
    have here : (g.setNegotiation m g.world).negotiations.get? n.route = some m := by
      simp [setNegotiation, Table.get?_insert, route]
    have established := establish_dismisses here (apart n.route n found)
    rw [← heq] at established
    exact ended ⟨_, _, established.admissions, established.legacies, established.calls⟩

theorem step_admissions (apart : ∀ r n, g.negotiations.get? r = some n → g.routes.get? r = none)
    (ho : g.Orderly) (op : Operation) : AdmissionStep ⟨g, op⟩ := by
  by_cases hears : ∃ e, g.Hears e op
  · obtain ⟨e, hears⟩ := hears
    exact .heard hears
  have unheard (e : Xml.Element) (he : g.Hears e op) : False := hears ⟨e, he⟩
  have other {op : Operation} (unheard : ∀ e, ¬ g.Hears e op) (apart : ∀ t event, op ≠ .inbound t event)
      (dismisses : ∃ gone left, Dismisses g (g.step op) gone left) : AdmissionStep ⟨g, op⟩ :=
    .dismissing dismisses unheard fun t header => apart t (.header header)
  cases op with
  | inbound t event => exact .guest unheard
  | outbound t event => exact .outbound apart ho unheard
  | submit e resolved => exact other unheard nofun ⟨_, _, g.step_submit e resolved ▸ g.submit_dismisses e resolved⟩
  | sweep ahead => exact other unheard nofun (g.step_sweep ahead ▸ (g.sweepAt_books (g.now + ahead)).2)
  | releaseRoute r => exact other unheard nofun (g.step_releaseRoute r ▸ (g.releaseRoute_lapses r).dismisses)
  | releaseClaim k => exact other unheard nofun (g.step_releaseClaim k ▸ (g.releaseClaim_lapses k).dismisses)
  | wait duration =>
    have rests : Rests g (g.step (.wait duration)) := ⟨rfl, rfl, rfl, rfl, .refl _⟩
    exact other unheard nofun ⟨_, _, rests.dismisses⟩
  | learn link facts =>
    have rests : Rests g (g.step (.learn link facts)) := ⟨rfl, rfl, rfl, rfl, .refl _⟩
    exact other unheard nofun ⟨_, _, rests.dismisses⟩

theorem Kept.admissions {h : List Moment} (hk : Kept h g) (op : Operation) : AdmissionStep ⟨g, op⟩ :=
  step_admissions hk.order.apart hk.orderly op

end Gateway

end Interdomain
