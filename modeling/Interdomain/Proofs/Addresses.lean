import Interdomain.Proofs.Conversation
import Interdomain.Proofs.Courses

/-! The walk of a negotiation over the addresses of its destination. It tries each of them once and in order: the
first when it begins, and any other when the link to the one before is gone while something still waits. A failure
that no other address can help ends it at once. So it is over when as many links are gone as there were addresses;
what waited has then been handed over to the route, or has returned. -/
namespace Interdomain

open Protocol (Dialback)

/-- A negotiation stays at its address, and has failed only if it had. -/
structure Negotiation.Stands (n k : Negotiation) : Prop where
  addresses : k.addresses = n.addresses
  remaining : k.remaining = n.remaining
  link : k.link = n.link
  current : k.current = n.current
  sound : ¬ n.HasFailed → ¬ k.HasFailed

namespace Negotiation

variable {n k : Negotiation}

theorem Stands.refl (n : Negotiation) : n.Stands n := ⟨rfl, rfl, rfl, rfl, id⟩

theorem sendRequest_stands (n : Negotiation) (setup : Setup) (w : World) : n.Stands (n.sendRequest setup w).1 := by
  unfold sendRequest
  split
  · exact ⟨rfl, rfl, rfl, rfl, not_hasFailed_of_stage (by simp)⟩
  · exact ⟨rfl, rfl, rfl, rfl, id⟩

theorem want_stands (n : Negotiation) (setup : Setup) (w : World) : n.Stands (n.want setup w).1 := by
  unfold want
  split
  · exact ⟨rfl, rfl, rfl, rfl, id⟩
  · exact n.sendRequest_stands setup w
  · exact .refl n
  · exact .refl n

theorem Takes.stands {g : Gateway} (h : n.Takes g k) : n.Stands k := by
  cases h with
  | stanza e =>
    obtain ⟨addresses, remaining, link, current, sound⟩ := n.want_stands g.setup g.world
    exact ⟨addresses, remaining, link, current, sound⟩
  | verify v =>
    unfold addVerify
    split <;> exact ⟨rfl, rfl, rfl, rfl, id⟩

/-- A turn after which the negotiation goes on. -/
theorem stands_of_turn {w : World} {turn : Turn} (continues : turn.Continues n) (serves : turn.Serves n w)
    (rest : turn.rest = some k) : n.Stands k := by
  obtain ⟨verdict, rfl⟩ := Turn.of_rest rest
  exact ⟨continues.addresses, serves.remaining, serves.link, continues.current, continues.sound verdict⟩

theorem addresses_atNext (n : Negotiation) (error : Option String) (next : Candidate) (rest : List Candidate)
    (link : LinkId) (now : Nat) : ((n.noted error).atNext next rest link now).addresses = n.addresses ++ [next] := by
  have noted := n.addresses_noted error
  simp only [addresses] at noted
  simp [addresses, atNext, noted]

end Negotiation

namespace Moment.Course

variable {m : Moment} {r : Route} {n k : Negotiation}

/-- A negotiation that goes on stays at its address, or its link is gone and it has opened one to the next. -/
theorem goesOn (h : m.Course r (some n) (some k)) :
    (n.Stands k ∧ m.opened r = [] ∧ m.losesLink r = false) ∨
      ∃ error next rest link now, n.remaining = next :: rest ∧ k = (n.noted error).atNext next rest link now ∧
        n.refused = false ∧ m.opened r = [(k.link, k.current)] ∧ m.losesLink r = true := by
  generalize hk : some k = after at h
  cases h with
  | rests _ opens holds =>
    cases hk
    exact .inl ⟨.refl n, opens, holds (by simp)⟩
  | takes takes opens holds =>
    cases hk
    exact .inl ⟨takes.stands, opens, holds⟩
  | swept next opens holds =>
    split at hk
    · cases hk
    · cases hk
      exact .inl ⟨⟨rfl, rfl, rfl, rfl, id⟩, opens, holds⟩
  | turned operation attempt turns serves next opens holds =>
    exact .inl ⟨Negotiation.stands_of_turn (Gateway.turnOn_continues turns) serves hk.symm, opens, holds⟩
  | advances operation attempt remaining waits accepted atNext opens =>
    cases hk
    exact .inr ⟨_, _, _, _, _, remaining, atNext, accepted, opens, by simp [losesLink, operation, attempt]⟩
  | retires operation attempt stops next opens => cases hk

/-- Links are opened one at a time: to the next address, when the link is gone. -/
theorem opens {after : Option Negotiation} (h : m.Course r (some n) after) :
    (m.opened r).map (·.2) = if m.losesLink r && n.canRetry then n.remaining.take 1 else [] := by
  have quiet (opens : m.opened r = []) (holds : m.losesLink r = false) :
      (m.opened r).map (·.2) = if m.losesLink r && n.canRetry then n.remaining.take 1 else [] := by
    simp [opens, holds]
  cases h with
  | rests _ opens holds => exact quiet opens (holds (by simp))
  | takes takes opens holds => exact quiet opens holds
  | swept next opens holds => exact quiet opens holds
  | turned operation attempt turns serves next opens holds => exact quiet opens holds
  | advances operation attempt remaining waits accepted atNext opens =>
    have retry : n.canRetry = true := by simp [Negotiation.canRetry, remaining, waits, accepted]
    have lost : m.losesLink r = true := by simp [losesLink, operation, attempt]
    rw [opens, lost, retry, remaining, atNext]
    rfl
  | retires operation attempt stops next opens => simp [opens, stops]

/-- A negotiation that has just begun is on a link to the first of its addresses. -/
theorem begins (h : m.Course r none (some k)) :
    m.gateway.candidates r m.operation.resolved? = k.addresses ++ k.remaining ∧ k.addresses = [k.current] ∧
      ¬ k.HasFailed ∧ m.opened r = [(k.link, k.current)] ∧ m.losesLink r = false := by
  generalize hk : some k = after at h
  cases h with
  | rests _ opens holds => cases hk
  | starts list starts opens holds =>
    cases hk
    have sound : ¬ k.HasFailed := by
      cases starts <;> simp [Negotiation.HasFailed, Negotiation.fresh, Negotiation.enqueue]
    cases starts with
    | stanza e => exact ⟨list, rfl, sound, opens, holds⟩
    | verify v => exact ⟨list, rfl, sound, opens, holds⟩

end Moment.Course

/-- The walk of a negotiation that began at the moment `o` of a history: what it has tried and what is left are the
addresses for its route, and it has opened a link to each that it has tried, and lost all but the last. -/
structure Walk (h : List Moment) (r : Route) (n : Negotiation) (o : Nat) : Prop where
  began : Happens h o fun m => m.gateway.negotiations.get? r = none ∧
    m.gateway.candidates r m.operation.resolved? = n.addresses ++ n.remaining
  lasts : ∀ m ∈ h.drop (o + 1), m.gateway.negotiations.get? r ≠ none
  opened : ((h.drop o).flatMap (·.opened r)).map (·.2) = n.addresses
  current : ((h.drop o).flatMap (·.opened r)).getLast? = some (n.link, n.current)
  lost : (h.drop o).countP (·.losesLink r) + 1 = n.addresses.length

namespace Walk

variable {h : List Moment} {m : Moment} {r : Route} {n k : Negotiation} {o : Nat}

theorem drop_concat (hw : Walk h r n o) : (h ++ [m]).drop o = h.drop o ++ [m] :=
  List.drop_append_of_le_length (Nat.le_of_lt hw.began.lt_length)

/-- A walk goes on with the negotiation. -/
theorem goesOn (hw : Walk h r n o) (found : m.gateway.negotiations.get? r = some n)
    (course : m.Course r (some n) (some k)) : Walk (h ++ [m]) r k o := by
  have list (ha : k.addresses ++ k.remaining = n.addresses ++ n.remaining) : Happens (h ++ [m]) o fun m =>
      m.gateway.negotiations.get? r = none ∧
        m.gateway.candidates r m.operation.resolved? = k.addresses ++ k.remaining := by
    rw [ha]
    exact hw.began.append
  have lasts : ∀ x ∈ (h ++ [m]).drop (o + 1), x.gateway.negotiations.get? r ≠ none := by
    rw [List.drop_append_of_le_length hw.began.lt_length]
    intro x hx
    rcases List.mem_append.mp hx with hx | hx
    · exact hw.lasts x hx
    · rw [List.mem_singleton.mp hx, found]
      simp
  rcases course.goesOn with ⟨stands, opens, holds⟩ | ⟨error, next, rest, link, now, remaining, rfl, _, opens, lost⟩
  · refine ⟨list (by rw [stands.addresses, stands.remaining]), lasts, ?_, ?_, ?_⟩
    · simp [hw.drop_concat, opens, hw.opened, stands.addresses]
    · simp [hw.drop_concat, opens, hw.current, stands.link, stands.current]
    · simp [hw.drop_concat, holds, hw.lost, stands.addresses]
  · have addresses := n.addresses_atNext error next rest link now
    have current : ((n.noted error).atNext next rest link now).current = next := rfl
    refine ⟨list ?_, lasts, ?_, ?_, ?_⟩
    · rw [addresses, remaining, List.append_assoc]
      rfl
    · rw [hw.drop_concat, List.flatMap_append, List.map_append, hw.opened, addresses]
      simp [opens, current]
    · simp [hw.drop_concat, opens]
    · rw [addresses, hw.drop_concat, List.countP_append, List.length_append, ← hw.lost]
      simp [lost]

/-- A walk begins with the negotiation. -/
theorem begins (free : m.gateway.negotiations.get? r = none) (course : m.Course r none (some k)) :
    Walk (h ++ [m]) r k h.length := by
  obtain ⟨list, addresses, _, opens, holds⟩ := course.begins
  refine ⟨.last ⟨free, list⟩, by simp, ?_, ?_, ?_⟩
  · simp [opens, addresses]
  · simp [opens]
  · simp [holds, addresses]

/-- A walk has lost fewer links than there were addresses. -/
theorem lost_lt (hw : Walk h r n o) : (h.drop o).countP (·.losesLink r) < (n.addresses ++ n.remaining).length := by
  have lost := hw.lost
  rw [List.length_append]
  omega

end Walk

namespace Gateway

variable {g g' : Gateway} {r : Route} {n : Negotiation}

/-- The table of attempts lists the links of negotiations only. -/
def Pointed (g : Gateway) : Prop := ∀ t r, g.attempts.get? t = some r → g.Negotiates r t

theorem retire_attempts (hn : g.negotiations.get? r = some n) (linkGone : Bool) :
    (g.retire r linkGone).attempts = if linkGone then g.attempts else g.attempts.erase n.link := by
  rw [retire_eq hn, (return_keepsOutbound _ _ _ _).attempts]
  cases linkGone <;> rfl

theorem get?_setNegotiation_self (g : Gateway) (n : Negotiation) (w : World) :
    (g.setNegotiation n w).negotiations.get? n.route = some n := by
  simp [setNegotiation, Table.get?_insert]

theorem follow_attempts (g : Gateway) (t : Turn) :
    (g.follow t).attempts = if t.rest.isSome then g.attempts else g.attempts.erase t.negotiation.link := by
  have set := g.get?_setNegotiation_self t.negotiation t.world
  unfold follow
  dsimp only
  split
  · rename_i hv
    rw [Turn.rest, hv]
    rfl
  · rename_i hv
    obtain ⟨carrier, _, heq⟩ := establish_eq set
    rw [Turn.rest, hv, heq]
    exact setRoutes_attempts _ _
  · rename_i hv
    rw [Turn.rest, hv, retire_attempts set]
    rfl
  · rename_i hv
    rw [Turn.rest, hv, (onVerify_keepsOutbound _ _ _).attempts]
    rfl

namespace Pointed

theorem of_eq (hp : g.Pointed) (negotiations : g'.negotiations = g.negotiations)
    (attempts : ∀ t x, g'.attempts.get? t = some x → g.attempts.get? t = some x) : g'.Pointed := by
  intro t x ha
  rw [Negotiates, negotiations]
  exact hp t x (attempts t x ha)

/-- One negotiation is replaced, and what is listed for it is its link. -/
theorem replaces {o : Option Negotiation} (hp : g.Pointed) (replaces : Replaces g g' r o)
    (own : ∀ t, g'.attempts.get? t = some r → ∃ k, o = some k ∧ k.link = t)
    (others : ∀ t x, x ≠ r → g'.attempts.get? t = some x → g.attempts.get? t = some x) : g'.Pointed := by
  intro t x ha
  rw [Negotiates, replaces x]
  by_cases hx : x = r
  · subst hx
    rw [if_pos rfl]
    exact own t ha
  · rw [if_neg hx]
    exact hp t x (others t x hx ha)

/-- The link that is listed for a route is that of its negotiation. -/
theorem link_eq (hp : g.Pointed) (hn : g.negotiations.get? r = some n) {t : LinkId}
    (ha : g.attempts.get? t = some r) : n.link = t := by
  obtain ⟨k, hk, hl⟩ := hp t r ha
  rw [hn] at hk
  cases hk
  exact hl

/-- Once its link is erased nothing is listed for a negotiation. -/
theorem get?_erase_ne (hp : g.Pointed) (hn : g.negotiations.get? r = some n) (t : LinkId) :
    (g.attempts.erase n.link).get? t ≠ some r := by
  rw [Table.get?_erase]
  split
  · simp
  · rename_i other
    exact fun ha => other (hp.link_eq hn ha).symm

theorem submits (hp : g.Pointed) {resolved : Option String} (h : g.Submits resolved g') : g'.Pointed := by
  cases h with
  | still negotiations attempts opens => exact hp.of_eq negotiations fun t x => by rw [attempts]; exact id
  | takes found takes replaces attempts opens =>
    refine hp.replaces replaces (fun t ha => ⟨_, rfl, ?_⟩) fun t x _ => by rw [attempts]; exact id
    rw [attempts] at ha
    exact takes.stands.link.trans (hp.link_eq found ha)
  | @starts r first rest k free list starts replaces attempts opens =>
    have listed (t : LinkId) (x : Route) (ha : g'.attempts.get? t = some x) :
        t = k.link ∧ x = r ∨ g.attempts.get? t = some x := by
      rw [attempts, Table.get?_insert] at ha
      split at ha
      · cases ha
        exact .inl ⟨‹_›, rfl⟩
      · exact .inr ha
    refine hp.replaces replaces (fun t ha => ⟨k, rfl, ?_⟩) fun t x hx ha => ?_
    · rcases listed t r ha with ⟨rfl, _⟩ | before
      · rfl
      · obtain ⟨n, hn, _⟩ := hp t r before
        rw [free] at hn
        cases hn
    · exact (listed t x ha).resolve_left fun h => hx h.2

theorem swept (hp : g.Pointed) (now : Nat) : (g.swept now).Pointed := by
  intro t r ha
  obtain ⟨kept, listed⟩ : t ∉ (g.abandonedNegotiations now).map (·.2.link) ∧ g.attempts.get? t = some r := by
    rw [Gateway.swept, Table.get?_without] at ha
    split at ha
    · cases ha
    · exact ⟨‹_›, ha⟩
  obtain ⟨n, hn, rfl⟩ := hp t r listed
  have lasts : g.setup.settings.abandoned now n = false := by
    rw [Bool.eq_false_iff]
    intro abandoned
    exact kept (List.mem_map_of_mem (List.mem_filter.mpr ⟨Table.get?_eq_some.mp hn, abandoned⟩) : _)
  refine ⟨g.setup.settings.pruned now n, ?_, rfl⟩
  rw [get?_swept, hn, Option.bind_some, lasts]
  rfl

/-- A negotiation takes its turn, after which its link is listed if it goes on. -/
theorem follow (hp : g.Pointed) (hn : g.negotiations.get? n.route = some n) {turn : Turn}
    (serves : turn.Serves n g.world) : (g.follow turn).Pointed := by
  have replaces : Replaces g (g.follow turn) n.route turn.rest := by
    intro x
    rw [get?_follow, serves.route]
  have attempts := g.follow_attempts turn
  rw [serves.link] at attempts
  cases hr : turn.rest with
  | some k =>
    have link : k.link = n.link := (Turn.of_rest hr).2 ▸ serves.link
    rw [hr, Option.isSome_some, if_pos rfl] at attempts
    refine hp.replaces (hr ▸ replaces) (fun t ha => ⟨k, rfl, ?_⟩) fun t x _ => by rw [attempts]; exact id
    exact link.trans (hp.link_eq hn (attempts ▸ ha))
  | none =>
    rw [hr, Option.isSome_none, if_neg (by simp)] at attempts
    rw [hr] at replaces
    refine hp.replaces replaces (fun t ha => ?_) fun t x _ ha => ?_
    · exact absurd (attempts ▸ ha) (hp.get?_erase_ne hn t)
    · exact Table.get?_of_erase (attempts ▸ ha)

/-- The link of a negotiation is gone, and with it what is listed under it. -/
theorem passes (hp : g.Pointed) (hn : g.negotiations.get? n.route = some n) {error : Option String}
    (h : g.Passes n error g') : g'.Pointed := by
  cases h with
  | advances remaining waits accepted atNext replaces attempts opens =>
    refine hp.replaces replaces (fun t ha => ⟨_, rfl, ?_⟩) fun t x hx ha => ?_
    · rw [attempts, Table.get?_insert] at ha
      split at ha
      · exact Eq.symm ‹_›
      · exact absurd ha (hp.get?_erase_ne hn t)
    · rw [attempts, Table.get?_insert] at ha
      split at ha
      · cases ha
        exact absurd rfl hx
      · exact Table.get?_of_erase ha
  | retires stops retires =>
    have attempts : g'.attempts = g.attempts.erase n.link := by
      rw [retires, retire_attempts (g.get?_unlink n error)]
      rfl
    refine hp.replaces (retires ▸ g.unlink_retire_replaces n error) (fun t ha => ?_) fun t x _ ha => ?_
    · exact absurd (attempts ▸ ha) (hp.get?_erase_ne hn t)
    · exact Table.get?_of_erase (attempts ▸ ha)

theorem step (hp : g.Pointed) (ho : g.Orderly) (op : Operation) : (g.step op).Pointed := by
  have next : g.step op = (⟨g, op⟩ : Moment).next := rfl
  rw [next]
  cases step_moves ho op with
  | submits untried submits => exact hp.submits submits
  | swept operation swept opens => exact swept ▸ hp.swept _
  | forgotten operation attempt free forgotten =>
    rw [forgotten]
    exact hp.of_eq rfl fun _ _ => Table.get?_of_erase
  | @turned t event r n turn operation attempt found turns follows serves =>
    obtain rfl : n.route = r := ho.route r n found
    exact follows ▸ hp.follow found serves
  | @closed t error r n operation attempt found passes =>
    obtain rfl : n.route = r := ho.route r n found
    exact hp.passes found passes

end Pointed

/-- What waited on a negotiation returns: its stanzas bounce in order, and the claims that its requests are for are
settled as refused. -/
structure Returns (g g' : Gateway) (n : Negotiation) : Prop where
  bounced : ∃ reason, (n.stanzas.map (.bounce · reason)).Sublist (g'.world.since g.world)
  refused : ∀ v ∈ n.verifies, ∀ k t, Dialback.Names v k → g.IsOpen k t → Refused g g' k t

theorem retire_returns (hd : g.ClaimsDistinct) (hn : g.negotiations.get? r = some n) (linkGone : Bool) :
    Returns g (g.retire r linkGone) n := by
  refine ⟨⟨n.failureReason, ?_⟩, fun v hv k t names ho => retire_refused hd hn linkGone hv names ho⟩
  obtain ⟨discarded, hdiscarded⟩ : ∃ es, (g.discard r n linkGone).world.trace = g.world.trace ++ es := by
    cases linkGone
    · exact ⟨[.close n.link], rfl⟩
    · exact ⟨[], (List.append_nil _).symm⟩
  rw [retire_eq hn, foldl_bounce]
  generalize hb : (g.discard r n linkGone).act (·.emitAll (n.stanzas.map (.bounce · n.failureReason))) = bounced
  have trace : bounced.world.trace = g.world.trace ++ (discarded ++ n.stanzas.map (.bounce · n.failureReason)) := by
    rw [← hb, ← List.append_assoc, ← hdiscarded]
    rfl
  obtain ⟨failed, hfailed, _⟩ := (foldl_failVerify_fades bounced n.verifies).grows.calls
  rw [World.since, hfailed, trace, List.append_assoc, List.drop_left, List.append_assoc]
  exact (List.sublist_append_left _ failed).trans (List.sublist_append_right discarded _)

/-- What waited on a negotiation that has been replaced waits on the one that is there now. -/
theorem Returns.before {g₁ : Gateway} {k : Negotiation} {P Q : CallKind → Prop} (h : Returns g₁ g' k)
    (keeps : KeepsInbound g g₁) (grows : World.Grows P g.world g₁.world) (later : World.Grows Q g₁.world g'.world)
    (queue : k.queue = n.queue) (verifies : k.verifies = n.verifies) : Returns g g' n := by
  obtain ⟨reason, bounced⟩ := h.bounced
  refine ⟨⟨reason, ?_⟩, fun v hv c t names ho => ?_⟩
  · have stanzas : k.stanzas = n.stanzas := congrArg (List.map Waiting.stanza) queue
    have trace : g'.world.trace = g.world.trace ++ (g₁.world.since g.world ++ g'.world.since g₁.world) := by
      rw [← List.append_assoc, ← grows.since.1]
      exact later.since.1
    rw [World.since, trace, List.drop_left, ← stanzas]
    exact bounced.trans (List.sublist_append_right _ _)
  · exact (h.refused v (verifies ▸ hv) c t names (keeps.isOpen_iff.mpr ho)).before grows later

/-- Nothing waits on a negotiation that a sweep abandons but stanzas that have waited too long. -/
theorem swept_returns {now : Nat} (hn : g.negotiations.get? r = some n)
    (abandoned : g.setup.settings.abandoned now n = true) : Returns g (g.swept now) n := by
  obtain ⟨⟨queue, verifies⟩, -⟩ : ((∀ q ∈ n.queue, decide (g.setup.settings.queueTimeout ≤ now - q.since) = true) ∧
      n.verifies = []) ∧ n.ready = false := by
    simpa only [Settings.abandoned, Bool.and_eq_true, List.all_eq_true, decide_eq_true_eq] using abandoned
  refine ⟨⟨n.timeoutReason, ?_⟩, fun v hv => ?_⟩
  · have expired : g.setup.settings.expired now n = n.stanzas := by
      rw [Settings.expired, List.filter_eq_self.mpr queue]
      rfl
    have calls : (g.swept now).world.since g.world = g.sweepCalls now := by
      simp [World.since, swept, World.emitAll]
    rw [calls, ← expired]
    have own : ((g.setup.settings.expired now n).map (.bounce · n.timeoutReason)).Sublist
        (g.setup.settings.queueEnd now n) := List.sublist_append_left _ _
    refine own.trans (List.Sublist.trans ?_ (List.sublist_append_right _ _))
    exact List.sublist_flatten_of_mem (List.mem_map_of_mem (f := fun e : Route × Negotiation =>
      g.setup.settings.queueEnd now e.2) (Table.get?_eq_some.mp hn))
  · rw [verifies] at hv
    cases hv

/-- What waits on a negotiation returns when it gives up at an event. -/
theorem follow_returns (hd : g.ClaimsDistinct) {event : LinkEvent} {turn : Turn}
    (turns : g.turnOn n event = some turn) (serves : turn.Serves n g.world) (givesUp : turn.verdict = .giveUp) :
    Returns g (g.follow turn) n := by
  have set := g.get?_setNegotiation_self turn.negotiation turn.world
  rw [serves.route] at set
  have follows : g.follow turn = (g.setNegotiation turn.negotiation turn.world).retire n.route false := by
    simp only [follow, givesUp, serves.route]
  have keeps := g.setNegotiation_keepsInbound turn.negotiation turn.world
  have verifies : turn.negotiation.verifies = n.verifies := by
    rcases turnOn_flushes turns with ⟨same, _⟩ | ⟨proceeds, _⟩
    · exact same
    · rw [givesUp] at proceeds
      cases proceeds
  rw [follows]
  exact (retire_returns (keeps.claimsDistinct hd) set false).before keeps serves.grows (retire_fades _ _ _).grows
    serves.queue verifies

/-- A negotiation that ends at an event is authorized, or what waited on it returns. -/
theorem follow_concludes (hd : g.ClaimsDistinct) {event : LinkEvent} {turn : Turn}
    (turns : g.turnOn n event = some turn) (serves : turn.Serves n g.world) (ends : turn.rest = none) :
    (g.follow turn).Carries n.route n.link ∨ Returns g (g.follow turn) n := by
  unfold Turn.rest at ends
  split at ends
  · cases ends
  · cases ends
  · rename_i authorizes
    have set := g.get?_setNegotiation_self turn.negotiation turn.world
    rw [serves.route] at set
    have follows : g.follow turn = (g.setNegotiation turn.negotiation turn.world).establish n.route := by
      simp only [follow, authorizes, serves.route]
    obtain ⟨carrier, link, heq⟩ := establish_eq set
    rw [follows, heq]
    exact .inl ⟨carrier, by simp only [setRoutes_routes, Registry.get?_register, if_pos], link.trans serves.link⟩
  · exact .inr (follow_returns hd turns serves ‹_›)

theorem unlink_retire_returns (hd : g.ClaimsDistinct) (n : Negotiation) (error : Option String) :
    Returns g ((g.unlink n error).retire n.route true) n := by
  have keeps : KeepsInbound g (g.unlink n error) := ⟨rfl, rfl, rfl, rfl⟩
  exact (retire_returns (keeps.claimsDistinct hd) (g.get?_unlink n error) true).before (P := CallKind.IsPlain) keeps
    (.refl _) (retire_fades _ _ _).grows (n.queue_noted error) (n.verifies_noted error)

end Gateway

namespace Negotiation

variable (n : Negotiation) (setup : Setup) (w : World)

/-- The element ends the negotiation for good: it refuses the dialback that was requested, or SASL has failed. -/
inductive Dashes (e : Xml.Element) : Prop
  | refusal {answer} (element : e.is "result" Xml.Namespace.dialback = true) (request : n.request = .sentRequest)
      (stage : n.stage = .sentRequest) (reads : Dialback.ofElement e = .ok answer)
      (addressed : isAnswerTo n.route answer = true) (refuses : answer.isValid = false) : Dashes e
  | failure (element : e.is "failure" Xml.Namespace.sasl = true) : Dashes e

/-- An element that ends the negotiation for good leaves it failed. -/
theorem hasFailed_of_dashes {e : Xml.Element} (h : n.Dashes e) : (n.onElement setup w e).negotiation.HasFailed := by
  cases h with
  | @refusal answer element request stage reads addressed refuses =>
    have read : (Dialback.ofElement e).toOption.filter (isAnswerTo n.route) = some answer := by
      simp [reads, Except.toOption, addressed]
    rw [onElement_of_result element, onResult, if_neg (by simp [request, stage]), read]
    simp only [refuses, Bool.false_eq_true, if_false]
    exact .inr (.inl rfl)
  | failure element =>
    have named : e.name = "failure" ∧ e.ns = Xml.Namespace.sasl := by simpa [Xml.Element.is] using element
    have apart : Xml.Namespace.sasl ≠ Xml.Namespace.tls := by decide
    have failed : (n.onElement setup w e).negotiation.stage = .saslFailed := by
      simp [onElement, Xml.Element.is, named, apart, note]
    exact .inr (.inr failed)

end Negotiation

/-- The operation brings to a negotiation what ends it for good, or after which the policy refuses its stream. -/
inductive Moment.Defeats (m : Moment) (r : Route) (n : Negotiation) : Prop
  | dashed {t e} (operation : m.operation = .outbound t (.element e)) (attempt : m.gateway.attempts.get? t = some r)
      (dashes : n.Dashes e)
  | refused {t event turn} (operation : m.operation = .outbound t event)
      (attempt : m.gateway.attempts.get? t = some r) (turns : m.gateway.turnOn n event = some turn)
      (refused : turn.negotiation.refused = true)

namespace Gateway

variable {g : Gateway} {r : Route} {n : Negotiation} {op : Operation}

theorem step_of_turn {t : LinkId} {event : LinkEvent} {turn : Turn} (attempt : g.attempts.get? t = some r)
    (found : g.negotiations.get? r = some n) (turns : g.turnOn n event = some turn) :
    g.step (.outbound t event) = g.follow turn := by
  change g.onOutbound t event = g.follow turn
  simp only [onOutbound, attempt, found]
  cases event <;> cases turns <;> rfl

/-- A negotiation that is defeated is given up at once, and opens no other link. -/
theorem step_of_defeats (ho : g.Orderly) (hd : g.ClaimsDistinct) (found : g.negotiations.get? r = some n)
    (sound : ¬ n.HasFailed) (h : (⟨g, op⟩ : Moment).Defeats r n) :
    (g.step op).negotiations.get? r = none ∧ (⟨g, op⟩ : Moment).opened r = [] ∧ Returns g (g.step op) n := by
  obtain ⟨t, event, turn, operation, attempt, turns, failed⟩ : ∃ t event turn, op = .outbound t event ∧
      g.attempts.get? t = some r ∧ g.turnOn n event = some turn ∧ turn.negotiation.HasFailed := by
    cases h with
    | @dashed t e operation attempt dashes =>
      exact ⟨t, .element e, _, operation, attempt, rfl, n.hasFailed_of_dashes g.setup g.world dashes⟩
    | @refused t event turn operation attempt turns refused =>
      exact ⟨t, event, turn, operation, attempt, turns, .inl refused⟩
  have serves := turnOn_serves (ho.verifies r n found) turns
  have verdict : turn.verdict = .giveUp := by
    by_contra other
    exact (turnOn_continues turns).sound other sound failed
  have next : g.step op = g.follow turn := operation ▸ step_of_turn attempt found turns
  have opened : (⟨g, op⟩ : Moment).opened r = [] := by
    rw [Moment.opened, Moment.calls, Moment.next, next]
    exact follow_opensNone serves r
  rw [next]
  refine ⟨?_, opened, follow_returns hd turns serves verdict⟩
  rw [get?_follow, serves.route, ho.route r n found, if_pos rfl, Turn.rest, verdict]

/-- What the walks of all negotiations need and keep. -/
structure Walking (h : List Moment) (g : Gateway) : Prop where
  orderly : g.Orderly
  pointed : g.Pointed
  walk : ∀ r n, g.negotiations.get? r = some n → ¬ n.HasFailed ∧ ∃ o, Walk h r n o

theorem Walking.step {h : List Moment} (hw : Walking h g) (op : Operation) :
    Walking (h ++ [⟨g, op⟩]) (g.step op) := by
  refine ⟨(step_total hw.orderly op).1, hw.pointed.step hw.orderly op, fun r k hk => ?_⟩
  have course := step_course hw.orderly op r
  rw [hk] at course
  cases hn : g.negotiations.get? r with
  | none =>
    rw [hn] at course
    obtain ⟨_, _, sound, _⟩ := course.begins
    exact ⟨sound, h.length, .begins (m := ⟨g, op⟩) hn course⟩
  | some n =>
    rw [hn] at course
    obtain ⟨before, o, walk⟩ := hw.walk r n hn
    refine ⟨?_, o, walk.goesOn (m := ⟨g, op⟩) hn course⟩
    rcases course.goesOn with ⟨stands, _⟩ | ⟨error, next, rest, link, now, _, rfl, accepted, _⟩
    · exact stands.sound before
    · simp [Negotiation.HasFailed, Negotiation.atNext, accepted]

theorem run_walking (setup : Setup) (world : World) (ops : List Operation) :
    Walking ((initial setup world).history ops) ((initial setup world).run ops) := by
  refine run_induction (P := Walking) ⟨initial_orderly setup world, ?_, ?_⟩ (fun _ _ op hw => hw.step op) ops
  · intro t r ha
    cases ha
  · intro r n hn
    cases hn

/-- A negotiation that ends is authorized, or what waited on it returns. -/
theorem step_concludes (ho : g.Orderly) (hd : g.ClaimsDistinct) (found : g.negotiations.get? r = some n)
    (ends : (g.step op).negotiations.get? r = none) : (g.step op).Carries r n.link ∨ Returns g (g.step op) n := by
  have route : n.route = r := ho.route r n found
  have course := step_course ho op r
  rw [found, ends] at course
  have next : g.step op = (⟨g, op⟩ : Moment).next := rfl
  rw [next]
  generalize after : (none : Option Negotiation) = o at course
  cases course with
  | rests _ opens holds => cases after
  | takes takes opens holds => cases after
  | @swept _ now swept opens holds =>
    cases abandoned : g.setup.settings.abandoned now n with
    | true => exact .inr (swept ▸ swept_returns found abandoned)
    | false =>
      rw [abandoned] at after
      cases after
  | turned operation attempt turns serves follows opens holds =>
    rw [follows, ← route]
    exact follow_concludes hd turns serves after.symm
  | advances operation attempt remaining waits accepted atNext opens => cases after
  | @retires t error _ operation attempt stops retires opens =>
    rw [retires, ← route]
    exact .inr (g.unlink_retire_returns hd n error)

/-- A negotiation walks over its addresses once and in order, and goes on to the next exactly when its link is gone
and something still waits. A refusal ends it at once, and whenever it ends, what waited has gone out or returns. -/
theorem addresses_walked_once (setup : Setup) (world : World) (ops : List Operation) (r : Route) (n : Negotiation) :
    let g := (initial setup world).run ops
    let moments := (initial setup world).history ops
    g.negotiations.get? r = some n →
    (∃ o, Walk moments r n o ∧
      (moments.drop o).countP (·.losesLink r) < (n.addresses ++ n.remaining).length) ∧
    ¬ n.HasFailed ∧
    ∀ op, let m : Moment := ⟨g, op⟩
      (m.losesLink r = true → ∃ error, op = .outbound n.link (.closed error)) ∧
      (m.opened r).map (·.2) = (if m.losesLink r && !n.isIdle then n.remaining.take 1 else []) ∧
      (m.Defeats r n → m.next.negotiations.get? r = none ∧ m.opened r = [] ∧ Returns g m.next n) ∧
      (m.next.negotiations.get? r = none → m.Enters r n.link ∨ Returns g m.next n) := by
  intro g moments found
  obtain ⟨ho, hp, hwalk⟩ : Walking moments g := run_walking setup world ops
  have hd : g.ClaimsDistinct := (run_claimsDistinct setup world ops).2
  obtain ⟨sound, o, walk⟩ := hwalk r n found
  refine ⟨⟨o, walk, walk.lost_lt⟩, sound, fun op => ⟨fun lost => ?_, ?_, ?_, ?_⟩⟩
  · unfold Moment.losesLink at lost
    split at lost
    · rename_i t error operation
      have link : n.link = t := hp.link_eq found (by simpa using lost)
      exact ⟨error, link ▸ operation⟩
    · cases lost
  · have course := step_course ho op r
    rw [found] at course
    have accepted : n.refused = false := Bool.eq_false_iff.mpr fun refused => sound (.inl refused)
    rw [course.opens, Negotiation.canRetry, accepted]
    cases n.remaining <;> simp
  · exact step_of_defeats ho hd found sound
  · have uncarried : ¬ g.Carries r n.link := by
      rintro ⟨c, hc, _⟩
      rw [(run_inOrder setup world ops).2.apart r n found] at hc
      cases hc
    exact fun ends => (step_concludes ho hd found ends).imp_left fun carries => ⟨uncarried, carries⟩

/-- The link to the first of two addresses is gone. -/
def firstAddressGone : List Operation :=
  [.submit (sampleMessage "bob@b.example" "alice@a.example") (some "192.0.2.1,192.0.2.2"),
    .outbound 100 (.closed (some "refused"))]

theorem second_address_is_the_last :
    let r : Route := ⟨"b.example", "a.example"⟩
    let g := sample.run firstAddressGone
    ∃ n, g.negotiations.get? r = some n ∧ n.link = 101 ∧ n.remaining = [] ∧
      (∃ o, Walk (sample.history firstAddressGone) r n o ∧
        ((sample.history firstAddressGone).drop o).countP (·.losesLink r) < (n.addresses ++ n.remaining).length) ∧
      (⟨g, .outbound 101 (.closed none)⟩ : Moment).opened r = [] := by
  intro r g
  have negotiated : (g.negotiations.get? r).map (fun n => (n.link, n.remaining)) = some (101, []) := by decide +kernel
  obtain ⟨n, found, same⟩ := Option.map_eq_some_iff.mp negotiated
  obtain ⟨link, remaining⟩ := Prod.mk.inj same
  obtain ⟨walk, _, further⟩ := addresses_walked_once sample.setup sample.world firstAddressGone r n found
  refine ⟨n, found, link, remaining, walk, List.map_eq_nil_iff.mp ((further _).2.1.trans ?_)⟩
  rw [remaining]
  simp

end Gateway

end Interdomain
