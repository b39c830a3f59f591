import Interdomain.Proofs.Authorization
import Mathlib.Logic.ExistsUnique

/-! One connection for each pair of domains. A pair is negotiated, or has a route, or neither; and the two
tables in which the gateway looks up what a link is for list exactly the links of the negotiations and those
of the routes. So every link that it listens to belongs to one pair, and no link is opened for a pair that
has one. -/
namespace Interdomain

open Protocol (Dialback)

/-- No link is opened on behalf of a pair of domains if none is opened at all. -/
theorem World.Grows.not_opens {P : CallKind → Prop} {u v : World} (h : World.Grows P u v)
    (hp : ¬ P .connect) {t : LinkId} {r : Route} {address : Candidate} {timeout : Nat} :
    .connect t r address timeout ∉ v.since u :=
  fun hm => hp (h.since.2 _ hm)

/-- The operation tells that the link is gone. -/
def Moment.Ends (m : Moment) (t : LinkId) : Prop := ∃ error, m.operation = .outbound t (.closed error)

/-- The link was opened on behalf of the route, and has not gone since. -/
def StaysOpen (h : List Moment) (r : Route) (t : LinkId) : Prop :=
  ∃ o, Happens h o (·.Opens r t) ∧ ∀ k, o < k → ¬ Happens h k (·.Ends t)

theorem StaysOpen.concat {h : List Moment} {m : Moment} {r : Route} {t : LinkId} (hs : StaysOpen h r t)
    (he : ¬ m.Ends t) : StaysOpen (h ++ [m]) r t := by
  obtain ⟨o, ho, hk⟩ := hs
  refine ⟨o, ho.append, fun k hlt hends => ?_⟩
  rcases Happens.concat_iff.mp hends with hends | ⟨_, hends⟩
  · exact hk k hlt hends
  · exact he hends

theorem StaysOpen.last {h : List Moment} {m : Moment} {r : Route} {t : LinkId} (ho : m.Opens r t) :
    StaysOpen (h ++ [m]) r t := by
  refine ⟨h.length, Happens.last ho, fun k hlt hends => ?_⟩
  have hk := hends.lt_length
  simp only [List.length_append, List.length_singleton] at hk
  omega

/-- What a turn leaves of its negotiation: nothing if that is authorized, or given up. -/
def Turn.rest (t : Turn) : Option Negotiation :=
  match t.verdict with
  | .proceed | .verify _ => some t.negotiation
  | .authorize | .giveUp => none

namespace Gateway

variable {g g' : Gateway} {r : Route} {n : Negotiation}

/-- The route is negotiated on the link. -/
def Negotiates (g : Gateway) (r : Route) (t : LinkId) : Prop :=
  ∃ n, g.negotiations.get? r = some n ∧ n.link = t

/-- The link is there for the route. -/
def Tracks (g : Gateway) (r : Route) (t : LinkId) : Prop := g.Negotiates r t ∨ g.Carries r t

/-- No pair of domains is both negotiated and carried, and the links that carry routes are those of the
routes. -/
structure Exclusive (g : Gateway) : Prop where
  apart : ∀ r n t, g.negotiations.get? r = some n → ¬ g.Carries r t
  carried : ∀ t r, g.carried.get? t = some r ↔ g.Carries r t

/-- Every route stays on its link, and no other pair of domains is negotiated than before. -/
structure Retains (g g' : Gateway) : Prop where
  negotiation : ∀ r n', g'.negotiations.get? r = some n' → ∃ n, g.negotiations.get? r = some n
  route : ∀ r t, g'.Carries r t ↔ g.Carries r t
  carried : g'.carried = g.carried

namespace Retains

theorem refl (g : Gateway) : Retains g g := ⟨fun _ n h => ⟨n, h⟩, fun _ _ => .rfl, rfl⟩

theorem trans {f g h : Gateway} (a : Retains f g) (b : Retains g h) : Retains f h := by
  refine ⟨fun r n hn => ?_, fun r t => (b.route r t).trans (a.route r t), b.carried.trans a.carried⟩
  obtain ⟨n₁, h₁⟩ := b.negotiation r n hn
  exact a.negotiation r n₁ h₁

theorem exclusive (h : Retains g g') (he : g.Exclusive) : g'.Exclusive := by
  constructor
  · intro r n' t hn hc
    obtain ⟨n, hn⟩ := h.negotiation r n' hn
    exact he.apart r n t hn ((h.route r t).mp hc)
  · intro t r
    rw [h.carried, h.route]
    exact he.carried t r

/-- A negotiation changes. -/
theorem of_insert {m : Negotiation} (hn : g.negotiations.get? r = some n)
    (hg : g'.negotiations = g.negotiations.insert r m) (hr : g'.routes = g.routes)
    (hc : g'.carried = g.carried) : Retains g g' := by
  refine ⟨fun x k hk => ?_, fun x t => by simp only [Carries, hr], hc⟩
  rw [hg, Table.get?_insert] at hk
  split at hk
  · rename_i hx
    exact ⟨n, hx ▸ hn⟩
  · exact ⟨k, hk⟩

/-- A negotiation ends. -/
theorem of_erase (hg : g'.negotiations = g.negotiations.erase r) (hr : g'.routes = g.routes)
    (hc : g'.carried = g.carried) : Retains g g' := by
  refine ⟨fun x k hk => ?_, fun x t => by simp only [Carries, hr], hc⟩
  rw [hg, Table.get?_erase] at hk
  split at hk
  · cases hk
  · exact ⟨k, hk⟩

end Retains

theorem KeepsOutbound.retains (h : KeepsOutbound g g') : Retains g g' :=
  ⟨fun _ n hn => ⟨n, h.negotiations ▸ hn⟩, fun r t => by simp only [Carries, h.routes], h.carried⟩

theorem setNegotiation_retains {t : Turn} (hn : g.negotiations.get? n.route = some n)
    (hs : t.Serves n g.world) : Retains g (g.setNegotiation t.negotiation t.world) := by
  refine .of_insert (m := t.negotiation) hn ?_ rfl rfl
  rw [← hs.route]
  rfl

theorem hold_retains (hn : g.negotiations.get? n.route = some n) (stanza : Xml.Element) :
    Retains g (g.hold n stanza).1 := by
  unfold hold
  split
  · unfold Negotiation.addVerify
    dsimp only
    split
    · exact .of_insert (m := n) hn rfl rfl rfl
    · exact .of_insert (m := { n with verifies := n.verifies ++ [stanza] }) hn rfl rfl rfl
  · exact .of_insert (m := n.enqueue stanza g.now) hn rfl rfl rfl

theorem carryRoute_retains (g : Gateway) (route : Route) :
    Retains g { g with routes := g.routes.modify route (·.carry g.now) } := by
  refine ⟨fun _ n h => ⟨n, h⟩, fun r t => ?_, rfl⟩
  simp only [Carries, Registry.get?_modify]
  split
  · cases g.routes.get? r <;> simp [Carrier.carry]
  · rfl

/-- What waited for a negotiation that is given up returns to its senders. -/
theorem return_keepsOutbound (g : Gateway) (stanzas verifies : List Xml.Element) (reason : BounceReason) :
    KeepsOutbound g (verifies.foldl failVerify
      (stanzas.foldl (fun g s => g.emit (.bounce s reason)) g)) :=
  (g.foldl_bounce_keepsOutbound stanzas reason).trans (foldl_failVerify_keepsOutbound _ verifies)

theorem retire_retains (g : Gateway) (route : Route) (linkGone : Bool) :
    Retains g (g.retire route linkGone) := by
  cases hn : g.negotiations.get? route with
  | none =>
    rw [retire, hn]
    exact .refl g
  | some n =>
    have hd : Retains g (g.discard route n linkGone) := by
      cases linkGone <;> exact .of_erase (r := route) rfl rfl rfl
    rw [retire_eq hn]
    exact hd.trans (return_keepsOutbound _ _ _ _).retains

theorem sweepQueue_retains (ho : g.Orderly) (now : Nat) (route : Route) :
    Retains g (sweepQueue now g route).1 := by
  refine sweepQueue_relation .refl (fun _ _ _ => .trans) (fun n hn => ?_)
    (fun g stanzas reason => (g.return_keepsOutbound stanzas [] reason).retains)
    fun g _ _ _ => g.retire_retains route false
  refine .of_insert (m := n.dropExpired now g.setup.settings.queueTimeout) hn ?_ rfl rfl
  rw [← ho.route route n hn]
  rfl

/-- A link that carries a route carries no other one. -/
theorem Exclusive.route_eq (he : g.Exclusive) {x : Route} {t : LinkId} (hr : g.Carries r t)
    (hx : g.Carries x t) : x = r := by
  have h := (he.carried t r).mpr hr
  rw [(he.carried t x).mpr hx] at h
  exact Option.some.inj h

/-- A route ends, and its link is forgotten. -/
theorem Exclusive.forget (he : g.Exclusive) {t : LinkId} (hr : g.Carries r t)
    (hn : g'.negotiations = g.negotiations)
    (hroutes : ∀ x, g'.routes.get? x = if x = r then none else g.routes.get? x)
    (hc : g'.carried = g.carried.erase t) : g'.Exclusive := by
  have carries (x : Route) (u : LinkId) : g'.Carries x u ↔ x ≠ r ∧ g.Carries x u := by
    simp only [Carries, hroutes]
    by_cases hx : x = r <;> simp [hx]
  constructor
  · intro x n u h hc
    exact he.apart x n u (hn ▸ h) ((carries x u).mp hc).2
  · intro u x
    rw [hc, Table.get?_erase, carries]
    by_cases hu : u = t
    · rw [if_pos hu]
      constructor
      · intro h
        cases h
      · rintro ⟨hx, hcarries⟩
        exact absurd (he.route_eq hr (hu ▸ hcarries)) hx
    · rw [if_neg hu, he.carried]
      refine ⟨fun h => ⟨?_, h⟩, And.right⟩
      rintro rfl
      obtain ⟨c, found, hl⟩ := h
      obtain ⟨c', found', hl'⟩ := hr
      rw [found] at found'
      cases found'
      exact hu (hl.symm.trans hl')

theorem releaseRoute_exclusive (he : g.Exclusive) (route : Route) : (g.releaseRoute route).1.Exclusive := by
  unfold releaseRoute
  split
  · exact he
  · rename_i carrier hc
    refine he.forget (r := route) (t := carrier.link) ⟨carrier, hc, rfl⟩ (setRoutes_negotiations _ _) ?_ ?_
    · intro x
      simp only [act, setRoutes_routes, Registry.get?_unregister]
    · simp only [act, setRoutes_carried]

theorem dropRoute_exclusive (he : g.Exclusive) {t : LinkId} (hr : g.Carries r t) :
    (g.dropRoute r t).Exclusive := by
  refine he.forget hr (setRoutes_negotiations _ _) ?_ (setRoutes_carried _ _)
  intro x
  simp only [dropRoute, setRoutes_routes, Registry.get?_unregisterWhere]
  obtain ⟨c, hc, hl⟩ := hr
  by_cases hx : x = r
  · simp [hx, hc, hl, Option.filter]
  · cases g.routes.get? x <;> simp [hx, Option.filter]

/-- A negotiation on a link of its own becomes a route. -/
theorem establish_exclusive (he : g.Exclusive) (hn : g.negotiations.get? r = some n)
    (own : ∀ x, ¬ g.Carries x n.link) : (g.establish r).Exclusive := by
  obtain ⟨carrier, hl, heq⟩ := establish_eq hn
  have hnegotiations : (g.establish r).negotiations = g.negotiations.erase r := by
    rw [heq]
    exact setRoutes_negotiations _ _
  have hcarried : (g.establish r).carried = g.carried.insert n.link r := by rw [heq]
  have carries (x : Route) (t : LinkId) :
      (g.establish r).Carries x t ↔ if x = r then n.link = t else g.Carries x t := by
    rw [heq]
    simp only [Carries, setRoutes_routes, Registry.get?_register]
    by_cases hx : x = r <;> simp [hx, hl]
  constructor
  · intro x k t hk hc
    rw [hnegotiations, Table.get?_erase] at hk
    split at hk
    · cases hk
    · rename_i hx
      rw [carries, if_neg hx] at hc
      exact he.apart x k t hk hc
  · intro t x
    rw [hcarried, Table.get?_insert, carries]
    by_cases ht : t = n.link
    · rw [if_pos ht, ht]
      by_cases hx : x = r
      · simp [hx]
      · simp [hx, Ne.symm hx, own x]
    · rw [if_neg ht, he.carried]
      by_cases hx : x = r
      · rw [if_pos hx, hx]
        exact iff_of_false (he.apart r n t hn) (Ne.symm ht)
      · rw [if_neg hx]

/-- A negotiation begins for a pair of domains without a route. -/
theorem putNegotiation_exclusive (he : g.Exclusive) {w : World} (unrouted : g.routes.get? n.route = none) :
    (g.putNegotiation n w).Exclusive := by
  refine ⟨fun x k t hk hc => ?_, he.carried⟩
  simp only [putNegotiation, Table.get?_insert] at hk
  split at hk
  · rename_i hx
    obtain ⟨c, hc, _⟩ := hc
    have hc : g.routes.get? x = some c := hc
    rw [hx, unrouted] at hc
    cases hc
  · exact he.apart x k t hk hc

theorem SubmitStep.exclusive {stanza : Xml.Element} {s : Gateway × Delivery} (h : g.SubmitStep stanza s)
    (ho : g.Orderly) (he : g.Exclusive) : s.1.Exclusive := by
  cases h with
  | @carried r c _ _ =>
    exact Retains.exclusive (g := g) ⟨fun _ n hn => ⟨n, hn⟩, (g.carryRoute_retains r).route, rfl⟩ he
  | @asked r n _ _ found =>
    have hr := ho.route r n found
    have hs : Retains g (g.setNegotiation n g.world) :=
      .of_insert (m := n) found (by rw [← hr]; rfl) rfl rfl
    exact (hs.trans (hold_retains (by simp [setNegotiation, Table.get?_insert]) stanza)).exclusive he
  | @joined r n _ _ found =>
    have hn : g.negotiations.get? n.route = some n := by rw [ho.route r n found, found]
    have hs := setNegotiation_retains hn (n.want_serves g.setup g.world)
    exact (hs.trans (hold_retains (by simp [setNegotiation, Table.get?_insert]) stanza)).exclusive he
  | began _ _ unrouted _ _ _ =>
    exact (hold_retains (by simp [putNegotiation, Table.get?_insert]) stanza).exclusive
      (putNegotiation_exclusive he unrouted)
  | refused _ _ _ => exact (g.failVerify_keepsOutbound _).retains.exclusive he
  | dropped _ _ => exact he
  | returned _ => exact ⟨he.apart, he.carried⟩

theorem follow_exclusive (hi : g.Indexed) (he : g.Exclusive) (hn : g.negotiations.get? n.route = some n)
    {t : Turn} (hs : t.Serves n g.world) : (g.follow t).Exclusive := by
  have hset := setNegotiation_retains hn hs
  have hset' := hset.exclusive he
  unfold follow
  dsimp only
  split
  · exact hset'
  · refine establish_exclusive (n := t.negotiation) hset' (by simp [setNegotiation, Table.get?_insert]) ?_
    intro x hc
    rw [hset.route, hs.link] at hc
    obtain ⟨c, hc, hl⟩ := hc
    exact hi.link_ne_carrier hn hc hl.symm
  · exact (retire_retains _ _ _).exclusive hset'
  · exact (onVerify_keepsOutbound _ _ _).retains.exclusive hset'

/-- What becomes of a negotiation whose link is gone: it goes on to its next address, or it is given up. -/
inductive ClosedStep (g : Gateway) (n : Negotiation) : Gateway → Prop
  | advanced {m k w} (route : m.route = n.route) (link : m.link = n.link) (verifies : m.verifies = n.verifies)
      (advances : m.advance? g.setup g.world = some (k, w)) (queue : m.queue = n.queue) :
      ClosedStep g n ({ g.setNegotiation m g.world with attempts := g.attempts.erase m.link }.putNegotiation k w)
  | retired {m} (route : m.route = n.route) (link : m.link = n.link) (verifies : m.verifies = n.verifies)
      (queue : m.queue = n.queue) : ClosedStep g n
        ({ g.setNegotiation m g.world with attempts := g.attempts.erase m.link }.retire m.route true)

theorem onAttemptClosed_step (g : Gateway) (n : Negotiation) (error : Option String) :
    g.ClosedStep n (g.onAttemptClosed n error) := by
  have noted (m : Negotiation) (hr : m.route = n.route) (hl : m.link = n.link)
      (hv : m.verifies = n.verifies) (hq : m.queue = n.queue) : g.ClosedStep n
        ({ g.setNegotiation m g.world with attempts := g.attempts.erase m.link }.advance m) := by
    unfold advance
    split
    · split
      · exact .advanced hr hl hv ‹_› hq
      · exact .retired hr hl hv hq
    · exact .retired hr hl hv hq
  unfold onAttemptClosed
  cases error with
  | none => exact noted n rfl rfl rfl rfl
  | some text => exact noted (n.note text) rfl rfl rfl rfl

theorem ClosedStep.retains (h : g.ClosedStep n g') (hn : g.negotiations.get? n.route = some n) :
    Retains g g' := by
  have set (m : Negotiation) (hr : m.route = n.route) :
      Retains g { g.setNegotiation m g.world with attempts := g.attempts.erase m.link } :=
    .of_insert (m := m) (by rw [hr]; exact hn) rfl rfl rfl
  cases h with
  | @advanced m k w route link verifies advances _ =>
    obtain ⟨_, hk, _⟩ := Negotiation.advance?_begins advances
    refine (set m route).trans (.of_insert (r := k.route) (n := m) (m := k) ?_ rfl rfl rfl)
    simp [hk, setNegotiation, Table.get?_insert]
  | @retired m route link verifies _ => exact (set m route).trans (retire_retains _ _ _)

/-- The other negotiations stay as they are. -/
theorem ClosedStep.get?_other (h : g.ClosedStep n g') (hr : r ≠ n.route) :
    g'.negotiations.get? r = g.negotiations.get? r := by
  cases h with
  | @advanced m k w route _ _ advances _ =>
    obtain ⟨_, hk, _⟩ := Negotiation.advance?_begins advances
    simp [putNegotiation, setNegotiation, Table.get?_insert, hk, route, hr]
  | @retired m route _ _ _ =>
    rw [retire_eq (n := m) (by simp [setNegotiation, Table.get?_insert]),
      (return_keepsOutbound _ _ _ _).negotiations, discard_negotiations]
    simp [setNegotiation, Table.get?_erase, Table.get?_insert, route, hr]

theorem onRoute_exclusive (he : g.Exclusive) {t : LinkId} (hr : g.Carries r t) (event : LinkEvent) :
    (g.onRoute r t event).Exclusive := by
  unfold onRoute
  split
  · exact he
  · exact he
  · exact dropRoute_exclusive he hr
  · have acted (f : World → World) : ((g.act f).dropRoute r t).Exclusive :=
      dropRoute_exclusive ((g.act_keepsOutbound f).retains.exclusive he) hr
    split
    · exact ((carryRoute_retains g r).trans (onVerify_keepsOutbound _ _ _).retains).exclusive he
    · split <;> exact acted _

/-- What follows a turn of a negotiation leaves the others alone. -/
theorem get?_follow (g : Gateway) (t : Turn) (r : Route) : (g.follow t).negotiations.get? r =
    if r = t.negotiation.route then t.rest else g.negotiations.get? r := by
  have set : (g.setNegotiation t.negotiation t.world).negotiations.get? t.negotiation.route =
      some t.negotiation := by simp [setNegotiation, Table.get?_insert]
  unfold follow
  dsimp only
  split
  · rename_i hv
    rw [Turn.rest, hv, setNegotiation, Table.get?_insert]
  · rename_i hv
    obtain ⟨carrier, _, heq⟩ := establish_eq set
    rw [Turn.rest, hv, heq]
    simp only [setRoutes_negotiations, handOver, setNegotiation, Table.erase_insert, Table.get?_erase]
  · rename_i hv
    rw [Turn.rest, hv, retire_eq set, (return_keepsOutbound _ _ _ _).negotiations, discard_negotiations]
    simp only [setNegotiation, Table.erase_insert, Table.get?_erase]
  · rename_i hv
    rw [Turn.rest, hv, (onVerify_keepsOutbound _ _ _).negotiations, setNegotiation, Table.get?_insert]

/-- The turn of a negotiation at an event, unless its link is gone. -/
def turnOn (g : Gateway) (n : Negotiation) : LinkEvent → Option Turn
  | .connected => n.onConnected g.setup g.world
  | .header header => n.onHeader g.setup g.world header g.challenges.contains
  | .element e => n.onElement g.setup g.world e
  | .closed _ => none

theorem turnOn_serves (hv : ∀ v ∈ n.verifies, Dialback.isVerify v = true) {event : LinkEvent} {turn : Turn}
    (h : g.turnOn n event = some turn) : turn.Serves n g.world := by
  cases event with
  | connected =>
    cases h
    exact n.onConnected_serves g.setup g.world
  | header header =>
    cases h
    exact n.onHeader_serves g.setup g.world hv header _
  | element e =>
    cases h
    exact n.onElement_serves g.setup g.world hv e
  | closed error => cases h

/-- What an event on an outbound link does: it is the turn of the negotiation on the link, unless the link is
gone, or it is for the route on the link. Events on any other link are ignored. -/
inductive OutboundStep (g : Gateway) (t : LinkId) (event : LinkEvent) : Prop
  | turned {n : Negotiation} {turn : Turn} (found : g.negotiations.get? n.route = some n) (link : n.link = t)
      (turns : g.turnOn n event = some turn) (serves : turn.Serves n g.world)
      (follows : g.onOutbound t event = g.follow turn)
  | gone {n : Negotiation} (found : g.negotiations.get? n.route = some n) (link : n.link = t)
      (closed : ∃ error, event = .closed error) (step : g.ClosedStep n (g.onOutbound t event))
  | carried {r : Route} (carries : g.Carries r t) (onRoute : g.onOutbound t event = g.onRoute r t event)
  | ignored (untracked : ∀ r, ¬ g.Tracks r t) (still : g.onOutbound t event = g)

theorem onOutbound_step (ho : g.Orderly) (hi : g.Indexed) (he : g.Exclusive) (t : LinkId)
    (event : LinkEvent) : g.OutboundStep t event := by
  cases ha : g.attempts.get? t with
  | some route =>
    obtain ⟨n, hn, hl⟩ := (hi.attempts t route).mp ha
    have hr := ho.route _ n hn
    have heq : g.onOutbound t event = g.onAttempt n event := by
      simp only [onOutbound, ha, hn]
    subst hr
    have turned {turn : Turn} (turns : g.turnOn n event = some turn)
        (follows : g.onAttempt n event = g.follow turn) : g.OutboundStep t event :=
      .turned hn hl turns (turnOn_serves (ho.verifies _ n hn) turns) (heq.trans follows)
    cases event with
    | connected => exact turned rfl rfl
    | header header => exact turned rfl rfl
    | element e => exact turned rfl rfl
    | closed error => exact .gone hn hl ⟨error, rfl⟩ (heq ▸ g.onAttemptClosed_step n error)
  | none =>
    cases hc : g.carried.get? t with
    | some route => exact .carried ((he.carried t route).mp hc) (by simp only [onOutbound, ha, hc])
    | none =>
      refine .ignored ?_ (by simp only [onOutbound, ha, hc])
      rintro r (hr | hr)
      · rw [Negotiates, ← hi.attempts, ha] at hr
        cases hr
      · rw [← he.carried, hc] at hr
        cases hr

theorem onOutbound_exclusive (ho : g.Orderly) (hi : g.Indexed) (he : g.Exclusive) (t : LinkId)
    (event : LinkEvent) : (g.onOutbound t event).Exclusive := by
  cases g.onOutbound_step ho hi he t event with
  | turned found _ _ serves heq =>
    rw [heq]
    exact follow_exclusive hi he found serves
  | gone found _ _ step => exact (step.retains found).exclusive he
  | carried carries heq =>
    rw [heq]
    exact onRoute_exclusive he carries event
  | ignored _ heq =>
    rw [heq]
    exact he

theorem sweepAt_exclusive (ho : g.Orderly) (he : g.Exclusive) (now : Nat) : (g.sweepAt now).1.Exclusive :=
  ho.sweepAt_relation (R := fun g g' => g.Exclusive → g'.Exclusive) (fun _ => id) (fun _ _ _ a b => b ∘ a)
    (fun _ _ _ hk => hk.retains.exclusive) (fun _ route he => releaseRoute_exclusive he route)
    (fun _ ho route => (sweepQueue_retains ho now route).exclusive) he

theorem step_exclusive (ho : g.Orderly) (hi : g.Indexed) (he : g.Exclusive) (op : Operation) :
    (g.step op).Exclusive := by
  cases op with
  | submit stanza resolved =>
    rw [step_submit]
    exact (g.submit_step stanza resolved).exclusive ho he
  | inbound link event =>
    change (g.onInbound link event).Exclusive
    rcases (g.onInbound_step link event).answers with ⟨hk, _⟩ | ⟨e, claim, key, _, _, heq⟩
    · exact hk.retains.exclusive he
    · have hopen : (g.openClaim claim).Exclusive := ⟨he.apart, he.carried⟩
      rw [heq]
      unfold dispatchVerify
      split
      · exact ((g.openClaim claim).submit_step _ none).exclusive ⟨ho.route, ho.verifies⟩ hopen
      · exact ⟨hopen.apart, hopen.carried⟩
  | outbound link event => exact onOutbound_exclusive ho hi he link event
  | sweep ahead =>
    rw [step_sweep]
    exact sweepAt_exclusive ho he _
  | releaseRoute route =>
    rw [step_releaseRoute]
    exact releaseRoute_exclusive he route
  | releaseClaim claim =>
    rw [step_releaseClaim]
    exact (g.releaseClaim_keepsOutbound claim).retains.exclusive he
  | wait duration => exact (g.wait_keepsOutbound duration).retains.exclusive he
  | learn link facts => exact (g.learn_keepsOutbound link facts).retains.exclusive he

/-- A submission opens a link only for a pair of domains that has no connection. -/
theorem SubmitStep.opens {stanza : Xml.Element} {s : Gateway × Delivery} (h : g.SubmitStep stanza s)
    {t : LinkId} {address : Candidate} {timeout : Nat}
    (ho : .connect t r address timeout ∈ s.1.world.since g.world) :
    g.negotiations.get? r = none ∧ g.routes.get? r = none := by
  have none {P : CallKind → Prop} {w : World} (hw : World.Grows P g.world w) (hp : ¬ P .connect)
      (hs : s.1.world = w) : g.negotiations.get? r = none ∧ g.routes.get? r = none :=
    absurd (hs ▸ ho) (hw.not_opens hp)
  cases h with
  | @carried x c _ _ =>
    exact none (P := (· ≠ .connect))
      (World.grows_sendElement _ c.link (CallKind.ofElement_ne_connect stanza)) (by simp) rfl
  | @asked x n _ _ _ =>
    exact none ((g.setNegotiation n g.world).hold_grows n stanza) (by simp [CallKind.IsPlain]) rfl
  | @joined x n _ _ _ =>
    refine none ((n.want_serves g.setup g.world).grows.trans ?_) (by simp [CallKind.IsTurn]) rfl
    exact (hold_grows (g.setNegotiation _ (n.want g.setup g.world).2) _ stanza).mono fun _ => .inl
  | @began n w _ free unrouted begins _ _ =>
    have hw := begins.grows
    obtain ⟨a, b, rfl, _⟩ := begins.opens
    have hh := hold_grows (g.putNegotiation n (g.world.connect n.route a b).1) n stanza
    rcases (hw.mem_since_iff hh).mp ho with hm | hm
    · simp only [World.since, World.connect, World.emit, List.drop_left, List.mem_singleton,
        Effect.connect.injEq] at hm
      rw [hm.2.1]
      exact ⟨free, unrouted⟩
    · exact absurd hm (hh.not_opens (by simp [CallKind.IsPlain]))
  | refused _ _ _ => exact none (g.failVerify_fades _).grows (by simp [CallKind.IsPlain]) rfl
  | dropped _ _ => exact none (P := CallKind.IsPlain) (.refl _) (by simp [CallKind.IsPlain]) rfl
  | returned _ => exact none (g.bounce_fades _ _).grows (by simp [CallKind.IsReturn]) rfl

/-- What follows a turn of a negotiation opens no link. -/
theorem grows_follow (g : Gateway) (t : Turn) : World.Grows (· ≠ .connect) t.world (g.follow t).world := by
  have hw : World.Grows (· ≠ .connect) t.world (g.setNegotiation t.negotiation t.world).world := .refl _
  unfold follow
  dsimp only
  split
  · exact hw
  · exact hw.trans (establish_grows _ _)
  · exact hw.trans ((retire_fades _ _ _).grows.mono (by rintro k (rfl | rfl) <;> simp))
  · exact hw.trans ((onVerify_grows _ _ _).mono (by rintro k (rfl | rfl) <;> simp))

theorem follow_grows {t : Turn} (hs : t.Serves n g.world) :
    World.Grows (· ≠ .connect) g.world (g.follow t).world :=
  (hs.grows.mono (by rintro k (rfl | rfl) <;> simp)).trans (g.grows_follow t)

/-- A negotiation whose link is gone opens at most its next one. -/
theorem ClosedStep.opens (h : g.ClosedStep n g') {t : LinkId} {address : Candidate} {timeout : Nat}
    (ho : .connect t r address timeout ∈ g'.world.since g.world) : r = n.route := by
  cases h with
  | @advanced m k w route _ _ advances _ =>
    obtain ⟨begins, hk, _⟩ := Negotiation.advance?_begins advances
    obtain ⟨a, b, rfl, _⟩ := begins.opens
    simp only [putNegotiation, World.since, World.connect, World.emit, List.drop_left, List.mem_singleton,
      Effect.connect.injEq] at ho
    rw [ho.2.1, hk, route]
  | retired _ _ _ _ =>
    exact absurd ho ((retire_fades _ _ _).grows.not_opens (by simp [CallKind.IsReturn]))

/-- A pair of domains needs a link if it has no connection, or if the link on which it is negotiated has just
gone. -/
def NeedsLink (g : Gateway) (r : Route) (op : Operation) : Prop :=
  (∀ u, ¬ g.Carries r u) ∧ ∀ u, g.Negotiates r u → ∃ error, op = .outbound u (.closed error)

/-- A link is opened for a pair of domains only if it needs one. -/
theorem step_opens (ho : g.Orderly) (hi : g.Indexed) (he : g.Exclusive) {op : Operation} {t : LinkId}
    (opens : (⟨g, op⟩ : Moment).Opens r t) : g.NeedsLink r op := by
  obtain ⟨address, timeout, hm⟩ := opens
  have free (h : g.negotiations.get? r = none ∧ g.routes.get? r = none) : g.NeedsLink r op := by
    constructor
    · rintro u ⟨c, hc, _⟩
      rw [h.2] at hc
      cases hc
    · rintro u ⟨n, hn, _⟩
      rw [h.1] at hn
      cases hn
  have none {P : CallKind → Prop} (hw : World.Grows P g.world (g.step op).world) (hp : ¬ P .connect) :
      g.NeedsLink r op := absurd hm (hw.not_opens hp)
  cases op with
  | submit stanza resolved =>
    change .connect t r address timeout ∈ (g.step (.submit stanza resolved)).world.since g.world at hm
    rw [step_submit] at hm
    exact free ((g.submit_step stanza resolved).opens hm)
  | inbound link event =>
    change .connect t r address timeout ∈ (g.onInbound link event).world.since g.world at hm
    rcases (g.onInbound_step link event).answers with ⟨_, hw⟩ | ⟨e, claim, key, _, _, heq⟩
    · exact none hw (by simp [CallKind.IsAnswer, CallKind.IsVerdict])
    · rw [heq] at hm
      unfold dispatchVerify at hm
      split at hm
      · exact free (((g.openClaim claim).submit_step _ _).opens hm)
      · simp [emit, act, openClaim, World.since] at hm
  | outbound link event =>
    change .connect t r address timeout ∈ (g.onOutbound link event).world.since g.world at hm
    cases g.onOutbound_step ho hi he link event with
    | turned _ _ _ serves heq =>
      rw [heq] at hm
      exact absurd hm ((follow_grows serves).not_opens (by simp))
    | @gone n found hl hclosed hstep =>
      cases hstep.opens hm
      refine ⟨fun u => he.apart _ n u found, ?_⟩
      rintro u ⟨k, hk, rfl⟩
      rw [found] at hk
      cases hk
      obtain ⟨error, rfl⟩ := hclosed
      exact ⟨error, by rw [hl]⟩
    | @carried x _ heq =>
      rw [heq] at hm
      exact absurd hm ((g.onRoute_dwindles x link event).grows.not_opens (by simp [CallKind.IsClosing]))
    | ignored _ heq =>
      rw [heq] at hm
      exact absurd hm ((World.Grows.refl (P := CallKind.IsPlain) _).not_opens (by simp [CallKind.IsPlain]))
  | sweep ahead =>
    rw [step_sweep] at none
    exact none (sweepAt_dwindles ho _).grows (by simp [CallKind.IsClosing])
  | releaseRoute route =>
    rw [step_releaseRoute] at none
    exact none (g.releaseRoute_dwindles route).grows (by simp [CallKind.IsClosing])
  | releaseClaim claim =>
    rw [step_releaseClaim] at none
    exact none (g.releaseClaim_fades claim).grows (by simp [CallKind.IsPlain])
  | wait duration => exact none (P := CallKind.IsPlain) (g.wait_fades duration).grows (by simp [CallKind.IsPlain])
  | learn link facts =>
    exact none (P := CallKind.IsPlain) (g.learn_fades link facts).grows (by simp [CallKind.IsPlain])

/-- The link of a route that ends is no longer there for any. -/
theorem dropRoute_untracked (hi : g.Indexed) (he : g.Exclusive) {t : LinkId} (hr : g.Carries r t) (x : Route) :
    ¬ (g.dropRoute r t).Tracks x t := by
  rintro (⟨n, hn, rfl⟩ | hc)
  · obtain ⟨c, found, hl⟩ := hr
    have hd : (g.dropRoute r n.link).negotiations = g.negotiations := setRoutes_negotiations _ _
    exact hi.link_ne_carrier (hd ▸ hn) found hl.symm
  · have hi := ((dropRoute_exclusive he hr).carried t x).mpr hc
    have hd : (g.dropRoute r t).carried = g.carried.erase t := setRoutes_carried _ _
    rw [hd, Table.get?_erase, if_pos rfl] at hi
    cases hi

/-- The link that is gone is no longer tried. -/
theorem ClosedStep.attempts_gone (h : g.ClosedStep n g') (hi : g.Indexed)
    (hn : g.negotiations.get? n.route = some n) : g'.attempts.get? n.link = none := by
  cases h with
  | @advanced m k w _ link _ advances _ =>
    obtain ⟨begins, _⟩ := Negotiation.advance?_begins advances
    obtain ⟨_, _, _, hl⟩ := begins.opens
    have hne : n.link ≠ k.link := by
      intro h
      have hnext : g.attempts.get? k.link = none := hl ▸ hi.attempts_next
      rw [← h, hi.attempt hn] at hnext
      cases hnext
    simp [putNegotiation, Table.get?_insert, Table.get?_erase, hne, link]
  | @retired m _ link _ _ =>
    rw [retire_eq (n := m) (by simp [setNegotiation, Table.get?_insert]),
      (return_keepsOutbound _ _ _ _).attempts]
    simp [discard, Table.get?_erase, link]

/-- A link that is gone is no longer there for any route. -/
theorem closed_untracked (ho : g.Orderly) (hi : g.Indexed) (he : g.Exclusive) (t : LinkId)
    (error : Option String) (r : Route) : ¬ (g.step (.outbound t (.closed error))).Tracks r t := by
  have hnext := (step_proceeds ho hi (.outbound t (.closed error))).indexed
  change (g.onOutbound t (.closed error)).Indexed at hnext
  change ¬ (g.onOutbound t (.closed error)).Tracks r t
  cases g.onOutbound_step ho hi he t (.closed error) with
  | turned _ _ turns _ _ => cases turns
  | @gone n found hl _ step =>
    rintro (hn | hc)
    · have ha := (hnext.attempts t r).mpr hn
      have hgone := step.attempts_gone hi found
      rw [hl, ha] at hgone
      cases hgone
    · rw [(step.retains found).route] at hc
      obtain ⟨c, hc, hlc⟩ := hc
      exact hi.link_ne_carrier found hc (hl.trans hlc.symm)
  | carried carries heq =>
    rw [heq]
    exact dropRoute_untracked hi he carries r
  | ignored untracked heq =>
    rw [heq]
    exact untracked r

/-- What keeps the connections apart from one another. -/
structure Connected (h : List Moment) (g : Gateway) : Prop where
  orderly : g.Orderly
  indexed : g.Indexed
  exclusive : g.Exclusive
  stays : ∀ r t, g.Tracks r t → StaysOpen h r t

/-- A link that is there for a route was there for it before, or has just been opened. -/
theorem step_tracks (ho : g.Orderly) (hi : g.Indexed) {op : Operation} {t : LinkId}
    (ht : (g.step op).Tracks r t) : g.Tracks r t ∨ (⟨g, op⟩ : Moment).Opens r t := by
  have hp := step_proceeds ho hi op
  rcases ht with ⟨k, hk, rfl⟩ | ⟨c, hc, rfl⟩
  · cases hp.negotiation r k hk with
    | @goesOn n found keeps => exact .inl (.inl ⟨n, found, keeps.link.symm⟩)
    | begins opens _ _ _ _ => exact .inr opens
  · rcases hp.route r c hc with ⟨c₀, h₀, hl⟩ | ⟨n, _, _, _, found, hl, _⟩
    · exact .inl (.inr ⟨c₀, h₀, hl⟩)
    · exact .inl (.inl ⟨n, found, hl⟩)

theorem Connected.step {h : List Moment} (hc : Connected h g) (op : Operation) :
    Connected (h ++ [⟨g, op⟩]) (g.step op) := by
  obtain ⟨ho, hi, he, hopen⟩ := hc
  refine ⟨(step_total ho op).1, (step_proceeds ho hi op).indexed, step_exclusive ho hi he op, fun r t ht => ?_⟩
  have alive : ¬ (⟨g, op⟩ : Moment).Ends t := by
    rintro ⟨error, rfl⟩
    exact closed_untracked ho hi he t error r ht
  rcases step_tracks ho hi ht with before | opens
  · exact (hopen r t before).concat alive
  · exact .last opens

theorem initial_connected {setup : Setup} {world : World} (links : Function.Injective world.sources.linkId) :
    Connected [] (initial setup world) := by
  refine ⟨initial_orderly setup world, initial_indexed links, ⟨?_, ?_⟩, ?_⟩
  · intro r n t hn
    cases hn
  · intro t r
    refine iff_of_false (fun h => by cases h) ?_
    rintro ⟨c, hc, _⟩
    cases hc
  · rintro r t (⟨n, hn, _⟩ | ⟨c, hc, _⟩)
    · cases hn
    · cases hc

theorem run_connected (setup : Setup) (world : World) (links : Function.Injective world.sources.linkId)
    (ops : List Operation) :
    Connected ((initial setup world).history ops) ((initial setup world).run ops) :=
  run_induction (P := Connected) (initial_connected links) (fun _ _ op hc => hc.step op) ops

/-- A link is there for one route at most. -/
theorem Tracks.unique (hi : g.Indexed) (he : g.Exclusive) {x : Route} {t : LinkId} (hr : g.Tracks r t)
    (hx : g.Tracks x t) : x = r := by
  rcases hr with hr | hr <;> rcases hx with hx | hx
  · have h := (hi.attempts t r).mpr hr
    rw [(hi.attempts t x).mpr hx] at h
    exact Option.some.inj h
  · obtain ⟨n, hn, rfl⟩ := hr
    obtain ⟨c, hc, hl⟩ := hx
    exact absurd hl.symm (hi.link_ne_carrier hn hc)
  · obtain ⟨n, hn, rfl⟩ := hx
    obtain ⟨c, hc, hl⟩ := hr
    exact absurd hl.symm (hi.link_ne_carrier hn hc)
  · exact he.route_eq hr hx

/-- If links are never numbered twice, a pair of domains has one connection at most, every link that the gateway
reacts to belongs to one pair, and a link is opened only for a pair that has none or has just lost its own. -/
theorem one_connection_each (setup : Setup) (world : World)
    (links : Function.Injective world.sources.linkId) (ops : List Operation) :
    let g := (initial setup world).run ops
    let moments := (initial setup world).history ops
    (∀ r t u, g.Negotiates r t → ¬ g.Carries r u) ∧
    (∀ r n, g.negotiations.get? r = some n → g.attempts.get? n.link = some r ∧ StaysOpen moments r n.link) ∧
    (∀ t r, g.attempts.get? t = some r ↔ g.Negotiates r t) ∧
    (∀ t r, g.carried.get? t = some r ↔ g.Carries r t) ∧
    (∀ t event, g.step (.outbound t event) ≠ g → ∃! r, g.Tracks r t) ∧
    ∀ op r t, (⟨g, op⟩ : Moment).Opens r t → g.NeedsLink r op := by
  intro g moments
  obtain ⟨ho, hi, he, hopen⟩ := run_connected setup world links ops
  refine ⟨?_, ?_, hi.attempts, he.carried, ?_, fun op r t => step_opens ho hi he⟩
  · rintro r t u ⟨n, hn, _⟩
    exact he.apart r n u hn
  · exact fun r n hn => ⟨hi.attempt hn, hopen r n.link (.inl ⟨n, hn, rfl⟩)⟩
  · intro t event hne
    have tracked : ∃ r, g.Tracks r t := by
      cases g.onOutbound_step ho hi he t event with
      | turned found hl _ _ _ => exact ⟨_, .inl ⟨_, found, hl⟩⟩
      | gone found hl _ _ => exact ⟨_, .inl ⟨_, found, hl⟩⟩
      | carried carries _ => exact ⟨_, .inr carries⟩
      | ignored _ still => exact absurd still hne
    obtain ⟨r, hr⟩ := tracked
    exact ⟨r, hr, fun x hx => hr.unique hi he hx⟩

theorem negotiated_once :
    let r : Route := ⟨"b.example", "a.example"⟩
    let g := sample.run handshake
    g.Negotiates r 100 ∧ (∀ u, ¬ g.Carries r u) ∧ g.attempts.get? 100 = some r ∧
      StaysOpen (sample.history handshake) r 100 ∧ ∃! x, g.Tracks x 100 := by
  intro r g
  obtain ⟨apart, current, _, _, single, _⟩ :=
    one_connection_each sample.setup sample.world sample_linkId_injective handshake
  have negotiated : ∃ n, g.negotiations.get? r = some n ∧ n.link = 100 := by
    have h : (g.negotiations.get? r).map (·.link) = some 100 := by decide +kernel
    exact Option.map_eq_some_iff.mp h
  have reacts : g.step (.outbound 100 .connected) ≠ g := by
    intro h
    have hlength := congrArg (fun g => g.world.trace.length) h
    revert hlength
    decide +kernel
  obtain ⟨n, found, hl⟩ := negotiated
  have hn := current r n found
  rw [hl] at hn
  exact ⟨⟨n, found, hl⟩, fun u => apart r 100 u ⟨n, found, hl⟩, hn.1, hn.2, single 100 _ reacts⟩

end Gateway

end Interdomain
