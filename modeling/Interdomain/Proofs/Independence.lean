import Interdomain.Proofs.Closing
import Mathlib.Data.List.Induction

/-! Routes do not disturb each other. An operation on one route reaches the tables by its key, or by a link that is
there for it, and links by what these tables say; and a verify request that fails is settled on a link of a peer. So
what is there for another route stays as it is, and nothing happens on its links. -/
namespace Interdomain

open Protocol (Dialback)

namespace World

variable {t id : LinkId} {u v w : World}

/-- On the way to a later world there is no call on the link. -/
def Untouched (t : LinkId) (u v : World) : Prop := Omits (fun e => e.link? = some t) u v

theorem Speaks.untouched {P : CallKind → Prop} (h : Speaks P id u v) (ht : id ≠ t) : Untouched t u v :=
  h.only.mono fun e he => by simpa [he] using ht.symm

/-- Without calls on links there are none on this one. -/
theorem untouched_of_linkless (h : Omits (fun e => ∃ t, e.link? = some t) u v) (t : LinkId) : Untouched t u v :=
  h.mono fun _ he => ⟨t, he⟩

theorem untouched_sendElement (w : World) (ht : id ≠ t) (e : Xml.Element) : Untouched t w (w.sendElement id e) :=
  .emit w (by simpa [Effect.link?] using ht)

theorem untouched_close (w : World) (ht : id ≠ t) : Untouched t w (w.close id) :=
  .emit w (by simpa [Effect.link?] using ht)

theorem untouched_fail (w : World) (ht : id ≠ t) (error : Stream.Error) : Untouched t w (w.fail id error) :=
  .fail w (fun _ => by simpa [Effect.link?] using ht) (by simpa [Effect.link?] using ht) error

theorem untouched_finish (w : World) (ht : id ≠ t) : Untouched t w (w.finish id) :=
  .finish w (fun _ => by simpa [Effect.link?] using ht) (by simpa [Effect.link?] using ht)

end World

/-- The operation is on the route: a stanza for it is submitted, something happens on a link that is there for it, or
it is released. -/
inductive Moment.ActsOn (m : Moment) (r : Route) : Prop
  | submits {e : Xml.Element} {resolved : Option String} (goes : Gateway.GoesTo e r)
      (submits : m.operation = .submit e resolved)
  | hears {t : LinkId} {event : LinkEvent} (tracks : m.gateway.Tracks r t) (hears : m.operation = .outbound t event)
  | releases (releases : m.operation = .releaseRoute r)

namespace Gateway

variable {f g g' h : Gateway} {r x : Route} {t u : LinkId} {n : Negotiation} {own : LinkId → Prop}

/-- What is there for a route stays as it was: its negotiation, what it carries, and what the tables say of the links
that are its own, on which there is no call. -/
structure Undisturbed (r : Route) (own : LinkId → Prop) (g g' : Gateway) : Prop where
  negotiation : g'.negotiations.get? r = g.negotiations.get? r
  route : g'.routes.get? r = g.routes.get? r
  attempts : ∀ t, own t → g'.attempts.get? t = g.attempts.get? t
  carried : ∀ t, own t → g'.carried.get? t = g.carried.get? t
  untouched : ∀ t, own t → World.Untouched t g.world g'.world

/-- None of the links is one that a peer opened. -/
def Unhosted (own : LinkId → Prop) (g : Gateway) : Prop := ∀ t, own t → ¬ g.Hosts t

theorem Stays.unhosted (h : Stays g g') (peers : g.Unhosted own) : g'.Unhosted own :=
  fun t ht hosts => peers t ht (h.hosts hosts)

namespace Undisturbed

theorem refl (r : Route) (own : LinkId → Prop) (g : Gateway) : Undisturbed r own g g :=
  ⟨rfl, rfl, fun _ _ => rfl, fun _ _ => rfl, fun _ _ => .refl _⟩

theorem trans (a : Undisturbed r own f g) (b : Undisturbed r own g h) : Undisturbed r own f h :=
  ⟨b.negotiation.trans a.negotiation, b.route.trans a.route,
    fun t ht => (b.attempts t ht).trans (a.attempts t ht), fun t ht => (b.carried t ht).trans (a.carried t ht),
    fun t ht => (a.untouched t ht).trans (b.untouched t ht)⟩

end Undisturbed

theorem KeepsOutbound.undisturbed (keeps : KeepsOutbound g g')
    (untouched : ∀ t, own t → World.Untouched t g.world g'.world) : Undisturbed r own g g' :=
  ⟨by rw [keeps.negotiations], by rw [keeps.routes], fun _ _ => by rw [keeps.attempts],
    fun _ _ => by rw [keeps.carried], untouched⟩

theorem act_undisturbed (g : Gateway) {w : World → World}
    (untouched : ∀ t, own t → World.Untouched t g.world (w g.world)) : Undisturbed r own g (g.act w) :=
  (g.act_keepsOutbound w).undisturbed untouched

theorem bounce_undisturbed (g : Gateway) (stanzas : List Xml.Element) (reason : BounceReason) :
    Undisturbed r own g (stanzas.foldl (fun g s => g.emit (.bounce s reason)) g) :=
  (g.foldl_bounce_keepsOutbound stanzas reason).undisturbed fun t _ =>
    World.untouched_of_linkless (g.bounce_linkless stanzas reason) t

/-- A claim is settled on the link of the peer that made it. -/
theorem settle_undisturbed (peers : g.Unhosted own) (k : Claim) (valid : Bool) :
    Undisturbed r own g (g.settle k valid) := by
  refine (g.settle_step k valid).keepsOutbound.undisturbed fun t ht => ?_
  have apart {u : LinkId} (isOpen : g.IsOpen k u) : u ≠ t := by
    obtain ⟨c, found, link, _⟩ := isOpen
    exact fun h => peers t ht (.inr (.inl ⟨_, c, found, link.trans h⟩))
  have settled := g.settle_step k valid
  generalize g.settle k valid = g' at settled
  cases settled with
  | ignored _ => exact .refl _
  | granted isOpen _ =>
    exact .trans (World.untouched_of_linkless (setAdmissions_linkless (g.closeClaim k) _) t)
      (World.untouched_sendElement _ (apart isOpen) _)
  | refused isOpen => exact World.untouched_sendElement _ (apart isOpen) _
  | violates isOpen _ =>
    exact (World.untouched_sendElement _ (apart isOpen) _).trans (World.untouched_fail _ (apart isOpen) _)

theorem failVerify_undisturbed (peers : g.Unhosted own) (v : Xml.Element) :
    Undisturbed r own g (g.failVerify v) := by
  rcases g.failVerify_cases v with ⟨k, names⟩ | same
  · rw [failVerify_of_names names]
    exact settle_undisturbed peers k false
  · rw [same]
    exact .refl r own g

theorem failVerifies_undisturbed (peers : g.Unhosted own) (vs : List Xml.Element) :
    Undisturbed r own g (vs.foldl failVerify g) := by
  induction vs generalizing g with
  | nil => exact .refl r own g
  | cons v vs ih => exact (failVerify_undisturbed peers v).trans (ih ((g.failVerify_stays v).unhosted peers))

theorem onVerify_undisturbed (peers : g.Unhosted own) (hu : ¬ own u) (e : Xml.Element) :
    Undisturbed r own g (g.onVerify u e) := by
  have apart (t : LinkId) (ht : own t) : u ≠ t := fun h => hu (h ▸ ht)
  have verified := g.onVerify_step u e
  generalize g.onVerify u e = g' at verified
  cases verified with
  | settles _ => exact settle_undisturbed peers _ _
  | replies => exact g.act_undisturbed fun t ht => World.untouched_sendElement _ (apart t ht) _
  | fails => exact g.act_undisturbed fun t ht => World.untouched_fail _ (apart t ht) _

theorem setNegotiation_undisturbed (hr : n.route ≠ r) {w : World}
    (untouched : ∀ t, own t → World.Untouched t g.world w) : Undisturbed r own g (g.setNegotiation n w) :=
  ⟨by simp [setNegotiation, Table.get?_insert, hr.symm], rfl, fun _ _ => rfl, fun _ _ => rfl, untouched⟩

theorem hold_undisturbed (hr : n.route ≠ r) (hl : ¬ own n.link) (e : Xml.Element) :
    Undisturbed r own g (g.hold n e).1 := by
  have queued {m : Negotiation} (route : m.route = n.route) : Undisturbed r own g (g.setNegotiation m g.world) :=
    setNegotiation_undisturbed (route ▸ hr) fun _ _ => .refl _
  unfold hold Negotiation.addVerify
  split
  · dsimp only
    split
    · refine setNegotiation_undisturbed hr fun t ht => World.untouched_sendElement _ ?_ _
      rintro rfl
      exact hl ht
    · exact queued rfl
  · exact queued rfl

/-- A link that is opened for a route is no other's. -/
theorem putNegotiation_undisturbed {w : World} (begins : n.Begins g.world w) (hr : n.route ≠ r) (hl : ¬ own n.link) :
    Undisturbed r own g (g.putNegotiation n w) := by
  obtain ⟨address, timeout, rfl, link⟩ := begins.opens
  have apart {t : LinkId} (ht : own t) : t ≠ n.link := fun h => hl (h ▸ ht)
  refine ⟨by simp [putNegotiation, Table.get?_insert, hr.symm], rfl, fun t ht => ?_, fun _ _ => rfl, fun t ht => ?_⟩
  · simp [putNegotiation, Table.get?_insert, apart ht]
  · exact .connect _ (by simpa [Effect.link?] using fun h => apart ht (h.symm.trans link.symm))

/-- A negotiation that is given up closes its own link at most, and fails the claims that waited for it. -/
theorem retire_undisturbed (found : g.negotiations.get? x = some n) (hr : x ≠ r) (hl : ¬ own n.link)
    (peers : g.Unhosted own) (linkGone : Bool) : Undisturbed r own g (g.retire x linkGone) := by
  have apart {t : LinkId} (ht : own t) : t ≠ n.link := fun h => hl (h ▸ ht)
  have discarded : Undisturbed r own g (g.discard x n linkGone) := by
    have erased : (g.negotiations.erase x).get? r = g.negotiations.get? r := by simp [Table.get?_erase, hr.symm]
    cases linkGone with
    | true => exact ⟨erased, rfl, fun _ _ => rfl, fun _ _ => rfl, fun _ _ => .refl _⟩
    | false =>
      refine ⟨erased, rfl, fun t ht => ?_, fun _ _ => rfl, fun t ht => World.untouched_close _ (apart ht).symm⟩
      simp [discard, Table.get?_erase, apart ht]
  have kept : (g.discard x n linkGone).Unhosted own := by
    cases linkGone <;> exact peers
  have bounced := foldl_relation (R := Stays) (l := n.stanzas) .refl (fun _ _ _ => .trans)
    (fun g s _ => g.emit_stays (.bounce s n.failureReason)) (g.discard x n linkGone)
  rw [retire_eq found]
  exact discarded.trans ((bounce_undisturbed _ _ _).trans (failVerifies_undisturbed (bounced.unhosted kept) _))

/-- A negotiation that becomes a route writes on its own link only. -/
theorem establish_undisturbed (found : g.negotiations.get? x = some n) (hr : x ≠ r) (hl : ¬ own n.link) :
    Undisturbed r own g (g.establish x) := by
  have apart {t : LinkId} (ht : own t) : t ≠ n.link := fun h => hl (h ▸ ht)
  obtain ⟨carrier, link, heq⟩ := establish_eq found
  rw [heq]
  refine ⟨?_, ?_, fun t ht => ?_, fun t ht => ?_, fun t ht => ?_⟩
  · simp [handOver, Table.get?_erase, hr.symm]
  · simp [Registry.get?_register, hr.symm]
  · simp [handOver, Table.get?_erase, apart ht]
  · simp [Table.get?_insert, apart ht]
  · have written (w : World) (es : List Xml.Element) : World.Untouched t w (w.sendElements n.link es) :=
      .sendElements w fun _ _ => by simpa [Effect.link?] using (apart ht).symm
    exact .trans (v := (g.handOver x n).world) (.trans (written _ _) (written _ _))
      (World.untouched_of_linkless (setRoutes_linkless (g.handOver x n) _) t)

/-- What follows a turn of a negotiation is for its route, and for the claims of peers. -/
theorem follow_undisturbed {turn : Turn} (serves : turn.Serves n g.world) (hr : n.route ≠ r) (hl : ¬ own n.link)
    (peers : g.Unhosted own) : Undisturbed r own g (g.follow turn) := by
  have hr : turn.negotiation.route ≠ r := serves.route ▸ hr
  have hl' : ¬ own turn.negotiation.link := serves.link ▸ hl
  have set : Undisturbed r own g (g.setNegotiation turn.negotiation turn.world) :=
    setNegotiation_undisturbed hr fun t ht => serves.speaks.untouched fun h => hl (h ▸ ht)
  have found : (g.setNegotiation turn.negotiation turn.world).negotiations.get? turn.negotiation.route =
      some turn.negotiation := by simp [setNegotiation, Table.get?_insert]
  have kept : (g.setNegotiation turn.negotiation turn.world).Unhosted own := peers
  unfold follow
  dsimp only
  split
  · exact set
  · exact set.trans (establish_undisturbed found hr hl')
  · exact set.trans (retire_undisturbed found hr hl' kept false)
  · exact set.trans (onVerify_undisturbed kept hl' _)

theorem ClosedStep.undisturbed (step : g.ClosedStep n g') (hr : n.route ≠ r) (hl : ¬ own n.link)
    (fresh : ¬ own (g.world.sources.linkId g.world.opened)) (peers : g.Unhosted own) : Undisturbed r own g g' := by
  have erased {m : Negotiation} (route : m.route = n.route) (link : m.link = n.link) : Undisturbed r own g
      { g.setNegotiation m g.world with attempts := g.attempts.erase m.link } := by
    have set : Undisturbed r own g (g.setNegotiation m g.world) :=
      setNegotiation_undisturbed (route ▸ hr) fun _ _ => .refl _
    refine ⟨set.negotiation, set.route, fun t ht => ?_, set.carried, set.untouched⟩
    have apart : t ≠ m.link := fun h => hl (link ▸ h ▸ ht)
    simp [Table.get?_erase, apart]
  cases step with
  | @advanced m k w route link _ advances _ =>
    obtain ⟨begins, same, _⟩ := Negotiation.advance?_begins advances
    obtain ⟨_, _, _, opened⟩ := begins.opens
    refine (erased route link).trans (putNegotiation_undisturbed begins (same ▸ route ▸ hr) ?_)
    rw [opened]
    exact fresh
  | @retired m route link _ _ =>
    refine (erased route link).trans (retire_undisturbed (n := m)
      (g := { g.setNegotiation m g.world with attempts := g.attempts.erase m.link }) ?_ (route ▸ hr) (link ▸ hl) peers
      true)
    simp [setNegotiation, Table.get?_insert]

theorem carryRoute_undisturbed (g : Gateway) (hr : x ≠ r) :
    Undisturbed r own g { g with routes := g.routes.modify x (·.carry g.now) } :=
  ⟨rfl, by simp [Registry.get?_modify, hr.symm], fun _ _ => rfl, fun _ _ => rfl, fun _ _ => .refl _⟩

/-- Another route ends, and its link is forgotten. -/
theorem forget_undisturbed (negotiations : g'.negotiations = g.negotiations) (attempts : g'.attempts = g.attempts)
    (routes : g'.routes.get? r = g.routes.get? r) (carried : g'.carried = g.carried.erase u) (hu : ¬ own u)
    (untouched : ∀ t, own t → World.Untouched t g.world g'.world) : Undisturbed r own g g' := by
  refine ⟨by rw [negotiations], routes, fun _ _ => by rw [attempts], fun t ht => ?_, untouched⟩
  have apart : t ≠ u := fun h => hu (h ▸ ht)
  rw [carried, Table.get?_erase, if_neg apart]

theorem dropRoute_undisturbed (g : Gateway) (hr : x ≠ r) (hu : ¬ own u) :
    Undisturbed r own g (g.dropRoute x u) := by
  refine forget_undisturbed (setRoutes_negotiations _ _) (setRoutes_attempts _ _) ?_ (setRoutes_carried _ _) hu
    fun t _ => World.untouched_of_linkless (setRoutes_linkless { g with carried := g.carried.erase u } _) t
  simp only [dropRoute, setRoutes_routes, Registry.get?_unregisterWhere]
  cases g.routes.get? r <;> simp [Option.filter, hr.symm]

theorem releaseRoute_undisturbed (hr : x ≠ r) (hu : ∀ t, g.Carries x t → ¬ own t) :
    Undisturbed r own g (g.releaseRoute x).1 := by
  unfold releaseRoute
  split
  · exact .refl r own g
  · rename_i c found
    have free : ¬ own c.link := hu _ ⟨c, found, rfl⟩
    refine forget_undisturbed (setRoutes_negotiations _ _) (setRoutes_attempts _ _) ?_ ?_ free fun t ht => ?_
    · simp [act, Registry.get?_unregister, hr.symm]
    · simp [act]
    · have apart : c.link ≠ t := fun h => free (h ▸ ht)
      exact .trans (World.untouched_of_linkless (g.setRoutes_linkless _) t) (World.untouched_finish _ apart)

/-- An event on the link of a route is for it, and for the claims of peers. -/
theorem onRoute_undisturbed (hr : x ≠ r) (hu : ¬ own u) (peers : g.Unhosted own) (event : LinkEvent) :
    Undisturbed r own g (g.onRoute x u event) := by
  have apart (t : LinkId) (ht : own t) : u ≠ t := fun h => hu (h ▸ ht)
  unfold onRoute
  split
  · exact .refl r own g
  · exact .refl r own g
  · exact g.dropRoute_undisturbed hr hu
  · split
    · exact (g.carryRoute_undisturbed hr).trans
        (onVerify_undisturbed (g := { g with routes := g.routes.modify x (·.carry g.now) }) peers hu _)
    · split
      · exact (g.act_undisturbed fun t ht => World.untouched_close _ (apart t ht)).trans
          (dropRoute_undisturbed _ hr hu)
      · exact (g.act_undisturbed fun t ht => World.untouched_fail _ (apart t ht) _).trans
          (dropRoute_undisturbed _ hr hu)

theorem SubmitStep.undisturbed {e : Xml.Element} {s : Gateway × Delivery} (step : g.SubmitStep e s) (ho : g.Orderly)
    (goes : GoesTo e x) (hr : x ≠ r) (apart : ∀ t, g.Tracks x t → ¬ own t)
    (fresh : ¬ own (g.world.sources.linkId g.world.opened)) (peers : g.Unhosted own) : Undisturbed r own g s.1 := by
  cases step with
  | @carried y c here found =>
    obtain rfl := here.unique goes
    have written : Undisturbed r own g (g.act (·.sendElement c.link e)) := by
      refine g.act_undisturbed fun t ht => World.untouched_sendElement _ ?_ _
      rintro rfl
      exact apart _ (.inr ⟨c, found, rfl⟩) ht
    exact written.trans (carryRoute_undisturbed _ hr)
  | @asked y n here _ found =>
    obtain rfl := here.unique goes
    obtain rfl := ho.route _ n found
    exact .trans (setNegotiation_undisturbed hr fun _ _ => .refl _)
      (hold_undisturbed hr (apart _ (.inl ⟨n, found, rfl⟩)) e)
  | @joined y n here _ found =>
    obtain rfl := here.unique goes
    obtain rfl := ho.route _ n found
    have hl := apart _ (.inl ⟨n, found, rfl⟩)
    have wants := n.want_serves g.setup g.world
    have route : (n.want g.setup g.world).1.route ≠ r := wants.route ▸ hr
    exact .trans (setNegotiation_undisturbed route fun t ht => wants.speaks.untouched fun h => hl (h ▸ ht))
      (hold_undisturbed route (wants.link ▸ hl) e)
  | @began n w here _ _ begins _ _ =>
    obtain rfl := here.unique goes
    obtain ⟨_, _, _, opened⟩ := begins.opens
    have hl : ¬ own n.link := by
      rw [opened]
      exact fresh
    exact (putNegotiation_undisturbed begins hr hl).trans (hold_undisturbed hr hl e)
  | refused _ _ _ => exact failVerify_undisturbed peers e
  | dropped _ _ => exact .refl r own g
  | returned _ => exact g.bounce_undisturbed [e] _

/-- An operation on one route leaves alone what is there for another, unless it has a link that is also one of a
peer. -/
theorem step_undisturbed (ho : g.Orderly) (hi : g.Indexed) (he : g.Exclusive) (peers : g.Unhosted (g.Tracks r))
    {op : Operation} (acts : Moment.ActsOn ⟨g, op⟩ x) (hr : x ≠ r) : Undisturbed r (g.Tracks r) g (g.step op) := by
  have apart (t : LinkId) (tracks : g.Tracks x t) : ¬ g.Tracks r t := fun own => hr (own.unique hi he tracks)
  have fresh : ¬ g.Tracks r (g.world.sources.linkId g.world.opened) := fun own =>
    own.spent hi _ (Nat.le_refl _) rfl
  cases acts with
  | submits goes submits =>
    cases submits
    rw [step_submit]
    exact (g.submit_step _ _).undisturbed ho goes hr apart fresh peers
  | @hears t event tracks hears =>
    cases hears
    have free := apart t tracks
    change Undisturbed r (g.Tracks r) g (g.onOutbound t event)
    cases g.onOutbound_step ho hi he t event with
    | @turned n turn found link _ serves follows =>
      have same := tracks.unique hi he (.inl ⟨n, found, link⟩)
      rw [follows]
      exact follow_undisturbed serves (same ▸ hr) (link ▸ free) peers
    | @gone n found link _ step =>
      have same := tracks.unique hi he (.inl ⟨n, found, link⟩)
      exact step.undisturbed (same ▸ hr) (link ▸ free) fresh peers
    | carried carries onRoute =>
      have same := tracks.unique hi he (.inr carries)
      rw [onRoute]
      exact onRoute_undisturbed (same ▸ hr) free peers event
    | ignored untracked _ => exact absurd tracks (untracked x)
  | releases releases =>
    cases releases
    rw [step_releaseRoute]
    exact releaseRoute_undisturbed hr fun t carries => apart t (.inr carries)

/-- An event on the stream of a peer makes no other link one of a peer. -/
theorem StreamStep.hosts {event : LinkEvent} (step : StreamStep g t event g') (hosts : g'.Hosts u) :
    g.Hosts u ∨ u = t := by
  by_cases hu : u = t
  · exact .inr hu
  refine .inl ?_
  have opened (h : (g.openStream t).Hosts u) : g.Hosts u := (g.openStream_fades (P := CallKind.IsPlain) t).hosts
    (fun _ hs => g.get?_openStream_of_ne hu ▸ hs) h
  have same := step.other hu
  have before {stream : InboundStream} (hs : g'.streams.get? u = some stream) :
      (g.openStream t).streams.get? u = some stream := by rw [get?_openStream_of_ne g hu, ← same, hs]
  cases step with
  | stays stays _ => exact stays.hosts hosts
  | opens => exact opened hosts
  | refuses stays => exact opened (stays.hosts hosts)
  | @admits _ reply peer =>
    exact opened (((g.openStream t).admitLegacy_fades t reply peer).hosts (fun _ => before) hosts)
  | @accepts _ reply host peer version offer =>
    have accepted := acceptStream_accepted (g.openStream t) t reply host peer version offer
    rcases hosts with ⟨stream, hs⟩ | ⟨x, c, hc, rfl⟩ | ⟨k, c, hk, rfl⟩
    · exact .inl ⟨stream, same ▸ hs⟩
    · rcases accepted.challenge x c hc with ⟨_, link, _⟩ | hc
      · exact absurd link hu
      · exact opened (.inr (.inl ⟨x, c, hc, rfl⟩))
    · rcases accepted.admission k c hk with hk | ⟨_, _, _, link⟩
      · exact opened (.inr (.inr ⟨k, c, hk, rfl⟩))
      · exact absurd link hu
  | carries _ _ =>
    rcases hosts with ⟨stream, hs⟩ | kept
    · exact .inl ⟨stream, same ▸ hs⟩
    · exact .inr kept
  | restarts _ _ _ challenges admissions _ =>
    rcases hosts with ⟨stream, hs⟩ | ⟨x, c, hc, link⟩ | ⟨k, c, hk, link⟩
    · exact .inl ⟨stream, same ▸ hs⟩
    · rw [challenges, Table.get?_erase] at hc
      split at hc
      · cases hc
      · exact .inr (.inl ⟨x, c, hc, link⟩)
    · exact .inr (.inr ⟨k, c, admissions ▸ hk, link⟩)
  | closes => exact (g.onClosed_fades t).hosts (fun _ hs => same ▸ hs) hosts

/-- An operation makes no link one of a peer but that on which the peer has said something. -/
theorem step_hosts (ho : g.Orderly) {op : Operation} (hosts : (g.step op).Hosts t) :
    Moment.OfPeer ⟨g, op⟩ t := by
  cases op with
  | submit e resolved =>
    rw [step_submit] at hosts
    exact .inl ((g.submit_step e resolved).stays.hosts hosts)
  | inbound u event =>
    rcases (g.onInbound_streams u event).hosts hosts with before | rfl
    · exact .inl before
    · exact .inr ⟨event, rfl⟩
  | outbound u event => exact .inl ((onOutbound_stays ho u event).hosts hosts)
  | sweep ahead =>
    rw [step_sweep] at hosts
    exact .inl ((g.sweepAt_fades _).hosts (fun _ => sweepAt_streams) hosts)
  | releaseRoute x =>
    rw [step_releaseRoute] at hosts
    exact .inl ((g.releaseRoute_stays x).hosts hosts)
  | releaseClaim k =>
    rw [step_releaseClaim] at hosts
    exact .inl ((g.releaseClaim_stays k).hosts hosts)
  | wait duration => exact .inl hosts
  | learn link facts => exact .inl hosts

/-- A link of a peer is one on which the peer has said something. -/
theorem run_hosts (setup : Setup) (world : World) (ops : List Operation)
    (hosts : ((initial setup world).run ops).Hosts t) : ∃ event, .inbound t event ∈ ops := by
  induction ops using List.reverseRecOn with
  | nil => rcases hosts with ⟨_, h⟩ | ⟨_, _, h, _⟩ | ⟨_, _, h, _⟩ <;> cases h
  | append_singleton ops op ih =>
    rw [run_concat] at hosts
    rcases step_hosts (run_orderly setup world ops) hosts with before | ⟨event, heard⟩
    · obtain ⟨event, heard⟩ := ih before
      exact ⟨event, List.mem_append_left _ heard⟩
    · exact ⟨event, by simp [← heard]⟩

/-- The links of routes are numbered by the sources. -/
theorem run_numbered (setup : Setup) (world : World) (links : Function.Injective world.sources.linkId)
    (ops : List Operation) : ((initial setup world).run ops).world.sources = world.sources ∧
      ∀ r t, ((initial setup world).run ops).Tracks r t → ∃ i, world.sources.linkId i = t := by
  induction ops using List.reverseRecOn with
  | nil =>
    refine ⟨rfl, ?_⟩
    rintro r t (⟨_, h, _⟩ | ⟨_, h, _⟩) <;> cases h
  | append_singleton ops op ih =>
    have connected := run_connected setup world links ops
    have grows := step_grows connected.orderly op
    rw [run_concat]
    refine ⟨grows.sources.trans ih.1, fun r t tracks => ?_⟩
    rcases step_tracks connected.orderly connected.indexed tracks with before | ⟨address, timeout, opens⟩
    · exact ih.2 r t before
    · obtain ⟨i, _, _, number⟩ := grows.numbered t r address timeout opens
      exact ⟨i, ih.1 ▸ number⟩

/-- In every run in which links are never numbered twice, and peers have none of these numbers, an operation on one
route leaves alone what is there for another: its negotiation, what it carries, and what the tables say of its links,
on which there is no call. -/
theorem routes_undisturbed (setup : Setup) (world : World) (links : Function.Injective world.sources.linkId)
    (ops : List Operation) (peers : ∀ i event, .inbound (world.sources.linkId i) event ∉ ops) (op : Operation)
    (r x : Route) (acts : Moment.ActsOn ⟨(initial setup world).run ops, op⟩ x) (other : x ≠ r) :
    let m : Moment := ⟨(initial setup world).run ops, op⟩
    m.next.negotiations.get? r = m.gateway.negotiations.get? r ∧
    m.next.routes.get? r = m.gateway.routes.get? r ∧
    ∀ t, m.gateway.Tracks r t → m.next.attempts.get? t = m.gateway.attempts.get? t ∧
      m.next.carried.get? t = m.gateway.carried.get? t ∧ ∀ e ∈ m.calls, e.link? ≠ some t := by
  intro m
  have connected := run_connected setup world links ops
  have unhosted : m.gateway.Unhosted (m.gateway.Tracks r) := by
    intro t tracks hosts
    obtain ⟨i, rfl⟩ := (run_numbered setup world links ops).2 r t tracks
    obtain ⟨event, heard⟩ := run_hosts setup world ops hosts
    exact peers i event heard
  have step := step_undisturbed connected.orderly connected.indexed connected.exclusive unhosted acts other
  exact ⟨step.negotiation, step.route, fun t tracks => ⟨step.attempts t tracks, step.carried t tracks,
    fun e called link => (step.untouched t tracks).not_mem link called⟩⟩

/-- A route ends with a stream error of the peer while another is negotiated on a link of its own. -/
theorem ended_beside_negotiation :
    let r : Route := ⟨"b.example", "c.example"⟩
    let ops := authorized ++ [.submit (sampleMessage "bob@b.example" "carol@c.example") (some "192.0.2.1")]
    let m : Moment := ⟨sample.run ops, .outbound 100 (.element { name := "error", ns := Xml.Namespace.stream })⟩
    m.ActsOn ⟨"b.example", "a.example"⟩ ∧ m.gateway.Tracks r 101 ∧ .close 100 ∈ m.calls ∧
      m.next.negotiations.get? r = m.gateway.negotiations.get? r ∧ ∀ e ∈ m.calls, e.link? ≠ some 101 := by
  intro r ops m
  have carried : (m.gateway.routes.get? ⟨"b.example", "a.example"⟩).map (·.link) = some 100 := by decide +kernel
  have negotiated : (m.gateway.negotiations.get? r).map (·.link) = some 101 := by decide +kernel
  have acts : m.ActsOn ⟨"b.example", "a.example"⟩ := .hears (.inr (Option.map_eq_some_iff.mp carried)) rfl
  have tracks : m.gateway.Tracks r 101 := .inl (Option.map_eq_some_iff.mp negotiated)
  have kept := routes_undisturbed sample.setup sample.world sample_linkId_injective ops
    (fun i event heard => by simp [ops, authorized] at heard) m.operation r _ acts (by decide)
  exact ⟨acts, tracks, by decide +kernel, kept.1, (kept.2.2 101 tracks).2.2⟩

end Gateway

end Interdomain
