import Interdomain.Proofs.Network

/-! A stream that one side opens to the other. The callee hears that the connection is there, perhaps more than once,
and the header; the caller hears as much, and the features. Whatever comes first, each event that is heard is one
step less to go until the caller, with the features, writes what has waited for the stream. -/
namespace Interdomain

open Protocol (Dialback)

namespace Meeting

variable {m : Meeting} {s : Side} {g g' h h' : Gateway} {load load' : Load} {w : Wire} {k : Nat} {cs : List Effect}
  {event : LinkEvent} {rest : List LinkEvent}

theorem loopToken_ne (m : Meeting) (s : Side) :
    (m.setup s).signer.loopToken ≠ (m.setup s.other).signer.loopToken := by
  cases s with
  | left => exact m.apart
  | right => exact m.apart.symm

theorem Runs.permits (hg : m.Runs s g) : g.setup.policy.check (m.domain s.other) .dialback 0 = .ok () := by
  rw [hg.setup]
  exact m.permits s

/-- The header of one side is accepted by the other. -/
theorem Runs.greets (hh : m.Runs s.other h) (t : LinkId) :
    ∃ reply : Stream.Header, reply.version = some "1.0" ∧
      h.setup.greet (h.world.link t) false ((m.setup s).headerFor (m.route s)) =
        .accepted reply (m.domain s.other) (some (m.domain s)) 1 ⟨false, false⟩ := by
  have versioned : ((m.setup s).policy.lookup (m.domain s.other)).version ≠ .disabled := m.versioned s
  have dialback : ((m.setup s).policy.lookup (m.domain s.other)).auth ≠ .saslOnly := by
    have permits : (m.setup s).policy.check (m.domain s.other) .dialback 0 = .ok () := m.permits s
    intro hs
    rw [Policy.Book.check_eq_ok_iff, hs] at permits
    exact absurd permits.2 (by decide)
  have allows : ((m.setup s.other).policy.lookup (m.domain s)).version ≠ .disabled := by
    have h := m.versioned s.other
    rw [Side.other_other] at h
    exact h
  refine ⟨_, ?_, hh.setup ▸ Setup.greet_of_isPlain (hh.plain.link t) rfl rfl (m.normal s.other) (m.normal s) rfl ?_ ?_
    ?_ allows⟩
  · simp [Setup.replyTo]
  · simp [Setup.headerFor, route, dialback]
  · simp [Setup.headerFor, route, versioned]
  · simpa [Setup.headerFor] using m.loopToken_ne s

/-- A stream of one side at the other, under this challenge. -/
def session (m : Meeting) (s : Side) (c : String) : Session := ⟨c, m.domain s.other, some (m.domain s), 1⟩

/-- A stream on the way to be ready, with the caller's load and so many steps to go before the last one, on which the
features arrive. -/
inductive Opening (m : Meeting) (s : Side) (load : Load) (g h : Gateway) (w : Wire) : Nat → Prop
  | dialled {i} (waits : g.Waits load .connecting none) (expects : h.Expects w.callee)
      (forth : w.forth = List.replicate i .connected) (back : w.back = [.connected]) : Opening m s load g h w (i + 3)
  | greeted {i} (waits : g.Waits load .connected none) (expects : h.Expects w.callee)
      (forth : w.forth = List.replicate i .connected ++ [.header ((m.setup s).headerFor load.route)])
      (back : w.back = []) : Opening m s load g h w (i + 2)
  | welcomed {j header} (waits : g.Waits load .connected none)
      (talks : h.Talks w.callee (m.session s ((m.world s.other).sources.token j)) [])
      (id : header.id = some ((m.world s.other).sources.token j)) (version : header.version = some "1.0")
      (forth : w.forth = []) (back : w.back = [.header header, .element (Protocol.features false false)]) :
      Opening m s load g h w 1
  | accepted {j} (waits : g.Waits load .awaitingFeatures (some ((m.world s.other).sources.token j)))
      (talks : h.Talks w.callee (m.session s ((m.world s.other).sources.token j)) [])
      (forth : w.forth = []) (back : w.back = [.element (Protocol.features false false)]) :
      Opening m s load g h w 0

namespace Opening

/-- Either end has something to hear. -/
theorem live (hs : m.Opening s load g h w k) : w.back ≠ [] ∨ w.forth ≠ [] := by
  cases hs with
  | dialled _ _ _ back => simp [back]
  | greeted _ _ forth _ => simp [forth]
  | welcomed _ _ _ _ _ back => simp [back]
  | accepted _ _ _ back => simp [back]

theorem waiting (hs : m.Opening s load g h w k) : ∃ stage id, g.Waits load stage id := by
  cases hs with
  | dialled waits _ _ _ => exact ⟨_, _, waits⟩
  | greeted waits _ _ _ => exact ⟨_, _, waits⟩
  | welcomed waits _ _ _ _ _ => exact ⟨_, _, waits⟩
  | accepted waits _ _ _ => exact ⟨_, _, waits⟩

/-- What else the caller does matters only for its load. -/
theorem reload (hs : m.Opening s load g h w k) (route : load'.route = load.route)
    (waits : ∀ stage id, g.Waits load stage id → g'.Waits load' stage id) : m.Opening s load' g' h w k := by
  cases hs with
  | dialled hw expects forth back => exact .dialled (waits _ _ hw) expects forth back
  | greeted hw expects forth back => exact .greeted (waits _ _ hw) expects (route ▸ forth) back
  | welcomed hw talks id version forth back => exact .welcomed (waits _ _ hw) talks id version forth back
  | accepted hw talks forth back => exact .accepted (waits _ _ hw) talks forth back

/-- What else the callee does leaves the stream alone. -/
theorem keep (hs : m.Opening s load g h w k) (out : h.Outward cs h') : m.Opening s load g h' w k := by
  cases hs with
  | dialled hw expects forth back => exact .dialled hw (expects.of_keepsInbound out.keeps) forth back
  | greeted hw expects forth back => exact .greeted hw (expects.of_keepsInbound out.keeps) forth back
  | welcomed hw talks id version forth back => exact .welcomed hw (talks.outward out) id version forth back
  | accepted hw talks forth back => exact .accepted hw (talks.outward out) forth back

/-- What the caller hears, but for the features. -/
theorem outward (hs : m.Opening s load g h w (k + 1)) (hg : m.Runs s g)
    (own : ∀ j, g.challenges.contains ((m.world s.other).sources.token j) = false) (back : w.back = event :: rest) :
    ∃ fs : List Frame, g.Outward (fs.map (.send load.link)) (g.onOutbound load.link event) ∧
      m.Opening s load (g.onOutbound load.link event) h
        { w with back := rest, forth := w.forth ++ fs.map Frame.event } k := by
  generalize hk : k + 1 = k' at hs
  cases hs with
  | @dialled i waits expects forth hb =>
    obtain ⟨rfl, rfl⟩ : event = .connected ∧ rest = [] := by simpa [hb, eq_comm] using back
    obtain rfl : k = i + 2 := by omega
    obtain ⟨out, waits⟩ := waits.connected
    rw [hg.setup] at out
    refine ⟨[.header ((m.setup s).headerFor load.route)], out, .greeted waits expects ?_ rfl⟩
    simp [forth, Frame.event]
  | greeted _ _ _ hb => simp [hb] at back
  | @welcomed j header waits talks id version forth hb =>
    obtain ⟨rfl, rfl⟩ : event = .header header ∧ rest = [.element (Protocol.features false false)] := by
      simpa [hb, eq_comm] using back
    obtain rfl : k = 0 := by omega
    have major : 1 ≤ header.majorVersion := by
      rw [Stream.Header.majorVersion, version]
      decide
    obtain ⟨out, waits⟩ := waits.header id (m.proper _ j) (own j) major
    exact ⟨[], out, .accepted waits talks (by simp [forth]) rfl⟩
  | accepted _ _ _ _ => cases hk

/-- What the callee hears. -/
theorem inward (hs : m.Opening s load g h w k) (hh : m.Runs s.other h) (route : load.route = m.route s)
    (forth : w.forth = event :: rest) :
    ∃ (fs : List Frame) (i : Nat), k = i + 1 ∧ h.Inward (fs.map (.send w.callee)) (h.onInbound w.callee event) ∧
      m.Opening s load g (h.onInbound w.callee event)
        { w with forth := rest, back := w.back ++ fs.map Frame.event } i := by
  cases hs with
  | @dialled i waits expects hf back =>
    cases i with
    | zero => simp [hf] at forth
    | succ i =>
      obtain ⟨rfl, rfl⟩ : event = .connected ∧ rest = List.replicate i .connected := by
        simpa [hf, List.replicate_succ, eq_comm] using forth
      obtain ⟨inw, expects⟩ := expects.connected
      exact ⟨[], i + 3, by omega, inw, .dialled waits expects rfl (by simp [back])⟩
  | @greeted i waits expects hf back =>
    cases i with
    | zero =>
      obtain ⟨rfl, rfl⟩ : event = .header ((m.setup s).headerFor load.route) ∧ rest = [] := by
        simpa [hf, eq_comm] using forth
      obtain ⟨reply, version, greets⟩ := hh.greets (s := s) w.callee
      rw [route] at hf
      obtain ⟨inw, talks⟩ := expects.header greets
      rw [hh.sources] at inw talks
      let answer : Stream.Header := { reply with id := some ((m.world s.other).sources.token h.world.drawn) }
      have id : answer.id = some ((m.world s.other).sources.token h.world.drawn) := rfl
      refine ⟨[.header answer, .element (Protocol.features false false)], 1, rfl, route ▸ inw,
        .welcomed waits (route ▸ talks) id version rfl ?_⟩
      simp [back, Frame.event]
    | succ i =>
      obtain ⟨rfl, rfl⟩ : event = .connected ∧ rest = List.replicate i .connected ++
          [.header ((m.setup s).headerFor load.route)] := by
        simpa [hf, List.replicate_succ, eq_comm] using forth
      obtain ⟨inw, expects⟩ := expects.connected
      exact ⟨[], i + 2, by omega, inw, .greeted waits expects rfl (by simp [back])⟩
  | welcomed _ _ _ _ hf _ => simp [hf] at forth
  | accepted _ _ hf _ => simp [hf] at forth

section Features

variable (hs : m.Opening s load g h w 0) (hg : m.Runs s g) (route : load.route = m.route s)
  (back : w.back = event :: rest)
include hs hg route back

/-- The features arrive, and the request that is wanted goes out. -/
theorem asks (wants : load.request = .wantRequest) (verifies : load.verifies = []) :
    ∃ j, let c := (m.world s.other).sources.token j
      g.Outward ([.element ((m.setup s).requestFor (m.route s) c)].map (.send load.link))
          (g.onOutbound load.link event) ∧
        (g.onOutbound load.link event).Waits { load with request := .sentRequest } .sentRequest (some c) ∧
        h.Talks w.callee (m.session s c) [] ∧ w.forth = [] ∧ rest = [] := by
  cases hs with
  | @accepted j waits talks forth hb =>
    obtain ⟨rfl, rfl⟩ : event = .element (Protocol.features false false) ∧ rest = [] := by
      simpa [hb, eq_comm] using back
    obtain ⟨out, waits⟩ := waits.features_asks hg.plain (route ▸ hg.permits) wants verifies
    rw [hg.setup, route] at out
    exact ⟨j, out, waits, talks, forth, rfl⟩

/-- The features arrive, and the verify requests that waited go out. -/
theorem flushes (unasked : load.request = .notRequested) :
    ∃ x, g.Outward ((load.verifies.map Frame.element).map (.send load.link)) (g.onOutbound load.link event) ∧
      (∃ load' stage id, load'.link = load.link ∧ (g.onOutbound load.link event).Waits load' stage id) ∧
      h.sessionOn w.callee = some x ∧ w.forth = [] ∧ rest = [] := by
  cases hs with
  | @accepted j waits talks forth hb =>
    obtain ⟨rfl, rfl⟩ : event = .element (Protocol.features false false) ∧ rest = [] := by
      simpa [hb, eq_comm] using back
    obtain ⟨out, waits⟩ := waits.features_flushes hg.plain (route ▸ hg.permits) unasked
    rw [List.map_map]
    exact ⟨_, out, ⟨{ load with request := .couldRequest, verifies := [] }, _, _, rfl, waits⟩, talks.session, forth,
      rfl⟩

end Features

end Opening

end Meeting

end Interdomain
