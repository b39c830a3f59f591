import Interdomain.Gateway.Operation

/-! Runs, moment by moment. A moment is a gateway and the operation that it is about to perform; the history
of a run lists its moments in order, so that statements about a run can say what came before what. A fact
that holds at the start and is kept by every operation holds after every run. -/
namespace Interdomain

/-- A gateway and the operation that it is about to perform. -/
structure Moment where
  gateway : Gateway
  operation : Operation

namespace Moment

/-- The gateway after the operation. -/
def next (m : Moment) : Gateway := m.gateway.step m.operation

/-- The calls that the operation makes. -/
def calls (m : Moment) : List Effect := m.next.world.since m.gateway.world

end Moment

/-- At the moment `i` of a history, `P` holds. -/
def Happens (h : List Moment) (i : Nat) (P : Moment → Prop) : Prop := ∃ m, h[i]? = some m ∧ P m

namespace Gateway

/-- A gateway without any connection, in surroundings in which nothing has happened yet. -/
def initial (setup : Setup) (world : World) : Gateway :=
  start setup { world with opened := 0, drawn := 0, trace := [] }

/-- A gateway that numbers its links from 100 on, and draws ever longer challenges. -/
def sample : Gateway :=
  initial ⟨{ secret := "secret" }, {}, ⟨id⟩⟩
    { sources := ⟨(· + 100), fun n => String.ofList (List.replicate (n + 1) 'c')⟩ }

/-- The header of a peer that speaks for a domain. -/
def sampleHeader (peer : String) : Stream.Header where
  recipient := some "a.example"
  sender := some peer
  version := some "1.0"
  dialback := some Xml.Namespace.dialback

/-- A stanza between the two domains. -/
def sampleMessage (recipient sender : String) : Xml.Element :=
  (({ name := "message" } : Xml.Element).setAttribute "to" recipient).setAttribute "from" sender

/-- The moments of a run, in order. -/
def history (g : Gateway) : List Operation → List Moment
  | [] => []
  | op :: ops => ⟨g, op⟩ :: (g.step op).history ops

theorem step_submit (g : Gateway) (stanza : Xml.Element) (resolved : Option String) :
    g.step (.submit stanza resolved) = (g.submit stanza resolved).1 := by
  simp [step, perform]

theorem step_sweep (g : Gateway) (ahead : Nat) :
    g.step (.sweep ahead) = (g.sweepAt (g.now + ahead)).1 := by
  simp [step, perform]

theorem step_releaseRoute (g : Gateway) (route : Route) :
    g.step (.releaseRoute route) = (g.releaseRoute route).1 := by
  simp [step, perform]

theorem step_releaseClaim (g : Gateway) (claim : Claim) :
    g.step (.releaseClaim claim) = (g.releaseClaim claim).1 := by
  simp [step, perform]

theorem run_concat (g : Gateway) (ops : List Operation) (op : Operation) :
    g.run (ops ++ [op]) = (g.run ops).step op := by simp [run]

/-- What holds of the start and of each moment's successor holds of every run and its history. -/
theorem run_induction {P : List Moment → Gateway → Prop} {g : Gateway} (start : P [] g)
    (step : ∀ h g op, P h g → P (h ++ [⟨g, op⟩]) (g.step op)) (ops : List Operation) :
    P (g.history ops) (g.run ops) := by
  have h : ∀ past g, P past g → P (past ++ g.history ops) (g.run ops) := by
    induction ops with
    | nil =>
      intro past g hp
      simpa [history, run] using hp
    | cons op ops ih =>
      intro past g hp
      have hn := ih (past ++ [⟨g, op⟩]) (g.step op) (step past g op hp)
      simpa [history, run] using hn
  exact h [] g start

/-- What holds after every run holds at each of its moments. -/
theorem history_invariant {P : Gateway → Prop} {g : Gateway} (h : ∀ ops, P (g.run ops))
    {ops : List Operation} {m : Moment} (hm : m ∈ g.history ops) : P m.gateway := by
  induction ops generalizing g with
  | nil => cases hm
  | cons op ops ih =>
    rcases List.mem_cons.mp hm with rfl | hm
    · exact h []
    · exact ih (fun ops => h (op :: ops)) hm

/-- What holds of the start and is kept by every operation holds after every run. -/
theorem run_invariant {P : Gateway → Prop} {g : Gateway} (start : P g)
    (step : ∀ g op, P g → P (g.step op)) (ops : List Operation) : P (g.run ops) :=
  run_induction (P := fun _ g => P g) start (fun _ g op => step g op) ops

end Gateway

/-- The moment `i` of a run is the gateway after the operations before it, and the next operation. -/
theorem Gateway.getElem?_history (g : Gateway) (ops : List Operation) (i : Nat) :
    (g.history ops)[i]? = ops[i]?.map fun op => ⟨g.run (ops.take i), op⟩ := by
  induction ops generalizing g i with
  | nil => rfl
  | cons op ops ih =>
    cases i with
    | zero => rfl
    | succ i => simpa [history, run] using ih (g.step op) i

theorem Gateway.history_append (g : Gateway) (ops others : List Operation) :
    g.history (ops ++ others) = g.history ops ++ (g.run ops).history others := by
  induction ops generalizing g with
  | nil => rfl
  | cons op ops ih => simpa [history, run] using ih (g.step op)

/-- A run is one to a moment, and another one from there. -/
theorem Gateway.run_split (g : Gateway) (ops : List Operation) (i : Nat) :
    g.run ops = (g.run (ops.take i)).run (ops.drop i) := by
  rw [run, run, run, ← List.foldl_append, List.take_append_drop]

/-- From a moment on, the history is the one of the run from there. -/
theorem Gateway.history_drop (g : Gateway) (ops : List Operation) (i : Nat) :
    (g.history ops).drop i = (g.run (ops.take i)).history (ops.drop i) := by
  induction ops generalizing g i with
  | nil => simp [history]
  | cons op ops ih =>
    cases i with
    | zero => rfl
    | succ i => exact ih (g.step op) i

namespace Happens

variable {h k : List Moment} {i : Nat} {m : Moment} {P Q : Moment → Prop}

theorem lt_length (hp : Happens h i P) : i < h.length := by
  obtain ⟨m, hm, _⟩ := hp
  exact (List.getElem?_eq_some_iff.mp hm).1

/-- What has happened stays so. -/
theorem append (hp : Happens h i P) : Happens (h ++ k) i P := by
  have hi := hp.lt_length
  obtain ⟨m, hm, hp⟩ := hp
  exact ⟨m, by rw [List.getElem?_append_left hi, hm], hp⟩

theorem last (hp : P m) : Happens (h ++ [m]) h.length P := ⟨m, by simp, hp⟩

/-- A moment has two properties if it has each of them. -/
theorem and (hp : Happens h i P) (hq : Happens h i Q) : Happens h i fun m => P m ∧ Q m := by
  obtain ⟨m, hm, hp⟩ := hp
  obtain ⟨m', hm', hq⟩ := hq
  rw [hm] at hm'
  cases hm'
  exact ⟨m, hm, hp, hq⟩

theorem concat_iff :
    Happens (h ++ [m]) i P ↔ Happens h i P ∨ (i = h.length ∧ P m) := by
  constructor
  · intro hp
    have hi := hp.lt_length
    obtain ⟨x, hx, hp⟩ := hp
    simp only [List.length_append, List.length_singleton] at hi
    by_cases he : i < h.length
    · rw [List.getElem?_append_left he] at hx
      exact .inl ⟨x, hx, hp⟩
    · have hi : i = h.length := by omega
      subst hi
      simp only [List.getElem?_concat_length, Option.some.injEq] at hx
      exact .inr ⟨rfl, hx ▸ hp⟩
  · rintro (hp | ⟨rfl, hp⟩)
    · exact hp.append
    · exact last hp

end Happens

end Interdomain
