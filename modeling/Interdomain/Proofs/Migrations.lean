import Interdomain.Log.Migration
import Mathlib.Data.Finset.Card
import Mathlib.Data.Finset.SDiff

/-! Runs of migrations. A transaction either takes effect with its record or leaves the database as it was, whatever
fails in it and where. So a run advances the database by the migrations that are pending, in the order of the list, up
to the one at which it stops; and because these are recorded, a later run has only the others to apply. -/
namespace Interdomain.Log

variable {σ : Type}

/-- The content after the statements of a script, unless one of them fails. -/
def runScript (script : List (Statement σ)) (content : σ) : Option σ := script.foldlM (fun x s => s x) content

@[simp] theorem runScript_nil (content : σ) : runScript [] content = some content := rfl

@[simp] theorem runScript_cons (s : Statement σ) (script : List (Statement σ)) (content : σ) :
    runScript (s :: script) content = (s content).bind (runScript script) := rfl

theorem runScript_append (xs ys : List (Statement σ)) (content : σ) :
    runScript (xs ++ ys) content = (runScript xs content).bind (runScript ys) := List.foldlM_append

/-- The names that are recorded; none are as long as there is no table for them. -/
def Database.recorded (db : Database σ) : List String := db.applied.getD []

/-- The migrations of a list whose names are not recorded; of several with one name only the first. -/
def pending (recorded : List String) : List (Migration σ) → List (Migration σ)
  | [] => []
  | m :: rest =>
    if m.name ∈ recorded then pending recorded rest else m :: pending (recorded ++ [m.name]) rest

/-- The second database is the first after these migrations: their scripts were run one after the other, and their
names were recorded in this order. -/
structure Database.Advances (db : Database σ) (ms : List (Migration σ)) (left : Database σ) : Prop where
  applied : left.applied = some (db.recorded ++ ms.map Migration.name)
  content : runScript (ms.flatMap Migration.script) db.content = some left.content

@[simp] theorem Step.unless_true (step : Step σ) (c : Connection σ) : Step.unless true step c = none := rfl

@[simp] theorem Step.unless_false (step : Step σ) (c : Connection σ) : Step.unless false step c = step c := rfl

variable {xs ys : List (Step σ)} {step : Step σ} {c c' : Connection σ}

theorem runSteps_cons_of_none (h : step c = none) : runSteps (step :: xs) c = (c, false) := by
  simp only [runSteps, h]

theorem runSteps_cons_of_some (h : step c = some c') : runSteps (step :: xs) c = runSteps xs c' := by
  simp only [runSteps, h]

theorem runSteps_append (h : runSteps xs c = (c', true)) : runSteps (xs ++ ys) c = runSteps ys c' := by
  induction xs generalizing c with
  | nil =>
    cases h
    rfl
  | cons step rest ih =>
    cases hs : step c with
    | none => simp [runSteps_cons_of_none hs] at h
    | some next =>
      rw [runSteps_cons_of_some hs] at h
      rw [List.cons_append, runSteps_cons_of_some hs, ih h]

theorem runSteps_append_of_failed (h : runSteps xs c = (c', false)) : runSteps (xs ++ ys) c = (c', false) := by
  induction xs generalizing c with
  | nil => cases h
  | cons step rest ih =>
    cases hs : step c with
    | none => rwa [List.cons_append, runSteps_cons_of_none hs, ← runSteps_cons_of_none hs]
    | some next =>
      rw [runSteps_cons_of_some hs] at h
      rw [List.cons_append, runSteps_cons_of_some hs, ih h]

namespace Migration

variable {m : Migration σ} {db : Database σ} {names : List String}

/-- In a transaction the statements of a script work on the copy. They stop early only if one of them fails or the
database does. -/
theorem runSteps_scriptSteps (outages : Outages) (position index : Nat) (script : List (Statement σ))
    (db copy : Database σ) :
    (∃ content, runScript script copy.content = some content ∧
      runSteps (scriptSteps outages position index script) ⟨db, some copy⟩ =
        (⟨db, some { copy with content }⟩, true)) ∨
    (∃ last, runSteps (scriptSteps outages position index script) ⟨db, some copy⟩ = (⟨db, some last⟩, false)) ∧
      (runScript script copy.content = none ∨ ∃ place, outages place = true) := by
  induction script generalizing copy index with
  | nil => exact .inl ⟨copy.content, rfl, rfl⟩
  | cons s script ih =>
    rw [scriptSteps]
    cases outage : outages (.statement position index) with
    | true => exact .inr ⟨⟨copy, rfl⟩, .inr ⟨_, outage⟩⟩
    | false =>
      cases hs : s copy.content with
      | none =>
        refine .inr ⟨⟨copy, runSteps_cons_of_none ?_⟩, .inl (by simp [hs])⟩
        simp [Connection.change, Database.execute, hs]
      | some content =>
        have changes : Step.unless false (Connection.change (Database.execute s)) ⟨db, some copy⟩ =
            some ⟨db, some { copy with content }⟩ := by
          simp [Connection.change, Database.execute, hs]
        rw [runSteps_cons_of_some changes, runScript_cons, hs]
        exact ih (index + 1) { copy with content }

/-- Before it is committed, a transaction has left the database as it was. -/
theorem runSteps_body (outages : Outages) (position : Nat) (ha : db.applied = some names) (hm : m.name ∉ names) :
    (∃ content, runScript m.script db.content = some content ∧
      runSteps (m.body outages position) ⟨db, none⟩ = (⟨db, some ⟨content, some (names ++ [m.name])⟩⟩, true)) ∨
    (∃ c, runSteps (m.body outages position) ⟨db, none⟩ = (c, false) ∧ c.database = db) ∧
      (runScript m.script db.content = none ∨ ∃ place, outages place = true) := by
  rw [body]
  cases began : outages (.begin position) with
  | true => exact .inr ⟨⟨_, rfl, rfl⟩, .inr ⟨_, began⟩⟩
  | false =>
    have opens : Step.unless false Connection.begin ⟨db, none⟩ = some ⟨db, some db⟩ := rfl
    rw [runSteps_cons_of_some opens]
    rcases runSteps_scriptSteps outages position 0 m.script db db with ⟨content, script, run⟩ | ⟨⟨last, run⟩, cause⟩
    · rw [runSteps_append run]
      cases marked : outages (.mark position) with
      | true => exact .inr ⟨⟨_, rfl, rfl⟩, .inr ⟨_, marked⟩⟩
      | false =>
        refine .inl ⟨content, script, ?_⟩
        simp [runSteps, Connection.change, Database.mark, ha, hm]
    · exact .inr ⟨⟨_, runSteps_append_of_failed run, rfl⟩, cause⟩

/-- A migration that is not recorded takes effect with its record, or leaves the database as it was. The second
happens only if its script fails or the database does. -/
theorem run_cases (outages : Outages) (position : Nat) (ha : db.applied = some names) (hm : m.name ∉ names) :
    (∃ content, runScript m.script db.content = some content ∧
      m.run outages position ⟨db, none⟩ = (⟨⟨content, some (names ++ [m.name])⟩, none⟩, true)) ∨
    m.run outages position ⟨db, none⟩ = (⟨db, none⟩, false) ∧
      (runScript m.script db.content = none ∨ ∃ place, outages place = true) := by
  rw [run]
  rcases runSteps_body outages position ha hm with ⟨content, script, run⟩ | ⟨⟨c, run, same⟩, cause⟩
  · rw [runSteps_append run]
    cases committed : outages (.commit position) with
    | true => exact .inr ⟨rfl, .inr ⟨_, committed⟩⟩
    | false => exact .inl ⟨content, script, rfl⟩
  · rw [runSteps_append_of_failed run]
    exact .inr ⟨by simp only [Connection.rollback, same], cause⟩

end Migration

variable {m : Migration σ} {ms : List (Migration σ)} {names : List String}

theorem pending_append (names : List String) (xs ys : List (Migration σ)) :
    pending names (xs ++ ys) =
      pending names xs ++ pending (names ++ (pending names xs).map Migration.name) ys := by
  induction xs generalizing names with
  | nil => simp [pending]
  | cons m xs ih =>
    by_cases h : m.name ∈ names
    · simp only [List.cons_append, pending, if_pos h, ih]
    · simp only [List.cons_append, pending, if_neg h, ih, List.map_cons, List.append_assoc,
        List.nil_append]

theorem pending_eq_nil (h : ∀ m ∈ ms, m.name ∈ names) : pending names ms = [] := by
  induction ms with
  | nil => rfl
  | cons m ms ih =>
    rw [pending, if_pos (h m List.mem_cons_self)]
    exact ih fun m hm => h m (List.mem_cons_of_mem _ hm)

/-- After those that are pending, every name of the list is recorded. -/
theorem mem_append_pending (names : List String) (hm : m ∈ ms) :
    m.name ∈ names ++ (pending names ms).map Migration.name := by
  induction ms generalizing names with
  | nil => cases hm
  | cons x ms ih =>
    by_cases h : x.name ∈ names
    · rw [pending, if_pos h]
      rcases List.mem_cons.mp hm with rfl | hm
      · exact List.mem_append_left _ h
      · exact ih names hm
    · rw [pending, if_neg h, List.map_cons]
      rcases List.mem_cons.mp hm with rfl | hm
      · simp
      · simpa using ih (names ++ [x.name]) hm

theorem mem_of_mem_pending (h : m ∈ pending names ms) : m ∈ ms ∧ m.name ∉ names := by
  induction ms generalizing names with
  | nil => cases h
  | cons x ms ih =>
    rw [pending] at h
    split at h
    · exact (ih h).imp_left (List.mem_cons_of_mem _)
    · rename_i hx
      rcases List.mem_cons.mp h with rfl | h
      · exact ⟨List.mem_cons_self, hx⟩
      · obtain ⟨hm, hn⟩ := ih h
        exact ⟨List.mem_cons_of_mem _ hm, fun h => hn (List.mem_append_left _ h)⟩

theorem nodup_pending (names : List String) (ms : List (Migration σ)) :
    ((pending names ms).map Migration.name).Nodup := by
  induction ms generalizing names with
  | nil => exact .nil
  | cons m ms ih =>
    rw [pending]
    split
    · exact ih names
    · refine List.nodup_cons.mpr ⟨fun h => ?_, ih _⟩
      obtain ⟨x, hx, heq⟩ := List.mem_map.mp h
      exact (mem_of_mem_pending hx).2 (by simp [heq])

/-- As many are pending as the list has distinct names that are not recorded. -/
theorem length_pending (names : List String) (ms : List (Migration σ)) :
    (pending names ms).length = ((ms.map Migration.name).toFinset \ names.toFinset).card := by
  rw [← List.length_map Migration.name, ← List.toFinset_card_of_nodup (nodup_pending names ms)]
  congr 1
  ext name
  simp only [List.mem_toFinset, Finset.mem_sdiff, List.mem_map]
  constructor
  · rintro ⟨m, hm, rfl⟩
    exact ⟨⟨m, (mem_of_mem_pending hm).1, rfl⟩, (mem_of_mem_pending hm).2⟩
  · rintro ⟨⟨m, hm, rfl⟩, fresh⟩
    have h := (List.mem_append.mp (mem_append_pending names hm)).resolve_left fresh
    exact List.mem_map.mp h

namespace Database.Advances

variable {db mid left : Database σ} {xs ys : List (Migration σ)}

theorem recorded (h : db.Advances ms left) : left.recorded = db.recorded ++ ms.map Migration.name := by
  rw [Database.recorded, h.applied, Option.getD_some]

theorem prepare (db : Database σ) : db.Advances [] db.prepare := ⟨by simp [Database.prepare, Database.recorded], rfl⟩

theorem trans (first : db.Advances xs mid) (second : mid.Advances ys left) : db.Advances (xs ++ ys) left where
  applied := by rw [second.applied, first.recorded, List.map_append, List.append_assoc]
  content := by rw [List.flatMap_append, runScript_append, first.content, Option.bind_some, second.content]

/-- The migrations determine the database that they lead to. -/
theorem unique {other : Database σ} (h : db.Advances ms left) (h' : db.Advances ms other) : left = other := by
  obtain ⟨content, applied⟩ := left
  obtain ⟨content', applied'⟩ := other
  have same : applied = applied' := h.applied.trans h'.applied.symm
  have alike : some content = some content' := h.content.symm.trans h'.content
  cases same
  cases alike
  rfl

theorem refl (h : db.applied = some names) : db.Advances [] db := ⟨by simp [Database.recorded, h], rfl⟩

end Database.Advances

/-- Why a run stops at a migration: it cannot be told whether the migration was applied, or it was not, and its script
or the database fails. -/
inductive StopsAt (outages : Outages) (left : Database σ) (m : Migration σ) : MigrationFailure → Prop
  | lookup (outage : ∃ place, outages place = true) : StopsAt outages left m .lookup
  | execution (fresh : m.name ∉ left.recorded)
      (cause : runScript m.script left.content = none ∨ ∃ place, outages place = true) :
      StopsAt outages left m (.execution m.name)

theorem StopsAt.name_eq {outages : Outages} {left : Database σ} {name : String}
    (h : StopsAt outages left m (.execution name)) : m.name = name := by
  generalize he : MigrationFailure.execution name = e at h
  cases h with
  | lookup => cases he
  | execution =>
    cases he
    rfl

/-- A run over the list has applied all that is pending, after `count` others; or it has applied what is pending
before a migration of the list and stopped there. No transaction is left open. -/
inductive MigrationRun.Follows (outages : Outages) (count : Nat) (ms : List (Migration σ)) (db : Database σ) :
    MigrationRun σ → Prop
  | completes {left : Database σ} (advances : db.Advances (pending db.recorded ms) left) :
      Follows outages count ms db ⟨⟨left, none⟩, .ok (count + (pending db.recorded ms).length)⟩
  | stops {left : Database σ} {e : MigrationFailure} (before : List (Migration σ)) (m : Migration σ)
      (after : List (Migration σ)) (split : ms = before ++ m :: after)
      (advances : db.Advances (pending db.recorded before) left) (cause : StopsAt outages left m e) :
      Follows outages count ms db ⟨⟨left, none⟩, .error e⟩

namespace MigrationRun.Follows

variable {outages : Outages} {count : Nat} {db mid : Database σ} {r : MigrationRun σ}

/-- A recorded migration is passed over. -/
theorem skip (hm : m.name ∈ db.recorded) (h : r.Follows outages count ms db) :
    r.Follows outages count (m :: ms) db := by
  have same (rest : List (Migration σ)) : pending db.recorded (m :: rest) = pending db.recorded rest := by
    rw [pending, if_pos hm]
  cases h with
  | completes advances =>
    rw [← same] at advances ⊢
    exact .completes advances
  | stops before x after split advances cause =>
    rw [← same] at advances
    exact .stops (m :: before) x after (by rw [split, List.cons_append]) advances cause

/-- After a migration that takes effect, the run goes on from the database with it. -/
theorem advance (hm : m.name ∉ db.recorded) (applies : db.Advances [m] mid)
    (h : r.Follows outages (count + 1) ms mid) : r.Follows outages count (m :: ms) db := by
  have next (rest : List (Migration σ)) : pending db.recorded (m :: rest) = [m] ++ pending mid.recorded rest := by
    rw [pending, if_neg hm, applies.recorded, List.map_singleton, List.singleton_append]
  cases h with
  | completes advances =>
    have whole := applies.trans advances
    have length : count + 1 + (pending mid.recorded ms).length = count + (pending db.recorded (m :: ms)).length := by
      rw [next, List.length_append, List.length_singleton, Nat.add_assoc]
    rw [← next] at whole
    rw [length]
    exact .completes whole
  | stops before x after split advances cause =>
    have whole := applies.trans advances
    rw [← next] at whole
    exact .stops (m :: before) x after (by rw [split, List.cons_append]) whole cause

/-- What a run does to a database whose table of names it has created first. -/
theorem of_prepare (h : r.Follows outages count ms db.prepare) : r.Follows outages count ms db := by
  have same : db.prepare.recorded = db.recorded := by
    rw [(Database.Advances.prepare db).recorded, List.map_nil, List.append_nil]
  cases h with
  | completes advances =>
    have whole := (Database.Advances.prepare db).trans advances
    rw [List.nil_append, same] at whole
    rw [same]
    exact .completes whole
  | stops before x after split advances cause =>
    have whole := (Database.Advances.prepare db).trans advances
    rw [List.nil_append, same] at whole
    exact .stops before x after split whole cause

end MigrationRun.Follows

theorem isMarked?_of_applied {db : Database σ} (ha : db.applied = some names) (name : String) :
    Connection.isMarked? false name ⟨db, none⟩ = some (decide (name ∈ names)) := by
  simp [Connection.isMarked?, Connection.view, ha]

theorem migrateFrom_follows (outages : Outages) (position count : Nat) (ms : List (Migration σ)) {db : Database σ}
    (ha : db.applied = some names) :
    (migrateFrom outages position count ms ⟨db, none⟩).Follows outages count ms db := by
  induction ms generalizing position count db names with
  | nil => exact .completes (.refl ha)
  | cons m ms ih =>
    have recorded : db.recorded = names := by rw [Database.recorded, ha, Option.getD_some]
    rw [migrateFrom]
    cases outage : outages (.lookup position) with
    | true => exact .stops [] m ms rfl (.refl ha) (.lookup ⟨_, outage⟩)
    | false =>
      rw [isMarked?_of_applied ha]
      by_cases hm : m.name ∈ names
      · simp only [decide_eq_true hm]
        exact .skip (recorded ▸ hm) (ih (position + 1) count ha)
      · simp only [decide_eq_false hm]
        rcases m.run_cases outages position ha hm with ⟨content, script, run⟩ | ⟨run, cause⟩
        · have applies : db.Advances [m] ⟨content, some (names ++ [m.name])⟩ :=
            ⟨by simp [recorded], by simpa using script⟩
          rw [run]
          exact .advance (recorded ▸ hm) applies (ih (position + 1) (count + 1) rfl)
        · rw [run]
          exact .stops [] m ms rfl (.refl ha) (.execution (recorded ▸ hm) cause)

variable {outages : Outages} {db left : Database σ}

theorem migrate_follows (ms : List (Migration σ)) (db : Database σ) (h : outages .prepare = false) :
    (migrate outages ms db).Follows outages 0 ms db := by
  rw [migrate, if_neg (by simp [h])]
  exact (migrateFrom_follows outages 0 0 ms rfl).of_prepare

/-- If the database does not fail, a run stops only for a script that does. -/
theorem migrate_completes {content : σ}
    (h : runScript ((pending db.recorded ms).flatMap Migration.script) db.content = some content) :
    ∃ n, (migrate noOutages ms db).outcome = .ok n := by
  have follows : (migrate noOutages ms db).Follows noOutages 0 ms db := migrate_follows ms db rfl
  generalize migrate noOutages ms db = r at follows ⊢
  cases follows with
  | completes => exact ⟨_, rfl⟩
  | stops before m after split advances cause =>
    cases cause with
    | lookup outage => exact absurd outage (by simp [noOutages])
    | execution fresh cause =>
      have fails := cause.resolve_right (by simp [noOutages])
      rw [split, pending_append, ← advances.recorded, pending, if_neg fresh, List.flatMap_append, runScript_append,
        advances.content, Option.bind_some, List.flatMap_cons, runScript_append, fails] at h
      cases h

/-- A run over a list whose names are all recorded changes nothing. -/
theorem migrate_database_of_recorded (ha : db.applied = some names) (h : ∀ m ∈ ms, m.name ∈ db.recorded) :
    (migrate outages ms db).database = db := by
  cases outage : outages .prepare with
  | true => simp [migrate, outage, MigrationRun.database, Connection.view]
  | false =>
    have follows := migrate_follows ms db outage
    generalize migrate outages ms db = r at follows ⊢
    cases follows with
    | completes advances =>
      rw [pending_eq_nil h] at advances
      exact advances.unique (.refl ha)
    | stops before m after split advances cause =>
      have seen : pending db.recorded before = [] :=
        pending_eq_nil fun m hm => h m (split ▸ List.mem_append_left _ hm)
      rw [seen] at advances
      exact advances.unique (.refl ha)

/-- A run that ends well has applied what was pending, in the order of the list. -/
theorem advances_of_outcome_ok {n : Nat} (h : (migrate outages ms db).outcome = .ok n) :
    db.Advances (pending db.recorded ms) (migrate outages ms db).database ∧ n = (pending db.recorded ms).length := by
  cases outage : outages .prepare with
  | true => simp [migrate, outage] at h
  | false =>
    have follows := migrate_follows ms db outage
    generalize migrate outages ms db = r at follows h ⊢
    cases follows with
    | completes advances =>
      cases h
      exact ⟨advances, Nat.zero_add _⟩
    | stops => cases h

/-- A run that does not end well has applied what was pending before the migration at which it stopped. -/
theorem stops_of_outcome_error {e : MigrationFailure} (h : (migrate outages ms db).outcome = .error e) :
    (e = .execution preparation ∧ (migrate outages ms db).database = db) ∨
    ∃ before m after, ms = before ++ m :: after ∧ StopsAt outages (migrate outages ms db).database m e ∧
      db.Advances (pending db.recorded before) (migrate outages ms db).database := by
  cases outage : outages .prepare with
  | true =>
    left
    simp only [migrate, outage, if_true] at h ⊢
    cases h
    exact ⟨rfl, rfl⟩
  | false =>
    have follows := migrate_follows ms db outage
    generalize migrate outages ms db = r at follows h ⊢
    cases follows with
    | completes => cases h
    | stops before m after split advances cause =>
      cases h
      exact .inr ⟨before, m, after, split, cause, advances⟩

/-- A later run over a list that begins in the same way goes on where the earlier one stopped. -/
theorem pending_resumed {before : List (Migration σ)} (h : db.Advances (pending db.recorded before) left)
    (repaired : List (Migration σ)) :
    pending left.recorded (before ++ repaired) = pending left.recorded repaired ∧
    pending db.recorded (before ++ repaired) = pending db.recorded before ++ pending left.recorded repaired := by
  have seen : pending left.recorded before = [] := pending_eq_nil fun m hm => by
    rw [h.recorded]
    exact mem_append_pending _ hm
  constructor
  · rw [pending_append, seen, List.map_nil, List.append_nil, List.nil_append]
  · rw [pending_append, ← h.recorded]

/-- A run of migrations applies what is pending, once and in the order of the list, up to the first that fails. A
later run over a list that agrees on those applies the rest, so that in the end the two have done what one would have.
-/
theorem migrations_applied_once (outages : Outages) (ms : List (Migration σ)) (db : Database σ) :
    let left := (migrate outages ms db).database
    (∀ n, (migrate outages ms db).outcome = .ok n →
      db.Advances (pending db.recorded ms) left ∧ (∀ m ∈ ms, m.name ∈ left.recorded) ∧
      n = ((ms.map Migration.name).toFinset \ db.recorded.toFinset).card ∧
      (migrate noOutages ms left).outcome = .ok 0 ∧ ∀ again, (migrate again ms left).database = left) ∧
    ∀ e, (migrate outages ms db).outcome = .error e →
      (e = .execution preparation ∧ left = db) ∨
      ∃ before m after, ms = before ++ m :: after ∧ StopsAt outages left m e ∧
        db.Advances (pending db.recorded before) left ∧
        ∀ repaired,
          (∀ later k, (migrate later (before ++ repaired) left).outcome = .ok k →
            k = ((repaired.map Migration.name).toFinset \ left.recorded.toFinset).card ∧
            left.Advances (pending left.recorded repaired) (migrate later (before ++ repaired) left).database ∧
            db.Advances (pending db.recorded (before ++ repaired))
              (migrate later (before ++ repaired) left).database) ∧
          ∀ content, runScript ((pending left.recorded repaired).flatMap Migration.script) left.content = some content →
            ∃ k, (migrate noOutages (before ++ repaired) left).outcome = .ok k := by
  intro left
  constructor
  · intro n ok
    obtain ⟨advances, count⟩ := advances_of_outcome_ok ok
    have recorded : ∀ m ∈ ms, m.name ∈ left.recorded := fun m hm => by
      rw [advances.recorded]
      exact mem_append_pending _ hm
    refine ⟨advances, recorded, count.trans (length_pending _ _), ?_, fun again =>
      migrate_database_of_recorded advances.applied recorded⟩
    have seen : pending left.recorded ms = [] := pending_eq_nil recorded
    have unchanged : runScript ((pending left.recorded ms).flatMap Migration.script) left.content =
        some left.content := by
      rw [seen]
      rfl
    obtain ⟨k, again⟩ := migrate_completes unchanged
    rw [again, (advances_of_outcome_ok again).2, seen, List.length_nil]
  · intro e failed
    rcases stops_of_outcome_error failed with unprepared | ⟨before, m, after, split, cause, advances⟩
    · exact .inl unprepared
    · refine .inr ⟨before, m, after, split, cause, advances, fun repaired => ?_⟩
      obtain ⟨rest, whole⟩ := pending_resumed advances repaired
      constructor
      · intro later k ok
        obtain ⟨next, count⟩ := advances_of_outcome_ok ok
        rw [rest] at next count
        refine ⟨count.trans (length_pending _ _), next, ?_⟩
        rw [whole]
        exact advances.trans next
      · intro content script
        exact migrate_completes (by rw [rest]; exact script)

/-- The second of three scripts fails after its first statement, which leaves no trace. When it is repaired, a later
run applies it and the third. -/
theorem repaired_script_resumed :
    let push (n : Nat) : Statement (List Nat) := fun numbers => some (numbers ++ [n])
    let broken : Migration (List Nat) := ⟨"two", [push 2, fun _ => none]⟩
    let repaired : List (Migration (List Nat)) := [⟨"two", [push 2]⟩, ⟨"three", [push 3]⟩]
    let run := migrate noOutages [⟨"one", [push 1]⟩, broken, ⟨"three", [push 3]⟩] ⟨[], none⟩
    let next := migrate noOutages (⟨"one", [push 1]⟩ :: repaired) run.database
    run.outcome = .error (.execution "two") ∧ run.database = ⟨[1], some ["one"]⟩ ∧
      next.outcome = .ok 2 ∧ next.database = ⟨[1, 2, 3], some ["one", "two", "three"]⟩ ∧
      (migrate noOutages (⟨"one", [push 1]⟩ :: repaired) next.database).outcome = .ok 0 := by
  intro push broken repaired run next
  have failed : run.outcome = .error (.execution "two") := rfl
  have ok : next.outcome = .ok 2 := rfl
  refine ⟨failed, ?_, ok, ?_, ((migrations_applied_once _ _ _).1 2 ok).2.2.2.1⟩
  · rcases (migrations_applied_once _ _ _).2 _ failed with
      ⟨unprepared, -⟩ | ⟨before, m, after, split, cause, advances, -⟩
    · exact absurd unprepared (by decide)
    · have named := cause.name_eq
      rcases before with _ | ⟨first, _ | ⟨second, before⟩⟩
      · cases split
        exact absurd named (by decide)
      · cases split
        exact advances.unique ⟨rfl, rfl⟩
      · obtain ⟨-, -, last⟩ :
            _ = first ∧ _ = second ∧ [(⟨"three", [push 3]⟩ : Migration (List Nat))] = before ++ m :: after := by
          simpa using split
        rcases before with _ | ⟨third, before⟩
        · cases last
          exact absurd named (by decide)
        · simp at last
  · have advances := ((migrations_applied_once _ _ _).1 2 ok).1
    exact advances.unique ⟨rfl, rfl⟩

end Interdomain.Log
