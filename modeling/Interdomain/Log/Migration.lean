/-! Migrations of a database. A migration is a script of statements with a name; the names of the migrations
that were applied are recorded in the database, and a recorded one is passed over. Each migration is a
transaction of its own. A transaction works on a copy of the database, which takes the place of the database
when the transaction is committed, and is dropped when a step before that fails. -/
namespace Interdomain.Log

/-- A change to the content of a database, which may fail and then changes nothing. -/
abbrev Statement (σ : Type) := σ → Option σ

structure Migration (σ : Type) where
  name : String
  script : List (Statement σ)

/-- A database with the names of the migrations that were applied to it, oldest first, once there is a table
for them. -/
structure Database (σ : Type) where
  content : σ
  applied : Option (List String) := none
  deriving Repr, DecidableEq

namespace Database

variable {σ : Type}

/-- Creates the table of names, unless there is one. -/
def prepare (db : Database σ) : Database σ := { db with applied := some (db.applied.getD []) }

def execute (s : Statement σ) (db : Database σ) : Option (Database σ) :=
  (s db.content).map fun content => { db with content }

/-- Records a name; no name is recorded twice. -/
def mark (name : String) (db : Database σ) : Option (Database σ) :=
  match db.applied with
  | none => none
  | some names => if name ∈ names then none else some { db with applied := some (names ++ [name]) }

end Database

/-- A database that is worked on, with the copy that the open transaction works on. -/
structure Connection (σ : Type) where
  database : Database σ
  transaction : Option (Database σ) := none
  deriving Repr, DecidableEq

/-- What is done on a connection, unless it fails. -/
abbrev Step (σ : Type) := Connection σ → Option (Connection σ)

namespace Connection

variable {σ : Type}

/-- The database as it is seen on the connection. -/
def view (c : Connection σ) : Database σ := c.transaction.getD c.database

/-- Opens a transaction; there are none inside others. -/
def begin : Step σ := fun c =>
  match c.transaction with
  | some _ => none
  | none => some { c with transaction := some c.database }

/-- Changes the copy if a transaction is open, and otherwise the database itself. -/
def change (f : Database σ → Option (Database σ)) : Step σ := fun c =>
  match c.transaction with
  | some copy => (f copy).map fun copy => { c with transaction := some copy }
  | none => (f c.database).map fun database => { c with database }

def commit : Step σ := fun c => c.transaction.map fun copy => { database := copy }

def rollback (c : Connection σ) : Connection σ := { c with transaction := none }

end Connection

/-- The places of a run at which the database may fail for reasons of its own; migrations are counted by their
position in the list, and statements by their position in the script. -/
inductive Place where
  | prepare
  | lookup (position : Nat)
  | begin (position : Nat)
  | statement (position index : Nat)
  | mark (position : Nat)
  | commit (position : Nat)
  deriving Repr, DecidableEq

abbrev Outages := Place → Bool

def noOutages : Outages := fun _ => false

inductive MigrationFailure where
  /-- The migration with this name did not take effect. -/
  | execution (name : String)
  /-- It could not be found out whether a migration was applied. -/
  | lookup
  deriving Repr, DecidableEq

def MigrationFailure.message : MigrationFailure → String
  | execution name => "migration '" ++ name ++ "' failed"
  | lookup => "failed to check migration state"

variable {σ : Type}

def Step.unless (outage : Bool) (step : Step σ) : Step σ := fun c => if outage then none else step c

/-- The steps one after the other, up to the first that fails: the connection after them, and whether none
failed. -/
def runSteps : List (Step σ) → Connection σ → Connection σ × Bool
  | [], c => (c, true)
  | step :: rest, c =>
    match step c with
    | none => (c, false)
    | some c => runSteps rest c

namespace Migration

/-- The statements of a script from the one at `index` on. -/
def scriptSteps (outages : Outages) (position : Nat) : Nat → List (Statement σ) → List (Step σ)
  | _, [] => []
  | index, s :: rest =>
    Step.unless (outages (.statement position index)) (Connection.change (Database.execute s)) ::
      scriptSteps outages position (index + 1) rest

/-- What a transaction does before it is committed. -/
def body (outages : Outages) (position : Nat) (m : Migration σ) : List (Step σ) :=
  Step.unless (outages (.begin position)) Connection.begin ::
    (scriptSteps outages position 0 m.script ++
      [Step.unless (outages (.mark position)) (Connection.change (Database.mark m.name))])

/-- The migration as a transaction: the connection after it, and whether it took effect. -/
def run (outages : Outages) (position : Nat) (m : Migration σ) (c : Connection σ) : Connection σ × Bool :=
  match runSteps (m.body outages position ++ [Step.unless (outages (.commit position)) Connection.commit]) c with
  | (c, true) => (c, true)
  | (c, false) => (c.rollback, false)

end Migration

/-- Whether the name is recorded, unless the database fails to tell. -/
def Connection.isMarked? (outage : Bool) (name : String) (c : Connection σ) : Option Bool :=
  if outage then none else c.view.applied.map fun names => decide (name ∈ names)

/-- What running a list of migrations came to: the connection after it, and how many were applied, unless one
failed. -/
structure MigrationRun (σ : Type) where
  connection : Connection σ
  outcome : Except MigrationFailure Nat

def MigrationRun.database (r : MigrationRun σ) : Database σ := r.connection.view

/-- Applies the migrations that are not recorded, in order, up to the first that fails; the first of the list
stands at `position`, and `count` have been applied before. -/
def migrateFrom (outages : Outages) (position count : Nat) :
    List (Migration σ) → Connection σ → MigrationRun σ
  | [], c => ⟨c, .ok count⟩
  | m :: rest, c =>
    match c.isMarked? (outages (.lookup position)) m.name with
    | none => ⟨c, .error .lookup⟩
    | some true => migrateFrom outages (position + 1) count rest c
    | some false =>
      match m.run outages position c with
      | (c, true) => migrateFrom outages (position + 1) (count + 1) rest c
      | (c, false) => ⟨c, .error (.execution m.name)⟩

/-- The name under which a failure to create the table of names is reported. -/
def preparation : String := "_s2s_migrations_bootstrap"

/-- Applies the migrations that are not recorded, in order, up to the first that fails. -/
def migrate (outages : Outages) (migrations : List (Migration σ)) (db : Database σ) : MigrationRun σ :=
  if outages .prepare then ⟨{ database := db }, .error (.execution preparation)⟩
  else migrateFrom outages 0 0 migrations { database := db.prepare }

end Interdomain.Log
