import Tabular.Proofs.Result
import Tabular.Database
import Tabular.Outcome

/-!
The time of creation of a database.

Only a description tells when a database was created: nothing that is asked of the tables depends on
it (`AsksTables`), and what changes them neither depends on it nor changes it (`IgnoresCreation`).
So two databases with the same tables answer alike, and go on having the same tables.
-/

namespace Tabular.Database

variable {α : Type} {db db' : Database}

/-- The database, created at another time. -/
def withCreation (db : Database) (t : Timestamp) : Database := { db with createdAt := t }

@[simp] theorem tables_withCreation (db : Database) (t : Timestamp) :
    (db.withCreation t).tables = db.tables := rfl

theorem eq_withCreation (h : db.tables = db'.tables) : db' = db.withCreation db'.createdAt := by
  unfold withCreation
  rw [h]

/-- A question about the tables alone. -/
def AsksTables (f : Database → Except StorageError α) : Prop :=
  ∀ db t, f (db.withCreation t) = f db

/-- A change of the tables alone. -/
def IgnoresCreation (f : Database → Except StorageError (α × Database)) : Prop :=
  ∀ db t, f (db.withCreation t) = (f db).map fun r => (r.1, r.2.withCreation t)

/-- Databases with the same tables answer alike. -/
theorem AsksTables.eq {f : Database → Except StorageError α} (asks : AsksTables f)
    (h : db.tables = db'.tables) : f db' = f db := by
  rw [eq_withCreation h]
  exact asks db db'.createdAt

/-- Databases with the same tables are refused a change alike, or have the same tables after it. -/
theorem IgnoresCreation.cases {f : Database → Except StorageError (α × Database)}
    (ignores : IgnoresCreation f) (h : db.tables = db'.tables) :
    (∃ err, f db = .error err ∧ f db' = .error err) ∨
      ∃ a d d', f db = .ok (a, d) ∧ f db' = .ok (a, d') ∧ d.tables = d'.tables := by
  rw [eq_withCreation h, ignores]
  rcases f db with err | ⟨a, d⟩
  · exact .inl ⟨err, rfl, rfl⟩
  · exact .inr ⟨a, d, d.withCreation db'.createdAt, rfl, rfl, rfl⟩

/-! ### Operations -/

theorem asksTables_find [PatternCompiler] (q : QuerySpec) : AsksTables fun db => db.find q :=
  fun _ _ => rfl

theorem asksTables_describeTable (name : String) : AsksTables fun db => db.describeTable name :=
  fun _ _ => rfl

theorem createTable_withCreation (db : Database) (t : Timestamp) (spec : TableSpec) :
    (db.withCreation t).createTable spec = (db.createTable spec).map (·.withCreation t) := by
  unfold createTable
  rw [tables_withCreation]
  cases db.tables.get? spec.name <;> rfl

theorem dropTable_withCreation (db : Database) (t : Timestamp) (name : String) :
    (db.withCreation t).dropTable name = (db.dropTable name).map (·.withCreation t) := by
  unfold dropTable
  rw [tables_withCreation]
  cases db.tables.get? name <;> rfl

theorem insert_withCreation (db : Database) (t : Timestamp) (spec : InsertSpec) :
    (db.withCreation t).insert spec = (db.insert spec).map (·.withCreation t) := by
  unfold insert table
  rw [tables_withCreation]
  cases db.tables.get? spec.table with
  | none => rfl
  | some tab =>
    dsimp only [Result.ok_bind]
    cases tab.insert spec <;> rfl

theorem ignoresCreation_update [PatternCompiler] (q : QuerySpec) :
    IgnoresCreation fun db => db.update q := by
  intro db t
  dsimp only
  unfold update table
  rw [tables_withCreation]
  cases db.tables.get? q.table with
  | none => rfl
  | some tab =>
    dsimp only [Result.ok_bind]
    cases tab.update q <;> rfl

theorem ignoresCreation_delete [PatternCompiler] (q : QuerySpec) :
    IgnoresCreation fun db => db.delete q := by
  intro db t
  dsimp only
  unfold delete table
  rw [tables_withCreation]
  cases db.tables.get? q.table with
  | none => rfl
  | some tab =>
    dsimp only [Result.ok_bind]
    cases tab.delete q <;> rfl

/-! ### Outcomes -/

/-- A change that gives the changed database alone. -/
theorem ignoresCreation_of {f : Database → Except StorageError Database} {a : Outcome}
    (hf : ∀ db t, f (db.withCreation t) = (f db).map (·.withCreation t)) :
    IgnoresCreation fun db => do return (a, ← f db) := by
  intro db t
  dsimp only
  rw [hf]
  cases f db <;> rfl

/-- A change that counts rows. -/
theorem ignoresCreation_of_count {f : Database → Except StorageError (Nat × Database)}
    (hf : IgnoresCreation f) :
    IgnoresCreation fun db => do
      let (n, db) ← f db
      return (Outcome.affected n, db) := by
  intro db t
  dsimp only
  rw [hf]
  cases f db <;> rfl

/-- A question whose answer becomes an outcome. -/
theorem asksTables_of {f : Database → Except StorageError α} (hf : AsksTables f)
    (g : α → Outcome) : AsksTables fun db => do return g (← f db) := by
  intro db t
  dsimp only
  rw [hf]

end Tabular.Database
