import Tabular.Proofs.Execution
import Tabular.Proofs.Table.Integrity

/-!
The integrity of every table of every database.

`TableChange` lists what changes the tables of an open database; a change is made through a handle,
and several handles may lead to one database. Main statement: from databases without tables, any
sequence of changes through any handles, refused ones among them, leads to databases all of whose
tables are sound (`tables_sound_of_changes`). A step keeps soundness (`soundTables_of_change`), and
the run follows by induction.
-/

namespace Tabular

namespace Database

/-- Every table of a database is sound. -/
def SoundTables (db : Database) : Prop :=
  ∀ name t, db.tables.get? name = some t → t.Sound

theorem SoundTables.of_empty {db : Database} (h : db.tables = Keyed.empty) : db.SoundTables := by
  intro name t ht
  simp [h] at ht

theorem SoundTables.setTable {db : Database} (h : db.SoundTables) {t : Table} (ht : t.Sound)
    (name : String) : (db.setTable name t).SoundTables := by
  intro n s hs
  simp only [Database.setTable, Keyed.get?_insert] at hs
  split at hs
  · exact Option.some.inj hs ▸ ht
  · exact h n s hs

theorem SoundTables.table {db : Database} (h : db.SoundTables) {name : String} {t : Table}
    (ht : db.table name = .ok t) : t.Sound := by
  unfold Database.table at ht
  split at ht
  · next s hs => exact Except.ok.inj ht ▸ h name s hs
  · simp at ht

/-! ### One operation -/

theorem SoundTables.createTable {db db' : Database} {spec : TableSpec} (h : db.SoundTables)
    (hc : db.createTable spec = .ok db') : db'.SoundTables := by
  unfold Database.createTable at hc
  split at hc
  · simp at hc
  · exact Except.ok.inj hc ▸ h.setTable (Table.ofSpec_sound spec) spec.name

theorem SoundTables.dropTable {db db' : Database} {name : String} (h : db.SoundTables)
    (hd : db.dropTable name = .ok db') : db'.SoundTables := by
  unfold Database.dropTable at hd
  split at hd
  · rw [← Except.ok.inj hd]
    intro n t ht
    simp only [Keyed.get?_erase] at ht
    split at ht
    · simp at ht
    · exact h n t ht
  · simp at hd

theorem SoundTables.insert {db db' : Database} {spec : InsertSpec} (h : db.SoundTables)
    (hi : db.insert spec = .ok db') : db'.SoundTables := by
  simp only [Database.insert, Result.bind_eq_ok_iff, Result.pure_eq_ok_iff] at hi
  obtain ⟨t, ht, t', hs, rfl⟩ := hi
  exact h.setTable (Table.insert_sound (h.table ht) hs) spec.table

theorem SoundTables.update [PatternCompiler] {db db' : Database} {q : QuerySpec} {n : Nat}
    (h : db.SoundTables)
    (hu : db.update q = .ok (n, db')) : db'.SoundTables := by
  simp only [Database.update, Result.bind_eq_ok_iff, Result.pure_eq_ok_iff] at hu
  obtain ⟨t, ht, ⟨m, t'⟩, hs, hpair⟩ := hu
  exact (Prod.mk.inj hpair).2 ▸ h.setTable (Table.update_sound (h.table ht) hs) q.table

theorem SoundTables.delete [PatternCompiler] {db db' : Database} {q : QuerySpec} {n : Nat}
    (h : db.SoundTables)
    (hd : db.delete q = .ok (n, db')) : db'.SoundTables := by
  simp only [Database.delete, Result.bind_eq_ok_iff, Result.pure_eq_ok_iff] at hd
  obtain ⟨t, ht, ⟨m, t'⟩, hs, hpair⟩ := hd
  exact (Prod.mk.inj hpair).2 ▸ h.setTable (Table.delete_sound (h.table ht) hs) q.table

end Database

/-! ### Changes through handles -/

/-- A change to the tables of an open database. -/
inductive TableChange where
  | create (spec : TableSpec)
  | drop (name : String)
  | insert (spec : InsertSpec)
  | update (q : QuerySpec)
  | delete (q : QuerySpec)
  deriving DecidableEq, Repr

/-- Makes a change through a handle. -/
def TableChange.through [PatternCompiler] (h : Handle) : TableChange → EngineM Outcome
  | .create spec => Engine.createTable h spec
  | .drop name => Engine.dropTable h name
  | .insert spec => Engine.insert h spec
  | .update q => Engine.update h q
  | .delete q => Engine.delete h q

namespace TableChange

variable [PatternCompiler]

/-- What a change makes of a database. -/
def apply : TableChange → Database → Except StorageError (Outcome × Database)
  | .create spec, db => do
    return (.message ("Table " ++ spec.name ++ " created."), ← db.createTable spec)
  | .drop name, db => do
    return (.message ("Table " ++ name ++ " dropped."), ← db.dropTable name)
  | .insert spec, db => do return (.affected 1, ← db.insert spec)
  | .update q, db => do
    let (n, db) ← db.update q
    return (.affected n, db)
  | .delete q, db => do
    let (n, db) ← db.delete q
    return (.affected n, db)

theorem through_eq (h : Handle) (change : TableChange) :
    change.through h = Engine.edit h change.apply := by
  cases change <;> rfl

/-- What a change makes of a database with sound tables has sound tables, whether or not a statement
can make the change. -/
theorem soundTables_of_apply (change : TableChange) (db : Database) (outcome : Outcome)
    (db' : Database) (h : db.SoundTables) (hc : change.apply db = .ok (outcome, db')) :
    db'.SoundTables := by
  cases change with
  | create spec =>
    obtain ⟨next, hcreate, hpair⟩ := Result.bind_eq_ok_iff.1 hc
    exact (Prod.mk.inj (Result.pure_eq_ok_iff.1 hpair)).2 ▸ h.createTable hcreate
  | drop name =>
    obtain ⟨next, hdrop, hpair⟩ := Result.bind_eq_ok_iff.1 hc
    exact (Prod.mk.inj (Result.pure_eq_ok_iff.1 hpair)).2 ▸ h.dropTable hdrop
  | insert spec =>
    obtain ⟨next, hinsert, hpair⟩ := Result.bind_eq_ok_iff.1 hc
    exact (Prod.mk.inj (Result.pure_eq_ok_iff.1 hpair)).2 ▸ h.insert hinsert
  | update q =>
    obtain ⟨⟨n, next⟩, hupdate, hpair⟩ := Result.bind_eq_ok_iff.1 hc
    exact (Prod.mk.inj (Result.pure_eq_ok_iff.1 hpair)).2 ▸ h.update hupdate
  | delete q =>
    obtain ⟨⟨n, next⟩, hdelete, hpair⟩ := Result.bind_eq_ok_iff.1 hc
    exact (Prod.mk.inj (Result.pure_eq_ok_iff.1 hpair)).2 ▸ h.delete hdelete

end TableChange

namespace Engine

section

variable [PatternCompiler]

/-- The engine after changes, each through a handle; a change that is refused is passed over. -/
def afterChanges (e : Engine) (changes : List (Handle × TableChange)) : Engine :=
  changes.foldl (fun e c => (exec (c.2.through c.1) e).2) e

/-- Every table of every database is sound. -/
def SoundTables (e : Engine) : Prop :=
  ∀ db ∈ e.states, db.SoundTables

omit [PatternCompiler] in
theorem SoundTables.databaseOf {e : Engine} (h : e.SoundTables) (handle : Handle) :
    (e.databaseOf handle).SoundTables := by
  unfold Engine.databaseOf Engine.state
  cases hs : e.states[handle.cell]? with
  | none => exact Database.SoundTables.of_empty rfl
  | some db => exact h db (List.mem_of_getElem? hs)

omit [PatternCompiler] in
/-- An edit that keeps the tables of one database sound keeps all of them sound. -/
theorem SoundTables.edit {e : Engine} (h : e.SoundTables) (handle : Handle) {α : Type}
    {f : Database → Except StorageError (α × Database)}
    (hf : ∀ a db, f (e.databaseOf handle) = .ok (a, db) → db.SoundTables) :
    (exec (Engine.edit handle f) e).2.SoundTables := by
  rw [exec_edit]
  cases hr : f (e.databaseOf handle) with
  | error err => exact h
  | ok r =>
    obtain ⟨a, db⟩ := r
    intro d hd
    rcases List.mem_or_eq_of_mem_set hd with hd | rfl
    · exact h d hd
    · exact hf a d hr

/-- **One change, made or refused, keeps every table sound.** -/
theorem soundTables_of_change {e : Engine} (h : e.SoundTables) (handle : Handle)
    (change : TableChange) : (exec (change.through handle) e).2.SoundTables := by
  rw [TableChange.through_eq]
  exact h.edit handle fun outcome db hf =>
    change.soundTables_of_apply _ outcome db (h.databaseOf handle) hf

theorem soundTables_afterChanges {e : Engine} (h : e.SoundTables)
    (changes : List (Handle × TableChange)) : (e.afterChanges changes).SoundTables := by
  induction changes generalizing e with
  | nil => exact h
  | cons c changes ih => exact ih (soundTables_of_change h c.1 c.2)

/-- **Every reachable table is sound.** From databases without tables, any changes through any
handles lead to tables with distinct columns apart from the primary key, with rows of exactly these
columns, and with a value for the primary key in each row that no other row has. -/
theorem tables_sound_of_changes (e : Engine) (start : ∀ db ∈ e.states, db.tables = Keyed.empty)
    (changes : List (Handle × TableChange)) :
    ∀ db ∈ (e.afterChanges changes).states, ∀ name t, db.tables.get? name = some t → t.Sound := by
  have hstart : e.SoundTables := fun db hdb => .of_empty (start db hdb)
  exact soundTables_afterChanges hstart changes

end

/-- A table whose specification repeats a column and the key, after an insertion and a second one
that is refused because its key is the same number. -/
theorem tables_sound_after_refused_key :
    let shop : Handle := { scope := .data, name := "shop", cell := 0 }
    let e : Engine :=
      { Engine.new none Folder.empty Timestamp.epoch with states := [Database.new .epoch] }
    let changes : List (Handle × TableChange) :=
      [(shop, .create { name := "users", primaryKey := some "id", columns := ["id", "n", "n"] }),
        (shop, .insert { table := "users", columns := none, values := ["1", "Ann"] }),
        (shop, .insert { table := "users", columns := none, values := ["01", "Bob"] })]
    (∀ db ∈ e.states, db.tables = Keyed.empty) ∧
      ((e.afterChanges changes).states.map fun db =>
        db.tables.entries.map fun t => (t.2.columns, t.2.rows.length)) = [[(["n"], 1)]] ∧
      ∀ db ∈ (e.afterChanges changes).states, ∀ name t,
        db.tables.get? name = some t → t.Sound := by
  intro shop e changes
  have start : ∀ db ∈ e.states, db.tables = Keyed.empty := by
    intro db hdb
    rw [List.mem_singleton.1 hdb]
    rfl
  exact ⟨start, by decide +kernel, tables_sound_of_changes e start changes⟩

end Engine

end Tabular
