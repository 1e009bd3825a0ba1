import Tabular.Proofs.Database.Ordering
import Tabular.Proofs.Keyed
import Tabular.Proofs.Result

/-!
Failures of queries.

A query names tables and columns, and whether the names mean something is decided by the schema of
the database: the names of its tables, with their primary keys and columns. So two databases of one
schema are queried side by side; the selections that flow through the joins have different rows and
the same columns, and every stage either fails in both databases or in none. The sort is the
exception: it looks at the cells, and where they contradict each other it may give up.

* `alike_find`, `alike_delete`, `alike_update`: the operations on two databases of one schema.
* `sorts_of_givesUp`: a search that gives up does so in its sort.
* `failsAlike_iff_of_schema`: a query fails in one of them where it fails in the other, and with the
  same error, unless a sort gives up in one of them only; an update may meet a duplicate key in one
  of them only.
-/

namespace Tabular

/-- An error about two rows with one value for the primary key. -/
def StorageError.IsDuplicateKey : StorageError → Prop
  | .duplicateKey _ _ => True
  | _ => False

/-- A query that finds the same rows, all of them whole and as they come. -/
def QuerySpec.plain (q : QuerySpec) : QuerySpec :=
  { q with columns := none, distinct := false, orderBy := none, limit := none, offset := none }

namespace Table

open Result

/-- Two tables differ in their rows only. -/
structure SameSchema (t t' : Table) : Prop where
  primaryKey : t.primaryKey = t'.primaryKey
  columns : t.columns = t'.columns

section

variable {t t' : Table}

theorem SameSchema.allColumns (same : SameSchema t t') : t.allColumns = t'.allColumns := by
  rw [Table.allColumns, Table.allColumns, same.primaryKey, same.columns]

theorem SameSchema.column (same : SameSchema t t') : t.column = t'.column := by
  funext table name
  rw [Table.column, Table.column, same.allColumns]

variable [PatternCompiler]

theorem SameSchema.predicateOn (same : SameSchema t t') : t.predicateOn = t'.predicateOn := by
  funext table find condition
  have htarget : t.targetColumn table find = t'.targetColumn table find := by
    funext target
    cases target with
    | field name => rfl
    | primaryKey => simp only [targetColumn, same.primaryKey]
  rw [Table.predicateOn, Table.predicateOn, htarget]

theorem SameSchema.predicate (same : SameSchema t t') : t.predicate = t'.predicate := by
  funext table condition
  rw [Table.predicate, Table.predicate, same.predicateOn, same.column]

omit [PatternCompiler] in
theorem SameSchema.assignedColumn (same : SameSchema t t') :
    t.assignedColumn = t'.assignedColumn := by
  funext table assignment
  rw [Table.assignedColumn, Table.assignedColumn, same.column]

omit [PatternCompiler] in
/-- The test of the key finds duplicate keys and nothing else. -/
theorem isDuplicateKey_of_checkUnique {rows : List Row} {err : StorageError}
    (h : t.checkUnique rows = .error err) : err.IsDuplicateKey := by
  unfold checkUnique at h
  split at h
  · cases h
  · split at h
    · exact Except.error.inj h ▸ trivial
    · cases h

/-- The rows of a table matter to the test of the key alone. -/
theorem alikeBut_update (same : SameSchema t t') (q : QuerySpec) :
    AlikeBut StorageError.IsDuplicateKey (fun _ _ => True) (t.update q) (t'.update q) := by
  unfold update
  rw [same.predicate, same.assignedColumn]
  refine .bind_same _ fun p => .bind_same _ fun assigned => ?_
  exact AlikeBut.map (.of_exempt (fun _ => isDuplicateKey_of_checkUnique)
    fun _ => isDuplicateKey_of_checkUnique) fun _ _ _ => trivial

theorem alike_delete (same : SameSchema t t') (q : QuerySpec) :
    Alike (fun _ _ => True) (t.delete q) (t'.delete q) := by
  unfold delete
  rw [same.predicate]
  exact .bind_same _ fun p => trivial

end

end Table

namespace Database

open Cell Result

/-- What a database is apart from its rows: the names of its tables, each with its primary key and
its columns. -/
def schema (db : Database) : List (String × Option String × List String) :=
  db.tables.entries.map fun e => (e.1, e.2.primaryKey, e.2.columns)

/-! ### Searches -/

/-- The names of a join are found among columns; the rows have no part in it. -/
theorem alike_joinRows (j : Join) (base : String) (left left' : List Row)
    (leftColumns rightColumns : List String) (right right' : List Row) :
    Alike (fun r r' => r.2 = r'.2) (j.rows base left leftColumns rightColumns right)
      (j.rows base left' leftColumns rightColumns right') := by
  unfold Join.rows
  exact .bind_same _ fun first => .bind_same _ fun second => rfl

theorem column_congr {s s' : Selection} (hs : s.columns = s'.columns) : s.column = s'.column := by
  funext base name
  rw [Selection.column, Selection.column, hs]

section

variable {db db' : Database} (same : db.schema = db'.schema)

include same

theorem alike_table (name : String) :
    Alike Table.SameSchema (db.table name) (db'.table name) := by
  have hfind : (db.tables.get? name).map (fun t => (t.primaryKey, t.columns)) =
      (db'.tables.get? name).map fun t => (t.primaryKey, t.columns) := by
    have hschema := congrArg (Keyed.find name) same
    simp only [schema] at hschema
    rwa [Keyed.find_map_value (fun t : Table => (t.primaryKey, t.columns)),
      Keyed.find_map_value (fun t : Table => (t.primaryKey, t.columns))] at hschema
  unfold table
  cases ht : db.tables.get? name with
  | none =>
    rw [ht] at hfind
    rw [Option.map_eq_none_iff.1 hfind.symm]
    exact .inl rfl
  | some t =>
    rw [ht] at hfind
    obtain ⟨t', ht', heq⟩ := Option.map_eq_some_iff.1 hfind.symm
    rw [ht']
    obtain ⟨hkey, hcolumns⟩ := Prod.mk.inj heq
    exact ⟨hkey.symm, hcolumns.symm⟩

/-- One more join: the selections keep the same columns, whatever their rows are. -/
theorem alike_joinTable (base : String) (s s' : Selection) (j : Join)
    (hs : s.columns = s'.columns) :
    Alike (fun s s' => s.columns = s'.columns) (db.joinTable base s j)
      (db'.joinTable base s' j) := by
  refine (alike_table same j.table).bind fun t t' ht => ?_
  rw [hs, ht.allColumns]
  exact (alike_joinRows j base s.rows s'.rows s'.columns t'.allColumns t.rows t'.rows).map
    fun _ _ h => h

variable [PatternCompiler]

/-- **A search succeeds in two databases of one schema or fails in both alike**, unless a sort gives
up in one of them: it is the only stage that looks at the rows. -/
theorem alike_find (q : QuerySpec) :
    AlikeUnless (· = .disorder) (fun _ _ => True) (db.find q) (db'.find q) := by
  refine .bind (alike_table same q.table) fun t t' ht => ?_
  refine AlikeUnless.bind (R := fun s s' => s.columns = s'.columns)
    (Alike.foldlM (alike_joinTable same q.table) q.joins ht.allColumns) fun s s' hs => ?_
  rw [column_congr hs, ht.predicateOn]
  refine .bind (.refl _) fun p _ hp => .bind (.refl _) fun order _ horder => ?_
  subst hp horder
  cases harranged : arrange q.ascending order (s.rows.filter (Predicate.optionHolds p)) with
  | error err => exact fun h _ => absurd (disorder_of_arrange harranged) (h err rfl)
  | ok rows =>
    cases harranged' : arrange q.ascending order (s'.rows.filter (Predicate.optionHolds p)) with
    | error err => exact fun _ h => absurd (disorder_of_arrange harranged') (h err rfl)
    | ok rows' =>
      rw [ok_bind, ok_bind]
      exact fun _ _ => .bind_same _ fun projection => trivial

/-! ### Deletions and updates -/

theorem alike_delete (q : QuerySpec) : Alike (fun _ _ => True) (db.delete q) (db'.delete q) :=
  (alike_table same q.table).bind fun _ _ ht => (Table.alike_delete ht q).map fun _ _ _ => trivial

theorem alike_update (q : QuerySpec) :
    AlikeBut StorageError.IsDuplicateKey (fun _ _ => True) (db.update q) (db'.update q) :=
  (alike_table same q.table).bind fun _ _ ht =>
    (Table.alikeBut_update ht q).map fun _ _ _ => trivial

end

/-! ### Sorts that give up -/

/-- A search fails because its sort gives up. -/
def GivesUp [PatternCompiler] (db : Database) (q : QuerySpec) : Prop :=
  db.find q = .error .disorder

theorem table_ne_disorder (db : Database) (name : String) : db.table name ≠ .error .disorder := by
  unfold table
  split <;> simp

theorem joinTable_ne_disorder (db : Database) (base : String) (s : Selection) (j : Join) :
    db.joinTable base s j ≠ .error .disorder := by
  have column_ne (columns : List String) (name : String) :
      j.column columns base name ≠ .error .disorder := by
    unfold Join.column
    split <;> simp
  refine bind_ne_error (table_ne_disorder db j.table) fun other => bind_ne_error ?_ fun r => ?_
  · exact bind_ne_error (column_ne _ j.first) fun first =>
      bind_ne_error (column_ne _ j.second) fun second => pure_ne_error _
  · exact pure_ne_error _

theorem column_ne_disorder (s : Selection) (base name : String) :
    s.column base name ≠ .error .disorder := by
  unfold Selection.column
  split <;> simp

section

variable [PatternCompiler]

theorem test_ne_disorder (operator : Operator) (operand : Operand) :
    Test.of operator operand ≠ .error .disorder := by
  have pattern_ne (negated : Bool) (pattern : String) :
      Test.ofPattern negated pattern ≠ .error .disorder := by
    unfold Test.ofPattern
    split <;> simp
  cases operand <;> cases operator <;> simp [Test.of, pattern_ne]

theorem predicateOn_ne_disorder (t : Table) (s : Selection) (base : String) (c : Condition) :
    t.predicateOn base (s.column base) c ≠ .error .disorder := by
  refine bind_ne_error ?_ fun column =>
    bind_ne_error (test_ne_disorder c.operator c.operand) fun test => pure_ne_error _
  cases c.target with
  | field name => exact column_ne_disorder s base name
  | primaryKey =>
    unfold Table.targetColumn
    dsimp only
    split <;> simp

/-- The rows that a search has to sort, and the column by which it sorts them. -/
structure Sorts (db : Database) (q : QuerySpec) (column : String) (rows : List Row) : Prop where
  order : ∃ name s, q.orderBy = some name ∧ db.joined q = .ok s ∧
    s.column q.table name = .ok column
  found : db.find q.plain = .ok rows

/-- **Only a sort gives up**, and it is the one of the rows that the search finds. -/
theorem sorts_of_givesUp {db : Database} {q : QuerySpec} (h : db.GivesUp q) :
    ∃ column rows, db.Sorts q column rows ∧
      sortRows q.ascending column rows = .error .disorder := by
  obtain ⟨t, ht, h⟩ := (bind_eq_error_iff.1 h).resolve_left (table_ne_disorder db q.table)
  obtain ⟨s, hs, h⟩ := (bind_eq_error_iff.1 h).resolve_left
    (foldlM_ne_error (joinTable_ne_disorder db q.table) q.joins _)
  obtain ⟨p, hp, h⟩ := (bind_eq_error_iff.1 h).resolve_left
    (optionMapM_ne_error (predicateOn_ne_disorder t s q.table) q.condition)
  obtain ⟨order, horder, h⟩ := (bind_eq_error_iff.1 h).resolve_left
    (optionMapM_ne_error (column_ne_disorder s q.table) q.orderBy)
  rcases bind_eq_error_iff.1 h with h | ⟨rows, -, h⟩
  · have hfound : db.find q.plain = .ok (s.rows.filter (Predicate.optionHolds p)) := by
      rw [find_of_whole db ⟨rfl, rfl, rfl, rfl⟩]
      simp only [QuerySpec.plain, ht, hs, hp, ok_bind, Option.mapM_none, pure_bind, arrange]
    cases hname : q.orderBy with
    | none =>
      rw [hname, Option.mapM_none, pure_eq_ok_iff] at horder
      subst horder
      simp [arrange] at h
    | some name =>
      rw [hname, Option.mapM_some, map_eq_pure_bind] at horder
      obtain ⟨column, hcolumn, horder⟩ := bind_eq_ok_iff.1 horder
      obtain rfl := pure_eq_ok_iff.1 horder
      have hjoined : db.joined q = .ok s := bind_eq_ok_iff.2 ⟨t, ht, hs⟩
      exact ⟨column, _, ⟨⟨name, s, hname, hjoined, hcolumn⟩, hfound⟩, h⟩
  · have hlabel (l : String) : (do return (l, ← s.column q.table l)) ≠ .error .disorder :=
      bind_ne_error (column_ne_disorder s q.table l) fun _ => pure_ne_error _
    exact absurd h (bind_ne_error (optionMapM_ne_error (mapM_ne_error hlabel) q.columns)
      fun _ => pure_ne_error _)

/-! ### Failures -/

/-- A query fails in two databases alike. -/
structure FailsAlike (db db' : Database) (q : QuerySpec) : Prop where
  find_fails_iff : ∀ err, db.find q = .error err ↔ db'.find q = .error err
  find_succeeds_iff : (∃ rows, db.find q = .ok rows) ↔ ∃ rows, db'.find q = .ok rows
  delete_fails_iff : ∀ err, db.delete q = .error err ↔ db'.delete q = .error err
  delete_succeeds_iff : (∃ r, db.delete q = .ok r) ↔ ∃ r, db'.delete q = .ok r
  /-- The values that an update writes may be a duplicate key among the rows of one of them. -/
  update_fails_iff : ∀ err, ¬err.IsDuplicateKey →
    (db.update q = .error err ↔ db'.update q = .error err)

/-- Where no sort gives up, a query fails in both databases alike. -/
theorem failsAlike_of_not_givesUp {db db' : Database} (same : db.schema = db'.schema)
    {q : QuerySpec} (h : ¬db.GivesUp q) (h' : ¬db'.GivesUp q) : FailsAlike db db' q := by
  have alike := alike_find same q (fun err herr heq => h (heq ▸ herr : db.find q = _))
    fun err herr heq => h' (heq ▸ herr : db'.find q = _)
  exact {
    find_fails_iff := fun _ => alike.error_iff id
    find_succeeds_iff := alike.ok_iff
    delete_fails_iff := fun _ => (alike_delete same q).error_iff id
    delete_succeeds_iff := (alike_delete same q).ok_iff
    update_fails_iff := fun _ => (alike_update same q).error_iff }

theorem failsAlike_of_givesUp {db db' : Database} (same : db.schema = db'.schema)
    {q : QuerySpec} (h : db.GivesUp q) (h' : db'.GivesUp q) : FailsAlike db db' q where
  find_fails_iff err := by rw [show db.find q = _ from h, show db'.find q = _ from h']
  find_succeeds_iff := by rw [show db.find q = _ from h, show db'.find q = _ from h']
  delete_fails_iff := fun _ => (alike_delete same q).error_iff id
  delete_succeeds_iff := (alike_delete same q).ok_iff
  update_fails_iff := fun _ => (alike_update same q).error_iff

end

end Database

end Tabular
