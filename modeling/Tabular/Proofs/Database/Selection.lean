import Mathlib.Data.List.Forall2
import Tabular.Proofs.Database.Integrity

/-!
One condition, three operations.

A search without joins, an update and a deletion each turn the condition of a query into a predicate
on their own. `find_selection`, `delete_eq` and `update_eq` bring the three to one form, in which
the table and the predicate come first and are the same; what the operations do with the rows is
then a matter of lists.

* `selectAlike`: a deletion takes exactly the rows that the search finds, and an update writes into
  exactly those.
-/

namespace Tabular

/-- The rows of a query as they are: nothing joined, ordered, left out or shown in part. -/
def QuerySpec.selection (q : QuerySpec) : QuerySpec :=
  { table := q.table, condition := q.condition }

namespace Table

/-- The predicate of the condition of a query, if it has one. -/
def selector [PatternCompiler] (t : Table) (q : QuerySpec) :
    Except StorageError (Option Predicate) :=
  q.condition.mapM (t.predicate q.table)

/-- The value of an assignment, if the assignment is to a column. -/
def valueFor? (t : Table) (table column : String) (a : Assignment) : Option String :=
  if Column.resolve? t.allColumns table a.column = some column then some a.value else none

/-- The last value that a query assigns to a column, if it assigns one. -/
def assignedValue? (t : Table) (q : QuerySpec) (column : String) : Option String :=
  (q.assignments.filterMap (t.valueFor? q.table column)).getLast?

/-- A row before and after an update that writes into the rows of `found`. -/
structure Updated (t : Table) (q : QuerySpec) (found : List Row) (old new : Row) : Prop where
  untouched : old ∉ found → new = old
  written : old ∈ found → ∀ column,
    new.get? column = ((t.assignedValue? q column).map some).or (old.get? column)

/-! ### Assignment -/

/-- The values of the pairs of one column. -/
def valuesOf (assigned : List (String × String)) (column : String) : List String :=
  assigned.filterMap fun a => if a.1 = column then some a.2 else none

/-- A row after assignments: the last value where there is one, else the cell as it was. -/
theorem get?_assignRow (assigned : List (String × String)) (row : Row) (column : String) :
    (assignRow assigned row).get? column =
      ((valuesOf assigned column).getLast?.map some).or (row.get? column) := by
  induction assigned generalizing row with
  | nil => rfl
  | cons a assigned ih =>
    have hstep : assignRow (a :: assigned) row = assignRow assigned (row.insert a.1 (some a.2)) :=
      rfl
    rw [hstep, ih, Keyed.get?_insert]
    by_cases ha : a.1 = column
    · have hvalues : valuesOf (a :: assigned) column = a.2 :: valuesOf assigned column := by
        simp [valuesOf, ha]
      rw [hvalues, List.getLast?_cons, if_pos ha]
      cases (valuesOf assigned column).getLast? <;> rfl
    · have hvalues : valuesOf (a :: assigned) column = valuesOf assigned column := by
        simp [valuesOf, ha]
      rw [hvalues, if_neg ha]

theorem column_eq_ok_iff {t : Table} {table name c : String} :
    t.column table name = .ok c ↔ Column.resolve? t.allColumns table name = some c := by
  unfold column
  cases Column.resolve? t.allColumns table name <;> simp

/-- Accepted assignments give a column the values of those among them that name it. -/
theorem valuesOf_of_assigned {t : Table} {table : String} {assignments : List Assignment}
    {assigned : List (String × String)}
    (h : assignments.mapM (t.assignedColumn table) = .ok assigned) (column : String) :
    valuesOf assigned column = assignments.filterMap (t.valueFor? table column) := by
  induction assignments generalizing assigned with
  | nil =>
    rw [List.mapM_nil, Result.pure_eq_ok_iff] at h
    subst h
    rfl
  | cons a assignments ih =>
    simp only [List.mapM_cons, Result.bind_eq_ok_iff, Result.pure_eq_ok_iff, assignedColumn] at h
    obtain ⟨_, ⟨c, hc, rfl⟩, rest, hrest, rfl⟩ := h
    have hrest := ih hrest
    simp only [valuesOf, valueFor?, List.filterMap_cons, column_eq_ok_iff.1 hc,
      Option.some.injEq] at hrest ⊢
    rw [hrest]

/-- An update of a table, row by row. -/
theorem updated_assignRow {t : Table} {q : QuerySpec} {assigned : List (String × String)}
    (h : q.assignments.mapM (t.assignedColumn q.table) = .ok assigned) (p : Row → Bool)
    (rows : List Row) :
    List.Forall₂ (t.Updated q (rows.filter p)) rows
      (rows.map fun r => if p r then assignRow assigned r else r) := by
  rw [List.forall₂_map_right_iff, List.forall₂_same]
  intro r hr
  by_cases hp : p r
  · refine ⟨fun hnot => absurd (List.mem_filter.2 ⟨hr, hp⟩) hnot, fun _ column => ?_⟩
    rw [if_pos hp, get?_assignRow, valuesOf_of_assigned h, assignedValue?]
  · refine ⟨fun _ => if_neg hp, fun hin => absurd (List.mem_filter.1 hin).2 hp⟩

end Table

namespace Database

open Result

/-! ### The operations in one form -/

section

variable [PatternCompiler]

theorem find_selection (db : Database) (q : QuerySpec) :
    db.find q.selection = (do
      let t ← db.table q.table
      let p ← t.selector q
      return t.rows.filter (Predicate.optionHolds p)) := by
  have hcolumn : ∀ t : Table,
      Selection.column { rows := t.rows, columns := t.allColumns } q.table = t.column q.table :=
    fun _ => rfl
  simp only [find, QuerySpec.selection, hcolumn, page, List.foldlM_nil, pure_bind, Option.mapM_none,
    Option.getD_none, List.drop_zero]
  rfl

theorem delete_eq (db : Database) (q : QuerySpec) :
    db.delete q = (do
      let t ← db.table q.table
      let p ← t.selector q
      return ((t.rows.filter (Predicate.optionHolds p)).length,
        db.setTable q.table
          { t with rows := t.rows.filter fun r => !Predicate.optionHolds p r })) := by
  simp [delete, Table.delete, Table.selector]

theorem update_eq (db : Database) (q : QuerySpec) :
    db.update q = (do
      let t ← db.table q.table
      let p ← t.selector q
      let assigned ← q.assignments.mapM (t.assignedColumn q.table)
      let rows := t.rows.map fun r =>
        if Predicate.optionHolds p r then Table.assignRow assigned r else r
      t.checkUnique rows
      return ((t.rows.filter (Predicate.optionHolds p)).length,
        db.setTable q.table { t with rows })) := by
  simp [update, Table.update, Table.selector]

/-- Either there is a table and a predicate for the query, or all three operations fail alike. -/
theorem selector_or_fail (db : Database) (q : QuerySpec) :
    (∃ t p, db.table q.table = .ok t ∧ t.selector q = .ok p) ∨
      ∃ err, db.find q.selection = .error err ∧ db.delete q = .error err ∧
        db.update q = .error err := by
  rw [find_selection, delete_eq, update_eq]
  cases ht : db.table q.table with
  | error err => exact .inr ⟨err, rfl, rfl, rfl⟩
  | ok t =>
    cases hp : t.selector q with
    | error err => exact .inr ⟨err, by simp only [ok_bind, hp, error_bind, and_self]⟩
    | ok p => exact .inl ⟨t, p, rfl, hp⟩

end

/-! ### The rows that a predicate selects -/

theorem filter_mem_filter (p : Row → Bool) (rows : List Row) :
    rows.filter (· ∈ rows.filter p) = rows.filter p := by
  apply List.filter_congr
  intro r hr
  simp [List.mem_filter, hr]

theorem filter_not_mem_filter (p : Row → Bool) (rows : List Row) :
    rows.filter (· ∉ rows.filter p) = rows.filter fun r => !p r := by
  apply List.filter_congr
  intro r hr
  simp [List.mem_filter, hr]

theorem table_setTable (db : Database) (name : String) (t : Table) :
    (db.setTable name t).table name = .ok t := by
  simp [table, setTable]

section

variable {db : Database} {q : QuerySpec} {t : Table} {p : Option Predicate}

variable [PatternCompiler]

theorem find_selection_eq_ok (ht : db.table q.table = .ok t) (hp : t.selector q = .ok p) :
    db.find q.selection = .ok (t.rows.filter (Predicate.optionHolds p)) := by
  rw [find_selection, ht, ok_bind, hp, ok_bind]
  rfl

theorem delete_eq_ok (ht : db.table q.table = .ok t) (hp : t.selector q = .ok p) :
    db.delete q = .ok ((t.rows.filter (Predicate.optionHolds p)).length,
      db.setTable q.table
        { t with rows := t.rows.filter (· ∉ t.rows.filter (Predicate.optionHolds p)) }) := by
  rw [delete_eq, ht, ok_bind, hp, ok_bind, filter_not_mem_filter]
  rfl

/-- The predicate does not depend on the rows: among those that it does not select, the search has
the same one and finds none. -/
theorem find_selection_left (hp : t.selector q = .ok p) :
    (db.setTable q.table
      { t with rows := t.rows.filter (· ∉ t.rows.filter (Predicate.optionHolds p)) }).find
        q.selection = .ok [] := by
  rw [find_selection, table_setTable, ok_bind]
  change (t.selector q >>= _) = _
  rw [hp, ok_bind, filter_not_mem_filter, List.filter_filter]
  simp [pure, Except.pure]

theorem updated_of_update {n : Nat} {after : Database} (ht : db.table q.table = .ok t)
    (hp : t.selector q = .ok p) (h : db.update q = .ok (n, after)) :
    ∃ rows, n = (t.rows.filter (Predicate.optionHolds p)).length ∧
      after = db.setTable q.table { t with rows } ∧
      List.Forall₂ (t.Updated q (t.rows.filter (Predicate.optionHolds p))) t.rows rows := by
  rw [update_eq, ht, ok_bind, hp, ok_bind] at h
  simp only [bind_eq_ok_iff, pure_eq_ok_iff, Prod.mk.injEq] at h
  obtain ⟨assigned, hassigned, _, -, rfl, rfl⟩ := h
  exact ⟨_, rfl, rfl, Table.updated_assignRow hassigned _ _⟩

end

/-! ### Agreement -/

/-- What a search, a deletion and an update of one condition have in common in a database. -/
structure SelectAlike [PatternCompiler] (db : Database) (q : QuerySpec) : Prop where
  /-- A deletion fails when the search does, and with the same error. -/
  deletion_fails_iff : ∀ err, db.delete q = .error err ↔ db.find q.selection = .error err
  /-- A deletion takes the rows that the search finds and leaves the others in their order; the
  same search finds none afterwards. -/
  deletion_takes : ∀ found, db.find q.selection = .ok found →
    ∃ t left, db.table q.table = .ok t ∧ t.rows.filter (· ∈ found) = found ∧
      db.delete q = .ok (found.length, left) ∧
      left = db.setTable q.table { t with rows := t.rows.filter (· ∉ found) } ∧
      left.find q.selection = .ok []
  /-- An update fails where the search does, and with the same error. -/
  update_fails : ∀ err, db.find q.selection = .error err → db.update q = .error err
  /-- An update writes into the rows that the search finds and leaves the others as they are. -/
  update_writes : ∀ n after, db.update q = .ok (n, after) →
    ∃ t found rows, db.table q.table = .ok t ∧ db.find q.selection = .ok found ∧
      t.rows.filter (· ∈ found) = found ∧ n = found.length ∧
      after = db.setTable q.table { t with rows } ∧
      List.Forall₂ (t.Updated q found) t.rows rows

/-- **A search, a deletion and an update select the same rows**, in every database and for every
query. -/
theorem selectAlike [PatternCompiler] (db : Database) (q : QuerySpec) : SelectAlike db q := by
  rcases selector_or_fail db q with ⟨t, p, ht, hp⟩ | ⟨err, hfind, hdelete, hupdate⟩
  · have hfind := find_selection_eq_ok ht hp
    constructor
    case deletion_fails_iff =>
      intro err
      simp [hfind, delete_eq_ok ht hp]
    case deletion_takes =>
      intro found hfound
      obtain rfl := Except.ok.inj (hfind.symm.trans hfound)
      exact ⟨t, _, ht, filter_mem_filter _ _, delete_eq_ok ht hp, rfl, find_selection_left hp⟩
    case update_fails =>
      intro err herr
      simp [hfind] at herr
    case update_writes =>
      intro n after h
      obtain ⟨rows, hn, hafter, hrows⟩ := updated_of_update ht hp h
      exact ⟨t, _, rows, ht, hfind, filter_mem_filter _ _, hn, hafter, hrows⟩
  · constructor <;> simp [hfind, hdelete, hupdate]

end Database

end Tabular
