import Tabular.Proofs.Cell.Equality
import Tabular.Proofs.Column
import Tabular.Proofs.Result
import Tabular.Session

/-!
The table of the catalog.

The catalog lists databases by their names, one row for each. `Catalog.listing names` is its table
with the rows of these names. The operations on it are given by what they do to the names:

* `insert_entry`: a name is taken in at the end, unless a name in the list is the same value.
* `delete_having`: every name that is the same value as a given one is taken out.
* `find_listed`: all rows are listed in their order, and `find_like`: those that a pattern covers,
  if it can be compiled.
-/

namespace Tabular.Catalog

/-- The row of a name. -/
def row (name : String) : Row := Keyed.ofList [(key, some name)]

/-- The table with the rows of these names. -/
def listing (names : List String) : Table :=
  { primaryKey := some key, columns := [], rows := names.map row }

/-- The databases that a catalog lists. -/
def Lists (db : Database) (names : List String) : Prop :=
  db.tables.get? table = some (listing names)

@[simp] theorem value?_row (name : String) : Row.value? (row name) key = some name := rfl

theorem allColumns_listing (names : List String) : (listing names).allColumns = [key] := rfl

theorem column_listing (names : List String) (name : String) :
    (listing names).column name key = .ok key := by
  unfold Table.column
  rw [allColumns_listing, Column.resolve?_of_mem (List.mem_singleton_self key)]

theorem insert_listing (names : List String) (name : String) :
    (listing names).insert (entry name) =
      if names.any fun n => Cell.sameValue n name then .error (.duplicateKey key name)
      else .ok (listing (names ++ [name])) := by
  have hany : ((listing names).rows.any fun r =>
      (Row.value? r key).any fun v => Cell.sameValue v name) =
        names.any fun n => Cell.sameValue n name := by
    simp [listing, List.any_map, Function.comp_def]
  have hassign : Table.assignAll ((listing names).column table) (Row.nulls [key]) [(key, name)] =
      .ok (row name) := by
    simp only [Table.assignAll, column_listing]
    rfl
  have hcheck : (listing names).checkKey (row name) =
      if names.any fun n => Cell.sameValue n name then .error (.duplicateKey key name)
      else .ok () := by
    rw [← hany]
    rfl
  change (Table.assignAll ((listing names).column table) (Row.nulls [key]) [(key, name)] >>=
    fun r => (listing names).checkKey r >>= fun _ => (.ok
      { listing names with rows := (listing names).rows ++ [r] } : Except StorageError Table)) = _
  rw [hassign, Result.ok_bind, hcheck]
  split
  · rw [Result.error_bind]
  · rw [Result.ok_bind]
    simp [listing]

theorem holds_having (name n : String) :
    Predicate.holds { column := key, test := .compare .eq name } (row n) =
      Cell.sameValue n name := by
  simp only [Predicate.holds, value?_row, Test.holds, Operator.accepts, Cell.sameValue]
  cases Cell.compareValues n name <;> rfl

section

variable [PatternCompiler]

theorem delete_listing (names : List String) (name : String) :
    (listing names).delete (having .eq name) =
      .ok ((names.filter fun n => Cell.sameValue n name).length,
        listing (names.filter fun n => !Cell.sameValue n name)) := by
  have hp : (having .eq name).condition.mapM ((listing names).predicate table) =
      .ok (some { column := key, test := .compare .eq name }) := by
    simp only [having, Option.mapM_some, Table.predicate, Table.predicateOn, Table.targetColumn,
      column_listing]
    rfl
  change ((having .eq name).condition.mapM ((listing names).predicate table) >>= fun p => _) = _
  rw [hp, Result.ok_bind]
  have hfilter : ∀ f : Bool → Bool, (listing names).rows.filter (fun r => f (Predicate.optionHolds
      (some { column := key, test := .compare .eq name }) r)) =
        (names.filter fun n => f (Cell.sameValue n name)).map row := by
    intro f
    rw [show (listing names).rows = names.map row from rfl, List.filter_map]
    refine congrArg (List.map row) (List.filter_congr fun n _ => ?_)
    simp only [Function.comp, Predicate.optionHolds, Option.all_some, holds_having]
  have hlen := congrArg List.length (hfilter id)
  simp only [id, List.length_map] at hlen
  rw [hfilter (fun b => !b), hlen]
  rfl

omit [PatternCompiler] in
theorem insert_entry {db : Database} {names : List String} (h : Lists db names) (name : String) :
    db.insert (entry name) =
      if names.any fun n => Cell.sameValue n name then .error (.duplicateKey key name)
      else .ok (db.setTable table (listing (names ++ [name]))) := by
  have htable : db.table (entry name).table = .ok (listing names) := by
    unfold Database.table
    rw [show (entry name).table = table from rfl, h]
  unfold Database.insert
  rw [htable, Result.ok_bind, insert_listing]
  split <;> rfl

theorem delete_having {db : Database} {names : List String} (h : Lists db names) (name : String) :
    db.delete (having .eq name) =
      .ok ((names.filter fun n => Cell.sameValue n name).length,
        db.setTable table (listing (names.filter fun n => !Cell.sameValue n name))) := by
  have htable : db.table (having .eq name).table = .ok (listing names) := by
    unfold Database.table
    rw [show (having .eq name).table = table from rfl, h]
  unfold Database.delete
  rw [htable, Result.ok_bind, delete_listing]
  rfl

theorem find_listed {db : Database} {names : List String} (h : Lists db names) :
    db.find { table := table } = .ok (names.map row) := by
  have htable : db.table table = .ok (listing names) := by
    unfold Database.table
    rw [h]
  have hall : (names.map row).filter (Predicate.optionHolds none) = names.map row :=
    List.filter_eq_self.2 fun _ _ => rfl
  unfold Database.find
  rw [show ({ table := table } : QuerySpec).table = table from rfl, htable]
  simp only [bind, Except.bind, pure, Except.pure, List.foldlM, Option.mapM_none]
  change Except.ok
    (Database.page none none ((names.map row).filter (Predicate.optionHolds none))) = _
  rw [hall]
  rfl

/-- Rows are found by a pattern, too. -/
theorem find_like {db : Database} {names : List String} (h : Lists db names) (pattern : String) :
    db.find (having .like pattern) = (Test.ofPattern false pattern).map fun test =>
      (names.map row).filter (Predicate.optionHolds (some { column := key, test })) := by
  have htable : db.table (having .like pattern).table = .ok (listing names) := by
    unfold Database.table
    rw [show (having .like pattern).table = table from rfl, h]
  have hcolumn : (Database.Selection.mk (listing names).rows (listing names).allColumns).column
      table key = .ok key := by
    unfold Database.Selection.column
    rw [allColumns_listing, Column.resolve?_of_mem (List.mem_singleton_self key)]
  have hp : (having .like pattern).condition.mapM ((listing names).predicateOn table
      ((Database.Selection.mk (listing names).rows (listing names).allColumns).column table)) =
      (Test.ofPattern false pattern).map fun test => some { column := key, test } := by
    simp only [having, Option.mapM_some, Table.predicateOn, Table.targetColumn, hcolumn]
    change some <$> (Test.ofPattern false pattern >>= fun test =>
      pure ({ column := key, test } : Predicate)) = _
    cases Test.ofPattern false pattern with
    | error err => rfl
    | ok test => rfl
  unfold Database.find
  rw [htable, Result.ok_bind]
  change ((having .like pattern).condition.mapM ((listing names).predicateOn table
    ((Database.Selection.mk (listing names).rows (listing names).allColumns).column table)) >>=
      fun p => _) = _
  rw [hp]
  cases Test.ofPattern false pattern with
  | error err => rfl
  | ok test => rfl

/-- A pattern finds rows, unless it cannot be compiled. -/
theorem find_like_cases {db : Database} {names : List String} (h : Lists db names)
    (pattern : String) :
    (PatternCompiler.refusal? pattern = none ∧
        ∃ rows, db.find (having .like pattern) = .ok rows) ∨
      ∃ reason, PatternCompiler.refusal? pattern = some reason ∧
        db.find (having .like pattern) = .error (.invalidPattern reason) := by
  rw [find_like h]
  unfold Test.ofPattern
  cases PatternCompiler.refusal? pattern with
  | none => exact .inl ⟨rfl, _, rfl⟩
  | some reason => exact .inr ⟨reason, rfl, rfl⟩

end

theorem lists_setTable (db : Database) (names : List String) :
    Lists (db.setTable table (listing names)) names := by
  simp [Lists, Database.setTable]

end Tabular.Catalog
