import Tabular.Proofs.Database.Selection

/-!
Updates and deletions that are made again.

After an update the condition may select other rows than before: an assigned row may have left it.
No row has come into it that is not assigned already, because a row that was not selected is as it
was. So whatever is still selected was assigned, and assigning it once more changes nothing
(`assignRow_assignRow`). The rows are those that passed the test of the primary key before.

* `update_again`, `delete_again`: the second run on one table.
* `retriesSafely`: in every database, the second run succeeds and leaves the database as it is.
-/

namespace Tabular

namespace Table

/-! ### One row -/

/-- Assigning twice is assigning once, also where several values are for one column. -/
theorem assignRow_assignRow (assigned : List (String × String)) (row : Row) :
    assignRow assigned (assignRow assigned row) = assignRow assigned row := by
  refine Keyed.ext_get? fun column => ?_
  rw [get?_assignRow, get?_assignRow]
  cases (valuesOf assigned column).getLast? <;> rfl

/-- A row after an update. -/
def updatedRow (p : Row → Bool) (assigned : List (String × String)) (row : Row) : Row :=
  if p row then assignRow assigned row else row

/-- A row is selected after an update only if it was before. -/
theorem selected_of_updatedRow {p : Row → Bool} {assigned : List (String × String)} {row : Row}
    (h : p (updatedRow p assigned row) = true) : p row = true := by
  by_cases hp : p row = true
  · exact hp
  · rwa [updatedRow, if_neg hp] at h

/-- **Updating a row twice is updating it once**, whether or not it is still selected. -/
theorem updatedRow_updatedRow (p : Row → Bool) (assigned : List (String × String)) (row : Row) :
    updatedRow p assigned (updatedRow p assigned row) = updatedRow p assigned row := by
  by_cases hp : p row = true
  · have hrow : updatedRow p assigned row = assignRow assigned row := if_pos hp
    rw [hrow, updatedRow, assignRow_assignRow, ite_self]
  · have hrow : updatedRow p assigned row = row := if_neg hp
    rw [hrow, hrow]

/-! ### One table -/

/-- The second run of an update selects no more rows than the first. -/
theorem length_filter_updatedRow_le (p : Row → Bool) (assigned : List (String × String))
    (rows : List Row) :
    ((rows.map (updatedRow p assigned)).filter p).length ≤ (rows.filter p).length := by
  rw [List.filter_map, List.length_map]
  exact (List.monotone_filter_right rows fun _ => selected_of_updatedRow).length_le

variable [PatternCompiler]

theorem update_eq_ok_iff {t t' : Table} {q : QuerySpec} {n : Nat} :
    t.update q = .ok (n, t') ↔ ∃ p assigned, t.selector q = .ok p ∧
      q.assignments.mapM (t.assignedColumn q.table) = .ok assigned ∧
      n = (t.rows.filter (Predicate.optionHolds p)).length ∧
      t' = { t with rows := t.rows.map (updatedRow (Predicate.optionHolds p) assigned) } ∧
      t.checkUnique t'.rows = .ok () := by
  simp only [update, Result.bind_eq_ok_iff, Result.pure_eq_ok_iff, Prod.mk.injEq]
  constructor
  · rintro ⟨p, hp, assigned, hassigned, _, hcheck, rfl, rfl⟩
    exact ⟨p, assigned, hp, hassigned, rfl, rfl, hcheck⟩
  · rintro ⟨p, assigned, hp, hassigned, rfl, rfl, hcheck⟩
    exact ⟨p, hp, assigned, hassigned, (), hcheck, rfl, rfl⟩

/-- The second run of an update succeeds and leaves the table as it is. -/
theorem update_again {t t' : Table} {q : QuerySpec} {n : Nat} (h : t.update q = .ok (n, t')) :
    ∃ m, m ≤ n ∧ t'.update q = .ok (m, t') := by
  obtain ⟨p, assigned, hp, hassigned, rfl, rfl, hcheck⟩ := update_eq_ok_iff.1 h
  have hrows : (t.rows.map (updatedRow (Predicate.optionHolds p) assigned)).map
      (updatedRow (Predicate.optionHolds p) assigned) =
        t.rows.map (updatedRow (Predicate.optionHolds p) assigned) := by
    rw [List.map_map]
    exact List.map_congr_left fun row _ => updatedRow_updatedRow _ assigned row
  refine ⟨_, length_filter_updatedRow_le (Predicate.optionHolds p) assigned t.rows, ?_⟩
  -- names mean the same columns, since the columns of the table are the same
  refine update_eq_ok_iff.2 ⟨p, assigned, hp, hassigned, rfl, ?_, hcheck⟩
  dsimp only
  rw [hrows]

theorem delete_eq_ok_iff {t t' : Table} {q : QuerySpec} {n : Nat} :
    t.delete q = .ok (n, t') ↔ ∃ p, t.selector q = .ok p ∧
      n = (t.rows.filter (Predicate.optionHolds p)).length ∧
      t' = { t with rows := t.rows.filter fun r => !Predicate.optionHolds p r } := by
  simp only [delete, Result.bind_eq_ok_iff, Result.pure_eq_ok_iff, Prod.mk.injEq]
  constructor
  · rintro ⟨p, hp, rfl, rfl⟩
    exact ⟨p, hp, rfl, rfl⟩
  · rintro ⟨p, hp, rfl, rfl⟩
    exact ⟨p, hp, rfl, rfl⟩

/-- The second run of a deletion finds nothing to remove. -/
theorem delete_again {t t' : Table} {q : QuerySpec} {n : Nat} (h : t.delete q = .ok (n, t')) :
    t'.delete q = .ok (0, t') := by
  obtain ⟨p, hp, rfl, rfl⟩ := delete_eq_ok_iff.1 h
  refine delete_eq_ok_iff.2 ⟨p, hp, ?_, ?_⟩
  · simp [List.filter_filter]
  · simp [List.filter_filter]

end Table

namespace Database

open Result

/-! ### One database -/

theorem setTable_setTable (db : Database) (name : String) (t : Table) :
    (db.setTable name t).setTable name t = db.setTable name t := by
  have htables : (db.setTable name t).tables.insert name t = (db.setTable name t).tables := by
    refine Keyed.ext_get? fun n => ?_
    simp only [setTable, Keyed.get?_insert]
    split <;> rfl
  rw [setTable, htables]

/-- A change of one table of a database, with what it counts. -/
def changeTable (db : Database) (name : String) (f : Table → Except StorageError (Nat × Table)) :
    Except StorageError (Nat × Database) := do
  let t ← db.table name
  let (n, t) ← f t
  return (n, db.setTable name t)

theorem changeTable_eq_ok_iff {db after : Database} {name : String}
    {f : Table → Except StorageError (Nat × Table)} {n : Nat} :
    db.changeTable name f = .ok (n, after) ↔
      ∃ t t', db.table name = .ok t ∧ f t = .ok (n, t') ∧ after = db.setTable name t' := by
  simp only [changeTable, bind_eq_ok_iff, pure_eq_ok_iff, Prod.mk.injEq]
  constructor
  · rintro ⟨t, ht, ⟨n', t'⟩, h, rfl, rfl⟩
    exact ⟨t, t', ht, h, rfl⟩
  · rintro ⟨t, t', ht, h, rfl⟩
    exact ⟨t, ht, (n, t'), h, rfl, rfl⟩

/-- A change that leaves its own result as it is leaves the database as it is the second time. -/
theorem changeTable_again {db after : Database} {name : String}
    {f : Table → Except StorageError (Nat × Table)} {n : Nat} {P : Nat → Prop}
    (again : ∀ t t', f t = .ok (n, t') → ∃ m, P m ∧ f t' = .ok (m, t'))
    (h : db.changeTable name f = .ok (n, after)) :
    ∃ m, P m ∧ after.changeTable name f = .ok (m, after) := by
  obtain ⟨t, t', -, hf, rfl⟩ := changeTable_eq_ok_iff.1 h
  obtain ⟨m, hm, hagain⟩ := again t t' hf
  refine ⟨m, hm, changeTable_eq_ok_iff.2 ⟨t', t', table_setTable db name t', hagain, ?_⟩⟩
  exact (setTable_setTable db name t').symm

/-- What happens when an update or a deletion is made again after it succeeded. -/
structure RetriesSafely [PatternCompiler] (db : Database) (q : QuerySpec) : Prop where
  /-- The update succeeds again, for no more rows, and changes nothing. -/
  update_again : ∀ n after, db.update q = .ok (n, after) →
    ∃ m, m ≤ n ∧ after.update q = .ok (m, after)
  /-- The deletion succeeds again and removes nothing. -/
  delete_again : ∀ n left, db.delete q = .ok (n, left) → left.delete q = .ok (0, left)

/-- **Updates and deletions can be made again**, in every database and for every query: also where
the update assigns the column of its own condition, one column twice, or the primary key. -/
theorem retriesSafely [PatternCompiler] (db : Database) (q : QuerySpec) : RetriesSafely db q where
  update_again := by
    intro n after h
    exact changeTable_again (f := (Table.update · q)) (fun _ _ => Table.update_again) h
  delete_again := by
    intro n left h
    obtain ⟨_, rfl, hagain⟩ := changeTable_again (f := (Table.delete · q)) (P := (· = 0))
      (fun _ _ hdelete => ⟨0, rfl, Table.delete_again hdelete⟩) h
    exact hagain

/-- An update that takes its row out of its own condition, assigns one column twice, by two names,
and assigns the primary key. -/
theorem retriesSafely_lamp :
    let item (id label : String) : Row := Keyed.ofList [("id", some id), ("label", some label)]
    let t : Table :=
      { primaryKey := some "id", columns := ["label"], rows := [item "1" "lamp", item "2" "desk"] }
    let db : Database := { createdAt := .epoch, tables := Keyed.ofList [("item", t)] }
    let q : QuerySpec :=
      { table := "item"
        condition := some { target := .field "label", operator := .eq, operand := .scalar "lamp" }
        assignments := [⟨"label", "lamp"⟩, ⟨"item.label", "chair"⟩, ⟨"id", "3"⟩] }
    let after := db.setTable "item" { t with rows := [item "3" "chair", item "2" "desk"] }
    db.update q = .ok (1, after) ∧ ∃ m, m ≤ 1 ∧ after.update q = .ok (m, after) := by
  intro item t db q after
  have hupdate : db.update q = .ok (1, after) := by decide +kernel
  exact ⟨hupdate, (retriesSafely db q).update_again 1 after hupdate⟩

end Database

end Tabular
