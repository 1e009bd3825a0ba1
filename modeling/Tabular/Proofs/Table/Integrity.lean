import Mathlib.Data.List.Nodup
import Tabular.Proofs.Cell.Equality
import Tabular.Proofs.Column
import Tabular.Proofs.Keyed
import Tabular.Proofs.Result
import Tabular.Table

/-!
The integrity of a table.

`Table.Sound` collects what a table keeps through all its operations: its columns are distinct and
do not contain the primary key, its rows have exactly its columns, and with a primary key every row
has a value for it that no other row has. An insertion tests a new value against every row, an
update compares canonical texts; that both tests mean the same equality of values is what makes the
update safe (`pairwise_apart_of_checkUnique`).

* `ofSpec_sound`: a new table is sound, whatever its specification.
* `insert_sound`, `update_sound`, `delete_sound`: what an operation makes of a sound table is sound.
-/

namespace Tabular

/-! ### Columns of rows -/

namespace Row

/-- A row has exactly these columns. -/
def HasColumns (row : Row) (columns : List String) : Prop :=
  ∀ c, c ∈ Keyed.keys row ↔ c ∈ columns

/-- Two rows have no common value in a column. -/
def Apart (column : String) (r s : Row) : Prop :=
  ∀ v w, Row.value? r column = some v → Row.value? s column = some w →
    Cell.sameValue v w = false

theorem HasColumns.nulls (columns : List String) : (Row.nulls columns).HasColumns columns := by
  intro c
  rw [Row.nulls, Keyed.mem_keys_ofList, List.map_map]
  simp

/-- Setting a column that a row has leaves its columns as they are. -/
theorem HasColumns.insert {row : Row} {columns : List String} (h : row.HasColumns columns)
    {column : String} (hc : column ∈ columns) (cell : Option String) :
    HasColumns (Keyed.insert row column cell) columns := by
  intro c
  rw [Keyed.mem_keys_insert, h c]
  constructor
  · rintro (rfl | h)
    · exact hc
    · exact h
  · exact .inr

theorem value?_insert (row : Row) (column : String) (cell : Option String) (c : String) :
    Row.value? (Keyed.insert row column cell) c =
      if column = c then cell else Row.value? row c := by
  unfold Row.value?
  rw [Keyed.get?_insert]
  split <;> rfl

end Row

namespace Table

theorem mem_of_column {t : Table} {table name c : String} (h : t.column table name = .ok c) :
    c ∈ t.allColumns := by
  unfold column at h
  split at h
  · next d hd => exact Except.ok.inj h ▸ Column.mem_of_resolve? hd
  · simp at h

/-! ### Soundness -/

/-- The integrity of a table. -/
structure Sound (t : Table) : Prop where
  columns_nodup : t.columns.Nodup
  key_not_mem_columns : ∀ key, t.primaryKey = some key → key ∉ t.columns
  row_columns : ∀ row ∈ t.rows, row.HasColumns t.allColumns
  key_has_value : ∀ key, t.primaryKey = some key → ∀ row ∈ t.rows, (Row.value? row key).isSome
  keys_apart : ∀ key, t.primaryKey = some key → t.rows.Pairwise (Row.Apart key)

/-- Taking columns in keeps a list free of repetitions and of the primary key. -/
theorem foldl_addColumn (primaryKey : Option String) (specified columns : List String)
    (nodup : columns.Nodup) (apart : ∀ key, primaryKey = some key → key ∉ columns) :
    (specified.foldl (addColumn primaryKey) columns).Nodup ∧
      ∀ key, primaryKey = some key → key ∉ specified.foldl (addColumn primaryKey) columns := by
  induction specified generalizing columns with
  | nil => exact ⟨nodup, apart⟩
  | cons c specified ih =>
    rw [List.foldl_cons]
    by_cases hc : some c = primaryKey ∨ c ∈ columns
    · rw [addColumn, if_pos hc]
      exact ih columns nodup apart
    · rw [addColumn, if_neg hc]
      obtain ⟨hkey, hmem⟩ := not_or.1 hc
      refine ih _ ?_ ?_
      · refine List.nodup_append.2 ⟨nodup, List.nodup_singleton c, ?_⟩
        intro a ha b hb hab
        exact hmem (List.mem_singleton.1 hb ▸ hab ▸ ha)
      · intro key hk hin
        rcases List.mem_append.1 hin with hin | hin
        · exact apart key hk hin
        · exact hkey (hk ▸ congrArg some (List.mem_singleton.1 hin).symm)

/-- **A new table is sound**, whatever columns its specification repeats. -/
theorem ofSpec_sound (spec : TableSpec) : (ofSpec spec).Sound := by
  obtain ⟨nodup, apart⟩ :=
    foldl_addColumn spec.primaryKey spec.columns [] List.nodup_nil (by simp)
  exact
    { columns_nodup := nodup
      key_not_mem_columns := apart
      row_columns := by simp [ofSpec]
      key_has_value := by simp [ofSpec]
      keys_apart := by simp [ofSpec] }

/-! ### Insertion -/

/-- A row whose columns are set by names of the table keeps exactly the columns of the table. -/
theorem hasColumns_of_assignAll {find : String → Except StorageError String}
    {columns : List String} (hfind : ∀ name c, find name = .ok c → c ∈ columns)
    {assigned : List (String × String)} {row row' : Row} (hrow : row.HasColumns columns)
    (h : assignAll find row assigned = .ok row') : row'.HasColumns columns := by
  induction assigned generalizing row with
  | nil => exact Except.ok.inj h ▸ hrow
  | cons a assigned ih =>
    obtain ⟨c, hc, hrest⟩ := Result.bind_eq_ok_iff.1 h
    exact ih (hrow.insert (hfind a.1 c hc) (some a.2)) hrest

/-- The row that an insertion makes: its values in the columns that it names, and nulls elsewhere.
-/
def newRow (t : Table) (spec : InsertSpec) : Except StorageError Row :=
  assignAll (t.column spec.table) (Row.nulls t.allColumns)
    ((spec.columns.getD t.allColumns).zip spec.values)

/-- What an insertion adds: its row, which passed the test of its key. -/
theorem exists_newRow_of_insert {t t' : Table} {spec : InsertSpec} (h : t.insert spec = .ok t') :
    ∃ row, t.newRow spec = .ok row ∧ t.checkKey row = .ok () ∧
      t' = { t with rows := t.rows ++ [row] } := by
  unfold insert at h
  dsimp only at h
  split at h
  · simp [throw, throwThe, MonadExceptOf.throw, bind, Except.bind] at h
  · simp only [Result.bind_eq_ok_iff, Result.pure_eq_ok_iff] at h
    obtain ⟨row, hrow, _, hkey, rfl⟩ := h
    exact ⟨row, hrow, hkey, rfl⟩

/-- That row has the columns of the table. -/
theorem exists_row_of_insert {t t' : Table} {spec : InsertSpec} (h : t.insert spec = .ok t') :
    ∃ row : Row, row.HasColumns t.allColumns ∧ t.checkKey row = .ok () ∧
      t' = { t with rows := t.rows ++ [row] } := by
  obtain ⟨row, hrow, hkey, rfl⟩ := exists_newRow_of_insert h
  exact ⟨row, hasColumns_of_assignAll (fun _ _ => mem_of_column) (.nulls _) hrow, hkey, rfl⟩

/-- A row that passed the test has a value for the key, and no row of the table has the same. -/
theorem apart_of_checkKey {t : Table} {row : Row} (h : t.checkKey row = .ok ()) {key : String}
    (hk : t.primaryKey = some key) :
    (Row.value? row key).isSome ∧ ∀ r ∈ t.rows, Row.Apart key r row := by
  unfold checkKey at h
  simp only [hk] at h
  cases hv : Row.value? row key with
  | none => simp [hv] at h
  | some value =>
    simp only [hv] at h
    split at h
    · simp at h
    · next hany =>
      refine ⟨rfl, fun r hr v w hrv hw => ?_⟩
      rw [Bool.not_eq_true, List.any_eq_false] at hany
      have hno := hany r hr
      rw [hrv] at hno
      obtain rfl : value = w := Option.some.inj (hv.symm.trans hw)
      simpa using hno

/-- **An insertion keeps a table sound.** -/
theorem insert_sound {t t' : Table} {spec : InsertSpec} (ht : t.Sound)
    (h : t.insert spec = .ok t') : t'.Sound := by
  obtain ⟨row, hcols, hcheck, rfl⟩ := exists_row_of_insert h
  refine
    { columns_nodup := ht.columns_nodup
      key_not_mem_columns := ht.key_not_mem_columns
      row_columns := ?_
      key_has_value := ?_
      keys_apart := ?_ }
  · intro r hr
    rcases List.mem_append.1 hr with hr | hr
    · exact ht.row_columns r hr
    · exact List.mem_singleton.1 hr ▸ hcols
  · intro key hk r hr
    rcases List.mem_append.1 hr with hr | hr
    · exact ht.key_has_value key hk r hr
    · exact List.mem_singleton.1 hr ▸ (apart_of_checkKey hcheck hk).1
  · intro key hk
    refine List.pairwise_append.2 ⟨ht.keys_apart key hk, List.pairwise_singleton _ _, ?_⟩
    intro r hr s hs
    exact List.mem_singleton.1 hs ▸ (apart_of_checkKey hcheck hk).2 r hr

/-! ### Update and deletion -/

/-- Where no canonical text of a key repeats, no value of the key does. -/
theorem apart_of_repeated?_eq_none {key : String} {seen : List String} {rows : List Row}
    (h : repeated? key seen rows = none) :
    (∀ row ∈ rows, ∀ v, Row.value? row key = some v → Cell.canonical v ∉ seen) ∧
      rows.Pairwise (Row.Apart key) := by
  induction rows generalizing seen with
  | nil => simp
  | cons row rows ih =>
    unfold repeated? at h
    cases hv : Row.value? row key with
    | none =>
      simp only [hv] at h
      obtain ⟨hseen, hrows⟩ := ih h
      refine ⟨?_, List.pairwise_cons.2 ⟨fun s _ v w hrv _ => ?_, hrows⟩⟩
      · rintro r (_ | ⟨_, hr⟩) v hrv
        · simp [hv] at hrv
        · exact hseen r hr v hrv
      · simp [hv] at hrv
    | some value =>
      simp only [hv] at h
      split at h
      · simp at h
      · next hnew =>
        obtain ⟨hseen, hrows⟩ := ih h
        refine ⟨?_, List.pairwise_cons.2 ⟨fun s hs v w hrv hsw => ?_, hrows⟩⟩
        · rintro r (_ | ⟨_, hr⟩) v hrv
          · exact Option.some.inj (hv.symm.trans hrv) ▸ hnew
          · exact fun hin => hseen r hr v hrv (List.mem_cons_of_mem _ hin)
        · obtain rfl : value = v := Option.some.inj (hv.symm.trans hrv)
          have hne : Cell.canonical w ≠ Cell.canonical value :=
            fun e => hseen s hs w hsw (e ▸ List.mem_cons_self)
          exact Bool.eq_false_iff.2 fun hsame =>
            hne (Cell.canonical_eq_of_sameValue hsame).symm

/-- Rows that an update accepts have no two equal values for the primary key. -/
theorem pairwise_apart_of_checkUnique {t : Table} {rows : List Row}
    (h : t.checkUnique rows = .ok ()) {key : String} (hk : t.primaryKey = some key) :
    rows.Pairwise (Row.Apart key) := by
  unfold checkUnique at h
  simp only [hk] at h
  cases hrep : repeated? key [] rows with
  | none => exact (apart_of_repeated?_eq_none hrep).2
  | some value => simp [hrep] at h

theorem hasColumns_assignRow {columns : List String} {assigned : List (String × String)}
    (hassigned : ∀ a ∈ assigned, a.1 ∈ columns) {row : Row} (hrow : row.HasColumns columns) :
    (assignRow assigned row).HasColumns columns := by
  induction assigned generalizing row with
  | nil => exact hrow
  | cons a assigned ih =>
    obtain ⟨ha, hrest⟩ := List.forall_mem_cons.1 hassigned
    exact ih hrest (hrow.insert ha (some a.2))

/-- Assignments put values into columns and no nulls, so a value stays a value. -/
theorem isSome_value?_assignRow {assigned : List (String × String)} {row : Row} {key : String}
    (h : (Row.value? row key).isSome) : (Row.value? (assignRow assigned row) key).isSome := by
  induction assigned generalizing row with
  | nil => exact h
  | cons a assigned ih =>
    apply ih
    rw [Row.value?_insert]
    split
    · rfl
    · exact h

/-- Assignments that are accepted are assignments to columns of the table. -/
theorem mem_allColumns_of_assigned {t : Table} {table : String} {assignments : List Assignment}
    {assigned : List (String × String)}
    (h : assignments.mapM (t.assignedColumn table) = .ok assigned) :
    ∀ a ∈ assigned, a.1 ∈ t.allColumns := by
  intro a ha
  obtain ⟨b, -, hb⟩ := Result.exists_of_mem_mapM h a ha
  obtain ⟨c, hc, hpair⟩ := Result.bind_eq_ok_iff.1 hb
  exact Result.pure_eq_ok_iff.1 hpair ▸ mem_of_column hc

variable [PatternCompiler]

/-- What an update makes of a table: it assigns the rows that the condition selects, and the rows
afterwards pass the test of the key. -/
theorem exists_rows_of_update {t t' : Table} {q : QuerySpec} {n : Nat}
    (h : t.update q = .ok (n, t')) :
    ∃ (p : Option Predicate) (assigned : List (String × String)) (rows : List Row),
      (∀ a ∈ assigned, a.1 ∈ t.allColumns) ∧
        rows = t.rows.map (fun r =>
          if Predicate.optionHolds p r then assignRow assigned r else r) ∧
        t.checkUnique rows = .ok () ∧ t' = { t with rows } := by
  simp only [update, Result.bind_eq_ok_iff, Result.pure_eq_ok_iff, Prod.mk.injEq] at h
  obtain ⟨p, -, assigned, ha, _, hcheck, -, rfl⟩ := h
  exact ⟨p, assigned, _, mem_allColumns_of_assigned ha, rfl, hcheck, rfl⟩

/-- **An update keeps a table sound.** -/
theorem update_sound {t t' : Table} {q : QuerySpec} {n : Nat} (ht : t.Sound)
    (h : t.update q = .ok (n, t')) : t'.Sound := by
  obtain ⟨p, assigned, rows, hassigned, hrows, hcheck, rfl⟩ := exists_rows_of_update h
  have hmem : ∀ r ∈ rows, ∃ s ∈ t.rows, r = s ∨ r = assignRow assigned s := by
    intro r hr
    rw [hrows] at hr
    obtain ⟨s, hs, rfl⟩ := List.mem_map.1 hr
    refine ⟨s, hs, ?_⟩
    split
    · exact .inr rfl
    · exact .inl rfl
  refine
    { columns_nodup := ht.columns_nodup
      key_not_mem_columns := ht.key_not_mem_columns
      row_columns := ?_
      key_has_value := ?_
      keys_apart := fun key hk => pairwise_apart_of_checkUnique hcheck hk }
  · intro r hr
    obtain ⟨s, hs, rfl | rfl⟩ := hmem r hr
    · exact ht.row_columns r hs
    · exact hasColumns_assignRow hassigned (ht.row_columns s hs)
  · intro key hk r hr
    obtain ⟨s, hs, rfl | rfl⟩ := hmem r hr
    · exact ht.key_has_value key hk r hs
    · exact isSome_value?_assignRow (ht.key_has_value key hk s hs)

/-- What a deletion leaves: some of the rows, in their order. -/
theorem sublist_of_delete {t t' : Table} {q : QuerySpec} {n : Nat}
    (h : t.delete q = .ok (n, t')) :
    ∃ rows : List Row, rows.Sublist t.rows ∧ t' = { t with rows } := by
  simp only [delete, Result.bind_eq_ok_iff, Result.pure_eq_ok_iff, Prod.mk.injEq] at h
  obtain ⟨p, -, -, rfl⟩ := h
  exact ⟨_, List.filter_sublist, rfl⟩

/-- **A deletion keeps a table sound.** -/
theorem delete_sound {t t' : Table} {q : QuerySpec} {n : Nat} (ht : t.Sound)
    (h : t.delete q = .ok (n, t')) : t'.Sound := by
  obtain ⟨rows, hsub, rfl⟩ := sublist_of_delete h
  exact
    { columns_nodup := ht.columns_nodup
      key_not_mem_columns := ht.key_not_mem_columns
      row_columns := fun r hr => ht.row_columns r (hsub.subset hr)
      key_has_value := fun key hk r hr => ht.key_has_value key hk r (hsub.subset hr)
      keys_apart := fun key hk => (ht.keys_apart key hk).sublist hsub }

end Table

end Tabular
