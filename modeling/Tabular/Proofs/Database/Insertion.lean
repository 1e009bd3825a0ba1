import Mathlib.Data.List.Forall2
import Tabular.Proofs.Database.Chains
import Tabular.Proofs.Database.Selection

/-!
What an insertion stores.

An insertion finds the column of each of its names and sets it to its value, one after another.
Several names can mean one column: the same name twice, or a name with and without its table.
`assignAll_eq_ok_iff` takes the two things that an insertion does apart, so that what the new row
holds is a matter of the pairs of a column and a value.

* `insert_eq_ok_iff_inserts`: when an insertion succeeds, the row that it adds, cell by cell, and
  when that row has every value that was given.
* `stores_of_insert_in_order`: an insertion without a list of columns loses no value.
-/

namespace Tabular

/-- A row has each of these values in its column. -/
def Row.Stores (row : Row) (given : List (String × String)) : Prop :=
  ∀ a ∈ given, row.get? a.1 = some (some a.2)

namespace Table

/-- No column is given two different values. -/
def Consistent (given : List (String × String)) : Prop :=
  ∀ a ∈ given, ∀ b ∈ given, a.1 = b.1 → a.2 = b.2

/-- The columns that names mean, one for each. -/
def Means (t : Table) (table : String) : List String → List String → Prop :=
  List.Forall₂ fun name c => t.column table name = .ok c

/-- The names of an insertion: those of its list, or else all columns. -/
def namesOf (t : Table) (spec : InsertSpec) : List String :=
  spec.columns.getD t.allColumns

/-! ### Names -/

theorem column_of_mem {t : Table} {c : String} (h : c ∈ t.allColumns) (table : String) :
    t.column table c = .ok c :=
  column_eq_ok_iff.2 (Column.resolve?_of_mem h table)

/-- A column goes by its name with the table before it as well, unless another one is called that.
-/
theorem column_qualifiedName {t : Table} {table c : String} (h : c ∈ t.allColumns)
    (hq : Row.qualifiedName table c ∉ t.allColumns) :
    t.column table (Row.qualifiedName table c) = .ok c :=
  column_eq_ok_iff.2 (Column.FoundBy.unqualified hq rfl h).resolve?_eq

section Meaning

variable {t : Table} {table : String} {names columns : List String}

theorem Means.subset (h : t.Means table names columns) : columns ⊆ t.allColumns := by
  induction h with
  | nil => exact List.nil_subset _
  | cons hc _ ih => exact List.cons_subset.2 ⟨mem_of_column hc, ih⟩

theorem Means.of_mem_zip (h : t.Means table names columns) {values : List String} :
    ∀ a ∈ columns.zip values, a.1 ∈ t.allColumns :=
  fun _ ha => h.subset (List.of_mem_zip ha).1

/-- The plain names of columns mean these columns. -/
theorem Means.eq_of_subset (h : t.Means table names columns) (hnames : names ⊆ t.allColumns) :
    columns = names := by
  induction h with
  | nil => rfl
  | cons hc _ ih =>
    obtain ⟨hname, hnames⟩ := List.cons_subset.1 hnames
    rw [column_of_mem hname, Except.ok.injEq] at hc
    rw [hc, ih hnames]

end Meaning

/-! ### Values -/

theorem mem_valuesOf {given : List (String × String)} {column value : String} :
    value ∈ valuesOf given column ↔ (column, value) ∈ given := by
  simp only [valuesOf, List.mem_filterMap, Option.ite_none_right_eq_some, Option.some.injEq]
  constructor
  · rintro ⟨a, ha, rfl, rfl⟩
    exact ha
  · exact fun h => ⟨_, h, rfl, rfl⟩

/-- Setting values one after another loses none exactly when no two of one column differ. -/
theorem stores_assignRow_iff {given : List (String × String)} {row : Row} :
    (assignRow given row).Stores given ↔ Consistent given := by
  constructor
  · intro h a ha b hb hcolumn
    have hcell := (h a ha).symm.trans (hcolumn ▸ h b hb)
    simpa using hcell
  · intro h a ha
    have hmem : a.2 ∈ valuesOf given a.1 := mem_valuesOf.2 ha
    -- The last value of the column need not be that of `a`, but it is the same text.
    obtain ⟨value, hlast⟩ : ∃ value, (valuesOf given a.1).getLast? = some value :=
      Option.isSome_iff_exists.1 (List.getLast?_isSome.2 (List.ne_nil_of_mem hmem))
    have hvalue : (a.1, value) ∈ given := mem_valuesOf.1 (List.mem_of_getLast? hlast)
    rw [get?_assignRow, hlast, h a ha _ hvalue rfl]
    rfl

theorem consistent_zip_of_nodup {columns : List String} (nodup : columns.Nodup)
    (values : List String) : Consistent (columns.zip values) := by
  induction columns generalizing values with
  | nil => simp [Consistent]
  | cons c columns ih =>
    cases values with
    | nil => simp [Consistent]
    | cons value values =>
      obtain ⟨hc, hcolumns⟩ := List.nodup_cons.1 nodup
      have apart : ∀ a ∈ columns.zip values, a.1 ≠ c := by
        rintro a ha rfl
        exact hc (List.of_mem_zip ha).1
      rw [List.zip_cons_cons]
      intro a ha b hb hab
      rcases List.mem_cons.1 ha with rfl | ha <;> rcases List.mem_cons.1 hb with rfl | hb
      · rfl
      · exact absurd hab.symm (apart b hb)
      · exact absurd hab (apart a ha)
      · exact ih hcolumns values a ha b hb hab

/-! ### The new row -/

/-- Setting columns by their names is finding all of them first and then setting them. -/
theorem assignAll_eq_ok_iff {t : Table} {table : String} {names values : List String}
    (hlength : names.length = values.length) {row row' : Row} :
    assignAll (t.column table) row (names.zip values) = .ok row' ↔
      ∃ columns, t.Means table names columns ∧ row' = assignRow (columns.zip values) row := by
  induction names generalizing values row with
  | nil => simp [assignAll, Means, assignRow, eq_comm]
  | cons name names ih =>
    obtain ⟨value, values, rfl⟩ := List.exists_cons_of_length_eq_add_one hlength.symm
    have hlength : names.length = values.length := Nat.succ.inj hlength
    simp only [List.zip_cons_cons, assignAll, Result.bind_eq_ok_iff, ih hlength]
    constructor
    · rintro ⟨c, hc, columns, hcolumns, rfl⟩
      exact ⟨c :: columns, .cons hc hcolumns, rfl⟩
    · rintro ⟨_, hmeans, rfl⟩
      obtain ⟨c, columns, hc, hcolumns, rfl⟩ := List.forall₂_cons_left_iff.1 hmeans
      exact ⟨c, hc, columns, hcolumns, rfl⟩

/-- A row of a table with values in some columns. -/
def rowOf (t : Table) (given : List (String × String)) : Row :=
  assignRow given (Row.nulls t.allColumns)

/-- A new row has the last value given for each column of the table, if there is one. -/
theorem get?_rowOf {t : Table} {given : List (String × String)}
    (hgiven : ∀ a ∈ given, a.1 ∈ t.allColumns) (c : String) :
    (t.rowOf given).get? c =
      if c ∈ t.allColumns then some (valuesOf given c).getLast? else none := by
  rw [rowOf, get?_assignRow]
  split
  case isTrue hc =>
    rw [Row.get?_nulls_of_mem hc]
    cases (valuesOf given c).getLast? <;> rfl
  case isFalse hc =>
    have hvalues : valuesOf given c = [] := by
      refine List.eq_nil_iff_forall_not_mem.2 fun value hvalue => hc ?_
      exact hgiven _ (mem_valuesOf.1 hvalue)
    rw [hvalues, Row.get?_eq_none_of_not_mem (.nulls _) hc]
    rfl

section Insertion

variable {t t' : Table} {spec : InsertSpec}

/-- **When an insertion succeeds, and what it adds**: there is one value for each of its names,
every name means a column, and the row of these values passes the test of its key. -/
theorem insert_eq_ok_iff :
    t.insert spec = .ok t' ↔ ∃ columns, t.Means spec.table (t.namesOf spec) columns ∧
      columns.length = spec.values.length ∧
      t.checkKey (t.rowOf (columns.zip spec.values)) = .ok () ∧
      t' = { t with rows := t.rows ++ [t.rowOf (columns.zip spec.values)] } := by
  unfold insert
  dsimp only
  split
  case isTrue hne =>
    constructor
    · intro h
      cases h
    · rintro ⟨columns, hmeans, hlength, -⟩
      exact absurd (hmeans.length_eq.trans hlength) hne
  case isFalse heq =>
    have hlength : (t.namesOf spec).length = spec.values.length := not_not.1 heq
    simp only [Result.bind_eq_ok_iff, Result.pure_eq_ok_iff]
    constructor
    · rintro ⟨row, hrow, _, hkey, rfl⟩
      obtain ⟨columns, hmeans, rfl⟩ := (assignAll_eq_ok_iff hlength).1 hrow
      exact ⟨columns, hmeans, hmeans.length_eq.symm.trans hlength, hkey, rfl⟩
    · rintro ⟨columns, hmeans, -, hkey, rfl⟩
      exact ⟨_, (assignAll_eq_ok_iff hlength).2 ⟨columns, hmeans, rfl⟩, (), hkey, rfl⟩

/-- **An insertion without a list of columns loses no value**: the row that it adds has them in the
columns of the table, in their order. -/
theorem stores_of_insert_in_order (sound : t.Sound) (hspec : spec.columns = none)
    (h : t.insert spec = .ok t') :
    ∃ row, t' = { t with rows := t.rows ++ [row] } ∧ t.allColumns.length = spec.values.length ∧
      row.Stores (t.allColumns.zip spec.values) := by
  obtain ⟨columns, hmeans, hlength, -, rfl⟩ := insert_eq_ok_iff.1 h
  rw [namesOf, hspec, Option.getD_none] at hmeans
  obtain rfl : columns = t.allColumns := hmeans.eq_of_subset (List.Subset.refl _)
  have hconsistent := consistent_zip_of_nodup sound.nodup_allColumns spec.values
  exact ⟨_, rfl, hlength, stores_assignRow_iff.2 hconsistent⟩

end Insertion

end Table

namespace Database

/-- An insertion that succeeds: in the table `t` its names mean `columns`, and it adds `row`. -/
structure Inserts (db : Database) (spec : InsertSpec) (db' : Database) (t : Table)
    (columns : List String) (row : Row) : Prop where
  table : db.table spec.table = .ok t
  /-- Every name means a column, and there is one value for each. -/
  means : t.Means spec.table (t.namesOf spec) columns
  length_eq : columns.length = spec.values.length
  /-- Where there is a primary key, the row has a value for it that no other row has. -/
  accepted : t.checkKey row = .ok ()
  /-- The table gains the row at its end, and everything else stays. -/
  added : db' = db.setTable spec.table { t with rows := t.rows ++ [row] }
  /-- A column has the last value given for it, or else null. -/
  cells : ∀ c, row.get? c =
    if c ∈ t.allColumns then some (Table.valuesOf (columns.zip spec.values) c).getLast? else none
  /-- The row has every value, unless names of one column come with different values. -/
  stores_iff : row.Stores (columns.zip spec.values) ↔ Table.Consistent (columns.zip spec.values)

variable {db db' : Database} {spec : InsertSpec}

/-- **What an insertion stores**: it adds one row, which has the last value given for each column,
and so it has every value given exactly when no column is given two different ones. -/
theorem insert_eq_ok_iff_inserts :
    db.insert spec = .ok db' ↔ ∃ t columns row, db.Inserts spec db' t columns row := by
  simp only [insert, Result.bind_eq_ok_iff, Result.pure_eq_ok_iff, Table.insert_eq_ok_iff]
  constructor
  · rintro ⟨t, ht, _, ⟨columns, hmeans, hlength, hkey, rfl⟩, rfl⟩
    exact ⟨t, columns, _, ht, hmeans, hlength, hkey, rfl, Table.get?_rowOf hmeans.of_mem_zip,
      Table.stores_assignRow_iff⟩
  · rintro ⟨t, columns, row, inserts⟩
    -- The cells determine the row.
    obtain rfl : row = t.rowOf (columns.zip spec.values) := Keyed.ext_get? fun c =>
      (inserts.cells c).trans (Table.get?_rowOf inserts.means.of_mem_zip c).symm
    exact ⟨t, inserts.table, _,
      ⟨columns, inserts.means, inserts.length_eq, inserts.accepted, rfl⟩, inserts.added.symm⟩

/-- An item whose columns come in another order, one of them with the table before it. -/
theorem inserts_item :
    let spec : InsertSpec :=
      { table := "item", columns := some ["item.label", "id"], values := ["desk", "02"] }
    let row : Row := Keyed.ofList [("id", some "02"), ("label", some "desk")]
    let db' := shop.setTable "item" { itemTable with rows := itemTable.rows ++ [row] }
    shop.insert spec = .ok db' ∧ ∃ t columns row, shop.Inserts spec db' t columns row := by
  intro spec row db'
  have h : shop.insert spec = .ok db' := by decide +kernel
  exact ⟨h, insert_eq_ok_iff_inserts.1 h⟩

/-- **A value is lost without an error** where one column goes by two names: of the two values only
the second one is there afterwards. -/
theorem not_stores_of_named_twice :
    let spec : InsertSpec :=
      { table := "pair", columns := some ["a", "pair.a"], values := ["1", "2"] }
    let row : Row := Keyed.ofList [("a", some "2"), ("b", none)]
    shop.Reachable ∧ shop.table "pair" = .ok pairTable ∧
      pairTable.Means "pair" ["a", "pair.a"] ["a", "a"] ∧
      shop.insert spec =
        .ok (shop.setTable "pair" { pairTable with rows := pairTable.rows ++ [row] }) ∧
      ¬row.Stores (["a", "a"].zip spec.values) := by
  intro spec row
  have ha : "a" ∈ pairTable.allColumns := by decide
  have hmeans : pairTable.Means "pair" ["a", "pair.a"] ["a", "a"] :=
    .cons (Table.column_of_mem ha "pair")
      (.cons (Table.column_qualifiedName ha (by decide +kernel)) .nil)
  refine ⟨reachable_shop, by decide +kernel, hmeans, by decide +kernel, fun h => ?_⟩
  have hcell : row.get? "a" = some (some "1") := h ("a", "1") (by simp [spec])
  exact absurd hcell (by decide +kernel)

end Database

end Tabular
