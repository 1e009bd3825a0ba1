import Mathlib.Data.List.Nodup
import Tabular.Proofs.Database.Joins
import Tabular.Proofs.Session.Reachable

/-!
Chains of joins.

A search joins one table after another, and each join adds the columns of its table under qualified
names. Names of tables are words, so qualified names of different tables are different; a table that
is joined again brings the names that it brought before, and its cells take the place of the earlier
ones. `Extends` says what one more join makes of a selection.

* `foldlM_joinTable`: a chain of joins whose columns are found succeeds.
* `extends_of_resolve`: what each of its joins keeps, in every reachable database.
-/

namespace Tabular

/-! ### Qualified names -/

/-- The qualified names of tables that are words tell the tables apart. -/
theorem Row.table_eq_of_qualifiedName_eq {table table' c c' : String} (word : TableName table)
    (word' : TableName table') (h : qualifiedName table c = qualifiedName table' c') :
    table = table' := by
  have hchars : ∀ {name : String}, TableName name → ∀ rest,
      (name.toList ++ '.' :: rest).takeWhile (· != '.') = name.toList := by
    intro name named rest
    rw [List.takeWhile_append_of_pos]
    · simp
    · intro a ha
      have hdot : '.' ∉ name.toList := named.not_mem (by decide +kernel)
      have hne : a ≠ '.' := by
        rintro rfl
        exact hdot ha
      simpa using hne
  have hlists : table.toList ++ '.' :: c.toList = table'.toList ++ '.' :: c'.toList := by
    simpa [qualifiedName] using congrArg String.toList h
  have htake := congrArg (List.takeWhile (· != '.')) hlists
  rw [hchars word, hchars word'] at htake
  exact String.ext htake

theorem Table.Sound.nodup_allColumns {t : Table} (sound : t.Sound) : t.allColumns.Nodup := by
  unfold allColumns
  cases hk : t.primaryKey with
  | none => simpa using sound.columns_nodup
  | some key => simpa using ⟨sound.key_not_mem_columns key hk, sound.columns_nodup⟩

namespace Database

/-! ### Chains -/

/-- The columns that a join adds to a selection. -/
def addedColumns (db : Database) (j : Join) : List String :=
  match db.tables.get? j.table with
  | some t => j.qualifiedColumns t.allColumns
  | none => []

/-- The table of a join is there, and its two columns are found among those of a selection and those
that it adds. -/
def JoinResolves (db : Database) (base : String) (columns : List String) (j : Join) : Prop :=
  (db.tables.get? j.table).isSome ∧
    (Column.resolve? (columns ++ db.addedColumns j) base j.first).isSome ∧
    (Column.resolve? (columns ++ db.addedColumns j) base j.second).isSome

/-- Joins resolve one after another, each with the columns that the ones before it have added. -/
def JoinsResolve (db : Database) (base : String) : List String → List Join → Prop
  | _, [] => True
  | columns, j :: joins =>
    db.JoinResolves base columns j ∧ db.JoinsResolve base (columns ++ db.addedColumns j) joins

instance (db : Database) (base : String) (columns : List String) (j : Join) :
    Decidable (db.JoinResolves base columns j) :=
  inferInstanceAs (Decidable (_ ∧ _ ∧ _))

instance decidableJoinsResolve (db : Database) (base : String) :
    ∀ (columns : List String) (joins : List Join), Decidable (db.JoinsResolve base columns joins)
  | _, [] => isTrue trivial
  | columns, j :: joins =>
    have := db.decidableJoinsResolve base (columns ++ db.addedColumns j) joins
    inferInstanceAs (Decidable (_ ∧ _))

/-- No table with columns is joined twice. -/
def NoneTwice (db : Database) (joins : List Join) : Prop :=
  joins.Pairwise fun i j => i.table = j.table → db.addedColumns j = []

/-- The selection with which a search of a table starts. -/
def startOf (t : Table) : Selection :=
  { rows := t.rows, columns := t.allColumns }

/-- A row that one more join builds from a left row. -/
structure ExtendsRow (db : Database) (j : Join) (columns : List String) (left row : Row) :
    Prop where
  /-- It has the columns of the left row and those of the join, and no others. -/
  hasColumns : row.HasColumns (columns ++ db.addedColumns j)
  /-- Where the join brings no column of that name, the cell is that of the left row. -/
  kept : ∀ c ∈ columns, c ∉ db.addedColumns j → row.get? c = left.get? c
  /-- The columns of the join show a row of its table, or are null where a left row is kept. -/
  joined : ∃ t, db.table j.table = .ok t ∧
    ((∃ right ∈ t.rows, ∀ c ∈ t.allColumns,
        row.get? (Row.qualifiedName j.table c) = right.get? c) ∨
      j.kind = .left ∧ ∀ c ∈ t.allColumns, row.get? (Row.qualifiedName j.table c) = some none)

/-- What one more join makes of a selection: it adds columns, and every row is built from a row that
was there; the rows built from one row stay together, in the order of the rows there. -/
structure Extends (db : Database) (j : Join) (s s' : Selection) : Prop where
  columns : s'.columns = s.columns ++ db.addedColumns j
  rows : ∃ built : Row → List Row, s'.rows = s.rows.flatMap built ∧
    ∀ left ∈ s.rows, ∀ row ∈ built left, db.ExtendsRow j s.columns left row

variable {db : Database} {base : String}

theorem addedColumns_eq {j : Join} {t : Table} (ht : db.tables.get? j.table = some t) :
    db.addedColumns j = j.qualifiedColumns t.allColumns := by
  rw [addedColumns, ht]

theorem mem_addedColumns {j : Join} {c : String} :
    c ∈ db.addedColumns j ↔ ∃ t, db.tables.get? j.table = some t ∧
      ∃ d ∈ t.allColumns, c = Row.qualifiedName j.table d := by
  unfold addedColumns Join.qualifiedColumns
  cases db.tables.get? j.table with
  | none => simp
  | some t => simp [eq_comm]

theorem table_eq_ok_iff {name : String} {t : Table} :
    db.table name = .ok t ↔ db.tables.get? name = some t := by
  unfold table
  cases db.tables.get? name <;> simp

theorem joinsResolve_append {columns : List String} {joins joins' : List Join} :
    db.JoinsResolve base columns (joins ++ joins') ↔
      db.JoinsResolve base columns joins ∧
        db.JoinsResolve base (columns ++ joins.flatMap db.addedColumns) joins' := by
  induction joins generalizing columns with
  | nil => simp [JoinsResolve]
  | cons j joins ih => simp [JoinsResolve, ih, and_assoc]

/-! ### The columns of a chain -/

section Columns

variable (proper : Proper db.tables)

include proper

theorem nodup_addedColumns (j : Join) : (db.addedColumns j).Nodup := by
  unfold addedColumns
  split
  · next t ht =>
    exact (proper.sound j.table t ht).nodup_allColumns.map (Row.qualifiedName_injective j.table)
  · exact List.nodup_nil

/-- The columns that two joins add are different, unless the joins are of one table. -/
theorem disjoint_addedColumns_iff {i j : Join} :
    (db.addedColumns i).Disjoint (db.addedColumns j) ↔
      (i.table = j.table → db.addedColumns j = []) := by
  constructor
  · intro disjoint same
    have heq : db.addedColumns i = db.addedColumns j := by
      unfold addedColumns Join.qualifiedColumns
      rw [same]
    rw [heq] at disjoint
    exact List.eq_nil_iff_forall_not_mem.2 fun c hc => disjoint hc hc
  · intro h c hi hj
    obtain ⟨t, ht, d, -, hc⟩ := mem_addedColumns.1 hi
    obtain ⟨t', ht', d', -, hc'⟩ := mem_addedColumns.1 hj
    have same := Row.table_eq_of_qualifiedName_eq (proper.named _ _ ht) (proper.named _ _ ht')
      (hc.symm.trans hc')
    rw [h same] at hj
    exact List.not_mem_nil hj

/-- The columns of a chain, where those it starts with are apart from those that it adds. -/
theorem nodup_columns_iff {columns : List String} (nodup : columns.Nodup) {joins : List Join}
    (apart : ∀ j ∈ joins, columns.Disjoint (db.addedColumns j)) :
    (columns ++ joins.flatMap db.addedColumns).Nodup ↔ db.NoneTwice joins := by
  have hdisjoint : columns.Disjoint (joins.flatMap db.addedColumns) := by
    intro c hc hadded
    obtain ⟨j, hj, hcj⟩ := List.mem_flatMap.1 hadded
    exact apart j hj hc hcj
  have hpairs : joins.Pairwise (fun i j => (db.addedColumns i).Disjoint (db.addedColumns j)) ↔
      db.NoneTwice joins :=
    List.Pairwise.iff fun _ _ => disjoint_addedColumns_iff proper
  rw [List.nodup_append', List.nodup_flatMap]
  constructor
  · rintro ⟨-, ⟨-, pairs⟩, -⟩
    exact hpairs.1 pairs
  · intro h
    exact ⟨nodup, ⟨fun j _ => nodup_addedColumns proper j, hpairs.2 h⟩, hdisjoint⟩

end Columns

/-! ### One join -/

/-- A join whose table and columns are found succeeds. -/
theorem joinTable_eq_ok {s : Selection} {j : Join} (kind : j.kind ≠ .right) {t : Table}
    (ht : db.tables.get? j.table = some t) {first second : String}
    (hfirst : Column.resolve? (s.columns ++ db.addedColumns j) base j.first = some first)
    (hsecond : Column.resolve? (s.columns ++ db.addedColumns j) base j.second = some second) :
    db.joinTable base s j = .ok
      { rows := s.rows.flatMap (Join.leftRow (j.kind == .left) first second (db.addedColumns j)
          (t.rows.map (Row.qualify j.table)))
        columns := s.columns ++ db.addedColumns j } := by
  rw [addedColumns_eq ht] at hfirst hsecond ⊢
  simp only [joinTable, table_eq_ok_iff.2 ht, Result.ok_bind, Join.rows, Join.column_eq_ok hfirst,
    Join.column_eq_ok hsecond, if_neg kind, List.append_nil]
  rfl

/-- What a left row gives: it and a row that it meets, or, where left rows are kept, it alone. -/
theorem mem_leftRow {keep : Bool} {first second : String} {columns : List String}
    {right : List Row} {l row : Row} (h : row ∈ Join.leftRow keep first second columns right l) :
    (∃ r ∈ right, row = l.union r) ∨ keep = true ∧ row = l.union (Row.nulls columns) := by
  unfold Join.leftRow at h
  split at h
  · split at h
    · next hkeep => exact .inr ⟨hkeep, List.mem_singleton.1 h⟩
    · exact absurd h List.not_mem_nil
  · next hrows =>
    obtain ⟨r, hr, rfl⟩ := List.mem_map.1 h
    exact .inl ⟨r, (List.mem_filter.1 hr).1, rfl⟩

/-- A union with a part that has the columns of a join extends the left row. -/
theorem extendsRow_union {j : Join} {t : Table} (ht : db.tables.get? j.table = some t)
    {columns : List String} {left right : Row} (hleft : left.HasColumns columns)
    (hright : right.HasColumns (db.addedColumns j))
    (shows : (∃ r ∈ t.rows, ∀ c ∈ t.allColumns,
        right.get? (Row.qualifiedName j.table c) = r.get? c) ∨
      j.kind = .left ∧ ∀ c ∈ t.allColumns, right.get? (Row.qualifiedName j.table c) = some none) :
    db.ExtendsRow j columns left (left.union right) := by
  have hcells : ∀ c ∈ t.allColumns, (Keyed.union left right).get? (Row.qualifiedName j.table c) =
      right.get? (Row.qualifiedName j.table c) :=
    fun c hc => Row.get?_union_of_mem hright (mem_addedColumns.2 ⟨t, ht, c, hc, rfl⟩)
  refine ⟨hleft.union hright, fun c _ hc => Row.get?_union_of_not_mem hright hc,
    t, table_eq_ok_iff.2 ht, ?_⟩
  obtain ⟨r, hr, hrow⟩ | ⟨hkind, hnulls⟩ := shows
  · exact .inl ⟨r, hr, fun c hc => (hcells c hc).trans (hrow c hc)⟩
  · exact .inr ⟨hkind, fun c hc => (hcells c hc).trans (hnulls c hc)⟩

/-- Every row that a join builds from a left row extends it. -/
theorem extendsRow_of_mem_leftRow (proper : Proper db.tables) {j : Join} {t : Table}
    (ht : db.tables.get? j.table = some t) {columns : List String} {first second : String}
    {left row : Row} (hleft : left.HasColumns columns)
    (h : row ∈ Join.leftRow (j.kind == .left) first second (db.addedColumns j)
      (t.rows.map (Row.qualify j.table)) left) :
    db.ExtendsRow j columns left row := by
  obtain ⟨right, hright, rfl⟩ | ⟨hkeep, rfl⟩ := mem_leftRow h
  · obtain ⟨r, hr, rfl⟩ := List.mem_map.1 hright
    refine extendsRow_union ht hleft ?_ (.inl ⟨r, hr, fun c _ => Row.get?_qualify j.table r c⟩)
    rw [addedColumns_eq ht]
    exact ((proper.sound _ t ht).row_columns r hr).qualify j.table
  · refine extendsRow_union ht hleft (.nulls _) (.inr ⟨eq_of_beq hkeep, fun c hc => ?_⟩)
    exact Row.get?_nulls_of_mem (mem_addedColumns.2 ⟨t, ht, c, hc, rfl⟩)

/-- **A join that resolves succeeds** and extends the selection. -/
theorem exists_extends (proper : Proper db.tables) {s : Selection}
    (hrows : ∀ row ∈ s.rows, row.HasColumns s.columns) {j : Join} (kind : j.kind ≠ .right)
    (resolves : db.JoinResolves base s.columns j) :
    ∃ s', db.joinTable base s j = .ok s' ∧ db.Extends j s s' := by
  obtain ⟨htable, hfirst, hsecond⟩ := resolves
  obtain ⟨t, ht⟩ := Option.isSome_iff_exists.1 htable
  obtain ⟨first, hfirst⟩ := Option.isSome_iff_exists.1 hfirst
  obtain ⟨second, hsecond⟩ := Option.isSome_iff_exists.1 hsecond
  exact ⟨_, joinTable_eq_ok kind ht hfirst hsecond, rfl, _, rfl, fun left hleft row hrow =>
    extendsRow_of_mem_leftRow proper ht (hrows left hleft) hrow⟩

theorem Extends.hasColumns {j : Join} {s s' : Selection} (h : db.Extends j s s') :
    ∀ row ∈ s'.rows, row.HasColumns s'.columns := by
  obtain ⟨built, hbuilt, hextends⟩ := h.rows
  intro row hrow
  rw [hbuilt] at hrow
  obtain ⟨left, hleft, hrow⟩ := List.mem_flatMap.1 hrow
  rw [h.columns]
  exact (hextends left hleft row hrow).hasColumns

/-! ### The chain -/

/-- A chain of joins that resolve succeeds: it adds the columns of every join, and its rows have all
columns. -/
theorem exists_foldlM_joinTable (proper : Proper db.tables) {joins : List Join}
    (kinds : ∀ j ∈ joins, j.kind ≠ .right) {s : Selection}
    (hrows : ∀ row ∈ s.rows, row.HasColumns s.columns)
    (resolve : db.JoinsResolve base s.columns joins) :
    ∃ s', joins.foldlM (db.joinTable base) s = .ok s' ∧
      s'.columns = s.columns ++ joins.flatMap db.addedColumns ∧
      ∀ row ∈ s'.rows, row.HasColumns s'.columns := by
  induction joins generalizing s with
  | nil => exact ⟨s, rfl, by simp, hrows⟩
  | cons j joins ih =>
    obtain ⟨kind, kinds⟩ := List.forall_mem_cons.1 kinds
    obtain ⟨s₁, hjoin, hextends⟩ := exists_extends proper hrows kind resolve.1
    have hrest : db.JoinsResolve base s₁.columns joins := hextends.columns ▸ resolve.2
    obtain ⟨s', hfold, hcolumns, hrows'⟩ := ih kinds hextends.hasColumns hrest
    refine ⟨s', ?_, ?_, hrows'⟩
    · rw [List.foldlM_cons, hjoin]
      exact hfold
    · rw [hcolumns, hextends.columns, List.flatMap_cons, List.append_assoc]

/-- **What a chain of joins keeps.** In a reachable database, take joins that resolve and are not
`RIGHT` ones, where no column of the base table is named like a joined one. Every join of the chain
succeeds and extends the selection of those before it; no two columns have one name as long as no
table is joined twice, and a table that is joined for the first time brings new columns only. -/
theorem extends_of_resolve [PatternCompiler] (reachable : db.Reachable) {t : Table}
    (ht : db.table base = .ok t)
    {joins : List Join} (kinds : ∀ j ∈ joins, j.kind ≠ .right)
    (resolve : db.JoinsResolve base t.allColumns joins)
    (apart : ∀ j ∈ joins, t.allColumns.Disjoint (db.addedColumns j)) :
    ∀ before j after, joins = before ++ j :: after →
      ∃ s s', before.foldlM (db.joinTable base) (startOf t) = .ok s ∧
        db.joinTable base s j = .ok s' ∧ db.Extends j s s' ∧
        (s'.columns.Nodup ↔ db.NoneTwice (before ++ [j])) ∧
        ((∀ i ∈ before, i.table ≠ j.table) → s.columns.Disjoint (db.addedColumns j)) := by
  rintro before j after rfl
  have proper := reachable.proper
  obtain ⟨sound, -⟩ := proper.table ht
  obtain ⟨hbefore, hj, -⟩ := joinsResolve_append.1 resolve
  have mem : before ++ [j] ⊆ before ++ j :: after := by
    rw [List.append_cons before j after]
    exact List.subset_append_left _ _
  obtain ⟨s, hfold, hcolumns, hrows⟩ := exists_foldlM_joinTable proper (s := startOf t)
    (fun i hi => kinds i (List.mem_append_left _ hi)) sound.row_columns hbefore
  have hj' : db.JoinResolves base s.columns j := hcolumns ▸ hj
  obtain ⟨s', hjoin, hextends⟩ := exists_extends proper hrows (kinds j (by simp)) hj'
  refine ⟨s, s', hfold, hjoin, hextends, ?_, fun hnew => ?_⟩
  · have hchain : s'.columns = t.allColumns ++ (before ++ [j]).flatMap db.addedColumns := by
      rw [hextends.columns, hcolumns]
      simp [startOf]
    rw [hchain]
    exact nodup_columns_iff proper sound.nodup_allColumns fun i hi => apart i (mem hi)
  · rw [hcolumns]
    intro c hc hadded
    obtain hbase | hchain := List.mem_append.1 hc
    · exact apart j (by simp) hbase hadded
    · obtain ⟨i, hi, hci⟩ := List.mem_flatMap.1 hchain
      exact (disjoint_addedColumns_iff proper).2 (fun same => absurd same (hnew i hi)) hci hadded

/-! ### Tables joined once, and twice -/

/-- A table of items with one item. -/
def itemTable : Table :=
  { primaryKey := some "id"
    columns := ["label"]
    rows := [Keyed.ofList [("id", some "1"), ("label", some "lamp")]] }

/-- A table with a pair of items, of which the second one is missing. -/
def pairTable : Table :=
  { primaryKey := none
    columns := ["a", "b"]
    rows := [Keyed.ofList [("a", some "1"), ("b", some "2")]] }

/-- The database of both tables. -/
def shop : Database :=
  { createdAt := .epoch
    tables := Keyed.ofList [("item", itemTable), ("pair", pairTable)] }

theorem reachable_shop : shop.Reachable := by
  refine ⟨none, .epoch, [.statement 0 "CREATE DATABASE shop", .statement 0 "INIT shop",
    .statement 0 "CREATE TABLE item (id AS PRIMARY_KEY, label)",
    .statement 0 "CREATE TABLE pair (a, b)", .statement 0 "INSERT item 1, lamp",
    .statement 0 "INSERT pair 1, 2"], ?_⟩
  decide +kernel

/-- The item that a column of the pairs names. -/
def itemOf (kind : JoinKind) (column : String) : Join :=
  { kind, table := "item", first := column, second := "item.id" }

/-- The pairs with their first item, and then with the pairs that have this item second. -/
theorem extends_of_resolve_shop :
    let again : Join := { kind := .left, table := "pair", first := "item.id", second := "pair.b" }
    let joins := [itemOf .inner "a", again]
    shop.Reachable ∧ shop.table "pair" = .ok pairTable ∧ (∀ j ∈ joins, j.kind ≠ .right) ∧
      shop.JoinsResolve "pair" pairTable.allColumns joins ∧
      (∀ j ∈ joins, pairTable.allColumns.Disjoint (shop.addedColumns j)) ∧
      ∀ before j after, joins = before ++ j :: after →
        ∃ s s', before.foldlM (shop.joinTable "pair") (startOf pairTable) = .ok s ∧
          shop.joinTable "pair" s j = .ok s' ∧ shop.Extends j s s' ∧
          (s'.columns.Nodup ↔ shop.NoneTwice (before ++ [j])) ∧
          ((∀ i ∈ before, i.table ≠ j.table) → s.columns.Disjoint (shop.addedColumns j)) := by
  intro again joins
  have ht : shop.table "pair" = .ok pairTable := by decide +kernel
  have kinds : ∀ j ∈ joins, j.kind ≠ .right := by decide
  have resolve : shop.JoinsResolve "pair" pairTable.allColumns joins := by decide +kernel
  have hnew : ∀ j ∈ joins, ∀ c ∈ pairTable.allColumns, c ∉ shop.addedColumns j := by
    decide +kernel
  have apart : ∀ j ∈ joins, pairTable.allColumns.Disjoint (shop.addedColumns j) :=
    fun j hj c hc => hnew j hj c hc
  exact ⟨reachable_shop, ht, kinds, resolve, apart,
    extends_of_resolve reachable_shop ht kinds resolve apart⟩

/-- **A table that is joined twice takes the place of its own columns**: after the first join the
pair has its first item, and after the second one, which finds no item, that item is gone, while its
columns are there twice. -/
theorem not_kept_of_joined_twice :
    let joined (id label : Option String) : Row :=
      Keyed.ofList [("a", some "1"), ("b", some "2"), ("item.id", id), ("item.label", label)]
    let s : Selection :=
      { rows := [joined (some "1") (some "lamp")]
        columns := ["a", "b", "item.id", "item.label"] }
    let s' : Selection :=
      { rows := [joined none none]
        columns := ["a", "b", "item.id", "item.label", "item.id", "item.label"] }
    shop.Reachable ∧ shop.table "pair" = .ok pairTable ∧
      shop.JoinsResolve "pair" pairTable.allColumns [itemOf .inner "a", itemOf .left "b"] ∧
      shop.joinTable "pair" (startOf pairTable) (itemOf .inner "a") = .ok s ∧
      shop.joinTable "pair" s (itemOf .left "b") = .ok s' ∧ ¬s'.columns.Nodup ∧
      ∀ left ∈ s.rows, ∀ row ∈ s'.rows, row.get? "item.label" ≠ left.get? "item.label" := by
  intro joined s s'
  have htable : shop.table "pair" = .ok pairTable := by decide +kernel
  have hfirst : shop.joinTable "pair" (startOf pairTable) (itemOf .inner "a") = .ok s := by
    decide +kernel
  have hsecond : shop.joinTable "pair" s (itemOf .left "b") = .ok s' := by decide +kernel
  refine ⟨reachable_shop, htable, by decide +kernel, hfirst, hsecond, by decide, ?_⟩
  decide +kernel

end Database

end Tabular
