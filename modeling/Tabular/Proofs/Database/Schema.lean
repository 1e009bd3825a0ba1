import Tabular.Proofs.Database.Lookup
import Tabular.Proofs.Database.Ordering
import Tabular.Proofs.Database.Pages
import Tabular.Report

/-!
The schema of an answer.

The rows of an answer come from stored rows, from unions of a left and a right row, from a row of
one side that is filled up with nulls, or from a projection. In each case they have the columns that
belong to the query: every table has rows of its columns, a join of any kind keeps this of a
selection (`hasColumns_joinTable`), and so does a chain of joins. A table drawn under the columns of
the first row relies on it.

* `exists_shown_of_find`: every row of an answer is one of the joined rows, as the projection shows
  it.
* `oneSchema_of_find`: all rows of an answer have the columns of the query.
-/

namespace Tabular

namespace Row

/-- Rows with the same columns list them alike. -/
theorem HasColumns.keys_eq {row other : Row} {columns : List String} (h : row.HasColumns columns)
    (h' : other.HasColumns columns) : Keyed.keys row = Keyed.keys other := by
  have hperm : (Keyed.keys row).Perm (Keyed.keys other) :=
    (List.perm_ext_iff_of_nodup row.nodup_names other.nodup_names).2 fun c =>
      (h c).trans (h' c).symm
  have ascending : ∀ r : Row, (Keyed.keys r).Pairwise (· < ·) :=
    fun r => List.pairwise_map.2 r.sorted
  exact hperm.eq_of_pairwise (fun a b _ _ hab hba => absurd hba (String.lt_asymm hab))
    (ascending row) (ascending other)

/-- A row under the labels of a projection has these labels for columns. -/
theorem hasColumns_projectRow (projection : List (String × String)) (row : Row) :
    (Database.projectRow projection row).HasColumns (projection.map Prod.fst) := by
  intro c
  rw [Database.projectRow, Keyed.mem_keys_ofList, List.map_map]
  rfl

end Row

namespace Report

/-- The texts of all cells of a row. -/
def cellTexts (row : Row) : List String :=
  row.entries.map fun e => e.2.getD "NULL"

theorem map_cellText_keys (row : Row) : row.keys.map (cellText row) = cellTexts row := by
  rw [Keyed.keys, List.map_map]
  refine List.map_congr_left fun e he => ?_
  have hcell : row.get? e.1 = some e.2 := Keyed.mem_entries_iff.1 he
  simp only [Function.comp_apply, cellText, Row.value?, hcell, Option.join_some]

end Report

namespace Join

/-! ### One join -/

/-- Every row of a join of any kind has the columns of both sides. -/
theorem hasColumns_rows {j : Join} {base : String} {left right rows : List Row}
    {leftColumns rightColumns columns : List String}
    (hleft : ∀ row ∈ left, row.HasColumns leftColumns)
    (hright : ∀ row ∈ right, row.HasColumns rightColumns)
    (h : j.rows base left leftColumns rightColumns right = .ok (rows, columns)) :
    columns = leftColumns ++ j.qualifiedColumns rightColumns ∧
      ∀ row ∈ rows, row.HasColumns columns := by
  simp only [Join.rows, Result.bind_eq_ok_iff, Result.pure_eq_ok_iff, Prod.mk.injEq] at h
  obtain ⟨first, -, second, -, rfl, rfl⟩ := h
  have hqualified : ∀ row ∈ right.map (Row.qualify j.table),
      row.HasColumns (j.qualifiedColumns rightColumns) := by
    intro row hrow
    obtain ⟨r, hr, rfl⟩ := List.mem_map.1 hrow
    exact (hright r hr).qualify j.table
  refine ⟨rfl, fun row hrow => ?_⟩
  obtain hmatched | hunmatched := List.mem_append.1 hrow
  · obtain ⟨l, hl, hlrow⟩ := List.mem_flatMap.1 hmatched
    obtain ⟨r, hr, rfl⟩ | ⟨-, rfl⟩ := Database.mem_leftRow hlrow
    · exact (hleft l hl).union (hqualified r hr)
    · exact (hleft l hl).union (.nulls _)
  · split at hunmatched
    · obtain ⟨r, hr, rfl⟩ := List.mem_map.1 hunmatched
      exact Row.HasColumns.union (.nulls _) (hqualified r (List.mem_filter.1 hr).1)
    · exact absurd hunmatched List.not_mem_nil

end Join

namespace Database

open Result

variable {db : Database} {base : String}

/-- A join that succeeds keeps the rows of a selection to its columns. -/
theorem hasColumns_joinTable (sound : db.SoundTables) {s s' : Selection} {j : Join}
    (hrows : ∀ row ∈ s.rows, row.HasColumns s.columns) (h : db.joinTable base s j = .ok s') :
    (∃ t, db.table j.table = .ok t) ∧ s'.columns = s.columns ++ db.addedColumns j ∧
      ∀ row ∈ s'.rows, row.HasColumns s'.columns := by
  simp only [joinTable, bind_eq_ok_iff, pure_eq_ok_iff] at h
  obtain ⟨t, ht, ⟨rows, columns⟩, hjoin, rfl⟩ := h
  obtain ⟨rfl, hrows'⟩ := Join.hasColumns_rows hrows (sound.table ht).row_columns hjoin
  exact ⟨⟨t, ht⟩, by rw [addedColumns_eq (table_eq_ok_iff.1 ht)], hrows'⟩

/-- A chain of joins that succeeds finds every table, and its rows have the columns of all. -/
theorem hasColumns_foldlM_joinTable (sound : db.SoundTables) {joins : List Join} {s s' : Selection}
    (hrows : ∀ row ∈ s.rows, row.HasColumns s.columns)
    (h : joins.foldlM (db.joinTable base) s = .ok s') :
    (∀ j ∈ joins, ∃ t, db.table j.table = .ok t) ∧
      s'.columns = s.columns ++ joins.flatMap db.addedColumns ∧
      ∀ row ∈ s'.rows, row.HasColumns s'.columns := by
  induction joins generalizing s with
  | nil =>
    obtain rfl := pure_eq_ok_iff.1 h
    exact ⟨by simp, by simp, hrows⟩
  | cons j joins ih =>
    rw [List.foldlM_cons] at h
    obtain ⟨s₁, hjoin, hrest⟩ := bind_eq_ok_iff.1 h
    obtain ⟨htable, hcolumns, hrows₁⟩ := hasColumns_joinTable sound hrows hjoin
    obtain ⟨htables, hcolumns', hrows'⟩ := ih hrows₁ hrest
    refine ⟨List.forall_mem_cons.2 ⟨htable, htables⟩, ?_, hrows'⟩
    rw [hcolumns', hcolumns, List.flatMap_cons, List.append_assoc]

/-! ### The rows of an answer -/

/-- The projection of a query on a selection, if it asks for columns. -/
def Selection.projection (s : Selection) (q : QuerySpec) :
    Except StorageError (Option (List (String × String))) :=
  q.columns.mapM fun labels => labels.mapM fun l => do return (l, ← s.column q.table l)

/-- The labels of a projection are the names that the query asks for. -/
theorem labels_of_mapM {find : String → Except StorageError String} {labels : List String}
    {projection : List (String × String)}
    (h : labels.mapM (fun l => do return (l, ← find l)) = .ok projection) :
    projection.map Prod.fst = labels := by
  induction labels generalizing projection with
  | nil =>
    rw [List.mapM_nil, pure_eq_ok_iff] at h
    subst h
    rfl
  | cons l labels ih =>
    simp only [List.mapM_cons, bind_eq_ok_iff, pure_eq_ok_iff] at h
    obtain ⟨_, ⟨c, -, rfl⟩, rest, hrest, rfl⟩ := h
    rw [List.map_cons, ih hrest]

theorem mem_of_mem_page {α : Type} {limit offset : Option Nat} {l : List α} {a : α}
    (h : a ∈ page limit offset l) : a ∈ l := by
  cases limit with
  | none => exact List.mem_of_mem_drop h
  | some n => exact List.mem_of_mem_drop (List.mem_of_mem_take h)

/-- The rows that a query chooses are among those that it shows. -/
theorem mem_of_mem_chosen {q : QuerySpec} {rows : List Row} {row : Row}
    (h : row ∈ chosen q rows) : row ∈ rows := by
  have hrow := mem_of_mem_page h
  split at hrow
  · exact List.mem_eraseDups.1 hrow
  · exact hrow

/-- Every row of an answer is one of the joined rows, as the projection shows it. -/
theorem exists_shown_of_find [PatternCompiler] {q : QuerySpec} {rows : List Row}
    (h : db.find q = .ok rows) :
    ∃ t s projection, db.table q.table = .ok t ∧
      q.joins.foldlM (db.joinTable q.table) (startOf t) = .ok s ∧ s.projection q = .ok projection ∧
      ∀ row ∈ rows, ∃ r ∈ s.rows, row = shownBy projection r := by
  obtain ⟨t, ht, h⟩ := bind_eq_ok_iff.1 h
  obtain ⟨s, hs, h⟩ := bind_eq_ok_iff.1 h
  obtain ⟨p, -, h⟩ := bind_eq_ok_iff.1 h
  obtain ⟨order, -, h⟩ := bind_eq_ok_iff.1 h
  obtain ⟨arranged, harranged, h⟩ := bind_eq_ok_iff.1 h
  obtain ⟨projection, hprojection, h⟩ := bind_eq_ok_iff.1 h
  obtain rfl := pure_eq_ok_iff.1 h
  refine ⟨t, s, projection, ht, hs, hprojection, fun row hrow => ?_⟩
  have hshown := mem_of_mem_chosen hrow
  have hjoined (r : Row) (hr : r ∈ arranged) : r ∈ s.rows :=
    (List.mem_filter.1 ((perm_of_arrange harranged).subset hr)).1
  cases projection with
  | none => exact ⟨row, hjoined row hshown, rfl⟩
  | some p =>
    obtain ⟨r, hr, rfl⟩ := List.mem_map.1 hshown
    exact ⟨r, hjoined r hr, rfl⟩

/-- The columns of a query on a table: those that it asks for, or else the columns of the table and
of every joined one. -/
def shownColumns (db : Database) (q : QuerySpec) (t : Table) : List String :=
  q.columns.getD (t.allColumns ++ q.joins.flatMap db.addedColumns)

/-- A row is shown with the columns of the query. -/
theorem hasColumns_shownBy {q : QuerySpec} {t : Table} {s : Selection}
    {projection : Option (List (String × String))} (hprojection : s.projection q = .ok projection)
    (hcolumns : s.columns = t.allColumns ++ q.joins.flatMap db.addedColumns) {row : Row}
    (hrow : row.HasColumns s.columns) :
    (shownBy projection row).HasColumns (db.shownColumns q t) := by
  rw [Selection.projection] at hprojection
  cases hq : q.columns with
  | none =>
    rw [hq, Option.mapM_none, pure_eq_ok_iff] at hprojection
    subst hprojection
    rw [shownColumns, hq, Option.getD_none, ← hcolumns]
    exact hrow
  | some labels =>
    rw [hq, Option.mapM_some, map_eq_pure_bind] at hprojection
    obtain ⟨p, hp, hsome⟩ := bind_eq_ok_iff.1 hprojection
    obtain rfl := pure_eq_ok_iff.1 hsome
    rw [shownColumns, hq, Option.getD_some, ← labels_of_mapM hp]
    exact Row.hasColumns_projectRow p row

/-- Rows of one schema. -/
structure OneSchema (columns : List String) (rows : List Row) : Prop where
  hasColumns : ∀ row ∈ rows, row.HasColumns columns
  same_keys : ∀ row ∈ rows, ∀ other ∈ rows, row.keys = other.keys
  /-- Drawn as a table under the columns of the first row, every row shows all its cells. -/
  drawn_whole : ∀ first ∈ rows.head?, ∃ widths, Report.rowsLines rows =
    [Report.tableLine widths first.keys, Report.ruleLine widths] ++
      rows.map (fun row => Report.tableLine widths (Report.cellTexts row)) ++
      ["", toString rows.length ++ " row(s) returned"]

theorem OneSchema.of_hasColumns {columns : List String} {rows : List Row}
    (h : ∀ row ∈ rows, row.HasColumns columns) : OneSchema columns rows := by
  have same : ∀ row ∈ rows, ∀ other ∈ rows, row.keys = other.keys :=
    fun row hrow other hother => (h row hrow).keys_eq (h other hother)
  refine ⟨h, same, fun first hfirst => ?_⟩
  obtain ⟨others, rfl⟩ := List.head?_eq_some_iff.1 hfirst
  refine ⟨first.keys.map (Report.columnWidth (first :: others)), ?_⟩
  have hcells : ∀ row ∈ first :: others,
      first.keys.map (Report.cellText row) = Report.cellTexts row := by
    intro row hrow
    rw [same first List.mem_cons_self row hrow, Report.map_cellText_keys]
  rw [← List.map_congr_left fun row hrow => congrArg _ (hcells row hrow)]
  rfl

/-- **All rows of an answer have one schema.** In a database that comes about, the rows of a search
that succeeds, with joins of any kind, have the columns that it asks for, or else the primary key
and the columns of its table and, under qualified names, those of every joined table. -/
theorem oneSchema_of_find [PatternCompiler] (arises : db.Arises) {q : QuerySpec} {rows : List Row}
    (h : db.find q = .ok rows) :
    ∃ t, db.table q.table = .ok t ∧
      (∀ j ∈ q.joins, ∃ other, db.table j.table = .ok other ∧
        db.addedColumns j = other.allColumns.map (Row.qualifiedName j.table)) ∧
      OneSchema (db.shownColumns q t) rows := by
  have sound := arises.soundTables
  obtain ⟨t, s, projection, ht, hs, hprojection, hrows⟩ := exists_shown_of_find h
  obtain ⟨htables, hcolumns, hjoined⟩ :=
    hasColumns_foldlM_joinTable sound (sound.table ht).row_columns hs
  refine ⟨t, ht, fun j hj => ?_, .of_hasColumns fun row hrow => ?_⟩
  · obtain ⟨other, hother⟩ := htables j hj
    exact ⟨other, hother, addedColumns_eq (table_eq_ok_iff.1 hother)⟩
  · obtain ⟨r, hr, rfl⟩ := hrows row hrow
    exact hasColumns_shownBy hprojection hcolumns (hjoined r hr)

/-- The shop with a second item. -/
def stock : Database :=
  shop.setTable "item" { itemTable with rows := itemTable.rows ++
    [Keyed.ofList [("id", some "2"), ("label", some "desk")]] }

theorem reachable_stock : stock.Reachable := by
  refine ⟨none, .epoch, [.statement 0 "CREATE DATABASE shop", .statement 0 "INIT shop",
    .statement 0 "CREATE TABLE item (id AS PRIMARY_KEY, label)",
    .statement 0 "CREATE TABLE pair (a, b)", .statement 0 "INSERT item 1, lamp",
    .statement 0 "INSERT pair 1, 2", .statement 0 "INSERT item 2, desk"], ?_⟩
  decide +kernel

/-- Pairs with their first items, and the item that is first in no pair: one row is put together
from a pair and an item, the other one is filled up with nulls on the left, and when the pairs are
joined again both have their columns a second time. -/
theorem oneSchema_of_find_stock :
    let again : Join := { kind := .left, table := "pair", first := "item.id", second := "pair.b" }
    let q : QuerySpec := { table := "pair", joins := [itemOf .right "a", again] }
    let row (a b id label c d : Option String) : Row :=
      Keyed.ofList [("a", a), ("b", b), ("item.id", id), ("item.label", label), ("pair.a", c),
        ("pair.b", d)]
    let rows : List Row := [row (some "1") (some "2") (some "1") (some "lamp") none none,
      row none none (some "2") (some "desk") (some "1") (some "2")]
    stock.Arises ∧ stock.find q = .ok rows ∧ ∃ t, stock.table q.table = .ok t ∧
      (∀ j ∈ q.joins, ∃ other, stock.table j.table = .ok other ∧
        stock.addedColumns j = other.allColumns.map (Row.qualifiedName j.table)) ∧
      OneSchema (stock.shownColumns q t) rows := by
  intro again q row rows
  have arises : stock.Arises := reachable_stock.arises
  have hfind : stock.find q = .ok rows := by decide +kernel
  exact ⟨arises, hfind, oneSchema_of_find arises hfind⟩

end Database

end Tabular
