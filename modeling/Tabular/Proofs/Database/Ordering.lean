import Tabular.Database
import Tabular.Proofs.Cell.Order
import Tabular.Proofs.Result
import Tabular.Proofs.Sorting.Stable

/-!
Searches in an order.

A search with an order is the search without it, sorted (`find_eq_sorted`). Sorting gives an order
only where the comparison of cells is transitive, so it is stated for the rows at hand and not for
all rows: a column whose cells are all numeric but for nulls, or none of them, is in order whatever
other columns hold.

* `sortRows_orderedBy`: rows whose cells in a column are compared transitively are sorted by it.
* `find_orderedBy`: a search in the order of a column.
-/

namespace Tabular

namespace Database

open Cell Result Sorting

/-! ### Rows in the order of a column -/

/-- Whether a row has a cell in a column that compares equal to another one. -/
def sameCell (column : String) (cell : Option String) (row : Row) : Bool :=
  compareCells (row.value? column) cell = .eq

/-- The cells of rows in a column. -/
def cellsIn (column : String) (rows : List Row) : Set (Option String) :=
  {cell | ∃ row ∈ rows, row.value? column = cell}

/-- Rows sorted by a column: nulls stand first in ascending order and last in descending order. -/
structure OrderedBy (ascending : Bool) (column : String) (rows sorted : List Row) : Prop where
  perm : sorted.Perm rows
  ascends : ascending = true →
    sorted.Pairwise fun a b => (compareCells (a.value? column) (b.value? column)).isLE
  descends : ascending = false →
    sorted.Pairwise fun a b => (compareCells (a.value? column) (b.value? column)).isGE
  nulls_first : ascending = true →
    sorted.Pairwise fun a b => b.value? column = none → a.value? column = none
  nulls_last : ascending = false →
    sorted.Pairwise fun a b => a.value? column = none → b.value? column = none
  /-- Rows whose cells compare equal are in the order in which they were. -/
  stable : ∀ cell, sorted.filter (sameCell column cell) = rows.filter (sameCell column cell)

/-- Whether a row may stand before another one. -/
def before (ascending : Bool) (column : String) (a b : Row) : Bool :=
  compareRows ascending column a b != .gt

theorem before_ascending (column : String) (a b : Row) :
    before true column a b = (compareCells (a.value? column) (b.value? column)).isLE := by
  unfold before compareRows
  dsimp only
  cases compareCells (a.value? column) (b.value? column) <;> rfl

theorem before_descending (column : String) (a b : Row) :
    before false column a b = (compareCells (a.value? column) (b.value? column)).isGE := by
  unfold before compareRows
  dsimp only
  cases compareCells (a.value? column) (b.value? column) <;> rfl

/-- Descending is ascending backwards. -/
theorem before_false (column : String) (a b : Row) :
    before false column a b = before true column b a := by
  rw [before_descending, before_ascending, compareCells_swap, Ordering.isGE_swap]

/-- Nothing but a null is not above a null. -/
theorem eq_none_of_isLE {a b : Option String} (h : (compareCells a b).isLE) :
    b = none → a = none := by
  rintro rfl
  cases a with
  | none => rfl
  | some a => exact Bool.noConfusion h

/-- Whether the cell of a row is less than that of another one, in ascending or descending order. -/
abbrev isLess (ascending : Bool) (column : String) (a b : Row) : Bool :=
  compareRows ascending column a b == .lt

theorem compareRows_swap (ascending : Bool) (column : String) (a b : Row) :
    compareRows ascending column b a = (compareRows ascending column a b).swap := by
  unfold compareRows
  rw [compareCells_swap (a.value? column)]
  cases ascending <;> rfl

/-- Two rows are in order where the first one may stand before the second one. -/
theorem inOrder_isLess (ascending : Bool) (column : String) (a b : Row) :
    inOrder (isLess ascending column) a b = before ascending column a b := by
  unfold inOrder isLess before
  rw [compareRows_swap ascending column a b]
  cases compareRows ascending column a b <;> rfl

/-- Two rows may stand in either order where their cells compare equal. -/
theorem alike_isLess (ascending : Bool) (column : String) (a b : Row) :
    alike (isLess ascending column) a b = sameCell column (a.value? column) b := by
  have hswap := compareCells_swap (a.value? column) (b.value? column)
  unfold alike sameCell
  rw [inOrder_isLess, inOrder_isLess]
  cases ascending
  · rw [before_false, before_false, before_ascending, before_ascending, hswap]
    cases compareCells (a.value? column) (b.value? column) <;> rfl
  · rw [before_ascending, before_ascending, hswap]
    cases compareCells (a.value? column) (b.value? column) <;> rfl

/-- Cells that compare equal are equal to the same cells. -/
theorem sameCell_eq {column : String} {cell : Option String} {row : Row}
    (h : sameCell column cell row = true) :
    sameCell column (row.value? column) = sameCell column cell := by
  have hcell := compareCells_eq_iff.1 (of_decide_eq_true h)
  funext other
  exact decide_eq_decide.2 (by rw [compareCells_eq_iff, compareCells_eq_iff, hcell])

/-- Where the cells of a column are compared transitively, the rows are in a weak order. -/
theorem weakOn_isLess {column : String} {rows : List Row}
    (transitive : TransitiveOn (cellsIn column rows)) (ascending : Bool) :
    WeakOn (isLess ascending column) (· ∈ rows) where
  asymm := by
    intro a b _ _ hab
    rw [isLess, compareRows_swap, beq_iff_eq.1 hab]
    rfl
  trans := by
    intro a b c ha hb hc
    have cell_mem (r : Row) (hr : r ∈ rows) : r.value? column ∈ cellsIn column rows := ⟨r, hr, rfl⟩
    rw [inOrder_isLess, inOrder_isLess, inOrder_isLess]
    cases ascending
    · rw [before_false, before_false, before_false, before_ascending, before_ascending,
        before_ascending]
      exact fun hba hcb =>
        transitive _ (cell_mem c hc) _ (cell_mem b hb) _ (cell_mem a ha) hcb hba
    · rw [before_ascending, before_ascending, before_ascending]
      exact transitive _ (cell_mem a ha) _ (cell_mem b hb) _ (cell_mem c hc)

/-- Rows that come out of a sort are the rows that went in, whatever their cells. -/
theorem perm_of_arrange {ascending : Bool} {column : Option String} {rows arranged : List Row}
    (h : arrange ascending column rows = .ok arranged) : arranged.Perm rows := by
  cases column with
  | none => exact .of_eq (Except.ok.inj h).symm
  | some c =>
    rw [arrange, sortRows] at h
    cases hsort : stableSort (isLess ascending c) rows with
    | none => simp [hsort] at h
    | some sorted =>
      rw [hsort] at h
      exact Except.ok.inj h ▸ stableSort_perm hsort

/-- **Rows whose cells are compared transitively are sorted.** -/
theorem sortRows_orderedBy {column : String} {rows : List Row}
    (transitive : TransitiveOn (cellsIn column rows)) (ascending : Bool) :
    ∃ sorted, sortRows ascending column rows = .ok sorted ∧
      OrderedBy ascending column rows sorted := by
  obtain ⟨sorted, hsorted, hs⟩ := sortedFrom_stableSort (weakOn_isLess transitive ascending)
  have hbefore : sorted.Pairwise fun a b => before ascending column a b = true :=
    hs.ordered.imp fun h => inOrder_isLess ascending column _ _ ▸ h
  refine ⟨sorted, by rw [sortRows, hsorted], ?_⟩
  constructor
  case perm => exact hs.perm
  case ascends =>
    rintro rfl
    exact hbefore.imp fun h => before_ascending column _ _ ▸ h
  case descends =>
    rintro rfl
    exact hbefore.imp fun h => before_descending column _ _ ▸ h
  case nulls_first =>
    rintro rfl
    exact hbefore.imp fun h => eq_none_of_isLE (before_ascending column _ _ ▸ h)
  case nulls_last =>
    rintro rfl
    exact hbefore.imp fun h =>
      eq_none_of_isLE (before_ascending column _ _ ▸ before_false column _ _ ▸ h)
  case stable =>
    intro cell
    by_cases hcell : ∃ row ∈ rows, sameCell column cell row
    · -- the rows of one cell are those that are like one of them
      obtain ⟨row, hrow, hsame⟩ := hcell
      have hstable := hs.stable row hrow
      rwa [funext (alike_isLess ascending column row), sameCell_eq hsame] at hstable
    · have hnone (row : Row) (hrow : row ∈ rows) : ¬sameCell column cell row = true :=
        fun hsame => hcell ⟨row, hrow, hsame⟩
      rw [List.filter_eq_nil_iff.2 hnone,
        List.filter_eq_nil_iff.2 fun row hrow => hnone row (hs.perm.subset hrow)]

/-- **A sort gives up** on more than twenty rows only, and only where their cells are not compared
transitively. -/
theorem disorder_of_sortRows {ascending : Bool} {column : String} {rows : List Row}
    {err : StorageError} (h : sortRows ascending column rows = .error err) :
    err = .disorder ∧ 20 < rows.length ∧ ¬TransitiveOn (cellsIn column rows) := by
  cases hsort : stableSort (isLess ascending column) rows with
  | some sorted => simp [sortRows, hsort] at h
  | none =>
    rw [sortRows, hsort] at h
    refine ⟨(Except.error.inj h).symm, ?_, fun transitive => ?_⟩
    · by_contra hshort
      simp [stableSort_of_short (Nat.le_of_not_lt hshort)] at hsort
    · obtain ⟨sorted, hsorted, -⟩ := sortedFrom_stableSort (weakOn_isLess transitive ascending)
      simp [hsorted] at hsort

theorem disorder_of_arrange {ascending : Bool} {column : Option String} {rows : List Row}
    {err : StorageError} (h : arrange ascending column rows = .error err) : err = .disorder := by
  cases column with
  | none => simp [arrange] at h
  | some c => exact (disorder_of_sortRows h).1

end Database

/-- A query that shows each row that it finds, as it is. -/
structure QuerySpec.Whole (q : QuerySpec) : Prop where
  no_columns : q.columns = none
  not_distinct : q.distinct = false
  no_limit : q.limit = none
  no_offset : q.offset = none

/-- A query without its order. -/
def QuerySpec.unordered (q : QuerySpec) : QuerySpec :=
  { q with orderBy := none }

namespace Database

open Cell Result

/-! ### Searches in an order -/

/-- What the tables of a query are joined to. -/
def joined (db : Database) (q : QuerySpec) : Except StorageError Selection := do
  let t ← db.table q.table
  q.joins.foldlM (db.joinTable q.table) { rows := t.rows, columns := t.allColumns }

section

variable [PatternCompiler]

/-- A search that shows whole rows ends with their order. -/
theorem find_of_whole (db : Database) {q : QuerySpec} (whole : q.Whole) :
    db.find q = (do
      let t ← db.table q.table
      let s ← q.joins.foldlM (db.joinTable q.table) { rows := t.rows, columns := t.allColumns }
      let p ← q.condition.mapM (t.predicateOn q.table (s.column q.table))
      let rows := s.rows.filter (Predicate.optionHolds p)
      let order ← q.orderBy.mapM (s.column q.table)
      arrange q.ascending order rows) := by
  simp only [find, page, whole.no_columns, whole.not_distinct, whole.no_limit, whole.no_offset,
    Option.mapM_none, pure_bind, Option.getD_none, List.drop_zero, Bool.false_eq_true, if_false]
  exact bind_congr fun t => bind_congr fun s => bind_congr fun p => bind_congr fun order =>
    bind_pure _

/-- A search in an order is the search without it, sorted by the column that the order means. -/
theorem find_eq_sorted {db : Database} {q : QuerySpec} {name column : String} {s : Selection}
    {rows : List Row} (whole : q.Whole) (order : q.orderBy = some name)
    (hs : db.joined q = .ok s) (hcolumn : s.column q.table name = .ok column)
    (hrows : db.find q.unordered = .ok rows) :
    db.find q = sortRows q.ascending column rows := by
  obtain ⟨t, ht, hs⟩ := bind_eq_ok_iff.1 hs
  have whole' : q.unordered.Whole := ⟨whole.1, whole.2, whole.3, whole.4⟩
  rw [find_of_whole db whole'] at hrows
  simp only [QuerySpec.unordered, ht, ok_bind, hs, Option.mapM_none, pure_bind] at hrows
  obtain ⟨p, hp, hrows⟩ := bind_eq_ok_iff.1 hrows
  obtain rfl := pure_eq_ok_iff.1 hrows
  rw [find_of_whole db whole, ht, ok_bind, hs, ok_bind, hp, ok_bind, order, Option.mapM_some,
    hcolumn]
  rfl

/-- **A search in the order of a column** whose cells are all numeric apart from nulls, or none of
them: it finds the rows that it finds without the order, sorted by the column. -/
theorem find_orderedBy {db : Database} {q : QuerySpec} {name column : String} {s : Selection}
    {rows : List Row} (whole : q.Whole) (order : q.orderBy = some name)
    (hs : db.joined q = .ok s) (hcolumn : s.column q.table name = .ok column)
    (hrows : db.find q.unordered = .ok rows) (uniform : Uniform (cellsIn column rows)) :
    ∃ sorted, db.find q = .ok sorted ∧ OrderedBy q.ascending column rows sorted := by
  rw [find_eq_sorted whole order hs hcolumn hrows]
  exact sortRows_orderedBy (transitiveOn_of_not_crossed uniform.not_crossed) q.ascending

end

/-- Points from most to fewest: two spellings of one number stay as they were, and who has none
comes last. -/
theorem find_orderedBy_points :
    let player (name : String) (points : Option String) : Row :=
      Keyed.ofList [("name", some name), ("points", points)]
    let rows := [player "ada" (some "9"), player "bob" none, player "cy" (some "34"),
      player "dee" (some "9.0")]
    let t : Table := { primaryKey := none, columns := ["name", "points"], rows }
    let db : Database := { createdAt := .epoch, tables := Keyed.ofList [("player", t)] }
    let q : QuerySpec := { table := "player", orderBy := some "player.points", ascending := false }
    q.Whole ∧ db.find q.unordered = .ok rows ∧ Uniform (cellsIn "points" rows) ∧
      ∃ sorted, db.find q = .ok sorted ∧ OrderedBy false "points" rows sorted := by
  intro player rows t db q
  have whole : q.Whole := ⟨rfl, rfl, rfl, rfl⟩
  have hs : db.joined q = .ok { rows, columns := ["name", "points"] } := by decide +kernel
  have hcolumn : Selection.column { rows, columns := ["name", "points"] } q.table "player.points" =
      .ok "points" := by decide +kernel
  have hrows : db.find q.unordered = .ok rows := by decide +kernel
  have hnumeric : ∀ row ∈ rows, ∀ value ∈ row.value? "points", (numeric? value).isSome := by
    decide +kernel
  have uniform : Uniform (cellsIn "points" rows) :=
    .inl fun value ⟨row, hrow, hvalue⟩ => hnumeric row hrow value hvalue
  exact ⟨whole, hrows, uniform, find_orderedBy whole rfl hs hcolumn hrows uniform⟩

end Database

end Tabular
