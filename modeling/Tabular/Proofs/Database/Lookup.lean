import Tabular.Proofs.Database.Chains
import Tabular.Proofs.Database.Selection

/-!
Looking a row up by its primary key.

A value may be written in many ways, and a lookup asks for the value, not for the text: `2` finds
the row of `02` and that of `2.0`. That it finds one row at most rests on the keys of a sound table
being apart as values, and on values that are the same as a third one being the same.

* `length_lookup_le_one`: no two rows of a sound table have the value that is looked up.
* `find_lookup_iff`: a search for the value, in any order and projection, gives these rows as it
  shows them.
* `exactLookup`: in a database that comes about, searches, updates and deletions by a value of the
  primary key find one row at most, and after an insertion they find what was inserted.
-/

namespace Tabular

/-- The condition that the primary key has a value. -/
def Condition.keyIs (value : String) : Condition :=
  { target := .primaryKey, operator := .eq, operand := .scalar value }

/-- A query that looks a value of the primary key up: nothing is joined and no rows are passed over.
-/
structure QuerySpec.LooksUp (q : QuerySpec) (value : String) : Prop where
  condition : q.condition = some (.keyIs value)
  no_joins : q.joins = []
  no_limit : q.limit = none
  no_offset : q.offset = none

/-- The test that a column has a value. -/
def Predicate.cellIs (column value : String) : Predicate :=
  { column, test := .compare .eq value }

theorem Predicate.holds_cellIs {column value : String} {row : Row} :
    (cellIs column value).holds row = true ↔
      ∃ v, row.value? column = some v ∧ Cell.sameValue v value = true := by
  unfold holds cellIs
  cases row.value? column <;> simp [Test.holds, Operator.accepts, Cell.sameValue]

/-! ### One row at most -/

/-- A list whose members are pairwise related, where none are, has one member at most. -/
theorem length_le_one_of_pairwise {α : Type} {R : α → α → Prop} {l : List α}
    (h : l.Pairwise R) (unrelated : ∀ a ∈ l, ∀ b ∈ l, ¬R a b) : l.length ≤ 1 := by
  match l, h with
  | [], _ => exact Nat.zero_le 1
  | [_], _ => exact Nat.le_refl 1
  | a :: b :: _, h =>
    exact absurd (List.rel_of_pairwise_cons h List.mem_cons_self)
      (unrelated a (by simp) b (by simp))

namespace Table

variable {t : Table} {key value : String}

/-- The rows of a table whose primary key has a value. -/
def lookup (t : Table) (key value : String) : List Row :=
  t.rows.filter (Predicate.cellIs key value).holds

/-- **No two rows of a sound table have the same value for the primary key**, however it is written.
-/
theorem length_lookup_le_one (sound : t.Sound) (hk : t.primaryKey = some key) :
    (t.lookup key value).length ≤ 1 := by
  refine length_le_one_of_pairwise ((sound.keys_apart key hk).filter _) ?_
  intro r hr s hs apart
  obtain ⟨v, hv, hvalue⟩ := Predicate.holds_cellIs.1 (List.mem_filter.1 hr).2
  obtain ⟨w, hw, hvalue'⟩ := Predicate.holds_cellIs.1 (List.mem_filter.1 hs).2
  have hsame : Cell.sameValue v w = true :=
    Cell.sameValue_trans hvalue (Cell.sameValue_comm w value ▸ hvalue')
  exact Bool.noConfusion (hsame.symm.trans (apart v w hv hw))

/-- A row that was inserted is what its key finds. -/
theorem lookup_of_insert {row : Row} {v : String}
    (sound : Sound { t with rows := t.rows ++ [row] }) (hk : t.primaryKey = some key)
    (hv : row.value? key = some v) (hsame : Cell.sameValue v value = true) :
    lookup { t with rows := t.rows ++ [row] } key value = [row] := by
  have hle : (lookup { t with rows := t.rows ++ [row] } key value).length ≤ 1 :=
    length_lookup_le_one sound hk
  have hholds := Predicate.holds_cellIs.2 ⟨v, hv, hsame⟩
  have hlookup : lookup { t with rows := t.rows ++ [row] } key value =
      t.lookup key value ++ [row] := by
    simp [lookup, hholds]
  rw [hlookup, List.length_append, List.length_singleton] at hle
  have hnone : t.lookup key value = [] := List.eq_nil_of_length_eq_zero (by omega)
  rw [hlookup, hnone, List.nil_append]

end Table

namespace Database

open Result

/-! ### What a search shows of one row -/

/-- A row as a projection shows it, if there is one. -/
def shownBy (projection : Option (List (String × String))) (row : Row) : Row :=
  match projection with
  | some p => projectRow p row
  | none => row

/-- The names of a query mean columns of a table, and those to show are this projection. -/
structure Shows (t : Table) (q : QuerySpec) (projection : Option (List (String × String))) :
    Prop where
  order : ∃ column, q.orderBy.mapM (t.column q.table) = .ok column
  labels : (q.columns.mapM fun labels => labels.mapM fun l => do
    return (l, ← t.column q.table l)) = .ok projection

theorem arrange_of_length_le_one {rows : List Row} (h : rows.length ≤ 1) (ascending : Bool)
    (column : Option String) : arrange ascending column rows = .ok rows := by
  cases column with
  | none => rfl
  | some c =>
    have hsort : Sorting.stableSort (compareRows ascending c · · == .lt) rows = some rows := by
      match rows, h with
      | [], _ => rfl
      | [_], _ => rfl
    rw [arrange, sortRows, hsort]

theorem eraseDups_of_length_le_one {α : Type} [DecidableEq α] {l : List α}
    (h : l.length ≤ 1) : l.eraseDups = l := by
  match l, h with
  | [], _ => rfl
  | [_], _ => rfl

section

variable {db : Database} {q : QuerySpec} {t : Table} {key value : String}

variable [PatternCompiler]

theorem selector_of_looksUp (h : q.LooksUp value) (hk : t.primaryKey = some key) :
    t.selector q = .ok (some (Predicate.cellIs key value)) := by
  unfold Table.selector
  rw [h.condition]
  simp [Condition.keyIs, Table.predicate, Table.predicateOn, Table.targetColumn, hk, Test.of,
    Predicate.cellIs]

/-- A search by a value of the primary key has nothing to put in order or to leave out. -/
theorem find_of_looksUp (h : q.LooksUp value) (ht : db.table q.table = .ok t)
    (hk : t.primaryKey = some key) (single : (t.lookup key value).length ≤ 1) :
    db.find q = (do
      let _ ← q.orderBy.mapM (t.column q.table)
      let projection ← q.columns.mapM fun labels => labels.mapM fun l => do
        return (l, ← t.column q.table l)
      return (t.lookup key value).map (shownBy projection)) := by
  have hcolumn : Selection.column { rows := t.rows, columns := t.allColumns } q.table =
      t.column q.table := rfl
  have hselector : q.condition.mapM (t.predicateOn q.table (t.column q.table)) =
      .ok (some (Predicate.cellIs key value)) := selector_of_looksUp h hk
  have hrows : t.rows.filter (Predicate.optionHolds (some (Predicate.cellIs key value))) =
      t.lookup key value := rfl
  simp only [find, ht, ok_bind, h.no_joins, List.foldlM_nil, pure_bind, hcolumn, hselector, hrows,
    page, h.no_limit, h.no_offset, Option.getD_none, List.drop_zero]
  simp only [arrange_of_length_le_one single, ok_bind]
  refine bind_congr fun order => bind_congr fun projection => congrArg pure ?_
  have hfirst : ∀ rows : List Row, rows.length = (t.lookup key value).length →
      (if q.distinct then rows.eraseDups else rows) = rows := by
    intro rows hlength
    rw [eraseDups_of_length_le_one (hlength ▸ single), ite_self]
  have hshown : (t.lookup key value).map (shownBy none) = t.lookup key value := List.map_id _
  cases projection with
  | none => simp only [hshown, hfirst]
  | some p => exact hfirst ((t.lookup key value).map (projectRow p)) (List.length_map _)

/-- **A search by a value of the primary key** gives what it shows of the rows that have it. -/
theorem find_lookup_iff (h : q.LooksUp value) (ht : db.table q.table = .ok t)
    (hk : t.primaryKey = some key) (single : (t.lookup key value).length ≤ 1) {rows : List Row} :
    db.find q = .ok rows ↔ ∃ projection, Shows t q projection ∧
      rows = (t.lookup key value).map (shownBy projection) := by
  rw [find_of_looksUp h ht hk single]
  simp only [bind_eq_ok_iff, pure_eq_ok_iff]
  constructor
  · rintro ⟨column, horder, projection, hlabels, hrows⟩
    exact ⟨projection, ⟨⟨column, horder⟩, hlabels⟩, hrows.symm⟩
  · rintro ⟨projection, ⟨⟨column, horder⟩, hlabels⟩, hrows⟩
    exact ⟨column, horder, projection, hlabels, hrows.symm⟩

/-! ### Lookups by the primary key -/

/-- What searches, updates and deletions by a value of the primary key of a table do. -/
structure ExactLookup (db : Database) (t : Table) (key value : String) (q : QuerySpec) : Prop where
  find_le_one : ∀ rows, db.find q = .ok rows → rows.length ≤ 1
  /-- Nothing but a name to order by or to show that means no column makes a search fail. -/
  find_succeeds : ∀ projection, Shows t q projection → ∃ rows, db.find q = .ok rows
  update_le_one : ∀ n after, db.update q = .ok (n, after) → n ≤ 1
  delete_le_one : ∃ n left, db.delete q = .ok (n, left) ∧ n ≤ 1
  /-- An insertion adds its row, and a search for the key of this row, however it is written, finds
  this row and no other one. -/
  finds_inserted : ∀ spec after, spec.table = q.table → db.insert spec = .ok after →
    ∃ row v, t.newRow spec = .ok row ∧ row.value? key = some v ∧
      after.table q.table = .ok { t with rows := t.rows ++ [row] } ∧
      (Cell.sameValue v value = true → ∀ projection, Shows t q projection →
        after.find q = .ok [shownBy projection row])

/-- **Lookups by the primary key are exact.** In a database that comes about, at most one row of a
table has a value for the primary key, however it is written: a search for the value finds one row
at most, an update or a deletion by it affects one row at most, and after an insertion a search for
the key of the new row finds the new row. -/
theorem exactLookup (arises : db.Arises) (h : q.LooksUp value) (ht : db.table q.table = .ok t)
    (hk : t.primaryKey = some key) : db.ExactLookup t key value q := by
  have sound : t.Sound := arises.soundTables.table ht
  have single : (t.lookup key value).length ≤ 1 := Table.length_lookup_le_one sound hk
  have hselector := selector_of_looksUp h hk
  constructor
  case find_le_one =>
    intro rows hfind
    obtain ⟨projection, -, rfl⟩ := (find_lookup_iff h ht hk single).1 hfind
    rwa [List.length_map]
  case find_succeeds =>
    exact fun projection shows => ⟨_, (find_lookup_iff h ht hk single).2 ⟨projection, shows, rfl⟩⟩
  case update_le_one =>
    intro n after hupdate
    obtain ⟨-, rfl, -, -⟩ := updated_of_update ht hselector hupdate
    exact single
  case delete_le_one => exact ⟨_, _, delete_eq_ok ht hselector, single⟩
  case finds_inserted =>
    intro spec after hspec hinsert
    simp only [insert, hspec, ht, ok_bind, bind_eq_ok_iff, pure_eq_ok_iff] at hinsert
    obtain ⟨t', hinsert, rfl⟩ := hinsert
    have sound' := Table.insert_sound sound hinsert
    obtain ⟨row, hrow, hcheck, rfl⟩ := Table.exists_newRow_of_insert hinsert
    obtain ⟨v, hv⟩ := Option.isSome_iff_exists.1 (Table.apart_of_checkKey hcheck hk).1
    have htable := table_setTable db q.table { t with rows := t.rows ++ [row] }
    refine ⟨row, v, hrow, hv, htable, fun hsame projection shows => ?_⟩
    -- the table afterwards is sound as well, so its last row is the only one that is looked up
    have hlookup := Table.lookup_of_insert sound' hk hv hsame
    refine (find_lookup_iff h htable hk (Nat.le_of_eq (congrArg List.length hlookup))).2
      ⟨projection, ⟨shows.order, shows.labels⟩, ?_⟩
    rw [hlookup, List.map_singleton]

end

/-- The item `02` is inserted into the shop, and looking `2.0` up shows its label. -/
theorem exactLookup_shop :
    let spec : InsertSpec := { table := "item", columns := none, values := ["02", "desk"] }
    let q : QuerySpec :=
      { table := "item", columns := some ["item.label"], condition := some (.keyIs "2.0"),
        orderBy := some "label" }
    shop.Arises ∧ q.LooksUp "2.0" ∧ shop.table "item" = .ok itemTable ∧
      shop.ExactLookup itemTable "id" "2.0" q ∧
      ∃ after, shop.insert spec = .ok after ∧
        after.find q = .ok [Keyed.ofList [("item.label", some "desk")]] := by
  intro spec q
  have arises : shop.Arises := reachable_shop.arises
  have h : q.LooksUp "2.0" := ⟨rfl, rfl, rfl, rfl⟩
  have ht : shop.table "item" = .ok itemTable := by decide +kernel
  have lookups : shop.ExactLookup itemTable "id" "2.0" q := exactLookup arises h ht rfl
  let desk : Row := Keyed.ofList [("id", some "02"), ("label", some "desk")]
  have hinsert : shop.insert spec =
      .ok (shop.setTable "item" { itemTable with rows := itemTable.rows ++ [desk] }) := by
    decide +kernel
  obtain ⟨row, v, hrow, hv, -, hfind⟩ := lookups.finds_inserted spec _ rfl hinsert
  have hdesk : itemTable.newRow spec = .ok desk := by decide +kernel
  obtain rfl := Except.ok.inj (hdesk.symm.trans hrow)
  have hkey : desk.value? "id" = some "02" := by decide +kernel
  obtain rfl := Option.some.inj (hkey.symm.trans hv)
  have shows : Shows itemTable q (some [("item.label", "label")]) :=
    ⟨⟨some "label", by decide +kernel⟩, by decide +kernel⟩
  exact ⟨arises, h, ht, lookups, _, hinsert, hfind (by decide +kernel) _ shows⟩

end Database

end Tabular
