import Tabular.Proofs.Table.Integrity

/-!
Rows put together.

A joined row is the union of a left row and a right row under qualified names, or of one of them and
a row of nulls. These are the cells of a union (`get?_union_of_mem`, `get?_union_of_not_mem`), of a
qualified row (`get?_qualify`) and of nulls (`value?_nulls`), and the columns that each of them has.
-/

namespace Tabular

namespace Row

/-! ### Unions -/

theorem HasColumns.union {left right : Row} {leftColumns rightColumns : List String}
    (hl : left.HasColumns leftColumns) (hr : right.HasColumns rightColumns) :
    HasColumns (Keyed.union left right) (leftColumns ++ rightColumns) := by
  intro c
  rw [Keyed.mem_keys_union, hl c, hr c, List.mem_append]

theorem get?_eq_none_of_not_mem {row : Row} {columns : List String} (h : row.HasColumns columns)
    {c : String} (hc : c ∉ columns) : Keyed.get? row c = none := by
  rw [← h c, Keyed.mem_keys_iff] at hc
  exact Option.not_isSome_iff_eq_none.1 hc

/-- In a union the columns of the second row come first. -/
theorem get?_union_of_mem {left right : Row} {columns : List String}
    (hr : right.HasColumns columns) {c : String} (hc : c ∈ columns) :
    (Keyed.union left right).get? c = right.get? c := by
  rw [← hr c, Keyed.mem_keys_iff] at hc
  obtain ⟨cell, hcell⟩ := Option.isSome_iff_exists.1 hc
  rw [Keyed.get?_union, hcell]
  rfl

theorem get?_union_of_not_mem {left right : Row} {columns : List String}
    (hr : right.HasColumns columns) {c : String} (hc : c ∉ columns) :
    (Keyed.union left right).get? c = left.get? c := by
  rw [Keyed.get?_union, get?_eq_none_of_not_mem hr hc]
  rfl

theorem value?_union_of_mem {left right : Row} {columns : List String}
    (hr : right.HasColumns columns) {c : String} (hc : c ∈ columns) :
    Row.value? (Keyed.union left right) c = right.value? c := by
  rw [value?, value?, get?_union_of_mem hr hc]

theorem value?_union_of_not_mem {left right : Row} {columns : List String}
    (hr : right.HasColumns columns) {c : String} (hc : c ∉ columns) :
    Row.value? (Keyed.union left right) c = left.value? c := by
  rw [value?, value?, get?_union_of_not_mem hr hc]

/-- A row is determined by its columns and their values. -/
theorem ext_value? {row row' : Row} {columns : List String} (h : row.HasColumns columns)
    (h' : row'.HasColumns columns) (hvalues : ∀ c ∈ columns, row.value? c = row'.value? c) :
    row = row' := by
  refine Keyed.ext_get? fun c => ?_
  by_cases hc : c ∈ columns
  · have hv := hvalues c hc
    rw [← h c, Keyed.mem_keys_iff] at hc
    have hc' := Keyed.mem_keys_iff.1 ((h' c).2 ((h c).1 (Keyed.mem_keys_iff.2 hc)))
    obtain ⟨cell, hcell⟩ := Option.isSome_iff_exists.1 hc
    obtain ⟨cell', hcell'⟩ := Option.isSome_iff_exists.1 hc'
    rw [value?, value?, hcell, hcell'] at hv
    rw [hcell, hcell']
    exact congrArg some hv
  · rw [get?_eq_none_of_not_mem h hc, get?_eq_none_of_not_mem h' hc]

/-! ### Nulls -/

theorem value?_nulls (columns : List String) (c : String) : (nulls columns).value? c = none := by
  suffices h : ∀ row : Row, row.value? c = none →
      Row.value? ((columns.map fun c => ((c, none) : String × Option String)).foldl
        (fun m e => m.insert e.1 e.2) row) c = none from h _ rfl
  induction columns with
  | nil => exact fun _ h => h
  | cons d columns ih =>
    intro row h
    apply ih
    rw [value?_insert]
    split
    · rfl
    · exact h

theorem get?_nulls_of_mem {columns : List String} {c : String} (hc : c ∈ columns) :
    (nulls columns).get? c = some none := by
  have hkey := (HasColumns.nulls columns c).2 hc
  have hvalue := value?_nulls columns c
  obtain ⟨cell, hcell⟩ := Option.isSome_iff_exists.1 (Keyed.mem_keys_iff.1 hkey)
  rw [value?, hcell] at hvalue
  rw [hcell]
  exact congrArg some hvalue

/-! ### Qualified names -/

theorem qualifiedName_injective (table : String) :
    Function.Injective (qualifiedName table) := by
  intro c d h
  have hchars : c.toList = d.toList := by
    simpa [qualifiedName] using congrArg String.toList h
  exact String.ext hchars

theorem find_map_qualifiedName (table c : String) (es : List (String × Option String)) :
    Keyed.find (qualifiedName table c) (es.map fun e => (qualifiedName table e.1, e.2)) =
      Keyed.find c es := by
  induction es with
  | nil => rfl
  | cons e es ih =>
    simp only [List.map_cons, Keyed.find, ih, (qualifiedName_injective table).eq_iff]

/-- The cells of a qualified row. -/
theorem get?_qualify (table : String) (row : Row) (c : String) :
    (qualify table row).get? (qualifiedName table c) = row.get? c := by
  have nodup : ((row.entries.map fun e => (qualifiedName table e.1, e.2)).map (·.1)).Nodup := by
    have h := row.nodup_names.map (qualifiedName_injective table)
    rw [List.map_map] at h ⊢
    exact h
  rw [qualify, Keyed.get?_ofList nodup, find_map_qualifiedName]
  rfl

theorem value?_qualify (table : String) (row : Row) (c : String) :
    (qualify table row).value? (qualifiedName table c) = row.value? c := by
  rw [value?, value?, get?_qualify]

theorem HasColumns.qualify {row : Row} {columns : List String} (h : row.HasColumns columns)
    (table : String) :
    (Row.qualify table row).HasColumns (columns.map (qualifiedName table)) := by
  intro c
  have hkeys : ∀ d, d ∈ row.entries.map (·.1) ↔ d ∈ columns := h
  rw [Row.qualify, Keyed.mem_keys_ofList, List.map_map, List.mem_map]
  constructor
  · rintro ⟨e, he, rfl⟩
    exact List.mem_map_of_mem ((hkeys _).1 (List.mem_map_of_mem he))
  · intro hc
    obtain ⟨d, hd, rfl⟩ := List.mem_map.1 hc
    obtain ⟨e, he, rfl⟩ := List.mem_map.1 ((hkeys d).2 hd)
    exact ⟨e, he, rfl⟩

end Row

end Tabular
