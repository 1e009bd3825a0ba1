import Tabular.Proofs.Json.Decode
import Tabular.Proofs.Json.Readable
import Tabular.Proofs.Timestamp.RoundTrip
import Tabular.Wire.Outcome

/-!
Reading outcomes back.

An outcome is `Representable` when its counts fit in 64 bits and its times are valid ones. Main
statements: a representable outcome is read back from the JSON that is written for it
(`Outcome.ofJson?_toJson`), so none of the shapes that are tried before its own fits; and whatever
is read as an outcome is representable (`Outcome.representable_of_ofJson?`).
-/

namespace Tabular

/-! ### Rows -/

namespace Row

theorem ofJson?_toJson (row : Row) : Row.ofJson? row.toJson = some row :=
  Json.keyed?_object fun e _ => Json.nullableString?_ofOption e.2

theorem isWhole_toJson (row : Row) : row.toJson.isWhole = true :=
  Json.membersWhole_map fun e _ => Json.isWhole_ofOption e.2

theorem isReadable_toJson (row : Row) : row.toJson.isReadable = true :=
  Json.membersReadable_map fun e _ => Json.isReadable_ofOption e.2

theorem depth_toJson_le (row : Row) : row.toJson.depth ≤ 1 :=
  Nat.succ_le_succ (Json.depthMembers_map_le fun e _ => Nat.le_of_eq (Json.depth_ofOption e.2))

end Row

namespace Json

variable {α : Type}

theorem count?_ofNat {n : Nat} (h : n < 18446744073709551616) : count? (ofNat n) = some n := by
  have hrange : 0 ≤ (n : Int) ∧ (n : Int) < 18446744073709551616 := by omega
  unfold count? ofNat
  dsimp only
  rw [if_pos hrange, Int.toNat_natCast]

/-- What is read as a count fits in 64 bits. -/
theorem count?_lt {v : Json} {n : Nat} (h : count? v = some n) : n < 18446744073709551616 := by
  unfold count? at h
  split at h
  · split at h
    · next hrange =>
      obtain rfl := Option.some.inj h
      omega
    · exact nomatch h
  · exact nomatch h

-- In parentheses: with the equation as one by evaluation, `simp` would leave it to the kernel to
-- evaluate the readers, and that of a count compares with too large a number.
theorem required?_some (decode : Json → Option α) (v : Json) :
    required? decode (some v) = decode v := (rfl)

theorem required?_eq_some_iff {decode : Json → Option α} {field : Option Json} {a : α} :
    required? decode field = some a ↔ ∃ v, field = some v ∧ decode v = some a :=
  Option.bind_eq_some_iff

/-- What is read as an item of a list is read off a value. -/
theorem exists_of_mem_list? {item : Json → Option α} {v : Json} {l : List α}
    (h : list? item v = some l) : ∀ a ∈ l, ∃ w, item w = some a := by
  unfold list? at h
  split at h
  · next items =>
    induction items generalizing l with
    | nil =>
      obtain rfl : [] = l := Option.some.inj h
      exact fun a ha => absurd ha List.not_mem_nil
    | cons w items ih =>
      simp only [List.mapM_cons, Option.bind_eq_bind, Option.bind_eq_some_iff] at h
      obtain ⟨a, ha, as, has, hl⟩ := h
      obtain rfl := Option.some.inj hl
      exact List.forall_mem_cons.2 ⟨⟨w, ha⟩, ih has⟩
  · exact nomatch h

end Json

/-! ### Descriptions -/

namespace Timestamp

variable {t : Timestamp}

theorem ofJson?_text (valid : t.isValid = true) : ofJson? (.string t.text) = some t := by
  unfold ofJson? Json.string?
  rw [Option.bind_eq_bind, Option.bind_some, ofText?_text valid]

theorem isValid_of_ofJson? {v : Json} (h : ofJson? v = some t) : t.isValid = true := by
  obtain ⟨text, -, htext⟩ := Option.bind_eq_some_iff.1 h
  exact isValid_of_ofText? htext

end Timestamp

namespace TableDescription

variable {d : TableDescription}

/-- The number of rows fits in 64 bits. -/
def Representable (d : TableDescription) : Prop := d.rows < 18446744073709551616

theorem fields?_toJson (d : TableDescription) :
    Json.fields? ["name", "primary_key", "columns", "rows"] d.toJson =
      some [some (.string d.name), some (.ofOption d.primaryKey), some (.ofStrings d.columns),
        some (.ofNat d.rows)] := by
  simp [toJson, Json.fields?, Json.onlyMember?]

theorem ofJson?_toJson (h : d.Representable) : ofJson? d.toJson = some d := by
  have hcount : Json.count? (.ofNat d.rows) = some d.rows := Json.count?_ofNat h
  unfold ofJson?
  rw [fields?_toJson]
  simp only [Json.required?_some, Json.string?, Json.optionalString?, Json.defaulted?,
    Json.nullableString?_ofOption, Json.list?_ofStrings, hcount]
  rfl

theorem representable_of_ofJson? {v : Json} (h : ofJson? v = some d) : d.Representable := by
  unfold ofJson? at h
  split at h
  · simp only [Option.bind_eq_bind, Option.bind_eq_some_iff] at h
    obtain ⟨name, -, primaryKey, -, columns, -, rows, hrows, hd⟩ := h
    obtain rfl := Option.some.inj hd
    obtain ⟨w, -, hw⟩ := Json.required?_eq_some_iff.1 hrows
    exact Json.count?_lt hw
  · exact nomatch h

theorem isWhole_toJson (d : TableDescription) : d.toJson.isWhole = true := by
  simp [toJson, Json.isWhole, Json.membersWhole, Json.isWhole_ofOption, Json.isWhole_ofStrings,
    Json.ofNat]

theorem isReadable_toJson (h : d.Representable) : d.toJson.isReadable = true := by
  simp [toJson, Json.isReadable, Json.membersReadable, Json.isReadable_ofOption,
    Json.isReadable_ofStrings, Json.isReadable_ofNat h]

theorem depth_toJson_le (d : TableDescription) : d.toJson.depth ≤ 2 := by
  have hcolumns := Json.depth_ofStrings_le d.columns
  simp only [toJson, Json.depth, Json.depthMembers, Json.depth_ofOption, Json.ofNat]
  omega

end TableDescription

namespace DatabaseDescription

variable {d : DatabaseDescription}

/-- The time of creation is a valid one, and the descriptions of the tables are representable. -/
def Representable (d : DatabaseDescription) : Prop :=
  d.createdAt.isValid = true ∧ ∀ t ∈ d.tables, t.Representable

theorem fields?_toJson (d : DatabaseDescription) :
    Json.fields? ["database", "created_at", "tables"] d.toJson =
      some [some (.string d.database), some (.string d.createdAt.text),
        some (.array (d.tables.map TableDescription.toJson))] := by
  simp [toJson, Json.fields?, Json.onlyMember?]

theorem ofJson?_toJson (h : d.Representable) : ofJson? d.toJson = some d := by
  obtain ⟨valid, htables⟩ := h
  have hcreated := Timestamp.ofJson?_text valid
  have hlist : Json.list? TableDescription.ofJson?
      (.array (d.tables.map TableDescription.toJson)) = some d.tables :=
    Json.list?_array fun t ht => TableDescription.ofJson?_toJson (htables t ht)
  unfold ofJson?
  rw [fields?_toJson]
  simp only [Json.required?_some, Json.string?, hcreated, hlist]
  rfl

theorem representable_of_ofJson? {v : Json} (h : ofJson? v = some d) : d.Representable := by
  unfold ofJson? at h
  split at h
  · simp only [Option.bind_eq_bind, Option.bind_eq_some_iff] at h
    obtain ⟨database, -, createdAt, hcreated, tables, htables, hd⟩ := h
    obtain rfl := Option.some.inj hd
    obtain ⟨w, -, hw⟩ := Json.required?_eq_some_iff.1 hcreated
    obtain ⟨w', -, hw'⟩ := Json.required?_eq_some_iff.1 htables
    refine ⟨Timestamp.isValid_of_ofJson? hw, fun t ht => ?_⟩
    obtain ⟨u, hu⟩ := Json.exists_of_mem_list? hw' t ht
    exact TableDescription.representable_of_ofJson? hu
  · exact nomatch h

theorem isWhole_toJson (d : DatabaseDescription) : d.toJson.isWhole = true := by
  have htables : Json.itemsWhole (d.tables.map TableDescription.toJson) = true :=
    Json.itemsWhole_map fun t _ => t.isWhole_toJson
  simp [toJson, Json.isWhole, Json.membersWhole, htables]

theorem isReadable_toJson (h : d.Representable) : d.toJson.isReadable = true := by
  have htables : Json.itemsReadable (d.tables.map TableDescription.toJson) = true :=
    Json.itemsReadable_map fun t ht => TableDescription.isReadable_toJson (h.2 t ht)
  simp [toJson, Json.isReadable, Json.membersReadable, htables]

theorem depth_toJson_le (d : DatabaseDescription) : d.toJson.depth ≤ 4 := by
  have htables : Json.depthItems (d.tables.map TableDescription.toJson) ≤ 2 :=
    Json.depthItems_map_le fun t _ => t.depth_toJson_le
  simp only [toJson, Json.depth, Json.depthMembers]
  omega

end DatabaseDescription

/-! ### Outcomes -/

namespace Outcome

variable {o : Outcome}

/-- The counts of an outcome fit in 64 bits, and its time is a valid one. -/
def Representable : Outcome → Prop
  | .message _ => True
  | .rows _ => True
  | .affected n => n < 18446744073709551616
  | .table d => d.Representable
  | .database d => d.Representable

theorem isWhole_toJson (o : Outcome) : o.toJson.isWhole = true := by
  cases o with
  | message s => rfl
  | rows l => exact Json.itemsWhole_map fun row _ => row.isWhole_toJson
  | affected n => rfl
  | table d => exact d.isWhole_toJson
  | database d => exact d.isWhole_toJson

theorem isReadable_toJson (h : o.Representable) : o.toJson.isReadable = true := by
  cases o with
  | message s => rfl
  | rows l => exact Json.itemsReadable_map fun row _ => row.isReadable_toJson
  | affected n => simp [toJson, Json.isReadable, Json.membersReadable, Json.isReadable_ofNat h]
  | table d => exact TableDescription.isReadable_toJson h
  | database d => exact DatabaseDescription.isReadable_toJson h

theorem depth_toJson_le (o : Outcome) : o.toJson.depth ≤ maxDepth := by
  have hdepth : o.toJson.depth ≤ 4 := by
    cases o with
    | message s => exact Nat.zero_le 4
    | rows l =>
      have hrows : Json.depthItems (l.map Row.toJson) ≤ 1 :=
        Json.depthItems_map_le fun row _ => row.depth_toJson_le
      exact Nat.succ_le_succ (Nat.le_trans hrows (by decide))
    | affected n => exact Nat.succ_le_succ (Nat.zero_le 3)
    | table d => exact Nat.le_trans d.depth_toJson_le (by decide)
    | database d => exact d.depth_toJson_le
  exact Nat.le_trans hdepth (by decide)

/-- An array is rows, or the fields of a description one after another. -/
theorem ofJson?_array {items : List Json} (depth : (Json.array items).depth ≤ maxDepth)
    (readable : (Json.array items).isReadable = true) :
    ofJson? (.array items) = (((Json.list? Row.ofJson? (.array items)).map .rows)
      <|> ((TableDescription.ofJson? (.array items)).map .table)
      <|> ((DatabaseDescription.ofJson? (.array items)).map .database)) :=
  if_pos ⟨depth, readable⟩

/-- An object is a number of rows, or a description. -/
theorem ofJson?_object {ms : List (String × Json)} (depth : (Json.object ms).depth ≤ maxDepth)
    (readable : (Json.object ms).isReadable = true) :
    ofJson? (.object ms) = (((affectedOfJson? (.object ms)).map .affected)
      <|> ((TableDescription.ofJson? (.object ms)).map .table)
      <|> ((DatabaseDescription.ofJson? (.object ms)).map .database)) :=
  if_pos ⟨depth, readable⟩

/-- A description of a table has no member that counts rows affected. -/
theorem affectedOfJson?_table (d : TableDescription) : affectedOfJson? d.toJson = none := by
  simp [affectedOfJson?, TableDescription.toJson, Json.onlyMember?, Json.required?]

/-- Nor has one of a database. -/
theorem affectedOfJson?_database (d : DatabaseDescription) : affectedOfJson? d.toJson = none := by
  simp [affectedOfJson?, DatabaseDescription.toJson, Json.onlyMember?, Json.required?]

/-- A description of a database has no name, which one of a table has. -/
theorem tableOfJson?_database (d : DatabaseDescription) :
    TableDescription.ofJson? d.toJson = none := by
  simp [TableDescription.ofJson?, DatabaseDescription.toJson, Json.fields?, Json.onlyMember?,
    Json.required?]

theorem affectedOfJson?_ofNat {n : Nat} (h : n < 18446744073709551616) :
    affectedOfJson? (.object [("affected", .ofNat n)]) = some n := by
  have hmember : Json.onlyMember? [("affected", .ofNat n)] "affected" =
      some (some (.ofNat n)) := by
    simp [Json.onlyMember?]
  unfold affectedOfJson?
  dsimp only
  rw [hmember, Option.bind_some, Json.required?_some, Json.count?_ofNat h]

theorem affectedOfJson?_lt {v : Json} {n : Nat} (h : affectedOfJson? v = some n) :
    n < 18446744073709551616 := by
  unfold affectedOfJson? at h
  split at h
  · obtain ⟨field, -, hfield⟩ := Option.bind_eq_some_iff.1 h
    obtain ⟨w, -, hw⟩ := Json.required?_eq_some_iff.1 hfield
    exact Json.count?_lt hw
  · exact nomatch h

/-- **A representable outcome is read back**: no shape that is tried before its own fits it. -/
theorem ofJson?_toJson (h : o.Representable) : ofJson? o.toJson = some o := by
  have hdepth := o.depth_toJson_le
  have hreadable := isReadable_toJson h
  cases o with
  | message s => exact if_pos ⟨hdepth, hreadable⟩
  | rows l =>
    have hrows : Json.list? Row.ofJson? (.array (l.map Row.toJson)) = some l :=
      Json.list?_array fun row _ => row.ofJson?_toJson
    rw [toJson, ofJson?_array hdepth hreadable, hrows]
    rfl
  | affected n =>
    rw [toJson, ofJson?_object hdepth hreadable, affectedOfJson?_ofNat h]
    rfl
  | table d =>
    have htable := TableDescription.ofJson?_toJson h
    have haffected := affectedOfJson?_table d
    unfold toJson TableDescription.toJson at *
    rw [ofJson?_object hdepth hreadable, haffected, htable]
    rfl
  | database d =>
    have hdatabase := DatabaseDescription.ofJson?_toJson h
    have htable := tableOfJson?_database d
    have haffected := affectedOfJson?_database d
    unfold toJson DatabaseDescription.toJson at *
    rw [ofJson?_object hdepth hreadable, haffected, htable, hdatabase]
    rfl

/-- **What is read as an outcome is representable.** -/
theorem representable_of_ofJson? {v : Json} (h : ofJson? v = some o) : o.Representable := by
  unfold ofJson? at h
  split at h
  · simp only [Option.orElse_eq_orElse, Option.orElse_eq_or, Option.or_eq_some_iff,
      Option.map_eq_some_iff] at h
    obtain ⟨_, -, rfl⟩ | ⟨-, h⟩ := h
    · trivial
    obtain ⟨_, -, rfl⟩ | ⟨-, h⟩ := h
    · trivial
    obtain ⟨n, hn, rfl⟩ | ⟨-, ⟨d, hd, rfl⟩ | ⟨-, d, hd, rfl⟩⟩ := h
    · exact affectedOfJson?_lt hn
    · exact TableDescription.representable_of_ofJson? hd
    · exact DatabaseDescription.representable_of_ofJson? hd
  · exact nomatch h

end Outcome

end Tabular
