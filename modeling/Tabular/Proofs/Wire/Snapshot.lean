import Tabular.Proofs.Wire.Outcome
import Tabular.Wire.Snapshot

/-!
Reading a snapshot back.

Main statement: a snapshot holds the database of which it was taken (`ofSnapshot?_snapshot`),
whatever its tables are, as long as its time of creation is a valid one.
-/

namespace Tabular

namespace Table

theorem ofJson?_toJson (t : Table) : ofJson? t.toJson = some t := by
  have hfields : Json.fields? ["primary_key", "columns", "rows"] t.toJson =
      some [some (.ofOption t.primaryKey), some (.ofStrings t.columns),
        some (.array (t.rows.map Row.toJson))] := by
    simp [toJson, Json.fields?, Json.onlyMember?]
  have hrows : Json.list? Row.ofJson? (.array (t.rows.map Row.toJson)) = some t.rows :=
    Json.list?_array fun row _ => Row.ofJson?_toJson row
  unfold ofJson?
  rw [hfields]
  simp [Json.optionalString?, Json.defaulted?, Json.required?, Json.nullableString?_ofOption,
    Json.list?_ofStrings, hrows]

theorem isWhole_toJson (t : Table) : t.toJson.isWhole = true := by
  have hrows : Json.itemsWhole (t.rows.map Row.toJson) = true :=
    Json.itemsWhole_map fun row _ => row.isWhole_toJson
  simp [toJson, Json.isWhole, Json.membersWhole, Json.isWhole_ofOption, Json.isWhole_ofStrings,
    hrows]

end Table

namespace Database

/-- A database read back: its tables, and the time of creation as far as that can be read. -/
theorem ofJson?_toJson_eq (db : Database) :
    ofJson? db.toJson =
      (Timestamp.ofJson? (.string db.createdAt.text)).map fun t => { db with createdAt := t } := by
  have hfields : Json.fields? ["created_at", "tables"] db.toJson =
      some [some (.string db.createdAt.text),
        some (.object (db.tables.entries.map fun e => (e.1, e.2.toJson)))] := by
    simp [toJson, Json.fields?, Json.onlyMember?]
  have htables : Json.keyed? Table.ofJson?
      (.object (db.tables.entries.map fun e => (e.1, e.2.toJson))) = some db.tables :=
    Json.keyed?_object fun e _ => e.2.ofJson?_toJson
  unfold ofJson?
  rw [hfields]
  cases h : Timestamp.ofJson? (.string db.createdAt.text) <;> simp [Json.required?, h, htables]

theorem ofJson?_toJson {db : Database} (valid : db.createdAt.isValid = true) :
    ofJson? db.toJson = some db := by
  rw [ofJson?_toJson_eq, Timestamp.ofJson?_text valid]
  rfl

theorem isWhole_toJson (db : Database) : db.toJson.isWhole = true := by
  have htables : Json.membersWhole (db.tables.entries.map fun e => (e.1, e.2.toJson)) = true :=
    Json.membersWhole_map fun e _ => e.2.isWhole_toJson
  simp [toJson, Json.isWhole, Json.membersWhole, htables]

/-- **A snapshot holds the database of which it was taken.** -/
theorem ofSnapshot?_snapshot {db : Database} (valid : db.createdAt.isValid = true) :
    ofSnapshot? db.snapshot = some db := by
  unfold ofSnapshot? snapshot
  rw [Json.parse_pretty db.isWhole_toJson, Option.bind_some, ofJson?_toJson valid]

/-- Whatever a snapshot is read back as, its tables are those of the database of which it was taken.
-/
theorem tables_of_snapshot {db db' : Database} (h : ofSnapshot? db.snapshot = some db') :
    db'.tables = db.tables := by
  unfold ofSnapshot? snapshot at h
  rw [Json.parse_pretty db.isWhole_toJson, Option.bind_some, ofJson?_toJson_eq] at h
  obtain ⟨t, -, rfl⟩ := Option.map_eq_some_iff.1 h
  rfl

theorem createdAt_valid_of_ofJson? {v : Json} {db : Database} (h : ofJson? v = some db) :
    db.createdAt.isValid = true := by
  unfold ofJson? at h
  split at h
  · next createdAt tables _ =>
    simp only [Option.bind_eq_bind, Option.bind_eq_some_iff] at h
    obtain ⟨t, ht, m, -, hdb⟩ := h
    obtain rfl := Option.some.inj hdb
    obtain ⟨v', -, hv'⟩ := Option.bind_eq_some_iff.1 ht
    exact Timestamp.isValid_of_ofJson? hv'
  · exact nomatch h

/-- A database that a snapshot holds has a valid time of creation, so its own snapshot can be read
again. -/
theorem createdAt_valid_of_ofSnapshot? {text : String} {db : Database}
    (h : ofSnapshot? text = some db) : db.createdAt.isValid = true := by
  obtain ⟨v, -, hv⟩ := Option.bind_eq_some_iff.1 h
  exact createdAt_valid_of_ofJson? hv

end Database

end Tabular
