import Tabular.Proofs.Engine.Refused
import Tabular.Proofs.Session.Atomicity
import Tabular.Proofs.Session.Durability
import Tabular.Proofs.Table.Integrity

/-!
Databases that cannot be created or dropped.

`CREATE` first takes the row of a database into the catalog (`Session.enlist`) and then has the
engine create the database; `DROP` first takes the rows of the name out of the catalog
(`Session.delist`) and then has the engine forget the name and remove its snapshot. Where the second
part fails, the first one has been done and stays done. Main statements: a `DROP` that fails changes
nothing exactly where it took no row out of the catalog and the folder holds the database of that
name as it was found (`World.dropDatabase_refused`), and a `CREATE` that fails changes nothing
exactly where it could not take a row into the catalog (`World.createDatabase_refused`). Other
databases, and what the clients have selected, are spared in any case.
-/

namespace Tabular

/-! ### Rows of the catalog -/

namespace Database

variable {db db' : Database}

variable [PatternCompiler]

/-- All rows of a table. -/
theorem find_all (db : Database) (name : String) :
    db.find { table := name } = (db.table name).map (·.rows) := by
  unfold Database.find
  cases db.table name with
  | error err => rfl
  | ok t =>
    have hall : t.rows.filter (Predicate.optionHolds none) = t.rows :=
      List.filter_eq_self.2 fun _ _ => rfl
    rw [Result.ok_bind]
    simp only [bind, Except.bind, pure, Except.pure, List.foldlM, Option.mapM_none]
    change Except.ok (page none none (t.rows.filter (Predicate.optionHolds none))) = _
    rw [hall]
    rfl

/-- Deleting rows leaves the others in their order. -/
theorem find_of_delete {q : QuerySpec} {k : Nat} (hdelete : db.delete q = .ok (k, db')) :
    ∃ rows rows', db.find { table := q.table } = .ok rows ∧
      db'.find { table := q.table } = .ok rows' ∧ rows'.Sublist rows ∧
      rows'.length + k = rows.length := by
  simp only [delete, Result.bind_eq_ok_iff, Result.pure_eq_ok_iff] at hdelete
  obtain ⟨t, ht, ⟨n, t'⟩, hdeleted, hpair⟩ := hdelete
  obtain ⟨rfl, rfl⟩ := Prod.mk.inj hpair
  simp only [Table.delete, Result.bind_eq_ok_iff, Result.pure_eq_ok_iff] at hdeleted
  obtain ⟨p, -, hpair⟩ := hdeleted
  obtain ⟨rfl, rfl⟩ := Prod.mk.inj hpair
  refine ⟨t.rows, t.rows.filter fun r => !Predicate.optionHolds p r, ?_, ?_,
    List.filter_sublist, ?_⟩
  · rw [find_all, ht]
    rfl
  · rw [find_all]
    simp [table, setTable, Except.map]
  · have hlength := List.length_eq_length_filter_add (l := t.rows) (Predicate.optionHolds p)
    omega

/-- The row of a database comes last. -/
theorem find_of_insert_entry {name : String} (hinsert : db.insert (Catalog.entry name) = .ok db') :
    ∃ rows row column, Row.value? row column = some name ∧
      db.find { table := Catalog.table } = .ok rows ∧
      db'.find { table := Catalog.table } = .ok (rows ++ [row]) := by
  simp only [insert, Result.bind_eq_ok_iff, Result.pure_eq_ok_iff] at hinsert
  obtain ⟨t, ht, t', hinserted, rfl⟩ := hinsert
  simp only [Table.insert, Catalog.entry, Option.getD_some, List.length_singleton, ne_eq,
    not_true_eq_false, if_false, List.zip_cons_cons, List.zip_nil_left, Table.assignAll,
    Result.bind_eq_ok_iff, Result.pure_eq_ok_iff] at hinserted
  obtain ⟨row, ⟨column, -, hrow⟩, -, -, rfl⟩ := hinserted
  obtain rfl := Except.ok.inj hrow
  refine ⟨t.rows, Keyed.insert (Row.nulls t.allColumns) column (some name), column, ?_, ?_, ?_⟩
  · rw [Row.value?_insert, if_pos rfl]
  · rw [find_all, show db.table Catalog.table = .ok t from ht]
    rfl
  · rw [find_all]
    simp [table, setTable, Except.map, Catalog.entry]

end Database

namespace Catalog

theorem Alone.refl (e : Engine) : Alone e e :=
  ⟨.refl e, .refl .data e, fun name _ => .refl .data name e⟩

theorem Alone.trans {e₁ e₂ e₃ : Engine} (h : Alone e₁ e₂) (h' : Alone e₂ e₃) : Alone e₁ e₃ where
  keeps := h.keeps.trans h'.keeps
  spares := h.spares.trans h'.spares
  leaves := fun name plain => (h.leaves name plain).trans (h'.leaves name plain)

end Catalog

/-! ### Changes of the catalog -/

namespace Session

variable {e : Engine} {p p' : Interpreter × Session} {name : String}
variable {f : Database → Except StorageError (Outcome × Database)} {c : Handle} {rows : List Row}

/-- Edits the catalog. -/
def amend (f : Database → Except StorageError (Outcome × Database)) : SessionM Outcome := do
  let c ← catalog
  storage (Engine.edit c f)

/-- The first part of `CREATE`: a row of the database is taken into the catalog. -/
def enlist (name : String) : SessionM Outcome :=
  amend fun db => do return (.affected 1, ← db.insert (Catalog.entry name))

/-- The first part of `DROP`: the rows whose name is the same value are taken out of the catalog.
The outcome tells their number. -/
def delist [PatternCompiler] (name : String) : SessionM Outcome :=
  amend fun db => do
    let (n, db) ← db.delete (Catalog.having .eq name)
    return (.affected n, db)

theorem exec_createDatabase_of_enlist (name : String) (p : Interpreter × Session) :
    exec (createDatabase name) p = match exec (enlist name) p with
      | (.error err, p₁) => (.error err, p₁)
      | (.ok _, p₁) => exec (storage (Engine.createDatabase .data name)) p₁ := by
  rw [exec_createDatabase]
  unfold enlist amend
  rw [exec_bind]
  rcases exec catalog p with ⟨_ | c, p₁⟩ <;> rfl

theorem exec_dropDatabase_of_delist [PatternCompiler] (name : String) (p : Interpreter × Session) :
    exec (dropDatabase name) p = match exec (delist name) p with
      | (.error err, p₁) => (.error err, p₁)
      | (.ok _, p₁) =>
        match exec (storage (Engine.dropDatabase .data name)) p₁ with
        | (.error err, p₂) => (.error err, p₂)
        | (.ok outcome, p₂) =>
          (.ok outcome,
            if p₂.2.activeName = some name then (p₂.1, { active := none }) else p₂) := by
  rw [exec_dropDatabase]
  unfold delist amend
  rw [exec_bind]
  rcases exec catalog p with ⟨_ | c, p₁⟩ <;> rfl

/-- What a session sees after an operation on the catalog alone. -/
structure CatalogOnly (p p' : Interpreter × Session) : Prop where
  session : p'.2 = p.2
  alone : Catalog.Alone p.1.engine p'.1.engine
  tables : ∀ h, p.1.engine.Valid h → h.scope = .data →
    p'.1.engine.databaseOf h = p.1.engine.databaseOf h

theorem CatalogOnly.trans {p₁ p₂ p₃ : Interpreter × Session} (h : CatalogOnly p₁ p₂)
    (h' : CatalogOnly p₂ p₃) : CatalogOnly p₁ p₃ where
  session := h'.session.trans h.session
  alone := h.alone.trans h'.alone
  tables := fun handle valid hscope =>
    (h'.tables handle (valid.evolves h.alone.keeps.evolves) hscope).trans
      (h.tables handle valid hscope)

theorem catalogOnly_catalog (sees : Sees e p) : CatalogOnly p (exec catalog p).2 where
  session := (unchanged_catalog p).selection
  alone := by
    have halone := Catalog.alone_open sees.interpreter.ordered
    rw [exec_catalog]
    cases p.1.catalog with
    | some c => exact .refl p.1.engine
    | none =>
      dsimp only
      rcases hopen : exec Catalog.open p.1.engine with ⟨err | c, e'⟩ <;> rw [hopen] at halone <;>
        exact halone
  tables := fun h valid _ => (unchanged_catalog p).tables h.cell valid.cell_lt

/-- A catalog that has been obtained is open. -/
theorem catalog_of_exec (h : exec catalog p = (.ok c, p')) : p'.1.catalog = some c := by
  rw [exec_catalog] at h
  cases hc : p.1.catalog with
  | some c' =>
    simp only [hc] at h
    obtain ⟨hres, rfl⟩ := Prod.mk.inj h
    rw [hc, Except.ok.inj hres]
  | none =>
    simp only [hc] at h
    rcases hopen : exec Catalog.open p.1.engine with ⟨err | c', e'⟩ <;> rw [hopen] at h
    · simp at h
    · obtain ⟨hres, rfl⟩ := Prod.mk.inj h
      exact congrArg some (Except.ok.inj hres)

theorem exec_amend (f : Database → Except StorageError (Outcome × Database))
    (p : Interpreter × Session) :
    exec (amend f) p = match exec catalog p with
      | (.error err, p₁) => (.error err, p₁)
      | (.ok c, p₁) =>
        match f (p₁.1.engine.databaseOf c) with
        | .error err => (.error (.storage err), p₁)
        | .ok (outcome, db) =>
          (.ok outcome, ({ p₁.1 with engine := p₁.1.engine.setState c.cell db }, p₁.2)) := by
  unfold amend
  rw [exec_bind]
  rcases exec catalog p with ⟨err | c, p₁⟩
  · rfl
  · dsimp only
    rw [exec_storage, Engine.exec_edit]
    rcases f (p₁.1.engine.databaseOf c) with err | ⟨outcome, db⟩ <;> rfl

/-- To edit the catalog is an operation on the catalog alone, whether it is refused or not. -/
theorem catalogOnly_amend (sees : Sees e p) {r : Except Error Outcome}
    (hamend : exec (amend f) p = (r, p')) : CatalogOnly p p' := by
  have hcatalog := catalogOnly_catalog sees
  have hsees := sees_catalog p sees
  rw [exec_amend] at hamend
  rcases hexec : exec catalog p with ⟨err | c, p₁⟩ <;> rw [hexec] at hamend hcatalog hsees
  · exact (Prod.mk.inj hamend).2 ▸ hcatalog
  · obtain ⟨sees₁, hc⟩ := hsees
    have handle := sees₁.interpreter.catalog c hc
    have halone := Catalog.alone_edit sees₁.interpreter.ordered handle f
    rw [Engine.exec_edit] at halone
    dsimp only at hamend
    rcases hf : f (p₁.1.engine.databaseOf c) with err | ⟨outcome, db⟩ <;>
      rw [hf] at hamend halone <;> obtain ⟨-, rfl⟩ := Prod.mk.inj hamend
    · exact hcatalog
    · refine hcatalog.trans ⟨rfl, halone, fun h valid hscope => ?_⟩
      refine (Engine.state_setState p₁.1.engine c.cell db h.cell).trans (if_neg ?_)
      rintro ⟨hcell, -⟩
      have hown := valid.own .system Catalog.database (hcell ▸ handle.live)
      rw [hscope] at hown
      exact nomatch hown.1

theorem sees_amend (f : Database → Except StorageError (Outcome × Database)) :
    Ensures (Sees e) (amend f) (fun _ => Sees e) (fun _ => Sees e) := by
  unfold amend
  exact sees_catalog.bind fun c => (sees_storage fun p _ =>
    Engine.keeps_edit c f p.1.engine).mono_pre fun _ h => h.1

/-- An operation of the engine that is refused. -/
theorem exists_of_storage_error {α : Type} {act : EngineM α} {err : Error}
    (h : exec (storage act) p = (.error err, p')) :
    ∃ err' e', exec act p.1.engine = (.error err', e') ∧
      p' = ({ p.1 with engine := e' }, p.2) := by
  rw [exec_storage] at h
  rcases hact : exec act p.1.engine with ⟨err' | a, e'⟩ <;> rw [hact] at h
  · exact ⟨err', e', rfl, (Prod.mk.inj h).2.symm⟩
  · simp at h

variable [PatternCompiler]

/-- A `DROP` fails in its first part or in its second one. -/
theorem dropDatabase_error_cases {err : Error}
    (h : exec (dropDatabase name) p = (.error err, p')) :
    exec (delist name) p = (.error err, p') ∨
      ∃ outcome p₁ err', exec (delist name) p = (.ok outcome, p₁) ∧
        exec (Engine.dropDatabase .data name) p₁.1.engine = (.error err', p'.1.engine) ∧
        p' = ({ p₁.1 with engine := p'.1.engine }, p₁.2) := by
  rw [exec_dropDatabase_of_delist] at h
  rcases hdelist : exec (delist name) p with ⟨err₁ | outcome, p₁⟩ <;> rw [hdelist] at h
  · exact .inl h
  · dsimp only at h
    rcases hdrop : exec (storage (Engine.dropDatabase .data name)) p₁ with
      ⟨err₁ | outcome₁, p₂⟩ <;> rw [hdrop] at h
    · obtain ⟨-, rfl⟩ := Prod.mk.inj h
      obtain ⟨err', e', hact, rfl⟩ := exists_of_storage_error hdrop
      exact .inr ⟨outcome, p₁, err', rfl, hact, rfl⟩
    · simp at h

omit [PatternCompiler] in
/-- So does a `CREATE`. -/
theorem createDatabase_error_cases {err : Error}
    (h : exec (createDatabase name) p = (.error err, p')) :
    exec (enlist name) p = (.error err, p') ∨
      ∃ outcome p₁ err', exec (enlist name) p = (.ok outcome, p₁) ∧
        exec (Engine.createDatabase .data name) p₁.1.engine = (.error err', p'.1.engine) ∧
        p' = ({ p₁.1 with engine := p'.1.engine }, p₁.2) := by
  rw [exec_createDatabase_of_enlist] at h
  rcases henlist : exec (enlist name) p with ⟨err₁ | outcome, p₁⟩ <;> rw [henlist] at h
  · exact .inl h
  · obtain ⟨err', e', hact, rfl⟩ := exists_of_storage_error h
    exact .inr ⟨outcome, p₁, err', rfl, hact, rfl⟩

/-! ### What is listed -/

/-- The answer to a search. -/
def foundRows : Except StorageError (List Row) → Except Error Outcome
  | .ok rows => .ok (.rows rows)
  | .error err => .error (.storage err)

/-- `SHOW` lists the rows of the open catalog. -/
theorem answer_list_of_open (hc : p.1.catalog = some c) :
    (exec (listDatabases none) p).1 =
      foundRows ((p.1.engine.databaseOf c).find { table := Catalog.table }) := by
  have hcatalog : exec catalog p = (.ok c, p) := by rw [exec_catalog, hc]
  rw [exec_listDatabases, hcatalog]
  dsimp only
  rw [exec_storage]
  unfold Engine.find
  rw [Engine.exec_query]
  unfold listed
  dsimp only
  rcases (p.1.engine.databaseOf c).find { table := Catalog.table } with err | rows <;> rfl

/-- It lists what it lists once the catalog has been obtained. -/
theorem answer_list_of_catalog (hcatalog : exec catalog p = (.ok c, p')) :
    (exec (listDatabases none) p).1 = (exec (listDatabases none) p').1 := by
  have hagain : exec catalog p' = (.ok c, p') := by
    rw [exec_catalog, catalog_of_exec hcatalog]
  rw [exec_listDatabases, exec_listDatabases, hcatalog, hagain]

/-- What `SHOW` lists does not depend on the session. -/
theorem answer_list_congr (i : Interpreter) (s s' : Session) :
    (exec (listDatabases none) (i, s)).1 = (exec (listDatabases none) (i, s')).1 := by
  rw [exec_listDatabases, exec_listDatabases, exec_catalog, exec_catalog]
  cases i.catalog with
  | some c =>
    dsimp only
    rw [exec_storage, exec_storage]
    rcases exec (Engine.find c (listed none)) i.engine with ⟨_ | _, e'⟩ <;> rfl
  | none =>
    dsimp only
    rcases exec Catalog.open i.engine with ⟨err | c, e'⟩
    · rfl
    · dsimp only
      rw [exec_storage, exec_storage]
      rcases exec (Engine.find c (listed none)) e' with ⟨_ | _, e''⟩ <;> rfl

/-- Where the catalog refuses an edit, `SHOW` lists what it did. -/
theorem answer_list_of_amend_error {err : Error} (hamend : exec (amend f) p = (.error err, p'))
    (hrows : (exec (listDatabases none) p).1 = .ok (.rows rows)) :
    (exec (listDatabases none) p').1 = .ok (.rows rows) := by
  rw [exec_amend] at hamend
  rcases hcatalog : exec catalog p with ⟨err₁ | c, p₁⟩ <;> rw [hcatalog] at hamend
  · rw [exec_listDatabases, hcatalog] at hrows
    exact nomatch hrows
  · suffices hp : p' = p₁ from hp ▸ (answer_list_of_catalog hcatalog).symm.trans hrows
    dsimp only at hamend
    rcases hf : f (p₁.1.engine.databaseOf c) with err₁ | ⟨outcome, db⟩ <;> rw [hf] at hamend
    · exact (Prod.mk.inj hamend).2.symm
    · simp at hamend

/-- What a session sees after an edit of the catalog by which `SHOW` has come to list `rows'` and no
longer `rows`, whatever is done to the databases of the users from then on. -/
structure Relists (e : Engine) (rows rows' : List Row) (p p' : Interpreter × Session) : Prop where
  sees : Sees e p'
  catalogOnly : CatalogOnly p p'
  before : (exec (listDatabases none) p).1 = .ok (.rows rows)
  after : ∀ e' s, Engine.Spares .system p'.1.engine e' →
    (exec (listDatabases none) ({ p'.1 with engine := e' }, s)).1 = .ok (.rows rows')

/-- An edit of the catalog that is not refused. -/
theorem relists_of_amend (sees : Sees e p) {outcome : Outcome}
    (hamend : exec (amend f) p = (.ok outcome, p')) :
    ∃ db db', f db = .ok (outcome, db') ∧ ∀ rows rows',
      db.find { table := Catalog.table } = .ok rows →
        db'.find { table := Catalog.table } = .ok rows' → Relists e rows rows' p p' := by
  have hsees := sees_catalog p sees
  have hsees' := sees_amend f p sees
  have hcatalogOnly := catalogOnly_amend sees hamend
  rw [hamend] at hsees'
  rw [exec_amend] at hamend
  rcases hcatalog : exec catalog p with ⟨err | c, p₁⟩ <;> rw [hcatalog] at hamend hsees
  · simp at hamend
  · obtain ⟨sees₁, hc⟩ := hsees
    dsimp only at hamend
    rcases hf : f (p₁.1.engine.databaseOf c) with err | ⟨outcome₁, db'⟩ <;> rw [hf] at hamend
    · simp at hamend
    · obtain ⟨hres, rfl⟩ := Prod.mk.inj hamend
      obtain rfl := Except.ok.inj hres
      refine ⟨_, db', hf, fun rows rows' hrows hrows' => ⟨hsees', hcatalogOnly, ?_, ?_⟩⟩
      · rw [answer_list_of_catalog hcatalog, answer_list_of_open hc, hrows]
        rfl
      · intro e' s spares
        have hlt := sees₁.interpreter.ordered.cell_lt _ _ _ (sees₁.interpreter.catalog c hc).live
        have hdb : e'.databaseOf c = db' :=
          (spares.state Catalog.database c.cell (sees₁.interpreter.catalog c hc).live).trans
            ((Engine.state_setState p₁.1.engine c.cell db' c.cell).trans (if_pos ⟨rfl, hlt⟩))
        refine (answer_list_of_open (p := ({ p₁.1 with engine := e' }, s)) hc).trans ?_
        exact congrArg foundRows ((congrArg (·.find { table := Catalog.table }) hdb).trans hrows')

/-- After `delist`, `SHOW` lists fewer rows by the number that was taken out. -/
theorem relists_of_delist (sees : Sees e p) {outcome : Outcome}
    (hdelist : exec (delist name) p = (.ok outcome, p')) :
    ∃ k rows rows', outcome = .affected k ∧ Relists e rows rows' p p' ∧ rows'.Sublist rows ∧
      rows'.length + k = rows.length := by
  obtain ⟨db, db', hedit, relists⟩ := relists_of_amend sees hdelist
  obtain ⟨⟨k, db₁⟩, hdelete, heq⟩ := Result.bind_eq_ok_iff.1 hedit
  obtain ⟨rfl, rfl⟩ := Prod.mk.inj (Except.ok.inj heq)
  obtain ⟨rows, rows', hrows, hrows', sublist, length⟩ := Database.find_of_delete hdelete
  exact ⟨k, rows, rows', rfl, relists rows rows' hrows hrows', sublist, length⟩

/-- After `enlist`, it lists one more. -/
theorem relists_of_enlist (sees : Sees e p) {outcome : Outcome}
    (henlist : exec (enlist name) p = (.ok outcome, p')) :
    ∃ rows row column, Row.value? row column = some name ∧
      Relists e rows (rows ++ [row]) p p' := by
  obtain ⟨db, db', hedit, relists⟩ := relists_of_amend sees henlist
  obtain ⟨db₁, hinsert, heq⟩ := Result.bind_eq_ok_iff.1 hedit
  obtain ⟨-, rfl⟩ := Prod.mk.inj (Except.ok.inj heq)
  obtain ⟨rows, row, column, hvalue, hrows, hrows'⟩ := Database.find_of_insert_entry hinsert
  exact ⟨rows, row, column, hvalue, relists rows _ hrows hrows'⟩

end Session

/-! ### Worlds -/

namespace World

variable {w : World} {name text : String} {client : Nat} {err : Error} {rows : List Row}

section

variable [PatternCompiler]

/-- `SHOW` lists these rows to any client. -/
def Shows (w : World) (rows : List Row) : Prop :=
  ∀ client text, Statement.parse text = .ok (.show none) →
    w.answer client (Session.execute text) = .ok (.rows rows)

/-- `INIT` of the name selects this database, for a client that has not selected any yet. -/
def Opens (w : World) (name : String) (db : Database) : Prop :=
  (exec (Session.select name) (w.interpreter, Session.new)).1 =
      .ok (.message ("Using database: " ++ name)) ∧
    Session.selected (exec (Session.select name) (w.interpreter, Session.new)).2 = some db

omit [PatternCompiler] in
theorem parse_show : Statement.parse "SHOW" = .ok (.show none) := by decide +kernel

theorem shows_iff (client : Nat) :
    w.Shows rows ↔ (exec (Session.listDatabases none) (w.view client)).1 = .ok (.rows rows) := by
  constructor
  · intro shows
    have hanswer := shows client "SHOW" parse_show
    unfold answer at hanswer
    rwa [exec_execute parse_show] at hanswer
  · intro hrows client' text hparse
    unfold answer
    rw [exec_execute hparse]
    exact (Session.answer_list_congr w.interpreter _ _).trans hrows

theorem Shows.unique {rows' : List Row} (shows : w.Shows rows) (shows' : w.Shows rows') :
    rows = rows' := by
  have h := ((shows_iff 0).1 shows).symm.trans ((shows_iff 0).1 shows')
  exact Outcome.rows.inj (Except.ok.inj h)

omit [PatternCompiler] in
/-- The databases that open are those that are found. -/
theorem opens_iff {db : Database} :
    w.Opens name db ↔ w.engine.found .data name = .ok (some db) := by
  have hsave : exec Session.saveActive (w.interpreter, Session.new) =
      (.ok (), (w.interpreter, Session.new)) := Session.exec_saveActive _
  constructor
  · rintro ⟨hok, hselected⟩
    by_cases hdb : ∃ db, w.engine.found .data name = .ok (some db)
    · obtain ⟨db', hdb'⟩ := hdb
      obtain ⟨p', hp', hpdb⟩ := Session.exec_select_of_found hsave hdb'
      rw [hp'] at hselected
      rw [hdb', ← Option.some.inj (hpdb.symm.trans hselected)]
    · have hnot := Session.answer_select_of_not_found (p := (w.interpreter, Session.new)) hsave
        fun db h => hdb ⟨db, h⟩
      rw [hok] at hnot
      split at hnot <;> exact nomatch hnot
  · intro hfound
    obtain ⟨p', hp', hpdb⟩ := Session.exec_select_of_found hsave hfound
    unfold Opens
    rw [hp']
    exact ⟨rfl, hpdb⟩

omit [PatternCompiler] in
theorem Sound.withFolder (sound : w.Sound) (folder : Folder) : (w.withFolder folder).Sound := by
  have evolves := Engine.evolves_folder w.engine folder
  exact
    { interpreter :=
        { ordered := evolves.ordered sound.interpreter.ordered
          catalog := fun c hc =>
            { sound.interpreter.catalog c hc with live := (sound.interpreter.catalog c hc).live } }
      session := fun client => (sound.session client).evolves evolves }

/-- As far as databases of certain names are concerned, clients find in the second world what they
find in the first one. -/
structure Preserves (P : String → Prop) (w w' : World) : Prop where
  /-- Every client has selected what it had, -/
  session : w'.session = w.session
  /-- and its database has the tables that it had. -/
  selected : ∀ client h, (w.session client).active = some h →
    w'.engine.databaseOf h = w.engine.databaseOf h
  /-- What could be opened can be opened, and has the tables that it had. -/
  opens : ∀ name db, PlainName name → P name → w.Opens name db → w'.Opens name db
  /-- Nothing else can be opened, unless the way to the snapshots leads up somewhere and a directory
  on it has been made since. -/
  only : w.engine.Direct ∨ w'.engine.folder.HasDirectories w.engine.folder →
    ∀ name db, PlainName name → P name → w'.Opens name db → w.Opens name db

/-- Clients find in the second world what they find in the first one, whatever the name. -/
structure Unaffected (w w' : World) : Prop where
  preserves : w.Preserves (fun _ => True) w'
  shows : ∀ rows, w.Shows rows → w'.Shows rows

omit [PatternCompiler] in
/-- An operation on the catalog alone, and one of the engine that leaves the databases in memory as
they are. -/
theorem preserves_of_catalogOnly {P : String → Prop} {p : Interpreter × Session} (sound : w.Sound)
    (only : Session.CatalogOnly (w.view client) p) {e : Engine}
    (state : ∀ c, c < p.1.engine.states.length → e.state c = p.1.engine.state c)
    (found : ∀ m, PlainName m → P m → Engine.FindsSame m p.1.engine e) :
    w.Preserves P (w.withView client ({ p.1 with engine := e }, p.2)) := by
  have hfound : ∀ m, PlainName m → P m → Engine.FindsSame m w.engine e := fun m plain hm =>
    ((only.alone.leaves m plain).findsSame (only.alone.spares.state m)).trans (found m plain hm)
  refine
    { session := ?_
      selected := fun c h hactive => ?_
      opens := fun m db plain hm opens =>
        opens_iff.2 ((hfound m plain hm).found db (opens_iff.1 opens))
      only := fun back m db plain hm opens => opens_iff.2 ((hfound m plain hm).only
        ((hfound m plain hm).reachable plain back) db (opens_iff.1 opens)) }
  · funext c
    change (if c = client then p.2 else w.session c) = _
    split
    · next hc =>
      rw [only.session, hc]
      rfl
    · rfl
  · obtain ⟨valid, hscope⟩ := sound.session c h hactive
    exact (state h.cell (valid.evolves only.alone.keeps.evolves).cell_lt).trans
      (only.tables h valid hscope)

omit [PatternCompiler] in
theorem Preserves.mono {P Q : String → Prop} {w' : World} (preserves : w.Preserves P w')
    (h : ∀ m, Q m → P m) : w.Preserves Q w' where
  session := preserves.session
  selected := preserves.selected
  opens := fun m db plain hm => preserves.opens m db plain (h m hm)
  only := fun back m db plain hm => preserves.only back m db plain (h m hm)

/-- A statement whose first part, an edit of the catalog, is refused changes nothing. -/
theorem unaffected_of_amend_error {f : Database → Except StorageError (Outcome × Database)}
    {p : Interpreter × Session} (sound : w.Sound)
    (hamend : exec (Session.amend f) (w.view client) = (.error err, p)) :
    w.Unaffected (w.withView client p) where
  preserves := preserves_of_catalogOnly sound
    (Session.catalogOnly_amend (sound.sees client) hamend) (fun _ _ => rfl) fun m _ _ => .refl m _
  shows := by
    intro rows shows
    rw [shows_iff client] at shows ⊢
    rw [view_withView]
    exact Session.answer_list_of_amend_error hamend shows

/-- A statement that fails, and what its client sees then. -/
theorem exists_of_error? {st : Statement} (hparse : Statement.parse text = .ok st)
    (herror : w.error? (.statement client text) = some err) :
    ∃ p, exec (Session.dispatch st) (w.view client) = (.error err, p) ∧
      w.after (.statement client text) = w.withView client p := by
  rw [error?_eq_some_iff, exec_execute hparse] at herror
  refine ⟨_, Prod.ext herror rfl, ?_⟩
  rw [after, afterAct, exec_execute hparse]

/-- What `SHOW` lists before and after an edit of the catalog, whatever the engine then does to the
databases of the users. -/
theorem shows_of_relists {rows' : List Row} {p : Interpreter × Session}
    (relists : Session.Relists w.engine rows rows' (w.view client) p) {e : Engine}
    (spares : Engine.Spares .system p.1.engine e) :
    w.Shows rows ∧ (w.withView client ({ p.1 with engine := e }, p.2)).Shows rows' := by
  refine ⟨(shows_iff client).2 relists.before, ?_⟩
  rw [shows_iff client, view_withView]
  exact relists.after e p.2 spares

omit [PatternCompiler] in
/-- Under a name that the engine has taken out of memory opens what the folder holds. -/
theorem opens_forgotten_iff {p : Interpreter × Session} {db : Database} :
    (w.withView client
      ({ p.1 with engine := p.1.engine.forgotten .data name }, p.2)).Opens name db ↔
        p.1.engine.stored .data name = .ok (some db) := by
  rw [opens_iff, ← Engine.found_forgotten_self]
  rfl

/-- What a client finds after a `DROP` that took `k` rows out of the catalog, and that the engine
refused. `stored` is what the folder holds under the name by then. -/
structure Delisted (w : World) (name : String) (k : Nat)
    (stored : Except StorageError (Option Database)) (w' : World) : Prop where
  shows : ∃ rows rows', w.Shows rows ∧ w'.Shows rows' ∧ rows'.Sublist rows ∧
    rows'.length + k = rows.length
  preserves : ∀ P : String → Prop,
    (∀ m, P m → m ≠ name ∨ ∀ db, w.Opens name db → stored = .ok (some db)) → w.Preserves P w'
  opens_iff : ∀ db, w'.Opens name db ↔ stored = .ok (some db)

theorem delisted_of_error {outcome : Outcome} {p : Interpreter × Session} {e : Engine}
    {cause : StorageError} (sound : w.Sound)
    (hdelist : exec (Session.delist name) (w.view client) = (.ok outcome, p))
    (hengine : exec (Engine.dropDatabase .data name) p.1.engine = (.error cause, e)) :
    ∃ k, outcome = .affected k ∧ w.Delisted name k (p.1.engine.stored .data name)
      (w.withView client ({ p.1 with engine := e }, p.2)) := by
  obtain ⟨k, rows, rows', rfl, relists, sublist, length⟩ :=
    Session.relists_of_delist (sound.sees client) hdelist
  obtain rfl := Engine.eq_forgotten_of_dropDatabase_error hengine
  have spares : Engine.Spares .system p.1.engine (p.1.engine.forgotten .data name) :=
    Engine.spares_forgotten (by simp) p.1.engine name
  obtain ⟨shows, shows'⟩ := shows_of_relists relists spares
  -- what the engine finds when it comes to drop the database is stored, or opened before as well
  have hfound : (∀ db, w.Opens name db → p.1.engine.stored .data name = .ok (some db)) →
      ∀ db, p.1.engine.found .data name = .ok (some db) →
        p.1.engine.stored .data name = .ok (some db) := by
    intro hstored db hdb
    have hlive := relists.catalogOnly.alone.spares.live name
    cases hc : w.engine.live.get? .data name with
    | none => exact (Engine.found_of_not_live (hlive.trans hc)).symm.trans hdb
    | some c =>
      have hstate := relists.catalogOnly.alone.spares.state name c hc
      have hsame := (Engine.found_of_live (hlive.trans hc)).symm.trans hdb
      rw [hstate] at hsame
      exact hstored db (World.opens_iff.2 ((Engine.found_of_live hc).trans hsame))
  exact ⟨k, rfl,
    { shows := ⟨rows, rows', shows, shows', sublist, length⟩
      preserves := fun P hP => preserves_of_catalogOnly sound relists.catalogOnly
        (fun _ _ => rfl) fun m _ hm => Engine.findsSame_forgotten ((hP m hm).imp_right hfound)
      opens_iff := fun _ => opens_forgotten_iff }⟩

theorem Delisted.unaffected_iff {k : Nat} {stored : Except StorageError (Option Database)}
    {w' : World} (delisted : w.Delisted name k stored w') (plain : PlainName name) :
    w.Unaffected w' ↔ k = 0 ∧ ∀ db, w.Opens name db → stored = .ok (some db) := by
  obtain ⟨rows, rows', shows, shows', sublist, length⟩ := delisted.shows
  constructor
  · intro unaffected
    have hk : k = 0 := by
      rw [shows'.unique (unaffected.shows rows shows)] at length
      omega
    exact ⟨hk, fun db opens => (delisted.opens_iff db).1
      (unaffected.preserves.opens name db plain trivial opens)⟩
  · rintro ⟨rfl, hstored⟩
    refine ⟨delisted.preserves _ fun _ _ => .inr hstored, fun rows₁ shows₁ => ?_⟩
    rw [shows₁.unique shows, ← sublist.eq_of_length length]
    exact shows'

end

/-- What a client finds after a `CREATE` that took a row into the catalog, and that the engine
refused. `found` is what the engine found under the name by then. -/
structure Listed [PatternCompiler] (w : World) (name : String)
    (found : Except StorageError (Option Database)) (w' : World) : Prop where
  shows : ∃ rows row column, Row.value? row column = some name ∧ w.Shows rows ∧
    w'.Shows (rows ++ [row])
  spares : w.Preserves (· ≠ name) w'
  new : found = .ok none →
    (∀ db, ¬w.Opens name db) ∧ w'.Opens name (Database.new w.engine.clock)
  preserves : found ≠ .ok none → w.Preserves (fun _ => True) w'

theorem listed_of_error [PatternCompiler] {outcome : Outcome} {p : Interpreter × Session}
    {e : Engine} {cause : StorageError} (sound : w.Sound) (plain : PlainName name)
    (henlist : exec (Session.enlist name) (w.view client) = (.ok outcome, p))
    (hengine : exec (Engine.createDatabase .data name) p.1.engine = (.error cause, e)) :
    w.Listed name (p.1.engine.found .data name)
      (w.withView client ({ p.1 with engine := e }, p.2)) := by
  obtain ⟨rows, row, column, hvalue, relists⟩ :=
    Session.relists_of_enlist (sound.sees client) henlist
  have ordered := relists.sees.interpreter.ordered
  obtain ⟨hspares, hstate, hother⟩ := Engine.createDatabase_spares ordered plain hengine
  obtain ⟨shows, shows'⟩ := shows_of_relists relists hspares
  refine
    { shows := ⟨rows, row, column, hvalue, shows, shows'⟩
      spares := preserves_of_catalogOnly sound relists.catalogOnly hstate hother
      new := fun hnone => ?_
      preserves := fun hsome => ?_ }
  · obtain ⟨-, hnew⟩ | ⟨hsome, -⟩ := Engine.found_of_createDatabase_error ordered hengine
    · rw [relists.catalogOnly.alone.keeps.evolves.clock] at hnew
      refine ⟨fun db opens => ?_, opens_iff.2 hnew⟩
      have hfound := ((relists.catalogOnly.alone.leaves name plain).findsSame
        (relists.catalogOnly.alone.spares.state name)).found db (opens_iff.1 opens)
      exact nomatch hnone.symm.trans hfound
    · exact absurd hnone hsome
  · obtain ⟨hnone, -⟩ | ⟨-, own⟩ := Engine.found_of_createDatabase_error ordered hengine
    · exact absurd hnone hsome
    · refine preserves_of_catalogOnly sound relists.catalogOnly hstate fun m plain' _ => ?_
      by_cases hm : m = name
      · exact hm ▸ own
      · exact hother m plain' hm

theorem Listed.not_unaffected [PatternCompiler] {found : Except StorageError (Option Database)}
    {w' : World} (listed : w.Listed name found w') : ¬w.Unaffected w' := by
  intro unaffected
  obtain ⟨rows, row, -, -, shows, shows'⟩ := listed.shows
  have hrows := congrArg List.length (shows'.unique (unaffected.shows rows shows))
  simp at hrows

end World

end Tabular
