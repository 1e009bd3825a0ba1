import Tabular.Proofs.Engine.Operations
import Tabular.Proofs.Result

/-!
What the statements of a session do.

Each operation of a session is given as one equation for `exec`, in terms of the operations that it
consists of. Main statement: whatever a statement says, to run it is one of eight things
(`exists_performs`), so an invariant of sessions needs one argument for each of them.
-/

namespace Tabular

/-! ### Changes of a database -/

/-- A change of a database that keeps the time of its creation. -/
def Database.KeepsCreation {α : Type} (f : Database → Except StorageError (α × Database)) : Prop :=
  ∀ db a db', f db = .ok (a, db') → db'.createdAt = db.createdAt

namespace Database

variable {db db' : Database}

/-- A change that gives the changed database alone. -/
theorem keepsCreation_of {f : Database → Except StorageError Database} {a : Outcome}
    (hf : ∀ db db', f db = .ok db' → db'.createdAt = db.createdAt) :
    KeepsCreation fun db => do return (a, ← f db) := by
  intro db b db' h
  obtain ⟨db₁, hdb₁, hpair⟩ := Result.bind_eq_ok_iff.1 h
  obtain ⟨-, rfl⟩ := Prod.mk.inj (Except.ok.inj hpair)
  exact hf db db₁ hdb₁

/-- A change that counts rows. -/
theorem keepsCreation_of_count {f : Database → Except StorageError (Nat × Database)}
    (hf : KeepsCreation f) :
    KeepsCreation fun db => do
      let (n, db) ← f db
      return (Outcome.affected n, db) := by
  intro db b db' h
  obtain ⟨⟨n, db₁⟩, hdb₁, hpair⟩ := Result.bind_eq_ok_iff.1 h
  obtain ⟨-, rfl⟩ := Prod.mk.inj (Except.ok.inj hpair)
  exact hf db n db₁ hdb₁

theorem createdAt_createTable {spec : TableSpec} (h : db.createTable spec = .ok db') :
    db'.createdAt = db.createdAt := by
  unfold createTable at h
  split at h
  · exact nomatch h
  · exact Except.ok.inj h ▸ rfl

theorem createdAt_dropTable {name : String} (h : db.dropTable name = .ok db') :
    db'.createdAt = db.createdAt := by
  unfold dropTable at h
  split at h
  · exact Except.ok.inj h ▸ rfl
  · exact nomatch h

theorem createdAt_insert {spec : InsertSpec} (h : db.insert spec = .ok db') :
    db'.createdAt = db.createdAt := by
  simp only [insert, Result.bind_eq_ok_iff, Result.pure_eq_ok_iff] at h
  obtain ⟨t, -, t', -, rfl⟩ := h
  rfl

theorem keepsCreation_update [PatternCompiler] (q : QuerySpec) :
    KeepsCreation fun db => db.update q := by
  intro db n db' h
  simp only [update, Result.bind_eq_ok_iff, Result.pure_eq_ok_iff] at h
  obtain ⟨t, -, ⟨m, t'⟩, -, hpair⟩ := h
  exact (Prod.mk.inj hpair).2 ▸ rfl

theorem keepsCreation_delete [PatternCompiler] (q : QuerySpec) :
    KeepsCreation fun db => db.delete q := by
  intro db n db' h
  simp only [delete, Result.bind_eq_ok_iff, Result.pure_eq_ok_iff] at h
  obtain ⟨t, -, ⟨m, t'⟩, -, hpair⟩ := h
  exact (Prod.mk.inj hpair).2 ▸ rfl

end Database

namespace Session

/-! ### Parts -/

@[simp] theorem exec_require_ok {α : Type} (a : α) (p : Interpreter × Session) :
    exec (require (.ok a)) p = (.ok a, p) := rfl

@[simp] theorem exec_require_error {α : Type} (err : Error) (p : Interpreter × Session) :
    exec (require (.error err : Except Error α)) p = (.error err, p) := rfl

@[simp] theorem exec_requirePart_some {α : Type} (part : Missing) (a : α)
    (p : Interpreter × Session) : exec (requirePart part (some a)) p = (.ok a, p) := rfl

theorem exec_requireActive (p : Interpreter × Session) :
    exec requireActive p = match p.2.active with
      | some h => (.ok h, p)
      | none => (.error .noActiveDatabase, p) := by
  unfold requireActive
  rw [exec_bind, exec_get]
  cases h : p.2.active <;> simp [h]

theorem exec_catalog (p : Interpreter × Session) :
    exec catalog p = match p.1.catalog with
      | some h => (.ok h, p)
      | none =>
        match exec Catalog.open p.1.engine with
        | (.error err, e) => (.error (.storage err), ({ p.1 with engine := e }, p.2))
        | (.ok h, e) => (.ok h, ({ engine := e, catalog := some h }, p.2)) := by
  unfold catalog
  rw [exec_bind, exec_get]
  cases hc : p.1.catalog with
  | some h => simp [hc]
  | none =>
    simp only [hc]
    rw [exec_bind, exec_storage]
    rcases exec Catalog.open p.1.engine with ⟨_ | h, e⟩
    · simp only [hc]
    · rfl

theorem exec_saveActive (p : Interpreter × Session) :
    exec saveActive p = match p.2.active with
      | some h => exec (storage (Engine.save h)) p
      | none => (.ok (), p) := by
  unfold saveActive
  rw [exec_bind, exec_get]
  cases h : p.2.active <;> simp [h]

variable {P : Interpreter × Session → Prop} {E : Error → Interpreter × Session → Prop}

/-- What an operation of the engine ensures inside a session. -/
theorem ensures_storage {α : Type} {act : EngineM α} {Q : α → Interpreter × Session → Prop}
    (ok : ∀ p a e, P p → exec act p.1.engine = (.ok a, e) → Q a ({ p.1 with engine := e }, p.2))
    (error : ∀ p err e, P p → exec act p.1.engine = (.error err, e) →
      E (.storage err) ({ p.1 with engine := e }, p.2)) :
    Ensures P (storage act) Q E := by
  intro p hp
  rw [exec_storage]
  rcases hact : exec act p.1.engine with ⟨err | a, e⟩
  · exact error p err e hp hact
  · exact ok p a e hp hact

/-- What obtaining the catalog ensures: it has been opened before, or is opened now. -/
theorem ensures_catalog {Q : Handle → Interpreter × Session → Prop}
    (found : ∀ p h, P p → p.1.catalog = some h → Q h p)
    (opened : ∀ p h e, P p → p.1.catalog = none → exec Catalog.open p.1.engine = (.ok h, e) →
      Q h ({ engine := e, catalog := some h }, p.2))
    (error : ∀ p err e, P p → p.1.catalog = none →
      exec Catalog.open p.1.engine = (.error err, e) →
      E (.storage err) ({ engine := e, catalog := none }, p.2)) :
    Ensures P catalog Q E := by
  intro p hp
  rw [exec_catalog]
  cases hc : p.1.catalog with
  | some h => exact found p h hp hc
  | none =>
    dsimp only
    rcases hopen : exec Catalog.open p.1.engine with ⟨err | h, e⟩
    · exact hc ▸ error p err e hp hc hopen
    · exact opened p h e hp hc hopen

/-- What saving the selected database ensures, where there is one. -/
theorem ensures_saveActive {Q : Unit → Interpreter × Session → Prop}
    (none : ∀ p, P p → p.2.active = none → Q () p)
    (some : ∀ h, Ensures (fun p => P p ∧ p.2.active = some h) (storage (Engine.save h)) Q E) :
    Ensures P saveActive Q E := by
  intro p hp
  rw [exec_saveActive]
  cases hactive : p.2.active with
  | none => exact none p hp hactive
  | some h => exact some h p ⟨hp, hactive⟩

/-- The selection is forgotten where it is of a name: what holds without a selection as well goes on
holding. -/
theorem ensures_forget {I : Interpreter × Session → Prop} (name : String) (outcome : Outcome)
    (forget : ∀ p, I p → I (p.1, { active := none })) :
    Ensures I (do
        if (← get).2.activeName = some name then setActive none
        return outcome)
      (fun _ => I) E := by
  refine Ensures.get_bind fun p hp => ?_
  by_cases hactive : p.2.activeName = some name
  · rw [if_pos hactive]
    refine Ensures.bind (R := fun _ => I) (Ensures.modify ?_) fun _ => Ensures.pure fun _ h => h
    rintro q rfl
    exact forget q hp
  · rw [if_neg hactive]
    exact Ensures.pure fun q hq => hq ▸ hp

/-! ### Databases -/

theorem exec_select (name : String) (p : Interpreter × Session) :
    exec (select name) p = match exec saveActive p with
      | (.error err, p₁) => (.error err, p₁)
      | (.ok _, p₁) =>
        match exec (storage (Engine.open .data name)) p₁ with
        | (.error err, p₂) => (.error err, p₂)
        | (.ok none, p₂) => (.error (.unknownDatabase name), p₂)
        | (.ok (some h), p₂) =>
          (.ok (.message ("Using database: " ++ name)), (p₂.1, { active := some h })) := by
  unfold select
  rw [exec_bind]
  rcases exec saveActive p with ⟨_ | _, p₁⟩
  · rfl
  · dsimp only
    rw [exec_bind]
    rcases exec (storage (Engine.open .data name)) p₁ with ⟨_ | _ | _, p₂⟩ <;> rfl

theorem exec_createDatabase (name : String) (p : Interpreter × Session) :
    exec (createDatabase name) p = match exec catalog p with
      | (.error err, p₁) => (.error err, p₁)
      | (.ok c, p₁) =>
        match exec (storage (Engine.insert c (Catalog.entry name))) p₁ with
        | (.error err, p₂) => (.error err, p₂)
        | (.ok _, p₂) => exec (storage (Engine.createDatabase .data name)) p₂ := by
  unfold createDatabase
  rw [exec_bind]
  rcases exec catalog p with ⟨_ | c, p₁⟩
  · rfl
  · dsimp only
    rw [exec_bind]
    rcases exec (storage (Engine.insert c (Catalog.entry name))) p₁ with ⟨_ | _, p₂⟩ <;> rfl

variable [PatternCompiler]

theorem exec_dropDatabase (name : String) (p : Interpreter × Session) :
    exec (dropDatabase name) p = match exec catalog p with
      | (.error err, p₁) => (.error err, p₁)
      | (.ok c, p₁) =>
        match exec (storage (Engine.delete c (Catalog.having .eq name))) p₁ with
        | (.error err, p₂) => (.error err, p₂)
        | (.ok _, p₂) =>
          match exec (storage (Engine.dropDatabase .data name)) p₂ with
          | (.error err, p₃) => (.error err, p₃)
          | (.ok outcome, p₃) =>
            (.ok outcome,
              if p₃.2.activeName = some name then (p₃.1, { active := none }) else p₃) := by
  unfold dropDatabase
  rw [exec_bind]
  rcases exec catalog p with ⟨_ | c, p₁⟩
  · rfl
  · dsimp only
    rw [exec_bind]
    rcases exec (storage (Engine.delete c (Catalog.having .eq name))) p₁ with ⟨_ | _, p₂⟩
    · rfl
    · dsimp only
      rw [exec_bind]
      rcases exec (storage (Engine.dropDatabase .data name)) p₂ with ⟨_ | outcome, p₃⟩
      · rfl
      · dsimp only
        rw [exec_bind, exec_get]
        by_cases hactive : p₃.2.activeName = some name
        · simp only [hactive, if_true]
          rfl
        · simp only [hactive, if_false]
          rfl

/-- The search of the catalog that a pattern asks for. -/
def listed (pattern : Option String) : QuerySpec :=
  match pattern with
  | some raw => Catalog.having .like (Request.value raw.toList)
  | none => { table := Catalog.table }

theorem exec_listDatabases (pattern : Option String) (p : Interpreter × Session) :
    exec (listDatabases pattern) p = match exec catalog p with
      | (.error err, p₁) => (.error err, p₁)
      | (.ok c, p₁) => exec (storage (Engine.find c (listed pattern))) p₁ := by
  unfold listDatabases
  rw [exec_bind]
  rcases exec catalog p with ⟨_ | c, p₁⟩ <;> rfl

omit [PatternCompiler] in
theorem exec_save (p : Interpreter × Session) :
    exec save p = match exec saveActive p with
      | (.error err, p₁) => (.error err, p₁)
      | (.ok _, p₁) =>
        match exec catalog p₁ with
        | (.error err, p₂) => (.error err, p₂)
        | (.ok c, p₂) => exec (storage (Engine.save c)) p₂ := by
  unfold save
  rw [exec_bind]
  rcases exec saveActive p with ⟨_ | _, p₁⟩
  · rfl
  · dsimp only
    rw [exec_bind]
    rcases exec catalog p₁ with ⟨_ | c, p₂⟩ <;> rfl

/-! ### Statements -/

/-- What the statement `st` makes a session do that sees `p`. Statements about the tables of the
selected database ask it or edit it; a statement that is refused does nothing. -/
inductive Performs (p : Interpreter × Session) : Statement → SessionM Outcome → Prop where
  | select (name : String) : Performs p (.init name) (select name)
  | create (name : String) : Performs p (.create .database name none) (createDatabase name)
  | drop (name : String) : Performs p (.drop .database (some name)) (dropDatabase name)
  | list (pattern : Option String) : Performs p (.show pattern) (listDatabases pattern)
  | describe (name : String) : Performs p (.describe .database (some name))
      (storage (Engine.describeDatabase p.2.active name))
  | query {st : Statement} {h : Handle} (active : p.2.active = some h)
      (f : Database → Except StorageError Outcome) : Performs p st (storage (Engine.query h f))
  | edit {st : Statement} {h : Handle} (active : p.2.active = some h)
      (f : Database → Except StorageError (Outcome × Database)) (keeps : Database.KeepsCreation f) :
      Performs p st (storage (Engine.edit h f))
  | refuse {st : Statement} (err : Error) : Performs p st (throw err)

/-- A statement that needs the selected database goes on with it or is refused. -/
theorem performs_requireActive {st : Statement} {p : Interpreter × Session}
    {f : Handle → SessionM Outcome}
    (hf : ∀ h, p.2.active = some h → ∃ act, Performs p st act ∧ exec (f h) p = exec act p) :
    ∃ act, Performs p st act ∧ exec (requireActive >>= f) p = exec act p := by
  rw [exec_bind, exec_requireActive]
  cases h : p.2.active with
  | some db => exact hf db h
  | none => exact ⟨_, .refuse .noActiveDatabase, rfl⟩

/-- A statement that makes a request and edits the selected database with it. -/
theorem performs_edit {α : Type} {st : Statement} {p : Interpreter × Session}
    (made : Except Error α) {f : α → Database → Except StorageError (Outcome × Database)}
    (keeps : ∀ a, Database.KeepsCreation (f a)) {h : Handle} (active : p.2.active = some h) :
    ∃ act, Performs p st act ∧
      exec (require made >>= fun a => storage (Engine.edit h (f a))) p = exec act p := by
  cases made with
  | ok a => exact ⟨_, .edit active (f a) (keeps a), by rw [exec_bind, exec_require_ok]⟩
  | error err => exact ⟨_, .refuse err, by rw [exec_bind, exec_require_error, exec_throw]⟩

/-- **Whatever a statement says, to run it is to perform one of the operations of `Performs`.** -/
theorem exists_performs (st : Statement) (p : Interpreter × Session) :
    ∃ act, Performs p st act ∧ exec (dispatch st) p = exec act p := by
  cases st with
  | init name => exact ⟨_, .select name, rfl⟩
  | «show» pattern => exact ⟨_, .list pattern, rfl⟩
  | create kind name parameters =>
    cases kind with
    | database =>
      cases parameters with
      | none => exact ⟨_, .create name, rfl⟩
      | some parameters => exact ⟨_, .refuse .databaseParameters, rfl⟩
    | table =>
      refine performs_requireActive fun h active => ?_
      cases parameters with
      | none => exact ⟨_, .refuse (.missing .tableColumns), rfl⟩
      | some parameters =>
        rw [exec_bind, exec_requirePart_some]
        exact performs_edit (TableSpec.ofParameters name parameters) (fun _ =>
          Database.keepsCreation_of fun _ _ => Database.createdAt_createTable) active
  | insert table columns values =>
    exact performs_requireActive fun h active =>
      performs_edit (InsertSpec.ofStatement table columns values) (fun _ =>
        Database.keepsCreation_of fun _ _ => Database.createdAt_insert) active
  | find search =>
    refine performs_requireActive fun h active => ?_
    cases hq : QuerySpec.ofSearch search with
    | ok q =>
      rw [exec_bind, exec_require_ok]
      exact ⟨_, .query active _, rfl⟩
    | error err => exact ⟨_, .refuse err, rfl⟩
  | describe kind name =>
    cases name with
    | none => exact ⟨_, .refuse (.missing .described), rfl⟩
    | some name =>
      cases kind with
      | database => exact ⟨_, .describe name, rfl⟩
      | table => exact performs_requireActive fun h active => ⟨_, .query active _, rfl⟩
  | drop kind name =>
    cases kind with
    | database =>
      cases name with
      | none => exact ⟨_, .refuse (.missing .droppedDatabase), rfl⟩
      | some name => exact ⟨_, .drop name, rfl⟩
    | table =>
      refine performs_requireActive fun h active => ?_
      cases name with
      | none => exact ⟨_, .refuse (.missing .droppedTable), rfl⟩
      | some name =>
        rw [exec_bind, exec_requirePart_some]
        exact ⟨_, .edit active _ (Database.keepsCreation_of fun _ _ =>
          Database.createdAt_dropTable), rfl⟩
  | delete table filter =>
    exact performs_requireActive fun h active =>
      performs_edit (QuerySpec.ofDelete table filter) (fun q =>
        Database.keepsCreation_of_count (Database.keepsCreation_delete q)) active
  | update table assignments filter =>
    exact performs_requireActive fun h active =>
      performs_edit (QuerySpec.ofUpdate table assignments filter) (fun q =>
        Database.keepsCreation_of_count (Database.keepsCreation_update q)) active

end Session

end Tabular
