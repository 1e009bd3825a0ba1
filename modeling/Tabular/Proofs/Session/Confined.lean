import Tabular.Proofs.Session.Atomicity
import Tabular.Proofs.Session.World

/-!
Statements stay inside their database.

A statement that neither creates nor drops a database changes one database at most, the one that the
selection of its session leads to. Every other one keeps its tables: whether a name leads to it or
only the handle of a client that selected it before it was dropped, and whether it is in memory or
still in the folder. Of the databases in memory new ones are only those that the folder held under
their names, and a catalog that was missing. All this holds of every interpreter with any sessions,
reachable or not.

`Engine.Confined` says so of two engines, with the cell that is exempt. Main statement:
`World.confined_of_statement`.
-/

namespace Tabular

/-- A statement that asks: it selects, finds, describes or lists. -/
inductive Statement.Reads : Statement → Prop where
  | init (name : String) : Reads (.init name)
  | find (search : Search) : Reads (.find search)
  | describe (kind : ElementKind) (name : Option String) : Reads (.describe kind name)
  | show (pattern : Option String) : Reads (.show pattern)

namespace Engine

/-- The snapshot that is flushed, if any is, is the one of another name. -/
def FlushesOther (flushed : Option Handle) (scope : Scope) (name : String) : Prop :=
  ∀ h, flushed = some h → PlainName h.name ∧ ¬(h.scope = scope ∧ h.name = name)

/-- Every database is what it was, but for the one in a cell, and in the folder but for the snapshot
that is flushed. -/
structure Confined (cell : Option Nat) (flushed : Option Handle) (e e' : Engine) : Prop where
  /-- Every database in memory has the tables it had, also where only handles lead to it. -/
  states : ∀ c, c < e.states.length → cell ≠ some c → e'.state c = e.state c
  /-- Every name in memory leads where it did. -/
  names : ∀ scope name c, e.live.get? scope name = some c → e'.live.get? scope name = some c
  /-- A database that is in the folder alone is found there as it was, or has been loaded as it was.
  -/
  stored : ∀ scope name db, PlainName name → FlushesOther flushed scope name →
    e.live.get? scope name = none → e.stored scope name = .ok (some db) →
      e'.found scope name = .ok (some db)
  /-- A name that is new in memory leads to what the folder holds under it, or to a catalog that was
  missing before. -/
  loaded : ∀ scope name c, e'.live.get? scope name = some c →
    e.live.get? scope name = some c ∨
      e.live.get? scope name = none ∧ (e'.stored scope name = .ok (some (e'.state c)) ∨
        scope = .system ∧ name = Catalog.database ∧ e.stored scope name = .ok none ∧
          Catalog.IsNew e.clock (e'.state c))

variable {cell : Option Nat} {flushed : Option Handle} {e : Engine}

theorem Confined.refl (cell : Option Nat) (flushed : Option Handle) (e : Engine) :
    Confined cell flushed e e where
  states := fun _ _ _ => rfl
  names := fun _ _ _ h => h
  stored := fun scope name db _ _ hlive hdb => by rw [found, hlive]; exact hdb
  loaded := fun _ _ _ h => .inl h

/-- A folder in which every database with a plain name is stored as before, unless its snapshot is
the one that is written. -/
def Keeping (flushed : Option Handle) (e : Engine) (folder : Folder) : Prop :=
  ∀ scope name db, PlainName name → FlushesOther flushed scope name →
    e.stored scope name = .ok (some db) → Engine.stored { e with folder } scope name = .ok (some db)

theorem keeping_refl (flushed : Option Handle) (e : Engine) : Keeping flushed e e.folder :=
  fun _ _ _ _ _ h => h

/-- Flushing a database writes the snapshot of its own name. -/
theorem Flushed.keeping {h : Handle} {folder : Folder} (flushed : e.Flushed h folder) :
    Keeping (some h) e folder := by
  intro scope name db plain hother hdb
  obtain ⟨plain', hne⟩ := hother h rfl
  exact flushed.stored (fun q hq hq' => hne (isSnapshotPath_injective plain' plain hq' hq)) hdb

theorem confined_folder {folder : Folder} (keeping : Keeping flushed e folder) :
    Confined cell flushed e { e with folder } where
  states := fun _ _ _ => rfl
  names := fun _ _ _ h => h
  stored := fun scope name db plain hother hlive hdb => by
    rw [found, show ({ e with folder } : Engine).live.get? scope name = none from hlive]
    exact keeping scope name db plain hother hdb
  loaded := fun _ _ _ h => .inl h

/-- A database in a new cell, under a name that was not in memory: one that the folder holds, or a
catalog that was missing. -/
theorem confined_registered {folder : Folder} (keeping : Keeping flushed e folder) {s : Scope}
    {n : String} {db : Database} (hlive : e.live.get? s n = none)
    (origin : Engine.stored { e with folder } s n = .ok (some db) ∨
      s = .system ∧ n = Catalog.database ∧ e.stored s n = .ok none ∧ Catalog.IsNew e.clock db) :
    Confined cell flushed e (Engine.registered { e with folder } s n db) := by
  generalize he : Engine.registered { e with folder } s n db = e'
  have names : ∀ scope name, e'.live.get? scope name =
      if s = scope ∧ n = name then some e.states.length else e.live.get? scope name := by
    intro scope name
    rw [← he]
    exact live_registered { e with folder } s n db scope name
  have new : e'.state e.states.length = db := by
    rw [← he]
    exact state_registered { e with folder } s n db
  refine
    { states := fun c hc _ => ?_
      names := fun scope name c hc => ?_
      stored := fun scope name db' plain hother hnone hdb' => ?_
      loaded := fun scope name c hc => ?_ }
  · rw [← he]
    exact state_registered_of_lt { e with folder } s n db hc
  · have hne : ¬(s = scope ∧ n = name) := by
      rintro ⟨rfl, rfl⟩
      exact absurd (hlive.symm.trans hc) (by simp)
    rw [names, if_neg hne]
    exact hc
  · have kept := keeping scope name db' plain hother hdb'
    rw [found, names]
    by_cases heq : s = scope ∧ n = name
    · rw [if_pos heq]
      obtain ⟨rfl, rfl⟩ := heq
      obtain hstored | ⟨-, -, hmissing, -⟩ := origin
      · exact (congrArg (fun db => Except.ok (some db)) new).trans (hstored.symm.trans kept)
      · exact absurd (hmissing.symm.trans hdb') (by simp)
    · rw [if_neg heq, hnone, ← he]
      exact kept
  · rw [names] at hc
    split at hc
    · next heq =>
      obtain ⟨rfl, rfl⟩ := heq
      obtain rfl := Option.some.inj hc
      rw [new, ← he]
      exact .inr ⟨hlive, origin⟩
    · exact .inl hc

/-! ### Operations -/

/-- Loading brings in what the folder holds, also where a flush has changed the folder before. -/
theorem confined_load {folder : Folder} (keeping : Keeping flushed e folder) (s : Scope)
    (n : String) : Confined cell flushed e (exec (load s n) { e with folder }).2 := by
  rw [exec_load]
  cases hlive : e.live.get? s n with
  | some c => exact confined_folder keeping
  | none =>
    rcases hstored : Engine.stored { e with folder } s n with err | _ | db
    · exact confined_folder keeping
    · exact confined_folder keeping
    · exact confined_registered keeping hlive (.inl hstored)

theorem confined_describeDatabase (active : Option Handle) (n : String) :
    Confined cell flushed e (exec (describeDatabase active n) e).2 := by
  rcases exec_describeDatabase_snd active n e with h | h <;> rw [h]
  · exact .refl ..
  · exact confined_load (keeping_refl flushed e) .data n

/-- Editing through a handle changes the database in its cell. -/
theorem confined_edit {α : Type} {h : Handle} (hcell : cell = some h.cell)
    (f : Database → Except StorageError (α × Database)) :
    Confined cell flushed e (exec (edit h f) e).2 := by
  rw [exec_edit]
  rcases f (e.databaseOf h) with err | ⟨a, db⟩
  · exact .refl ..
  · exact
      { Confined.refl cell flushed e with
        states := fun c hc hne => by
          rw [state_setState, if_neg]
          rintro ⟨rfl, -⟩
          exact hne hcell
        stored := fun scope name db' plain hother hlive hdb' => by
          rw [found, show (e.setState h.cell db).live.get? scope name = none from hlive]
          exact hdb'
        loaded := fun _ _ _ h => .inl h }

theorem confined_openCatalog : Confined cell none e (exec Catalog.open e).2 := by
  have hopening := Catalog.opening e
  rcases hopen : exec Catalog.open e with ⟨r, e'⟩
  rw [hopen] at hopening
  cases hopening with
  | inMemory hlive => exact .refl ..
  | unreadable hlive hstored => exact .refl ..
  | inFolder hlive hstored =>
    exact confined_registered (keeping_refl none e) hlive (.inl hstored)
  | @created _ db folder hlive hstored isNew hflushed hr =>
    refine confined_registered (fun scope name db' plain _ hdb' => ?_) hlive
      (.inr ⟨rfl, rfl, hstored, isNew⟩)
    -- the snapshot that is written is the one of the catalog, and none was stored under its name
    refine hflushed.keeping scope name db' plain (fun h hh => ?_) hdb'
    obtain rfl := Option.some.inj hh
    refine ⟨Session.plainName_catalog, ?_⟩
    rintro ⟨rfl, rfl⟩
    exact absurd (hstored.symm.trans hdb') (by simp)

end Engine

/-! ### Sessions -/

namespace Session

variable {p : Interpreter × Session} {cell : Option Nat}

/-- What a session sees is confined, and an open catalog is still the open one. -/
structure Confined (cell : Option Nat) (flushed : Option Handle) (p p' : Interpreter × Session) :
    Prop where
  engine : p.1.engine.Confined cell flushed p'.1.engine
  catalog : ∀ h, p.1.catalog = some h → p'.1.catalog = some h

theorem Confined.refl (cell : Option Nat) (flushed : Option Handle) (p : Interpreter × Session) :
    Confined cell flushed p p :=
  ⟨.refl .., fun _ h => h⟩

theorem confined_storage {α : Type} {flushed : Option Handle} {act : EngineM α}
    (h : p.1.engine.Confined cell flushed (exec act p.1.engine).2) :
    Confined cell flushed p (exec (storage act) p).2 := by
  rw [exec_storage_snd]
  exact ⟨h, fun _ h => h⟩

/-- The flush of the selected database changes the folder alone. -/
theorem exec_saveActive_snd (p : Interpreter × Session) :
    ∃ folder, Engine.Keeping p.2.active p.1.engine folder ∧
      (exec saveActive p).2 = ({ p.1 with engine := { p.1.engine with folder } }, p.2) := by
  rw [exec_saveActive]
  cases hactive : p.2.active with
  | none => exact ⟨p.1.engine.folder, Engine.keeping_refl none p.1.engine, rfl⟩
  | some h =>
    obtain ⟨folder, flushed, hsave⟩ := Engine.exec_save_flushed h p.1.engine
    refine ⟨folder, flushed.keeping, ?_⟩
    rw [exec_storage_snd, hsave]

theorem confined_select (name : String) :
    Confined cell p.2.active p (exec (select name) p).2 := by
  obtain ⟨folder, keeping, hfolder⟩ := exec_saveActive_snd p
  have hload : Engine.Confined cell p.2.active p.1.engine
      (exec (Engine.open .data name) { p.1.engine with folder }).2 := by
    rw [Engine.exec_open_snd]
    exact Engine.confined_load keeping .data name
  rw [exec_select]
  rcases hsave : exec saveActive p with ⟨err | _, p₁⟩ <;>
    obtain rfl : p₁ = _ := (congrArg Prod.snd hsave).symm.trans hfolder
  · exact ⟨Engine.confined_folder keeping, fun _ h => h⟩
  · dsimp only
    rw [exec_storage]
    rcases hopen : exec (Engine.open .data name) { p.1.engine with folder } with
      ⟨err | _ | h, e⟩ <;> rw [hopen] at hload <;> exact ⟨hload, fun _ h => h⟩

/-- A question about the tables of the selected database changes nothing. -/
theorem exec_requireActive_query_snd {f : Handle → SessionM Outcome}
    (hf : ∀ h, (exec (f h) p).2 = p) : (exec (requireActive >>= f) p).2 = p := by
  rw [exec_bind, exec_requireActive]
  cases hactive : p.2.active with
  | none => rfl
  | some h => exact hf h

theorem exec_query_snd (h : Handle) (f : Database → Except StorageError Outcome) :
    (exec (storage (Engine.query h f)) p).2 = p := by
  rw [exec_storage_snd, Engine.exec_query]

theorem confined_catalog : Confined cell none p (exec catalog p).2 := by
  have hopened : Engine.Confined cell none p.1.engine (exec Catalog.open p.1.engine).2 :=
    Engine.confined_openCatalog
  rw [exec_catalog]
  cases hcatalog : p.1.catalog with
  | some h => exact .refl ..
  | none =>
    dsimp only
    rcases hopen : exec Catalog.open p.1.engine with ⟨err | h, e⟩ <;> rw [hopen] at hopened <;>
      refine ⟨hopened, fun h hh => ?_⟩ <;> rw [hcatalog] at hh <;> exact nomatch hh

variable [PatternCompiler]

theorem confined_listDatabases (pattern : Option String) :
    Confined cell none p (exec (listDatabases pattern) p).2 := by
  have hcatalog : Confined cell none p (exec catalog p).2 := confined_catalog
  rw [exec_listDatabases]
  rcases hexec : exec catalog p with ⟨err | c, p₁⟩ <;> rw [hexec] at hcatalog
  · exact hcatalog
  · have hfind : (exec (storage (Engine.find c (listed pattern))) p₁).2 = p₁ := exec_query_snd c _
    dsimp only
    rw [hfind]
    exact hcatalog

theorem exec_find_snd (search : Search) : (exec (dispatch (.find search)) p).2 = p := by
  refine exec_requireActive_query_snd fun h => ?_
  cases hq : QuerySpec.ofSearch search with
  | error err => rfl
  | ok q =>
    rw [exec_bind, exec_require_ok]
    exact exec_query_snd h _

theorem exec_describeTable_snd (name : Option String) :
    (exec (dispatch (.describe .table name)) p).2 = p := by
  cases name with
  | none => rfl
  | some name =>
    change (exec (requirePart .described (some name) >>= _) p).2 = p
    rw [exec_bind, exec_requirePart_some]
    exact exec_requireActive_query_snd fun h => exec_query_snd h _

/-- What a statement flushes before it does anything else. -/
def flushedBy (s : Session) : Statement → Option Handle
  | .init _ => s.active
  | _ => none

/-- **Whatever a statement does**, it does it to the database that is selected, and a statement that
asks does it to none. -/
theorem confined_dispatch {st : Statement} (create : ∀ n, st ≠ .create .database n none)
    (drop : ∀ n, st ≠ .drop .database (some n))
    (hcell : ¬st.Reads → ∀ h, p.2.active = some h → cell = some h.cell) :
    Confined cell (flushedBy p.2 st) p (exec (dispatch st) p).2 := by
  by_cases reads : st.Reads
  · cases reads with
    | init name => exact confined_select name
    | find search => rw [exec_find_snd]; exact .refl ..
    | «show» pattern => exact confined_listDatabases pattern
    | describe kind name =>
      cases kind with
      | table => rw [exec_describeTable_snd]; exact .refl ..
      | database =>
        cases name with
        | none => exact .refl ..
        | some name => exact confined_storage (Engine.confined_describeDatabase p.2.active name)
  · obtain ⟨act, performs, hexec⟩ := exists_performs st p
    rw [hexec]
    cases performs with
    | select name => exact absurd (.init name) reads
    | list pattern => exact absurd (.show pattern) reads
    | describe name => exact absurd (.describe .database (some name)) reads
    | create name => exact absurd rfl (create name)
    | drop name => exact absurd rfl (drop name)
    | query active f => rw [exec_query_snd]; exact .refl ..
    | edit active f => exact confined_storage (Engine.confined_edit (hcell reads _ active) f)
    | refuse err => exact .refl ..

end Session

/-! ### Worlds -/

namespace World

/-- What a client's statement leaves as it was. -/
structure Confined (w : World) (client : Nat) (text : String) (w' : World) : Prop where
  /-- The selections of all other clients. -/
  selections : ∀ i, i ≠ client → w'.session i = w.session i
  /-- Every database but the one that the client has selected. -/
  others : w.engine.Confined ((w.session client).active.map (·.cell))
    (Session.flushed? text (w.session client)) w'.engine
  /-- Every database, that one included, if the statement only asks. -/
  reads : (∀ st, Statement.parse text = .ok st → st.Reads) →
    w.engine.Confined none (Session.flushed? text (w.session client)) w'.engine
  /-- The catalog, once it is open. -/
  catalog : ∀ h, w.interpreter.catalog = some h → w'.interpreter.catalog = some h

/-- **Statements stay inside their database**: in every world, a client's statement that neither
creates nor drops a database changes no other database than the one that the client has selected, no
selection of another client, and no database at all if it only asks. What is left out is the
snapshot of the selected database, which `INIT` flushes, and a catalog that was missing. -/
theorem confined_of_statement [PatternCompiler] {w : World} {client : Nat} {text : String}
    (create : ∀ name parameters,
      Statement.parse text ≠ .ok (.create .database name parameters))
    (drop : ∀ name, Statement.parse text ≠ .ok (.drop .database name)) :
    w.Confined client text (w.after (.statement client text)) := by
  have selections : ∀ i, i ≠ client → (w.after (.statement client text)).session i = w.session i :=
    fun i hi => if_neg hi
  cases hparse : Statement.parse text with
  | error cause =>
    have hafter : w.after (.statement client text) = w := by
      rw [after, afterAct, exec_execute_of_error hparse, withView_view]
    rw [hafter] at selections ⊢
    exact ⟨selections, .refl .., fun _ => .refl .., fun _ h => h⟩
  | ok st =>
    have create' : ∀ n, st ≠ .create .database n none := fun n h => create n none (h ▸ hparse)
    have drop' : ∀ n, st ≠ .drop .database (some n) := fun n h => drop (some n) (h ▸ hparse)
    have hflushed : Session.flushed? text (w.session client) =
        Session.flushedBy (w.session client) st := by
      unfold Session.flushed?
      rw [hparse]
      cases st <;> rfl
    have hengine : ∀ cell, (¬st.Reads → ∀ h, (w.session client).active = some h →
        cell = some h.cell) → Session.Confined cell (Session.flushedBy (w.session client) st)
          (w.view client) (exec (Session.execute text) (w.view client)).2 := by
      intro cell hcell
      rw [exec_execute hparse]
      exact Session.confined_dispatch (p := w.view client) create' drop' hcell
    have hothers := hengine ((w.session client).active.map (·.cell)) fun _ h hh => by rw [hh]; rfl
    refine ⟨selections, hflushed ▸ hothers.engine, fun reads => ?_, hothers.catalog⟩
    exact hflushed ▸ (hengine none fun hne => absurd (reads st hparse) hne).engine

/-- Two clients with a database each: what the first one inserts is in its own database. -/
theorem confined_of_insert :
    let w := (start (Engine.new (some ["home"]) Folder.empty Timestamp.epoch)).run
      [.statement 0 "CREATE DATABASE a", .statement 0 "CREATE DATABASE b", .statement 0 "INIT a",
        .statement 0 "CREATE TABLE t (x)", .statement 1 "INIT b"]
    let w' := w.after (.statement 0 "INSERT INTO t VALUES ('1')")
    w'.engine.states ≠ w.engine.states ∧ w.Confined 0 "INSERT INTO t VALUES ('1')" w' := by
  intro w w'
  have hparse : Statement.parse "INSERT INTO t VALUES ('1')" =
      .ok (.insert "t" none (.clause "'1'")) := by decide +kernel
  refine ⟨by decide +kernel, confined_of_statement ?_ ?_⟩ <;> rw [hparse] <;> simp

end World

end Tabular
