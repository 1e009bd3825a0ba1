import Tabular.Proofs.Database.Integrity
import Tabular.Proofs.Engine.Snapshots
import Tabular.Proofs.Session.Dispatch
import Tabular.Proofs.Session.World
import Tabular.Proofs.Statement.Names
import Tabular.Proofs.Wire.Snapshot

/-!
The databases that statements lead to.

A property of the tables of a database is `Lasting` if a new database has it and every change that a
statement can make keeps it. Databases do not only change in memory: they are written to snapshots,
forgotten, and loaded again. `Engine.Carries` therefore asks for the property in memory and in every
file that can be read as a snapshot; every operation of the engine, every statement and every step
of a world keeps it, whether it succeeds or fails.

* `World.carries_run`: a lasting property holds throughout every run.
* `Database.Reachable.of_lasting`: it holds of every reachable database.
* `Database.Reachable.proper`: every table of a reachable database is sound, and its name is a word.
* `Database.Arises.soundTables`: tables are sound also where they are changed without statements.
-/

namespace Tabular

/-! ### Changes -/

namespace TableChange

/-- A change that a statement can make: a table that it creates is named as tables are. -/
def Stated : TableChange → Prop
  | .create spec => TableName spec.name
  | _ => True

end TableChange

namespace TableSpec

theorem name_of_addEntry {spec spec' : TableSpec} {entry : String}
    (h : spec.addEntry entry = .ok spec') : spec'.name = spec.name := by
  unfold addEntry at h
  split at h
  · split at h
    · exact nomatch h
    · exact Except.ok.inj h ▸ rfl
  · dsimp only at h
    split at h <;> exact Except.ok.inj h ▸ rfl

theorem name_of_foldlM {entries : List String} {start spec : TableSpec}
    (h : entries.foldlM addEntry start = .ok spec) : spec.name = start.name := by
  induction entries generalizing start with
  | nil => exact Except.ok.inj h ▸ rfl
  | cons entry entries ih =>
    rw [List.foldlM_cons] at h
    obtain ⟨next, hnext, hrest⟩ := Result.bind_eq_ok_iff.1 h
    exact (ih hrest).trans (name_of_addEntry hnext)

/-- A specification has the name that its statement gives. -/
theorem name_of_ofParameters {name parameters : String} {spec : TableSpec}
    (h : ofParameters name parameters = .ok spec) : spec.name = name :=
  name_of_foldlM h

end TableSpec

/-- A property of the tables of databases that a new database has and every change that a statement
can make keeps. -/
structure Database.Lasting [PatternCompiler] (I : Keyed Table → Prop) : Prop where
  empty : I Keyed.empty
  change : ∀ change : TableChange, change.Stated → ∀ db outcome db', I db.tables →
    change.apply db = .ok (outcome, db') → I db'.tables

/-! ### Engines -/

namespace Engine

variable {α β : Type} {I : Keyed Table → Prop} {e : Engine}

/-- A property of tables holds in memory and in every file that can be read as a snapshot. -/
structure Carries (I : Keyed Table → Prop) (e : Engine) : Prop where
  states : ∀ db ∈ e.states, I db.tables
  files : ∀ q text db, e.folder.fileAt? q = some text → Database.ofSnapshot? text = some db →
    I db.tables

/-- An operation of the engine keeps a property of tables. -/
def Maintains (I : Keyed Table → Prop) (act : EngineM α) : Prop :=
  Ensures (Carries I) act (fun _ => Carries I) fun _ => Carries I

/-- Nothing is in memory and nothing in the folder. -/
theorem carries_new (I : Keyed Table → Prop) (dataDir : Option Route) (clock : Timestamp) :
    Carries I (Engine.new dataDir Folder.empty clock) := by
  refine ⟨by simp [Engine.new], fun q text db hfile => ?_⟩
  have hentry := Folder.fileAt?_eq_some_iff.1 hfile
  by_cases hq : q = []
  · simp [hq] at hentry
  · rw [Folder.entryAt?_of_ne_nil hq] at hentry
    cases hentry

/-- The next process finds what the folder holds. -/
theorem Carries.new (h : Carries I e) (dataDir : Option Route) (clock : Timestamp) :
    Carries I (Engine.new dataDir e.folder clock) :=
  ⟨by simp [Engine.new], h.files⟩

theorem Carries.databaseOf [PatternCompiler] (lasting : Database.Lasting I) (h : Carries I e)
    (handle : Handle) :
    I (e.databaseOf handle).tables := by
  unfold Engine.databaseOf Engine.state
  cases hs : e.states[handle.cell]? with
  | none => exact lasting.empty
  | some db => exact h.states db (List.mem_of_getElem? hs)

/-- A folder in which every file is one of the folder before, or holds a database with the property.
-/
theorem Carries.folder (h : Carries I e) {folder : Folder}
    (files : ∀ q text, folder.fileAt? q = some text → e.folder.fileAt? q = some text ∨
      ∀ db, Database.ofSnapshot? text = some db → I db.tables) :
    Carries I { e with folder } where
  states := h.states
  files := fun q text db hfile hdb =>
    (files q text hfile).elim (fun hold => h.files q text db hold hdb) fun hnew => hnew db hdb

theorem Carries.registered (h : Carries I e) {db : Database} (hdb : I db.tables) (scope : Scope)
    (name : String) : Carries I (e.registered scope name db) where
  states := by
    intro db' hdb'
    obtain hold | rfl := List.mem_append.1 hdb' |>.imp_right List.mem_singleton.1
    · exact h.states db' hold
    · exact hdb
  files := h.files

/-- What the folder holds under a name was read from a file. -/
theorem Carries.stored (h : Carries I e) {scope : Scope} {name : String} {db : Database}
    (hstored : e.stored scope name = .ok (some db)) : I db.tables := by
  cases hdir : e.dataDir with
  | none => simp [Engine.stored, snapshotRoute?, hdir] at hstored
  | some dir =>
    rw [stored_eq hdir] at hstored
    rcases hstat : e.folder.stat (snapshotIn dir scope name) with kind | text | _ <;>
      rw [hstat] at hstored
    · cases kind <;> simp at hstored
    · dsimp only at hstored
      cases hread : Database.ofSnapshot? text with
      | none => simp [hread] at hstored
      | some db' =>
        rw [hread] at hstored
        obtain rfl : db' = db := Option.some.inj (Except.ok.inj hstored)
        exact h.files _ text db' (file?_of_stat hstat) hread
    · cases hstored

theorem maintains_of_exec {act : EngineM α} (h : ∀ e, Carries I e → Carries I (exec act e).2) :
    Maintains I act :=
  Ensures.always_iff.2 h

theorem Maintains.exec {act : EngineM α} (maintains : Maintains I act) (h : Carries I e) :
    Carries I (exec act e).2 :=
  Ensures.always_iff.1 maintains e h

theorem Maintains.bind {act : EngineM α} {f : α → EngineM β} (maintains : Maintains I act)
    (hf : ∀ a, Maintains I (f a)) : Maintains I (act >>= f) :=
  Ensures.bind maintains hf

theorem Maintains.pure (a : α) : Maintains I (pure a : EngineM α) :=
  Ensures.pure fun _ h => h

theorem Maintains.throw (err : StorageError) : Maintains I (throw err : EngineM α) :=
  Ensures.throw fun _ h => h

/-! ### The operations of the engine -/

theorem maintains_load (scope : Scope) (name : String) : Maintains I (load scope name) := by
  refine maintains_of_exec fun e h => ?_
  rw [exec_load]
  cases e.live.get? scope name with
  | some cell => exact h
  | none =>
    rcases hstored : e.stored scope name with err | _ | db
    · exact h
    · exact h
    · exact h.registered (h.stored hstored) scope name

theorem maintains_open (scope : Scope) (name : String) : Maintains I (Engine.open scope name) :=
  (maintains_load scope name).bind fun _ => .pure _

variable [PatternCompiler] (lasting : Database.Lasting I)

include lasting

/-- What is written is the snapshot of a database in memory. -/
theorem maintains_save (handle : Handle) : Maintains I (save handle) := by
  refine maintains_of_exec fun e h => ?_
  cases hdir : e.dataDir with
  | none =>
    have hsave : exec (save handle) e = (.ok (), e) := by simp [exec_save, snapshotRoute?, hdir]
    rw [hsave]
    exact h
  | some dir =>
    obtain ⟨made, written, hmade, hwritten, hexec⟩ | ⟨kind, folder, hexec, -, hfiles⟩ :=
      exec_save_cases hdir handle <;> rw [hexec]
    · refine h.folder fun q text hfile => ?_
      by_cases hq : q = []
      · simp [Folder.fileAt?_eq_some_iff, hq] at hfile
      · rw [Folder.fileAt?_write hwritten hq] at hfile
        split at hfile
        · obtain rfl := Option.some.inj hfile
          refine .inr fun db hdb => ?_
          rw [Database.tables_of_snapshot hdb]
          exact h.databaseOf lasting handle
        · rw [(Folder.makeDirectories_spec hmade).2] at hfile
          exact .inl hfile
    · exact h.folder fun q text hfile => .inl (hfiles q ▸ hfile)

theorem maintains_createDatabase (scope : Scope) (name : String) :
    Maintains I (createDatabase scope name) := by
  refine maintains_of_exec fun e h => ?_
  have hload := (maintains_load scope name).exec h
  rw [exec_createDatabase]
  rcases hl : exec (load scope name) e with ⟨err | _ | c, e₁⟩ <;> rw [hl] at hload
  · exact hload
  · have hnew : I (Database.new e₁.clock).tables := lasting.empty
    have hsave := (maintains_save lasting { scope, name, cell := e₁.states.length }).exec
      (hload.registered hnew scope name)
    dsimp only
    rcases hs : exec (save { scope, name, cell := e₁.states.length })
      (e₁.registered scope name (Database.new e₁.clock)) with ⟨_ | _, e₂⟩ <;> rw [hs] at hsave <;>
      exact hsave
  · exact hload

omit [PatternCompiler] lasting in
theorem maintains_dropDatabase (scope : Scope) (name : String) :
    Maintains I (dropDatabase scope name) := by
  refine maintains_of_exec fun e h => ?_
  have forgotten : Carries I (e.forgotten scope name) := ⟨h.states, h.files⟩
  suffices hremove : Carries I (exec (removeSnapshot scope name) (e.forgotten scope name)).2 by
    rw [exec_dropDatabase]
    rcases hr : exec (removeSnapshot scope name) (e.forgotten scope name) with ⟨_ | deleted, e₁⟩ <;>
      rw [hr] at hremove
    · exact hremove
    · dsimp only
      split <;> exact hremove
  cases hdir : (e.forgotten scope name).dataDir with
  | none =>
    have hremove : exec (removeSnapshot scope name) (e.forgotten scope name) =
        (.ok false, e.forgotten scope name) := by
      simp [exec_removeSnapshot, snapshotRoute?, hdir]
    rw [hremove]
    exact forgotten
  | some dir =>
    obtain ⟨-, hexec⟩ | ⟨folder, hremove, hexec⟩ | ⟨kind, hexec⟩ :=
      exec_removeSnapshot_cases hdir scope name <;> rw [hexec]
    · exact forgotten
    · refine forgotten.folder fun q text hfile => .inl ?_
      by_cases hq : q = []
      · simp [Folder.fileAt?_eq_some_iff, hq] at hfile
      · rw [Folder.fileAt?_remove hremove hq] at hfile
        split at hfile
        · cases hfile
        · exact hfile
    · exact forgotten

/-- A change that keeps a property of tables may be made through any handle. -/
theorem maintains_change (change : TableChange)
    (keeps : ∀ db outcome db', I db.tables → change.apply db = .ok (outcome, db') → I db'.tables)
    (handle : Handle) : Maintains I (change.through handle) := by
  refine maintains_of_exec fun e h => ?_
  rw [TableChange.through_eq, exec_edit]
  rcases hc : change.apply (e.databaseOf handle) with err | ⟨outcome, db⟩
  · exact h
  · refine ⟨fun db' hdb' => ?_, h.files⟩
    rcases List.mem_or_eq_of_mem_set hdb' with hold | rfl
    · exact h.states db' hold
    · exact keeps _ outcome db' (h.databaseOf lasting handle) hc

theorem maintains_through (change : TableChange) (stated : change.Stated) (handle : Handle) :
    Maintains I (change.through handle) :=
  maintains_change lasting change (lasting.change change stated) handle

theorem maintains_openCatalog : Maintains I Catalog.open := by
  have stated : (TableChange.create Catalog.spec).Stated := by
    constructor <;> decide +kernel
  refine (maintains_open .system Catalog.database).bind ?_
  rintro (_ | c)
  · refine (maintains_createDatabase lasting .system Catalog.database).bind fun _ =>
      (maintains_open .system Catalog.database).bind ?_
    rintro (_ | c)
    · exact .throw _
    · exact (maintains_through lasting _ stated c).bind fun _ => .pure c
  · exact .pure c

end Engine

/-! ### Sessions -/

namespace Session

variable {α β : Type} {I : Keyed Table → Prop}

/-- An operation of a session keeps a property of tables. -/
def Maintains (I : Keyed Table → Prop) (act : SessionM α) : Prop :=
  Ensures (fun p => Engine.Carries I p.1.engine) act (fun _ p => Engine.Carries I p.1.engine)
    fun _ p => Engine.Carries I p.1.engine

theorem Maintains.bind {act : SessionM α} {f : α → SessionM β} (maintains : Maintains I act)
    (hf : ∀ a, Maintains I (f a)) : Maintains I (act >>= f) :=
  Ensures.bind maintains hf

theorem Maintains.pure (a : α) : Maintains I (pure a : SessionM α) :=
  Ensures.pure fun _ h => h

theorem Maintains.throw (err : Error) : Maintains I (throw err : SessionM α) :=
  Ensures.throw fun _ h => h

theorem maintains_storage {act : EngineM α} (maintains : Engine.Maintains I act) :
    Maintains I (storage act) := by
  refine Ensures.always_iff.2 fun p h => ?_
  rw [exec_storage_snd]
  exact maintains.exec h

/-- Asking a database changes nothing. -/
theorem maintains_query (h : Handle) (f : Database → Except StorageError α) :
    Maintains I (storage (Engine.query h f)) :=
  maintains_storage (Engine.maintains_of_exec fun e he => by rwa [Engine.exec_query])

theorem maintains_requireActive : Maintains I requireActive := by
  intro p h
  rw [exec_requireActive]
  cases p.2.active <;> exact h

theorem maintains_requirePart (part : Missing) (a? : Option α) :
    Maintains I (requirePart part a?) := by
  cases a? with
  | none => exact .throw _
  | some a => exact .pure a

/-- A request that is used was made. -/
theorem maintains_require {made : Except Error α} {f : α → SessionM β}
    (hf : ∀ a, made = .ok a → Maintains I (f a)) : Maintains I (require made >>= f) := by
  intro p h
  cases made with
  | error err =>
    rw [exec_bind, exec_require_error]
    exact h
  | ok a =>
    rw [exec_bind, exec_require_ok]
    exact hf a rfl p h

variable [PatternCompiler] (lasting : Database.Lasting I)

include lasting

theorem maintains_catalog : Maintains I catalog := by
  refine ensures_catalog (fun p h hp _ => hp) (fun p h e hp _ hopen => ?_)
    fun p err e hp _ hopen => ?_ <;>
    have hcatalog := (Engine.maintains_openCatalog lasting).exec hp <;> rw [hopen] at hcatalog <;>
    exact hcatalog

theorem maintains_saveActive : Maintains I saveActive :=
  ensures_saveActive (fun _ hp _ => hp) fun h =>
    Ensures.mono_pre (maintains_storage (Engine.maintains_save lasting h)) fun _ hp => hp.1

theorem maintains_save : Maintains I save :=
  (maintains_saveActive lasting).bind fun _ => (maintains_catalog lasting).bind fun c =>
    maintains_storage (Engine.maintains_save lasting c)

theorem maintains_through (change : TableChange) (stated : change.Stated) (h : Handle) :
    Maintains I (storage (change.through h)) :=
  maintains_storage (Engine.maintains_through lasting change stated h)

theorem maintains_select (name : String) : Maintains I (select name) := by
  refine (maintains_saveActive lasting).bind fun _ => Maintains.bind
    (maintains_storage (Engine.maintains_open .data name)) ?_
  rintro (_ | h)
  · exact .throw _
  · exact Maintains.bind (Ensures.modify fun _ hp => hp) fun _ => .pure _

theorem maintains_createDatabase (name : String) : Maintains I (createDatabase name) := by
  refine (maintains_catalog lasting).bind fun c => Maintains.bind ?_ fun _ => ?_
  · exact maintains_through lasting (.insert (Catalog.entry name)) trivial c
  · exact maintains_storage (Engine.maintains_createDatabase lasting .data name)

theorem maintains_dropDatabase (name : String) : Maintains I (dropDatabase name) := by
  refine (maintains_catalog lasting).bind fun c => Maintains.bind ?_ fun _ => Maintains.bind ?_ ?_
  · exact maintains_through lasting (.delete (Catalog.having .eq name)) trivial c
  · exact maintains_storage (Engine.maintains_dropDatabase .data name)
  · exact fun outcome => ensures_forget name outcome fun _ hp => hp

omit [PatternCompiler] lasting in
theorem maintains_describeDatabase (name : String) :
    Maintains I (do
      let active := (← get).2.active
      storage (Engine.describeDatabase active name)) := by
  refine Ensures.get_bind fun p hp => Ensures.mono_pre (maintains_storage (Engine.maintains_of_exec
    fun e he => ?_)) fun q hq => hq ▸ hp
  rcases Engine.exec_describeDatabase_snd p.2.active name e with h | h <;> rw [h]
  · exact he
  · exact (Engine.maintains_load .data name).exec he

/-- **Whatever a statement says, it keeps every lasting property of tables.** -/
theorem maintains_dispatch {st : Statement} (named : st.Named) : Maintains I (dispatch st) := by
  cases st with
  | init name => exact maintains_select lasting name
  | «show» pattern => exact (maintains_catalog lasting).bind fun c => maintains_query c _
  | create kind name parameters =>
    cases kind with
    | database =>
      cases parameters with
      | none => exact maintains_createDatabase lasting name
      | some parameters => exact .throw _
    | table =>
      refine maintains_requireActive.bind fun h => (maintains_requirePart _ _).bind fun _ =>
        maintains_require fun spec hspec => maintains_through lasting (.create spec) ?_ h
      rw [TableChange.Stated, TableSpec.name_of_ofParameters hspec]
      exact named.created name _ rfl
  | insert table columns values =>
    exact maintains_requireActive.bind fun h => maintains_require fun spec _ =>
      maintains_through lasting (.insert spec) trivial h
  | find search =>
    exact maintains_requireActive.bind fun h => maintains_require fun q _ => maintains_query h _
  | describe kind name =>
    refine (maintains_requirePart _ _).bind fun name => ?_
    cases kind with
    | table => exact maintains_requireActive.bind fun h => maintains_query h _
    | database => exact maintains_describeDatabase name
  | drop kind name =>
    cases kind with
    | database =>
      exact (maintains_requirePart _ _).bind fun name => maintains_dropDatabase lasting name
    | table =>
      exact maintains_requireActive.bind fun h => (maintains_requirePart _ _).bind fun name =>
        maintains_through lasting (.drop name) trivial h
  | delete table filter =>
    exact maintains_requireActive.bind fun h => maintains_require fun q _ =>
      maintains_through lasting (.delete q) trivial h
  | update table assignments filter =>
    exact maintains_requireActive.bind fun h => maintains_require fun q _ =>
      maintains_through lasting (.update q) trivial h

end Session

/-! ### Worlds -/

namespace World

variable {I : Keyed Table → Prop} {w : World}

/-- One step keeps a lasting property. -/
theorem carries_after [PatternCompiler] (lasting : Database.Lasting I)
    (h : Engine.Carries I w.engine) (step : Step) :
    Engine.Carries I (w.after step).engine := by
  cases step with
  | restart clock => exact h.new w.engine.dataDir clock
  | save client => exact Ensures.always_iff.1 (Session.maintains_save lasting) (w.view client) h
  | statement client text =>
    cases hparse : Statement.parse text with
    | error cause =>
      rw [after, afterAct, exec_execute_of_error hparse]
      exact h
    | ok st =>
      rw [after, afterAct, exec_execute hparse]
      exact Ensures.always_iff.1
        (Session.maintains_dispatch lasting (Statement.named_of_parse hparse)) (w.view client) h

/-- **A lasting property holds throughout every run.** -/
theorem carries_run [PatternCompiler] (lasting : Database.Lasting I) (h : Engine.Carries I w.engine)
    (steps : List Step) : Engine.Carries I (w.run steps).engine := by
  induction steps generalizing w with
  | nil => exact h
  | cons step steps ih => exact ih (carries_after lasting h step)

end World

/-! ### Reachable databases -/

namespace Database

/-- A database that statements lead to: it is in memory after some run of statements, savings and
restarts that starts with an empty folder. -/
def Reachable [PatternCompiler] (db : Database) : Prop :=
  ∃ dataDir clock steps,
    db ∈ ((World.start (Engine.new dataDir Folder.empty clock)).run steps).engine.states

variable {db : Database}

theorem Reachable.of_lasting [PatternCompiler] {I : Keyed Table → Prop} (lasting : Lasting I)
    (reachable : db.Reachable) : I db.tables := by
  obtain ⟨dataDir, clock, steps, hdb⟩ := reachable
  have hstart := Engine.carries_new I dataDir clock
  exact (World.carries_run (w := World.start _) lasting hstart steps).states db hdb

/-- Tables as statements make them: each is sound, and its name is a word. -/
structure Proper (tables : Keyed Table) : Prop where
  sound : ∀ name t, tables.get? name = some t → t.Sound
  named : ∀ name t, tables.get? name = some t → TableName name

theorem Proper.soundTables {db : Database} (h : Proper db.tables) : db.SoundTables :=
  h.sound

theorem Proper.setTable {db : Database} (h : Proper db.tables) {name : String} {t : Table}
    (sound : t.Sound) (named : TableName name) : Proper (db.setTable name t).tables where
  sound := h.soundTables.setTable sound name
  named := by
    intro n s hs
    simp only [Database.setTable, Keyed.get?_insert] at hs
    split at hs
    · next heq => exact heq ▸ named
    · exact h.named n s hs

/-- A table that is found is sound, and its name is a word. -/
theorem Proper.table {db : Database} (h : Proper db.tables) {name : String} {t : Table}
    (ht : db.table name = .ok t) : t.Sound ∧ TableName name := by
  have hget : db.tables.get? name = some t := by
    unfold Database.table at ht
    split at ht
    · next s hs => rw [hs, Except.ok.inj ht]
    · exact nomatch ht
  exact ⟨h.sound name t hget, h.named name t hget⟩

theorem lasting_proper [PatternCompiler] : Lasting Proper where
  empty := ⟨by simp, by simp⟩
  change := by
    intro change stated db outcome db' h hc
    cases change with
    | create spec =>
      obtain ⟨db₁, hcreate, hpair⟩ := Result.bind_eq_ok_iff.1 hc
      obtain rfl := (Prod.mk.inj (Result.pure_eq_ok_iff.1 hpair)).2
      unfold createTable at hcreate
      split at hcreate
      · exact nomatch hcreate
      · exact Except.ok.inj hcreate ▸ h.setTable (Table.ofSpec_sound spec) stated
    | drop name =>
      obtain ⟨db₁, hdrop, hpair⟩ := Result.bind_eq_ok_iff.1 hc
      obtain rfl := (Prod.mk.inj (Result.pure_eq_ok_iff.1 hpair)).2
      refine ⟨h.soundTables.dropTable hdrop, fun n t ht => ?_⟩
      unfold dropTable at hdrop
      split at hdrop
      · rw [← Except.ok.inj hdrop, Keyed.get?_erase] at ht
        split at ht
        · exact nomatch ht
        · exact h.named n t ht
      · exact nomatch hdrop
    | insert spec =>
      simp only [TableChange.apply, Database.insert, Result.bind_eq_ok_iff, Result.pure_eq_ok_iff,
        Prod.mk.injEq] at hc
      obtain ⟨_, ⟨t, ht, t', hinsert, rfl⟩, -, rfl⟩ := hc
      obtain ⟨sound, named⟩ := h.table ht
      exact h.setTable (Table.insert_sound sound hinsert) named
    | update q =>
      simp only [TableChange.apply, Database.update, Result.bind_eq_ok_iff, Result.pure_eq_ok_iff,
        Prod.exists, Prod.mk.injEq] at hc
      obtain ⟨_, _, ⟨t, ht, _, t', hupdate, -, rfl⟩, -, rfl⟩ := hc
      obtain ⟨sound, named⟩ := h.table ht
      exact h.setTable (Table.update_sound sound hupdate) named
    | delete q =>
      simp only [TableChange.apply, Database.delete, Result.bind_eq_ok_iff, Result.pure_eq_ok_iff,
        Prod.exists, Prod.mk.injEq] at hc
      obtain ⟨_, _, ⟨t, ht, _, t', hdelete, -, rfl⟩, -, rfl⟩ := hc
      obtain ⟨sound, named⟩ := h.table ht
      exact h.setTable (Table.delete_sound sound hdelete) named

/-- **Every table of a reachable database is sound, and its name is a word.** -/
theorem Reachable.proper [PatternCompiler] (reachable : db.Reachable) : Proper db.tables :=
  reachable.of_lasting lasting_proper

end Database

/-! ### Databases that changes through handles lead to as well -/

namespace World

variable [PatternCompiler]

/-- The world after a change of tables that is made through a handle and not by a statement. -/
def changed (w : World) (handle : Handle) (change : TableChange) : World :=
  { w with
    interpreter := { w.interpreter with engine := (exec (change.through handle) w.engine).2 } }

/-- A world that comes about: a process starts over an empty folder, clients take steps, and tables
are changed through handles besides. -/
inductive Arises : World → Prop where
  | start (dataDir : Option Route) (clock : Timestamp) :
    Arises (start (Engine.new dataDir Folder.empty clock))
  | step {w : World} (arises : Arises w) (step : Step) : Arises (w.after step)
  | change {w : World} (arises : Arises w) (handle : Handle) (change : TableChange) :
    Arises (w.changed handle change)

theorem Arises.run {w : World} (arises : w.Arises) (steps : List Step) : (w.run steps).Arises := by
  induction steps generalizing w with
  | nil => exact arises
  | cons step steps ih => exact ih (arises.step step)

end World

namespace Database

variable [PatternCompiler]

/-- A database that is in memory in a world that comes about. -/
def Arises (db : Database) : Prop :=
  ∃ w : World, w.Arises ∧ db ∈ w.engine.states

theorem Reachable.arises {db : Database} (reachable : db.Reachable) : db.Arises := by
  obtain ⟨dataDir, clock, steps, hdb⟩ := reachable
  exact ⟨_, (World.Arises.start dataDir clock).run steps, hdb⟩

/-- Every table among these is sound. -/
def Sound (tables : Keyed Table) : Prop :=
  ∀ name t, tables.get? name = some t → t.Sound

theorem lasting_sound : Lasting Sound where
  empty := by simp [Sound]
  change := fun change _ => change.soundTables_of_apply

/-- **Every table that comes about is sound**, through statements or without them. -/
theorem Arises.soundTables {db : Database} (arises : db.Arises) : db.SoundTables := by
  obtain ⟨w, hw, hdb⟩ := arises
  suffices carries : Engine.Carries Sound w.engine from carries.states db hdb
  clear hdb
  induction hw with
  | start dataDir clock => exact Engine.carries_new Sound dataDir clock
  | step _ step ih => exact World.carries_after lasting_sound ih step
  | change _ handle change ih =>
    exact (Engine.maintains_change lasting_sound change change.soundTables_of_apply handle).exec ih

end Database

end Tabular
