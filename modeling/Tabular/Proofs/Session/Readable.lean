import Tabular.Proofs.Session.Settled

/-!
Snapshots that can be read.

A snapshot can be read again where the database in it was created at a valid time. Every database in
memory has such a time: it was loaded from a snapshot, or it was created at the time of the clock,
and no change of its tables touches the time. So whatever the clients do, every snapshot of the
users' databases can be read (`World.readable_after`), also where the file system fails in between.
-/

namespace Tabular

/-! ### Engines -/

namespace Engine

variable {dir : Route} {scope : Scope} {name : String} {e : Engine}

/-- Every database in memory was created at a valid time, and every snapshot of a database of the
users can be read. -/
structure Readable (dir : Route) (e : Engine) : Prop where
  dataDir : e.dataDir = some dir
  clock : e.clock.isValid = true
  states : ∀ db ∈ e.states, db.createdAt.isValid = true
  files : ∀ name text, PlainName name → e.file? dir .data name = some text →
    ∃ db, Database.ofSnapshot? text = some db

/-- A new process finds the snapshots that the folder holds. -/
theorem Readable.new (readable : Readable dir e) {clock : Timestamp}
    (valid : clock.isValid = true) : Readable dir (Engine.new (some dir) e.folder clock) where
  dataDir := rfl
  clock := valid
  states := by simp [Engine.new]
  files := readable.files

theorem Readable.state (readable : Readable dir e) (cell : Nat) :
    (e.state cell).createdAt.isValid = true := by
  unfold Engine.state
  cases hdb : e.states[cell]? with
  | none => exact readable.clock
  | some db => exact readable.states db (List.mem_of_getElem? hdb)

/-- A snapshot that the folder holds can be loaded. -/
theorem Readable.exists_stored (readable : Readable dir e) (plain : PlainName name)
    (stored : Stored dir name e) : ∃ db, e.stored .data name = .ok (some db) := by
  obtain ⟨text, hstat⟩ := stored
  obtain ⟨db, hdb⟩ := readable.files name text plain (file?_of_stat hstat)
  refine ⟨db, ?_⟩
  rw [stored_eq readable.dataDir, hstat]
  dsimp only
  rw [hdb]

/-- In another folder, every snapshot that is not what it was can be read. -/
theorem Readable.folder (readable : Readable dir e) {folder : Folder}
    (files : ∀ name text, PlainName name →
      folder.fileAt? (snapshotIn dir .data name).path = some text →
        e.file? dir .data name = some text ∨ ∃ db, Database.ofSnapshot? text = some db) :
    Readable dir { e with folder } where
  dataDir := readable.dataDir
  clock := readable.clock
  states := readable.states
  files := fun name text plain hfile =>
    (files name text plain hfile).elim (readable.files name text plain) id

theorem Readable.registered (readable : Readable dir e) {db : Database}
    (valid : db.createdAt.isValid = true) (scope : Scope) (name : String) :
    Readable dir (e.registered scope name db) where
  dataDir := readable.dataDir
  clock := readable.clock
  states := by
    intro db' hdb'
    obtain hold | rfl := List.mem_append.1 hdb' |>.imp_right List.mem_singleton.1
    · exact readable.states db' hold
    · exact valid
  files := readable.files

theorem readable_load (readable : Readable dir e) (scope : Scope) (name : String) :
    Readable dir (exec (load scope name) e).2 := by
  rw [exec_load]
  cases e.live.get? scope name with
  | some cell => exact readable
  | none =>
    rcases hstored : e.stored scope name with err | _ | db
    · exact readable
    · exact readable
    · exact readable.registered (createdAt_valid_of_stored hstored) scope name

theorem readable_save (readable : Readable dir e) (h : Handle) :
    Readable dir (exec (save h) e).2 := by
  obtain ⟨made, written, hmade, hwritten, hexec⟩ | ⟨kind, folder, hexec, -, hfiles⟩ :=
    exec_save_cases readable.dataDir h <;> rw [hexec]
  · refine readable.folder fun name text plain hfile => ?_
    rw [Folder.fileAt?_write hwritten (path_snapshotIn_ne_nil plain)] at hfile
    split at hfile
    · obtain rfl := Option.some.inj hfile
      exact .inr ⟨_, Database.ofSnapshot?_snapshot (readable.state h.cell)⟩
    · rw [(Folder.makeDirectories_spec hmade).2] at hfile
      exact .inl hfile
  · refine readable.folder fun name text _ hfile => .inl ?_
    rw [hfiles] at hfile
    exact hfile

theorem readable_createDatabase (readable : Readable dir e) (scope : Scope) (name : String) :
    Readable dir (exec (createDatabase scope name) e).2 := by
  have hload := readable_load readable scope name
  rw [exec_createDatabase]
  rcases hl : exec (load scope name) e with ⟨err | _ | c, e₁⟩ <;> rw [hl] at hload
  · exact hload
  · have hnew : (Database.new e₁.clock).createdAt.isValid = true := hload.clock
    have hsave := readable_save (hload.registered hnew scope name)
      { scope, name, cell := e₁.states.length }
    dsimp only
    rcases hs : exec (save { scope, name, cell := e₁.states.length })
      (e₁.registered scope name (Database.new e₁.clock)) with ⟨_ | _, e₂⟩ <;> rw [hs] at hsave <;>
      exact hsave
  · exact hload

theorem readable_dropDatabase (readable : Readable dir e) (scope : Scope) (name : String) :
    Readable dir (exec (dropDatabase scope name) e).2 := by
  have forgotten : Readable dir (e.forgotten scope name) :=
    ⟨readable.dataDir, readable.clock, readable.states, readable.files⟩
  suffices h : Readable dir (exec (removeSnapshot scope name) (e.forgotten scope name)).2 by
    rw [exec_dropDatabase]
    rcases hr : exec (removeSnapshot scope name) (e.forgotten scope name) with ⟨_ | deleted, e₁⟩ <;>
      rw [hr] at h
    · exact h
    · dsimp only
      split <;> exact h
  obtain ⟨-, hexec⟩ | ⟨folder, hremove, hexec⟩ | ⟨kind, hexec⟩ :=
    exec_removeSnapshot_cases forgotten.dataDir scope name <;> rw [hexec]
  · exact forgotten
  · refine forgotten.folder fun n text plain hfile => .inl ?_
    rw [Folder.fileAt?_remove hremove (path_snapshotIn_ne_nil plain)] at hfile
    split at hfile
    · exact nomatch hfile
    · exact hfile
  · exact forgotten

theorem readable_edit {α : Type} (readable : Readable dir e) (h : Handle)
    {f : Database → Except StorageError (α × Database)} (keeps : Database.KeepsCreation f) :
    Readable dir (exec (edit h f) e).2 := by
  rw [exec_edit]
  rcases hf : f (e.databaseOf h) with err | ⟨a, db⟩
  · exact readable
  · refine ⟨readable.dataDir, readable.clock, fun db' hdb' => ?_, readable.files⟩
    rcases List.mem_or_eq_of_mem_set hdb' with hold | rfl
    · exact readable.states db' hold
    · rw [keeps _ a db' hf]
      exact readable.state h.cell

/-- Also where the catalog is created, no snapshot of a database of the users is touched. -/
theorem readable_openCatalog (readable : Readable dir e) :
    Readable dir (exec Catalog.open e).2 := by
  have hopening := Catalog.opening e
  rcases hopen : exec Catalog.open e with ⟨r, e'⟩
  rw [hopen] at hopening
  cases hopening with
  | inMemory hlive => exact readable
  | unreadable hlive hstored => exact readable
  | inFolder hlive hstored =>
    exact readable.registered (createdAt_valid_of_stored hstored) .system Catalog.database
  | @created _ db folder hlive hstored isNew flushed hr =>
    have valid : db.createdAt.isValid = true := by
      rcases isNew with rfl | rfl <;> exact readable.clock
    have hfolder : Readable dir { e with folder } := readable.folder fun name text plain hfile => by
      refine .inl (.trans (Decidable.byContradiction fun hne => ?_) hfile)
      have hpath := flushed.files _ fun h => hne h.symm
      exact nomatch (isSnapshotPath_injective plain Session.plainName_catalog
        ⟨dir, readable.dataDir, rfl⟩ hpath).1
    exact hfolder.registered valid .system Catalog.database

end Engine

/-! ### Sessions -/

namespace Session

variable {dir : Route} {α : Type}

/-- What a session sees while every snapshot can be read. -/
def Reads (dir : Route) (p : Interpreter × Session) : Prop := Engine.Readable dir p.1.engine

theorem reads_storage {act : EngineM α}
    (h : ∀ e, Engine.Readable dir e → Engine.Readable dir (exec act e).2) :
    Ensures (Reads dir) (storage act) (fun _ => Reads dir) (fun _ => Reads dir) := by
  rw [Ensures.always_iff]
  intro p hp
  rw [exec_storage_snd]
  exact h p.1.engine hp

theorem reads_catalog :
    Ensures (Reads dir) catalog (fun _ => Reads dir) (fun _ => Reads dir) := by
  refine ensures_catalog (fun p h hp _ => hp) (fun p h e' hp _ hopen => ?_)
    fun p err e' hp _ hopen => ?_ <;> have hread := Engine.readable_openCatalog hp <;>
    rw [hopen] at hread <;> exact hread

theorem reads_saveActive :
    Ensures (Reads dir) saveActive (fun _ => Reads dir) (fun _ => Reads dir) :=
  ensures_saveActive (fun _ hp _ => hp) fun h =>
    (reads_storage fun _ hr => Engine.readable_save hr h).mono_pre fun _ hp => hp.1

theorem reads_save : Ensures (Reads dir) save (fun _ => Reads dir) (fun _ => Reads dir) := by
  unfold save
  exact reads_saveActive.bind fun _ => reads_catalog.bind fun c =>
    reads_storage fun _ hr => Engine.readable_save hr c

theorem reads_select (name : String) :
    Ensures (Reads dir) (select name) (fun _ => Reads dir) (fun _ => Reads dir) := by
  unfold select
  refine reads_saveActive.bind fun _ => Ensures.bind (R := fun _ => Reads dir)
    (reads_storage fun e hr => ?_) ?_
  · rw [Engine.exec_open_snd]
    exact Engine.readable_load hr .data name
  · rintro (_ | h)
    · exact Ensures.throw fun _ hp => hp
    · exact Ensures.bind (R := fun _ => Reads dir) (Ensures.modify fun _ hp => hp) fun _ =>
        Ensures.pure fun _ hp => hp

theorem reads_createDatabase (name : String) :
    Ensures (Reads dir) (createDatabase name) (fun _ => Reads dir) (fun _ => Reads dir) := by
  unfold createDatabase
  refine reads_catalog.bind fun c => Ensures.bind (R := fun _ => Reads dir)
    (reads_storage fun _ hr => Engine.readable_edit hr c ?_) fun _ =>
      reads_storage fun _ hr => Engine.readable_createDatabase hr .data name
  exact Database.keepsCreation_of fun _ _ => Database.createdAt_insert

theorem reads_dropDatabase [PatternCompiler] (name : String) :
    Ensures (Reads dir) (dropDatabase name) (fun _ => Reads dir) (fun _ => Reads dir) := by
  unfold dropDatabase
  refine reads_catalog.bind fun c => Ensures.bind (R := fun _ => Reads dir)
    (reads_storage fun _ hr => Engine.readable_edit hr c ?_) fun _ =>
      Ensures.bind (R := fun _ => Reads dir)
        (reads_storage fun _ hr => Engine.readable_dropDatabase hr .data name) fun outcome =>
          ensures_forget name outcome fun _ hp => hp
  exact Database.keepsCreation_of_count (Database.keepsCreation_delete _)

theorem reads_query (h : Handle) (f : Database → Except StorageError α) :
    Ensures (Reads dir) (storage (Engine.query h f)) (fun _ => Reads dir) (fun _ => Reads dir) :=
  reads_storage fun e hr => by rwa [Engine.exec_query]

/-- **Whatever a session runs, every snapshot can be read.** -/
theorem reads_dispatch [PatternCompiler] (st : Statement) :
    Ensures (Reads dir) (dispatch st) (fun _ => Reads dir) (fun _ => Reads dir) := by
  intro p hp
  obtain ⟨act, performs, hexec⟩ := exists_performs st p
  rw [hexec]
  cases performs with
  | select name => exact reads_select name p hp
  | create name => exact reads_createDatabase name p hp
  | drop name => exact reads_dropDatabase name p hp
  | list pattern =>
    unfold listDatabases
    exact (reads_catalog.bind fun c => reads_query c _) p hp
  | describe name =>
    refine reads_storage (fun e hr => ?_) p hp
    rcases Engine.exec_describeDatabase_snd p.2.active name e with h | h <;> rw [h]
    · exact hr
    · exact Engine.readable_load hr .data name
  | query active f => exact reads_query _ f p hp
  | edit active f keeps => exact reads_storage (fun _ hr => Engine.readable_edit hr _ keeps) p hp
  | refuse err => exact hp

end Session

/-! ### Worlds -/

namespace World

variable {w : World} {dir : Route}

theorem readable_after [PatternCompiler] (readable : Engine.Readable dir w.engine) {step : Step}
    (clock : ∀ clock, step = .restart clock → clock.isValid = true) :
    Engine.Readable dir (w.after step).engine := by
  cases step with
  | restart t =>
    rw [after, restarted, readable.dataDir]
    exact readable.new (clock t rfl)
  | save client => exact Ensures.always_iff.1 Session.reads_save (w.view client) readable
  | statement client text =>
    cases hparse : Statement.parse text with
    | error cause =>
      rw [after, afterAct, exec_execute_of_error hparse]
      exact readable
    | ok st =>
      rw [after, afterAct, exec_execute hparse]
      exact Ensures.always_iff.1 (Session.reads_dispatch st) (w.view client) readable

end World

end Tabular
