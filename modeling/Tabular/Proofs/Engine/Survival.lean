import Tabular.Proofs.Engine.Snapshots

/-!
What becomes of one database.

Whatever is done to an engine with a data directory comes down, for the database of a name, to five
things: it is left alone, loaded, saved through a handle, created or dropped. A property of engines
that `Survives` these holds on; whether a flush, a creation or a drop can take place is a parameter,
so that nothing is asked about those that cannot.

A database may be `Gone`, or `Stored` in the folder, and while it is in memory it is `Shelved`.
-/

namespace Tabular

/-- An operation that did not fail for a reason that lies in the file system. -/
def Engine.Undisturbed {α : Type} (r : Except StorageError α) : Prop :=
  ∀ kind, r ≠ .error (.io kind)

/-- A property of engines that outlives what is done to the database of a name: of `flush`, `create`
and `drop` those that may happen hold. -/
structure Engine.Survives (dir : Route) (name : String) (flush create drop : Prop)
    (K : Engine → Prop) : Prop where
  leaves : ∀ e e', e.dataDir = some dir → Leaves .data name e e' → K e → K e'
  load : ∀ e r e', e.dataDir = some dir → K e → exec (load .data name) e = (r, e') →
    Undisturbed r → K e'
  save : flush → ∀ e h e', e.dataDir = some dir → h.scope = .data → h.name = name → K e →
    exec (save h) e = (.ok (), e') → K e'
  create : ∀ e r e', e.dataDir = some dir → K e → exec (createDatabase .data name) e = (r, e') →
    Undisturbed r → (r.isOk = true → create) → K e'
  drop : ∀ e r e', e.dataDir = some dir → K e → exec (dropDatabase .data name) e = (r, e') →
    Undisturbed r → (r.isOk = true → drop) → K e'
  restart : ∀ e clock, K e → K (Engine.new (some dir) e.folder clock)

/-- An operation that does to the engine what loading a database of the users does, or nothing. -/
def Engine.Loads {α : Type} (name : String) (act : EngineM α) : Prop :=
  ∀ e r e', exec act e = (r, e') → e' = e ∨ ∃ r', exec (Engine.load .data name) e = (r', e') ∧
    (Undisturbed r → Undisturbed r')

theorem Engine.loads_open (name : String) : Loads name (Engine.open .data name) := by
  intro e r e' hact
  rw [exec_open] at hact
  obtain ⟨rfl, rfl⟩ := Prod.mk.inj hact
  refine .inr ⟨(exec (load .data name) e).1, rfl, fun hr kind hkind => hr kind ?_⟩
  rw [hkind]
  rfl

theorem Engine.loads_describeDatabase (active : Option Handle) (name : String) :
    Loads name (describeDatabase active name) := by
  intro e r e' hact
  rw [exec_describeDatabase] at hact
  cases hactive : active.filter (·.name = name) with
  | some h =>
    rw [hactive] at hact
    exact .inl (Prod.mk.inj hact).2.symm
  | none =>
    rw [hactive] at hact
    dsimp only at hact
    rcases hload : exec (load .data name) e with ⟨err | _ | c, e₁⟩ <;> rw [hload] at hact <;>
      obtain ⟨rfl, rfl⟩ := Prod.mk.inj hact
    · refine .inr ⟨_, rfl, fun hr kind hkind => hr kind ?_⟩
      rw [Except.error.inj hkind]
    · exact .inr ⟨_, rfl, by simp [Undisturbed]⟩
    · exact .inr ⟨_, rfl, by simp [Undisturbed]⟩

namespace Engine

variable {dir : Route} {name : String}

/-! ### What can be known of a database -/

/-- The database of a name is neither in memory nor in the folder. -/
def Gone (dir : Route) (name : String) (e : Engine) : Prop :=
  e.live.get? .data name = none ∧ e.file? dir .data name = none

/-- The snapshot of a database can be read. -/
def Stored (dir : Route) (name : String) (e : Engine) : Prop :=
  ∃ text, e.folder.stat (snapshotIn dir .data name) = .ok (.file text)

/-- A database in memory has the directory of its snapshot. -/
def Shelved (dir : Route) (name : String) (e : Engine) : Prop :=
  e.live.get? .data name ≠ none →
    ∃ p, e.folder.walk [] (dir ++ [Scope.data.directory]) = .ok p ∧
      e.folder.entryAt? p = some .directory

/-- Loading does not change the folder. -/
theorem folder_of_load {scope : Scope} {e e' : Engine} {r : Except StorageError (Option Nat)}
    (hload : exec (load scope name) e = (r, e')) : e'.folder = e.folder := by
  have hfolder : (exec (load scope name) e).2.folder = e.folder := by
    rw [exec_load]
    cases e.live.get? scope name with
    | some cell => rfl
    | none => rcases e.stored scope name with err | _ | db <;> rfl
  rw [hload] at hfolder
  exact hfolder

/-- What creating a database does, where the file system does not fail: it is refused
and did no more than load, or a new database has its snapshot written. -/
theorem exec_createDatabase_cases {scope : Scope} {e e' : Engine}
    {r : Except StorageError Outcome}
    (hdir : e.dataDir = some dir)
    (hcreate : exec (createDatabase scope name) e = (r, e')) (hr : Undisturbed r) :
    (r.isOk = false ∧ ∃ r', exec (load scope name) e = (r', e') ∧ Undisturbed r' ∧ r' ≠ .ok none) ∨
      (r.isOk = true ∧ exec (load scope name) e = (.ok none, e) ∧
        exec (save { scope, name, cell := e.states.length })
          (e.registered scope name (Database.new e.clock)) = (.ok (), e')) := by
  rw [exec_createDatabase] at hcreate
  rcases hload : exec (load scope name) e with ⟨err | _ | c, e₁⟩ <;> rw [hload] at hcreate
  · obtain ⟨rfl, rfl⟩ := Prod.mk.inj hcreate
    refine .inl ⟨rfl, _, rfl, fun kind hkind => hr kind ?_, by simp⟩
    rw [Except.error.inj hkind]
  · obtain ⟨rfl, hnone, -⟩ := eq_of_load_none hload
    dsimp only at hcreate
    rcases hsave : exec (save { scope, name, cell := e₁.states.length })
      (e₁.registered scope name (Database.new e₁.clock)) with ⟨err | _, e₂⟩ <;>
      rw [hsave] at hcreate <;> obtain ⟨rfl, rfl⟩ := Prod.mk.inj hcreate
    · have hcases := exec_save_cases (e := e₁.registered scope name (Database.new e₁.clock)) hdir
        { scope, name, cell := e₁.states.length }
      obtain ⟨made, written, -, -, hexec⟩ | ⟨kind, folder, hexec, -⟩ := hcases
      · exact absurd (Prod.mk.inj (hsave.symm.trans hexec)).1 (by simp)
      · obtain rfl := Except.error.inj (Prod.mk.inj (hsave.symm.trans hexec)).1
        exact absurd rfl (hr kind)
    · exact .inr ⟨rfl, rfl, rfl⟩
  · obtain ⟨rfl, rfl⟩ := Prod.mk.inj hcreate
    exact .inl ⟨rfl, _, rfl, by simp [Undisturbed], by simp⟩

/-- A new database has its snapshot in the folder. -/
theorem stat_of_save_registered {scope : Scope} {e e' : Engine} {db : Database}
    (hdir : e.dataDir = some dir)
    (hsave : exec (save { scope, name, cell := e.states.length })
      (e.registered scope name db) = (.ok (), e')) :
    e'.folder.stat (snapshotIn dir scope name) = .ok (.file db.snapshot) := by
  have hdir' : (e.registered scope name db).dataDir = some dir := hdir
  have hdb : (e.registered scope name db).databaseOf
      { scope, name, cell := e.states.length } = db := state_registered e scope name db
  have hstat := stat_of_save hdir' rfl rfl hsave
  rw [hdb] at hstat
  exact hstat

/-- A database that has been brought into memory and saved. -/
theorem exec_save_registered {scope : Scope} {e e' : Engine} {db : Database}
    (hdir : e.dataDir = some dir)
    (hsave : exec (save { scope, name, cell := e.states.length })
      (e.registered scope name db) = (.ok (), e')) :
    e'.dataDir = some dir ∧ e'.clock = e.clock ∧ e'.states.length = e.states.length + 1 ∧
      (∀ s n, e'.live.get? s n =
        if scope = s ∧ name = n then some e.states.length else e.live.get? s n) ∧
      e'.state e.states.length = db ∧
      e'.folder.stat (snapshotIn dir scope name) = .ok (.file db.snapshot) := by
  have hstat := stat_of_save_registered hdir hsave
  obtain ⟨folder, hfolder⟩ := exec_save_snd { scope, name, cell := e.states.length }
    (e.registered scope name db)
  rw [hsave] at hfolder
  obtain rfl : e' = { e.registered scope name db with folder } := hfolder
  exact ⟨hdir, rfl, by simp [registered], live_registered e scope name db,
    state_registered e scope name db, hstat⟩

/-- What dropping a database of the users does, where the file system does not fail. It is refused
only where there is nothing to drop. -/
theorem exec_dropDatabase_cases {e e' : Engine} {r : Except StorageError Outcome}
    (hdir : e.dataDir = some dir)
    (hdrop : exec (dropDatabase .data name) e = (r, e')) (hr : Undisturbed r) :
    (e' = e.forgotten .data name ∧
        e.folder.stat (snapshotIn dir .data name) = .error .notFound ∧
        (r.isOk = true ↔ e.live.get? .data name ≠ none)) ∨
      ∃ folder, e.folder.remove (snapshotIn dir .data name) = .ok folder ∧
        e' = { e.forgotten .data name with folder } ∧ r.isOk = true := by
  rw [exec_dropDatabase] at hdrop
  obtain ⟨hstat, hexec⟩ | ⟨folder, hremove, hexec⟩ | ⟨kind, hexec⟩ :=
    exec_removeSnapshot_cases (e := e.forgotten .data name) hdir .data name <;>
    rw [hexec] at hdrop <;> dsimp only at hdrop
  · refine .inl ⟨?_, hstat, ?_⟩ <;> cases hlive : e.live.get? .data name <;>
      rw [hlive] at hdrop <;> simp at hdrop <;> obtain ⟨rfl, rfl⟩ := hdrop <;>
      simp [Except.isOk, Except.toBool]
  · simp at hdrop
    obtain ⟨rfl, rfl⟩ := hdrop
    exact .inr ⟨folder, hremove, rfl, rfl⟩
  · obtain ⟨rfl, -⟩ := Prod.mk.inj hdrop
    exact absurd rfl (hr kind)

/-! ### What survives -/

variable {e e' : Engine}

theorem load_of_gone (hdir : e.dataDir = some dir) (gone : Gone dir name e)
    {r : Except StorageError (Option Nat)} (hload : exec (load .data name) e = (r, e'))
    (hr : Undisturbed r) : r = .ok none ∧ e' = e := by
  rw [exec_load, gone.1] at hload
  rcases stored_of_file?_eq_none hdir gone.2 with hs | ⟨kind, hs⟩ <;> rw [hs] at hload <;>
    obtain ⟨rfl, rfl⟩ := Prod.mk.inj hload
  · exact ⟨rfl, rfl⟩
  · exact absurd rfl (hr kind)

/-- A database that is gone cannot be opened. -/
theorem open_of_gone (hdir : e.dataDir = some dir) (gone : Gone dir name e)
    {r : Except StorageError (Option Handle)} (hopen : exec (Engine.open .data name) e = (r, e'))
    (hr : Undisturbed r) : r = .ok none := by
  rw [exec_open] at hopen
  obtain ⟨rfl, -⟩ := Prod.mk.inj hopen
  have hr' : Undisturbed (exec (load .data name) e).1 := by
    intro kind hkind
    apply hr kind
    rw [hkind]
    rfl
  rcases hload : exec (load .data name) e with ⟨r, e₁⟩
  rw [hload] at hr'
  obtain ⟨rfl, -⟩ := load_of_gone hdir gone hload hr'
  rfl

/-- A database whose snapshot can be read is found. -/
theorem open_ne_none_of_stored (hdir : e.dataDir = some dir) (stored : Stored dir name e) :
    exec (Engine.open .data name) e ≠ (.ok none, e') := by
  intro hopen
  rw [exec_open] at hopen
  obtain ⟨hres, -⟩ := Prod.mk.inj hopen
  obtain ⟨text, hstat⟩ := stored
  rcases hload : exec (load .data name) e with ⟨err | _ | c, e₁⟩ <;> rw [hload] at hres
  · simp [Except.map] at hres
  · exact stored_ne_none hdir hstat (eq_of_load_none hload).2.2
  · simp [Except.map] at hres

/-- A database that is gone stays gone as long as it is not flushed and not created. -/
theorem survives_gone (plain : PlainName name) :
    Survives dir name False False True (Gone dir name) where
  leaves := fun e e' hdir leaves gone =>
    ⟨leaves.live.trans gone.1, (leaves.file dir hdir).trans gone.2⟩
  load := fun e r e' hdir gone hload hr => (load_of_gone hdir gone hload hr).2 ▸ gone
  save := False.elim
  create := by
    intro e r e' hdir gone hcreate hr hok
    obtain ⟨-, r', hload, hr', hne⟩ | ⟨hisOk, -⟩ := exec_createDatabase_cases hdir hcreate hr
    · exact absurd (load_of_gone hdir gone hload hr').1 hne
    · exact (hok hisOk).elim
  drop := by
    intro e r e' hdir gone hdrop hr _
    have hlive : (e.forgotten .data name).live.get? .data name = none := by
      rw [live_forgotten, if_pos ⟨rfl, rfl⟩]
    obtain ⟨rfl, -⟩ | ⟨folder, hremove, rfl, -⟩ := exec_dropDatabase_cases hdir hdrop hr
    · exact ⟨hlive, gone.2⟩
    · refine ⟨hlive, ?_⟩
      unfold file?
      rw [Folder.fileAt?_remove hremove (path_snapshotIn_ne_nil plain), if_pos rfl]
  restart := fun e clock gone => ⟨by simp [Engine.new], gone.2⟩

/-- A snapshot that can be read stays readable as long as its database is not dropped. -/
theorem survives_stored : Survives dir name True True False (Stored dir name) where
  leaves := fun e e' hdir leaves ⟨text, hstat⟩ => ⟨text, leaves.stat hdir hstat⟩
  load := by
    intro e r e' _ hstored hload _
    unfold Stored
    rw [folder_of_load hload]
    exact hstored
  save := by
    intro _ e h e' hdir hscope hname _ hsave
    exact ⟨_, stat_of_save hdir hscope hname hsave⟩
  create := by
    intro e r e' hdir hstored hcreate hr _
    obtain ⟨-, r', hload, -⟩ | ⟨-, -, hsave⟩ := exec_createDatabase_cases hdir hcreate hr
    · unfold Stored
      rw [folder_of_load hload]
      exact hstored
    · exact ⟨_, stat_of_save_registered hdir hsave⟩
  drop := by
    intro e r e' hdir hstored hdrop hr hok
    obtain ⟨text, hstat⟩ := hstored
    obtain ⟨-, hnone, -⟩ | ⟨folder, -, -, hisOk⟩ := exec_dropDatabase_cases hdir hdrop hr
    · rw [hstat] at hnone
      simp at hnone
    · exact (hok hisOk).elim
  restart := fun _ _ hstored => hstored

/-- A route to a snapshot leads through the directory of its scope. -/
theorem shelf_of_stat (plain : PlainName name) {folder : Folder} {entry : Entry}
    (hstat : folder.stat (snapshotIn dir .data name) = .ok entry) :
    ∃ p, folder.walk [] (dir ++ [Scope.data.directory]) = .ok p ∧
      folder.entryAt? p = some .directory := by
  have hlocate := (Folder.stat_eq_ok_iff.1 hstat).1
  rw [snapshotIn_eq plain, show dir ++ [Scope.data.directory, name ++ ".json"] =
    (dir ++ [Scope.data.directory]) ++ [name ++ ".json"] by simp] at hlocate
  unfold Folder.locate at hlocate
  split at hlocate
  · simp at hlocate
  · exact ⟨_, Folder.walk_append_singleton hlocate⟩

theorem shelved_of_load (plain : PlainName name) (hdir : e.dataDir = some dir)
    (shelved : Shelved dir name e) {r : Except StorageError (Option Nat)}
    (hload : exec (load .data name) e = (r, e')) : Shelved dir name e' := by
  intro hlive
  rw [folder_of_load hload]
  by_cases hbefore : e.live.get? .data name = none
  · rw [exec_load, hbefore, stored_eq hdir] at hload
    rcases hstat : e.folder.stat (snapshotIn dir .data name) with kind | entry
    · rw [hstat] at hload
      cases kind <;> obtain ⟨-, rfl⟩ := Prod.mk.inj hload <;> exact absurd hbefore hlive
    · exact shelf_of_stat plain hstat
  · exact shelved hbefore

theorem survives_shelved (plain : PlainName name) :
    Survives dir name True True True (Shelved dir name) where
  leaves := by
    intro e e' _ leaves shelved hlive
    obtain ⟨p, hwalk, hentry⟩ := shelved (leaves.live ▸ hlive)
    exact ⟨p, Folder.walk_of_directories leaves.directories hwalk, leaves.directories p hentry⟩
  load := fun e r e' hdir shelved hload _ => shelved_of_load plain hdir shelved hload
  save := by
    intro _ e h e' hdir hscope hname _ hsave _
    exact shelf_of_stat plain (stat_of_save hdir hscope hname hsave)
  create := by
    intro e r e' hdir shelved hcreate hr _
    obtain ⟨-, r', hload, -⟩ | ⟨-, -, hsave⟩ := exec_createDatabase_cases hdir hcreate hr
    · exact shelved_of_load plain hdir shelved hload
    · exact fun _ => shelf_of_stat plain (stat_of_save_registered hdir hsave)
  drop := by
    intro e r e' hdir _ hdrop hr _ hlive
    have hnone : (e.forgotten .data name).live.get? .data name = none := by
      rw [live_forgotten, if_pos ⟨rfl, rfl⟩]
    obtain ⟨rfl, -⟩ | ⟨folder, -, rfl, -⟩ := exec_dropDatabase_cases hdir hdrop hr <;>
      exact absurd hnone hlive
  restart := fun e clock _ hlive => absurd (by simp [Engine.new]) hlive

/-- A dropped database is gone. Its snapshot is removed if there is one, and if none is found, there
is none, because the directory of a database in memory is there. -/
theorem gone_of_drop (plain : PlainName name) (hdir : e.dataDir = some dir)
    (shelved : Shelved dir name e) {outcome : Outcome}
    (hdrop : exec (dropDatabase .data name) e = (.ok outcome, e')) : Gone dir name e' := by
  have hlive : (e.forgotten .data name).live.get? .data name = none := by
    rw [live_forgotten, if_pos ⟨rfl, rfl⟩]
  obtain ⟨rfl, hnone, hok⟩ | ⟨folder, hremove, rfl, -⟩ :=
    exec_dropDatabase_cases hdir hdrop (by simp [Undisturbed])
  · obtain ⟨p, hwalk, hentry⟩ := shelved (hok.1 rfl)
    refine ⟨hlive, ?_⟩
    unfold file? Folder.fileAt?
    rw [snapshotIn_eq plain, show dir ++ [Scope.data.directory, name ++ ".json"] =
      (dir ++ [Scope.data.directory]) ++ [name ++ ".json"] by simp] at hnone ⊢
    rw [show (e.forgotten .data name).folder = e.folder from rfl,
      Folder.entryAt?_of_stat_notFound hwalk hentry hnone]
  · refine ⟨hlive, ?_⟩
    unfold file?
    rw [Folder.fileAt?_remove hremove (path_snapshotIn_ne_nil plain), if_pos rfl]

/-- A snapshot is what it was unless its database is flushed, created or dropped. -/
theorem survives_file (text? : Option String) :
    Survives dir name False False False (fun e => e.file? dir .data name = text?) where
  leaves := fun e e' hdir leaves hfile => (leaves.file dir hdir).trans hfile
  load := by
    intro e r e' _ hfile hload _
    unfold file?
    rw [folder_of_load hload]
    exact hfile
  save := False.elim
  create := by
    intro e r e' hdir hfile hcreate hr hok
    obtain ⟨-, r', hload, -⟩ | ⟨hisOk, -⟩ := exec_createDatabase_cases hdir hcreate hr
    · unfold file?
      rw [folder_of_load hload]
      exact hfile
    · exact (hok hisOk).elim
  drop := by
    intro e r e' hdir hfile hdrop hr hok
    obtain ⟨rfl, -⟩ | ⟨folder, -, -, hisOk⟩ := exec_dropDatabase_cases hdir hdrop hr
    · exact hfile
    · exact (hok hisOk).elim
  restart := fun _ _ hfile => hfile

end Engine

end Tabular
