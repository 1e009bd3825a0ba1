import Tabular.Proofs.Engine.Snapshots
import Tabular.Proofs.Session.Refused

/-!
What a saving leaves on disk.

A saving has two parts: it writes the snapshot of the selected database and then the one of the
catalog. Neither part needs anything of the other, but the second one runs only where the first one
has succeeded (`save_eq`). So a database that cannot be written keeps the catalog from being written
as well, also where nothing stands in the way of the catalog's own file.

* `catalogSaved_iff_of_saves`: the catalog is on disk after a saving exactly when the first part
  succeeded, or when it was there before.
* `not_catalogSaved_of_blocked`: a catalog that could be written, and is not.
-/

namespace Tabular

namespace Engine

variable {e e' : Engine} {h : Handle} {err : StorageError}

/-- The snapshot of a database is the database as it is in memory, if the engine has snapshots. -/
def OnDisk (e : Engine) (h : Handle) : Prop :=
  ∀ route ∈ e.snapshotRoute? h.scope h.name,
    e.folder.fileAt? route.path = some (e.databaseOf h).snapshot

instance (e : Engine) (h : Handle) : Decidable (e.OnDisk h) :=
  inferInstanceAs (Decidable (∀ route ∈ e.snapshotRoute? h.scope h.name, _))

/-- A database that has been saved is on disk. -/
theorem onDisk_of_save (hsave : exec (save h) e = (.ok (), e')) : e'.OnDisk h := by
  obtain ⟨folder, hfolder⟩ := exec_save_snd h e
  rw [hsave] at hfolder
  subst hfolder
  intro route hroute
  obtain ⟨dir, hdir, rfl⟩ := Option.map_eq_some_iff.1 hroute
  have hstat := stat_of_save (e := e) hdir rfl rfl hsave
  exact Folder.fileAt?_eq_some_iff.2 (Folder.stat_eq_ok_iff.1 hstat).2

/-- A saving that fails changes no file. -/
theorem onDisk_iff_of_save_error (hsave : exec (save h) e = (.error err, e')) (c : Handle) :
    e'.OnDisk c ↔ e.OnDisk c := by
  cases hdir : e.dataDir with
  | none => simp [exec_save, snapshotRoute?, hdir] at hsave
  | some dir =>
    obtain ⟨made, written, -, -, hexec⟩ | ⟨kind, folder, hexec, -, hfiles⟩ :=
      exec_save_cases hdir h
    · exact absurd (Prod.mk.inj (hsave.symm.trans hexec)).1 (by simp)
    · obtain ⟨-, rfl⟩ := Prod.mk.inj (hsave.symm.trans hexec)
      simp only [OnDisk, hfiles]
      rfl

end Engine

namespace Session

variable {p p' q : Interpreter × Session} {err : Error}

/-- The second part of a saving: it writes the catalog. -/
def saveCatalog : SessionM Unit := do
  let c ← catalog
  storage (Engine.save c)

theorem save_eq : save = (do saveActive; saveCatalog) := rfl

/-- The catalog is on disk as it is in memory, if it is open. -/
def CatalogSaved (p : Interpreter × Session) : Prop :=
  ∀ c ∈ p.1.catalog, p.1.engine.OnDisk c

instance (p : Interpreter × Session) : Decidable (CatalogSaved p) :=
  inferInstanceAs (Decidable (∀ c ∈ p.1.catalog, _))

/-- Nothing stands in the way of the catalog's own file: it can be written, if the catalog opens. -/
def CatalogWritable (p : Interpreter × Session) : Prop :=
  (exec catalog p).1.isOk = true → (exec saveCatalog p).1 = .ok ()

instance (p : Interpreter × Session) : Decidable (CatalogWritable p) :=
  inferInstanceAs (Decidable (_ → _))

/-- What a client sees before a saving and after it. -/
inductive Saves [PatternCompiler] : Interpreter × Session → Interpreter × Session → Prop where
  /-- A saving on its own. -/
  | call (p : Interpreter × Session) : Saves p (exec save p).2
  /-- The saving at the end of a request whose headers ask for it, after a batch that did not
  panic. -/
  | header (headers : Keyed String) (body : Option String) (p : Interpreter × Session)
      (asks : asksToSave headers = true)
      (answered : (exec (runStatements [] (World.batch body)) p).1.isOk = true) :
      Saves (exec (runStatements [] (World.batch body)) p).2 (exec (handleRequest headers body) p).2

theorem Saves.eq [PatternCompiler] (saves : Saves p p') : p' = (exec save p).2 := by
  cases saves with
  | call => rfl
  | header headers body q asks answered =>
    rw [World.exec_handleRequest_snd, if_pos ⟨asks, answered⟩]

/-! ### The two parts -/

/-- Where the first part fails, no file changes, and the catalog stays what it is. -/
theorem catalogSaved_iff_of_saveActive_error (hactive : exec saveActive p = (.error err, q)) :
    CatalogSaved q ↔ CatalogSaved p := by
  rw [exec_saveActive] at hactive
  cases hsel : p.2.active with
  | none => simp [hsel] at hactive
  | some h =>
    simp only [hsel, exec_storage] at hactive
    rcases hsave : exec (Engine.save h) p.1.engine with ⟨err' | _, e⟩ <;> rw [hsave] at hactive
    · obtain ⟨-, rfl⟩ := Prod.mk.inj hactive
      exact forall₂_congr fun c _ => Engine.onDisk_iff_of_save_error hsave c
    · simp at hactive

/-- Where the catalog fails to open, none is open afterwards. -/
theorem catalog_of_exec_error (h : exec catalog p = (.error err, q)) : q.1.catalog = none := by
  rw [exec_catalog] at h
  cases hc : p.1.catalog with
  | some c => simp [hc] at h
  | none =>
    simp only [hc] at h
    rcases hopen : exec Catalog.open p.1.engine with ⟨err' | c, e⟩ <;> rw [hopen] at h
    · obtain ⟨-, rfl⟩ := Prod.mk.inj h
      rfl
    · simp at h

/-- The second part writes the catalog where it can be written. -/
theorem catalogSaved_saveCatalog (writable : CatalogWritable p) :
    CatalogSaved (exec saveCatalog p).2 := by
  unfold CatalogWritable at writable
  unfold saveCatalog at writable ⊢
  rcases hcatalog : exec catalog p with ⟨err | c, q⟩
  · rw [exec_bind_of_error hcatalog]
    intro c hc
    simp [catalog_of_exec_error hcatalog] at hc
  · rw [exec_bind_of_ok hcatalog, hcatalog] at writable
    rw [exec_bind_of_ok hcatalog, exec_storage_snd]
    have hok := writable rfl
    rw [exec_storage] at hok
    rcases hsave : exec (Engine.save c) q.1.engine with ⟨err | _, e⟩ <;> rw [hsave] at hok
    · simp at hok
    · intro c' hc'
      obtain rfl : c = c' := by simpa [catalog_of_exec hcatalog] using hc'
      exact Engine.onDisk_of_save hsave

/-- **When a saving writes the catalog**: for every session, engine and folder, where nothing stands
in the way of the catalog's own file once the first part is over, the catalog is on disk after the
saving exactly when the first part succeeded or it was on disk before. -/
theorem catalogSaved_iff_of_saves [PatternCompiler] (saves : Saves p p')
    (writable : CatalogWritable (exec saveActive p).2) :
    CatalogSaved p' ↔ (exec saveActive p).1 = .ok () ∨ CatalogSaved p := by
  rw [saves.eq, save_eq]
  rcases hactive : exec saveActive p with ⟨err | _, q⟩
  · rw [exec_bind_of_error hactive]
    simp [catalogSaved_iff_of_saveActive_error hactive]
  · rw [hactive] at writable
    rw [exec_bind_of_ok hactive]
    simp [catalogSaved_saveCatalog writable]

/-- An interpreter with a new database, which its client has selected. -/
def selecting [PatternCompiler] : World :=
  (World.start (Engine.new (some ["home"]) Folder.empty Timestamp.epoch)).run
    [.statement 0 "CREATE DATABASE a", .statement 0 "INIT a"]

/-- A request brings the row of the new database to the disk. -/
theorem catalogSaved_of_request :
    let headers : Keyed String := Keyed.ofList [("save", "")]
    let p := (exec (runStatements [] (World.batch none)) (selecting.view 0)).2
    let p' := (exec (handleRequest headers none) (selecting.view 0)).2
    Saves p p' ∧ CatalogWritable (exec saveActive p).2 ∧ ¬CatalogSaved p ∧ CatalogSaved p' := by
  intro headers p p'
  have saves : Saves p p' := .header headers none (selecting.view 0) (by decide +kernel) rfl
  have writable : CatalogWritable (exec saveActive p).2 := by decide +kernel
  exact ⟨saves, writable, by decide +kernel,
    (catalogSaved_iff_of_saves saves writable).2 (.inl (by decide +kernel))⟩

/-- **A database that cannot be written keeps the catalog from the disk**: a directory has come in
the place of the snapshot of the selected database, and the new row of the catalog is not saved,
although its file can be written. -/
theorem not_catalogSaved_of_blocked :
    ¬∀ (w : World) (folder : Folder) (client : Nat),
      let p := (w.withFolder folder).view client
      CatalogWritable (exec saveActive p).2 → CatalogSaved (exec save p).2 := by
  intro h
  have saved := h selecting (selecting.engine.folder.place ["home", "data", "a.json"] .directory) 0
    (by decide +kernel)
  exact absurd saved (by decide +kernel)

end Session

end Tabular
