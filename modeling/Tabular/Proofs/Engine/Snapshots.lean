import Tabular.Proofs.Engine.Handles
import Tabular.Proofs.Folder.Files

/-!
The snapshots of an engine with a data directory.

A name without a slash is one step of a path, so different databases have their snapshots at
different paths (`snapshot_injective`). `Engine.file?` is the text of the snapshot of a database as
far as the folder holds one. An operation `Leaves` a database when its name leads where it did and
its snapshot is what it was; this is what every operation on another database does.
-/

namespace Tabular

/-- A name that is one step of a path. -/
def PlainName (name : String) : Prop := '/' ∉ name.toList

namespace Text

theorem splitAll_of_not_mem {separator : Char} {s : List Char} (h : separator ∉ s) :
    splitAll separator s = [s] := by
  induction s with
  | nil => rfl
  | cons c s ih =>
    obtain ⟨hc, hs⟩ := not_or.1 (mt List.mem_cons.2 h)
    rw [splitAll, if_neg (Ne.symm hc), ih hs]
    rfl

end Text

namespace Engine

variable {dir : Route} {scope s : Scope} {name n : String} {e e' : Engine}

/-! ### Paths -/

theorem snapshotIn_eq (plain : PlainName name) :
    snapshotIn dir scope name = dir ++ [scope.directory, name ++ ".json"] := by
  have hslash : '/' ∉ (name ++ ".json").toList := by
    rw [String.toList_append, List.mem_append, not_or]
    exact ⟨plain, by decide⟩
  have hstart : ¬(name ++ ".json").startsWith "/" := by
    rw [String.startsWith_string_iff]
    exact fun h => hslash (h.subset (by simp))
  unfold snapshotIn Route.join
  rw [if_neg hstart, Route.ofText, Text.splitAll_of_not_mem hslash]
  simp

theorem step_directory (p : Path) (scope : Scope) :
    p.step scope.directory = p ++ [scope.directory] := by
  cases scope <;> simp [Path.step, Scope.directory]

theorem step_json (p : Path) (name : String) :
    p.step (name ++ ".json") = p ++ [name ++ ".json"] := by
  have hlen : 5 ≤ (name ++ ".json").length := by
    rw [String.length_append]
    exact Nat.le_add_left _ _
  have hne : ∀ t : String, t.length < 5 → name ++ ".json" ≠ t := by
    rintro t ht rfl
    exact absurd hlen (Nat.not_le.2 ht)
  unfold Path.step
  rw [if_neg (not_or.2 ⟨hne "" (by decide), hne "." (by decide)⟩), if_neg (hne ".." (by decide))]

theorem path_snapshotIn (plain : PlainName name) :
    (snapshotIn dir scope name).path = Route.path dir ++ [scope.directory, name ++ ".json"] := by
  rw [snapshotIn_eq plain, Route.path, List.foldl_append]
  simp only [List.foldl_cons, List.foldl_nil, step_directory, step_json, List.append_assoc]
  rfl

theorem path_snapshotIn_ne_nil (plain : PlainName name) :
    (snapshotIn dir scope name).path ≠ [] := by
  rw [path_snapshotIn plain]
  simp

theorem append_directory_injective {x y : String}
    (h : scope.directory ++ "/" ++ x = s.directory ++ "/" ++ y) : scope = s ∧ x = y := by
  have h' := congrArg String.toList h
  cases scope <;> cases s <;> simp [Scope.directory, String.ext_iff] at h' ⊢
  · exact h'
  · exact h'

/-- **Different databases have their snapshots at different paths.** -/
theorem snapshot_injective (plain : PlainName name) (plain' : PlainName n)
    (h : (snapshotIn dir scope name).path.text = (snapshotIn dir s n).path.text) :
    scope = s ∧ name = n := by
  have htext : ∀ (scope : Scope) (name : String), String.intercalate "/" [scope.directory, name] =
      scope.directory ++ "/" ++ name := fun _ _ => by simp
  have hcancel : scope.directory ++ "/" ++ (name ++ ".json") =
      s.directory ++ "/" ++ (n ++ ".json") := by
    rw [path_snapshotIn plain, path_snapshotIn plain'] at h
    unfold Path.text at h
    by_cases hdir : Route.path dir = []
    · rw [hdir, List.nil_append, List.nil_append, htext, htext] at h
      exact h
    · rw [String.intercalate_append_of_ne_nil hdir (by simp),
        String.intercalate_append_of_ne_nil hdir (by simp), htext, htext] at h
      exact (String.append_right_inj _).1 h
  obtain ⟨hscope, hname⟩ := append_directory_injective hcancel
  exact ⟨hscope, (String.append_left_inj _).1 hname⟩

/-! ### What is stored -/

/-- The text of the snapshot of a database in a data directory. -/
def file? (e : Engine) (dir : Route) (scope : Scope) (name : String) : Option String :=
  e.folder.fileAt? (snapshotIn dir scope name).path

/-- A file that the route of a snapshot leads to. -/
theorem file?_of_stat {text : String}
    (h : e.folder.stat (snapshotIn dir scope name) = .ok (.file text)) :
    e.file? dir scope name = some text :=
  Folder.fileAt?_eq_some_iff.2 (Folder.stat_eq_ok_iff.1 h).2

/-- What the folder holds under a name, by what stands at the end of its route. -/
theorem stored_eq (hdir : e.dataDir = some dir) (scope : Scope) (name : String) :
    e.stored scope name = match e.folder.stat (snapshotIn dir scope name) with
      | .ok (.file text) =>
        match Database.ofSnapshot? text with
        | some db => .ok (some db)
        | none => .error .snapshot
      | .ok .directory => .error (.io .isADirectory)
      | .error .notFound => .ok none
      | .error kind => .error (.io kind) := by
  unfold stored snapshotRoute? Folder.exists? Folder.textAt
  rw [hdir]
  dsimp only [Option.map_some]
  rcases e.folder.stat (snapshotIn dir scope name) with kind | text | _
  · cases kind <;> rfl
  · cases Database.ofSnapshot? text <;> rfl
  · rfl

/-- A name whose snapshot is in the folder is not stored as nothing. -/
theorem stored_ne_none (hdir : e.dataDir = some dir) {text : String}
    (h : e.folder.stat (snapshotIn dir scope name) = .ok (.file text)) :
    e.stored scope name ≠ .ok none := by
  rw [stored_eq hdir, h]
  dsimp only
  cases Database.ofSnapshot? text <;> simp

/-- Where the folder has no file for a name, nothing is stored under it, or the file system fails.
-/
theorem stored_of_file?_eq_none (hdir : e.dataDir = some dir)
    (h : e.file? dir scope name = none) :
    e.stored scope name = .ok none ∨ ∃ kind, e.stored scope name = .error (.io kind) := by
  rw [stored_eq hdir]
  cases hs : e.folder.stat (snapshotIn dir scope name) with
  | error kind => cases kind <;> simp
  | ok entry =>
    cases entry with
    | directory => simp
    | file text =>
      have hfile := Folder.fileAt?_eq_some_iff.2 (Folder.stat_eq_ok_iff.1 hs).2
      unfold file? at h
      simp [h] at hfile

/-! ### Other databases -/

/-- A database whose name leads where it did and whose snapshot is what it was. -/
structure Leaves (scope : Scope) (name : String) (e e' : Engine) : Prop where
  dataDir : e'.dataDir = e.dataDir
  live : e'.live.get? scope name = e.live.get? scope name
  directories : e.folder.HasDirectories e'.folder
  file : ∀ dir, e.dataDir = some dir → e'.file? dir scope name = e.file? dir scope name

theorem Leaves.refl (scope : Scope) (name : String) (e : Engine) : Leaves scope name e e :=
  ⟨rfl, rfl, .refl _, fun _ _ => rfl⟩

theorem Leaves.trans {e₁ e₂ e₃ : Engine} (h : Leaves scope name e₁ e₂)
    (h' : Leaves scope name e₂ e₃) : Leaves scope name e₁ e₃ where
  dataDir := h'.dataDir.trans h.dataDir
  live := h'.live.trans h.live
  directories := h.directories.trans h'.directories
  file := fun dir hdir => (h'.file dir (h.dataDir.trans hdir)).trans (h.file dir hdir)

/-- A change that does not touch the folder. -/
theorem Leaves.of_folder_eq (dataDir : e'.dataDir = e.dataDir)
    (live : e'.live.get? scope name = e.live.get? scope name) (folder : e'.folder = e.folder) :
    Leaves scope name e e' where
  dataDir := dataDir
  live := live
  directories := folder ▸ .refl _
  file := fun dir _ => by unfold file?; rw [folder]

/-- A snapshot that its route leads to is still there. -/
theorem Leaves.stat (h : Leaves scope name e e') (hdir : e.dataDir = some dir) {text : String}
    (hstat : e.folder.stat (snapshotIn dir scope name) = .ok (.file text)) :
    e'.folder.stat (snapshotIn dir scope name) = .ok (.file text) := by
  refine Folder.stat_of_directories h.directories hstat (Folder.fileAt?_eq_some_iff.1 ?_)
  have hfile := h.file dir hdir
  unfold file? at hfile
  rw [hfile]
  exact Folder.fileAt?_eq_some_iff.2 (Folder.stat_eq_ok_iff.1 hstat).2

/-- What is stored under a name stays stored as long as its file and the directories do. -/
theorem stored_of_directories {db : Database} (dataDir : e'.dataDir = e.dataDir)
    (directories : e.folder.HasDirectories e'.folder)
    (file : ∀ dir, e.dataDir = some dir → e'.file? dir scope name = e.file? dir scope name)
    (h : e.stored scope name = .ok (some db)) : e'.stored scope name = .ok (some db) := by
  obtain hdir | ⟨dir, hdir⟩ : e.dataDir = none ∨ ∃ dir, e.dataDir = some dir := by
    cases e.dataDir <;> simp
  · simp [stored, snapshotRoute?, hdir] at h
  · rw [stored_eq hdir] at h
    rw [stored_eq (dataDir.trans hdir)]
    rcases hstat : e.folder.stat (snapshotIn dir scope name) with kind | text | _ <;>
      rw [hstat] at h
    · cases kind <;> simp at h
    · have hfile := (file dir hdir).trans (file?_of_stat hstat)
      rw [Folder.stat_of_directories directories hstat (Folder.fileAt?_eq_some_iff.1 hfile)]
      exact h
    · exact nomatch h

theorem Leaves.stored {db : Database} (h : Leaves scope name e e')
    (hstored : e.stored scope name = .ok (some db)) : e'.stored scope name = .ok (some db) :=
  stored_of_directories h.dataDir h.directories h.file hstored

theorem leaves_setState (cell : Nat) (db : Database) :
    Leaves scope name e (e.setState cell db) :=
  .of_folder_eq rfl rfl rfl

theorem leaves_registered (other : ¬(s = scope ∧ n = name)) (db : Database) :
    Leaves scope name e (e.registered s n db) :=
  .of_folder_eq rfl (by rw [live_registered, if_neg other]) rfl

theorem leaves_forgotten (other : ¬(s = scope ∧ n = name)) :
    Leaves scope name e (e.forgotten s n) :=
  .of_folder_eq rfl (by rw [live_forgotten, if_neg other]) rfl

theorem leaves_load (other : ¬(s = scope ∧ n = name)) (e : Engine) :
    Leaves scope name e (exec (load s n) e).2 := by
  rw [exec_load]
  cases e.live.get? s n with
  | some cell => exact .refl ..
  | none =>
    rcases e.stored s n with err | _ | db
    · exact .refl ..
    · exact .refl ..
    · exact leaves_registered other db

/-- What saving does to the folder: it succeeds and writes the snapshot, or the file system fails
and every snapshot is what it was. -/
theorem exec_save_cases (hdir : e.dataDir = some dir) (h : Handle) :
    (∃ made written, e.folder.makeDirectories (snapshotIn dir h.scope h.name).dropLast = .ok made ∧
        made.write (snapshotIn dir h.scope h.name) (e.databaseOf h).snapshot = .ok written ∧
        exec (save h) e = (.ok (), { e with folder := written })) ∨
      ∃ kind folder, exec (save h) e = (.error (.io kind), { e with folder }) ∧
        e.folder.HasDirectories folder ∧ ∀ q, folder.fileAt? q = e.folder.fileAt? q := by
  have hroute : e.snapshotRoute? h.scope h.name = some (snapshotIn dir h.scope h.name) := by
    rw [snapshotRoute?, hdir, Option.map_some]
  rw [exec_save, hroute]
  dsimp only
  cases hmade : e.folder.makeDirectories (snapshotIn dir h.scope h.name).dropLast with
  | error kind => exact .inr ⟨kind, e.folder, rfl, .refl _, fun _ => rfl⟩
  | ok made =>
    dsimp only
    cases hwritten : made.write (snapshotIn dir h.scope h.name) (e.databaseOf h).snapshot with
    | error kind =>
      obtain ⟨hdirs, hfiles⟩ := Folder.makeDirectories_spec hmade
      exact .inr ⟨kind, made, rfl, hdirs, hfiles⟩
    | ok written => exact .inl ⟨made, written, rfl, hwritten, rfl⟩

/-- The path where the snapshot of a database is, if the engine has any. -/
def IsSnapshotPath (e : Engine) (scope : Scope) (name : String) (q : Path) : Prop :=
  ∃ dir, e.dataDir = some dir ∧ q.text = (snapshotIn dir scope name).path.text

theorem isSnapshotPath_injective {q : Path} (plain : PlainName name) (plain' : PlainName n)
    (h : e.IsSnapshotPath scope name q) (h' : e.IsSnapshotPath s n q) : scope = s ∧ name = n := by
  obtain ⟨dir, hdir, hq⟩ := h
  obtain ⟨dir', hdir', hq'⟩ := h'
  obtain rfl := Option.some.inj (hdir.symm.trans hdir')
  exact snapshot_injective plain plain' (hq.symm.trans hq')

/-- A folder as saving the database of a handle leaves it: directories stay, and no file is another
one but the snapshot of the database. -/
structure Flushed (e : Engine) (h : Handle) (folder : Folder) : Prop where
  directories : e.folder.HasDirectories folder
  files : ∀ q, folder.fileAt? q ≠ e.folder.fileAt? q → e.IsSnapshotPath h.scope h.name q

theorem exec_save_flushed (h : Handle) (e : Engine) :
    ∃ folder, e.Flushed h folder ∧ (exec (save h) e).2 = { e with folder } := by
  have same : e.Flushed h e.folder := ⟨.refl _, fun q hq => absurd rfl hq⟩
  obtain hdir | ⟨dir, hdir⟩ : e.dataDir = none ∨ ∃ dir, e.dataDir = some dir := by
    cases e.dataDir <;> simp
  · have hsave : exec (save h) e = (.ok (), e) := by simp [exec_save, snapshotRoute?, hdir]
    exact ⟨e.folder, same, by rw [hsave]⟩
  · obtain ⟨made, written, hmade, hwritten, hexec⟩ | ⟨kind, folder, hexec, hdirs, hfiles⟩ :=
      exec_save_cases hdir h
    · obtain ⟨hdirs, hfiles⟩ := Folder.makeDirectories_spec hmade
      refine ⟨written, ⟨hdirs.trans (Folder.hasDirectories_write hwritten), fun q hq => ?_⟩, ?_⟩
      · by_cases hnil : q = []
        · subst hnil
          exact absurd rfl hq
        · rw [Folder.fileAt?_write hwritten hnil, hfiles] at hq
          split at hq
          · next htext => exact ⟨dir, hdir, htext.symm⟩
          · exact absurd rfl hq
      · rw [hexec]
    · refine ⟨folder, ⟨hdirs, fun q hq => absurd (hfiles q) hq⟩, ?_⟩
      rw [hexec]

/-- What is stored under a name stays stored where another snapshot is written. -/
theorem Flushed.stored {h : Handle} {folder : Folder} (flushed : e.Flushed h folder)
    {db : Database}
    (apart : ∀ q, e.IsSnapshotPath scope name q → ¬e.IsSnapshotPath h.scope h.name q)
    (hstored : e.stored scope name = .ok (some db)) :
    Engine.stored { e with folder } scope name = .ok (some db) :=
  stored_of_directories (e := e) rfl flushed.directories (fun dir hdir =>
    Decidable.byContradiction fun hne => apart _ ⟨dir, hdir, rfl⟩ (flushed.files _ hne)) hstored

/-- A saved database has its snapshot in the folder. -/
theorem stat_of_save {h : Handle} (hdir : e.dataDir = some dir) (hscope : h.scope = scope)
    (hname : h.name = name) (hsave : exec (save h) e = (.ok (), e')) :
    e'.folder.stat (snapshotIn dir scope name) = .ok (.file (e.databaseOf h).snapshot) := by
  subst hscope hname
  obtain ⟨made, written, -, hwritten, hexec⟩ | ⟨kind, folder, hexec, -⟩ := exec_save_cases hdir h
  · obtain ⟨-, rfl⟩ := Prod.mk.inj (hsave.symm.trans hexec)
    exact Folder.stat_write hwritten
  · exact absurd (Prod.mk.inj (hsave.symm.trans hexec)).1 (by simp)

theorem leaves_save {h : Handle} (plain : PlainName h.name) (plain' : PlainName name)
    (other : ¬(h.scope = scope ∧ h.name = name)) (e : Engine) :
    Leaves scope name e (exec (save h) e).2 := by
  cases hdir : e.dataDir with
  | none =>
    have hsave : exec (save h) e = (.ok (), e) := by simp [exec_save, snapshotRoute?, hdir]
    rw [hsave]
    exact .refl ..
  | some dir =>
    obtain ⟨made, written, hmade, hwritten, hexec⟩ | ⟨kind, folder, hexec, hdirs, hfiles⟩ :=
      exec_save_cases hdir h
    · obtain ⟨hdirs, hfiles⟩ := Folder.makeDirectories_spec hmade
      rw [hexec]
      refine ⟨rfl, rfl, hdirs.trans (Folder.hasDirectories_write hwritten), fun dir' hdir' => ?_⟩
      obtain rfl := Option.some.inj (hdir.symm.trans hdir')
      unfold file?
      rw [Folder.fileAt?_write hwritten (path_snapshotIn_ne_nil plain'), if_neg, hfiles]
      exact fun htext => other (snapshot_injective plain plain' htext)
    · rw [hexec]
      exact ⟨rfl, rfl, hdirs, fun dir' _ => hfiles _⟩

theorem leaves_createDatabase (plain : PlainName n) (plain' : PlainName name)
    (other : ¬(s = scope ∧ n = name)) (e : Engine) :
    Leaves scope name e (exec (createDatabase s n) e).2 := by
  have hload := leaves_load other e
  rw [exec_createDatabase]
  rcases hl : exec (load s n) e with ⟨err | _ | cell, e₁⟩ <;> rw [hl] at hload
  · exact hload
  · have hsave := (hload.trans (leaves_registered other (Database.new e₁.clock))).trans
      (leaves_save (h := { scope := s, name := n, cell := e₁.states.length }) plain plain' other _)
    dsimp only
    rcases hs : exec (save { scope := s, name := n, cell := e₁.states.length })
      (e₁.registered s n (Database.new e₁.clock)) with ⟨_ | _, e₂⟩ <;> rw [hs] at hsave <;>
      exact hsave
  · exact hload

/-- What removing a snapshot does: there is none, or it is removed, or the file system fails. -/
theorem exec_removeSnapshot_cases (hdir : e.dataDir = some dir) (scope : Scope) (name : String) :
    (e.folder.stat (snapshotIn dir scope name) = .error .notFound ∧
        exec (removeSnapshot scope name) e = (.ok false, e)) ∨
      (∃ folder, e.folder.remove (snapshotIn dir scope name) = .ok folder ∧
        exec (removeSnapshot scope name) e = (.ok true, { e with folder })) ∨
      ∃ kind, exec (removeSnapshot scope name) e = (.error (.io kind), e) := by
  have hroute : e.snapshotRoute? scope name = some (snapshotIn dir scope name) := by
    rw [snapshotRoute?, hdir, Option.map_some]
  rw [exec_removeSnapshot, hroute]
  dsimp only
  rcases hexists : e.folder.exists? (snapshotIn dir scope name) with kind | _ | _
  · exact .inr (.inr ⟨kind, rfl⟩)
  · exact .inl ⟨Folder.exists?_eq_false_iff.1 hexists, rfl⟩
  · cases hremove : e.folder.remove (snapshotIn dir scope name) with
    | error kind => exact .inr (.inr ⟨kind, rfl⟩)
    | ok folder => exact .inr (.inl ⟨folder, rfl, rfl⟩)

theorem leaves_removeSnapshot (plain : PlainName n) (plain' : PlainName name)
    (other : ¬(s = scope ∧ n = name)) (e : Engine) :
    Leaves scope name e (exec (removeSnapshot s n) e).2 := by
  cases hdir : e.dataDir with
  | none =>
    have hremove : exec (removeSnapshot s n) e = (.ok false, e) := by
      simp [exec_removeSnapshot, snapshotRoute?, hdir]
    rw [hremove]
    exact .refl ..
  | some dir =>
    obtain ⟨-, hexec⟩ | ⟨folder, hremove, hexec⟩ | ⟨kind, hexec⟩ :=
      exec_removeSnapshot_cases hdir s n
    · rw [hexec]
      exact .refl ..
    · rw [hexec]
      refine ⟨rfl, rfl, Folder.hasDirectories_remove hremove, fun dir' hdir' => ?_⟩
      obtain rfl := Option.some.inj (hdir.symm.trans hdir')
      unfold file?
      rw [Folder.fileAt?_remove hremove (path_snapshotIn_ne_nil plain'), if_neg]
      exact fun htext => other (snapshot_injective plain plain' htext)
    · rw [hexec]
      exact .refl ..

theorem leaves_dropDatabase (plain : PlainName n) (plain' : PlainName name)
    (other : ¬(s = scope ∧ n = name)) (e : Engine) :
    Leaves scope name e (exec (dropDatabase s n) e).2 := by
  have hremove := (leaves_forgotten (e := e) other).trans
    (leaves_removeSnapshot plain plain' other (e.forgotten s n))
  rw [exec_dropDatabase]
  rcases hr : exec (removeSnapshot s n) (e.forgotten s n) with ⟨err | deleted, e₁⟩ <;>
    rw [hr] at hremove
  · exact hremove
  · dsimp only
    split <;> exact hremove

theorem leaves_edit {α : Type} (h : Handle) (f : Database → Except StorageError (α × Database))
    (e : Engine) : Leaves scope name e (exec (edit h f) e).2 := by
  rw [exec_edit]
  rcases f (e.databaseOf h) with _ | ⟨a, db⟩
  · exact .refl ..
  · exact leaves_setState h.cell db

end Engine

end Tabular
