import Mathlib.Tactic.ByContra
import Tabular.Proofs.Engine.Survival
import Tabular.Proofs.Folder.Trees

/-!
Operations of the engine that are refused.

An operation on a database has several steps, and what the first ones have done stays done where a
later one fails. A drop takes the name out of memory before its snapshot is removed
(`eq_forgotten_of_dropDatabase_error`), and a creation brings the new database into memory before
its snapshot is written (`found_of_createDatabase_error`). Which database is found under a name is
compared by `Engine.FindsSame`; every other name than that of the operation is found as before.
-/

namespace Tabular

/-! ### Names that open as before -/

namespace Engine

variable {scope s : Scope} {name m : String} {e e' : Engine} {err : StorageError}

/-- The snapshots are in a tree, and the way to them only leads down. -/
structure Direct (e : Engine) : Prop where
  tree : e.folder.IsTree
  down : ∀ dir, e.dataDir = some dir → ".." ∉ dir

/-- To the snapshot of a name that can be reached in the second engine there was a way in the first
one. -/
def Reachable (m : String) (e e' : Engine) : Prop :=
  ∀ dir text, e.dataDir = some dir →
    e'.folder.stat (snapshotIn dir .data m) = .ok (.file text) →
      e.folder.stat (snapshotIn dir .data m) = .ok (.file text)

/-- Under a name the same database is found as before. A name can be found anew only by a way that
leads through a directory that has been made since. -/
structure FindsSame (m : String) (e e' : Engine) : Prop where
  dataDir : e'.dataDir = e.dataDir
  directories : e.folder.HasDirectories e'.folder
  file : ∀ dir, e.dataDir = some dir → e'.file? dir .data m = e.file? dir .data m
  found : ∀ db, e.found .data m = .ok (some db) → e'.found .data m = .ok (some db)
  only : Reachable m e e' → ∀ db, e'.found .data m = .ok (some db) → e.found .data m = .ok (some db)

/-- An operation that leaves the folder as it is. -/
theorem FindsSame.of_folder_eq (dataDir : e'.dataDir = e.dataDir) (folder : e'.folder = e.folder)
    (found : ∀ db, e.found .data m = .ok (some db) ↔ e'.found .data m = .ok (some db)) :
    FindsSame m e e' where
  dataDir := dataDir
  directories := folder ▸ .refl _
  file := fun dir _ => by unfold file?; rw [folder]
  found := fun db => (found db).1
  only := fun _ db => (found db).2

theorem FindsSame.refl (m : String) (e : Engine) : FindsSame m e e :=
  .of_folder_eq rfl rfl fun _ => Iff.rfl

theorem FindsSame.stat (h : FindsSame m e e') {dir : Route} (hdir : e.dataDir = some dir)
    {text : String} (hstat : e.folder.stat (snapshotIn dir .data m) = .ok (.file text)) :
    e'.folder.stat (snapshotIn dir .data m) = .ok (.file text) := by
  refine Folder.stat_of_directories h.directories hstat (Folder.fileAt?_eq_some_iff.1 ?_)
  exact (h.file dir hdir).trans (file?_of_stat hstat)

theorem FindsSame.trans {e₁ e₂ e₃ : Engine} (h : FindsSame m e₁ e₂) (h' : FindsSame m e₂ e₃) :
    FindsSame m e₁ e₃ where
  dataDir := h'.dataDir.trans h.dataDir
  directories := h.directories.trans h'.directories
  file := fun dir hdir => (h'.file dir (h.dataDir.trans hdir)).trans (h.file dir hdir)
  found := fun db hdb => h'.found db (h.found db hdb)
  only := by
    intro reachable db hdb
    refine h.only (fun dir text hdir hstat => ?_) db
      (h'.only (fun dir text hdir hstat => ?_) db hdb)
    · exact reachable dir text hdir (h'.stat (h.dataDir.trans hdir) hstat)
    · have hdir' := h.dataDir.symm.trans hdir
      exact h.stat hdir' (reachable dir text hdir' hstat)

/-- Nothing can be reached anew where no way to a snapshot leads up, and nothing where no directory
has been made. -/
theorem FindsSame.reachable (h : FindsSame m e e') (plain : PlainName m)
    (back : e.Direct ∨ e'.folder.HasDirectories e.folder) : Reachable m e e' := by
  intro dir text hdir hstat
  have hfile : e.folder.entryAt? (snapshotIn dir .data m).path = some (.file text) :=
    Folder.fileAt?_eq_some_iff.1 ((h.file dir hdir).symm.trans (file?_of_stat hstat))
  obtain direct | back := back
  · refine Folder.stat_of_isTree direct.tree (fun hmem => ?_) hfile hstat
    rw [snapshotIn_eq plain, List.mem_append] at hmem
    obtain hmem | hmem := hmem
    · exact direct.down dir hdir hmem
    · -- neither the directory of a scope nor the name of a snapshot leads up
      have hlast := step_json [] m
      simp only [List.mem_cons, List.not_mem_nil, or_false] at hmem
      obtain hscope | hjson := hmem
      · exact absurd hscope (by decide)
      · rw [← hjson] at hlast
        exact absurd hlast (by decide)
  · exact Folder.stat_of_directories back hstat hfile

theorem Leaves.found (leaves : Leaves scope name e e')
    (state : ∀ c, e.live.get? scope name = some c → e'.state c = e.state c) {db : Database}
    (hfound : e.found scope name = .ok (some db)) : e'.found scope name = .ok (some db) := by
  unfold Engine.found at hfound ⊢
  rw [leaves.live]
  cases hlive : e.live.get? scope name with
  | some c =>
    rw [hlive] at hfound
    dsimp only at hfound ⊢
    rw [state c hlive]
    exact hfound
  | none =>
    rw [hlive] at hfound
    exact leaves.stored hfound

theorem found_of_live {c : Nat} (hlive : e.live.get? scope name = some c) :
    e.found scope name = .ok (some (e.state c)) := by
  unfold Engine.found
  rw [hlive]

theorem found_of_not_live (hlive : e.live.get? scope name = none) :
    e.found scope name = e.stored scope name := by
  unfold Engine.found
  rw [hlive]

/-- What is stored can be reached. -/
theorem stored_of_reachable (reachable : Reachable m e e') (dataDir : e'.dataDir = e.dataDir)
    {db : Database} (hstored : e'.stored .data m = .ok (some db)) :
    e.stored .data m = .ok (some db) := by
  obtain hdir | ⟨dir, hdir⟩ : e.dataDir = none ∨ ∃ dir, e.dataDir = some dir := by
    cases e.dataDir <;> simp
  · simp [stored, snapshotRoute?, dataDir.trans hdir] at hstored
  · rw [stored_eq (dataDir.trans hdir)] at hstored
    rw [stored_eq hdir]
    rcases hstat : e'.folder.stat (snapshotIn dir .data m) with kind | text | _ <;>
      rw [hstat] at hstored
    · cases kind <;> simp at hstored
    · rw [reachable dir text hdir hstat]
      exact hstored
    · simp at hstored

/-- A database that is left alone, in memory as well, is found as before. -/
theorem Leaves.findsSame (leaves : Leaves .data m e e')
    (state : ∀ c, e.live.get? .data m = some c → e'.state c = e.state c) : FindsSame m e e' where
  dataDir := leaves.dataDir
  directories := leaves.directories
  file := leaves.file
  found := fun _ => leaves.found state
  only := by
    intro reachable db hfound
    unfold Engine.found at hfound ⊢
    rw [leaves.live] at hfound
    cases hlive : e.live.get? .data m with
    | some c =>
      rw [hlive] at hfound
      dsimp only at hfound ⊢
      rw [← state c hlive]
      exact hfound
    | none =>
      rw [hlive] at hfound
      exact stored_of_reachable reachable leaves.dataDir hfound

/-- Loading a database changes nothing about which ones are found. -/
theorem findsSame_load (ordered : e.Ordered) (name : String) :
    FindsSame m e (exec (load .data name) e).2 := by
  by_cases hname : name = m
  · subst hname
    have hfound : (exec (load .data name) e).2.found .data name = e.found .data name := by
      rw [exec_load]
      cases hlive : e.live.get? .data name with
      | some c => rfl
      | none =>
        rcases hstored : e.stored .data name with err | _ | db
        · rfl
        · rfl
        · dsimp only
          unfold found
          rw [live_registered, if_pos ⟨rfl, rfl⟩, hlive]
          dsimp only
          rw [state_registered, hstored]
    exact .of_folder_eq (evolves_load .data name e).dataDir (folder_of_load rfl) fun db => by
      rw [hfound]
  · refine (leaves_load (fun h => hname h.2) e).findsSame fun c hc => ?_
    rw [exec_load]
    cases e.live.get? .data name with
    | some cell => rfl
    | none =>
      rcases e.stored .data name with err | _ | db
      · rfl
      · rfl
      · exact state_registered_of_lt e .data name db (ordered.cell_lt .data m c hc)

/-! ### Refusals of the engine -/

/-- A snapshot that cannot be removed stays. -/
theorem eq_of_removeSnapshot_error
    (hremove : exec (removeSnapshot scope name) e = (.error err, e')) : e' = e := by
  rw [exec_removeSnapshot] at hremove
  split at hremove
  · exact nomatch (Prod.mk.inj hremove).1
  · split at hremove
    · exact (Prod.mk.inj hremove).2.symm
    · exact nomatch (Prod.mk.inj hremove).1
    · split at hremove
      · exact (Prod.mk.inj hremove).2.symm
      · exact nomatch (Prod.mk.inj hremove).1

/-- Where there is no snapshot, none is removed. -/
theorem eq_of_removeSnapshot_false
    (hremove : exec (removeSnapshot scope name) e = (.ok false, e')) : e' = e := by
  rw [exec_removeSnapshot] at hremove
  split at hremove
  · exact (Prod.mk.inj hremove).2.symm
  · split at hremove
    · exact nomatch (Prod.mk.inj hremove).1
    · exact (Prod.mk.inj hremove).2.symm
    · split at hremove
      · exact nomatch (Prod.mk.inj hremove).1
      · simp at hremove

/-- **A drop that fails** has still taken the name out of memory, and done nothing else. -/
theorem eq_forgotten_of_dropDatabase_error
    (hdrop : exec (dropDatabase scope name) e = (.error err, e')) :
    e' = e.forgotten scope name := by
  rw [exec_dropDatabase] at hdrop
  rcases hremove : exec (removeSnapshot scope name) (e.forgotten scope name) with
    ⟨err₁ | deleted, e₁⟩ <;> rw [hremove] at hdrop
  · obtain ⟨-, rfl⟩ := Prod.mk.inj hdrop
    exact eq_of_removeSnapshot_error hremove
  · dsimp only at hdrop
    split at hdrop
    · next hnone =>
      obtain ⟨-, rfl⟩ := Prod.mk.inj hdrop
      exact eq_of_removeSnapshot_false (hnone.2 ▸ hremove)
    · exact nomatch (Prod.mk.inj hdrop).1

/-- What is found under a name that has been taken out of memory is what the folder holds. -/
theorem found_forgotten_self (scope : Scope) (name : String) (e : Engine) :
    (e.forgotten scope name).found scope name = e.stored scope name := by
  have hlive : (e.forgotten scope name).live.get? scope name = none := by
    rw [live_forgotten, if_pos ⟨rfl, rfl⟩]
  exact found_of_not_live hlive

/-- A drop that fails changes nothing about which databases are found exactly where the folder holds
what was found under the name. -/
theorem found_of_dropDatabase_error
    (hdrop : exec (dropDatabase scope name) e = (.error err, e')) :
    (∀ s n, e'.found s n = e.found s n) ↔ e.found scope name = e.stored scope name := by
  obtain rfl := eq_forgotten_of_dropDatabase_error hdrop
  constructor
  · intro same
    exact (same scope name).symm.trans (found_forgotten_self scope name e)
  · intro hstored s n
    by_cases hname : scope = s ∧ name = n
    · obtain ⟨rfl, rfl⟩ := hname
      exact (found_forgotten_self scope name e).trans hstored.symm
    · unfold found
      rw [live_forgotten, if_neg hname]
      rfl

/-- A name that is not the dropped one is found as before. So is the dropped one where the folder
holds the database that was found under it. -/
theorem findsSame_forgotten
    (other : m ≠ name ∨
      ∀ db, e.found .data name = .ok (some db) → e.stored .data name = .ok (some db)) :
    FindsSame m e (e.forgotten .data name) := by
  by_cases hm : m = name
  · subst hm
    have hstored := other.resolve_left fun hne => hne rfl
    refine .of_folder_eq rfl rfl fun db => ?_
    rw [found_forgotten_self]
    refine ⟨hstored db, fun hdb => ?_⟩
    cases hlive : e.live.get? .data m with
    | none => exact (found_of_not_live hlive).trans hdb
    | some c =>
      rw [← hdb, hstored _ (found_of_live hlive)]
      exact found_of_live hlive
  · exact (leaves_forgotten fun h => hm h.2.symm).findsSame fun _ _ => rfl

/-- Creating a database leaves those that are in memory as they are. -/
theorem state_createDatabase (name : String) {c : Nat} (hc : c < e.states.length) :
    (exec (createDatabase scope name) e).2.state c = e.state c := by
  have hload : ∀ r e₁, exec (load scope name) e = (r, e₁) → e₁.state c = e.state c := by
    intro r e₁ hload
    rw [exec_load] at hload
    split at hload
    · rw [← (Prod.mk.inj hload).2]
    · split at hload <;> rw [← (Prod.mk.inj hload).2]
      exact state_registered_of_lt e scope name _ hc
  rw [exec_createDatabase]
  rcases hl : exec (load scope name) e with ⟨err | _ | cell, e₁⟩
  · exact hload _ _ hl
  · obtain ⟨rfl, -⟩ := eq_of_load_none hl
    dsimp only
    obtain ⟨folder, hfolder⟩ := exec_save_snd { scope, name, cell := e₁.states.length }
      (e₁.registered scope name (Database.new e₁.clock))
    rcases hs : exec (save { scope, name, cell := e₁.states.length })
      (e₁.registered scope name (Database.new e₁.clock)) with ⟨_ | _, e₂⟩ <;> rw [hs] at hfolder <;>
      rw [show e₂ = _ from hfolder] <;>
      exact state_registered_of_lt e₁ scope name (Database.new e₁.clock) hc
  · exact hload _ _ hl

/-- Another database than the created one is found as before. -/
theorem findsSame_createDatabase (ordered : e.Ordered) (plain : PlainName name)
    (plain' : PlainName m) (other : m ≠ name) :
    FindsSame m e (exec (createDatabase .data name) e).2 :=
  (leaves_createDatabase plain plain' (fun h => other h.2.symm) e).findsSame fun c hc =>
    state_createDatabase name (ordered.cell_lt .data m c hc)

/-- What creating a database of the users leaves as it is: the catalog, the databases in memory, and
what is found under other names. -/
theorem createDatabase_spares (ordered : e.Ordered) (plain : PlainName name)
    {r : Except StorageError Outcome} (hcreate : exec (createDatabase .data name) e = (r, e')) :
    Spares .system e e' ∧ (∀ c, c < e.states.length → e'.state c = e.state c) ∧
      ∀ m, PlainName m → m ≠ name → FindsSame m e e' := by
  have hspares : Spares .system e (exec (createDatabase .data name) e).2 :=
    spares_createDatabase ordered (by simp) name
  have hstate : ∀ c, c < e.states.length →
      (exec (createDatabase .data name) e).2.state c = e.state c :=
    fun _ hc => state_createDatabase name hc
  have hother := fun m (plain' : PlainName m) (hm : m ≠ name) =>
    findsSame_createDatabase ordered plain plain' hm
  rw [hcreate] at hspares hstate hother
  exact ⟨hspares, hstate, hother⟩

/-- **A creation that fails** has brought the new database into memory where there was none of the
name, because its snapshot could not be written. Otherwise the name is found as before. -/
theorem found_of_createDatabase_error (ordered : e.Ordered)
    (hcreate : exec (createDatabase .data name) e = (.error err, e')) :
    (e.found .data name = .ok none ∧ e'.found .data name = .ok (some (Database.new e.clock))) ∨
      e.found .data name ≠ .ok none ∧ FindsSame name e e' := by
  have hmap := map_state_of_load .data name e
  have hsame := findsSame_load (m := name) ordered name
  rw [exec_createDatabase] at hcreate
  rcases hload : exec (load .data name) e with ⟨err₁ | _ | c, e₁⟩ <;>
    rw [hload] at hcreate hmap hsame
  · obtain ⟨-, rfl⟩ := Prod.mk.inj hcreate
    refine .inr ⟨?_, hsame⟩
    rw [← hmap]
    simp [Except.map]
  · obtain ⟨rfl, -⟩ := eq_of_load_none hload
    refine .inl ⟨hmap.symm, ?_⟩
    obtain ⟨folder, hfolder⟩ := exec_save_snd { scope := .data, name, cell := e₁.states.length }
      (e₁.registered .data name (Database.new e₁.clock))
    dsimp only at hcreate
    rcases hs : exec (save { scope := .data, name, cell := e₁.states.length })
      (e₁.registered .data name (Database.new e₁.clock)) with ⟨_ | _, e₂⟩ <;>
      rw [hs] at hfolder hcreate
    · obtain ⟨-, rfl⟩ := Prod.mk.inj hcreate
      rw [show e₂ = _ from hfolder]
      have hlive : (e₁.registered .data name (Database.new e₁.clock)).live.get? .data name =
          some e₁.states.length := by
        rw [live_registered, if_pos ⟨rfl, rfl⟩]
      exact (found_of_live
        (e := { e₁.registered .data name (Database.new e₁.clock) with folder }) hlive).trans
          (congrArg (fun db => Except.ok (some db)) (state_registered e₁ .data name _))
    · simp at hcreate
  · obtain ⟨-, rfl⟩ := Prod.mk.inj hcreate
    refine .inr ⟨?_, hsame⟩
    rw [← hmap]
    simp [Except.map]

end Engine

end Tabular
