import Tabular.Proofs.Engine.Refused
import Tabular.Proofs.Session.Handles

/-!
The folder of an engine stays a tree.

An engine makes directories, writes files and removes them, each at the route of a snapshot. The
steps of such a route are single names, so what was a tree before an operation is one after it
(`Engine.OverTree`). Main statement: in every world that a run reaches from the empty folder, the
snapshots are in a tree and the way to them only leads down (`World.direct_run`), if no step of the
data directory leads up. There a statement that is refused brings no other database into reach.
-/

namespace Tabular

/-! ### Routes of snapshots -/

theorem Text.not_mem_of_mem_splitAll {separator : Char} {s part : List Char}
    (h : part ∈ Text.splitAll separator s) : separator ∉ part := by
  induction s generalizing part with
  | nil =>
    rw [List.mem_singleton.1 h]
    exact List.not_mem_nil
  | cons c s ih =>
    unfold Text.splitAll at h
    split at h
    · rcases List.mem_cons.1 h with rfl | h
      · exact List.not_mem_nil
      · exact ih h
    · next hc =>
      cases hsplit : Text.splitAll separator s with
      | nil =>
        rw [hsplit] at h
        rw [List.mem_singleton.1 h, List.mem_singleton]
        exact fun heq => hc heq.symm
      | cons first rest =>
        rw [hsplit] at h ih
        rcases List.mem_cons.1 h with rfl | h
        · rw [List.mem_cons, not_or]
          exact ⟨fun heq => hc heq.symm, ih List.mem_cons_self⟩
        · exact ih (List.mem_cons_of_mem _ h)

theorem Route.isPlain_ofText (text : String) : (Route.ofText text).IsPlain := by
  intro s hs
  obtain ⟨part, hpart, rfl⟩ := List.mem_map.1 hs
  rw [String.toList_ofList]
  exact Text.not_mem_of_mem_splitAll hpart

namespace Engine

variable {e : Engine} {scope : Scope} {name : String} {α : Type}

/-- The folder is a tree, and the data directory is reached by single names, none of which leads
up. -/
structure OverTree (e : Engine) : Prop where
  tree : e.folder.IsTree
  plain : ∀ dir, e.dataDir = some dir → Route.IsPlain dir
  down : ∀ dir, e.dataDir = some dir → ".." ∉ dir

theorem OverTree.direct (h : e.OverTree) : e.Direct := ⟨h.tree, h.down⟩

theorem OverTree.isPlain_route (h : e.OverTree) {route : Route}
    (hroute : e.snapshotRoute? scope name = some route) : route.IsPlain := by
  obtain ⟨dir, hdir, rfl⟩ := Option.map_eq_some_iff.1 hroute
  unfold snapshotIn Route.join
  split
  · exact Route.isPlain_ofText _
  · intro s hs
    rcases List.mem_append.1 hs with hs | hs
    · rcases List.mem_append.1 hs with hs | hs
      · exact h.plain dir hdir s hs
      · rw [List.mem_singleton.1 hs]
        cases scope <;> decide
    · exact Route.isPlain_ofText _ s hs

theorem OverTree.withFolder (h : e.OverTree) {folder : Folder} (tree : folder.IsTree) :
    OverTree { e with folder } :=
  ⟨tree, h.plain, h.down⟩

/-! ### Operations -/

theorem overTree_load (h : e.OverTree) (scope : Scope) (name : String) :
    (exec (load scope name) e).2.OverTree := by
  rw [exec_load]
  cases e.live.get? scope name with
  | some cell => exact h
  | none => rcases e.stored scope name with err | _ | db <;> exact ⟨h.tree, h.plain, h.down⟩

theorem overTree_save (h : e.OverTree) (handle : Handle) : (exec (save handle) e).2.OverTree := by
  rw [exec_save]
  cases hroute : e.snapshotRoute? handle.scope handle.name with
  | none => exact h
  | some route =>
    have plain := h.isPlain_route hroute
    dsimp only
    cases hmade : e.folder.makeDirectories route.dropLast with
    | error kind => exact h
    | ok made =>
      have tree := Folder.isTree_makeDirectories h.tree
        (fun s hs => plain s (List.dropLast_subset route hs)) hmade
      dsimp only
      cases hwritten : made.write route (e.databaseOf handle).snapshot with
      | error kind => exact h.withFolder tree
      | ok written => exact h.withFolder (Folder.isTree_write tree plain hwritten)

theorem overTree_createDatabase (h : e.OverTree) (scope : Scope) (name : String) :
    (exec (createDatabase scope name) e).2.OverTree := by
  have hload := overTree_load h scope name
  rw [exec_createDatabase]
  rcases hl : exec (load scope name) e with ⟨err | _ | cell, e₁⟩ <;> rw [hl] at hload
  · exact hload
  · have registered : (e₁.registered scope name (Database.new e₁.clock)).OverTree :=
      ⟨hload.tree, hload.plain, hload.down⟩
    have hsave := overTree_save registered { scope, name, cell := e₁.states.length }
    dsimp only
    rcases hs : exec (save { scope, name, cell := e₁.states.length })
      (e₁.registered scope name (Database.new e₁.clock)) with ⟨_ | _, e₂⟩ <;> rw [hs] at hsave <;>
      exact hsave
  · exact hload

theorem overTree_removeSnapshot (h : e.OverTree) (scope : Scope) (name : String) :
    (exec (removeSnapshot scope name) e).2.OverTree := by
  rw [exec_removeSnapshot]
  cases e.snapshotRoute? scope name with
  | none => exact h
  | some route =>
    dsimp only
    rcases e.folder.exists? route with kind | _ | _
    · exact h
    · exact h
    · cases hremoved : e.folder.remove route with
      | error kind => exact h
      | ok folder => exact h.withFolder (Folder.isTree_remove h.tree hremoved)

theorem overTree_dropDatabase (h : e.OverTree) (scope : Scope) (name : String) :
    (exec (dropDatabase scope name) e).2.OverTree := by
  have forgotten : (e.forgotten scope name).OverTree := ⟨h.tree, h.plain, h.down⟩
  have hremove := overTree_removeSnapshot forgotten scope name
  rw [exec_dropDatabase]
  rcases hr : exec (removeSnapshot scope name) (e.forgotten scope name) with ⟨err | deleted, e₁⟩ <;>
    rw [hr] at hremove
  · exact hremove
  · dsimp only
    split <;> exact hremove

theorem overTree_edit (h : e.OverTree) (handle : Handle)
    (f : Database → Except StorageError (α × Database)) :
    (exec (edit handle f) e).2.OverTree := by
  rw [exec_edit]
  rcases f (e.databaseOf handle) with err | ⟨a, db⟩
  · exact h
  · exact ⟨h.tree, h.plain, h.down⟩

end Engine

/-! ### Sessions -/

namespace Catalog

open Engine

theorem overTree_open : Ensures OverTree Catalog.open (fun _ => OverTree) (fun _ => OverTree) := by
  have hopen : Ensures OverTree (Engine.open .system database) (fun _ => OverTree)
      (fun _ => OverTree) := by
    refine Ensures.always_iff.2 fun e h => ?_
    rw [exec_open_snd]
    exact overTree_load h .system database
  unfold Catalog.open
  refine hopen.bind ?_
  rintro (_ | c)
  · refine Ensures.bind (R := fun _ => OverTree)
      (Ensures.always_iff.2 fun e h => overTree_createDatabase h .system database) fun _ =>
        hopen.bind ?_
    rintro (_ | c)
    · exact Ensures.throw fun _ h => h
    · exact Ensures.bind (R := fun _ => OverTree)
        (Ensures.always_iff.2 fun e h => overTree_edit h c _) fun _ => Ensures.pure fun _ h => h
  · exact Ensures.pure fun _ h => h

end Catalog

namespace Session

/-- What a session sees is over a tree. -/
def OverTree (p : Interpreter × Session) : Prop := p.1.engine.OverTree

variable {α : Type}

theorem overTree_storage {act : EngineM α}
    (h : ∀ e : Engine, e.OverTree → (exec act e).2.OverTree) :
    Ensures OverTree (storage act) (fun _ => OverTree) (fun _ => OverTree) := by
  refine Ensures.always_iff.2 fun p hp => ?_
  rw [exec_storage_snd]
  exact h p.1.engine hp

theorem overTree_catalog :
    Ensures OverTree catalog (fun _ => OverTree) (fun _ => OverTree) := by
  refine ensures_catalog (fun _ _ hp _ => hp) (fun p c e hp _ hopen => ?_)
    fun p err e hp _ hopen => ?_
  all_goals
    have h := Catalog.overTree_open p.1.engine hp
    rw [hopen] at h
    exact h

theorem overTree_saveActive :
    Ensures OverTree saveActive (fun _ => OverTree) (fun _ => OverTree) :=
  ensures_saveActive (fun _ hp _ => hp) fun h =>
    (overTree_storage fun _ he => Engine.overTree_save he h).mono_pre fun _ hp => hp.1

theorem overTree_select (name : String) :
    Ensures OverTree (select name) (fun _ => OverTree) (fun _ => OverTree) := by
  unfold select
  refine overTree_saveActive.bind fun _ => Ensures.bind (R := fun _ => OverTree)
    (overTree_storage fun e he => ?_) ?_
  · rw [Engine.exec_open_snd]
    exact Engine.overTree_load he .data name
  · rintro (_ | h)
    · exact Ensures.throw fun _ hp => hp
    · exact Ensures.bind (R := fun _ => OverTree) (Ensures.modify fun _ hp => hp) fun _ =>
        Ensures.pure fun _ hp => hp

theorem overTree_save : Ensures OverTree save (fun _ => OverTree) (fun _ => OverTree) := by
  unfold save
  exact overTree_saveActive.bind fun _ => overTree_catalog.bind fun c =>
    overTree_storage fun _ he => Engine.overTree_save he c

theorem overTree_createDatabase (name : String) :
    Ensures OverTree (createDatabase name) (fun _ => OverTree) (fun _ => OverTree) := by
  unfold createDatabase
  exact overTree_catalog.bind fun c =>
    Ensures.bind (R := fun _ => OverTree)
      (overTree_storage fun _ he => Engine.overTree_edit he c _) fun _ =>
        overTree_storage fun _ he => Engine.overTree_createDatabase he .data name

theorem overTree_query (h : Handle) (f : Database → Except StorageError α) :
    Ensures OverTree (storage (Engine.query h f)) (fun _ => OverTree) (fun _ => OverTree) := by
  refine overTree_storage fun e he => ?_
  rw [Engine.exec_query]
  exact he

variable [PatternCompiler]

theorem overTree_dropDatabase (name : String) :
    Ensures OverTree (dropDatabase name) (fun _ => OverTree) (fun _ => OverTree) := by
  unfold dropDatabase
  exact overTree_catalog.bind fun c =>
    Ensures.bind (R := fun _ => OverTree)
      (overTree_storage fun _ he => Engine.overTree_edit he c _) fun _ =>
        Ensures.bind (R := fun _ => OverTree)
          (overTree_storage fun _ he => Engine.overTree_dropDatabase he .data name) fun outcome =>
            ensures_forget name outcome fun _ hp => hp

/-- **Whatever a session runs, the folder stays a tree.** -/
theorem overTree_dispatch (st : Statement) :
    Ensures OverTree (dispatch st) (fun _ => OverTree) (fun _ => OverTree) := by
  intro p hp
  obtain ⟨act, performs, hexec⟩ := exists_performs st p
  rw [hexec]
  cases performs with
  | select name => exact overTree_select name p hp
  | create name => exact overTree_createDatabase name p hp
  | drop name => exact overTree_dropDatabase name p hp
  | list pattern =>
    unfold listDatabases
    exact overTree_catalog.bind (fun c => overTree_query c _) p hp
  | describe name =>
    refine overTree_storage (fun e he => ?_) p hp
    rcases Engine.exec_describeDatabase_snd p.2.active name e with h | h <;> rw [h]
    · exact he
    · exact Engine.overTree_load he .data name
  | query active f => exact overTree_query _ f p hp
  | edit active f => exact overTree_storage (fun _ he => Engine.overTree_edit he _ f) p hp
  | refuse err => exact hp

theorem overTree_execute (raw : String) :
    Ensures OverTree (execute raw) (fun _ => OverTree) (fun _ => OverTree) := by
  unfold execute
  cases Statement.parse raw with
  | ok st => exact overTree_dispatch st
  | error cause => exact Ensures.throw fun _ hp => hp

end Session

/-! ### Runs -/

namespace World

variable [PatternCompiler] {w : World}

theorem overTree_after (h : w.engine.OverTree) (step : Step) :
    (w.after step).engine.OverTree := by
  cases step with
  | statement client text =>
    exact Ensures.always_iff.1 (Session.overTree_execute text) (w.view client) h
  | save client => exact Ensures.always_iff.1 Session.overTree_save (w.view client) h
  | restart clock => exact ⟨h.tree, h.plain, h.down⟩

theorem overTree_run (h : w.engine.OverTree) (steps : List Step) :
    (w.run steps).engine.OverTree := by
  induction steps generalizing w with
  | nil => exact h
  | cons step steps ih => exact ih (overTree_after h step)

/-- **In every world that a run reaches from the empty folder, the snapshots are in a tree, and the
way to them only leads down**, if that to the data directory does. -/
theorem direct_run {dir : Route} (plain : dir.IsPlain) (down : ".." ∉ dir) (clock : Timestamp)
    (steps : List Step) :
    ((start (Engine.new (some dir) Folder.empty clock)).run steps).engine.Direct := by
  have new : (start (Engine.new (some dir) Folder.empty clock)).engine.OverTree :=
    { tree := Folder.isTree_empty
      plain := fun _ hdir => Option.some.inj hdir ▸ plain
      down := fun _ hdir => Option.some.inj hdir ▸ down }
  exact (overTree_run new steps).direct

end World

end Tabular
