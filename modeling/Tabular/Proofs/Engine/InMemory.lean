import Tabular.Proofs.Catalog.Table
import Tabular.Proofs.Session.Handles

/-!
The engine without a data directory.

Without a data directory nothing is stored: a database is in memory under its name or does not
exist, saving does nothing, and the operations on databases have short equations.
-/

namespace Tabular.Engine

variable {e : Engine}

theorem stored_in_memory (memory : e.dataDir = none) (scope : Scope) (name : String) :
    e.stored scope name = .ok none := by
  simp [stored, snapshotRoute?, memory]

theorem exec_load_in_memory (memory : e.dataDir = none) (scope : Scope) (name : String) :
    exec (load scope name) e = (.ok (e.live.get? scope name), e) := by
  rw [exec_load, stored_in_memory memory]
  cases e.live.get? scope name <;> rfl

theorem exec_open_in_memory (memory : e.dataDir = none) (scope : Scope) (name : String) :
    exec (Engine.open scope name) e =
      (.ok ((e.live.get? scope name).map fun cell => { scope, name, cell }), e) := by
  rw [exec_open, exec_load_in_memory memory]
  rfl

theorem exec_save_in_memory (memory : e.dataDir = none) (h : Handle) :
    exec (save h) e = (.ok (), e) := by
  simp [exec_save, snapshotRoute?, memory]

theorem exec_createDatabase_in_memory (memory : e.dataDir = none) {scope : Scope} {name : String}
    (new : e.live.get? scope name = none) :
    exec (createDatabase scope name) e =
      (.ok (.message ("Database " ++ name ++ " created.")),
        e.registered scope name (Database.new e.clock)) := by
  rw [exec_createDatabase, exec_load_in_memory memory, new]
  dsimp only
  rw [exec_save_in_memory (show (e.registered scope name _).dataDir = none from memory)]

theorem exec_dropDatabase_in_memory (memory : e.dataDir = none) (scope : Scope) (name : String) :
    exec (dropDatabase scope name) e =
      (if e.live.get? scope name = none then .error (.databaseNotFound name)
        else .ok (.message ("Database " ++ name ++ " dropped.")), e.forgotten scope name) := by
  have hremove : exec (removeSnapshot scope name) (e.forgotten scope name) =
      (.ok false, e.forgotten scope name) := by
    have hdir : (e.forgotten scope name).dataDir = none := memory
    simp [exec_removeSnapshot, snapshotRoute?, hdir]
  rw [exec_dropDatabase, hremove]
  cases e.live.get? scope name <;> simp

theorem exec_describeDatabase_snd_in_memory (memory : e.dataDir = none) (active : Option Handle)
    (name : String) : (exec (describeDatabase active name) e).2 = e := by
  rcases exec_describeDatabase_snd active name e with h | h
  · exact h
  · rw [h, exec_load_in_memory memory]

/-- A new catalog: a database in a new cell, with the table that lists no databases. -/
theorem exec_openCatalog_in_memory (memory : e.dataDir = none)
    (new : e.live.get? .system Catalog.database = none) :
    exec Catalog.open e =
      (.ok { scope := .system, name := Catalog.database, cell := e.states.length },
        (e.registered .system Catalog.database (Database.new e.clock)).setState e.states.length
          ((Database.new e.clock).setTable Catalog.table (Catalog.listing []))) := by
  have memory' : (e.registered .system Catalog.database (Database.new e.clock)).dataDir = none :=
    memory
  have live : (e.registered .system Catalog.database (Database.new e.clock)).live.get? .system
      Catalog.database = some e.states.length := by
    rw [live_registered, if_pos ⟨rfl, rfl⟩]
  have hstate : (e.registered .system Catalog.database (Database.new e.clock)).databaseOf
      { scope := .system, name := Catalog.database, cell := e.states.length } =
        Database.new e.clock :=
    state_registered e .system Catalog.database (Database.new e.clock)
  unfold Catalog.open
  rw [exec_bind_of_ok (exec_open_in_memory memory .system Catalog.database), new]
  dsimp only [Option.map_none]
  rw [exec_bind_of_ok (exec_createDatabase_in_memory memory new),
    exec_bind_of_ok (exec_open_in_memory memory' .system Catalog.database), live]
  dsimp only [Option.map_some]
  unfold createTable
  rw [exec_bind, exec_edit, hstate]
  rfl

end Tabular.Engine
