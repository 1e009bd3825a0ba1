import Tabular.Proofs.Catalog.Storage

/-!
Opening the catalog.

Whatever engine the catalog is opened in, one of four things happens (`Catalog.opening`): it is in
memory, or in the folder, or cannot be read there, or it is missing and a new one is created.
`Interpreter.catalogFound` is the catalog that an interpreter has or will open.
-/

namespace Tabular

namespace Catalog

/-- A catalog as it is when it has just been created, without its table or with it. -/
def IsNew (clock : Timestamp) (db : Database) : Prop :=
  db = Database.new clock ∨ db = (Database.new clock).setTable table (listing [])

/-- What opening the catalog comes down to: it is in memory, or in the folder, or cannot be read
there, or it is missing and a new one is created, as far as that succeeds. -/
inductive Opening (e : Engine) : Except StorageError Handle → Engine → Prop where
  | inMemory {c : Nat} (hlive : e.live.get? .system database = some c) :
      Opening e (.ok { scope := .system, name := database, cell := c }) e
  | unreadable {err : StorageError} (hlive : e.live.get? .system database = none)
      (hstored : e.stored .system database = .error err) : Opening e (.error err) e
  | inFolder {db : Database} (hlive : e.live.get? .system database = none)
      (hstored : e.stored .system database = .ok (some db)) :
      Opening e (.ok { scope := .system, name := database, cell := e.states.length })
        (e.registered .system database db)
  | created {r : Except StorageError Handle} {db : Database} {folder : Folder}
      (hlive : e.live.get? .system database = none)
      (hstored : e.stored .system database = .ok none) (isNew : IsNew e.clock db)
      (flushed : e.Flushed { scope := .system, name := database, cell := e.states.length } folder)
      (hr : ∀ h, r = .ok h → h = { scope := .system, name := database, cell := e.states.length }) :
      Opening e r (Engine.registered { e with folder } .system database db)

/-- Opening the catalog where it is missing. -/
theorem opening_of_missing {e : Engine} (hlive : e.live.get? .system database = none)
    (hstored : e.stored .system database = .ok none) :
    Opening e (exec Catalog.open e).1 (exec Catalog.open e).2 := by
  have hload : exec (Engine.load .system database) e = (.ok none, e) := by
    rw [Engine.exec_load, hlive, hstored]
  have hfirst : exec (Engine.open .system database) e = (.ok none, e) := by
    rw [Engine.exec_open, hload]
    rfl
  have hcreate := Engine.exec_createDatabase .system database e
  rw [hload] at hcreate
  dsimp only at hcreate
  obtain ⟨folder, hflushed, hfolder⟩ := Engine.exec_save_flushed
    { scope := .system, name := database, cell := e.states.length }
    (e.registered .system database (Database.new e.clock))
  have flushed : e.Flushed { scope := .system, name := database, cell := e.states.length } folder :=
    ⟨hflushed.directories, hflushed.files⟩
  unfold Catalog.open
  rw [exec_bind_of_ok hfirst]
  dsimp only
  rcases hsave : exec (Engine.save { scope := .system, name := database, cell := e.states.length })
    (e.registered .system database (Database.new e.clock)) with ⟨err | _, e₁⟩ <;>
    rw [hsave] at hcreate hfolder <;> dsimp only at hcreate hfolder
  · obtain rfl : e₁ = Engine.registered { e with folder } .system database (Database.new e.clock) :=
      hfolder
    rw [exec_bind_of_error hcreate]
    exact .created hlive hstored (.inl rfl) flushed (by simp)
  · obtain rfl : e₁ = Engine.registered { e with folder } .system database (Database.new e.clock) :=
      hfolder
    generalize he₁ :
      Engine.registered { e with folder } .system database (Database.new e.clock) = e₁ at *
    have hlive₁ : e₁.live.get? .system database = some e.states.length := by
      rw [← he₁, Engine.live_registered, if_pos ⟨rfl, rfl⟩]
    have hsecond : exec (Engine.open .system database) e₁ =
        (.ok (some { scope := .system, name := database, cell := e.states.length }), e₁) := by
      rw [Engine.exec_open, Engine.exec_load_of_live hlive₁]
      rfl
    have hnew : e₁.databaseOf { scope := .system, name := database, cell := e.states.length } =
        Database.new e₁.clock := by
      rw [← he₁]
      exact Engine.state_registered { e with folder } .system database _
    have hset : e₁.setState e.states.length
        ((Database.new e₁.clock).setTable table (listing [])) =
        Engine.registered { e with folder } .system database
          ((Database.new e.clock).setTable table (listing [])) := by
      rw [← he₁]
      simp [Engine.setState, Engine.registered]
    rw [exec_bind_of_ok hcreate, exec_bind_of_ok hsecond]
    dsimp only
    rw [exec_bind_of_ok (exec_createTable_of_new hnew)]
    dsimp only [exec_pure]
    rw [hset]
    refine .created hlive hstored (.inr rfl) flushed ?_
    rintro h ⟨⟩
    rfl

theorem opening (e : Engine) : Opening e (exec Catalog.open e).1 (exec Catalog.open e).2 := by
  cases hlive : e.live.get? .system database with
  | some c =>
    rw [exec_open_of_load (Engine.exec_load_of_live hlive)]
    exact .inMemory hlive
  | none =>
    rcases hstored : e.stored .system database with err | _ | db
    · have hopen : exec (Engine.open .system database) e = (.error err, e) := by
        rw [Engine.exec_open, Engine.exec_load, hlive, hstored]
        rfl
      unfold Catalog.open
      rw [exec_bind_of_error hopen]
      exact .unreadable hlive hstored
    · exact opening_of_missing hlive hstored
    · have hload : exec (Engine.load .system database) e =
          (.ok (some e.states.length), e.registered .system database db) := by
        rw [Engine.exec_load, hlive, hstored]
      rw [exec_open_of_load hload]
      exact .inFolder hlive hstored

end Catalog

/-- The catalog as an interpreter finds it: the open one, the one in memory, or else what the folder
holds. -/
def Interpreter.catalogFound (i : Interpreter) : Except StorageError (Option Database) :=
  match i.catalog with
  | some h => .ok (some (i.engine.databaseOf h))
  | none => i.engine.found .system Catalog.database

/-- The catalog of an interpreter that has not opened any. -/
theorem Interpreter.catalogFound_of_none {i : Interpreter} (hcatalog : i.catalog = none) :
    i.catalogFound = i.engine.found .system Catalog.database := by
  unfold catalogFound
  rw [hcatalog]

end Tabular
