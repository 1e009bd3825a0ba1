import Tabular.Proofs.Engine.Settled

/-!
What the next process opens.

A process that starts over a folder has nothing in memory, so what it opens under a name is what the
folder stores there (`exec_open_new`). Main statement: after a saving, that is the database as it
was saved (`open_of_save`), whatever its tables, rows and cells are and whatever was in the folder
before.
-/

namespace Tabular.Engine

variable {dir : Route} {scope : Scope} {name : String} {db : Database}

/-- A new process opens the database that is stored under a name. -/
theorem exec_open_new {folder : Folder} {clock : Timestamp}
    (stored : (Engine.new (some dir) folder clock).stored scope name = .ok (some db)) :
    exec (Engine.open scope name) (Engine.new (some dir) folder clock) =
      (.ok (some { scope, name, cell := 0 }),
        (Engine.new (some dir) folder clock).registered scope name db) := by
  have hlive : (Engine.new (some dir) folder clock).live.get? scope name = none := by
    cases scope <;> rfl
  rw [exec_open, exec_load, hlive]
  dsimp only
  rw [stored]
  rfl

/-- **A saved database is opened by the next process as it was saved**: after a handle was saved, an
engine that starts over the same directory opens its name, and finds there the very database to
which the handle led. -/
theorem open_of_save {e e' : Engine} {h : Handle} (hdir : e.dataDir = some dir)
    (hdb : e.databaseOf h = db) (valid : db.createdAt.isValid = true)
    (saved : exec (save h) e = (.ok (), e')) (clock : Timestamp) :
    ∃ opened next,
      exec (Engine.open h.scope h.name) (Engine.new (some dir) e'.folder clock) =
        (.ok (some opened), next) ∧
      opened.scope = h.scope ∧ opened.name = h.name ∧ next.databaseOf opened = db ∧
      next.folder = e'.folder := by
  have hstat : e'.folder.stat (snapshotIn dir h.scope h.name) = .ok (.file db.snapshot) :=
    hdb ▸ stat_of_save hdir rfl rfl saved
  have stored := stored_of_stat (e := Engine.new (some dir) e'.folder clock) rfl valid hstat
  exact ⟨_, _, exec_open_new stored, rfl, rfl, state_registered .., rfl⟩

/-- A database that no statements make: a table without a name and without a primary key, whose
columns repeat each other and whose row has none of them. -/
def handmade : Database :=
  { createdAt := Timestamp.epoch
    tables := Keyed.ofList
      [("", { primaryKey := none
              columns := ["x", "", "x"]
              rows := [Keyed.ofList [("", none), ("\"\\\n\x01😀", some "")], Keyed.empty] }),
        ("t", { primaryKey := some "k", columns := [], rows := [Keyed.empty] })] }

theorem open_of_save_handmade :
    let e : Engine :=
      { Engine.new (some ["home"]) Folder.empty Timestamp.epoch with states := [handmade] }
    let h : Handle := { scope := .data, name := "a", cell := 0 }
    (exec (save h) e).1 = .ok () ∧
      ∃ opened next,
        exec (Engine.open .data "a")
            (Engine.new (some ["home"]) (exec (save h) e).2.folder Timestamp.epoch) =
          (.ok (some opened), next) ∧
        opened.scope = .data ∧ opened.name = "a" ∧ next.databaseOf opened = handmade ∧
        next.folder = (exec (save h) e).2.folder := by
  intro e h
  have saved : (exec (save h) e).1 = .ok () := by
    have hok : (exec (save h) e).1.isOk = true := by decide +kernel
    cases hsave : (exec (save h) e).1 with
    | ok u => rfl
    | error err =>
      rw [hsave] at hok
      exact absurd hok Bool.false_ne_true
  exact ⟨saved, open_of_save rfl rfl (by decide) (Prod.ext saved rfl) Timestamp.epoch⟩

end Tabular.Engine
