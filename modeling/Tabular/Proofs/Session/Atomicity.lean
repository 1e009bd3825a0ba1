import Mathlib.Control.Monad.Basic
import Tabular.Proofs.Catalog.Opening

/-!
Statements that fail.

A statement that fails leaves behind what it found: the tables of every database in memory, the
names that lead to them, the selection and the catalog. This is stated for every interpreter and
session, reachable or not, and for every folder. Two things are excepted, and `Session.Unchanged`
says how far they go: `INIT` first flushes the database that is selected, which writes the snapshot
of that database, and whoever asks for a catalog that is missing has a new one created. Main
statement: `Session.unchanged_of_error`, for all statements but those that create or drop a
database.
-/

namespace Tabular

namespace Session

/-- The database that a statement flushes before it does anything else: with `INIT`, the one that is
selected. -/
def flushed? (raw : String) (s : Session) : Option Handle :=
  match Statement.parse raw with
  | .ok (.init _) => s.active
  | _ => none

/-- What a session sees is as it was, but for the snapshot of a database that is flushed, and for a
new catalog where there was none. -/
structure Unchanged (flushed : Option Handle) (p p' : Interpreter × Session) : Prop where
  /-- The selection is the same. -/
  selection : p'.2 = p.2
  /-- Every database in memory has the tables that it had, whether a name still leads to it or only
  a handle does. -/
  tables : ∀ c, c < p.1.engine.states.length → p'.1.engine.state c = p.1.engine.state c
  /-- Every name in memory leads where it did. -/
  names : ∀ scope name c, p.1.engine.live.get? scope name = some c →
    p'.1.engine.live.get? scope name = some c
  /-- No name of a user's database is new in memory. -/
  users : ∀ name, p'.1.engine.live.get? .data name = p.1.engine.live.get? .data name
  /-- An open catalog is still the open one. -/
  catalog : ∀ h, p.1.catalog = some h → p'.1.catalog = some h
  /-- A catalog that is there, open or not, in memory or in the folder, is what it was, unless its
  file is the one that is written. -/
  rows : (∀ h, flushed = some h → ∀ q, p.1.engine.IsSnapshotPath .system Catalog.database q →
      ¬p.1.engine.IsSnapshotPath h.scope h.name q) →
    ∀ db, p.1.catalogFound = .ok (some db) → p'.1.catalogFound = .ok (some db)
  /-- Where nothing is flushed, there is no catalog that was not there, but for a new one. -/
  created : flushed = none → p'.1.catalogFound = p.1.catalogFound ∨
    p.1.catalogFound = .ok none ∧
      ∃ db, p'.1.catalogFound = .ok (some db) ∧ Catalog.IsNew p.1.engine.clock db
  /-- No file is another one but the snapshot that is flushed, or the one of a new catalog. -/
  files : ∀ q, p'.1.engine.folder.fileAt? q ≠ p.1.engine.folder.fileAt? q →
    (∃ h, flushed = some h ∧ p.1.engine.IsSnapshotPath h.scope h.name q) ∨
      p.1.catalogFound = .ok none ∧ p.1.engine.IsSnapshotPath .system Catalog.database q

theorem Unchanged.refl (flushed : Option Handle) (p : Interpreter × Session) :
    Unchanged flushed p p where
  selection := rfl
  tables := fun _ _ => rfl
  names := fun _ _ _ h => h
  users := fun _ => rfl
  catalog := fun _ h => h
  rows := fun _ _ h => h
  created := fun _ => .inl rfl
  files := fun _ h => absurd rfl h

variable {p p' : Interpreter × Session} {name : String} {err : Error}

/-! ### The catalog -/

/-- Where the catalog was not in memory, and is now in a new cell. -/
theorem unchanged_of_registered {db : Database} {folder : Folder} {h? : Option Handle}
    (hcatalog : p.1.catalog = none)
    (hlive : p.1.engine.live.get? .system Catalog.database = none)
    (hfound : p.1.engine.stored .system Catalog.database = .ok (some db) ∨
      p.1.engine.stored .system Catalog.database = .ok none ∧ Catalog.IsNew p.1.engine.clock db)
    (hfiles : ∀ q, folder.fileAt? q ≠ p.1.engine.folder.fileAt? q →
      p.1.engine.stored .system Catalog.database = .ok none ∧
        p.1.engine.IsSnapshotPath .system Catalog.database q)
    (hh : ∀ h, h? = some h → h.cell = p.1.engine.states.length) :
    Unchanged none p
      ({ engine := Engine.registered { p.1.engine with folder } .system Catalog.database db
         catalog := h? }, p.2) := by
  generalize he : Engine.registered { p.1.engine with folder } .system Catalog.database db = e
  have hname : ∀ scope name, e.live.get? scope name =
      if .system = scope ∧ Catalog.database = name then some p.1.engine.states.length
      else p.1.engine.live.get? scope name := by
    intro scope name
    rw [← he, Engine.live_registered]
  have hstate : e.state p.1.engine.states.length = db := by
    rw [← he]
    exact Engine.state_registered { p.1.engine with folder } .system Catalog.database db
  have hbefore : p.1.catalogFound = p.1.engine.stored .system Catalog.database := by
    rw [Interpreter.catalogFound_of_none hcatalog, Engine.found, hlive]
  have hafter : Interpreter.catalogFound { engine := e, catalog := h? } = .ok (some db) := by
    cases h? with
    | some h =>
      have hdb : e.databaseOf h = db := by
        rw [Engine.databaseOf, hh h rfl, hstate]
      exact congrArg (fun db => Except.ok (some db)) hdb
    | none =>
      rw [Interpreter.catalogFound_of_none rfl, Engine.found, hname, if_pos ⟨rfl, rfl⟩]
      exact congrArg (fun db => Except.ok (some db)) hstate
  refine
    { selection := rfl
      tables := fun c hc => ?_
      names := fun scope name c hc => ?_
      users := fun name => ?_
      catalog := fun h hh => by rw [hcatalog] at hh; exact nomatch hh
      rows := fun _ db₀ hdb₀ => ?_
      created := fun _ => ?_
      files := fun q hq => ?_ }
  · rw [← he]
    exact Engine.state_registered_of_lt { p.1.engine with folder } .system Catalog.database db hc
  · refine (hname scope name).trans ?_
    rw [if_neg]
    · exact hc
    · rintro ⟨rfl, rfl⟩
      rw [hlive] at hc
      exact nomatch hc
  · exact (hname .data name).trans (if_neg (by simp))
  · rw [hbefore] at hdb₀
    obtain hstored | ⟨hstored, -⟩ := hfound
    · exact hafter.trans (hstored.symm.trans hdb₀)
    · simp [hstored] at hdb₀
  · rw [hbefore]
    obtain hstored | ⟨hstored, isNew⟩ := hfound
    · exact .inl (hafter.trans hstored.symm)
    · exact .inr ⟨hstored, db, hafter, isNew⟩
  · rw [← he] at hq
    rw [hbefore]
    exact .inr (hfiles q hq)

/-- **Obtaining the catalog**, whether it succeeds or fails, changes nothing but for a catalog that
was missing. -/
theorem unchanged_catalog (p : Interpreter × Session) :
    Unchanged none p (exec Session.catalog p).2 := by
  rw [exec_catalog]
  cases hcatalog : p.1.catalog with
  | some h => exact .refl none p
  | none =>
    have hopening := Catalog.opening p.1.engine
    rcases hopen : exec Catalog.open p.1.engine with ⟨r, e'⟩
    rw [hopen] at hopening
    cases hopening with
    | @inMemory c hlive =>
      have found : p.1.catalogFound = .ok (some (p.1.engine.state c)) := by
        rw [Interpreter.catalogFound_of_none hcatalog, Engine.found, hlive]
      exact
        { Unchanged.refl none p with
          catalog := fun h hh => by rw [hcatalog] at hh; exact nomatch hh
          rows := fun _ db hdb => found.symm.trans hdb
          created := fun _ => .inl found.symm }
    | unreadable hlive hstored => exact .refl none p
    | inFolder hlive hstored =>
      exact unchanged_of_registered hcatalog hlive (.inl hstored) (fun q hq => absurd rfl hq)
        (fun h hh => by rw [← Option.some.inj hh])
    | @created _ db folder hlive hstored isNew flushed hr =>
      have files : ∀ q, folder.fileAt? q ≠ p.1.engine.folder.fileAt? q →
          p.1.engine.stored .system Catalog.database = .ok none ∧
            p.1.engine.IsSnapshotPath .system Catalog.database q :=
        fun q hq => ⟨hstored, flushed.files q hq⟩
      cases r with
      | error err =>
        dsimp only
        rw [hcatalog]
        exact unchanged_of_registered hcatalog hlive (.inr ⟨hstored, isNew⟩) files
          (fun h hh => nomatch hh)
      | ok h =>
        exact unchanged_of_registered hcatalog hlive (.inr ⟨hstored, isNew⟩) files
          (fun h' hh => by rw [← Option.some.inj hh, hr h rfl])

/-! ### Statements -/

/-- Saving a database changes its snapshot alone. -/
theorem unchanged_save (h : Handle) (p : Interpreter × Session) :
    Unchanged (some h) p (exec (storage (Engine.save h)) p).2 := by
  rw [exec_storage_snd]
  obtain ⟨folder, flushed, hsave⟩ := Engine.exec_save_flushed h p.1.engine
  rw [hsave]
  exact
    { Unchanged.refl (some h) p with
      rows := by
        intro apart db hdb
        unfold Interpreter.catalogFound Engine.found at hdb ⊢
        dsimp only
        cases hcatalog : p.1.catalog with
        | some h' =>
          rw [hcatalog] at hdb
          exact hdb
        | none =>
          rw [hcatalog] at hdb
          dsimp only at hdb ⊢
          cases hlive : p.1.engine.live.get? .system Catalog.database with
          | some c =>
            rw [hlive] at hdb
            exact hdb
          | none =>
            rw [hlive] at hdb
            exact flushed.stored (apart h rfl) hdb
      created := fun hnone => nomatch hnone
      files := fun q hq => .inl ⟨h, rfl, flushed.files q hq⟩ }

/-- `INIT` that fails has at most flushed the selected database. -/
theorem unchanged_of_select (hexec : exec (select name) p = (.error err, p')) :
    Unchanged p.2.active p p' := by
  have hsave : Unchanged p.2.active p (exec saveActive p).2 := by
    rw [exec_saveActive]
    cases hactive : p.2.active with
    | none => exact .refl none p
    | some h => exact unchanged_save h p
  rw [exec_select] at hexec
  rcases hsaved : exec saveActive p with ⟨err₁ | _, p₁⟩ <;> rw [hsaved] at hexec hsave
  · obtain ⟨-, rfl⟩ := Prod.mk.inj hexec
    exact hsave
  · suffices hp : p' = p₁ from hp ▸ hsave
    dsimp only at hexec
    rw [exec_storage, Engine.exec_open] at hexec
    rcases hload : exec (Engine.load .data name) p₁.1.engine with ⟨err₂ | _ | c, e⟩ <;>
      rw [hload] at hexec
    · obtain ⟨-, rfl⟩ := Prod.mk.inj hexec
      rw [Engine.eq_of_load_error hload]
    · obtain ⟨-, rfl⟩ := Prod.mk.inj hexec
      rw [(Engine.eq_of_load_none hload).1]
    · simp [Except.map] at hexec

theorem unchanged_of_list [PatternCompiler] {pattern : Option String}
    (hexec : exec (listDatabases pattern) p = (.error err, p')) : Unchanged none p p' := by
  have hcatalog := unchanged_catalog p
  rw [exec_listDatabases] at hexec
  rcases hopened : exec Session.catalog p with ⟨err₁ | c, p₁⟩ <;> rw [hopened] at hexec hcatalog
  · obtain ⟨-, rfl⟩ := Prod.mk.inj hexec
    exact hcatalog
  · suffices hp : p' = p₁ from hp ▸ hcatalog
    have hsnd := exec_storage_snd (Engine.find c (listed pattern)) p₁
    dsimp only at hexec
    unfold Engine.find at hexec hsnd
    rw [hexec, Engine.exec_query] at hsnd
    exact hsnd

theorem eq_of_describe {active : Option Handle}
    (hexec : exec (storage (Engine.describeDatabase active name)) p = (.error err, p')) :
    p' = p := by
  rw [exec_storage, Engine.exec_describeDatabase] at hexec
  cases hactive : active.filter (·.name = name) with
  | some h => simp [hactive] at hexec
  | none =>
    rw [hactive] at hexec
    dsimp only at hexec
    rcases hload : exec (Engine.load .data name) p.1.engine with ⟨err₁ | _ | c, e⟩ <;>
      rw [hload] at hexec
    · obtain ⟨-, rfl⟩ := Prod.mk.inj hexec
      rw [Engine.eq_of_load_error hload]
    · obtain ⟨-, rfl⟩ := Prod.mk.inj hexec
      rw [(Engine.eq_of_load_none hload).1]
    · simp at hexec

/-- **A statement that fails changes nothing**, unless it creates or drops a database: the tables of
every database in memory, the catalog and the selection are what they were, but for the flush of the
selected database that `INIT` starts with, and for the catalog itself where it was missing. -/
theorem unchanged_of_error [PatternCompiler] {raw : String}
    (hcreate : ∀ name parameters,
      Statement.parse raw ≠ .ok (.create .database name parameters))
    (hdrop : ∀ name, Statement.parse raw ≠ .ok (.drop .database name))
    (hexec : exec (execute raw) p = (.error err, p')) :
    Unchanged (flushed? raw p.2) p p' := by
  unfold execute at hexec
  unfold flushed?
  cases hparse : Statement.parse raw with
  | error cause =>
    rw [hparse] at hexec
    obtain ⟨-, rfl⟩ := Prod.mk.inj hexec
    exact .refl _ p
  | ok st =>
    rw [hparse] at hexec
    obtain ⟨act, performs, hact⟩ := exists_performs st p
    have herror : exec act p = (.error err, p') := hact.symm.trans hexec
    cases performs with
    | select name => exact unchanged_of_select herror
    | create name => exact absurd hparse (hcreate name none)
    | drop name => exact absurd hparse (hdrop (some name))
    | list pattern => exact unchanged_of_list herror
    | describe name => rw [eq_of_describe herror]; exact .refl _ p
    | @query _ h _ f =>
      have hsnd := exec_storage_snd (Engine.query h f) p
      rw [herror, Engine.exec_query] at hsnd
      rw [show p' = p from hsnd]
      exact .refl _ p
    | @edit _ h _ f =>
      rw [exec_storage, Engine.exec_edit] at herror
      rcases hf : f (p.1.engine.databaseOf h) with err₁ | ⟨a, db⟩ <;> rw [hf] at herror
      · obtain ⟨-, rfl⟩ := Prod.mk.inj herror
        exact .refl _ p
      · simp at herror
    | refuse err₁ =>
      obtain ⟨-, rfl⟩ := Prod.mk.inj herror
      exact .refl _ p

/-- `INIT` of a database that does not exist, with another one selected that has not been saved. -/
theorem unchanged_of_init_missing :
    let w := (World.start (Engine.new (some ["home"]) Folder.empty Timestamp.epoch)).run
      [.statement 0 "CREATE DATABASE a", .statement 0 "INIT a", .statement 0 "CREATE TABLE t (x)"]
    (exec (execute "INIT b") (w.view 0)).1 = .error (.unknownDatabase "b") ∧
      (exec (execute "INIT b") (w.view 0)).2.1.engine.folder ≠ w.engine.folder ∧
      Unchanged (flushed? "INIT b" (w.session 0)) (w.view 0)
        (exec (execute "INIT b") (w.view 0)).2 := by
  intro w
  have hparse : Statement.parse "INIT b" = .ok (.init "b") := by decide +kernel
  have herror : (exec (execute "INIT b") (w.view 0)).1 = .error (.unknownDatabase "b") := by
    decide +kernel
  refine ⟨herror, by decide +kernel, unchanged_of_error ?_ ?_ (Prod.ext herror rfl)⟩
  · rw [hparse]
    simp
  · rw [hparse]
    simp

end Session

end Tabular
