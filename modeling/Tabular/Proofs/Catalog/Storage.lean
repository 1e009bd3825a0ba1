import Tabular.Proofs.Catalog.Table
import Tabular.Proofs.Session.Tracking
import Tabular.Proofs.Wire.Snapshot

/-!
The catalog in memory and in the folder.

A new catalog has its snapshot written before its table is created, so its snapshot is `Bare` while
the catalog in memory is `Ready`. This lasts until the catalog is saved, and a process that starts
before finds a catalog without a table. `Catalog.Stands P Q` says which of the two is in the folder
and which in memory; `Catalog.Fresh` is what holds from a folder without a catalog up to the first
saving. What the operations of a session need to know of the two situations is the same
(`Catalog.Opens`).
-/

namespace Tabular

namespace Catalog

variable {dir : Route} {e e' : Engine} {P Q : Database → Prop}

/-! ### Catalogs -/

/-- A catalog with its table. -/
def Ready (db : Database) : Prop :=
  db.createdAt.isValid = true ∧ ∃ names, Lists db names

/-- A catalog without its table. -/
def Bare (db : Database) : Prop :=
  db.createdAt.isValid = true ∧ db.tables.get? table = none

section

variable [PatternCompiler]

/-- What the statements about databases leave as it is in a catalog. -/
structure Kept (Q : Database → Prop) : Prop where
  valid : ∀ db, Q db → db.createdAt.isValid = true
  insert : ∀ db name db', Q db → db.insert (entry name) = .ok db' → Q db'
  delete : ∀ db name n db', Q db → db.delete (having .eq name) = .ok (n, db') → Q db'

theorem kept_ready : Kept Ready where
  valid := fun _ ready => ready.1
  insert := by
    rintro db name db' ⟨valid, names, lists⟩ hinsert
    rw [insert_entry lists] at hinsert
    split at hinsert
    · simp at hinsert
    · obtain rfl := Except.ok.inj hinsert
      exact ⟨valid, _, lists_setTable db _⟩
  delete := by
    rintro db name n db' ⟨valid, names, lists⟩ hdelete
    rw [delete_having lists] at hdelete
    obtain ⟨-, rfl⟩ := Prod.mk.inj (Except.ok.inj hdelete)
    exact ⟨valid, _, lists_setTable db _⟩

omit [PatternCompiler] in
theorem table_of_bare {db : Database} (bare : Bare db) :
    db.table table = .error (.tableNotFound table) := by
  unfold Database.table
  rw [bare.2]

omit [PatternCompiler] in
theorem insert_of_bare {db : Database} (bare : Bare db) (name : String) :
    db.insert (entry name) = .error (.tableNotFound table) := by
  unfold Database.insert
  rw [show (entry name).table = table from rfl, table_of_bare bare, Result.error_bind]

theorem delete_of_bare {db : Database} (bare : Bare db) (name : String) :
    db.delete (having .eq name) = .error (.tableNotFound table) := by
  unfold Database.delete
  rw [show (having .eq name).table = table from rfl, table_of_bare bare, Result.error_bind]

theorem find_of_bare {db : Database} (bare : Bare db) {q : QuerySpec} (hq : q.table = table) :
    db.find q = .error (.tableNotFound table) := by
  unfold Database.find
  rw [hq, table_of_bare bare, Result.error_bind]

theorem kept_bare : Kept Bare where
  valid := fun _ bare => bare.1
  insert := by
    intro db name db' bare hinsert
    rw [insert_of_bare bare] at hinsert
    simp at hinsert
  delete := by
    intro db name n db' bare hdelete
    rw [delete_of_bare bare] at hdelete
    simp at hdelete

end

/-! ### Where a catalog stands -/

/-- A catalog with `P` is in the folder, and one with `Q` is in memory, if any is. -/
structure Stands (dir : Route) (P Q : Database → Prop) (e : Engine) : Prop where
  filed : ∃ db, P db ∧ e.folder.stat (Engine.snapshotIn dir .system database) =
    .ok (.file db.snapshot)
  memory : ∀ c, e.live.get? .system database = some c → Q (e.state c)

/-- There is no catalog yet. -/
structure Untouched (dir : Route) (e : Engine) : Prop where
  live : e.live.get? .system database = none
  file : e.file? dir .system database = none
  clock : e.clock.isValid = true

/-- There is no catalog yet, or one with its table is in memory and has not been saved since. -/
def Fresh (dir : Route) (e : Engine) : Prop :=
  Untouched dir e ∨ (Stands dir Bare Ready e ∧ e.live.get? .system database ≠ none)

/-- An engine that has evolved apart from the catalog. -/
structure Apart (e e' : Engine) : Prop where
  evolves : Engine.Evolves e e'
  spares : Engine.Spares .system e e'
  leaves : Engine.Leaves .system database e e'

theorem Apart.refl (e : Engine) : Apart e e := ⟨.refl e, .refl .system e, .refl ..⟩

theorem Apart.keeps (apart : Apart e e') : Engine.Keeps e e' :=
  apart.spares.keeps apart.evolves

theorem Stands.apart (stands : Stands dir P Q e) (hdir : e.dataDir = some dir)
    (apart : Apart e e') : Stands dir P Q e' where
  filed := by
    obtain ⟨db, hP, hstat⟩ := stands.filed
    exact ⟨db, hP, apart.leaves.stat hdir hstat⟩
  memory := by
    intro c hc
    rw [apart.spares.live] at hc
    rw [apart.spares.state database c hc]
    exact stands.memory c hc

theorem Untouched.apart (untouched : Untouched dir e) (hdir : e.dataDir = some dir)
    (apart : Apart e e') : Untouched dir e' where
  live := (apart.spares.live database).trans untouched.live
  file := (apart.leaves.file dir hdir).trans untouched.file
  clock := apart.evolves.clock ▸ untouched.clock

theorem Fresh.apart (fresh : Fresh dir e) (hdir : e.dataDir = some dir) (apart : Apart e e') :
    Fresh dir e' := by
  obtain untouched | ⟨stands, live⟩ := fresh
  · exact .inl (untouched.apart hdir apart)
  · exact .inr ⟨stands.apart hdir apart, by rw [apart.spares.live]; exact live⟩

/-! ### Operations on the catalog -/

/-- A change of the catalog in memory that keeps what is known of it. -/
theorem Stands.edit (stands : Stands dir P Q e) (ordered : e.Ordered) {h : Handle}
    (handle : IsHandle e h) {db : Database} (hdb : Q db) :
    Stands dir P Q (e.setState h.cell db) where
  filed := stands.filed
  memory := by
    intro c hc
    obtain rfl : h.cell = c := Option.some.inj (handle.live.symm.trans hc)
    rw [Engine.state_setState, if_pos ⟨rfl, ordered.cell_lt _ _ _ hc⟩]
    exact hdb

/-- The catalog that is saved is the one in memory. -/
theorem Stands.save (stands : Stands dir P Q e) (hdir : e.dataDir = some dir) {h : Handle}
    (handle : IsHandle e h) (hsave : exec (Engine.save h) e = (.ok (), e')) :
    Stands dir Q Q e' := by
  have hstat := Engine.stat_of_save hdir handle.scope handle.name hsave
  obtain ⟨folder, hfolder⟩ := Engine.exec_save_snd h e
  rw [hsave] at hfolder
  obtain rfl : e' = { e with folder } := hfolder
  exact ⟨⟨e.databaseOf h, stands.memory h.cell handle.live, hstat⟩, stands.memory⟩

/-- A catalog that is in the folder is found there. -/
theorem exec_load_of_stands (valid : ∀ db, P db → db.createdAt.isValid = true)
    (stands : Stands dir P Q e) (hdir : e.dataDir = some dir)
    (hlive : e.live.get? .system database = none) :
    ∃ db, P db ∧ exec (Engine.load .system database) e =
      (.ok (some e.states.length), e.registered .system database db) := by
  obtain ⟨db, hP, hstat⟩ := stands.filed
  refine ⟨db, hP, ?_⟩
  rw [Engine.exec_load, hlive, Engine.stored_eq hdir, hstat]
  dsimp only
  rw [Database.ofSnapshot?_snapshot (valid db hP)]

/-! ### Opening the catalog -/

theorem exec_open_of_load {c : Nat}
    (hload : exec (Engine.load .system database) e = (.ok (some c), e')) :
    exec Catalog.open e = (.ok { scope := .system, name := database, cell := c }, e') := by
  have hopen : exec (Engine.open .system database) e =
      (.ok (some { scope := .system, name := database, cell := c }), e') := by
    rw [Engine.exec_open, hload]
    rfl
  unfold Catalog.open
  rw [exec_bind_of_ok hopen]
  rfl

/-- What the operations of a session need to know where `K` holds: it holds on apart from the
catalog, and once the catalog is open, one with `P` is in the folder and one with `Q` in memory. -/
structure Opens (dir : Route) (K : Engine → Prop) (P Q : Database → Prop) : Prop where
  apart : ∀ e e', e.dataDir = some dir → Apart e e' → K e → K e'
  found : ∀ e, K e → e.live.get? .system database ≠ none → Stands dir P Q e
  holds : ∀ e, Stands dir P Q e → e.live.get? .system database ≠ none → K e
  opens : ∀ e r e', e.dataDir = some dir → K e → exec Catalog.open e = (r, e') →
    Engine.Undisturbed r → r.isOk = true ∧ Stands dir P Q e'

theorem opens_stands (valid : ∀ db, P db → db.createdAt.isValid = true) :
    Opens dir (Stands dir P P) P P where
  apart := fun _ _ hdir apart stands => stands.apart hdir apart
  found := fun _ stands _ => stands
  holds := fun _ stands _ => stands
  opens := by
    intro e r e' hdir stands hopen _
    cases hlive : e.live.get? .system database with
    | some c =>
      rw [exec_open_of_load (Engine.exec_load_of_live hlive)] at hopen
      obtain ⟨rfl, rfl⟩ := Prod.mk.inj hopen
      exact ⟨rfl, stands⟩
    | none =>
      obtain ⟨db, hP, hload⟩ := exec_load_of_stands valid stands hdir hlive
      rw [exec_open_of_load hload] at hopen
      obtain ⟨rfl, rfl⟩ := Prod.mk.inj hopen
      refine ⟨rfl, stands.filed, fun c hc => ?_⟩
      rw [Engine.live_registered, if_pos ⟨rfl, rfl⟩] at hc
      rw [← Option.some.inj hc, Engine.state_registered]
      exact hP

/-- The table of a new catalog is created in memory. -/
theorem exec_createTable_of_new {h : Handle} (hnew : e.databaseOf h = Database.new e.clock) :
    exec (Engine.createTable h spec) e = (.ok (.message ("Table " ++ table ++ " created.")),
      e.setState h.cell ((Database.new e.clock).setTable table (listing []))) := by
  unfold Engine.createTable
  rw [Engine.exec_edit, hnew]
  rfl

/-- Where there is no catalog yet, none is loaded. -/
theorem exec_load_of_untouched (hdir : e.dataDir = some dir) (untouched : Untouched dir e) :
    exec (Engine.load .system database) e = (.ok none, e) ∨
      ∃ kind, exec (Engine.load .system database) e = (.error (.io kind), e) := by
  rw [Engine.exec_load, untouched.live]
  rcases Engine.stored_of_file?_eq_none hdir untouched.file with hs | ⟨kind, hs⟩ <;> rw [hs]
  · exact .inl rfl
  · exact .inr ⟨kind, rfl⟩

/-- A catalog that has just been created is opened, and its table is created. -/
theorem stands_of_created (hdir : e.dataDir = some dir) (untouched : Untouched dir e)
    (hsave : exec (Engine.save { scope := .system, name := database, cell := e.states.length })
      (e.registered .system database (Database.new e.clock)) = (.ok (), e')) :
    ∃ h outcome e₂, exec (Engine.open .system database) e' = (.ok (some h), e') ∧
      exec (Engine.createTable h spec) e' = (.ok outcome, e₂) ∧ Stands dir Bare Ready e₂ := by
  obtain ⟨-, hclock, hlength, hnames, hstate, hstat⟩ := Engine.exec_save_registered hdir hsave
  have hlive : e'.live.get? .system database = some e.states.length := by
    rw [hnames, if_pos ⟨rfl, rfl⟩]
  have hopen : exec (Engine.open .system database) e' =
      (.ok (some { scope := .system, name := database, cell := e.states.length }), e') := by
    rw [Engine.exec_open, Engine.exec_load_of_live hlive]
    rfl
  have hnew : e'.databaseOf { scope := .system, name := database, cell := e.states.length } =
      Database.new e'.clock := hstate.trans (congrArg Database.new hclock.symm)
  refine ⟨_, _, _, hopen, exec_createTable_of_new hnew, ?_, fun c hc => ?_⟩
  · exact ⟨Database.new e.clock, ⟨untouched.clock, rfl⟩, hstat⟩
  · obtain rfl : e.states.length = c := Option.some.inj (hlive.symm.trans hc)
    rw [Engine.state_setState, if_pos ⟨rfl, by omega⟩]
    exact ⟨hclock ▸ untouched.clock, [], lists_setTable _ _⟩

/-- **A new catalog**: its snapshot is written without a table, and then its table is created. -/
theorem exec_open_of_untouched {r : Except StorageError Handle} (hdir : e.dataDir = some dir)
    (untouched : Untouched dir e) (hopen : exec Catalog.open e = (r, e'))
    (hr : Engine.Undisturbed r) :
    r.isOk = true ∧ Stands dir Bare Ready e' := by
  unfold Catalog.open at hopen
  obtain hload | ⟨kind, hload⟩ := exec_load_of_untouched hdir untouched
  · have hfirst : exec (Engine.open .system database) e = (.ok none, e) := by
      rw [Engine.exec_open, hload]
      rfl
    rw [exec_bind_of_ok hfirst] at hopen
    dsimp only at hopen
    rcases hcreate : exec (Engine.createDatabase .system database) e with ⟨err | outcome, e₁⟩
    · rw [exec_bind_of_error hcreate] at hopen
      obtain ⟨rfl, rfl⟩ := Prod.mk.inj hopen
      obtain ⟨-, r', hload', hr', hne⟩ | ⟨hisOk, -⟩ := Engine.exec_createDatabase_cases hdir hcreate
        fun kind hkind => hr kind (congrArg _ (Except.error.inj hkind))
      · exact absurd (Prod.mk.inj (hload'.symm.trans hload)).1 hne
      · simp [Except.isOk, Except.toBool] at hisOk
    · rw [exec_bind_of_ok hcreate] at hopen
      obtain ⟨hisOk, -⟩ | ⟨-, -, hsave⟩ :=
        Engine.exec_createDatabase_cases hdir hcreate (by simp [Engine.Undisturbed])
      · simp [Except.isOk, Except.toBool] at hisOk
      · obtain ⟨h, outcome, e₂, hsecond, htable, stands⟩ := stands_of_created hdir untouched hsave
        rw [exec_bind_of_ok hsecond] at hopen
        dsimp only at hopen
        rw [exec_bind_of_ok htable] at hopen
        obtain ⟨rfl, rfl⟩ := Prod.mk.inj hopen
        exact ⟨rfl, stands⟩
  · have hfirst : exec (Engine.open .system database) e = (.error (.io kind), e) := by
      rw [Engine.exec_open, hload]
      rfl
    rw [exec_bind_of_error hfirst] at hopen
    obtain ⟨rfl, -⟩ := Prod.mk.inj hopen
    exact absurd rfl (hr kind)

theorem opens_fresh : Opens dir (Fresh dir) Bare Ready where
  apart := fun _ _ hdir apart fresh => fresh.apart hdir apart
  found := by
    rintro e (untouched | ⟨stands, -⟩) hlive
    · exact absurd untouched.live hlive
    · exact stands
  holds := fun _ stands hlive => .inr ⟨stands, hlive⟩
  opens := by
    rintro e r e' hdir (untouched | ⟨stands, hlive⟩) hopen hr
    · exact exec_open_of_untouched hdir untouched hopen hr
    · obtain ⟨c, hc⟩ := Option.ne_none_iff_exists'.1 hlive
      rw [exec_open_of_load (Engine.exec_load_of_live hc)] at hopen
      obtain ⟨rfl, rfl⟩ := Prod.mk.inj hopen
      exact ⟨rfl, stands⟩

end Catalog

end Tabular
