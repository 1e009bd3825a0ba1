import Tabular.Proofs.Engine.Refused
import Tabular.Proofs.Session.Dropped
import Tabular.Proofs.Session.Durability
import Tabular.Proofs.Session.Namespace
import Tabular.Proofs.Session.Readable

/-!
Names in the catalog of a data directory.

The catalog in memory lists the databases as they are, the one in the folder as they were when it
was saved (`Catalog.Filed`). Creating a database takes its name into the list in memory, and
dropping one takes the name out; where a name is listed by another spelling of its value, or is not
there, the list stays as it is. Saving makes the two lists one (`Session.filed_save`).
-/

namespace Tabular

/-! ### Two lists -/

namespace Catalog

variable {dir : Route} {filed names names' : List String} {e : Engine}

/-- A catalog that lists these databases. -/
def Named (names : List String) (db : Database) : Prop :=
  db.createdAt.isValid = true ∧ Lists db names

section named

variable {db : Database} {name : String}

theorem Named.valid (named : Named names db) : db.createdAt.isValid = true := named.1

theorem Named.relist (named : Named names db) (names' : List String) :
    Named names' (db.setTable table (listing names')) :=
  ⟨named.1, lists_setTable db names'⟩

/-- A name of another value than the listed ones is taken in. -/
theorem Named.insert (named : Named names db) (apart : ∀ m ∈ names, Cell.sameValue m name = false) :
    ∃ db', db.insert (entry name) = .ok db' ∧ Named (names ++ [name]) db' := by
  refine ⟨_, ?_, named.relist (names ++ [name])⟩
  rw [insert_entry named.2, if_neg]
  rw [List.any_eq_true]
  rintro ⟨m, hm, same⟩
  simp [apart m hm] at same

/-- Names of the same value are taken out. -/
theorem Named.delete [PatternCompiler] (named : Named names db) (name : String) :
    ∃ n db', db.delete (having .eq name) = .ok (n, db') ∧ Named (Engine.others names name) db' :=
  ⟨_, _, delete_having named.2 name, named.relist _⟩

end named

/-- The catalog in the folder lists the databases that are filed, and the one in memory lists the
named ones. Before it is loaded, these are the same. -/
structure Filed (dir : Route) (filed names : List String) (e : Engine) : Prop where
  stands : Stands dir (Named filed) (Named names) e
  unloaded : e.live.get? .system database = none → names = filed

theorem opens_filed :
    Opens dir (Filed dir filed names) (Named filed) (Named names) where
  apart := fun _ _ hdir apart h => ⟨h.stands.apart hdir apart, fun hlive =>
    h.unloaded ((apart.spares.live database).symm.trans hlive)⟩
  found := fun _ h _ => h.stands
  holds := fun _ stands hlive => ⟨stands, fun hnone => absurd hnone hlive⟩
  opens := by
    intro e r e' hdir h hopen hr
    cases hlive : e.live.get? .system database with
    | some c =>
      rw [exec_open_of_load (Engine.exec_load_of_live hlive)] at hopen
      obtain ⟨rfl, rfl⟩ := Prod.mk.inj hopen
      exact ⟨rfl, h.stands⟩
    | none =>
      have stands : Stands dir (Named filed) (Named filed) e := h.unloaded hlive ▸ h.stands
      rw [h.unloaded hlive]
      exact (opens_stands fun _ => Named.valid).opens e r e' hdir stands hopen hr

/-- The catalog in memory is replaced by one that lists other databases. -/
theorem Stands.relist (stands : Stands dir (Named filed) (Named names) e) (ordered : e.Ordered)
    {h : Handle} (handle : IsHandle e h) {db : Database} (named : Named names' db) :
    Stands dir (Named filed) (Named names') (e.setState h.cell db) where
  filed := stands.filed
  memory := by
    intro c hc
    obtain rfl : h.cell = c := Option.some.inj (handle.live.symm.trans hc)
    rw [Engine.state_setState, if_pos ⟨rfl, ordered.cell_lt _ _ _ hc⟩]
    exact named

end Catalog

/-! ### Sessions -/

namespace Session

variable {dir : Route} {filed names names' : List String} {name : String} {e : Engine} {c : Handle}
variable {K : Engine → Prop} {f : Database → Except StorageError (Outcome × Database)}

/-- The catalog is open, and lists the named databases. -/
abbrev Lists (dir : Route) (filed names : List String) (c : Handle) : Engine → Prop :=
  Opened dir (Catalog.Named filed) (Catalog.Named names) c

/-- A change after which the catalog lists other databases. -/
theorem lists_of_edit (hf : ∀ db, Catalog.Named names db →
      ∃ outcome db', f db = .ok (outcome, db') ∧ Catalog.Named names' db') :
    Ensures (Tracks dir (Lists dir filed names c) e) (storage (Engine.edit c f))
      (fun _ => Tracks dir (Lists dir filed names' c) e) (fun _ _ => False) := by
  intro p hp
  obtain ⟨stands, handle⟩ := hp.holds
  have hkeeps := Engine.keeps_edit c f p.1.engine
  obtain ⟨outcome, db, hdb, named⟩ := hf _ (stands.memory c.cell handle.live)
  have hdb : f (p.1.engine.databaseOf c) = .ok (outcome, db) := hdb
  rw [Engine.exec_edit, hdb] at hkeeps
  rw [exec_storage, Engine.exec_edit, hdb]
  exact hp.engine hkeeps
    ⟨stands.relist hp.sees.interpreter.ordered handle named, handle.keeps hkeeps⟩

/-- A change that the catalog refuses. -/
theorem lists_of_refused {Q : Outcome → Interpreter × Session → Prop}
    (hf : ∀ db, Catalog.Named names db → ∃ err, f db = .error err) :
    Ensures (Tracks dir (Lists dir filed names c) e) (storage (Engine.edit c f)) Q
      (fun _ => Tracks dir (Lists dir filed names c) e) := by
  intro p hp
  obtain ⟨stands, handle⟩ := hp.holds
  obtain ⟨err, hdb⟩ := hf _ (stands.memory c.cell handle.live)
  have hdb : f (p.1.engine.databaseOf c) = .error err := hdb
  rw [exec_storage, Engine.exec_edit, hdb]
  exact hp

/-- What is seen where both the catalog and the database of a name are followed. -/
def Both (dir : Route) (K K' : Engine → Prop) (e : Engine) (p : Interpreter × Session) : Prop :=
  Tracks dir K e p ∧ Tracks dir K' e p

/-- Obtaining the catalog succeeds, and leaves the database of a name alone. -/
theorem both_catalog {flush create drop : Prop} (plain : PlainName name)
    (survives : Engine.Survives dir name flush create drop K) :
    Ensures (Both dir (Catalog.Filed dir filed names) K e) catalog
      (fun c => Both dir (Lists dir filed names c) K e) (UnlessIo fun _ => False) :=
  (((opened_of_catalog Catalog.opens_filed).mono_pre fun _ h => h.1).and
    ((tracks_catalog plain survives).mono_pre fun _ h => h.2)).mono (fun _ h => h)
      (fun _ _ h => ⟨h.1, h.2.1⟩) fun _ _ h => h.1

/-- So does a change of the catalog after which it lists other databases. -/
theorem both_of_edit {flush create drop : Prop}
    (survives : Engine.Survives dir name flush create drop K)
    (hf : ∀ db, Catalog.Named names db →
      ∃ outcome db', f db = .ok (outcome, db') ∧ Catalog.Named names' db') :
    Ensures (Both dir (Lists dir filed names c) K e) (storage (Engine.edit c f))
      (fun _ => Both dir (Lists dir filed names' c) K e) (UnlessIo fun _ => False) :=
  (((lists_of_edit hf).mono_pre fun _ h => h.1).and
    ((tracks_leaves survives (fun _ h => h) (fun p _ => Engine.keeps_edit c f p.1.engine)
      fun p _ => Engine.leaves_edit c f p.1.engine).mono_pre fun _ h => h.2)).mono (fun _ h => h)
        (fun _ _ h => h) fun _ _ h _ => h.1

/-! ### Creating a database -/

/-- **Where no listed name is the same value and the database is gone, `CREATE` succeeds**: the name
is listed, and the new database has its snapshot in the folder. -/
theorem filed_createDatabase (plain : PlainName name)
    (apart : ∀ m ∈ names, Cell.sameValue m name = false) :
    Ensures (Both dir (Catalog.Filed dir filed names) (Engine.Gone dir name) e)
      (createDatabase name)
      (fun _ p => Tracks dir (Catalog.Filed dir filed (names ++ [name])) e p ∧
        Engine.Stored dir name p.1.engine)
      (UnlessIo fun _ => False) := by
  have survives : Engine.Survives dir name _ _ _ _ := Engine.survives_gone plain
  unfold createDatabase
  refine (both_catalog plain survives).bind fun c => Ensures.bind
    (R := fun _ => Both dir (Lists dir filed (names ++ [name]) c) (Engine.Gone dir name) e)
    (both_of_edit survives fun db named => ?_) fun _ => ?_
  · obtain ⟨db', hinsert, named'⟩ := named.insert apart
    exact ⟨_, db', by rw [hinsert]; rfl, named'⟩
  · refine ensures_storage (fun p outcome e' hp hcreate => ?_)
      fun p err e' hp hcreate hio => ?_ <;>
      have cases := Engine.exec_createDatabase_cases hp.1.dataDir hcreate
    · obtain ⟨hisOk, -⟩ | ⟨-, -, hsave⟩ := cases (by simp [Engine.Undisturbed])
      · simp [Except.isOk, Except.toBool] at hisOk
      · have hapart := Engine.apart_createDatabase hp.1.sees.interpreter.ordered plain
        rw [hcreate] at hapart
        have hlists := opened_apart p.1.engine e' hp.1.dataDir hapart hp.1.holds
        exact ⟨tracks_of_opened Catalog.opens_filed (hp.1.engine hapart.keeps hlists), _,
          Engine.stat_of_save_registered hp.1.dataDir hsave⟩
    · obtain ⟨-, r', hload, hr', hne⟩ | ⟨hisOk, -⟩ :=
        cases fun kind hkind => hio kind (by rw [Except.error.inj hkind])
      · exact hne (Engine.load_of_gone hp.2.dataDir hp.2.holds hload hr').1
      · simp [Except.isOk, Except.toBool] at hisOk

/-- Where a listed name is the same value, it is refused. -/
theorem filed_createDatabase_of_same {m : String} (hm : m ∈ names)
    (same : Cell.sameValue m name = true) :
    Ensures (Tracks dir (Catalog.Filed dir filed names) e) (createDatabase name) (fun _ _ => False)
      (UnlessIo (Tracks dir (Catalog.Filed dir filed names) e)) := by
  have hany : (names.any fun n => Cell.sameValue n name) = true :=
    List.any_eq_true.2 ⟨m, hm, same⟩
  unfold createDatabase
  refine ((opened_of_catalog Catalog.opens_filed).mono_error
    fun _ _ h hio => (h hio).elim).bind fun c => Ensures.bind (R := fun _ _ => False)
      ((lists_of_refused fun db named => ?_).mono_error fun _ _ h _ =>
        tracks_of_opened Catalog.opens_filed h) fun _ _ h => h.elim
  rw [Catalog.insert_entry named.2, hany]
  exact ⟨_, rfl⟩

/-! ### Dropping a database -/

variable [PatternCompiler]

/-- `DROP` takes the names of the same value off the list, whether it succeeds or not. -/
theorem filed_dropDatabase (plain : PlainName name) :
    Ensures (Tracks dir (Catalog.Filed dir filed names) e) (dropDatabase name)
      (fun _ => Tracks dir (Catalog.Filed dir filed (Engine.others names name)) e)
      (UnlessIo (Tracks dir (Catalog.Filed dir filed (Engine.others names name)) e)) := by
  unfold dropDatabase
  refine ((opened_of_catalog Catalog.opens_filed).mono_error
    fun _ _ h hio => (h hio).elim).bind fun c => Ensures.bind
      (R := fun _ => Tracks dir (Lists dir filed (Engine.others names name) c) e)
      ((lists_of_edit fun db named => ?_).mono_error fun _ _ h => h.elim) fun _ =>
        Ensures.bind (ensures_of_opened Catalog.opens_filed (tracks_apart opened_apart
          (fun _ h => h) fun p _ => Engine.apart_dropDatabase plain p.1.engine)) fun outcome =>
            ensures_forget name outcome fun _ h => h.forget
  obtain ⟨n, db', hdelete, named'⟩ := named.delete name
  exact ⟨_, db', by rw [hdelete]; rfl, named'⟩

/-- It succeeds where the database has its snapshot in the folder. -/
theorem ok_dropDatabase (plain : PlainName name) :
    Ensures (Both dir (Catalog.Filed dir filed names) (Engine.Stored dir name) e)
      (dropDatabase name) (fun _ _ => True) (UnlessIo fun _ => False) := by
  have survives : Engine.Survives dir name _ _ _ _ := Engine.survives_stored
  unfold dropDatabase
  refine (both_catalog plain survives).bind fun c => Ensures.bind
    (R := fun _ => Both dir (Lists dir filed (Engine.others names name) c)
      (Engine.Stored dir name) e)
    (both_of_edit survives fun db named => ?_) fun _ => Ensures.bind (R := fun _ _ => True) ?_
      fun outcome => ensures_forget name outcome fun _ _ => trivial
  · obtain ⟨n, db', hdelete, named'⟩ := named.delete name
    exact ⟨_, db', by rw [hdelete]; rfl, named'⟩
  · refine ensures_storage (fun _ _ _ _ _ => trivial) fun p err e' hp hdrop hio => ?_
    obtain ⟨text, hstat⟩ := hp.2.holds
    obtain ⟨-, hnone, -⟩ | ⟨folder, -, -, hisOk⟩ :=
      Engine.exec_dropDatabase_cases hp.2.dataDir hdrop fun kind hkind =>
        hio kind (by rw [Except.error.inj hkind])
    · exact nomatch hstat.symm.trans hnone
    · simp [Except.isOk, Except.toBool] at hisOk

/-! ### Listing and saving -/

/-- `SHOW` lists the named databases. -/
theorem answer_list_of_filed {p : Interpreter × Session}
    (tracks : Tracks dir (Catalog.Filed dir filed names) e p) :
    (exec (listDatabases none) p).1 = .ok (.rows (names.map Catalog.row)) := by
  suffices h : ∃ db, p.1.catalogFound = .ok (some db) ∧ Catalog.Named names db by
    obtain ⟨db, hfound, named⟩ := h
    rw [answer_listDatabases hfound, show listed none = { table := Catalog.table } from rfl,
      Catalog.find_listed named.2]
    rfl
  have stands := tracks.holds.stands
  unfold Interpreter.catalogFound
  cases hc : p.1.catalog with
  | some c =>
    exact ⟨_, rfl, stands.memory c.cell (tracks.sees.interpreter.catalog c hc).live⟩
  | none =>
    cases hlive : p.1.engine.live.get? .system Catalog.database with
    | some cell => exact ⟨_, Engine.found_of_live hlive, stands.memory cell hlive⟩
    | none =>
      obtain ⟨db, named, hstat⟩ := stands.filed
      refine ⟨db, (Engine.found_of_not_live hlive).trans
        (Engine.stored_of_stat tracks.dataDir named.valid hstat), ?_⟩
      rw [tracks.holds.unloaded hlive]
      exact named

omit [PatternCompiler] in
/-- After a saving, the catalog in the folder lists what the one in memory does. -/
theorem filed_save :
    Ensures (Tracks dir (Catalog.Filed dir filed names) e) save
      (fun _ => Tracks dir (Catalog.Filed dir names names) e) (UnlessIo fun _ => False) :=
  (catalog_save Catalog.opens_filed).mono (fun _ h => h)
    (fun _ _ h => ⟨h.sees, h.dataDir, h.plain, h.holds, fun _ => rfl⟩) fun _ _ h => h

end Session

end Tabular
