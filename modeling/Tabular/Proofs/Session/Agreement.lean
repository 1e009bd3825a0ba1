import Mathlib.Data.List.DropRight
import Tabular.Proofs.Session.Listing
import Tabular.Proofs.Session.Refused

/-!
What a process lists and what it opens after a restart.

Creating or dropping a database writes or removes its snapshot at once, but the catalog is written
only when a client is saved. So after a restart `SHOW` lists the databases there were at the last
saving, and `INIT` opens those there were when the process ended. Main statement: over a folder in
which the two agree, and where no two databases are named by the same value, they agree after every
restart of a run exactly if at each one there are the databases that there were at the last saving,
or at the start of the process if nothing was saved (`World.showsWhatOpens_iff_saved`).
-/

namespace Tabular

/-! ### The databases of a folder -/

namespace Engine

variable {dir : Route} {names : List String} {name : String} {e : Engine}

/-- The databases of the users are those of these names: each has its snapshot in the folder, and
under any other name there is none. -/
structure Holds (dir : Route) (names : List String) (e : Engine) : Prop where
  readable : Readable dir e
  plain : ∀ name ∈ names, PlainName name
  stored : ∀ name ∈ names, Stored dir name e
  gone : ∀ name, PlainName name → name ∉ names → Gone dir name e

theorem Holds.exists_found_iff (holds : Holds dir names e) (plain : PlainName name) :
    (∃ db, e.found .data name = .ok (some db)) ↔ name ∈ names := by
  constructor
  · rintro ⟨db, hfound⟩
    by_contra hname
    obtain ⟨hlive, hfile⟩ := holds.gone name plain hname
    rw [found_of_not_live hlive] at hfound
    obtain hnone | ⟨kind, hio⟩ := stored_of_file?_eq_none holds.readable.dataDir hfile
    · exact nomatch hnone.symm.trans hfound
    · exact nomatch hio.symm.trans hfound
  · intro hname
    cases hlive : e.live.get? .data name with
    | some c => exact ⟨_, found_of_live hlive⟩
    | none =>
      rw [found_of_not_live hlive]
      exact holds.readable.exists_stored plain (holds.stored name hname)

/-- A new process finds the databases that the folder holds. -/
theorem Holds.new (holds : Holds dir names e) {clock : Timestamp} (valid : clock.isValid = true) :
    Holds dir names (Engine.new (some dir) e.folder clock) where
  readable := holds.readable.new valid
  plain := holds.plain
  stored := holds.stored
  gone := fun name plain hname => ⟨by simp [Engine.new], (holds.gone name plain hname).2⟩

/-- Lists of names that have the same members name the same databases. -/
theorem Holds.congr {names' : List String} (holds : Holds dir names e)
    (same : ∀ name, name ∈ names' ↔ name ∈ names) : Holds dir names' e where
  readable := holds.readable
  plain := fun name hname => holds.plain name ((same name).1 hname)
  stored := fun name hname => holds.stored name ((same name).1 hname)
  gone := fun name plain hname => holds.gone name plain fun h => hname ((same name).2 h)

end Engine

namespace Catalog

variable {dir : Route} {listed : List String} {folder : Folder} {clock : Timestamp}

/-- The catalog in the folder lists exactly the databases that have a snapshot. -/
structure Agreeing (dir : Route) (listed : List String) (folder : Folder) : Prop where
  catalog : ∃ db, Named listed db ∧
    folder.stat (Engine.snapshotIn dir .system database) = .ok (.file db.snapshot)
  plain : ∀ name ∈ listed, PlainName name
  stored : ∀ name ∈ listed, ∃ db text, Database.ofSnapshot? text = some db ∧
    folder.stat (Engine.snapshotIn dir .data name) = .ok (.file text)
  gone : ∀ name, PlainName name → name ∉ listed →
    folder.fileAt? (Engine.snapshotIn dir .data name).path = none

theorem Agreeing.filed (agreeing : Agreeing dir listed folder) :
    Filed dir listed listed (Engine.new (some dir) folder clock) where
  stands := ⟨agreeing.catalog, by simp [Engine.new]⟩
  unloaded := fun _ => rfl

theorem Agreeing.holds (agreeing : Agreeing dir listed folder) (valid : clock.isValid = true) :
    (Engine.new (some dir) folder clock).Holds dir listed where
  readable :=
    { dataDir := rfl
      clock := valid
      states := by simp [Engine.new]
      files := by
        intro name text plain hfile
        by_cases hname : name ∈ listed
        · obtain ⟨db, text', hdb, hstat⟩ := agreeing.stored name hname
          have hfile' := Engine.file?_of_stat (e := Engine.new (some dir) folder clock) hstat
          obtain rfl := Option.some.inj (hfile'.symm.trans hfile)
          exact ⟨db, hdb⟩
        · exact absurd ((agreeing.gone name plain hname).symm.trans hfile) (by simp) }
  plain := agreeing.plain
  stored := fun name hname => (agreeing.stored name hname).elim fun _ h => h.imp fun _ h => h.2
  gone := fun name plain hname => ⟨by simp [Engine.new], agreeing.gone name plain hname⟩

/-- A catalog that lists nothing, where there were no files. -/
theorem agreeing_of_write {f : Folder} {db : Database} (named : Named [] db)
    (made : Folder.empty.makeDirectories (dir ++ [Scope.system.directory]) = .ok f)
    (written : f.write (Engine.snapshotIn dir .system database) db.snapshot = .ok folder) :
    Agreeing dir [] folder where
  catalog := ⟨db, named, Folder.stat_write written⟩
  plain := by simp
  stored := by simp
  gone := by
    intro name plain _
    have hpath : (Engine.snapshotIn dir .data name).path ≠ [] :=
      Engine.path_snapshotIn_ne_nil plain
    rw [Folder.fileAt?_write written hpath, if_neg, (Folder.makeDirectories_spec made).2,
      Folder.fileAt?, Folder.entryAt?_of_ne_nil hpath]
    · rfl
    · exact fun h => nomatch (Engine.snapshot_injective Session.plainName_catalog plain h).1

/-- A folder with nothing but a catalog that lists nothing. -/
def emptyFolder : Folder :=
  Folder.empty.place (Engine.snapshotIn ["home"] .system database)
    (.file ((Database.new Timestamp.epoch).setTable table (listing [])).snapshot)

theorem agreeing_emptyFolder : Agreeing ["home"] [] emptyFolder := by
  have named : Named [] ((Database.new Timestamp.epoch).setTable table (listing [])) :=
    ⟨by decide, lists_setTable _ _⟩
  refine agreeing_of_write (f := (Folder.empty.put ["home"] .directory).put
    ["home", "system"] .directory) named ?_ ?_ <;> decide +kernel

end Catalog

/-- The database that a step creates or drops, if it succeeds. -/
def Step.database? (step : Step) : Option String :=
  match step.statement? with
  | some (.create .database name none) => some name
  | some (.drop .database (some name)) => some name
  | _ => none

/-- The client whose selected database is saved at a step. -/
def Step.saver? (step : Step) : Option Nat :=
  match step with
  | .save client => some client
  | .statement client text =>
    match Statement.parse text with
    | .ok (.init _) => some client
    | _ => none
  | .restart _ => none

/-- Whether a step is a client's statement. -/
def Step.isStatement : Step → Bool
  | .statement _ _ => true
  | _ => false

namespace World

variable {w : World} {dir : Route} {filed names names' : List String} {name : String} {step : Step}
variable {client : Nat} {text : String} {clock : Timestamp}

section

variable [PatternCompiler]

/-- `SHOW` lists exactly the databases that `INIT` opens for a client without a selection. -/
def ShowsWhatOpens (w : World) : Prop :=
  ∃ names : List String, w.Shows (names.map Catalog.row) ∧
    ∀ name, name ∈ names ↔ PlainName name ∧ ∃ db, w.Opens name db

/-- A client's selected database is saved although it was dropped, which brings it back. -/
def Revives (w : World) (step : Step) : Prop :=
  ∃ h, w.Flushes step h ∧ w.engine.live.get? .data h.name = none

omit [PatternCompiler] in
theorem flushes_iff {h : Handle} :
    w.Flushes step h ↔ ∃ client ∈ step.saver?, h ∈ (w.session client).active := by
  unfold Flushes
  constructor
  · rintro ⟨client, hactive, rfl | ⟨text, m, rfl, hparse⟩⟩
    · exact ⟨client, rfl, hactive⟩
    · exact ⟨client, by simp [Step.saver?, hparse], hactive⟩
  · rintro ⟨client, hclient, hactive⟩
    refine ⟨client, hactive, ?_⟩
    cases step with
    | save client' => exact .inl (congrArg Step.save (Option.some.inj hclient))
    | restart clock => exact nomatch hclient
    | statement client' text =>
      simp only [Step.saver?] at hclient
      split at hclient
      · next m hparse => exact .inr ⟨text, m, by rw [Option.some.inj hclient], hparse⟩
      · exact nomatch hclient

instance (w : World) (step : Step) : Decidable (w.Revives step) :=
  decidable_of_iff (∃ client ∈ step.saver?, ∃ h ∈ (w.session client).active,
    w.engine.live.get? .data h.name = none) <| by
      simp only [Revives, flushes_iff]
      constructor
      · rintro ⟨client, hclient, h, hactive, hlive⟩
        exact ⟨h, ⟨client, hclient, hactive⟩, hlive⟩
      · rintro ⟨h, ⟨client, hclient, hactive⟩, hlive⟩
        exact ⟨client, hclient, h, hactive, hlive⟩

/-- The file system does not fail at the step, which brings no dropped database back. -/
def Orderly (w : World) (step : Step) : Prop := w.IoFree step ∧ ¬w.Revives step

instance (w : World) (step : Step) : Decidable (w.Orderly step) :=
  inferInstanceAs (Decidable (w.IoFree step ∧ ¬w.Revives step))

/-! ### Steps -/

/-- The catalog in the folder lists the filed databases, the one in memory lists the named ones, and
these are the ones there are. -/
structure Accords (w : World) (dir : Route) (filed names : List String) : Prop where
  catalog : w.Follows dir (Catalog.Filed dir filed names)
  holds : w.engine.Holds dir names

omit [PatternCompiler] in
theorem mem_iff_of_holds (holds : w.engine.Holds dir names) :
    name ∈ names ↔ PlainName name ∧ ∃ db, w.Opens name db := by
  simp only [opens_iff]
  constructor
  · intro hname
    have plain := holds.plain name hname
    exact ⟨plain, (holds.exists_found_iff plain).2 hname⟩
  · rintro ⟨plain, hfound⟩
    exact (holds.exists_found_iff plain).1 hfound

section

variable (accords : w.Accords dir filed names) (io : w.IoFree step) (lost : ¬w.Revives step)

include accords io

theorem Accords.stored_after (hname : name ∈ names) (kept : ¬Drops name w step) :
    Engine.Stored dir name (w.after step).engine :=
  (follows_after (accords.holds.plain name hname) Engine.survives_stored
    (accords.catalog.of_holds (accords.holds.stored name hname)) io (fun _ _ _ => trivial)
      (fun _ _ => trivial) fun hst ok => kept ⟨hst, ok⟩).holds

include lost

theorem Accords.gone_after (plain : PlainName name) (hname : name ∉ names)
    (new : ¬Creates name w step) : Engine.Gone dir name (w.after step).engine := by
  have gone := accords.holds.gone name plain hname
  refine (follows_after plain (Engine.survives_gone plain) (accords.catalog.of_holds gone) io
    (fun h flushes hh => lost ⟨h, flushes, ?_⟩) (fun hst ok => new ⟨hst, ok⟩)
      fun _ _ => trivial).holds
  rw [hh]
  exact gone.1

theorem Accords.gone_of_drops (plain : PlainName name) (drops : Drops name w step) :
    Engine.Gone dir name (w.after step).engine := by
  by_cases hname : name ∈ names
  · obtain ⟨entry, hstat⟩ := accords.holds.stored name hname
    exact (follows_gone_of_drop plain (accords.catalog.of_holds fun _ =>
      Engine.shelf_of_stat plain hstat) drops).holds
  · refine accords.gone_after io lost plain hname fun creates => ?_
    exact nomatch drops.1.symm.trans creates.1

/-- What is to be known of a step: which databases it has taken in or out, and that they are listed
afterwards. -/
theorem Accords.after {filed' : List String}
    (readable : Engine.Readable dir (w.after step).engine)
    (catalog : (w.after step).Follows dir (Catalog.Filed dir filed' names'))
    (plain : ∀ name ∈ names', PlainName name)
    (created : ∀ name, Creates name w step → name ∈ names')
    (new : ∀ name ∈ names', name ∉ names → Engine.Stored dir name (w.after step).engine)
    (dropped : ∀ name, Drops name w step → name ∉ names')
    (old : ∀ name ∈ names, name ∉ names' → Drops name w step) :
    (w.after step).Accords dir filed' names' where
  catalog := catalog
  holds :=
    { readable
      plain
      stored := by
        intro name hname
        by_cases hold : name ∈ names
        · exact accords.stored_after io hold fun drops => dropped name drops hname
        · exact new name hname hold
      gone := by
        intro name plain' hname
        by_cases hold : name ∈ names
        · exact accords.gone_of_drops io lost plain' (old name hold hname)
        · exact accords.gone_after io lost plain' hold fun creates => hname (created name creates) }

end

section

variable {st : Statement} (accords : w.Accords dir filed names)
variable (io : w.IoFree (.statement client text)) (lost : ¬w.Revives (.statement client text))
variable (hparse : Statement.parse text = .ok st)

include hparse

include io in
/-- What a client sees after a statement that the file system does not disturb. -/
theorem view_of_ensures {P T : Interpreter × Session → Prop}
    (h : Ensures P (Session.dispatch st) (fun _ => T) (Session.UnlessIo T))
    (hP : P (w.view client)) : T ((w.after (.statement client text)).view client) := by
  have hio := answer_of_ioFree io
  rw [World.after, afterAct, view_withView]
  rw [exec_execute hparse] at hio ⊢
  exact Session.holds_of_ensures' h hP hio

include io in
/-- A statement that nothing but the file system keeps from succeeding. -/
theorem error?_of_ensures {P : Interpreter × Session → Prop}
    {Q : Outcome → Interpreter × Session → Prop}
    (h : Ensures P (Session.dispatch st) Q (Session.UnlessIo fun _ => False))
    (hP : P (w.view client)) : w.error? (.statement client text) = none ∧
      ∃ outcome, Q outcome ((w.after (.statement client text)).view client) := by
  obtain ⟨outcome, ok, hQ⟩ | ⟨err, herr, hfalse⟩ := statement_cases hparse h hP
  · exact ⟨ok, outcome, hQ⟩
  · exact (hfalse fun kind hkind => io kind (by rw [herr, hkind])).elim

omit hparse

variable (apart : ∀ n, (Step.statement client text).database? = some n →
  ∀ m ∈ names, Cell.sameValue m n = true → m = n)

include accords io lost

/-- A statement that leaves the databases as they are. -/
theorem Accords.statement_of_same
    (catalog : (w.after (.statement client text)).Follows dir (Catalog.Filed dir filed names))
    (create : ∀ name, ¬Creates name w (.statement client text))
    (drop : ∀ name, ¬Drops name w (.statement client text)) :
    (w.after (.statement client text)).Accords dir filed names :=
  accords.after io lost (readable_after accords.holds.readable (by simp)) catalog
    accords.holds.plain (fun name creates => absurd creates (create name))
    (fun _ hname hnot => absurd hname hnot) (fun name drops => absurd drops (drop name))
    fun _ hname hnot => absurd hname hnot

theorem Accords.create
    (hparse : Statement.parse text = .ok (.create .database name none)) :
    ∃ names', (w.after (.statement client text)).Accords dir filed names' ∧
      ∀ n ∈ names', n ∈ names ∨ n = name := by
  have hst : (Step.statement client text).statement? = _ := Step.statement?_of_parse hparse
  have plain := Statement.no_slash_of_parse hparse name (.create name none)
  have notDrops : ∀ n, ¬Drops n w (.statement client text) := fun n drops =>
    nomatch hst.symm.trans drops.1
  by_cases same : ∃ m ∈ names, Cell.sameValue m name = true
  · obtain ⟨m, hm, same⟩ := same
    obtain ⟨_, -, impossible⟩ | ⟨err, herr, tracks⟩ := statement_cases hparse
      (Session.filed_createDatabase_of_same hm same) (accords.catalog.tracks client)
    · exact impossible.elim
    · refine ⟨names, accords.statement_of_same io lost (accords.catalog.statement
        (tracks fun kind hkind => io kind (by rw [herr, hkind]))) (fun n creates => ?_) notDrops,
          fun n hn => .inl hn⟩
      exact nomatch herr.symm.trans creates.2
  · have different : ∀ m ∈ names, Cell.sameValue m name = false := fun m hm =>
      Bool.eq_false_iff.2 fun h => same ⟨m, hm, h⟩
    have hname : name ∉ names := fun hname => by simpa using different name hname
    have gone := accords.holds.gone name plain hname
    obtain ⟨-, outcome, tracks, stored⟩ := error?_of_ensures io hparse
      (Session.filed_createDatabase plain different)
        ⟨accords.catalog.tracks client, (accords.catalog.of_holds gone).tracks client⟩
    refine ⟨names ++ [name], accords.after io lost
      (readable_after accords.holds.readable (by simp)) (accords.catalog.statement tracks)
        (fun n hn => ?_) (fun n creates => ?_) (fun n hn hnot => ?_)
          (fun n drops => absurd drops (notDrops n))
            fun n hn hnot => absurd (List.mem_append_left _ hn) hnot, fun n hn => by simpa using hn⟩
    · obtain hn | rfl := List.mem_append.1 hn |>.imp_right List.mem_singleton.1
      · exact accords.holds.plain n hn
      · exact plain
    · obtain ⟨rfl⟩ : name = n := by simpa using hst.symm.trans creates.1
      simp
    · obtain hn | rfl := List.mem_append.1 hn |>.imp_right List.mem_singleton.1
      · exact absurd hn hnot
      · exact stored

include apart

theorem Accords.drop (hparse : Statement.parse text = .ok (.drop .database (some name))) :
    (w.after (.statement client text)).Accords dir filed (Engine.others names name) := by
  have hst : (Step.statement client text).statement? = _ := Step.statement?_of_parse hparse
  have plain := Statement.no_slash_of_parse hparse name (.drop name)
  have mem_others : ∀ n, n ∈ Engine.others names name ↔ n ∈ names ∧ n ≠ name := by
    intro n
    rw [Engine.others, List.mem_filter, Bool.not_eq_true']
    refine and_congr_right fun hn => ⟨fun h => ?_, fun hne => ?_⟩
    · rintro rfl
      simp at h
    · refine Bool.eq_false_iff.2 fun same => hne (apart name ?_ n hn same)
      rw [Step.database?, hst]
  have catalog := accords.catalog.statement (view_of_ensures io hparse
    (Session.filed_dropDatabase plain) (accords.catalog.tracks client))
  refine accords.after io lost (readable_after accords.holds.readable (by simp)) catalog
    (fun n hn => accords.holds.plain n ((mem_others n).1 hn).1) (fun n creates => ?_)
      (fun n hn hnot => absurd ((mem_others n).1 hn).1 hnot) (fun n drops hn => ?_)
        fun n hn hnot => ?_
  · exact absurd (hst.symm.trans creates.1) (by simp)
  · obtain rfl : name = n := by simpa using hst.symm.trans drops.1
    exact ((mem_others name).1 hn).2 rfl
  · obtain rfl : n = name := by
      by_contra hne
      exact hnot ((mem_others n).2 ⟨hn, hne⟩)
    have stored := accords.holds.stored n hn
    exact ⟨hst, (error?_of_ensures io hparse (Session.ok_dropDatabase plain)
      ⟨accords.catalog.tracks client, (accords.catalog.of_holds stored).tracks client⟩).1⟩

/-- **A statement** keeps the catalog in memory in step with the databases there are. -/
theorem Accords.statement :
    ∃ names', (w.after (.statement client text)).Accords dir filed names' ∧
      ∀ n ∈ names', n ∈ names ∨ (Step.statement client text).database? = some n := by
  cases hparse : Statement.parse text with
  | error cause =>
    have hst : (Step.statement client text).statement? = none := by
      simp [Step.statement?, hparse, Except.toOption]
    have hafter : w.after (.statement client text) = w := by
      rw [World.after, afterAct, exec_execute_of_error hparse, withView_view]
    rw [hafter]
    exact ⟨names, accords, fun n hn => .inl hn⟩
  | ok st =>
    have hst : (Step.statement client text).statement? = _ := Step.statement?_of_parse hparse
    by_cases hcreate : ∃ n, st = .create .database n none
    · obtain ⟨n, rfl⟩ := hcreate
      obtain ⟨names', accords', hnames'⟩ := accords.create io lost hparse
      refine ⟨names', accords', fun m hm => (hnames' m hm).imp_right fun h => ?_⟩
      rw [Step.database?, hst, h]
    by_cases hdrop : ∃ n, st = .drop .database (some n)
    · obtain ⟨n, rfl⟩ := hdrop
      exact ⟨_, accords.drop io lost apart hparse, fun m hm => .inl (List.mem_filter.1 hm).1⟩
    refine ⟨names, accords.statement_of_same io lost ?_ (fun n creates => ?_) fun n drops => ?_,
      fun n hn => .inl hn⟩
    · obtain ⟨act, performs, hexec⟩ := Session.exists_performs st (w.view client)
      refine accords.catalog.statement ?_
      have hio := answer_of_ioFree io
      rw [World.after, afterAct, view_withView]
      rw [exec_execute hparse, hexec] at hio ⊢
      exact Session.catalog_performs Catalog.opens_filed performs
        (Statement.no_slash_of_parse hparse) (accords.catalog.tracks client)
          (fun n h => absurd ⟨n, h⟩ hcreate) (fun n h => absurd ⟨n, h⟩ hdrop) hio
    · exact hcreate ⟨n, Option.some.inj (hst.symm.trans creates.1)⟩
    · exact hdrop ⟨n, Option.some.inj (hst.symm.trans drops.1)⟩

end

/-- **A saving** writes the catalog as it is in memory. -/
theorem Accords.save (accords : w.Accords dir filed names) (io : w.IoFree (.save client))
    (lost : ¬w.Revives (.save client)) : (w.after (.save client)).Accords dir names names := by
  have hst : (Step.save client).statement? = none := rfl
  refine accords.after io lost (readable_after accords.holds.readable (by simp)) ?_
    accords.holds.plain (fun n creates => ?_) (fun n hn hnot => absurd hn hnot)
      (fun n drops => ?_) fun n hn hnot => absurd hn hnot
  · exact accords.catalog.withView client (Session.holds_of_ensures'
      (Session.filed_save.mono_error fun _ _ h hio => (h hio).elim) (accords.catalog.tracks client)
        (answer_of_ioFree_save io))
  · exact nomatch hst.symm.trans creates.1
  · exact nomatch hst.symm.trans drops.1

/-! ### Restarts -/

/-- The next process finds the catalog of the folder, and the databases that there were. -/
theorem Accords.restarted (accords : w.Accords dir filed names) (valid : clock.isValid = true) :
    (w.after (.restart clock)).Follows dir (Catalog.Filed dir filed filed) ∧
      (w.after (.restart clock)).engine.Holds dir names := by
  constructor
  · exact follows_restart accords.catalog
      ⟨stands_new accords.catalog.holds.stands clock, fun _ => rfl⟩
  · rw [World.after, World.restarted, accords.catalog.dataDir]
    exact accords.holds.new valid

theorem Accords.restart (accords : w.Accords dir filed names) (valid : clock.isValid = true)
    (same : ∀ n, n ∈ filed ↔ n ∈ names) : (w.after (.restart clock)).Accords dir filed filed :=
  ⟨(accords.restarted valid).1, (accords.restarted valid).2.congr same⟩

omit [PatternCompiler] in
theorem row_injective : Function.Injective Catalog.row := by
  intro m n h
  have hvalue := congrArg (Row.value? · Catalog.key) h
  simpa using hvalue

/-- After a restart, `SHOW` lists the filed databases, and `INIT` opens those there were. -/
theorem Accords.showsWhatOpens_iff (accords : w.Accords dir filed names)
    (valid : clock.isValid = true) :
    (w.after (.restart clock)).ShowsWhatOpens ↔ ∀ n, n ∈ filed ↔ n ∈ names := by
  obtain ⟨catalog, holds⟩ := accords.restarted valid
  have shows : (w.after (.restart clock)).Shows (filed.map Catalog.row) :=
    (shows_iff 0).2 (Session.answer_list_of_filed (catalog.tracks 0))
  constructor
  · rintro ⟨listed, shows', hlisted⟩ n
    obtain rfl := List.map_injective_iff.2 row_injective (shows.unique shows')
    rw [hlisted, mem_iff_of_holds holds]
  · exact fun same => ⟨filed, shows, fun n => by rw [same, mem_iff_of_holds holds]⟩

end

/-- Both worlds have the same databases. -/
def SameDatabases (w w' : World) : Prop :=
  ∀ name, PlainName name → ((∃ db, w.Opens name db) ↔ ∃ db, w'.Opens name db)

/-- The steps of a run up to the last saving or restart. -/
def lastSaved (steps : List Step) : List Step := steps.rdropWhile Step.isStatement

/-- What holds of each restart of a run, as a property of the steps before it and of the time. -/
def AtRestarts (P : List Step → Timestamp → Prop) (steps : List Step) : Prop :=
  ∀ before clock, before ++ [.restart clock] <+: steps → P before clock

theorem atRestarts_nil {P : List Step → Timestamp → Prop} : AtRestarts P [] := by
  intro before clock h
  simp at h

theorem atRestarts_cons {P : List Step → Timestamp → Prop} {steps : List Step} :
    AtRestarts P (step :: steps) ↔ (∀ clock, step = .restart clock → P [] clock) ∧
      AtRestarts (fun before => P (step :: before)) steps := by
  constructor
  · intro h
    refine ⟨?_, fun before clock hbefore => h (step :: before) clock ?_⟩
    · rintro clock rfl
      exact h [] clock (by simp)
    · simpa using hbefore
  · rintro ⟨hfirst, h⟩ (_ | ⟨s, before⟩) clock hbefore
    · exact hfirst clock (List.cons_prefix_cons.1 hbefore).1.symm
    · obtain ⟨rfl, hprefix⟩ := List.cons_prefix_cons.1 hbefore
      exact h before clock hprefix

theorem atRestarts_concat {P : List Step → Timestamp → Prop} {steps : List Step} :
    AtRestarts P (steps ++ [step]) ↔
      AtRestarts P steps ∧ ∀ clock, step = .restart clock → P steps clock := by
  constructor
  · intro h
    refine ⟨fun before clock hbefore => h before clock (hbefore.trans (List.prefix_append ..)), ?_⟩
    rintro clock rfl
    exact h steps clock (List.prefix_refl _)
  · rintro ⟨h, hlast⟩ before clock hbefore
    obtain heq | hbefore := List.prefix_concat_iff.1 hbefore
    · obtain ⟨rfl, hstep⟩ := List.append_inj' heq rfl
      exact hlast clock (List.singleton_inj.1 hstep).symm
    · exact h before clock hbefore

section

variable [PatternCompiler]
variable {listed used : List String} {steps : List Step} {folder : Folder}

/-- Names that have the same value are the same. -/
def Apart (names : List String) : Prop :=
  ∀ m ∈ names, ∀ n ∈ names, Cell.sameValue m n = true → m = n

instance (names : List String) : Decidable (Apart names) :=
  inferInstanceAs (Decidable (∀ m ∈ names, ∀ n ∈ names, Cell.sameValue m n = true → m = n))

/-- **A run** leaves the catalog in memory in step with the databases there are, and in the folder
as at the last saving, as long as no restart finds the two apart. -/
theorem Accords.run (accords : w.Accords dir listed listed)
    (clocks : ∀ t, .restart t ∈ steps → t.isValid = true) (orderly : Along Orderly w steps)
    (apart : Apart used) (hlisted : listed ⊆ used)
    (hsteps : ∀ step ∈ steps, ∀ n ∈ step.database?, n ∈ used)
    (same : AtRestarts (fun before _ =>
      (w.run before).SameDatabases (w.run (lastSaved before))) steps) :
    ∃ filed names, (w.run steps).Accords dir filed names ∧ names ⊆ used ∧
      ∀ n, n ∈ filed ↔ PlainName n ∧ ∃ db, (w.run (lastSaved steps)).Opens n db := by
  -- from the end of the run, since what a restart finds depends on all that was done before it
  induction steps using List.reverseRecOn with
  | nil => exact ⟨listed, listed, accords, hlisted, fun n => mem_iff_of_holds accords.holds⟩
  | append_singleton steps step ih =>
    obtain ⟨orderlyBefore, ⟨io, lost⟩, -⟩ := along_append.1 orderly
    obtain ⟨sameBefore, sameStep⟩ := atRestarts_concat.1 same
    obtain ⟨filed, names, accords', hnames, hfiled⟩ := ih (fun t ht => clocks t (by simp [ht]))
      orderlyBefore (fun s hs => hsteps s (by simp [hs])) sameBefore
    have hrun : w.run (steps ++ [step]) = (w.run steps).after step := run_append ..
    have hlast : step.isStatement = false → lastSaved (steps ++ [step]) = steps ++ [step] :=
      fun h => List.rdropWhile_concat_neg _ _ _ (by simp [h])
    rw [hrun]
    cases step with
    | statement client text =>
      have hdatabase := hsteps (.statement client text) (by simp)
      have hlast' : lastSaved (steps ++ [.statement client text]) = lastSaved steps :=
        List.rdropWhile_concat_pos _ _ _ rfl
      obtain ⟨names', accords'', hnames'⟩ := accords'.statement io lost
        fun n hn m hm => apart m (hnames hm) n (hdatabase n hn)
      refine ⟨filed, names', accords'', fun n hn => ?_, by rwa [hlast']⟩
      exact (hnames' n hn).elim (fun h => hnames h) (hdatabase n)
    | save client =>
      have accords'' := accords'.save io lost
      rw [hlast rfl, hrun]
      exact ⟨names, names, accords'', hnames, fun n => mem_iff_of_holds accords''.holds⟩
    | restart clock =>
      -- nothing was created or dropped for good since the last saving, so no list is lost
      have agree : ∀ n, n ∈ filed ↔ n ∈ names := fun n => by
        rw [hfiled, mem_iff_of_holds accords'.holds]
        exact and_congr_right fun plain => (sameStep clock rfl n plain).symm
      have accords'' := accords'.restart (clocks clock (by simp)) agree
      rw [hlast rfl, hrun]
      exact ⟨filed, filed, accords'', fun n hn => hnames ((agree n).1 hn),
        fun n => mem_iff_of_holds accords''.holds⟩

end

end World

end Tabular
