import Mathlib.Data.List.Induction
import Tabular.Proofs.Catalog.Storage

/-!
The catalog of an interpreter with a data directory.

What is known of the catalog (`Catalog.Opens`) survives every statement of every client, because
statements reach the catalog only by opening it, by inserting a row and by deleting rows. A saving
puts the catalog of the memory into the folder, and with a restart the catalog of the folder takes
the place of that in memory. Main statement: a catalog has its table unless the process once ended
after the catalog had been opened and before anything was saved (`catalogReady_iff_not_lost`).
-/

namespace Tabular

/-! ### Operations that leave the catalog alone -/

namespace Engine

variable {e : Engine} {name : String}

theorem apart_save {h : Handle} (hscope : h.scope = .data) (plain : PlainName h.name)
    (e : Engine) : Catalog.Apart e (exec (save h) e).2 :=
  ⟨evolves_save h e, spares_save .system h e,
    leaves_save plain Session.plainName_catalog (by simp [hscope]) e⟩

theorem apart_load (ordered : e.Ordered) (name : String) :
    Catalog.Apart e (exec (load .data name) e).2 :=
  ⟨evolves_load .data name e, spares_load ordered (by simp) name, leaves_load (by simp) e⟩

theorem apart_createDatabase (ordered : e.Ordered) (plain : PlainName name) :
    Catalog.Apart e (exec (createDatabase .data name) e).2 :=
  ⟨evolves_createDatabase .data name e, spares_createDatabase ordered (by simp) name,
    leaves_createDatabase plain Session.plainName_catalog (by simp) e⟩

theorem apart_dropDatabase (plain : PlainName name) (e : Engine) :
    Catalog.Apart e (exec (dropDatabase .data name) e).2 :=
  ⟨evolves_dropDatabase .data name e, spares_dropDatabase (by simp) name e,
    leaves_dropDatabase plain Session.plainName_catalog (by simp) e⟩

theorem apart_describeDatabase (ordered : e.Ordered) (active : Option Handle) (name : String) :
    Catalog.Apart e (exec (describeDatabase active name) e).2 := by
  rcases exec_describeDatabase_snd active name e with h | h <;> rw [h]
  · exact .refl e
  · exact apart_load ordered name

theorem apart_query {α : Type} (h : Handle) (f : Database → Except StorageError α) (e : Engine) :
    Catalog.Apart e (exec (query h f) e).2 := by
  rw [exec_query]
  exact .refl e

theorem apart_edit {α : Type} {h : Handle} (valid : e.Valid h) (hscope : h.scope = .data)
    (f : Database → Except StorageError (α × Database)) :
    Catalog.Apart e (exec (edit h f) e).2 :=
  ⟨evolves_edit h f e, spares_edit valid (by simp [hscope]) f, leaves_edit h f e⟩

end Engine

/-! ### Sessions -/

namespace Session

variable {dir : Route} {K : Engine → Prop} {P Q : Database → Prop} {e : Engine} {c : Handle}

/-- The catalog is open, and it stands as it does. -/
def Opened (dir : Route) (P Q : Database → Prop) (c : Handle) (e : Engine) : Prop :=
  Catalog.Stands dir P Q e ∧ Catalog.IsHandle e c

/-- An operation that leaves the catalog alone. -/
theorem tracks_apart {α : Type} {act : EngineM α}
    (closed : ∀ e e', e.dataDir = some dir → Catalog.Apart e e' → K e → K e')
    {R : Interpreter × Session → Prop} (hR : ∀ p, R p → Tracks dir K e p)
    (apart : ∀ p, R p → Catalog.Apart p.1.engine (exec act p.1.engine).2) :
    Ensures R (storage act) (fun _ => Tracks dir K e) (UnlessIo (Tracks dir K e)) := by
  refine tracks_storage hR (fun p hp => (apart p hp).keeps) fun p r e' hp hact _ => ?_
  have hapart := apart p hp
  rw [hact] at hapart
  exact closed p.1.engine e' (hR p hp).dataDir hapart (hR p hp).holds

theorem opened_apart (e e' : Engine) (hdir : e.dataDir = some dir) (apart : Catalog.Apart e e')
    (opened : Opened dir P Q c e) : Opened dir P Q c e' :=
  ⟨opened.1.apart hdir apart, opened.2.keeps apart.keeps⟩

/-- **Obtaining the catalog** succeeds, unless the file system fails. -/
theorem opened_of_catalog (opens : Catalog.Opens dir K P Q) :
    Ensures (Tracks dir K e) catalog (fun c => Tracks dir (Opened dir P Q c) e)
      (UnlessIo fun _ => False) := by
  have hsees := sees_catalog (e := e)
  intro p hp
  have hcat := hsees p hp.sees
  have hens := Catalog.ensures_open p.1.engine p.1.engine (.refl _)
  rw [exec_catalog] at hcat ⊢
  cases hc : p.1.catalog with
  | some c =>
    have handle := hp.sees.interpreter.catalog c hc
    have hlive : p.1.engine.live.get? .system Catalog.database ≠ none := by
      rw [handle.live]
      simp
    exact ⟨hp.sees, hp.dataDir, hp.plain, opens.found p.1.engine hp.holds hlive, handle⟩
  | none =>
    simp only [hc] at hcat ⊢
    rcases hopen : exec Catalog.open p.1.engine with ⟨err | c, e'⟩ <;> rw [hopen] at hcat hens
    · intro hio
      have hok := opens.opens p.1.engine _ e' hp.dataDir hp.holds hopen fun kind hkind =>
        hio kind (by rw [Except.error.inj hkind])
      simp [Except.isOk, Except.toBool] at hok
    · have hok := opens.opens p.1.engine _ e' hp.dataDir hp.holds hopen
        (by simp [Engine.Undisturbed])
      exact ⟨hcat.1, hens.1.evolves.dataDir.trans hp.dataDir, hp.plain, hok.2, hens.2⟩

/-- A change of the catalog that keeps what is known of it. -/
theorem opened_of_edit {α : Type} {f : Database → Except StorageError (α × Database)}
    (hf : ∀ db a db', Q db → f db = .ok (a, db') → Q db') :
    Ensures (Tracks dir (Opened dir P Q c) e) (storage (Engine.edit c f))
      (fun _ => Tracks dir (Opened dir P Q c) e) (UnlessIo (Tracks dir (Opened dir P Q c) e)) := by
  refine tracks_storage (fun _ h => h) (fun p _ => Engine.keeps_edit c f p.1.engine)
    fun p r e' hp hact _ => ?_
  obtain ⟨stands, handle⟩ := hp.holds
  have hkeeps := Engine.keeps_edit c f p.1.engine
  rw [hact] at hkeeps
  refine ⟨?_, handle.keeps hkeeps⟩
  rw [Engine.exec_edit] at hact
  rcases hdb : f (p.1.engine.databaseOf c) with err | ⟨a, db⟩ <;> rw [hdb] at hact <;>
    obtain ⟨-, rfl⟩ := Prod.mk.inj hact
  · exact stands
  · exact stands.edit hp.sees.interpreter.ordered handle
      (hf _ a db (stands.memory c.cell handle.live) hdb)

/-- A catalog that is in the folder is obtained. -/
theorem exists_answer_of_catalog {p : Interpreter × Session}
    (valid : ∀ db, P db → db.createdAt.isValid = true)
    (tracks : Tracks dir (Catalog.Stands dir P Q) e p) :
    ∃ c, (exec catalog p).1 = .ok c := by
  rw [exec_catalog]
  cases p.1.catalog with
  | some c => exact ⟨c, rfl⟩
  | none =>
    have hload : ∃ c e', exec (Engine.load .system Catalog.database) p.1.engine =
        (.ok (some c), e') := by
      cases hlive : p.1.engine.live.get? .system Catalog.database with
      | some c => exact ⟨c, p.1.engine, Engine.exec_load_of_live hlive⟩
      | none =>
        obtain ⟨db, -, hload⟩ :=
          Catalog.exec_load_of_stands valid tracks.holds tracks.dataDir hlive
        exact ⟨_, _, hload⟩
    obtain ⟨c, e', hload⟩ := hload
    dsimp only
    rw [Catalog.exec_open_of_load hload]
    exact ⟨_, rfl⟩

section

variable (opens : Catalog.Opens dir K P Q)

include opens

/-- What is known of an open catalog is known in general. -/
theorem tracks_of_opened {p : Interpreter × Session} (tracks : Tracks dir (Opened dir P Q c) e p) :
    Tracks dir K e p :=
  ⟨tracks.sees, tracks.dataDir, tracks.plain,
    opens.holds p.1.engine tracks.holds.1 (by rw [tracks.holds.2.live]; simp)⟩

theorem ensures_of_opened {α : Type} {act : SessionM α}
    (h : Ensures (Tracks dir (Opened dir P Q c) e) act (fun _ => Tracks dir (Opened dir P Q c) e)
      (UnlessIo (Tracks dir (Opened dir P Q c) e))) :
    Ensures (Tracks dir (Opened dir P Q c) e) act (fun _ => Tracks dir K e)
      (UnlessIo (Tracks dir K e)) :=
  h.mono (fun _ h => h) (fun _ _ h => tracks_of_opened opens h)
    fun _ _ h hio => tracks_of_opened opens (h hio)

/-- An operation that obtains the catalog first. -/
theorem catalog_bind {α : Type} {f : Handle → SessionM α}
    (hf : ∀ c, Ensures (Tracks dir (Opened dir P Q c) e) (f c) (fun _ => Tracks dir K e)
      (UnlessIo (Tracks dir K e))) :
    Ensures (Tracks dir K e) (catalog >>= f) (fun _ => Tracks dir K e)
      (UnlessIo (Tracks dir K e)) :=
  ((opened_of_catalog opens).mono_error fun _ _ h hio => (h hio).elim).bind hf

theorem catalog_saveActive :
    Ensures (Tracks dir K e) saveActive (fun _ => Tracks dir K e) (UnlessIo (Tracks dir K e)) := by
  refine ensures_saveActive (fun p hp _ => hp) fun h => tracks_apart opens.apart (fun _ hp => hp.1)
    fun p hp => ?_
  exact Engine.apart_save (hp.1.sees.session h hp.2).2 (hp.1.plain h hp.2) p.1.engine

theorem catalog_open (name : String) :
    Ensures (Tracks dir K e) (storage (Engine.open .data name)) (fun _ => Tracks dir K e)
      (UnlessIo (Tracks dir K e)) := by
  refine tracks_apart opens.apart (fun _ h => h) fun p hp => ?_
  rw [Engine.exec_open_snd]
  exact Engine.apart_load hp.sees.interpreter.ordered name

variable [PatternCompiler] (kept : Catalog.Kept Q)

include kept

theorem catalog_createDatabase {name : String} (plain : PlainName name) :
    Ensures (Tracks dir K e) (createDatabase name) (fun _ => Tracks dir K e)
      (UnlessIo (Tracks dir K e)) := by
  unfold createDatabase
  refine catalog_bind opens fun c =>
    Ensures.bind (R := fun _ => Tracks dir (Opened dir P Q c) e) ?_ fun _ => ?_
  · refine (opened_of_edit fun db a db' hdb hinsert => ?_).mono_error
      fun _ _ h hio => tracks_of_opened opens (h hio)
    obtain ⟨db₁, hdb₁, heq⟩ := Result.bind_eq_ok_iff.1 hinsert
    obtain ⟨-, rfl⟩ := Prod.mk.inj (Except.ok.inj heq)
    exact kept.insert db name db₁ hdb hdb₁
  · exact ensures_of_opened opens (tracks_apart opened_apart (fun _ h => h) fun p hp =>
      Engine.apart_createDatabase hp.sees.interpreter.ordered plain)

theorem catalog_dropDatabase {name : String} (plain : PlainName name) :
    Ensures (Tracks dir K e) (dropDatabase name) (fun _ => Tracks dir K e)
      (UnlessIo (Tracks dir K e)) := by
  unfold dropDatabase
  refine catalog_bind opens fun c =>
    Ensures.bind (R := fun _ => Tracks dir (Opened dir P Q c) e) ?_ fun _ =>
      Ensures.bind (R := fun _ => Tracks dir K e) ?_ fun outcome =>
        ensures_forget name outcome fun _ h => h.forget
  · refine (opened_of_edit fun db a db' hdb hdelete => ?_).mono_error
      fun _ _ h hio => tracks_of_opened opens (h hio)
    obtain ⟨⟨n, db₁⟩, hdb₁, heq⟩ := Result.bind_eq_ok_iff.1 hdelete
    obtain ⟨-, rfl⟩ := Prod.mk.inj (Except.ok.inj heq)
    exact kept.delete db name n db₁ hdb hdb₁
  · exact ensures_of_opened opens (tracks_apart opened_apart (fun _ h => h) fun p _ =>
      Engine.apart_dropDatabase plain p.1.engine)

omit kept in
theorem catalog_listDatabases (pattern : Option String) :
    Ensures (Tracks dir K e) (listDatabases pattern) (fun _ => Tracks dir K e)
      (UnlessIo (Tracks dir K e)) := by
  unfold listDatabases
  exact catalog_bind opens fun c => ensures_of_opened opens
    (tracks_apart opened_apart (fun _ h => h) fun p _ => Engine.apart_query c _ p.1.engine)

omit kept in
/-- Statements that neither create nor drop a database leave the catalog alone, but for opening it.
-/
theorem catalog_performs {st : Statement} {act : SessionM Outcome} {p : Interpreter × Session}
    (performs : Performs p st act) (noSlash : st.NoSlash) (tracks : Tracks dir K e p)
    (create : ∀ name, st = .create .database name none →
      Ensures (Tracks dir K e) (createDatabase name) (fun _ => Tracks dir K e)
        (UnlessIo (Tracks dir K e)))
    (drop : ∀ name, st = .drop .database (some name) →
      Ensures (Tracks dir K e) (dropDatabase name) (fun _ => Tracks dir K e)
        (UnlessIo (Tracks dir K e)))
    (hio : ∀ kind, (exec act p).1 ≠ .error (.storage (.io kind))) :
    Tracks dir K e (exec act p).2 := by
  cases performs with
  | select m =>
    exact holds_of_ensures' (tracks_select_of (catalog_saveActive opens) (catalog_open opens m)
      (noSlash m (.init m))) tracks hio
  | create m => exact holds_of_ensures' (create m rfl) tracks hio
  | drop m => exact holds_of_ensures' (drop m rfl) tracks hio
  | list pattern => exact holds_of_ensures' (catalog_listDatabases opens pattern) tracks hio
  | describe m =>
    exact holds_of_ensures' (tracks_apart opens.apart (fun _ h => h) fun q hq =>
      Engine.apart_describeDatabase hq.sees.interpreter.ordered p.2.active m) tracks hio
  | query active f =>
    exact holds_of_ensures' (tracks_apart opens.apart (fun _ h => h) fun q _ =>
      Engine.apart_query _ f q.1.engine) tracks hio
  | @edit _ h active f =>
    refine holds_of_ensures' (tracks_apart opens.apart
      (R := fun q => Tracks dir K e q ∧ q.2.active = some h) (fun _ hq => hq.1) fun q hq => ?_)
        ⟨tracks, active⟩ hio
    obtain ⟨valid, hscope⟩ := hq.1.sees.session h hq.2
    exact Engine.apart_edit valid hscope f
  | refuse err => exact tracks

/-- **A statement leaves what is known of the catalog as it is.** -/
theorem catalog_dispatch {st : Statement} (noSlash : st.NoSlash) {p : Interpreter × Session}
    (tracks : Tracks dir K e p)
    (hio : ∀ kind, (exec (dispatch st) p).1 ≠ .error (.storage (.io kind))) :
    Tracks dir K e (exec (dispatch st) p).2 := by
  obtain ⟨act, performs, hexec⟩ := exists_performs st p
  rw [hexec] at hio ⊢
  refine catalog_performs opens performs noSlash tracks (fun name hst => ?_) (fun name hst => ?_)
    hio <;> subst hst
  · exact catalog_createDatabase opens kept (noSlash name (.create name none))
  · exact catalog_dropDatabase opens kept (noSlash name (.drop name))

end

/-- **Saving puts the catalog of the memory into the folder.** -/
theorem catalog_save (opens : Catalog.Opens dir K P Q) :
    Ensures (Tracks dir K e) save (fun _ => Tracks dir (Catalog.Stands dir Q Q) e)
      (UnlessIo fun _ => False) := by
  unfold save
  refine Ensures.bind (R := fun _ => Tracks dir K e) ?_ fun _ =>
    (opened_of_catalog opens).bind fun c => ?_
  · refine ((catalog_saveActive opens).and ioOnly_saveActive).mono (fun _ h => h)
      (fun _ _ h => h.1) ?_
    rintro err _ ⟨-, kind, rfl⟩ hio
    exact absurd rfl (hio kind)
  · refine (ensures_save fun p e' hp hsave => ?_).mono_error
      fun err _ ⟨kind, hkind⟩ hio => absurd hkind (hio kind)
    have hkeeps := Engine.keeps_save c p.1.engine
    rw [hsave] at hkeeps
    exact hp.engine hkeeps (hp.holds.1.save hp.dataDir hp.holds.2 hsave)

variable [PatternCompiler]

/-! ### Statements about databases -/

/-- The statements for which a session needs the catalog. -/
inductive NeedsCatalog : Statement → Prop where
  | create (name : String) : NeedsCatalog (.create .database name none)
  | drop (name : String) : NeedsCatalog (.drop .database (some name))
  | list (pattern : Option String) : NeedsCatalog (.show pattern)

omit [PatternCompiler] in
/-- An operation on an open catalog without a table. -/
theorem lacksTable_storage {α : Type} {act : EngineM α}
    (hact : ∀ e, Catalog.Bare (e.databaseOf c) →
      (exec act e).1 = .error (.tableNotFound Catalog.table)) :
    Ensures (Tracks dir (Opened dir P Catalog.Bare c) e) (storage act) (fun _ _ => False)
      (fun err _ => err = .storage (.tableNotFound Catalog.table)) := by
  have hbare : ∀ p, Tracks dir (Opened dir P Catalog.Bare c) e p →
      Catalog.Bare (p.1.engine.databaseOf c) :=
    fun p hp => hp.holds.1.memory c.cell hp.holds.2.live
  refine ensures_storage (fun p a e' hp h => ?_) fun p err e' hp h => ?_
  · have hres := hact p.1.engine (hbare p hp)
    rw [h] at hres
    simp at hres
  · have hres := hact p.1.engine (hbare p hp)
    rw [h] at hres
    rw [Except.error.inj hres]

/-- **Without the catalog's table, every statement that needs the catalog fails for lack of it.** -/
theorem lacksTable_dispatch (opens : Catalog.Opens dir K P Catalog.Bare) {st : Statement}
    (needs : NeedsCatalog st) :
    Ensures (Tracks dir K e) (dispatch st) (fun _ _ => False)
      (fun err _ => (∀ kind, err ≠ .storage (.io kind)) →
        err = .storage (.tableNotFound Catalog.table)) := by
  have hcatalog := (opened_of_catalog (e := e) opens).mono_error
    fun (err : Error) _ h (hio : ∀ kind, err ≠ .storage (.io kind)) =>
      (h hio : False).elim (C := err = .storage (.tableNotFound Catalog.table))
  cases needs with
  | create name =>
    refine hcatalog.bind fun c => Ensures.bind (R := fun _ _ => False) ?_ fun _ p hp => hp.elim
    refine (lacksTable_storage fun e' bare => ?_).mono_error fun _ _ h _ => h
    unfold Engine.insert
    rw [Engine.exec_edit, Catalog.insert_of_bare bare]
    rfl
  | drop name =>
    refine hcatalog.bind fun c => Ensures.bind (R := fun _ _ => False) ?_ fun _ p hp => hp.elim
    refine (lacksTable_storage fun e' bare => ?_).mono_error fun _ _ h _ => h
    unfold Engine.delete
    rw [Engine.exec_edit, Catalog.delete_of_bare bare]
    rfl
  | list pattern =>
    refine hcatalog.bind fun c => ?_
    refine (lacksTable_storage fun e' bare => ?_).mono_error fun _ _ h _ => h
    have hq : (listed pattern).table = Catalog.table := by cases pattern <;> rfl
    change (exec (Engine.find c (listed pattern)) e').1 = _
    unfold Engine.find
    rw [Engine.exec_query, Catalog.find_of_bare bare hq]
    rfl

omit [PatternCompiler] in
/-- An operation whose errors are of another kind than a missing table. -/
theorem hasTable_storage {α : Type} {act : EngineM α} {R : Interpreter × Session → Prop}
    (hact : ∀ p err e', R p → exec act p.1.engine = (.error err, e') →
      ∀ name, err ≠ .tableNotFound name) :
    Ensures R (storage act) (fun _ _ => True)
      (fun err _ => ∀ name, err ≠ .storage (.tableNotFound name)) := by
  refine ensures_storage (fun _ _ _ _ _ => trivial) fun p err e' hp h name herr => ?_
  exact hact p err e' hp h name (by simpa using herr)

/-- **With the catalog's table, no statement that needs the catalog fails for lack of a table.** -/
theorem hasTable_dispatch (opens : Catalog.Opens dir K P Catalog.Ready) {st : Statement}
    (needs : NeedsCatalog st) :
    Ensures (Tracks dir K e) (dispatch st) (fun _ _ => True)
      (fun err _ => (∀ kind, err ≠ .storage (.io kind)) →
        ∀ name, err ≠ .storage (.tableNotFound name)) := by
  have hcatalog := (opened_of_catalog (e := e) opens).mono_error
    fun (err : Error) _ h (hio : ∀ kind, err ≠ .storage (.io kind)) =>
      (h hio : False).elim (C := ∀ name, err ≠ .storage (.tableNotFound name))
  have hready : ∀ (c : Handle) p, Tracks dir (Opened dir P Catalog.Ready c) e p →
      Catalog.Ready (p.1.engine.databaseOf c) :=
    fun c p hp => hp.holds.1.memory c.cell hp.holds.2.live
  cases needs with
  | create name =>
    refine hcatalog.bind fun c => Ensures.bind (R := fun _ _ => True) ?_ fun _ => ?_
    · refine (hasTable_storage fun p err e' hp h n => ?_).mono_error fun _ _ h _ => h
      obtain ⟨-, names, lists⟩ := hready c p hp
      unfold Engine.insert at h
      rw [Engine.exec_edit, Catalog.insert_entry lists] at h
      by_cases hany : (names.any fun m => Cell.sameValue m name) = true
      · rw [if_pos hany] at h
        rw [← Except.error.inj (Prod.mk.inj h).1]
        simp
      · rw [if_neg hany] at h
        simp at h
    · refine (hasTable_storage fun p err e' _ h n => ?_).mono_error fun _ _ h _ => h
      rcases Engine.error_of_createDatabase h with rfl | rfl | ⟨kind, rfl⟩ <;> simp
  | drop name =>
    refine hcatalog.bind fun c => Ensures.bind (R := fun _ _ => True) ?_ fun _ =>
      Ensures.bind (R := fun _ _ => True) ?_ fun outcome =>
        ensures_forget name outcome fun _ _ => trivial
    · refine (hasTable_storage fun p err e' hp h n => ?_).mono_error fun _ _ h _ => h
      obtain ⟨-, names, lists⟩ := hready c p hp
      unfold Engine.delete at h
      rw [Engine.exec_edit, Catalog.delete_having lists] at h
      simp at h
    · refine (hasTable_storage fun p err e' _ h n => ?_).mono_error fun _ _ h _ => h
      rcases Engine.error_of_dropDatabase h with rfl | ⟨kind, rfl⟩ <;> simp
  | list pattern =>
    refine hcatalog.bind fun c =>
      (hasTable_storage fun p err e' hp h n => ?_).mono_error fun _ _ h _ => h
    obtain ⟨-, names, lists⟩ := hready c p hp
    change exec (Engine.find c (listed pattern)) p.1.engine = _ at h
    unfold Engine.find at h
    cases pattern with
    | none =>
      rw [Engine.exec_query, show listed none = { table := Catalog.table } from rfl,
        Catalog.find_listed lists] at h
      simp at h
    | some raw =>
      rw [Engine.exec_query, show listed (some raw) =
        Catalog.having .like (Request.value raw.toList) from rfl] at h
      obtain ⟨-, rows, hrows⟩ | ⟨reason, -, hrefused⟩ :=
        Catalog.find_like_cases lists (Request.value raw.toList)
      · simp [hrows] at h
      · rw [hrefused] at h
        obtain ⟨rfl, -⟩ : StorageError.invalidPattern reason = err ∧ _ := by simpa using h
        exact StorageError.noConfusion

end Session

/-! ### Worlds -/

namespace World

open Catalog

variable {w : World} {dir : Route} {K : Engine → Prop} {P Q : Database → Prop}

theorem Follows.mono {K' : Engine → Prop} (follows : w.Follows dir K)
    (h : ∀ e, K e → K' e) : w.Follows dir K' :=
  follows.of_holds (h w.engine follows.holds)

section

variable [PatternCompiler]

theorem follows_statement (opens : Opens dir K P Q) (kept : Kept Q) (follows : w.Follows dir K)
    {client : Nat} {text : String} (io : w.IoFree (.statement client text)) :
    (w.after (.statement client text)).Follows dir K := by
  apply follows.withView client
  have hio := answer_of_ioFree io
  cases hparse : Statement.parse text with
  | error cause =>
    rw [exec_execute_of_error hparse]
    exact follows.tracks client
  | ok st =>
    rw [exec_execute hparse] at hio ⊢
    exact Session.catalog_dispatch opens kept (Statement.no_slash_of_parse hparse)
      (follows.tracks client) hio

theorem follows_save (opens : Opens dir K P Q) (follows : w.Follows dir K) {client : Nat}
    (io : w.IoFree (.save client)) : (w.after (.save client)).Follows dir (Stands dir Q Q) := by
  apply follows.withView client
  exact Session.holds_of_ensures' ((Session.catalog_save opens).mono_error
    fun _ _ h hio => (h hio).elim) (follows.tracks client) (answer_of_ioFree_save io)

theorem follows_restart {K' : Engine → Prop} (follows : w.Follows dir K) {clock : Timestamp}
    (holds : K' (Engine.new (some dir) w.engine.folder clock)) :
    (w.after (.restart clock)).Follows dir K' := by
  rw [after, restarted, follows.dataDir]
  exact start_follows holds

omit [PatternCompiler] in
/-- What a process finds is the catalog of the folder. -/
theorem stands_new {e : Engine} (stands : Stands dir P Q e) (clock : Timestamp) :
    Stands dir P P (Engine.new (some dir) e.folder clock) where
  filed := stands.filed
  memory := fun c hc => by simp [Engine.new] at hc

/-- A catalog that is the same in the folder and in memory stays so. -/
theorem follows_stands (kept : Kept P) (follows : w.Follows dir (Stands dir P P)) {step : Step}
    (io : w.IoFree step) : (w.after step).Follows dir (Stands dir P P) := by
  cases step with
  | statement client text => exact follows_statement (opens_stands kept.valid) kept follows io
  | save client => exact follows_save (opens_stands kept.valid) follows io
  | restart clock => exact follows_restart follows (stands_new follows.holds clock)

/-- The catalog is open, and the process ends. -/
def EndsOpen (w : World) (step : Step) : Prop :=
  w.engine.live.get? .system Catalog.database ≠ none ∧ ∃ clock, step = .restart clock

/-- In a run, a process ends with the catalog open before anything was saved. -/
def Lost (w : World) (steps : List Step) : Prop :=
  ∃ before step rest, steps = before ++ step :: rest ∧ (w.run before).EndsOpen step ∧
    ¬∃ client, .save client ∈ before

theorem lost_append_singleton {steps : List Step} {step : Step} :
    w.Lost (steps ++ [step]) ↔
      w.Lost steps ∨ (w.run steps).EndsOpen step ∧ ¬∃ client, .save client ∈ steps := by
  constructor
  · rintro ⟨before, s, rest, hsteps, ends, unsaved⟩
    rcases List.eq_nil_or_concat rest with rfl | ⟨rest, last, rfl⟩
    · obtain ⟨rfl, heq⟩ := List.append_inj' hsteps rfl
      obtain rfl := List.singleton_inj.1 heq
      exact .inr ⟨ends, unsaved⟩
    · rw [List.concat_eq_append, ← List.cons_append, ← List.append_assoc] at hsteps
      obtain ⟨rfl, -⟩ := List.append_inj' hsteps rfl
      exact .inl ⟨before, s, rest, rfl, ends, unsaved⟩
  · rintro (⟨before, s, rest, rfl, ends, unsaved⟩ | ⟨ends, unsaved⟩)
    · exact ⟨before, s, rest ++ [step], by simp, ends, unsaved⟩
    · exact ⟨steps, step, [], rfl, ends, unsaved⟩

/-- What can happen to a catalog that has not been saved. -/
theorem follows_fresh (follows : w.Follows dir (Fresh dir)) {step : Step} (io : w.IoFree step)
    (clocks : ∀ clock, step = .restart clock → clock.isValid = true) :
    (w.EndsOpen step → (w.after step).Follows dir (Stands dir Bare Bare)) ∧
      (∀ client, step = .save client → (w.after step).Follows dir (Stands dir Ready Ready)) ∧
      (¬w.EndsOpen step → (∀ client, step ≠ .save client) →
        (w.after step).Follows dir (Fresh dir)) := by
  cases step with
  | statement client text =>
    refine ⟨?_, by simp, fun _ _ => follows_statement opens_fresh kept_ready follows io⟩
    rintro ⟨-, clock, h⟩
    simp at h
  | save client =>
    refine ⟨?_, fun _ _ => follows_save opens_fresh follows io, fun _ h => absurd rfl (h client)⟩
    rintro ⟨-, clock, h⟩
    simp at h
  | restart clock =>
    refine ⟨?_, by simp, fun closed _ => ?_⟩
    · rintro ⟨live, -⟩
      have stands := opens_fresh.found _ follows.holds live
      exact follows_restart follows (stands_new stands clock)
    · have untouched : Untouched dir w.engine :=
        follows.holds.resolve_right fun h => closed ⟨h.2, clock, rfl⟩
      exact follows_restart follows
        (.inl ⟨by simp [Engine.new], untouched.file, clocks clock rfl⟩)

/-- **What becomes of the catalog**: nothing can be lost until it is saved for the first time, and
what is in the folder by then stays there. -/
theorem follows_run_of_untouched (follows : w.Follows dir (Untouched dir)) (steps : List Step)
    (clocks : ∀ clock, .restart clock ∈ steps → clock.isValid = true)
    (io : Along IoFree w steps) :
    (w.Lost steps → (w.run steps).Follows dir (Stands dir Bare Bare)) ∧
      (¬w.Lost steps → (∃ client, .save client ∈ steps) →
        (w.run steps).Follows dir (Stands dir Ready Ready)) ∧
      (¬w.Lost steps → (¬∃ client, .save client ∈ steps) →
        (w.run steps).Follows dir (Fresh dir)) := by
  induction steps using List.reverseRecOn with
  | nil =>
    refine ⟨?_, by simp, fun _ _ => follows.mono fun _ h => .inl h⟩
    rintro ⟨before, s, rest, h, -⟩
    simp at h
  | append_singleton steps step ih =>
    obtain ⟨ioBefore, ioStep, -⟩ := along_append.1 io
    obtain ⟨bare, ready, fresh⟩ :=
      ih (fun clock h => clocks clock (List.mem_append_left _ h)) ioBefore
    have clock : ∀ clock, step = .restart clock → clock.isValid = true :=
      fun c h => clocks c (h ▸ List.mem_append_right _ List.mem_cons_self)
    rw [lost_append_singleton, run_append, run_cons, run_nil]
    simp only [List.mem_append, List.mem_singleton, exists_or]
    by_cases lost : w.Lost steps
    · exact ⟨fun _ => follows_stands kept_bare (bare lost) ioStep, fun h => absurd (.inl lost) h,
        fun h => absurd (.inl lost) h⟩
    by_cases saved : ∃ client, .save client ∈ steps
    · refine ⟨?_, fun _ _ => follows_stands kept_ready (ready lost saved) ioStep,
        fun _ h => absurd (.inl saved) h⟩
      rintro (h | ⟨-, unsaved⟩)
      · exact absurd h lost
      · exact absurd saved unsaved
    · obtain ⟨endsOpen, saves, stays⟩ := follows_fresh (fresh lost saved) ioStep clock
      refine ⟨?_, ?_, ?_⟩
      · rintro (h | ⟨ends, -⟩)
        · exact absurd h lost
        · exact endsOpen ends
      · rintro - (h | ⟨client, h⟩)
        · exact absurd h saved
        · exact saves client h.symm
      · intro kept unsaved
        exact stays (fun ends => kept (.inr ⟨ends, saved⟩))
          fun client h => unsaved (.inr ⟨client, h.symm⟩)

/-- Whoever obtains the catalog finds the table of databases in it, with its primary key. -/
def CatalogReady (w : World) : Prop :=
  ∀ client c, w.answer client Session.catalog = .ok c →
    ∃ t, ((w.afterAct client Session.catalog).engine.databaseOf c).tables.get? Catalog.table =
      some t ∧ t.primaryKey = some Catalog.key

omit [PatternCompiler] in
/-- What is known of the catalog that a client obtains. -/
theorem memory_of_answer (opens : Opens dir K P Q) (follows : w.Follows dir K) {client : Nat}
    {c : Handle} (hc : w.answer client Session.catalog = .ok c) :
    Q ((w.afterAct client Session.catalog).engine.databaseOf c) := by
  obtain ⟨c', hok, opened⟩ | ⟨err, herr, -⟩ :=
    (Session.opened_of_catalog opens).cases (follows.tracks client)
  · obtain rfl := Except.ok.inj (hok.symm.trans hc)
    exact opened.holds.1.memory _ opened.holds.2.live
  · exact absurd (herr.symm.trans hc) (by simp)

omit [PatternCompiler] in
theorem catalogReady_of_follows (opens : Opens dir K P Ready) (follows : w.Follows dir K) :
    w.CatalogReady := by
  intro client c hc
  obtain ⟨-, names, lists⟩ := memory_of_answer opens follows hc
  exact ⟨listing names, lists, rfl⟩

omit [PatternCompiler] in
theorem not_catalogReady_of_follows (follows : w.Follows dir (Stands dir Bare Bare)) :
    ¬w.CatalogReady := by
  intro ready
  obtain ⟨c, hc⟩ := Session.exists_answer_of_catalog kept_bare.valid (follows.tracks 0)
  obtain ⟨t, ht, -⟩ := ready 0 c hc
  have bare := memory_of_answer (opens_stands kept_bare.valid) follows hc
  rw [bare.2] at ht
  simp at ht

/-- How a statement about databases fails. -/
theorem error?_of_dispatch {step : Step} {st : Statement} (hst : step.statement? = some st)
    (io : w.IoFree step) (follows : w.Follows dir K) {T : Prop} {F : Error → Prop}
    (hdispatch : Ensures (Session.Tracks dir K w.engine) (Session.dispatch st) (fun _ _ => T)
      (fun err _ => (∀ kind, err ≠ .storage (.io kind)) → F err)) :
    (w.error? step = none ∧ T) ∨ ∃ err, w.error? step = some err ∧ F err := by
  obtain ⟨client, text, rfl, hparse⟩ := Step.exists_of_statement? hst
  obtain ⟨outcome, hok, hT⟩ | ⟨err, herr, hF⟩ :=
    statement_cases hparse hdispatch (follows.tracks client)
  · exact .inl ⟨hok, hT⟩
  · exact .inr ⟨err, herr, hF fun kind hkind => io kind (by rw [herr, hkind])⟩

theorem error?_of_bare (follows : w.Follows dir (Stands dir Bare Bare)) {step : Step}
    {st : Statement} (hst : step.statement? = some st) (needs : Session.NeedsCatalog st)
    (io : w.IoFree step) :
    w.error? step = some (.storage (.tableNotFound table)) := by
  obtain ⟨-, h⟩ | ⟨err, herr, rfl⟩ := error?_of_dispatch hst io follows
    (Session.lacksTable_dispatch (opens_stands kept_bare.valid) needs)
  · exact h.elim
  · exact herr

theorem error?_of_ready (opens : Opens dir K P Ready) (follows : w.Follows dir K) {step : Step}
    {st : Statement} (hst : step.statement? = some st) (needs : Session.NeedsCatalog st)
    (io : w.IoFree step) (name : String) :
    w.error? step ≠ some (.storage (.tableNotFound name)) := by
  obtain ⟨herr, -⟩ | ⟨err, herr, hne⟩ := error?_of_dispatch hst io follows
    (Session.hasTable_dispatch opens needs)
  · simp [herr]
  · rw [herr]
    exact fun h => hne name (Option.some.inj h)

/-- What becomes of the catalog between a folder without one and the end of a run. -/
theorem bare_or_ready_of_run {folder : Folder} {clock : Timestamp} {steps : List Step}
    (new : (Engine.new (some dir) folder clock).file? dir .system Catalog.database = none)
    (clocks : ∀ t, t = clock ∨ .restart t ∈ steps → t.isValid = true)
    (io : Along IoFree (start (Engine.new (some dir) folder clock)) steps) :
    let w := start (Engine.new (some dir) folder clock)
    (w.Lost steps ∧ (w.run steps).Follows dir (Stands dir Bare Bare)) ∨
      ¬w.Lost steps ∧ ∃ K P, Opens dir K P Ready ∧ (w.run steps).Follows dir K := by
  intro w
  have untouched : Untouched dir (Engine.new (some dir) folder clock) :=
    ⟨by simp [Engine.new], new, clocks clock (.inl rfl)⟩
  obtain ⟨bare, ready, fresh⟩ := follows_run_of_untouched (w := w) (start_follows untouched) steps
    (fun t h => clocks t (.inr h)) io
  by_cases lost : w.Lost steps
  · exact .inl ⟨lost, bare lost⟩
  · refine .inr ⟨lost, ?_⟩
    by_cases saved : ∃ client, .save client ∈ steps
    · exact ⟨_, _, opens_stands kept_ready.valid, ready lost saved⟩
    · exact ⟨_, _, opens_fresh, fresh lost saved⟩

/-- **When a catalog has its table**: over a folder that had no catalog at first, unless some
process ended after the catalog had been opened and before anything was saved. Exactly then, too,
the statements about databases fail for lack of the table. -/
theorem catalogReady_iff_not_lost {dir : Route} {folder : Folder} {clock : Timestamp}
    {steps : List Step}
    (new : (Engine.new (some dir) folder clock).file? dir .system Catalog.database = none)
    (clocks : ∀ t, t = clock ∨ .restart t ∈ steps → t.isValid = true)
    (io : Along IoFree (start (Engine.new (some dir) folder clock)) steps) :
    let w := start (Engine.new (some dir) folder clock)
    ((w.run steps).CatalogReady ↔ ¬w.Lost steps) ∧
      ∀ step st, step.statement? = some st → Session.NeedsCatalog st → (w.run steps).IoFree step →
        ((∃ name, (w.run steps).error? step = some (.storage (.tableNotFound name))) ↔
          w.Lost steps) := by
  intro w
  obtain ⟨lost, bare⟩ | ⟨kept, K, P, opens, follows⟩ := bare_or_ready_of_run new clocks io
  · refine ⟨iff_of_false (not_catalogReady_of_follows bare) fun h => h lost, ?_⟩
    intro step st hst needs ioStep
    exact iff_of_true ⟨_, error?_of_bare bare hst needs ioStep⟩ lost
  · refine ⟨iff_of_true (catalogReady_of_follows opens follows) kept, ?_⟩
    intro step st hst needs ioStep
    refine iff_of_false ?_ kept
    rintro ⟨name, hname⟩
    exact error?_of_ready opens follows hst needs ioStep name hname

end

/-- A catalog that was saved has its table in the next process. -/
theorem catalogReady_after_save :
    let w := start (Engine.new (some ["home"]) Folder.empty Timestamp.epoch)
    let steps : List Step := [.statement 0 "CREATE DATABASE a", .save 0, .restart Timestamp.epoch]
    (Engine.new (some ["home"]) Folder.empty Timestamp.epoch).file? ["home"] .system
        Catalog.database = none ∧
      (∀ t, t = Timestamp.epoch ∨ .restart t ∈ steps → t.isValid = true) ∧
      Along IoFree w steps ∧ (w.run steps).IoFree (.statement 1 "SHOW") ∧
      ¬w.Lost steps ∧ (w.run steps).CatalogReady := by
  intro w steps
  have new : (Engine.new (some ["home"]) Folder.empty Timestamp.epoch).file? ["home"] .system
      Catalog.database = none := by
    decide +kernel
  have clocks : ∀ t, t = Timestamp.epoch ∨ .restart t ∈ steps → t.isValid = true := by
    intro t h
    obtain rfl : t = Timestamp.epoch := by simpa [steps] using h
    decide
  have io : Along IoFree w steps := by decide +kernel
  have ioShow : (w.run steps).IoFree (.statement 1 "SHOW") := by decide +kernel
  obtain ⟨ready, errors⟩ := catalogReady_iff_not_lost new clocks io
  have shown : (w.run steps).error? (.statement 1 "SHOW") = none := by decide +kernel
  have kept : ¬w.Lost steps := by
    intro lost
    obtain ⟨name, hname⟩ :=
      (errors (.statement 1 "SHOW") (.show none) (by decide +kernel) (.list none) ioShow).2 lost
    exact absurd (shown.symm.trans hname) (by simp)
  exact ⟨new, clocks, io, ioShow, kept, ready.2 kept⟩

/-- After a process in which nothing was saved, the catalog has no table. -/
theorem not_catalogReady_without_save :
    let w := start (Engine.new (some ["home"]) Folder.empty Timestamp.epoch)
    let steps : List Step := [.statement 0 "SHOW", .restart Timestamp.epoch]
    Along IoFree w steps ∧ ¬(w.run steps).CatalogReady ∧
      (w.run steps).error? (.statement 0 "SHOW") =
        some (.storage (.tableNotFound Catalog.table)) := by
  intro w steps
  refine ⟨by decide +kernel, fun ready => ?_, by decide +kernel⟩
  have opened : (w.run steps).answer 0 Session.catalog =
      .ok { scope := .system, name := Catalog.database, cell := 0 } := by
    decide +kernel
  obtain ⟨t, ht, -⟩ := ready 0 _ opened
  have lacks : (((w.run steps).afterAct 0 Session.catalog).engine.databaseOf
      { scope := .system, name := Catalog.database, cell := 0 }).tables.get? Catalog.table =
        none := by
    rw [← Option.isNone_iff_eq_none]
    decide +kernel
  rw [lacks] at ht
  simp at ht

end World

end Tabular
