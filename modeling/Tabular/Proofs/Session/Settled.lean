import Tabular.Proofs.Catalog.Opening
import Tabular.Proofs.Engine.Settled
import Tabular.Proofs.Session.Catalog

/-!
What a single session leaves to be saved.

While one session is at work, its engine is settled: a database of the users that is not selected
needs no saving (`Session.Settles`). Every statement keeps it so (`settles_dispatch`), and after a
saving nothing needs saving any more (`rests_save`). What is done to the catalog reaches no database
of the users (`Catalog.Alone`).
-/

namespace Tabular

/-! ### Operations on the catalog alone -/

namespace Catalog

variable {e e' : Engine} {c : Handle}

/-- An engine that has changed in the scope of the catalog alone. -/
structure Alone (e e' : Engine) : Prop where
  keeps : Engine.Keeps e e'
  spares : Engine.Spares .data e e'
  leaves : ∀ name, PlainName name → Engine.Leaves .data name e e'

theorem Alone.frame (alone : Alone e e') : Engine.Frame (fun _ => False) e e' :=
  alone.spares.frame alone.keeps.evolves.clock alone.leaves

theorem IsHandle.valid (handle : IsHandle e c) (ordered : e.Ordered) : e.Valid c := by
  have hvalid := ordered.valid handle.live
  obtain ⟨scope, name, cell⟩ := c
  obtain rfl : scope = .system := handle.scope
  obtain rfl : name = database := handle.name
  exact hvalid

theorem alone_open (ordered : e.Ordered) : Alone e (exec Catalog.open e).2 where
  keeps := by
    have hens := ensures_open e e (.refl e)
    rcases hopen : exec Catalog.open e with ⟨err | c, e'⟩ <;> rw [hopen] at hens
    · exact hens
    · exact hens.1
  spares := by
    have hopening := opening e
    rcases hopen : exec Catalog.open e with ⟨r, e'⟩
    rw [hopen] at hopening
    cases hopening with
    | inMemory hlive => exact .refl .data _
    | unreadable hlive hstored => exact .refl .data _
    | inFolder hlive hstored => exact Engine.spares_registered ordered (by simp) database _
    | created hlive hstored isNew flushed hr =>
      exact (Engine.spares_folder .data e _).trans (Engine.spares_registered
        ((Engine.evolves_folder e _).ordered ordered) (by simp) database _)
  leaves := fun _ plain => Session.leaves_openCatalog plain e

theorem alone_edit {α : Type} (ordered : e.Ordered) (handle : IsHandle e c)
    (f : Database → Except StorageError (α × Database)) : Alone e (exec (Engine.edit c f) e).2 where
  keeps := Engine.keeps_edit c f e
  spares := Engine.spares_edit (handle.valid ordered) (by simp [handle.scope]) f
  leaves := fun _ _ => Engine.leaves_edit c f e

theorem alone_query {α : Type} (c : Handle) (f : Database → Except StorageError α) (e : Engine) :
    Alone e (exec (Engine.query c f) e).2 := by
  rw [Engine.exec_query]
  exact ⟨.refl e, .refl .data e, fun name _ => .refl .data name e⟩

theorem alone_save (handle : IsHandle e c) : Alone e (exec (Engine.save c) e).2 where
  keeps := Engine.keeps_save c e
  spares := Engine.spares_save .data c e
  leaves := fun _ plain => Engine.leaves_save (handle.name ▸ Session.plainName_catalog) plain
    (by simp [handle.scope]) e

end Catalog

namespace Session

variable {dir : Route} {e : Engine} {m : String} {α : Type}

/-! ### Settled sessions -/

/-- What a session sees while it is the only one at work. -/
structure Settles (dir : Route) (e : Engine) (p : Interpreter × Session) : Prop where
  sees : Sees e p
  dataDir : p.1.engine.dataDir = some dir
  settled : p.1.engine.Settled p.2.active

theorem Settles.engine {p : Interpreter × Session} (settles : Settles dir e p) {e' : Engine}
    (keeps : Engine.Keeps p.1.engine e') (settled : e'.Settled p.2.active) :
    Settles dir e ({ p.1 with engine := e' }, p.2) where
  sees := settles.sees.engine keeps
  dataDir := keeps.evolves.dataDir.trans settles.dataDir
  settled := settled

/-- The engine with which a session started does not matter from then on. -/
theorem Settles.rebase {p : Interpreter × Session} (settles : Settles dir e p) :
    Settles dir p.1.engine p :=
  ⟨⟨settles.sees.interpreter, settles.sees.session, .refl _⟩, settles.dataDir, settles.settled⟩

theorem Settles.alone {p : Interpreter × Session} (settles : Settles dir e p) {e' : Engine}
    (alone : Catalog.Alone p.1.engine e') : Settles dir e ({ p.1 with engine := e' }, p.2) :=
  settles.engine alone.keeps (settles.settled.spared alone.frame)

/-- An operation of the engine inside a session. It is enough to know what it does where the file
system does not fail. -/
theorem settles_storage {R : Interpreter × Session → Prop} (hR : ∀ p, R p → Settles dir e p)
    {act : EngineM α} (keeps : ∀ p, R p → Engine.Keeps p.1.engine (exec act p.1.engine).2)
    (settled : ∀ p r e', R p → exec act p.1.engine = (r, e') → Engine.Undisturbed r →
      e'.Settled p.2.active) :
    Ensures R (storage act) (fun _ => Settles dir e) (UnlessIo (Settles dir e)) := by
  refine ensures_storage (fun p a e' hp hact => ?_) fun p err e' hp hact hio => ?_ <;>
    have hkeeps := keeps p hp <;> rw [hact] at hkeeps
  · exact (hR p hp).engine hkeeps (settled p _ e' hp hact (by simp [Engine.Undisturbed]))
  · refine (hR p hp).engine hkeeps (settled p _ e' hp hact fun kind hkind => ?_)
    exact hio kind (by rw [Except.error.inj hkind])

/-- An operation on the catalog alone. -/
theorem settles_alone {R : Interpreter × Session → Prop} (hR : ∀ p, R p → Settles dir e p)
    {act : EngineM α} (alone : ∀ p, R p → Catalog.Alone p.1.engine (exec act p.1.engine).2) :
    Ensures R (storage act) (fun _ => Settles dir e) (UnlessIo (Settles dir e)) :=
  settles_storage hR (fun p hp => (alone p hp).keeps) fun p r e' hp hact _ => by
    have halone := alone p hp
    rw [hact] at halone
    exact (hR p hp).settled.spared halone.frame

/-- **Obtaining the catalog** keeps whatever survives operations on the catalog alone. -/
theorem ensures_catalog_alone {I : Interpreter × Session → Prop} (sees : ∀ p, I p → Sees e p)
    (alone : ∀ p e', I p → Catalog.Alone p.1.engine e' → I ({ p.1 with engine := e' }, p.2))
    (opened : ∀ p c, I p → Catalog.IsHandle p.1.engine c →
      I ({ p.1 with catalog := some c }, p.2)) :
    Ensures I catalog (fun c p => I p ∧ p.1.catalog = some c) (fun _ => I) := by
  refine ensures_catalog (fun p c hp hc => ⟨hp, hc⟩) (fun p c e' hp hc hopen => ?_)
    fun p err e' hp hc hopen => ?_ <;>
    have halone := Catalog.alone_open (sees p hp).interpreter.ordered <;>
    have hens := Catalog.ensures_open p.1.engine p.1.engine (.refl _) <;>
    rw [hopen] at halone hens
  · exact ⟨opened _ c (alone p e' hp halone) hens.2, rfl⟩
  · exact hc ▸ alone p e' hp halone

/-- The catalog of an interpreter may be opened. -/
theorem Sees.opened {p : Interpreter × Session} (sees : Sees e p) {c : Handle}
    (handle : Catalog.IsHandle p.1.engine c) : Sees e ({ p.1 with catalog := some c }, p.2) where
  interpreter :=
    { ordered := sees.interpreter.ordered
      catalog := fun _ hh => Option.some.inj hh ▸ handle }
  session := sees.session
  keeps := sees.keeps

theorem settles_catalog : Ensures (Settles dir e) catalog
    (fun c p => Settles dir e p ∧ p.1.catalog = some c) (UnlessIo (Settles dir e)) :=
  (ensures_catalog_alone (fun _ hp => hp.sees) (fun _ _ hp => hp.alone) fun _ _ hp handle =>
    ⟨hp.sees.opened handle, hp.dataDir, hp.settled⟩).mono_error fun _ _ h _ => h

/-- An operation that obtains the catalog and goes on with it. -/
theorem settles_catalog_bind {f : Handle → SessionM α} {Q : α → Interpreter × Session → Prop}
    (hf : ∀ c, Ensures (fun p => Settles dir e p ∧ Catalog.IsHandle p.1.engine c) (f c) Q
      (UnlessIo (Settles dir e))) :
    Ensures (Settles dir e) (catalog >>= f) Q (UnlessIo (Settles dir e)) :=
  settles_catalog.bind fun c => (hf c).mono_pre fun _ h =>
    ⟨h.1, h.1.sees.interpreter.catalog c h.2⟩

/-! ### The selected database -/

/-- The snapshot of the selected database is that of the database in memory. -/
def Written (dir : Route) (p : Interpreter × Session) : Prop :=
  ∀ h, p.2.active = some h → p.1.engine.folder.stat (Engine.snapshotIn dir h.scope h.name) =
    .ok (.file (p.1.engine.databaseOf h).snapshot)

/-- What a session sees after the selected database has been saved: no database of the users needs
saving any more. -/
structure Rests (dir : Route) (e : Engine) (p : Interpreter × Session) : Prop where
  settles : Settles dir e p
  settled : p.1.engine.Settled none
  written : Written dir p

theorem Rests.alone {p : Interpreter × Session} (rests : Rests dir e p) {e' : Engine}
    (alone : Catalog.Alone p.1.engine e') : Rests dir e ({ p.1 with engine := e' }, p.2) where
  settles := rests.settles.alone alone
  settled := rests.settled.spared alone.frame
  written := by
    intro h hactive
    have hlive := rests.settles.settled.current h hactive
    have hscope := (rests.settles.sees.session h hactive).2
    have hstat := rests.written h hactive
    rw [hscope] at hstat ⊢
    have hdb : e'.databaseOf h = p.1.engine.databaseOf h := alone.spares.state h.name h.cell hlive
    have plain := (rests.settled.database h.name h.cell hlive).1
    change e'.folder.stat _ = .ok (.file (e'.databaseOf h).snapshot)
    rw [hdb]
    exact (alone.leaves h.name plain).stat rests.settles.dataDir hstat

theorem rests_saveActive : Ensures (Settles dir e) saveActive (fun _ => Rests dir e)
    (UnlessIo (Settles dir e)) := by
  refine ensures_saveActive (fun p hp hactive => ?_) fun h => (ensures_save ?_).mono_error ?_
  · exact ⟨hp, hactive ▸ hp.settled, fun h hh => by rw [hactive] at hh; exact nomatch hh⟩
  · rintro p e' ⟨hp, hactive⟩ hsave
    have hscope := (hp.sees.session h hactive).2
    have hkeeps := Engine.keeps_save h p.1.engine
    have hstat := Engine.stat_of_save hp.dataDir rfl rfl hsave
    have settled : p.1.engine.Settled (some h) := hactive ▸ hp.settled
    have hsaved := settled.save hp.dataDir hscope hsave
    obtain ⟨folder, hfolder⟩ := Engine.exec_save_snd h p.1.engine
    rw [hsave] at hkeeps hfolder
    obtain rfl : e' = { p.1.engine with folder } := hfolder
    refine ⟨hp.engine hkeeps ?_, hsaved, fun h' hh => ?_⟩
    · rw [hactive]
      exact hsaved.select (settled.current h rfl)
    · obtain rfl : h = h' := Option.some.inj (hactive.symm.trans hh)
      exact hstat
  · rintro err _ ⟨kind, rfl⟩ hio
    exact absurd rfl (hio kind)

theorem rests_catalog : Ensures (Rests dir e) catalog
    (fun c p => Rests dir e p ∧ p.1.catalog = some c) (UnlessIo (Settles dir e)) :=
  (ensures_catalog_alone (fun _ hp => hp.settles.sees) (fun _ _ hp => hp.alone)
    fun _ _ hp handle => ⟨⟨hp.settles.sees.opened handle, hp.settles.dataDir, hp.settles.settled⟩,
      hp.settled, hp.written⟩).mono_error fun _ _ h _ => h.settles

/-- The catalog is open, and its snapshot is that of the database in memory. -/
def CatalogWritten (dir : Route) (i : Interpreter) : Prop :=
  ∃ c, i.catalog = some c ∧ i.engine.folder.stat (Engine.snapshotIn dir .system Catalog.database) =
    .ok (.file (i.engine.databaseOf c).snapshot)

/-- **Saving puts all that is in memory into the folder**: the selected database and the catalog are
written, and the other databases of the users need not be. -/
theorem rests_save : Ensures (Settles dir e) save
    (fun _ p => Rests dir e p ∧ CatalogWritten dir p.1) (UnlessIo (Settles dir e)) := by
  unfold save
  refine rests_saveActive.bind fun _ => rests_catalog.bind fun c =>
    (ensures_save ?_).mono_error ?_
  · rintro p e' ⟨hp, hc⟩ hsave
    have handle := hp.settles.sees.interpreter.catalog c hc
    have halone := Catalog.alone_save handle
    have hstat := Engine.stat_of_save hp.settles.dataDir handle.scope handle.name hsave
    obtain ⟨folder, hfolder⟩ := Engine.exec_save_snd c p.1.engine
    rw [hsave] at halone hfolder
    obtain rfl : e' = { p.1.engine with folder } := hfolder
    exact ⟨hp.alone halone, c, hc, hstat⟩
  · rintro err _ ⟨kind, rfl⟩ hio
    exact absurd rfl (hio kind)

theorem settles_save :
    Ensures (Settles dir e) save (fun _ => Settles dir e) (UnlessIo (Settles dir e)) :=
  rests_save.mono (fun _ h => h) (fun _ _ h => h.1.settles) fun _ _ h => h

/-! ### Statements -/

theorem settles_select (plain : PlainName m) :
    Ensures (Settles dir e) (select m) (fun _ => Settles dir e) (UnlessIo (Settles dir e)) := by
  have keeps : ∀ p, Rests dir e p →
      Engine.Keeps p.1.engine (exec (Engine.load .data m) p.1.engine).2 := fun p hp =>
    (Engine.spares_load hp.settles.sees.interpreter.ordered (by simp) m).keeps
      (Engine.evolves_load .data m p.1.engine)
  unfold select
  refine rests_saveActive.bind fun _ => Ensures.bind (R := fun h? p => Settles dir e p ∧
    p.1.engine.Settled none ∧
      ∀ h, h? = some h → h.scope = .data ∧ p.1.engine.live.get? .data h.name = some h.cell) ?_ ?_
  · refine ensures_storage (fun p h? e' hp hopen => ?_) fun p err e' hp hopen _ => ?_
    all_goals
      have ordered := hp.settles.sees.interpreter.ordered
      have hkeeps := keeps p hp
      have hload := Engine.exec_open_snd .data m p.1.engine
      have hsettled := hp.settles.settled.load ordered plain
      have hnone := hp.settled.load ordered plain
      rw [hopen] at hload
      rw [← hload] at hkeeps hsettled hnone
    · refine ⟨hp.settles.engine hkeeps hsettled, hnone, ?_⟩
      rintro h rfl
      obtain ⟨hscope, rfl, hlive⟩ := Engine.live_of_open hopen
      exact ⟨hscope, hlive⟩
    · exact hp.settles.engine hkeeps hsettled
  · rintro (_ | h)
    · exact Ensures.throw fun _ hp _ => hp.1
    · refine Ensures.bind (R := fun _ => Settles dir e) (Ensures.modify ?_) fun _ =>
        Ensures.pure fun _ hp => hp
      rintro p ⟨hp, hnone, hopened⟩
      obtain ⟨hscope, hlive⟩ := hopened h rfl
      refine ⟨⟨hp.sees.interpreter, fun h' hactive => ?_, hp.sees.keeps⟩, hp.dataDir,
        hnone.select hlive⟩
      obtain rfl : h = h' := Option.some.inj hactive
      have hvalid := hp.sees.interpreter.ordered.valid hlive
      rw [← hscope] at hvalid
      exact ⟨hvalid, hscope⟩

theorem settles_createDatabase (plain : PlainName m) :
    Ensures (Settles dir e) (createDatabase m) (fun _ => Settles dir e)
      (UnlessIo (Settles dir e)) := by
  unfold createDatabase
  refine settles_catalog_bind fun c => Ensures.bind (R := fun _ => Settles dir e)
    (settles_alone (fun _ hp => hp.1) fun p hp =>
      Catalog.alone_edit hp.1.sees.interpreter.ordered hp.2 _) fun _ => ?_
  refine settles_storage (fun _ hp => hp) (fun p hp => ?_) fun p r e' hp hact hr => ?_
  · exact (Engine.spares_createDatabase hp.sees.interpreter.ordered (by simp) m).keeps
      (Engine.evolves_createDatabase .data m p.1.engine)
  · exact hp.settled.createDatabase hp.sees.interpreter.ordered plain hp.dataDir hact hr

/-- A database that is not the selected one is not taken from the selection. -/
theorem filter_of_not_selected {active : Option Handle}
    (hne : ∀ h, active = some h → h.name ≠ m) : active.filter (·.name ≠ m) = active := by
  cases active with
  | none => rfl
  | some h => exact Option.filter_some_pos (decide_eq_true (hne h rfl))

/-- Where the engine has dropped a database, the rest is settled without the handle to it. -/
theorem settled_of_drop (plain : PlainName m) :
    Ensures (Settles dir e) (storage (Engine.dropDatabase .data m))
      (fun _ p => Sees e p ∧ p.1.engine.dataDir = some dir ∧
        p.1.engine.Settled (p.2.active.filter (·.name ≠ m)))
      (UnlessIo (Settles dir e)) := by
  refine ensures_storage (fun p a e' hp hact => ?_) fun p err e' hp hact hio => ?_
  all_goals
    have hkeeps := (Engine.spares_dropDatabase (by simp) m p.1.engine).keeps
      (Engine.evolves_dropDatabase .data m p.1.engine)
    have hsettled := hp.settled.dropDatabase plain
    rw [hact] at hkeeps hsettled
  · exact ⟨hp.sees.engine hkeeps, hkeeps.evolves.dataDir.trans hp.dataDir, hsettled⟩
  · refine hp.engine hkeeps ?_
    obtain ⟨-, -, hok⟩ | ⟨folder, -, -, hok⟩ := Engine.exec_dropDatabase_cases hp.dataDir hact
      fun kind hkind => hio kind (by rw [Except.error.inj hkind])
    · have hlive : p.1.engine.live.get? .data m = none := by
        simpa [Except.isOk, Except.toBool] using hok
      have hne : ∀ h, p.2.active = some h → h.name ≠ m := by
        rintro h hactive rfl
        exact Option.some_ne_none _ ((hp.settled.current h hactive).symm.trans hlive)
      rwa [filter_of_not_selected hne] at hsettled
    · simp [Except.isOk, Except.toBool] at hok

variable [PatternCompiler]

theorem settles_dropDatabase (plain : PlainName m) :
    Ensures (Settles dir e) (dropDatabase m) (fun _ => Settles dir e)
      (UnlessIo (Settles dir e)) := by
  unfold dropDatabase
  refine settles_catalog_bind fun c => Ensures.bind (R := fun _ => Settles dir e)
    (settles_alone (fun _ hp => hp.1) fun p hp =>
      Catalog.alone_edit hp.1.sees.interpreter.ordered hp.2 _) fun _ =>
    (settled_of_drop plain).bind fun outcome => Ensures.get_bind fun p hp => ?_
  obtain ⟨hsees, hdir, hsettled⟩ := hp
  by_cases hactive : p.2.activeName = some m
  · rw [if_pos hactive]
    refine Ensures.bind (R := fun _ => Settles dir e) (Ensures.modify ?_) fun _ =>
      Ensures.pure fun _ h => h
    rintro q rfl
    refine ⟨⟨hsees.interpreter, by simp [Session.Sound], hsees.keeps⟩, hdir, ?_⟩
    obtain ⟨h, hh, rfl⟩ := Option.map_eq_some_iff.1 hactive
    rw [hh, Option.filter_some_neg (by simp)] at hsettled
    exact hsettled
  · rw [if_neg hactive]
    refine Ensures.pure ?_
    rintro q rfl
    refine ⟨hsees, hdir, ?_⟩
    have hne : ∀ h, q.2.active = some h → h.name ≠ m := by
      rintro h hh rfl
      exact hactive (by simp [activeName, hh])
    rwa [filter_of_not_selected hne] at hsettled

theorem settles_listDatabases (pattern : Option String) :
    Ensures (Settles dir e) (listDatabases pattern) (fun _ => Settles dir e)
      (UnlessIo (Settles dir e)) := by
  unfold listDatabases
  exact settles_catalog_bind fun c => settles_alone (fun _ hp => hp.1) fun p _ =>
    Catalog.alone_query c _ p.1.engine

omit [PatternCompiler] in
/-- Describing a database does no more than to load one. -/
theorem settles_describeDatabase (active : Option Handle) (plain : PlainName m) :
    Ensures (Settles dir e) (storage (Engine.describeDatabase active m)) (fun _ => Settles dir e)
      (UnlessIo (Settles dir e)) := by
  refine settles_storage (fun _ hp => hp) (fun p hp => ?_) fun p r e' hp hact _ => ?_
  · exact (Engine.spares_describeDatabase hp.sees.interpreter.ordered active m).keeps
      (Engine.evolves_describeDatabase active m p.1.engine)
  · have hload := hp.settled.load hp.sees.interpreter.ordered plain
    rcases Engine.exec_describeDatabase_snd active m p.1.engine with hsame | hsame <;>
      rw [hact] at hsame <;> rw [show e' = _ from hsame]
    · exact hp.settled
    · exact hload

omit [PatternCompiler] in
theorem settles_edit {h : Handle} {f : Database → Except StorageError (α × Database)}
    (keeps : Database.KeepsCreation f) :
    Ensures (fun p => Settles dir e p ∧ p.2.active = some h) (storage (Engine.edit h f))
      (fun _ => Settles dir e) (UnlessIo (Settles dir e)) := by
  refine settles_storage (fun _ hp => hp.1) (fun p _ => Engine.keeps_edit h f p.1.engine) ?_
  rintro p r e' ⟨hp, hactive⟩ hact -
  rw [Engine.exec_edit] at hact
  rcases hdb : f (p.1.engine.databaseOf h) with err | ⟨a, db⟩ <;> rw [hdb] at hact <;>
    obtain ⟨-, rfl⟩ := Prod.mk.inj hact
  · exact hp.settled
  · have settled : p.1.engine.Settled (some h) := hactive ▸ hp.settled
    rw [hactive]
    exact settled.edit hp.sees.interpreter.ordered (keeps _ a db hdb)

/-- **A statement keeps a session settled.** -/
theorem settles_dispatch {st : Statement} (noSlash : st.NoSlash) :
    Ensures (Settles dir e) (dispatch st) (fun _ => Settles dir e) (UnlessIo (Settles dir e)) := by
  intro p hp
  obtain ⟨act, performs, hexec⟩ := exists_performs st p
  rw [hexec]
  cases performs with
  | select m => exact settles_select (noSlash m (.init m)) p hp
  | create m => exact settles_createDatabase (noSlash m (.create m none)) p hp
  | drop m => exact settles_dropDatabase (noSlash m (.drop m)) p hp
  | list pattern => exact settles_listDatabases pattern p hp
  | describe m => exact settles_describeDatabase p.2.active (noSlash m (.describe m)) p hp
  | query active f =>
    exact settles_alone (fun _ h => h) (fun q _ => Catalog.alone_query _ f q.1.engine) p hp
  | edit active f keeps => exact settles_edit keeps p ⟨hp, active⟩
  | refuse err => exact fun _ => hp

end Session

end Tabular
