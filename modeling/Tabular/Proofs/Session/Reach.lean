import Tabular.Proofs.Engine.Reach
import Tabular.Proofs.Session.TwoRuns

/-!
How far requests reach into the folder.

Of all that a client sends, only names of databases become part of a path, and a statement names
databases by runs of word characters and hyphens. The names are kept in the handles of the selected
databases, and the snapshots of these are what statements and savings work on. So requests look at
the entries on the way to a snapshot alone, and change no others.

Main statement: in every process, whatever has been asked of it, each request does the same over
every other folder that agrees with its own on the way to the snapshots, and in both folders changes
nothing but snapshots and the directories that are made for them (`World.within_of_calls`). The
paths of the snapshots have one form, and different databases have different ones.
-/

namespace Tabular

namespace Session

/-- What two clients see that differs in the folders alone, and there not on the way to a snapshot.
The handles are of databases that have snapshots. -/
structure Twins (dataDir : Option Route) (f₀ : Folder) (p q : Interpreter × Session) : Prop where
  engine : Engine.Twins dataDir f₀ p.1.engine q.1.engine
  catalog : q.1.catalog = p.1.catalog
  session : q.2 = p.2
  kept : ∀ h, p.1.catalog = some h → HasSnapshot h.scope h.name
  selected : ∀ h, p.2.active = some h → HasSnapshot h.scope h.name

variable {dataDir : Option Route} {f₀ : Folder} {p q : Interpreter × Session} {α : Type}

/-- Engines that are twins again make what the clients see so. -/
theorem Twins.withEngine (twins : Twins dataDir f₀ p q) {e e' : Engine}
    (engine : Engine.Twins dataDir f₀ e e') :
    Twins dataDir f₀ ({ p.1 with engine := e }, p.2) ({ q.1 with engine := e' }, q.2) :=
  { twins with engine }

/-- So does another selection. -/
theorem Twins.withActive (twins : Twins dataDir f₀ p q) (active : Option Handle)
    (selected : ∀ h, active = some h → HasSnapshot h.scope h.name) :
    Twins dataDir f₀ (p.1, { active }) (q.1, { active }) :=
  { twins with session := rfl, selected }

theorem Twins.placed (twins : Twins dataDir f₀ p q) {h h' : Handle} (placed : Placed p q h h') :
    h = h' := by
  cases placed with
  | selected left right =>
    rw [twins.session, left] at right
    exact Option.some.inj right
  | catalog left right =>
    rw [twins.catalog, left] at right
    exact Option.some.inj right

/-! ### Operations -/

/-- Operations of the engine that keep twins keep them inside of sessions. -/
theorem relates_twins {act : EngineM α} {Q : α → α → Prop}
    (h : Relates (Engine.Twins dataDir f₀) act act
      (fun a b e e' => Q a b ∧ Engine.Twins dataDir f₀ e e') (Engine.Twins dataDir f₀)) :
    Relates (Twins dataDir f₀) (storage act) (storage act)
      (fun a b p q => Q a b ∧ Twins dataDir f₀ p q) (Twins dataDir f₀) := by
  refine relates_storage fun p q twins => h.mono ?_ ?_ ?_
  · rintro _ _ ⟨rfl, rfl⟩
    exact twins.engine
  · exact fun _ _ _ _ ⟨hQ, engines⟩ => ⟨hQ, twins.withEngine engines⟩
  · exact fun _ _ engines => twins.withEngine engines

theorem relates_open_twins {n : String} (named : DatabaseName n) :
    Relates (Twins dataDir f₀) (storage (Engine.open .data n)) (storage (Engine.open .data n))
      (fun h? h'? p q => (h? = h'? ∧ ∀ h, h? = some h → HasSnapshot h.scope h.name) ∧
        Twins dataDir f₀ p q) (Twins dataDir f₀) :=
  relates_twins ((Engine.relates_open (.user named)).mono_post fun _ _ _ _ h => and_assoc.2 h)

theorem relates_openCatalog_twins :
    Relates (Twins dataDir f₀) (storage Catalog.open) (storage Catalog.open)
      (fun h h' p q => (h = h' ∧ HasSnapshot h.scope h.name) ∧ Twins dataDir f₀ p q)
      (Twins dataDir f₀) :=
  relates_twins (Engine.relates_openCatalog.mono_post fun _ _ _ _ h => and_assoc.2 h)

theorem relates_save_twins {h : Handle} (has : HasSnapshot h.scope h.name) :
    Relates (Twins dataDir f₀) (storage (Engine.save h)) (storage (Engine.save h))
      (fun _ _ => Twins dataDir f₀) (Twins dataDir f₀) :=
  (relates_twins (Q := fun _ _ => True) ((Engine.relates_save has).mono_post
    fun _ _ _ _ twins => ⟨trivial, twins⟩)).mono_post fun _ _ _ _ h => h.2

theorem relates_saveActive_twins :
    Relates (Twins dataDir f₀) saveActive saveActive (fun _ _ => Twins dataDir f₀)
      (Twins dataDir f₀) := by
  unfold saveActive
  refine Relates.get_bind fun p q twins => ?_
  rw [twins.session]
  cases hactive : p.2.active with
  | none =>
    refine Relates.pure ?_
    rintro _ _ ⟨rfl, rfl⟩
    exact twins
  | some h =>
    refine (relates_save_twins (twins.selected h hactive)).mono_pre ?_
    rintro _ _ ⟨rfl, rfl⟩
    exact twins

theorem relates_catalog_twins :
    Relates (Twins dataDir f₀) catalog catalog
      (fun h h' p q => Twins dataDir f₀ p q ∧ Placed p q h h' ∧ HasSnapshot h.scope h.name)
      (Twins dataDir f₀) := by
  unfold catalog
  refine Relates.get_bind fun p q twins => ?_
  rw [twins.catalog]
  cases hcatalog : p.1.catalog with
  | some h =>
    refine Relates.pure ?_
    rintro _ _ ⟨rfl, rfl⟩
    exact ⟨twins, .catalog hcatalog (twins.catalog.trans hcatalog), twins.kept h hcatalog⟩
  | none =>
    refine Relates.bind (relates_openCatalog_twins.mono_pre ?_) fun h h' =>
      Relates.bind (M := fun _ _ p q => Twins dataDir f₀ p q ∧ Placed p q h h' ∧
        HasSnapshot h.scope h.name) (Relates.modify ?_) fun _ _ => Relates.pure fun _ _ h => h
    · rintro _ _ ⟨rfl, rfl⟩
      exact twins
    · rintro p q ⟨⟨rfl, has⟩, twins⟩
      refine ⟨{ twins with catalog := rfl, kept := fun h' hh' => ?_ }, .catalog rfl rfl, has⟩
      obtain rfl := Option.some.inj hh'
      exact has

/-- **Every statement keeps twins**, and has the same outcome in both. -/
theorem simulation_twins (dataDir : Option Route) (f₀ : Folder) :
    Simulation (Twins dataDir f₀) Eq where
  refl := fun _ => rfl
  activeName := fun _ _ twins => by rw [twins.session]
  deselect := fun _ _ twins => twins.withActive none fun _ h => nomatch h
  catalog := relates_catalog_twins.mono_post fun _ _ _ _ h => ⟨h.1, h.2.1⟩
  query := by
    rintro h h' f - p q ⟨twins, placed⟩
    obtain rfl := twins.placed placed
    exact relates_twins (Engine.relates_query h f) p q twins
  edit := by
    rintro h h' f - p q ⟨twins, placed⟩
    obtain rfl := twins.placed placed
    exact relates_twins (Engine.relates_edit h f) p q twins
  saveActive := relates_saveActive_twins
  «open» := by
    intro n named
    refine (relates_open_twins named).mono_post ?_
    rintro h? _ p q ⟨⟨rfl, has⟩, twins⟩
    refine ⟨twins, ?_⟩
    cases h? with
    | none => exact .none
    | some h => exact .some (twins.withActive (some h) has)
  describe := by
    rintro n named p q twins p' q' ⟨rfl, rfl⟩
    rw [twins.session]
    exact relates_twins (Engine.relates_describeDatabase _ named) p' q' twins
  create := fun _ named => relates_twins (Engine.relates_createDatabase (.user named))
  drop := fun _ named => relates_twins (Engine.relates_dropDatabase (.user named))

/-- So does the saving after a batch. -/
theorem Twins.save (twins : Twins dataDir f₀ p q) :
    Twins dataDir f₀ (exec Session.save p).2 (exec Session.save q).2 := by
  have saved : Relates (Twins dataDir f₀) Session.save Session.save (fun _ _ => Twins dataDir f₀)
      (Twins dataDir f₀) := by
    unfold Session.save
    refine relates_saveActive_twins.bind fun _ _ => relates_catalog_twins.bind fun h h' => ?_
    rintro p q ⟨twins, placed, has⟩
    obtain rfl := twins.placed placed
    exact relates_save_twins has p q twins
  exact saved.snd twins

end Session

/-! ### Worlds -/

namespace World

/-- How far a call reaches: what it writes and removes is at paths of `F`, and directories are made
at paths of `D`; what it reads is at paths of `A`. -/
structure Within [PatternCompiler] (F D A : Path → Prop) (w : World) (call : Call) : Prop where
  changes : Folder.Changes F D w.engine.folder (w.serve call).engine.folder
  /-- Over any other folder in which the same stands at the paths of `A`, the call has the same
  response and the same effect, and reaches no further: whatever else stands there stays. -/
  reads : ∀ folder, Folder.AgreeOn A w.engine.folder folder →
    ∃ folder', (w.withFolder folder).respond call = w.respond call ∧
      (w.withFolder folder).serve call = (w.serve call).withFolder folder' ∧
      Folder.AgreeOn A (w.serve call).engine.folder folder' ∧ Folder.Changes F D folder folder'

/-- Worlds that differ in their folders alone, and there not on the way to a snapshot. All handles
are of databases that have snapshots. -/
structure Twins (dataDir : Option Route) (f₀ : Folder) (w w' : World) : Prop where
  view : ∀ i, Session.Twins dataDir f₀ (w.view i) (w'.view i)

variable {dataDir : Option Route} {f₀ : Folder} {w w' : World}

theorem twins_start (e : Engine) : (start e).Twins e.dataDir e.folder (start e) where
  view _ :=
    { engine := .intro rfl (.refl _ _) (.refl _ _ _)
      catalog := rfl
      session := rfl
      kept := fun _ h => nomatch h
      selected := fun _ h => nomatch h }

namespace Twins

theorem engine (twins : w.Twins dataDir f₀ w') : Engine.Twins dataDir f₀ w.engine w'.engine :=
  (twins.view 0).engine

theorem session (twins : w.Twins dataDir f₀ w') (i : Nat) : w'.session i = w.session i :=
  (twins.view i).session

theorem eq_withFolder (twins : w.Twins dataDir f₀ w') : w' = w.withFolder w'.engine.folder := by
  have hsession : w'.session = w.session := funext twins.session
  have hengine : w'.interpreter.engine = _ := twins.engine.eq
  have hcatalog : w'.interpreter.catalog = w.interpreter.catalog := (twins.view 0).catalog
  obtain ⟨⟨e', c'⟩, s'⟩ := w'
  dsimp only at hsession hengine hcatalog
  rw [hsession, hcatalog, hengine]
  rfl

/-- A world with the folder of another one that agrees with its own makes twins with it. -/
theorem withFolder (twins : w.Twins dataDir f₀ w) {folder : Folder}
    (agree : Folder.AgreeOn (Engine.SnapshotWay dataDir) w.engine.folder folder) :
    w.Twins dataDir w.engine.folder (w.withFolder folder) where
  view i :=
    { twins.view i with
      engine := .intro twins.engine.dir agree (.refl _ _ _)
      catalog := rfl
      session := rfl }

/-- The second one of two twins, with its own folder to start from, is its own twin. -/
theorem right (twins : w.Twins dataDir f₀ w') : w'.Twins dataDir w'.engine.folder w' where
  view i :=
    { engine := by
        have hdir : w'.engine.dataDir = dataDir := by
          rw [twins.engine.eq]
          exact twins.engine.dir
        exact .intro hdir (.refl _ _) (.refl _ _ _)
      catalog := rfl
      session := rfl
      kept := fun h hh => (twins.view i).kept h ((twins.view i).catalog.symm.trans hh)
      selected := by
        rw [(twins.view i).session]
        exact (twins.view i).selected }

/-- What one client sees makes two worlds twins again. -/
theorem withView (twins : w.Twins dataDir f₀ w') (client : Nat) {p q : Interpreter × Session}
    (see : Session.Twins dataDir f₀ p q) :
    (w.withView client p).Twins dataDir f₀ (w'.withView client q) where
  view i := by
    refine { engine := see.engine, catalog := see.catalog, kept := see.kept, session := ?_,
             selected := ?_ }
    · change (w'.withView client q).session i = (w.withView client p).session i
      rw [session_withView, session_withView, see.session, twins.session i]
    · change ∀ h, ((w.withView client p).session i).active = some h → _
      rw [session_withView]
      split
      · exact see.selected
      · exact (twins.view i).selected

variable [PatternCompiler]

/-- **A call** has the same response in twins and leaves twins. -/
theorem serve (twins : w.Twins dataDir f₀ w') (call : Call) :
    w'.respond call = w.respond call ∧ (w.serve call).Twins dataDir f₀ (w'.serve call) := by
  cases call with
  | restart clock =>
    refine ⟨rfl, ⟨fun i => ?_⟩⟩
    rw [twins.eq_withFolder]
    exact
      { engine := .intro (e := Engine.new w.engine.dataDir w.engine.folder clock) twins.engine.dir
          twins.engine.agree twins.engine.changes
        catalog := rfl
        session := rfl
        kept := fun _ h => nomatch h
        selected := fun _ h => nomatch h }
  | request client headers body =>
    obtain ⟨hresponse, see⟩ := (Session.simulation_twins dataDir f₀).runStatements (batch body)
      .nil (twins.view client)
    refine ⟨congrArg some ?_, twins.withView client ?_⟩
    · rw [exec_handleRequest_fst, exec_handleRequest_fst]
      exact hresponse.eq.symm
    · rw [exec_handleRequest_snd, exec_handleRequest_snd]
      dsimp only
      rw [← hresponse.isOk_eq]
      split
      · exact see.save
      · exact see

/-- So does a sequence of calls. -/
theorem calls (twins : w.Twins dataDir f₀ w') (calls : List Call) :
    (calls.foldl World.serve w).Twins dataDir f₀ (calls.foldl World.serve w') := by
  induction calls generalizing w w' with
  | nil => exact twins
  | cons call calls ih => exact ih (twins.serve call).2

/-- **A call of a world that is its own twin** reaches no further than the snapshots. -/
theorem within (twins : w.Twins dataDir f₀ w) (call : Call) :
    w.Within (Engine.SnapshotPath dataDir) (Engine.SnapshotDirectory dataDir)
      (Engine.SnapshotWay dataDir) call where
  changes := (twins.right.serve call).2.engine.changes
  reads := by
    intro folder agree
    have other := twins.withFolder agree
    obtain ⟨hresponse, served⟩ := other.serve call
    exact ⟨_, hresponse, served.eq_withFolder, served.engine.agree,
      (other.right.serve call).2.engine.changes⟩

end Twins

/-- **Requests reach no further than the snapshots.** Whatever has been asked of a process before, a
call changes nothing but snapshots and the directories that they lie in, and nothing that stands off
the way to a snapshot makes a difference to it, or is touched by it. The snapshots are the one of
the catalog and those of databases with names of word characters and hyphens, each in a file of its
own. -/
theorem within_of_calls [PatternCompiler] (e : Engine) (calls : List Call) (call : Call) :
    (calls.foldl serve (start e)).Within (Engine.SnapshotPath e.dataDir)
        (Engine.SnapshotDirectory e.dataDir) (Engine.SnapshotWay e.dataDir) call ∧
      Engine.Layout e.dataDir :=
  ⟨((twins_start e).calls calls).within call, Engine.layout e.dataDir⟩

/-- A name that would lead out of the folder is refused. -/
example :
    let call : Call := .request 0 Keyed.empty (some "CREATE DATABASE a; CREATE DATABASE ../b")
    let w := start (Engine.new (some ["d"]) Folder.empty Timestamp.epoch)
    (w.serve call).engine.folder.files = ["d/data/a.json", "d/system/nue.json"] := by
  decide +kernel

end World

end Tabular
