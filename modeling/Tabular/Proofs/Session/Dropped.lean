import Mathlib.Data.List.Induction
import Mathlib.Tactic.Tauto
import Tabular.Proofs.Session.Tracking

/-!
Dropped databases.

A handle outlives the database it was opened on and goes on leading to the old cell, and saving
through it writes the snapshot under the old name. So a database that was dropped comes back when a
client that still has it selected is saved: by a request that asks for it, or by selecting another
database. Such a flush is stale (`World.StaleFlush`), and it is all that can go wrong: `INIT` finds
no database of the name unless there was one since, and without one a later database of the same
name keeps its snapshot (`unknownDatabase_iff_not_returned`).
-/

namespace Tabular

/-! ### Sessions -/

namespace Session

variable {dir : Route} {name : String} {e : Engine}

section

variable [PatternCompiler]

/-- After a successful drop, the database is gone. -/
theorem tracks_gone_of_drop (plain : PlainName name) :
    Ensures (Tracks dir (Engine.Shelved dir name) e) (dispatch (.drop .database (some name)))
      (fun _ => Tracks dir (Engine.Gone dir name) e) (fun _ _ => True) := by
  have survives : Engine.Survives dir name _ _ _ _ := Engine.survives_shelved plain
  change Ensures _ (dropDatabase name) _ _
  unfold dropDatabase
  refine Ensures.bind (R := fun _ => Tracks dir (Engine.Shelved dir name) e) ?_ fun c =>
    Ensures.bind (R := fun _ => Tracks dir (Engine.Shelved dir name) e) ?_ fun _ =>
      Ensures.bind (R := fun _ => Tracks dir (Engine.Gone dir name) e) ?_ fun outcome =>
        ensures_forget name outcome fun _ h => h.forget
  · exact (tracks_catalog plain survives).mono (fun _ h => h) (fun _ _ h => h.1)
      fun _ _ _ => trivial
  · exact (tracks_leaves survives (fun _ h => h) (fun p _ => Engine.keeps_edit c _ p.1.engine)
      fun p _ => Engine.leaves_edit c _ p.1.engine).mono_error fun _ _ _ => trivial
  · refine ensures_storage (fun p outcome e' hp hdrop => ?_) fun _ _ _ _ _ => trivial
    have hkeeps : Engine.Keeps p.1.engine (exec (Engine.dropDatabase .data name) p.1.engine).2 :=
      (Engine.spares_dropDatabase (by simp) name p.1.engine).keeps
        (Engine.evolves_dropDatabase .data name p.1.engine)
    rw [hdrop] at hkeeps
    exact ⟨hp.sees.engine hkeeps, hkeeps.evolves.dataDir.trans hp.dataDir, hp.plain,
      Engine.gone_of_drop plain hp.dataDir hp.holds hdrop⟩

/-- A successful creation writes the snapshot of a new database. -/
theorem tracks_file_of_create (plain : PlainName name) (text? : Option String) :
    Ensures (Tracks dir (fun e => e.file? dir .data name = text?) e)
      (dispatch (.create .database name none))
      (fun _ => Tracks dir
        (fun e' => e'.file? dir .data name = some (Database.new e.clock).snapshot) e)
      (fun _ _ => True) := by
  have survives : Engine.Survives dir name _ _ _ _ := Engine.survives_file text?
  change Ensures _ (createDatabase name) _ _
  unfold createDatabase
  refine Ensures.bind (R := fun _ => Tracks dir (fun e => e.file? dir .data name = text?) e) ?_
    fun c => Ensures.bind (R := fun _ => Tracks dir (fun e => e.file? dir .data name = text?) e) ?_
      fun _ => ?_
  · exact (tracks_catalog plain survives).mono (fun _ h => h) (fun _ _ h => h.1)
      fun _ _ _ => trivial
  · exact (tracks_leaves survives (fun _ h => h) (fun p _ => Engine.keeps_edit c _ p.1.engine)
      fun p _ => Engine.leaves_edit c _ p.1.engine).mono_error fun _ _ _ => trivial
  · refine ensures_storage (fun p outcome e' hp hcreate => ?_) fun _ _ _ _ _ => trivial
    have hkeeps : Engine.Keeps p.1.engine (exec (Engine.createDatabase .data name) p.1.engine).2 :=
      (Engine.spares_createDatabase hp.sees.interpreter.ordered (by simp) name).keeps
        (Engine.evolves_createDatabase .data name p.1.engine)
    rw [hcreate] at hkeeps
    apply hp.engine hkeeps
    obtain ⟨hisOk, -⟩ | ⟨-, -, hsave⟩ :=
      Engine.exec_createDatabase_cases hp.dataDir hcreate (by simp [Engine.Undisturbed])
    · simp [Except.isOk, Except.toBool] at hisOk
    · rw [hp.sees.keeps.evolves.clock] at hsave
      exact Engine.file?_of_stat (Engine.stat_of_save_registered hp.dataDir hsave)

/-- A database that is gone cannot be selected. -/
theorem select_of_gone (plain : PlainName name) :
    Ensures (fun p => Tracks dir (Engine.Gone dir name) e p ∧
        ∀ h, p.2.active = some h → h.name = name → False)
      (dispatch (.init name)) (fun _ _ => False)
      (fun err _ => (∀ kind, err ≠ .storage (.io kind)) → err = .unknownDatabase name) := by
  change Ensures _ (select name) _ _
  unfold select
  refine Ensures.bind (R := fun _ => Tracks dir (Engine.Gone dir name) e) ?_ fun _ =>
    Ensures.bind (R := fun h? _ => h? = none) ?_ ?_
  · refine ((tracks_saveActive plain (Engine.survives_gone plain)).and ioOnly_saveActive).mono
      (fun _ h => h) (fun _ _ h => h.1) ?_
    rintro err _ ⟨-, kind, rfl⟩ hio
    exact absurd rfl (hio kind)
  · refine ensures_storage (fun p h? e' hp hopen => ?_) fun p err e' hp hopen hio => ?_
    · exact Except.ok.inj (Engine.open_of_gone hp.dataDir hp.holds hopen
        (by simp [Engine.Undisturbed]))
    · have hnone := Engine.open_of_gone hp.dataDir hp.holds hopen fun kind hkind =>
        hio kind (by rw [Except.error.inj hkind])
      simp at hnone
  · rintro (_ | h)
    · exact Ensures.throw fun _ _ _ => rfl
    · intro p hp
      simp at hp

/-- A database whose snapshot can be read is found. -/
theorem select_of_stored {P : Interpreter × Session → Prop}
    (hsave : Ensures P saveActive (fun _ => Tracks dir (Engine.Stored dir name) e)
      (fun err _ => err ≠ .unknownDatabase name)) :
    Ensures P (dispatch (.init name)) (fun _ _ => True)
      (fun err _ => err ≠ .unknownDatabase name) := by
  change Ensures _ (select name) _ _
  unfold select
  refine hsave.bind fun _ => Ensures.bind (R := fun h? _ => h? ≠ none) ?_ ?_
  · refine ensures_storage (fun p h? e' hp hopen => ?_) fun p err e' _ _ => by simp
    rintro rfl
    exact Engine.open_ne_none_of_stored hp.dataDir hp.holds hopen
  · rintro (_ | h)
    · intro p hp
      exact absurd rfl hp
    · intro p _
      trivial

end

/-- Saving what is selected puts its snapshot into the folder. -/
theorem tracks_saveActive_of_active {K : Engine → Prop} {p : Interpreter × Session}
    (tracks : Tracks dir K e p) {h : Handle} (hactive : p.2.active = some h)
    {K' : Engine → Prop}
    (hK : ∀ e', exec (Engine.save h) p.1.engine = (.ok (), e') → K' e') :
    Ensures (fun q => q = p) saveActive (fun _ => Tracks dir K' e)
      (fun err _ => ∃ kind, err = .storage (.io kind)) := by
  refine ensures_saveActive (fun q hq hnone => ?_) fun h' => ensures_save fun q e' hq hsave => ?_
  · subst hq
    simp [hactive] at hnone
  · obtain ⟨rfl, hactive'⟩ := hq
    obtain rfl : h = h' := Option.some.inj (hactive.symm.trans hactive')
    have hkeeps := Engine.keeps_save h q.1.engine
    rw [hsave] at hkeeps
    exact tracks.engine hkeeps (hK e' hsave)

end Session

/-! ### Runs -/

namespace World

/-- A client's selected database is saved through a handle to which its name does not lead: it was
dropped after the client had selected it. -/
def StaleFlush (name : String) (w : World) (step : Step) : Prop :=
  ∃ h, w.Flushes step h ∧ h.name = name ∧ w.engine.live.get? .data name ≠ some h.cell

section

variable [PatternCompiler]

/-- The step creates the database of a name. -/
def Creates (name : String) (w : World) (step : Step) : Prop :=
  step.statement? = some (.create .database name none) ∧ w.error? step = none

/-- The step drops the database of a name. -/
def Drops (name : String) (w : World) (step : Step) : Prop :=
  step.statement? = some (.drop .database (some name)) ∧ w.error? step = none

/-- There is a stale flush in a run after which the database was not dropped once more. -/
def Returned (name : String) : World → List Step → Prop
  | _, [] => False
  | w, step :: steps => Returned name (w.after step) steps ∨
      StaleFlush name w step ∧ Along (fun w s => ¬Drops name w s) (w.after step) steps

end

variable {w : World} {dir : Route} {name : String}

section

variable [PatternCompiler]

theorem returned_append_singleton {steps : List Step} {step : Step} :
    Returned name w (steps ++ [step]) ↔
      StaleFlush name (w.run steps) step ∨
        Returned name w steps ∧ ¬Drops name (w.run steps) step := by
  induction steps generalizing w with
  | nil => simp [Returned, Along]
  | cons s steps ih =>
    rw [List.cons_append, Returned, Returned, ih, along_append, run_cons]
    simp only [Along, and_true]
    tauto

/-- A run along which the file system does not fail keeps the directories of what is in memory. -/
theorem follows_shelved_run (plain : PlainName name)
    (follows : w.Follows dir (Engine.Shelved dir name)) {steps : List Step}
    (io : Along IoFree w steps) : (w.run steps).Follows dir (Engine.Shelved dir name) :=
  run_invariant follows io fun _ _ hw hio =>
    follows_after plain (Engine.survives_shelved plain) hw hio (fun _ _ _ => trivial)
      (fun _ _ => trivial) fun _ _ => trivial

theorem follows_gone_of_drop (plain : PlainName name)
    (follows : w.Follows dir (Engine.Shelved dir name)) {step : Step} (drops : Drops name w step) :
    (w.after step).Follows dir (Engine.Gone dir name) := by
  obtain ⟨hstep, ok⟩ := drops
  obtain ⟨client, text, rfl, hparse⟩ := Step.exists_of_statement? hstep
  obtain ⟨-, -, tracks⟩ | ⟨err, herr, -⟩ :=
    statement_cases hparse (Session.tracks_gone_of_drop plain) (follows.tracks client)
  · exact follows.statement tracks
  · simp [ok] at herr

/-- A flush of the database of a name puts its snapshot into the folder. -/
theorem follows_of_flush (plain : PlainName name) {K K' : Engine → Prop}
    (follows : w.Follows dir K) {step : Step} (io : w.IoFree step) {h : Handle}
    (flushes : w.Flushes step h) {flush create drop : Prop}
    (survives : Engine.Survives dir name flush create drop K')
    (hK : ∀ e', exec (Engine.save h) w.engine = (.ok (), e') → K' e') :
    (w.after step).Follows dir K' := by
  obtain ⟨client, hactive, rfl | ⟨text, m, rfl, hparse⟩⟩ := flushes
  · have hsave := Session.tracks_saveActive_of_active (follows.tracks client) hactive hK
    refine follows.withView client (Session.holds_of_ensures'
      (Session.tracks_save_of plain survives (hsave.mono_error ?_)) rfl
      (answer_of_ioFree_save io))
    rintro err _ ⟨kind, rfl⟩ hio
    exact absurd rfl (hio kind)
  · have hsave := Session.tracks_saveActive_of_active (follows.tracks client) hactive hK
    have hio := answer_of_ioFree io
    apply follows.withView client
    rw [exec_execute hparse] at hio ⊢
    have hselect : Ensures (fun p => p = w.view client) (Session.select m)
        (fun _ => Session.Tracks dir K' w.engine)
        (Session.UnlessIo (Session.Tracks dir K' w.engine)) := by
      refine Session.tracks_select_of (hsave.mono_error ?_)
        (Session.tracks_load plain survives (fun _ h => h) (Engine.loads_open m))
        (Statement.no_slash_of_parse hparse m (.init m))
      rintro err _ ⟨kind, rfl⟩ hio
      exact absurd rfl (hio kind)
    exact Session.holds_of_ensures' hselect rfl hio

/-- **A database that is gone has returned exactly where a flush of it was stale and it was not
dropped since.** Then its snapshot is in the folder again, and otherwise it is still gone. -/
theorem follows_run_of_gone (plain : PlainName name)
    (shelved : w.Follows dir (Engine.Shelved dir name))
    (gone : w.Follows dir (Engine.Gone dir name)) (steps : List Step)
    (io : Along IoFree w steps) (notCreated : Along (fun w s => ¬Creates name w s) w steps) :
    (Returned name w steps → (w.run steps).Follows dir (Engine.Stored dir name)) ∧
      (¬Returned name w steps → (w.run steps).Follows dir (Engine.Gone dir name)) := by
  induction steps using List.reverseRecOn with
  | nil => exact ⟨False.elim, fun _ => gone⟩
  | append_singleton steps step ih =>
    obtain ⟨ioBefore, ioStep, -⟩ := along_append.1 io
    obtain ⟨notCreatedBefore, notCreatedStep, -⟩ := along_append.1 notCreated
    obtain ⟨stored, stillGone⟩ := ih ioBefore notCreatedBefore
    have shelved' := follows_shelved_run plain shelved ioBefore
    rw [returned_append_singleton, run_append, run_cons, run_nil]
    by_cases stale : StaleFlush name (w.run steps) step
    · constructor
      · intro _
        obtain ⟨h, flushes, hname, -⟩ := stale
        obtain ⟨client, hactive, -⟩ := id flushes
        have hscope := (shelved'.sound.session client h hactive).2
        exact follows_of_flush plain shelved' ioStep flushes Engine.survives_stored fun _ hsave =>
          ⟨_, Engine.stat_of_save shelved'.dataDir hscope hname hsave⟩
      · intro h
        exact absurd (.inl stale) h
    · by_cases drops : Drops name (w.run steps) step
      · constructor
        · intro h
          exact absurd drops (h.resolve_left stale).2
        · intro _
          exact follows_gone_of_drop plain shelved' drops
      · constructor
        · intro h
          exact follows_after plain Engine.survives_stored (stored (h.resolve_left stale).1) ioStep
            (fun _ _ _ => trivial) (fun _ _ => trivial) fun hst hok => drops ⟨hst, hok⟩
        · intro h
          have hgone := stillGone fun returned => h (.inr ⟨returned, drops⟩)
          refine follows_after plain (Engine.survives_gone plain) hgone ioStep
            (fun h flushes hname => stale ⟨h, flushes, hname, ?_⟩)
            (fun hst hok => notCreatedStep ⟨hst, hok⟩) fun _ _ => trivial
          rw [hgone.holds.1]
          simp

/-- Selecting a database that is gone fails, unless the client still has it selected itself. -/
theorem init_of_gone (plain : PlainName name) (follows : w.Follows dir (Engine.Gone dir name))
    {step : Step} (hstep : step.statement? = some (.init name)) (io : w.IoFree step) :
    (w.error? step = some (.unknownDatabase name)) ↔ ¬StaleFlush name w step := by
  obtain ⟨client, text, rfl, hparse⟩ := Step.exists_of_statement? hstep
  by_cases hstale : StaleFlush name w (.statement client text)
  · refine iff_of_false ?_ fun h => h hstale
    obtain ⟨h, ⟨client', hactive, hflush⟩, hname, -⟩ := hstale
    obtain rfl : client = client' := by
      rcases hflush with hflush | ⟨text', m, hflush, -⟩
      · exact Step.noConfusion hflush
      · exact (Step.statement.inj hflush).1
    have hscope := (follows.sound.session client h hactive).2
    have hstored : ∀ e', exec (Engine.save h) (w.view client).1.engine = (.ok (), e') →
        Engine.Stored dir name e' := by
      intro e' hsave
      exact ⟨_, Engine.stat_of_save follows.dataDir hscope hname hsave⟩
    have hsave := Session.tracks_saveActive_of_active (follows.tracks client) hactive hstored
    have hselect := Session.select_of_stored
      (hsave.mono_error fun err _ ⟨kind, hkind⟩ => by rw [hkind]; simp)
    obtain ⟨outcome, hok, -⟩ | ⟨err, herr, hne⟩ := statement_cases hparse hselect rfl
    · simp [hok]
    · simpa [herr] using hne
  · refine iff_of_true ?_ hstale
    have unselected : ∀ h, (w.view client).2.active = some h → h.name = name → False := by
      intro h hactive hname
      refine hstale ⟨h, ⟨client, hactive, .inr ⟨text, name, rfl, hparse⟩⟩, hname, ?_⟩
      rw [follows.holds.1]
      simp
    obtain ⟨outcome, -, impossible⟩ | ⟨err, herr, hunknown⟩ :=
      statement_cases hparse (Session.select_of_gone plain) ⟨follows.tracks client, unselected⟩
    · exact impossible.elim
    · rw [herr, hunknown fun kind hkind => io kind (by rw [herr, hkind])]

/-- Selecting a database whose snapshot is in the folder does not fail for lack of it. -/
theorem init_of_stored (plain : PlainName name) (follows : w.Follows dir (Engine.Stored dir name))
    {step : Step} (hstep : step.statement? = some (.init name)) :
    w.error? step ≠ some (.unknownDatabase name) := by
  obtain ⟨client, text, rfl, hparse⟩ := Step.exists_of_statement? hstep
  have survives : Engine.Survives dir name _ _ _ _ := Engine.survives_stored
  have hsave := Session.tracks_saveActive (e := w.engine) plain survives
  have hselect := Session.select_of_stored <|
    (hsave.and Session.ioOnly_saveActive).mono (fun _ h => h) (fun _ _ h => h.1) ?_
  · obtain ⟨outcome, hok, -⟩ | ⟨err, herr, hne⟩ :=
      statement_cases hparse hselect ⟨follows.tracks client, fun _ _ _ => trivial⟩
    · simp [hok]
    · simpa [herr] using hne
  · rintro err _ ⟨-, kind, rfl⟩
    simp

/-- What a step writes where the snapshot of a name stands: nothing, or the database to which the
name leads, or the new database where it creates one; or it removes the snapshot. -/
def KeepsSnapshot (dir : Route) (name : String) (w : World) (step : Step) : Prop :=
  (w.after step).engine.file? dir .data name = w.engine.file? dir .data name ∨
    (∃ c, w.engine.live.get? .data name = some c ∧
      (w.after step).engine.file? dir .data name = some (w.engine.state c).snapshot) ∨
    (Creates name w step ∧
      (w.after step).engine.file? dir .data name = some (Database.new w.engine.clock).snapshot) ∨
    Drops name w step ∧ (w.after step).engine.file? dir .data name = none

/-- A flush writes what its handle leads to. -/
theorem file?_of_flush (plain : PlainName name) {K : Engine → Prop} (follows : w.Follows dir K)
    {step : Step} (io : w.IoFree step) {h : Handle} (flushes : w.Flushes step h)
    (hname : h.name = name) :
    (w.after step).engine.file? dir .data name = some (w.engine.databaseOf h).snapshot := by
  obtain ⟨client, hactive, -⟩ := id flushes
  have hscope := (follows.sound.session client h hactive).2
  refine (follows_of_flush plain follows io flushes (Engine.survives_file _)
    fun e' hsave => ?_).holds
  exact Engine.file?_of_stat (Engine.stat_of_save follows.dataDir hscope hname hsave)

theorem file?_of_creates (plain : PlainName name) {K : Engine → Prop} (follows : w.Follows dir K)
    {step : Step} (creates : Creates name w step) :
    (w.after step).engine.file? dir .data name = some (Database.new w.engine.clock).snapshot := by
  obtain ⟨hstep, ok⟩ := creates
  obtain ⟨client, text, rfl, hparse⟩ := Step.exists_of_statement? hstep
  have tracks : Session.Tracks dir
      (fun e => e.file? dir .data name = w.engine.file? dir .data name) w.engine (w.view client) :=
    ⟨follows.sound.sees client, follows.dataDir, follows.plain client, rfl⟩
  obtain ⟨-, -, created⟩ | ⟨err, herr, -⟩ :=
    statement_cases hparse (Session.tracks_file_of_create plain _) tracks
  · exact created.holds
  · simp [ok] at herr

/-- Without a stale flush, no step writes another database where the snapshot of a name stands. -/
theorem keepsSnapshot_of_not_staleFlush (plain : PlainName name)
    (follows : w.Follows dir (Engine.Shelved dir name)) {step : Step} (io : w.IoFree step)
    (fresh : ¬StaleFlush name w step) : KeepsSnapshot dir name w step := by
  by_cases creates : Creates name w step
  · exact .inr (.inr (.inl ⟨creates, file?_of_creates plain follows creates⟩))
  by_cases drops : Drops name w step
  · exact .inr (.inr (.inr ⟨drops, (follows_gone_of_drop plain follows drops).holds.2⟩))
  by_cases flushed : ∃ h, w.Flushes step h ∧ h.name = name
  · obtain ⟨h, flushes, hname⟩ := flushed
    refine .inr (.inl ⟨h.cell, ?_, file?_of_flush plain follows io flushes hname⟩)
    by_contra hlive
    exact fresh ⟨h, flushes, hname, hlive⟩
  · have same : w.Follows dir (fun e => e.file? dir .data name = w.engine.file? dir .data name) :=
      follows.of_holds rfl
    exact .inl (follows_after plain (Engine.survives_file _) same io
      (fun h flushes hname => flushed ⟨h, flushes, hname⟩) (fun hst hok => creates ⟨hst, hok⟩)
      fun hst hok => drops ⟨hst, hok⟩).holds

/-- **After a drop, `INIT` finds no database until one is created, exactly unless it has returned by
a stale flush; and a stale flush is the only step that writes another database where the snapshot of
the name stands.** -/
theorem unknownDatabase_iff_not_returned {dir : Route} {folder : Folder} {clock : Timestamp}
    {name : String} {before after : List Step} {drop step : Step}
    (io : Along IoFree (start (Engine.new (some dir) folder clock))
      (before ++ drop :: (after ++ [step])))
    (drops : Drops name ((start (Engine.new (some dir) folder clock)).run before) drop) :
    let dropped := (start (Engine.new (some dir) folder clock)).run (before ++ [drop])
    let w := dropped.run after
    (step.statement? = some (.init name) → Along (fun w s => ¬Creates name w s) dropped after →
      (w.error? step = some (.unknownDatabase name) ↔
        ¬Returned name dropped (after ++ [step]))) ∧
    (∀ h, w.Flushes step h → h.name = name →
      (w.after step).engine.file? dir .data name = some (w.engine.databaseOf h).snapshot) ∧
    (¬StaleFlush name w step → KeepsSnapshot dir name w step) := by
  intro dropped w
  have plain : PlainName name := by
    obtain ⟨client, text, rfl, hparse⟩ := Step.exists_of_statement? drops.1
    exact Statement.no_slash_of_parse hparse name (.drop name)
  obtain ⟨ioBefore, -, ioAfterStep⟩ := along_append.1 io
  obtain ⟨ioAfter, ioStep, -⟩ := along_append.1 ioAfterStep
  have hdropped :
      dropped = ((start (Engine.new (some dir) folder clock)).run before).after drop := by
    change (start (Engine.new (some dir) folder clock)).run (before ++ [drop]) = _
    rw [run_append, run_cons, run_nil]
  rw [← hdropped] at ioAfter ioStep
  change w.IoFree step at ioStep
  have shelvedBefore := follows_shelved_run plain
    (start_follows (K := Engine.Shelved dir name) fun h => absurd (by simp [Engine.new]) h) ioBefore
  have gone : dropped.Follows dir (Engine.Gone dir name) :=
    hdropped ▸ follows_gone_of_drop plain shelvedBefore drops
  have shelved : dropped.Follows dir (Engine.Shelved dir name) :=
    ⟨gone.sound, gone.dataDir, gone.plain, fun h => absurd gone.holds.1 h⟩
  have shelvedAfter : w.Follows dir (Engine.Shelved dir name) :=
    follows_shelved_run plain shelved ioAfter
  refine ⟨fun hinit notCreated => ?_, fun h flushes hname =>
    file?_of_flush plain shelvedAfter ioStep flushes hname,
    fun fresh => keepsSnapshot_of_not_staleFlush plain shelvedAfter ioStep fresh⟩
  obtain ⟨stored, stillGone⟩ := follows_run_of_gone plain shelved gone after ioAfter notCreated
  have notDrops : ¬Drops name w step := by
    rintro ⟨hst, -⟩
    simp [hinit] at hst
  rw [returned_append_singleton]
  by_cases returned : Returned name dropped after
  · refine iff_of_false (init_of_stored plain (stored returned) hinit) fun h => ?_
    exact h (.inr ⟨returned, notDrops⟩)
  · rw [init_of_gone plain (stillGone returned) hinit ioStep]
    constructor
    · rintro fresh (stale | ⟨h, -⟩)
      · exact fresh stale
      · exact returned h
    · intro h stale
      exact h (.inl stale)

end

/-- A restart does not bring a dropped database back. -/
theorem unknownDatabase_after_restart :
    Along IoFree (start (Engine.new (some ["home"]) Folder.empty Timestamp.epoch))
        [.statement 0 "CREATE DATABASE a", .statement 0 "INIT a", .statement 0 "DROP DATABASE a",
          .restart Timestamp.epoch, .statement 1 "INIT a"] ∧
      Drops "a" ((start (Engine.new (some ["home"]) Folder.empty Timestamp.epoch)).run
        [.statement 0 "CREATE DATABASE a", .statement 0 "INIT a"])
        (.statement 0 "DROP DATABASE a") ∧
      ¬Returned "a" ((start (Engine.new (some ["home"]) Folder.empty Timestamp.epoch)).run
        [.statement 0 "CREATE DATABASE a", .statement 0 "INIT a", .statement 0 "DROP DATABASE a"])
        [.restart Timestamp.epoch, .statement 1 "INIT a"] := by
  have io : Along IoFree (start (Engine.new (some ["home"]) Folder.empty Timestamp.epoch))
      [.statement 0 "CREATE DATABASE a", .statement 0 "INIT a", .statement 0 "DROP DATABASE a",
        .restart Timestamp.epoch, .statement 1 "INIT a"] := by
    decide +kernel
  have drops : Drops "a" ((start (Engine.new (some ["home"]) Folder.empty Timestamp.epoch)).run
      [.statement 0 "CREATE DATABASE a", .statement 0 "INIT a"])
      (.statement 0 "DROP DATABASE a") :=
    ⟨by decide +kernel, by decide +kernel⟩
  obtain ⟨hinit, -⟩ := @unknownDatabase_iff_not_returned _ ["home"] Folder.empty Timestamp.epoch "a"
    [.statement 0 "CREATE DATABASE a", .statement 0 "INIT a"] [.restart Timestamp.epoch]
    (.statement 0 "DROP DATABASE a") (.statement 1 "INIT a") io drops
  have hiff := hinit (by decide +kernel)
    ⟨fun creates => absurd creates.1 (by decide +kernel), trivial⟩
  exact ⟨io, drops, hiff.1 (by decide +kernel)⟩

/-- Another client that still has the dropped database selected is saved, and the database is back.
-/
theorem dropped_database_returns :
    ¬∀ (name : String) (before after : List Step) (drop step : Step),
      Along IoFree (start (Engine.new (some ["home"]) Folder.empty Timestamp.epoch))
          (before ++ drop :: (after ++ [step])) →
        Drops name ((start (Engine.new (some ["home"]) Folder.empty Timestamp.epoch)).run before)
          drop →
        Along (fun w s => ¬Creates name w s)
          ((start (Engine.new (some ["home"]) Folder.empty Timestamp.epoch)).run
            (before ++ [drop])) after →
        step.statement? = some (.init name) →
        ((start (Engine.new (some ["home"]) Folder.empty Timestamp.epoch)).run
          (before ++ drop :: after)).error? step = some (.unknownDatabase name) := by
  intro h
  have herror := h "a" [.statement 0 "CREATE DATABASE a", .statement 1 "INIT a"] [.save 1]
    (.statement 0 "DROP DATABASE a") (.statement 0 "INIT a") (by decide +kernel)
    ⟨by decide +kernel, by decide +kernel⟩
    ⟨fun creates => absurd creates.1 (by decide +kernel), trivial⟩
    (by decide +kernel)
  have hfound : ((start (Engine.new (some ["home"]) Folder.empty Timestamp.epoch)).run
      [.statement 0 "CREATE DATABASE a", .statement 1 "INIT a", .statement 0 "DROP DATABASE a",
        .save 1]).error? (.statement 0 "INIT a") = none := by
    decide +kernel
  exact absurd (herror.symm.trans hfound) (by simp)

end World

end Tabular
