import Tabular.Proofs.Engine.Survival
import Tabular.Proofs.Session.Handles
import Tabular.Proofs.Statement.Names

/-!
Following one database through a step.

What a step does to the database of a name comes down to five operations of the engine: what leaves
it alone, loading it, saving it through a handle, creating it and dropping it. A property of engines
that `Survives` them survives every step of every client (`World.follows_after`), as long as the
file system does not fail. Whether it has to survive a flush, a creation or a drop is a parameter: a
step at which none takes place need not be prepared for it.
-/

namespace Tabular

namespace Session

/-- What a session sees while a property of the engine is followed. -/
structure Tracks (dir : Route) (K : Engine → Prop) (e : Engine) (p : Interpreter × Session) :
    Prop where
  sees : Sees e p
  dataDir : p.1.engine.dataDir = some dir
  plain : ∀ h, p.2.active = some h → PlainName h.name
  holds : K p.1.engine

/-- What is seen where an operation fails, unless it is the file system that fails. -/
def UnlessIo (P : Interpreter × Session → Prop) (err : Error) (p : Interpreter × Session) : Prop :=
  (∀ kind, err ≠ .storage (.io kind)) → P p

variable {dir : Route} {name : String} {flush create drop : Prop} {K : Engine → Prop}
variable {e : Engine} {α : Type}

/-- What is known of the result decides which part of a postcondition applies. -/
theorem holds_of_ensures {P T : Interpreter × Session → Prop} {act : SessionM α} {C : Prop}
    (h : Ensures P act (fun _ p => C → T p) (UnlessIo T)) {p : Interpreter × Session} (hp : P p)
    (hC : (exec act p).1.isOk = true → C)
    (hio : ∀ kind, (exec act p).1 ≠ .error (.storage (.io kind))) : T (exec act p).2 := by
  have hpost := h p hp
  rcases hr : exec act p with ⟨err | a, p'⟩ <;> rw [hr] at hpost hC hio
  · exact hpost fun kind hkind => hio kind (by rw [hkind])
  · exact hpost (hC rfl)

theorem holds_of_ensures' {P T : Interpreter × Session → Prop} {act : SessionM α}
    (h : Ensures P act (fun _ => T) (UnlessIo T)) {p : Interpreter × Session} (hp : P p)
    (hio : ∀ kind, (exec act p).1 ≠ .error (.storage (.io kind))) : T (exec act p).2 :=
  holds_of_ensures (C := True) (h.mono (fun _ h => h) (fun _ _ h _ => h) fun _ _ h => h) hp
    (fun _ => trivial) hio

theorem Tracks.engine {p : Interpreter × Session} (tracks : Tracks dir K e p) {e' : Engine}
    {K' : Engine → Prop} (keeps : Engine.Keeps p.1.engine e') (holds : K' e') :
    Tracks dir K' e ({ p.1 with engine := e' }, p.2) where
  sees := tracks.sees.engine keeps
  dataDir := keeps.evolves.dataDir.trans tracks.dataDir
  plain := tracks.plain
  holds := holds

/-- What a session selects no longer matters where it is forgotten. -/
theorem Tracks.forget {p : Interpreter × Session} (tracks : Tracks dir K e p) :
    Tracks dir K e (p.1, { active := none }) where
  sees := ⟨tracks.sees.interpreter, by simp [Session.Sound], tracks.sees.keeps⟩
  dataDir := tracks.dataDir
  plain := by simp
  holds := tracks.holds

/-- An operation of the engine inside a session. It is enough to know what it does where the file
system does not fail; what is known of its result decides which part of a postcondition applies. -/
theorem tracks_storage_of_ok {P : Interpreter × Session → Prop} (hP : ∀ p, P p → Tracks dir K e p)
    {act : EngineM α} {C : Prop}
    (keeps : ∀ p, P p → Engine.Keeps p.1.engine (exec act p.1.engine).2)
    (holds : ∀ p r e', P p → exec act p.1.engine = (r, e') → Engine.Undisturbed r →
      (r.isOk = true → C) → K e') :
    Ensures P (storage act) (fun _ p => C → Tracks dir K e p) (UnlessIo (Tracks dir K e)) := by
  refine ensures_storage (fun p a e' hp hact => ?_) fun p err e' hp hact => ?_
  · intro hC
    have hkeeps := keeps p hp
    rw [hact] at hkeeps
    exact (hP p hp).engine hkeeps (holds p (.ok a) e' hp hact (by simp [Engine.Undisturbed])
      fun _ => hC)
  · intro hio
    have hkeeps := keeps p hp
    rw [hact] at hkeeps
    refine (hP p hp).engine hkeeps (holds p (.error err) e' hp hact ?_ ?_)
    · intro kind hkind
      exact hio kind (by rw [Except.error.inj hkind])
    · simp [Except.isOk, Except.toBool]

theorem tracks_storage {P : Interpreter × Session → Prop} (hP : ∀ p, P p → Tracks dir K e p)
    {act : EngineM α}
    (keeps : ∀ p, P p → Engine.Keeps p.1.engine (exec act p.1.engine).2)
    (holds : ∀ p r e', P p → exec act p.1.engine = (r, e') → Engine.Undisturbed r → K e') :
    Ensures P (storage act) (fun _ => Tracks dir K e) (UnlessIo (Tracks dir K e)) :=
  (tracks_storage_of_ok (C := True) hP keeps
    fun p r e' hp hact hr _ => holds p r e' hp hact hr).mono (fun _ h => h)
      (fun _ _ h => h trivial) fun _ _ h => h

/-- An operation of the engine that leaves the database alone. -/
theorem tracks_leaves (survives : Engine.Survives dir name flush create drop K)
    {P : Interpreter × Session → Prop} (hP : ∀ p, P p → Tracks dir K e p) {act : EngineM α}
    (keeps : ∀ p, P p → Engine.Keeps p.1.engine (exec act p.1.engine).2)
    (leaves : ∀ p, P p → Engine.Leaves .data name p.1.engine (exec act p.1.engine).2) :
    Ensures P (storage act) (fun _ => Tracks dir K e) (UnlessIo (Tracks dir K e)) := by
  refine tracks_storage hP keeps fun p r e' hp hact _ => ?_
  have hleaves := leaves p hp
  rw [hact] at hleaves
  exact survives.leaves p.1.engine e' (hP p hp).dataDir hleaves (hP p hp).holds

/-- Saving a database fails only where the file system does. -/
theorem ensures_save {R S : Interpreter × Session → Prop} {h : Handle}
    (saved : ∀ p e', R p → exec (Engine.save h) p.1.engine = (.ok (), e') →
      S ({ p.1 with engine := e' }, p.2)) :
    Ensures R (storage (Engine.save h)) (fun _ => S)
      (fun err _ => ∃ kind, err = .storage (.io kind)) := by
  refine ensures_storage (fun p _ e' hp hsave => saved p e' hp hsave) fun p err e' hp hsave => ?_
  obtain ⟨kind, rfl⟩ := Engine.error_of_save hsave
  exact ⟨kind, rfl⟩

theorem ioOnly_saveActive {P : Interpreter × Session → Prop} :
    Ensures P saveActive (fun _ _ => True) (fun err _ => ∃ kind, err = .storage (.io kind)) :=
  ensures_saveActive (fun _ _ _ => trivial) fun _ => ensures_save fun _ _ _ _ => trivial

/-- A selection saves what was selected before, and then opens a database. -/
theorem tracks_select_of {P : Interpreter × Session → Prop} {m : String}
    (hsave : Ensures P saveActive (fun _ => Tracks dir K e) (UnlessIo (Tracks dir K e)))
    (hopen : Ensures (Tracks dir K e) (storage (Engine.open .data m)) (fun _ => Tracks dir K e)
      (UnlessIo (Tracks dir K e)))
    (hm : PlainName m) :
    Ensures P (select m) (fun _ => Tracks dir K e) (UnlessIo (Tracks dir K e)) := by
  unfold select
  refine hsave.bind fun _ => Ensures.bind
    (R := fun h? p => Tracks dir K e p ∧
      ∀ h, h? = some h → p.1.engine.Valid h ∧ h.scope = .data ∧ h.name = m) ?_ ?_
  · intro p hp
    have hpost := hopen p hp
    rw [exec_storage] at hpost ⊢
    rcases hact : exec (Engine.open .data m) p.1.engine with ⟨err | h?, e'⟩ <;> rw [hact] at hpost
    · exact hpost
    · refine ⟨hpost, ?_⟩
      rintro h rfl
      have hordered : e'.Ordered := hpost.sees.interpreter.ordered
      obtain ⟨hvalid, hscope⟩ := Engine.valid_of_open hordered hact
      exact ⟨hvalid, hscope, (Engine.live_of_open hact).2.1⟩
  · rintro (_ | h)
    · exact Ensures.throw fun _ hp _ => hp.1
    · refine Ensures.bind (R := fun _ => Tracks dir K e) (Ensures.modify ?_) fun _ =>
        Ensures.pure fun _ hp => hp
      rintro p ⟨tracks, hopened⟩
      obtain ⟨hvalid, hscope, hname⟩ := hopened h rfl
      refine ⟨⟨tracks.sees.interpreter, ?_, tracks.sees.keeps⟩, tracks.dataDir, ?_, tracks.holds⟩
      · rintro h' hactive
        exact Option.some.inj hactive ▸ ⟨hvalid, hscope⟩
      · rintro h' hactive
        exact Option.some.inj hactive ▸ hname ▸ hm

/-- The name of the catalog is a step of a path. -/
theorem plainName_catalog : PlainName Catalog.database := by
  unfold PlainName
  decide +kernel

/-- Opening the catalog leaves the users' databases alone. -/
theorem leaves_openCatalog (plain : PlainName name) (e : Engine) :
    Engine.Leaves .data name e (exec Catalog.open e).2 := by
  have hother : ¬(Scope.system = Scope.data ∧ Catalog.database = name) := by simp
  have step : ∀ {α : Type} {act : EngineM α},
      (∀ e', Engine.Leaves .data name e' (exec act e').2) →
        Ensures (Engine.Leaves .data name e) act (fun _ => Engine.Leaves .data name e)
          (fun _ => Engine.Leaves .data name e) := by
    intro α act hact
    exact Ensures.always_iff.2 fun e₁ h₁ => h₁.trans (hact e₁)
  have hopen : ∀ e', Engine.Leaves .data name e'
      (exec (Engine.open .system Catalog.database) e').2 := fun e' => by
    rw [Engine.exec_open_snd]
    exact Engine.leaves_load hother e'
  have hens : Ensures (Engine.Leaves .data name e) Catalog.open
      (fun _ => Engine.Leaves .data name e) (fun _ => Engine.Leaves .data name e) := by
    unfold Catalog.open
    apply (step hopen).bind
    rintro (_ | h)
    · refine (step fun e' => Engine.leaves_createDatabase plainName_catalog plain hother e').bind
        fun _ => (step hopen).bind ?_
      rintro (_ | h)
      · exact Ensures.throw fun _ h => h
      · exact (step fun e' => Engine.leaves_edit h _ e').bind fun _ => Ensures.pure fun _ h => h
    · exact Ensures.pure fun _ h => h
  exact Ensures.always_iff.1 hens e (.refl ..)

section

variable (plain : PlainName name) (survives : Engine.Survives dir name flush create drop K)

include plain survives

theorem tracks_catalog : Ensures (Tracks dir K e) catalog
    (fun h p => Tracks dir K e p ∧ Catalog.IsHandle p.1.engine h)
    (UnlessIo (Tracks dir K e)) := by
  have hsees := sees_catalog (e := e)
  intro p hp
  have hcat := hsees p hp.sees
  have hleaves := leaves_openCatalog plain p.1.engine
  rw [exec_catalog] at hcat ⊢
  cases hc : p.1.catalog with
  | some h => exact ⟨hp, hp.sees.interpreter.catalog h hc⟩
  | none =>
    simp only [hc] at hcat ⊢
    rcases hopen : exec Catalog.open p.1.engine with ⟨err | h, e'⟩ <;> rw [hopen] at hcat hleaves
    · exact fun _ =>
        ⟨hcat, hleaves.dataDir.trans hp.dataDir, hp.plain,
          survives.leaves _ e' hp.dataDir hleaves hp.holds⟩
    · refine ⟨⟨hcat.1, hleaves.dataDir.trans hp.dataDir, hp.plain,
        survives.leaves _ e' hp.dataDir hleaves hp.holds⟩, ?_⟩
      exact hcat.1.interpreter.catalog h rfl

/-- Saving what is selected is a flush only where it is the database of the name. -/
theorem tracks_saveActive :
    Ensures (fun p => Tracks dir K e p ∧ ∀ h, p.2.active = some h → h.name = name → flush)
      saveActive (fun _ => Tracks dir K e) (UnlessIo (Tracks dir K e)) := by
  refine ensures_saveActive (fun p hp _ => hp.1) fun h => ?_
  refine tracks_storage (fun p hp => hp.1.1) (fun p _ => Engine.keeps_save h p.1.engine)
    fun p r e' hp hact hr => ?_
  obtain ⟨⟨tracks, hflush⟩, hactive⟩ := hp
  obtain ⟨-, hscope⟩ := tracks.sees.session h hactive
  by_cases hname : h.name = name
  · obtain ⟨made, written, -, -, hexec⟩ | ⟨kind, folder, hexec, -⟩ :=
      Engine.exec_save_cases tracks.dataDir h
    · obtain ⟨rfl, rfl⟩ := Prod.mk.inj (hact.symm.trans hexec)
      exact survives.save (hflush h hactive hname) p.1.engine h _ tracks.dataDir hscope hname
        tracks.holds hexec
    · obtain ⟨rfl, -⟩ := Prod.mk.inj (hact.symm.trans hexec)
      exact absurd rfl (hr kind)
  · have hother : ¬(h.scope = .data ∧ h.name = name) := fun h => hname h.2
    have hleaves := Engine.leaves_save (tracks.plain h hactive) plain hother p.1.engine
    rw [hact] at hleaves
    exact survives.leaves _ e' tracks.dataDir hleaves tracks.holds

/-- An operation that loads a database of the users, or does nothing. -/
theorem tracks_load {P : Interpreter × Session → Prop} (hP : ∀ p, P p → Tracks dir K e p)
    {act : EngineM α} {m : String} (loads : Engine.Loads m act) :
    Ensures P (storage act) (fun _ => Tracks dir K e) (UnlessIo (Tracks dir K e)) := by
  refine tracks_storage hP (fun p hp => ?_) fun p r e' hp hact hr => ?_
  · rcases loads p.1.engine (exec act p.1.engine).1 (exec act p.1.engine).2 rfl with
      h | ⟨r', hload, -⟩
    · rw [h]
      exact .refl _
    · have hkeeps : Engine.Keeps p.1.engine (exec (Engine.load .data m) p.1.engine).2 :=
        (Engine.spares_load (hP p hp).sees.interpreter.ordered (by simp) m).keeps
          (Engine.evolves_load .data m p.1.engine)
      rw [hload] at hkeeps
      exact hkeeps
  · have tracks := hP p hp
    rcases loads _ _ _ hact with rfl | ⟨r', hload, hr'⟩
    · exact tracks.holds
    · by_cases hm : m = name
      · subst hm
        exact survives.load p.1.engine r' e' tracks.dataDir tracks.holds hload (hr' hr)
      · have hleaves : Engine.Leaves .data name p.1.engine
            (exec (Engine.load .data m) p.1.engine).2 :=
          Engine.leaves_load (fun h => hm h.2) p.1.engine
        rw [hload] at hleaves
        exact survives.leaves _ e' tracks.dataDir hleaves tracks.holds

/-- A creation of the database itself succeeds only where that may happen. -/
theorem tracks_createDatabase {m : String} (hm : PlainName m) :
    Ensures (Tracks dir K e) (createDatabase m)
      (fun _ p => (m = name → create) → Tracks dir K e p) (UnlessIo (Tracks dir K e)) := by
  unfold createDatabase
  refine (tracks_catalog plain survives).bind fun c => Ensures.bind (R := fun _ => Tracks dir K e)
    ?_ fun _ => ?_
  · exact tracks_leaves survives (fun p hp => hp.1)
      (fun p _ => Engine.keeps_edit c _ p.1.engine) fun p _ => Engine.leaves_edit c _ p.1.engine
  · refine tracks_storage_of_ok (fun _ h => h) (fun p hp => ?_) fun p r e' hp hact hr hC => ?_
    · exact (Engine.spares_createDatabase hp.sees.interpreter.ordered (by simp) m).keeps
        (Engine.evolves_createDatabase .data m p.1.engine)
    · by_cases hname : m = name
      · subst hname
        exact survives.create p.1.engine r e' hp.dataDir hp.holds hact hr fun hok => hC hok rfl
      · have hother : ¬(Scope.data = .data ∧ m = name) := fun h => hname h.2
        have hleaves := Engine.leaves_createDatabase hm plain hother p.1.engine
        rw [hact] at hleaves
        exact survives.leaves _ e' hp.dataDir hleaves hp.holds

variable [PatternCompiler]

/-- So does a drop. -/
theorem tracks_dropDatabase {m : String} (hm : PlainName m) :
    Ensures (Tracks dir K e) (dropDatabase m)
      (fun _ p => (m = name → drop) → Tracks dir K e p) (UnlessIo (Tracks dir K e)) := by
  unfold dropDatabase
  refine (tracks_catalog plain survives).bind fun c => Ensures.bind (R := fun _ => Tracks dir K e)
    ?_ fun _ => Ensures.bind (R := fun _ p => (m = name → drop) → Tracks dir K e p) ?_
      fun outcome => ensures_forget m outcome fun _ h hm => (h hm).forget
  · exact tracks_leaves survives (fun p hp => hp.1)
      (fun p _ => Engine.keeps_edit c _ p.1.engine) fun p _ => Engine.leaves_edit c _ p.1.engine
  · refine tracks_storage_of_ok (fun _ h => h) (fun p hp => ?_) fun p r e' hp hact hr hC => ?_
    · exact (Engine.spares_dropDatabase (by simp) m p.1.engine).keeps
        (Engine.evolves_dropDatabase .data m p.1.engine)
    · by_cases hname : m = name
      · subst hname
        exact survives.drop p.1.engine r e' hp.dataDir hp.holds hact hr fun hok => hC hok rfl
      · have hother : ¬(Scope.data = .data ∧ m = name) := fun h => hname h.2
        have hleaves := Engine.leaves_dropDatabase hm plain hother p.1.engine
        rw [hact] at hleaves
        exact survives.leaves _ e' hp.dataDir hleaves hp.holds

theorem tracks_listDatabases (pattern : Option String) :
    Ensures (Tracks dir K e) (listDatabases pattern) (fun _ => Tracks dir K e)
      (UnlessIo (Tracks dir K e)) := by
  unfold listDatabases
  refine (tracks_catalog plain survives).bind fun c => tracks_leaves survives (fun p hp => hp.1)
    (fun p _ => ?_) fun p _ => ?_ <;> unfold Engine.find <;> rw [Engine.exec_query]
  · exact .refl _
  · exact .refl ..

omit [PatternCompiler] in
/-- Saving the selected database and the catalog. -/
theorem tracks_save_of {P : Interpreter × Session → Prop}
    (hsave : Ensures P saveActive (fun _ => Tracks dir K e) (UnlessIo (Tracks dir K e))) :
    Ensures P save (fun _ => Tracks dir K e) (UnlessIo (Tracks dir K e)) := by
  unfold save
  refine hsave.bind fun _ => (tracks_catalog plain survives).bind fun c => ?_
  refine tracks_leaves survives (fun p hp => hp.1) (fun p _ => Engine.keeps_save c p.1.engine)
    fun p hp => ?_
  refine Engine.leaves_save ?_ plain ?_ p.1.engine
  · rw [hp.2.name]
    exact plainName_catalog
  · rw [hp.2.scope]
    simp

/-- What a statement does to a database is one of the operations of `Engine.Survives`. -/
theorem tracks_dispatch {st : Statement} (noSlash : st.NoSlash) {p : Interpreter × Session}
    (tracks : Tracks dir K e p)
    (hflush : ∀ m, st = .init m → ∀ h, p.2.active = some h → h.name = name → flush)
    (hcreate : st = .create .database name none → (exec (dispatch st) p).1.isOk = true → create)
    (hdrop : st = .drop .database (some name) → (exec (dispatch st) p).1.isOk = true → drop)
    (hio : ∀ kind, (exec (dispatch st) p).1 ≠ .error (.storage (.io kind))) :
    Tracks dir K e (exec (dispatch st) p).2 := by
  obtain ⟨act, performs, hexec⟩ := exists_performs st p
  rw [hexec] at hcreate hdrop hio ⊢
  cases performs with
  | select m =>
    exact holds_of_ensures' (tracks_select_of (tracks_saveActive plain survives)
      (tracks_load plain survives (fun _ h => h) (Engine.loads_open m)) (noSlash m (.init m)))
      ⟨tracks, hflush m rfl⟩ hio
  | create m =>
    refine holds_of_ensures (tracks_createDatabase plain survives (noSlash m (.create m none)))
      tracks (fun hok hm => ?_) hio
    subst hm
    exact hcreate rfl hok
  | drop m =>
    refine holds_of_ensures (tracks_dropDatabase plain survives (noSlash m (.drop m)))
      tracks (fun hok hm => ?_) hio
    subst hm
    exact hdrop rfl hok
  | list pattern =>
    exact holds_of_ensures' (tracks_listDatabases plain survives pattern) tracks hio
  | describe m =>
    exact holds_of_ensures' (tracks_load plain survives (fun _ h => h)
      (Engine.loads_describeDatabase p.2.active m)) tracks hio
  | query active f =>
    refine holds_of_ensures' (tracks_leaves survives (fun _ h => h) (fun p _ => ?_)
      fun p _ => ?_) tracks hio <;> rw [Engine.exec_query]
    · exact .refl _
    · exact .refl ..
  | edit active f =>
    exact holds_of_ensures' (tracks_leaves survives (fun _ h => h)
      (fun p _ => Engine.keeps_edit _ f p.1.engine)
      fun p _ => Engine.leaves_edit _ f p.1.engine) tracks hio
  | refuse err => exact tracks

end

end Session

/-! ### Worlds -/

namespace World

/-- A world in order, while a property of its engine is followed. -/
structure Follows (w : World) (dir : Route) (K : Engine → Prop) : Prop where
  sound : w.Sound
  dataDir : w.engine.dataDir = some dir
  plain : ∀ client h, (w.session client).active = some h → PlainName h.name
  holds : K w.engine

/-- At a step, a client's selected database is saved through a handle. -/
def Flushes (w : World) (step : Step) (h : Handle) : Prop :=
  ∃ client, (w.session client).active = some h ∧
    (step = .save client ∨
      ∃ text m, step = .statement client text ∧ Statement.parse text = .ok (.init m))

variable {w : World} {dir : Route} {name : String} {flush create drop : Prop}
variable {K : Engine → Prop}

theorem start_follows {folder : Folder} {clock : Timestamp}
    (holds : K (Engine.new (some dir) folder clock)) :
    (start (Engine.new (some dir) folder clock)).Follows dir K where
  sound := start_sound (some dir) folder clock
  dataDir := rfl
  plain := by simp [start, Session.new]
  holds := holds

theorem Follows.of_holds {K K' : Engine → Prop} (follows : w.Follows dir K) (holds : K' w.engine) :
    w.Follows dir K' :=
  ⟨follows.sound, follows.dataDir, follows.plain, holds⟩

theorem Follows.tracks (follows : w.Follows dir K) (client : Nat) :
    Session.Tracks dir K w.engine (w.view client) :=
  ⟨follows.sound.sees client, follows.dataDir, follows.plain client, follows.holds⟩

theorem Follows.withView (follows : w.Follows dir K) (client : Nat) {K' : Engine → Prop}
    {p : Interpreter × Session} (tracks : Session.Tracks dir K' w.engine p) :
    (w.withView client p).Follows dir K' where
  sound := follows.sound.withView client tracks.sees
  dataDir := tracks.dataDir
  plain := by
    intro c h hactive
    change (if c = client then p.2 else w.session c).active = some h at hactive
    by_cases hc : c = client
    · rw [if_pos hc] at hactive
      exact tracks.plain h hactive
    · rw [if_neg hc] at hactive
      exact follows.plain c h hactive
  holds := tracks.holds

variable [PatternCompiler]

/-- After a statement, only what its client sees is new. -/
theorem Follows.statement (follows : w.Follows dir K) {client : Nat} {text : String}
    {K' : Engine → Prop}
    (tracks : Session.Tracks dir K' w.engine ((w.after (.statement client text)).view client)) :
    (w.after (.statement client text)).Follows dir K' := by
  rw [after, afterAct, view_withView] at tracks
  exact follows.withView client tracks

/-- The answer to an operation that the file system does not disturb. -/
theorem answer_of_ioFree {client : Nat} {text : String} (io : w.IoFree (.statement client text))
    (kind : IoKind) :
    (exec (Session.execute text) (w.view client)).1 ≠ .error (.storage (.io kind)) := by
  intro hkind
  exact io kind (error?_eq_some_iff.2 hkind)

theorem answer_of_ioFree_save {client : Nat} (io : w.IoFree (.save client)) (kind : IoKind) :
    (exec Session.save (w.view client)).1 ≠ .error (.storage (.io kind)) := by
  intro hkind
  apply io kind
  unfold error? answer
  dsimp only
  rw [hkind]

/-- **A property that survives what is done to the database of a name survives a step.** -/
theorem follows_after (plain : PlainName name)
    (survives : Engine.Survives dir name flush create drop K) (follows : w.Follows dir K)
    {step : Step} (io : w.IoFree step)
    (hflush : ∀ h, w.Flushes step h → h.name = name → flush)
    (hcreate : step.statement? = some (.create .database name none) → w.error? step = none → create)
    (hdrop : step.statement? = some (.drop .database (some name)) → w.error? step = none → drop) :
    (w.after step).Follows dir K := by
  cases step with
  | restart clock =>
    have hrestarted : w.after (.restart clock) =
        start (Engine.new (some dir) w.engine.folder clock) := by
      rw [after, restarted, follows.dataDir]
    rw [hrestarted]
    exact start_follows (survives.restart w.engine clock follows.holds)
  | save client =>
    refine follows.withView client (Session.holds_of_ensures'
      (Session.tracks_save_of plain survives (Session.tracks_saveActive plain survives))
      ⟨follows.tracks client, fun h hactive => ?_⟩ (answer_of_ioFree_save io))
    exact hflush h ⟨client, hactive, .inl rfl⟩
  | statement client text =>
    apply follows.withView client
    have hio := answer_of_ioFree io
    cases hparse : Statement.parse text with
    | error cause =>
      rw [exec_execute_of_error hparse]
      exact follows.tracks client
    | ok st =>
      have hst : (Step.statement client text).statement? = some st := by
        simp [Step.statement?, hparse, Except.toOption]
      have hok : (exec (Session.execute text) (w.view client)).1.isOk = true →
          w.error? (.statement client text) = none := error?_eq_none_iff.2
      rw [exec_execute hparse] at hio hok ⊢
      refine Session.tracks_dispatch plain survives (Statement.no_slash_of_parse hparse)
        (follows.tracks client) ?_ ?_ ?_ hio
      · rintro m rfl h hactive
        exact hflush h ⟨client, hactive, .inr ⟨text, m, rfl, hparse⟩⟩
      · rintro rfl hisOk
        exact hcreate hst (hok hisOk)
      · rintro rfl hisOk
        exact hdrop hst (hok hisOk)

end World

end Tabular
