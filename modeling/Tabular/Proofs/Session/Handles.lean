import Tabular.Proofs.Engine.Handles
import Tabular.Proofs.Session.Dispatch
import Tabular.Proofs.Session.World

/-!
The handles of an interpreter and its clients.

The catalog of an interpreter, once opened, is the database in memory under the catalog's name, and
what a client has selected is a valid handle of the users' scope. Main statement: this holds in
every world that a run of steps reaches (`World.sound_run`). So no client can touch the catalog
through a selection, and statements reach it only by the operations of `Tabular.Catalog`.
-/

namespace Tabular

/-- A handle of the catalog that is in memory. -/
structure Catalog.IsHandle (e : Engine) (h : Handle) : Prop where
  scope : h.scope = .system
  name : h.name = Catalog.database
  live : e.live.get? .system Catalog.database = some h.cell

/-- An interpreter with its names in order, whose catalog is the one in memory. -/
structure Interpreter.Sound (i : Interpreter) : Prop where
  ordered : i.engine.Ordered
  catalog : ∀ h, i.catalog = some h → Catalog.IsHandle i.engine h

/-- A session with a valid selection. -/
def Session.Sound (e : Engine) (s : Session) : Prop :=
  ∀ h, s.active = some h → e.Valid h ∧ h.scope = .data

/-- An engine that has evolved and whose catalog is where it was, if it was in memory. -/
structure Engine.Keeps (e e' : Engine) : Prop where
  evolves : Engine.Evolves e e'
  catalog : ∀ c, e.live.get? .system Catalog.database = some c →
    e'.live.get? .system Catalog.database = some c

namespace Engine

variable {α : Type}

theorem Keeps.refl (e : Engine) : Keeps e e := ⟨.refl e, fun _ h => h⟩

theorem Keeps.trans {e₁ e₂ e₃ : Engine} (h : Keeps e₁ e₂) (h' : Keeps e₂ e₃) : Keeps e₁ e₃ :=
  ⟨h.evolves.trans h'.evolves, fun c hc => h'.catalog c (h.catalog c hc)⟩

/-- An operation that leaves the catalog's scope alone keeps the catalog. -/
theorem Spares.keeps {e e' : Engine} (h : Spares .system e e') (evolves : Evolves e e') :
    Keeps e e' :=
  ⟨evolves, fun _ hc => (h.live Catalog.database).trans hc⟩

/-- An operation that keeps every engine, in a chain of such operations. -/
theorem Keeps.ensures {e : Engine} {act : EngineM α} (h : ∀ e, Keeps e (exec act e).2) :
    Ensures (Keeps e) act (fun _ => Keeps e) (fun _ => Keeps e) :=
  Ensures.always_iff.2 fun e₁ h₁ => h₁.trans (h e₁)

theorem keeps_edit (h : Handle) (f : Database → Except StorageError (α × Database))
    (e : Engine) : Keeps e (exec (edit h f) e).2 := by
  refine ⟨evolves_edit h f e, fun c hc => ?_⟩
  rw [exec_edit]
  rcases f (e.databaseOf h) with _ | ⟨a, db⟩ <;> exact hc

theorem keeps_save (h : Handle) (e : Engine) : Keeps e (exec (save h) e).2 :=
  (spares_save .system h e).keeps (evolves_save h e)

/-- A name that is in memory is loaded from there. -/
theorem exec_load_of_live {scope : Scope} {name : String} {c : Nat} {e : Engine}
    (h : e.live.get? scope name = some c) : exec (load scope name) e = (.ok (some c), e) := by
  rw [exec_load, h]

/-- Opening a database loads it. -/
theorem exec_open_snd (scope : Scope) (name : String) (e : Engine) :
    (exec (Engine.open scope name) e).2 = (exec (load scope name) e).2 := by
  rw [exec_open]

theorem keeps_open_catalog (e : Engine) :
    Keeps e (exec (Engine.open .system Catalog.database) e).2 := by
  rw [exec_open_snd]
  refine ⟨evolves_load .system Catalog.database e, fun c hc => ?_⟩
  rw [exec_load_of_live hc]
  exact hc

theorem keeps_create_catalog (e : Engine) :
    Keeps e (exec (createDatabase .system Catalog.database) e).2 := by
  refine ⟨evolves_createDatabase .system Catalog.database e, fun c hc => ?_⟩
  rw [exec_createDatabase, exec_load_of_live hc]
  exact hc

/-- An open database is in memory under its name. -/
theorem live_of_open {scope : Scope} {name : String} {e e' : Engine} {h : Handle}
    (hopen : exec (Engine.open scope name) e = (.ok (some h), e')) :
    h.scope = scope ∧ h.name = name ∧ e'.live.get? scope name = some h.cell := by
  rw [exec_open] at hopen
  rcases hload : exec (load scope name) e with ⟨err | _ | c, e₁⟩ <;> rw [hload] at hopen <;>
    obtain ⟨hres, rfl⟩ := Prod.mk.inj hopen
  · simp [Except.map] at hres
  · simp [Except.map] at hres
  · obtain rfl := Option.some.inj (Except.ok.inj hres)
    exact ⟨rfl, rfl, live_of_load hload⟩

/-- An open database of an ordered engine has a valid handle. -/
theorem valid_of_open {scope : Scope} {name : String} {e e' : Engine} {h : Handle}
    (ordered : e'.Ordered) (hopen : exec (Engine.open scope name) e = (.ok (some h), e')) :
    e'.Valid h ∧ h.scope = scope := by
  obtain ⟨rfl, rfl, hlive⟩ := live_of_open hopen
  exact ⟨ordered.valid hlive, rfl⟩

end Engine

/-! ### The catalog -/

namespace Catalog

theorem IsHandle.keeps {e e' : Engine} {h : Handle} (catalog : IsHandle e h)
    (keeps : Engine.Keeps e e') : IsHandle e' h :=
  { catalog with live := keeps.catalog h.cell catalog.live }

/-- **Opening the catalog** keeps a catalog that is in memory, and gives a handle of the catalog
that is in memory then. -/
theorem ensures_open (e : Engine) :
    Ensures (Engine.Keeps e) Catalog.open (fun h e' => Engine.Keeps e e' ∧ IsHandle e' h)
      (fun _ => Engine.Keeps e) := by
  have hopen : Ensures (Engine.Keeps e) (Engine.open .system database)
      (fun h? e' => Engine.Keeps e e' ∧ ∀ h, h? = some h → IsHandle e' h)
      (fun _ => Engine.Keeps e) := by
    intro e₁ h₁
    have h₂ := h₁.trans (Engine.keeps_open_catalog e₁)
    rcases h : exec (Engine.open .system database) e₁ with ⟨_ | h?, e₂⟩ <;> rw [h] at h₂
    · exact h₂
    · refine ⟨h₂, ?_⟩
      rintro c rfl
      obtain ⟨hscope, hname, hlive⟩ := Engine.live_of_open h
      exact ⟨hscope, hname, hlive⟩
  unfold Catalog.open
  apply hopen.bind
  rintro (_ | h)
  · refine Ensures.bind ((Engine.Keeps.ensures Engine.keeps_create_catalog).mono_pre
      fun _ h => h.1) fun _ => hopen.bind ?_
    rintro (_ | h)
    · exact Ensures.throw fun _ h => h.1
    · refine Ensures.bind (R := fun _ e' => Engine.Keeps e e' ∧ IsHandle e' h) ?_ fun _ =>
        Ensures.pure fun _ h => h
      rintro e₁ ⟨h₁, hcatalog⟩
      have h₂ := Engine.keeps_edit h (fun db => do
        return (Outcome.message ("Table " ++ spec.name ++ " created."), ← db.createTable spec)) e₁
      unfold Engine.createTable
      rcases hedit : exec (Engine.edit h _) e₁ with ⟨_ | _, e₂⟩ <;> rw [hedit] at h₂
      · exact h₁.trans h₂
      · exact ⟨h₁.trans h₂, (hcatalog h rfl).keeps h₂⟩
  · exact Ensures.pure fun _ h' => ⟨h'.1, h'.2 h rfl⟩

end Catalog

/-! ### Sessions -/

namespace Session

theorem Sound.evolves {e e' : Engine} {s : Session} (sound : s.Sound e)
    (evolves : Engine.Evolves e e') : s.Sound e' :=
  fun h hactive => ⟨(sound h hactive).1.evolves evolves, (sound h hactive).2⟩

/-- What a session sees, when it started with the engine `e`: everything is in order, and the engine
has evolved from `e`. -/
structure Sees (e : Engine) (p : Interpreter × Session) : Prop where
  interpreter : p.1.Sound
  session : p.2.Sound p.1.engine
  keeps : Engine.Keeps e p.1.engine

variable {e : Engine} {α : Type}

/-- What a session sees after an operation of the engine that keeps it. -/
theorem Sees.engine {p : Interpreter × Session} (sees : Sees e p) {e' : Engine}
    (keeps : Engine.Keeps p.1.engine e') : Sees e ({ p.1 with engine := e' }, p.2) where
  interpreter :=
    { ordered := keeps.evolves.ordered sees.interpreter.ordered
      catalog := fun h hc => (sees.interpreter.catalog h hc).keeps keeps }
  session := sees.session.evolves keeps.evolves
  keeps := sees.keeps.trans keeps

/-- An operation of the engine that keeps it, inside a session. -/
theorem sees_storage {act : EngineM α}
    (h : ∀ p, Sees e p → Engine.Keeps p.1.engine (exec act p.1.engine).2) :
    Ensures (Sees e) (storage act) (fun _ => Sees e) (fun _ => Sees e) := by
  rw [Ensures.always_iff]
  intro p hp
  rw [exec_storage_snd]
  exact hp.engine (h p hp)

/-- Obtaining the catalog gives a handle of the catalog that is in memory. -/
theorem sees_catalog : Ensures (Sees e) catalog
    (fun h p => Sees e p ∧ p.1.catalog = some h) (fun _ => Sees e) := by
  refine ensures_catalog (fun p h hp hc => ⟨hp, hc⟩) (fun p h e' hp hc hopen => ?_)
    fun p err e' hp hc hopen => ?_
  · have hens := Catalog.ensures_open p.1.engine p.1.engine (.refl _)
    rw [hopen] at hens
    have hp' := hp.engine hens.1
    refine ⟨⟨⟨hp'.interpreter.ordered, ?_⟩, hp'.session, hp'.keeps⟩, rfl⟩
    rintro c hcatalog
    obtain rfl := Option.some.inj hcatalog
    exact hens.2
  · have hens := Catalog.ensures_open p.1.engine p.1.engine (.refl _)
    rw [hopen] at hens
    exact hc ▸ hp.engine hens

theorem sees_saveActive :
    Ensures (Sees e) saveActive (fun _ => Sees e) (fun _ => Sees e) := by
  refine ensures_saveActive (fun p hp _ => hp) fun h => ?_
  exact (sees_storage fun p _ => Engine.keeps_save h p.1.engine).mono_pre fun _ h => h.1

/-- An operation of the users' scope that evolves the engine and leaves the catalog's scope alone.
-/
theorem sees_storage_data {act : EngineM α} (evolves : ∀ e, Engine.Evolves e (exec act e).2)
    (spares : ∀ e, e.Ordered → Engine.Spares .system e (exec act e).2) :
    Ensures (Sees e) (storage act) (fun _ => Sees e) (fun _ => Sees e) :=
  sees_storage fun p hp =>
    (spares p.1.engine hp.interpreter.ordered).keeps (evolves p.1.engine)

theorem sees_select (name : String) :
    Ensures (Sees e) (select name) (fun _ => Sees e) (fun _ => Sees e) := by
  unfold select
  refine sees_saveActive.bind fun _ => Ensures.bind (R := fun h? p => Sees e p ∧
    ∀ h, h? = some h → p.1.engine.Valid h ∧ h.scope = .data) ?_ ?_
  · refine ensures_storage (fun p h? e' hp hopen => ?_) fun p err e' hp hopen => ?_
    all_goals
      have hkeeps : Engine.Keeps p.1.engine e' := by
        have hload := Engine.exec_open_snd .data name p.1.engine
        rw [hopen] at hload
        subst hload
        exact (Engine.spares_load hp.interpreter.ordered (by simp) name).keeps
          (Engine.evolves_load .data name p.1.engine)
    · refine ⟨hp.engine hkeeps, ?_⟩
      rintro h rfl
      exact Engine.valid_of_open (hkeeps.evolves.ordered hp.interpreter.ordered) hopen
    · exact hp.engine hkeeps
  · rintro (_ | h)
    · exact Ensures.throw fun _ hp => hp.1
    · refine Ensures.bind (R := fun _ => Sees e) (Ensures.modify ?_) fun _ =>
        Ensures.pure fun _ hp => hp
      rintro p ⟨hp, hopen⟩
      refine ⟨hp.interpreter, fun h' hactive => ?_, hp.keeps⟩
      exact Option.some.inj hactive ▸ hopen h rfl

theorem sees_createDatabase (name : String) :
    Ensures (Sees e) (createDatabase name) (fun _ => Sees e) (fun _ => Sees e) := by
  unfold createDatabase
  refine sees_catalog.bind fun c => Ensures.bind (R := fun _ => Sees e) ?_ fun _ => ?_
  · exact (sees_storage fun p _ => Engine.keeps_edit c _ p.1.engine).mono_pre fun _ h => h.1
  · exact sees_storage_data (Engine.evolves_createDatabase .data name) fun e ho =>
      Engine.spares_createDatabase ho (by simp) name

variable [PatternCompiler]

theorem sees_dropDatabase (name : String) :
    Ensures (Sees e) (dropDatabase name) (fun _ => Sees e) (fun _ => Sees e) := by
  unfold dropDatabase
  refine sees_catalog.bind fun c => Ensures.bind (R := fun _ => Sees e) ?_ fun _ =>
    Ensures.bind (R := fun _ => Sees e) ?_ fun outcome => ensures_forget name outcome ?_
  · exact (sees_storage fun p _ => Engine.keeps_edit c _ p.1.engine).mono_pre fun _ h => h.1
  · exact sees_storage_data (Engine.evolves_dropDatabase .data name) fun e _ =>
      Engine.spares_dropDatabase (by simp) name e
  · intro p hp
    exact ⟨hp.interpreter, by simp [Session.Sound], hp.keeps⟩

theorem sees_listDatabases (pattern : Option String) :
    Ensures (Sees e) (listDatabases pattern) (fun _ => Sees e) (fun _ => Sees e) := by
  unfold listDatabases
  refine sees_catalog.bind fun c => ?_
  refine (sees_storage fun p _ => ?_).mono_pre fun _ h => h.1
  unfold Engine.find
  rw [Engine.exec_query]
  exact .refl _

omit [PatternCompiler] in
theorem sees_save : Ensures (Sees e) save (fun _ => Sees e) (fun _ => Sees e) := by
  unfold save
  refine sees_saveActive.bind fun _ => sees_catalog.bind fun c => ?_
  exact (sees_storage fun p _ => Engine.keeps_save c p.1.engine).mono_pre fun _ h => h.1

/-- **Whatever a session runs, everything stays in order.** -/
theorem sees_dispatch (st : Statement) :
    Ensures (Sees e) (dispatch st) (fun _ => Sees e) (fun _ => Sees e) := by
  intro p hp
  obtain ⟨act, performs, hexec⟩ := exists_performs st p
  rw [hexec]
  cases performs with
  | select name => exact sees_select name p hp
  | create name => exact sees_createDatabase name p hp
  | drop name => exact sees_dropDatabase name p hp
  | list pattern => exact sees_listDatabases pattern p hp
  | describe name =>
    exact sees_storage_data (Engine.evolves_describeDatabase p.2.active name)
      (fun e ho => Engine.spares_describeDatabase ho p.2.active name) p hp
  | query active f =>
    refine sees_storage (fun p _ => ?_) p hp
    rw [Engine.exec_query]
    exact .refl _
  | edit active f => exact sees_storage (fun p _ => Engine.keeps_edit _ f p.1.engine) p hp
  | refuse err => exact hp

theorem sees_execute (raw : String) :
    Ensures (Sees e) (execute raw) (fun _ => Sees e) (fun _ => Sees e) := by
  unfold execute
  cases Statement.parse raw with
  | ok st => exact sees_dispatch st
  | error cause => exact Ensures.throw fun _ h => h

end Session

/-! ### Worlds -/

namespace World

/-- The interpreter and every session are in order. -/
structure Sound (w : World) : Prop where
  interpreter : w.interpreter.Sound
  session : ∀ client, (w.session client).Sound w.engine

theorem start_sound (dataDir : Option Route) (folder : Folder) (clock : Timestamp) :
    (start (Engine.new dataDir folder clock)).Sound where
  interpreter := ⟨Engine.new_ordered dataDir folder clock, by simp [start, Interpreter.new]⟩
  session := by simp [start, Session.Sound, Session.new]

theorem Sound.sees {w : World} (sound : w.Sound) (client : Nat) :
    Session.Sees w.engine (w.view client) :=
  ⟨sound.interpreter, sound.session client, .refl _⟩

/-- What one client does keeps the sessions of the others in order. -/
theorem Sound.withView {w : World} (sound : w.Sound) (client : Nat) {p : Interpreter × Session}
    (sees : Session.Sees w.engine p) : (w.withView client p).Sound where
  interpreter := sees.interpreter
  session := by
    intro c
    unfold World.withView
    dsimp only
    by_cases hc : c = client
    · rw [if_pos hc]
      exact sees.session
    · rw [if_neg hc]
      exact (sound.session c).evolves sees.keeps.evolves

theorem Sound.afterAct {w : World} (sound : w.Sound) (client : Nat) {α : Type} {act : SessionM α}
    (h : Ensures (Session.Sees w.engine) act (fun _ => Session.Sees w.engine)
      (fun _ => Session.Sees w.engine)) : (w.afterAct client act).Sound :=
  sound.withView client (Ensures.always_iff.1 h (w.view client) (sound.sees client))

theorem Sound.after [PatternCompiler] {w : World} (sound : w.Sound) (step : Step) :
    (w.after step).Sound := by
  cases step with
  | statement client text => exact sound.afterAct client (Session.sees_execute text)
  | save client => exact sound.afterAct client Session.sees_save
  | restart clock => exact start_sound _ _ _

/-- **In every world that a run reaches, everything is in order.** -/
theorem sound_run [PatternCompiler] {w : World} (sound : w.Sound) (steps : List Step) :
    (w.run steps).Sound := by
  induction steps generalizing w with
  | nil => exact sound
  | cons step steps ih => exact ih (sound.after step)

end World

end Tabular
