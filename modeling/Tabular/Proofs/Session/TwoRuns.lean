import Mathlib.Data.List.Forall2
import Tabular.Proofs.Database.Creation
import Tabular.Proofs.Session.Dispatch
import Tabular.Proofs.Session.World
import Tabular.Proofs.Statement.Names
import Tabular.Proofs.TwoRuns

/-!
Two sessions that are told the same.

A `Simulation` is a relation between what two sessions see that every operation on their databases
keeps, while the two succeed or fail alike. Statements are made of these operations, so statements
keep it as well (`Simulation.dispatch`), and so do batches: two sessions that are related get
responses to the same batch that are alike, or both panic (`Simulation.runStatements`).
-/

namespace Tabular

/-- Responses with outcomes that are related one by one. -/
structure BatchResponse.Alike (O : Outcome → Outcome → Prop) (r r' : BatchResponse) : Prop where
  status : r.status = r'.status
  results : List.Forall₂ O r.results r'.results
  failure : r.failure = r'.failure

theorem BatchResponse.Alike.eq {r r' : BatchResponse} (alike : r.Alike Eq r') : r = r' := by
  obtain ⟨hstatus, hresults, hfailure⟩ := alike
  rw [List.forall₂_eq_eq_eq] at hresults
  cases r
  cases r'
  congr

/-- Two requests come to responses that are alike, or to the same panic. -/
def AnsweredAlike (O : Outcome → Outcome → Prop) :
    Except Panic BatchResponse → Except Panic BatchResponse → Prop
  | .ok r, .ok r' => r.Alike O r'
  | .error panic, .error panic' => panic = panic'
  | _, _ => False

namespace AnsweredAlike

variable {O : Outcome → Outcome → Prop} {a b : Except Panic BatchResponse}

theorem isOk_eq (alike : AnsweredAlike O a b) : a.isOk = b.isOk := by
  cases a <;> cases b
  · rfl
  · exact alike.elim
  · exact alike.elim
  · rfl

theorem eq (alike : AnsweredAlike Eq a b) : a = b := by
  cases a <;> cases b
  · exact congrArg Except.error alike
  · exact alike.elim
  · exact alike.elim
  · exact congrArg Except.ok (BatchResponse.Alike.eq alike)

/-- The same failure ends two batches that have come equally far. -/
theorem stopped {results results' : List Outcome} (h : List.Forall₂ O results results')
    (err : Error) :
    AnsweredAlike O (Session.stopped results err) (Session.stopped results' err) := by
  unfold Session.stopped
  cases err.panic? with
  | some panic => exact rfl
  | none => exact ⟨rfl, h, by simp [BatchResponse.failed, h.length_eq]⟩

end AnsweredAlike

namespace Session

/-- Handles of two sessions in the same place: both sessions have selected theirs, or the handles
are those of the two catalogs. -/
inductive Placed (p q : Interpreter × Session) (h h' : Handle) : Prop where
  | selected (left : p.2.active = some h) (right : q.2.active = some h')
  | catalog (left : p.1.catalog = some h) (right : q.1.catalog = some h')

/-- A relation between what two sessions see that is kept by all that is done with their databases,
with outcomes that are related by `O`. -/
structure Simulation (R : Interpreter × Session → Interpreter × Session → Prop)
    (O : Outcome → Outcome → Prop) : Prop where
  refl : ∀ outcome, O outcome outcome
  activeName : ∀ p q, R p q → p.2.activeName = q.2.activeName
  deselect : ∀ p q, R p q → R (p.1, { active := none }) (q.1, { active := none })
  catalog : Relates R catalog catalog (fun h h' p q => R p q ∧ Placed p q h h') R
  query : ∀ h h' (f : Database → Except StorageError Outcome), Database.AsksTables f →
    Relates (fun p q => R p q ∧ Placed p q h h') (storage (Engine.query h f))
      (storage (Engine.query h' f)) (fun a b p q => O a b ∧ R p q) R
  edit : ∀ h h' (f : Database → Except StorageError (Outcome × Database)),
    Database.IgnoresCreation f →
    Relates (fun p q => R p q ∧ Placed p q h h') (storage (Engine.edit h f))
      (storage (Engine.edit h' f)) (fun a b p q => O a b ∧ R p q) R
  saveActive : Relates R saveActive saveActive (fun _ _ => R) R
  «open» : ∀ n, DatabaseName n → Relates R (storage (Engine.open .data n))
    (storage (Engine.open .data n)) (fun h? h'? p q => R p q ∧ Option.Rel (fun h h' =>
      R (p.1, { active := some h }) (q.1, { active := some h' })) h? h'?) R
  describe : ∀ n, DatabaseName n → ∀ p q, R p q → Relates (fun p' q' => p' = p ∧ q' = q)
    (storage (Engine.describeDatabase p.2.active n))
    (storage (Engine.describeDatabase q.2.active n)) (fun a b p q => O a b ∧ R p q) R
  create : ∀ n, DatabaseName n → Relates R (storage (Engine.createDatabase .data n))
    (storage (Engine.createDatabase .data n)) (fun a b p q => O a b ∧ R p q) R
  drop : ∀ n, DatabaseName n → Relates R (storage (Engine.dropDatabase .data n))
    (storage (Engine.dropDatabase .data n)) (fun a b p q => O a b ∧ R p q) R

variable {α β : Type} {P R : Interpreter × Session → Interpreter × Session → Prop}
variable {Q : β → β → Interpreter × Session → Interpreter × Session → Prop}
variable {O : Outcome → Outcome → Prop}

/-- A request that has to be made of a statement first is made in both runs or in neither. -/
theorem relates_require_bind (made : Except Error α) {f g : α → SessionM β}
    (hP : ∀ p q, P p q → R p q) (h : ∀ a, Relates P (f a) (g a) Q R) :
    Relates P (require made >>= f) (require made >>= g) Q R := by
  refine Relates.bind_eq (M := fun _ => P) ?_ h
  cases made with
  | ok a => exact Relates.pure fun _ _ hpq => ⟨rfl, hpq⟩
  | error err => exact Relates.throw hP

theorem relates_requirePart_bind (part : Missing) (a? : Option α) {f g : α → SessionM β}
    (hP : ∀ p q, P p q → R p q) (h : ∀ a, Relates P (f a) (g a) Q R) :
    Relates P (requirePart part a? >>= f) (requirePart part a? >>= g) Q R := by
  refine Relates.bind_eq (M := fun _ => P) ?_ h
  cases a? with
  | some a => exact Relates.pure fun _ _ hpq => ⟨rfl, hpq⟩
  | none => exact Relates.throw hP

namespace Simulation

variable (sim : Simulation R O)

include sim

/-- Both sessions have a database selected, or neither has. -/
theorem requireActive : Relates R requireActive requireActive
    (fun h h' p q => R p q ∧ Placed p q h h') R := by
  intro p q hR
  have hname := sim.activeName p q hR
  rw [exec_requireActive, exec_requireActive]
  unfold Session.activeName at hname
  cases hp : p.2.active <;> cases hq : q.2.active <;> rw [hp, hq] at hname
  · exact ⟨rfl, hR⟩
  · simp at hname
  · simp at hname
  · exact ⟨hR, .selected hp hq⟩

/-- A statement that makes a request and then edits the selected database with it. -/
theorem editSelected (made : Except Error α)
    {f : α → Database → Except StorageError (Outcome × Database)}
    (ignores : ∀ a, Database.IgnoresCreation (f a)) :
    Relates R (do let h ← Session.requireActive
                  let a ← require made
                  storage (Engine.edit h (f a)))
      (do let h ← Session.requireActive
          let a ← require made
          storage (Engine.edit h (f a))) (fun a b p q => O a b ∧ R p q) R :=
  sim.requireActive.bind fun h h' =>
    relates_require_bind made (fun _ _ h => h.1) fun a => sim.edit h h' (f a) (ignores a)

/-! ### Databases -/

theorem select {n : String} (hn : DatabaseName n) :
    Relates R (select n) (select n) (fun a b p q => O a b ∧ R p q) R := by
  unfold Session.select
  refine sim.saveActive.bind fun _ _ => (sim.open n hn).bind ?_
  rintro (_ | h) (_ | h')
  · exact Relates.throw fun _ _ h => h.1
  · rintro p q ⟨-, ⟨⟩⟩
  · rintro p q ⟨-, ⟨⟩⟩
  · refine Relates.bind (M := fun _ _ => R) (Relates.modify ?_) fun _ _ =>
      Relates.pure fun _ _ h => ⟨sim.refl _, h⟩
    rintro p q ⟨-, ⟨hR⟩⟩
    exact hR

theorem createDatabase {n : String} (hn : DatabaseName n) :
    Relates R (createDatabase n) (createDatabase n) (fun a b p q => O a b ∧ R p q) R := by
  unfold Session.createDatabase
  refine sim.catalog.bind fun c c' => (sim.edit c c' _ (Database.ignoresCreation_of fun _ _ =>
    Database.insert_withCreation ..)).bind fun _ _ => ?_
  exact (sim.create n hn).mono_pre fun _ _ h => h.2

variable [PatternCompiler]

theorem dropDatabase {n : String} (hn : DatabaseName n) :
    Relates R (dropDatabase n) (dropDatabase n) (fun a b p q => O a b ∧ R p q) R := by
  unfold Session.dropDatabase
  refine sim.catalog.bind fun c c' => (sim.edit c c' _ (Database.ignoresCreation_of_count
    (Database.ignoresCreation_delete _))).bind fun _ _ => Relates.bind
      ((sim.drop n hn).mono_pre fun _ _ h => h.2) fun a b => Relates.get_bind fun p q hpq => ?_
  rw [sim.activeName p q hpq.2]
  split
  · refine Relates.bind (M := fun _ _ p q => O a b ∧ R p q) (Relates.modify ?_) fun _ _ =>
      Relates.pure fun _ _ h => h
    rintro p' q' ⟨rfl, rfl⟩
    exact ⟨hpq.1, sim.deselect p' q' hpq.2⟩
  · refine Relates.pure fun p' q' h => ?_
    obtain ⟨rfl, rfl⟩ := h
    exact hpq

theorem listDatabases (pattern : Option String) :
    Relates R (listDatabases pattern) (listDatabases pattern) (fun a b p q => O a b ∧ R p q) R := by
  unfold Session.listDatabases
  exact sim.catalog.bind fun c c' => sim.query c c' _ (Database.asksTables_of
    (Database.asksTables_find _) Outcome.rows)

/-! ### Statements -/

/-- **A statement keeps a simulation**, and has outcomes that are related. -/
theorem dispatch {st : Statement} (named : st.WellNamed) :
    Relates R (dispatch st) (dispatch st) (fun a b p q => O a b ∧ R p q) R := by
  cases st with
  | init name => exact sim.select (named name (.init name))
  | «show» pattern => exact sim.listDatabases pattern
  | create kind name parameters =>
    cases kind with
    | database =>
      cases parameters with
      | none => exact sim.createDatabase (named name (.create name none))
      | some parameters => exact Relates.throw fun _ _ h => h
    | table =>
      refine sim.requireActive.bind fun h h' =>
        relates_requirePart_bind .tableColumns parameters (fun _ _ h => h.1) fun parameters =>
          relates_require_bind (TableSpec.ofParameters name parameters) (fun _ _ h => h.1)
            fun spec => ?_
      exact sim.edit h h' _ (Database.ignoresCreation_of fun _ _ =>
        Database.createTable_withCreation ..)
  | insert table columns values =>
    exact sim.editSelected (InsertSpec.ofStatement table columns values) fun spec =>
      Database.ignoresCreation_of fun _ _ => Database.insert_withCreation ..
  | find search =>
    refine sim.requireActive.bind fun h h' =>
      relates_require_bind (QuerySpec.ofSearch search) (fun _ _ h => h.1) fun q => ?_
    exact sim.query h h' _ (Database.asksTables_of (Database.asksTables_find q) Outcome.rows)
  | describe kind name =>
    cases name with
    | none => exact Relates.throw fun _ _ h => h
    | some name =>
      cases kind with
      | table =>
        refine sim.requireActive.bind fun h h' => sim.query h h' _ ?_
        exact Database.asksTables_of (Database.asksTables_describeTable name) Outcome.table
      | database =>
        exact Relates.get_bind (f := fun p => storage (Engine.describeDatabase p.2.active name))
          (g := fun q => storage (Engine.describeDatabase q.2.active name))
          fun p q hpq => sim.describe name (named name (.describe name)) p q hpq
  | drop kind name =>
    cases kind with
    | database =>
      cases name with
      | none => exact Relates.throw fun _ _ h => h
      | some name => exact sim.dropDatabase (named name (.drop name))
    | table =>
      refine sim.requireActive.bind fun h h' =>
        relates_requirePart_bind .droppedTable name (fun _ _ h => h.1) fun name => ?_
      exact sim.edit h h' _ (Database.ignoresCreation_of fun _ _ =>
        Database.dropTable_withCreation ..)
  | delete table filter =>
    exact sim.editSelected (QuerySpec.ofDelete table filter) fun q =>
      Database.ignoresCreation_of_count (Database.ignoresCreation_delete q)
  | update table assignments filter =>
    exact sim.editSelected (QuerySpec.ofUpdate table assignments filter) fun q =>
      Database.ignoresCreation_of_count (Database.ignoresCreation_update q)

theorem execute (raw : String) :
    Relates R (execute raw) (execute raw) (fun a b p q => O a b ∧ R p q) R := by
  unfold Session.execute
  cases hparse : Statement.parse raw with
  | ok st => exact sim.dispatch (Statement.databaseName_of_parse hparse)
  | error cause => exact Relates.throw fun _ _ h => h

/-! ### Batches -/

/-- **Both runs of a batch go on as long as the other one does.** -/
theorem runStatements (batch : List String) {results results' : List Outcome}
    (hresults : List.Forall₂ O results results') {p q : Interpreter × Session} (hR : R p q) :
    AnsweredAlike O (exec (runStatements results batch) p).1
        (exec (runStatements results' batch) q).1 ∧
      R (exec (runStatements results batch) p).2 (exec (runStatements results' batch) q).2 := by
  induction batch generalizing results results' p q with
  | nil => exact ⟨⟨rfl, hresults, rfl⟩, hR⟩
  | cons raw rest ih =>
    have hraw := sim.execute raw p q hR
    rw [World.exec_runStatements_cons, World.exec_runStatements_cons]
    rcases hp : exec (Session.execute raw) p with ⟨err | a, p'⟩ <;>
      rcases hq : exec (Session.execute raw) q with ⟨err' | b, q'⟩ <;> rw [hp, hq] at hraw
    · obtain ⟨rfl, hR'⟩ := hraw
      exact ⟨.stopped hresults err, hR'⟩
    · exact hraw.elim
    · exact hraw.elim
    · obtain ⟨hO, hR'⟩ := hraw
      exact ih (List.rel_append hresults (.cons hO .nil)) hR'

end Simulation

end Session

end Tabular
