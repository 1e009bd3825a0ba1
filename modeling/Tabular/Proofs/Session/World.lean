import Tabular.Proofs.Execution

/-!
Runs of an interpreter with many clients.

A `World` is one interpreter with a session for each client. What happens to it is a sequence of
steps: a client has a statement executed, the saving that follows the batch of a client takes place,
or the process ends and a new one starts over the same folder. Requests are no steps of their own:
every sequence of requests and restarts is a run of steps (`run_steps`), so what holds of every
run of steps holds of every sequence of requests, and at every point inside of one as well.

`Along` states a property of every step of a run in the world in which it is taken.
-/

namespace Tabular

/-- An interpreter and the sessions of its clients. -/
structure World where
  interpreter : Interpreter
  session : Nat → Session

/-- What happens to a world. -/
inductive Step where
  /-- A client's statement is executed. -/
  | statement (client : Nat) (text : String)
  /-- A client's selected database and the catalog are saved. -/
  | save (client : Nat)
  /-- The process ends, and another one starts over the same folder at another time. -/
  | restart (clock : Timestamp)
  deriving DecidableEq

/-- The statement of a step, if its text is one. -/
def Step.statement? : Step → Option Statement
  | .statement _ text => (Statement.parse text).toOption
  | _ => none

theorem Step.exists_of_statement? {step : Step} {st : Statement} (h : step.statement? = some st) :
    ∃ client text, step = .statement client text ∧ Statement.parse text = .ok st := by
  cases step with
  | statement client text =>
    refine ⟨client, text, rfl, ?_⟩
    cases hp : Statement.parse text with
    | error cause => simp [Step.statement?, hp, Except.toOption] at h
    | ok st' =>
      simp only [Step.statement?, hp, Except.toOption, Option.some.injEq] at h
      rw [h]
  | save client => simp [Step.statement?] at h
  | restart clock => simp [Step.statement?] at h

theorem Step.statement?_of_parse {client : Nat} {text : String} {st : Statement}
    (h : Statement.parse text = .ok st) : (Step.statement client text).statement? = some st := by
  simp [Step.statement?, h, Except.toOption]

namespace World

variable {α : Type}

/-- A new process: nothing is selected and the catalog is not open. -/
def start (e : Engine) : World :=
  { interpreter := Interpreter.new e, session := fun _ => Session.new }

/-- The engine of a world. -/
def engine (w : World) : Engine := w.interpreter.engine

/-- What an operation of a client sees: the interpreter and the client's session. -/
def view (w : World) (client : Nat) : Interpreter × Session := (w.interpreter, w.session client)

/-- The world in which a client sees something else. -/
def withView (w : World) (client : Nat) (p : Interpreter × Session) : World :=
  { interpreter := p.1, session := fun c => if c = client then p.2 else w.session c }

theorem session_withView (w : World) (client : Nat) (p : Interpreter × Session) (i : Nat) :
    (w.withView client p).session i = if i = client then p.2 else w.session i := rfl

@[simp] theorem view_withView (w : World) (client : Nat) (p : Interpreter × Session) :
    (w.withView client p).view client = p := by
  simp [view, withView]

@[simp] theorem withView_withView (w : World) (client : Nat) (p q : Interpreter × Session) :
    (w.withView client p).withView client q = w.withView client q := by
  unfold withView
  congr 1
  funext c
  by_cases hc : c = client <;> simp [hc]

@[simp] theorem withView_view (w : World) (client : Nat) :
    w.withView client (w.view client) = w := by
  unfold withView view
  congr 1
  funext c
  by_cases hc : c = client <;> simp [hc]

/-- The world over another folder, as after its own was edited from outside. -/
def withFolder (w : World) (folder : Folder) : World :=
  { w with interpreter := { w.interpreter with engine := { w.engine with folder } } }

/-- The answer to an operation of a client. -/
def answer (w : World) (client : Nat) (act : SessionM α) : Except Error α :=
  (exec act (w.view client)).1

/-- The world after an operation of a client. -/
def afterAct (w : World) (client : Nat) (act : SessionM α) : World :=
  w.withView client (exec act (w.view client)).2

/-- The world of a new process over the same folder. -/
def restarted (w : World) (clock : Timestamp) : World :=
  start (Engine.new w.engine.dataDir w.engine.folder clock)

variable [PatternCompiler]

/-- The world after a step. -/
def after (w : World) : Step → World
  | .statement client text => w.afterAct client (Session.execute text)
  | .save client => w.afterAct client Session.save
  | .restart clock => w.restarted clock

/-- How a step fails, if it does. -/
def error? (w : World) : Step → Option Error
  | .statement client text =>
    match w.answer client (Session.execute text) with
    | .ok _ => none
    | .error err => some err
  | .save client =>
    match w.answer client Session.save with
    | .ok _ => none
    | .error err => some err
  | .restart _ => none

/-- The world after a run. -/
def run (w : World) (steps : List Step) : World := steps.foldl after w

@[simp] theorem run_nil (w : World) : w.run [] = w := rfl

@[simp] theorem run_cons (w : World) (step : Step) (steps : List Step) :
    w.run (step :: steps) = (w.after step).run steps := rfl

theorem run_append (w : World) (steps steps' : List Step) :
    w.run (steps ++ steps') = (w.run steps).run steps' :=
  List.foldl_append

/-- Running a statement is dispatching what its text says. -/
theorem exec_execute {text : String} {st : Statement} (h : Statement.parse text = .ok st)
    (p : Interpreter × Session) :
    exec (Session.execute text) p = exec (Session.dispatch st) p := by
  unfold Session.execute
  rw [h]

/-- A text that says nothing is refused, and nothing else happens. -/
theorem exec_execute_of_error {text : String} {cause : ParseError}
    (h : Statement.parse text = .error cause) (p : Interpreter × Session) :
    exec (Session.execute text) p = (.error (.parse cause), p) := by
  unfold Session.execute
  rw [h]
  rfl

variable {w : World}

theorem error?_eq_none_iff {client : Nat} {text : String} :
    w.error? (.statement client text) = none ↔
      (exec (Session.execute text) (w.view client)).1.isOk = true := by
  unfold error? answer
  dsimp only
  cases (exec (Session.execute text) (w.view client)).1 <;> simp [Except.isOk, Except.toBool]

theorem error?_eq_some_iff {client : Nat} {text : String} {err : Error} :
    w.error? (.statement client text) = some err ↔
      (exec (Session.execute text) (w.view client)).1 = .error err := by
  unfold error? answer
  dsimp only
  cases (exec (Session.execute text) (w.view client)).1 <;> simp

/-- **A statement** succeeds or fails, and its client then sees what is ensured for the one or the
other. -/
theorem statement_cases {client : Nat} {text : String} {st : Statement}
    (hparse : Statement.parse text = .ok st) {P : Interpreter × Session → Prop}
    {Q : Outcome → Interpreter × Session → Prop} {E : Error → Interpreter × Session → Prop}
    (h : Ensures P (Session.dispatch st) Q E) (hP : P (w.view client)) :
    (∃ outcome, w.error? (.statement client text) = none ∧
        Q outcome ((w.after (.statement client text)).view client)) ∨
      ∃ err, w.error? (.statement client text) = some err ∧
        E err ((w.after (.statement client text)).view client) := by
  rw [after, afterAct, view_withView, exec_execute hparse]
  obtain ⟨outcome, hok, hQ⟩ | ⟨err, herr, hE⟩ := h.cases hP
  · refine .inl ⟨outcome, ?_, hQ⟩
    rw [error?_eq_none_iff, exec_execute hparse, hok]
    rfl
  · refine .inr ⟨err, ?_, hE⟩
    rw [error?_eq_some_iff, exec_execute hparse, herr]

/-! ### Properties along a run -/

/-- A property of every step of a run, in the world in which the step is taken. -/
def Along (P : World → Step → Prop) : World → List Step → Prop
  | _, [] => True
  | w, step :: steps => P w step ∧ Along P (w.after step) steps

variable {P Q : World → Step → Prop}

theorem along_append {w : World} {steps steps' : List Step} :
    Along P w (steps ++ steps') ↔ Along P w steps ∧ Along P (w.run steps) steps' := by
  induction steps generalizing w with
  | nil => simp [Along]
  | cons step steps ih =>
    rw [List.cons_append, Along, Along, ih, run_cons]
    exact and_assoc.symm

instance decidableAlong [∀ w s, Decidable (P w s)] :
    ∀ (w : World) (steps : List Step), Decidable (Along P w steps)
  | _, [] => isTrue trivial
  | w, step :: steps =>
    have := decidableAlong (w.after step) steps
    inferInstanceAs (Decidable (P w step ∧ Along P (w.after step) steps))

/-- A property along a run is a property at each of its points. -/
theorem along_iff {w : World} {steps : List Step} :
    Along P w steps ↔
      ∀ before step rest, steps = before ++ step :: rest → P (w.run before) step := by
  constructor
  · rintro h before step rest rfl
    exact (along_append.1 h).2.1
  · intro h
    induction steps generalizing w with
    | nil => trivial
    | cons step steps ih =>
      refine ⟨h [] step steps rfl, ih fun before step' rest hsteps => ?_⟩
      exact h (step :: before) step' rest (by rw [hsteps, List.cons_append])

/-- **The invariant of a run**: what holds at its start and is kept by each of its steps holds at
its end. -/
theorem run_invariant {I : World → Prop} {w : World} {steps : List Step} (start : I w)
    (along : Along P w steps) (step : ∀ w s, I w → P w s → I (w.after s)) : I (w.run steps) := by
  induction steps generalizing w with
  | nil => exact start
  | cons s steps ih => exact ih (step w s start along.1) along.2

/-- No step fails for a reason that lies in the file system. -/
def IoFree (w : World) (step : Step) : Prop :=
  ∀ kind, w.error? step ≠ some (.storage (.io kind))

/-- Whether the file system is the reason of an error. -/
def isIo : Error → Bool
  | .storage (.io _) => true
  | _ => false

theorem ioFree_iff {step : Step} : w.IoFree step ↔ ∀ err ∈ w.error? step, isIo err = false := by
  constructor
  · intro io err herr
    rw [Option.mem_def] at herr
    unfold isIo
    split
    · exact absurd herr (io _)
    · rfl
  · intro h kind hkind
    exact absurd (h _ hkind) (by simp [isIo])

instance (w : World) (step : Step) : Decidable (w.IoFree step) :=
  decidable_of_iff _ ioFree_iff.symm

/-! ### Requests -/

/-- What a process is asked for: a client's request, or to end and start anew. -/
inductive Call where
  | request (client : Nat) (headers : Keyed String) (body : Option String)
  | restart (clock : Timestamp)

/-- The world after a call. -/
def serve (w : World) : Call → World
  | .request client headers body =>
    w.withView client (exec (Session.handleRequest headers body) (w.view client)).2
  | .restart clock => w.restarted clock

/-- What a call comes to: a response or a panic. A restart has neither. -/
def respond (w : World) : Call → Option (Except Panic BatchResponse)
  | .request client headers body =>
    some (exec (Session.handleRequest headers body) (w.view client)).1
  | .restart _ => none

/-- A batch goes on after its first statement where that one succeeds. -/
theorem exec_runStatements_cons (results : List Outcome) (raw : String) (rest : List String)
    (p : Interpreter × Session) :
    exec (Session.runStatements results (raw :: rest)) p =
      match exec (Session.execute raw) p with
      | (.ok outcome, p') => exec (Session.runStatements (results ++ [outcome]) rest) p'
      | (.error err, p') => (Session.stopped results err, p') := by
  rw [Session.runStatements, exec_bind, exec_liftM_run]
  rcases exec (Session.execute raw) p with ⟨err | outcome, p'⟩
  · exact exec_ofExcept _ p'
  · rfl

/-- The steps of a batch: its statements up to the first one that fails. -/
def batchSteps (client : Nat) : World → List String → List Step
  | _, [] => []
  | w, raw :: rest =>
    .statement client raw ::
      match w.error? (.statement client raw) with
      | none => batchSteps client (w.after (.statement client raw)) rest
      | some _ => []

theorem run_batchSteps (client : Nat) (results : List Outcome) (batch : List String) (w : World) :
    w.run (batchSteps client w batch) =
      w.withView client (exec (Session.runStatements results batch) (w.view client)).2 := by
  induction batch generalizing w results with
  | nil => exact (w.withView_view client).symm
  | cons raw rest ih =>
    rw [exec_runStatements_cons, batchSteps, run_cons]
    rcases h : exec (Session.execute raw) (w.view client) with ⟨err | outcome, p⟩
    · have herror : w.error? (.statement client raw) = some err := by simp [error?, answer, h]
      simp [herror, after, afterAct, h]
    · have herror : w.error? (.statement client raw) = none := by simp [error?, answer, h]
      have hafter : w.after (.statement client raw) = w.withView client p := by
        simp [after, afterAct, h]
      rw [herror, hafter]
      dsimp only
      rw [ih (results ++ [outcome]), view_withView, withView_withView]

/-- The statements of a request. -/
def batch (body : Option String) : List String :=
  match body with
  | some body => if body = "" then [] else splitBatch body
  | none => []

theorem runBody_eq (body : Option String) :
    Session.runBody body = Session.runStatements [] (batch body) := by
  cases body with
  | none => rfl
  | some body =>
    unfold Session.runBody batch
    dsimp only
    by_cases hbody : body = ""
    · rw [if_pos hbody, if_pos hbody]
      rfl
    · rw [if_neg hbody, if_neg hbody]
      rfl

/-- A request: its batch first, and then the saving that its headers ask for, if the batch is
answered. -/
theorem exec_handleRequest (headers : Keyed String) (body : Option String)
    (p : Interpreter × Session) :
    exec (Session.handleRequest headers body) p =
      match exec (Session.runStatements [] (batch body)) p with
      | (.ok r, p') =>
        (.ok r, if Session.asksToSave headers = true then (exec Session.save p').2 else p')
      | (.error panic, p') => (.error panic, p') := by
  rw [Session.handleRequest, runBody_eq, exec_bind]
  rcases exec (Session.runStatements [] (batch body)) p with ⟨panic | r, p'⟩
  · rfl
  · dsimp only
    cases Session.asksToSave headers <;> rfl

/-- The result of a request is that of its batch. -/
theorem exec_handleRequest_fst (headers : Keyed String) (body : Option String)
    (p : Interpreter × Session) :
    (exec (Session.handleRequest headers body) p).1 =
      (exec (Session.runStatements [] (batch body)) p).1 := by
  rw [exec_handleRequest]
  rcases exec (Session.runStatements [] (batch body)) p with ⟨panic | r, p'⟩
  · rfl
  · rfl

/-- What a request leaves behind. -/
theorem exec_handleRequest_snd (headers : Keyed String) (body : Option String)
    (p : Interpreter × Session) :
    (exec (Session.handleRequest headers body) p).2 =
      let done := exec (Session.runStatements [] (batch body)) p
      if Session.asksToSave headers = true ∧ done.1.isOk = true then (exec Session.save done.2).2
      else done.2 := by
  rw [exec_handleRequest]
  rcases exec (Session.runStatements [] (batch body)) p with ⟨panic | r, p'⟩
  · exact (if_neg fun h => Bool.false_ne_true h.2).symm
  · simp [Except.isOk, Except.toBool]

/-- A call does not panic. -/
def Answers (w : World) (call : Call) : Prop :=
  ∀ panic, w.respond call ≠ some (.error panic)

theorem answers_iff {client : Nat} {headers : Keyed String} {body : Option String} :
    w.Answers (.request client headers body) ↔
      (exec (Session.runStatements [] (batch body)) (w.view client)).1.isOk = true := by
  simp only [Answers, respond, exec_handleRequest_fst]
  cases (exec (Session.runStatements [] (batch body)) (w.view client)).1 with
  | error panic => simp [Except.isOk, Except.toBool]
  | ok r => simp [Except.isOk, Except.toBool]

instance (client : Nat) (headers : Keyed String) (body : Option String) :
    Decidable (w.Answers (.request client headers body)) :=
  decidable_of_iff _ answers_iff.symm

/-- The steps of a call: the statements of a request and the saving after them. -/
def callSteps (w : World) : Call → List Step
  | .request client headers body =>
    batchSteps client w (batch body) ++
      if Session.asksToSave headers = true ∧
          (exec (Session.runStatements [] (batch body)) (w.view client)).1.isOk = true
        then [.save client]
        else []
  | .restart clock => [.restart clock]

theorem run_callSteps (w : World) (call : Call) : w.run (w.callSteps call) = w.serve call := by
  cases call with
  | restart clock => rfl
  | request client headers body =>
    rw [callSteps, run_append, run_batchSteps client []]
    simp only [serve, exec_handleRequest_snd]
    split
    · simp [after, afterAct]
    · simp

/-- The steps of a sequence of calls. -/
def steps : World → List Call → List Step
  | _, [] => []
  | w, call :: calls => w.callSteps call ++ (w.serve call).steps calls

/-- **Every sequence of calls is a run of steps.** -/
theorem run_steps (w : World) (calls : List Call) :
    w.run (w.steps calls) = calls.foldl serve w := by
  induction calls generalizing w with
  | nil => rfl
  | cons call calls ih => rw [steps, run_append, run_callSteps, ih, List.foldl_cons]

theorem steps_append (w : World) (calls calls' : List Call) :
    w.steps (calls ++ calls') = w.steps calls ++ (calls.foldl serve w).steps calls' := by
  induction calls generalizing w with
  | nil => rfl
  | cons call calls ih =>
    rw [List.cons_append, steps, steps, ih, List.append_assoc, List.foldl_cons]

end World

end Tabular
