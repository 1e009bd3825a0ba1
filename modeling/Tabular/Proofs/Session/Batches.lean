import Mathlib.Control.Monad.Basic
import Tabular.Proofs.Session.World
import Tabular.Proofs.Text.Splitting

/-!
Batches one after another.

A body whose literals are all closed can be continued after a semicolon: what follows is cut into
statements as if it stood alone (`splitBatch_append`). Main statement: the batch of both bodies is
the batch of the first one and, if that succeeds, the batch of the second one from the state that
the first one has reached, and every response accounts for the statements that were run
(`runBatch_append`).
-/

namespace Tabular

open Tabular.Text

/-! ### Cutting two bodies -/

/-- **A body that leaves no literal open does not change how another one is cut.** -/
theorem splitBatch_append {b₁ : String} (closed : Closed b₁.toList) (b₂ : String) :
    splitBatch (b₁ ++ ";" ++ b₂) = splitBatch b₁ ++ splitBatch b₂ := by
  have htext : (b₁ ++ ";" ++ b₂).toList = b₁.toList ++ statementSeparator :: b₂.toList := by
    rw [String.toList_append, String.toList_append, List.append_assoc]
    rfl
  have hsplit : splitOutside statementSeparator (b₁.toList ++ statementSeparator :: b₂.toList) =
      splitOutside statementSeparator b₁.toList ++ splitOutside statementSeparator b₂.toList :=
    splitFrom_append_separator (by decide) closed b₂.toList
  unfold splitBatch
  rw [htext, hsplit, List.map_append]

/-! ### Responses -/

namespace BatchResponse

/-- A response accounts for the statements that were run: it is a success or tells a failure, and
the statement that failed is the one after those that have a result. -/
structure Accounts (r : BatchResponse) : Prop where
  status_iff : r.status = .ok ↔ r.failure = none
  statement_eq : ∀ f, r.failure = some f → f.statement = r.results.length

/-- The response to `count` statements that succeeded and to further ones. -/
def andThen (first : BatchResponse) (count : Nat) (second : BatchResponse) : BatchResponse :=
  { status := second.status
    results := first.results ++ second.results
    failure := second.failure.map fun f => { f with statement := count + f.statement } }

theorem ok_andThen_ok (results : List Outcome) (count : Nat) (more : List Outcome) :
    (ok results).andThen count (ok more) = ok (results ++ more) := rfl

theorem ok_andThen_failed (results : List Outcome) (count : Nat) (more : List Outcome)
    (statement : Nat) (message : String) :
    (ok results).andThen count (failed more statement message) =
      failed (results ++ more) (count + statement) message := rfl

theorem andThen_andThen (results more : List Outcome) (count further : Nat) (r : BatchResponse) :
    (ok results).andThen count ((ok more).andThen further r) =
      (ok (results ++ more)).andThen (count + further) r := by
  obtain ⟨status, results', failure⟩ := r
  cases failure with
  | none => simp [andThen, ok]
  | some f => simp [andThen, ok, Nat.add_assoc]

theorem accounts_ok (results : List Outcome) : (ok results).Accounts :=
  ⟨⟨fun _ => rfl, fun _ => rfl⟩, nofun⟩

theorem accounts_failed (results : List Outcome) (message : String) :
    (failed results results.length message).Accounts := by
  refine ⟨⟨nofun, nofun⟩, ?_⟩
  rintro f ⟨⟩
  rfl

end BatchResponse

/-! ### Running two lists of statements -/

namespace Session

variable {results : List Outcome} {p : Interpreter × Session}

section

variable [PatternCompiler]

theorem accounts_runStatements (batch : List String) {r : BatchResponse}
    (h : (exec (runStatements results batch) p).1 = .ok r) : r.Accounts := by
  induction batch generalizing results p with
  | nil =>
    obtain rfl := Except.ok.inj h
    exact BatchResponse.accounts_ok results
  | cons raw rest ih =>
    rw [World.exec_runStatements_cons] at h
    rcases hexec : exec (execute raw) p with ⟨err | outcome, p'⟩ <;> rw [hexec] at h
    · dsimp only at h
      unfold stopped at h
      split at h
      · exact nomatch h
      · obtain rfl := Except.ok.inj h
        exact BatchResponse.accounts_failed results err.message
    · exact ih h

/-- The results so far come before those of the statements to come, and are counted. -/
theorem exec_runStatements (results : List Outcome) (batch : List String)
    (p : Interpreter × Session) :
    exec (runStatements results batch) p =
      ((exec (runStatements [] batch) p).1.map
          ((BatchResponse.ok results).andThen results.length ·),
        (exec (runStatements [] batch) p).2) := by
  induction batch generalizing results p with
  | nil =>
    change (Except.ok (BatchResponse.ok results), p) =
      (Except.ok ((BatchResponse.ok results).andThen results.length (.ok [])), p)
    rw [BatchResponse.ok_andThen_ok, List.append_nil]
  | cons raw rest ih =>
    rw [World.exec_runStatements_cons, World.exec_runStatements_cons]
    rcases exec (execute raw) p with ⟨err | outcome, p'⟩
    · dsimp only
      unfold stopped
      cases err.panic? with
      | some panic => rfl
      | none =>
        change (Except.ok (BatchResponse.failed _ _ _), p') =
          (Except.ok ((BatchResponse.ok results).andThen results.length (.failed [] 0 _)), p')
        rw [BatchResponse.ok_andThen_failed, List.append_nil]
        rfl
    · dsimp only
      rw [ih (results ++ [outcome]), ih ([] ++ [outcome])]
      cases (exec (runStatements [] rest) p').1 with
      | error panic => rfl
      | ok r =>
        change (Except.ok _, _) =
          (Except.ok (BatchResponse.andThen _ _ (BatchResponse.andThen ..)), _)
        rw [BatchResponse.andThen_andThen]
        simp

/-- A batch that succeeds has a result for each statement. -/
theorem exec_runStatements_of_isOk {batch : List String} {r : BatchResponse}
    {q : Interpreter × Session} (h : exec (runStatements results batch) p = (.ok r, q))
    (hok : r.isOk = true) :
    ∃ more, r = .ok (results ++ more) ∧ more.length = batch.length := by
  induction batch generalizing results p with
  | nil =>
    obtain ⟨hr, -⟩ := Prod.mk.inj h
    obtain rfl := Except.ok.inj hr
    exact ⟨[], congrArg BatchResponse.ok (List.append_nil results).symm, rfl⟩
  | cons raw rest ih =>
    rw [World.exec_runStatements_cons] at h
    rcases hexec : exec (execute raw) p with ⟨err | outcome, p'⟩ <;> rw [hexec] at h
    · dsimp only at h
      unfold stopped at h
      split at h
      · exact nomatch h
      · obtain ⟨hr, -⟩ := Prod.mk.inj h
        obtain rfl := Except.ok.inj hr
        exact absurd hok (by simp [BatchResponse.isOk, BatchResponse.failed])
    · obtain ⟨more, rfl, hlength⟩ := ih h
      exact ⟨outcome :: more, by simp, by simp [hlength]⟩

/-- Statements after others run where those end, unless one of those fails. -/
theorem exec_runStatements_append (results : List Outcome) (batch batch' : List String)
    (p : Interpreter × Session) :
    exec (runStatements results (batch ++ batch')) p =
      match exec (runStatements results batch) p with
      | (.ok r, q) =>
        if r.isOk = true then exec (runStatements r.results batch') q else (.ok r, q)
      | (.error panic, q) => (.error panic, q) := by
  induction batch generalizing results p with
  | nil => rfl
  | cons raw rest ih =>
    rw [List.cons_append, World.exec_runStatements_cons, World.exec_runStatements_cons]
    rcases exec (execute raw) p with ⟨err | outcome, p'⟩
    · dsimp only
      unfold stopped
      cases err.panic? with
      | some panic => rfl
      | none => rfl
    · exact ih (results ++ [outcome]) p'

/-- **Two bodies run as one batch exactly as they run one after the other**, provided that the first
one leaves no literal open: if it fails, that is all, and otherwise the second one runs from the
state reached, its results come after those of the first one, and a statement of it that fails is
counted from the start of both. Every response accounts for the statements that were run. -/
theorem runBatch_append :
    (∀ b₁ b₂ : String, Closed b₁.toList →
      runBatch (b₁ ++ ";" ++ b₂) = do
        let first ← runBatch b₁
        if first.isOk then
          let second ← runBatch b₂
          return first.andThen (splitBatch b₁).length second
        else return first) ∧
      ∀ body p r, (exec (runBatch body) p).1 = .ok r → r.Accounts := by
  refine ⟨fun b₁ b₂ closed => exec_ext fun p => ?_, fun body p r h => ?_⟩
  · rw [exec_bind]
    unfold runBatch
    rw [splitBatch_append closed, exec_runStatements_append]
    rcases hfirst : exec (runStatements [] (splitBatch b₁)) p with ⟨panic | r, q⟩
    · rfl
    · dsimp only
      by_cases hok : r.isOk = true
      · obtain ⟨more, rfl, hlength⟩ := exec_runStatements_of_isOk hfirst hok
        rw [if_pos hok, if_pos hok, exec_bind, exec_runStatements, ← hlength]
        rcases exec (runStatements [] (splitBatch b₂)) q with ⟨panic | second, q'⟩
        · rfl
        · rfl
      · rw [if_neg hok, if_neg hok]
        rfl
  · exact accounts_runStatements _ h

end

theorem runBatch_append_of_quoted_separator :
    Closed "CREATE DATABASE a;INIT a;CREATE TABLE t (x);INSERT t 'it\\'s; b'".toList ∧
      runBatch ("CREATE DATABASE a;INIT a;CREATE TABLE t (x);INSERT t 'it\\'s; b'" ++ ";" ++
          "SHOW LIKE 'b;';FIND y FROM t") = (do
        let first ← runBatch "CREATE DATABASE a;INIT a;CREATE TABLE t (x);INSERT t 'it\\'s; b'"
        if first.isOk then
          let second ← runBatch "SHOW LIKE 'b;';FIND y FROM t"
          return first.andThen 4 second
        else return first) ∧
      (exec (runBatch ("CREATE DATABASE a;INIT a;CREATE TABLE t (x);INSERT t 'it\\'s; b'" ++ ";" ++
          "SHOW LIKE 'b;';FIND y FROM t"))
        (Interpreter.new (Engine.new none Folder.empty Timestamp.epoch), Session.new)).1 =
        .ok (.failed [.message "Database a created.", .message "Using database: a",
          .message "Table t created.", .affected 1, .rows []] 5
          "Column y doesn't exist in table t.") := by
  have closed :
      Closed "CREATE DATABASE a;INIT a;CREATE TABLE t (x);INSERT t 'it\\'s; b'".toList := by decide
  have hcount : (splitBatch
      "CREATE DATABASE a;INIT a;CREATE TABLE t (x);INSERT t 'it\\'s; b'").length = 4 := by
    decide +kernel
  refine ⟨closed, ?_, by decide +kernel⟩
  rw [← hcount]
  exact runBatch_append.1 _ _ closed

end Session

end Tabular
