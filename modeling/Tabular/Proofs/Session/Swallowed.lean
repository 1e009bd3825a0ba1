import Tabular.Proofs.Session.Batches
import Tabular.Proofs.Statement.Captured

/-!
Statements in a batch.

A grammar takes over some texts as they stand, and the splitter of a batch takes every quote in them
for one that opens or closes a literal: in a name between backticks, in a bare value, in parameters
or values without parentheses, in assignments. Main statement: a statement in front of another one
is a statement of the batch exactly if the texts that it takes over leave no literal open; otherwise
the two are one (`Session.splitBatch_of_parse`).
-/

namespace Tabular

open Tabular.Text

/-- Behind a text that leaves a literal open the separator does not count. -/
theorem splitBatch_of_not_closed {s₁ s₂ : String} (open₁ : ¬Closed s₁.toList)
    (h₁ : ';' ∉ s₁.toList) (h₂ : ';' ∉ s₂.toList) :
    splitBatch (s₁ ++ ";" ++ s₂) = [s₁ ++ ";" ++ s₂] := by
  have htext : (s₁ ++ ";" ++ s₂).toList = s₁.toList ++ ';' :: s₂.toList := by
    rw [String.toList_append, String.toList_append, List.append_assoc]
    rfl
  have hbare : ';' ∉ Scan.outside.bare (s₁.toList ++ ';' :: s₂.toList) := by
    rw [Scan.bare_append, List.mem_append, Scan.bare_cons, if_neg fun h => open₁ h.1]
    rintro (hmem | hmem)
    · exact h₁ (Scan.mem_of_mem_bare hmem)
    · exact h₂ (Scan.mem_of_mem_bare hmem)
  have hsplit : splitOutside statementSeparator (s₁.toList ++ ';' :: s₂.toList) =
    [s₁.toList ++ ';' :: s₂.toList] := splitOutside_of_not_mem hbare
  unfold splitBatch
  rw [htext, hsplit, ← htext, List.map_singleton, String.ofList_toList]

theorem splitBatch_of_not_mem {s : String} (h : ';' ∉ s.toList) : splitBatch s = [s] := by
  have hsplit : splitOutside statementSeparator s.toList = [s.toList] :=
    splitOutside_of_not_mem fun hmem => h (Scan.mem_of_mem_bare hmem)
  unfold splitBatch
  rw [hsplit, List.map_singleton, String.ofList_toList]

namespace Session

/-- **A statement swallows the next one of its batch exactly if the texts that it takes over leave a
literal open.** -/
theorem splitBatch_of_parse [PatternCompiler] {s₁ s₂ : String} {st : Statement}
    (parsed : Statement.parse s₁ = .ok st)
    (h₁ : ';' ∉ s₁.toList) (h₂ : ';' ∉ s₂.toList) :
    splitBatch (s₁ ++ ";" ++ s₂) =
        (if Closed (spread st.captured) then [s₁, s₂] else [s₁ ++ ";" ++ s₂]) ∧
      runBatch (s₁ ++ ";" ++ s₂) =
        runStatements [] (if Closed (spread st.captured) then [s₁, s₂] else [s₁ ++ ";" ++ s₂]) := by
  have hsplit : splitBatch (s₁ ++ ";" ++ s₂) =
      if Closed (spread st.captured) then [s₁, s₂] else [s₁ ++ ";" ++ s₂] := by
    have hclosed := (Statement.plainBut_of_parse parsed).closed_iff
    split
    · next h =>
      rw [splitBatch_append (hclosed.2 h), splitBatch_of_not_mem h₁, splitBatch_of_not_mem h₂]
      rfl
    · next h => exact splitBatch_of_not_closed (mt hclosed.1 h) h₁ h₂
  refine ⟨hsplit, ?_⟩
  unfold runBatch
  rw [hsplit]

theorem splitBatch_of_quotes_in_pairs :
    Statement.parse "FIND * FROM t WHERE \x60it's\x60 = it's" =
        .ok (.find {
          distinct := false, columns := "*", table := "t", joins := []
          filter := some { target := .field "it's", operator := .eq, value := some "it's" }
          orderBy := none, direction := none, limit := none, offset := none }) ∧
      ';' ∉ "FIND * FROM t WHERE \x60it's\x60 = it's".toList ∧ ';' ∉ "SHOW".toList ∧
      splitBatch ("FIND * FROM t WHERE \x60it's\x60 = it's" ++ ";" ++ "SHOW") =
        ["FIND * FROM t WHERE \x60it's\x60 = it's", "SHOW"] := by
  have parsed : Statement.parse "FIND * FROM t WHERE \x60it's\x60 = it's" =
      .ok (.find {
        distinct := false, columns := "*", table := "t", joins := []
        filter := some { target := .field "it's", operator := .eq, value := some "it's" }
        orderBy := none, direction := none, limit := none, offset := none }) := by
    decide +kernel
  have h₁ : ';' ∉ "FIND * FROM t WHERE \x60it's\x60 = it's".toList := by decide
  have h₂ : ';' ∉ "SHOW".toList := by decide
  refine ⟨parsed, h₁, h₂, ?_⟩
  rw [(splitBatch_of_parse parsed h₁ h₂).1]
  exact if_pos (by decide +kernel)

/-- A statement with a single quote in the name of a column is read, and still takes the statement
behind it into a literal. -/
theorem not_splitBatch_of_quote_in_backticks :
    ¬∀ s₁ s₂ : String, (Statement.parse s₁).isOk = true → (Statement.parse s₂).isOk = true →
      ';' ∉ s₁.toList → ';' ∉ s₂.toList → splitBatch (s₁ ++ ";" ++ s₂) = [s₁, s₂] := by
  intro claimed
  have hparts := claimed "FIND * FROM t WHERE \x60it's\x60 = 1" "SHOW" (by decide +kernel)
    (by decide +kernel) (by decide) (by decide)
  exact absurd hparts (by decide +kernel)

end Session

end Tabular
