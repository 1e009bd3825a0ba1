import Tabular.Statement.Grammar

/-!
Reading a statement.

`Statement.parse` takes the leading word of a text as the verb and reads the whole text by that
verb's grammar. A text without a leading word, an unknown word and a text that the grammar does not
cover are three different errors; the last one tells where the grammar stopped. A reading that
breaks is a fourth one. `splitBatch` cuts a request body into its statements.
-/

namespace Tabular

open Tabular.Text

/-- The verb of a keyword in any ASCII letter case; `LS` is another word for `DESCRIBE`. -/
def Verb.ofKeyword? (word : String) : Option Verb :=
  match String.ofList (upperAscii word.toList) with
  | "INIT" => some .init
  | "CREATE" => some .create
  | "INSERT" => some .insert
  | "FIND" => some .find
  | "DESCRIBE" => some .describe
  | "LS" => some .describe
  | "SHOW" => some .show
  | "DROP" => some .drop
  | "DELETE" => some .delete
  | "UPDATE" => some .update
  | _ => none

/-- Why a text is no statement. -/
inductive ParseError where
  /-- The text has no leading word. -/
  | empty
  /-- The leading word is no verb. -/
  | unknownVerb (word : String)
  /-- The grammar of the verb stopped at a byte position, in front of `near`. -/
  | noMatch (verb : Verb) (position : Nat) (near : String)
  /-- The reading broke, because a keyword would have ended inside a character. This is a panic. -/
  | splitCharacter
  deriving DecidableEq, Repr

/-- The separator between the statements of a batch. -/
def statementSeparator : Char := ';'

/-- Cuts a request body into its statements. Empty statements are kept. -/
def splitBatch (body : String) : List String :=
  (splitOutside statementSeparator body.toList).map String.ofList

/-- The number of characters that an error message quotes. -/
def snippetLength : Nat := 24

/-- The part of an unread text that an error message quotes. -/
def snippet (rest : List Char) : String :=
  if rest = [] then "<end>" else String.ofList (rest.take snippetLength)

/-- Reads a trimmed text by the grammar of a verb, up to its end. -/
def Statement.parseAs (verb : Verb) (s : List Char) : Except ParseError Statement :=
  match (do let st ← Grammar.ofVerb verb; Reader.atEnd; return st : Reader Statement) s with
  | .found st _ => .ok st
  | .stuck rest => .error (.noMatch verb (byteLength s - byteLength rest) (snippet rest))
  | .broken => .error .splitCharacter

/-- Reads one statement. -/
def Statement.parse (input : String) : Except ParseError Statement :=
  let s := trim input.toList
  match s.takeWhile isWordChar with
  | [] => .error .empty
  | word =>
    match Verb.ofKeyword? (String.ofList word) with
    | none => .error (.unknownVerb (String.ofList word))
    | some verb => Statement.parseAs verb s

end Tabular
