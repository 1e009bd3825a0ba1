import Tabular.Request.OfStatement
import Tabular.Proofs.Statement.Words
import Tabular.Proofs.Text.ValueList

/-!
Insertions with quoted values.

`insertionText` is the text `INSERT INTO t [(c1, …, cm)] VALUES (v1, …, vn)` with each value between
single quotes, its quotes and backslashes escaped. Main statement: whatever the values hold, this
text is one statement of a batch, and the insertion that it stands for has this table, these
columns and exactly these values (`insertion_of_text`).
-/

namespace Tabular

open Tabular.Text Tabular.Token

/-- An insertion as a text. -/
def insertionText (table : String) (columns : Option (List String)) (values : List String) :
    String :=
  " ".intercalate
    ("INSERT" :: "INTO" :: table :: (columns.map inParens).toList ++
      ["VALUES", inParens (values.map quoted)])

/-! ### Groups -/

theorem firm_inParens (items : List String) : Firm (inParens items) := by
  have hend : Tight [')'] := .of_forall (by decide)
  unfold Firm
  rw [toList_inParens]
  exact ⟨List.cons_ne_nil _ _, hend.enclose (by decide) (List.cons_ne_nil _ _)⟩

/-- A list in parentheses that is a group wherever it stands. -/
def IsGroup (items : List String) : Prop :=
  ∀ rest, group? ((inParens items).toList ++ rest) = some ((inParens items).toList, rest)

theorem IsGroup.parenthesizedInner {items : List String} (h : IsGroup items) (rest : List Char) :
    Token.parenthesizedInner ((inParens items).toList ++ rest) =
      .found (", ".intercalate items) rest := by
  have hinner : dropEnds (inParens items).toList = (", ".intercalate items).toList := by
    rw [toList_inParens, String.toList_intercalate]
    simp [dropEnds, commaList]
  change (Reader.ofScanner group? >>= _) _ = _
  rw [Reader.bind_of_found (Reader.ofScanner_of_some (h rest)), Reader.pure_apply, hinner,
    String.ofList_toList]

theorem isGroup_quoted {values : List String} (h : values ≠ []) :
    IsGroup (values.map quoted) := by
  intro rest
  rw [toList_inParens]
  simpa using (writesList_quoted h).group?_append rest

theorem IsWord.not_mem {w : String} (h : IsWord w) {c : Char} (hc : isWordChar c = false) :
    c ∉ w.toList := by
  intro hmem
  rw [h.2 c hmem] at hc
  exact Bool.noConfusion hc

theorem IsWord.isQuote {w : String} (h : IsWord w) : ∀ c ∈ w.toList, isQuote c = false :=
  fun c hc => isQuote_of_isNameChar (h.isIdentifier.2 c hc)

/-- A list of words holds no quotes, and no other signs than commas. -/
theorem not_mem_commaList {columns : List String} (h : ∀ c ∈ columns, IsWord c) {d : Char}
    (hd : isWordChar d = false) (hcomma : d ≠ ',') (hblank : d ≠ ' ') :
    d ∉ commaList (columns.map String.toList) := by
  have hmem : ∀ c ∈ commaList (columns.map String.toList), d ≠ c := by
    refine forall_mem_commaList (fun x hx c hc => ?_) hcomma hblank
    rintro rfl
    obtain ⟨w, hw, rfl⟩ := List.mem_map.1 hx
    exact (h w hw).not_mem hd hc
  exact fun hd' => hmem d hd' rfl

theorem not_quote_commaList {columns : List String} (h : ∀ c ∈ columns, IsWord c) :
    ∀ c ∈ commaList (columns.map String.toList), isQuote c = false := by
  refine forall_mem_commaList (fun x hx c hc => ?_) (by decide) (by decide)
  obtain ⟨w, hw, rfl⟩ := List.mem_map.1 hx
  exact (h w hw).isQuote c hc

theorem isGroup_words {columns : List String} (h : ∀ c ∈ columns, IsWord c) : IsGroup columns := by
  intro rest
  have hquote := not_quote_commaList h
  have hopen := not_mem_commaList h (d := '(') (by decide) (by decide) (by decide)
  have hclose := not_mem_commaList h (d := ')') (by decide) (by decide) (by decide)
  rw [toList_inParens]
  simpa using group?_append (Scan.run_of_no_quotes hquote)
    (fun hmem => hopen (Scan.mem_of_mem_bare hmem))
    (fun hmem => hclose (Scan.mem_of_mem_bare hmem)) rest

/-! ### One statement of a batch -/

/-- A text in which no literal stays open and no semicolon stands outside literals. -/
def Unbroken (s : List Char) : Prop :=
  Closed s ∧ statementSeparator ∉ Scan.outside.bare s

theorem Unbroken.append {s t : List Char} (hs : Unbroken s) (ht : Unbroken t) :
    Unbroken (s ++ t) := by
  refine ⟨hs.1.append ht.1, fun hmem => ?_⟩
  rw [hs.1.bare_append, List.mem_append] at hmem
  exact hmem.elim hs.2 ht.2

theorem Unbroken.of_no_quotes {s : List Char} (hquote : ∀ c ∈ s, isQuote c = false)
    (hsep : statementSeparator ∉ s) : Unbroken s :=
  ⟨Scan.run_of_no_quotes hquote, fun hmem => hsep (Scan.mem_of_mem_bare hmem)⟩

theorem unbroken_word {w : String} (h : IsWord w) : Unbroken w.toList :=
  .of_no_quotes h.isQuote (h.not_mem (by decide))

theorem unbroken_inParens {items : List String}
    (h : Unbroken (commaList (items.map String.toList))) : Unbroken (inParens items).toList := by
  have hopen : Unbroken ['('] := .of_no_quotes (by decide) (by decide)
  have hclose : Unbroken [')'] := .of_no_quotes (by decide) (by decide)
  rw [toList_inParens]
  exact hopen.append (h.append hclose)

theorem unbroken_phrase {words : List String} (h : ∀ w ∈ words, Unbroken w.toList) :
    Unbroken (phrase words) := by
  have hblank : Unbroken [' '] := .of_no_quotes (by decide) (by decide)
  induction words with
  | nil => exact .of_no_quotes nofun nofun
  | cons w words ih =>
    rw [phrase_cons]
    exact hblank.append
      ((h w List.mem_cons_self).append (ih fun v hv => h v (List.mem_cons_of_mem w hv)))

theorem splitBatch_of_unbroken {text : String} (h : Unbroken text.toList) :
    splitBatch text = [text] := by
  unfold splitBatch
  rw [splitOutside_of_not_mem h.2, List.map_singleton, String.ofList_toList]

/-! ### The columns and values of an insertion -/

theorem clean_word {w : String} (h : IsWord w) : clean w.toList = w.toList := by
  have htrim := h.isIdentifier.firm.2.trim_eq
  obtain ⟨c, s, hw⟩ := List.exists_cons_of_ne_nil h.1
  have hquote : isQuote c = false := h.isQuote c (hw ▸ List.mem_cons_self)
  unfold clean
  rw [htrim, hw]
  simp [hquote]

/-- The names of a column list are the columns that were written. -/
theorem columns_of_text {columns : List String} (hne : columns ≠ []) (h : ∀ c ∈ columns, IsWord c) :
    ((Request.columnNames (Grammar.trimmed (", ".intercalate columns))).map
        fun c => Request.value c.toList).filter (· != "") = columns := by
  have htight : ∀ x ∈ columns.map String.toList, x ≠ [] ∧ Tight x := by
    intro x hx
    obtain ⟨c, hc, rfl⟩ := List.mem_map.1 hx
    exact (h c hc).isIdentifier.firm
  have htrimmed : Grammar.trimmed (", ".intercalate columns) = ", ".intercalate columns := by
    have htrim : trim (", ".intercalate columns).toList = (", ".intercalate columns).toList := by
      rw [String.toList_intercalate]
      exact (tight_commaList htight).trim_eq
    unfold Grammar.trimmed
    rw [htrim, String.ofList_toList]
  have hnames : Request.columnNames (", ".intercalate columns) = columns :=
    columnNames_intercalate hne fun c hc =>
      ⟨(h c hc).isIdentifier.firm.2, (h c hc).not_mem (by decide)⟩
  have hvalue : ∀ c ∈ columns, Request.value c.toList = c := by
    intro c hc
    unfold Request.value
    rw [clean_word (h c hc), String.ofList_toList]
  rw [htrimmed, hnames, (List.map_congr_left hvalue).trans (List.map_id' columns)]
  refine List.filter_eq_self.2 fun c hc => bne_iff_ne.2 ?_
  rintro rfl
  exact (h "" hc).1 rfl

/-- The texts of an insertion that has values, as its clauses hold them, describe it. -/
theorem InsertSpec.ofStatement_of_text {columns : Option (List String)}
    (hcolumns : ∀ cs, columns = some cs → cs ≠ [] ∧ ∀ c ∈ cs, IsWord c) {values : List String}
    (hvalues : values ≠ []) (table : String) :
    InsertSpec.ofStatement table (columns.map fun cs => Grammar.trimmed (", ".intercalate cs))
        (.clause (", ".intercalate (values.map quoted))) =
      .ok { table, columns, values } := by
  have hinserted := (writesList_quoted hvalues).insertedValues_eq
  rw [ofList_commaList] at hinserted
  obtain ⟨v, vs, rfl⟩ := List.exists_cons_of_ne_nil hvalues
  unfold InsertSpec.ofStatement
  dsimp only
  rw [hinserted]
  cases columns with
  | none => rfl
  | some cs =>
    obtain ⟨hne, hwords⟩ := hcolumns cs rfl
    simp only [Option.map_some, columns_of_text hne hwords]
    rfl

/-! ### Reading an insertion -/

section Reading

variable {values : List String} (hvalues : values ≠ [])

theorem spells_insert : Spells "INSERT" "INSERT" := by decide

theorem spells_into : Spells "INTO" "INTO" := by decide

theorem spells_values : Spells "VALUES" "VALUES" := by decide

theorem into_phrase {w : String} (h : Firm w) {words : List String} :
    (Reader.optional (do let _ ← keyword "INTO"; gap1)) ("INTO".toList ++ phrase (w :: words)) =
      .found (some ()) (w.toList ++ phrase words) := by
  refine Reader.optional_of_found ?_
  rw [Reader.bind_of_found (keyword_phrase spells_into)]
  exact gap1_phrase h

include hvalues in
theorem namedValues_phrase {columns : List String} (h : ∀ c ∈ columns, IsWord c) :
    Grammar.namedValues (phrase [inParens columns, "VALUES", inParens (values.map quoted)]) =
      .found (some (", ".intercalate columns), .clause (", ".intercalate (values.map quoted)))
        [] := by
  unfold Grammar.namedValues
  rw [Reader.bind_of_found (gap_phrase (firm_inParens columns)),
    Reader.bind_of_found ((isGroup_words h).parenthesizedInner _),
    Reader.bind_of_found (gap_phrase spells_values.firm),
    Reader.bind_of_found (keyword_phrase spells_values),
    Reader.bind_of_found (gap_phrase (firm_inParens _)),
    Reader.bind_of_found ((isGroup_quoted hvalues).parenthesizedInner _)]
  rfl

/-- A keyword is no group, so without a column list the clause is read for itself. -/
theorem namedValues_fails (words : List String) :
    Grammar.namedValues.Fails (phrase ("VALUES" :: words)) := by
  have hgroup : (Reader.ofScanner group?).Fails ("VALUES".toList ++ phrase words) := ⟨_, rfl⟩
  have hinner : Token.parenthesizedInner.Fails ("VALUES".toList ++ phrase words) := hgroup.bind _
  exact .bind_of_found (gap_phrase spells_values.firm) (hinner.bind _)

include hvalues in
theorem clauseValues_phrase :
    Grammar.clauseValues (phrase ["VALUES", inParens (values.map quoted)]) =
      .found (none, .clause (", ".intercalate (values.map quoted))) [] := by
  unfold Grammar.clauseValues
  rw [Reader.bind_of_found (gap1_phrase spells_values.firm),
    Reader.bind_of_found (keyword_phrase spells_values),
    Reader.bind_of_found (gap_phrase (firm_inParens _)),
    Reader.bind_of_found ((isGroup_quoted hvalues).parenthesizedInner _)]
  rfl

include hvalues in
/-- What follows the table is read as the columns, if there are any, and the values. -/
theorem insertedParts_phrase {columns : Option (List String)}
    (h : ∀ cs, columns = some cs → ∀ c ∈ cs, IsWord c) :
    (Grammar.namedValues <|> Grammar.clauseValues <|> Grammar.bareValues)
        (phrase ((columns.map inParens).toList ++ ["VALUES", inParens (values.map quoted)])) =
      .found (columns.map (", ".intercalate ·), .clause (", ".intercalate (values.map quoted)))
        [] := by
  cases columns with
  | some cs => exact Reader.orElse_of_found (namedValues_phrase hvalues (h cs rfl))
  | none =>
    exact (namedValues_fails _).orElse_eq.trans
      (Reader.orElse_of_found (clauseValues_phrase hvalues))

include hvalues in
theorem insert_phrase {table : String} (htable : IsWord table) {columns : Option (List String)}
    (h : ∀ cs, columns = some cs → ∀ c ∈ cs, IsWord c) :
    Grammar.insert ("INSERT".toList ++ phrase ("INTO" :: table ::
        ((columns.map inParens).toList ++ ["VALUES", inParens (values.map quoted)]))) =
      .found (.insert table (columns.map fun cs => Grammar.trimmed (", ".intercalate cs))
        (.clause (", ".intercalate (values.map quoted)))) [] := by
  unfold Grammar.insert
  rw [Reader.bind_of_found (keyword_phrase spells_insert),
    Reader.bind_of_found (gap1_phrase spells_into.firm),
    Reader.bind_of_found (into_phrase htable.isIdentifier.firm),
    Reader.bind_of_found (identifier_phrase htable.isIdentifier),
    Reader.bind_of_found (insertedParts_phrase hvalues h)]
  cases columns <;> rfl

end Reading

/-- The words of an insertion are firm, and none of them breaks the statement. -/
theorem firm_and_unbroken_of_mem {table : String} (htable : IsWord table)
    {columns : Option (List String)} (h : ∀ cs, columns = some cs → ∀ c ∈ cs, IsWord c)
    {values : List String} (hvalues : values ≠ []) :
    ∀ w ∈ "INTO" :: table :: ((columns.map inParens).toList ++
      ["VALUES", inParens (values.map quoted)]), Firm w ∧ Unbroken w.toList := by
  have hkeyword : ∀ {kw}, Spells kw kw → Firm kw ∧ Unbroken kw.toList := fun hkw =>
    ⟨hkw.firm, unbroken_word hkw.isWord⟩
  intro w hw
  rw [List.mem_cons, List.mem_cons, List.mem_append, Option.mem_toList, List.mem_pair] at hw
  rcases hw with rfl | rfl | hw | rfl | rfl
  · exact hkeyword spells_into
  · exact ⟨htable.isIdentifier.firm, unbroken_word htable⟩
  · obtain ⟨cs, hcs, rfl⟩ := Option.map_eq_some_iff.1 hw
    refine ⟨firm_inParens cs, unbroken_inParens (.of_no_quotes ?_ ?_)⟩
    · exact not_quote_commaList (h cs hcs)
    · exact not_mem_commaList (h cs hcs) (by decide) (by decide) (by decide)
  · exact hkeyword spells_values
  · obtain ⟨hclosed, hbare⟩ := (writesList_quoted hvalues).closed_and_bare
    refine ⟨firm_inParens _, unbroken_inParens ⟨hclosed, fun hmem => ?_⟩⟩
    exact absurd (hbare _ hmem) (by decide)

/-- **The values of an insertion survive whatever they hold.** The text of an insertion is one
statement of a batch, it is read as an insertion, and the request made of this has the table, the
columns and exactly the values that were written. -/
theorem insertion_of_text {table : String} (htable : IsWord table)
    {columns : Option (List String)}
    (hcolumns : ∀ cs, columns = some cs → cs ≠ [] ∧ ∀ c ∈ cs, IsWord c)
    {values : List String} (hvalues : values ≠ []) :
    splitBatch (insertionText table columns values) = [insertionText table columns values] ∧
      ∃ table' columns' values',
        Statement.parse (insertionText table columns values) =
          .ok (.insert table' columns' values') ∧
        InsertSpec.ofStatement table' columns' values' = .ok { table, columns, values } := by
  have hwords := firm_and_unbroken_of_mem htable (fun cs hcs => (hcolumns cs hcs).2) hvalues
  have hread := insert_phrase hvalues htable fun cs hcs => (hcolumns cs hcs).2
  constructor
  · refine splitBatch_of_unbroken ?_
    unfold insertionText
    rw [List.cons_append, toList_intercalate_cons]
    exact (unbroken_word spells_insert.isWord).append
      (unbroken_phrase fun w hw => (hwords w hw).2)
  · refine ⟨_, _, _, ?_, InsertSpec.ofStatement_of_text hcolumns hvalues table⟩
    exact Statement.parse_words spells_insert rfl (fun w hw => (hwords w hw).1) hread

theorem insertion_of_text_with_quotes :
    IsWord "t_1" ∧
      splitBatch (insertionText "t_1" (some ["id", "name"]) ["", "it's; a, (test)\\"]) =
        ["INSERT INTO t_1 (id, name) VALUES ('', 'it\\'s; a, (test)\\\\')"] ∧
      ∃ table columns values,
        Statement.parse (insertionText "t_1" (some ["id", "name"]) ["", "it's; a, (test)\\"]) =
          .ok (.insert table columns values) ∧
        InsertSpec.ofStatement table columns values =
          .ok { table := "t_1", columns := some ["id", "name"]
                values := ["", "it's; a, (test)\\"] } := by
  have htable : IsWord "t_1" := by decide
  have hcolumns : ∀ cs, some ["id", "name"] = some cs → cs ≠ [] ∧ ∀ c ∈ cs, IsWord c := by
    rintro cs ⟨⟩
    decide
  have hvalues : ["", "it's; a, (test)\\"] ≠ [] := by decide
  have htext : insertionText "t_1" (some ["id", "name"]) ["", "it's; a, (test)\\"] =
      "INSERT INTO t_1 (id, name) VALUES ('', 'it\\'s; a, (test)\\\\')" := by decide +kernel
  obtain ⟨hsplit, hparse⟩ := insertion_of_text htable hcolumns hvalues
  exact ⟨htable, hsplit.trans (by rw [htext]), hparse⟩

end Tabular
