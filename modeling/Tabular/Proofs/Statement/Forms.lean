import Tabular.Proofs.Statement.Insertion

/-!
The forms of an insertion without a column list.

The values of such an insertion follow the name of the table as they are, in parentheses, or in a
clause with the keyword `VALUES`. The first two forms are refused where their text holds this
keyword, and literals are no exception. `Mentions` says what it is to hold a keyword: the escapes
and quotes around a value neither add one nor hide one (`containsKeyword_literal`). Main statement:
all three forms are read, the clause describes the insertion of the values, and the other two do so
exactly where no value mentions the keyword (`insertion_of_form`).
-/

namespace Tabular

open Tabular.Text

/-! ### Mentioning a keyword -/

/-- A text holds a keyword, in some ASCII letter case, as a whole word: no character of a word
stands right before or right after it. -/
def Mentions (kw : String) (s : List Char) : Prop :=
  ∃ before w after, s = before ++ w ++ after ∧ sameAscii w kw.toList = true ∧
    (∀ c ∈ before.getLast?, isWordChar c = false) ∧ ∀ c ∈ after.head?, isWordChar c = false

namespace Token

open containsKeyword (wordsOf)

/-- A sign that belongs to no word separates the words before it from those after it. -/
theorem wordsOf_append {c : Char} (hc : isWordChar c = false) (running s t : List Char) :
    wordsOf running (s ++ c :: t) = wordsOf running s ++ wordsOf [] t := by
  induction s generalizing running with
  | nil => simp [wordsOf, hc]
  | cons d s ih =>
    rw [List.cons_append, wordsOf, wordsOf, ih, ih]
    split <;> rfl

theorem wordsOf_of_word {w : List Char} (h : ∀ c ∈ w, isWordChar c = true) (running : List Char) :
    wordsOf running w = [running.reverse ++ w] := by
  induction w generalizing running with
  | nil => simp [wordsOf]
  | cons c w ih =>
    rw [wordsOf, if_pos (h c List.mem_cons_self), ih fun d hd => h d (List.mem_cons_of_mem c hd)]
    simp

/-- The words of a text stand between signs that belong to no word. -/
theorem exists_of_mem_wordsOf {w running s : List Char} (h : w ∈ wordsOf running s) :
    ∃ before after, running.reverse ++ s = before ++ w ++ after ∧
      (∀ c ∈ before.getLast?, isWordChar c = false) ∧
      ∀ c ∈ after.head?, isWordChar c = false := by
  induction s generalizing running with
  | nil =>
    obtain rfl := List.mem_singleton.1 h
    exact ⟨[], [], by simp, nofun, nofun⟩
  | cons c s ih =>
    rw [wordsOf] at h
    split at h
    · obtain ⟨before, after, hs, hbefore, hafter⟩ := ih h
      exact ⟨before, after, by simpa using hs, hbefore, hafter⟩
    · next hc =>
      have hsign : isWordChar c = false := by simpa using hc
      rcases List.mem_cons.1 h with rfl | h
      · refine ⟨[], c :: s, by simp, nofun, ?_⟩
        rintro d ⟨⟩
        exact hsign
      · obtain ⟨before, after, hs, hbefore, hafter⟩ := ih h
        refine ⟨running.reverse ++ c :: before, after, by simpa using hs, fun d hd => ?_, hafter⟩
        rw [List.getLast?_append_of_ne_nil _ (List.cons_ne_nil c before)] at hd
        cases before with
        | nil =>
          obtain rfl := Option.some.inj hd
          exact hsign
        | cons e before => exact hbefore d (by simpa using hd)

variable {kw : String}

/-- **A text contains a keyword exactly where it mentions it.** -/
theorem containsKeyword_iff_mentions (hkw : ∀ c ∈ kw.toList, isAsciiLetter c = true)
    {s : List Char} :
    containsKeyword s kw.toList = true ↔ Mentions kw s := by
  unfold containsKeyword
  rw [List.any_eq_true]
  constructor
  · rintro ⟨w, hw, hsame⟩
    obtain ⟨before, after, hs, hbefore, hafter⟩ := exists_of_mem_wordsOf hw
    exact ⟨before, w, after, hs, hsame, hbefore, hafter⟩
  · rintro ⟨before, w, after, rfl, hsame, hbefore, hafter⟩
    have hword : ∀ c ∈ w, isWordChar c = true := fun c hc =>
      isWordChar_of_isAsciiLetter (isAsciiLetter_of_sameAscii hsame hkw c hc)
    have hlast : w ∈ wordsOf [] (w ++ after) := by
      cases after with
      | nil => simp [wordsOf_of_word hword]
      | cons c after => simp [wordsOf_append (hafter c rfl), wordsOf_of_word hword]
    refine ⟨w, ?_, hsame⟩
    rcases List.eq_nil_or_concat before with rfl | ⟨before, c, rfl⟩
    · exact hlast
    · have hc : isWordChar c = false := hbefore c (by simp)
      simp only [List.concat_eq_append, List.append_assoc, List.cons_append, List.nil_append]
      rw [wordsOf_append hc]
      exact List.mem_append_right _ hlast

theorem containsKeyword_append {c : Char} (hc : isWordChar c = false) (s t kw : List Char) :
    containsKeyword (s ++ c :: t) kw = (containsKeyword s kw || containsKeyword t kw) := by
  unfold containsKeyword
  rw [wordsOf_append hc, List.any_append]

section signs

variable {quote c : Char} {kw : List Char} (hne : kw ≠ [])

include hne

theorem containsKeyword_nil : containsKeyword [] kw = false := by
  cases kw with
  | nil => exact absurd rfl hne
  | cons d kw => rfl

theorem containsKeyword_cons (hc : isWordChar c = false) (s : List Char) :
    containsKeyword (c :: s) kw = containsKeyword s kw := by
  have happend := containsKeyword_append hc [] s kw
  rw [containsKeyword_nil hne, Bool.false_or] at happend
  exact happend

theorem containsKeyword_concat (hc : isWordChar c = false) (s : List Char) :
    containsKeyword (s ++ [c]) kw = containsKeyword s kw := by
  rw [containsKeyword_append hc, containsKeyword_nil hne, Bool.or_false]

/-- The words of an escaped text are the words of the text: an escape puts a backslash between two
words, never into one. -/
theorem any_wordsOf_escape (hquote : isQuote quote = true) (running s : List Char) :
    (wordsOf running (escape quote s)).any (sameAscii · kw) =
      (wordsOf running s).any (sameAscii · kw) := by
  have hempty : sameAscii [] kw = false := by
    cases kw with
    | nil => exact absurd rfl hne
    | cons d kw => rfl
  have hback : isWordChar '\\' = false := by decide +kernel
  induction s generalizing running with
  | nil => rfl
  | cons c s ih =>
    by_cases hc : c = '\\' ∨ c = quote
    · have hsign : isWordChar c = false := by
        rcases hc with rfl | rfl
        · exact hback
        · exact isWordChar_of_isQuote hquote
      rw [escape_cons_of_special s hc]
      simp [wordsOf, hback, hsign, hempty, ih]
    · rw [escape_cons_of_plain s hc, wordsOf, wordsOf]
      split
      · exact ih _
      · rw [List.any_cons, List.any_cons, ih]

/-- **A literal mentions what its value mentions.** -/
theorem containsKeyword_literal (hquote : isQuote quote = true) (value : List Char) :
    containsKeyword (literal quote value) kw = containsKeyword value kw := by
  have hsign := isWordChar_of_isQuote hquote
  unfold literal
  rw [containsKeyword_cons hne hsign, containsKeyword_concat hne hsign]
  exact any_wordsOf_escape hne hquote [] value

/-- **A list mentions what its items mention.** -/
theorem containsKeyword_commaList (items : List (List Char)) :
    containsKeyword (commaList items) kw = items.any (containsKeyword · kw) := by
  have hcomma : isWordChar ',' = false := by decide +kernel
  have hblank : isWordChar ' ' = false := by decide +kernel
  have hitems : ∀ (x : List Char) (items : List (List Char)),
      containsKeyword (x ++ items.flatMap (',' :: ' ' :: ·)) kw =
        (x :: items).any (containsKeyword · kw) := by
    intro x items
    induction items generalizing x with
    | nil => simp
    | cons y items ih =>
      rw [List.flatMap_cons, List.cons_append, containsKeyword_append hcomma, List.cons_append,
        containsKeyword_cons hne hblank, ih y]
      rfl
  cases items with
  | nil => exact containsKeyword_nil hne
  | cons x items => rw [commaList_cons, hitems]

end signs

end Token

open Tabular.Token

instance (s : List Char) : Decidable (Mentions "VALUES" s) :=
  decidable_of_iff (containsKeyword s "VALUES".toList = true)
    (containsKeyword_iff_mentions (by decide))

/-! ### Three forms -/

/-- The ways to write an insertion without a column list. -/
inductive InsertionForm where
  /-- `INSERT t 'a', 'b'` -/
  | bare
  /-- `INSERT INTO t ('a', 'b')` -/
  | group
  /-- `INSERT INTO t VALUES ('a', 'b')` -/
  | clause
  deriving DecidableEq, Repr

/-- An insertion in a form, as a text. -/
def InsertionForm.text (table : String) (values : List String) : InsertionForm → String
  | .bare => " ".intercalate ["INSERT", table, ", ".intercalate (values.map quoted)]
  | .group => " ".intercalate ["INSERT", "INTO", table, inParens (values.map quoted)]
  | .clause => insertionText table none values

/-! ### Reading the forms -/

/-- A word that is another one than a keyword is not read as the keyword. -/
theorem Token.keyword_fails_of_isWord {kw w : String} (hne : kw.toList ≠ [])
    (hkw : ∀ d ∈ kw.toList, isAsciiLetter d = true)
    (hkelvin : ∀ d ∈ kw.toList, keywordChar d ≠ 'K') (hw : IsWord w)
    (hother : sameAscii w.toList kw.toList = false) (words : List String) :
    (keyword kw).Fails (w.toList ++ phrase words) := by
  cases hread : keyword kw (w.toList ++ phrase words) with
  | stuck rest => exact ⟨rest, hread⟩
  | broken => exact absurd hread (keyword_ne_broken hkw hkelvin _)
  | found v rest =>
    obtain ⟨hspells, htext, hrest⟩ := spells_of_keyword hne hkw hkelvin hread
    -- Both are the longest run of word characters that the text starts with.
    have hrun := congrArg (List.takeWhile isWordChar) htext
    rw [Reader.takeWhile_append_of_forall hw.2, Reader.takeWhile_append_of_forall hspells.isWord.2,
      Reader.takeWhile_of_head (head?_phrase_not (by decide) words),
      Reader.takeWhile_of_head hrest, List.append_nil, List.append_nil] at hrun
    rw [hrun, hspells.same] at hother
    exact nomatch hother

/-- A keyword is not read where another character stands. -/
theorem Token.keyword_fails_of_head {c d : Char} {kw : List Char}
    (h : (keywordChar c == keywordChar d) = false) (s : List Char) :
    (keyword (String.ofList (d :: kw))).Fails (c :: s) := by
  refine keyword_fails_of_disagree ?_
  rw [String.toList_ofList]
  change ((keywordChar c == keywordChar d) && agreeAsKeywords s kw) = false
  rw [h, Bool.false_and]

theorem Token.parenthesizedInner_fails {s : List Char} (h : s.head? ≠ some '(') :
    parenthesizedInner.Fails s := by
  have hgroup : (Reader.ofScanner group?).Fails s := by
    refine ⟨s, ?_⟩
    unfold Reader.ofScanner group?
    rw [if_neg h]
  exact hgroup.bind _

namespace Grammar

variable {text : String}

/-- Without parentheses there is no column list. -/
theorem namedValues_fails_of_head (hfirm : Firm text) (h : text.toList.head? ≠ some '(') :
    namedValues.Fails (phrase [text]) := by
  refine .bind_of_found (gap_phrase hfirm) ((parenthesizedInner_fails ?_).bind _)
  rwa [phrase_nil, List.append_nil]

/-- A group that ends the text is no column list. -/
theorem namedValues_fails_of_group {items : List String} (h : IsGroup items) :
    namedValues.Fails (phrase [inParens items]) := by
  have hend : (keyword "VALUES").Fails [] := ⟨[], rfl⟩
  refine .bind_of_found (gap_phrase (firm_inParens items))
    (.bind_of_found (h.parenthesizedInner _) ?_)
  exact .bind_of_found (a := ()) rfl (hend.bind _)

theorem clauseValues_fails {c : Char} (hfirm : Firm text) (hhead : text.toList.head? = some c)
    (h : (keywordChar c == keywordChar 'V') = false) : clauseValues.Fails (phrase [text]) := by
  obtain ⟨d, s, hd⟩ := List.exists_cons_of_ne_nil hfirm.1
  obtain rfl : d = c := by
    rw [hd] at hhead
    exact Option.some.inj hhead
  refine .bind_of_found (gap1_phrase hfirm) ?_
  rw [hd, List.cons_append]
  exact (keyword_fails_of_head h _).bind _

theorem bareValues_phrase (hfirm : Firm text) :
    bareValues (phrase [text]) = .found (none, .bare text) [] := by
  have htrim : trim text.toList = text.toList := hfirm.2.trim_eq
  have hread : spaced nonBlankRemainder (phrase [text]) = .found text [] := by
    unfold spaced
    rw [Reader.bind_of_found (gap1_phrase hfirm), phrase_nil, List.append_nil]
    unfold nonBlankRemainder Reader.accepting Reader.remainder
    dsimp only
    rw [htrim, if_neg hfirm.1, String.ofList_toList]
  unfold bareValues
  rw [Reader.bind_of_found hread, Reader.pure_apply]
  unfold trimmed
  rw [htrim, String.ofList_toList]

/-- What follows the name of the table in each of the forms. -/
theorem insertedParts_bare (hfirm : Firm text)
    (hnamed : namedValues.Fails (phrase [text])) (hclause : clauseValues.Fails (phrase [text])) :
    (namedValues <|> clauseValues <|> bareValues) (phrase [text]) =
      .found (none, .bare text) [] := by
  rw [hnamed.orElse_eq, hclause.orElse_eq]
  exact bareValues_phrase hfirm

end Grammar

namespace InsertionForm

/-- The text that a form has its values from. -/
def valuesText (values : List String) : InsertionForm → Values
  | .bare => .bare (", ".intercalate (values.map quoted))
  | .group => .bare (inParens (values.map quoted))
  | .clause => .clause (", ".intercalate (values.map quoted))

variable {table : String} {values : List String}

theorem toList_quotedList (values : List String) :
    (", ".intercalate (values.map quoted)).toList =
      commaList ((values.map quoted).map String.toList) :=
  String.toList_intercalate

theorem head?_quotedList (hvalues : values ≠ []) :
    (", ".intercalate (values.map quoted)).toList.head? = some '\'' := by
  obtain ⟨v, vs, rfl⟩ := List.exists_cons_of_ne_nil hvalues
  rw [toList_quotedList, List.map_cons, List.map_cons, commaList_cons]
  unfold quoted
  rw [String.toList_ofList]
  rfl

theorem firm_quotedList (hvalues : values ≠ []) : Firm (", ".intercalate (values.map quoted)) := by
  constructor
  · intro hnil
    have hhead := head?_quotedList hvalues
    rw [hnil] at hhead
    exact nomatch hhead
  · rw [toList_quotedList]
    exact (writesList_quoted hvalues).tight

/-- **Every form is read** as an insertion of its values' text into its table. -/
theorem parse_text (htable : IsWord table)
    (hinto : sameAscii table.toList "INTO".toList = false) (hvalues : values ≠ [])
    (form : InsertionForm) :
    Statement.parse (form.text table values) =
      .ok (.insert table none (form.valuesText values)) := by
  have hfirm := htable.isIdentifier.firm
  cases form with
  | bare =>
    have hlist := firm_quotedList hvalues
    have hhead := head?_quotedList hvalues
    have habsent : (Reader.optional (do let _ ← keyword "INTO"; gap1))
        (table.toList ++ phrase [", ".intercalate (values.map quoted)]) = .found none _ :=
      ((keyword_fails_of_isWord (by decide) (by decide) (by decide) htable hinto _).bind _).optional
    have hparts := Grammar.insertedParts_bare hlist
      (Grammar.namedValues_fails_of_head hlist (by rw [hhead]; decide))
      (Grammar.clauseValues_fails hlist hhead (by decide))
    refine Statement.parse_words spells_insert rfl ?_ ?_
    · simpa using ⟨hfirm, hlist⟩
    · change Grammar.insert _ = _
      unfold Grammar.insert
      rw [Reader.bind_of_found (keyword_phrase spells_insert),
        Reader.bind_of_found (gap1_phrase hfirm), Reader.bind_of_found habsent,
        Reader.bind_of_found (identifier_phrase htable.isIdentifier),
        Reader.bind_of_found hparts]
      rfl
  | group =>
    have hlist := firm_inParens (values.map quoted)
    have hparts := Grammar.insertedParts_bare hlist
      (Grammar.namedValues_fails_of_group (isGroup_quoted hvalues))
      (Grammar.clauseValues_fails hlist (by rw [toList_inParens]; rfl) (by decide))
    refine Statement.parse_words spells_insert rfl ?_ ?_
    · simpa using ⟨spells_into.firm, hfirm, hlist⟩
    · change Grammar.insert _ = _
      unfold Grammar.insert
      rw [Reader.bind_of_found (keyword_phrase spells_insert),
        Reader.bind_of_found (gap1_phrase spells_into.firm),
        Reader.bind_of_found (into_phrase hfirm),
        Reader.bind_of_found (identifier_phrase htable.isIdentifier),
        Reader.bind_of_found hparts]
      rfl
  | clause =>
    have unnamed : ∀ cs : List String, none = some cs → ∀ c ∈ cs, IsWord c := nofun
    have hwords := firm_and_unbroken_of_mem htable unnamed hvalues
    exact Statement.parse_words spells_insert rfl (fun w hw => (hwords w hw).1)
      (insert_phrase hvalues htable unnamed)

/-- The values of a list that stands where they are not announced. -/
theorem ofStatement_bare {text : String} (hinserted : Request.insertedValues text = values)
    (table : String) :
    InsertSpec.ofStatement table none (.bare text) =
      if containsKeyword text.toList "VALUES".toList = true then .error .missingValuesClause
      else .ok { table, columns := none, values } := by
  unfold InsertSpec.ofStatement
  dsimp only
  rw [hinserted]
  split <;> rfl

/-- The text of the values mentions the keyword exactly where a value does. -/
theorem containsKeyword_quotedList :
    containsKeyword (", ".intercalate (values.map quoted)).toList "VALUES".toList = true ↔
      ∃ v ∈ values, Mentions "VALUES" v.toList := by
  rw [toList_quotedList, containsKeyword_commaList (by decide), List.map_map, List.any_map,
    List.any_eq_true]
  refine exists_congr fun v => and_congr_right fun _ => ?_
  rw [← containsKeyword_iff_mentions (by decide), Function.comp_apply, Function.comp_apply, quoted,
    String.toList_ofList, containsKeyword_literal (by decide) (by decide)]

end InsertionForm

open InsertionForm in
/-- **Every form of an insertion stands for the same insertion**, with the values as they are, but
for one case: without the clause, values of which one mentions `VALUES` are refused. -/
theorem insertion_of_form {table : String} (htable : IsWord table)
    (hinto : sameAscii table.toList "INTO".toList = false) {values : List String}
    (hvalues : values ≠ []) (form : InsertionForm) :
    ∃ columns texts, Statement.parse (form.text table values) = .ok (.insert table columns texts) ∧
      InsertSpec.ofStatement table columns texts =
        if form ≠ .clause ∧ ∃ v ∈ values, Mentions "VALUES" v.toList then
          .error .missingValuesClause
        else .ok { table, columns := none, values } := by
  refine ⟨none, _, parse_text htable hinto hvalues form, ?_⟩
  have hlist := writesList_quoted hvalues
  cases form with
  | bare =>
    have hinserted : Request.insertedValues (", ".intercalate (values.map quoted)) = values := by
      rw [← ofList_commaList]
      exact hlist.insertedValues_eq
    refine (ofStatement_bare hinserted table).trans (if_congr ?_ rfl rfl)
    rw [containsKeyword_quotedList]
    simp
  | group =>
    have hinserted : Request.insertedValues (inParens (values.map quoted)) = values := by
      refine hlist.insertedValues_of_strip ?_
      rw [toList_inParens, stripParens_parens]
    refine (ofStatement_bare hinserted table).trans (if_congr ?_ rfl rfl)
    rw [toList_inParens, containsKeyword_cons (by decide) (by decide),
      containsKeyword_concat (by decide) (by decide), ← toList_quotedList,
      containsKeyword_quotedList]
    simp
  | clause =>
    rw [if_neg (by simp)]
    have unnamed : ∀ cs : List String, none = some cs → cs ≠ [] ∧ ∀ c ∈ cs, IsWord c := nofun
    exact InsertSpec.ofStatement_of_text unnamed hvalues table

/-- A longer word that starts with the keyword is not the keyword. -/
theorem insertion_of_form_with_longer_word :
    IsWord "t" ∧ sameAscii "t".toList "INTO".toList = false ∧ ["values_2", "it's"] ≠ [] ∧
      InsertionForm.group.text "t" ["values_2", "it's"] =
        "INSERT INTO t ('values_2', 'it\\'s')" ∧
      ∃ columns texts,
        Statement.parse (InsertionForm.group.text "t" ["values_2", "it's"]) =
          .ok (.insert "t" columns texts) ∧
        InsertSpec.ofStatement "t" columns texts =
          .ok { table := "t", columns := none, values := ["values_2", "it's"] } := by
  have htable : IsWord "t" := by decide
  have hinto : sameAscii "t".toList "INTO".toList = false := by decide
  have hvalues : ["values_2", "it's"] ≠ [] := by decide
  have hplain : ¬(InsertionForm.group ≠ .clause ∧
      ∃ v ∈ ["values_2", "it's"], Mentions "VALUES" v.toList) := by decide +kernel
  obtain ⟨columns, texts, hparse, hmade⟩ := insertion_of_form htable hinto hvalues .group
  exact ⟨htable, hinto, hvalues, by decide +kernel, columns, texts, hparse,
    hmade.trans (if_neg hplain)⟩

/-- The value `values` can be inserted with the clause only. -/
theorem not_insertion_of_keyword_value :
    ¬∀ (table : String) (values : List String), IsWord table →
      sameAscii table.toList "INTO".toList = false → values ≠ [] → ∀ form : InsertionForm,
        ∃ columns texts,
          Statement.parse (form.text table values) = .ok (.insert table columns texts) ∧
          InsertSpec.ofStatement table columns texts = .ok { table, columns := none, values } := by
  intro h
  obtain ⟨columns, texts, hparse, hmade⟩ :=
    h "t" ["values"] (by decide) (by decide) (by decide) .bare
  have hread : Statement.parse (InsertionForm.bare.text "t" ["values"]) =
      .ok (.insert "t" none (.bare "'values'")) := by decide +kernel
  obtain ⟨-, rfl, rfl⟩ := Statement.insert.inj (Except.ok.inj (hparse.symm.trans hread))
  exact absurd hmade (by decide +kernel)

end Tabular
