import Tabular.Proofs.Statement.Clauses

/-!
Searches as they are written and as they are read.

`SearchWords q words` says that the words, with a blank between two of them, write the query `q`:
every clause in its place, keywords in any letter case, values as quoted literals. Main statement:
the text is read as a search, and the query made of this is `q` (`search_of_words`). So no clause
takes anything from another one, in whatever combination they stand.
-/

namespace Tabular

open Tabular.Text Tabular.Token

/-! ### Writing a search -/

/-- The columns of a search: a star, or names with a comma and a blank between two of them. -/
inductive ColumnsWord : Option (List String) → String → Prop where
  | all : ColumnsWord none "*"
  | listed {columns : List String} (hne : columns ≠ []) (h : ∀ c ∈ columns, IsIdentifier c) :
      ColumnsWord (some columns) (", ".intercalate columns)

/-- A column that is read as the keyword `DISTINCT` where this may stand: the keyword itself, or
qualified by it. -/
def TakenForDistinct (column : String) : Prop :=
  ∃ d, Spells "DISTINCT" d ∧ (column = d ∨ ∃ name, column = d ++ "." ++ name)

/-- `[DISTINCT]`. Without it, the first column is none that is taken for it. -/
inductive DistinctWords (columns : Option (List String)) : Bool → List String → Prop where
  | missing (h : ∀ cs, columns = some cs → ∀ c ∈ cs.head?, ¬TakenForDistinct c) :
      DistinctWords columns false []
  | present {d : String} (h : Spells "DISTINCT" d) : DistinctWords columns true [d]

/-- `FIND [DISTINCT] <columns> FROM <table> [joins] [WHERE …] [ORDER BY …] [LIMIT …] [OFFSET …]` -/
inductive SearchWords : QuerySpec → List String → Prop where
  | intro {f c fr table : String} {ds js cs os ls fs : List String}
      {columns : Option (List String)} {distinct : Bool} {joins : List Join}
      {condition : Option Condition} {orderBy : Option String} {ascending : Bool}
      {limit offset : Option Nat} (hfind : Spells "FIND" f)
      (hdistinct : DistinctWords columns distinct ds) (hcolumns : ColumnsWord columns c)
      (hfrom : Spells "FROM" fr) (htable : IsIdentifier table) (hjoins : JoinsWords joins js)
      (hcondition : ConditionWords condition cs) (horder : OrderWords orderBy ascending os)
      (hlimit : CountWords "LIMIT" limit ls) (hoffset : CountWords "OFFSET" offset fs) :
      SearchWords
        { table, columns, distinct, joins, condition, orderBy, ascending, limit, offset }
        (f :: (ds ++ c :: fr :: table :: (js ++ (cs ++ (os ++ (ls ++ fs))))))

/-! ### The columns -/

theorem Reader.taken_append {α : Type} {p : Reader α} {t rest : List Char} {a : α}
    (h : p (t ++ rest) = .found a rest) : Reader.taken p (t ++ rest) = .found t rest := by
  unfold Reader.taken
  rw [h]
  dsimp only
  rw [List.length_append, Nat.add_sub_cancel, List.take_left]

theorem IsIdentifier.not_mem {w : String} (h : IsIdentifier w) {c : Char}
    (hc : isNameChar c = false) : c ∉ w.toList :=
  fun hmem => ne_of_isNameChar (h.2 c hmem) hc rfl

/-- A list of names starts with a character of a name. -/
theorem exists_head_of_names {columns : List String} (hne : columns ≠ [])
    (h : ∀ c ∈ columns, IsIdentifier c) :
    ∃ d s, (", ".intercalate columns).toList = d :: s ∧ isNameChar d = true := by
  obtain ⟨w, ws, rfl⟩ := List.exists_cons_of_ne_nil hne
  have hw := h w List.mem_cons_self
  obtain ⟨d, s, hds⟩ := List.exists_cons_of_ne_nil hw.1
  rw [Text.toList_intercalate_cons, hds]
  exact ⟨d, _, rfl, hw.2 d (hds ▸ List.mem_cons_self)⟩

theorem ColumnsWord.firm {columns : Option (List String)} {c : String} (h : ColumnsWord columns c) :
    Firm c := by
  cases h with
  | all => exact ⟨by decide, .of_forall (by decide)⟩
  | @listed columns hne h =>
    obtain ⟨d, s, hds, -⟩ := exists_head_of_names hne h
    have htight : Tight (commaList (columns.map String.toList)) := by
      refine tight_commaList fun x hx => ?_
      obtain ⟨v, hv, rfl⟩ := List.mem_map.1 hx
      exact (h v hv).firm
    refine ⟨hds ▸ List.cons_ne_nil d s, ?_⟩
    rw [String.toList_intercalate]
    exact htight

/-- A comma and the name after it are read from a list of names. -/
theorem comma_identifier_append {w : String} (h : IsIdentifier w) {rest : List Char}
    (hrest : ∀ c ∈ rest.head?, isNameChar c = false) :
    (do let _ ← comma; identifier : Reader String) (',' :: ' ' :: (w.toList ++ rest)) =
      .found w rest := by
  have hnone : gap (',' :: ' ' :: (w.toList ++ rest)) =
      .found () (',' :: ' ' :: (w.toList ++ rest)) := rfl
  have hgap : gap (' ' :: (w.toList ++ rest)) = .found () (w.toList ++ rest) := by
    have hrun : Reader.takeWhile isGap ([' '] ++ (w.toList ++ rest)) = .found [' '] _ :=
      Reader.takeWhile_append (by decide) (h.firm.head?_not_gap _)
    exact Reader.bind_of_found hrun
  have hcomma : comma (',' :: ' ' :: (w.toList ++ rest)) = .found ',' (w.toList ++ rest) := by
    unfold comma
    rw [Reader.bind_of_found hnone, Reader.bind_of_found (Reader.char_cons ',' _),
      Reader.bind_of_found hgap]
    rfl
  rw [Reader.bind_of_found hcomma]
  exact identifier_append h hrest

/-- No comma stands in front of a keyword. -/
theorem comma_fails {kw w : String} (h : Spells kw w) (words : List String) :
    comma.Fails (phrase (w :: words)) := by
  obtain ⟨d, s, hw⟩ := List.exists_cons_of_ne_nil h.ne_nil
  have hd : d ≠ ',' := by
    rintro rfl
    exact absurd (h.letters ',' (hw ▸ List.mem_cons_self)) (by decide)
  refine .bind_of_found (gap_phrase h.firm) (Reader.Fails.bind ?_ _)
  rw [hw]
  exact ⟨_, Reader.char_of_ne hd _⟩

theorem sepBy1_columns {columns : List String} (hne : columns ≠ [])
    (h : ∀ c ∈ columns, IsIdentifier c) {fr : String} (hfrom : Spells "FROM" fr)
    (words : List String) :
    Reader.sepBy1 identifier comma ((", ".intercalate columns).toList ++ phrase (fr :: words)) =
      .found columns (phrase (fr :: words)) := by
  obtain ⟨w, ws, rfl⟩ := List.exists_cons_of_ne_nil hne
  have hhead : ∀ later : List String, ∀ d ∈ (later.flatMap (fun v => ',' :: ' ' :: v.toList) ++
      phrase (fr :: words)).head?, isNameChar d = false := by
    intro later
    cases later with
    | nil => exact head?_phrase_not (by decide) _
    | cons v later => rintro d ⟨⟩; decide
  have hfirst : identifier (w.toList ++ (ws.flatMap (fun v => ',' :: ' ' :: v.toList) ++
      phrase (fr :: words))) = .found w _ :=
    identifier_append (h w List.mem_cons_self) (hhead ws)
  obtain ⟨stop, hstop⟩ : Reader.Fails (do let _ ← comma; identifier : Reader String)
      (phrase (fr :: words)) := (comma_fails hfrom words).bind _
  have hothers : Reader.many (do let _ ← comma; identifier : Reader String)
      (ws.flatMap (fun v => ',' :: ' ' :: v.toList) ++ phrase (fr :: words)) =
      .found (ws.map id) (phrase (fr :: words)) := by
    refine Reader.repeatWithin_pieces id hstop (fun v hv later => ?_) _ ?_
    · exact comma_identifier_append (h v (List.mem_cons_of_mem w hv)) (hhead later)
    · rw [List.length_append]
      refine Nat.le_trans (Reader.length_le_length_flatMap fun v _ => ?_) (Nat.le_add_right _ _)
      exact List.cons_ne_nil _ _
  have htext : (", ".intercalate (w :: ws)).toList ++ phrase (fr :: words) =
      w.toList ++ (ws.flatMap (fun v => ',' :: ' ' :: v.toList) ++ phrase (fr :: words)) := by
    rw [Text.toList_intercalate_cons, List.append_assoc]
  unfold Reader.sepBy1
  rw [htext, Reader.bind_of_found hfirst, Reader.bind_of_found hothers, List.map_id]
  rfl

/-- **The columns are read as their word stands.** -/
theorem ColumnsWord.columnList_phrase {columns : Option (List String)} {c : String}
    (h : ColumnsWord columns c) {fr : String} (hfrom : Spells "FROM" fr) (words : List String) :
    Grammar.columnList (c.toList ++ phrase (fr :: words)) = .found c (phrase (fr :: words)) := by
  cases h with
  | all =>
    have hstar : Reader.taken (Reader.char '*') ("*".toList ++ phrase (fr :: words)) =
        .found "*".toList (phrase (fr :: words)) :=
      Reader.taken_append (Reader.char_cons '*' _)
    refine Reader.orElse_of_found ?_
    rw [Reader.bind_of_found hstar]
    rfl
  | @listed columns hne h =>
    obtain ⟨d, s, hds, hd⟩ := exists_head_of_names hne h
    have hnames := Reader.taken_append (sepBy1_columns hne h hfrom words)
    have hstar : (Reader.taken (Reader.char '*')).Fails
        ((", ".intercalate columns).toList ++ phrase (fr :: words)) := by
      rw [hds]
      refine ⟨d :: (s ++ phrase (fr :: words)), ?_⟩
      unfold Reader.taken
      rw [List.cons_append, Reader.char_of_ne (ne_of_isNameChar hd (by decide))]
    refine (hstar.bind _).orElse_eq.trans ?_
    rw [Reader.bind_of_found hnames, Reader.pure_apply, String.ofList_toList]

/-- **The columns that are made of the word are those that were written.** -/
theorem ColumnsWord.names_eq {columns : Option (List String)} {c : String}
    (h : ColumnsWord columns c) :
    (if trim c.toList = ['*'] then none else some (Request.columnNames c)) = columns := by
  have hfirm := h.firm
  cases h with
  | all => rfl
  | @listed columns hne h =>
    have hnames := columnNames_intercalate hne fun c hc =>
      ⟨(h c hc).firm.2, (h c hc).not_mem (by decide)⟩
    obtain ⟨d, s, hds, hd⟩ := exists_head_of_names hne h
    rw [hfirm.2.trim_eq, hnames, hds, if_neg]
    intro hstar
    exact ne_of_isNameChar hd (by decide) (List.cons.inj hstar).1

/-! ### The keyword `DISTINCT` -/

/-- **A name is not taken for `DISTINCT`** unless it is the keyword or qualified by it. -/
theorem distinct_fails {c : String} (hc : IsIdentifier c) (hnot : ¬TakenForDistinct c)
    {rest : List Char} (hrest : ∀ d ∈ rest.head?, isNameChar d = false) :
    (keyword "DISTINCT").Fails (c.toList ++ rest) := by
  cases hread : keyword "DISTINCT" (c.toList ++ rest) with
  | stuck later => exact ⟨later, hread⟩
  | broken => exact absurd hread (keyword_ne_broken (by decide) (by decide) _)
  | found w later =>
    obtain ⟨hw, heq, hlater⟩ := spells_of_keyword (by decide) (by decide) (by decide) hread
    refine absurd ?_ hnot
    rcases List.append_eq_append_iff.1 heq with ⟨tail, hword, hrest'⟩ | ⟨tail, hname, hlater'⟩
    · cases tail with
      | nil =>
        rw [List.append_nil] at hword
        exact ⟨w, hw, .inl (String.toList_inj.1 hword.symm)⟩
      | cons d tail =>
        have hletter := hw.letters d (hword ▸ List.mem_append_right _ List.mem_cons_self)
        have hd := hrest d (by rw [hrest']; rfl)
        simp [isNameChar, isWordChar_of_isAsciiLetter hletter] at hd
    · cases tail with
      | nil =>
        rw [List.append_nil] at hname
        exact ⟨w, hw, .inl (String.toList_inj.1 hname)⟩
      | cons d tail =>
        have hd := hc.2 d (hname ▸ List.mem_append_right _ List.mem_cons_self)
        have hword := hlater d (by rw [hlater']; rfl)
        obtain rfl : d = '.' := by simpa [isNameChar, hword] using hd
        refine ⟨w, hw, .inr ⟨String.ofList tail, String.toList_inj.1 ?_⟩⟩
        rw [hname, String.toList_append, String.toList_append, String.toList_ofList]
        simp

/-- The keyword is read where it stands, and only there. -/
theorem DistinctWords.optional_distinct {columns : Option (List String)} {distinct : Bool}
    {words : List String} (h : DistinctWords columns distinct words) {c : String}
    (hcolumns : ColumnsWord columns c) (more : List String) :
    ∃ found, Reader.optional (Grammar.spaced (keyword "DISTINCT")) (phrase (words ++ c :: more)) =
        .found found (phrase (c :: more)) ∧ found.isSome = distinct := by
  cases h with
  | @present d h =>
    refine ⟨some d, Reader.optional_of_found ?_, rfl⟩
    exact (Reader.bind_of_found (gap1_phrase h.firm)).trans (keyword_phrase h)
  | missing h =>
    have hfails : (keyword "DISTINCT").Fails (c.toList ++ phrase more) := by
      cases hcolumns with
      | all => exact keyword_fails_of_disagree rfl
      | @listed columns hne hnames =>
        obtain ⟨w, ws, rfl⟩ := List.exists_cons_of_ne_nil hne
        rw [Text.toList_intercalate_cons, List.append_assoc]
        refine distinct_fails (hnames w List.mem_cons_self) (h _ rfl w rfl) ?_
        cases ws with
        | nil => exact head?_phrase_not (by decide) more
        | cons v ws => rintro d ⟨⟩; decide
    have hspaced : (Grammar.spaced (keyword "DISTINCT")).Fails (phrase (c :: more)) :=
      .bind_of_found (gap1_phrase hcolumns.firm) hfails
    exact ⟨none, hspaced.optional, rfl⟩

theorem DistinctWords.firm {columns : Option (List String)} {distinct : Bool} {words : List String}
    (h : DistinctWords columns distinct words) : ∀ w ∈ words, Firm w := by
  cases h with
  | missing => nofun
  | present h => simpa using h.firm

/-! ### The whole search -/

theorem CountWords.next_append {kw : String} {n : Option Nat} {words : List String}
    (h : CountWords kw n words) {keywords more : List String} (hmore : NextIsOneOf keywords more) :
    NextIsOneOf (kw :: keywords) (words ++ more) := by
  cases h with
  | missing => exact hmore.mono (List.subset_cons_self _ _)
  | present hkeyword => exact .cons List.mem_cons_self hkeyword

theorem OrderWords.next_append {field : Option String} {ascending : Bool} {words : List String}
    (h : OrderWords field ascending words) {keywords more : List String}
    (hmore : NextIsOneOf keywords more) : NextIsOneOf ("ORDER" :: keywords) (words ++ more) := by
  cases h with
  | missing => exact hmore.mono (List.subset_cons_self _ _)
  | unmarked horder => exact .cons List.mem_cons_self horder
  | ascending horder => exact .cons List.mem_cons_self horder
  | descending horder => exact .cons List.mem_cons_self horder

theorem ConditionWords.next_append {condition : Option Condition} {words : List String}
    (h : ConditionWords condition words) {keywords more : List String}
    (hmore : NextIsOneOf keywords more) : NextIsOneOf ("WHERE" :: keywords) (words ++ more) := by
  cases h with
  | missing => exact hmore.mono (List.subset_cons_self _ _)
  | present hwhere => exact .cons List.mem_cons_self hwhere

theorem SearchWords.firm {q : QuerySpec} {words : List String} (h : SearchWords q words) :
    ∀ w ∈ words, Firm w := by
  cases h with
  | intro hfind hdistinct hcolumns hfrom htable hjoins hcondition horder hlimit hoffset =>
    simp only [List.mem_cons, List.mem_append]
    rintro w (rfl | hw | rfl | rfl | rfl | hw | hw | hw | hw | hw)
    · exact hfind.firm
    · exact hdistinct.firm w hw
    · exact hcolumns.firm
    · exact hfrom.firm
    · exact htable.firm
    · exact hjoins.firm w hw
    · exact hcondition.firm w hw
    · exact horder.firm w hw
    · exact hlimit.firm w hw
    · exact hoffset.firm w hw

/-- **A search is read as it was written.** The words of a query, with a blank between two of them,
are read as a search, and the query made of this search is the one that was written: its clauses,
its names, and the values that its literals stand for. -/
theorem search_of_words {q : QuerySpec} {words : List String} (h : SearchWords q words) :
    ∃ search, Statement.parse (" ".intercalate words) = .ok (.find search) ∧
      QuerySpec.ofSearch search = .ok q := by
  have hfirm := h.firm
  cases h with
  | @intro f c fr table ds js cs os ls fs columns distinct joins condition orderBy ascending limit
      offset hfind hdistinct hcolumns hfrom htable hjoins hcondition horder hlimit hoffset =>
    -- each clause may be followed by the keywords of the later ones
    have hend : NextIsOneOf [] ([] : List String) := .nil
    have hnextOffset : NextIsOneOf ["OFFSET"] fs := by
      simpa using hoffset.next_append hend
    have hnextLimit := hlimit.next_append hnextOffset
    have hnextOrder := horder.next_append hnextLimit
    have hnextCondition := hcondition.next_append hnextOrder
    obtain ⟨found, hreadDistinct, hfound⟩ := hdistinct.optional_distinct hcolumns
      (fr :: table :: (js ++ (cs ++ (os ++ (ls ++ fs)))))
    obtain ⟨filter, hreadFilter, hfilter⟩ := hcondition.optional_filter hnextOrder
    obtain ⟨order, hreadOrder, hfield, hascending⟩ := horder.optional_orderBy hnextLimit
    have hreadLimit := hlimit.optional_counted hnextOffset (by decide)
    have hreadOffset := hoffset.optional_counted hend (by decide)
    rw [List.append_nil] at hreadOffset
    have hread : Grammar.find (f.toList ++ phrase
        (ds ++ c :: fr :: table :: (js ++ (cs ++ (os ++ (ls ++ fs)))))) =
        .found (.find
          { distinct := found.isSome, columns := c, table, joins, filter
            orderBy := order.map (·.1), direction := order.bind (·.2), limit, offset }) [] := by
      unfold Grammar.find
      rw [Reader.bind_of_found (keyword_phrase hfind), Reader.bind_of_found hreadDistinct,
        Reader.bind_of_found (gap1_phrase hcolumns.firm),
        Reader.bind_of_found (hcolumns.columnList_phrase hfrom _),
        Reader.bind_of_found (gap1_phrase hfrom.firm), Reader.bind_of_found (keyword_phrase hfrom),
        Reader.bind_of_found (gap1_phrase htable.firm),
        Reader.bind_of_found (identifier_phrase htable),
        Reader.bind_of_found (hjoins.many_join hnextCondition), Reader.bind_of_found hreadFilter,
        Reader.bind_of_found hreadOrder, Reader.bind_of_found hreadLimit,
        Reader.bind_of_found hreadOffset]
      rfl
    refine ⟨_, Statement.parse_words hfind rfl (fun w hw => hfirm w (List.mem_cons_of_mem f hw))
      hread, ?_⟩
    unfold QuerySpec.ofSearch
    dsimp only
    rw [hfilter, hcolumns.names_eq, hfield, hascending, hfound]
    rfl

theorem search_of_words_every_clause :
    SearchWords
        { table := "a", columns := some ["a.id", "b.name"], distinct := true
          joins := [{ kind := .left, table := "b", first := "a.id", second := "b.id" }]
          condition := some
            { target := .field "n m", operator := .notIn, operand := .list ["it's", ") LIMIT 3"] }
          orderBy := some "a.id", ascending := false, limit := some 10, offset := some 0 }
        ["find", "Distinct", "a.id, b.name", "FROM", "a", "left", "JOIN", "b", "on", "a.id", "=",
          "b.id", "WHERE", "\x60n m\x60", "not", "In", "('it\\'s', ') LIMIT 3')", "order", "BY",
          "a.id", "desc", "LIMIT", "10", "OFFSET", "0"] ∧
      ∃ search,
        Statement.parse
            ("find Distinct a.id, b.name FROM a left JOIN b on a.id = b.id WHERE \x60n m\x60 " ++
              "not In ('it\\'s', ') LIMIT 3') order BY a.id desc LIMIT 10 OFFSET 0") =
          .ok (.find search) ∧
        QuerySpec.ofSearch search = .ok
          { table := "a", columns := some ["a.id", "b.name"], distinct := true
            joins := [{ kind := .left, table := "b", first := "a.id", second := "b.id" }]
            condition := some
              { target := .field "n m", operator := .notIn, operand := .list ["it's", ") LIMIT 3"] }
            orderBy := some "a.id", ascending := false, limit := some 10, offset := some 0 } := by
  have hjoin : JoinWords { kind := .left, table := "b", first := "a.id", second := "b.id" }
      ["left", "JOIN", "b", "on", "a.id", "=", "b.id"] :=
    .ofKind (by decide) (by decide) (by decide) (by decide) (by decide) (by decide)
  have hvalues : WritesList ["it's", ") LIMIT 3"] "'it\\'s', ') LIMIT 3'".toList := by
    refine ⟨by decide, ["'it\\'s'".toList, "') LIMIT 3'".toList], ?_, by decide⟩
    exact .cons ⟨'\'', by decide, by decide⟩ (.cons ⟨'\'', by decide, by decide⟩ .nil)
  have hcondition : ConditionWords
      (some { target := .field "n m", operator := .notIn, operand := .list ["it's", ") LIMIT 3"] })
      ["WHERE", "\x60n m\x60", "not", "In", "('it\\'s', ') LIMIT 3')"] :=
    .present (by decide) (.field (by decide) (by decide)) (.notIn (by decide) (by decide))
      (.list rfl hvalues (by decide))
  have horder : OrderWords (some "a.id") false ["order", "BY", "a.id", "desc"] :=
    .descending (by decide) (by decide) (by decide) (by decide)
  have hlimit : CountWords "LIMIT" (some 10) ["LIMIT", "10"] := .present (by decide) (by decide)
  have hoffset : CountWords "OFFSET" (some 0) ["OFFSET", "0"] := .present (by decide) (by decide)
  have hcolumns : ColumnsWord (some ["a.id", "b.name"]) "a.id, b.name" :=
    .listed (by decide) (by decide)
  have hdistinct : DistinctWords (some ["a.id", "b.name"]) true ["Distinct"] := .present (by decide)
  have hfind : Spells "FIND" "find" := by decide
  have hfrom : Spells "FROM" "FROM" := by decide
  have htable : IsIdentifier "a" := by decide
  have hwords := SearchWords.intro hfind hdistinct hcolumns hfrom htable (.cons hjoin .nil)
    hcondition horder hlimit hoffset
  have hparse := search_of_words hwords
  have htext : " ".intercalate ["find", "Distinct", "a.id, b.name", "FROM", "a", "left", "JOIN",
      "b", "on", "a.id", "=", "b.id", "WHERE", "\x60n m\x60", "not", "In",
      "('it\\'s', ') LIMIT 3')", "order", "BY", "a.id", "desc", "LIMIT", "10", "OFFSET", "0"] =
      "find Distinct a.id, b.name FROM a left JOIN b on a.id = b.id WHERE \x60n m\x60 " ++
        "not In ('it\\'s', ') LIMIT 3') order BY a.id desc LIMIT 10 OFFSET 0" := by decide +kernel
  refine ⟨hwords, ?_⟩
  rw [← htext]
  exact hparse

end Tabular
