import Tabular.Request.OfStatement
import Tabular.Proofs.Statement.Words
import Tabular.Proofs.Text.ValueList

/-!
The clauses of a statement, as they are written and as they are read.

Each clause has a relation between what it means and the words it is written with, keywords in any
letter case (`JoinWords`, `ConditionWords`, `OrderWords`, `CountWords`). Main statements: in front
of any further words, the grammar reads from these words what they mean, and leaves the further
words (`JoinsWords.many_join`, `ConditionWords.optional_filter`, `OrderWords.optional_orderBy`,
`CountWords.optional_counted`). A clause that is missing is passed over, provided that the next word
is the keyword of a later clause.
-/

namespace Tabular

open Tabular.Text Tabular.Token

/-! ### Joins -/

/-- The keyword of a kind of join. -/
def JoinKind.keyword : JoinKind → String
  | .inner => "INNER"
  | .left => "LEFT"
  | .right => "RIGHT"

/-- `[INNER|LEFT|RIGHT] JOIN <table> ON <first> = <second>`, where a join without a kind is an inner
one. -/
inductive JoinWords : Join → List String → Prop where
  | bare {j o table first second : String} (hjoin : Spells "JOIN" j) (hon : Spells "ON" o)
      (htable : IsIdentifier table) (hfirst : IsIdentifier first) (hsecond : IsIdentifier second) :
      JoinWords { kind := .inner, table, first, second } [j, table, o, first, "=", second]
  | ofKind {kind : JoinKind} {k j o table first second : String} (hkind : Spells kind.keyword k)
      (hjoin : Spells "JOIN" j) (hon : Spells "ON" o) (htable : IsIdentifier table)
      (hfirst : IsIdentifier first) (hsecond : IsIdentifier second) :
      JoinWords { kind, table, first, second } [k, j, table, o, first, "=", second]

/-- Joins one after another. -/
inductive JoinsWords : List Join → List String → Prop where
  | nil : JoinsWords [] []
  | cons {join : Join} {joins : List Join} {words more : List String} (hjoin : JoinWords join words)
      (hjoins : JoinsWords joins more) : JoinsWords (join :: joins) (words ++ more)

theorem firm_equals : Firm "=" := ⟨by decide, .of_forall (by decide)⟩

theorem JoinWords.firm {join : Join} {words : List String} (h : JoinWords join words) :
    ∀ w ∈ words, Firm w := by
  cases h with
  | bare hjoin hon htable hfirst hsecond =>
    simp only [List.mem_cons, List.not_mem_nil, or_false, forall_eq_or_imp, forall_eq]
    exact ⟨hjoin.firm, htable.firm, hon.firm, hfirst.firm, firm_equals, hsecond.firm⟩
  | ofKind hkind hjoin hon htable hfirst hsecond =>
    simp only [List.mem_cons, List.not_mem_nil, or_false, forall_eq_or_imp, forall_eq]
    exact ⟨hkind.firm, hjoin.firm, htable.firm, hon.firm, hfirst.firm, firm_equals, hsecond.firm⟩

theorem JoinsWords.firm {joins : List Join} {words : List String} (h : JoinsWords joins words) :
    ∀ w ∈ words, Firm w := by
  induction h with
  | nil => nofun
  | cons hjoin _ ih => exact fun w hw => (List.mem_append.1 hw).elim (hjoin.firm w) (ih w)

/-- A kind is read by its own keyword, since the three keywords differ in their first letters. -/
theorem joinKind_phrase {kind : JoinKind} {k w : String} (h : Spells kind.keyword k) (hw : Firm w)
    (words : List String) :
    Grammar.joinKind (k.toList ++ phrase (w :: words)) =
      .found kind (w.toList ++ phrase words) := by
  have hkind : ((do let _ ← keyword "INNER"; return JoinKind.inner) <|>
      (do let _ ← keyword "LEFT"; return JoinKind.left) <|>
      (do let _ ← keyword "RIGHT"; return JoinKind.right) : Reader JoinKind)
        (k.toList ++ phrase (w :: words)) = .found kind (phrase (w :: words)) := by
    cases kind with
    | inner =>
      exact Reader.orElse_of_found (Reader.bind_of_found (keyword_phrase h))
    | left =>
      rw [((keyword_fails h (by decide) _).bind _).orElse_eq]
      exact Reader.orElse_of_found (Reader.bind_of_found (keyword_phrase h))
    | right =>
      rw [((keyword_fails h (by decide) _).bind _).orElse_eq,
        ((keyword_fails h (by decide) _).bind _).orElse_eq]
      exact Reader.bind_of_found (keyword_phrase h)
  unfold Grammar.joinKind
  rw [Reader.bind_of_found hkind, Reader.bind_of_found (gap1_phrase hw)]
  rfl

/-- The keyword `JOIN` is no kind. -/
theorem joinKind_fails {j : String} (h : Spells "JOIN" j) (rest : List Char) :
    Grammar.joinKind.Fails (j.toList ++ rest) := by
  refine Reader.Fails.bind ?_ _
  exact .orElse ((keyword_fails h (by decide) _).bind _)
    (.orElse ((keyword_fails h (by decide) _).bind _) ((keyword_fails h (by decide) _).bind _))

theorem char_equals_phrase (words : List String) :
    Reader.char '=' ("=".toList ++ phrase words) = .found '=' (phrase words) :=
  Reader.char_cons '=' _

/-- A join, from its kind on. -/
theorem join_of_kind {kind : Option JoinKind} {j o table first second : String} {s : List Char}
    {more : List String}
    (hkind : Reader.optional Grammar.joinKind s =
      .found kind (j.toList ++ phrase (table :: o :: first :: "=" :: second :: more)))
    (hjoin : Spells "JOIN" j) (hon : Spells "ON" o) (htable : IsIdentifier table)
    (hfirst : IsIdentifier first) (hsecond : IsIdentifier second) :
    Grammar.join s =
      .found { kind := kind.getD .inner, table, first, second } (phrase more) := by
  unfold Grammar.join
  rw [Reader.bind_of_found hkind, Reader.bind_of_found (keyword_phrase hjoin),
    Reader.bind_of_found (gap1_phrase htable.firm),
    Reader.bind_of_found (identifier_phrase htable),
    Reader.bind_of_found (gap1_phrase hon.firm), Reader.bind_of_found (keyword_phrase hon),
    Reader.bind_of_found (gap1_phrase hfirst.firm),
    Reader.bind_of_found (identifier_phrase hfirst),
    Reader.bind_of_found (gap_phrase firm_equals), Reader.bind_of_found (char_equals_phrase _),
    Reader.bind_of_found (gap_phrase hsecond.firm),
    Reader.bind_of_found (identifier_phrase hsecond)]
  rfl

/-- **A join is read from its words.** -/
theorem JoinWords.spaced_join {join : Join} {words : List String} (h : JoinWords join words)
    (more : List String) :
    Grammar.spaced Grammar.join (phrase (words ++ more)) = .found join (phrase more) := by
  cases h with
  | bare hjoin hon htable hfirst hsecond =>
    refine (Reader.bind_of_found (gap1_phrase hjoin.firm)).trans ?_
    exact join_of_kind (joinKind_fails hjoin _).optional hjoin hon htable hfirst hsecond
  | ofKind hkind hjoin hon htable hfirst hsecond =>
    refine (Reader.bind_of_found (gap1_phrase hkind.firm)).trans ?_
    exact join_of_kind (Reader.optional_of_found (joinKind_phrase hkind hjoin.firm _)) hjoin hon
      htable hfirst hsecond

/-- A join starts with its kind or with `JOIN`. -/
theorem join_fails {kw w : String} (hkw : kw ∈ ["WHERE", "ORDER", "LIMIT", "OFFSET"])
    (h : Spells kw w) (rest : List Char) : Grammar.join.Fails (w.toList ++ rest) := by
  have hdiffer : ∀ kw ∈ ["WHERE", "ORDER", "LIMIT", "OFFSET"],
      ∀ other ∈ ["INNER", "LEFT", "RIGHT", "JOIN"],
        agreeAsKeywords kw.toList other.toList = false := by decide
  have hfails : ∀ other ∈ ["INNER", "LEFT", "RIGHT", "JOIN"],
      (keyword other).Fails (w.toList ++ rest) :=
    fun other hother => keyword_fails h (hdiffer kw hkw other hother) rest
  have hkind : Grammar.joinKind.Fails (w.toList ++ rest) := by
    refine Reader.Fails.bind ?_ _
    exact .orElse ((hfails "INNER" (by decide)).bind _)
      (.orElse ((hfails "LEFT" (by decide)).bind _) ((hfails "RIGHT" (by decide)).bind _))
  exact .bind_of_found hkind.optional ((hfails "JOIN" (by decide)).bind _)

theorem JoinsWords.length_le {joins : List Join} {words : List String}
    (h : JoinsWords joins words) : joins.length ≤ words.length := by
  induction h with
  | nil => exact Nat.le_refl 0
  | cons hjoin _ ih =>
    rw [List.length_cons, List.length_append]
    cases hjoin <;> simp only [List.length_cons, List.length_nil] <;> omega

theorem length_le_length_phrase (words : List String) : words.length ≤ (phrase words).length := by
  induction words with
  | nil => exact Nat.le_refl 0
  | cons w words ih =>
    rw [phrase_cons, List.length_cons, List.length_cons, List.length_append]
    omega

/-- **All joins are read, and no word of a later clause is taken for one.** -/
theorem JoinsWords.many_join {joins : List Join} {words : List String} (h : JoinsWords joins words)
    {more : List String} (hmore : NextIsOneOf ["WHERE", "ORDER", "LIMIT", "OFFSET"] more) :
    Reader.many (Grammar.spaced Grammar.join) (phrase (words ++ more)) =
      .found joins (phrase more) := by
  obtain ⟨stop, hstop⟩ : (Grammar.spaced Grammar.join).Fails (phrase more) :=
    hmore.fails_spaced fun kw hkw w hw rest => join_fails hkw hw rest
  have hrepeat : ∀ fuel : List Char, joins.length ≤ fuel.length →
      Reader.repeatWithin (Grammar.spaced Grammar.join) fuel (phrase (words ++ more)) =
        .found joins (phrase more) := by
    induction h with
    | nil =>
      intro fuel _
      cases fuel with
      | nil => rfl
      | cons _ fuel =>
        unfold Reader.repeatWithin
        rw [List.nil_append, hstop]
    | cons hjoin _ ih =>
      intro fuel hfuel
      cases fuel with
      | nil => simp at hfuel
      | cons _ fuel =>
        unfold Reader.repeatWithin
        rw [List.append_assoc, hjoin.spaced_join]
        dsimp only
        rw [ih fuel (Nat.le_of_succ_le_succ hfuel)]
  refine hrepeat _ ?_
  have hlength := length_le_length_phrase (words ++ more)
  rw [List.length_append] at hlength
  exact Nat.le_trans h.length_le (Nat.le_trans (Nat.le_add_right _ _) hlength)

/-! ### Conditions -/

/-- The left side of a condition: the keyword of the primary key, or a name between backticks. -/
inductive TargetWord : Target → String → Prop where
  | primaryKey : TargetWord .primaryKey "PRIMARY_KEY"
  | field {name : String} (hne : name.toList ≠ []) (htick : '\x60' ∉ name.toList) :
      TargetWord (.field name) ("\x60" ++ name ++ "\x60")

/-- An operator, by its signs or as keywords. -/
inductive OperatorWords : Operator → List String → Prop where
  | eq : OperatorWords .eq ["="]
  | ne : OperatorWords .ne ["!="]
  | differs : OperatorWords .ne ["<>"]
  | lt : OperatorWords .lt ["<"]
  | lte : OperatorWords .lte ["<="]
  | gt : OperatorWords .gt [">"]
  | gte : OperatorWords .gte [">="]
  | like {l : String} (hlike : Spells "LIKE" l) : OperatorWords .like [l]
  | notLike {n l : String} (hnot : Spells "NOT" n) (hlike : Spells "LIKE" l) :
      OperatorWords .notLike [n, l]
  | isIn {i : String} (hin : Spells "IN" i) : OperatorWords .isIn [i]
  | notIn {n i : String} (hnot : Spells "NOT" n) (hin : Spells "IN" i) : OperatorWords .notIn [n, i]

/-- What an operator compares with: one literal, or a list of literals in parentheses, which a
list of one literal may go without. -/
inductive OperandWord : Operator → Operand → String → Prop where
  | scalar {op : Operator} {value w : String} (hop : op.takesList = false)
      (h : Writes value w.toList) : OperandWord op (.scalar value) w
  | list {op : Operator} {values : List String} {w : String} {inner : List Char}
      (hop : op.takesList = true) (h : WritesList values inner)
      (hw : w.toList = '(' :: (inner ++ [')'])) : OperandWord op (.list values) w
  | single {op : Operator} {value w : String} (hop : op.takesList = true)
      (h : Writes value w.toList) : OperandWord op (.list [value]) w

/-- `[WHERE <target> <operator> <operand>]` -/
inductive ConditionWords : Option Condition → List String → Prop where
  | missing : ConditionWords none []
  | present {target : Target} {operator : Operator} {operand : Operand} {w t v : String}
      {ops : List String} (hwhere : Spells "WHERE" w) (htarget : TargetWord target t)
      (hoperator : OperatorWords operator ops) (hoperand : OperandWord operator operand v) :
      ConditionWords (some { target, operator, operand }) (w :: t :: (ops ++ [v]))

theorem TargetWord.firm {target : Target} {t : String} (h : TargetWord target t) : Firm t := by
  cases h with
  | primaryKey => exact ⟨by decide, .of_forall (by decide)⟩
  | @field name hne htick =>
    have hend : Tight ['\x60'] := .of_forall (by decide)
    unfold Firm
    rw [String.toList_append, String.toList_append]
    exact ⟨List.cons_ne_nil _ _, hend.enclose (by decide) (List.cons_ne_nil _ _)⟩

theorem OperatorWords.firm {op : Operator} {ops : List String} (h : OperatorWords op ops) :
    ∀ w ∈ ops, Firm w := by
  have hsigns : ∀ w ∈ ["=", "!=", "<>", "<", "<=", ">", ">="],
      w.toList ≠ [] ∧ ∀ c ∈ w.toList, isBlank c = false := by decide
  have hfirm : ∀ w ∈ ["=", "!=", "<>", "<", "<=", ">", ">="], Firm w :=
    fun w hw => .of_forall (hsigns w hw).1 (hsigns w hw).2
  cases h with
  | like hlike => simpa using hlike.firm
  | notLike hnot hlike => simpa using ⟨hnot.firm, hlike.firm⟩
  | isIn hin => simpa using hin.firm
  | notIn hnot hin => simpa using ⟨hnot.firm, hin.firm⟩
  | _ => exact fun w hw => hfirm w (by simp_all)

theorem OperandWord.firm {op : Operator} {operand : Operand} {v : String}
    (h : OperandWord op operand v) : Firm v := by
  cases h with
  | scalar _ h => exact ⟨h.ne_nil, h.tight⟩
  | single _ h => exact ⟨h.ne_nil, h.tight⟩
  | list _ h hw =>
    have hend : Tight [')'] := .of_forall (by decide)
    unfold Firm
    rw [hw]
    exact ⟨List.cons_ne_nil _ _, hend.enclose (by decide) (List.cons_ne_nil _ _)⟩

theorem ConditionWords.firm {condition : Option Condition} {words : List String}
    (h : ConditionWords condition words) : ∀ w ∈ words, Firm w := by
  cases h with
  | missing => nofun
  | present hwhere htarget hoperator hoperand =>
    simp only [List.mem_cons, List.mem_append, List.not_mem_nil, or_false]
    rintro w (rfl | rfl | hw | rfl)
    · exact hwhere.firm
    · exact htarget.firm
    · exact hoperator.firm w hw
    · exact hoperand.firm

/-- **A target is read from its word.** -/
theorem TargetWord.target_phrase {target : Target} {t : String} (h : TargetWord target t)
    (words : List String) :
    Token.target (t.toList ++ phrase words) = .found target (phrase words) := by
  cases h with
  | primaryKey =>
    have htext : Reader.text "PRIMARY_KEY".toList ("PRIMARY_KEY".toList ++ phrase words) = _ :=
      Reader.text_append _ _
    have hnext : Reader.notBefore isWordChar (phrase words) = .found () (phrase words) := by
      cases words with
      | nil => rfl
      | cons w words => rfl
    refine Reader.orElse_of_found ?_
    rw [Reader.bind_of_found htext, Reader.bind_of_found hnext]
    rfl
  | @field name hne htick =>
    have hword : ("\x60" ++ name ++ "\x60").toList ++ phrase words =
        '\x60' :: (name.toList ++ '\x60' :: phrase words) := by
      rw [String.toList_append, String.toList_append]
      simp
    have hname : Reader.takeWhile1 (· != '\x60') (name.toList ++ '\x60' :: phrase words) =
        .found name.toList ('\x60' :: phrase words) := by
      refine Reader.takeWhile1_append hne (fun c hc => bne_iff_ne.2 ?_) (by simp)
      rintro rfl
      exact htick hc
    have hkey : (Reader.text "PRIMARY_KEY".toList).Fails
        ('\x60' :: (name.toList ++ '\x60' :: phrase words)) := ⟨_, rfl⟩
    rw [hword]
    refine (hkey.bind _).orElse_eq.trans (Reader.orElse_of_found ?_)
    rw [Reader.bind_of_found (Reader.char_cons _ _), Reader.bind_of_found hname,
      Reader.bind_of_found (Reader.char_cons _ _), String.ofList_toList]
    rfl

/-- Where none of the keyword operators stands, an operator is read by its signs. -/
theorem operator_of_fails {s : List Char} (hnot : (keyword "NOT").Fails s)
    (hlike : (keyword "LIKE").Fails s) (hin : (keyword "IN").Fails s) :
    operator s = (signed ">=" .gte <|> signed "<=" .lte <|> signed "!=" .ne <|> signed "<>" .ne <|>
      signed "=" .eq <|> signed ">" .gt <|> signed "<" .lt : Reader Operator) s := by
  have hnegated : ∀ word op, (negated word op).Fails s := fun _ _ => hnot.bind _
  unfold operator
  rw [(hnegated "IN" .notIn).orElse_eq, (hnegated "LIKE" .notLike).orElse_eq,
    Reader.Fails.orElse_eq (p := spelled "LIKE" .like) (hlike.bind _),
    Reader.Fails.orElse_eq (p := spelled "IN" .isIn) (hin.bind _)]

theorem operator_of_sign {c : Char} {s : List Char} (hnot : keywordChar c ≠ 'N')
    (hlike : keywordChar c ≠ 'L') (hin : keywordChar c ≠ 'I') :
    operator (c :: s) = (signed ">=" .gte <|> signed "<=" .lte <|> signed "!=" .ne <|>
      signed "<>" .ne <|> signed "=" .eq <|> signed ">" .gt <|> signed "<" .lt : Reader Operator)
        (c :: s) := by
  have hfails : ∀ (d : Char) (t : List Char), keywordChar c ≠ keywordChar d →
      agreeAsKeywords (c :: s) (d :: t) = false := by
    intro d t hd
    change ((keywordChar c == keywordChar d) && agreeAsKeywords s t) = false
    rw [beq_eq_false_iff_ne.2 hd, Bool.false_and]
  exact operator_of_fails (keyword_fails_of_disagree (hfails 'N' _ hnot))
    (keyword_fails_of_disagree (hfails 'L' _ hlike))
    (keyword_fails_of_disagree (hfails 'I' _ hin))

theorem negated_phrase {word n w : String} (op : Operator) (hnot : Spells "NOT" n)
    (hword : Spells word w) (words : List String) :
    negated word op (n.toList ++ phrase (w :: words)) = .found op (phrase words) := by
  unfold negated
  rw [Reader.bind_of_found (keyword_phrase hnot), Reader.bind_of_found (gap1_phrase hword.firm),
    Reader.bind_of_found (keyword_phrase hword)]
  rfl

theorem spelled_phrase {word w : String} (op : Operator) (hword : Spells word w)
    (words : List String) :
    spelled word op (w.toList ++ phrase words) = .found op (phrase words) := by
  unfold spelled
  rw [Reader.bind_of_found (keyword_phrase hword)]
  rfl

/-- **An operator is read from its words**, as long as another word follows. -/
theorem OperatorWords.operator_phrase {op : Operator} {o : String} {ops : List String}
    (h : OperatorWords op (o :: ops)) (v : String) (words : List String) :
    operator (o.toList ++ phrase (ops ++ v :: words)) = .found op (phrase (v :: words)) := by
  cases h with
  | like hlike =>
    have hnegated : ∀ word op, (negated word op).Fails (o.toList ++ phrase (v :: words)) :=
      fun _ _ => (keyword_fails hlike (by decide) _).bind _
    unfold operator
    rw [List.nil_append, (hnegated "IN" .notIn).orElse_eq, (hnegated "LIKE" .notLike).orElse_eq]
    exact Reader.orElse_of_found (spelled_phrase .like hlike _)
  | isIn hin =>
    have hnegated : ∀ word op, (negated word op).Fails (o.toList ++ phrase (v :: words)) :=
      fun _ _ => (keyword_fails hin (by decide) _).bind _
    have hlike : (spelled "LIKE" .like).Fails (o.toList ++ phrase (v :: words)) :=
      (keyword_fails hin (by decide) _).bind _
    unfold operator
    rw [List.nil_append, (hnegated "IN" .notIn).orElse_eq, (hnegated "LIKE" .notLike).orElse_eq,
      hlike.orElse_eq]
    exact Reader.orElse_of_found (spelled_phrase .isIn hin _)
  | @notLike n l hnot hlike =>
    have hnotIn : (negated "IN" .notIn).Fails (o.toList ++ phrase (l :: v :: words)) :=
      .bind_of_found (keyword_phrase hnot) (.bind_of_found (gap1_phrase hlike.firm)
        ((keyword_fails hlike (by decide) _).bind _))
    unfold operator
    rw [List.singleton_append, hnotIn.orElse_eq]
    exact Reader.orElse_of_found (negated_phrase .notLike hnot hlike _)
  | notIn hnot hin =>
    unfold operator
    exact Reader.orElse_of_found (negated_phrase .notIn hnot hin _)
  | _ => exact (operator_of_sign (by decide) (by decide) (by decide)).trans rfl

/-- A quoted literal is read as it stands. -/
theorem quotedLiteral_append {value v : String} (h : Writes value v.toList) (rest : List Char) :
    quotedLiteral (v.toList ++ rest) = .found v rest := by
  obtain ⟨quote, hquote, hv⟩ := h
  have hscan : literal? (v.toList ++ rest) = some (v.toList, rest) := by
    rw [hv, literal?_append _ hquote]
  unfold quotedLiteral
  rw [Reader.bind_of_found (Reader.ofScanner_of_some hscan), Reader.pure_apply,
    String.ofList_toList]

/-- **An operand is read as its word stands.** -/
theorem OperandWord.conditionValue_phrase {op : Operator} {operand : Operand} {v : String}
    (h : OperandWord op operand v) (words : List String) :
    conditionValue (v.toList ++ phrase words) = .found v (phrase words) := by
  cases h with
  | scalar _ h => exact Reader.orElse_of_found (quotedLiteral_append h _)
  | single _ h => exact Reader.orElse_of_found (quotedLiteral_append h _)
  | list _ h hw =>
    have hfails : quotedLiteral.Fails (v.toList ++ phrase words) := by
      have hnone : (Reader.ofScanner literal?).Fails (v.toList ++ phrase words) := by
        rw [hw]
        exact ⟨_, rfl⟩
      exact hnone.bind _
    have hscan : group? (v.toList ++ phrase words) = some (v.toList, phrase words) := by
      have hgroup := h.group?_append (phrase words)
      rw [hw]
      simp only [List.cons_append, List.append_assoc, List.nil_append, hgroup]
    refine hfails.orElse_eq.trans (Reader.orElse_of_found ?_)
    unfold parenthesized
    rw [Reader.bind_of_found (Reader.ofScanner_of_some hscan), Reader.pure_apply,
      String.ofList_toList]

/-- **The operand that is made of the word is the one that was written.** -/
theorem OperandWord.ofFilter_eq {op : Operator} {operand : Operand} {v : String}
    (h : OperandWord op operand v) (target : Target) :
    Condition.ofFilter { target, operator := op, value := some v } =
      .ok { target, operator := op, operand } := by
  unfold Condition.ofFilter
  dsimp only
  cases h with
  | scalar hop h => rw [if_neg (by simp [hop]), h.value_eq]
  | list hop h hw =>
    have hvalues := h.listedValues_eq
    rw [← hw, String.ofList_toList] at hvalues
    rw [if_pos hop, hvalues]
  | single hop h =>
    have hvalues := h.listedValues_eq
    rw [String.ofList_toList] at hvalues
    rw [if_pos hop, hvalues]

/-- The clause of a condition starts with `WHERE`. -/
theorem filter_fails {kw w : String} (hkw : kw ∈ ["ORDER", "LIMIT", "OFFSET"])
    (h : Spells kw w) (rest : List Char) : Grammar.filter.Fails (w.toList ++ rest) := by
  have hdiffer : ∀ kw ∈ ["ORDER", "LIMIT", "OFFSET"],
      agreeAsKeywords kw.toList "WHERE".toList = false := by decide
  exact (keyword_fails h (hdiffer kw hkw) rest).bind _

/-- **A condition is read from its clause**, and a missing one is not read from a later clause. -/
theorem ConditionWords.optional_filter {condition : Option Condition} {words : List String}
    (h : ConditionWords condition words) {more : List String}
    (hmore : NextIsOneOf ["ORDER", "LIMIT", "OFFSET"] more) :
    ∃ filter, Reader.optional (Grammar.spaced Grammar.filter) (phrase (words ++ more)) =
        .found filter (phrase more) ∧
      filter.mapM Condition.ofFilter = .ok condition := by
  cases h with
  | missing =>
    have hfails : (Grammar.spaced Grammar.filter).Fails (phrase more) :=
      hmore.fails_spaced fun kw hkw w hw rest => filter_fails hkw hw rest
    exact ⟨none, hfails.optional, rfl⟩
  | @present target operator operand w t v ops hwhere htarget hoperator hoperand =>
    obtain ⟨o, ops, rfl⟩ : ∃ o ops', ops = o :: ops' := by
      cases hoperator <;> exact ⟨_, _, rfl⟩
    have hvalue : Reader.optional (do gap; conditionValue) (phrase (v :: more)) =
        .found (some v) (phrase more) := by
      refine Reader.optional_of_found ?_
      rw [Reader.bind_of_found (gap_phrase hoperand.firm)]
      exact hoperand.conditionValue_phrase more
    have hwords : w :: t :: (o :: ops ++ [v]) ++ more = w :: t :: o :: (ops ++ v :: more) := by simp
    have hfirm := hoperator.firm o List.mem_cons_self
    refine ⟨some { target, operator, value := some v }, Reader.optional_of_found ?_, ?_⟩
    · rw [hwords]
      unfold Grammar.spaced Grammar.filter
      rw [Reader.bind_of_found (gap1_phrase hwhere.firm),
        Reader.bind_of_found (keyword_phrase hwhere),
        Reader.bind_of_found (gap1_phrase htarget.firm),
        Reader.bind_of_found (htarget.target_phrase _), Reader.bind_of_found (gap_phrase hfirm),
        Reader.bind_of_found (hoperator.operator_phrase v more), Reader.bind_of_found hvalue]
      rfl
    · rw [Option.mapM_some, hoperand.ofFilter_eq target]
      rfl

/-! ### Order and counts -/

/-- `[ORDER BY <field> [ASC|DESC]]`; the order is ascending unless `DESC` is written. -/
inductive OrderWords : Option String → Bool → List String → Prop where
  | missing : OrderWords none true []
  | unmarked {o b field : String} (horder : Spells "ORDER" o) (hby : Spells "BY" b)
      (hfield : IsIdentifier field) : OrderWords (some field) true [o, b, field]
  | ascending {o b field d : String} (horder : Spells "ORDER" o) (hby : Spells "BY" b)
      (hfield : IsIdentifier field) (hasc : Spells "ASC" d) :
      OrderWords (some field) true [o, b, field, d]
  | descending {o b field d : String} (horder : Spells "ORDER" o) (hby : Spells "BY" b)
      (hfield : IsIdentifier field) (hdesc : Spells "DESC" d) :
      OrderWords (some field) false [o, b, field, d]

/-- `[<keyword> <count>]`, with the count, below `2 ^ 64`, in decimal digits. -/
inductive CountWords (keyword : String) : Option Nat → List String → Prop where
  | missing : CountWords keyword none []
  | present {w : String} {n : Nat} (hkeyword : Spells keyword w) (hn : n < 18446744073709551616) :
      CountWords keyword (some n) [w, toString n]

theorem OrderWords.firm {field : Option String} {ascending : Bool} {words : List String}
    (h : OrderWords field ascending words) : ∀ w ∈ words, Firm w := by
  cases h with
  | missing => nofun
  | unmarked horder hby hfield => simpa using ⟨horder.firm, hby.firm, hfield.firm⟩
  | ascending horder hby hfield hasc =>
    simpa using ⟨horder.firm, hby.firm, hfield.firm, hasc.firm⟩
  | descending horder hby hfield hdesc =>
    simpa using ⟨horder.firm, hby.firm, hfield.firm, hdesc.firm⟩

theorem toList_toString (n : Nat) : (toString n).toList = Nat.toDigits 10 n :=
  String.toList_ofList

theorem isWordChar_of_isDigit {c : Char} (h : isDigit c = true) : isWordChar c = true := by
  have hlt : c.toNat < 128 := by
    simp only [isDigit, Bool.and_eq_true, decide_eq_true_eq, Char.le_def,
      UInt32.le_iff_toNat_le] at h
    have h' : 48 ≤ c.toNat ∧ c.toNat ≤ 57 := h
    omega
  simp [isWordChar, isAlnum, hlt, h]

theorem firm_toString (n : Nat) : Firm (toString n) := by
  refine .of_forall ?_ fun c hc => ?_
  · rw [toList_toString]
    exact Nat.toDigits_ne_nil
  · rw [toList_toString] at hc
    exact isBlank_of_isWordChar (isWordChar_of_isDigit (isDigit_of_mem_toDigits hc))

theorem CountWords.firm {keyword : String} {count : Option Nat} {words : List String}
    (h : CountWords keyword count words) : ∀ w ∈ words, Firm w := by
  cases h with
  | missing => nofun
  | @present w n hkeyword hn => simpa using ⟨hkeyword.firm, firm_toString n⟩

theorem direction_fails {kw w : String} (hkw : kw ∈ ["LIMIT", "OFFSET"]) (h : Spells kw w)
    (rest : List Char) :
    Reader.Fails (keyword "ASC" <|> keyword "DESC") (w.toList ++ rest) := by
  have hdiffer : ∀ kw ∈ ["LIMIT", "OFFSET"], agreeAsKeywords kw.toList "ASC".toList = false ∧
      agreeAsKeywords kw.toList "DESC".toList = false := by decide
  exact .orElse (keyword_fails h (hdiffer kw hkw).1 rest) (keyword_fails h (hdiffer kw hkw).2 rest)

theorem orderBy_fails {kw w : String} (hkw : kw ∈ ["LIMIT", "OFFSET"]) (h : Spells kw w)
    (rest : List Char) : Grammar.orderBy.Fails (w.toList ++ rest) := by
  have hdiffer : ∀ kw ∈ ["LIMIT", "OFFSET"], agreeAsKeywords kw.toList "ORDER".toList = false := by
    decide
  exact (keyword_fails h (hdiffer kw hkw) rest).bind _

theorem isDescending_of_spells {kw d : String} (h : Spells kw d) :
    isDescending (some d) = sameAscii kw.toList "DESC".toList := by
  change sameAscii d.toList _ = _
  unfold sameAscii
  rw [h.upper_eq]

/-- `ORDER BY <field>`, in front of what is read as its direction. -/
theorem orderBy_phrase {o b field : String} {direction : Option String} {words more : List String}
    (horder : Spells "ORDER" o) (hby : Spells "BY" b) (hfield : IsIdentifier field)
    (hdirection : Reader.optional (Grammar.spaced (keyword "ASC" <|> keyword "DESC"))
      (phrase words) = .found direction (phrase more)) :
    Reader.optional (Grammar.spaced Grammar.orderBy) (phrase (o :: b :: field :: words)) =
      .found (some (field, direction)) (phrase more) := by
  refine Reader.optional_of_found ?_
  unfold Grammar.spaced at hdirection ⊢
  unfold Grammar.orderBy Grammar.spaced
  rw [Reader.bind_of_found (gap1_phrase horder.firm),
    Reader.bind_of_found (keyword_phrase horder), Reader.bind_of_found (gap1_phrase hby.firm),
    Reader.bind_of_found (keyword_phrase hby), Reader.bind_of_found (gap1_phrase hfield.firm),
    Reader.bind_of_found (identifier_phrase hfield), Reader.bind_of_found hdirection]
  rfl

/-- **An order is read from its clause**, with its direction. -/
theorem OrderWords.optional_orderBy {field : Option String} {ascending : Bool} {words : List String}
    (h : OrderWords field ascending words) {more : List String}
    (hmore : NextIsOneOf ["LIMIT", "OFFSET"] more) :
    ∃ order, Reader.optional (Grammar.spaced Grammar.orderBy) (phrase (words ++ more)) =
        .found order (phrase more) ∧
      order.map (·.1) = field ∧ (!isDescending (order.bind (·.2))) = ascending := by
  cases h with
  | missing =>
    have hfails : (Grammar.spaced Grammar.orderBy).Fails (phrase more) :=
      hmore.fails_spaced fun kw hkw w hw rest => orderBy_fails hkw hw rest
    exact ⟨none, hfails.optional, rfl, rfl⟩
  | unmarked horder hby hfield =>
    have hfails : (Grammar.spaced (keyword "ASC" <|> keyword "DESC")).Fails (phrase more) :=
      hmore.fails_spaced fun kw hkw w hw rest => direction_fails hkw hw rest
    have hdirection : Reader.optional (Grammar.spaced (keyword "ASC" <|> keyword "DESC"))
        (phrase ([] ++ more)) = .found none (phrase more) := hfails.optional
    exact ⟨_, orderBy_phrase horder hby hfield hdirection, rfl, rfl⟩
  | @ascending o b field d horder hby hfield hasc =>
    have hdirection : Reader.optional (Grammar.spaced (keyword "ASC" <|> keyword "DESC"))
        (phrase ([d] ++ more)) = .found (some d) (phrase more) := by
      refine Reader.optional_of_found ((Reader.bind_of_found (gap1_phrase hasc.firm)).trans ?_)
      exact Reader.orElse_of_found (keyword_phrase hasc)
    refine ⟨_, orderBy_phrase horder hby hfield hdirection, rfl, ?_⟩
    change (!isDescending (some d)) = true
    rw [isDescending_of_spells hasc]
    rfl
  | @descending o b field d horder hby hfield hdesc =>
    have hdirection : Reader.optional (Grammar.spaced (keyword "ASC" <|> keyword "DESC"))
        (phrase ([d] ++ more)) = .found (some d) (phrase more) := by
      refine Reader.optional_of_found ((Reader.bind_of_found (gap1_phrase hdesc.firm)).trans ?_)
      exact ((keyword_fails hdesc (by decide) _).orElse_eq).trans (keyword_phrase hdesc)
    refine ⟨_, orderBy_phrase horder hby hfield hdirection, rfl, ?_⟩
    change (!isDescending (some d)) = false
    rw [isDescending_of_spells hdesc]
    rfl

/-- **A count is read from its clause.** The keywords that may follow have to differ from its
own. -/
theorem CountWords.optional_counted {kw : String} {n : Option Nat} {words : List String}
    (h : CountWords kw n words) {keywords more : List String} (hmore : NextIsOneOf keywords more)
    (hdiffer : ∀ other ∈ keywords, agreeAsKeywords other.toList kw.toList = false) :
    Reader.optional (Grammar.counted kw) (phrase (words ++ more)) = .found n (phrase more) := by
  cases h with
  | missing =>
    have hfails : (Grammar.spaced (do let _ ← keyword kw; gap1; count)).Fails (phrase more) :=
      hmore.fails_spaced fun other hother w hw rest =>
        (keyword_fails hw (hdiffer other hother) rest).bind _
    exact hfails.optional
  | @present w n hkeyword hn =>
    have hdigits : Reader.takeWhile1 isDigit ((toString n).toList ++ phrase more) =
        .found (toString n).toList (phrase more) := by
      refine Reader.takeWhile1_append (firm_toString n).1 (fun c hc => ?_)
        (head?_phrase_not (by decide) more)
      rw [toList_toString] at hc
      exact isDigit_of_mem_toDigits hc
    have hvalue : Nat.ofDigitChars 10 (toString n).toList 0 = n := by
      rw [toList_toString]
      exact Nat.ofDigitChars_ten_toDigits
    have hcount : count ((toString n).toList ++ phrase more) = .found n (phrase more) := by
      unfold count Reader.accepting
      rw [hdigits]
      dsimp only
      rw [hvalue, if_pos hn]
    refine Reader.optional_of_found ?_
    unfold Grammar.counted
    rw [List.cons_append, List.singleton_append, Reader.bind_of_found (gap1_phrase hkeyword.firm),
      Reader.bind_of_found (keyword_phrase hkeyword),
      Reader.bind_of_found (gap1_phrase (firm_toString n))]
    exact hcount

end Tabular
