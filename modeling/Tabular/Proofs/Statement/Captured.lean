import Tabular.Proofs.Statement.Clauses
import Tabular.Proofs.Text.Captured

/-!
The texts that a statement takes over as they stand.

A grammar reads keywords, names, numbers and signs, which are plain text, and takes over some texts
without reading them: what stands between backticks, the value of a condition, parameters, lists of
columns and values, assignments. Main statement: the text of a statement is plain but for these
texts (`Statement.plainBut_of_parse`).
-/

namespace Tabular

open Tabular.Text

/-! ### The texts -/

/-- The column that a condition names. -/
def Target.captured : Target → List String
  | .primaryKey => []
  | .field name => [name]

/-- The column and the value of a condition. -/
def Filter.captured (filter : Filter) : List String :=
  filter.target.captured ++ filter.value.toList

/-- The text of the values of an insertion. -/
def Values.text : Values → String
  | .clause text => text
  | .bare text => text

/-- The texts that a statement takes over as they stand, in their order. -/
def Statement.captured : Statement → List String
  | .init _ | .describe .. | .drop .. => []
  | .create _ _ parameters => parameters.toList
  | .insert _ columns values => columns.toList ++ [values.text]
  | .find search => search.filter.elim [] Filter.captured
  | .show pattern => pattern.toList
  | .delete _ filter => filter.elim [] Filter.captured
  | .update _ assignments filter => assignments :: filter.elim [] Filter.captured

/-! ### Plain readers -/

/-- Whatever a reader takes is plain text. -/
def Reader.TakesPlain {α : Type} (p : Reader α) : Prop :=
  p.Takes fun _ t => Plain t

namespace Reader.TakesPlain

variable {α β : Type} {p q : Reader α}

protected theorem pure (a : α) : Reader.TakesPlain (pure a) :=
  Takes.pure Plain.nil

protected theorem bind {k : α → Reader β} (hp : p.TakesPlain) (hk : ∀ a, (k a).TakesPlain) :
    Reader.TakesPlain (p >>= k) :=
  Takes.bind hp fun a _ ht => (hk a).mono fun _ _ hu => ht.append hu

protected theorem orElse (hp : p.TakesPlain) (hq : q.TakesPlain) :
    Reader.TakesPlain (p <|> q) :=
  Takes.orElse hp hq

protected theorem optional (hp : p.TakesPlain) : (Reader.optional p).TakesPlain :=
  (Takes.optional hp).mono fun a? t h => by
    cases a? with
    | none => exact (show t = [] from h) ▸ Plain.nil
    | some a => exact h

protected theorem many (hp : p.TakesPlain) : (Reader.many p).TakesPlain :=
  Takes.many hp Plain.nil fun _ _ => Plain.append

protected theorem taken (hp : p.TakesPlain) : (Reader.taken p).TakesPlain :=
  (Takes.taken hp).mono fun _ _ h => h.2.elim fun _ ht => ht

/-- Plain text in front of a text that is plain but for some texts. -/
theorem bind_plainBut {k : α → Reader β} {captured : β → List String} (hp : p.TakesPlain)
    (hk : ∀ a, (k a).Takes fun b t => PlainBut (captured b) t) :
    Reader.Takes (p >>= k) fun b t => PlainBut (captured b) t :=
  Takes.bind hp fun a _ ht => (hk a).mono fun _ _ hu => hu.plain_append ht

end Reader.TakesPlain

/-- A part that is missing takes no texts over. -/
theorem Reader.Takes.optional_plainBut {α : Type} {p : Reader α} {captured : α → List String}
    (hp : p.Takes fun a t => PlainBut (captured a) t) :
    (Reader.optional p).Takes fun a? t => PlainBut (a?.elim [] captured) t :=
  hp.optional.mono fun a? t ht => by
    cases a? with
    | none => exact .plain ((show t = [] from ht) ▸ .nil)
    | some a => exact ht

/-- A reader that takes some plain text. -/
theorem Reader.Takes.plain {α : Type} {p : Reader α} (h : p.Takes fun _ t => Filler t) :
    p.TakesPlain :=
  h.mono fun _ _ ht => ht.plain

/-! ### Tokens -/

namespace Token

open Reader

theorem isPlain_of_isNameChar {c : Char} (h : isNameChar c = true) : isPlain c = true := by
  simp [isPlain, isQuote_of_isNameChar h, ne_of_isNameChar h (d := '\\') (by decide +kernel)]

theorem takesPlain_gap : gap.TakesPlain :=
  .bind ((takes_takeWhile _).mono fun _ _ h =>
    .of_isBlank fun c hc => isBlank_of_isGap (h.2 c hc)) fun _ => .pure ()

theorem takes_gap1 : gap1.Takes fun _ t => Filler t :=
  .bind (takes_takeWhile1 _) fun _ t ht => .pure <| by
    rw [List.append_nil]
    exact ⟨.of_isBlank fun c hc => isBlank_of_isGap (ht.2.2 c hc), ht.2.1⟩

/-- What is cut off a text by its bytes has no more characters than bytes. -/
theorem splitBytes?_eq_some {n : Nat} {s head rest : List Char}
    (h : splitBytes? n s = some (head, rest)) :
    s = head ++ rest ∧ head.length ≤ n ∧ (n ≠ 0 → head ≠ []) := by
  fun_induction splitBytes? n s generalizing head with
  | case1 s =>
    obtain ⟨rfl, rfl⟩ := Prod.mk.inj (Option.some.inj h)
    exact ⟨rfl, Nat.le_refl 0, fun hne => absurd rfl hne⟩
  | case2 n => exact nomatch h
  | case3 n c s hle ih =>
    obtain ⟨⟨head', later⟩, hlater, hx⟩ := Option.map_eq_some_iff.1 h
    obtain ⟨rfl, rfl⟩ := Prod.mk.inj hx
    obtain ⟨rfl, hlength, -⟩ := ih hlater
    have hsize := c.utf8Size_pos
    have hmore : head'.length + 1 ≤ n + 1 := by omega
    exact ⟨rfl, hmore, fun _ => List.cons_ne_nil _ _⟩
  | case4 n c s hlt => exact nomatch h

theorem keywordChar_of_agree {head rest t : List Char}
    (h : agreeAsKeywords (head ++ rest) t = true) (hlength : head.length ≤ t.length) :
    ∀ c ∈ head, ∃ d ∈ t, keywordChar c = keywordChar d := by
  induction head generalizing t with
  | nil => nofun
  | cons c head ih =>
    cases t with
    | nil => exact absurd hlength (by simp)
    | cons d t =>
      obtain ⟨hcd, hlater⟩ := Bool.and_eq_true_iff.1
        (show ((keywordChar c == keywordChar d) && agreeAsKeywords (head ++ rest) t) = true from h)
      refine List.forall_mem_cons.2 ⟨⟨d, List.mem_cons_self, eq_of_beq hcd⟩, fun e he => ?_⟩
      obtain ⟨f, hf, hef⟩ := ih hlater (Nat.le_of_succ_le_succ hlength) e he
      exact ⟨f, List.mem_cons_of_mem d hf, hef⟩

/-- What counts as a letter of a keyword is plain. -/
theorem isPlain_of_keywordChar {c d : Char} (hd : isAsciiLetter d = true)
    (h : keywordChar c = keywordChar d) : isPlain c = true := by
  have hupper : isAsciiLetter (keywordChar d) = true := by
    unfold keywordChar
    split
    · decide
    · rw [isAsciiLetter_asciiUpper, hd]
  cases hplain : isPlain c with
  | true => rfl
  | false =>
    have hc : (c = '\'' ∨ c = '"') ∨ c = '\\' := by
      simpa only [isPlain, isQuote, Bool.and_eq_false_iff, Bool.not_eq_false', Bool.or_eq_true,
        beq_iff_eq, bne_eq_false_iff_eq] using hplain
    rw [← h] at hupper
    rcases hc with (rfl | rfl) | rfl <;> exact absurd hupper (by decide)

variable {kw : String}

theorem takes_textNoCase (h : Spells kw kw) :
    (textNoCase kw.toList).Takes fun _ t => Filler t := by
  intro s x rest hfound
  unfold textNoCase at hfound
  split at hfound
  · next htext =>
    have hagree := (Bool.and_eq_true_iff.1 htext).1
    split at hfound
    · next hsplit =>
      obtain ⟨rfl, rfl⟩ := Reading.found.inj hfound
      obtain ⟨rfl, hlength, hne⟩ := splitBytes?_eq_some hsplit
      rw [byteLength_eq_length h.ascii] at hlength hne
      refine ⟨_, rfl, fun c hc => ?_, hne (mt List.length_eq_zero_iff.1 h.ne_nil)⟩
      obtain ⟨d, hd, hcd⟩ := keywordChar_of_agree hagree hlength c hc
      exact isPlain_of_keywordChar (h.letters d hd) hcd
    · exact nomatch hfound
  · exact nomatch hfound

theorem takes_keyword (h : Spells kw kw) : (keyword kw).Takes fun _ t => Filler t :=
  (takes_textNoCase h).bind fun _ t ht => (takes_notBefore _).bind fun _ u hu => .pure <| by
    rw [hu, List.append_nil, List.append_nil]
    exact ht

theorem takes_name {f : Char → Bool} (hf : ∀ c, f c = true → isPlain c = true) :
    Reader.Takes (do return String.ofList (← takeWhile1 f)) fun name t =>
      t = name.toList ∧ Filler t :=
  (takes_takeWhile1 f).bind fun x t ht => .pure <| by
    obtain ⟨rfl, hne, hall⟩ := ht
    rw [List.append_nil, String.toList_ofList]
    exact ⟨rfl, fun c hc => hf c (hall c hc), hne⟩

theorem takes_identifier : identifier.Takes fun name t => t = name.toList ∧ Filler t :=
  takes_name fun _ => isPlain_of_isNameChar

theorem takesPlain_identifier : identifier.TakesPlain :=
  takes_identifier.mono fun _ _ h => h.2.plain

theorem takesPlain_databaseName : databaseName.TakesPlain :=
  (takes_name fun c hc => by
    rcases Bool.or_eq_true_iff.1 hc with hc | hc
    · exact isPlain_of_isNameChar (by simp [isNameChar, hc])
    · exact eq_of_beq hc ▸ by decide).mono fun _ _ h => h.2.plain

theorem takesPlain_elementName : ∀ kind, (elementName kind).TakesPlain
  | .database => takesPlain_databaseName
  | .table => (takes_name fun c hc => isPlain_of_isNameChar (by simp [isNameChar, hc])).mono
      fun _ _ h => h.2.plain

theorem takesPlain_elementKind : elementKind.TakesPlain :=
  .orElse
    (.bind (.orElse (takes_keyword (by decide)).plain (takes_keyword (by decide)).plain)
      fun _ => .pure _)
    (.bind (.orElse (takes_keyword (by decide)).plain (takes_keyword (by decide)).plain)
      fun _ => .pure _)

/-! ### Conditions -/

/-- The column of a condition stands in backticks or is a name. -/
theorem takes_target :
    target.Takes fun tgt t => ∀ p, Filler p → PlainBut tgt.captured (p ++ t) := by
  have hkeyword : Filler "PRIMARY_KEY".toList := by decide
  refine .orElse ?_ (.orElse ?_ ?_)
  · refine (takes_text _).bind fun _ t ht => (takes_notBefore _).bind fun _ u hu => .pure ?_
    intro p hp
    rw [ht, hu, List.append_nil, List.append_nil]
    exact .plain (hp.append_plain hkeyword.plain).plain
  · refine (takes_char _).bind fun _ t ht => (takes_takeWhile1 _).bind fun name u hu =>
      (takes_char _).bind fun _ v hv => .pure ?_
    intro p hp
    obtain ⟨rfl, -⟩ := hu
    rw [ht.2, hv.2, List.append_nil, ← List.append_assoc]
    have h := PlainBut.behind (hp.append_plain (u := ['\x60']) (by decide))
      (.plain (t := ['\x60']) (by decide)) (x := String.ofList name)
    rwa [String.toList_ofList] at h
  · refine takes_identifier.bind fun name t ht => .pure ?_
    intro p hp
    rw [List.append_nil, ht.1]
    exact .single hp name

theorem takes_negated {word : String} (h : Spells word word) (op : Operator) :
    (negated word op).Takes fun _ t => Filler t := by
  have hnot : Spells "NOT" "NOT" := by decide
  exact (takes_keyword hnot).bind fun _ _ ht => takes_gap1.bind fun _ _ hu =>
    (takes_keyword h).bind fun _ _ hv =>
      .pure (ht.append_plain (hu.plain.append (hv.plain.append .nil)))

theorem takes_spelled {word : String} (h : Spells word word) (op : Operator) :
    (spelled word op).Takes fun _ t => Filler t :=
  (takes_keyword h).bind fun _ _ ht => .pure (ht.append_plain .nil)

theorem takes_signed {signs : String} (h : Filler signs.toList) (op : Operator) :
    (signed signs op).Takes fun _ t => Filler t :=
  (takes_text _).bind fun _ _ ht => .pure (ht ▸ h.append_plain .nil)

theorem takes_operator : operator.Takes fun _ t => Filler t := by
  unfold operator
  refine .orElse (takes_negated ?_ _) <| .orElse (takes_negated ?_ _) <|
    .orElse (takes_spelled ?_ _) <| .orElse (takes_spelled ?_ _) <|
    .orElse (takes_signed ?_ _) <| .orElse (takes_signed ?_ _) <| .orElse (takes_signed ?_ _) <|
    .orElse (takes_signed ?_ _) <| .orElse (takes_signed ?_ _) <| .orElse (takes_signed ?_ _) <|
    takes_signed ?_ _
  all_goals decide

/-! ### Values -/

/-- The value of a condition is the text that was read. -/
theorem takes_conditionValue : conditionValue.Takes fun v t => t = v.toList := by
  have hread : ∀ {p : Reader (List Char)}, p.Takes (fun x t => x = t) →
      Reader.Takes (do return String.ofList (← p)) fun v t => t = v.toList := fun hp =>
    hp.bind fun x t ht => .pure (by rw [List.append_nil, String.toList_ofList, ht])
  refine .orElse (hread ?_) (.orElse (hread ?_) ?_)
  · exact (takes_ofScanner (P := fun _ => True) fun _ _ _ h => ⟨literal?_eq_some h, trivial⟩).mono
      fun _ _ h => h.1
  · exact (takes_ofScanner fun _ _ _ h => group?_eq_some h).mono fun _ _ h => h.1
  · refine (takes_takeWhile1 _).accepting fun x v t hv ht => ?_
    split at hv
    · exact nomatch hv
    · rw [← Option.some.inj hv, String.toList_ofList, ht.1]

/-- The inside of a group stands between parentheses. -/
theorem takes_parenthesizedInner : parenthesizedInner.Takes fun x t => PlainBut [x] t :=
  (takes_ofScanner fun _ _ _ h => group?_eq_some h).bind fun x t ht => .pure <| by
    obtain ⟨rfl, hx⟩ := ht
    have h := PlainBut.behind (p := ['(']) (by decide) (.plain (t := [')']) (by decide))
      (x := String.ofList (dropEnds x))
    rw [String.toList_ofList, List.singleton_append, ← hx] at h
    rwa [List.append_nil]

theorem beforeKeyword_append (word : List Char) (st : Scan) (afterBlank : Bool) (s : List Char) :
    (beforeKeyword word st afterBlank s).1 ++ (beforeKeyword word st afterBlank s).2 = s := by
  induction s generalizing st afterBlank with
  | nil => rfl
  | cons c s ih =>
    rw [beforeKeyword]
    split
    · rfl
    · exact congrArg (c :: ·) (ih _ _)

/-- Only the white space in front of the keyword is lost. -/
theorem takes_upToKeyword (word : String) :
    (upToKeyword word).Takes fun x t => ∃ r, Plain r ∧ t = x.toList ++ r := by
  intro s x rest hfound
  have happend := beforeKeyword_append word.toList .outside false s
  unfold upToKeyword at hfound
  split at hfound
  · obtain ⟨rfl, rfl⟩ := Reading.found.inj hfound
    exact ⟨s, (List.append_nil s).symm, [], .nil, by rw [String.toList_ofList, List.append_nil]⟩
  · next before rest' _ hbefore =>
    obtain ⟨rfl, rfl⟩ := Reading.found.inj hfound
    obtain ⟨r, hr, hplain⟩ := exists_plain_behind_trimEnd before
    rw [hbefore] at happend
    exact ⟨before, happend.symm, r, hplain, by rwa [String.toList_ofList]⟩

theorem takesPlain_char {c : Char} (h : isPlain c = true) : (char c).TakesPlain :=
  (takes_char c).mono fun _ _ ht => ht.2 ▸ List.forall_mem_singleton.2 h

theorem takesPlain_comma : comma.TakesPlain :=
  takesPlain_gap.bind fun _ => (takesPlain_char (by decide)).bind fun _ =>
    takesPlain_gap.bind fun _ => .pure _

end Token

/-! ### Verbs -/

namespace Grammar

open Reader Token

theorem takesPlain_spaced {α : Type} {p : Reader α} (hp : p.TakesPlain) : (spaced p).TakesPlain :=
  takes_gap1.plain.bind fun _ => hp

theorem takes_init : init.Takes fun st t => PlainBut st.captured t := by
  refine (takes_keyword (by decide)).plain.bind_plainBut fun _ =>
    takes_gap1.plain.bind_plainBut fun _ => takesPlain_databaseName.bind_plainBut fun _ => .pure ?_
  exact .plain .nil

theorem takes_nonBlankRemainder : nonBlankRemainder.Takes fun x t => t = x.toList :=
  takes_remainder.accepting fun s x t hx ht => by
    split at hx
    · exact nomatch hx
    · rw [← Option.some.inj hx, String.toList_ofList, ht]

/-- A text behind some white space. -/
theorem takes_spaced {p : Reader String} (hp : p.Takes fun x t => t = x.toList) :
    (spaced p).Takes fun x t => PlainBut [x] t :=
  takes_gap1.bind fun _ _ ht => hp.mono fun x _ hu => hu ▸ .single ht x

theorem takes_parameters : parameters.Takes fun x t => PlainBut [x] t :=
  .orElse (takesPlain_gap.bind_plainBut fun _ => takes_parenthesizedInner)
    (takes_spaced takes_nonBlankRemainder)

theorem takes_create : create.Takes fun st t => PlainBut st.captured t := by
  refine (takes_keyword (by decide)).plain.bind_plainBut fun _ =>
    takes_gap1.plain.bind_plainBut fun _ => takesPlain_elementKind.bind_plainBut fun kind =>
    takes_gap1.plain.bind_plainBut fun _ => (takesPlain_elementName kind).bind_plainBut fun _ =>
    takes_parameters.optional_plainBut.bind fun params t ht => .pure ?_
  rw [List.append_nil]
  cases params with
  | none => exact ht
  | some x =>
    have htrimmed : PlainBut [trimmed x] t := PlainBut.trim_head ht
    change PlainBut (Option.filter (· != "") (some (trimmed x))).toList t
    by_cases hx : trimmed x = ""
    · rw [hx] at htrimmed ⊢
      exact htrimmed.of_empty
    · rw [Option.filter_some, if_pos (bne_iff_ne.2 hx)]
      exact htrimmed

/-- The captured texts of an insertion are those of its part behind the table, trimmed. -/
theorem takes_namedValues : namedValues.Takes fun x t =>
    PlainBut (x.1.toList ++ [x.2.text]) t := by
  refine takesPlain_gap.bind_plainBut fun _ => takes_parenthesizedInner.bind fun columns t ht =>
    Takes.bind takesPlain_gap fun _ u hu => (takes_keyword (by decide)).bind fun _ v hv =>
    Takes.bind takesPlain_gap fun _ w hw => takes_parenthesizedInner.bind fun values x hx =>
    .pure ?_
  rw [List.append_nil]
  exact ht.append (((hx.plain_append hw).plain_append hv.plain).plain_append hu)

theorem takes_clauseValues : clauseValues.Takes fun x t =>
    PlainBut (x.1.toList ++ [x.2.text]) t := by
  refine takes_gap1.plain.bind_plainBut fun _ =>
    (takes_keyword (by decide)).plain.bind_plainBut fun _ => takesPlain_gap.bind_plainBut fun _ =>
    takes_parenthesizedInner.bind fun values t ht => .pure ?_
  rw [List.append_nil]
  exact ht

theorem takes_bareValues : bareValues.Takes fun x t =>
    PlainBut (x.1.toList ++ [x.2.text]) t := by
  refine (takes_spaced takes_nonBlankRemainder).bind fun values t ht => .pure ?_
  rw [List.append_nil]
  exact ht.trim_head

theorem takes_insert : insert.Takes fun st t => PlainBut st.captured t := by
  have hinto : (do let _ ← keyword "INTO"; gap1 : Reader Unit).TakesPlain :=
    (takes_keyword (by decide)).plain.bind fun _ => takes_gap1.plain
  refine (takes_keyword (by decide)).plain.bind_plainBut fun _ =>
    takes_gap1.plain.bind_plainBut fun _ => hinto.optional.bind_plainBut fun _ =>
    takesPlain_identifier.bind_plainBut fun table =>
    (takes_namedValues.orElse (takes_clauseValues.orElse takes_bareValues)).bind
      fun x t ht => .pure ?_
  rw [List.append_nil]
  obtain ⟨columns, values⟩ := x
  cases columns with
  | none => exact ht
  | some columns => exact PlainBut.trim_head ht

theorem takesPlain_columnList : columnList.TakesPlain :=
  .orElse
    ((takesPlain_char (by decide)).taken.bind fun _ => .pure _)
    (.bind (.taken (.bind takesPlain_identifier fun _ =>
      .bind (.many (.bind takesPlain_comma fun _ => takesPlain_identifier)) fun _ => .pure _))
      fun _ => .pure _)

theorem takesPlain_join : join.TakesPlain := by
  have hkind : joinKind.TakesPlain :=
    .bind
      (.orElse (.bind (takes_keyword (by decide)).plain fun _ => .pure _)
        (.orElse (.bind (takes_keyword (by decide)).plain fun _ => .pure _)
          (.bind (takes_keyword (by decide)).plain fun _ => .pure _)))
      fun _ => takes_gap1.plain.bind fun _ => .pure _
  exact hkind.optional.bind fun _ => (takes_keyword (by decide)).plain.bind fun _ =>
    takes_gap1.plain.bind fun _ => takesPlain_identifier.bind fun _ =>
    takes_gap1.plain.bind fun _ => (takes_keyword (by decide)).plain.bind fun _ =>
    takes_gap1.plain.bind fun _ => takesPlain_identifier.bind fun _ =>
    takesPlain_gap.bind fun _ => (takesPlain_char (by decide)).bind fun _ =>
    takesPlain_gap.bind fun _ => takesPlain_identifier.bind fun _ => .pure _

/-- **The captured texts of a condition are its column and its value.** -/
theorem takes_filter : filter.Takes fun f t => PlainBut f.captured t := by
  have hvalue : (do gap; conditionValue : Reader String).Takes fun v t =>
      ∃ g, Plain g ∧ t = g ++ v.toList :=
    Takes.bind takesPlain_gap fun _ g hg =>
      takes_conditionValue.mono fun v _ ht => ⟨g, hg, ht ▸ rfl⟩
  refine (takes_keyword (by decide)).bind fun _ p hp => takes_gap1.bind fun _ q hq =>
    takes_target.bind fun tgt t ht => Takes.bind takesPlain_gap fun _ g hg =>
    takes_operator.bind fun op o ho => hvalue.optional.bind fun v? u hu => .pure ?_
  have hcolumn := ht (p ++ q) (hp.append_plain hq.plain)
  have hsigns : Filler (g ++ o) := ho.plain_append hg
  cases v? with
  | none =>
    obtain rfl : u = [] := hu
    simpa [Filter.captured] using hcolumn.append_plain hsigns.plain
  | some v =>
    obtain ⟨g', hg', rfl⟩ := hu
    simpa [Filter.captured] using hcolumn.append (.single (hsigns.append_plain hg') v)

theorem takesPlain_orderBy : orderBy.TakesPlain :=
  (takes_keyword (by decide)).plain.bind fun _ => takes_gap1.plain.bind fun _ =>
  (takes_keyword (by decide)).plain.bind fun _ => takes_gap1.plain.bind fun _ =>
  takesPlain_identifier.bind fun _ =>
  (takesPlain_spaced
    (.orElse (takes_keyword (by decide)).plain (takes_keyword (by decide)).plain)).optional.bind
  fun _ => .pure _

theorem takesPlain_counted {word : String} (h : Spells word word) : (counted word).TakesPlain :=
  takes_gap1.plain.bind fun _ => (takes_keyword h).plain.bind fun _ =>
  takes_gap1.plain.bind fun _ => (takes_takeWhile1 _).accepting fun _ _ _ _ ht c hc =>
    isPlain_of_isNameChar (by simp [isNameChar, isWordChar_of_isDigit (ht.2.2 c hc)])

/-- A condition that may be missing. -/
theorem takes_optional_filter : (Reader.optional (spaced filter)).Takes fun f? t =>
    PlainBut (f?.elim [] Filter.captured) t :=
  (takes_gap1.plain.bind_plainBut fun _ => takes_filter).optional_plainBut

theorem takes_find : find.Takes fun st t => PlainBut st.captured t := by
  refine (takes_keyword (by decide)).plain.bind_plainBut fun _ =>
    (takesPlain_spaced (takes_keyword (by decide)).plain).optional.bind_plainBut fun _ =>
    takes_gap1.plain.bind_plainBut fun _ => takesPlain_columnList.bind_plainBut fun _ =>
    takes_gap1.plain.bind_plainBut fun _ => (takes_keyword (by decide)).plain.bind_plainBut fun _ =>
    takes_gap1.plain.bind_plainBut fun _ => takesPlain_identifier.bind_plainBut fun _ =>
    (takesPlain_spaced takesPlain_join).many.bind_plainBut fun _ =>
    takes_optional_filter.bind fun _ _ ht =>
    Takes.bind (takesPlain_spaced takesPlain_orderBy).optional fun _ _ hu =>
    Takes.bind (takesPlain_counted (by decide)).optional fun _ _ hv =>
    Takes.bind (takesPlain_counted (by decide)).optional fun _ _ hw => .pure ?_
  exact ht.append_plain (hu.append (hv.append (hw.append .nil)))

theorem takesPlain_element : element.TakesPlain :=
  takesPlain_elementKind.bind fun kind =>
    (takesPlain_spaced (takesPlain_elementName kind)).optional.bind fun _ => .pure _

theorem takes_describe : describe.Takes fun st t => PlainBut st.captured t := by
  refine TakesPlain.bind_plainBut
    (.orElse (takes_keyword (by decide)).plain (takes_keyword (by decide)).plain) fun _ =>
    takes_gap1.plain.bind_plainBut fun _ => takesPlain_element.bind_plainBut fun _ => .pure ?_
  exact .plain .nil

theorem takes_drop : drop.Takes fun st t => PlainBut st.captured t := by
  refine (takes_keyword (by decide)).plain.bind_plainBut fun _ =>
    takes_gap1.plain.bind_plainBut fun _ => takesPlain_element.bind_plainBut fun _ => .pure ?_
  exact .plain .nil

theorem takes_show : «show».Takes fun st t => PlainBut st.captured t := by
  have hlike : (do gap1; let _ ← keyword "LIKE"; gap1; conditionValue : Reader String).Takes
      fun x t => PlainBut [x] t :=
    takes_gap1.plain.bind_plainBut fun _ => (takes_keyword (by decide)).plain.bind_plainBut fun _ =>
      takes_spaced takes_conditionValue
  refine (takes_keyword (by decide)).plain.bind_plainBut fun _ =>
    (takesPlain_spaced
      (.orElse (takes_keyword (by decide)).plain
        (takes_keyword (by decide)).plain)).optional.bind_plainBut fun _ =>
    hlike.optional_plainBut.bind fun x? t ht => .pure ?_
  rw [List.append_nil]
  cases x? <;> exact ht

theorem takes_delete : delete.Takes fun st t => PlainBut st.captured t := by
  have hfrom : (do let _ ← keyword "FROM"; gap1 : Reader Unit).TakesPlain :=
    (takes_keyword (by decide)).plain.bind fun _ => takes_gap1.plain
  refine (takes_keyword (by decide)).plain.bind_plainBut fun _ =>
    takes_gap1.plain.bind_plainBut fun _ => hfrom.optional.bind_plainBut fun _ =>
    takesPlain_identifier.bind_plainBut fun _ => takes_optional_filter.bind fun _ _ ht => .pure ?_
  exact ht.append_plain .nil

theorem takes_update : update.Takes fun st t => PlainBut st.captured t := by
  have hassignments : (Reader.accepting (upToKeyword "WHERE")
      fun s => if s = "" then none else some s).Takes fun x t => ∃ r, Plain r ∧ t = x.toList ++ r :=
    (takes_upToKeyword "WHERE").accepting fun s x t hx ht => by
      split at hx
      · exact nomatch hx
      · exact Option.some.inj hx ▸ ht
  refine (takes_keyword (by decide)).plain.bind_plainBut fun _ =>
    takes_gap1.plain.bind_plainBut fun _ => takesPlain_identifier.bind_plainBut fun _ =>
    takes_gap1.plain.bind_plainBut fun _ => (takes_keyword (by decide)).plain.bind_plainBut fun _ =>
    takes_gap1.bind fun _ p hp => hassignments.bind fun x t ht =>
    takes_filter.optional_plainBut.bind fun f? u hu => .pure ?_
  obtain ⟨r, hr, rfl⟩ := ht
  rw [List.append_nil, List.append_assoc]
  exact .behind hp (hu.plain_append hr)

theorem takes_ofVerb (verb : Verb) : (ofVerb verb).Takes fun st t => PlainBut st.captured t := by
  cases verb with
  | init => exact takes_init
  | create => exact takes_create
  | insert => exact takes_insert
  | find => exact takes_find
  | describe => exact takes_describe
  | «show» => exact takes_show
  | drop => exact takes_drop
  | delete => exact takes_delete
  | update => exact takes_update

end Grammar

/-- A statement is what the grammar of some verb reads from the whole trimmed text. -/
theorem Statement.exists_read_of_parse {text : String} {st : Statement}
    (parsed : Statement.parse text = .ok st) :
    ∃ verb, Grammar.ofVerb verb (trim text.toList) = .found st [] := by
  unfold Statement.parse at parsed
  dsimp only at parsed
  split at parsed
  · exact nomatch parsed
  · split at parsed
    · exact nomatch parsed
    · next verb _ =>
      unfold Statement.parseAs at parsed
      split at parsed
      · next found rest hread =>
        obtain rfl := Except.ok.inj parsed
        obtain ⟨_, later, hverb, hend⟩ := Reader.bind_eq_found hread
        obtain ⟨_, later', hnil, hdone⟩ := Reader.bind_eq_found hend
        obtain ⟨rfl, rfl⟩ := Reading.found.inj hdone
        cases later with
        | nil => exact ⟨verb, hverb⟩
        | cons c later => exact nomatch hnil
      · exact nomatch parsed
      · exact nomatch parsed

/-- **The text of a statement is plain but for the texts that the statement takes over.** -/
theorem Statement.plainBut_of_parse {text : String} {st : Statement}
    (parsed : Statement.parse text = .ok st) : PlainBut st.captured text.toList := by
  obtain ⟨verb, hread⟩ := exists_read_of_parse parsed
  obtain ⟨t, hs, ht⟩ := Grammar.takes_ofVerb verb _ _ _ hread
  obtain ⟨p, r, htext, hp, hr⟩ := exists_plain_around_trim text.toList
  rw [List.append_nil] at hs
  rw [htext, hs]
  exact (ht.append_plain hr).plain_append hp

end Tabular
