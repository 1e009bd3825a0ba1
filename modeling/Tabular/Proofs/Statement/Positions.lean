import Tabular.Proofs.Statement.Captured
import Tabular.Proofs.Statement.Names

/-!
Where the reading of a statement stops.

A reader stays within its text: what it leaves, and the text at which it finds no match, is an end
of the text that it was given (`Reader.StaysWithin`). The single readers do, the combinations keep
it, and so every grammar does (`Grammar.staysWithin_ofVerb`). Main statement: a text is no statement
for one of three reasons, which its leading word tells apart, and where the grammar of its verb does
not match, the error points between two characters of the text and quotes what stands there
(`Statement.parse_classified`).
-/

namespace Tabular

open Tabular.Text

/-! ### Staying within a text -/

/-- A reading stays within a text: what it leaves, or the text at which it found no match, is an end
of it. It breaks only where there is a Kelvin sign. -/
def Reading.Within {α : Type} (s : List Char) : Reading α → Prop
  | .found _ rest => rest <:+ s
  | .stuck rest => rest <:+ s
  | .broken => '\u212A' ∈ s

theorem Reading.Within.of_suffix {α : Type} {r : Reading α} {s t : List Char} (h : r.Within s)
    (hst : s <:+ t) : r.Within t := by
  cases r with
  | found a rest => exact List.IsSuffix.trans h hst
  | stuck rest => exact List.IsSuffix.trans h hst
  | broken => exact hst.subset h

namespace Reader

/-- Whatever a reader makes of a text, it stays within it. -/
def StaysWithin {α : Type} (p : Reader α) : Prop :=
  ∀ s, (p s).Within s

/-- A reader that finds nothing stands where it started, and never breaks. -/
def StuckInPlace {α : Type} (p : Reader α) : Prop :=
  ∀ s, (∃ a rest, p s = .found a rest) ∨ p s = .stuck s

variable {α β : Type} {p q : Reader α}

theorem StaysWithin.of_found (h : p.StaysWithin) {s rest : List Char} {a : α}
    (hs : p s = .found a rest) : rest <:+ s := by
  have hwithin := h s
  rwa [hs] at hwithin

theorem StaysWithin.of_stuck (h : p.StaysWithin) {s rest : List Char} (hs : p s = .stuck rest) :
    rest <:+ s := by
  have hwithin := h s
  rwa [hs] at hwithin

theorem StaysWithin.of_broken (h : p.StaysWithin) {s : List Char} (hs : p s = .broken) :
    '\u212A' ∈ s := by
  have hwithin := h s
  rwa [hs] at hwithin

theorem Takes.staysWithin {R : α → List Char → Prop} (h : p.Takes R) (hstuck : p.StuckInPlace) :
    p.StaysWithin := by
  intro s
  rcases hstuck s with ⟨a, rest, hs⟩ | hs
  · obtain ⟨t, rfl, -⟩ := h s a rest hs
    rw [hs]
    exact List.suffix_append t rest
  · rw [hs]
    exact List.suffix_rfl

namespace StaysWithin

protected theorem pure (a : α) : StaysWithin (pure a) :=
  fun _ => List.suffix_rfl

protected theorem bind {k : α → Reader β} (hp : p.StaysWithin) (hk : ∀ a, (k a).StaysWithin) :
    StaysWithin (p >>= k) := by
  intro s
  rw [bind_apply]
  cases hs : p s with
  | found a rest => exact (hk a rest).of_suffix (hp.of_found hs)
  | stuck rest => exact hp.of_stuck hs
  | broken => exact hp.of_broken hs

protected theorem orElse (hp : p.StaysWithin) (hq : q.StaysWithin) : StaysWithin (p <|> q) := by
  intro s
  cases hs : p s with
  | found a rest =>
    rw [orElse_of_found hs]
    exact hp.of_found hs
  | stuck rest =>
    rw [orElse_of_stuck hs]
    exact hq s
  | broken =>
    rw [orElse_of_broken hs]
    exact hp.of_broken hs

protected theorem optional (hp : p.StaysWithin) : (optional p).StaysWithin := by
  intro s
  unfold Reader.optional
  cases hs : p s with
  | found a rest => exact hp.of_found hs
  | stuck rest => exact List.suffix_rfl
  | broken => exact hp.of_broken hs

protected theorem accepting {f : α → Option β} (hp : p.StaysWithin) :
    (accepting p f).StaysWithin := by
  intro s
  unfold accepting
  cases hs : p s with
  | found a rest =>
    dsimp only
    cases f a with
    | some b => exact hp.of_found hs
    | none => exact List.suffix_rfl
  | stuck rest => exact hp.of_stuck hs
  | broken => exact hp.of_broken hs

protected theorem taken (hp : p.StaysWithin) : (taken p).StaysWithin := by
  intro s
  unfold taken
  cases hs : p s with
  | found a rest => exact hp.of_found hs
  | stuck rest => exact hp.of_stuck hs
  | broken => exact hp.of_broken hs

protected theorem many (hp : p.StaysWithin) : (many p).StaysWithin := by
  have within : ∀ fuel, (repeatWithin p fuel).StaysWithin := by
    intro fuel
    induction fuel with
    | nil => exact .pure []
    | cons c fuel ih =>
      intro s
      unfold repeatWithin
      cases hs : p s with
      | found a rest =>
        dsimp only
        have hrest := (ih rest).of_suffix (hp.of_found hs)
        cases hlater : repeatWithin p fuel rest with
        | found as later =>
          rw [hlater] at hrest
          exact hrest
        | stuck later =>
          rw [hlater] at hrest
          exact hrest
        | broken =>
          rw [hlater] at hrest
          exact hrest
      | stuck rest => exact List.suffix_rfl
      | broken => exact hp.of_broken hs
  exact fun s => within s s

protected theorem sepBy1 {separator : Reader β} (hp : p.StaysWithin)
    (hs : separator.StaysWithin) : (sepBy1 p separator).StaysWithin :=
  hp.bind fun _ => (StaysWithin.many (hs.bind fun _ => hp)).bind fun _ => .pure _

end StaysWithin

/-! ### Single readers -/

theorem staysWithin_char (c : Char) : (char c).StaysWithin := by
  refine (takes_char c).staysWithin fun s => ?_
  cases s with
  | nil => exact .inr rfl
  | cons d s =>
    rw [char]
    by_cases he : d = c
    · exact .inl ⟨c, s, if_pos he⟩
    · exact .inr (if_neg he)

theorem staysWithin_text (t : List Char) : (text t).StaysWithin := by
  refine (takes_text t).staysWithin fun s => ?_
  unfold text
  split
  · exact .inl ⟨_, _, rfl⟩
  · exact .inr rfl

theorem staysWithin_takeWhile (f : Char → Bool) : (takeWhile f).StaysWithin :=
  (takes_takeWhile f).staysWithin fun _ => .inl ⟨_, _, rfl⟩

theorem staysWithin_takeWhile1 (f : Char → Bool) : (takeWhile1 f).StaysWithin := by
  refine (takes_takeWhile1 f).staysWithin fun s => ?_
  unfold takeWhile1
  split
  · exact .inr rfl
  · exact .inl ⟨_, _, rfl⟩

theorem staysWithin_notBefore (f : Char → Bool) : (notBefore f).StaysWithin := by
  refine (takes_notBefore f).staysWithin fun s => ?_
  unfold notBefore
  split
  · exact .inr rfl
  · exact .inl ⟨_, _, rfl⟩

theorem staysWithin_remainder : remainder.StaysWithin :=
  takes_remainder.staysWithin fun _ => .inl ⟨_, _, rfl⟩

theorem staysWithin_ofScanner {scan : List Char → Option (List Char × List Char)}
    (h : ∀ s x rest, scan s = some (x, rest) → s = x ++ rest) : (ofScanner scan).StaysWithin := by
  have htakes : (ofScanner scan).Takes fun x t => x = t ∧ True :=
    takes_ofScanner fun s x rest hs => ⟨h s x rest hs, trivial⟩
  refine htakes.staysWithin fun s => ?_
  unfold ofScanner
  split
  · exact .inl ⟨_, _, rfl⟩
  · exact .inr rfl

theorem staysWithin_atEnd : atEnd.StaysWithin := by
  intro s
  cases s <;> exact List.suffix_rfl

end Reader

/-! ### Tokens -/

namespace Token

open Reader

theorem staysWithin_gap : gap.StaysWithin :=
  (staysWithin_takeWhile _).bind fun _ => .pure _

theorem staysWithin_gap1 : gap1.StaysWithin :=
  (staysWithin_takeWhile1 _).bind fun _ => .pure _

theorem staysWithin_textNoCase {word : String} (h : Spells word word) :
    (textNoCase word.toList).StaysWithin := by
  intro s
  cases hs : textNoCase word.toList s with
  | found w rest =>
    obtain ⟨t, rfl, -⟩ := takes_textNoCase h s w rest hs
    exact List.suffix_append t rest
  | stuck rest =>
    unfold textNoCase at hs
    split at hs
    · split at hs <;> exact nomatch hs
    · exact Reading.stuck.inj hs ▸ List.suffix_rfl
  | broken => exact List.mem_of_mem_take (kelvin_of_textNoCase h.letters hs)

theorem staysWithin_keyword {word : String} (h : Spells word word) :
    (keyword word).StaysWithin :=
  (staysWithin_textNoCase h).bind fun _ => (staysWithin_notBefore _).bind fun _ => .pure _

theorem staysWithin_keyword_or {word other : String} (h : Spells word word)
    (h' : Spells other other) : Reader.StaysWithin (keyword word <|> keyword other) :=
  (staysWithin_keyword h).orElse (staysWithin_keyword h')

/-- A run of characters of a class, as names of all kinds are. -/
theorem staysWithin_run (f : Char → Bool) :
    (do return String.ofList (← takeWhile1 f) : Reader String).StaysWithin :=
  (staysWithin_takeWhile1 f).bind fun _ => .pure _

theorem staysWithin_elementName (kind : ElementKind) : (elementName kind).StaysWithin := by
  cases kind <;> exact staysWithin_run _

theorem staysWithin_elementKind : elementKind.StaysWithin :=
  .orElse
    (.bind (staysWithin_keyword_or (by decide) (by decide)) fun _ => .pure _)
    (.bind (staysWithin_keyword_or (by decide) (by decide)) fun _ => .pure _)

theorem staysWithin_target : target.StaysWithin :=
  .orElse ((staysWithin_text _).bind fun _ => (staysWithin_notBefore _).bind fun _ => .pure _) <|
  .orElse
    ((staysWithin_char _).bind fun _ => (staysWithin_takeWhile1 _).bind fun _ =>
      (staysWithin_char _).bind fun _ => .pure _)
    ((staysWithin_run _).bind fun _ => .pure _)

theorem staysWithin_negated {word : String} (h : Spells word word) (op : Operator) :
    (negated word op).StaysWithin := by
  have hnot : Spells "NOT" "NOT" := by decide
  exact (staysWithin_keyword hnot).bind fun _ => staysWithin_gap1.bind fun _ =>
    (staysWithin_keyword h).bind fun _ => .pure _

theorem staysWithin_spelled {word : String} (h : Spells word word) (op : Operator) :
    (spelled word op).StaysWithin :=
  (staysWithin_keyword h).bind fun _ => .pure _

theorem staysWithin_signed (signs : String) (op : Operator) : (signed signs op).StaysWithin :=
  (staysWithin_text _).bind fun _ => .pure _

theorem staysWithin_operator : operator.StaysWithin :=
  .orElse (staysWithin_negated (by decide) _) <| .orElse (staysWithin_negated (by decide) _) <|
  .orElse (staysWithin_spelled (by decide) _) <| .orElse (staysWithin_spelled (by decide) _) <|
  .orElse (staysWithin_signed _ _) <| .orElse (staysWithin_signed _ _) <|
  .orElse (staysWithin_signed _ _) <| .orElse (staysWithin_signed _ _) <|
  .orElse (staysWithin_signed _ _) <| .orElse (staysWithin_signed _ _) (staysWithin_signed _ _)

theorem staysWithin_group : (ofScanner group?).StaysWithin :=
  staysWithin_ofScanner fun _ _ _ h => (group?_eq_some h).1

theorem staysWithin_parenthesizedInner : parenthesizedInner.StaysWithin :=
  staysWithin_group.bind fun _ => .pure _

theorem staysWithin_conditionValue : conditionValue.StaysWithin :=
  .orElse ((staysWithin_ofScanner fun _ _ _ => literal?_eq_some).bind fun _ => .pure _) <|
  .orElse (staysWithin_group.bind fun _ => .pure _) (staysWithin_takeWhile1 _).accepting

theorem staysWithin_upToKeyword (word : String) : (upToKeyword word).StaysWithin := by
  refine (takes_upToKeyword word).staysWithin fun s => ?_
  unfold upToKeyword
  split <;> exact .inl ⟨_, _, rfl⟩

theorem staysWithin_comma : comma.StaysWithin :=
  staysWithin_gap.bind fun _ => (staysWithin_char _).bind fun _ =>
    staysWithin_gap.bind fun _ => .pure _

end Token

/-! ### Verbs -/

namespace Grammar

open Reader Token

theorem staysWithin_spaced {α : Type} {p : Reader α} (hp : p.StaysWithin) :
    (spaced p).StaysWithin :=
  staysWithin_gap1.bind fun _ => hp

theorem staysWithin_init : init.StaysWithin :=
  (staysWithin_keyword (by decide)).bind fun _ => staysWithin_gap1.bind fun _ =>
    (staysWithin_run _).bind fun _ => .pure _

theorem staysWithin_nonBlankRemainder : nonBlankRemainder.StaysWithin :=
  staysWithin_remainder.accepting

theorem staysWithin_parameters : parameters.StaysWithin :=
  .orElse (staysWithin_gap.bind fun _ => staysWithin_parenthesizedInner)
    (staysWithin_spaced staysWithin_nonBlankRemainder)

theorem staysWithin_create : create.StaysWithin :=
  (staysWithin_keyword (by decide)).bind fun _ => staysWithin_gap1.bind fun _ =>
    staysWithin_elementKind.bind fun kind => staysWithin_gap1.bind fun _ =>
    (staysWithin_elementName kind).bind fun _ => staysWithin_parameters.optional.bind fun _ =>
    .pure _

theorem staysWithin_namedValues : namedValues.StaysWithin :=
  staysWithin_gap.bind fun _ => staysWithin_parenthesizedInner.bind fun _ =>
    staysWithin_gap.bind fun _ => (staysWithin_keyword (by decide)).bind fun _ =>
    staysWithin_gap.bind fun _ => staysWithin_parenthesizedInner.bind fun _ => .pure _

theorem staysWithin_clauseValues : clauseValues.StaysWithin :=
  staysWithin_gap1.bind fun _ => (staysWithin_keyword (by decide)).bind fun _ =>
    staysWithin_gap.bind fun _ => staysWithin_parenthesizedInner.bind fun _ => .pure _

theorem staysWithin_bareValues : bareValues.StaysWithin :=
  (staysWithin_spaced staysWithin_nonBlankRemainder).bind fun _ => .pure _

/-- A word that may be missing, with the blanks after it. -/
theorem staysWithin_optional_word {word : String} (h : Spells word word) :
    (optional (do let _ ← keyword word; gap1 : Reader Unit)).StaysWithin :=
  ((staysWithin_keyword h).bind fun _ => staysWithin_gap1).optional

theorem staysWithin_insert : insert.StaysWithin :=
  (staysWithin_keyword (by decide)).bind fun _ => staysWithin_gap1.bind fun _ =>
    (staysWithin_optional_word (by decide)).bind fun _ => (staysWithin_run _).bind fun _ =>
    (staysWithin_namedValues.orElse (staysWithin_clauseValues.orElse staysWithin_bareValues)).bind
      fun _ => .pure _

theorem staysWithin_columnList : columnList.StaysWithin :=
  .orElse ((staysWithin_char _).taken.bind fun _ => .pure _)
    (((staysWithin_run _).sepBy1 staysWithin_comma).taken.bind fun _ => .pure _)

theorem staysWithin_joinKind : joinKind.StaysWithin :=
  .bind
    (.orElse ((staysWithin_keyword (by decide)).bind fun _ => .pure _) <|
      .orElse ((staysWithin_keyword (by decide)).bind fun _ => .pure _)
        ((staysWithin_keyword (by decide)).bind fun _ => .pure _))
    fun _ => staysWithin_gap1.bind fun _ => .pure _

theorem staysWithin_join : join.StaysWithin :=
  staysWithin_joinKind.optional.bind fun _ => (staysWithin_keyword (by decide)).bind fun _ =>
    staysWithin_gap1.bind fun _ => (staysWithin_run _).bind fun _ =>
    staysWithin_gap1.bind fun _ => (staysWithin_keyword (by decide)).bind fun _ =>
    staysWithin_gap1.bind fun _ => (staysWithin_run _).bind fun _ =>
    staysWithin_gap.bind fun _ => (staysWithin_char _).bind fun _ =>
    staysWithin_gap.bind fun _ => (staysWithin_run _).bind fun _ => .pure _

theorem staysWithin_filter : filter.StaysWithin :=
  (staysWithin_keyword (by decide)).bind fun _ => staysWithin_gap1.bind fun _ =>
    staysWithin_target.bind fun _ => staysWithin_gap.bind fun _ =>
    staysWithin_operator.bind fun _ =>
    (staysWithin_gap.bind fun _ => staysWithin_conditionValue).optional.bind fun _ => .pure _

theorem staysWithin_orderBy : orderBy.StaysWithin :=
  (staysWithin_keyword (by decide)).bind fun _ => staysWithin_gap1.bind fun _ =>
    (staysWithin_keyword (by decide)).bind fun _ => staysWithin_gap1.bind fun _ =>
    (staysWithin_run _).bind fun _ =>
    (staysWithin_spaced
      (staysWithin_keyword_or (by decide) (by decide))).optional.bind fun _ => .pure _

theorem staysWithin_counted {word : String} (h : Spells word word) :
    (counted word).StaysWithin :=
  staysWithin_gap1.bind fun _ => (staysWithin_keyword h).bind fun _ =>
    staysWithin_gap1.bind fun _ => (staysWithin_takeWhile1 _).accepting

theorem staysWithin_find : find.StaysWithin :=
  (staysWithin_keyword (by decide)).bind fun _ =>
    (staysWithin_spaced (staysWithin_keyword (by decide))).optional.bind fun _ =>
    staysWithin_gap1.bind fun _ => staysWithin_columnList.bind fun _ =>
    staysWithin_gap1.bind fun _ => (staysWithin_keyword (by decide)).bind fun _ =>
    staysWithin_gap1.bind fun _ => (staysWithin_run _).bind fun _ =>
    (staysWithin_spaced staysWithin_join).many.bind fun _ =>
    (staysWithin_spaced staysWithin_filter).optional.bind fun _ =>
    (staysWithin_spaced staysWithin_orderBy).optional.bind fun _ =>
    (staysWithin_counted (by decide)).optional.bind fun _ =>
    (staysWithin_counted (by decide)).optional.bind fun _ => .pure _

theorem staysWithin_element : element.StaysWithin :=
  staysWithin_elementKind.bind fun kind =>
    (staysWithin_spaced (staysWithin_elementName kind)).optional.bind fun _ => .pure _

theorem staysWithin_describe : describe.StaysWithin :=
  (staysWithin_keyword_or (by decide) (by decide)).bind fun _ =>
    staysWithin_gap1.bind fun _ => staysWithin_element.bind fun _ => .pure _

theorem staysWithin_drop : drop.StaysWithin :=
  (staysWithin_keyword (by decide)).bind fun _ => staysWithin_gap1.bind fun _ =>
    staysWithin_element.bind fun _ => .pure _

theorem staysWithin_show : «show».StaysWithin :=
  (staysWithin_keyword (by decide)).bind fun _ =>
    (staysWithin_spaced
      (staysWithin_keyword_or (by decide) (by decide))).optional.bind fun _ =>
    (staysWithin_gap1.bind fun _ => (staysWithin_keyword (by decide)).bind fun _ =>
      staysWithin_gap1.bind fun _ => staysWithin_conditionValue).optional.bind fun _ => .pure _

theorem staysWithin_delete : delete.StaysWithin :=
  (staysWithin_keyword (by decide)).bind fun _ => staysWithin_gap1.bind fun _ =>
    (staysWithin_optional_word (by decide)).bind fun _ => (staysWithin_run _).bind fun _ =>
    (staysWithin_spaced staysWithin_filter).optional.bind fun _ => .pure _

theorem staysWithin_update : update.StaysWithin :=
  (staysWithin_keyword (by decide)).bind fun _ => staysWithin_gap1.bind fun _ =>
    (staysWithin_run _).bind fun _ => staysWithin_gap1.bind fun _ =>
    (staysWithin_keyword (by decide)).bind fun _ => staysWithin_gap1.bind fun _ =>
    (staysWithin_upToKeyword _).accepting.bind fun _ =>
    staysWithin_filter.optional.bind fun _ => .pure _

/-- **Whatever the grammar of a verb makes of a text, it stays within it.** -/
theorem staysWithin_ofVerb (verb : Verb) : (ofVerb verb).StaysWithin := by
  cases verb with
  | init => exact staysWithin_init
  | create => exact staysWithin_create
  | insert => exact staysWithin_insert
  | find => exact staysWithin_find
  | describe => exact staysWithin_describe
  | «show» => exact staysWithin_show
  | drop => exact staysWithin_drop
  | delete => exact staysWithin_delete
  | update => exact staysWithin_update

/-- The grammar of a verb finds statements of that verb. -/
theorem yields_verb (verb : Verb) : (ofVerb verb).Yields fun st => st.verb = verb := by
  cases verb <;> (repeat refine .bind_any fun _ => ?_) <;> exact .pure rfl

end Grammar

/-! ### Errors -/

/-- An error stands at a byte position of a text, between two of its characters, and quotes the
characters behind it: 24 of them, or as many as are left, or `<end>` where none are. -/
structure PointsInto (t : List Char) (position : Nat) (quoted : String) : Prop where
  le_byteLength : position ≤ byteLength t
  quotes : ∃ before rest, t = before ++ rest ∧ byteLength before = position ∧
    quoted = if position = byteLength t then "<end>" else String.ofList (rest.take 24)

/-- What an error says of an unread end of a text. -/
theorem pointsInto_of_suffix {t rest : List Char} (h : rest <:+ t) :
    PointsInto t (byteLength t - byteLength rest) (snippet rest) := by
  obtain ⟨before, rfl⟩ := h
  have hposition : byteLength (before ++ rest) - byteLength rest = byteLength before := by
    rw [byteLength_append, Nat.add_sub_cancel]
  have hend : byteLength before = byteLength (before ++ rest) ↔ rest = [] := by
    rw [byteLength_append, ← byteLength_eq_zero]
    omega
  rw [hposition]
  refine ⟨by rw [byteLength_append]; omega, before, rest, rfl, rfl, ?_⟩
  simp only [hend, snippet, snippetLength]

namespace Statement

/-- The word that a text starts with, white space left aside. -/
def leadingWord (text : String) : String :=
  String.ofList ((trim text.toList).takeWhile isWordChar)

/-- The leading word alone decides by which grammar a text is read, and whether by any. -/
theorem parse_eq (text : String) :
    parse text =
      if leadingWord text = "" then .error .empty
      else match Verb.ofKeyword? (leadingWord text) with
        | none => .error (.unknownVerb (leadingWord text))
        | some verb => parseAs verb (trim text.toList) := by
  unfold parse leadingWord
  dsimp only
  cases hword : (trim text.toList).takeWhile isWordChar with
  | nil => rfl
  | cons c word =>
    have hne : String.ofList (c :: word) ≠ "" := fun h =>
      List.cons_ne_nil c word (String.ofList_eq_empty_iff.1 h)
    exact (if_neg hne).symm

theorem parse_of_verb {text : String} {verb : Verb}
    (h : Verb.ofKeyword? (leadingWord text) = some verb) :
    parse text = parseAs verb (trim text.toList) := by
  have hne : leadingWord text ≠ "" := by
    intro hempty
    have hnone : Verb.ofKeyword? "" = none := by decide
    rw [hempty, hnone] at h
    cases h
  rw [parse_eq, if_neg hne, h]

/-- A grammar does not match, or the reading breaks: there is no other error of it. -/
theorem parseAs_error {verb : Verb} {t : List Char} {e : ParseError}
    (h : parseAs verb t = .error e) :
    (∃ position quoted, e = .noMatch verb position quoted) ∨ e = .splitCharacter := by
  unfold parseAs at h
  split at h
  · cases h
  · exact .inl ⟨_, _, (Except.error.inj h).symm⟩
  · exact .inr (Except.error.inj h).symm

theorem parse_eq_empty_iff (text : String) :
    parse text = .error .empty ↔ leadingWord text = "" := by
  rw [parse_eq]
  split
  · next hempty => exact iff_of_true rfl hempty
  · next hempty =>
    refine iff_of_false (fun h => ?_) hempty
    split at h
    · cases h
    · obtain ⟨_, _, he⟩ | he := parseAs_error h
      · cases he
      · cases he

theorem parse_eq_unknownVerb_iff (text word : String) :
    parse text = .error (.unknownVerb word) ↔
      word = leadingWord text ∧ word ≠ "" ∧ Verb.ofKeyword? word = none := by
  constructor
  · intro h
    rw [parse_eq] at h
    split at h
    · cases h
    · next hempty =>
      split at h
      · next hnone =>
        cases h
        exact ⟨rfl, hempty, hnone⟩
      · obtain ⟨_, _, he⟩ | he := parseAs_error h
        · cases he
        · cases he
  · rintro ⟨rfl, hempty, hnone⟩
    rw [parse_eq, if_neg hempty, hnone]

/-- A grammar that is to read a whole text finds a statement of its verb, or an error that points
into the text, or it breaks at a Kelvin sign. -/
theorem parseAs_cases (verb : Verb) (t : List Char) :
    (∃ st, parseAs verb t = .ok st ∧ st.verb = verb) ∨
    (∃ position quoted, parseAs verb t = .error (.noMatch verb position quoted) ∧
      PointsInto t position quoted) ∨
    (parseAs verb t = .error .splitCharacter ∧ '\u212A' ∈ t) := by
  have hwithin : Reader.StaysWithin
      (do let st ← Grammar.ofVerb verb; Reader.atEnd; return st : Reader Statement) :=
    (Grammar.staysWithin_ofVerb verb).bind fun _ => Reader.staysWithin_atEnd.bind fun _ => .pure _
  have hverb : Reader.Yields
      (do let st ← Grammar.ofVerb verb; Reader.atEnd; return st : Reader Statement)
      fun st => st.verb = verb :=
    (Grammar.yields_verb verb).bind fun _ h => .bind_any fun _ => .pure h
  unfold parseAs
  split
  · next st rest hfound => exact .inl ⟨st, rfl, hverb t st rest hfound⟩
  · next rest hstuck =>
    exact .inr (.inl ⟨_, _, rfl, pointsInto_of_suffix (hwithin.of_stuck hstuck)⟩)
  · next hbroken => exact .inr (.inr ⟨rfl, hwithin.of_broken hbroken⟩)

/-- **The leading word of a text tells why the text is no statement.** Without one there is nothing
to read; a word that is no verb is named in the error; and behind a verb the text is a statement of
that verb, or the error points into the text, white space around it left aside; or the reading
breaks, which a text without a Kelvin sign never makes it do. -/
theorem parse_classified (text : String) :
    (parse text = .error .empty ↔ leadingWord text = "") ∧
    ParseError.empty.message = "Syntax error at position 0: Empty statement" ∧
    (∀ word, parse text = .error (.unknownVerb word) ↔
      word = leadingWord text ∧ word ≠ "" ∧ Verb.ofKeyword? word = none) ∧
    ∀ verb, Verb.ofKeyword? (leadingWord text) = some verb →
      (∃ st, parse text = .ok st ∧ st.verb = verb) ∨
      (∃ position quoted, parse text = .error (.noMatch verb position quoted) ∧
        PointsInto (trim text.toList) position quoted ∧
        (ParseError.noMatch verb position quoted).message =
          "Syntax error at position " ++ toString position ++ ": Invalid " ++ verb.keyword
            ++ " statement near '" ++ quoted ++ "'") ∨
      (parse text = .error .splitCharacter ∧ '\u212A' ∈ text.toList) := by
  refine ⟨parse_eq_empty_iff text, rfl, parse_eq_unknownVerb_iff text, fun verb hverb => ?_⟩
  rw [parse_of_verb hverb]
  obtain hread | ⟨position, quoted, herror, hpoints⟩ | ⟨hbroken, hkelvin⟩ :=
    parseAs_cases verb (trim text.toList)
  · exact .inl hread
  · exact .inr (.inl ⟨position, quoted, herror, hpoints, rfl⟩)
  · obtain ⟨before, after, htrim, -, -⟩ := exists_plain_around_trim text.toList
    have hmem : '\u212A' ∈ trim text.toList ++ after := List.mem_append_left after hkelvin
    exact .inr (.inr ⟨hbroken, htrim ▸ List.mem_append_right before hmem⟩)

/-- The condition lacks an operator: the error stands behind the table, 14 bytes into the text. -/
theorem parse_classified_at_condition :
    Verb.ofKeyword? (leadingWord " FIND é FROM t WHERE é") = some .find ∧
    PointsInto "FIND é FROM t WHERE é".toList 14 " WHERE é" := by
  have hverb : Verb.ofKeyword? (leadingWord " FIND é FROM t WHERE é") = some .find := by
    decide +kernel
  have hparse : parse " FIND é FROM t WHERE é" = .error (.noMatch .find 14 " WHERE é") := by
    decide +kernel
  refine ⟨hverb, ?_⟩
  obtain ⟨st, hst, -⟩ | ⟨position, quoted, herror, hpoints, -⟩ | ⟨hbroken, -⟩ :=
    (parse_classified " FIND é FROM t WHERE é").2.2.2 .find hverb
  · exact nomatch hparse.symm.trans hst
  · obtain ⟨-, rfl, rfl⟩ := ParseError.noMatch.inj (Except.error.inj (hparse.symm.trans herror))
    exact hpoints
  · exact nomatch hparse.symm.trans hbroken

end Statement

end Tabular
