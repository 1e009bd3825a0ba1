import Tabular.Proofs.Result
import Tabular.Proofs.Statement.Clauses

/-!
Updates and deletions as they are written and as they are read.

`UpdateWords q words` and `DeleteWords q words` say that the words, with a blank between two of
them, write the query `q` as an update or as a deletion: keywords in any letter case, values as
quoted literals. The assignments of an update are one text; it ends where the keyword `WHERE` stands
outside its literals, and no assignment to another word holds one (`passedOver_assignment`). Main
statement: the text is read as it was written, whatever the values hold (`change_of_words`).
-/

namespace Tabular

open Tabular.Text Tabular.Token

/-! ### Writing a change -/

/-- An assignment as it is written, its value between single quotes. -/
def Assignment.text (a : Assignment) : String :=
  a.column ++ " = " ++ quoted a.value

/-- The assignments of an update, with a comma and a blank between two of them: at least one, each
of them to a word other than `WHERE`. -/
inductive AssignmentsWord : List Assignment → String → Prop where
  | intro {assigned : List Assignment} (hne : assigned ≠ [])
      (h : ∀ a ∈ assigned, IsWord a.column ∧ ¬Spells "WHERE" a.column) :
      AssignmentsWord assigned (", ".intercalate (assigned.map Assignment.text))

/-- `UPDATE <table> SET <assignments> WHERE …` -/
inductive UpdateWords : QuerySpec → List String → Prop where
  | intro {u table s a : String} {cs : List String} {assigned : List Assignment}
      {condition : Condition} (hupdate : Spells "UPDATE" u) (htable : IsIdentifier table)
      (hset : Spells "SET" s) (hassigned : AssignmentsWord assigned a)
      (hcondition : ConditionWords (some condition) cs) :
      UpdateWords { table, condition := some condition, assignments := assigned }
        (u :: table :: s :: a :: cs)

/-- `DELETE FROM <table> WHERE …` -/
inductive DeleteWords : QuerySpec → List String → Prop where
  | intro {d fr table : String} {cs : List String} {condition : Condition}
      (hdelete : Spells "DELETE" d) (hfrom : Spells "FROM" fr) (htable : IsIdentifier table)
      (hcondition : ConditionWords (some condition) cs) :
      DeleteWords { table, condition := some condition } (d :: fr :: table :: cs)

/-! ### One assignment -/

theorem Assignment.toList_text (a : Assignment) :
    a.text.toList = a.column.toList ++ ' ' :: '=' :: ' ' :: (quoted a.value).toList := by
  unfold Assignment.text
  rw [String.toList_append, String.toList_append, List.append_assoc]
  rfl

theorem Assignment.firm_text {a : Assignment} (h : IsWord a.column) : Firm a.text := by
  have hcolumn := h.isIdentifier.firm
  have hvalue := writes_quoted a.value
  have hrest : Tight ('=' :: ([' '] ++ (quoted a.value).toList)) :=
    hvalue.tight.enclose (by decide) hvalue.ne_nil
  obtain ⟨c, s, hcs⟩ := List.exists_cons_of_ne_nil hcolumn.1
  have hblank : isBlank c = false := hcolumn.2.1 c (by rw [hcs]; rfl)
  unfold Firm
  rw [a.toList_text, hcs, List.cons_append]
  refine ⟨List.cons_ne_nil _ _, ?_⟩
  have htight := hrest.enclose (s := s ++ [' ']) hblank (List.cons_ne_nil _ _)
  simpa using htight

/-- A comma that stands outside the literal of an assignment would have to stand in its column. -/
theorem Assignment.isPart_text {a : Assignment} (h : IsWord a.column) :
    IsPart (splitOutside ',') a.text.toList ∧ IsPart (splitOutside ',') (' ' :: a.text.toList) := by
  have hvalue := writes_quoted a.value
  have hfront : ∀ front : List Char, (∀ c ∈ front, isQuote c = false) → ',' ∉ front →
      IsPart (splitOutside ',') (front ++ (quoted a.value).toList) := by
    intro front hquote hcomma
    have hclosed : Closed front := Scan.run_of_no_quotes hquote
    refine isPart_splitOutside (hclosed.append hvalue.closed) fun hmem => ?_
    rw [hclosed.bare_append, hvalue.bare_eq, List.append_nil] at hmem
    exact hcomma (Scan.mem_of_mem_bare hmem)
  have hsigns : ∀ c ∈ " = ".toList, isQuote c = false := by decide
  have hquote : ∀ c ∈ a.column.toList ++ " = ".toList, isQuote c = false := by
    intro c hc
    rcases List.mem_append.1 hc with hc | hc
    · exact isQuote_of_isNameChar (h.isIdentifier.2 c hc)
    · exact hsigns c hc
  have hcomma : ',' ∉ a.column.toList ++ " = ".toList := by
    rw [List.mem_append, not_or]
    refine ⟨fun hmem => ?_, by decide⟩
    exact absurd (h.2 ',' hmem) (by decide)
  have htext : a.text.toList = a.column.toList ++ " = ".toList ++ (quoted a.value).toList := by
    rw [a.toList_text, List.append_assoc]
    rfl
  rw [htext]
  refine ⟨hfront _ hquote hcomma, hfront (' ' :: _) ?_ ?_⟩
  · exact List.forall_mem_cons.2 ⟨by decide, hquote⟩
  · exact fun hmem => hcomma (List.mem_of_ne_of_mem (by decide) hmem)

theorem splitOnce?_append {separator : Char} {s : List Char} (h : separator ∉ s) (t : List Char) :
    splitOnce? separator (s ++ separator :: t) = some (s, t) := by
  induction s with
  | nil => exact if_pos rfl
  | cons c s ih =>
    obtain ⟨hc, hs⟩ := not_or.1 (mt List.mem_cons.2 h)
    rw [List.cons_append, splitOnce?, if_neg (Ne.symm hc), ih hs]
    rfl

theorem trimEnd_append_blank {s : List Char} (h : Tight s) : trimEnd (s ++ [' ']) = s := by
  unfold trimEnd
  rw [List.reverse_append, List.reverse_singleton, List.singleton_append,
    List.dropWhile_cons_of_pos (by decide),
    Reader.dropWhile_of_head (by rw [List.head?_reverse]; exact h.2), List.reverse_reverse]

theorem trim_append_blank {s : List Char} (hne : s ≠ []) (h : Tight s) : trim (s ++ [' ']) = s := by
  have hstart : trimStart (s ++ [' ']) = s ++ [' '] := by
    refine Reader.dropWhile_of_head fun c hc => h.1 c ?_
    rw [List.head?_append_of_ne_nil _ hne] at hc
    exact hc
  unfold trim
  rw [hstart, trimEnd_append_blank h]

/-- **An assignment is read as it was written.** -/
theorem assignment_text {a : Assignment} (h : IsWord a.column) :
    Request.assignment a.text.toList = .ok a := by
  have hsplit : splitOnce? '=' a.text.toList =
      some (a.column.toList ++ [' '], ' ' :: (quoted a.value).toList) := by
    have hequals : '=' ∉ a.column.toList ++ [' '] := by
      rw [List.mem_append, not_or]
      exact ⟨fun hmem => absurd (h.2 '=' hmem) (by decide), by decide⟩
    have htext := splitOnce?_append hequals (' ' :: (quoted a.value).toList)
    rw [a.toList_text]
    simpa using htext
  have hcolumn := h.isIdentifier.firm
  have hword : a.column.toList.all isWordChar = true := List.all_eq_true.2 h.2
  unfold Request.assignment
  rw [hsplit]
  dsimp only
  rw [trim_append_blank hcolumn.1 hcolumn.2, if_neg (by simp [hcolumn.1, hword]),
    value_blank_cons, (writes_quoted a.value).value_eq, String.ofList_toList]

theorem assignment_blank_cons (s : List Char) :
    Request.assignment (' ' :: s) = Request.assignment s := by
  unfold Request.assignment
  rw [splitOnce?, if_neg (by decide)]
  cases splitOnce? '=' s with
  | none =>
    dsimp only [Option.map_none]
    rw [trim_cons_of_isBlank (by decide)]
  | some p =>
    dsimp only [Option.map_some]
    rw [trim_cons_of_isBlank (by decide)]

namespace AssignmentsWord

variable {assigned : List Assignment} {a : String}

theorem toList_eq (h : AssignmentsWord assigned a) :
    a.toList = commaList (assigned.map fun x => x.text.toList) := by
  cases h with
  | intro hne h =>
    rw [String.toList_intercalate, List.map_map]
    rfl

theorem firm (h : AssignmentsWord assigned a) : Firm a := by
  have htext := h.toList_eq
  cases h with
  | intro hne h =>
    have hfirm : ∀ x ∈ assigned.map fun x => x.text.toList, x ≠ [] ∧ Tight x := by
      intro x hx
      obtain ⟨y, hy, rfl⟩ := List.mem_map.1 hx
      exact Assignment.firm_text (h y hy).1
    unfold Firm
    rw [htext]
    refine ⟨?_, tight_commaList hfirm⟩
    obtain ⟨x, xs, rfl⟩ := List.exists_cons_of_ne_nil hne
    rw [List.map_cons, commaList_cons]
    exact List.append_ne_nil_of_left_ne_nil (hfirm _ List.mem_cons_self).1 _

/-- **The assignments that are made of the text are those that were written.** -/
theorem assignments_eq (h : AssignmentsWord assigned a) : Request.assignments a = .ok assigned := by
  have htext := h.toList_eq
  cases h with
  | intro hne h =>
    have hparts : ∀ x ∈ assigned.map fun x => x.text.toList,
        IsPart (splitOutside ',') x ∧ IsPart (splitOutside ',') (' ' :: x) := by
      intro x hx
      obtain ⟨y, hy, rfl⟩ := List.mem_map.1 hx
      exact Assignment.isPart_text (h y hy).1
    have hread := map_split_commaList assignment_blank_cons (by simpa using hne) hparts
    have hvalues : (assigned.map fun x => x.text.toList).map Request.assignment =
        assigned.map Except.ok := by
      rw [List.map_map]
      exact List.map_congr_left fun y hy => assignment_text (h y hy).1
    have hall : ∀ l : List Assignment,
        (l.map (Except.ok (ε := Error))).mapM id = Except.ok l := by
      intro l
      induction l with
      | nil => rfl
      | cons y l ih => rw [List.map_cons, List.mapM_cons, ih]; rfl
    unfold Request.assignments
    rw [htext, ← hall assigned, ← hvalues, ← hread, List.mapM_map]
    rfl

end AssignmentsWord

/-! ### Looking for the keyword -/

/-- Puts a text in front of what is found before a keyword. -/
def putFront (s : List Char) (p : List Char × List Char) : List Char × List Char :=
  (s ++ p.1, p.2)

/-- A text in front of a blank in which no keyword is found, whatever stands before and after it. -/
def PassedOver (kw s : List Char) : Prop :=
  ∀ afterBlank t, beforeKeyword kw .outside afterBlank (s ++ ' ' :: t) =
    putFront (s ++ [' ']) (beforeKeyword kw .outside true t)

section PassedOver

variable {kw s t : List Char}

theorem beforeKeyword_cons_of_not {st : Scan} {afterBlank : Bool} {c : Char}
    (h : ¬(st = .outside ∧ isQuote c = false ∧ afterBlank = true ∧
      startsWithKeyword kw (c :: s) = true)) :
    beforeKeyword kw st afterBlank (c :: s) =
      putFront [c] (beforeKeyword kw (st.next c) (isBlank c) s) := by
  rw [beforeKeyword, if_neg h]
  rfl

/-- A keyword does not start inside of a word. -/
theorem beforeKeyword_solid (h : ∀ c ∈ s, isBlank c = false ∧ isQuote c = false) (t : List Char) :
    beforeKeyword kw .outside false (s ++ t) =
      putFront s (beforeKeyword kw .outside false t) := by
  induction s with
  | nil => rfl
  | cons c s ih =>
    obtain ⟨hblank, hquote⟩ := h c List.mem_cons_self
    rw [List.cons_append, beforeKeyword_cons_of_not (by simp), hblank,
      Scan.next_of_not_quote hquote, ih fun d hd => h d (List.mem_cons_of_mem c hd)]
    rfl

/-- Nor does one start inside of a literal. -/
theorem beforeKeyword_inside {st : Scan} (h : st.bare s = []) (afterBlank : Bool) (t : List Char) :
    beforeKeyword kw st afterBlank (s ++ t) =
      putFront s (beforeKeyword kw (st.run s) ((s.getLast?.map isBlank).getD afterBlank) t) := by
  induction s generalizing st afterBlank with
  | nil => rfl
  | cons c s ih =>
    have hnot : ¬(st = .outside ∧ isQuote c = false) := by
      intro hcut
      rw [Scan.bare_cons, if_pos hcut] at h
      exact absurd h (List.cons_ne_nil _ _)
    rw [Scan.bare_cons, if_neg hnot] at h
    have hlast : ((c :: s).getLast?.map isBlank).getD afterBlank =
        (s.getLast?.map isBlank).getD (isBlank c) := by
      cases s with
      | nil => rfl
      | cons d s => rw [List.getLast?_cons_cons, List.getLast?_cons]; rfl
    rw [List.cons_append, beforeKeyword_cons_of_not fun hall => hnot ⟨hall.1, hall.2.1⟩, ih h,
      hlast]
    rfl

theorem beforeKeyword_writes {value : String} (h : Writes value s) (afterBlank : Bool)
    (t : List Char) :
    beforeKeyword kw .outside afterBlank (s ++ t) =
      putFront s (beforeKeyword kw .outside false t) := by
  have hlast : (s.getLast?.map isBlank).getD afterBlank = false := by
    rw [List.getLast?_eq_some_getLast h.ne_nil]
    exact h.tight.2 _ (List.getLast?_eq_some_getLast h.ne_nil)
  rw [beforeKeyword_inside h.bare_eq, h.closed, hlast]

theorem PassedOver.append (hs : PassedOver kw s) (ht : PassedOver kw t) :
    PassedOver kw (s ++ ' ' :: t) := by
  intro afterBlank r
  rw [List.append_assoc, List.cons_append, hs, ht]
  simp [putFront]

theorem passedOver_of_solid (hne : s ≠ []) (h : ∀ c ∈ s, isBlank c = false ∧ isQuote c = false)
    (hstart : ∀ t, startsWithKeyword kw (s ++ ' ' :: t) = false) : PassedOver kw s := by
  intro afterBlank t
  obtain ⟨c, s, rfl⟩ := List.exists_cons_of_ne_nil hne
  obtain ⟨hblank, hquote⟩ := h c List.mem_cons_self
  have hfirst := hstart t
  rw [List.cons_append] at hfirst ⊢
  rw [beforeKeyword_cons_of_not (by simp [hfirst]), hblank, Scan.next_of_not_quote hquote,
    beforeKeyword_solid fun d hd => h d (List.mem_cons_of_mem c hd),
    beforeKeyword_cons_of_not (by simp)]
  simp [putFront, Scan.next, isQuote, isBlank]

theorem passedOver_writes {value : String} (h : Writes value s)
    (ht : ∀ c ∈ t, isBlank c = false ∧ isQuote c = false) : PassedOver kw (s ++ t) := by
  intro afterBlank r
  rw [List.append_assoc, beforeKeyword_writes h, beforeKeyword_solid ht,
    beforeKeyword_cons_of_not (by simp)]
  simp [putFront, Scan.next, isQuote, isBlank]

end PassedOver

section Keyword

variable {kw : String}

theorem startsWithKeyword_spells {w : String} (h : Spells kw w) {rest : List Char}
    (hrest : ∀ c ∈ rest.head?, isWordChar c = false) :
    startsWithKeyword kw.toList (w.toList ++ rest) = true := by
  unfold startsWithKeyword
  rw [h.length_eq, List.take_left, List.drop_left, h.same]
  cases hhead : rest.head? with
  | none => rfl
  | some c => simp [hrest c hhead]

/-- A text that starts with a keyword starts with a spelling of it, where the word ends. -/
theorem exists_spells_of_startsWithKeyword (hne : kw.toList ≠ [])
    (hkw : ∀ d ∈ kw.toList, isAsciiLetter d = true) {s : List Char}
    (h : startsWithKeyword kw.toList s = true) :
    ∃ w rest, Spells kw w ∧ s = w.toList ++ rest ∧ ∀ c ∈ rest.head?, isWordChar c = false := by
  obtain ⟨hsame, hnext⟩ := Bool.and_eq_true_iff.1 h
  refine ⟨String.ofList (s.take kw.toList.length), s.drop kw.toList.length, ⟨?_, ?_, ?_⟩, ?_, ?_⟩
  · rw [String.toList_ofList]
    intro hnil
    rw [hnil] at hsame
    have hlength := congrArg List.length (eq_of_beq hsame)
    rw [upperAscii, upperAscii, List.length_map, List.length_map] at hlength
    exact hne (List.length_eq_zero_iff.1 hlength.symm)
  · rw [String.toList_ofList]
    exact isAsciiLetter_of_sameAscii hsame hkw
  · rw [String.toList_ofList]
    exact hsame
  · rw [String.toList_ofList, List.take_append_drop]
  · intro c hc
    rw [Option.mem_def.1 hc] at hnext
    simpa using hnext

/-- **A word is passed over unless it is the keyword.** -/
theorem passedOver_word (hne : kw.toList ≠ []) (hkw : ∀ d ∈ kw.toList, isAsciiLetter d = true)
    {w : String} (hw : IsWord w) (hnot : ¬Spells kw w) : PassedOver kw.toList w.toList := by
  refine passedOver_of_solid hw.1 (fun c hc => ?_) fun t => Bool.eq_false_iff.2 fun hstart => ?_
  · have hname := hw.isIdentifier.2 c hc
    exact ⟨isBlank_of_isNameChar hname, isQuote_of_isNameChar hname⟩
  · obtain ⟨v, rest, hv, htext, hrest⟩ := exists_spells_of_startsWithKeyword hne hkw hstart
    have hleft : (w.toList ++ ' ' :: t).takeWhile isWordChar = w.toList := by
      rw [Reader.takeWhile_append_of_forall hw.2, List.takeWhile_cons_of_neg (by decide),
        List.append_nil]
    have hright : (v.toList ++ rest).takeWhile isWordChar = v.toList := by
      rw [Reader.takeWhile_append_of_forall hv.isWord.2, Reader.takeWhile_of_head hrest,
        List.append_nil]
    rw [htext, hright] at hleft
    exact hnot (String.toList_inj.1 hleft ▸ hv)

theorem passedOver_equals (hne : kw.toList ≠ [])
    (hkw : ∀ d ∈ kw.toList, isAsciiLetter d = true) : PassedOver kw.toList ['='] := by
  refine passedOver_of_solid (List.cons_ne_nil _ _) (by decide) fun t =>
    Bool.eq_false_iff.2 fun hstart => ?_
  obtain ⟨v, rest, hv, htext, -⟩ := exists_spells_of_startsWithKeyword hne hkw hstart
  obtain ⟨c, s, hcs⟩ := List.exists_cons_of_ne_nil hv.ne_nil
  rw [hcs] at htext
  obtain rfl : '=' = c := (List.cons.inj htext).1
  exact absurd (hv.letters '=' (by rw [hcs]; exact List.mem_cons_self)) (by decide)

/-- An assignment to a word other than the keyword is passed over, with a comma after it or not. -/
theorem passedOver_assignment (hne : kw.toList ≠ [])
    (hkw : ∀ d ∈ kw.toList, isAsciiLetter d = true) {a : Assignment} (hw : IsWord a.column)
    (hnot : ¬Spells kw a.column) {t : List Char}
    (ht : ∀ c ∈ t, isBlank c = false ∧ isQuote c = false) :
    PassedOver kw.toList (a.text.toList ++ t) := by
  have hvalue : PassedOver kw.toList ((quoted a.value).toList ++ t) :=
    passedOver_writes (writes_quoted a.value) ht
  have htext : a.text.toList ++ t =
      a.column.toList ++ ' ' :: (['='] ++ ' ' :: ((quoted a.value).toList ++ t)) := by
    rw [a.toList_text]
    simp
  rw [htext]
  exact (passedOver_word hne hkw hw hnot).append ((passedOver_equals hne hkw).append hvalue)

end Keyword

/-- A list is passed over if each of its items is, with a comma after it or not. -/
theorem passedOver_commaList {kw : List Char} {items : List (List Char)} (hne : items ≠ [])
    (h : ∀ x ∈ items, PassedOver kw x ∧ PassedOver kw (x ++ [','])) :
    PassedOver kw (commaList items) := by
  obtain ⟨x, items, rfl⟩ := List.exists_cons_of_ne_nil hne
  rw [commaList_cons]
  induction items generalizing x with
  | nil =>
    rw [List.flatMap_nil, List.append_nil]
    exact (h x List.mem_cons_self).1
  | cons y items ih =>
    have hlater := ih y (List.cons_ne_nil _ _) fun z hz => h z (List.mem_cons_of_mem x hz)
    have hsplit : x ++ (y :: items).flatMap (',' :: ' ' :: ·) =
        (x ++ [',']) ++ ' ' :: (y ++ items.flatMap (',' :: ' ' :: ·)) := by
      rw [List.flatMap_cons]
      simp
    rw [hsplit]
    exact (h x List.mem_cons_self).2.append hlater

namespace AssignmentsWord

variable {assigned : List Assignment} {a : String}

/-- **No assignment holds the keyword that ends the assignments.** -/
theorem passedOver (h : AssignmentsWord assigned a) : PassedOver "WHERE".toList a.toList := by
  have htext := h.toList_eq
  cases h with
  | intro hne h =>
    rw [htext]
    refine passedOver_commaList (by simpa using hne) fun x hx => ?_
    obtain ⟨y, hy, rfl⟩ := List.mem_map.1 hx
    have hassignment : ∀ t : List Char, (∀ c ∈ t, isBlank c = false ∧ isQuote c = false) →
        PassedOver "WHERE".toList (y.text.toList ++ t) :=
      fun t ht => passedOver_assignment (by decide) (by decide) (h y hy).1 (h y hy).2 ht
    refine ⟨?_, hassignment [','] (by decide)⟩
    have hbare := hassignment [] nofun
    rwa [List.append_nil] at hbare

/-- **The assignments are read up to the keyword.** -/
theorem upToKeyword_phrase (h : AssignmentsWord assigned a) {w : String} (hw : Spells "WHERE" w)
    (words : List String) :
    upToKeyword "WHERE" (a.toList ++ phrase (w :: words)) =
      .found a (w.toList ++ phrase words) := by
  have hstart : startsWithKeyword "WHERE".toList (w.toList ++ phrase words) = true :=
    startsWithKeyword_spells hw (head?_phrase_not (by decide) words)
  obtain ⟨c, s, hcs⟩ := List.exists_cons_of_ne_nil hw.ne_nil
  have hquote : isQuote c = false :=
    isQuote_of_isNameChar (hw.isWord.isIdentifier.2 c (hcs ▸ List.mem_cons_self))
  have hfound : beforeKeyword "WHERE".toList .outside true (w.toList ++ phrase words) =
      ([], w.toList ++ phrase words) := by
    rw [hcs, List.cons_append] at hstart ⊢
    rw [beforeKeyword, if_pos ⟨rfl, hquote, rfl, hstart⟩]
  have hbefore : beforeKeyword "WHERE".toList .outside false (a.toList ++ phrase (w :: words)) =
      (a.toList ++ [' '], w.toList ++ phrase words) := by
    rw [phrase_cons, h.passedOver, hfound]
    simp [putFront]
  unfold upToKeyword
  rw [hbefore]
  split
  · next hnil =>
    have hrest := (Prod.mk.inj hnil).2
    rw [hcs] at hrest
    exact absurd hrest (List.cons_ne_nil _ _)
  · next hpair =>
    obtain ⟨rfl, rfl⟩ := Prod.mk.inj hpair
    rw [trimEnd_append_blank h.firm.2, String.ofList_toList]

end AssignmentsWord

/-! ### Reading a change -/

/-- A condition that is there starts with its keyword. -/
theorem ConditionWords.exists_where {condition : Condition} {words : List String}
    (h : ConditionWords (some condition) words) :
    ∃ w more, words = w :: more ∧ Spells "WHERE" w := by
  cases h with
  | present hwhere => exact ⟨_, _, rfl, hwhere⟩

/-- **A condition at the end of a statement is read from its words.** -/
theorem ConditionWords.spaced_filter {condition : Condition} {words : List String}
    (h : ConditionWords (some condition) words) :
    ∃ filter, Grammar.spaced Grammar.filter (phrase words) = .found filter [] ∧
      Condition.ofFilter filter = .ok condition := by
  obtain ⟨filter?, hread, hfilter⟩ := h.optional_filter .nil
  rw [List.append_nil, phrase_nil] at hread
  cases filter? with
  | none => exact nomatch hfilter
  | some filter =>
    refine ⟨filter, ?_, ?_⟩
    · unfold Reader.optional at hread
      cases hp : Grammar.spaced Grammar.filter (phrase words) with
      | found f rest =>
        rw [hp] at hread
        obtain ⟨hf, hrest⟩ := Reading.found.inj hread
        rw [Option.some.inj hf, hrest]
      | stuck rest =>
        rw [hp] at hread
        exact nomatch (Reading.found.inj hread).1
      | broken =>
        rw [hp] at hread
        exact nomatch hread
    · rw [Option.mapM_some] at hfilter
      obtain ⟨c, hc, hpure⟩ := Result.bind_eq_ok_iff.1 hfilter
      rw [hc, Option.some.inj (Result.pure_eq_ok_iff.1 hpure)]

/-- An update is read as it was written. -/
theorem update_of_words {q : QuerySpec} {words : List String} (h : UpdateWords q words) :
    ∃ table assignments filter,
      Statement.parse (" ".intercalate words) = .ok (.update table assignments filter) ∧
      QuerySpec.ofUpdate table assignments filter = .ok q := by
  cases h with
  | @intro u table s a cs assigned condition hupdate htable hset hassigned hcondition =>
    obtain ⟨filter, hread, hfilter⟩ := hcondition.spaced_filter
    have hfirm : ∀ w ∈ table :: s :: a :: cs, Firm w := by
      simp only [List.mem_cons]
      rintro w (rfl | rfl | rfl | hw)
      · exact htable.firm
      · exact hset.firm
      · exact hassigned.firm
      · exact hcondition.firm w hw
    obtain ⟨w, more, rfl, hwhere⟩ := hcondition.exists_where
    have hfilterRead : Reader.optional Grammar.filter (w.toList ++ phrase more) =
        .found (some filter) [] := by
      unfold Grammar.spaced at hread
      rw [Reader.bind_of_found (gap1_phrase hwhere.firm)] at hread
      exact Reader.optional_of_found hread
    have hassignments : Reader.accepting (upToKeyword "WHERE")
        (fun s => if s = "" then none else some s) (a.toList ++ phrase (w :: more)) =
          .found a (w.toList ++ phrase more) := by
      have hne : a ≠ "" := by
        rintro rfl
        exact hassigned.firm.1 rfl
      unfold Reader.accepting
      rw [hassigned.upToKeyword_phrase hwhere]
      simp [hne]
    have hall : Grammar.update (u.toList ++ phrase (table :: s :: a :: w :: more)) =
        .found (.update table a (some filter)) [] := by
      unfold Grammar.update
      rw [Reader.bind_of_found (keyword_phrase hupdate),
        Reader.bind_of_found (gap1_phrase htable.firm),
        Reader.bind_of_found (identifier_phrase htable),
        Reader.bind_of_found (gap1_phrase hset.firm), Reader.bind_of_found (keyword_phrase hset),
        Reader.bind_of_found (gap1_phrase hassigned.firm), Reader.bind_of_found hassignments,
        Reader.bind_of_found hfilterRead]
      rfl
    refine ⟨table, a, some filter, Statement.parse_words hupdate rfl hfirm hall, ?_⟩
    unfold QuerySpec.ofUpdate
    rw [hassigned.assignments_eq, Result.ok_bind]
    unfold Condition.required
    dsimp only
    rw [hfilter]
    rfl

/-- A deletion is read as it was written. -/
theorem delete_of_words {q : QuerySpec} {words : List String} (h : DeleteWords q words) :
    ∃ table filter, Statement.parse (" ".intercalate words) = .ok (.delete table filter) ∧
      QuerySpec.ofDelete table filter = .ok q := by
  cases h with
  | @intro d fr table cs condition hdelete hfrom htable hcondition =>
    obtain ⟨filter, hread, hfilter⟩ := hcondition.spaced_filter
    have hfirm : ∀ w ∈ fr :: table :: cs, Firm w := by
      simp only [List.mem_cons]
      rintro w (rfl | rfl | hw)
      · exact hfrom.firm
      · exact htable.firm
      · exact hcondition.firm w hw
    have hfromRead : Reader.optional (do let _ ← keyword "FROM"; gap1)
        (fr.toList ++ phrase (table :: cs)) = .found (some ()) (table.toList ++ phrase cs) := by
      refine Reader.optional_of_found ?_
      rw [Reader.bind_of_found (keyword_phrase hfrom)]
      exact gap1_phrase htable.firm
    have hall : Grammar.delete (d.toList ++ phrase (fr :: table :: cs)) =
        .found (.delete table (some filter)) [] := by
      unfold Grammar.delete
      rw [Reader.bind_of_found (keyword_phrase hdelete),
        Reader.bind_of_found (gap1_phrase hfrom.firm), Reader.bind_of_found hfromRead,
        Reader.bind_of_found (identifier_phrase htable),
        Reader.bind_of_found (Reader.optional_of_found hread)]
      rfl
    refine ⟨table, some filter, Statement.parse_words hdelete rfl hfirm hall, ?_⟩
    unfold QuerySpec.ofDelete Condition.required
    dsimp only
    rw [hfilter]
    rfl

/-- **A change is read as it was written.** The words of an update or of a deletion, with a blank
between two of them, are read as one, and the query made of it is the one that was written: its
table, its assignments and its condition, with the values that its literals stand for. -/
theorem change_of_words :
    (∀ q words, UpdateWords q words → ∃ table assignments filter,
      Statement.parse (" ".intercalate words) = .ok (.update table assignments filter) ∧
        QuerySpec.ofUpdate table assignments filter = .ok q) ∧
      ∀ q words, DeleteWords q words → ∃ table filter,
        Statement.parse (" ".intercalate words) = .ok (.delete table filter) ∧
          QuerySpec.ofDelete table filter = .ok q :=
  ⟨fun _ _ h => update_of_words h, fun _ _ h => delete_of_words h⟩

theorem change_of_words_with_keyword :
    let assigned : List Assignment := [⟨"WHEREver", " WHERE x = 1, b = '"⟩, ⟨"b", "\\;="⟩]
    let condition : Condition :=
      { target := .field "n WHERE", operator := .notIn, operand := .list ["it's", ") WHERE"] }
    let update : QuerySpec :=
      { table := "t", condition := some condition, assignments := assigned }
    let delete : QuerySpec := { table := "from", condition := some condition }
    (UpdateWords update
        ["update", "t", "SET", "WHEREver = ' WHERE x = 1, b = \\'', b = '\\\\;='", "WHERE",
          "\x60n WHERE\x60", "NOT", "IN", "('it\\'s', ') WHERE')"] ∧
      ∃ table assignments filter,
        Statement.parse ("update t SET WHEREver = ' WHERE x = 1, b = \\'', b = '\\\\;=' " ++
            "WHERE \x60n WHERE\x60 NOT IN ('it\\'s', ') WHERE')") =
          .ok (.update table assignments filter) ∧
        QuerySpec.ofUpdate table assignments filter = .ok update) ∧
    DeleteWords delete
        ["DELETE", "From", "from", "WHERE", "\x60n WHERE\x60", "NOT", "IN",
          "('it\\'s', ') WHERE')"] ∧
      ∃ table filter,
        Statement.parse
            "DELETE From from WHERE \x60n WHERE\x60 NOT IN ('it\\'s', ') WHERE')" =
          .ok (.delete table filter) ∧
        QuerySpec.ofDelete table filter = .ok delete := by
  intro assigned condition update delete
  have hvalues : WritesList ["it's", ") WHERE"] "'it\\'s', ') WHERE'".toList := by
    refine ⟨by decide, ["'it\\'s'".toList, "') WHERE'".toList], ?_, by decide⟩
    exact .cons ⟨'\'', by decide, by decide⟩ (.cons ⟨'\'', by decide, by decide⟩ .nil)
  have hcondition : ConditionWords (some condition)
      ["WHERE", "\x60n WHERE\x60", "NOT", "IN", "('it\\'s', ') WHERE')"] :=
    .present (by decide) (.field (by decide) (by decide)) (.notIn (by decide) (by decide))
      (.list rfl hvalues (by decide))
  have hassigned : AssignmentsWord assigned
      "WHEREver = ' WHERE x = 1, b = \\'', b = '\\\\;='" := by
    have htext : ", ".intercalate (assigned.map Assignment.text) =
        "WHEREver = ' WHERE x = 1, b = \\'', b = '\\\\;='" := by decide +kernel
    rw [← htext]
    exact .intro (by decide) (by decide)
  have hu : Spells "UPDATE" "update" := by decide
  have ht : IsIdentifier "t" := by decide
  have hs : Spells "SET" "SET" := by decide
  have hd : Spells "DELETE" "DELETE" := by decide
  have hf : Spells "FROM" "From" := by decide
  have hfrom : IsIdentifier "from" := by decide
  have hupdate := UpdateWords.intro hu ht hs hassigned hcondition
  have hdelete := DeleteWords.intro hd hf hfrom hcondition
  refine ⟨⟨hupdate, ?_⟩, hdelete, ?_⟩
  · have htext : " ".intercalate ["update", "t", "SET",
        "WHEREver = ' WHERE x = 1, b = \\'', b = '\\\\;='", "WHERE", "\x60n WHERE\x60", "NOT", "IN",
        "('it\\'s', ') WHERE')"] =
          "update t SET WHEREver = ' WHERE x = 1, b = \\'', b = '\\\\;=' " ++
          "WHERE \x60n WHERE\x60 NOT IN ('it\\'s', ') WHERE')" := by decide +kernel
    rw [← htext]
    exact change_of_words.1 _ _ hupdate
  · have htext : " ".intercalate ["DELETE", "From", "from", "WHERE", "\x60n WHERE\x60", "NOT", "IN",
        "('it\\'s', ') WHERE')"] =
          "DELETE From from WHERE \x60n WHERE\x60 NOT IN ('it\\'s', ') WHERE')" := by decide +kernel
    rw [← htext]
    exact change_of_words.2 _ _ hdelete

end Tabular
