import Tabular.Statement.Parse
import Tabular.Proofs.Text.Literal

/-!
Reading a statement word by word.

The words of a statement stand with a blank between two of them. `phrase` is what follows the first
word. A keyword is read in any letter case (`keyword_spells`), and is not taken for another keyword
that differs from it within the shorter of the two (`keyword_fails`); so an optional clause is left
out exactly where the next word is the keyword of a later clause (`fails_spaced`).
-/

namespace Tabular

open Tabular.Text

/-! ### What a reader finds -/

namespace Reader

variable {α β : Type}

theorem bind_eq_found {p : Reader α} {k : α → Reader β} {s rest : List Char} {b : β}
    (h : (p >>= k) s = .found b rest) :
    ∃ a later, p s = .found a later ∧ k a later = .found b rest := by
  rw [bind_apply] at h
  cases hp : p s with
  | found a later =>
    rw [hp] at h
    exact ⟨a, later, rfl, h⟩
  | stuck later =>
    rw [hp] at h
    exact nomatch h
  | broken =>
    rw [hp] at h
    exact nomatch h

theorem bind_eq_broken {p : Reader α} {k : α → Reader β} {s : List Char}
    (h : (p >>= k) s = .broken) :
    p s = .broken ∨ ∃ a later, p s = .found a later ∧ k a later = .broken := by
  rw [bind_apply] at h
  cases hp : p s with
  | found a later =>
    rw [hp] at h
    exact .inr ⟨a, later, rfl, h⟩
  | stuck later =>
    rw [hp] at h
    exact nomatch h
  | broken => exact .inl rfl

theorem notBefore_ne_broken (f : Char → Bool) (s : List Char) : notBefore f s ≠ .broken := by
  unfold notBefore
  intro h
  split at h
  · exact nomatch h
  · exact nomatch h

theorem notBefore_eq_found {f : Char → Bool} {s rest : List Char} {u : Unit}
    (h : notBefore f s = .found u rest) : (∀ c ∈ s.head?, f c = false) ∧ rest = s := by
  unfold notBefore at h
  split at h
  · exact nomatch h
  · next hhead =>
    refine ⟨fun c hc => ?_, (Reading.found.inj h).2.symm⟩
    rw [Option.mem_def.1 hc, Option.any_some] at hhead
    exact Bool.eq_false_iff.2 hhead

end Reader

/-! ### Failing readers -/

/-- A reader finds no match in a text. -/
def Reader.Fails {α : Type} (p : Reader α) (s : List Char) : Prop :=
  ∃ rest, p s = .stuck rest

namespace Reader.Fails

variable {α β : Type} {p q : Reader α} {s rest : List Char}

theorem bind (h : p.Fails s) (k : α → Reader β) : Reader.Fails (p >>= k) s :=
  h.imp fun _ => Reader.bind_of_stuck

theorem bind_of_found {a : α} {k : α → Reader β} (hp : p s = .found a rest) (h : (k a).Fails rest) :
    Reader.Fails (p >>= k) s := by
  obtain ⟨r, hr⟩ := h
  exact ⟨r, by rw [Reader.bind_of_found hp, hr]⟩

theorem orElse_eq (h : p.Fails s) : (p <|> q) s = q s := by
  obtain ⟨_, hr⟩ := h
  exact Reader.orElse_of_stuck hr

theorem orElse (hp : p.Fails s) (hq : q.Fails s) : Reader.Fails (p <|> q) s :=
  hq.imp fun _ hr => hp.orElse_eq.trans hr

theorem optional (h : p.Fails s) : Reader.optional p s = .found none s := by
  obtain ⟨_, hr⟩ := h
  exact Reader.optional_of_stuck hr

end Reader.Fails

/-! ### Words -/

/-- A text that is read as one piece: not empty and without white space at its ends. -/
def Firm (w : String) : Prop :=
  w.toList ≠ [] ∧ Tight w.toList

theorem Firm.head?_not_gap {w : String} (h : Firm w) (rest : List Char) :
    ∀ c ∈ (w.toList ++ rest).head?, isGap c = false := by
  obtain ⟨d, s, hw⟩ := List.exists_cons_of_ne_nil h.1
  have hblank := h.2.1 d (by rw [hw]; rfl)
  intro c hc
  rw [hw, List.cons_append, List.head?_cons, Option.mem_some_iff] at hc
  subst hc
  cases hgap : isGap d with
  | false => rfl
  | true => exact absurd (isBlank_of_isGap hgap) (by simp [hblank])

theorem Firm.of_forall {w : String} (hne : w.toList ≠ []) (h : ∀ c ∈ w.toList, isBlank c = false) :
    Firm w :=
  ⟨hne, .of_forall h⟩

/-- A word: letters, digits and underscores. -/
def IsWord (w : String) : Prop :=
  w.toList ≠ [] ∧ ∀ c ∈ w.toList, isWordChar c = true

instance (w : String) : Decidable (IsWord w) :=
  inferInstanceAs (Decidable (_ ∧ _))

/-- The characters of a qualified name. -/
def isNameChar (c : Char) : Bool :=
  isWordChar c || c == '.'

/-- A name that may be qualified by dots. -/
def IsIdentifier (w : String) : Prop :=
  w.toList ≠ [] ∧ ∀ c ∈ w.toList, isNameChar c = true

instance (w : String) : Decidable (IsIdentifier w) :=
  inferInstanceAs (Decidable (_ ∧ _))

theorem IsWord.isIdentifier {w : String} (h : IsWord w) : IsIdentifier w :=
  ⟨h.1, fun c hc => by simp [isNameChar, h.2 c hc]⟩

theorem isBlank_of_isNameChar {c : Char} (h : isNameChar c = true) : isBlank c = false := by
  rcases Bool.or_eq_true_iff.1 h with h | h
  · exact isBlank_of_isWordChar h
  · obtain rfl := eq_of_beq h
    decide

theorem ne_of_isNameChar {c d : Char} (h : isNameChar c = true) (hd : isNameChar d = false) :
    c ≠ d := by
  rintro rfl
  rw [hd] at h
  exact Bool.noConfusion h

theorem isQuote_of_isNameChar {c : Char} (h : isNameChar c = true) : isQuote c = false := by
  have hsingle : isNameChar '\'' = false := by decide +kernel
  have hdouble : isNameChar '"' = false := by decide +kernel
  simp [isQuote, ne_of_isNameChar h hsingle, ne_of_isNameChar h hdouble]

theorem isWordChar_of_isQuote {c : Char} (h : isQuote c = true) : isWordChar c = false := by
  rcases Bool.or_eq_true_iff.1 h with h | h <;> (obtain rfl := eq_of_beq h; decide +kernel)

theorem IsIdentifier.firm {w : String} (h : IsIdentifier w) : Firm w :=
  .of_forall h.1 fun c hc => isBlank_of_isNameChar (h.2 c hc)

/-! ### Keywords in any letter case -/

/-- A text of ASCII letters that is a keyword in some letter case. -/
structure Spells (keyword w : String) : Prop where
  ne_nil : w.toList ≠ []
  letters : ∀ c ∈ w.toList, isAsciiLetter c = true
  same : sameAscii w.toList keyword.toList = true

instance (keyword w : String) : Decidable (Spells keyword w) :=
  decidable_of_iff (w.toList ≠ [] ∧ (∀ c ∈ w.toList, isAsciiLetter c = true) ∧
      sameAscii w.toList keyword.toList = true)
    ⟨fun h => ⟨h.1, h.2.1, h.2.2⟩, fun h => ⟨h.ne_nil, h.letters, h.same⟩⟩

theorem isAsciiLetter_lt {c : Char} (h : isAsciiLetter c = true) : c.toNat < 128 := by
  simp only [isAsciiLetter, Bool.or_eq_true, Bool.and_eq_true, decide_eq_true_eq, Char.le_def,
    UInt32.le_iff_toNat_le] at h
  have h' : (97 ≤ c.toNat ∧ c.toNat ≤ 122) ∨ (65 ≤ c.toNat ∧ c.toNat ≤ 90) := h
  omega

theorem isWordChar_of_isAsciiLetter {c : Char} (h : isAsciiLetter c = true) :
    isWordChar c = true := by
  simp [isWordChar, isAlnum, isAsciiLetter_lt h, h]

namespace Spells

variable {keyword w : String}

theorem isWord (h : Spells keyword w) : IsWord w :=
  ⟨h.ne_nil, fun c hc => isWordChar_of_isAsciiLetter (h.letters c hc)⟩

theorem firm (h : Spells keyword w) : Firm w :=
  h.isWord.isIdentifier.firm

theorem upper_eq (h : Spells keyword w) : upperAscii w.toList = upperAscii keyword.toList :=
  eq_of_beq h.same

theorem length_eq (h : Spells keyword w) : keyword.toList.length = w.toList.length := by
  have hlength := congrArg List.length h.upper_eq
  rw [upperAscii, upperAscii, List.length_map, List.length_map] at hlength
  exact hlength.symm

theorem ascii (h : Spells keyword w) : ∀ d ∈ keyword.toList, d.toNat < 128 := by
  intro d hd
  have hmem : asciiUpper d ∈ upperAscii w.toList := h.upper_eq ▸ List.mem_map_of_mem hd
  obtain ⟨c, hc, hcd⟩ := List.mem_map.1 hmem
  rw [← asciiUpper_lt, ← hcd, asciiUpper_lt]
  exact isAsciiLetter_lt (h.letters c hc)

/-- To a keyword reader a spelling looks like the keyword itself. -/
theorem map_keywordChar (h : Spells keyword w) :
    w.toList.map keywordChar = keyword.toList.map keywordChar := by
  have hupper : ∀ s : List Char, (∀ c ∈ s, c.toNat < 128) → s.map keywordChar = upperAscii s := by
    intro s hs
    refine List.map_congr_left fun c hc => if_neg ?_
    rintro rfl
    exact absurd (hs _ hc) (by decide)
  rw [hupper _ h.ascii, hupper _ fun c hc => isAsciiLetter_lt (h.letters c hc), h.upper_eq]

end Spells

theorem agreeAsKeywords_eq (s t : List Char) :
    agreeAsKeywords s t =
      ((s.map keywordChar).zip (t.map keywordChar)).all fun p => p.1 == p.2 := by
  unfold agreeAsKeywords
  rw [List.zip_map, List.all_map]
  rfl

theorem agreeAsKeywords_append {s t : List Char} (h : agreeAsKeywords s t = false)
    (rest : List Char) : agreeAsKeywords (s ++ rest) t = false := by
  induction s generalizing t with
  | nil => simp [agreeAsKeywords] at h
  | cons c s ih =>
    cases t with
    | nil => simp [agreeAsKeywords] at h
    | cons d t =>
      change (_ && agreeAsKeywords s t) = false at h
      change (_ && agreeAsKeywords (s ++ rest) t) = false
      rcases Bool.and_eq_false_iff.1 h with hhead | htail
      · rw [hhead, Bool.false_and]
      · rw [ih htail, Bool.and_false]

namespace Token

variable {kw w : String}

/-- **A keyword is read in any letter case**, in front of what does not continue the word. -/
theorem keyword_spells (h : Spells kw w) {rest : List Char}
    (hrest : ∀ c ∈ rest.head?, isWordChar c = false) :
    keyword kw (w.toList ++ rest) = .found w rest := by
  have htake : (w.toList ++ rest).take kw.toList.length = w.toList := by
    rw [h.length_eq, List.take_left]
  have hkelvin : '\u212A' ∉ (w.toList ++ rest).take kw.toList.length := by
    rw [htake]
    exact fun hmem => absurd (isAsciiLetter_lt (h.letters _ hmem)) (by decide)
  have htext := Reader.textNoCase_eq h.ascii hkelvin
  rw [htake, if_pos h.same, h.length_eq, List.drop_left] at htext
  have hnext : Reader.notBefore isWordChar rest = .found () rest := by
    unfold Reader.notBefore
    cases hhead : rest.head? with
    | none => rfl
    | some c => simp [hrest c hhead]
  unfold keyword
  rw [Reader.bind_of_found htext, Reader.bind_of_found hnext, Reader.pure_apply,
    String.ofList_toList]

theorem keyword_fails_of_disagree {s : List Char} (h : agreeAsKeywords s kw.toList = false) :
    (keyword kw).Fails s := by
  refine Reader.Fails.bind ⟨s, ?_⟩ _
  unfold Reader.textNoCase
  rw [h, Bool.false_and]
  rfl

/-- **A keyword is not taken for another one** that differs from it within the shorter of the
two. -/
theorem keyword_fails {other : String} (h : Spells other w)
    (hne : agreeAsKeywords other.toList kw.toList = false) (rest : List Char) :
    (keyword kw).Fails (w.toList ++ rest) := by
  refine keyword_fails_of_disagree (agreeAsKeywords_append ?_ rest)
  rw [agreeAsKeywords_eq, h.map_keywordChar, ← agreeAsKeywords_eq]
  exact hne

/-- A keyword without the letter K does not agree with a text that has a Kelvin sign in its
place. -/
theorem agreeAsKeywords_of_kelvin {s t : List Char} (hs : '\u212A' ∈ s.take t.length)
    (ht : ∀ d ∈ t, keywordChar d ≠ 'K') : agreeAsKeywords s t = false := by
  induction t generalizing s with
  | nil => exact absurd hs (by simp)
  | cons d t ih =>
    cases s with
    | nil => exact absurd hs (by simp)
    | cons c s =>
      change ((keywordChar c == keywordChar d) && agreeAsKeywords s t) = false
      rw [List.length_cons, List.take_succ_cons] at hs
      rcases List.mem_cons.1 hs with rfl | hs
      · have hd : keywordChar '\u212A' ≠ keywordChar d := (ht d List.mem_cons_self).symm
        rw [beq_eq_false_iff_ne.2 hd, Bool.false_and]
      · rw [ih hs fun e he => ht e (List.mem_cons_of_mem d he), Bool.and_false]

theorem isAsciiLetter_asciiUpper (c : Char) : isAsciiLetter (asciiUpper c) = isAsciiLetter c := by
  have hascii : ∀ n < 128, isAsciiLetter (asciiUpper (Char.ofNat n)) =
      isAsciiLetter (Char.ofNat n) := by decide +kernel
  by_cases hc : c.toNat < 128
  · have hletter := hascii c.toNat hc
    rwa [Char.ofNat_toNat] at hletter
  · have hupper : isAsciiLetter (asciiUpper c) ≠ true :=
      fun h => hc (asciiUpper_lt.1 (isAsciiLetter_lt h))
    have hplain : isAsciiLetter c ≠ true := fun h => hc (isAsciiLetter_lt h)
    rw [Bool.eq_false_iff.2 hupper, Bool.eq_false_iff.2 hplain]

theorem isAsciiLetter_of_sameAscii {s t : List Char} (h : sameAscii s t = true)
    (ht : ∀ d ∈ t, isAsciiLetter d = true) : ∀ c ∈ s, isAsciiLetter c = true := by
  intro c hc
  have hmem : asciiUpper c ∈ upperAscii t := eq_of_beq h ▸ List.mem_map_of_mem hc
  obtain ⟨d, hd, hdc⟩ := List.mem_map.1 hmem
  rw [← isAsciiLetter_asciiUpper, ← hdc, isAsciiLetter_asciiUpper]
  exact ht d hd

/-- A Kelvin sign is taken for no other letter than K. -/
theorem textNoCase_of_kelvin {kw s : List Char} (hkelvin : ∀ d ∈ kw, keywordChar d ≠ 'K')
    (hs : '\u212A' ∈ s.take kw.length) : Reader.textNoCase kw s = .stuck s := by
  unfold Reader.textNoCase
  rw [agreeAsKeywords_of_kelvin hs hkelvin, Bool.false_and]
  rfl

/-- **A keyword breaks the reading only at a Kelvin sign.** -/
theorem kelvin_of_textNoCase {kw s : List Char} (hkw : ∀ d ∈ kw, isAsciiLetter d = true)
    (h : Reader.textNoCase kw s = .broken) : '\u212A' ∈ s.take kw.length := by
  refine Decidable.byContradiction fun hs => ?_
  rw [Reader.textNoCase_eq (fun d hd => isAsciiLetter_lt (hkw d hd)) hs] at h
  split at h
  · exact nomatch h
  · exact nomatch h

/-- A keyword without the letter K does not break the reading. -/
theorem keyword_ne_broken (hkw : ∀ d ∈ kw.toList, isAsciiLetter d = true)
    (hkelvin : ∀ d ∈ kw.toList, keywordChar d ≠ 'K') (s : List Char) :
    keyword kw s ≠ .broken := by
  intro h
  rcases Reader.bind_eq_broken h with htext | ⟨found, later, -, hlater⟩
  · have hs := kelvin_of_textNoCase hkw htext
    exact nomatch (textNoCase_of_kelvin hkelvin hs).symm.trans htext
  · rcases Reader.bind_eq_broken hlater with hnext | ⟨_, _, -, hpure⟩
    · exact Reader.notBefore_ne_broken _ _ hnext
    · exact nomatch hpure

/-- A text that a keyword without the letter K is read from starts with a spelling of it. -/
theorem textNoCase_eq_found {kw s head rest : List Char} (hkw : ∀ d ∈ kw, isAsciiLetter d = true)
    (hkelvin : ∀ d ∈ kw, keywordChar d ≠ 'K') (h : Reader.textNoCase kw s = .found head rest) :
    s = head ++ rest ∧ sameAscii head kw = true := by
  have htake : '\u212A' ∉ s.take kw.length :=
    fun hmem => nomatch (textNoCase_of_kelvin hkelvin hmem).symm.trans h
  rw [Reader.textNoCase_eq (fun d hd => isAsciiLetter_lt (hkw d hd)) htake] at h
  split at h
  · next hsame =>
    obtain ⟨rfl, rfl⟩ := Reading.found.inj h
    exact ⟨(List.take_append_drop _ _).symm, hsame⟩
  · exact nomatch h

/-- **A keyword is read only where it is spelled**, and where the word ends. The letter K is left
out, since a Kelvin sign may stand for it. -/
theorem spells_of_keyword (hne : kw.toList ≠ []) (hkw : ∀ d ∈ kw.toList, isAsciiLetter d = true)
    (hkelvin : ∀ d ∈ kw.toList, keywordChar d ≠ 'K') {s rest : List Char}
    (h : keyword kw s = .found w rest) :
    Spells kw w ∧ s = w.toList ++ rest ∧ ∀ c ∈ rest.head?, isWordChar c = false := by
  obtain ⟨head, later, htext, hlater⟩ := Reader.bind_eq_found h
  obtain ⟨_, later', hnext, hword⟩ := Reader.bind_eq_found hlater
  obtain ⟨hhead, rfl⟩ := Reader.notBefore_eq_found hnext
  obtain ⟨rfl, rfl⟩ := Reading.found.inj hword
  obtain ⟨rfl, hsame⟩ := textNoCase_eq_found hkw hkelvin htext
  have hnil : head ≠ [] := by
    rintro rfl
    have hlength := congrArg List.length (eq_of_beq hsame)
    simp only [upperAscii, List.map_nil, List.length_nil, List.length_map] at hlength
    exact hne (List.length_eq_zero_iff.1 hlength.symm)
  rw [String.toList_ofList]
  refine ⟨⟨?_, ?_, ?_⟩, rfl, hhead⟩
  · rwa [String.toList_ofList]
  · rw [String.toList_ofList]
    exact isAsciiLetter_of_sameAscii hsame hkw
  · rwa [String.toList_ofList]

theorem identifier_append (h : IsIdentifier w) {rest : List Char}
    (hrest : ∀ c ∈ rest.head?, isNameChar c = false) :
    identifier (w.toList ++ rest) = .found w rest := by
  have hrun : Reader.takeWhile1 isNameChar (w.toList ++ rest) = .found w.toList rest :=
    Reader.takeWhile1_append h.1 h.2 hrest
  change (Reader.takeWhile1 isNameChar >>= _) _ = _
  rw [Reader.bind_of_found hrun, Reader.pure_apply, String.ofList_toList]

end Token

/-! ### Words in a row -/

/-- Words with a blank in front of each. -/
def phrase (words : List String) : List Char :=
  words.flatMap fun w => ' ' :: w.toList

@[simp] theorem phrase_nil : phrase [] = [] := rfl

theorem phrase_cons (w : String) (words : List String) :
    phrase (w :: words) = ' ' :: (w.toList ++ phrase words) := rfl

/-- Words with a blank between two of them are the first one and a phrase. -/
theorem toList_intercalate_cons (w : String) (words : List String) :
    (" ".intercalate (w :: words)).toList = w.toList ++ phrase words := by
  rw [String.toList_intercalate]
  induction words generalizing w with
  | nil => simp
  | cons v words ih =>
    rw [List.map_cons, List.map_cons, List.intercalate_cons_cons, ← List.map_cons, ih v,
      List.append_assoc, phrase_cons]
    rfl

theorem head?_phrase (words : List String) : ∀ c ∈ (phrase words).head?, c = ' ' := by
  cases words with
  | nil => nofun
  | cons w words => rintro c ⟨⟩; rfl

theorem head?_phrase_not {f : Char → Bool} (hf : f ' ' = false) (words : List String) :
    ∀ c ∈ (phrase words).head?, f c = false := by
  intro c hc
  rw [head?_phrase words c hc]
  exact hf

theorem tight_append_phrase {s : List Char} (hne : s ≠ []) (hs : Tight s) {words : List String}
    (h : ∀ w ∈ words, Firm w) : Tight (s ++ phrase words) := by
  induction words generalizing s with
  | nil =>
    rw [phrase_nil, List.append_nil]
    exact hs
  | cons w words ih =>
    have hw := h w List.mem_cons_self
    cases s with
    | nil => exact absurd rfl hne
    | cons c s =>
      have hfirst : Tight (c :: ((s ++ [' ']) ++ w.toList)) :=
        hw.2.enclose (hs.1 c rfl) hw.1
      have hlater := ih (List.cons_ne_nil _ _) hfirst fun v hv => h v (List.mem_cons_of_mem w hv)
      rw [phrase_cons]
      simpa using hlater

namespace Token

variable {w : String} {words : List String}

theorem gap1_phrase (h : Firm w) :
    gap1 (phrase (w :: words)) = .found () (w.toList ++ phrase words) := by
  have hrun : Reader.takeWhile1 isGap ([' '] ++ (w.toList ++ phrase words)) = .found [' '] _ :=
    Reader.takeWhile1_append (List.cons_ne_nil _ _) (by decide) (h.head?_not_gap _)
  exact Reader.bind_of_found hrun

theorem gap_phrase (h : Firm w) :
    gap (phrase (w :: words)) = .found () (w.toList ++ phrase words) := by
  have hrun : Reader.takeWhile isGap ([' '] ++ (w.toList ++ phrase words)) = .found [' '] _ :=
    Reader.takeWhile_append (by decide) (h.head?_not_gap _)
  exact Reader.bind_of_found hrun

theorem gap1_nil : gap1.Fails [] := ⟨[], rfl⟩

theorem keyword_phrase {kw : String} (h : Spells kw w) :
    keyword kw (w.toList ++ phrase words) = .found w (phrase words) :=
  keyword_spells h (head?_phrase_not (by decide) words)

theorem identifier_phrase (h : IsIdentifier w) :
    identifier (w.toList ++ phrase words) = .found w (phrase words) :=
  identifier_append h (head?_phrase_not (by decide) words)

end Token

/-- The next word, if there is one, is one of some keywords. -/
def NextIsOneOf (keywords words : List String) : Prop :=
  ∀ w ∈ words.head?, ∃ kw ∈ keywords, Spells kw w

namespace NextIsOneOf

variable {keywords words : List String}

theorem nil : NextIsOneOf keywords [] := nofun

theorem cons {kw w : String} (hkw : kw ∈ keywords) (h : Spells kw w) :
    NextIsOneOf keywords (w :: words) := by
  rintro v ⟨⟩
  exact ⟨kw, hkw, h⟩

theorem mono {more : List String} (h : NextIsOneOf keywords words) (hsub : keywords ⊆ more) :
    NextIsOneOf more words := by
  intro w hw
  obtain ⟨kw, hkw, hspells⟩ := h w hw
  exact ⟨kw, hsub hkw, hspells⟩

/-- **A clause is not read where the next word is another keyword**, or the text ends: a reader that
starts with a blank fails if it does so at each of the keywords. -/
theorem fails_spaced {α : Type} {p : Reader α} (h : NextIsOneOf keywords words)
    (hp : ∀ kw ∈ keywords, ∀ w, Spells kw w → ∀ rest, p.Fails (w.toList ++ rest)) :
    (Grammar.spaced p).Fails (phrase words) := by
  cases words with
  | nil => exact Token.gap1_nil.bind _
  | cons w words =>
    obtain ⟨kw, hkw, hspells⟩ := h w rfl
    exact .bind_of_found (Token.gap1_phrase hspells.firm) (hp kw hkw w hspells _)

end NextIsOneOf

/-! ### Whole statements -/

theorem Verb.ofKeyword?_spells {kw w : String} (h : Spells kw w) :
    Verb.ofKeyword? w = Verb.ofKeyword? kw := by
  unfold Verb.ofKeyword?
  rw [h.upper_eq]

/-- The longest verb has eight letters. -/
theorem Verb.length_le_of_ofKeyword? {word : String} {verb : Verb}
    (h : Verb.ofKeyword? word = some verb) : word.toList.length ≤ 8 := by
  have hkeyword {keyword : String} (heq : String.ofList (upperAscii word.toList) = keyword)
      (hlength : keyword.toList.length ≤ 8) : word.toList.length ≤ 8 := by
    have hupper := congrArg (fun t => t.toList.length) heq
    rw [String.toList_ofList, upperAscii, List.length_map] at hupper
    omega
  unfold Verb.ofKeyword? at h
  split at h
  case h_11 => cases h
  all_goals exact hkeyword ‹_› (by decide)

/-- A word that is no verb is no statement. -/
theorem Statement.parse_of_unknownVerb {word : String} (h : IsWord word)
    (hverb : Verb.ofKeyword? word = none) : Statement.parse word = .error (.unknownVerb word) := by
  have htrim : trim word.toList = word.toList :=
    (Tight.of_forall fun c hc => isBlank_of_isWordChar (h.2 c hc)).trim_eq
  have hword : word.toList.takeWhile isWordChar = word.toList := by
    rw [← List.append_nil word.toList, Reader.takeWhile_append_of_forall h.2]
    rfl
  unfold Statement.parse
  rw [htrim]
  dsimp only
  rw [hword]
  split
  · next hnil => exact absurd hnil h.1
  · rw [String.ofList_toList, hverb]

/-- **A statement is read from its words**, by the grammar of the verb that the first one
spells. -/
theorem Statement.parse_words {kw w : String} {verb : Verb} {words : List String} {st : Statement}
    (h : Spells kw w) (hverb : Verb.ofKeyword? kw = some verb) (hwords : ∀ v ∈ words, Firm v)
    (hread : Grammar.ofVerb verb (w.toList ++ phrase words) = .found st []) :
    Statement.parse (" ".intercalate (w :: words)) = .ok st := by
  have htrim : trim (" ".intercalate (w :: words)).toList = w.toList ++ phrase words := by
    rw [toList_intercalate_cons]
    exact (tight_append_phrase h.ne_nil h.firm.2 hwords).trim_eq
  have hword : (w.toList ++ phrase words).takeWhile isWordChar = w.toList := by
    rw [Reader.takeWhile_append_of_forall h.isWord.2,
      Reader.takeWhile_of_head (head?_phrase_not (by decide) words), List.append_nil]
  have hall : Statement.parseAs verb (w.toList ++ phrase words) = .ok st := by
    unfold Statement.parseAs
    rw [Reader.bind_of_found hread]
    rfl
  unfold Statement.parse
  rw [htrim]
  dsimp only
  rw [hword]
  split
  · next hnil => exact absurd hnil h.ne_nil
  · rw [String.ofList_toList, Verb.ofKeyword?_spells h, hverb]
    exact hall

end Tabular
