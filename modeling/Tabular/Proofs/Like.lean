import Mathlib.Data.List.Forall2
import Tabular.Predicate

/-!
What a pattern covers.

A pattern covers a text where the text can be cut into consecutive pieces, one for each character of
the pattern, such that each character takes its piece (`Pattern.Cut`). The matcher looks for no cut:
it goes through the pattern from its end and keeps a truth value for every tail of the text, and
what carries it is that each of these values tells whether the pattern so far covers its tail
(`forall₂_coveredTails`). Main statement: `Pattern.matches_iff_cut`, with what it makes of the
conditions `LIKE` and `NOT LIKE`.
-/

namespace Tabular

theorem Text.sameFold_iff {c d : Char} :
    Text.sameFold c d = true ↔ Text.foldCase c = Text.foldCase d := by
  rw [Text.sameFold, Bool.or_eq_true, beq_iff_eq, beq_iff_eq]
  exact or_iff_right_of_imp (congrArg Text.foldCase)

/-- What one piece of a pattern takes from a text. -/
def Piece.Takes : Piece → List Char → Prop
  | .anyText, _ => True
  | .anyChar, s => ∃ d, s = [d]
  | .letter c, s => ∃ d, s = [d] ∧ Text.foldCase c = Text.foldCase d

namespace Pattern

variable {p : Piece} {ps : List Piece} {s : List Char} {c : Char} {bs : List Bool}

/-- What one character of a pattern takes from a text. -/
inductive Takes : Char → String → Prop where
  /-- `%` takes any characters, perhaps none. -/
  | anyText (s : String) : Takes '%' s
  /-- `_` takes one character, whichever it is. -/
  | anyChar (d : Char) : Takes '_' (String.singleton d)
  /-- Every other character takes one character that is the same up to simple case folding. -/
  | letter {c d : Char} (percent : c ≠ '%') (underscore : c ≠ '_')
      (same : Text.foldCase c = Text.foldCase d) : Takes c (String.singleton d)

/-- A text can be cut into consecutive pieces, one for each character of a pattern. -/
def Cut (pattern text : String) : Prop :=
  ∃ cuts : List String, List.Forall₂ Takes pattern.toList cuts ∧ String.join cuts = text

/-- Pieces of a pattern cover a whole text, one after another. -/
def Covers : List Piece → List Char → Prop
  | [], s => s = []
  | p :: ps, s => ∃ t u, p.Takes t ∧ Covers ps u ∧ s = t ++ u

/-! ### Tails of a text -/

theorem covers_anyText_nil : Covers (.anyText :: ps) [] ↔ Covers ps [] := by
  constructor
  · rintro ⟨t, u, -, hu, heq⟩
    obtain ⟨-, rfl⟩ := List.append_eq_nil_iff.1 heq.symm
    exact hu
  · exact fun h => ⟨[], [], trivial, h, rfl⟩

/-- Any text takes nothing, or one character more. -/
theorem covers_anyText_cons :
    Covers (.anyText :: ps) (c :: s) ↔ Covers ps (c :: s) ∨ Covers (.anyText :: ps) s := by
  constructor
  · rintro ⟨t, u, -, hu, heq⟩
    cases t with
    | nil => exact .inl (heq ▸ hu)
    | cons d t => exact .inr ⟨t, u, trivial, hu, (List.cons.inj heq).2⟩
  · rintro (h | ⟨t, u, -, hu, rfl⟩)
    · exact ⟨[], c :: s, trivial, h, rfl⟩
    · exact ⟨c :: t, u, trivial, hu, rfl⟩

/-- A piece that takes one character of a class. -/
def IsClass (p : Piece) (ok : Char → Bool) : Prop :=
  ∀ t, p.Takes t ↔ ∃ d, t = [d] ∧ ok d = true

theorem isClass_anyChar : IsClass .anyChar fun _ => true := by
  simp [IsClass, Piece.Takes]

theorem isClass_letter (c : Char) : IsClass (.letter c) (Text.sameFold c) := by
  simp [IsClass, Piece.Takes, Text.sameFold_iff]

theorem not_covers_class_nil {ok : Char → Bool} (hp : IsClass p ok) : ¬Covers (p :: ps) [] := by
  rintro ⟨t, u, ht, -, heq⟩
  obtain ⟨d, rfl, -⟩ := (hp t).1 ht
  simp at heq

theorem covers_class_cons {ok : Char → Bool} (hp : IsClass p ok) :
    Covers (p :: ps) (c :: s) ↔ ok c = true ∧ Covers ps s := by
  constructor
  · rintro ⟨t, u, ht, hu, heq⟩
    obtain ⟨d, rfl, hd⟩ := (hp t).1 ht
    obtain ⟨rfl, rfl⟩ := List.cons.inj heq
    exact ⟨hd, hu⟩
  · rintro ⟨hc, hs⟩
    exact ⟨[c], s, (hp _).2 ⟨c, rfl, hc⟩, hs, rfl⟩

/-! ### The matcher -/

/-- A truth value tells whether pieces cover a text. -/
def Tells (ps : List Piece) (b : Bool) (s : List Char) : Prop :=
  b = true ↔ Covers ps s

theorem Tells.iff {b : Bool} (h : Tells ps b s) : b = true ↔ Covers ps s := h

/-- The first value is that of the whole text. -/
theorem headD_of_forall₂ (h : List.Forall₂ (Tells ps) bs s.tails) :
    Tells ps (bs.headD false) s := by
  cases s <;> cases h <;> assumption

theorem forall₂_emptyTails (s : List Char) :
    List.Forall₂ (Tells []) (emptyTails s) s.tails := by
  induction s with
  | nil => exact .cons (by simp [Tells, Covers]) .nil
  | cons c s ih => exact .cons (by simp [Tells, Covers]) ih

theorem forall₂_afterText (h : List.Forall₂ (Tells ps) bs s.tails) :
    List.Forall₂ (Tells (.anyText :: ps)) (afterText bs) s.tails := by
  induction s generalizing bs with
  | nil =>
    obtain _ | ⟨hb, _ | _⟩ := h
    refine .cons ?_ .nil
    rw [Tells, covers_anyText_nil, ← hb.iff]
    simp [afterText]
  | cons c s ih =>
    obtain _ | ⟨hb, htail⟩ := h
    have hrest := ih htail
    refine .cons ?_ hrest
    rw [Tells, covers_anyText_cons, Bool.or_eq_true, hb.iff, (headD_of_forall₂ hrest).iff]

theorem forall₂_afterChar {ok : Char → Bool} (hp : IsClass p ok)
    (h : List.Forall₂ (Tells ps) bs s.tails) :
    List.Forall₂ (Tells (p :: ps)) (afterChar ok s bs) s.tails := by
  induction s generalizing bs with
  | nil => exact .cons (by simp [Tells, not_covers_class_nil hp]) .nil
  | cons c s ih =>
    obtain _ | ⟨-, htail⟩ := h
    refine .cons ?_ (ih htail)
    rw [Tells, covers_class_cons hp, Bool.and_eq_true, (headD_of_forall₂ htail).iff]

/-- **The value that is kept for a tail tells whether the pieces cover it.** -/
theorem forall₂_coveredTails (s : List Char) (ps : List Piece) :
    List.Forall₂ (Tells ps) (coveredTails s ps) s.tails := by
  induction ps with
  | nil => exact forall₂_emptyTails s
  | cons p ps ih =>
    cases p with
    | anyText => exact forall₂_afterText ih
    | anyChar => exact forall₂_afterChar isClass_anyChar ih
    | letter c => exact forall₂_afterChar (isClass_letter c) ih

/-- The matcher decides whether the pieces of a pattern cover a text. -/
theorem matches_iff_covers {pattern text : String} :
    Pattern.matches pattern text = true ↔ Covers (pieces pattern) text.toList :=
  headD_of_forall₂ (forall₂_coveredTails text.toList (pieces pattern))

/-! ### Cuts -/

/-- A character takes what its piece takes. -/
theorem takes_iff {text : String} : Takes c text ↔ (Piece.ofChar c).Takes text.toList := by
  unfold Piece.ofChar
  constructor
  · rintro (_ | d | ⟨percent, underscore, same⟩)
    · trivial
    · exact ⟨d, String.toList_singleton d⟩
    · rw [if_neg percent, if_neg underscore]
      exact ⟨_, String.toList_singleton _, same⟩
  · intro h
    split at h
    · next hc => exact hc ▸ .anyText text
    · next percent =>
      split at h
      · next hc =>
        obtain ⟨d, hd⟩ := h
        rw [show text = String.singleton d from String.toList_inj.1 (hd.trans (by simp)), hc]
        exact .anyChar d
      · next underscore =>
        obtain ⟨d, hd, same⟩ := h
        rw [show text = String.singleton d from String.toList_inj.1 (hd.trans (by simp))]
        exact .letter percent underscore same

/-- Characters of a pattern cover the texts that can be cut for them. -/
theorem covers_map_iff {cs : List Char} {text : String} :
    Covers (cs.map Piece.ofChar) text.toList ↔
      ∃ cuts : List String, List.Forall₂ Takes cs cuts ∧ String.join cuts = text := by
  induction cs generalizing text with
  | nil =>
    constructor
    · intro h
      exact ⟨[], .nil, (String.toList_inj.1 (h.trans String.toList_empty.symm)).symm⟩
    · rintro ⟨_, _ | _, rfl⟩
      rfl
  | cons c cs ih =>
    constructor
    · rintro ⟨t, u, ht, hu, heq⟩
      rw [← String.toList_ofList (l := u)] at hu
      rw [← String.toList_ofList (l := t)] at ht
      obtain ⟨cuts, htakes, hjoin⟩ := ih.1 hu
      refine ⟨String.ofList t :: cuts, .cons (takes_iff.2 ht) htakes, ?_⟩
      rw [String.join_cons, hjoin, ← String.ofList_append, ← heq, String.ofList_toList]
    · rintro ⟨_, _ | ⟨ht, htakes⟩, rfl⟩
      rw [String.join_cons, String.toList_append]
      exact ⟨_, _, takes_iff.1 ht, ih.2 ⟨_, htakes, rfl⟩, rfl⟩

theorem matches_iff {pattern text : String} :
    Pattern.matches pattern text = true ↔ Cut pattern text :=
  matches_iff_covers.trans covers_map_iff

theorem covers_map_letter {cs : List Char} :
    Covers (cs.map .letter) s ↔ cs.map Text.foldCase = s.map Text.foldCase := by
  induction cs generalizing s with
  | nil => simp [Covers, eq_comm]
  | cons c cs ih =>
    cases s with
    | nil => simp [not_covers_class_nil (isClass_letter c)]
    | cons d s =>
      rw [List.map_cons, covers_class_cons (isClass_letter c), ih, Text.sameFold_iff]
      simp

/-- A pattern without wildcards covers the texts that are the same up to case folding. -/
theorem matches_iff_map_foldCase {pattern text : String} (percent : '%' ∉ pattern.toList)
    (underscore : '_' ∉ pattern.toList) :
    Pattern.matches pattern text = true ↔
      pattern.toList.map Text.foldCase = text.toList.map Text.foldCase := by
  have hpieces : pieces pattern = pattern.toList.map .letter := by
    refine List.map_congr_left fun c hc => ?_
    rw [Piece.ofChar, if_neg (ne_of_mem_of_not_mem hc percent),
      if_neg (ne_of_mem_of_not_mem hc underscore)]
  rw [matches_iff_covers, hpieces, covers_map_letter]

end Pattern

/-! ### Conditions -/

namespace Predicate

variable {column pattern : String} {row : Row}

/-- A row passes where its value can be cut, or, negated, where it has one that cannot. -/
theorem holds_like (negated : Bool) :
    holds { column, test := .like negated pattern } row = true ↔
      ∃ text, row.value? column = some text ∧ (Pattern.Cut pattern text ↔ negated = false) := by
  unfold holds Test.holds
  cases row.value? column with
  | none => simp
  | some text =>
    cases negated <;> simp [Pattern.matches_iff, ← Bool.not_eq_true]

end Predicate

/-- **A pattern covers a text exactly where the text can be cut for it**: into consecutive pieces,
one for each character of the pattern. Where the pattern compiles, `LIKE` selects the rows whose
value can be cut so, and `NOT LIKE` those whose value cannot; a row without a value passes neither.
A pattern that does not compile is an error with either. -/
theorem Pattern.matches_iff_cut [PatternCompiler] (pattern : String) :
    (∀ text, Pattern.matches pattern text = true ↔ Pattern.Cut pattern text) ∧
      match PatternCompiler.refusal? pattern with
      | none => ∃ like notLike, Test.of .like (.scalar pattern) = .ok like ∧
          Test.of .notLike (.scalar pattern) = .ok notLike ∧ ∀ (column : String) (row : Row),
            (Predicate.holds { column, test := like } row = true ↔
              ∃ text, row.value? column = some text ∧ Pattern.Cut pattern text) ∧
            (Predicate.holds { column, test := notLike } row = true ↔
              ∃ text, row.value? column = some text ∧ ¬Pattern.Cut pattern text)
      | some reason => Test.of .like (.scalar pattern) = .error (.invalidPattern reason) ∧
          Test.of .notLike (.scalar pattern) = .error (.invalidPattern reason) := by
  have hof (negated : Bool) (op : Operator)
      (hop : Test.of op (.scalar pattern) = Test.ofPattern negated pattern) :
      Test.of op (.scalar pattern) = match PatternCompiler.refusal? pattern with
        | none => .ok (.like negated pattern)
        | some reason => .error (.invalidPattern reason) := hop
  have hlike := hof false .like rfl
  have hnotLike := hof true .notLike rfl
  refine ⟨fun text => matches_iff, ?_⟩
  split at hlike <;> rename_i hcompiles
  · rw [hcompiles] at hnotLike
    refine ⟨_, _, hlike, hnotLike, fun column row => ⟨?_, ?_⟩⟩
    · simp [Predicate.holds_like]
    · simp [Predicate.holds_like]
  · rw [hcompiles] at hnotLike
    exact ⟨hlike, hnotLike⟩

example : Pattern.matches "%TEST_db%" "my_test1db" = true := by decide +kernel

example : Pattern.matches "a.c" "abc" = false := by decide +kernel

end Tabular
