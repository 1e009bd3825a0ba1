import Mathlib.Data.List.Forall2
import Tabular.Request.Lists
import Tabular.Proofs.Text.Literal

/-!
Lists of names and of values.

A list is written with a comma and a blank between two items (`commaList`). Main statements: a list
of literals holds nothing but commas and blanks outside its literals (`WritesList.closed_and_bare`),
so it stands as one group in parentheses (`WritesList.group?_append`), and the values that an
insertion or a condition takes from it are the values that were written
(`WritesList.insertedValues_eq`, `WritesList.listedValues_eq`).
-/

namespace Tabular.Text

/-! ### Lists -/

/-- Items with a comma and a blank between two of them. -/
def commaList (items : List (List Char)) : List Char :=
  List.intercalate [',', ' '] items

theorem commaList_cons (x : List Char) (items : List (List Char)) :
    commaList (x :: items) = x ++ items.flatMap (',' :: ' ' :: ·) := by
  induction items generalizing x with
  | nil => simp [commaList]
  | cons y items ih =>
    have htail := ih y
    unfold commaList at htail ⊢
    rw [List.intercalate_cons_cons, htail, List.flatMap_cons, List.append_assoc]
    rfl

theorem forall_mem_commaList {P : Char → Prop} {items : List (List Char)}
    (h : ∀ x ∈ items, ∀ c ∈ x, P c) (hcomma : P ',') (hblank : P ' ') :
    ∀ c ∈ commaList items, P c := by
  cases items with
  | nil => nofun
  | cons x items =>
    intro c hc
    rw [commaList_cons, List.mem_append, List.mem_flatMap] at hc
    rcases hc with hc | ⟨y, hy, hc⟩
    · exact h x List.mem_cons_self c hc
    · rcases List.mem_cons.1 hc with rfl | hc
      · exact hcomma
      · rcases List.mem_cons.1 hc with rfl | hc
        · exact hblank
        · exact h y (List.mem_cons_of_mem x hy) c hc

theorem tight_commaList {items : List (List Char)} (h : ∀ x ∈ items, x ≠ [] ∧ Tight x) :
    Tight (commaList items) := by
  cases items with
  | nil => exact ⟨nofun, nofun⟩
  | cons x items =>
    rw [commaList_cons]
    refine (h x List.mem_cons_self).2.append (.flatMap fun y hy => ?_)
    obtain ⟨hne, hy⟩ := h y (List.mem_cons_of_mem x hy)
    exact hy.enclose (s := [' ']) (by decide) hne

theorem ofList_commaList (items : List String) :
    String.ofList (commaList (items.map String.toList)) = ", ".intercalate items := by
  rw [← String.toList_inj, String.toList_ofList, String.toList_intercalate]
  rfl

theorem toList_intercalate_cons (x : String) (items : List String) :
    (", ".intercalate (x :: items)).toList =
      x.toList ++ items.flatMap fun y => ',' :: ' ' :: y.toList := by
  have hlist := commaList_cons x.toList (items.map String.toList)
  rw [List.flatMap_map] at hlist
  rw [String.toList_intercalate]
  exact hlist

/-- Items in parentheses. -/
def inParens (items : List String) : String :=
  "(" ++ ", ".intercalate items ++ ")"

theorem toList_inParens (items : List String) :
    (inParens items).toList = '(' :: (commaList (items.map String.toList) ++ [')']) := by
  unfold inParens
  rw [String.toList_append, String.toList_append, String.toList_intercalate]
  rfl

/-- A way of cutting at commas takes a text for one part. -/
def IsPart (split : List Char → List (List Char)) (x : List Char) : Prop :=
  split x = [x] ∧ ∀ t, split (x ++ ',' :: t) = x :: split t

/-- A list is cut into its items, all but the first with a blank in front. -/
theorem split_commaList {split : List Char → List (List Char)} {x : List Char}
    {items : List (List Char)} (hx : IsPart split x) (h : ∀ y ∈ items, IsPart split (' ' :: y)) :
    split (commaList (x :: items)) = x :: items.map (' ' :: ·) := by
  rw [commaList_cons]
  induction items generalizing x with
  | nil =>
    rw [List.flatMap_nil, List.append_nil]
    exact hx.1
  | cons y items ih =>
    have hlater := ih (h y List.mem_cons_self) fun z hz => h z (List.mem_cons_of_mem y hz)
    rw [List.flatMap_cons, List.cons_append, hx.2, hlater]
    rfl

/-- Where a blank in front of an item does not count, the parts stand for the items. -/
theorem map_split_commaList {α : Type} {split : List Char → List (List Char)} {f : List Char → α}
    (hf : ∀ s, f (' ' :: s) = f s) {items : List (List Char)} (hne : items ≠ [])
    (h : ∀ x ∈ items, IsPart split x ∧ IsPart split (' ' :: x)) :
    (split (commaList items)).map f = items.map f := by
  cases items with
  | nil => exact absurd rfl hne
  | cons x items =>
    rw [split_commaList (h x List.mem_cons_self).1 fun y hy => (h y (List.mem_cons_of_mem x hy)).2]
    simp [hf]

theorem isPart_splitOutside {x : List Char} (hx : Closed x) (h : ',' ∉ Scan.outside.bare x) :
    IsPart (splitOutside ',') x :=
  ⟨splitOutside_of_not_mem h, splitOutside_append_separator hx h (by decide)⟩

theorem splitAll_append {separator : Char} {s : List Char} (h : separator ∉ s) (t : List Char) :
    splitAll separator (s ++ t) = prependHead s (splitAll separator t) := by
  induction s with
  | nil => rfl
  | cons c s ih =>
    obtain ⟨hc, hs⟩ := not_or.1 (mt List.mem_cons.2 h)
    rw [List.cons_append, splitAll, if_neg (Ne.symm hc), ih hs]
    rfl

theorem isPart_splitAll {x : List Char} (h : ',' ∉ x) : IsPart (splitAll ',') x := by
  constructor
  · have hsplit := splitAll_append h []
    rw [List.append_nil] at hsplit
    rw [hsplit, splitAll, prependHead_cons, List.append_nil]
  · intro t
    rw [splitAll_append h, splitAll, if_pos rfl, prependHead_cons, List.append_nil]

/-- **The names of a column list are the names that were written.** -/
theorem columnNames_intercalate {columns : List String} (hne : columns ≠ [])
    (h : ∀ c ∈ columns, Tight c.toList ∧ ',' ∉ c.toList) :
    Request.columnNames (", ".intercalate columns) = columns := by
  have hparts : ∀ x ∈ columns.map String.toList,
      IsPart (splitAll ',') x ∧ IsPart (splitAll ',') (' ' :: x) := by
    intro x hx
    obtain ⟨c, hc, rfl⟩ := List.mem_map.1 hx
    refine ⟨isPart_splitAll (h c hc).2, isPart_splitAll fun hmem => ?_⟩
    exact (h c hc).2 (List.mem_of_ne_of_mem (by decide) hmem)
  have hnames : ∀ c ∈ columns, (fun s => String.ofList (trim s)) c.toList = c := by
    intro c hc
    dsimp only
    rw [(h c hc).1.trim_eq, String.ofList_toList]
  have hsplit := map_split_commaList (f := fun s => String.ofList (trim s))
    (fun s => by rw [trim_cons_of_isBlank (by decide)]) (by simpa using hne) hparts
  unfold Request.columnNames
  rw [String.toList_intercalate]
  refine hsplit.trans ?_
  rw [List.map_map]
  exact (List.map_congr_left hnames).trans (List.map_id columns)

/-! ### Lists of literals -/

theorem stripParens_of_head?_ne {s : List Char} (hs : Tight s) (h : s.head? ≠ some '(') :
    stripParens s = s := by
  unfold stripParens
  rw [hs.trim_eq]
  exact if_neg fun hparens => h hparens.1

/-- One pair of parentheses around a text is taken off. -/
theorem stripParens_parens (s : List Char) : stripParens ('(' :: (s ++ [')'])) = s := by
  have hparen : Tight [')'] := .of_forall (by decide)
  unfold stripParens
  rw [(hparen.enclose (by decide) (List.cons_ne_nil _ _)).trim_eq]
  simp [dropEnds]

/-- A text is a literal of a value. -/
def Writes (value : String) (text : List Char) : Prop :=
  ∃ quote, isQuote quote = true ∧ text = literal quote value.toList

/-- A text is a list of literals of values. -/
def WritesList (values : List String) (text : List Char) : Prop :=
  values ≠ [] ∧ ∃ items, List.Forall₂ Writes values items ∧ text = commaList items

namespace Writes

variable {value : String} {text : List Char}

theorem closed (h : Writes value text) : Closed text := by
  obtain ⟨quote, hquote, rfl⟩ := h
  exact closed_literal _ hquote

theorem bare_eq (h : Writes value text) : Scan.outside.bare text = [] := by
  obtain ⟨quote, hquote, rfl⟩ := h
  exact bare_literal _ hquote

theorem tight (h : Writes value text) : Tight text := by
  obtain ⟨quote, hquote, rfl⟩ := h
  exact tight_literal _ hquote

theorem ne_nil (h : Writes value text) : text ≠ [] := by
  obtain ⟨quote, -, rfl⟩ := h
  exact literal_ne_nil _

theorem head?_ne (h : Writes value text) {c : Char} (hc : isQuote c = false) :
    text.head? ≠ some c := by
  obtain ⟨quote, hquote, rfl⟩ := h
  rintro ⟨⟩
  rw [hquote] at hc
  exact Bool.noConfusion hc

theorem value_eq (h : Writes value text) : Request.value text = value := by
  obtain ⟨quote, hquote, rfl⟩ := h
  unfold Request.value
  rw [clean_literal _ hquote, String.ofList_toList]

theorem isPart (h : Writes value text) :
    IsPart (splitOutside ',') text ∧ IsPart (splitOutside ',') (' ' :: text) := by
  have hbare : ∀ c ∈ Scan.outside.bare (' ' :: text), c = ' ' := by
    intro c hc
    change c ∈ ' ' :: Scan.outside.bare text at hc
    rw [h.bare_eq] at hc
    exact List.mem_singleton.1 hc
  have hclosed : Closed (' ' :: text) := by
    change Scan.outside.run text = .outside
    exact h.closed
  constructor
  · exact isPart_splitOutside h.closed (by simp [h.bare_eq])
  · exact isPart_splitOutside hclosed fun hmem => absurd (hbare ',' hmem) (by decide)

/-- A list of one value needs no parentheses. -/
theorem listedValues_eq (h : Writes value text) :
    Request.listedValues (String.ofList text) = [value] := by
  have hstrip := stripParens_of_head?_ne h.tight (h.head?_ne (by decide))
  unfold Request.listedValues
  rw [String.toList_ofList, hstrip, h.isPart.1.1, List.map_singleton, h.value_eq]

end Writes

theorem value_blank_cons (s : List Char) : Request.value (' ' :: s) = Request.value s := by
  unfold Request.value clean
  rw [trim_cons_of_isBlank (by decide)]

theorem map_value_of_writes {values : List String} {items : List (List Char)}
    (h : List.Forall₂ Writes values items) : items.map Request.value = values := by
  induction h with
  | nil => rfl
  | cons hx _ ih => rw [List.map_cons, hx.value_eq, ih]

theorem exists_writes_of_mem {values : List String} {items : List (List Char)}
    (h : List.Forall₂ Writes values items) : ∀ x ∈ items, ∃ v, Writes v x := by
  induction h with
  | nil => nofun
  | cons hx _ ih =>
    intro x hmem
    rcases List.mem_cons.1 hmem with rfl | hmem
    · exact ⟨_, hx⟩
    · exact ih x hmem

namespace WritesList

variable {values : List String} {text : List Char}

/-- A list of literals as its first literal and, after commas, the others. -/
theorem exists_cons (h : WritesList values text) :
    ∃ x items, (∀ y ∈ x :: items, ∃ v, Writes v y) ∧
      text = x ++ items.flatMap (',' :: ' ' :: ·) := by
  obtain ⟨hne, items, hitems, rfl⟩ := h
  cases hitems with
  | nil => exact absurd rfl hne
  | cons hx hrest =>
    exact ⟨_, _, exists_writes_of_mem (.cons hx hrest), commaList_cons _ _⟩

/-- **Outside its literals a list of literals holds nothing but commas and blanks**, and it leaves
no literal open. -/
theorem closed_and_bare (h : WritesList values text) :
    Closed text ∧ ∀ c ∈ Scan.outside.bare text, c = ',' ∨ c = ' ' := by
  obtain ⟨x, items, hitems, rfl⟩ := h.exists_cons
  have htail : ∀ items : List (List Char), (∀ y ∈ items, ∃ v, Writes v y) →
      Closed (items.flatMap (',' :: ' ' :: ·)) ∧
        ∀ c ∈ Scan.outside.bare (items.flatMap (',' :: ' ' :: ·)), c = ',' ∨ c = ' ' := by
    intro items
    induction items with
    | nil => exact fun _ => ⟨rfl, nofun⟩
    | cons y items ih =>
      intro hall
      obtain ⟨v, hy⟩ := hall y List.mem_cons_self
      obtain ⟨hclosed, hbare⟩ := ih fun z hz => hall z (List.mem_cons_of_mem y hz)
      have hfirst : Closed (',' :: ' ' :: y) := hy.closed
      rw [List.flatMap_cons]
      refine ⟨hfirst.append hclosed, fun c hc => ?_⟩
      rw [hfirst.bare_append] at hc
      rcases List.mem_append.1 hc with hc | hc
      · have hy' : Scan.outside.bare (',' :: ' ' :: y) = [',', ' '] := by
          change ',' :: ' ' :: Scan.outside.bare y = _
          rw [hy.bare_eq]
        simpa [hy'] using hc
      · exact hbare c hc
  obtain ⟨v, hx⟩ := hitems x List.mem_cons_self
  obtain ⟨hclosed, hbare⟩ := htail items fun y hy => hitems y (List.mem_cons_of_mem x hy)
  refine ⟨hx.closed.append hclosed, fun c hc => hbare c ?_⟩
  rw [hx.closed.bare_append, hx.bare_eq, List.nil_append] at hc
  exact hc

theorem tight (h : WritesList values text) : Tight text := by
  obtain ⟨-, items, hitems, rfl⟩ := h
  refine tight_commaList fun x hx => ?_
  obtain ⟨v, hv⟩ := exists_writes_of_mem hitems x hx
  exact ⟨hv.ne_nil, hv.tight⟩

theorem head?_ne (h : WritesList values text) {c : Char} (hc : isQuote c = false) :
    text.head? ≠ some c := by
  obtain ⟨x, items, hitems, rfl⟩ := h.exists_cons
  obtain ⟨v, hx⟩ := hitems x List.mem_cons_self
  rw [List.head?_append_of_ne_nil _ hx.ne_nil]
  exact hx.head?_ne hc

theorem map_split {α : Type} {f : List Char → α} (hf : ∀ s, f (' ' :: s) = f s)
    (h : WritesList values text) :
    ∃ items, List.Forall₂ Writes values items ∧ (splitOutside ',' text).map f = items.map f := by
  obtain ⟨hne, items, hitems, rfl⟩ := h
  refine ⟨items, hitems, map_split_commaList hf ?_ fun x hx => ?_⟩
  · rintro rfl
    exact hne (List.forall₂_nil_right_iff.1 hitems)
  · obtain ⟨v, hv⟩ := exists_writes_of_mem hitems x hx
    exact hv.isPart

/-- The parts between the commas of a list of literals have the values that were written. -/
theorem map_value_split (h : WritesList values text) :
    (splitOutside ',' text).map Request.value = values := by
  obtain ⟨items, hitems, hmap⟩ := h.map_split value_blank_cons
  rw [hmap, map_value_of_writes hitems]

theorem trim_ne_nil_of_mem_split (h : WritesList values text) :
    ∀ x ∈ splitOutside ',' text, trim x ≠ [] := by
  intro x hx
  obtain ⟨items, hitems, hmap⟩ := h.map_split (trim_cons_of_isBlank (by decide))
  have hmem := List.mem_map_of_mem (f := trim) hx
  rw [hmap] at hmem
  obtain ⟨y, hy, hyx⟩ := List.mem_map.1 hmem
  obtain ⟨v, hv⟩ := exists_writes_of_mem hitems y hy
  rw [← hyx, hv.tight.trim_eq]
  exact hv.ne_nil

/-- **The values of an insertion are the values that were written**, as soon as nothing but the list
is left when parentheses around it are taken off. -/
theorem insertedValues_of_strip (h : WritesList values text) {raw : String}
    (hstrip : stripParens raw.toList = text) : Request.insertedValues raw = values := by
  unfold Request.insertedValues
  rw [hstrip, List.filter_eq_self.2 fun x hx => ?_, h.map_value_split]
  exact decide_eq_true (h.trim_ne_nil_of_mem_split x hx)

theorem insertedValues_eq (h : WritesList values text) :
    Request.insertedValues (String.ofList text) = values := by
  refine h.insertedValues_of_strip ?_
  rw [String.toList_ofList]
  exact stripParens_of_head?_ne h.tight (h.head?_ne (by decide))

/-- **The values of a list in parentheses are the values that were written.** -/
theorem listedValues_eq (h : WritesList values text) :
    Request.listedValues (String.ofList ('(' :: (text ++ [')']))) = values := by
  unfold Request.listedValues
  rw [String.toList_ofList, stripParens_parens, h.map_value_split]

/-- **A list of literals is read as a group when it is put in parentheses.** -/
theorem group?_append (h : WritesList values text) (rest : List Char) :
    group? ('(' :: (text ++ ')' :: rest)) = some ('(' :: (text ++ [')']), rest) := by
  obtain ⟨hclosed, hbare⟩ := h.closed_and_bare
  refine Text.group?_append hclosed (fun hmem => ?_) (fun hmem => ?_) rest
  · exact absurd (hbare '(' hmem) (by decide)
  · exact absurd (hbare ')' hmem) (by decide)

end WritesList

/-- The literal of a value between single quotes. -/
def quoted (value : String) : String :=
  String.ofList (literal '\'' value.toList)

theorem writes_quoted (value : String) : Writes value (quoted value).toList :=
  ⟨'\'', by decide, String.toList_ofList⟩

theorem writesList_quoted {values : List String} (hne : values ≠ []) :
    WritesList values (commaList ((values.map quoted).map String.toList)) := by
  refine ⟨hne, _, ?_, rfl⟩
  rw [List.map_map, List.forall₂_map_right_iff]
  exact List.forall₂_same.2 fun v _ => writes_quoted v

end Tabular.Text
