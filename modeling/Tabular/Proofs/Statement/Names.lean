import Tabular.Statement.Parse

/-!
The names of databases and tables in statements.

The name of a database is read as a run of word characters and hyphens, that of a new table as a run
of word characters. Main statements: whatever database a statement names, its name is such a run and
not empty (`databaseName_of_parse`), and so is the name of a table that it creates
(`tableName_of_parse`). So no name of a database has a slash in it (`no_slash_of_parse`), and each
is one step of a path.
-/

namespace Tabular

/-! ### What a reader finds -/

/-- Whatever a reader finds has a property. -/
def Reader.Yields {α : Type} (p : Reader α) (P : α → Prop) : Prop :=
  ∀ s a rest, p s = .found a rest → P a

namespace Reader.Yields

variable {α β : Type} {p : Reader α} {P : α → Prop} {Q : β → Prop}

protected theorem pure {a : α} (h : P a) : Reader.Yields (pure a) P := by
  intro s b rest hb
  rw [Reader.pure_apply, Reading.found.injEq] at hb
  exact hb.1 ▸ h

protected theorem bind {k : α → Reader β} (hp : p.Yields P) (hk : ∀ a, P a → (k a).Yields Q) :
    Reader.Yields (p >>= k) Q := by
  intro s b rest hb
  rw [Reader.bind_apply] at hb
  cases ha : p s with
  | found a rest' =>
    rw [ha] at hb
    exact hk a (hp s a rest' ha) rest' b rest hb
  | stuck rest' => simp [ha] at hb
  | broken => simp [ha] at hb

/-- What the first reader finds does not matter. -/
theorem bind_any {k : α → Reader β} (hk : ∀ a, (k a).Yields Q) : Reader.Yields (p >>= k) Q :=
  Reader.Yields.bind (P := fun _ => True) (fun _ _ _ _ => trivial) fun a _ => hk a

protected theorem optional (hp : p.Yields P) :
    (Reader.optional p).Yields fun a? => ∀ a, a? = some a → P a := by
  rintro s a? rest ha a rfl
  unfold Reader.optional at ha
  cases h : p s with
  | found b rest' =>
    simp only [h, Reading.found.injEq, Option.some.injEq] at ha
    exact ha.1 ▸ hp s b rest' h
  | stuck rest' => simp [h] at ha
  | broken => simp [h] at ha

end Reader.Yields

/-- A name as databases have them: not empty, and of word characters and hyphens alone. -/
structure DatabaseName (name : String) : Prop where
  ne_empty : name ≠ ""
  chars : ∀ c ∈ name.toList, Text.isWordChar c = true ∨ c = '-'

theorem DatabaseName.not_mem {name : String} (h : DatabaseName name) {c : Char}
    (word : Text.isWordChar c = false) (hyphen : c ≠ '-') : c ∉ name.toList := by
  intro hc
  obtain h' | h' := h.chars c hc
  · rw [word] at h'
    exact nomatch h'
  · exact hyphen h'

/-- A name as tables have them: not empty, and of word characters alone. -/
structure TableName (name : String) : Prop where
  ne_empty : name ≠ ""
  chars : ∀ c ∈ name.toList, Text.isWordChar c = true

theorem TableName.not_mem {name : String} (h : TableName name) {c : Char}
    (word : Text.isWordChar c = false) : c ∉ name.toList := by
  intro hc
  rw [h.chars c hc] at word
  exact nomatch word

namespace Statement

/-- A statement names a database. -/
inductive Names : Statement → String → Prop where
  | init (name : String) : Names (.init name) name
  | create (name : String) (parameters : Option String) :
      Names (.create .database name parameters) name
  | describe (name : String) : Names (.describe .database (some name)) name
  | drop (name : String) : Names (.drop .database (some name)) name

/-- The databases that a statement names have no slash in their names. -/
def NoSlash (st : Statement) : Prop :=
  ∀ name, st.Names name → '/' ∉ name.toList

/-- The databases that a statement names have names as databases have them. -/
def WellNamed (st : Statement) : Prop :=
  ∀ name, st.Names name → DatabaseName name

/-- The databases that a statement names and the table that it creates have names as they should. -/
structure Named (st : Statement) : Prop where
  databases : st.WellNamed
  created : ∀ name parameters, st = .create .table name parameters → TableName name

theorem named_of_not_names {st : Statement} (h : ∀ name, ¬st.Names name)
    (h' : ∀ name parameters, st ≠ .create .table name parameters) : st.Named where
  databases := fun name hn => absurd hn (h name)
  created := fun name parameters hst => absurd hst (h' name parameters)

theorem WellNamed.noSlash {st : Statement} (h : st.WellNamed) : st.NoSlash :=
  fun name hn => (h name hn).not_mem (by decide +kernel) (by decide)

end Statement

namespace Grammar

open Statement

theorem yields_takeWhile1 (f : Char → Bool) :
    (Reader.takeWhile1 f).Yields fun run => run ≠ [] ∧ ∀ c ∈ run, f c = true := by
  intro s run rest h
  unfold Reader.takeWhile1 at h
  split at h
  · simp at h
  · next hne =>
    obtain ⟨rfl, -⟩ := Reading.found.inj h
    exact ⟨hne, fun c hc => List.all_eq_true.1 (List.all_takeWhile) c hc⟩

theorem yields_word : Token.word.Yields TableName := by
  refine (yields_takeWhile1 _).bind fun run ⟨hne, hrun⟩ => .pure ⟨fun hempty => hne ?_, ?_⟩
  · exact String.ofList_eq_empty_iff.1 hempty
  · intro c hc
    rw [String.toList_ofList] at hc
    exact hrun c hc

theorem yields_databaseName : Token.databaseName.Yields DatabaseName := by
  refine (yields_takeWhile1 _).bind fun run ⟨hne, hrun⟩ => .pure ⟨fun hempty => hne ?_, ?_⟩
  · exact String.ofList_eq_empty_iff.1 hempty
  · intro c hc
    rw [String.toList_ofList] at hc
    simpa using hrun c hc

theorem yields_init : init.Yields Named := by
  refine .bind_any fun _ => .bind_any fun _ => yields_databaseName.bind fun name hname =>
    .pure ⟨?_, by simp⟩
  rintro _ ⟨⟩
  exact hname

/-- The name of an element, as databases or as tables have them. -/
theorem yields_elementName (kind : ElementKind) :
    (Token.elementName kind).Yields fun name =>
      (kind = .database → DatabaseName name) ∧ (kind = .table → TableName name) := by
  cases kind with
  | database =>
    intro s name rest h
    exact ⟨fun _ => yields_databaseName s name rest h, by simp⟩
  | table =>
    intro s name rest h
    exact ⟨by simp, fun _ => yields_word s name rest h⟩

theorem yields_create : create.Yields Named := by
  refine .bind_any fun _ => .bind_any fun _ => .bind_any fun kind => .bind_any fun _ =>
    (yields_elementName kind).bind fun name hname => .bind_any fun params => .pure ⟨?_, ?_⟩
  · rintro _ ⟨⟩
    exact hname.1 rfl
  · rintro _ _ ⟨⟩
    exact hname.2 rfl

theorem yields_element : element.Yields fun e =>
    e.1 = .database → ∀ name, e.2 = some name → DatabaseName name := by
  refine .bind_any fun kind =>
    (Reader.Yields.optional (.bind_any fun _ => yields_elementName kind)).bind fun name? h =>
      .pure fun hkind name hname => (h name hname).1 hkind

theorem yields_describe : describe.Yields Named := by
  refine .bind_any fun _ => .bind_any fun _ => yields_element.bind fun e he =>
    .pure ⟨?_, by simp⟩
  intro name hn
  obtain ⟨kind, name?⟩ := e
  cases hn
  exact he rfl name rfl

theorem yields_drop : drop.Yields Named := by
  refine .bind_any fun _ => .bind_any fun _ => yields_element.bind fun e he =>
    .pure ⟨?_, by simp⟩
  intro name hn
  obtain ⟨kind, name?⟩ := e
  cases hn
  exact he rfl name rfl

theorem yields_ofVerb (verb : Verb) : (ofVerb verb).Yields Named := by
  cases verb with
  | init => exact yields_init
  | create => exact yields_create
  | describe => exact yields_describe
  | drop => exact yields_drop
  | «show» =>
    refine .bind_any fun _ => .bind_any fun _ => .bind_any fun _ => .pure ?_
    exact named_of_not_names (fun _ h => nomatch h) (by simp)
  | insert =>
    refine .bind_any fun _ => .bind_any fun _ => .bind_any fun _ => .bind_any fun _ =>
      .bind_any fun _ => .pure ?_
    exact named_of_not_names (fun _ h => nomatch h) (by simp)
  | find =>
    refine .bind_any fun _ => .bind_any fun _ => .bind_any fun _ => .bind_any fun _ =>
      .bind_any fun _ => .bind_any fun _ => .bind_any fun _ => .bind_any fun _ =>
      .bind_any fun _ => .bind_any fun _ => .bind_any fun _ => .bind_any fun _ =>
      .bind_any fun _ => .pure ?_
    exact named_of_not_names (fun _ h => nomatch h) (by simp)
  | delete =>
    refine .bind_any fun _ => .bind_any fun _ => .bind_any fun _ => .bind_any fun _ =>
      .bind_any fun _ => .pure ?_
    exact named_of_not_names (fun _ h => nomatch h) (by simp)
  | update =>
    refine .bind_any fun _ => .bind_any fun _ => .bind_any fun _ => .bind_any fun _ =>
      .bind_any fun _ => .bind_any fun _ => .bind_any fun _ => .bind_any fun _ => .pure ?_
    exact named_of_not_names (fun _ h => nomatch h) (by simp)

end Grammar

/-- Whatever a statement names is named as it should. -/
theorem Statement.named_of_parse {text : String} {st : Statement}
    (h : Statement.parse text = .ok st) : st.Named := by
  unfold Statement.parse at h
  dsimp only at h
  split at h
  · simp at h
  · split at h
    · simp at h
    · next verb _ =>
      unfold Statement.parseAs at h
      split at h
      · next st' rest hfound =>
        obtain rfl := Except.ok.inj h
        exact (Grammar.yields_ofVerb verb).bind
          (fun st hst => .bind_any fun _ => .pure hst) _ _ _ hfound
      · simp at h
      · simp at h

/-- **Whatever database a statement names, its name is as databases have them.** -/
theorem Statement.databaseName_of_parse {text : String} {st : Statement}
    (h : Statement.parse text = .ok st) : st.WellNamed :=
  (named_of_parse h).databases

/-- **Whatever table a statement creates, its name is as tables have them.** -/
theorem Statement.tableName_of_parse {text name : String} {parameters : Option String}
    (h : Statement.parse text = .ok (.create .table name parameters)) : TableName name :=
  (named_of_parse h).created name parameters rfl

/-- So no statement names a database with a slash in its name. -/
theorem Statement.no_slash_of_parse {text : String} {st : Statement}
    (h : Statement.parse text = .ok st) : st.NoSlash :=
  (databaseName_of_parse h).noSlash

end Tabular
