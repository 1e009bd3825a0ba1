import Tabular.Column
import Tabular.Row

/-!
What the name of a column means.

A name is found by one of three rules, each of which counts only where those before it find nothing
(`FoundBy`), and it means what they find and nothing else (`resolve?_eq_some_iff`). So the order of
the columns plays no part (`resolve?_perm`), and a rule goes on finding its column when others are
added, unless an earlier rule finds one of these or, for the last rule, the column is no longer the
only one. Main statement: `resolve?_stable`.
-/

namespace Tabular.Column

/-- The rules by which a name is found. -/
inductive Rule where
  /-- A column has exactly this name. -/
  | exact
  /-- The name is that of a column, qualified by the base table. -/
  | unqualified
  /-- A single column is called by this name, qualified by some table. -/
  | joined

/-- A column has a name behind the qualifier of a table. -/
def Qualifies (name column : String) : Prop :=
  ∃ table, column = Row.qualifiedName table name

/-- The column that a name means, and the rule that finds it. -/
inductive FoundBy (columns : List String) (base name : String) : Rule → String → Prop where
  | exact (mem : name ∈ columns) : FoundBy columns base name .exact name
  | unqualified {column : String} (not_exact : name ∉ columns)
      (qualified : name = Row.qualifiedName base column) (mem : column ∈ columns) :
      FoundBy columns base name .unqualified column
  | joined {column : String} {before after : List String} (not_exact : name ∉ columns)
      (not_unqualified : ∀ c, name = Row.qualifiedName base c → c ∉ columns)
      (mem : columns = before ++ column :: after) (qualifies : Qualifies name column)
      (alone : ∀ c ∈ before ++ after, ¬Qualifies name c) :
      FoundBy columns base name .joined column

variable {columns others : List String} {base name c : String}

/-! ### The three rules -/

theorem unqualified?_eq_some_iff :
    unqualified? base name = some c ↔ name = Row.qualifiedName base c := by
  have hname : name = Row.qualifiedName base c ↔
      name.toList = (base ++ ".").toList ++ c.toList := by
    rw [← String.toList_inj, Row.qualifiedName, String.toList_append]
  unfold unqualified?
  dsimp only
  rw [hname]
  split
  · next hstarts =>
    obtain ⟨rest, hrest⟩ := List.isPrefixOf_iff_prefix.1 hstarts
    rw [← hrest, List.drop_left, Option.some.injEq, List.append_cancel_left_eq,
      ← String.toList_inj, String.toList_ofList]
  · next hstarts =>
    refine ⟨nofun, fun heq => absurd ?_ hstarts⟩
    exact List.isPrefixOf_iff_prefix.2 ⟨_, heq.symm⟩

theorem endsIn_iff : endsIn name c = true ↔ Qualifies name c := by
  have hcolumn : ∀ table : String, c = Row.qualifiedName table name ↔
      table.toList ++ ("." ++ name).toList = c.toList := by
    intro table
    rw [Row.qualifiedName, ← String.toList_append, String.toList_inj, String.append_assoc, eq_comm]
  unfold endsIn Qualifies
  rw [List.isSuffixOf_iff_suffix]
  constructor
  · rintro ⟨t, ht⟩
    exact ⟨String.ofList t, (hcolumn _).2 (by rw [String.toList_ofList, ht])⟩
  · rintro ⟨table, h⟩
    exact ⟨table.toList, (hcolumn table).1 h⟩

theorem joined?_eq_some_iff :
    joined? columns name = some c ↔ columns.filter (endsIn name) = [c] := by
  unfold joined?
  split
  · next d hd => rw [hd, Option.some.injEq, List.singleton_inj]
  · next hnot => exact ⟨nofun, fun h => absurd h (hnot c)⟩

theorem filter_endsIn_eq_iff :
    columns.filter (endsIn name) = [c] ↔ ∃ before after, columns = before ++ c :: after ∧
      Qualifies name c ∧ ∀ d ∈ before ++ after, ¬Qualifies name d := by
  rw [List.filter_eq_cons_iff]
  simp only [endsIn_iff, List.filter_eq_nil_iff, List.forall_mem_append]
  constructor
  · rintro ⟨before, after, hcolumns, hbefore, hc, hafter⟩
    exact ⟨before, after, hcolumns, hc, hbefore, hafter⟩
  · rintro ⟨before, after, hcolumns, hc, hbefore, hafter⟩
    exact ⟨before, after, hcolumns, hbefore, hc, hafter⟩

theorem foundBy_joined_iff :
    FoundBy columns base name .joined c ↔ name ∉ columns ∧
      (∀ d, name = Row.qualifiedName base d → d ∉ columns) ∧
        columns.filter (endsIn name) = [c] := by
  rw [filter_endsIn_eq_iff]
  constructor
  · intro h
    cases h with
    | joined hexact hnot hcolumns hqualifies halone =>
      exact ⟨hexact, hnot, _, _, hcolumns, hqualifies, halone⟩
  · rintro ⟨hexact, hnot, _, _, hcolumns, hqualifies, halone⟩
    exact .joined hexact hnot hcolumns hqualifies halone

/-- **A name means what one of the three rules finds.** -/
theorem resolve?_eq_some_iff :
    resolve? columns base name = some c ↔ ∃ rule, FoundBy columns base name rule c := by
  unfold resolve?
  by_cases hexact : name ∈ columns
  · rw [if_pos hexact, Option.some.injEq]
    constructor
    · rintro rfl
      exact ⟨_, .exact hexact⟩
    · rintro ⟨rule, hfound⟩
      cases hfound with
      | exact => rfl
      | unqualified hnot => exact absurd hexact hnot
      | joined hnot => exact absurd hexact hnot
  rw [if_neg hexact]
  cases hbare : (unqualified? base name).filter (· ∈ columns) with
  | some d =>
    obtain ⟨hname, hmem⟩ := Option.filter_eq_some_iff.1 hbare
    have hqualified := unqualified?_eq_some_iff.1 hname
    dsimp only
    rw [Option.some.injEq]
    constructor
    · rintro rfl
      exact ⟨_, .unqualified hexact hqualified (of_decide_eq_true hmem)⟩
    · rintro ⟨rule, hfound⟩
      cases hfound with
      | exact hmem => exact absurd hmem hexact
      | unqualified _ hother =>
        exact Option.some.inj (hname.symm.trans (unqualified?_eq_some_iff.2 hother))
      | joined _ hnot => exact absurd (of_decide_eq_true hmem) (hnot d hqualified)
  | none =>
    have hnot : ∀ d, name = Row.qualifiedName base d → d ∉ columns := by
      intro d hd hmem
      rw [unqualified?_eq_some_iff.2 hd] at hbare
      simp [Option.filter, hmem] at hbare
    dsimp only
    rw [joined?_eq_some_iff]
    constructor
    · exact fun hfilter => ⟨_, foundBy_joined_iff.2 ⟨hexact, hnot, hfilter⟩⟩
    · rintro ⟨rule, hfound⟩
      cases rule with
      | exact => cases hfound with | exact hmem => exact absurd hmem hexact
      | unqualified => cases hfound with
        | unqualified _ hqualified hmem => exact absurd hmem (hnot c hqualified)
      | joined => exact (foundBy_joined_iff.1 hfound).2.2

theorem FoundBy.resolve?_eq {rule : Rule} (h : FoundBy columns base name rule c) :
    resolve? columns base name = some c :=
  resolve?_eq_some_iff.2 ⟨rule, h⟩

/-- A column goes by its own name. -/
theorem resolve?_of_mem (h : name ∈ columns) (base : String) :
    resolve? columns base name = some name :=
  (FoundBy.exact h).resolve?_eq

/-- A name means a column that is there. -/
theorem mem_of_resolve? (h : resolve? columns base name = some c) : c ∈ columns := by
  obtain ⟨rule, hfound⟩ := resolve?_eq_some_iff.1 h
  cases hfound with
  | exact hmem => exact hmem
  | unqualified _ _ hmem => exact hmem
  | joined _ _ hcolumns => simp [hcolumns]

/-! ### Other lists of columns -/

theorem length_lt_qualifiedName (table name : String) :
    name.length < (Row.qualifiedName table name).length := by
  unfold Row.qualifiedName
  rw [String.length_append, String.length_append]
  have hdot : ".".length = 1 := rfl
  omega

theorem joined?_perm (h : columns.Perm others) (name : String) :
    joined? others name = joined? columns name := by
  have hfilter := h.filter (endsIn name)
  apply Option.ext
  intro c
  rw [joined?_eq_some_iff, joined?_eq_some_iff]
  constructor
  · intro heq
    exact List.perm_singleton.1 (heq ▸ hfilter)
  · intro heq
    exact List.perm_singleton.1 (heq ▸ hfilter.symm)

/-- **The order of the columns plays no part.** -/
theorem resolve?_perm (h : columns.Perm others) (base name : String) :
    resolve? others base name = resolve? columns base name := by
  unfold resolve?
  rw [joined?_perm h]
  simp only [h.mem_iff]

namespace FoundBy

theorem append_exact (h : FoundBy columns base name .exact c) (more : List String) :
    FoundBy (columns ++ more) base name .exact c := by
  cases h with
  | exact hmem => exact .exact (List.mem_append_left more hmem)

theorem append_unqualified (h : FoundBy columns base name .unqualified c) {more : List String}
    (hmore : name ∉ more) : FoundBy (columns ++ more) base name .unqualified c := by
  cases h with
  | unqualified hnot hqualified hmem =>
    refine .unqualified (fun hname => ?_) hqualified (List.mem_append_left more hmem)
    exact (List.mem_append.1 hname).elim hnot hmore

/-- A column that is found without the qualifier has a shorter name, and one that is found behind
another qualifier has a longer one. -/
theorem length_lt_of_unqualified (h : FoundBy columns base name .unqualified c) :
    c.length < name.length := by
  cases h with
  | unqualified _ hqualified => exact hqualified ▸ length_lt_qualifiedName base c

theorem length_lt_of_joined (h : FoundBy columns base name .joined c) :
    name.length < c.length := by
  cases h with
  | joined _ _ _ hqualifies =>
    obtain ⟨table, rfl⟩ := hqualifies
    exact length_lt_qualifiedName table name

/-- Where a name is found without its qualifier, only the name itself takes over. -/
theorem resolve?_append_ne_iff (h : FoundBy columns base name .unqualified c)
    (more : List String) : resolve? (columns ++ more) base name ≠ some c ↔ name ∈ more := by
  constructor
  · intro hne
    by_cases hmore : name ∈ more
    · exact hmore
    · exact absurd (h.append_unqualified hmore).resolve?_eq hne
  · intro hmore
    rw [resolve?_of_mem (List.mem_append_right columns hmore)]
    rintro ⟨⟩
    exact Nat.lt_irrefl _ h.length_lt_of_unqualified

/-- Where a name is found behind the qualifier of a table, an earlier rule may take over, or a
second such column may leave it without a meaning. -/
theorem resolve?_append_eq_iff (h : FoundBy columns base name .joined c) (more : List String) :
    resolve? (columns ++ more) base name = some c ↔ name ∉ more ∧
      (∀ d, name = Row.qualifiedName base d → d ∉ more) ∧ ∀ d ∈ more, ¬Qualifies name d := by
  have hlong := h.length_lt_of_joined
  have hrule : resolve? (columns ++ more) base name = some c ↔
      FoundBy (columns ++ more) base name .joined c := by
    refine ⟨fun heq => ?_, resolve?_eq⟩
    obtain ⟨rule, hfound⟩ := resolve?_eq_some_iff.1 heq
    cases rule with
    | exact => cases hfound with | exact => exact absurd hlong (Nat.lt_irrefl _)
    | unqualified => exact absurd hlong (Nat.lt_asymm hfound.length_lt_of_unqualified)
    | joined => exact hfound
  obtain ⟨hexact, hnot, hfilter⟩ := foundBy_joined_iff.1 h
  rw [hrule, foundBy_joined_iff, List.filter_append, hfilter, List.singleton_append,
    List.cons_eq_cons, List.filter_eq_nil_iff]
  simp only [List.mem_append, not_or, hexact, not_false_eq_true, true_and, endsIn_iff]
  refine and_congr_right fun _ => and_congr_left fun _ => forall₂_congr fun d hd => ?_
  exact and_iff_right (hnot d hd)

end FoundBy

/-- **The meaning of a name is stable.** The name means what one of the three rules finds: a column
that is there, the same one in whatever order the columns stand, and the column of exactly this name
if there is one. Further columns never change what was found by the exact name; they change what was
found without the qualifier of the base table only if the name itself is among them, and what was
found behind another qualifier only if one of them has the name, with or without a qualifier. -/
theorem resolve?_stable (columns : List String) (base name : String) :
    (∀ c, resolve? columns base name = some c ↔ ∃ rule, FoundBy columns base name rule c) ∧
      (∀ c, resolve? columns base name = some c → c ∈ columns) ∧
      (∀ others, columns.Perm others → resolve? others base name = resolve? columns base name) ∧
      (name ∈ columns → resolve? columns base name = some name) ∧
      (∀ c more, FoundBy columns base name .exact c →
        resolve? (columns ++ more) base name = some c) ∧
      (∀ c more, FoundBy columns base name .unqualified c →
        (resolve? (columns ++ more) base name ≠ some c ↔ name ∈ more)) ∧
      ∀ c more, FoundBy columns base name .joined c →
        (resolve? (columns ++ more) base name = some c ↔ name ∉ more ∧
          (∀ d, name = Row.qualifiedName base d → d ∉ more) ∧ ∀ d ∈ more, ¬Qualifies name d) :=
  ⟨fun _ => resolve?_eq_some_iff, fun _ => mem_of_resolve?, fun _ h => resolve?_perm h base name,
    fun h => resolve?_of_mem h base, fun _ more h => (h.append_exact more).resolve?_eq,
    fun _ more h => h.resolve?_append_ne_iff more, fun _ more h => h.resolve?_append_eq_iff more⟩

/-- A qualified name keeps its meaning when another table is joined and loses it to a column of
exactly that name; a plain name that a joined column has loses it to a second such column. -/
theorem resolve?_stable_of_added_columns :
    resolve? ["id", "orders.user"] "users" "users.id" = some "id" ∧
      resolve? (["id", "orders.user"] ++ ["orders.id"]) "users" "users.id" = some "id" ∧
      resolve? (["id", "orders.user"] ++ ["users.id"]) "users" "users.id" ≠ some "id" ∧
      resolve? (["id", "orders.user"] ++ ["orders.id"]) "users" "id" = some "id" ∧
      resolve? ["orders.user", "id"] "users" "user" = some "orders.user" ∧
      resolve? (["id", "orders.user"] ++ ["items.user"]) "users" "user" ≠ some "orders.user" := by
  obtain ⟨hmeans, -, -, -, -, hkey, -⟩ := resolve?_stable ["id", "orders.user"] "users" "users.id"
  obtain ⟨-, -, -, -, hexact, -⟩ := resolve?_stable ["id", "orders.user"] "users" "id"
  obtain ⟨huser, -, horder, -, -, -, hjoined⟩ :=
    resolve?_stable ["id", "orders.user"] "users" "user"
  have hid : FoundBy ["id", "orders.user"] "users" "users.id" .unqualified "id" :=
    .unqualified (by decide) rfl (by decide)
  have hplain : unqualified? "users" "user" = none := by decide
  have horders : FoundBy ["id", "orders.user"] "users" "user" .joined "orders.user" :=
    foundBy_joined_iff.2 ⟨by decide,
      fun d hd => (nomatch hplain.symm.trans (unqualified?_eq_some_iff.2 hd)), by decide⟩
  refine ⟨(hmeans "id").2 ⟨_, hid⟩, ?_, (hkey _ _ hid).2 (by decide),
    hexact _ _ (.exact (by decide)), ?_, fun heq => ?_⟩
  · exact Decidable.not_not.1 (mt (hkey _ _ hid).1 (by decide))
  · rw [horder _ (by decide)]
    exact (huser _).2 ⟨_, horders⟩
  · exact ((hjoined _ _ horders).1 heq).2.2 "items.user" (by decide) ⟨"items", rfl⟩

end Tabular.Column
