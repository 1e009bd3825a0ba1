import Mathlib.Data.List.Forall2
import Mathlib.Data.List.FinRange
import Tabular.JoinRows
import Tabular.Proofs.Table.Merging

/-!
What a join is.

A joined row has an origin: a left and a right row that agree in the columns of the join, or a row
of one side that agrees with none of the other (`Origin`). A join is the list of all origins that
occur, each once and in their places, written out as rows (`IsJoin`); the cells of a row follow from
its origin alone (`ComesFrom`). Nothing in this description says how rows are looked for.

* `isJoin_unique`: the description leaves no choice.
* `rows_iff_isJoin`: the rows of a join are the ones of the description, with either order of the
  two columns.
-/

namespace Tabular.Join

/-- The two sides of a join. -/
structure Sides where
  left : List Row
  leftColumns : List String
  right : List Row
  rightColumns : List String

/-- Where a joined row comes from, by the positions of rows in the two sides. -/
inductive Origin (s : Sides) where
  | both (l : Fin s.left.length) (r : Fin s.right.length)
  | left (l : Fin s.left.length)
  | right (r : Fin s.right.length)

/-! ### The description -/

section Description

variable (j : Join) (s : Sides)

/-- The columns of the joined rows. -/
def Sides.columns : List String :=
  s.leftColumns ++ j.qualifiedColumns s.rightColumns

/-- Both sides have rows of their columns, and no two columns of the join have one name. -/
structure Sides.Sound : Prop where
  left_columns : ∀ row ∈ s.left, row.HasColumns s.leftColumns
  right_columns : ∀ row ∈ s.right, row.HasColumns s.rightColumns
  nodup : (s.columns j).Nodup

variable {s}

/-- The left row of an origin, if it has one. -/
def Origin.left? : Origin s → Option Row
  | .both l _ => some s.left[l]
  | .left l => some s.left[l]
  | .right _ => none

/-- The right row of an origin, if it has one. -/
def Origin.right? : Origin s → Option Row
  | .both _ r => some s.right[r]
  | .left _ => none
  | .right r => some s.right[r]

/-- The value of a column under an origin: that of the left row, or of the right row under the
qualified name; a row that is missing has none. -/
def Origin.value? (o : Origin s) (column : String) : Option String :=
  if column ∈ s.leftColumns then o.left?.bind (Row.value? · column)
  else (s.rightColumns.find? (Row.qualifiedName j.table · = column)).bind fun c =>
    o.right?.bind (Row.value? · c)

/-- A row of the columns of the join with the values of an origin, null where it has none. -/
structure ComesFrom (o : Origin s) (row : Row) : Prop where
  columns : row.HasColumns (s.columns j)
  values : ∀ c ∈ s.columns j, row.value? c = o.value? j c

/-- The two columns of a join have equal values, neither of them null. -/
def Agree (first second : String) (l : Fin s.left.length) (r : Fin s.right.length) : Prop :=
  ∃ a b, (Origin.both l r).value? j first = some a ∧ (Origin.both l r).value? j second = some b ∧
    Cell.sameValue a b = true

/-- Whether a row of an origin is in the join. -/
def Occurs (first second : String) : Origin s → Prop
  | .both l r => Agree j first second l r
  | .left l => j.kind = .left ∧ ∀ r, ¬Agree j first second l r
  | .right r => j.kind = .right ∧ ∀ l, ¬Agree j first second l r

/-- The place of an origin: by its left row, then by its right row; behind all left rows if it has
none. -/
def Origin.place : Origin s → Nat × Nat
  | .both l r => (l, r)
  | .left l => (l, 0)
  | .right r => (s.left.length, r)

/-- The order of two origins by their places. -/
def Origin.Before (o p : Origin s) : Prop :=
  o.place.1 < p.place.1 ∨ o.place.1 = p.place.1 ∧ o.place.2 < p.place.2

variable (s)

/-- The rows of a join: one for each origin that occurs, in the order of the places. -/
def IsJoin (first second : String) (rows : List Row) : Prop :=
  ∃ origins : List (Origin s), origins.Pairwise Origin.Before ∧
    (∀ o, o ∈ origins ↔ Occurs j first second o) ∧ List.Forall₂ (ComesFrom j) origins rows

end Description

/-! ### The description leaves no choice -/

section Unique

variable {j : Join} {s : Sides}

theorem Origin.Before.asymm {o p : Origin s} (h : o.Before p) : ¬p.Before o := by
  unfold Before at *
  omega

theorem ComesFrom.unique {o : Origin s} {row row' : Row} (h : ComesFrom j o row)
    (h' : ComesFrom j o row') : row = row' :=
  Row.ext_value? h.columns h'.columns fun c hc => (h.values c hc).trans (h'.values c hc).symm

/-- The origins of a join are determined by which of them occur. -/
theorem origins_unique {origins origins' : List (Origin s)}
    (sorted : origins.Pairwise Origin.Before) (sorted' : origins'.Pairwise Origin.Before)
    (hmem : ∀ o, o ∈ origins ↔ o ∈ origins') : origins = origins' := by
  have irrefl : ∀ {o p : Origin s}, o.Before p → o ≠ p := by
    rintro o _ h rfl
    exact h.asymm h
  have hperm : origins.Perm origins' :=
    (List.perm_ext_iff_of_nodup (sorted.imp irrefl) (sorted'.imp irrefl)).2 hmem
  exact hperm.eq_of_pairwise (fun _ _ _ _ h h' => absurd h' h.asymm) sorted sorted'

theorem isJoin_unique {first second : String} {rows rows' : List Row}
    (h : IsJoin j s first second rows) (h' : IsJoin j s first second rows') : rows = rows' := by
  obtain ⟨origins, sorted, hmem, hrows⟩ := h
  obtain ⟨origins', sorted', hmem', hrows'⟩ := h'
  obtain rfl := origins_unique sorted sorted' fun o => (hmem o).trans (hmem' o).symm
  have functional : Relator.RightUnique (ComesFrom j (s := s)) := fun _ _ _ => ComesFrom.unique
  exact List.right_unique_forall₂' functional hrows hrows'

end Unique

/-! ### The rows of origins -/

section Rows

variable {j : Join} {s : Sides}

/-- The row of an origin, put together from its parts. -/
def Origin.row (j : Join) : Origin s → Row
  | .both l r => s.left[l].union (Row.qualify j.table s.right[r])
  | .left l => s.left[l].union (Row.nulls (j.qualifiedColumns s.rightColumns))
  | .right r => (Row.nulls s.leftColumns).union (Row.qualify j.table s.right[r])

/-- A qualified name is the name of one column. -/
theorem find?_qualifiedName (table : String) {columns : List String} {c : String}
    (hc : c ∈ columns) :
    columns.find? (Row.qualifiedName table · = Row.qualifiedName table c) = some c := by
  cases hfind : columns.find? (Row.qualifiedName table · = Row.qualifiedName table c) with
  | none => simpa using List.find?_eq_none.1 hfind c hc
  | some d =>
    have hd : Row.qualifiedName table d = Row.qualifiedName table c := by
      simpa using List.find?_some hfind
    rw [Row.qualifiedName_injective table hd]

/-- A union of two parts comes from an origin whose rows have the values of the parts. -/
theorem comesFrom_union (sound : s.Sound j) {o : Origin s} {left right : Row}
    (hl : left.HasColumns s.leftColumns)
    (hr : right.HasColumns (j.qualifiedColumns s.rightColumns))
    (hleft : ∀ c ∈ s.leftColumns, left.value? c = o.left?.bind (Row.value? · c))
    (hright : ∀ c ∈ s.rightColumns,
      right.value? (Row.qualifiedName j.table c) = o.right?.bind (Row.value? · c)) :
    ComesFrom j o (left.union right) := by
  refine ⟨hl.union hr, fun c hc => ?_⟩
  have apart := (List.nodup_append.1 sound.nodup).2.2
  by_cases hcl : c ∈ s.leftColumns
  · rw [Row.value?_union_of_not_mem hr fun hcr => apart c hcl c hcr rfl, hleft c hcl,
      Origin.value?, if_pos hcl]
  · have hcr := (List.mem_append.1 hc).resolve_left hcl
    obtain ⟨d, hd, rfl⟩ := List.mem_map.1 hcr
    rw [Row.value?_union_of_mem hr hcr, hright d hd, Origin.value?, if_neg hcl,
      find?_qualifiedName j.table hd]
    rfl

theorem comesFrom_row (sound : s.Sound j) (o : Origin s) : ComesFrom j o (o.row j) := by
  have hqualify : ∀ r : Fin s.right.length,
      (Row.qualify j.table s.right[r]).HasColumns (j.qualifiedColumns s.rightColumns) :=
    fun r => (sound.right_columns _ (List.getElem_mem _)).qualify j.table
  have hleft : ∀ l : Fin s.left.length, s.left[l].HasColumns s.leftColumns :=
    fun l => sound.left_columns _ (List.getElem_mem _)
  cases o with
  | both l r =>
    exact comesFrom_union sound (hleft l) (hqualify r) (fun _ _ => rfl)
      fun c _ => Row.value?_qualify j.table s.right[r] c
  | left l =>
    exact comesFrom_union sound (hleft l) (.nulls _) (fun _ _ => rfl)
      fun c _ => Row.value?_nulls _ _
  | right r =>
    exact comesFrom_union sound (.nulls _) (hqualify r) (fun c _ => Row.value?_nulls _ _)
      fun c _ => Row.value?_qualify j.table s.right[r] c

/-- Two rows meet when the columns of the join have equal values in them. -/
theorem meets_iff_agree (sound : s.Sound j) {first second : String} (hf : first ∈ s.columns j)
    (hs : second ∈ s.columns j) (l : Fin s.left.length) (r : Fin s.right.length) :
    meets first second s.left[l] (Row.qualify j.table s.right[r]) = true ↔
      Agree j first second l r := by
  have hrow := comesFrom_row sound (.both l r)
  have hfirst := hrow.values first hf
  have hsecond := hrow.values second hs
  simp only [Origin.row] at hfirst hsecond
  simp only [meets, hfirst, hsecond, Agree]
  cases (Origin.both l r).value? j first <;> cases (Origin.both l r).value? j second <;> simp

end Rows

/-! ### The rows of a join, by their origins -/

section Origins

variable (j : Join) (s : Sides) (first second : String)

/-- The right rows that a left row meets. -/
def partners (l : Fin s.left.length) : List (Fin s.right.length) :=
  (List.finRange s.right.length).filter fun r =>
    meets first second s.left[l] (Row.qualify j.table s.right[r])

/-- The origins with one left row. -/
def leftOrigins (l : Fin s.left.length) : List (Origin s) :=
  match partners j s first second l with
  | [] => if j.kind == .left then [.left l] else []
  | rs => rs.map (.both l)

/-- The right rows that no left row meets. -/
def strangers : List (Fin s.right.length) :=
  (List.finRange s.right.length).filter fun r =>
    !s.left.any fun l => meets first second l (Row.qualify j.table s.right[r])

/-- The origins without a left row. -/
def rightOrigins : List (Origin s) :=
  if j.kind = .right then (strangers j s first second).map .right else []

/-- The origins of the rows of a join. -/
def origins : List (Origin s) :=
  (List.finRange s.left.length).flatMap (leftOrigins j s first second) ++
    rightOrigins j s first second

variable {α β : Type}

/-- A selection from mapped items, by their positions. -/
theorem filter_map_eq_positions (f : α → β) (p : β → Bool) (l : List α) :
    (l.map f).filter p =
      ((List.finRange l.length).filter fun i => p (f l[i])).map fun i => f l[i] := by
  calc (l.map f).filter p = (((List.finRange l.length).map l.get).map f).filter p := by
        rw [List.map_get_finRange]
    _ = _ := by
        rw [List.map_map, List.filter_map]
        rfl

theorem leftRow_eq_map (l : Fin s.left.length) :
    leftRow (j.kind == .left) first second (j.qualifiedColumns s.rightColumns)
      (s.right.map (Row.qualify j.table)) s.left[l] =
        (leftOrigins j s first second l).map (Origin.row j) := by
  have hfilter := filter_map_eq_positions (Row.qualify j.table) (meets first second s.left[l])
    s.right
  change _ = (partners j s first second l).map _ at hfilter
  rw [leftRow, hfilter, leftOrigins]
  cases partners j s first second l with
  | nil => cases j.kind == .left <;> rfl
  | cons r rs => simp [Origin.row]

theorem unmatchedRight_eq_map :
    unmatchedRight first second s.leftColumns s.left (s.right.map (Row.qualify j.table)) =
      ((strangers j s first second).map .right).map (Origin.row j) := by
  rw [unmatchedRight, filter_map_eq_positions, List.map_map, List.map_map]
  rfl

theorem flatMap_eq_positions (f : α → List β) (l : List α) :
    l.flatMap f = (List.finRange l.length).flatMap fun i => f l[i] := by
  calc l.flatMap f = ((List.finRange l.length).map l.get).flatMap f := by
        rw [List.map_get_finRange]
    _ = _ := by
        rw [List.flatMap_map]
        rfl

theorem column_eq_ok {j : Join} {columns : List String} {base name c : String}
    (h : Column.resolve? columns base name = some c) : j.column columns base name = .ok c := by
  rw [column, h]

variable {j s first second} in
/-- The rows of a join are those of its origins. -/
theorem rows_eq_map {base : String}
    (hfirst : Column.resolve? (s.columns j) base j.first = some first)
    (hsecond : Column.resolve? (s.columns j) base j.second = some second) :
    j.rows base s.left s.leftColumns s.rightColumns s.right =
      .ok ((origins j s first second).map (Origin.row j), s.columns j) := by
  have hmatched : s.left.flatMap (leftRow (j.kind == .left) first second
      (j.qualifiedColumns s.rightColumns) (s.right.map (Row.qualify j.table))) =
        ((List.finRange s.left.length).flatMap (leftOrigins j s first second)).map
          (Origin.row j) := by
    rw [flatMap_eq_positions, List.map_flatMap]
    exact List.flatMap_congr fun l _ => leftRow_eq_map j s first second l
  have hunmatched : (if j.kind = .right then
      unmatchedRight first second s.leftColumns s.left (s.right.map (Row.qualify j.table))
      else []) = (rightOrigins j s first second).map (Origin.row j) := by
    rw [rightOrigins, unmatchedRight_eq_map]
    split <;> rfl
  have hf := column_eq_ok (j := j) hfirst
  have hs := column_eq_ok (j := j) hsecond
  unfold Sides.columns at hf hs
  simp only [rows, hf, hs, Result.ok_bind, hmatched, hunmatched, origins, List.map_append]
  rfl

/-! ### Which origins there are, and in which order -/

variable {j s first second}

section Membership

variable (sound : s.Sound j) (hf : first ∈ s.columns j) (hs : second ∈ s.columns j)

include sound hf hs

theorem mem_partners {l : Fin s.left.length} {r : Fin s.right.length} :
    r ∈ partners j s first second l ↔ Agree j first second l r := by
  rw [partners, List.mem_filter, meets_iff_agree sound hf hs]
  simp

theorem mem_strangers {r : Fin s.right.length} :
    r ∈ strangers j s first second ↔ ∀ l, ¬Agree j first second l r := by
  simp only [← meets_iff_agree sound hf hs]
  rw [strangers, List.mem_filter]
  simp [List.forall_mem_iff_getElem, Fin.forall_iff]

/-- The origins with a left row: that row with every right row that agrees with it, or, in a join
that keeps left rows, that row alone when none does. -/
theorem mem_leftOrigins {l : Fin s.left.length} {o : Origin s} :
    o ∈ leftOrigins j s first second l ↔
      (∃ r, o = .both l r ∧ Agree j first second l r) ∨
        o = .left l ∧ j.kind = .left ∧ ∀ r, ¬Agree j first second l r := by
  simp only [← mem_partners sound hf hs]
  rw [leftOrigins]
  cases partners j s first second l with
  | nil => cases hk : j.kind <;> simp
  | cons r rs =>
    have hsome : ¬∀ q, q ∉ r :: rs := fun h => h r List.mem_cons_self
    simp only [hsome, and_false, or_false, List.mem_map]
    constructor
    · rintro ⟨q, hq, rfl⟩
      exact ⟨q, rfl, hq⟩
    · rintro ⟨q, rfl, hq⟩
      exact ⟨q, hq, rfl⟩

theorem mem_rightOrigins {o : Origin s} :
    o ∈ rightOrigins j s first second ↔
      ∃ r, o = .right r ∧ j.kind = .right ∧ ∀ l, ¬Agree j first second l r := by
  simp only [← mem_strangers sound hf hs]
  rw [rightOrigins]
  by_cases hk : j.kind = .right
  · rw [if_pos hk, List.mem_map]
    constructor
    · rintro ⟨r, hr, rfl⟩
      exact ⟨r, rfl, hk, hr⟩
    · rintro ⟨r, rfl, -, hr⟩
      exact ⟨r, hr, rfl⟩
  · simp [hk]

theorem mem_origins (o : Origin s) :
    o ∈ origins j s first second ↔ Occurs j first second o := by
  simp only [origins, List.mem_append, List.mem_flatMap, List.mem_finRange, true_and,
    mem_leftOrigins sound hf hs, mem_rightOrigins sound hf hs]
  cases o <;> simp [Occurs]

end Membership

theorem pairwise_leftOrigins (l : Fin s.left.length) :
    (leftOrigins j s first second l).Pairwise Origin.Before := by
  have hsorted : (partners j s first second l).Pairwise (· < ·) :=
    (List.pairwise_lt_finRange _).filter _
  rw [leftOrigins]
  cases hp : partners j s first second l with
  | nil => cases j.kind == .left <;> simp
  | cons r rs =>
    rw [hp] at hsorted
    exact List.pairwise_map.2 (hsorted.imp fun hlt => .inr ⟨rfl, hlt⟩)

theorem place_of_mem_leftOrigins {l : Fin s.left.length} {o : Origin s}
    (h : o ∈ leftOrigins j s first second l) : o.place.1 = l := by
  rw [leftOrigins] at h
  split at h
  · split at h
    · rw [List.mem_singleton.1 h]
      rfl
    · simp at h
  · obtain ⟨r, -, rfl⟩ := List.mem_map.1 h
    rfl

theorem pairwise_rightOrigins : (rightOrigins j s first second).Pairwise Origin.Before := by
  have hsorted : (strangers j s first second).Pairwise (· < ·) :=
    (List.pairwise_lt_finRange _).filter _
  rw [rightOrigins]
  split
  · exact List.pairwise_map.2 (hsorted.imp fun hlt => .inr ⟨rfl, hlt⟩)
  · exact List.Pairwise.nil

theorem place_of_mem_rightOrigins {o : Origin s} (h : o ∈ rightOrigins j s first second) :
    o.place.1 = s.left.length := by
  rw [rightOrigins] at h
  split at h
  · obtain ⟨r, -, rfl⟩ := List.mem_map.1 h
    rfl
  · simp at h

/-- The origins stand in the order of their places. -/
theorem pairwise_origins : (origins j s first second).Pairwise Origin.Before := by
  refine List.pairwise_append.2 ⟨?_, pairwise_rightOrigins, ?_⟩
  · refine List.pairwise_flatMap.2 ⟨fun l _ => pairwise_leftOrigins l, ?_⟩
    refine (List.pairwise_lt_finRange _).imp fun {l l'} hlt o ho p hp => .inl ?_
    rw [place_of_mem_leftOrigins ho, place_of_mem_leftOrigins hp]
    exact hlt
  · intro o ho p hp
    obtain ⟨l, -, hl⟩ := List.mem_flatMap.1 ho
    refine .inl ?_
    rw [place_of_mem_leftOrigins hl, place_of_mem_rightOrigins hp]
    exact l.isLt

end Origins

/-! ### The join -/

variable {j : Join} {s : Sides} {first second base : String}

theorem isJoin_origins (sound : s.Sound j) (hf : first ∈ s.columns j) (hs : second ∈ s.columns j) :
    IsJoin j s first second ((origins j s first second).map (Origin.row j)) := by
  refine ⟨origins j s first second, pairwise_origins, mem_origins sound hf hs, ?_⟩
  rw [List.forall₂_map_right_iff, List.forall₂_same]
  exact fun o _ => comesFrom_row sound o

theorem meets_swap (first second : String) : meets second first = meets first second := by
  funext left right
  simp only [meets]
  cases Row.value? (Keyed.union left right) first <;>
    cases Row.value? (Keyed.union left right) second <;> simp [Cell.sameValue_comm]

theorem leftRow_swap (first second : String) (keepUnmatched : Bool) :
    leftRow keepUnmatched second first = leftRow keepUnmatched first second := by
  funext columns right l
  rw [leftRow, leftRow, meets_swap first second]

theorem unmatchedRight_swap (first second : String) :
    unmatchedRight second first = unmatchedRight first second := by
  funext columns left right
  rw [unmatchedRight, unmatchedRight, meets_swap first second]

/-- A join whose columns are found may name them in either order. -/
theorem rows_swap (hfirst : Column.resolve? (s.columns j) base j.first = some first)
    (hsecond : Column.resolve? (s.columns j) base j.second = some second) :
    ({ j with first := j.second, second := j.first } : Join).rows base s.left s.leftColumns
        s.rightColumns s.right =
      j.rows base s.left s.leftColumns s.rightColumns s.right := by
  have hf := column_eq_ok (j := j) hfirst
  have hs := column_eq_ok (j := j) hsecond
  simp only [column, qualifiedColumns, Sides.columns] at hf hs
  simp only [rows, column, qualifiedColumns, hf, hs, Result.ok_bind, leftRow_swap first second,
    unmatchedRight_swap first second]

/-- **A join is what its description says.** For sound sides and columns that are found, the join
succeeds with the columns of both sides, its rows are the one list of the description, and the two
columns of the join may change places. -/
theorem rows_iff_isJoin (sound : s.Sound j)
    (hfirst : Column.resolve? (s.columns j) base j.first = some first)
    (hsecond : Column.resolve? (s.columns j) base j.second = some second) :
    ∃ rows, j.rows base s.left s.leftColumns s.rightColumns s.right = .ok (rows, s.columns j) ∧
      ({ j with first := j.second, second := j.first } : Join).rows base s.left s.leftColumns
        s.rightColumns s.right = .ok (rows, s.columns j) ∧
      ∀ rows', IsJoin j s first second rows' ↔ rows' = rows := by
  have hrows := rows_eq_map hfirst hsecond
  have hjoin := isJoin_origins sound (Column.mem_of_resolve? hfirst)
    (Column.mem_of_resolve? hsecond)
  refine ⟨_, hrows, (rows_swap hfirst hsecond).trans hrows, fun rows' => ⟨fun h => ?_, ?_⟩⟩
  · exact isJoin_unique h hjoin
  · rintro rfl
    exact hjoin

/-- Orders with their customers: one whose number is spelled differently, one without a customer,
and a customer without orders, who is kept. -/
theorem rows_iff_isJoin_orders :
    let order (id : String) (user : Option String) : Row :=
      Keyed.ofList [("id", some id), ("user", user)]
    let user (id : String) : Row := Keyed.ofList [("id", some id)]
    let s : Sides :=
      { left := [order "1" (some "01"), order "2" none]
        leftColumns := ["id", "user"]
        right := [user "1", user "2"]
        rightColumns := ["id"] }
    let j : Join := { kind := .right, table := "users", first := "user", second := "users.id" }
    s.Sound j ∧ Column.resolve? (s.columns j) "orders" j.first = some "user" ∧
      Column.resolve? (s.columns j) "orders" j.second = some "users.id" ∧
      ∃ rows, j.rows "orders" s.left s.leftColumns s.rightColumns s.right =
          .ok (rows, s.columns j) ∧
        ({ j with first := j.second, second := j.first } : Join).rows "orders" s.left s.leftColumns
          s.rightColumns s.right = .ok (rows, s.columns j) ∧
        ∀ rows', IsJoin j s "user" "users.id" rows' ↔ rows' = rows := by
  intro order user s j
  have sound : s.Sound j := by
    refine ⟨?_, ?_, by decide⟩
    · simp only [s, List.forall_mem_cons]
      refine ⟨fun c => Keyed.mem_keys_ofList, fun c => Keyed.mem_keys_ofList, by simp⟩
    · simp only [s, List.forall_mem_cons]
      refine ⟨fun c => Keyed.mem_keys_ofList, fun c => Keyed.mem_keys_ofList, by simp⟩
  have hfirst : Column.resolve? (s.columns j) "orders" j.first = some "user" := by decide
  have hsecond : Column.resolve? (s.columns j) "orders" j.second = some "users.id" := by decide
  exact ⟨sound, hfirst, hsecond, rows_iff_isJoin sound hfirst hsecond⟩

end Tabular.Join
