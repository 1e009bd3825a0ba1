import Mathlib.Algebra.Order.Group.Multiset
import Mathlib.Tactic.Abel
import Tabular.Proofs.Sorting.Sorted

/-!
Sorting small lists.

Merging from both ends gives up only where the two ends take an item twice. Then they leave out an
item of the other list, and the two items are compared one way at the front and the other way at
the back: by a weak order this does not happen (`mergeEnds_eq_merge`). By any comparison, what does
come out has the same items (`mergeEnds_perm`).
-/

namespace Tabular.Sorting

variable {α : Type} {less : α → α → Bool} {P : α → Prop} {l l' m m' r : List α} {a b c : α}
variable {n : Nat}

/-! ### Merging from the front -/

/-- What the steps from the front take off the two lists comes out. -/
theorem mergeFront_split (less : α → α → Bool) (n : Nat) (l r : List α) :
    ∃ u v, u ++ (mergeFront less n l r).2.1 = l ∧ v ++ (mergeFront less n l r).2.2 = r ∧
      (mergeFront less n l r).1.Perm (u ++ v) := by
  fun_induction mergeFront less n l r with
  | case1 n a l b r hba out l' r' hrec ih =>
    obtain ⟨u, v, hu, hv, hperm⟩ := ih
    rw [hrec] at hu hv hperm
    exact ⟨u, b :: v, hu, congrArg (b :: ·) hv, (hperm.cons b).trans List.perm_middle.symm⟩
  | case2 n a l b r hba out l' r' hrec ih =>
    obtain ⟨u, v, hu, hv, hperm⟩ := ih
    rw [hrec] at hu hv hperm
    exact ⟨a :: u, v, congrArg (a :: ·) hu, hv, hperm.cons a⟩
  | case3 => exact ⟨[], [], rfl, rfl, .refl _⟩

/-- The steps from the front begin the merge of the two lists. -/
theorem merge_eq_mergeFront_append (less : α → α → Bool) (n : Nat) (l r : List α) :
    l.merge r (inOrder less) = (mergeFront less n l r).1 ++
      (mergeFront less n l r).2.1.merge (mergeFront less n l r).2.2 (inOrder less) := by
  fun_induction mergeFront less n l r with
  | case1 n a l b r hba out l' r' hrec ih =>
    rw [List.cons_merge_cons, if_neg (by simp [hba]), ih, hrec, List.cons_append]
  | case2 n a l b r hba out l' r' hrec ih =>
    rw [List.cons_merge_cons, if_pos (by simpa using hba), ih, hrec, List.cons_append]
  | case3 => rfl

theorem length_mergeFront (hl : n ≤ l.length) (hr : n ≤ r.length) :
    (mergeFront less n l r).1.length = n := by
  fun_induction mergeFront less n l r with
  | case1 n a l b r hba out l' r' hrec ih =>
    rw [List.length_cons] at hr
    rw [hrec] at ih
    exact congrArg (· + 1) (ih (Nat.le_of_succ_le hl) (Nat.le_of_succ_le_succ hr))
  | case2 n a l b r hba out l' r' hrec ih =>
    rw [List.length_cons] at hl
    rw [hrec] at ih
    exact congrArg (· + 1) (ih (Nat.le_of_succ_le_succ hl) (Nat.le_of_succ_le hr))
  | case3 n l r hnot =>
    match n, l, r with
    | 0, _, _ => rfl
    | n + 1, a :: l, b :: r => exact (hnot n a l b r rfl rfl rfl).elim

/-- The steps from the front are counted by what they put out and by what they leave. -/
theorem length_mergeFront_add (hl : n ≤ l.length) (hr : n ≤ r.length) {out l' r' : List α}
    (hf : mergeFront less n l r = (out, l', r')) :
    out.length = n ∧ l'.length + r'.length + n = l.length + r.length := by
  have hlength : (mergeFront less n l r).1.length = n := length_mergeFront hl hr
  have hmerge := congrArg List.length (merge_eq_mergeFront_append less n l r)
  rw [hf] at hlength hmerge
  simp only [List.length_merge, List.length_append] at hlength hmerge
  exact ⟨hlength, by omega⟩

/-- What is taken off one list may stand in front of what is left of the other one. -/
theorem mergeFront_order (h : WeakOn less P) (hl : ∀ a ∈ l, P a) (hr : ∀ a ∈ r, P a)
    (ordered : Ordered less l) (ordered' : Ordered less r) :
    ∃ u v, u ++ (mergeFront less n l r).2.1 = l ∧ v ++ (mergeFront less n l r).2.2 = r ∧
      (∀ x ∈ u, ∀ y ∈ (mergeFront less n l r).2.2, less y x = false) ∧
      ∀ y ∈ v, ∀ x ∈ (mergeFront less n l r).2.1, less y x = true := by
  fun_induction mergeFront less n l r with
  | case1 n a l b r hba out l' r' hrec ih =>
    obtain ⟨hb, hr'⟩ := List.forall_mem_cons.1 hr
    obtain ⟨ha, hl'⟩ := List.forall_mem_cons.1 hl
    obtain ⟨u, v, hu, hv, hfirst, hsecond⟩ := ih hl hr' ordered (List.pairwise_cons.1 ordered').2
    rw [hrec] at hu hv hfirst hsecond
    refine ⟨u, b :: v, hu, congrArg (b :: ·) hv, hfirst, List.forall_mem_cons.2 ⟨?_, hsecond⟩⟩
    intro x hx
    rcases List.mem_cons.1 (hu ▸ List.mem_append_right u hx) with rfl | hmem
    · exact hba
    · exact h.less_of_less_of_inOrder hb ha (hl' x hmem) hba
        ((List.pairwise_cons.1 ordered).1 x hmem)
  | case2 n a l b r hba out l' r' hrec ih =>
    obtain ⟨hb, hr'⟩ := List.forall_mem_cons.1 hr
    obtain ⟨ha, hl'⟩ := List.forall_mem_cons.1 hl
    obtain ⟨u, v, hu, hv, hfirst, hsecond⟩ := ih hl' hr (List.pairwise_cons.1 ordered).2 ordered'
    rw [hrec] at hu hv hfirst hsecond
    refine ⟨a :: u, v, congrArg (a :: ·) hu, hv, List.forall_mem_cons.2 ⟨?_, hfirst⟩, hsecond⟩
    intro y hy
    have hab : inOrder less a b = true := by simpa using hba
    rcases List.mem_cons.1 (hv ▸ List.mem_append_right v hy) with rfl | hmem
    · simpa using hba
    · exact inOrder_eq_true.1 (h.trans ha hb (hr' y hmem) hab
        ((List.pairwise_cons.1 ordered').1 y hmem))
  | case3 => exact ⟨[], [], rfl, rfl, by simp, by simp⟩

/-! ### Merging from both ends -/

/-- A beginning and an end of a list that overlap have an item in common. -/
theorem exists_mem_of_overlap {u l₁ l₂ u₂ : List α} (h : u ++ l₁ = l₂ ++ u₂)
    (hlt : l₂.length < u.length) : ∃ x ∈ u, x ∈ u₂ := by
  obtain ⟨t, rfl, -⟩ | ⟨t, rfl, rfl⟩ := List.append_eq_append_iff.1 h
  · simp only [List.length_append] at hlt
    omega
  · cases t with
    | nil => simp at hlt
    | cons x t => exact ⟨x, by simp, by simp⟩

/-- A beginning and an end of a list, with what neither of them holds. -/
theorem append_take_append {u l₁ l₂ u₂ : List α} (h : u ++ l₁ = l) (h' : l₂ ++ u₂ = l)
    (hle : l.length ≤ l₁.length + l₂.length) :
    u ++ l₁.take (l₁.length + l₂.length - l.length) ++ u₂ = l := by
  have hlength : u.length + l₁.length = l.length := by rw [← h, List.length_append]
  have hplace : u.length + (l₁.length + l₂.length - l.length) = l₂.length := by omega
  rw [← List.take_length_add_append, h, hplace]
  conv_lhs => rw [← h', List.take_left' rfl]
  exact h'

/-- **Merging from both ends** rearranges the items, by any comparison. -/
theorem mergeEnds_perm (hm : mergeEnds less l r = some m) : m.Perm (l ++ r) := by
  obtain ⟨u₁, v₁, hu₁, hv₁, hfront⟩ := mergeFront_split less l.length l r
  obtain ⟨v₂, u₂, hv₂, hu₂, hback⟩ := mergeFront_split (flip less) l.length r.reverse l.reverse
  unfold mergeEnds at hm
  rcases hf : mergeFront less l.length l r with ⟨front, l₁, r₁⟩
  rcases hb : mergeFront (flip less) l.length r.reverse l.reverse with ⟨back, r₂, l₂⟩
  simp only [hf, hb] at hm hu₁ hv₁ hfront hv₂ hu₂ hback
  split at hm
  · exact absurd hm (by simp)
  · next hdisjoint =>
    obtain ⟨hl, hr⟩ := not_or.1 hdisjoint
    obtain rfl := Option.some.inj hm
    have hends : l₂.reverse ++ u₂.reverse = l := by
      rw [← List.reverse_append, hu₂, List.reverse_reverse]
    have hends' : r₂.reverse ++ v₂.reverse = r := by
      rw [← List.reverse_append, hv₂, List.reverse_reverse]
    have hl' := append_take_append hu₁ hends (by simpa using hl)
    have hr' := append_take_append hv₁ hends' (by simpa using hr)
    rw [List.length_reverse] at hl' hr'
    conv_rhs => rw [← hl', ← hr']
    rw [← Multiset.coe_eq_coe] at hfront hback ⊢
    simp only [← Multiset.coe_add, Multiset.coe_reverse] at hfront hback ⊢
    rw [hfront, hback]
    abel

/-- The two ends take no item twice, if the comparison is a weak order: then they would leave out an
item of the other list, and the front compares the two items one way, the back the other way. -/
theorem not_overlap (h : WeakOn less P) (hl : ∀ a ∈ l, P a) (hr : ∀ a ∈ r, P a)
    (ordered : Ordered less l) (ordered' : Ordered less r) (hle : l.length ≤ r.length)
    {front back l₁ r₁ l₂ r₂ : List α} (hf : mergeFront less l.length l r = (front, l₁, r₁))
    (hb : mergeFront (flip less) l.length r.reverse l.reverse = (back, r₂, l₂)) :
    l.length ≤ l₁.length + l₂.length ∧ r.length ≤ r₁.length + r₂.length := by
  obtain ⟨u₁, v₁, hu₁, hv₁, hlow₁, hhigh₁⟩ :=
    mergeFront_order (n := l.length) h hl hr ordered ordered'
  obtain ⟨v₂, u₂, hv₂, hu₂, hhigh₂, hlow₂⟩ :=
    mergeFront_order (n := l.length) (l := r.reverse) (r := l.reverse) h.backwards
      (by simpa using hr) (by simpa using hl) (List.pairwise_reverse.2 ordered')
      (List.pairwise_reverse.2 ordered)
  have htaken := length_mergeFront_add le_rfl hle hf
  have htaken' := length_mergeFront_add (by simpa using hle) (by simp) hb
  simp only [hf, hb] at hu₁ hv₁ hlow₁ hhigh₁ hv₂ hu₂ hhigh₂ hlow₂
  have hl' : u₁ ++ l₁ = l₂.reverse ++ u₂.reverse := by
    rw [hu₁, ← List.reverse_append, hu₂, List.reverse_reverse]
  have hr' : v₁ ++ r₁ = r₂.reverse ++ v₂.reverse := by
    rw [hv₁, ← List.reverse_append, hv₂, List.reverse_reverse]
  simp only [List.length_reverse] at htaken htaken'
  have hlengths := congrArg List.length hu₁
  have hlengths' := congrArg List.length hv₁
  have hreverse₁ := l₂.length_reverse
  have hreverse₂ := r₂.length_reverse
  simp only [List.length_append] at hlengths hlengths'
  constructor
  · by_contra hlt
    obtain ⟨x, hx₁, hx₂⟩ := exists_mem_of_overlap hl' (by omega)
    obtain ⟨y, hy₂, hy₁⟩ := exists_mem_of_overlap hr'.symm (by omega)
    have hless : less y x = true :=
      hlow₂ x (List.mem_reverse.1 hx₂) y (List.mem_reverse.1 hy₂)
    exact absurd hless (by simp [hlow₁ x hx₁ y hy₁])
  · by_contra hlt
    obtain ⟨y, hy₁, hy₂⟩ := exists_mem_of_overlap hr' (by omega)
    obtain ⟨x, hx₂, hx₁⟩ := exists_mem_of_overlap hl'.symm (by omega)
    have hless : less y x = false :=
      hhigh₂ y (List.mem_reverse.1 hy₂) x (List.mem_reverse.1 hx₂)
    exact absurd (hhigh₁ y hy₁ x hx₁) (by simp [hless])

/-- Merging from the back is merging from the front, by a weak order. -/
theorem merge_eq_reverse_merge (h : WeakOn less P) (hl : ∀ a ∈ l, P a) (hr : ∀ a ∈ r, P a)
    (ordered : Ordered less l) (ordered' : Ordered less r) :
    l.merge r (inOrder less) = (r.reverse.merge l.reverse (inOrder (flip less))).reverse := by
  have hl' := sortedFrom_self (P := P) ordered
  have hr' := sortedFrom_self (P := P) ordered'
  have hmem := List.forall_mem_append.2 ⟨hl, hr⟩
  rw [(hl'.merge_front h hl hr hr').eq_mergeSort h hmem]
  exact ((hl'.merge_back h hl hr hr').eq_mergeSort h hmem).symm

/-- **Merging from both ends is merging**, by a weak order. -/
theorem mergeEnds_eq_merge (h : WeakOn less P) (hl : ∀ a ∈ l, P a) (hr : ∀ a ∈ r, P a)
    (ordered : Ordered less l) (ordered' : Ordered less r) (hle : l.length ≤ r.length)
    (hle' : r.length ≤ l.length + 1) :
    mergeEnds less l r = some (l.merge r (inOrder less)) := by
  rcases hf : mergeFront less l.length l r with ⟨front, l₁, r₁⟩
  rcases hb : mergeFront (flip less) l.length r.reverse l.reverse with ⟨back, r₂, l₂⟩
  obtain ⟨hleft, hright⟩ := not_overlap h hl hr ordered ordered' hle hf hb
  have hends : mergeEnds less l r = some (front ++ l₁.take (l₁.length + l₂.length - l.length) ++
      r₁.take (r₁.length + r₂.length - r.length) ++ back.reverse) := by
    simp only [mergeEnds, hf, hb]
    exact if_neg (by omega)
  have hperm := mergeEnds_perm hends
  -- the merge begins with what the front puts out and ends with what the back puts out
  have hfront := merge_eq_mergeFront_append less l.length l r
  have hback := merge_eq_reverse_merge h hl hr ordered ordered'
  rw [merge_eq_mergeFront_append (flip less) l.length, List.reverse_append] at hback
  simp only [hf, hb] at hfront hback
  have htaken := length_mergeFront_add le_rfl hle hf
  have htaken' := length_mergeFront_add (by simpa using hle) (by simp) hb
  simp only [List.length_reverse] at htaken'
  obtain ⟨between, hbetween⟩ : ∃ t, l.merge r (inOrder less) = front ++ t ++ back.reverse := by
    obtain ⟨t, ht⟩ := List.prefix_of_prefix_length_le ⟨_, hfront.symm⟩ ⟨_, hback.symm⟩
      (by simp only [List.length_reverse, List.length_merge]; omega)
    exact ⟨t, by rw [hback, ht]⟩
  have hrest : (l₁.take (l₁.length + l₂.length - l.length) ++
      r₁.take (r₁.length + r₂.length - r.length)).Perm between := by
    have hall := hperm.trans (List.merge_perm_append (inOrder less)).symm
    rw [hbetween, List.append_assoc front, List.perm_append_right_iff,
      List.perm_append_left_iff] at hall
    exact hall
  have hone : between.length ≤ 1 := by
    have hlength := congrArg List.length hbetween
    simp only [List.length_merge, List.length_append, List.length_reverse] at hlength
    omega
  rw [hends, hbetween, List.append_assoc front]
  congr 3
  match between, hone with
  | [], _ => exact List.perm_nil.1 hrest
  | [x], _ => exact List.perm_singleton.1 hrest

/-! ### Sorting small lists -/

theorem sortTwo_cases (less : α → α → Bool) (a b : α) :
    sortTwo less a b = (a, b) ∧ less b a = false ∨ sortTwo less a b = (b, a) ∧ less b a = true := by
  unfold sortTwo
  cases less b a <;> simp

theorem sortTwo_perm (less : α → α → Bool) (a b : α) :
    [(sortTwo less a b).1, (sortTwo less a b).2].Perm [a, b] := by
  rcases sortTwo_cases less a b with ⟨heq, -⟩ | ⟨heq, -⟩ <;> rw [heq]
  exact .swap a b []

theorem sortTwo_eq_merge (less : α → α → Bool) (a b : α) :
    [(sortTwo less a b).1, (sortTwo less a b).2] = [a].merge [b] (inOrder less) := by
  rcases sortTwo_cases less a b with ⟨heq, hba⟩ | ⟨heq, hba⟩ <;>
    simp [heq, hba]

theorem sortFour_perm (v₀ v₁ v₂ v₃ : α) :
    (sortFour less v₀ v₁ v₂ v₃).Perm [v₀, v₁, v₂, v₃] := by
  have hfirst := sortTwo_perm less v₀ v₁
  have hsecond := sortTwo_perm less v₂ v₃
  rcases hab : sortTwo less v₀ v₁ with ⟨a, b⟩
  rcases hcd : sortTwo less v₂ v₃ with ⟨c, d⟩
  rw [hab] at hfirst
  rw [hcd] at hsecond
  refine .trans ?_ (hfirst.append hsecond)
  simp only [sortFour, hab, hcd]
  cases less c a <;> cases less d b
  case false.false => exact .cons a ((sortTwo_perm less b c).append_right [d])
  case false.true =>
    refine .cons a (((sortTwo_perm less c d).append_right [b]).trans ?_)
    exact List.perm_middle (a := b)
  case true.false =>
    refine (((sortTwo_perm less a b).append_right [d]).cons c).trans ?_
    exact (List.perm_middle : ([a, b] ++ c :: [d]).Perm _).symm
  case true.true =>
    refine (((sortTwo_perm less a d).append_right [b]).cons c).trans ?_
    have hlast : [c, d, b].Perm [b, c, d] := (List.perm_append_comm : ([c, d] ++ [b]).Perm _)
    exact (List.Perm.swap a c [d, b]).trans (.cons a hlast)

theorem sortTwo_ordered (h : WeakOn less P) (ha : P a) (hb : P b) :
    P (sortTwo less a b).1 ∧ P (sortTwo less a b).2 ∧
      less (sortTwo less a b).2 (sortTwo less a b).1 = false := by
  rcases sortTwo_cases less a b with ⟨heq, hba⟩ | ⟨heq, hba⟩ <;> rw [heq]
  exacts [⟨ha, hb, hba⟩, ⟨hb, ha, h.asymm hb ha hba⟩]

/-- The network of five comparisons merges two pairs, by a weak order. -/
theorem sortFour_eq_merge (h : WeakOn less P) {v₀ v₁ v₂ v₃ : α} (h₀ : P v₀) (h₁ : P v₁) (h₂ : P v₂)
    (h₃ : P v₃) :
    sortFour less v₀ v₁ v₂ v₃ =
      ([v₀].merge [v₁] (inOrder less)).merge ([v₂].merge [v₃] (inOrder less)) (inOrder less) := by
  obtain ⟨ha, hb, hba⟩ := sortTwo_ordered h h₀ h₁
  obtain ⟨hc, hd, hdc⟩ := sortTwo_ordered h h₂ h₃
  rw [← sortTwo_eq_merge, ← sortTwo_eq_merge]
  rcases hab : sortTwo less v₀ v₁ with ⟨a, b⟩
  rcases hcd : sortTwo less v₂ v₃ with ⟨c, d⟩
  simp only [hab, hcd, ← inOrder_eq_true] at ha hb hba hc hd hdc
  simp only [sortFour, hab, hcd]
  cases hca : less c a <;> cases hdb : less d b
  case false.false =>
    rcases sortTwo_cases less b c with ⟨heq, hcb⟩ | ⟨heq, hcb⟩ <;> simp [heq, hca, hcb, hdb]
  case false.true =>
    have hcb : less c b = true := h.less_of_inOrder_of_less hc hd hb hdc hdb
    rcases sortTwo_cases less c d with ⟨heq, hdc'⟩ | ⟨heq, hdc'⟩
    · simp [heq, hca, hcb, hdb]
    · exact absurd hdc (by simp [hdc'])
  case true.false =>
    have hda : inOrder less a d = true := h.trans ha hb hd hba (inOrder_eq_true.2 hdb)
    rcases sortTwo_cases less a b with ⟨heq, hba'⟩ | ⟨heq, hba'⟩
    · simp [heq, hca, hdb, inOrder_eq_true.1 hda]
    · exact absurd hba (by simp [hba'])
  case true.true =>
    rcases sortTwo_cases less a d with ⟨heq, hda⟩ | ⟨heq, hda⟩ <;> simp [heq, hca, hda, hdb]

/-! ### Halves and small lists -/

theorem sortHalf_perm (byFours : Bool) (l : List α) : (sortHalf less byFours l).Perm l := by
  unfold sortHalf
  split
  · next a b c d l =>
    split
    · exact (insertAll_perm l _).trans ((sortFour_perm a b c d).append_right l)
    · exact insertAll_perm _ []
  · exact insertAll_perm _ []

theorem sortedFrom_sortFour (h : WeakOn less P) {v₀ v₁ v₂ v₃ : α} (h₀ : P v₀) (h₁ : P v₁)
    (h₂ : P v₂) (h₃ : P v₃) :
    SortedFrom less P [v₀, v₁, v₂, v₃] (sortFour less v₀ v₁ v₂ v₃) := by
  have single (v : α) : SortedFrom less P [v] [v] := sortedFrom_self (List.pairwise_singleton ..)
  have pair {v v' : α} (hv : P v) (hv' : P v') :=
    (single v).merge_front h (by simpa) (by simpa) (single v')
  rw [sortFour_eq_merge h h₀ h₁ h₂ h₃]
  exact (pair h₀ h₁).merge_front h (by simp [h₀, h₁]) (by simp [h₂, h₃]) (pair h₂ h₃)

theorem sortedFrom_insertAll (h : WeakOn less P) (hl : ∀ a ∈ l, P a) :
    SortedFrom less P l (insertAll less [] l) :=
  (sortedFrom_self .nil : SortedFrom less P [] []).insertAll h (List.forall_mem_nil _) hl

theorem sortedFrom_sortHalf (h : WeakOn less P) (byFours : Bool) (hl : ∀ a ∈ l, P a) :
    SortedFrom less P l (sortHalf less byFours l) := by
  unfold sortHalf
  split
  · next a b c d l =>
    split
    · simp only [List.forall_mem_cons] at hl
      obtain ⟨ha, hb, hc, hd, hl⟩ := hl
      exact (sortedFrom_sortFour h ha hb hc hd).insertAll h (by simp [ha, hb, hc, hd]) hl
    · exact sortedFrom_insertAll h hl
  · exact sortedFrom_insertAll h hl

theorem smallSort_perm (hm : smallSort less l = some m) : m.Perm l := by
  unfold smallSort at hm
  split at hm
  · exact .of_eq (Option.some.inj hm).symm
  · refine (mergeEnds_perm hm).trans ?_
    refine ((sortHalf_perm _ _).append (sortHalf_perm _ _)).trans (.of_eq ?_)
    exact List.take_append_drop ..

/-- **Small lists are sorted**, by a weak order. -/
theorem sortedFrom_smallSort (h : WeakOn less P) (hl : ∀ a ∈ l, P a) :
    ∃ m, smallSort less l = some m ∧ SortedFrom less P l m := by
  unfold smallSort
  split
  · next hshort =>
    refine ⟨l, rfl, sortedFrom_self ?_⟩
    match l, hshort with
    | [], _ => exact .nil
    | [_], _ => exact List.pairwise_singleton ..
  · have htake : ∀ a ∈ l.take (l.length / 2), P a := fun a ha => hl a (List.mem_of_mem_take ha)
    have hdrop : ∀ a ∈ l.drop (l.length / 2), P a := fun a ha => hl a (List.mem_of_mem_drop ha)
    have hs := sortedFrom_sortHalf h (8 ≤ l.length) htake
    have hs' := sortedFrom_sortHalf h (8 ≤ l.length) hdrop
    have hlength := hs.perm.length_eq
    have hlength' := hs'.perm.length_eq
    rw [List.length_take] at hlength
    rw [List.length_drop] at hlength'
    refine ⟨_, mergeEnds_eq_merge h (hs.mem htake) (hs'.mem hdrop) hs.ordered hs'.ordered
      (by omega) (by omega), ?_⟩
    have hmerge := hs.merge_front h htake hdrop hs'
    rwa [List.take_append_drop] at hmerge

end Tabular.Sorting
