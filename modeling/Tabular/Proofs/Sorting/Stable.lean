import Tabular.Proofs.Sorting.Small

/-!
What the sort gives.

By a weak order on the items of a list the sort gives what the library's stable sort gives
(`stableSort_eq_mergeSort`); by any other comparison it gives up or rearranges the items
(`stableSort_perm`), and it does not give up on a list of at most twenty (`stableSort_of_short`).

The sort is gone through once for both. A `Contract` says of the smallest steps how a result may
come out of a list, and whether they may give up; then the same holds of the whole sort
(`Contract.stableSort`).
-/

namespace Tabular.Sorting

variable {α β : Type} {less : α → α → Bool} {P : α → Prop} {l l' m m' : List α} {n : Nat}

/-! ### Results that may be missing -/

/-- A result has a property, or it is missing where that may be. -/
def Yields (mayFail : Prop) (Q : β → Prop) : Option β → Prop
  | some b => Q b
  | none => mayFail

theorem Yields.bind {γ : Type} {mayFail : Prop} {Q : β → Prop} {Q' : γ → Prop} {x : Option β}
    {k : β → Option γ} (hx : Yields mayFail Q x) (hk : ∀ b, Q b → Yields mayFail Q' (k b)) :
    Yields mayFail Q' (x >>= k) := by
  cases x with
  | none => exact hx
  | some b => exact hk b hx

/-- How the smallest steps of the sort deal with the items of a class: `R l m` where `m` may come
out of `l`. -/
structure Contract (less : α → α → Bool) (P : α → Prop) (mayFail : Prop)
    (R : List α → List α → Prop) : Prop where
  perm : ∀ {l m}, R l m → m.Perm l
  insertAll : ∀ {l}, (∀ a ∈ l, P a) → R l (insertAll less [] l)
  smallSort : ∀ {l}, (∀ a ∈ l, P a) → Yields mayFail (R l) (smallSort less l)
  takeOrdered : ∀ {l}, (∀ a ∈ l, P a) →
    ∃ source, source ++ (takeOrdered less l).2 = l ∧ R source (takeOrdered less l).1
  merge : ∀ {l l' m m'}, (∀ a ∈ l, P a) → (∀ a ∈ l', P a) → R l m → R l' m' →
    R (l ++ l') (merge less m m')
  /-- A list is sorted by the items that are less than a pivot and then the others. -/
  partition : ∀ {l m m' pivot}, (∀ a ∈ l, P a) → P pivot → R (l.filter (less · pivot)) m →
    R (l.filter (inOrder less pivot)) m' → R l (m ++ m')
  /-- In a list without items that are less than the pivot, those that the pivot is not less than
  come first. -/
  settle : ∀ {l m pivot b}, (∀ a ∈ l, P a) → P pivot → P b → inOrder less pivot b = true →
    (∀ a ∈ l, inOrder less b a = true) → R (l.filter (less pivot)) m →
      R l (l.filter (inOrder less · pivot) ++ m)

/-- By any comparison, the steps rearrange items or give up. -/
theorem contract_perm (less : α → α → Bool) :
    Contract less (fun _ => True) True fun l m => m.Perm l where
  perm h := h
  insertAll _ := insertAll_perm _ []
  smallSort := by
    intro l _
    cases hm : Sorting.smallSort less l with
    | none => trivial
    | some m => exact smallSort_perm hm
  takeOrdered _ := takeOrdered_perm less _
  merge _ _ h h' := (merge_perm _ _).trans (h.append h')
  partition _ _ h h' := (h.append h').trans (List.filter_append_perm _ _)
  settle := by
    intro l m pivot b _ _ _ _ _ h
    have hrest : l.filter (less pivot) = l.filter (!inOrder less · pivot) :=
      List.filter_congr fun a _ => by simp [inOrder]
    exact ((hrest ▸ h).append_left _).trans (List.filter_append_perm _ l)

/-- By a weak order, the steps sort, and never give up. -/
theorem contract_sortedFrom (h : WeakOn less P) : Contract less P False (SortedFrom less P) where
  perm hs := hs.perm
  insertAll := sortedFrom_insertAll h
  smallSort hl := by
    obtain ⟨m, hm, hs⟩ := sortedFrom_smallSort h hl
    rw [hm]
    exact hs
  takeOrdered := sortedFrom_takeOrdered h
  merge := SortedFrom.merge h
  partition := by
    intro l m m' pivot hl hpivot hs hs'
    refine hs.partition h hl (fun a _ => rfl) (fun a ha b hb hlow hhigh => ?_) hs'
    exact h.less_of_less_of_inOrder (hl a ha) hpivot (hl b hb) hlow hhigh
  settle := by
    intro l m pivot b hl hpivot hb hbound hleast hs
    -- all that is not greater than the pivot is like the pivot
    have hlow (a : α) (ha : a ∈ l) : inOrder less pivot a = true :=
      h.trans hpivot hb (hl a ha) hbound (hleast a ha)
    have hordered : Ordered less (l.filter (inOrder less · pivot)) :=
      List.pairwise_of_forall_mem_list fun a ha c hc => by
        obtain ⟨ha, hap⟩ := List.mem_filter.1 ha
        obtain ⟨hc, -⟩ := List.mem_filter.1 hc
        exact h.trans (hl a ha) hpivot (hl c hc) hap (hlow c hc)
    refine (sortedFrom_self hordered).partition h hl (fun a _ => by simp [inOrder]) ?_ hs
    exact fun a ha c hc hap hpc => h.less_of_inOrder_of_less (hl a ha) hpivot (hl c hc) hap hpc

/-! ### Runs -/

/-- A run holds the items of a part of a list: as they come out of it if it is sorted, else as they
are. -/
structure Run.From (R : List α → List α → Prop) (run : Run α) (source : List α) : Prop where
  of_sorted : run.sorted = true → R source run.items
  of_not_sorted : run.sorted = false → run.items = source

/-- Runs hold the items of the parts of a list, one after another. -/
inductive RunsFrom (R : List α → List α → Prop) : List (Run α) → List α → Prop
  | nil : RunsFrom R [] []
  | cons {run source runs l} : run.From R source → RunsFrom R runs l →
      RunsFrom R (run :: runs) (source ++ l)

theorem RunsFrom.of_append {R : List α → List α → Prop} {runs runs' : List (Run α)}
    (h : RunsFrom R (runs ++ runs') l) :
    ∃ l₁ l₂, l = l₁ ++ l₂ ∧ RunsFrom R runs l₁ ∧ RunsFrom R runs' l₂ := by
  induction runs generalizing l with
  | nil => exact ⟨[], l, rfl, .nil, h⟩
  | cons run runs ih =>
    cases h with
    | cons hrun htail =>
      obtain ⟨l₁, l₂, rfl, h₁, h₂⟩ := ih htail
      exact ⟨_, l₂, (List.append_assoc ..).symm, .cons hrun h₁, h₂⟩

/-- The runs of a tree, from left to right. -/
def MergeTree.leaves : MergeTree α → List (Run α)
  | .run r => [r]
  | .node left right => left.leaves ++ right.leaves

/-- The runs of a stack of trees, from the lowest tree to the topmost. -/
def stackLeaves : List (MergeTree α × Nat) → List (Run α)
  | [] => []
  | (tree, _) :: stack => stackLeaves stack ++ tree.leaves

theorem stackLeaves_collapse (depth : Nat) (stack : List (MergeTree α × Nat)) (tree : MergeTree α) :
    stackLeaves (collapse depth stack tree).1 ++ (collapse depth stack tree).2.leaves =
      stackLeaves stack ++ tree.leaves := by
  induction stack generalizing tree with
  | nil => rfl
  | cons top stack ih =>
    unfold collapse
    split
    · rw [ih, stackLeaves, MergeTree.leaves, List.append_assoc]
    · rfl

theorem collapse_zero (stack : List (MergeTree α × Nat)) (tree : MergeTree α) :
    (collapse 0 stack tree).1 = [] := by
  induction stack generalizing tree with
  | nil => rfl
  | cons top stack ih =>
    rw [collapse, if_pos (Nat.zero_le _)]
    exact ih _

/-- A tree has the runs for which it is made, in their order. -/
theorem leaves_schedule (n place : Nat) (stack : List (MergeTree α × Nat)) (run : Run α)
    (runs : List (Run α)) :
    (schedule n place stack run runs).leaves = stackLeaves stack ++ run :: runs := by
  induction runs generalizing place stack run with
  | nil =>
    have hleaves := stackLeaves_collapse 0 stack (.run run)
    rwa [collapse_zero, stackLeaves, List.nil_append] at hleaves
  | cons next runs ih =>
    rw [schedule, ih, stackLeaves, stackLeaves_collapse, MergeTree.leaves, List.append_assoc,
      List.singleton_append]

/-- Some items are enough for a run. -/
theorem enoughFor_pos (h : 0 < n) : 0 < enoughFor n := by
  unfold enoughFor
  split
  · omega
  · next hlong =>
    have hlog : 1 ≤ n.log2 := (Nat.le_log2 (by omega)).2 (by omega)
    have hshift : 2 ^ 1 ≤ 2 ^ ((1 + n.log2) / 2) := Nat.pow_le_pow_right (by omega) (by omega)
    exact Nat.div_pos (hshift.trans (Nat.le_add_right _ _)) (by omega)

/-- A list that is not empty has a median, which is one of its items. -/
theorem exists_pseudoMedian (less : α → α → Bool) (h : l ≠ []) :
    ∃ a ∈ l, pseudoMedian less l = some a := by
  fun_induction pseudoMedian less l with
  | case1 l n hn => exact ⟨l.head h, List.head_mem h, List.head?_eq_some_head h⟩
  | case2 l n hn ih₁ ih₂ ih₃ =>
    have hpart (k : Nat) (hk : k < 8) : (l.drop (k * n)).take n ≠ [] := by
      refine List.ne_nil_of_length_pos ?_
      have hn' : l.length / 8 * 8 ≤ l.length := Nat.div_mul_le_self ..
      have hk' : k * n + n ≤ n * 8 := by rw [← Nat.succ_mul, Nat.mul_comm n]; gcongr; omega
      rw [List.length_take, List.length_drop]
      omega
    obtain ⟨a, ha, heq₁⟩ := ih₁ (by simpa using hpart 0 (by omega))
    obtain ⟨b, hb, heq₂⟩ := ih₂ (hpart 4 (by omega))
    obtain ⟨c, hc, heq₃⟩ := ih₃ (hpart 7 (by omega))
    refine ⟨medianOfThree less a b c, ?_, by simp [heq₁, heq₂, heq₃]⟩
    have hb := List.mem_of_mem_drop (List.mem_of_mem_take hb)
    have hc := List.mem_of_mem_drop (List.mem_of_mem_take hc)
    unfold medianOfThree
    split <;> [split; skip]
    exacts [hb, hc, List.mem_of_mem_take ha]

namespace Contract

variable {mayFail : Prop} {R : List α → List α → Prop} (c : Contract less P mayFail R)
include c

theorem takeRun (eager : Bool) (hn : 0 < n) (hl : ∀ a ∈ l, P a) (hne : l ≠ []) :
    Yields mayFail (fun (taken : Run α × List α) => ∃ source, source ++ taken.2 = l ∧
      taken.1.From R source ∧ taken.2.length < l.length) (takeRun less eager n l) := by
  have hpos : 0 < l.length := List.length_pos_iff.2 hne
  obtain ⟨source, hsource, hordered⟩ := c.takeOrdered hl
  unfold Sorting.takeRun
  dsimp only
  split
  · next henough =>
    refine ⟨source, hsource, ⟨fun _ => hordered, fun hfalse => Bool.noConfusion hfalse⟩, ?_⟩
    have hlength := congrArg List.length hsource
    rw [List.length_append, ← (c.perm hordered).length_eq] at hlength
    dsimp only
    omega
  split
  · refine (c.smallSort fun a ha => hl a (List.mem_of_mem_take ha)).bind fun m hm => ?_
    refine ⟨l.take smallLength, List.take_append_drop .., ⟨fun _ => hm, ?_⟩, ?_⟩
    · exact fun hfalse => Bool.noConfusion hfalse
    · simp only [List.length_drop, smallLength]
      omega
  · refine ⟨l.take n, List.take_append_drop .., ⟨fun htrue => Bool.noConfusion htrue, ?_⟩, ?_⟩
    · exact fun _ => rfl
    · simp only [List.length_drop]
      omega

theorem runsWithin (eager : Bool) (hn : 0 < n) {fuel : List α} (hl : ∀ a ∈ l, P a)
    (hfuel : l.length ≤ fuel.length) :
    Yields mayFail (fun runs => RunsFrom R runs l) (runsWithin less eager n fuel l) := by
  induction fuel generalizing l with
  | nil =>
    obtain rfl := List.length_eq_zero_iff.1 (Nat.le_zero.1 hfuel)
    exact .nil
  | cons _ fuel ih =>
    cases l with
    | nil => exact .nil
    | cons a l =>
      refine (c.takeRun eager hn hl (List.cons_ne_nil a l)).bind fun taken htaken => ?_
      obtain ⟨source, hsource, hrun, hlt⟩ := htaken
      rw [← hsource] at hl
      simp only [List.length_cons] at hlt hfuel
      refine (ih (List.forall_mem_append.1 hl).2 (by omega)).bind fun runs hruns => ?_
      rw [← hsource]
      exact .cons hrun hruns

section Runs

variable {sortLater : List α → Option (List α)}
  (hsort : ∀ l, (∀ a ∈ l, P a) → Yields mayFail (R l) (sortLater l))
include hsort

omit c in
theorem sortRun {run : Run α} {source : List α} (hsource : ∀ a ∈ source, P a)
    (hrun : run.From R source) : Yields mayFail (R source) (run.sort sortLater) := by
  unfold Run.sort
  split
  · next hsorted => exact hrun.of_sorted hsorted
  · next hsorted =>
    rw [hrun.of_not_sorted (Bool.not_eq_true _ ▸ hsorted)]
    exact hsort source hsource

theorem mergeRuns (room : Nat) {left right : Run α} (hl : ∀ a ∈ l, P a) (hl' : ∀ a ∈ l', P a)
    (hleft : left.From R l) (hright : right.From R l') :
    Yields mayFail (fun run => run.From R (l ++ l'))
      (mergeRuns less sortLater room left right) := by
  unfold Sorting.mergeRuns
  split
  · next hunsorted =>
    obtain ⟨-, hleft', hright'⟩ := hunsorted
    refine ⟨fun htrue => Bool.noConfusion htrue, fun _ => ?_⟩
    rw [hleft.of_not_sorted (by simpa using hleft'), hright.of_not_sorted (by simpa using hright')]
  · refine (sortRun hsort hl hleft).bind fun m hm => ?_
    refine (sortRun hsort hl' hright).bind fun m' hm' => ?_
    exact ⟨fun _ => c.merge hl hl' hm hm', fun hfalse => Bool.noConfusion hfalse⟩

theorem evaluate (room : Nat) {tree : MergeTree α} (hl : ∀ a ∈ l, P a)
    (hruns : RunsFrom R tree.leaves l) :
    Yields mayFail (fun run => run.From R l) (tree.evaluate less sortLater room) := by
  induction tree generalizing l with
  | run r =>
    cases hruns with
    | cons hrun htail =>
      cases htail
      rwa [List.append_nil]
  | node left right ihleft ihright =>
    obtain ⟨l₁, l₂, rfl, h₁, h₂⟩ := hruns.of_append
    obtain ⟨hl₁, hl₂⟩ := List.forall_mem_append.1 hl
    refine (ihleft hl₁ h₁).bind fun run hrun => (ihright hl₂ h₂).bind fun run' hrun' => ?_
    exact c.mergeRuns hsort room hl₁ hl₂ hrun hrun'

theorem sortRuns (eager : Bool) (hl : ∀ a ∈ l, P a) :
    Yields mayFail (R l) (sortRuns less sortLater eager l) := by
  have hnil : R [] [] := c.insertAll (List.forall_mem_nil _)
  match l, hl with
  | [], _ => exact hnil
  | a :: l, hl =>
    refine (c.runsWithin eager (enoughFor_pos (Nat.succ_pos _)) hl le_rfl).bind fun runs hruns => ?_
    cases runs with
    | nil =>
      generalize a :: l = l at hruns
      cases hruns
      exact hnil
    | cons first rest =>
      have hleaves := leaves_schedule (a :: l).length first.items.length [] first rest
      rw [stackLeaves, List.nil_append] at hleaves
      refine (c.evaluate hsort _ hl (hleaves ▸ hruns)).bind fun run hrun => ?_
      exact sortRun hsort hl hrun

end Runs

/-! ### Quicksort -/

theorem quicksort (limit : Nat) {bound : Option α} (hl : ∀ a ∈ l, P a)
    (hbound : ∀ b ∈ bound, P b ∧ ∀ a ∈ l, inOrder less b a = true) :
    Yields mayFail (R l) (quicksort less limit bound l) := by
  induction limit generalizing l bound with
  | zero =>
    unfold Sorting.quicksort
    split
    · exact c.smallSort hl
    · exact c.sortRuns (fun _ => c.smallSort) true hl
  | succ limit ih =>
    unfold Sorting.quicksort
    split
    · exact c.smallSort hl
    next hlong =>
    obtain ⟨pivot, hmem, hpivot⟩ := exists_pseudoMedian less (l := l)
      (List.ne_nil_of_length_pos (by omega))
    have hfilter (p : α → Bool) : ∀ a ∈ l.filter p, P a :=
      fun a ha => hl a (List.mem_filter.1 ha).1
    rw [hpivot, Option.bind_eq_bind, Option.bind_some]
    dsimp only
    split
    · next hsettled =>
      -- nothing in the list is less than the bound, or than the pivot itself
      obtain ⟨b, hb, hpb, hleast⟩ : ∃ b, P b ∧ inOrder less pivot b = true ∧
          ∀ a ∈ l, inOrder less b a = true := by
        rcases Bool.or_eq_true_iff.1 hsettled with hany | hempty
        · obtain ⟨b, hb, hpb⟩ := (Option.any_eq_true _ _).1 hany
          exact ⟨b, (hbound b hb).1, hpb, (hbound b hb).2⟩
        · have hnone := List.filter_eq_nil_iff.1 (List.isEmpty_iff.1 hempty)
          have hleast (a : α) (ha : a ∈ l) : inOrder less pivot a = true :=
            inOrder_eq_true.2 (Bool.not_eq_true _ ▸ hnone a ha)
          exact ⟨pivot, hl pivot hmem, hleast pivot hmem, hleast⟩
      refine (ih (hfilter _) (by simp)).bind fun m hm => ?_
      exact c.settle hl (hl pivot hmem) hb hpb hleast hm
    · refine (ih (hfilter _) ?_).bind fun high hhigh => ?_
      · rintro b ⟨⟩
        exact ⟨hl pivot hmem, fun a ha => (List.mem_filter.1 ha).2⟩
      refine (ih (hfilter _) ?_).bind fun low hlow => ?_
      · exact fun b hb => ⟨(hbound b hb).1, fun a ha =>
          (hbound b hb).2 a (List.mem_filter.1 ha).1⟩
      exact c.partition hl (hl pivot hmem) hlow hhigh

/-- A contract that the smallest steps keep is kept by the sort. -/
theorem stableSort (hl : ∀ a ∈ l, P a) : Yields mayFail (R l) (stableSort less l) := by
  unfold Sorting.stableSort
  split
  · exact c.insertAll hl
  · exact c.sortRuns (fun m hm => c.quicksort _ hm (by simp)) _ hl

end Contract

/-! ### The sort -/

/-- **A sort rearranges the items**, by any comparison, or gives up. -/
theorem stableSort_perm (hm : stableSort less l = some m) : m.Perm l := by
  have h := (contract_perm less).stableSort (l := l) fun _ _ => trivial
  rwa [hm] at h

/-- **By a weak order the sort sorts**, and does not give up. -/
theorem sortedFrom_stableSort (h : WeakOn less (· ∈ l)) :
    ∃ m, stableSort less l = some m ∧ SortedFrom less (· ∈ l) l m := by
  have hsorted := (contract_sortedFrom h).stableSort fun _ ha => ha
  cases hm : stableSort less l with
  | none =>
    rw [hm] at hsorted
    exact hsorted.elim
  | some m =>
    rw [hm] at hsorted
    exact ⟨m, rfl, hsorted⟩

/-- By a weak order the sort is the library's stable sort. -/
theorem stableSort_eq_mergeSort (h : WeakOn less (· ∈ l)) :
    stableSort less l = some (l.mergeSort (inOrder less)) := by
  obtain ⟨m, hm, hsorted⟩ := sortedFrom_stableSort h
  rw [hm, hsorted.eq_mergeSort h fun _ ha => ha]

/-- Up to twenty items are sorted by any comparison. -/
theorem stableSort_of_short (h : l.length ≤ 20) : stableSort less l = some (insertAll less [] l) :=
  if_pos h

end Tabular.Sorting
