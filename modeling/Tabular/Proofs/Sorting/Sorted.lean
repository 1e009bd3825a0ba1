import Mathlib.Data.List.DropRight
import Tabular.Sorting

/-!
What a stable sort has to give.

`SortedFrom less P l m` says that `m` has the items of `l` in order, and those that are alike in the
order in which they were. Where the comparison is a weak order on the items, this determines `m`
(`SortedFrom.eq_mergeSort`), so that a way of sorting is right as soon as its result is
`SortedFrom`. A column holds cells that are in order beside cells that are not, so a weak order is
one on the items of a class `P` only.
-/

namespace Tabular.Sorting

variable {α : Type} {less : α → α → Bool} {P : α → Prop} {l l' m m' : List α} {a b c : α}

/-! ### Weak orders -/

/-- A comparison that is a weak order on the items of a class. -/
structure WeakOn (less : α → α → Bool) (P : α → Prop) : Prop where
  asymm : ∀ {a b}, P a → P b → less a b = true → less b a = false
  trans : ∀ {a b c}, P a → P b → P c →
    inOrder less a b = true → inOrder less b c = true → inOrder less a c = true

@[simp] theorem inOrder_eq_true : inOrder less a b = true ↔ less b a = false := by
  simp [inOrder]

@[simp] theorem inOrder_eq_false : inOrder less a b = false ↔ less b a = true := by
  simp [inOrder]

/-- Whether two items may stand in either order. -/
def alike (less : α → α → Bool) (a b : α) : Bool := inOrder less a b && inOrder less b a

namespace WeakOn

variable (h : WeakOn less P)
include h

theorem refl (ha : P a) : inOrder less a a = true := by
  cases haa : less a a
  · exact inOrder_eq_true.2 haa
  · exact absurd haa (by simp [h.asymm ha ha haa])

theorem of_less (ha : P a) (hb : P b) (hab : less a b = true) : inOrder less a b = true :=
  inOrder_eq_true.2 (h.asymm ha hb hab)

theorem less_of_less_of_inOrder (ha : P a) (hb : P b) (hc : P c) (hab : less a b = true)
    (hbc : inOrder less b c = true) : less a c = true := by
  by_contra hac
  have hca : inOrder less c a = true := inOrder_eq_true.2 (Bool.eq_false_iff.2 hac)
  have hba := inOrder_eq_true.1 (h.trans hb hc ha hbc hca)
  exact absurd hab (by simp [hba])

theorem less_of_inOrder_of_less (ha : P a) (hb : P b) (hc : P c) (hab : inOrder less a b = true)
    (hbc : less b c = true) : less a c = true := by
  by_contra hac
  have hca : inOrder less c a = true := inOrder_eq_true.2 (Bool.eq_false_iff.2 hac)
  have hcb := inOrder_eq_true.1 (h.trans hc ha hb hca hab)
  exact absurd hbc (by simp [hcb])

theorem inOrder_of_alike (ha : P a) (hb : P b) (hc : P c) (hca : alike less c a = true)
    (hcb : alike less c b = true) : inOrder less a b = true := by
  simp only [alike, Bool.and_eq_true] at hca hcb
  exact h.trans ha hc hb hca.2 hcb.1

/-- Of two items of which one is less than the other, at most one is like a third. -/
theorem not_alike_of_less (ha : P a) (hb : P b) (hc : P c) (hab : less a b = true)
    (hca : alike less c a = true) : alike less c b = false := by
  by_contra hcb
  have hba := inOrder_eq_true.1 (h.inOrder_of_alike hb ha hc (Bool.not_eq_false _ ▸ hcb) hca)
  exact absurd hab (by simp [hba])

end WeakOn

/-! ### Sorted lists -/

/-- The items of a list stand in order. -/
def Ordered (less : α → α → Bool) (l : List α) : Prop :=
  l.Pairwise fun a b => inOrder less a b = true

/-- A list has the items of another one in order, and those that are alike as they were. -/
structure SortedFrom (less : α → α → Bool) (P : α → Prop) (l m : List α) : Prop where
  perm : m.Perm l
  ordered : Ordered less m
  stable : ∀ c, P c → m.filter (alike less c) = l.filter (alike less c)

theorem SortedFrom.mem (h : SortedFrom less P l m) (hl : ∀ a ∈ l, P a) : ∀ a ∈ m, P a :=
  fun a ha => hl a (h.perm.subset ha)

theorem sortedFrom_self (h : Ordered less l) : SortedFrom less P l l :=
  ⟨.refl l, h, fun _ _ => rfl⟩

/-- Two lists in order with the same items are equal if the items that are alike come in the same
order. -/
theorem eq_of_ordered (h : WeakOn less P) (hm : ∀ a ∈ m, P a) (perm : m.Perm m')
    (ordered : Ordered less m) (ordered' : Ordered less m')
    (stable : ∀ c, P c → m.filter (alike less c) = m'.filter (alike less c)) : m = m' := by
  induction m generalizing m' with
  | nil => exact (List.nil_perm.1 perm).symm
  | cons a m ih =>
    cases m' with
    | nil => exact List.perm_nil.1 perm
    | cons b m' =>
      have ha : P a := hm a List.mem_cons_self
      have hb : P b := hm b (perm.symm.subset List.mem_cons_self)
      have hab : inOrder less a b = true := by
        rcases List.mem_cons.1 (perm.symm.subset (List.mem_cons_self (a := b))) with rfl | hmem
        · exact h.refl ha
        · exact (List.pairwise_cons.1 ordered).1 b hmem
      have hba : inOrder less b a = true := by
        rcases List.mem_cons.1 (perm.subset (List.mem_cons_self (a := a))) with rfl | hmem
        · exact h.refl ha
        · exact (List.pairwise_cons.1 ordered').1 a hmem
      -- the first items are alike, so they are first among those that are like them
      have hfirst := stable a ha
      rw [List.filter_cons_of_pos (by simp [alike, h.refl ha]),
        List.filter_cons_of_pos (by simp [alike, hab, hba])] at hfirst
      obtain ⟨rfl, -⟩ := List.cons.inj hfirst
      congr 1
      refine ih (fun x hx => hm x (List.mem_cons_of_mem a hx)) perm.cons_inv
        (List.pairwise_cons.1 ordered).2 (List.pairwise_cons.1 ordered').2 fun c hc => ?_
      have hfilter := stable c hc
      cases hca : alike less c a
      · rwa [List.filter_cons_of_neg (by simp [hca]), List.filter_cons_of_neg (by simp [hca])]
          at hfilter
      · rw [List.filter_cons_of_pos hca, List.filter_cons_of_pos hca] at hfilter
        exact (List.cons.inj hfilter).2

/-- A list is sorted as the list of its members is. -/
theorem map_mergeSort_attach {le : α → α → Bool} :
    (l.attach.mergeSort fun a b => le a.1 b.1).map Subtype.val = l.mergeSort le := by
  rw [List.map_mergeSort (s := le) fun _ _ _ _ => rfl, List.attach_map_subtype_val]

/-- The library's sort by a weak order. -/
theorem sortedFrom_mergeSort (h : WeakOn less P) (hl : ∀ a ∈ l, P a) :
    SortedFrom less P l (l.mergeSort (inOrder less)) := by
  have trans (a b c : {a // a ∈ l}) := h.trans (hl a a.2) (hl b b.2) (hl c c.2)
  have total (a b : {a // a ∈ l}) : (inOrder less a b || inOrder less b a) = true := by
    cases hab : less a.1 b.1
    · simp [hab]
    · simp [h.asymm (hl a a.2) (hl b b.2) hab]
  have hperm := List.mergeSort_perm l (inOrder less)
  refine ⟨hperm, ?_, fun c hc => ?_⟩
  · rw [Ordered, ← map_mergeSort_attach, List.pairwise_map]
    exact List.pairwise_mergeSort trans total l.attach
  · -- items that are alike may stand in any order, so in the one that they have
    have hkept : (l.filter (alike less c)).Sublist (l.mergeSort (inOrder less)) := by
      have hsub : (l.filter (alike less c)).Sublist (l.attach.map Subtype.val) := by
        rw [List.attach_map_subtype_val]
        exact List.filter_sublist
      obtain ⟨kept, hkept, hmap⟩ := List.sublist_map_iff.1 hsub
      rw [hmap, ← map_mergeSort_attach]
      refine (List.sublist_mergeSort trans total ?_ hkept).map Subtype.val
      refine List.pairwise_of_forall_mem_list fun a ha b hb => ?_
      have hlike (x : {a // a ∈ l}) (hx : x ∈ kept) : alike less c x = true :=
        (List.mem_filter.1 (hmap ▸ List.mem_map_of_mem hx)).2
      exact h.inOrder_of_alike (hl a a.2) (hl b b.2) hc (hlike a ha) (hlike b hb)
    have hsub := hkept.filter (alike less c)
    rw [List.filter_filter, List.filter_congr fun a _ => Bool.and_self (alike less c a)] at hsub
    exact (hsub.eq_of_length (hperm.filter _).length_eq.symm).symm

/-- A stable sort by a weak order has one result. -/
theorem SortedFrom.eq_mergeSort (h : WeakOn less P) (hl : ∀ a ∈ l, P a)
    (hm : SortedFrom less P l m) : m = l.mergeSort (inOrder less) := by
  have hs := sortedFrom_mergeSort h hl
  exact eq_of_ordered h (hm.mem hl) (hm.perm.trans hs.perm.symm) hm.ordered hs.ordered
    fun c hc => (hm.stable c hc).trans (hs.stable c hc).symm

/-! ### Insertion -/

theorem insertBack_eq (l : List α) (a : α) :
    insertBack less l a = l.rdropWhile (less a) ++ a :: l.rtakeWhile (less a) := rfl

theorem insertBack_perm (l : List α) (a : α) : (insertBack less l a).Perm (l ++ [a]) := by
  rw [insertBack_eq]
  refine List.perm_middle.trans (.trans (.cons a ?_) (List.perm_append_singleton a l).symm)
  rw [List.rdropWhile_append_rtakeWhile]

/-- Everything that stays in front of an inserted item is in order with it. -/
theorem inOrder_of_mem_rdropWhile (h : WeakOn less P) (hm : ∀ a ∈ m, P a) (ha : P a)
    (ordered : Ordered less m) (hb : b ∈ m.rdropWhile (less a)) : inOrder less b a = true := by
  have hne : m.rdropWhile (less a) ≠ [] := List.ne_nil_of_mem hb
  have hsub := (List.rdropWhile_prefix (less a) (l := m)).sublist
  have hlast : inOrder less ((m.rdropWhile (less a)).getLast hne) a = true :=
    inOrder_eq_true.2 (Bool.not_eq_true _ ▸ List.rdropWhile_last_not (less a) m hne)
  have hordered : Ordered less (m.rdropWhile (less a)) := ordered.sublist hsub
  rw [← List.dropLast_append_getLast hne] at hb hordered
  rcases List.mem_append.1 hb with hfront | hlast'
  · have hmem := hsub.subset (List.getLast_mem hne)
    refine h.trans (hm b (hsub.subset (List.dropLast_subset _ hfront))) (hm _ hmem) ha ?_ hlast
    exact (List.pairwise_append.1 hordered).2.2 b hfront _ (List.mem_singleton_self _)
  · rwa [List.mem_singleton.1 hlast']

theorem SortedFrom.insertBack (h : WeakOn less P) (hm : ∀ a ∈ m, P a) (ha : P a)
    (hs : SortedFrom less P l m) : SortedFrom less P (l ++ [a]) (insertBack less m a) := by
  have hsplit : m.rdropWhile (less a) ++ m.rtakeWhile (less a) = m :=
    List.rdropWhile_append_rtakeWhile
  have hfront : ∀ b ∈ m.rdropWhile (less a), inOrder less b a = true :=
    fun b => inOrder_of_mem_rdropWhile h hm ha hs.ordered
  have hback : ∀ b ∈ m.rtakeWhile (less a), less a b = true := fun b => List.mem_rtakeWhile_imp
  have hback_mem : ∀ b ∈ m.rtakeWhile (less a), P b :=
    fun b hb => hm b ((List.rtakeWhile_suffix (less a) m).subset hb)
  refine ⟨(insertBack_perm m a).trans (hs.perm.append_right [a]), ?_, fun c hc => ?_⟩
  · rw [insertBack_eq]
    have hordered := hs.ordered
    rw [Ordered, ← hsplit, List.pairwise_append] at hordered
    obtain ⟨hfront', hback', hacross⟩ := hordered
    refine List.pairwise_append.2 ⟨hfront', List.pairwise_cons.2 ⟨?_, hback'⟩, ?_⟩
    · exact fun b hb => h.of_less ha (hback_mem b hb) (hback b hb)
    · intro b hb d hd
      rcases List.mem_cons.1 hd with rfl | hd
      · exact hfront b hb
      · exact hacross b hb d hd
  · have hm := hs.stable c hc
    rw [← hsplit, List.filter_append] at hm
    rw [insertBack_eq, List.filter_append, List.filter_append, ← hm, List.append_assoc]
    congr 1
    cases hca : alike less c a
    · simp [hca]
    · -- what stands behind the item is greater, so not like it
      have hnone : (m.rtakeWhile (less a)).filter (alike less c) = [] :=
        List.filter_eq_nil_iff.2 fun b hb => Bool.eq_false_iff.1
          (h.not_alike_of_less ha (hback_mem b hb) hc (hback b hb) hca)
      simp [hca, hnone]

theorem insertAll_perm (l m : List α) : (insertAll less m l).Perm (m ++ l) := by
  induction l generalizing m with
  | nil => simp [insertAll]
  | cons a l ih =>
    refine (ih (Sorting.insertBack less m a)).trans ?_
    rw [List.append_cons]
    exact (insertBack_perm m a).append_right l

theorem SortedFrom.insertAll (h : WeakOn less P) (hl : ∀ a ∈ l, P a) (hl' : ∀ a ∈ l', P a)
    (hs : SortedFrom less P l m) : SortedFrom less P (l ++ l') (insertAll less m l') := by
  induction l' generalizing l m with
  | nil => rwa [List.append_nil]
  | cons a l' ih =>
    obtain ⟨ha, hl'⟩ := List.forall_mem_cons.1 hl'
    have hinsert := hs.insertBack h (hs.mem hl) ha
    rw [List.append_cons]
    refine ih ?_ hl' hinsert
    exact List.forall_mem_append.2 ⟨hl, List.forall_mem_singleton.2 ha⟩

/-! ### Merging -/

/-- Merging keeps the order of the items that are alike. -/
theorem filter_merge (h : WeakOn less P) (hc : P c) (hm : ∀ a ∈ m, P a) (hm' : ∀ a ∈ m', P a)
    (ordered : Ordered less m) :
    (m.merge m' (inOrder less)).filter (alike less c) =
      m.filter (alike less c) ++ m'.filter (alike less c) := by
  induction m generalizing m' with
  | nil => simp
  | cons a m ih =>
    induction m' with
    | nil => simp
    | cons b m' ih' =>
      obtain ⟨ha, hmem⟩ := List.forall_mem_cons.1 hm
      obtain ⟨hb, hmem'⟩ := List.forall_mem_cons.1 hm'
      obtain ⟨hfirst, htail⟩ := List.pairwise_cons.1 ordered
      rw [List.cons_merge_cons]
      split
      · rw [List.filter_cons, ih hmem hm' htail, List.filter_cons (x := a)]
        split <;> rfl
      · next hba =>
        -- the item of the second list is less than all of the first one
        rw [List.filter_cons, ih' hmem', List.filter_cons (x := b)]
        split
        · next hcb =>
          have hless : less b a = true := inOrder_eq_false.1 (Bool.not_eq_true _ ▸ hba)
          have hnone : (a :: m).filter (alike less c) = [] := by
            refine List.filter_eq_nil_iff.2 fun x hx => Bool.eq_false_iff.1 ?_
            refine h.not_alike_of_less hb (hm x hx) hc ?_ hcb
            rcases List.mem_cons.1 hx with rfl | hx
            · exact hless
            · exact h.less_of_less_of_inOrder hb ha (hmem x hx) hless (hfirst x hx)
          rw [hnone]
          rfl
        · rfl

theorem Ordered.merge (h : WeakOn less P) (hm : ∀ a ∈ m, P a) (hm' : ∀ a ∈ m', P a)
    (ordered : Ordered less m) (ordered' : Ordered less m') :
    Ordered less (m.merge m' (inOrder less)) := by
  induction m generalizing m' with
  | nil => simpa using ordered'
  | cons a m ih =>
    induction m' with
    | nil => simpa using ordered
    | cons b m' ih' =>
      obtain ⟨ha, hmem⟩ := List.forall_mem_cons.1 hm
      obtain ⟨hb, hmem'⟩ := List.forall_mem_cons.1 hm'
      obtain ⟨hfirst, htail⟩ := List.pairwise_cons.1 ordered
      obtain ⟨hfirst', htail'⟩ := List.pairwise_cons.1 ordered'
      rw [List.cons_merge_cons]
      split
      · next hab =>
        refine List.pairwise_cons.2 ⟨fun x hx => ?_, ih hmem hm' htail ordered'⟩
        rcases List.mem_merge.1 hx with hx | hx
        · exact hfirst x hx
        · rcases List.mem_cons.1 hx with rfl | hx
          · exact hab
          · exact h.trans ha hb (hmem' x hx) hab (hfirst' x hx)
      · next hba =>
        have hless : less b a = true := inOrder_eq_false.1 (Bool.not_eq_true _ ▸ hba)
        refine List.pairwise_cons.2 ⟨fun x hx => ?_, ih' hmem' htail'⟩
        rcases List.mem_merge.1 hx with hx | hx
        · rcases List.mem_cons.1 hx with rfl | hx
          · exact h.of_less hb ha hless
          · exact h.trans hb ha (hmem x hx) (h.of_less hb ha hless) (hfirst x hx)
        · exact hfirst' x hx

/-- Merging two sorted lists from the front sorts the one list after the other. -/
theorem SortedFrom.merge_front (h : WeakOn less P) (hl : ∀ a ∈ l, P a) (hl' : ∀ a ∈ l', P a)
    (hs : SortedFrom less P l m) (hs' : SortedFrom less P l' m') :
    SortedFrom less P (l ++ l') (m.merge m' (inOrder less)) where
  perm := (List.merge_perm_append _).trans (hs.perm.append hs'.perm)
  ordered := hs.ordered.merge h (hs.mem hl) (hs'.mem hl') hs'.ordered
  stable c hc := by
    rw [filter_merge h hc (hs.mem hl) (hs'.mem hl') hs.ordered, hs.stable c hc, hs'.stable c hc,
      List.filter_append]

/-! ### Sorting backwards -/

theorem WeakOn.backwards (h : WeakOn less P) : WeakOn (flip less) P where
  asymm ha hb := h.asymm hb ha
  trans ha hb hc hab hbc := h.trans hc hb ha hbc hab

theorem alike_flip (a b : α) : alike (flip less) a b = alike less a b :=
  Bool.and_comm ..

/-- The reverse of a list that is sorted backwards. -/
theorem SortedFrom.reverse (hs : SortedFrom (flip less) P l m) :
    SortedFrom less P l.reverse m.reverse where
  perm := (List.reverse_perm m).trans (hs.perm.trans (List.reverse_perm l).symm)
  ordered := List.pairwise_reverse.2 hs.ordered
  stable c hc := by
    have hstable := hs.stable c hc
    simp only [funext (alike_flip c)] at hstable
    rw [List.filter_reverse, List.filter_reverse, hstable]

theorem SortedFrom.backwards (hs : SortedFrom less P l m) :
    SortedFrom (flip less) P l.reverse m.reverse :=
  @SortedFrom.reverse α (flip less) P l m hs

/-- Merging two sorted lists from the back sorts the one list after the other. -/
theorem SortedFrom.merge_back (h : WeakOn less P) (hl : ∀ a ∈ l, P a) (hl' : ∀ a ∈ l', P a)
    (hs : SortedFrom less P l m) (hs' : SortedFrom less P l' m') :
    SortedFrom less P (l ++ l')
      (m'.reverse.merge m.reverse (flip (inOrder less))).reverse := by
  have hmerge := hs'.backwards.merge_front h.backwards (by simpa using hl') (by simpa using hl)
    hs.backwards
  rw [← List.reverse_append] at hmerge
  have hreverse := hmerge.reverse
  rwa [List.reverse_reverse] at hreverse

theorem SortedFrom.merge (h : WeakOn less P) (hl : ∀ a ∈ l, P a) (hl' : ∀ a ∈ l', P a)
    (hs : SortedFrom less P l m) (hs' : SortedFrom less P l' m') :
    SortedFrom less P (l ++ l') (merge less m m') := by
  unfold Sorting.merge
  split
  · exact hs.merge_front h hl hl' hs'
  · exact hs.merge_back h hl hl' hs'

theorem merge_perm (l m : List α) : (Sorting.merge less l m).Perm (l ++ m) := by
  unfold Sorting.merge
  split
  · exact List.merge_perm_append _
  · refine (List.reverse_perm _).trans ((List.merge_perm_append _).trans ?_)
    exact ((List.reverse_perm m).append (List.reverse_perm l)).trans List.perm_append_comm

/-! ### Items in order already -/

theorem cutChain_append (follows : α → α → Bool) (a : α) (l : List α) :
    (cutChain follows a l).1 ++ (cutChain follows a l).2 = l := by
  induction l generalizing a with
  | nil => rfl
  | cons b l ih =>
    unfold cutChain
    split
    · exact congrArg (b :: ·) (ih b)
    · rfl

theorem cutChain_subset (follows : α → α → Bool) (a : α) (l : List α) :
    (cutChain follows a l).1 ⊆ l := by
  conv_rhs => rw [← cutChain_append follows a l]
  exact List.subset_append_left ..

/-- A chain of a relation that is transitive on a class. -/
theorem pairwise_cutChain {follows : α → α → Bool} (ha : P a) (hl : ∀ a ∈ l, P a)
    (trans : ∀ {a b c}, P a → P b → P c →
      follows a b = true → follows b c = true → follows a c = true) :
    (a :: (cutChain follows a l).1).Pairwise fun a b => follows a b = true := by
  induction l generalizing a with
  | nil => exact List.pairwise_singleton ..
  | cons b l ih =>
    obtain ⟨hb, hl⟩ := List.forall_mem_cons.1 hl
    unfold cutChain
    split
    · next hab =>
      refine List.pairwise_cons.2 ⟨fun x hx => ?_, ih hb hl⟩
      rcases List.mem_cons.1 hx with rfl | hx
      · exact hab
      · exact trans ha hb (hl x (cutChain_subset follows b l hx)) hab
          ((List.pairwise_cons.1 (ih hb hl)).1 x hx)
    · exact List.pairwise_singleton ..

/-- Items in descending order are sorted by turning them round. -/
theorem sortedFrom_reverse (h : WeakOn less P) (hl : ∀ a ∈ l, P a)
    (descending : l.Pairwise fun a b => less b a = true) : SortedFrom less P l l.reverse where
  perm := List.reverse_perm l
  ordered := by
    refine List.pairwise_reverse.2 (descending.imp_of_mem fun ha hb hba => ?_)
    exact h.of_less (hl _ hb) (hl _ ha) hba
  stable c hc := by
    rw [List.filter_reverse]
    -- no two of them are alike
    have hdescending := descending.sublist (List.filter_sublist (p := alike less c))
    match hkept : l.filter (alike less c) with
    | [] => rfl
    | [_] => rfl
    | a :: b :: rest =>
      have hmem (x : α) (hx : x ∈ a :: b :: rest) := List.mem_filter.1 (hkept ▸ hx)
      obtain ⟨ha, hca⟩ := hmem a (by simp)
      obtain ⟨hb, hcb⟩ := hmem b (by simp)
      rw [hkept] at hdescending
      have hba : less b a = true := (List.pairwise_cons.1 hdescending).1 b List.mem_cons_self
      exact absurd hca (by simp [h.not_alike_of_less (hl b hb) (hl a ha) hc hba hcb])

/-- The items that are taken off as being in order are a beginning of the list, sorted. -/
theorem sortedFrom_takeOrdered (h : WeakOn less P) (hl : ∀ a ∈ l, P a) :
    ∃ source, source ++ (takeOrdered less l).2 = l ∧
      SortedFrom less P source (takeOrdered less l).1 := by
  match l, hl with
  | [], _ => exact ⟨[], rfl, sortedFrom_self .nil⟩
  | a :: l, hl =>
    obtain ⟨ha, hl'⟩ := List.forall_mem_cons.1 hl
    simp only [takeOrdered]
    split
    · refine ⟨a :: (cutChain (flip less) a l).1, by simp [cutChain_append], ?_⟩
      refine sortedFrom_reverse h (fun x hx => hl x ?_) (pairwise_cutChain ha hl' ?_)
      · exact List.cons_subset_cons a (cutChain_subset (flip less) a l) hx
      · exact fun hx hy hz hyx hzy => h.less_of_less_of_inOrder hz hy hx hzy (h.of_less hy hx hyx)
    · exact ⟨a :: (cutChain (inOrder less) a l).1, by simp [cutChain_append],
        sortedFrom_self (pairwise_cutChain ha hl' h.trans)⟩

theorem takeOrdered_perm (less : α → α → Bool) (l : List α) :
    ∃ source, source ++ (takeOrdered less l).2 = l ∧ (takeOrdered less l).1.Perm source := by
  match l with
  | [] => exact ⟨[], rfl, .refl _⟩
  | a :: l =>
    simp only [takeOrdered]
    split
    · exact ⟨a :: (cutChain (flip less) a l).1, by simp [cutChain_append], List.reverse_perm _⟩
    · exact ⟨a :: (cutChain (inOrder less) a l).1, by simp [cutChain_append], .refl _⟩

/-! ### Partitions -/

/-- A list is sorted by sorting the items of a class and then the others, if those of the class are
less than the others. -/
theorem SortedFrom.partition (h : WeakOn less P) (hl : ∀ a ∈ l, P a) {p q : α → Bool}
    (hq : ∀ a ∈ l, q a = !p a)
    (across : ∀ a ∈ l, ∀ b ∈ l, p a = true → q b = true → less a b = true)
    (hs : SortedFrom less P (l.filter p) m) (hs' : SortedFrom less P (l.filter q) m') :
    SortedFrom less P l (m ++ m') := by
  have hfilter : l.filter q = l.filter (!p ·) := List.filter_congr hq
  refine ⟨?_, List.pairwise_append.2 ⟨hs.ordered, hs'.ordered, fun a ha b hb => ?_⟩,
    fun c hc => ?_⟩
  · exact (hs.perm.append (hfilter ▸ hs'.perm)).trans (List.filter_append_perm p l)
  · obtain ⟨ha, hpa⟩ := List.mem_filter.1 (hs.perm.subset ha)
    obtain ⟨hb, hqb⟩ := List.mem_filter.1 (hs'.perm.subset hb)
    exact h.of_less (hl a ha) (hl b hb) (across a ha b hb hpa hqb)
  · rw [List.filter_append, hs.stable c hc, hs'.stable c hc, List.filter_filter, List.filter_filter]
    -- the items that are like a third one are all in the class or all outside of it
    by_cases hin : ∃ a ∈ l, alike less c a = true ∧ p a = true
    · obtain ⟨a, ha, hca, hpa⟩ := hin
      have hall (b : α) (hb : b ∈ l) (hcb : alike less c b = true) : p b = true := by
        by_contra hpb
        have hless := across a ha b hb hpa (by simp [hq b hb, hpb])
        exact absurd hcb (by simp [h.not_alike_of_less (hl a ha) (hl b hb) hc hless hca])
      have hfirst : l.filter (fun b => alike less c b && p b) = l.filter (alike less c) :=
        List.filter_congr fun b hb => by
          cases hcb : alike less c b <;> simp [hall b hb, hcb]
      have hrest : l.filter (fun b => alike less c b && q b) = [] :=
        List.filter_eq_nil_iff.2 fun b hb => by
          cases hcb : alike less c b <;> simp [hq b hb, hall b hb, hcb]
      rw [hfirst, hrest, List.append_nil]
    · have hnone (b : α) (hb : b ∈ l) (hcb : alike less c b = true) : p b = false :=
        Bool.eq_false_iff.2 fun hpb => hin ⟨b, hb, hcb, hpb⟩
      have hfirst : l.filter (fun b => alike less c b && p b) = [] :=
        List.filter_eq_nil_iff.2 fun b hb => by
          cases hcb : alike less c b <;> simp [hnone b hb, hcb]
      have hrest : l.filter (fun b => alike less c b && q b) = l.filter (alike less c) :=
        List.filter_congr fun b hb => by
          cases hcb : alike less c b <;> simp [hq b hb, hnone b hb, hcb]
      rw [hfirst, hrest, List.nil_append]

end Tabular.Sorting
