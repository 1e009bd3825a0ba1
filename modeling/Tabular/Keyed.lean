/-!
Finite maps from names.

A `Keyed α` holds its entries in ascending order of their names, by code point, each name once. That
order is the one in which the columns of a row and the tables of a database are shown, and it makes
two maps equal exactly when they hold the same values (`Keyed.ext_get?`).
-/

namespace Tabular

/-- A map from names to values, as its entries in ascending order of names. -/
structure Keyed (α : Type) where
  entries : List (String × α)
  sorted : entries.Pairwise fun a b => a.1 < b.1

namespace Keyed

variable {α β : Type}

/-! ### Entry lists -/

/-- Sets the value of a name in a sorted entry list. -/
def insertEntry (name : String) (value : α) : List (String × α) → List (String × α)
  | [] => [(name, value)]
  | e :: es =>
    if name < e.1 then (name, value) :: e :: es
    else if name = e.1 then (name, value) :: es
    else e :: insertEntry name value es

theorem mem_insertEntry {name : String} {value : α} {es : List (String × α)} {e : String × α}
    (h : e ∈ insertEntry name value es) : e = (name, value) ∨ e ∈ es := by
  induction es with
  | nil => simpa [insertEntry] using h
  | cons d es ih =>
    unfold insertEntry at h
    split at h
    · simpa using h
    · split at h
      · rcases List.mem_cons.1 h with h | h
        · exact .inl h
        · exact .inr (List.mem_cons_of_mem _ h)
      · rcases List.mem_cons.1 h with h | h
        · exact .inr (h ▸ List.mem_cons_self)
        · exact (ih h).imp id (List.mem_cons_of_mem _)

theorem lt_of_not_lt_of_ne {a b : String} (h : ¬a < b) (hne : a ≠ b) : b < a := by
  rcases Std.le_total (a := a) (b := b) with hle | hle
  · exact absurd (Std.lt_of_le_of_ne hle hne) h
  · exact Std.lt_of_le_of_ne hle (Ne.symm hne)

theorem sorted_insertEntry (name : String) (value : α) {es : List (String × α)}
    (h : es.Pairwise fun a b => a.1 < b.1) :
    (insertEntry name value es).Pairwise fun a b => a.1 < b.1 := by
  induction es with
  | nil => simp [insertEntry]
  | cons d es ih =>
    obtain ⟨hd, hes⟩ := List.pairwise_cons.1 h
    unfold insertEntry
    split
    · rename_i hlt
      refine List.pairwise_cons.2 ⟨fun e he => ?_, h⟩
      rcases List.mem_cons.1 he with rfl | he
      · exact hlt
      · exact String.lt_trans hlt (hd e he)
    · rename_i hnlt
      split
      · rename_i heq
        exact List.pairwise_cons.2 ⟨fun e he => heq ▸ hd e he, hes⟩
      · rename_i hne
        refine List.pairwise_cons.2 ⟨fun e he => ?_, ih hes⟩
        rcases mem_insertEntry he with rfl | he
        · exact lt_of_not_lt_of_ne hnlt hne
        · exact hd e he

/-- The value of a name in an entry list. -/
def find (name : String) : List (String × α) → Option α
  | [] => none
  | e :: es => if e.1 = name then some e.2 else find name es

/-! ### Operations -/

/-- No entries. -/
def empty : Keyed α := ⟨[], List.Pairwise.nil⟩

/-- The value of a name. -/
def get? (m : Keyed α) (name : String) : Option α :=
  find name m.entries

/-- Sets the value of a name. -/
def insert (m : Keyed α) (name : String) (value : α) : Keyed α :=
  ⟨insertEntry name value m.entries, sorted_insertEntry name value m.sorted⟩

/-- Takes a name out. -/
def erase (m : Keyed α) (name : String) : Keyed α :=
  ⟨m.entries.filter fun e => !decide (e.1 = name), m.sorted.filter _⟩

/-- The names, in ascending order. -/
def keys (m : Keyed α) : List String :=
  m.entries.map (·.1)

/-- The entries of a list one after another; of two for one name the later one counts. -/
def ofList (l : List (String × α)) : Keyed α :=
  l.foldl (fun m e => m.insert e.1 e.2) empty

/-- The entries of both maps; for a name of both, the value of the second. -/
def union (m n : Keyed α) : Keyed α :=
  n.entries.foldl (fun m e => m.insert e.1 e.2) m

instance [DecidableEq α] : DecidableEq (Keyed α) := fun m n =>
  if h : m.entries = n.entries then
    isTrue (by cases m; cases n; simp_all)
  else isFalse fun hmn => h (congrArg _ hmn)

/-! ### Lookup -/

@[simp] theorem get?_empty (name : String) : (empty : Keyed α).get? name = none := rfl

theorem find_insertEntry (name : String) (value : α) (es : List (String × α)) (n : String) :
    find n (insertEntry name value es) = if name = n then some value else find n es := by
  induction es with
  | nil => simp [insertEntry, find]
  | cons d es ih =>
    unfold insertEntry
    split
    · simp [find]
    · split
      · rename_i heq
        by_cases h : name = n
        · simp [find, h]
        · simp [find, h, heq ▸ h]
      · rename_i hne
        by_cases h : name = n
        · have hd : d.1 ≠ n := fun hd => hne (h.trans hd.symm)
          rw [find, if_neg hd, ih]
          simp [h]
        · simp [find, ih, h]

@[simp] theorem get?_insert (m : Keyed α) (name : String) (value : α) (n : String) :
    (m.insert name value).get? n = if name = n then some value else m.get? n :=
  find_insertEntry name value m.entries n

theorem find_filter (name : String) (es : List (String × α)) (n : String) :
    find n (es.filter fun e => !decide (e.1 = name)) = if name = n then none else find n es := by
  induction es with
  | nil => simp [find]
  | cons d es ih =>
    by_cases hd : d.1 = name
    · rw [List.filter_cons_of_neg (by simp [hd]), ih, find]
      by_cases h : name = n
      · simp [h]
      · simp [h, hd]
    · rw [List.filter_cons_of_pos (by simp [hd]), find, find, ih]
      by_cases h : name = n
      · simp [h, show d.1 ≠ n from fun e => hd (e.trans h.symm)]
      · simp [h]

@[simp] theorem get?_erase (m : Keyed α) (name n : String) :
    (m.erase name).get? n = if name = n then none else m.get? n :=
  find_filter name m.entries n

/-! ### Names and entries -/

theorem find_eq_none_iff {n : String} {es : List (String × α)} :
    find n es = none ↔ ∀ e ∈ es, e.1 ≠ n := by
  induction es with
  | nil => simp [find]
  | cons d es ih => by_cases hd : d.1 = n <;> simp [find, hd, ih]

theorem mem_of_find {n : String} {v : α} {es : List (String × α)} (h : find n es = some v) :
    (n, v) ∈ es := by
  induction es with
  | nil => simp [find] at h
  | cons d es ih =>
    by_cases hd : d.1 = n
    · simp only [find, hd, ↓reduceIte, Option.some.injEq] at h
      exact hd ▸ h ▸ List.mem_cons_self
    · simp only [find, hd, ↓reduceIte] at h
      exact List.mem_cons_of_mem _ (ih h)

theorem find_of_mem {n : String} {v : α} {es : List (String × α)}
    (sorted : es.Pairwise fun a b => a.1 < b.1) (h : (n, v) ∈ es) : find n es = some v := by
  induction es with
  | nil => simp at h
  | cons d es ih =>
    obtain ⟨hd, hes⟩ := List.pairwise_cons.1 sorted
    rcases List.mem_cons.1 h with rfl | h
    · simp [find]
    · have hne : d.1 ≠ n := by
        intro e
        have hlt := hd (n, v) h
        simp only [e] at hlt
        exact String.lt_irrefl n hlt
      simp [find, hne, ih hes h]

/-- An entry of a map is what the lookup of its name finds. -/
theorem mem_entries_iff {m : Keyed α} {n : String} {v : α} :
    (n, v) ∈ m.entries ↔ m.get? n = some v :=
  ⟨find_of_mem m.sorted, mem_of_find⟩

theorem mem_keys_iff {m : Keyed α} {n : String} : n ∈ m.keys ↔ (m.get? n).isSome := by
  constructor
  · intro h
    obtain ⟨⟨k, v⟩, hmem, rfl⟩ := List.mem_map.1 h
    simp [mem_entries_iff.1 hmem]
  · intro h
    obtain ⟨v, hv⟩ := Option.isSome_iff_exists.1 h
    exact List.mem_map.2 ⟨(n, v), mem_entries_iff.2 hv, rfl⟩

theorem entries_eq_of_find {es ds : List (String × α)}
    (hes : es.Pairwise fun a b => a.1 < b.1) (hds : ds.Pairwise fun a b => a.1 < b.1)
    (h : ∀ n, find n es = find n ds) : es = ds := by
  induction es generalizing ds with
  | nil =>
    cases ds with
    | nil => rfl
    | cons d ds => exact absurd (h d.1) (by simp [find])
  | cons e es ih =>
    cases ds with
    | nil => exact absurd (h e.1) (by simp [find])
    | cons d ds =>
      obtain ⟨he, hes'⟩ := List.pairwise_cons.1 hes
      obtain ⟨hd, hds'⟩ := List.pairwise_cons.1 hds
      have hed : e.1 = d.1 := by
        by_cases heq : e.1 = d.1
        · exact heq
        · have h₁ : d.1 < e.1 := by
            have hf := h e.1
            rw [find, if_pos rfl, find, if_neg (Ne.symm heq)] at hf
            exact hd _ (mem_of_find hf.symm)
          have h₂ : e.1 < d.1 := by
            have hf := h d.1
            rw [find, if_neg heq, find, if_pos rfl] at hf
            exact he _ (mem_of_find hf)
          exact absurd (String.lt_trans h₁ h₂) (String.lt_irrefl _)
      have hv : e.2 = d.2 := by
        have hf := h e.1
        rw [find, if_pos rfl, find, if_pos hed.symm] at hf
        exact Option.some.inj hf
      have htail : es = ds := by
        refine ih hes' hds' fun n => ?_
        have hf := h n
        rw [find, find, hed] at hf
        by_cases hn : d.1 = n
        · have h₁ : find n es = none :=
            find_eq_none_iff.2 fun x hx hxn => by
              have hlt := he x hx
              rw [hed, hn, hxn] at hlt
              exact String.lt_irrefl n hlt
          have h₂ : find n ds = none :=
            find_eq_none_iff.2 fun x hx hxn => by
              have hlt := hd x hx
              rw [hn, hxn] at hlt
              exact String.lt_irrefl n hlt
          rw [h₁, h₂]
        · simpa [hn] using hf
      rw [htail, Prod.ext hed hv]

/-- Maps that hold the same values are equal. -/
theorem ext_get? {m n : Keyed α} (h : ∀ name, m.get? name = n.get? name) : m = n := by
  have := entries_eq_of_find m.sorted n.sorted h
  cases m
  cases n
  simp_all

end Keyed

end Tabular
