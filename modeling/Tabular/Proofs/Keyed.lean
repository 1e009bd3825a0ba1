import Mathlib.Tactic.Tauto
import Tabular.Keyed

/-!
Maps from lists and from other maps.

A map is made by setting values one after another. Where each name is set once, the values that are
set come before those that are there (`get?_foldl_insert`); this gives the lookup in the map of a
list (`get?_ofList`) and in a union (`get?_union`), and that a map is the map of its entries
(`ofList_entries`).
-/

namespace Tabular.Keyed

variable {α : Type}

/-! ### Lookup -/

/-- Setting values one after another, each name once. -/
theorem get?_foldl_insert {l : List (String × α)} (nodup : (l.map (·.1)).Nodup) (m : Keyed α)
    (name : String) :
    (l.foldl (fun m e => m.insert e.1 e.2) m).get? name = (find name l).or (m.get? name) := by
  induction l generalizing m with
  | nil => rfl
  | cons e l ih =>
    obtain ⟨he, hl⟩ := List.nodup_cons.1 nodup
    rw [List.foldl_cons, ih hl, get?_insert, find]
    by_cases h : e.1 = name
    · have hnone : find name l = none := by
        refine find_eq_none_iff.2 fun d hd hdn => he ?_
        exact List.mem_map.2 ⟨d, hd, hdn.trans h.symm⟩
      rw [hnone, if_pos h, if_pos h]
      rfl
    · rw [if_neg h, if_neg h]

/-- Changing the values of an entry list changes what is found in it. -/
theorem find_map_value {β : Type} (f : α → β) (name : String) (es : List (String × α)) :
    find name (es.map fun e => (e.1, f e.2)) = (find name es).map f := by
  induction es with
  | nil => rfl
  | cons e es ih =>
    by_cases h : e.1 = name
    · simp [find, h]
    · simp [find, h, ih]

theorem nodup_names (m : Keyed α) : (m.entries.map (·.1)).Nodup := by
  rw [List.Nodup, List.pairwise_map]
  refine m.sorted.imp fun {a b} hlt heq => ?_
  rw [heq] at hlt
  exact String.lt_irrefl _ hlt

theorem get?_ofList {l : List (String × α)} (nodup : (l.map (·.1)).Nodup) (name : String) :
    (ofList l).get? name = find name l := by
  rw [ofList, get?_foldl_insert nodup, get?_empty, Option.or_none]

/-- In a union the values of the second map come first. -/
theorem get?_union (m n : Keyed α) (name : String) :
    (m.union n).get? name = (n.get? name).or (m.get? name) :=
  get?_foldl_insert n.nodup_names m name

/-- **A map is the map of its entries.** -/
theorem ofList_entries (m : Keyed α) : ofList m.entries = m :=
  ext_get? fun name => get?_ofList m.nodup_names name

/-! ### Names -/

theorem mem_keys_insert {m : Keyed α} {name n : String} {value : α} :
    n ∈ (m.insert name value).keys ↔ n = name ∨ n ∈ m.keys := by
  rw [mem_keys_iff, mem_keys_iff, get?_insert]
  by_cases h : name = n
  · simp [h]
  · simp [h, Ne.symm h]

theorem mem_keys_ofList {l : List (String × α)} {n : String} :
    n ∈ (ofList l).keys ↔ n ∈ l.map (·.1) := by
  suffices h : ∀ m : Keyed α,
      n ∈ (l.foldl (fun m e => m.insert e.1 e.2) m).keys ↔ n ∈ m.keys ∨ n ∈ l.map (·.1) by
    rw [ofList, h]
    simp [keys, empty]
  induction l with
  | nil => simp
  | cons e l ih =>
    intro m
    rw [List.foldl_cons, ih, mem_keys_insert, List.map_cons, List.mem_cons]
    tauto

theorem mem_keys_union {m n : Keyed α} {name : String} :
    name ∈ (m.union n).keys ↔ name ∈ m.keys ∨ name ∈ n.keys := by
  rw [mem_keys_iff, mem_keys_iff, mem_keys_iff, get?_union]
  cases n.get? name <;> cases m.get? name <;> simp

end Tabular.Keyed
