import Tabular.Json.Decode
import Tabular.Proofs.Json.RoundTrip
import Tabular.Proofs.Keyed

/-!
Reading domain values off the JSON values that were made of them.

A list is read back where its items are (`list?_array`), and a map where its values are
(`keyed?_object`): its entries are in order already, so none of them replaces another.
-/

namespace Tabular

namespace Json

variable {α : Type}

theorem mapM_map_eq_some {α β : Type} {f : β → Option α} {write : α → β} {l : List α}
    (h : ∀ a ∈ l, f (write a) = some a) : (l.map write).mapM f = some l := by
  induction l with
  | nil => rfl
  | cons a l ih =>
    obtain ⟨ha, hl⟩ := List.forall_mem_cons.1 h
    rw [List.map_cons, List.mapM_cons, ha, ih hl]
    rfl

theorem list?_array {item : Json → Option α} {write : α → Json} {l : List α}
    (h : ∀ a ∈ l, item (write a) = some a) : list? item (.array (l.map write)) = some l :=
  mapM_map_eq_some h

theorem list?_ofStrings (l : List String) : list? string? (ofStrings l) = some l :=
  list?_array fun _ _ => rfl

theorem nullableString?_ofOption (s : Option String) : nullableString? (ofOption s) = some s := by
  cases s <;> rfl

theorem keyed?_object {value : Json → Option α} {write : α → Json} {m : Keyed α}
    (h : ∀ e ∈ m.entries, value (write e.2) = some e.2) :
    keyed? value (.object (m.entries.map fun e => (e.1, write e.2))) = some m := by
  have hentries : (m.entries.map fun e => (e.1, write e.2)).mapM
      (fun e => do return (e.1, ← value e.2)) = some m.entries := by
    refine mapM_map_eq_some fun e he => ?_
    dsimp only
    rw [h e he]
    rfl
  unfold keyed?
  dsimp only
  rw [hentries]
  exact congrArg some m.ofList_entries

/-! ### Whole values -/

theorem itemsWhole_map {write : α → Json} {l : List α} (h : ∀ a ∈ l, (write a).isWhole = true) :
    itemsWhole (l.map write) = true := by
  induction l with
  | nil => rfl
  | cons a l ih =>
    obtain ⟨ha, hl⟩ := List.forall_mem_cons.1 h
    rw [List.map_cons, itemsWhole, ha, ih hl]
    rfl

theorem membersWhole_map {write : α → Json} {l : List (String × α)}
    (h : ∀ e ∈ l, (write e.2).isWhole = true) :
    membersWhole (l.map fun e => (e.1, write e.2)) = true := by
  induction l with
  | nil => rfl
  | cons e l ih =>
    obtain ⟨he, hl⟩ := List.forall_mem_cons.1 h
    rw [List.map_cons, membersWhole, he, ih hl]
    rfl

theorem isWhole_ofOption (s : Option String) : (ofOption s).isWhole = true := by
  cases s <;> rfl

theorem isWhole_ofStrings (l : List String) : (ofStrings l).isWhole = true :=
  itemsWhole_map fun _ _ => rfl

end Json

end Tabular
