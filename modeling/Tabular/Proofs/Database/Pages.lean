import Mathlib.Data.List.Nodup
import Tabular.Database
import Tabular.Proofs.Result

/-!
Distinct rows and pages.

The last stage of a search chooses among the rows that it shows: it passes over repetitions, and
then over what is not on the page. `find_eq_chosen` parts this stage from the rest, which does not
depend on it; what is left is a matter of lists.

* `distinctOf_eraseDups`: the rows without repetitions, each at its first place.
* `pagesOf_page`: pages of one length, one after another, are the whole list.
* `find_pages`: the searches for distinct rows and for single pages, next to the search for all
  rows.
-/

namespace Tabular

/-- A query for all rows or for the distinct ones, in one piece. -/
def QuerySpec.unpaged (q : QuerySpec) (distinct : Bool) : QuerySpec :=
  { q with distinct, limit := none, offset := none }

/-- A query for one page of `n` rows; pages are counted from zero. -/
def QuerySpec.paged (q : QuerySpec) (distinct : Bool) (n i : Nat) : QuerySpec :=
  { q with distinct, limit := some n, offset := some (i * n) }

namespace Database

variable {α : Type}

/-! ### Repetitions -/

/-- Rows without their repetitions. -/
structure DistinctOf [DecidableEq α] (rows distinct : List α) : Prop where
  nodup : distinct.Nodup
  mem_iff : ∀ row, row ∈ distinct ↔ row ∈ rows
  /-- They stand in the order in which they occur first. -/
  in_order : distinct.Pairwise fun a b => rows.idxOf a < rows.idxOf b

section

variable [DecidableEq α]

/-- Leaving items out and leaving repetitions out can change places. -/
theorem eraseDups_filter (p : α → Bool) (l : List α) :
    (l.filter p).eraseDups = l.eraseDups.filter p := by
  induction hn : l.length using Nat.strongRecOn generalizing l with
  | ind n ih =>
    cases l with
    | nil => rfl
    | cons a l =>
      have hlt : (l.filter (!· == a)).length < n :=
        hn ▸ Nat.lt_succ_of_le (List.length_filter_le _ l)
      have hothers := ih _ hlt (l.filter (!· == a)) rfl
      rw [List.eraseDups_cons]
      by_cases ha : p a = true
      · rw [List.filter_cons_of_pos ha, List.eraseDups_cons, List.filter_cons_of_pos ha,
          ← hothers, List.filter_comm]
      · -- the items that pass are none of them equal to the one that does not
        have hpass : (l.filter (!· == a)).filter p = l.filter p := by
          rw [List.filter_filter]
          refine List.filter_congr fun b _ => ?_
          by_cases hb : b = a
          · simp [hb, ha]
          · simp [hb]
        rw [List.filter_cons_of_neg ha, List.filter_cons_of_neg ha, ← hothers, hpass]

/-- The first item comes first, and the others without it. -/
theorem eraseDups_cons_eq (a : α) (l : List α) :
    (a :: l).eraseDups = a :: l.eraseDups.filter (!· == a) := by
  rw [List.eraseDups_cons, eraseDups_filter]

theorem ne_of_mem_filter {l : List α} {a b : α} (h : b ∈ l.filter (!· == a)) : b ≠ a := by
  simpa using (List.mem_filter.1 h).2

theorem nodup_eraseDups (l : List α) : l.eraseDups.Nodup := by
  induction l with
  | nil => exact List.nodup_nil
  | cons a l ih =>
    rw [eraseDups_cons_eq]
    exact List.nodup_cons.2 ⟨fun h => ne_of_mem_filter h rfl, ih.filter _⟩

/-- The items of a list stand in the order in which they occur first. -/
theorem pairwise_eraseDups (l : List α) :
    l.eraseDups.Pairwise fun a b => l.idxOf a < l.idxOf b := by
  induction l with
  | nil => exact List.Pairwise.nil
  | cons a l ih =>
    have later : ∀ {b}, b ≠ a → (a :: l).idxOf b = l.idxOf b + 1 :=
      fun h => List.idxOf_cons_ne l h.symm
    rw [eraseDups_cons_eq]
    refine List.pairwise_cons.2 ⟨fun b hb => ?_, ?_⟩
    · rw [List.idxOf_cons_self, later (ne_of_mem_filter hb)]
      exact Nat.succ_pos _
    · refine (ih.filter _).imp_of_mem fun {b c} hb hc hlt => ?_
      rw [later (ne_of_mem_filter hb), later (ne_of_mem_filter hc)]
      exact Nat.succ_lt_succ hlt

theorem distinctOf_eraseDups (l : List α) : DistinctOf l l.eraseDups :=
  ⟨nodup_eraseDups l, fun _ => List.mem_eraseDups, pairwise_eraseDups l⟩

end

/-! ### Pages -/

/-- Pages of `n` rows, which together are all rows. -/
structure PagesOf (n : Nat) (rows : List α) (pages : Nat → List α) : Prop where
  /-- As many pages as the rows need are the rows, one page after another. -/
  joined : ∀ m, rows.length ≤ m * n → (List.range m).flatMap pages = rows
  /-- A page has the rows from its first place on. -/
  row_at : ∀ i j, j < n → (pages i)[j]? = rows[i * n + j]?
  length_le : ∀ i, (pages i).length ≤ n
  /-- A row that is there once is on one page. -/
  on_one : rows.Nodup → ∀ row ∈ rows, ∃! i, row ∈ pages i

theorem flatMap_page (n : Nat) (l : List α) (m : Nat) :
    (List.range m).flatMap (fun i => page (some n) (some (i * n)) l) = l.take (m * n) := by
  induction m with
  | zero => simp
  | succ m ih =>
    have hlast : page (some n) (some (m * n)) l = (l.drop (m * n)).take n := rfl
    rw [List.range_succ, List.flatMap_append, ih, List.flatMap_singleton, hlast, Nat.succ_mul,
      List.take_add]

theorem getElem?_page (n : Nat) (l : List α) (i j : Nat) (h : j < n) :
    (page (some n) (some (i * n)) l)[j]? = l[i * n + j]? := by
  have hpage : page (some n) (some (i * n)) l = (l.drop (i * n)).take n := rfl
  rw [hpage, List.getElem?_take_of_lt h, List.getElem?_drop]

theorem length_page_le (n : Nat) (l : List α) (offset : Option Nat) :
    (page (some n) offset l).length ≤ n :=
  List.length_take_le n _

/-- Where no row is there twice, each is on the page of its place and on no other one. -/
theorem existsUnique_page {n : Nat} (pos : 0 < n) {l : List α} (nodup : l.Nodup) {a : α}
    (h : a ∈ l) : ∃! i, a ∈ page (some n) (some (i * n)) l := by
  obtain ⟨k, hk⟩ := List.mem_iff_getElem?.1 h
  refine ⟨k / n, ?_, fun i hi => ?_⟩
  · have hplace := getElem?_page n l (k / n) (k % n) (Nat.mod_lt k pos)
    rw [Nat.div_add_mod', hk] at hplace
    exact List.mem_of_getElem? hplace
  · obtain ⟨j, hj⟩ := List.mem_iff_getElem?.1 hi
    have hlength := (List.getElem?_eq_some_iff.1 hj).1
    have hlt : j < n := Nat.lt_of_lt_of_le hlength (length_page_le n l _)
    rw [getElem?_page n l i j hlt] at hj
    have hbound : i * n + j < l.length := (List.getElem?_eq_some_iff.1 hj).1
    obtain rfl : i * n + j = k := (List.getElem?_inj hbound nodup).1 (hj.trans hk.symm)
    rw [Nat.mul_comm, Nat.mul_add_div pos, Nat.div_eq_of_lt hlt, Nat.add_zero]

theorem pagesOf_page {n : Nat} (pos : 0 < n) (l : List α) :
    PagesOf n l fun i => page (some n) (some (i * n)) l where
  joined := by
    intro m hm
    rw [flatMap_page, List.take_of_length_le hm]
  row_at := getElem?_page n l
  length_le := fun i => length_page_le n l _
  on_one := fun nodup _ => existsUnique_page pos nodup

/-! ### The last stage of a search -/

/-- The rows that a query chooses among those that it shows. -/
def chosen (q : QuerySpec) (rows : List Row) : List Row :=
  page q.limit q.offset (if q.distinct then rows.eraseDups else rows)

/-- A search chooses among all rows that the query shows. -/
theorem find_eq_chosen [PatternCompiler] (db : Database) (q : QuerySpec) :
    db.find q = (do return chosen q (← db.find (q.unpaged false))) := by
  simp only [find, QuerySpec.unpaged, page, bind_assoc, pure_bind, Option.getD_none, List.drop_zero,
    Bool.false_eq_true, if_false]
  rfl

/-- **Distinct rows and pages.** Where a search succeeds, so do the one for all rows, the one for
the distinct rows, and those for their pages of any length: the distinct rows are all rows without
repetitions, and the pages are the rows, cut into pieces. -/
theorem find_pages [PatternCompiler] {db : Database} {q : QuerySpec} {rows : List Row}
    (h : db.find q = .ok rows) :
    ∃ all distinct, db.find (q.unpaged false) = .ok all ∧
      db.find (q.unpaged true) = .ok distinct ∧ DistinctOf all distinct ∧
      ∀ (once : Bool) (n : Nat), 0 < n → ∃ pages,
        (∀ i, db.find (q.paged once n i) = .ok (pages i)) ∧
        PagesOf n (if once then distinct else all) pages := by
  rw [find_eq_chosen] at h
  obtain ⟨all, hall, -⟩ := Result.bind_eq_ok_iff.1 h
  -- every other query is for the same rows up to its last stage
  have hfind : ∀ q' : QuerySpec, q'.unpaged false = q.unpaged false →
      db.find q' = .ok (chosen q' all) := by
    intro q' same
    rw [find_eq_chosen, same, hall]
    rfl
  refine ⟨all, all.eraseDups, hall, hfind (q.unpaged true) rfl,
    distinctOf_eraseDups all, fun once n pos => ?_⟩
  exact ⟨_, fun i => hfind (q.paged once n i) rfl, pagesOf_page pos _⟩

/-- The customers of four orders: ann is there twice, with bob in between, and once among the
distinct customers. -/
theorem find_pages_orders :
    let order (id customer : String) : Row :=
      Keyed.ofList [("customer", some customer), ("id", some id)]
    let t : Table :=
      { primaryKey := some "id"
        columns := ["customer"]
        rows := [order "1" "ann", order "2" "bob", order "3" "ann", order "4" "cy"] }
    let db : Database := { createdAt := .epoch, tables := Keyed.ofList [("orders", t)] }
    let q : QuerySpec :=
      { table := "orders", columns := some ["customer"], distinct := true, limit := some 2,
        offset := some 1 }
    let shown (customer : String) : Row := Keyed.ofList [("customer", some customer)]
    db.find q = .ok [shown "bob", shown "cy"] ∧
      ∃ all distinct, db.find (q.unpaged false) = .ok all ∧
        db.find (q.unpaged true) = .ok distinct ∧ DistinctOf all distinct ∧
        ∀ (once : Bool) (n : Nat), 0 < n → ∃ pages,
          (∀ i, db.find (q.paged once n i) = .ok (pages i)) ∧
          PagesOf n (if once then distinct else all) pages := by
  intro order t db q shown
  have hfind : db.find q = .ok [shown "bob", shown "cy"] := by decide +kernel
  exact ⟨hfind, find_pages hfind⟩

end Database

end Tabular
