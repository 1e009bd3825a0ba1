import Mathlib.Data.List.Basic
import Tabular.Proofs.Folder.Files

/-!
Folders that are trees.

What stands in something stands in a directory (`Folder.IsTree`). Every operation keeps this, since
it puts an entry into a directory or takes a file out (`isTree_makeDirectories`, `isTree_write`,
`isTree_remove`). Paths are told apart by their texts, so no step may have a slash in it. In a tree,
a way that only leads down to a file can be walked (`stat_of_isTree`).
-/

namespace Tabular

/-- A route whose steps are single names. -/
def Route.IsPlain (r : Route) : Prop := ∀ s ∈ r, '/' ∉ s.toList

namespace Folder

variable {f g : Folder} {p q : Path} {r : Route} {s t : String}

/-- What stands in something stands in a directory, as it does in every file system. -/
def IsTree (f : Folder) : Prop :=
  ∀ p q : Path, q ≠ [] → f.entryAt? (p ++ q) ≠ none → f.entryAt? p = some .directory

theorem isTree_empty : Folder.empty.IsTree := by
  intro p q hq hentry
  refine absurd ?_ hentry
  rw [entryAt?_of_ne_nil (List.append_ne_nil_of_right_ne_nil p hq)]
  rfl

/-! ### Putting entries in and taking them out -/

theorem toList_text_append (hp : p ≠ []) (hq : q ≠ []) :
    (Path.text (p ++ q)).toList = (Path.text p).toList ++ '/' :: (Path.text q).toList := by
  unfold Path.text
  rw [String.intercalate_append_of_ne_nil hp hq, String.toList_append, String.toList_append]
  simp

/-- A text that ends in a plain name after a slash is cut at that slash or before it. -/
theorem eq_or_of_append_slash {a b c d : List Char} (h : a ++ '/' :: b = c ++ '/' :: d)
    (hd : '/' ∉ d) : a = c ∨ ∃ rest, c = a ++ '/' :: rest := by
  obtain ⟨u, hc, hu⟩ | ⟨u, ha, hu⟩ := List.append_eq_append_iff.1 h
  · cases u with
    | nil => exact .inl (by rw [hc, List.append_nil])
    | cons x u =>
      obtain ⟨rfl, -⟩ := List.cons.inj hu
      exact .inr ⟨u, hc⟩
  · cases u with
    | nil => exact .inl (by rw [ha, List.append_nil])
    | cons x u =>
      obtain ⟨-, rfl⟩ := List.cons.inj hu
      exact absurd (List.mem_append_right u List.mem_cons_self) hd

/-- What stands at a text stands there, whichever path has the text. -/
theorem entryAt?_congr (hp : p ≠ []) (hq : q ≠ []) (h : p.text = q.text) :
    f.entryAt? p = f.entryAt? q := by
  rw [entryAt?_of_ne_nil hp, entryAt?_of_ne_nil hq, h]

/-- A path that is cut short leads to a directory, where the path leads into one. -/
theorem IsTree.directory_of_text (tree : f.IsTree) (plain : '/' ∉ s.toList)
    (parent : f.entryAt? p = some .directory) (hq : q ≠ []) {u : Path} (hu : u ≠ [])
    (h : Path.text (p ++ [s]) = Path.text (q ++ u)) : f.entryAt? q = some .directory := by
  have htext := congrArg String.toList h
  rw [toList_text_append hq hu] at htext
  have hs : (Path.text [s]).toList = s.toList := by simp [Path.text]
  by_cases hp : p = []
  · rw [hp, List.nil_append, hs] at htext
    exact absurd (htext ▸ List.mem_append_right _ List.mem_cons_self) plain
  · rw [toList_text_append hp (List.cons_ne_nil s []), hs] at htext
    obtain hqp | ⟨rest, hrest⟩ := eq_or_of_append_slash htext.symm plain
    · rw [entryAt?_congr hq hp (String.toList_injective hqp), parent]
    · have hlong : p.text = Path.text (q ++ [String.ofList rest]) := by
        refine String.toList_injective ?_
        rw [hrest, toList_text_append hq (List.cons_ne_nil _ [])]
        simp [Path.text]
      refine tree q [String.ofList rest] (List.cons_ne_nil _ []) ?_
      rw [← entryAt?_congr hp (List.append_ne_nil_of_left_ne_nil hq _) hlong, parent]
      exact Option.some_ne_none _

/-- An entry may be put into a directory, a file only where no directory stands. -/
theorem IsTree.put (tree : f.IsTree) (plain : '/' ∉ s.toList)
    (parent : f.entryAt? p = some .directory) {e : Entry}
    (keeps : f.entryAt? (p ++ [s]) = some .directory → e = .directory) :
    (f.put (p ++ [s]) e).IsTree := by
  intro q u hu hentry
  by_cases hq : q = []
  · rw [hq]
    rfl
  have hqu : q ++ u ≠ [] := List.append_ne_nil_of_left_ne_nil hq u
  have hps : p ++ [s] ≠ [] := List.append_ne_nil_of_right_ne_nil p (List.cons_ne_nil s [])
  rw [entryAt?_put hqu] at hentry
  have hdirectory : f.entryAt? q = some .directory := by
    by_cases htext : Path.text (p ++ [s]) = Path.text (q ++ u)
    · exact tree.directory_of_text plain parent hq hu htext
    · rw [if_neg htext] at hentry
      exact tree q u hu hentry
  rw [entryAt?_put hq]
  split
  · next htext => rw [keeps ((entryAt?_congr hps hq htext).trans hdirectory)]
  · exact hdirectory

/-- A file may be taken out. -/
theorem IsTree.erase (tree : f.IsTree) (hp : p ≠ []) (hfile : f.entryAt? p = some (.file t)) :
    (f.erase p).IsTree := by
  intro q u hu hentry
  by_cases hq : q = []
  · rw [hq]
    rfl
  rw [entryAt?_erase (List.append_ne_nil_of_left_ne_nil hq u)] at hentry
  split at hentry
  · exact absurd rfl hentry
  have hdirectory := tree q u hu hentry
  rw [entryAt?_erase hq, if_neg]
  · exact hdirectory
  · intro htext
    rw [← entryAt?_congr hp hq htext, hfile] at hdirectory
    cases hdirectory

/-! ### Operations -/

/-- A step leads to where it starts, up, or to a name in the directory. -/
theorem step_cases (p : Path) (s : String) :
    p.step s = p ∨ p.step s = p.dropLast ∨ p.step s = p ++ [s] := by
  unfold Path.step
  split
  · exact .inl rfl
  split
  · exact .inr (.inl rfl)
  · exact .inr (.inr rfl)

/-- From a directory, a step that does not end in one leads to a name in it. -/
theorem IsTree.step_eq (tree : f.IsTree) (hp : f.entryAt? p = some .directory)
    (hs : f.entryAt? (p.step s) ≠ some .directory) : p.step s = p ++ [s] := by
  rcases step_cases p s with h | h | h
  · rw [h] at hs
    exact absurd hp hs
  · rw [h] at hs
    by_cases hnil : p = []
    · rw [hnil] at hs
      exact absurd rfl hs
    · refine absurd (tree p.dropLast [p.getLast hnil] (List.cons_ne_nil _ []) ?_) hs
      rw [List.dropLast_append_getLast hnil, hp]
      exact Option.some_ne_none _
  · exact h

theorem isTree_makeFrom (tree : f.IsTree) (plain : r.IsPlain)
    (hp : f.entryAt? p = some .directory) (h : f.makeFrom p r = .ok g) : g.IsTree := by
  induction r generalizing f p with
  | nil => exact Except.ok.inj h ▸ tree
  | cons s r ih =>
    obtain ⟨hs, hr⟩ := List.forall_mem_cons.1 plain
    unfold makeFrom at h
    split at h
    · cases h
    cases hentry : f.entryAt? (p.step s) with
    | none =>
      rw [hentry] at h
      obtain ⟨f', hchanged, hmade⟩ := Result.bind_eq_ok_iff.1 h
      obtain ⟨-, rfl⟩ := changing_eq_ok_iff.1 hchanged
      have hstep := tree.step_eq hp (by
        rw [hentry]
        exact (Option.some_ne_none _).symm)
      rw [hstep] at hmade
      refine ih (tree.put hs hp fun _ => rfl) hr ?_ hmade
      rw [entryAt?_put (List.append_ne_nil_of_right_ne_nil p (List.cons_ne_nil s [])), if_pos rfl]
    | some e =>
      rw [hentry] at h
      cases e with
      | directory => exact ih tree hr hentry h
      | file text => cases h

theorem isTree_makeDirectories (tree : f.IsTree) (plain : r.IsPlain)
    (h : f.makeDirectories r = .ok g) : g.IsTree := by
  unfold makeDirectories at h
  split at h
  · cases h
  · exact isTree_makeFrom tree plain rfl h

theorem isTree_write (tree : f.IsTree) (plain : r.IsPlain) (h : f.write r t = .ok g) :
    g.IsTree := by
  obtain ⟨hlocate, hne, hdirectory, rfl⟩ := write_spec h
  obtain rfl | ⟨r', s, rfl⟩ := List.eq_nil_or_concat' r
  · exact absurd rfl hne
  have hparent : f.entryAt? (Route.path r') = some .directory := by
    unfold locate at hlocate
    split at hlocate
    · cases hlocate
    · exact (walk_append_singleton hlocate).2
  have hpath : Route.path (r' ++ [s]) = (Route.path r').step s := List.foldl_append
  rw [hpath] at hdirectory ⊢
  have hstep := tree.step_eq hparent hdirectory
  rw [hstep] at hdirectory ⊢
  exact tree.put (plain s (List.mem_append_right r' (List.mem_singleton_self s))) hparent
    fun h => absurd h hdirectory

theorem isTree_remove (tree : f.IsTree) (h : f.remove r = .ok g) : g.IsTree := by
  obtain ⟨-, ⟨t, hfile⟩, -, rfl⟩ := remove_spec h
  refine tree.erase (fun hnil => ?_) hfile
  rw [hnil] at hfile
  cases hfile

/-! ### Ways down -/

/-- Steps of which none leads up lead down. -/
theorem exists_foldl_step_eq (down : ".." ∉ r) (p : Path) : ∃ q, r.foldl Path.step p = p ++ q := by
  induction r generalizing p with
  | nil => exact ⟨[], (List.append_nil p).symm⟩
  | cons s r ih =>
    obtain ⟨hs, hr⟩ := not_or.1 (mt List.mem_cons.2 down)
    obtain ⟨q, hq⟩ := ih hr (p.step s)
    rw [List.foldl_cons, hq]
    unfold Path.step
    rw [if_neg (Ne.symm hs)]
    split
    · exact ⟨q, rfl⟩
    · exact ⟨s :: q, by rw [List.append_assoc, List.singleton_append]⟩

/-- A way that only leads down to a file of a tree can be walked: where a directory has been made
on it since, there was one before. -/
theorem walk_of_isTree (tree : f.IsTree) (down : ".." ∉ r) (hf : f.entryAt? q = some (.file t))
    (hg : g.entryAt? q = some (.file t)) (h : g.walk p r = .ok q) : f.walk p r = .ok q := by
  induction r generalizing p with
  | nil => exact h
  | cons s r ih =>
    obtain ⟨hentry, hlen, hwalk⟩ := walk_cons h
    obtain ⟨q', hq'⟩ := exists_foldl_step_eq down p
    rw [← walk_eq h] at hq'
    have hne : q' ≠ [] := by
      rintro rfl
      rw [List.append_nil] at hq'
      rw [hq', hentry] at hg
      exact nomatch hg
    have hdirectory : f.entryAt? p = some .directory :=
      tree p q' hne (by rw [← hq', hf]; exact Option.some_ne_none _)
    unfold walk
    rw [hdirectory]
    dsimp only
    rw [if_neg hlen]
    exact ih (fun hmem => down (List.mem_cons_of_mem _ hmem)) hwalk

theorem stat_of_isTree (tree : f.IsTree) (down : ".." ∉ r)
    (hf : f.entryAt? r.path = some (.file t)) (h : g.stat r = .ok (.file t)) :
    f.stat r = .ok (.file t) := by
  obtain ⟨hlocate, hentry⟩ := stat_eq_ok_iff.1 h
  refine stat_eq_ok_iff.2 ⟨?_, hf⟩
  unfold locate at hlocate ⊢
  split at hlocate
  · exact nomatch hlocate
  · next hrefusal =>
    exact walk_of_isTree tree down hf hentry hlocate

end Folder

end Tabular
