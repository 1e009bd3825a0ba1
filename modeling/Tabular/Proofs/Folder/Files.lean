import Tabular.Folder
import Tabular.Proofs.Result

/-!
The files of a folder.

A walk that succeeds ends at the path that the steps of its route spell (`Route.path`), so what an
operation does to the files of a folder can be said by paths. `Folder.fileAt?` is the text of the
file at a path.

* `fileAt?_makeDirectories`: making directories changes no file.
* `fileAt?_write`, `fileAt?_remove`: writing and removing change the file at one path.
* `locate_of_directories`: a walk goes on succeeding as long as directories stay, and each of these
  operations keeps them.
-/

namespace Tabular

/-- The path that the steps of a route spell. -/
def Route.path (r : Route) : Path := r.foldl Path.step []

namespace Folder

variable {f g : Folder} {p q : Path} {r : Route} {t : String}

/-- The text of the file at a path, if a file stands there. -/
def fileAt? (f : Folder) (p : Path) : Option String :=
  match f.entryAt? p with
  | some (.file text) => some text
  | _ => none

theorem fileAt?_eq_some_iff : f.fileAt? p = some t ↔ f.entryAt? p = some (.file t) := by
  unfold fileAt?
  rcases f.entryAt? p with _ | ⟨text⟩ | _ <;> simp

@[simp] theorem entryAt?_root (f : Folder) : f.entryAt? [] = some .directory := rfl

theorem entryAt?_of_ne_nil (h : p ≠ []) : f.entryAt? p = f.entries.get? p.text := by
  unfold entryAt?
  rw [if_neg h]

theorem entryAt?_put (h : q ≠ []) (e : Entry) :
    (f.put p e).entryAt? q = if p.text = q.text then some e else f.entryAt? q := by
  rw [entryAt?_of_ne_nil h, entryAt?_of_ne_nil h]
  exact Keyed.get?_insert ..

theorem entryAt?_erase (hq : q ≠ []) (p : Path) :
    (f.erase p).entryAt? q = if p.text = q.text then none else f.entryAt? q := by
  rw [entryAt?_of_ne_nil hq, entryAt?_of_ne_nil hq]
  exact Keyed.get?_erase ..

theorem changing_eq_ok_iff {changed : Folder} :
    f.changing p changed = .ok g ↔ f.isFixed p = false ∧ g = changed := by
  unfold changing
  cases f.isFixed p <;> simp [eq_comm]

/-! ### Walks -/

/-- A folder has the directories of another one. -/
def HasDirectories (f g : Folder) : Prop :=
  ∀ p, f.entryAt? p = some .directory → g.entryAt? p = some .directory

theorem HasDirectories.refl (f : Folder) : HasDirectories f f := fun _ h => h

theorem HasDirectories.trans {f₁ f₂ f₃ : Folder} (h : HasDirectories f₁ f₂)
    (h' : HasDirectories f₂ f₃) : HasDirectories f₁ f₃ :=
  fun p hp => h' p (h p hp)

/-- A walk that succeeds starts in a directory and goes on from the path of its first step. -/
theorem walk_cons {s : String} (h : f.walk p (s :: r) = .ok q) :
    f.entryAt? p = some .directory ∧ ¬Route.maxNameLength < s.utf8ByteSize ∧
      f.walk (p.step s) r = .ok q := by
  unfold walk at h
  split at h
  · simp at h
  · simp at h
  · next hentry =>
    split at h
    · simp at h
    · next hlen => exact ⟨hentry, hlen, h⟩

theorem walk_eq (h : f.walk p r = .ok q) : q = r.foldl Path.step p := by
  induction r generalizing p with
  | nil => exact (Except.ok.inj h).symm
  | cons s r ih =>
    unfold walk at h
    split at h
    · simp at h
    · simp at h
    · split at h
      · simp at h
      · exact ih h

/-- A walk that succeeds ends where its steps say. -/
theorem locate_eq (h : f.locate r = .ok q) : q = r.path := by
  unfold locate at h
  split at h
  · simp at h
  · exact walk_eq h

theorem walk_of_directories (hfg : HasDirectories f g) (h : f.walk p r = .ok q) :
    g.walk p r = .ok q := by
  induction r generalizing p with
  | nil => exact h
  | cons s r ih =>
    unfold walk at h ⊢
    cases he : f.entryAt? p with
    | none => simp [he] at h
    | some e =>
      cases e with
      | file text => simp [he] at h
      | directory =>
        rw [he] at h
        rw [hfg p he]
        dsimp only at h ⊢
        split at h
        · simp at h
        · next hlen =>
          rw [if_neg hlen]
          exact ih h

theorem locate_of_directories (hfg : HasDirectories f g) (h : f.locate r = .ok q) :
    g.locate r = .ok q := by
  unfold locate at h ⊢
  split at h
  · simp at h
  · exact walk_of_directories hfg h

/-- A walk goes through the directory in which its last step stands. -/
theorem walk_append_singleton {s : String} (h : f.walk p (r ++ [s]) = .ok q) :
    f.walk p r = .ok (r.foldl Path.step p) ∧
      f.entryAt? (r.foldl Path.step p) = some .directory := by
  induction r generalizing p with
  | nil =>
    rw [List.nil_append] at h
    unfold walk at h
    cases he : f.entryAt? p with
    | none => simp [he] at h
    | some e =>
      cases e with
      | file text => simp [he] at h
      | directory => exact ⟨rfl, he⟩
  | cons s' r ih =>
    rw [List.cons_append] at h
    unfold walk at h ⊢
    cases he : f.entryAt? p with
    | none => simp [he] at h
    | some e =>
      cases e with
      | file text => simp [he] at h
      | directory =>
        rw [he] at h
        dsimp only at h ⊢
        split at h
        · simp at h
        · next hlen =>
          rw [if_neg hlen]
          exact ih h

/-- One more step from a directory. -/
theorem walk_append_of_directory {s : String} (h : f.walk p r = .ok q)
    (he : f.entryAt? q = some .directory) :
    f.walk p (r ++ [s]) =
      if Route.maxNameLength < s.utf8ByteSize then .error .invalidFilename
      else .ok (q.step s) := by
  induction r generalizing p with
  | nil =>
    obtain rfl := Except.ok.inj h
    rw [List.nil_append, walk, he]
    rfl
  | cons s' r ih =>
    rw [List.cons_append]
    unfold walk at h ⊢
    cases he' : f.entryAt? p with
    | none => simp [he'] at h
    | some e =>
      cases e with
      | file text => simp [he'] at h
      | directory =>
        rw [he'] at h
        dsimp only at h ⊢
        split at h
        · simp at h
        · next hlen =>
          rw [if_neg hlen]
          exact ih h

/-! ### What stands at the end of a route -/

theorem stat_eq_ok_iff {e : Entry} :
    f.stat r = .ok e ↔ f.locate r = .ok r.path ∧ f.entryAt? r.path = some e := by
  unfold stat
  cases hl : f.locate r with
  | error kind => simp [bind, Except.bind]
  | ok q =>
    obtain rfl := locate_eq hl
    simp only [bind, Except.bind, true_and]
    cases f.entryAt? r.path <;> simp

/-- A file at the end of a route stays there as long as it and the directories on the way do. -/
theorem stat_of_directories (hfg : HasDirectories f g) {e : Entry} (h : f.stat r = .ok e)
    (he : g.entryAt? r.path = some e) : g.stat r = .ok e :=
  stat_eq_ok_iff.2 ⟨locate_of_directories hfg (stat_eq_ok_iff.1 h).1, he⟩

/-- Where a route ends in a directory that is there, a missing entry is one that does not stand at
its path. -/
theorem entryAt?_of_stat_notFound {s : String} (h : f.walk [] r = .ok q)
    (he : f.entryAt? q = some .directory) (hstat : f.stat (r ++ [s]) = .error .notFound) :
    f.entryAt? (Route.path (r ++ [s])) = none := by
  unfold stat at hstat
  cases hl : f.locate (r ++ [s]) with
  | error kind =>
    rw [hl] at hstat
    obtain rfl : kind = .notFound := by simpa [bind, Except.bind] using hstat
    unfold locate at hl
    split at hl
    · next kind hrefusal =>
      obtain rfl := Except.error.inj hl
      unfold Route.refusal? at hrefusal
      split at hrefusal
      · simp at hrefusal
      · split at hrefusal <;> simp at hrefusal
    · rw [walk_append_of_directory h he] at hl
      split at hl <;> simp at hl
  | ok q' =>
    obtain rfl := locate_eq hl
    rw [hl] at hstat
    simp only [bind, Except.bind] at hstat
    cases hentry : f.entryAt? (Route.path (r ++ [s])) with
    | none => rfl
    | some e => simp [hentry] at hstat

theorem exists?_eq_false_iff : f.exists? r = .ok false ↔ f.stat r = .error .notFound := by
  unfold exists?
  rcases f.stat r with kind | e
  · cases kind <;> simp
  · simp

/-! ### Making directories -/

theorem makeFrom_spec (h : f.makeFrom p r = .ok g) :
    HasDirectories f g ∧ ∀ q, g.fileAt? q = f.fileAt? q := by
  induction r generalizing f p with
  | nil =>
    obtain rfl := Except.ok.inj h
    exact ⟨.refl f, fun _ => rfl⟩
  | cons s r ih =>
    unfold makeFrom at h
    split at h
    · simp at h
    · cases he : f.entryAt? (p.step s) with
      | some e =>
        cases e with
        | file text =>
          rw [he] at h
          simp at h
        | directory =>
          rw [he] at h
          exact ih h
      | none =>
        rw [he] at h
        obtain ⟨f', hchanged, hmade⟩ := Result.bind_eq_ok_iff.1 h
        obtain ⟨-, rfl⟩ := changing_eq_ok_iff.1 hchanged
        obtain ⟨hdir, hfile⟩ := ih hmade
        have hp : p.step s ≠ [] := by
          intro hnil
          simp [hnil] at he
        have hentry : f.entries.get? (p.step s).text = none := by
          rw [← entryAt?_of_ne_nil hp]
          exact he
        constructor
        · refine HasDirectories.trans (fun q hq => ?_) hdir
          by_cases hnil : q = []
          · rw [hnil]
            rfl
          · rw [entryAt?_put hnil]
            split
            · rfl
            · exact hq
        · intro q
          rw [hfile q]
          by_cases hnil : q = []
          · rw [hnil]
            rfl
          · unfold fileAt?
            rw [entryAt?_put hnil]
            by_cases htext : (p.step s).text = q.text
            · rw [if_pos htext, entryAt?_of_ne_nil hnil, ← htext, hentry]
            · rw [if_neg htext]

theorem makeDirectories_spec (h : f.makeDirectories r = .ok g) :
    HasDirectories f g ∧ ∀ q, g.fileAt? q = f.fileAt? q := by
  unfold makeDirectories at h
  split at h
  · simp at h
  · exact makeFrom_spec h

/-! ### Writing and removing -/

/-- What a write does, where it succeeds: it puts a file at the path of its route. -/
theorem write_spec (h : f.write r t = .ok g) :
    f.locate r = .ok r.path ∧ r.path ≠ [] ∧ f.entryAt? r.path ≠ some .directory ∧
      g = f.put r.path (.file t) := by
  unfold write at h
  cases hl : f.locate r with
  | error kind =>
    rw [hl] at h
    simp [bind, Except.bind] at h
  | ok q =>
    obtain rfl := locate_eq hl
    rw [hl] at h
    simp only [bind, Except.bind] at h
    have hne : f.entryAt? r.path ≠ some .directory := by
      intro he
      simp [he] at h
    refine ⟨rfl, fun hnil => hne (by rw [hnil]; rfl), hne, ?_⟩
    split at h
    · simp at h
    · exact (Except.ok.inj h).symm
    · exact (changing_eq_ok_iff.1 h).2

/-- To put a file where no directory stands keeps the directories. -/
theorem hasDirectories_put (hp : p ≠ []) (h : f.entryAt? p ≠ some .directory) (t : String) :
    HasDirectories f (f.put p (.file t)) := by
  intro q hq
  by_cases hnil : q = []
  · rw [hnil]
    rfl
  · rw [entryAt?_put hnil, if_neg]
    · exact hq
    · intro htext
      rw [entryAt?_of_ne_nil hp, htext, ← entryAt?_of_ne_nil hnil] at h
      exact h hq

theorem hasDirectories_write (h : f.write r t = .ok g) : HasDirectories f g := by
  obtain ⟨-, hp, hdir, rfl⟩ := write_spec h
  exact hasDirectories_put hp hdir t

theorem fileAt?_write (h : f.write r t = .ok g) (hq : q ≠ []) :
    g.fileAt? q = if r.path.text = q.text then some t else f.fileAt? q := by
  obtain ⟨-, hp, hdir, rfl⟩ := write_spec h
  unfold fileAt?
  rw [entryAt?_put hq]
  by_cases htext : r.path.text = q.text <;> simp [htext]

/-- A written file is at the end of its route. -/
theorem stat_write (h : f.write r t = .ok g) : g.stat r = .ok (.file t) := by
  obtain ⟨hl, hp, hdir, hg⟩ := write_spec h
  refine stat_eq_ok_iff.2 ⟨locate_of_directories (hasDirectories_write h) hl, ?_⟩
  rw [hg, entryAt?_put hp, if_pos rfl]

theorem remove_spec (h : f.remove r = .ok g) :
    f.locate r = .ok r.path ∧ (∃ t, f.entryAt? r.path = some (.file t)) ∧
      f.isFixed r.path = false ∧ g = f.erase r.path := by
  unfold remove at h
  cases hl : f.locate r with
  | error kind =>
    rw [hl] at h
    simp [bind, Except.bind] at h
  | ok q =>
    obtain rfl := locate_eq hl
    rw [hl] at h
    rw [Result.ok_bind] at h
    cases he : f.entryAt? r.path with
    | none => simp [he] at h
    | some e =>
      rw [he] at h
      obtain ⟨f', hchanged, hfile⟩ := Result.bind_eq_ok_iff.1 h
      obtain ⟨hwritable, rfl⟩ := changing_eq_ok_iff.1 hchanged
      cases e with
      | directory => simp at hfile
      | file t => exact ⟨rfl, ⟨t, rfl⟩, hwritable, (Except.ok.inj hfile).symm⟩

theorem hasDirectories_remove (h : f.remove r = .ok g) : HasDirectories f g := by
  obtain ⟨-, ⟨t, he⟩, -, rfl⟩ := remove_spec h
  intro q hq
  by_cases hnil : q = []
  · rw [hnil]
    rfl
  · rw [entryAt?_erase hnil, if_neg]
    · exact hq
    · intro htext
      have hp : r.path ≠ [] := by
        intro hnil'
        simp [hnil'] at he
      rw [entryAt?_of_ne_nil hp, htext, ← entryAt?_of_ne_nil hnil, hq] at he
      simp at he

theorem fileAt?_remove (h : f.remove r = .ok g) (hq : q ≠ []) :
    g.fileAt? q = if r.path.text = q.text then none else f.fileAt? q := by
  obtain ⟨-, -, -, rfl⟩ := remove_spec h
  unfold fileAt?
  rw [entryAt?_erase hq]
  by_cases htext : r.path.text = q.text <;> simp [htext]

/-! ### Writing again -/

theorem refusal?_of_append {s : String} (h : Route.refusal? (r ++ [s]) = none) :
    r.refusal? = none := by
  unfold Route.refusal? at h ⊢
  split at h
  · simp at h
  · next hnull =>
    split at h
    · simp at h
    · next hlen =>
      rw [if_neg, if_neg]
      · intro hlong
        apply hlen
        by_cases hr : r = []
        · subst hr
          simp [Route.maxLength] at hlong
        · rw [String.intercalate_append_of_ne_nil hr (by simp), String.utf8ByteSize_append,
            String.utf8ByteSize_append]
          omega
      · intro hany
        rw [List.any_append, hany, Bool.true_or] at hnull
        exact hnull rfl

/-- The directories on the way of a walk that succeeds are there. -/
theorem makeFrom_of_walk {s : String} (h : f.walk p (r ++ [s]) = .ok q) :
    f.makeFrom p r = .ok f := by
  induction r generalizing p with
  | nil => rfl
  | cons s' r ih =>
    obtain ⟨-, hlen, hwalk⟩ := walk_cons h
    have hentry : f.entryAt? (p.step s') = some .directory := by
      cases r with
      | nil => exact (walk_cons hwalk).1
      | cons s'' r => exact (walk_cons hwalk).1
    unfold makeFrom
    rw [if_neg hlen, hentry]
    exact ih hwalk

theorem makeDirectories_of_stat {s : String} {e : Entry} (h : f.stat (r ++ [s]) = .ok e) :
    f.makeDirectories r = .ok f := by
  have hlocate := (stat_eq_ok_iff.1 h).1
  unfold locate at hlocate
  split at hlocate
  · simp at hlocate
  · next hrefusal =>
    unfold makeDirectories
    rw [refusal?_of_append hrefusal]
    exact makeFrom_of_walk hlocate

/-- To write the text that a file has changes nothing. -/
theorem write_of_stat (h : f.stat r = .ok (.file t)) : f.write r t = .ok f := by
  obtain ⟨hlocate, hentry⟩ := stat_eq_ok_iff.1 h
  have hp : r.path ≠ [] := by
    intro hnil
    simp [hnil] at hentry
  have hput : f.put r.path (.file t) = f := by
    unfold put
    congr 1
    refine Keyed.ext_get? fun name => ?_
    rw [entryAt?_of_ne_nil hp] at hentry
    rw [Keyed.get?_insert]
    split
    · next hname => rw [← hname, hentry]
    · rfl
  unfold write
  rw [hlocate]
  simp only [bind, Except.bind, hentry, hput]

end Folder

end Tabular
