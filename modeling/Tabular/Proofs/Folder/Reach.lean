import Tabular.Proofs.Folder.Files

/-!
How far an operation on a folder reaches.

An operation along a route looks at the entries on the way of the route alone, those at the paths of
its beginnings, and at whether they stand in read-only directories. In two folders that agree on
them it does the same (`stat_congr`, `agreeing_write`
and so on). What it changes is the entry at the end of its route, and on the way it does no more
than make directories where nothing stood (`Folder.Changes`).
-/

namespace Tabular

/-- A path is on the way of a route: a beginning of the route ends there. -/
def Route.Passes (r : Route) (q : Path) : Prop := ∃ s, s <+: r ∧ q.text = (Route.path s).text

theorem Route.passes_path {r s : Route} (h : s <+: r) : r.Passes (Route.path s) := ⟨s, h, rfl⟩

namespace Folder

variable {f g f' g' : Folder} {A F D : Path → Prop} {p q : Path} {r : Route} {t : String}

/-! ### Folders that agree -/

/-- The same stands at each of some paths, in directories that are read-only in both folders or in
none. -/
structure AgreeOn (A : Path → Prop) (f g : Folder) : Prop where
  entry : ∀ q, A q → f.entryAt? q = g.entryAt? q
  fixed : ∀ q, A q → f.isFixed q = g.isFixed q

theorem AgreeOn.refl (A : Path → Prop) (f : Folder) : AgreeOn A f f :=
  ⟨fun _ _ => rfl, fun _ _ => rfl⟩

theorem AgreeOn.put (agree : AgreeOn A f g) (p : Path) (e : Entry) :
    AgreeOn A (f.put p e) (g.put p e) := by
  refine ⟨fun q hq => ?_, agree.fixed⟩
  by_cases hnil : q = []
  · rw [hnil]
    rfl
  · rw [entryAt?_put hnil, entryAt?_put hnil, agree.entry q hq]

theorem AgreeOn.erase (agree : AgreeOn A f g) (p : Path) :
    AgreeOn A (f.erase p) (g.erase p) := by
  refine ⟨fun q hq => ?_, agree.fixed⟩
  by_cases hnil : q = []
  · rw [hnil]
    rfl
  · rw [entryAt?_erase hnil, entryAt?_erase hnil, agree.entry q hq]

/-- Two changes of a folder fail alike, or give folders that agree. -/
inductive Agreeing (A : Path → Prop) : Except IoKind Folder → Except IoKind Folder → Prop where
  | ok {f g : Folder} (agree : AgreeOn A f g) : Agreeing A (.ok f) (.ok g)
  | error (kind : IoKind) : Agreeing A (.error kind) (.error kind)

/-- A change at a path on which two folders agree is refused in both or in none. -/
theorem agreeing_changing {f₁ g₁ : Folder} (fixed : f.isFixed p = g.isFixed p)
    (agree : AgreeOn A f₁ g₁) : Agreeing A (f.changing p f₁) (g.changing p g₁) := by
  unfold changing
  rw [fixed]
  split
  · exact .error _
  · exact .ok agree

/-- Changes one after another. -/
theorem Agreeing.bind {x y : Except IoKind Folder} {k : Folder → Except IoKind Folder}
    (hxy : Agreeing A x y) (hk : ∀ f g, AgreeOn A f g → Agreeing A (k f) (k g)) :
    Agreeing A (x >>= k) (y >>= k) := by
  cases hxy with
  | ok agree => exact hk _ _ agree
  | error kind => exact .error kind

/-! ### Looking -/

/-- A walk looks at the paths at which its beginnings end. -/
theorem walk_congr (agree : AgreeOn A f g) (h : ∀ s, s <+: r → A (s.foldl Path.step p)) :
    f.walk p r = g.walk p r := by
  induction r generalizing p with
  | nil => rfl
  | cons s r ih =>
    have hp : f.entryAt? p = g.entryAt? p := agree.entry p (h [] List.nil_prefix)
    have hrest : f.walk (p.step s) r = g.walk (p.step s) r :=
      ih fun u hu => h (s :: u) (List.cons_prefix_cons.2 ⟨rfl, hu⟩)
    unfold walk
    rw [hp, hrest]

section

variable (agree : AgreeOn A f g) (passes : ∀ q, r.Passes q → A q)

include agree passes

theorem locate_congr : f.locate r = g.locate r := by
  unfold locate
  rw [walk_congr agree fun s hs => passes _ (Route.passes_path hs)]

theorem entryAt?_path_congr : f.entryAt? (Route.path r) = g.entryAt? (Route.path r) :=
  agree.entry _ (passes _ (Route.passes_path List.prefix_rfl))

theorem isFixed_path_congr : f.isFixed (Route.path r) = g.isFixed (Route.path r) :=
  agree.fixed _ (passes _ (Route.passes_path List.prefix_rfl))

theorem stat_congr : f.stat r = g.stat r := by
  have hlocate := locate_congr agree passes
  have hentry := entryAt?_path_congr agree passes
  unfold stat
  cases hl : f.locate r with
  | error kind => rw [← hlocate, hl]; rfl
  | ok q =>
    obtain rfl := locate_eq hl
    rw [← hlocate, hl]
    simp only [bind, Except.bind, hentry]

theorem exists?_congr : f.exists? r = g.exists? r := by
  unfold exists?
  rw [stat_congr agree passes]

theorem textAt_congr : f.textAt r = g.textAt r := by
  unfold textAt
  rw [stat_congr agree passes]

end

/-! ### Changing -/

theorem agreeing_makeFrom (agree : AgreeOn A f g) (h : ∀ s, s <+: r → A (s.foldl Path.step p)) :
    Agreeing A (f.makeFrom p r) (g.makeFrom p r) := by
  induction r generalizing f g p with
  | nil => exact .ok agree
  | cons s r ih =>
    have hrest : ∀ u, u <+: r → A (u.foldl Path.step (p.step s)) := fun u hu =>
      h (s :: u) (List.cons_prefix_cons.2 ⟨rfl, hu⟩)
    have hentry : f.entryAt? (p.step s) = g.entryAt? (p.step s) :=
      agree.entry _ (hrest [] List.nil_prefix)
    have hfixed : f.isFixed (p.step s) = g.isFixed (p.step s) :=
      agree.fixed _ (hrest [] List.nil_prefix)
    unfold makeFrom
    rw [hentry]
    split
    · exact .error _
    · split
      · exact (agreeing_changing hfixed (agree.put (p.step s) .directory)).bind
          fun _ _ agree' => ih agree' hrest
      · exact ih agree hrest
      · exact .error _

section

variable (agree : AgreeOn A f g) (passes : ∀ q, r.Passes q → A q)

include agree passes

theorem agreeing_makeDirectories : Agreeing A (f.makeDirectories r) (g.makeDirectories r) := by
  unfold makeDirectories
  split
  · exact .error _
  · exact agreeing_makeFrom agree fun s hs => passes _ (Route.passes_path hs)

theorem agreeing_write (t : String) : Agreeing A (f.write r t) (g.write r t) := by
  have hlocate := locate_congr agree passes
  have hentry := entryAt?_path_congr agree passes
  unfold write
  cases hl : f.locate r with
  | error kind => rw [← hlocate, hl]; exact .error kind
  | ok q =>
    obtain rfl := locate_eq hl
    rw [← hlocate, hl]
    simp only [bind, Except.bind, hentry]
    split
    · exact .error _
    · exact .ok (agree.put _ _)
    · exact agreeing_changing (isFixed_path_congr agree passes) (agree.put _ _)

theorem agreeing_remove : Agreeing A (f.remove r) (g.remove r) := by
  have hlocate := locate_congr agree passes
  have hentry := entryAt?_path_congr agree passes
  unfold remove
  cases hl : f.locate r with
  | error kind => rw [← hlocate, hl]; exact .error kind
  | ok q =>
    obtain rfl := locate_eq hl
    rw [← hlocate, hl, Result.ok_bind, Result.ok_bind, hentry]
    split
    · exact .error _
    · next e _ =>
      refine (agreeing_changing (isFixed_path_congr agree passes) (agree.erase _)).bind
        fun _ _ agree' => ?_
      split
      · exact .error _
      · exact .ok agree'

end

/-! ### What is changed -/

/-- Every entry that is another one is at a path of `F`, or is a directory where nothing stood, at a
path of `D`. -/
def Changes (F D : Path → Prop) (f g : Folder) : Prop :=
  ∀ q, g.entryAt? q ≠ f.entryAt? q →
    F q ∨ D q ∧ f.entryAt? q = none ∧ g.entryAt? q = some .directory

theorem Changes.refl (F D : Path → Prop) (f : Folder) : Changes F D f f :=
  fun _ h => absurd rfl h

theorem Changes.trans {f₁ f₂ f₃ : Folder} (h : Changes F D f₁ f₂) (h' : Changes F D f₂ f₃) :
    Changes F D f₁ f₃ := by
  intro q hq
  by_cases h₁₂ : f₂.entryAt? q = f₁.entryAt? q
  · rw [← h₁₂] at hq ⊢
    exact h' q hq
  · by_cases h₂₃ : f₃.entryAt? q = f₂.entryAt? q
    · rw [h₂₃]
      exact h q h₁₂
    · obtain hF | ⟨-, hnone, -⟩ := h' q h₂₃
      · exact .inl hF
      · -- what was made first is there, so nothing is made a second time
        obtain hF | ⟨-, -, hdir⟩ := h q h₁₂
        · exact .inl hF
        · rw [hnone] at hdir
          exact nomatch hdir

theorem changes_makeFrom (h : f.makeFrom p r = .ok g)
    (hD : ∀ s q, s <+: r → q.text = (s.foldl Path.step p).text → D q) : Changes F D f g := by
  induction r generalizing f p with
  | nil =>
    obtain rfl := Except.ok.inj h
    exact .refl F D f
  | cons s r ih =>
    have hrest : ∀ u q, u <+: r → q.text = (u.foldl Path.step (p.step s)).text → D q :=
      fun u q hu => hD (s :: u) q (List.cons_prefix_cons.2 ⟨rfl, hu⟩)
    unfold makeFrom at h
    split at h
    · simp at h
    · split at h
      · next hentry =>
        obtain ⟨f', hchanged, hmade⟩ := Result.bind_eq_ok_iff.1 h
        obtain ⟨-, rfl⟩ := changing_eq_ok_iff.1 hchanged
        refine Changes.trans (fun q hq => ?_) (ih hmade hrest)
        have hnil : q ≠ [] := by
          rintro rfl
          exact hq rfl
        have hstep : p.step s ≠ [] := by
          intro hnil
          simp [hnil] at hentry
        rw [entryAt?_put hnil] at hq ⊢
        split at hq
        · next htext =>
          rw [if_pos htext]
          refine .inr ⟨hrest [] q List.nil_prefix htext.symm, ?_, rfl⟩
          rw [entryAt?_of_ne_nil hnil, ← htext, ← entryAt?_of_ne_nil hstep]
          exact hentry
        · exact absurd rfl hq
      · exact ih h hrest
      · simp at h

theorem changes_makeDirectories (h : f.makeDirectories r = .ok g) (hD : ∀ q, r.Passes q → D q) :
    Changes F D f g := by
  unfold makeDirectories at h
  split at h
  · exact nomatch h
  · exact changes_makeFrom h fun s q hs hq => hD q ⟨s, hs, hq⟩

theorem changes_write (h : f.write r t = .ok g) (hF : ∀ q, q.text = (Route.path r).text → F q) :
    Changes F D f g := by
  obtain ⟨-, -, -, rfl⟩ := write_spec h
  intro q hq
  have hnil : q ≠ [] := by
    rintro rfl
    exact hq rfl
  rw [entryAt?_put hnil] at hq
  split at hq
  · next htext => exact .inl (hF q htext.symm)
  · exact absurd rfl hq

theorem changes_remove (h : f.remove r = .ok g) (hF : ∀ q, q.text = (Route.path r).text → F q) :
    Changes F D f g := by
  obtain ⟨-, -, -, rfl⟩ := remove_spec h
  intro q hq
  have hnil : q ≠ [] := by
    rintro rfl
    exact hq rfl
  rw [entryAt?_erase hnil] at hq
  split at hq
  · next htext => exact .inl (hF q htext.symm)
  · exact absurd rfl hq

end Folder

end Tabular
