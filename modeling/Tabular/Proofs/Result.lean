/-!
Results of operations that can be refused.

A chain of such operations succeeds exactly when each of them does (`bind_eq_ok_iff`), and so does
an operation on every item of a list (`exists_of_mem_mapM`). `Alike` says of two operations that
they are refused alike; it is proved along their text (`AlikeBut.bind`, `Alike.foldlM`).
-/

namespace Tabular.Result

variable {ε α α' β β' : Type}

@[simp] theorem ok_bind (a : α) (f : α → Except ε β) : (Except.ok a >>= f) = f a := rfl

@[simp] theorem error_bind (err : ε) (f : α → Except ε β) :
    (Except.error err >>= f) = .error err := rfl

/-- A chain of two operations succeeds when the first one does and the second one does after it. -/
theorem bind_eq_ok_iff {x : Except ε α} {f : α → Except ε β} {b : β} :
    (x >>= f) = .ok b ↔ ∃ a, x = .ok a ∧ f a = .ok b := by
  cases x <;> simp [bind, Except.bind]

/-- A chain of two operations fails with an error where the first one does, or the second one after
it. -/
theorem bind_eq_error_iff {x : Except ε α} {f : α → Except ε β} {err : ε} :
    (x >>= f) = .error err ↔ x = .error err ∨ ∃ a, x = .ok a ∧ f a = .error err := by
  cases x <;> simp [bind, Except.bind]

theorem pure_eq_ok_iff {a b : α} : (pure a : Except ε α) = .ok b ↔ a = b := by
  simp [pure, Except.pure]

/-- What an operation on every item of a list gives comes from the items. -/
theorem exists_of_mem_mapM {f : α → Except ε β} {l : List α} {r : List β}
    (h : l.mapM f = .ok r) : ∀ b ∈ r, ∃ a ∈ l, f a = .ok b := by
  induction l generalizing r with
  | nil =>
    rw [List.mapM_nil, pure_eq_ok_iff] at h
    simp [← h]
  | cons a l ih =>
    simp only [List.mapM_cons, bind_eq_ok_iff, pure_eq_ok_iff] at h
    obtain ⟨b, hb, bs, hbs, rfl⟩ := h
    intro c hc
    rcases List.mem_cons.1 hc with rfl | hc
    · exact ⟨a, List.mem_cons_self, hb⟩
    · obtain ⟨d, hd, hfd⟩ := ih hbs c hc
      exact ⟨d, List.mem_cons_of_mem _ hd, hfd⟩

/-! ### Errors that do not occur -/

section

variable {err : ε}

theorem pure_ne_error (a : α) : (pure a : Except ε α) ≠ .error err :=
  nofun

theorem bind_ne_error {x : Except ε α} {f : α → Except ε β} (hx : x ≠ .error err)
    (hf : ∀ a, f a ≠ .error err) : (x >>= f) ≠ .error err := by
  rw [Ne, bind_eq_error_iff]
  rintro (h | ⟨a, -, h⟩)
  · exact hx h
  · exact hf a h

theorem mapM_ne_error {f : α → Except ε β} (hf : ∀ a, f a ≠ .error err) (l : List α) :
    l.mapM f ≠ .error err := by
  induction l with
  | nil => exact pure_ne_error _
  | cons a l ih =>
    rw [List.mapM_cons]
    exact bind_ne_error (hf a) fun b => bind_ne_error ih fun bs => pure_ne_error _

theorem optionMapM_ne_error {f : α → Except ε β} (hf : ∀ a, f a ≠ .error err) (o : Option α) :
    o.mapM f ≠ .error err := by
  cases o with
  | none => exact pure_ne_error _
  | some a =>
    rw [Option.mapM_some, map_eq_pure_bind]
    exact bind_ne_error (hf a) fun b => pure_ne_error _

theorem foldlM_ne_error {f : β → α → Except ε β} (hf : ∀ b a, f b a ≠ .error err) (l : List α)
    (b : β) : l.foldlM f b ≠ .error err := by
  induction l generalizing b with
  | nil => exact pure_ne_error _
  | cons a l ih =>
    rw [List.foldlM_cons]
    exact bind_ne_error (hf b a) ih

end

/-! ### Two results -/

/-- Two operations both succeed, with results that are related, or both fail with the same error;
errors of an exempt kind may come on one side only. -/
def AlikeBut (exempt : ε → Prop) (R : α → β → Prop) : Except ε α → Except ε β → Prop
  | .ok a, .ok b => R a b
  | .ok _, .error err => exempt err
  | .error err, .ok _ => exempt err
  | .error err, .error err' => err = err' ∨ exempt err ∧ exempt err'

/-- Two operations both succeed, with results that are related, or both fail with the same error. -/
abbrev Alike (R : α → β → Prop) : Except ε α → Except ε β → Prop :=
  AlikeBut (fun _ => False) R

section

variable {exempt : ε → Prop} {R : α → β → Prop} {S : α' → β' → Prop} {x : Except ε α}
  {y : Except ε β}

/-- One operation after another: the first ones may not differ at all, or an error of the second
ones could stand against an exempt one. -/
protected theorem AlikeBut.bind {f : α → Except ε α'} {g : β → Except ε β'} (hxy : Alike R x y)
    (hfg : ∀ a b, R a b → AlikeBut exempt S (f a) (g b)) :
    AlikeBut exempt S (x >>= f) (y >>= g) := by
  cases x with
  | error err =>
    cases y with
    | error err' => exact .inl (hxy.resolve_right fun h => h.1)
    | ok b => exact hxy.elim
  | ok a =>
    cases y with
    | error err' => exact hxy.elim
    | ok b => exact hfg a b hxy

/-- Two operations are alike, unless one of them fails with an error that spoils the comparison. -/
def AlikeUnless (spoils : ε → Prop) (R : α → β → Prop) (x : Except ε α) (y : Except ε β) : Prop :=
  (∀ err, x = .error err → ¬spoils err) → (∀ err, y = .error err → ¬spoils err) → Alike R x y

/-- One operation after another: the first ones do not differ, and the second ones do not unless an
error spoils the comparison. -/
protected theorem AlikeUnless.bind {spoils : ε → Prop} {f : α → Except ε α'} {g : β → Except ε β'}
    (hxy : Alike R x y) (hfg : ∀ a b, R a b → AlikeUnless spoils S (f a) (g b)) :
    AlikeUnless spoils S (x >>= f) (y >>= g) := by
  cases x with
  | error err =>
    cases y with
    | error err' => exact fun _ _ => .inl (hxy.resolve_right fun h => h.1)
    | ok b => exact hxy.elim
  | ok a =>
    cases y with
    | error err' => exact hxy.elim
    | ok b => exact hfg a b hxy

protected theorem Alike.refl (x : Except ε α) : Alike Eq x x := by
  cases x with
  | ok a => rfl
  | error err => exact .inl rfl

/-- The same operation first. -/
theorem AlikeBut.bind_same {f : α → Except ε α'} {g : α → Except ε β'} (x : Except ε α)
    (hfg : ∀ a, AlikeBut exempt S (f a) (g a)) : AlikeBut exempt S (x >>= f) (x >>= g) := by
  cases x with
  | error err => exact .inl rfl
  | ok a => exact hfg a

/-- What is made of results that are there. -/
protected theorem AlikeBut.map {f : α → α'} {g : β → β'} (hxy : AlikeBut exempt R x y)
    (hfg : ∀ a b, R a b → S (f a) (g b)) :
    AlikeBut exempt S (x >>= fun a => pure (f a)) (y >>= fun b => pure (g b)) := by
  cases x with
  | error err => cases y <;> exact hxy
  | ok a =>
    cases y with
    | error err' => exact hxy
    | ok b => exact hfg a b hxy

/-- Steps that keep results related keep them so along a list. -/
protected theorem Alike.foldlM {γ : Type} {f : α → γ → Except ε α} {g : β → γ → Except ε β}
    (step : ∀ a b c, R a b → Alike R (f a c) (g b c)) (l : List γ) {a : α} {b : β} (h : R a b) :
    Alike R (l.foldlM f a) (l.foldlM g b) := by
  induction l generalizing a b with
  | nil => exact h
  | cons c l ih => exact AlikeBut.bind (step a b c h) fun _ _ hR => ih hR

/-- Operations that fail in an exempt way only. -/
theorem AlikeBut.of_exempt (hx : ∀ err, x = .error err → exempt err)
    (hy : ∀ err, y = .error err → exempt err) : AlikeBut exempt (fun _ _ => True) x y := by
  cases x with
  | ok a =>
    cases y with
    | ok b => trivial
    | error err => exact hy err rfl
  | error err =>
    cases y with
    | ok b => exact hx err rfl
    | error err' => exact .inr ⟨hx err rfl, hy err' rfl⟩

protected theorem AlikeBut.flip (h : AlikeBut exempt R x y) : AlikeBut exempt (flip R) y x := by
  cases x with
  | ok a => cases y <;> exact h
  | error err =>
    cases y with
    | ok b => exact h
    | error err' => exact h.imp Eq.symm And.symm

/-- An error that counts comes on the other side too. -/
theorem AlikeBut.eq_error {err : ε} (h : AlikeBut exempt R (.error err) y) (counts : ¬exempt err) :
    y = .error err := by
  cases y with
  | ok b => exact absurd h counts
  | error err' =>
    obtain rfl | ⟨hexempt, -⟩ := h
    · rfl
    · exact absurd hexempt counts

theorem AlikeBut.error_iff (h : AlikeBut exempt R x y) {err : ε} (counts : ¬exempt err) :
    x = .error err ↔ y = .error err := by
  constructor
  · rintro rfl
    exact h.eq_error counts
  · rintro rfl
    exact h.flip.eq_error counts

theorem Alike.ok_iff (h : Alike R x y) : (∃ a, x = .ok a) ↔ ∃ b, y = .ok b := by
  cases x with
  | ok a =>
    cases y with
    | ok b => exact ⟨fun _ => ⟨b, rfl⟩, fun _ => ⟨a, rfl⟩⟩
    | error err => exact h.elim
  | error err =>
    cases y with
    | ok b => exact h.elim
    | error err' => simp

end

end Tabular.Result
