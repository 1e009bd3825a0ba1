import Tabular.Proofs.Execution

/-!
Two runs side by side.

`Relates P x y Q E` says of two operations what holds after them: from states with `P` both succeed,
and `Q` holds of the results and the states they end in, or both fail with the same error in states
with `E`. So a property of two runs is proved along the text of the operations, as one of a single
run is by `Ensures`.
-/

namespace Tabular

section

variable {ε σ α β α' β' : Type}

/-- From states with `P`, two operations end in `Q` of their results, or in `E` and fail alike. -/
def Relates (P : σ → σ → Prop) (x : ExceptT ε (StateM σ) α) (y : ExceptT ε (StateM σ) α')
    (Q : α → α' → σ → σ → Prop) (E : σ → σ → Prop) : Prop :=
  ∀ s t, P s t → match exec x s, exec y t with
    | (.ok a, s'), (.ok b, t') => Q a b s' t'
    | (.error err, s'), (.error err', t') => err = err' ∧ E s' t'
    | _, _ => False

namespace Relates

variable {P P' : σ → σ → Prop} {E : σ → σ → Prop}

/-- One operation after another: what relates the first ones is what the second ones need. -/
protected theorem bind {x : ExceptT ε (StateM σ) α} {y : ExceptT ε (StateM σ) α'}
    {f : α → ExceptT ε (StateM σ) β} {g : α' → ExceptT ε (StateM σ) β'}
    {M : α → α' → σ → σ → Prop} {Q : β → β' → σ → σ → Prop} (hxy : Relates P x y M E)
    (hfg : ∀ a b, Relates (M a b) (f a) (g b) Q E) : Relates P (x >>= f) (y >>= g) Q E := by
  intro s t hst
  have h := hxy s t hst
  rw [exec_bind, exec_bind]
  rcases hx : exec x s with ⟨err | a, s'⟩ <;> rcases hy : exec y t with ⟨err' | b, t'⟩ <;>
    rw [hx, hy] at h
  · exact h
  · exact h.elim
  · exact h.elim
  · exact hfg a b s' t' h

/-- The same with first operations that have equal results. -/
theorem bind_eq {x y : ExceptT ε (StateM σ) α} {f : α → ExceptT ε (StateM σ) β}
    {g : α → ExceptT ε (StateM σ) β'} {M : α → σ → σ → Prop} {Q : β → β' → σ → σ → Prop}
    (hxy : Relates P x y (fun a b s t => a = b ∧ M a s t) E)
    (hfg : ∀ a, Relates (M a) (f a) (g a) Q E) : Relates P (x >>= f) (y >>= g) Q E := by
  refine hxy.bind fun a b s t hM => ?_
  obtain ⟨rfl, hM⟩ := hM
  exact hfg a s t hM

/-- What holds after success and after failure alike holds of the states that two runs end in. -/
theorem snd {x : ExceptT ε (StateM σ) α} {y : ExceptT ε (StateM σ) α'}
    (h : Relates P x y (fun _ _ => E) E) {s t : σ} (hst : P s t) :
    E (exec x s).2 (exec y t).2 := by
  have hxy := h s t hst
  rcases hx : exec x s with ⟨err | a, s'⟩ <;> rcases hy : exec y t with ⟨err' | b, t'⟩ <;>
    rw [hx, hy] at hxy
  · exact hxy.2
  · exact hxy.elim
  · exact hxy.elim
  · exact hxy

protected theorem pure {a : α} {b : α'} {Q : α → α' → σ → σ → Prop}
    (h : ∀ s t, P s t → Q a b s t) : Relates (ε := ε) P (pure a) (pure b) Q E :=
  h

protected theorem throw {err : ε} {Q : α → α' → σ → σ → Prop} (h : ∀ s t, P s t → E s t) :
    Relates P (throw err : ExceptT ε (StateM σ) α) (throw err : ExceptT ε (StateM σ) α') Q E :=
  fun s t hst => ⟨rfl, h s t hst⟩

/-- Operations that first look at their states. -/
theorem get_bind {f : σ → ExceptT ε (StateM σ) α} {g : σ → ExceptT ε (StateM σ) α'}
    {Q : α → α' → σ → σ → Prop}
    (h : ∀ s t, P s t → Relates (fun s' t' => s' = s ∧ t' = t) (f s) (g t) Q E) :
    Relates P (get >>= f) (get >>= g) Q E := by
  intro s t hst
  rw [exec_bind, exec_bind, exec_get, exec_get]
  exact h s t hst s t ⟨rfl, rfl⟩

protected theorem modify {f g : σ → σ} {Q : PUnit → PUnit → σ → σ → Prop}
    (h : ∀ s t, P s t → Q ⟨⟩ ⟨⟩ (f s) (g t)) :
    Relates (ε := ε) P (modify f) (modify g) Q E :=
  h

/-- What is known before two operations can be used in what is said of them. -/
theorem fact {φ : Prop} {x : ExceptT ε (StateM σ) α} {y : ExceptT ε (StateM σ) α'}
    {Q : α → α' → σ → σ → Prop} (h : φ → Relates P x y Q E) :
    Relates (fun s t => φ ∧ P s t) x y Q E :=
  fun s t hst => h hst.1 s t hst.2

/-- Less is needed and more holds. -/
theorem mono {x : ExceptT ε (StateM σ) α} {y : ExceptT ε (StateM σ) α'}
    {Q Q' : α → α' → σ → σ → Prop} {E' : σ → σ → Prop} (h : Relates P x y Q E)
    (hP : ∀ s t, P' s t → P s t) (hQ : ∀ a b s t, Q a b s t → Q' a b s t)
    (hE : ∀ s t, E s t → E' s t) : Relates P' x y Q' E' := by
  intro s t hst
  have hxy := h s t (hP s t hst)
  rcases hx : exec x s with ⟨err | a, s'⟩ <;> rcases hy : exec y t with ⟨err' | b, t'⟩ <;>
    rw [hx, hy] at hxy
  · exact ⟨hxy.1, hE s' t' hxy.2⟩
  · exact hxy.elim
  · exact hxy.elim
  · exact hQ a b s' t' hxy

theorem mono_pre {x : ExceptT ε (StateM σ) α} {y : ExceptT ε (StateM σ) α'}
    {Q : α → α' → σ → σ → Prop} (h : Relates P x y Q E) (hP : ∀ s t, P' s t → P s t) :
    Relates P' x y Q E :=
  h.mono hP (fun _ _ _ _ h => h) fun _ _ h => h

theorem mono_post {x : ExceptT ε (StateM σ) α} {y : ExceptT ε (StateM σ) α'}
    {Q Q' : α → α' → σ → σ → Prop} (h : Relates P x y Q E)
    (hQ : ∀ a b s t, Q a b s t → Q' a b s t) : Relates P x y Q' E :=
  h.mono (fun _ _ h => h) hQ fun _ _ h => h

end Relates

end

namespace Session

variable {α α' : Type} {P E : Interpreter × Session → Interpreter × Session → Prop}

/-- Operations of the engine inside two sessions. -/
theorem relates_storage {act : EngineM α} {act' : EngineM α'}
    {Q : α → α' → Interpreter × Session → Interpreter × Session → Prop}
    (h : ∀ p q, P p q → Relates (fun e e' => e = p.1.engine ∧ e' = q.1.engine) act act'
      (fun a b e e' => Q a b ({ p.1 with engine := e }, p.2) ({ q.1 with engine := e' }, q.2))
      fun e e' => E ({ p.1 with engine := e }, p.2) ({ q.1 with engine := e' }, q.2)) :
    Relates P (storage act) (storage act') Q E := by
  intro p q hpq
  have hact := h p q hpq p.1.engine q.1.engine ⟨rfl, rfl⟩
  rw [exec_storage, exec_storage]
  rcases hp : exec act p.1.engine with ⟨err | a, e⟩ <;>
    rcases hq : exec act' q.1.engine with ⟨err' | b, e'⟩ <;> rw [hp, hq] at hact
  · exact ⟨congrArg Error.storage hact.1, hact.2⟩
  · exact hact
  · exact hact
  · exact hact

end Session

end Tabular
