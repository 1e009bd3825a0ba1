import Tabular.Session

/-!
Running operations.

An operation of the engine or of a session changes a state and may fail, and what it has changed by
then stays changed. `exec` runs it and gives its result with the state it ends in; the lemmas of
this module say how `exec` goes through the parts of an operation.

`Ensures P act Q E` says of an operation what holds after it: `Q` of its result and the state it
ends in where it succeeds, `E` of the error and the state where it fails, provided that `P` holds of
the state in which it starts.
-/

namespace Tabular

section

variable {ε σ α β : Type}

/-- The result of an operation and the state in which it ends. -/
def exec (act : ExceptT ε (StateM σ) α) (s : σ) : Except ε α × σ := act.run.run s

/-- Operations that do the same in every state are the same. -/
theorem exec_ext {x y : ExceptT ε (StateM σ) α} (h : ∀ s, exec x s = exec y s) : x = y :=
  funext h

@[simp] theorem exec_pure (a : α) (s : σ) :
    exec (pure a : ExceptT ε (StateM σ) α) s = (.ok a, s) := rfl

@[simp] theorem exec_throw (err : ε) (s : σ) :
    exec (throw err : ExceptT ε (StateM σ) α) s = (.error err, s) := rfl

@[simp] theorem exec_get (s : σ) : exec (get : ExceptT ε (StateM σ) σ) s = (.ok s, s) := rfl

@[simp] theorem exec_modify (f : σ → σ) (s : σ) :
    exec (modify f : ExceptT ε (StateM σ) PUnit) s = (.ok ⟨⟩, f s) := rfl

@[simp] theorem exec_ofExcept (x : Except ε α) (s : σ) :
    exec (ofExcept x : ExceptT ε (StateM σ) α) s = (x, s) := by
  cases x <;> rfl

/-- An operation whose failure is no failure of the operation that it is part of. -/
@[simp] theorem exec_liftM_run {δ : Type} (act : ExceptT ε (StateM σ) α) (s : σ) :
    exec (liftM act.run : ExceptT δ (StateM σ) (Except ε α)) s =
      (.ok (exec act s).1, (exec act s).2) := rfl

/-- One operation after another: the second one runs only where the first one has succeeded. -/
theorem exec_bind (x : ExceptT ε (StateM σ) α) (f : α → ExceptT ε (StateM σ) β) (s : σ) :
    exec (x >>= f) s = match exec x s with
      | (.ok a, t) => exec (f a) t
      | (.error err, t) => (.error err, t) := by
  change ExceptT.bindCont f (x.run.run s).1 (x.run.run s).2 = _
  unfold exec
  rcases x.run.run s with ⟨_ | _, t⟩ <;> rfl

theorem exec_bind_of_ok {x : ExceptT ε (StateM σ) α} {f : α → ExceptT ε (StateM σ) β}
    {s t : σ} {a : α} (h : exec x s = (.ok a, t)) : exec (x >>= f) s = exec (f a) t := by
  rw [exec_bind, h]

theorem exec_bind_of_error {x : ExceptT ε (StateM σ) α} {f : α → ExceptT ε (StateM σ) β}
    {s t : σ} {err : ε} (h : exec x s = (.error err, t)) :
    exec (x >>= f) s = (.error err, t) := by
  rw [exec_bind, h]

/-! ### Conditions before and after -/

/-- From a state with `P`, an operation ends in `Q` of its result or in `E` of its error. -/
def Ensures (P : σ → Prop) (act : ExceptT ε (StateM σ) α) (Q : α → σ → Prop)
    (E : ε → σ → Prop) : Prop :=
  ∀ s, P s → match exec act s with
    | (.ok a, t) => Q a t
    | (.error err, t) => E err t

namespace Ensures

variable {P P' : σ → Prop} {R : α → σ → Prop} {Q : β → σ → Prop} {E : ε → σ → Prop}

/-- One operation after another: what holds after the first one is what the second one needs. -/
protected theorem bind {x : ExceptT ε (StateM σ) α} {f : α → ExceptT ε (StateM σ) β}
    (hx : Ensures P x R E) (hf : ∀ a, Ensures (R a) (f a) Q E) : Ensures P (x >>= f) Q E := by
  intro s hs
  have h := hx s hs
  rw [exec_bind]
  rcases hr : exec x s with ⟨err | a, t⟩ <;> rw [hr] at h
  · exact h
  · exact hf a t h

protected theorem pure {b : β} (h : ∀ s, P s → Q b s) :
    Ensures P (pure b : ExceptT ε (StateM σ) β) Q E :=
  h

protected theorem throw {err : ε} (h : ∀ s, P s → E err s) :
    Ensures P (throw err : ExceptT ε (StateM σ) β) Q E :=
  h

/-- An operation that first looks at the state. -/
theorem get_bind {f : σ → ExceptT ε (StateM σ) β}
    (h : ∀ s, P s → Ensures (fun t => t = s) (f s) Q E) : Ensures P (get >>= f) Q E := by
  intro s hs
  rw [exec_bind, exec_get]
  exact h s hs s rfl

protected theorem modify {g : σ → σ} {R : PUnit → σ → Prop} (h : ∀ s, P s → R ⟨⟩ (g s)) :
    Ensures P (modify g : ExceptT ε (StateM σ) PUnit) R E :=
  h

/-- Less is needed and more is ensured. -/
theorem mono {x : ExceptT ε (StateM σ) β} {Q' : β → σ → Prop} {E' : ε → σ → Prop}
    (h : Ensures P x Q E) (hP : ∀ s, P' s → P s) (hQ : ∀ b s, Q b s → Q' b s)
    (hE : ∀ err s, E err s → E' err s) : Ensures P' x Q' E' := by
  intro s hs
  have hx := h s (hP s hs)
  rcases hr : exec x s with ⟨err | b, t⟩ <;> rw [hr] at hx
  · exact hE err t hx
  · exact hQ b t hx

theorem mono_pre {x : ExceptT ε (StateM σ) β} (h : Ensures P x Q E) (hP : ∀ s, P' s → P s) :
    Ensures P' x Q E :=
  h.mono hP (fun _ _ h => h) fun _ _ h => h

theorem mono_error {x : ExceptT ε (StateM σ) β} {E' : ε → σ → Prop} (h : Ensures P x Q E)
    (hE : ∀ err s, E err s → E' err s) : Ensures P x Q E' :=
  h.mono (fun _ h => h) (fun _ _ h => h) hE

/-- Two things that are ensured are ensured together. -/
theorem and {x : ExceptT ε (StateM σ) β} {Q' : β → σ → Prop} {E' : ε → σ → Prop}
    (h : Ensures P x Q E) (h' : Ensures P x Q' E') :
    Ensures P x (fun b s => Q b s ∧ Q' b s) (fun err s => E err s ∧ E' err s) := by
  intro s hs
  have hx := h s hs
  have hx' := h' s hs
  rcases hr : exec x s with ⟨err | b, t⟩ <;> rw [hr] at hx hx' <;> exact ⟨hx, hx'⟩

/-- What holds after an operation however it ends. -/
theorem always_iff {x : ExceptT ε (StateM σ) β} {I : σ → Prop} :
    Ensures P x (fun _ => I) (fun _ => I) ↔ ∀ s, P s → I (exec x s).2 := by
  refine forall₂_congr fun s _ => ?_
  rcases exec x s with ⟨err | b, t⟩ <;> exact Iff.rfl

/-- An operation either succeeds or fails, and what is ensured for the one or the other holds. -/
theorem cases {x : ExceptT ε (StateM σ) β} (h : Ensures P x Q E) {s : σ} (hs : P s) :
    (∃ b, (exec x s).1 = .ok b ∧ Q b (exec x s).2) ∨
      ∃ err, (exec x s).1 = .error err ∧ E err (exec x s).2 := by
  have hx := h s hs
  rcases hr : exec x s with ⟨err | b, t⟩ <;> rw [hr] at hx
  · exact .inr ⟨err, rfl, hx⟩
  · exact .inl ⟨b, rfl, hx⟩

end Ensures

end

namespace Engine

variable {α : Type}

theorem exec_query (h : Handle) (f : Database → Except StorageError α) (e : Engine) :
    exec (query h f) e = (f (e.databaseOf h), e) := by
  unfold query
  rw [exec_bind, exec_get]
  cases hf : f (e.databaseOf h) <;> simp [hf]

/-- Changing the database of a handle: a refusal leaves everything as it is. -/
theorem exec_edit (h : Handle) (f : Database → Except StorageError (α × Database)) (e : Engine) :
    exec (edit h f) e = match f (e.databaseOf h) with
      | .ok (a, db) => (.ok a, e.setState h.cell db)
      | .error err => (.error err, e) := by
  unfold edit
  rw [exec_bind, exec_query]
  rcases f (e.databaseOf h) with err | ⟨a, db⟩ <;> rfl

end Engine

namespace Session

/-- An operation of the engine inside a session. -/
theorem exec_storage {α : Type} (act : EngineM α) (p : Interpreter × Session) :
    exec (storage act) p = match exec act p.1.engine with
      | (.ok a, e) => (.ok a, ({ p.1 with engine := e }, p.2))
      | (.error err, e) => (.error (.storage err), ({ p.1 with engine := e }, p.2)) := by
  unfold storage
  rw [exec_bind, exec_get]
  dsimp only
  unfold exec
  cases act.run.run p.1.engine with
  | mk result e => cases result <;> rfl

/-- An operation of the engine changes only the engine, whether it succeeds or fails. -/
theorem exec_storage_snd {α : Type} (act : EngineM α) (p : Interpreter × Session) :
    (exec (storage act) p).2 = ({ p.1 with engine := (exec act p.1.engine).2 }, p.2) := by
  rw [exec_storage]
  rcases exec act p.1.engine with ⟨_ | _, e⟩ <;> rfl

end Session

end Tabular
