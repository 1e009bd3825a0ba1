import Tabular.Proofs.Execution

/-!
What the operations of the engine do.

Each operation of the engine is given as one equation for `exec`, in terms of the operations that it
consists of. `Engine.stored` is what the folder holds under a name, `Engine.found` the database of
the name in memory or else that, `Engine.registered` the engine after a database was brought into
memory, `Engine.forgotten` the engine after a name was taken out of it.
-/

namespace Tabular

namespace Scoped

variable {α : Type}

theorem get?_insert (m : Scoped α) (scope : Scope) (name : String) (value : α) (s : Scope)
    (n : String) : (m.insert scope name value).get? s n =
      if scope = s ∧ name = n then some value else m.get? s n := by
  cases scope <;> cases s <;> simp [Scoped.insert, Scoped.get?, Scoped.of]

theorem get?_erase (m : Scoped α) (scope : Scope) (name : String) (s : Scope) (n : String) :
    (m.erase scope name).get? s n = if scope = s ∧ name = n then none else m.get? s n := by
  cases scope <;> cases s <;> simp [Scoped.erase, Scoped.get?, Scoped.of]

@[simp] theorem get?_empty (s : Scope) (n : String) : (empty : Scoped α).get? s n = none := by
  cases s <;> rfl

end Scoped

namespace Engine

variable {α : Type}

/-! ### The folder -/

theorem exec_ask (question : Folder → Except IoKind α) (e : Engine) :
    exec (ask question) e = (match question e.folder with
      | .ok a => .ok a
      | .error kind => .error (.io kind), e) := by
  unfold ask
  rw [exec_bind, exec_get]
  cases h : question e.folder <;> simp [h]

theorem exec_change (act : Folder → Except IoKind Folder) (e : Engine) :
    exec (change act) e = match act e.folder with
      | .ok folder => (.ok (), { e with folder })
      | .error kind => (.error (.io kind), e) := by
  unfold change
  rw [exec_bind, exec_ask]
  cases act e.folder <;> rfl

/-- What the folder holds under a name. -/
def stored (e : Engine) (scope : Scope) (name : String) : Except StorageError (Option Database) :=
  match e.snapshotRoute? scope name with
  | none => .ok none
  | some route =>
    match e.folder.exists? route with
    | .error kind => .error (.io kind)
    | .ok false => .ok none
    | .ok true =>
      match e.folder.textAt route with
      | .error kind => .error (.io kind)
      | .ok text =>
        match Database.ofSnapshot? text with
        | some db => .ok (some db)
        | none => .error .snapshot

/-- The database of a name: the one in memory, or else what the folder holds. -/
def found (e : Engine) (scope : Scope) (name : String) : Except StorageError (Option Database) :=
  match e.live.get? scope name with
  | some cell => .ok (some (e.state cell))
  | none => e.stored scope name

theorem exec_readSnapshot (scope : Scope) (name : String) (e : Engine) :
    exec (readSnapshot scope name) e = (e.stored scope name, e) := by
  unfold readSnapshot stored
  rw [exec_bind, exec_get]
  dsimp only
  cases e.snapshotRoute? scope name with
  | none => rfl
  | some route =>
    dsimp only
    rw [exec_bind, exec_ask]
    rcases e.folder.exists? route with kind | _ | _
    · rfl
    · rfl
    · simp only [if_true]
      rw [exec_bind, exec_ask]
      cases e.folder.textAt route with
      | error kind => rfl
      | ok text =>
        dsimp only
        cases Database.ofSnapshot? text <;> rfl

/-! ### Names and cells -/

/-- The engine after a database was brought into memory, in a new cell, under a name. -/
def registered (e : Engine) (scope : Scope) (name : String) (db : Database) : Engine :=
  { e with states := e.states ++ [db], live := e.live.insert scope name e.states.length }

/-- The engine after a name was taken out of memory. -/
def forgotten (e : Engine) (scope : Scope) (name : String) : Engine :=
  { e with live := e.live.erase scope name }

theorem exec_register (scope : Scope) (name : String) (db : Database) (e : Engine) :
    exec (register scope name db) e = (.ok e.states.length, e.registered scope name db) := rfl

theorem exec_load (scope : Scope) (name : String) (e : Engine) :
    exec (load scope name) e = match e.live.get? scope name with
      | some cell => (.ok (some cell), e)
      | none =>
        match e.stored scope name with
        | .error err => (.error err, e)
        | .ok none => (.ok none, e)
        | .ok (some db) => (.ok (some e.states.length), e.registered scope name db) := by
  unfold load
  rw [exec_bind, exec_get]
  dsimp only
  cases e.live.get? scope name with
  | some cell => rfl
  | none =>
    dsimp only
    rw [exec_bind, exec_readSnapshot]
    rcases e.stored scope name with err | _ | db <;> rfl

theorem exec_open (scope : Scope) (name : String) (e : Engine) :
    exec (Engine.open scope name) e =
      ((exec (load scope name) e).1.map fun cell? => cell?.map fun cell => { scope, name, cell },
        (exec (load scope name) e).2) := by
  unfold Engine.open
  rw [exec_bind]
  rcases exec (load scope name) e with ⟨_ | _, t⟩ <;> rfl

/-! ### Operations -/

theorem exec_save (h : Handle) (e : Engine) :
    exec (save h) e = match e.snapshotRoute? h.scope h.name with
      | none => (.ok (), e)
      | some route =>
        match e.folder.makeDirectories route.dropLast with
        | .error kind => (.error (.io kind), e)
        | .ok made =>
          match made.write route (e.databaseOf h).snapshot with
          | .error kind => (.error (.io kind), { e with folder := made })
          | .ok written => (.ok (), { e with folder := written }) := by
  unfold save
  rw [exec_bind, exec_get]
  dsimp only
  cases e.snapshotRoute? h.scope h.name with
  | none => rfl
  | some route =>
    dsimp only
    rw [exec_bind, exec_change]
    cases e.folder.makeDirectories route.dropLast with
    | error kind => rfl
    | ok made =>
      dsimp only
      rw [exec_change]
      cases made.write route (e.databaseOf h).snapshot <;> rfl

theorem exec_createDatabase (scope : Scope) (name : String) (e : Engine) :
    exec (createDatabase scope name) e = match exec (load scope name) e with
      | (.error err, e₁) => (.error err, e₁)
      | (.ok (some _), e₁) => (.error (.databaseExists name), e₁)
      | (.ok none, e₁) =>
        match exec (save { scope, name, cell := e₁.states.length })
            (e₁.registered scope name (Database.new e₁.clock)) with
        | (.error err, e₂) => (.error err, e₂)
        | (.ok _, e₂) => (.ok (.message ("Database " ++ name ++ " created.")), e₂) := by
  unfold createDatabase
  rw [exec_bind]
  rcases exec (load scope name) e with ⟨err | cell, e₁⟩
  · rfl
  · cases cell with
    | some cell => rfl
    | none =>
      dsimp only [Option.isSome_none]
      simp only [Bool.false_eq_true, if_false]
      rw [exec_bind, exec_get]
      dsimp only
      rw [exec_bind, exec_register]
      dsimp only
      rw [exec_bind]
      rcases exec (save { scope, name, cell := e₁.states.length })
        (e₁.registered scope name (Database.new e₁.clock)) with ⟨_ | _, e₂⟩ <;> rfl

theorem exec_removeSnapshot (scope : Scope) (name : String) (e : Engine) :
    exec (removeSnapshot scope name) e = match e.snapshotRoute? scope name with
      | none => (.ok false, e)
      | some route =>
        match e.folder.exists? route with
        | .error kind => (.error (.io kind), e)
        | .ok false => (.ok false, e)
        | .ok true =>
          match e.folder.remove route with
          | .error kind => (.error (.io kind), e)
          | .ok folder => (.ok true, { e with folder }) := by
  unfold removeSnapshot
  rw [exec_bind, exec_get]
  dsimp only
  cases e.snapshotRoute? scope name with
  | none => rfl
  | some route =>
    dsimp only
    rw [exec_bind, exec_ask]
    rcases e.folder.exists? route with kind | _ | _
    · rfl
    · rfl
    · simp only [if_true]
      rw [exec_bind, exec_change]
      cases e.folder.remove route <;> rfl

theorem exec_dropDatabase (scope : Scope) (name : String) (e : Engine) :
    exec (dropDatabase scope name) e =
      match exec (removeSnapshot scope name) (e.forgotten scope name) with
      | (.error err, e₁) => (.error err, e₁)
      | (.ok deleted, e₁) =>
        if e.live.get? scope name = none ∧ deleted = false then
          (.error (.databaseNotFound name), e₁)
        else (.ok (.message ("Database " ++ name ++ " dropped.")), e₁) := by
  unfold dropDatabase
  rw [exec_bind, exec_get]
  dsimp only
  rw [exec_bind, exec_modify]
  dsimp only
  rw [exec_bind]
  rw [show ({ e with live := e.live.erase scope name } : Engine) = e.forgotten scope name from rfl]
  rcases exec (removeSnapshot scope name) (e.forgotten scope name) with ⟨err | deleted, e₁⟩
  · rfl
  · cases hl : e.live.get? scope name <;> cases deleted <;> simp

theorem exec_describeDatabase (active : Option Handle) (name : String) (e : Engine) :
    exec (describeDatabase active name) e = match active.filter (·.name = name) with
      | some h => (.ok (.database ((e.databaseOf h).describe name)), e)
      | none =>
        match exec (load .data name) e with
        | (.error err, e₁) => (.error err, e₁)
        | (.ok (some cell), e₁) => (.ok (.database ((e₁.state cell).describe name)), e₁)
        | (.ok none, e₁) => (.error (.databaseNotFound name), e₁) := by
  unfold describeDatabase
  cases active.filter (·.name = name) with
  | some h => rfl
  | none =>
    dsimp only
    rw [exec_bind]
    rcases exec (load .data name) e with ⟨_ | _ | _, e₁⟩ <;> rfl

/-! ### Errors -/

variable {scope : Scope} {name : String} {e e' : Engine} {err : StorageError}

theorem error_of_load (h : exec (load scope name) e = (.error err, e')) :
    err = .snapshot ∨ ∃ kind, err = .io kind := by
  rw [exec_load] at h
  cases hlive : e.live.get? scope name with
  | some cell => simp [hlive] at h
  | none =>
    simp only [hlive] at h
    rcases hstored : e.stored scope name with err' | _ | db <;> simp [hstored] at h
    obtain rfl := h.1
    unfold stored at hstored
    split at hstored
    · simp at hstored
    · split at hstored
      · exact .inr ⟨_, (Except.error.inj hstored).symm⟩
      · simp at hstored
      · split at hstored
        · exact .inr ⟨_, (Except.error.inj hstored).symm⟩
        · split at hstored
          · simp at hstored
          · exact .inl (Except.error.inj hstored).symm

theorem error_of_save {h : Handle} (hsave : exec (save h) e = (.error err, e')) :
    ∃ kind, err = .io kind := by
  rw [exec_save] at hsave
  split at hsave
  · simp at hsave
  · split at hsave
    · exact ⟨_, (Except.error.inj (Prod.mk.inj hsave).1).symm⟩
    · split at hsave
      · exact ⟨_, (Except.error.inj (Prod.mk.inj hsave).1).symm⟩
      · simp at hsave

theorem error_of_createDatabase (h : exec (createDatabase scope name) e = (.error err, e')) :
    err = .databaseExists name ∨ err = .snapshot ∨ ∃ kind, err = .io kind := by
  rw [exec_createDatabase] at h
  rcases hload : exec (load scope name) e with ⟨err' | _ | c, e₁⟩ <;> rw [hload] at h
  · obtain rfl := Except.error.inj (Prod.mk.inj h).1
    exact .inr (error_of_load hload)
  · dsimp only at h
    rcases hsave : exec (save { scope, name, cell := e₁.states.length })
      (e₁.registered scope name (Database.new e₁.clock)) with ⟨err' | _, e₂⟩ <;> rw [hsave] at h
    · obtain rfl := Except.error.inj (Prod.mk.inj h).1
      exact .inr (.inr (error_of_save hsave))
    · simp at h
  · exact .inl (Except.error.inj (Prod.mk.inj h).1).symm

theorem error_of_removeSnapshot (h : exec (removeSnapshot scope name) e = (.error err, e')) :
    ∃ kind, err = .io kind := by
  rw [exec_removeSnapshot] at h
  split at h
  · simp at h
  · split at h
    · exact ⟨_, (Except.error.inj (Prod.mk.inj h).1).symm⟩
    · simp at h
    · split at h
      · exact ⟨_, (Except.error.inj (Prod.mk.inj h).1).symm⟩
      · simp at h

theorem error_of_dropDatabase (h : exec (dropDatabase scope name) e = (.error err, e')) :
    err = .databaseNotFound name ∨ ∃ kind, err = .io kind := by
  rw [exec_dropDatabase] at h
  rcases hremove : exec (removeSnapshot scope name) (e.forgotten scope name) with
    ⟨err' | deleted, e₁⟩ <;> rw [hremove] at h
  · obtain rfl := Except.error.inj (Prod.mk.inj h).1
    exact .inr (error_of_removeSnapshot hremove)
  · dsimp only at h
    split at h
    · exact .inl (Except.error.inj (Prod.mk.inj h).1).symm
    · simp at h

end Engine

end Tabular
