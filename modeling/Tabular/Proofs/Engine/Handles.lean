import Tabular.Proofs.Engine.Operations

/-!
Names, cells and handles.

A name of a database leads to a cell, and a handle keeps its cell for good. Three facts keep these
apart. In an `Ordered` engine no two names share a cell. A handle that is `Valid` has a cell to
which no name but its own leads. And an operation on one scope `Spares` the other one: its names
lead where they did, to the databases they did.

Every operation evolves an engine (`Evolves`): it keeps the engine ordered and every handle valid.
-/

namespace Tabular.Engine

/-- Every name leads to a cell that is there, and no two names lead to one cell. -/
structure Ordered (e : Engine) : Prop where
  cell_lt : ∀ scope name c, e.live.get? scope name = some c → c < e.states.length
  injective : ∀ scope name scope' name' c, e.live.get? scope name = some c →
    e.live.get? scope' name' = some c → scope = scope' ∧ name = name'

/-- A handle with a cell that is there, to which no name but the handle's own leads. The name need
not lead there: it may have been dropped, and even taken again by another database. -/
structure Valid (e : Engine) (h : Handle) : Prop where
  cell_lt : h.cell < e.states.length
  own : ∀ scope name, e.live.get? scope name = some h.cell → scope = h.scope ∧ name = h.name

/-- What every operation does to an engine: cells stay, names move to new cells only, and names stay
apart. -/
structure Evolves (e e' : Engine) : Prop where
  dataDir : e'.dataDir = e.dataDir
  clock : e'.clock = e.clock
  length_le : e.states.length ≤ e'.states.length
  live_old : ∀ scope name c, e'.live.get? scope name = some c → c < e.states.length →
    e.live.get? scope name = some c
  ordered : e.Ordered → e'.Ordered

/-- The databases of a scope are what and where they were. -/
structure Spares (scope : Scope) (e e' : Engine) : Prop where
  live : ∀ name, e'.live.get? scope name = e.live.get? scope name
  state : ∀ name c, e.live.get? scope name = some c → e'.state c = e.state c

theorem new_ordered (dataDir : Option Route) (folder : Folder) (clock : Timestamp) :
    (Engine.new dataDir folder clock).Ordered :=
  ⟨by simp [Engine.new], by simp [Engine.new]⟩

theorem Evolves.refl (e : Engine) : Evolves e e :=
  ⟨rfl, rfl, Nat.le_refl _, fun _ _ _ h _ => h, id⟩

theorem Evolves.trans {e₁ e₂ e₃ : Engine} (h : Evolves e₁ e₂) (h' : Evolves e₂ e₃) :
    Evolves e₁ e₃ where
  dataDir := h'.dataDir.trans h.dataDir
  clock := h'.clock.trans h.clock
  length_le := Nat.le_trans h.length_le h'.length_le
  live_old := fun scope name c hc hlt =>
    h.live_old scope name c
      (h'.live_old scope name c hc (Nat.lt_of_lt_of_le hlt h.length_le)) hlt
  ordered := fun ho => h'.ordered (h.ordered ho)

theorem Spares.refl (scope : Scope) (e : Engine) : Spares scope e e :=
  ⟨fun _ => rfl, fun _ _ _ => rfl⟩

theorem Spares.trans {scope : Scope} {e₁ e₂ e₃ : Engine} (h : Spares scope e₁ e₂)
    (h' : Spares scope e₂ e₃) : Spares scope e₁ e₃ where
  live := fun name => (h'.live name).trans (h.live name)
  state := fun name c hc =>
    (h'.state name c ((h.live name).trans hc)).trans (h.state name c hc)

/-- A valid handle stays valid: a name that leads to its cell did so before. -/
theorem Valid.evolves {e e' : Engine} {h : Handle} (valid : e.Valid h) (evolves : Evolves e e') :
    e'.Valid h where
  cell_lt := Nat.lt_of_lt_of_le valid.cell_lt evolves.length_le
  own := fun scope name hlive =>
    valid.own scope name (evolves.live_old scope name h.cell hlive valid.cell_lt)

/-- The handle of a name that leads to a cell. -/
theorem Ordered.valid {e : Engine} (ordered : e.Ordered) {scope : Scope} {name : String} {c : Nat}
    (h : e.live.get? scope name = some c) : e.Valid { scope, name, cell := c } where
  cell_lt := ordered.cell_lt scope name c h
  own := fun scope' name' h' =>
    ordered.injective scope' name' scope name c h' h

/-! ### Changes of the engine -/

theorem evolves_folder (e : Engine) (folder : Folder) : Evolves e { e with folder } :=
  ⟨rfl, rfl, Nat.le_refl _, fun _ _ _ h _ => h, fun ho => ⟨ho.cell_lt, ho.injective⟩⟩

theorem spares_folder (scope : Scope) (e : Engine) (folder : Folder) :
    Spares scope e { e with folder } :=
  ⟨fun _ => rfl, fun _ _ _ => rfl⟩

theorem evolves_setState (e : Engine) (cell : Nat) (db : Database) :
    Evolves e (e.setState cell db) where
  dataDir := rfl
  clock := rfl
  length_le := by simp [setState]
  live_old := fun _ _ _ h _ => h
  ordered := fun ho =>
    ⟨fun scope name c h => by simpa [setState] using ho.cell_lt scope name c h, ho.injective⟩

theorem state_setState (e : Engine) (cell : Nat) (db : Database) (c : Nat) :
    (e.setState cell db).state c =
      if cell = c ∧ c < e.states.length then db else e.state c := by
  unfold state setState
  rw [List.getElem?_set]
  by_cases hc : cell = c
  · subst hc
    by_cases hlt : cell < e.states.length <;> simp [hlt]
  · simp [hc]

theorem spares_setState {scope : Scope} {e : Engine} {cell : Nat}
    (apart : ∀ name, e.live.get? scope name ≠ some cell) (db : Database) :
    Spares scope e (e.setState cell db) where
  live := fun _ => rfl
  state := fun name c hc => by
    rw [state_setState, if_neg]
    rintro ⟨rfl, -⟩
    exact apart name hc

theorem live_registered (e : Engine) (scope : Scope) (name : String) (db : Database) (s : Scope)
    (n : String) : (e.registered scope name db).live.get? s n =
      if scope = s ∧ name = n then some e.states.length else e.live.get? s n :=
  Scoped.get?_insert ..

theorem length_registered (e : Engine) (scope : Scope) (name : String) (db : Database) :
    (e.registered scope name db).states.length = e.states.length + 1 := by
  simp [registered]

theorem state_registered_of_lt (e : Engine) (scope : Scope) (name : String) (db : Database)
    {c : Nat} (hc : c < e.states.length) : (e.registered scope name db).state c = e.state c := by
  simp [state, registered, List.getElem?_append_left hc]

theorem state_registered (e : Engine) (scope : Scope) (name : String) (db : Database) :
    (e.registered scope name db).state e.states.length = db := by
  simp [state, registered]

/-- A new cell is one to which no name has led. -/
theorem evolves_registered (e : Engine) (scope : Scope) (name : String) (db : Database) :
    Evolves e (e.registered scope name db) where
  dataDir := rfl
  clock := rfl
  length_le := by simp [registered]
  live_old := by
    intro s n c h hlt
    rw [live_registered] at h
    split at h
    · obtain rfl := Option.some.inj h
      exact absurd hlt (Nat.lt_irrefl _)
    · exact h
  ordered := by
    intro ho
    constructor
    · intro s n c h
      have hlen := length_registered e scope name db
      rw [live_registered] at h
      split at h
      · obtain rfl := Option.some.inj h
        omega
      · have := ho.cell_lt s n c h
        omega
    · intro s n s' n' c h h'
      rw [live_registered] at h h'
      split at h <;> split at h'
      · next heq heq' => exact ⟨heq.1.symm.trans heq'.1, heq.2.symm.trans heq'.2⟩
      · obtain rfl := Option.some.inj h
        exact absurd (ho.cell_lt s' n' _ h') (Nat.lt_irrefl _)
      · obtain rfl := Option.some.inj h'
        exact absurd (ho.cell_lt s n _ h) (Nat.lt_irrefl _)
      · exact ho.injective s n s' n' c h h'

theorem spares_registered {e : Engine} (ordered : e.Ordered) {scope s : Scope} (hs : s ≠ scope)
    (name : String) (db : Database) : Spares scope e (e.registered s name db) where
  live := fun n => by rw [live_registered, if_neg (fun h => hs h.1)]
  state := fun n c hc => state_registered_of_lt e s name db (ordered.cell_lt scope n c hc)

theorem live_forgotten (e : Engine) (scope : Scope) (name : String) (s : Scope) (n : String) :
    (e.forgotten scope name).live.get? s n =
      if scope = s ∧ name = n then none else e.live.get? s n :=
  Scoped.get?_erase ..

theorem evolves_forgotten (e : Engine) (scope : Scope) (name : String) :
    Evolves e (e.forgotten scope name) := by
  have hlive : ∀ s n c, (e.forgotten scope name).live.get? s n = some c →
      e.live.get? s n = some c := by
    intro s n c h
    rw [live_forgotten] at h
    split at h
    · simp at h
    · exact h
  exact
    { dataDir := rfl
      clock := rfl
      length_le := Nat.le_refl _
      live_old := fun s n c h _ => hlive s n c h
      ordered := fun ho =>
        ⟨fun s n c h => ho.cell_lt s n c (hlive s n c h),
          fun s n s' n' c h h' => ho.injective s n s' n' c (hlive s n c h) (hlive s' n' c h')⟩ }

theorem spares_forgotten {scope s : Scope} (hs : s ≠ scope) (e : Engine) (name : String) :
    Spares scope e (e.forgotten s name) where
  live := fun n => by rw [live_forgotten, if_neg (fun h => hs h.1)]
  state := fun _ _ _ => rfl

/-! ### Operations -/

theorem evolves_load (scope : Scope) (name : String) (e : Engine) :
    Evolves e (exec (load scope name) e).2 := by
  rw [exec_load]
  cases e.live.get? scope name with
  | some cell => exact .refl e
  | none =>
    rcases e.stored scope name with err | _ | db
    · exact .refl e
    · exact .refl e
    · exact evolves_registered e scope name db

theorem spares_load {e : Engine} (ordered : e.Ordered) {scope s : Scope} (hs : s ≠ scope)
    (name : String) : Spares scope e (exec (load s name) e).2 := by
  rw [exec_load]
  cases e.live.get? s name with
  | some cell => exact .refl scope e
  | none =>
    rcases e.stored s name with err | _ | db
    · exact .refl scope e
    · exact .refl scope e
    · exact spares_registered ordered hs name db

/-- The cell that loading a name gives is the one to which the name leads from then on. -/
theorem live_of_load {scope : Scope} {name : String} {e e' : Engine} {c : Nat}
    (h : exec (load scope name) e = (.ok (some c), e')) : e'.live.get? scope name = some c := by
  rw [exec_load] at h
  cases hl : e.live.get? scope name with
  | some cell =>
    simp only [hl] at h
    obtain ⟨hc, rfl⟩ := Prod.mk.inj h
    exact hl.trans (Except.ok.inj hc)
  | none =>
    simp only [hl] at h
    rcases hs : e.stored scope name with err | _ | db <;> simp only [hs] at h
    · exact absurd (Prod.mk.inj h).1 (by simp)
    · exact absurd (Prod.mk.inj h).1 (by simp)
    · obtain ⟨hc, rfl⟩ := Prod.mk.inj h
      rw [live_registered, if_pos ⟨rfl, rfl⟩]
      exact Except.ok.inj hc

/-- Loading a name gives the database that is found under it. -/
theorem map_state_of_load (scope : Scope) (name : String) (e : Engine) :
    ((exec (load scope name) e).1.map fun c? => c?.map (exec (load scope name) e).2.state) =
      e.found scope name := by
  rw [exec_load]
  unfold found
  cases e.live.get? scope name with
  | some cell => rfl
  | none =>
    rcases e.stored scope name with err | _ | db
    · rfl
    · rfl
    · exact congrArg (fun db => Except.ok (some db)) (state_registered e scope name db)

/-- A name that is not found leaves the engine as it is, and is not in memory. -/
theorem eq_of_load_none {scope : Scope} {name : String} {e e' : Engine}
    (h : exec (load scope name) e = (.ok none, e')) :
    e' = e ∧ e.live.get? scope name = none ∧ e.stored scope name = .ok none := by
  rw [exec_load] at h
  cases hl : e.live.get? scope name with
  | some cell =>
    simp only [hl] at h
    exact absurd (Prod.mk.inj h).1 (by simp)
  | none =>
    simp only [hl] at h
    rcases hs : e.stored scope name with err | _ | db <;> simp only [hs] at h
    · exact absurd (Prod.mk.inj h).1 (by simp)
    · exact ⟨(Prod.mk.inj h).2.symm, rfl, rfl⟩
    · exact absurd (Prod.mk.inj h).1 (by simp)

/-- A name that cannot be loaded leaves the engine as it is. -/
theorem eq_of_load_error {scope : Scope} {name : String} {e e' : Engine} {err : StorageError}
    (h : exec (load scope name) e = (.error err, e')) : e' = e := by
  rw [exec_load] at h
  cases hlive : e.live.get? scope name with
  | some cell => simp [hlive] at h
  | none =>
    simp only [hlive] at h
    rcases hstored : e.stored scope name with err' | _ | db <;> simp [hstored] at h
    exact h.2.symm

theorem exec_save_snd (h : Handle) (e : Engine) :
    ∃ folder, (exec (save h) e).2 = { e with folder } := by
  rw [exec_save]
  cases e.snapshotRoute? h.scope h.name with
  | none => exact ⟨e.folder, rfl⟩
  | some route =>
    dsimp only
    cases e.folder.makeDirectories route.dropLast with
    | error kind => exact ⟨e.folder, rfl⟩
    | ok made =>
      dsimp only
      cases made.write route (e.databaseOf h).snapshot with
      | error kind => exact ⟨made, rfl⟩
      | ok written => exact ⟨written, rfl⟩

theorem evolves_save (h : Handle) (e : Engine) : Evolves e (exec (save h) e).2 := by
  obtain ⟨folder, hsave⟩ := exec_save_snd h e
  exact hsave ▸ evolves_folder e folder

theorem spares_save (scope : Scope) (h : Handle) (e : Engine) :
    Spares scope e (exec (save h) e).2 := by
  obtain ⟨folder, hsave⟩ := exec_save_snd h e
  exact hsave ▸ spares_folder scope e folder

theorem exec_removeSnapshot_snd (scope : Scope) (name : String) (e : Engine) :
    ∃ folder, (exec (removeSnapshot scope name) e).2 = { e with folder } := by
  rw [exec_removeSnapshot]
  cases e.snapshotRoute? scope name with
  | none => exact ⟨e.folder, rfl⟩
  | some route =>
    dsimp only
    rcases e.folder.exists? route with kind | _ | _
    · exact ⟨e.folder, rfl⟩
    · exact ⟨e.folder, rfl⟩
    · cases e.folder.remove route with
      | error kind => exact ⟨e.folder, rfl⟩
      | ok folder => exact ⟨folder, rfl⟩

theorem evolves_createDatabase (scope : Scope) (name : String) (e : Engine) :
    Evolves e (exec (createDatabase scope name) e).2 := by
  have hload := evolves_load scope name e
  rw [exec_createDatabase]
  rcases hl : exec (load scope name) e with ⟨err | _ | cell, e₁⟩ <;> rw [hl] at hload
  · exact hload
  · have hreg := hload.trans (evolves_registered e₁ scope name (Database.new e₁.clock))
    have hsave := hreg.trans (evolves_save { scope, name, cell := e₁.states.length } _)
    dsimp only
    rcases hs : exec (save { scope, name, cell := e₁.states.length })
      (e₁.registered scope name (Database.new e₁.clock)) with ⟨_ | _, e₂⟩ <;> rw [hs] at hsave <;>
      exact hsave
  · exact hload

theorem spares_createDatabase {e : Engine} (ordered : e.Ordered) {scope s : Scope}
    (hs : s ≠ scope) (name : String) :
    Spares scope e (exec (createDatabase s name) e).2 := by
  have hload := spares_load ordered hs name
  have hordered := (evolves_load s name e).ordered ordered
  rw [exec_createDatabase]
  rcases hl : exec (load s name) e with ⟨err | _ | cell, e₁⟩ <;> rw [hl] at hload hordered
  · exact hload
  · have hreg := hload.trans (spares_registered hordered hs name (Database.new e₁.clock))
    have hsave := hreg.trans (spares_save scope { scope := s, name, cell := e₁.states.length } _)
    dsimp only
    rcases hs : exec (save { scope := s, name, cell := e₁.states.length })
      (e₁.registered s name (Database.new e₁.clock)) with ⟨_ | _, e₂⟩ <;> rw [hs] at hsave <;>
      exact hsave
  · exact hload

/-- Dropping a database takes its name out of memory, and may change the folder. -/
theorem exec_dropDatabase_snd (scope : Scope) (name : String) (e : Engine) :
    ∃ folder, (exec (dropDatabase scope name) e).2 =
      { e.forgotten scope name with folder } := by
  obtain ⟨folder, hfolder⟩ := exec_removeSnapshot_snd scope name (e.forgotten scope name)
  refine ⟨folder, ?_⟩
  rw [exec_dropDatabase]
  rcases hr : exec (removeSnapshot scope name) (e.forgotten scope name) with ⟨err | deleted, e₁⟩
  · rw [hr] at hfolder
    exact hfolder
  · rw [hr] at hfolder
    dsimp only
    split <;> exact hfolder

theorem evolves_dropDatabase (scope : Scope) (name : String) (e : Engine) :
    Evolves e (exec (dropDatabase scope name) e).2 := by
  obtain ⟨folder, hdrop⟩ := exec_dropDatabase_snd scope name e
  exact hdrop ▸ (evolves_forgotten e scope name).trans (evolves_folder _ folder)

theorem spares_dropDatabase {scope s : Scope} (hs : s ≠ scope) (name : String) (e : Engine) :
    Spares scope e (exec (dropDatabase s name) e).2 := by
  obtain ⟨folder, hdrop⟩ := exec_dropDatabase_snd s name e
  exact hdrop ▸ (spares_forgotten hs e name).trans (spares_folder scope _ folder)

/-- Describing a database changes no more than loading it does. -/
theorem exec_describeDatabase_snd (active : Option Handle) (name : String) (e : Engine) :
    (exec (describeDatabase active name) e).2 = e ∨
      (exec (describeDatabase active name) e).2 = (exec (load .data name) e).2 := by
  rw [exec_describeDatabase]
  cases active.filter (·.name = name) with
  | some h => exact .inl rfl
  | none =>
    refine .inr ?_
    dsimp only
    rcases exec (load .data name) e with ⟨_ | _ | _, e₁⟩ <;> rfl

theorem evolves_describeDatabase (active : Option Handle) (name : String) (e : Engine) :
    Evolves e (exec (describeDatabase active name) e).2 := by
  rcases exec_describeDatabase_snd active name e with h | h <;> rw [h]
  · exact .refl e
  · exact evolves_load .data name e

theorem spares_describeDatabase {e : Engine} (ordered : e.Ordered) (active : Option Handle)
    (name : String) : Spares .system e (exec (describeDatabase active name) e).2 := by
  rcases exec_describeDatabase_snd active name e with h | h <;> rw [h]
  · exact .refl .system e
  · exact spares_load ordered (by simp) name

theorem evolves_edit {α : Type} (h : Handle)
    (f : Database → Except StorageError (α × Database)) (e : Engine) :
    Evolves e (exec (edit h f) e).2 := by
  rw [exec_edit]
  rcases f (e.databaseOf h) with _ | ⟨a, db⟩
  · exact .refl e
  · exact evolves_setState e h.cell db

/-- To edit the database of a valid handle leaves the other scope alone, since no name of that scope
leads to the cell of the handle. -/
theorem spares_edit {α : Type} {e : Engine} {h : Handle} (valid : e.Valid h) {scope : Scope}
    (hs : h.scope ≠ scope) (f : Database → Except StorageError (α × Database)) :
    Spares scope e (exec (edit h f) e).2 := by
  rw [exec_edit]
  rcases f (e.databaseOf h) with _ | ⟨a, db⟩
  · exact .refl scope e
  · exact spares_setState (fun name hl => hs (valid.own scope name hl).1.symm) db

end Tabular.Engine
