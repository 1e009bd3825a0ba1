import Tabular.Proofs.Session.Coherence
import Tabular.Proofs.Session.TwoRuns

/-!
What headers do to answers.

Without a data directory a header that asks to save has nothing to write, but it opens the catalog,
and so a catalog that nobody has asked for may come to be earlier in one run of a process than in
another one with other headers. From then on the same database has its place in different cells of
the two memories. `Interpreter.Alike` relates two such interpreters by the cells that hold the same
database in both: names and selections lead to related cells, and the catalogs are in related cells,
or have not been used in either run. Every statement keeps two interpreters alike
(`simulation_alike`), and a saving in one of the runs alone does so as well (`Alike.save`).

Main statement: requests that differ in their headers only are answered alike, and leave the clients
with the same selections (`World.transcript_of_headers`).
-/

namespace Tabular

/-- The tables of a catalog that lists no databases. -/
def Catalog.newTables : Keyed Table := Keyed.empty.insert table (listing [])

section

variable {α β : Type} {R S : α → β → Prop} {a? : Option α} {b? : Option β}

theorem rel_mono (h : ∀ a b, R a b → S a b) (rel : Option.Rel R a? b?) : Option.Rel S a? b? := by
  cases rel with
  | none => exact .none
  | some hab => exact .some (h _ _ hab)

theorem rel_flip (rel : Option.Rel R a? b?) : Option.Rel (flip R) b? a? := by
  cases rel with
  | none => exact .none
  | some hab => exact .some hab

end

/-! ### Interpreters -/

/-- No statement has used the catalog: it is missing, or it was opened by a saving and lists no
databases, in a cell that is not among the related ones. -/
inductive Interpreter.Unused (i : Interpreter) (related : Nat → Prop) : Prop where
  | missing (closed : i.catalog = none)
      (live : i.engine.live.get? .system Catalog.database = none)
  | opened {h : Handle} (opened : i.catalog = some h) (lt : h.cell < i.engine.states.length)
      (tables : (i.engine.databaseOf h).tables = Catalog.newTables) (apart : ¬related h.cell)

/-- Two interpreters without a data directory whose databases are the same, those in related cells.
-/
structure Interpreter.Alike (m : Nat → Nat → Prop) (i i' : Interpreter) : Prop where
  memory : i.engine.dataDir = none
  memory' : i'.engine.dataDir = none
  lt : ∀ c c', m c c' → c < i.engine.states.length ∧ c' < i'.engine.states.length
  /-- No two cells are related to one. -/
  unique : ∀ c c' d d', m c c' → m d d' → (c = d ↔ c' = d')
  tables : ∀ c c', m c c' → (i.engine.state c).tables = (i'.engine.state c').tables
  names : ∀ n, Option.Rel m (i.engine.live.get? .data n) (i'.engine.live.get? .data n)
  catalog : (∃ h h', i.catalog = some h ∧ i'.catalog = some h' ∧ m h.cell h'.cell) ∨
    i.Unused (fun c => ∃ c', m c c') ∧ i'.Unused fun c' => ∃ c, m c c'

/-- Selections of the same name, in related cells. -/
structure Handle.Alike (m : Nat → Nat → Prop) (h h' : Handle) : Prop where
  name : h.name = h'.name
  cell : m h.cell h'.cell

/-- Sessions that have both selected a database, the same one, or have both selected none. -/
def Session.Alike (m : Nat → Nat → Prop) (s s' : Session) : Prop :=
  Option.Rel (Handle.Alike m) s.active s'.active

/-- More cells are related. -/
def Extends (m m' : Nat → Nat → Prop) : Prop := ∀ c c', m c c' → m' c c'

theorem Extends.refl (m : Nat → Nat → Prop) : Extends m m := fun _ _ h => h

theorem Extends.trans {m₁ m₂ m₃ : Nat → Nat → Prop} (h : Extends m₁ m₂) (h' : Extends m₂ m₃) :
    Extends m₁ m₃ :=
  fun c c' hc => h' c c' (h c c' hc)

theorem Handle.Alike.mono {m m' : Nat → Nat → Prop} {h h' : Handle} (alike : h.Alike m h')
    (hm : Extends m m') : h.Alike m' h' :=
  ⟨alike.name, hm _ _ alike.cell⟩

/-- One more pair of cells is related. -/
def Relate (m : Nat → Nat → Prop) (d d' : Nat) (c c' : Nat) : Prop := m c c' ∨ c = d ∧ c' = d'

theorem extends_relate {m : Nat → Nat → Prop} {d d' : Nat} : Extends m (Relate m d d') :=
  fun _ _ => .inl

theorem relate_self {m : Nat → Nat → Prop} {d d' : Nat} : Relate m d d' d d' := .inr ⟨rfl, rfl⟩

/-! ### Catalogs that stay unused -/

namespace Interpreter.Unused

variable {i : Interpreter} {related related' : Nat → Prop}

/-- A database in a related cell is not the catalog. -/
theorem setState (unused : i.Unused related) {c : Nat} (db : Database) (hc : related c) :
    Interpreter.Unused { i with engine := i.engine.setState c db } related := by
  cases unused with
  | missing closed live => exact .missing closed live
  | opened opened lt tables apart =>
    refine .opened opened (by simpa [Engine.setState] using lt) ?_ apart
    rw [← tables]
    refine congrArg Database.tables ((Engine.state_setState ..).trans (if_neg ?_))
    rintro ⟨rfl, -⟩
    exact apart hc

/-- Nor is a new database, whose cell may come to be a related one. -/
theorem registered (unused : i.Unused related) (n : String) (db : Database)
    (hrelated : ∀ c, c < i.engine.states.length → related' c → related c) :
    Interpreter.Unused { i with engine := i.engine.registered .data n db } related' := by
  cases unused with
  | missing closed live =>
    refine .missing closed ((Engine.live_registered ..).trans ?_)
    rw [if_neg (by simp), live]
  | opened opened lt tables apart =>
    refine .opened opened ((Engine.length_registered ..).symm ▸ Nat.lt_succ_of_lt lt) ?_
      fun h => apart (hrelated _ lt h)
    rw [← tables]
    exact congrArg Database.tables (Engine.state_registered_of_lt _ _ _ _ lt)

theorem forgotten (unused : i.Unused related) (n : String) :
    Interpreter.Unused { i with engine := i.engine.forgotten .data n } related := by
  cases unused with
  | missing closed live =>
    refine .missing closed ((Engine.live_forgotten ..).trans ?_)
    rw [if_neg (by simp), live]
  | opened opened lt tables apart => exact .opened opened lt tables apart

end Interpreter.Unused

namespace Interpreter.Alike

variable {m : Nat → Nat → Prop} {i i' : Interpreter}

theorem symm (alike : i.Alike m i') : i'.Alike (flip m) i where
  memory := alike.memory'
  memory' := alike.memory
  lt := fun c c' h => (alike.lt c' c h).symm
  unique := fun c c' d d' h h' => (alike.unique c' c d' d h h').symm
  tables := fun c c' h => (alike.tables c' c h).symm
  names := fun n => rel_flip (alike.names n)
  catalog := alike.catalog.imp (fun ⟨h, h', hi, hi', hm⟩ => ⟨h', h, hi', hi, hm⟩) And.symm

/-- Relating two more cells, to which no cell is related so far, keeps the relation one to one. -/
theorem unique_relate (alike : i.Alike m i') {d d' : Nat} (hd : ¬∃ c', m d c')
    (hd' : ¬∃ c, m c d') (c c' e e' : Nat) (h : Relate m d d' c c') (h' : Relate m d d' e e') :
    c = e ↔ c' = e' := by
  obtain h | ⟨rfl, rfl⟩ := h <;> obtain h' | ⟨rfl, rfl⟩ := h'
  · exact alike.unique c c' e e' h h'
  · exact ⟨fun hc => (hd ⟨c', hc ▸ h⟩).elim, fun hc => (hd' ⟨c, hc ▸ h⟩).elim⟩
  · exact ⟨fun hc => (hd ⟨e', hc ▸ h'⟩).elim, fun hc => (hd' ⟨e, hc ▸ h'⟩).elim⟩
  · exact iff_of_true rfl rfl

/-! ### Changes of both interpreters -/

/-- The database in a cell becomes another one, and so does the one in the related cell. -/
theorem setState (alike : i.Alike m i') {c c' : Nat} (hc : m c c') {db db' : Database}
    (hdb : db.tables = db'.tables) :
    Interpreter.Alike m { i with engine := i.engine.setState c db }
      { i' with engine := i'.engine.setState c' db' } := by
  refine
    { alike with
      lt := fun d d' hd => by simpa [Engine.setState] using alike.lt d d' hd
      tables := fun d d' hd => ?_
      catalog := alike.catalog.imp id fun h =>
        ⟨h.1.setState db ⟨c', hc⟩, h.2.setState db' ⟨c, hc⟩⟩ }
  obtain ⟨hlt, hlt'⟩ := alike.lt d d' hd
  change ((i.engine.setState c db).state d).tables = ((i'.engine.setState c' db').state d').tables
  rw [Engine.state_setState, Engine.state_setState]
  by_cases hcd : c = d
  · rw [if_pos ⟨hcd, hlt⟩, if_pos ⟨(alike.unique c c' d d' hc hd).1 hcd, hlt'⟩]
    exact hdb
  · rw [if_neg fun h => hcd h.1,
      if_neg fun h => hcd ((alike.unique c c' d d' hc hd).2 h.1)]
    exact alike.tables d d' hd

/-- A new database in both, under a name that has none. -/
theorem registered (alike : i.Alike m i') (n : String) {db db' : Database}
    (hdb : db.tables = db'.tables) :
    Interpreter.Alike (Relate m i.engine.states.length i'.engine.states.length)
      { i with engine := i.engine.registered .data n db }
      { i' with engine := i'.engine.registered .data n db' } := by
  refine
    { memory := alike.memory
      memory' := alike.memory'
      lt := fun c c' h => ?_
      unique := alike.unique_relate (fun ⟨c', h⟩ => Nat.lt_irrefl _ (alike.lt _ _ h).1)
        fun ⟨c, h⟩ => Nat.lt_irrefl _ (alike.lt _ _ h).2
      tables := fun c c' h => ?_
      names := fun name => ?_
      catalog := ?_ }
  · dsimp only
    rw [Engine.length_registered, Engine.length_registered]
    obtain h | ⟨rfl, rfl⟩ := h
    · have := alike.lt c c' h
      omega
    · exact ⟨Nat.lt_succ_self _, Nat.lt_succ_self _⟩
  · dsimp only
    obtain h | ⟨rfl, rfl⟩ := h
    · rw [Engine.state_registered_of_lt _ _ _ _ (alike.lt c c' h).1,
        Engine.state_registered_of_lt _ _ _ _ (alike.lt c c' h).2]
      exact alike.tables c c' h
    · rw [Engine.state_registered, Engine.state_registered]
      exact hdb
  · dsimp only
    rw [Engine.live_registered, Engine.live_registered]
    split
    · exact .some relate_self
    · exact rel_mono extends_relate (alike.names name)
  · refine alike.catalog.imp (fun ⟨h, h', hi, hi', hm⟩ => ⟨h, h', hi, hi', .inl hm⟩) fun h =>
      ⟨h.1.registered n db ?_, h.2.registered n db' ?_⟩
    · rintro c hlt ⟨c', hc | ⟨rfl, -⟩⟩
      · exact ⟨c', hc⟩
      · exact absurd hlt (Nat.lt_irrefl _)
    · rintro c hlt ⟨c', hc | ⟨-, rfl⟩⟩
      · exact ⟨c', hc⟩
      · exact absurd hlt (Nat.lt_irrefl _)

/-- A name that leads nowhere any more. -/
theorem forgotten (alike : i.Alike m i') (n : String) :
    Interpreter.Alike m { i with engine := i.engine.forgotten .data n }
      { i' with engine := i'.engine.forgotten .data n } := by
  refine
    { alike with
      names := fun name => ?_
      catalog := alike.catalog.imp id fun h => ⟨h.1.forgotten n, h.2.forgotten n⟩ }
  dsimp only
  rw [Engine.live_forgotten, Engine.live_forgotten]
  split
  · exact .none
  · exact alike.names name

/-! ### The catalog -/

/-- To open the catalog in one of the two is to open a new one. -/
theorem openCatalog (alike : i.Alike m i') (closed : i.catalog = none) :
    ∃ h e, exec Catalog.open i.engine = (.ok h, e) ∧
      Interpreter.Alike m { engine := e, catalog := some h } i' := by
  obtain ⟨h, h', hi, -⟩ | ⟨unused, unused'⟩ := alike.catalog
  · rw [closed] at hi
    exact nomatch hi
  cases unused with
  | opened opened => exact absurd (closed.symm.trans opened) (by simp)
  | missing _ live =>
    refine ⟨_, _, Engine.exec_openCatalog_in_memory alike.memory live, ?_⟩
    generalize hnew :
      (Database.new i.engine.clock).setTable Catalog.table (Catalog.listing []) = new
    have hlength : ((i.engine.registered .system Catalog.database
        (Database.new i.engine.clock)).setState i.engine.states.length new).states.length =
          i.engine.states.length + 1 := by
      simp [Engine.setState, Engine.registered]
    have hold : ∀ c, c < i.engine.states.length → ((i.engine.registered .system Catalog.database
        (Database.new i.engine.clock)).setState i.engine.states.length new).state c =
          i.engine.state c := by
      intro c hc
      rw [Engine.state_setState, if_neg (fun h => Nat.lt_irrefl _ (h.1 ▸ hc)),
        Engine.state_registered_of_lt _ _ _ _ hc]
    refine
      { alike with
        lt := fun c c' h => ?_
        tables := fun c c' h => ?_
        names := fun n => ?_
        catalog := .inr ⟨.opened rfl (hlength.symm ▸ Nat.lt_succ_self _) ?_ ?_, unused'⟩ }
    · have := alike.lt c c' h
      dsimp only
      rw [hlength]
      omega
    · dsimp only
      rw [hold c (alike.lt c c' h).1]
      exact alike.tables c c' h
    · have hname : (i.engine.registered .system Catalog.database
          (Database.new i.engine.clock)).live.get? .data n = i.engine.live.get? .data n :=
        (Engine.live_registered ..).trans (if_neg (by simp))
      exact hname.symm ▸ alike.names n
    · dsimp only [Engine.databaseOf]
      rw [Engine.state_setState, if_pos ⟨rfl, by simp [Engine.registered]⟩, ← hnew]
      rfl
    · rintro ⟨c', h⟩
      exact Nat.lt_irrefl _ (alike.lt _ _ h).1

/-- Two open catalogs are in related cells, or can be related from now on. -/
theorem relateCatalogs (alike : i.Alike m i') {h h' : Handle} (opened : i.catalog = some h)
    (opened' : i'.catalog = some h') :
    ∃ m', Extends m m' ∧ i.Alike m' i' ∧ m' h.cell h'.cell := by
  obtain ⟨c, c', hi, hi', hm⟩ | ⟨unused, unused'⟩ := alike.catalog
  · obtain rfl := Option.some.inj (opened.symm.trans hi)
    obtain rfl := Option.some.inj (opened'.symm.trans hi')
    exact ⟨m, .refl m, alike, hm⟩
  cases unused with
  | missing closed => exact absurd (closed.symm.trans opened) (by simp)
  | opened hi lt tables apart =>
    cases unused' with
    | missing closed => exact absurd (closed.symm.trans opened') (by simp)
    | opened hi' lt' tables' apart' =>
      obtain rfl := Option.some.inj (opened.symm.trans hi)
      obtain rfl := Option.some.inj (opened'.symm.trans hi')
      refine ⟨Relate m h.cell h'.cell, extends_relate, ?_, relate_self⟩
      refine
        { alike with
          lt := fun c c' hc => ?_
          unique := alike.unique_relate apart apart'
          tables := fun c c' hc => ?_
          names := fun n => rel_mono extends_relate (alike.names n)
          catalog := .inl ⟨h, h', opened, opened', relate_self⟩ }
      · obtain hc | ⟨rfl, rfl⟩ := hc
        · exact alike.lt c c' hc
        · exact ⟨lt, lt'⟩
      · obtain hc | ⟨rfl, rfl⟩ := hc
        · exact alike.tables c c' hc
        · exact tables.trans tables'.symm

end Interpreter.Alike

/-! ### Sessions -/

namespace Session

variable {m m' : Nat → Nat → Prop} {p q : Interpreter × Session}

theorem Alike.mono {s s' : Session} (alike : s.Alike m s') (hm : Extends m m') : s.Alike m' s' :=
  rel_mono (fun _ _ h => h.mono hm) alike

theorem Alike.activeName {s s' : Session} (alike : s.Alike m s') :
    s.activeName = s'.activeName := by
  unfold Session.Alike at alike
  unfold Session.activeName
  generalize s.active = active at alike ⊢
  generalize s'.active = active' at alike ⊢
  cases alike with
  | none => rfl
  | some h => exact congrArg some h.name

/-- What two sessions see is alike, where the cells of `m` are related and maybe more. -/
def SeeAlike (m : Nat → Nat → Prop) (p q : Interpreter × Session) : Prop :=
  ∃ m', Extends m m' ∧ p.1.Alike m' q.1 ∧ p.2.Alike m' q.2

theorem SeeAlike.symm (see : SeeAlike m p q) : SeeAlike (flip m) q p := by
  obtain ⟨m', hm, alike, sessions⟩ := see
  refine ⟨flip m', fun c c' => hm c' c, alike.symm,
    rel_mono (fun h h' hh => ?_) (rel_flip sessions)⟩
  exact ⟨hh.name.symm, hh.cell⟩

/-- Handles in the same place are in related cells, or can be related from now on. -/
theorem SeeAlike.placed (see : SeeAlike m p q) {h h' : Handle} (placed : Placed p q h h') :
    ∃ m', Extends m m' ∧ p.1.Alike m' q.1 ∧ p.2.Alike m' q.2 ∧ m' h.cell h'.cell := by
  obtain ⟨m', hm, alike, sessions⟩ := see
  cases placed with
  | selected left right =>
    have hrel := sessions
    unfold Session.Alike at hrel
    rw [left, right] at hrel
    cases hrel with
    | some hh => exact ⟨m', hm, alike, sessions, hh.cell⟩
  | catalog left right =>
    obtain ⟨m'', hm', alike', hcell⟩ := alike.relateCatalogs left right
    exact ⟨m'', hm.trans hm', alike', sessions.mono hm', hcell⟩

/-- To obtain the catalog in one of two sessions leaves what they see alike. -/
theorem exec_catalog_alike {i' : Interpreter} (alike : p.1.Alike m i') :
    ∃ h i, exec catalog p = (.ok h, (i, p.2)) ∧ i.catalog = some h ∧ i.Alike m i' := by
  rw [exec_catalog]
  cases hcatalog : p.1.catalog with
  | some h => exact ⟨h, p.1, rfl, hcatalog, alike⟩
  | none =>
    obtain ⟨h, e, hopen, alike'⟩ := alike.openCatalog hcatalog
    dsimp only
    rw [hopen]
    exact ⟨h, _, rfl, rfl, alike'⟩

/-- **A saving in one of two sessions** leaves what they see alike. -/
theorem exec_save_alike {i' : Interpreter} (alike : p.1.Alike m i') :
    ∃ i, (exec save p).2 = (i, p.2) ∧ i.Alike m i' := by
  obtain ⟨h, i, hcatalog, -, alike'⟩ := exec_catalog_alike alike
  rw [exec_save, exec_saveActive_in_memory alike.memory]
  dsimp only
  rw [hcatalog]
  dsimp only
  rw [exec_storage, Engine.exec_save_in_memory alike'.memory]
  exact ⟨i, rfl, alike'⟩

/-! ### Operations of two sessions -/

theorem relates_catalog : Relates (SeeAlike m) catalog catalog
    (fun h h' p q => SeeAlike m p q ∧ Placed p q h h') (SeeAlike m) := by
  rintro p q ⟨m', hm, alike, sessions⟩
  obtain ⟨h, i, hp, hi, alike₁⟩ := exec_catalog_alike alike
  obtain ⟨h', i', hq, hi', alike₂⟩ := exec_catalog_alike (p := q) alike₁.symm
  rw [hp, hq]
  exact ⟨⟨m', hm, alike₂.symm, sessions⟩, .catalog hi hi'⟩

theorem relates_query {h h' : Handle} {f : Database → Except StorageError Outcome}
    (asks : Database.AsksTables f) :
    Relates (fun p q => SeeAlike m p q ∧ Placed p q h h') (storage (Engine.query h f))
      (storage (Engine.query h' f)) (fun a b p q => a.SameButTime b ∧ SeeAlike m p q)
      (SeeAlike m) := by
  rintro p q ⟨see, placed⟩
  obtain ⟨m', hm, alike, sessions, hcell⟩ := see.placed placed
  have hf : f (q.1.engine.databaseOf h') = f (p.1.engine.databaseOf h) :=
    asks.eq (alike.tables _ _ hcell)
  rw [exec_storage, exec_storage, Engine.exec_query, Engine.exec_query, hf]
  cases f (p.1.engine.databaseOf h) with
  | error err => exact ⟨rfl, m', hm, alike, sessions⟩
  | ok outcome => exact ⟨.refl outcome, m', hm, alike, sessions⟩

theorem relates_edit {h h' : Handle} {f : Database → Except StorageError (Outcome × Database)}
    (ignores : Database.IgnoresCreation f) :
    Relates (fun p q => SeeAlike m p q ∧ Placed p q h h') (storage (Engine.edit h f))
      (storage (Engine.edit h' f)) (fun a b p q => a.SameButTime b ∧ SeeAlike m p q)
      (SeeAlike m) := by
  rintro p q ⟨see, placed⟩
  obtain ⟨m', hm, alike, sessions, hcell⟩ := see.placed placed
  have hcases := ignores.cases (alike.tables _ _ hcell)
  rw [exec_storage, exec_storage, Engine.exec_edit, Engine.exec_edit]
  unfold Engine.databaseOf
  obtain ⟨err, hp, hq⟩ | ⟨outcome, db, db', hp, hq, hdb⟩ := hcases <;> rw [hp, hq]
  · exact ⟨rfl, m', hm, alike, sessions⟩
  · exact ⟨.refl outcome, m', hm, alike.setState hcell hdb, sessions⟩

theorem relates_open (n : String) : Relates (SeeAlike m) (storage (Engine.open .data n))
    (storage (Engine.open .data n)) (fun h? h'? p q => SeeAlike m p q ∧ Option.Rel (fun h h' =>
      SeeAlike m (p.1, { active := some h }) (q.1, { active := some h' })) h? h'?)
    (SeeAlike m) := by
  rintro p q ⟨m', hm, alike, sessions⟩
  have hname := alike.names n
  rw [exec_storage, exec_storage, Engine.exec_open_in_memory alike.memory,
    Engine.exec_open_in_memory alike.memory']
  generalize p.1.engine.live.get? .data n = cell at hname ⊢
  generalize q.1.engine.live.get? .data n = cell' at hname ⊢
  cases hname with
  | none => exact ⟨⟨m', hm, alike, sessions⟩, .none⟩
  | some hcell => exact ⟨⟨m', hm, alike, sessions⟩, .some ⟨m', hm, alike, .some ⟨rfl, hcell⟩⟩⟩

theorem describe_alike {e e' : Engine} {c c' : Nat}
    (h : (e.state c).tables = (e'.state c').tables) (n : String) :
    Outcome.SameButTime (.database ((e.state c).describe n))
      (.database ((e'.state c').describe n)) :=
  ⟨rfl, by unfold Database.describe; rw [h]⟩

theorem relates_describe (n : String) (see : SeeAlike m p q) :
    Relates (fun p' q' => p' = p ∧ q' = q) (storage (Engine.describeDatabase p.2.active n))
      (storage (Engine.describeDatabase q.2.active n))
      (fun a b p q => a.SameButTime b ∧ SeeAlike m p q) (SeeAlike m) := by
  intro p' q' heq
  have hsee := see
  obtain ⟨m', hm, alike, sessions⟩ := see
  rw [heq.1, heq.2, exec_storage, exec_storage, Engine.exec_describeDatabase,
    Engine.exec_describeDatabase, Engine.exec_load_in_memory alike.memory,
    Engine.exec_load_in_memory alike.memory']
  have hselected : Option.Rel (Handle.Alike m') (p.2.active.filter (·.name = n))
      (q.2.active.filter (·.name = n)) := by
    unfold Session.Alike at sessions
    generalize p.2.active = active at sessions ⊢
    generalize q.2.active = active' at sessions ⊢
    cases sessions with
    | none => exact .none
    | some hh =>
      simp only [Option.filter_some, hh.name]
      split
      · exact .some hh
      · exact .none
  have hname := alike.names n
  generalize p.2.active.filter (·.name = n) = active at hselected ⊢
  generalize q.2.active.filter (·.name = n) = active' at hselected ⊢
  cases hselected with
  | some hh => exact ⟨describe_alike (alike.tables _ _ hh.cell) n, hsee⟩
  | none =>
    generalize p.1.engine.live.get? .data n = cell at hname ⊢
    generalize q.1.engine.live.get? .data n = cell' at hname ⊢
    cases hname with
    | none => exact ⟨rfl, hsee⟩
    | some hcell => exact ⟨describe_alike (alike.tables _ _ hcell) n, hsee⟩

theorem relates_create (n : String) : Relates (SeeAlike m)
    (storage (Engine.createDatabase .data n)) (storage (Engine.createDatabase .data n))
    (fun a b p q => a.SameButTime b ∧ SeeAlike m p q) (SeeAlike m) := by
  rintro p q ⟨m', hm, alike, sessions⟩
  have hname := alike.names n
  rw [exec_storage, exec_storage]
  cases hlive : p.1.engine.live.get? .data n <;> cases hlive' : q.1.engine.live.get? .data n <;>
    rw [hlive, hlive'] at hname <;> cases hname
  · rw [Engine.exec_createDatabase_in_memory alike.memory hlive,
      Engine.exec_createDatabase_in_memory alike.memory' hlive']
    exact ⟨.refl _, _, hm.trans extends_relate, alike.registered n rfl,
      sessions.mono extends_relate⟩
  · rw [Engine.exec_createDatabase, Engine.exec_createDatabase, Engine.exec_load_of_live hlive,
      Engine.exec_load_of_live hlive']
    exact ⟨rfl, m', hm, alike, sessions⟩

theorem relates_drop (n : String) : Relates (SeeAlike m)
    (storage (Engine.dropDatabase .data n)) (storage (Engine.dropDatabase .data n))
    (fun a b p q => a.SameButTime b ∧ SeeAlike m p q) (SeeAlike m) := by
  rintro p q ⟨m', hm, alike, sessions⟩
  have hname := alike.names n
  have hforgotten := alike.forgotten n
  rw [exec_storage, exec_storage, Engine.exec_dropDatabase_in_memory alike.memory,
    Engine.exec_dropDatabase_in_memory alike.memory']
  generalize p.1.engine.live.get? .data n = cell at hname ⊢
  generalize q.1.engine.live.get? .data n = cell' at hname ⊢
  cases hname with
  | none => exact ⟨rfl, m', hm, hforgotten, sessions⟩
  | some hcell => exact ⟨.refl _, m', hm, hforgotten, sessions⟩

/-- **Every statement keeps two sessions alike.** -/
theorem simulation_alike (m : Nat → Nat → Prop) :
    Simulation (SeeAlike m) Outcome.SameButTime where
  refl := .refl
  activeName := fun _ _ ⟨_, _, _, sessions⟩ => sessions.activeName
  deselect := fun _ _ ⟨m', hm, alike, _⟩ => ⟨m', hm, alike, .none⟩
  catalog := relates_catalog
  query := fun _ _ _ => relates_query
  edit := fun _ _ _ => relates_edit
  saveActive := by
    rintro p q ⟨m', hm, alike, sessions⟩
    rw [exec_saveActive_in_memory alike.memory, exec_saveActive_in_memory alike.memory']
    exact ⟨m', hm, alike, sessions⟩
  «open» := fun n _ => relates_open n
  describe := fun n _ _ _ => relates_describe n
  create := fun n _ => relates_create n
  drop := fun n _ => relates_drop n

end Session

/-! ### Worlds -/

namespace World

/-- What is seen of a call: the response or the panic, if the call is a request, and what each
client has selected then. -/
structure Observation where
  response : Option (Except Panic BatchResponse)
  selections : Nat → Option String

/-- Observations that are the same but for the times at which databases were created. -/
structure Observation.SameButTimes (o o' : Observation) : Prop where
  response : Option.Rel (AnsweredAlike Outcome.SameButTime) o.response o'.response
  selections : o.selections = o'.selections

/-- What is seen of a sequence of calls. -/
def transcript [PatternCompiler] : World → List Call → List Observation
  | _, [] => []
  | w, call :: calls =>
    { response := w.respond call
      selections := fun i => ((w.serve call).session i).activeName } ::
        transcript (w.serve call) calls

/-- Requests of the same client with the same body, or two restarts. -/
inductive Call.SameButHeaders : Call → Call → Prop where
  | request (client : Nat) (headers headers' : Keyed String) (body : Option String) :
      SameButHeaders (.request client headers body) (.request client headers' body)
  | restart (clock clock' : Timestamp) : SameButHeaders (.restart clock) (.restart clock')

/-- Worlds in which every client sees alike, with the cells of `m` related. -/
structure Alike (m : Nat → Nat → Prop) (w w' : World) : Prop where
  interpreter : w.interpreter.Alike m w'.interpreter
  session : ∀ i, (w.session i).Alike m (w'.session i)

variable {m : Nat → Nat → Prop} {w w' : World}

theorem start_alike (folder folder' : Folder) (clock clock' : Timestamp) :
    (start (Engine.new none folder clock)).Alike (fun _ _ => False)
      (start (Engine.new none folder' clock')) where
  interpreter :=
    { memory := rfl
      memory' := rfl
      lt := fun _ _ h => h.elim
      unique := fun _ _ _ _ h => h.elim
      tables := fun _ _ h => h.elim
      names := fun _ => .none
      catalog := .inr ⟨.missing rfl rfl, .missing rfl rfl⟩ }
  session := fun _ => .none

/-- What one client sees and what the others had selected make two worlds alike again. -/
theorem Alike.withView (alike : w.Alike m w') (client : Nat) {p q : Interpreter × Session}
    (see : Session.SeeAlike m p q) :
    ∃ m', (w.withView client p).Alike m' (w'.withView client q) := by
  obtain ⟨m', hm, interpreters, sessions⟩ := see
  refine ⟨m', interpreters, fun i => ?_⟩
  rw [session_withView, session_withView]
  split
  · exact sessions
  · exact (alike.session i).mono hm

/-- A saving in one of two runs, if there is one. -/
theorem seeAlike_save_if {p q : Interpreter × Session} (see : Session.SeeAlike m p q)
    (saves : Prop) [Decidable saves] :
    Session.SeeAlike m (if saves then (exec Session.save p).2 else p) q := by
  split
  · obtain ⟨m', hm, interpreters, sessions⟩ := see
    obtain ⟨i, hsave, alike⟩ := Session.exec_save_alike interpreters
    rw [hsave]
    exact ⟨m', hm, alike, sessions⟩
  · exact see

section

variable [PatternCompiler]

/-- **A call** is answered alike in two worlds that are alike, and leaves them so, whatever the
headers ask for in the one and in the other. -/
theorem Alike.serve (alike : w.Alike m w') {call call' : Call} (same : call.SameButHeaders call') :
    Option.Rel (AnsweredAlike Outcome.SameButTime) (w.respond call) (w'.respond call') ∧
      ∃ m', (w.serve call).Alike m' (w'.serve call') := by
  cases same with
  | restart clock clock' =>
    refine ⟨.none, fun _ _ => False, ?_⟩
    rw [World.serve, World.serve, restarted, restarted, engine, engine, alike.interpreter.memory,
      alike.interpreter.memory']
    exact start_alike _ _ clock clock'
  | request client headers headers' body =>
    obtain ⟨hresponse, see⟩ := (Session.simulation_alike m).runStatements (batch body) .nil
      (show Session.SeeAlike m (w.view client) (w'.view client) from
        ⟨m, .refl m, alike.interpreter, alike.session client⟩)
    refine ⟨.some ?_, alike.withView client ?_⟩
    · rw [exec_handleRequest_fst, exec_handleRequest_fst]
      exact hresponse
    · rw [exec_handleRequest_snd, exec_handleRequest_snd]
      exact (seeAlike_save_if (seeAlike_save_if see _).symm _).symm

/-- So is a sequence of calls. -/
theorem Alike.transcript (alike : w.Alike m w') {calls calls' : List Call}
    (same : List.Forall₂ Call.SameButHeaders calls calls') :
    List.Forall₂ Observation.SameButTimes (w.transcript calls) (w'.transcript calls') := by
  induction same generalizing m w w' with
  | nil => exact .nil
  | cons hcall hcalls ih =>
    obtain ⟨hresponse, m', alike'⟩ := alike.serve hcall
    exact .cons ⟨hresponse, funext fun i => (alike'.session i).activeName⟩ (ih alike')

/-- **Headers never change answers**: over an engine without a data directory, requests that differ
in their headers only get the same responses, but for the times at which databases were created, and
after each of them every client has the same database selected. -/
theorem transcript_of_headers {folder folder' : Folder} {clock clock' : Timestamp}
    {calls calls' : List Call} (same : List.Forall₂ Call.SameButHeaders calls calls') :
    List.Forall₂ Observation.SameButTimes
      ((start (Engine.new none folder clock)).transcript calls)
      ((start (Engine.new none folder' clock')).transcript calls') :=
  (start_alike folder folder' clock clock').transcript same

end

/-- Two clients. In one of the runs the first one has its requests saved, and so the catalog is open
before there is any database; in the other run it is not. -/
theorem transcript_of_headers_save :
    let calls (headers : Keyed String) : List Call := [
      .request 0 headers (some "INIT a; SHOW DATABASES"),
      .request 1 Keyed.empty (some "CREATE DATABASE a; INIT a; CREATE TABLE t (x)"),
      .request 0 headers (some "INIT a; SHOW DATABASES; DESCRIBE DATABASE a")]
    let w := start (Engine.new none Folder.empty Timestamp.epoch)
    let saving := Keyed.ofList [("SAVE", "now")]
    (w.serve ((calls saving).head (by simp))).interpreter.catalog ≠
        (w.serve ((calls Keyed.empty).head (by simp))).interpreter.catalog ∧
      List.Forall₂ Observation.SameButTimes (w.transcript (calls saving))
        (w.transcript (calls Keyed.empty)) := by
  intro calls w saving
  refine ⟨by decide +kernel, transcript_of_headers ?_⟩
  exact .cons (.request ..) (.cons (.request ..) (.cons (.request ..) .nil))

end World

end Tabular
