import Mathlib.Control.Monad.Basic
import Mathlib.Data.List.Pairwise
import Mathlib.Tactic.ByContra
import Tabular.Proofs.Engine.InMemory

/-!
The databases of an interpreter without a data directory, and what `SHOW` lists.

Two places know which databases exist: the names of the engine, told apart as texts, and the table
of the catalog, whose key is compared as a number where both sides are numeric. `Interpreter.InStep`
says that they agree. They stay in step as long as no statement creates or drops a database while
another one exists whose name is the same value (`NamesApart`), and fall out of step with the first
statement that does: `CREATE` refuses a name that is free, or `DROP` takes a database out of the
catalog that goes on existing. So the three things a client relies on (`Faithful`) hold along
exactly the runs along which `NamesApart` does (`faithful_iff_namesApart`).
-/

namespace Tabular

/-- The databases in memory are the ones whose names are listed in a cell, no two of which are the
same value. -/
structure Engine.Agrees (e : Engine) (cell : Nat) (names : List String) : Prop where
  lists : Catalog.Lists (e.state cell) names
  mem_iff : ∀ n, n ∈ names ↔ (e.live.get? .data n).isSome
  apart : names.Pairwise fun m n => Cell.sameValue m n = false

/-- The catalog lists these databases, and they are the ones in memory. A catalog that has not been
opened does not exist, and then there are no databases. -/
structure Interpreter.InStep (i : Interpreter) (names : List String) : Prop where
  memory : i.engine.dataDir = none
  opened : ∀ c, i.catalog = some c → i.engine.Agrees c.cell names
  closed : i.catalog = none → names = [] ∧ i.engine.live.get? .system Catalog.database = none ∧
    ∀ n, i.engine.live.get? .data n = none

/-! ### One operation of the engine -/

namespace Engine

variable {e : Engine} {cell : Nat} {names : List String} {name : String}

theorem Agrees.nodup (agrees : e.Agrees cell names) : names.Nodup :=
  agrees.apart.imp fun {m n} h hmn => by simp [hmn] at h

/-- Of two listed names that are the same value there is only one. -/
theorem Agrees.eq_of_sameValue (agrees : e.Agrees cell names) {m n : String} (hm : m ∈ names)
    (hn : n ∈ names) (same : Cell.sameValue m n = true) : m = n := by
  by_cases h : m = n
  · exact h
  · have hsymm : Std.Symm fun m n : String => Cell.sameValue m n = false :=
      ⟨fun a b hab => by rw [Cell.sameValue_comm]; exact hab⟩
    have := agrees.apart.forall hm hn h
    simp [this] at same

/-- The engine with a catalog in a cell that lists other names. -/
def relisted (e : Engine) (cell : Nat) (names : List String) : Engine :=
  e.setState cell ((e.state cell).setTable Catalog.table (Catalog.listing names))

@[simp] theorem live_relisted (e : Engine) (cell : Nat) (names : List String) :
    (e.relisted cell names).live = e.live := rfl

theorem lists_relisted (hlt : cell < e.states.length) (names : List String) :
    Catalog.Lists ((e.relisted cell names).state cell) names := by
  unfold relisted
  rw [state_setState, if_pos ⟨rfl, hlt⟩]
  exact Catalog.lists_setTable _ _

/-- Where the catalog lists no name that is the same value, the row of a name goes in. -/
theorem exec_insert_of_apart {h : Handle} (agrees : e.Agrees h.cell names)
    (apart : ∀ m ∈ names, Cell.sameValue m name = false) :
    exec (insert h (Catalog.entry name)) e =
      (.ok (.affected 1), e.relisted h.cell (names ++ [name])) := by
  have hany : (names.any fun n => Cell.sameValue n name) = false :=
    List.any_eq_false.2 fun m hm => by simp [apart m hm]
  unfold insert
  rw [exec_edit]
  unfold databaseOf
  rw [Catalog.insert_entry agrees.lists, hany]
  rfl

/-- Where it lists one, the row is refused. -/
theorem exec_insert_of_same {h : Handle} (agrees : e.Agrees h.cell names) {m : String}
    (hm : m ∈ names) (same : Cell.sameValue m name = true) :
    exec (insert h (Catalog.entry name)) e = (.error (.duplicateKey Catalog.key name), e) := by
  have hany : (names.any fun n => Cell.sameValue n name) = true :=
    List.any_eq_true.2 ⟨m, hm, same⟩
  unfold insert
  rw [exec_edit]
  unfold databaseOf
  rw [Catalog.insert_entry agrees.lists, hany]
  rfl

/-- The names that are another value. -/
def others (names : List String) (name : String) : List String :=
  names.filter fun n => !Cell.sameValue n name

/-- Every name that is the same value is taken out of the catalog. -/
theorem exec_delete_entry [PatternCompiler] {h : Handle} (agrees : e.Agrees h.cell names)
    (name : String) :
    exec (delete h (Catalog.having .eq name)) e =
      (.ok (.affected (names.filter fun n => Cell.sameValue n name).length),
        e.relisted h.cell (others names name)) := by
  unfold delete
  rw [exec_edit]
  unfold databaseOf
  rw [Catalog.delete_having agrees.lists]
  rfl

/-- The rows that `SHOW` finds. -/
theorem exec_find_listed [PatternCompiler] {h : Handle}
    (lists : Catalog.Lists (e.state h.cell) names) :
    exec (find h (Session.listed none)) e = (.ok (.rows (names.map Catalog.row)), e) := by
  unfold find
  rw [exec_query]
  unfold databaseOf Session.listed
  dsimp only
  rw [Catalog.find_listed lists]
  rfl

/-- A change that leaves the catalog and the names of the databases alone keeps them in step. -/
theorem Agrees.of_spares {e' : Engine} (agrees : e.Agrees cell names)
    (live : e.live.get? .system Catalog.database = some cell) (spares : Spares .system e e')
    (same : ∀ n, e'.live.get? .data n = e.live.get? .data n) : e'.Agrees cell names where
  lists := by
    unfold Catalog.Lists
    rw [spares.state Catalog.database cell live]
    exact agrees.lists
  mem_iff := fun n => by rw [same n]; exact agrees.mem_iff n
  apart := agrees.apart

/-- Taking a new name in, in the catalog and in memory. -/
theorem Agrees.registered (agrees : e.Agrees cell names) (hlt : cell < e.states.length)
    (apart : ∀ m ∈ names, Cell.sameValue m name = false) (db : Database) :
    ((e.relisted cell (names ++ [name])).registered .data name db).Agrees cell
      (names ++ [name]) where
  lists := by
    rw [state_registered_of_lt _ _ _ _ (by simpa [relisted, setState] using hlt)]
    exact lists_relisted hlt _
  mem_iff := fun n => by
    rw [live_registered, live_relisted, List.mem_append, List.mem_singleton, agrees.mem_iff]
    by_cases hn : name = n
    · simp [hn]
    · simp [hn, Ne.symm hn]
  apart := by
    refine List.pairwise_append.2 ⟨agrees.apart, List.pairwise_singleton _ _, ?_⟩
    intro m hm n hn
    exact List.mem_singleton.1 hn ▸ apart m hm

/-- The engine after a name was dropped: names of the same value are off the list, and the name
itself is out of memory. -/
def dropped (e : Engine) (cell : Nat) (names : List String) (name : String) : Engine :=
  (e.relisted cell (others names name)).forgotten .data name

theorem live_dropped (e : Engine) (cell : Nat) (names : List String) (name n : String) :
    (e.dropped cell names name).live.get? .data n =
      if name = n then none else e.live.get? .data n := by
  unfold dropped
  rw [live_forgotten, live_relisted]
  by_cases hn : name = n <;> simp [hn]

theorem lists_dropped (hlt : cell < e.states.length) (names : List String) (name : String) :
    Catalog.Lists ((e.dropped cell names name).state cell) (others names name) :=
  lists_relisted hlt _

/-- Taking a name out, in the catalog and in memory, where no other name is the same value. -/
theorem Agrees.dropped (agrees : e.Agrees cell names) (hlt : cell < e.states.length)
    (only : ∀ m ∈ names, Cell.sameValue m name = true → m = name) :
    (e.dropped cell names name).Agrees cell (others names name) where
  lists := lists_dropped hlt names name
  mem_iff := by
    intro n
    rw [live_dropped, others, List.mem_filter, agrees.mem_iff]
    by_cases hn : name = n
    · simp [hn]
    · rw [if_neg hn]
      constructor
      · exact fun h => h.1
      · intro h
        refine ⟨h, ?_⟩
        rw [Bool.not_eq_true', Bool.eq_false_iff]
        exact fun same => hn (only n ((agrees.mem_iff n).2 h) same).symm
  apart := agrees.apart.sublist List.filter_sublist

end Engine

/-! ### One operation of a session -/

namespace Session

variable {e : Engine} {p : Interpreter × Session} {names : List String} {name : String}

/-- The catalog can be obtained, and lists what it lists. -/
theorem exec_catalog_inStep (inStep : p.1.InStep names) :
    ∃ c i, exec catalog p = (.ok c, (i, p.2)) ∧ i.catalog = some c ∧ i.InStep names ∧
      ∀ n, i.engine.live.get? .data n = p.1.engine.live.get? .data n := by
  rw [exec_catalog]
  cases hc : p.1.catalog with
  | some c => exact ⟨c, p.1, rfl, hc, inStep, fun _ => rfl⟩
  | none =>
    obtain ⟨rfl, new, hdata⟩ := inStep.closed hc
    dsimp only
    rw [Engine.exec_openCatalog_in_memory inStep.memory new]
    have hlive : ∀ n, (p.1.engine.registered .system Catalog.database
        (Database.new p.1.engine.clock)).live.get? .data n = p.1.engine.live.get? .data n :=
      fun n => by rw [Engine.live_registered, if_neg (by simp)]
    refine ⟨_, _, rfl, rfl, ⟨inStep.memory, ?_, by simp⟩, hlive⟩
    rintro c hcell
    obtain rfl := Option.some.inj hcell
    refine ⟨?_, fun n => ?_, List.Pairwise.nil⟩
    · unfold Catalog.Lists
      rw [Engine.state_setState, if_pos ⟨rfl, by simp [Engine.registered]⟩]
      exact Catalog.lists_setTable _ _
    · have : p.1.engine.live.get? .data n = none := hdata n
      simpa [Engine.setState, hlive] using this

/-- The cell of the catalog is there. -/
theorem Sees.catalog_lt (sees : Sees e p) {c : Handle} (hc : p.1.catalog = some c) :
    c.cell < p.1.engine.states.length :=
  sees.interpreter.ordered.cell_lt _ _ _ (sees.interpreter.catalog c hc).live

/-- What a session sees once the catalog is obtained. -/
theorem Sees.of_catalog (sees : Sees e p) {c : Handle} {p' : Interpreter × Session}
    (h : exec catalog p = (.ok c, p')) : Sees e p' := by
  have hens := sees_catalog p sees
  rw [h] at hens
  exact hens.1

variable [PatternCompiler]

/-- `SHOW` answers with the rows of the names that the catalog lists. -/
theorem exec_list_of_lists {c : Handle} (hc : p.1.catalog = some c)
    (lists : Catalog.Lists (p.1.engine.state c.cell) names) :
    exec (listDatabases none) p = (.ok (.rows (names.map Catalog.row)), p) := by
  have hcat : exec catalog p = (.ok c, p) := by rw [exec_catalog, hc]
  rw [exec_listDatabases, hcat]
  dsimp only
  rw [exec_storage, Engine.exec_find_listed lists]

omit [PatternCompiler] in
/-- Where no database is named by the same value, `CREATE` succeeds, and the new name is listed. -/
theorem exec_createDatabase_of_apart (sees : Sees e p) (inStep : p.1.InStep names)
    (apart : ∀ m ∈ names, Cell.sameValue m name = false) :
    ∃ outcome i, exec (createDatabase name) p = (.ok outcome, (i, p.2)) ∧
      i.InStep (names ++ [name]) := by
  obtain ⟨c, i, hcat, hc, inStep', -⟩ := exec_catalog_inStep inStep
  have sees' := sees.of_catalog hcat
  have agrees := inStep'.opened c hc
  have new : i.engine.live.get? .data name = none := by
    rw [← Option.not_isSome_iff_eq_none, ← agrees.mem_iff]
    intro hmem
    simpa using apart name hmem
  rw [exec_createDatabase, hcat]
  dsimp only
  rw [exec_storage, Engine.exec_insert_of_apart agrees apart]
  dsimp only
  rw [exec_storage]
  dsimp only
  rw [Engine.exec_createDatabase_in_memory
    (show (i.engine.relisted c.cell (names ++ [name])).dataDir = none from inStep'.memory)
    (show (i.engine.relisted c.cell (names ++ [name])).live.get? .data name = none from new)]
  refine ⟨_, _, rfl, ⟨inStep'.memory, ?_, by simp [hc]⟩⟩
  intro c' hc'
  obtain rfl := Option.some.inj (hc.symm.trans hc')
  exact agrees.registered (sees'.catalog_lt hc) apart _

omit [PatternCompiler] in
/-- Where a database is named by the same value, `CREATE` fails. -/
theorem exec_createDatabase_of_same (inStep : p.1.InStep names) {m : String}
    (hm : m ∈ names) (same : Cell.sameValue m name = true) :
    ∃ err i, exec (createDatabase name) p = (.error err, (i, p.2)) ∧ i.InStep names := by
  obtain ⟨c, i, hcat, hc, inStep', -⟩ := exec_catalog_inStep inStep
  rw [exec_createDatabase, hcat]
  dsimp only
  rw [exec_storage, Engine.exec_insert_of_same (inStep'.opened c hc) hm same]
  exact ⟨_, _, rfl, inStep'⟩

/-- What `DROP` does: every name that is the same value leaves the catalog, and the name itself
leaves the memory. It succeeds where the name was in memory. -/
theorem exec_dropDatabase_inStep (sees : Sees e p) (inStep : p.1.InStep names) (name : String) :
    ∃ r c i s, exec (dropDatabase name) p = (r, (i, s)) ∧ i.catalog = some c ∧
      (r.isOk = true ↔ name ∈ names) ∧
      (∀ n, i.engine.live.get? .data n =
        if name = n then none else p.1.engine.live.get? .data n) ∧
      Catalog.Lists (i.engine.state c.cell) (Engine.others names name) ∧
      ((∀ m ∈ names, Cell.sameValue m name = true → m = name) →
        i.InStep (Engine.others names name)) := by
  obtain ⟨c, i, hcat, hc, inStep', hdata⟩ := exec_catalog_inStep inStep
  have agrees := inStep'.opened c hc
  have hlt := (sees.of_catalog hcat).catalog_lt hc
  have memory : (i.engine.relisted c.cell (Engine.others names name)).dataDir = none :=
    inStep'.memory
  have hlive : ∀ n, (i.engine.dropped c.cell names name).live.get? .data n =
      if name = n then none else p.1.engine.live.get? .data n := fun n => by
    rw [Engine.live_dropped, hdata n]
  have hstep : (∀ m ∈ names, Cell.sameValue m name = true → m = name) →
      Interpreter.InStep { i with engine := i.engine.dropped c.cell names name }
        (Engine.others names name) := by
    refine fun only => ⟨inStep'.memory, fun c' hc' => ?_, by simp [hc]⟩
    obtain rfl := Option.some.inj (hc.symm.trans hc')
    exact agrees.dropped hlt only
  rw [exec_dropDatabase, hcat]
  dsimp only
  rw [exec_storage, Engine.exec_delete_entry agrees name]
  dsimp only
  rw [exec_storage]
  dsimp only
  rw [Engine.exec_dropDatabase_in_memory memory, Engine.live_relisted]
  cases hname : i.engine.live.get? .data name with
  | none =>
    refine ⟨_, c, _, _, rfl, hc, ?_, hlive, Engine.lists_dropped hlt names name, hstep⟩
    simp [agrees.mem_iff, hname, Except.isOk, Except.toBool]
  | some d =>
    have hmem : name ∈ names := by simp [agrees.mem_iff, hname]
    simp only [reduceCtorEq, if_false]
    by_cases hactive : p.2.activeName = some name
    · rw [if_pos hactive]
      exact ⟨_, c, _, _, rfl, hc, ⟨fun _ => hmem, fun _ => rfl⟩, hlive,
        Engine.lists_dropped hlt names name, hstep⟩
    · rw [if_neg hactive]
      exact ⟨_, c, _, _, rfl, hc, ⟨fun _ => hmem, fun _ => rfl⟩, hlive,
        Engine.lists_dropped hlt names name, hstep⟩

omit [PatternCompiler] in
theorem exec_saveActive_in_memory (memory : p.1.engine.dataDir = none) :
    exec saveActive p = (.ok (), p) := by
  rw [exec_saveActive]
  cases p.2.active with
  | none => rfl
  | some h =>
    dsimp only
    rw [exec_storage, Engine.exec_save_in_memory memory]

/-- A statement that neither creates nor drops a database keeps the names in step. -/
theorem inStep_of_performs (sees : Sees e p) (inStep : p.1.InStep names) {st : Statement}
    {act : SessionM Outcome} (performs : Performs p st act)
    (create : ∀ n, st ≠ .create .database n none) (drop : ∀ n, st ≠ .drop .database (some n)) :
    (exec act p).2.1.InStep names := by
  cases performs with
  | create name => exact absurd rfl (create name)
  | drop name => exact absurd rfl (drop name)
  | refuse err => exact inStep
  | select name =>
    rw [exec_select, exec_saveActive_in_memory inStep.memory]
    dsimp only
    rw [exec_storage, Engine.exec_open_in_memory inStep.memory]
    cases p.1.engine.live.get? .data name <;> exact inStep
  | list pattern =>
    obtain ⟨c, i, hcat, hc, inStep', -⟩ := exec_catalog_inStep inStep
    rw [exec_listDatabases, hcat]
    dsimp only
    unfold Engine.find
    rw [exec_storage, Engine.exec_query]
    rcases (i.engine.databaseOf c).find (listed pattern) with err | rows <;> exact inStep'
  | describe name =>
    rw [exec_storage_snd, Engine.exec_describeDatabase_snd_in_memory inStep.memory]
    exact inStep
  | query active f =>
    rw [exec_storage_snd, Engine.exec_query]
    exact inStep
  | @edit _ h active f =>
    obtain ⟨valid, hscope⟩ := sees.session h active
    have hspares : Engine.Spares .system p.1.engine (exec (Engine.edit h f) p.1.engine).2 :=
      Engine.spares_edit valid (by simp [hscope]) f
    rw [exec_storage_snd]
    rw [Engine.exec_edit] at hspares ⊢
    rcases hf : f (p.1.engine.databaseOf h) with err | ⟨outcome, db⟩ <;> rw [hf] at hspares
    · exact inStep
    · refine ⟨inStep.memory, fun c hc => ?_, inStep.closed⟩
      have live := (sees.interpreter.catalog c hc).live
      exact (inStep.opened c hc).of_spares live hspares fun _ => rfl

omit [PatternCompiler] in
/-- `CREATE` where no other database is named by the same value. -/
theorem createDatabase_inStep (sees : Sees e p) (inStep : p.1.InStep names)
    (only : ∀ m ∈ names, Cell.sameValue m name = true → m = name) :
    ((exec (createDatabase name) p).1.isOk = true ↔ name ∉ names) ∧
      ∃ names', (exec (createDatabase name) p).2.1.InStep names' := by
  by_cases hmem : name ∈ names
  · obtain ⟨err, i, hexec, inStep'⟩ :=
      exec_createDatabase_of_same inStep hmem (Cell.sameValue_refl name)
    rw [hexec]
    exact ⟨by simp [hmem, Except.isOk, Except.toBool], names, inStep'⟩
  · have apart : ∀ m ∈ names, Cell.sameValue m name = false := fun m hm =>
      Bool.eq_false_iff.2 fun same => hmem (only m hm same ▸ hm)
    obtain ⟨outcome, i, hexec, inStep'⟩ := exec_createDatabase_of_apart sees inStep apart
    rw [hexec]
    exact ⟨by simp [hmem, Except.isOk, Except.toBool], _, inStep'⟩

omit [PatternCompiler] in
/-- Without a data directory saving changes nothing, apart from opening the catalog. -/
theorem save_inStep (inStep : p.1.InStep names) : (exec save p).2.1.InStep names := by
  obtain ⟨c, i, hcat, hc, inStep', -⟩ := exec_catalog_inStep inStep
  rw [exec_save, exec_saveActive_in_memory inStep.memory]
  dsimp only
  rw [hcat]
  dsimp only
  rw [exec_storage, Engine.exec_save_in_memory inStep'.memory]
  exact inStep'

/-- **A statement keeps the names in step** unless it creates or drops a database while another one
is named by the same value. Then `CREATE` succeeds where the name is free and `DROP` where it is
not. -/
theorem dispatch_inStep (sees : Sees e p) (inStep : p.1.InStep names) {st : Statement}
    (apart : ∀ n, st = .create .database n none ∨ st = .drop .database (some n) →
      ∀ m ∈ names, Cell.sameValue m n = true → m = n) :
    (∀ n, st = .create .database n none →
        ((exec (dispatch st) p).1.isOk = true ↔ n ∉ names)) ∧
      (∀ n, st = .drop .database (some n) →
        ((exec (dispatch st) p).1.isOk = true ↔ n ∈ names)) ∧
      ∃ names', (exec (dispatch st) p).2.1.InStep names' := by
  by_cases hcreate : ∃ n, st = .create .database n none
  · obtain ⟨n, rfl⟩ := hcreate
    obtain ⟨hok, names', inStep'⟩ := createDatabase_inStep sees inStep (apart n (.inl rfl))
    refine ⟨fun n' hn' => ?_, by simp, names', inStep'⟩
    obtain rfl : n = n' := by simpa using hn'
    exact hok
  by_cases hdrop : ∃ n, st = .drop .database (some n)
  · obtain ⟨n, rfl⟩ := hdrop
    obtain ⟨r, c, i, s, hexec, -, hok, -, -, inStep'⟩ := exec_dropDatabase_inStep sees inStep n
    have hdispatch : exec (dispatch (.drop .database (some n))) p = (r, (i, s)) := hexec
    rw [hdispatch]
    refine ⟨by simp, fun n' hn' => ?_, _, inStep' (apart n (.inr rfl))⟩
    obtain rfl : n = n' := by simpa using hn'
    exact hok
  obtain ⟨act, performs, hact⟩ := exists_performs st p
  refine ⟨fun n hn => absurd ⟨n, hn⟩ hcreate, fun n hn => absurd ⟨n, hn⟩ hdrop, names, ?_⟩
  rw [hact]
  exact inStep_of_performs sees inStep performs (fun n h => hcreate ⟨n, h⟩)
    fun n h => hdrop ⟨n, h⟩

end Session

/-! ### Runs -/

namespace World

/-- A database of this name is in memory. -/
def HasDatabase (w : World) (name : String) : Prop := (w.engine.live.get? .data name).isSome

/-- To any client, `SHOW` lists the databases, each of them once. -/
def ShowsDatabases [PatternCompiler] (w : World) : Prop :=
  ∀ viewer text, Statement.parse text = .ok (.show none) →
    ∃ names : List String, names.Nodup ∧ (∀ n, n ∈ names ↔ w.HasDatabase n) ∧
      w.answer viewer (Session.execute text) = .ok (.rows (names.map Catalog.row))

/-- What clients rely on at a step: `CREATE DATABASE` succeeds where the name is free, `DROP
DATABASE` where it is not, and after the step `SHOW` lists the databases. -/
structure Faithful [PatternCompiler] (w : World) (step : Step) : Prop where
  create_iff : ∀ n, step.statement? = some (.create .database n none) →
    (w.error? step = none ↔ ¬w.HasDatabase n)
  drop_iff : ∀ n, step.statement? = some (.drop .database (some n)) →
    (w.error? step = none ↔ w.HasDatabase n)
  shows : (w.after step).ShowsDatabases

/-- Where the step creates or drops a database, no other database is named by the same value. -/
def NamesApart (w : World) (step : Step) : Prop :=
  ∀ n, step.statement? = some (.create .database n none) ∨
      step.statement? = some (.drop .database (some n)) →
    ∀ m, w.HasDatabase m → Cell.sameValue m n = true → m = n

variable {w : World} {names : List String}

theorem mem_iff_hasDatabase (inStep : w.interpreter.InStep names) (n : String) :
    n ∈ names ↔ w.HasDatabase n := by
  unfold HasDatabase engine
  cases hc : w.interpreter.catalog with
  | some c => exact (inStep.opened c hc).mem_iff n
  | none =>
    obtain ⟨rfl, -, hnone⟩ := inStep.closed hc
    simp [hnone]

section

variable [PatternCompiler]

/-- Where the names are in step, `SHOW` lists them. -/
theorem showsDatabases_of_inStep (inStep : w.interpreter.InStep names) : w.ShowsDatabases := by
  intro viewer text htext
  obtain ⟨c, i, hcat, hc, inStep', -⟩ :=
    Session.exec_catalog_inStep (p := w.view viewer) inStep
  have agrees := inStep'.opened c hc
  refine ⟨names, agrees.nodup, mem_iff_hasDatabase inStep, ?_⟩
  have hcat' : exec Session.catalog (i, (w.view viewer).2) = (.ok c, (i, (w.view viewer).2)) := by
    rw [Session.exec_catalog, hc]
  have hlist := Session.exec_list_of_lists (p := (i, (w.view viewer).2)) hc agrees.lists
  rw [Session.exec_listDatabases, hcat'] at hlist
  unfold answer
  rw [exec_execute htext]
  change (exec (Session.listDatabases none) (w.view viewer)).1 = _
  rw [Session.exec_listDatabases, hcat]
  exact congrArg Prod.fst hlist

omit [PatternCompiler] in
/-- A new process without a data directory has no databases, and lists none. -/
theorem start_inStep (folder : Folder) (clock : Timestamp) :
    (start (Engine.new none folder clock)).interpreter.InStep [] where
  memory := rfl
  opened := by simp [start, Interpreter.new]
  closed := by simp [start, Interpreter.new, Engine.new]

/-- A step of which no other name is the same value is faithful, and keeps the names in step. -/
theorem inStep_after (sound : w.Sound) (inStep : w.interpreter.InStep names) {step : Step}
    (apart : w.NamesApart step) :
    w.Faithful step ∧ ∃ names', (w.after step).interpreter.InStep names' := by
  suffices h : (∀ n, step.statement? = some (.create .database n none) →
      (w.error? step = none ↔ ¬w.HasDatabase n)) ∧
      (∀ n, step.statement? = some (.drop .database (some n)) →
        (w.error? step = none ↔ w.HasDatabase n)) ∧
      ∃ names', (w.after step).interpreter.InStep names' by
    obtain ⟨create, drop, names', inStep'⟩ := h
    exact ⟨⟨create, drop, showsDatabases_of_inStep inStep'⟩, names', inStep'⟩
  cases step with
  | restart clock =>
    refine ⟨by simp [Step.statement?], by simp [Step.statement?], [], ?_⟩
    have hstart := start_inStep w.engine.folder clock
    rw [← inStep.memory] at hstart
    exact hstart
  | save client =>
    refine ⟨by simp [Step.statement?], by simp [Step.statement?], names, ?_⟩
    exact Session.save_inStep (p := w.view client) inStep
  | statement client text =>
    cases hparse : Statement.parse text with
    | error cause =>
      refine ⟨by simp [Step.statement?, hparse, Except.toOption],
        by simp [Step.statement?, hparse, Except.toOption], names, ?_⟩
      change (exec (Session.execute text) (w.view client)).2.1.InStep names
      rw [exec_execute_of_error hparse]
      exact inStep
    | ok st =>
      have hst : (Step.statement client text).statement? = some st := by
        simp [Step.statement?, hparse, Except.toOption]
      have hexec : exec (Session.execute text) (w.view client) =
        exec (Session.dispatch st) (w.view client) := exec_execute hparse _
      have hafter : (w.after (.statement client text)).interpreter =
        (exec (Session.dispatch st) (w.view client)).2.1 := congrArg (fun r => r.2.1) hexec
      have apart' : ∀ n, st = .create .database n none ∨ st = .drop .database (some n) →
          ∀ m ∈ names, Cell.sameValue m n = true → m = n := by
        intro n hn m hm
        exact apart n (by rw [hst]; simpa using hn) m ((mem_iff_hasDatabase inStep m).1 hm)
      obtain ⟨create, drop, inStep'⟩ :=
        Session.dispatch_inStep (sound.sees client) inStep apart'
      rw [hafter, hst, error?_eq_none_iff, hexec]
      simp only [Option.some.injEq, ← mem_iff_hasDatabase inStep]
      exact ⟨create, drop, inStep'⟩

/-- A database is not created while another one is named by the same value. -/
theorem error?_of_create_same (inStep : w.interpreter.InStep names) {step : Step} {m n : String}
    (hst : step.statement? = some (.create .database n none)) (hmem : m ∈ names)
    (same : Cell.sameValue m n = true) : w.error? step ≠ none := by
  obtain ⟨client, text, rfl, hparse⟩ := Step.exists_of_statement? hst
  obtain ⟨err, i, hexec, -⟩ :=
    Session.exec_createDatabase_of_same (p := w.view client) inStep hmem same
  have hdispatch : exec (Session.dispatch (.create .database n none)) (w.view client) =
      (.error err, (i, (w.view client).2)) := hexec
  rw [Ne, error?_eq_none_iff, exec_execute hparse, hdispatch]
  simp [Except.isOk, Except.toBool]

/-- After a drop `SHOW` lists no name that is the same value as the dropped one. -/
theorem not_showsDatabases_of_drop_same (sound : w.Sound) (inStep : w.interpreter.InStep names)
    {step : Step} {m n : String} (hst : step.statement? = some (.drop .database (some n)))
    (hm : w.HasDatabase m) (same : Cell.sameValue m n = true) (hne : m ≠ n) :
    ¬(w.after step).ShowsDatabases := by
  intro shows
  obtain ⟨client, text, rfl, hparse⟩ := Step.exists_of_statement? hst
  obtain ⟨r, c, i, s, hexec, hc, -, hlive, lists, -⟩ :=
    Session.exec_dropDatabase_inStep (sound.sees client) inStep n
  have hafter : w.after (.statement client text) = w.withView client (i, s) := by
    change w.withView client (exec (Session.execute text) (w.view client)).2 = _
    rw [exec_execute hparse]
    exact congrArg (fun r => w.withView client r.2) hexec
  have hshow : Statement.parse "SHOW" = .ok (.show none) := by decide +kernel
  obtain ⟨shown, -, hshown, hanswer⟩ := shows client "SHOW" hshow
  rw [hafter] at hshown hanswer
  have hlist : (w.withView client (i, s)).answer client (Session.execute "SHOW") =
      .ok (.rows ((Engine.others names n).map Catalog.row)) := by
    unfold answer
    rw [view_withView, exec_execute hshow]
    exact congrArg Prod.fst (Session.exec_list_of_lists hc lists)
  have hrows : shown.map Catalog.row = (Engine.others names n).map Catalog.row := by
    simpa using hanswer.symm.trans hlist
  have hmem : m ∈ shown := by
    rw [hshown]
    change (i.engine.live.get? .data m).isSome
    rw [hlive, if_neg (Ne.symm hne)]
    exact hm
  have hrow := hrows ▸ List.mem_map_of_mem (f := Catalog.row) hmem
  obtain ⟨m', hm', heq⟩ := List.mem_map.1 hrow
  have hvalue : some m' = some m := by
    rw [← Catalog.value?_row, ← Catalog.value?_row, heq]
  rw [Option.some.inj hvalue, Engine.others, List.mem_filter, same] at hm'
  exact absurd hm'.2 (by simp)

/-- A step that creates or drops a database while another one is named by the same value is not
faithful: `CREATE` refuses a free name, or `SHOW` no longer lists the other database. -/
theorem not_faithful_of_not_namesApart (sound : w.Sound) (inStep : w.interpreter.InStep names)
    {step : Step} (h : ¬w.NamesApart step) : ¬w.Faithful step := by
  intro faithful
  refine h fun n hst m hm same => ?_
  by_contra hne
  have hmem := (mem_iff_hasDatabase inStep m).2 hm
  rcases hst with hst | hst
  · have hfree : ¬w.HasDatabase n := by
      intro hn
      cases hc : w.interpreter.catalog with
      | some c =>
        exact hne ((inStep.opened c hc).eq_of_sameValue hmem
          ((mem_iff_hasDatabase inStep n).2 hn) same)
      | none => simp [(inStep.closed hc).1] at hmem
    exact error?_of_create_same inStep hst hmem same ((faithful.create_iff n hst).2 hfree)
  · exact not_showsDatabases_of_drop_same sound inStep hst hm same hne faithful.shows

/-- **`CREATE`, `DROP` and `SHOW` agree on which databases exist exactly as long as no statement
creates or drops a database while another one is named by the same value.** -/
theorem faithful_iff_namesApart (folder : Folder) (clock : Timestamp) (steps : List Step) :
    Along Faithful (start (Engine.new none folder clock)) steps ↔
      Along NamesApart (start (Engine.new none folder clock)) steps := by
  suffices h : ∀ (steps : List Step) (w : World) (names : List String), w.Sound →
      w.interpreter.InStep names → (Along Faithful w steps ↔ Along NamesApart w steps) from
    h steps _ [] (start_sound none folder clock) (start_inStep folder clock)
  intro steps
  induction steps with
  | nil => exact fun _ _ _ _ => Iff.rfl
  | cons step steps ih =>
    intro w names sound inStep
    by_cases apart : w.NamesApart step
    · obtain ⟨faithful, names', inStep'⟩ := inStep_after sound inStep apart
      have := ih (w.after step) names' (sound.after step) inStep'
      constructor
      · intro h
        exact ⟨apart, this.1 h.2⟩
      · intro h
        exact ⟨faithful, this.2 h.2⟩
    · constructor
      · intro h
        exact absurd h.1 (not_faithful_of_not_namesApart sound inStep apart)
      · intro h
        exact absurd h.1 apart

end

/-- A refused `DROP DATABASE 01` takes the database `1` off the list, though it goes on existing. -/
theorem not_faithful_of_drop_equal_number :
    ¬∀ statements : List (Nat × String),
      Along Faithful (start (Engine.new none Folder.empty Timestamp.epoch))
        (statements.map fun s => .statement s.1 s.2) := by
  intro h
  obtain ⟨-, faithful, -⟩ := h [(0, "CREATE DATABASE 1"), (1, "DROP DATABASE 01")]
  obtain ⟨names, -, hnames, hanswer⟩ := faithful.shows 0 "SHOW" (by decide +kernel)
  have hempty : names.map Catalog.row = [] := by
    have hshown : ((start (Engine.new none Folder.empty Timestamp.epoch)).run
        [.statement 0 "CREATE DATABASE 1", .statement 1 "DROP DATABASE 01"]).answer 0
          (Session.execute "SHOW") = .ok (.rows []) := by decide +kernel
    simpa using hanswer.symm.trans hshown
  have hexists : ((start (Engine.new none Folder.empty Timestamp.epoch)).run
      [.statement 0 "CREATE DATABASE 1", .statement 1 "DROP DATABASE 01"]).engine.live.get? .data
        "1" = some 1 := by decide +kernel
  have hmem : "1" ∈ names := (hnames "1").2 (Option.isSome_iff_exists.2 ⟨1, hexists⟩)
  rw [List.map_eq_nil_iff.1 hempty] at hmem
  exact absurd hmem List.not_mem_nil

end World

end Tabular
