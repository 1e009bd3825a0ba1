import Mathlib.Logic.Function.Basic
import Tabular.Proofs.Session.Namespace
import Tabular.Proofs.Session.Refused

/-!
Statements that create and drop databases, call by call.

`CREATE DATABASE` and `DROP DATABASE` make several calls to the storage, and each call is awaited,
so the calls of several clients can come in any order. `Traffic` is a world with statements that are
under way, `Move` is the next call of a client. A statement that nothing interrupts does what it
does as a whole (`Traffic.run_alone`). Main statement: without a data directory, and on names that
are not numeric, `Traffic.Effect` tells all that a call does to the list of the catalog, to the
databases in memory and to the statements under way (`Traffic.exists_effect`).
-/

namespace Tabular

/-! ### What the catalog lists -/

/-- The catalog lists these names, whatever databases there are. A catalog that has not been opened
does not exist and lists nothing. -/
structure Interpreter.Records (i : Interpreter) (names : List String) : Prop where
  memory : i.engine.dataDir = none
  opened : ∀ c, i.catalog = some c →
    c.cell < i.engine.states.length ∧ Catalog.Lists (i.engine.state c.cell) names
  closed : i.catalog = none → names = [] ∧ i.engine.live.get? .system Catalog.database = none
  apart : names.Pairwise fun m n => Cell.sameValue m n = false

namespace Interpreter.Records

variable {i : Interpreter} {names : List String}

theorem nodup (records : i.Records names) : names.Nodup :=
  records.apart.imp fun {m n} h hmn => by simp [hmn] at h

/-- Other names are listed once the table of the catalog is another one. -/
theorem relisted {c : Handle} (records : i.Records names) (hc : i.catalog = some c)
    {names' : List String} (apart : names'.Pairwise fun m n => Cell.sameValue m n = false)
    (db : Database) :
    Records { i with
      engine := i.engine.setState c.cell (db.setTable Catalog.table (Catalog.listing names')) }
      names' where
  memory := records.memory
  opened := fun c' hc' => by
    obtain rfl := Option.some.inj (hc.symm.trans hc')
    have hlt := (records.opened c hc).1
    refine ⟨by simpa [Engine.setState] using hlt, ?_⟩
    rw [Engine.state_setState, if_pos ⟨rfl, hlt⟩]
    exact Catalog.lists_setTable _ _
  closed := fun hnone => by simp [hc] at hnone
  apart := apart

theorem registered (records : i.Records names) (name : String) (db : Database) :
    Records { i with engine := i.engine.registered .data name db } names where
  memory := records.memory
  opened := fun c hc => by
    obtain ⟨hlt, lists⟩ := records.opened c hc
    refine ⟨by simp [Engine.registered]; omega, ?_⟩
    rw [Engine.state_registered_of_lt _ _ _ _ hlt]
    exact lists
  closed := fun hnone => by
    obtain ⟨hnames, hsystem⟩ := records.closed hnone
    exact ⟨hnames, by rw [Engine.live_registered, if_neg (by simp)]; exact hsystem⟩
  apart := records.apart

theorem forgotten (records : i.Records names) (name : String) :
    Records { i with engine := i.engine.forgotten .data name } names where
  memory := records.memory
  opened := records.opened
  closed := fun hnone => by
    obtain ⟨hnames, hsystem⟩ := records.closed hnone
    exact ⟨hnames, by rw [Engine.live_forgotten, if_neg (by simp)]; exact hsystem⟩
  apart := records.apart

end Interpreter.Records

namespace Session

variable {p : Interpreter × Session} {names : List String} {name : String}

/-- Obtaining the catalog opens it at most, with no names in it. -/
theorem exec_catalog_records (records : p.1.Records names) :
    ∃ c i, exec catalog p = (.ok c, (i, p.2)) ∧ i.catalog = some c ∧ i.Records names ∧
      ∀ n, i.engine.live.get? .data n = p.1.engine.live.get? .data n := by
  rw [exec_catalog]
  cases hc : p.1.catalog with
  | some c => exact ⟨c, p.1, rfl, hc, records, fun _ => rfl⟩
  | none =>
    obtain ⟨rfl, new⟩ := records.closed hc
    dsimp only
    rw [Engine.exec_openCatalog_in_memory records.memory new]
    refine ⟨_, _, rfl, rfl, ⟨records.memory, ?_, by simp, List.Pairwise.nil⟩, fun n => ?_⟩
    · rintro c hcell
      obtain rfl := Option.some.inj hcell
      refine ⟨by simp [Engine.setState, Engine.registered], ?_⟩
      rw [Engine.state_setState, if_pos ⟨rfl, by simp [Engine.registered]⟩]
      exact Catalog.lists_setTable _ _
    · change (p.1.engine.registered .system Catalog.database
        (Database.new p.1.engine.clock)).live.get? .data n = _
      rw [Engine.live_registered, if_neg (by simp)]

/-- A name that is the same value as a listed one is refused by the catalog. -/
theorem exec_enlist_of_same (records : p.1.Records names) {m : String} (hm : m ∈ names)
    (same : Cell.sameValue m name = true) :
    ∃ err i, exec (enlist name) p = (.error err, (i, p.2)) ∧ i.Records names ∧
      ∀ n, i.engine.live.get? .data n = p.1.engine.live.get? .data n := by
  obtain ⟨c, i, hcatalog, hc, records', hlive⟩ := exec_catalog_records records
  have hany : (names.any fun n => Cell.sameValue n name) = true :=
    List.any_eq_true.2 ⟨m, hm, same⟩
  unfold enlist
  have lists : Catalog.Lists (i.engine.databaseOf c) names := (records'.opened c hc).2
  rw [exec_amend, hcatalog]
  dsimp only
  rw [Catalog.insert_entry lists, hany]
  exact ⟨_, _, rfl, records', hlive⟩

/-- Every other name is taken in. -/
theorem exec_enlist_of_apart (records : p.1.Records names)
    (apart : ∀ m ∈ names, Cell.sameValue m name = false) :
    ∃ outcome i, exec (enlist name) p = (.ok outcome, (i, p.2)) ∧ i.Records (names ++ [name]) ∧
      ∀ n, i.engine.live.get? .data n = p.1.engine.live.get? .data n := by
  obtain ⟨c, i, hcatalog, hc, records', hlive⟩ := exec_catalog_records records
  have hany : (names.any fun n => Cell.sameValue n name) = false :=
    List.any_eq_false.2 fun m hm => by simp [apart m hm]
  have hmore : (names ++ [name]).Pairwise fun m n => Cell.sameValue m n = false := by
    refine List.pairwise_append.2 ⟨records.apart, List.pairwise_singleton _ _, ?_⟩
    intro m hm n hn
    exact List.mem_singleton.1 hn ▸ apart m hm
  unfold enlist
  have lists : Catalog.Lists (i.engine.databaseOf c) names := (records'.opened c hc).2
  rw [exec_amend, hcatalog]
  dsimp only
  rw [Catalog.insert_entry lists, hany]
  exact ⟨_, _, rfl, records'.relisted hc hmore _, hlive⟩

/-- The names that are the same value are taken out. -/
theorem exec_delist [PatternCompiler] (records : p.1.Records names) (name : String) :
    ∃ outcome i, exec (delist name) p = (.ok outcome, (i, p.2)) ∧
      i.Records (Engine.others names name) ∧
      ∀ n, i.engine.live.get? .data n = p.1.engine.live.get? .data n := by
  obtain ⟨c, i, hcatalog, hc, records', hlive⟩ := exec_catalog_records records
  unfold delist
  have lists : Catalog.Lists (i.engine.databaseOf c) names := (records'.opened c hc).2
  rw [exec_amend, hcatalog]
  dsimp only
  rw [Catalog.delete_having lists]
  exact ⟨_, _, rfl, records'.relisted hc (records.apart.sublist List.filter_sublist) _, hlive⟩

end Session

namespace World

variable {w : World} {names : List String}

theorem answer_show_of_records [PatternCompiler] (records : w.interpreter.Records names)
    (viewer : Nat)
    {text : String} (htext : Statement.parse text = .ok (.show none)) :
    w.answer viewer (Session.execute text) = .ok (.rows (names.map Catalog.row)) := by
  obtain ⟨c, i, hcatalog, hc, records', -⟩ :=
    Session.exec_catalog_records (p := w.view viewer) records
  unfold answer
  rw [exec_execute htext]
  change (exec (Session.listDatabases none) (w.view viewer)).1 = _
  rw [Session.exec_listDatabases, hcatalog]
  dsimp only
  rw [Session.exec_storage, Engine.exec_find_listed (records'.opened c hc).2]

/-- `SHOW` lists the databases exactly if the catalog does. -/
theorem showsDatabases_iff [PatternCompiler] (records : w.interpreter.Records names) :
    w.ShowsDatabases ↔ ∀ n, n ∈ names ↔ w.HasDatabase n := by
  constructor
  · intro shows
    obtain ⟨shown, -, hshown, hanswer⟩ := shows 0 "SHOW" parse_show
    rw [answer_show_of_records records 0 parse_show] at hanswer
    have hrows : names.map Catalog.row = shown.map Catalog.row := by simpa using hanswer
    have hrow : Function.Injective Catalog.row := fun m n h => by
      have hvalue : some m = some n := by rw [← Catalog.value?_row, h, Catalog.value?_row]
      exact Option.some.inj hvalue
    rwa [hrow.list_map hrows]
  · intro agree viewer text htext
    exact ⟨names, records.nodup, agree, answer_show_of_records records viewer htext⟩

end World

/-! ### Statements call by call -/

/-- A statement that creates or drops a database. -/
inductive Change where
  | create (name : String)
  | drop (name : String)
  deriving DecidableEq

/-- The name of the database. -/
def Change.name : Change → String
  | .create name => name
  | .drop name => name

/-- The statement itself. -/
def Change.statement : Change → Statement
  | .create name => .create .database name none
  | .drop name => .drop .database (some name)

/-- How far a statement has come that has made its first call and still has calls to make. -/
inductive Stage where
  /-- A `CREATE` whose row is in the catalog; next it looks whether the name is free. -/
  | enlisted (name : String)
  /-- A `CREATE` that has found its name free; next it brings the database into memory. -/
  | checked (name : String)
  /-- A `DROP` whose row is out of the catalog; next it takes the database out of memory. -/
  | delisted (name : String)
  deriving DecidableEq

namespace Engine

/-- The first half of creating a database: it may not exist yet. -/
def refuseTaken (name : String) : EngineM Unit := do
  if (← load .data name).isSome then throw (.databaseExists name)

/-- The second half of creating a database. -/
def enter (name : String) : EngineM Outcome := do
  let cell ← register .data name (Database.new (← get).clock)
  save { scope := .data, name, cell }
  return .message ("Database " ++ name ++ " created.")

variable {e : Engine}

theorem createDatabase_eq (name : String) :
    createDatabase .data name = (do refuseTaken name; enter name) := by
  unfold createDatabase refuseTaken enter
  rw [bind_assoc]
  refine bind_congr fun cell? => ?_
  by_cases taken : cell?.isSome = true
  · rw [if_pos taken, if_pos taken]
  · rw [if_neg taken, if_neg taken, pure_bind]

theorem exec_refuseTaken_in_memory (memory : e.dataDir = none) (name : String) :
    exec (refuseTaken name) e =
      (if (e.live.get? .data name).isSome then .error (.databaseExists name) else .ok (), e) := by
  unfold refuseTaken
  rw [exec_bind_of_ok (exec_load_in_memory memory .data name)]
  cases e.live.get? .data name <;> rfl

theorem exec_enter_in_memory (memory : e.dataDir = none) (name : String) :
    exec (enter name) e = (.ok (.message ("Database " ++ name ++ " created.")),
      e.registered .data name (Database.new e.clock)) := by
  have memory' : (e.registered .data name (Database.new e.clock)).dataDir = none := memory
  unfold enter
  rw [exec_bind_of_ok (exec_get e), exec_bind_of_ok (exec_register .data name _ e),
    exec_bind_of_ok (exec_save_in_memory memory' _)]
  rfl

end Engine

namespace Session

/-- The second part of `DROP`: the database is dropped, and no longer selected. -/
def withdraw (name : String) : SessionM Outcome := do
  let outcome ← storage (Engine.dropDatabase .data name)
  if (← get).2.activeName = some name then setActive none
  return outcome

end Session

/-- A call, and how far its statement has come when it succeeds. -/
def Session.reaching {α : Type} (call : SessionM α) (stage : Option Stage) :
    SessionM (Option Stage) := do
  let _ ← call
  return stage

/-- The first call of a statement, on the catalog. -/
def Change.first [PatternCompiler] : Change → SessionM (Option Stage)
  | .create name => Session.reaching (Session.enlist name) (some (.enlisted name))
  | .drop name => Session.reaching (Session.delist name) (some (.delisted name))

/-- The next call of a statement. After the last one nothing is left to do. -/
def Stage.next : Stage → SessionM (Option Stage)
  | .enlisted name =>
    Session.reaching (Session.storage (Engine.refuseTaken name)) (some (.checked name))
  | .checked name => Session.reaching (Session.storage (Engine.enter name)) none
  | .delisted name => Session.reaching (Session.withdraw name) none

/-- The stage that the next call leads to if it succeeds. -/
def Stage.successor : Stage → Option Stage
  | .enlisted name => some (.checked name)
  | .checked _ | .delisted _ => none

/-! ### Several statements under way -/

/-- A world in which some clients have a statement under way. A client has at most one: it waits for
the answer before it sends the next one. -/
structure Traffic where
  world : World
  stage : Nat → Option Stage

/-- What happens to a traffic. -/
inductive Move where
  /-- A client without a statement sends one, and its first call is made. -/
  | begin (client : Nat) (change : Change)
  /-- The next call of a client's statement is made. -/
  | advance (client : Nat)
  deriving DecidableEq

/-- The client of a move. -/
def Move.client : Move → Nat
  | .begin client _ => client
  | .advance client => client

namespace Traffic

/-- No statement is under way yet. -/
def start (e : Engine) : Traffic :=
  { world := World.start e, stage := fun _ => none }

/-- A client's call is made. If it fails its statement has come to its end. -/
def perform (t : Traffic) (client : Nat) (call : SessionM (Option Stage)) : Traffic where
  world := t.world.afterAct client call
  stage := Function.update t.stage client (t.world.answer client call).toOption.join

/-- The traffic after a move. A client with a statement under way cannot send another one, and one
without a statement has no call to make. -/
def after [PatternCompiler] (t : Traffic) : Move → Traffic
  | .begin client change =>
    if t.stage client = none then t.perform client change.first else t
  | .advance client =>
    match t.stage client with
    | none => t
    | some stage => t.perform client stage.next

/-- The traffic after some moves. -/
def run [PatternCompiler] (t : Traffic) (moves : List Move) : Traffic := moves.foldl after t

/-- No statement is under way. -/
def Quiet (t : Traffic) : Prop := ∀ client, t.stage client = none

variable {t : Traffic} {client : Nat}

section

variable [PatternCompiler]

@[simp] theorem run_nil (t : Traffic) : t.run [] = t := rfl

@[simp] theorem run_cons (t : Traffic) (move : Move) (moves : List Move) :
    t.run (move :: moves) = (t.after move).run moves := rfl

theorem run_append (t : Traffic) (moves moves' : List Move) :
    t.run (moves ++ moves') = (t.run moves).run moves' :=
  List.foldl_append

end

/-- The traffic in which a client sees something else and its statement has come to a stage. -/
def put (t : Traffic) (client : Nat) (p : Interpreter × Session) (stage : Option Stage) :
    Traffic where
  world := t.world.withView client p
  stage := Function.update t.stage client stage

@[simp] theorem put_put (t : Traffic) (client : Nat) (p q : Interpreter × Session)
    (stage stage' : Option Stage) :
    (t.put client p stage).put client q stage' = t.put client q stage' := by
  simp [put]

@[simp] theorem view_put (t : Traffic) (client : Nat) (p : Interpreter × Session)
    (stage : Option Stage) : (t.put client p stage).world.view client = p := by
  simp [put]

@[simp] theorem stage_put_self (t : Traffic) (client : Nat) (p : Interpreter × Session)
    (stage : Option Stage) : (t.put client p stage).stage client = stage := by
  simp [put]

section

variable [PatternCompiler]

theorem after_begin (idle : t.stage client = none) (change : Change) :
    t.after (.begin client change) = t.perform client change.first :=
  if_pos idle

theorem after_advance {stage : Stage} (h : t.stage client = some stage) :
    t.after (.advance client) = t.perform client stage.next := by
  simp only [after, h]

theorem after_advance_of_idle (idle : t.stage client = none) : t.after (.advance client) = t := by
  simp only [after, idle]

end

section

variable {α : Type} {call : SessionM α} {p : Interpreter × Session}

theorem perform_of_ok {a : α} (h : exec call (t.world.view client) = (.ok a, p))
    (stage : Option Stage) :
    t.perform client (Session.reaching call stage) = t.put client p stage := by
  have hexec : exec (Session.reaching call stage) (t.world.view client) = (.ok stage, p) :=
    exec_bind_of_ok h
  unfold perform World.afterAct World.answer
  rw [hexec]
  rfl

theorem perform_of_error {err : Error} (h : exec call (t.world.view client) = (.error err, p))
    (stage : Option Stage) :
    t.perform client (Session.reaching call stage) = t.put client p none := by
  have hexec : exec (Session.reaching call stage) (t.world.view client) = (.error err, p) :=
    exec_bind_of_error h
  unfold perform World.afterAct World.answer
  rw [hexec]
  rfl

end

end Traffic

namespace Session

theorem exec_refuseTaken (memory : p.1.engine.dataDir = none) (name : String) :
    exec (storage (Engine.refuseTaken name)) p =
      (if (p.1.engine.live.get? .data name).isSome then
        .error (.storage (.databaseExists name)) else .ok (), p) := by
  rw [exec_storage, Engine.exec_refuseTaken_in_memory memory]
  cases p.1.engine.live.get? .data name <;> rfl

theorem exec_enter (memory : p.1.engine.dataDir = none) (name : String) :
    exec (storage (Engine.enter name)) p =
      (.ok (.message ("Database " ++ name ++ " created.")), ({ p.1 with
        engine := p.1.engine.registered .data name (Database.new p.1.engine.clock) }, p.2)) := by
  rw [exec_storage, Engine.exec_enter_in_memory memory]

/-- Whether a database was dropped or not, afterwards there is none of this name. -/
theorem exec_withdraw_snd (memory : p.1.engine.dataDir = none) (name : String) :
    ∃ s, (exec (withdraw name) p).2 =
      ({ p.1 with engine := p.1.engine.forgotten .data name }, s) := by
  have hdrop := exec_storage (Engine.dropDatabase .data name) p
  rw [Engine.exec_dropDatabase_in_memory memory] at hdrop
  unfold withdraw
  by_cases hlive : p.1.engine.live.get? .data name = none
  · rw [if_pos hlive] at hdrop
    rw [exec_bind_of_error hdrop]
    exact ⟨_, rfl⟩
  · rw [if_neg hlive] at hdrop
    rw [exec_bind_of_ok hdrop, exec_bind_of_ok (exec_get _)]
    split <;> exact ⟨_, rfl⟩

/-- The calls of an operation of the engine, one after the other. -/
theorem exec_storage_bind {α β : Type} (x : EngineM α) (f : α → EngineM β)
    (p : Interpreter × Session) :
    exec (storage (x >>= f)) p = exec (storage x >>= fun a => storage (f a)) p := by
  rw [exec_storage, exec_bind, exec_bind, exec_storage]
  rcases exec x p.1.engine with ⟨err | a, e⟩
  · rfl
  · dsimp only
    rw [exec_storage]

theorem exec_dropDatabase_of_withdraw [PatternCompiler] (name : String)
    (p : Interpreter × Session) :
    exec (dropDatabase name) p = match exec (delist name) p with
      | (.error err, p₁) => (.error err, p₁)
      | (.ok _, p₁) => exec (withdraw name) p₁ := by
  rw [exec_dropDatabase_of_delist]
  rcases exec (delist name) p with ⟨err | outcome, p₁⟩
  · rfl
  · dsimp only
    unfold withdraw
    rw [exec_bind]
    rcases exec (storage (Engine.dropDatabase .data name)) p₁ with ⟨err | outcome, p₂⟩
    · rfl
    · dsimp only
      rw [exec_bind, exec_get]
      by_cases hactive : p₂.2.activeName = some name
      · simp only [hactive, if_true]
        rfl
      · simp only [hactive, if_false]
        rfl

theorem exec_createDatabase_of_calls (name : String) (p : Interpreter × Session) :
    exec (createDatabase name) p = match exec (enlist name) p with
      | (.error err, p₁) => (.error err, p₁)
      | (.ok _, p₁) =>
        match exec (storage (Engine.refuseTaken name)) p₁ with
        | (.error err, p₂) => (.error err, p₂)
        | (.ok _, p₂) => exec (storage (Engine.enter name)) p₂ := by
  rw [exec_createDatabase_of_enlist]
  rcases exec (enlist name) p with ⟨err | outcome, p₁⟩
  · rfl
  · dsimp only
    rw [Engine.createDatabase_eq, exec_storage_bind, exec_bind]
    rcases exec (storage (Engine.refuseTaken name)) p₁ with ⟨err | _, p₂⟩ <;> rfl

end Session

namespace Traffic

variable {t : Traffic} {client : Nat}

theorem perform_last {α : Type} (call : SessionM α) :
    t.perform client (Session.reaching call none) =
      t.put client (exec call (t.world.view client)).2 none := by
  rcases hexec : exec call (t.world.view client) with ⟨err | a, p⟩
  · exact perform_of_error hexec none
  · exact perform_of_ok hexec none

/-- **A statement that nothing interrupts does what it does as a whole**: it takes three calls at
most, and then it is not under way any more. -/
theorem run_alone [PatternCompiler] (idle : t.stage client = none) (change : Change) :
    t.run [.begin client change, .advance client, .advance client] =
      { t with world := t.world.afterAct client (Session.dispatch change.statement) } := by
  suffices h : ((t.after (.begin client change)).after (.advance client)).after (.advance client) =
      t.put client (exec (Session.dispatch change.statement) (t.world.view client)).2 none by
    rw [run_cons, run_cons, run_cons, run_nil, h, put, ← idle, Function.update_eq_self]
    rfl
  have hdone : ∀ p, (t.put client p none).after (.advance client) = t.put client p none := fun p =>
    after_advance_of_idle (stage_put_self ..)
  rw [after_begin idle]
  cases change with
  | create name =>
    change _ = t.put client (exec (Session.createDatabase name) (t.world.view client)).2 none
    rw [Session.exec_createDatabase_of_calls, Change.first]
    rcases hfirst : exec (Session.enlist name) (t.world.view client) with ⟨err | outcome, p⟩
    · rw [perform_of_error hfirst, hdone, hdone]
    · rw [perform_of_ok hfirst, after_advance (stage_put_self ..), Stage.next]
      dsimp only
      rcases hsecond : exec (Session.storage (Engine.refuseTaken name)) p with ⟨err | _, q⟩
      · rw [perform_of_error (by rwa [view_put]), put_put, hdone]
      · rw [perform_of_ok (by rwa [view_put]), put_put, after_advance (stage_put_self ..),
          Stage.next, perform_last, put_put, view_put]
  | drop name =>
    change _ = t.put client (exec (Session.dropDatabase name) (t.world.view client)).2 none
    rw [Session.exec_dropDatabase_of_withdraw, Change.first]
    rcases hfirst : exec (Session.delist name) (t.world.view client) with ⟨err | outcome, p⟩
    · rw [perform_of_error hfirst, hdone, hdone]
    · rw [perform_of_ok hfirst, after_advance (stage_put_self ..), Stage.next, perform_last,
        put_put, hdone, view_put]

end Traffic

/-! ### The effect of a call -/

/-- A name that no number is equal to. -/
def NonNumeric (name : String) : Prop := numeric? name = none

instance (name : String) : Decidable (NonNumeric name) :=
  inferInstanceAs (Decidable (_ = _))

/-- To a name that is not numeric only the name itself is the same value. -/
theorem NonNumeric.sameValue_iff {name : String} (plain : NonNumeric name) (m : String) :
    Cell.sameValue m name = true ↔ m = name := by
  have hname : Cell.meaning name = .inr name := by
    unfold Cell.meaning
    rw [plain]
  rw [Cell.sameValue_iff, hname]
  constructor
  · intro h
    unfold Cell.meaning at h
    split at h
    · exact nomatch h
    · exact Sum.inr.inj h
  · rintro rfl
    exact hname

/-- A move does not concern a numeric name. -/
def Move.NonNumeric : Move → Prop
  | .begin _ change => Tabular.NonNumeric change.name
  | .advance _ => True

instance : ∀ move : Move, Decidable move.NonNumeric
  | .begin _ change => inferInstanceAs (Decidable (Tabular.NonNumeric change.name))
  | .advance _ => instDecidableTrue

namespace Traffic

/-- No call is made: the client of a new statement has one under way, or the client whose statement
goes on has none. -/
def Ignores (t : Traffic) : Move → Prop
  | .begin client _ => t.stage client ≠ none
  | .advance client => t.stage client = none

/-- A call of a client has brought its statement to a stage, and these are the databases in memory
then. -/
structure Next (t : Traffic) (client : Nat) (stage : Option Stage) (holds : String → Prop)
    (t' : Traffic) : Prop where
  holds_iff : ∀ n, t'.world.HasDatabase n ↔ holds n
  stage_eq : t'.stage = Function.update t.stage client stage

/-- What a move does to the names that the catalog lists, to the databases in memory and to the
statements under way. -/
inductive Effect (t : Traffic) (names : List String) : Move → Traffic → List String → Prop where
  | ignore {move : Move} (ignored : t.Ignores move) : Effect t names move t names
  /-- The catalog refuses the name of a `CREATE`. -/
  | decline {client : Nat} {name : String} {t' : Traffic} (idle : t.stage client = none)
      (old : name ∈ names) (next : Next t client none t.world.HasDatabase t') :
      Effect t names (.begin client (.create name)) t' names
  /-- The catalog takes the name of a `CREATE` in. -/
  | enlist {client : Nat} {name : String} {t' : Traffic} (idle : t.stage client = none)
      (new : name ∉ names)
      (next : Next t client (some (.enlisted name)) t.world.HasDatabase t') :
      Effect t names (.begin client (.create name)) t' (names ++ [name])
  /-- The name of a `DROP` is taken out of the catalog, if it is there. -/
  | delist {client : Nat} {name : String} {t' : Traffic} {names' : List String}
      (idle : t.stage client = none) (others : ∀ n, n ∈ names' ↔ n ∈ names ∧ n ≠ name)
      (next : Next t client (some (.delisted name)) t.world.HasDatabase t') :
      Effect t names (.begin client (.drop name)) t' names'
  /-- A `CREATE` finds its name free in memory. -/
  | check {client : Nat} {name : String} {t' : Traffic}
      (reached : t.stage client = some (.enlisted name)) (free : ¬t.world.HasDatabase name)
      (next : Next t client (some (.checked name)) t.world.HasDatabase t') :
      Effect t names (.advance client) t' names
  /-- A `CREATE` finds its name taken in memory, and fails. -/
  | refuse {client : Nat} {name : String} {t' : Traffic}
      (reached : t.stage client = some (.enlisted name)) (taken : t.world.HasDatabase name)
      (next : Next t client none t.world.HasDatabase t') :
      Effect t names (.advance client) t' names
  /-- A `CREATE` brings its database into memory. -/
  | enter {client : Nat} {name : String} {t' : Traffic}
      (reached : t.stage client = some (.checked name))
      (next : Next t client none (fun n => n = name ∨ t.world.HasDatabase n) t') :
      Effect t names (.advance client) t' names
  /-- A `DROP` takes its database out of memory, and fails if there is none. -/
  | withdraw {client : Nat} {name : String} {t' : Traffic}
      (reached : t.stage client = some (.delisted name))
      (next : Next t client none (fun n => n ≠ name ∧ t.world.HasDatabase n) t') :
      Effect t names (.advance client) t' names

/-- The catalog of a traffic lists these names. -/
def Records (t : Traffic) (names : List String) : Prop :=
  t.world.interpreter.Records names

variable {t : Traffic} {names : List String} {client : Nat} {name : String}

/-- A call that leaves the databases in memory alone. -/
theorem next_put {p : Interpreter × Session}
    (hlive : ∀ n, p.1.engine.live.get? .data n = t.world.engine.live.get? .data n)
    (stage : Option Stage) : Next t client stage t.world.HasDatabase (t.put client p stage) where
  holds_iff := fun n => by
    change (p.1.engine.live.get? .data n).isSome ↔ _
    rw [hlive]
    rfl
  stage_eq := rfl

variable [PatternCompiler]

theorem effect_create (records : t.Records names) (plain : NonNumeric name)
    (idle : t.stage client = none) :
    ∃ names', (t.after (.begin client (.create name))).Records names' ∧
      Effect t names (.begin client (.create name)) (t.after (.begin client (.create name)))
        names' := by
  rw [after_begin idle, Change.first]
  by_cases hmem : name ∈ names
  · obtain ⟨err, i, hexec, records', hlive⟩ := Session.exec_enlist_of_same
      (p := t.world.view client) records hmem (Cell.sameValue_refl name)
    rw [perform_of_error hexec]
    exact ⟨names, records', .decline idle hmem (next_put hlive none)⟩
  · have apart : ∀ m ∈ names, Cell.sameValue m name = false := fun m hm =>
      Bool.eq_false_iff.2 fun same => hmem ((plain.sameValue_iff m).1 same ▸ hm)
    obtain ⟨outcome, i, hexec, records', hlive⟩ :=
      Session.exec_enlist_of_apart (p := t.world.view client) records apart
    rw [perform_of_ok hexec]
    exact ⟨_, records', .enlist idle hmem (next_put hlive _)⟩

theorem effect_drop (records : t.Records names) (plain : NonNumeric name)
    (idle : t.stage client = none) :
    ∃ names', (t.after (.begin client (.drop name))).Records names' ∧
      Effect t names (.begin client (.drop name)) (t.after (.begin client (.drop name)))
        names' := by
  obtain ⟨outcome, i, hexec, records', hlive⟩ :=
    Session.exec_delist (p := t.world.view client) records name
  rw [after_begin idle, Change.first, perform_of_ok hexec]
  refine ⟨_, records', .delist idle (fun n => ?_) (next_put hlive _)⟩
  rw [Engine.others, List.mem_filter, Bool.not_eq_true', Bool.eq_false_iff, Ne, plain.sameValue_iff]

theorem advance_enlisted_of_free (records : t.Records names)
    (reached : t.stage client = some (.enlisted name)) (free : ¬t.world.HasDatabase name) :
    (t.after (.advance client)).Records names ∧
      Next t client (some (.checked name)) t.world.HasDatabase (t.after (.advance client)) := by
  have hexec := Session.exec_refuseTaken (p := t.world.view client) records.memory name
  have hlive : ¬((t.world.view client).1.engine.live.get? .data name).isSome = true := free
  rw [if_neg hlive] at hexec
  rw [after_advance reached, Stage.next, perform_of_ok hexec]
  exact ⟨records, next_put (fun _ => rfl) _⟩

theorem advance_enlisted_of_taken (records : t.Records names)
    (reached : t.stage client = some (.enlisted name)) (taken : t.world.HasDatabase name) :
    (t.after (.advance client)).Records names ∧
      Next t client none t.world.HasDatabase (t.after (.advance client)) := by
  have hexec := Session.exec_refuseTaken (p := t.world.view client) records.memory name
  have hlive : ((t.world.view client).1.engine.live.get? .data name).isSome = true := taken
  rw [if_pos hlive] at hexec
  rw [after_advance reached, Stage.next, perform_of_error hexec]
  exact ⟨records, next_put (fun _ => rfl) _⟩

theorem advance_checked (records : t.Records names)
    (reached : t.stage client = some (.checked name)) :
    (t.after (.advance client)).Records names ∧
      Next t client none (fun n => n = name ∨ t.world.HasDatabase n)
        (t.after (.advance client)) := by
  have hexec := Session.exec_enter (p := t.world.view client) records.memory name
  rw [after_advance reached, Stage.next, perform_of_ok hexec]
  refine ⟨records.registered name _, fun n => ?_, rfl⟩
  change ((t.world.engine.registered .data name _).live.get? .data n).isSome ↔ _
  rw [Engine.live_registered]
  by_cases hn : name = n
  · simp [hn]
  · rw [if_neg fun h => hn h.2, or_iff_right (Ne.symm hn)]
    rfl

theorem advance_delisted (records : t.Records names)
    (reached : t.stage client = some (.delisted name)) :
    (t.after (.advance client)).Records names ∧
      Next t client none (fun n => n ≠ name ∧ t.world.HasDatabase n)
        (t.after (.advance client)) := by
  obtain ⟨s, hexec⟩ := Session.exec_withdraw_snd (p := t.world.view client) records.memory name
  rw [after_advance reached, Stage.next, perform_last, hexec]
  refine ⟨records.forgotten name, fun n => ?_, rfl⟩
  change ((t.world.engine.forgotten .data name).live.get? .data n).isSome ↔ _
  rw [Engine.live_forgotten]
  by_cases hn : name = n
  · simp [hn]
  · rw [if_neg fun h => hn h.2, and_iff_right (Ne.symm hn)]
    rfl

/-- A statement that goes on leaves the catalog as it is. -/
theorem effect_advance (records : t.Records names) (client : Nat) :
    (t.after (.advance client)).Records names ∧
      Effect t names (.advance client) (t.after (.advance client)) names := by
  cases hstage : t.stage client with
  | none =>
    rw [after_advance_of_idle hstage]
    exact ⟨records, .ignore hstage⟩
  | some stage =>
    cases stage with
    | enlisted name =>
      by_cases free : t.world.HasDatabase name
      · exact (advance_enlisted_of_taken records hstage free).imp_right (.refuse hstage free)
      · exact (advance_enlisted_of_free records hstage free).imp_right (.check hstage free)
    | checked name => exact (advance_checked records hstage).imp_right (.enter hstage)
    | delisted name => exact (advance_delisted records hstage).imp_right (.withdraw hstage)

/-- **What a move does**, without a data directory and on a name that is not numeric. -/
theorem exists_effect (records : t.Records names) {move : Move} (plain : move.NonNumeric) :
    ∃ names', (t.after move).Records names' ∧ Effect t names move (t.after move) names' := by
  cases move with
  | begin client change =>
    by_cases idle : t.stage client = none
    · cases change with
      | create name => exact effect_create records plain idle
      | drop name => exact effect_drop records plain idle
    · have hnone : t.after (.begin client change) = t := if_neg idle
      rw [hnone]
      exact ⟨names, records, .ignore idle⟩
  | advance client => exact ⟨names, effect_advance records client⟩

end Traffic

end Tabular
