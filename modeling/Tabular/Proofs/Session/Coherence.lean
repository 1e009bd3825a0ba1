import Tabular.Proofs.Session.Dropped
import Tabular.Proofs.Session.Namespace
import Tabular.Proofs.Session.Refused

/-!
Clients that have the same database selected.

A handle leads to the database that its name had when the client selected it. As long as the
database is not dropped, whoever selects the name has the same one, and sees what the others do to
it. A client that has a dropped database selected goes on with it, while those who select the name
after it was created again have another database under the same name. Main statement: over an engine
without a data directory, two clients with the same name selected go on seeing the same exactly if
that name was dropped equally often since each of them selected it (`World.seeSame_iff_dropsSince`).
-/

namespace Tabular

/-! ### Questions and answers -/

/-- The questions about a selected database of a name. -/
inductive Statement.Asks (name : String) : Statement → Prop where
  | rows (search : Search) : Asks name (.find search)
  | table (table : Option String) : Asks name (.describe .table table)
  | database : Asks name (.describe .database (some name))

/-- Outcomes that are the same but for the time at which a database was created. -/
def Outcome.SameButTime : Outcome → Outcome → Prop
  | .database d, .database d' => d.database = d'.database ∧ d.tables = d'.tables
  | outcome, outcome' => outcome = outcome'

theorem Outcome.SameButTime.refl (outcome : Outcome) : outcome.SameButTime outcome := by
  cases outcome <;> simp [SameButTime]

/-- Answers that are the same but for the times in their outcomes. -/
def SameAnswer : Except Error Outcome → Except Error Outcome → Prop
  | .ok outcome, .ok outcome' => outcome.SameButTime outcome'
  | answer, answer' => answer = answer'

namespace SameAnswer

variable {answer answer' : Except Error Outcome}

theorem refl (answer : Except Error Outcome) : SameAnswer answer answer := by
  cases answer with
  | error err => rfl
  | ok outcome => exact Outcome.SameButTime.refl outcome

theorem isOk_eq (same : SameAnswer answer answer') : answer.isOk = answer'.isOk := by
  unfold SameAnswer at same
  split at same
  · rfl
  · rw [same]

end SameAnswer

/-! ### Sessions without a data directory -/

namespace Session

variable {e : Engine} {p p' : Interpreter × Session} {name : String}

/-- The names of the users' databases lead where they did, and the selection is the same. -/
structure KeepsNames (p p' : Interpreter × Session) : Prop where
  names : ∀ n, p'.1.engine.live.get? .data n = p.1.engine.live.get? .data n
  session : p'.2 = p.2

theorem KeepsNames.refl (p : Interpreter × Session) : KeepsNames p p := ⟨fun _ => rfl, rfl⟩

theorem CatalogOnly.keepsNames (only : CatalogOnly p p') : KeepsNames p p' :=
  ⟨only.alone.spares.live, only.session⟩

theorem exec_select_in_memory (memory : p.1.engine.dataDir = none) (name : String) :
    exec (select name) p = match p.1.engine.live.get? .data name with
      | none => (.error (.unknownDatabase name), p)
      | some cell => (.ok (.message ("Using database: " ++ name)),
          (p.1, { active := some { scope := .data, name, cell } })) := by
  rw [exec_select, exec_saveActive_in_memory memory]
  dsimp only
  rw [exec_storage, Engine.exec_open_in_memory memory]
  cases p.1.engine.live.get? .data name <;> rfl

/-- A creation is refused, or the name leads to a new cell from then on. -/
theorem createDatabase_in_memory (sees : Sees e p) (memory : p.1.engine.dataDir = none)
    (name : String) :
    (∃ err p', exec (createDatabase name) p = (.error err, p') ∧ KeepsNames p p') ∨
      ∃ outcome p' c, exec (createDatabase name) p = (.ok outcome, p') ∧
        p.1.engine.live.get? .data name = none ∧ p.1.engine.states.length ≤ c ∧
        (∀ n, p'.1.engine.live.get? .data n =
          if name = n then some c else p.1.engine.live.get? .data n) ∧ p'.2 = p.2 := by
  rw [exec_createDatabase_of_enlist]
  rcases henlist : exec (enlist name) p with ⟨err | outcome, p₁⟩ <;>
    have only := catalogOnly_amend sees henlist
  · exact .inl ⟨err, p₁, rfl, only.keepsNames⟩
  · have memory₁ : p₁.1.engine.dataDir = none :=
      only.alone.keeps.evolves.dataDir.trans memory
    dsimp only
    rw [exec_storage]
    cases hlive : p₁.1.engine.live.get? .data name with
    | some c =>
      have hload : exec (Engine.createDatabase .data name) p₁.1.engine =
          (.error (.databaseExists name), p₁.1.engine) := by
        rw [Engine.exec_createDatabase, Engine.exec_load_of_live hlive]
      rw [hload]
      exact .inl ⟨_, _, rfl, only.keepsNames⟩
    | none =>
      rw [Engine.exec_createDatabase_in_memory memory₁ hlive]
      refine .inr ⟨_, _, p₁.1.engine.states.length, rfl,
        (only.alone.spares.live name).symm.trans hlive, only.alone.keeps.evolves.length_le,
        fun n => ?_, only.session⟩
      refine (Engine.live_registered p₁.1.engine .data name _ .data n).trans ?_
      rw [only.alone.spares.live n]
      simp

/-- A drop is refused, or the name leads nowhere from then on. -/
theorem dropDatabase_in_memory [PatternCompiler] (sees : Sees e p)
    (memory : p.1.engine.dataDir = none)
    (name : String) :
    (∃ err p', exec (dropDatabase name) p = (.error err, p') ∧ KeepsNames p p') ∨
      ∃ outcome p', exec (dropDatabase name) p = (.ok outcome, p') ∧
        (∀ n, p'.1.engine.live.get? .data n =
          if name = n then none else p.1.engine.live.get? .data n) ∧
        p'.2 = if p.2.activeName = some name then { active := none } else p.2 := by
  rw [exec_dropDatabase_of_delist]
  rcases hdelist : exec (delist name) p with ⟨err | outcome, p₁⟩ <;>
    have only := catalogOnly_amend sees hdelist
  · exact .inl ⟨err, p₁, rfl, only.keepsNames⟩
  · have memory₁ : p₁.1.engine.dataDir = none :=
      only.alone.keeps.evolves.dataDir.trans memory
    have hnames : ∀ n, (p₁.1.engine.forgotten .data name).live.get? .data n =
        if name = n then none else p.1.engine.live.get? .data n := by
      intro n
      rw [Engine.live_forgotten, only.alone.spares.live n]
      simp
    dsimp only
    rw [exec_storage, Engine.exec_dropDatabase_in_memory memory₁]
    cases hlive : p₁.1.engine.live.get? .data name with
    | none =>
      refine .inl ⟨_, _, rfl, fun n => ?_, only.session⟩
      refine (hnames n).trans ?_
      split
      · next hname => rw [← hname, ← only.alone.spares.live name, hlive]
      · rfl
    | some c =>
      simp only [reduceCtorEq, if_false]
      have hsession : p₁.2 = p.2 := only.session
      refine .inr ⟨_, _, rfl, fun n => ?_, ?_⟩
      · split <;> exact hnames n
      · rw [hsession]
        split <;> rfl

/-- Saving opens the catalog, and nothing else. -/
theorem keepsNames_save (sees : Sees e p) (memory : p.1.engine.dataDir = none) :
    KeepsNames p (exec save p).2 := by
  have only := catalogOnly_catalog sees
  rw [exec_save, exec_saveActive_in_memory memory]
  dsimp only
  rcases hcatalog : exec catalog p with ⟨err | c, p₁⟩ <;> rw [hcatalog] at only
  · exact only.keepsNames
  · have memory₁ : p₁.1.engine.dataDir = none := only.alone.keeps.evolves.dataDir.trans memory
    dsimp only
    rw [exec_storage, Engine.exec_save_in_memory memory₁]
    exact only.keepsNames

/-- A statement that neither selects nor creates nor drops a database keeps the names. -/
theorem keepsNames_of_performs [PatternCompiler] (sees : Sees e p)
    (memory : p.1.engine.dataDir = none)
    {st : Statement} {act : SessionM Outcome} (performs : Performs p st act)
    (init : ∀ n, st ≠ .init n) (create : ∀ n, st ≠ .create .database n none)
    (drop : ∀ n, st ≠ .drop .database (some n)) : KeepsNames p (exec act p).2 := by
  cases performs with
  | select m => exact absurd rfl (init m)
  | create m => exact absurd rfl (create m)
  | drop m => exact absurd rfl (drop m)
  | refuse err => exact .refl p
  | list pattern =>
    have only := catalogOnly_catalog sees
    rw [exec_listDatabases]
    rcases hcatalog : exec catalog p with ⟨err | c, p₁⟩ <;> rw [hcatalog] at only
    · exact only.keepsNames
    · dsimp only
      rw [exec_storage_snd]
      unfold Engine.find
      rw [Engine.exec_query]
      exact only.keepsNames
  | describe m =>
    rw [exec_storage_snd, Engine.exec_describeDatabase_snd_in_memory memory]
    exact .refl p
  | query active f =>
    rw [exec_storage_snd, Engine.exec_query]
    exact .refl p
  | @edit _ h active f =>
    rw [exec_storage_snd, Engine.exec_edit]
    rcases f (p.1.engine.databaseOf h) with err | ⟨outcome, db⟩
    · exact .refl p
    · exact ⟨fun _ => rfl, rfl⟩

end Session

/-! ### What a step does to names and selections -/

namespace World

variable {w w' : World} {client i j : Nat} {name n text : String} {step : Step} {h : Handle}

/-- A statement that selects a database. -/
def Init (step : Step) : Prop := ∃ name, step.statement? = some (.init name)

/-- What a step does, in memory, to the names of the users' databases and to the selections of the
clients. -/
inductive Effect [PatternCompiler] (w : World) (step : Step) (w' : World) : Prop where
  | keeps (names : ∀ n, w'.engine.live.get? .data n = w.engine.live.get? .data n)
      (session : w'.session = w.session)
      (quiet : w.error? step = none → ¬Init step ∧ ∀ n, ¬Drops n w step)
  | selects {client : Nat} {name : String} {c : Nat} (hclient : step.client? = some client)
      (hstep : step.statement? = some (.init name)) (ok : w.error? step = none)
      (live : w.engine.live.get? .data name = some c)
      (names : ∀ n, w'.engine.live.get? .data n = w.engine.live.get? .data n)
      (session : ∀ i, w'.session i =
        if i = client then { active := some { scope := .data, name, cell := c } }
        else w.session i)
  | creates {name : String} (hstep : step.statement? = some (.create .database name none))
      (new : w.engine.live.get? .data name = none) {c : Nat} (fresh : w.engine.states.length ≤ c)
      (names : ∀ n, w'.engine.live.get? .data n =
        if name = n then some c else w.engine.live.get? .data n)
      (session : w'.session = w.session)
  | drops {client : Nat} {name : String} (hclient : step.client? = some client)
      (drops : Drops name w step)
      (names : ∀ n, w'.engine.live.get? .data n =
        if name = n then none else w.engine.live.get? .data n)
      (session : ∀ i, w'.session i =
        if i = client ∧ (w.session i).activeName = some name then { active := none }
        else w.session i)
  | restarts (session : ∀ i, (w'.session i).active = none)

/-- A step after which a client finds the names and its selection as they were. -/
theorem effect_of_keepsNames [PatternCompiler] {p : Interpreter × Session}
    (keeps : Session.KeepsNames (w.view client) p)
    (quiet : w.error? step = none → ¬Init step ∧ ∀ n, ¬Drops n w step) :
    w.Effect step (w.withView client p) := by
  refine .keeps keeps.names (funext fun i => ?_) quiet
  rw [session_withView, keeps.session]
  split
  · next h => rw [h]; rfl
  · rfl

section statements

variable {st : Statement} {p : Interpreter × Session}

variable [PatternCompiler]

theorem after_of_exec (hparse : Statement.parse text = .ok st) {answer : Except Error Outcome}
    (hexec : exec (Session.dispatch st) (w.view client) = (answer, p)) :
    w.after (.statement client text) = w.withView client p := by
  rw [after, afterAct, exec_execute hparse, hexec]

theorem error?_of_ok (hparse : Statement.parse text = .ok st) {outcome : Outcome}
    (hexec : exec (Session.dispatch st) (w.view client) = (.ok outcome, p)) :
    w.error? (.statement client text) = none := by
  rw [error?_eq_none_iff, exec_execute hparse, hexec]
  rfl

theorem error?_of_error (hparse : Statement.parse text = .ok st) {err : Error}
    (hexec : exec (Session.dispatch st) (w.view client) = (.error err, p)) :
    w.error? (.statement client text) = some err := by
  rw [error?_eq_some_iff, exec_execute hparse, hexec]

/-- A statement that is refused and keeps the names. -/
theorem effect_of_refused (hparse : Statement.parse text = .ok st) {err : Error}
    (hexec : exec (Session.dispatch st) (w.view client) = (.error err, p))
    (keeps : Session.KeepsNames (w.view client) p) :
    w.Effect (.statement client text) (w.after (.statement client text)) := by
  rw [after_of_exec hparse hexec]
  refine effect_of_keepsNames keeps fun ok => ?_
  rw [error?_of_error hparse hexec] at ok
  cases ok

theorem effect_of_init (memory : w.engine.dataDir = none)
    (hparse : Statement.parse text = .ok (.init n)) :
    w.Effect (.statement client text) (w.after (.statement client text)) := by
  have hexec : exec (Session.dispatch (.init n)) (w.view client) = _ :=
    Session.exec_select_in_memory (p := w.view client) memory n
  cases hlive : w.engine.live.get? .data n with
  | none =>
    rw [show (w.view client).1.engine.live.get? .data n = none from hlive] at hexec
    exact effect_of_refused hparse hexec (.refl _)
  | some c =>
    rw [show (w.view client).1.engine.live.get? .data n = some c from hlive] at hexec
    rw [after_of_exec hparse hexec]
    exact .selects rfl (Step.statement?_of_parse hparse) (error?_of_ok hparse hexec) hlive
      (fun _ => rfl) (session_withView w client _)

theorem effect_of_create (sound : w.Sound) (memory : w.engine.dataDir = none)
    (hparse : Statement.parse text = .ok (.create .database n none)) :
    w.Effect (.statement client text) (w.after (.statement client text)) := by
  obtain ⟨err, p, hexec, keeps⟩ | ⟨outcome, p, c, hexec, new, fresh, names, session⟩ :=
    Session.createDatabase_in_memory (sound.sees client) memory n
  · exact effect_of_refused hparse hexec keeps
  · rw [after_of_exec hparse hexec]
    refine .creates (Step.statement?_of_parse hparse) new fresh names (funext fun i => ?_)
    rw [session_withView, session]
    split
    · next h => rw [h]; rfl
    · rfl

theorem effect_of_drop (sound : w.Sound) (memory : w.engine.dataDir = none)
    (hparse : Statement.parse text = .ok (.drop .database (some n))) :
    w.Effect (.statement client text) (w.after (.statement client text)) := by
  obtain ⟨err, p, hexec, keeps⟩ | ⟨outcome, p, hexec, names, session⟩ :=
    Session.dropDatabase_in_memory (sound.sees client) memory n
  · exact effect_of_refused hparse hexec keeps
  · have drops : Drops n w (.statement client text) :=
      ⟨Step.statement?_of_parse hparse, error?_of_ok hparse hexec⟩
    rw [after_of_exec hparse hexec]
    refine .drops rfl drops names fun i => ?_
    rw [session_withView, session]
    by_cases hi : i = client
    · subst hi
      by_cases hactive : (w.session i).activeName = some n <;> simp [view, hactive]
    · simp [hi]

end statements

section

variable [PatternCompiler]

/-- **What a step does**, in memory: it is one of the effects. -/
theorem effect_after (sound : w.Sound) (memory : w.engine.dataDir = none) (step : Step) :
    w.Effect step (w.after step) := by
  cases step with
  | restart clock => exact .restarts fun _ => rfl
  | save client =>
    refine effect_of_keepsNames (Session.keepsNames_save (sound.sees client) memory) fun _ => ?_
    simp [Init, Drops, Step.statement?]
  | statement client text =>
    cases hparse : Statement.parse text with
    | error cause =>
      rw [after, afterAct, exec_execute_of_error hparse]
      refine effect_of_keepsNames (.refl _) fun _ => ?_
      simp [Init, Drops, Step.statement?, hparse, Except.toOption]
    | ok st =>
      by_cases hinit : ∃ n, st = .init n
      · obtain ⟨n, rfl⟩ := hinit
        exact effect_of_init memory hparse
      by_cases hcreate : ∃ n, st = .create .database n none
      · obtain ⟨n, rfl⟩ := hcreate
        exact effect_of_create sound memory hparse
      by_cases hdrop : ∃ n, st = .drop .database (some n)
      · obtain ⟨n, rfl⟩ := hdrop
        exact effect_of_drop sound memory hparse
      have hst : (Step.statement client text).statement? = some st :=
        Step.statement?_of_parse hparse
      obtain ⟨act, performs, hexec⟩ := Session.exists_performs st (w.view client)
      rw [after, afterAct, exec_execute hparse, hexec]
      refine effect_of_keepsNames (Session.keepsNames_of_performs (sound.sees client)
        memory performs (fun n h => hinit ⟨n, h⟩) (fun n h => hcreate ⟨n, h⟩)
          fun n h => hdrop ⟨n, h⟩) fun _ => ⟨?_, ?_⟩
      · rintro ⟨n, hn⟩
        exact hinit ⟨n, Option.some.inj (hst.symm.trans hn)⟩
      · rintro n ⟨hn, -⟩
        exact hdrop ⟨n, Option.some.inj (hst.symm.trans hn)⟩

/-! ### Counting drops -/

/-- The number of drops, counted since a client's last selection, after one more step: selecting
starts anew, and a drop of the name that the client has selected is one more. -/
def dropsAfter (client : Nat) (w : World) (step : Step) (drops : Nat) : Nat :=
  match w.error? step, step.statement? with
  | none, some (.init _) => if step.client? = some client then 0 else drops
  | none, some (.drop .database (some name)) =>
    if (w.session client).activeName = some name then drops + 1 else drops
  | _, _ => drops

/-- How often, at the end of a run, the name that a client has selected was dropped since the client
selected it, if it was `drops` times at the start. -/
def dropsSince (client : Nat) : Nat → World → List Step → Nat
  | drops, _, [] => drops
  | drops, w, step :: steps =>
    dropsSince client (w.dropsAfter client step drops) (w.after step) steps

theorem dropsAfter_of_init (hstep : step.statement? = some (.init name))
    (ok : w.error? step = none) (drops : Nat) :
    w.dropsAfter i step drops = if step.client? = some i then 0 else drops := by
  rw [dropsAfter, hstep, ok]

theorem dropsAfter_of_drops (hdrops : Drops name w step) (drops : Nat) :
    w.dropsAfter i step drops =
      if (w.session i).activeName = some name then drops + 1 else drops := by
  rw [dropsAfter, hdrops.1, hdrops.2]

/-- Only selecting and dropping change the number. -/
theorem dropsAfter_of_quiet (quiet : w.error? step = none → ¬Init step ∧ ∀ n, ¬Drops n w step)
    (drops : Nat) : w.dropsAfter i step drops = drops := by
  unfold dropsAfter
  split
  · next ok hstep => exact absurd ⟨_, hstep⟩ (quiet ok).1
  · next ok hstep => exact absurd ⟨hstep, ok⟩ ((quiet ok).2 _)
  · rfl

theorem dropsAfter_of_create (hstep : step.statement? = some (.create .database name none))
    (drops : Nat) : w.dropsAfter i step drops = drops :=
  dropsAfter_of_quiet (fun _ => ⟨fun ⟨_, h⟩ => by simp [hstep] at h,
    fun _ ⟨h, _⟩ => by simp [hstep] at h⟩) drops

end

/-- The numbers of drops tell which databases the clients have selected: the one to which the name
leads where there were none, and the same one where there were equally many. -/
structure Counted (w : World) (drops : Nat → Nat) : Prop where
  current : ∀ i h, (w.session i).active = some h →
    (drops i = 0 ↔ w.engine.live.get? .data h.name = some h.cell)
  alike : ∀ i j h h', (w.session i).active = some h → (w.session j).active = some h' →
    h.name = h'.name → (drops i = drops j ↔ h.cell = h'.cell)

section

variable {drops : Nat → Nat} (counted : w.Counted drops)

include counted

theorem Counted.selected {c : Nat} (live : w.engine.live.get? .data name = some c)
    (names : ∀ n, w'.engine.live.get? .data n = w.engine.live.get? .data n)
    (session : ∀ i, w'.session i =
      if i = client then { active := some { scope := .data, name, cell := c } }
      else w.session i) :
    w'.Counted fun i => if i = client then 0 else drops i := by
  have zero_iff : ∀ j h', (w.session j).active = some h' → h'.name = name →
      (drops j = 0 ↔ c = h'.cell) := by
    intro j h' active' hname
    rw [counted.current j h' active', hname, live, Option.some_inj]
  refine ⟨fun i h active => ?_, fun i j h h' active active' hname => ?_⟩
  · rw [session] at active
    rw [names]
    split at active
    · next hi =>
      obtain rfl := Option.some.inj active
      simp [hi, live]
    · next hi =>
      rw [if_neg hi]
      exact counted.current i h active
  · rw [session] at active active'
    split at active <;> split at active'
    · next hi hj =>
      obtain rfl := Option.some.inj active
      obtain rfl := Option.some.inj active'
      simp [hi, hj]
    · next hi hj =>
      obtain rfl := Option.some.inj active
      rw [if_pos hi, if_neg hj, eq_comm]
      exact zero_iff j h' active' hname.symm
    · next hi hj =>
      obtain rfl := Option.some.inj active'
      rw [if_neg hi, if_pos hj, eq_comm (a := h.cell)]
      exact zero_iff i h active hname
    · next hi hj =>
      rw [if_neg hi, if_neg hj]
      exact counted.alike i j h h' active active' hname

theorem Counted.created {c : Nat} (sound : w.Sound)
    (new : w.engine.live.get? .data name = none) (fresh : w.engine.states.length ≤ c)
    (names : ∀ n, w'.engine.live.get? .data n =
      if name = n then some c else w.engine.live.get? .data n)
    (session : w'.session = w.session) : w'.Counted drops := by
  refine ⟨fun i h active => ?_, fun i j h h' active active' => ?_⟩
  · rw [session] at active
    rw [names, counted.current i h active]
    split
    · next hname =>
      -- the name led nowhere, and leads to a cell that no handle has
      rw [← hname, new]
      have hlt := (sound.session i h active).1.cell_lt
      simp only [reduceCtorEq, Option.some.injEq, false_iff]
      omega
    · rfl
  · exact counted.alike i j h h' (session ▸ active) (session ▸ active')

theorem Counted.dropped
    (names : ∀ n, w'.engine.live.get? .data n =
      if name = n then none else w.engine.live.get? .data n)
    (session : ∀ i h, (w'.session i).active = some h → (w.session i).active = some h) :
    w'.Counted fun i =>
      if (w.session i).activeName = some name then drops i + 1 else drops i := by
  have name_iff : ∀ i h, (w.session i).active = some h →
      ((w.session i).activeName = some name ↔ h.name = name) := by
    intro i h active
    simp [Session.activeName, active]
  refine ⟨fun i h active => ?_, fun i j h h' active active' hname => ?_⟩
  · have active := session i h active
    simp only [name_iff i h active, names]
    by_cases hname : h.name = name
    · simp [hname]
    · rw [if_neg hname, if_neg (Ne.symm hname)]
      exact counted.current i h active
  · have active := session i h active
    have active' := session j h' active'
    simp only [name_iff i h active, name_iff j h' active', ← hname]
    rw [← counted.alike i j h h' active active' hname]
    split <;> simp

/-- **A step keeps count**: whatever it does to the names and the selections, the numbers of drops
after it go on telling which databases are selected. -/
theorem Counted.of_effect [PatternCompiler] (sound : w.Sound) (effect : w.Effect step w') :
    w'.Counted fun i => w.dropsAfter i step (drops i) := by
  cases effect with
  | keeps names session quiet =>
    simp only [dropsAfter_of_quiet quiet]
    refine ⟨fun i h active => ?_, fun i j h h' active active' => ?_⟩
    · rw [names]
      exact counted.current i h (session ▸ active)
    · exact counted.alike i j h h' (session ▸ active) (session ▸ active')
  | @selects client name c hclient hstep ok live names session =>
    simp only [dropsAfter_of_init hstep ok, hclient, Option.some_inj, eq_comm (a := client)]
    exact counted.selected live names session
  | @creates name hstep new c fresh names session =>
    simp only [dropsAfter_of_create hstep]
    exact counted.created sound new fresh names session
  | @drops client name hclient hdrops names session =>
    simp only [dropsAfter_of_drops hdrops]
    refine counted.dropped names fun i h active => ?_
    rw [session] at active
    split at active
    · simp at active
    · exact active
  | restarts session =>
    exact ⟨fun i h active => by simp [session] at active,
      fun i j h h' active => by simp [session] at active⟩

end

section

variable [PatternCompiler]

theorem dataDir_after (sound : w.Sound) (step : Step) :
    (w.after step).engine.dataDir = w.engine.dataDir := by
  cases step with
  | statement client text =>
    exact (Ensures.always_iff.1 (Session.sees_execute text) _ (sound.sees client)).keeps.evolves
      |>.dataDir
  | save client =>
    exact (Ensures.always_iff.1 Session.sees_save _ (sound.sees client)).keeps.evolves.dataDir
  | restart clock => rfl

/-- **A run keeps count.** -/
theorem Counted.run (sound : w.Sound) (memory : w.engine.dataDir = none) {drops : Nat → Nat}
    (counted : w.Counted drops) (steps : List Step) :
    (w.run steps).Counted fun i => dropsSince i (drops i) w steps := by
  induction steps generalizing w drops with
  | nil => exact counted
  | cons step steps ih =>
    exact ih (sound.after step) ((dataDir_after sound step).trans memory)
      (counted.of_effect sound (effect_after sound memory step))

omit [PatternCompiler] in
theorem start_counted (e : Engine) : (start e).Counted fun _ => 0 :=
  ⟨fun i h active => by simp [start, Session.new] at active,
    fun i j h h' active => by simp [start, Session.new] at active⟩

/-! ### What clients see -/

/-- Two clients are told the same about the selected database. -/
def Agree (w : World) (i j : Nat) (name : String) : Prop :=
  ∀ text st, Statement.parse text = .ok st → st.Asks name →
    SameAnswer (w.answer i (Session.execute text)) (w.answer j (Session.execute text))

/-- Two clients are told the same about the selected database, whatever happens as long as they keep
their selections. -/
def SeeSame (w : World) (i j : Nat) (name : String) : Prop :=
  ∀ steps, (w.run steps).session i = w.session i → (w.run steps).session j = w.session j →
    (w.run steps).Agree i j name

/-- Clients with the same selection are told the same. -/
theorem agree_of_session (hsession : w.session i = w.session j) : w.Agree i j name := by
  intro text st _ _
  have hview : w.view i = w.view j := congrArg (w.interpreter, ·) hsession
  rw [answer, answer, hview]
  exact .refl _

theorem seeSame_of_session (hsession : w.session i = w.session j) : w.SeeSame i j name :=
  fun _ hi hj => agree_of_session (hi.trans (hsession.trans hj.symm))

/-- The world in which the database of a cell is another one. -/
def withState (w : World) (cell : Nat) (db : Database) : World :=
  { w with interpreter := { w.interpreter with engine := w.engine.setState cell db } }

theorem after_of_edit {st : Statement} (hparse : Statement.parse text = .ok st)
    {f : Database → Except StorageError (Outcome × Database)}
    (hexec : exec (Session.dispatch st) (w.view client) =
      exec (Session.storage (Engine.edit h f)) (w.view client))
    {a : Outcome} {db : Database} (hf : f (w.engine.databaseOf h) = .ok (a, db)) :
    w.after (.statement client text) = w.withState h.cell db := by
  have hedit : exec (Engine.edit h f) w.engine = (.ok a, w.engine.setState h.cell db) := by
    rw [Engine.exec_edit, hf]
  have hview : (exec (Session.storage (Engine.edit h f)) (w.view client)).2 =
      ({ w.interpreter with engine := w.engine.setState h.cell db }, w.session client) := by
    rw [Session.exec_storage_snd]
    change ({ w.interpreter with engine := (exec (Engine.edit h f) w.engine).2 }, _) = _
    rw [hedit]
    rfl
  rw [after, afterAct, exec_execute hparse, hexec, hview]
  refine congrArg (World.mk _) (funext fun c => ?_)
  split
  · next hc => rw [hc]
  · rfl

omit [PatternCompiler] in
theorem requireActive_of_active (hactive : (w.session client).active = some h) :
    exec Session.requireActive (w.view client) = (.ok h, w.view client) := by
  rw [Session.exec_requireActive, show (w.view client).2.active = some h from hactive]

theorem after_createTable {parameters : String} {spec : TableSpec}
    (hparse : Statement.parse text = .ok (.create .table n (some parameters)))
    (hactive : (w.session client).active = some h)
    (hspec : TableSpec.ofParameters n parameters = .ok spec)
    (new : (w.engine.databaseOf h).tables.get? spec.name = none) :
    w.after (.statement client text) = w.withState h.cell
      ((w.engine.databaseOf h).setTable spec.name (Table.ofSpec spec)) := by
  have hexec : exec (Session.dispatch (.create .table n (some parameters))) (w.view client) =
      exec (Session.storage (Engine.createTable h spec)) (w.view client) := by
    change exec (Session.requireActive >>= fun db => _) _ = _
    rw [exec_bind, requireActive_of_active hactive]
    dsimp only
    rw [exec_bind, Session.exec_requirePart_some]
    dsimp only
    rw [hspec, exec_bind, Session.exec_require_ok]
  refine after_of_edit (a := .message ("Table " ++ spec.name ++ " created.")) hparse hexec ?_
  simp only [Database.createTable, new]
  rfl

theorem after_dropTable {t : Table} (hparse : Statement.parse text = .ok (.drop .table (some n)))
    (hactive : (w.session client).active = some h)
    (htable : (w.engine.databaseOf h).tables.get? n = some t) :
    w.after (.statement client text) = w.withState h.cell
      { w.engine.databaseOf h with tables := (w.engine.databaseOf h).tables.erase n } := by
  have hexec : exec (Session.dispatch (.drop .table (some n))) (w.view client) =
      exec (Session.storage (Engine.dropTable h n)) (w.view client) := by
    change exec (Session.requireActive >>= fun db => _) _ = _
    rw [exec_bind, requireActive_of_active hactive]
    dsimp only
    rw [exec_bind, Session.exec_requirePart_some]
  refine after_of_edit (a := .message ("Table " ++ n ++ " dropped.")) hparse hexec ?_
  simp only [Database.dropTable, htable]
  rfl

/-- A statement by which a client gives its selected database the table `t`, or takes it away. -/
theorem exists_toggle (hactive : (w.session client).active = some h) :
    ∃ text db, w.after (.statement client text) = w.withState h.cell db ∧
      (db.tables.get? "t").isSome = !((w.engine.databaseOf h).tables.get? "t").isSome := by
  cases htable : (w.engine.databaseOf h).tables.get? "t" with
  | none =>
    have hparse : Statement.parse "CREATE TABLE t (x)" =
        .ok (.create .table "t" (some "x")) := by decide +kernel
    have hspec : TableSpec.ofParameters "t" "x" =
        .ok { name := "t", primaryKey := none, columns := ["x"] } := by decide +kernel
    refine ⟨_, _, after_createTable hparse hactive hspec htable, ?_⟩
    simp [Database.setTable]
  | some t =>
    have hparse : Statement.parse "DROP TABLE t" = .ok (.drop .table (some "t")) := by
      decide +kernel
    refine ⟨_, _, after_dropTable hparse hactive htable, ?_⟩
    simp

omit [PatternCompiler] in
theorem parse_describe :
    Statement.parse "DESCRIBE TABLE t" = .ok (.describe .table (some "t")) := by
  decide +kernel

/-- A description of the table `t` tells whether it is there. -/
theorem isOk_describe (hactive : (w.session client).active = some h) :
    (w.answer client (Session.execute "DESCRIBE TABLE t")).isOk =
      ((w.engine.databaseOf h).tables.get? "t").isSome := by
  have hexec : exec (Session.dispatch (.describe .table (some "t"))) (w.view client) =
      exec (Session.storage (Engine.describeTable h "t")) (w.view client) := by
    change exec (Session.requirePart .described (some "t") >>= fun name => _) _ = _
    rw [exec_bind, Session.exec_requirePart_some]
    dsimp only
    rw [exec_bind, requireActive_of_active hactive]
  have hquery : exec (Engine.describeTable h "t") (w.view client).1.engine =
      ((do return .table (← (w.engine.databaseOf h).describeTable "t")), w.engine) :=
    Engine.exec_query h _ w.engine
  unfold answer
  rw [exec_execute parse_describe, hexec, Session.exec_storage, hquery]
  unfold Database.describeTable Database.table
  cases (w.engine.databaseOf h).tables.get? "t" <;> rfl

/-- Where one of two clients has the table `t` and the other one has not, they are told so. -/
theorem not_agree_of_describe {h' : Handle} (hi : (w.session i).active = some h)
    (hj : (w.session j).active = some h')
    (hne : ((w.engine.databaseOf h).tables.get? "t").isSome ≠
      ((w.engine.databaseOf h').tables.get? "t").isSome) : ¬w.Agree i j name := by
  intro agree
  have same := agree "DESCRIBE TABLE t" _ parse_describe (.table _)
  exact hne ((isOk_describe hi).symm.trans (same.isOk_eq.trans (isOk_describe hj)))

/-- Clients with different databases come to be told different things. -/
theorem not_seeSame_of_cell {h' : Handle} (sound : w.Sound)
    (hi : (w.session i).active = some h) (hj : (w.session j).active = some h')
    (hne : h.cell ≠ h'.cell) : ¬w.SeeSame i j name := by
  intro same
  by_cases hdescribe : ((w.engine.databaseOf h).tables.get? "t").isSome =
      ((w.engine.databaseOf h').tables.get? "t").isSome
  · obtain ⟨text, db, hafter, htoggle⟩ := exists_toggle hi
    have hrun : w.run [.statement i text] = w.withState h.cell db := hafter
    have agree := same [.statement i text] (by rw [hrun]; rfl) (by rw [hrun]; rfl)
    rw [hrun] at agree
    have hstate : (w.withState h.cell db).engine.databaseOf h = db :=
      (Engine.state_setState w.engine h.cell db h.cell).trans
        (if_pos ⟨rfl, (sound.session i h hi).1.cell_lt⟩)
    have hstate' : (w.withState h.cell db).engine.databaseOf h' = w.engine.databaseOf h' :=
      (Engine.state_setState w.engine h.cell db h'.cell).trans (if_neg fun h => hne h.1)
    refine not_agree_of_describe (w := w.withState h.cell db) hi hj ?_ agree
    rw [hstate, hstate', htoggle, hdescribe]
    cases (w.engine.databaseOf h').tables.get? "t" <;> simp
  · exact not_agree_of_describe hi hj hdescribe (same [] rfl rfl)

/-- **Two clients with the same name selected go on seeing the same** exactly if that name was
dropped equally often since each of them selected it. -/
theorem seeSame_iff_dropsSince {folder : Folder} {clock : Timestamp} {steps : List Step}
    (hstart : w = start (Engine.new none folder clock))
    (hi : ((w.run steps).session i).activeName = some n)
    (hj : ((w.run steps).session j).activeName = some n) :
    (w.run steps).SeeSame i j n ↔ dropsSince i 0 w steps = dropsSince j 0 w steps := by
  have sound : w.Sound := hstart ▸ start_sound none folder clock
  have memory : w.engine.dataDir = none := by rw [hstart]; rfl
  have counted := (hstart ▸ start_counted _ : w.Counted fun _ => 0).run sound memory steps
  obtain ⟨h, active, hname⟩ := Option.map_eq_some_iff.1 hi
  obtain ⟨h', active', hname'⟩ := Option.map_eq_some_iff.1 hj
  have alike := counted.alike i j h h' active active' (hname.trans hname'.symm)
  have sound' := sound_run sound steps
  constructor
  · intro same
    by_contra hne
    exact not_seeSame_of_cell sound' active active' (fun hcell => hne (alike.2 hcell)) same
  · intro hdrops
    have hscope := (sound'.session i h active).2.trans (sound'.session j h' active').2.symm
    obtain rfl : h = h' := by
      cases h
      cases h'
      simp_all
    have hactive : ∀ s : Session, s.active = some h → s = { active := some h } :=
      fun _ hs => congrArg Session.mk hs
    exact seeSame_of_session ((hactive _ active).trans (hactive _ active').symm)

end

/-- Three clients select a database. It is dropped and created again, and the third one selects it
anew: the first two go on seeing the same. -/
theorem seeSame_of_dropped_once :
    let w := start (Engine.new none Folder.empty Timestamp.epoch)
    let steps := [.statement 0 "CREATE DATABASE a", .statement 0 "INIT a", .statement 1 "INIT a",
      .statement 2 "INIT a", .statement 2 "DROP DATABASE a", .statement 2 "CREATE DATABASE a",
      .statement 2 "INIT a"]
    ((w.run steps).session 0).activeName = some "a" ∧
      ((w.run steps).session 1).activeName = some "a" ∧
      dropsSince 0 0 w steps = 1 ∧ dropsSince 1 0 w steps = 1 ∧
      (w.run steps).SeeSame 0 1 "a" := by
  intro w steps
  have hactive : ((w.run steps).session 0).activeName = some "a" := by decide +kernel
  have hactive' : ((w.run steps).session 1).activeName = some "a" := by decide +kernel
  have hdrops : dropsSince 0 0 w steps = 1 := by decide +kernel
  have hdrops' : dropsSince 1 0 w steps = 1 := by decide +kernel
  exact ⟨hactive, hactive', hdrops, hdrops',
    (seeSame_iff_dropsSince (w := w) rfl hactive hactive').2 (hdrops.trans hdrops'.symm)⟩

/-- A client that selected the database before it was dropped and created again has tables that
another one with the same database selected has not. -/
theorem not_agree_of_created_again :
    ¬∀ (steps : List Step) (i j : Nat) (name : String),
      let w := (start (Engine.new none Folder.empty Timestamp.epoch)).run steps
      (w.session i).activeName = some name → (w.session j).activeName = some name →
        w.Agree i j name := by
  intro h
  have agree := h [.statement 1 "CREATE DATABASE a", .statement 1 "INIT a",
    .statement 1 "CREATE TABLE t (x)", .statement 2 "DROP DATABASE a",
    .statement 2 "CREATE DATABASE a", .statement 2 "INIT a"] 1 2 "a"
    (by decide +kernel) (by decide +kernel)
  have same := SameAnswer.isOk_eq (agree "DESCRIBE TABLE t" _ parse_describe (.table _))
  exact absurd same (by decide +kernel)

end World

end Tabular
