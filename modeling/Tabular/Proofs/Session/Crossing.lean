import Mathlib.Data.List.Infix
import Tabular.Proofs.Session.Interleaving

/-!
Creating and dropping the same database at the same time.

Between its first call and its last one a statement is halfway: the catalog has changed and the
memory has not. As long as no `CREATE` and no `DROP` of the same name are halfway at the same time,
the catalog lists the databases in memory whenever no statement is under way; and wherever two such
statements are halfway, what is left of the statements under way can come in an order after which it
does not. Main statement: `Traffic.settles_iff_not_crossed`.
-/

namespace Tabular

/-- A `CREATE` and a `DROP` of the same name are at these stages. -/
def Stage.crosses : Stage → Stage → Bool
  | .enlisted name, .delisted name' | .checked name, .delisted name' => name = name'
  | _, _ => false

namespace Traffic

variable {t t' : Traffic} {names names' : List String} {client a b : Nat} {name : String}

/-- A `CREATE` of a name is halfway. -/
def Creating (t : Traffic) (client : Nat) (name : String) : Prop :=
  t.stage client = some (.enlisted name) ∨ t.stage client = some (.checked name)

/-- A `DROP` of a name is halfway. -/
def Dropping (t : Traffic) (client : Nat) (name : String) : Prop :=
  t.stage client = some (.delisted name)

/-- A `CREATE` and a `DROP` of the same name are halfway. -/
def Crossed (t : Traffic) : Prop :=
  ∃ name a b, t.Creating a name ∧ t.Dropping b name

/-- Among finitely many clients it can be decided whether two are crossed. -/
theorem not_crossed_of_lt {k : Nat} (idle : ∀ c, k ≤ c → t.stage c = none)
    (apart : ∀ a < k, ∀ b < k, ((t.stage a).any fun s => (t.stage b).any s.crosses) = false) :
    ¬t.Crossed := by
  rintro ⟨name, a, b, creating, dropping⟩
  have busy : ∀ c, t.stage c ≠ none → c < k := fun c hc => Nat.lt_of_not_le (mt (idle c) hc)
  unfold Dropping at dropping
  have hapart := apart a (busy a ?_) b (busy b (by simp [dropping]))
  · rcases creating with h | h <;> simp [h, dropping, Stage.crosses] at hapart
  · rcases creating with h | h <;> simp [h]

/-- The catalog and the memory agree on every name of which no statement is halfway. The name of a
`CREATE` is in the catalog and not yet in memory, and nobody else creates it; the name of a `DROP`
is not in the catalog. -/
structure Accords (t : Traffic) (names : List String) : Prop where
  creating : ∀ {client name}, t.Creating client name → name ∈ names ∧ ¬t.world.HasDatabase name
  alone : ∀ {a b name}, t.Creating a name → t.Creating b name → a = b
  dropping : ∀ {client name}, t.Dropping client name → name ∉ names
  settled : ∀ {name}, (∀ client, ¬t.Creating client name ∧ ¬t.Dropping client name) →
    (name ∈ names ↔ t.world.HasDatabase name)

/-! ### Who is halfway -/

theorem halfway_of_idle (idle : t.stage client = none) :
    (∀ n, ¬t.Creating client n) ∧ ∀ n, ¬t.Dropping client n := by
  simp [Creating, Dropping, idle]

theorem halfway_of_creating (creating : t.Creating client name) :
    (∀ n, t.Creating client n ↔ n = name) ∧ ∀ n, ¬t.Dropping client n := by
  rcases creating with h | h <;> simp [Creating, Dropping, h, eq_comm]

theorem halfway_of_dropping (dropping : t.Dropping client name) :
    (∀ n, ¬t.Creating client n) ∧ ∀ n, t.Dropping client n ↔ n = name := by
  unfold Dropping at dropping
  simp [Creating, Dropping, dropping, eq_comm]

/-- A call decides how far its own client's statement has come, and nobody else's. -/
theorem Next.halfway_iff {stage : Option Stage} {holds : String → Prop}
    (next : Next t client stage holds t') :
    (∀ c n, t'.Creating c n ↔
      c = client ∧ (stage = some (.enlisted n) ∨ stage = some (.checked n)) ∨
        c ≠ client ∧ t.Creating c n) ∧
      ∀ c n, t'.Dropping c n ↔
        c = client ∧ stage = some (.delisted n) ∨ c ≠ client ∧ t.Dropping c n := by
  unfold Creating Dropping
  rw [next.stage_eq]
  constructor <;> intro c n <;> rw [Function.update_apply] <;> split <;> simp [*]

/-- **A move keeps the catalog and the memory in accord** unless it leaves a `CREATE` and a `DROP`
of the same name halfway. -/
theorem Accords.effect (accords : t.Accords names) (uncrossed : ¬t.Crossed)
    (uncrossed' : ¬t'.Crossed) {move : Move} (effect : Effect t names move t' names') :
    t'.Accords names' := by
  have apart : ∀ {n a b}, t.Creating a n → ¬t.Dropping b n := fun ha hb =>
    uncrossed ⟨_, _, _, ha, hb⟩
  have apart' : ∀ {n a b}, t'.Creating a n → ¬t'.Dropping b n := fun ha hb =>
    uncrossed' ⟨_, _, _, ha, hb⟩
  obtain ⟨creating, alone, dropping, settled⟩ := id accords
  cases effect with
  | ignore => exact accords
  | decline idle old next =>
    have holds := next.holds_iff
    obtain ⟨hcreating, hdropping⟩ := next.halfway_iff
    obtain ⟨hcreate, hdrop⟩ := halfway_of_idle idle
    constructor <;> grind
  | @enlist client name _ idle new next =>
    have holds := next.holds_iff
    obtain ⟨hcreating, hdropping⟩ := next.halfway_iff
    obtain ⟨hcreate, hdrop⟩ := halfway_of_idle idle
    have hname : t'.Creating client name := (hcreating client name).2 (.inl ⟨rfl, .inl rfl⟩)
    -- Nobody else is at work on the name, so it is as free in memory as it is in the catalog.
    have uncreated : ∀ c, ¬t.Creating c name := fun _ hc => new (creating hc).1
    have undropped : ∀ c, ¬t.Dropping c name := fun c hc =>
      apart' hname ((hdropping c name).2 (.inr ⟨fun h => hdrop name (h ▸ hc), hc⟩))
    have free : ¬t.world.HasDatabase name := fun h =>
      new ((settled fun c => ⟨uncreated c, undropped c⟩).2 h)
    constructor <;> grind
  | @delist client name _ _ idle others next =>
    have holds := next.holds_iff
    obtain ⟨hcreating, hdropping⟩ := next.halfway_iff
    obtain ⟨hcreate, hdrop⟩ := halfway_of_idle idle
    have hname : t'.Dropping client name := (hdropping client name).2 (.inl ⟨rfl, rfl⟩)
    have uncreated : ∀ c, ¬t.Creating c name := fun c hc =>
      apart' ((hcreating c name).2 (.inr ⟨fun h => hcreate name (h ▸ hc), hc⟩)) hname
    constructor <;> grind
  | @check client name _ reached free next =>
    have holds := next.holds_iff
    obtain ⟨hcreating, hdropping⟩ := next.halfway_iff
    obtain ⟨hcreate, hdrop⟩ := halfway_of_creating (.inl reached)
    constructor <;> grind
  | refuse reached taken => exact absurd taken (creating (.inl reached)).2
  | @enter client name _ reached next =>
    have holds := next.holds_iff
    obtain ⟨hcreating, hdropping⟩ := next.halfway_iff
    obtain ⟨hcreate, hdrop⟩ := halfway_of_creating (.inr reached)
    have hname : t.Creating client name := .inr reached
    have listed : name ∈ names := (creating hname).1
    have uncreated : ∀ c, c ≠ client → ¬t.Creating c name := fun c hne hc => hne (alone hc hname)
    have undropped : ∀ c, ¬t.Dropping c name := fun _ hc => apart hname hc
    constructor <;> grind
  | @withdraw client name _ reached next =>
    have holds := next.holds_iff
    obtain ⟨hcreating, hdropping⟩ := next.halfway_iff
    obtain ⟨hcreate, hdrop⟩ := halfway_of_dropping reached
    have unlisted : name ∉ names := dropping reached
    have uncreated : ∀ c, ¬t.Creating c name := fun _ hc => apart hc reached
    constructor <;> grind

/-! ### Runs without a crossing -/

/-- A new process without a data directory lists nothing and has nothing in memory. -/
theorem records_start (folder : Folder) (clock : Timestamp) :
    (start (Engine.new none folder clock)).Records [] where
  memory := rfl
  opened := fun _ hc => nomatch hc
  closed := fun _ => ⟨rfl, rfl⟩
  apart := List.Pairwise.nil

theorem accords_start (folder : Folder) (clock : Timestamp) :
    (start (Engine.new none folder clock)).Accords [] where
  creating := fun h => nomatch h
  alone := fun h => nomatch h
  dropping := fun h => nomatch h
  settled := fun {name} _ => by
    have hnone : ¬(start (Engine.new none folder clock)).world.HasDatabase name := by
      simp [start, World.start, World.HasDatabase, World.engine, Interpreter.new, Engine.new,
        Scoped.get?, Scoped.of, Scoped.empty]
    simp [hnone]

section

variable [PatternCompiler]

/-- The catalog lists some names after any moves. -/
theorem exists_records_run {moves : List Move} (records : t.Records names)
    (plain : ∀ move ∈ moves, move.NonNumeric) : ∃ names', (t.run moves).Records names' := by
  induction moves generalizing t names with
  | nil => exact ⟨names, records⟩
  | cons move moves ih =>
    obtain ⟨names', records', -⟩ := exists_effect records (plain move List.mem_cons_self)
    exact ih records' fun m hm => plain m (List.mem_cons_of_mem move hm)

/-- **Moves that never leave a `CREATE` and a `DROP` of the same name halfway** end with the catalog
and the memory in accord. -/
theorem Accords.run {moves : List Move} (records : t.Records names) (accords : t.Accords names)
    (plain : ∀ move ∈ moves, move.NonNumeric)
    (uncrossed : ∀ before, before <+: moves → ¬(t.run before).Crossed) :
    ∃ names', (t.run moves).Records names' ∧ (t.run moves).Accords names' := by
  induction moves generalizing t names with
  | nil => exact ⟨names, records, accords⟩
  | cons move moves ih =>
    obtain ⟨names', records', effect⟩ := exists_effect records (plain move List.mem_cons_self)
    have accords' : (t.after move).Accords names' :=
      accords.effect (uncrossed [] List.nil_prefix)
        (uncrossed [move] (List.cons_prefix_cons.2 ⟨rfl, List.nil_prefix⟩)) effect
    exact ih records' accords' (fun m hm => plain m (List.mem_cons_of_mem move hm))
      fun before hbefore => uncrossed (move :: before) (List.cons_prefix_cons.2 ⟨rfl, hbefore⟩)

/-- When no statement is under way, `SHOW` lists the databases. -/
theorem Accords.showsDatabases (accords : t.Accords names) (records : t.Records names)
    (quiet : t.Quiet) : t.world.ShowsDatabases :=
  (World.showsDatabases_iff records).2 fun _ => accords.settled fun client =>
    ⟨(halfway_of_idle (quiet client)).1 _, (halfway_of_idle (quiet client)).2 _⟩

omit [PatternCompiler] in
/-- To go on puts no statement halfway that is not. -/
theorem Effect.halfway (effect : Effect t names (.advance client) t' names') :
    (∀ c n, t'.Creating c n → t.Creating c n) ∧ ∀ c n, t'.Dropping c n → t.Dropping c n := by
  have ended : ∀ {holds}, Next t client none holds t' →
      (∀ c n, t'.Creating c n → t.Creating c n) ∧ ∀ c n, t'.Dropping c n → t.Dropping c n := by
    intro holds next
    obtain ⟨hcreating, hdropping⟩ := next.halfway_iff
    exact ⟨fun c n => by simp [hcreating], fun c n => by simp [hdropping]⟩
  cases effect with
  | ignore => exact ⟨fun _ _ => id, fun _ _ => id⟩
  | check reached _ next =>
    obtain ⟨hcreating, hdropping⟩ := next.halfway_iff
    obtain ⟨hcreate, -⟩ := halfway_of_creating (.inl reached)
    constructor <;> grind
  | refuse _ _ next => exact ended next
  | enter _ next => exact ended next
  | withdraw _ next => exact ended next

/-- Nothing gets out of accord while the statements under way go on. -/
theorem Accords.advances (records : t.Records names) (accords : t.Accords names)
    (uncrossed : ¬t.Crossed) (clients : List Nat) :
    (t.run (clients.map .advance)).Records names ∧
      (t.run (clients.map .advance)).Accords names := by
  induction clients generalizing t with
  | nil => exact ⟨records, accords⟩
  | cons client clients ih =>
    obtain ⟨records', effect⟩ := effect_advance records client
    have uncrossed' : ¬(t.after (.advance client)).Crossed := by
      rintro ⟨name, a, b, creating, dropping⟩
      obtain ⟨hcreating, hdropping⟩ := effect.halfway
      exact uncrossed ⟨name, a, b, hcreating a name creating, hdropping b name dropping⟩
    exact ih records' (accords.effect uncrossed uncrossed' effect) uncrossed'

/-! ### Runs with a crossing -/

/-- However the statements under way go on, `SHOW` lists the databases when all have come to their
end. -/
def Settles (t : Traffic) : Prop :=
  ∀ clients : List Nat, (t.run (clients.map .advance)).Quiet →
    (t.run (clients.map .advance)).world.ShowsDatabases

omit [PatternCompiler] in
/-- A move does not concern the statements of other clients. -/
theorem stage_perform_of_ne {c : Nat} (h : c ≠ client) (call : SessionM (Option Stage)) :
    (t.perform client call).stage c = t.stage c :=
  Function.update_of_ne h ..

theorem stage_advance_of_ne {c : Nat} (h : c ≠ client) :
    (t.after (.advance client)).stage c = t.stage c := by
  unfold after
  dsimp only
  split
  · rfl
  · exact stage_perform_of_ne h _

theorem stage_advance (t : Traffic) (client : Nat) :
    (t.after (.advance client)).stage client = (t.stage client).bind Stage.successor ∨
      (t.after (.advance client)).stage client = none := by
  have performed : ∀ {α : Type} (call : SessionM α) (stage : Option Stage),
      (t.perform client (Session.reaching call stage)).stage client = stage ∨
        (t.perform client (Session.reaching call stage)).stage client = none := by
    intro α call stage
    rcases hexec : exec call (t.world.view client) with ⟨err | a, p⟩
    · exact .inr (by rw [perform_of_error hexec, stage_put_self])
    · exact .inl (by rw [perform_of_ok hexec, stage_put_self])
  cases hstage : t.stage client with
  | none => exact .inr (by rwa [after_advance_of_idle hstage])
  | some stage =>
    rw [after_advance hstage]
    cases stage <;> exact performed _ _

/-- After two calls a statement has come to its end. -/
theorem stage_advance_advance (t : Traffic) (client : Nat) :
    ((t.after (.advance client)).after (.advance client)).stage client = none := by
  rcases stage_advance (t.after (.advance client)) client with h | h
  · rcases stage_advance t client with h' | h'
    · rw [h, h']
      rcases t.stage client with _ | _ | _ | _ <;> rfl
    · rw [h, h']
      rfl
  · exact h

/-- The statements of some clients can be brought to their ends, while the catalog and the
statements of the others stay as they are. -/
theorem exists_ended (records : t.Records names) (ending : List Nat) :
    ∃ clients : List Nat, (t.run (clients.map .advance)).Records names ∧
      ∀ c, (t.run (clients.map .advance)).stage c = if c ∈ ending then none else t.stage c := by
  induction ending generalizing t with
  | nil => exact ⟨[], records, fun c => by simp⟩
  | cons client ending ih =>
    have records' := (effect_advance (effect_advance records client).1 client).1
    obtain ⟨clients, records'', hstage⟩ := ih records'
    refine ⟨client :: client :: clients, records'', fun c => ?_⟩
    change ((((t.after (.advance client)).after (.advance client)).run
      (clients.map .advance)).stage c) = _
    rw [hstage]
    by_cases hc : c = client
    · subst hc
      simp [stage_advance_advance]
    · rw [stage_advance_of_ne hc, stage_advance_of_ne hc]
      simp [hc]

/-- A `CREATE` that goes on while its name is free in memory brings the database into memory. -/
theorem hasDatabase_of_creating (records : t.Records names) (creating : t.Creating client name)
    (free : ¬t.world.HasDatabase name) :
    ((t.after (.advance client)).after (.advance client)).world.HasDatabase name := by
  rcases creating with reached | reached
  · obtain ⟨records', next⟩ := advance_enlisted_of_free records reached free
    have reached' : (t.after (.advance client)).stage client = some (.checked name) := by
      rw [next.stage_eq, Function.update_self]
    exact ((advance_checked records' reached').2.holds_iff name).2 (.inl rfl)
  · obtain ⟨records', next⟩ := advance_checked records reached
    have idle : (t.after (.advance client)).stage client = none := by
      rw [next.stage_eq, Function.update_self]
    rw [after_advance_of_idle idle]
    exact (next.holds_iff name).2 (.inl rfl)

/-- **Where a `CREATE` and a `DROP` of the same name are halfway, what is left of them can come in
an order that ends with the catalog and the memory at odds**: the catalog will not change any more,
and the one that comes last decides whether there is such a database. -/
theorem not_settles_of_crossed (records : t.Records names) (crossed : t.Crossed)
    (finite : ∃ clients : List Nat, ∀ c, t.stage c ≠ none → c ∈ clients) : ¬t.Settles := by
  obtain ⟨name, a, b, creating, dropping⟩ := crossed
  obtain ⟨busy, hbusy⟩ := finite
  have hab : a ≠ b := by
    rintro rfl
    exact (halfway_of_creating creating).2 name dropping
  obtain ⟨clients, records₁, hstage⟩ :=
    exists_ended records (busy.filter fun c => c ≠ a ∧ c ≠ b)
  generalize ht₁ : t.run (clients.map .advance) = t₁ at records₁ hstage
  have hidle : ∀ c, c ≠ a → c ≠ b → t₁.stage c = none := fun c hca hcb => by
    rw [hstage]
    by_cases hc : c ∈ busy
    · simp [hc, hca, hcb]
    · simp [hc, not_not.1 (mt (hbusy c) hc)]
  have creating₁ : t₁.Creating a name := by
    unfold Creating
    rw [hstage, if_neg (by simp)]
    exact creating
  have dropping₁ : t₁.Dropping b name := by
    unfold Dropping
    rw [hstage, if_neg (by simp)]
    exact dropping
  -- The rest goes on in some order, and then the catalog and the memory should agree.
  have ends : t.Settles → ∀ last : List Nat, ∀ t₂, t₁.run (last.map .advance) = t₂ → t₂.Quiet →
      t₂.Records names → (name ∈ names ↔ t₂.world.HasDatabase name) := by
    rintro settles last t₂ rfl quiet records₂
    have shows := settles (clients ++ last)
    rw [List.map_append, run_append, ht₁] at shows
    exact (World.showsDatabases_iff records₂).1 (shows quiet) name
  intro settles
  by_cases hname : name ∈ names
  · -- The `DROP` comes last.
    have records₂ := (effect_advance (effect_advance records₁ a).1 a).1
    have dropping₂ : ((t₁.after (.advance a)).after (.advance a)).Dropping b name := by
      unfold Dropping
      rw [stage_advance_of_ne hab.symm, stage_advance_of_ne hab.symm]
      exact dropping₁
    obtain ⟨records₃, next⟩ := advance_delisted records₂ dropping₂
    refine absurd ((ends settles [a, a, b] _ rfl (fun c => ?_) records₃).1 hname)
      fun h => ((next.holds_iff name).1 h).1 rfl
    change (((t₁.after (.advance a)).after (.advance a)).after (.advance b)).stage c = none
    rw [next.stage_eq, Function.update_apply]
    split
    · rfl
    · next hcb =>
      by_cases hca : c = a
      · rw [hca]
        exact stage_advance_advance t₁ a
      · rw [stage_advance_of_ne hca, stage_advance_of_ne hca, hidle c hca hcb]
  · -- The `CREATE` comes last.
    obtain ⟨records₂, next⟩ := advance_delisted records₁ dropping₁
    have creating₂ : (t₁.after (.advance b)).Creating a name := by
      unfold Creating
      rw [stage_advance_of_ne hab]
      exact creating₁
    have records₃ := (effect_advance (effect_advance records₂ a).1 a).1
    refine hname ((ends settles [b, a, a] _ rfl (fun c => ?_) records₃).2 <|
      hasDatabase_of_creating records₂ creating₂ fun h => ((next.holds_iff name).1 h).1 rfl)
    change (((t₁.after (.advance b)).after (.advance a)).after (.advance a)).stage c = none
    by_cases hca : c = a
    · rw [hca]
      exact stage_advance_advance _ a
    · rw [stage_advance_of_ne hca, stage_advance_of_ne hca, next.stage_eq, Function.update_apply]
      split
      · rfl
      · next hcb => exact hidle c hca hcb

/-! ### The two together -/

/-- A client of which there is no move has no statement under way. -/
theorem stage_run_of_not_mem {moves : List Move} {c : Nat} (h : ∀ move ∈ moves, move.client ≠ c) :
    (t.run moves).stage c = t.stage c := by
  induction moves generalizing t with
  | nil => rfl
  | cons move moves ih =>
    rw [run_cons, ih fun m hm => h m (List.mem_cons_of_mem move hm)]
    have hc := (h move List.mem_cons_self).symm
    cases move with
    | begin client change =>
      unfold after
      dsimp only
      split
      · exact stage_perform_of_ne hc _
      · rfl
    | advance client => exact stage_advance_of_ne hc

theorem stage_run_of_le {e : Engine} {moves : List Move} {k : Nat}
    (h : ∀ move ∈ moves, move.client < k) : ∀ c, k ≤ c → ((start e).run moves).stage c = none :=
  fun _ hc => stage_run_of_not_mem fun move hmove hclient =>
    absurd (h move hmove) (by omega)

/-- **As long as clients only create and drop databases whose names are not numeric, the statements
under way are sure to end with `SHOW` listing the databases exactly if at no point a `CREATE` and a
`DROP` of the same name have been halfway.** -/
theorem settles_iff_not_crossed (folder : Folder) (clock : Timestamp) {moves : List Move}
    (plain : ∀ move ∈ moves, move.NonNumeric) :
    (∀ before, before <+: moves →
        ((start (Engine.new none folder clock)).run before).Settles) ↔
      ∀ before, before <+: moves →
        ¬((start (Engine.new none folder clock)).run before).Crossed := by
  have plain' : ∀ before, before <+: moves → ∀ move ∈ before, move.NonNumeric :=
    fun before hbefore move hmem => plain move (hbefore.subset hmem)
  constructor
  · intro settles before hbefore crossed
    obtain ⟨names, records⟩ :=
      exists_records_run (records_start folder clock) (plain' before hbefore)
    refine not_settles_of_crossed records crossed ⟨before.map Move.client, fun c hc => ?_⟩
      (settles before hbefore)
    by_contra hmem
    refine hc (stage_run_of_not_mem fun move hmove hclient => hmem ?_)
    exact List.mem_map.2 ⟨move, hmove, hclient⟩
  · intro uncrossed before hbefore clients quiet
    obtain ⟨names, records, accords⟩ := Accords.run (records_start folder clock)
      (accords_start folder clock) (plain' before hbefore) fun first hfirst =>
        uncrossed first (hfirst.trans hbefore)
    obtain ⟨records', accords'⟩ := accords.advances records (uncrossed before hbefore) clients
    exact accords'.showsDatabases records' quiet

end

/-- Two clients create the same database, and one of them then drops another one. -/
def race : List Move :=
  [.begin 0 (.create "x"), .begin 1 (.create "x"), .begin 1 (.drop "y"), .advance 0, .advance 1,
    .advance 0]

theorem settles_of_race :
    (∀ move ∈ race, move.NonNumeric) ∧ ∀ before, before <+: race →
      ((start (Engine.new none Folder.empty Timestamp.epoch)).run before).Settles := by
  have plain : ∀ move ∈ race, move.NonNumeric := by decide +kernel
  have hclients : ∀ move ∈ race, move.client < 2 := by decide
  have apart : ∀ before ∈ race.inits, ∀ a < 2, ∀ b < 2,
      ((((start (Engine.new none Folder.empty Timestamp.epoch)).run before).stage a).any fun s =>
        (((start (Engine.new none Folder.empty Timestamp.epoch)).run before).stage b).any
          s.crosses) = false := by decide +kernel
  refine ⟨plain, (settles_iff_not_crossed Folder.empty Timestamp.epoch plain).2 ?_⟩
  intro before hbefore
  exact not_crossed_of_lt (stage_run_of_le fun move hmove => hclients move (hbefore.subset hmove))
    (apart before ((List.mem_inits ..).2 hbefore))

/-- A `CREATE` whose row a `DROP` takes out again before the database is in memory. -/
def overtaken : List Move :=
  [.begin 0 (.create "x"), .begin 1 (.drop "x"), .advance 1, .advance 0, .advance 0]

theorem not_showsDatabases_of_overtaken :
    ¬∀ moves : List Move, (∀ move ∈ moves, move.NonNumeric) →
      ((start (Engine.new none Folder.empty Timestamp.epoch)).run moves).Quiet →
      ((start (Engine.new none Folder.empty Timestamp.epoch)).run moves).world.ShowsDatabases := by
  intro claimed
  have hclients : ∀ move ∈ overtaken, move.client < 2 := by decide
  have hends : ∀ c < 2,
      ((start (Engine.new none Folder.empty Timestamp.epoch)).run overtaken).stage c = none := by
    decide +kernel
  have quiet : ((start (Engine.new none Folder.empty Timestamp.epoch)).run overtaken).Quiet :=
    fun c => (Nat.lt_or_ge c 2).elim (hends c) (stage_run_of_le hclients c)
  obtain ⟨names, -, hnames, hanswer⟩ :=
    claimed overtaken (by decide +kernel) quiet 0 "SHOW" World.parse_show
  have hshown : ((start (Engine.new none Folder.empty Timestamp.epoch)).run
      overtaken).world.answer 0 (Session.execute "SHOW") = .ok (.rows []) := by decide +kernel
  have hexists : ((start (Engine.new none Folder.empty Timestamp.epoch)).run
      overtaken).world.engine.live.get? .data "x" = some 1 := by decide +kernel
  have hempty : names.map Catalog.row = [] := by simpa using hanswer.symm.trans hshown
  have hmem : "x" ∈ names := (hnames "x").2 (Option.isSome_iff_exists.2 ⟨1, hexists⟩)
  rw [List.map_eq_nil_iff.1 hempty] at hmem
  exact absurd hmem List.not_mem_nil

end Traffic

end Tabular
