import Tabular.Proofs.Engine.Snapshots
import Tabular.Proofs.Folder.Reach
import Tabular.Proofs.Statement.Names
import Tabular.Proofs.TwoRuns

/-!
How far the engine reaches into its folder.

The snapshots of an engine are those of the users' databases, whose names are as statements have
them, and the one of the catalog. Operations on these databases look at the entries on the way to a
snapshot alone, and change no others. Both are said of two runs of an operation, in engines whose
folders agree on the way to the snapshots: they have the same result and end in such engines again
(`Engine.Twins`).
-/

namespace Tabular

/-- The databases that have snapshots. -/
inductive HasSnapshot : Scope → String → Prop where
  | user {name : String} (named : DatabaseName name) : HasSnapshot .data name
  | catalog : HasSnapshot .system Catalog.database

theorem DatabaseName.plain {name : String} (named : DatabaseName name) : PlainName name :=
  named.not_mem (by decide +kernel) (by decide)

theorem HasSnapshot.plain {scope : Scope} {name : String} (has : HasSnapshot scope name) :
    PlainName name := by
  cases has with
  | user named => exact named.plain
  | catalog => unfold PlainName; decide

namespace Engine

/-- The path of a snapshot in a data directory, if there is one. -/
def SnapshotPath (dataDir : Option Route) (q : Path) : Prop :=
  ∃ dir scope name, dataDir = some dir ∧ HasSnapshot scope name ∧
    q.text = (snapshotIn dir scope name).path.text

/-- A directory that snapshots lie in, or one on the way there. -/
def SnapshotDirectory (dataDir : Option Route) (q : Path) : Prop :=
  ∃ dir scope, dataDir = some dir ∧ Route.Passes (dir ++ [Scope.directory scope]) q

/-- A path on the way to a snapshot, the one of the snapshot included. -/
def SnapshotWay (dataDir : Option Route) (q : Path) : Prop :=
  ∃ dir scope name, dataDir = some dir ∧ HasSnapshot scope name ∧
    (snapshotIn dir scope name).Passes q

/-- Two engines that differ in their folders alone, and there not on the way to a snapshot. The
folder of the first one has come about from `f₀` by changes of snapshots, and by making the
directories for them. -/
inductive Twins (dataDir : Option Route) (f₀ : Folder) : Engine → Engine → Prop where
  | intro {e : Engine} {g : Folder} (dir : e.dataDir = dataDir)
      (agree : Folder.AgreeOn (SnapshotWay dataDir) e.folder g)
      (changes : Folder.Changes (SnapshotPath dataDir) (SnapshotDirectory dataDir) f₀ e.folder) :
      Twins dataDir f₀ e { e with folder := g }

/-- Where snapshots are: each is a file of its own, with the name of a database and `.json`. -/
structure Layout (dataDir : Option Route) : Prop where
  form : ∀ q, SnapshotPath dataDir q → ∃ dir, dataDir = some dir ∧
    (q.text = Path.text (Route.path dir ++ ["system", "nue.json"]) ∨
      ∃ name, DatabaseName name ∧ q.text = Path.text (Route.path dir ++ ["data", name ++ ".json"]))
  plain : ∀ name, DatabaseName name → ∀ c ∈ ['/', '.', '\x00'], c ∉ name.toList
  apart : ∀ dir scope name scope' name', HasSnapshot scope name → HasSnapshot scope' name' →
    (snapshotIn dir scope name).path.text = (snapshotIn dir scope' name').path.text →
    scope = scope' ∧ name = name'

theorem layout (dataDir : Option Route) : Layout dataDir where
  form := by
    rintro q ⟨dir, scope, name, hdir, has, hq⟩
    rw [path_snapshotIn has.plain] at hq
    refine ⟨dir, hdir, ?_⟩
    cases has with
    | user named => exact .inr ⟨name, named, hq⟩
    | catalog => exact .inl hq
  plain := by
    intro name named c hc
    simp only [List.mem_cons, List.not_mem_nil, or_false] at hc
    obtain rfl | rfl | rfl := hc <;> exact named.not_mem (by decide +kernel) (by decide)
  apart := fun _ _ _ _ _ has has' => snapshot_injective has.plain has'.plain

variable {dataDir : Option Route} {f₀ : Folder} {e : Engine} {scope : Scope} {name : String}
variable {α : Type}

namespace Twins

variable {e' : Engine}

theorem eq (twins : Twins dataDir f₀ e e') : e' = { e with folder := e'.folder } := by
  cases twins
  rfl

theorem dir (twins : Twins dataDir f₀ e e') : e.dataDir = dataDir := by
  cases twins with
  | intro dir => exact dir

theorem agree (twins : Twins dataDir f₀ e e') :
    Folder.AgreeOn (SnapshotWay dataDir) e.folder e'.folder := by
  cases twins with
  | intro _ agree => exact agree

theorem changes (twins : Twins dataDir f₀ e e') :
    Folder.Changes (SnapshotPath dataDir) (SnapshotDirectory dataDir) f₀ e.folder := by
  cases twins with
  | intro _ _ changes => exact changes

end Twins

/-- The route to a snapshot leads along the way to the snapshots, through their directories, to the
path of one. -/
structure LeadsToSnapshot (dataDir : Option Route) (route : Route) : Prop where
  way : ∀ q, route.Passes q → SnapshotWay dataDir q
  directories : ∀ q, Route.Passes route.dropLast q → SnapshotDirectory dataDir q
  path : ∀ q, q.text = (Route.path route).text → SnapshotPath dataDir q

theorem leads_of_route (has : HasSnapshot scope name) {route : Route}
    (hroute : e.snapshotRoute? scope name = some route) : LeadsToSnapshot e.dataDir route := by
  obtain ⟨dir, hdir, rfl⟩ := Option.map_eq_some_iff.1 hroute
  refine ⟨fun q hq => ⟨dir, scope, name, hdir, has, hq⟩, fun q hq => ⟨dir, scope, hdir, ?_⟩,
    fun q hq => ⟨dir, scope, name, hdir, has, hq⟩⟩
  rw [snapshotIn_eq has.plain, List.append_cons, List.dropLast_concat] at hq
  exact hq

theorem snapshotRoute?_withFolder (e : Engine) (g : Folder) (scope : Scope) (name : String) :
    Engine.snapshotRoute? { e with folder := g } scope name = e.snapshotRoute? scope name := rfl

theorem databaseOf_withFolder (e : Engine) (g : Folder) (h : Handle) :
    Engine.databaseOf { e with folder := g } h = e.databaseOf h := rfl

theorem stored_congr (has : HasSnapshot scope name) {g : Folder}
    (agree : Folder.AgreeOn (SnapshotWay e.dataDir) e.folder g) :
    Engine.stored { e with folder := g } scope name = e.stored scope name := by
  unfold stored
  rw [snapshotRoute?_withFolder e g]
  cases hroute : e.snapshotRoute? scope name with
  | none => rfl
  | some route =>
    have way := (leads_of_route has hroute).way
    dsimp only
    rw [Folder.exists?_congr agree way, Folder.textAt_congr agree way]

/-! ### Operations -/

theorem relates_load (has : HasSnapshot scope name) :
    Relates (Twins dataDir f₀) (load scope name) (load scope name)
      (fun a b e e' => a = b ∧ Twins dataDir f₀ e e') (Twins dataDir f₀) := by
  rintro _ _ ⟨rfl, agree, changes⟩
  rename_i e g
  rw [exec_load, exec_load, stored_congr has agree]
  cases e.live.get? scope name with
  | some cell => exact ⟨rfl, .intro rfl agree changes⟩
  | none =>
    rcases e.stored scope name with err | _ | db
    · exact ⟨rfl, .intro rfl agree changes⟩
    · exact ⟨rfl, .intro rfl agree changes⟩
    · exact ⟨rfl, .intro (e := e.registered scope name db) rfl agree changes⟩

/-- Opening gives a handle of the database that was asked for. -/
theorem relates_open (has : HasSnapshot scope name) :
    Relates (Twins dataDir f₀) (Engine.open scope name) (Engine.open scope name)
      (fun h? h'? e e' => h? = h'? ∧ (∀ h, h? = some h → HasSnapshot h.scope h.name) ∧
        Twins dataDir f₀ e e') (Twins dataDir f₀) := by
  unfold Engine.open
  refine (relates_load has).bind_eq fun cell? => Relates.pure fun _ _ twins =>
    ⟨rfl, fun h hh => ?_, twins⟩
  obtain ⟨cell, -, rfl⟩ := Option.map_eq_some_iff.1 hh
  exact has

theorem relates_save {h : Handle} (has : HasSnapshot h.scope h.name) :
    Relates (Twins dataDir f₀) (save h) (save h) (fun _ _ => Twins dataDir f₀)
      (Twins dataDir f₀) := by
  rintro _ _ ⟨rfl, agree, changes⟩
  rename_i e g
  rw [exec_save, exec_save]
  rw [snapshotRoute?_withFolder e g]
  cases hroute : e.snapshotRoute? h.scope h.name with
  | none => exact .intro rfl agree changes
  | some route =>
    have leads := leads_of_route has hroute
    have hmade := Folder.agreeing_makeDirectories agree fun q ⟨s, hs, hq⟩ =>
      leads.way q ⟨s, hs.trans (List.dropLast_prefix route), hq⟩
    dsimp only
    cases hf : e.folder.makeDirectories route.dropLast <;>
      cases hg : g.makeDirectories route.dropLast <;> rw [hf, hg] at hmade <;> cases hmade
    · exact ⟨rfl, .intro rfl agree changes⟩
    · next made made' agree' =>
      have changes' := changes.trans (Folder.changes_makeDirectories hf leads.directories)
      have hwritten := Folder.agreeing_write agree' leads.way (e.databaseOf h).snapshot
      dsimp only
      rw [databaseOf_withFolder e g]
      cases hf' : made.write route (e.databaseOf h).snapshot <;>
        cases hg' : made'.write route (e.databaseOf h).snapshot <;> rw [hf', hg'] at hwritten <;>
        cases hwritten
      · exact ⟨rfl, .intro (e := { e with folder := made }) rfl agree' changes'⟩
      · next written written' agree'' =>
        exact .intro (e := { e with folder := written }) rfl agree''
          (changes'.trans (Folder.changes_write hf' leads.path))

theorem relates_removeSnapshot (has : HasSnapshot scope name) :
    Relates (Twins dataDir f₀) (removeSnapshot scope name) (removeSnapshot scope name)
      (fun a b e e' => a = b ∧ Twins dataDir f₀ e e') (Twins dataDir f₀) := by
  rintro _ _ ⟨rfl, agree, changes⟩
  rename_i e g
  rw [exec_removeSnapshot, exec_removeSnapshot]
  rw [snapshotRoute?_withFolder e g]
  cases hroute : e.snapshotRoute? scope name with
  | none => exact ⟨rfl, .intro rfl agree changes⟩
  | some route =>
    have leads := leads_of_route has hroute
    have hremoved := Folder.agreeing_remove agree leads.way
    dsimp only
    rw [← Folder.exists?_congr agree leads.way]
    rcases e.folder.exists? route with kind | _ | _
    · exact ⟨rfl, .intro rfl agree changes⟩
    · exact ⟨rfl, .intro rfl agree changes⟩
    · dsimp only
      cases hf : e.folder.remove route <;> cases hg : g.remove route <;>
        rw [hf, hg] at hremoved <;> cases hremoved
      · exact ⟨rfl, .intro rfl agree changes⟩
      · next f' g' agree' =>
        exact ⟨rfl, .intro (e := { e with folder := f' }) rfl agree'
          (changes.trans (Folder.changes_remove hf leads.path))⟩

theorem relates_query (h : Handle) (f : Database → Except StorageError α) :
    Relates (Twins dataDir f₀) (query h f) (query h f)
      (fun a b e e' => a = b ∧ Twins dataDir f₀ e e') (Twins dataDir f₀) := by
  rintro _ _ ⟨rfl, agree, changes⟩
  rename_i e g
  rw [exec_query, exec_query]
  rw [databaseOf_withFolder e g]
  cases f (e.databaseOf h) <;> exact ⟨rfl, .intro rfl agree changes⟩

theorem relates_edit (h : Handle) (f : Database → Except StorageError (α × Database)) :
    Relates (Twins dataDir f₀) (edit h f) (edit h f)
      (fun a b e e' => a = b ∧ Twins dataDir f₀ e e') (Twins dataDir f₀) := by
  rintro _ _ ⟨rfl, agree, changes⟩
  rename_i e g
  rw [exec_edit, exec_edit]
  rw [databaseOf_withFolder e g]
  rcases f (e.databaseOf h) with err | ⟨a, db⟩
  · exact ⟨rfl, .intro rfl agree changes⟩
  · exact ⟨rfl, .intro (e := e.setState h.cell db) rfl agree changes⟩

theorem relates_createDatabase (has : HasSnapshot scope name) :
    Relates (Twins dataDir f₀) (createDatabase scope name) (createDatabase scope name)
      (fun a b e e' => a = b ∧ Twins dataDir f₀ e e') (Twins dataDir f₀) := by
  unfold createDatabase
  refine (relates_load has).bind_eq fun cell? => ?_
  cases cell? with
  | some cell => exact Relates.throw fun _ _ h => h
  | none =>
    refine Relates.get_bind ?_
    rintro _ _ ⟨dir, agree, changes⟩
    rename_i e g
    have created : Relates (fun s t => s = e ∧ t = { e with folder := g })
        (register scope name (Database.new e.clock)) (register scope name (Database.new e.clock))
        (fun a b e e' => a = b ∧ Twins dataDir f₀ e e') (Twins dataDir f₀) := by
      intro s t h
      rw [h.1, h.2]
      exact ⟨rfl, .intro (e := e.registered scope name (Database.new e.clock)) dir agree changes⟩
    exact created.bind_eq fun cell => (relates_save (h := { scope, name, cell }) has).bind
      fun _ _ => Relates.pure fun _ _ h => ⟨rfl, h⟩

theorem relates_dropDatabase (has : HasSnapshot scope name) :
    Relates (Twins dataDir f₀) (dropDatabase scope name) (dropDatabase scope name)
      (fun a b e e' => a = b ∧ Twins dataDir f₀ e e') (Twins dataDir f₀) := by
  unfold dropDatabase
  refine Relates.get_bind ?_
  rintro _ _ ⟨dir, agree, changes⟩
  rename_i e g
  refine Relates.bind (M := fun _ _ => Twins dataDir f₀) (Relates.modify ?_) fun _ _ =>
    (relates_removeSnapshot has).bind_eq fun deleted => ?_
  · intro s t h
    rw [h.1, h.2]
    exact .intro (e := e.forgotten scope name) dir agree changes
  · cases e.live.get? scope name <;> cases deleted
    · exact Relates.throw fun _ _ h => h
    · exact Relates.pure fun _ _ h => ⟨rfl, h⟩
    · exact Relates.pure fun _ _ h => ⟨rfl, h⟩
    · exact Relates.pure fun _ _ h => ⟨rfl, h⟩

theorem relates_describeDatabase (active : Option Handle) (named : DatabaseName name) :
    Relates (Twins dataDir f₀) (describeDatabase active name) (describeDatabase active name)
      (fun a b e e' => a = b ∧ Twins dataDir f₀ e e') (Twins dataDir f₀) := by
  have describe : ∀ cell, Relates (Twins dataDir f₀)
      (do return Outcome.database (((← get).state cell).describe name) : EngineM Outcome)
      (do return .database (((← get).state cell).describe name))
      (fun a b e e' => a = b ∧ Twins dataDir f₀ e e') (Twins dataDir f₀) := by
    intro cell
    refine Relates.get_bind ?_
    rintro _ _ ⟨dir, agree, changes⟩
    refine Relates.pure ?_
    rintro _ _ ⟨rfl, rfl⟩
    exact ⟨rfl, .intro dir agree changes⟩
  unfold describeDatabase
  cases active.filter (·.name = name) with
  | some h => exact describe h.cell
  | none =>
    refine (relates_load (.user named)).bind_eq fun cell? => ?_
    cases cell? with
    | some cell => exact describe cell
    | none => exact Relates.throw fun _ _ h => h

theorem relates_openCatalog :
    Relates (Twins dataDir f₀) Catalog.open Catalog.open
      (fun h h' e e' => h = h' ∧ HasSnapshot h.scope h.name ∧ Twins dataDir f₀ e e')
      (Twins dataDir f₀) := by
  unfold Catalog.open
  refine (relates_open .catalog).bind_eq fun h? => ?_
  cases h? with
  | some h => exact Relates.pure fun _ _ ⟨has, twins⟩ => ⟨rfl, has h rfl, twins⟩
  | none =>
    refine ((relates_createDatabase .catalog).mono_pre fun _ _ h => h.2).bind fun _ _ =>
      ((relates_open .catalog).mono_pre fun _ _ h => h.2).bind_eq fun h? => ?_
    cases h? with
    | none => exact Relates.throw fun _ _ h => h.2
    | some h =>
      refine Relates.fact fun has => ?_
      exact (relates_edit h _).bind fun _ _ => Relates.pure fun _ _ twins =>
        ⟨rfl, has h rfl, twins.2⟩

end Engine

end Tabular
