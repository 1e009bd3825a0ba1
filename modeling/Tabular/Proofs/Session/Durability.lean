import Mathlib.Control.Monad.Basic
import Tabular.Proofs.Session.Settled

/-!
A session that is saved at its end.

What a process has in memory when its only session has been saved is what the next process finds in
the folder: `SHOW` lists the same rows, `INIT` opens the same names, and each name is that of the
same database (`World.Restores`). Main statement: `World.restores_of_requests`, over any folder
without a catalog or with one that has its table (`Catalog.Usable`), for every sequence of requests
of one session of which the last one asks to save. Such a run leaves a folder of this kind again, so
it goes on for any number of processes.
-/

namespace Tabular

/-! ### The catalog of a folder -/

namespace Catalog

variable {dir : Route} {folder : Folder} {clock : Timestamp}

/-- A folder without a catalog, or with one that has its table. -/
def Usable (dir : Route) (folder : Folder) : Prop :=
  folder.fileAt? (Engine.snapshotIn dir .system database).path = none ∨
    ∃ db, Ready db ∧
      folder.stat (Engine.snapshotIn dir .system database) = .ok (.file db.snapshot)

theorem usable_empty (dir : Route) : Usable dir Folder.empty := by
  refine .inl ?_
  unfold Folder.fileAt?
  rw [Folder.entryAt?_of_ne_nil (Engine.path_snapshotIn_ne_nil Session.plainName_catalog)]
  rfl

/-- There is no catalog yet, or it has its table. -/
def Healthy (dir : Route) (e : Engine) : Prop :=
  Fresh dir e ∨ Stands dir Ready Ready e

theorem healthy_new (usable : Usable dir folder) (valid : clock.isValid = true) :
    Healthy dir (Engine.new (some dir) folder clock) := by
  obtain missing | ⟨db, ready, hstat⟩ := usable
  · exact .inl (.inl ⟨by simp [Engine.new], missing, valid⟩)
  · exact .inr ⟨⟨db, ready, hstat⟩, fun c hc => by simp [Engine.new] at hc⟩

/-- A catalog with its table can be searched for the names of databases. -/
theorem exists_rows [PatternCompiler] {db : Database} (ready : Ready db) {pattern : Option String}
    (compiles : ∀ raw ∈ pattern, PatternCompiler.refusal? (Request.value raw.toList) = none) :
    ∃ rows, db.find (Session.listed pattern) = .ok rows := by
  obtain ⟨-, names, lists⟩ := ready
  cases pattern with
  | none => exact ⟨_, find_listed lists⟩
  | some raw =>
    obtain ⟨-, hrows⟩ | ⟨reason, hrefused, -⟩ :=
      find_like_cases lists (Request.value raw.toList)
    · exact hrows
    · exact absurd ((compiles raw rfl).symm.trans hrefused) (by simp)

end Catalog

/-! ### What is found -/

namespace Engine

variable {e : Engine} {scope : Scope} {name : String}

/-- A database that is found is loaded. -/
theorem exists_load_of_found {db : Database} (hfound : e.found scope name = .ok (some db)) :
    ∃ c e', exec (load scope name) e = (.ok (some c), e') ∧ e'.state c = db := by
  have hmap := map_state_of_load scope name e
  rw [hfound] at hmap
  rcases hload : exec (load scope name) e with ⟨err | _ | c, e'⟩ <;> rw [hload] at hmap
  · exact nomatch hmap
  · exact nomatch hmap
  · exact ⟨c, e', rfl, Option.some.inj (Except.ok.inj hmap)⟩

/-- Where nothing needs saving, the next process finds every database of the users as it was. -/
theorem Settled.found_new (settled : e.Settled none) (clock : Timestamp) (name : String) :
    (Engine.new e.dataDir e.folder clock).found .data name = e.found .data name := by
  have hnew : (Engine.new e.dataDir e.folder clock).found .data name = e.stored .data name := by
    simp [found, Engine.new, stored, snapshotRoute?]
  rw [hnew]
  unfold found
  cases hlive : e.live.get? .data name with
  | none => rfl
  | some c =>
    refine settled.filed name c hlive ?_
    intro active hnone
    exact absurd hnone.symm (Option.some_ne_none active)

end Engine

namespace Session

variable {dir : Route} {e : Engine} {name : String} {p : Interpreter × Session}

theorem exec_catalog_of_found {db : Database} (hfound : p.1.catalogFound = .ok (some db)) :
    ∃ c p', exec catalog p = (.ok c, p') ∧ p'.1.engine.databaseOf c = db := by
  rw [exec_catalog]
  cases hc : p.1.catalog with
  | some c =>
    unfold Interpreter.catalogFound at hfound
    rw [hc] at hfound
    exact ⟨c, p, rfl, Option.some.inj (Except.ok.inj hfound)⟩
  | none =>
    rw [Interpreter.catalogFound_of_none hc] at hfound
    obtain ⟨c, e', hload, hstate⟩ := Engine.exists_load_of_found hfound
    dsimp only
    rw [Catalog.exec_open_of_load hload]
    exact ⟨_, _, rfl, hstate⟩

/-- `SHOW` lists the rows of the catalog that is found. -/
theorem answer_listDatabases [PatternCompiler] {db : Database}
    (hfound : p.1.catalogFound = .ok (some db))
    (pattern : Option String) :
    (exec (listDatabases pattern) p).1 =
      ((db.find (listed pattern)).map Outcome.rows).mapError Error.storage := by
  obtain ⟨c, p', hcatalog, rfl⟩ := exec_catalog_of_found hfound
  rw [exec_listDatabases, hcatalog]
  dsimp only
  rw [exec_storage]
  unfold Engine.find
  rw [Engine.exec_query]
  cases (p'.1.engine.databaseOf c).find (listed pattern) with
  | error err => rfl
  | ok rows => rfl

/-- The database that a session has selected. -/
def selected (p : Interpreter × Session) : Option Database :=
  p.2.active.map p.1.engine.databaseOf

/-- `INIT` selects the database that is found, where nothing needs saving before. -/
theorem exec_select_of_found (hsave : exec saveActive p = (.ok (), p)) {db : Database}
    (hfound : p.1.engine.found .data name = .ok (some db)) :
    ∃ p', exec (select name) p = (.ok (.message ("Using database: " ++ name)), p') ∧
      selected p' = some db := by
  obtain ⟨c, e', hload, hstate⟩ := Engine.exists_load_of_found hfound
  rw [exec_select, hsave]
  dsimp only
  rw [exec_storage, Engine.exec_open, hload]
  exact ⟨_, rfl, congrArg some hstate⟩

/-- It fails where none is found. -/
theorem answer_select_of_not_found (hsave : exec saveActive p = (.ok (), p))
    (hfound : ∀ db, p.1.engine.found .data name ≠ .ok (some db)) :
    (exec (select name) p).1 = match p.1.engine.found .data name with
      | .error err => .error (.storage err)
      | .ok _ => .error (.unknownDatabase name) := by
  have hmap := Engine.map_state_of_load .data name p.1.engine
  rw [exec_select, hsave]
  dsimp only
  rw [exec_storage, Engine.exec_open]
  rcases hload : exec (Engine.load .data name) p.1.engine with ⟨err | _ | c, e'⟩ <;>
    rw [hload] at hmap
  · rw [← hmap]
    rfl
  · rw [← hmap]
    rfl
  · exact absurd hmap.symm (hfound _)

/-- `INIT` goes the same way where the same database is found. -/
theorem select_congr {q : Interpreter × Session} (hp : exec saveActive p = (.ok (), p))
    (hq : exec saveActive q = (.ok (), q))
    (hfound : q.1.engine.found .data name = p.1.engine.found .data name) :
    (exec (select name) q).1 = (exec (select name) p).1 ∧
      ∀ outcome, (exec (select name) p).1 = .ok outcome →
        selected (exec (select name) q).2 = selected (exec (select name) p).2 := by
  by_cases hdb : ∃ db, p.1.engine.found .data name = .ok (some db)
  · obtain ⟨db, hdb⟩ := hdb
    obtain ⟨p', hp', hpdb⟩ := exec_select_of_found hp hdb
    obtain ⟨q', hq', hqdb⟩ := exec_select_of_found hq (hfound.trans hdb)
    rw [hp', hq']
    exact ⟨rfl, fun _ _ => hqdb.trans hpdb.symm⟩
  · rw [not_exists] at hdb
    rw [answer_select_of_not_found hp hdb,
      answer_select_of_not_found hq fun db h => hdb db (hfound.symm.trans h), hfound]
    refine ⟨rfl, fun outcome h => ?_⟩
    split at h <;> exact nomatch h

/-- To save the selected database again changes nothing. -/
theorem Rests.exec_saveActive (rests : Rests dir e p) : exec saveActive p = (.ok (), p) := by
  rw [Session.exec_saveActive]
  cases hactive : p.2.active with
  | none => rfl
  | some h =>
    have hlive := rests.settles.settled.current h hactive
    have plain := (rests.settled.database h.name h.cell hlive).1
    dsimp only
    rw [exec_storage, Engine.exec_save_of_stat rests.settles.dataDir plain
      (rests.written h hactive)]

end Session

/-! ### Worlds -/

/-- The client to whom a step belongs. -/
def Step.client? : Step → Option Nat
  | .statement client _ => some client
  | .save client => some client
  | .restart _ => none

namespace World

open Catalog

variable {w v : World} {dir : Route} {client : Nat}

section

variable [PatternCompiler]

/-- What a client of a world finds, a client of another one finds as well. -/
structure Restores (w v : World) (client : Nat) : Prop where
  /-- `SHOW` is answered in the same way, by rows unless the pattern cannot be compiled. -/
  shows : ∀ text pattern, Statement.parse text = .ok (.show pattern) →
    v.answer client (Session.execute text) = w.answer client (Session.execute text) ∧
      ((∀ raw ∈ pattern, PatternCompiler.refusal? (Request.value raw.toList) = none) →
        ∃ rows, w.answer client (Session.execute text) = .ok (.rows rows))
  /-- `INIT` is answered in the same way. -/
  inits : ∀ text name, Statement.parse text = .ok (.init name) →
    v.answer client (Session.execute text) = w.answer client (Session.execute text)
  /-- Where `INIT` succeeds, it selects the same database. -/
  selects : ∀ text name outcome, Statement.parse text = .ok (.init name) →
    w.answer client (Session.execute text) = .ok outcome →
    Session.selected ((v.afterAct client (Session.execute text)).view client) =
      Session.selected ((w.afterAct client (Session.execute text)).view client)
  /-- Under every name, in memory or in the folder, the same database is found, or none, or it
  cannot be read. -/
  databases : ∀ name, v.engine.found .data name = w.engine.found .data name

/-- **After a saving, the next process finds all that there was.** -/
theorem restores_of_rests (rests : Session.Rests dir w.engine (w.view client))
    (written : Session.CatalogWritten dir w.interpreter) (stands : Stands dir Ready Ready w.engine)
    (clock : Timestamp) : w.Restores (w.restarted clock) client := by
  obtain ⟨c, hc, hstat⟩ := written
  have hdir : w.engine.dataDir = some dir := rests.settles.dataDir
  have ready : Ready (w.engine.databaseOf c) :=
    stands.memory c.cell (rests.settles.sees.interpreter.catalog c hc).live
  have found : ∀ name, (w.restarted clock).engine.found .data name = w.engine.found .data name :=
    rests.settled.found_new clock
  have hinit : ∀ name, _ := fun name => Session.select_congr rests.exec_saveActive
    (Session.exec_saveActive ((w.restarted clock).view client)) (found name)
  have hcatalog : w.interpreter.catalogFound = .ok (some (w.engine.databaseOf c)) := by
    unfold Interpreter.catalogFound
    rw [hc]
    rfl
  have hcatalog' : (w.restarted clock).interpreter.catalogFound =
      .ok (some (w.engine.databaseOf c)) := by
    rw [Interpreter.catalogFound_of_none rfl]
    exact Engine.stored_of_stat (e := Engine.new w.engine.dataDir w.engine.folder clock) hdir
      ready.1 hstat
  refine ⟨fun text pattern hparse => ?_, fun text name hparse => ?_,
    fun text name outcome hparse hok => ?_, found⟩
  · have hw := Session.answer_listDatabases (p := w.view client) hcatalog pattern
    have hv := Session.answer_listDatabases (p := (w.restarted clock).view client) hcatalog' pattern
    unfold answer
    rw [exec_execute hparse, exec_execute hparse]
    refine ⟨hv.trans hw.symm, fun compiles => ?_⟩
    obtain ⟨rows, hrows⟩ := exists_rows ready compiles
    rw [hrows] at hw
    exact ⟨rows, hw⟩
  · unfold answer
    rw [exec_execute hparse, exec_execute hparse]
    exact (hinit name).1
  · unfold answer at hok
    unfold afterAct
    rw [exec_execute hparse] at hok
    rw [view_withView, view_withView, exec_execute hparse, exec_execute hparse]
    exact (hinit name).2 outcome hok

/-! ### Runs of one client -/

theorem client?_of_mem_batchSteps {batch : List String} {step : Step}
    (h : step ∈ batchSteps client w batch) : step.client? = some client := by
  induction batch generalizing w with
  | nil => exact absurd h List.not_mem_nil
  | cons raw rest ih =>
    rw [batchSteps] at h
    rcases List.mem_cons.1 h with rfl | h
    · rfl
    · split at h
      · exact ih h
      · exact absurd h List.not_mem_nil

theorem client?_of_mem_callSteps {headers : Keyed String} {body : Option String} {step : Step}
    (h : step ∈ w.callSteps (.request client headers body)) : step.client? = some client := by
  rcases List.mem_append.1 h with h | h
  · exact client?_of_mem_batchSteps h
  · split at h
    · rw [List.mem_singleton.1 h]
      rfl
    · exact absurd h List.not_mem_nil

/-- The requests of one client, each with its headers and its body. -/
def requestsOf (client : Nat) (requests : List (Keyed String × Option String)) : List Call :=
  requests.map fun r => .request client r.1 r.2

theorem client?_of_mem_steps {requests : List (Keyed String × Option String)} {step : Step}
    (h : step ∈ w.steps (requestsOf client requests)) : step.client? = some client := by
  induction requests generalizing w with
  | nil => exact absurd h List.not_mem_nil
  | cons r requests ih =>
    rcases List.mem_append.1 h with h | h
    · exact client?_of_mem_callSteps h
    · exact ih h

/-- **A step of the only session at work** keeps its engine settled. -/
theorem settles_after (settles : Session.Settles dir w.engine (w.view client)) {step : Step}
    (hclient : step.client? = some client) (io : w.IoFree step) :
    Session.Settles dir (w.after step).engine ((w.after step).view client) := by
  cases step with
  | restart clock => exact nomatch hclient
  | save c =>
    obtain rfl : c = client := Option.some.inj hclient
    rw [after, afterAct, view_withView]
    exact (Session.holds_of_ensures' Session.settles_save settles
      (answer_of_ioFree_save io)).rebase
  | statement c text =>
    obtain rfl : c = client := Option.some.inj hclient
    have hio := answer_of_ioFree io
    rw [after, afterAct, view_withView]
    cases hparse : Statement.parse text with
    | error cause =>
      rw [exec_execute_of_error hparse]
      exact settles
    | ok st =>
      rw [exec_execute hparse] at hio ⊢
      exact (Session.holds_of_ensures'
        (Session.settles_dispatch (Statement.no_slash_of_parse hparse)) settles hio).rebase

/-- A step of a client keeps a catalog that is not lost. -/
theorem healthy_after (follows : w.Follows dir (Healthy dir)) {step : Step}
    (hclient : step.client? = some client) (io : w.IoFree step) :
    (w.after step).Follows dir (Healthy dir) ∧
      (step = .save client → (w.after step).Follows dir (Stands dir Ready Ready)) := by
  have hcases : w.Follows dir (Fresh dir) ∨ w.Follows dir (Stands dir Ready Ready) :=
    follows.holds.imp follows.of_holds follows.of_holds
  cases step with
  | restart clock => exact nomatch hclient
  | save c =>
    have saved : (w.after (.save c)).Follows dir (Stands dir Ready Ready) :=
      hcases.elim (follows_save opens_fresh · io)
        (follows_save (opens_stands kept_ready.valid) · io)
    exact ⟨saved.mono fun _ h => .inr h, fun _ => saved⟩
  | statement c text =>
    refine ⟨?_, fun h => nomatch h⟩
    exact hcases.elim
      (fun h => (follows_statement opens_fresh kept_ready h io).mono fun _ h => .inl h)
      fun h => (follows_statement (opens_stands kept_ready.valid) kept_ready h io).mono
        fun _ h => .inr h

/-- What holds while one client is at work. -/
theorem settles_run {steps : List Step} (settles : Session.Settles dir w.engine (w.view client))
    (follows : w.Follows dir (Healthy dir)) (clients : ∀ step ∈ steps, step.client? = some client)
    (io : Along IoFree w steps) :
    Session.Settles dir (w.run steps).engine ((w.run steps).view client) ∧
      (w.run steps).Follows dir (Healthy dir) := by
  have along : Along (fun w step => w.IoFree step ∧ step.client? = some client) w steps :=
    along_iff.2 fun before step rest hsteps =>
      ⟨along_iff.1 io before step rest hsteps, clients step (hsteps ▸ by simp)⟩
  refine run_invariant (I := fun w => Session.Settles dir w.engine (w.view client) ∧
    w.Follows dir (Healthy dir)) ⟨settles, follows⟩ along ?_
  rintro w step ⟨settles, follows⟩ ⟨io, hclient⟩
  exact ⟨settles_after settles hclient io, (healthy_after follows hclient io).1⟩

/-- A saving succeeds, unless the file system fails or the catalog is lost. -/
theorem exists_answer_of_save (follows : w.Follows dir (Healthy dir))
    (io : w.IoFree (.save client)) : ∃ u, (exec Session.save (w.view client)).1 = .ok u := by
  have saved : ∀ {K P}, Opens dir K P Ready → w.Follows dir K →
      ∃ u, (exec Session.save (w.view client)).1 = .ok u := by
    intro K P opens follows
    obtain ⟨u, hu, -⟩ | ⟨err, herr, hfalse⟩ :=
      (Session.catalog_save opens).cases (follows.tracks client)
    · exact ⟨u, hu⟩
    · exact (hfalse fun kind hkind => answer_of_ioFree_save io kind (by rw [herr, hkind])).elim
  obtain fresh | stands := follows.holds
  · exact saved opens_fresh (follows.of_holds fresh)
  · exact saved (opens_stands kept_ready.valid) (follows.of_holds stands)

/-- **A saving of the only session at work** puts everything into the folder. -/
theorem saved_of_save (settles : Session.Settles dir w.engine (w.view client))
    (follows : w.Follows dir (Healthy dir)) (io : w.IoFree (.save client)) :
    Session.Rests dir (w.after (.save client)).engine ((w.after (.save client)).view client) ∧
      Session.CatalogWritten dir (w.after (.save client)).interpreter := by
  rw [after, afterAct, view_withView]
  obtain ⟨u, hu⟩ := exists_answer_of_save follows io
  obtain ⟨-, -, rests, written⟩ | ⟨err, herr, -⟩ := Session.rests_save.cases settles
  · exact ⟨⟨rests.settles.rebase, rests.settled, rests.written⟩, written⟩
  · exact absurd (hu.symm.trans herr) (by simp)

/-- The last step of requests of which the last one asks to save. -/
theorem exists_steps_before_save (w : World) (client : Nat)
    (requests : List (Keyed String × Option String)) {headers : Keyed String}
    {body : Option String} (asks : Session.asksToSave headers = true)
    (answered : ((requestsOf client requests).foldl serve w).Answers
      (.request client headers body)) :
    ∃ before, w.steps (requestsOf client (requests ++ [(headers, body)])) =
      before ++ [.save client] := by
  refine ⟨w.steps (requestsOf client requests) ++
    batchSteps client ((requestsOf client requests).foldl serve w) (batch body), ?_⟩
  rw [requestsOf, List.map_append, steps_append, List.append_assoc]
  change _ ++ (callSteps _ _ ++ []) = _
  rw [callSteps, if_pos ⟨asks, answers_iff.1 answered⟩, List.append_nil]
  rfl

/-- **What one session leaves is there for the next process**: after any requests of one session
over a folder without a catalog or with one that has its table, where the last request asks to save
and is answered, and the file system does not fail, a new process over the same folder finds all
that there was. The folder has a catalog with its table then. -/
theorem restores_of_requests {folder : Folder} {clock : Timestamp}
    {requests : List (Keyed String × Option String)} {headers : Keyed String}
    {body : Option String} (valid : clock.isValid = true) (usable : Usable dir folder)
    (asks : Session.asksToSave headers = true)
    (answered : ((requestsOf client requests).foldl serve
      (start (Engine.new (some dir) folder clock))).Answers (.request client headers body))
    (io : Along IoFree (start (Engine.new (some dir) folder clock))
      ((start (Engine.new (some dir) folder clock)).steps
        (requestsOf client (requests ++ [(headers, body)])))) :
    let w := (requestsOf client (requests ++ [(headers, body)])).foldl serve
      (start (Engine.new (some dir) folder clock))
    Usable dir w.engine.folder ∧ ∀ clock', w.Restores (w.restarted clock') client := by
  intro w
  obtain ⟨before, hbefore⟩ := exists_steps_before_save
    (start (Engine.new (some dir) folder clock)) client requests asks answered
  have clients : ∀ step ∈ before, step.client? = some client := fun step hstep =>
    client?_of_mem_steps (hbefore ▸ List.mem_append_left _ hstep)
  rw [hbefore] at io
  obtain ⟨ioBefore, ioSave, -⟩ := along_append.1 io
  obtain ⟨settles, follows⟩ := settles_run
    ⟨(start_sound (some dir) folder clock).sees client, rfl, Engine.settled_new valid⟩
    (start_follows (healthy_new usable valid)) clients ioBefore
  have hw : w = ((start (Engine.new (some dir) folder clock)).run before).after
      (.save client) := by
    change List.foldl serve _ _ = _
    rw [← run_steps, hbefore, run_append]
    rfl
  rw [hw]
  obtain ⟨rests, written⟩ := saved_of_save settles follows ioSave
  have stands := ((healthy_after follows rfl ioSave).2 rfl).holds
  exact ⟨.inr stands.filed, restores_of_rests rests written stands⟩

end

/-- Three requests, one of which fails, and only the last of which asks to save. -/
theorem restores_of_three_requests :
    let start := start (Engine.new (some ["home"]) Folder.empty Timestamp.epoch)
    let requests : List (Keyed String × Option String) :=
      [(Keyed.empty, some "CREATE DATABASE a;INIT a;CREATE TABLE t (id as primary_key, x)"),
        (Keyed.empty, some "INSERT t 1, 'u';INSERT t 1, 'v'")]
    let calls := requestsOf 0
      (requests ++ [(Keyed.ofList [("Save", "")], some "CREATE DATABASE b")])
    let w := calls.foldl serve start
    Along IoFree start (start.steps calls) ∧ Usable ["home"] w.engine.folder ∧
      ∀ clock, w.Restores (w.restarted clock) 0 := by
  intro start requests calls w
  have io : Along IoFree start (start.steps calls) := by decide +kernel
  exact ⟨io, restores_of_requests (by decide) (usable_empty ["home"]) (by decide +kernel)
    (by decide +kernel) io⟩

end World

end Tabular
