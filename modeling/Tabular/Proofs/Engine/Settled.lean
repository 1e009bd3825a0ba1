import Tabular.Proofs.Engine.Survival
import Tabular.Proofs.Wire.Snapshot

/-!
Databases in memory and their snapshots.

Saving writes the selected database and the catalog, and no other one. That is enough where every
other database in memory is in the folder as it is in memory, and `Engine.Settled` says so. It holds
on through whatever is done for a single session: what is loaded comes from the folder, what is
created is written at once, only the selected database is edited, and it is written before another
one is selected. Each operation reaches the database of one name; `Engine.Frame` says that the
others stay as they are.
-/

namespace Tabular.Engine

variable {dir : Route} {scope : Scope} {name m : String} {e e' : Engine} {active : Option Handle}

/-! ### What is stored -/

/-- What is stored has a valid time of creation. -/
theorem createdAt_valid_of_stored {db : Database} (h : e.stored scope name = .ok (some db)) :
    db.createdAt.isValid = true := by
  unfold Engine.stored at h
  split at h
  · simp at h
  · split at h
    · simp at h
    · simp at h
    · split at h
      · simp at h
      · split at h
        · next hdb =>
          obtain rfl := Option.some.inj (Except.ok.inj h)
          exact Database.createdAt_valid_of_ofSnapshot? hdb
        · simp at h

/-- A database whose snapshot stands at the end of its route is stored. -/
theorem stored_of_stat {db : Database} (hdir : e.dataDir = some dir)
    (valid : db.createdAt.isValid = true)
    (hstat : e.folder.stat (snapshotIn dir scope name) = .ok (.file db.snapshot)) :
    e.stored scope name = .ok (some db) := by
  rw [stored_eq hdir, hstat]
  dsimp only
  rw [Database.ofSnapshot?_snapshot valid]

/-! ### The other databases -/

/-- The databases of the users stay as they are, except those of the touched names. -/
structure Frame (touched : String → Prop) (e e' : Engine) : Prop where
  clock : e'.clock = e.clock
  live : ∀ name, ¬touched name → e'.live.get? .data name = e.live.get? .data name
  state : ∀ name c, ¬touched name → e.live.get? .data name = some c → e'.state c = e.state c
  stored : ∀ name db, PlainName name → ¬touched name → e.stored .data name = .ok (some db) →
    e'.stored .data name = .ok (some db)

variable {touched : String → Prop}

theorem Frame.trans {e₁ e₂ e₃ : Engine} (h : Frame touched e₁ e₂) (h' : Frame touched e₂ e₃) :
    Frame touched e₁ e₃ where
  clock := h'.clock.trans h.clock
  live := fun name hn => (h'.live name hn).trans (h.live name hn)
  state := fun name c hn hc =>
    (h'.state name c hn ((h.live name hn).trans hc)).trans (h.state name c hn hc)
  stored := fun name db plain hn hdb => h'.stored name db plain hn (h.stored name db plain hn hdb)

/-- What happens in the scope of the catalog touches no database of the users. -/
theorem Spares.frame (spares : Spares .data e e') (clock : e'.clock = e.clock)
    (leaves : ∀ name, PlainName name → Leaves .data name e e') :
    Frame (fun _ => False) e e' where
  clock := clock
  live := fun name _ => spares.live name
  state := fun name c _ hc => spares.state name c hc
  stored := fun name _ plain _ => (leaves name plain).stored

theorem frame_registered (ordered : e.Ordered) (m : String) (db : Database) :
    Frame (· = m) e (e.registered .data m db) where
  clock := rfl
  live := fun name hn => by
    rw [live_registered, if_neg]
    exact fun h => hn h.2.symm
  state := fun name c _ hc => state_registered_of_lt e .data m db (ordered.cell_lt .data name c hc)
  stored := fun _ _ _ _ h => h

theorem frame_setState (ordered : e.Ordered) {h : Handle}
    (hlive : e.live.get? .data h.name = some h.cell) (db : Database) :
    Frame (· = h.name) e (e.setState h.cell db) where
  clock := rfl
  live := fun _ _ => rfl
  state := fun name c hn hc => by
    rw [state_setState, if_neg]
    rintro ⟨rfl, -⟩
    exact hn (ordered.injective .data name .data h.name _ hc hlive).2
  stored := fun _ _ _ _ h => h

theorem frame_save (h : Handle) (plain : PlainName h.name) (e : Engine) :
    Frame (· = h.name) e (exec (save h) e).2 := by
  have leaves : ∀ name, PlainName name → ¬name = h.name →
      Leaves .data name e (exec (save h) e).2 := fun name plain' hn =>
    leaves_save plain plain' (fun heq => hn heq.2.symm) e
  obtain ⟨folder, hsave⟩ := exec_save_snd h e
  rw [hsave] at leaves ⊢
  exact ⟨rfl, fun _ _ => rfl, fun _ _ _ _ => rfl,
    fun name db plain' hn => (leaves name plain' hn).stored⟩

theorem frame_dropDatabase (plain : PlainName m) (e : Engine) :
    Frame (· = m) e (exec (dropDatabase .data m) e).2 := by
  have leaves : ∀ name, PlainName name → ¬name = m →
      Leaves .data name e (exec (dropDatabase .data m) e).2 := fun name plain' hn =>
    leaves_dropDatabase plain plain' (fun heq => hn heq.2.symm) e
  obtain ⟨folder, hdrop⟩ := exec_dropDatabase_snd .data m e
  rw [hdrop] at leaves ⊢
  refine ⟨rfl, fun name hn => ?_, fun _ _ _ _ => rfl,
    fun name db plain' hn => (leaves name plain' hn).stored⟩
  refine (live_forgotten e .data m .data name).trans (if_neg ?_)
  exact fun h => hn h.2.symm

/-! ### Settled engines -/

/-- Every database of the users in memory is in the folder as it is in memory, except the one of the
active handle. Databases in memory can be written so that they are read again, and the active handle
is that of its name. -/
structure Settled (active : Option Handle) (e : Engine) : Prop where
  clock : e.clock.isValid = true
  database : ∀ name c, e.live.get? .data name = some c →
    PlainName name ∧ (e.state c).createdAt.isValid = true
  filed : ∀ name c, e.live.get? .data name = some c → (∀ h, active = some h → h.name ≠ name) →
    e.stored .data name = .ok (some (e.state c))
  current : ∀ h, active = some h → e.live.get? .data h.name = some h.cell

/-- A new engine has no database in memory. -/
theorem settled_new {folder : Folder} {clock : Timestamp} (valid : clock.isValid = true) :
    (Engine.new (some dir) folder clock).Settled none where
  clock := valid
  database := fun name c hc => by simp [Engine.new] at hc
  filed := fun name c hc => by simp [Engine.new] at hc
  current := fun h hactive => nomatch hactive

/-- What is done to the databases of the touched names has to be known; the others are as they were.
-/
theorem Settled.frame {active' : Option Handle} (settled : Settled active e)
    (frame : Frame touched e e')
    (unselected : ∀ h, active = some h → ¬touched h.name → active' = some h)
    (own : ∀ name c, touched name → e'.live.get? .data name = some c →
      PlainName name ∧ (e'.state c).createdAt.isValid = true ∧
        ((∀ h, active' = some h → h.name ≠ name) → e'.stored .data name = .ok (some (e'.state c))))
    (current : ∀ h, active' = some h → e'.live.get? .data h.name = some h.cell) :
    Settled active' e' where
  clock := frame.clock ▸ settled.clock
  database := by
    intro name c hc
    by_cases hn : touched name
    · exact ⟨(own name c hn hc).1, (own name c hn hc).2.1⟩
    · rw [frame.live name hn] at hc
      rw [frame.state name c hn hc]
      exact settled.database name c hc
  filed := by
    intro name c hc hinactive
    by_cases hn : touched name
    · exact (own name c hn hc).2.2 hinactive
    · rw [frame.live name hn] at hc
      rw [frame.state name c hn hc]
      refine frame.stored name _ (settled.database name c hc).1 hn
        (settled.filed name c hc fun h hactive hname => ?_)
      exact hinactive h (unselected h hactive (hname ▸ hn)) hname
  current := current

/-- Nothing is lost by what touches no database of the users. -/
theorem Settled.spared (settled : Settled active e) (frame : Frame (fun _ => False) e e') :
    Settled active e' :=
  settled.frame frame (fun _ hactive _ => hactive) (fun _ _ h => h.elim) fun h hactive =>
    (frame.live h.name id).trans (settled.current h hactive)

/-- A database that is in the folder as it is in memory can be selected. -/
theorem Settled.select (settled : Settled none e) {h : Handle}
    (hlive : e.live.get? .data h.name = some h.cell) : Settled (some h) e where
  clock := settled.clock
  database := settled.database
  filed := fun name c hc _ => settled.filed name c hc fun _ hnone => nomatch hnone
  current := fun _ hactive => Option.some.inj hactive ▸ hlive

/-- What is loaded is what the folder holds. -/
theorem Settled.load (settled : Settled active e) (ordered : e.Ordered) (plain : PlainName m) :
    Settled active (exec (load .data m) e).2 := by
  rw [exec_load]
  cases hlive : e.live.get? .data m with
  | some cell => exact settled
  | none =>
    rcases hstored : e.stored .data m with err | _ | db
    · exact settled
    · exact settled
    · refine settled.frame (frame_registered ordered m db) (fun _ hactive _ => hactive) ?_ ?_
      · rintro name c rfl hc
        rw [live_registered, if_pos ⟨rfl, rfl⟩] at hc
        rw [← Option.some.inj hc, state_registered]
        exact ⟨plain, createdAt_valid_of_stored hstored, fun _ => hstored⟩
      · intro h hactive
        have hcell := settled.current h hactive
        rw [live_registered, if_neg]
        · exact hcell
        · rintro ⟨-, rfl⟩
          rw [hlive] at hcell
          exact nomatch hcell

/-- The database that is saved is in the folder from then on. -/
theorem Settled.save {h : Handle} (settled : Settled (some h) e) (hdir : e.dataDir = some dir)
    (hscope : h.scope = .data) (hsave : exec (save h) e = (.ok (), e')) : Settled none e' := by
  have hlive := settled.current h rfl
  obtain ⟨plain, valid⟩ := settled.database h.name h.cell hlive
  have hframe := frame_save h plain e
  have hstat := stat_of_save hdir hscope rfl hsave
  obtain ⟨folder, hfolder⟩ := exec_save_snd h e
  rw [hsave] at hframe hfolder
  obtain rfl : e' = { e with folder } := hfolder
  refine settled.frame hframe (fun h' hactive hne => ?_) ?_ fun _ hnone => nomatch hnone
  · rw [← Option.some.inj hactive] at hne
    exact absurd rfl hne
  · rintro name c rfl hc
    obtain rfl : h.cell = c := Option.some.inj (hlive.symm.trans hc)
    exact ⟨plain, valid, fun _ => stored_of_stat hdir valid hstat⟩

/-- The selected database can be edited. -/
theorem Settled.edit {h : Handle} (settled : Settled (some h) e) (ordered : e.Ordered)
    {db : Database} (hcreated : db.createdAt = (e.databaseOf h).createdAt) :
    Settled (some h) (e.setState h.cell db) := by
  have hlive := settled.current h rfl
  obtain ⟨plain, valid⟩ := settled.database h.name h.cell hlive
  refine settled.frame (frame_setState ordered hlive db) (fun _ hactive _ => hactive) ?_
    settled.current
  rintro name c rfl hc
  obtain rfl : h.cell = c := Option.some.inj (hlive.symm.trans hc)
  refine ⟨plain, ?_, fun hinactive => absurd rfl (hinactive h rfl)⟩
  rw [state_setState, if_pos ⟨rfl, ordered.cell_lt .data h.name _ hlive⟩, hcreated]
  exact valid

/-- What is created is written at once. -/
theorem Settled.createDatabase (settled : Settled active e) (ordered : e.Ordered)
    (plain : PlainName m) (hdir : e.dataDir = some dir) {r : Except StorageError Outcome}
    (hcreate : exec (createDatabase .data m) e = (r, e')) (hr : Undisturbed r) :
    Settled active e' := by
  obtain ⟨-, r', hload, -⟩ | ⟨-, hload, hsave⟩ := exec_createDatabase_cases hdir hcreate hr
  · have hsettled := settled.load ordered plain
    rw [hload] at hsettled
    exact hsettled
  · obtain ⟨-, hnone, -⟩ := eq_of_load_none hload
    obtain ⟨hdir', -, -, hlive, hstate, hstat⟩ := exec_save_registered hdir hsave
    have hframe := (frame_registered ordered m (Database.new e.clock)).trans
      (frame_save { scope := .data, name := m, cell := e.states.length } plain _)
    rw [hsave] at hframe
    refine settled.frame hframe (fun _ hactive _ => hactive) ?_ ?_
    · rintro name c rfl hc
      rw [hlive, if_pos ⟨rfl, rfl⟩] at hc
      rw [← Option.some.inj hc, hstate]
      exact ⟨plain, settled.clock, fun _ => stored_of_stat hdir' settled.clock hstat⟩
    · intro h hactive
      have hcell := settled.current h hactive
      rw [hlive, if_neg]
      · exact hcell
      · rintro ⟨-, rfl⟩
        rw [hnone] at hcell
        exact nomatch hcell

/-- A database that is dropped is not selected any more. -/
theorem Settled.dropDatabase (settled : Settled active e) (plain : PlainName m) :
    Settled (active.filter (·.name ≠ m)) (exec (dropDatabase .data m) e).2 := by
  have hframe := frame_dropDatabase plain e
  obtain ⟨folder, hdrop⟩ := exec_dropDatabase_snd .data m e
  rw [hdrop] at hframe ⊢
  have hactive' : ∀ h, active.filter (·.name ≠ m) = some h ↔ active = some h ∧ h.name ≠ m := by
    intro h
    simp [Option.filter_eq_some_iff]
  refine settled.frame hframe (fun h hactive hne => (hactive' h).2 ⟨hactive, hne⟩) ?_ ?_
  · rintro name c rfl hc
    have hnone := (live_forgotten e .data name .data name).symm.trans hc
    rw [if_pos ⟨rfl, rfl⟩] at hnone
    exact nomatch hnone
  · intro h hh
    obtain ⟨hactive, hne⟩ := (hactive' h).1 hh
    exact (hframe.live h.name hne).trans (settled.current h hactive)

/-! ### Saving again -/

/-- To save a database that is in the folder as it is in memory changes nothing. -/
theorem exec_save_of_stat {h : Handle} (hdir : e.dataDir = some dir) (plain : PlainName h.name)
    (hstat : e.folder.stat (snapshotIn dir h.scope h.name) =
      .ok (.file (e.databaseOf h).snapshot)) :
    exec (save h) e = (.ok (), e) := by
  have hroute : e.snapshotRoute? h.scope h.name = some (snapshotIn dir h.scope h.name) := by
    rw [snapshotRoute?, hdir, Option.map_some]
  have hmade : e.folder.makeDirectories (snapshotIn dir h.scope h.name).dropLast =
      .ok e.folder := by
    rw [snapshotIn_eq plain, show dir ++ [h.scope.directory, h.name ++ ".json"] =
      (dir ++ [h.scope.directory]) ++ [h.name ++ ".json"] by simp] at hstat ⊢
    rw [List.dropLast_concat]
    exact Folder.makeDirectories_of_stat hstat
  rw [exec_save, hroute]
  dsimp only
  rw [hmade]
  dsimp only
  rw [Folder.write_of_stat hstat]

end Tabular.Engine
