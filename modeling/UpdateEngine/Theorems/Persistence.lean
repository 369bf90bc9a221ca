import UpdateEngine.Firmware.Lives
import UpdateEngine.Theorems.Operators

/-!
# The two tables of the service are those of the database

The threads of the service work on a list of tasks and a list of components. `Alongside` carries each of their operations on the two
lists out on a database too, as the call of the operator it stands for; `Kept` does so from one process to the next. As long as the
relational store refuses no call, the database keeps the rows of the two lists, and answers each query with them.
-/

namespace UpdateEngine

open Concurrent

/-! ## Rows -/

/-- `UpgradeStatus` as the `int` it is. -/
def UpgradeStatus.toInt32 : UpgradeStatus → Int32
  | .init => 0
  | .checkingVersion => 10
  | .checkVersionFail => 11
  | .checkVersionSuccess => 12
  | .downloading => 20
  | .downloadPause => 21
  | .downloadCancel => 22
  | .downloadFail => 23
  | .downloadSuccess => 24
  | .verifying => 30
  | .verifyFail => 31
  | .verifySuccess => 32
  | .packageTransing => 70
  | .packageTransFail => 71
  | .packageTransSuccess => 72
  | .installing => 80
  | .installFail => 81
  | .installSuccess => 82
  | .updating => 90
  | .updateFail => 91
  | .updateSuccess => 92

/-- No two statuses are one number. -/
theorem UpgradeStatus.toInt32_inj {s s' : UpgradeStatus} (h : s.toInt32 = s'.toInt32) : s = s' := by
  cases s <;> cases s' <;> first | rfl | exact absurd h (by decide)

def PackageType.toInt32 : PackageType → Int32
  | .dynamic => 0
  | .normal => 1

def CombinationType.toInt32 : CombinationType → Int32
  | .invallidType => 0
  | .hota => 1

def DownloadMode.toInt32 : DownloadMode → Int32
  | .manual => 0
  | .auto => 1

def UpgradeMode.toInt32 : UpgradeMode → Int32
  | .manual => 0
  | .night => 1

/-- A component as the database knows it, without the number of its row. -/
def FirmwareComponent.row (c : FirmwareComponent) : Db.FirmwareComponent where
  versionId := c.versionId
  packageIndex := c.packageIndex
  versionPackageType := c.versionPackageType.toInt32
  targetBlVersionNumber := c.targetBlVersionNumber
  targetBlDisplayVersionNumber := c.targetBlDisplayVersionNumber
  versionNumber := c.versionNumber
  blVersionInfo := c.blVersionInfo
  componentId := c.componentId
  descriptPackageId := c.descriptPackageId
  changelogUrl := c.changelogUrl
  blVersionType := c.blVersionType
  isNeedRestart := c.isNeedRestart
  patchType := c.patchType
  url := c.url
  reserveUrl := c.reserveUrl
  storageType := c.storageType
  fileName := c.fileName
  size := c.size
  verifyInfo := c.verifyInfo
  spath := c.spath
  status := c.status.toInt32
  progress := c.progress

/-- A component is known by its row. -/
theorem FirmwareComponent.row_inj {c c' : FirmwareComponent} (h : c.row = c'.row) : c = c' := by
  have htype : ∀ {t t' : PackageType}, t.toInt32 = t'.toInt32 → t = t' := by
    intro t t' h
    cases t <;> cases t' <;> first | rfl | exact absurd h (by decide)
  cases c
  cases c'
  simp only [row, Db.FirmwareComponent.mk.injEq] at h
  simp only [FirmwareComponent.mk.injEq]
  exact ⟨by tauto, by tauto, htype (by tauto), by tauto, by tauto, by tauto, by tauto, by tauto, by tauto, by tauto, by tauto, by tauto,
    by tauto, by tauto, by tauto, by tauto, by tauto, by tauto, by tauto, by tauto, UpgradeStatus.toInt32_inj (by tauto), by tauto⟩

/-- A task as the database knows it; the service leaves the members alone that are about an authentication. -/
def FirmwareTask.row (t : FirmwareTask) : Db.FirmwareTask where
  taskId := t.taskId
  status := t.status.toInt32
  progress := t.progress
  errorCode := t.errorCode
  errorMsg := t.errorMsg
  isExistTask := t.isExistTask
  downloadTaskId := t.downloadTaskId
  combinationType := t.combinationType.toInt32
  downloadOrder := Int32.ofInt t.downloadOrder.value
  downloadAllowNetwork := Int32.ofNat t.downloadAllowNetwork.value
  downloadMode := t.downloadMode.toInt32
  upgradeOrder := Int32.ofInt t.upgradeOrder.value
  upgradeMode := t.upgradeMode.toInt32

/-- The update of the operator that a change of the task table is. -/
def TaskUpdate.row : TaskUpdate → Db.TaskUpdate
  | .progress s p => .progress s.toInt32 p
  | .downloadOption m n o => .downloadOption m.toInt32 (Int32.ofNat n.value) (Int32.ofInt o.value)
  | .downloadTaskId i => .downloadTaskId i
  | .upgradeMode m => .upgradeMode m.toInt32

theorem TaskUpdate.row_apply (t : FirmwareTask) (u : TaskUpdate) : (u.apply t).row = u.row.apply t.row := by
  cases u <;> rfl

/-- The records the two lists stand for. -/
def records (tasks : List FirmwareTask) (components : List FirmwareComponent) : Db.Records :=
  { tasks := tasks.map (·.row), components := components.map (·.row) }

/-! ## Operations as calls -/

/-- The call of an operator that an operation on a table is. -/
def Op.dbCall : Op → Option Db.Call
  | .queryTasks _ => some (.queryTask {})
  | .insertTask t => some (.insertTask t.row)
  | .updateTasks _ i u => some (.updateByTaskId i u.row)
  | .deleteTasks => some .deleteTasks
  | .queryComponents _ => some .queryComponents
  | .insertComponents l => some (.insertComponents (l.map (·.row)))
  | .updateComponents _ (.progressByUrl url s p) => some (.updateProgressByUrl url s.toInt32 p)
  | .updateComponents _ (.urlByVersionId v url) => some (.updateUrlByVersionId v url)
  | .deleteComponents => some .deleteComponents
  | _ => none

/-- What the call comes back with when the thread is given this answer: of the tasks, it is the first one. -/
def Op.found : (o : Op) → o.Res → Db.Result
  | .queryTasks _, l => .task ((l.head?.map fun t => { t.row with isExistTask := true }).getD {})
  | .queryComponents _, l => .components (some (l.map (·.row)))
  | _, _ => .bool true

/-- What an operation does to the database, no call of which is refused. -/
def Op.onDb (isNeedRestart : Bool) (db : Rdb.SqliteDb) (o : Op) : Rdb.SqliteDb :=
  match o.dbCall with
  | some call => (call.run isNeedRestart {} db).2
  | none => db

/-- What comes back from a query of the database is what the thread was given, as far as it is persisted. -/
def Op.Agrees (isNeedRestart : Bool) (db : Rdb.SqliteDb) (o : Op) (x : o.Res) : Prop :=
  ∀ call, o.dbCall = some call → (call.run isNeedRestart {} db).1.persisted = (o.found x).persisted

/-- An operation that is no call leaves both lists alone. -/
theorem Op.records_after_of_none {n : Thread} {s : State} {o : Op} {x : o.Res} (h : o.dbCall = none) :
    (o.after n s x).tasks = s.tasks ∧ (o.after n s x).components = s.components := by
  cases o with
  | updateComponents c u => cases u <;> cases h
  | queryTasks | insertTask | updateTasks | deleteTasks | queryComponents | insertComponents | deleteComponents => cases h
  | openFile p => cases x <;> exact ⟨rfl, rfl⟩
  | saveDataToFile p d => cases x <;> exact ⟨rfl, rfl⟩
  | awaitWake i => cases x <;> exact ⟨rfl, rfl⟩
  | enter m => cases m <;> exact ⟨rfl, rfl⟩
  | _ => exact ⟨rfl, rfl⟩

/-- An operation that is a call does to the two lists what the call does to the records. -/
theorem Op.perform_dbCall {n : Thread} {a : Answer} {s : State} {o : Op} {x : o.Res} {c : Db.Call} (hx : o.answer n a s = some x)
    (h : o.dbCall = some c) :
    c.perform (records s.tasks s.components) = (o.found x, records (o.after n s x).tasks (o.after n s x).components) := by
  cases o with
  | queryTasks k =>
    cases h
    cases hx
    cases htasks : s.tasks <;> simp [Db.Call.perform, records, Op.found, Op.after, Op.effect, State.note, htasks]
  | insertTask t =>
    cases h
    simp [Db.Call.perform, records, Op.found, Op.after, Op.effect]
  | updateTasks k i u =>
    cases h
    simp only [Db.Call.perform, records, Op.found, Op.after, Op.effect, List.map_map]
    congr 2
    refine List.map_congr_left ?_
    intro t _
    have hrow : t.row.taskId = t.taskId := rfl
    by_cases hid : t.taskId = i <;> simp [hrow, hid, TaskUpdate.row_apply]
  | deleteTasks =>
    cases h
    rfl
  | queryComponents k =>
    cases h
    cases hx
    rfl
  | insertComponents l =>
    cases h
    simp [Db.Call.perform, records, Op.found, Op.after, Op.effect]
  | updateComponents k u =>
    cases u with
    | progressByUrl url status progress =>
      cases h
      simp only [Db.Call.perform, records, Op.found, Op.after, Op.effect, List.map_map]
      congr 2
      refine List.map_congr_left ?_
      intro r _
      by_cases hurl : r.url = url <;> simp [FirmwareComponent.row, ComponentUpdate.apply, hurl]
    | urlByVersionId v url =>
      cases h
      simp only [Db.Call.perform, records, Op.found, Op.after, Op.effect, List.map_map]
      congr 2
      refine List.map_congr_left ?_
      intro r _
      by_cases hv : r.versionId = v <;> simp [FirmwareComponent.row, ComponentUpdate.apply, hv]
  | deleteComponents =>
    cases h
    rfl
  | _ => cases h

section Step

variable {isNeedRestart : Bool} {db : Rdb.SqliteDb} {n : Thread} {a : Answer} {s : State} {o : Op} {x : o.Res}

/-- An operation keeps the rows of the two lists in the database, and a query is answered with them. -/
theorem Op.keeps (h : Db.Keeps isNeedRestart db (records s.tasks s.components)) (hx : o.answer n a s = some x) :
    Db.Keeps isNeedRestart (o.onDb isNeedRestart db) (records (o.after n s x).tasks (o.after n s x).components) ∧
      o.Agrees isNeedRestart db x := by
  cases hcall : o.dbCall with
  | none =>
    obtain ⟨htasks, hcomponents⟩ := Op.records_after_of_none (n := n) (s := s) (x := x) hcall
    rw [htasks, hcomponents, Op.onDb, hcall]
    exact ⟨h, fun c hc => by cases hcall.symm.trans hc⟩
  | some c =>
    have hperform := Op.perform_dbCall hx hcall
    have hperforms : c.performs {} db.isOpen = true := by
      cases c <;> simp [Db.Call.performs]
    obtain ⟨hresult, hkeeps, -⟩ := c.follows (a := {}) h
    rw [Db.Call.onRecords, hperforms, if_pos rfl, hperform] at hresult hkeeps
    refine ⟨by rwa [Op.onDb, hcall], ?_⟩
    intro c' hc'
    cases hcall.symm.trans hc'
    exact hresult

end Step

/-! ## Runs -/

/-- A run of the service beside a database on which its operations are carried out. -/
inductive Alongside (P : Platform) (isNeedRestart : Bool) (c₀ : Config) (db₀ : Rdb.SqliteDb) : Config → Rdb.SqliteDb → Prop
  | refl : Alongside P isNeedRestart c₀ db₀ c₀ db₀
  | start {c c' : Config} {db : Rdb.SqliteDb} {n : Thread} (h : Alongside P isNeedRestart c₀ db₀ c db)
      (hs : (machine P).step c (.start n) = some c') : Alongside P isNeedRestart c₀ db₀ c' db
  | run {c c' : Config} {db : Rdb.SqliteDb} {n : Thread} {a : Answer} {o : Op} (h : Alongside P isNeedRestart c₀ db₀ c db)
      (ho : c.next n = some o) (hs : (machine P).step c (.run n a) = some c') :
      Alongside P isNeedRestart c₀ db₀ c' (o.onDb isNeedRestart db)

/-- A start leaves both lists alone. -/
theorem starts_tables {n : Thread} {s s' : State} (h : starts n s = some s') : s'.tasks = s.tasks ∧ s'.components = s.components := by
  unfold starts at h
  split at h <;> first | (split at h <;> cases h; exact ⟨rfl, rfl⟩) | cases h

/-- In every run the database keeps the rows of the two lists. -/
theorem Alongside.keeps {P : Platform} {isNeedRestart : Bool} {c₀ c : Config} {db₀ db : Rdb.SqliteDb}
    (h : Alongside P isNeedRestart c₀ db₀ c db) (h₀ : Db.Keeps isNeedRestart db₀ (records c₀.state.tasks c₀.state.components)) :
    Db.Keeps isNeedRestart db (records c.state.tasks c.state.components) := by
  induction h with
  | refl => exact h₀
  | start h hs ih =>
    obtain ⟨-, s, hstart, rfl⟩ := step_start hs
    obtain ⟨htasks, hcomponents⟩ := starts_tables hstart
    rw [htasks, hcomponents]
    exact ih
  | run h ho hs ih =>
    obtain ⟨o', k, x, s, hfind, -, -, hexec, rfl⟩ := step_run hs
    obtain rfl : o' = _ := by simpa [Concurrent.Config.next, hfind] using ho
    obtain ⟨-, hx, rfl⟩ := exec_eq_some hexec
    exact (Op.keeps ih hx).1

/-- Every run has a database beside it. -/
theorem exists_alongside {P : Platform} {c₀ c : Config} (isNeedRestart : Bool) (db₀ : Rdb.SqliteDb)
    (h : Reach (machine P) (fun _ _ => True) c₀ c) : ∃ db, Alongside P isNeedRestart c₀ db₀ c db := by
  induction h with
  | refl => exact ⟨db₀, .refl⟩
  | @step _ _ a _ _ hs ih =>
    obtain ⟨db, hdb⟩ := ih
    cases a with
    | start n => exact ⟨db, .start hdb hs⟩
    | run n a =>
      obtain ⟨o, k, -, -, hfind, -⟩ := step_run hs
      exact ⟨_, .run hdb (o := o) (by simp [Concurrent.Config.next, hfind]) hs⟩

/-! ## From one process to the next -/

/-- The database when a process starts: no longer open; and deleted, when the environment is reset. -/
def Rdb.SqliteDb.booted (isNeedRestart : Bool) (startupReason : StartupReason) (db : Rdb.SqliteDb) : Rdb.SqliteDb :=
  let db := (Db.Call.restart.run isNeedRestart {} db).2
  if startupReason = .processEnvReset then (Db.Call.deleteDbStore.run isNeedRestart {} db).2 else db

/-- What processes leave behind, each started from what the one before it left, and the database beside them. What lies outside of
the two tables others may change. -/
inductive Kept (P : Platform) (isNeedRestart : Bool) : Store → Rdb.SqliteDb → Prop
  | new {d : Store} (ht : d.tasks = []) (hc : d.components = []) : Kept P isNeedRestart d {}
  | stopped {d : Store} {db db' : Rdb.SqliteDb} {startupReason : StartupReason} {c : Config} (h : Kept P isNeedRestart d db)
    (hc : Alongside P isNeedRestart (FirmwareManager.init startupReason d).boot (db.booted isNeedRestart startupReason) c db') :
    Kept P isNeedRestart c.state.store db'
  | elsewhere {d d' : Store} {db : Rdb.SqliteDb} (h : Kept P isNeedRestart d db) (ht : d'.tasks = d.tasks)
    (hc : d'.components = d.components) : Kept P isNeedRestart d' db

section Lives

variable {P : Platform} {isNeedRestart : Bool} {d : Store} {db : Rdb.SqliteDb}

/-- A process starts from the rows that are in the database. -/
theorem keeps_booted (startupReason : StartupReason) (h : Db.Keeps isNeedRestart db (records d.tasks d.components)) :
    Db.Keeps isNeedRestart (db.booted isNeedRestart startupReason)
      (records (FirmwareManager.init startupReason d).tasks (FirmwareManager.init startupReason d).components) := by
  have hrestart : Db.Keeps isNeedRestart (Db.Call.restart.run isNeedRestart {} db).2 (records d.tasks d.components) :=
    (Db.Call.restart.follows (a := {}) h).keeps
  by_cases hreset : startupReason = .processEnvReset
  · have hdelete : Db.Keeps isNeedRestart
        (Db.Call.deleteDbStore.run isNeedRestart {} (Db.Call.restart.run isNeedRestart {} db).2).2 (records [] []) :=
      (Db.Call.deleteDbStore.follows (a := {}) hrestart).keeps
    simpa [Rdb.SqliteDb.booted, FirmwareManager.init, hreset] using hdelete
  · simpa [Rdb.SqliteDb.booted, FirmwareManager.init, hreset] using hrestart

theorem Kept.keeps (h : Kept P isNeedRestart d db) : Db.Keeps isNeedRestart db (records d.tasks d.components) := by
  induction h with
  | new ht hc =>
    rw [ht, hc]
    exact Db.keeps_of_no_file rfl rfl
  | stopped h hc ih => exact hc.keeps (keeps_booted _ ih)
  | elsewhere h ht hc ih =>
    rw [ht, hc]
    exact ih

/-- Through any number of processes, in any order of the steps of their threads: the database keeps the rows of the two lists the threads
work on, and a query of it is answered with what the thread that makes it is given. -/
theorem database_keeps_tables {db' : Rdb.SqliteDb} {startupReason : StartupReason} {c : Config} (h : Kept P isNeedRestart d db)
    (hc : Alongside P isNeedRestart (FirmwareManager.init startupReason d).boot (db.booted isNeedRestart startupReason) c db') :
    Db.Keeps isNeedRestart db' (records c.state.tasks c.state.components) ∧
      ∀ n a o x, c.next n = some o → o.answer n a c.state = some x → o.Agrees isNeedRestart db' x := by
  have hkeeps := hc.keeps (keeps_booted startupReason h.keeps)
  exact ⟨hkeeps, fun n a o x _ hx => (Op.keeps hkeeps hx).2⟩

/-- The phone has found a version: its database keeps the task. -/
theorem database_keeps_tables_phone : ∃ (c : Config) (db : Rdb.SqliteDb), c.state.tasks ≠ [] ∧
    Db.Keeps true db (records c.state.tasks c.state.components) ∧ ∀ n a o x, c.next n = some o → o.answer n a c.state = some x → o.Agrees true db x := by
  have h : ((machine .phone).follow (fun _ _ => true)
      ((machine .phone).turns favourable (turnsOf phoneChecks) (Store.boot {})) (Store.boot {})).any (fun c =>
        !c.state.tasks.isEmpty) = true := by decide
  obtain ⟨c, hc, htasks⟩ := Reach.exists_of_follow h
  obtain ⟨db, hdb⟩ := exists_alongside true (Rdb.SqliteDb.booted true .unknown {}) (hc.mono fun _ _ _ => trivial)
  exact ⟨c, db, by simpa using htasks, @database_keeps_tables .phone true {} {} db .unknown c (.new rfl rfl) hdb⟩

end Lives

end UpdateEngine
