import Mathlib.Data.List.Forall2
import UpdateEngine.Firmware.Operators
import UpdateEngine.Theorems.Tables

/-!
# The operators keep lists of records

Seen from outside, the two operators keep one list of tasks and one of components: an insertion adds records at the end, an update
changes the members it names in the records it is for, and a query returns the records in their order. A row holds what was last written
of its record, column by column, whichever updates came in between. A call that the relational store does not carry out changes nothing.
-/

namespace UpdateEngine.Rdb

variable {T : Type}

/-! ## Tables that hold records -/

/-- A row holds a record: in each column that is written stands what is written of it. -/
def ITable.Holds (writes : List (ITable.Write T)) (row : Row) (value : T) : Prop := ∀ w ∈ writes, row w.column = w.value value

/-- The table of an operator is there, and its rows hold these records. -/
def RdbStore.Stores (store : RdbStore) (operator : TableBaseOperator T) (values : List T) : Prop :=
  ∃ t, store.table operator.getTableName = some t ∧ t.statement = operator.statement ∧
    List.Forall₂ (ITable.Holds operator.writes) t.rows values

/-- An operator is sound when its columns are columns of its table, each written once, and what is read from a row that holds a record
is this record, as far as it is persisted. -/
structure TableBaseOperator.Sound (operator : TableBaseOperator T) (persisted : T → T) : Prop where
  nodup : (operator.writes.map (·.column)).Nodup
  declared : ∀ w ∈ operator.writes, w.column ∈ operator.statement.allColumns.map Prod.fst
  parses : ∀ row value, ITable.Holds operator.writes row value →
    persisted (ITable.parseDbValue operator.reads (ITable.cells (operator.statement.allColumns.map Prod.fst) row) operator.fresh) =
      persisted value

namespace ITable

theorem holds_written {writes : List (Write T)} (hnodup : (writes.map (·.column)).Nodup) (value : T) (id : Int64) :
    Holds writes (written writes value id) value := by
  intro w hw
  have hcolumns : ((buildDbValue writes value).map Prod.fst).Nodup := by
    simpa [buildDbValue, Function.comp_def] using hnodup
  exact ValuesBucket.onto_of_mem (e := (w.column, w.value value)) hcolumns (List.mem_map.mpr ⟨w, hw, rfl⟩) _

/-- The rounds of `parseDbValues` are enough. -/
theorem parsesDbValues_parseDbValues (reads : List (Read T)) (fresh : T) (r : ResultSet) :
    ParsesDbValues reads fresh r (parseDbValues reads fresh r) := by
  obtain ⟨r', hends⟩ := (parsesDbValues_iff reads fresh r _).mpr rfl
  have hless (s s' : ResultSet × List T) (h : parseRound reads fresh s = some s') :
      s'.1.rows.length - s'.1.pos < s.1.rows.length - s.1.pos := by
    by_cases hend : s.1.rows.length ≤ s.1.pos
    · simp [parseRound, ResultSet.isEnded, hend] at h
    · simp only [parseRound, ResultSet.isEnded, hend, decide_false, Bool.false_eq_true, if_false, Option.some.injEq] at h
      subst h
      simp only [ResultSet.goToNextRow]
      omega
  have hrun := hends.run_of_measure (fun s => s.1.rows.length - s.1.pos) hless (m := r.rows.length + 1) (by
    simp [ResultSet.goToFirstRow])
  exact ⟨r', by rw [parseDbValues, hrun]; exact hends⟩

/-- What a query returns: a value for each row. -/
theorem parseDbValues_eq (reads : List (Read T)) (fresh : T) (r : ResultSet) :
    parseDbValues reads fresh r = r.rows.map fun row => parseDbValue reads (cells r.columns row) fresh :=
  (parsesDbValues_iff reads fresh r _).mp (parsesDbValues_parseDbValues reads fresh r)

end ITable

/-! ## The store -/

namespace RdbStore

variable {store : RdbStore} {t t' : Table} {name : String}

/-- A store in which every table but one is the same. -/
def AgreesBut (name : String) (store store' : RdbStore) : Prop := ∀ n, n ≠ name → store'.table n = store.table n

/-- The table that was put is the one of its name. -/
theorem table_put (h : store.table name = some t) (ht : t'.statement = t.statement) : (store.put t').table name = some t' := by
  have hname : t.statement.name = name := of_decide_eq_true (List.find?_some (p := fun t : Table => t.statement.name = name) h)
  induction store with
  | nil => cases h
  | cons u store ih =>
    simp only [table, List.find?_cons] at h
    by_cases hu : u.statement.name = name
    · simp [put, table, ht, hname, hu]
    · have hfirst : table store name = some t := by simpa [table, hu] using h
      simpa [put, table, ht, hname, hu] using ih hfirst

/-- The other tables are as they were. -/
theorem agreesBut_put (ht : t.statement.name = name) : AgreesBut name store (store.put t) := by
  intro n hn
  induction store with
  | nil => rfl
  | cons u store ih =>
    by_cases hu : u.statement.name = name
    · have hun : u.statement.name ≠ n := fun h => hn (h ▸ hu)
      simpa [put, table, ht, hu, hun, Ne.symm hn] using ih
    · by_cases hun : u.statement.name = n
      · simp [put, table, ht, hun, hn]
      · simpa [put, table, ht, hu, hun] using ih

variable {operator : TableBaseOperator T} {values : List T} {persisted : T → T}

/-- A table of another name is not touched. -/
theorem Stores.of_agreesBut {store' : RdbStore} (h : store.Stores operator values) (hname : operator.getTableName ≠ name)
    (hagree : AgreesBut name store store') : store'.Stores operator values := by
  obtain ⟨t, ht, hrest⟩ := h
  exact ⟨t, (hagree _ hname).trans ht, hrest⟩

/-- What stands in a row decides whether it is one of those meant. -/
def Selects (operator : TableBaseOperator T) (predicates : RdbPredicates) (test : T → Bool) : Prop :=
  predicates.tableName = operator.getTableName ∧
    ∀ row value, ITable.Holds operator.writes row value → predicates.selects row = test value

/-- `BatchInsert` adds the records at the end. -/
theorem Stores.batchInsert (h : store.Stores operator values) (hsound : operator.Sound persisted) (new : List T) :
    ∃ store', store.batchInsert operator.getTableName (ITable.buildDbValues operator.writes new) = some store' ∧
      store'.Stores operator (values ++ new) ∧ AgreesBut operator.getTableName store store' := by
  obtain ⟨t, ht, hstatement, hrows⟩ := h
  have hdeclared : ∀ w ∈ operator.writes, w.column ∈ t.statement.allColumns.map Prod.fst := by
    rw [hstatement]
    exact hsound.declared
  obtain ⟨t', ids, hinsert, hstatement', hlen, hrows'⟩ := ITable.batchInsert_buildDbValues hdeclared new
  have hnew : List.Forall₂ (ITable.Holds operator.writes) (List.zipWith (ITable.written operator.writes) new ids) new := by
    clear hinsert hrows'
    induction new generalizing ids with
    | nil => simp
    | cons value new ih =>
      cases ids with
      | nil => cases hlen
      | cons id ids => exact .cons (ITable.holds_written hsound.nodup value id) (ih ids (by simpa using hlen))
  refine ⟨store.put t', by simp [RdbStore.batchInsert, ht, hinsert], ⟨t', table_put ht hstatement', hstatement'.trans hstatement, ?_⟩,
    agreesBut_put (by rw [hstatement', hstatement]; rfl)⟩
  rw [hrows']
  exact List.rel_append hrows hnew

/-- `Delete` removes the records meant. -/
theorem Stores.delete {predicates : RdbPredicates} {test : T → Bool} (h : store.Stores operator values)
    (hselects : Selects operator predicates test) :
    ∃ n store', store.delete predicates = some (n, store') ∧ store'.Stores operator (values.filter fun v => !test v) ∧
      AgreesBut operator.getTableName store store' := by
  obtain ⟨t, ht, hstatement, hrows⟩ := h
  refine ⟨t.rows.countP predicates.selects, _, by simp [RdbStore.delete, hselects.1, ht, Table.delete],
    ⟨{ t with rows := t.rows.filter fun row => !predicates.selects row }, table_put ht rfl, hstatement, ?_⟩,
    agreesBut_put (by rw [hstatement]; rfl)⟩
  refine List.rel_filter ?_ hrows
  intro row value hholds
  dsimp only
  rw [hselects.2 row value hholds]

/-- `Update` changes the records meant. -/
theorem Stores.update {predicates : RdbPredicates} {test : T → Bool} {bucket : ValuesBucket} {f : T → T}
    (h : store.Stores operator values) (hselects : Selects operator predicates test)
    (hdeclared : ∀ e ∈ bucket, e.1 ∈ operator.statement.allColumns.map Prod.fst)
    (hbucket : ∀ row value, ITable.Holds operator.writes row value → ITable.Holds operator.writes (bucket.onto row) (f value)) :
    ∃ n store', store.update bucket predicates = some (n, store') ∧
      store'.Stores operator (values.map fun v => if test v then f v else v) ∧ AgreesBut operator.getTableName store store' := by
  obtain ⟨t, ht, hstatement, hrows⟩ := h
  have hdecl : t.declares bucket = true := by
    rw [Table.declares, hstatement, List.all_eq_true]
    exact fun e he => List.contains_iff_mem.mpr (hdeclared e he)
  refine ⟨t.rows.countP predicates.selects, _, by simp [RdbStore.update, hselects.1, ht, Table.update, hdecl],
    ⟨{ t with rows := t.rows.map fun row => if predicates.selects row then bucket.onto row else row }, table_put ht rfl, hstatement, ?_⟩,
    agreesBut_put (by rw [hstatement]; rfl)⟩
  refine List.rel_map ?_ hrows
  intro row value hholds
  dsimp only
  rw [hselects.2 row value hholds]
  cases test value with
  | true => exact hbucket row value hholds
  | false => exact hholds

/-- `Query` returns the records meant, as far as they are persisted. -/
theorem Stores.query {predicates : RdbPredicates} {test : T → Bool} (h : store.Stores operator values) (hsound : operator.Sound persisted)
    (hselects : Selects operator predicates test) :
    ∃ r, store.query predicates = some r ∧
      (ITable.parseDbValues operator.reads operator.fresh r).map persisted = (values.filter test).map persisted := by
  obtain ⟨t, ht, hstatement, hrows⟩ := h
  refine ⟨_, by simp only [RdbStore.query, hselects.1, ht]; rfl, ?_⟩
  rw [ITable.parseDbValues_eq, List.map_map]
  have hfilter : List.Forall₂ (ITable.Holds operator.writes) (t.rows.filter predicates.selects) (values.filter test) := by
    refine List.rel_filter ?_ hrows
    intro row value hholds
    dsimp only
    rw [hselects.2 row value hholds]
  rw [← List.forall₂_eq_eq_eq]
  refine List.rel_map ?_ hfilter
  intro row value hholds
  simpa [Table.select, hstatement] using hsound.parses row value hholds

end RdbStore

/-! ## The database -/

namespace SqliteDb

variable {dbOpenCallback : List CreateTable} {a : RdbAnswer} {db : SqliteDb}

/-- What the store holds once it is open. -/
def store (dbOpenCallback : List CreateTable) (db : SqliteDb) : RdbStore := db.file.getD (onCreate dbOpenCallback)

/-- An open store has a file. -/
def HasFile (db : SqliteDb) : Prop := db.isOpen = true → db.file.isSome = true

/-- Whether a call is carried out. -/
def performs (a : RdbAnswer) (db : SqliteDb) : Bool := (db.isOpen || a.opens) && a.succeeds

/-- What a call finds: nothing when the store is not open and cannot be opened. -/
theorem getDbStore_eq (hfile : db.HasFile) :
    db.getDbStore dbOpenCallback a =
      if db.isOpen || a.opens then (some (db.store dbOpenCallback), { file := some (db.store dbOpenCallback), isOpen := true })
      else (none, db) := by
  obtain ⟨file, isOpen⟩ := db
  cases isOpen with
  | true =>
    obtain ⟨s, hs⟩ := Option.isSome_iff_exists.mp (hfile rfl)
    cases hs
    rfl
  | false => cases h : a.opens <;> simp [getDbStore, createDbStore, store, h]

/-- A call that is carried out. -/
theorem call_of_performs {β : Type} {f : RdbStore → Option (β × RdbStore)} {x : β} {s : RdbStore} (hfile : db.HasFile)
    (hperforms : db.performs a = true) (hf : f (db.store dbOpenCallback) = some (x, s)) :
    db.call dbOpenCallback f a = (some x, { file := some s, isOpen := true }) := by
  obtain ⟨hopens, hsucceeds⟩ := Bool.and_eq_true_iff.mp hperforms
  simp [call, getDbStore_eq hfile, hopens, hsucceeds, hf]

/-- A call that is not carried out changes nothing in the store. -/
theorem call_of_not_performs {β : Type} {f : RdbStore → Option (β × RdbStore)} (hfile : db.HasFile)
    (hperforms : db.performs a = false) :
    (db.call dbOpenCallback f a).1 = none ∧ (db.call dbOpenCallback f a).2.HasFile ∧
      (db.call dbOpenCallback f a).2.isOpen = (db.isOpen || a.opens) ∧
      (db.call dbOpenCallback f a).2.store dbOpenCallback = db.store dbOpenCallback := by
  cases hopens : db.isOpen || a.opens with
  | true =>
    have hsucceeds : a.succeeds = false := by simpa [performs, hopens] using hperforms
    simp [call, getDbStore_eq hfile, hopens, hsucceeds, HasFile, store]
  | false =>
    have hcall : db.call dbOpenCallback f a = (none, db) := by simp [call, getDbStore_eq hfile, hopens]
    rw [hcall]
    exact ⟨rfl, hfile, (Bool.or_eq_false_iff.mp hopens).1, rfl⟩

end SqliteDb

namespace TableBaseOperator

variable {operator : TableBaseOperator T} {persisted : T → T} {a : RdbAnswer} {db : SqliteDb} {values values' : List T}

/-- What a call that changes the table of an operator comes to: when it is carried out, it returns true and the records are the new ones;
otherwise it returns false and they are the old ones. The other tables stay as they are. -/
structure Changes (operator : TableBaseOperator T) (a : RdbAnswer) (db : SqliteDb) (values values' : List T) (r : Bool × SqliteDb) :
    Prop where
  result : r.1 = db.performs a
  hasFile : r.2.HasFile
  isOpen : r.2.isOpen = (db.isOpen || a.opens)
  stores : (r.2.store operator.dbOpenCallback).Stores operator (if db.performs a then values' else values)
  agrees : RdbStore.AgreesBut operator.getTableName (db.store operator.dbOpenCallback) (r.2.store operator.dbOpenCallback)

theorem changes_of_call {β : Type} {f : RdbStore → Option (β × RdbStore)} (hfile : db.HasFile)
    (hstores : (db.store operator.dbOpenCallback).Stores operator values)
    (hf : ∃ x s, f (db.store operator.dbOpenCallback) = some (x, s) ∧ s.Stores operator values' ∧
      RdbStore.AgreesBut operator.getTableName (db.store operator.dbOpenCallback) s) :
    operator.Changes a db values values' ((db.call operator.dbOpenCallback f a).1.isSome, (db.call operator.dbOpenCallback f a).2) := by
  cases hperforms : db.performs a with
  | true =>
    obtain ⟨x, s, hf, hnew, hagrees⟩ := hf
    rw [SqliteDb.call_of_performs hfile hperforms hf]
    exact ⟨by rw [hperforms]; rfl, fun _ => rfl, (Bool.and_eq_true_iff.mp hperforms).1.symm, by rw [if_pos hperforms]; exact hnew, hagrees⟩
  | false =>
    obtain ⟨hnone, hfile', hopen', hsame⟩ := @SqliteDb.call_of_not_performs operator.dbOpenCallback a db _ f hfile hperforms
    refine ⟨by rw [hnone, hperforms]; rfl, hfile', hopen', ?_, ?_⟩
    · rw [hsame, if_neg (by simp [hperforms])]
      exact hstores
    · intro n _
      rw [hsame]

theorem changes_insertValues (hfile : db.HasFile) (hstores : (db.store operator.dbOpenCallback).Stores operator values)
    (hsound : operator.Sound persisted) (new : List T) :
    operator.Changes a db values (values ++ new) (operator.insertValues a db new) := by
  refine changes_of_call hfile hstores ?_
  obtain ⟨s, hs, hnew, hagrees⟩ := hstores.batchInsert hsound new
  exact ⟨(), s, by rw [hs]; rfl, hnew, hagrees⟩

theorem changes_delete {predicates : RdbPredicates} {test : T → Bool} (hfile : db.HasFile)
    (hstores : (db.store operator.dbOpenCallback).Stores operator values) (hselects : RdbStore.Selects operator predicates test) :
    operator.Changes a db values (values.filter fun v => !test v) (operator.delete a db predicates) :=
  changes_of_call hfile hstores (hstores.delete hselects)

theorem changes_deleteAll (hfile : db.HasFile) (hstores : (db.store operator.dbOpenCallback).Stores operator values) :
    operator.Changes a db values [] (operator.deleteAll a db) := by
  have hselects : RdbStore.Selects operator { tableName := operator.getTableName } fun _ => true := ⟨rfl, fun _ _ _ => rfl⟩
  have h := changes_delete (a := a) hfile hstores hselects
  simpa [deleteAll] using h

theorem changes_update {predicates : RdbPredicates} {test : T → Bool} {bucket : ValuesBucket} {f : T → T} (hfile : db.HasFile)
    (hstores : (db.store operator.dbOpenCallback).Stores operator values) (hselects : RdbStore.Selects operator predicates test)
    (hdeclared : ∀ e ∈ bucket, e.1 ∈ operator.statement.allColumns.map Prod.fst)
    (hbucket : ∀ row value, ITable.Holds operator.writes row value → ITable.Holds operator.writes (bucket.onto row) (f value)) :
    operator.Changes a db values (values.map fun v => if test v then f v else v) (operator.update a db bucket predicates) :=
  changes_of_call hfile hstores (hstores.update hselects hdeclared hbucket)

/-- What a query comes to. -/
structure Finds (operator : TableBaseOperator T) (persisted : T → T) (a : RdbAnswer) (db : SqliteDb) (found : List T)
    (r : Option (List T) × SqliteDb) : Prop where
  result : r.1.map (·.map persisted) = if db.performs a then some (found.map persisted) else none
  hasFile : r.2.HasFile
  isOpen : r.2.isOpen = (db.isOpen || a.opens)
  store_eq : r.2.store operator.dbOpenCallback = db.store operator.dbOpenCallback

theorem finds_query {predicates : RdbPredicates} {test : T → Bool} (hfile : db.HasFile)
    (hstores : (db.store operator.dbOpenCallback).Stores operator values) (hsound : operator.Sound persisted)
    (hselects : RdbStore.Selects operator predicates test) :
    operator.Finds persisted a db (values.filter test) (operator.query a db predicates) := by
  cases hperforms : db.performs a with
  | true =>
    obtain ⟨r, hr, hfound⟩ := hstores.query hsound hselects
    have hcall : db.query operator.dbOpenCallback predicates a =
        (some r, { file := some (db.store operator.dbOpenCallback), isOpen := true }) :=
      SqliteDb.call_of_performs hfile hperforms (by rw [hr]; rfl)
    refine ⟨?_, ?_, ?_, ?_⟩
    · simp [query, hcall, hperforms, hfound]
    · simp [query, hcall, SqliteDb.HasFile]
    · simp [query, hcall, (Bool.and_eq_true_iff.mp hperforms).1]
    · simp [query, hcall, SqliteDb.store]
  | false =>
    obtain ⟨hnone, hfile', hopen', hsame⟩ := @SqliteDb.call_of_not_performs operator.dbOpenCallback a db _
      (fun dbStore => (dbStore.query predicates).map fun r => (r, dbStore)) hfile hperforms
    exact ⟨by simp [query, SqliteDb.query, hnone, hperforms], hfile', hopen', hsame⟩

theorem finds_queryAll (hfile : db.HasFile) (hstores : (db.store operator.dbOpenCallback).Stores operator values)
    (hsound : operator.Sound persisted) : operator.Finds persisted a db values (operator.queryAll a db) := by
  have hselects : RdbStore.Selects operator { tableName := operator.getTableName } fun _ => true := ⟨rfl, fun _ _ _ => rfl⟩
  have h := finds_query (a := a) hfile hstores hsound hselects
  simpa [queryAll] using h

end TableBaseOperator

end UpdateEngine.Rdb

namespace UpdateEngine.Db

open Rdb

/-! ## The two operators -/

theorem FirmwareTaskOperator.sound : FirmwareTaskOperator.Sound FirmwareTaskTable.persisted where
  nodup := FirmwareTaskTable.writes_nodup
  declared := fun w hw => (FirmwareTaskTable.writes_declared w hw).mem
  parses := by
    intro row value hholds
    have hcells : ∀ w ∈ FirmwareTaskTable.writes,
        ITable.cells (FirmwareTaskTable.createTable.allColumns.map Prod.fst) row w.column = some (w.value value) := by
      intro w hw
      simp [ITable.cells, (FirmwareTaskTable.writes_declared w hw).mem, hholds w hw]
    change FirmwareTaskTable.persisted (ITable.parseDbValue FirmwareTaskTable.reads
      (ITable.cells (FirmwareTaskTable.createTable.allColumns.map Prod.fst) row) _) = _
    generalize ITable.cells (FirmwareTaskTable.createTable.allColumns.map Prod.fst) row = cell at hcells
    simp only [FirmwareTaskTable.writes, List.forall_mem_cons, ITable.putColumnValue] at hcells
    simp [ITable.parseDbValue, FirmwareTaskTable.reads, ITable.getColumnValue, hcells, ColumnValue.get_put, FirmwareTaskTable.persisted]

theorem FirmwareComponentOperator.sound (isNeedRestart : Bool) :
    (FirmwareComponentOperator isNeedRestart).Sound FirmwareComponentTable.persisted where
  nodup := FirmwareComponentTable.writes_nodup
  declared := fun w hw => (FirmwareComponentTable.writes_declared w hw).mem
  parses := by
    intro row value hholds
    have hcells : ∀ w ∈ FirmwareComponentTable.writes,
        ITable.cells (FirmwareComponentTable.createTable.allColumns.map Prod.fst) row w.column = some (w.value value) := by
      intro w hw
      simp [ITable.cells, (FirmwareComponentTable.writes_declared w hw).mem, hholds w hw]
    change FirmwareComponentTable.persisted (ITable.parseDbValue FirmwareComponentTable.reads
      (ITable.cells (FirmwareComponentTable.createTable.allColumns.map Prod.fst) row) _) = _
    generalize ITable.cells (FirmwareComponentTable.createTable.allColumns.map Prod.fst) row = cell at hcells
    simp only [FirmwareComponentTable.writes, List.forall_mem_cons, ITable.putColumnValue] at hcells
    simp [ITable.parseDbValue, FirmwareComponentTable.reads, ITable.getColumnValue, hcells, ColumnValue.get_put,
      FirmwareComponentTable.persisted]

/-! ## What the calls mean -/

/-- The task after an update that is for it. -/
def TaskUpdate.apply (t : FirmwareTask) : TaskUpdate → FirmwareTask
  | .progress s p => { t with status := s, progress := p }
  | .errMsg e m => { t with errorCode := e, errorMsg := m }
  | .downloadTaskId i => { t with downloadTaskId := i }
  | .combinationType c => { t with combinationType := c }
  | .downloadMode m => { t with downloadMode := m }
  | .downloadAllowNetwork n => { t with downloadAllowNetwork := n }
  | .downloadOrder o => { t with downloadOrder := o }
  | .downloadOption m n o => { t with downloadMode := m, downloadAllowNetwork := n, downloadOrder := o }
  | .upgradeMode m => { t with upgradeMode := m }
  | .upgradeOrder o => { t with upgradeOrder := o }

/-- The two lists of records. -/
structure Records where
  tasks : List FirmwareTask := []
  components : List FirmwareComponent := []

/-- What a call that is carried out comes back with, and what it makes of the records. -/
def Call.perform (s : Records) : Call → Result × Records
  | .insertTask value => (.bool true, { s with tasks := s.tasks ++ [value] })
  | .deleteTasks => (.bool true, { s with tasks := [] })
  | .queryTask task => match s.tasks with
    | [] => (.task { task with isExistTask := false }, s)
    | first :: _ => (.task { first with isExistTask := true }, s)
  | .updateByTaskId taskId u => (.bool true, { s with tasks := s.tasks.map fun t => if t.taskId = taskId then u.apply t else t })
  | .insertComponents values => (.bool true, { s with components := s.components ++ values })
  | .deleteComponents => (.bool true, { s with components := [] })
  | .queryComponents => (.components (some s.components), s)
  | .updateProgressByUrl url status progress => (.bool true, { s with
    components := s.components.map fun c => if c.url = url then { c with status, progress } else c })
  | .updateUrlByVersionId versionId url => (.bool true, { s with
    components := s.components.map fun c => if c.versionId = versionId then { c with url } else c })
  | .queryByVersionId versionId => (.component (s.components.find? fun c => c.versionId = versionId), s)
  | .queryByUrl url => (.component (s.components.find? fun c => c.url = url), s)
  | .deleteDbStore => (.bool true, {})
  | .restart => (.none, s)

/-- What a call that is not carried out comes back with. -/
def Call.refuse : Call → Result
  | .queryTask task => .task { task with isExistTask := false }
  | .queryComponents => .components none
  | .queryByVersionId _ | .queryByUrl _ => .component none
  | .restart => .none
  | _ => .bool false

/-- Whether the relational store, open or not, carries a call out. -/
def Call.performs (a : RdbAnswer) (isOpen : Bool) : Call → Bool
  | .deleteDbStore => a.succeeds
  | .restart => true
  | _ => (isOpen || a.opens) && a.succeeds

/-- Whether the relational store is open after a call. -/
def Call.opened (a : RdbAnswer) (isOpen : Bool) : Call → Bool
  | .deleteDbStore | .restart => false
  | _ => isOpen || a.opens

/-- A call on the records. -/
def Call.onRecords (performs : Bool) (c : Call) (s : Records) : Result × Records :=
  if performs then c.perform s else (c.refuse, s)

/-- Calls on the records after each other. -/
def onRecords : List (Call × RdbAnswer) → Bool → Records → List Result × Records
  | [], _, s => ([], s)
  | (c, a) :: l, isOpen, s =>
    let (r, s) := c.onRecords (c.performs a isOpen) s
    (onRecords l (c.opened a isOpen) s).map (r :: ·) id

/-- A result as far as records are persisted. -/
def Result.persisted : Result → Result
  | .components results => .components (results.map (·.map FirmwareComponentTable.persisted))
  | .component found => .component (found.map FirmwareComponentTable.persisted)
  | r => r

/-! ## The calls do what they mean -/

/-- The database keeps these records. -/
structure Keeps (isNeedRestart : Bool) (db : SqliteDb) (s : Records) : Prop where
  hasFile : db.HasFile
  tasks : (db.store dbCreateSqlVector).Stores FirmwareTaskOperator s.tasks
  components : (db.store dbCreateSqlVector).Stores (FirmwareComponentOperator isNeedRestart) s.components

variable {isNeedRestart : Bool} {a : RdbAnswer} {db : SqliteDb} {s : Records}

/-- A database without a file keeps no records. -/
theorem keeps_of_no_file (hfile : db.file = none) (hopen : db.isOpen = false) : Keeps isNeedRestart db {} := by
  refine ⟨by simp [SqliteDb.HasFile, hopen], ?_, ?_⟩
  · exact ⟨{ statement := FirmwareTaskTable.createTable }, by rw [SqliteDb.store, hfile]; rfl, rfl, .nil⟩
  · exact ⟨{ statement := FirmwareComponentTable.createTable }, by rw [SqliteDb.store, hfile]; rfl, rfl, .nil⟩

theorem tableNames_ne : FirmwareTaskOperator.getTableName ≠ (FirmwareComponentOperator isNeedRestart).getTableName := by
  decide +revert

/-- After a call that changes tasks. -/
theorem Keeps.of_changes_tasks {tasks : List FirmwareTask} {r : Bool × SqliteDb} (h : Keeps isNeedRestart db s)
    (hr : FirmwareTaskOperator.Changes a db s.tasks tasks r) :
    Keeps isNeedRestart r.2 (if db.performs a then { s with tasks } else s) := by
  have hcomponents := h.components.of_agreesBut (Ne.symm tableNames_ne) hr.agrees
  have htasks := hr.stores
  cases hperforms : db.performs a with
  | true => exact ⟨hr.hasFile, by rwa [hperforms] at htasks, hcomponents⟩
  | false => exact ⟨hr.hasFile, by rwa [hperforms] at htasks, hcomponents⟩

/-- After a call that changes components. -/
theorem Keeps.of_changes_components {components : List FirmwareComponent} {r : Bool × SqliteDb} (h : Keeps isNeedRestart db s)
    (hr : (FirmwareComponentOperator isNeedRestart).Changes a db s.components components r) :
    Keeps isNeedRestart r.2 (if db.performs a then { s with components } else s) := by
  have htasks := h.tasks.of_agreesBut tableNames_ne hr.agrees
  have hcomponents := hr.stores
  cases hperforms : db.performs a with
  | true => exact ⟨hr.hasFile, htasks, by rwa [hperforms] at hcomponents⟩
  | false => exact ⟨hr.hasFile, htasks, by rwa [hperforms] at hcomponents⟩

/-- The rows of a task are told by its identifier. -/
theorem selects_taskId (taskId : String) :
    RdbStore.Selects FirmwareTaskOperator
      (RdbPredicates.equalTo { tableName := FirmwareTaskOperator.getTableName } FirmwareTaskTable.COLUMN_TASK_TASK_ID taskId)
      (fun t => t.taskId = taskId) := by
  refine ⟨rfl, ?_⟩
  intro row value hholds
  have hid : row FirmwareTaskTable.COLUMN_TASK_TASK_ID = .text value.taskId := hholds _ (List.mem_cons_self ..)
  simp [RdbPredicates.selects, RdbPredicates.equalTo, hid]

theorem selects_url (url : String) :
    RdbStore.Selects (FirmwareComponentOperator isNeedRestart)
      (FirmwareComponentOperator.predicates isNeedRestart FirmwareComponentTable.COLUMN_COMPONENT_DOWNLOAD_URL url)
      (fun c => c.url = url) := by
  refine ⟨rfl, ?_⟩
  intro row value hholds
  have hurl : row FirmwareComponentTable.COLUMN_COMPONENT_DOWNLOAD_URL = .text value.url :=
    hholds (ITable.putColumnValue FirmwareComponentTable.COLUMN_COMPONENT_DOWNLOAD_URL (·.url))
      (by simp [FirmwareComponentOperator, FirmwareComponentTable.writes])
  simp [RdbPredicates.selects, FirmwareComponentOperator.predicates, RdbPredicates.equalTo, hurl]

theorem selects_versionId (versionId : String) :
    RdbStore.Selects (FirmwareComponentOperator isNeedRestart)
      (FirmwareComponentOperator.predicates isNeedRestart FirmwareComponentTable.COLUMN_COMPONENT_VERSION_ID versionId)
      (fun c => c.versionId = versionId) := by
  refine ⟨rfl, ?_⟩
  intro row value hholds
  have hid : row FirmwareComponentTable.COLUMN_COMPONENT_VERSION_ID = .text value.versionId := hholds _ (List.mem_cons_self ..)
  simp [RdbPredicates.selects, FirmwareComponentOperator.predicates, RdbPredicates.equalTo, hid]

open FirmwareTaskTable in
/-- What an update puts in its bucket. -/
def TaskUpdate.bucket : TaskUpdate → ValuesBucket
  | .progress s p => [(COLUMN_TASK_STATUS, ColumnValue.put s), (COLUMN_TASK_PROGRESS, ColumnValue.put p)]
  | .errMsg e m => [(COLUMN_TASK_ERROR_CODE, ColumnValue.put e), (COLUMN_TASK_ERROR_MSG, ColumnValue.put m)]
  | .downloadTaskId i => [(COLUMN_TASK_DOWNLOAD_TASK_ID, ColumnValue.put i)]
  | .combinationType c => [(COLUMN_TASK_COMBINATION_TYPE, ColumnValue.put c)]
  | .downloadMode m => [(COLUMN_TASK_DOWNLOAD_MODE, ColumnValue.put m)]
  | .downloadAllowNetwork n => [(COLUMN_TASK_DOWNLOAD_ALLOW_NETWORK, ColumnValue.put n)]
  | .downloadOrder o => [(COLUMN_TASK_DOWNLOAD_ORDER, ColumnValue.put o)]
  | .downloadOption m n o => [(COLUMN_TASK_DOWNLOAD_MODE, ColumnValue.put m), (COLUMN_TASK_DOWNLOAD_ALLOW_NETWORK, ColumnValue.put n),
      (COLUMN_TASK_DOWNLOAD_ORDER, ColumnValue.put o)]
  | .upgradeMode m => [(COLUMN_TASK_UPGRADE_MODE, ColumnValue.put m)]
  | .upgradeOrder o => [(COLUMN_TASK_UPGRADE_ORDER, ColumnValue.put o)]

theorem TaskUpdate.run_eq (taskId : String) (u : TaskUpdate) :
    u.run a db taskId = FirmwareTaskOperator.updateByTaskId a db taskId u.bucket := by
  cases u <;> rfl

theorem TaskUpdate.declared (u : TaskUpdate) :
    ∀ e ∈ u.bucket, e.1 ∈ FirmwareTaskTable.createTable.allColumns.map Prod.fst := by
  cases u <;> simp [bucket, FirmwareTaskTable.createTable, CreateTable.allColumns]

/-- An update sets the columns of the members it names, and no other one. -/
theorem TaskUpdate.holds (u : TaskUpdate) {row : Row} {value : FirmwareTask} (h : ITable.Holds FirmwareTaskTable.writes row value) :
    ITable.Holds FirmwareTaskTable.writes (u.bucket.onto row) (u.apply value) := by
  simp only [ITable.Holds, FirmwareTaskTable.writes, List.forall_mem_cons, ITable.putColumnValue] at h ⊢
  cases u <;> simp (disch := decide) [bucket, ValuesBucket.onto, Function.update_of_ne, h, apply]

theorem changes_updateByTaskId (h : Keeps isNeedRestart db s) (taskId : String) (u : TaskUpdate) :
    FirmwareTaskOperator.Changes a db s.tasks (s.tasks.map fun t => if t.taskId = taskId then u.apply t else t)
      (u.run a db taskId) := by
  rw [u.run_eq]
  have hchanges := TableBaseOperator.changes_update (a := a) h.hasFile h.tasks (selects_taskId taskId) u.declared fun _ _ => u.holds
  simpa [FirmwareTaskOperator.updateByTaskId] using hchanges

theorem changes_updateProgressByUrl (h : Keeps isNeedRestart db s) (url : String) (status : UpgradeStatus) (progress : Int32) :
    (FirmwareComponentOperator isNeedRestart).Changes a db s.components
      (s.components.map fun c => if c.url = url then { c with status, progress } else c)
      (FirmwareComponentOperator.updateProgressByUrl isNeedRestart a db url status progress) := by
  let bucket : ValuesBucket := [(FirmwareComponentTable.COLUMN_COMPONENT_STATUS, ColumnValue.put status),
    (FirmwareComponentTable.COLUMN_COMPONENT_PROGRESS, ColumnValue.put progress)]
  have hdeclared : ∀ e ∈ bucket, e.1 ∈ (FirmwareComponentOperator isNeedRestart).statement.allColumns.map Prod.fst := by
    simp [bucket, FirmwareComponentOperator, FirmwareComponentTable.createTable, CreateTable.allColumns]
  have hholds (row : Row) (value : FirmwareComponent) (h : ITable.Holds FirmwareComponentTable.writes row value) :
      ITable.Holds FirmwareComponentTable.writes (bucket.onto row) { value with status, progress } := by
    simp only [ITable.Holds, FirmwareComponentTable.writes, List.forall_mem_cons, ITable.putColumnValue] at h ⊢
    simp (disch := decide) [bucket, ValuesBucket.onto, Function.update_of_ne, h]
  have hchanges := TableBaseOperator.changes_update (a := a) h.hasFile h.components (selects_url url) hdeclared hholds
  simpa [FirmwareComponentOperator.updateProgressByUrl] using hchanges

theorem changes_updateUrlByVersionId (h : Keeps isNeedRestart db s) (versionId url : String) :
    (FirmwareComponentOperator isNeedRestart).Changes a db s.components
      (s.components.map fun c => if c.versionId = versionId then { c with url } else c)
      (FirmwareComponentOperator.updateUrlByVersionId isNeedRestart a db versionId url) := by
  let bucket : ValuesBucket := [(FirmwareComponentTable.COLUMN_COMPONENT_DOWNLOAD_URL, ColumnValue.put url)]
  have hdeclared : ∀ e ∈ bucket, e.1 ∈ (FirmwareComponentOperator isNeedRestart).statement.allColumns.map Prod.fst := by
    simp [bucket, FirmwareComponentOperator, FirmwareComponentTable.createTable, CreateTable.allColumns]
  have hholds (row : Row) (value : FirmwareComponent) (h : ITable.Holds FirmwareComponentTable.writes row value) :
      ITable.Holds FirmwareComponentTable.writes (bucket.onto row) { value with url } := by
    simp only [ITable.Holds, FirmwareComponentTable.writes, List.forall_mem_cons, ITable.putColumnValue] at h ⊢
    simp (disch := decide) [bucket, ValuesBucket.onto, Function.update_of_ne, h]
  have hchanges := TableBaseOperator.changes_update (a := a) h.hasFile h.components (selects_versionId versionId) hdeclared hholds
  simpa [FirmwareComponentOperator.updateUrlByVersionId] using hchanges

/-- What a call is to come to: what it comes back with, the records that are kept, and whether the store is open. -/
structure Follows (isNeedRestart : Bool) (r : Result × SqliteDb) (r' : Result × Records) (isOpen : Bool) : Prop where
  result : r.1.persisted = r'.1.persisted
  keeps : Keeps isNeedRestart r.2 r'.2
  isOpen_eq : r.2.isOpen = isOpen

theorem follows_of_changes_tasks {tasks : List FirmwareTask} {r : Bool × SqliteDb} (h : Keeps isNeedRestart db s)
    (hr : FirmwareTaskOperator.Changes a db s.tasks tasks r) :
    Follows isNeedRestart (r.map .bool id) (if db.performs a then (.bool true, { s with tasks }) else (.bool false, s))
      (db.isOpen || a.opens) := by
  have hkeeps := h.of_changes_tasks hr
  have hresult := hr.result
  cases hperforms : db.performs a with
  | true => exact ⟨by simp [hresult, hperforms], by simpa [hperforms] using hkeeps, hr.isOpen⟩
  | false => exact ⟨by simp [hresult, hperforms], by simpa [hperforms] using hkeeps, hr.isOpen⟩

theorem follows_of_changes_components {components : List FirmwareComponent} {r : Bool × SqliteDb} (h : Keeps isNeedRestart db s)
    (hr : (FirmwareComponentOperator isNeedRestart).Changes a db s.components components r) :
    Follows isNeedRestart (r.map .bool id) (if db.performs a then (.bool true, { s with components }) else (.bool false, s))
      (db.isOpen || a.opens) := by
  have hkeeps := h.of_changes_components hr
  have hresult := hr.result
  cases hperforms : db.performs a with
  | true => exact ⟨by simp [hresult, hperforms], by simpa [hperforms] using hkeeps, hr.isOpen⟩
  | false => exact ⟨by simp [hresult, hperforms], by simpa [hperforms] using hkeeps, hr.isOpen⟩

/-- A query keeps the records. -/
theorem Keeps.of_finds {T : Type} {operator : TableBaseOperator T} {persisted : T → T} {found : List T}
    {r : Option (List T) × SqliteDb} (h : Keeps isNeedRestart db s) (hoperator : operator.dbOpenCallback = dbCreateSqlVector)
    (hr : operator.Finds persisted a db found r) : Keeps isNeedRestart r.2 s := by
  have hstore : r.2.store dbCreateSqlVector = db.store dbCreateSqlVector := by
    rw [← hoperator]
    exact hr.store_eq
  exact ⟨hr.hasFile, by rw [hstore]; exact h.tasks, by rw [hstore]; exact h.components⟩

theorem follows_queryBy (h : Keeps isNeedRestart db s) {column value : String} {test : FirmwareComponent → Bool}
    (hselects : RdbStore.Selects (FirmwareComponentOperator isNeedRestart)
      (FirmwareComponentOperator.predicates isNeedRestart column value) test) :
    Follows isNeedRestart ((FirmwareComponentOperator.queryBy isNeedRestart a db column value).map .component id)
      (if db.performs a then (.component (s.components.find? test), s) else (.component none, s)) (db.isOpen || a.opens) := by
  have hfinds := TableBaseOperator.finds_query (a := a) h.hasFile h.components (FirmwareComponentOperator.sound isNeedRestart) hselects
  have hkeeps := h.of_finds rfl hfinds
  obtain ⟨hresult, -, hopen, -⟩ := hfinds
  simp only [FirmwareComponentOperator.queryBy]
  generalize (FirmwareComponentOperator isNeedRestart).query a db _ = r at hkeeps hresult hopen ⊢
  obtain ⟨found, db'⟩ := r
  cases hperforms : db.performs a with
  | true =>
    simp only [hperforms, if_true, Option.map_eq_some_iff] at hresult
    obtain ⟨results, rfl, hresults⟩ := hresult
    have hhead : (s.components.find? test).map FirmwareComponentTable.persisted = results.head?.map FirmwareComponentTable.persisted := by
      rw [← List.head?_filter, ← List.head?_map, ← List.head?_map, hresults]
    cases results with
    | nil => exact ⟨by simpa [Result.persisted] using hhead.symm, hkeeps, hopen⟩
    | cons component results => exact ⟨by simpa [Result.persisted] using hhead.symm, hkeeps, hopen⟩
  | false =>
    simp only [hperforms, Bool.false_eq_true, if_false, Option.map_eq_none_iff] at hresult
    subst hresult
    exact ⟨rfl, hkeeps, hopen⟩

theorem follows_queryTask (h : Keeps isNeedRestart db s) (task : FirmwareTask) :
    Follows isNeedRestart ((FirmwareTaskOperator.queryTask a db task).map .task id)
      (if db.performs a then (Call.queryTask task).perform s else ((Call.queryTask task).refuse, s)) (db.isOpen || a.opens) := by
  have hfinds := TableBaseOperator.finds_queryAll (a := a) h.hasFile h.tasks FirmwareTaskOperator.sound
  have hkeeps := h.of_finds rfl hfinds
  obtain ⟨hresult, -, hopen, -⟩ := hfinds
  simp only [FirmwareTaskOperator.queryTask]
  generalize FirmwareTaskOperator.queryAll a db = r at hkeeps hresult hopen ⊢
  obtain ⟨found, db'⟩ := r
  cases hperforms : db.performs a with
  | true =>
    simp only [hperforms, if_true, Option.map_eq_some_iff] at hresult
    obtain ⟨results, rfl, hresults⟩ := hresult
    obtain ⟨tasks, components⟩ := s
    cases tasks with
    | nil =>
      obtain rfl : results = [] := by simpa using hresults
      exact ⟨rfl, hkeeps, hopen⟩
    | cons first tasks =>
      cases results with
      | nil => cases hresults
      | cons first' results =>
        have hfirst : FirmwareTaskTable.persisted first' = FirmwareTaskTable.persisted first := by
          simpa using congrArg List.head? hresults
        refine ⟨?_, hkeeps, hopen⟩
        have hexist : { first' with isExistTask := true } = { first with isExistTask := true } :=
          congrArg (fun t : FirmwareTask => { t with isExistTask := true }) hfirst
        simpa [Call.perform, Result.persisted] using hexist
  | false =>
    simp only [hperforms, Bool.false_eq_true, if_false, Option.map_eq_none_iff] at hresult
    subst hresult
    exact ⟨rfl, hkeeps, hopen⟩

theorem follows_queryComponents (h : Keeps isNeedRestart db s) :
    Follows isNeedRestart (((FirmwareComponentOperator isNeedRestart).queryAll a db).map .components id)
      (if db.performs a then (.components (some s.components), s) else (.components none, s)) (db.isOpen || a.opens) := by
  have hfinds := TableBaseOperator.finds_queryAll (a := a) h.hasFile h.components (FirmwareComponentOperator.sound isNeedRestart)
  have hresult := hfinds.result
  cases hperforms : db.performs a with
  | true => exact ⟨by simpa [Result.persisted, hperforms] using hresult, h.of_finds rfl hfinds, hfinds.isOpen⟩
  | false => exact ⟨by simpa [Result.persisted, hperforms] using hresult, h.of_finds rfl hfinds, hfinds.isOpen⟩

/-- A call does what it means, if the relational store carries it out; otherwise nothing. -/
theorem Call.follows (h : Keeps isNeedRestart db s) (c : Call) :
    Follows isNeedRestart (c.run isNeedRestart a db) (c.onRecords (c.performs a db.isOpen) s) (c.opened a db.isOpen) := by
  cases c with
  | insertTask value =>
    exact follows_of_changes_tasks h (TableBaseOperator.changes_insertValues h.hasFile h.tasks FirmwareTaskOperator.sound _)
  | deleteTasks => exact follows_of_changes_tasks h (TableBaseOperator.changes_deleteAll h.hasFile h.tasks)
  | queryTask task => exact follows_queryTask h task
  | updateByTaskId taskId u => exact follows_of_changes_tasks h (changes_updateByTaskId h taskId u)
  | insertComponents values =>
    exact follows_of_changes_components h
      (TableBaseOperator.changes_insertValues h.hasFile h.components (FirmwareComponentOperator.sound isNeedRestart) values)
  | deleteComponents => exact follows_of_changes_components h (TableBaseOperator.changes_deleteAll h.hasFile h.components)
  | queryComponents => exact follows_queryComponents h
  | updateProgressByUrl url status progress => exact follows_of_changes_components h (changes_updateProgressByUrl h url status progress)
  | updateUrlByVersionId versionId url => exact follows_of_changes_components h (changes_updateUrlByVersionId h versionId url)
  | queryByVersionId versionId => exact follows_queryBy h (selects_versionId versionId)
  | queryByUrl url => exact follows_queryBy h (selects_url url)
  | deleteDbStore =>
    cases hsucceeds : a.succeeds with
    | true =>
      simp only [Call.run, SqliteDb.deleteDbStore, Call.performs, Call.onRecords, hsucceeds, if_true]
      exact ⟨rfl, keeps_of_no_file rfl rfl, rfl⟩
    | false =>
      simp only [Call.run, SqliteDb.deleteDbStore, Call.performs, Call.onRecords, hsucceeds, Bool.false_eq_true, if_false]
      exact ⟨rfl, ⟨fun h => (by cases h), h.tasks, h.components⟩, rfl⟩
  | restart => exact ⟨rfl, ⟨fun h => (by cases h), h.tasks, h.components⟩, rfl⟩

/-- Whatever calls are made, in whatever order, and whatever becomes of each in the relational store, they come back with what they would
on a list of tasks and a list of components, and these are what the database keeps in the end. -/
theorem runCalls_follows (h : Keeps isNeedRestart db s) (calls : List (Call × RdbAnswer)) :
    (runCalls isNeedRestart calls db).1.map Result.persisted = (onRecords calls db.isOpen s).1.map Result.persisted ∧
      Keeps isNeedRestart (runCalls isNeedRestart calls db).2 (onRecords calls db.isOpen s).2 := by
  induction calls generalizing db s with
  | nil => exact ⟨rfl, h⟩
  | cons ca calls ih =>
    obtain ⟨c, a⟩ := ca
    obtain ⟨hresult, hkeeps, hopen⟩ := c.follows (a := a) h
    obtain ⟨hresults, hkeeps'⟩ := ih hkeeps
    rw [hopen] at hresults hkeeps'
    exact ⟨by simpa [runCalls, onRecords, hresult] using hresults, by simpa [runCalls, onRecords] using hkeeps'⟩

/-- So it is from the first call on a device without a database. -/
theorem operators_keep_records (isNeedRestart : Bool) (calls : List (Call × RdbAnswer)) :
    (runCalls isNeedRestart calls {}).1.map Result.persisted = (onRecords calls false {}).1.map Result.persisted ∧
      Keeps isNeedRestart (runCalls isNeedRestart calls {}).2 (onRecords calls false {}).2 :=
  runCalls_follows (keeps_of_no_file rfl rfl) calls

end UpdateEngine.Db
