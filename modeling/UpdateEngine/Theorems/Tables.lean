import UpdateEngine.Firmware.Tables

/-!
# What is written to a row is read back

What `BuildDbValue` puts in the columns is read back by `ParseDbValue`, since the two and the statement that creates the table name
the same columns with the same types. The cursor of `ParseDbValues` comes to every row once, in the order of the insertion.
-/

namespace UpdateEngine.Rdb

/-! ## Rows -/

namespace ValuesBucket

theorem onto_cons (e : String × Value) (bucket : ValuesBucket) (row : Row) :
    onto (e :: bucket) row = onto bucket (Function.update row e.1 e.2) := rfl

/-- A column that is not in the bucket keeps what stands in it. -/
theorem onto_of_notMem {bucket : ValuesBucket} {column : String} (h : column ∉ bucket.map Prod.fst) (row : Row) :
    bucket.onto row column = row column := by
  induction bucket generalizing row with
  | nil => rfl
  | cons e bucket ih =>
    simp only [List.map_cons, List.mem_cons, not_or] at h
    rw [onto_cons, ih h.2, Function.update_of_ne h.1]

/-- What was put in a column stands in it, when nothing else was put in the same one. -/
theorem onto_of_mem {bucket : ValuesBucket} {e : String × Value} (hnodup : (bucket.map Prod.fst).Nodup) (h : e ∈ bucket)
    (row : Row) : bucket.onto row e.1 = e.2 := by
  induction bucket generalizing row with
  | nil => cases h
  | cons e' bucket ih =>
    obtain ⟨hnotin, hnodup⟩ := List.nodup_cons.mp hnodup
    rw [onto_cons]
    rcases List.mem_cons.mp h with rfl | h
    · rw [onto_of_notMem hnotin, Function.update_self]
    · exact ih hnodup h _

end ValuesBucket

namespace ITable

variable {T : Type}

/-- What stands in the columns a query returns. -/
def cells (columns : List String) (row : Row) (column : String) : Option Value :=
  if columns.contains column then some (row column) else none

/-- From any row on, the cursor comes to the rows that are left. -/
theorem ends_parseRound (reads : List (Read T)) (fresh : T) (columns : List String) (rows left : List Row) (pos : Nat)
    (values : List T) (hleft : rows.drop pos = left) (hpos : pos ≤ rows.length) :
    Loop.Ends (parseRound reads fresh) (⟨columns, rows, pos⟩, values)
      (⟨columns, rows, rows.length⟩, values ++ left.map fun row => parseDbValue reads (cells columns row) fresh) := by
  induction left generalizing pos values with
  | nil =>
    obtain rfl : pos = rows.length := Nat.le_antisymm hpos (List.drop_eq_nil_iff.mp hleft)
    rw [List.map_nil, List.append_nil]
    exact Loop.ends_of_none (by simp [parseRound, ResultSet.isEnded])
  | cons row left ih =>
    have hlt : pos < rows.length := by
      by_contra hge
      rw [List.drop_of_length_le (by omega)] at hleft
      cases hleft
    have hrow : rows[pos]? = some row := by
      rw [← List.head?_drop, hleft]
      rfl
    have hcell : ResultSet.cell ⟨columns, rows, pos⟩ = cells columns row := by
      funext column
      simp [ResultSet.cell, cells, hrow]
    have hround : parseRound reads fresh (⟨columns, rows, pos⟩, values) =
        some (⟨columns, rows, pos + 1⟩, values ++ [parseDbValue reads (cells columns row) fresh]) := by
      simp [parseRound, ResultSet.isEnded, ResultSet.goToNextRow, hcell, hlt, Nat.min_eq_left hlt]
    rw [Loop.ends_step_iff hround]
    have hrest := ih (pos + 1) (values ++ [parseDbValue reads (cells columns row) fresh])
      (by rw [← List.drop_drop, hleft]; rfl) hlt
    simpa using hrest

/-- The values `ParseDbValues` comes back with: one for each row, in their order. -/
theorem parsesDbValues_iff (reads : List (Read T)) (fresh : T) (r : ResultSet) (values : List T) :
    ParsesDbValues reads fresh r values ↔ values = r.rows.map fun row => parseDbValue reads (cells r.columns row) fresh := by
  have hends := ends_parseRound reads fresh r.columns r.rows r.rows 0 [] rfl (Nat.zero_le _)
  constructor
  · rintro ⟨r', h⟩
    exact congrArg Prod.snd (h.unique hends)
  · rintro rfl
    exact ⟨_, hends⟩

/-- The row of a record: what the calls put, and the number of the row. -/
def written (writes : List (Write T)) (value : T) (id : Int64) : Row := (buildDbValue writes value).onto (Row.fresh id)

theorem insert_buildDbValue {writes : List (Write T)} {t : Table}
    (hdeclared : ∀ w ∈ writes, w.column ∈ t.statement.allColumns.map Prod.fst) (value : T) :
    t.insert (buildDbValue writes value) =
      some { t with rows := t.rows ++ [written writes value t.nextId], nextId := t.nextId + 1 } := by
  have hdecl : t.declares (buildDbValue writes value) = true := by
    simpa [Table.declares, buildDbValue] using hdeclared
  rw [Table.insert, if_pos hdecl]
  rfl

/-- Rows are written for all the records, in their order, behind those that are there. -/
theorem batchInsert_buildDbValues {writes : List (Write T)} {t : Table}
    (hdeclared : ∀ w ∈ writes, w.column ∈ t.statement.allColumns.map Prod.fst) (values : List T) :
    ∃ t' ids, t.batchInsert (buildDbValues writes values) = some t' ∧ t'.statement = t.statement ∧
      ids.length = values.length ∧ t'.rows = t.rows ++ List.zipWith (written writes) values ids := by
  induction values generalizing t with
  | nil => exact ⟨t, [], rfl, rfl, rfl, by simp⟩
  | cons value values ih =>
    obtain ⟨t', ids, ht', hstatement, hids, hrows⟩ := ih (t := { t with
      rows := t.rows ++ [written writes value t.nextId], nextId := t.nextId + 1 }) hdeclared
    refine ⟨t', t.nextId :: ids, ?_, hstatement, by simp [hids], by simp [hrows]⟩
    simp only [Table.batchInsert, buildDbValues, List.map_cons, List.foldlM_cons]
    rw [insert_buildDbValue hdeclared]
    exact ht'

/-- What a call put stands in its column. -/
theorem cells_written {writes : List (Write T)} {columns : List String} (hnodup : (writes.map (·.column)).Nodup)
    (hdeclared : ∀ w ∈ writes, w.column ∈ columns) (value : T) (id : Int64) :
    ∀ w ∈ writes, cells columns (written writes value id) w.column = some (w.value value) := by
  intro w hw
  have hcolumns : ((buildDbValue writes value).map Prod.fst).Nodup := by
    simpa [buildDbValue, Function.comp_def] using hnodup
  have hmem : (w.column, w.value value) ∈ buildDbValue writes value := List.mem_map.mpr ⟨w, hw, rfl⟩
  simp [cells, hdeclared w hw, written, ValuesBucket.onto_of_mem hcolumns hmem]

/-- The number of the row stands in its column, when no call puts anything there. -/
theorem cells_written_id {writes : List (Write T)} {columns : List String} (hid : COLUMN_ID ∈ columns)
    (hunwritten : COLUMN_ID ∉ writes.map (·.column)) (value : T) (id : Int64) :
    cells columns (written writes value id) COLUMN_ID = some (.integer id) := by
  have hcolumns : COLUMN_ID ∉ (buildDbValue writes value).map Prod.fst := by
    simpa [buildDbValue, Function.comp_def] using hunwritten
  simp [cells, hid, written, ValuesBucket.onto_of_notMem hcolumns, Row.fresh]

end ITable

/-- A statement has the column, with a type that fits. -/
def CreateTable.Declares (c : CreateTable) (column : String) (fits : ColumnType → Bool) : Prop :=
  ∃ type, (column, type) ∈ c.allColumns ∧ fits type = true

theorem CreateTable.any_iff_declares (c : CreateTable) (column : String) (fits : ColumnType → Bool) :
    c.allColumns.any (fun e => e.1 = column && fits e.2) = true ↔ c.Declares column fits := by
  simp only [List.any_eq_true, Bool.and_eq_true, decide_eq_true_eq, CreateTable.Declares]
  constructor
  · rintro ⟨⟨_, type⟩, hmem, rfl, hfits⟩
    exact ⟨type, hmem, hfits⟩
  · rintro ⟨type, hmem, hfits⟩
    exact ⟨_, hmem, rfl, hfits⟩

instance (c : CreateTable) (column : String) (fits : ColumnType → Bool) : Decidable (c.Declares column fits) :=
  decidable_of_iff (c.allColumns.any (fun e => e.1 = column && fits e.2) = true) (CreateTable.any_iff_declares c column fits)

theorem CreateTable.Declares.mem {c : CreateTable} {column : String} {fits : ColumnType → Bool} (h : c.Declares column fits) :
    column ∈ c.allColumns.map Prod.fst := by
  obtain ⟨type, hmem, -⟩ := h
  exact List.mem_map.mpr ⟨_, hmem, rfl⟩

/-- Records that are inserted in a table are what a query gives besides what it gave before, in their order, as far as they are
persisted; and every column that is written or read is one of the columns of the table, no two of which have one name, with a type
made for what is written or read. -/
structure RoundTrips {T : Type} (statement : CreateTable) (reads : List (ITable.Read T)) (writes : List (ITable.Write T))
    (persisted : T → T) : Prop where
  stored : ∀ (t : Table) (fresh : T) (values : List T), t.statement = statement →
    ∃ t' before after, TableBaseOperator.insert writes t values = some t' ∧
      TableBaseOperator.QueriesAll reads fresh t before ∧ TableBaseOperator.QueriesAll reads fresh t' (before ++ after) ∧
      after.map persisted = values.map persisted
  columns : (statement.allColumns.map Prod.fst).Nodup
  written : ∀ w ∈ writes, statement.Declares w.column w.fits
  read : ∀ r ∈ reads, statement.Declares r.column r.fits

/-- What is read of a row that was written for a record decides what is read of the rows for a list of records. -/
theorem RoundTrips.of_rows {T : Type} {statement : CreateTable} {reads : List (ITable.Read T)} {writes : List (ITable.Write T)}
    {persisted : T → T} (hcolumns : (statement.allColumns.map Prod.fst).Nodup)
    (hwritten : ∀ w ∈ writes, statement.Declares w.column w.fits) (hread : ∀ r ∈ reads, statement.Declares r.column r.fits)
    (hrow : ∀ value fresh id, persisted (ITable.parseDbValue reads
      (ITable.cells (statement.allColumns.map Prod.fst) (ITable.written writes value id)) fresh) = persisted value) :
    RoundTrips statement reads writes persisted := by
  refine ⟨?_, hcolumns, hwritten, hread⟩
  rintro t fresh values rfl
  have hdeclared : ∀ w ∈ writes, w.column ∈ t.statement.allColumns.map Prod.fst := fun w hw => (hwritten w hw).mem
  obtain ⟨t', ids, hinsert, hstatement, hlen, hrows⟩ := ITable.batchInsert_buildDbValues hdeclared values
  let parse (row : Row) : T := ITable.parseDbValue reads (ITable.cells (t.statement.allColumns.map Prod.fst) row) fresh
  refine ⟨t', t.rows.map parse, (List.zipWith (ITable.written writes) values ids).map parse, hinsert,
    (ITable.parsesDbValues_iff ..).mpr rfl, (ITable.parsesDbValues_iff ..).mpr ?_, ?_⟩
  · simp [parse, Table.query, hstatement, hrows]
  · rw [List.map_map]
    clear hinsert hrows
    induction values generalizing ids with
    | nil => simp
    | cons value values ih =>
      cases ids with
      | nil => cases hlen
      | cons id ids => simpa [parse, hrow] using ih ids (by simpa using hlen)

end UpdateEngine.Rdb

namespace UpdateEngine.Db

open Rdb Rdb.ITable

namespace FirmwareComponentTable

theorem columns_nodup : (createTable.allColumns.map Prod.fst).Nodup := by decide

theorem writes_nodup : (writes.map (·.column)).Nodup := by decide

theorem writes_declared : ∀ w ∈ writes, createTable.Declares w.column w.fits := by decide

theorem reads_declared : ∀ r ∈ reads, createTable.Declares r.column r.fits := by decide

/-- What is read of the row of a component: the component, with the number of the row. -/
theorem parseDbValue_written (value fresh : FirmwareComponent) (id : Int64) :
    parseDbValue reads (cells (createTable.allColumns.map Prod.fst) (written writes value id)) fresh =
      { value with id := id.toInt32 } := by
  have hid : cells (createTable.allColumns.map Prod.fst) (written writes value id) COLUMN_ID = some (.integer id) :=
    cells_written_id (List.mem_cons_self ..) (by decide) value id
  have hcells := cells_written writes_nodup (fun w hw => (writes_declared w hw).mem) value id
  generalize cells (createTable.allColumns.map Prod.fst) (written writes value id) = cell at hid hcells
  simp only [writes, List.forall_mem_cons, putColumnValue] at hcells
  have hget : (ColumnValue.get (Value.integer id) : Option Int32) = some id.toInt32 := rfl
  simp [parseDbValue, reads, getColumnValue, hid, hget, hcells, ColumnValue.get_put]

/-- The persisted members: the number of the row is given by the store. -/
def persisted (value : FirmwareComponent) : FirmwareComponent := { value with id := 0 }

theorem round_trips : RoundTrips createTable reads writes persisted := by
  refine RoundTrips.of_rows columns_nodup writes_declared reads_declared ?_
  intro value fresh id
  rw [parseDbValue_written]
  rfl

end FirmwareComponentTable

namespace FirmwareTaskTable

theorem columns_nodup : (createTable.allColumns.map Prod.fst).Nodup := by decide

theorem writes_nodup : (writes.map (·.column)).Nodup := by decide

theorem writes_declared : ∀ w ∈ writes, createTable.Declares w.column w.fits := by decide

theorem reads_declared : ∀ r ∈ reads, createTable.Declares r.column r.fits := by decide

/-- What is read of the row of a task: the task, up to `isExistTask`, which no column holds. -/
theorem parseDbValue_written (value fresh : FirmwareTask) (id : Int64) :
    parseDbValue reads (cells (createTable.allColumns.map Prod.fst) (written writes value id)) fresh =
      { value with isExistTask := fresh.isExistTask } := by
  have hcells := cells_written writes_nodup (fun w hw => (writes_declared w hw).mem) value id
  generalize cells (createTable.allColumns.map Prod.fst) (written writes value id) = cell at hcells
  simp only [writes, List.forall_mem_cons, putColumnValue] at hcells
  simp [parseDbValue, reads, getColumnValue, hcells, ColumnValue.get_put]

/-- The persisted members: whether there is a task is set by the caller. -/
def persisted (value : FirmwareTask) : FirmwareTask := { value with isExistTask := false }

theorem round_trips : RoundTrips createTable reads writes persisted := by
  refine RoundTrips.of_rows columns_nodup writes_declared reads_declared ?_
  intro value fresh id
  rw [parseDbValue_written]
  rfl

end FirmwareTaskTable

/-- Components and tasks that are inserted come back from a query as they were, in their order, and every column that is written or
read is one of its table with a type that fits. -/
theorem rows_round_trip :
    RoundTrips FirmwareComponentTable.createTable FirmwareComponentTable.reads FirmwareComponentTable.writes
        FirmwareComponentTable.persisted ∧
      RoundTrips FirmwareTaskTable.createTable FirmwareTaskTable.reads FirmwareTaskTable.writes FirmwareTaskTable.persisted :=
  ⟨FirmwareComponentTable.round_trips, FirmwareTaskTable.round_trips⟩

end UpdateEngine.Db
