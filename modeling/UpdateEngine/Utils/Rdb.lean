import Mathlib.Logic.Function.Basic
import UpdateEngine.Loop

/-!
# Rows and columns

The tables of the relational store and `ITable`, which writes records to them and reads records from them. `ITable` has one
`PutColumnValue` and one `GetColumnValue` for each type of member and leaves the choice to overloading; here the choice is an
instance of `ColumnValue`. What a table writes and reads is a list of such calls, in the order of the source.
-/

namespace UpdateEngine.Rdb

/-! ## Values -/

/-- A value in a row. -/
inductive Value where
  | null
  | integer (n : Int64)
  | text (s : String)
  deriving DecidableEq, Repr

/-- The type a column is declared with. -/
inductive ColumnType where
  | integer | bigint
  | varchar (length : Nat)
  deriving DecidableEq, Repr

/-- How a type is written in a statement. -/
def ColumnType.sql : ColumnType → String
  | .integer => "integer"
  | .bigint => "bigint"
  | .varchar n => "varchar(" ++ toString n ++ ")"

/-- `COLUMN_ID`: the number of a row, which the store gives it. -/
def COLUMN_ID : String := "id"

/-- A statement that creates a table: its name, and its columns besides `COLUMN_ID`. -/
structure CreateTable where
  name : String
  columns : List (String × ColumnType)

/-- The text of the statement. -/
def CreateTable.sql (c : CreateTable) : String :=
  "create table if not exists " ++ c.name ++ " (" ++ COLUMN_ID ++ " integer PRIMARY KEY autoincrement not null," ++
    ",".intercalate (c.columns.map fun e => e.1 ++ " " ++ e.2.sql) ++ ")"

/-- All the columns with their types. -/
def CreateTable.allColumns (c : CreateTable) : List (String × ColumnType) := (COLUMN_ID, .integer) :: c.columns

/-- The overloads of `PutColumnValue` and `GetIndexValue` for the members of one type, and the columns made for it. -/
class ColumnValue (α : Type) where
  put : α → Value
  get : Value → Option α
  fits : ColumnType → Bool
  get_put : ∀ v, get (put v) = some v

/-- `PutString` and `GetString`. -/
instance : ColumnValue String where
  put := .text
  get
    | .text s => some s
    | _ => none
  fits
    | .varchar _ => true
    | _ => false
  get_put _ := rfl

/-- `PutInt` and `GetInt`. -/
instance : ColumnValue Int32 where
  put n := .integer n.toInt64
  get
    | .integer n => some n.toInt32
    | _ => none
  fits t := t = .integer
  get_put n := by simp

/-- `PutLong` and `GetLong`. -/
instance : ColumnValue Int64 where
  put := .integer
  get
    | .integer n => some n
    | _ => none
  fits t := t = .bigint
  get_put _ := rfl

/-- A `bool` is put as 0 or 1, and what is not 0 is read as true. -/
instance : ColumnValue Bool where
  put b := .integer (if b then 1 else 0)
  get
    | .integer n => some (n.toInt32 ≠ 0)
    | _ => none
  fits t := t = .integer
  get_put b := by cases b <;> rfl

/-! ## The store -/

/-- `ValuesBucket`: what is put in a row, column by column. -/
abbrev ValuesBucket := List (String × Value)

/-- A row: what stands in a column. -/
abbrev Row := String → Value

/-- A table: the statement that made it, and its rows in the order of their insertion. -/
structure Table where
  statement : CreateTable
  rows : List Row := []
  nextId : Int64 := 1

/-- A row in which nothing stands besides its number. -/
def Row.fresh (id : Int64) : Row := fun column => if column = COLUMN_ID then .integer id else .null

/-- A row with the values of a bucket put in their columns. -/
def ValuesBucket.onto (bucket : ValuesBucket) (row : Row) : Row := bucket.foldl (fun row e => Function.update row e.1 e.2) row

/-- Whether all columns of a bucket are columns of the table. -/
def Table.declares (t : Table) (bucket : ValuesBucket) : Bool :=
  bucket.all fun e => (t.statement.allColumns.map Prod.fst).contains e.1

/-- Insert one row, with its number in `COLUMN_ID`; none when a column is not one of the table. -/
def Table.insert (t : Table) (bucket : ValuesBucket) : Option Table :=
  if t.declares bucket then
    some { t with rows := t.rows ++ [bucket.onto (Row.fresh t.nextId)], nextId := t.nextId + 1 }
  else none

/-- `BatchInsert`: all of the rows or none. -/
def Table.batchInsert (t : Table) (buckets : List ValuesBucket) : Option Table := buckets.foldlM Table.insert t

/-- `ResultSet`: the columns and rows of a query, and where the cursor stands. -/
structure ResultSet where
  columns : List String
  rows : List Row
  pos : Nat := 0

/-- `Query` for every row and column of the table. -/
def Table.query (t : Table) : ResultSet := { columns := t.statement.allColumns.map Prod.fst, rows := t.rows }

namespace ResultSet

def goToFirstRow (r : ResultSet) : ResultSet := { r with pos := 0 }

def goToNextRow (r : ResultSet) : ResultSet := { r with pos := min (r.pos + 1) r.rows.length }

def isEnded (r : ResultSet) : Bool := r.rows.length ≤ r.pos

/-- What stands in a column of the row at the cursor: none when `GetColumnIndex` does not know the column, or there is no row. -/
def cell (r : ResultSet) (column : String) : Option Value :=
  if r.columns.contains column then r.rows[r.pos]?.map (· column) else none

end ResultSet

/-! ## ITable -/

namespace ITable

variable {T : Type}

/-- A call of `PutColumnValue`: the column, the overload and the member. -/
structure Write (T : Type) where
  column : String
  fits : ColumnType → Bool
  value : T → Value

/-- `PutColumnValue`. -/
def putColumnValue {α : Type} [ColumnValue α] (column : String) (member : T → α) : Write T where
  column := column
  fits := ColumnValue.fits α
  value v := ColumnValue.put (member v)

/-- A call of `GetColumnValue`: the column, the overload, and what becomes of the record, given what stands in the columns. -/
structure Read (T : Type) where
  column : String
  fits : ColumnType → Bool
  run : (String → Option Value) → T → T

/-- `GetColumnValue`: the variable it is given starts as `start`, keeps this when nothing is read, and is stored by `store`. -/
def getColumnValue {α : Type} [ColumnValue α] (column : String) (start : T → α) (store : α → T → T) : Read T where
  column := column
  fits := ColumnValue.fits α
  run cell v := store (((cell column).bind ColumnValue.get).getD (start v)) v

/-- `BuildDbValue`: the calls in their order. -/
def buildDbValue (writes : List (Write T)) (value : T) : ValuesBucket := writes.map fun w => (w.column, w.value value)

/-- `BuildDbValues`. -/
def buildDbValues (writes : List (Write T)) (values : List T) : List ValuesBucket := values.map (buildDbValue writes)

/-- `ParseDbValue`: the calls in their order. -/
def parseDbValue (reads : List (Read T)) (cell : String → Option Value) (value : T) : T :=
  reads.foldl (fun v r => r.run cell v) value

/-- One round of `ParseDbValues`: a new value is read from the row at the cursor. -/
def parseRound (reads : List (Read T)) (fresh : T) (s : ResultSet × List T) : Option (ResultSet × List T) :=
  if s.1.isEnded then none else some (s.1.goToNextRow, s.2 ++ [parseDbValue reads s.1.cell fresh])

/-- `ParseDbValues` comes to its end with these values. -/
def ParsesDbValues (reads : List (Read T)) (fresh : T) (resultSet : ResultSet) (values : List T) : Prop :=
  ∃ r, Loop.Ends (parseRound reads fresh) (resultSet.goToFirstRow, []) (r, values)

end ITable

/-! ## TableBaseOperator -/

namespace TableBaseOperator

variable {T : Type}

/-- `Insert`. -/
def insert (writes : List (ITable.Write T)) (t : Table) (values : List T) : Option Table :=
  t.batchInsert (ITable.buildDbValues writes values)

/-- `QueryAll` gives these results. -/
def QueriesAll (reads : List (ITable.Read T)) (fresh : T) (t : Table) (results : List T) : Prop :=
  ITable.ParsesDbValues reads fresh t.query results

end TableBaseOperator

end UpdateEngine.Rdb
