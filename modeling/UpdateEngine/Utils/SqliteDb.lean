import UpdateEngine.Utils.Rdb

/-!
# The database and its operators

`SqliteDb`, which opens the file of a database with the first call that needs it, and `TableBaseOperator`, through which the records of
one table are reached. What becomes of a call is answered by the relational store: it may fail to open the file, and it may refuse the
call; a call that is not carried out leaves every row as it is.
-/

namespace UpdateEngine.Rdb

/-! ## Predicates and stores -/

/-- `RdbPredicates`: the table, and the texts the columns of its rows have to be equal to. -/
structure RdbPredicates where
  tableName : String
  equalTos : List (String × String) := []

/-- `EqualTo`. -/
def RdbPredicates.equalTo (p : RdbPredicates) (field value : String) : RdbPredicates :=
  { p with equalTos := p.equalTos ++ [(field, value)] }

/-- Whether a row is one of those meant. -/
def RdbPredicates.selects (p : RdbPredicates) (row : Row) : Bool := p.equalTos.all fun e => row e.1 = .text e.2

/-- `Query` for every column of the rows a test selects. -/
def Table.select (t : Table) (test : Row → Bool) : ResultSet :=
  { columns := t.statement.allColumns.map Prod.fst, rows := t.rows.filter test }

/-- `Delete`, with the number of rows deleted. -/
def Table.delete (t : Table) (test : Row → Bool) : Nat × Table :=
  (t.rows.countP test, { t with rows := t.rows.filter fun row => !test row })

/-- `Update`, with the number of rows changed; none when a column is not one of the table. -/
def Table.update (t : Table) (bucket : ValuesBucket) (test : Row → Bool) : Option (Nat × Table) :=
  if t.declares bucket then
    some (t.rows.countP test, { t with rows := t.rows.map fun row => if test row then bucket.onto row else row })
  else none

/-- `RdbStore`: the tables of a database. -/
abbrev RdbStore := List Table

namespace RdbStore

/-- The table of a name. -/
def table (store : RdbStore) (name : String) : Option Table := store.find? fun t => t.statement.name = name

/-- A table in the place of the one of its name. -/
def put (store : RdbStore) (t : Table) : RdbStore := store.map fun u => if u.statement.name = t.statement.name then t else u

/-- `ExecuteSql`, of a statement that creates a table if it does not exist. -/
def executeSql (store : RdbStore) (c : CreateTable) : RdbStore :=
  if (store.table c.name).isSome then store else store ++ [{ statement := c }]

/-- `BatchInsert`. -/
def batchInsert (store : RdbStore) (tableName : String) (values : List ValuesBucket) : Option RdbStore := do
  let t ← store.table tableName
  return store.put (← t.batchInsert values)

/-- `Delete`. -/
def delete (store : RdbStore) (predicates : RdbPredicates) : Option (Nat × RdbStore) := do
  let t ← store.table predicates.tableName
  let (deletedRows, t') := t.delete predicates.selects
  return (deletedRows, store.put t')

/-- `Query`. -/
def query (store : RdbStore) (predicates : RdbPredicates) : Option ResultSet := do
  let t ← store.table predicates.tableName
  return t.select predicates.selects

/-- `Update`. -/
def update (store : RdbStore) (values : ValuesBucket) (predicates : RdbPredicates) : Option (Nat × RdbStore) := do
  let t ← store.table predicates.tableName
  let (changedRows, t') ← t.update values predicates.selects
  return (changedRows, store.put t')

end RdbStore

/-! ## SqliteDb -/

/-- What the relational store answers: whether it opens the file, and whether it carries the call out. -/
structure RdbAnswer where
  opens : Bool := true
  succeeds : Bool := true

/-- `SqliteDb`: what the file holds, if there is one, and whether `dbStore_` is set. -/
structure SqliteDb where
  file : Option RdbStore := none
  isOpen : Bool := false

namespace SqliteDb

/-- `RdbOpenCallback::OnCreate`: the statements for a file that is new. -/
def onCreate (dbOpenCallback : List CreateTable) : RdbStore := dbOpenCallback.foldl RdbStore.executeSql []

/-- `CreateDbStore`. -/
def createDbStore (dbOpenCallback : List CreateTable) (a : RdbAnswer) (db : SqliteDb) : SqliteDb :=
  if a.opens then { file := some (db.file.getD (onCreate dbOpenCallback)), isOpen := true } else db

/-- `GetDbStore`: the database afterwards, and the store, unless it is null. -/
def getDbStore (dbOpenCallback : List CreateTable) (a : RdbAnswer) (db : SqliteDb) : Option RdbStore × SqliteDb :=
  let db := if db.isOpen then db else db.createDbStore dbOpenCallback a
  (if db.isOpen then db.file else none, db)

/-- `DeleteDbStore`: the store is let go of also when the file cannot be deleted. -/
def deleteDbStore (a : RdbAnswer) (db : SqliteDb) : Bool × SqliteDb :=
  (a.succeeds, { file := if a.succeeds then none else db.file, isOpen := false })

/-- What the functions below have in common: a call of the store, which changes the file; none when it is not carried out. -/
def call {β : Type} (dbOpenCallback : List CreateTable) (f : RdbStore → Option (β × RdbStore)) (a : RdbAnswer) (db : SqliteDb) :
    Option β × SqliteDb :=
  match db.getDbStore dbOpenCallback a with
  | (none, db) => (none, db)
  | (some dbStore, db) =>
    match if a.succeeds then f dbStore else none with
    | none => (none, db)
    | some (x, dbStore) => (some x, { db with file := some dbStore })

/-- `Insert`. -/
def insert (dbOpenCallback : List CreateTable) (tableName : String) (values : List ValuesBucket) :
    RdbAnswer → SqliteDb → Option Unit × SqliteDb :=
  call dbOpenCallback fun dbStore => (dbStore.batchInsert tableName values).map fun s => ((), s)

/-- `Delete`. -/
def delete (dbOpenCallback : List CreateTable) (predicates : RdbPredicates) : RdbAnswer → SqliteDb → Option Nat × SqliteDb :=
  call dbOpenCallback fun dbStore => dbStore.delete predicates

/-- `Query`. -/
def query (dbOpenCallback : List CreateTable) (predicates : RdbPredicates) :
    RdbAnswer → SqliteDb → Option ResultSet × SqliteDb :=
  call dbOpenCallback fun dbStore => (dbStore.query predicates).map fun r => (r, dbStore)

/-- `Update`. -/
def update (dbOpenCallback : List CreateTable) (values : ValuesBucket) (predicates : RdbPredicates) :
    RdbAnswer → SqliteDb → Option Nat × SqliteDb :=
  call dbOpenCallback fun dbStore => dbStore.update values predicates

end SqliteDb

/-! ## TableBaseOperator -/

/-- `ParseDbValues`: a round for each row, and one that finds the cursor at the end. -/
def ITable.parseDbValues {T : Type} (reads : List (ITable.Read T)) (fresh : T) (resultSet : ResultSet) : List T :=
  ((Loop.run (ITable.parseRound reads fresh) (resultSet.rows.length + 1) (resultSet.goToFirstRow, [])).map Prod.snd).getD []

/-- `TableBaseOperator`: its database, by the statements that make it, and its table. -/
structure TableBaseOperator (T : Type) where
  dbOpenCallback : List CreateTable
  statement : CreateTable
  reads : List (ITable.Read T)
  writes : List (ITable.Write T)
  fresh : T

namespace TableBaseOperator

variable {T : Type} (self : TableBaseOperator T) (a : RdbAnswer) (db : SqliteDb)

/-- `GetTableName`. -/
def getTableName : String := self.statement.name

/-- `Insert`, of several values. -/
def insertValues (values : List T) : Bool × SqliteDb :=
  let (done, db) := SqliteDb.insert self.dbOpenCallback self.getTableName (ITable.buildDbValues self.writes values) a db
  (done.isSome, db)

/-- `Insert`, of one value. -/
def insertValue (value : T) : Bool × SqliteDb := self.insertValues a db [value]

/-- `Delete`. -/
def delete (predicates : RdbPredicates) : Bool × SqliteDb :=
  let (deletedRows, db) := SqliteDb.delete self.dbOpenCallback predicates a db
  (deletedRows.isSome, db)

/-- `DeleteAll`. -/
def deleteAll : Bool × SqliteDb := self.delete a db { tableName := self.getTableName }

/-- `Query`: what is appended to the results, if it succeeds. -/
def query (predicates : RdbPredicates) : Option (List T) × SqliteDb :=
  let (resultSet, db) := SqliteDb.query self.dbOpenCallback predicates a db
  (resultSet.map (ITable.parseDbValues self.reads self.fresh), db)

/-- `QueryAll`. -/
def queryAll : Option (List T) × SqliteDb := self.query a db { tableName := self.getTableName }

/-- `Update`. -/
def update (values : ValuesBucket) (predicates : RdbPredicates) : Bool × SqliteDb :=
  let (changedRows, db) := SqliteDb.update self.dbOpenCallback values predicates a db
  (changedRows.isSome, db)

end TableBaseOperator

end UpdateEngine.Rdb
