import UpdateEngine.Firmware.Tables
import UpdateEngine.Utils.SqliteDb

/-!
# The operators of the firmware database

`FirmwareTaskOperator` and `FirmwareComponentOperator`: each update is a bucket with the columns it sets and the predicate for the rows
it is for. A call of either is one of `Call`; besides those, the database is deleted when the environment is reset, and the process
starts anew with the file that is there.
-/

namespace UpdateEngine.Db

open Rdb

/-- `FirmwareDatabaseCallback::GenerateDbCreateSqlVector`. -/
def dbCreateSqlVector : List CreateTable := [FirmwareComponentTable.createTable, FirmwareTaskTable.createTable]

/-! ## FirmwareTaskOperator -/

/-- `FirmwareTaskOperator`; a new `FirmwareTask` has the values of its initializers. -/
def FirmwareTaskOperator : TableBaseOperator FirmwareTask where
  dbOpenCallback := dbCreateSqlVector
  statement := FirmwareTaskTable.createTable
  reads := FirmwareTaskTable.reads
  writes := FirmwareTaskTable.writes
  fresh := {}

namespace FirmwareTaskOperator

open FirmwareTaskTable

variable (a : RdbAnswer) (db : SqliteDb)

/-- `QueryTask`: what becomes of the task it is given. -/
def queryTask (task : FirmwareTask) : FirmwareTask × SqliteDb :=
  match FirmwareTaskOperator.queryAll a db with
  | (some (first :: _), db) => ({ first with isExistTask := true }, db)
  | (_, db) => ({ task with isExistTask := false }, db)

/-- `UpdateByTaskId`. -/
def updateByTaskId (taskId : String) (values : ValuesBucket) : Bool × SqliteDb :=
  FirmwareTaskOperator.update a db values
    (RdbPredicates.equalTo { tableName := FirmwareTaskOperator.getTableName } COLUMN_TASK_TASK_ID taskId)

/-- `UpdateProgressByTaskId` (here and below, `CAST_INT` of an enumeration is the `int` it is). -/
def updateProgressByTaskId (taskId : String) (status : UpgradeStatus) (progress : Int32) : Bool × SqliteDb :=
  updateByTaskId a db taskId [(COLUMN_TASK_STATUS, ColumnValue.put status), (COLUMN_TASK_PROGRESS, ColumnValue.put progress)]

/-- `UpdateErrMsgByTaskId`. -/
def updateErrMsgByTaskId (taskId : String) (errorCode : Int32) (errorMsg : String) : Bool × SqliteDb :=
  updateByTaskId a db taskId [(COLUMN_TASK_ERROR_CODE, ColumnValue.put errorCode), (COLUMN_TASK_ERROR_MSG, ColumnValue.put errorMsg)]

/-- `UpdateDownloadTaskIdByTaskId`. -/
def updateDownloadTaskIdByTaskId (taskId downloadTaskId : String) : Bool × SqliteDb :=
  updateByTaskId a db taskId [(COLUMN_TASK_DOWNLOAD_TASK_ID, ColumnValue.put downloadTaskId)]

/-- `UpdateCombinationTypeByTaskId`. -/
def updateCombinationTypeByTaskId (taskId : String) (combinationType : CombinationType) : Bool × SqliteDb :=
  updateByTaskId a db taskId [(COLUMN_TASK_COMBINATION_TYPE, ColumnValue.put combinationType)]

/-- `UpdateDownloadModeByTaskId`. -/
def updateDownloadModeByTaskId (taskId : String) (downloadMode : DownloadMode) : Bool × SqliteDb :=
  updateByTaskId a db taskId [(COLUMN_TASK_DOWNLOAD_MODE, ColumnValue.put downloadMode)]

/-- `UpdateDownloadAllowNetworkByTaskId`. -/
def updateDownloadAllowNetworkByTaskId (taskId : String) (downloadAllowNetwork : NetType) : Bool × SqliteDb :=
  updateByTaskId a db taskId [(COLUMN_TASK_DOWNLOAD_ALLOW_NETWORK, ColumnValue.put downloadAllowNetwork)]

/-- `UpdateDownloadOrderByTaskId`. -/
def updateDownloadOrderByTaskId (taskId : String) (downloadOrder : Order) : Bool × SqliteDb :=
  updateByTaskId a db taskId [(COLUMN_TASK_DOWNLOAD_ORDER, ColumnValue.put downloadOrder)]

/-- `UpdateDownloadOptionByTaskId`. -/
def updateDownloadOptionByTaskId (taskId : String) (downloadMode : DownloadMode) (downloadAllowNetwork : NetType)
    (downloadOrder : Order) : Bool × SqliteDb :=
  updateByTaskId a db taskId [(COLUMN_TASK_DOWNLOAD_MODE, ColumnValue.put downloadMode),
    (COLUMN_TASK_DOWNLOAD_ALLOW_NETWORK, ColumnValue.put downloadAllowNetwork),
    (COLUMN_TASK_DOWNLOAD_ORDER, ColumnValue.put downloadOrder)]

/-- `UpdateUpgradeModeByTaskId`. -/
def updateUpgradeModeByTaskId (taskId : String) (upgradeMode : UpgradeMode) : Bool × SqliteDb :=
  updateByTaskId a db taskId [(COLUMN_TASK_UPGRADE_MODE, ColumnValue.put upgradeMode)]

/-- `UpdateUpgradeOrderByTaskId`. -/
def updateUpgradeOrderByTaskId (taskId : String) (upgradeOrder : Order) : Bool × SqliteDb :=
  updateByTaskId a db taskId [(COLUMN_TASK_UPGRADE_ORDER, ColumnValue.put upgradeOrder)]

end FirmwareTaskOperator

/-- The updates of `FirmwareTaskOperator`, each by its arguments besides the identifier of the task. -/
inductive TaskUpdate where
  | progress (status : UpgradeStatus) (progress : Int32)
  | errMsg (errorCode : Int32) (errorMsg : String)
  | downloadTaskId (downloadTaskId : String)
  | combinationType (combinationType : CombinationType)
  | downloadMode (downloadMode : DownloadMode)
  | downloadAllowNetwork (downloadAllowNetwork : NetType)
  | downloadOrder (downloadOrder : Order)
  | downloadOption (downloadMode : DownloadMode) (downloadAllowNetwork : NetType) (downloadOrder : Order)
  | upgradeMode (upgradeMode : UpgradeMode)
  | upgradeOrder (upgradeOrder : Order)
  deriving DecidableEq, Repr

/-- An update. -/
def TaskUpdate.run (a : RdbAnswer) (db : SqliteDb) (taskId : String) : TaskUpdate → Bool × SqliteDb
  | .progress s p => FirmwareTaskOperator.updateProgressByTaskId a db taskId s p
  | .errMsg e m => FirmwareTaskOperator.updateErrMsgByTaskId a db taskId e m
  | .downloadTaskId i => FirmwareTaskOperator.updateDownloadTaskIdByTaskId a db taskId i
  | .combinationType c => FirmwareTaskOperator.updateCombinationTypeByTaskId a db taskId c
  | .downloadMode m => FirmwareTaskOperator.updateDownloadModeByTaskId a db taskId m
  | .downloadAllowNetwork n => FirmwareTaskOperator.updateDownloadAllowNetworkByTaskId a db taskId n
  | .downloadOrder o => FirmwareTaskOperator.updateDownloadOrderByTaskId a db taskId o
  | .downloadOption m n o => FirmwareTaskOperator.updateDownloadOptionByTaskId a db taskId m n o
  | .upgradeMode m => FirmwareTaskOperator.updateUpgradeModeByTaskId a db taskId m
  | .upgradeOrder o => FirmwareTaskOperator.updateUpgradeOrderByTaskId a db taskId o

/-! ## FirmwareComponentOperator -/

/-- `FirmwareComponentOperator`, with what `isNeedRestart`, which has no initializer, holds in a new `FirmwareComponent`. -/
def FirmwareComponentOperator (isNeedRestart : Bool) : TableBaseOperator FirmwareComponent where
  dbOpenCallback := dbCreateSqlVector
  statement := FirmwareComponentTable.createTable
  reads := FirmwareComponentTable.reads
  writes := FirmwareComponentTable.writes
  fresh := { isNeedRestart }

namespace FirmwareComponentOperator

open FirmwareComponentTable

variable (isNeedRestart : Bool) (a : RdbAnswer) (db : SqliteDb)

/-- The predicate of each function. -/
def predicates (column value : String) : RdbPredicates :=
  RdbPredicates.equalTo { tableName := (FirmwareComponentOperator isNeedRestart).getTableName } column value

/-- `UpdateProgressByUrl`. -/
def updateProgressByUrl (url : String) (status : UpgradeStatus) (progress : Int32) : Bool × SqliteDb :=
  (FirmwareComponentOperator isNeedRestart).update a db
    [(COLUMN_COMPONENT_STATUS, ColumnValue.put status), (COLUMN_COMPONENT_PROGRESS, ColumnValue.put progress)]
    (predicates isNeedRestart COLUMN_COMPONENT_DOWNLOAD_URL url)

/-- `UpdateUrlByVersionId`. -/
def updateUrlByVersionId (versionId url : String) : Bool × SqliteDb :=
  (FirmwareComponentOperator isNeedRestart).update a db [(COLUMN_COMPONENT_DOWNLOAD_URL, ColumnValue.put url)]
    (predicates isNeedRestart COLUMN_COMPONENT_VERSION_ID versionId)

/-- `QueryByVersionId` and `QueryByUrl` but for the column: the component found, if there is one. -/
def queryBy (column value : String) : Option FirmwareComponent × SqliteDb :=
  match (FirmwareComponentOperator isNeedRestart).query a db (predicates isNeedRestart column value) with
  | (some (component :: _), db) => (some component, db)
  | (_, db) => (none, db)

/-- `QueryByVersionId`. -/
def queryByVersionId : String → Option FirmwareComponent × SqliteDb := queryBy isNeedRestart a db COLUMN_COMPONENT_VERSION_ID

/-- `QueryByUrl`. -/
def queryByUrl : String → Option FirmwareComponent × SqliteDb := queryBy isNeedRestart a db COLUMN_COMPONENT_DOWNLOAD_URL

end FirmwareComponentOperator

/-! ## Calls -/

/-- What is done to the database: the calls of the two operators, `DeleteDbStore`, and a new process. -/
inductive Call where
  | insertTask (value : FirmwareTask)
  | deleteTasks
  | queryTask (task : FirmwareTask)
  | updateByTaskId (taskId : String) (u : TaskUpdate)
  | insertComponents (values : List FirmwareComponent)
  | deleteComponents
  | queryComponents
  | updateProgressByUrl (url : String) (status : UpgradeStatus) (progress : Int32)
  | updateUrlByVersionId (versionId url : String)
  | queryByVersionId (versionId : String)
  | queryByUrl (url : String)
  | deleteDbStore
  | restart

/-- What a call comes back with. -/
inductive Result where
  | bool (b : Bool)
  | task (task : FirmwareTask)
  | components (results : Option (List FirmwareComponent))
  | component (component : Option FirmwareComponent)
  | none
  deriving DecidableEq, Repr

/-- A call. -/
def Call.run (isNeedRestart : Bool) (a : RdbAnswer) (db : SqliteDb) : Call → Result × SqliteDb
  | .insertTask value => (FirmwareTaskOperator.insertValue a db value).map .bool id
  | .deleteTasks => (FirmwareTaskOperator.deleteAll a db).map .bool id
  | .queryTask task => (FirmwareTaskOperator.queryTask a db task).map .task id
  | .updateByTaskId taskId u => (u.run a db taskId).map .bool id
  | .insertComponents values => ((FirmwareComponentOperator isNeedRestart).insertValues a db values).map .bool id
  | .deleteComponents => ((FirmwareComponentOperator isNeedRestart).deleteAll a db).map .bool id
  | .queryComponents => ((FirmwareComponentOperator isNeedRestart).queryAll a db).map .components id
  | .updateProgressByUrl url s p => (FirmwareComponentOperator.updateProgressByUrl isNeedRestart a db url s p).map .bool id
  | .updateUrlByVersionId v url => (FirmwareComponentOperator.updateUrlByVersionId isNeedRestart a db v url).map .bool id
  | .queryByVersionId v => (FirmwareComponentOperator.queryByVersionId isNeedRestart a db v).map .component id
  | .queryByUrl url => (FirmwareComponentOperator.queryByUrl isNeedRestart a db url).map .component id
  | .deleteDbStore => (db.deleteDbStore a).map .bool id
  | .restart => (.none, { db with isOpen := false })

/-- Calls after each other, each with what the relational store answers. -/
def runCalls (isNeedRestart : Bool) : List (Call × RdbAnswer) → SqliteDb → List Result × SqliteDb
  | [], db => ([], db)
  | (c, a) :: l, db =>
    let (r, db) := c.run isNeedRestart a db
    (runCalls isNeedRestart l db).map (r :: ·) id

end UpdateEngine.Db
