import UpdateEngine.Utils.Rdb

/-!
# The tables of the firmware database

`FirmwareComponentTable` and `FirmwareTaskTable`: the statement that creates each table, and the calls that write a record to a row
and read it back, in the order of the source. An enumeration is the `int` underneath it, to which it is cast on the way in and from
which it is cast without a test on the way out.
-/

namespace UpdateEngine.Db

open Rdb Rdb.ITable

/-! ## Enumerations -/

abbrev UpgradeStatus := Int32
abbrev PackageType := Int32
abbrev CombinationType := Int32
abbrev DownloadMode := Int32
abbrev UpgradeMode := Int32
abbrev NetType := Int32
abbrev Order := Int32

/-! The members the tables name. -/

def UpgradeStatus.INIT : UpgradeStatus := 0
def PackageType.DYNAMIC : PackageType := 0
def CombinationType.INVALLID_TYPE : CombinationType := 0
def DownloadMode.MANUAL : DownloadMode := 0
def UpgradeMode.MANUAL : UpgradeMode := 0
def NetType.NOT_METERED_WIFI : NetType := 4
def NetType.WIFI : NetType := 6
def Order.DOWNLOAD : Order := 1
def Order.INSTALL : Order := 2
def Order.INSTALL_AND_APPLY : Order := 6

/-! ## FirmwareComponent -/

/-- `FirmwareComponent`, with all its members (`isNeedRestart` has no initial value in the source, and is read for every row). -/
structure FirmwareComponent where
  id : Int32 := 0
  versionId : String := ""
  packageIndex : Int32 := 0
  versionPackageType : PackageType := .DYNAMIC
  targetBlVersionNumber : String := ""
  targetBlDisplayVersionNumber : String := ""
  versionNumber : String := ""
  blVersionInfo : String := ""
  componentId : String := ""
  descriptPackageId : String := ""
  changelogUrl : String := ""
  blVersionType : Int32 := 0
  isNeedRestart : Bool := false
  patchType : Int32 := 0
  url : String := ""
  reserveUrl : String := ""
  storageType : Int32 := 0
  fileName : String := ""
  size : Int64 := 0
  verifyInfo : String := ""
  spath : String := ""
  status : UpgradeStatus := .INIT
  progress : Int32 := 0
  deriving DecidableEq, Repr

namespace FirmwareComponentTable

def FIRMWARE_TABLE_COMPONENT : String := "component"
def COLUMN_COMPONENT_VERSION_ID : String := "versionId"
def COLUMN_COMPONENT_VERSION_PACKAGE_TYPE : String := "versionPackageType"
def COLUMN_COMPONENT_PACKAGE_INDEX : String := "packageIndex"
def COLUMN_COMPONENT_TARGET_BL_DISPLAY_VERSION_NUMBER : String := "targetBlDisplayVersionNumber"
def COLUMN_COMPONENT_TARGET_BL_VERSION_NUMBER : String := "targetBlVersionNumber"
def COLUMN_COMPONENT_VERSION_NUMBER : String := "versionNumber"
def COLUMN_COMPONENT_BL_VERSION_INFO : String := "blVersionInfo"
def COLUMN_COMPONENT_DESCRIPT_PACKAGE_ID : String := "descriptPackageId"
def COLUMN_COMPONENT_COMPONENT_ID : String := "componentId"
def COLUMN_COMPONENT_CHANGELOG_URL : String := "changelogUrl"
def COLUMN_COMPONENT_BL_VERSION_TYPE : String := "blVersionType"
def COLUMN_COMPONENT_IS_NEED_RESTART : String := "isNeedRestart"
def COLUMN_COMPONENT_PATCH_TYPE : String := "patchType"
def COLUMN_COMPONENT_DOWNLOAD_URL : String := "url"
def COLUMN_COMPONENT_RESERVE_URL : String := "reserveUrl"
def COLUMN_COMPONENT_STORAGE_TYPE : String := "storageType"
def COLUMN_COMPONENT_VERIFY_INFO : String := "verifyInfo"
def COLUMN_COMPONENT_SIZE : String := "size"
def COLUMN_COMPONENT_FILENAME : String := "fileName"
def COLUMN_COMPONENT_SPATH : String := "spath"
def COLUMN_COMPONENT_STATUS : String := "status"
def COLUMN_COMPONENT_PROGRESS : String := "progress"
def COLUMN_COMPONENT_EXTENDS1 : String := "extends1"
def COLUMN_COMPONENT_EXTENDS2 : String := "extends2"
def COLUMN_COMPONENT_EXTENDS3 : String := "extends3"
def COLUMN_COMPONENT_EXTENDS4 : String := "extends4"
def COLUMN_COMPONENT_EXTENDS5 : String := "extends5"
def COLUMN_COMPONENT_EXTENDS6 : String := "extends6"

/-- The statement `GetTableCreateSql` returns. -/
def createTable : CreateTable where
  name := FIRMWARE_TABLE_COMPONENT
  columns := [
    (COLUMN_COMPONENT_VERSION_ID, .varchar 256),
    (COLUMN_COMPONENT_VERSION_PACKAGE_TYPE, .integer),
    (COLUMN_COMPONENT_PACKAGE_INDEX, .integer),
    (COLUMN_COMPONENT_TARGET_BL_DISPLAY_VERSION_NUMBER, .varchar 256),
    (COLUMN_COMPONENT_TARGET_BL_VERSION_NUMBER, .varchar 256),
    (COLUMN_COMPONENT_VERSION_NUMBER, .varchar 256),
    (COLUMN_COMPONENT_BL_VERSION_INFO, .varchar 1024),
    (COLUMN_COMPONENT_DESCRIPT_PACKAGE_ID, .varchar 128),
    (COLUMN_COMPONENT_COMPONENT_ID, .varchar 128),
    (COLUMN_COMPONENT_CHANGELOG_URL, .varchar 512),
    (COLUMN_COMPONENT_BL_VERSION_TYPE, .integer),
    (COLUMN_COMPONENT_IS_NEED_RESTART, .integer),
    (COLUMN_COMPONENT_PATCH_TYPE, .integer),
    (COLUMN_COMPONENT_DOWNLOAD_URL, .varchar 512),
    (COLUMN_COMPONENT_RESERVE_URL, .varchar 512),
    (COLUMN_COMPONENT_STORAGE_TYPE, .integer),
    (COLUMN_COMPONENT_VERIFY_INFO, .varchar 256),
    (COLUMN_COMPONENT_SIZE, .bigint),
    (COLUMN_COMPONENT_FILENAME, .varchar 256),
    (COLUMN_COMPONENT_SPATH, .varchar 256),
    (COLUMN_COMPONENT_STATUS, .integer),
    (COLUMN_COMPONENT_PROGRESS, .integer),
    (COLUMN_COMPONENT_EXTENDS1, .varchar 256),
    (COLUMN_COMPONENT_EXTENDS2, .varchar 256),
    (COLUMN_COMPONENT_EXTENDS3, .varchar 256),
    (COLUMN_COMPONENT_EXTENDS4, .varchar 256),
    (COLUMN_COMPONENT_EXTENDS5, .varchar 256),
    (COLUMN_COMPONENT_EXTENDS6, .varchar 256)]

/-- `GetTableCreateSql`. -/
def getTableCreateSql : String := createTable.sql

/-- The calls of `ParseDbValue`. -/
def reads : List (Read FirmwareComponent) := [
  getColumnValue COLUMN_ID (·.id) fun v value => { value with id := v },
  getColumnValue COLUMN_COMPONENT_VERSION_ID (·.versionId) fun v value => { value with versionId := v },
  getColumnValue COLUMN_COMPONENT_VERSION_PACKAGE_TYPE (fun _ => PackageType.DYNAMIC) fun v value =>
    { value with versionPackageType := v },
  getColumnValue COLUMN_COMPONENT_PACKAGE_INDEX (·.packageIndex) fun v value => { value with packageIndex := v },
  getColumnValue COLUMN_COMPONENT_TARGET_BL_DISPLAY_VERSION_NUMBER (·.targetBlDisplayVersionNumber) fun v value =>
    { value with targetBlDisplayVersionNumber := v },
  getColumnValue COLUMN_COMPONENT_TARGET_BL_VERSION_NUMBER (·.targetBlVersionNumber) fun v value =>
    { value with targetBlVersionNumber := v },
  getColumnValue COLUMN_COMPONENT_VERSION_NUMBER (·.versionNumber) fun v value => { value with versionNumber := v },
  getColumnValue COLUMN_COMPONENT_BL_VERSION_INFO (·.blVersionInfo) fun v value => { value with blVersionInfo := v },
  getColumnValue COLUMN_COMPONENT_DESCRIPT_PACKAGE_ID (·.descriptPackageId) fun v value => { value with descriptPackageId := v },
  getColumnValue COLUMN_COMPONENT_COMPONENT_ID (·.componentId) fun v value => { value with componentId := v },
  getColumnValue COLUMN_COMPONENT_CHANGELOG_URL (·.changelogUrl) fun v value => { value with changelogUrl := v },
  getColumnValue COLUMN_COMPONENT_BL_VERSION_TYPE (·.blVersionType) fun v value => { value with blVersionType := v },
  getColumnValue COLUMN_COMPONENT_IS_NEED_RESTART (·.isNeedRestart) fun v value => { value with isNeedRestart := v },
  getColumnValue COLUMN_COMPONENT_PATCH_TYPE (·.patchType) fun v value => { value with patchType := v },
  getColumnValue COLUMN_COMPONENT_DOWNLOAD_URL (·.url) fun v value => { value with url := v },
  getColumnValue COLUMN_COMPONENT_RESERVE_URL (·.reserveUrl) fun v value => { value with reserveUrl := v },
  getColumnValue COLUMN_COMPONENT_STORAGE_TYPE (·.storageType) fun v value => { value with storageType := v },
  getColumnValue COLUMN_COMPONENT_VERIFY_INFO (·.verifyInfo) fun v value => { value with verifyInfo := v },
  getColumnValue COLUMN_COMPONENT_SIZE (·.size) fun v value => { value with size := v },
  getColumnValue COLUMN_COMPONENT_FILENAME (·.fileName) fun v value => { value with fileName := v },
  getColumnValue COLUMN_COMPONENT_SPATH (·.spath) fun v value => { value with spath := v },
  getColumnValue COLUMN_COMPONENT_STATUS (fun _ => UpgradeStatus.INIT) fun v value => { value with status := v },
  getColumnValue COLUMN_COMPONENT_PROGRESS (·.progress) fun v value => { value with progress := v }]

/-- The calls of `BuildDbValue`. -/
def writes : List (Write FirmwareComponent) := [
  putColumnValue COLUMN_COMPONENT_VERSION_ID (·.versionId),
  putColumnValue COLUMN_COMPONENT_VERSION_PACKAGE_TYPE (·.versionPackageType),
  putColumnValue COLUMN_COMPONENT_PACKAGE_INDEX (·.packageIndex),
  putColumnValue COLUMN_COMPONENT_TARGET_BL_DISPLAY_VERSION_NUMBER (·.targetBlDisplayVersionNumber),
  putColumnValue COLUMN_COMPONENT_TARGET_BL_VERSION_NUMBER (·.targetBlVersionNumber),
  putColumnValue COLUMN_COMPONENT_VERSION_NUMBER (·.versionNumber),
  putColumnValue COLUMN_COMPONENT_BL_VERSION_INFO (·.blVersionInfo),
  putColumnValue COLUMN_COMPONENT_DESCRIPT_PACKAGE_ID (·.descriptPackageId),
  putColumnValue COLUMN_COMPONENT_COMPONENT_ID (·.componentId),
  putColumnValue COLUMN_COMPONENT_CHANGELOG_URL (·.changelogUrl),
  putColumnValue COLUMN_COMPONENT_BL_VERSION_TYPE (·.blVersionType),
  putColumnValue COLUMN_COMPONENT_IS_NEED_RESTART (·.isNeedRestart),
  putColumnValue COLUMN_COMPONENT_PATCH_TYPE (·.patchType),
  putColumnValue COLUMN_COMPONENT_DOWNLOAD_URL (·.url),
  putColumnValue COLUMN_COMPONENT_RESERVE_URL (·.reserveUrl),
  putColumnValue COLUMN_COMPONENT_STORAGE_TYPE (·.storageType),
  putColumnValue COLUMN_COMPONENT_VERIFY_INFO (·.verifyInfo),
  putColumnValue COLUMN_COMPONENT_SIZE (·.size),
  putColumnValue COLUMN_COMPONENT_FILENAME (·.fileName),
  putColumnValue COLUMN_COMPONENT_SPATH (·.spath),
  putColumnValue COLUMN_COMPONENT_STATUS (·.status),
  putColumnValue COLUMN_COMPONENT_PROGRESS (·.progress)]

end FirmwareComponentTable

/-! ## FirmwareTask -/

/-- `FirmwareTask`, with all its members. -/
structure FirmwareTask where
  taskId : String := ""
  status : UpgradeStatus := .INIT
  progress : Int32 := 0
  errorCode : Int32 := 0
  errorMsg : String := ""
  isExistTask : Bool := false
  downloadTaskId : String := ""
  combinationType : CombinationType := .INVALLID_TYPE
  downloadOrder : Order := .DOWNLOAD
  downloadAllowNetwork : NetType := .NOT_METERED_WIFI
  downloadMode : DownloadMode := .MANUAL
  upgradeOrder : Order := .INSTALL
  upgradeMode : UpgradeMode := .MANUAL
  authResult : String := ""
  updateToken : String := ""
  deviceToken : String := ""
  tokenHMac : String := ""
  currentVersionList : String := ""
  authTime : Int64 := 0
  deriving DecidableEq, Repr

namespace FirmwareTaskTable

def FIRMWARE_TABLE_TASK : String := "task"
def COLUMN_TASK_TASK_ID : String := "taskId"
def COLUMN_TASK_STATUS : String := "status"
def COLUMN_TASK_PROGRESS : String := "progress"
def COLUMN_TASK_DOWNLOAD_TASK_ID : String := "downloadTaskId"
def COLUMN_TASK_ERROR_CODE : String := "errorCode"
def COLUMN_TASK_ERROR_MSG : String := "errorMsg"
def COLUMN_TASK_COMBINATION_TYPE : String := "combinationType"
def COLUMN_TASK_DOWNLOAD_MODE : String := "downloadMode"
def COLUMN_TASK_DOWNLOAD_ALLOW_NETWORK : String := "downloadAllowNetwork"
def COLUMN_TASK_DOWNLOAD_ORDER : String := "downloadOrder"
def COLUMN_TASK_UPGRADE_MODE : String := "upgradeMode"
def COLUMN_TASK_UPGRADE_ORDER : String := "upgradeOrder"
def COLUMN_TASK_AUTH_RESULT : String := "authResult"
def COLUMN_TASK_UPDATE_TOKEN : String := "updateToken"
def COLUMN_TASK_DEVICE_TOKEN : String := "deviceToken"
def COLUMN_TASK_TOKEN_H_MAC : String := "tokenHMac"
def COLUMN_TASK_CURR_VERSION_LIST : String := "currentVersionList"
def COLUMN_TASK_AUTH_TIME : String := "authTime"
def COLUMN_TASK_EXTENDS1 : String := "extends1"
def COLUMN_TASK_EXTENDS2 : String := "extends2"
def COLUMN_TASK_EXTENDS3 : String := "extends3"
def COLUMN_TASK_EXTENDS4 : String := "extends4"
def COLUMN_TASK_EXTENDS5 : String := "extends5"
def COLUMN_TASK_EXTENDS6 : String := "extends6"

/-- The statement `GetTableCreateSql` returns. -/
def createTable : CreateTable where
  name := FIRMWARE_TABLE_TASK
  columns := [
    (COLUMN_TASK_TASK_ID, .varchar 128),
    (COLUMN_TASK_STATUS, .integer),
    (COLUMN_TASK_PROGRESS, .integer),
    (COLUMN_TASK_DOWNLOAD_TASK_ID, .varchar 128),
    (COLUMN_TASK_ERROR_CODE, .integer),
    (COLUMN_TASK_ERROR_MSG, .varchar 512),
    (COLUMN_TASK_COMBINATION_TYPE, .integer),
    (COLUMN_TASK_DOWNLOAD_MODE, .integer),
    (COLUMN_TASK_DOWNLOAD_ALLOW_NETWORK, .integer),
    (COLUMN_TASK_DOWNLOAD_ORDER, .integer),
    (COLUMN_TASK_UPGRADE_MODE, .integer),
    (COLUMN_TASK_UPGRADE_ORDER, .integer),
    (COLUMN_TASK_AUTH_RESULT, .varchar 10240),
    (COLUMN_TASK_UPDATE_TOKEN, .varchar 256),
    (COLUMN_TASK_DEVICE_TOKEN, .varchar 256),
    (COLUMN_TASK_TOKEN_H_MAC, .varchar 256),
    (COLUMN_TASK_CURR_VERSION_LIST, .varchar 1024),
    (COLUMN_TASK_AUTH_TIME, .bigint),
    (COLUMN_TASK_EXTENDS1, .varchar 256),
    (COLUMN_TASK_EXTENDS2, .varchar 256),
    (COLUMN_TASK_EXTENDS3, .varchar 256),
    (COLUMN_TASK_EXTENDS4, .varchar 256),
    (COLUMN_TASK_EXTENDS5, .varchar 256),
    (COLUMN_TASK_EXTENDS6, .varchar 256)]

/-- `GetTableCreateSql`. -/
def getTableCreateSql : String := createTable.sql

/-- The calls of `ParseDbValue`. -/
def reads : List (Read FirmwareTask) := [
  getColumnValue COLUMN_TASK_TASK_ID (·.taskId) fun v value => { value with taskId := v },
  getColumnValue COLUMN_TASK_STATUS (fun _ => UpgradeStatus.INIT) fun v value => { value with status := v },
  getColumnValue COLUMN_TASK_PROGRESS (·.progress) fun v value => { value with progress := v },
  getColumnValue COLUMN_TASK_DOWNLOAD_TASK_ID (·.downloadTaskId) fun v value => { value with downloadTaskId := v },
  getColumnValue COLUMN_TASK_ERROR_CODE (·.errorCode) fun v value => { value with errorCode := v },
  getColumnValue COLUMN_TASK_ERROR_MSG (·.errorMsg) fun v value => { value with errorMsg := v },
  getColumnValue COLUMN_TASK_COMBINATION_TYPE (fun _ => CombinationType.INVALLID_TYPE) fun v value =>
    { value with combinationType := v },
  getColumnValue COLUMN_TASK_DOWNLOAD_MODE (fun _ => DownloadMode.MANUAL) fun v value => { value with downloadMode := v },
  getColumnValue COLUMN_TASK_DOWNLOAD_ALLOW_NETWORK (fun _ => NetType.WIFI) fun v value =>
    { value with downloadAllowNetwork := v },
  getColumnValue COLUMN_TASK_DOWNLOAD_ORDER (fun _ => NetType.WIFI) fun v value => { value with downloadOrder := v },
  getColumnValue COLUMN_TASK_UPGRADE_MODE (fun _ => UpgradeMode.MANUAL) fun v value => { value with upgradeMode := v },
  getColumnValue COLUMN_TASK_UPGRADE_ORDER (fun _ => Order.INSTALL_AND_APPLY) fun v value => { value with upgradeOrder := v },
  getColumnValue COLUMN_TASK_AUTH_RESULT (·.authResult) fun v value => { value with authResult := v },
  getColumnValue COLUMN_TASK_UPDATE_TOKEN (·.updateToken) fun v value => { value with updateToken := v },
  getColumnValue COLUMN_TASK_DEVICE_TOKEN (·.deviceToken) fun v value => { value with deviceToken := v },
  getColumnValue COLUMN_TASK_TOKEN_H_MAC (·.tokenHMac) fun v value => { value with tokenHMac := v },
  getColumnValue COLUMN_TASK_CURR_VERSION_LIST (·.currentVersionList) fun v value => { value with currentVersionList := v },
  getColumnValue COLUMN_TASK_AUTH_TIME (·.authTime) fun v value => { value with authTime := v }]

/-- The calls of `BuildDbValue`. -/
def writes : List (Write FirmwareTask) := [
  putColumnValue COLUMN_TASK_TASK_ID (·.taskId),
  putColumnValue COLUMN_TASK_STATUS (·.status),
  putColumnValue COLUMN_TASK_PROGRESS (·.progress),
  putColumnValue COLUMN_TASK_DOWNLOAD_TASK_ID (·.downloadTaskId),
  putColumnValue COLUMN_TASK_ERROR_CODE (·.errorCode),
  putColumnValue COLUMN_TASK_ERROR_MSG (·.errorMsg),
  putColumnValue COLUMN_TASK_COMBINATION_TYPE (·.combinationType),
  putColumnValue COLUMN_TASK_DOWNLOAD_MODE (·.downloadMode),
  putColumnValue COLUMN_TASK_DOWNLOAD_ALLOW_NETWORK (·.downloadAllowNetwork),
  putColumnValue COLUMN_TASK_DOWNLOAD_ORDER (·.downloadOrder),
  putColumnValue COLUMN_TASK_UPGRADE_MODE (·.upgradeMode),
  putColumnValue COLUMN_TASK_UPGRADE_ORDER (·.upgradeOrder),
  putColumnValue COLUMN_TASK_AUTH_RESULT (·.authResult),
  putColumnValue COLUMN_TASK_UPDATE_TOKEN (·.updateToken),
  putColumnValue COLUMN_TASK_DEVICE_TOKEN (·.deviceToken),
  putColumnValue COLUMN_TASK_TOKEN_H_MAC (·.tokenHMac),
  putColumnValue COLUMN_TASK_CURR_VERSION_LIST (·.currentVersionList),
  putColumnValue COLUMN_TASK_AUTH_TIME (·.authTime)]

end FirmwareTaskTable

end UpdateEngine.Db
