import UpdateEngine.Firmware.Analyze

/-!
# The modes of a flow and their data processors

`FirmwareManualCheckMode`, `FirmwareDownloadMode` and `FirmwareInstallApplyMode`: which step a flow takes next, and what it does
with a result on the way. `getNextStep` is `FirmwareIExecuteMode::GetNextStep` of the flow's mode.
-/

namespace UpdateEngine

open Concurrent DUpdateErrno

/-! ## StatusCache -/

namespace FirmwareStatusCache

/-- `StatusCache::IsChecking`: a check started more than five minutes ago does not count. -/
def isChecking : Prog Bool := do
  let (checking, lastCheckTime) ← call .getStatusCache
  if lastCheckTime ≠ -1 then
    let now ← call (.ask .now)
    if 300 < (now - lastCheckTime).natAbs then return false
  return checking

/-- `StatusCache::SetIsChecking`. -/
def setIsChecking (checking : Bool) : Prog Unit := do
  if checking then
    let now ← call (.ask .now)
    call (.setStatusCache true now)
  else
    let (_, lastCheckTime) ← call .getStatusCache
    call (.setStatusCache false lastCheckTime)

end FirmwareStatusCache

/-! ## FirmwareCheckDataProcessor -/

namespace FirmwareCheckDataProcessor

/-- `IsCheckFailed`. -/
def isCheckFailed (w : Flow) : Bool :=
  w.checkStatus = .checkFail || w.checkStatus = .fileListRequestFail || w.checkStatus = .changelogRequestFail

/-- `HasUndoneTask`. -/
def hasUndoneTask : Prog Bool := do
  let task ← FirmwareTaskOperator.queryTask .hasUndoneTask {}
  return task.isExistTask && task.status.isUndone

/-- `IsUpdateOnStatus`. -/
def isUpdateOnStatus : Prog Bool := do
  let task ← FirmwareTaskOperator.queryTask .isUpdateOnStatus {}
  return task.isExistTask && task.status = .updating

/-- `IsVersionSameWithDb`: as many rows as components, and for each component the first row with its version id has its size and
its `verifyInfo`. -/
def isVersionSameWithDb (componentList : List FirmwareComponent) : Prog Bool := do
  let dbComponentList ← call (.queryComponents .isVersionSameWithDb)
  if dbComponentList.length ≠ componentList.length then return false
  componentList.allM fun serverResult => do
    let dbResult ← FirmwareComponentOperator.queryByVersionId .isVersionSameWithDb serverResult.versionId
    return dbResult.any fun r => r.size = serverResult.size && r.verifyInfo = serverResult.verifyInfo

/-- `UpdateFirmwareComponent`: the URLs of the server, by version id. -/
def updateFirmwareComponent (componentList : List FirmwareComponent) : Prog Unit := do
  let task ← FirmwareTaskOperator.queryTask .updateFirmwareComponent {}
  if !task.isExistTask then return ()
  if task.status ≠ .checkVersionSuccess then return ()
  componentList.forM fun serverResult =>
    call (.updateComponents .updateFirmwareComponent (.urlByVersionId serverResult.versionId serverResult.url))

/-- `GetCombinationType`. -/
def getCombinationType (componentList : List FirmwareComponent) : CombinationType :=
  if componentList.any fun c => c.blVersionType = 1 then .hota else .invallidType

/-- `BuildComponentSPath`: where a package is stored. -/
def buildComponentSPath (c : FirmwareComponent) : FirmwareComponent :=
  { c with spath := Firmware.PACKAGE_PATH ++ "/" ++ c.fileName }

/-- The task `HandleNewVersion` inserts. -/
def newTask (P : Platform) (componentList : List FirmwareComponent) : FirmwareTask :=
  { taskId := FirmwareUpdateHelper.buildTaskId P componentList
    status := .checkVersionSuccess
    combinationType := getCombinationType componentList }

/-- `HandleNewVersion`. -/
def handleNewVersion (P : Platform) (componentList : List FirmwareComponent) : Prog Unit := do
  let isSameWithDb ← isVersionSameWithDb componentList
  call (.setFlow (.isSameWithDb isSameWithDb))
  if isSameWithDb then
    updateFirmwareComponent componentList
  else
    FirmwareUpdateHelper.clearFirmwareInfo
    let componentList := componentList.map buildComponentSPath
    call (.setFlow (.componentList componentList))
    call (.insertComponents componentList)
    call (.insertTask (newTask P componentList))

/-- `HandleNoNewVersion`. -/
def handleNoNewVersion : Prog Unit := do
  let task ← FirmwareTaskOperator.queryTask .handleNoNewVersion {}
  if task.isExistTask then notifyEvent task.taskId .taskCancel .init {}
  FirmwareUpdateHelper.clearFirmwareInfo

/-- `HandleCheckResult`, past the test for a failed check. -/
def handleCheckResult (P : Platform) (componentList : List FirmwareComponent) : Prog Unit := do
  if ← hasUndoneTask then return ()
  if componentList.isEmpty then handleNoNewVersion else handleNewVersion P componentList
  call (.enter .checkResultHandled)

/-- `SetCheckResult`. -/
def setCheckResult (P : Platform) (status : CheckStatus) (componentList : List FirmwareComponent) : Prog Unit := do
  call (.setFlow (.checkResult status componentList))
  let w ← call .getFlow
  if isCheckFailed w then return ()
  handleCheckResult P componentList

/-- `BuildCheckResult`: what the tables hold, whatever the response said. -/
def buildCheckResult (P : Platform) (w : Flow) : Prog CheckResult := do
  if isCheckFailed w then return {}
  let dbComponentList ← call (.queryComponents .buildCheckResult)
  if dbComponentList.isEmpty then return {}
  return {
    isExistNewVersion := true
    versionDigest := FirmwareUpdateHelper.buildTaskId P dbComponentList
    versionComponents := FirmwareUpdateHelper.buildNewVersionInfo P dbComponentList }

end FirmwareCheckDataProcessor

/-! ## FirmwareManualCheckMode -/

namespace FirmwareManualCheckMode

open FirmwareCheckDataProcessor

/-- `GetStepAfterInit`. -/
def getStepAfterInit : Prog FirmwareStep := do
  if ← FirmwareStatusCache.isChecking then
    call (.setFlow (.buildError .fail "system busy!"))
    call (.setFlow (.addErrorMessage DUPDATE_ERR_SYSTEM_BUSY_ON_CHECK "checkNewVersion is checking!"))
    return .complete
  if ← isUpdateOnStatus then
    call (.setFlow (.buildError .fail "system busy!"))
    call (.setFlow (.addErrorMessage DUPDATE_ERR_SYSTEM_BUSY_ON_INSTALL "system is updating!"))
    return .complete
  if !(← isNetAvailable .cellularAndWifi) then
    call (.setFlow (.buildError .fail "CheckNewVersionService no network!"))
    call (.setFlow (.addErrorMessage (-2) "CheckNewVersionService no network !"))
    return .complete
  return .checkStep

/-- `GetStepAfterCheck`. -/
def getStepAfterCheck : Prog FirmwareStep := do
  let w ← call .getFlow
  if isCheckFailed w || w.isSameWithDb || w.componentList.isEmpty then return .complete
  let task ← FirmwareTaskOperator.queryTask .stepAfterCheck {}
  if task.status = .checkVersionSuccess then
    notifyEvent task.taskId .taskReceive .checkVersionSuccess {}
    if !(← call .getAutoDownloadSwitch) then
      notifyEvent task.taskId .downloadWait .checkVersionSuccess {}
  return .complete

/-- `HandleComplete`: the caller gets the result of the check. -/
def handleComplete (P : Platform) : Prog Unit := do
  let w ← call .getFlow
  let checkResult ← buildCheckResult P w
  call (.onCheckVersionDone w.businessError checkResult)

end FirmwareManualCheckMode

/-! ## FirmwareDownloadDataProcessor -/

namespace FirmwareDownloadDataProcessor

/-- What `IsSpaceEnough` requires: the part of each package that its recorded progress leaves. -/
def requireTotalSize (components : List FirmwareComponent) : Int64 :=
  components.foldl (fun total c => total + ((100 - c.progress).toInt64 * c.size) / 100) 0

/-- `IsSpaceEnough`: the answer and the size required. -/
def isSpaceEnough : Prog (Bool × Int64) := do
  let components ← call (.queryComponents .downloadDataProcessor)
  let required := requireTotalSize components
  let enough ← FileUtils.isSpaceEnough required
  return (enough, required)

/-- `SetDownloadProgress`: the progress is kept and published, under the task first read. -/
def setDownloadProgress (progress : Progress) : Prog Unit := do
  call (.setFlow (.downloadProgress progress))
  let w ← call .getFlow
  if !w.processorTasks.isExistTask then
    let task ← FirmwareTaskOperator.queryTask .downloadDataProcessor w.processorTasks
    call (.setFlow (.processorTasks task))
  let w ← call .getFlow
  progressCallback w.processorTasks.taskId progress

end FirmwareDownloadDataProcessor

/-! ## FirmwareDownloadMode -/

namespace FirmwareDownloadMode

/-- `GetStepAfterInit`. (The branch for a task that is `DOWNLOADING` stands behind the test that refuses that status.) -/
def getStepAfterInit : Prog FirmwareStep := do
  let tasks ← FirmwareTaskOperator.queryTask .downloadMode {}
  if !tasks.isExistTask then
    call (.setFlow (.buildError .fail "no task!"))
    return .complete
  if !tasks.status.isDownloadable then
    call (.setFlow (.buildError .fail "status error!"))
    return .complete
  if tasks.status = .downloading then
    call (.setFlow (.buildError .fail "system busy!"))
    call (.setFlow (.addErrorMessage DUPDATE_ERR_SYSTEM_BUSY_ON_DOWNLOAD "busy on Downloading!"))
    return .complete
  if !(← isNetAvailable .cellularAndWifi) then
    call (.setFlow (.buildError .fail "download no network!"))
    call (.setFlow (.addErrorMessage DUPDATE_ERR_DLOAD_REQUEST_FAIL "download no network!"))
    return .complete
  let (isSpaceEnough, requireTotalSize) ← FirmwareDownloadDataProcessor.isSpaceEnough
  if !isSpaceEnough then
    call (.setFlow (.buildError .fail "download condition fail!"))
    call (.setFlow (.addErrorMessage DUPDATE_ERR_NO_ENOUGH_MEMORY (toString requireTotalSize.toInt)))
    return .complete
  return .downloadStep

/-- `DownloadPauseProcess`. -/
def downloadPauseProcess (task : FirmwareTask) (errorMessage : ErrorMessage) : Prog Unit :=
  notifyEvent task.taskId .downloadPause .downloadPause errorMessage

/-- `DownloadFailProcess`. -/
def downloadFailProcess (task : FirmwareTask) (errorMessage : ErrorMessage) : Prog Unit := do
  notifyEvent task.taskId .downloadFail .downloadFail errorMessage
  FirmwareUpdateHelper.clearFirmwareInfo

/-- `DownloadCancelProcess`. -/
def downloadCancelProcess (task : FirmwareTask) (errorMessage : ErrorMessage) : Prog Unit := do
  notifyEvent task.taskId .downloadCancel .downloadCancel errorMessage
  FirmwareTaskOperator.updateProgressByTaskId .stepAfterDownload task.taskId .checkVersionSuccess 0
  let firmwareComponentList ← call (.queryComponents .stepAfterDownload)
  firmwareComponentList.forM fun component =>
    FirmwareComponentOperator.updateProgressByUrl .stepAfterDownload component.url .checkVersionSuccess 0
  call (.updateTasks .stepAfterDownload task.taskId (.downloadTaskId ""))
  call .deleteDownloadFiles

/-- `DownloadSucessProcess`. -/
def downloadSucessProcess (task : FirmwareTask) : Prog Unit :=
  notifyEvent task.taskId .upgradeWait .downloadSuccess {}

/-- The switch of `GetStepAfterDownload`. -/
def processStatus (task : FirmwareTask) (errorMessage : ErrorMessage) : Prog Unit :=
  match task.status with
  | .downloadPause => downloadPauseProcess task errorMessage
  | .downloadFail => downloadFailProcess task errorMessage
  | .downloadCancel => downloadCancelProcess task errorMessage
  | .downloadSuccess => downloadSucessProcess task
  | _ => pure ()

/-- `GetStepAfterDownload`: it is decided by the status stored in the task row. -/
def getStepAfterDownload : Prog FirmwareStep := do
  let task ← FirmwareTaskOperator.queryTask .stepAfterDownload {}
  if !task.isExistTask then return .complete
  let w ← call .getFlow
  let mut errorMessage : ErrorMessage := {}
  if !w.downloadProgress.endReason.isEmpty then
    match stoi w.downloadProgress.endReason with
    | some errorCode => errorMessage := { errorMessage with errorCode := errorCode }
    | none =>
      -- `stoi` throws and nobody catches it
      call .terminate
      return .complete
  processStatus task errorMessage
  return .complete

end FirmwareDownloadMode

/-! ## FirmwareInstallDataProcessor -/

namespace FirmwareInstallDataProcessor

def SPACE_OFFSET : Int64 := 100 * 1024 * 1024

/-- `IsSpaceEnough`: the answer and the size required. -/
def isSpaceEnough (P : Platform) : Prog (Bool × Int64) := do
  let components ← call (.queryComponents .installDataProcessor)
  let required := components.foldl (fun total c => total + c.size) 0
  let enough ← FileUtils.isSpaceEnough (P.compressed required + SPACE_OFFSET)
  return (enough, required)

/-- `HasInstallSuccess`: the status stored at this moment. -/
def hasInstallSuccess : Prog Bool := do
  let w ← call .getFlow
  let task ← FirmwareTaskOperator.queryTask .installDataProcessor w.processorTasks
  call (.setFlow (.processorTasks task))
  return task.status = .installSuccess

/-- `SetInstallResult`: a failure is notified, anything else is published as a progress. -/
def setInstallResult (installCallbackInfo : InstallCallbackInfo) : Prog Unit := do
  let progress := installCallbackInfo.progress
  let w ← call .getFlow
  if !w.processorTasks.isExistTask then
    let task ← FirmwareTaskOperator.queryTask .installDataProcessor w.processorTasks
    call (.setFlow (.processorTasks task))
  let w ← call .getFlow
  if progress.status = .updateFail || progress.status = .installFail then
    notifyEvent w.processorTasks.taskId .upgradeFail progress.status installCallbackInfo.errorMessage
  else
    progressCallback w.processorTasks.taskId progress

/-- `IsUpgradeFileCheckSuccess`. -/
def isUpgradeFileCheckSuccess : Prog Bool := do
  let components ← call (.queryComponents .installDataProcessor)
  FirmwareUpdateHelper.isUpgradePackagesReady components

end FirmwareInstallDataProcessor

/-! ## FirmwareInstallApplyMode -/

namespace FirmwareInstallApplyMode

/-- `IsAllowInstall`. -/
def isAllowInstall (P : Platform) : Prog Bool := do
  let (isSpaceEnough, requireTotalSize) ← FirmwareInstallDataProcessor.isSpaceEnough P
  if !isSpaceEnough then
    call (.setFlow (.buildError .fail "install condition fail!"))
    call (.setFlow (.addErrorMessage DUPDATE_ERR_NO_ENOUGH_MEMORY (toString requireTotalSize.toInt)))
    return false
  if !FirmwareUpdateHelper.isBatteryEnough then
    call (.setFlow (.buildError .fail "install condition fail!"))
    call (.setFlow (.addErrorMessage DUPDATE_ERR_LOW_BATTERY_LEVEL "battery is low"))
    return false
  return true

/-- `IsUpgradeFilesReady`: if not, everything is cleared. -/
def isUpgradeFilesReady : Prog Bool := do
  if ← FirmwareInstallDataProcessor.isUpgradeFileCheckSuccess then return true
  call (.setFlow (.buildError .fail "check component failed"))
  call (.setFlow (.addErrorMessage DUPDATE_ERR_UPDATE_PRECHECK_FAIL "check component failed"))
  FirmwareUpdateHelper.clearFirmwareInfo
  return false

/-- `GetStepForInstallAndApplyOrder`. -/
def getStepForInstallAndApplyOrder (P : Platform) (tasks : FirmwareTask) : Prog FirmwareStep := do
  if tasks.status ≠ .downloadSuccess then
    call (.setFlow (.buildError .fail "status error!"))
    return .complete
  if !(← isAllowInstall P) then return .complete
  if !(← isUpgradeFilesReady) then return .complete
  return .installStep

/-- `GetStepAfterInit`. -/
def getStepAfterInit (P : Platform) (upgradeOptions : UpgradeOptions) : Prog FirmwareStep := do
  let tasks ← FirmwareTaskOperator.queryTask (.installApplyMode upgradeOptions.order) {}
  if !tasks.isExistTask then
    call (.setFlow (.buildError .fail "no task!"))
    return .complete
  if upgradeOptions.order = .install || upgradeOptions.order = .installAndApply then
    return ← getStepForInstallAndApplyOrder P tasks
  if upgradeOptions.order = .apply then return .applyStep
  call (.setFlow (.buildError .fail "upgradeOptions error"))
  return .complete

/-- `GetStepAfterInstall`. -/
def getStepAfterInstall : Prog FirmwareStep := do
  if !(← FirmwareInstallDataProcessor.hasInstallSuccess) then
    FirmwareUpdateHelper.clearFirmwareInfo
  return .complete

end FirmwareInstallApplyMode

/-! ## The mode of a flow -/

/-- `GetNextStep` of the mode of a flow. -/
def getNextStep (P : Platform) (mode : Mode) (step : FirmwareStep) : Prog FirmwareStep :=
  match mode, step with
  | .manualCheck, .init => FirmwareManualCheckMode.getStepAfterInit
  | .manualCheck, .checkStep => FirmwareManualCheckMode.getStepAfterCheck
  | .download _, .init => FirmwareDownloadMode.getStepAfterInit
  | .download _, .downloadStep => FirmwareDownloadMode.getStepAfterDownload
  | .installApply o _, .init => FirmwareInstallApplyMode.getStepAfterInit P o
  | .installApply _ _, .installStep => FirmwareInstallApplyMode.getStepAfterInstall
  | _, _ => pure .complete

/-- `HandleComplete` of the mode of a flow: a check answers its caller; a download or an installation has nothing left to do. -/
def handleComplete (P : Platform) (mode : Mode) : Prog Unit := do
  call (.enter .handleComplete)
  match mode with
  | .manualCheck => FirmwareManualCheckMode.handleComplete P
  | _ => pure ()

end UpdateEngine
