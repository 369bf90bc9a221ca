import UpdateEngine.Firmware.Executors
import UpdateEngine.Firmware.ResultProcess

/-!
# FirmwareManager and the requests of clients

`UpdateServiceImplFirmware` and `FirmwareManager`: what a request, a change of the network and a start of the process do in their
own threads. `machine` is the service: the text of every thread, and which threads can be started from outside.
-/

namespace UpdateEngine

open Concurrent DUpdateErrno

namespace FirmwareManager

/-- `DoCheck`. -/
def doCheck (P : Platform) (f : Nat) : Prog Unit := FirmwareFlowManager.execute P f .manualCheck

/-- `DoDownload`. -/
def doDownload (P : Platform) (f : Nat) (downloadOptions : DownloadOptions) : Prog Unit :=
  FirmwareFlowManager.execute P f (.download downloadOptions)

/-- `CanInstall`. -/
def canInstall (P : Platform) : Prog Bool := do
  let task ← FirmwareTaskOperator.queryTask .canInstall {}
  return if P.installType = .sysInstaller then task.status = .downloadSuccess || task.status = .installSuccess
    else task.status = .downloadSuccess

/-- `DoInstall`. -/
def doInstall (P : Platform) (f : Nat) (upgradeOptions : UpgradeOptions) (installType : InstallType) : Prog Unit := do
  if !(← canInstall P) then return ()
  FirmwareFlowManager.execute P f (.installApply upgradeOptions installType)

/-- `DoCancelDownload`. -/
def doCancelDownload : Prog Unit := do
  let task ← FirmwareTaskOperator.queryTask .doCancelDownload {}
  if !task.isExistTask then
    call (.setFlow (.buildError .fail "no download task to cancel!"))
    call (.setFlow (.addErrorMessage DUPDATE_ERR_DOWNLOAD_COMMON_ERROR "no download task to cancel!"))
  else
    call (.setIsCancel true)

/-- `HandleNetChanged`. (Resuming and automatic downloads are empty functions.) -/
def handleNetChanged : Prog Unit := do
  if !(← isNetAvailable .cellularAndWifi) then
    call (.setIsNoNet true)
  else
    call (.setIsNoNet false)
    let task ← FirmwareTaskOperator.queryTask .handleNetChanged {}
    if ← isNetAvailable .notMeteredWifi then
      if task.status = .checkVersionSuccess then
        let _ ← call .getAutoDownloadSwitch

/-- `HandleBootInstallOnStatusProcess`: an installation cut short is rolled back to the end of the download and ordered again. -/
def handleBootInstallOnStatusProcess (P : Platform) (f : Nat) (task : FirmwareTask) : Prog Unit := do
  FirmwareTaskOperator.updateProgressByTaskId .restoreUpdate task.taskId .downloadSuccess 100
  let firmwareComponentList ← call (.queryComponents .restoreUpdate)
  firmwareComponentList.forM fun component => do
    if component.status = .installing then
      FirmwareComponentOperator.updateProgressByUrl .restoreUpdate component.url .downloadSuccess 100
  doInstall P f { order := .installAndApply } .sysInstaller

/-- `RestoreUpdate`. -/
def restoreUpdate (P : Platform) (f : Nat) : Prog Unit := do
  let task ← FirmwareTaskOperator.queryTask .restoreUpdate {}
  match task.status with
  | .downloadPause | .downloading => FirmwareUpdateHelper.clearFirmwareInfo
  | .installing | .installSuccess => handleBootInstallOnStatusProcess P f task
  | _ => pure ()

/-- `DoClearError`. -/
def doClearError : Prog Unit := do
  let task ← FirmwareTaskOperator.queryTask .doClearError {}
  if !task.isExistTask then return ()
  if !task.status.isUpgradeFailed then
    call (.setFlow (.buildError .fail "please check status before clear error"))
    call (.setFlow (.addErrorMessage DUPDATE_ERR_UPDATE_COMMON_ERROR "please check status before clear error"))
  else
    FirmwareUpdateHelper.clearFirmwareInfo

/-- `IsIdle`: no check is going on, and there is no task. -/
def isIdle : Prog Bool := do
  if ← FirmwareStatusCache.isChecking then return false
  let task ← FirmwareTaskOperator.queryTask .isIdle {}
  return !task.isExistTask

/-- The version component `HandleBootUpdateSuccess` and `HandleBootUpdateFail` report for a component. -/
def bootVersionComponent (component : FirmwareComponent) : VersionComponent where
  componentType := 1
  componentId := component.componentId
  upgradeAction := "upgrade"
  displayVersion := component.targetBlDisplayVersionNumber
  innerVersion := component.targetBlVersionNumber

/-- `FirmwareChangelogUtils::SaveHotaCurrentVersionComponentId`: the first package that is not dynamic. -/
def saveHotaCurrentVersionComponentId : Prog Unit := do
  let components ← call (.queryComponents .saveHotaCurrentVersionComponentId)
  match components.find? fun c => c.versionPackageType = .normal with
  | some component => call (.saveString Firmware.HOTA_CURRENT_COMPONENT_ID component.componentId)
  | none => pure ()

/-- `HandleBootUpdateSuccess`: only a version with a HOTA package is notified and cleared. -/
def handleBootUpdateSuccess (task : FirmwareTask) : Prog Unit := do
  call (.saveString Firmware.UPDATE_ACTION "upgrade")
  let components ← call (.queryComponents .handleBootUpdate)
  let versionComponents := components.map bootVersionComponent
  saveHotaCurrentVersionComponentId
  if task.combinationType = .hota then
    notifyEvent task.taskId .upgradeSuccess .updateSuccess {} versionComponents
    FirmwareUpdateHelper.clearFirmwareInfo

/-- The error `HandleBootUpdateFail` reports: that of the first record of a failure. -/
def bootUpdateError (resultMap : UpdateResults) : ErrorMessage :=
  match resultMap.find? fun e => e.2.result = FirmwareResultProcess.UPDATER_RESULT_FAILURE with
  | some e => { errorCode := FirmwareResultProcess.getUpdateResultCode e.2, errorMessage := e.2.reason }
  | none => {}

/-- `HandleBootUpdateFail`. -/
def handleBootUpdateFail (task : FirmwareTask) (resultMap : UpdateResults) : Prog Unit := do
  call (.saveString Firmware.UPDATE_ACTION "recovery")
  let components ← call (.queryComponents .handleBootUpdate)
  let versionComponents := components.map bootVersionComponent
  notifyEvent task.taskId .upgradeFail .updateFail (bootUpdateError resultMap) versionComponents
  FirmwareUpdateHelper.clearFirmwareInfo

/-- `HandleBootUpdateOnStatusProcess`. -/
def handleBootUpdateOnStatusProcess (P : Platform) (task : FirmwareTask) : Prog Unit := do
  let components ← call (.queryComponents .handleBootUpdate)
  let (code, resultMap) ← FirmwareResultProcess.getUpdaterResult P components
  match code with
  | .success => handleBootUpdateSuccess task
  | .failure => handleBootUpdateFail task resultMap
  | .partSuccess => pure ()

/-- `HandleBootComplete`. -/
def handleBootComplete (P : Platform) : Prog Unit := do
  let task ← FirmwareTaskOperator.queryTask .handleBootComplete {}
  if !task.isExistTask then return ()
  if task.status = .updating then handleBootUpdateOnStatusProcess P task

/-- `HandleEvent`. -/
def handleEvent (P : Platform) : CommonEventType → Prog Unit
  | .netChanged => handleNetChanged
  | .bootComplete => handleBootComplete P
  | .processInit => pure ()

/-- `NotifyInitEvent`: clients are told once. -/
def notifyInitEvent : Prog Unit := do
  if !(← call .getDueInitFlag) then
    call (.setDueInitFlag true)
    notifyEvent "" .eventInitialize .init {}

/-- `DelayInit`. -/
def delayInit (P : Platform) (f : Nat) (startupReason : StartupReason) : Prog Unit := do
  restoreUpdate P f
  call .registerNetChangedListener
  notifyInitEvent
  handleEvent P (if startupReason = .deviceReboot then .bootComplete else .processInit)

end FirmwareManager

/-! ## UpdateServiceImplFirmware -/

namespace UpdateServiceImplFirmware

/-- `Download`. -/
def download (P : Platform) (f : Nat) (downloadOptions : DownloadOptions) : Prog Unit := do
  let task ← FirmwareTaskOperator.queryTask .download {}
  if task.status ≠ .checkVersionSuccess then
    call (.setFlow (.buildError .fail "download error"))
  else
    call (.updateTasks .download task.taskId
      (.downloadOption .manual downloadOptions.allowNetwork downloadOptions.order))
    FirmwareManager.doDownload P f downloadOptions

/-- `Upgrade`. -/
def upgrade (P : Platform) (f : Nat) (upgradeOptions : UpgradeOptions) : Prog Unit := do
  let task ← FirmwareTaskOperator.queryTask .upgrade {}
  call (.updateTasks .upgrade task.taskId (.upgradeMode .manual))
  FirmwareManager.doInstall P f upgradeOptions P.installType

/-- `GetNewVersionInfo`: the version components and the digest. -/
def getNewVersionInfo (P : Platform) : Prog (List VersionComponent × String) := do
  let task ← FirmwareTaskOperator.queryTask .getNewVersionInfo {}
  let components ← call (.queryComponents .getNewVersionInfo)
  return (FirmwareUpdateHelper.buildNewVersionInfo P components, task.taskId)

/-- `Cancel`. -/
def cancel : Prog Unit := do
  let task ← FirmwareTaskOperator.queryTask .cancel {}
  if task.status ≠ .downloading && task.status ≠ .downloadPause then
    call (.setFlow (.buildError .fail "Cancel download error"))
  else
    FirmwareManager.doCancelDownload

end UpdateServiceImplFirmware

/-- `NetManager::OnNetChange`: the listeners are told one change after the other. (`FirmwareEventListener` listens to every single
network, and to none.) -/
def NetManager.onNetChange (P : Platform) (netType : NetType) : Prog Unit := do
  if netType.isBaseNetType then
    if netType ≠ (← call .getNetType) then
      call (.setNetType netType)
      call .lockNetChange
      if ← call .hasNetChangedListener then FirmwareManager.handleEvent P .netChanged
      call .unlockNetChange

/-! ## The service -/

/-- The text of each thread. -/
def body (P : Platform) : Thread → Prog Unit
  | .checkNewVersion f => FirmwareManager.doCheck P f
  | .download f o => UpdateServiceImplFirmware.download P f o
  | .upgrade f o => UpdateServiceImplFirmware.upgrade P f o
  | .cancel _ => UpdateServiceImplFirmware.cancel
  | .netChanged _ t => NetManager.onNetChange P t
  | .clearError _ => FirmwareManager.doClearError
  | .delayInit f startupReason => FirmwareManager.delayInit P f startupReason
  | .checkExecutor f => FirmwareCheckExecutor.doCheck P f
  | .downloadExecutor f o => FirmwareDownloadExecutor.doDownload P f o
  | .downloadThread f o i fileName url => DownloadThread.executeThreadFunc P f o fileName url i DownloadThread.rounds {}
  | .installExecutor f o t => FirmwareInstallExecutor.doInstall P f o t
  | .installerCallback f o _ u percent msg => SysInstallerInstall.onUpgradeProgress P f o u percent msg
  | .applyExecutor f o t => FirmwareApplyExecutor.doInstall P f o t

/-- Which threads are started from outside: a request or a notice, each with a flow of its own; `DelayInit`, as the first thread of
the process; and a callback of the system installer while it has been given one. -/
def starts (n : Thread) (s : State) : Option State :=
  match n with
  | .checkNewVersion f | .download f _ | .upgrade f _ | .cancel f | .netChanged f _ | .clearError f =>
    if f = s.nextFlow then some { s with nextFlow := f + 1 } else none
  | .delayInit f _ => if f = 0 ∧ s.nextFlow = 0 then some { s with nextFlow := 1 } else none
  | .installerCallback f o _ _ _ _ => if (s.flows f).sysCallback.any fun c => c.1 = o then some s else none
  | _ => none

/-- The service. -/
def machine (P : Platform) : Machine Op Op.Res State Answer Thread where
  body := body P
  exec := exec
  spawns := fun o => match o with
    | .spawn t => some t
    | _ => none
  joins := fun o => match o with
    | .join t => some t
    | _ => none
  starts := starts

/-- The configurations of the service. -/
abbrev Config := Concurrent.Config Op Op.Res State Thread

/-- The actions of the service. -/
abbrev Action := Concurrent.Action Answer Thread

/-- What outlives the process. -/
structure Store where
  tasks : List FirmwareTask := []
  components : List FirmwareComponent := []
  files : String → Option Bytes := fun _ => none
  autoDownloadSwitch : Bool := false
  updaterResult : Option String := none
  dueInitFlag : Bool := false
  preferences : String → Option String := fun _ => none

/-- The state at the start of the process. -/
def Store.state (d : Store) : State where
  tasks := d.tasks
  components := d.components
  files := d.files
  autoDownloadSwitch := d.autoDownloadSwitch
  updaterResult := d.updaterResult
  dueInitFlag := d.dueInitFlag
  preferences := d.preferences

/-- What outlives the process at its end. -/
def State.store (s : State) : Store where
  tasks := s.tasks
  components := s.components
  files := s.files
  autoDownloadSwitch := s.autoDownloadSwitch
  updaterResult := s.updaterResult
  dueInitFlag := s.dueInitFlag
  preferences := s.preferences

/-- Whether a path lies in a directory whose contents `FirmwareManager::Init` may destroy. -/
def inFirmwareDirs (path : String) : Bool :=
  [Firmware.ENCRYPTED_ROOT_PATH, Firmware.PACKAGE_ROOT_PATH].any fun dir => (dir ++ "/").toList.isPrefixOf path.toList

/-- `FirmwareManager::Init`: after `TerminateUpgrade` the files, the preferences and the database start anew. -/
def FirmwareManager.init (startupReason : StartupReason) (d : Store) : Store :=
  if startupReason = .processEnvReset then
    { updaterResult := d.updaterResult, files := fun path => if inFirmwareDirs path then none else d.files path }
  else d

/-- The service at the start of its process. -/
def Store.boot (d : Store) : Config := ⟨d.state, []⟩

/-! ## A device -/

/-- The text the parsers of the device know: there is a version, but the answer lists none. -/
def noVersionText : String := "\x7b\"searchStatus\":0\x7d"

/-- A device with the system installer, on which concrete runs are followed. Its parsers know one answer of the server, and its
digests are those of the empty file and of the file with the one byte zero. -/
def Platform.device : Platform where
  jsonParse := fun text => if text = noVersionText then some (.obj [("searchStatus", .num 0)]) else none
  cJsonSearchStatus := fun text => if text = noVersionText then some 0 else none
  sha256 := fun bytes =>
    if bytes = [] then "e3b0c44298fc1c149afbf4c8996fb92427ae41e4649b934ca495991b7852b855"
    else if bytes = [0] then "6e340b9cffb37a989ca544e6bb780a2c78901d3fb33738768511a30617afa01d"
    else ""
  bootSlots := "2"
  displayVersion := "2.0"
  percent := fun curr dlTotal dlNow => UInt32.ofNat ((dlNow + curr.toNat) * 100 / (curr.toNat + dlTotal))
  compressed := fun size => size / 5
  abInstallTimeout := 2
  updateStatusCode := fun
    | .stateInit => 0
    | .stateOngoing => 2
    | .stateSuccessful => 3
    | .stateOther n => n
  indeterminate := 0

/-- A thread takes so many operations that ask the environment nothing. -/
def Thread.steps (n : Thread) (k : Nat) : List Action := List.replicate k (.run n .none)

/-- The device gets a network. -/
def connected : List Action := .start (.netChanged 0 .notMeteredWifi) :: Thread.steps (.netChanged 0 .notMeteredWifi) 5

end UpdateEngine
