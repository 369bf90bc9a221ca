import UpdateEngine.Firmware.FlowManager

/-!
# The executors of a flow and their threads

`FirmwareCheckExecutor`; `FirmwareDownloadExecutor` with `DownloadThread`; `FirmwareInstallExecutor` with the two installers and
the callback of the system installer; `FirmwareApplyExecutor`.
-/

namespace UpdateEngine

open Concurrent DUpdateErrno

/-! ## FirmwareCheckExecutor -/

namespace FirmwareCheckExecutor

/-- `SetComponentCheckStatus`. -/
def setComponentCheckStatus (componentList : List FirmwareComponent) : List FirmwareComponent :=
  componentList.map fun c => { c with status := .checkVersionSuccess }

/-- `DoCheck` and `Complete`. -/
def doCheck (P : Platform) (f : Nat) : Prog Unit := do
  let (status, componentList) ← FirmwareICheck.doAction P
  let componentList := if status = .checkFail || componentList.isEmpty then componentList
    else setComponentCheckStatus componentList
  FirmwareStatusCache.setIsChecking false
  FirmwareFlowManager.onCheckCallback P f status componentList

end FirmwareCheckExecutor

/-! ## FirmwareDownloadExecutor -/

namespace FirmwareDownloadExecutor

/-- The digest `VerifyDownloadPkg` expects: the `verifyInfo` of the first component with that path. -/
def verifyInfoOf (components : List FirmwareComponent) (pkgName : String) : String :=
  ((components.find? fun c => c.spath = pkgName).map (·.verifyInfo)).getD ""

/-- `VerifyDownloadPkg`: the digest of the file against the one expected; without one the package is accepted. -/
def verifyDownloadPkg (P : Platform) (components : List FirmwareComponent) (pkgName : String) : Prog Bool := do
  if verifyInfoOf components pkgName ≠ "" then
    if !(← Sha256Utils.checkFileSha256String P pkgName (verifyInfoOf components pkgName)) then return false
  call (.enter (.accepted pkgName))
  return true

/-- The progress `DownloadCallback` goes on with, once a package that shows as downloaded is tested. -/
def verifiedProgress (P : Platform) (w : Flow) (packageName : String) (progress : Progress) : Prog Progress := do
  if w.upgradeStatus ≠ .downloadSuccess then return progress
  if ← verifyDownloadPkg P w.components packageName then return progress
  call (.removeFile packageName)
  return { progress with status := .downloadFail, endReason := toString DUPDATE_ERR_VERIFY_PACKAGE_FAIL }

/-- `DownloadCallback`: the component row gets the progress handed in, the task row and the flow the one after verification. -/
def downloadCallback (P : Platform) (f : Nat) (o : DownloadOptions) (serverUrl packageName : String) (progress : Progress) :
    Prog Unit := do
  call (.setFlow (.upgradeStatus .downloading))
  if progress.status = .downloadFail || progress.status = .downloadSuccess then
    call (.setFlow (.upgradeStatus progress.status))
  let w ← call .getFlow
  let downloadProgress ← verifiedProgress P w packageName progress
  FirmwareComponentOperator.updateProgressByUrl .downloadCallback serverUrl progress.status progress.percent.toInt32
  FirmwareTaskOperator.updateProgressByTaskId .downloadCallback w.executorTasks.taskId downloadProgress.status
    downloadProgress.percent.toInt32
  FirmwareFlowManager.onDownloadCallback P f o downloadProgress

end FirmwareDownloadExecutor

/-! ## DownloadThread

The fields only its own thread uses are passed along: `downloadProgress` is `downloadProgress_`. (`exitDownload_` is set by
`StopDownload` alone, which nobody calls.) -/

namespace DownloadThread

def DOWNLOAD_FINISH_PERCENT : UInt32 := 100
def DOWNLOAD_PERIOD_PERCENT : UInt32 := 1
def CURLE_OK : Nat := 0
def CURLE_ABORTED_BY_CALLBACK : Nat := 42

section Callbacks

variable (P : Platform) (f : Nat) (o : DownloadOptions) (fileName serverUrl : String)

/-- The test of `DealAbnormal`: there is no network, or a cancel. -/
def isAbnormal : Prog Bool := do
  if ← call .getIsNoNet then return true
  call .getIsCancel

/-- `DealAbnormal`: without network, or after a cancel, the flow is told; the cancel is then taken back. -/
def dealAbnormal (percent : UInt32) (downloadProgress : Progress) : Prog (Bool × Progress) := do
  if !(← isAbnormal) then return (false, downloadProgress)
  -- DownloadEndReason::NET_NOT_AVAILIABLE and CANCEL
  let endReason := if ← call .getIsNoNet then "11" else "9"
  let status : UpgradeStatus := if ← call .getIsNoNet then .downloadFail else .downloadCancel
  if ← call .getIsCancel then call (.setIsCancel false)
  let downloadProgress : Progress := { percent := percent, status := status, endReason := endReason }
  FirmwareDownloadExecutor.downloadCallback P f o serverUrl fileName downloadProgress
  return (true, downloadProgress)

/-- `DownloadCallback`: whether it was left with an error, and `downloadProgress_` afterwards. -/
def downloadCallback (percent : UInt32) (status : UpgradeStatus) (error : String) (downloadProgress : Progress) :
    Prog (Bool × Progress) := do
  call (.enter (.downloadThreadCallback status))
  let (abnormal, downloadProgress) ← dealAbnormal P f o fileName serverUrl percent downloadProgress
  if abnormal then return (true, downloadProgress)
  if downloadProgress.status = status && downloadProgress.percent = percent then return (false, downloadProgress)
  if status = .downloadFail then
    if ← FileUtils.isFileExist fileName then call (.removeFile fileName)
  else if percent ≠ DOWNLOAD_FINISH_PERCENT && percent < downloadProgress.percent + DOWNLOAD_PERIOD_PERCENT then
    return (false, downloadProgress)
  if percent = DOWNLOAD_FINISH_PERCENT && status = .downloading then return (false, downloadProgress)
  let downloadProgress : Progress := { percent := percent, status := status, endReason := error }
  FirmwareDownloadExecutor.downloadCallback P f o serverUrl fileName downloadProgress
  return (false, downloadProgress)

/-- `DownloadProgress`. -/
def onDownloadProgress (dlTotal dlNow : Nat) (downloadProgress : Progress) : Prog (Bool × Progress) := do
  if dlTotal = 0 then return (false, downloadProgress)
  let curr ← getLocalFileLength fileName
  downloadCallback P f o fileName serverUrl (P.percent curr dlTotal dlNow) .downloading "" downloadProgress

/-- What `curl_easy_perform` does with what arrives: data is appended to the file, a progress function that returns an error stops
the transfer. -/
def transfer : List TransferEvent → Progress → Prog (Bool × Progress)
  | [], downloadProgress => pure (false, downloadProgress)
  | .data bytes :: events, downloadProgress => do
    call (.appendFile fileName bytes)
    transfer events downloadProgress
  | .progress dlTotal dlNow :: events, downloadProgress => do
    let (error, downloadProgress) ← onDownloadProgress P f o fileName serverUrl dlTotal dlNow downloadProgress
    if error then return (true, downloadProgress)
    transfer events downloadProgress

/-- `ProcessThreadExecute`: whether the thread waits for another start, and `downloadProgress_` afterwards. -/
def processThreadExecute (downloadProgress : Progress) : Prog (Bool × Progress) := do
  let packageSize ← getLocalFileLength fileName
  if hasDot fileName then
    let (_, downloadProgress) ←
      downloadCallback P f o fileName serverUrl 0 .downloadFail "Failed to check file" downloadProgress
    return (true, downloadProgress)
  if !(← call (.openFile fileName)) then
    let (_, downloadProgress) ←
      downloadCallback P f o fileName serverUrl 0 .downloadFail "Failed ot open file" downloadProgress
    return (true, downloadProgress)
  if !(← call (.ask .curlInit)) then
    let (_, downloadProgress) ←
      downloadCallback P f o fileName serverUrl 0 .downloadFail "Failed to init curl" downloadProgress
    return (true, downloadProgress)
  let t ← call (.ask (.curlPerform serverUrl packageSize))
  let (aborted, downloadProgress) ← transfer P f o fileName serverUrl t.events downloadProgress
  let res := if aborted then CURLE_ABORTED_BY_CALLBACK else t.res
  if res ≠ CURLE_OK then
    if res ≠ CURLE_ABORTED_BY_CALLBACK then
      -- DownloadEndReason::CURL_ERROR
      let (_, downloadProgress) ← downloadCallback P f o fileName serverUrl 0 .downloadFail "13" downloadProgress
      return (false, downloadProgress)
    return (false, downloadProgress)
  call (.enter (.complete fileName))
  let (_, downloadProgress) ←
    downloadCallback P f o fileName serverUrl DOWNLOAD_FINISH_PERCENT .downloadSuccess "" downloadProgress
  return (false, downloadProgress)

/-- `ExecuteThreadFunc`, for as many rounds as the object can be woken. -/
def executeThreadFunc (index : Nat) : Nat → Progress → Prog Unit
  | 0, _ => pure ()
  | rounds + 1, downloadProgress => do
    if ← call (.awaitWake index) then return ()
    let (again, downloadProgress) ← processThreadExecute P f o fileName serverUrl downloadProgress
    if again then executeThreadFunc index rounds downloadProgress

end Callbacks

/-- How often a `DownloadThread` object is woken: once by `StartDownload`, once by its destructor. -/
def rounds : Nat := 2

end DownloadThread

namespace FirmwareDownloadExecutor

/-- The start of a round of `PerformDownload`: a package whose file has the full size is reported as downloaded. -/
def reportComplete (P : Platform) (f : Nat) (o : DownloadOptions) (component : FirmwareComponent) : Prog Unit := do
  let localFileLength ← DownloadThread.getLocalFileLength component.spath
  if localFileLength = component.size.toUInt64 && component.size ≠ 0 then
    call (.enter (.complete component.spath))
    downloadCallback P f o component.url component.spath
      { percent := DownloadThread.DOWNLOAD_FINISH_PERCENT, status := .downloadSuccess }

/-- The assignment to `downloadThread_`: the thread of the last `DownloadThread` object is told to exit and joined. -/
def exitLast (index : Nat) : Option Thread → Prog Unit
  | some t => do
    call (.setFlow (.wake (index - 1) { isWake := true, isExitThread := true }))
    call (.join t)
  | none => pure ()

/-- `StartDownload` of the `index`-th object: its thread, if one could be made. -/
def startDownload (f : Nat) (o : DownloadOptions) (index : Nat) (component : FirmwareComponent) : Prog (Option Thread) := do
  if !(← call (.ask .newThread)) then return none
  let t := Thread.downloadThread f o index component.spath component.url
  call (.spawn t)
  call (.setFlow (.wake index { isWake := true }))
  return some t

/-- The loop of `PerformDownload`. `index` counts the `DownloadThread` objects; `last` is the thread of the last one. -/
def performDownloads (P : Platform) (f : Nat) (o : DownloadOptions) : Nat → Option Thread → List FirmwareComponent → Prog Unit
  | _, _, [] => pure ()
  | index, last, component :: components => do
    reportComplete P f o component
    call (.setFlow (.upgradeStatus .downloading))
    exitLast index last
    let started ← startDownload f o index component
    if started.isNone then
      -- DownloadEndReason::FAIL
      FirmwareFlowManager.onDownloadCallback P f o { status := .downloadFail, endReason := "3" }
    performDownloads P f o (index + 1) started components

/-- `PerformDownload`. -/
def performDownload (P : Platform) (f : Nat) (o : DownloadOptions) (tasks : FirmwareTask)
    (components : List FirmwareComponent) : Prog Unit := do
  performDownloads P f o 0 none components
  notifyEvent tasks.taskId .downloadStart .downloading {}

/-- `DoDownload`. -/
def doDownload (P : Platform) (f : Nat) (o : DownloadOptions) : Prog Unit := do
  let components ← call (.queryComponents .downloadExecutor)
  call (.setFlow (.components components))
  if components.isEmpty then
    FirmwareFlowManager.onDownloadCallback P f o { status := .downloadFail, endReason := "no task" }
  else
    let tasks ← FirmwareTaskOperator.queryTask .downloadExecutor {}
    call (.setFlow (.executorTasks tasks))
    if tasks.downloadTaskId.isEmpty then
      performDownload P f o tasks components
    else
      FirmwareFlowManager.onDownloadCallback P f o { status := .downloadFail, endReason := "not support" }

end FirmwareDownloadExecutor

/-! ## FirmwareInstallExecutor -/

namespace FirmwareInstallExecutor

/-- `HandleInstallProgress`. -/
def handleInstallProgress (P : Platform) (f : Nat) (o : UpgradeOptions) (installType : InstallType)
    (component : FirmwareComponent) (progress : Progress) : Prog Unit := do
  FirmwareComponentOperator.updateProgressByUrl .handleInstallProgress component.url progress.status progress.percent.toInt32
  let w ← call .getFlow
  let taskProgress := { w.taskProgress with status := progress.status, percent := progress.percent }
  call (.setFlow (.taskProgress taskProgress))
  FirmwareTaskOperator.updateProgressByTaskId .handleInstallProgress w.executorTasks.taskId taskProgress.status
    taskProgress.percent.toInt32
  let w ← call .getFlow
  let installCallbackInfo := { w.installCallbackInfo with progress := taskProgress }
  call (.setFlow (.installCallbackInfo installCallbackInfo))
  FirmwareFlowManager.onInstallCallback P f o installType installCallbackInfo

/-- The status and percentage `HandleInstallResult` gives the task. -/
def installResult (installType : InstallType) (result : Bool) (p : Progress) : Progress :=
  if result then { p with status := .installSuccess, percent := Firmware.ONE_HUNDRED }
  else match installType with
    | .sysInstaller => { p with status := .installFail }
    | .updater => { p with status := .updateFail }
    | .quickFix => p

/-- `HandleInstallResult`. -/
def handleInstallResult (P : Platform) (f : Nat) (o : UpgradeOptions) (installType : InstallType) (result : Bool)
    (errMsg : ErrorMessage) : Prog Unit := do
  call (.enter (.handleInstallResult result errMsg))
  let w ← call .getFlow
  let taskProgress := installResult installType result w.taskProgress
  call (.setFlow (.taskProgress taskProgress))
  FirmwareTaskOperator.updateProgressByTaskId .handleInstallResult w.executorTasks.taskId taskProgress.status
    taskProgress.percent.toInt32
  let installCallbackInfo : InstallCallbackInfo := { progress := taskProgress, errorMessage := errMsg }
  call (.setFlow (.installCallbackInfo installCallbackInfo))
  FirmwareFlowManager.onInstallCallback P f o installType installCallbackInfo

end FirmwareInstallExecutor

/-! ## The installers -/

namespace SysInstallerInstall

/-- `WaitInstallResult`, with the polls that are left: whether the installer has reported its success. -/
def waitInstallResult : Nat → Prog Bool
  | 0 => pure false
  | polls + 1 => do
    let w ← call .getFlow
    if w.sysInstallProgress.status = .installFail then return false
    if w.sysInstallProgress.status = .installSuccess && w.sysInstallProgress.percent = Firmware.ONE_HUNDRED then return true
    waitInstallResult polls

/-- `DoSysInstall`. While it waits the installer may call back (`sysCallback` is what its callback captures). -/
def doSysInstall (P : Platform) (o : UpgradeOptions) (firmwareComponent : FirmwareComponent) : Prog Bool := do
  call (.setFlow (.sysInstallProgress { status := .installing }))
  call (.setFlow (.errMsg {}))
  if (← call (.ask .sysInstallerInit)) ≠ 0 then
    call (.setFlow (.errMsg ⟨DUPDATE_ERR_IPC_ERROR, "sys installer init failed"⟩))
    return false
  if (← call (.ask .getUpdateStatus)) ≠ .stateInit then
    call (.setFlow (.errMsg ⟨0, "sys installer is busy"⟩))
    return false
  let ret ← call (.ask .setUpdateCallback)
  if ret ≠ 0 then
    call (.setFlow (.errMsg ⟨ret, "set sys installer callback failed"⟩))
    return false
  call (.setFlow (.sysCallback (some (o, firmwareComponent))))
  let ret ← call (.ask (.startUpdatePackageZip firmwareComponent.spath))
  if ret ≠ 0 then
    call (.setFlow (.errMsg ⟨ret, "sys installer StartUpdatePackageZip failed"⟩))
    call (.setFlow (.sysCallback none))
    return false
  -- the timeout is inclusive
  let result ← waitInstallResult (P.abInstallTimeout + 1)
  call (.setFlow (.sysCallback none))
  return result

/-- `PerformInstall`: the loop returns in its first round. -/
def performInstall (P : Platform) (o : UpgradeOptions) (taskId : String) (componentList : List FirmwareComponent) :
    Prog Bool := do
  match componentList with
  | [] => return false
  | component :: _ =>
    notifyEvent taskId .upgradeStart .installing {}
    doSysInstall P o component

/-- `SysInstallerCallback::OnUpgradeProgress`: the progress and the message an update status stands for. -/
def installProgress (P : Platform) (updateStatus : SysUpdateStatus) (percent : Int32) (resultMsg : String) :
    Progress × ErrorMessage :=
  let status : UpgradeStatus := match updateStatus with
    | .stateInit | .stateOngoing => .installing
    | .stateSuccessful => .installSuccess
    | .stateOther _ => .installFail
  ({ status := status, percent := percent.toUInt32 },
    { errorCode := P.updateStatusCode updateStatus, errorMessage := if status = .installFail then resultMsg else "" })

/-- A callback of the system installer: `OnUpgradeProgress` and the functions it was given. -/
def onUpgradeProgress (P : Platform) (f : Nat) (o : UpgradeOptions) (updateStatus : SysUpdateStatus) (percent : Int32)
    (resultMsg : String) : Prog Unit := do
  let w ← call .getFlow
  match w.sysCallback with
  | none => return ()
  | some (_, component) =>
    let (progress, errMsg) := installProgress P updateStatus percent resultMsg
    call (.setFlow (.sysInstallProgress progress))
    call (.setFlow (.errMsg errMsg))
    FirmwareInstallExecutor.handleInstallProgress P f o .sysInstaller component
      { status := progress.status, percent := progress.percent }

end SysInstallerInstall

namespace UpdaterInstall

/-- The files `DoUpdaterInstall` hands over: the paths, in the order of version type and path. -/
def installFiles (componentList : List FirmwareComponent) : List String :=
  let le (a b : FirmwareComponent) : Bool :=
    decide (a.blVersionType < b.blVersionType) || (a.blVersionType = b.blVersionType && decide (a.spath ≤ b.spath))
  (componentList.mergeSort le).map (·.spath)

/-- `PerformInstall` and `DoUpdaterInstall`. -/
def performInstall (taskId : String) (componentList : List FirmwareComponent) : Prog Bool := do
  notifyEvent taskId .upgradeStart .updating {}
  if ← call (.ask (.rebootAndInstallUpgradePackage (installFiles componentList))) then return true
  call (.setFlow (.errMsg ⟨DUPDATE_ERR_UPDATE_REBOOT_FAIL, "updater install is failed"⟩))
  return false

end UpdaterInstall

namespace FirmwareInstallExecutor

/-- `PerformInstall` of the installer `InstallFactory::GetInstance` makes for a type. -/
def performInstall (P : Platform) (o : UpgradeOptions) (installType : InstallType) (taskId : String)
    (componentList : List FirmwareComponent) : Prog Bool :=
  match installType with
  | .sysInstaller => SysInstallerInstall.performInstall P o taskId componentList
  | _ => UpdaterInstall.performInstall taskId componentList

/-- `FirmwareInstall::StartInstall`, on a new installer object. -/
def startInstall (P : Platform) (f : Nat) (o : UpgradeOptions) (installType : InstallType) (taskId : String)
    (componentList : List FirmwareComponent) : Prog Unit := do
  if (← call .getFlow).isInstalling then
    handleInstallResult P f o installType false ⟨DUPDATE_ERR_SYSTEM_BUSY_ON_INSTALL, "install is busying"⟩
  else if !(← FirmwareUpdateHelper.isUpgradePackagesReady componentList) then
    handleInstallResult P f o installType false ⟨DUPDATE_ERR_UPDATE_PRECHECK_FAIL, "check component failed!"⟩
  else
    call (.setFlow (.isInstalling true))
    call (.enter (.performInstall componentList))
    let result ← performInstall P o installType taskId componentList
    call (.enter .performInstallEnd)
    call (.setFlow (.isInstalling false))
    let w ← call .getFlow
    handleInstallResult P f o installType result w.errMsg

/-- The status `DoInstall` gives the task and the components at first. -/
def startStatus : InstallType → UpgradeStatus
  | .sysInstaller => .installing
  | .updater => .updating
  | .quickFix => .init

/-- `DoInstall`. -/
def doInstall (P : Platform) (f : Nat) (o : UpgradeOptions) (installType : InstallType) : Prog Unit := do
  let components ← call (.queryComponents .installExecutor)
  if components.isEmpty then
    let w ← call .getFlow
    let installCallbackInfo :=
      { w.installCallbackInfo with progress := { status := .updateFail, endReason := "no task" } }
    call (.setFlow (.installCallbackInfo installCallbackInfo))
    FirmwareFlowManager.onInstallCallback P f o installType installCallbackInfo
  else
    let tasks ← FirmwareTaskOperator.queryTask .installExecutor {}
    call (.setFlow (.executorTasks tasks))
    FirmwareTaskOperator.updateProgressByTaskId .installExecutor tasks.taskId (startStatus installType) 0
    components.forM fun component =>
      FirmwareComponentOperator.updateProgressByUrl .installExecutor component.url (startStatus installType) 0
    startInstall P f o installType tasks.taskId components

end FirmwareInstallExecutor

/-! ## FirmwareApplyExecutor -/

/-- `FirmwareApplyExecutor::DoInstall`: the apply step. -/
def FirmwareApplyExecutor.doInstall (P : Platform) (f : Nat) (o : UpgradeOptions) (installType : InstallType) : Prog Unit := do
  call (.enter .applyDoInstall)
  let components ← call (.queryComponents .applyExecutor)
  if components.isEmpty then
    FirmwareFlowManager.onApplyCallback P f o installType
  else
    let tasks ← FirmwareTaskOperator.queryTask .applyExecutor {}
    FirmwareTaskOperator.updateProgressByTaskId .applyExecutor tasks.taskId .updating 0
    call .reboot

end UpdateEngine
