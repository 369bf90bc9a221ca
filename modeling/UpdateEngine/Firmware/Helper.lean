import UpdateEngine.State

/-!
# Tables, files, events

`FirmwareTaskOperator`, `FirmwareUpdateHelper`, `FileUtils`, `DownloadThread::GetLocalFileLength`, `BaseCallbackUtils` and
`NetManager::IsNetAvailable`: what every flow uses. Logging is left out everywhere.
-/

namespace UpdateEngine

open Concurrent

/-! ## The task table -/

/-- `FirmwareTaskOperator::QueryTask`: the first row, or the task handed in, marked as not existing. -/
def FirmwareTaskOperator.queryTask (caller : Caller) (task : FirmwareTask) : Prog FirmwareTask := do
  let taskList ← call (.queryTasks caller)
  match taskList with
  | [] => return { task with isExistTask := false }
  | t :: _ => return { t with isExistTask := true }

/-- `FirmwareTaskOperator::UpdateProgressByTaskId`. -/
def FirmwareTaskOperator.updateProgressByTaskId (caller : Caller) (taskId : String) (status : UpgradeStatus)
    (progress : Int32) : Prog Unit :=
  call (.updateTasks caller taskId (.progress status progress))

/-- `FirmwareComponentOperator::UpdateProgressByUrl`. -/
def FirmwareComponentOperator.updateProgressByUrl (caller : Caller) (url : String) (status : UpgradeStatus)
    (progress : Int32) : Prog Unit :=
  call (.updateComponents caller (.progressByUrl url status progress))

/-- `FirmwareComponentOperator::QueryByVersionId`: the first row with the version id. -/
def FirmwareComponentOperator.queryByVersionId (caller : Caller) (versionId : String) : Prog (Option FirmwareComponent) := do
  let components ← call (.queryComponents caller)
  return components.find? fun c => c.versionId = versionId

/-! ## Files -/

/-- `FileUtils::IsFileExist`. -/
def FileUtils.isFileExist (fileName : String) : Prog Bool := do
  let content ← call (.readFile fileName)
  return content.isSome

/-- `FileUtils::GetFileSize`: zero when there is no such file. -/
def FileUtils.getFileSize (fileName : String) : Prog Int64 := do
  let content ← call (.readFile fileName)
  return Int64.ofNat ((content.map List.length).getD 0)

/-- `FileUtils::IsSpaceEnough`: the free space against the required one, both as unsigned. -/
def FileUtils.isSpaceEnough (requiredSpace : Int64) : Prog Bool := do
  let freeSpace ← call (.ask .freeSpace)
  return decide (requiredSpace.toUInt64 ≤ freeSpace)

/-- Whether a path holds `/.` or `./`, which the downloader refuses. -/
def hasDot (fileName : String) : Bool := go fileName.toList
where
  /-- The same for the characters of the path. -/
  go : List Char → Bool
    | a :: b :: l => (a = '/' && b = '.') || (a = '.' && b = '/') || go (b :: l)
    | _ => false

/-- `DownloadThread::GetLocalFileLength`: zero for a path it refuses and for a file that is not there. -/
def DownloadThread.getLocalFileLength (fileName : String) : Prog UInt64 := do
  if hasDot fileName then return 0
  let content ← call (.readFile fileName)
  return UInt64.ofNat ((content.map List.length).getD 0)

/-- The digest of nothing read: the 32 bytes the buffer was initialised with. -/
def zeroDigest : String := "0000000000000000000000000000000000000000000000000000000000000000"

/-- `strcasecmp`, as a test: equal up to the case of letters. -/
def strcasecmp (a b : String) : Bool := a.toList.map Char.toLower = b.toList.map Char.toLower

/-- `Sha256Utils::GetFileSha256Str`: the digest of the file, or of nothing when it cannot be opened (the answer of
`GetDigestFromFile` is not looked at). With it, the content the digest is of. -/
def Sha256Utils.getFileSha256Str (P : Platform) (fileName : String) : Prog (String × Option Bytes) := do
  let content ← call (.readFile fileName)
  match content with
  | some w => return (P.sha256 w, some w)
  | none => return (zeroDigest, none)

/-- `Sha256Utils::CheckFileSha256String`. -/
def Sha256Utils.checkFileSha256String (P : Platform) (fileName sha256String : String) : Prog Bool := do
  if !(← FileUtils.isFileExist fileName) then return false
  let (sha256Result, content) ← Sha256Utils.getFileSha256Str P fileName
  if !strcasecmp sha256Result sha256String then return false
  match content with
  | some w => call (.enter (.verified ⟨fileName, sha256String, w⟩))
  | none => pure ()
  return true

/-! ## FirmwareUpdateHelper -/

namespace FirmwareUpdateHelper

/-- The text `BuildTaskId` hashes: the version ids, joined with an underscore once the text is not empty. -/
def taskIdText (componentList : List FirmwareComponent) : String :=
  componentList.foldl (fun taskId c => (if taskId.isEmpty then taskId else taskId ++ "_") ++ c.versionId) ""

/-- `BuildTaskId`. -/
def buildTaskId (P : Platform) (componentList : List FirmwareComponent) : String :=
  if componentList.isEmpty then "" else P.sha256 (taskIdText componentList).toUTF8.toList

/-- `ClearFirmwareInfo`: both tables and the package directory are emptied. -/
def clearFirmwareInfo : Prog Unit := do
  let _ ← FirmwareTaskOperator.queryTask .clearFirmwareInfo {}
  call .deleteTasks
  call .deleteComponents
  call .deleteDownloadFiles

/-- `IsBatteryEnough`: a stub. -/
def isBatteryEnough : Bool := true

/-- `BuildHotaVersionComponent`, for a list that is not empty. -/
def buildHotaVersionComponent (P : Platform) (first : FirmwareComponent) (hotaComponents : List FirmwareComponent) :
    VersionComponent where
  componentId := first.componentId
  upgradeAction := "upgrade"
  componentType := 1
  effectiveMode := if P.installType = .sysInstaller then 3 else 1
  innerVersion := first.targetBlVersionNumber
  displayVersion := first.targetBlDisplayVersionNumber
  size := hotaComponents.foldl (fun size c => size + c.size.toUInt64) 0

/-- `BuildNewVersionInfo`: the HOTA and dynamic packages, as one version component. -/
def buildNewVersionInfo (P : Platform) (components : List FirmwareComponent) : List VersionComponent :=
  match components.filter fun c => c.blVersionType = 1 || c.blVersionType = 100 with
  | [] => []
  | c :: l => [buildHotaVersionComponent P c (c :: l)]

/-- `IsUpgradePackagesReady`: there are packages, and each is a file of the size its row says. -/
def isUpgradePackagesReady (componentList : List FirmwareComponent) : Prog Bool := do
  if componentList.isEmpty then return false
  componentList.allM fun component => do
    if !(← FileUtils.isFileExist component.spath) then return false
    let realSize ← FileUtils.getFileSize component.spath
    return realSize = component.size

end FirmwareUpdateHelper

/-! ## Events -/

/-- `BaseCallbackUtils::NotifyEvent`. -/
def notifyEvent (versionDigest : String) (eventId : EventId) (status : UpgradeStatus) (errorMessage : ErrorMessage)
    (versionComponents : List VersionComponent := []) : Prog Unit :=
  call (.publish ⟨eventId, {
    versionDigest := versionDigest
    status := status
    errorMessages := [errorMessage]
    versionComponents := versionComponents }⟩)

/-- The event `BaseCallbackUtils::ProgressCallback` sends for a status. -/
def progressEventId : UpgradeStatus → EventId
  | .downloading => .downloadUpdate
  | .downloadPause => .downloadPause
  | .downloadCancel => .downloadCancel
  | .downloadFail | .verifyFail => .downloadFail
  | .downloadSuccess => .downloadSuccess
  | .installing | .updating => .upgradeUpdate
  | .installFail | .updateFail => .upgradeFail
  | .installSuccess => .applyWait
  | .updateSuccess => .upgradeSuccess
  | _ => .taskBase

/-- `UpdateServiceUtil::BuildTaskBody`. -/
def buildTaskBody (versionDigest : String) (progress : Progress) : TaskBody :=
  let errorCode := atoi progress.endReason
  { versionDigest := versionDigest
    status := progress.status
    progress := progress.percent.toInt32
    errorMessages := if errorCode = 0 then [] else [⟨errorCode, progress.endReason⟩] }

/-- `BaseCallbackUtils::ProgressCallback`. -/
def progressCallback (versionDigest : String) (progress : Progress) : Prog Unit :=
  call (.publish ⟨progressEventId progress.status, buildTaskBody versionDigest progress⟩)

/-- `NetManager::IsNetAvailable`: the current network is in the mask. -/
def isNetAvailable (mask : NetType) : Prog Bool := do
  let netType ← call .getNetType
  return decide (0 < netType.value &&& mask.value)

end UpdateEngine
