import UpdateEngine.Client.Sessions

/-!
# The updaters of a script

`UpdateClient`, `LocalUpdater` and `Restorer`: which arguments each method takes, and which request its session makes. The arguments of
an `UpdateClient` are read into its members, and its requests are made of the members as they are when a thread comes to the session.
-/

namespace UpdateEngine.Ipc.Client

variable {σ : Type}

open Client.ClientHelper

/-- An argument; one that is not handed over is undefined. -/
def argument (args : List Value) (i : Nat) : Value := (args[i]?).getD .undefined

/-- A worker that leaves the members as they are. -/
def DoWorker.ofRequest {μ : Type} (request : IUpdateService σ → μ → BusinessError → StateM σ (CallResult × BusinessError)) :
    DoWorker μ σ := fun kit members businessError => do
  let (ret, businessError) ← request kit members businessError
  return (ret, members, businessError)

/-! ## UpdateClient -/

/-- `UpdateClient`, its members but for those that no method uses. -/
structure UpdateClient where
  upgradeInfo : UpgradeInfo := {}
  upgradePolicy : UpgradePolicy := {}
  checkResult : CheckResult := {}
  newVersionInfo : NewVersionInfo := {}
  newVersionDescriptionInfo : VersionDescriptionInfo := {}
  currentVersionInfo : CurrentVersionInfo := {}
  currentVersionDescriptionInfo : VersionDescriptionInfo := {}
  taskInfo : TaskInfo := {}
  versionDigestInfo : VersionDigestInfo := {}
  descriptionOptions : DescriptionOptions := {}
  upgradeOptions : UpgradeOptions := {}
  clearOptions : ClearOptions := {}
  downloadOptions : DownloadOptions := {}
  resumeDownloadOptions : ResumeDownloadOptions := {}
  pauseDownloadOptions : PauseDownloadOptions := {}
  deriving DecidableEq, Repr

namespace UpdateClient

/-- `ParseUpgOptions`: the options are read from an argument, and the digest from that before it. -/
def parseUpgOptions {α : Type} (getOptions : Value → α → ClientStatus × α) (args : List Value) (versionDigestInfo : VersionDigestInfo)
    (options : α) : ClientStatus × VersionDigestInfo × α :=
  let versionDigestInfo := (getVersionDigestInfo (argument args 0) versionDigestInfo).2
  let (ret, options) := getOptions (argument args 1) options
  (if ret = .CLIENT_SUCCESS then .CLIENT_SUCCESS else .CLIENT_INVALID_PARAM, versionDigestInfo, options)

/-- `StartSession` of a method, unless its arguments are refused. -/
def request (ret : ClientStatus) (type : SessionType) (callbackStartIndex : Nat) (doWorker : DoWorker UpdateClient σ) :
    Option (Request UpdateClient σ) :=
  if ret = .CLIENT_SUCCESS then some { params := { type, callbackStartIndex, isNeedBusinessError := true }, doWorker } else none

/-- `CheckNewVersion`. -/
def checkNewVersion : Method UpdateClient σ := fun _ c => (c, some {
  params := { type := .SESSION_CHECK_VERSION, callbackStartIndex := 0 }
  doWorker := .ofRequest fun kit c businessError => do
    let ret ← kit.checkNewVersion c.upgradeInfo
    return (ret, businessError) })

/-- `CancelUpgrade`, which takes no argument. -/
def cancelUpgrade : Method UpdateClient σ := fun args c => (c, if args.isEmpty then some {
    params := { type := .SESSION_CANCEL_UPGRADE, callbackStartIndex := 0, isNeedBusinessError := true }
    doWorker := .ofRequest fun kit c => kit.cancel c.upgradeInfo UpdaterSaInterfaceCode.DOWNLOAD.castUint.toInt32
    isNoCallback := true } else none)

/-- `Download`. -/
def download : Method UpdateClient σ := fun args c =>
  let (ret, versionDigestInfo, downloadOptions) := parseUpgOptions getDownloadOptions args c.versionDigestInfo c.downloadOptions
  ({ c with versionDigestInfo, downloadOptions }, request ret .SESSION_DOWNLOAD 2 (.ofRequest fun kit c =>
    kit.download c.upgradeInfo c.versionDigestInfo c.downloadOptions))

/-- `PauseDownload`. -/
def pauseDownload : Method UpdateClient σ := fun args c =>
  let (ret, versionDigestInfo, pauseDownloadOptions) :=
    parseUpgOptions getPauseDownloadOptions args c.versionDigestInfo c.pauseDownloadOptions
  ({ c with versionDigestInfo, pauseDownloadOptions }, request ret .SESSION_PAUSE_DOWNLOAD 2 (.ofRequest fun kit c =>
    kit.pauseDownload c.upgradeInfo c.versionDigestInfo c.pauseDownloadOptions))

/-- `ResumeDownload`. -/
def resumeDownload : Method UpdateClient σ := fun args c =>
  let (ret, versionDigestInfo, resumeDownloadOptions) :=
    parseUpgOptions getResumeDownloadOptions args c.versionDigestInfo c.resumeDownloadOptions
  ({ c with versionDigestInfo, resumeDownloadOptions }, request ret .SESSION_RESUME_DOWNLOAD 2 (.ofRequest fun kit c =>
    kit.resumeDownload c.upgradeInfo c.versionDigestInfo c.resumeDownloadOptions))

/-- `Upgrade`. -/
def upgrade : Method UpdateClient σ := fun args c =>
  let (ret, versionDigestInfo, upgradeOptions) := parseUpgOptions getUpgradeOptions args c.versionDigestInfo c.upgradeOptions
  ({ c with versionDigestInfo, upgradeOptions }, request ret .SESSION_UPGRADE 2 (.ofRequest fun kit c =>
    kit.upgrade c.upgradeInfo c.versionDigestInfo c.upgradeOptions))

/-- `ClearError`. -/
def clearError : Method UpdateClient σ := fun args c =>
  let (ret, versionDigestInfo, clearOptions) := parseUpgOptions getClearOptions args c.versionDigestInfo c.clearOptions
  ({ c with versionDigestInfo, clearOptions }, request ret .SESSION_CLEAR_ERROR 2 (.ofRequest fun kit c =>
    kit.clearError c.upgradeInfo c.versionDigestInfo c.clearOptions))

/-- `TerminateUpgrade`. -/
def terminateUpgrade : Method UpdateClient σ := fun _ c =>
  (c, request .CLIENT_SUCCESS .SESSION_TERMINATE_UPGRADE 0 (.ofRequest fun kit c => kit.terminateUpgrade c.upgradeInfo))

/-- `SetUpgradePolicy`. -/
def setUpgradePolicy : Method UpdateClient σ := fun args c =>
  let (ret, upgradePolicy) := Client.ClientHelper.getUpgradePolicy (argument args 0) c.upgradePolicy
  ({ c with upgradePolicy }, request ret .SESSION_SET_POLICY 1 (.ofRequest fun kit c =>
    kit.setUpgradePolicy c.upgradeInfo c.upgradePolicy))

/-- `GetUpgradePolicy`. -/
def getUpgradePolicy : Method UpdateClient σ := fun _ c => (c, request .CLIENT_SUCCESS .SESSION_GET_POLICY 0 fun kit c businessError => do
  let (ret, upgradePolicy, businessError) ← kit.getUpgradePolicy c.upgradeInfo (c.upgradePolicy, businessError)
  return (ret, { c with upgradePolicy }, businessError))

/-- `GetNewVersionInfo`. -/
def getNewVersionInfo : Method UpdateClient σ := fun _ c =>
  (c, request .CLIENT_SUCCESS .SESSION_GET_NEW_VERSION 0 fun kit c businessError => do
    let (ret, newVersionInfo, businessError) ← kit.getNewVersionInfo c.upgradeInfo (c.newVersionInfo, businessError)
    return (ret, { c with newVersionInfo }, businessError))

/-- `GetNewVersionDescription`. -/
def getNewVersionDescription : Method UpdateClient σ := fun args c =>
  let (ret, versionDigestInfo, descriptionOptions) :=
    parseUpgOptions getDescriptionOptions args c.versionDigestInfo c.descriptionOptions
  ({ c with versionDigestInfo, descriptionOptions }, request ret .SESSION_GET_NEW_VERSION_DESCRIPTION 2 fun kit c businessError => do
    let (ret, newVersionDescriptionInfo, businessError) ← kit.getNewVersionDescription c.upgradeInfo c.versionDigestInfo
      c.descriptionOptions (c.newVersionDescriptionInfo, businessError)
    return (ret, { c with newVersionDescriptionInfo }, businessError))

/-- `GetCurrentVersionInfo`. -/
def getCurrentVersionInfo : Method UpdateClient σ := fun _ c =>
  (c, request .CLIENT_SUCCESS .SESSION_GET_CUR_VERSION 0 fun kit c businessError => do
    let (ret, currentVersionInfo, businessError) ← kit.getCurrentVersionInfo c.upgradeInfo (c.currentVersionInfo, businessError)
    return (ret, { c with currentVersionInfo }, businessError))

/-- `GetCurrentVersionDescription`. -/
def getCurrentVersionDescription : Method UpdateClient σ := fun args c =>
  let (ret, descriptionOptions) := getDescriptionOptions (argument args 0) c.descriptionOptions
  ({ c with descriptionOptions }, request ret .SESSION_GET_CUR_VERSION_DESCRIPTION 1 fun kit c businessError => do
    let (ret, currentVersionDescriptionInfo, businessError) ← kit.getCurrentVersionDescription c.upgradeInfo c.descriptionOptions
      (c.currentVersionDescriptionInfo, businessError)
    return (ret, { c with currentVersionDescriptionInfo }, businessError))

/-- `GetTaskInfo`. -/
def getTaskInfo : Method UpdateClient σ := fun _ c => (c, request .CLIENT_SUCCESS .SESSION_GET_TASK_INFO 0 fun kit c businessError => do
  let (ret, taskInfo, businessError) ← kit.getTaskInfo c.upgradeInfo (c.taskInfo, businessError)
  return (ret, { c with taskInfo }, businessError))

/-- The methods. -/
def methods : List (Method UpdateClient σ) :=
  [checkNewVersion, cancelUpgrade, download, pauseDownload, resumeDownload, upgrade, clearError, terminateUpgrade, setUpgradePolicy,
    getUpgradePolicy, getNewVersionInfo, getNewVersionDescription, getCurrentVersionInfo, getCurrentVersionDescription, getTaskInfo]

/-- `GetUpdateResult`, with the function it names. -/
def getUpdateResult (type : SessionType) (c : UpdateClient) : Option Value :=
  match type with
  | .SESSION_CHECK_VERSION => some (buildCheckResult c.checkResult)
  | .SESSION_GET_NEW_VERSION => some (buildNewVersionInfo c.newVersionInfo)
  | .SESSION_GET_NEW_VERSION_DESCRIPTION => buildVersionDescriptionInfo c.newVersionDescriptionInfo
  | .SESSION_GET_TASK_INFO => some (buildTaskInfo c.taskInfo)
  | .SESSION_GET_CUR_VERSION => some (buildCurrentVersionInfo c.currentVersionInfo)
  | .SESSION_GET_CUR_VERSION_DESCRIPTION => buildVersionDescriptionInfo c.currentVersionDescriptionInfo
  | .SESSION_GET_POLICY => some (buildUpgradePolicy c.upgradePolicy)
  | _ => some .undefined

/-- `UpdateClient` as an `IUpdater`. -/
def updater : IUpdater UpdateClient where
  getUpdateResult := getUpdateResult
  setCheckResult checkResult c := { c with checkResult }

end UpdateClient

/-! ## LocalUpdater -/

/-- A class that adds nothing to `IUpdater`: every session is answered with an undefined value. -/
def IUpdater.plain : IUpdater Unit where
  getUpdateResult _ _ := some .undefined
  setCheckResult _ members := members

/-- `StartParamErrorSession`. -/
def paramErrorSession (callbackStartIndex : Nat) : Request Unit σ where
  params := { type := .SESSION_REPLY_PARAM_ERROR, callbackStartIndex, isNeedBusinessError := true }
  doWorker := .ofRequest fun _ _ businessError => pure (INT_PARAM_ERR, businessError)

namespace LocalUpdater

def MISC_FILE : String := "/dev/block/by-name/misc"

/-- `VerifyUpgradePackage`. -/
def verifyUpgradePackage : Method Unit σ := fun args c => (c,
  if args.length < 2 then none
  else match parseUpgradeFile (argument args 0), NapiUtil.getStringValue (argument args 1) "" with
    | (.CLIENT_SUCCESS, upgradeFile), (.CLIENT_SUCCESS, certsFile) => some {
        params := { type := .SESSION_VERIFY_PACKAGE, callbackStartIndex := 2, isNeedBusinessError := true }
        doWorker := .ofRequest fun kit _ => kit.verifyUpgradePackage upgradeFile.filePath certsFile }
    | _, _ => some (paramErrorSession 2))

/-- `ApplyNewVersion`: of the files, it is the first that is applied. -/
def applyNewVersion : Method Unit σ := fun args c => (c,
  if args.isEmpty then none
  else match getUpgradeFiles (argument args 0) with
    | (.CLIENT_SUCCESS, upgradeFile :: _) => some {
        params := { type := .SESSION_APPLY_NEW_VERSION, callbackStartIndex := 1, isNeedBusinessError := true }
        doWorker := .ofRequest fun kit _ => kit.applyNewVersion { upgradeApp := "LocalUpgradeInfo" } MISC_FILE upgradeFile.filePath }
    | _ => some (paramErrorSession 1))

end LocalUpdater

/-! ## Restorer -/

/-- `FactoryReset`. -/
def Restorer.factoryReset : Method Unit σ := fun _ c => (c, some {
  params := { type := .SESSION_FACTORY_RESET, callbackStartIndex := 0, isNeedBusinessError := true }
  doWorker := .ofRequest fun kit _ => kit.factoryReset })

end UpdateEngine.Ipc.Client
