import UpdateEngine.Ipc.Service

/-!
# Stubs

`UpdateServiceStub` and `UpdateCallbackStub`: what is sent is told apart by its code, the arguments are read into fresh objects, and
what the service has filled in is written to the reply, if it has returned success.
-/

namespace UpdateEngine.Ipc

open MessageParcelHelper

/-- `TypeATokenTypeEnum`. -/
inductive TokenType where
  | TOKEN_HAP
  | TOKEN_NATIVE
  | other
  deriving DecidableEq, Repr

/-- What the access token kit and the IPC skeleton know of a caller. -/
structure IpcCaller where
  callerTokenType : TokenType
  isSystemApp : Bool
  callingUid : Int32
  verifyAccessToken : String → Bool

variable {σ : Type} (C : Conversion)

namespace UpdateServiceStub

def ROOT_UID : Int32 := 0
def EDM_UID : Int32 := 3057

/-- `IsCallerValid`: a HAP has to be a system application, a native process the one of root or of the device manager. -/
def isCallerValid (caller : IpcCaller) : Bool :=
  match caller.callerTokenType with
  | .TOKEN_HAP => caller.isSystemApp
  | .TOKEN_NATIVE => caller.callingUid = ROOT_UID || caller.callingUid = EDM_UID
  | .other => false

/-- `IsPermissionGranted`. -/
def isPermissionGranted (caller : IpcCaller) (code : UInt32) : Bool :=
  caller.verifyAccessToken
    (if code = UpdaterSaInterfaceCode.FACTORY_RESET.castUint then "ohos.permission.FACTORY_RESET"
     else "ohos.permission.UPDATE_SYSTEM")

/-- `CALL_RESULT_TO_IPC_RESULT`. -/
def callResultToIpcResult (callResult : CallResult) : Int32 := callResult + CALL_RESULT_OFFSET

/-- What every stub does with the method it calls: the output parameters are written to the reply when it succeeds. -/
def answer {γ : Type} (call : StateM σ (CallResult × γ)) (write : γ → Parcel) : StateM σ (CallResult × Parcel) := do
  let (ret, out) ← call
  if ret ≠ INT_CALL_SUCCESS then return (ret, [])
  return (INT_CALL_SUCCESS, write out)

/-- The reply with the error first and then the result. -/
def writeWithError {γ : Type} (write : γ → Parcel) (out : γ × BusinessError) : Parcel :=
  writeBusinessError C out.2 ++ write out.1

/-- A member of `requestFuncMap_`. -/
abbrev RequestFunc (σ : Type) := IUpdateService σ → Parcel → StateM σ (CallResult × Parcel)

def getNewVersionStub : RequestFunc σ := fun service data =>
  let (upgradeInfo, _) := readUpgradeInfo C data
  answer (service.getNewVersionInfo upgradeInfo ({}, {})) (writeWithError C (writeNewVersionInfo C))

def getNewVersionDescriptionStub : RequestFunc σ := fun service data =>
  let (upgradeInfo, data) := readUpgradeInfo C data
  let (versionDigestInfo, data) := readVersionDigestInfo C data
  let (descriptionOptions, _) := readDescriptionOptions C data
  answer (service.getNewVersionDescription upgradeInfo versionDigestInfo descriptionOptions ({}, {}))
    (writeWithError C (writeVersionDescriptionInfo C))

def getCurrentVersionStub : RequestFunc σ := fun service data =>
  let (upgradeInfo, _) := readUpgradeInfo C data
  answer (service.getCurrentVersionInfo upgradeInfo ({}, {})) (writeWithError C (writeCurrentVersionInfo C))

def getCurrentVersionDescriptionStub : RequestFunc σ := fun service data =>
  let (upgradeInfo, data) := readUpgradeInfo C data
  let (descriptionOptions, _) := readDescriptionOptions C data
  answer (service.getCurrentVersionDescription upgradeInfo descriptionOptions ({}, {}))
    (writeWithError C (writeVersionDescriptionInfo C))

def getTaskInfoStub : RequestFunc σ := fun service data =>
  let (upgradeInfo, _) := readUpgradeInfo C data
  answer (service.getTaskInfo upgradeInfo ({}, {})) (writeWithError C (writeTaskInfo C))

def checkNewVersionStub : RequestFunc σ := fun service data => do
  let (upgradeInfo, _) := readUpgradeInfo C data
  return (← service.checkNewVersion upgradeInfo, [])

def downloadVersionStub : RequestFunc σ := fun service data =>
  let (upgradeInfo, data) := readUpgradeInfo C data
  let (versionDigestInfo, data) := readVersionDigestInfo C data
  let (downloadOptions, _) := readDownloadOptions data
  answer (service.download upgradeInfo versionDigestInfo downloadOptions {}) (writeBusinessError C)

def pauseDownloadStub : RequestFunc σ := fun service data =>
  let (upgradeInfo, data) := readUpgradeInfo C data
  let (versionDigestInfo, data) := readVersionDigestInfo C data
  let (pauseDownloadOptions, _) := readPauseDownloadOptions data
  answer (service.pauseDownload upgradeInfo versionDigestInfo pauseDownloadOptions {}) (writeBusinessError C)

def resumeDownloadStub : RequestFunc σ := fun service data =>
  let (upgradeInfo, data) := readUpgradeInfo C data
  let (versionDigestInfo, data) := readVersionDigestInfo C data
  let (resumeDownloadOptions, _) := readResumeDownloadOptions data
  answer (service.resumeDownload upgradeInfo versionDigestInfo resumeDownloadOptions {}) (writeBusinessError C)

def doUpdateStub : RequestFunc σ := fun service data =>
  let (upgradeInfo, data) := readUpgradeInfo C data
  let (versionDigestInfo, data) := readVersionDigestInfo C data
  let (upgradeOptions, _) := readUpgradeOptions data
  answer (service.upgrade upgradeInfo versionDigestInfo upgradeOptions {}) (writeBusinessError C)

def clearErrorStub : RequestFunc σ := fun service data =>
  let (upgradeInfo, data) := readUpgradeInfo C data
  let (versionDigestInfo, data) := readVersionDigestInfo C data
  let (clearOptions, _) := readClearOptions data
  answer (service.clearError upgradeInfo versionDigestInfo clearOptions {}) (writeBusinessError C)

def terminateUpgradeStub : RequestFunc σ := fun service data =>
  let (upgradeInfo, _) := readUpgradeInfo C data
  answer (service.terminateUpgrade upgradeInfo {}) (writeBusinessError C)

def setUpgradePolicyStub : RequestFunc σ := fun service data =>
  let (upgradeInfo, data) := readUpgradeInfo C data
  let (policy, _) := readUpgradePolicy {} data
  answer (service.setUpgradePolicy upgradeInfo policy {}) (writeBusinessError C)

def getUpgradePolicyStub : RequestFunc σ := fun service data =>
  let (upgradeInfo, _) := readUpgradeInfo C data
  answer (service.getUpgradePolicy upgradeInfo ({}, {})) (writeWithError C writeUpgradePolicy)

def registerUpdateCallbackStub : RequestFunc σ := fun service data => do
  let (upgradeInfo, data) := readUpgradeInfo C data
  match (readRemoteObject data).1 with
  | none => return (INT_CALL_IPC_ERR, [])
  | some remote => return (← service.registerUpdateCallback upgradeInfo (some remote), [])

def unregisterUpdateCallbackStub : RequestFunc σ := fun service data => do
  let (upgradeInfo, _) := readUpgradeInfo C data
  return (← service.unregisterUpdateCallback upgradeInfo, [])

def cancelStub : RequestFunc σ := fun service data =>
  let (upgradeInfo, data) := readUpgradeInfo C data
  answer (service.cancel upgradeInfo (readInt32 data).1 {}) (writeBusinessError C)

def factoryResetStub : RequestFunc σ := fun service _ => answer (service.factoryReset {}) (writeBusinessError C)

def applyNewVersionStub : RequestFunc σ := fun service data =>
  let (upgradeInfo, data) := readUpgradeInfo C data
  let (miscFile, data) := readString16 data
  let (packageName, _) := readString16 data
  answer (service.applyNewVersion upgradeInfo (C.str16ToStr8 miscFile) (C.str16ToStr8 packageName) {}) (writeBusinessError C)

def verifyUpgradePackageStub : RequestFunc σ := fun service data =>
  let (packagePath, data) := readString16 data
  let (keyPath, _) := readString16 data
  answer (service.verifyUpgradePackage (C.str16ToStr8 packagePath) (C.str16ToStr8 keyPath) {}) (writeBusinessError C)

/-- `requestFuncMap_`, its keys before they are cast. -/
def requestFunc : UpdaterSaInterfaceCode → RequestFunc σ
  | .CHECK_VERSION => checkNewVersionStub C
  | .DOWNLOAD => downloadVersionStub C
  | .PAUSE_DOWNLOAD => pauseDownloadStub C
  | .RESUME_DOWNLOAD => resumeDownloadStub C
  | .UPGRADE => doUpdateStub C
  | .CLEAR_ERROR => clearErrorStub C
  | .TERMINATE_UPGRADE => terminateUpgradeStub C
  | .SET_POLICY => setUpgradePolicyStub C
  | .GET_POLICY => getUpgradePolicyStub C
  | .GET_NEW_VERSION => getNewVersionStub C
  | .GET_NEW_VERSION_DESCRIPTION => getNewVersionDescriptionStub C
  | .GET_CURRENT_VERSION => getCurrentVersionStub C
  | .GET_CURRENT_VERSION_DESCRIPTION => getCurrentVersionDescriptionStub C
  | .GET_TASK_INFO => getTaskInfoStub C
  | .REGISTER_CALLBACK => registerUpdateCallbackStub C
  | .UNREGISTER_CALLBACK => unregisterUpdateCallbackStub C
  | .CANCEL => cancelStub C
  | .FACTORY_RESET => factoryResetStub C
  | .APPLY_NEW_VERSION => applyNewVersionStub C
  | .VERIFY_UPGRADE_PACKAGE => verifyUpgradePackageStub C

def requestFuncMap : List (UInt32 × RequestFunc σ) :=
  [.CHECK_VERSION, .DOWNLOAD, .PAUSE_DOWNLOAD, .RESUME_DOWNLOAD, .UPGRADE, .CLEAR_ERROR, .TERMINATE_UPGRADE, .SET_POLICY, .GET_POLICY,
    .GET_NEW_VERSION, .GET_NEW_VERSION_DESCRIPTION, .GET_CURRENT_VERSION, .GET_CURRENT_VERSION_DESCRIPTION, .GET_TASK_INFO,
    .REGISTER_CALLBACK, .UNREGISTER_CALLBACK, .CANCEL, .FACTORY_RESET, .APPLY_NEW_VERSION, .VERIFY_UPGRADE_PACKAGE].map
    fun code : UpdaterSaInterfaceCode => (code.castUint, requestFunc C code)

/-- `OnRemoteRequest`; a code that is not in the map is left to `IPCObjectStub`. -/
def onRemoteRequest (caller : IpcCaller) (ipcObjectStub : Remote σ) (service : IUpdateService σ) : Remote σ := fun code data => do
  let (token, data) := readInterfaceToken data
  if token ≠ SERVICE_DESCRIPTOR then return (callResultToIpcResult INT_CALL_IPC_ERR, [])
  match (requestFuncMap C).lookup code with
  | none => ipcObjectStub code data
  | some requestFunc =>
    if !isCallerValid caller then return (callResultToIpcResult INT_NOT_SYSTEM_APP, [])
    if !isPermissionGranted caller code then return (callResultToIpcResult INT_APP_NOT_GRANTED, [])
    let (ret, reply) ← requestFunc service data
    return (callResultToIpcResult ret, reply)

end UpdateServiceStub

/-- `UpdateCallbackStub::OnRemoteRequest`. -/
def UpdateCallbackStub.onRemoteRequest (ipcObjectStub : Remote σ) (callback : IUpdateCallback σ) : Remote σ := fun code data => do
  let (token, data) := readInterfaceToken data
  if token ≠ CALLBACK_DESCRIPTOR then return (-1, [])
  if code = CHECK_VERSION then
    let (businessError, data) := readBusinessError C {} data
    let (checkResult, _) := readCheckResult C {} data
    callback.onCheckVersionDone businessError checkResult
    return (0, [])
  if code = ON_EVENT then
    let (eventInfo, _) := readEventInfo C {} data
    callback.onEvent eventInfo
    return (0, [])
  ipcObjectStub code data

end UpdateEngine.Ipc
