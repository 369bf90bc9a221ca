import UpdateEngine.Ipc.Service

/-!
# Proxies

`UpdateServiceProxy` and `UpdateCallbackProxy`: the arguments are written in the order in which the stub reads them, and what the
service has filled in is read from the reply.
-/

namespace UpdateEngine.Ipc

open MessageParcelHelper

variable {σ : Type} (C : Conversion) (remote : Option (Remote σ))

namespace UpdateServiceProxy

/-- `IPC_RESULT_TO_CALL_RESULT`. -/
def ipcResultToCallResult (result : Int32) : CallResult :=
  if result = ERR_NONE then INT_CALL_SUCCESS
  else if result ≥ CALL_RESULT_OFFSET then result - CALL_RESULT_OFFSET
  else INT_CALL_IPC_ERR

/-- What every method does: the output parameters are set from the reply, unless there is no remote object or the service has
returned another code than success. -/
def request {γ : Type} (code : UpdaterSaInterfaceCode) (data : Parcel) (read : Wire.Reader Item γ) (out : γ) :
    StateM σ (CallResult × γ) := do
  match remote with
  | none => return (INT_CALL_IPC_ERR, out)
  | some sendRequest =>
    let (ret, reply) ← sendRequest code.castUint (.interfaceToken SERVICE_DESCRIPTOR :: data)
    let ret := ipcResultToCallResult ret
    if ret ≠ INT_CALL_SUCCESS then return (ret, out)
    return (INT_CALL_SUCCESS, (read reply).1)

/-- The same for a method without output parameters. -/
def requestOnly (code : UpdaterSaInterfaceCode) (data : Parcel) : StateM σ CallResult := do
  let (ret, _) ← request remote code data (pure ()) ()
  return ret

/-- A result and then the error, as they are read from a reply that has the error first. -/
def readWithError {γ : Type} (read : Wire.Reader Item γ) : Wire.Reader Item (γ × BusinessError) := do
  let remoteBusinessError ← readBusinessError C {}
  let remoteInfo ← read
  return (remoteInfo, remoteBusinessError)

def registerUpdateCallback (info : UpgradeInfo) (updateCallback : Option Nat) : StateM σ CallResult :=
  match updateCallback with
  | none => return INT_PARAM_ERR
  | some callback => requestOnly remote .REGISTER_CALLBACK (writeUpgradeInfo C info ++ [.remoteObject callback])

def unregisterUpdateCallback (info : UpgradeInfo) : StateM σ CallResult :=
  requestOnly remote .UNREGISTER_CALLBACK (writeUpgradeInfo C info)

def checkNewVersion (info : UpgradeInfo) : StateM σ CallResult := requestOnly remote .CHECK_VERSION (writeUpgradeInfo C info)

def download (info : UpgradeInfo) (versionDigestInfo : VersionDigestInfo) (downloadOptions : DownloadOptions) :
    BusinessError → StateM σ (CallResult × BusinessError) :=
  request remote .DOWNLOAD
    (writeUpgradeInfo C info ++ writeVersionDigestInfo C versionDigestInfo ++ writeDownloadOptions downloadOptions)
    (readBusinessError C {})

def pauseDownload (info : UpgradeInfo) (versionDigestInfo : VersionDigestInfo) (pauseDownloadOptions : PauseDownloadOptions) :
    BusinessError → StateM σ (CallResult × BusinessError) :=
  request remote .PAUSE_DOWNLOAD
    (writeUpgradeInfo C info ++ writeVersionDigestInfo C versionDigestInfo ++ writePauseDownloadOptions pauseDownloadOptions)
    (readBusinessError C {})

def resumeDownload (info : UpgradeInfo) (versionDigestInfo : VersionDigestInfo) (resumeDownloadOptions : ResumeDownloadOptions) :
    BusinessError → StateM σ (CallResult × BusinessError) :=
  request remote .RESUME_DOWNLOAD
    (writeUpgradeInfo C info ++ writeVersionDigestInfo C versionDigestInfo ++ writeResumeDownloadOptions resumeDownloadOptions)
    (readBusinessError C {})

def upgrade (info : UpgradeInfo) (versionDigest : VersionDigestInfo) (upgradeOptions : UpgradeOptions) :
    BusinessError → StateM σ (CallResult × BusinessError) :=
  request remote .UPGRADE
    (writeUpgradeInfo C info ++ writeVersionDigestInfo C versionDigest ++ writeUpgradeOptions upgradeOptions)
    (readBusinessError C {})

def clearError (info : UpgradeInfo) (versionDigest : VersionDigestInfo) (clearOptions : ClearOptions) :
    BusinessError → StateM σ (CallResult × BusinessError) :=
  request remote .CLEAR_ERROR
    (writeUpgradeInfo C info ++ writeVersionDigestInfo C versionDigest ++ writeClearOptions clearOptions) (readBusinessError C {})

def terminateUpgrade (info : UpgradeInfo) : BusinessError → StateM σ (CallResult × BusinessError) :=
  request remote .TERMINATE_UPGRADE (writeUpgradeInfo C info) (readBusinessError C {})

def getNewVersionInfo (info : UpgradeInfo) : NewVersionInfo × BusinessError → StateM σ (CallResult × NewVersionInfo × BusinessError) :=
  request remote .GET_NEW_VERSION (writeUpgradeInfo C info) (readWithError C (readNewVersionInfo C {}))

def getNewVersionDescription (info : UpgradeInfo) (versionDigestInfo : VersionDigestInfo) (descriptionOptions : DescriptionOptions) :
    VersionDescriptionInfo × BusinessError → StateM σ (CallResult × VersionDescriptionInfo × BusinessError) :=
  request remote .GET_NEW_VERSION_DESCRIPTION
    (writeUpgradeInfo C info ++ writeVersionDigestInfo C versionDigestInfo ++ writeDescriptionOptions C descriptionOptions)
    (readWithError C (readVersionDescriptionInfo C {}))

def getCurrentVersionInfo (info : UpgradeInfo) :
    CurrentVersionInfo × BusinessError → StateM σ (CallResult × CurrentVersionInfo × BusinessError) :=
  request remote .GET_CURRENT_VERSION (writeUpgradeInfo C info) (readWithError C (readCurrentVersionInfo C {}))

def getCurrentVersionDescription (info : UpgradeInfo) (descriptionOptions : DescriptionOptions) :
    VersionDescriptionInfo × BusinessError → StateM σ (CallResult × VersionDescriptionInfo × BusinessError) :=
  request remote .GET_CURRENT_VERSION_DESCRIPTION (writeUpgradeInfo C info ++ writeDescriptionOptions C descriptionOptions)
    (readWithError C (readVersionDescriptionInfo C {}))

def getTaskInfo (info : UpgradeInfo) : TaskInfo × BusinessError → StateM σ (CallResult × TaskInfo × BusinessError) :=
  request remote .GET_TASK_INFO (writeUpgradeInfo C info) (readWithError C (readTaskInfo C {}))

def setUpgradePolicy (info : UpgradeInfo) (policy : UpgradePolicy) : BusinessError → StateM σ (CallResult × BusinessError) :=
  request remote .SET_POLICY (writeUpgradeInfo C info ++ writeUpgradePolicy policy) (readBusinessError C {})

def getUpgradePolicy (info : UpgradeInfo) : UpgradePolicy × BusinessError → StateM σ (CallResult × UpgradePolicy × BusinessError) :=
  request remote .GET_POLICY (writeUpgradeInfo C info) (readWithError C (readUpgradePolicy {}))

def cancel (info : UpgradeInfo) (service : Int32) : BusinessError → StateM σ (CallResult × BusinessError) :=
  request remote .CANCEL (writeUpgradeInfo C info ++ [.int32 service]) (readBusinessError C {})

def factoryReset : BusinessError → StateM σ (CallResult × BusinessError) :=
  request remote .FACTORY_RESET [] (readBusinessError C {})

def applyNewVersion (info : UpgradeInfo) (miscFile packageName : String) : BusinessError → StateM σ (CallResult × BusinessError) :=
  request remote .APPLY_NEW_VERSION
    (writeUpgradeInfo C info ++ [.string16 (C.str8ToStr16 miscFile), .string16 (C.str8ToStr16 packageName)])
    (readBusinessError C {})

def verifyUpgradePackage (packagePath keyPath : String) : BusinessError → StateM σ (CallResult × BusinessError) :=
  request remote .VERIFY_UPGRADE_PACKAGE [.string16 (C.str8ToStr16 packagePath), .string16 (C.str8ToStr16 keyPath)]
    (readBusinessError C {})

end UpdateServiceProxy

open UpdateServiceProxy in
/-- `UpdateServiceProxy`. -/
def updateServiceProxy : IUpdateService σ where
  registerUpdateCallback := registerUpdateCallback C remote
  unregisterUpdateCallback := unregisterUpdateCallback C remote
  checkNewVersion := checkNewVersion C remote
  download := download C remote
  pauseDownload := pauseDownload C remote
  resumeDownload := resumeDownload C remote
  upgrade := upgrade C remote
  clearError := clearError C remote
  terminateUpgrade := terminateUpgrade C remote
  getNewVersionInfo := getNewVersionInfo C remote
  getNewVersionDescription := getNewVersionDescription C remote
  getCurrentVersionInfo := getCurrentVersionInfo C remote
  getCurrentVersionDescription := getCurrentVersionDescription C remote
  getTaskInfo := getTaskInfo C remote
  setUpgradePolicy := setUpgradePolicy C remote
  getUpgradePolicy := getUpgradePolicy C remote
  cancel := cancel C remote
  factoryReset := factoryReset C remote
  applyNewVersion := applyNewVersion C remote
  verifyUpgradePackage := verifyUpgradePackage C remote

/-- `UpdateCallbackProxy`: what comes back is not looked at. -/
def updateCallbackProxy : IUpdateCallback σ where
  onCheckVersionDone businessError checkResult := do
    match remote with
    | none => return ()
    | some sendRequest =>
      let _ ← sendRequest CHECK_VERSION
        (.interfaceToken CALLBACK_DESCRIPTOR :: (writeBusinessError C businessError ++ writeCheckResult C checkResult))
  onEvent eventInfo := do
    match remote with
    | none => return ()
    | some sendRequest =>
      let _ ← sendRequest ON_EVENT (.interfaceToken CALLBACK_DESCRIPTOR :: writeEventInfo C eventInfo)

end UpdateEngine.Ipc
