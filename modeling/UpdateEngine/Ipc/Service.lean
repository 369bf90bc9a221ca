import UpdateEngine.Ipc.Parcel

/-!
# The interfaces

`IUpdateService` and `IUpdateCallback`, for a receiver that keeps its state in `σ`. A method is given what its output parameters hold
and gives what they hold afterwards, next to the code it returns. A remote object is what a request sent to it does.
-/

namespace UpdateEngine.Ipc

/-- `IUpdateService`, with the interfaces it is made of. A callback is named by its remote object; there may be none. -/
structure IUpdateService (σ : Type) where
  registerUpdateCallback : UpgradeInfo → Option Nat → StateM σ CallResult
  unregisterUpdateCallback : UpgradeInfo → StateM σ CallResult
  checkNewVersion : UpgradeInfo → StateM σ CallResult
  download : UpgradeInfo → VersionDigestInfo → DownloadOptions → BusinessError → StateM σ (CallResult × BusinessError)
  pauseDownload : UpgradeInfo → VersionDigestInfo → PauseDownloadOptions → BusinessError → StateM σ (CallResult × BusinessError)
  resumeDownload : UpgradeInfo → VersionDigestInfo → ResumeDownloadOptions → BusinessError → StateM σ (CallResult × BusinessError)
  upgrade : UpgradeInfo → VersionDigestInfo → UpgradeOptions → BusinessError → StateM σ (CallResult × BusinessError)
  clearError : UpgradeInfo → VersionDigestInfo → ClearOptions → BusinessError → StateM σ (CallResult × BusinessError)
  terminateUpgrade : UpgradeInfo → BusinessError → StateM σ (CallResult × BusinessError)
  getNewVersionInfo : UpgradeInfo → NewVersionInfo × BusinessError → StateM σ (CallResult × NewVersionInfo × BusinessError)
  getNewVersionDescription : UpgradeInfo → VersionDigestInfo → DescriptionOptions → VersionDescriptionInfo × BusinessError →
    StateM σ (CallResult × VersionDescriptionInfo × BusinessError)
  getCurrentVersionInfo : UpgradeInfo → CurrentVersionInfo × BusinessError →
    StateM σ (CallResult × CurrentVersionInfo × BusinessError)
  getCurrentVersionDescription : UpgradeInfo → DescriptionOptions → VersionDescriptionInfo × BusinessError →
    StateM σ (CallResult × VersionDescriptionInfo × BusinessError)
  getTaskInfo : UpgradeInfo → TaskInfo × BusinessError → StateM σ (CallResult × TaskInfo × BusinessError)
  setUpgradePolicy : UpgradeInfo → UpgradePolicy → BusinessError → StateM σ (CallResult × BusinessError)
  getUpgradePolicy : UpgradeInfo → UpgradePolicy × BusinessError → StateM σ (CallResult × UpgradePolicy × BusinessError)
  cancel : UpgradeInfo → Int32 → BusinessError → StateM σ (CallResult × BusinessError)
  factoryReset : BusinessError → StateM σ (CallResult × BusinessError)
  applyNewVersion : UpgradeInfo → String → String → BusinessError → StateM σ (CallResult × BusinessError)
  verifyUpgradePackage : String → String → BusinessError → StateM σ (CallResult × BusinessError)

/-- `IUpdateCallback`. -/
structure IUpdateCallback (σ : Type) where
  onCheckVersionDone : BusinessError → CheckResult → StateM σ Unit
  onEvent : EventInfo → StateM σ Unit

/-- `UpdaterSaInterfaceCode`. -/
inductive UpdaterSaInterfaceCode where
  | CHECK_VERSION
  | DOWNLOAD
  | PAUSE_DOWNLOAD
  | RESUME_DOWNLOAD
  | UPGRADE
  | CLEAR_ERROR
  | TERMINATE_UPGRADE
  | SET_POLICY
  | GET_POLICY
  | GET_NEW_VERSION
  | GET_NEW_VERSION_DESCRIPTION
  | GET_CURRENT_VERSION
  | GET_CURRENT_VERSION_DESCRIPTION
  | GET_TASK_INFO
  | REGISTER_CALLBACK
  | UNREGISTER_CALLBACK
  | CANCEL
  | FACTORY_RESET
  | APPLY_NEW_VERSION
  | VERIFY_UPGRADE_PACKAGE
  deriving DecidableEq, Repr

/-- `CAST_UINT`: the codes count from one. -/
def UpdaterSaInterfaceCode.castUint (code : UpdaterSaInterfaceCode) : UInt32 := UInt32.ofNat (code.ctorIdx + 1)

/-- `IUpdateCallback::CHECK_VERSION` and `ON_EVENT`. -/
def CHECK_VERSION : UInt32 := 1
def ON_EVENT : UInt32 := 2

/-- `GetDescriptor` of the two interfaces. -/
def SERVICE_DESCRIPTOR : String := "OHOS.Updater.IUpdateService"
def CALLBACK_DESCRIPTOR : String := "OHOS.Update.IUpdateCallback"

/-! ## Requests -/

/-- `ERR_NONE`, and what is added to the codes of the service to tell them from those of the transport. -/
def ERR_NONE : Int32 := 0
def CALL_RESULT_OFFSET : Int32 := 2000

/-- `SendRequest` of a remote object: the code and the reply. -/
abbrev Remote (σ : Type) := UInt32 → Parcel → StateM σ (Int32 × Parcel)

/-- What the transport makes of a stub. The code that it tells the sender may depend on the reply. -/
def transport {σ : Type} (status : Int32 → Parcel → Int32) (onRemoteRequest : Remote σ) : Remote σ := fun code data => do
  let (ret, reply) ← onRemoteRequest code data
  return (status ret reply, reply)

/-- The sender is told the code of the stub, or `ERR_NONE` in place of it when there is a reply. -/
def Relays (status : Int32 → Parcel → Int32) : Prop :=
  ∀ ret reply, status ret reply = ret ∨ reply ≠ [] ∧ status ret reply = ERR_NONE

end UpdateEngine.Ipc
