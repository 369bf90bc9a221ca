import UpdateEngine.Ipc.Proxy
import UpdateEngine.Ipc.Stub
import UpdateEngine.Ipc.Utf16
import UpdateEngine.Lemmas.ParcelAux

/-!
# Calls across the process boundary

A call of the proxy is a call of the service: with the same arguments, with the code that the service returns, and, when that is
success, with what the service has filled in.
-/

namespace UpdateEngine.Ipc

open Wire MessageParcelHelper

variable {σ : Type}

/-! ## Requests -/

/-- The methods with their arguments; the type is that of the output parameters. -/
inductive Request : Type → Type where
  | registerUpdateCallback (info : UpgradeInfo) (updateCallback : Option Nat) : Request Unit
  | unregisterUpdateCallback (info : UpgradeInfo) : Request Unit
  | checkNewVersion (info : UpgradeInfo) : Request Unit
  | download (info : UpgradeInfo) (digest : VersionDigestInfo) (options : DownloadOptions) : Request BusinessError
  | pauseDownload (info : UpgradeInfo) (digest : VersionDigestInfo) (options : PauseDownloadOptions) : Request BusinessError
  | resumeDownload (info : UpgradeInfo) (digest : VersionDigestInfo) (options : ResumeDownloadOptions) : Request BusinessError
  | upgrade (info : UpgradeInfo) (digest : VersionDigestInfo) (options : UpgradeOptions) : Request BusinessError
  | clearError (info : UpgradeInfo) (digest : VersionDigestInfo) (options : ClearOptions) : Request BusinessError
  | terminateUpgrade (info : UpgradeInfo) : Request BusinessError
  | getNewVersionInfo (info : UpgradeInfo) : Request (NewVersionInfo × BusinessError)
  | getNewVersionDescription (info : UpgradeInfo) (digest : VersionDigestInfo) (options : DescriptionOptions) :
      Request (VersionDescriptionInfo × BusinessError)
  | getCurrentVersionInfo (info : UpgradeInfo) : Request (CurrentVersionInfo × BusinessError)
  | getCurrentVersionDescription (info : UpgradeInfo) (options : DescriptionOptions) :
      Request (VersionDescriptionInfo × BusinessError)
  | getTaskInfo (info : UpgradeInfo) : Request (TaskInfo × BusinessError)
  | setUpgradePolicy (info : UpgradeInfo) (policy : UpgradePolicy) : Request BusinessError
  | getUpgradePolicy (info : UpgradeInfo) : Request (UpgradePolicy × BusinessError)
  | cancel (info : UpgradeInfo) (service : Int32) : Request BusinessError
  | factoryReset : Request BusinessError
  | applyNewVersion (info : UpgradeInfo) (miscFile packageName : String) : Request BusinessError
  | verifyUpgradePackage (packagePath keyPath : String) : Request BusinessError

/-- The call of the method. -/
def IUpdateService.call (service : IUpdateService σ) {γ : Type} : Request γ → γ → StateM σ (CallResult × γ)
  | .registerUpdateCallback info updateCallback, _ => do return (← service.registerUpdateCallback info updateCallback, ())
  | .unregisterUpdateCallback info, _ => do return (← service.unregisterUpdateCallback info, ())
  | .checkNewVersion info, _ => do return (← service.checkNewVersion info, ())
  | .download info digest options, out => service.download info digest options out
  | .pauseDownload info digest options, out => service.pauseDownload info digest options out
  | .resumeDownload info digest options, out => service.resumeDownload info digest options out
  | .upgrade info digest options, out => service.upgrade info digest options out
  | .clearError info digest options, out => service.clearError info digest options out
  | .terminateUpgrade info, out => service.terminateUpgrade info out
  | .getNewVersionInfo info, out => service.getNewVersionInfo info out
  | .getNewVersionDescription info digest options, out => service.getNewVersionDescription info digest options out
  | .getCurrentVersionInfo info, out => service.getCurrentVersionInfo info out
  | .getCurrentVersionDescription info options, out => service.getCurrentVersionDescription info options out
  | .getTaskInfo info, out => service.getTaskInfo info out
  | .setUpgradePolicy info policy, out => service.setUpgradePolicy info policy out
  | .getUpgradePolicy info, out => service.getUpgradePolicy info out
  | .cancel info business, out => service.cancel info business out
  | .factoryReset, out => service.factoryReset out
  | .applyNewVersion info miscFile packageName, out => service.applyNewVersion info miscFile packageName out
  | .verifyUpgradePackage packagePath keyPath, out => service.verifyUpgradePackage packagePath keyPath out

/-- Output parameters as they are declared. -/
def Request.fresh {γ : Type} : Request γ → γ
  | .registerUpdateCallback .. | .unregisterUpdateCallback .. | .checkNewVersion .. => ()
  | .download .. | .pauseDownload .. | .resumeDownload .. | .upgrade .. | .clearError .. | .terminateUpgrade ..
  | .setUpgradePolicy .. | .cancel .. | .factoryReset | .applyNewVersion .. | .verifyUpgradePackage .. => {}
  | .getNewVersionInfo .. | .getNewVersionDescription .. | .getCurrentVersionInfo .. | .getCurrentVersionDescription ..
  | .getTaskInfo .. | .getUpgradePolicy .. => ({}, {})

/-- Output parameters within the bounds of what is written for them. -/
def Request.OutFits {γ : Type} : Request γ → γ → Prop
  | .registerUpdateCallback .., _ | .unregisterUpdateCallback .., _ | .checkNewVersion .., _ => True
  | .download .., e | .pauseDownload .., e | .resumeDownload .., e | .upgrade .., e | .clearError .., e | .terminateUpgrade .., e
  | .setUpgradePolicy .., e | .cancel .., e | .factoryReset, e | .applyNewVersion .., e | .verifyUpgradePackage .., e => e.Fits
  | .getNewVersionInfo .., (info, e) => info.Fits ∧ e.Fits
  | .getNewVersionDescription .., (info, e) | .getCurrentVersionDescription .., (info, e) => info.Fits ∧ e.Fits
  | .getCurrentVersionInfo .., (info, e) => info.Fits ∧ e.Fits
  | .getTaskInfo .., (info, e) => info.Fits ∧ e.Fits
  | .getUpgradePolicy .., (_, e) => e.Fits

/-- A callback that is registered is one. -/
def Request.HasCallback {γ : Type} : Request γ → Prop
  | .registerUpdateCallback _ updateCallback => updateCallback ≠ none
  | _ => True

/-- The codes that the service may return: not negative, and not so large that the offset does not fit. -/
def CodeFits (ret : CallResult) : Prop := 0 ≤ ret.toInt ∧ ret.toInt + CALL_RESULT_OFFSET.toInt < 2 ^ 31

/-- A call whose output parameters are set when it succeeds, and left as they were otherwise. -/
def relayed {γ : Type} (call : StateM σ (CallResult × γ)) (out : γ) : StateM σ (CallResult × γ) := do
  let (ret, result) ← call
  return (ret, if ret = INT_CALL_SUCCESS then result else out)

namespace TransparencyAux

open UpdateServiceProxy UpdateServiceStub

variable {C : Conversion} {status : Int32 → Parcel → Int32} {caller : IpcCaller} (ipcObjectStub : Remote σ)
  {service : IUpdateService σ}

/-! ## Codes -/

/-- A code comes back as it was sent. -/
theorem code_back {ret : CallResult} (h : CodeFits ret) : ipcResultToCallResult (callResultToIpcResult ret) = ret := by
  obtain ⟨hnonneg, hlt⟩ := h
  have hoffset : CALL_RESULT_OFFSET.toInt = 2000 := rfl
  have hsum : (ret + CALL_RESULT_OFFSET).toInt = ret.toInt + 2000 := by
    rw [Int32.toInt_add, hoffset, Int.bmod_eq_of_le (by omega) (by omega)]
  unfold ipcResultToCallResult callResultToIpcResult
  rw [if_neg, if_pos, Int32.add_sub_cancel]
  · rw [ge_iff_le, Int32.le_iff_toInt_le, hsum, hoffset]
    omega
  · intro hzero
    rw [hzero] at hsum
    have : (ERR_NONE : Int32).toInt = 0 := rfl
    omega

/-- A sender whose message was answered is told the code that was returned. -/
theorem status_back (hstatus : Relays status) {ret : CallResult} (h : CodeFits ret) {reply : Parcel}
    (hreply : ret ≠ INT_CALL_SUCCESS → reply = []) : ipcResultToCallResult (status (callResultToIpcResult ret) reply) = ret := by
  obtain hsame | ⟨hne, hnone⟩ := hstatus (callResultToIpcResult ret) reply
  · rw [hsame, code_back h]
  · have hsuccess : ret = INT_CALL_SUCCESS := Decidable.byContradiction fun hret => hne (hreply hret)
    rw [hnone, hsuccess]
    rfl

/-! ## A request and its stub -/

theorem lookup_requestFuncMap (code : UpdaterSaInterfaceCode) :
    (requestFuncMap (σ := σ) C).lookup code.castUint = some (requestFunc C code) := by
  cases code <;> rfl

/-- A request whose stub calls `call` with the arguments sent, and whose reply is read as it was written. -/
theorem request_relays {γ : Type} {code : UpdaterSaInterfaceCode} {data : Parcel} {read : Reader γ} {write : γ → Parcel}
    {call : StateM σ (CallResult × γ)} {s : σ} (hstatus : Relays status) (hvalid : isCallerValid caller = true)
    (hgranted : isPermissionGranted caller code.castUint = true) (hstub : requestFunc C code service data = answer call write)
    (hcode : CodeFits (call s).1.1) (hread : (call s).1.1 = INT_CALL_SUCCESS → Reads read (write (call s).1.2) (call s).1.2)
    (out : γ) :
    request (some (transport status (onRemoteRequest C caller ipcObjectStub service))) code data read out s =
      relayed call out s := by
  have hremote : transport status (onRemoteRequest C caller ipcObjectStub service) code.castUint
      (.interfaceToken SERVICE_DESCRIPTOR :: data) s =
      ((status (callResultToIpcResult (answer call write s).1.1) (answer call write s).1.2, (answer call write s).1.2),
        (answer call write s).2) := by
    simp [transport, onRemoteRequest, lookup_requestFuncMap, hvalid, hgranted, hstub]
  have hanswer : answer call write s =
      (((call s).1.1, if (call s).1.1 = INT_CALL_SUCCESS then write (call s).1.2 else []), (call s).2) := by
    unfold answer
    by_cases hret : (call s).1.1 = INT_CALL_SUCCESS
    · simp [hret]
    · simp [hret]
  have hreply : (call s).1.1 ≠ INT_CALL_SUCCESS → (answer call write s).1.2 = [] := by
    intro hret
    rw [hanswer, if_neg hret]
  have hback := status_back hstatus hcode hreply
  unfold request relayed
  simp only [bind_apply, hremote, hanswer] at hback ⊢
  rw [hback]
  by_cases hret : (call s).1.1 = INT_CALL_SUCCESS
  · simp [hret, (hread hret).alone]
  · simp [hret]

/-- What the error and the result are read as when the error comes first. -/
theorem reads_withError {γ : Type} (hC : C.Inverts) {read : Reader γ} {write : γ → Parcel} {out : γ × BusinessError}
    (he : out.2.Fits) (h : Reads read (write out.1) out.1) : Reads (readWithError C read) (writeWithError C write out) out := by
  refine (ParcelAux.reads_businessError hC he).bind ?_
  intro rest
  simp [h rest]

/-- A method without output parameters is one with an empty one. -/
theorem requestOnly_relays {code : UpdaterSaInterfaceCode} {data : Parcel} (call : StateM σ CallResult) {s : σ}
    (hstatus : Relays status) (hvalid : isCallerValid caller = true) (hgranted : isPermissionGranted caller code.castUint = true)
    (hstub : requestFunc C code service data = do return (← call, [])) (hcode : CodeFits (call s).1) (out : Unit) :
    (do return (← requestOnly (some (transport status (onRemoteRequest C caller ipcObjectStub service))) code data, ()) :
      StateM σ (CallResult × Unit)) s = relayed (do return (← call, ())) out s := by
  have hanswer : requestFunc C code service data = answer (do return (← call, ())) fun _ => [] := by
    rw [hstub]
    funext s
    unfold answer
    by_cases hret : (call s).1 = INT_CALL_SUCCESS
    · simp [hret]
    · simp [hret]
  have hrelays := request_relays ipcObjectStub hstatus hvalid hgranted hanswer hcode (fun _ => reads_pure ()) out
  rw [← hrelays]
  simp [requestOnly]
  rfl

end TransparencyAux

open TransparencyAux ParcelAux

/-- A valid caller that holds the permissions: every method of the proxy is a call of the service's method with the arguments that were
passed and fresh output parameters, and gives its code and, when that is success, its output; the output parameters are left as they
were otherwise. So is every method of the callback's proxy. A callback is given, the service returns codes that are not negative and
leave room for the offset, and lists and sizes are within the bounds of what is written for them. -/
theorem ipc_transparency {C : Conversion} (hC : C.Inverts) {status : Int32 → Parcel → Int32} (hstatus : Relays status)
    {caller : IpcCaller} (hvalid : UpdateServiceStub.isCallerValid caller = true)
    (hgranted : ∀ code, UpdateServiceStub.isPermissionGranted caller code = true) (ipcObjectStub : Remote σ)
    (service : IUpdateService σ) (callback : IUpdateCallback σ) :
    (∀ {γ : Type} (request : Request γ) (out : γ) (s : σ), request.HasCallback →
      CodeFits (service.call request request.fresh s).1.1 →
      ((service.call request request.fresh s).1.1 = INT_CALL_SUCCESS →
        request.OutFits (service.call request request.fresh s).1.2) →
      (updateServiceProxy C (some (transport status (UpdateServiceStub.onRemoteRequest C caller ipcObjectStub service)))).call
        request out s = relayed (service.call request request.fresh) out s) ∧
    (∀ (businessError : BusinessError) (checkResult : CheckResult) (s : σ), businessError.Fits → checkResult.Fits →
      (updateCallbackProxy C (some (transport status (UpdateCallbackStub.onRemoteRequest C ipcObjectStub callback)))).onCheckVersionDone
        businessError checkResult s = callback.onCheckVersionDone businessError checkResult s) ∧
    ∀ (eventInfo : EventInfo) (s : σ), eventInfo.Fits →
      (updateCallbackProxy C (some (transport status (UpdateCallbackStub.onRemoteRequest C ipcObjectStub callback)))).onEvent
        eventInfo s = callback.onEvent eventInfo s := by
  refine ⟨?_, ?_, ?_⟩
  · intro γ request out s hcallback hcode hfits
    cases request with
    | registerUpdateCallback info updateCallback =>
      cases updateCallback with
      | none => exact absurd rfl hcallback
      | some remote =>
        refine requestOnly_relays ipcObjectStub (service.registerUpdateCallback info (some remote)) hstatus hvalid (hgranted _) ?_ hcode out
        simp [UpdateServiceStub.requestFunc, UpdateServiceStub.registerUpdateCallbackStub, reads_upgradeInfo hC info _]
    | unregisterUpdateCallback info =>
      refine requestOnly_relays ipcObjectStub (service.unregisterUpdateCallback info) hstatus hvalid (hgranted _) ?_ hcode out
      simp [UpdateServiceStub.requestFunc, UpdateServiceStub.unregisterUpdateCallbackStub, (reads_upgradeInfo hC info).alone]
    | checkNewVersion info =>
      refine requestOnly_relays ipcObjectStub (service.checkNewVersion info) hstatus hvalid (hgranted _) ?_ hcode out
      simp [UpdateServiceStub.requestFunc, UpdateServiceStub.checkNewVersionStub, (reads_upgradeInfo hC info).alone]
    | download info digest options =>
      refine request_relays ipcObjectStub hstatus hvalid (hgranted _) ?_ hcode (fun hret => reads_businessError hC (hfits hret)) out
      simp [UpdateServiceStub.requestFunc, UpdateServiceStub.downloadVersionStub, reads_upgradeInfo hC info _,
        reads_versionDigestInfo hC digest _, (reads_downloadOptions options).alone]
      rfl
    | pauseDownload info digest options =>
      refine request_relays ipcObjectStub hstatus hvalid (hgranted _) ?_ hcode (fun hret => reads_businessError hC (hfits hret)) out
      simp [UpdateServiceStub.requestFunc, UpdateServiceStub.pauseDownloadStub, reads_upgradeInfo hC info _,
        reads_versionDigestInfo hC digest _, (reads_pauseDownloadOptions options).alone]
      rfl
    | resumeDownload info digest options =>
      refine request_relays ipcObjectStub hstatus hvalid (hgranted _) ?_ hcode (fun hret => reads_businessError hC (hfits hret)) out
      simp [UpdateServiceStub.requestFunc, UpdateServiceStub.resumeDownloadStub, reads_upgradeInfo hC info _,
        reads_versionDigestInfo hC digest _, (reads_resumeDownloadOptions options).alone]
      rfl
    | upgrade info digest options =>
      refine request_relays ipcObjectStub hstatus hvalid (hgranted _) ?_ hcode (fun hret => reads_businessError hC (hfits hret)) out
      simp [UpdateServiceStub.requestFunc, UpdateServiceStub.doUpdateStub, reads_upgradeInfo hC info _,
        reads_versionDigestInfo hC digest _, (reads_upgradeOptions options).alone]
      rfl
    | clearError info digest options =>
      refine request_relays ipcObjectStub hstatus hvalid (hgranted _) ?_ hcode (fun hret => reads_businessError hC (hfits hret)) out
      simp [UpdateServiceStub.requestFunc, UpdateServiceStub.clearErrorStub, reads_upgradeInfo hC info _,
        reads_versionDigestInfo hC digest _, (reads_clearOptions options).alone]
      rfl
    | terminateUpgrade info =>
      refine request_relays ipcObjectStub hstatus hvalid (hgranted _) ?_ hcode (fun hret => reads_businessError hC (hfits hret)) out
      simp [UpdateServiceStub.requestFunc, UpdateServiceStub.terminateUpgradeStub, (reads_upgradeInfo hC info).alone]
      rfl
    | getNewVersionInfo info =>
      refine request_relays ipcObjectStub hstatus hvalid (hgranted _) ?_ hcode
        (fun hret => reads_withError hC (hfits hret).2 (reads_newVersionInfo hC (hfits hret).1)) out
      simp [UpdateServiceStub.requestFunc, UpdateServiceStub.getNewVersionStub, (reads_upgradeInfo hC info).alone]
      rfl
    | getNewVersionDescription info digest options =>
      refine request_relays ipcObjectStub hstatus hvalid (hgranted _) ?_ hcode
        (fun hret => reads_withError hC (hfits hret).2 (reads_versionDescriptionInfo hC (hfits hret).1)) out
      simp [UpdateServiceStub.requestFunc, UpdateServiceStub.getNewVersionDescriptionStub, reads_upgradeInfo hC info _,
        reads_versionDigestInfo hC digest _, (reads_descriptionOptions hC options).alone]
      rfl
    | getCurrentVersionInfo info =>
      refine request_relays ipcObjectStub hstatus hvalid (hgranted _) ?_ hcode
        (fun hret => reads_withError hC (hfits hret).2 (reads_currentVersionInfo hC (hfits hret).1)) out
      simp [UpdateServiceStub.requestFunc, UpdateServiceStub.getCurrentVersionStub, (reads_upgradeInfo hC info).alone]
      rfl
    | getCurrentVersionDescription info options =>
      refine request_relays ipcObjectStub hstatus hvalid (hgranted _) ?_ hcode
        (fun hret => reads_withError hC (hfits hret).2 (reads_versionDescriptionInfo hC (hfits hret).1)) out
      simp [UpdateServiceStub.requestFunc, UpdateServiceStub.getCurrentVersionDescriptionStub, reads_upgradeInfo hC info _,
        (reads_descriptionOptions hC options).alone]
      rfl
    | getTaskInfo info =>
      refine request_relays ipcObjectStub hstatus hvalid (hgranted _) ?_ hcode
        (fun hret => reads_withError hC (hfits hret).2 (reads_taskInfo hC (hfits hret).1)) out
      simp [UpdateServiceStub.requestFunc, UpdateServiceStub.getTaskInfoStub, (reads_upgradeInfo hC info).alone]
      rfl
    | setUpgradePolicy info policy =>
      refine request_relays ipcObjectStub hstatus hvalid (hgranted _) ?_ hcode (fun hret => reads_businessError hC (hfits hret)) out
      simp [UpdateServiceStub.requestFunc, UpdateServiceStub.setUpgradePolicyStub, reads_upgradeInfo hC info _, (reads_upgradePolicy policy).alone]
      rfl
    | getUpgradePolicy info =>
      refine request_relays ipcObjectStub hstatus hvalid (hgranted _) ?_ hcode
        (fun hret => reads_withError hC (hfits hret) (reads_upgradePolicy _)) out
      simp [UpdateServiceStub.requestFunc, UpdateServiceStub.getUpgradePolicyStub, (reads_upgradeInfo hC info).alone]
      rfl
    | cancel info business =>
      refine request_relays ipcObjectStub hstatus hvalid (hgranted _) ?_ hcode (fun hret => reads_businessError hC (hfits hret)) out
      simp [UpdateServiceStub.requestFunc, UpdateServiceStub.cancelStub, reads_upgradeInfo hC info _]
      rfl
    | factoryReset =>
      refine request_relays ipcObjectStub hstatus hvalid (hgranted _) ?_ hcode (fun hret => reads_businessError hC (hfits hret)) out
      simp [UpdateServiceStub.requestFunc, UpdateServiceStub.factoryResetStub]
      rfl
    | applyNewVersion info miscFile packageName =>
      refine request_relays ipcObjectStub hstatus hvalid (hgranted _) ?_ hcode (fun hret => reads_businessError hC (hfits hret)) out
      simp [UpdateServiceStub.requestFunc, UpdateServiceStub.applyNewVersionStub, reads_upgradeInfo hC info _, hC _]
      rfl
    | verifyUpgradePackage packagePath keyPath =>
      refine request_relays ipcObjectStub hstatus hvalid (hgranted _) ?_ hcode (fun hret => reads_businessError hC (hfits hret)) out
      simp [UpdateServiceStub.requestFunc, UpdateServiceStub.verifyUpgradePackageStub, hC _]
      rfl
  · intro businessError checkResult s he hr
    simp [updateCallbackProxy, transport, UpdateCallbackStub.onRemoteRequest, reads_businessError hC he _,
      (reads_checkResult hC hr).alone]
    rfl
  · intro eventInfo s h
    simp [updateCallbackProxy, transport, UpdateCallbackStub.onRemoteRequest, (reads_eventInfo hC h).alone, ON_EVENT, CHECK_VERSION]
    rfl

/-! ## A service that keeps the codes of its calls -/

/-- A remote object that notes the code and answers with an error of no effect. -/
def notingRemote : Remote (List UInt32) := fun code _ s =>
  ((ERR_NONE, writeBusinessError utf16 { message := "start" }), s ++ [code])

/-- The service that hands everything on to it, a registration without a callback included. -/
def notingService : IUpdateService (List UInt32) := { updateServiceProxy utf16 (some notingRemote) with
  registerUpdateCallback := fun _ _ s => (INT_CALL_SUCCESS, s ++ [UpdaterSaInterfaceCode.REGISTER_CALLBACK.castUint]) }

/-- A callback that does nothing. -/
def silentCallback : IUpdateCallback (List UInt32) where
  onCheckVersionDone _ _ := pure ()
  onEvent _ := pure ()

/-- A HAP to which every permission is granted. -/
def grantedHap (isSystemApp : Bool) : IpcCaller where
  callerTokenType := .TOKEN_HAP
  isSystemApp := isSystemApp
  callingUid := 20010041
  verifyAccessToken _ := true

/-- The service as a caller reaches it; codes it does not know are answered with `ERR_NONE`. -/
def notingProxy (caller : IpcCaller) : IUpdateService (List UInt32) :=
  updateServiceProxy utf16 (some (transport (fun ret _ => ret)
    (UpdateServiceStub.onRemoteRequest utf16 caller (fun _ _ s => ((ERR_NONE, []), s)) notingService)))

/-- A system application asks for a download, and one event and one result are delivered. -/
theorem ipc_transparency_download :
    (notingProxy (grantedHap true)).call (.download { upgradeApp := "app" } { versionDigest := "digest" } {}) {} [] =
        relayed (notingService.call (.download { upgradeApp := "app" } { versionDigest := "digest" } {}) {}) {} [] ∧
      (updateCallbackProxy utf16 (some (transport (fun ret _ => ret) (UpdateCallbackStub.onRemoteRequest utf16
        (fun _ _ s => ((ERR_NONE, []), s)) silentCallback)))).onCheckVersionDone {} {} [] =
        silentCallback.onCheckVersionDone {} {} [] ∧
      (updateCallbackProxy utf16 (some (transport (fun ret _ => ret) (UpdateCallbackStub.onRemoteRequest utf16
        (fun _ _ s => ((ERR_NONE, []), s)) silentCallback)))).onEvent {} [] = silentCallback.onEvent {} [] := by
  have hstatus : Relays fun ret _ => ret := fun _ _ => .inl rfl
  have hvalid : UpdateServiceStub.isCallerValid (grantedHap true) = true := rfl
  obtain ⟨hservice, hdone, hevent⟩ := ipc_transparency utf16_inverts hstatus hvalid (fun _ => rfl)
    (fun _ _ s => ((ERR_NONE, []), s)) notingService silentCallback
  have hcomponents : ComponentsFit [] := ⟨Nat.zero_le _, fun c hc => absurd hc List.not_mem_nil⟩
  refine ⟨?_, hdone {} {} [] (Nat.zero_le _) hcomponents, hevent {} [] ⟨Nat.zero_le _, hcomponents⟩⟩
  refine hservice (.download { upgradeApp := "app" } { versionDigest := "digest" } {}) {} [] trivial ⟨?_, ?_⟩ ?_
  · decide
  · decide
  · intro _
    exact Nat.zero_le _

/-- A registration without a callback is not passed on, and neither is a check of a caller with the permission that is no system
application, whatever the service would make of them. -/
theorem null_callback_not_passed_on :
    (notingProxy (grantedHap true)).registerUpdateCallback {} none [] = (INT_PARAM_ERR, []) ∧
      notingService.registerUpdateCallback {} none [] = (INT_CALL_SUCCESS, [15]) ∧
      (∀ code, UpdateServiceStub.isPermissionGranted (grantedHap false) code = true) ∧
      (notingProxy (grantedHap false)).checkNewVersion {} [] = (INT_NOT_SYSTEM_APP, []) ∧
      notingService.checkNewVersion {} [] = (INT_CALL_SUCCESS, [1]) := by
  exact ⟨rfl, rfl, fun _ => rfl, rfl, rfl⟩

end UpdateEngine.Ipc
