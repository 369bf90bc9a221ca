import UpdateEngine.Theorems.Transparency

/-!
# Who gets through to the service

Messages arrive from any process, with any code and any parcel. What they do to the service is what the calls do that the admitted ones
ask for, one after the other; the others leave no trace, neither in the service nor in what anybody else is answered.
-/

namespace UpdateEngine.Ipc

open MessageParcelHelper UpdateServiceStub

variable {σ : Type}

/-- A message, and who has sent it. -/
structure Incoming where
  caller : IpcCaller
  code : UInt32
  data : Parcel

/-- The codes in `requestFuncMap_`. -/
def codes : List UpdaterSaInterfaceCode :=
  [.CHECK_VERSION, .DOWNLOAD, .PAUSE_DOWNLOAD, .RESUME_DOWNLOAD, .UPGRADE, .CLEAR_ERROR, .TERMINATE_UPGRADE, .SET_POLICY, .GET_POLICY,
    .GET_NEW_VERSION, .GET_NEW_VERSION_DESCRIPTION, .GET_CURRENT_VERSION, .GET_CURRENT_VERSION_DESCRIPTION, .GET_TASK_INFO,
    .REGISTER_CALLBACK, .UNREGISTER_CALLBACK, .CANCEL, .FACTORY_RESET, .APPLY_NEW_VERSION, .VERIFY_UPGRADE_PACKAGE]

/-- The method that a message is for, if it is for one of the service. -/
def Incoming.method (m : Incoming) : Option UpdaterSaInterfaceCode :=
  if (readInterfaceToken m.data).1 = SERVICE_DESCRIPTOR then codes.find? (m.code == ·.castUint) else none

/-- A message for a method, from a valid caller that has the permission for it. -/
def Incoming.admitted (m : Incoming) : Bool :=
  m.method.isSome && isCallerValid m.caller && isPermissionGranted m.caller m.code

/-- The permission that a call needs. -/
def Request.permission {γ : Type} : Request γ → String
  | .factoryReset => "ohos.permission.FACTORY_RESET"
  | _ => "ohos.permission.UPDATE_SYSTEM"

/-- A call of a method, whatever its output parameters. -/
abbrev Call := Σ γ : Type, Request γ

variable (C : Conversion) (ipcObjectStub : Remote σ) (service : IUpdateService σ)

/-- The call that the arguments in a parcel ask for; no callback can be registered when there is none. -/
def UpdaterSaInterfaceCode.read (data : Parcel) : UpdaterSaInterfaceCode → Option Call
  | .CHECK_VERSION => some ⟨_, .checkNewVersion (readUpgradeInfo C data).1⟩
  | .DOWNLOAD =>
    let (info, data) := readUpgradeInfo C data
    let (digest, data) := readVersionDigestInfo C data
    some ⟨_, .download info digest (readDownloadOptions data).1⟩
  | .PAUSE_DOWNLOAD =>
    let (info, data) := readUpgradeInfo C data
    let (digest, data) := readVersionDigestInfo C data
    some ⟨_, .pauseDownload info digest (readPauseDownloadOptions data).1⟩
  | .RESUME_DOWNLOAD =>
    let (info, data) := readUpgradeInfo C data
    let (digest, data) := readVersionDigestInfo C data
    some ⟨_, .resumeDownload info digest (readResumeDownloadOptions data).1⟩
  | .UPGRADE =>
    let (info, data) := readUpgradeInfo C data
    let (digest, data) := readVersionDigestInfo C data
    some ⟨_, .upgrade info digest (readUpgradeOptions data).1⟩
  | .CLEAR_ERROR =>
    let (info, data) := readUpgradeInfo C data
    let (digest, data) := readVersionDigestInfo C data
    some ⟨_, .clearError info digest (readClearOptions data).1⟩
  | .TERMINATE_UPGRADE => some ⟨_, .terminateUpgrade (readUpgradeInfo C data).1⟩
  | .SET_POLICY =>
    let (info, data) := readUpgradeInfo C data
    some ⟨_, .setUpgradePolicy info (readUpgradePolicy {} data).1⟩
  | .GET_POLICY => some ⟨_, .getUpgradePolicy (readUpgradeInfo C data).1⟩
  | .GET_NEW_VERSION => some ⟨_, .getNewVersionInfo (readUpgradeInfo C data).1⟩
  | .GET_NEW_VERSION_DESCRIPTION =>
    let (info, data) := readUpgradeInfo C data
    let (digest, data) := readVersionDigestInfo C data
    some ⟨_, .getNewVersionDescription info digest (readDescriptionOptions C data).1⟩
  | .GET_CURRENT_VERSION => some ⟨_, .getCurrentVersionInfo (readUpgradeInfo C data).1⟩
  | .GET_CURRENT_VERSION_DESCRIPTION =>
    let (info, data) := readUpgradeInfo C data
    some ⟨_, .getCurrentVersionDescription info (readDescriptionOptions C data).1⟩
  | .GET_TASK_INFO => some ⟨_, .getTaskInfo (readUpgradeInfo C data).1⟩
  | .REGISTER_CALLBACK =>
    let (info, data) := readUpgradeInfo C data
    (readRemoteObject data).1.map fun remote => ⟨_, .registerUpdateCallback info (some remote)⟩
  | .UNREGISTER_CALLBACK => some ⟨_, .unregisterUpdateCallback (readUpgradeInfo C data).1⟩
  | .CANCEL =>
    let (info, data) := readUpgradeInfo C data
    some ⟨_, .cancel info (readInt32 data).1⟩
  | .FACTORY_RESET => some ⟨_, .factoryReset⟩
  | .APPLY_NEW_VERSION =>
    let (info, data) := readUpgradeInfo C data
    let (miscFile, data) := readString16 data
    some ⟨_, .applyNewVersion info (C.str16ToStr8 miscFile) (C.str16ToStr8 (readString16 data).1)⟩
  | .VERIFY_UPGRADE_PACKAGE =>
    let (packagePath, data) := readString16 data
    some ⟨_, .verifyUpgradePackage (C.str16ToStr8 packagePath) (C.str16ToStr8 (readString16 data).1)⟩

/-- The call that a message asks for. -/
def Incoming.call (m : Incoming) : Option Call := m.method.bind (·.read C (readInterfaceToken m.data).2)

/-- What a call with fresh output parameters leaves of the service. -/
def IUpdateService.after (s : σ) (call : Call) : σ := (service.call call.2 call.2.fresh s).2

/-- The answers to messages that arrive one after the other. -/
def serve : List Incoming → StateM σ (List (Int32 × Parcel))
  | [] => pure []
  | m :: l => do
    let reply ← onRemoteRequest C m.caller ipcObjectStub service m.code m.data
    return reply :: (← serve l)

namespace AdmissionAux

variable {C ipcObjectStub service} {m : Incoming} {s : σ}

/-- A stub changes the service by its call. -/
theorem answer_state {γ : Type} (call : StateM σ (CallResult × γ)) (write : γ → Parcel) (s : σ) :
    (answer call write s).2 = (call s).2 := by
  unfold answer
  by_cases hret : (call s).1.1 = INT_CALL_SUCCESS <;> simp [hret]

/-- What a stub leaves of the service: what the call leaves that it reads, if it reads one. -/
theorem requestFunc_state (code : UpdaterSaInterfaceCode) (data : Parcel) (s : σ) :
    (requestFunc C code service data s).2 = ((code.read C data).map (service.after s)).getD s := by
  cases code with
  | REGISTER_CALLBACK =>
    simp only [requestFunc, registerUpdateCallbackStub, UpdaterSaInterfaceCode.read]
    rcases readUpgradeInfo C data with ⟨info, rest⟩
    cases hremote : (readRemoteObject rest).1 with
    | none => simp [hremote]
    | some remote =>
      simp [hremote]
      rfl
  | CHECK_VERSION => rfl
  | UNREGISTER_CALLBACK => rfl
  | _ => exact answer_state _ _ s

/-- The codes tell the methods apart. -/
theorem castUint_injective {code code' : UpdaterSaInterfaceCode} (h : code.castUint = code'.castUint) : code = code' := by
  cases code <;> cases code' <;> first | rfl | exact absurd h (by decide)

theorem mem_codes (code : UpdaterSaInterfaceCode) : code ∈ codes := by
  cases code <;> decide

/-- The stub of a message is that of its method. -/
theorem lookup_codes (code : UInt32) (l : List UpdaterSaInterfaceCode) :
    (l.map fun c => (c.castUint, requestFunc (σ := σ) C c)).lookup code =
      (l.find? (code == ·.castUint)).map (requestFunc C) := by
  induction l with
  | nil => rfl
  | cons c l ih =>
    simp only [List.map_cons, List.lookup_cons, List.find?_cons]
    cases code == c.castUint with
    | true => rfl
    | false => exact ih

/-- Which permission a call needs can be told from the code. -/
theorem read_permission {code : UpdaterSaInterfaceCode} {data : Parcel} {call : Call} (h : code.read C data = some call) :
    call.2.permission = if code = .FACTORY_RESET then "ohos.permission.FACTORY_RESET" else "ohos.permission.UPDATE_SYSTEM" := by
  cases code with
  | REGISTER_CALLBACK =>
    obtain ⟨remote, -, rfl⟩ := Option.map_eq_some_iff.mp h
    rfl
  | _ =>
    cases h
    rfl

theorem find_codes {code : UInt32} {c : UpdaterSaInterfaceCode} (h : codes.find? (code == ·.castUint) = some c) : code = c.castUint :=
  eq_of_beq (by simpa using List.find?_some h)

/-- What an admitted message leaves of the service. -/
theorem state_of_admitted (h : m.admitted = true) :
    (onRemoteRequest C m.caller ipcObjectStub service m.code m.data s).2 = ((m.call C).map (service.after s)).getD s := by
  unfold Incoming.admitted at h
  simp only [Bool.and_eq_true] at h
  obtain ⟨⟨hmethod, hvalid⟩, hgranted⟩ := h
  obtain ⟨code, hcode⟩ := Option.isSome_iff_exists.mp hmethod
  rw [Incoming.call, hcode, Option.bind_some, ← requestFunc_state]
  unfold Incoming.method at hcode
  unfold onRemoteRequest
  rcases htoken : readInterfaceToken m.data with ⟨token, data⟩
  rw [htoken] at hcode
  split at hcode
  next hdescriptor =>
    have hlookup : (requestFuncMap (σ := σ) C).lookup m.code = some (requestFunc C code) := by
      rw [requestFuncMap, ← codes, lookup_codes, hcode, Option.map_some]
    simp only at hdescriptor
    simp [hdescriptor, hlookup, hvalid, hgranted]
  next => cases hcode

/-- A message that is not admitted leaves the service as it is, and is told why if it is for a method. -/
theorem refused (hstub : ∀ code data s, (ipcObjectStub code data s).2 = s) (h : m.admitted = false) :
    (onRemoteRequest C m.caller ipcObjectStub service m.code m.data s).2 = s ∧
      (m.method.isSome = true → (onRemoteRequest C m.caller ipcObjectStub service m.code m.data s).1 =
        (callResultToIpcResult (if isCallerValid m.caller then INT_APP_NOT_GRANTED else INT_NOT_SYSTEM_APP), [])) := by
  unfold onRemoteRequest Incoming.method
  unfold Incoming.admitted Incoming.method at h
  rcases htoken : readInterfaceToken m.data with ⟨token, data⟩
  rw [htoken] at h
  by_cases hdescriptor : token = SERVICE_DESCRIPTOR
  · have hlookup : (requestFuncMap (σ := σ) C).lookup m.code = (codes.find? (m.code == ·.castUint)).map (requestFunc C) :=
      lookup_codes m.code codes
    cases hcode : codes.find? (m.code == ·.castUint) with
    | none => simp [hdescriptor, hlookup, hcode, hstub]
    | some code =>
      cases hvalid : isCallerValid m.caller with
      | false => simp [hdescriptor, hlookup, hcode]
      | true =>
        have hgranted : isPermissionGranted m.caller m.code = false := by simpa [hdescriptor, hcode, hvalid] using h
        simp [hdescriptor, hlookup, hcode, hgranted]
  · simp [hdescriptor]

/-- An admitted message that asks for a call comes from a valid caller that has the permission for that. -/
theorem permitted (h : m.admitted = true) {call : Call} (hcall : m.call C = some call) :
    isCallerValid m.caller = true ∧ m.caller.verifyAccessToken call.2.permission = true := by
  unfold Incoming.admitted at h
  simp only [Bool.and_eq_true] at h
  obtain ⟨⟨-, hvalid⟩, hgranted⟩ := h
  obtain ⟨code, hmethod, hread⟩ := Option.bind_eq_some_iff.mp hcall
  unfold Incoming.method at hmethod
  split at hmethod
  next =>
    rw [isPermissionGranted, find_codes hmethod] at hgranted
    have hsame : code.castUint = UpdaterSaInterfaceCode.FACTORY_RESET.castUint ↔ code = .FACTORY_RESET :=
      ⟨castUint_injective, fun hcode => hcode ▸ rfl⟩
    rw [read_permission hread]
    simpa only [hsame] using And.intro hvalid hgranted
  next => cases hmethod

theorem serve_cons (l : List Incoming) (s : σ) : serve C ipcObjectStub service (m :: l) s =
    ((onRemoteRequest C m.caller ipcObjectStub service m.code m.data s).1 ::
      (serve C ipcObjectStub service l (onRemoteRequest C m.caller ipcObjectStub service m.code m.data s).2).1,
      (serve C ipcObjectStub service l (onRemoteRequest C m.caller ipcObjectStub service m.code m.data s).2).2) := rfl

theorem serve_state (hstub : ∀ code data s, (ipcObjectStub code data s).2 = s) (l : List Incoming) (s : σ) :
    (serve C ipcObjectStub service l s).2 = ((l.filter (·.admitted)).filterMap (·.call C)).foldl service.after s := by
  induction l generalizing s with
  | nil => rfl
  | cons m l ih =>
    rw [serve_cons, ih]
    cases h : m.admitted with
    | true =>
      rw [state_of_admitted h, List.filter_cons, if_pos h, List.filterMap_cons]
      cases m.call C with
      | none => rfl
      | some call => rfl
    | false => rw [(refused hstub h).1, List.filter_cons, if_neg (by simp [h])]

/-- What is answered to the admitted messages. -/
theorem serve_kept (hstub : ∀ code data s, (ipcObjectStub code data s).2 = s) (l : List Incoming) (s : σ) :
    (((serve C ipcObjectStub service l s).1.zip l).filter (·.2.admitted)).map Prod.fst =
      (serve C ipcObjectStub service (l.filter (·.admitted)) s).1 := by
  induction l generalizing s with
  | nil => rfl
  | cons m l ih =>
    rw [serve_cons, List.zip_cons_cons]
    cases h : m.admitted with
    | true => rw [List.filter_cons, if_pos h, List.filter_cons, if_pos h, List.map_cons, ih, serve_cons]
    | false => rw [List.filter_cons, if_neg (by simp [h]), List.filter_cons, if_neg (by simp [h]), ih, (refused hstub h).1]

/-- What is answered to the others. -/
theorem serve_refused (hstub : ∀ code data s, (ipcObjectStub code data s).2 = s) (l : List Incoming) (s : σ)
    {p : (Int32 × Parcel) × Incoming} (hp : p ∈ (serve C ipcObjectStub service l s).1.zip l) (h : p.2.admitted = false)
    (hmethod : p.2.method.isSome = true) :
    p.1 = (callResultToIpcResult (if isCallerValid p.2.caller then INT_APP_NOT_GRANTED else INT_NOT_SYSTEM_APP), []) := by
  induction l generalizing s with
  | nil => exact absurd hp List.not_mem_nil
  | cons m l ih =>
    rw [serve_cons, List.zip_cons_cons] at hp
    rcases List.mem_cons.mp hp with rfl | hp
    · exact (refused hstub h).2 hmethod
    · exact ih _ hp

end AdmissionAux

open AdmissionAux

/-- Messages of any senders, in any order. What they leave of the service is what the calls leave that the admitted ones ask for, one after
the other; each of these is from a valid caller that has the permission for its method. Admitted messages are answered as if there
were no others, and the others for a method are only told why they are refused. What is left to `IPCObjectStub` changes nothing in the
service. -/
theorem serve_admitted (hstub : ∀ code data s, (ipcObjectStub code data s).2 = s) (l : List Incoming) (s : σ) :
    (serve C ipcObjectStub service l s).2 = ((l.filter (·.admitted)).filterMap (·.call C)).foldl service.after s ∧
      (∀ m ∈ l, m.admitted = true → ∀ call, m.call C = some call →
        isCallerValid m.caller = true ∧ m.caller.verifyAccessToken call.2.permission = true) ∧
      (((serve C ipcObjectStub service l s).1.zip l).filter (·.2.admitted)).map Prod.fst =
        (serve C ipcObjectStub service (l.filter (·.admitted)) s).1 ∧
      ∀ p ∈ (serve C ipcObjectStub service l s).1.zip l, p.2.admitted = false → p.2.method.isSome = true →
        p.1 = (callResultToIpcResult (if isCallerValid p.2.caller then INT_APP_NOT_GRANTED else INT_NOT_SYSTEM_APP), []) :=
  ⟨serve_state hstub l s, fun _ _ h _ hcall => permitted h hcall, serve_kept hstub l s,
    fun _ hp h hmethod => serve_refused hstub l s hp h hmethod⟩

/-! ## A reset that an application asks for -/

/-- A process of root, and an application of the system that may not reset. -/
def rootProcess : IpcCaller := ⟨.TOKEN_NATIVE, false, 0, fun _ => true⟩
def systemApp : IpcCaller := ⟨.TOKEN_HAP, true, 20010001, (· == "ohos.permission.UPDATE_SYSTEM")⟩

/-- A message as the proxy writes it. -/
def message (caller : IpcCaller) (code : UpdaterSaInterfaceCode) (data : Parcel) : Incoming :=
  ⟨caller, code.castUint, .interfaceToken SERVICE_DESCRIPTOR :: data⟩

def incoming : List Incoming :=
  [message (grantedHap false) .FACTORY_RESET [], message systemApp .CHECK_VERSION (writeUpgradeInfo utf16 {}),
    message systemApp .FACTORY_RESET [], message rootProcess .FACTORY_RESET []]

theorem serve_admitted_reset :
    (serve utf16 (fun _ _ => pure (305, [])) notingService incoming []).2 = [1, 18] ∧
      (serve utf16 (fun _ _ => pure (305, [])) notingService incoming []).1.map Prod.fst = [2202, 2000, 2201, 2000] := by
  obtain ⟨hstate, -, -, -⟩ := serve_admitted utf16 (fun _ _ => pure (305, [])) notingService (fun _ _ _ => rfl) incoming []
  exact ⟨hstate.trans (by decide), by decide⟩

end UpdateEngine.Ipc
