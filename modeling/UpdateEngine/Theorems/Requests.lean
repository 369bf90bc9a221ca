import UpdateEngine.Theorems.Sessions
import UpdateEngine.Theorems.Transparency

/-!
# What reaches the service

A request that a script makes carries what was read of arguments, by its own call or by another one, and what is read is checked first.
So whatever a script hands over, and however its calls overlap, no request reaches the service that names what is no member of an
enumeration, and nothing depends on what the service would make of one.
-/

namespace UpdateEngine.Ipc.Client

open Concurrent

variable {μ σ : Type} {U : IUpdater μ} {kit kit' : IUpdateService σ} {w w' : World μ σ}

/-- The script calls these methods. -/
def Action.uses (methods : List (Method μ σ)) : Action μ σ → Prop
  | .call m _ => m ∈ methods
  | _ => True

/-- Two services that make the same of the requests that satisfy a condition. -/
def AgreeOn (valid : {γ : Type} → Ipc.Request γ → Prop) (kit kit' : IUpdateService σ) : Prop :=
  ∀ {γ : Type} (r : Ipc.Request γ), valid r → ∀ out, kit.call r out = kit'.call r out

/-- A text that came through the buffer of `GetString`. -/
def Short (s : String) : Prop := s.utf8ByteSize < NapiUtil.STRING_MAX_LENGTH

instance (s : String) : Decidable (Short s) := inferInstanceAs (Decidable (_ < _))

namespace UpdateClient

open Client.ClientHelper

/-- Members that may be made a request of. -/
structure Valid (info : UpgradeInfo) (c : UpdateClient) : Prop where
  upgradeInfo : c.upgradeInfo = info
  versionDigest : Short c.versionDigestInfo.versionDigest
  download : c.downloadOptions.allowNetwork ∈ netTypeList ∧ c.downloadOptions.order ∈ orderList
  resumeDownload : c.resumeDownloadOptions.allowNetwork ∈ netTypeList
  upgrade : c.upgradeOptions.order ∈ orderList
  clear : c.clearOptions.status ∈ statusList
  description : c.descriptionOptions.format ∈ formatList ∧ Short c.descriptionOptions.language

/-- The requests of a client: of its own `UpgradeInfo`, with members of the enumerations that a script may name and with texts that fit
the buffer. A cancellation names the download. -/
def ValidRequest (info : UpgradeInfo) {γ : Type} : Ipc.Request γ → Prop
  | .checkNewVersion i | .terminateUpgrade i | .getNewVersionInfo i | .getCurrentVersionInfo i | .getTaskInfo i | .setUpgradePolicy i _
  | .getUpgradePolicy i => i = info
  | .download i digest options => i = info ∧ Short digest.versionDigest ∧ options.allowNetwork ∈ netTypeList ∧ options.order ∈ orderList
  | .pauseDownload i digest _ => i = info ∧ Short digest.versionDigest
  | .resumeDownload i digest options => i = info ∧ Short digest.versionDigest ∧ options.allowNetwork ∈ netTypeList
  | .upgrade i digest options => i = info ∧ Short digest.versionDigest ∧ options.order ∈ orderList
  | .clearError i digest options => i = info ∧ Short digest.versionDigest ∧ options.status ∈ statusList
  | .getNewVersionDescription i digest options =>
    i = info ∧ Short digest.versionDigest ∧ options.format ∈ formatList ∧ Short options.language
  | .getCurrentVersionDescription i options => i = info ∧ options.format ∈ formatList ∧ Short options.language
  | .cancel i business => i = info ∧ business = 2
  | .registerUpdateCallback .. | .unregisterUpdateCallback .. | .factoryReset | .applyNewVersion .. | .verifyUpgradePackage .. => False

end UpdateClient

/-- The requests of a local updater: of files that may be packages, and for itself. -/
def LocalUpdater.ValidRequest {γ : Type} : Ipc.Request γ → Prop
  | .verifyUpgradePackage packagePath keyPath => ClientHelper.isValidUpgradeFile packagePath = true ∧ Short keyPath
  | .applyNewVersion i miscFile packageName =>
    i = { upgradeApp := "LocalUpgradeInfo" } ∧ miscFile = LocalUpdater.MISC_FILE ∧ ClientHelper.isValidUpgradeFile packageName = true
  | _ => False

/-- The methods of a local updater. -/
def LocalUpdater.methods : List (Method Unit σ) := [LocalUpdater.verifyUpgradePackage, LocalUpdater.applyNewVersion]

namespace RequestsAux

open SessionsAux

/-! ## Workers -/

/-- A worker that makes requests on which two services agree, and keeps what is known of the members. -/
def Agrees (I : μ → Prop) (kit kit' : IUpdateService σ) (doWorker : DoWorker μ σ) : Prop :=
  ∀ members businessError, I members → doWorker kit members businessError = doWorker kit' members businessError ∧
    ∀ s, I (doWorker kit members businessError s).1.2.1

/-- What is asked of the methods: they keep what is known of the members, and so do their workers, which make requests on which two
services agree. -/
structure Contained (U : IUpdater μ) (I : μ → Prop) (kit kit' : IUpdateService σ) (methods : List (Method μ σ)) : Prop where
  keeps : ∀ m ∈ methods, ∀ args members, I members → I (m args members).1
  agrees : ∀ m ∈ methods, ∀ args members request, I members → (m args members).2 = some request → Agrees I kit kit' request.doWorker
  setCheckResult : ∀ checkResult members, I members → I (U.setCheckResult checkResult members)

theorem agrees_noWorker (I : μ → Prop) : Agrees I kit kit' World.noWorker := fun _ _ h => ⟨rfl, fun _ => h⟩

/-- Where the workers of the sessions come from. -/
theorem doWorker_of_step {a : Action μ σ} (hs : w.step U kit a = some w') {e' : Nat × Session μ σ} (he' : e' ∈ w'.sessions) :
    (∃ e ∈ w.sessions, e'.2.doWorker = e.2.doWorker) ∨ e'.2.doWorker = World.noWorker ∨
      ∃ m args request, a = .call m args ∧ (m args w.members).2 = some request ∧ e'.2.doWorker = request.doWorker := by
  have hold (h : e' ∈ w.sessions) : ∃ e ∈ w.sessions, e'.2.doWorker = e.2.doWorker := ⟨e', h, rfl⟩
  cases (moves_of_step hs).2 with
  | call m args =>
    rcases call_cases w m args with ⟨members, -, heq⟩ | ⟨members, request, hm, heq⟩
    · rw [heq] at he'
      exact .inl (hold he')
    · rw [heq] at he'
      have hrequest : (m args w.members).2 = some request := by rw [hm]
      rcases startSession_cases { w with members } request args with ⟨kind, -, heq⟩ | ⟨kind, heq⟩
      · rw [heq] at he'
        rcases SortedMap.mem_emplace he' with rfl | he'
        · exact .inr (.inr ⟨m, args, request, rfl, hrequest, rfl⟩)
        · exact .inl (hold he')
      · rw [heq] at he'
        rcases SortedMap.mem_emplace (List.mem_of_mem_filter he') with rfl | he'
        · exact .inr (.inr ⟨m, args, request, rfl, hrequest, rfl⟩)
        · exact .inl (hold he')
  | on args =>
    rcases on_cases w args with heq | ⟨info, handler, -, heq⟩ | ⟨kind, params, heq⟩
    · rw [heq] at he'
      exact .inl (hold he')
    · rw [heq] at he'
      rcases SortedMap.mem_emplace he' with rfl | he'
      · exact .inr (.inl rfl)
      · exact .inl (hold he')
    · rw [heq] at he'
      rcases SortedMap.mem_emplace (List.mem_of_mem_filter he') with rfl | he'
      · exact .inr (.inl rfl)
      · exact .inl (hold he')
  | off args =>
    rcases off_cases w args with heq | ⟨info, handle, heq⟩
    · rw [heq] at he'
      exact .inl (hold he')
    · rw [heq] at he'
      exact .inl (hold (List.mem_of_mem_filter he'))
  | @execute object e =>
    cases hrun : (e.2.doWorker kit w.members e.2.businessError).run w.service with
    | mk out service =>
      rw [executeWork_eq w kit e.2 hrun] at he'
      obtain ⟨e₀, he₀, rfl⟩ := List.mem_map.mp he'
      refine .inl ⟨e₀, he₀, ?_⟩
      split_ifs <;> rfl
  | timeout =>
    obtain ⟨e₀, he₀, rfl⟩ := List.mem_map.mp he'
    refine .inl ⟨e₀, he₀, ?_⟩
    split_ifs <;> rfl
  | complete =>
    unfold World.completeWork at he'
    split at he'
    · exact .inl (hold he')
    · exact .inl (hold (List.mem_of_mem_filter he'))
  | completed => exact .inl (hold (List.mem_of_mem_filter he'))
  | emit =>
    obtain ⟨e₀, he₀, rfl⟩ := List.mem_map.mp he'
    refine .inl ⟨e₀, he₀, ?_⟩
    split_ifs <;> rfl
  | publishTo =>
    unfold World.publishToJS at he'
    split_ifs at he' <;> exact .inl (hold he')
  | otherSession | serviceMoves | wake | deadSession | notifyCheckVersionDone | notifyEvent | publish | published | publishNext
  | deadIterator => exact .inl (hold he')

/-- What is known throughout a run: the members, and the workers of the sessions. -/
structure Known (I : μ → Prop) (kit kit' : IUpdateService σ) (w : World μ σ) : Prop where
  members : I w.members
  workers : ∀ e ∈ w.sessions, Agrees I kit kit' e.2.doWorker

theorem known_step {I : μ → Prop} {methods : List (Method μ σ)} {a : Action μ σ} (hc : Contained U I kit kit' methods)
    (h : Known I kit kit' w) (ha : a.uses methods) (hs : w.step U kit a = some w') : Known I kit kit' w' := by
  constructor
  · cases (moves_of_step hs).2 with
    | call m args =>
      have hkeeps := hc.keeps m ha args w.members h.members
      rcases call_cases w m args with ⟨members, hm, heq⟩ | ⟨members, request, hm, heq⟩
      · rw [heq]
        rwa [hm] at hkeeps
      · rw [heq]
        rw [hm] at hkeeps
        rcases startSession_cases { w with members } request args with ⟨kind, -, heq⟩ | ⟨kind, heq⟩ <;> rwa [heq]
    | on args =>
      rcases on_cases w args with heq | ⟨info, handler, -, heq⟩ | ⟨kind, params, heq⟩ <;>
        · rw [heq]
          exact h.members
    | off args =>
      rcases off_cases w args with heq | ⟨info, handle, heq⟩ <;>
        · rw [heq]
          exact h.members
    | @execute object e hwork hfind =>
      have hworker := (h.workers e (List.mem_of_find?_eq_some hfind) w.members e.2.businessError h.members).2 w.service
      cases hrun : (e.2.doWorker kit w.members e.2.businessError).run w.service with
      | mk out service =>
        rw [executeWork_eq w kit e.2 hrun]
        rw [StateT.run] at hrun
        rwa [hrun] at hworker
    | complete =>
      unfold World.completeWork
      split <;> exact h.members
    | notifyCheckVersionDone businessError checkResult => exact hc.setCheckResult checkResult w.members h.members
    | publishTo =>
      unfold World.publishToJS
      split_ifs <;> exact h.members
    | otherSession | serviceMoves | wake | timeout | completed | deadSession | emit | notifyEvent | publish | published | publishNext
    | deadIterator => exact h.members
  · intro e' he'
    rcases doWorker_of_step hs he' with ⟨e, he, heq⟩ | heq | ⟨m, args, request, rfl, hrequest, heq⟩
    · rw [heq]
      exact h.workers e he
    · rw [heq]
      exact agrees_noWorker I
    · rw [heq]
      exact hc.agrees m ha args w.members request h.members hrequest

/-- A step is the same whichever of the two services answers. -/
theorem step_congr {I : μ → Prop} {a : Action μ σ} (h : Known I kit kit' w) : w.step U kit a = w.step U kit' a := by
  cases a with
  | execute object =>
    simp only [World.step]
    cases hfind : w.find object with
    | none => rfl
    | some e =>
      have hworker := (h.workers e (List.mem_of_find?_eq_some hfind) w.members e.2.businessError h.members).1
      have hexecute : w.executeWork kit e.2 = w.executeWork kit' e.2 := by
        unfold World.executeWork
        rw [hworker]
      simp only [hexecute]
  | _ => rfl

/-- A run is a run whichever of the two services answers. -/
theorem leads_congr {I : μ → Prop} {methods : List (Method μ σ)} {service : σ} {members : μ} (hc : Contained U I kit kit' methods)
    (hinit : I members) (h : Leads (World.step U kit) (fun _ a => a.uses methods) (World.fresh service members) w) :
    Leads (World.step U kit') (fun _ a => a.uses methods) (World.fresh service members) w ∧ Known I kit kit' w := by
  induction h with
  | refl => exact ⟨.refl, hinit, by simp [World.fresh]⟩
  | @step w w' a _ ha hs ih =>
    obtain ⟨hleads, hknown⟩ := ih
    exact ⟨.step hleads ha (step_congr hknown ▸ hs), known_step hc hknown ha hs⟩

/-! ## What is read -/

open Client.ClientHelper

theorem utf8ByteSize_copied (s : String) : Short (NapiUtil.copied s) := by
  have hfitting (n : Nat) (l : List Char) : (String.ofList (fitting n l)).utf8ByteSize ≤ n := by
    induction l generalizing n with
    | nil => simp [fitting]
    | cons c l ih =>
      unfold fitting
      split_ifs with hfits
      · have := ih (n - c.utf8Size)
        rw [String.ofList_cons, String.utf8ByteSize_append, String.utf8ByteSize_singleton]
        omega
      · simp
  exact Nat.lt_of_le_of_lt (hfitting _ _) (by decide)

theorem short_getString {arg : Value} {attrName old : String} (h : Short old) : Short (NapiUtil.getString arg attrName old).2 := by
  unfold NapiUtil.getString NapiUtil.getStringValue
  split
  · split
    · exact utf8ByteSize_copied _
    · exact h
  · exact h

/-- What was a member of the enumeration stays one. -/
theorem getEnum_mem {attrName : String} {enumList : List Int32} {arg : Value} {old : Int32} (h : old ∈ enumList) :
    (getEnum attrName enumList arg old).2 ∈ enumList := by
  unfold getEnum isValidEnum
  dsimp only
  split_ifs with hvalid
  · obtain ⟨i, hi, heq⟩ := List.any_eq_true.mp hvalid
    exact (of_decide_eq_true heq) ▸ hi
  · exact h

theorem valid_getDownloadOptions {arg : Value} {o : DownloadOptions} (h : o.allowNetwork ∈ netTypeList ∧ o.order ∈ orderList) :
    (getDownloadOptions arg o).2.allowNetwork ∈ netTypeList ∧ (getDownloadOptions arg o).2.order ∈ orderList := by
  have hallowNetwork : (getNetType arg o.allowNetwork).2 ∈ netTypeList := getEnum_mem h.1
  have horder : (getOrder arg o.order).2 ∈ orderList := getEnum_mem h.2
  unfold getDownloadOptions
  cases hret : (getNetType arg o.allowNetwork).1 with
  | CLIENT_SUCCESS =>
    simp only [hret, if_true]
    exact ⟨hallowNetwork, horder⟩
  | _ =>
    simp only [hret]
    exact ⟨hallowNetwork, h.2⟩

theorem valid_getDescriptionOptions {arg : Value} {o : DescriptionOptions} (h : o.format ∈ formatList ∧ Short o.language) :
    (getDescriptionOptions arg o).2.format ∈ formatList ∧ Short (getDescriptionOptions arg o).2.language := by
  have hformat : (getDescriptionFormat arg o.format).2 ∈ formatList := getEnum_mem h.1
  unfold getDescriptionOptions
  cases hret : (getDescriptionFormat arg o.format).1 with
  | CLIENT_SUCCESS =>
    simp only [hret, if_true]
    exact ⟨hformat, short_getString h.2⟩
  | _ =>
    simp only [hret]
    exact ⟨hformat, h.2⟩

/-! ## The methods of UpdateClient -/

section UpdateClient

variable {info : UpgradeInfo} {c : UpdateClient}

open UpdateClient

theorem valid_default : UpdateClient.Valid {} {} := by
  constructor <;> decide

theorem valid_methods (h : c.Valid info) (m : Method UpdateClient σ) (hm : m ∈ UpdateClient.methods) (args : List Value) :
    (m args c).1.Valid info := by
  simp only [UpdateClient.methods, List.mem_cons, List.not_mem_nil, or_false] at hm
  rcases hm with rfl | rfl | rfl | rfl | rfl | rfl | rfl | rfl | rfl | rfl | rfl | rfl | rfl | rfl | rfl
  · exact h
  · exact h
  · exact { h with versionDigest := short_getString h.versionDigest, download := valid_getDownloadOptions h.download }
  · exact { h with versionDigest := short_getString h.versionDigest }
  · exact { h with versionDigest := short_getString h.versionDigest, resumeDownload := getEnum_mem h.resumeDownload }
  · exact { h with versionDigest := short_getString h.versionDigest, upgrade := getEnum_mem h.upgrade }
  · exact { h with versionDigest := short_getString h.versionDigest, clear := getEnum_mem h.clear }
  · exact h
  · exact { h with }
  · exact h
  · exact h
  · exact { h with versionDigest := short_getString h.versionDigest, description := valid_getDescriptionOptions h.description }
  · exact h
  · exact { h with description := valid_getDescriptionOptions h.description }
  · exact h

/-- A worker that makes one request and leaves the members as they are. -/
theorem agrees_ofRequest {I : μ → Prop} {request : IUpdateService σ → μ → BusinessError → StateM σ (CallResult × BusinessError)}
    (h : ∀ members businessError, I members → request kit members businessError = request kit' members businessError) :
    Agrees I kit kit' (.ofRequest request) := by
  intro members businessError hI
  refine ⟨?_, fun _ => hI⟩
  unfold DoWorker.ofRequest
  rw [h members businessError hI]

/-- A worker that makes one request and stores what comes back. -/
theorem agrees_store {I : μ → Prop} {γ : Type}
    {request : IUpdateService σ → μ → BusinessError → StateM σ (CallResult × γ × BusinessError)} (store : μ → γ → μ)
    (hstore : ∀ members x, I members → I (store members x))
    (h : ∀ members businessError, I members → request kit members businessError = request kit' members businessError) :
    Agrees I kit kit' fun kit members businessError => do
      let (ret, x, businessError) ← request kit members businessError
      return (ret, store members x, businessError) := by
  intro members businessError hI
  refine ⟨?_, fun _ => hstore _ _ hI⟩
  dsimp only
  rw [h members businessError hI]

/-- What a method that refuses nothing or its arguments starts. -/
theorem doWorker_request {ret : ClientStatus} {type : SessionType} {callbackStartIndex : Nat} {doWorker : DoWorker UpdateClient σ}
    {request : Request UpdateClient σ} (h : UpdateClient.request ret type callbackStartIndex doWorker = some request) :
    request.doWorker = doWorker := by
  unfold UpdateClient.request at h
  split_ifs at h
  cases h
  rfl

theorem agrees_methods (hkit : AgreeOn (ValidRequest info) kit kit') (m : Method UpdateClient σ) (hm : m ∈ UpdateClient.methods)
    (args : List Value) (c : UpdateClient) (request : Request UpdateClient σ) (hrequest : (m args c).2 = some request) :
    Agrees (UpdateClient.Valid info) kit kit' request.doWorker := by
  have hcheck (i : UpgradeInfo) (hi : i = info) : kit.checkNewVersion i = kit'.checkNewVersion i := by
    have := hkit (.checkNewVersion i) hi ()
    have := congrArg (fun x => Prod.fst <$> x) this
    simpa [IUpdateService.call] using this
  simp only [UpdateClient.methods, List.mem_cons, List.not_mem_nil, or_false] at hm
  rcases hm with rfl | rfl | rfl | rfl | rfl | rfl | rfl | rfl | rfl | rfl | rfl | rfl | rfl | rfl | rfl
  · cases hrequest
    refine agrees_ofRequest fun c businessError h => ?_
    rw [hcheck c.upgradeInfo h.upgradeInfo]
  · unfold cancelUpgrade at hrequest
    dsimp only at hrequest
    split_ifs at hrequest
    cases hrequest
    exact agrees_ofRequest fun c businessError h => hkit (.cancel c.upgradeInfo UpdaterSaInterfaceCode.DOWNLOAD.castUint.toInt32)
      ⟨h.upgradeInfo, by decide⟩ businessError
  · rw [doWorker_request hrequest]
    exact agrees_ofRequest fun c businessError h =>
      hkit (.download c.upgradeInfo c.versionDigestInfo c.downloadOptions) ⟨h.upgradeInfo, h.versionDigest, h.download⟩ businessError
  · cases hrequest
    exact agrees_ofRequest fun c businessError h =>
      hkit (.pauseDownload c.upgradeInfo c.versionDigestInfo c.pauseDownloadOptions) ⟨h.upgradeInfo, h.versionDigest⟩ businessError
  · rw [doWorker_request hrequest]
    exact agrees_ofRequest fun c businessError h =>
      hkit (.resumeDownload c.upgradeInfo c.versionDigestInfo c.resumeDownloadOptions)
        ⟨h.upgradeInfo, h.versionDigest, h.resumeDownload⟩ businessError
  · rw [doWorker_request hrequest]
    exact agrees_ofRequest fun c businessError h =>
      hkit (.upgrade c.upgradeInfo c.versionDigestInfo c.upgradeOptions) ⟨h.upgradeInfo, h.versionDigest, h.upgrade⟩ businessError
  · rw [doWorker_request hrequest]
    exact agrees_ofRequest fun c businessError h =>
      hkit (.clearError c.upgradeInfo c.versionDigestInfo c.clearOptions) ⟨h.upgradeInfo, h.versionDigest, h.clear⟩ businessError
  · cases hrequest
    exact agrees_ofRequest fun c businessError h => hkit (.terminateUpgrade c.upgradeInfo) h.upgradeInfo businessError
  · rw [doWorker_request hrequest]
    exact agrees_ofRequest fun c businessError h => hkit (.setUpgradePolicy c.upgradeInfo c.upgradePolicy) h.upgradeInfo businessError
  · cases hrequest
    exact agrees_store (I := UpdateClient.Valid info) (fun (c : UpdateClient) upgradePolicy => { c with upgradePolicy })
      (fun c _ h => { h with })
      fun c businessError h => hkit (.getUpgradePolicy c.upgradeInfo) h.upgradeInfo (c.upgradePolicy, businessError)
  · cases hrequest
    exact agrees_store (I := UpdateClient.Valid info) (fun (c : UpdateClient) newVersionInfo => { c with newVersionInfo })
      (fun c _ h => { h with })
      fun c businessError h => hkit (.getNewVersionInfo c.upgradeInfo) h.upgradeInfo (c.newVersionInfo, businessError)
  · rw [doWorker_request hrequest]
    exact agrees_store (I := UpdateClient.Valid info)
      (fun (c : UpdateClient) newVersionDescriptionInfo => { c with newVersionDescriptionInfo }) (fun c _ h => { h with })
      fun c businessError h => hkit (.getNewVersionDescription c.upgradeInfo c.versionDigestInfo c.descriptionOptions)
        ⟨h.upgradeInfo, h.versionDigest, h.description⟩ (c.newVersionDescriptionInfo, businessError)
  · cases hrequest
    exact agrees_store (I := UpdateClient.Valid info) (fun (c : UpdateClient) currentVersionInfo => { c with currentVersionInfo })
      (fun c _ h => { h with })
      fun c businessError h => hkit (.getCurrentVersionInfo c.upgradeInfo) h.upgradeInfo (c.currentVersionInfo, businessError)
  · rw [doWorker_request hrequest]
    exact agrees_store (I := UpdateClient.Valid info)
      (fun (c : UpdateClient) currentVersionDescriptionInfo => { c with currentVersionDescriptionInfo }) (fun c _ h => { h with })
      fun c businessError h => hkit (.getCurrentVersionDescription c.upgradeInfo c.descriptionOptions)
        ⟨h.upgradeInfo, h.description⟩ (c.currentVersionDescriptionInfo, businessError)
  · cases hrequest
    exact agrees_store (I := UpdateClient.Valid info) (fun (c : UpdateClient) taskInfo => { c with taskInfo })
      (fun c _ h => { h with })
      fun c businessError h => hkit (.getTaskInfo c.upgradeInfo) h.upgradeInfo (c.taskInfo, businessError)

end UpdateClient

/-! ## The methods of LocalUpdater -/

theorem isValidUpgradeFile_of_parseUpgradeFile {arg : Value} {upgradeFile : UpgradeFile}
    (h : parseUpgradeFile arg = (.CLIENT_SUCCESS, upgradeFile)) : isValidUpgradeFile upgradeFile.filePath = true := by
  unfold parseUpgradeFile at h
  dsimp only at h
  split_ifs at h with hobject htype hvalid
  · cases h
  · cases h
  · cases h
    exact hvalid
  · cases h

theorem isValidUpgradeFile_of_parseUpgradeFiles {l : List Value} {upgradeFiles : List UpgradeFile}
    (h : ∀ f ∈ upgradeFiles, isValidUpgradeFile f.filePath = true) :
    ∀ f ∈ (parseUpgradeFiles l upgradeFiles).2, isValidUpgradeFile f.filePath = true := by
  induction l generalizing upgradeFiles with
  | nil => exact h
  | cons element l ih =>
    unfold parseUpgradeFiles
    split
    · rename_i upgradeFile hparse
      refine ih fun f hf => ?_
      rcases List.mem_append.mp hf with hf | hf
      · exact h f hf
      · rw [List.mem_singleton.mp hf]
        exact isValidUpgradeFile_of_parseUpgradeFile hparse
    · exact h

theorem isValidUpgradeFile_of_getUpgradeFiles {arg : Value} :
    ∀ f ∈ (getUpgradeFiles arg).2, isValidUpgradeFile f.filePath = true := by
  unfold getUpgradeFiles
  split
  · simp
  · simp
  · exact isValidUpgradeFile_of_parseUpgradeFiles (by simp)

theorem agrees_paramErrorSession (callbackStartIndex : Nat) :
    Agrees (fun _ => True) kit kit' (paramErrorSession callbackStartIndex : Request Unit σ).doWorker :=
  agrees_ofRequest fun _ _ _ => rfl

theorem agrees_localMethods (hkit : AgreeOn LocalUpdater.ValidRequest kit kit') (m : Method Unit σ) (hm : m ∈ LocalUpdater.methods)
    (args : List Value) (request : Request Unit σ) (hrequest : (m args ()).2 = some request) :
    Agrees (fun _ => True) kit kit' request.doWorker := by
  simp only [LocalUpdater.methods, List.mem_cons, List.not_mem_nil, or_false] at hm
  rcases hm with rfl | rfl
  · unfold LocalUpdater.verifyUpgradePackage at hrequest
    dsimp only at hrequest
    split_ifs at hrequest
    split at hrequest
    · rename_i upgradeFile certsFile hfile hcerts
      cases hrequest
      have hshort : Short certsFile := by
        unfold NapiUtil.getStringValue at hcerts
        split at hcerts
        · cases hcerts
          exact utf8ByteSize_copied _
        · cases hcerts
      exact agrees_ofRequest fun _ businessError _ => hkit (.verifyUpgradePackage upgradeFile.filePath certsFile)
        ⟨isValidUpgradeFile_of_parseUpgradeFile hfile, hshort⟩ businessError
    · cases hrequest
      exact agrees_paramErrorSession 2
  · unfold LocalUpdater.applyNewVersion at hrequest
    dsimp only at hrequest
    split_ifs at hrequest
    split at hrequest
    · rename_i upgradeFile upgradeFiles hfiles
      cases hrequest
      have hvalid : isValidUpgradeFile upgradeFile.filePath = true :=
        @isValidUpgradeFile_of_getUpgradeFiles (argument args 0) upgradeFile (by simp [hfiles])
      exact agrees_ofRequest fun _ businessError _ =>
        hkit (.applyNewVersion { upgradeApp := "LocalUpgradeInfo" } LocalUpdater.MISC_FILE upgradeFile.filePath)
          ⟨rfl, rfl, hvalid⟩ businessError
    · cases hrequest
      exact agrees_paramErrorSession 1

end RequestsAux

open RequestsAux

/-- Whatever is called with whatever arguments, in whatever order: the requests of a client are of its own `UpgradeInfo`, name members of
the enumerations, and their texts fit the buffer. Two services that make the same of such requests cannot be told apart by any run. -/
theorem requests_valid {info : UpgradeInfo} {service : σ} {w : World UpdateClient σ}
    (hkit : AgreeOn (UpdateClient.ValidRequest info) kit kit')
    (h : Leads (World.step UpdateClient.updater kit) (fun _ a => a.uses UpdateClient.methods)
      (World.fresh service { upgradeInfo := info }) w) :
    Leads (World.step UpdateClient.updater kit') (fun _ a => a.uses UpdateClient.methods)
      (World.fresh service { upgradeInfo := info }) w := by
  have hc : Contained UpdateClient.updater (UpdateClient.Valid info) kit kit' UpdateClient.methods :=
    ⟨fun m hm args c h => valid_methods h m hm args, fun m hm args c request _ hrequest => agrees_methods hkit m hm args c request hrequest,
      fun _ _ h => { h with }⟩
  have hinit : UpdateClient.Valid info { upgradeInfo := info } := { valid_default with upgradeInfo := rfl }
  exact (leads_congr hc hinit h).1

/-- A service that refuses a download over a network that is none. -/
def refusing : IUpdateService Unit := { willing with
  download := fun _ _ options businessError =>
    pure (if options.allowNetwork ∈ ClientHelper.netTypeList then INT_CALL_SUCCESS else INT_PARAM_ERR, businessError) }

/-- A download over no network is asked for, and then one over all of them. -/
def twoDownloads : List (Action UpdateClient Unit) :=
  [.call UpdateClient.download [.object [], .object [("allowNetwork", .number 0), ("order", .number 1)]],
    .call UpdateClient.download [.object [], .object [("allowNetwork", .number 7), ("order", .number 1)]], .execute 1, .complete 1]

/-- Only the second is made a request of, which this service does not refuse either. -/
theorem requests_valid_downloads : ∃ w : World UpdateClient Unit, w.completed.length = 1 ∧
    Leads (World.step UpdateClient.updater refusing) (fun _ a => a.uses UpdateClient.methods) (World.fresh () { upgradeInfo := {} }) w := by
  have hagree : AgreeOn (UpdateClient.ValidRequest {}) willing refusing := by
    intro γ r hr out
    cases r with
    | download i digest options =>
      show pure (INT_CALL_SUCCESS, out) =
        pure (if options.allowNetwork ∈ ClientHelper.netTypeList then INT_CALL_SUCCESS else INT_PARAM_ERR, out)
      rw [if_pos hr.2.2.1]
    | _ => rfl
  have hfollows : (follow (World.step UpdateClient.updater willing) (fun _ _ => true) twoDownloads
      (World.fresh () { upgradeInfo := {} })).any (fun w => w.completed.length == 1) = true := by decide
  obtain ⟨w, hleads, hw⟩ := @Leads.exists_of_follow_all _ _ _ (fun _ a => a.uses UpdateClient.methods) _ _ _ (by
    simp [twoDownloads, Action.uses, UpdateClient.methods]) hfollows
  exact ⟨w, by simpa using hw, requests_valid hagree hleads⟩

/-- A local updater hands on no file that may not be a package. -/
theorem local_requests_valid {service : σ} {w : World Unit σ} (hkit : AgreeOn LocalUpdater.ValidRequest kit kit')
    (h : Leads (World.step IUpdater.plain kit) (fun _ a => a.uses LocalUpdater.methods) (World.fresh service ()) w) :
    Leads (World.step IUpdater.plain kit') (fun _ a => a.uses LocalUpdater.methods) (World.fresh service ()) w := by
  have hc : Contained IUpdater.plain (fun _ => True) kit kit' LocalUpdater.methods :=
    ⟨fun _ _ _ _ _ => trivial, fun m hm args _ request _ hrequest => agrees_localMethods hkit m hm args request hrequest,
      fun _ _ _ => trivial⟩
  exact (leads_congr hc trivial h).1

/-- A service that refuses a relative path. -/
def absolute : IUpdateService Unit := { willing with
  applyNewVersion := fun _ _ packageName businessError =>
    pure (if packageName.toList.head? = some '/' then INT_CALL_SUCCESS else INT_PARAM_ERR, businessError) }

/-- A file is named with blanks around it, and another one by a relative path. -/
def twoFiles : List (Action Unit Unit) :=
  [.call LocalUpdater.applyNewVersion [.array [.object [("fileType", .number 1), ("filePath", .string " /data/a.zip ")]]],
    .call LocalUpdater.applyNewVersion [.array [.object [("fileType", .number 1), ("filePath", .string "a.zip")]]],
    .execute 1, .execute 2, .complete 1, .complete 2]

/-- The first is made a request of, and the second is answered without one. -/
theorem local_requests_valid_files : ∃ w : World Unit Unit, w.completed.length = 2 ∧
    Leads (World.step IUpdater.plain absolute) (fun _ a => a.uses LocalUpdater.methods) (World.fresh () ()) w := by
  have hagree : AgreeOn LocalUpdater.ValidRequest willing absolute := by
    intro γ r hr out
    cases r with
    | applyNewVersion i miscFile packageName =>
      have hhead : packageName.toList.head? = some '/' := by
        have hvalid := hr.2.2
        simp only [ClientHelper.isValidUpgradeFile, Bool.and_eq_true, decide_eq_true_eq] at hvalid
        exact hvalid.1.1
      show pure (INT_CALL_SUCCESS, out) = pure (if packageName.toList.head? = some '/' then INT_CALL_SUCCESS else INT_PARAM_ERR, out)
      rw [if_pos hhead]
    | _ => rfl
  have hfollows : (follow (World.step IUpdater.plain willing) (fun _ _ => true) twoFiles (World.fresh () ())).any
      (fun w => w.completed.length == 2) = true := by decide
  obtain ⟨w, hleads, hw⟩ := @Leads.exists_of_follow_all _ _ _ (fun _ a => a.uses LocalUpdater.methods) _ _ _ (by
    simp [twoFiles, Action.uses, LocalUpdater.methods]) hfollows
  exact ⟨w, by simpa using hw, local_requests_valid hagree hleads⟩

end UpdateEngine.Ipc.Client
