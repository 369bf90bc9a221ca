import UpdateEngine.Firmware.Outline

/-!
# Which kinds of operations each function asks for

The texts of the threads are long, and most results are about few kinds of operations. Here is what each function may ask for, whatever
the answers are.
-/

namespace UpdateEngine

open Concurrent

/-- The kinds of operations. -/
inductive OpKind where
  /-- A table is read. -/
  | query
  /-- A table is read, and the thread goes where the row leads it. -/
  | choose
  /-- The task row gets a status. -/
  | record
  /-- The task row gets other columns. -/
  | option
  /-- Component rows are changed, by a report of a download or otherwise. -/
  | report | rows
  /-- Rows are added, the task table, the component table or the packages are cleared. -/
  | insert | drop | sweep | clean
  /-- Files are read, written or saved; the result of the updater is read. -/
  | read | write | save | judge
  /-- The preferences, the clients, the caller of a check. -/
  | prefer | publish | answer
  /-- The fields of the flow are read, assigned, or assigned so that the outline has to know. -/
  | getFlow | getStep | assign | steer
  /-- The flags of the network and of a cancel, and the network. -/
  | getNoNet | setNoNet | getCancel | setCancel | getNet | setNet | listen
  | cache
  | spawn | join | await
  /-- The environment is asked something, for a thread, or to install. -/
  | ask | create | handOver
  /-- A place is passed, and the outline need not know it, or has to. -/
  | mark | stage
  | reboot | terminate
  deriving DecidableEq

/-- The kind of an operation. -/
def Op.kind : Op → OpKind
  | .queryTasks c => match c with
    | .downloadMode | .installApplyMode _ | .hasUndoneTask | .stepAfterDownload | .handleBootComplete | .doClearError => .choose
    | _ => .query
  | .queryComponents c => match c with
    | .downloadExecutor | .installExecutor => .choose
    | _ => .query
  | .updateTasks _ _ u => match u with
    | .progress _ _ => .record
    | _ => .option
  | .updateComponents c _ => match c with
    | .downloadCallback => .report
    | _ => .rows
  | .insertTask _ | .insertComponents _ => .insert
  | .deleteTasks => .drop
  | .deleteComponents => .sweep
  | .deleteDownloadFiles => .clean
  | .readFile _ => .read
  | .readUpdaterResult => .judge
  | .openFile _ | .appendFile _ _ | .removeFile _ => .write
  | .saveDataToFile _ _ => .save
  | .getAutoDownloadSwitch | .getDueInitFlag | .setDueInitFlag _ | .saveString _ _ => .prefer
  | .publish _ => .publish
  | .onCheckVersionDone _ _ => .answer
  | .getFlow => .getFlow
  | .getNextStep => .getStep
  | .setFlow u => match u with
    | .nextStep _ | .components _ | .upgradeStatus _ | .wake _ _ | .taskProgress _ | .sysCallback _ => .steer
    | _ => .assign
  | .getIsNoNet => .getNoNet
  | .setIsNoNet _ => .setNoNet
  | .getIsCancel => .getCancel
  | .setIsCancel _ => .setCancel
  | .getNetType => .getNet
  | .setNetType _ => .setNet
  | .registerNetChangedListener | .hasNetChangedListener | .lockNetChange | .unlockNetChange => .listen
  | .getStatusCache | .setStatusCache _ _ => .cache
  | .spawn _ => .spawn
  | .join _ => .join
  | .awaitWake _ => .await
  | .ask q => match q with
    | .newThread => .create
    | .rebootAndInstallUpgradePackage _ => .handOver
    | _ => .ask
  | .enter m => match m with
    | .downloadThreadCallback _ | .handleInstallResult _ _ => .mark
    | _ => .stage
  | .reboot => .reboot
  | .terminate => .terminate

/-- The program asks for operations of these kinds only. -/
abbrev Kinds {α : Type} (l : List OpKind) (p : Prog α) : Prop := p.Uses fun o => l.contains o.kind

/-- A longer list allows more. -/
theorem Kinds.mono {α : Type} {l l' : List OpKind} {p : Prog α} (hp : Kinds l p) (hl : l.all l'.contains = true) :
    Kinds l' p := by
  refine Prog.Uses.mono (fun o ho => ?_) hp
  exact List.all_eq_true.mp hl o.kind (List.contains_iff_mem.mp ho)

/-- A sequence asks for what its parts ask for. -/
theorem Kinds.bind {α β : Type} {l m k : List OpKind} {p : Prog α} {f : α → Prog β} (hp : Kinds m p)
    (hf : ∀ a, Kinds k (f a)) (hm : m.all l.contains = true) (hk : k.all l.contains = true) :
    Kinds l (p >>= f) :=
  Prog.Uses.bind (hp.mono hm) fun a => (hf a).mono hk

namespace KindsAux

/-! ## Tables, files, events -/

theorem queryTask_kinds {c : Caller} {k : OpKind} (hc : Op.kind (.queryTasks c) = k) (t : FirmwareTask) :
    Kinds [k] (FirmwareTaskOperator.queryTask c t) := by
  subst hc
  refine ⟨by simp, fun l => ?_⟩
  cases l <;> trivial

theorem updateProgressByTaskId_kinds (c : Caller) (i : String) (s : UpgradeStatus) (p : Int32) :
    Kinds [.record] (FirmwareTaskOperator.updateProgressByTaskId c i s p) := by
  exact ⟨rfl, fun _ => trivial⟩

theorem updateProgressByUrl_kinds {c : Caller} {k : OpKind} {url : String} {s : UpgradeStatus} {p : Int32}
    (hc : Op.kind (.updateComponents c (.progressByUrl url s p)) = k) :
    Kinds [k] (FirmwareComponentOperator.updateProgressByUrl c url s p) := by
  subst hc
  exact ⟨by simp, fun _ => trivial⟩

theorem queryByVersionId_kinds (v : String) : Kinds [.query] (FirmwareComponentOperator.queryByVersionId .isVersionSameWithDb v) := by
  exact ⟨rfl, fun _ => trivial⟩

theorem isFileExist_kinds (p : String) : Kinds [.read] (FileUtils.isFileExist p) := by
  exact ⟨rfl, fun _ => trivial⟩

theorem getFileSize_kinds (p : String) : Kinds [.read] (FileUtils.getFileSize p) := by
  exact ⟨rfl, fun _ => trivial⟩

theorem isSpaceEnough_kinds (n : Int64) : Kinds [.ask] (FileUtils.isSpaceEnough n) := by
  exact ⟨rfl, fun _ => trivial⟩

theorem getLocalFileLength_kinds (p : String) : Kinds [.read] (DownloadThread.getLocalFileLength p) := by
  unfold DownloadThread.getLocalFileLength
  split
  · trivial
  · exact ⟨rfl, fun _ => trivial⟩

theorem getFileSha256Str_kinds (P : Platform) (fileName : String) :
    Kinds [.read] (Sha256Utils.getFileSha256Str P fileName) := by
  refine ⟨rfl, fun content => ?_⟩
  cases content <;> trivial

theorem checkFileSha256String_kinds (P : Platform) (fileName sha256String : String) :
    Kinds [.read, .stage] (Sha256Utils.checkFileSha256String P fileName sha256String) := by
  refine Kinds.bind (isFileExist_kinds _) (k := [.read, .stage]) (fun b => ?_) rfl rfl
  cases b with
  | false => trivial
  | true =>
    refine Kinds.bind (getFileSha256Str_kinds P fileName) (k := [.stage]) (fun x => ?_) rfl rfl
    obtain ⟨digest, content⟩ := x
    dsimp only
    split
    · trivial
    · cases content with
      | none => trivial
      | some w => exact ⟨rfl, fun _ => trivial⟩

theorem clearFirmwareInfo_kinds : Kinds [.query, .drop, .sweep, .clean] FirmwareUpdateHelper.clearFirmwareInfo := by
  refine Kinds.bind (queryTask_kinds rfl _) (k := [.drop, .sweep, .clean]) (fun t => ?_) rfl rfl
  exact ⟨rfl, fun _ => ⟨rfl, fun _ => ⟨rfl, fun _ => trivial⟩⟩⟩

theorem isUpgradePackagesReady_kinds (l : List FirmwareComponent) :
    Kinds [.read] (FirmwareUpdateHelper.isUpgradePackagesReady l) := by
  unfold FirmwareUpdateHelper.isUpgradePackagesReady
  split
  · trivial
  · refine Prog.uses_allM l _ fun c _ => Prog.Uses.bind (isFileExist_kinds _) fun b => ?_
    cases b with
    | false => trivial
    | true => exact Prog.Uses.bind (getFileSize_kinds _) fun _ => trivial

theorem notifyEvent_kinds (d : String) (e : EventId) (s : UpgradeStatus) (m : ErrorMessage) (l : List VersionComponent) :
    Kinds [.publish] (notifyEvent d e s m l) := by
  exact ⟨rfl, fun _ => trivial⟩

theorem progressCallback_kinds (d : String) (p : Progress) : Kinds [.publish] (progressCallback d p) := by
  exact ⟨rfl, fun _ => trivial⟩

theorem isNetAvailable_kinds (m : NetType) : Kinds [.getNet] (isNetAvailable m) := by
  exact ⟨rfl, fun _ => trivial⟩

/-! ## The server's answer -/

theorem analyzeComponents_kinds (P : Platform) (root : Json) :
    Kinds [.save] (FirmwareCheckAnalyzeUtils.analyzeComponents P root) := by
  unfold FirmwareCheckAnalyzeUtils.analyzeComponents
  split
  · trivial
  · split
    · trivial
    · exact Prog.Uses.bind (Prog.uses_forM _ _ fun info _ => ⟨rfl, fun _ => trivial⟩) fun _ => trivial

theorem doAnalyze_kinds (P : Platform) (text : String) :
    Kinds [.save, .terminate] (FirmwareCheckAnalyzeUtils.doAnalyze P text) := by
  unfold FirmwareCheckAnalyzeUtils.doAnalyze
  cases JsonUtils.parseAndGetJsonObject P text with
  | none => trivial
  | some root =>
    dsimp only
    split
    · trivial
    · split
      · cases FirmwareCheckAnalyzeUtils.analyzeBlVersionCheckResults root with
        | none => exact ⟨rfl, fun _ => trivial⟩
        | some ret => exact Kinds.bind (analyzeComponents_kinds P root) (k := []) (fun _ => trivial) rfl rfl
      · trivial

theorem readDataFromSSL_kinds (P : Platform) : Kinds [.ask] (FirmwareICheck.readDataFromSSL P) := by
  exact ⟨rfl, fun _ => trivial⟩

theorem doAction_kinds (P : Platform) : Kinds [.ask, .save, .terminate] (FirmwareICheck.doAction P) := by
  refine ⟨rfl, fun b => ?_⟩
  cases b with
  | false => trivial
  | true =>
    show Kinds _ (FirmwareICheck.readDataFromSSL P >>= _)
    refine Kinds.bind (readDataFromSSL_kinds P) (k := [.save, .terminate]) (fun text => ?_) rfl rfl
    cases text with
    | none => trivial
    | some content => exact Kinds.bind (doAnalyze_kinds P content) (k := []) (fun _ => trivial) rfl rfl

/-! ## Checks -/

theorem isChecking_kinds : Kinds [.cache, .ask] FirmwareStatusCache.isChecking := by
  refine ⟨rfl, fun x => ?_⟩
  show Kinds _ (if x.2 ≠ -1 then _ else _)
  split
  · refine ⟨rfl, fun now => ?_⟩
    show Kinds _ (if 300 < (now - x.2).natAbs then _ else _)
    split <;> trivial
  · trivial

theorem setIsChecking_kinds (b : Bool) : Kinds [.cache, .ask] (FirmwareStatusCache.setIsChecking b) := by
  cases b <;> exact ⟨rfl, fun _ => ⟨rfl, fun _ => trivial⟩⟩

theorem isUpdateOnStatus_kinds : Kinds [.query] FirmwareCheckDataProcessor.isUpdateOnStatus :=
  Kinds.bind (queryTask_kinds rfl _) (k := []) (fun _ => trivial) rfl rfl

theorem hasUndoneTask_kinds : Kinds [.choose] FirmwareCheckDataProcessor.hasUndoneTask :=
  Kinds.bind (queryTask_kinds rfl _) (k := []) (fun _ => trivial) rfl rfl

theorem isVersionSameWithDb_kinds (l : List FirmwareComponent) :
    Kinds [.query] (FirmwareCheckDataProcessor.isVersionSameWithDb l) := by
  refine ⟨rfl, fun rows => ?_⟩
  show Kinds _ (if rows.length ≠ l.length then _ else _)
  split
  · trivial
  · exact Prog.uses_allM l _ fun c _ => Prog.Uses.bind (queryByVersionId_kinds _) fun _ => trivial

theorem updateFirmwareComponent_kinds (l : List FirmwareComponent) :
    Kinds [.query, .rows] (FirmwareCheckDataProcessor.updateFirmwareComponent l) := by
  refine Kinds.bind (queryTask_kinds rfl _) (k := [.rows]) (fun t => ?_) rfl rfl
  split
  · trivial
  · split
    · trivial
    · exact Prog.uses_forM l _ fun c _ => ⟨rfl, fun _ => trivial⟩

theorem handleNewVersion_kinds (P : Platform) (l : List FirmwareComponent) :
    Kinds [.query, .assign, .rows, .drop, .sweep, .clean, .insert] (FirmwareCheckDataProcessor.handleNewVersion P l) := by
  refine Kinds.bind (isVersionSameWithDb_kinds l) (k := [.query, .assign, .rows, .drop, .sweep, .clean, .insert]) (fun same => ?_) rfl rfl
  refine ⟨rfl, fun _ => ?_⟩
  cases same with
  | true => exact (updateFirmwareComponent_kinds l).mono rfl
  | false =>
    show Kinds _ (FirmwareUpdateHelper.clearFirmwareInfo >>= _)
    refine Kinds.bind clearFirmwareInfo_kinds (k := [.assign, .insert]) (fun _ => ?_) rfl rfl
    exact ⟨rfl, fun _ => ⟨rfl, fun _ => ⟨rfl, fun _ => trivial⟩⟩⟩

theorem handleNoNewVersion_kinds :
    Kinds [.query, .publish, .drop, .sweep, .clean] FirmwareCheckDataProcessor.handleNoNewVersion := by
  refine Kinds.bind (queryTask_kinds rfl _) (k := [.query, .publish, .drop, .sweep, .clean]) (fun t => ?_) rfl rfl
  split
  · exact Kinds.bind (notifyEvent_kinds ..) (fun _ => clearFirmwareInfo_kinds) rfl rfl
  · exact clearFirmwareInfo_kinds.mono rfl

/-- What processing a check result asks for. -/
abbrev checkKinds : List OpKind :=
  [.choose, .query, .assign, .getFlow, .rows, .drop, .sweep, .clean, .insert, .publish, .stage]

theorem handleCheckResult_kinds (P : Platform) (l : List FirmwareComponent) :
    Kinds checkKinds (FirmwareCheckDataProcessor.handleCheckResult P l) := by
  refine Kinds.bind hasUndoneTask_kinds (k := checkKinds) (fun b => ?_) rfl rfl
  cases b with
  | true => trivial
  | false =>
    show Kinds _ (if l.isEmpty = true then _ else _)
    split
    · exact Kinds.bind handleNoNewVersion_kinds (k := [.stage]) (fun _ => ⟨rfl, fun _ => trivial⟩) rfl rfl
    · exact Kinds.bind (handleNewVersion_kinds P l) (k := [.stage]) (fun _ => ⟨rfl, fun _ => trivial⟩) rfl rfl

theorem setCheckResult_kinds (P : Platform) (status : CheckStatus) (l : List FirmwareComponent) :
    Kinds checkKinds (FirmwareCheckDataProcessor.setCheckResult P status l) := by
  refine ⟨rfl, fun _ => ⟨rfl, fun w => ?_⟩⟩
  show Kinds _ (if FirmwareCheckDataProcessor.isCheckFailed w = true then _ else _)
  split
  · trivial
  · exact handleCheckResult_kinds P l

theorem buildCheckResult_kinds (P : Platform) (w : Flow) : Kinds [.query] (FirmwareCheckDataProcessor.buildCheckResult P w) := by
  unfold FirmwareCheckDataProcessor.buildCheckResult
  split
  · trivial
  · refine ⟨rfl, fun rows => ?_⟩
    show Kinds _ (if rows.isEmpty = true then _ else _)
    split <;> trivial

theorem checkStepAfterInit_kinds :
    Kinds [.cache, .ask, .query, .assign, .getNet] FirmwareManualCheckMode.getStepAfterInit := by
  refine Kinds.bind isChecking_kinds (k := [.query, .assign, .getNet]) (fun b => ?_) rfl rfl
  cases b with
  | true => exact ⟨rfl, fun _ => ⟨rfl, fun _ => trivial⟩⟩
  | false =>
    refine Kinds.bind isUpdateOnStatus_kinds (k := [.assign, .getNet]) (fun b => ?_) rfl rfl
    cases b with
    | true => exact ⟨rfl, fun _ => ⟨rfl, fun _ => trivial⟩⟩
    | false =>
      refine Kinds.bind (isNetAvailable_kinds _) (k := [.assign]) (fun b => ?_) rfl rfl
      cases b with
      | true => trivial
      | false => exact ⟨rfl, fun _ => ⟨rfl, fun _ => trivial⟩⟩

theorem stepAfterCheck_kinds : Kinds [.getFlow, .query, .publish, .prefer] FirmwareManualCheckMode.getStepAfterCheck := by
  refine ⟨rfl, fun w => ?_⟩
  show Kinds _ (if (_ : Bool) = true then _ else _)
  split
  · trivial
  · refine Kinds.bind (queryTask_kinds rfl _) (k := [.publish, .prefer]) (fun t => ?_) rfl rfl
    split
    · refine Kinds.bind (notifyEvent_kinds ..) (k := [.publish, .prefer]) (fun _ => ⟨rfl, fun b => ?_⟩) rfl rfl
      cases b with
      | true => trivial
      | false =>
        show Kinds _ (notifyEvent _ _ _ _ _ >>= _)
        exact Kinds.bind (notifyEvent_kinds ..) (k := []) (fun _ => trivial) rfl rfl
    · trivial

theorem checkComplete_kinds (P : Platform) : Kinds [.getFlow, .query, .answer] (FirmwareManualCheckMode.handleComplete P) := by
  simp only [FirmwareManualCheckMode.handleComplete, Prog.perform_bind, Prog.uses_op]
  exact ⟨rfl, fun w => Kinds.bind (buildCheckResult_kinds P w) (k := [.answer]) (fun _ => ⟨rfl, fun _ => trivial⟩) rfl rfl⟩

/-! ## Downloads -/

theorem requireTotalSize_kinds : Kinds [.query, .ask] FirmwareDownloadDataProcessor.isSpaceEnough := by
  simp only [FirmwareDownloadDataProcessor.isSpaceEnough, Prog.perform_bind, Prog.uses_op]
  exact ⟨rfl, fun l => Kinds.bind (isSpaceEnough_kinds _) (k := []) (fun _ => trivial) rfl rfl⟩

theorem setDownloadProgress_kinds (p : Progress) :
    Kinds [.assign, .getFlow, .query, .publish] (FirmwareDownloadDataProcessor.setDownloadProgress p) := by
  refine ⟨rfl, fun _ => ⟨rfl, fun w => ?_⟩⟩
  show Kinds _ (if (!w.processorTasks.isExistTask) = true then _ else _)
  split
  · refine Kinds.bind (queryTask_kinds rfl _) (k := [.assign, .getFlow, .publish]) (fun t => ⟨rfl, fun _ => ⟨rfl, fun w => ?_⟩⟩) rfl rfl
    exact (progressCallback_kinds ..).mono rfl
  · exact ⟨rfl, fun w => (progressCallback_kinds ..).mono rfl⟩

theorem downloadStepAfterInit_kinds :
    Kinds [.choose, .assign, .getNet, .query, .ask] FirmwareDownloadMode.getStepAfterInit := by
  refine Kinds.bind (queryTask_kinds rfl _) (k := [.assign, .getNet, .query, .ask]) (fun t => ?_) rfl rfl
  split
  · exact ⟨rfl, fun _ => trivial⟩
  · split
    · exact ⟨rfl, fun _ => trivial⟩
    · split
      · exact ⟨rfl, fun _ => ⟨rfl, fun _ => trivial⟩⟩
      · refine Kinds.bind (isNetAvailable_kinds _) (k := [.assign, .query, .ask]) (fun b => ?_) rfl rfl
        cases b with
        | false => exact ⟨rfl, fun _ => ⟨rfl, fun _ => trivial⟩⟩
        | true =>
          refine Kinds.bind requireTotalSize_kinds (k := [.assign]) (fun x => ?_) rfl rfl
          obtain ⟨enough, required⟩ := x
          cases enough with
          | false => exact ⟨rfl, fun _ => ⟨rfl, fun _ => trivial⟩⟩
          | true => trivial

theorem downloadCancelProcess_kinds (t : FirmwareTask) (e : ErrorMessage) :
    Kinds [.publish, .record, .query, .rows, .option, .clean] (FirmwareDownloadMode.downloadCancelProcess t e) := by
  have hloop (rows : List FirmwareComponent) : Kinds [.rows] (rows.forM fun c =>
      FirmwareComponentOperator.updateProgressByUrl .stepAfterDownload c.url .checkVersionSuccess 0) :=
    Prog.uses_forM _ _ fun c _ => updateProgressByUrl_kinds rfl
  refine Kinds.bind (notifyEvent_kinds ..) (k := [.record, .query, .rows, .option, .clean]) (fun _ => ?_) rfl rfl
  refine ⟨rfl, fun _ => ⟨rfl, fun rows => ?_⟩⟩
  show Kinds _ (List.forM rows _ >>= _)
  exact Kinds.bind (hloop rows) (k := [.option, .clean]) (fun _ => ⟨rfl, fun _ => ⟨rfl, fun _ => trivial⟩⟩) rfl rfl

theorem processStatus_kinds (t : FirmwareTask) (e : ErrorMessage) :
    Kinds [.publish, .record, .query, .rows, .option, .drop, .sweep, .clean] (FirmwareDownloadMode.processStatus t e) := by
  unfold FirmwareDownloadMode.processStatus
  split
  · exact (notifyEvent_kinds ..).mono rfl
  · exact Kinds.bind (notifyEvent_kinds ..) (fun _ => clearFirmwareInfo_kinds) rfl rfl
  · exact (downloadCancelProcess_kinds t e).mono rfl
  · exact (notifyEvent_kinds ..).mono rfl
  · trivial

/-- What the end of a download asks for. -/
abbrev downloadKinds : List OpKind :=
  [.choose, .getFlow, .terminate, .publish, .record, .query, .rows, .option, .drop, .sweep, .clean]

theorem stepAfterDownload_kinds : Kinds downloadKinds FirmwareDownloadMode.getStepAfterDownload := by
  have hend (t : FirmwareTask) (e : ErrorMessage) :
      Kinds downloadKinds (FirmwareDownloadMode.processStatus t e >>= fun _ => .ret FirmwareStep.complete) :=
    Kinds.bind (processStatus_kinds t e) (k := []) (fun _ => trivial) rfl rfl
  refine Kinds.bind (queryTask_kinds rfl _) (k := downloadKinds) (fun t => ?_) rfl rfl
  simp only [Prog.perform_bind]
  split
  · trivial
  · refine ⟨rfl, fun w => ?_⟩
    dsimp only
    split
    · cases stoi w.downloadProgress.endReason with
      | some c => exact hend t _
      | none => exact ⟨rfl, fun _ => trivial⟩
    · exact hend t _

/-! ## Installations -/

theorem installSpaceEnough_kinds (P : Platform) : Kinds [.query, .ask] (FirmwareInstallDataProcessor.isSpaceEnough P) := by
  simp only [FirmwareInstallDataProcessor.isSpaceEnough, Prog.perform_bind, Prog.uses_op]
  exact ⟨rfl, fun l => Kinds.bind (isSpaceEnough_kinds _) (k := []) (fun _ => trivial) rfl rfl⟩

theorem hasInstallSuccess_kinds : Kinds [.getFlow, .query, .assign] FirmwareInstallDataProcessor.hasInstallSuccess := by
  simp only [FirmwareInstallDataProcessor.hasInstallSuccess, Prog.perform_bind, Prog.uses_op]
  exact ⟨rfl, fun w => Kinds.bind (queryTask_kinds rfl _) (k := [.assign]) (fun t => ⟨rfl, fun _ => trivial⟩) rfl rfl⟩

theorem setInstallResult_kinds (i : InstallCallbackInfo) :
    Kinds [.getFlow, .query, .assign, .publish] (FirmwareInstallDataProcessor.setInstallResult i) := by
  have hend : Kinds [.getFlow, .publish] (call .getFlow >>= fun w =>
      if i.progress.status = .updateFail || i.progress.status = .installFail then
        notifyEvent w.processorTasks.taskId .upgradeFail i.progress.status i.errorMessage
      else progressCallback w.processorTasks.taskId i.progress) := by
    refine ⟨rfl, fun w => ?_⟩
    dsimp only
    split
    · exact (notifyEvent_kinds ..).mono rfl
    · exact (progressCallback_kinds ..).mono rfl
  refine ⟨rfl, fun w => ?_⟩
  show Kinds _ (if (!w.processorTasks.isExistTask) = true then _ else _)
  split
  · exact Kinds.bind (queryTask_kinds rfl _) (k := [.assign, .getFlow, .publish]) (fun t => ⟨rfl, fun _ => hend.mono rfl⟩) rfl rfl
  · exact hend.mono rfl

theorem isUpgradeFileCheckSuccess_kinds : Kinds [.query, .read] FirmwareInstallDataProcessor.isUpgradeFileCheckSuccess := by
  exact ⟨rfl, fun l => (isUpgradePackagesReady_kinds l).mono rfl⟩

theorem isAllowInstall_kinds (P : Platform) : Kinds [.query, .ask, .assign] (FirmwareInstallApplyMode.isAllowInstall P) := by
  refine Kinds.bind (installSpaceEnough_kinds P) (k := [.assign]) (fun x => ?_) rfl rfl
  obtain ⟨enough, required⟩ := x
  cases enough with
  | true => trivial
  | false => exact ⟨rfl, fun _ => ⟨rfl, fun _ => trivial⟩⟩

theorem isUpgradeFilesReady_kinds :
    Kinds [.query, .read, .assign, .drop, .sweep, .clean] FirmwareInstallApplyMode.isUpgradeFilesReady := by
  refine Kinds.bind isUpgradeFileCheckSuccess_kinds (k := [.query, .assign, .drop, .sweep, .clean]) (fun b => ?_) rfl rfl
  cases b with
  | true => trivial
  | false =>
    refine ⟨rfl, fun _ => ⟨rfl, fun _ => ?_⟩⟩
    show Kinds _ (FirmwareUpdateHelper.clearFirmwareInfo >>= _)
    exact Kinds.bind clearFirmwareInfo_kinds (k := []) (fun _ => trivial) rfl rfl

theorem installStepAfterInit_kinds (P : Platform) (o : UpgradeOptions) :
    Kinds [.choose, .query, .read, .ask, .assign, .drop, .sweep, .clean] (FirmwareInstallApplyMode.getStepAfterInit P o) := by
  have hinstall (t : FirmwareTask) : Kinds [.query, .read, .ask, .assign, .drop, .sweep, .clean]
      (FirmwareInstallApplyMode.getStepForInstallAndApplyOrder P t) := by
    unfold FirmwareInstallApplyMode.getStepForInstallAndApplyOrder
    split
    · exact ⟨rfl, fun _ => trivial⟩
    · refine Kinds.bind (isAllowInstall_kinds P) (k := [.query, .read, .assign, .drop, .sweep, .clean]) (fun b => ?_) rfl rfl
      cases b with
      | false => trivial
      | true =>
        refine Kinds.bind isUpgradeFilesReady_kinds (k := []) (fun b => ?_) rfl rfl
        cases b <;> trivial
  have hread : Op.kind (.queryTasks (.installApplyMode o.order)) = .choose := rfl
  refine Kinds.bind (queryTask_kinds hread _) (k := [.query, .read, .ask, .assign, .drop, .sweep, .clean]) (fun t => ?_) rfl rfl
  split
  · exact ⟨rfl, fun _ => trivial⟩
  · split
    · exact hinstall t
    · split
      · trivial
      · exact ⟨rfl, fun _ => trivial⟩

theorem stepAfterInstall_kinds :
    Kinds [.getFlow, .query, .assign, .drop, .sweep, .clean] FirmwareInstallApplyMode.getStepAfterInstall := by
  refine Kinds.bind hasInstallSuccess_kinds (k := [.query, .drop, .sweep, .clean]) (fun b => ?_) rfl rfl
  cases b with
  | true => trivial
  | false => exact Kinds.bind clearFirmwareInfo_kinds (k := []) (fun _ => trivial) rfl rfl

theorem waitInstallResult_kinds (polls : Nat) : Kinds [.getFlow] (SysInstallerInstall.waitInstallResult polls) := by
  induction polls with
  | zero => trivial
  | succ polls ih =>
    refine ⟨rfl, fun w => ?_⟩
    show Kinds _ (if w.sysInstallProgress.status = .installFail then _ else _)
    split
    · trivial
    · split
      · trivial
      · exact ih

theorem updaterInstall_kinds (taskId : String) (l : List FirmwareComponent) :
    Kinds [.publish, .handOver, .assign] (UpdaterInstall.performInstall taskId l) := by
  refine Kinds.bind (notifyEvent_kinds ..) (k := [.handOver, .assign]) (fun _ => ⟨rfl, fun b => ?_⟩) rfl rfl
  cases b with
  | true => trivial
  | false => exact ⟨rfl, fun _ => trivial⟩

/-! ## Requests, the network, the start -/

theorem isAbnormal_kinds : Kinds [.getNoNet, .getCancel] DownloadThread.isAbnormal := by
  refine ⟨rfl, fun b => ?_⟩
  cases b with
  | true => trivial
  | false => exact ⟨rfl, fun _ => trivial⟩

theorem canInstall_kinds (P : Platform) : Kinds [.query] (FirmwareManager.canInstall P) :=
  Kinds.bind (queryTask_kinds rfl _) (k := []) (fun _ => trivial) rfl rfl

theorem cancel_kinds : Kinds [.query, .assign, .setCancel] UpdateServiceImplFirmware.cancel := by
  refine Kinds.bind (queryTask_kinds rfl _) (k := [.query, .assign, .setCancel]) (fun t => ?_) rfl rfl
  split
  · exact ⟨rfl, fun _ => trivial⟩
  · refine Kinds.bind (queryTask_kinds rfl _) (k := [.assign, .setCancel]) (fun t => ?_) rfl rfl
    split
    · exact ⟨rfl, fun _ => ⟨rfl, fun _ => trivial⟩⟩
    · exact ⟨rfl, fun _ => trivial⟩

theorem handleNetChanged_kinds : Kinds [.getNet, .setNoNet, .query, .prefer] FirmwareManager.handleNetChanged := by
  refine Kinds.bind (isNetAvailable_kinds _) (k := [.getNet, .setNoNet, .query, .prefer]) (fun b => ?_) rfl rfl
  cases b with
  | false => exact ⟨rfl, fun _ => trivial⟩
  | true =>
    refine ⟨rfl, fun _ => ?_⟩
    show Kinds _ (FirmwareTaskOperator.queryTask .handleNetChanged {} >>= _)
    refine Kinds.bind (queryTask_kinds rfl _) (k := [.getNet, .prefer]) (fun t => ?_) rfl rfl
    refine Kinds.bind (isNetAvailable_kinds _) (k := [.prefer]) (fun b => ?_) rfl rfl
    cases b with
    | false => trivial
    | true =>
      show Kinds _ (if t.status = .checkVersionSuccess then _ else _)
      split
      · exact ⟨rfl, fun _ => trivial⟩
      · trivial

theorem onNetChange_kinds (P : Platform) (t : NetType) :
    Kinds [.getNet, .setNet, .listen, .setNoNet, .query, .prefer] (NetManager.onNetChange P t) := by
  unfold NetManager.onNetChange
  split
  · refine ⟨rfl, fun u => ?_⟩
    show Kinds _ (if t ≠ u then _ else _)
    split
    · refine ⟨rfl, fun _ => ⟨rfl, fun _ => ⟨rfl, fun b => ?_⟩⟩⟩
      cases b with
      | false => exact ⟨rfl, fun _ => trivial⟩
      | true =>
        show Kinds _ (FirmwareManager.handleNetChanged >>= _)
        exact Kinds.bind handleNetChanged_kinds (k := [.listen]) (fun _ => ⟨rfl, fun _ => trivial⟩) rfl rfl
    · trivial
  · trivial

theorem getUpdaterResult_kinds (P : Platform) (l : List FirmwareComponent) :
    Kinds [.judge, .query] (FirmwareResultProcess.getUpdaterResult P l) := by
  have hresults (m : UpdateResults) : Kinds [.query] (FirmwareResultProcess.handleFileResults P m l) := by
    refine Kinds.bind (queryTask_kinds rfl _) (k := []) (fun t => ?_) rfl rfl
    split
    · trivial
    · dsimp only
      split
      · trivial
      · split <;> trivial
  unfold FirmwareResultProcess.getUpdaterResult
  split
  · trivial
  · exact ⟨rfl, fun infile => (hresults _).mono rfl⟩

theorem saveHotaCurrentVersionComponentId_kinds :
    Kinds [.query, .prefer] FirmwareManager.saveHotaCurrentVersionComponentId := by
  unfold FirmwareManager.saveHotaCurrentVersionComponentId
  refine ⟨rfl, fun l => ?_⟩
  dsimp only [Prog.bind]
  split
  · exact ⟨rfl, fun _ => trivial⟩
  · trivial

theorem notifyInitEvent_kinds : Kinds [.prefer, .publish] FirmwareManager.notifyInitEvent := by
  refine ⟨rfl, fun b => ?_⟩
  cases b with
  | true => trivial
  | false => exact ⟨rfl, fun _ => (notifyEvent_kinds ..).mono rfl⟩

/-! ## Flows -/

/-- What the steps of each mode ask for, besides what their executors do. -/
def stepKinds : Mode → List OpKind
  | .manualCheck => [.cache, .ask, .query, .assign, .getNet, .getFlow, .publish, .prefer]
  | .download _ => [.assign, .getNet, .ask] ++ downloadKinds
  | .installApply _ _ => [.choose, .query, .read, .ask, .assign, .drop, .sweep, .clean, .getFlow]

theorem getNextStep_kinds (P : Platform) (mode : Mode) (step : FirmwareStep) :
    Kinds (stepKinds mode) (getNextStep P mode step) := by
  unfold getNextStep
  split
  · exact checkStepAfterInit_kinds.mono rfl
  · exact stepAfterCheck_kinds.mono rfl
  · exact downloadStepAfterInit_kinds.mono rfl
  · exact stepAfterDownload_kinds.mono rfl
  · exact (installStepAfterInit_kinds P _).mono rfl
  · exact stepAfterInstall_kinds.mono rfl
  · trivial

/-- What `FirmwareFlowManager::Execute` asks for. -/
abbrev executeKinds (mode : Mode) : List OpKind := [.getStep, .steer, .stage, .query, .answer, .cache, .ask, .spawn] ++ stepKinds mode

theorem execute_kinds (P : Platform) (f : Nat) (mode : Mode) : Kinds (executeKinds mode) (FirmwareFlowManager.execute P f mode) := by
  have hend (s : FirmwareStep) : Kinds [.stage, .getFlow, .query, .answer, .cache, .ask, .spawn]
      (if s = .complete then handleComplete P mode else FirmwareFlowManager.createInstance f mode s) := by
    split
    · refine ⟨rfl, fun _ => ?_⟩
      cases mode with
      | manualCheck => exact (checkComplete_kinds P).mono rfl
      | _ => trivial
    · unfold FirmwareFlowManager.createInstance
      split
      · exact Kinds.bind (setIsChecking_kinds true) (k := [.spawn]) (fun _ => ⟨rfl, fun _ => trivial⟩) rfl rfl
      · exact ⟨rfl, fun _ => trivial⟩
      · exact ⟨rfl, fun _ => trivial⟩
      · exact ⟨rfl, fun _ => trivial⟩
      · trivial
  simp only [FirmwareFlowManager.execute, Prog.perform_bind, Prog.uses_op]
  refine ⟨rfl, fun step => ?_⟩
  cases mode <;>
    exact Kinds.bind (getNextStep_kinds P _ step) (k := [.steer, .stage, .getFlow, .query, .answer, .cache, .ask, .spawn])
      (fun s => ⟨rfl, fun _ => (hend s).mono rfl⟩) (by rfl) (by rfl)

/-! ## The work after a start -/

/-- What a flow that installs asks for. -/
abbrev installKinds : List OpKind := [.getStep, .steer, .stage, .query, .answer, .cache, .ask, .spawn, .choose, .read, .assign,
  .drop, .sweep, .clean, .getFlow]

theorem handleBootInstallOnStatusProcess_kinds (P : Platform) (f : Nat) (task : FirmwareTask) :
    Kinds ([.record, .rows] ++ installKinds) (FirmwareManager.handleBootInstallOnStatusProcess P f task) := by
  refine ⟨rfl, fun _ => ⟨rfl, fun components => ?_⟩⟩
  have hloop : Kinds [.rows] (components.forM fun component =>
      if component.status = UpgradeStatus.installing then
        FirmwareComponentOperator.updateProgressByUrl .restoreUpdate component.url .downloadSuccess 100
      else pure ()) := by
    refine Prog.uses_forM _ _ fun c _ => ?_
    split
    · exact updateProgressByUrl_kinds rfl
    · trivial
  have hinstall : Kinds installKinds (FirmwareManager.doInstall P f { order := .installAndApply } .sysInstaller) := by
    refine Kinds.bind (canInstall_kinds P) (k := installKinds) (fun b => ?_) rfl rfl
    cases b with
    | false => trivial
    | true => exact (execute_kinds P f (.installApply { order := .installAndApply } .sysInstaller)).mono rfl
  show Kinds _ (List.forM components _ >>= _)
  exact Kinds.bind hloop (k := installKinds) (fun _ => hinstall) rfl rfl

theorem restoreUpdate_kinds (P : Platform) (f : Nat) :
    Kinds ([.record, .rows] ++ installKinds) (FirmwareManager.restoreUpdate P f) := by
  refine Kinds.bind (queryTask_kinds rfl _) (k := [.record, .rows] ++ installKinds) (fun t => ?_) rfl rfl
  split
  · exact clearFirmwareInfo_kinds.mono rfl
  · exact clearFirmwareInfo_kinds.mono rfl
  · exact handleBootInstallOnStatusProcess_kinds P f t
  · exact handleBootInstallOnStatusProcess_kinds P f t
  · trivial

theorem handleBootUpdateSuccess_kinds (task : FirmwareTask) :
    Kinds [.query, .prefer, .publish, .drop, .sweep, .clean] (FirmwareManager.handleBootUpdateSuccess task) := by
  refine ⟨rfl, fun _ => ⟨rfl, fun components => ?_⟩⟩
  show Kinds _ (FirmwareManager.saveHotaCurrentVersionComponentId >>= _)
  refine Kinds.bind saveHotaCurrentVersionComponentId_kinds (k := [.query, .publish, .drop, .sweep, .clean]) (fun _ => ?_)
    rfl rfl
  split
  · exact Kinds.bind (notifyEvent_kinds ..) (fun _ => clearFirmwareInfo_kinds) rfl rfl
  · trivial

theorem handleBootUpdateFail_kinds (task : FirmwareTask) (resultMap : UpdateResults) :
    Kinds [.query, .prefer, .publish, .drop, .sweep, .clean] (FirmwareManager.handleBootUpdateFail task resultMap) := by
  refine ⟨rfl, fun _ => ⟨rfl, fun components => ?_⟩⟩
  show Kinds _ (notifyEvent _ _ _ _ _ >>= _)
  exact Kinds.bind (notifyEvent_kinds ..) (fun _ => clearFirmwareInfo_kinds) rfl rfl

theorem handleBootUpdateOnStatusProcess_kinds (P : Platform) (task : FirmwareTask) :
    Kinds [.query, .judge, .prefer, .publish, .drop, .sweep, .clean]
      (FirmwareManager.handleBootUpdateOnStatusProcess P task) := by
  refine ⟨rfl, fun rows => ?_⟩
  show Kinds _ (FirmwareResultProcess.getUpdaterResult P rows >>= _)
  refine Kinds.bind (getUpdaterResult_kinds P rows) (k := [.query, .prefer, .publish, .drop, .sweep, .clean]) (fun x => ?_) rfl rfl
  obtain ⟨code, resultMap⟩ := x
  cases code with
  | success => exact handleBootUpdateSuccess_kinds task
  | failure => exact handleBootUpdateFail_kinds task resultMap
  | partSuccess => trivial

theorem handleBootComplete_kinds (P : Platform) :
    Kinds [.choose, .query, .judge, .prefer, .publish, .drop, .sweep, .clean] (FirmwareManager.handleBootComplete P) := by
  refine Kinds.bind (queryTask_kinds rfl _) (k := [.query, .judge, .prefer, .publish, .drop, .sweep, .clean]) (fun t => ?_) rfl rfl
  split
  · trivial
  · split
    · exact handleBootUpdateOnStatusProcess_kinds P t
    · trivial

theorem onInstallCallback_kinds (P : Platform) (f : Nat) (o : UpgradeOptions) (installType : InstallType)
    (i : InstallCallbackInfo) : Kinds (.publish :: installKinds) (FirmwareFlowManager.onInstallCallback P f o installType i) := by
  refine Kinds.bind (setInstallResult_kinds i) (k := installKinds) (fun _ => ?_) rfl rfl
  split
  · exact (execute_kinds P f (.installApply o installType)).mono rfl
  · trivial

end KindsAux

end UpdateEngine
