import UpdateEngine.Lemmas.Kinds

/-!
# How the tables are written

Both tables are cleared one after the other, and filled one after the other: a thread that has begun goes on to the end. In between it
is `dropped`, `swept` or `stored`. Everything else leaves the tables as they are, or changes columns that identify no version. The
status of checks is read and set by checks only.
-/

namespace UpdateEngine

open Concurrent

/-- How far a thread has come with the tables: it is not at work on them; it has cleared the task table, and then the component table;
it has stored rows whose task is still to come; it is a check that has read the rows it answers with; it is a request to check that
has started its executor. -/
inductive Filing where
  | settled | dropped | swept
  | stored (l : List FirmwareComponent)
  | looked (l : List FirmwareComponent)
  | gone

/-- Nothing that was begun is left to do. -/
def Filing.rests (r : Filing) : Prop := r = .settled ∨ r = .swept ∨ ∃ l, r = .looked l

/-- A thread that does not touch the tables: a request to cancel, a notice of a network change. -/
def Thread.bystands : Thread → Bool
  | .cancel _ | .netChanged _ _ => true
  | _ => false

namespace FilingAux

/-- Which operations are allowed when. -/
def allowed (P : Platform) (n : Thread) (r : Filing) : Op → Prop
  | .deleteTasks | .spawn _ => r.rests ∧ n.bystands = false
  | .deleteComponents => r = .dropped
  | .insertComponents l => r = .swept ∧ n.kind = .check ∧ l ≠ []
  | .insertTask t => ∃ l, r = .stored l ∧ t.taskId = FirmwareUpdateHelper.buildTaskId P l
  | .onCheckVersionDone _ x =>
    r.rests ∧ (x.isExistNewVersion = true → ∃ l, r = .looked l ∧ x.versionDigest = FirmwareUpdateHelper.buildTaskId P l)
  | .getStatusCache | .setStatusCache _ _ => r.rests ∧ n.kind = .check
  | _ => r.rests

/-- What an answer leads to. -/
def next (n : Thread) (r : Filing) : (o : Op) → o.Res → Filing
  | .deleteTasks, _ => .dropped
  | .deleteComponents, _ => .swept
  | .insertComponents l, _ => .stored l
  | .insertTask _, _ => .settled
  | .queryComponents .buildCheckResult, l => if n.kind = .check then .looked l else r
  | .spawn (.checkExecutor _), _ => .gone
  | _, _ => r

/-- The order in which the tables are written. -/
def filing (P : Platform) : Protocol Op Op.Res Thread Filing where
  entry := fun _ => .settled
  allowed := allowed P
  expects := fun _ _ _ _ => True
  next := next
  final := fun r => r.rests ∨ r = .gone

/-- The text leaves nothing half done. -/
abbrev Rests {α : Type} (P : Platform) (n : Thread) (p : Prog α) : Prop := (filing P).Keeps n Filing.rests p

variable {P : Platform} {n : Thread}

theorem rests_settled : Filing.settled.rests := .inl rfl

theorem rests_swept : Filing.swept.rests := .inr (.inl rfl)

theorem rests_looked (l : List FirmwareComponent) : (Filing.looked l).rests := .inr (.inr ⟨l, rfl⟩)

/-! ## What leaves the tables alone -/

/-- The kinds of operations that neither clear nor fill a table. -/
def calmKind : OpKind → Bool
  | .insert | .drop | .sweep | .answer | .spawn | .cache => false
  | _ => true

theorem calm_rests (P : Platform) (n : Thread) {o : Op} (ho : calmKind o.kind = true) {r : Filing} (hr : r.rests) :
    (filing P).allowed n r o ∧ ∀ x, ((filing P).next n r o x).rests := by
  cases o with
  | queryComponents c =>
    refine ⟨hr, fun l => ?_⟩
    cases c with
    | buildCheckResult =>
      show Filing.rests (if n.kind = .check then .looked l else r)
      split
      · exact rests_looked l
      · exact hr
    | _ => exact hr
  | insertTask | insertComponents | deleteTasks | deleteComponents | onCheckVersionDone | spawn | getStatusCache | setStatusCache =>
    cases ho
  | _ => exact ⟨hr, fun _ => hr⟩

/-- A text that neither clears nor fills a table. -/
theorem rests_of_kinds {α : Type} {l : List OpKind} {p : Prog α} (hp : Kinds l p) (hl : l.all calmKind = true) : Rests P n p :=
  Protocol.Keeps.of_uses (fun _ ho _ hr => calm_rests P n (List.all_eq_true.mp hl _ (List.contains_iff_mem.mp ho)) hr) hp

/-- The same of a check, which also reads and sets the status of checks. -/
theorem rests_of_check_kinds {α : Type} (hn : n.kind = .check) {l : List OpKind} {p : Prog α} (hp : Kinds l p)
    (hl : (l.all fun k => calmKind k || k = .cache) = true) : Rests P n p := by
  refine Protocol.Keeps.of_uses (fun o ho r hr => ?_) hp
  have hk := List.all_eq_true.mp hl _ (List.contains_iff_mem.mp ho)
  rw [Bool.or_eq_true, decide_eq_true_eq] at hk
  rcases hk with hk | hk
  · exact calm_rests P n hk hr
  · cases o with
    | getStatusCache | setStatusCache => exact ⟨⟨hr, hn⟩, fun _ => hr⟩
    | queryTasks c | queryComponents c => cases c <;> cases hk
    | updateTasks c i u => cases u <;> cases hk
    | updateComponents c u => cases c <;> cases hk
    | setFlow u => cases u <;> cases hk
    | ask q => cases q <;> cases hk
    | enter m => cases m <;> cases hk
    | _ => cases hk

/-- An operation that neither clears nor fills a table. -/
theorem rests_op {α : Type} {o : Op} {k : o.Res → Prog α} (ho : calmKind o.kind = true) (hk : ∀ x, Rests P n (k x)) :
    Rests P n (.op o k) :=
  Protocol.Keeps.op (fun _ hr => calm_rests P n ho hr) hk

/-- The same before a continuation. -/
theorem rests_call {α : Type} {o : Op} {f : o.Res → Prog α} (ho : calmKind o.kind = true) (hf : ∀ x, Rests P n (f x)) :
    Rests P n (call o >>= f) :=
  rests_op ho hf

/-! ## Clearing and filling -/

/-- `ClearFirmwareInfo` clears both tables. -/
theorem clearFirmwareInfo_spec (hn : n.bystands = false) {r : Filing} (hr : r.rests) :
    (filing P).Spec n FirmwareUpdateHelper.clearFirmwareInfo r fun _ r' => r' = .swept := by
  refine Protocol.Spec.seq (rests_of_kinds (KindsAux.queryTask_kinds rfl _) rfl r hr) ?_
  intro _ r' hr'
  exact ⟨⟨hr', hn⟩, fun _ _ => ⟨rfl, fun _ _ => ⟨rests_swept, fun _ _ => rfl⟩⟩⟩

theorem clearFirmwareInfo_rests (hn : n.bystands = false) : Rests P n FirmwareUpdateHelper.clearFirmwareInfo := by
  intro r hr
  refine (clearFirmwareInfo_spec hn hr).mono ?_
  rintro _ r' rfl
  exact rests_swept

/-! ## Checks -/

theorem handleNewVersion_rests (hn : n.kind = .check) (hb : n.bystands = false) {l : List FirmwareComponent} (hl : l ≠ []) :
    Rests P n (FirmwareCheckDataProcessor.handleNewVersion P l) := by
  refine Protocol.Keeps.bind (rests_of_kinds (KindsAux.isVersionSameWithDb_kinds l) rfl) ?_
  intro same
  refine rests_call rfl fun _ => ?_
  cases same with
  | true => exact rests_of_kinds (KindsAux.updateFirmwareComponent_kinds l) rfl
  | false =>
    intro r hr
    show (filing P).Spec n (FirmwareUpdateHelper.clearFirmwareInfo >>= _) r _
    refine Protocol.Spec.seq (clearFirmwareInfo_spec hb hr) ?_
    rintro _ r' rfl
    have hrows : l.map FirmwareCheckDataProcessor.buildComponentSPath ≠ [] := by
      intro h
      exact hl (List.map_eq_nil_iff.mp h)
    exact ⟨rests_swept, fun _ _ => ⟨⟨rfl, hn, hrows⟩, fun _ _ => ⟨⟨_, rfl, rfl⟩, fun _ _ => rests_settled⟩⟩⟩

theorem handleNoNewVersion_rests (hb : n.bystands = false) : Rests P n FirmwareCheckDataProcessor.handleNoNewVersion := by
  refine Protocol.Keeps.bind (rests_of_kinds (KindsAux.queryTask_kinds rfl _) rfl) ?_
  intro task
  split
  · exact Protocol.Keeps.bind (rests_of_kinds (KindsAux.notifyEvent_kinds ..) rfl) fun _ => clearFirmwareInfo_rests hb
  · exact clearFirmwareInfo_rests hb

theorem setCheckResult_rests (hn : n.kind = .check) (hb : n.bystands = false) (status : CheckStatus) (l : List FirmwareComponent) :
    Rests P n (FirmwareCheckDataProcessor.setCheckResult P status l) := by
  have hhandled : Rests P n (call (.enter .checkResultHandled)) := rests_op rfl fun _ => Protocol.keeps_ret _
  have hresult : Rests P n (FirmwareCheckDataProcessor.handleCheckResult P l) := by
    refine Protocol.Keeps.bind (rests_of_kinds KindsAux.hasUndoneTask_kinds rfl) ?_
    intro undone
    cases undone with
    | true => exact Protocol.keeps_ret _
    | false =>
      show Rests P n (if l.isEmpty = true then _ else _)
      split
      · exact Protocol.Keeps.bind (handleNoNewVersion_rests hb) fun _ => hhandled
      · rename_i hl
        have hne : l ≠ [] := by
          rintro rfl
          exact hl rfl
        exact Protocol.Keeps.bind (handleNewVersion_rests hn hb hne) fun _ => hhandled
  refine rests_call rfl fun _ => rests_op rfl fun w => ?_
  show Rests P n (if FirmwareCheckDataProcessor.isCheckFailed w = true then _ else _)
  split
  · exact Protocol.keeps_ret _
  · exact hresult

/-- A check answers with the digest of the rows it has read. -/
theorem checkComplete_rests (hn : n.kind = .check) : Rests P n (FirmwareManualCheckMode.handleComplete P) := by
  have hanswer (w : Flow) {r : Filing} (hr : r.rests) : (filing P).Spec n (FirmwareCheckDataProcessor.buildCheckResult P w) r
      fun x r' => r'.rests ∧
        (x.isExistNewVersion = true → ∃ l, r' = .looked l ∧ x.versionDigest = FirmwareUpdateHelper.buildTaskId P l) := by
    unfold FirmwareCheckDataProcessor.buildCheckResult
    split
    · exact ⟨hr, fun h => by cases h⟩
    · refine ⟨hr, fun l _ => ?_⟩
      show (filing P).Spec n (if l.isEmpty = true then _ else _) (if n.kind = .check then .looked l else r) _
      rw [if_pos hn]
      split
      · exact ⟨rests_looked l, fun h => by cases h⟩
      · exact ⟨rests_looked l, fun _ => ⟨l, rfl, rfl⟩⟩
  intro r hr
  refine ⟨hr, fun w _ => ?_⟩
  show (filing P).Spec n (FirmwareCheckDataProcessor.buildCheckResult P w >>= _) r _
  refine Protocol.Spec.seq (hanswer w hr) ?_
  rintro x r' ⟨hr', hx⟩
  exact ⟨⟨hr', hx⟩, fun _ _ => hr'⟩

/-- A flow of a check: it is over, or its executor has been started. -/
theorem executeCheck_spec (hn : n.kind = .check) (hb : n.bystands = false) (f : Nat) {r : Filing} (hr : r.rests) :
    (filing P).Spec n (FirmwareFlowManager.execute P f .manualCheck) r fun _ r' => r'.rests ∨ r' = .gone := by
  have hmode (step : FirmwareStep) : Rests P n (getNextStep P .manualCheck step) :=
    rests_of_check_kinds hn (KindsAux.getNextStep_kinds P .manualCheck step) rfl
  have hcreate (step : FirmwareStep) {r : Filing} (hr : r.rests) :
      (filing P).Spec n (FirmwareFlowManager.createInstance f .manualCheck step) r fun _ r' => r'.rests ∨ r' = .gone := by
    cases step with
    | checkStep =>
      refine Protocol.Spec.seq (rests_of_check_kinds hn (KindsAux.setIsChecking_kinds true) rfl r hr) ?_
      intro _ r' hr'
      exact ⟨⟨hr', hb⟩, fun _ _ => .inr rfl⟩
    | _ => exact .inl hr
  simp only [FirmwareFlowManager.execute, Prog.perform_bind]
  refine ⟨hr, fun step _ => ?_⟩
  refine Protocol.Spec.seq (hmode step r hr) ?_
  intro nextStep r' hr'
  refine ⟨hr', fun _ _ => ?_⟩
  split
  · refine ⟨hr', fun _ _ => ?_⟩
    exact (checkComplete_rests hn r' hr').mono fun _ _ h => .inl h
  · exact hcreate nextStep hr'

/-! ## Downloads and installations -/

theorem stepAfterDownload_rests (hb : n.bystands = false) : Rests P n FirmwareDownloadMode.getStepAfterDownload := by
  have hprocess (t : FirmwareTask) (e : ErrorMessage) : Rests P n (FirmwareDownloadMode.processStatus t e) := by
    unfold FirmwareDownloadMode.processStatus
    split
    · exact rests_of_kinds (KindsAux.notifyEvent_kinds ..) rfl
    · exact Protocol.Keeps.bind (rests_of_kinds (KindsAux.notifyEvent_kinds ..) rfl) fun _ => clearFirmwareInfo_rests hb
    · exact rests_of_kinds (KindsAux.downloadCancelProcess_kinds t e) rfl
    · exact rests_of_kinds (KindsAux.notifyEvent_kinds ..) rfl
    · exact Protocol.keeps_ret _
  have hend (t : FirmwareTask) (e : ErrorMessage) :
      Rests P n (FirmwareDownloadMode.processStatus t e >>= fun _ => .ret FirmwareStep.complete) :=
    Protocol.Keeps.bind (hprocess t e) fun _ => Protocol.keeps_ret _
  refine Protocol.Keeps.bind (rests_of_kinds (KindsAux.queryTask_kinds rfl _) rfl) ?_
  intro task
  simp only [Prog.perform_bind]
  split
  · exact Protocol.keeps_ret _
  · refine rests_op rfl fun w => ?_
    split
    · cases stoi w.downloadProgress.endReason with
      | some c => exact hend task _
      | none => exact rests_op rfl fun _ => Protocol.keeps_ret _
    · exact hend task _

theorem isUpgradeFilesReady_rests (hb : n.bystands = false) : Rests P n FirmwareInstallApplyMode.isUpgradeFilesReady := by
  refine Protocol.Keeps.bind (rests_of_kinds KindsAux.isUpgradeFileCheckSuccess_kinds rfl) ?_
  intro ready
  cases ready with
  | true => exact Protocol.keeps_ret _
  | false =>
    refine rests_call rfl fun _ => rests_op rfl fun _ => ?_
    show Rests P n (FirmwareUpdateHelper.clearFirmwareInfo >>= _)
    exact Protocol.Keeps.bind (clearFirmwareInfo_rests hb) fun _ => Protocol.keeps_ret _

theorem installStepAfterInit_rests (hb : n.bystands = false) (o : UpgradeOptions) :
    Rests P n (FirmwareInstallApplyMode.getStepAfterInit P o) := by
  have horder (tasks : FirmwareTask) : Rests P n (FirmwareInstallApplyMode.getStepForInstallAndApplyOrder P tasks) := by
    unfold FirmwareInstallApplyMode.getStepForInstallAndApplyOrder
    split
    · exact rests_op rfl fun _ => Protocol.keeps_ret _
    · refine Protocol.Keeps.bind (rests_of_kinds (KindsAux.isAllowInstall_kinds P) rfl) ?_
      intro allow
      cases allow with
      | false => exact Protocol.keeps_ret _
      | true =>
        refine Protocol.Keeps.bind (isUpgradeFilesReady_rests hb) ?_
        intro ready
        cases ready with
        | false => exact Protocol.keeps_ret _
        | true => exact Protocol.keeps_ret _
  refine Protocol.Keeps.bind (rests_of_kinds (KindsAux.queryTask_kinds rfl _) rfl) ?_
  intro tasks
  split
  · exact rests_op rfl fun _ => Protocol.keeps_ret _
  · split
    · exact horder tasks
    · split
      · exact Protocol.keeps_ret _
      · exact rests_op rfl fun _ => Protocol.keeps_ret _

theorem stepAfterInstall_rests (hb : n.bystands = false) : Rests P n FirmwareInstallApplyMode.getStepAfterInstall := by
  refine Protocol.Keeps.bind (rests_of_kinds KindsAux.hasInstallSuccess_kinds rfl) ?_
  intro success
  cases success with
  | true => exact Protocol.keeps_ret _
  | false => exact Protocol.Keeps.bind (clearFirmwareInfo_rests hb) fun _ => Protocol.keeps_ret _

/-- A flow that is not for a check. -/
theorem execute_rests (hb : n.bystands = false) (f : Nat) {mode : Mode} (hmode : mode ≠ .manualCheck) :
    Rests P n (FirmwareFlowManager.execute P f mode) := by
  have hstep (step : FirmwareStep) : Rests P n (getNextStep P mode step) := by
    unfold getNextStep
    split
    · exact absurd rfl hmode
    · exact absurd rfl hmode
    · exact rests_of_kinds KindsAux.downloadStepAfterInit_kinds rfl
    · exact stepAfterDownload_rests hb
    · exact installStepAfterInit_rests hb _
    · exact stepAfterInstall_rests hb
    · exact Protocol.keeps_ret _
  have hspawn {t : Thread} (ht : ∀ g, t ≠ .checkExecutor g) : Rests P n (call (.spawn t)) := by
    refine fun r hr => ⟨⟨hr, hb⟩, fun _ _ => ?_⟩
    cases t with
    | checkExecutor g => exact absurd rfl (ht g)
    | _ => exact hr
  have hcreate (step : FirmwareStep) : Rests P n (FirmwareFlowManager.createInstance f mode step) := by
    unfold FirmwareFlowManager.createInstance
    split
    · exact absurd rfl hmode
    · exact hspawn fun _ => Thread.noConfusion
    · exact hspawn fun _ => Thread.noConfusion
    · exact hspawn fun _ => Thread.noConfusion
    · exact Protocol.keeps_ret _
  refine rests_call rfl fun step => ?_
  refine Protocol.Keeps.bind (hstep step) ?_
  intro nextStep
  refine rests_call rfl fun _ => ?_
  split
  · refine rests_call rfl fun _ => ?_
    cases mode with
    | manualCheck => exact absurd rfl hmode
    | _ => exact Protocol.keeps_ret _
  · exact hcreate nextStep

/-! ### The threads of a download -/

theorem onDownloadCallback_rests (hb : n.bystands = false) (f : Nat) (o : DownloadOptions) (progress : Progress) :
    Rests P n (FirmwareFlowManager.onDownloadCallback P f o progress) := by
  refine rests_call rfl fun _ => ?_
  show Rests P n (FirmwareDownloadDataProcessor.setDownloadProgress progress >>= _)
  refine Protocol.Keeps.bind (rests_of_kinds (KindsAux.setDownloadProgress_kinds progress) rfl) ?_
  intro _
  split
  · exact execute_rests hb f Mode.noConfusion
  · exact Protocol.keeps_ret _

theorem executorCallback_rests (hb : n.bystands = false) (f : Nat) (o : DownloadOptions) (serverUrl packageName : String)
    (progress : Progress) : Rests P n (FirmwareDownloadExecutor.downloadCallback P f o serverUrl packageName progress) := by
  have hverify (components : List FirmwareComponent) :
      Rests P n (FirmwareDownloadExecutor.verifyDownloadPkg P components packageName) := by
    have haccept : Rests P n (call (.enter (.accepted packageName)) >>= fun _ => .ret true) :=
      rests_op rfl fun _ => Protocol.keeps_ret _
    unfold FirmwareDownloadExecutor.verifyDownloadPkg
    split
    · refine Protocol.Keeps.bind (rests_of_kinds (KindsAux.checkFileSha256String_kinds P _ _) rfl) ?_
      intro same
      cases same with
      | false => exact Protocol.keeps_ret _
      | true => exact haccept
    · exact haccept
  have hverified (w : Flow) : Rests P n (FirmwareDownloadExecutor.verifiedProgress P w packageName progress) := by
    unfold FirmwareDownloadExecutor.verifiedProgress
    split
    · exact Protocol.keeps_ret _
    · refine Protocol.Keeps.bind (hverify w.components) ?_
      intro accepted
      cases accepted with
      | true => exact Protocol.keeps_ret _
      | false => exact rests_op rfl fun _ => Protocol.keeps_ret _
  have hend : Rests P n (call .getFlow >>= fun w => FirmwareDownloadExecutor.verifiedProgress P w packageName progress >>=
      fun downloadProgress => FirmwareComponentOperator.updateProgressByUrl .downloadCallback serverUrl progress.status
        progress.percent.toInt32 >>= fun _ => FirmwareTaskOperator.updateProgressByTaskId .downloadCallback
          w.executorTasks.taskId downloadProgress.status downloadProgress.percent.toInt32 >>= fun _ =>
            FirmwareFlowManager.onDownloadCallback P f o downloadProgress) := by
    refine rests_call rfl fun w => ?_
    refine Protocol.Keeps.bind (hverified w) ?_
    intro downloadProgress
    exact rests_op rfl fun _ => rests_op rfl fun _ => onDownloadCallback_rests hb f o downloadProgress
  refine rests_call rfl fun _ => ?_
  split
  · exact rests_op rfl fun _ => hend
  · exact hend

theorem threadCallback_rests (hb : n.bystands = false) (f : Nat) (o : DownloadOptions) (fileName serverUrl : String)
    (percent : UInt32) (status : UpgradeStatus) (error : String) (progress : Progress) :
    Rests P n (DownloadThread.downloadCallback P f o fileName serverUrl percent status error progress) := by
  have hreport (progress : Progress) (abnormal : Bool) :
      Rests P n (FirmwareDownloadExecutor.downloadCallback P f o serverUrl fileName progress >>= fun _ =>
        .ret (abnormal, progress)) :=
    Protocol.Keeps.bind (executorCallback_rests hb f o serverUrl fileName progress) fun _ => Protocol.keeps_ret _
  have hdeal : Rests P n (DownloadThread.dealAbnormal P f o fileName serverUrl percent progress) := by
    refine Protocol.Keeps.bind (rests_of_kinds KindsAux.isAbnormal_kinds rfl) ?_
    intro abnormal
    cases abnormal with
    | false => exact Protocol.keeps_ret _
    | true =>
      refine rests_call rfl fun noNet => rests_op rfl fun noNet' => rests_op rfl fun isCancel => ?_
      cases isCancel with
      | false => exact hreport _ true
      | true => exact rests_op rfl fun _ => hreport _ true
  refine rests_call rfl fun _ => ?_
  show Rests P n (DownloadThread.dealAbnormal P f o fileName serverUrl percent progress >>= _)
  refine Protocol.Keeps.bind hdeal ?_
  rintro ⟨abnormal, downloadProgress⟩
  have hlast : Rests P n (if (percent = DownloadThread.DOWNLOAD_FINISH_PERCENT && status = .downloading) = true then
      .ret (false, downloadProgress)
    else FirmwareDownloadExecutor.downloadCallback P f o serverUrl fileName
      { percent := percent, status := status, endReason := error } >>= fun _ =>
        .ret (false, { percent := percent, status := status, endReason := error })) := by
    split
    · exact Protocol.keeps_ret _
    · exact hreport _ false
  dsimp only
  split
  · exact Protocol.keeps_ret _
  · split
    · exact Protocol.keeps_ret _
    · split
      · refine Protocol.Keeps.bind (rests_of_kinds (KindsAux.isFileExist_kinds fileName) rfl) ?_
        intro exist
        cases exist with
        | false => exact hlast
        | true => exact rests_op rfl fun _ => hlast
      · split
        · exact Protocol.keeps_ret _
        · exact hlast

theorem transfer_rests (hb : n.bystands = false) (f : Nat) (o : DownloadOptions) (fileName serverUrl : String)
    (events : List TransferEvent) (progress : Progress) :
    Rests P n (DownloadThread.transfer P f o fileName serverUrl events progress) := by
  have hprogress (dlTotal dlNow : Nat) (progress : Progress) :
      Rests P n (DownloadThread.onDownloadProgress P f o fileName serverUrl dlTotal dlNow progress) := by
    unfold DownloadThread.onDownloadProgress
    split
    · exact Protocol.keeps_ret _
    · exact Protocol.Keeps.bind (rests_of_kinds (KindsAux.getLocalFileLength_kinds fileName) rfl) fun _ =>
        threadCallback_rests hb f o fileName serverUrl _ _ _ progress
  induction events generalizing progress with
  | nil => exact Protocol.keeps_ret _
  | cons event events ih =>
    cases event with
    | data bytes => exact rests_op rfl fun _ => ih progress
    | progress dlTotal dlNow =>
      refine Protocol.Keeps.bind (hprogress dlTotal dlNow progress) ?_
      rintro ⟨error, downloadProgress⟩
      cases error with
      | true => exact Protocol.keeps_ret _
      | false => exact ih downloadProgress

theorem processThreadExecute_rests (hb : n.bystands = false) (f : Nat) (o : DownloadOptions) (fileName serverUrl : String)
    (progress : Progress) : Rests P n (DownloadThread.processThreadExecute P f o fileName serverUrl progress) := by
  have hreport (percent : UInt32) (status : UpgradeStatus) (error : String) (progress : Progress) (again : Bool) :
      Rests P n (DownloadThread.downloadCallback P f o fileName serverUrl percent status error progress >>= fun e =>
        .ret (again, e.2)) :=
    Protocol.Keeps.bind (threadCallback_rests hb f o fileName serverUrl percent status error progress) fun _ => Protocol.keeps_ret _
  refine Protocol.Keeps.bind (rests_of_kinds (KindsAux.getLocalFileLength_kinds fileName) rfl) ?_
  intro packageSize
  split
  · exact hreport 0 .downloadFail _ progress true
  · refine rests_call rfl fun opened => ?_
    cases opened with
    | false => exact hreport 0 .downloadFail _ progress true
    | true =>
      refine rests_call rfl fun inited => ?_
      cases inited with
      | false => exact hreport 0 .downloadFail _ progress true
      | true =>
        refine rests_call rfl fun t => ?_
        refine Protocol.Keeps.bind (transfer_rests hb f o fileName serverUrl t.events progress) ?_
        rintro ⟨aborted, downloadProgress⟩
        dsimp only
        generalize (if aborted = true then DownloadThread.CURLE_ABORTED_BY_CALLBACK else t.res) = res
        split
        · split
          · exact hreport 0 .downloadFail _ downloadProgress false
          · exact Protocol.keeps_ret _
        · exact rests_op rfl fun _ => hreport _ .downloadSuccess _ downloadProgress false

theorem executeThreadFunc_rests (hb : n.bystands = false) (f : Nat) (o : DownloadOptions) (fileName serverUrl : String)
    (index rounds : Nat) (progress : Progress) :
    Rests P n (DownloadThread.executeThreadFunc P f o fileName serverUrl index rounds progress) := by
  induction rounds generalizing progress with
  | zero => exact Protocol.keeps_ret _
  | succ rounds ih =>
    refine rests_call rfl fun exit => ?_
    cases exit with
    | true => exact Protocol.keeps_ret _
    | false =>
      refine Protocol.Keeps.bind (processThreadExecute_rests hb f o fileName serverUrl progress) ?_
      rintro ⟨again, downloadProgress⟩
      cases again with
      | false => exact Protocol.keeps_ret _
      | true => exact ih downloadProgress

theorem doDownload_rests (hb : n.bystands = false) (f : Nat) (o : DownloadOptions) :
    Rests P n (FirmwareDownloadExecutor.doDownload P f o) := by
  have hcomplete (component : FirmwareComponent) : Rests P n (FirmwareDownloadExecutor.reportComplete P f o component) := by
    refine Protocol.Keeps.bind (rests_of_kinds (KindsAux.getLocalFileLength_kinds _) rfl) ?_
    intro localFileLength
    split
    · exact rests_op rfl fun _ => executorCallback_rests hb f o _ _ _
    · exact Protocol.keeps_ret _
  have hstart (index : Nat) (component : FirmwareComponent) :
      Rests P n (FirmwareDownloadExecutor.startDownload f o index component) := by
    refine rests_call rfl fun created => ?_
    cases created with
    | false => exact Protocol.keeps_ret _
    | true => exact fun r hr => ⟨⟨hr, hb⟩, fun _ _ => ⟨hr, fun _ _ => hr⟩⟩
  have hloop (index : Nat) (last : Option Thread) (components : List FirmwareComponent) :
      Rests P n (FirmwareDownloadExecutor.performDownloads P f o index last components) := by
    induction components generalizing index last with
    | nil => exact Protocol.keeps_ret _
    | cons component components ih =>
      refine Protocol.Keeps.bind (hcomplete component) ?_
      intro _
      refine rests_call rfl fun _ => ?_
      have hexit : Rests P n (FirmwareDownloadExecutor.exitLast index last) := by
        cases last with
        | none => exact Protocol.keeps_ret _
        | some t => exact rests_op rfl fun _ => rests_op rfl fun _ => Protocol.keeps_ret _
      refine Protocol.Keeps.bind hexit ?_
      intro _
      refine Protocol.Keeps.bind (hstart index component) ?_
      intro started
      cases started with
      | none => exact Protocol.Keeps.bind (onDownloadCallback_rests hb f o _) fun _ => ih (index + 1) none
      | some t => exact ih (index + 1) (some t)
  refine rests_call rfl fun components => rests_op rfl fun _ => ?_
  show Rests P n (if components.isEmpty = true then _ else _)
  split
  · exact onDownloadCallback_rests hb f o _
  · refine Protocol.Keeps.bind (rests_of_kinds (KindsAux.queryTask_kinds rfl _) rfl) ?_
    intro tasks
    refine rests_call rfl fun _ => ?_
    split
    · exact Protocol.Keeps.bind (hloop 0 none components) fun _ => rests_of_kinds (KindsAux.notifyEvent_kinds ..) rfl
    · exact onDownloadCallback_rests hb f o _

/-! ### The threads of an installation -/

theorem onInstallCallback_rests (hb : n.bystands = false) (f : Nat) (o : UpgradeOptions) (installType : InstallType)
    (i : InstallCallbackInfo) : Rests P n (FirmwareFlowManager.onInstallCallback P f o installType i) := by
  refine Protocol.Keeps.bind (rests_of_kinds (KindsAux.setInstallResult_kinds i) rfl) ?_
  intro _
  split
  · exact execute_rests hb f Mode.noConfusion
  · exact Protocol.keeps_ret _

theorem handleInstallResult_rests (hb : n.bystands = false) (f : Nat) (o : UpgradeOptions) (installType : InstallType)
    (result : Bool) (errMsg : ErrorMessage) :
    Rests P n (FirmwareInstallExecutor.handleInstallResult P f o installType result errMsg) :=
  rests_op rfl fun _ => rests_op rfl fun _ => rests_op rfl fun _ => rests_op rfl fun _ => rests_op rfl fun _ =>
    onInstallCallback_rests hb f o installType _

theorem onUpgradeProgress_rests (hb : n.bystands = false) (f : Nat) (o : UpgradeOptions) (updateStatus : SysUpdateStatus)
    (percent : Int32) (resultMsg : String) :
    Rests P n (SysInstallerInstall.onUpgradeProgress P f o updateStatus percent resultMsg) := by
  refine rests_call rfl fun w => ?_
  cases w.sysCallback with
  | none => exact Protocol.keeps_ret _
  | some c =>
    refine rests_call rfl fun _ => rests_call rfl fun _ => ?_
    exact rests_op rfl fun _ => rests_op rfl fun _ => rests_op rfl fun _ => rests_op rfl fun _ => rests_op rfl fun _ =>
      rests_op rfl fun _ => onInstallCallback_rests hb f o .sysInstaller _

theorem performInstall_rests (o : UpgradeOptions) (installType : InstallType) (taskId : String) (l : List FirmwareComponent) :
    Rests P n (FirmwareInstallExecutor.performInstall P o installType taskId l) := by
  have hfail (e : ErrorMessage) : Rests P n (call (.setFlow (.errMsg e)) >>= fun _ => .ret false) :=
    rests_op rfl fun _ => Protocol.keeps_ret _
  have hsys (component : FirmwareComponent) : Rests P n (SysInstallerInstall.doSysInstall P o component) := by
    refine rests_call rfl fun _ => rests_call rfl fun _ => rests_call rfl fun ret => ?_
    split
    · exact hfail _
    · refine rests_call rfl fun status => ?_
      split
      · exact hfail _
      · refine rests_call rfl fun ret => ?_
        split
        · exact hfail _
        · refine rests_call rfl fun _ => rests_call rfl fun ret => ?_
          split
          · exact rests_op rfl fun _ => rests_op rfl fun _ => Protocol.keeps_ret _
          · refine Protocol.Keeps.bind (rests_of_kinds (KindsAux.waitInstallResult_kinds _) rfl) ?_
            intro result
            exact rests_op rfl fun _ => Protocol.keeps_ret _
  cases installType with
  | sysInstaller =>
    cases l with
    | nil => exact Protocol.keeps_ret _
    | cons component l =>
      exact Protocol.Keeps.bind (rests_of_kinds (KindsAux.notifyEvent_kinds ..) rfl) fun _ => hsys component
  | updater | quickFix => exact rests_of_kinds (KindsAux.updaterInstall_kinds taskId l) rfl

theorem doInstallExecutor_rests (hb : n.bystands = false) (f : Nat) (o : UpgradeOptions) (installType : InstallType) :
    Rests P n (FirmwareInstallExecutor.doInstall P f o installType) := by
  have hstart (taskId : String) (l : List FirmwareComponent) :
      Rests P n (FirmwareInstallExecutor.startInstall P f o installType taskId l) := by
    refine rests_call rfl fun w => ?_
    split
    · exact handleInstallResult_rests hb f o installType false _
    · refine Protocol.Keeps.bind (rests_of_kinds (KindsAux.isUpgradePackagesReady_kinds l) rfl) ?_
      intro ready
      cases ready with
      | false => exact handleInstallResult_rests hb f o installType false _
      | true =>
        refine rests_call rfl fun _ => rests_call rfl fun _ => ?_
        refine Protocol.Keeps.bind (performInstall_rests o installType taskId l) ?_
        intro result
        exact rests_op rfl fun _ => rests_op rfl fun _ => rests_op rfl fun w =>
          handleInstallResult_rests hb f o installType result w.errMsg
  have hrows (l : List FirmwareComponent) : Rests P n (l.forM fun component =>
      FirmwareComponentOperator.updateProgressByUrl .installExecutor component.url
        (FirmwareInstallExecutor.startStatus installType) 0) :=
    Protocol.keeps_forM fun _ _ => rests_op rfl fun _ => Protocol.keeps_ret _
  refine rests_call rfl fun components => ?_
  split
  · exact rests_op rfl fun _ => rests_op rfl fun _ => onInstallCallback_rests hb f o installType _
  · refine Protocol.Keeps.bind (rests_of_kinds (KindsAux.queryTask_kinds rfl _) rfl) ?_
    intro tasks
    refine rests_call rfl fun _ => ?_
    refine Protocol.Keeps.bind (rests_of_kinds (KindsAux.updateProgressByTaskId_kinds ..) rfl) ?_
    intro _
    exact Protocol.Keeps.bind (hrows components) fun _ => hstart tasks.taskId components

theorem doInstallApply_rests (hb : n.bystands = false) (f : Nat) (o : UpgradeOptions) (installType : InstallType) :
    Rests P n (FirmwareApplyExecutor.doInstall P f o installType) := by
  refine rests_call rfl fun _ => rests_call rfl fun components => ?_
  split
  · exact execute_rests hb f Mode.noConfusion
  · refine Protocol.Keeps.bind (rests_of_kinds (KindsAux.queryTask_kinds rfl _) rfl) ?_
    intro tasks
    exact rests_op rfl fun _ => rests_op rfl fun _ => Protocol.keeps_ret _

/-! ### Requests and the work after a start -/

theorem doInstall_rests (hb : n.bystands = false) (f : Nat) (o : UpgradeOptions) (installType : InstallType) :
    Rests P n (FirmwareManager.doInstall P f o installType) := by
  refine Protocol.Keeps.bind (rests_of_kinds (KindsAux.canInstall_kinds P) rfl) ?_
  intro able
  cases able with
  | false => exact Protocol.keeps_ret _
  | true => exact execute_rests hb f Mode.noConfusion

theorem delayInit_rests (hb : n.bystands = false) (f : Nat) (startupReason : StartupReason) :
    Rests P n (FirmwareManager.delayInit P f startupReason) := by
  have hrows (l : List FirmwareComponent) : Rests P n (l.forM fun component =>
      if component.status = .installing then
        FirmwareComponentOperator.updateProgressByUrl .restoreUpdate component.url .downloadSuccess 100
      else pure ()) := by
    refine Protocol.keeps_forM fun c _ => ?_
    split
    · exact rests_op rfl fun _ => Protocol.keeps_ret _
    · exact Protocol.keeps_ret _
  have hboot (task : FirmwareTask) : Rests P n (FirmwareManager.handleBootInstallOnStatusProcess P f task) := by
    refine Protocol.Keeps.bind (rests_of_kinds (KindsAux.updateProgressByTaskId_kinds ..) rfl) ?_
    intro _
    refine rests_call rfl fun l => ?_
    exact Protocol.Keeps.bind (hrows l) fun _ => doInstall_rests hb f _ _
  have hrestore : Rests P n (FirmwareManager.restoreUpdate P f) := by
    refine Protocol.Keeps.bind (rests_of_kinds (KindsAux.queryTask_kinds rfl _) rfl) ?_
    intro task
    split
    · exact clearFirmwareInfo_rests hb
    · exact clearFirmwareInfo_rests hb
    · exact hboot task
    · exact hboot task
    · exact Protocol.keeps_ret _
  have hsuccess (task : FirmwareTask) : Rests P n (FirmwareManager.handleBootUpdateSuccess task) := by
    refine rests_call rfl fun _ => rests_call rfl fun components => ?_
    refine Protocol.Keeps.bind (rests_of_kinds KindsAux.saveHotaCurrentVersionComponentId_kinds rfl) ?_
    intro _
    split
    · exact Protocol.Keeps.bind (rests_of_kinds (KindsAux.notifyEvent_kinds ..) rfl) fun _ => clearFirmwareInfo_rests hb
    · exact Protocol.keeps_ret _
  have hfail (task : FirmwareTask) (resultMap : UpdateResults) :
      Rests P n (FirmwareManager.handleBootUpdateFail task resultMap) := by
    refine rests_call rfl fun _ => rests_call rfl fun components => ?_
    exact Protocol.Keeps.bind (rests_of_kinds (KindsAux.notifyEvent_kinds ..) rfl) fun _ => clearFirmwareInfo_rests hb
  have hcomplete : Rests P n (FirmwareManager.handleBootComplete P) := by
    refine Protocol.Keeps.bind (rests_of_kinds (KindsAux.queryTask_kinds rfl _) rfl) ?_
    intro task
    split
    · exact Protocol.keeps_ret _
    · split
      · refine rests_call rfl fun components => ?_
        refine Protocol.Keeps.bind (rests_of_kinds (KindsAux.getUpdaterResult_kinds P components) rfl) ?_
        rintro ⟨code, resultMap⟩
        cases code with
        | success => exact hsuccess task
        | failure => exact hfail task resultMap
        | partSuccess => exact Protocol.keeps_ret _
      · exact Protocol.keeps_ret _
  refine Protocol.Keeps.bind hrestore ?_
  intro _
  refine rests_call rfl fun _ => ?_
  refine Protocol.Keeps.bind (rests_of_kinds KindsAux.notifyInitEvent_kinds rfl) ?_
  intro _
  split
  · exact hcomplete
  · exact Protocol.keeps_ret _

theorem doClearError_rests (hb : n.bystands = false) : Rests P n FirmwareManager.doClearError := by
  refine Protocol.Keeps.bind (rests_of_kinds (KindsAux.queryTask_kinds rfl _) rfl) ?_
  intro task
  split
  · exact Protocol.keeps_ret _
  · split
    · exact rests_op rfl fun _ => rests_op rfl fun _ => Protocol.keeps_ret _
    · exact clearFirmwareInfo_rests hb

theorem download_rests (hb : n.bystands = false) (f : Nat) (o : DownloadOptions) :
    Rests P n (UpdateServiceImplFirmware.download P f o) := by
  refine Protocol.Keeps.bind (rests_of_kinds (KindsAux.queryTask_kinds rfl _) rfl) ?_
  intro task
  split
  · exact rests_op rfl fun _ => Protocol.keeps_ret _
  · exact rests_op rfl fun _ => execute_rests hb f Mode.noConfusion

/-! ## Every thread -/

/-- Every text leaves nothing half done. -/
theorem conforms (P : Platform) (n : Thread) : (filing P).Conforms n (body P n) .settled := by
  have hkeeps (h : Rests P n (body P n)) : (filing P).Conforms n (body P n) .settled :=
    h.conforms rests_settled fun _ hr => .inl hr
  cases n with
  | checkNewVersion f => exact executeCheck_spec rfl rfl f rests_settled
  | download f o => exact hkeeps (download_rests rfl f o)
  | upgrade f o =>
    refine hkeeps (Protocol.Keeps.bind (rests_of_kinds (KindsAux.queryTask_kinds rfl _) rfl) ?_)
    intro task
    exact rests_op rfl fun _ => doInstall_rests rfl f o _
  | cancel f => exact hkeeps (rests_of_kinds KindsAux.cancel_kinds rfl)
  | netChanged f t => exact hkeeps (rests_of_kinds (KindsAux.onNetChange_kinds P t) rfl)
  | clearError f => exact hkeeps (doClearError_rests rfl)
  | delayInit f startupReason => exact hkeeps (delayInit_rests rfl f startupReason)
  | checkExecutor f =>
    refine Protocol.Spec.seq (rests_of_kinds (KindsAux.doAction_kinds P) rfl _ rests_settled) ?_
    rintro ⟨status, l⟩ r hr
    refine Protocol.Spec.seq (rests_of_check_kinds rfl (KindsAux.setIsChecking_kinds false) rfl r hr) ?_
    intro _ r' hr'
    refine Protocol.Spec.seq (setCheckResult_rests rfl rfl status _ r' hr') ?_
    intro _ r'' hr''
    exact executeCheck_spec rfl rfl f hr''
  | downloadExecutor f o => exact hkeeps (doDownload_rests rfl f o)
  | downloadThread f o i fileName url => exact hkeeps (executeThreadFunc_rests rfl f o fileName url i _ _)
  | installExecutor f o t => exact hkeeps (doInstallExecutor_rests rfl f o t)
  | installerCallback f o i u percent msg => exact hkeeps (onUpgradeProgress_rests rfl f o u percent msg)
  | applyExecutor f o t => exact hkeeps (doInstallApply_rests rfl f o t)

end FilingAux

end UpdateEngine
