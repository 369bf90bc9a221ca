import UpdateEngine.Lemmas.FlowsAux
import UpdateEngine.Lemmas.ReportAux
import UpdateEngine.Theorems.Downloads

/-!
# How a report of a download goes on

A worker of a download (its executor, or a thread) writes a status to the task row, takes the progress to the flow, asks for the next
step, and reads the row again. `Delivery` says how far it has come, `delivering` is the protocol that the workers keep to.
-/

namespace UpdateEngine

open Concurrent

/-- What `GetStepAfterDownload` makes of an end reason; none when `stoi` throws. -/
def FirmwareDownloadMode.errorCode (endReason : String) : Option Int := if endReason.isEmpty then some 0 else stoi endReason

/-- How far a worker has come with a report. -/
inductive Delivery where
  /-- Nothing is being reported. -/
  | calm
  /-- There is no thread for a package: the failure is reported, and was not written. -/
  | refused
  /-- The task row is written. -/
  | written (status : UpgradeStatus)
  /-- The flow has been told of an end, with the status that was written. -/
  | told (status : Option UpgradeStatus)
  /-- The flow is in its download step, and the task row is about to be read. -/
  | reading (status : Option UpgradeStatus)
  deriving DecidableEq, Repr

/-- The worker is about to take its report to the flow. -/
def Delivery.pending : Delivery → Bool
  | .refused | .written _ => true
  | _ => false

namespace DispatchAux

open StepAux

/-- Both conversions find the same code in the text. -/
def Readable (endReason : String) : Prop := FirmwareDownloadMode.errorCode endReason = some (atoi endReason)

instance : DecidablePred Readable := fun endReason =>
  inferInstanceAs (Decidable (FirmwareDownloadMode.errorCode endReason = some (atoi endReason)))

/-- What a worker may do. -/
def allowed (r : Delivery) : Op → Prop
  | .enter (.onDownloadCallback p) => Readable p.endReason ∧ (r = .refused ∧ p.status = .downloadFail ∨ r = .written p.status)
  | .setFlow (.downloadProgress p) => Readable p.endReason ∧ r.pending = false
  | .getNextStep => ∃ s, r = .told s
  | .queryTasks .stepAfterDownload => ∃ s, r = .reading s
  | .updateTasks _ _ _ | .insertTask _ | .deleteTasks | .setFlow (.nextStep _) | .ask .newThread => r = .calm
  | .terminate => False
  | _ => r.pending = false

/-- What a worker finds as long as every end reason can be read. -/
def expects (n : Thread) : (o : Op) → o.Res → Prop
  | .queryComponents .downloadExecutor, l => l ≠ []
  | .queryTasks .downloadExecutor, l => ∀ t ∈ l.head?, t.downloadTaskId = ""
  | .awaitWake _, exit => exit = true ∨ ∀ f o i fileName url, n = .downloadThread f o i fileName url → hasDot fileName = false
  | .openFile _, b => b = true
  | .ask .curlInit, b => b = true
  | .getFlow, w => Readable w.downloadProgress.endReason
  | _, _ => True

/-- What an answer leads to. -/
def next (r : Delivery) : (o : Op) → o.Res → Delivery
  | .ask .newThread, created => if created then .calm else .refused
  | .updateTasks .downloadCallback _ (.progress s _), _ => .written s
  | .enter (.onDownloadCallback p), _ => if p.status = .downloading then .calm else match r with
    | .written s => .told (some s)
    | _ => .told none
  | .getNextStep, step => match r with
    | .told s => if step = .downloadStep then .reading s else .calm
    | r => r
  | .queryTasks .stepAfterDownload, _ => .calm
  | _, _ => r

/-- The order in which a worker reports. Of the other threads only the request uses the flow of a worker, and leaves its progress. -/
def delivering : Protocol Op Op.Res Thread Delivery where
  entry := fun _ => .calm
  allowed := fun n r o => (n.downloads = true → allowed r o) ∧ (n.isDownload = true → ∀ p, o ≠ .setFlow (.downloadProgress p))
  expects := fun n _ o x => n.downloads = true → expects n o x
  next := fun n r o x => if n.downloads then next r o x else r
  final := fun _ => True

variable {P : Platform} {n : Thread} {f : Nat} {o : DownloadOptions} {α β : Type}

/-- Everything the program does leaves the worker calm. -/
abbrev Calm (n : Thread) (p : Prog α) : Prop := delivering.Spec n p .calm fun _ r => r = .calm

theorem isDownload_of_downloads (hn : n.downloads = true) : n.isDownload = false := by
  cases n with
  | downloadExecutor | downloadThread => rfl
  | _ => cases hn

/-- One operation of a worker. -/
theorem spec_op (hn : n.downloads = true) {op : Op} {k : op.Res → Prog α} {r : Delivery} {Q : α → Delivery → Prop}
    (ha : allowed r op) (hk : ∀ x, expects n op x → delivering.Spec n (k x) (next r op x) Q) :
    delivering.Spec n (.op op k) r Q := by
  refine ⟨⟨fun _ => ha, fun h => absurd ((isDownload_of_downloads hn).symm.trans h) Bool.noConfusion⟩, fun x hx => ?_⟩
  have hnext : delivering.next n r op x = next r op x := if_pos hn
  rw [hnext]
  exact hk x (hx hn)

/-- The operations that say nothing of a report. -/
def still : Op → Bool
  | .enter (.onDownloadCallback _) | .setFlow (.downloadProgress _) | .setFlow (.nextStep _) => false
  | .getNextStep | .queryTasks .stepAfterDownload | .updateTasks _ _ _ | .insertTask _ | .deleteTasks | .ask .newThread | .terminate => false
  | _ => true

theorem allowed_of_still {op : Op} (h : still op = true) {r : Delivery} (hr : r.pending = false) :
    allowed r op ∧ ∀ x, next r op x = r := by
  cases op with
  | queryTasks c => cases c <;> first | exact ⟨hr, fun _ => rfl⟩ | cases h
  | setFlow u => cases u <;> first | exact ⟨hr, fun _ => rfl⟩ | cases h
  | enter m => cases m <;> first | exact ⟨hr, fun _ => rfl⟩ | cases h
  | ask q => cases q <;> first | exact ⟨hr, fun _ => rfl⟩ | cases h
  | updateTasks | insertTask | deleteTasks | getNextStep | terminate => cases h
  | _ => exact ⟨hr, fun _ => rfl⟩

/-- The operations that change the task table otherwise, or give the flow a step. -/
def changes : Op → Bool
  | .updateTasks c _ _ => c ≠ .downloadCallback
  | .insertTask _ | .deleteTasks | .setFlow (.nextStep _) => true
  | _ => false

/-- The operations that leave a calm worker calm. -/
def calming (op : Op) : Bool := still op || changes op

theorem allowed_of_calming {op : Op} (h : calming op = true) : allowed .calm op ∧ ∀ x, next .calm op x = .calm := by
  rcases (Bool.or_eq_true ..).mp h with h | h
  · exact allowed_of_still h rfl
  · cases op with
    | updateTasks c i u => cases c <;> first | exact ⟨rfl, fun _ => rfl⟩ | cases h
    | insertTask | deleteTasks => exact ⟨rfl, fun _ => rfl⟩
    | setFlow u => cases u <;> first | exact ⟨rfl, fun _ => rfl⟩ | cases h
    | _ => cases h

theorem still_spec (hn : n.downloads = true) {r : Delivery} (hr : r.pending = false) {p : Prog α}
    (hp : p.Uses fun op => still op = true) : delivering.Spec n p r fun _ r' => r' = r := by
  induction p with
  | ret a => rfl
  | op op k ih =>
    obtain ⟨ha, hnext⟩ := allowed_of_still hp.1 hr
    refine spec_op hn ha fun x _ => ?_
    rw [hnext x]
    exact ih x (hp.2 x)

theorem calm_returns (hn : n.downloads = true) {p : Prog α} (hp : p.Uses fun op => calming op = true) {R : α → Prop}
    (hR : p.Returns R) : delivering.Spec n p .calm fun a r => R a ∧ r = .calm := by
  induction p with
  | ret a => exact ⟨hR, rfl⟩
  | op op k ih =>
    obtain ⟨ha, hnext⟩ := allowed_of_calming hp.1
    refine spec_op hn ha fun x _ => ?_
    rw [hnext x]
    exact ih x (hp.2 x) (hR x)

theorem calm_of_uses (hn : n.downloads = true) {p : Prog α} (hp : p.Uses fun op => calming op = true) : Calm n p :=
  (calm_returns hn hp p.returns_true).mono fun _ _ h => h.2

theorem calm_bind {p : Prog α} {f : α → Prog β} (hp : Calm n p) (hf : ∀ a, Calm n (f a)) : Calm n (p >>= f) := by
  refine Protocol.Spec.seq hp ?_
  rintro a r rfl
  exact hf a

theorem calm_op (hn : n.downloads = true) {op : Op} {k : op.Res → Prog α} (ho : calming op = true)
    (hk : ∀ x, expects n op x → Calm n (k x)) : Calm n (.op op k) := by
  obtain ⟨ha, hnext⟩ := allowed_of_calming ho
  refine spec_op hn ha fun x hx => ?_
  rw [hnext x]
  exact hk x hx

/-- The same before a continuation. -/
theorem calm_call (hn : n.downloads = true) {op : Op} {f : op.Res → Prog α} (ho : calming op = true)
    (hf : ∀ x, expects n op x → Calm n (f x)) : Calm n (call op >>= f) :=
  calm_op hn ho hf

/-- The kinds of operations that leave a calm worker calm, as long as they are no report. -/
def calmKind : OpKind → Bool
  | .choose | .assign | .steer | .getStep | .create | .terminate => false
  | _ => true

theorem calming_of_kind {op : Op} (h : calmKind op.kind = true) (hq : op.isReport = false) : calming op = true := by
  cases op with
  | queryTasks c => cases c <;> first | rfl | cases h
  | updateTasks c i u => cases c <;> first | rfl | cases hq
  | setFlow u => cases u <;> cases h
  | enter m => cases m <;> first | rfl | cases hq
  | ask q => cases q <;> first | rfl | cases h
  | getNextStep | terminate => cases h
  | _ => rfl

theorem calming_of_kinds {l : List OpKind} {p : Prog α} (hp : Kinds l p) (hl : l.all calmKind = true) (hq : Silent p) :
    p.Uses fun op => calming op = true := by
  refine Prog.Uses.mono ?_ (hp.and hq)
  rintro op ⟨ho, hq⟩
  exact calming_of_kind (List.all_eq_true.mp hl _ (List.contains_iff_mem.mp ho)) hq

theorem calm_of_kinds (hn : n.downloads = true) {l : List OpKind} {p : Prog α} (hp : Kinds l p) (hl : l.all calmKind = true)
    (hq : Silent p) : Calm n p :=
  calm_of_uses hn (calming_of_kinds hp hl hq)

/-! ## The flow -/

theorem calming_of_prepares {op : Op} (h : ReportAux.prepares op = true) : calming op = true := by
  cases op with
  | queryTasks c => cases c <;> first | rfl | cases h
  | queryComponents => rfl
  | setFlow u => cases u <;> first | rfl | cases h
  | ask q => cases q <;> first | rfl | cases h
  | getNetType => rfl
  | _ => cases h

/-- `GetStepAfterInit` says nothing of a report. -/
theorem stepAfterInit_uses : FirmwareDownloadMode.getStepAfterInit.Uses fun op => calming op = true :=
  Prog.Uses.mono (fun _ => calming_of_prepares) ReportAux.stepAfterInit_prepares

theorem processStatus_calm (hn : n.downloads = true) (t : FirmwareTask) (e : ErrorMessage) :
    Calm n (FirmwareDownloadMode.processStatus t e) :=
  calm_of_kinds hn (KindsAux.processStatus_kinds t e) rfl (ReportAux.processStatus_quiet t e)

/-- `GetStepAfterDownload` reads the row, and raises no exception. -/
theorem stepAfterDownload_spec (hn : n.downloads = true) (s : Option UpgradeStatus) :
    delivering.Spec n FirmwareDownloadMode.getStepAfterDownload (.reading s) fun _ r => r = .calm := by
  have hend (t : FirmwareTask) (e : ErrorMessage) :
      Calm n (FirmwareDownloadMode.processStatus t e >>= fun _ => .ret FirmwareStep.complete) :=
    calm_bind (processStatus_calm hn t e) fun _ => rfl
  have hquery : delivering.Spec n (FirmwareTaskOperator.queryTask .stepAfterDownload {}) (.reading s) fun _ r => r = .calm := by
    refine spec_op hn ⟨s, rfl⟩ fun l _ => ?_
    cases l <;> exact rfl
  refine Protocol.Spec.seq hquery ?_
  rintro task r rfl
  split
  · rfl
  · refine calm_op hn rfl fun w hw => ?_
    change Calm n (if (!w.downloadProgress.endReason.isEmpty) = true then _ else _)
    have hreadable : Readable w.downloadProgress.endReason := hw
    unfold Readable FirmwareDownloadMode.errorCode at hreadable
    split
    · rename_i hempty
      rw [if_neg (by simpa using hempty)] at hreadable
      rw [hreadable]
      exact hend task _
    · exact hend task _

/-- A flow that has been told of an end deals with it, and the worker has nothing more to say. -/
theorem execute_spec (hn : n.downloads = true) (s : Option UpgradeStatus) :
    delivering.Spec n (FirmwareFlowManager.execute P f (.download o)) (.told s) fun _ r => r = .calm := by
  have hrest (step : FirmwareStep) : Calm n (call (.setFlow (.nextStep step)) >>= fun _ =>
      if step = .complete then handleComplete P (.download o) else FirmwareFlowManager.createInstance f (.download o) step) := by
    refine calm_op hn rfl fun _ _ => ?_
    split
    · exact calm_op hn rfl fun _ _ => rfl
    · cases step with
      | downloadStep => exact calm_op hn rfl fun _ _ => rfl
      | _ => rfl
  refine spec_op hn ⟨s, rfl⟩ fun step _ => ?_
  change delivering.Spec n (getNextStep P (.download o) step >>= _) (if step = .downloadStep then .reading s else .calm) _
  have hstep : delivering.Spec n (getNextStep P (.download o) step) (if step = .downloadStep then .reading s else .calm)
      fun _ r => r = .calm := by
    cases step with
    | init => exact calm_of_uses hn stepAfterInit_uses
    | downloadStep => exact stepAfterDownload_spec hn s
    | _ => rfl
  refine Protocol.Spec.seq hstep ?_
  rintro nextStep r rfl
  exact hrest nextStep

/-- `OnDownloadCallback`, for what was written or is a failure to start. -/
theorem onDownloadCallback_spec (hn : n.downloads = true) {p : Progress} (hp : Readable p.endReason) {r : Delivery}
    (hr : r = .refused ∧ p.status = .downloadFail ∨ r = .written p.status) :
    delivering.Spec n (FirmwareFlowManager.onDownloadCallback P f o p) r fun _ r' => r' = .calm := by
  -- the progress is kept and published, whatever came before
  have hset {r : Delivery} (hr : r.pending = false) :
      delivering.Spec n (FirmwareDownloadDataProcessor.setDownloadProgress p) r fun _ r' => r' = r := by
    refine spec_op hn ⟨hp, hr⟩ fun _ _ => ?_
    change delivering.Spec n _ r _
    refine still_spec hn hr ⟨rfl, fun w => ?_⟩
    change Prog.Uses _ (if (!w.processorTasks.isExistTask) = true then _ else _)
    split
    · refine Prog.Uses.bind ⟨rfl, fun l => by cases l <;> trivial⟩ fun t => ?_
      exact ⟨rfl, fun _ => ⟨rfl, fun _ => ⟨rfl, fun _ => trivial⟩⟩⟩
    · exact ⟨rfl, fun _ => ⟨rfl, fun _ => trivial⟩⟩
  have htold {r : Delivery} (hr : r = .calm ∧ p.status = .downloading ∨ ∃ s, r = .told s ∧ p.status ≠ .downloading) :
      delivering.Spec n (FirmwareDownloadDataProcessor.setDownloadProgress p >>= fun _ =>
        if p.status ≠ .downloading then FirmwareFlowManager.execute P f (.download o) else .ret ()) r fun _ r' => r' = .calm := by
    rcases hr with ⟨rfl, hstatus⟩ | ⟨s, rfl, hstatus⟩
    · refine Protocol.Spec.seq (hset rfl) ?_
      rintro _ r rfl
      rw [if_neg (not_not_intro hstatus)]
      rfl
    · refine Protocol.Spec.seq (hset rfl) ?_
      rintro _ r rfl
      rw [if_pos hstatus]
      exact execute_spec hn s
  refine spec_op hn ⟨hp, hr⟩ fun _ _ => htold ?_
  by_cases hstatus : p.status = .downloading
  · exact .inl ⟨if_pos hstatus, hstatus⟩
  · refine .inr ?_
    simp only [next, if_neg hstatus]
    cases r <;> exact ⟨_, rfl, hstatus⟩

/-! ## The callback of the executor -/

theorem verifiedProgress_returns (w : Flow) (packageName : String) {progress : Progress} (hp : Readable progress.endReason) :
    (FirmwareDownloadExecutor.verifiedProgress P w packageName progress).Returns fun p => Readable p.endReason := by
  have hfail : Readable (toString DUpdateErrno.DUPDATE_ERR_VERIFY_PACKAGE_FAIL) := by decide
  unfold FirmwareDownloadExecutor.verifiedProgress
  split
  · exact hp
  · refine Prog.Returns.bind (Prog.returns_true _) fun accepted _ => ?_
    cases accepted with
    | true => exact hp
    | false => exact fun _ => hfail

/-- `DownloadCallback`, for a progress whose end reason can be read. -/
theorem executorCallback_calm (hn : n.downloads = true) (serverUrl packageName : String) {progress : Progress}
    (hp : Readable progress.endReason) :
    Calm n (FirmwareDownloadExecutor.downloadCallback P f o serverUrl packageName progress) := by
  have hend : Calm n (call .getFlow >>= fun w => FirmwareDownloadExecutor.verifiedProgress P w packageName progress >>=
      fun downloadProgress => FirmwareComponentOperator.updateProgressByUrl .downloadCallback serverUrl progress.status
        progress.percent.toInt32 >>= fun _ => FirmwareTaskOperator.updateProgressByTaskId .downloadCallback
          w.executorTasks.taskId downloadProgress.status downloadProgress.percent.toInt32 >>= fun _ =>
            FirmwareFlowManager.onDownloadCallback P f o downloadProgress) := by
    refine calm_call hn rfl fun w _ => ?_
    refine Protocol.Spec.seq (calm_returns hn (calming_of_kinds (ReportAux.verifiedProgress_kinds w packageName progress) rfl
      (ReportAux.verifiedProgress_quiet w packageName progress)) (verifiedProgress_returns w packageName hp)) ?_
    rintro downloadProgress r ⟨hreadable, rfl⟩
    refine calm_op hn rfl fun _ _ => ?_
    -- the task row is written, and the flow told of what was written
    exact spec_op hn rfl fun _ _ => onDownloadCallback_spec hn hreadable (.inr rfl)
  refine calm_op hn rfl fun _ _ => ?_
  dsimp only
  split
  · exact calm_op hn rfl fun _ _ => hend
  · exact hend

/-! ## The thread -/

section Thread

variable {fileName serverUrl : String}

theorem readable_empty : Readable "" := by decide

/-- `DownloadCallback` of the thread, for an error that can be read. -/
theorem threadCallback_calm (hn : n.downloads = true) (percent : UInt32) (status : UpgradeStatus) {error : String}
    (herror : Readable error) (progress : Progress) :
    Calm n (DownloadThread.downloadCallback P f o fileName serverUrl percent status error progress) := by
  have hreport {progress : Progress} (hp : Readable progress.endReason) (abnormal : Bool) :
      Calm n (FirmwareDownloadExecutor.downloadCallback P f o serverUrl fileName progress >>= fun _ =>
        .ret (abnormal, progress)) :=
    calm_bind (executorCallback_calm hn serverUrl fileName hp) fun _ => rfl
  have habnormal (noNet : Bool) : Readable (if noNet then "11" else "9") := by
    cases noNet <;> decide
  have hdeal : Calm n (DownloadThread.dealAbnormal P f o fileName serverUrl percent progress) := by
    refine calm_bind (calm_of_kinds hn KindsAux.isAbnormal_kinds rfl (ReportAux.quiet_of_kinds KindsAux.isAbnormal_kinds rfl)) ?_
    intro abnormal
    cases abnormal with
    | false => rfl
    | true =>
      refine calm_op hn rfl fun noNet _ => calm_op hn rfl fun noNet' _ => calm_op hn rfl fun isCancel _ => ?_
      cases isCancel with
      | false => exact hreport (habnormal noNet) true
      | true => exact calm_op hn rfl fun _ _ => hreport (habnormal noNet) true
  refine calm_op hn rfl fun _ _ => ?_
  change Calm n (DownloadThread.dealAbnormal P f o fileName serverUrl percent progress >>= _)
  refine calm_bind hdeal ?_
  rintro ⟨abnormal, downloadProgress⟩
  have hlast : Calm n (if (percent = DownloadThread.DOWNLOAD_FINISH_PERCENT && status = .downloading) = true then
      .ret (false, downloadProgress)
    else FirmwareDownloadExecutor.downloadCallback P f o serverUrl fileName
      { percent := percent, status := status, endReason := error } >>= fun _ =>
        .ret (false, { percent := percent, status := status, endReason := error })) := by
    split
    · rfl
    · exact hreport herror false
  dsimp only
  split
  · rfl
  · split
    · rfl
    · split
      · refine calm_op hn rfl fun content _ => ?_
        cases content with
        | none => exact hlast
        | some _ => exact calm_op hn rfl fun _ _ => hlast
      · split
        · rfl
        · exact hlast

theorem transfer_calm (hn : n.downloads = true) (events : List TransferEvent) (progress : Progress) :
    Calm n (DownloadThread.transfer P f o fileName serverUrl events progress) := by
  have hprogress (dlTotal dlNow : Nat) (progress : Progress) :
      Calm n (DownloadThread.onDownloadProgress P f o fileName serverUrl dlTotal dlNow progress) := by
    have hlength := KindsAux.getLocalFileLength_kinds fileName
    unfold DownloadThread.onDownloadProgress
    split
    · rfl
    · exact calm_bind (calm_of_kinds hn hlength rfl (ReportAux.quiet_of_kinds hlength rfl)) fun _ =>
        threadCallback_calm hn _ _ readable_empty progress
  induction events generalizing progress with
  | nil => rfl
  | cons event events ih =>
    cases event with
    | data bytes => exact calm_op hn rfl fun _ _ => ih progress
    | progress dlTotal dlNow =>
      refine calm_bind (hprogress dlTotal dlNow progress) ?_
      rintro ⟨error, downloadProgress⟩
      cases error with
      | true => rfl
      | false => exact ih downloadProgress

/-- `ProcessThreadExecute`, for a path that is not refused: the file is opened, and there is a handle for the transfer. -/
theorem processThreadExecute_calm (hn : n.downloads = true) (hdot : hasDot fileName = false) (progress : Progress) :
    Calm n (DownloadThread.processThreadExecute P f o fileName serverUrl progress) := by
  have hreport (percent : UInt32) (status : UpgradeStatus) {error : String} (herror : Readable error) (progress : Progress)
      (again : Bool) : Calm n (DownloadThread.downloadCallback P f o fileName serverUrl percent status error progress >>=
        fun e => .ret (again, e.2)) :=
    calm_bind (threadCallback_calm hn percent status herror progress) fun _ => rfl
  have hcurl : Readable "13" := by decide
  have hlength := KindsAux.getLocalFileLength_kinds fileName
  refine calm_bind (calm_of_kinds hn hlength rfl (ReportAux.quiet_of_kinds hlength rfl)) fun packageSize => ?_
  rw [hdot]
  refine calm_call hn rfl ?_
  rintro _ rfl
  refine calm_call hn rfl ?_
  rintro _ rfl
  refine calm_call hn rfl fun t _ => ?_
  refine calm_bind (transfer_calm hn t.events progress) ?_
  rintro ⟨aborted, downloadProgress⟩
  dsimp only
  generalize (if aborted = true then DownloadThread.CURLE_ABORTED_BY_CALLBACK else t.res) = res
  split
  · split
    · exact hreport 0 .downloadFail hcurl downloadProgress false
    · rfl
  · exact calm_op hn rfl fun _ _ => hreport _ .downloadSuccess readable_empty downloadProgress false

end Thread

theorem executeThreadFunc_calm {fileName serverUrl : String} {i : Nat} (index rounds : Nat) (progress : Progress) :
    Calm (.downloadThread f o i fileName serverUrl)
      (DownloadThread.executeThreadFunc P f o fileName serverUrl index rounds progress) := by
  induction rounds generalizing progress with
  | zero => rfl
  | succ rounds ih =>
    refine calm_call rfl rfl fun exit hexit => ?_
    cases exit with
    | true => rfl
    | false =>
      have hdot : hasDot fileName = false := hexit.resolve_left Bool.noConfusion f o i fileName serverUrl rfl
      refine calm_bind (processThreadExecute_calm rfl hdot progress) ?_
      rintro ⟨again, downloadProgress⟩
      cases again with
      | false => rfl
      | true => exact ih downloadProgress

/-! ## The executor -/

theorem reportComplete_calm (hn : n.downloads = true) (component : FirmwareComponent) :
    Calm n (FirmwareDownloadExecutor.reportComplete P f o component) := by
  have hlength := KindsAux.getLocalFileLength_kinds component.spath
  refine calm_bind (calm_of_kinds hn hlength rfl (ReportAux.quiet_of_kinds hlength rfl)) fun localFileLength => ?_
  split
  · exact calm_op hn rfl fun _ _ => executorCallback_calm hn _ _ readable_empty
  · rfl

/-- The loop of `PerformDownload`: where no thread could be made, the failure is reported right away. -/
theorem performDownloads_calm (hn : n.downloads = true) (components : List FirmwareComponent) (index : Nat)
    (last : Option Thread) : Calm n (FirmwareDownloadExecutor.performDownloads P f o index last components) := by
  have hstart : Readable "3" := by decide
  induction components generalizing index last with
  | nil => rfl
  | cons component components ih =>
    refine calm_bind (reportComplete_calm hn component) fun _ => calm_op hn rfl fun _ _ => ?_
    have hexit : Calm n (FirmwareDownloadExecutor.exitLast index last) := by
      cases last with
      | none => rfl
      | some t => exact calm_op hn rfl fun _ _ => calm_op hn rfl fun _ _ => rfl
    change Calm n (FirmwareDownloadExecutor.exitLast index last >>= _)
    refine calm_bind hexit fun _ => spec_op hn rfl fun created _ => ?_
    cases created with
    | true => exact calm_op hn rfl fun _ _ => calm_op hn rfl fun _ _ => ih _ _
    | false =>
      change delivering.Spec n (FirmwareFlowManager.onDownloadCallback P f o _ >>= _) .refused _
      refine Protocol.Spec.seq (onDownloadCallback_spec hn hstart (.inl ⟨rfl, rfl⟩)) ?_
      rintro _ r rfl
      exact ih _ _

theorem doDownload_calm (hn : n.downloads = true) : Calm n (FirmwareDownloadExecutor.doDownload P f o) := by
  have hperform (tasks : FirmwareTask) (components : List FirmwareComponent) :
      Calm n (FirmwareDownloadExecutor.performDownload P f o tasks components) :=
    calm_bind (performDownloads_calm hn components 0 none) fun _ =>
      calm_of_kinds hn (KindsAux.notifyEvent_kinds ..) rfl (ReportAux.quiet_of_kinds (KindsAux.notifyEvent_kinds ..) rfl)
  have hquery : delivering.Spec n (FirmwareTaskOperator.queryTask .downloadExecutor {}) .calm fun t r =>
      t.downloadTaskId.isEmpty = true ∧ r = .calm := by
    refine spec_op hn rfl fun l hl => ?_
    cases l with
    | nil => exact ⟨rfl, rfl⟩
    | cons t l =>
      have hid : t.downloadTaskId = "" := hl t rfl
      exact ⟨by simp [hid], rfl⟩
  refine calm_call hn rfl fun components hcomponents => calm_op hn rfl fun _ _ => ?_
  have hne : components.isEmpty = false := by
    cases components with
    | nil => exact absurd rfl hcomponents
    | cons => rfl
  rw [hne]
  change Calm n (FirmwareTaskOperator.queryTask .downloadExecutor {} >>= _)
  refine Protocol.Spec.seq hquery ?_
  rintro tasks r ⟨hid, rfl⟩
  refine calm_op hn rfl fun _ _ => ?_
  rw [hid]
  exact hperform tasks components

/-! ## All threads -/

/-- A request leaves the progress of its flow alone. -/
theorem download_uses : (UpdateServiceImplFirmware.download P f o).Uses fun op => ∀ p, op ≠ .setFlow (.downloadProgress p) := by
  have hstep (step : FirmwareStep) : (getNextStep P (.download o) step).Uses fun op => ∀ p, op ≠ .setFlow (.downloadProgress p) := by
    cases step with
    | init =>
      refine Prog.Uses.mono ?_ stepAfterInit_uses
      rintro _ ho p rfl
      cases ho
    | downloadStep =>
      refine Prog.Uses.mono ?_ KindsAux.stepAfterDownload_kinds
      rintro _ ho p rfl
      cases ho
    | _ => trivial
  have hexecute : (FirmwareFlowManager.execute P f (.download o)).Uses fun op => ∀ p, op ≠ .setFlow (.downloadProgress p) := by
    refine ⟨fun _ => Op.noConfusion, fun step => ?_⟩
    change Prog.Uses _ (getNextStep P (.download o) step >>= _)
    refine Prog.Uses.bind (hstep step) fun nextStep => ⟨fun _ => by simp, fun _ => ?_⟩
    split
    · exact ⟨fun _ => Op.noConfusion, fun _ => trivial⟩
    · cases nextStep with
      | downloadStep => exact ⟨fun _ => Op.noConfusion, fun _ => trivial⟩
      | _ => trivial
  refine ⟨fun _ => Op.noConfusion, fun tasks => ?_⟩
  cases tasks with
  | nil => exact ⟨fun _ => by simp, fun _ => trivial⟩
  | cons t l =>
    change Prog.Uses _ (if _ then _ else _)
    split
    · exact ⟨fun _ => by simp, fun _ => trivial⟩
    · exact ⟨fun _ => Op.noConfusion, fun _ => hexecute⟩

/-- A thread that is neither does what it likes. -/
theorem conforms_of_other (hn : n.downloads = false) {p : Prog Unit}
    (hp : n.isDownload = true → p.Uses fun op => ∀ q, op ≠ .setFlow (.downloadProgress q)) (r : Delivery) :
    delivering.Conforms n p r := by
  induction p generalizing r with
  | ret a => trivial
  | op op k ih =>
    refine ⟨⟨fun h => absurd (hn.symm.trans h) Bool.noConfusion, fun h => (hp h).1⟩, fun x _ => ?_⟩
    exact ih x (fun h => (hp h).2 x) _

theorem conforms (P : Platform) (n : Thread) : delivering.Conforms n (body P n) (delivering.entry n) := by
  cases n with
  | downloadExecutor f o => exact (doDownload_calm rfl).mono fun _ _ _ => trivial
  | downloadThread f o i fileName url =>
    exact (executeThreadFunc_calm i DownloadThread.rounds {}).mono fun _ _ _ => trivial
  | download f o => exact conforms_of_other rfl (fun _ => download_uses) _
  | _ => exact conforms_of_other rfl (fun h => absurd h Bool.noConfusion) _

end DispatchAux

end UpdateEngine
