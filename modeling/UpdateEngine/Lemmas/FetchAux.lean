import Mathlib.Algebra.GroupWithZero.Nat
import UpdateEngine.Lemmas.FlowsAux
import UpdateEngine.Lemmas.ReportAux
import UpdateEngine.Theorems.Downloads

/-!
# How a package comes to its size

A package is complete when its file is as long as its row says: because the executor has found it so, or because a transfer brought
what was missing. `Fetch` says what a thread of a download knows of that, `fetching` is the protocol these threads keep to. The
download of a flow is in the hands of one thread at a time: the request hands it to the executor, and the executor to its thread.
-/

namespace UpdateEngine

open Concurrent

/-- The amount of data in a transfer. -/
def Transfer.amount (t : Transfer) : Nat := (t.events.map fun event => match event with
  | .data bytes => bytes.length
  | .progress _ _ => 0).sum

/-- The file a thread of a download fetches. -/
def Thread.fileName : Thread → String
  | .downloadThread _ _ _ fileName _ => fileName
  | _ => ""

/-- What a thread of a download knows of the package. -/
inductive Fetch where
  /-- The download is in the hands of another thread. -/
  | ended
  /-- Nothing. -/
  | idle
  /-- These rows were in the component table. -/
  | listed (rows : List FirmwareComponent)
  /-- The file lacks so many bytes; and what the thread has set `upgradeStatus_` to. -/
  | lacks (path : String) (rest : Nat) (called : Option UpgradeStatus)

namespace FetchAux

open StepAux

/-- What a thread of a download may do. -/
def allowed (n : Thread) (r : Fetch) : Op → Prop
  | .updateTasks .downloadCallback _ (.progress .downloadSuccess _) => ∃ path called, r = .lacks path 0 called
  | .queryComponents .downloadExecutor | .ask (.curlPerform _ _) => r = .idle ∧ n.downloads = true
  | .awaitWake _ => r = .idle
  | .setFlow (.upgradeStatus _) | .spawn _ | .ask .newThread | .enter (.onDownloadCallback _) => r ≠ .ended
  | .openFile _ | .appendFile _ _ | .removeFile _ | .saveDataToFile _ _ => r ≠ .ended
  | .deleteDownloadFiles | .insertComponents _ | .deleteComponents => r ≠ .ended
  | _ => True

/-- What it finds as long as the executor reads one row. -/
def expects (n : Thread) (r : Fetch) : (o : Op) → o.Res → Prop
  | .queryComponents .downloadExecutor, rows => rows.length ≤ 1
  | .getNextStep, step => n.downloads = true → step ≠ .init
  | .getFlow, w => ∀ path rest status, r = .lacks path rest (some status) → w.upgradeStatus = status
  | _, _ => True

/-- What an answer leads to. -/
def next (n : Thread) (r : Fetch) : (o : Op) → o.Res → Fetch
  | .queryComponents .downloadExecutor, rows => .listed rows
  | .readFile path, content => match r with
    | .listed rows =>
      if rows.all fun row => row.spath = path && content.any fun bytes => Int64.ofNat bytes.length = row.size then .lacks path 0 none
      else r
    | _ => r
  | .ask (.curlPerform _ _), t => if t.res = DownloadThread.CURLE_OK then .lacks n.fileName t.amount none else .idle
  | .appendFile path bytes, _ => match r with
    | .lacks path' rest called => if path = path' ∧ bytes.length ≤ rest then .lacks path' (rest - bytes.length) called else .idle
    | _ => .idle
  | .setFlow (.upgradeStatus status), _ => match r with
    | .lacks path rest _ => .lacks path rest (some status)
    | _ => r
  | .enter (.onDownloadCallback p), _ => if p.status = .downloading then r else .idle
  | .spawn _, _ => .ended
  | .ask .newThread, _ | .openFile _, _ | .removeFile _, _ | .saveDataToFile _ _, _ => .idle
  | .deleteDownloadFiles, _ | .insertComponents _, _ | .deleteComponents, _ => .idle
  | _, _ => r

/-- How the threads of downloads come to know. The others have no part in it. -/
def fetching : Protocol Op Op.Res Thread Fetch where
  entry := fun n => if n.kind = .download then .idle else .ended
  allowed := fun n r o => n.kind = .download → allowed n r o
  expects := fun n r o x => n.kind = .download → expects n r o x
  next := fun n r o x => if n.kind = .download then next n r o x else r
  final := fun _ => True

variable {P : Platform} {n : Thread} {f : Nat} {o : DownloadOptions} {α β : Type} {r : Fetch}

/-- One operation of a thread of a download. -/
theorem spec_op (hn : n.kind = .download) {op : Op} {k : op.Res → Prog α} {Q : α → Fetch → Prop} (ha : allowed n r op)
    (hk : ∀ x, expects n r op x → fetching.Spec n (k x) (next n r op x) Q) : fetching.Spec n (.op op k) r Q := by
  refine ⟨fun _ => ha, fun x hx => ?_⟩
  have hnext : fetching.next n r op x = next n r op x := if_pos hn
  rw [hnext]
  exact hk x (hx hn)

/-- The same before a continuation. -/
theorem spec_call (hn : n.kind = .download) {op : Op} {g : op.Res → Prog α} {Q : α → Fetch → Prop} (ha : allowed n r op)
    (hg : ∀ x, expects n r op x → fetching.Spec n (g x) (next n r op x) Q) : fetching.Spec n (call op >>= g) r Q :=
  spec_op hn ha hg

/-- The operations by which a thread neither gets to know anything nor gives anything up. -/
def still : Op → Bool
  | .updateTasks c _ u => match u with
    | .progress s _ => c ≠ .downloadCallback || s ≠ .downloadSuccess
    | _ => true
  | .queryComponents .downloadExecutor | .awaitWake _ | .ask (.curlPerform _ _) | .setFlow (.upgradeStatus _) | .spawn _ => false
  | .ask .newThread | .enter (.onDownloadCallback _) | .openFile _ | .appendFile _ _ | .removeFile _ => false
  | .readFile _ | .saveDataToFile _ _ | .deleteDownloadFiles | .insertComponents _ | .deleteComponents => false
  | _ => true

theorem allowed_of_still {op : Op} (h : still op = true) (n : Thread) (r : Fetch) : allowed n r op ∧ ∀ x, next n r op x = r := by
  cases op with
  | queryComponents c => cases c <;> first | exact ⟨trivial, fun _ => rfl⟩ | cases h
  | updateTasks c i u =>
    cases u with
    | progress s p =>
      refine ⟨?_, fun _ => rfl⟩
      cases c with
      | downloadCallback => cases s <;> trivial
      | _ => trivial
    | _ => exact ⟨by cases c <;> trivial, fun _ => rfl⟩
  | ask q => cases q <;> first | exact ⟨trivial, fun _ => rfl⟩ | cases h
  | setFlow u => cases u <;> first | exact ⟨trivial, fun _ => rfl⟩ | cases h
  | enter m => cases m <;> first | exact ⟨trivial, fun _ => rfl⟩ | cases h
  | awaitWake | spawn | openFile | appendFile | removeFile | readFile | saveDataToFile | deleteDownloadFiles | insertComponents
  | deleteComponents => cases h
  | _ => exact ⟨trivial, fun _ => rfl⟩

theorem still_spec (hn : n.kind = .download) {p : Prog α} (hp : p.Uses fun op => still op = true) :
    fetching.Spec n p r fun _ r' => r' = r := by
  induction p with
  | ret a => rfl
  | op op k ih =>
    obtain ⟨ha, hnext⟩ := allowed_of_still hp.1 n r
    refine spec_op hn ha fun x _ => ?_
    rw [hnext x]
    exact ih x (hp.2 x)

/-- The operations that leave a thread that knows nothing as it is, and may make it give up what it knows. -/
def yields : Op → Bool
  | .readFile _ | .setFlow (.upgradeStatus _) | .ask .newThread | .enter (.onDownloadCallback _) | .openFile _ => true
  | .appendFile _ _ | .removeFile _ | .saveDataToFile _ _ | .deleteDownloadFiles | .insertComponents _ | .deleteComponents => true
  | _ => false

/-- The operations of a thread that knows nothing and stays so. -/
def free (op : Op) : Bool := still op || yields op

theorem allowed_of_free {op : Op} (h : free op = true) (n : Thread) : allowed n .idle op ∧ ∀ x, next n .idle op x = .idle := by
  rcases (Bool.or_eq_true ..).mp h with h | h
  · exact allowed_of_still h n .idle
  · cases op with
    | readFile => exact ⟨trivial, fun _ => rfl⟩
    | openFile | appendFile | removeFile | saveDataToFile | deleteDownloadFiles | insertComponents | deleteComponents =>
      exact ⟨Fetch.noConfusion, fun _ => rfl⟩
    | ask q => cases q <;> first | exact ⟨Fetch.noConfusion, fun _ => rfl⟩ | cases h
    | setFlow u => cases u <;> first | exact ⟨Fetch.noConfusion, fun _ => rfl⟩ | cases h
    | enter m => cases m <;> first | exact ⟨Fetch.noConfusion, fun _ => ite_self ..⟩ | cases h
    | _ => cases h

theorem free_spec (hn : n.kind = .download) {p : Prog α} (hp : p.Uses fun op => free op = true) {R : α → Prop} (hR : p.Returns R) :
    fetching.Spec n p .idle fun a r => R a ∧ r = .idle := by
  induction p with
  | ret a => exact ⟨hR, rfl⟩
  | op op k ih =>
    obtain ⟨ha, hnext⟩ := allowed_of_free hp.1 n
    refine spec_op hn ha fun x _ => ?_
    rw [hnext x]
    exact ih x (hp.2 x) (hR x)

/-- Everything the program does leaves the thread without knowledge. -/
abbrev Idle (n : Thread) (p : Prog α) : Prop := fetching.Spec n p .idle fun _ r => r = .idle

theorem idle_of_uses (hn : n.kind = .download) {p : Prog α} (hp : p.Uses fun op => free op = true) : Idle n p :=
  (free_spec hn hp p.returns_true).mono fun _ _ h => h.2

theorem idle_bind {p : Prog α} {g : α → Prog β} (hp : Idle n p) (hg : ∀ a, Idle n (g a)) : Idle n (p >>= g) := by
  refine Protocol.Spec.seq hp ?_
  rintro a r rfl
  exact hg a

theorem idle_call (hn : n.kind = .download) {op : Op} {g : op.Res → Prog α} (ho : free op = true)
    (hg : ∀ x, expects n .idle op x → Idle n (g x)) : Idle n (call op >>= g) := by
  obtain ⟨ha, hnext⟩ := allowed_of_free ho n
  refine spec_op hn ha fun x hx => ?_
  rw [hnext x]
  exact hg x hx

/-- The kinds of operations that are free when they are no report. -/
def freeKind : OpKind → Bool
  | .choose | .spawn | .ask | .await => false
  | _ => true

theorem free_of_kind {op : Op} (h : freeKind op.kind = true) (hq : op.isReport = false) : free op = true := by
  cases op with
  | queryComponents c => cases c <;> first | rfl | cases h
  | updateTasks c i u =>
    cases u with
    | progress s p => cases c <;> first | rfl | cases hq
    | _ => rfl
  | ask q => cases q <;> first | rfl | cases h
  | setFlow u => cases u <;> rfl
  | enter m => cases m <;> rfl
  | spawn | awaitWake => cases h
  | _ => rfl

theorem idle_of_kinds (hn : n.kind = .download) {l : List OpKind} {p : Prog α} (hp : Kinds l p) (hl : l.all freeKind = true)
    (hq : Silent p) : Idle n p := by
  refine idle_of_uses hn (Prog.Uses.mono ?_ (hp.and hq))
  rintro op ⟨ho, hq⟩
  exact free_of_kind (List.all_eq_true.mp hl _ (List.contains_iff_mem.mp ho)) hq

/-! ## The flow -/

/-- `GetStepAfterDownload` ends the flow. -/
theorem stepAfterDownload_spec (hn : n.kind = .download) :
    fetching.Spec n FirmwareDownloadMode.getStepAfterDownload .idle fun step r => step = .complete ∧ r = .idle := by
  have hend (t : FirmwareTask) (e : ErrorMessage) : fetching.Spec n
      (FirmwareDownloadMode.processStatus t e >>= fun _ => .ret FirmwareStep.complete) .idle fun step r =>
        step = .complete ∧ r = .idle := by
    refine Protocol.Spec.seq (idle_of_kinds hn (KindsAux.processStatus_kinds t e) rfl (ReportAux.processStatus_quiet t e)) ?_
    rintro _ r rfl
    exact ⟨rfl, rfl⟩
  have hquery : Idle n (FirmwareTaskOperator.queryTask .stepAfterDownload {}) :=
    idle_of_uses hn ⟨rfl, fun l => by cases l <;> trivial⟩
  refine Protocol.Spec.seq hquery ?_
  rintro t r rfl
  split
  · exact ⟨rfl, rfl⟩
  · refine spec_op hn trivial fun w _ => ?_
    change fetching.Spec n (if (!w.downloadProgress.endReason.isEmpty) = true then _ else _) .idle _
    split
    · cases stoi w.downloadProgress.endReason with
      | some code => exact hend t _
      | none => exact spec_op hn trivial fun _ _ => ⟨rfl, rfl⟩
    · exact hend t _

/-- A flow that has been given its step and is told of an end does no more than end. -/
theorem execute_idle (hn : n.downloads = true) : Idle n (FirmwareFlowManager.execute P f (.download o)) := by
  have hkind := DownloadsAux.kind_of_downloads hn
  have hrest : Idle n (call (.setFlow (.nextStep .complete)) >>= fun _ => handleComplete P (.download o)) :=
    idle_of_uses hkind ⟨rfl, fun _ => ⟨rfl, fun _ => trivial⟩⟩
  refine spec_op hkind trivial fun step hstep => ?_
  change fetching.Spec n (getNextStep P (.download o) step >>= _) .idle _
  have hcomplete : fetching.Spec n (getNextStep P (.download o) step) .idle fun nextStep r => nextStep = .complete ∧ r = .idle := by
    cases step with
    | init => exact absurd rfl (hstep hn)
    | downloadStep => exact stepAfterDownload_spec hkind
    | _ => exact ⟨rfl, rfl⟩
  refine Protocol.Spec.seq hcomplete ?_
  rintro _ r ⟨rfl, rfl⟩
  exact hrest

theorem setDownloadProgress_still (p : Progress) : (FirmwareDownloadDataProcessor.setDownloadProgress p).Uses fun op => still op = true := by
  refine ⟨rfl, fun _ => ⟨rfl, fun w => ?_⟩⟩
  change Prog.Uses _ (if (!w.processorTasks.isExistTask) = true then _ else _)
  split
  · refine Prog.Uses.bind ⟨rfl, fun l => by cases l <;> trivial⟩ fun t => ?_
    exact ⟨rfl, fun _ => ⟨rfl, fun _ => ⟨rfl, fun _ => trivial⟩⟩⟩
  · exact ⟨rfl, fun _ => ⟨rfl, fun _ => trivial⟩⟩

/-- `OnDownloadCallback`: the end of a download makes the thread give up what it knows. -/
theorem onDownloadCallback_spec (hn : n.downloads = true) (hr : r ≠ .ended) (p : Progress) :
    fetching.Spec n (FirmwareFlowManager.onDownloadCallback P f o p) r fun _ r' =>
      r' = if p.status = .downloading then r else .idle := by
  have hkind := DownloadsAux.kind_of_downloads hn
  refine spec_op hkind hr fun _ _ => ?_
  change fetching.Spec n (FirmwareDownloadDataProcessor.setDownloadProgress p >>= _) (if p.status = .downloading then r else .idle) _
  refine Protocol.Spec.seq (still_spec hkind (setDownloadProgress_still p)) ?_
  rintro _ r' rfl
  by_cases hp : p.status = .downloading
  · rw [if_neg (not_not_intro hp)]
    rfl
  · rw [if_pos hp, if_neg hp]
    exact execute_idle hn

/-! ## The callback of the executor -/

/-- What is reported goes to both rows and to the flow. -/
theorem report_spec (hn : n.downloads = true) (hr : r ≠ .ended) (url taskId : String) (progress downloadProgress : Progress)
    (hsuccess : downloadProgress.status = .downloadSuccess → ∃ path called, r = .lacks path 0 called) :
    fetching.Spec n (FirmwareComponentOperator.updateProgressByUrl .downloadCallback url progress.status progress.percent.toInt32
      >>= fun _ => FirmwareTaskOperator.updateProgressByTaskId .downloadCallback taskId downloadProgress.status
        downloadProgress.percent.toInt32 >>= fun _ => FirmwareFlowManager.onDownloadCallback P f o downloadProgress) r
      fun _ r' => r' = if downloadProgress.status = .downloading then r else .idle := by
  have hkind := DownloadsAux.kind_of_downloads hn
  refine spec_op hkind trivial fun _ _ => spec_op hkind ?_ fun _ _ => onDownloadCallback_spec hn hr downloadProgress
  cases hs : downloadProgress.status with
  | downloadSuccess => exact hsuccess hs
  | _ => trivial

/-- Reading files and passing places leaves a thread that knows how much is missing as it is. -/
theorem lacks_spec (hn : n.kind = .download) {path : String} {rest : Nat} {called : Option UpgradeStatus} {l : List OpKind}
    {p : Prog α} (hp : Kinds l p) (hl : l.all [.read, .stage, .getNoNet, .getCancel].contains = true) (hq : Silent p) :
    fetching.Spec n p (.lacks path rest called) fun _ r => r = .lacks path rest called := by
  refine Protocol.Spec.of_uses (fun op ho => ?_) (hp.and hq)
  have hkind : [OpKind.read, .stage, .getNoNet, .getCancel].contains op.kind = true :=
    List.all_eq_true.mp hl _ (List.contains_iff_mem.mp ho.1)
  have hok : allowed n (.lacks path rest called) op ∧ ∀ x, next n (.lacks path rest called) op x = .lacks path rest called := by
    cases op with
    | readFile => exact ⟨trivial, fun _ => rfl⟩
    | enter m => cases m <;> first | exact ⟨trivial, fun _ => rfl⟩ | cases ho.2
    | getIsNoNet | getIsCancel => exact ⟨trivial, fun _ => rfl⟩
    | queryTasks c => cases c <;> cases hkind
    | queryComponents c => cases c <;> cases hkind
    | updateTasks c i u => cases u <;> cases hkind
    | updateComponents c u => cases c <;> cases hkind
    | setFlow u => cases u <;> cases hkind
    | ask q => cases q <;> cases hkind
    | _ => cases hkind
  refine ⟨fun _ => hok.1, fun x => ?_⟩
  have hnext : fetching.next n (.lacks path rest called) op x = next n (.lacks path rest called) op x := if_pos hn
  rw [hnext, hok.2 x]

/-- The test of a package: it is accepted, or it is removed and the download has failed. -/
theorem verifiedProgress_spec (hn : n.kind = .download) (w : Flow) (pkg : String) (progress : Progress) {path : String} {rest : Nat}
    {called : Option UpgradeStatus} :
    fetching.Spec n (FirmwareDownloadExecutor.verifiedProgress P w pkg progress) (.lacks path rest called) fun p r =>
      (p = progress ∧ r = .lacks path rest called) ∨ (p.status = .downloadFail ∧ r = .idle ∧ w.upgradeStatus = .downloadSuccess) := by
  unfold FirmwareDownloadExecutor.verifiedProgress
  split
  · exact .inl ⟨rfl, rfl⟩
  · rename_i hshown
    refine Protocol.Spec.seq (lacks_spec hn (ReportAux.verifyDownloadPkg_kinds w.components pkg) rfl
      (ReportAux.verifyDownloadPkg_quiet w.components pkg)) ?_
    rintro accepted r rfl
    cases accepted with
    | true => exact .inl ⟨rfl, rfl⟩
    | false => exact spec_op hn Fetch.noConfusion fun _ _ => .inr ⟨rfl, rfl, not_not.mp hshown⟩

/-- `DownloadCallback` of a thread that knows nothing, for anything but a success. -/
theorem executorCallback_idle (hn : n.downloads = true) (url pkg : String) {progress : Progress}
    (hp : progress.status ≠ .downloadSuccess) :
    Idle n (FirmwareDownloadExecutor.downloadCallback P f o url pkg progress) := by
  have hkind := DownloadsAux.kind_of_downloads hn
  have hend : Idle n (call .getFlow >>= fun w => FirmwareDownloadExecutor.verifiedProgress P w pkg progress >>=
      fun downloadProgress => FirmwareComponentOperator.updateProgressByUrl .downloadCallback url progress.status
        progress.percent.toInt32 >>= fun _ => FirmwareTaskOperator.updateProgressByTaskId .downloadCallback
          w.executorTasks.taskId downloadProgress.status downloadProgress.percent.toInt32 >>= fun _ =>
            FirmwareFlowManager.onDownloadCallback P f o downloadProgress) := by
    refine idle_call hkind rfl fun w _ => ?_
    have huses : (FirmwareDownloadExecutor.verifiedProgress P w pkg progress).Uses fun op => free op = true := by
      refine Prog.Uses.mono ?_ ((ReportAux.verifiedProgress_kinds w pkg progress).and (ReportAux.verifiedProgress_quiet w pkg progress))
      rintro op ⟨ho, hq⟩
      exact free_of_kind (List.all_eq_true.mp rfl _ (List.contains_iff_mem.mp ho)) hq
    refine Protocol.Spec.seq (free_spec hkind huses (ReportAux.verifiedProgress_status w pkg progress)) ?_
    rintro downloadProgress r ⟨hstatus, rfl⟩
    refine (report_spec hn Fetch.noConfusion url _ progress downloadProgress fun hs => ?_).mono fun _ r hr => ?_
    · rcases hstatus with rfl | hfail
      · exact absurd hs hp
      · exact absurd (hfail.symm.trans hs) (by decide)
    · rw [hr]
      exact ite_self ..
  refine idle_call hkind rfl fun _ _ => ?_
  split
  · exact idle_call hkind rfl fun _ _ => hend
  · exact hend

/-- `DownloadCallback` of a thread that knows how much is missing, for a success only when nothing is. -/
theorem executorCallback_lacks (hn : n.downloads = true) (url pkg : String) {progress : Progress} {path : String} {rest : Nat}
    {called : Option UpgradeStatus} (hp : progress.status = .downloadSuccess → rest = 0) :
    fetching.Spec n (FirmwareDownloadExecutor.downloadCallback P f o url pkg progress) (.lacks path rest called) fun _ r =>
      if progress.status = .downloading then ∃ called, r = .lacks path rest called else r = .idle := by
  have hkind := DownloadsAux.kind_of_downloads hn
  have hend {shown : UpgradeStatus} (hshown : shown = .downloadSuccess → progress.status = .downloadSuccess) :
      fetching.Spec n (call .getFlow >>= fun w => FirmwareDownloadExecutor.verifiedProgress P w pkg progress >>=
      fun downloadProgress => FirmwareComponentOperator.updateProgressByUrl .downloadCallback url progress.status
        progress.percent.toInt32 >>= fun _ => FirmwareTaskOperator.updateProgressByTaskId .downloadCallback
          w.executorTasks.taskId downloadProgress.status downloadProgress.percent.toInt32 >>= fun _ =>
            FirmwareFlowManager.onDownloadCallback P f o downloadProgress) (.lacks path rest (some shown)) fun _ r =>
      if progress.status = .downloading then ∃ called, r = .lacks path rest called else r = .idle := by
    refine spec_call hkind trivial fun w hw => ?_
    refine Protocol.Spec.seq (verifiedProgress_spec hkind w pkg progress) ?_
    rintro downloadProgress r (⟨rfl, rfl⟩ | ⟨hfail, rfl, hsuccess⟩)
    · refine (report_spec hn Fetch.noConfusion url _ downloadProgress downloadProgress fun hs => ?_).mono fun _ r hr => ?_
      · obtain rfl := hp hs
        exact ⟨path, some shown, rfl⟩
      · subst hr
        split
        · exact ⟨some shown, rfl⟩
        · rfl
    · refine (report_spec hn Fetch.noConfusion url _ progress downloadProgress fun hs => ?_).mono fun _ r hr => ?_
      · exact absurd (hfail.symm.trans hs) (by decide)
      · -- only a success is tested
        have hstatus := hshown ((hw path rest shown rfl).symm.trans hsuccess)
        rw [if_neg (by rw [hstatus]; decide), hr]
        exact ite_self ..
  refine spec_call hkind Fetch.noConfusion fun _ _ => ?_
  split
  · exact spec_call hkind Fetch.noConfusion fun _ _ => hend id
  · exact hend fun h => by cases h

/-! ## The thread -/

section Thread

variable {fileName serverUrl path : String} {rest : Nat} {called : Option UpgradeStatus}

/-- The status of a download that has no network or is cancelled. -/
theorem abnormal_status (noNet : Bool) :
    (if noNet = true then UpgradeStatus.downloadFail else .downloadCancel) ≠ .downloadSuccess ∧
      (if noNet = true then UpgradeStatus.downloadFail else .downloadCancel) ≠ .downloading := by
  cases noNet <;> decide

theorem dealAbnormal_idle (hn : n.downloads = true) (percent : UInt32) (progress : Progress) :
    Idle n (DownloadThread.dealAbnormal P f o fileName serverUrl percent progress) := by
  have hkind := DownloadsAux.kind_of_downloads hn
  refine idle_bind (idle_of_kinds hkind KindsAux.isAbnormal_kinds rfl (ReportAux.quiet_of_kinds KindsAux.isAbnormal_kinds rfl)) ?_
  intro abnormal
  cases abnormal with
  | false => rfl
  | true =>
    refine idle_call hkind rfl fun noNet _ => idle_call hkind rfl fun noNet' _ => idle_call hkind rfl fun isCancel _ => ?_
    have hreport (progress : Progress) (hp : progress.status ≠ .downloadSuccess) :
        Idle n (FirmwareDownloadExecutor.downloadCallback P f o serverUrl fileName progress >>= fun _ => .ret (true, progress)) :=
      idle_bind (executorCallback_idle hn serverUrl fileName hp) fun _ => rfl
    cases isCancel with
    | false => exact hreport _ (abnormal_status noNet').1
    | true => exact idle_call hkind rfl fun _ _ => hreport _ (abnormal_status noNet').1

/-- `DealAbnormal`: the thread goes on as before, or an end is reported. -/
theorem dealAbnormal_lacks (hn : n.downloads = true) (percent : UInt32) (progress : Progress) :
    fetching.Spec n (DownloadThread.dealAbnormal P f o fileName serverUrl percent progress) (.lacks path rest called) fun e r =>
      (e.1 = true ∧ r = .idle) ∨ (e.1 = false ∧ r = .lacks path rest called) := by
  have hkind := DownloadsAux.kind_of_downloads hn
  refine Protocol.Spec.seq (lacks_spec hkind KindsAux.isAbnormal_kinds rfl (ReportAux.quiet_of_kinds KindsAux.isAbnormal_kinds rfl)) ?_
  rintro abnormal r rfl
  cases abnormal with
  | false => exact .inr ⟨rfl, rfl⟩
  | true =>
    refine spec_call hkind trivial fun noNet _ => spec_call hkind trivial fun noNet' _ => spec_call hkind trivial fun isCancel _ => ?_
    have hreport (progress : Progress) (hp : progress.status ≠ .downloadSuccess ∧ progress.status ≠ .downloading) :
        fetching.Spec n (FirmwareDownloadExecutor.downloadCallback P f o serverUrl fileName progress >>= fun _ =>
          .ret (true, progress)) (.lacks path rest called) fun e r =>
            (e.1 = true ∧ r = .idle) ∨ (e.1 = false ∧ r = .lacks path rest called) := by
      refine Protocol.Spec.seq (executorCallback_lacks hn serverUrl fileName fun hs => absurd hs hp.1) ?_
      intro _ r hr
      exact .inl ⟨rfl, (if_neg hp.2).mp hr⟩
    cases isCancel with
    | false => exact hreport _ (abnormal_status noNet')
    | true => exact spec_call hkind trivial fun _ _ => hreport _ (abnormal_status noNet')

theorem threadCallback_idle (hn : n.downloads = true) (percent : UInt32) {status : UpgradeStatus} (hs : status ≠ .downloadSuccess)
    (error : String) (progress : Progress) :
    Idle n (DownloadThread.downloadCallback P f o fileName serverUrl percent status error progress) := by
  have hkind := DownloadsAux.kind_of_downloads hn
  refine idle_call hkind rfl fun _ _ => idle_bind (dealAbnormal_idle hn percent progress) ?_
  rintro ⟨abnormal, downloadProgress⟩
  have hlast : Idle n (if (percent = DownloadThread.DOWNLOAD_FINISH_PERCENT && status = .downloading) = true then
      .ret (false, downloadProgress)
    else FirmwareDownloadExecutor.downloadCallback P f o serverUrl fileName
      { percent := percent, status := status, endReason := error } >>= fun _ =>
        .ret (false, { percent := percent, status := status, endReason := error })) := by
    split
    · rfl
    · exact idle_bind (executorCallback_idle hn serverUrl fileName hs) fun _ => rfl
  dsimp only
  split
  · rfl
  · split
    · rfl
    · split
      · refine idle_call hkind rfl fun content _ => ?_
        cases content with
        | none => exact hlast
        | some _ => exact idle_call hkind rfl fun _ _ => hlast
      · split
        · rfl
        · exact hlast

/-- `DownloadCallback` for a progress on the way, or for the success when nothing is missing. -/
theorem threadCallback_lacks (hn : n.downloads = true) (percent : UInt32) {status : UpgradeStatus}
    (hs : status = .downloading ∨ status = .downloadSuccess ∧ rest = 0) (error : String) (progress : Progress) :
    fetching.Spec n (DownloadThread.downloadCallback P f o fileName serverUrl percent status error progress)
      (.lacks path rest called) fun e r =>
        status = .downloading → (e.1 = true ∧ r = .idle) ∨ (e.1 = false ∧ ∃ called, r = .lacks path rest called) := by
  have hkind := DownloadsAux.kind_of_downloads hn
  refine spec_call hkind trivial fun _ _ => Protocol.Spec.seq (dealAbnormal_lacks hn percent progress) ?_
  rintro ⟨abnormal, downloadProgress⟩ r (⟨rfl, rfl⟩ | ⟨rfl, rfl⟩)
  · exact fun _ => .inl ⟨rfl, rfl⟩
  have hsame (e : Bool × Progress) (he : e.1 = false) : fetching.Spec n (.ret e) (.lacks path rest called) fun e r =>
      status = .downloading → (e.1 = true ∧ r = .idle) ∨ (e.1 = false ∧ ∃ called, r = .lacks path rest called) :=
    fun _ => .inr ⟨he, called, rfl⟩
  dsimp only
  rw [if_neg Bool.false_ne_true]
  split
  · exact hsame _ rfl
  · rw [if_neg (by rcases hs with rfl | ⟨rfl, -⟩ <;> decide)]
    split
    · exact hsame _ rfl
    · split
      · exact hsame _ rfl
      · refine Protocol.Spec.seq (executorCallback_lacks hn serverUrl fileName fun h => ?_) ?_
        · rcases hs with rfl | ⟨-, hrest⟩
          · cases h
          · exact hrest
        · rintro _ r hr rfl
          exact .inr ⟨rfl, (if_pos rfl).mp hr⟩

theorem onDownloadProgress_idle (hn : n.downloads = true) (dlTotal dlNow : Nat) (progress : Progress) :
    Idle n (DownloadThread.onDownloadProgress P f o fileName serverUrl dlTotal dlNow progress) := by
  have hlength := KindsAux.getLocalFileLength_kinds fileName
  unfold DownloadThread.onDownloadProgress
  split
  · rfl
  · exact idle_bind (idle_of_kinds (DownloadsAux.kind_of_downloads hn) hlength rfl (ReportAux.quiet_of_kinds hlength rfl)) fun _ =>
      threadCallback_idle hn _ (by decide) "" progress

theorem onDownloadProgress_lacks (hn : n.downloads = true) (dlTotal dlNow : Nat) (progress : Progress) :
    fetching.Spec n (DownloadThread.onDownloadProgress P f o fileName serverUrl dlTotal dlNow progress) (.lacks path rest called)
      fun e r => (e.1 = true ∧ r = .idle) ∨ (e.1 = false ∧ ∃ called, r = .lacks path rest called) := by
  have hlength := KindsAux.getLocalFileLength_kinds fileName
  unfold DownloadThread.onDownloadProgress
  split
  · exact .inr ⟨rfl, called, rfl⟩
  · refine Protocol.Spec.seq (lacks_spec (DownloadsAux.kind_of_downloads hn) hlength rfl (ReportAux.quiet_of_kinds hlength rfl)) ?_
    rintro _ r rfl
    exact (threadCallback_lacks hn _ (.inl rfl) "" progress).mono fun _ _ h => h rfl

theorem transfer_idle (hn : n.downloads = true) (events : List TransferEvent) (progress : Progress) :
    Idle n (DownloadThread.transfer P f o fileName serverUrl events progress) := by
  induction events generalizing progress with
  | nil => rfl
  | cons event events ih =>
    cases event with
    | data bytes => exact idle_call (DownloadsAux.kind_of_downloads hn) rfl fun _ _ => ih progress
    | progress dlTotal dlNow =>
      refine idle_bind (onDownloadProgress_idle hn dlTotal dlNow progress) ?_
      rintro ⟨error, downloadProgress⟩
      cases error with
      | true => rfl
      | false => exact ih downloadProgress

/-- A transfer that is not stopped brings all of its data. -/
theorem transfer_lacks (hn : n.downloads = true) (events : List TransferEvent) (progress : Progress) :
    fetching.Spec n (DownloadThread.transfer P f o fileName serverUrl events progress)
      (.lacks fileName (Transfer.amount { events := events }) called) fun e r =>
        (e.1 = true ∧ r = .idle) ∨ (e.1 = false ∧ ∃ called, r = .lacks fileName 0 called) := by
  induction events generalizing progress called with
  | nil => exact .inr ⟨rfl, called, rfl⟩
  | cons event events ih =>
    cases event with
    | data bytes =>
      refine spec_call (DownloadsAux.kind_of_downloads hn) Fetch.noConfusion fun _ _ => ?_
      have hamount : Transfer.amount { events := .data bytes :: events } = bytes.length + Transfer.amount { events := events } := by
        simp [Transfer.amount]
      have hnext (x : Unit) : next n (.lacks fileName (Transfer.amount { events := .data bytes :: events }) called)
          (.appendFile fileName bytes) x = .lacks fileName (Transfer.amount { events := events }) called := by
        change (if _ then Fetch.lacks _ _ _ else _) = _
        rw [hamount, if_pos ⟨rfl, by omega⟩, Nat.add_sub_cancel_left]
      rw [hnext]
      exact ih progress
    | progress dlTotal dlNow =>
      have hamount : Transfer.amount { events := .progress dlTotal dlNow :: events } = Transfer.amount { events := events } := by
        simp [Transfer.amount]
      rw [hamount]
      refine Protocol.Spec.seq (onDownloadProgress_lacks hn dlTotal dlNow progress) ?_
      rintro ⟨error, downloadProgress⟩ r (⟨rfl, rfl⟩ | ⟨rfl, called, rfl⟩)
      · exact .inl ⟨rfl, rfl⟩
      · exact ih downloadProgress

/-- `ProcessThreadExecute`: a thread that waits for another start knows nothing. -/
theorem processThreadExecute_spec (hn : n.downloads = true) (hname : n.fileName = fileName) (progress : Progress) :
    fetching.Spec n (DownloadThread.processThreadExecute P f o fileName serverUrl progress) .idle fun e r =>
      e.1 = true → r = .idle := by
  have hkind := DownloadsAux.kind_of_downloads hn
  have hlength := KindsAux.getLocalFileLength_kinds fileName
  -- a failure is reported by a thread that knows nothing
  have hfail (percent : UInt32) (error : String) (progress : Progress) (again : Bool) :
      fetching.Spec n (DownloadThread.downloadCallback P f o fileName serverUrl percent .downloadFail error progress >>= fun e =>
        .ret (again, e.2)) .idle fun e r => e.1 = true → r = .idle := by
    refine Protocol.Spec.seq (threadCallback_idle hn percent (by decide) error progress) ?_
    rintro _ r rfl _
    rfl
  refine Protocol.Spec.seq (idle_of_kinds hkind hlength rfl (ReportAux.quiet_of_kinds hlength rfl)) ?_
  rintro packageSize r rfl
  dsimp only
  split
  · exact hfail 0 _ progress true
  refine spec_call hkind Fetch.noConfusion fun opened _ => ?_
  cases opened with
  | false => exact hfail 0 _ progress true
  | true =>
    refine spec_call hkind trivial fun handle _ => ?_
    cases handle with
    | false => exact hfail 0 _ progress true
    | true =>
      refine spec_call hkind ⟨rfl, hn⟩ fun t _ => ?_
      change fetching.Spec n (DownloadThread.transfer P f o fileName serverUrl t.events progress >>= _)
        (if t.res = DownloadThread.CURLE_OK then .lacks n.fileName t.amount none else .idle) _
      by_cases hres : t.res = DownloadThread.CURLE_OK
      · rw [if_pos hres, hname]
        refine Protocol.Spec.seq (transfer_lacks hn t.events progress) ?_
        rintro ⟨aborted, downloadProgress⟩ r (⟨rfl, rfl⟩ | ⟨rfl, called, rfl⟩)
        · exact fun _ => rfl
        · have hok : (if false = true then DownloadThread.CURLE_ABORTED_BY_CALLBACK else t.res) = DownloadThread.CURLE_OK := hres
          dsimp only
          rw [if_neg (not_not_intro hok)]
          refine spec_call hkind trivial fun _ _ => ?_
          refine Protocol.Spec.seq (threadCallback_lacks hn _ (.inr ⟨rfl, rfl⟩) "" downloadProgress) ?_
          intro _ r _ h
          cases h
      · rw [if_neg hres]
        refine Protocol.Spec.seq (transfer_idle hn t.events progress) ?_
        rintro ⟨aborted, downloadProgress⟩ r rfl
        have hnot : (if aborted = true then DownloadThread.CURLE_ABORTED_BY_CALLBACK else t.res) ≠ DownloadThread.CURLE_OK := by
          cases aborted with
          | true => exact Nat.succ_ne_zero 41
          | false => exact hres
        dsimp only
        generalize (if aborted = true then DownloadThread.CURLE_ABORTED_BY_CALLBACK else t.res) = res at hnot
        rw [if_pos hnot]
        split
        · exact hfail 0 "13" downloadProgress false
        · exact fun _ => rfl

theorem executeThreadFunc_conforms (hn : n.downloads = true) (hname : n.fileName = fileName) (index rounds : Nat)
    (progress : Progress) :
    fetching.Conforms n (DownloadThread.executeThreadFunc P f o fileName serverUrl index rounds progress) .idle := by
  induction rounds generalizing progress with
  | zero => trivial
  | succ rounds ih =>
    refine spec_call (DownloadsAux.kind_of_downloads hn) rfl fun exit _ => ?_
    cases exit with
    | true => trivial
    | false =>
      refine Protocol.Spec.seq (processThreadExecute_spec hn hname progress) ?_
      rintro ⟨again, downloadProgress⟩ r hr
      cases again with
      | false => trivial
      | true =>
        obtain rfl := hr rfl
        exact ih downloadProgress

end Thread

/-! ## The executor -/

/-- A file of the full size, as the executor compares: both sides are unsigned there. -/
theorem size_of_length {size : Int64} {content : Option Bytes} (h : UInt64.ofNat ((content.map List.length).getD 0) = size.toUInt64)
    (hne : size ≠ 0) : content.any (fun bytes => Int64.ofNat bytes.length = size) = true := by
  have hsize : Int64.ofNat ((content.map List.length).getD 0) = size := by
    rw [← Int64.toInt64_toUInt64 size, ← h]
    rfl
  cases content with
  | none => exact absurd hsize.symm hne
  | some bytes => exact decide_eq_true hsize

/-- The start of a round of `PerformDownload`, for the only row. -/
theorem reportComplete_spec (hn : n.downloads = true) (component : FirmwareComponent) :
    fetching.Spec n (FirmwareDownloadExecutor.reportComplete P f o component) (.listed [component]) fun _ r => r ≠ .ended := by
  have hkind := DownloadsAux.kind_of_downloads hn
  unfold FirmwareDownloadExecutor.reportComplete DownloadThread.getLocalFileLength
  split
  · -- a path that is refused counts as empty
    change fetching.Spec n (if _ then _ else _) (.listed [component]) _
    rw [if_neg]
    · exact Fetch.noConfusion
    · simp only [Bool.and_eq_true, decide_eq_true_eq]
      rintro ⟨hzero, hne⟩
      exact hne (by rw [← Int64.toInt64_toUInt64 component.size, ← hzero]; rfl)
  · refine spec_call hkind trivial fun content _ => ?_
    change fetching.Spec n (if _ then _ else _) (if _ then _ else _) _
    split
    · rename_i hcomplete
      simp only [Bool.and_eq_true, decide_eq_true_eq] at hcomplete
      rw [if_pos (by simp [size_of_length hcomplete.1 hcomplete.2])]
      refine spec_call hkind trivial fun _ _ => ?_
      refine (executorCallback_lacks hn component.url component.spath fun _ => rfl).mono ?_
      rintro _ r rfl
      exact Fetch.noConfusion
    · split <;> exact Fetch.noConfusion

/-- The loop of `PerformDownload` for the only row: the download is handed to the thread, if there is one. -/
theorem performDownloads_spec (hn : n.downloads = true) (component : FirmwareComponent) :
    fetching.Spec n (FirmwareDownloadExecutor.performDownloads P f o 0 none [component]) (.listed [component]) fun _ _ => True := by
  have hkind := DownloadsAux.kind_of_downloads hn
  refine Protocol.Spec.seq (reportComplete_spec hn component) fun _ r hr => spec_call hkind hr fun _ _ => ?_
  have hset : next n r (.setFlow (.upgradeStatus .downloading)) () ≠ .ended := by
    cases r with
    | ended => exact absurd rfl hr
    | _ => exact Fetch.noConfusion
  refine spec_call hkind hset fun created _ => ?_
  cases created with
  | true => exact spec_call hkind Fetch.noConfusion fun _ _ => spec_call hkind trivial fun _ _ => trivial
  | false =>
    change fetching.Spec n (FirmwareFlowManager.onDownloadCallback P f o _ >>= _) .idle _
    exact Protocol.Spec.seq (onDownloadCallback_spec hn Fetch.noConfusion _) fun _ _ _ => trivial

theorem doDownload_conforms (hn : n.downloads = true) : fetching.Conforms n (FirmwareDownloadExecutor.doDownload P f o) .idle := by
  have hkind := DownloadsAux.kind_of_downloads hn
  have hend {r : Fetch} (hr : r ≠ .ended) (progress : Progress) :
      fetching.Conforms n (FirmwareFlowManager.onDownloadCallback P f o progress) r :=
    (onDownloadCallback_spec hn hr progress).mono fun _ _ _ => trivial
  refine spec_call hkind ⟨rfl, hn⟩ fun components hlength => spec_call hkind trivial fun _ _ => ?_
  change fetching.Conforms n (if components.isEmpty = true then _ else _) (.listed components)
  split
  · exact hend Fetch.noConfusion _
  · rename_i hne
    obtain ⟨component, rfl⟩ : ∃ component, components = [component] := by
      refine List.length_eq_one_iff.mp ?_
      have hpos := List.length_pos_iff.mpr (mt List.isEmpty_iff.mpr hne)
      have hle : components.length ≤ 1 := hlength
      omega
    have hquery : (FirmwareTaskOperator.queryTask .downloadExecutor {}).Uses fun op => still op = true :=
      ⟨rfl, fun l => by cases l <;> trivial⟩
    refine Protocol.Spec.seq (still_spec hkind hquery) ?_
    rintro tasks r rfl
    refine spec_call hkind trivial fun _ _ => ?_
    change fetching.Conforms n (if tasks.downloadTaskId.isEmpty = true then _ else _) (.listed [component])
    split
    · refine Protocol.Spec.seq (performDownloads_spec hn component) fun _ r _ => ?_
      exact spec_op hkind trivial fun _ _ => trivial
    · exact hend Fetch.noConfusion _

/-! ## The request -/

theorem free_of_prepares {op : Op} (h : ReportAux.prepares op = true) : free op = true := by
  cases op with
  | queryTasks => rfl
  | queryComponents c => cases c <;> first | rfl | cases h
  | setFlow u => cases u <;> rfl
  | ask q => cases q <;> first | rfl | cases h
  | getNetType => rfl
  | _ => cases h

/-- A request hands the download to the executor it starts, and does nothing more. -/
theorem download_conforms (hn : n.kind = .download) : fetching.Conforms n (UpdateServiceImplFirmware.download P f o) .idle := by
  have hstep (step : FirmwareStep) : Idle n (getNextStep P (.download o) step) := by
    cases step with
    | init => exact idle_of_uses hn (Prog.Uses.mono (fun _ => free_of_prepares) ReportAux.stepAfterInit_prepares)
    | downloadStep => exact (stepAfterDownload_spec hn).mono fun _ _ h => h.2
    | _ => rfl
  have hexecute : fetching.Conforms n (FirmwareFlowManager.execute P f (.download o)) .idle := by
    refine spec_call hn trivial fun step _ => Protocol.Spec.seq (hstep step) ?_
    rintro nextStep r rfl
    refine spec_call hn trivial fun _ _ => ?_
    split
    · exact spec_call hn trivial fun _ _ => trivial
    · cases nextStep with
      | downloadStep => exact spec_op hn Fetch.noConfusion fun _ _ => trivial
      | _ => trivial
  refine spec_op hn trivial fun tasks _ => ?_
  cases tasks with
  | nil => exact spec_op hn trivial fun _ _ => trivial
  | cons t l =>
    change fetching.Conforms n (if _ then _ else _) .idle
    split
    · exact spec_op hn trivial fun _ _ => trivial
    · exact spec_op hn trivial fun _ _ => hexecute

/-! ## All threads -/

/-- A thread of no download has no part in it. -/
theorem conforms_of_other (hn : n.kind ≠ .download) (p : Prog Unit) (r : Fetch) : fetching.Conforms n p r := by
  induction p generalizing r with
  | ret a => trivial
  | op op k ih => exact ⟨fun h => absurd h hn, fun x _ => ih x _⟩

theorem conforms (P : Platform) (n : Thread) : fetching.Conforms n (body P n) (fetching.entry n) := by
  cases n with
  | download f o => exact download_conforms rfl
  | downloadExecutor f o => exact doDownload_conforms rfl
  | downloadThread f o i fileName url => exact executeThreadFunc_conforms rfl rfl i DownloadThread.rounds {}
  | upgrade f o =>
    refine conforms_of_other ?_ _ _
    simp only [Thread.kind]
    split
    · exact FlowKind.noConfusion
    · split <;> exact FlowKind.noConfusion
  | _ => exact conforms_of_other FlowKind.noConfusion _ _

end FetchAux

end UpdateEngine
