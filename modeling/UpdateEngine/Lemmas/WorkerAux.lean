import UpdateEngine.Lemmas.ConformAux

/-!
# The texts of the download threads keep to the outline

`FirmwareDownloadExecutor` and `DownloadThread`: from the end of a report inwards.
-/

namespace UpdateEngine

open Concurrent KindsAux PlainAux ConformAux

namespace WorkerAux

variable {P : Platform} {n : Thread}

/-! ## The end of a report -/

theorem steady_working (w : Worker) : Steady (.download { w with phase := .working }) :=
  ⟨⟨nofun, nofun⟩, nofun, nofun⟩

theorem steady_closing (w : Worker) (won : Bool) (read : Option UpgradeStatus) :
    Steady (.download { w with phase := .closing won read }) :=
  ⟨⟨nofun, nofun⟩, nofun, nofun⟩

/-- `DownloadCancelProcess`, for a task row that said so. -/
theorem downloadCancelProcess_spec (w : Worker) (won : Bool) (t : FirmwareTask) (e : ErrorMessage) :
    (outline P).Spec n (FirmwareDownloadMode.downloadCancelProcess t e)
      (.download { w with phase := .closing won (some .downloadCancel) }) fun _ r' =>
      r' = .download { w with phase := .closing won (some .downloadCancel) } := by
  refine Kinds.skip (notifyEvent_kinds ..) rfl (steady_closing ..) fun _ => ?_
  refine ⟨.inr ⟨rfl, rfl, won, rfl⟩, fun _ _ => ⟨⟨nofun, nofun⟩, fun rows _ => ?_⟩⟩
  show (outline P).Spec n (List.forM rows _ >>= _) (.download { w with phase := .closing won (some .downloadCancel) }) _
  have hloop : Kinds [.rows] (rows.forM fun c =>
      FirmwareComponentOperator.updateProgressByUrl .stepAfterDownload c.url .checkVersionSuccess 0) :=
    Prog.uses_forM _ _ fun c _ => updateProgressByUrl_kinds rfl
  refine Kinds.skip hloop rfl (steady_closing ..) fun _ => ⟨⟨nofun, nofun⟩, fun _ _ => ?_⟩
  exact ⟨⟨won, _, rfl, .inr rfl⟩, fun _ _ => rfl⟩

/-- The switch of `GetStepAfterDownload`, for the row that was read. -/
theorem processStatus_spec (w : Worker) (won : Bool) (t : FirmwareTask) (e : ErrorMessage) :
    (outline P).Spec n (FirmwareDownloadMode.processStatus t e) (.download { w with phase := .closing won (some t.status) })
      fun _ r' => r' = .download { w with phase := .closing won (some t.status) } := by
  unfold FirmwareDownloadMode.processStatus
  split
  · exact (notifyEvent_kinds ..).spec rfl (steady_closing ..)
  · rename_i h
    rw [h]
    refine Kinds.skip (notifyEvent_kinds ..) rfl (steady_closing ..) fun _ => ?_
    exact clearFirmwareInfo_spec (steady_closing ..) ⟨won, rfl⟩ ⟨won, _, rfl, .inl rfl⟩
  · rename_i h
    rw [h]
    exact downloadCancelProcess_spec w won t e
  · exact (notifyEvent_kinds ..).spec rfl (steady_closing ..)
  · rfl

/-- `GetStepAfterDownload` ends the flow, whatever it does on the way. -/
theorem stepAfterDownload_spec (w : Worker) (won : Bool) (read : Option UpgradeStatus) :
    (outline P).Spec n FirmwareDownloadMode.getStepAfterDownload (.download { w with phase := .closing won read }) fun s r' =>
      s = .complete ∧ ∃ read', r' = .download { w with phase := .closing won read' } := by
  simp only [FirmwareDownloadMode.getStepAfterDownload, FirmwareTaskOperator.queryTask, Prog.perform_bind, Prog.op_bind]
  refine ⟨(steady_closing ..).free, fun tasks _ => ?_⟩
  show (outline P).Spec n _ (.download { w with phase := .closing won (tasks.head?.map (·.status)) }) _
  cases tasks with
  | nil => exact ⟨rfl, none, rfl⟩
  | cons t l =>
    simp only [Prog.pure_eq, Prog.ret_bind, Bool.not_true, Bool.false_eq_true, if_false]
    refine ⟨(steady_closing ..).free, fun x _ => ?_⟩
    show (outline P).Spec n _ (.download { w with phase := .closing won (some t.status) }) _
    have hend (e : ErrorMessage) : (outline P).Spec n
        (FirmwareDownloadMode.processStatus { t with isExistTask := true } e >>= fun _ => .ret FirmwareStep.complete)
        (.download { w with phase := .closing won (some t.status) }) fun s r' =>
          s = .complete ∧ ∃ read', r' = .download { w with phase := .closing won read' } :=
      Protocol.Spec.seq (processStatus_spec w won { t with isExistTask := true } e) fun _ _ h => ⟨rfl, _, h⟩
    dsimp only
    split
    · cases stoi x.downloadProgress.endReason with
      | some c => exact hend _
      | none => exact ⟨(steady_closing ..).free, fun _ _ => ⟨rfl, _, rfl⟩⟩
    · exact hend _

/-- The worker between two reports: a thread that has reported an end has nothing more to do. -/
def after (n : Thread) (w : Worker) (s : UpgradeStatus) : Worker :=
  { w with phase := if s = .downloading || n.isDownloadExecutor || w.raced then .working else .finished }

/-- `Execute` once an end has been reported. -/
theorem executeClosing_spec {f : Nat} {o : DownloadOptions} (w : Worker) (won : Bool) (read : Option UpgradeStatus) :
    (outline P).Spec n (FirmwareFlowManager.execute P f (.download o)) (.download { w with phase := .closing won read })
      fun _ r' => r' = .download { w with phase := if n.isDownloadExecutor || w.raced then .working else .finished } := by
  simp only [FirmwareFlowManager.execute, Prog.perform_bind]
  refine ⟨.inr (.inr ⟨(steady_closing ..).free, rfl⟩), fun s hs => ?_⟩
  have hstep : (outline P).Spec n (getNextStep P (.download o) s) (.download { w with phase := .closing won read })
      fun s r' => s = .complete ∧ ∃ read', r' = .download { w with phase := .closing won read' } := by
    cases s with
    | init => exact absurd (hs.1.mp rfl) (by simp [Role.entering])
    | downloadStep => exact stepAfterDownload_spec w won read
    | _ => exact ⟨rfl, read, rfl⟩
  refine Protocol.Spec.seq hstep fun _ r' h => ?_
  obtain ⟨rfl, read', rfl⟩ := h
  refine ⟨⟨by decide, .inr (.inr (.inr (.inr ⟨(steady_closing ..).free, rfl, rfl⟩)))⟩, fun _ _ => ?_⟩
  exact ⟨(steady_closing ..).free, fun _ _ => rfl⟩

/-- `OnDownloadCallback`. -/
theorem onDownloadCallback_spec {f : Nat} {o : DownloadOptions} (w : Worker) (p : Progress)
    (h : w.phase = .recorded p.status ∨ (n.isDownloadExecutor ∧ w.phase = .working ∧ p.status = .downloadFail)) :
    (outline P).Spec n (FirmwareFlowManager.onDownloadCallback P f o p) (.download w) fun _ r' =>
      r' = .download (after n w p.status) := by
  simp only [FirmwareFlowManager.onDownloadCallback, Prog.perform_bind]
  refine ⟨⟨w, rfl, h⟩, fun _ _ => ?_⟩
  show (outline P).Spec n (FirmwareDownloadDataProcessor.setDownloadProgress p >>= _) (.download { w with
    phase := if p.status = .downloading then .working else .closing (p.status = .downloadSuccess) none }) _
  by_cases hs : p.status = .downloading
  · simp only [hs, if_true]
    refine Kinds.skip (setDownloadProgress_kinds p) rfl (steady_working w) fun _ => ?_
    simp [after]
  · simp only [hs, if_false]
    refine Kinds.skip (setDownloadProgress_kinds p) rfl (steady_closing ..) fun _ => ?_
    rw [if_pos hs]
    refine (executeClosing_spec w _ _).mono fun _ r' h => ?_
    simpa [after, hs] using h

/-! ## A report -/

/-- `CheckFileSha256String`, for the package at hand. -/
theorem checkFileSha256String_spec {pkg : String} (w : Worker) (shown : UpgradeStatus) (components : List FirmwareComponent)
    (hp : w.path n = some pkg) :
    (outline P).Spec n
      (Sha256Utils.checkFileSha256String P pkg (FirmwareDownloadExecutor.verifyInfoOf components pkg))
      (.download { w with phase := .verifying shown components none none }) fun b r' =>
      ∃ seen v raced, r' = .download { w with phase := .verifying shown components seen v, raced := raced } ∧
        (w.raced = true → raced = true) ∧ (b = true → v = none → raced = true) ∧ (b = false → v = none) := by
  simp only [Sha256Utils.checkFileSha256String, FileUtils.isFileExist, Sha256Utils.getFileSha256Str, Prog.perform_bind,
    Prog.op_bind]
  refine ⟨⟨nofun, nofun⟩, fun content _ => ?_⟩
  cases content with
  | none => exact ⟨some (pkg, none), none, w.raced, rfl, id, nofun, fun _ => rfl⟩
  | some bytes =>
    refine ⟨⟨nofun, nofun⟩, fun content _ => ?_⟩
    cases content with
    | none =>
      show (outline P).Spec n _ (.download { w with
        phase := .verifying shown components (some (pkg, none)) none, raced := w.raced || true }) _
      simp only [Prog.pure_eq, Prog.ret_bind]
      split
      · exact ⟨_, none, _, rfl, fun h => by simp [h], nofun, fun _ => rfl⟩
      · exact ⟨_, none, _, rfl, fun h => by simp [h], fun _ _ => Bool.or_true _, nofun⟩
    | some bytes' =>
      show (outline P).Spec n _ (.download { w with
        phase := .verifying shown components (some (pkg, some bytes')) none, raced := w.raced || false }) _
      simp only [Prog.pure_eq, Prog.ret_bind]
      split
      · exact ⟨_, none, _, rfl, fun h => by simp [h], nofun, fun _ => rfl⟩
      · rename_i hsame
        refine ⟨⟨_, shown, components, rfl, rfl, hp, rfl, by simpa using hsame⟩, fun _ _ => ?_⟩
        exact ⟨_, some _, _, rfl, fun h => by simp [h], fun _ h => absurd h (by simp), nofun⟩

/-- `VerifyDownloadPkg`. -/
theorem verifyDownloadPkg_spec {pkg : String} (w : Worker) (shown : UpgradeStatus) (components : List FirmwareComponent)
    (hp : w.path n = some pkg) :
    (outline P).Spec n (FirmwareDownloadExecutor.verifyDownloadPkg P components pkg)
      (.download { w with phase := .verifying shown components none none }) fun b r' =>
      ∃ raced, (w.raced = true → raced = true) ∧
        ((b = true ∧ ∃ v, r' = .download { w with phase := .judged shown (.accepted pkg v), raced := raced }) ∨
          (b = false ∧ ∃ seen, r' = .download { w with phase := .verifying shown components seen none, raced := raced })) := by
  unfold FirmwareDownloadExecutor.verifyDownloadPkg
  by_cases hi : FirmwareDownloadExecutor.verifyInfoOf components pkg = ""
  · rw [if_neg (not_not_intro hi)]
    refine ⟨⟨_, _, _, _, _, rfl, rfl, hp, fun _ => .inl hi⟩, fun _ _ => ?_⟩
    exact ⟨w.raced, id, .inl ⟨rfl, none, rfl⟩⟩
  · rw [if_pos hi]
    refine Protocol.Spec.seq (checkFileSha256String_spec w shown components hp) fun b r' h => ?_
    obtain ⟨seen, v, raced, rfl, hraced, htrue, hfalse⟩ := h
    cases b with
    | false =>
      obtain rfl := hfalse rfl
      exact ⟨raced, hraced, .inr ⟨rfl, seen, rfl⟩⟩
    | true =>
      refine ⟨⟨_, _, _, _, _, rfl, rfl, hp, fun hv => .inr (htrue rfl hv)⟩, fun _ _ => ?_⟩
      exact ⟨raced, hraced, .inl ⟨rfl, v, rfl⟩⟩

/-- The rest of `DownloadCallback`: both rows are written, and the flow is told. -/
theorem record_spec {f : Nat} {o : DownloadOptions} {url taskId : String} (w : Worker) (p p' : Progress) (verdict : Verdict)
    (hs : p'.status = if verdict matches .rejected then .downloadFail else p.status) :
    (outline P).Spec n (do
        FirmwareComponentOperator.updateProgressByUrl .downloadCallback url p.status p.percent.toInt32
        FirmwareTaskOperator.updateProgressByTaskId .downloadCallback taskId p'.status p'.percent.toInt32
        FirmwareFlowManager.onDownloadCallback P f o p')
      (.download { w with phase := .judged p.status.shown verdict }) fun _ r' => r' = .download (after n w p'.status) := by
  refine ⟨⟨_, verdict, rfl, rfl⟩, fun _ _ => ?_⟩
  have hnext : (outline P).next n (.download { w with phase := .judged p.status.shown verdict })
      (.updateComponents .downloadCallback (.progressByUrl url p.status p.percent.toInt32)) () =
      .download { w with phase := .written p'.status verdict } := by
    cases verdict <;> simp_all [outline, Outline.next, Outline.nextWorker, Outline.nextPhase]
  rw [hnext]
  refine ⟨.inl ⟨rfl, verdict, rfl⟩, fun _ _ => ?_⟩
  exact onDownloadCallback_spec { w with phase := .recorded p'.status } p' (.inl rfl)

/-- `DownloadCallback` from the read of `upgradeStatus_` on. -/
theorem judge_spec {f : Nat} {o : DownloadOptions} {url pkg : String} (w : Worker) (p : Progress)
    (hp : w.path n = some pkg) {shown : UpgradeStatus} (hs : p.status.shown = shown) :
    (outline P).Spec n (do
        let x ← call .getFlow
        let p' ← FirmwareDownloadExecutor.verifiedProgress P x pkg p
        FirmwareComponentOperator.updateProgressByUrl .downloadCallback url p.status p.percent.toInt32
        FirmwareTaskOperator.updateProgressByTaskId .downloadCallback x.executorTasks.taskId p'.status p'.percent.toInt32
        FirmwareFlowManager.onDownloadCallback P f o p')
      (.download { w with phase := .called shown }) fun _ r' =>
      ∃ raced s, r' = .download (after n { w with raced := raced } s) ∧
        (p.status = .downloading → s = .downloading ∨ raced = true) := by
  subst hs
  refine ⟨⟨nofun, nofun⟩, fun x _ => ?_⟩
  show (outline P).Spec n (FirmwareDownloadExecutor.verifiedProgress P x pkg p >>= _) _ _
  by_cases hx : x.upgradeStatus = .downloadSuccess
  · have hn : (outline P).next n (.download { w with phase := .called p.status.shown }) .getFlow x = .download { w with
        phase := .verifying p.status.shown x.components none none, raced := decide (p.status.shown ≠ .downloadSuccess) } := by
      simp [outline, Outline.next, Outline.nextWorker, Outline.nextPhase, hx]
    rw [hn]
    simp only [FirmwareDownloadExecutor.verifiedProgress, hx, ne_eq, not_true_eq_false, if_false]
    let w' : Worker := { w with raced := decide (p.status.shown ≠ .downloadSuccess) }
    refine Protocol.Spec.bind (Protocol.Spec.seq (verifyDownloadPkg_spec w' p.status.shown x.components hp) fun b r' h => ?_)
    obtain ⟨raced, hraced, ⟨rfl, v, rfl⟩ | ⟨rfl, seen, rfl⟩⟩ := h
    · refine (record_spec { w with raced := raced } p p (.accepted pkg v) rfl).mono fun _ r' h => ?_
      exact ⟨raced, p.status, h, .inl⟩
    · refine ⟨⟨_, rfl, hp, .inr ⟨_, _, _, rfl⟩⟩, fun _ _ => ?_⟩
      refine (record_spec { w with raced := raced } p { p with status := .downloadFail, endReason := _ } .rejected rfl).mono
        fun _ r' h => ?_
      exact ⟨raced, _, h, fun hd => .inr (hraced (by simp [w', hd, UpgradeStatus.shown]))⟩
  · have hn : (outline P).next n (.download { w with phase := .called p.status.shown }) .getFlow x =
        .download { w with phase := .judged p.status.shown .skipped, raced := false } := by
      simp [outline, Outline.next, Outline.nextWorker, Outline.nextPhase, hx]
    rw [hn]
    simp only [FirmwareDownloadExecutor.verifiedProgress, hx, ne_eq, not_false_eq_true, if_true]
    refine (record_spec { w with raced := false } p p .skipped rfl).mono fun _ r' h => ?_
    exact ⟨false, p.status, h, .inl⟩

/-- `DownloadCallback`: after a progress that is no end, the worker goes on as before. -/
theorem downloadCallback_spec {f : Nat} {o : DownloadOptions} {url pkg : String} (w : Worker) (p : Progress)
    (hw : w.phase = .working) (hp : w.path n = some pkg) (hc : p.status = .downloadSuccess → w.complete)
    (hl : n.isDownloadExecutor → ∃ c l, w.left = some (c :: l)) :
    (outline P).Spec n (FirmwareDownloadExecutor.downloadCallback P f o url pkg p) (.download w) fun _ r' =>
      ∃ raced s, r' = .download (after n { w with raced := raced } s) ∧
        (p.status = .downloading → s = .downloading ∨ raced = true) := by
  simp only [FirmwareDownloadExecutor.downloadCallback, Prog.perform_bind]
  refine ⟨⟨w, rfl, hl, .inl hw, nofun⟩, fun _ _ => ?_⟩
  show (outline P).Spec n _ (.download { w with phase := .called .downloading }) _
  dsimp only
  split
  · rename_i h
    have hs : p.status.shown = p.status := by simp [UpgradeStatus.shown, h]
    refine ⟨⟨_, rfl, hl, .inr ⟨_, rfl⟩, hc⟩, fun _ _ => ?_⟩
    show (outline P).Spec n _ (.download { w with phase := .called p.status }) _
    exact judge_spec w p hp hs
  · rename_i h
    have hs : p.status.shown = .downloading := by simp [UpgradeStatus.shown, h]
    exact judge_spec w p hp hs

/-! ## The thread of a download -/

/-- A thread that is not reporting. -/
def Busy (complete : Bool) (r : Role) : Prop := ∃ raced, r = .download { complete := complete, raced := raced }

/-- A thread that is not reporting, and may have reported an end. -/
def Between (r : Role) : Prop := (∃ c, Busy c r) ∨ ∃ c raced, r = .download { complete := c, raced := raced, phase := .finished }

theorem Busy.steady {c : Bool} {r : Role} (h : Busy c r) : Steady r := by
  obtain ⟨raced, rfl⟩ := h
  exact ⟨⟨nofun, nofun⟩, nofun, nofun⟩

theorem Busy.between {c : Bool} {r : Role} (h : Busy c r) : Between r := .inl ⟨c, h⟩

section Thread

variable {f i : Nat} {o : DownloadOptions} {fileName url : String}

/-- A report by a thread. -/
theorem report_spec {c : Bool} {r : Role} (hr : Busy c r) (p : Progress) (hc : p.status = .downloadSuccess → c = true) :
    (outline P).Spec (.downloadThread f o i fileName url) (FirmwareDownloadExecutor.downloadCallback P f o url fileName p) r
      fun _ r' => Between r' ∧ (p.status = .downloading → Busy c r') := by
  obtain ⟨raced, rfl⟩ := hr
  refine (downloadCallback_spec _ p rfl rfl hc (by simp [Thread.isDownloadExecutor])).mono fun _ r' h => ?_
  obtain ⟨raced, s, rfl, hs⟩ := h
  by_cases hw : s = .downloading ∨ raced = true
  · have hb : Busy c (.download (after (.downloadThread f o i fileName url) { complete := c, raced := raced } s)) := by
      rcases hw with rfl | rfl
      · exact ⟨raced, by simp [after]⟩
      · exact ⟨true, by simp [after]⟩
    exact ⟨hb.between, fun _ => hb⟩
  · refine ⟨.inr ⟨c, raced, ?_⟩, fun h => absurd (hs h) hw⟩
    simp only [not_or] at hw
    simp [after, hw, Thread.isDownloadExecutor]

/-- `DealAbnormal`: either nothing is reported, or an end. -/
theorem dealAbnormal_spec {c : Bool} {r : Role} (hr : Busy c r) (percent : UInt32) (p : Progress) :
    (outline P).Spec (.downloadThread f o i fileName url) (DownloadThread.dealAbnormal P f o fileName url percent p) r
      fun x r' => Between r' ∧ (x.1 = false → Busy c r') := by
  refine Kinds.skip isAbnormal_kinds rfl hr.steady fun b => ?_
  cases b with
  | false => exact ⟨hr.between, fun _ => hr⟩
  | true =>
    obtain ⟨raced, rfl⟩ := hr
    have hend (p' : Progress) (hp' : p'.status ≠ .downloadSuccess) :
        (outline P).Spec (.downloadThread f o i fileName url)
          (FirmwareDownloadExecutor.downloadCallback P f o url fileName p' >>= fun _ => .ret (true, p'))
          (.download { complete := c, raced := raced }) fun x r' => Between r' ∧ (x.1 = false → Busy c r') :=
      Protocol.Spec.seq (report_spec ⟨raced, rfl⟩ p' fun h => absurd h hp') fun _ r' h => ⟨h.1, nofun⟩
    refine ⟨⟨nofun, nofun⟩, fun noNet _ => ⟨⟨nofun, nofun⟩, fun noNet' _ => ⟨⟨nofun, nofun⟩, fun isCancel _ => ?_⟩⟩⟩
    have hstatus : (if noNet' = true then UpgradeStatus.downloadFail else .downloadCancel) ≠ .downloadSuccess := by
      cases noNet' <;> decide
    cases isCancel with
    | true => exact ⟨⟨nofun, nofun⟩, fun _ _ => hend _ hstatus⟩
    | false => exact hend _ hstatus

/-- `DownloadCallback` of the thread. -/
theorem threadCallback_spec {c : Bool} {r : Role} (hr : Busy c r) (percent : UInt32) (s : UpgradeStatus) (error : String)
    (p : Progress) (hc : s = .downloadSuccess → c = true) :
    (outline P).Spec (.downloadThread f o i fileName url)
      (DownloadThread.downloadCallback P f o fileName url percent s error p) r fun x r' =>
        Between r' ∧ (s = .downloading → x.1 = false → Busy c r') := by
  have hmark : (outline P).next (.downloadThread f o i fileName url) r (.enter (.downloadThreadCallback s)) () = r := by
    obtain ⟨raced, rfl⟩ := hr
    rfl
  simp only [DownloadThread.downloadCallback, Prog.perform_bind]
  refine ⟨hr.steady.free, fun _ _ => ?_⟩
  rw [hmark]
  refine Protocol.Spec.seq (dealAbnormal_spec hr percent p) fun x r' h => ?_
  obtain ⟨abnormal, p⟩ := x
  cases abnormal with
  | true => exact ⟨h.1, nofun⟩
  | false =>
    have hr' := h.2 rfl
    let Q (x : Bool × Progress) (r' : Role) : Prop := Between r' ∧ (s = .downloading → x.1 = false → Busy c r')
    have hcall {r'} (hr' : Busy c r') (p' : Progress) (hp' : p'.status = s) : (outline P).Spec (.downloadThread f o i fileName url)
        (FirmwareDownloadExecutor.downloadCallback P f o url fileName p' >>= fun _ => .ret (false, p')) r' Q :=
      Protocol.Spec.seq (report_spec hr' p' fun h => hc (hp' ▸ h)) fun _ _ h => ⟨h.1, fun h' _ => h.2 (hp'.trans h')⟩
    dsimp only
    split
    · exact absurd ‹_› Bool.false_ne_true
    · split
      · exact ⟨hr'.between, fun _ _ => hr'⟩
      · split
        · refine Kinds.skip (isFileExist_kinds _) rfl hr'.steady fun b => ?_
          obtain ⟨raced, rfl⟩ := hr'
          cases b with
          | true =>
            refine ⟨⟨_, rfl, rfl, .inl rfl⟩, fun _ _ => ?_⟩
            split
            · exact ⟨Busy.between ⟨raced, rfl⟩, fun _ _ => ⟨raced, rfl⟩⟩
            · exact hcall ⟨raced, rfl⟩ _ rfl
          | false =>
            rw [if_neg Bool.false_ne_true]
            split
            · exact ⟨Busy.between ⟨raced, rfl⟩, fun _ _ => ⟨raced, rfl⟩⟩
            · exact hcall ⟨raced, rfl⟩ _ rfl
        · split
          · exact ⟨hr'.between, fun _ _ => hr'⟩
          · split
            · exact ⟨hr'.between, fun _ _ => hr'⟩
            · exact hcall hr' _ rfl

/-- `DownloadProgress`. -/
theorem onDownloadProgress_spec {c : Bool} {r : Role} (hr : Busy c r) (dlTotal dlNow : Nat) (p : Progress) :
    (outline P).Spec (.downloadThread f o i fileName url)
      (DownloadThread.onDownloadProgress P f o fileName url dlTotal dlNow p) r fun x r' =>
        Between r' ∧ (x.1 = false → Busy c r') := by
  unfold DownloadThread.onDownloadProgress
  split
  · exact ⟨hr.between, fun _ => hr⟩
  · refine Kinds.skip (getLocalFileLength_kinds _) rfl hr.steady fun curr => ?_
    exact (threadCallback_spec hr _ .downloading _ p nofun).mono fun _ _ h => ⟨h.1, h.2 rfl⟩

/-- What the transfer library does with the thread: it goes on as long as no end is reported. -/
theorem transfer_spec {c : Bool} (events : List TransferEvent) {r : Role} (hr : Busy c r) (p : Progress) :
    (outline P).Spec (.downloadThread f o i fileName url) (DownloadThread.transfer P f o fileName url events p) r
      fun x r' => Between r' ∧ (x.1 = false → Busy c r') := by
  induction events generalizing r p with
  | nil => exact ⟨hr.between, fun _ => hr⟩
  | cons e events ih =>
    cases e with
    | data bytes =>
      obtain ⟨raced, rfl⟩ := hr
      exact ⟨⟨_, rfl, rfl, rfl⟩, fun _ _ => ih ⟨raced, rfl⟩ p⟩
    | progress dlTotal dlNow =>
      refine Protocol.Spec.seq (onDownloadProgress_spec hr dlTotal dlNow p) fun x r' h => ?_
      obtain ⟨error, p'⟩ := x
      cases error with
      | true => exact ⟨h.1, nofun⟩
      | false => exact ih (h.2 rfl) p'

/-- `ProcessThreadExecute`. -/
theorem processThreadExecute_spec {r : Role} (hr : Busy false r) (p : Progress) :
    (outline P).Spec (.downloadThread f o i fileName url) (DownloadThread.processThreadExecute P f o fileName url p) r
      fun _ r' => Between r' := by
  have hfail {r : Role} (hr : Busy false r) (error : String) (again : Bool) :
      (outline P).Spec (.downloadThread f o i fileName url)
        (DownloadThread.downloadCallback P f o fileName url 0 .downloadFail error p >>= fun x => .ret (again, x.2)) r
        fun _ r' => Between r' :=
    Protocol.Spec.seq (threadCallback_spec hr _ .downloadFail _ p nofun) fun _ _ h => h.1
  refine Kinds.skip (getLocalFileLength_kinds _) rfl hr.steady fun packageSize => ?_
  split
  · exact hfail hr _ true
  · obtain ⟨raced, rfl⟩ := hr
    refine ⟨⟨_, rfl, rfl, rfl⟩, fun opened _ => ?_⟩
    cases opened with
    | false => exact hfail ⟨raced, rfl⟩ _ true
    | true =>
      refine ⟨⟨nofun, nofun⟩, fun created _ => ?_⟩
      cases created with
      | false => exact hfail ⟨raced, rfl⟩ _ true
      | true =>
        refine ⟨⟨nofun, nofun⟩, fun t _ => ?_⟩
        show (outline P).Spec _ (DownloadThread.transfer P f o fileName url t.events p >>= _)
          (.download { raced := raced }) _
        refine Protocol.Spec.seq (transfer_spec t.events ⟨raced, rfl⟩ p) fun x r' h => ?_
        obtain ⟨aborted, p'⟩ := x
        cases aborted with
        | true => exact h.1
        | false =>
          have hb := h.2 rfl
          dsimp only
          rw [if_neg Bool.false_ne_true]
          split
          · split
            · refine Protocol.Spec.seq (threadCallback_spec hb _ .downloadFail _ p' nofun) fun _ _ h => h.1
            · exact hb.between
          · obtain ⟨raced, rfl⟩ := hb
            refine ⟨⟨_, rfl, rfl, rfl⟩, fun _ _ => ?_⟩
            show (outline P).Spec _ (DownloadThread.downloadCallback P f o fileName url _ _ _ _ >>= _)
              (.download { complete := true, raced := raced }) _
            refine Protocol.Spec.seq (threadCallback_spec ⟨raced, rfl⟩ _ .downloadSuccess _ p' fun _ => rfl) fun _ _ h => h.1

/-- `ExecuteThreadFunc`, from the start of the thread or from the end of a round. -/
theorem executeThreadFunc_spec (rounds : Nat) (p : Progress) {r : Role}
    (hr : r = .download { phase := .waiting } ∨ Between r) :
    (outline P).Spec (.downloadThread f o i fileName url) (DownloadThread.executeThreadFunc P f o fileName url i rounds p) r
      fun _ r' => (outline P).final r' := by
  have hfinal {r : Role} (hr : r = .download { phase := .waiting } ∨ Between r) : (outline P).final r := by
    rcases hr with rfl | ⟨c, raced, rfl⟩ | ⟨c, raced, rfl⟩ <;> nofun
  induction rounds generalizing r p with
  | zero => exact hfinal hr
  | succ rounds ih =>
    have hd : ∃ w, r = .download w := by
      rcases hr with rfl | ⟨c, raced, rfl⟩ | ⟨c, raced, rfl⟩ <;> exact ⟨_, rfl⟩
    have hnext : Busy false ((outline P).next (.downloadThread f o i fileName url) r (.awaitWake i) false) := by
      rcases hr with rfl | ⟨c, raced, rfl⟩ | ⟨c, raced, rfl⟩ <;> exact ⟨_, rfl⟩
    simp only [DownloadThread.executeThreadFunc, Prog.perform_bind]
    refine ⟨⟨hd, rfl⟩, fun exit _ => ?_⟩
    cases exit with
    | true =>
      obtain ⟨w, rfl⟩ := hd
      nofun
    | false =>
      refine Protocol.Spec.seq (processThreadExecute_spec hnext p) fun x r' h => ?_
      obtain ⟨again, p'⟩ := x
      cases again with
      | true => exact ih p' (.inr h)
      | false => exact hfinal (.inr h)

end Thread

/-! ## The executor of a download -/

section Executor

variable {f : Nat} {o : DownloadOptions}

/-- A package that is complete is reported, and the executor goes on as before. -/
theorem reportComplete_spec {c : FirmwareComponent} {l : List FirmwareComponent} (raced : Bool) :
    (outline P).Spec (.downloadExecutor f o) (FirmwareDownloadExecutor.reportComplete P f o c)
      (.download { left := some (c :: l), raced := raced }) fun _ r' =>
        ∃ complete raced', r' = .download { left := some (c :: l), complete := complete, raced := raced' } := by
  refine Kinds.skip (getLocalFileLength_kinds _) rfl (steady_working { left := some (c :: l), raced := raced }) fun length => ?_
  split
  · refine ⟨⟨_, rfl, rfl, rfl⟩, fun _ _ => ?_⟩
    show (outline P).Spec _ (FirmwareDownloadExecutor.downloadCallback P f o _ _ _)
      (.download { left := some (c :: l), complete := true, raced := raced }) _
    refine (downloadCallback_spec _ _ rfl rfl (fun _ => rfl) fun _ => ⟨c, l, rfl⟩).mono fun _ r' h => ?_
    obtain ⟨raced', s, rfl, -⟩ := h
    exact ⟨true, raced', by simp [after, Thread.isDownloadExecutor]⟩
  · exact ⟨false, raced, rfl⟩

/-- The loop of `PerformDownload`. -/
theorem performDownloads_spec (components : List FirmwareComponent) (index : Nat) (last : Option Thread) (raced : Bool) :
    (outline P).Spec (.downloadExecutor f o) (FirmwareDownloadExecutor.performDownloads P f o index last components)
      (.download { left := some components, raced := raced }) fun _ r' =>
        ∃ raced', r' = .download { left := some [], raced := raced' } := by
  induction components generalizing index last raced with
  | nil => exact ⟨raced, rfl⟩
  | cons c l ih =>
    refine Protocol.Spec.seq (reportComplete_spec raced) fun _ r' h => ?_
    obtain ⟨complete, raced, rfl⟩ := h
    refine ⟨⟨_, rfl, fun _ => ⟨c, l, rfl⟩, .inl rfl, nofun⟩, fun _ _ => ?_⟩
    let called : Worker := { left := some (c :: l), complete := complete, raced := raced, phase := .called .downloading }
    show (outline P).Spec _ (FirmwareDownloadExecutor.exitLast index last >>= _) (.download called) _
    have hexit : (outline P).Spec (.downloadExecutor f o) (FirmwareDownloadExecutor.exitLast index last) (.download called)
        fun _ r' => r' = .download called := by
      cases last with
      | none => rfl
      | some t => exact ⟨⟨_, rfl, rfl, rfl, .inl rfl⟩, fun _ _ => ⟨⟨_, rfl, rfl⟩, fun _ _ => rfl⟩⟩
    refine Protocol.Spec.seq hexit fun _ r' h => ?_
    subst h
    refine ⟨⟨_, rfl, rfl⟩, fun created _ => ?_⟩
    cases created with
    | true =>
      refine ⟨.inr ⟨f, o, index, c, l, _, rfl, rfl, rfl, rfl, rfl⟩, fun _ _ => ?_⟩
      exact ⟨⟨_, rfl, rfl, rfl, .inr rfl⟩, fun _ _ => ih (index + 1) _ raced⟩
    | false =>
      show (outline P).Spec _ (FirmwareFlowManager.onDownloadCallback P f o _ >>= _) (.download { left := some l, raced := raced }) _
      refine Protocol.Spec.seq (onDownloadCallback_spec _ _ (.inr ⟨rfl, rfl, rfl⟩)) fun _ r' h => ?_
      subst h
      exact ih (index + 1) none raced

theorem downloadExecutor_conforms :
    (outline P).Conforms (.downloadExecutor f o) (FirmwareDownloadExecutor.doDownload P f o) (.download {}) := by
  simp only [FirmwareDownloadExecutor.doDownload, Prog.perform_bind]
  refine ⟨⟨rfl, rfl⟩, fun components _ => ⟨⟨_, rfl, rfl, rfl, rfl⟩, fun _ _ => ?_⟩⟩
  let w : Worker := { left := some components }
  show (outline P).Spec _ _ (.download w) _
  have hend (p : Progress) (hp : p.status = .downloadFail) :
      (outline P).Conforms (.downloadExecutor f o) (FirmwareFlowManager.onDownloadCallback P f o p) (.download w) := by
    refine (onDownloadCallback_spec w p (.inr ⟨rfl, rfl, hp⟩)).mono fun _ r' h => ?_
    subst h
    nofun
  dsimp only
  split
  · exact hend _ rfl
  · refine Kinds.skip (queryTask_kinds rfl _) rfl (steady_working w) fun t => ⟨⟨nofun, nofun⟩, fun _ _ => ?_⟩
    show (outline P).Spec _ _ (.download w) _
    dsimp only
    split
    · refine Protocol.Spec.seq (performDownloads_spec components 0 none false) fun _ r' h => ?_
      obtain ⟨raced, rfl⟩ := h
      exact ((notifyEvent_kinds ..).spec rfl (steady_working { left := some [], raced := raced })).mono fun _ r' h => by
        subst h
        nofun
    · exact hend _ rfl

end Executor

end WorkerAux

end UpdateEngine
