import UpdateEngine.Lemmas.Kinds

/-!
# What is a report

A report of a download writes to the row of a component, to the task row, and goes to the flow. Nothing that the flow does with a
report is one itself.
-/

namespace UpdateEngine

open Concurrent

/-- A part of a report: the operations by which `DownloadCallback` writes a progress, and the one that takes it to the flow. -/
def Op.isReport : Op → Bool
  | .updateComponents .downloadCallback _ | .updateTasks .downloadCallback _ _ | .enter (.onDownloadCallback _) => true
  | _ => false

/-- The program makes no report. -/
abbrev Silent {α : Type} (p : Prog α) : Prop := p.Uses fun o => o.isReport = false

namespace ReportAux

variable {P : Platform} {f : Nat} {o : DownloadOptions}

/-- The kinds of operations that are no part of a report. -/
def quietKind : OpKind → Bool
  | .record | .option | .report | .stage => false
  | _ => true

theorem quiet_of_kind {o : Op} (ho : quietKind o.kind = true) : o.isReport = false := by
  cases o with
  | updateTasks c i u => cases u <;> cases ho
  | updateComponents c u => cases c <;> first | rfl | cases ho
  | enter m => cases m <;> first | rfl | cases ho
  | _ => rfl

theorem quiet_of_kinds {α : Type} {l : List OpKind} {p : Prog α} (hp : Kinds l p) (hl : l.all quietKind = true) : Silent p :=
  Prog.Uses.mono (fun _ ho => quiet_of_kind (List.all_eq_true.mp hl _ (List.contains_iff_mem.mp ho))) hp

/-- What a request does until its download is decided on. -/
def prepares : Op → Bool
  | .queryTasks .downloadMode | .queryComponents .downloadDataProcessor | .getNetType | .ask .freeSpace => true
  | .setFlow (.buildError _ _) | .setFlow (.addErrorMessage _ _) => true
  | _ => false

theorem stepAfterInit_prepares : FirmwareDownloadMode.getStepAfterInit.Uses fun op => prepares op = true := by
  refine Prog.Uses.bind ⟨rfl, fun l => by cases l <;> trivial⟩ fun tasks => ?_
  split
  · exact ⟨rfl, fun _ => trivial⟩
  · split
    · exact ⟨rfl, fun _ => trivial⟩
    · split
      · exact ⟨rfl, fun _ => ⟨rfl, fun _ => trivial⟩⟩
      · refine ⟨rfl, fun t => ?_⟩
        change Prog.Uses _ (if (!_) = true then _ else _)
        split
        · exact ⟨rfl, fun _ => ⟨rfl, fun _ => trivial⟩⟩
        · refine ⟨rfl, fun components => ⟨rfl, fun space => ?_⟩⟩
          change Prog.Uses _ (if (!decide (_ ≤ space)) = true then _ else _)
          split
          · exact ⟨rfl, fun _ => ⟨rfl, fun _ => trivial⟩⟩
          · trivial

/-- A download that is cancelled is recorded as never begun, which is no report. -/
theorem downloadCancelProcess_quiet (t : FirmwareTask) (e : ErrorMessage) :
    Silent (FirmwareDownloadMode.downloadCancelProcess t e) := by
  have hloop (rows : List FirmwareComponent) : Silent (rows.forM fun c =>
      FirmwareComponentOperator.updateProgressByUrl .stepAfterDownload c.url .checkVersionSuccess 0) :=
    Prog.uses_forM _ _ fun _ _ => ⟨rfl, fun _ => trivial⟩
  refine Prog.Uses.bind (quiet_of_kinds (KindsAux.notifyEvent_kinds ..) rfl) fun _ => ⟨rfl, fun _ => ⟨rfl, fun rows => ?_⟩⟩
  change Prog.Uses _ (List.forM rows _ >>= _)
  exact Prog.Uses.bind (hloop rows) fun _ => ⟨rfl, fun _ => ⟨rfl, fun _ => trivial⟩⟩

theorem processStatus_quiet (t : FirmwareTask) (e : ErrorMessage) : Silent (FirmwareDownloadMode.processStatus t e) := by
  unfold FirmwareDownloadMode.processStatus
  split
  · exact quiet_of_kinds (KindsAux.notifyEvent_kinds ..) rfl
  · exact Prog.Uses.bind (quiet_of_kinds (KindsAux.notifyEvent_kinds ..) rfl)
      fun _ => quiet_of_kinds KindsAux.clearFirmwareInfo_kinds rfl
  · exact downloadCancelProcess_quiet t e
  · exact quiet_of_kinds (KindsAux.notifyEvent_kinds ..) rfl
  · trivial

theorem getStepAfterDownload_quiet : Silent FirmwareDownloadMode.getStepAfterDownload := by
  have hend (t : FirmwareTask) (e : ErrorMessage) :
      Silent (FirmwareDownloadMode.processStatus t e >>= fun _ => .ret FirmwareStep.complete) :=
    Prog.Uses.bind (processStatus_quiet t e) fun _ => trivial
  refine Prog.Uses.bind (quiet_of_kinds (KindsAux.queryTask_kinds rfl _) rfl) fun t => ?_
  split
  · trivial
  · refine ⟨rfl, fun w => ?_⟩
    change Prog.Uses _ (if (_ : Bool) = true then _ else _)
    split
    · cases stoi w.downloadProgress.endReason with
      | some c => exact hend t _
      | none => exact ⟨rfl, fun _ => trivial⟩
    · exact hend t _

theorem execute_quiet : Silent (FirmwareFlowManager.execute P f (.download o)) := by
  have hstep (step : FirmwareStep) : Silent (getNextStep P (.download o) step) := by
    cases step with
    | init => exact quiet_of_kinds KindsAux.downloadStepAfterInit_kinds rfl
    | downloadStep => exact getStepAfterDownload_quiet
    | _ => trivial
  refine ⟨rfl, fun step => ?_⟩
  change Prog.Uses _ (getNextStep P (.download o) step >>= _)
  refine Prog.Uses.bind (hstep step) fun nextStep => ⟨rfl, fun _ => ?_⟩
  split
  · exact ⟨rfl, fun _ => trivial⟩
  · cases nextStep with
    | downloadStep => exact ⟨rfl, fun _ => trivial⟩
    | _ => trivial

theorem setDownloadProgress_quiet (p : Progress) : Silent (FirmwareDownloadDataProcessor.setDownloadProgress p) :=
  quiet_of_kinds (KindsAux.setDownloadProgress_kinds p) rfl

theorem verifyDownloadPkg_kinds (components : List FirmwareComponent) (packageName : String) :
    Kinds [.read, .stage] (FirmwareDownloadExecutor.verifyDownloadPkg P components packageName) := by
  unfold FirmwareDownloadExecutor.verifyDownloadPkg
  split
  · refine Kinds.bind (KindsAux.checkFileSha256String_kinds P _ _) (k := [.stage]) (fun same => ?_) rfl rfl
    cases same with
    | true => exact ⟨rfl, fun _ => trivial⟩
    | false => trivial
  · exact ⟨rfl, fun _ => trivial⟩

theorem verifiedProgress_kinds (w : Flow) (packageName : String) (progress : Progress) :
    Kinds [.read, .stage, .write] (FirmwareDownloadExecutor.verifiedProgress P w packageName progress) := by
  unfold FirmwareDownloadExecutor.verifiedProgress
  split
  · trivial
  · refine Kinds.bind (verifyDownloadPkg_kinds w.components packageName) (k := [.write]) (fun accepted => ?_) rfl rfl
    cases accepted with
    | true => trivial
    | false => exact ⟨rfl, fun _ => trivial⟩

theorem checkFileSha256String_quiet (fileName text : String) : Silent (Sha256Utils.checkFileSha256String P fileName text) := by
  refine ⟨rfl, fun found => ?_⟩
  cases found with
  | none => trivial
  | some _ =>
    refine ⟨rfl, fun content => ?_⟩
    cases content with
    | none =>
      change Prog.Uses _ (if _ then _ else _)
      split <;> trivial
    | some _ =>
      change Prog.Uses _ (if _ then _ else _)
      split
      · trivial
      · exact ⟨rfl, fun _ => trivial⟩

/-- Testing a package is no report of it. -/
theorem verifyDownloadPkg_quiet (components : List FirmwareComponent) (packageName : String) :
    Silent (FirmwareDownloadExecutor.verifyDownloadPkg P components packageName) := by
  unfold FirmwareDownloadExecutor.verifyDownloadPkg
  split
  · refine Prog.Uses.bind (checkFileSha256String_quiet packageName _) fun same => ?_
    cases same with
    | true => exact ⟨rfl, fun _ => trivial⟩
    | false => trivial
  · exact ⟨rfl, fun _ => trivial⟩

theorem verifiedProgress_quiet (w : Flow) (packageName : String) (progress : Progress) :
    Silent (FirmwareDownloadExecutor.verifiedProgress P w packageName progress) := by
  unfold FirmwareDownloadExecutor.verifiedProgress
  split
  · trivial
  · refine Prog.Uses.bind (verifyDownloadPkg_quiet w.components packageName) fun accepted => ?_
    cases accepted with
    | true => trivial
    | false => exact ⟨rfl, fun _ => trivial⟩

/-- A package that is rejected makes a failure of its progress. -/
theorem verifiedProgress_status (w : Flow) (packageName : String) (progress : Progress) :
    (FirmwareDownloadExecutor.verifiedProgress P w packageName progress).Returns fun p =>
      p = progress ∨ p.status = .downloadFail := by
  unfold FirmwareDownloadExecutor.verifiedProgress
  split
  · exact .inl rfl
  · refine Prog.Returns.bind (Prog.returns_true _) fun accepted _ => ?_
    cases accepted with
    | true => exact .inl rfl
    | false => exact fun _ => .inr rfl

end ReportAux

end UpdateEngine
