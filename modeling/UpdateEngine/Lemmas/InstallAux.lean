import UpdateEngine.Lemmas.WorkerAux

/-!
# The texts of the installers keep to the outline

`FirmwareInstallExecutor` with its installers, the callback of the system installer, and `FirmwareApplyExecutor`; then every thread
together.
-/

namespace UpdateEngine

open Concurrent KindsAux PlainAux ConformAux WorkerAux

namespace InstallAux

variable {P : Platform} {n : Thread} {f : Nat} {o : UpgradeOptions} {t : InstallType}

/-! ## The end of a report -/

/-- A thread of an installation that is not inside its installer. -/
def Outside (r : Role) : Prop := (∃ l, r = .install (some l)) ∨ r = .installed

theorem Outside.steady {r : Role} (h : Outside r) : Steady r := by
  rcases h with ⟨l, rfl⟩ | rfl <;> trivial

theorem Outside.past {r : Role} (h : Outside r) : r.past := by
  rcases h with ⟨l, rfl⟩ | rfl <;> rfl

theorem Outside.entering {r : Role} (h : Outside r) : r.entering = false := by
  rcases h with ⟨l, rfl⟩ | rfl <;> rfl

theorem Outside.next_eq {r : Role} (h : Outside r) {o : Op} (ho : ∀ r, Outline.nextRole r o = fun _ => r) (x : o.Res) :
    (outline P).next n r o x = r := by
  rcases h with ⟨l, rfl⟩ | rfl <;> simp [outline, Outline.next, ho]

theorem Outside.final {r : Role} (h : Outside r ∨ r = .dropped) : (outline P).final r := by
  rcases h with (⟨l, rfl⟩ | rfl) | rfl <;> nofun

/-- `GetStepAfterInstall` ends the flow, and clears everything unless the installation succeeded. -/
theorem stepAfterInstall_spec {r : Role} (hr : Outside r) :
    (outline P).Spec n FirmwareInstallApplyMode.getStepAfterInstall r fun s r' =>
      s = .complete ∧ (Outside r' ∨ r' = .dropped) := by
  refine Kinds.skip hasInstallSuccess_kinds rfl hr.steady fun b => ?_
  cases b with
  | true => exact ⟨rfl, .inl hr⟩
  | false =>
    have hclear : (outline P).Spec n FirmwareUpdateHelper.clearFirmwareInfo r fun _ r' => r' = .dropped := by
      rcases hr with ⟨l, rfl⟩ | rfl <;> exact clearFirmwareInfo_spec (by trivial) (by trivial) (by trivial)
    exact Protocol.Spec.seq hclear fun _ r' h => ⟨rfl, .inr h⟩

/-- `Execute` of a flow that is past its first step. -/
theorem executeOutside_spec {r : Role} (hr : Outside r) :
    (outline P).Spec n (FirmwareFlowManager.execute P f (.installApply o t)) r fun _ r' => Outside r' ∨ r' = .dropped := by
  simp only [FirmwareFlowManager.execute, Prog.perform_bind]
  refine ⟨.inr (.inr ⟨hr.steady.free, hr.past⟩), fun s hs => ?_⟩
  rw [hr.next_eq (fun _ => rfl)]
  have hstep : (outline P).Spec n (getNextStep P (.installApply o t) s) r fun s r' =>
      s = .complete ∧ (Outside r' ∨ r' = .dropped) := by
    cases s with
    | init => exact absurd (hs.1.mp rfl) (by simp [hr.entering])
    | installStep => exact stepAfterInstall_spec hr
    | _ => exact ⟨rfl, .inl hr⟩
  refine Protocol.Spec.seq hstep fun _ r' h => ?_
  obtain ⟨rfl, (⟨l, rfl⟩ | rfl) | rfl⟩ := h
  · exact ⟨⟨by decide, .inr (.inr (.inr (.inr ⟨trivial, rfl, rfl⟩)))⟩, fun _ _ => ⟨trivial, fun _ _ => .inl (.inl ⟨l, rfl⟩)⟩⟩
  · exact ⟨⟨by decide, .inr (.inr (.inr (.inr ⟨trivial, rfl, rfl⟩)))⟩, fun _ _ => ⟨trivial, fun _ _ => .inl (.inr rfl)⟩⟩
  · exact ⟨⟨by decide, .inr (.inr (.inr (.inr ⟨trivial, rfl, rfl⟩)))⟩, fun _ _ => ⟨trivial, fun _ _ => .inr rfl⟩⟩

/-- `OnInstallCallback`. -/
theorem onInstallCallback_spec {r : Role} (hr : Outside r) (i : InstallCallbackInfo) :
    (outline P).Spec n (FirmwareFlowManager.onInstallCallback P f o t i) r fun _ r' => Outside r' ∨ r' = .dropped := by
  refine Kinds.skip (setInstallResult_kinds i) rfl hr.steady fun _ => ?_
  split
  · exact executeOutside_spec hr
  · exact .inl hr

/-! ## Reports -/

/-- The rest of a report: the progress of the task is kept, the task row written, and the flow told. -/
theorem taskProgress_allowed {r : Role} (hr : Outside r) {p : Progress} (hp : p.status.isInstallStatus) :
    (outline P).allowed n r (.setFlow (.taskProgress p)) :=
  ⟨hr.steady.free, hp⟩

theorem updateTasks_allowed {r : Role} (hr : Outside r) {c : Caller}
    (hc : c = .installExecutor ∨ c = .handleInstallProgress ∨ c = .handleInstallResult) {s : UpgradeStatus}
    (hs : s.isInstallStatus) (taskId : String) (p : Int32) : (outline P).allowed n r (.updateTasks c taskId (.progress s p)) := by
  rcases hr with ⟨l, rfl⟩ | rfl <;> exact ⟨hc, hs⟩

/-- `HandleInstallProgress`. -/
theorem handleInstallProgress_spec {r : Role} (hr : Outside r) (c : FirmwareComponent) (p : Progress)
    (hp : p.status.isInstallStatus) :
    (outline P).Spec n (FirmwareInstallExecutor.handleInstallProgress P f o t c p) r fun _ r' =>
      Outside r' ∨ r' = .dropped := by
  refine Kinds.skip (updateProgressByUrl_kinds rfl) rfl hr.steady fun _ => ?_
  refine ⟨hr.steady.free, fun x _ => ?_⟩
  rw [hr.next_eq (fun _ => rfl)]
  refine ⟨taskProgress_allowed hr hp, fun _ _ => ?_⟩
  rw [hr.next_eq (fun _ => rfl)]
  refine ⟨updateTasks_allowed hr (by decide) hp _ _, fun _ _ => ?_⟩
  rw [hr.next_eq (fun _ => rfl)]
  refine ⟨hr.steady.free, fun x' _ => ?_⟩
  rw [hr.next_eq (fun _ => rfl)]
  refine ⟨hr.steady.free, fun _ _ => ?_⟩
  rw [hr.next_eq (fun _ => rfl)]
  exact onInstallCallback_spec hr _

/-- The result of an installation is one of its statuses. -/
theorem installResult_status (t : InstallType) (result : Bool) {p : Progress} (hp : p.status.isInstallStatus) :
    (FirmwareInstallExecutor.installResult t result p).status.isInstallStatus := by
  unfold FirmwareInstallExecutor.installResult
  cases result with
  | true => rfl
  | false => cases t <;> first | rfl | exact hp

/-- `HandleInstallResult`. -/
theorem handleInstallResult_spec {r : Role} (hr : Outside r) (result : Bool) (e : ErrorMessage) :
    (outline P).Spec n (FirmwareInstallExecutor.handleInstallResult P f o t result e) r fun _ r' =>
      Outside r' ∨ r' = .dropped := by
  refine ⟨hr.steady.free, fun _ _ => ?_⟩
  rw [hr.next_eq (fun _ => rfl)]
  refine ⟨hr.steady.free, fun x hx => ?_⟩
  rw [hr.next_eq (fun _ => rfl)]
  have hs : (FirmwareInstallExecutor.installResult t result x.taskProgress).status.isInstallStatus := installResult_status t result hx
  refine ⟨taskProgress_allowed hr hs, fun _ _ => ?_⟩
  rw [hr.next_eq (fun _ => rfl)]
  refine ⟨updateTasks_allowed hr (by decide) hs _ _, fun _ _ => ?_⟩
  rw [hr.next_eq (fun _ => rfl)]
  refine ⟨hr.steady.free, fun _ _ => ?_⟩
  rw [hr.next_eq (fun _ => rfl)]
  exact onInstallCallback_spec hr _

/-! ## Inside an installer -/

/-- `DoSysInstall` takes its callback back. -/
theorem doSysInstall_spec (c : FirmwareComponent) :
    (outline P).Spec n (SysInstallerInstall.doSysInstall P o c) (.performing false) fun _ r' => r' = .performing false := by
  simp only [SysInstallerInstall.doSysInstall, Prog.perform_bind]
  refine ⟨trivial, fun _ _ => ⟨trivial, fun _ _ => ⟨trivial, fun init _ => ?_⟩⟩⟩
  show (outline P).Spec n (if init ≠ 0 then _ else _) (.performing false) _
  split
  · exact ⟨trivial, fun _ _ => rfl⟩
  · refine ⟨trivial, fun status _ => ?_⟩
    show (outline P).Spec n (if status ≠ .stateInit then _ else _) (.performing false) _
    split
    · exact ⟨trivial, fun _ _ => rfl⟩
    · refine ⟨trivial, fun ret _ => ?_⟩
      show (outline P).Spec n (if ret ≠ 0 then _ else _) (.performing false) _
      split
      · exact ⟨trivial, fun _ _ => rfl⟩
      · refine ⟨⟨false, rfl⟩, fun _ _ => ⟨trivial, fun ret _ => ?_⟩⟩
        show (outline P).Spec n (if ret ≠ 0 then _ else _) (.performing true) _
        split
        · exact ⟨trivial, fun _ _ => ⟨⟨true, rfl⟩, fun _ _ => rfl⟩⟩
        · refine Kinds.skip (waitInstallResult_kinds _) rfl (by trivial) fun result => ?_
          exact ⟨⟨true, rfl⟩, fun _ _ => rfl⟩

/-- `PerformInstall` of either installer. -/
theorem performInstall_spec (taskId : String) (l : List FirmwareComponent) :
    (outline P).Spec n (FirmwareInstallExecutor.performInstall P o t taskId l) (.performing false) fun _ r' =>
      r' = .performing false := by
  have hsys : (outline P).Spec n (SysInstallerInstall.performInstall P o taskId l) (.performing false) fun _ r' =>
      r' = .performing false := by
    cases l with
    | nil => rfl
    | cons c l => exact Kinds.skip (notifyEvent_kinds ..) rfl (by trivial) fun _ => doSysInstall_spec c
  cases t with
  | sysInstaller => exact hsys
  | _ => exact (updaterInstall_kinds taskId l).spec rfl (by trivial)

/-- `StartInstall`. -/
theorem startInstall_spec (taskId : String) (l : List FirmwareComponent) :
    (outline P).Spec n (FirmwareInstallExecutor.startInstall P f o t taskId l) (.install (some l)) fun _ r' =>
      Outside r' ∨ r' = .dropped := by
  have hr : Outside (.install (some l)) := .inl ⟨l, rfl⟩
  simp only [FirmwareInstallExecutor.startInstall, Prog.perform_bind]
  refine ⟨trivial, fun x _ => ?_⟩
  show (outline P).Spec n (if x.isInstalling = true then _ else _) (.install (some l)) _
  split
  · exact handleInstallResult_spec hr false _
  · refine Kinds.skip (isUpgradePackagesReady_kinds l) rfl hr.steady fun ready => ?_
    cases ready with
    | false => exact handleInstallResult_spec hr false _
    | true =>
      refine ⟨trivial, fun _ _ => ⟨rfl, fun _ _ => ?_⟩⟩
      show (outline P).Spec n (FirmwareInstallExecutor.performInstall P o t taskId l >>= _) (.performing false) _
      refine Protocol.Spec.seq (performInstall_spec taskId l) fun result r' h => ?_
      subst h
      exact ⟨rfl, fun _ _ => ⟨trivial, fun _ _ => ⟨trivial, fun x _ => handleInstallResult_spec (.inr rfl) result _⟩⟩⟩

/-! ## The threads -/

theorem installExecutor_conforms :
    (outline P).Conforms (.installExecutor f o t) (FirmwareInstallExecutor.doInstall P f o t) (.install none) := by
  simp only [FirmwareInstallExecutor.doInstall, Prog.perform_bind]
  refine ⟨rfl, fun l _ => ?_⟩
  have hr : Outside (.install (some l)) := .inl ⟨l, rfl⟩
  show (outline P).Spec _ (if l.isEmpty = true then _ else _) (.install (some l)) _
  split
  · exact ⟨trivial, fun x _ => ⟨trivial, fun _ _ => (onInstallCallback_spec hr _).mono fun _ _ h => Outside.final h⟩⟩
  · refine Kinds.skip (queryTask_kinds rfl _) rfl hr.steady fun task => ⟨trivial, fun _ _ => ?_⟩
    refine ⟨updateTasks_allowed hr (by decide) ?_ _ _, fun _ _ => ?_⟩
    · cases t <;> rfl
    · have hloop : Kinds [.rows] (l.forM fun c => FirmwareComponentOperator.updateProgressByUrl .installExecutor c.url
          (FirmwareInstallExecutor.startStatus t) 0) :=
        Prog.uses_forM _ _ fun c _ => updateProgressByUrl_kinds rfl
      show (outline P).Spec _ (List.forM l _ >>= _) (.install (some l)) _
      exact Kinds.skip hloop rfl hr.steady fun _ => (startInstall_spec _ l).mono fun _ _ h => Outside.final h

theorem installerCallback_conforms (index : Nat) (u : SysUpdateStatus) (percent : Int32) (msg : String) :
    (outline P).Conforms (.installerCallback f o index u percent msg)
      (SysInstallerInstall.onUpgradeProgress P f o u percent msg) .installed := by
  simp only [SysInstallerInstall.onUpgradeProgress, Prog.perform_bind]
  refine ⟨trivial, fun x _ => ?_⟩
  show (outline P).Spec _ _ .installed _
  dsimp only
  split
  · nofun
  · refine ⟨trivial, fun _ _ => ⟨trivial, fun _ _ => ?_⟩⟩
    refine (handleInstallProgress_spec (.inr rfl) _ _ ?_).mono fun _ _ h => Outside.final h
    cases u <;> rfl

theorem applyExecutor_conforms :
    (outline P).Conforms (.applyExecutor f o t) (FirmwareApplyExecutor.doInstall P f o t) .applying := by
  simp only [FirmwareApplyExecutor.doInstall, Prog.perform_bind]
  refine ⟨rfl, fun _ _ => ⟨trivial, fun l _ => ?_⟩⟩
  show (outline P).Spec _ (if l.isEmpty = true then _ else _) .applying _
  split
  · simp only [FirmwareFlowManager.onApplyCallback, FirmwareFlowManager.execute, Prog.perform_bind]
    refine ⟨.inr (.inr ⟨trivial, rfl⟩), fun s hs => ?_⟩
    have hstep : getNextStep P (.installApply o t) s = .ret .complete := by
      cases s with
      | init => exact absurd (hs.1.mp rfl) (by simp [Role.entering])
      | installStep => exact absurd rfl (hs.2 rfl)
      | _ => rfl
    show (outline P).Spec _ (getNextStep P (.installApply o t) s >>= _) .applying _
    rw [hstep]
    exact ⟨⟨by decide, .inr (.inr (.inr (.inr ⟨trivial, rfl, rfl⟩)))⟩, fun _ _ => ⟨trivial, fun _ _ _ h => by cases h⟩⟩
  · refine Kinds.skip (queryTask_kinds rfl _) rfl (by trivial) fun task => ?_
    exact ⟨⟨rfl, rfl⟩, fun _ _ => ⟨rfl, fun _ _ _ h => by cases h⟩⟩

end InstallAux

open InstallAux

/-- Every thread of the service keeps to the outline. -/
theorem Outline.conforms (P : Platform) (n : Thread) : (outline P).Conforms n (body P n) (Outline.entry n) := by
  cases n with
  | checkNewVersion f => exact checkNewVersion_conforms f
  | download f o => exact download_conforms f o
  | upgrade f o => exact upgrade_conforms f o
  | cancel f => exact (cancel_kinds.spec rfl (by trivial)).mono fun _ r' h => by subst h; nofun
  | netChanged f net => exact ((onNetChange_kinds P net).spec rfl (by trivial)).mono fun _ r' h => by subst h; nofun
  | clearError f => exact clearError_conforms f
  | delayInit f reason => exact delayInit_conforms f reason
  | checkExecutor f => exact checkExecutor_conforms f
  | downloadExecutor f o => exact downloadExecutor_conforms
  | downloadThread f o i fileName url => exact executeThreadFunc_spec DownloadThread.rounds {} (.inl rfl)
  | installExecutor f o t => exact installExecutor_conforms
  | installerCallback f o i u percent msg => exact installerCallback_conforms i u percent msg
  | applyExecutor f o t => exact applyExecutor_conforms

end UpdateEngine
