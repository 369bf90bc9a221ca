import UpdateEngine.Lemmas.PlainAux

/-!
# The texts of the threads keep to the outline

One statement for each function: in which role it is called, and in which role it leaves the thread. Only the operations that are
not plain are taken one by one.
-/

namespace UpdateEngine

open Concurrent KindsAux PlainAux

namespace ConformAux

variable {P : Platform} {n : Thread}

/-! ## What is shared -/

/-- Clearing everything: the role goes where clearing the task table leads it. -/
theorem clearFirmwareInfo_spec {r : Role} (hr : Steady r) (hd : r.drops) (hs : ((outline P).next n r .deleteTasks ()).sweeps) :
    (outline P).Spec n FirmwareUpdateHelper.clearFirmwareInfo r fun _ r' => r' = (outline P).next n r .deleteTasks () := by
  refine Kinds.skip (queryTask_kinds rfl _) rfl hr fun t => ⟨hd, fun _ _ => ⟨hs, fun _ _ => ?_⟩⟩
  generalize (outline P).next n r .deleteTasks () = r' at hs ⊢
  have hc : (outline P).next n r' .deleteComponents () = r' := by
    cases r' <;> rfl
  have hf : (outline P).next n r' .deleteDownloadFiles () = r' := by
    cases r' <;> rfl
  rw [hc]
  exact ⟨hs, fun _ _ => hf⟩

/-- `HandleComplete` of a check. -/
theorem checkComplete_spec {r : Role} (hr : Steady r) (hn : (outline P).next n r (.enter .handleComplete) () = r) :
    (outline P).Spec n (handleComplete P .manualCheck) r fun _ r' => r' = r := by
  refine ⟨hr.free, fun _ _ => ?_⟩
  rw [hn]
  exact (checkComplete_kinds P).spec rfl hr

/-! ## Requests -/

/-- `GetStepAfterInit` of a download decides whether the request is accepted. -/
theorem downloadStepAfterInit_spec {f : Nat} {o : DownloadOptions} :
    (outline P).Spec (.download f o) FirmwareDownloadMode.getStepAfterInit .request fun s r' =>
      (s = .downloadStep ∧ r' = .accepted) ∨ (s = .complete ∧ (r' = .accepted ∨ r' = .refused)) := by
  simp only [FirmwareDownloadMode.getStepAfterInit, FirmwareTaskOperator.queryTask, Prog.perform_bind, Prog.op_bind]
  refine ⟨⟨rfl, rfl⟩, fun tasks _ => ?_⟩
  show (outline P).Spec _ _ (Outline.decide .downloadMode tasks) _
  cases tasks with
  | nil => exact ⟨trivial, fun _ _ => .inr ⟨rfl, .inr rfl⟩⟩
  | cons t l =>
    simp only [Prog.pure_eq, Prog.ret_bind, Bool.not_true, Bool.false_eq_true, if_false]
    cases hd : t.status.isDownloadable with
    | false =>
      have hr : Outline.decide .downloadMode (t :: l) = .refused := by
        simp [Outline.decide, Caller.admits, hd]
      rw [hr]
      exact ⟨trivial, fun _ _ => .inr ⟨rfl, .inr rfl⟩⟩
    | true =>
      have hr : Outline.decide .downloadMode (t :: l) = .accepted := by
        simp [Outline.decide, Caller.admits, hd]
      rw [hr]
      simp only [Bool.not_true, Bool.false_eq_true, if_false]
      split
      · exact ⟨trivial, fun _ _ => ⟨trivial, fun _ _ => .inr ⟨rfl, .inl rfl⟩⟩⟩
      · refine Kinds.skip (isNetAvailable_kinds _) rfl (by trivial) fun b => ?_
        cases b with
        | false => exact ⟨trivial, fun _ _ => ⟨trivial, fun _ _ => .inr ⟨rfl, .inl rfl⟩⟩⟩
        | true =>
          refine Kinds.skip requireTotalSize_kinds rfl (by trivial) fun x => ?_
          obtain ⟨enough, required⟩ := x
          cases enough with
          | false => exact ⟨trivial, fun _ _ => ⟨trivial, fun _ _ => .inr ⟨rfl, .inl rfl⟩⟩⟩
          | true => exact .inl ⟨rfl, rfl⟩

/-- A download request that asks its mode. -/
theorem executeDownload_spec {f : Nat} {o : DownloadOptions} :
    (outline P).Spec (.download f o) (FirmwareFlowManager.execute P f (.download o)) .request fun _ r' =>
      r' = .ready ∨ r' = .idle := by
  simp only [FirmwareFlowManager.execute, Prog.perform_bind]
  refine ⟨.inl rfl, fun x hx => ?_⟩
  obtain rfl : x = .init := hx.1.mpr rfl
  refine Protocol.Spec.seq downloadStepAfterInit_spec fun s r' h => ?_
  rcases h with ⟨rfl, rfl⟩ | ⟨rfl, rfl | rfl⟩
  · exact ⟨⟨by decide, .inl ⟨rfl, fun _ => by decide⟩⟩, fun _ _ => ⟨.inl ⟨rfl, by simp [Thread.starts]⟩, fun _ _ => .inr rfl⟩⟩
  · exact ⟨⟨by decide, .inl ⟨rfl, fun _ => by decide⟩⟩, fun _ _ => ⟨trivial, fun _ _ => .inl rfl⟩⟩
  · exact ⟨⟨by decide, .inr (.inl rfl)⟩, fun _ _ => ⟨trivial, fun _ _ => .inr rfl⟩⟩

/-- A role a request may end in. -/
theorem final_of_request {r : Role} (h : r = .ready ∨ r = .idle ∨ r = .request ∨ r = .clearing) : (outline P).final r := by
  intro given
  rcases h with rfl | rfl | rfl | rfl <;> nofun

theorem download_conforms (f : Nat) (o : DownloadOptions) :
    (outline P).Conforms (.download f o) (UpdateServiceImplFirmware.download P f o) .request := by
  refine Kinds.skip (queryTask_kinds rfl _) rfl (by trivial) fun t => ?_
  split
  · exact ⟨trivial, fun _ _ => final_of_request (by simp [outline, Outline.next, Outline.nextRole])⟩
  · refine ⟨trivial, fun _ _ => executeDownload_spec.mono fun _ r' h => final_of_request ?_⟩
    rcases h with rfl | rfl <;> simp

/-- `IsUpgradeFilesReady`: an accepted request goes on, or clears everything and is withdrawn. -/
theorem isUpgradeFilesReady_spec :
    (outline P).Spec n FirmwareInstallApplyMode.isUpgradeFilesReady .accepted fun b r' =>
      (b = true ∧ r' = .accepted) ∨ (b = false ∧ r' = .withdrawn) := by
  refine Kinds.skip isUpgradeFileCheckSuccess_kinds rfl (by trivial) fun b => ?_
  cases b with
  | true => exact .inl ⟨rfl, rfl⟩
  | false =>
    refine ⟨trivial, fun _ _ => ⟨trivial, fun _ _ => ?_⟩⟩
    show (outline P).Spec n (FirmwareUpdateHelper.clearFirmwareInfo >>= _) .accepted _
    refine Protocol.Spec.seq (clearFirmwareInfo_spec (by trivial) (by trivial) (by trivial)) fun _ r' h => ?_
    exact .inr ⟨rfl, h⟩

/-- `GetStepAfterInit` of an installation decides whether the request is accepted, and an accepted one may be withdrawn. -/
theorem installStepAfterInit_spec {o : UpgradeOptions} {r : Role} (hr : r = .request ∨ r = .recovering)
    (ho : n.order = some o.order) :
    (outline P).Spec n (FirmwareInstallApplyMode.getStepAfterInit P o) r fun s r' =>
      (s = .installStep ∧ r' = .accepted ∧ (o.order = .install ∨ o.order = .installAndApply)) ∨
      (s = .applyStep ∧ r' = .accepted ∧ o.order = .apply) ∨
      (s = .complete ∧ (r' = .accepted ∨ r' = .refused ∨ r' = .withdrawn)) := by
  simp only [FirmwareInstallApplyMode.getStepAfterInit, FirmwareTaskOperator.queryTask, Prog.perform_bind, Prog.op_bind]
  refine ⟨⟨hr, ho⟩, fun tasks _ => ?_⟩
  have hn : (outline P).next n r (.queryTasks (.installApplyMode o.order)) tasks =
      Outline.decide (.installApplyMode o.order) tasks := by
    rcases hr with rfl | rfl <;> rfl
  rw [hn]
  cases tasks with
  | nil => exact ⟨trivial, fun _ _ => .inr (.inr ⟨rfl, .inr (.inl rfl)⟩)⟩
  | cons t l =>
    simp only [Prog.pure_eq, Prog.ret_bind, Bool.not_true, Bool.false_eq_true, if_false]
    by_cases hi : o.order = .install ∨ o.order = .installAndApply
    · have hi' : (o.order = .install || o.order = .installAndApply) = true := by simpa using hi
      simp only [hi', if_true, FirmwareInstallApplyMode.getStepForInstallAndApplyOrder]
      by_cases hs : t.status = .downloadSuccess
      · have hd : Outline.decide (.installApplyMode o.order) (t :: l) = .accepted := by
          simp [Outline.decide, Caller.admits, hi, hs]
        rw [hd]
        simp only [hs, ne_eq, not_true_eq_false, if_false]
        refine Kinds.skip (isAllowInstall_kinds P) rfl (by trivial) fun b => ?_
        cases b with
        | false => exact .inr (.inr ⟨rfl, .inl rfl⟩)
        | true =>
          refine Protocol.Spec.seq isUpgradeFilesReady_spec fun b r' h => ?_
          rcases h with ⟨rfl, rfl⟩ | ⟨rfl, rfl⟩
          · exact .inl ⟨rfl, rfl, hi⟩
          · exact .inr (.inr ⟨rfl, .inr (.inr rfl)⟩)
      · have hd : Outline.decide (.installApplyMode o.order) (t :: l) = .refused := by
          simp [Outline.decide, Caller.admits, hi, hs]
        rw [hd]
        simp only [hs, ne_eq, not_false_eq_true, if_true]
        exact ⟨trivial, fun _ _ => .inr (.inr ⟨rfl, .inr (.inl rfl)⟩)⟩
    · have hi' : ¬ (o.order = .install || o.order = .installAndApply) = true := by simpa using hi
      simp only [hi']
      by_cases ha : o.order = .apply
      · have hd : Outline.decide (.installApplyMode o.order) (t :: l) = .accepted := by
          simp [Outline.decide, Caller.admits, ha, Order.apply, Order.install, Order.installAndApply]
        rw [hd, if_pos ha]
        exact .inr (.inl ⟨rfl, rfl, ha⟩)
      · have hd : Outline.decide (.installApplyMode o.order) (t :: l) = .refused := by
          simp [Outline.decide, Caller.admits, hi, ha]
        rw [hd, if_neg ha]
        exact ⟨trivial, fun _ _ => .inr (.inr ⟨rfl, .inr (.inl rfl)⟩)⟩

/-- A request to install or apply that asks its mode. -/
theorem executeInstall_spec {f : Nat} {o : UpgradeOptions} {t : InstallType} {r : Role} (hr : r = .request ∨ r = .recovering)
    (ho : n.order = some o.order)
    (hi : o.order = .install ∨ o.order = .installAndApply → n.starts (.installExecutor f o t))
    (ha : o.order = .apply → n.starts (.applyExecutor f o t)) :
    (outline P).Spec n (FirmwareFlowManager.execute P f (.installApply o t)) r fun _ r' =>
      r' = .ready ∨ r' = .idle := by
  simp only [FirmwareFlowManager.execute, Prog.perform_bind]
  have hnext : (outline P).next n r .getNextStep .init = r := by
    rcases hr with rfl | rfl <;> rfl
  refine ⟨by rcases hr with rfl | rfl <;> simp [outline, Outline.allowed], fun x hx => ?_⟩
  obtain rfl : x = .init := hx.1.mpr (by rcases hr with rfl | rfl <;> rfl)
  rw [hnext]
  refine Protocol.Spec.seq (installStepAfterInit_spec hr ho) fun s r' h => ?_
  rcases h with ⟨rfl, rfl, h⟩ | ⟨rfl, rfl, h⟩ | ⟨rfl, rfl | rfl | rfl⟩
  · have happly : n.order ≠ some .apply := by
      rw [ho]
      rcases h with h | h <;> simp [h, Order.apply, Order.install, Order.installAndApply]
    exact ⟨⟨by decide, .inl ⟨rfl, fun h => absurd h happly⟩⟩, fun _ _ => ⟨.inl ⟨rfl, hi h⟩, fun _ _ => .inr rfl⟩⟩
  · exact ⟨⟨by decide, .inl ⟨rfl, fun _ h => by cases h⟩⟩, fun _ _ => ⟨.inl ⟨rfl, ha h⟩, fun _ _ => .inr rfl⟩⟩
  · exact ⟨⟨by decide, .inl ⟨rfl, fun _ h => by cases h⟩⟩, fun _ _ => ⟨trivial, fun _ _ => .inl rfl⟩⟩
  · exact ⟨⟨by decide, .inr (.inl rfl)⟩, fun _ _ => ⟨trivial, fun _ _ => .inr rfl⟩⟩
  · exact ⟨⟨by decide, .inr (.inr (.inl rfl))⟩, fun _ _ => ⟨trivial, fun _ _ => .inr rfl⟩⟩

/-- `FirmwareManager::DoInstall`. -/
theorem doInstall_spec {f : Nat} {o : UpgradeOptions} {t : InstallType} {r : Role} (hr : r = .request ∨ r = .recovering)
    (ho : n.order = some o.order)
    (hi : o.order = .install ∨ o.order = .installAndApply → n.starts (.installExecutor f o t))
    (ha : o.order = .apply → n.starts (.applyExecutor f o t)) :
    (outline P).Spec n (FirmwareManager.doInstall P f o t) r fun _ r' => r' = r ∨ r' = .ready ∨ r' = .idle := by
  refine Kinds.skip (canInstall_kinds P) rfl (by rcases hr with rfl | rfl <;> trivial) fun b => ?_
  cases b with
  | false => exact .inl rfl
  | true => exact (executeInstall_spec hr ho hi ha).mono fun _ _ h => .inr h

theorem upgrade_conforms (f : Nat) (o : UpgradeOptions) :
    (outline P).Conforms (.upgrade f o) (UpdateServiceImplFirmware.upgrade P f o) .request := by
  refine Kinds.skip (queryTask_kinds rfl _) rfl (by trivial) fun t => ⟨trivial, fun _ _ => ?_⟩
  refine (doInstall_spec (.inl rfl) rfl (fun h => ?_) (fun h => ?_)).mono fun _ r' h => final_of_request ?_
  · simpa [Thread.starts] using h
  · simp [Thread.starts, h]
  · rcases h with rfl | rfl | rfl <;> simp

/-! ## The start -/

/-- The roles in which `DelayInit` comes out of `RestoreUpdate`. -/
def restored (r : Role) : Prop := r = .idle ∨ r = .recovering ∨ r = .withdrawn ∨ r = .ready

theorem steady_of_restored {r : Role} (hr : restored r) : Steady r := by
  rcases hr with rfl | rfl | rfl | rfl <;> trivial

/-- The recovery may write that the download succeeded, as often as it likes. -/
theorem bootInstall_spec (f : Nat) (reason : StartupReason) (t : FirmwareTask) :
    (outline P).Spec (.delayInit f reason) (FirmwareManager.handleBootInstallOnStatusProcess P f t) .recovering fun _ r' =>
      restored r' := by
  refine ⟨⟨rfl, rfl⟩, fun _ _ => ⟨trivial, fun rows _ => ?_⟩⟩
  show (outline P).Spec _ (List.forM rows _ >>= _) .recovering _
  have hloop : Kinds [.rows] (rows.forM fun c => do
      if c.status = .installing then
        FirmwareComponentOperator.updateProgressByUrl .restoreUpdate c.url .downloadSuccess 100) := by
    refine Prog.uses_forM _ _ fun c _ => ?_
    split
    · exact updateProgressByUrl_kinds rfl
    · trivial
  refine Kinds.skip hloop rfl (by trivial) fun _ => ?_
  have hinstall : (outline P).Spec (.delayInit f reason)
      (FirmwareManager.doInstall P f { order := .installAndApply } .sysInstaller) .recovering fun _ r' =>
      r' = .recovering ∨ r' = .ready ∨ r' = .idle :=
    doInstall_spec (.inr rfl) rfl (fun _ => by simp [Thread.starts]) nofun
  refine hinstall.mono fun _ r' h => ?_
  rcases h with rfl | rfl | rfl <;> simp [restored]

/-- `RestoreUpdate`. -/
theorem restoreUpdate_spec (f : Nat) (reason : StartupReason) :
    (outline P).Spec (.delayInit f reason) (FirmwareManager.restoreUpdate P f) .recovering fun _ r' => restored r' := by
  have hclear : (outline P).Spec (.delayInit f reason) FirmwareUpdateHelper.clearFirmwareInfo .recovering fun _ r' =>
      restored r' := by
    refine (clearFirmwareInfo_spec (by trivial) (by trivial) (by trivial)).mono fun _ r' h => ?_
    exact .inr (.inr (.inl h))
  refine Kinds.skip (queryTask_kinds rfl _) rfl (by trivial) fun t => ?_
  split
  · exact hclear
  · exact hclear
  · exact bootInstall_spec f reason t
  · exact bootInstall_spec f reason t
  · exact .inr (.inl rfl)

/-- A thread that may clear everything keeps its role. -/
theorem clearing_spec : (outline P).Spec n FirmwareUpdateHelper.clearFirmwareInfo .clearing fun _ r' => r' = .clearing :=
  clearFirmwareInfo_spec (by trivial) (by trivial) (by trivial)

/-- `HandleBootComplete`, from any role in which the recovery is over. -/
theorem handleBootComplete_spec {r : Role} (hn : n.clears = true) (hr : restored r) :
    (outline P).Spec n (FirmwareManager.handleBootComplete P) r fun _ r' => r' = .clearing := by
  simp only [FirmwareManager.handleBootComplete, FirmwareTaskOperator.queryTask, Prog.perform_bind, Prog.op_bind]
  refine ⟨⟨hn, hr⟩, fun tasks _ => ?_⟩
  have hnext : (outline P).next n r (.queryTasks .handleBootComplete) tasks = .clearing := by
    rcases hr with rfl | rfl | rfl | rfl <;> rfl
  rw [hnext]
  cases tasks with
  | nil => rfl
  | cons t l =>
    show (outline P).Spec n (if t.status = .updating then _ else _) .clearing _
    split
    · refine ⟨trivial, fun rows _ => ?_⟩
      show (outline P).Spec n (FirmwareResultProcess.getUpdaterResult P rows >>= _) .clearing _
      refine Kinds.skip (getUpdaterResult_kinds P rows) rfl (by trivial) fun x => ?_
      obtain ⟨code, resultMap⟩ := x
      cases code with
      | success =>
        refine ⟨trivial, fun _ _ => ⟨trivial, fun rows _ => ?_⟩⟩
        show (outline P).Spec n (FirmwareManager.saveHotaCurrentVersionComponentId >>= _) .clearing _
        refine Kinds.skip saveHotaCurrentVersionComponentId_kinds rfl (by trivial) fun _ => ?_
        split
        · exact Kinds.skip (notifyEvent_kinds ..) rfl (by trivial) fun _ => clearing_spec
        · rfl
      | failure =>
        refine ⟨trivial, fun _ _ => ⟨trivial, fun rows _ => ?_⟩⟩
        show (outline P).Spec n (notifyEvent _ _ _ _ _ >>= _) .clearing _
        exact Kinds.skip (notifyEvent_kinds ..) rfl (by trivial) fun _ => clearing_spec
      | partSuccess => rfl
    · rfl

theorem delayInit_conforms (f : Nat) (reason : StartupReason) :
    (outline P).Conforms (.delayInit f reason) (FirmwareManager.delayInit P f reason) .recovering := by
  refine Protocol.Spec.seq (restoreUpdate_spec f reason) fun _ r hr => ?_
  have hregister : Kinds [.listen] (call .registerNetChangedListener) := ⟨rfl, fun _ => trivial⟩
  refine Kinds.skip hregister rfl (steady_of_restored hr) fun _ => ?_
  refine Kinds.skip notifyInitEvent_kinds rfl (steady_of_restored hr) fun _ => ?_
  split
  · refine (handleBootComplete_spec rfl hr).mono fun _ r' h => final_of_request ?_
    exact .inr (.inr (.inr h))
  · intro given
    rcases hr with rfl | rfl | rfl | rfl <;> nofun

theorem clearError_conforms (f : Nat) : (outline P).Conforms (.clearError f) FirmwareManager.doClearError .idle := by
  simp only [FirmwareManager.doClearError, FirmwareTaskOperator.queryTask, Prog.perform_bind, Prog.op_bind]
  refine ⟨⟨rfl, .inl rfl⟩, fun tasks _ => ?_⟩
  show (outline P).Spec _ _ .clearing _
  have hend : (outline P).final .clearing := final_of_request (by simp)
  cases tasks with
  | nil => exact hend
  | cons t l =>
    show (outline P).Spec _ (if (!t.status.isUpgradeFailed) = true then _ else _) .clearing _
    split
    · exact ⟨trivial, fun _ _ => ⟨trivial, fun _ _ => hend⟩⟩
    · exact clearing_spec.mono fun _ r' h => h ▸ hend

/-! ## Checks -/

/-- `GetStepAfterInit` of a check. -/
theorem checkStepAfterInit_spec :
    (outline P).Spec n FirmwareManualCheckMode.getStepAfterInit .request fun s r' =>
      (s = .checkStep ∨ s = .complete) ∧ r' = .request := by
  refine Kinds.skip isChecking_kinds rfl (by trivial) fun b => ?_
  cases b with
  | true => exact ⟨trivial, fun _ _ => ⟨trivial, fun _ _ => ⟨.inr rfl, rfl⟩⟩⟩
  | false =>
    refine Kinds.skip isUpdateOnStatus_kinds rfl (by trivial) fun b => ?_
    cases b with
    | true => exact ⟨trivial, fun _ _ => ⟨trivial, fun _ _ => ⟨.inr rfl, rfl⟩⟩⟩
    | false =>
      refine Kinds.skip (isNetAvailable_kinds _) rfl (by trivial) fun b => ?_
      cases b with
      | true => exact ⟨.inl rfl, rfl⟩
      | false => exact ⟨trivial, fun _ _ => ⟨trivial, fun _ _ => ⟨.inr rfl, rfl⟩⟩⟩

theorem checkNewVersion_conforms (f : Nat) :
    (outline P).Conforms (.checkNewVersion f) (FirmwareManager.doCheck P f) .request := by
  simp only [FirmwareManager.doCheck, FirmwareFlowManager.execute, Prog.perform_bind]
  refine ⟨.inl rfl, fun x hx => ?_⟩
  obtain rfl : x = .init := hx.1.mpr rfl
  show (outline P).Spec _ (FirmwareManualCheckMode.getStepAfterInit >>= _) .request _
  refine Protocol.Spec.seq checkStepAfterInit_spec fun s r' h => ?_
  obtain ⟨rfl | rfl, rfl⟩ := h
  · refine ⟨⟨by decide, .inr (.inr (.inr (.inl ⟨rfl, f, rfl⟩)))⟩, fun _ _ => ?_⟩
    show (outline P).Spec _ (FirmwareStatusCache.setIsChecking true >>= _) .ready _
    refine Kinds.skip (setIsChecking_kinds true) rfl (by trivial) fun _ => ?_
    exact ⟨.inl ⟨rfl, by simp [Thread.starts]⟩, fun _ _ => final_of_request (.inr (.inl rfl))⟩
  · refine ⟨⟨by decide, .inr (.inr (.inr (.inl ⟨rfl, f, rfl⟩)))⟩, fun _ _ => ?_⟩
    show (outline P).Spec _ (handleComplete P .manualCheck) .ready _
    refine (checkComplete_spec (by trivial) rfl).mono fun _ r' h => final_of_request ?_
    exact .inl h

/-- `GetStepAfterCheck` always ends the flow. -/
theorem stepAfterCheck_spec :
    (outline P).Spec n FirmwareManualCheckMode.getStepAfterCheck .checking fun s r' => s = .complete ∧ r' = .checking := by
  simp only [FirmwareManualCheckMode.getStepAfterCheck, Prog.perform_bind]
  refine ⟨trivial, fun w _ => ?_⟩
  show (outline P).Spec _ _ .checking _
  dsimp only
  split
  · exact ⟨rfl, rfl⟩
  · refine Kinds.skip (queryTask_kinds rfl _) rfl (by trivial) fun t => ?_
    split
    · refine Kinds.skip (notifyEvent_kinds ..) rfl (by trivial) fun _ => ⟨trivial, fun b _ => ?_⟩
      cases b with
      | true => exact ⟨rfl, rfl⟩
      | false => exact Kinds.skip (notifyEvent_kinds ..) rfl (by trivial) fun _ => ⟨rfl, rfl⟩
    · exact ⟨rfl, rfl⟩

/-- Packages of the HOTA kind, which are all the analyser reads. -/
def IsHota (l : List FirmwareComponent) : Prop := ∀ c ∈ l, c.blVersionType = 1

/-- Every component is one that an entry was read as. -/
theorem analyzeComponents_returns {Q : FirmwareComponent → Prop}
    (hQ : ∀ result, Q (FirmwareCheckAnalyzeUtils.analyzeComponent P result).2) (root : Json) :
    (FirmwareCheckAnalyzeUtils.analyzeComponents P root).Returns fun x => ∀ c ∈ x.2, Q c := by
  have hread (results : List Json) :
      ∀ c ∈ (results.map (FirmwareCheckAnalyzeUtils.analyzeComponent P)).map Prod.snd, Q c := by
    intro c hc
    obtain ⟨x, hx, rfl⟩ := List.mem_map.mp hc
    obtain ⟨j, -, rfl⟩ := List.mem_map.mp hx
    exact hQ j
  have hnone : ∀ c ∈ ([] : List FirmwareComponent), Q c := fun c hc => absurd hc List.not_mem_nil
  unfold FirmwareCheckAnalyzeUtils.analyzeComponents
  split
  · exact hnone
  · split
    · exact hread _
    · exact Prog.Returns.bind (Prog.returns_true _) fun _ _ => hread _

/-- What the analyser finds. -/
theorem doAnalyze_returns {Q : FirmwareComponent → Prop}
    (hQ : ∀ result, Q (FirmwareCheckAnalyzeUtils.analyzeComponent P result).2) (text : String) :
    (FirmwareCheckAnalyzeUtils.doAnalyze P text).Returns fun l => ∀ c ∈ l, Q c := by
  have hnone : ∀ c ∈ ([] : List FirmwareComponent), Q c := fun c hc => absurd hc List.not_mem_nil
  unfold FirmwareCheckAnalyzeUtils.doAnalyze
  cases JsonUtils.parseAndGetJsonObject P text with
  | none => exact hnone
  | some root =>
    dsimp only
    by_cases hl : FirmwareCheckAnalyzeUtils.isLegalStatus
        (JsonUtils.getInt root "searchStatus" FirmwareCheckAnalyzeUtils.STATUS_SYSTEM_ERROR).2 = true
    · rw [if_neg (by simp [hl])]
      split
      · cases FirmwareCheckAnalyzeUtils.analyzeBlVersionCheckResults root with
        | none => exact fun _ => hnone
        | some ret =>
          refine Prog.Returns.bind (analyzeComponents_returns hQ root) ?_
          rintro ⟨ret', components⟩ hx
          simp only [Prog.pure_eq, Prog.Returns]
          split
          · exact hx
          · exact hnone
      · exact hnone
    · rw [if_pos (by simp [hl])]
      exact hnone

/-- What the analyser asks for: it saves changelogs, or ends the process. -/
theorem doAnalyze_spec (text : String) :
    (outline P).Spec n (FirmwareCheckAnalyzeUtils.doAnalyze P text) .checking fun l r' => IsHota l ∧ r' = .checking := by
  let S (o : Op) : Prop := plain o = true ∨ ∃ id d, o = .saveDataToFile (FirmwareCheckAnalyzeUtils.changelogFilePath id) d
  have hS : ∀ o, S o → (outline P).allowed n .checking o ∧ ∀ x, (outline P).next n .checking o x = .checking := by
    rintro o (ho | ⟨id, d, rfl⟩)
    · exact plain_steady P n (by trivial) o ho
    · exact ⟨⟨rfl, id, rfl⟩, fun _ => rfl⟩
  have hcomponents (root : Json) : (FirmwareCheckAnalyzeUtils.analyzeComponents P root).Uses S := by
    unfold FirmwareCheckAnalyzeUtils.analyzeComponents
    split
    · trivial
    · split
      · trivial
      · refine Prog.Uses.bind (Prog.uses_forM _ _ fun info _ => ?_) fun _ => trivial
        exact ⟨.inr ⟨_, _, rfl⟩, fun _ => trivial⟩
  refine Protocol.Spec.of_returns hS ?_ (doAnalyze_returns (fun _ => rfl) text)
  unfold FirmwareCheckAnalyzeUtils.doAnalyze
  cases JsonUtils.parseAndGetJsonObject P text with
  | none => trivial
  | some root =>
    dsimp only
    by_cases hl : FirmwareCheckAnalyzeUtils.isLegalStatus
        (JsonUtils.getInt root "searchStatus" FirmwareCheckAnalyzeUtils.STATUS_SYSTEM_ERROR).2 = true
    · rw [if_neg (by simp [hl])]
      split
      · cases FirmwareCheckAnalyzeUtils.analyzeBlVersionCheckResults root with
        | none => exact ⟨.inl rfl, fun _ => trivial⟩
        | some ret => exact Prog.Uses.bind (hcomponents _) fun _ => trivial
      · trivial
    · rw [if_pos (by simp [hl])]
      trivial

/-- `DoAction` keeps the executor checking. -/
theorem doAction_spec :
    (outline P).Spec n (FirmwareICheck.doAction P) .checking fun x r' => IsHota x.2 ∧ r' = .checking := by
  have hnone : IsHota [] := fun c hc => absurd hc List.not_mem_nil
  refine ⟨trivial, fun b _ => ?_⟩
  cases b with
  | false => exact ⟨hnone, rfl⟩
  | true =>
    show (outline P).Spec _ (FirmwareICheck.readDataFromSSL P >>= _) .checking _
    refine Kinds.skip (readDataFromSSL_kinds P) rfl (by trivial) fun text => ?_
    cases text with
    | none => exact ⟨hnone, rfl⟩
    | some content => exact Protocol.Spec.seq (doAnalyze_spec content) fun _ _ h => h

/-- The test for undone tasks lets the result be processed, or not. -/
theorem hasUndoneTask_spec :
    (outline P).Spec n FirmwareCheckDataProcessor.hasUndoneTask .checking fun b r' =>
      (b = true ∧ r' = .checking) ∨ (b = false ∧ r' = .processing) := by
  simp only [FirmwareCheckDataProcessor.hasUndoneTask, FirmwareTaskOperator.queryTask, Prog.perform_bind, Prog.op_bind]
  refine ⟨rfl, fun tasks _ => ?_⟩
  cases tasks with
  | nil => exact .inr ⟨rfl, rfl⟩
  | cons t l =>
    cases hu : t.status.isUndone with
    | true => exact .inl ⟨by simp [hu], by simp [outline, Outline.next, Outline.nextRole, hu]⟩
    | false => exact .inr ⟨by simp [hu], by simp [outline, Outline.next, Outline.nextRole, hu]⟩

/-- The task of such packages, once they have their paths. -/
theorem combinationType_eq_hota {l : List FirmwareComponent} (hempty : l ≠ []) (hl : IsHota l) :
    FirmwareCheckDataProcessor.getCombinationType (l.map FirmwareCheckDataProcessor.buildComponentSPath) = .hota := by
  obtain ⟨c, l', rfl⟩ := List.exists_cons_of_ne_nil hempty
  have hc : c.blVersionType = 1 := hl c (List.mem_cons_self ..)
  simp [FirmwareCheckDataProcessor.getCombinationType, FirmwareCheckDataProcessor.buildComponentSPath, hc]

/-- Processing a check result ends outside of it. -/
theorem handleCheckResult_spec {l : List FirmwareComponent} (hl : IsHota l) :
    (outline P).Spec n (FirmwareCheckDataProcessor.handleCheckResult P l) .checking fun _ r' => r' = .checking := by
  refine Protocol.Spec.seq hasUndoneTask_spec fun b r' h => ?_
  rcases h with ⟨rfl, rfl⟩ | ⟨rfl, rfl⟩
  · rfl
  · show (outline P).Spec n (if l.isEmpty = true then _ else _) .processing _
    have hclear : (outline P).Spec n FirmwareUpdateHelper.clearFirmwareInfo .processing fun _ r' => r' = .cleared :=
      clearFirmwareInfo_spec (by trivial) (by trivial) (by trivial)
    by_cases hempty : l.isEmpty = true
    · rw [if_pos hempty]
      show (outline P).Spec n (FirmwareCheckDataProcessor.handleNoNewVersion >>= _) .processing _
      have hno : (outline P).Spec n FirmwareCheckDataProcessor.handleNoNewVersion .processing fun _ r' => r' = .cleared := by
        refine Kinds.skip (queryTask_kinds rfl _) rfl (by trivial) fun t => ?_
        split
        · exact Kinds.skip (notifyEvent_kinds ..) rfl (by trivial) fun _ => hclear
        · exact hclear
      refine Protocol.Spec.seq hno fun _ r' hr' => ?_
      subst hr'
      exact ⟨.inr rfl, fun _ _ => rfl⟩
    · rw [if_neg hempty]
      show (outline P).Spec n (FirmwareCheckDataProcessor.handleNewVersion P l >>= _) .processing _
      have hnew : (outline P).Spec n (FirmwareCheckDataProcessor.handleNewVersion P l) .processing fun _ r' =>
          r' = .processing ∨ r' = .cleared := by
        refine Kinds.skip (isVersionSameWithDb_kinds l) rfl (by trivial) fun same => ⟨trivial, fun _ _ => ?_⟩
        cases same with
        | true => exact ((updateFirmwareComponent_kinds l).spec rfl (by trivial)).mono fun _ _ h => .inl h
        | false =>
          show (outline P).Spec n (FirmwareUpdateHelper.clearFirmwareInfo >>= _) .processing _
          refine Protocol.Spec.seq hclear fun _ r' hr' => ?_
          subst hr'
          refine ⟨trivial, fun _ _ => ⟨⟨rfl, fun c hc => ?_⟩, fun _ _ => ⟨⟨rfl, rfl, ?_⟩, fun _ _ => .inr rfl⟩⟩⟩
          · obtain ⟨d, -, rfl⟩ := List.mem_map.mp hc
            exact ⟨d.fileName, rfl⟩
          · exact combinationType_eq_hota (by simpa using hempty) hl
      refine Protocol.Spec.seq hnew fun _ r' hr' => ?_
      rcases hr' with rfl | rfl
      · exact ⟨.inl rfl, fun _ _ => rfl⟩
      · exact ⟨.inr rfl, fun _ _ => rfl⟩

theorem checkExecutor_conforms (f : Nat) :
    (outline P).Conforms (.checkExecutor f) (FirmwareCheckExecutor.doCheck P f) .checking := by
  refine Protocol.Spec.seq doAction_spec fun x r' h => ?_
  obtain ⟨hx, rfl⟩ := h
  refine Kinds.skip (setIsChecking_kinds false) rfl (by trivial) fun _ => ?_
  have hset {l : List FirmwareComponent} (hl : IsHota l) :
      (outline P).Spec (.checkExecutor f) (FirmwareCheckDataProcessor.setCheckResult P x.1 l) .checking fun _ r' =>
        r' = .checking := by
    refine ⟨trivial, fun _ _ => ⟨trivial, fun w _ => ?_⟩⟩
    show (outline P).Spec _ (if FirmwareCheckDataProcessor.isCheckFailed w = true then _ else _) .checking _
    split
    · rfl
    · exact handleCheckResult_spec hl
  have hchecked : IsHota (FirmwareCheckExecutor.setComponentCheckStatus x.2) := by
    intro c hc
    obtain ⟨d, hd, rfl⟩ := List.mem_map.mp hc
    exact hx d hd
  refine Protocol.Spec.seq (hset ?_) fun _ r' hr' => ?_
  · split
    · exact hx
    · exact hchecked
  subst hr'
  simp only [FirmwareFlowManager.execute, Prog.perform_bind]
  refine ⟨.inr (.inr ⟨trivial, rfl⟩), fun s hs => ?_⟩
  have hstep : (outline P).Spec (.checkExecutor f) (getNextStep P .manualCheck s) .checking fun s r' =>
      s = .complete ∧ r' = .checking := by
    cases s with
    | init => exact absurd (hs.1.mp rfl) (by simp [Role.entering])
    | checkStep => exact stepAfterCheck_spec
    | _ => exact ⟨rfl, rfl⟩
  refine Protocol.Spec.seq hstep fun _ r' h => ?_
  obtain ⟨rfl, rfl⟩ := h
  refine ⟨⟨by decide, .inr (.inr (.inr (.inr ⟨trivial, rfl, rfl⟩)))⟩, fun _ _ => ?_⟩
  show (outline P).Spec _ (handleComplete P .manualCheck) .checking _
  refine (checkComplete_spec (by trivial) rfl).mono fun _ r' h => ?_
  subst h
  exact fun _ => Role.noConfusion

end ConformAux

end UpdateEngine
