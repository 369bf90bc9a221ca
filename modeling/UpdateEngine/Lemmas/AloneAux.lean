import UpdateEngine.Firmware.Lives
import UpdateEngine.Lemmas.StepAux
import UpdateEngine.Lemmas.Kinds

/-!
# What the functions do when they run alone

The end of each function that the work after a start and the processing of a check result are made of: what it returns and what it
makes of the state, up to what is only noted.
-/

namespace UpdateEngine

open Concurrent StepAux KindsAux

/-- The id of a task depends on the version ids of its components only, in their order. -/
theorem buildTaskId_congr (P : Platform) {l l' : List FirmwareComponent} (h : l.map (·.versionId) = l'.map (·.versionId)) :
    FirmwareUpdateHelper.buildTaskId P l = FirmwareUpdateHelper.buildTaskId P l' := by
  have htext (l : List FirmwareComponent) : FirmwareUpdateHelper.taskIdText l = (l.map (·.versionId)).foldl
      (fun taskId versionId => (if taskId.isEmpty then taskId else taskId ++ "_") ++ versionId) "" := by
    rw [List.foldl_map]
    rfl
  have hempty (l : List FirmwareComponent) : l.isEmpty = (l.map (·.versionId)).isEmpty := by
    cases l <;> rfl
  unfold FirmwareUpdateHelper.buildTaskId
  rw [htext, htext, hempty l, hempty l', h]

/-- The statuses from which the next ordinary request is accepted: a download, an upgrade, or a request to clear an error. -/
def UpgradeStatus.isAccepted (s : UpgradeStatus) : Bool :=
  s = .checkVersionSuccess || s = .downloadSuccess || s = .installSuccess || s.isUpgradeFailed

namespace AloneAux

variable {P : Platform} {n : Thread} {a : Answer} {s : State} {α β : Type}

/-! ## Steps -/

/-- A program that runs alone goes on with the answer of its operation. -/
theorem ends_op {o : Op} {k : o.Res → Prog α} {x : o.Res} {Q : α → State → Prop} (hs : s.stopped = false)
    (hx : o.answer n a s = some x) (h : (k x).Ends (n.alone a) (o.after n s x) Q) : (Prog.op o k).Ends (n.alone a) s Q := by
  refine ⟨x, o.after n s x, ?_, h⟩
  simp [Thread.alone, exec, hs, hx]

/-- The same before a continuation. -/
theorem ends_call {o : Op} {f : o.Res → Prog α} {x : o.Res} {Q : α → State → Prop} (hs : s.stopped = false)
    (hx : o.answer n a s = some x) (h : (f x).Ends (n.alone a) (o.after n s x) Q) : (call o >>= f).Ends (n.alone a) s Q :=
  ends_op hs hx h

/-- The same from a state of which only as much is kept as the program can tell. -/
theorem ends_via {o : Op} {f : o.Res → Prog α} {x : o.Res} {Q : α → State → Prop} (hs : s.stopped = false)
    (hx : o.answer n a s = some x) (t : State) (ht : (o.effect n s x).bare = t)
    (h : ∀ s', s'.bare = t → (f x).Ends (n.alone a) s' Q) : (call o >>= f).Ends (n.alone a) s Q :=
  ends_op hs hx (h _ ht)

/-- A state that is like one that goes on goes on. -/
theorem not_stopped {s' t : State} (h : s'.bare = t) (ht : t.stopped = false) : s'.stopped = false := by
  rw [← h] at ht
  exact ht

theorem after_setFlow_stopped (s : State) (u : FlowUpdate) : (Op.after n s (.setFlow u) ()).stopped = s.stopped := rfl

theorem tasks_eq {s' t : State} (h : s'.bare = t) : s'.tasks = t.tasks := by
  rw [← h]
  rfl

theorem components_eq {s' t : State} (h : s'.bare = t) : s'.components = t.components := by
  rw [← h]
  rfl

/-! ## Tables and events -/

end AloneAux

/-- The state once the tables and the package directory are empty. -/
def State.cleared (s : State) : State := { s with tasks := [], components := [], files := withoutDownloadFiles s.files }

/-- The state once clients are told of an event. -/
def State.told (s : State) (e : EventInfo) : State := { s with events := s.events ++ [e] }

/-- The state with other preferences. -/
def State.prefer (s : State) (preferences : String → Option String) : State := { s with preferences := preferences }

namespace AloneAux

variable {P : Platform} {n : Thread} {a : Answer} {s : State}

/-- What `QueryTask` returns. -/
def first (task : FirmwareTask) : List FirmwareTask → FirmwareTask
  | [] => { task with isExistTask := false }
  | t :: _ => { t with isExistTask := true }

theorem queryTask_ends (hs : s.stopped = false) (c : Caller) (task : FirmwareTask) :
    (FirmwareTaskOperator.queryTask c task).Ends (n.alone a) s fun t s' => t = first task s.tasks ∧ s'.bare = s.bare := by
  refine ends_op hs rfl ?_
  cases s.tasks with
  | nil => exact ⟨rfl, rfl⟩
  | cons t l => exact ⟨rfl, rfl⟩

/-- `ClearFirmwareInfo` empties both tables and the package directory. -/
theorem clearFirmwareInfo_ends (hs : s.stopped = false) :
    FirmwareUpdateHelper.clearFirmwareInfo.Ends (n.alone a) s fun _ s' => s'.bare = s.bare.cleared := by
  refine Prog.Ends.seq (queryTask_ends hs _ _) ?_
  rintro _ s' ⟨-, h⟩
  have hs' : s'.stopped = false := not_stopped h hs
  refine ends_op hs' rfl (ends_op hs' rfl (ends_op hs' rfl ?_))
  show s'.bare.cleared = s.bare.cleared
  rw [h]

/-- What `NotifyEvent` publishes. -/
theorem notifyEvent_ends (hs : s.stopped = false) (versionDigest : String) (eventId : EventId) (status : UpgradeStatus)
    (errorMessage : ErrorMessage) (versionComponents : List VersionComponent) :
    (notifyEvent versionDigest eventId status errorMessage versionComponents).Ends (n.alone a) s fun _ s' =>
      s'.bare = s.bare.told ⟨eventId, {
        versionDigest := versionDigest
        status := status
        errorMessages := [errorMessage]
        versionComponents := versionComponents }⟩ := by
  exact ends_op hs rfl rfl

/-! ## The work after a boot -/

open FirmwareResultProcess in
/-- The aggregate over the components is a success or a failure, whatever the combination type of the task. -/
theorem handleFileResults_ends (hs : s.stopped = false) (resultMap : UpdateResults) (components : List FirmwareComponent) :
    (handleFileResults P resultMap components).Ends (n.alone a) s fun x s' => x.1 ≠ .partSuccess ∧ s'.bare = s.bare := by
  refine Prog.Ends.seq (queryTask_ends hs _ _) ?_
  rintro t s' ⟨-, h⟩
  generalize components.foldl (handleFileResult P) (0, resultMap) = result
  have hfail (m : UpdateResults) : (UpdateResultCode.failure, m).1 ≠ .partSuccess := fun h => by cases h
  have hsuccess (m : UpdateResults) : (UpdateResultCode.success, m).1 ≠ .partSuccess := fun h => by cases h
  split
  · exact ⟨hfail _, h⟩
  · dsimp only
    split
    · refine ⟨?_, h⟩
      split
      · exact hsuccess result.2
      · exact hfail result.2
    · split
      · exact ⟨hfail _, h⟩
      · exact ⟨hsuccess _, h⟩

open FirmwareResultProcess in
/-- `GetUpdaterResult` comes to a success or a failure, whatever the file says. -/
theorem getUpdaterResult_ends (hs : s.stopped = false) (components : List FirmwareComponent) :
    (getUpdaterResult P components).Ends (n.alone a) s fun x s' => x.1 ≠ .partSuccess ∧ s'.bare = s.bare := by
  unfold getUpdaterResult
  split
  · refine ⟨?_, rfl⟩
    intro h
    cases h
  · refine ends_call hs rfl ?_
    dsimp only
    refine handleFileResults_ends ?_ _ _
    exact hs

theorem saveHotaCurrentVersionComponentId_ends (hs : s.stopped = false) :
    FirmwareManager.saveHotaCurrentVersionComponentId.Ends (n.alone a) s fun _ s' =>
      ∃ preferences, s'.bare = s.bare.prefer preferences := by
  refine ends_op hs rfl ?_
  rw [Prog.bind]
  split
  · exact ends_op hs rfl ⟨_, rfl⟩
  · exact ⟨s.preferences, rfl⟩

/-- A boot tells clients of a version and clears it. -/
def Judged (s s' : State) (e : EventInfo) : Prop := ∃ preferences, s'.bare = ((s.bare.prefer preferences).told e).cleared

/-- It does not matter what is only noted. -/
theorem Judged.of_bare {s₁ s' : State} {e : EventInfo} (h : Judged s₁ s' e) (h₁ : s₁.bare = s.bare) : Judged s s' e := by
  obtain ⟨preferences, h⟩ := h
  rw [h₁] at h
  exact ⟨preferences, h⟩

/-- The event for a version that was installed. -/
def successEvent (taskId : String) (components : List FirmwareComponent) : EventInfo :=
  ⟨.upgradeSuccess, {
    versionDigest := taskId
    status := .updateSuccess
    errorMessages := [{}]
    versionComponents := components.map FirmwareManager.bootVersionComponent }⟩

/-- The event for a version that was not. -/
def failEvent (taskId : String) (e : ErrorMessage) (components : List FirmwareComponent) : EventInfo :=
  ⟨.upgradeFail, {
    versionDigest := taskId
    status := .updateFail
    errorMessages := [e]
    versionComponents := components.map FirmwareManager.bootVersionComponent }⟩

theorem handleBootUpdateSuccess_ends (hs : s.stopped = false) {task : FirmwareTask} (ht : task.combinationType = .hota) :
    (FirmwareManager.handleBootUpdateSuccess task).Ends (n.alone a) s fun _ s' =>
      Judged s s' (successEvent task.taskId s.components) := by
  refine ends_via hs rfl (s.bare.prefer _) rfl ?_
  intro s₁ h₁
  have hs₁ : s₁.stopped = false := not_stopped h₁ hs
  refine ends_via hs₁ rfl s₁.bare rfl ?_
  intro s₂ h₂
  have hs₂ : s₂.stopped = false := not_stopped h₂ hs₁
  refine Prog.Ends.seq (saveHotaCurrentVersionComponentId_ends hs₂) ?_
  rintro _ s₃ ⟨preferences, h₃⟩
  have hs₃ : s₃.stopped = false := not_stopped h₃ hs₂
  rw [if_pos ht]
  refine Prog.Ends.seq (notifyEvent_ends hs₃ ..) ?_
  intro _ s₄ h₄
  refine (clearFirmwareInfo_ends (not_stopped h₄ hs₃)).mono ?_
  intro _ s₅ h₅
  have hcomponents : s₁.components = s.components := (components_eq h₁ :)
  refine ⟨preferences, ?_⟩
  rw [h₅, h₄, h₃, h₂, h₁, hcomponents]
  rfl

theorem handleBootUpdateFail_ends (hs : s.stopped = false) (task : FirmwareTask) (resultMap : UpdateResults) :
    (FirmwareManager.handleBootUpdateFail task resultMap).Ends (n.alone a) s fun _ s' =>
      Judged s s' (failEvent task.taskId (FirmwareManager.bootUpdateError resultMap) s.components) := by
  refine ends_via hs rfl (s.bare.prefer _) rfl ?_
  intro s₁ h₁
  have hs₁ : s₁.stopped = false := not_stopped h₁ hs
  refine ends_via hs₁ rfl s₁.bare rfl ?_
  intro s₂ h₂
  have hs₂ : s₂.stopped = false := not_stopped h₂ hs₁
  refine Prog.Ends.seq (notifyEvent_ends hs₂ ..) ?_
  intro _ s₃ h₃
  refine (clearFirmwareInfo_ends (not_stopped h₃ hs₂)).mono ?_
  intro _ s₄ h₄
  have hcomponents : s₁.components = s.components := (components_eq h₁ :)
  refine ⟨Function.update s.preferences Firmware.UPDATE_ACTION (some "recovery"), ?_⟩
  rw [h₄, h₃, h₂, h₁, hcomponents]
  rfl

/-- The event a boot tells clients when it has judged an installation. -/
def IsVerdict (taskId : String) (components : List FirmwareComponent) (e : EventInfo) : Prop :=
  e = successEvent taskId components ∨ ∃ message, e = failEvent taskId message components

/-- A version that is being installed by the updater is judged and cleared, when it holds a HOTA package. -/
theorem handleBootUpdateOnStatusProcess_ends (task : FirmwareTask) (hs : s.stopped = false)
    (ht : task.combinationType = .hota) :
    (FirmwareManager.handleBootUpdateOnStatusProcess P task).Ends (n.alone a) s fun _ s' =>
      ∃ e, IsVerdict task.taskId s.components e ∧ Judged s s' e := by
  refine ends_call hs rfl ?_
  refine Prog.Ends.seq (getUpdaterResult_ends ?_ s.components) ?_
  · exact hs
  rintro ⟨code, resultMap⟩ s₁ ⟨hcode, h₁⟩
  have h₁ : s₁.bare = s.bare := h₁
  have hs₁ : s₁.stopped = false := not_stopped h₁ hs
  have hcomponents : s₁.components = s.components := (components_eq h₁ :)
  cases code with
  | success =>
    refine (handleBootUpdateSuccess_ends hs₁ ht).mono ?_
    intro _ s' h
    rw [hcomponents] at h
    exact ⟨_, .inl rfl, h.of_bare h₁⟩
  | failure =>
    refine (handleBootUpdateFail_ends hs₁ task resultMap).mono ?_
    intro _ s' h
    rw [hcomponents] at h
    exact ⟨_, .inr ⟨_, rfl⟩, h.of_bare h₁⟩
  | partSuccess => exact absurd rfl hcode

/-- `HandleBootComplete` judges a row that is being installed by the updater. -/
theorem handleBootComplete_ends (hs : s.stopped = false) {t : FirmwareTask} {l : List FirmwareTask} (ht : s.tasks = t :: l)
    (hstatus : t.status = .updating) (hota : t.combinationType = .hota) :
    (FirmwareManager.handleBootComplete P).Ends (n.alone a) s fun _ s' =>
      ∃ e, IsVerdict t.taskId s.components e ∧ Judged s s' e := by
  refine Prog.Ends.seq (queryTask_ends hs _ _) ?_
  rintro _ s₁ ⟨rfl, h₁⟩
  have hs₁ : s₁.stopped = false := not_stopped h₁ hs
  have hcomponents : s₁.components = s.components := (components_eq h₁ :)
  rw [ht]
  show Prog.Ends _ (if t.status = .updating then _ else _) s₁ _
  rw [if_pos hstatus]
  refine (handleBootUpdateOnStatusProcess_ends { t with isExistTask := true } hs₁ hota).mono ?_
  rintro _ s' ⟨e, he, h⟩
  rw [hcomponents] at he
  exact ⟨e, he, h.of_bare h₁⟩

/-- It does nothing to any other one. -/
theorem handleBootComplete_ends_of_ne (hs : s.stopped = false) (hstatus : s.status ≠ some .updating) :
    (FirmwareManager.handleBootComplete P).Ends (n.alone a) s fun _ s' => s'.bare = s.bare := by
  refine Prog.Ends.seq (queryTask_ends hs _ _) ?_
  rintro _ s₁ ⟨rfl, h₁⟩
  cases ht : s.tasks with
  | nil => exact h₁
  | cons t l =>
    show Prog.Ends _ (if t.status = .updating then _ else _) s₁ _
    rw [if_neg]
    · exact h₁
    · intro h
      exact hstatus (by simp [State.status, ht, h])

/-! ## Operations that leave the tables alone -/

/-- The tables and the step of the flow are what they were. -/
structure Kept (n : Thread) (s s' : State) : Prop where
  stopped : s'.stopped = s.stopped
  tasks : s'.tasks = s.tasks
  components : s'.components = s.components
  nextStep : (s'.flows n.flow).nextStep = (s.flows n.flow).nextStep

theorem Kept.rfl : Kept n s s := ⟨Eq.refl _, Eq.refl _, Eq.refl _, Eq.refl _⟩

theorem Kept.trans {s₁ s₂ s₃ : State} (h : Kept n s₁ s₂) (h' : Kept n s₂ s₃) : Kept n s₁ s₃ :=
  ⟨h'.stopped.trans h.stopped, h'.tasks.trans h.tasks, h'.components.trans h.components, h'.nextStep.trans h.nextStep⟩

theorem Kept.status {s' : State} (h : Kept n s s') : s'.status = s.status := by
  rw [State.status, State.status, h.tasks]

theorem kept_of_bare {s' : State} (h : s'.bare = s.bare) : Kept n s s' := by
  have hflows := congrArg State.flows h
  have hstopped := congrArg State.stopped h
  exact ⟨hstopped, (tasks_eq h :), (components_eq h :), congrArg (fun w : Nat → Flow => (w n.flow).nextStep) hflows⟩

/-- The kinds of operations that keep them, and never have to wait. -/
def keepsKind : OpKind → Bool
  | .query | .choose | .read | .judge | .prefer | .publish | .answer | .getFlow | .getStep | .assign | .getNoNet | .setNoNet | .getCancel
  | .setCancel | .getNet | .setNet | .cache | .mark | .stage => true
  | _ => false

theorem kept_of_kind (a : Answer) (s : State) {o : Op} (ho : keepsKind o.kind = true) :
    ∃ x, o.answer n a s = some x ∧ Kept n s (o.after n s x) := by
  cases o with
  | updateTasks c i u => cases u <;> cases ho
  | updateComponents c u => cases c <;> cases ho
  | setFlow u =>
    refine ⟨(), Eq.refl _, Eq.refl _, Eq.refl _, Eq.refl _, ?_⟩
    cases u <;> first
      | (cases ho; done)
      | simp [Op.after, Op.effect, State.setFlow, FlowUpdate.apply]
  | enter m => cases m <;> exact ⟨(), Eq.refl _, Eq.refl _, Eq.refl _, Eq.refl _, Eq.refl _⟩
  | ask q => cases q <;> cases ho
  | _ => first
    | (cases ho; done)
    | exact ⟨_, Eq.refl _, Eq.refl _, Eq.refl _, Eq.refl _, Eq.refl _⟩

/-- A program of such operations comes to its end. -/
theorem Kinds.kept {α : Type} {l : List OpKind} {p : Prog α} (hp : Kinds l p) (hl : l.all keepsKind = true)
    (hs : s.stopped = false) : p.Ends (n.alone a) s fun _ s' => Kept n s s' := by
  refine Prog.Ends.of_uses (fun o s₁ ho h₁ => ?_) hp Kept.rfl
  have ho : keepsKind o.kind = true := List.all_eq_true.mp hl o.kind (List.contains_iff_mem.mp ho)
  obtain ⟨x, hx, hk⟩ := kept_of_kind a s₁ ho
  refine ⟨x, o.after n s₁ x, ?_, h₁.trans hk⟩
  simp [Thread.alone, exec, h₁.stopped.trans hs, hx]

/-! ## The recovery -/

/-- The tables are empty, and the flow is at the step it was at. -/
structure Emptied (n : Thread) (s s' : State) : Prop where
  stopped : s'.stopped = s.stopped
  tasks : s'.tasks = []
  components : s'.components = []
  nextStep : (s'.flows n.flow).nextStep = (s.flows n.flow).nextStep

theorem emptied_of_bare {s' : State} (h : s'.bare = s.bare.cleared) : Emptied n s s' := by
  have hflows := congrArg State.flows h
  have hstopped := congrArg State.stopped h
  exact ⟨hstopped, tasks_eq h, components_eq h, congrArg (fun w : Nat → Flow => (w n.flow).nextStep) hflows⟩

theorem Emptied.after {s₁ s' : State} (h : Emptied n s₁ s') (h₁ : Kept n s s₁) : Emptied n s s' :=
  ⟨h.stopped.trans h₁.stopped, h.tasks, h.components, h.nextStep.trans h₁.nextStep⟩

/-- One package is ready when it is a file of the size in its row. -/
theorem isUpgradePackagesReady_ends (hs : s.stopped = false) (row : FirmwareComponent) :
    (FirmwareUpdateHelper.isUpgradePackagesReady [row]).Ends (n.alone a) s fun ready _ =>
      ready = (s.files row.spath).any fun content => Int64.ofNat content.length = row.size := by
  refine ends_op hs rfl ?_
  cases hfile : s.files row.spath with
  | none => exact rfl
  | some content =>
    refine ends_op hs rfl ?_
    have hfile' : (Op.after n s (.readFile row.spath) (some content)).files row.spath = some content := hfile
    rw [hfile', Option.any_some]
    generalize hready : decide (Int64.ofNat content.length = row.size) = ready
    change Prog.Ends _ (Prog.ret (decide (Int64.ofNat content.length = row.size)) >>= _) _ _
    rw [hready]
    cases ready with
    | false => exact rfl
    | true => exact rfl

/-- Either the packages are there, or everything is cleared. -/
theorem isUpgradeFilesReady_ends (hs : s.stopped = false) :
    FirmwareInstallApplyMode.isUpgradeFilesReady.Ends (n.alone a) s fun _ s' => Kept n s s' ∨ Emptied n s s' := by
  refine Prog.Ends.seq (Kinds.kept isUpgradeFileCheckSuccess_kinds rfl hs) ?_
  intro ready s₁ h₁
  have hs₁ : s₁.stopped = false := h₁.stopped.trans hs
  cases ready with
  | true => exact .inl h₁
  | false =>
    let fields : Prog Unit := call (.setFlow (.buildError .fail "check component failed")) >>= fun _ =>
      call (.setFlow (.addErrorMessage DUpdateErrno.DUPDATE_ERR_UPDATE_PRECHECK_FAIL "check component failed"))
    have hfields : Kinds [.assign] fields := ⟨rfl, fun _ => ⟨rfl, fun _ => trivial⟩⟩
    show Prog.Ends _ (fields >>= fun _ => FirmwareUpdateHelper.clearFirmwareInfo >>= fun _ => .ret false) s₁ _
    refine Prog.Ends.seq (Kinds.kept hfields rfl hs₁) ?_
    intro _ s₂ h₂
    have hs₂ : s₂.stopped = false := h₂.stopped.trans hs₁
    refine Prog.Ends.seq (clearFirmwareInfo_ends hs₂) ?_
    intro _ s₃ h₃
    exact .inr ((emptied_of_bare h₃).after (h₁.trans h₂))

/-- Whether there is space enough to install. -/
theorem isAllowInstall_ends (free : UInt64) (hs : s.stopped = false) :
    (FirmwareInstallApplyMode.isAllowInstall P).Ends (n.alone (.space free)) s fun _ s' => Kept n s s' := by
  have hspace : (FirmwareInstallDataProcessor.isSpaceEnough P).Ends (n.alone (.space free)) s fun _ s' => Kept n s s' := by
    refine ends_call hs rfl ?_
    refine Prog.Ends.seq (R := fun _ s' => Kept n s s') ?_ fun _ _ h => h
    exact ends_op hs rfl ⟨rfl, rfl, rfl, rfl⟩
  refine Prog.Ends.seq hspace ?_
  rintro ⟨enough, required⟩ s₁ h₁
  have hs₁ : s₁.stopped = false := h₁.stopped.trans hs
  have hrest : Kinds [.assign] (do
      if !enough then
        call (.setFlow (.buildError .fail "install condition fail!"))
        call (.setFlow (.addErrorMessage DUpdateErrno.DUPDATE_ERR_NO_ENOUGH_MEMORY (toString required.toInt)))
        return false
      if !FirmwareUpdateHelper.isBatteryEnough then
        call (.setFlow (.buildError .fail "install condition fail!"))
        call (.setFlow (.addErrorMessage DUpdateErrno.DUPDATE_ERR_LOW_BATTERY_LEVEL "battery is low"))
        return false
      return true) := by
    cases enough with
    | true => trivial
    | false => exact ⟨rfl, fun _ => ⟨rfl, fun _ => trivial⟩⟩
  refine (Kinds.kept hrest rfl hs₁).mono ?_
  intro _ s' h
  exact h₁.trans h

/-- The step an order to install and apply comes to, for a task that is downloaded. -/
theorem getStepForInstallAndApplyOrder_ends (task : FirmwareTask) (free : UInt64) (hs : s.stopped = false)
    (ht : task.status = .downloadSuccess) :
    (FirmwareInstallApplyMode.getStepForInstallAndApplyOrder P task).Ends (n.alone (.space free)) s fun step s' =>
      (step = .installStep ∨ step = .complete) ∧ (Kept n s s' ∨ Emptied n s s') := by
  unfold FirmwareInstallApplyMode.getStepForInstallAndApplyOrder
  rw [if_neg (fun h => h ht)]
  refine Prog.Ends.seq (isAllowInstall_ends free hs) ?_
  intro allowed s₁ h₁
  have hs₁ : s₁.stopped = false := h₁.stopped.trans hs
  cases allowed with
  | false => exact ⟨.inr rfl, .inl h₁⟩
  | true =>
    refine Prog.Ends.seq (isUpgradeFilesReady_ends hs₁) ?_
    intro ready s₂ h₂
    have h : Kept n s s₂ ∨ Emptied n s s₂ := h₂.imp h₁.trans fun h => h.after h₁
    cases ready with
    | true => exact ⟨.inl rfl, h⟩
    | false => exact ⟨.inr rfl, h⟩

/-- Where the recovery leaves a task: both tables are empty, an installation is ordered again, or the next request is accepted. -/
def Settled (n : Thread) (s : State) : Prop :=
  (s.tasks = [] ∧ s.components = []) ∨ (s.flows n.flow).nextStep = .installStep ∨ s.status.any UpgradeStatus.isAccepted = true

instance : Decidable (Settled n s) := inferInstanceAs (Decidable (_ ∨ _ ∨ _))

/-- `Execute` of a flow that is to install a downloaded task settles it. -/
theorem executeInstall_ends (free : UInt64) (hs : s.stopped = false) {t : FirmwareTask} {l : List FirmwareTask}
    (ht : s.tasks = t :: l) (hstatus : t.status = .downloadSuccess) (hstep : (s.flows n.flow).nextStep = .init) (f : Nat)
    (installType : InstallType) :
    (FirmwareFlowManager.execute P f (.installApply { order := .installAndApply } installType)).Ends (n.alone (.space free)) s
      fun _ s' => s'.stopped = false ∧ Settled n s' := by
  refine ends_via hs (congrArg some hstep) s.bare rfl ?_
  intro s₁ h₁
  have hs₁ : s₁.stopped = false := not_stopped h₁ hs
  have hk₁ : Kept n s s₁ := kept_of_bare h₁
  have hmode : (getNextStep P (.installApply { order := .installAndApply } installType) .init).Ends (n.alone (.space free)) s₁
      fun step s' => (step = .installStep ∨ step = .complete) ∧ (Kept n s s' ∨ Emptied n s s') := by
    show Prog.Ends _ (FirmwareInstallApplyMode.getStepAfterInit P { order := .installAndApply }) s₁ _
    refine Prog.Ends.seq (queryTask_ends hs₁ _ _) ?_
    rintro _ s₂ ⟨rfl, h₂⟩
    have hk₂ : Kept n s₁ s₂ := kept_of_bare h₂
    rw [hk₁.tasks, ht]
    refine (getStepForInstallAndApplyOrder_ends { t with isExistTask := true } free (not_stopped h₂ hs₁) hstatus).mono ?_
    rintro step s' ⟨hstep', h⟩
    exact ⟨hstep', h.imp (hk₁.trans hk₂).trans fun h => h.after (hk₁.trans hk₂)⟩
  refine Prog.Ends.seq hmode ?_
  rintro step s₂ ⟨hstep', h₂⟩
  have hs₂ : s₂.stopped = false := by
    rcases h₂ with h | h
    · exact h.stopped.trans hs
    · exact h.stopped.trans hs
  rcases hstep' with rfl | rfl
  · have hs₃ := (after_setFlow_stopped (n := n) s₂ (.nextStep .installStep)).trans hs₂
    refine ends_op hs₂ rfl (ends_op hs₃ rfl ⟨?_, .inr (.inl ?_)⟩)
    · rw [after_spawn]
      exact hs₃
    · rw [after_spawn]
      simp [Op.after, Op.effect, State.setFlow, FlowUpdate.apply]
  · refine ends_via hs₂ rfl (s₂.bare.setFlow n.flow (.nextStep .complete)) rfl ?_
    intro s₃ h₃
    have hs₃ : s₃.stopped = false := not_stopped h₃ hs₂
    refine ends_via hs₃ rfl s₃.bare rfl ?_
    intro s₄ h₄
    rw [h₃] at h₄
    have htasks : s₄.tasks = s₂.tasks := (tasks_eq h₄ :)
    have hcomponents : s₄.components = s₂.components := (components_eq h₄ :)
    refine ⟨not_stopped h₄ hs₂, ?_⟩
    rcases h₂ with h | h
    · refine .inr (.inr ?_)
      rw [State.status, htasks, h.tasks, ht]
      simp [UpgradeStatus.isAccepted, hstatus]
    · exact .inl ⟨htasks.trans h.tasks, hcomponents.trans h.components⟩

/-- A downloaded task may be installed. -/
theorem canInstall_ends (hs : s.stopped = false) {t : FirmwareTask} {l : List FirmwareTask} (ht : s.tasks = t :: l)
    (hstatus : t.status = .downloadSuccess) :
    (FirmwareManager.canInstall P).Ends (n.alone a) s fun b s' => b = true ∧ s'.bare = s.bare := by
  refine Prog.Ends.seq (queryTask_ends hs _ _) ?_
  rintro _ s₁ ⟨rfl, h₁⟩
  refine ⟨?_, h₁⟩
  rw [ht]
  show (if P.installType = .sysInstaller then _ else _) = true
  split <;> simp [first, hstatus]

/-- An installation that was cut short is rolled back to the end of the download and ordered again. -/
theorem handleBootInstallOnStatusProcess_ends (free : UInt64) (hs : s.stopped = false) {t : FirmwareTask}
    {l : List FirmwareTask} (ht : s.tasks = t :: l) (hstep : (s.flows n.flow).nextStep = .init) (f : Nat) {task : FirmwareTask}
    (htask : task.taskId = t.taskId) :
    (FirmwareManager.handleBootInstallOnStatusProcess P f task).Ends (n.alone (.space free)) s fun _ s' =>
      s'.stopped = false ∧ Settled n s' := by
  -- the row that is read first, from here on
  let t' : FirmwareTask := { t with status := .downloadSuccess, progress := 100 }
  let rolled (s' : State) : Prop :=
    s'.stopped = false ∧ (∃ l', s'.tasks = t' :: l') ∧ (s'.flows n.flow).nextStep = .init
  have hrow : rolled (Op.after n s (.updateTasks .restoreUpdate task.taskId (.progress .downloadSuccess 100)) ()) := by
    refine ⟨hs, ⟨l.map fun r => if r.taskId = task.taskId then TaskUpdate.apply r (.progress .downloadSuccess 100) else r, ?_⟩,
      hstep⟩
    show s.tasks.map _ = _
    rw [ht, List.map_cons, if_pos htask.symm]
    rfl
  refine ends_op hs rfl ?_
  generalize Op.after n s (.updateTasks .restoreUpdate task.taskId (.progress .downloadSuccess 100)) () = s₁ at hrow
  have hloop (components : List FirmwareComponent) {s' : State} (h : rolled s') : (components.forM fun component =>
      if component.status = UpgradeStatus.installing then
        FirmwareComponentOperator.updateProgressByUrl .restoreUpdate component.url .downloadSuccess 100
      else pure ()).Ends (n.alone (.space free)) s' fun _ => rolled := by
    refine Prog.Ends.forM h ?_
    intro c _ s' h
    split
    · exact ends_op h.1 rfl h
    · exact h
  refine ends_via hrow.1 rfl s₁.bare rfl ?_
  intro s₂ h₂
  have hrow₂ : rolled s₂ := by
    obtain ⟨hs₁, ⟨l', hl'⟩, hn⟩ := hrow
    have hk : Kept n s₁ s₂ := kept_of_bare h₂
    exact ⟨hk.stopped.trans hs₁, ⟨l', hk.tasks.trans hl'⟩, hk.nextStep.trans hn⟩
  refine Prog.Ends.seq (hloop _ hrow₂) ?_
  rintro _ s₃ ⟨hs₃, ⟨l', hl'⟩, hn⟩
  refine Prog.Ends.seq (canInstall_ends hs₃ hl' rfl) ?_
  rintro _ s₄ ⟨rfl, h₄⟩
  have hk : Kept n s₃ s₄ := kept_of_bare h₄
  exact executeInstall_ends free (hk.stopped.trans hs₃) (hk.tasks.trans hl') rfl (hk.nextStep.trans hn) f _

/-- What `RestoreUpdate` makes of the task that is read first. -/
theorem restoreUpdate_ends (free : UInt64) (hs : s.stopped = false) {t : FirmwareTask} {l : List FirmwareTask}
    (ht : s.tasks = t :: l) (hstep : (s.flows n.flow).nextStep = .init) (f : Nat) :
    (FirmwareManager.restoreUpdate P f).Ends (n.alone (.space free)) s fun _ s' => s'.stopped = false ∧
      if t.status = .downloading ∨ t.status = .downloadPause ∨ t.status = .installing ∨ t.status = .installSuccess then
        Settled n s'
      else s'.bare = s.bare := by
  refine Prog.Ends.seq (queryTask_ends hs _ _) ?_
  rintro _ s₁ ⟨rfl, h₁⟩
  have hk : Kept n s s₁ := kept_of_bare h₁
  have hs₁ : s₁.stopped = false := hk.stopped.trans hs
  rw [ht]
  dsimp only [first]
  have hclear : FirmwareUpdateHelper.clearFirmwareInfo.Ends (n.alone (.space free)) s₁ fun _ s' =>
      s'.stopped = false ∧ Settled n s' := by
    refine (clearFirmwareInfo_ends hs₁).mono ?_
    intro _ s' h
    have he : Emptied n s₁ s' := emptied_of_bare h
    exact ⟨he.stopped.trans hs₁, .inl ⟨he.tasks, he.components⟩⟩
  have hinstall {task : FirmwareTask} (htask : task.taskId = t.taskId) :
      (FirmwareManager.handleBootInstallOnStatusProcess P f task).Ends (n.alone (.space free)) s₁ fun _ s' =>
        s'.stopped = false ∧ Settled n s' :=
    handleBootInstallOnStatusProcess_ends free hs₁ (hk.tasks.trans ht) (hk.nextStep.trans hstep) f htask
  cases hstatus : t.status with
  | downloading | downloadPause => simpa using hclear
  | installing | installSuccess =>
    refine (hinstall rfl).mono ?_
    intro _ s' h
    simpa using h
  | _ => exact ⟨hs₁, by simpa using h₁⟩

end AloneAux

end UpdateEngine
