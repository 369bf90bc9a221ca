import UpdateEngine.Lemmas.AloneAux

/-!
# A check from its answer to its end

What becomes of the tables, the packages, the clients and the caller when the executor of a check hands its outcome over, as long as
no other thread is at work.
-/

namespace UpdateEngine

open Concurrent KindsAux AloneAux

/-! ## What can come of a check -/

/-- A check that failed (`IsCheckFailed`). -/
def CheckStatus.isFailed (status : CheckStatus) : Bool :=
  status = .checkFail || status = .fileListRequestFail || status = .changelogRequestFail

/-- The first row with the version id of a component has its size and its `verifyInfo`. -/
def FirmwareComponent.isIn (rows : List FirmwareComponent) (c : FirmwareComponent) : Bool :=
  (rows.find? fun r => r.versionId = c.versionId).any fun r => r.size = c.size && r.verifyInfo = c.verifyInfo

/-- A list is judged the stored version: it has as many components as there are rows, and each is in them. -/
def isStoredVersion (rows l : List FirmwareComponent) : Bool := rows.length = l.length && l.all (·.isIn rows)

/-- A row up to its URL. -/
def FirmwareComponent.withoutUrl (c : FirmwareComponent) : FirmwareComponent := { c with url := "" }

/-- An event about a version, with nothing to tell but its id. -/
def taskEvent (eventId : EventId) (status : UpgradeStatus) (taskId : String) : EventInfo :=
  ⟨eventId, { versionDigest := taskId, status := status, errorMessages := [{}], versionComponents := [] }⟩

/-- What the caller of a check is told of the component rows. -/
def checkResultOf (P : Platform) (rows : List FirmwareComponent) : CheckResult :=
  if rows.isEmpty then {}
  else {
    isExistNewVersion := true
    versionDigest := FirmwareUpdateHelper.buildTaskId P rows
    versionComponents := FirmwareUpdateHelper.buildNewVersionInfo P rows }

/-- The four things that can come of a check. -/
inductive CheckOutcome where
  | ignored | stored | cancelled | received
  deriving DecidableEq

namespace CheckOutcome

/-- The outcome of a check is not processed: it failed, or the task is undone. -/
def Refused (status : CheckStatus) (s : State) : Prop := status.isFailed = true ∨ s.status.any UpgradeStatus.isUndone = true

/-- What comes of a check, from the state before to the state after. -/
def Happens (P : Platform) (status : CheckStatus) (l : List FirmwareComponent) (s s' : State) : CheckOutcome → Prop
  | ignored => Refused status s ∧ s'.tasks = s.tasks ∧ s'.components = s.components ∧ s'.files = s.files ∧ s'.events = s.events
  | stored =>
    ¬ Refused status s ∧ l ≠ [] ∧ isStoredVersion s.components l = true ∧ s'.tasks = s.tasks ∧
      s'.components.map FirmwareComponent.withoutUrl = s.components.map FirmwareComponent.withoutUrl ∧ s'.files = s.files ∧
      s'.events = s.events
  | cancelled =>
    ¬ Refused status s ∧ l = [] ∧ s'.tasks = [] ∧ s'.components = [] ∧ s'.files = withoutDownloadFiles s.files ∧
      s'.events = s.events ++ (s.tasks.head?.map fun t => taskEvent .taskCancel .init t.taskId).toList
  | received =>
    ¬ Refused status s ∧ l ≠ [] ∧ isStoredVersion s.components l = false ∧
      ∃ t, s'.tasks = [t] ∧ t = FirmwareCheckDataProcessor.newTask P s'.components ∧
        s'.components = l.map FirmwareCheckDataProcessor.buildComponentSPath ∧ s'.files = withoutDownloadFiles s.files ∧
        s'.events = s.events ++ taskEvent .taskReceive .checkVersionSuccess t.taskId ::
          (if s.autoDownloadSwitch then [] else [taskEvent .downloadWait .checkVersionSuccess t.taskId])

/-- One thing comes of a check at most. -/
theorem unique {P : Platform} {status : CheckStatus} {l : List FirmwareComponent} {s s' : State} {k k' : CheckOutcome}
    (h : k.Happens P status l s s') (h' : k'.Happens P status l s s') : k = k' := by
  cases k with
  | ignored =>
    cases k' with
    | ignored => rfl
    | stored | cancelled | received => exact absurd h.1 h'.1
  | stored =>
    cases k' with
    | ignored => exact absurd h'.1 h.1
    | stored => rfl
    | cancelled => exact absurd h'.2.1 h.2.1
    | received =>
      have hsame := h.2.2.1
      rw [h'.2.2.1] at hsame
      cases hsame
  | cancelled =>
    cases k' with
    | ignored => exact absurd h'.1 h.1
    | cancelled => rfl
    | stored | received => exact absurd h.2.1 h'.2.1
  | received =>
    cases k' with
    | ignored => exact absurd h'.1 h.1
    | stored =>
      have hsame := h'.2.2.1
      rw [h.2.2.1] at hsame
      cases hsame
    | cancelled => exact absurd h'.2.1 h.2.1
    | received => rfl

end CheckOutcome

namespace CheckFlowAux

variable {P : Platform} {n : Thread} {a : Answer} {s : State} {l : List FirmwareComponent}

/-! ## The data processor -/

theorem hasUndoneTask_ends (hs : s.stopped = false) :
    FirmwareCheckDataProcessor.hasUndoneTask.Ends (n.alone a) s fun b s' =>
      b = s.status.any UpgradeStatus.isUndone ∧ s'.bare = s.bare := by
  refine Prog.Ends.seq (queryTask_ends hs _ _) ?_
  rintro _ s' ⟨rfl, h⟩
  refine ⟨?_, h⟩
  cases ht : s.tasks with
  | nil => simp [State.status, ht, first]
  | cons t l => simp [State.status, ht, first]

/-- A list is compared with the rows as they are. -/
theorem isVersionSameWithDb_ends (hs : s.stopped = false) :
    (FirmwareCheckDataProcessor.isVersionSameWithDb l).Ends (n.alone a) s fun b s' =>
      b = isStoredVersion s.components l ∧ s'.bare = s.bare := by
  have hall (l' : List FirmwareComponent) {s' : State} (h : s'.bare = s.bare) : Prog.Ends (n.alone a)
      (l'.allM fun serverResult => do
        let dbResult ← FirmwareComponentOperator.queryByVersionId .isVersionSameWithDb serverResult.versionId
        return dbResult.any fun r => r.size = serverResult.size && r.verifyInfo = serverResult.verifyInfo) s'
        fun b s'' => b = l'.all (·.isIn s.components) ∧ s''.bare = s.bare := by
    induction l' generalizing s' with
    | nil => exact ⟨rfl, h⟩
    | cons c l' ih =>
      rw [List.allM]
      refine Prog.Ends.seq (R := fun b s'' => b = c.isIn s.components ∧ s''.bare = s.bare) ?_ ?_
      · have hrows : s'.components = s.components := (components_eq h :)
        refine ends_op (not_stopped h hs) rfl ⟨?_, h⟩
        rw [← hrows]
        rfl
      · rintro b s'' ⟨hb, h'⟩
        rw [List.all_cons, ← hb]
        cases b with
        | false => exact ⟨rfl, h'⟩
        | true => exact ih h'
  refine ends_via hs rfl s.bare rfl ?_
  intro s₁ h₁
  split
  · rename_i hne
    refine ⟨?_, h₁⟩
    simp [isStoredVersion, hne]
  · rename_i heq
    refine (hall l h₁).mono ?_
    rintro b s' ⟨rfl, h⟩
    refine ⟨?_, h⟩
    simp only [ne_eq, Decidable.not_not] at heq
    simp [isStoredVersion, heq]

/-- What a new URL leaves of the rows. -/
theorem withoutUrl_update (rows : List FirmwareComponent) (versionId url : String) :
    (rows.map fun r => ComponentUpdate.apply r (.urlByVersionId versionId url)).map FirmwareComponent.withoutUrl =
      rows.map FirmwareComponent.withoutUrl := by
  rw [List.map_map]
  refine List.map_congr_left fun r _ => ?_
  show (ComponentUpdate.apply r (.urlByVersionId versionId url)).withoutUrl = r.withoutUrl
  unfold ComponentUpdate.apply
  dsimp only
  split <;> rfl

/-- The state with other component rows. -/
def withRows (s : State) (rows : List FirmwareComponent) : State := { s with components := rows }

/-- The server's URLs are written, at most. -/
theorem updateFirmwareComponent_ends (hs : s.stopped = false) :
    (FirmwareCheckDataProcessor.updateFirmwareComponent l).Ends (n.alone a) s fun _ s' => ∃ rows,
      s'.bare = withRows s.bare rows ∧ rows.map FirmwareComponent.withoutUrl = s.components.map FirmwareComponent.withoutUrl := by
  let kept (s' : State) : Prop := ∃ rows,
    s'.bare = withRows s.bare rows ∧ rows.map FirmwareComponent.withoutUrl = s.components.map FirmwareComponent.withoutUrl
  refine Prog.Ends.seq (queryTask_ends hs _ _) ?_
  rintro t s₁ ⟨-, h₁⟩
  have hk : kept s₁ := ⟨s.components, h₁, rfl⟩
  split
  · exact hk
  · split
    · exact hk
    · refine Prog.Ends.forM (I := kept) hk ?_
      rintro c - s' ⟨rows, h, hrows⟩
      have hcomponents : s'.components = rows := (components_eq h :)
      refine ends_op (not_stopped h hs) rfl ⟨rows.map fun r => ComponentUpdate.apply r (.urlByVersionId c.versionId c.url), ?_, ?_⟩
      · show withRows s'.bare (s'.components.map _) = _
        rw [h, hcomponents]
        rfl
      · rw [withoutUrl_update, hrows]

/-- The state with other task rows. -/
def withTasks (s : State) (tasks : List FirmwareTask) : State := { s with tasks := tasks }

/-- The state with one task and its rows added. -/
def filed (s : State) (rows : List FirmwareComponent) (t : FirmwareTask) : State :=
  withTasks (withRows s (s.components ++ rows)) (s.tasks ++ [t])

/-- The stored version is found again. -/
theorem handleNewVersion_ends_stored (hs : s.stopped = false) (hl : isStoredVersion s.components l = true) :
    (FirmwareCheckDataProcessor.handleNewVersion P l).Ends (n.alone a) s fun _ s' => ∃ rows,
      s'.bare = withRows (s.bare.setFlow n.flow (.isSameWithDb true)) rows ∧
        rows.map FirmwareComponent.withoutUrl = s.components.map FirmwareComponent.withoutUrl := by
  refine Prog.Ends.seq (isVersionSameWithDb_ends hs) ?_
  rintro _ s₁ ⟨rfl, h₁⟩
  rw [hl]
  have hs₁ : s₁.stopped = false := not_stopped h₁ hs
  refine ends_via hs₁ rfl (s₁.bare.setFlow n.flow (.isSameWithDb true)) rfl ?_
  intro s₂ h₂
  rw [h₁] at h₂
  have hcomponents : s₂.components = s.components := (components_eq h₂ :)
  have hs₂ : s₂.stopped = false := not_stopped h₂ hs
  refine (updateFirmwareComponent_ends hs₂).mono ?_
  rintro _ s' ⟨rows, h, hrows⟩
  rw [h₂] at h
  rw [hcomponents] at hrows
  exact ⟨rows, h, hrows⟩

/-- Another version takes the place of the stored one. -/
theorem handleNewVersion_ends_new (hs : s.stopped = false) (hl : isStoredVersion s.components l = false) :
    (FirmwareCheckDataProcessor.handleNewVersion P l).Ends (n.alone a) s fun _ s' =>
      s'.bare = filed (((s.bare.setFlow n.flow (.isSameWithDb false)).cleared).setFlow n.flow
          (.componentList (l.map FirmwareCheckDataProcessor.buildComponentSPath)))
        (l.map FirmwareCheckDataProcessor.buildComponentSPath)
        (FirmwareCheckDataProcessor.newTask P (l.map FirmwareCheckDataProcessor.buildComponentSPath)) := by
  refine Prog.Ends.seq (isVersionSameWithDb_ends hs) ?_
  rintro _ s₁ ⟨rfl, h₁⟩
  rw [hl]
  have hs₁ : s₁.stopped = false := not_stopped h₁ hs
  refine ends_via hs₁ rfl (s₁.bare.setFlow n.flow (.isSameWithDb false)) rfl ?_
  intro s₂ h₂
  rw [h₁] at h₂
  have hs₂ : s₂.stopped = false := not_stopped h₂ hs
  show Prog.Ends _ (FirmwareUpdateHelper.clearFirmwareInfo >>= _) s₂ _
  refine Prog.Ends.seq (clearFirmwareInfo_ends hs₂) ?_
  intro _ s₃ h₃
  rw [h₂] at h₃
  have hs₃ : s₃.stopped = false := not_stopped h₃ hs
  refine ends_via hs₃ rfl (s₃.bare.setFlow n.flow (.componentList (l.map FirmwareCheckDataProcessor.buildComponentSPath))) rfl ?_
  intro s₄ h₄
  rw [h₃] at h₄
  have hs₄ : s₄.stopped = false := not_stopped h₄ hs
  refine ends_via hs₄ rfl (withRows s₄.bare (s₄.components ++ l.map FirmwareCheckDataProcessor.buildComponentSPath)) rfl ?_
  intro s₅ h₅
  have hcomponents : s₄.components = [] := (components_eq h₄ :)
  rw [h₄, hcomponents] at h₅
  have hs₅ : s₅.stopped = false := not_stopped h₅ hs
  refine ends_op hs₅ rfl ?_
  show withTasks s₅.bare (s₅.bare.tasks ++ [_]) = _
  rw [h₅]
  rfl

/-- There is no version any more. -/
theorem handleNoNewVersion_ends (hs : s.stopped = false) :
    FirmwareCheckDataProcessor.handleNoNewVersion.Ends (n.alone a) s fun _ s' =>
      s'.bare = { s.bare.cleared with
        events := s.events ++ (s.tasks.head?.map fun t => taskEvent .taskCancel .init t.taskId).toList } := by
  refine Prog.Ends.seq (queryTask_ends hs _ _) ?_
  rintro _ s₁ ⟨rfl, h₁⟩
  have hs₁ : s₁.stopped = false := not_stopped h₁ hs
  cases ht : s.tasks with
  | nil =>
    refine (clearFirmwareInfo_ends hs₁).mono ?_
    intro _ s' h
    rw [h, h₁]
    simp [State.cleared, State.bare]
  | cons t tasks =>
    show Prog.Ends _ (notifyEvent t.taskId .taskCancel .init {} >>= _) s₁ _
    refine Prog.Ends.seq (notifyEvent_ends hs₁ ..) ?_
    intro _ s₂ h₂
    refine (clearFirmwareInfo_ends (not_stopped h₂ hs₁)).mono ?_
    intro _ s' h
    rw [h, h₂, h₁]
    rfl

/-! ## The mode -/

/-- A failed check. -/
theorem isCheckFailed_eq {w : Flow} (status : CheckStatus) (hw : w.checkStatus = status) :
    FirmwareCheckDataProcessor.isCheckFailed w = status.isFailed := by
  unfold FirmwareCheckDataProcessor.isCheckFailed CheckStatus.isFailed
  rw [hw]

/-- The mode sends the events of a new version only. -/
theorem getStepAfterCheck_ends_none (hs : s.stopped = false)
    (hw : (s.flows n.flow).isSameWithDb = true ∨ (s.flows n.flow).checkStatus.isFailed = true) :
    FirmwareManualCheckMode.getStepAfterCheck.Ends (n.alone a) s fun step s' => step = .complete ∧ s'.bare = s.bare := by
  refine ends_call hs rfl ?_
  rw [if_pos]
  · exact ⟨rfl, rfl⟩
  · rw [isCheckFailed_eq _ rfl]
    rcases hw with h | h <;> simp [h]

theorem getStepAfterCheck_ends_new (hs : s.stopped = false) (hsame : (s.flows n.flow).isSameWithDb = false)
    (hfailed : (s.flows n.flow).checkStatus.isFailed = false) (hlist : (s.flows n.flow).componentList ≠ []) {t : FirmwareTask}
    (ht : s.tasks = [t]) (hstatus : t.status = .checkVersionSuccess) :
    FirmwareManualCheckMode.getStepAfterCheck.Ends (n.alone a) s fun step s' => step = .complete ∧
      s'.bare = { s.bare with
        events := s.events ++ taskEvent .taskReceive .checkVersionSuccess t.taskId ::
          (if s.autoDownloadSwitch then [] else [taskEvent .downloadWait .checkVersionSuccess t.taskId]) } := by
  refine ends_via hs rfl s.bare rfl ?_
  intro s₀ h₀
  have hs₀ : s₀.stopped = false := not_stopped h₀ hs
  have ht₀ : s₀.tasks = [t] := (tasks_eq h₀ :).trans ht
  rw [if_neg (by simp [isCheckFailed_eq _ rfl, hsame, hfailed, hlist])]
  refine Prog.Ends.seq (queryTask_ends hs₀ _ _) ?_
  rintro _ s₁ ⟨rfl, h₁⟩
  rw [h₀] at h₁
  have hs₁ : s₁.stopped = false := not_stopped h₁ hs
  rw [ht₀]
  show Prog.Ends _ (if t.status = .checkVersionSuccess then _ else _) s₁ _
  rw [if_pos hstatus]
  refine Prog.Ends.seq (notifyEvent_ends hs₁ ..) ?_
  intro _ s₂ h₂
  have hs₂ : s₂.stopped = false := not_stopped h₂ hs₁
  refine ends_via hs₂ rfl s₂.bare rfl ?_
  intro s₃ h₃
  have hs₃ : s₃.stopped = false := not_stopped h₃ hs₂
  have hswitch : s₂.autoDownloadSwitch = s.autoDownloadSwitch := by
    have := congrArg State.autoDownloadSwitch h₂
    exact this.trans (congrArg State.autoDownloadSwitch h₁ :)
  rw [hswitch]
  cases s.autoDownloadSwitch with
  | true =>
    refine ⟨rfl, ?_⟩
    rw [h₃, h₂, h₁]
    rfl
  | false =>
    show Prog.Ends _ (notifyEvent t.taskId .downloadWait .checkVersionSuccess {} >>= _) s₃ _
    refine Prog.Ends.seq (notifyEvent_ends hs₃ ..) ?_
    intro _ s₄ h₄
    refine ⟨rfl, ?_⟩
    rw [h₄, h₃, h₂, h₁]
    simp only [State.told, State.bare, List.append_assoc, List.cons_append, List.nil_append]
    rfl

/-- The state once the caller has its result. -/
def answered (s : State) (e : BusinessError) (r : CheckResult) : State :=
  { s with checkVersionDone := s.checkVersionDone ++ [(e, r)] }

/-- The caller is told what the tables hold. -/
theorem handleComplete_ends (hs : s.stopped = false) :
    (FirmwareManualCheckMode.handleComplete P).Ends (n.alone a) s fun _ s' =>
      s'.bare = answered s.bare (s.flows n.flow).businessError
        (if (s.flows n.flow).checkStatus.isFailed then {} else checkResultOf P s.components) := by
  refine ends_via hs rfl s.bare rfl ?_
  intro s₁ h₁
  have hs₁ : s₁.stopped = false := not_stopped h₁ hs
  have hbuild : (FirmwareCheckDataProcessor.buildCheckResult P (s.flows n.flow)).Ends (n.alone a) s₁ fun r s' =>
      (r = if (s.flows n.flow).checkStatus.isFailed then {} else checkResultOf P s.components) ∧ s'.bare = s.bare := by
    unfold FirmwareCheckDataProcessor.buildCheckResult
    rw [isCheckFailed_eq _ rfl]
    split
    · exact ⟨rfl, h₁⟩
    · have hcomponents : s₁.components = s.components := (components_eq h₁ :)
      refine ends_op hs₁ rfl ?_
      unfold checkResultOf
      rw [hcomponents]
      show Prog.Ends _ (if s.components.isEmpty = true then _ else _) _ _
      split
      · exact ⟨rfl, h₁⟩
      · exact ⟨rfl, h₁⟩
  refine Prog.Ends.seq hbuild ?_
  rintro _ s₂ ⟨rfl, h₂⟩
  refine ends_op (not_stopped h₂ hs) rfl ?_
  show answered s₂.bare _ _ = _
  rw [h₂]

/-- A flow that comes to the end of its check. -/
theorem execute_ends (hs : s.stopped = false) (hstep : (s.flows n.flow).nextStep = .checkStep) {t : State}
    (ht : t.stopped = false) (h : ∀ s₁, s₁.bare = s.bare →
      FirmwareManualCheckMode.getStepAfterCheck.Ends (n.alone a) s₁ fun step s' => step = .complete ∧ s'.bare = t) (f : Nat) :
    (FirmwareFlowManager.execute P f .manualCheck).Ends (n.alone a) s fun _ s' =>
      s'.bare = answered (t.setFlow n.flow (.nextStep .complete)) (t.flows n.flow).businessError
        (if (t.flows n.flow).checkStatus.isFailed then {} else checkResultOf P t.components) := by
  refine ends_via hs (congrArg some hstep) s.bare rfl ?_
  intro s₁ h₁
  refine Prog.Ends.seq (h s₁ h₁) ?_
  rintro _ s₂ ⟨rfl, h₂⟩
  refine ends_via (not_stopped h₂ ht) rfl (t.setFlow n.flow (.nextStep .complete)) ?_ ?_
  · show s₂.bare.setFlow n.flow (.nextStep .complete) = _
    rw [h₂]
  · intro s₃ h₃
    rw [if_pos rfl]
    refine ends_via (not_stopped h₃ ht) rfl s₃.bare rfl ?_
    intro s₄ h₄
    rw [h₃] at h₄
    refine (handleComplete_ends (not_stopped h₄ ht)).mono ?_
    intro _ s' h'
    have hcomponents : s₄.components = t.components := (components_eq h₄ :)
    have hflow : s₄.flows n.flow = FlowUpdate.apply (t.flows n.flow) (.nextStep .complete) := by
      have := congrArg (fun u : State => u.flows n.flow) h₄
      exact this.trans (Function.update_self ..)
    rw [h', h₄, hcomponents, hflow]
    rfl

/-- The flow of a check that waits for its outcome. -/
def Waiting (n : Thread) (s : State) : Prop := s.flows n.flow = { nextStep := .checkStep }

/-- The state in which an outcome is processed. -/
abbrev handed (n : Thread) (status : CheckStatus) (l : List FirmwareComponent) (s : State) : State :=
  s.setFlow n.flow (.checkResult status l)

theorem handed_flow (hw : Waiting n s) (status : CheckStatus) :
    (handed n status l s).flows n.flow = { nextStep := .checkStep, checkStatus := status, componentList := l } := by
  show Function.update _ _ _ _ = _
  rw [Function.update_self, hw]
  rfl

/-- A failed check, or one that finds an undone task, is left alone. -/
theorem setCheckResult_ends_refused (hs : s.stopped = false) (hw : Waiting n s) {status : CheckStatus}
    (hr : CheckOutcome.Refused status s) :
    (FirmwareCheckDataProcessor.setCheckResult P status l).Ends (n.alone a) s fun _ s' => s'.bare = handed n status l s.bare := by
  refine ends_via hs rfl (handed n status l s.bare) rfl ?_
  intro s₁ h₁
  have hs₁ : s₁.stopped = false := not_stopped h₁ hs
  have hflow : s₁.flows n.flow = { nextStep := .checkStep, checkStatus := status, componentList := l } :=
    (congrArg (fun u : State => u.flows n.flow) h₁ :).trans (handed_flow (s := s.bare) hw status)
  refine ends_via hs₁ rfl s₁.bare rfl ?_
  intro s₂ h₂
  rw [h₁] at h₂
  have hs₂ : s₂.stopped = false := not_stopped h₂ hs
  rw [hflow, isCheckFailed_eq status rfl]
  split
  · exact h₂
  · rename_i hfailed
    have hundone : s.status.any UpgradeStatus.isUndone = true := hr.resolve_left hfailed
    refine Prog.Ends.seq (hasUndoneTask_ends hs₂) ?_
    rintro _ s₃ ⟨rfl, h₃⟩
    have hstatus : s₂.status = s.status := by
      unfold State.status
      rw [(tasks_eq h₂ :)]
      rfl
    rw [hstatus, hundone]
    exact h₃.trans h₂

/-- Any other one is processed. -/
theorem setCheckResult_ends (hs : s.stopped = false) (hw : Waiting n s) {status : CheckStatus}
    (hr : ¬ CheckOutcome.Refused status s) {Q : State → Prop}
    (h : ∀ s₁, s₁.bare = handed n status l s.bare → Prog.Ends (n.alone a)
      (if l.isEmpty then FirmwareCheckDataProcessor.handleNoNewVersion else FirmwareCheckDataProcessor.handleNewVersion P l) s₁
        fun _ s' => s'.stopped = false ∧ Q s'.bare) :
    (FirmwareCheckDataProcessor.setCheckResult P status l).Ends (n.alone a) s fun _ s' => Q s'.bare := by
  obtain ⟨hfailed, hundone⟩ := not_or.mp hr
  refine ends_via hs rfl (handed n status l s.bare) rfl ?_
  intro s₁ h₁
  have hs₁ : s₁.stopped = false := not_stopped h₁ hs
  have hflow : s₁.flows n.flow = { nextStep := .checkStep, checkStatus := status, componentList := l } :=
    (congrArg (fun u : State => u.flows n.flow) h₁ :).trans (handed_flow (s := s.bare) hw status)
  refine ends_via hs₁ rfl s₁.bare rfl ?_
  intro s₂ h₂
  rw [h₁] at h₂
  have hs₂ : s₂.stopped = false := not_stopped h₂ hs
  rw [hflow, isCheckFailed_eq status rfl, if_neg hfailed]
  refine Prog.Ends.seq (hasUndoneTask_ends hs₂) ?_
  rintro _ s₃ ⟨rfl, h₃⟩
  have hstatus : s₂.status = s.status := by
    unfold State.status
    rw [(tasks_eq h₂ :)]
    rfl
  rw [hstatus, if_neg hundone]
  have hmark (s₄ : State) (h₄ : s₄.stopped = false ∧ Q s₄.bare) :
      (call (.enter .checkResultHandled)).Ends (n.alone a) s₄ fun _ s' => Q s'.bare := ends_op h₄.1 rfl h₄.2
  have h := h s₃ (h₃.trans h₂)
  dsimp only
  split at h
  · rename_i hl
    rw [if_pos hl]
    exact Prog.Ends.seq h fun _ s₄ h₄ => hmark s₄ h₄
  · rename_i hl
    rw [if_neg hl]
    exact Prog.Ends.seq h fun _ s₄ h₄ => hmark s₄ h₄

/-- What is to be shown of the end of a check. -/
def Delivered (P : Platform) (status : CheckStatus) (l : List FirmwareComponent) (s s' : State) : Prop :=
  (∃ k : CheckOutcome, k.Happens P status l s s') ∧
    (status.isFailed = false → s'.checkVersionDone = s.checkVersionDone ++ [(({} : BusinessError), checkResultOf P s'.components)])

/-- The fields of a state that is known up to what is only noted. -/
theorem fields_eq {s' t : State} (h : s'.bare = t) :
    s'.tasks = t.tasks ∧ s'.components = t.components ∧ s'.files = t.files ∧ s'.events = t.events ∧
      s'.checkVersionDone = t.checkVersionDone := by
  rw [← h]
  exact ⟨rfl, rfl, rfl, rfl, rfl⟩

/-- The flow of a check once its version was found to be the stored one, or not. -/
theorem compared_flow (hw : Waiting n s) (status : CheckStatus) (same : Bool) :
    ((handed n status l s).setFlow n.flow (.isSameWithDb same)).flows n.flow =
      { nextStep := .checkStep, checkStatus := status, componentList := l, isSameWithDb := same } := by
  show Function.update _ _ _ _ = _
  rw [Function.update_self, handed_flow hw]
  rfl

theorem flow_eq {s' t : State} (h : s'.bare = t) : s'.flows n.flow = t.flows n.flow := by
  rw [← h]
  rfl

variable {status : CheckStatus} (f : Nat)

/-- The caller is answered with what the tables hold, and of the rest only the events are the mode's. -/
structure Answered (P : Platform) (status : CheckStatus) (s s' : State) (events : List EventInfo) : Prop where
  tasks : s'.tasks = s.tasks
  components : s'.components = s.components
  files : s'.files = s.files
  events : s'.events = events
  done : s'.checkVersionDone =
    s.checkVersionDone ++ [(({} : BusinessError), if status.isFailed then {} else checkResultOf P s.components)]

theorem Answered.delivered {s' : State} {events : List EventInfo} (h : Answered P status s s' events)
    (hfailed : status.isFailed = false) {l : List (BusinessError × CheckResult)} (hl : s.checkVersionDone = l) :
    s'.checkVersionDone = l ++ [(({} : BusinessError), checkResultOf P s'.components)] := by
  rw [h.done, h.components, hl, hfailed]
  rfl

/-- A check without a new version ends without an event of the mode. -/
theorem execute_ends_none (hs : s.stopped = false)
    (hflow : s.flows n.flow = { nextStep := .checkStep, checkStatus := status, componentList := l }) :
    (FirmwareFlowManager.execute P f .manualCheck).Ends (n.alone a) s fun _ s' => Answered P status s s' s.events := by
  have hstep : (s.flows n.flow).nextStep = .checkStep := by rw [hflow]
  refine (execute_ends (t := s.bare) hs hstep hs ?_ f).mono ?_
  · intro s₁ h₁
    have hsame : (s₁.flows n.flow).isSameWithDb = true := by rw [(flow_eq h₁ :), show s.bare.flows n.flow = _ from hflow]
    refine (getStepAfterCheck_ends_none (not_stopped h₁ hs) (.inl hsame)).mono ?_
    rintro step s' ⟨hstep, h⟩
    exact ⟨hstep, h.trans h₁⟩
  · intro _ s' h
    obtain ⟨ht, hc, hf, he, hd⟩ := fields_eq h
    refine ⟨ht, hc, hf, he, ?_⟩
    rw [hd, show s.bare.flows n.flow = _ from hflow]
    rfl

theorem ends_ignored (hs : s.stopped = false) (hw : Waiting n s) (hr : CheckOutcome.Refused status s) :
    (FirmwareFlowManager.onCheckCallback P f status l).Ends (n.alone a) s fun _ s' => Delivered P status l s s' := by
  refine Prog.Ends.seq (setCheckResult_ends_refused hs hw hr) ?_
  intro _ s₁ h₁
  have hflow := (flow_eq h₁ :).trans (handed_flow (s := s.bare) hw status)
  refine (execute_ends_none f (not_stopped h₁ hs) hflow).mono ?_
  intro _ s' h
  obtain ⟨ht₁, hc₁, hf₁, he₁, hd₁⟩ := fields_eq h₁
  refine ⟨⟨.ignored, hr, h.tasks.trans ht₁, h.components.trans hc₁, h.files.trans hf₁, h.events.trans he₁⟩, ?_⟩
  intro hfailed
  exact h.delivered hfailed hd₁

theorem ends_stored (hs : s.stopped = false) (hw : Waiting n s) (hr : ¬ CheckOutcome.Refused status s) (hl : l ≠ [])
    (hstored : isStoredVersion s.components l = true) :
    (FirmwareFlowManager.onCheckCallback P f status l).Ends (n.alone a) s fun _ s' => Delivered P status l s s' := by
  refine Prog.Ends.seq (setCheckResult_ends (Q := fun t => ∃ rows,
    t = withRows ((handed n status l s.bare).setFlow n.flow (.isSameWithDb true)) rows ∧
      rows.map FirmwareComponent.withoutUrl = s.components.map FirmwareComponent.withoutUrl) hs hw hr ?_) ?_
  · intro s₁ h₁
    have hcomponents : s₁.components = s.components := (components_eq h₁ :)
    rw [if_neg (by simpa using hl)]
    refine (handleNewVersion_ends_stored (not_stopped h₁ hs) (by rw [hcomponents]; exact hstored)).mono ?_
    rintro _ s' ⟨rows, h, hrows⟩
    rw [h₁] at h
    rw [hcomponents] at hrows
    exact ⟨not_stopped h hs, rows, h, hrows⟩
  rintro _ s₁ ⟨rows, h₁, hrows⟩
  have hflow := (flow_eq h₁ :).trans (compared_flow (s := s.bare) hw status true)
  refine (execute_ends_none f (not_stopped h₁ hs) hflow).mono ?_
  intro _ s' h
  obtain ⟨ht₁, hc₁, hf₁, he₁, hd₁⟩ := fields_eq h₁
  refine ⟨⟨.stored, hr, hl, hstored, h.tasks.trans ht₁, ?_, h.files.trans hf₁, h.events.trans he₁⟩, ?_⟩
  · rw [h.components, hc₁]
    exact hrows
  · intro hfailed
    exact h.delivered hfailed hd₁

theorem ends_cancelled (hs : s.stopped = false) (hw : Waiting n s) (hr : ¬ CheckOutcome.Refused status s) :
    (FirmwareFlowManager.onCheckCallback P f status []).Ends (n.alone a) s fun _ s' => Delivered P status [] s s' := by
  refine Prog.Ends.seq (setCheckResult_ends (Q := fun t => t = { (handed n status [] s.bare).cleared with
    events := s.events ++ (s.tasks.head?.map fun t => taskEvent .taskCancel .init t.taskId).toList }) hs hw hr ?_) ?_
  · intro s₁ h₁
    obtain ⟨ht₁, -, -, he₁, -⟩ := fields_eq h₁
    rw [if_pos (show ([] : List FirmwareComponent).isEmpty = true from rfl)]
    refine (handleNoNewVersion_ends (not_stopped h₁ hs)).mono ?_
    intro _ s' h
    rw [h₁, ht₁, he₁] at h
    exact ⟨not_stopped h hs, h⟩
  intro _ s₁ h₁
  have hflow := (flow_eq h₁ :).trans (handed_flow (s := s.bare) hw status)
  refine (execute_ends_none f (not_stopped h₁ hs) hflow).mono ?_
  intro _ s' h
  obtain ⟨ht₁, hc₁, hf₁, he₁, hd₁⟩ := fields_eq h₁
  refine ⟨⟨.cancelled, hr, rfl, h.tasks.trans ht₁, h.components.trans hc₁, h.files.trans hf₁, h.events.trans he₁⟩, ?_⟩
  intro hfailed
  exact h.delivered hfailed hd₁

/-- What a new version makes of the state. -/
abbrev replaced (P : Platform) (n : Thread) (status : CheckStatus) (l : List FirmwareComponent) (s : State) : State :=
  filed ((((handed n status l s).setFlow n.flow (.isSameWithDb false)).cleared).setFlow n.flow
      (.componentList (l.map FirmwareCheckDataProcessor.buildComponentSPath)))
    (l.map FirmwareCheckDataProcessor.buildComponentSPath)
    (FirmwareCheckDataProcessor.newTask P (l.map FirmwareCheckDataProcessor.buildComponentSPath))

theorem replaced_flow (hw : Waiting n s) (status : CheckStatus) :
    (replaced P n status l s).flows n.flow =
      { nextStep := .checkStep, checkStatus := status, isSameWithDb := false
        componentList := l.map FirmwareCheckDataProcessor.buildComponentSPath } := by
  show Function.update _ _ _ _ = _
  rw [Function.update_self, show ((handed n status l s).setFlow n.flow (.isSameWithDb false)).cleared.flows n.flow = _ from
    compared_flow hw status false]
  rfl

theorem ends_received (hs : s.stopped = false) (hw : Waiting n s) (hr : ¬ CheckOutcome.Refused status s) (hl : l ≠ [])
    (hstored : isStoredVersion s.components l = false) :
    (FirmwareFlowManager.onCheckCallback P f status l).Ends (n.alone a) s fun _ s' => Delivered P status l s s' := by
  have hfailed : status.isFailed = false := by simpa using (not_or.mp hr).1
  refine Prog.Ends.seq (setCheckResult_ends (Q := fun t => t = replaced P n status l s.bare) hs hw hr ?_) ?_
  · intro s₁ h₁
    have hcomponents : s₁.components = s.components := (components_eq h₁ :)
    rw [if_neg (by simpa using hl)]
    refine (handleNewVersion_ends_new (P := P) (not_stopped h₁ hs) (by rw [hcomponents]; exact hstored)).mono ?_
    intro _ s' h
    rw [h₁] at h
    exact ⟨not_stopped h hs, h⟩
  intro _ s₁ h₁
  have hs₁ : s₁.stopped = false := not_stopped h₁ hs
  have hflow := (flow_eq h₁ :).trans (replaced_flow (P := P) (l := l) (s := s.bare) hw status)
  have hstep : (s₁.flows n.flow).nextStep = .checkStep := by rw [hflow]
  obtain ⟨ht₁, hc₁, hf₁, he₁, hd₁⟩ := fields_eq h₁
  have hswitch : s₁.autoDownloadSwitch = s.autoDownloadSwitch := (congrArg State.autoDownloadSwitch h₁ :)
  let t := FirmwareCheckDataProcessor.newTask P (l.map FirmwareCheckDataProcessor.buildComponentSPath)
  let events := taskEvent .taskReceive .checkVersionSuccess t.taskId ::
    (if s.autoDownloadSwitch then [] else [taskEvent .downloadWait .checkVersionSuccess t.taskId])
  refine (execute_ends (t := { s₁.bare with events := s₁.events ++ events }) hs₁ hstep hs₁ ?_ f).mono ?_
  · intro s₂ h₂
    have hflow₂ := (flow_eq (n := n) h₂ :).trans hflow
    obtain ⟨ht₂, -, -, he₂, -⟩ := fields_eq h₂
    have hswitch₂ : s₂.autoDownloadSwitch = s₁.autoDownloadSwitch := (congrArg State.autoDownloadSwitch h₂ :)
    refine (getStepAfterCheck_ends_new (t := t) (not_stopped h₂ hs₁) ?_ ?_ ?_ ?_ rfl).mono ?_
    · rw [hflow₂]
    · rw [hflow₂]
      exact hfailed
    · rw [hflow₂]
      simpa using hl
    · rw [ht₂]
      exact ht₁
    · rintro step s' ⟨hstep, h⟩
      refine ⟨hstep, ?_⟩
      rw [h, h₂, he₂, hswitch₂, hswitch]
      rfl
  · intro _ s' h
    obtain ⟨ht, hc, hf, he, hd⟩ := fields_eq h
    have hc' : s'.components = l.map FirmwareCheckDataProcessor.buildComponentSPath := hc.trans hc₁
    refine ⟨⟨.received, hr, hl, hstored, t, ht.trans ht₁, ?_, hc', hf.trans hf₁, ?_⟩, fun _ => ?_⟩
    · rw [hc']
    · exact he.trans (congrArg (· ++ events) he₁)
    · rw [hd, hc]
      show s₁.checkVersionDone ++ [((s₁.flows n.flow).businessError,
        if (s₁.flows n.flow).checkStatus.isFailed then _ else checkResultOf P s₁.components)] = _
      rw [hflow, hd₁]
      simp only [hfailed]
      rfl

end CheckFlowAux

open CheckFlowAux in
/-- For every store, and every outcome the executor of a check hands over while no other thread is at work: exactly one of four things
comes of it, and unless the check failed, the caller is told what the tables hold afterwards. -/
theorem check_outcome (P : Platform) {f : Nat} {s : State} (hs : s.stopped = false)
    (hw : s.flows f = { nextStep := .checkStep }) (status : CheckStatus) (l : List FirmwareComponent) :
    ∃ s', (FirmwareFlowManager.onCheckCallback P f status l).run ((Thread.checkExecutor f).alone .none) s = (some (), s') ∧
      (∃ k : CheckOutcome, k.Happens P status l s s' ∧ ∀ k' : CheckOutcome, k'.Happens P status l s s' → k' = k) ∧
      (status.isFailed = false → s'.checkVersionDone = s.checkVersionDone ++ [(({} : BusinessError), checkResultOf P s'.components)]) := by
  let n := Thread.checkExecutor f
  have hw : Waiting n s := hw
  have hends : (FirmwareFlowManager.onCheckCallback P f status l).Ends (n.alone .none) s fun _ s' => Delivered P status l s s' := by
    by_cases hr : CheckOutcome.Refused status s
    · exact ends_ignored f hs hw hr
    · by_cases hl : l = []
      · subst hl
        exact ends_cancelled f hs hw hr
      · cases hstored : isStoredVersion s.components l with
        | true => exact ends_stored f hs hw hr hl hstored
        | false => exact ends_received f hs hw hr hl hstored
  obtain ⟨_, s', hrun, ⟨k, hk⟩, hdone⟩ := Prog.ends_iff_run.mp hends
  exact ⟨s', hrun, ⟨k, hk, fun k' hk' => CheckOutcome.unique hk' hk⟩, hdone⟩

/-- The first check of a phone lists a package. -/
theorem check_outcome_phone : ∃ s', (FirmwareFlowManager.onCheckCallback .phone 1 .checkSuccess [{ versionId := "package" }]).run
      ((Thread.checkExecutor 1).alone .none) { flows := fun _ => { nextStep := .checkStep } } = (some (), s') ∧
    CheckOutcome.received.Happens .phone .checkSuccess [{ versionId := "package" }] { flows := fun _ => { nextStep := .checkStep } }
      s' := by
  obtain ⟨s', hrun, ⟨k, hk, -⟩, -⟩ := check_outcome .phone (f := 1) (s := { flows := fun _ => { nextStep := .checkStep } }) rfl rfl
    .checkSuccess [{ versionId := "package" }]
  refine ⟨s', hrun, ?_⟩
  cases k with
  | ignored =>
    rcases hk.1 with h | h
    · cases h
    · cases h
  | stored => exact absurd hk.2.2.1 (by decide)
  | cancelled => exact absurd hk.2.1 (List.cons_ne_nil _ _)
  | received => exact hk

end UpdateEngine
