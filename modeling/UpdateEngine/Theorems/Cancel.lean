import UpdateEngine.Lemmas.AloneAux

/-!
# What a cancelled download leaves in the tables

The components are reset one URL after the other. A row is reset by the first component of the list that has its URL and stays as it
is from there on, so that it does not matter how many components share a URL; the list is the table itself, so that no row is left
out.
-/

namespace UpdateEngine

open Concurrent AloneAux

/-- A component as it was before the download. -/
def FirmwareComponent.beforeDownload (c : FirmwareComponent) : FirmwareComponent :=
  { c with status := .checkVersionSuccess, progress := 0 }

namespace CancelAux

variable {n : Thread} {a : Answer} {s : State}

/-- The rows with one of the URLs as they were before the download. -/
def resetUrls (urls : List String) (rows : List FirmwareComponent) : List FirmwareComponent :=
  rows.map fun c => if c.url ∈ urls then c.beforeDownload else c

@[simp] theorem resetUrls_nil (rows : List FirmwareComponent) : resetUrls [] rows = rows := by
  simp [resetUrls]

/-- One URL after the others: a row that is reset again does not change. -/
theorem resetUrls_cons (url : String) (urls : List String) (rows : List FirmwareComponent) :
    resetUrls urls (rows.map fun c => (ComponentUpdate.progressByUrl url .checkVersionSuccess 0).apply c) =
      resetUrls (url :: urls) rows := by
  simp only [resetUrls, List.map_map]
  apply List.map_congr_left
  intro c _
  by_cases hurl : c.url = url <;> by_cases hin : c.url ∈ urls <;>
    simp_all [ComponentUpdate.apply, FirmwareComponent.beforeDownload]

/-- Resetting the URLs that stand in the table resets every row. -/
theorem resetUrls_all (rows : List FirmwareComponent) :
    resetUrls (rows.map (·.url)) rows = rows.map FirmwareComponent.beforeDownload := by
  apply List.map_congr_left
  intro c hc
  rw [if_pos (List.mem_map_of_mem hc)]

/-- The process goes on, with these rows in the tables. -/
def Holds (tasks : List FirmwareTask) (components : List FirmwareComponent) (s : State) : Prop :=
  s.stopped = false ∧ s.tasks = tasks ∧ s.components = components

variable {tasks : List FirmwareTask} {components : List FirmwareComponent}

theorem updateProgressByUrl_ends (h : Holds tasks components s) (c : Caller) (url : String) (status : UpgradeStatus)
    (progress : Int32) :
    (FirmwareComponentOperator.updateProgressByUrl c url status progress).Ends (n.alone a) s fun _ =>
      Holds tasks (components.map fun r => (ComponentUpdate.progressByUrl url status progress).apply r) := by
  obtain ⟨hs, rfl, rfl⟩ := h
  exact ends_op hs rfl ⟨hs, rfl, rfl⟩

theorem updateTasks_ends (h : Holds tasks components s) (c : Caller) (taskId : String) (u : TaskUpdate) :
    (call (.updateTasks c taskId u)).Ends (n.alone a) s fun _ =>
      Holds (tasks.map fun t => if t.taskId = taskId then u.apply t else t) components := by
  obtain ⟨hs, rfl, rfl⟩ := h
  exact ends_op hs rfl ⟨hs, rfl, rfl⟩

/-- The loop over the components: by induction on the list, with the table as the state. -/
theorem resetLoop_ends (l : List FirmwareComponent) (h : Holds tasks components s) :
    (l.forM fun component => FirmwareComponentOperator.updateProgressByUrl .stepAfterDownload component.url
      .checkVersionSuccess 0).Ends (n.alone a) s fun _ => Holds tasks (resetUrls (l.map (·.url)) components) := by
  induction l generalizing s components with
  | nil =>
    rw [List.map_nil, resetUrls_nil]
    exact h
  | cons c l ih =>
    refine Prog.Ends.seq (updateProgressByUrl_ends h .stepAfterDownload c.url .checkVersionSuccess 0) ?_
    intro _ s₁ h₁
    have hrest := ih h₁
    rwa [resetUrls_cons] at hrest

end CancelAux

open CancelAux

/-- `DownloadCancelProcess` restores the rows as they were before the download: every component row is back at
`CHECK_VERSION_SUCCESS` with progress 0, the row of the task too and without a download task, and nothing else changes in either
table. -/
theorem downloadCancelProcess_restores (n : Thread) (a : Answer) (s : State) (hs : s.stopped = false) (task : FirmwareTask)
    (errorMessage : ErrorMessage) :
    (FirmwareDownloadMode.downloadCancelProcess task errorMessage).Ends (n.alone a) s fun _ s' =>
      s'.components = s.components.map (fun c => { c with status := .checkVersionSuccess, progress := 0 }) ∧
        s'.tasks = s.tasks.map fun t =>
          if t.taskId = task.taskId then { t with status := .checkVersionSuccess, progress := 0, downloadTaskId := "" } else t := by
  have htold : (notifyEvent task.taskId .downloadCancel .downloadCancel errorMessage).Ends (n.alone a) s fun _ =>
      Holds s.tasks s.components := ends_op hs rfl ⟨hs, rfl, rfl⟩
  refine Prog.Ends.seq htold ?_
  intro _ s₁ h₁
  refine Prog.Ends.seq (updateTasks_ends h₁ .stepAfterDownload task.taskId (.progress .checkVersionSuccess 0)) ?_
  intro _ s₂ h₂
  -- the list is the table as it is now
  refine ends_call h₂.1 rfl ?_
  rw [h₂.2.2]
  have h₃ : Holds _ _ (Op.after n s₂ (.queryComponents .stepAfterDownload) s.components) := h₂
  refine Prog.Ends.seq (resetLoop_ends s.components h₃) ?_
  intro _ s₄ h₄
  rw [resetUrls_all] at h₄
  refine Prog.Ends.seq (updateTasks_ends h₄ .stepAfterDownload task.taskId (.downloadTaskId "")) ?_
  intro _ s₅ h₅
  refine ends_op h₅.1 rfl ⟨h₅.2.2, ?_⟩
  show s₅.tasks = _
  rw [h₅.2.1, List.map_map]
  apply List.map_congr_left
  intro t _
  by_cases hid : t.taskId = task.taskId <;> simp [hid, TaskUpdate.apply]

/-- Two components share a URL, one of them downloaded and the other one not. -/
def sharedUrl : State := {
  tasks := [{ taskId := "t", status := .downloading, progress := 40, downloadTaskId := "d" }, { taskId := "u" }]
  components := [{ versionId := "a", url := "x", status := .downloadSuccess, progress := 100 }, { versionId := "b", url := "y" },
    { versionId := "c", url := "x", status := .downloading, progress := 40 }] }

/-- A cancelled download of components that share a URL. -/
theorem downloadCancelProcess_restores_shared :
    sharedUrl.stopped = false ∧ (FirmwareDownloadMode.downloadCancelProcess { taskId := "t" } {}).Ends
      ((Thread.downloadExecutor 0 {}).alone .none) sharedUrl fun _ s' =>
        s'.components = sharedUrl.components.map (fun c => { c with status := .checkVersionSuccess, progress := 0 }) ∧
          s'.tasks = sharedUrl.tasks.map fun t =>
            if t.taskId = "t" then { t with status := .checkVersionSuccess, progress := 0, downloadTaskId := "" } else t :=
  ⟨rfl, downloadCancelProcess_restores (.downloadExecutor 0 {}) .none sharedUrl rfl { taskId := "t" } {}⟩

end UpdateEngine
