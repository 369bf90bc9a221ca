import UpdateEngine.Theorems.Boot

/-!
# From the hand-over to the next boot

An installation by the updater is handed over with a reboot, and the flow goes on until the reboot takes the process down. What the
next start makes of the task depends on how far the flow has come.
-/

namespace UpdateEngine

open Concurrent KindsAux AloneAux

/-- The work after a start from a store takes an operation. -/
def Store.bootTakes (P : Platform) (startupReason : StartupReason) (free : UInt64) (d : Store) (o : Op) : Prop :=
  (FirmwareManager.delayInit P 0 startupReason).Takes ((Thread.delayInit 0 startupReason).alone (.space free))
    (d.started startupReason) o

/-- The work after a start evaluates the result of the updater, and does not roll the task back to the end of its download. -/
structure Survives (P : Platform) (startupReason : StartupReason) (free : UInt64) (d : Store) : Prop where
  evaluated : d.bootTakes P startupReason free .readUpdaterResult
  kept : ∀ taskId progress, ¬ d.bootTakes P startupReason free
    (.updateTasks .restoreUpdate taskId (.progress .downloadSuccess progress))

namespace HandOverAux

open BootAux

variable {P : Platform} {n : Thread} {s : State} {a : Answer}

/-- A program takes no operation of a kind it does not ask for. -/
theorem not_takes {α : Type} {l : List OpKind} {p : Prog α} {o : Op} (hp : Kinds l p) (ho : l.contains o.kind = false) :
    ¬ p.Takes (n.alone a) s o := by
  intro h
  have := h.of_uses hp
  rw [ho] at this
  cases this

/-- What `DelayInit` asks for after the recovery. -/
theorem rest_kinds (startupReason : StartupReason) :
    Kinds [.listen, .choose, .query, .judge, .prefer, .publish, .drop, .sweep, .clean] (rest P startupReason) := by
  have hannounce : Kinds [.listen, .prefer, .publish]
      (call .registerNetChangedListener >>= fun _ => FirmwareManager.notifyInitEvent) :=
    ⟨rfl, fun _ => notifyInitEvent_kinds.mono rfl⟩
  refine Kinds.bind hannounce (k := [.choose, .query, .judge, .prefer, .publish, .drop, .sweep, .clean]) (fun _ => ?_) rfl rfl
  split
  · exact handleBootComplete_kinds P
  · trivial

/-- After a boot, the result of the updater is read for a task it was installing. -/
theorem handleBootComplete_takes (hs : s.stopped = false) (hu : s.status = some .updating) (hc : s.components ≠ []) :
    (FirmwareManager.handleBootComplete P).Takes (n.alone a) s .readUpdaterResult := by
  obtain ⟨t, ht, hstatus⟩ := Option.map_eq_some_iff.mp hu
  obtain ⟨l, hl⟩ := List.head?_eq_some_iff.mp ht
  refine Prog.Takes.right ((queryTask_ends hs _ _).mono ?_)
  rintro _ s₁ ⟨rfl, h₁⟩
  have hk : Kept n s s₁ := kept_of_bare h₁
  rw [hl]
  show Prog.Takes _ (if t.status = .updating then _ else _) s₁ _
  rw [if_pos hstatus]
  refine .inr ⟨s₁.components, Op.after n s₁ (.queryComponents .handleBootUpdate) s₁.components, ?_, ?_⟩
  · simp [Thread.alone, exec, hk.stopped.trans hs, Op.answer]
  · have hne : s₁.components ≠ [] := by
      rw [hk.components]
      exact hc
    refine Prog.Takes.left (p := FirmwareResultProcess.getUpdaterResult P s₁.components) ?_
    unfold FirmwareResultProcess.getUpdaterResult
    rw [if_neg (by simpa using hne)]
    exact .inl rfl

/-- It is not read otherwise. -/
theorem updating_of_takes (hs : s.stopped = false)
    (h : (FirmwareManager.handleBootComplete P).Takes (n.alone a) s .readUpdaterResult) :
    s.status = some .updating ∧ s.components ≠ [] := by
  rcases h.bind (queryTask_ends hs _ _) with h | ⟨_, s₁, ⟨rfl, h₁⟩, h⟩
  · exact absurd h (not_takes (queryTask_kinds rfl _) rfl)
  · have hk : Kept n s s₁ := kept_of_bare h₁
    cases hl : s.tasks with
    | nil =>
      rw [hl] at h
      exact h.elim
    | cons t l =>
      rw [hl] at h
      have h : Prog.Takes _ (if t.status = .updating then
        FirmwareManager.handleBootUpdateOnStatusProcess P { t with isExistTask := true } else pure ()) s₁ _ := h
      split at h
      · rename_i hu
        refine ⟨by simp [State.status, hl, hu], ?_⟩
        intro hc
        rcases h with h | ⟨x, s₂, hx, h⟩
        · cases h
        · obtain ⟨-, hx, -⟩ := exec_eq_some hx
          obtain rfl : s₁.components = x := Option.some.inj hx
          rw [hk.components, hc] at h
          exact not_takes (handleBootUpdateFail_kinds _ _) rfl h
      · exact h.elim

/-- After the recovery, the result is read exactly after a boot, for a task the updater was installing. -/
theorem rest_takes (hs : s.stopped = false) (hl : s.netChangeLocked = false) (startupReason : StartupReason) :
    (rest P startupReason).Takes (n.alone a) s .readUpdaterResult ↔
      startupReason = .deviceReboot ∧ s.status = some .updating ∧ s.components ≠ [] := by
  constructor
  · intro h
    rcases h.bind (announce_ends hs hl) with h | ⟨_, s₁, h₁, h⟩
    · have hannounce : Kinds [.listen, .prefer, .publish]
          (call .registerNetChangedListener >>= fun _ => FirmwareManager.notifyInitEvent) :=
        ⟨rfl, fun _ => notifyInitEvent_kinds.mono rfl⟩
      exact absurd h (not_takes hannounce rfl)
    · split at h
      · rename_i hr
        have := updating_of_takes (h₁.stopped.trans hs) h
        rw [h₁.status, h₁.components] at this
        exact ⟨hr, this⟩
      · exact h.elim
  · rintro ⟨rfl, hu, hc⟩
    refine Prog.Takes.right ((announce_ends hs hl).mono ?_)
    intro _ s₁ h₁
    rw [if_pos rfl]
    refine handleBootComplete_takes (h₁.stopped.trans hs) (h₁.status.trans hu) ?_
    rw [h₁.components]
    exact hc

/-- The recovery of a download clears the tables. -/
theorem restoreUpdate_clears (hs : s.stopped = false) {t : FirmwareTask} {l : List FirmwareTask} (ht : s.tasks = t :: l)
    (hstatus : t.status = .downloading ∨ t.status = .downloadPause) (f : Nat) :
    (FirmwareManager.restoreUpdate P f).Ends (n.alone a) s fun _ s' => Emptied n s s' := by
  refine Prog.Ends.seq (queryTask_ends hs _ _) ?_
  rintro _ s₁ ⟨rfl, h₁⟩
  have hk : Kept n s s₁ := kept_of_bare h₁
  have hclear : FirmwareUpdateHelper.clearFirmwareInfo.Ends (n.alone a) s₁ fun _ s' => Emptied n s s' := by
    refine (clearFirmwareInfo_ends (hk.stopped.trans hs)).mono ?_
    intro _ s' h
    exact (emptied_of_bare h).after hk
  rw [ht]
  dsimp only [first]
  rcases hstatus with h | h
  · rw [h]
    exact hclear
  · rw [h]
    exact hclear

/-- The recovery rolls back what it finds being installed by the system installer, or installed, and nothing else. -/
theorem restoreUpdate_takes (hs : s.stopped = false) {t : FirmwareTask} {l : List FirmwareTask} (ht : s.tasks = t :: l)
    (f : Nat) : (∃ taskId progress, (FirmwareManager.restoreUpdate P f).Takes (n.alone a) s
      (.updateTasks .restoreUpdate taskId (.progress .downloadSuccess progress))) ↔
        t.status = .installing ∨ t.status = .installSuccess := by
  constructor
  · rintro ⟨taskId, progress, h⟩
    rcases h.bind (queryTask_ends hs _ _) with h | ⟨_, s₁, ⟨rfl, -⟩, h⟩
    · exact absurd h (not_takes (queryTask_kinds rfl _) rfl)
    · rw [ht] at h
      dsimp only [first] at h
      split at h
      · exact absurd h (not_takes clearFirmwareInfo_kinds rfl)
      · exact absurd h (not_takes clearFirmwareInfo_kinds rfl)
      · exact .inl ‹_›
      · exact .inr ‹_›
      · exact h.elim
  · intro hstatus
    refine ⟨t.taskId, 100, Prog.Takes.right ((queryTask_ends hs _ _).mono ?_)⟩
    rintro _ s₁ ⟨rfl, -⟩
    rw [ht]
    dsimp only [first]
    rcases hstatus with h | h
    · rw [h]
      exact .inl rfl
    · rw [h]
      exact .inl rfl

/-- The lock of the network listeners is not touched by the recovery. -/
theorem unlocked_after (o : Op) (x : o.Res) (s : State) (_ : o.kind ≠ .insert) (hl : o.kind ≠ .listen)
    (h : s.netChangeLocked = false) : (o.after n s x).netChangeLocked = false := by
  cases o with
  | lockNetChange => exact absurd rfl hl
  | unlockNetChange => rfl
  | openFile p | saveDataToFile p d | awaitWake i => cases x <;> exact h
  | enter m => cases m <;> exact h
  | _ => exact h

/-- Unless something is rolled back, the recovery leaves the tables alone or empties them. -/
theorem restoreUpdate_cases (free : UInt64) (hs : s.stopped = false) (hl : s.netChangeLocked = false)
    (hstep : (s.flows n.flow).nextStep = .init) {f : Nat} (hkept : ∀ taskId progress,
      ¬ (FirmwareManager.restoreUpdate P f).Takes (n.alone (.space free)) s
        (.updateTasks .restoreUpdate taskId (.progress .downloadSuccess progress))) :
    (FirmwareManager.restoreUpdate P f).Ends (n.alone (.space free)) s fun _ s' =>
      s'.netChangeLocked = false ∧ (Kept n s s' ∨ Emptied n s s') := by
  refine restoreUpdate_preserving unlocked_after hl ?_
  cases ht : s.tasks with
  | nil =>
    refine (restoreUpdate_ends_nil hs ht f).mono ?_
    intro _ s' h
    exact .inl (kept_of_bare h)
  | cons t l =>
    by_cases hd : t.status = .downloading ∨ t.status = .downloadPause
    · refine (restoreUpdate_clears hs ht hd f).mono ?_
      intro _ s' h
      exact .inr h
    · have hno : ¬ (t.status = .installing ∨ t.status = .installSuccess) := by
        intro h
        obtain ⟨taskId, progress, h⟩ := (restoreUpdate_takes hs ht f).mpr h
        exact hkept taskId progress h
      have hnone : ¬ (t.status = .downloading ∨ t.status = .downloadPause ∨ t.status = .installing ∨
          t.status = .installSuccess) := by
        rintro (h | h | h)
        · exact hd (.inl h)
        · exact hd (.inr h)
        · exact hno h
      refine (restoreUpdate_ends free hs ht hstep f).mono ?_
      rintro _ s' ⟨-, h⟩
      rw [if_neg hnone] at h
      exact .inl (kept_of_bare h)

end HandOverAux

open HandOverAux BootAux in
/-- For every store, the next start evaluates the result of the updater and does not roll the task back exactly when it is a boot
and the task is stored as being installed by the updater. -/
theorem survives_iff (P : Platform) (startupReason : StartupReason) (free : UInt64) (d : Store) :
    Survives P startupReason free d ↔
      startupReason = .deviceReboot ∧ d.state.status = some .updating ∧ d.components ≠ [] := by
  let n := Thread.delayInit 0 startupReason
  have hs : (d.started startupReason).stopped = false := rfl
  have hlocked : (d.started startupReason).netChangeLocked = false := rfl
  have hstep : ((d.started startupReason).flows n.flow).nextStep = .init := rfl
  constructor
  · rintro ⟨hread, hkept⟩
    have hcases := restoreUpdate_cases (P := P) (f := 0) free hs hlocked hstep fun taskId progress h =>
      hkept taskId progress h.left
    rcases hread.bind hcases with h | ⟨_, s₁, ⟨hl₁, h₁⟩, h⟩
    · exact absurd h (not_takes (restoreUpdate_kinds P 0) rfl)
    · have hs₁ : s₁.stopped = false := by
        rcases h₁ with h₁ | h₁
        · exact h₁.stopped
        · exact h₁.stopped
      obtain ⟨hr, hu, hc⟩ := (rest_takes hs₁ hl₁ startupReason).mp h
      rcases h₁ with h₁ | h₁
      · rw [h₁.status] at hu
        rw [h₁.components] at hc
        subst hr
        exact ⟨rfl, hu, hc⟩
      · exact absurd h₁.components hc
  · rintro ⟨rfl, hu, hc⟩
    obtain ⟨t, ht, hstatus⟩ := Option.map_eq_some_iff.mp hu
    obtain ⟨l, hl⟩ := List.head?_eq_some_iff.mp ht
    have htasks : (d.started .deviceReboot).tasks = t :: l := hl
    have hno (taskId : String) (progress : Int32) : ¬ (FirmwareManager.restoreUpdate P 0).Takes (n.alone (.space free))
        (d.started .deviceReboot) (.updateTasks .restoreUpdate taskId (.progress .downloadSuccess progress)) := by
      intro h
      have := (restoreUpdate_takes hs htasks 0).mp ⟨taskId, progress, h⟩
      simp [hstatus] at this
    have hcases := restoreUpdate_cases (P := P) (f := 0) free hs hlocked hstep hno
    have hends : (FirmwareManager.restoreUpdate P 0).Ends (n.alone (.space free)) (d.started .deviceReboot) fun _ s' =>
        s'.netChangeLocked = false ∧ Kept n (d.started .deviceReboot) s' := by
      refine restoreUpdate_preserving unlocked_after hlocked ((restoreUpdate_ends free hs htasks hstep 0).mono ?_)
      rintro _ s' ⟨-, h⟩
      rw [if_neg (by simp [hstatus])] at h
      exact kept_of_bare h
    constructor
    · refine Prog.Takes.right (hends.mono ?_)
      rintro _ s₁ ⟨hl₁, h₁⟩
      refine (rest_takes h₁.stopped hl₁ .deviceReboot).mpr ⟨rfl, h₁.status.trans hu, ?_⟩
      rw [h₁.components]
      exact hc
    · intro taskId progress h
      rcases h.bind hends with h | ⟨_, s₁, -, h⟩
      · exact hno taskId progress h
      · exact not_takes (rest_kinds .deviceReboot) rfl h

/-! ## How far the flow has come -/

/-- The hand-over to the updater. -/
def Op.handsOver : Op → Bool
  | .ask (.rebootAndInstallUpgradePackage _) => true
  | _ => false

/-- The write of `HandleInstallResult`. -/
def Op.storesResult : Op → Bool
  | .updateTasks .handleInstallResult _ _ => true
  | _ => false

/-- One operation of a thread, with the log; before it other threads make of the state what they like. -/
def Thread.amid (n : Thread) (a : Answer) (others : List Op → State → State) (o : Op) (c : Logged) :
    Option (o.Res × Logged) :=
  Prog.logged (n.alone a) o (others c.2 c.1, c.2)

/-- Other threads leave the tables, and the objects of a flow, as they are. -/
def Undisturbed (f : Nat) (others : List Op → State → State) : Prop :=
  ∀ l s, (others l s).tasks = s.tasks ∧ (others l s).components = s.components ∧ (others l s).flows f = s.flows f

namespace HandOverAux

/-- Nothing has been handed over. -/
def Before (c : Logged) : Prop := c.2.any Op.handsOver = false

/-- The task is stored as being installed by the updater, whether or not it has been handed over. -/
structure Going (f : Nat) (taskId : String) (handed : Bool) (c : Logged) : Prop where
  handed : c.2.any Op.handsOver = handed
  stored : c.2.any Op.storesResult = false
  components : c.1.components ≠ []
  task : ∃ t l, c.1.tasks = t :: l ∧ t.status = .updating ∧ t.taskId = taskId
  executor : (c.1.flows f).executorTasks.taskId = taskId

/-- The result is stored. -/
structure Done (c : Logged) : Prop where
  stored : c.2.any Op.storesResult = true
  status : c.1.status ≠ some .updating

/-- What is to be shown of every instant. -/
def Timely (c : Logged) : Prop :=
  c.2.any Op.handsOver = true → (c.2.any Op.storesResult = false ↔ c.1.status = some .updating) ∧
    (c.1.status = some .updating → c.1.components ≠ [])

theorem Before.timely {c : Logged} (h : Before c) : Timely c := by
  intro hh
  rw [h] at hh
  cases hh

theorem Going.timely {f : Nat} {taskId : String} {handed : Bool} {c : Logged} (h : Going f taskId handed c) : Timely c := by
  obtain ⟨t, l, ht, hstatus, -⟩ := h.task
  have hu : c.1.status = some .updating := by simp [State.status, ht, hstatus]
  exact fun _ => ⟨iff_of_true h.stored hu, fun _ => h.components⟩

theorem Done.timely {c : Logged} (h : Done c) : Timely c := by
  intro _
  refine ⟨iff_of_false ?_ h.status, fun hu => absurd hu h.status⟩
  rw [h.stored]
  exact Bool.noConfusion

variable {P : Platform} {f : Nat} {taskId : String} {n : Thread} {a : Answer} {others : List Op → State → State}
  {c c' : Logged}

/-- Other threads do not change how far the flow has come. -/
theorem Going.amid {handed : Bool} (hu : Undisturbed f others) (h : Going f taskId handed c) :
    Going f taskId handed (others c.2 c.1, c.2) := by
  obtain ⟨ht, hc, hf⟩ := hu c.2 c.1
  refine ⟨h.handed, h.stored, ?_, ?_, ?_⟩
  · rw [hc]
    exact h.components
  · rw [ht]
    exact h.task
  · rw [hf]
    exact h.executor

theorem Done.amid (hu : Undisturbed f others) (h : Done c) : Done (others c.2 c.1, c.2) := by
  obtain ⟨ht, -⟩ := hu c.2 c.1
  refine ⟨h.stored, ?_⟩
  rw [State.status, ht]
  exact h.status

/-- One operation with the log. -/
theorem step_amid {o : Op} {x : o.Res} (h : n.amid a others o c = some (x, c')) :
    o.answer n a (others c.2 c.1) = some x ∧ c'.1 = o.after n (others c.2 c.1) x ∧ c'.2 = c.2 ++ [o] := by
  obtain ⟨hx, hl⟩ := Prog.logged_eq_some h
  obtain ⟨-, ha, hs⟩ := exec_eq_some hx
  exact ⟨ha, hs, hl⟩

/-- Any operation but the hand-over leaves a flow before it. -/
theorem before_step {o : Op} {x : o.Res} (ho : o.kind ≠ .handOver) (hc : Before c)
    (h : n.amid a others o c = some (x, c')) : Before c' := by
  have hno : o.handsOver = false := by
    cases o with
    | ask q => cases q <;> first | rfl | exact absurd rfl ho
    | _ => rfl
  unfold Before
  rw [(step_amid h).2.2, List.any_append, hc]
  simp [hno]

/-- The kinds of operations that leave the task, its components and what the executor knows of it as they are. -/
def goingKind : OpKind → Bool
  | .query | .choose | .read | .rows | .publish | .getFlow | .getStep | .stage | .mark => true
  | _ => false

/-- One operation, of which it is known what it leaves. -/
theorem Going.step {handed : Bool} {o : Op} {x : o.Res} (hu : Undisturbed f others) (hc : Going f taskId handed c)
    (h : n.amid a others o c = some (x, c')) (hlog : o.handsOver = false ∧ o.storesResult = false)
    (htasks : c'.1.tasks = (others c.2 c.1).tasks)
    (hcomponents : (others c.2 c.1).components ≠ [] → c'.1.components ≠ [])
    (hflow : (c'.1.flows f).executorTasks = ((others c.2 c.1).flows f).executorTasks) : Going f taskId handed c' := by
  have hc := hc.amid hu
  have hl := (step_amid h).2.2
  refine ⟨?_, ?_, hcomponents hc.components, ?_, ?_⟩
  · rw [hl, List.any_append, hc.handed]
    simp [hlog.1]
  · rw [hl, List.any_append, hc.stored]
    simp [hlog.2]
  · rw [htasks]
    exact hc.task
  · rw [hflow]
    exact hc.executor

theorem going_step {handed : Bool} {o : Op} {x : o.Res} (hu : Undisturbed f others) (ho : goingKind o.kind = true)
    (hc : Going f taskId handed c) (h : n.amid a others o c = some (x, c')) : Going f taskId handed c' := by
  obtain ⟨-, hs, -⟩ := step_amid h
  refine hc.step hu h ?_ ?_ ?_ ?_
  · cases o with
    | ask q => cases q <;> cases ho
    | updateTasks c i u => cases u <;> cases ho
    | _ => exact ⟨rfl, rfl⟩
  · rw [hs]
    cases o with
    | updateTasks c i u => cases u <;> cases ho
    | enter m => cases m <;> rfl
    | _ => first | rfl | cases ho
  · rw [hs]
    intro hne
    cases o with
    | updateComponents c' u =>
      intro he
      exact hne (List.map_eq_nil_iff.mp he)
    | enter m => cases m <;> exact hne
    | _ => first | exact hne | cases ho
  · rw [hs]
    cases o with
    | setFlow u => cases u <;> cases ho
    | enter m => cases m <;> rfl
    | _ => first | rfl | cases ho

/-- An assignment to any other field of the flow does so, too. -/
theorem going_setFlow {handed : Bool} {u : FlowUpdate} {x : Unit} (hu : Undisturbed f others)
    (ho : ∀ t, u ≠ .executorTasks t) (hc : Going f taskId handed c) (h : n.amid a others (.setFlow u) c = some (x, c')) :
    Going f taskId handed c' := by
  obtain ⟨-, hs, -⟩ := step_amid h
  refine hc.step hu h ⟨rfl, rfl⟩ (by rw [hs]; rfl) (by rw [hs]; exact id) ?_
  rw [hs]
  show ((Function.update (others c.2 c.1).flows n.flow (u.apply ((others c.2 c.1).flows n.flow))) f).executorTasks = _
  by_cases hf : f = n.flow
  · subst hf
    rw [Function.update_self]
    cases u <;> first | rfl | exact absurd rfl (ho _)
  · rw [Function.update_of_ne hf]

/-- Once the result is stored, the task is not stored as being installed again. -/
theorem done_step {o : Op} {x : o.Res} (hu : Undisturbed f others) (ho : o.kind ≠ .record ∧ o.kind ≠ .insert) (hc : Done c)
    (h : n.amid a others o c = some (x, c')) : Done c' := by
  have hc := hc.amid hu
  obtain ⟨-, hs, hl⟩ := step_amid h
  refine ⟨?_, ?_⟩
  · rw [hl, List.any_append, hc.stored]
    rfl
  · have hrec : StepAux.recordsOf (others c.2 c.1) o = none ∨ o = .deleteTasks := by
      cases o with
      | updateTasks c i u => cases u <;> first | exact .inl rfl | exact absurd rfl ho.1
      | deleteTasks => exact .inr rfl
      | _ => exact .inl rfl
    have hins : StepAux.insertsOf (others c.2 c.1) o = none := by
      cases o with
      | insertTask t => exact absurd rfl ho.2
      | _ => rfl
    rw [hs, StepAux.after_status]
    rcases hrec with hr | rfl
    · rw [hr, hins]
      exact hc.status
    · exact fun h => by cases h

/-! ## Functions -/

/-- A program does not ask for a kind that is not on its list. -/
theorem kind_ne {l : List OpKind} {o : Op} {k : OpKind} (ho : l.contains o.kind = true) (hk : l.contains k = false) :
    o.kind ≠ k := by
  intro h
  rw [h, hk] at ho
  cases ho

/-- Before the hand-over nothing is to be shown. -/
theorem before_always {α : Type} {l : List OpKind} {p : Prog α} (hp : Kinds l p) (hl : l.contains .handOver = false)
    (hc : Before c) : p.Always (n.amid a others) c Timely :=
  (Prog.Always.of_uses (fun _ _ _ _ ho hc h => before_step (kind_ne ho hl) hc h) hp hc).mono fun _ h => h.timely

/-- What leaves the task alone, leaves it being installed. -/
theorem going_always {α : Type} {handed : Bool} {l : List OpKind} {p : Prog α} (hu : Undisturbed f others) (hp : Kinds l p)
    (hl : l.all goingKind = true) (hc : Going f taskId handed c) :
    p.Always (n.amid a others) c (Going f taskId handed) := by
  refine Prog.Always.of_uses (fun o _ _ _ ho hc h => going_step hu ?_ hc h) hp hc
  exact List.all_eq_true.mp hl o.kind (List.contains_iff_mem.mp ho)

/-- After the result is stored, it stays. -/
theorem done_always {α : Type} {l : List OpKind} {p : Prog α} (hu : Undisturbed f others) (hp : Kinds l p)
    (hl : l.contains .record = false ∧ l.contains .insert = false) (hc : Done c) :
    p.Always (n.amid a others) c Timely :=
  (Prog.Always.of_uses (fun _ _ _ _ ho hc h => done_step hu ⟨kind_ne ho hl.1, kind_ne ho hl.2⟩ hc h) hp hc).mono
    fun _ h => h.timely

/-- The status an installation by the updater ends with. -/
theorem installResult_ne (result : Bool) (p : Progress) :
    (FirmwareInstallExecutor.installResult .updater result p).status ≠ .updating := by
  cases result
  · exact fun h => by cases h
  · exact fun h => by cases h

/-- `HandleInstallResult` of a task that is handed over. -/
theorem handleInstallResult_always (hu : Undisturbed f others) (hf : n.flow = f) {handed : Bool}
    (hc : Going f taskId handed c) (o : UpgradeOptions) (result : Bool) (e : ErrorMessage) :
    (FirmwareInstallExecutor.handleInstallResult P f o .updater result e).Always (n.amid a others) c Timely := by
  refine ⟨hc.timely, fun _ c₁ h₁ => ?_⟩
  have hc₁ := going_step hu rfl hc h₁
  refine ⟨hc₁.timely, fun w c₂ h₂ => ?_⟩
  have hc₂ := going_step hu rfl hc₁ h₂
  have hw : w.executorTasks.taskId = taskId := by
    obtain ⟨ha, -⟩ := step_amid h₂
    rw [← Option.some.inj ha, hf]
    exact (hc₁.amid hu).executor
  refine ⟨hc₂.timely, fun _ c₃ h₃ => ?_⟩
  have hc₃ := going_setFlow hu (fun _ h => by cases h) hc₂ h₃
  refine ⟨hc₃.timely, fun _ c₄ h₄ => ?_⟩
  have hc₄ : Done c₄ := by
    obtain ⟨-, hs, hl⟩ := step_amid h₄
    obtain ⟨t, l, ht, -, hid⟩ := (hc₃.amid hu).task
    have ht : (others c₃.2 c₃.1).tasks = t :: l := ht
    have hid : t.taskId = w.executorTasks.taskId := hid.trans hw.symm
    refine ⟨by simp [hl, Op.storesResult], ?_⟩
    rw [hs]
    simp only [State.status, Op.after, Op.effect, ht, List.map_cons, List.head?_cons, Option.map_some, hid, if_true]
    exact fun h => installResult_ne result _ (Option.some.inj h)
  have hrest : Kinds ([.assign, .publish] ++ installKinds)
      (call (.setFlow (.installCallbackInfo
          { progress := FirmwareInstallExecutor.installResult .updater result w.taskProgress, errorMessage := e })) >>=
        fun _ => FirmwareFlowManager.onInstallCallback P f o .updater
          { progress := FirmwareInstallExecutor.installResult .updater result w.taskProgress, errorMessage := e }) :=
    ⟨rfl, fun _ => (onInstallCallback_kinds P f o .updater _).mono rfl⟩
  exact done_always hu hrest ⟨rfl, rfl⟩ hc₄

/-- `StartInstall` of a task that is stored as being installed. -/
theorem startInstall_always (hu : Undisturbed f others) (hf : n.flow = f) (hc : Going f taskId false c) (o : UpgradeOptions)
    (components : List FirmwareComponent) :
    (FirmwareInstallExecutor.startInstall P f o .updater taskId components).Always (n.amid a others) c Timely := by
  have hfail (c' : Logged) (hc' : Going f taskId false c') (e : ErrorMessage) :
      (FirmwareInstallExecutor.handleInstallResult P f o .updater false e).Always (n.amid a others) c' Timely :=
    handleInstallResult_always hu hf hc' o false e
  refine ⟨hc.timely, fun w c₁ h₁ => ?_⟩
  have hc₁ := going_step hu rfl hc h₁
  show Prog.Always _ (if w.isInstalling = true then _ else _) c₁ _
  split
  · exact hfail c₁ hc₁ _
  · refine Prog.Always.seq (going_always hu (isUpgradePackagesReady_kinds components) rfl hc₁) (fun _ h => h.timely) ?_
    intro ready c₂ hc₂
    cases ready with
    | false => exact hfail c₂ hc₂ _
    | true =>
      refine ⟨hc₂.timely, fun _ c₃ h₃ => ?_⟩
      have hc₃ := going_setFlow hu (fun _ h => by cases h) hc₂ h₃
      refine ⟨hc₃.timely, fun _ c₄ h₄ => ?_⟩
      have hc₄ := going_step hu rfl hc₃ h₄
      have hend (c' : Logged) (handed : Bool) (hc' : Going f taskId handed c') (result : Bool) :
          (call (.enter .performInstallEnd) >>= fun _ => call (.setFlow (.isInstalling false)) >>= fun _ =>
            call .getFlow >>= fun w => FirmwareInstallExecutor.handleInstallResult P f o .updater result w.errMsg).Always
              (n.amid a others) c' Timely := by
        refine ⟨hc'.timely, fun _ c₇ h₇ => ?_⟩
        have hc₇ := going_step hu rfl hc' h₇
        refine ⟨hc₇.timely, fun _ c₈ h₈ => ?_⟩
        have hc₈ := going_setFlow hu (fun _ h => by cases h) hc₇ h₈
        refine ⟨hc₈.timely, fun w c₉ h₉ => ?_⟩
        exact handleInstallResult_always hu hf (going_step hu rfl hc₈ h₉) o result w.errMsg
      -- the event, then the hand-over
      refine ⟨hc₄.timely, fun _ c₅ h₅ => ?_⟩
      have hc₅ := going_step hu rfl hc₄ h₅
      refine ⟨hc₅.timely, fun handed c₆ h₆ => ?_⟩
      have hc₆ : Going f taskId true c₆ := by
        obtain ⟨-, hs, hl⟩ := step_amid h₆
        have hc₅ := hc₅.amid hu
        refine ⟨?_, ?_, ?_, ?_, ?_⟩
        · rw [hl, List.any_append]
          simp [Op.handsOver]
        · rw [hl, List.any_append, hc₅.stored]
          rfl
        · rw [hs]
          exact hc₅.components
        · rw [hs]
          exact hc₅.task
        · rw [hs]
          exact hc₅.executor
      cases handed with
      | true => exact hend c₆ true hc₆ true
      | false =>
        refine ⟨hc₆.timely, fun _ c₇ h₇ => ?_⟩
        exact hend c₇ true (going_setFlow hu (fun _ h => by cases h) hc₆ h₇) false

/-- The row `DoInstall` has marked as being installed, with its components. -/
theorem going_of_marked (hu : Undisturbed f others) (hf : n.flow = f) {t : FirmwareTask} {l : List FirmwareTask} {x y : Unit}
    {c₁ : Logged} (ht : c.1.tasks = t :: l) (hrows : c.1.components ≠ []) (hb : c.2.any Op.handsOver = false) (hr : c.2.any Op.storesResult = false)
    (h₁ : n.amid a others (.setFlow (.executorTasks { t with isExistTask := true })) c = some (x, c₁))
    (h₂ : n.amid a others (.updateTasks .installExecutor t.taskId (.progress .updating 0)) c₁ = some (y, c')) :
    Going f t.taskId false c' := by
  obtain ⟨-, hs₁, hl₁⟩ := step_amid h₁
  obtain ⟨-, hs₂, hl₂⟩ := step_amid h₂
  obtain ⟨ht₀, hc₀, -⟩ := hu c.2 c.1
  obtain ⟨ht₁, hc₁, hf₁⟩ := hu c₁.2 c₁.1
  have htasks : (others c₁.2 c₁.1).tasks = t :: l := by
    rw [ht₁, hs₁]
    exact ht₀.trans ht
  refine ⟨?_, ?_, ?_, ?_, ?_⟩
  · rw [hl₂, hl₁, List.any_append, List.any_append, hb]
    rfl
  · rw [hl₂, hl₁, List.any_append, List.any_append, hr]
    rfl
  · rw [hs₂]
    show (others c₁.2 c₁.1).components ≠ []
    rw [hc₁, hs₁]
    show (others c.2 c.1).components ≠ []
    rw [hc₀]
    exact hrows
  · rw [hs₂]
    refine ⟨{ t with status := .updating, progress := 0 }, l.map fun r =>
      if r.taskId = t.taskId then TaskUpdate.apply r (.progress .updating 0) else r, ?_, rfl, rfl⟩
    simp only [Op.after, Op.effect, htasks, List.map_cons, if_true]
    rfl
  · rw [hs₂]
    show ((others c₁.2 c₁.1).flows f).executorTasks.taskId = t.taskId
    rw [hf₁, hs₁, ← hf]
    show ((Function.update (others c.2 c.1).flows n.flow _) n.flow).executorTasks.taskId = _
    rw [Function.update_self]
    rfl

/-- `DoInstall`, from any store with a task. -/
theorem doInstall_always (hu : Undisturbed f others) (hf : n.flow = f) {s : State} {t : FirmwareTask} {l : List FirmwareTask}
    (ht : s.tasks = t :: l) (o : UpgradeOptions) :
    (FirmwareInstallExecutor.doInstall P f o .updater).Always (n.amid a others) (s, []) Timely := by
  have hnew : Before (s, []) := rfl
  refine ⟨hnew.timely, fun rows c₁ h₁ => ?_⟩
  obtain ⟨ha₁, hs₁, hl₁⟩ := step_amid h₁
  have hrows : rows = s.components := by
    rw [← Option.some.inj ha₁]
    exact (hu [] s).2.1
  show Prog.Always _ (if rows.isEmpty = true then _ else _) c₁ _
  split
  · have hfail (w : Flow) : Kinds ([.assign, .publish] ++ installKinds)
        (call (.setFlow (.installCallbackInfo
            { w.installCallbackInfo with progress := { status := .updateFail, endReason := "no task" } })) >>= fun _ =>
          FirmwareFlowManager.onInstallCallback P f o .updater
            { w.installCallbackInfo with progress := { status := .updateFail, endReason := "no task" } }) :=
      ⟨rfl, fun _ => (onInstallCallback_kinds P f o .updater _).mono rfl⟩
    have hc₁ : Before c₁ := before_step (fun h => by cases h) hnew h₁
    exact before_always (l := [.assign, .publish] ++ installKinds) ⟨rfl, fun w => hfail w⟩ rfl hc₁
  · rename_i hne
    have hc₁ : Before c₁ := before_step (fun h => by cases h) hnew h₁
    refine ⟨hc₁.timely, fun tasks c₂ h₂ => ?_⟩
    obtain ⟨ha₂, hs₂, hl₂⟩ := step_amid h₂
    have hc₂ : Before c₂ := before_step (fun h => by cases h) hc₁ h₂
    have htasks₁ : c₁.1.tasks = t :: l := by
      rw [hs₁]
      exact (hu [] s).1.trans ht
    have htasks : tasks = t :: l := by
      rw [← Option.some.inj ha₂]
      exact (hu c₁.2 c₁.1).1.trans htasks₁
    subst htasks
    have htasks₂ : c₂.1.tasks = t :: l := by
      rw [hs₂]
      exact (hu c₁.2 c₁.1).1.trans htasks₁
    have hcomponents₂ : c₂.1.components ≠ [] := by
      rw [hs₂]
      show (others c₁.2 c₁.1).components ≠ []
      rw [(hu c₁.2 c₁.1).2.1, hs₁]
      show (others [] s).components ≠ []
      rw [(hu [] s).2.1, ← hrows]
      simpa using hne
    have hlog : c₂.2.any Op.storesResult = false := by
      rw [hl₂, hl₁]
      rfl
    refine ⟨hc₂.timely, fun _ c₃ h₃ => ?_⟩
    have hc₃ : Before c₃ := before_step (fun h => by cases h) hc₂ h₃
    refine ⟨hc₃.timely, fun _ c₄ h₄ => ?_⟩
    have hc₄ := going_of_marked hu hf htasks₂ hcomponents₂ hc₂ hlog h₃ h₄
    have hloop : Kinds [.rows] (rows.forM fun component =>
        FirmwareComponentOperator.updateProgressByUrl .installExecutor component.url
          (FirmwareInstallExecutor.startStatus .updater) 0) :=
      Prog.uses_forM _ _ fun _ _ => updateProgressByUrl_kinds rfl
    show Prog.Always _ (List.forM rows _ >>= fun _ => FirmwareInstallExecutor.startInstall P f o .updater t.taskId rows) c₄ _
    refine Prog.Always.seq (going_always hu hloop rfl hc₄) (fun _ h => h.timely) ?_
    intro _ c₅ hc₅
    exact startInstall_always hu hf hc₅ o rows

end HandOverAux

open HandOverAux in
/-- The updater is handed a task over and reboots the device, at any instant of the flow. The next start evaluates the result and does
not install the task again exactly when it is a boot and `HandleInstallResult` has not stored the result yet. -/
theorem handed_over_survives (P : Platform) {f : Nat} {others : List Op → State → State} (hu : Undisturbed f others)
    (o : UpgradeOptions) {s : State} (hs : s.tasks ≠ []) (m : Nat) {c : Logged}
    (hc : c = (FirmwareInstallExecutor.doInstall P f o .updater).cut
      ((Thread.installExecutor f o .updater).amid (.bool true) others) m (s, []))
    (handed : c.2.any Op.handsOver = true) (startupReason : StartupReason) (free : UInt64) :
    Survives P startupReason free (others c.2 c.1).store ↔
      startupReason = .deviceReboot ∧ c.2.any Op.storesResult = false := by
  obtain ⟨t, l, ht⟩ := List.exists_cons_of_ne_nil hs
  obtain ⟨hstored, hrows⟩ := hc ▸ (doInstall_always (n := .installExecutor f o .updater) hu rfl ht o).cut m <| hc ▸ handed
  have hstatus : (others c.2 c.1).store.state.status = c.1.status := by
    show (others c.2 c.1).tasks.head?.map _ = _
    rw [(hu c.2 c.1).1]
    rfl
  have hcomponents : (others c.2 c.1).store.components = c.1.components := (hu c.2 c.1).2.1
  rw [survives_iff, hstatus, hcomponents]
  constructor
  · rintro ⟨hr, hupdating, -⟩
    exact ⟨hr, hstored.mpr hupdating⟩
  · rintro ⟨hr, hno⟩
    have hupdating := hstored.mp hno
    exact ⟨hr, hupdating, hrows hupdating⟩

namespace HandOverAux

/-- The phone has downloaded its version, and the updater is ordered to install it. -/
def phoneOrdered : List (Thread × Nat) := phoneChecks ++
  [(.download 2 {}, 10), (.downloadExecutor 2 {}, 10), (phoneThread 2, 29), (.upgrade 3 {}, 13)]

/-- The executor of the phone after a number of operations, none of them disturbed. -/
def phoneInstall (m : Nat) (s : State) : Logged :=
  (FirmwareInstallExecutor.doInstall .phone 3 {} .updater).cut
    ((Thread.installExecutor 3 {} .updater).amid (.bool true) fun _ s => s) m (s, [])

theorem undisturbed_id (f : Nat) : Undisturbed f fun _ s => s := fun _ _ => ⟨rfl, rfl, rfl⟩

end HandOverAux

open HandOverAux in
/-- The phone goes down right after the hand-over. -/
theorem handed_over_survives_phone : ∃ c₀ m, Reach (machine .phone) (fun _ _ => True) (Store.boot {}) c₀ ∧
    (phoneInstall m c₀.state).2.any Op.handsOver = true ∧
    Survives .phone .deviceReboot 0 (phoneInstall m c₀.state).1.store := by
  have h : ((machine .phone).follow (fun _ _ => true)
      ((machine .phone).turns favourable (turnsOf phoneOrdered) (Store.boot {})) (Store.boot {})).any (fun c =>
        !c.state.tasks.isEmpty && (phoneInstall 12 c.state).2.any Op.handsOver &&
          !(phoneInstall 12 c.state).2.any Op.storesResult) = true := by decide +kernel
  obtain ⟨c₀, hc₀, hp⟩ := Reach.exists_of_follow h
  simp only [Bool.and_eq_true, Bool.not_eq_true'] at hp
  obtain ⟨⟨htasks, handed⟩, hno⟩ := hp
  refine ⟨c₀, 12, hc₀.mono fun _ _ _ => trivial, handed, ?_⟩
  exact (handed_over_survives .phone (undisturbed_id 3) {} (by simpa using htasks) 12 rfl handed .deviceReboot 0).mpr ⟨rfl, hno⟩

open HandOverAux in
/-- The phone goes down when the flow has stored its own result: the next boot does not evaluate the one of the updater. -/
theorem handed_over_rolled_back : ¬ ∀ c₀ m free, Reach (machine .phone) (fun _ _ => True) (Store.boot {}) c₀ →
    c₀.started (.installExecutor 3 {} .updater) → (phoneInstall m c₀.state).2.any Op.handsOver = true →
    Survives .phone .deviceReboot free (phoneInstall m c₀.state).1.store := by
  intro hall
  have h : ((machine .phone).follow (fun _ _ => true)
      ((machine .phone).turns favourable (turnsOf phoneOrdered) (Store.boot {})) (Store.boot {})).any (fun c =>
        c.started (.installExecutor 3 {} .updater) && (phoneInstall 19 c.state).2.any Op.handsOver &&
          (phoneInstall 19 c.state).1.store.state.status = some .installSuccess) = true := by decide +kernel
  obtain ⟨c₀, hc₀, hp⟩ := Reach.exists_of_follow h
  simp only [Bool.and_eq_true, decide_eq_true_eq] at hp
  obtain ⟨⟨hstarted, handed⟩, hstatus⟩ := hp
  obtain ⟨-, hupdating, -⟩ := (survives_iff ..).mp (hall c₀ 19 0 (hc₀.mono fun _ _ _ => trivial) hstarted handed)
  rw [hstatus] at hupdating
  cases hupdating

end UpdateEngine
