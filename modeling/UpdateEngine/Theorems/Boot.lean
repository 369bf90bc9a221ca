import UpdateEngine.Lemmas.AloneAux
import UpdateEngine.Lemmas.FlowsAux

/-!
# The work after a start

`DelayInit`, run before any request arrives, on whatever an earlier process left: the verdict on an installation by the updater, and
what the recovery makes of each stored status.
-/

namespace UpdateEngine

open Concurrent KindsAux AloneAux

namespace BootAux

/-! ## What can be stored -/

/-- Every version in the task table holds a HOTA package. -/
def Hota (tasks : List FirmwareTask) : Prop := ∀ t ∈ tasks, t.combinationType = .hota

variable {P : Platform}

/-- An operation of a thread keeps to such versions. -/
theorem hota_after {n : Thread} {r : Role} {o : Op} {x : o.Res} {s : State} (h : Hota s.tasks) (ha : Outline.allowed P n r o) :
    Hota (o.after n s x).tasks := by
  cases o with
  | insertTask t =>
    intro t' ht'
    rcases List.mem_append.mp ht' with ht' | ht'
    · exact h t' ht'
    · obtain rfl := List.mem_singleton.mp ht'
      exact ha.2.2
  | updateTasks c i u =>
    intro t' ht'
    obtain ⟨t, ht, rfl⟩ := List.mem_map.mp ht'
    have htype : (u.apply t).combinationType = t.combinationType := by cases u <;> rfl
    split
    · exact htype.trans (h t ht)
    · exact h t ht
  | deleteTasks =>
    intro t' ht'
    exact absurd ht' List.not_mem_nil
  | openFile p | saveDataToFile p d | awaitWake i => cases x <;> exact h
  | enter m => cases m <;> exact h
  | _ => exact h

/-- On every run from such versions there are only such versions. -/
theorem hota_invariant {d : Store} (h : Hota d.tasks) : Invariant P d (fun _ _ => True) fun s _ => Hota s.tasks where
  init := h
  start := by
    intro c ρ n s _ _ hJ _ _ hs
    rcases FlowsAux.starts_cases hs with ⟨-, rfl, -⟩ | ⟨rfl, -, -⟩ <;> exact hJ
  run := by
    intro c ρ n r o x a _ _ hJ _ _ _ ha _ _ _ _
    exact hota_after hJ ha
  spawn := fun _ _ _ _ _ _ _ _ hJ _ _ _ _ _ _ => hJ
  retire := fun _ _ _ _ hJ _ _ => hJ

/-- Every version a device can be left with holds a HOTA package. -/
theorem hota_of_left {d : Store} (h : Left P d) : Hota d.tasks := by
  induction h with
  | new ht hc =>
    rw [ht]
    intro t h
    exact absurd h List.not_mem_nil
  | @stopped d startupReason c _ hc ih =>
    have hinit : Hota (FirmwareManager.init startupReason d).tasks := by
      unfold FirmwareManager.init
      split
      · intro t h
        exact absurd h List.not_mem_nil
      · exact ih
    obtain ⟨-, -, -, hJ⟩ := (hota_invariant hinit).holds hc
    exact hJ
  | elsewhere _ ht _ ih =>
    rw [ht]
    exact ih

end BootAux

open BootAux

/-! ## The verdict on an installation by the updater -/

/-- After a boot, a version that was being installed by the updater is judged, whatever the file of the updater says: clients are
told once, with the id of its task and a version component for each stored component, and both tables are emptied. -/
theorem boot_verdict {P : Platform} {s : State} {n : Thread} {t : FirmwareTask} {l : List FirmwareTask} (hleft : Left P s.store)
    (hs : s.stopped = false) (ht : s.tasks = t :: l) (hstatus : t.status = .updating) :
    ∃ s' e, (FirmwareManager.handleBootComplete P).run (n.alone .none) s = (some (), s') ∧ s'.events = s.events ++ [e] ∧
      (e.eventId = .upgradeSuccess ∨ e.eventId = .upgradeFail) ∧ e.taskBody.versionDigest = t.taskId ∧
      e.taskBody.versionComponents = s.components.map FirmwareManager.bootVersionComponent ∧
      s'.tasks = [] ∧ s'.components = [] := by
  have hota : t.combinationType = .hota := by
    refine hota_of_left hleft t ?_
    show t ∈ s.tasks
    rw [ht]
    exact List.mem_cons_self ..
  obtain ⟨_, s', hrun, e, he, preferences, h⟩ := Prog.ends_iff_run.mp (handleBootComplete_ends (P := P) (n := n) (a := .none)
    hs ht hstatus hota)
  have hevents : s'.events = s.events ++ [e] := by
    have := congrArg State.events h
    exact this
  refine ⟨s', e, hrun, hevents, ?_, ?_, ?_, tasks_eq h, components_eq h⟩
  · rcases he with rfl | ⟨message, rfl⟩
    · exact .inl rfl
    · exact .inr rfl
  · rcases he with rfl | ⟨message, rfl⟩ <;> rfl
  · rcases he with rfl | ⟨message, rfl⟩ <;> rfl

/-- The phone is switched off while the updater installs a version, and judges it after the boot. -/
theorem boot_verdict_phone : ∃ s t l, Left .phone s.store ∧ s.tasks = t :: l ∧ t.status = .updating ∧
    ∃ s' e, (FirmwareManager.handleBootComplete .phone).run ((Thread.delayInit 0 .deviceReboot).alone .none) s = (some (), s') ∧
      s'.events = s.events ++ [e] ∧ (e.eventId = .upgradeSuccess ∨ e.eventId = .upgradeFail) ∧
      e.taskBody.versionDigest = t.taskId ∧ e.taskBody.versionComponents = s.components.map FirmwareManager.bootVersionComponent ∧
      s'.tasks = [] ∧ s'.components = [] := by
  have h : ((machine .phone).follow (fun _ _ => true)
      ((machine .phone).turns favourable (turnsOf phoneInstalls) (Store.boot {})) (Store.boot {})).any (fun c =>
        c.state.status = some .updating && !c.state.stopped) = true := by decide +kernel
  obtain ⟨c, hc, hp⟩ := Reach.exists_of_follow h
  simp only [Bool.and_eq_true, decide_eq_true_eq, Bool.not_eq_true'] at hp
  have hleft : Left .phone c.state.store := .first (hc.mono fun _ _ _ => trivial)
  obtain ⟨t, ht, hstatus⟩ := Option.map_eq_some_iff.mp hp.1
  obtain ⟨l, hl⟩ := List.head?_eq_some_iff.mp ht
  exact ⟨c.state, t, l, hleft, hl, hstatus, boot_verdict hleft hp.2 hl hstatus⟩

/-! ## The recovery -/

/-- Whether the work after a start that happens for a reason leads a task with a status out of it, or finds it well. (The statuses
that are left out besides `DOWNLOAD_CANCEL` are never stored.) -/
def UpgradeStatus.isRecovered (startupReason : StartupReason) (s : UpgradeStatus) : Bool :=
  startupReason = .processEnvReset || s.isAccepted || s = .downloading || s = .downloadPause || s = .installing ||
    (s = .updating && startupReason = .deviceReboot)

/-- The state in which the work after a start begins. -/
def Store.started (startupReason : StartupReason) (d : Store) : State :=
  { (FirmwareManager.init startupReason d).state with nextFlow := 1 }

/-- The work after a start comes to an end and leaves no task stuck. -/
def Recovers (P : Platform) (startupReason : StartupReason) (free : UInt64) (d : Store) : Prop :=
  (FirmwareManager.delayInit P 0 startupReason).Ends ((Thread.delayInit 0 startupReason).alone (.space free))
    (d.started startupReason) fun _ s' => Settled (.delayInit 0 startupReason) s'

namespace BootAux

variable {n : Thread} {s s' : State} {a : Answer}

/-- A task that is settled stays so. -/
theorem settled_of_kept (h : Settled n s) (hk : Kept n s s') : Settled n s' := by
  rcases h with h | h | h
  · exact .inl ⟨hk.tasks.trans h.1, hk.components.trans h.2⟩
  · exact .inr (.inl (hk.nextStep.trans h))
  · refine .inr (.inr ?_)
    rw [hk.status]
    exact h

/-- What the recovery keeps to, besides what it is for: versions of the HOTA kind, and the lock of the network listeners free. -/
structure Calm (s : State) : Prop where
  hota : Hota s.tasks
  unlocked : s.netChangeLocked = false

/-- Operations that add no task and do not lock keep it. -/
theorem calm_after (o : Op) (x : o.Res) (s : State) (ho : o.kind ≠ .insert) (hl : o.kind ≠ .listen) (h : Calm s) :
    Calm (o.after n s x) := by
  cases o with
  | insertTask t => exact absurd rfl ho
  | lockNetChange => exact absurd rfl hl
  | updateTasks c i u =>
    refine ⟨?_, h.unlocked⟩
    intro t' ht'
    obtain ⟨t, ht, rfl⟩ := List.mem_map.mp ht'
    have htype : (u.apply t).combinationType = t.combinationType := by cases u <;> rfl
    split
    · exact htype.trans (h.hota t ht)
    · exact h.hota t ht
  | deleteTasks => exact ⟨fun t ht => absurd ht List.not_mem_nil, h.unlocked⟩
  | openFile p | saveDataToFile p d | awaitWake i => cases x <;> exact ⟨h.hota, h.unlocked⟩
  | enter m => cases m <;> exact ⟨h.hota, h.unlocked⟩
  | unlockNetChange => exact ⟨h.hota, rfl⟩
  | _ => exact ⟨h.hota, h.unlocked⟩

/-- `HandleBootComplete` either leaves the tables alone or empties them. -/
theorem handleBootComplete_cases (hs : s.stopped = false) (h : Hota s.tasks) :
    (FirmwareManager.handleBootComplete P).Ends (n.alone a) s fun _ s' =>
      Kept n s s' ∨ (s'.tasks = [] ∧ s'.components = []) := by
  by_cases hu : s.status = some .updating
  · obtain ⟨t, ht, hstatus⟩ := Option.map_eq_some_iff.mp hu
    obtain ⟨l, hl⟩ := List.head?_eq_some_iff.mp ht
    have hota : t.combinationType = .hota := h t (by rw [hl]; exact List.mem_cons_self ..)
    refine (handleBootComplete_ends hs hl hstatus hota).mono ?_
    rintro _ s' ⟨e, -, preferences, h⟩
    exact .inr ⟨tasks_eq h, components_eq h⟩
  · refine (handleBootComplete_ends_of_ne hs hu).mono ?_
    intro _ s' h
    exact .inl (kept_of_bare h)

/-- The listener is registered, and clients are told that the service is there. -/
theorem announce_ends (hs : s.stopped = false) (hl : s.netChangeLocked = false) :
    (call .registerNetChangedListener >>= fun _ => FirmwareManager.notifyInitEvent).Ends (n.alone a) s fun _ s' =>
      Kept n s s' := by
  refine ends_via hs (x := ()) (by simp [Op.answer, hl]) { s.bare with netChangedListener := true } rfl ?_
  intro s₁ h₁
  have hk : Kept n s s₁ := by
    have hflows := congrArg State.flows h₁
    have hstopped := congrArg State.stopped h₁
    exact ⟨hstopped, (tasks_eq h₁ :), (components_eq h₁ :), congrArg (fun w : Nat → Flow => (w n.flow).nextStep) hflows⟩
  refine (Kinds.kept notifyInitEvent_kinds rfl (hk.stopped.trans hs)).mono ?_
  intro _ s₂ h₂
  exact hk.trans h₂

/-- `RestoreUpdate` preserves what operations preserve that add no rows and do not concern the network listeners. -/
theorem restoreUpdate_preserving {I : State → Prop} {Q : Unit → State → Prop}
    (hI : ∀ (o : Op) (x : o.Res) (s : State), o.kind ≠ .insert → o.kind ≠ .listen → I s → I (o.after n s x)) (hs : I s) {f : Nat}
    (h : (FirmwareManager.restoreUpdate P f).Ends (n.alone a) s Q) :
    (FirmwareManager.restoreUpdate P f).Ends (n.alone a) s fun v s' => I s' ∧ Q v s' := by
  refine Prog.Ends.preserving ?_ (restoreUpdate_kinds P f) hs h
  intro o s x s' ho hs hx
  obtain ⟨-, -, rfl⟩ := exec_eq_some hx
  refine hI o x s ?_ ?_ hs
  · intro hk
    rw [hk] at ho
    exact absurd ho (by decide)
  · intro hk
    rw [hk] at ho
    exact absurd ho (by decide)

/-- Without a task there is nothing to recover. -/
theorem restoreUpdate_ends_nil (hs : s.stopped = false) (ht : s.tasks = []) (f : Nat) :
    (FirmwareManager.restoreUpdate P f).Ends (n.alone a) s fun _ s' => s'.bare = s.bare := by
  refine Prog.Ends.seq (queryTask_ends hs _ _) ?_
  rintro _ s₁ ⟨rfl, h₁⟩
  rw [ht]
  exact h₁

/-- `DelayInit` after the recovery. -/
def rest (P : Platform) (startupReason : StartupReason) : Prog Unit :=
  (call .registerNetChangedListener >>= fun _ => FirmwareManager.notifyInitEvent) >>= fun _ =>
    FirmwareManager.handleEvent P (if startupReason = .deviceReboot then .bootComplete else .processInit)

/-- It leaves a settled task settled. -/
theorem rest_settled (hs : s.stopped = false) (hc : Calm s) (h : Settled n s) (startupReason : StartupReason) :
    (rest P startupReason).Ends (n.alone a) s fun _ s' => Settled n s' := by
  refine Prog.Ends.seq (announce_ends hs hc.unlocked) ?_
  intro _ s₁ h₁
  have hs₁ : s₁.stopped = false := h₁.stopped.trans hs
  split
  · have hota : Hota s₁.tasks := by
      rw [h₁.tasks]
      exact hc.hota
    refine (handleBootComplete_cases hs₁ hota).mono ?_
    rintro _ s₂ (h₂ | h₂)
    · exact settled_of_kept (settled_of_kept h h₁) h₂
    · exact .inl h₂
  · exact settled_of_kept h h₁

/-- After a boot it judges an installation by the updater. -/
theorem rest_judges (hs : s.stopped = false) (hc : Calm s) (hu : s.status = some .updating) :
    (rest P .deviceReboot).Ends (n.alone a) s fun _ s' => s'.tasks = [] ∧ s'.components = [] := by
  refine Prog.Ends.seq (announce_ends hs hc.unlocked) ?_
  intro _ s₁ h₁
  obtain ⟨t, ht, hstatus⟩ := Option.map_eq_some_iff.mp (h₁.status.trans hu)
  obtain ⟨l, hl⟩ := List.head?_eq_some_iff.mp ht
  have hota : t.combinationType = .hota := by
    refine hc.hota t ?_
    rw [← h₁.tasks, hl]
    exact List.mem_cons_self ..
  refine (handleBootComplete_ends (h₁.stopped.trans hs) hl hstatus hota).mono ?_
  rintro _ s' ⟨e, -, preferences, h⟩
  exact ⟨tasks_eq h, components_eq h⟩

/-- It leaves any other task alone. -/
theorem rest_kept (hs : s.stopped = false) (hc : Calm s) {startupReason : StartupReason}
    (hu : startupReason = .deviceReboot → s.status ≠ some .updating) :
    (rest P startupReason).Ends (n.alone a) s fun _ s' => Kept n s s' := by
  refine Prog.Ends.seq (announce_ends hs hc.unlocked) ?_
  intro _ s₁ h₁
  have hs₁ : s₁.stopped = false := h₁.stopped.trans hs
  split
  · rename_i hr
    have hne : s₁.status ≠ some .updating := by
      rw [h₁.status]
      exact hu hr
    refine (handleBootComplete_ends_of_ne hs₁ hne).mono ?_
    intro _ s' h
    exact h₁.trans (kept_of_bare h)
  · exact h₁

end BootAux

/-- For every store a device can be left with that holds a task, and every startup reason: the work after the start leaves the task
unstuck exactly when it leads its status out, or finds it well, which it does not do for a download that was being cancelled, nor
for an installation by the updater unless the device was booted. -/
theorem recovery_settles {P : Platform} {d : Store} {t : FirmwareTask} {l : List FirmwareTask} (hleft : Left P d)
    (ht : d.tasks = t :: l) (startupReason : StartupReason) (free : UInt64) :
    Recovers P startupReason free d ↔ t.status.isRecovered startupReason = true := by
  have hs : (d.started startupReason).stopped = false := rfl
  have hcalm : Calm (d.started startupReason) := by
    refine ⟨?_, rfl⟩
    show Hota (FirmwareManager.init startupReason d).tasks
    unfold FirmwareManager.init
    split
    · exact fun t h => absurd h List.not_mem_nil
    · exact hota_of_left hleft
  by_cases hreset : startupReason = .processEnvReset
  · -- the tables were destroyed before the work after the start
    subst hreset
    have hempty : (d.started .processEnvReset).tasks = [] ∧ (d.started .processEnvReset).components = [] := ⟨rfl, rfl⟩
    refine iff_of_true ?_ rfl
    refine Prog.Ends.seq (restoreUpdate_preserving calm_after hcalm (restoreUpdate_ends_nil hs hempty.1 0)) ?_
    rintro _ s₁ ⟨hc₁, h₁⟩
    have hk : Kept (.delayInit 0 .processEnvReset) (d.started .processEnvReset) s₁ := kept_of_bare h₁
    exact rest_settled (hk.stopped.trans hs) hc₁ (settled_of_kept (.inl hempty) hk) _
  · have ht₀ : (d.started startupReason).tasks = t :: l := by
      show (FirmwareManager.init startupReason d).tasks = t :: l
      rw [FirmwareManager.init, if_neg hreset]
      exact ht
    have hstep : ((d.started startupReason).flows 0).nextStep = .init := rfl
    have hrestore := restoreUpdate_preserving calm_after hcalm (restoreUpdate_ends (P := P) (n := .delayInit 0 startupReason) free hs ht₀ hstep 0)
    by_cases hr : t.status.isRecovered startupReason = true
    · refine iff_of_true ?_ hr
      refine Prog.Ends.seq hrestore ?_
      rintro _ s₁ ⟨hc₁, hs₁, h₁⟩
      split at h₁
      · exact rest_settled hs₁ hc₁ h₁ startupReason
      · rename_i hno
        simp only [not_or] at hno
        have hk : Kept (.delayInit 0 startupReason) (d.started startupReason) s₁ := kept_of_bare h₁
        have hstatus : s₁.status = some t.status := by
          rw [hk.status, State.status, ht₀]
          rfl
        by_cases hacc : t.status.isAccepted = true
        · refine rest_settled hs₁ hc₁ (.inr (.inr ?_)) startupReason
          rw [hstatus]
          exact hacc
        · have hu : t.status = .updating ∧ startupReason = .deviceReboot := by
            simpa [UpgradeStatus.isRecovered, hreset, hacc, hno] using hr
          obtain ⟨hu, rfl⟩ := hu
          refine (rest_judges hs₁ hc₁ (hstatus.trans (congrArg some hu))).mono ?_
          intro _ s' h
          exact .inl h
    · refine iff_of_false ?_ hr
      have hr := hr
      simp only [UpgradeStatus.isRecovered, Bool.or_eq_true, decide_eq_true_eq, Bool.and_eq_true, not_or, not_and] at hr
      obtain ⟨⟨⟨⟨⟨-, hacc⟩, hdownloading⟩, hpause⟩, hinstalling⟩, hu⟩ := hr
      have hsuccess : t.status ≠ .installSuccess := by
        intro h
        exact hacc (by simp [UpgradeStatus.isAccepted, h])
      have hstuck : (FirmwareManager.delayInit P 0 startupReason).Ends ((Thread.delayInit 0 startupReason).alone (.space free))
          (d.started startupReason) fun _ s' => Kept (.delayInit 0 startupReason) (d.started startupReason) s' := by
        refine Prog.Ends.seq hrestore ?_
        rintro _ s₁ ⟨hc₁, hs₁, h₁⟩
        rw [if_neg (by simp [hdownloading, hpause, hinstalling, hsuccess])] at h₁
        have hk : Kept (.delayInit 0 startupReason) (d.started startupReason) s₁ := kept_of_bare h₁
        have hne : startupReason = .deviceReboot → s₁.status ≠ some .updating := by
          intro hb h
          rw [hk.status, State.status, ht₀] at h
          exact hu (Option.some.inj h) hb
        refine (rest_kept hs₁ hc₁ hne).mono ?_
        intro _ s' h
        exact hk.trans h
      intro hsettled
      obtain ⟨_, s', hsettled, hk⟩ := Prog.Ends.unique hsettled hstuck
      rcases hsettled with h | h | h
      · rw [hk.tasks, ht₀] at h
        exact List.cons_ne_nil _ _ h.1
      · rw [hk.nextStep] at h
        cases h
      · rw [hk.status, State.status, ht₀] at h
        exact hacc h

/-- After a boot the phone leaves an installation by the updater unstuck. -/
theorem recovery_settles_phone : ∃ d t l, Left .phone d ∧ d.tasks = t :: l ∧ t.status = .updating ∧
    Recovers .phone .deviceReboot 0 d := by
  have h : ((machine .phone).follow (fun _ _ => true)
      ((machine .phone).turns favourable (turnsOf phoneInstalls) (Store.boot {})) (Store.boot {})).any (fun c =>
        c.state.status = some .updating) = true := by decide +kernel
  obtain ⟨c, hc, hp⟩ := Reach.exists_of_follow h
  have hleft : Left .phone c.state.store := .first (hc.mono fun _ _ _ => trivial)
  obtain ⟨t, ht, hstatus⟩ := Option.map_eq_some_iff.mp (of_decide_eq_true hp)
  obtain ⟨l, hl⟩ := List.head?_eq_some_iff.mp ht
  refine ⟨c.state.store, t, l, hleft, hl, hstatus, (recovery_settles hleft hl .deviceReboot 0).mpr ?_⟩
  rw [hstatus]
  rfl

/-- A phone that is switched off when a download has just been stored as cancelled does not get over it: the task is neither
cleared, nor does it have a status any request is accepted from. -/
theorem cancelled_download_stuck : ¬ ∀ d startupReason free, Left .phone d → d.tasks ≠ [] →
    Recovers .phone startupReason free d := by
  intro hall
  have h : ((machine .phone).follow (fun _ _ => true)
      ((machine .phone).turns slow (turnsOf phoneCancels) (Store.boot {})) (Store.boot {})).any (fun c =>
        c.state.status = some .downloadCancel &&
          !decide (Settled (.delayInit 0 .deviceReboot) ((FirmwareManager.delayInit .phone 0 .deviceReboot).run
            ((Thread.delayInit 0 .deviceReboot).alone (.space 0)) (c.state.store.started .deviceReboot)).2)) = true := by
    decide +kernel
  obtain ⟨c, hc, hp⟩ := Reach.exists_of_follow h
  simp only [Bool.and_eq_true, decide_eq_true_eq, Bool.not_eq_true', decide_eq_false_iff_not] at hp
  obtain ⟨hstatus, hstuck⟩ := hp
  have hleft : Left .phone c.state.store := .first (hc.mono fun _ _ _ => trivial)
  have htasks : c.state.store.tasks ≠ [] := by
    intro hn
    have hn : c.state.tasks = [] := hn
    rw [State.status, hn] at hstatus
    cases hstatus
  obtain ⟨_, s', hr, hs⟩ := Prog.ends_iff_run.mp (hall c.state.store .deviceReboot 0 hleft htasks)
  rw [hr] at hstuck
  exact hstuck hs

end UpdateEngine
