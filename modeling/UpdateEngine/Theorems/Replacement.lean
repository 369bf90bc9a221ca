import UpdateEngine.Theorems.CheckFlow

/-!
# One version in the place of another

`HandleNewVersion` and `ClearFirmwareInfo` change two tables, one call of the database after the other, and look at the answer of
none. What the tables hold when a call fails, or when the process stops on the way.
-/

namespace UpdateEngine

open Concurrent KindsAux AloneAux

/-- A function that replaces the stored version, by a list of components or by none. -/
inductive Replacement where
  | handleNewVersion (componentList : List FirmwareComponent)
  | clearFirmwareInfo

namespace Replacement

/-- The text of the function. -/
def text (P : Platform) : Replacement → Prog Unit
  | handleNewVersion l => FirmwareCheckDataProcessor.handleNewVersion P l
  | clearFirmwareInfo => FirmwareUpdateHelper.clearFirmwareInfo

/-- The rows of the new version. -/
def rows : Replacement → List FirmwareComponent
  | handleNewVersion l => l.map FirmwareCheckDataProcessor.buildComponentSPath
  | clearFirmwareInfo => []

/-- `HandleNewVersion` is called with a list that is not empty. -/
def Called : Replacement → Prop
  | handleNewVersion l => l ≠ []
  | clearFirmwareInfo => True

end Replacement

/-- What goes wrong: the `m`-th operation fails, or the process stops after `m` operations. -/
inductive Trouble where
  | fails (m : Nat)
  | stops (m : Nat)

namespace Trouble

/-- The state in which a function is left, with the operations it has taken. -/
def leaves (P : Platform) (n : Thread) (r : Replacement) (s : State) : Trouble → Logged
  | fails m => ((r.text P).run (n.failing .none m) (s, [])).2
  | stops m => (r.text P).cut (Prog.logged (n.alone .none)) m (s, [])

/-- The replacement gets over the failure of an operation: anything but an insertion, and the deletion of rows there are. -/
def MayFail (s : State) : Op → Prop
  | .deleteTasks => s.tasks = []
  | .deleteComponents => s.components = []
  | .insertComponents _ | .insertTask _ => False
  | _ => True

/-- It gets over a stop right after an operation: not between the two deletions, when there are rows, and not between the two
insertions. -/
def MayStop (s : State) : Op → Prop
  | .deleteTasks => s.components = []
  | .insertComponents _ => False
  | _ => True

/-- The trouble is one the replacement gets over. -/
def Harmless (s : State) (log : List Op) : Trouble → Prop
  | fails m => ∀ o, log[m]? = some o → MayFail s o
  | stops _ => ∀ o, log.getLast? = some o → MayStop s o

end Trouble

/-- The tables hold the old version (with other URLs, maybe), none, or the new one. -/
def Represents (P : Platform) (r : Replacement) (s s' : State) : Prop :=
  (s'.tasks = s.tasks ∧ s'.components.map (·.withoutUrl) = s.components.map (·.withoutUrl)) ∨
    (s'.tasks = [] ∧ s'.components = []) ∨
    (s'.tasks = [FirmwareCheckDataProcessor.newTask P r.rows] ∧ s'.components = r.rows ∧ r.rows ≠ [])

namespace ReplacementAux

open CheckFlowAux

variable {P : Platform} {n : Thread} {s : State} {c : Logged}

/-- A version that is represented is one. -/
theorem isVersion_of_represents {r : Replacement} {s' : State} (hs : s.IsVersion P) (h : Represents P r s s') :
    s'.IsVersion P := by
  rcases h with ⟨ht, hc⟩ | h | ⟨ht, hc, hne⟩
  · have hids : s'.components.map (·.versionId) = s.components.map (·.versionId) := by
      have := congrArg (List.map (·.versionId)) hc
      rw [List.map_map, List.map_map] at this
      exact this
    rcases hs with ⟨htasks, hrows⟩ | ⟨t, htasks, hrows, hid⟩
    · refine .inl ⟨ht.trans htasks, ?_⟩
      rw [hrows] at hc
      exact List.map_eq_nil_iff.mp hc
    · refine .inr ⟨t, ht.trans htasks, ?_, hid.trans (buildTaskId_congr P hids.symm)⟩
      intro hn
      rw [hn] at hc
      exact hrows (List.map_eq_nil_iff.mp hc.symm)
  · exact .inl h
  · refine .inr ⟨_, ht, ?_, ?_⟩
    · rw [hc]
      exact hne
    · rw [hc]
      rfl

/-- The operations that leave both tables as they are, or change URLs. -/
def quiet (urls : Bool) : Op → Bool
  | .queryTasks _ | .queryComponents _ | .setFlow _ | .deleteDownloadFiles => true
  | .updateComponents .updateFirmwareComponent (.urlByVersionId _ _) => urls
  | _ => false

/-- As long as only such operations are taken, the tables are what they were, up to URLs. -/
structure Quiet (urls : Bool) (s : State) (c : Logged) : Prop where
  stopped : c.1.stopped = false
  tasks : c.1.tasks = s.tasks
  components : c.1.components.map (·.withoutUrl) = s.components.map (·.withoutUrl)
  same : urls = false → c.1.components = s.components
  log : ∀ o ∈ c.2, quiet true o = true

variable {a : Answer} {m : Nat} {urls : Bool}

/-- Such an operation never waits, and keeps it so. -/
theorem quiet_step {o : Op} (ho : quiet urls o = true) (hc : Quiet urls s c) : ∃ x, o.answer n a c.1 = some x ∧
    Quiet urls s (o.after n c.1 x, c.2 ++ [o]) := by
  have hlog : ∀ o' ∈ c.2 ++ [o], quiet true o' = true := by
    intro o' ho'
    rcases List.mem_append.mp ho' with ho' | ho'
    · exact hc.log o' ho'
    · rw [List.mem_singleton.mp ho']
      cases urls with
      | true => exact ho
      | false =>
        unfold quiet at ho ⊢
        split at ho <;> first | rfl | cases ho
  cases o with
  | queryTasks c' => exact ⟨_, rfl, hc.stopped, hc.tasks, hc.components, hc.same, hlog⟩
  | queryComponents c' => exact ⟨_, rfl, hc.stopped, hc.tasks, hc.components, hc.same, hlog⟩
  | setFlow u => exact ⟨_, rfl, hc.stopped, hc.tasks, hc.components, hc.same, hlog⟩
  | deleteDownloadFiles => exact ⟨_, rfl, hc.stopped, hc.tasks, hc.components, hc.same, hlog⟩
  | updateComponents c' u =>
    cases u with
    | progressByUrl url status progress => cases c' <;> cases ho
    | urlByVersionId versionId url =>
      have hurls : urls = true := by cases c' <;> first | exact ho | cases ho
      refine ⟨_, rfl, hc.stopped, hc.tasks, ?_, ?_, hlog⟩
      · exact (withoutUrl_update c.1.components versionId url).trans hc.components
      · intro h
        rw [hurls] at h
        cases h
  | _ => cases ho

/-- One that fails keeps it so, too. -/
theorem quiet_failing {o : Op} (ho : quiet urls o = true) (hc : Quiet urls s c) :
    ∃ x c', n.failing .none m o c = some (x, c') ∧ Quiet urls s c' := by
  obtain ⟨x, hx, h⟩ := quiet_step (n := n) (a := .none) ho hc
  have hdone : Prog.logged (n.alone .none) o c = some (x, o.after n c.1 x, c.2 ++ [o]) := by
    simp [Prog.logged, Thread.alone, exec, hc.stopped, hx]
  have hfailed : Quiet urls s (c.1, c.2 ++ [o]) := ⟨hc.stopped, hc.tasks, hc.components, hc.same, h.log⟩
  unfold Thread.failing
  split
  · exact ⟨_, _, rfl, hfailed⟩
  · exact ⟨x, _, hdone, h⟩

/-- A program of such operations, one of which may fail. -/
theorem quiet_ends {α : Type} {p : Prog α} (hp : p.Uses fun o => quiet urls o = true) (hc : Quiet urls s c) :
    p.Ends (n.failing .none m) c fun _ c' => Quiet urls s c' :=
  Prog.Ends.of_uses (fun _ _ ho hc => quiet_failing ho hc) hp hc

/-- One that is done keeps it so. -/
theorem quiet_logged {o : Op} {x : o.Res} {c' : Logged} (ho : quiet urls o = true) (hc : Quiet urls s c)
    (h : Prog.logged (n.alone .none) o c = some (x, c')) : Quiet urls s c' := by
  obtain ⟨y, hy, h'⟩ := quiet_step (n := n) (a := .none) ho hc
  obtain ⟨hx, hl⟩ := Prog.logged_eq_some h
  obtain ⟨-, hx, hs⟩ := exec_eq_some hx
  rw [hy] at hx
  cases hx
  rw [← hs, ← hl] at h'
  exact h'

/-- A program of such operations, stopped anywhere. -/
theorem quiet_always {α : Type} {p : Prog α} (hp : p.Uses fun o => quiet urls o = true) (hc : Quiet urls s c) :
    p.Always (Prog.logged (n.alone .none)) c (Quiet urls s) :=
  Prog.Always.of_uses (fun _ _ _ _ ho hc h => quiet_logged ho hc h) hp hc

/-! ## The functions -/

theorem isVersionSameWithDb_uses (l : List FirmwareComponent) :
    (FirmwareCheckDataProcessor.isVersionSameWithDb l).Uses fun o => quiet false o = true := by
  refine Prog.Uses.mono (fun o ho => ?_) (isVersionSameWithDb_kinds l)
  cases o with
  | queryTasks c | queryComponents c => rfl
  | updateTasks c i u => cases u <;> cases ho
  | updateComponents c u => cases c <;> cases ho
  | setFlow u => cases u <;> cases ho
  | ask q => cases q <;> cases ho
  | enter m => cases m <;> cases ho
  | _ => cases ho

theorem updateFirmwareComponent_uses (l : List FirmwareComponent) :
    (FirmwareCheckDataProcessor.updateFirmwareComponent l).Uses fun o => quiet true o = true := by
  have hquery : (FirmwareTaskOperator.queryTask .updateFirmwareComponent {}).Uses fun o => quiet true o = true := by
    refine ⟨rfl, fun rows => ?_⟩
    cases rows <;> trivial
  refine Prog.Uses.bind hquery fun t => ?_
  split
  · trivial
  · split
    · trivial
    · exact Prog.uses_forM l _ fun c _ => ⟨rfl, fun _ => trivial⟩

/-! ## A call that fails -/

/-- One operation of which it is known what it answers when it is done, and when it fails. -/
theorem failing_op {α : Type} {o : Op} {k : o.Res → Prog α} {x : o.Res} {Q : α → Logged → Prop} (hs : c.1.stopped = false)
    (hx : o.answer n .none c.1 = some x) (hf : o.failed = none ∨ o.failed = some x)
    (h : ∀ c', c'.2 = c.2 ++ [o] → c'.1 = (if c.2.length = m ∧ o.failed.isSome then c.1 else o.after n c.1 x) →
      (k x).Ends (n.failing .none m) c' Q) : (Prog.op o k).Ends (n.failing .none m) c Q := by
  have hdone : Prog.logged (n.alone .none) o c = some (x, o.after n c.1 x, c.2 ++ [o]) := by
    simp [Prog.logged, Thread.alone, exec, hs, hx]
  by_cases hm : c.2.length = m ∧ o.failed.isSome
  · refine ⟨x, (c.1, c.2 ++ [o]), ?_, h _ rfl (if_pos hm).symm⟩
    have hsome : o.failed = some x := by
      rcases hf with hf | hf
      · rw [hf] at hm
        exact absurd hm.2 (by simp)
      · exact hf
    simp [Thread.failing, hm.1, hsome]
  · refine ⟨x, (o.after n c.1 x, c.2 ++ [o]), ?_, h _ rfl (if_neg hm).symm⟩
    unfold Thread.failing
    rcases hf with hf | hf
    · simpa [hf] using hdone
    · have hne : c.2.length ≠ m := by
        intro he
        exact hm ⟨he, by simp [hf]⟩
      simpa [hne] using hdone

/-- What `ClearFirmwareInfo` leaves when its `m`-th operation fails: a table whose deletion failed is as it was. -/
structure Cleared (m : Nat) (s : State) (c : Logged) (log : List Op) : Prop where
  quiet : ∀ o ∈ log, quiet true o = true
  taken : c.2 = log ++ [.deleteTasks, .deleteComponents, .deleteDownloadFiles]
  stopped : c.1.stopped = false
  tasks : c.1.tasks = if log.length = m then s.tasks else []
  components : c.1.components = if log.length + 1 = m then s.components else []

theorem clearFirmwareInfo_failing (hc : Quiet false s c) :
    FirmwareUpdateHelper.clearFirmwareInfo.Ends (n.failing .none m) c fun _ c' => ∃ log, Cleared m s c' log := by
  have hquery : (FirmwareTaskOperator.queryTask .clearFirmwareInfo {}).Uses fun o => quiet false o = true := by
    refine ⟨rfl, fun rows => ?_⟩
    cases rows <;> trivial
  refine Prog.Ends.seq (quiet_ends hquery hc) ?_
  intro _ c₀ hc₀
  refine failing_op hc₀.stopped rfl (.inr rfl) ?_
  intro c₁ hl₁ hs₁
  have hc₁ : c₁.1.stopped = false ∧ c₁.1.components = s.components := by
    rw [hs₁]
    split <;> exact ⟨hc₀.stopped, hc₀.same rfl⟩
  have ht₁ : c₁.1.tasks = if c₀.2.length = m then s.tasks else [] := by
    rw [hs₁]
    by_cases hm : c₀.2.length = m
    · rw [if_pos ⟨hm, rfl⟩, if_pos hm]
      exact hc₀.tasks
    · rw [if_neg (fun h => hm h.1), if_neg hm]
      rfl
  refine failing_op hc₁.1 rfl (.inr rfl) ?_
  intro c₂ hl₂ hs₂
  have hc₂ : c₂.1.stopped = false ∧ c₂.1.tasks = c₁.1.tasks := by
    rw [hs₂]
    split <;> exact ⟨hc₁.1, rfl⟩
  have hlength : c₁.2.length = c₀.2.length + 1 := by simp [hl₁]
  have hr₂ : c₂.1.components = if c₀.2.length + 1 = m then s.components else [] := by
    rw [hs₂, hlength]
    by_cases hm : c₀.2.length + 1 = m
    · rw [if_pos ⟨hm, rfl⟩, if_pos hm]
      exact hc₁.2
    · rw [if_neg (fun h => hm h.1), if_neg hm]
      rfl
  refine failing_op hc₂.1 rfl (.inl rfl) ?_
  intro c₃ hl₃ hs₃
  rw [if_neg (fun h => by cases h.2)] at hs₃
  refine ⟨c₀.2, hc₀.log, ?_, ?_, ?_, ?_⟩
  · rw [hl₃, hl₂, hl₁]
    simp
  · rw [hs₃]
    exact hc₂.1
  · rw [hs₃]
    exact hc₂.2.trans ht₁
  · rw [hs₃]
    exact hr₂

/-- What `HandleNewVersion` leaves besides: a table whose insertion failed lacks the new rows. -/
structure Inserted (P : Platform) (m : Nat) (s : State) (c : Logged) (log : List Op) (new : List FirmwareComponent) : Prop where
  quiet : ∀ o ∈ log, quiet true o = true
  taken : ∃ u, c.2 = log ++ [.deleteTasks, .deleteComponents, .deleteDownloadFiles, .setFlow u, .insertComponents new,
    .insertTask (FirmwareCheckDataProcessor.newTask P new)]
  tasks : c.1.tasks = (if log.length = m then s.tasks else []) ++
    if log.length + 5 = m then [] else [FirmwareCheckDataProcessor.newTask P new]
  components : c.1.components = (if log.length + 1 = m then s.components else []) ++ if log.length + 4 = m then [] else new

theorem handleNewVersion_failing (hc : Quiet false s c) (l : List FirmwareComponent) :
    (FirmwareCheckDataProcessor.handleNewVersion P l).Ends (n.failing .none m) c fun _ c' => Quiet true s c' ∨
      ∃ log, Inserted P m s c' log (l.map FirmwareCheckDataProcessor.buildComponentSPath) := by
  have hquiet {c' : Logged} (h : Quiet false s c') : Quiet true s c' :=
    ⟨h.stopped, h.tasks, h.components, Bool.noConfusion, h.log⟩
  refine Prog.Ends.seq (quiet_ends (isVersionSameWithDb_uses l) hc) ?_
  intro same c₀ hc₀
  have hset : (call (.setFlow (.isSameWithDb same))).Uses fun o => quiet false o = true := ⟨rfl, fun _ => trivial⟩
  refine Prog.Ends.seq (quiet_ends hset hc₀) ?_
  intro _ c₁ hc₁
  cases same with
  | true =>
    refine (quiet_ends (updateFirmwareComponent_uses l) (hquiet hc₁)).mono ?_
    intro _ c' h
    exact .inl h
  | false =>
    show Prog.Ends _ (FirmwareUpdateHelper.clearFirmwareInfo >>= _) c₁ _
    refine Prog.Ends.seq (clearFirmwareInfo_failing hc₁) ?_
    rintro _ c₂ ⟨log, h₂⟩
    refine failing_op h₂.stopped rfl (.inl rfl) ?_
    intro c₃ hl₃ hs₃
    rw [if_neg (fun h => by cases h.2)] at hs₃
    have hc₃ : c₃.1.stopped = false ∧ c₃.1.tasks = c₂.1.tasks ∧ c₃.1.components = c₂.1.components := by
      rw [hs₃]
      exact ⟨h₂.stopped, rfl, rfl⟩
    have hlength₃ : c₃.2.length = log.length + 4 := by simp [hl₃, h₂.taken]
    refine failing_op hc₃.1 rfl (.inr rfl) ?_
    intro c₄ hl₄ hs₄
    have hc₄ : c₄.1.stopped = false ∧ c₄.1.tasks = c₂.1.tasks := by
      rw [hs₄]
      split <;> exact ⟨hc₃.1, hc₃.2.1⟩
    have hr₄ : c₄.1.components = c₂.1.components ++ if log.length + 4 = m then [] else
        l.map FirmwareCheckDataProcessor.buildComponentSPath := by
      rw [hs₄, hlength₃]
      by_cases hm : log.length + 4 = m
      · rw [if_pos ⟨hm, rfl⟩, if_pos hm, hc₃.2.2, List.append_nil]
      · rw [if_neg (fun h => hm h.1), if_neg hm, ← hc₃.2.2]
        rfl
    have hlength₄ : c₄.2.length = log.length + 5 := by simp [hl₄, hlength₃]
    refine failing_op hc₄.1 rfl (.inr rfl) ?_
    intro c₅ hl₅ hs₅
    refine .inr ⟨log, h₂.quiet, ⟨.componentList (l.map FirmwareCheckDataProcessor.buildComponentSPath), ?_⟩, ?_, ?_⟩
    · rw [hl₅, hl₄, hl₃, h₂.taken]
      simp
    · rw [hs₅, hlength₄, ← h₂.tasks, ← hc₄.2]
      by_cases hm : log.length + 5 = m
      · rw [if_pos ⟨hm, rfl⟩, if_pos hm, List.append_nil]
      · rw [if_neg (fun h => hm h.1), if_neg hm]
        rfl
    · rw [← h₂.components, ← hr₄, hs₅]
      split <;> rfl

theorem mayFail_of_quiet {o : Op} (ho : quiet true o = true) : Trouble.MayFail s o := by
  cases o with
  | insertTask t | deleteTasks | insertComponents l | deleteComponents => cases ho
  | _ => trivial

/-- What stands before the deletions is harmless. -/
theorem fails_harmless_before {log rest : List Op} (hq : ∀ o ∈ log, quiet true o = true) (hm : m < log.length) :
    (Trouble.fails m).Harmless s (log ++ rest) := by
  intro o ho
  rw [List.getElem?_append_left hm] at ho
  exact mayFail_of_quiet (hq o (List.mem_of_getElem? ho))

/-- A version that is not there has no rows. -/
theorem components_nil (hs : s.IsVersion P) : s.components = [] ↔ s.tasks = [] := by
  rcases hs with ⟨ht, hc⟩ | ⟨t, ht, hc, -⟩
  · simp [ht, hc]
  · simp [ht, hc]

/-- The operation that fails is harmless exactly when it is one of those that may fail. -/
theorem fails_iff {log rest : List Op} {j : Nat} {o : Op} (ho : rest[j]? = some o) :
    (Trouble.fails (log.length + j)).Harmless s (log ++ rest) ↔ Trouble.MayFail s o := by
  have hat : (log ++ rest)[log.length + j]? = some o := by
    rw [List.getElem?_append_right (Nat.le_add_right ..), Nat.add_sub_cancel_left, ho]
  constructor
  · intro h
    exact h o hat
  · intro h o' ho'
    rw [hat] at ho'
    rw [← Option.some.inj ho']
    exact h

/-- When there is no such operation, nothing fails. -/
theorem fails_none {log rest : List Op} {j : Nat} (hj : rest.length ≤ j) :
    (Trouble.fails (log.length + j)).Harmless s (log ++ rest) := by
  intro o ho
  rw [List.getElem?_eq_none (by simp only [List.length_append]; omega)] at ho
  cases ho

theorem fails_of_cleared {log : List Op} (hs : s.IsVersion P) (h : Cleared m s c log) :
    Represents P .clearFirmwareInfo s c.1 ↔ (Trouble.fails m).Harmless s c.2 := by
  have hempty (ht : c.1.tasks = []) (hc : c.1.components = []) : Represents P .clearFirmwareInfo s c.1 := .inr (.inl ⟨ht, hc⟩)
  have ht := h.tasks
  have hc := h.components
  rw [h.taken]
  by_cases hm : m < log.length
  · rw [if_neg (by omega)] at ht hc
    exact iff_of_true (hempty ht hc) (fails_harmless_before h.quiet hm)
  · obtain ⟨j, rfl⟩ := Nat.exists_eq_add_of_le (Nat.le_of_not_lt hm)
    match j with
    | 0 =>
      rw [fails_iff rfl]
      rw [if_pos (by omega)] at ht
      rw [if_neg (by omega)] at hc
      constructor
      · rintro (⟨-, hrows⟩ | ⟨htasks, -⟩ | ⟨-, -, hne⟩)
        · rw [hc] at hrows
          exact (components_nil hs).mp (List.map_eq_nil_iff.mp hrows.symm)
        · exact ht.symm.trans htasks
        · exact absurd rfl hne
      · intro hnone
        exact hempty (ht.trans hnone) hc
    | 1 =>
      rw [fails_iff rfl]
      rw [if_neg (by omega)] at ht
      rw [if_pos rfl] at hc
      constructor
      · rintro (⟨htasks, -⟩ | ⟨-, hrows⟩ | ⟨-, -, hne⟩)
        · exact (components_nil hs).mpr (htasks.symm.trans ht)
        · exact hc.symm.trans hrows
        · exact absurd rfl hne
      · intro hnone
        exact hempty ht (hc.trans hnone)
    | 2 =>
      rw [fails_iff rfl]
      rw [if_neg (by omega)] at ht hc
      exact iff_of_true (hempty ht hc) trivial
    | j + 3 =>
      rw [if_neg (by omega)] at ht hc
      exact iff_of_true (hempty ht hc) (fails_none (Nat.le_add_left ..))

/-- Between nothing and the new version, with some rows and no task or the other way round, the tables hold no version. -/
theorem not_represents {l : List FirmwareComponent} {s' : State} (hs : s.IsVersion P)
    (h : s'.tasks = [] ∧ s'.components ≠ [] ∨ s'.tasks ≠ [] ∧ s'.components = []) :
    ¬ Represents P (.handleNewVersion l) s s' := by
  rintro (⟨htasks, hrows⟩ | ⟨htasks, hrows⟩ | ⟨htasks, hrows, hne⟩)
  · rcases h with ⟨ht, hc⟩ | ⟨ht, hc⟩
    · have hold := (components_nil hs).mpr (htasks.symm.trans ht)
      rw [hold] at hrows
      exact hc (List.map_eq_nil_iff.mp hrows)
    · rw [hc] at hrows
      exact ht (htasks.trans ((components_nil hs).mp (List.map_eq_nil_iff.mp hrows.symm)))
  · rcases h with ⟨-, hc⟩ | ⟨ht, -⟩
    · exact hc hrows
    · exact ht htasks
  · rcases h with ⟨ht, -⟩ | ⟨-, hc⟩
    · rw [ht] at htasks
      cases htasks
    · exact hne (hrows.symm.trans hc)

theorem fails_of_inserted {log : List Op} {l : List FirmwareComponent} (hs : s.IsVersion P) (hl : l ≠ [])
    (h : Inserted P m s c log (l.map FirmwareCheckDataProcessor.buildComponentSPath)) :
    Represents P (.handleNewVersion l) s c.1 ↔ (Trouble.fails m).Harmless s c.2 := by
  let new := l.map FirmwareCheckDataProcessor.buildComponentSPath
  have hne : new ≠ [] := by simpa [new] using hl
  have hnew (ht : c.1.tasks = [FirmwareCheckDataProcessor.newTask P new]) (hc : c.1.components = new) :
      Represents P (.handleNewVersion l) s c.1 := .inr (.inr ⟨ht, hc, hne⟩)
  obtain ⟨u, htaken⟩ := h.taken
  have ht := h.tasks
  have hc := h.components
  rw [htaken]
  by_cases hm : m < log.length
  · rw [if_neg (by omega), if_neg (by omega)] at ht hc
    exact iff_of_true (hnew ht hc) (fails_harmless_before h.quiet hm)
  · obtain ⟨j, rfl⟩ := Nat.exists_eq_add_of_le (Nat.le_of_not_lt hm)
    match j with
    | 0 =>
      rw [fails_iff rfl]
      rw [if_pos (by omega), if_neg (by omega)] at ht
      rw [if_neg (by omega), if_neg (by omega)] at hc
      constructor
      · rintro (⟨htasks, -⟩ | ⟨htasks, -⟩ | ⟨htasks, -⟩)
        · rw [ht] at htasks
          exact absurd (congrArg List.length htasks) (by simp)
        · rw [ht] at htasks
          exact absurd (congrArg List.length htasks) (by simp)
        · rw [ht] at htasks
          exact List.eq_nil_of_length_eq_zero (by simpa using congrArg List.length htasks)
      · intro hnone
        rw [hnone] at ht
        exact hnew ht hc
    | 1 =>
      rw [fails_iff rfl]
      rw [if_neg (by omega), if_neg (by omega)] at ht
      rw [if_pos rfl, if_neg (by omega)] at hc
      constructor
      · rintro (⟨-, hrows⟩ | ⟨htasks, -⟩ | ⟨-, hrows, -⟩)
        · rw [hc] at hrows
          exact absurd (congrArg List.length hrows) (by simpa using hl)
        · rw [ht] at htasks
          cases htasks
        · rw [hc] at hrows
          exact List.append_left_eq_self.mp hrows
      · intro hnone
        rw [hnone] at hc
        exact hnew ht hc
    | 2 | 3 =>
      rw [fails_iff rfl]
      rw [if_neg (by omega), if_neg (by omega)] at ht hc
      exact iff_of_true (hnew ht hc) trivial
    | 4 =>
      rw [fails_iff rfl]
      rw [if_neg (by omega), if_neg (by omega)] at ht
      rw [if_neg (by omega), if_pos rfl] at hc
      exact iff_of_false (not_represents hs (.inr ⟨by simp [ht], hc⟩)) id
    | 5 =>
      rw [fails_iff rfl]
      rw [if_neg (by omega), if_pos rfl] at ht
      rw [if_neg (by omega), if_neg (by omega)] at hc
      exact iff_of_false (not_represents hs (.inl ⟨ht, by simpa [hc] using hl⟩)) id
    | j + 6 =>
      rw [if_neg (by omega), if_neg (by omega)] at ht hc
      exact iff_of_true (hnew ht hc) (fails_none (Nat.le_add_left ..))

theorem fails_of_quiet {r : Replacement} (h : Quiet true s c) :
    Represents P r s c.1 ↔ (Trouble.fails m).Harmless s c.2 :=
  iff_of_true (.inl ⟨h.tasks, h.components⟩) fun o ho => mayFail_of_quiet (h.log o (List.mem_of_getElem? ho))

/-! ## A stop -/

/-- What is to be shown of every instant. -/
def Timely (P : Platform) (r : Replacement) (s : State) (c : Logged) : Prop :=
  Represents P r s c.1 ↔ ∀ o, c.2.getLast? = some o → Trouble.MayStop s o

/-- The last operation decides. -/
theorem timely_of_last {r : Replacement} {log : List Op} {o : Op} (hl : c.2 = log ++ [o])
    (h : Represents P r s c.1 ↔ Trouble.MayStop s o) : Timely P r s c := by
  unfold Timely
  rw [hl, List.getLast?_concat]
  constructor
  · intro hr o' ho'
    rw [← Option.some.inj ho']
    exact h.mp hr
  · intro hm
    exact h.mpr (hm o rfl)

theorem Quiet.timely {r : Replacement} (h : Quiet urls s c) : Timely P r s c := by
  refine iff_of_true (.inl ⟨h.tasks, h.components⟩) fun o ho => ?_
  have hq := h.log o (List.mem_of_getLast? ho)
  cases o with
  | deleteTasks | insertComponents l => cases hq
  | _ => trivial

/-- One operation, with the log. -/
theorem step_logged {o : Op} {x : o.Res} {c' : Logged} (h : Prog.logged (n.alone .none) o c = some (x, c')) :
    c'.1 = o.after n c.1 x ∧ c'.2 = c.2 ++ [o] := by
  obtain ⟨hx, hl⟩ := Prog.logged_eq_some h
  obtain ⟨-, -, hs⟩ := exec_eq_some hx
  exact ⟨hs, hl⟩

/-- Both tables are empty. -/
def Empty (c : Logged) : Prop := c.1.tasks = [] ∧ c.1.components = []

theorem Empty.represents {r : Replacement} (h : Empty c) : Represents P r s c.1 := .inr (.inl h)

/-- `ClearFirmwareInfo` and what follows, stopped anywhere, from tables that are as they were. -/
theorem cleared_always {r : Replacement} {f : Unit → Prog Unit} (hc : Quiet false s c)
    (hr : ∀ c' : Logged, c'.1.tasks = [] → c'.1.components = s.components → (Represents P r s c'.1 ↔ s.components = []))
    (hf : ∀ c' : Logged, Empty c' → c'.2.getLast? = some .deleteDownloadFiles →
      (f ()).Always (Prog.logged (n.alone .none)) c' (Timely P r s)) :
    (FirmwareUpdateHelper.clearFirmwareInfo >>= f).Always (Prog.logged (n.alone .none)) c (Timely P r s) := by
  refine ⟨hc.timely, fun rows c₁ h₁ => ?_⟩
  have hc₁ := quiet_logged rfl hc h₁
  have hdelete : (call .deleteTasks >>= fun _ => call .deleteComponents >>= fun _ => call .deleteDownloadFiles >>= f).Always
      (Prog.logged (n.alone .none)) c₁ (Timely P r s) := by
    refine ⟨hc₁.timely, fun _ c₂ h₂ => ?_⟩
    obtain ⟨hs₂, hl₂⟩ := step_logged h₂
    have ht₂ : c₂.1.tasks = [] ∧ c₂.1.components = s.components := by
      rw [hs₂]
      exact ⟨rfl, hc₁.same rfl⟩
    refine ⟨timely_of_last hl₂ (hr c₂ ht₂.1 ht₂.2), fun _ c₃ h₃ => ?_⟩
    obtain ⟨hs₃, hl₃⟩ := step_logged h₃
    have hc₃ : Empty c₃ := by
      unfold Empty
      rw [hs₃]
      exact ⟨ht₂.1, rfl⟩
    refine ⟨timely_of_last hl₃ (iff_of_true hc₃.represents trivial), fun _ c₄ h₄ => ?_⟩
    obtain ⟨hs₄, hl₄⟩ := step_logged h₄
    refine hf c₄ ?_ (by rw [hl₄, List.getLast?_concat])
    unfold Empty
    rw [hs₄]
    exact hc₃
  cases rows with
  | nil => exact hdelete
  | cons t l => exact hdelete

/-- A store without a task row holds a version only when it has no component rows. -/
theorem represents_iff_of_deleted {r : Replacement} (hs : s.IsVersion P) {s' : State} (ht : s'.tasks = [])
    (hc : s'.components = s.components) : Represents P r s s' ↔ s.components = [] := by
  constructor
  · rintro (⟨htasks, -⟩ | ⟨-, hrows⟩ | ⟨htasks, -⟩)
    · exact (components_nil hs).mpr (htasks.symm.trans ht)
    · exact hc.symm.trans hrows
    · rw [ht] at htasks
      cases htasks
  · intro hnone
    exact .inr (.inl ⟨ht, hc.trans hnone⟩)

theorem clearFirmwareInfo_always (hs : s.IsVersion P) (hc : Quiet false s c) :
    FirmwareUpdateHelper.clearFirmwareInfo.Always (Prog.logged (n.alone .none)) c (Timely P .clearFirmwareInfo s) := by
  rw [← Prog.bind_ret FirmwareUpdateHelper.clearFirmwareInfo]
  refine cleared_always hc (fun c' ht hrows => represents_iff_of_deleted hs ht hrows) ?_
  intro c' hc' hlast
  refine iff_of_true hc'.represents fun o ho => ?_
  rw [hlast] at ho
  rw [← Option.some.inj ho]
  trivial

theorem handleNewVersion_always (hs : s.IsVersion P) (hc : Quiet false s c) {l : List FirmwareComponent} (hl : l ≠ []) :
    (FirmwareCheckDataProcessor.handleNewVersion P l).Always (Prog.logged (n.alone .none)) c
      (Timely P (.handleNewVersion l) s) := by
  refine Prog.Always.seq (quiet_always (isVersionSameWithDb_uses l) hc) (fun _ h => h.timely) ?_
  intro same c₀ hc₀
  refine ⟨hc₀.timely, fun _ c₁ h₁ => ?_⟩
  have hc₁ := quiet_logged rfl hc₀ h₁
  cases same with
  | true =>
    have hurls : Quiet true s c₁ := ⟨hc₁.stopped, hc₁.tasks, hc₁.components, Bool.noConfusion, hc₁.log⟩
    exact (quiet_always (updateFirmwareComponent_uses l) hurls).mono fun _ h => h.timely
  | false =>
    let new := l.map FirmwareCheckDataProcessor.buildComponentSPath
    have hne : new ≠ [] := by simpa [new] using hl
    refine cleared_always (f := fun _ => call (.setFlow (.componentList new)) >>= fun _ => call (.insertComponents new) >>= fun _ =>
      call (.insertTask (FirmwareCheckDataProcessor.newTask P new))) hc₁
      (fun c' ht hrows => represents_iff_of_deleted hs ht hrows) ?_
    intro c₂ hc₂ hlast
    refine ⟨iff_of_true hc₂.represents fun o ho => ?_, fun _ c₃ h₃ => ?_⟩
    · rw [hlast] at ho
      rw [← Option.some.inj ho]
      trivial
    obtain ⟨hs₃, hl₃⟩ := step_logged h₃
    have hc₃ : Empty c₃ := by
      unfold Empty
      rw [hs₃]
      exact hc₂
    refine ⟨timely_of_last hl₃ (iff_of_true hc₃.represents trivial), fun _ c₄ h₄ => ?_⟩
    obtain ⟨hs₄, hl₄⟩ := step_logged h₄
    have hrows₄ : c₄.1.components = new := by
      rw [hs₄]
      show c₃.1.components ++ new = new
      rw [hc₃.2, List.nil_append]
    have ht₄ : c₄.1.tasks = [] := by
      rw [hs₄]
      exact hc₃.1
    have hno : ¬ Represents P (.handleNewVersion l) s c₄.1 := not_represents hs (.inl ⟨ht₄, by rw [hrows₄]; exact hne⟩)
    refine ⟨timely_of_last hl₄ (iff_of_false hno id), fun _ c₅ h₅ => ?_⟩
    obtain ⟨hs₅, hl₅⟩ := step_logged h₅
    refine timely_of_last hl₅ (iff_of_true (.inr (.inr ⟨?_, ?_, hne⟩)) trivial)
    · rw [hs₅]
      show c₄.1.tasks ++ [_] = _
      rw [ht₄]
      rfl
    · rw [hs₅]
      exact hrows₄

end ReplacementAux

open ReplacementAux in
/-- For every store that holds a version or none, whichever single operation of the replacement fails, and wherever the process stops
on the way: the tables hold the old version, the new one or none exactly when the trouble is harmless. -/
theorem replacement_iff (P : Platform) (n : Thread) {r : Replacement} (hr : r.Called) {s : State} (hstopped : s.stopped = false)
    (hs : s.IsVersion P) (trouble : Trouble) :
    (Represents P r s (trouble.leaves P n r s).1 ∧ (trouble.leaves P n r s).1.IsVersion P) ↔
      trouble.Harmless s (trouble.leaves P n r s).2 := by
  have hc : Quiet false s (s, []) := ⟨hstopped, rfl, rfl, fun _ => rfl, fun o ho => absurd ho List.not_mem_nil⟩
  have hboth {c : Logged} (h : Represents P r s c.1 ↔ trouble.Harmless s c.2) :
      (Represents P r s c.1 ∧ c.1.IsVersion P) ↔ trouble.Harmless s c.2 := by
    rw [← h]
    exact and_iff_left_of_imp (isVersion_of_represents hs)
  refine hboth ?_
  cases trouble with
  | fails m =>
    cases r with
    | handleNewVersion l =>
      obtain ⟨_, c, hrun, h⟩ := Prog.ends_iff_run.mp (handleNewVersion_failing (P := P) (n := n) (m := m) hc l)
      have hleaves : (Trouble.fails m).leaves P n (.handleNewVersion l) s = c := congrArg Prod.snd hrun
      rw [hleaves]
      rcases h with h | ⟨log, h⟩
      · exact fails_of_quiet h
      · exact fails_of_inserted hs hr h
    | clearFirmwareInfo =>
      obtain ⟨_, c, hrun, log, h⟩ := Prog.ends_iff_run.mp (clearFirmwareInfo_failing (n := n) (m := m) hc)
      have hleaves : (Trouble.fails m).leaves P n .clearFirmwareInfo s = c := congrArg Prod.snd hrun
      rw [hleaves]
      exact fails_of_cleared hs h
  | stops m =>
    cases r with
    | handleNewVersion l => exact (handleNewVersion_always (n := n) hs hc hr).cut m
    | clearFirmwareInfo => exact (clearFirmwareInfo_always (n := n) hs hc).cut m

/-- The first version of a phone is stored although a deletion fails: there was nothing to delete. -/
theorem replacement_iff_phone :
    Represents .phone (.handleNewVersion [{ versionId := "package" }]) {}
        ((Trouble.fails 3).leaves .phone (.checkExecutor 1) (.handleNewVersion [{ versionId := "package" }]) {}).1 ∧
      ((Trouble.fails 3).leaves .phone (.checkExecutor 1) (.handleNewVersion [{ versionId := "package" }]) {}).1.IsVersion
        .phone := by
  refine (replacement_iff .phone (.checkExecutor 1) (r := .handleNewVersion [{ versionId := "package" }]) (List.cons_ne_nil _ _)
    rfl (.inl ⟨rfl, rfl⟩) (.fails 3)).mpr ?_
  intro o ho
  have hdelete : ((Trouble.fails 3).leaves .phone (.checkExecutor 1) (.handleNewVersion [{ versionId := "package" }]) {}).2[3]? =
      some .deleteTasks := rfl
  rw [hdelete] at ho
  rw [← Option.some.inj ho]
  rfl

/-- When the insertion of the task fails, the rows of the first version are stored without one. -/
theorem replacement_torn : ¬ ∀ (P : Platform) (n : Thread) (r : Replacement) (s : State) (trouble : Trouble), r.Called →
    s.stopped = false → s.IsVersion P → (trouble.leaves P n r s).1.IsVersion P := by
  intro hall
  have h := hall .phone (.checkExecutor 1) (.handleNewVersion [{ versionId := "package" }]) {} (.fails 8) (List.cons_ne_nil _ _)
    rfl (.inl ⟨rfl, rfl⟩)
  have htasks : ((Trouble.fails 8).leaves .phone (.checkExecutor 1) (.handleNewVersion [{ versionId := "package" }]) {}).1.tasks =
      [] := rfl
  have hrows : ((Trouble.fails 8).leaves .phone (.checkExecutor 1)
      (.handleNewVersion [{ versionId := "package" }]) {}).1.components.length = 1 := rfl
  rcases h with ⟨-, hc⟩ | ⟨t, ht, -⟩
  · rw [hc] at hrows
    cases hrows
  · rw [htasks] at ht
    cases ht

end UpdateEngine
