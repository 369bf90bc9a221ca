import UpdateEngine.Firmware.Outline

/-!
# What one operation changes

The frame of each part of the state: which operations change the next flow to be given out, the fields of a flow, its journal, the
tables. And the frame of the roles: which operations move a thread to another role.
-/

namespace UpdateEngine

open Concurrent

namespace StepAux

variable {n : Thread} {s : State}

theorem status_any (s : State) (p : UpgradeStatus → Bool) : s.status.any p = s.tasks.head?.any fun t => p t.status := by
  unfold State.status
  cases s.tasks.head? <;> rfl

/-! ## Flows -/

/-- The assignment an operation makes to a field of its flow. -/
def flowUpdate : (o : Op) → o.Res → Option FlowUpdate
  | .setFlow u, _ => some u
  | .awaitWake i, exit => if exit then none else some (.wake i {})
  | _, _ => none

theorem after_nextFlow (o : Op) (x : o.Res) : (o.after n s x).nextFlow = s.nextFlow := by
  cases o with
  | openFile p | saveDataToFile p d | awaitWake i => cases x <;> rfl
  | enter m => cases m <;> rfl
  | _ => rfl

/-- Starting a thread changes nothing in the state. -/
theorem after_spawn (m : Thread) (x : Unit) : Op.after n s (.spawn m) x = s := by
  have ho : (s.history.outcomes n.flow).next n (.spawn m) = s.history.outcomes n.flow := by
    unfold Outcome.next
    split <;> rfl
  have hh : Op.chronicle n s (.spawn m) x = s.history := by
    simp only [Op.chronicle, ho, TestStage.next, Progress.delivered, Function.update_eq_self]
  show { s with history := Op.chronicle n s (.spawn m) x } = s
  rw [hh]

/-- Only an assignment changes a flow. -/
theorem after_flows (o : Op) (x : o.Res) :
    (o.after n s x).flows = match flowUpdate o x with
      | some u => Function.update s.flows n.flow (u.apply (s.flows n.flow))
      | none => s.flows := by
  cases o with
  | openFile p | saveDataToFile p d | awaitWake i => cases x <;> rfl
  | enter m => cases m <;> rfl
  | _ => rfl

/-- Operations leave other flows alone. -/
theorem after_flows_of_ne (o : Op) (x : o.Res) {f : Nat} (hf : f ≠ n.flow) : (o.after n s x).flows f = s.flows f := by
  rw [after_flows]
  split
  · exact Function.update_of_ne hf ..
  · rfl

/-- `upgradeStatus_` changes by an assignment of the flow only. -/
theorem after_upgradeStatus {o : Op} {x : o.Res} {f : Nat} (h : ∀ status, o = .setFlow (.upgradeStatus status) → f ≠ n.flow) :
    ((o.after n s x).flows f).upgradeStatus = (s.flows f).upgradeStatus := by
  by_cases hf : f = n.flow
  · subst hf
    cases o with
    | setFlow u =>
      cases u with
      | upgradeStatus status => exact absurd rfl (h status rfl)
      | _ => simp [Op.after, Op.effect, State.setFlow, FlowUpdate.apply]
    | openFile p | saveDataToFile p d => cases x <;> rfl
    | awaitWake i => cases x <;> simp [Op.after, Op.effect, State.setFlow, FlowUpdate.apply]
    | enter mark => cases mark <;> rfl
    | _ => rfl
  · rw [after_flows_of_ne o x hf]

/-! ## The task row -/

/-- What an operation makes of the row that is read first, as far as it changes the status. -/
def recordsOf (s : State) : Op → Option Recorded
  | .updateTasks _ i (.progress st _) => if s.tasks.head?.any (·.taskId = i) then some (.status st) else none
  | .deleteTasks => some .cleared
  | _ => none

/-- The status a change leaves behind. -/
def statusOf : Recorded → Option UpgradeStatus
  | .status st => some st
  | .cleared => none

/-- The status of the row an operation adds to an empty table. -/
def insertsOf (s : State) : Op → Option UpgradeStatus
  | .insertTask t => if s.tasks = [] then some t.status else none
  | _ => none

/-- The status of the row that is read first, after an operation. -/
theorem after_status (o : Op) (x : o.Res) :
    (o.after n s x).status = match recordsOf s o with
      | some rec => statusOf rec
      | none => (insertsOf s o).or s.status := by
  cases o with
  | insertTask t =>
    cases hs : s.tasks with
    | nil => simp [Op.after, Op.effect, State.status, recordsOf, insertsOf, hs]
    | cons u l => simp [Op.after, Op.effect, State.status, recordsOf, insertsOf, hs]
  | updateTasks c i u =>
    cases hs : s.tasks with
    | nil => cases u <;> simp [Op.after, Op.effect, State.status, recordsOf, insertsOf, hs]
    | cons t l =>
      cases u with
      | progress st p =>
        by_cases ht : t.taskId = i <;>
          simp [Op.after, Op.effect, State.status, recordsOf, insertsOf, statusOf, TaskUpdate.apply, hs, ht]
      | _ =>
        by_cases ht : t.taskId = i <;>
          simp [Op.after, Op.effect, State.status, recordsOf, insertsOf, TaskUpdate.apply, hs, ht]
  | openFile p | saveDataToFile p d | awaitWake i => cases x <;> rfl
  | enter m => cases m <;> rfl
  | _ => rfl

/-! ## Journals -/

/-- Operations leave the journals of other flows alone. -/
theorem after_journals_of_ne (o : Op) (x : o.Res) {f : Nat} (hf : f ≠ n.flow) : (o.after n s x).journals f = s.journals f := by
  cases o with
  | queryTasks c | updateTasks c i u | updateComponents c u | deleteTasks => exact Function.update_of_ne hf ..
  | openFile p | saveDataToFile p d | awaitWake i => cases x <;> rfl
  | enter m => cases m <;> first | rfl | exact Function.update_of_ne hf ..
  | _ => rfl

/-- What an operation notes in the journal of its flow. -/
def noteOf (s : State) (o : Op) (j : Journal) : Journal :=
  match o with
  | .queryTasks c => c.note s.tasks j
  | .updateTasks c i u => u.note s.tasks c i j
  | .updateComponents c u => u.note c j
  | .deleteTasks => { j with recorded := some .cleared }
  | .enter m => m.note j
  | _ => j

/-- The journals after an operation. -/
theorem after_journals (o : Op) (x : o.Res) (f : Nat) :
    (o.after n s x).journals f = if f = n.flow then noteOf s o (s.journals f) else s.journals f := by
  split
  · rename_i hf
    subst hf
    cases o with
    | queryTasks c | updateTasks c i u | updateComponents c u | deleteTasks => exact Function.update_self ..
    | openFile p | saveDataToFile p d | awaitWake i => cases x <;> rfl
    | enter m => cases m <;> first | rfl | exact Function.update_self ..
    | _ => rfl
  · rename_i hf
    exact after_journals_of_ne o x hf

/-- Whether an operation is a read by which a mode lets its flow go on. -/
def admits (s : State) : Op → Bool
  | .queryTasks c => s.status.any fun t => c.admits t
  | _ => false

theorem noteOf_admitted (s : State) (o : Op) (j : Journal) : (noteOf s o j).admitted = (j.admitted || admits s o) := by
  cases o with
  | queryTasks c =>
    cases hs : s.tasks with
    | nil =>
      simp only [noteOf, Caller.note, admits, State.status, hs]
      split <;> simp
    | cons t l =>
      simp only [noteOf, Caller.note, admits, State.status, hs]
      by_cases hc : c = .hasUndoneTask
      · subst hc
        simp [Caller.admits]
      · simp only [if_neg hc]
        split <;> simp_all
  | updateTasks c i u => cases u <;> simp [noteOf, TaskUpdate.note, admits]
  | updateComponents c u => cases u <;> simp [noteOf, ComponentUpdate.note, admits]
  | enter m => cases m <;> simp [noteOf, Mark.note, admits]
  | _ => simp [noteOf, admits]

/-- How an operation changes whether a check result is being processed. -/
def processes (s : State) : Op → Option Bool
  | .queryTasks .hasUndoneTask => some !(s.status.any fun t => t.isUndone)
  | .enter .checkResultHandled => some false
  | _ => none

theorem noteOf_processing (s : State) (o : Op) (j : Journal) :
    (noteOf s o j).processing = (processes s o).getD j.processing := by
  cases o with
  | queryTasks c =>
    simp only [noteOf, Caller.note]
    cases hs : s.tasks with
    | nil => cases c <;> simp [processes, State.status, hs]
    | cons t l => cases c <;> simp [processes, State.status, hs] <;> split <;> rfl
  | updateTasks c i u => cases u <;> rfl
  | updateComponents c u => cases u <;> rfl
  | enter m => cases m <;> rfl
  | _ => rfl

theorem noteOf_recorded (s : State) (o : Op) (j : Journal) : (noteOf s o j).recorded = (recordsOf s o).or j.recorded := by
  cases o with
  | queryTasks c =>
    simp only [noteOf, Caller.note]
    split <;> split <;> (try split) <;> rfl
  | updateTasks c i u =>
    cases u with
    | progress st p =>
      simp only [noteOf, TaskUpdate.note, recordsOf]
      split <;> rfl
    | _ => rfl
  | updateComponents c u => cases u <;> rfl
  | enter m => cases m <;> rfl
  | _ => rfl

/-- How an operation changes whether the installer of its flow is running. -/
def performs : Op → Option Bool
  | .enter (.performInstall _) => some true
  | .enter .performInstallEnd => some false
  | _ => none

theorem noteOf_performing (s : State) (o : Op) (j : Journal) : (noteOf s o j).performing = (performs o).getD j.performing := by
  cases o with
  | queryTasks c =>
    simp only [noteOf, Caller.note]
    split <;> split <;> (try split) <;> rfl
  | updateTasks c i u => cases u <;> rfl
  | updateComponents c u => cases u <;> rfl
  | enter m => cases m <;> rfl
  | _ => rfl

theorem noteOf_completed (s : State) (o : Op) (j : Journal) : j.completed ≤ (noteOf s o j).completed := by
  cases o with
  | queryTasks c =>
    simp only [noteOf, Caller.note]
    split <;> split <;> (try split) <;> exact Nat.le_refl _
  | updateTasks c i u => cases u <;> exact Nat.le_refl _
  | updateComponents c u => cases u <;> exact Nat.le_refl _
  | enter m => cases m <;> simp [noteOf, Mark.note]
  | _ => exact Nat.le_refl _

/-! ## Roles -/

/-- The operations that move a thread to another role. -/
def moves : Op → Bool
  | .queryTasks c => match c with
    | .downloadMode | .installApplyMode _ | .hasUndoneTask | .handleBootComplete | .doClearError => true
    | _ => false
  | .updateTasks c _ u => match c, u with
    | .applyExecutor, .progress _ _ => true
    | _, _ => false
  | .deleteTasks | .spawn _ => true
  | .queryComponents c => c = .installExecutor
  | .setFlow u => match u with
    | .nextStep _ | .sysCallback _ => true
    | _ => false
  | .enter m => match m with
    | .checkResultHandled | .performInstall _ | .performInstallEnd => true
    | _ => false
  | _ => false

/-- Any other operation leaves a thread in its role. -/
theorem nextRole_of_not_moves (r : Role) {o : Op} (ho : moves o = false) (x : o.Res) : Outline.nextRole r o x = r := by
  cases o with
  | queryTasks c => cases c <;> first | rfl | exact (Bool.false_ne_true ho.symm).elim
  | queryComponents c => cases c <;> first | rfl | exact (Bool.false_ne_true ho.symm).elim
  | updateTasks c i u => cases u <;> cases c <;> first | rfl | exact (Bool.false_ne_true ho.symm).elim
  | setFlow u => cases u <;> first | rfl | exact (Bool.false_ne_true ho.symm).elim
  | enter m => cases m <;> first | rfl | exact (Bool.false_ne_true ho.symm).elim
  | _ => first | rfl | exact (Bool.false_ne_true ho.symm).elim

/-- The work after a boot, and a request to clear an error, lead to the same role. -/
theorem nextRole_clearing {r : Role} {c : Caller} (hc : c = .handleBootComplete ∨ c = .doClearError) (tasks : List FirmwareTask) :
    Outline.nextRole r (.queryTasks c) tasks = .clearing := by
  rcases hc with rfl | rfl <;> rfl

/-- A thread that is no download worker moves to another role in one of these ways. -/
inductive Move (n : Thread) : Role → Op → Prop
  | downloadMode (h : n.isDownload = true) : Move n .request (.queryTasks .downloadMode)
  | installApplyMode {r : Role} {order : Order} (hr : r = .request ∨ r = .recovering) (ho : n.order = some order) :
    Move n r (.queryTasks (.installApplyMode order))
  | hasUndoneTask : Move n .checking (.queryTasks .hasUndoneTask)
  | clearing {r : Role} {c : Caller} (hc : c = .handleBootComplete ∨ c = .doClearError) (hn : n.clears = true)
    (hr : r = .idle ∨ r = .recovering ∨ r = .withdrawn ∨ r = .ready) : Move n r (.queryTasks c)
  | clear {r : Role} (h : r.drops) : Move n r .deleteTasks
  | record {r : Role} {i : String} {s : UpgradeStatus} {p : Int32} (h : r.records .applyExecutor s) :
    Move n r (.updateTasks .applyExecutor i (.progress s p))
  | components : Move n (.install none) (.queryComponents .installExecutor)
  | step {r : Role} {s : FirmwareStep} (h : r.sets n (.nextStep s)) : Move n r (.setFlow (.nextStep s))
  | callback (given : Bool) (c : Option (UpgradeOptions × FirmwareComponent)) :
    Move n (.performing given) (.setFlow (.sysCallback c))
  | start {m : Thread} (h : n.starts m = true) : Move n .ready (.spawn m)
  | handled {r : Role} (h : r = .processing ∨ r = .cleared) : Move n r (.enter .checkResultHandled)
  | perform (l : List FirmwareComponent) : Move n (.install (some l)) (.enter (.performInstall l))
  | performEnd : Move n (.performing false) (.enter .performInstallEnd)

/-- There is no other way. -/
theorem move_of_allowed {P : Platform} {r : Role} {o : Op} (ha : Outline.allowed P n r o) (hr : ∀ w, r ≠ .download w)
    (hm : moves o = true) : Move n r o := by
  cases o with
  | queryTasks c =>
    cases c with
    | downloadMode =>
      obtain ⟨rfl, h⟩ := ha
      exact .downloadMode h
    | installApplyMode order => exact .installApplyMode ha.1 ha.2
    | hasUndoneTask =>
      obtain rfl : r = .checking := ha
      exact .hasUndoneTask
    | handleBootComplete => exact .clearing (.inl rfl) ha.1 ha.2
    | doClearError => exact .clearing (.inr rfl) ha.1 ha.2
    | _ => exact (Bool.false_ne_true hm).elim
  | updateTasks c i u =>
    cases u with
    | progress s p =>
      cases c with
      | applyExecutor => exact .record ha
      | _ => exact (Bool.false_ne_true hm).elim
    | _ => cases c <;> exact (Bool.false_ne_true hm).elim
  | deleteTasks => exact .clear ha
  | queryComponents c =>
    cases c with
    | installExecutor =>
      obtain rfl : r = .install none := ha
      exact .components
    | _ => exact (Bool.false_ne_true hm).elim
  | setFlow u =>
    cases u with
    | nextStep s => exact .step ha
    | sysCallback c =>
      obtain ⟨given, rfl⟩ : ∃ given, r = .performing given := ha
      exact .callback given c
    | _ => exact (Bool.false_ne_true hm).elim
  | spawn m =>
    rcases ha with ⟨rfl, h⟩ | ⟨_, _, _, _, _, w, _, hw, _⟩
    · exact .start h
    · exact absurd hw (hr w)
  | enter m =>
    cases m with
    | checkResultHandled => exact .handled ha
    | performInstall l =>
      obtain rfl : r = .install (some l) := ha
      exact .perform l
    | performInstallEnd =>
      obtain rfl : r = .performing false := ha
      exact .performEnd
    | _ => exact (Bool.false_ne_true hm).elim
  | _ => exact (Bool.false_ne_true hm).elim

/-- What becomes of a role: a download worker stays one, and any other thread stays where it is or moves. -/
theorem next_cases {P : Platform} {r : Role} {o : Op} (ha : Outline.allowed P n r o) (x : o.Res) :
    (∃ w, r = .download w ∧ Outline.next n r o x = .download (Outline.nextWorker n w o x)) ∨
      (moves o = false ∧ Outline.next n r o x = r) ∨
      (moves o = true ∧ Move n r o ∧ Outline.next n r o x = Outline.nextRole r o x) := by
  by_cases hw : ∃ w, r = .download w
  · obtain ⟨w, rfl⟩ := hw
    exact .inl ⟨w, rfl, rfl⟩
  · have hw : ∀ w, r ≠ .download w := fun w h => hw ⟨w, h⟩
    have hn : Outline.next n r o x = Outline.nextRole r o x := by
      cases r with
      | download w => exact absurd rfl (hw w)
      | _ => rfl
    cases hm : moves o with
    | false => exact .inr (.inl ⟨rfl, hn.trans (nextRole_of_not_moves r hm x)⟩)
    | true => exact .inr (.inr ⟨rfl, move_of_allowed ha hw hm, hn⟩)

/-! ## The roles of each kind of thread -/

/-- The roles the threads of a kind go through. -/
def plays : Thread → Role → Bool
  | .checkNewVersion _, .request | .checkNewVersion _, .ready | .checkNewVersion _, .idle => true
  | .download _ _, r | .upgrade _ _, r => match r with
    | .request | .accepted | .refused | .withdrawn | .ready | .idle => true
    | _ => false
  | .delayInit _ _, r => match r with
    | .recovering | .accepted | .refused | .withdrawn | .ready | .idle | .clearing => true
    | _ => false
  | .cancel _, .idle | .netChanged _ _, .idle | .clearError _, .idle | .clearError _, .clearing => true
  | .checkExecutor _, .checking | .checkExecutor _, .processing | .checkExecutor _, .cleared => true
  | .downloadExecutor _ _, .download _ | .downloadThread _ _ _ _ _, .download _ => true
  | .installExecutor _ _ _, r => match r with
    | .install _ | .performing _ | .installed | .dropped => true
    | _ => false
  | .installerCallback _ _ _ _ _ _, .installed | .installerCallback _ _ _ _ _ _, .dropped => true
  | .applyExecutor _ _ _, .applying | .applyExecutor _ _ _, .idle => true
  | _, _ => false

theorem plays_entry (n : Thread) : plays n (Outline.entry n) = true := by
  cases n <;> rfl

theorem plays_decide {c : Caller} {r : Role} (hp : plays n r = true) (hr : r = .request ∨ r = .recovering)
    (hc : ∀ f, n ≠ .checkNewVersion f) (tasks : List FirmwareTask) : plays n (Outline.decide c tasks) = true := by
  unfold Outline.decide
  rcases hr with rfl | rfl <;> cases n <;> first | (split <;> rfl) | exact absurd rfl (hc _) | cases hp

/-- A thread stays within the roles of its kind. -/
theorem plays_next {P : Platform} {r : Role} {o : Op} (hp : plays n r = true) (ha : Outline.allowed P n r o) (x : o.Res) :
    plays n (Outline.next n r o x) = true := by
  rcases next_cases ha x with ⟨w, rfl, hn⟩ | ⟨-, hn⟩ | ⟨-, hmove, hn⟩
  · rw [hn]
    cases n <;> first | rfl | cases hp
  · rw [hn]
    exact hp
  · rw [hn]
    cases hmove with
    | downloadMode hd => exact plays_decide hp (.inl rfl) (fun f hf => by simp [hf, Thread.isDownload] at hd) x
    | installApplyMode hr ho => exact plays_decide hp hr (fun f hf => by simp [hf, Thread.order] at ho) x
    | hasUndoneTask =>
      simp only [Outline.nextRole]
      cases n <;> first | (split <;> rfl) | cases hp
    | clear hd => cases r <;> cases n <;> first | rfl | cases hp
    | record h => cases r <;> cases n <;> first | rfl | cases hp
    | step hs => cases r <;> cases n <;> first | rfl | cases hp
    | handled hh => rcases hh with rfl | rfl <;> cases n <;> first | rfl | cases hp
    | clearing hc hcl hr => rcases hc with rfl | rfl <;> cases n <;> first | rfl | cases hcl
    | callback | components | start | perform | performEnd => cases n <;> first | rfl | cases hp

end StepAux

end UpdateEngine
