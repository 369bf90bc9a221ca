import UpdateEngine.Lemmas.FlowsAux

/-!
# A download of one component

With one component, the executor of a flow and its thread do not report at the same time: the executor has nothing left to report
once the thread is started. What a report says of the package is then borne out by what has happened.
-/

namespace UpdateEngine

open Concurrent StepAux FlowsAux

/-- The executor of a download finds one component at most. -/
def singleKept (c : Config) : Action → Bool
  | .start _ => true
  | .run n _ => match c.next n with
    | some (.queryComponents .downloadExecutor) => c.state.components.length ≤ 1
    | _ => true

namespace SoloAux

variable {P : Platform} {s : State} {ρ : Thread → Option Role} {n m : Thread} {r : Role} {w : Worker} {o : Op} {x : o.Res}

/-! ## What a worker knows -/

/-- The package at hand was accepted. -/
def Passed (s : State) (n : Thread) (w : Worker) (verdict : Verdict) : Prop :=
  ∃ path v, verdict = .accepted path v ∧ w.path n = some path ∧ path ∈ (s.journals n.flow).accepted

/-- The package at hand is complete. -/
def Complete (s : State) (n : Thread) (w : Worker) : Prop :=
  w.complete = true → ∀ path, w.path n = some path → path ∈ (s.journals n.flow).complete

/-- What has happened bears out what a worker is reporting. -/
def Reports (s : State) (n : Thread) (w : Worker) : Phase → Prop
  | .called shown => (s.flows n.flow).upgradeStatus = shown ∧ (n.isDownloadExecutor = true → w.left ≠ some []) ∧
    (shown = .downloadSuccess → w.complete = true)
  | .verifying shown _ _ _ => shown = .downloadSuccess → w.complete = true
  | .judged shown verdict => shown = .downloadSuccess →
    w.complete = true ∧ ((verdict matches .rejected) = true ∨ Passed s n w verdict)
  | .written status verdict => status = .downloadSuccess → w.complete = true ∧ Passed s n w verdict
  | _ => True

/-- What a worker has at hand: one component at most, which the flow knows too. -/
structure Own (s : State) (n : Thread) (w : Worker) : Prop where
  short : ∀ l, w.left = some l → l.length ≤ 1
  unread : n.isDownloadExecutor = true → w.left = none → (s.flows n.flow).components = []
  package : ∀ path, w.path n = some path → ∀ row ∈ (s.flows n.flow).components, row.spath = path
  complete : Complete s n w

/-- The invariant of downloads of one component. -/
structure Solo (s : State) (ρ : Thread → Option Role) : Prop where
  request : ∀ n r, ρ n = some r → n.isDownload = true → r ≠ .idle →
    (s.flows n.flow).components = [] ∧ ∀ m r', ρ m = some r' → m.flow = n.flow → m = n
  hands : ∀ n w m w', ρ n = some (.download w) → ρ m = some (.download w') → m.flow = n.flow → m ≠ n →
    m.isDownloadExecutor = !n.isDownloadExecutor ∧ (n.isDownloadExecutor = true → w.left = some [])
  own : ∀ n w, ρ n = some (.download w) → Own s n w
  reports : ∀ n w, ρ n = some (.download w) → Reports s n w w.phase

/-! ## What one operation leaves -/

theorem accepted_after {f : Nat} {path : String} (h : path ∈ (s.journals f).accepted) :
    path ∈ ((o.after n s x).journals f).accepted := by
  rw [after_journals]
  split
  · cases o with
    | queryTasks c =>
      simp only [noteOf, Caller.note]
      split <;> split <;> (try split) <;> exact h
    | updateTasks c i u => cases u <;> exact h
    | updateComponents c u => cases u <;> exact h
    | enter mark => cases mark <;> first | exact h | exact List.mem_cons_of_mem _ h
    | _ => exact h
  · exact h

theorem complete_after {f : Nat} {path : String} (h : path ∈ (s.journals f).complete) :
    path ∈ ((o.after n s x).journals f).complete := by
  rw [after_journals]
  split
  · cases o with
    | queryTasks c =>
      simp only [noteOf, Caller.note]
      split <;> split <;> (try split) <;> exact h
    | updateTasks c i u => cases u <;> exact h
    | updateComponents c u => cases u <;> exact h
    | enter mark => cases mark <;> first | exact h | exact List.mem_cons_of_mem _ h
    | _ => exact h
  · exact h

theorem passed_after {verdict : Verdict} (h : Passed s m w verdict) : Passed (o.after n s x) m w verdict := by
  obtain ⟨path, v, hv, hpath, ha⟩ := h
  exact ⟨path, v, hv, hpath, accepted_after ha⟩

/-- An operation that leaves `upgradeStatus_` alone leaves what a worker reports. -/
theorem reports_after {ph : Phase} (h : Reports s m w ph)
    (hcalled : ∀ status, o = .setFlow (.upgradeStatus status) → (∃ shown, ph = .called shown) → m.flow ≠ n.flow) :
    Reports (o.after n s x) m w ph := by
  cases ph with
  | called shown =>
    refine ⟨?_, h.2⟩
    rw [after_upgradeStatus fun status ho => hcalled status ho ⟨shown, rfl⟩]
    exact h.1
  | judged shown verdict => exact fun hs => ⟨(h hs).1, (h hs).2.imp_right passed_after⟩
  | written status verdict => exact fun hs => ⟨(h hs).1, passed_after (h hs).2⟩
  | _ => exact h

/-- The components of a flow change by an assignment only. -/
theorem after_components {f : Nat} (h : ∀ l, o = .setFlow (.components l) → f ≠ n.flow) :
    ((o.after n s x).flows f).components = (s.flows f).components := by
  by_cases hf : f = n.flow
  · subst hf
    cases o with
    | setFlow u =>
      cases u with
      | components l => exact absurd rfl (h l rfl)
      | _ => simp [Op.after, Op.effect, State.setFlow, FlowUpdate.apply]
    | openFile p | saveDataToFile p d => cases x <;> rfl
    | awaitWake i => cases x <;> simp [Op.after, Op.effect, State.setFlow, FlowUpdate.apply]
    | enter mark => cases mark <;> rfl
    | _ => rfl
  · rw [after_flows_of_ne o x hf]

theorem own_after (h : Own s m w) (hcomponents : ∀ l, o = .setFlow (.components l) → m.flow ≠ n.flow) :
    Own (o.after n s x) m w := by
  refine ⟨h.short, ?_, ?_, fun hc path hp => complete_after (h.complete hc path hp)⟩
  · rw [after_components hcomponents]
    exact h.unread
  · rw [after_components hcomponents]
    exact h.package

/-- What a worker has at hand depends on what it has left and on what it has completed. -/
theorem own_of (h : Own s n w) {w' : Worker} (hleft : w'.left = w.left) (hcomplete : w'.complete = w.complete) : Own s n w' := by
  have hpath : w'.path n = w.path n := by
    unfold Worker.path
    rw [hleft]
  refine ⟨fun l hl => h.short l (hleft ▸ hl), fun hn hl => h.unread hn (hleft ▸ hl), ?_, ?_⟩
  · rw [hpath]
    exact h.package
  · intro hc
    rw [hpath]
    exact h.complete (hcomplete ▸ hc)

/-- The executor after it has gone on to the next component: there is none. -/
theorem own_tail (h : Own s n w) (hn : n.isDownloadExecutor = true) {w' : Worker} (hleft : w'.left = w.left.map List.tail) :
    Own s n w' := by
  have hnil {l : List FirmwareComponent} (hl : w'.left = some l) : l = [] := by
    cases hw : w.left with
    | none => simp [hleft, hw] at hl
    | some l' =>
      obtain rfl : l'.tail = l := by simpa [hleft, hw] using hl
      have := h.short l' hw
      exact List.length_eq_zero_iff.mp (by rw [List.length_tail]; omega)
  have hpath : w'.path n = none := by
    have hbind : w'.left.bind List.head? = none := by
      cases hl : w'.left with
      | none => rfl
      | some l =>
        obtain rfl := hnil hl
        rfl
    cases n <;> first | (simp [Worker.path, hbind]; done) | cases hn
  refine ⟨fun l hl => by simp [hnil hl], fun _ hl => h.unread hn ?_, ?_, ?_⟩
  · cases hw : w.left with
    | none => rfl
    | some l => simp [hleft, hw] at hl
  · intro path hp
    rw [hpath] at hp
    cases hp
  · intro _ path hp
    rw [hpath] at hp
    cases hp

/-- An operation of the worker itself, on a run that keeps the condition. -/
theorem own_run {c : Config} {a : Answer} (h : Own c.state n w) (ha : Outline.allowed P n (.download w) o)
    (hok : singleKept c (.run n a) = true) (hnext : c.next n = some o) (hx : o.answer n a c.state = some x)
    (hspawn : ∀ m, o ≠ .spawn m) : Own (o.after n c.state x) n (Outline.nextWorker n w o x) := by
  have hkeep (hcomponents : ∀ l, o ≠ .setFlow (.components l)) : Own (o.after n c.state x) n w :=
    own_after h fun l ho => absurd ho (hcomponents l)
  cases o with
  | queryComponents caller =>
    cases caller with
    | downloadExecutor =>
      obtain ⟨hw, hn⟩ := ha
      cases hw
      cases Option.some.inj hx
      have hempty := h.unread hn rfl
      simp only [singleKept, hnext, decide_eq_true_eq] at hok
      refine ⟨fun l hl => ?_, fun _ hl => (by cases hl), fun path _ row hrow => ?_, fun hc => by cases hc⟩
      · cases hl
        exact hok
      · rw [after_components fun l => Op.noConfusion, hempty] at hrow
        cases hrow
    | _ => exact own_of (hkeep fun l => Op.noConfusion) rfl rfl
  | setFlow u =>
    cases u with
    | components l =>
      obtain ⟨w', hw, hn, hphase, hleft⟩ := ha
      cases hw
      have hcomponents : ((Op.after n c.state (.setFlow (.components l)) x).flows n.flow).components = l := by
        simp [Op.after, Op.effect, State.setFlow, FlowUpdate.apply]
      refine ⟨h.short, fun _ hl => ?_, fun path hp row hrow => ?_, h.complete⟩
      · have hl : w.left = none := hl
        rw [hleft] at hl
        cases hl
      · rw [hcomponents] at hrow
        have hp : w.path n = some path := hp
        have hshort := h.short l hleft
        have hhead : l.head? = some row := by
          cases l with
          | nil => cases hrow
          | cons c l =>
            obtain rfl : l = [] := List.length_eq_zero_iff.mp (by simpa using hshort)
            rw [List.mem_singleton.mp hrow]
            rfl
        cases n <;> first | (simpa [Worker.path, hleft, hhead] using hp) | cases hn
    | _ => exact own_of (hkeep fun l => by simp) rfl rfl
  | awaitWake i =>
    have hk := hkeep fun l => Op.noConfusion
    exact ⟨hk.short, hk.unread, hk.package, fun hc => by cases hc⟩
  | ask q =>
    cases q with
    | newThread =>
      obtain ⟨w', hw, hn⟩ := ha
      cases hw
      have hk := hkeep fun l => Op.noConfusion
      have hk : Own (Op.after n c.state (.ask .newThread) x) n { w with complete := false } :=
        ⟨hk.short, hk.unread, hk.package, fun hc => by cases hc⟩
      cases x with
      | true => exact own_of hk rfl rfl
      | false => exact own_tail hk hn rfl
    | _ => exact own_of (hkeep fun l => Op.noConfusion) rfl rfl
  | spawn m => exact absurd rfl (hspawn m)
  | enter mark =>
    cases mark with
    | complete path =>
      obtain ⟨w', hw, hphase, hpath⟩ := ha
      cases hw
      have hk := hkeep fun l => Op.noConfusion
      refine ⟨hk.short, hk.unread, hk.package, fun _ path' hp => ?_⟩
      have hp : w.path n = some path' := hp
      obtain rfl : path = path' := Option.some.inj (hpath.symm.trans hp)
      rw [after_journals, if_pos rfl]
      exact List.mem_cons_self
    | _ => exact own_of (hkeep fun l => Op.noConfusion) rfl rfl
  | _ => exact own_of (hkeep fun l => Op.noConfusion) rfl rfl

/-- The same for what it reports. -/
theorem reports_run {a : Answer} (h : Reports s n w w.phase) (ha : Outline.allowed P n (.download w) o)
    (hx : o.answer n a s = some x) (hspawn : ∀ m, o ≠ .spawn m) :
    Reports (o.after n s x) n (Outline.nextWorker n w o x) (Outline.nextWorker n w o x).phase := by
  have hkeep (hcalled : ∀ status, o ≠ .setFlow (.upgradeStatus status)) : Reports (o.after n s x) n w w.phase :=
    reports_after h fun status ho _ => absurd ho (hcalled status)
  cases o with
  | queryTasks caller =>
    have hk := hkeep fun _ => Op.noConfusion
    cases caller with
    | stepAfterDownload =>
      obtain ⟨left, waking, complete, raced, phase⟩ := w
      cases phase with
      | closing => trivial
      | _ => exact hk
    | _ => exact hk
  | queryComponents caller =>
    cases caller with
    | downloadExecutor =>
      obtain ⟨hw, -⟩ := ha
      cases hw
      trivial
    | _ => exact hkeep fun _ => Op.noConfusion
  | updateTasks caller i u =>
    have hk := hkeep fun _ => Op.noConfusion
    cases u with
    | progress status percent =>
      cases caller with
      | downloadCallback => trivial
      | _ => exact hk
    | _ => cases caller <;> exact hk
  | updateComponents caller u =>
    have hk := hkeep fun _ => Op.noConfusion
    cases u with
    | progressByUrl url status percent =>
      cases caller with
      | downloadCallback =>
        obtain ⟨w', verdict, hw, hphase⟩ := ha
        cases hw
        rw [hphase] at hk
        cases verdict with
        | rejected =>
          simp only [Outline.nextWorker, Outline.nextPhase, hphase]
          exact UpgradeStatus.noConfusion
        | skipped =>
          simp only [Outline.nextWorker, Outline.nextPhase, hphase]
          rintro rfl
          obtain ⟨hc, hv | hv⟩ := hk rfl
          · cases hv
          · exact ⟨hc, hv⟩
        | accepted path v =>
          simp only [Outline.nextWorker, Outline.nextPhase, hphase]
          rintro rfl
          obtain ⟨hc, hv | hv⟩ := hk rfl
          · cases hv
          · exact ⟨hc, hv⟩
      | _ => exact hk
    | _ => cases caller <;> exact hk
  | setFlow u =>
    cases u with
    | upgradeStatus status =>
      obtain ⟨w', hw, hleft, -, hcomplete⟩ := ha
      cases hw
      refine ⟨?_, fun hn => ?_, hcomplete⟩
      · simp [Op.after, Op.effect, State.setFlow, FlowUpdate.apply]
      · obtain ⟨component, l, hl⟩ := hleft hn
        change w.left ≠ some []
        rw [hl]
        simp
    | _ => exact hkeep fun _ => by simp
  | getFlow =>
    cases Option.some.inj hx
    have hk := hkeep fun _ => Op.noConfusion
    obtain ⟨left, waking, complete, raced, phase⟩ := w
    cases phase with
    | called shown =>
      obtain ⟨hshown, -, hcomplete⟩ := h
      simp only [Outline.nextWorker, Outline.nextPhase]
      split
      · exact hcomplete
      · rename_i hne
        exact fun hs => absurd (hshown.trans hs) hne
    | _ => exact hk
  | readFile path =>
    have hk := hkeep fun _ => Op.noConfusion
    obtain ⟨left, waking, complete, raced, phase⟩ := w
    cases phase <;> exact hk
  | removeFile path =>
    have hk := hkeep fun _ => Op.noConfusion
    obtain ⟨left, waking, complete, raced, phase⟩ := w
    cases phase with
    | verifying shown components seen v => exact fun hs => ⟨hk hs, .inl rfl⟩
    | _ => exact hk
  | awaitWake i => cases x <;> trivial
  | ask q =>
    cases q with
    | newThread => trivial
    | _ => exact hkeep fun _ => Op.noConfusion
  | spawn m => exact absurd rfl (hspawn m)
  | enter mark =>
    have hk := hkeep fun _ => Op.noConfusion
    cases mark with
    | onDownloadCallback p =>
      simp only [Outline.nextWorker, Outline.nextPhase]
      split <;> trivial
    | handleComplete =>
      simp only [Outline.nextWorker, Outline.nextPhase]
      split <;> trivial
    | accepted path =>
      obtain ⟨w', shown, components, seen, v, hw, hphase, hpath, -⟩ := ha
      cases hw
      have hnext : (Outline.nextWorker n w (.enter (.accepted path)) x).phase = .judged shown (.accepted path v) := by
        simp only [Outline.nextWorker, Outline.nextPhase, hphase]
      rw [hphase] at hk
      rw [hnext]
      refine fun hs => ⟨hk hs, .inr ⟨path, v, rfl, hpath, ?_⟩⟩
      rw [after_journals, if_pos rfl]
      exact List.mem_cons_self
    | verified v =>
      obtain ⟨left, waking, complete, raced, phase⟩ := w
      cases phase <;> exact hk
    | complete path =>
      obtain ⟨w', hw, hphase, -⟩ := ha
      cases hw
      change Reports _ _ _ w.phase
      rw [hphase]
      trivial
    | _ => exact hk
  | _ => exact hkeep fun _ => Op.noConfusion

/-! ## Runs -/

/-- A request that is not idle was not idle before. -/
theorem request_next (hn : n.isDownload = true) (ha : Outline.allowed P n r o) (h : Outline.next n r o x ≠ .idle) : r ≠ .idle := by
  rintro rfl
  refine h ?_
  rcases next_cases ha x with ⟨w, hw, -⟩ | ⟨-, hnext⟩ | ⟨-, hmove, -⟩
  · cases hw
  · exact hnext
  · cases n with
    | download f options =>
      cases hmove with
      | installApplyMode _ ho => cases ho
      | clearing _ hc => cases hc
      | clear hd => cases hd
      | record hr => cases hr
      | step hs =>
        obtain ⟨-, ⟨hr, -⟩ | hr | hr | ⟨hr, -⟩ | ⟨-, hp, -⟩⟩ := hs
        · cases hr
        · cases hr
        · cases hr
        · cases hr
        · cases hp
      | handled hh => rcases hh with hh | hh <;> cases hh
    | _ => cases hn

/-- Only a worker assigns the components of its flow. -/
theorem worker_of_components {l : List FirmwareComponent} (ha : Outline.allowed P n r (.setFlow (.components l))) :
    ∃ w, r = .download w ∧ n.isDownloadExecutor = true ∧ w.left = some l := by
  obtain ⟨w, hr, hn, -, hleft⟩ := ha
  exact ⟨w, hr, hn, hleft⟩

theorem kind_of_isDownload (hn : n.isDownload = true) : n.kind = .download := by
  cases n <;> first | rfl | cases hn

theorem not_worker_of_isDownload (hp : plays n r = true) (hn : n.isDownload = true) : ∀ w, r ≠ .download w := by
  rintro w rfl
  cases n <;> first | exact (Bool.false_ne_true hn).elim | exact (Bool.false_ne_true hp).elim

/-- A worker was one before. -/
theorem worker_next (hp : plays n r = true) (ha : Outline.allowed P n r o) (h : Outline.next n r o x = .download w) :
    ∃ w', r = .download w' ∧ w = Outline.nextWorker n w' o x := by
  have hp' := plays_next hp ha x
  rw [h] at hp'
  cases n with
  | downloadExecutor | downloadThread =>
    cases r with
    | download w' => exact ⟨w', rfl, (Role.download.inj h).symm⟩
    | _ => cases hp
  | _ => cases hp'

theorem solo_start {s' : State} (hF : Flows s ρ) (hJ : Solo s ρ) (hn : ρ n = none) (h : starts n s = some s') :
    Solo s' (Function.update ρ n (some (Outline.entry n))) := by
  -- a thread that is started is no worker, and leaves the flows and the journals alone
  have hold {m : Thread} {w : Worker} (hm : Function.update ρ n (some (Outline.entry n)) m = some (.download w)) :
      ρ m = some (.download w) := by
    rcases Protocol.role_update hm with ⟨rfl, he⟩ | ⟨-, hm⟩
    · rcases starts_cases h with ⟨-, -, hp⟩ | ⟨-, hi, -⟩
      · rw [← he] at hp
        cases hp
      · rw [hi] at he
        cases he
    · exact hm
  obtain ⟨hflows, hjournals⟩ : s'.flows = s.flows ∧ s'.journals = s.journals := by
    rcases starts_cases h with ⟨-, rfl, -⟩ | ⟨rfl, -⟩
    · exact ⟨rfl, rfl⟩
    · exact ⟨rfl, rfl⟩
  -- the flow of a request that is not idle is new, or has no other thread
  have hother {m : Thread} {r : Role} (hm : ρ m = some r) (hd : m.isDownload = true) (hr : r ≠ .idle) : n.flow ≠ m.flow := by
    intro hflow
    rcases starts_cases h with ⟨hnew, -, -⟩ | ⟨-, -, hc, -⟩
    · have := hF.lt m r hm
      omega
    · obtain ⟨k, hk, hkf⟩ := hF.captured n.flow hc
      obtain rfl := (hJ.request m r hm hd hr).2 k _ hk (hkf.trans hflow)
      have := kind_of_performing (hF.plays k _ hk)
      rw [kind_of_isDownload hd] at this
      cases this
  refine ⟨fun m r hm hd hr => ?_, fun m w k w' hm hk => hJ.hands m w k w' (hold hm) (hold hk), fun m w hm => ?_, fun m w hm => ?_⟩
  · rw [hflows]
    rcases Protocol.role_update hm with ⟨rfl, rfl⟩ | ⟨-, hm'⟩
    · rcases starts_cases h with ⟨hnew, -, -⟩ | ⟨-, -, -, hi⟩
      · rw [(hF.fresh m.flow (by omega)).1]
        refine ⟨rfl, fun k r' hk hkm => ?_⟩
        rcases Protocol.role_update hk with ⟨rfl, -⟩ | ⟨-, hk⟩
        · rfl
        · have := hF.lt k r' hk
          omega
      · rw [kind_of_isDownload hd] at hi
        cases hi
    · refine ⟨(hJ.request m r hm' hd hr).1, fun k r' hk hkm => ?_⟩
      rcases Protocol.role_update hk with ⟨rfl, -⟩ | ⟨-, hk⟩
      · exact absurd hkm (hother hm' hd hr)
      · exact (hJ.request m r hm' hd hr).2 k r' hk hkm
  · obtain ⟨hshort, hunread, hpackage, hcomplete⟩ := hJ.own m w (hold hm)
    refine ⟨hshort, ?_, ?_, ?_⟩
    · rw [hflows]
      exact hunread
    · rw [hflows]
      exact hpackage
    · unfold Complete
      rw [hjournals]
      exact hcomplete
  · have hr := hJ.reports m w (hold hm)
    unfold Reports Passed
    rw [hflows, hjournals]
    exact hr

/-- An executor that has nothing left to start keeps to that. -/
theorem left_next (ha : Outline.allowed P n (.download w) o) (h : w.left = some []) :
    (Outline.nextWorker n w o x).left = some [] := by
  cases o with
  | queryComponents caller =>
    cases caller with
    | downloadExecutor =>
      obtain ⟨hw, -⟩ := ha
      cases hw
      cases h
    | _ => exact h
  | ask q =>
    cases q with
    | newThread =>
      cases x with
      | true => exact h
      | false =>
        change w.left.map List.tail = some []
        rw [h]
        rfl
    | _ => exact h
  | spawn m =>
    change w.left.map List.tail = some []
    rw [h]
    rfl
  | _ => exact h

/-- The assignment of another worker of the flow to its components is of no consequence. -/
theorem own_components {v : Worker} {l : List FirmwareComponent} {x : Unit} (hJ : Solo s ρ) (hr : ρ n = some (.download v))
    (hm : ρ m = some (.download w)) (hmn : m ≠ n) (hflow : m.flow = n.flow) (hn : n.isDownloadExecutor = true)
    (hleft : v.left = some l) : Own (Op.after n s (.setFlow (.components l)) x) m w := by
  obtain ⟨hshort, -, -, hcomplete⟩ := hJ.own m w hm
  have hempty : ((Op.after n s (.setFlow (.components l)) x).flows m.flow).components = [] := by
    have := (hJ.hands n v m w hr hm hflow hmn).2 hn
    rw [hleft] at this
    obtain rfl := Option.some.inj this
    rw [hflow]
    simp [Op.after, Op.effect, State.setFlow, FlowUpdate.apply]
  refine ⟨hshort, fun _ _ => hempty, fun path _ row hrow => ?_, fun hc path hp => complete_after (hcomplete hc path hp)⟩
  rw [hempty] at hrow
  cases hrow

/-- While a worker is about to read `upgradeStatus_`, no other one of the flow assigns it. -/
theorem called_alone {v : Worker} {status shown : UpgradeStatus} (hJ : Solo s ρ) (hr : ρ n = some (.download v))
    (ha : Outline.allowed P n (.download v) (.setFlow (.upgradeStatus status))) (hm : ρ m = some (.download w)) (hmn : m ≠ n)
    (hphase : w.phase = .called shown) : m.flow ≠ n.flow := by
  intro hflow
  obtain ⟨v', hv, hleft, -⟩ := ha
  cases hv
  have hreports := hJ.reports m w hm
  rw [hphase] at hreports
  obtain ⟨hexecutor, hn⟩ := hJ.hands n v m w hr hm hflow hmn
  cases hexec : n.isDownloadExecutor with
  | true =>
    obtain ⟨component, l, hl⟩ := hleft hexec
    rw [hn hexec] at hl
    cases hl
  | false =>
    rw [hexec] at hexecutor
    exact hreports.2.1 hexecutor ((hJ.hands m w n v hm hr hflow.symm hmn.symm).2 hexecutor)

theorem solo_run {c : Config} {a : Answer} (hF : Flows c.state ρ) (hJ : Solo c.state ρ) (hok : singleKept c (.run n a) = true)
    (hnext : c.next n = some o) (hr : ρ n = some r) (ha : Outline.allowed P n r o) (hspawn : ∀ m, o ≠ .spawn m)
    (hx : o.answer n a c.state = some x) :
    Solo (o.after n c.state x) (Function.update ρ n (some (Outline.next n r o x))) := by
  have hworker {m : Thread} {w : Worker}
      (hm : Function.update ρ n (some (Outline.next n r o x)) m = some (.download w)) :
      (m = n ∧ ∃ w', r = .download w' ∧ w = Outline.nextWorker n w' o x) ∨ (m ≠ n ∧ ρ m = some (.download w)) := by
    rcases Protocol.role_update hm with ⟨rfl, hw⟩ | h
    · exact .inl ⟨rfl, worker_next (hF.plays m r hr) ha hw.symm⟩
    · exact .inr h
  refine ⟨fun m r' hm hd hne => ?_, fun m w k w' hm hk hflow hkm => ?_, fun m w hm => ?_, fun m w hm => ?_⟩
  · have hold : ∃ r, ρ m = some r ∧ r ≠ .idle := by
      rcases Protocol.role_update hm with ⟨rfl, rfl⟩ | ⟨-, hm'⟩
      · exact ⟨r, hr, request_next hd ha hne⟩
      · exact ⟨r', hm', hne⟩
    obtain ⟨q, hq, hqne⟩ := hold
    obtain ⟨hempty, halone⟩ := hJ.request m q hq hd hqne
    refine ⟨?_, fun k r'' hk hkm => ?_⟩
    · rw [after_components fun l ho hflow => ?_]
      · exact hempty
      · subst ho
        obtain ⟨w', rfl, -, -⟩ := worker_of_components ha
        obtain rfl := halone n _ hr hflow.symm
        exact not_worker_of_isDownload (hF.plays n _ hr) hd w' rfl
    · rcases Protocol.role_update hk with ⟨rfl, -⟩ | ⟨-, hk⟩
      · exact halone k r hr hkm
      · exact halone k r'' hk hkm
  · rcases hworker hm with ⟨rfl, v, rfl, rfl⟩ | ⟨-, hm'⟩
    · rcases hworker hk with ⟨rfl, -⟩ | ⟨-, hk⟩
      · exact absurd rfl hkm
      · obtain ⟨hexecutor, hleft⟩ := hJ.hands m v k w' hr hk hflow hkm
        exact ⟨hexecutor, fun hn => left_next ha (hleft hn)⟩
    · rcases hworker hk with ⟨rfl, v, rfl, rfl⟩ | ⟨-, hk⟩
      · exact hJ.hands m w k v hm' hr hflow hkm
      · exact hJ.hands m w k w' hm' hk hflow hkm
  · rcases hworker hm with ⟨rfl, v, rfl, rfl⟩ | ⟨hmn, hm'⟩
    · exact own_run (hJ.own m v hr) ha hok hnext hx hspawn
    · by_cases hassigns : ∃ l, o = .setFlow (.components l) ∧ m.flow = n.flow
      · obtain ⟨l, rfl, hflow⟩ := hassigns
        obtain ⟨v, rfl, hn, hleft⟩ := worker_of_components ha
        exact own_components hJ hr hm' hmn hflow hn hleft
      · exact own_after (hJ.own m w hm') fun l ho hflow => hassigns ⟨l, ho, hflow⟩
  · rcases hworker hm with ⟨rfl, v, rfl, rfl⟩ | ⟨hmn, hm'⟩
    · exact reports_run (hJ.reports m v hr) ha hx hspawn
    · refine reports_after (hJ.reports m w hm') ?_
      rintro status rfl ⟨shown, hphase⟩
      obtain ⟨v, rfl, -⟩ := id ha
      exact called_alone hJ hr ha hm' hmn hphase

/-- A worker that has something left to start is the only one of its flow. -/
theorem alone_of_left (hJ : Solo s ρ) {v : Worker} {component : FirmwareComponent} {l : List FirmwareComponent}
    (hn : n.isDownloadExecutor = true) (hr : ρ n = some (.download v)) (hleft : v.left = some (component :: l))
    (hm : ρ m = some (.download w)) (hflow : m.flow = n.flow) : m = n := by
  by_contra hmn
  have := (hJ.hands n v m w hr hm hflow hmn).2 hn
  rw [hleft] at this
  cases this

/-- A request starts its executor. -/
theorem solo_spawn_request (hJ : Solo s ρ) (hr : ρ n = some .ready) (hs : n.starts m = true) (hflow : m.flow = n.flow) :
    Solo s (Function.update (Function.update ρ n (some .idle)) m (some (Outline.entry m))) := by
  have hrole {k : Thread} {q : Role} (hk : Function.update (Function.update ρ n (some .idle)) m (some (Outline.entry m)) k = some q) :
      (k = m ∧ q = Outline.entry m) ∨ q = .idle ∨ (k ≠ n ∧ ρ k = some q) := by
    rcases Protocol.role_update hk with h | ⟨-, hk⟩
    · exact .inl h
    · rcases Protocol.role_update hk with ⟨-, rfl⟩ | ⟨hkn, hk⟩
      · exact .inr (.inl rfl)
      · exact .inr (.inr ⟨hkn, hk⟩)
  have hm : m.isDownload = false := by cases n <;> cases m <;> first | rfl | cases hs
  -- a worker that is started is an executor, by a request that is alone in its flow
  have hentry {w : Worker} (hw : Outline.entry m = .download w) : w = {} ∧ n.isDownload = true := by
    cases n <;> cases m <;> first | exact (Bool.false_ne_true hs).elim | exact ⟨(Role.download.inj hw).symm, rfl⟩ | cases hw
  refine ⟨fun k q hk hd hq => ?_, fun k v k' v' hk hk' hkf hkk => ?_, fun k v hk => ?_, fun k v hk => ?_⟩
  · rcases hrole hk with ⟨rfl, -⟩ | rfl | ⟨hkn, hk⟩
    · rw [hm] at hd
      cases hd
    · exact absurd rfl hq
    · obtain ⟨hempty, halone⟩ := hJ.request k q hk hd hq
      refine ⟨hempty, fun k' q' hk' hkf => ?_⟩
      rcases Protocol.role_update hk' with ⟨rfl, -⟩ | ⟨-, hk'⟩
      · exact absurd (halone n _ hr (hflow.symm.trans hkf)).symm hkn
      · rcases Protocol.role_update hk' with ⟨rfl, -⟩ | ⟨-, hk'⟩
        · exact absurd (halone k' _ hr hkf).symm hkn
        · exact halone k' q' hk' hkf
  · rcases hrole hk with ⟨rfl, he⟩ | hq | ⟨hkn, hold⟩
    · rcases hrole hk' with ⟨rfl, -⟩ | hq | ⟨hkn, hk'⟩
      · exact absurd rfl hkk
      · cases hq
      · exact absurd ((hJ.request n _ hr (hentry he.symm).2 Role.noConfusion).2 k' _ hk' (hkf.trans hflow)) hkn
    · cases hq
    · rcases hrole hk' with ⟨rfl, he⟩ | hq | ⟨-, hk'⟩
      · exact absurd ((hJ.request n _ hr (hentry he.symm).2 Role.noConfusion).2 k _ hold (hkf.symm.trans hflow)) hkn
      · cases hq
      · exact hJ.hands k v k' v' hold hk' hkf hkk
  · rcases hrole hk with ⟨rfl, he⟩ | hq | ⟨-, hk⟩
    · obtain ⟨rfl, hd⟩ := hentry he.symm
      have hempty := (hJ.request n _ hr hd Role.noConfusion).1
      rw [← hflow] at hempty
      refine ⟨fun _ hl => (by cases hl), fun _ _ => hempty, fun path _ row hrow => ?_, fun hc => by cases hc⟩
      rw [hempty] at hrow
      cases hrow
    · cases hq
    · exact hJ.own k v hk
  · rcases hrole hk with ⟨rfl, he⟩ | hq | ⟨-, hk⟩
    · obtain ⟨rfl, -⟩ := hentry he.symm
      trivial
    · cases hq
    · exact hJ.reports k v hk

/-- An executor starts the thread of the only component. -/
theorem solo_spawn_executor {f i : Nat} {options : DownloadOptions} {component : FirmwareComponent} {l : List FirmwareComponent}
    (hJ : Solo s ρ) (hr : ρ (.downloadExecutor f options) = some (.download w))
    (hleft : w.left = some (component :: l)) {w' : Worker} (hphase' : w'.phase = .working) (hleft' : w'.left = w.left.map List.tail) :
    Solo s (Function.update (Function.update ρ (.downloadExecutor f options) (some (.download w')))
      (.downloadThread f options i component.spath component.url) (some (.download { phase := .waiting }))) := by
  have hrole {k : Thread} {q : Role} (hk : Function.update (Function.update ρ (.downloadExecutor f options) (some (.download w')))
      (.downloadThread f options i component.spath component.url) (some (.download { phase := .waiting })) k = some q) :
      (k = .downloadThread f options i component.spath component.url ∧ q = .download { phase := .waiting }) ∨
        (k = .downloadExecutor f options ∧ q = .download w') ∨ (k ≠ .downloadExecutor f options ∧ ρ k = some q) := by
    rcases Protocol.role_update hk with h | ⟨-, hk⟩
    · exact .inl h
    · exact .inr (Protocol.role_update hk)
  -- the executor has been the only worker of the flow
  have halone {k : Thread} {v : Worker} (hk : ρ k = some (.download v)) (hkf : k.flow = f) : k = .downloadExecutor f options :=
    alone_of_left hJ rfl hr hleft hk hkf
  have hnil : w'.left = some [] := by
    have := (hJ.own _ w hr).short _ hleft
    rw [hleft', hleft]
    cases l with
    | nil => rfl
    | cons => simp at this
  refine ⟨fun k q hk hd hq => ?_, fun k v k' v' hk hk' hkf hkk => ?_, fun k v hk => ?_, fun k v hk => ?_⟩
  · rcases hrole hk with ⟨rfl, -⟩ | ⟨rfl, -⟩ | ⟨hkn, hk⟩
    · cases hd
    · cases hd
    · obtain ⟨hempty, hself⟩ := hJ.request k q hk hd hq
      refine ⟨hempty, fun k' q' hk' hkf => ?_⟩
      rcases hrole hk' with ⟨rfl, -⟩ | ⟨rfl, -⟩ | ⟨-, hk'⟩
      · exact absurd (hself _ _ hr hkf).symm hkn
      · exact absurd (hself _ _ hr hkf).symm hkn
      · exact hself k' q' hk' hkf
  · rcases hrole hk with ⟨rfl, hv⟩ | ⟨rfl, hv⟩ | ⟨hkn, hk⟩
    · rcases hrole hk' with ⟨rfl, -⟩ | ⟨rfl, -⟩ | ⟨hkn', hk'⟩
      · exact absurd rfl hkk
      · exact ⟨rfl, fun h => by cases h⟩
      · exact absurd (halone hk' hkf) hkn'
    · cases hv
      rcases hrole hk' with ⟨rfl, -⟩ | ⟨rfl, -⟩ | ⟨hkn', hk'⟩
      · exact ⟨rfl, fun _ => hnil⟩
      · exact absurd rfl hkk
      · exact absurd (halone hk' hkf) hkn'
    · rcases hrole hk' with ⟨rfl, -⟩ | ⟨rfl, -⟩ | ⟨-, hk'⟩
      · exact absurd (halone hk hkf.symm) hkn
      · exact absurd (halone hk hkf.symm) hkn
      · exact hJ.hands k v k' v' hk hk' hkf hkk
  · rcases hrole hk with ⟨rfl, hv⟩ | ⟨rfl, hv⟩ | ⟨-, hk⟩
    · cases hv
      refine ⟨fun _ hl => (by cases hl), fun hn => (by cases hn), fun path hp => ?_, fun hc => by cases hc⟩
      cases hp
      exact (hJ.own _ w hr).package component.spath (by simp [Worker.path, hleft])
    · cases hv
      exact own_tail (hJ.own _ w hr) rfl hleft'
    · exact hJ.own k v hk
  · rcases hrole hk with ⟨rfl, hv⟩ | ⟨rfl, hv⟩ | ⟨-, hk⟩
    · cases hv
      trivial
    · cases hv
      rw [hphase']
      trivial
    · exact hJ.reports k v hk

/-- On runs that keep the condition, downloads are of one component. -/
theorem invariant (P : Platform) (d : Store) : Invariant P d (fun c a => singleKept c a = true) Solo where
  init := ⟨fun _ _ h => (by cases h), fun _ _ _ _ h => (by cases h), fun _ _ h => (by cases h), fun _ _ h => (by cases h)⟩
  start := fun _ _ _ _ _ hF hJ _ hn hs => solo_start hF hJ hn hs
  run := fun _ _ _ _ _ _ _ _ hF hJ hok hnext hr ha _ hspawn hx _ => solo_run hF hJ hok hnext hr ha hspawn hx
  spawn := fun _ _ n r m _ _ _ hJ _ _ hr ha _ _ => by
    have hflow := (spawns_cases ha).1
    rcases ha with ⟨rfl, hs⟩ | ⟨f, options, i, component, l, w, rfl, rfl, hphase, hleft, rfl⟩
    · exact solo_spawn_request hJ hr hs hflow
    · exact solo_spawn_executor hJ hr hleft hphase rfl
  retire := fun s ρ n r hJ _ _ => by
    refine ⟨fun m q hm hd hq => ?_, fun m w k v hm hk => ?_, fun m w hm => ?_, fun m w hm => ?_⟩
    · obtain ⟨hempty, halone⟩ := hJ.request m q (Protocol.role_retire hm).2 hd hq
      exact ⟨hempty, fun k q' hk hkm => halone k q' (Protocol.role_retire hk).2 hkm⟩
    · exact hJ.hands m w k v (Protocol.role_retire hm).2 (Protocol.role_retire hk).2
    · exact hJ.own m w (Protocol.role_retire hm).2
    · exact hJ.reports m w (Protocol.role_retire hm).2

end SoloAux

end UpdateEngine
