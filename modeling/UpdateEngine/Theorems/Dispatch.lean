import UpdateEngine.Firmware.Lives
import UpdateEngine.Lemmas.DispatchAux

/-!
# What a flow makes of the end of a download

The end reason of a progress is a text, which is decoded twice: for the event, and by `GetStepAfterDownload`, which raises an exception
where there is no number. And it is not the status of the progress that `GetStepAfterDownload` goes by, but the one in the task row.
-/

namespace UpdateEngine

open Concurrent

/-! ## The end reason -/

/-- The code `BuildTaskBody` finds: that of the message it adds, zero when it adds none. -/
def bodyErrorCode (versionDigest : String) (progress : Progress) : Int :=
  ((buildTaskBody versionDigest progress).errorMessages.head?.map (·.errorCode)).getD 0

/-- A thread for a file whose path the downloader refuses. -/
def Thread.isRefused : Thread → Bool
  | .downloadThread _ _ _ fileName _ => hasDot fileName
  | _ => false

/-- The executor finds components, and a task that no other downloader works for; no thread sets to work for a path that is refused; and
the file can be opened, and a handle for the transfer be had. -/
def reasonsRead (c : Config) : Action → Bool
  | .start _ => true
  | .run n a => match c.next n with
    | some (.queryComponents .downloadExecutor) => !c.state.components.isEmpty
    | some (.queryTasks .downloadExecutor) => c.state.tasks.head?.all fun t => t.downloadTaskId = ""
    | some (.awaitWake i) => !n.isRefused || ((c.state.flows n.flow).wakes i).isExitThread
    | some (.openFile _) | some (.ask .curlInit) => a ≠ .bool false
    | _ => true

/-- A worker of a download takes no progress to its flow of which the two conversions find different codes, and raises no exception. -/
structure ReasonsAgree (c : Config) (n : Thread) : Prop where
  codes : ∀ p, c.next n = some (.enter (.onDownloadCallback p)) → ∀ versionDigest,
    FirmwareDownloadMode.errorCode p.endReason = some (bodyErrorCode versionDigest p)
  goesOn : c.next n ≠ some .terminate

namespace DispatchAux

open StepAux FlowsAux

variable {P : Platform} {c : Config} {n : Thread} {s : State} {ρ : Thread → Option Delivery} {r : Delivery}

theorem bodyErrorCode_eq (versionDigest : String) (progress : Progress) :
    bodyErrorCode versionDigest progress = atoi progress.endReason := by
  unfold bodyErrorCode buildTaskBody
  by_cases h : atoi progress.endReason = 0 <;> simp [h]

/-- The progress of a flow changes by one assignment only. -/
theorem after_downloadProgress (n : Thread) (s : State) (o : Op) (x : o.Res) (f : Nat) :
    ((o.after n s x).flows f).downloadProgress = (s.flows f).downloadProgress ∨
      f = n.flow ∧ ∃ p, o = .setFlow (.downloadProgress p) ∧ ((o.after n s x).flows f).downloadProgress = p := by
  by_cases hf : f = n.flow
  · subst hf
    cases o with
    | setFlow u =>
      cases u with
      | downloadProgress p => exact .inr ⟨rfl, p, rfl, by simp [Op.after, Op.effect, State.setFlow, FlowUpdate.apply]⟩
      | _ => exact .inl (by simp [Op.after, Op.effect, State.setFlow, FlowUpdate.apply])
    | openFile p | saveDataToFile p d => cases x <;> exact .inl rfl
    | awaitWake i => cases x <;> exact .inl (by simp [Op.after, Op.effect, State.setFlow, FlowUpdate.apply])
    | enter m => cases m <;> exact .inl rfl
    | _ => exact .inl rfl
  · exact .inl (by rw [after_flows_of_ne o x hf])

/-- In the flows of downloads the end reason can be read. -/
def Legible (s : State) (ρ : Thread → Option Delivery) : Prop :=
  ∀ n r, ρ n = some r → n.kind = .download → Readable (s.flows n.flow).downloadProgress.endReason

/-- A thread of a download leaves a progress that can be read. -/
theorem allowed_progress {p : Progress} (ha : delivering.allowed n r (.setFlow (.downloadProgress p))) (hn : n.kind = .download) :
    Readable p.endReason := by
  cases n with
  | download f o => exact absurd rfl (ha.2 rfl p)
  | downloadExecutor | downloadThread => exact (ha.1 rfl).1
  | upgrade f o =>
    simp only [Thread.kind] at hn
    split at hn <;> first | cases hn | (split at hn <;> cases hn)
  | _ => cases hn

/-- An operation keeps the end reasons readable. -/
theorem legible_run {o : Op} {x : o.Res} (h : Legible c.state ρ) (hf : Fits P c) (hρ : delivering.Tracks c ρ)
    (hn : ρ n = some r) (ha : delivering.allowed n r o) {m : Thread} {r' : Delivery} (hm : ρ m = some r') (hk : m.kind = .download) :
    Readable ((o.after n c.state x).flows m.flow).downloadProgress.endReason := by
  rcases after_downloadProgress n c.state o x m.flow with he | ⟨hflow, p, rfl, he⟩
  · rw [he]
    exact h m r' hm hk
  · rw [he]
    have hlive {k : Thread} {q : Delivery} (hk : ρ k = some q) : c.live k = true := (hρ.live_iff k).mpr (by simp [hk])
    exact allowed_progress ha ((kind_eq hf (hlive hn) (hlive hm) hflow.symm).trans hk)

/-- The condition makes the answers expected. -/
theorem expects_of_reasonsRead {a : Answer} {o : Op} {x : o.Res} (h : Legible c.state ρ) (hok : reasonsRead c (.run n a) = true)
    (hnext : c.next n = some o) (hr : ρ n = some r) (hn : n.downloads = true) (hx : o.answer n a c.state = some x) :
    expects n o x := by
  simp only [reasonsRead, hnext] at hok
  cases o with
  | queryComponents caller =>
    cases Option.some.inj hx
    cases caller with
    | downloadExecutor => simpa [expects] using hok
    | _ => trivial
  | queryTasks caller =>
    cases Option.some.inj hx
    cases caller with
    | downloadExecutor =>
      intro t ht
      rw [Option.mem_def.mp ht] at hok
      exact of_decide_eq_true hok
    | _ => trivial
  | awaitWake i =>
    obtain ⟨-, hx⟩ := Option.ite_none_right_eq_some.mp hx
    cases Option.some.inj hx
    rcases (Bool.or_eq_true ..).mp hok with hdot | hexit
    · refine .inr ?_
      rintro f o j fileName url rfl
      simpa [Thread.isRefused] using hdot
    · exact .inl hexit
  | openFile p =>
    cases a with
    | bool b =>
      cases Option.some.inj hx
      simpa [expects] using hok
    | _ => cases hx
  | ask q =>
    cases q with
    | curlInit =>
      cases a with
      | bool b =>
        cases Option.some.inj hx
        simpa [expects] using hok
      | _ => cases hx
    | _ => trivial
  | getFlow =>
    cases Option.some.inj hx
    exact h n r hr (DownloadsAux.kind_of_downloads hn)
  | _ => trivial

/-- On runs on which the end reasons can be read, they can. -/
def reasons (P : Platform) (d : Store) :
    Simulation (machine P) delivering (fun c a => reasonsRead c a = true ∧ Fits P c) d.state Legible where
  occurs := fun _ => True
  occurs_start := fun _ _ _ => trivial
  occurs_spawn := fun _ _ _ _ _ _ _ => trivial
  conforms := fun n _ => conforms P n
  init := fun _ _ h => by cases h
  start := fun c ρ n s hρ h hok hn _ hs m r hm hk => by
    obtain ⟨σ, hσ, hF⟩ := hok.2
    rcases starts_cases hs with ⟨hflow, rfl, -⟩ | ⟨rfl, -, -, hinstall⟩
    · rcases Protocol.role_update hm with ⟨rfl, -⟩ | ⟨-, hm⟩
      · -- a request has a flow that nothing was done with
        rw [(hF.fresh m.flow (by omega)).1]
        decide
      · exact h m r hm hk
    · rcases Protocol.role_update hm with ⟨rfl, -⟩ | ⟨-, hm⟩
      · rw [hinstall] at hk
        cases hk
      · exact h m r hm hk
  expected := fun c ρ n r o x a s _ h _ hok hnext hr _ hx hn =>
    expects_of_reasonsRead h hok.1 hnext hr hn (exec_eq_some hx).2.1
  run := fun c ρ n r o x a s hρ h _ hok hnext hr ha _ _ hx _ m r' hm hk => by
    obtain ⟨-, -, rfl⟩ := exec_eq_some hx
    rcases Protocol.role_spawn _ hm with ⟨hs, -⟩ | ⟨rfl, -⟩ | ⟨-, hm⟩
    · obtain rfl : o = .spawn m := by
        cases o with
        | spawn k => cases hs; rfl
        | _ => cases hs
      obtain ⟨hflow, hkind⟩ := spawns_flow hok.2 hnext
      rw [hflow]
      exact legible_run h hok.2 hρ hr ha hr (hkind.symm.trans hk)
    · exact legible_run h hok.2 hρ hr ha hr hk
    · exact legible_run h hok.2 hρ hr ha hm hk
  retire := fun s ρ n r h _ _ m r' hm hk => h m r' (Protocol.role_retire hm).2 hk

end DispatchAux

open DispatchAux in
/-- As long as the executor finds components and a task that is not another downloader's, no thread sets to work for a path that is
refused, and files and handles can be had: the codes that `GetStepAfterDownload` and `BuildTaskBody` derive from the end reason of a
progress agree, and no exception is raised. -/
theorem end_reasons_agree (P : Platform) {d : Store} {c : Config} (h : Reach (machine P) (fun c a => reasonsRead c a = true) d.boot c)
    {n : Thread} (hn : n.downloads = true) : ReasonsAgree c n := by
  have hfits := Reach.strengthen (I := FlowsAux.Fits P) (fun _ hc => FlowsAux.fits_of_reach hc) h
  obtain ⟨⟨ρ, hρ, -⟩, -⟩ := (reasons P d).invariant hfits
  constructor
  · intro p hp versionDigest
    obtain ⟨r, -, ha⟩ := hρ.allowed hp
    rw [bodyErrorCode_eq]
    exact (ha.1 hn).1
  · intro ht
    obtain ⟨r, -, ha⟩ := hρ.allowed ht
    exact ha.1 hn

/-- Whether a thread is about to take the end of a download with this status to its flow. -/
def Config.ends (c : Config) (n : Thread) (status : UpgradeStatus) : Bool := (c.next n).any fun o => match o with
  | .enter (.onDownloadCallback p) => p.status = status
  | _ => false

/-- A phone that has found a version comes to download its package: up to the report of its thread. -/
def phoneReports : List (Thread × Nat) := phoneChecks ++
  [(.download 2 {}, 10), (.downloadExecutor 2 {}, 10), (phoneThread 2, 16)]

theorem end_reasons_agree_phone :
    ∃ c : Config, Config.ends c (phoneThread 2) .downloadSuccess = true ∧ ReasonsAgree c (phoneThread 2) := by
  have h : ((machine .phone).follow reasonsRead
      ((machine .phone).turns favourable (turnsOf phoneReports) (Store.boot {})) (Store.boot {})).any (fun c =>
        Config.ends c (phoneThread 2) .downloadSuccess) = true := by decide +kernel
  obtain ⟨c, hc, hp⟩ := Reach.exists_of_follow h
  exact ⟨c, hp, end_reasons_agree .phone hc rfl⟩

/-- A response that names a package whose file is hidden. -/
def hiddenJson : Json := .obj [("searchStatus", .num 0),
  ("checkResults", .arr [.obj [("descriptPackageId", .str "package"), ("packageType", .num 1), ("versionName", .str "2.0"),
    ("versionCode", .str "2.0"), ("url", .str "server/.package"), ("size", .num 1), ("verifyInfo", .str "")]]),
  ("descriptInfo", .arr [])]

/-- A phone whose server answers with it. -/
def hiddenPhone : Platform := { Platform.phone with jsonParse := fun text => if text = versionText then some hiddenJson else none }

/-- The thread for that package. -/
def hiddenThread : Thread := .downloadThread 2 {} 0 (Firmware.PACKAGE_PATH ++ "/.package") "server/.package"

/-- The phone comes to the end of the download. -/
def phoneRefuses : List (Thread × Nat) := phoneChecks ++
  [(.download 2 {}, 10), (.downloadExecutor 2 {}, 9), (hiddenThread, 20)]

/-- The end reason of a path that is refused is no number: the process is terminated. -/
theorem end_reason_throws : ∃ c : Config, Reach (machine hiddenPhone) (fun _ _ => True) (Store.boot {}) c ∧
    ¬ReasonsAgree c hiddenThread := by
  have h : ((machine hiddenPhone).follow (fun _ _ => true)
      ((machine hiddenPhone).turns favourable (turnsOf phoneRefuses) (Store.boot {})) (Store.boot {})).any (fun c =>
        (c.next hiddenThread).any fun o => match o with
          | .terminate => true
          | _ => false) = true := by decide +kernel
  obtain ⟨c, hc, hp⟩ := Reach.exists_of_follow h
  refine ⟨c, hc.mono fun _ _ _ => trivial, fun hagree => hagree.goesOn ?_⟩
  obtain ⟨o, ho, hterminate⟩ := (Option.any_eq_true ..).mp hp
  cases o with
  | terminate => exact ho
  | _ => cases hterminate

/-! ## The status -/

/-- The end that a worker is reporting: it is about to take it to its flow, or has done so and not read the task row yet. -/
def Config.reports (c : Config) (n : Thread) : Option Progress := match c.next n with
  | some (.enter (.onDownloadCallback p)) => if p.status = .downloading then none else some p
  | _ => c.state.history.delivered n

/-- No other worker is reporting an end. -/
def Config.soleReport (c : Config) (n : Thread) : Bool := c.all fun m => m = n || (Config.reports c m).isNone

/-- The end reasons can be read, and there is a thread for every package unless the row that is read first says that the download has
failed. The end of a download is written to that row where it does not say so yet, and while it is being reported no other thread
changes the status there. It is reported in the download step, and no flow leaves the step while another thread is reporting in it. -/
def dispatchKept (c : Config) (a : Action) : Bool := reasonsRead c a && match a with
  | .start _ => true
  | .run n a => match c.next n with
    | some (.ask .newThread) => a ≠ .bool false || c.state.status = some .downloadFail
    | some (.updateTasks caller i (.progress status _)) =>
      c.state.status = some status || bif c.state.tasks.head?.any fun t => t.taskId = i then Config.soleReport c n
        else caller ≠ .downloadCallback || status = .downloading
    | some .deleteTasks => Config.soleReport c n
    | some (.enter (.onDownloadCallback p)) => p.status = .downloading || (c.state.flows n.flow).nextStep = .downloadStep
    | some (.setFlow (.nextStep _)) => c.all fun m => m = n || m.flow ≠ n.flow || (Config.reports c m).isNone
    | _ => true

/-- A worker that has taken an end to its flow finds the flow in the download step, and in the task row the status of that end; and it
goes on with the switch. -/
structure Dispatches (c : Config) (n : Thread) : Prop where
  step : ∀ p, c.state.history.delivered n = some p → c.next n = some .getNextStep →
    (c.state.flows n.flow).nextStep = .downloadStep
  status : ∀ p, c.state.history.delivered n = some p → c.next n = some (.queryTasks .stepAfterDownload) →
    c.state.status = some p.status
  goesOn : c.next n ≠ some .terminate

namespace DispatchAux

open StepAux FlowsAux

variable {P : Platform} {c : Config} {n m : Thread} {s : State} {ρ : Thread → Option Delivery} {r : Delivery} {o : Op}

/-- What a worker has delivered is in the row that is read first. -/
def Reported (s : State) (n : Thread) : Prop := ∃ p, s.history.delivered n = some p ∧ s.status = some p.status

/-- The state agrees with how far a worker has come. -/
def Agrees (s : State) (n : Thread) : Delivery → Prop
  | .calm => True
  | .refused => n.downloads = true ∧ s.status = some .downloadFail
  | .written status => n.downloads = true ∧ (status ≠ .downloading → s.status = some status)
  | .told _ => n.downloads = true ∧ (s.flows n.flow).nextStep = .downloadStep ∧ Reported s n
  | .reading _ => n.downloads = true ∧ Reported s n

/-- It agrees with every thread. -/
def Agreed (s : State) (ρ : Thread → Option Delivery) : Prop := ∀ n r, ρ n = some r → Agrees s n r

/-! ### Steps -/

theorem after_delivered (n : Thread) (s : State) (o : Op) (x : o.Res) (m : Thread) :
    (o.after n s x).history.delivered m =
      if m = n then Progress.delivered (s.history.delivered n) o else s.history.delivered m := by
  simp [Op.after, Op.chronicle, Function.update_apply]

/-- An operation that writes no status of the row that is read first leaves it. -/
theorem after_status_eq {x : o.Res} (hrecords : recordsOf s o = none) (hinserts : s.status ≠ none → insertsOf s o = none)
    (hs : s.status ≠ none) : (o.after n s x).status = s.status := by
  rw [after_status, hrecords, hinserts hs]
  rfl

/-- A row is added behind the one that is read first. -/
theorem insertsOf_eq_none (hs : s.status ≠ none) : insertsOf s o = none := by
  cases o with
  | insertTask t =>
    have hne : s.tasks ≠ [] := by
      intro hnil
      simp [State.status, hnil] at hs
    exact if_neg hne
  | _ => rfl

/-! ### The worker itself -/

/-- A worker that is told of nothing else keeps what it has reported. -/
theorem reported_self {x : o.Res} (h : Reported s n) (hrecords : recordsOf s o = none)
    (hdelivered : Progress.delivered (s.history.delivered n) o = s.history.delivered n) :
    Reported (o.after n s x) n := by
  obtain ⟨p, hp, hs⟩ := h
  have hsome : s.status ≠ none := by
    rw [hs]
    exact Option.some_ne_none _
  refine ⟨p, ?_, ?_⟩
  · rw [after_delivered, if_pos rfl, hdelivered, hp]
  · rw [after_status_eq hrecords insertsOf_eq_none hsome, hs]

/-- The operations by which a worker gets from one part of a report to the next. -/
def advances : Op → Bool
  | .ask .newThread | .updateTasks .downloadCallback _ (.progress _ _) | .enter (.onDownloadCallback _) | .getNextStep
  | .queryTasks .stepAfterDownload => true
  | _ => false

theorem next_of_not_advances (ho : advances o = false) (x : o.Res) : next r o x = r := by
  cases o with
  | queryTasks c => cases c <;> first | rfl | cases ho
  | updateTasks c i u => cases c <;> cases u <;> first | rfl | cases ho
  | enter m => cases m <;> first | rfl | cases ho
  | ask q => cases q <;> first | rfl | cases ho
  | getNextStep => cases ho
  | _ => rfl

/-- A worker with a report to take to its flow goes on to it. -/
theorem advances_of_pending (hr : r.pending = true) (ha : allowed r o) :
    ∃ p, o = .enter (.onDownloadCallback p) ∧ (r = .refused ∧ p.status = .downloadFail ∨ r = .written p.status) := by
  have hne (h : r.pending = false) : False := Bool.noConfusion (hr.symm.trans h)
  have hcalm (h : r = .calm) : False := hne (by rw [h]; rfl)
  cases o with
  | enter m =>
    cases m with
    | onDownloadCallback p => exact ⟨p, rfl, ha.2⟩
    | _ => exact (hne ha).elim
  | setFlow u =>
    cases u with
    | downloadProgress p => exact (hne ha.2).elim
    | nextStep step => exact (hcalm ha).elim
    | _ => exact (hne ha).elim
  | queryTasks k =>
    cases k with
    | stepAfterDownload =>
      obtain ⟨_, rfl⟩ := ha
      cases hr
    | _ => exact (hne ha).elim
  | ask q =>
    cases q with
    | newThread => exact (hcalm ha).elim
    | _ => exact (hne ha).elim
  | getNextStep =>
    obtain ⟨_, rfl⟩ := ha
    cases hr
  | updateTasks | insertTask | deleteTasks => exact (hcalm ha).elim
  | terminate => exact ha.elim
  | _ => exact (hne ha).elim

/-- While it reports an end, a worker neither writes the task row nor gives its flow a step. -/
theorem still_of_reporting (hr : r ≠ .calm) (ha : allowed r o) (ho : advances o = false) (s : State) (j : Option Progress) :
    recordsOf s o = none ∧ stepOf o = none ∧ Progress.delivered j o = j := by
  cases o with
  | queryTasks k => cases k <;> first | exact ⟨rfl, rfl, rfl⟩ | cases ho
  | enter m => cases m <;> first | exact ⟨rfl, rfl, rfl⟩ | cases ho
  | setFlow u =>
    cases u with
    | nextStep step => exact absurd ha hr
    | _ => exact ⟨rfl, rfl, rfl⟩
  | updateTasks | insertTask | deleteTasks => exact absurd ha hr
  | _ => exact ⟨rfl, rfl, rfl⟩

/-- Any other leaves a worker where it is. -/
theorem agrees_still {x : o.Res} (h : Agrees s n r) (ha : allowed r o) (ho : advances o = false) :
    Agrees (o.after n s x) n (next r o x) := by
  rw [next_of_not_advances ho x]
  cases r with
  | calm => trivial
  | refused | written =>
    -- it would take its report to the flow
    obtain ⟨p, rfl, -⟩ := advances_of_pending rfl ha
    cases ho
  | told status =>
    obtain ⟨hrecords, hstep, hdelivered⟩ := still_of_reporting Delivery.noConfusion ha ho s (s.history.delivered n)
    refine ⟨h.1, ?_, reported_self h.2.2 hrecords hdelivered⟩
    rw [after_nextStep, if_pos rfl, hstep]
    exact h.2.1
  | reading status =>
    obtain ⟨hrecords, -, hdelivered⟩ := still_of_reporting Delivery.noConfusion ha ho s (s.history.delivered n)
    exact ⟨h.1, reported_self h.2 hrecords hdelivered⟩

/-- A worker that gets on with its report, on a run that keeps the condition. -/
theorem agrees_advance {x : o.Res} {a : Answer} (hn : n.downloads = true) (h : Agrees c.state n r) (ha : allowed r o)
    (ho : advances o = true) (hok : dispatchKept c (.run n a) = true) (hnext : c.next n = some o)
    (hx : o.answer n a c.state = some x) : Agrees (o.after n c.state x) n (next r o x) := by
  simp only [dispatchKept, hnext, Bool.and_eq_true] at hok
  obtain ⟨-, hok⟩ := hok
  cases o with
  | queryTasks k => cases k <;> first | exact trivial | cases ho
  | getNextStep =>
    obtain ⟨status, rfl⟩ := ha
    change Agrees _ n (if x = .downloadStep then .reading status else .calm)
    split
    · exact ⟨hn, reported_self h.2.2 rfl rfl⟩
    · trivial
  | ask q =>
    cases q with
    | newThread =>
      cases a with
      | bool b =>
        cases Option.some.inj hx
        cases x with
        | true => trivial
        | false =>
          have hs : c.state.status = some .downloadFail := by simpa using hok
          exact ⟨hn, (after_status_eq rfl insertsOf_eq_none (by simp [hs])).trans hs⟩
      | _ => cases hx
    | _ => cases ho
  | updateTasks k i u =>
    cases k with
    | downloadCallback =>
      cases u with
      | progress status percent =>
        refine ⟨hn, fun hstatus => ?_⟩
        rw [after_status]
        by_cases hhead : (c.state.tasks.head?.any fun t => t.taskId = i) = true
        · simp only [recordsOf, hhead, if_true, statusOf]
        · have hs : c.state.status = some status := by simpa [hhead, hstatus] using hok
          simp only [recordsOf, if_neg hhead, insertsOf, Option.none_or, hs]
      | _ => cases ho
    | _ => cases ho
  | enter m =>
    cases m with
    | onDownloadCallback p =>
      by_cases hp : p.status = .downloading
      · simp only [next, if_pos hp]
        trivial
      have hs : c.state.status = some p.status := by
        rcases ha.2 with ⟨rfl, hfail⟩ | rfl
        · rw [hfail]
          exact h.2
        · exact h.2 hp
      have hstep : (c.state.flows n.flow).nextStep = .downloadStep := by simpa [hp] using hok
      have htold : ((Op.after n c.state (.enter (.onDownloadCallback p)) x).flows n.flow).nextStep = .downloadStep :=
        (after_nextStep ..).trans ((if_pos rfl).trans hstep)
      have hreported : Reported (Op.after n c.state (.enter (.onDownloadCallback p)) x) n :=
        ⟨p, ((after_delivered ..).trans (if_pos rfl)).trans (if_neg hp),
          (after_status_eq rfl insertsOf_eq_none (by simp [hs])).trans hs⟩
      simp only [next, if_neg hp]
      rcases ha.2 with ⟨rfl, -⟩ | rfl <;> exact ⟨hn, htold, hreported⟩
    | _ => cases ho
  | _ => cases ho

/-! ### The other threads -/

/-- A worker that has written the status of an end, or taken one to its flow, is reporting it. -/
theorem reports_of_agrees (hρ : delivering.Tracks c ρ) (hm : ρ m = some r) (h : Agrees c.state m r) (hr : r ≠ .calm)
    (hdownloading : r ≠ .written .downloading) : c.live m = true ∧ ∃ p, Config.reports c m = some p := by
  have hlive : c.live m = true := (hρ.live_iff m).mpr (by simp [hm])
  obtain ⟨o, ho⟩ := Option.isSome_iff_exists.mp hlive
  obtain ⟨r', hr', ha⟩ := hρ.allowed ho
  obtain rfl : r = r' := Option.some.inj (hm.symm.trans hr')
  refine ⟨hlive, ?_⟩
  have hpending (hp : r.pending = true) (hworks : m.downloads = true) : ∃ p, Config.reports c m = some p := by
    obtain ⟨p, rfl, hrole⟩ := advances_of_pending hp (ha.1 hworks)
    unfold Config.reports
    rw [ho]
    refine ⟨p, if_neg fun hstatus => ?_⟩
    rcases hrole with ⟨-, hfail⟩ | rfl
    · cases hfail.symm.trans hstatus
    · exact hdownloading (by rw [hstatus])
  have htold (hworks : m.downloads = true) (hp : r.pending = false) (hdelivered : ∃ p, c.state.history.delivered m = some p) :
      ∃ p, Config.reports c m = some p := by
    unfold Config.reports
    rw [ho]
    split
    · rename_i p he
      cases he
      rcases (ha.1 hworks).2 with ⟨rfl, -⟩ | rfl <;> cases hp
    · exact hdelivered
  cases r with
  | calm => exact absurd rfl hr
  | refused | written => exact hpending rfl h.1
  | told status =>
    obtain ⟨hworks, -, p, hp, -⟩ := h
    exact htold hworks rfl ⟨p, hp⟩
  | reading status =>
    obtain ⟨hworks, p, hp, -⟩ := h
    exact htold hworks rfl ⟨p, hp⟩

/-- While another thread reports, the status of the row that is read first stays. -/
theorem status_kept {a : Answer} {x : o.Res} (hok : dispatchKept c (.run n a) = true) (hnext : c.next n = some o)
    (hsole : Config.soleReport c n = false) (hs : c.state.status ≠ none) : (o.after n c.state x).status = c.state.status := by
  simp only [dispatchKept, hnext, Bool.and_eq_true] at hok
  cases o with
  | updateTasks caller i u =>
    cases u with
    | progress status percent =>
      rw [after_status]
      by_cases hhead : (c.state.tasks.head?.any fun t => t.taskId = i) = true
      · have hstatus : c.state.status = some status := by simpa [hhead, hsole] using hok.2
        simp only [recordsOf, hhead, if_true, statusOf, hstatus]
      · simp only [recordsOf, if_neg hhead, insertsOf, Option.none_or]
    | _ => exact after_status_eq rfl insertsOf_eq_none hs
  | deleteTasks => simp [hsole] at hok
  | _ => exact after_status_eq rfl insertsOf_eq_none hs

/-- While another thread of the flow reports, the flow stays in its step. -/
theorem step_kept {a : Answer} {x : o.Res} (hok : dispatchKept c (.run n a) = true) (hnext : c.next n = some o) (hm : m ≠ n)
    (hlive : c.live m = true) {p : Progress} (hp : Config.reports c m = some p) :
    ((o.after n c.state x).flows m.flow).nextStep = (c.state.flows m.flow).nextStep := by
  rw [after_nextStep]
  split
  · rename_i hflow
    cases hstep : stepOf o with
    | none => rfl
    | some step =>
      have ho : o = .setFlow (.nextStep step) := by
        cases o with
        | setFlow u => cases u <;> first | (cases hstep; rfl) | cases hstep
        | _ => cases hstep
      subst ho
      simp only [dispatchKept, hnext, Bool.and_eq_true] at hok
      have := Config.all_eq_true.mp hok.2 m hlive
      simp [hm, hflow, hp] at this
  · rfl

/-- An operation of another thread keeps what a worker reports. -/
theorem agrees_other {a : Answer} {x : o.Res} (hρ : delivering.Tracks c ρ) (hm : ρ m = some r) (hmn : m ≠ n)
    (h : Agrees c.state m r) (hok : dispatchKept c (.run n a) = true) (hnext : c.next n = some o) :
    Agrees (o.after n c.state x) m r := by
  by_cases hcalm : r = .calm
  · subst hcalm
    trivial
  by_cases hdownloading : r = .written .downloading
  · subst hdownloading
    exact ⟨h.1, fun hd => absurd rfl hd⟩
  obtain ⟨hlive, p, hp⟩ := reports_of_agrees hρ hm h hcalm hdownloading
  have hsole : Config.soleReport c n = false := by
    refine Bool.eq_false_iff.mpr fun hsole => ?_
    have := Config.all_eq_true.mp hsole m hlive
    simp [hmn, hp] at this
  have hkept {status : UpgradeStatus} (hs : c.state.status = some status) : (o.after n c.state x).status = some status :=
    (status_kept hok hnext hsole (by simp [hs])).trans hs
  have hreported (hs : Reported c.state m) : Reported (o.after n c.state x) m := by
    obtain ⟨q, hq, hrow⟩ := hs
    refine ⟨q, ?_, hkept hrow⟩
    rw [after_delivered, if_neg hmn, hq]
  cases r with
  | calm => trivial
  | refused => exact ⟨h.1, hkept h.2⟩
  | written status => exact ⟨h.1, fun hd => hkept (h.2 hd)⟩
  | told status => exact ⟨h.1, (step_kept hok hnext hmn hlive hp).trans h.2.1, hreported h.2.2⟩
  | reading status => exact ⟨h.1, hreported h.2⟩

/-! ### Runs -/

/-- On runs that keep the condition, the state agrees with how far the workers have come. -/
theorem dispatches (P : Platform) (d : Store) : Extension (machine P) delivering d.state Legible
    (fun c a => dispatchKept c a = true ∧ Fits P c) Agreed where
  init := fun _ _ h => by cases h
  start := fun c ρ n s hρ _ h hok hn hs m r hm => by
    rcases Protocol.role_update hm with ⟨-, rfl⟩ | ⟨-, hm⟩
    · trivial
    · have hm := h m r hm
      rcases starts_cases hs with ⟨-, rfl, -⟩ | ⟨rfl, -⟩ <;> cases r <;> exact hm
  run := fun c ρ n r o x a s hρ _ h hok hnext hr ha _ hsp hx _ m r' hm => by
    obtain ⟨-, hanswer, rfl⟩ := exec_eq_some hx
    rcases Protocol.role_spawn _ hm with ⟨-, rfl⟩ | ⟨rfl, rfl⟩ | ⟨hmn, hm⟩
    · trivial
    · have hr := h m r hr
      change Agrees _ m (if m.downloads then next r o x else r)
      by_cases hworks : m.downloads = true
      · rw [if_pos hworks]
        cases ho : advances o with
        | true => exact agrees_advance hworks hr (ha.1 hworks) ho hok.1 hnext hanswer
        | false => exact agrees_still hr (ha.1 hworks) ho
      · -- only a worker has anything to report
        rw [if_neg hworks]
        cases r with
        | calm => trivial
        | refused | written | told | reading => exact absurd hr.1 hworks
    · exact agrees_other hρ hm hmn (h m r' hm) hok.1 hnext
  retire := fun s ρ n r h _ _ m r' hm => h m r' (Protocol.role_retire hm).2

end DispatchAux

open DispatchAux in
/-- As long as the condition is kept, `GetStepAfterDownload` switches on the status of the progress that was delivered. -/
theorem dispatch_agrees (P : Platform) {d : Store} {c : Config} (h : Reach (machine P) (fun c a => dispatchKept c a = true) d.boot c)
    {n : Thread} (hn : n.downloads = true) : Dispatches c n := by
  have hfits := Reach.strengthen (I := FlowsAux.Fits P) (fun _ hc => FlowsAux.fits_of_reach hc) h
  have hreasons (c : Config) (a : Action) (hok : dispatchKept c a = true ∧ FlowsAux.Fits P c) :
      reasonsRead c a = true ∧ FlowsAux.Fits P c := by
    refine ⟨?_, hok.2⟩
    have := hok.1
    simp only [dispatchKept, Bool.and_eq_true] at this
    exact this.1
  obtain ⟨⟨ρ, hρ, -, hagreed⟩, -⟩ := ((reasons P d).extend hreasons (dispatches P d)).invariant hfits
  constructor
  · intro p hp hstep
    obtain ⟨r, hr, ha⟩ := hρ.allowed hstep
    obtain ⟨status, rfl⟩ := ha.1 hn
    exact (hagreed n _ hr).2.1
  · intro p hp hquery
    obtain ⟨r, hr, ha⟩ := hρ.allowed hquery
    obtain ⟨status, rfl⟩ := ha.1 hn
    obtain ⟨-, q, hq, hs⟩ := hagreed n _ hr
    obtain rfl : p = q := Option.some.inj (hp.symm.trans hq)
    exact hs
  · intro ht
    obtain ⟨r, -, ha⟩ := hρ.allowed ht
    exact ha.1 hn

/-- Whether the flow is about to read the task row for an end with this status. -/
def Config.dealsWith (c : Config) (n : Thread) (status : UpgradeStatus) : Bool :=
  (c.next n).any (fun o => match o with
    | .queryTasks .stepAfterDownload => true
    | _ => false) && (c.state.history.delivered n).any fun p => p.status = status

/-- The phone comes to the end of its download, and reads the task row. -/
def phoneDealsWith : List (Thread × Nat) := phoneChecks ++
  [(.download 2 {}, 10), (.downloadExecutor 2 {}, 10), (phoneThread 2, 24)]

theorem dispatch_agrees_phone :
    ∃ c : Config, Config.dealsWith c (phoneThread 2) .downloadSuccess = true ∧ Dispatches c (phoneThread 2) := by
  have h : ((machine .phone).follow dispatchKept
      ((machine .phone).turns favourable (turnsOf phoneDealsWith) (Store.boot {})) (Store.boot {})).any (fun c =>
        Config.dealsWith c (phoneThread 2) .downloadSuccess) = true := by decide +kernel
  obtain ⟨c, hc, hp⟩ := Reach.exists_of_follow h
  exact ⟨c, hp, dispatch_agrees .phone hc rfl⟩

/-- Answers of a phone that has no thread left. -/
def threadless : Op → Answer
  | .ask .newThread => .bool false
  | o => favourable o

/-- Its executor reports that the download was not started, and its flow reads the task row. -/
def phoneFails : List (Thread × Nat) := phoneChecks ++ [(.download 2 {}, 10), (.downloadExecutor 2 {}, 15)]

/-- The failure to start a thread is not written to the task row: the flow does not find a failure there. -/
theorem dispatch_differs : ∃ c : Config, Reach (machine .phone) (fun _ _ => True) (Store.boot {}) c ∧
    ¬Dispatches c (.downloadExecutor 2 {}) := by
  have h : ((machine .phone).follow (fun _ _ => true)
      ((machine .phone).turns threadless (turnsOf phoneFails) (Store.boot {})) (Store.boot {})).any (fun c =>
        Config.dealsWith c (.downloadExecutor 2 {}) .downloadFail && c.state.status = some .checkVersionSuccess) = true := by
    decide +kernel
  obtain ⟨c, hc, hp⟩ := Reach.exists_of_follow h
  refine ⟨c, hc.mono fun _ _ _ => trivial, fun hdispatches => ?_⟩
  simp only [Config.dealsWith, Bool.and_eq_true, decide_eq_true_eq] at hp
  obtain ⟨⟨hnext, hdelivered⟩, hstatus⟩ := hp
  obtain ⟨p, hp, hfail⟩ := (Option.any_eq_true ..).mp hdelivered
  obtain ⟨o, ho, hquery⟩ := (Option.any_eq_true ..).mp hnext
  obtain rfl : o = .queryTasks .stepAfterDownload := by
    split at hquery
    · rfl
    · cases hquery
  have hp' := (hdispatches.status p hp ho).symm.trans hstatus
  simp [of_decide_eq_true hfail] at hp'

end UpdateEngine
