import UpdateEngine.Lemmas.ReportAux
import UpdateEngine.Theorems.Responses

/-!
# Where things come from

What the tables hold, what is fetched and what an installer is given goes back to what the server has sent. `origins` is the protocol
that every thread keeps to: it has a single role, and says which components, addresses, files and statuses an operation may carry when
the answers before it carried no others.
-/

namespace UpdateEngine

open Concurrent

/-! ## Components of a response -/

/-- An entry of one of the responses `R` that lists a version. -/
def Sent (P : Platform) (R : String → Prop) (e : CheckResultEntry) : Prop :=
  ∃ text entries, R text ∧ acceptedEntries P text = some entries ∧ e ∈ entries

/-- A row is that of an entry that was sent, except for its status and progress, and for its URL, which is that of one that was sent. -/
def Genuine (P : Platform) (R : String → Prop) (c : FirmwareComponent) : Prop :=
  (∃ e, Sent P R e ∧ c = { e.row with url := c.url, status := c.status, progress := c.progress }) ∧
    ∃ e, Sent P R e ∧ c.url = e.url

/-- A task is named after all entries of one response. -/
def Titled (P : Platform) (R : String → Prop) (taskId : String) : Prop :=
  ∃ text entries, R text ∧ acceptedEntries P text = some entries ∧
    taskId = FirmwareUpdateHelper.buildTaskId P (entries.map CheckResultEntry.row)

/-- The statuses that a row is given. -/
def UpgradeStatus.isStored (s : UpgradeStatus) : Bool :=
  s = .checkVersionSuccess || s = .downloading || s = .downloadCancel || s = .downloadFail || s = .downloadSuccess ||
    s = .installing || s = .installFail || s = .installSuccess || s = .updating || s = .updateFail

namespace OriginAux

variable {P : Platform} {R : String → Prop}

/-- A thread that was started for something genuine: one that fetches a package, and one with an installer of a phone. -/
def Fine (P : Platform) (R : String → Prop) : Thread → Prop
  | .downloadThread _ _ _ fileName url => ∃ c, Genuine P R c ∧ c.spath = fileName ∧ c.url = url
  | .installExecutor _ _ installType | .applyExecutor _ _ installType => installType ≠ .quickFix
  | _ => True

/-- What an operation of such a thread may carry. -/
def carries (P : Platform) (R : String → Prop) (n : Thread) : Op → Prop
  | .insertTask t => Titled P R t.taskId ∧ t.status.isStored = true
  | .updateTasks _ _ (.progress s _) => s.isStored = true
  | .insertComponents l => ∀ c ∈ l, Genuine P R c ∧ c.status.isStored = true
  | .updateComponents _ (.progressByUrl _ s _) => s.isStored = true
  | .updateComponents _ (.urlByVersionId _ url) => ∃ e, Sent P R e ∧ url = e.url
  | .appendFile path _ => ∃ f o i url, n = .downloadThread f o i path url
  | .setFlow (.components l) => ∀ c ∈ l, Genuine P R c
  | .publish e => e.eventId ≠ .downloadPause
  | .spawn m => Fine P R m
  | .ask (.curlPerform url _) => ∃ f o i path, n = .downloadThread f o i path url
  | .ask (.startUpdatePackageZip path) => ∃ c, Genuine P R c ∧ c.spath = path
  | .ask (.rebootAndInstallUpgradePackage files) => ∀ path ∈ files, ∃ c, Genuine P R c ∧ c.spath = path
  | .enter (.performInstall l) => ∀ c ∈ l, Genuine P R c
  | .enter (.verified v) => ∃ c, Genuine P R c ∧ c.spath = v.path ∧ c.verifyInfo = v.verifyInfo
  | _ => True

/-- What is known of an answer. -/
def expects (P : Platform) (R : String → Prop) : (o : Op) → o.Res → Prop
  | .queryTasks _, tasks => ∀ t ∈ tasks, t.status.isStored = true
  | .queryComponents _, components => ∀ c ∈ components, Genuine P R c
  | .getFlow, w => ∀ c ∈ w.components, Genuine P R c
  | .ask .sslRead, text => ∀ t ∈ text, R t
  | _, _ => True

/-- The threads carry what they were given. -/
def origins (P : Platform) (R : String → Prop) : Protocol Op Op.Res Thread Unit where
  entry := fun _ => ()
  allowed := fun n _ o => Fine P R n → carries P R n o
  expects := fun _ _ o x => expects P R o x
  next := fun _ r _ _ => r
  final := fun _ => True

variable {n : Thread} {α β : Type}

/-- The program carries nothing else, and returns something that satisfies `Q`. -/
abbrev Keeps (P : Platform) (R : String → Prop) (n : Thread) (p : Prog α) (Q : α → Prop) : Prop :=
  (origins P R).Spec n p () fun a _ => Q a

/-- The same of any result. -/
abbrev Good (P : Platform) (R : String → Prop) (n : Thread) (p : Prog α) : Prop := Keeps P R n p fun _ => True

theorem keeps_op {o : Op} {k : o.Res → Prog α} {Q : α → Prop} (ho : Fine P R n → carries P R n o)
    (hk : ∀ x, expects P R o x → Keeps P R n (k x) Q) : Keeps P R n (.op o k) Q :=
  ⟨ho, hk⟩

theorem keeps_call {o : Op} {f : o.Res → Prog α} {Q : α → Prop} (ho : Fine P R n → carries P R n o)
    (hf : ∀ x, expects P R o x → Keeps P R n (f x) Q) : Keeps P R n (call o >>= f) Q :=
  keeps_op ho hf

theorem Keeps.seq {p : Prog α} {f : α → Prog β} {Q : α → Prop} {Q' : β → Prop} (hp : Keeps P R n p Q)
    (hf : ∀ a, Q a → Keeps P R n (f a) Q') : Keeps P R n (p >>= f) Q' :=
  Protocol.Spec.seq hp fun a _ ha => hf a ha

theorem Good.bind {p : Prog α} {f : α → Prog β} {Q : β → Prop} (hp : Good P R n p) (hf : ∀ a, Keeps P R n (f a) Q) :
    Keeps P R n (p >>= f) Q :=
  Keeps.seq hp fun a _ => hf a

theorem good_forM {l : List β} {f : β → Prog Unit} (hf : ∀ b ∈ l, Good P R n (f b)) : Good P R n (l.forM f) :=
  Protocol.Spec.forM trivial fun b hb _ _ => hf b hb

/-- The kinds of operations that carry nothing. -/
def plainKind : OpKind → Bool
  | .record | .report | .rows | .insert | .write | .publish | .steer | .spawn | .ask | .handOver | .stage => false
  | _ => true

theorem carries_of_kind {o : Op} (ho : plainKind o.kind = true) : carries P R n o := by
  cases o with
  | updateTasks c i u => cases u <;> trivial
  | updateComponents c u => cases c <;> cases ho
  | setFlow u => cases u <;> trivial
  | ask q => cases q <;> trivial
  | enter m => cases m <;> trivial
  | insertTask | insertComponents | appendFile | publish | spawn => cases ho
  | _ => trivial

theorem good_of_kinds {l : List OpKind} {p : Prog α} (hp : Kinds l p) (hl : l.all plainKind = true) : Good P R n p := by
  have hS : ∀ o : Op, l.contains o.kind = true → (origins P R).allowed n () o ∧ ∀ x, (origins P R).next n () o x = () :=
    fun o ho => ⟨fun _ => carries_of_kind (List.all_eq_true.mp hl _ (List.contains_iff_mem.mp ho)), fun _ => rfl⟩
  exact (Protocol.Spec.of_uses hS hp).mono fun _ _ _ => trivial

/-- The task that `QueryTask` gives: it has a stored status, if it exists. -/
theorem queryTask_keeps (c : Caller) (t : FirmwareTask) :
    Keeps P R n (FirmwareTaskOperator.queryTask c t) fun t' => t'.isExistTask = true → t'.status.isStored = true := by
  refine keeps_call (fun _ => trivial) fun tasks htasks => ?_
  cases tasks with
  | nil => exact Bool.noConfusion
  | cons t l => exact fun _ => htasks t (List.mem_cons_self ..)

/-! ## Events -/

theorem notifyEvent_good (d : String) {e : EventId} (he : e ≠ .downloadPause) (s : UpgradeStatus) (m : ErrorMessage)
    (l : List VersionComponent) : Good P R n (notifyEvent d e s m l) :=
  keeps_call (fun _ => he) fun _ _ => trivial

theorem progressCallback_good (d : String) {p : Progress} (hp : p.status.isStored = true) : Good P R n (progressCallback d p) := by
  refine keeps_call (fun _ => ?_) fun _ _ => trivial
  show progressEventId p.status ≠ .downloadPause
  cases hs : p.status <;> first | exact EventId.noConfusion | (rw [hs] at hp; cases hp)

theorem clearFirmwareInfo_good : Good P R n FirmwareUpdateHelper.clearFirmwareInfo := good_of_kinds KindsAux.clearFirmwareInfo_kinds rfl

/-! ## Checks -/

/-- The components of an accepted response, as the executor of a check hands them over. -/
def Listed (P : Platform) (R : String → Prop) (l : List FirmwareComponent) : Prop :=
  ∃ text entries, R text ∧ acceptedEntries P text = some entries ∧
    l = entries.map CheckResultEntry.listed

theorem Listed.sent {l : List FirmwareComponent} (h : Listed P R l) {c : FirmwareComponent} (hc : c ∈ l) :
    ∃ e, Sent P R e ∧ c = e.listed := by
  obtain ⟨text, entries, hR, hentries, rfl⟩ := h
  obtain ⟨e, he, rfl⟩ := List.mem_map.mp hc
  exact ⟨e, ⟨text, entries, hR, hentries, he⟩, rfl⟩

theorem genuine_row {e : CheckResultEntry} (h : Sent P R e) : Genuine P R e.row := ⟨⟨e, h, rfl⟩, e, h, rfl⟩

/-- With their paths they are the rows. -/
theorem map_buildComponentSPath (entries : List CheckResultEntry) :
    (entries.map CheckResultEntry.listed).map FirmwareCheckDataProcessor.buildComponentSPath =
      entries.map CheckResultEntry.row := by
  rw [List.map_map]
  rfl

theorem isChecking_good : Good P R n FirmwareStatusCache.isChecking := by
  refine keeps_call (fun _ => trivial) ?_
  rintro ⟨checking, lastCheckTime⟩ -
  dsimp only
  split
  · refine keeps_call (fun _ => trivial) fun now _ => ?_
    split <;> trivial
  · trivial

theorem setIsChecking_good (b : Bool) : Good P R n (FirmwareStatusCache.setIsChecking b) := by
  cases b <;> exact keeps_call (fun _ => trivial) fun _ _ => keeps_call (fun _ => trivial) fun _ _ => trivial

theorem checkStepAfterInit_good : Good P R n FirmwareManualCheckMode.getStepAfterInit := by
  have hbusy {f : FlowUpdate} {g : FlowUpdate} (hf : (Op.setFlow f).kind = .assign) (hg : (Op.setFlow g).kind = .assign) :
      Good P R n (call (.setFlow f) >>= fun _ => call (.setFlow g) >>= fun _ => .ret FirmwareStep.complete) :=
    keeps_call (fun _ => carries_of_kind (by rw [hf]; rfl)) fun _ _ => keeps_call (fun _ => carries_of_kind (by rw [hg]; rfl))
      fun _ _ => trivial
  refine isChecking_good.bind fun checking => ?_
  cases checking with
  | true => exact hbusy rfl rfl
  | false =>
    refine (good_of_kinds KindsAux.isUpdateOnStatus_kinds rfl).bind fun updating => ?_
    cases updating with
    | true => exact hbusy rfl rfl
    | false =>
      refine (good_of_kinds (KindsAux.isNetAvailable_kinds _) rfl).bind fun available => ?_
      cases available with
      | true => trivial
      | false => exact hbusy rfl rfl

theorem stepAfterCheck_good : Good P R n FirmwareManualCheckMode.getStepAfterCheck := by
  refine keeps_call (fun _ => trivial) fun w _ => ?_
  show Good P R n (if (_ : Bool) = true then _ else _)
  split
  · trivial
  · refine (good_of_kinds (KindsAux.queryTask_kinds rfl _) rfl).bind fun task => ?_
    split
    · refine (notifyEvent_good _ (by decide) _ _ _).bind fun _ => keeps_call (fun _ => trivial) fun b _ => ?_
      cases b with
      | true => trivial
      | false => exact (notifyEvent_good _ (by decide) _ _ _).bind fun _ => trivial
    · trivial

theorem handleNoNewVersion_good : Good P R n FirmwareCheckDataProcessor.handleNoNewVersion := by
  refine (good_of_kinds (KindsAux.queryTask_kinds rfl _) rfl).bind fun task => ?_
  split
  · exact (notifyEvent_good _ (by decide) _ _ _).bind fun _ => clearFirmwareInfo_good
  · exact clearFirmwareInfo_good

theorem handleNewVersion_good {l : List FirmwareComponent} (hl : Listed P R l) :
    Good P R n (FirmwareCheckDataProcessor.handleNewVersion P l) := by
  refine (good_of_kinds (KindsAux.isVersionSameWithDb_kinds l) rfl).bind fun same => keeps_call (fun _ => trivial) fun _ _ => ?_
  cases same with
  | true =>
    -- the rows get the URLs of the response
    refine (good_of_kinds (KindsAux.queryTask_kinds rfl _) rfl).bind fun task => ?_
    split
    · trivial
    · split
      · trivial
      · refine good_forM fun c hc => keeps_call (fun _ => ?_) fun _ _ => trivial
        obtain ⟨e, he, rfl⟩ := hl.sent hc
        exact ⟨e, he, rfl⟩
  | false =>
    obtain ⟨text, entries, hR, hentries, rfl⟩ := hl
    show Good P R n (FirmwareUpdateHelper.clearFirmwareInfo >>= _)
    refine clearFirmwareInfo_good.bind fun _ => keeps_call (fun _ => trivial) fun _ _ => ?_
    rw [map_buildComponentSPath]
    refine keeps_call (fun _ => ?_) fun _ _ => keeps_call (fun _ => ?_) fun _ _ => trivial
    · intro c hc
      obtain ⟨e, he, rfl⟩ := List.mem_map.mp hc
      exact ⟨genuine_row ⟨text, entries, hR, hentries, he⟩, rfl⟩
    · exact ⟨⟨text, entries, hR, hentries, rfl⟩, rfl⟩

/-- `SetCheckResult`, for nothing or for what an accepted response lists. -/
theorem setCheckResult_good (status : CheckStatus) {l : List FirmwareComponent} (hl : l = [] ∨ Listed P R l) :
    Good P R n (FirmwareCheckDataProcessor.setCheckResult P status l) := by
  refine keeps_call (fun _ => trivial) fun _ _ => keeps_call (fun _ => trivial) fun w _ => ?_
  show Good P R n (if FirmwareCheckDataProcessor.isCheckFailed w = true then _ else _)
  split
  · trivial
  · refine (good_of_kinds KindsAux.hasUndoneTask_kinds rfl).bind fun undone => ?_
    cases undone with
    | true => trivial
    | false =>
      show Good P R n (if l.isEmpty = true then _ else _)
      split
      · exact handleNoNewVersion_good.bind fun _ => keeps_call (fun _ => trivial) fun _ _ => trivial
      · rename_i hempty
        rcases hl with rfl | hl
        · exact absurd rfl hempty
        · exact (handleNewVersion_good hl).bind fun _ => keeps_call (fun _ => trivial) fun _ _ => trivial

/-- `DoAction`: a check that does not fail finds what an accepted response lists, or nothing. -/
theorem doAction_keeps : Keeps P R n (FirmwareICheck.doAction P) fun x => x.2 = [] ∨ x.1 = .checkSuccess ∧
    Listed P R (FirmwareCheckExecutor.setComponentCheckStatus x.2) := by
  refine keeps_call (fun _ => trivial) fun connected _ => ?_
  cases connected with
  | false => exact .inl rfl
  | true =>
    refine keeps_call (fun _ => trivial) fun text htext => ?_
    dsimp only
    cases hread : text.filter fun t => P.cJsonSearchStatus t = some 0 with
    | none => exact .inl rfl
    | some content =>
      have hR : R content := htext content (Option.filter_eq_some_iff.mp hread).1
      have hanalyze : Keeps P R n (FirmwareCheckAnalyzeUtils.doAnalyze P content) fun l => l = AnalysisAux.analyzed P content := by
        refine (Protocol.Spec.of_returns (S := fun o => [OpKind.save, .terminate].contains o.kind = true) (fun o ho =>
          ⟨fun _ => carries_of_kind (List.all_eq_true.mp rfl _ (List.contains_iff_mem.mp ho)), fun _ => rfl⟩)
          (KindsAux.doAnalyze_kinds P content) (R := fun l => AnalysisAux.analyzed P content = l)
          ((AnalysisAux.doAnalyze_returns_iff content).mpr rfl)).mono ?_
        exact fun _ _ h => h.1.symm
      refine hanalyze.seq ?_
      rintro l rfl
      cases hentries : acceptedEntries P content with
      | none => exact .inl (AnalysisAux.analyzed_of_rejected hentries)
      | some entries =>
        obtain ⟨js, hjs, hanalyzed⟩ := AnalysisAux.analyzed_of_accepted hentries
        refine .inr ⟨rfl, content, entries, hR, hentries, ?_⟩
        dsimp only
        rw [hanalyzed]
        clear hanalyzed hentries
        induction hjs with
        | nil => rfl
        | cons he _ ih =>
          rw [List.map_cons, List.map_cons, ← ih, AnalysisAux.analyzeComponent_of_entry he]
          rfl

/-! ## The steps of a flow -/

theorem processStatus_good {task : FirmwareTask} (h : task.status.isStored = true) (e : ErrorMessage) :
    Good P R n (FirmwareDownloadMode.processStatus task e) := by
  unfold FirmwareDownloadMode.processStatus
  split
  · rename_i hpause
    rw [hpause] at h
    cases h
  · exact (notifyEvent_good _ (by decide) _ _ _).bind fun _ => clearFirmwareInfo_good
  · refine (notifyEvent_good _ (by decide) _ _ _).bind fun _ => keeps_call (fun _ => rfl) fun _ _ =>
      keeps_call (fun _ => trivial) fun rows _ => ?_
    refine Good.bind (good_forM fun c _ => keeps_call (fun _ => rfl) fun _ _ => trivial) fun _ => ?_
    exact keeps_call (fun _ => trivial) fun _ _ => keeps_call (fun _ => trivial) fun _ _ => trivial
  · exact notifyEvent_good _ (by decide) _ _ _
  · trivial

theorem stepAfterDownload_good : Good P R n FirmwareDownloadMode.getStepAfterDownload := by
  have hend {t : FirmwareTask} (ht : t.status.isStored = true) (e : ErrorMessage) :
      Good P R n (FirmwareDownloadMode.processStatus t e >>= fun _ => .ret FirmwareStep.complete) :=
    (processStatus_good ht e).bind fun _ => trivial
  refine (queryTask_keeps _ _).seq fun t ht => ?_
  split
  · trivial
  · rename_i hexists
    have ht := ht (by simpa using hexists)
    refine keeps_call (fun _ => trivial) fun w _ => ?_
    show Good P R n (if (_ : Bool) = true then _ else _)
    split
    · cases stoi w.downloadProgress.endReason with
      | some c => exact hend ht _
      | none => exact keeps_call (fun _ => trivial) fun _ _ => trivial
    · exact hend ht _

theorem downloadStepAfterInit_good : Good P R n FirmwareDownloadMode.getStepAfterInit := by
  refine (Protocol.Spec.of_uses (fun op hop => ⟨fun _ => ?_, fun _ => rfl⟩) ReportAux.stepAfterInit_prepares).mono fun _ _ _ => trivial
  cases op with
  | setFlow u => cases u <;> trivial
  | ask q => cases q <;> trivial
  | queryTasks | queryComponents | getNetType => trivial
  | _ => cases hop

theorem isSpaceEnough_good (requiredSpace : Int64) : Good P R n (FileUtils.isSpaceEnough requiredSpace) :=
  keeps_call (fun _ => trivial) fun _ _ => trivial

theorem installStepAfterInit_good (o : UpgradeOptions) : Good P R n (FirmwareInstallApplyMode.getStepAfterInit P o) := by
  have hfail {r : CallResult} {m : String} : Good P R n (call (.setFlow (.buildError r m)) >>= fun _ => .ret FirmwareStep.complete) :=
    keeps_call (fun _ => trivial) fun _ _ => trivial
  have hspace : Good P R n (FirmwareInstallDataProcessor.isSpaceEnough P) := by
    simp only [FirmwareInstallDataProcessor.isSpaceEnough, Prog.perform_bind]
    exact keeps_op (fun _ => trivial) fun _ _ => (isSpaceEnough_good _).bind fun _ => trivial
  have hallow : Good P R n (FirmwareInstallApplyMode.isAllowInstall P) := by
    refine hspace.bind ?_
    rintro ⟨enough, required⟩
    cases enough with
    | false => exact keeps_call (fun _ => trivial) fun _ _ => keeps_call (fun _ => trivial) fun _ _ => trivial
    | true => trivial
  refine (good_of_kinds (KindsAux.queryTask_kinds (c := .installApplyMode o.order) rfl _) rfl).bind fun tasks => ?_
  split
  · exact hfail
  · split
    · unfold FirmwareInstallApplyMode.getStepForInstallAndApplyOrder
      split
      · exact hfail
      · refine hallow.bind fun allowed => ?_
        cases allowed with
        | false => trivial
        | true =>
          refine (good_of_kinds KindsAux.isUpgradeFilesReady_kinds rfl).bind fun ready => ?_
          cases ready <;> trivial
    · split
      · trivial
      · exact hfail

theorem getNextStep_good (mode : Mode) (step : FirmwareStep) : Good P R n (getNextStep P mode step) := by
  unfold getNextStep
  split
  · exact checkStepAfterInit_good
  · exact stepAfterCheck_good
  · exact downloadStepAfterInit_good
  · exact stepAfterDownload_good
  · exact installStepAfterInit_good _
  · exact good_of_kinds KindsAux.stepAfterInstall_kinds rfl
  · trivial

/-- The mode of a flow, as a phone has it. -/
def FineMode : Mode → Prop
  | .installApply _ installType => installType ≠ .quickFix
  | _ => True

theorem execute_good (f : Nat) (mode : Mode) (hmode : FineMode mode) : Good P R n (FirmwareFlowManager.execute P f mode) := by
  refine keeps_call (fun _ => trivial) fun step _ => ?_
  show Good P R n (getNextStep P mode step >>= _)
  refine (getNextStep_good mode step).bind fun nextStep => keeps_call (fun _ => trivial) fun _ _ => ?_
  split
  · refine keeps_call (fun _ => trivial) fun _ _ => ?_
    cases mode with
    | manualCheck => exact good_of_kinds (KindsAux.checkComplete_kinds P) rfl
    | _ => trivial
  · unfold FirmwareFlowManager.createInstance
    split
    · exact (setIsChecking_good true).bind fun _ => keeps_call (fun _ => trivial) fun _ _ => trivial
    · exact keeps_call (fun _ => trivial) fun _ _ => trivial
    · exact keeps_call (fun _ => hmode) fun _ _ => trivial
    · exact keeps_call (fun _ => hmode) fun _ _ => trivial
    · trivial

theorem doCheck_good (f : Nat) : Good P R n (FirmwareCheckExecutor.doCheck P f) := by
  refine doAction_keeps.seq ?_
  rintro ⟨status, l⟩ hl
  have hlist : (if (status = .checkFail || l.isEmpty) = true then l else FirmwareCheckExecutor.setComponentCheckStatus l) = [] ∨
      Listed P R (if (status = .checkFail || l.isEmpty) = true then l else FirmwareCheckExecutor.setComponentCheckStatus l) := by
    rcases hl with hl | ⟨hstatus, hl⟩
    · obtain rfl : l = [] := hl
      exact .inl (by split <;> rfl)
    · obtain rfl : status = .checkSuccess := hstatus
      cases l with
      | nil => exact .inl rfl
      | cons c l => exact .inr hl
  refine (setIsChecking_good false).bind fun _ => ?_
  exact (setCheckResult_good status hlist).bind fun _ => execute_good f _ trivial

/-! ## Downloads -/

theorem setDownloadProgress_good {p : Progress} (hp : p.status.isStored = true) :
    Good P R n (FirmwareDownloadDataProcessor.setDownloadProgress p) := by
  refine keeps_call (fun _ => trivial) fun _ _ => keeps_call (fun _ => trivial) fun w _ => ?_
  show Good P R n (if (!w.processorTasks.isExistTask) = true then _ else _)
  split
  · refine (good_of_kinds (KindsAux.queryTask_kinds rfl _) rfl).bind fun t => ?_
    exact keeps_call (fun _ => trivial) fun _ _ => keeps_call (fun _ => trivial) fun _ _ => progressCallback_good _ hp
  · exact keeps_call (fun _ => trivial) fun _ _ => progressCallback_good _ hp

theorem onDownloadCallback_good (f : Nat) (o : DownloadOptions) {p : Progress} (hp : p.status.isStored = true) :
    Good P R n (FirmwareFlowManager.onDownloadCallback P f o p) := by
  refine keeps_call (fun _ => trivial) fun _ _ => ?_
  refine (setDownloadProgress_good hp).bind fun _ => ?_
  split
  · exact execute_good f _ trivial
  · trivial

/-- A file is compared with the digest of a row of that path. -/
theorem verifyDownloadPkg_good {components : List FirmwareComponent} (h : ∀ c ∈ components, Genuine P R c) (pkgName : String) :
    Good P R n (FirmwareDownloadExecutor.verifyDownloadPkg P components pkgName) := by
  have haccepted : Good P R n (call (.enter (.accepted pkgName)) >>= fun _ => .ret true) :=
    keeps_call (fun _ => trivial) fun _ _ => trivial
  unfold FirmwareDownloadExecutor.verifyDownloadPkg
  split
  · rename_i hinfo
    have hrow : ∃ c, Genuine P R c ∧ c.spath = pkgName ∧ c.verifyInfo = FirmwareDownloadExecutor.verifyInfoOf components pkgName := by
      unfold FirmwareDownloadExecutor.verifyInfoOf at hinfo ⊢
      cases hfind : components.find? fun c => c.spath = pkgName with
      | none => exact absurd (by rw [hfind]; rfl) hinfo
      | some c => exact ⟨c, h c (List.mem_of_find?_eq_some hfind), by simpa using List.find?_some hfind, rfl⟩
    have hcheck : Good P R n (Sha256Utils.checkFileSha256String P pkgName
        (FirmwareDownloadExecutor.verifyInfoOf components pkgName)) := by
      refine (good_of_kinds (KindsAux.isFileExist_kinds _) rfl).bind fun found => ?_
      cases found with
      | false => trivial
      | true =>
        refine (good_of_kinds (KindsAux.getFileSha256Str_kinds P _) rfl).bind ?_
        rintro ⟨digest, content⟩
        dsimp only
        split
        · trivial
        · cases content with
          | none => trivial
          | some w => exact keeps_call (fun _ => hrow) fun _ _ => trivial
    refine hcheck.bind fun same => ?_
    cases same with
    | false => trivial
    | true => exact haccepted
  · exact haccepted

theorem verifiedProgress_keeps {w : Flow} (hw : ∀ c ∈ w.components, Genuine P R c) (packageName : String) {p : Progress}
    (hp : p.status.isStored = true) :
    Keeps P R n (FirmwareDownloadExecutor.verifiedProgress P w packageName p) fun p => p.status.isStored = true := by
  unfold FirmwareDownloadExecutor.verifiedProgress
  split
  · exact hp
  · refine (verifyDownloadPkg_good hw packageName).bind fun accepted => ?_
    cases accepted with
    | true => exact hp
    | false => exact keeps_call (fun _ => trivial) fun _ _ => rfl

theorem executorCallback_good (f : Nat) (o : DownloadOptions) (serverUrl packageName : String) {p : Progress}
    (hp : p.status.isStored = true) : Good P R n (FirmwareDownloadExecutor.downloadCallback P f o serverUrl packageName p) := by
  have hend : Good P R n (call .getFlow >>= fun w => FirmwareDownloadExecutor.verifiedProgress P w packageName p >>=
      fun downloadProgress => FirmwareComponentOperator.updateProgressByUrl .downloadCallback serverUrl p.status
        p.percent.toInt32 >>= fun _ => FirmwareTaskOperator.updateProgressByTaskId .downloadCallback
          w.executorTasks.taskId downloadProgress.status downloadProgress.percent.toInt32 >>= fun _ =>
            FirmwareFlowManager.onDownloadCallback P f o downloadProgress) := by
    refine keeps_call (fun _ => trivial) fun w hw => (verifiedProgress_keeps hw packageName hp).seq fun downloadProgress hp' => ?_
    exact keeps_call (fun _ => hp) fun _ _ => keeps_call (fun _ => hp') fun _ _ => onDownloadCallback_good f o hp'
  refine keeps_call (fun _ => trivial) fun _ _ => ?_
  dsimp only
  split
  · exact keeps_call (fun _ => trivial) fun _ _ => hend
  · exact hend

/-! ## A download thread -/

section Thread

variable {f : Nat} {o : DownloadOptions} {fileName serverUrl : String}

theorem threadCallback_good (percent : UInt32) {status : UpgradeStatus} (hstatus : status.isStored = true) (error : String)
    (progress : Progress) : Good P R n (DownloadThread.downloadCallback P f o fileName serverUrl percent status error progress) := by
  have hreport {p : Progress} (hp : p.status.isStored = true) (abnormal : Bool) :
      Good P R n (FirmwareDownloadExecutor.downloadCallback P f o serverUrl fileName p >>= fun _ => .ret (abnormal, p)) :=
    (executorCallback_good f o serverUrl fileName hp).bind fun _ => trivial
  have hstored (noNet : Bool) : UpgradeStatus.isStored (if noNet then .downloadFail else .downloadCancel) = true := by
    cases noNet <;> rfl
  have hdeal : Good P R n (DownloadThread.dealAbnormal P f o fileName serverUrl percent progress) := by
    refine (good_of_kinds KindsAux.isAbnormal_kinds rfl).bind fun abnormal => ?_
    cases abnormal with
    | false => trivial
    | true =>
      refine keeps_call (fun _ => trivial) fun noNet _ => keeps_call (fun _ => trivial) fun noNet' _ =>
        keeps_call (fun _ => trivial) fun isCancel _ => ?_
      cases isCancel with
      | false =>
        refine hreport ?_ true
        exact hstored noNet'
      | true =>
        refine keeps_call (fun _ => trivial) fun _ _ => hreport ?_ true
        exact hstored noNet'
  refine keeps_call (fun _ => trivial) fun _ _ => ?_
  show Good P R n (DownloadThread.dealAbnormal P f o fileName serverUrl percent progress >>= _)
  refine hdeal.bind ?_
  rintro ⟨abnormal, downloadProgress⟩
  have hlast : Good P R n (if (percent = DownloadThread.DOWNLOAD_FINISH_PERCENT && status = .downloading) = true then
      .ret (false, downloadProgress)
    else FirmwareDownloadExecutor.downloadCallback P f o serverUrl fileName
      { percent := percent, status := status, endReason := error } >>= fun _ =>
        .ret (false, { percent := percent, status := status, endReason := error })) := by
    split
    · trivial
    · refine hreport ?_ false
      exact hstatus
  dsimp only
  split
  · trivial
  · split
    · trivial
    · split
      · refine keeps_call (fun _ => trivial) fun content _ => ?_
        cases content with
        | none => exact hlast
        | some _ => exact keeps_call (fun _ => trivial) fun _ _ => hlast
      · split
        · trivial
        · exact hlast

/-- A transfer appends to the file of its thread. -/
theorem transfer_good {i : Nat} (events : List TransferEvent) (progress : Progress) :
    Good P R (.downloadThread f o i fileName serverUrl) (DownloadThread.transfer P f o fileName serverUrl events progress) := by
  have hprogress (dlTotal dlNow : Nat) (progress : Progress) :
      Good P R (.downloadThread f o i fileName serverUrl)
        (DownloadThread.onDownloadProgress P f o fileName serverUrl dlTotal dlNow progress) := by
    unfold DownloadThread.onDownloadProgress
    split
    · trivial
    · exact (good_of_kinds (KindsAux.getLocalFileLength_kinds _) rfl).bind fun _ => threadCallback_good _ rfl _ _
  induction events generalizing progress with
  | nil => trivial
  | cons event events ih =>
    cases event with
    | data bytes => exact keeps_call (fun _ => ⟨f, o, i, serverUrl, rfl⟩) fun _ _ => ih progress
    | progress dlTotal dlNow =>
      refine (hprogress dlTotal dlNow progress).bind ?_
      rintro ⟨error, progress⟩
      cases error with
      | true => trivial
      | false => exact ih progress

/-- A transfer is asked for the URL of its thread. -/
theorem processThreadExecute_good {i : Nat} (progress : Progress) :
    Good P R (.downloadThread f o i fileName serverUrl) (DownloadThread.processThreadExecute P f o fileName serverUrl progress) := by
  have hfail (error : String) (progress : Progress) (again : Bool) : Good P R (.downloadThread f o i fileName serverUrl)
      (DownloadThread.downloadCallback P f o fileName serverUrl 0 .downloadFail error progress >>= fun x => .ret (again, x.2)) :=
    (threadCallback_good _ rfl _ _).bind fun _ => trivial
  have hsuccess (progress : Progress) : Good P R (.downloadThread f o i fileName serverUrl)
      (DownloadThread.downloadCallback P f o fileName serverUrl DownloadThread.DOWNLOAD_FINISH_PERCENT .downloadSuccess "" progress >>=
        fun x => .ret (false, x.2)) :=
    (threadCallback_good _ rfl _ _).bind fun _ => trivial
  refine (good_of_kinds (KindsAux.getLocalFileLength_kinds _) rfl).bind fun packageSize => ?_
  split
  · exact hfail _ _ true
  · refine keeps_call (fun _ => trivial) fun opened _ => ?_
    cases opened with
    | false => exact hfail _ _ true
    | true =>
      refine keeps_call (fun _ => trivial) fun init _ => ?_
      cases init with
      | false => exact hfail _ _ true
      | true =>
        refine keeps_call (fun _ => ⟨f, o, i, fileName, rfl⟩) fun t _ => (transfer_good t.events progress).bind ?_
        rintro ⟨aborted, progress⟩
        dsimp only
        generalize (if aborted = true then DownloadThread.CURLE_ABORTED_BY_CALLBACK else t.res) = res
        split
        · split
          · exact hfail _ _ false
          · trivial
        · exact keeps_call (fun _ => trivial) fun _ _ => hsuccess progress

theorem executeThreadFunc_good {i : Nat} (index rounds : Nat) (progress : Progress) :
    Good P R (.downloadThread f o i fileName serverUrl)
      (DownloadThread.executeThreadFunc P f o fileName serverUrl index rounds progress) := by
  induction rounds generalizing progress with
  | zero => trivial
  | succ rounds ih =>
    refine keeps_call (fun _ => trivial) fun exit _ => ?_
    cases exit with
    | true => trivial
    | false =>
      refine (processThreadExecute_good progress).bind ?_
      rintro ⟨again, progress⟩
      cases again with
      | false => trivial
      | true => exact ih progress

end Thread

/-! ## A download executor -/

/-- The loop over the rows: a thread is started for each. -/
theorem performDownloads_good (f : Nat) (o : DownloadOptions) {l : List FirmwareComponent} (h : ∀ c ∈ l, Genuine P R c) (index : Nat)
    (last : Option Thread) : Good P R n (FirmwareDownloadExecutor.performDownloads P f o index last l) := by
  induction l generalizing index last with
  | nil => trivial
  | cons c l ih =>
    have hreport : Good P R n (FirmwareDownloadExecutor.reportComplete P f o c) := by
      refine (good_of_kinds (KindsAux.getLocalFileLength_kinds _) rfl).bind fun length => ?_
      split
      · exact keeps_call (fun _ => trivial) fun _ _ => executorCallback_good f o _ _ rfl
      · trivial
    have hexit : Good P R n (FirmwareDownloadExecutor.exitLast index last) := by
      cases last with
      | none => trivial
      | some t => exact keeps_call (fun _ => trivial) fun _ _ => keeps_call (fun _ => trivial) fun _ _ => trivial
    have hstart : Good P R n (FirmwareDownloadExecutor.startDownload f o index c) := by
      refine keeps_call (fun _ => trivial) fun created _ => ?_
      cases created with
      | false => trivial
      | true =>
        exact keeps_call (fun _ => ⟨c, h c (List.mem_cons_self ..), rfl, rfl⟩) fun _ _ =>
          keeps_call (fun _ => trivial) fun _ _ => trivial
    have hl : ∀ c ∈ l, Genuine P R c := fun c hc => h c (List.mem_cons_of_mem _ hc)
    refine hreport.bind fun _ => keeps_call (fun _ => trivial) fun _ _ => hexit.bind fun _ => hstart.bind fun started => ?_
    cases started with
    | none => exact (onDownloadCallback_good f o rfl).bind fun _ => ih hl _ _
    | some t => exact ih hl _ _

theorem doDownload_good (f : Nat) (o : DownloadOptions) : Good P R n (FirmwareDownloadExecutor.doDownload P f o) := by
  refine keeps_call (fun _ => trivial) fun components hcomponents => keeps_call (fun _ => hcomponents) fun _ _ => ?_
  show Good P R n (if components.isEmpty = true then _ else _)
  split
  · exact onDownloadCallback_good f o rfl
  · refine (good_of_kinds (KindsAux.queryTask_kinds rfl _) rfl).bind fun tasks => keeps_call (fun _ => trivial) fun _ _ => ?_
    show Good P R n (if tasks.downloadTaskId.isEmpty = true then _ else _)
    split
    · exact (performDownloads_good f o hcomponents 0 none).bind fun _ => notifyEvent_good _ (by decide) _ _ _
    · exact onDownloadCallback_good f o rfl

/-! ## Installations -/

theorem onInstallCallback_good (f : Nat) (o : UpgradeOptions) {installType : InstallType} (ht : installType ≠ .quickFix)
    {i : InstallCallbackInfo} (hi : i.progress.status.isStored = true) :
    Good P R n (FirmwareFlowManager.onInstallCallback P f o installType i) := by
  have hpublish : Good P R n (call .getFlow >>= fun w =>
      if i.progress.status = .updateFail || i.progress.status = .installFail then
        notifyEvent w.processorTasks.taskId .upgradeFail i.progress.status i.errorMessage
      else progressCallback w.processorTasks.taskId i.progress) := by
    refine keeps_call (fun _ => trivial) fun w _ => ?_
    split
    · exact notifyEvent_good _ (by decide) _ _ _
    · exact progressCallback_good _ hi
  have hset : Good P R n (FirmwareInstallDataProcessor.setInstallResult i) := by
    refine keeps_call (fun _ => trivial) fun w _ => ?_
    show Good P R n (if (!w.processorTasks.isExistTask) = true then _ else _)
    split
    · refine (good_of_kinds (KindsAux.queryTask_kinds rfl _) rfl).bind fun t => ?_
      exact keeps_call (fun _ => trivial) fun _ _ => hpublish
    · exact hpublish
  refine hset.bind fun _ => ?_
  split
  · exact execute_good f (.installApply o installType) ht
  · trivial

theorem handleInstallProgress_good (f : Nat) (o : UpgradeOptions) {installType : InstallType} (ht : installType ≠ .quickFix)
    (component : FirmwareComponent) {progress : Progress} (hp : progress.status.isStored = true) :
    Good P R n (FirmwareInstallExecutor.handleInstallProgress P f o installType component progress) := by
  refine keeps_call (fun _ => hp) fun _ _ => keeps_call (fun _ => trivial) fun w _ => keeps_call (fun _ => trivial) fun _ _ => ?_
  refine keeps_call (fun _ => hp) fun _ _ => keeps_call (fun _ => trivial) fun w _ => keeps_call (fun _ => trivial) fun _ _ => ?_
  exact onInstallCallback_good f o ht hp

/-- `HandleInstallResult` of an installer that a phone has. -/
theorem handleInstallResult_good (f : Nat) (o : UpgradeOptions) {installType : InstallType} (ht : installType ≠ .quickFix)
    (result : Bool) (errMsg : ErrorMessage) :
    Good P R n (FirmwareInstallExecutor.handleInstallResult P f o installType result errMsg) := by
  have hstored (p : Progress) : (FirmwareInstallExecutor.installResult installType result p).status.isStored = true := by
    cases result with
    | true => rfl
    | false =>
      cases installType with
      | quickFix => exact absurd rfl ht
      | _ => rfl
  refine keeps_call (fun _ => trivial) fun _ _ => keeps_call (fun _ => trivial) fun w _ => keeps_call (fun _ => trivial) fun _ _ => ?_
  refine keeps_call (fun _ => hstored w.taskProgress) fun _ _ => keeps_call (fun _ => trivial) fun _ _ => ?_
  refine onInstallCallback_good f o ht ?_
  exact hstored w.taskProgress

/-- The installers are given paths of the rows. -/
theorem performInstall_good (o : UpgradeOptions) {installType : InstallType} (taskId : String) {l : List FirmwareComponent}
    (hl : ∀ c ∈ l, Genuine P R c) : Good P R n (FirmwareInstallExecutor.performInstall P o installType taskId l) := by
  have hsys : Good P R n (SysInstallerInstall.performInstall P o taskId l) := by
    cases l with
    | nil => trivial
    | cons c l =>
      have hpath : ∃ c', Genuine P R c' ∧ c'.spath = c.spath := ⟨c, hl c (List.mem_cons_self ..), rfl⟩
      refine (notifyEvent_good _ (by decide) _ _ _).bind fun _ => ?_
      have hfail (u : FlowUpdate) (hu : ∃ e, u = .errMsg e) : Good P R n (call (.setFlow u) >>= fun _ => .ret false) := by
        obtain ⟨e, rfl⟩ := hu
        exact keeps_call (fun _ => trivial) fun _ _ => trivial
      refine keeps_call (fun _ => trivial) fun _ _ => keeps_call (fun _ => trivial) fun _ _ =>
        keeps_call (fun _ => trivial) fun ret _ => ?_
      show Good P R n (if ret ≠ 0 then _ else _)
      split
      · exact hfail _ ⟨_, rfl⟩
      · refine keeps_call (fun _ => trivial) fun status _ => ?_
        show Good P R n (if status ≠ .stateInit then _ else _)
        split
        · exact hfail _ ⟨_, rfl⟩
        · refine keeps_call (fun _ => trivial) fun ret _ => ?_
          show Good P R n (if ret ≠ 0 then _ else _)
          split
          · exact hfail _ ⟨_, rfl⟩
          · refine keeps_call (fun _ => trivial) fun _ _ => keeps_call (fun _ => hpath) fun ret _ => ?_
            show Good P R n (if ret ≠ 0 then _ else _)
            split
            · exact keeps_call (fun _ => trivial) fun _ _ => keeps_call (fun _ => trivial) fun _ _ => trivial
            · refine (good_of_kinds (KindsAux.waitInstallResult_kinds _) rfl).bind fun result => ?_
              exact keeps_call (fun _ => trivial) fun _ _ => trivial
  have hupdater : Good P R n (UpdaterInstall.performInstall taskId l) := by
    refine (notifyEvent_good _ (by decide) _ _ _).bind fun _ => keeps_call (fun _ => ?_) fun given _ => ?_
    · intro path hpath
      obtain ⟨c, hc, rfl⟩ := List.mem_map.mp hpath
      exact ⟨c, hl c (List.mem_mergeSort.mp hc), rfl⟩
    · cases given with
      | true => trivial
      | false => exact keeps_call (fun _ => trivial) fun _ _ => trivial
  cases installType with
  | sysInstaller => exact hsys
  | _ => exact hupdater

theorem startInstall_good (f : Nat) (o : UpgradeOptions) {installType : InstallType} (ht : installType ≠ .quickFix) (taskId : String)
    {l : List FirmwareComponent} (hl : ∀ c ∈ l, Genuine P R c) :
    Good P R n (FirmwareInstallExecutor.startInstall P f o installType taskId l) := by
  refine keeps_call (fun _ => trivial) fun w _ => ?_
  show Good P R n (if w.isInstalling = true then _ else _)
  split
  · exact handleInstallResult_good f o ht _ _
  · refine (good_of_kinds (KindsAux.isUpgradePackagesReady_kinds l) rfl).bind fun ready => ?_
    cases ready with
    | false => exact handleInstallResult_good f o ht _ _
    | true =>
      refine keeps_call (fun _ => trivial) fun _ _ => keeps_call (fun _ => hl) fun _ _ => ?_
      refine (performInstall_good o taskId hl).bind fun result => ?_
      refine keeps_call (fun _ => trivial) fun _ _ => keeps_call (fun _ => trivial) fun _ _ => keeps_call (fun _ => trivial) fun w _ => ?_
      exact handleInstallResult_good f o ht _ _

theorem startStatus_stored {installType : InstallType} (ht : installType ≠ .quickFix) :
    (FirmwareInstallExecutor.startStatus installType).isStored = true := by
  cases installType with
  | quickFix => exact absurd rfl ht
  | _ => rfl

theorem doInstallExecutor_good (f : Nat) (o : UpgradeOptions) {installType : InstallType} (ht : installType ≠ .quickFix) :
    Good P R n (FirmwareInstallExecutor.doInstall P f o installType) := by
  refine keeps_call (fun _ => trivial) fun components hcomponents => ?_
  show Good P R n (if components.isEmpty = true then _ else _)
  split
  · exact keeps_call (fun _ => trivial) fun w _ => keeps_call (fun _ => trivial) fun _ _ => onInstallCallback_good f o ht rfl
  · refine (good_of_kinds (KindsAux.queryTask_kinds (c := .installExecutor) rfl _) rfl).bind fun tasks => ?_
    refine keeps_call (fun _ => trivial) fun _ _ => keeps_call (fun _ => startStatus_stored ht) fun _ _ => ?_
    refine Good.bind (good_forM fun c _ => keeps_call (fun _ => startStatus_stored ht) fun _ _ => trivial) fun _ => ?_
    exact startInstall_good f o ht _ hcomponents

theorem onUpgradeProgress_good (f : Nat) (o : UpgradeOptions) (updateStatus : SysUpdateStatus) (percent : Int32) (resultMsg : String) :
    Good P R n (SysInstallerInstall.onUpgradeProgress P f o updateStatus percent resultMsg) := by
  refine keeps_call (fun _ => trivial) fun w _ => ?_
  dsimp only
  split
  · trivial
  · refine keeps_call (fun _ => trivial) fun _ _ => keeps_call (fun _ => trivial) fun _ _ => ?_
    refine handleInstallProgress_good f o InstallType.noConfusion _ ?_
    cases updateStatus <;> rfl

theorem apply_good (f : Nat) (o : UpgradeOptions) {installType : InstallType} (ht : installType ≠ .quickFix) :
    Good P R n (FirmwareApplyExecutor.doInstall P f o installType) := by
  refine keeps_call (fun _ => trivial) fun _ _ => keeps_call (fun _ => trivial) fun components _ => ?_
  show Good P R n (if components.isEmpty = true then _ else _)
  split
  · exact execute_good f (.installApply o installType) ht
  · refine (good_of_kinds (KindsAux.queryTask_kinds (c := .applyExecutor) rfl _) rfl).bind fun tasks => ?_
    exact keeps_call (fun _ => rfl) fun _ _ => keeps_call (fun _ => trivial) fun _ _ => trivial

/-! ## Requests, the start -/

theorem doInstall_good (f : Nat) (o : UpgradeOptions) {installType : InstallType} (ht : installType ≠ .quickFix) :
    Good P R n (FirmwareManager.doInstall P f o installType) := by
  refine (good_of_kinds (KindsAux.canInstall_kinds P) rfl).bind fun can => ?_
  cases can with
  | false => trivial
  | true => exact execute_good f (.installApply o installType) ht

theorem installType_ne (P : Platform) : P.installType ≠ .quickFix := by
  unfold Platform.installType
  split <;> exact InstallType.noConfusion

theorem restoreUpdate_good (f : Nat) : Good P R n (FirmwareManager.restoreUpdate P f) := by
  have hinstall (t : FirmwareTask) : Good P R n (FirmwareManager.handleBootInstallOnStatusProcess P f t) := by
    refine keeps_call (fun _ => rfl) fun _ _ => keeps_call (fun _ => trivial) fun rows _ => ?_
    refine Good.bind (good_forM fun c _ => ?_) fun _ => doInstall_good f _ InstallType.noConfusion
    split
    · exact keeps_call (fun _ => rfl) fun _ _ => trivial
    · trivial
  refine (good_of_kinds (KindsAux.queryTask_kinds rfl _) rfl).bind fun t => ?_
  split
  · exact clearFirmwareInfo_good
  · exact clearFirmwareInfo_good
  · exact hinstall t
  · exact hinstall t
  · trivial

theorem handleBootComplete_good : Good P R n (FirmwareManager.handleBootComplete P) := by
  have hsuccess (t : FirmwareTask) : Good P R n (FirmwareManager.handleBootUpdateSuccess t) := by
    refine keeps_call (fun _ => trivial) fun _ _ => keeps_call (fun _ => trivial) fun components _ => ?_
    refine (good_of_kinds KindsAux.saveHotaCurrentVersionComponentId_kinds rfl).bind fun _ => ?_
    split
    · exact (notifyEvent_good _ (by decide) _ _ _).bind fun _ => clearFirmwareInfo_good
    · trivial
  have hfail (t : FirmwareTask) (m : UpdateResults) : Good P R n (FirmwareManager.handleBootUpdateFail t m) := by
    refine keeps_call (fun _ => trivial) fun _ _ => keeps_call (fun _ => trivial) fun components _ => ?_
    exact (notifyEvent_good _ (by decide) _ _ _).bind fun _ => clearFirmwareInfo_good
  refine (good_of_kinds (KindsAux.queryTask_kinds rfl _) rfl).bind fun t => ?_
  split
  · trivial
  · split
    · refine keeps_call (fun _ => trivial) fun rows _ => (good_of_kinds (KindsAux.getUpdaterResult_kinds P rows) rfl).bind ?_
      rintro ⟨code, resultMap⟩
      cases code with
      | success => exact hsuccess t
      | failure => exact hfail t resultMap
      | partSuccess => trivial
    · trivial

theorem delayInit_good (f : Nat) (startupReason : StartupReason) : Good P R n (FirmwareManager.delayInit P f startupReason) := by
  have hinit : Good P R n FirmwareManager.notifyInitEvent := by
    refine keeps_call (fun _ => trivial) fun due _ => ?_
    cases due with
    | true => trivial
    | false => exact keeps_call (fun _ => trivial) fun _ _ => notifyEvent_good _ (by decide) _ _ _
  refine (restoreUpdate_good f).bind fun _ => keeps_call (fun _ => trivial) fun _ _ => hinit.bind fun _ => ?_
  split
  · exact handleBootComplete_good
  · trivial

theorem doClearError_good : Good P R n FirmwareManager.doClearError := by
  refine (good_of_kinds (KindsAux.queryTask_kinds rfl _) rfl).bind fun t => ?_
  split
  · trivial
  · split
    · exact keeps_call (fun _ => trivial) fun _ _ => keeps_call (fun _ => trivial) fun _ _ => trivial
    · exact clearFirmwareInfo_good

theorem download_good (f : Nat) (o : DownloadOptions) : Good P R n (UpdateServiceImplFirmware.download P f o) := by
  refine (good_of_kinds (KindsAux.queryTask_kinds rfl _) rfl).bind fun t => ?_
  split
  · exact keeps_call (fun _ => trivial) fun _ _ => trivial
  · exact keeps_call (fun _ => trivial) fun _ _ => execute_good f _ trivial

theorem upgrade_good (f : Nat) (o : UpgradeOptions) : Good P R n (UpdateServiceImplFirmware.upgrade P f o) := by
  refine (good_of_kinds (KindsAux.queryTask_kinds rfl _) rfl).bind fun t => ?_
  exact keeps_call (fun _ => trivial) fun _ _ => doInstall_good f o (installType_ne P)

/-- A thread that could not have been started for anything genuine may do anything. -/
theorem good_of_not_fine (h : ¬ Fine P R n) (p : Prog α) : Good P R n p := by
  induction p with
  | ret a => trivial
  | op o k ih => exact ⟨fun hn => absurd hn h, fun x _ => ih x⟩

/-- Every thread keeps to the protocol. -/
theorem conforms (P : Platform) (R : String → Prop) (n : Thread) : (origins P R).Conforms n (body P n) () := by
  by_cases hn : Fine P R n
  · have hbody : Good P R n (body P n) := by
      cases n with
      | checkNewVersion f => exact execute_good f .manualCheck trivial
      | download f o => exact download_good f o
      | upgrade f o => exact upgrade_good f o
      | cancel f => exact good_of_kinds KindsAux.cancel_kinds rfl
      | netChanged f t => exact good_of_kinds (KindsAux.onNetChange_kinds P t) rfl
      | clearError f => exact doClearError_good
      | delayInit f startupReason => exact delayInit_good f startupReason
      | checkExecutor f => exact doCheck_good f
      | downloadExecutor f o => exact doDownload_good f o
      | downloadThread f o i fileName url => exact executeThreadFunc_good i DownloadThread.rounds {}
      | installExecutor f o t => exact doInstallExecutor_good f o hn
      | installerCallback f o i u p m => exact onUpgradeProgress_good f o u p m
      | applyExecutor f o t => exact apply_good f o hn
    exact hbody.mono fun _ _ _ => trivial
  · exact (good_of_not_fine hn (body P n)).mono fun _ _ _ => trivial

end OriginAux

end UpdateEngine
