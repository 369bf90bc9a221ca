import UpdateEngine.Theorems.Analysis
import UpdateEngine.Theorems.Changelog
import UpdateEngine.Theorems.SameVersion

/-!
# A check from the server's answer to its end

The thread of a check, run alone on a response of the server: a response that withdraws the version, one that the analyser does not
accept, and the one the stored version is from.
-/

namespace UpdateEngine

open Concurrent AloneAux CheckFlowAux FirmwareCheckAnalyzeUtils

/-! ## Responses -/

/-- The server is reached and answers with the text; whether the disk takes a file is open. -/
structure Responds (answers : Op → Answer) (text : String) : Prop where
  connect : answers (.ask .connect) = .bool true
  read : answers (.ask .sslRead) = .text (some text)
  save : ∀ path data, ∃ taken, answers (.saveDataToFile path data) = .bool taken

/-- The response is an object whose `searchStatus` says that there is no new version. -/
def IsWithdrawal (P : Platform) (text : String) : Prop :=
  ∃ root, JsonUtils.parseAndGetJsonObject P text = some root ∧
    ∃ status, root.number? "searchStatus" = some status ∧ Int32.ofInt status = STATUS_NEW_VERSION_NOT_AVAILABLE

/-- The response is none the analyser accepts: it neither lists a version nor says that there is none. -/
def IsMalformed (P : Platform) (text : String) : Prop := acceptedEntries P text = none ∧ ¬ IsWithdrawal P text

/-- What is written for a response: an entry of `descriptInfo` after the other, in the file of the last component. -/
structure Saves (P : Platform) (text : String) (root : Json) : Prop where
  newVersion : newVersionRoot P text = some root
  indexable : Indexable P text
  checkResults : root.find "checkResults" ≠ none

/-- The components of a response, whether or not it is accepted. -/
def listedComponents (P : Platform) (root : Json) : List FirmwareComponent :=
  (((root.find "checkResults").map Json.items).getD []).map fun j => (analyzeComponent P j).2

/-- The changelog files are as before: no entry could be saved, or the last one that could is what its file holds already. -/
def ChangelogsKept (P : Platform) (answers : Op → Answer) (text : String) (files : String → Option Bytes) : Prop :=
  ∀ root, Saves P text root → ∀ e ∈ lastSaved P answers (lastId (listedComponents P root)) (descriptInfos root),
    files (changelogFilePath (lastId (listedComponents P root))) = some (analyzeDescriptInfo P e).2.toUTF8.toList

namespace ResponsesAux

variable {P : Platform} {n : Thread} {answers : Op → Answer} {text : String} {s : State} {l : List FirmwareComponent}

/-! ## The analyser -/

/-- The state with other files. -/
def withFiles (s : State) (files : String → Option Bytes) : State := { s with files := files }

/-- What a thread can do without an answer it can do with any. -/
theorem ends_answered {α : Type} {p : Prog α} {Q : α → State → Prop} (h : p.Ends (n.alone .none) s Q) :
    p.Ends (n.answered answers) s Q := by
  refine h.extend ?_
  intro o s x s' hx
  obtain ⟨hs, hanswer, rfl⟩ := exec_eq_some hx
  have hanswer' : o.answer n (answers o) s = some x := by
    cases o with
    | openFile p | saveDataToFile p d => cases hanswer
    | ask q => cases q <;> cases hanswer
    | _ => exact hanswer
  simp [Thread.answered, exec, hs, hanswer']

theorem ends_ask {α : Type} {q : Query} {f : q.Reply → Prog α} {x : q.Reply} {Q : α → State → Prop} (hs : s.stopped = false)
    (hx : q.reply (answers (.ask q)) = some x)
    (h : ∀ s', s'.bare = s.bare → (f x).Ends (n.answered answers) s' Q) :
    (call (.ask q) >>= f).Ends (n.answered answers) s Q := by
  refine ⟨x, Op.after n s (.ask q) x, ?_, h _ rfl⟩
  simp [Thread.answered, exec, hs, Op.answer, hx]

/-- Saving in one file comes to an end: the last text that could be saved is in the file, and nothing else is changed. -/
theorem saves_ends (hs : s.stopped = false) (hsave : ∀ path data, ∃ taken, answers (.saveDataToFile path data) = .bool taken)
    (path : String) (infos : List (Nat × String)) :
    Prog.Ends (n.answered answers) (infos.forM fun info => do let _ ← call (.saveDataToFile path info.2)) s fun _ s' =>
      s'.bare = withFiles s.bare s'.files ∧ (∀ q, q ≠ path → s'.files q = s.files q) ∧
        s'.files path = (((infos.filter fun info => answers (.saveDataToFile path info.2) = .bool true).getLast?).map
          fun info => info.2.toUTF8.toList).or (s.files path) := by
  have hends : Prog.Ends (n.answered answers) (infos.forM fun info => do let _ ← call (.saveDataToFile path info.2)) s
      fun _ s' => s'.bare = withFiles s.bare s'.files := by
    refine Prog.Ends.forM (I := fun s' : State => s'.bare = withFiles s.bare s'.files) rfl ?_
    intro info _ s₁ h₁
    have hs₁ : s₁.stopped = false := not_stopped h₁ hs
    have hfiles (files : String → Option Bytes) : withFiles s₁.bare files = withFiles s.bare files := by
      rw [h₁]
      rfl
    obtain ⟨taken, htaken⟩ := hsave path info.2
    refine ⟨taken, Op.after n s₁ (.saveDataToFile path info.2) taken, ?_, ?_⟩
    · simp [Thread.answered, exec, hs₁, Op.answer, htaken]
    · cases taken with
      | false => exact h₁
      | true => exact hfiles _
  obtain ⟨_, s', hrun, h⟩ := Prog.ends_iff_run.mp hends
  obtain ⟨s'', hs'', hothers, hpath⟩ := ChangelogAux.saves_inv (Q := fun _ s'' => s'' = s') infos
    (Prog.ends_iff_run.mpr ⟨(), s', hrun, rfl⟩)
  subst hs''
  exact Prog.ends_iff_run.mpr ⟨(), s'', hrun, h, hothers, hpath⟩

/-- What the analyser leaves of the files: changelogs may be other ones, and all are as before exactly when what is saved is there
already. -/
structure Analysed (P : Platform) (answers : Op → Answer) (text : String) (s s' : State) : Prop where
  bare : s'.bare = withFiles s.bare s'.files
  others : ∀ q, (∀ id, q ≠ changelogFilePath id) → s'.files q = s.files q
  kept : s'.files = s.files ↔ ChangelogsKept P answers text s.files

theorem Analysed.of_not_saves {s' : State} (h : s'.bare = s.bare)
    (hkept : ∀ root, Saves P text root → descriptInfos root = []) : Analysed P answers text s s' := by
  have hfiles : s'.files = s.files := (congrArg State.files h :)
  refine ⟨?_, fun q _ => congrFun hfiles q, iff_of_true hfiles ?_⟩
  · rw [h, hfiles]
    rfl
  · intro root hroot e he
    rw [hkept root hroot] at he
    cases he

/-- Files that differ in one path at most. -/
theorem files_eq_iff {files files' : String → Option Bytes} {path : String} (h : ∀ q, q ≠ path → files' q = files q) :
    files' = files ↔ files' path = files path := by
  refine ⟨fun he => congrFun he path, fun he => funext fun q => ?_⟩
  by_cases hq : q = path
  · rw [hq, he]
  · exact h q hq

theorem changelogsKept_iff {root : Json} {files : String → Option Bytes} (hroot : Saves P text root) :
    ChangelogsKept P answers text files ↔
      ∀ e ∈ lastSaved P answers (lastId (listedComponents P root)) (descriptInfos root),
        files (changelogFilePath (lastId (listedComponents P root))) = some (analyzeDescriptInfo P e).2.toUTF8.toList := by
  refine ⟨fun h => h root hroot, fun h root' hroot' => ?_⟩
  have hsame := hroot'.newVersion
  rw [hroot.newVersion, Option.some.injEq] at hsame
  rwa [← hsame]

/-- The analyser, when it raises no exception. -/
theorem doAnalyze_ends (hs : s.stopped = false) (hsave : ∀ path data, ∃ taken, answers (.saveDataToFile path data) = .bool taken)
    (hindexable : Indexable P text) :
    (doAnalyze P text).Ends (n.answered answers) s fun l s' =>
      l = AnalysisAux.analyzed P text ∧ Analysed P answers text s s' := by
  refine Prog.Ends.of_returns ?_ ((AnalysisAux.doAnalyze_returns_iff text).mpr rfl)
  cases hroot : newVersionRoot P text with
  | none =>
    rw [AnalysisAux.doAnalyze_of_none hroot]
    refine .of_not_saves rfl fun root h => ?_
    rw [h.newVersion] at hroot
    cases hroot
  | some root =>
    have hunique {root' : Json} (h : Saves P text root') : root' = root := by
      have := h.newVersion
      rw [hroot] at this
      exact (Option.some.inj this).symm
    rw [AnalysisAux.doAnalyze_of_some hroot]
    cases hbl : analyzeBlVersionCheckResults root with
    | none => exact absurd hindexable ((AnalysisAux.analyzeBl_eq_none_iff hroot).mp hbl)
    | some ret =>
      refine Prog.Ends.bind ?_
      change (analyzeComponents P root).Ends (n.answered answers) s fun _ s' => Analysed P answers text s s'
      unfold analyzeComponents
      cases hresults : root.find "checkResults" with
      | none =>
        refine .of_not_saves rfl fun root' h => ?_
        have h := hunique h ▸ h
        exact absurd hresults h.checkResults
      | some checkResults =>
        cases hinfos : root.find "descriptInfo" with
        | none =>
          refine .of_not_saves rfl fun root' h => ?_
          rw [hunique h]
          simp [descriptInfos, hinfos]
        | some entries =>
          have hid : ((checkResults.items.map (analyzeComponent P)).map Prod.snd).getLast?.map (·.descriptPackageId) =
              (listedComponents P root).getLast?.map (·.descriptPackageId) := by
            simp [listedComponents, hresults, Function.comp_def]
          have hentries : descriptInfos root = entries.items := by simp [descriptInfos, hinfos]
          refine Prog.Ends.seq (saves_ends hs hsave _ _) ?_
          rintro _ s' ⟨hbare, hothers, hpath⟩
          rw [hid] at hothers hpath
          change ∀ q, q ≠ changelogFilePath (lastId (listedComponents P root)) → _ at hothers
          refine ⟨hbare, fun q hq => hothers q (hq _), ?_⟩
          have hpath' : s'.files (changelogFilePath (lastId (listedComponents P root))) =
              ((lastSaved P answers (lastId (listedComponents P root)) entries.items).map fun e =>
                (analyzeDescriptInfo P e).2.toUTF8.toList).or (s.files (changelogFilePath (lastId (listedComponents P root)))) := by
            rw [List.filter_map, List.getLast?_map, Option.map_map] at hpath
            exact hpath
          rw [files_eq_iff hothers, hpath', changelogsKept_iff ⟨hroot, hindexable, by simp [hresults]⟩, hentries]
          cases lastSaved P answers (lastId (listedComponents P root)) entries.items with
          | none => simp
          | some e => simp [eq_comm]

/-- It does not matter what is only noted. -/
theorem Analysed.of_bare {s₁ s' : State} (h : Analysed P answers text s₁ s') (h₁ : s₁.bare = s.bare) :
    Analysed P answers text s s' := by
  have hfiles : s₁.files = s.files := (congrArg State.files h₁ :)
  obtain ⟨hbare, hothers, hkept⟩ := h
  rw [h₁] at hbare
  rw [hfiles] at hothers hkept
  exact ⟨hbare, hothers, hkept⟩

/-! ## The thread -/

theorem readDataFromSSL_ends (hs : s.stopped = false) (hr : Responds answers text) :
    (FirmwareICheck.readDataFromSSL P).Ends (n.answered answers) s fun content s' =>
      content = (some text).filter (fun t => P.cJsonSearchStatus t = some 0) ∧ s'.bare = s.bare := by
  refine ends_ask (x := some text) hs (by rw [hr.read]; rfl) ?_
  intro s' h
  exact ⟨rfl, h⟩

/-- A response that the transport takes goes to the analyser. -/
theorem doAction_ends_of_taken {R : List FirmwareComponent → State → Prop} (hs : s.stopped = false) (hr : Responds answers text)
    (htaken : P.cJsonSearchStatus text = some 0)
    (h : ∀ s₁, s₁.bare = s.bare → (doAnalyze P text).Ends (n.answered answers) s₁ R) :
    (FirmwareICheck.doAction P).Ends (n.answered answers) s fun x s' => x.1 = .checkSuccess ∧ R x.2 s' := by
  refine ends_ask (x := true) hs (by rw [hr.connect]; rfl) ?_
  intro s₁ h₁
  change Prog.Ends _ (FirmwareICheck.readDataFromSSL P >>= _) s₁ _
  refine Prog.Ends.seq (readDataFromSSL_ends (not_stopped h₁ hs) hr) ?_
  rintro _ s₂ ⟨rfl, h₂⟩
  rw [Option.filter_some, if_pos (by simpa using htaken)]
  refine Prog.Ends.seq (h s₂ (h₂.trans h₁)) ?_
  intro l s₃ h₃
  exact ⟨rfl, h₃⟩

theorem doAction_ends_taken (hs : s.stopped = false) (hr : Responds answers text) (htaken : P.cJsonSearchStatus text = some 0)
    (hindexable : Indexable P text) :
    (FirmwareICheck.doAction P).Ends (n.answered answers) s fun x s' =>
      x = (.checkSuccess, AnalysisAux.analyzed P text) ∧ Analysed P answers text s s' := by
  refine (doAction_ends_of_taken (R := fun l s' => l = AnalysisAux.analyzed P text ∧ Analysed P answers text s s') hs hr htaken
    fun s₁ h₁ => ?_).mono ?_
  · refine (doAnalyze_ends (not_stopped h₁ hs) hr.save hindexable).mono ?_
    rintro l s₂ ⟨hl, h₂⟩
    exact ⟨hl, h₂.of_bare h₁⟩
  · rintro x s' ⟨hstatus, hl, h'⟩
    exact ⟨Prod.ext hstatus hl, h'⟩

/-- A response that makes the analyser raise an exception ends the process. -/
theorem run_of_throws {f : Nat} (hs : s.stopped = false) (hr : Responds answers text) (htaken : P.cJsonSearchStatus text = some 0)
    (hthrows : ¬ Indexable P text) :
    ((FirmwareCheckExecutor.doCheck P f).run (n.answered answers) s).2.bare = { s.bare with stopped := true } := by
  have hends := @doAction_ends_of_taken P n answers text s (fun _ s' => s'.bare = { s.bare with stopped := true }) hs hr htaken ?_
  · obtain ⟨x, s', ⟨-, hs'⟩, hrun⟩ := hends.run_bind
    have hstopped : s'.stopped = true := (congrArg State.stopped hs' :)
    have hstuck : n.answered answers Op.getStatusCache s' = none := by simp [Thread.answered, exec, hstopped]
    unfold FirmwareCheckExecutor.doCheck
    rw [hrun]
    change (Prog.run _ (Prog.op Op.getStatusCache _) s').2.bare = _
    rw [Prog.run, hstuck]
    exact hs'
  · intro s₁ h₁
    have hs₁ : s₁.stopped = false := not_stopped h₁ hs
    obtain ⟨root, hroot⟩ : ∃ root, newVersionRoot P text = some root := by
      by_contra hnone
      refine hthrows fun root h => absurd ⟨root, h⟩ hnone
    rw [AnalysisAux.doAnalyze_of_some hroot, (AnalysisAux.analyzeBl_eq_none_iff hroot).mpr hthrows]
    refine ⟨(), Op.after n s₁ .terminate (), ?_, ?_⟩
    · simp [Thread.answered, exec, hs₁, Op.answer]
    · change { s₁.bare with stopped := true } = _
      rw [h₁]

/-- Any other one fails the check. -/
theorem doAction_ends_refused (hs : s.stopped = false) (hr : Responds answers text) (hrefused : P.cJsonSearchStatus text ≠ some 0) :
    (FirmwareICheck.doAction P).Ends (n.answered answers) s fun x s' => x = (.checkFail, []) ∧ s'.bare = s.bare := by
  refine ends_ask (x := true) hs (by rw [hr.connect]; rfl) ?_
  intro s₁ h₁
  change Prog.Ends _ (FirmwareICheck.readDataFromSSL P >>= _) s₁ _
  refine Prog.Ends.seq (readDataFromSSL_ends (not_stopped h₁ hs) hr) ?_
  rintro _ s₂ ⟨rfl, h₂⟩
  rw [h₁] at h₂
  rw [Option.filter_some, if_neg (by simpa using hrefused)]
  exact ⟨rfl, h₂⟩

/-- The state once the service no longer counts as checking. -/
def idle (s : State) : State := { s with isChecking := false }

theorem setIsChecking_ends (hs : s.stopped = false) :
    (FirmwareStatusCache.setIsChecking false).Ends (n.alone .none) s fun _ s' => s'.bare = idle s.bare :=
  ends_op hs rfl (ends_op hs rfl rfl)

/-- What the executor hands to the flow. -/
def handedOver (P : Platform) (text : String) : List FirmwareComponent :=
  FirmwareCheckExecutor.setComponentCheckStatus (AnalysisAux.analyzed P text)

/-- The thread, for a response that the transport takes. -/
theorem doCheck_ends_taken {f : Nat} {Q : Unit → State → Prop} (hs : s.stopped = false) (hr : Responds answers text)
    (htaken : P.cJsonSearchStatus text = some 0)
    (hindexable : Indexable P text)
    (h : ∀ s₁ s₂, Analysed P answers text s s₁ → s₂.bare = idle s₁.bare →
      (FirmwareFlowManager.onCheckCallback P f .checkSuccess (handedOver P text)).Ends (n.alone .none) s₂ Q) :
    (FirmwareCheckExecutor.doCheck P f).Ends (n.answered answers) s Q := by
  refine Prog.Ends.seq (doAction_ends_taken hs hr htaken hindexable) ?_
  rintro _ s₁ ⟨rfl, h₁⟩
  have hs₁ : s₁.stopped = false := not_stopped h₁.bare hs
  have hlist : (if decide (CheckStatus.checkSuccess = .checkFail) || (AnalysisAux.analyzed P text).isEmpty then
      AnalysisAux.analyzed P text else FirmwareCheckExecutor.setComponentCheckStatus (AnalysisAux.analyzed P text)) =
        handedOver P text := by
    unfold handedOver
    cases AnalysisAux.analyzed P text with
    | nil => rfl
    | cons c l => rfl
  change Prog.Ends _ (FirmwareStatusCache.setIsChecking false >>= fun _ => FirmwareFlowManager.onCheckCallback P f .checkSuccess
    (if decide (CheckStatus.checkSuccess = .checkFail) || (AnalysisAux.analyzed P text).isEmpty then _ else _)) s₁ Q
  rw [hlist]
  refine ends_answered (Prog.Ends.seq (setIsChecking_ends hs₁) ?_)
  intro _ s₂ h₂
  exact h s₁ s₂ h₁ h₂

/-- The thread, for any other one. -/
theorem doCheck_ends_refused {f : Nat} {Q : Unit → State → Prop} (hs : s.stopped = false) (hr : Responds answers text)
    (hrefused : P.cJsonSearchStatus text ≠ some 0)
    (h : ∀ s₁, s₁.bare = idle s.bare → (FirmwareFlowManager.onCheckCallback P f .checkFail []).Ends (n.alone .none) s₁ Q) :
    (FirmwareCheckExecutor.doCheck P f).Ends (n.answered answers) s Q := by
  refine Prog.Ends.seq (doAction_ends_refused hs hr hrefused) ?_
  rintro _ s₁ ⟨rfl, h₁⟩
  refine ends_answered (Prog.Ends.seq (setIsChecking_ends (not_stopped h₁ hs)) ?_)
  intro _ s₂ h₂
  rw [h₁] at h₂
  exact h s₂ h₂

/-! ## What comes of it -/

/-- A check that failed tells its caller so, and changes nothing. -/
theorem onCheckCallback_ends_refused {f : Nat} (hs : s.stopped = false) (hw : Waiting n s) :
    (FirmwareFlowManager.onCheckCallback P f .checkFail []).Ends (n.alone .none) s fun _ s' =>
      Answered P .checkFail s s' s.events := by
  refine Prog.Ends.seq (setCheckResult_ends_refused hs hw (.inl rfl)) ?_
  intro _ s₁ h₁
  have hflow := (flow_eq h₁ :).trans (handed_flow (s := s.bare) hw .checkFail)
  refine (execute_ends_none f (not_stopped h₁ hs) hflow).mono ?_
  intro _ s' h
  obtain ⟨ht₁, hc₁, hf₁, he₁, hd₁⟩ := fields_eq h₁
  refine ⟨h.tasks.trans ht₁, h.components.trans hc₁, h.files.trans hf₁, h.events.trans he₁, ?_⟩
  rw [h.done, hd₁]
  rfl

/-- What a thread has before it when it hands over the outcome. -/
theorem waiting_of_bare {s' : State} {files : String → Option Bytes} (h : s'.bare = idle (withFiles s.bare files)) (hw : Waiting n s) :
    Waiting n s' := (flow_eq h :).trans hw

/-- The transport refuses a response: nothing happens, but that the caller is told. -/
theorem refused_ends {f : Nat} (hs : s.stopped = false) (hw : Waiting n s) (hr : Responds answers text)
    (hrefused : P.cJsonSearchStatus text ≠ some 0) :
    (FirmwareCheckExecutor.doCheck P f).Ends (n.answered answers) s fun _ s' => Answered P .checkFail s s' s.events := by
  refine doCheck_ends_refused hs hr hrefused fun s₁ h₁ => ?_
  refine (onCheckCallback_ends_refused (not_stopped h₁ hs) (@waiting_of_bare n s s₁ s.files h₁ hw)).mono ?_
  intro _ s' h
  obtain ⟨ht₁, hc₁, hf₁, he₁, hd₁⟩ := fields_eq h₁
  refine ⟨h.tasks.trans ht₁, h.components.trans hc₁, h.files.trans hf₁, h.events.trans he₁, ?_⟩
  rw [h.done, hd₁]
  rfl

end ResponsesAux

open ResponsesAux

/-! ## A version that is withdrawn -/

/-- The outcome without a version: everything is cleared, clients are told that the task is cancelled if there was one, and the caller
is told of no version. -/
structure Withdrawn (s s' : State) : Prop where
  tasks : s'.tasks = []
  components : s'.components = []
  files : s'.files = withoutDownloadFiles s.files
  events : s'.events = s.events ++ (s.tasks.head?.map fun t => taskEvent .taskCancel .init t.taskId).toList
  done : s'.checkVersionDone = s.checkVersionDone ++ [(({} : BusinessError), ({} : CheckResult))]

/-- No version is stored, and no package. -/
structure NothingStored (s : State) : Prop where
  tasks : s.tasks = []
  components : s.components = []
  files : withoutDownloadFiles s.files = s.files

namespace ResponsesAux

variable {P : Platform} {n : Thread} {answers : Op → Answer} {text : String} {s : State}

/-- A response that withdraws the version is none with a new one. -/
theorem newVersionRoot_of_withdrawal (h : IsWithdrawal P text) : newVersionRoot P text = none := by
  obtain ⟨root, hroot, status, hnumber, hstatus⟩ := h
  have hroot : (P.jsonParse text).filter Json.isObject = some root := hroot
  unfold newVersionRoot
  rw [hroot, Option.filter_some, hnumber, if_neg]
  simp [hstatus, STATUS_NEW_VERSION_AVAILABLE, STATUS_NEW_VERSION_NOT_AVAILABLE]

/-- Nothing is done about any response while the task is undone. -/
theorem taken_ends_ignored {f : Nat} (hs : s.stopped = false) (hw : Waiting n s) (hr : Responds answers text)
    (htaken : P.cJsonSearchStatus text = some 0) (hindexable : Indexable P text)
    (hundone : s.status.any UpgradeStatus.isUndone = true) :
    (FirmwareCheckExecutor.doCheck P f).Ends (n.answered answers) s fun _ s' => ∃ s₁, Analysed P answers text s s₁ ∧
      s'.tasks = s.tasks ∧ s'.components = s.components ∧ s'.files = s₁.files ∧ s'.events = s.events := by
  refine doCheck_ends_taken hs hr htaken hindexable fun s₁ s₂ h₁ h₂ => ?_
  rw [h₁.bare] at h₂
  obtain ⟨ht, hc, hf, he, -⟩ := fields_eq h₂
  have hrefused : CheckOutcome.Refused .checkSuccess s₂ := by
    right
    rw [State.status, ht]
    exact hundone
  refine (ends_ignored f (not_stopped h₂ hs) (waiting_of_bare h₂ hw) hrefused).mono ?_
  rintro _ s' ⟨⟨k, hk⟩, -⟩
  have hignored : CheckOutcome.ignored.Happens P .checkSuccess (handedOver P text) s₂ s' := by
    cases k with
    | ignored => exact hk
    | stored | cancelled | received => exact absurd hrefused hk.1
  obtain ⟨-, ht', hc', hf', he'⟩ := hignored
  exact ⟨s₁, h₁, ht'.trans ht, hc'.trans hc, hf'.trans hf, he'.trans he⟩

/-- What is done about a response without a version, unless the task is undone. -/
theorem taken_ends_cancelled {f : Nat} (hs : s.stopped = false) (hw : Waiting n s) (hr : Responds answers text)
    (htaken : P.cJsonSearchStatus text = some 0) (hindexable : Indexable P text) (hnone : AnalysisAux.analyzed P text = [])
    (hundone : s.status.any UpgradeStatus.isUndone = false) :
    (FirmwareCheckExecutor.doCheck P f).Ends (n.answered answers) s fun _ s' => ∃ s₁, Analysed P answers text s s₁ ∧
      s'.tasks = [] ∧ s'.components = [] ∧ s'.files = withoutDownloadFiles s₁.files ∧
      s'.events = s.events ++ (s.tasks.head?.map fun t => taskEvent .taskCancel .init t.taskId).toList ∧
      s'.checkVersionDone = s.checkVersionDone ++ [(({} : BusinessError), ({} : CheckResult))] := by
  refine doCheck_ends_taken hs hr htaken hindexable fun s₁ s₂ h₁ h₂ => ?_
  rw [h₁.bare] at h₂
  have hlist : handedOver P text = [] := by
    unfold handedOver
    rw [hnone]
    rfl
  obtain ⟨ht, -, hf, he, hd⟩ := fields_eq h₂
  have hrefused : ¬ CheckOutcome.Refused .checkSuccess s₂ := by
    rintro (h | h)
    · cases h
    · rw [State.status, ht] at h
      exact Bool.false_ne_true (hundone.symm.trans h)
  rw [hlist]
  refine (ends_cancelled f (not_stopped h₂ hs) (waiting_of_bare h₂ hw) hrefused).mono ?_
  rintro _ s' ⟨⟨k, hk⟩, hdone⟩
  have hdone := hdone rfl
  cases k with
  | ignored => exact absurd hk.1 hrefused
  | stored => exact absurd rfl hk.2.1
  | received => exact absurd rfl hk.2.1
  | cancelled =>
    obtain ⟨-, -, ht', hc', hf', he'⟩ := hk
    rw [hf] at hf'
    rw [he, ht] at he'
    rw [hd, hc'] at hdone
    exact ⟨s₁, h₁, ht', hc', hf', he', hdone⟩

end ResponsesAux

/-- For every response that withdraws the version, and every store without an undone task: the check ends with the outcome without a
version exactly when the transport takes the response, its parser reading a `searchStatus` of zero, or nothing was stored anyway. -/
theorem withdrawn_iff (P : Platform) {f : Nat} {answers : Op → Answer} {text : String} {s : State} (hs : s.stopped = false)
    (hw : s.flows f = { nextStep := .checkStep }) (hundone : s.status.any UpgradeStatus.isUndone = false)
    (hr : Responds answers text) (hwithdrawal : IsWithdrawal P text) :
    ((FirmwareCheckExecutor.doCheck P f).Ends ((Thread.checkExecutor f).answered answers) s fun _ s' => Withdrawn s s') ↔
      P.cJsonSearchStatus text = some 0 ∨ NothingStored s := by
  have hw : Waiting (.checkExecutor f) s := hw
  by_cases htaken : P.cJsonSearchStatus text = some 0
  · refine iff_of_true ?_ (.inl htaken)
    have hroot := newVersionRoot_of_withdrawal hwithdrawal
    have hindexable : Indexable P text := by
      intro root h
      rw [hroot] at h
      cases h
    refine (taken_ends_cancelled hs hw hr htaken hindexable (by simp [AnalysisAux.analyzed, hroot]) hundone).mono ?_
    rintro _ s' ⟨s₁, h₁, ht, hc, hf, he, hd⟩
    have hfiles : s₁.files = s.files := h₁.kept.mpr fun root h => by
      have h := h.newVersion
      rw [hroot] at h
      cases h
    rw [hfiles] at hf
    exact ⟨ht, hc, hf, he, hd⟩
  · rw [or_iff_right htaken]
    refine (refused_ends hs hw hr htaken).iff_of ?_
    intro _ s' hsame
    constructor
    · intro h
      exact ⟨hsame.tasks.symm.trans h.tasks, hsame.components.symm.trans h.components, h.files.symm.trans hsame.files⟩
    · intro h
      refine ⟨hsame.tasks.trans h.tasks, hsame.components.trans h.components, hsame.files.trans h.files.symm, ?_, hsame.done⟩
      rw [hsame.events, h.tasks]
      exact (List.append_nil _).symm

/-- An environment in which everything goes well and the server answers with the text. -/
def responding (text : String) : Op → Answer
  | .ask .sslRead => .text (some text)
  | o => favourable o

theorem responds_responding (text : String) : Responds (responding text) text := ⟨rfl, rfl, fun _ _ => ⟨true, rfl⟩⟩

/-- A response that says nothing but its `searchStatus`. -/
def statusText (status : Int) : String := "\x7b\"searchStatus\":" ++ toString status ++ "\x7d"

/-- The phone whose server answers with it. -/
def Platform.told (status : Int) : Platform := { Platform.phone with
  jsonParse := fun text => if text = statusText status then some (.obj [("searchStatus", .num status)]) else none
  cJsonSearchStatus := fun text => if text = statusText status then some status else none }

/-- The phone has found a version and checks again. -/
def checkingAgain : State where
  tasks := [{ taskId := "version", status := .checkVersionSuccess }]
  components := [{ url := "server/package", size := 1, status := .checkVersionSuccess }]
  flows := fun _ => { nextStep := .checkStep }

theorem parse_told (status : Int) :
    JsonUtils.parseAndGetJsonObject (.told status) (statusText status) = some (.obj [("searchStatus", .num status)]) := by
  simp [JsonUtils.parseAndGetJsonObject, Platform.told, Json.isObject]

theorem isWithdrawal_told : IsWithdrawal (.told 1) (statusText 1) :=
  ⟨.obj [("searchStatus", .num 1)], parse_told 1, 1, rfl, rfl⟩

theorem withdrawn_iff_told :
    ((FirmwareCheckExecutor.doCheck (.told 1) 1).Ends ((Thread.checkExecutor 1).answered (responding (statusText 1))) checkingAgain
      fun _ s' => Withdrawn checkingAgain s') ↔
      (Platform.told 1).cJsonSearchStatus (statusText 1) = some 0 ∨ NothingStored checkingAgain :=
  withdrawn_iff (.told 1) rfl rfl rfl (responds_responding _) isWithdrawal_told

/-- The version is withdrawn, and stays. -/
theorem withdrawn_version_stays : IsWithdrawal (.told 1) (statusText 1) ∧
    (FirmwareCheckExecutor.doCheck (.told 1) 1).Ends ((Thread.checkExecutor 1).answered (responding (statusText 1))) checkingAgain
      fun _ s' => s'.tasks = checkingAgain.tasks ∧ ¬ Withdrawn checkingAgain s' := by
  have hrefused : (Platform.told 1).cJsonSearchStatus (statusText 1) ≠ some 0 := by simp [Platform.told]
  have hends := @refused_ends (.told 1) (.checkExecutor 1) _ _ checkingAgain 1 rfl rfl (responds_responding _) hrefused
  refine ⟨isWithdrawal_told, hends.mono ?_⟩
  intro _ s' h
  refine ⟨h.tasks, fun hcleared => ?_⟩
  have htasks := h.tasks.symm.trans hcleared.tasks
  cases htasks

/-! ## A response that is not accepted -/

/-- The task, the component rows, the packages and the changelogs are as before, and no client is told of a cancelled task. -/
structure Untouched (s s' : State) : Prop where
  tasks : s'.tasks = s.tasks
  components : s'.components = s.components
  files : s'.files = s.files
  events : ∃ l, s'.events = s.events ++ l ∧ ∀ e ∈ l, e.eventId ≠ .taskCancel

namespace ResponsesAux

variable {P : Platform} {n : Thread} {answers : Op → Answer} {text : String} {s : State}

/-- A path of a package. -/
def isPackagePath (path : String) : Bool := (Firmware.PACKAGE_PATH ++ "/").toList.isPrefixOf path.toList

/-- No changelog is among the packages. -/
theorem isPackagePath_changelog (id : String) : isPackagePath (changelogFilePath id) = false := by
  rw [Bool.eq_false_iff]
  intro h
  obtain ⟨rest, hrest⟩ := List.isPrefixOf_iff_prefix.mp h
  have hpath : (changelogFilePath id).toList = Firmware.CHANGELOG_PATH.toList ++ ("/" ++ id ++ ".xml").toList := by
    unfold changelogFilePath
    simp only [String.toList_append, List.append_assoc]
  have hstart := congrArg (List.take 7) (hrest.trans hpath)
  rw [List.take_append_of_le_length (by decide), List.take_append_of_le_length (by decide)] at hstart
  exact absurd hstart (by decide)

theorem withoutDownloadFiles_eq_iff {files files' : String → Option Bytes}
    (h : ∀ q, (∀ id, q ≠ changelogFilePath id) → files' q = files q) :
    withoutDownloadFiles files' = files ↔ withoutDownloadFiles files = files ∧ files' = files := by
  constructor
  · intro he
    have hsame : files' = files := funext fun q => by
      by_cases hq : isPackagePath q = true
      · refine h q fun id hid => ?_
        rw [hid, isPackagePath_changelog] at hq
        cases hq
      · rw [← he]
        exact (if_neg hq).symm
    rw [hsame] at he
    exact ⟨he, hsame⟩
  · rintro ⟨he, rfl⟩
    exact he

/-- What becomes of the state when the response lists nothing: everything stored is cleared, unless the task is undone. -/
theorem untouched_iff_of_taken {f : Nat} (hs : s.stopped = false) (hw : Waiting n s) (hr : Responds answers text)
    (htaken : P.cJsonSearchStatus text = some 0) (hindexable : Indexable P text) (hnone : AnalysisAux.analyzed P text = []) :
    Untouched s ((FirmwareCheckExecutor.doCheck P f).run (n.answered answers) s).2 ↔
      (s.status.any UpgradeStatus.isUndone = true ∨ NothingStored s) ∧ ChangelogsKept P answers text s.files := by
  cases hundone : s.status.any UpgradeStatus.isUndone with
  | true =>
    refine (taken_ends_ignored hs hw hr htaken hindexable hundone).run_iff_of ?_
    rintro _ s' ⟨s₁, h₁, ht, hc, hf, he⟩
    rw [and_iff_right (.inl rfl), ← h₁.kept, ← hf]
    exact ⟨fun h => h.files, fun h => ⟨ht, hc, h, [], he.trans (List.append_nil _).symm, fun e he => by cases he⟩⟩
  | false =>
    refine (taken_ends_cancelled hs hw hr htaken hindexable hnone hundone).run_iff_of ?_
    rintro _ s' ⟨s₁, h₁, ht, hc, hf, he, -⟩
    have hfiles := withoutDownloadFiles_eq_iff h₁.others
    rw [or_iff_right Bool.false_ne_true, ← h₁.kept]
    constructor
    · intro h
      obtain ⟨hempty, hkept⟩ := hfiles.mp (hf.symm.trans h.files)
      exact ⟨⟨h.tasks.symm.trans ht, h.components.symm.trans hc, hempty⟩, hkept⟩
    · rintro ⟨h, hkept⟩
      refine ⟨ht.trans h.tasks.symm, hc.trans h.components.symm, hf.trans (hfiles.mpr ⟨h.files, hkept⟩), _, he, ?_⟩
      rw [h.tasks]
      intro e hmem
      cases hmem

end ResponsesAux

/-- For every response that is not accepted: the check leaves everything as it was and tells no client of a cancelled task, exactly when
the transport refuses the response, or the analyser ends the process with an exception, or the task is undone or nothing was stored,
and the changelogs of the response, which are saved before it is rejected, are there already. -/
theorem malformed_harmless_iff (P : Platform) {f : Nat} {answers : Op → Answer} {text : String} {s : State} (hs : s.stopped = false)
    (hw : s.flows f = { nextStep := .checkStep }) (hr : Responds answers text) (hmalformed : IsMalformed P text) :
    Untouched s ((FirmwareCheckExecutor.doCheck P f).run ((Thread.checkExecutor f).answered answers) s).2 ↔
      P.cJsonSearchStatus text ≠ some 0 ∨ ¬ Indexable P text ∨
        (s.status.any UpgradeStatus.isUndone = true ∨ NothingStored s) ∧ ChangelogsKept P answers text s.files := by
  have hw : Waiting (.checkExecutor f) s := hw
  have hnone : AnalysisAux.analyzed P text = [] := AnalysisAux.analyzed_of_rejected hmalformed.1
  have hsame {s' : State} (ht : s'.tasks = s.tasks) (hc : s'.components = s.components) (hf : s'.files = s.files)
      (he : s'.events = s.events) : Untouched s s' :=
    ⟨ht, hc, hf, [], he.trans (List.append_nil _).symm, fun e he => by cases he⟩
  by_cases htaken : P.cJsonSearchStatus text = some 0
  · by_cases hindexable : Indexable P text
    · rw [or_iff_right (not_not.mpr htaken), or_iff_right (not_not.mpr hindexable)]
      exact untouched_iff_of_taken hs hw hr htaken hindexable hnone
    · refine iff_of_true ?_ (.inr (.inl hindexable))
      obtain ⟨ht, hc, hf, he, -⟩ := fields_eq (@run_of_throws P (.checkExecutor f) answers text s f hs hr htaken hindexable)
      exact hsame ht hc hf he
  · refine iff_of_true ?_ (.inl htaken)
    obtain ⟨_, s', hrun, h⟩ := Prog.ends_iff_run.mp (@refused_ends P (.checkExecutor f) answers text s f hs hw hr htaken)
    rw [hrun]
    exact hsame h.tasks h.components h.files h.events

theorem newVersionRoot_told : newVersionRoot (.told 0) (statusText 0) = some (.obj [("searchStatus", .num 0)]) := by
  have hroot : ((Platform.told 0).jsonParse (statusText 0)).filter Json.isObject = _ := parse_told 0
  unfold newVersionRoot
  rw [hroot]
  rfl

theorem isMalformed_told : IsMalformed (.told 0) (statusText 0) := by
  refine ⟨?_, ?_⟩
  · unfold acceptedEntries
    rw [newVersionRoot_told]
    rfl
  · rintro ⟨root, hroot, status, hnumber, hstatus⟩
    rw [parse_told, Option.some.injEq] at hroot
    subst hroot
    cases hnumber
    exact absurd hstatus (by decide)

theorem malformed_harmless_iff_told :
    Untouched checkingAgain ((FirmwareCheckExecutor.doCheck (.told 0) 1).run
        ((Thread.checkExecutor 1).answered (responding (statusText 0))) checkingAgain).2 ↔
      (Platform.told 0).cJsonSearchStatus (statusText 0) ≠ some 0 ∨ ¬ Indexable (.told 0) (statusText 0) ∨
        (checkingAgain.status.any UpgradeStatus.isUndone = true ∨ NothingStored checkingAgain) ∧
          ChangelogsKept (.told 0) (responding (statusText 0)) (statusText 0) checkingAgain.files :=
  malformed_harmless_iff (.told 0) rfl rfl (responds_responding _) isMalformed_told

/-- A response without components costs the phone its version. -/
theorem malformed_response_cancels : IsMalformed (.told 0) (statusText 0) ∧
    ¬ Untouched checkingAgain ((FirmwareCheckExecutor.doCheck (.told 0) 1).run
      ((Thread.checkExecutor 1).answered (responding (statusText 0))) checkingAgain).2 := by
  refine ⟨isMalformed_told, ?_⟩
  have htaken : (Platform.told 0).cJsonSearchStatus (statusText 0) = some 0 := by simp [Platform.told]
  have hindexable : Indexable (.told 0) (statusText 0) := by
    intro root hroot checkResults hresults
    rw [newVersionRoot_told, Option.mem_def, Option.some.injEq] at hroot
    subst hroot
    cases hresults
  have hnone := AnalysisAux.analyzed_of_rejected isMalformed_told.1
  obtain ⟨_, s', hrun, _, -, ht, -⟩ := Prog.ends_iff_run.mp (@taken_ends_cancelled (.told 0) (.checkExecutor 1) _ _ checkingAgain 1
    rfl rfl (responds_responding _) htaken hindexable hnone rfl)
  rw [hrun]
  intro h
  have htasks := ht.symm.trans h.tasks
  cases htasks

/-! ## The version that is stored -/

/-- The component of an entry, as the executor hands it over. -/
def CheckResultEntry.listed (e : CheckResultEntry) : FirmwareComponent where
  descriptPackageId := e.descriptPackageId
  url := e.url
  size := (Int32.ofInt e.size).toInt64
  fileName := StringUtils.getLastSplitString e.url '/'
  verifyInfo := e.verifyInfo
  versionNumber := e.versionCode
  targetBlVersionNumber := e.versionName
  targetBlDisplayVersionNumber := e.versionName
  blVersionType := 1
  componentId := e.descriptPackageId
  versionPackageType := .normal
  status := .checkVersionSuccess

/-- The row it is stored as. -/
def CheckResultEntry.row (e : CheckResultEntry) : FirmwareComponent := FirmwareCheckDataProcessor.buildComponentSPath e.listed

/-- A row but for its progress. -/
def FirmwareComponent.withoutProgress (c : FirmwareComponent) : FirmwareComponent := { c with status := .init, progress := 0 }

/-- The version of a response is stored, with the progress that was made on it since. -/
structure StoredFrom (P : Platform) (entries : List CheckResultEntry) (status : UpgradeStatus) (s : State) : Prop where
  components : s.components.map FirmwareComponent.withoutProgress =
    (entries.map CheckResultEntry.row).map FirmwareComponent.withoutProgress
  task : ∃ t, s.tasks = [t] ∧ t.taskId = FirmwareUpdateHelper.buildTaskId P s.components ∧ t.status = status

/-- The task, the component rows and the packages are as before, and clients are told nothing. -/
structure Unchanged (s s' : State) : Prop where
  tasks : s'.tasks = s.tasks
  components : s'.components = s.components
  packages : ∀ path, isPackagePath path = true → s'.files path = s.files path
  events : s'.events = s.events

namespace ResponsesAux

variable {P : Platform} {n : Thread} {a : Answer} {answers : Op → Answer} {text : String} {s : State} {l : List FirmwareComponent}
  {entries : List CheckResultEntry} {status : UpgradeStatus}

/-! ### What is stored -/

/-- The executor hands over a component for each entry of a response that is accepted. -/
theorem handedOver_of_accepted (h : acceptedEntries P text = some entries) : handedOver P text = entries.map CheckResultEntry.listed := by
  obtain ⟨l, hl, hanalyzed⟩ := AnalysisAux.analyzed_of_accepted h
  unfold handedOver FirmwareCheckExecutor.setComponentCheckStatus
  rw [hanalyzed, List.map_map]
  clear h hanalyzed
  induction hl with
  | nil => rfl
  | cons he _ ih =>
    rw [List.map_cons, List.map_cons, ih, Function.comp_apply, AnalysisAux.analyzeComponent_of_entry he]
    rfl

/-- A check that finds a new version stores it. -/
theorem storedFrom_of_received {s' : State}
    (h : CheckOutcome.received.Happens P .checkSuccess (entries.map CheckResultEntry.listed) s s') :
    StoredFrom P entries .checkVersionSuccess s' := by
  obtain ⟨-, -, -, t, ht, htask, hc, -⟩ := h
  have hc : s'.components = entries.map CheckResultEntry.row := hc.trans (List.map_map ..)
  exact ⟨by rw [hc], t, ht, by rw [htask]; rfl, by rw [htask]; rfl⟩

/-- Progress of a package keeps it. -/
theorem StoredFrom.updateComponents (h : StoredFrom P entries status s) (c : Caller) (url : String) (status' : UpgradeStatus)
    (progress : Int32) : StoredFrom P entries status (Op.after n s (.updateComponents c (.progressByUrl url status' progress)) ()) := by
  have hrow (r : FirmwareComponent) : (ComponentUpdate.apply r (.progressByUrl url status' progress)).withoutProgress =
      r.withoutProgress := by
    unfold ComponentUpdate.apply
    dsimp only
    split <;> rfl
  have hid (r : FirmwareComponent) : (ComponentUpdate.apply r (.progressByUrl url status' progress)).versionId = r.versionId := by
    unfold ComponentUpdate.apply
    dsimp only
    split <;> rfl
  obtain ⟨hc, t, ht, htask, hstatus⟩ := h
  refine ⟨?_, t, ht, ?_, hstatus⟩
  · change (s.components.map _).map _ = _
    rw [List.map_map, ← hc]
    exact List.map_congr_left fun r _ => hrow r
  · rw [htask]
    refine buildTaskId_congr P ?_
    change _ = (s.components.map _).map _
    rw [List.map_map]
    exact List.map_congr_left fun r _ => (hid r).symm

/-- So does progress of the task. -/
theorem StoredFrom.updateTasks (h : StoredFrom P entries status s) (c : Caller) (status' : UpgradeStatus) (progress : Int32) :
    StoredFrom P entries status'
      (Op.after n s (.updateTasks c (FirmwareUpdateHelper.buildTaskId P s.components) (.progress status' progress)) ()) := by
  obtain ⟨hc, t, ht, htask, -⟩ := h
  refine ⟨hc, { t with status := status', progress := progress }, ?_, htask, rfl⟩
  change s.tasks.map _ = _
  rw [ht, List.map_singleton, if_pos htask]
  rfl

/-! ### What the next check makes of it -/

theorem toInt64_inj {x y : Int32} : x.toInt64 = y.toInt64 ↔ x = y := by
  constructor
  · intro h
    have hint := congrArg Int64.toInt h
    rw [Int32.toInt_toInt64, Int32.toInt_toInt64] at hint
    exact Int32.toInt_inj.mp hint
  · exact congrArg Int32.toInt64

/-- The version of a response is stored again exactly when its packages are alike: without version ids every one is compared with the
first row. -/
theorem isStoredVersion_iff_of_storedFrom (h : StoredFrom P entries status s) :
    isStoredVersion s.components (entries.map CheckResultEntry.listed) = true ↔
      ∀ e ∈ entries, ∀ e' ∈ entries, Int32.ofInt e.size = Int32.ofInt e'.size ∧ e.verifyInfo = e'.verifyInfo := by
  have hisIn (c : FirmwareComponent) (rows : List FirmwareComponent) :
      c.isIn rows = c.isIn (rows.map FirmwareComponent.withoutProgress) := by
    unfold FirmwareComponent.isIn
    rw [List.find?_map, Option.any_map]
    rfl
  have hrows (c : FirmwareComponent) : c.isIn s.components = c.isIn (entries.map CheckResultEntry.row) := by
    rw [hisIn, h.components, ← hisIn]
  have hlength : s.components.length = entries.length := by
    have := congrArg List.length h.components
    simpa using this
  rw [SameVersionAux.isStoredVersion_iff, List.length_map, and_iff_right hlength]
  simp only [hrows, List.forall_mem_map]
  cases entries with
  | nil => simp
  | cons first entries =>
    have hfirst (e : CheckResultEntry) : e.listed.isIn ((first :: entries).map CheckResultEntry.row) = true ↔
        Int32.ofInt first.size = Int32.ofInt e.size ∧ first.verifyInfo = e.verifyInfo := by
      unfold FirmwareComponent.isIn
      rw [List.map_cons, List.find?_cons_of_pos (by rfl), Option.any_some, Bool.and_eq_true, decide_eq_true_iff, decide_eq_true_iff]
      exact and_congr_left' toInt64_inj
    simp only [hfirst]
    constructor
    · intro h e he e' he'
      exact ⟨(h e he).1.symm.trans (h e' he').1, (h e he).2.symm.trans (h e' he').2⟩
    · intro h e he
      exact h first List.mem_cons_self e he

/-- Its URLs are as before exactly when they are alike, unless the task has gone on: every row gets the last one. -/
theorem rowsAfter_eq_iff_of_storedFrom (h : StoredFrom P entries status s) :
    SameVersionAux.rowsAfter s.status (entries.map CheckResultEntry.listed) s.components = s.components ↔
      (status = .checkVersionSuccess → ∀ e ∈ entries, ∀ e' ∈ entries, e.url = e'.url) := by
  have hstatus : s.status = some status := by
    obtain ⟨t, ht, -, hstatus⟩ := h.task
    simp [State.status, ht, hstatus]
  rw [SameVersionAux.rowsAfter, hstatus]
  by_cases hsuccess : status = .checkVersionSuccess
  · have hid : ∀ r ∈ s.components, r.versionId = "" := by
      have hids := congrArg (List.map (·.versionId)) h.components
      simp only [List.map_map] at hids
      intro r hr
      have hmem : r.versionId ∈ (entries.map fun _ => "") := by
        rw [show (entries.map fun _ => "") = s.components.map (·.versionId) from hids.symm]
        exact List.mem_map_of_mem hr
      obtain ⟨_, -, he⟩ := List.mem_map.mp hmem
      exact he.symm
    have hurls : s.components.map (·.url) = entries.map (·.url) := by
      have hurls := congrArg (List.map (·.url)) h.components
      simp only [List.map_map] at hurls
      exact hurls
    have hleft (r : FirmwareComponent) (hr : r ∈ s.components) :
        urlLeft (entries.map CheckResultEntry.listed) r = (entries.getLast?.map (·.url)).getD r.url := by
      have hall : (entries.map CheckResultEntry.listed).filter (fun c => c.versionId = r.versionId) =
          entries.map CheckResultEntry.listed := by
        refine List.filter_eq_self.mpr fun c hc => ?_
        obtain ⟨e, -, rfl⟩ := List.mem_map.mp hc
        rw [hid r hr]
        rfl
      unfold urlLeft
      rw [hall, List.getLast?_map, Option.map_map]
      rfl
    have hrow (r : FirmwareComponent) (u : String) : { r with url := u } = r ↔ u = r.url :=
      ⟨fun he => congrArg FirmwareComponent.url he, fun he => by rw [he]⟩
    have hmem (p : String → Prop) : (∀ r ∈ s.components, p r.url) ↔ ∀ e ∈ entries, p e.url := by
      have hall := congrArg (fun urls => ∀ u ∈ urls, p u) hurls
      simpa using hall
    rw [if_pos (congrArg some hsuccess), forall_prop_of_true hsuccess]
    calc (s.components.map fun r => { r with url := urlLeft (entries.map CheckResultEntry.listed) r }) = s.components
      _ ↔ ∀ r ∈ s.components, (entries.getLast?.map (·.url)).getD r.url = r.url := by
        conv_lhs => rhs; rw [← List.map_id s.components]
        rw [List.map_inj_left]
        refine forall₂_congr fun r hr => ?_
        rw [← hleft r hr]
        exact hrow r _
      _ ↔ ∀ e ∈ entries, (entries.getLast?.map (·.url)).getD e.url = e.url :=
        hmem fun u => (entries.getLast?.map (·.url)).getD u = u
      _ ↔ ∀ e ∈ entries, ∀ e' ∈ entries, e.url = e'.url := by
        cases hlast : entries.getLast? with
        | none =>
          rw [List.getLast?_eq_none_iff] at hlast
          simp [hlast]
        | some last =>
          simp only [Option.map_some, Option.getD_some]
          constructor
          · intro hall e he e' he'
            exact (hall e he).symm.trans (hall e' he')
          · intro hall e he
            exact hall last (List.mem_of_getLast? hlast) e he
  · rw [if_neg (by simpa using hsuccess)]
    exact iff_of_true rfl fun he => absurd he hsuccess

theorem ends_stored_rows {checkStatus : CheckStatus} (f : Nat) (hs : s.stopped = false) (hw : Waiting n s)
    (hr : ¬ CheckOutcome.Refused checkStatus s) (hl : l ≠ []) (hstored : isStoredVersion s.components l = true) :
    (FirmwareFlowManager.onCheckCallback P f checkStatus l).Ends (n.alone a) s fun _ s' =>
      s'.tasks = s.tasks ∧ s'.components = SameVersionAux.rowsAfter s.status l s.components ∧ s'.files = s.files ∧
        s'.events = s.events := by
  refine Prog.Ends.seq (setCheckResult_ends (Q := fun t => t = withRows
    ((handed n checkStatus l s.bare).setFlow n.flow (.isSameWithDb true)) (SameVersionAux.rowsAfter s.status l s.components))
      hs hw hr ?_) ?_
  · intro s₁ h₁
    have hcomponents : s₁.components = s.components := (components_eq h₁ :)
    have hstatus : s₁.status = s.status := by
      rw [State.status, State.status, (tasks_eq h₁ :)]
      rfl
    rw [if_neg (by simpa using hl)]
    refine (SameVersionAux.handleNewVersion_ends_rows (not_stopped h₁ hs) (by rw [hcomponents]; exact hstored)).mono ?_
    intro _ s' h
    rw [h₁, hcomponents, hstatus] at h
    exact ⟨not_stopped h hs, h⟩
  intro _ s₁ h₁
  have hflow := (flow_eq h₁ :).trans (compared_flow (s := s.bare) hw checkStatus true)
  refine (execute_ends_none f (not_stopped h₁ hs) hflow).mono ?_
  intro _ s' h
  obtain ⟨ht₁, hc₁, hf₁, he₁, -⟩ := fields_eq h₁
  exact ⟨h.tasks.trans ht₁, h.components.trans hc₁, h.files.trans hf₁, h.events.trans he₁⟩

/-- The packages are alike: nothing happens, but that the URLs are written. -/
theorem again_ends_stored {f : Nat} (hs : s.stopped = false) (hw : Waiting n s) (hr : Responds answers text)
    (htaken : P.cJsonSearchStatus text = some 0) (hentries : acceptedEntries P text = some entries) (hne : entries ≠ [])
    (hundone : s.status.any UpgradeStatus.isUndone = false)
    (hstored : isStoredVersion s.components (entries.map CheckResultEntry.listed) = true) :
    (FirmwareCheckExecutor.doCheck P f).Ends (n.answered answers) s fun _ s' => s'.tasks = s.tasks ∧
      s'.components = SameVersionAux.rowsAfter s.status (entries.map CheckResultEntry.listed) s.components ∧
      (∀ path, isPackagePath path = true → s'.files path = s.files path) ∧ s'.events = s.events := by
  refine doCheck_ends_taken hs hr htaken (AnalysisAux.indexable_of_accepted hentries) fun s₁ s₂ h₁ h₂ => ?_
  rw [h₁.bare] at h₂
  rw [handedOver_of_accepted hentries]
  obtain ⟨ht, hc, hf, he, -⟩ := fields_eq h₂
  have hstatus : s₂.status = s.status := by
    rw [State.status, ht]
    rfl
  have hrefused : ¬ CheckOutcome.Refused .checkSuccess s₂ := by
    rintro (h | h)
    · cases h
    · rw [hstatus, hundone] at h
      cases h
  have hcomponents : s₂.components = s.components := hc
  refine (ends_stored_rows f (not_stopped h₂ hs) (waiting_of_bare h₂ hw) hrefused (by simpa using hne)
    (by rw [hcomponents]; exact hstored)).mono ?_
  rintro _ s' ⟨ht', hc', hf', he'⟩
  rw [hstatus, hcomponents] at hc'
  refine ⟨ht'.trans ht, hc', fun path hpath => ?_, he'.trans he⟩
  rw [hf', hf]
  refine h₁.others path fun id hid => ?_
  rw [hid, isPackagePath_changelog] at hpath
  cases hpath

/-- They are not: the version takes the place of itself, and clients are told of a new one. -/
theorem again_ends_received {f : Nat} (hs : s.stopped = false) (hw : Waiting n s) (hr : Responds answers text)
    (htaken : P.cJsonSearchStatus text = some 0) (hentries : acceptedEntries P text = some entries) (hne : entries ≠ [])
    (hundone : s.status.any UpgradeStatus.isUndone = false)
    (hstored : isStoredVersion s.components (entries.map CheckResultEntry.listed) = false) :
    (FirmwareCheckExecutor.doCheck P f).Ends (n.answered answers) s fun _ s' => s'.events ≠ s.events := by
  refine doCheck_ends_taken hs hr htaken (AnalysisAux.indexable_of_accepted hentries) fun s₁ s₂ h₁ h₂ => ?_
  rw [h₁.bare] at h₂
  rw [handedOver_of_accepted hentries]
  obtain ⟨ht, hc, -, he, -⟩ := fields_eq h₂
  have hrefused : ¬ CheckOutcome.Refused .checkSuccess s₂ := by
    rintro (h | h)
    · cases h
    · rw [State.status, ht] at h
      exact Bool.false_ne_true (hundone.symm.trans h)
  have hcomponents : s₂.components = s.components := hc
  have hl : entries.map CheckResultEntry.listed ≠ [] := by simpa using hne
  refine (ends_received f (not_stopped h₂ hs) (waiting_of_bare h₂ hw) hrefused hl (by rw [hcomponents]; exact hstored)).mono ?_
  rintro _ s' ⟨⟨k, hk⟩, -⟩
  cases k with
  | ignored => exact absurd hk.1 hrefused
  | stored =>
    have hsame := hk.2.2.1
    rw [hcomponents, hstored] at hsame
    cases hsame
  | cancelled => exact absurd hk.2.1 hl
  | received =>
    obtain ⟨-, -, -, t, -, -, -, -, he'⟩ := hk
    rw [he']
    intro hevents
    have hlength := congrArg List.length (hevents.trans he.symm)
    simp at hlength

end ResponsesAux

/-- For every response with a component at least whose version is stored, with any progress on it that is no work under way: the next
check with the same response changes nothing and tells clients nothing exactly when all packages of the response are of one size and
have one `verifyInfo`, and, as long as no package was downloaded, one URL. -/
theorem check_idempotent_iff (P : Platform) {f : Nat} {answers : Op → Answer} {text : String} {s : State}
    {entries : List CheckResultEntry} {status : UpgradeStatus} (hs : s.stopped = false) (hw : s.flows f = { nextStep := .checkStep })
    (hr : Responds answers text) (htaken : P.cJsonSearchStatus text = some 0) (hentries : acceptedEntries P text = some entries)
    (hne : entries ≠ []) (hstored : StoredFrom P entries status s)
    (hstatus : status = .checkVersionSuccess ∨ status = .downloadSuccess ∨ status = .installSuccess) :
    ((FirmwareCheckExecutor.doCheck P f).Ends ((Thread.checkExecutor f).answered answers) s fun _ s' => Unchanged s s') ↔
      (∀ e ∈ entries, ∀ e' ∈ entries, Int32.ofInt e.size = Int32.ofInt e'.size ∧ e.verifyInfo = e'.verifyInfo) ∧
        (status = .checkVersionSuccess → ∀ e ∈ entries, ∀ e' ∈ entries, e.url = e'.url) := by
  have hw : Waiting (.checkExecutor f) s := hw
  have hundone : s.status.any UpgradeStatus.isUndone = false := by
    obtain ⟨t, ht, -, htask⟩ := hstored.task
    rw [State.status, ht]
    change t.status.isUndone = false
    rw [htask]
    rcases hstatus with rfl | rfl | rfl <;> rfl
  rw [← isStoredVersion_iff_of_storedFrom hstored, ← rowsAfter_eq_iff_of_storedFrom hstored]
  cases hsame : isStoredVersion s.components (entries.map CheckResultEntry.listed) with
  | true =>
    rw [and_iff_right rfl]
    refine (again_ends_stored hs hw hr htaken hentries hne hundone hsame).iff_of ?_
    rintro _ s' ⟨ht, hc, hf, he⟩
    rw [← hc]
    exact ⟨fun h => h.components, fun h => ⟨ht, h, hf, he⟩⟩
  | false =>
    refine (again_ends_received hs hw hr htaken hentries hne hundone hsame).iff_of ?_
    intro _ s' he
    exact iff_of_false (fun h => he h.events) fun h => Bool.false_ne_true h.1

/-- The entry of a package of a size, and what the analyser makes of it. -/
def sizedJson (size : Int) : Json := .obj [("descriptPackageId", .str "package"), ("packageType", .num 1), ("versionName", .str "2.0"),
  ("versionCode", .str "2.0"), ("url", .str "server/package"), ("size", .num size), ("verifyInfo", .str "")]

def sizedEntry (size : Int) : CheckResultEntry := ⟨"package", 1, "2.0", "2.0", "server/package", size, ""⟩

/-- The phone whose server lists a package of each of some sizes. -/
def Platform.sized (sizes : List Int) : Platform := { Platform.phone with
  jsonParse := fun _ => some (.obj [("searchStatus", .num 0), ("checkResults", .arr (sizes.map sizedJson)), ("descriptInfo", .arr [])])
  cJsonSearchStatus := fun _ => some 0 }

/-- The phone has stored the version, and checks again. -/
def sizedState (sizes : List Int) (status : UpgradeStatus) : State where
  tasks := [{
    taskId := FirmwareUpdateHelper.buildTaskId (.sized sizes) ((sizes.map sizedEntry).map CheckResultEntry.row), status := status }]
  components := (sizes.map sizedEntry).map CheckResultEntry.row
  flows := fun _ => { nextStep := .checkStep }

theorem storedFrom_sized (sizes : List Int) (status : UpgradeStatus) :
    StoredFrom (.sized sizes) (sizes.map sizedEntry) status (sizedState sizes status) := ⟨rfl, _, rfl, rfl, rfl⟩

theorem check_idempotent_iff_single :
    ((FirmwareCheckExecutor.doCheck (.sized [1]) 1).Ends ((Thread.checkExecutor 1).answered (responding ""))
      (sizedState [1] .downloadSuccess) fun _ s' => Unchanged (sizedState [1] .downloadSuccess) s') ↔
      (∀ e ∈ [sizedEntry 1], ∀ e' ∈ [sizedEntry 1], Int32.ofInt e.size = Int32.ofInt e'.size ∧ e.verifyInfo = e'.verifyInfo) ∧
        (UpgradeStatus.downloadSuccess = .checkVersionSuccess → ∀ e ∈ [sizedEntry 1], ∀ e' ∈ [sizedEntry 1], e.url = e'.url) :=
  check_idempotent_iff (.sized [1]) rfl rfl (responds_responding "") rfl rfl (List.cons_ne_nil _ _)
    (storedFrom_sized [1] .downloadSuccess) (.inr (.inl rfl))

/-- A version of two packages that are not of one size was downloaded; the next check tells clients of a new version. -/
theorem downloaded_version_received_again :
    acceptedEntries (.sized [1, 2]) "" = some ([1, 2].map sizedEntry) ∧
      StoredFrom (.sized [1, 2]) ([1, 2].map sizedEntry) .downloadSuccess (sizedState [1, 2] .downloadSuccess) ∧
      ¬ (FirmwareCheckExecutor.doCheck (.sized [1, 2]) 1).Ends ((Thread.checkExecutor 1).answered (responding ""))
        (sizedState [1, 2] .downloadSuccess) fun _ s' => Unchanged (sizedState [1, 2] .downloadSuccess) s' := by
  have hstored := storedFrom_sized [1, 2] .downloadSuccess
  have hother : isStoredVersion (sizedState [1, 2] .downloadSuccess).components (([1, 2].map sizedEntry).map CheckResultEntry.listed) =
      false := by decide
  refine ⟨rfl, hstored, fun h => ?_⟩
  have hends := @again_ends_received (.sized [1, 2]) (.checkExecutor 1) (responding "") "" (sizedState [1, 2] .downloadSuccess)
    ([1, 2].map sizedEntry) 1 rfl rfl (responds_responding "") rfl rfl (List.cons_ne_nil _ _) rfl hother
  obtain ⟨_, s', he, hsame⟩ := hends.unique h
  exact he hsame.events

end UpdateEngine
