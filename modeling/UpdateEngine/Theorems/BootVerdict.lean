import UpdateEngine.Lemmas.AloneAux
import UpdateEngine.Theorems.Records

/-!
# The verdict of a boot

Whether an installation by the updater is judged a success, and what error clients are told when it is not. A component is judged by
the first record with its path, or by its version number where there is none; the error is that of the least path that failed.
-/

namespace UpdateEngine

open Concurrent FirmwareResultProcess AloneAux

/-- The records of the file, in its order; none when there is no file. -/
def fileRecords : Option String → List UpdateResult
  | none => []
  | some text => ((readLines text).filter (· ≠ "")).map UpdateResult.ofLine

/-- The component passed: by the first record with its path, or else because the device runs its version. -/
def passes (P : Platform) (infile : Option String) (component : FirmwareComponent) : Bool :=
  match (fileRecords infile).find? fun r => r.spath = component.spath with
  | some r => r.result = UPDATER_RESULT_SUCCESS
  | none => component.versionNumber = P.displayVersion

/-- What is recorded for a path: the first record of the file, or else the comparison of versions for the first component. -/
def recorded (P : Platform) (infile : Option String) (components : List FirmwareComponent) (path : String) : Option UpdateResult :=
  ((fileRecords infile).find? fun r => r.spath = path).or ((components.map (compareVersion P)).find? fun r => r.spath = path)

/-- What is recorded for the path of a component is a pass. -/
def recordedPass (P : Platform) (infile : Option String) (components : List FirmwareComponent) (c : FirmwareComponent) : Bool :=
  (recorded P infile components c.spath).any fun r => r.result = UPDATER_RESULT_SUCCESS

/-- Of the paths that are recorded to have failed, the least one. -/
structure LeastFailure (P : Platform) (infile : Option String) (components : List FirmwareComponent) (path : String)
    (r : UpdateResult) : Prop where
  record : recorded P infile components path = some r
  failed : r.result = UPDATER_RESULT_FAILURE
  least : ∀ path' r', recorded P infile components path' = some r' → r'.result = UPDATER_RESULT_FAILURE → ¬ path' < path

/-- The error has a code, and its reason is the one recorded for a component that did not pass. -/
structure Explains (P : Platform) (s : State) (e : ErrorMessage) : Prop where
  code : e.errorCode ≠ 0
  reason : ∃ c ∈ s.components, ∃ r, recorded P s.updaterResult s.components c.spath = some r ∧
    r.result ≠ UPDATER_RESULT_SUCCESS ∧ r.reason = e.errorMessage

/-- After the boot clients are told that the version of the task failed, with an error that explains it. -/
def FailureExplained (P : Platform) (n : Thread) (a : Answer) (s : State) (taskId : String) : Prop :=
  (FirmwareManager.handleBootComplete P).Ends (n.alone a) s fun _ s' =>
    ∃ e, s'.events = s.events ++ [failEvent taskId e s.components] ∧ Explains P s e

namespace BootVerdictAux

variable {P : Platform} {n : Thread} {a : Answer} {s : State} {infile : Option String} {components l : List FirmwareComponent}
  {resultMap : UpdateResults}

/-! ## The map -/

/-- A comparison is recorded for the component it is about. -/
theorem compareVersion_spath (P : Platform) (c : FirmwareComponent) : (compareVersion P c).spath = c.spath := by
  unfold compareVersion
  split <;> rfl

/-- The map of the records of a list. -/
theorem recordOf_foldl (hm : SortedMap.Sorted resultMap) (l : List UpdateResult) :
    SortedMap.Sorted (l.foldl (fun resultMap r => emplace r.spath r resultMap) resultMap) ∧
      ∀ path, UpdateResults.recordOf (l.foldl (fun resultMap r => emplace r.spath r resultMap) resultMap) path =
        (resultMap.recordOf path).or (l.find? fun r => r.spath = path) := by
  simp only [RecordsAux.emplace_eq]
  exact SortedMap.find_foldl_emplace hm UpdateResult.spath l

/-- The map `GetUpdaterResult` starts from. -/
def started (P : Platform) (infile : Option String) (components : List FirmwareComponent) : UpdateResults :=
  match infile with
  | none => handleFileError P components
  | some text => (readLines text).foldl (fun resultMap line => parseUpdaterResultRecord line resultMap) []

theorem foldl_parse (lines : List String) (resultMap : UpdateResults) :
    lines.foldl (fun resultMap line => parseUpdaterResultRecord line resultMap) resultMap =
      ((lines.filter (· ≠ "")).map UpdateResult.ofLine).foldl (fun resultMap r => emplace r.spath r resultMap) resultMap := by
  induction lines generalizing resultMap with
  | nil => rfl
  | cons line lines ih =>
    rw [List.foldl_cons, ih]
    by_cases h : line = ""
    · subst h
      rfl
    · rw [RecordsAux.parse_eq h, ← RecordsAux.emplace_eq, List.filter_cons_of_pos (by simpa using h)]
      rfl

/-- With a file it holds the first record of each path, without one the comparison for each component. -/
theorem started_records : SortedMap.Sorted (started P infile components) ∧
    ∀ path, ((started P infile components).recordOf path).or
      ((components.map (compareVersion P)).find? fun r => r.spath = path) = recorded P infile components path := by
  have hnil : SortedMap.Sorted ([] : UpdateResults) := List.Pairwise.nil
  cases infile with
  | none =>
    obtain ⟨hsorted, hrecords⟩ := recordOf_foldl hnil (components.map (compareVersion P))
    unfold started handleFileError
    rw [List.foldl_map] at hsorted hrecords
    refine ⟨hsorted, fun path => ?_⟩
    dsimp only
    rw [hrecords]
    unfold recorded fileRecords
    cases (components.map (compareVersion P)).find? fun r => r.spath = path <;> rfl
  | some text =>
    obtain ⟨hsorted, hrecords⟩ := recordOf_foldl hnil (fileRecords (some text))
    unfold started
    dsimp only
    rw [foldl_parse]
    refine ⟨hsorted, fun path => ?_⟩
    have hrecord := hrecords path
    unfold fileRecords at hrecord
    rw [hrecord]
    rfl

/-! ## The loop over the components -/

/-- What a component adds to the result. -/
def judged (resultMap : UpdateResults) (c : FirmwareComponent) : UInt32 :=
  if (resultMap.recordOf c.spath).any fun r => r.result = UPDATER_RESULT_SUCCESS then UPDATE_SUCCESSED else UPDATE_FAILED

theorem judged_congr {resultMap' : UpdateResults} {c : FirmwareComponent} (h : resultMap.recordOf c.spath = resultMap'.recordOf c.spath) :
    judged resultMap c = judged resultMap' c := by
  unfold judged
  rw [h]

/-- One component: its comparison is recorded where there is no record of its path. -/
theorem handleFileResult_eq (hm : SortedMap.Sorted resultMap) (b : UInt32) (c : FirmwareComponent) :
    handleFileResult P (b, resultMap) c = (b ||| judged (emplace c.spath (compareVersion P c) resultMap) c,
      emplace c.spath (compareVersion P c) resultMap) := by
  have hspath := compareVersion_spath P c
  have hrecord : UpdateResults.recordOf (emplace c.spath (compareVersion P c) resultMap) c.spath =
      (resultMap.recordOf c.spath).or (some (compareVersion P c)) := by
    unfold UpdateResults.recordOf
    rw [RecordsAux.emplace_eq, SortedMap.find_emplace hm, if_pos rfl]
  cases h : resultMap.find? fun e => e.1 = c.spath with
  | none =>
    have hnone : resultMap.recordOf c.spath = none := by simp [UpdateResults.recordOf, SortedMap.find, h]
    have hjudged : judged (emplace c.spath (compareVersion P c) resultMap) c =
        if (compareVersion P c).result = UPDATER_RESULT_SUCCESS then UPDATE_SUCCESSED else UPDATE_FAILED := by
      simp [judged, hrecord, hnone]
    simp only [handleFileResult, h, hjudged, hspath]
  | some e =>
    have hsome : resultMap.recordOf c.spath = some e.2 := by simp [UpdateResults.recordOf, SortedMap.find, h]
    have hsame : emplace c.spath (compareVersion P c) resultMap = resultMap := by
      rw [RecordsAux.emplace_eq]
      exact SortedMap.emplace_of_some hm (Option.isSome_of_eq_some hsome)
    have hjudged : judged resultMap c = if e.2.result = UPDATER_RESULT_SUCCESS then UPDATE_SUCCESSED else UPDATE_FAILED := by
      simp [judged, hsome]
    simp only [handleFileResult, h, hsame, hjudged]

/-- The loop: the comparisons of the components are recorded where there is no record, and each component is judged by the record of
its path. -/
theorem foldl_handleFileResult (hm : SortedMap.Sorted resultMap) (b : UInt32) (l : List FirmwareComponent) :
    SortedMap.Sorted (l.foldl (handleFileResult P) (b, resultMap)).2 ∧
      (∀ path, UpdateResults.recordOf (l.foldl (handleFileResult P) (b, resultMap)).2 path =
        (resultMap.recordOf path).or ((l.map (compareVersion P)).find? fun r => r.spath = path)) ∧
      (l.foldl (handleFileResult P) (b, resultMap)).1 =
        l.foldl (fun b' c => b' ||| judged (l.foldl (handleFileResult P) (b, resultMap)).2 c) b := by
  induction l generalizing b resultMap with
  | nil => exact ⟨hm, fun path => (Option.or_none).symm, rfl⟩
  | cons c l ih =>
    have hspath := compareVersion_spath P c
    have hm' : SortedMap.Sorted (emplace c.spath (compareVersion P c) resultMap) := by
      rw [RecordsAux.emplace_eq]
      exact SortedMap.sorted_emplace hm
    obtain ⟨hsorted, hrecords, hresult⟩ := ih hm' (b ||| judged (emplace c.spath (compareVersion P c) resultMap) c)
    rw [List.foldl_cons, handleFileResult_eq hm]
    have hrecord (path : String) : UpdateResults.recordOf (emplace c.spath (compareVersion P c) resultMap) path =
        (resultMap.recordOf path).or (if c.spath = path then some (compareVersion P c) else none) := by
      unfold UpdateResults.recordOf
      rw [RecordsAux.emplace_eq, SortedMap.find_emplace hm]
    refine ⟨hsorted, fun path => ?_, ?_⟩
    · rw [hrecords, hrecord, Option.or_assoc, List.map_cons, List.find?_cons, hspath]
      by_cases hpath : c.spath = path <;> simp [hpath]
    · -- the record the component was judged by is not changed any more
      have hjudged : judged (emplace c.spath (compareVersion P c) resultMap) c = judged (l.foldl (handleFileResult P)
          (b ||| judged (emplace c.spath (compareVersion P c) resultMap) c, emplace c.spath (compareVersion P c) resultMap)).2 c := by
        refine judged_congr ?_
        rw [hrecords, hrecord, if_pos rfl]
        cases resultMap.recordOf c.spath <;> rfl
      rw [hresult, List.foldl_cons, ← hjudged]

/-- The bits of the result say whether some component passed and whether some did not. -/
theorem foldl_mask (resultMap : UpdateResults) (b : UInt32) (l : List FirmwareComponent) :
    l.foldl (fun b' c => b' ||| judged resultMap c) b = b |||
      ((if ∃ c ∈ l, judged resultMap c = UPDATE_SUCCESSED then UPDATE_SUCCESSED else 0) |||
        (if ∃ c ∈ l, judged resultMap c = UPDATE_FAILED then UPDATE_FAILED else 0)) := by
  induction l generalizing b with
  | nil => simp
  | cons c l ih =>
    have hne : UPDATE_SUCCESSED ≠ UPDATE_FAILED := by decide
    rw [List.foldl_cons, ih, UInt32.or_assoc]
    congr 1
    have hc : judged resultMap c = UPDATE_SUCCESSED ∨ judged resultMap c = UPDATE_FAILED := by
      unfold judged
      split
      · exact .inl rfl
      · exact .inr rfl
    rcases hc with hc | hc
    · simp only [List.exists_mem_cons_iff, hc, hne, true_or, false_or, if_true]
      split_ifs <;> rfl
    · simp only [List.exists_mem_cons_iff, hc, hne.symm, true_or, false_or, if_true]
      split_ifs <;> rfl

/-- The result is a success when there is a component and each of them passed. -/
theorem foldl_judged_iff (resultMap : UpdateResults) (l : List FirmwareComponent) :
    l.foldl (fun b c => b ||| judged resultMap c) 0 = UPDATE_SUCCESSED ↔
      l ≠ [] ∧ ∀ c ∈ l, (resultMap.recordOf c.spath).any fun r => r.result = UPDATER_RESULT_SUCCESS := by
  have hpass (c : FirmwareComponent) : judged resultMap c = UPDATE_SUCCESSED ↔
      (resultMap.recordOf c.spath).any fun r => r.result = UPDATER_RESULT_SUCCESS := by
    unfold judged
    split
    · simp_all
    · simp_all [UPDATE_SUCCESSED, UPDATE_FAILED]
  have hfail (c : FirmwareComponent) : judged resultMap c = UPDATE_FAILED ↔ judged resultMap c ≠ UPDATE_SUCCESSED := by
    unfold judged
    split <;> decide
  rw [foldl_mask]
  by_cases hsome : ∃ c ∈ l, judged resultMap c = UPDATE_FAILED
  · -- a component that did not pass leaves its bit
    obtain ⟨c, hc, hjudged⟩ := id hsome
    have hbits : (0 ||| ((if ∃ c ∈ l, judged resultMap c = UPDATE_SUCCESSED then UPDATE_SUCCESSED else 0) ||| UPDATE_FAILED)) ≠
        UPDATE_SUCCESSED := by
      split_ifs <;> decide
    rw [if_pos hsome]
    exact iff_of_false hbits fun h => (hfail c).mp hjudged ((hpass c).mpr (h.2 c hc))
  · have hall : ∀ c ∈ l, judged resultMap c = UPDATE_SUCCESSED := by
      intro c hc
      by_contra h
      exact hsome ⟨c, hc, (hfail c).mpr h⟩
    have hpassed : ∀ c ∈ l, (resultMap.recordOf c.spath).any fun r => r.result = UPDATER_RESULT_SUCCESS :=
      fun c hc => (hpass c).mp (hall c hc)
    rw [if_neg hsome]
    cases l with
    | nil => simp [UPDATE_SUCCESSED]
    | cons c l =>
      rw [if_pos ⟨c, List.mem_cons_self, hall c List.mem_cons_self⟩]
      exact iff_of_true rfl ⟨List.cons_ne_nil _ _, hpassed⟩

/-! ## The verdict -/

/-- The map that is left records each component, and the result is a success when what it records for each is a pass. -/
theorem handleFileResults_records (hs : s.stopped = false) (ht : s.tasks ≠ []) (hm : SortedMap.Sorted resultMap) :
    (handleFileResults P resultMap components).Ends (n.alone a) s fun x s' =>
      (SortedMap.Sorted x.2 ∧ (∀ path, x.2.recordOf path =
          (resultMap.recordOf path).or ((components.map (compareVersion P)).find? fun r => r.spath = path)) ∧
        x.1 = if components ≠ [] ∧ ∀ c ∈ components, (x.2.recordOf c.spath).any fun r => r.result = UPDATER_RESULT_SUCCESS then
          .success else .failure) ∧
      s'.bare = s.bare := by
  obtain ⟨hsorted, hrecords, hresult⟩ := @foldl_handleFileResult P resultMap hm 0 components
  refine Prog.Ends.seq (queryTask_ends hs _ _) ?_
  rintro _ s' ⟨rfl, h⟩
  obtain ⟨t, l, hl⟩ := List.exists_cons_of_ne_nil ht
  have hexists : ¬ (!(first {} s.tasks).isExistTask) = true := by simp [hl, first]
  rw [if_neg hexists]
  have hmask := hresult ▸ foldl_judged_iff (components.foldl (handleFileResult P) (0, resultMap)).2 components
  clear hresult
  revert hsorted hrecords hmask
  generalize components.foldl (handleFileResult P) (0, resultMap) = out
  intro hsorted hrecords hmask
  dsimp only
  by_cases hpass : out.1 = UPDATE_SUCCESSED
  · rw [if_pos hpass, if_neg (not_not.mpr hpass)]
    split
    · exact ⟨⟨hsorted, hrecords, (if_pos (hmask.mp hpass)).symm⟩, h⟩
    · exact ⟨⟨hsorted, hrecords, (if_pos (hmask.mp hpass)).symm⟩, h⟩
  · rw [if_neg hpass, if_pos hpass]
    split
    · exact ⟨⟨hsorted, hrecords, (if_neg (mt hmask.mpr hpass)).symm⟩, h⟩
    · exact ⟨⟨hsorted, hrecords, (if_neg (mt hmask.mpr hpass)).symm⟩, h⟩

/-- The same for the file. -/
theorem getUpdaterResult_records (hs : s.stopped = false) (hc : components ≠ []) (ht : s.tasks ≠ []) :
    (getUpdaterResult P components).Ends (n.alone a) s fun x s' =>
      (SortedMap.Sorted x.2 ∧ (∀ path, x.2.recordOf path = recorded P s.updaterResult components path) ∧
        x.1 = if ∀ c ∈ components, recordedPass P s.updaterResult components c = true then .success else .failure) ∧
      s'.bare = s.bare := by
  obtain ⟨hsorted, hstarted⟩ := @started_records P s.updaterResult components
  have hempty : ¬ components.isEmpty = true := by simpa using hc
  unfold getUpdaterResult
  rw [if_neg hempty]
  refine ends_call hs rfl ?_
  refine Prog.Ends.mono (@handleFileResults_records P n a _ components (started P s.updaterResult components) hs ht hsorted) ?_
  rintro x s' ⟨⟨hsorted', hrecords, hcode⟩, h⟩
  have hrecorded (path : String) : x.2.recordOf path = recorded P s.updaterResult components path :=
    (hrecords path).trans (hstarted path)
  refine ⟨⟨hsorted', hrecorded, ?_⟩, h⟩
  simp only [hcode, recordedPass, ← hrecorded, ne_eq, hc, not_false_eq_true, true_and]

/-- No components or no task: a failure. -/
theorem getUpdaterResult_fails (hs : s.stopped = false) (h : components = [] ∨ s.tasks = []) :
    (getUpdaterResult P components).Ends (n.alone a) s fun x _ => x.1 = .failure := by
  unfold getUpdaterResult
  by_cases hc : components = []
  · subst hc
    exact rfl
  · have hempty : ¬ components.isEmpty = true := by simpa using hc
    rw [if_neg hempty]
    refine ends_call hs rfl ?_
    refine Prog.Ends.seq (queryTask_ends ?_ _ _) ?_
    · exact hs
    rintro _ s' ⟨rfl, -⟩
    have htasks : (Op.after n s .readUpdaterResult s.updaterResult).tasks = [] := h.resolve_left hc
    rw [htasks]
    exact rfl

/-- Where no two components share a path, what is recorded for the path of one is its own comparison or a record of the file. -/
theorem recordedPass_eq (hd : components.Pairwise fun c c' => c.spath ≠ c'.spath) {c : FirmwareComponent} (hc : c ∈ components) :
    recordedPass P infile components c = passes P infile c := by
  have hfind : (components.map (compareVersion P)).find? (fun r => r.spath = c.spath) = some (compareVersion P c) := by
    induction hd with
    | nil => cases hc
    | @cons c' l hne _ ih =>
      rw [List.map_cons, List.find?_cons, compareVersion_spath]
      rcases List.mem_cons.mp hc with rfl | hc
      · simp
      · simpa [hne c hc] using ih hc
  have hcompare : decide ((compareVersion P c).result = UPDATER_RESULT_SUCCESS) = decide (c.versionNumber = P.displayVersion) := by
    unfold compareVersion
    by_cases h : c.versionNumber = P.displayVersion
    · simp [h]
    · simp [h, UPDATER_RESULT_SUCCESS, UPDATER_RESULT_FAILURE]
  unfold recordedPass recorded passes
  rw [hfind]
  cases (fileRecords infile).find? fun r => r.spath = c.spath with
  | none => exact hcompare
  | some r => rfl

end BootVerdictAux

open BootVerdictAux in
/-- The verdict on an installation: a success when there is a task, there is a component, and each component passed; a failure
otherwise. -/
theorem updater_verdict {P : Platform} {n : Thread} {a : Answer} {s : State} {components : List FirmwareComponent}
    (hs : s.stopped = false) (hd : components.Pairwise fun c c' => c.spath ≠ c'.spath) :
    (getUpdaterResult P components).Ends (n.alone a) s fun x _ =>
      x.1 = if s.tasks ≠ [] ∧ components ≠ [] ∧ ∀ c ∈ components, passes P s.updaterResult c = true then .success
        else .failure := by
  by_cases h : components = [] ∨ s.tasks = []
  · have hnone : ¬ (s.tasks ≠ [] ∧ components ≠ [] ∧ ∀ c ∈ components, passes P s.updaterResult c = true) := by
      rintro ⟨ht, hc, -⟩
      exact h.elim hc ht
    rw [if_neg hnone]
    exact getUpdaterResult_fails hs h
  · obtain ⟨hc, ht⟩ := not_or.mp h
    have hpasses : (∀ c ∈ components, recordedPass P s.updaterResult components c = true) ↔
        ∀ c ∈ components, passes P s.updaterResult c = true := by
      refine forall₂_congr fun c hc => ?_
      rw [recordedPass_eq hd hc]
    refine (@getUpdaterResult_records P n a s components hs hc ht).mono ?_
    rintro x _ ⟨⟨-, -, hcode⟩, -⟩
    rw [hcode]
    exact if_congr (hpasses.trans ⟨fun hall => ⟨ht, hc, hall⟩, fun hall => hall.2.2⟩) rfl rfl

/-- A phone with two packages, the second of which it runs, after the updater wrote its file. -/
def updatedPhone (text : String) : State where
  tasks := [{ status := .updating }]
  components := [{ spath := "a", versionNumber := "1.0" }, { spath := "b", versionNumber := "2.0" }]
  updaterResult := some text

theorem updater_verdict_phone : (getUpdaterResult .phone (updatedPhone "a|pass").components).Ends
    ((Thread.delayInit 0 .deviceReboot).alone .none) (updatedPhone "a|pass") fun x _ =>
      x.1 = if (updatedPhone "a|pass").tasks ≠ [] ∧ (updatedPhone "a|pass").components ≠ [] ∧
        ∀ c ∈ (updatedPhone "a|pass").components, passes .phone (updatedPhone "a|pass").updaterResult c = true then .success
      else .failure :=
  updater_verdict rfl (by decide)

/-! ## The error -/

namespace BootVerdictAux

variable {P : Platform} {n : Thread} {a : Answer} {s : State} {resultMap : UpdateResults}

/-- The error is that of the least path that failed, and there is none when no path did. -/
theorem explains_iff (hm : SortedMap.Sorted resultMap)
    (hr : ∀ path, resultMap.recordOf path = recorded P s.updaterResult s.components path) :
    Explains P s (FirmwareManager.bootUpdateError resultMap) ↔
      ∃ path r, LeastFailure P s.updaterResult s.components path r ∧ ∃ c ∈ s.components, ∃ r',
        recorded P s.updaterResult s.components c.spath = some r' ∧ r'.result ≠ UPDATER_RESULT_SUCCESS ∧ r'.reason = r.reason := by
  have hleast (path : String) (r : UpdateResult) : resultMap.find? (fun e => e.2.result = UPDATER_RESULT_FAILURE) = some (path, r) ↔
      LeastFailure P s.updaterResult s.components path r := by
    rw [SortedMap.find?_eq_some_iff hm fun r => r.result = UPDATER_RESULT_FAILURE]
    simp only [decide_eq_true_eq]
    constructor
    · rintro ⟨hrecord, hfailed, hleast⟩
      exact ⟨(hr path).symm.trans hrecord, hfailed, fun path' r' h => hleast path' r' ((hr path').trans h)⟩
    · rintro ⟨hrecord, hfailed, hleast⟩
      exact ⟨(hr path).trans hrecord, hfailed, fun path' r' h => hleast path' r' ((hr path').symm.trans h)⟩
  cases h : resultMap.find? fun e => e.2.result = UPDATER_RESULT_FAILURE with
  | none =>
    have herror : FirmwareManager.bootUpdateError resultMap = {} := by
      simp only [FirmwareManager.bootUpdateError, h]
    rw [herror]
    constructor
    · intro he
      exact absurd rfl he.code
    · rintro ⟨path, r, hl, -⟩
      have hsome := (hleast path r).mpr hl
      rw [h] at hsome
      cases hsome
  | some e =>
    obtain ⟨path, r⟩ := e
    have hl := (hleast path r).mp h
    have herror : FirmwareManager.bootUpdateError resultMap = { errorCode := 1, errorMessage := r.reason } := by
      have hcode : getUpdateResultCode r = 1 := by
        simp [getUpdateResultCode, hl.failed, UPDATER_RESULT_SUCCESS, UPDATER_RESULT_FAILURE]
      simp only [FirmwareManager.bootUpdateError, h, hcode]
    rw [herror]
    constructor
    · intro he
      exact ⟨path, r, hl, he.reason⟩
    · rintro ⟨path', r', hl', hreason⟩
      have hsame := ((hleast path' r').mpr hl').symm.trans h
      cases hsame
      exact ⟨one_ne_zero, hreason⟩

theorem events_eq {s' t : State} (h : s'.bare = t) : s'.events = t.events := by
  rw [← h]
  rfl

theorem updaterResult_eq {s' t : State} (h : s'.bare = t) : s'.updaterResult = t.updaterResult := by
  rw [← h]
  rfl

/-- The boot of a version that did not pass. -/
theorem handleBootComplete_fails (hs : s.stopped = false) {t : FirmwareTask} {l : List FirmwareTask} (ht : s.tasks = t :: l)
    (hstatus : t.status = .updating)
    (hfail : ∃ c ∈ s.components, recordedPass P s.updaterResult s.components c = false) :
    (FirmwareManager.handleBootComplete P).Ends (n.alone a) s fun _ s' => ∃ resultMap : UpdateResults,
      SortedMap.Sorted resultMap ∧ (∀ path, resultMap.recordOf path = recorded P s.updaterResult s.components path) ∧
        s'.events = s.events ++ [failEvent t.taskId (FirmwareManager.bootUpdateError resultMap) s.components] := by
  obtain ⟨c, hc, hpass⟩ := hfail
  refine Prog.Ends.seq (queryTask_ends hs _ _) ?_
  rintro _ s₁ ⟨rfl, h₁⟩
  have hs₁ : s₁.stopped = false := not_stopped h₁ hs
  have hcomponents : s₁.components = s.components := (components_eq h₁ :)
  rw [ht]
  change Prog.Ends _ (if t.status = .updating then _ else _) s₁ _
  rw [if_pos hstatus]
  refine ends_via hs₁ rfl s.bare h₁ ?_
  intro s₂ h₂
  have hs₂ : s₂.stopped = false := not_stopped h₂ hs
  have htasks : s₂.tasks ≠ [] := by
    rw [tasks_eq h₂]
    exact ht ▸ List.cons_ne_nil t l
  have hfile : s₂.updaterResult = s.updaterResult := (updaterResult_eq h₂ :)
  rw [hcomponents]
  refine Prog.Ends.seq (getUpdaterResult_records hs₂ (List.ne_nil_of_mem hc) htasks) ?_
  rintro ⟨code, resultMap⟩ s₃ ⟨⟨hsorted, hrecords, hcode⟩, h₃⟩
  rw [hfile] at hrecords hcode
  have hfailure : code = .failure := by
    refine hcode.trans (if_neg fun hall => ?_)
    rw [hall c hc] at hpass
    cases hpass
  subst hfailure
  have hs₃ : s₃.stopped = false := not_stopped h₃ hs₂
  refine (handleBootUpdateFail_ends hs₃ { t with isExistTask := true } resultMap).mono ?_
  rintro _ s' ⟨preferences, h'⟩
  have hsame : s₃.bare = s.bare := h₃.trans h₂
  have hcomponents' : s₃.components = s.components := (components_eq hsame :)
  have hevents : s₃.events = s.events := (events_eq hsame :)
  refine ⟨resultMap, hsorted, hrecords, ?_⟩
  rw [events_eq h', ← hcomponents', ← hevents]
  rfl

end BootVerdictAux

open BootVerdictAux in
/-- The error explains the failure where the least path that failed is recorded with the reason of a component that did not pass. -/
theorem failure_explained_iff {P : Platform} {n : Thread} {a : Answer} {s : State} {t : FirmwareTask} {l : List FirmwareTask}
    (hs : s.stopped = false) (ht : s.tasks = t :: l) (hstatus : t.status = .updating)
    (hfail : ∃ c ∈ s.components, recordedPass P s.updaterResult s.components c = false) :
    FailureExplained P n a s t.taskId ↔
      ∃ path r, LeastFailure P s.updaterResult s.components path r ∧ ∃ c ∈ s.components, ∃ r',
        recorded P s.updaterResult s.components c.spath = some r' ∧ r'.result ≠ UPDATER_RESULT_SUCCESS ∧ r'.reason = r.reason := by
  have hends : (FirmwareManager.handleBootComplete P).Ends (n.alone a) s fun _ s' => ∃ resultMap : UpdateResults,
      SortedMap.Sorted resultMap ∧ (∀ path, resultMap.recordOf path = recorded P s.updaterResult s.components path) ∧
        s'.events = s.events ++ [failEvent t.taskId (FirmwareManager.bootUpdateError resultMap) s.components] :=
    handleBootComplete_fails hs ht hstatus hfail
  refine hends.iff_of ?_
  rintro _ s' ⟨resultMap, hsorted, hrecords, hevents⟩
  constructor
  · rintro ⟨e, he, hexplains⟩
    have hsame := List.append_cancel_left (he.symm.trans hevents)
    simp only [failEvent, List.cons.injEq, EventInfo.mk.injEq, TaskBody.mk.injEq, and_true, true_and] at hsame
    exact (explains_iff hsorted hrecords).mp (hsame ▸ hexplains)
  · intro h
    exact ⟨_, hevents, (explains_iff hsorted hrecords).mpr h⟩

theorem failure_explained_iff_phone :
    FailureExplained .phone (.delayInit 0 .deviceReboot) .none (updatedPhone "a|fail:;02:145768") "" ↔
      ∃ path r, LeastFailure .phone (updatedPhone "a|fail:;02:145768").updaterResult (updatedPhone "a|fail:;02:145768").components path r ∧
        ∃ c ∈ (updatedPhone "a|fail:;02:145768").components, ∃ r',
          recorded .phone (updatedPhone "a|fail:;02:145768").updaterResult (updatedPhone "a|fail:;02:145768").components c.spath = some r' ∧
            r'.result ≠ UPDATER_RESULT_SUCCESS ∧ r'.reason = r.reason :=
  @failure_explained_iff .phone (.delayInit 0 .deviceReboot) .none (updatedPhone "a|fail:;02:145768") { status := .updating } []
    rfl rfl rfl ⟨{ spath := "a", versionNumber := "1.0" }, by decide, by decide⟩

/-- A package the updater wrote no result for fails with the error code of a success, and when another package failed too, it is the
reason of that one that clients are told. -/
theorem failure_unexplained :
    ¬ FailureExplained .phone (.delayInit 0 .deviceReboot) .none (updatedPhone "a") "" ∧
      ¬ FailureExplained .phone (.delayInit 0 .deviceReboot) .none (updatedPhone "a|fail:own\n/|fail:foreign") "" := by
  -- the error that is reported is the one that would have to explain
  have hreported {text : String} {e : ErrorMessage} (hrun : ((FirmwareManager.handleBootComplete .phone).run
      ((Thread.delayInit 0 .deviceReboot).alone .none) (updatedPhone text)).2.events =
        [failEvent "" e (updatedPhone text).components])
      (h : FailureExplained .phone (.delayInit 0 .deviceReboot) .none (updatedPhone text) "") : Explains .phone (updatedPhone text) e := by
    obtain ⟨_, s', hends, e', he, hexplains⟩ := Prog.ends_iff_run.mp h
    rw [hends] at hrun
    have hsame := he.symm.trans hrun
    simp only [failEvent, List.cons.injEq, EventInfo.mk.injEq, TaskBody.mk.injEq, updatedPhone, List.nil_append, and_true,
      true_and] at hsame
    exact hsame ▸ hexplains
  refine ⟨fun h => ?_, fun h => ?_⟩
  · have hexplains := @hreported "a" {} (by decide) h
    exact hexplains.code rfl
  · have hexplains := @hreported "a|fail:own\n/|fail:foreign" { errorCode := 1, errorMessage := "foreign" } (by decide) h
    obtain ⟨c, hc, r, hr, -, hreason⟩ := hexplains.reason
    have hreasons : ∀ c ∈ (updatedPhone "a|fail:own\n/|fail:foreign").components,
        (recorded .phone (updatedPhone "a|fail:own\n/|fail:foreign").updaterResult
          (updatedPhone "a|fail:own\n/|fail:foreign").components c.spath).all (·.reason ≠ "foreign") = true := by decide
    have hne := hreasons c hc
    rw [hr] at hne
    simp [hreason] at hne

end UpdateEngine
