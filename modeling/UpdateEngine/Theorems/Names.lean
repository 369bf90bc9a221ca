import UpdateEngine.Theorems.Analysis

/-!
# Names made of parts

The local path of a package is made of what follows the last slash of its URL, the id of a task of the version ids, joined with an
underscore. What is joined can be told apart again only as far as the parts do not hold the separator.
-/

namespace UpdateEngine

open Concurrent

/-! ## The path of a package -/

/-- Different packages have different paths. -/
def PathsApart (components : List FirmwareComponent) : Prop :=
  ∀ c ∈ components, ∀ c' ∈ components, c.url ≠ c'.url ∨ c.verifyInfo ≠ c'.verifyInfo → c.spath ≠ c'.spath

/-- What follows the last slash of a URL tells the packages of a response apart. -/
structure NamesApart (entries : List CheckResultEntry) : Prop where
  verifyInfo : ∀ e ∈ entries, ∀ e' ∈ entries, e.url = e'.url → e.verifyInfo = e'.verifyInfo
  url : ∀ e ∈ entries, ∀ e' ∈ entries,
    StringUtils.getLastSplitString e.url '/' = StringUtils.getLastSplitString e'.url '/' → e.url = e'.url

namespace NamesAux

open AnalysisAux FirmwareCheckDataProcessor

variable {P : Platform}

theorem append_right_inj {s t t' : String} : s ++ t = s ++ t' ↔ t = t' := by
  constructor
  · intro h
    have hlist := congrArg String.toList h
    rw [String.toList_append, String.toList_append] at hlist
    exact String.toList_inj.mp (List.append_cancel_left hlist)
  · rintro rfl
    rfl

/-- What the paths of components are to tell apart, and the paths. -/
def place (c : FirmwareComponent) : String × String × String := (c.url, c.verifyInfo, c.spath)

theorem pathsApart_iff_place {components : List FirmwareComponent} : PathsApart components ↔
    ∀ x ∈ components.map place, ∀ y ∈ components.map place, x.1 ≠ y.1 ∨ x.2.1 ≠ y.2.1 → x.2.2 ≠ y.2.2 := by
  simp only [List.forall_mem_map]
  exact Iff.rfl

theorem place_of_entries {l : List Json} {entries : List CheckResultEntry}
    (h : List.Forall₂ (fun j e => CheckResultEntry.ofJson j = some e) l entries) :
    ((l.map fun j => (FirmwareCheckAnalyzeUtils.analyzeComponent P j).2).map buildComponentSPath).map place = entries.map fun e =>
      (e.url, e.verifyInfo, Firmware.PACKAGE_PATH ++ "/" ++ StringUtils.getLastSplitString e.url '/') := by
  induction h with
  | nil => rfl
  | cons hje _ ih =>
    rw [List.map_cons, List.map_cons, List.map_cons, List.map_cons, ih, analyzeComponent_of_entry hje]
    rfl

/-- The packages of entries have different paths exactly when the names after the last slash tell them apart. -/
theorem pathsApart_iff {l : List Json} {entries : List CheckResultEntry}
    (h : List.Forall₂ (fun j e => CheckResultEntry.ofJson j = some e) l entries) :
    PathsApart ((l.map fun j => (FirmwareCheckAnalyzeUtils.analyzeComponent P j).2).map buildComponentSPath) ↔
      NamesApart entries := by
  rw [pathsApart_iff_place, place_of_entries h]
  simp only [List.forall_mem_map, ne_eq, append_right_inj]
  constructor
  · intro hapart
    refine ⟨fun e he e' he' hurl => ?_, fun e he e' he' hname => ?_⟩
    · by_contra hinfo
      exact hapart e he e' he' (.inr hinfo) (by rw [hurl])
    · by_contra hurl
      exact hapart e he e' he' (.inl hurl) hname
  · rintro ⟨hinfo, hurl⟩ e he e' he' hdifferent hname
    have hsame := hurl e he e' he' hname
    rcases hdifferent with h | h
    · exact h hsame
    · exact h (hinfo e he e' he' hsame)

end NamesAux

open NamesAux AnalysisAux in
/-- For every response that is accepted: different packages are given different paths exactly when the names after the last slash of
their URLs tell them apart. -/
theorem paths_apart_iff (P : Platform) {rawJson : String} {entries : List CheckResultEntry}
    (h : acceptedEntries P rawJson = some entries) :
    ((FirmwareCheckAnalyzeUtils.doAnalyze P rawJson).Returns fun components =>
      PathsApart (components.map FirmwareCheckDataProcessor.buildComponentSPath)) ↔ NamesApart entries := by
  obtain ⟨l, hl, hanalyzed⟩ := analyzed_of_accepted h
  rw [doAnalyze_returns_iff, hanalyzed]
  exact pathsApart_iff hl

/-- An entry of `checkResults` with a URL. -/
def placedJson (url : String) : Json := .obj [("descriptPackageId", .str "package"), ("packageType", .num 1),
  ("versionName", .str "2.0"), ("versionCode", .str "2.0"), ("url", .str url), ("size", .num 1), ("verifyInfo", .str "")]

/-- A device whose server lists a package under each of some URLs. -/
def Platform.placed (urls : List String) : Platform := { Platform.phone with
  jsonParse := fun _ => some (.obj [("searchStatus", .num 0), ("checkResults", .arr (urls.map placedJson)), ("descriptInfo", .arr [])]) }

/-- The entry the analyser accepts for a URL. -/
def placedEntry (url : String) : CheckResultEntry := ⟨"package", 1, "2.0", "2.0", url, 1, ""⟩

theorem paths_apart_iff_phone :
    ((FirmwareCheckAnalyzeUtils.doAnalyze (.placed ["server/package"]) "").Returns fun components =>
      PathsApart (components.map FirmwareCheckDataProcessor.buildComponentSPath)) ↔
      NamesApart [placedEntry "server/package"] :=
  @paths_apart_iff (.placed ["server/package"]) "" [placedEntry "server/package"] rfl

open NamesAux AnalysisAux in
/-- Two servers with a file of one name. -/
theorem paths_alike : acceptedEntries (.placed ["server/package", "mirror/package"]) "" =
      some [placedEntry "server/package", placedEntry "mirror/package"] ∧
    ¬ (FirmwareCheckAnalyzeUtils.doAnalyze (.placed ["server/package", "mirror/package"]) "").Returns fun components =>
      PathsApart (components.map FirmwareCheckDataProcessor.buildComponentSPath) := by
  have haccepted : acceptedEntries (.placed ["server/package", "mirror/package"]) "" =
      some [placedEntry "server/package", placedEntry "mirror/package"] := rfl
  refine ⟨haccepted, ?_⟩
  obtain ⟨l, hl, hanalyzed⟩ := analyzed_of_accepted haccepted
  rw [doAnalyze_returns_iff, hanalyzed, pathsApart_iff hl]
  rintro ⟨-, hurl⟩
  have hsame := hurl (placedEntry "server/package") List.mem_cons_self (placedEntry "mirror/package")
    (List.mem_cons_of_mem _ List.mem_cons_self) (by decide)
  exact absurd hsame (by decide)

/-! ## The id of a task -/

/-- The pieces the version ids consist of: the empty ids at the beginning left out, each other one is cut at its underscores. -/
def idPieces (versionIds : List String) : List (List Char) :=
  (versionIds.dropWhile String.isEmpty).flatMap fun versionId => versionId.toList.splitOn '_'

namespace NamesAux

open FirmwareUpdateHelper

theorem isEmpty_append {s t : String} (h : s.isEmpty = false) : (s ++ t).isEmpty = false := by
  simp only [← Bool.not_eq_true, String.isEmpty_iff, String.append_eq_empty_iff, not_and] at h ⊢
  exact fun hs _ => h hs

/-- Components after a text that is not empty: the text is not empty, and has the pieces of both. -/
theorem splitOn_foldl (l : List FirmwareComponent) {taskId : String} (h : taskId.isEmpty = false) :
    let text := l.foldl (fun taskId c => (if taskId.isEmpty then taskId else taskId ++ "_") ++ c.versionId) taskId
    text.isEmpty = false ∧ text.toList.splitOn '_' =
      taskId.toList.splitOn '_' ++ (l.map (·.versionId)).flatMap fun versionId => versionId.toList.splitOn '_' := by
  induction l generalizing taskId with
  | nil => simp [h]
  | cons c l ih =>
    have hempty : (taskId ++ "_" ++ c.versionId).isEmpty = false := isEmpty_append (isEmpty_append h)
    have hnext : (taskId ++ "_" ++ c.versionId).toList = taskId.toList ++ '_' :: c.versionId.toList := by
      simp [String.toList_append]
    obtain ⟨htext, hpieces⟩ := ih hempty
    rw [List.foldl_cons, h, if_neg Bool.false_ne_true]
    refine ⟨htext, ?_⟩
    rw [hpieces, hnext, List.splitOn_append_cons_self, List.map_cons, List.flatMap_cons, List.append_assoc]

/-- The text that is hashed is empty when there are no pieces, and consists of the pieces otherwise. -/
theorem taskIdText_pieces (l : List FirmwareComponent) :
    (taskIdText l = "" ∧ idPieces (l.map (·.versionId)) = []) ∨
      (taskIdText l ≠ "" ∧ (taskIdText l).toList.splitOn '_' = idPieces (l.map (·.versionId))) := by
  unfold taskIdText idPieces
  induction l with
  | nil => exact .inl ⟨rfl, rfl⟩
  | cons c l ih =>
    rw [List.foldl_cons, if_pos (show "".isEmpty = true from rfl), String.empty_append, List.map_cons]
    cases hc : c.versionId.isEmpty with
    | true =>
      rw [List.dropWhile_cons_of_pos hc, String.isEmpty_iff.mp hc]
      exact ih
    | false =>
      obtain ⟨htext, hpieces⟩ := splitOn_foldl l hc
      rw [List.dropWhile_cons_of_neg (by simp [hc]), hpieces, List.flatMap_cons]
      refine .inr ⟨?_, rfl⟩
      simpa [← Bool.not_eq_true, String.isEmpty_iff] using htext

/-- A text is known by its pieces. -/
theorem splitOn_inj {s t : String} : s.toList.splitOn '_' = t.toList.splitOn '_' ↔ s = t := by
  constructor
  · intro h
    have hjoined := congrArg (['_'].intercalate) h
    rw [List.intercalate_splitOn, List.intercalate_splitOn] at hjoined
    exact String.toList_inj.mp hjoined
  · rintro rfl
    rfl

end NamesAux

open NamesAux in
/-- For every two lists of components: the texts that are hashed for the ids of their tasks differ exactly when the pieces of their
version ids do. -/
theorem task_ids_apart_iff (l l' : List FirmwareComponent) :
    FirmwareUpdateHelper.taskIdText l ≠ FirmwareUpdateHelper.taskIdText l' ↔
      idPieces (l.map (·.versionId)) ≠ idPieces (l'.map (·.versionId)) := by
  refine not_congr ?_
  rcases taskIdText_pieces l with ⟨htext, hpieces⟩ | ⟨htext, hpieces⟩
  · rcases taskIdText_pieces l' with ⟨htext', hpieces'⟩ | ⟨htext', hpieces'⟩
    · simp [htext, hpieces, htext', hpieces']
    · rw [htext, hpieces, ← hpieces']
      exact iff_of_false htext'.symm (List.splitOn_ne_nil '_' _).symm
  · rcases taskIdText_pieces l' with ⟨htext', hpieces'⟩ | ⟨htext', hpieces'⟩
    · rw [htext', hpieces', ← hpieces]
      exact iff_of_false htext (List.splitOn_ne_nil '_' _)
    · rw [← hpieces, ← hpieces']
      exact splitOn_inj.symm

/-- One version id with an underscore, and the two ids on its sides. -/
theorem task_ids_alike : ["a_b"] ≠ ["a", "b"] ∧
    FirmwareUpdateHelper.taskIdText [{ versionId := "a_b" }] =
      FirmwareUpdateHelper.taskIdText [{ versionId := "a" }, { versionId := "b" }] := by
  decide

end UpdateEngine
