import Mathlib.Data.String.Basic
import UpdateEngine.Firmware.ResultProcess
import UpdateEngine.SortedMap

/-!
# The records of the updater

A line of the file `updater_result` is cut at the first bar and, after it, at the first colon; the pieces lose the blanks around them.
The map keeps the first record of each path.
-/

namespace UpdateEngine

open FirmwareResultProcess

/-- There is no blank at either end. -/
structure Unblanked (text : String) : Prop where
  first : ∀ c, text.toList.head? = some c → StringUtils.trim.isSpace c = false
  last : ∀ c, text.toList.getLast? = some c → StringUtils.trim.isSpace c = false

/-- The record of a path. -/
def UpdateResults.recordOf (resultMap : UpdateResults) (path : String) : Option UpdateResult := SortedMap.find resultMap path

/-- A record was added, and the one of no other path was changed. -/
structure UpdateResults.Adds (resultMap resultMap' : UpdateResults) (r : UpdateResult) : Prop where
  added : resultMap'.recordOf r.spath = some r
  others : ∀ path, path ≠ r.spath → resultMap'.recordOf path = resultMap.recordOf path

/-- The record of a line. -/
def UpdateResult.ofLine (resultLine : String) : UpdateResult where
  spath := StringUtils.trim (splitFirst '|' resultLine).1
  result := StringUtils.trim (splitFirst ':' ((splitFirst '|' resultLine).2.getD "")).1
  reason := StringUtils.trim ((splitFirst ':' ((splitFirst '|' resultLine).2.getD "")).2.getD "")

namespace RecordsAux

variable {resultMap : UpdateResults} {line text path rest : String} {c : Char}

/-- The records are kept as a map keeps its entries. -/
theorem emplace_eq (path : String) (r : UpdateResult) (resultMap : UpdateResults) :
    emplace path r resultMap = SortedMap.emplace path r resultMap := by
  induction resultMap with
  | nil => rfl
  | cons e m ih =>
    unfold emplace SortedMap.emplace
    rw [ih]

/-- A line that is not empty is the record of the line. -/
theorem parse_eq (h : line ≠ "") (resultMap : UpdateResults) : parseUpdaterResultRecord line resultMap =
    SortedMap.emplace (UpdateResult.ofLine line).spath (UpdateResult.ofLine line) resultMap := by
  unfold parseUpdaterResultRecord
  rw [if_neg (by simpa [String.isEmpty_iff] using h), ← emplace_eq]
  rfl

/-- A record of a new path is added. -/
theorem adds_of_parse (h : line ≠ "") (hnew : resultMap.recordOf (UpdateResult.ofLine line).spath = none) :
    resultMap.Adds (parseUpdaterResultRecord line resultMap) (UpdateResult.ofLine line) := by
  unfold UpdateResults.recordOf at hnew
  rw [parse_eq h]
  refine ⟨?_, fun path hpath => ?_⟩
  · unfold UpdateResults.recordOf
    rw [SortedMap.find_emplace_of_none hnew, if_pos rfl]
  · unfold UpdateResults.recordOf
    rw [SortedMap.find_emplace_of_none hnew, if_neg hpath.symm]

/-! ## Cutting a line -/

theorem forall_ne_of_not_mem {l : List Char} (h : c ∉ l) : ∀ d ∈ l, decide (d ≠ c) = true := by
  intro d hd
  rw [decide_eq_true_eq]
  rintro rfl
  exact h hd

/-- A text without the character stays as it is. -/
theorem splitFirst_of_not_mem (h : c ∉ text.toList) : splitFirst c text = (text, none) := by
  have hdrop : text.toList.dropWhile (· ≠ c) = [] := by
    simpa using @List.dropWhile_append_of_pos _ (fun d => decide (d ≠ c)) text.toList [] (forall_ne_of_not_mem h)
  unfold splitFirst
  rw [hdrop]

/-- A text is cut at the first of the character. -/
theorem splitFirst_append (h : c ∉ path.toList) {sep : String} (hsep : sep.toList = [c]) (rest : String) :
    splitFirst c (path ++ sep ++ rest) = (path, some rest) := by
  have hlist : (path ++ sep ++ rest).toList = path.toList ++ c :: rest.toList := by
    simp [String.toList_append, hsep]
  have hall := forall_ne_of_not_mem h
  have hdrop : (c :: rest.toList).dropWhile (· ≠ c) = c :: rest.toList := by simp
  have htake : (c :: rest.toList).takeWhile (· ≠ c) = [] := by simp
  unfold splitFirst
  rw [hlist, List.dropWhile_append_of_pos hall, List.takeWhile_append_of_pos hall, hdrop, htake, List.append_nil]
  simp

/-- What has no blanks around it is left as it is. -/
theorem trim_of_unblanked (h : Unblanked text) : StringUtils.trim text = text := by
  have hkeep {l : List Char} (hl : ∀ c, l.head? = some c → StringUtils.trim.isSpace c = false) :
      l.dropWhile StringUtils.trim.isSpace = l := by
    cases l with
    | nil => rfl
    | cons c l => rw [List.dropWhile_cons_of_neg (by simp [hl c rfl])]
  unfold StringUtils.trim
  rw [hkeep h.first, hkeep (by simpa [List.head?_reverse] using h.last), List.reverse_reverse, String.ofList_toList]

/-- A line without a bar is a path. -/
theorem ofLine_path (h : '|' ∉ line.toList) : UpdateResult.ofLine line = { spath := StringUtils.trim line } := by
  unfold UpdateResult.ofLine
  rw [splitFirst_of_not_mem h]
  rfl

/-- A line with a bar and no colon after it has no reason. -/
theorem ofLine_result (h : '|' ∉ path.toList) (hrest : ':' ∉ rest.toList) : UpdateResult.ofLine (path ++ "|" ++ rest) =
    { spath := StringUtils.trim path, result := StringUtils.trim rest } := by
  unfold UpdateResult.ofLine
  rw [splitFirst_append h rfl, Option.getD_some, splitFirst_of_not_mem hrest]
  rfl

/-- A line with all three. -/
theorem ofLine_reason {result reason : String} (h : '|' ∉ path.toList) (hresult : ':' ∉ result.toList) :
    UpdateResult.ofLine (path ++ "|" ++ result ++ ":" ++ reason) =
      { spath := StringUtils.trim path, result := StringUtils.trim result, reason := StringUtils.trim reason } := by
  have hline : path ++ "|" ++ result ++ ":" ++ reason = path ++ "|" ++ (result ++ ":" ++ reason) := by
    simp only [String.append_assoc]
  unfold UpdateResult.ofLine
  rw [hline, splitFirst_append h rfl, Option.getD_some, splitFirst_append hresult rfl]
  rfl

end RecordsAux

open RecordsAux in
/-- What is written as a path, a result and a reason is read as they are, whatever the reason holds; a line without a bar is a path, one
without a colon after the bar has no reason, and the empty line is no record. -/
theorem records_parsed :
    (∀ (path result reason : String) (resultMap : UpdateResults), '|' ∉ path.toList → ':' ∉ result.toList → Unblanked path →
      Unblanked result → Unblanked reason → resultMap.recordOf path = none →
      resultMap.Adds (parseUpdaterResultRecord (path ++ "|" ++ result ++ ":" ++ reason) resultMap) ⟨path, result, reason⟩) ∧
    (∀ (line : String) (resultMap : UpdateResults), line ≠ "" → '|' ∉ line.toList →
      resultMap.recordOf (StringUtils.trim line) = none →
      resultMap.Adds (parseUpdaterResultRecord line resultMap) ⟨StringUtils.trim line, "", ""⟩) ∧
    (∀ (path rest : String) (resultMap : UpdateResults), '|' ∉ path.toList → ':' ∉ rest.toList →
      resultMap.recordOf (StringUtils.trim path) = none →
      resultMap.Adds (parseUpdaterResultRecord (path ++ "|" ++ rest) resultMap) ⟨StringUtils.trim path, StringUtils.trim rest, ""⟩) ∧
    ∀ resultMap : UpdateResults, parseUpdaterResultRecord "" resultMap = resultMap := by
  refine ⟨?_, ?_, ?_, fun resultMap => rfl⟩
  · intro path result reason resultMap hpath hresult hup hur hureason hnew
    have hline : UpdateResult.ofLine (path ++ "|" ++ result ++ ":" ++ reason) = _ := ofLine_reason hpath hresult
    rw [trim_of_unblanked hup, trim_of_unblanked hur, trim_of_unblanked hureason] at hline
    rw [← hline]
    refine adds_of_parse ?_ (by rw [hline]; exact hnew)
    simp
  · intro line resultMap hne hline hnew
    have hrecord := ofLine_path hline
    rw [← hrecord]
    exact adds_of_parse hne (by rw [hrecord]; exact hnew)
  · intro path rest resultMap hpath hrest hnew
    have hrecord := ofLine_result hpath hrest
    rw [← hrecord]
    exact adds_of_parse (by simp) (by rw [hrecord]; exact hnew)

/-- A package that failed for a reason with both separators in it. -/
theorem records_parsed_fail : UpdateResults.Adds [] (parseUpdaterResultRecord "a|fail:;02|145:-1" []) ⟨"a", "fail", ";02|145:-1"⟩ := by
  have hunblanked (text : String) (h : text.toList.all (fun c => !StringUtils.trim.isSpace c) = true) : Unblanked text := by
    have hall (c : Char) (hc : c ∈ text.toList) : StringUtils.trim.isSpace c = false := by
      simpa using List.all_eq_true.mp h c hc
    exact ⟨fun c hc => hall c (List.mem_of_head? hc), fun c hc => hall c (List.mem_of_getLast? hc)⟩
  exact records_parsed.1 "a" "fail" ";02|145:-1" [] (by decide) (by decide) (hunblanked _ rfl) (hunblanked _ rfl) (hunblanked _ rfl)
    rfl

/-- The path of a line that starts with a blank is not the line. -/
theorem blank_not_kept : ¬ UpdateResults.Adds [] (parseUpdaterResultRecord " a" []) ⟨" a", "", ""⟩ := by
  intro h
  exact absurd h.added (by decide)

end UpdateEngine
