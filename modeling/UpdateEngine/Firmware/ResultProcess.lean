import UpdateEngine.Firmware.Helper

/-!
# FirmwareResultProcess

The verdict of the updater after a boot: the file `updater_result` is read line by line, and each component is looked up in it by its
path. A component the file says nothing about is judged by the version the device runs.
-/

namespace UpdateEngine

open Concurrent

/-- `StringUtils::Trim`: the blanks of `isspace` at both ends are left out. -/
def StringUtils.trim (text : String) : String :=
  String.ofList ((text.toList.dropWhile isSpace).reverse.dropWhile isSpace).reverse
where
  /-- `isspace`: a space, or one of the characters from the tab to the carriage return. -/
  isSpace (c : Char) : Bool := c = ' ' || (9 ≤ c.toNat && c.toNat ≤ 13)

/-- `UpdateResultCode`. -/
inductive UpdateResultCode where
  | success | failure | partSuccess
  deriving DecidableEq, Repr

/-- `UpdateResult`: a record of the updater. -/
structure UpdateResult where
  spath : String := ""
  result : String := ""
  reason : String := ""
  deriving DecidableEq, Repr

/-- The records by path, in the order of a `std::map`. -/
abbrev UpdateResults := List (String × UpdateResult)

namespace FirmwareResultProcess

def UPDATER_RESULT_SUCCESS : String := "pass"
def UPDATER_RESULT_FAILURE : String := "fail"
def UPDATER_RESULT_FAILURE_REASON : String := "compare version fail"
def UPDATER_RESULT_SUCCESS_REASON : String := "compare version success"
def UPDATE_SUCCESSED : UInt32 := 1
def UPDATE_FAILED : UInt32 := 2

/-- `UpdateResult::GetUpdateResultCode`, as the number of `UpdateComponentResultCode`. -/
def getUpdateResultCode (r : UpdateResult) : Int :=
  if r.result = UPDATER_RESULT_SUCCESS then 0 else if r.result = UPDATER_RESULT_FAILURE then 1 else 2

/-- `std::map::emplace`: a path that is there keeps its record. -/
def emplace (path : String) (r : UpdateResult) : UpdateResults → UpdateResults
  | [] => [(path, r)]
  | (p, q) :: l =>
    if path = p then (p, q) :: l else if path < p then (path, r) :: (p, q) :: l else (p, q) :: emplace path r l

/-- The text before the first of a character, and the text after it, when there is one. -/
def splitFirst (c : Char) (text : String) : String × Option String :=
  match text.toList.dropWhile (· ≠ c) with
  | [] => (text, none)
  | _ :: l => (String.ofList (text.toList.takeWhile (· ≠ c)), some (String.ofList l))

/-- `ParseUpdaterResultRecord`: path, result and reason are what stands before `|`, before `:` and after it. -/
def parseUpdaterResultRecord (resultLine : String) (resultMap : UpdateResults) : UpdateResults :=
  if resultLine.isEmpty then resultMap
  else
    let (spath, resultAndReason) := splitFirst '|' resultLine
    let (result, reason) := splitFirst ':' (resultAndReason.getD "")
    let updaterReason : UpdateResult :=
      { spath := StringUtils.trim spath, result := StringUtils.trim result, reason := StringUtils.trim (reason.getD "") }
    emplace updaterReason.spath updaterReason resultMap

/-- The lines `getline` reads. -/
def readLines (text : String) : List String := go text.toList []
where
  /-- The same for characters, with those of the line so far. -/
  go : List Char → List Char → List String
    | [], line => [String.ofList line.reverse]
    | c :: l, line => if c = '\n' then String.ofList line.reverse :: go l [] else go l (c :: line)

/-- `CompareVersion`: the device runs the version of the component, or it does not. -/
def compareVersion (P : Platform) (component : FirmwareComponent) : UpdateResult :=
  if component.versionNumber = P.displayVersion then
    { spath := component.spath, result := UPDATER_RESULT_SUCCESS, reason := UPDATER_RESULT_SUCCESS_REASON }
  else { spath := component.spath, result := UPDATER_RESULT_FAILURE, reason := UPDATER_RESULT_FAILURE_REASON }

/-- `HandleFileError`. -/
def handleFileError (P : Platform) (components : List FirmwareComponent) : UpdateResults :=
  components.foldl (fun resultMap c => emplace (compareVersion P c).spath (compareVersion P c) resultMap) []

/-- One round of the loop of `HandleFileResults`. -/
def handleFileResult (P : Platform) (acc : UInt32 × UpdateResults) (component : FirmwareComponent) : UInt32 × UpdateResults :=
  let (updateResultStatus, resultMap) := match acc.2.find? fun e => e.1 = component.spath with
    | none => ((compareVersion P component).result, emplace (compareVersion P component).spath (compareVersion P component) acc.2)
    | some e => (e.2.result, acc.2)
  (acc.1 ||| (if updateResultStatus = UPDATER_RESULT_SUCCESS then UPDATE_SUCCESSED else UPDATE_FAILED), resultMap)

/-- `HandleFileResults`: a success when every component succeeded. (Both kinds of version are judged alike.) -/
def handleFileResults (P : Platform) (resultMap : UpdateResults) (components : List FirmwareComponent) :
    Prog (UpdateResultCode × UpdateResults) := do
  let task ← FirmwareTaskOperator.queryTask .handleFileResults {}
  if !task.isExistTask then return (.failure, resultMap)
  let (hotaUpdateResult, resultMap) := components.foldl (handleFileResult P) (0, resultMap)
  if task.combinationType = .hota then
    return (if hotaUpdateResult = UPDATE_SUCCESSED then .success else .failure, resultMap)
  if hotaUpdateResult ≠ UPDATE_SUCCESSED then return (.failure, resultMap)
  return (.success, resultMap)

/-- `GetUpdaterResult`. -/
def getUpdaterResult (P : Platform) (components : List FirmwareComponent) : Prog (UpdateResultCode × UpdateResults) := do
  if components.isEmpty then return (.failure, [])
  let infile ← call .readUpdaterResult
  let resultMap := match infile with
    | none => handleFileError P components
    | some text => (readLines text).foldl (fun resultMap line => parseUpdaterResultRecord line resultMap) []
  handleFileResults P resultMap components

end FirmwareResultProcess

end UpdateEngine
