import UpdateEngine.Firmware.Helper

/-!
# Reading the server's answer

`JsonUtils`, `FirmwareCheckAnalyzeUtils` and `FirmwareICheck`. A response is judged twice: the transport asks cJSON for
`searchStatus`, the analyser walks the document nlohmann parsed. The analyser writes changelog files on its way; a library
exception it does not catch ends the process.
-/

namespace UpdateEngine

open Concurrent

/-! ## JsonUtils -/

namespace Json

/-- `json::find`: the value of a key; nothing for a value that is no object. -/
def find (key : String) : Json → Option Json
  | .obj l => (l.find? fun e => e.1 = key).map Prod.snd
  | _ => none

/-- What a range-based loop over a value visits: elements, values, nothing for null, the value itself for a primitive one. -/
def items : Json → List Json
  | .null => []
  | .arr l => l
  | .obj l => l.map Prod.snd
  | j => [j]

/-- `json::is_object`. -/
def isObject : Json → Bool
  | .obj _ => true
  | _ => false

/-- Whether `result["key"]` is possible on a value that may be changed: on an object and on null. -/
def indexable : Json → Bool
  | .obj _ | .null => true
  | _ => false

end Json

namespace JsonUtils

def ERR_OK : Nat := 0
def MISSING_PROP : Nat := 2
def TYPE_ERROR : Nat := 3

/-- `GetValueAndSetTo` for a string: the error, and the value, which keeps what it was when there is an error. -/
def getString (j : Json) (key : String) (value : String) : Nat × String :=
  match j.find key with
  | none => (MISSING_PROP, value)
  | some (.str s) => (ERR_OK, s)
  | some _ => (TYPE_ERROR, value)

/-- `GetValueAndSetTo` for an `int32_t`: any number is accepted and cast. -/
def getInt (j : Json) (key : String) (value : Int32) : Nat × Int32 :=
  match j.find key with
  | none => (MISSING_PROP, value)
  | some (.num n) => (ERR_OK, Int32.ofInt n)
  | some (.float n) => (ERR_OK, Int32.ofInt n)
  | some _ => (TYPE_ERROR, value)

/-- `ParseAndGetJsonObject`. -/
def parseAndGetJsonObject (P : Platform) (text : String) : Option Json :=
  (P.jsonParse text).filter Json.isObject

end JsonUtils

/-! ## StringUtils -/

namespace StringUtils

/-- `GetLastSplitString` for one separator: what follows the last one, nothing when there is none. -/
def getLastSplitString (text : String) (sep : Char) : String :=
  if text.toList.contains sep then String.ofList (text.toList.reverse.takeWhile (· ≠ sep)).reverse else ""

/-- `ReplaceStringAll` on characters, for a pattern that is not empty: occurrences are replaced from the left, and what was put in
is not searched again. -/
def replaceAll (sub new : List Char) : Nat → List Char → List Char
  | fuel + 1, c :: l =>
    if sub.isPrefixOf (c :: l) then new ++ replaceAll sub new fuel ((c :: l).drop sub.length)
    else c :: replaceAll sub new fuel l
  | _, l => l

/-- `ReplaceStringAll`: each round leaves at least one character behind, so the length of the text is enough rounds. -/
def replaceStringAll (text sub new : String) : String :=
  String.ofList (replaceAll sub.toList new.toList text.toList.length text.toList)

end StringUtils

/-! ## FirmwareCheckAnalyzeUtils -/

namespace FirmwareCheckAnalyzeUtils

def STATUS_SYSTEM_ERROR : Int32 := -1
def STATUS_NEW_VERSION_AVAILABLE : Int32 := 0
def STATUS_NEW_VERSION_NOT_AVAILABLE : Int32 := 1

/-- `IsLegalStatus`. -/
def isLegalStatus (status : Int32) : Bool := status = STATUS_NEW_VERSION_AVAILABLE || status = STATUS_NEW_VERSION_NOT_AVAILABLE

/-- The errors `AnalyzeBlVersionCheckResults` counts for one entry; none when `result["blVersionInfo"]` throws. -/
def analyzeBlVersionCheckResult (result : Json) : Option Nat :=
  let ret := (JsonUtils.getString result "descriptPackageId" "").1 + (JsonUtils.getInt result "packageType" 0).1 +
    (JsonUtils.getString result "versionName" "").1 + (JsonUtils.getString result "versionName" "").1
  if result.indexable then
    some (ret + (JsonUtils.getString result "versionCode" "").1 + (JsonUtils.getString result "url" "").1)
  else none

/-- `AnalyzeBlVersionCheckResults`: the errors it counts (what it fills in is not used by anybody); none when it throws. -/
def analyzeBlVersionCheckResults (root : Json) : Option Nat :=
  match root.find "checkResults" with
  | none => some JsonUtils.MISSING_PROP
  | some checkResults => checkResults.items.foldlM (fun ret result =>
      if (JsonUtils.getInt root "searchStatus" STATUS_SYSTEM_ERROR).2 = STATUS_NEW_VERSION_AVAILABLE then
        (analyzeBlVersionCheckResult result).map (ret + ·)
      else some ret) 0

/-- One entry of `checkResults` as `AnalyzeComponents` reads it: the errors and the component. -/
def analyzeComponent (P : Platform) (result : Json) : Nat × FirmwareComponent :=
  let descriptPackageId := JsonUtils.getString result "descriptPackageId" ""
  let url := JsonUtils.getString result "url" ""
  let componetSize := JsonUtils.getInt result "size" P.indeterminate
  let verifyInfo := JsonUtils.getString result "verifyInfo" ""
  let versionNumber := JsonUtils.getString result "versionCode" ""
  let targetBlVersionNumber := JsonUtils.getString result "versionName" ""
  (descriptPackageId.1 + url.1 + componetSize.1 + verifyInfo.1 + versionNumber.1 + targetBlVersionNumber.1,
    { descriptPackageId := descriptPackageId.2
      url := url.2
      size := componetSize.2.toInt64
      fileName := StringUtils.getLastSplitString url.2 '/'
      verifyInfo := verifyInfo.2
      versionNumber := versionNumber.2
      targetBlVersionNumber := targetBlVersionNumber.2
      targetBlDisplayVersionNumber := targetBlVersionNumber.2
      blVersionType := 1
      componentId := descriptPackageId.2
      versionPackageType := .normal })

/-- The changelog file of a component. -/
def changelogFilePath (componentId : String) : String := Firmware.CHANGELOG_PATH ++ "/" ++ componentId ++ ".xml"

/-- One entry of `descriptInfo`: the errors and what is saved for it. -/
def analyzeDescriptInfo (P : Platform) (descriptInfo : Json) : Nat × String :=
  let descriptInfoType := JsonUtils.getInt descriptInfo "descriptionType" P.indeterminate
  let descContent := JsonUtils.getString descriptInfo "content" ""
  (descriptInfoType.1 + descContent.1,
    toString descriptInfoType.2.toInt ++ "|" ++ StringUtils.replaceStringAll descContent.2 "quota" "\"")

/-- `AnalyzeComponents`: the errors it counts and the components it has read. Every entry of `descriptInfo` is saved as the
changelog of the last component, whether or not there was an error before. -/
def analyzeComponents (P : Platform) (root : Json) : Prog (Nat × List FirmwareComponent) := do
  match root.find "checkResults" with
  | none => return (JsonUtils.MISSING_PROP, [])
  | some checkResults =>
    let results := checkResults.items.map (analyzeComponent P)
    let ret := results.foldl (fun ret r => ret + r.1) 0
    let components := results.map Prod.snd
    let componentId := (components.getLast?.map (·.descriptPackageId)).getD ""
    match root.find "descriptInfo" with
    | none => return (JsonUtils.MISSING_PROP, components)
    | some descriptInfos =>
      let infos := descriptInfos.items.map (analyzeDescriptInfo P)
      infos.forM fun info => do
        let _ ← call (.saveDataToFile (changelogFilePath componentId) info.2)
      return (infos.foldl (fun ret i => ret + i.1) ret, components)

/-- `DoAnalyze`: the components the response gives, none unless every required field was read. -/
def doAnalyze (P : Platform) (rawJson : String) : Prog (List FirmwareComponent) := do
  match JsonUtils.parseAndGetJsonObject P rawJson with
  | none => return []
  | some root =>
    let status := (JsonUtils.getInt root "searchStatus" STATUS_SYSTEM_ERROR).2
    if !isLegalStatus status then return []
    if status = STATUS_NEW_VERSION_AVAILABLE then
      match analyzeBlVersionCheckResults root with
      | none =>
        -- the exception of `result["blVersionInfo"]` is caught by nobody
        call .terminate
        return []
      | some ret =>
        let (ret', components) ← analyzeComponents P root
        return if ret + ret' = JsonUtils.ERR_OK then components else []
    return []

end FirmwareCheckAnalyzeUtils

/-! ## FirmwareICheck -/

namespace FirmwareICheck

/-- `ReadDataFromSSL` with `ParseJsonFile`: the content, when something was read and cJSON finds a `searchStatus` of zero. (The
buffer is filled up with zero characters, at which both parsers stop.) -/
def readDataFromSSL (P : Platform) : Prog (Option String) := do
  let text ← call (.ask .sslRead)
  return text.filter fun t => P.cJsonSearchStatus t = some 0

/-- `DoAction`: how the check ended and the components found. Whatever the analyser makes of a response that was read, the check
is a success. -/
def doAction (P : Platform) : Prog (CheckStatus × List FirmwareComponent) := do
  if !(← call (.ask .connect)) then return (.checkFail, [])
  match ← readDataFromSSL P with
  | none => return (.checkFail, [])
  | some content =>
    let checkResultList ← FirmwareCheckAnalyzeUtils.doAnalyze P content
    return (.checkSuccess, checkResultList)

end FirmwareICheck

end UpdateEngine
