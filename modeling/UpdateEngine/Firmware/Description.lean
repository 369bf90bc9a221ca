import UpdateEngine.Firmware.Analyze
import UpdateEngine.Ipc.Types

/-!
# The descriptions of a version

`UpdateServiceImplFirmware::GetNewVersionDescription`: it reads back the changelog files that the analyser has written, one for each
component row, and leaves out the block of the other language.
-/

namespace UpdateEngine

open Concurrent

/-! ## Texts and files -/

namespace StringUtils

/-- `std::string::find`: where the first occurrence starts. -/
def find (sub : List Char) : List Char → Option Nat
  | [] => if sub.isEmpty then some 0 else none
  | c :: l => if sub.isPrefixOf (c :: l) then some 0 else (find sub l).map (· + 1)

/-- `StringRemove`: the first block from the one text to the other, both included, is left out. -/
def stringRemove (sourceString startString endString : String) : String :=
  let source := sourceString.toList
  if source.isEmpty then sourceString
  else match find startString.toList source with
    | none => sourceString
    | some indexStart => match find endString.toList (source.drop indexStart) with
      | none => sourceString
      | some indexEnd =>
        String.ofList (source.take indexStart ++ source.drop (indexStart + indexEnd + endString.toList.length))

end StringUtils

/-- The text of a file. (A file that holds no text is none of the service's own.) -/
def textOf (content : Bytes) : String := (String.fromUTF8? ⟨content.toArray⟩).getD ""

/-- `FileUtils::ReadDataFromFile`: nothing when the file cannot be opened. -/
def FileUtils.readDataFromFile (filePath : String) : Prog String := do
  let content ← call (.readFile filePath)
  return (content.map textOf).getD ""

/-! ## UpdateServiceImplFirmware -/

namespace UpdateServiceImplFirmware

open Ipc (ComponentDescription)

def LANGUAGE_CHINESE : String := "<language name=\"zh-cn\" code=\"2052\">"
def LANGUAGE_ENGLISH : String := "<language name=\"en-us\" code=\"1033\">"
def LANGUAGE_END : String := "</language>"

/-- `GetChangelogContent`: without the English block for Chinese, without the Chinese one for any other language. -/
def getChangelogContent (dataXml language : String) : String :=
  StringUtils.stringRemove dataXml (if language = "zh-cn" then LANGUAGE_ENGLISH else LANGUAGE_CHINESE) LANGUAGE_END

/-- What comes before the first separator of a changelog, and what comes after it; all of it both, when there is none. -/
def splitChangelog (dataXml : String) : String × String :=
  let data := dataXml.toList
  if data.contains '|' then
    (String.ofList (data.takeWhile (· ≠ '|')), String.ofList ((data.dropWhile (· ≠ '|')).drop 1))
  else (dataXml, dataXml)

/-- The description a changelog is read as. -/
def describe (componentId dataXml language : String) : ComponentDescription where
  componentId := componentId
  descriptionInfo := {
    descriptionType := Int32.ofInt (atoi (splitChangelog dataXml).1)
    content := getChangelogContent (splitChangelog dataXml).2 language }

/-- The loop of `GetNewVersionDescription`: whether it came to its end, and the descriptions so far. -/
def describeComponents (language : String) : List FirmwareComponent → Prog (Bool × List ComponentDescription)
  | [] => return (true, [])
  | component :: components => do
    let changelogFilePath := FirmwareCheckAnalyzeUtils.changelogFilePath component.componentId
    if !(← FileUtils.isFileExist changelogFilePath) then return (false, [])
    let dataXml ← FileUtils.readDataFromFile changelogFilePath
    let (finished, componentDescriptions) ← describeComponents language components
    return (finished, describe component.componentId dataXml language :: componentDescriptions)

/-- `GetNewVersionDescription`: the answer to the caller and the descriptions (the version digest and the format of the request are
not looked at). -/
def getNewVersionDescription (language : String) : Prog (BusinessError × List ComponentDescription) := do
  let components ← call (.queryComponents .getNewVersionDescription)
  if components.isEmpty then
    return (({} : BusinessError).build .fail "GetNewVersionDescription failed", [])
  let (finished, componentDescriptions) ← describeComponents language components
  if finished then return (({} : BusinessError).build .success "start GetNewVersionDescription", componentDescriptions)
  else return (({} : BusinessError).build .fail "GetNewVersionDescription failed", componentDescriptions)

end UpdateServiceImplFirmware

end UpdateEngine
