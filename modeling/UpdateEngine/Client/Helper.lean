import UpdateEngine.Client.Values
import UpdateEngine.Engine.JsonBuilder
import UpdateEngine.Ipc.Script

/-!
# ClientHelper

The objects a script is handed, and what is read of the objects it hands over. A reader is given what the variable holds that it reads
into, and gives what it holds afterwards, next to its status: a reader that fails may have changed a part of it.
-/

namespace UpdateEngine.Ipc.Client

/-- The codes that `update_helper.h` names besides those of the service. -/
def INT_UN_SUPPORT : CallResult := 801
def INT_FORBIDDEN : CallResult := 103
def INT_DEV_UPG_INFO_ERR : CallResult := 102
def INT_TIME_OUT : CallResult := 402
def INT_DB_ERROR : CallResult := 501
def INT_IO_ERROR : CallResult := 502
def INT_NET_ERROR : CallResult := 503

def COMPONENT_ERR : Int32 := 11500000

/-- `UpgradeFile`, its type `INVALID` at first. -/
structure UpgradeFile where
  fileType : Int32 := 0
  filePath : String := ""
  deriving DecidableEq, Repr

/-- `EventClassifyInfo`. -/
structure EventClassifyInfo where
  eventClassify : Int32 := 0x01000000
  extraInfo : String := ""
  deriving DecidableEq, Repr

/-- `EventClassify::TASK`. -/
def EventClassify.TASK : Int32 := 0x01000000

namespace ClientHelper

open Client.NapiUtil
open Ipc.ClientHelper (isValidData)

/-! ## Objects for a script -/

/-- `BuildDescInfo`. -/
def buildDescInfo (obj : Properties) (descriptInfo : DescriptionInfo) : Properties :=
  let napiDescriptInfo := NapiUtil.setInt32 [] "descriptionType" descriptInfo.descriptionType
  let napiDescriptInfo := setString napiDescriptInfo "content" (cStr descriptInfo.content)
  setNamedProperty obj "descriptionInfo" (.object napiDescriptInfo)

/-- `IsValidData`, of an `ErrorMessage` and of a `ComponentDescription`. -/
def isValidErrorMessage (errorMessage : ErrorMessage) : Bool := errorMessage.errorCode ≠ 0

def isValidComponentDescription (componentDescription : ComponentDescription) : Bool := componentDescription.componentId ≠ ""

/-- The object of a description. -/
def componentDescription (c : ComponentDescription) : Value :=
  .object (buildDescInfo (setString [] "componentId" (cStr c.componentId)) c.descriptionInfo)

/-- `BuildComponentDescriptions`: the array of the valid descriptions; without any, no value at all. -/
def buildComponentDescriptions (componentDescriptions : List ComponentDescription) : Option Value :=
  let valid := componentDescriptions.filter isValidComponentDescription
  if valid.isEmpty then none else some (.array (valid.map componentDescription))

/-- The object of a component; the two sizes are converted to the `int32_t` that `SetInt32` takes. -/
def versionComponent (c : VersionComponent) : Value :=
  let napiVersionComponent := setString [] "componentId" (cStr c.componentId)
  let napiVersionComponent := NapiUtil.setInt32 napiVersionComponent "componentType" c.componentType
  let napiVersionComponent := setString napiVersionComponent "upgradeAction" (cStr c.upgradeAction)
  let napiVersionComponent := setString napiVersionComponent "displayVersion" (cStr c.displayVersion)
  let napiVersionComponent := setString napiVersionComponent "innerVersion" (cStr c.innerVersion)
  let napiVersionComponent := NapiUtil.setInt32 napiVersionComponent "size" c.size.toUInt32.toInt32
  let napiVersionComponent := NapiUtil.setInt32 napiVersionComponent "effectiveMode" c.effectiveMode.toUInt32.toInt32
  let napiVersionComponent := buildDescInfo napiVersionComponent c.descriptionInfo
  .object (setString napiVersionComponent "componentExtra" (cStr c.componentExtra))

/-- `BuildVersionComponents`: the valid components; the property is not set when there are none. -/
def buildVersionComponents (obj : Properties) (versionComponents : List VersionComponent) : Properties :=
  let valid := versionComponents.filter isValidData
  if valid.isEmpty then obj else setNamedProperty obj "versionComponents" (.array (valid.map versionComponent))

/-- `BuildVersionDigestInfo`. -/
def buildVersionDigestInfo (obj : Properties) (versionDigestInfo : VersionDigestInfo) : Properties :=
  setNamedProperty obj "versionDigestInfo" (.object (setString [] "versionDigest" versionDigestInfo.versionDigest))

/-- The object of an error message. -/
def errorMessage (m : ErrorMessage) : Value :=
  .object (setString (NapiUtil.setInt32 [] "errorCode" m.errorCode) "errorMessage" m.errorMessage)

/-- `BuildErrorMessages`: the messages with a code. -/
def buildErrorMessages (obj : Properties) (name : String) (errorMessages : List ErrorMessage) : Properties :=
  let valid := errorMessages.filter isValidErrorMessage
  if valid.isEmpty then obj else setNamedProperty obj name (.array (valid.map errorMessage))

/-- `BuildTaskBody`, of a task. -/
def buildTaskBody (obj : Properties) (taskBody : TaskBody) : Properties :=
  let napiTaskBody := buildVersionDigestInfo [] taskBody.versionDigestInfo
  let napiTaskBody := NapiUtil.setInt32 napiTaskBody "status" taskBody.status
  let napiTaskBody := NapiUtil.setInt32 napiTaskBody "subStatus" taskBody.subStatus
  let napiTaskBody := NapiUtil.setInt32 napiTaskBody "progress" taskBody.progress
  let napiTaskBody := NapiUtil.setInt32 napiTaskBody "installMode" taskBody.installMode
  let napiTaskBody := buildErrorMessages napiTaskBody "errorMessages" taskBody.errorMessages
  let napiTaskBody := buildVersionComponents napiTaskBody taskBody.versionComponents
  setNamedProperty obj "taskBody" (.object napiTaskBody)

/-- `BuildTaskBody`, of an event: what the template of the event lists; none for an event without a template. -/
def buildEventTaskBody (obj : Properties) (eventId : EventId) (taskBody : TaskBody) : Option Properties :=
  (taskBodyTemplateMap.lookup eventId).map fun taskBodyTemplate =>
    let napiTaskBody : Properties := []
    let napiTaskBody := if taskBodyTemplate &&& VERSION_DIGEST_INFO ≠ 0 then
      buildVersionDigestInfo napiTaskBody taskBody.versionDigestInfo else napiTaskBody
    let napiTaskBody := if taskBodyTemplate &&& UPGRADE_STATUS ≠ 0 then
      NapiUtil.setInt32 napiTaskBody "status" taskBody.status else napiTaskBody
    let napiTaskBody := if taskBodyTemplate &&& SUB_STATUS ≠ 0 then
      NapiUtil.setInt32 napiTaskBody "subStatus" taskBody.subStatus else napiTaskBody
    let napiTaskBody := if taskBodyTemplate &&& PROGRESS ≠ 0 then
      NapiUtil.setInt32 napiTaskBody "progress" taskBody.progress else napiTaskBody
    let napiTaskBody := if taskBodyTemplate &&& INSTALL_MODE ≠ 0 then
      NapiUtil.setInt32 napiTaskBody "installMode" taskBody.installMode else napiTaskBody
    let napiTaskBody := if taskBodyTemplate &&& ERROR_MESSAGE ≠ 0 then
      buildErrorMessages napiTaskBody "errorMessages" taskBody.errorMessages else napiTaskBody
    let napiTaskBody := if taskBodyTemplate &&& VERSION_COMPONENT ≠ 0 then
      buildVersionComponents napiTaskBody taskBody.versionComponents else napiTaskBody
    setNamedProperty obj "taskBody" (.object napiTaskBody)

/-- `BuildEventInfo`: none when it fails. -/
def buildEventInfo (eventInfo : EventInfo) : Option Value :=
  (buildEventTaskBody (NapiUtil.setInt32 [] "eventId" eventInfo.eventId) eventInfo.eventId eventInfo.taskBody).map .object

/-- `BuildCurrentVersionInfo`. -/
def buildCurrentVersionInfo (info : CurrentVersionInfo) : Value :=
  .object (buildVersionComponents (setString (setString [] "osVersion" info.osVersion) "deviceName" info.deviceName)
    info.versionComponents)

/-- `BuildTaskInfo`. -/
def buildTaskInfo (taskInfo : TaskInfo) : Value :=
  let obj := setBool [] "existTask" taskInfo.existTask
  .object (if taskInfo.existTask then buildTaskBody obj taskInfo.taskBody else obj)

/-- `BuildNewVersionInfo`. -/
def buildNewVersionInfo (newVersionInfo : NewVersionInfo) : Value :=
  .object (buildVersionComponents (buildVersionDigestInfo [] newVersionInfo.versionDigestInfo) newVersionInfo.versionComponents)

/-- `BuildVersionDescriptionInfo`. -/
def buildVersionDescriptionInfo (info : VersionDescriptionInfo) : Option Value := buildComponentDescriptions info.componentDescriptions

/-- `BuildCheckResult`. -/
def buildCheckResult (checkResult : CheckResult) : Value :=
  let obj := setBool [] "isExistNewVersion" checkResult.isExistNewVersion
  .object (if checkResult.isExistNewVersion then
    setNamedProperty obj "newVersionInfo" (buildNewVersionInfo checkResult.newVersionInfo) else obj)

/-- The object of a period. -/
def upgradePeriod (p : UpgradePeriod) : Value :=
  .object (NapiUtil.setInt32 (NapiUtil.setInt32 [] "start" p.start.toInt32) "end" p.end.toInt32)

/-- `BuildUpgradePolicy`. -/
def buildUpgradePolicy (upgradePolicy : UpgradePolicy) : Value :=
  let obj := setBool [] "downloadStrategy" upgradePolicy.downloadStrategy
  let obj := setBool obj "autoUpgradeStrategy" upgradePolicy.autoUpgradeStrategy
  .object (setNamedProperty obj "autoUpgradePeriods"
    (.array [upgradePeriod upgradePolicy.autoUpgradePeriods.1, upgradePeriod upgradePolicy.autoUpgradePeriods.2]))

/-- `IsErrorExist`. -/
def isErrorExist (businessError : BusinessError) : Bool := businessError.errorNum ≠ INT_CALL_SUCCESS

/-- `IsCommonError`. -/
def isCommonError (callResult : CallResult) : Bool :=
  callResult = INT_UN_SUPPORT || callResult = INT_NOT_SYSTEM_APP || callResult = INT_APP_NOT_GRANTED || callResult = INT_PARAM_ERR

/-- `ConvertToErrorCode`. -/
def convertToErrorCode (callResult : CallResult) : Int32 :=
  if isCommonError callResult || callResult = INT_CALL_SUCCESS then callResult else COMPONENT_ERR + callResult

/-- `BuildBusinessError`: no value without an error. -/
def buildBusinessError (businessError : BusinessError) : Option Value :=
  if !isErrorExist businessError then none
  else
    let obj := setString [] "message" businessError.message
    let obj := NapiUtil.setInt32 obj "code" (convertToErrorCode businessError.errorNum)
    some (.object (buildErrorMessages obj "data" businessError.data))

/-- `BuildThrowError`: the message, which is set twice, is there once. -/
def buildThrowError (businessError : BusinessError) : Value :=
  let error := setString [] "message" businessError.message
  let error := NapiUtil.setInt32 error "code" (convertToErrorCode businessError.errorNum)
  .object (buildErrorMessages error "data" businessError.data)

/-- `NapiThrowParamError`: what is thrown. -/
def paramError (paramInfos : List (String × String)) : Value :=
  buildThrowError {
    errorNum := INT_PARAM_ERR
    message := "BusinessError 401: Parameter error. The type of \x7b " ++ ", ".intercalate (paramInfos.map Prod.fst) ++
      " \x7dmust be \x7b " ++ ", ".intercalate (paramInfos.map Prod.snd) ++ " \x7d." }

/-! ## Objects of a script -/

/-- `IsValidEnum`. -/
def isValidEnum (enumList : List Int32) (number : Int32) : Bool := enumList.any fun i => number = i

/-- The members of each enumeration that a script may name: `DescriptionFormat`, `NetType` but for no network and two of its masks,
`Order`, `UpgradeStatus`, `ComponentType` and `EventClassify`. -/
def formatList : List Int32 := [0, 1]
def netTypeList : List Int32 := [1, 2, 4, 6, 7]
def orderList : List Int32 := [1, 2, 4, 3, 6]
def statusList : List Int32 := [0, 10, 11, 12, 20, 21, 22, 23, 24, 30, 31, 32, 70, 71, 72, 80, 81, 82, 90, 91, 92]
def fileTypeList : List Int32 := [1]
def eventClassifyList : List Int32 := [EventClassify.TASK]

/-- `GetDescriptionFormat`, `GetNetType`, `GetOrder` and the like: a property that has to be a member of an enumeration. -/
def getEnum (attrName : String) (enumList : List Int32) (arg : Value) (old : Int32) : ClientStatus × Int32 :=
  let tmp := getInt32 arg attrName 0
  if isValidEnum enumList tmp then (.CLIENT_SUCCESS, tmp) else (.CLIENT_INVALID_TYPE, old)

/-- `GetDescriptionFormat`. -/
def getDescriptionFormat : Value → Int32 → ClientStatus × Int32 := getEnum "format" formatList

/-- `GetNetType`. -/
def getNetType : Value → Int32 → ClientStatus × Int32 := getEnum "allowNetwork" netTypeList

/-- `GetOrder`. -/
def getOrder : Value → Int32 → ClientStatus × Int32 := getEnum "order" orderList

/-- `GetOptionsFromArg`, of `DescriptionOptions`. -/
def getDescriptionOptions (arg : Value) (o : DescriptionOptions) : ClientStatus × DescriptionOptions :=
  let (ret, format) := getDescriptionFormat arg o.format
  if ret = .CLIENT_SUCCESS then (.CLIENT_SUCCESS, { format, language := (getString arg "language" o.language).2 })
  else (.CLIENT_INVALID_TYPE, { o with format })

/-- `GetOptionsFromArg`, of `DownloadOptions`. -/
def getDownloadOptions (arg : Value) (o : DownloadOptions) : ClientStatus × DownloadOptions :=
  let (ret, allowNetwork) := getNetType arg o.allowNetwork
  if ret = .CLIENT_SUCCESS then
    let (ret, order) := getOrder arg o.order
    (if ret = .CLIENT_SUCCESS then .CLIENT_SUCCESS else .CLIENT_INVALID_TYPE, { allowNetwork, order })
  else (.CLIENT_INVALID_TYPE, { o with allowNetwork })

/-- `GetOptionsFromArg`, of `PauseDownloadOptions`. -/
def getPauseDownloadOptions (arg : Value) (o : PauseDownloadOptions) : ClientStatus × PauseDownloadOptions :=
  (.CLIENT_SUCCESS, { isAllowAutoResume := getBool arg "isAllowAutoResume" o.isAllowAutoResume })

/-- `GetOptionsFromArg`, of `ResumeDownloadOptions`. -/
def getResumeDownloadOptions (arg : Value) (o : ResumeDownloadOptions) : ClientStatus × ResumeDownloadOptions :=
  (getNetType arg o.allowNetwork).map id fun allowNetwork => { allowNetwork }

/-- `GetOptionsFromArg`, of `UpgradeOptions`. -/
def getUpgradeOptions (arg : Value) (o : UpgradeOptions) : ClientStatus × UpgradeOptions :=
  (getOrder arg o.order).map id fun order => { order }

/-- `GetOptionsFromArg`, of `ClearOptions`. -/
def getClearOptions (arg : Value) (o : ClearOptions) : ClientStatus × ClearOptions :=
  (getEnum "status" statusList arg o.status).map id fun status => { status }

/-- `GetVersionDigestInfoFromArg`: it never fails. -/
def getVersionDigestInfo (arg : Value) (i : VersionDigestInfo) : ClientStatus × VersionDigestInfo :=
  (.CLIENT_SUCCESS, { versionDigest := (getString arg "versionDigest" i.versionDigest).2 })

/-- `ParseBusinessType`, with what the variable without initial value holds. -/
def parseBusinessType (indeterminate : Int32) (arg : Value) (t : BusinessType) : BusinessType :=
  let t := match arg.property "businessType" with
    | some businessTypeValue => {
        vendor := (getString businessTypeValue "vendor" t.vendor).2
        subType := getInt32 businessTypeValue "subType" indeterminate }
    | none => t
  if t.subType ≠ BusinessSubType.PARAM then { t with subType := BusinessSubType.FIRMWARE } else t

/-- `GetUpgradeInfoFromArg`. -/
def getUpgradeInfo (indeterminate : Int32) (arg : Value) (info : UpgradeInfo) : ClientStatus × UpgradeInfo :=
  if !arg.isObject then (.CLIENT_INVALID_TYPE, info)
  else (.CLIENT_SUCCESS, {
    upgradeApp := (getString arg "upgradeApp" info.upgradeApp).2
    businessType := parseBusinessType indeterminate arg info.businessType
    upgradeDevId := (getString arg "upgradeDevId" info.upgradeDevId).2
    controlDevId := (getString arg "controlDevId" info.controlDevId).2 })

/-- One element of `autoUpgradePeriods`: it is read as a number, for the start and for the end. -/
def readPeriod (element : Value) (p : UpgradePeriod) : UpgradePeriod where
  start := element.uint32 p.start
  «end» := element.uint32 p.end

/-- `GetUpgradePolicyFromArg`: the first period is read even of an array without elements. -/
def getUpgradePolicy (arg : Value) (p : UpgradePolicy) : ClientStatus × UpgradePolicy :=
  if !arg.isObject then (.CLIENT_INVALID_TYPE, p)
  else
    let p := { p with
      downloadStrategy := getBool arg "downloadStrategy" p.downloadStrategy
      autoUpgradeStrategy := getBool arg "autoUpgradeStrategy" p.autoUpgradeStrategy }
    match arg.property "autoUpgradePeriods" with
    | none => (.CLIENT_SUCCESS, p)
    | some value => match value.elements with
      | none => (.CLIENT_FAIL, p)
      | some l => (.CLIENT_SUCCESS, { p with
          autoUpgradePeriods := (readPeriod ((l[0]?).getD .undefined) p.autoUpgradePeriods.1,
            match l[1]? with
            | some element => readPeriod element p.autoUpgradePeriods.2
            | none => p.autoUpgradePeriods.2) })

/-- `TrimString`: blanks at both ends go. -/
def trimString (str : String) : String :=
  String.ofList ((((str.toList.dropWhile fun c => c = ' ').reverse).dropWhile fun c => c = ' ').reverse)

/-- `IsValidUpgradeFile`: an absolute path with one of four endings, in small or capital letters. -/
def isValidUpgradeFile (upgradeFile : String) : Bool :=
  upgradeFile.toList.head? = some '/' && upgradeFile.toList.contains '.' &&
    ["bin", "zip", "lz4", "gz"].any fun ending =>
      String.ofList ((upgradeFile.toList.reverse.takeWhile fun c => c ≠ '.').reverse.map Char.toLower) = ending

/-- `ParseUpgradeFile`, into a new `UpgradeFile`. -/
def parseUpgradeFile (arg : Value) : ClientStatus × UpgradeFile :=
  if !arg.isObject then (.CLIENT_INVALID_TYPE, {})
  else
    let fileType := getInt32 arg "fileType" 0
    if !isValidEnum fileTypeList fileType then (.CLIENT_INVALID_PARAM, {})
    else
      let filePath := trimString (getString arg "filePath" "").2
      (if isValidUpgradeFile filePath then .CLIENT_SUCCESS else .CLIENT_INVALID_PARAM, { fileType, filePath })

/-- The loop of `GetUpgradeFilesFromArg`. -/
def parseUpgradeFiles : List Value → List UpgradeFile → ClientStatus × List UpgradeFile
  | [], upgradeFiles => (.CLIENT_SUCCESS, upgradeFiles)
  | element :: l, upgradeFiles =>
    match parseUpgradeFile element with
    | (.CLIENT_SUCCESS, upgradeFile) => parseUpgradeFiles l (upgradeFiles ++ [upgradeFile])
    | (ret, _) => (ret, upgradeFiles)

/-- `GetUpgradeFilesFromArg`, into a new vector. -/
def getUpgradeFiles (arg : Value) : ClientStatus × List UpgradeFile :=
  match arg.elements with
  | none | some [] => (.CLIENT_FAIL, [])
  | some l => parseUpgradeFiles l []

/-- `GetEventClassifyInfoFromArg`. -/
def getEventClassifyInfo (arg : Value) (i : EventClassifyInfo) : ClientStatus × EventClassifyInfo :=
  if !arg.isObject then (.CLIENT_INVALID_TYPE, i)
  else
    let eventClassify := getInt32 arg "eventClassify" 0
    if !isValidEnum eventClassifyList eventClassify then (.CLIENT_INVALID_TYPE, i)
    else (.CLIENT_SUCCESS, { eventClassify, extraInfo := (getString arg "extraInfo" i.extraInfo).2 })

end ClientHelper

end UpdateEngine.Ipc.Client
