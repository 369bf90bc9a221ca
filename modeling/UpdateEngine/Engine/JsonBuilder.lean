import UpdateEngine.Ipc.Types

/-!
# JsonBuilder: the text of an event

An event that no client takes is sent to the application that has subscribed to it as a text in JSON. The text is put together by
`JsonBuilder`, which writes every string as it is; the members of the task body are those the template lists for the event.
-/

namespace UpdateEngine

/-- `JsonBuilder`: the text so far, and whether no member was written yet. -/
structure JsonBuilder where
  builder : String := ""
  isFirstItem : Bool := true
  deriving DecidableEq, Repr

namespace JsonBuilder

variable (b : JsonBuilder)

/-- `Append`, of a text that is no member. -/
def append (qualifier : String) : JsonBuilder := { b with builder := b.builder ++ qualifier }

/-- `ToJson`. -/
def toJson : String := b.builder

/-- `AppendComma`. -/
def appendComma : JsonBuilder := if b.isFirstItem then { b with isFirstItem := false } else b.append ","

/-- `AppendNum`. -/
def appendNum (key value : String) : JsonBuilder :=
  ((((b.appendComma.append "\"").append key).append "\"").append ":").append value

/-- `Append`, of an `int32_t`. -/
def appendInt32 (key : String) (value : Int32) : JsonBuilder := b.appendNum key (toString value.toInt)

/-- `Append`, of an `int64_t`. -/
def appendInt64 (key : String) (value : Int64) : JsonBuilder := b.appendNum key (toString value.toInt)

/-- `Append`, of a string. -/
def appendString (key value : String) : JsonBuilder :=
  ((((((b.appendComma.append "\"").append key).append "\"").append ":").append "\"").append value).append "\""

/-- `Append`, of what another builder holds. -/
def appendBuilder (key : String) (jsonBuilder : JsonBuilder) : JsonBuilder :=
  ((((b.appendComma.append "\"").append key).append "\"").append ":").append jsonBuilder.toJson

/-- The loop over the elements of an array: no comma after the last one. -/
def appendElements : JsonBuilder → List JsonBuilder → JsonBuilder
  | b, [] => b
  | b, [v] => b.append v.toJson
  | b, v :: v' :: valueList => appendElements ((b.append v.toJson).append ",") (v' :: valueList)

/-- `Append`, of an array: one without elements is left out. -/
def appendArray (key : String) (valueList : List JsonBuilder) : JsonBuilder :=
  if valueList.isEmpty then b
  else b.appendBuilder key (((({} : JsonBuilder).append "[").appendElements valueList).append "]")

end JsonBuilder

namespace Ipc

/-! ## Events -/

/-- `EventId`. -/
def EventId.EVENT_TASK_BASE : EventId := 0x01000000
def EventId.EVENT_TASK_RECEIVE : EventId := 0x01000001
def EventId.EVENT_TASK_CANCEL : EventId := 0x01000002
def EventId.EVENT_DOWNLOAD_WAIT : EventId := 0x01000003
def EventId.EVENT_DOWNLOAD_START : EventId := 0x01000004
def EventId.EVENT_DOWNLOAD_UPDATE : EventId := 0x01000005
def EventId.EVENT_DOWNLOAD_PAUSE : EventId := 0x01000006
def EventId.EVENT_DOWNLOAD_RESUME : EventId := 0x01000007
def EventId.EVENT_DOWNLOAD_SUCCESS : EventId := 0x01000008
def EventId.EVENT_DOWNLOAD_FAIL : EventId := 0x01000009
def EventId.EVENT_UPGRADE_WAIT : EventId := 0x0100000a
def EventId.EVENT_UPGRADE_START : EventId := 0x0100000b
def EventId.EVENT_UPGRADE_UPDATE : EventId := 0x0100000c
def EventId.EVENT_APPLY_WAIT : EventId := 0x0100000d
def EventId.EVENT_APPLY_START : EventId := 0x0100000e
def EventId.EVENT_UPGRADE_SUCCESS : EventId := 0x0100000f
def EventId.EVENT_UPGRADE_FAIL : EventId := 0x01000010
def EventId.EVENT_AUTH_START : EventId := 0x01000011
def EventId.EVENT_AUTH_SUCCESS : EventId := 0x01000012
def EventId.EVENT_DOWNLOAD_CANCEL : EventId := 0x01000013
def EventId.EVENT_INITIALIZE : EventId := 0x01000014

/-- `TaskBodyMemeberMask`. -/
def VERSION_DIGEST_INFO : UInt32 := 0x00000001
def UPGRADE_STATUS : UInt32 := 0x00000010
def SUB_STATUS : UInt32 := 0x00000100
def PROGRESS : UInt32 := 0x00001000
def INSTALL_MODE : UInt32 := 0x00010000
def ERROR_MESSAGE : UInt32 := 0x00100000
def VERSION_COMPONENT : UInt32 := 0x01000000

/-- `g_taskBodyTemplateMap`. -/
def taskBodyTemplateMap : List (EventId × UInt32) :=
  [ (.EVENT_TASK_RECEIVE, VERSION_DIGEST_INFO),
    (.EVENT_TASK_CANCEL, VERSION_DIGEST_INFO),
    (.EVENT_DOWNLOAD_WAIT, VERSION_DIGEST_INFO ||| UPGRADE_STATUS ||| INSTALL_MODE),
    (.EVENT_DOWNLOAD_START, VERSION_DIGEST_INFO ||| INSTALL_MODE),
    (.EVENT_DOWNLOAD_UPDATE, VERSION_DIGEST_INFO ||| UPGRADE_STATUS ||| PROGRESS ||| INSTALL_MODE),
    (.EVENT_DOWNLOAD_PAUSE, VERSION_DIGEST_INFO ||| UPGRADE_STATUS ||| PROGRESS ||| INSTALL_MODE ||| ERROR_MESSAGE),
    (.EVENT_DOWNLOAD_RESUME, VERSION_DIGEST_INFO ||| UPGRADE_STATUS ||| PROGRESS ||| INSTALL_MODE),
    (.EVENT_DOWNLOAD_SUCCESS, VERSION_DIGEST_INFO ||| INSTALL_MODE),
    (.EVENT_DOWNLOAD_CANCEL, VERSION_DIGEST_INFO ||| UPGRADE_STATUS),
    (.EVENT_DOWNLOAD_FAIL, VERSION_DIGEST_INFO ||| INSTALL_MODE ||| ERROR_MESSAGE),
    (.EVENT_UPGRADE_WAIT, VERSION_DIGEST_INFO ||| UPGRADE_STATUS ||| INSTALL_MODE ||| ERROR_MESSAGE),
    (.EVENT_UPGRADE_START, VERSION_DIGEST_INFO ||| UPGRADE_STATUS ||| INSTALL_MODE),
    (.EVENT_UPGRADE_UPDATE, VERSION_DIGEST_INFO ||| UPGRADE_STATUS ||| PROGRESS ||| INSTALL_MODE),
    (.EVENT_APPLY_WAIT, VERSION_DIGEST_INFO ||| UPGRADE_STATUS ||| ERROR_MESSAGE),
    (.EVENT_APPLY_START, VERSION_DIGEST_INFO),
    (.EVENT_UPGRADE_SUCCESS, VERSION_DIGEST_INFO ||| VERSION_COMPONENT),
    (.EVENT_UPGRADE_FAIL, VERSION_DIGEST_INFO ||| VERSION_COMPONENT ||| ERROR_MESSAGE),
    (.EVENT_AUTH_START, VERSION_DIGEST_INFO ||| VERSION_COMPONENT ||| UPGRADE_STATUS),
    (.EVENT_AUTH_SUCCESS, VERSION_DIGEST_INFO ||| VERSION_COMPONENT ||| UPGRADE_STATUS),
    (.EVENT_INITIALIZE, UPGRADE_STATUS) ]

/-! ## Their texts -/

/-- `GetJsonBuilder` of each record. -/
def VersionDigestInfo.getJsonBuilder (i : VersionDigestInfo) : JsonBuilder :=
  ((({} : JsonBuilder).append "\x7b").appendString "versionDigest" i.versionDigest).append "\x7d"

def ErrorMessage.getJsonBuilder (m : ErrorMessage) : JsonBuilder :=
  (((({} : JsonBuilder).append "\x7b").appendInt32 "errorCode" m.errorCode).appendString "errorMessage" m.errorMessage).append "\x7d"

def DescriptionInfo.getJsonBuilder (i : DescriptionInfo) : JsonBuilder :=
  (((({} : JsonBuilder).append "\x7b").appendInt32 "descriptionType" i.descriptionType).appendString "content" i.content).append
    "\x7d"

def VersionComponent.getJsonBuilder (c : VersionComponent) : JsonBuilder :=
  let jsonBuilder := ({} : JsonBuilder).append "\x7b"
  let jsonBuilder := jsonBuilder.appendString "componentId" c.componentId
  let jsonBuilder := jsonBuilder.appendInt32 "componentType" c.componentType
  let jsonBuilder := jsonBuilder.appendString "upgradeAction" c.upgradeAction
  let jsonBuilder := jsonBuilder.appendString "displayVersion" c.displayVersion
  let jsonBuilder := jsonBuilder.appendString "innerVersion" c.innerVersion
  let jsonBuilder := jsonBuilder.appendInt64 "size" c.size.toInt64
  let jsonBuilder := jsonBuilder.appendInt32 "effectiveMode" c.effectiveMode.toUInt32.toInt32
  let jsonBuilder := jsonBuilder.appendBuilder "descriptionInfo" c.descriptionInfo.getJsonBuilder
  let jsonBuilder := jsonBuilder.appendString "componentExtra" c.componentExtra
  jsonBuilder.append "\x7d"

/-- `TaskBody::GetJsonBuilder`: nothing at all for an event without a template. -/
def TaskBody.getJsonBuilder (t : TaskBody) (eventId : EventId) : JsonBuilder :=
  match taskBodyTemplateMap.lookup eventId with
  | none => {}
  | some taskBodyTemplate =>
    let jsonBuilder := ({} : JsonBuilder).append "\x7b"
    let jsonBuilder := if taskBodyTemplate &&& VERSION_DIGEST_INFO ≠ 0 then
      jsonBuilder.appendBuilder "versionDigestInfo" t.versionDigestInfo.getJsonBuilder else jsonBuilder
    let jsonBuilder := if taskBodyTemplate &&& UPGRADE_STATUS ≠ 0 then jsonBuilder.appendInt32 "status" t.status else jsonBuilder
    let jsonBuilder := if taskBodyTemplate &&& SUB_STATUS ≠ 0 then jsonBuilder.appendInt32 "subStatus" t.subStatus else jsonBuilder
    let jsonBuilder := if taskBodyTemplate &&& PROGRESS ≠ 0 then jsonBuilder.appendInt32 "progress" t.progress else jsonBuilder
    let jsonBuilder := if taskBodyTemplate &&& INSTALL_MODE ≠ 0 then
      jsonBuilder.appendInt32 "installMode" t.installMode else jsonBuilder
    let jsonBuilder := if taskBodyTemplate &&& ERROR_MESSAGE ≠ 0 then
      jsonBuilder.appendArray "errorMessages" (t.errorMessages.map (·.getJsonBuilder)) else jsonBuilder
    let jsonBuilder := if taskBodyTemplate &&& VERSION_COMPONENT ≠ 0 then
      jsonBuilder.appendArray "versionComponents" (t.versionComponents.map (·.getJsonBuilder)) else jsonBuilder
    jsonBuilder.append "\x7d"

/-- `EventInfo::GetJsonBuilder`. -/
def EventInfo.getJsonBuilder (e : EventInfo) : JsonBuilder :=
  (((({} : JsonBuilder).append "\x7b").appendInt32 "eventId" e.eventId).appendBuilder "taskBody"
    (e.taskBody.getJsonBuilder e.eventId)).append "\x7d"

/-- `EventInfo::ToJson`. -/
def EventInfo.toJson (e : EventInfo) : String := e.getJsonBuilder.toJson

end Ipc

end UpdateEngine
