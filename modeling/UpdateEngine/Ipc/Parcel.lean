import Mathlib.Algebra.Group.Int.Defs
import UpdateEngine.Wire
import UpdateEngine.Ipc.Types

/-!
# Parcels

`MessageParcelHelper`: the writers and the readers of the records. A parcel is a row of typed items; a write appends one, and is taken
to succeed; a read takes the first one if it has the type asked for, and otherwise gives the zero value and leaves the parcel as it is.
A reader that is given an object fills its fields and appends to its vectors, so what the object held before counts.
-/

namespace UpdateEngine.Ipc

open Wire

/-! ## Items -/

/-- `std::u16string`. -/
abbrev String16 := List UInt16

/-- The conversions between the strings of the service and those of a parcel. -/
structure Conversion where
  str8ToStr16 : String → String16
  str16ToStr8 : String16 → String

/-- What is written as UTF-16 is read as it was. -/
def Conversion.Inverts (C : Conversion) : Prop := ∀ s, C.str16ToStr8 (C.str8ToStr16 s) = s

/-- What a parcel holds. A remote object is named by a number. -/
inductive Item where
  | bool (b : Bool)
  | int32 (z : Int32)
  | uint32 (n : UInt32)
  | string16 (s : String16)
  | remoteObject (o : Nat)
  | interfaceToken (descriptor : String)
  deriving DecidableEq, Repr

abbrev Parcel := List Item

abbrev Reader := Wire.Reader Item

def readBool : Reader Bool
  | .bool b :: p => (b, p)
  | p => (false, p)

def readInt32 : Reader Int32
  | .int32 z :: p => (z, p)
  | p => (0, p)

def readUint32 : Reader UInt32
  | .uint32 n :: p => (n, p)
  | p => (0, p)

def readString16 : Reader String16
  | .string16 s :: p => (s, p)
  | p => ([], p)

def readRemoteObject : Reader (Option Nat)
  | .remoteObject o :: p => (some o, p)
  | p => (none, p)

def readInterfaceToken : Reader String
  | .interfaceToken descriptor :: p => (descriptor, p)
  | p => ("", p)

@[simp] theorem readBool_cons (b : Bool) (p : Parcel) : readBool (.bool b :: p) = (b, p) := rfl

@[simp] theorem readInt32_cons (z : Int32) (p : Parcel) : readInt32 (.int32 z :: p) = (z, p) := rfl

@[simp] theorem readUint32_cons (n : UInt32) (p : Parcel) : readUint32 (.uint32 n :: p) = (n, p) := rfl

@[simp] theorem readString16_cons (s : String16) (p : Parcel) : readString16 (.string16 s :: p) = (s, p) := rfl

@[simp] theorem readRemoteObject_cons (o : Nat) (p : Parcel) : readRemoteObject (.remoteObject o :: p) = (some o, p) := rfl

@[simp] theorem readInterfaceToken_cons (descriptor : String) (p : Parcel) :
    readInterfaceToken (.interfaceToken descriptor :: p) = (descriptor, p) := rfl

/-! ## Vectors -/

namespace MessageParcelHelper

def MAX_VECTOR_SIZE : Nat := 128

/-- A vector is written as its size, which is cast to 32 bits, and its elements. -/
def writeVector {α : Type} (write : α → Parcel) (l : List α) : Parcel := .int32 (Int32.ofNat l.length) :: l.flatMap write

/-- The loop of the vector readers. The size is compared as an `int32_t` and the loop counts to it as a `size_t`, so a negative one
is a very large number of rounds. -/
def readVector {α : Type} (read : Reader α) (l : List α) : Reader (List α) := do
  let size ← readInt32
  if size.toInt > MAX_VECTOR_SIZE then return l
  return l ++ (← times read (size.toInt % 2 ^ 64).toNat)

variable (C : Conversion)

def readErrorMessage : Reader ErrorMessage := do
  let errorCode ← readInt32
  let errorMessage := C.str16ToStr8 (← readString16)
  return { errorCode, errorMessage }

def writeErrorMessage (e : ErrorMessage) : Parcel := [.int32 e.errorCode, .string16 (C.str8ToStr16 e.errorMessage)]

def readErrorMessages (errorMessages : List ErrorMessage) : Reader (List ErrorMessage) :=
  readVector (readErrorMessage C) errorMessages

def writeErrorMessages (errorMessages : List ErrorMessage) : Parcel := writeVector (writeErrorMessage C) errorMessages

def readComponentDescription : Reader ComponentDescription := do
  let componentId := C.str16ToStr8 (← readString16)
  let descriptionType := (← readUint32).toInt32
  let content := C.str16ToStr8 (← readString16)
  return { componentId, descriptionInfo := { descriptionType, content } }

def writeComponentDescription (c : ComponentDescription) : Parcel :=
  [.string16 (C.str8ToStr16 c.componentId), .uint32 c.descriptionInfo.descriptionType.toUInt32,
    .string16 (C.str8ToStr16 c.descriptionInfo.content)]

def readComponentDescriptions (componentDescriptions : List ComponentDescription) : Reader (List ComponentDescription) :=
  readVector (readComponentDescription C) componentDescriptions

def writeComponentDescriptions (componentDescriptions : List ComponentDescription) : Parcel :=
  writeVector (writeComponentDescription C) componentDescriptions

def readVersionComponent : Reader VersionComponent := do
  let componentId := C.str16ToStr8 (← readString16)
  let componentType ← readInt32
  let upgradeAction := C.str16ToStr8 (← readString16)
  let displayVersion := C.str16ToStr8 (← readString16)
  let innerVersion := C.str16ToStr8 (← readString16)
  let size := (← readUint32).toUInt64
  let effectiveMode := (← readUint32).toUInt64
  let descriptionType := (← readUint32).toInt32
  let content := C.str16ToStr8 (← readString16)
  let componentExtra := C.str16ToStr8 (← readString16)
  return { componentId, componentType, upgradeAction, displayVersion, innerVersion, size, effectiveMode
           descriptionInfo := { descriptionType, content }, componentExtra }

def writeVersionComponent (c : VersionComponent) : Parcel :=
  [.string16 (C.str8ToStr16 c.componentId), .int32 c.componentType, .string16 (C.str8ToStr16 c.upgradeAction),
    .string16 (C.str8ToStr16 c.displayVersion), .string16 (C.str8ToStr16 c.innerVersion), .uint32 c.size.toUInt32,
    .uint32 c.effectiveMode.toUInt32, .uint32 c.descriptionInfo.descriptionType.toUInt32,
    .string16 (C.str8ToStr16 c.descriptionInfo.content), .string16 (C.str8ToStr16 c.componentExtra)]

def readVersionComponents (versionComponents : List VersionComponent) : Reader (List VersionComponent) :=
  readVector (readVersionComponent C) versionComponents

def writeVersionComponents (versionComponents : List VersionComponent) : Parcel :=
  writeVector (writeVersionComponent C) versionComponents

/-! ## Records -/

def readUpgradeInfo : Reader UpgradeInfo := do
  let upgradeApp := C.str16ToStr8 (← readString16)
  let vendor := C.str16ToStr8 (← readString16)
  let subType ← readInt32
  let upgradeDevId := C.str16ToStr8 (← readString16)
  let controlDevId := C.str16ToStr8 (← readString16)
  return { upgradeApp, businessType := { vendor, subType }, upgradeDevId, controlDevId }

def writeUpgradeInfo (info : UpgradeInfo) : Parcel :=
  [.string16 (C.str8ToStr16 info.upgradeApp), .string16 (C.str8ToStr16 info.businessType.vendor),
    .int32 info.businessType.subType, .string16 (C.str8ToStr16 info.upgradeDevId), .string16 (C.str8ToStr16 info.controlDevId)]

def readVersionDescriptionInfo (info : VersionDescriptionInfo) : Reader VersionDescriptionInfo := do
  return { componentDescriptions := ← readComponentDescriptions C info.componentDescriptions }

def writeVersionDescriptionInfo (info : VersionDescriptionInfo) : Parcel := writeComponentDescriptions C info.componentDescriptions

def readBusinessError (businessError : BusinessError) : Reader BusinessError := do
  let message := C.str16ToStr8 (← readString16)
  let errorNum ← readInt32
  let data ← readErrorMessages C businessError.data
  return { message, errorNum, data }

def writeBusinessError (businessError : BusinessError) : Parcel :=
  [.string16 (C.str8ToStr16 businessError.message), .int32 businessError.errorNum] ++ writeErrorMessages C businessError.data

/-- `ReadNewVersionInfoEx`, which is all of `ReadNewVersionInfo`. -/
def readNewVersionInfo (newVersionInfo : NewVersionInfo) : Reader NewVersionInfo := do
  let versionDigest := C.str16ToStr8 (← readString16)
  let versionComponents ← readVersionComponents C newVersionInfo.versionComponents
  return { versionDigestInfo := { versionDigest }, versionComponents }

def writeNewVersionInfo (newVersionInfo : NewVersionInfo) : Parcel :=
  [.string16 (C.str8ToStr16 newVersionInfo.versionDigestInfo.versionDigest)] ++
    writeVersionComponents C newVersionInfo.versionComponents

def readCheckResult (checkResult : CheckResult) : Reader CheckResult := do
  let isExistNewVersion ← readBool
  let newVersionInfo ← readNewVersionInfo C checkResult.newVersionInfo
  return { isExistNewVersion, newVersionInfo }

def writeCheckResult (checkResult : CheckResult) : Parcel :=
  [.bool checkResult.isExistNewVersion] ++ writeNewVersionInfo C checkResult.newVersionInfo

def readCurrentVersionInfo (info : CurrentVersionInfo) : Reader CurrentVersionInfo := do
  let osVersion := C.str16ToStr8 (← readString16)
  let deviceName := C.str16ToStr8 (← readString16)
  let versionComponents ← readVersionComponents C info.versionComponents
  return { osVersion, deviceName, versionComponents }

def writeCurrentVersionInfo (info : CurrentVersionInfo) : Parcel :=
  [.string16 (C.str8ToStr16 info.osVersion), .string16 (C.str8ToStr16 info.deviceName)] ++
    writeVersionComponents C info.versionComponents

def readTaskBody (taskBody : TaskBody) : Reader TaskBody := do
  let versionDigest := C.str16ToStr8 (← readString16)
  let status ← readInt32
  let subStatus ← readInt32
  let progress ← readInt32
  let installMode ← readInt32
  let errorMessages ← readErrorMessages C taskBody.errorMessages
  let versionComponents ← readVersionComponents C taskBody.versionComponents
  return { versionDigestInfo := { versionDigest }, status, subStatus, progress, installMode, errorMessages, versionComponents }

def writeTaskBody (taskBody : TaskBody) : Parcel :=
  [.string16 (C.str8ToStr16 taskBody.versionDigestInfo.versionDigest), .int32 taskBody.status, .int32 taskBody.subStatus,
    .int32 taskBody.progress, .int32 taskBody.installMode] ++
    writeErrorMessages C taskBody.errorMessages ++ writeVersionComponents C taskBody.versionComponents

def readTaskInfo (info : TaskInfo) : Reader TaskInfo := do
  let existTask ← readBool
  let taskBody ← readTaskBody C info.taskBody
  return { existTask, taskBody }

def writeTaskInfo (info : TaskInfo) : Parcel := [.bool info.existTask] ++ writeTaskBody C info.taskBody

def readUpgradePeriod : Reader UpgradePeriod := do
  let start ← readUint32
  let «end» ← readUint32
  return { start, «end» }

/-- `ReadUpgradePolicy`: the size is cast to a `size_t` before it is compared, and at most two periods are read. -/
def readUpgradePolicy (policy : UpgradePolicy) : Reader UpgradePolicy := do
  let downloadStrategy ← readBool
  let autoUpgradeStrategy ← readBool
  let size := ((← readInt32).toInt % 2 ^ 64).toNat
  let (first, second) := policy.autoUpgradePeriods
  if size > MAX_VECTOR_SIZE then return { policy with downloadStrategy, autoUpgradeStrategy }
  let first ← if 0 < size then readUpgradePeriod else pure first
  let second ← if 1 < size then readUpgradePeriod else pure second
  return { downloadStrategy, autoUpgradeStrategy, autoUpgradePeriods := (first, second) }

def writeUpgradePeriod (period : UpgradePeriod) : Parcel := [.uint32 period.start, .uint32 period.end]

def writeUpgradePolicy (policy : UpgradePolicy) : Parcel :=
  [.bool policy.downloadStrategy, .bool policy.autoUpgradeStrategy, .int32 2] ++
    writeUpgradePeriod policy.autoUpgradePeriods.1 ++ writeUpgradePeriod policy.autoUpgradePeriods.2

def readEventInfo (eventInfo : EventInfo) : Reader EventInfo := do
  let eventId := (← readUint32).toInt32
  let taskBody ← readTaskBody C eventInfo.taskBody
  return { eventId, taskBody }

def writeEventInfo (eventInfo : EventInfo) : Parcel := [.uint32 eventInfo.eventId.toUInt32] ++ writeTaskBody C eventInfo.taskBody

def readVersionDigestInfo : Reader VersionDigestInfo := do
  return { versionDigest := C.str16ToStr8 (← readString16) }

def writeVersionDigestInfo (info : VersionDigestInfo) : Parcel := [.string16 (C.str8ToStr16 info.versionDigest)]

def readDescriptionOptions : Reader DescriptionOptions := do
  let format := (← readUint32).toInt32
  let language := C.str16ToStr8 (← readString16)
  return { format, language }

def writeDescriptionOptions (options : DescriptionOptions) : Parcel :=
  [.uint32 options.format.toUInt32, .string16 (C.str8ToStr16 options.language)]

def readDownloadOptions : Reader DownloadOptions := do
  let allowNetwork := (← readUint32).toInt32
  let order := (← readUint32).toInt32
  return { allowNetwork, order }

def writeDownloadOptions (options : DownloadOptions) : Parcel :=
  [.uint32 options.allowNetwork.toUInt32, .uint32 options.order.toUInt32]

def readPauseDownloadOptions : Reader PauseDownloadOptions := do
  return { isAllowAutoResume := ← readBool }

def writePauseDownloadOptions (options : PauseDownloadOptions) : Parcel := [.bool options.isAllowAutoResume]

def readResumeDownloadOptions : Reader ResumeDownloadOptions := do
  return { allowNetwork := (← readUint32).toInt32 }

def writeResumeDownloadOptions (options : ResumeDownloadOptions) : Parcel := [.uint32 options.allowNetwork.toUInt32]

def readUpgradeOptions : Reader UpgradeOptions := do
  return { order := (← readUint32).toInt32 }

def writeUpgradeOptions (options : UpgradeOptions) : Parcel := [.uint32 options.order.toUInt32]

def readClearOptions : Reader ClearOptions := do
  return { status := (← readUint32).toInt32 }

def writeClearOptions (options : ClearOptions) : Parcel := [.uint32 options.status.toUInt32]

end MessageParcelHelper

end UpdateEngine.Ipc
