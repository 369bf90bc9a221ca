import Mathlib.Init

/-!
# What crosses the process boundary

The records of `update_helper.h` that are written to a parcel, with all their fields. An enumeration is the `int` underneath it:
what arrives is cast to the enumeration without a test, so a receiver can get every value.
-/

namespace UpdateEngine.Ipc

/-! ## Enumerations -/

/-- `BusinessSubType`. -/
abbrev BusinessSubType := Int32

def BusinessSubType.FIRMWARE : BusinessSubType := 1
def BusinessSubType.PARAM : BusinessSubType := 2

/-- `DescriptionType`, `DescriptionFormat`, `NetType`, `Order`, `UpgradeStatus`, `EventId`. -/
abbrev DescriptionType := Int32
abbrev DescriptionFormat := Int32
abbrev NetType := Int32
abbrev Order := Int32
abbrev UpgradeStatus := Int32
abbrev EventId := Int32

/-- `CallResult`, and the codes the functions of the service return. -/
abbrev CallResult := Int32

def INT_CALL_SUCCESS : CallResult := 0
def INT_CALL_FAIL : CallResult := 100
def INT_CALL_IPC_ERR : CallResult := 104
def INT_APP_NOT_GRANTED : CallResult := 201
def INT_NOT_SYSTEM_APP : CallResult := 202
def INT_PARAM_ERR : CallResult := 401

/-! ## Records -/

/-- `BusinessType`. -/
structure BusinessType where
  vendor : String := ""
  subType : BusinessSubType := .FIRMWARE
  deriving DecidableEq, Repr

/-- `UpgradeInfo`: what a client is known by. -/
structure UpgradeInfo where
  upgradeApp : String := ""
  businessType : BusinessType := {}
  upgradeDevId : String := ""
  controlDevId : String := ""
  deriving DecidableEq, Repr

/-- `UpgradeInfo::IsLocal`. -/
def UpgradeInfo.isLocal (info : UpgradeInfo) : Bool := info.upgradeApp = "LocalUpgradeInfo"

/-- `VersionDigestInfo`. -/
structure VersionDigestInfo where
  versionDigest : String := ""
  deriving DecidableEq, Repr

/-- `ErrorMessage`. -/
structure ErrorMessage where
  errorCode : Int32 := 0
  errorMessage : String := ""
  deriving DecidableEq, Repr

/-- `BusinessError`. -/
structure BusinessError where
  message : String := ""
  errorNum : CallResult := INT_CALL_SUCCESS
  data : List ErrorMessage := []
  deriving DecidableEq, Repr

/-- `DescriptionOptions`. -/
structure DescriptionOptions where
  format : DescriptionFormat := 0
  language : String := ""
  deriving DecidableEq, Repr

/-- `DownloadOptions`. -/
structure DownloadOptions where
  allowNetwork : NetType := 6
  order : Order := 1
  deriving DecidableEq, Repr

/-- `ResumeDownloadOptions`. -/
structure ResumeDownloadOptions where
  allowNetwork : NetType := 6
  deriving DecidableEq, Repr

/-- `PauseDownloadOptions`. -/
structure PauseDownloadOptions where
  isAllowAutoResume : Bool := false
  deriving DecidableEq, Repr

/-- `UpgradeOptions`. -/
structure UpgradeOptions where
  order : Order := 2
  deriving DecidableEq, Repr

/-- `ClearOptions`. -/
structure ClearOptions where
  status : UpgradeStatus := 0
  deriving DecidableEq, Repr

/-- `DescriptionInfo`. -/
structure DescriptionInfo where
  descriptionType : DescriptionType := 0
  content : String := ""
  deriving DecidableEq, Repr

/-- `ComponentDescription`. -/
structure ComponentDescription where
  componentId : String := ""
  descriptionInfo : DescriptionInfo := {}
  deriving DecidableEq, Repr

/-- `VersionComponent`. -/
structure VersionComponent where
  componentId : String := ""
  componentType : Int32 := 0
  upgradeAction : String := ""
  displayVersion : String := ""
  innerVersion : String := ""
  size : UInt64 := 0
  effectiveMode : UInt64 := 1
  descriptionInfo : DescriptionInfo := {}
  componentExtra : String := ""
  deriving DecidableEq, Repr

/-- `CurrentVersionInfo`. -/
structure CurrentVersionInfo where
  osVersion : String := ""
  deviceName : String := ""
  versionComponents : List VersionComponent := []
  deriving DecidableEq, Repr

/-- `NewVersionInfo`. -/
structure NewVersionInfo where
  versionDigestInfo : VersionDigestInfo := {}
  versionComponents : List VersionComponent := []
  deriving DecidableEq, Repr

/-- `VersionDescriptionInfo`. -/
structure VersionDescriptionInfo where
  componentDescriptions : List ComponentDescription := []
  deriving DecidableEq, Repr

/-- `CheckResult`. -/
structure CheckResult where
  isExistNewVersion : Bool := false
  newVersionInfo : NewVersionInfo := {}
  deriving DecidableEq, Repr

/-- `TaskBody`. -/
structure TaskBody where
  versionDigestInfo : VersionDigestInfo := {}
  status : UpgradeStatus := 0
  subStatus : Int32 := 0
  progress : Int32 := 0
  installMode : Int32 := 0
  errorMessages : List ErrorMessage := []
  versionComponents : List VersionComponent := []
  deriving DecidableEq, Repr

/-- `TaskInfo`; the stub and the proxy start from one that is zero throughout. -/
structure TaskInfo where
  existTask : Bool := false
  taskBody : TaskBody := {}
  deriving DecidableEq, Repr

/-- `UpgradePeriod`. -/
structure UpgradePeriod where
  start : UInt32 := 0
  «end» : UInt32 := 0
  deriving DecidableEq, Repr

/-- `UpgradePolicy`, its array of two periods in two fields. -/
structure UpgradePolicy where
  downloadStrategy : Bool := false
  autoUpgradeStrategy : Bool := false
  autoUpgradePeriods : UpgradePeriod × UpgradePeriod := ({}, {})
  deriving DecidableEq, Repr

/-- `EventInfo`. -/
structure EventInfo where
  eventId : EventId := 0x01000000
  taskBody : TaskBody := {}
  deriving DecidableEq, Repr

end UpdateEngine.Ipc
