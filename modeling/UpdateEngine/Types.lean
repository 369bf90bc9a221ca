import Mathlib.Init

/-!
# The records of the update service

The enumerations and records of `update_helper.h`, `firmware_common.h`, `firmware_component.h` and `firmware_task.h`. Fields keep
the source's names and defaults; a field with a fixed width keeps it. An order and a network type reach the service as integers of
a parcel that are cast to their enumeration, so both are kept as numbers with named values.
-/

namespace UpdateEngine

/-! ## Enumerations -/

/-- `UpgradeStatus`: the stages of an update. -/
inductive UpgradeStatus where
  | init
  | checkingVersion | checkVersionFail | checkVersionSuccess
  | downloading | downloadPause | downloadCancel | downloadFail | downloadSuccess
  | verifying | verifyFail | verifySuccess
  | packageTransing | packageTransFail | packageTransSuccess
  | installing | installFail | installSuccess
  | updating | updateFail | updateSuccess
  deriving DecidableEq, Repr, Inhabited

/-- `UpdateHelper::IsUpgradeFailed`. -/
def UpgradeStatus.isUpgradeFailed (s : UpgradeStatus) : Bool :=
  s = .downloadFail || s = .packageTransFail || s = .installFail || s = .updateFail || s = .verifyFail

/-- `CallResult`: the results a caller can be given. -/
inductive CallResult where
  | success | fail | unSupport
  deriving DecidableEq, Repr

/-- `FirmwareStep`: the steps of a flow. -/
inductive FirmwareStep where
  | init | checkStep | downloadStep | authStep | installStep | applyStep | complete
  deriving DecidableEq, Repr

/-- `CheckStatus`: how a check ended. -/
inductive CheckStatus where
  | checkSuccess | checkFail | fileListRequestSuccess | fileListRequestFail | changelogRequestSuccess | changelogRequestFail
  deriving DecidableEq, Repr

/-- `InstallType`: which installer a package is given to. -/
inductive InstallType where
  | quickFix | sysInstaller | updater
  deriving DecidableEq, Repr

/-- `PackageType`. -/
inductive PackageType where
  | dynamic | normal
  deriving DecidableEq, Repr

/-- `CombinationType`: whether the version holds a HOTA package. -/
inductive CombinationType where
  | invallidType | hota
  deriving DecidableEq, Repr

/-- `DownloadMode`. -/
inductive DownloadMode where
  | manual | auto
  deriving DecidableEq, Repr

/-- `UpgradeMode`. -/
inductive UpgradeMode where
  | manual | night
  deriving DecidableEq, Repr

/-- `EventId`: what an event reports. -/
inductive EventId where
  | taskBase | taskReceive | taskCancel | downloadWait | downloadStart | downloadUpdate | downloadPause | downloadResume
  | downloadSuccess | downloadFail | upgradeWait | upgradeStart | upgradeUpdate | applyWait | applyStart | upgradeSuccess
  | upgradeFail | authStart | authSuccess | downloadCancel | eventInitialize
  deriving DecidableEq, Repr

/-- `StartupReason`: why the process was started. -/
inductive StartupReason where
  | unknown | deviceReboot | scheduleTask | processEnvReset
  deriving DecidableEq, Repr

/-- `CommonEventType`, the events `FirmwareManager` is told. -/
inductive CommonEventType where
  | netChanged | bootComplete | processInit
  deriving DecidableEq, Repr

/-- `Order`: what a request orders, as the integer it is read from. -/
structure Order where
  value : Int
  deriving DecidableEq, Repr

namespace Order

def download : Order := ⟨1⟩
def install : Order := ⟨2⟩
def downloadAndInstall : Order := ⟨3⟩
def apply : Order := ⟨4⟩
def installAndApply : Order := ⟨6⟩

end Order

/-- `NetType`: a mask of networks. -/
structure NetType where
  value : Nat
  deriving DecidableEq, Repr

namespace NetType

def noNet : NetType := ⟨0⟩
def cellular : NetType := ⟨1⟩
def meteredWifi : NetType := ⟨2⟩
def notMeteredWifi : NetType := ⟨4⟩
def wifi : NetType := ⟨6⟩
def cellularAndWifi : NetType := ⟨7⟩

/-- `NetManager::IsBaseNetType`: a single network, or none. -/
def isBaseNetType (t : NetType) : Bool := t = noNet || t = cellular || t = meteredWifi || t = notMeteredWifi

end NetType

/-! ## Values handed around -/

/-- `ErrorMessage` (and `ErrMsg`). -/
structure ErrorMessage where
  errorCode : Int := 0
  errorMessage : String := ""
  deriving DecidableEq, Repr

/-- `Progress`: what a download or an installation reports. -/
structure Progress where
  percent : UInt32 := 0
  status : UpgradeStatus := .init
  endReason : String := ""
  deriving DecidableEq, Repr

/-- `InstallCallbackInfo`. -/
structure InstallCallbackInfo where
  progress : Progress := {}
  errorMessage : ErrorMessage := {}
  deriving DecidableEq, Repr

/-- `BusinessError`: the answer to the caller of a request. -/
structure BusinessError where
  message : String := ""
  errorNum : CallResult := .success
  data : List ErrorMessage := []
  deriving DecidableEq, Repr

/-- `BusinessError::Build`. -/
def BusinessError.build (e : BusinessError) (callResult : CallResult) (msg : String) : BusinessError :=
  { e with errorNum := callResult, message := msg }

/-- `BusinessError::AddErrorMessage`. -/
def BusinessError.addErrorMessage (e : BusinessError) (errorCode : Int) (errorMessage : String) : BusinessError :=
  { e with data := e.data ++ [⟨errorCode, errorMessage⟩] }

/-- `DownloadOptions`. -/
structure DownloadOptions where
  allowNetwork : NetType := .wifi
  order : Order := .download
  deriving DecidableEq, Repr

/-- `UpgradeOptions`. -/
structure UpgradeOptions where
  order : Order := .install
  deriving DecidableEq, Repr

/-- `VersionComponent`: a component as clients see it. -/
structure VersionComponent where
  componentId : String := ""
  componentType : Int32 := 0
  upgradeAction : String := ""
  displayVersion : String := ""
  innerVersion : String := ""
  size : UInt64 := 0
  effectiveMode : UInt64 := 1
  deriving DecidableEq, Repr

/-- `CheckResult`, its `NewVersionInfo` flattened. -/
structure CheckResult where
  isExistNewVersion : Bool := false
  versionDigest : String := ""
  versionComponents : List VersionComponent := []
  deriving DecidableEq, Repr

/-- `TaskBody`: what an event says about the task. -/
structure TaskBody where
  versionDigest : String := ""
  status : UpgradeStatus := .init
  progress : Int32 := 0
  errorMessages : List ErrorMessage := []
  versionComponents : List VersionComponent := []
  deriving DecidableEq, Repr

/-- `EventInfo`. -/
structure EventInfo where
  eventId : EventId := .taskBase
  taskBody : TaskBody := {}
  deriving DecidableEq, Repr

/-! ## Rows of the two tables -/

/-- `FirmwareComponent`: a row of the component table (the row number the database gives it is left out; `isNeedRestart` has no
initial value in the source). -/
structure FirmwareComponent where
  versionId : String := ""
  packageIndex : Int32 := 0
  versionPackageType : PackageType := .dynamic
  targetBlVersionNumber : String := ""
  targetBlDisplayVersionNumber : String := ""
  versionNumber : String := ""
  blVersionInfo : String := ""
  componentId : String := ""
  descriptPackageId : String := ""
  changelogUrl : String := ""
  blVersionType : Int32 := 0
  isNeedRestart : Bool := false
  patchType : Int32 := 0
  url : String := ""
  reserveUrl : String := ""
  storageType : Int32 := 0
  fileName : String := ""
  size : Int64 := 0
  verifyInfo : String := ""
  spath : String := ""
  status : UpgradeStatus := .init
  progress : Int32 := 0
  deriving DecidableEq, Repr

/-- `FirmwareTask`: a row of the task table. -/
structure FirmwareTask where
  taskId : String := ""
  status : UpgradeStatus := .init
  progress : Int32 := 0
  errorCode : Int32 := 0
  errorMsg : String := ""
  isExistTask : Bool := false
  downloadTaskId : String := ""
  combinationType : CombinationType := .invallidType
  downloadOrder : Order := .download
  downloadAllowNetwork : NetType := .notMeteredWifi
  downloadMode : DownloadMode := .manual
  upgradeOrder : Order := .install
  upgradeMode : UpgradeMode := .manual
  deriving DecidableEq, Repr

/-! ## Constants -/

/-- The content of a file. -/
abbrev Bytes := List UInt8

namespace Firmware

/-- `Constant::DUPDATE_ENGINE_PACKAGE_ROOT_PATH + "/firmware/versions"`: where packages are stored. -/
def PACKAGE_PATH : String := "/data/update/ota_package/firmware/versions"

/-- `Constant::FILES_ROOT_PATH + "/firmware/changelogs"`: where changelogs are stored. -/
def CHANGELOG_PATH : String := "/data/service/el1/public/update/dupdate_engine/files/firmware/changelogs"

/-- `PACKAGE_ROOT_PATH` and `ENCRYPTED_ROOT_PATH`: the directories above these two. -/
def PACKAGE_ROOT_PATH : String := "/data/update/ota_package/firmware"
def ENCRYPTED_ROOT_PATH : String := "/data/service/el1/public/update/dupdate_engine/files/firmware"

/-- The keys of the preferences. -/
def HOTA_CURRENT_COMPONENT_ID : String := "hota_current_component_id"
def UPDATE_ACTION : String := "update_action"

/-- `Firmware::ONE_HUNDRED` as a percentage. -/
def ONE_HUNDRED : UInt32 := 100

end Firmware

/-! `DUpdateErrno`, the values the model uses. -/

namespace DUpdateErrno

def DUPDATE_ERR_UPDATE_COMMON_ERROR : Int := -400
def DUPDATE_ERR_SYSTEM_BUSY_ON_INSTALL : Int := -407
def DUPDATE_ERR_IPC_ERROR : Int := -410
def DUPDATE_ERR_UPDATE_PRECHECK_FAIL : Int := -420
def DUPDATE_ERR_UPDATE_REBOOT_FAIL : Int := -421
def DUPDATE_ERR_LOW_BATTERY_LEVEL : Int := -830
def DUPDATE_ERR_DOWNLOAD_COMMON_ERROR : Int := -300
def DUPDATE_ERR_DLOAD_REQUEST_FAIL : Int := -301
def DUPDATE_ERR_NO_ENOUGH_MEMORY : Int := -304
def DUPDATE_ERR_VERIFY_PACKAGE_FAIL : Int := -305
def DUPDATE_ERR_SYSTEM_BUSY_ON_DOWNLOAD : Int := -307
def DUPDATE_ERR_SYSTEM_BUSY_ON_CHECK : Int := -207

end DUpdateErrno

/-! ## Integers read from text -/

/-- The digits a text starts with, as a number; none when it starts with no digit. -/
def readDigits : List Char → Option Nat → Option Nat
  | c :: l, acc => if c.isDigit then readDigits l (some (10 * acc.getD 0 + (c.toNat - '0'.toNat))) else acc
  | [], acc => acc

/-- `stoi` and `atoi` up to a failure: blanks, a sign, digits; what follows them is not read. -/
def readInt (text : String) : Option Int :=
  match text.toList.dropWhile Char.isWhitespace with
  | '-' :: l => (readDigits l none).map fun n => -(n : Int)
  | '+' :: l => (readDigits l none).map fun n => (n : Int)
  | l => (readDigits l none).map fun n => (n : Int)

/-- `stoi`: it throws when there is nothing to read, or when the number does not fit an `int`. -/
def stoi (text : String) : Option Int :=
  (readInt text).filter fun n => -2147483648 ≤ n && n ≤ 2147483647

/-- `atoi`: zero when there is nothing to read. -/
def atoi (text : String) : Int := (readInt text).getD 0

example : stoi "-305" = some (-305) ∧ stoi "no task" = none ∧ atoi "11" = 11 := by decide

end UpdateEngine
