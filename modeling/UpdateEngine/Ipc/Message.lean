import UpdateEngine.Ipc.Parcel

/-!
# Messages

The records that `MessageParcelHelper` both writes and reads, as one family: `Message.write` and `Message.read` are the two functions
of each, with what they return. Nearly all of them return zero, whatever they meet.
-/

namespace UpdateEngine.Ipc

open Wire MessageParcelHelper

/-- The records with a writer and a reader. -/
inductive Message where
  | upgradeInfo
  | versionDescriptionInfo
  | businessError
  | checkResult
  | newVersionInfo
  | currentVersionInfo
  | taskInfo
  | upgradePolicy
  | eventInfo
  | versionDigestInfo
  | descriptionOptions
  | downloadOptions
  | pauseDownloadOptions
  | resumeDownloadOptions
  | upgradeOptions
  | clearOptions
  deriving DecidableEq, Repr

namespace Message

/-- The type of the record. -/
abbrev Value : Message → Type
  | .upgradeInfo => UpgradeInfo
  | .versionDescriptionInfo => VersionDescriptionInfo
  | .businessError => BusinessError
  | .checkResult => CheckResult
  | .newVersionInfo => NewVersionInfo
  | .currentVersionInfo => CurrentVersionInfo
  | .taskInfo => TaskInfo
  | .upgradePolicy => UpgradePolicy
  | .eventInfo => EventInfo
  | .versionDigestInfo => VersionDigestInfo
  | .descriptionOptions => DescriptionOptions
  | .downloadOptions => DownloadOptions
  | .pauseDownloadOptions => PauseDownloadOptions
  | .resumeDownloadOptions => ResumeDownloadOptions
  | .upgradeOptions => UpgradeOptions
  | .clearOptions => ClearOptions

/-- The record as it is declared before it is read. -/
def fresh : (m : Message) → m.Value
  | .upgradeInfo | .versionDescriptionInfo | .businessError | .checkResult | .newVersionInfo | .currentVersionInfo | .taskInfo
  | .upgradePolicy | .eventInfo | .versionDigestInfo | .descriptionOptions | .downloadOptions | .pauseDownloadOptions
  | .resumeDownloadOptions | .upgradeOptions | .clearOptions => {}

/-- What `ReadUpgradePolicy` returns for a parcel: a size that is too large, once it is cast, is a failure. -/
def upgradePolicyResult : Reader Int32 := do
  let _ ← readBool
  let _ ← readBool
  let size := ((← readInt32).toInt % 2 ^ 64).toNat
  return if size > MAX_VECTOR_SIZE then -1 else 0

variable (C : Conversion)

/-- The writer: what it appends, and what it returns. -/
def write : (m : Message) → m.Value → Parcel × Int32
  | .upgradeInfo, v => (writeUpgradeInfo C v, 0)
  | .versionDescriptionInfo, v => (writeVersionDescriptionInfo C v, 0)
  | .businessError, v => (writeBusinessError C v, 0)
  | .checkResult, v => (writeCheckResult C v, 0)
  | .newVersionInfo, v => (writeNewVersionInfo C v, 0)
  | .currentVersionInfo, v => (writeCurrentVersionInfo C v, 0)
  | .taskInfo, v => (writeTaskInfo C v, 0)
  | .upgradePolicy, v => (writeUpgradePolicy v, 0)
  | .eventInfo, v => (writeEventInfo C v, 0)
  | .versionDigestInfo, v => (writeVersionDigestInfo C v, 0)
  | .descriptionOptions, v => (writeDescriptionOptions C v, 0)
  | .downloadOptions, v => (writeDownloadOptions v, 0)
  | .pauseDownloadOptions, v => (writePauseDownloadOptions v, 0)
  | .resumeDownloadOptions, v => (writeResumeDownloadOptions v, 0)
  | .upgradeOptions, v => (writeUpgradeOptions v, 0)
  | .clearOptions, v => (writeClearOptions v, 0)

/-- The reader, given the object it fills: the object afterwards, and what is returned. -/
def read : (m : Message) → m.Value → Reader (m.Value × Int32)
  | .upgradeInfo, _ => do return (← readUpgradeInfo C, 0)
  | .versionDescriptionInfo, v => do return (← readVersionDescriptionInfo C v, 0)
  | .businessError, v => do return (← readBusinessError C v, 0)
  | .checkResult, v => do return (← readCheckResult C v, 0)
  | .newVersionInfo, v => do return (← readNewVersionInfo C v, 0)
  | .currentVersionInfo, v => do return (← readCurrentVersionInfo C v, 0)
  | .taskInfo, v => do return (← readTaskInfo C v, 0)
  | .upgradePolicy, v => fun p => (((readUpgradePolicy v p).1, (upgradePolicyResult p).1), (readUpgradePolicy v p).2)
  | .eventInfo, v => do return (← readEventInfo C v, 0)
  | .versionDigestInfo, _ => do return (← readVersionDigestInfo C, 0)
  | .descriptionOptions, _ => do return (← readDescriptionOptions C, 0)
  | .downloadOptions, _ => do return (← readDownloadOptions, 0)
  | .pauseDownloadOptions, _ => do return (← readPauseDownloadOptions, 0)
  | .resumeDownloadOptions, _ => do return (← readResumeDownloadOptions, 0)
  | .upgradeOptions, _ => do return (← readUpgradeOptions, 0)
  | .clearOptions, _ => do return (← readClearOptions, 0)

end Message

end UpdateEngine.Ipc
