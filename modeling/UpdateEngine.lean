import UpdateEngine.Theorems.Apply
import UpdateEngine.Theorems.Cancel
import UpdateEngine.Theorems.Checks
import UpdateEngine.Theorems.Downloads
import UpdateEngine.Theorems.Completeness
import UpdateEngine.Theorems.Installs
import UpdateEngine.Theorems.HandOver
import UpdateEngine.Theorems.Replacement
import UpdateEngine.Theorems.Responses
import UpdateEngine.Theorems.SameVersion
import UpdateEngine.Theorems.Names
import UpdateEngine.Theorems.Records
import UpdateEngine.Theorems.BootVerdict
import UpdateEngine.Theorems.SysInstall
import UpdateEngine.Theorems.InstallWait
import UpdateEngine.Theorems.Percent
import UpdateEngine.SortedMap
import UpdateEngine.Theorems.Terminate
import UpdateEngine.Theorems.Stored
import UpdateEngine.Theorems.StopFinal
import UpdateEngine.Theorems.Reports
import UpdateEngine.Theorems.Events
import UpdateEngine.Theorems.Strings
import UpdateEngine.Theorems.Tables
import UpdateEngine.Theorems.Space
import UpdateEngine.Theorems.Timer
import UpdateEngine.Theorems.Digest
import UpdateEngine.Theorems.VersionDigest
import UpdateEngine.Theorems.Changelog
import UpdateEngine.Theorems.Transparency
import UpdateEngine.Theorems.Registry
import UpdateEngine.Theorems.RemoteIdle
import UpdateEngine.Theorems.Kits
import UpdateEngine.Theorems.Exclusion
import UpdateEngine.Theorems.Idle
import UpdateEngine.Theorems.Networks
import UpdateEngine.Theorems.Codec
import UpdateEngine.Theorems.Vectors
import UpdateEngine.Theorems.Sizes
import UpdateEngine.Theorems.Verdict
import UpdateEngine.Theorems.Dispatch
import UpdateEngine.Theorems.Precheck
import UpdateEngine.Theorems.CombineVersion
import UpdateEngine.Theorems.Directories
import UpdateEngine.Theorems.UpgradeInfo
import UpdateEngine.Theorems.Persistence
import UpdateEngine.Theorems.Publications
import UpdateEngine.Theorems.CheckCalls
import UpdateEngine.Theorems.Updaters
import UpdateEngine.Theorems.Resumption
import UpdateEngine.Theorems.Routes
import UpdateEngine.Theorems.Admission
import UpdateEngine.Theorems.Origins
