import UpdateEngine.Firmware.Analyze
import UpdateEngine.Loop

/-!
# Waiting for the system installer

`ConfigParse` and the loop of `SysInstallerInstall::WaitInstallResult` with its counter. What a poll reads of the progress is whatever
the callbacks of the installer have written by then.
-/

namespace UpdateEngine

/-- `GetValueAndSetTo` for a `uint32_t`: any number is accepted and cast. -/
def JsonUtils.getUint32 (j : Json) (key : String) (value : UInt32) : Nat × UInt32 :=
  match j.find key with
  | none => (MISSING_PROP, value)
  | some (.num n) => (ERR_OK, UInt32.ofInt n)
  | some (.float n) => (ERR_OK, UInt32.ofInt n)
  | some _ => (TYPE_ERROR, value)

namespace ConfigParse

/-- `ConfigInfo::abInstallTimeout` before a configuration is read, in seconds. -/
def abInstallTimeout : UInt32 := 1800

/-- `LoadConfigInfo`: what `GetAbInstallerTimeout` returns once the file has been read, when it can be opened. -/
def loadConfigInfo (P : Platform) (readFile : Option String) : UInt32 :=
  match readFile.bind P.jsonParse with
  | none => abInstallTimeout
  | some root => (JsonUtils.getUint32 root "abInstallTimeout" abInstallTimeout).2

end ConfigParse

/-- Whether a progress reports that an installation is complete. -/
def Progress.isInstalled (p : Progress) : Bool := p.status = .installSuccess && p.percent = Firmware.ONE_HUNDRED

namespace SysInstallerInstall

/-- The counter of `WaitInstallResult`, the polls it has made, and what it has returned, if it has. -/
structure Waiting where
  timeout : UInt32 := 0
  polls : Nat := 0
  result : Option Bool := none
  deriving DecidableEq, Repr

/-- A round of the loop of `WaitInstallResult`. A poll reads the status and the percentage once; poll `i` reads `observe i`. -/
def waitRound (configTime : UInt32) (observe : Nat → Progress) (w : Waiting) : Option Waiting :=
  if w.result.isSome then none
  else if w.timeout ≤ configTime then
    if (observe w.polls).status = .installFail then some { w with polls := w.polls + 1, result := some false }
    else if (observe w.polls).isInstalled then some { w with polls := w.polls + 1, result := some true }
    else some { w with timeout := w.timeout + 1, polls := w.polls + 1 }
  else none

/-- `WaitInstallResult` returns after a number of polls, with a result; when the loop comes to its end that is a failure. -/
def WaitReturns (configTime : UInt32) (observe : Nat → Progress) (polls : Nat) (result : Bool) : Prop :=
  ∃ w, Loop.Ends (waitRound configTime observe) {} w ∧ w.polls = polls ∧ w.result.getD false = result

end SysInstallerInstall

end UpdateEngine
