import UpdateEngine.Firmware.Modes

/-!
# FirmwareFlowManager

A flow asks its mode for the next step, starts the executor of that step in a thread of its own, and is asked again when the
executor reports back. `f` is the flow itself and `mode` its mode, which is set before the flow starts (so the tests for a missing
mode are left out): the threads it starts are named after both.
-/

namespace UpdateEngine

open Concurrent

namespace FirmwareFlowManager

/-- `CreateInstance` and `Execute` of the executor it creates: each starts a thread; a check is noted first. -/
def createInstance (f : Nat) (mode : Mode) (step : FirmwareStep) : Prog Unit :=
  match step, mode with
  | .checkStep, .manualCheck => do
    FirmwareStatusCache.setIsChecking true
    call (.spawn (.checkExecutor f))
  | .downloadStep, .download o => call (.spawn (.downloadExecutor f o))
  | .installStep, .installApply o t => call (.spawn (.installExecutor f o t))
  | .applyStep, .installApply o t => call (.spawn (.applyExecutor f o t))
  | _, _ => pure ()

/-- `Execute` and `Complete`. (The callback of `HandleComplete` deletes the flow; what the code would then do with the deleted
object has no meaning, and the model lets the threads go on.) -/
def execute (P : Platform) (f : Nat) (mode : Mode) : Prog Unit := do
  let step ← call .getNextStep
  let nextStep ← getNextStep P mode step
  call (.setFlow (.nextStep nextStep))
  if nextStep = .complete then handleComplete P mode else createInstance f mode nextStep

/-- `OnCheckCallback`. -/
def onCheckCallback (P : Platform) (f : Nat) (status : CheckStatus) (componentList : List FirmwareComponent) : Prog Unit := do
  FirmwareCheckDataProcessor.setCheckResult P status componentList
  execute P f .manualCheck

/-- `OnDownloadCallback`. -/
def onDownloadCallback (P : Platform) (f : Nat) (o : DownloadOptions) (progress : Progress) : Prog Unit := do
  call (.enter (.onDownloadCallback progress))
  FirmwareDownloadDataProcessor.setDownloadProgress progress
  if progress.status ≠ .downloading then execute P f (.download o)

/-- `OnInstallCallback`. -/
def onInstallCallback (P : Platform) (f : Nat) (o : UpgradeOptions) (installType : InstallType)
    (installCallbackInfo : InstallCallbackInfo) : Prog Unit := do
  FirmwareInstallDataProcessor.setInstallResult installCallbackInfo
  if installCallbackInfo.progress.status ≠ .installing then execute P f (.installApply o installType)

/-- `OnApplyCallback`: the result is only logged. -/
def onApplyCallback (P : Platform) (f : Nat) (o : UpgradeOptions) (installType : InstallType) : Prog Unit :=
  execute P f (.installApply o installType)

end FirmwareFlowManager

end UpdateEngine
