import UpdateEngine.Firmware.Executors

/-!
# DownloadThread: what an execution reports

`ProcessThreadExecute` of a `DownloadThread`, for any owner of the object: the flags are read where the code reads them, and a report goes
to `callback_`. `downloadProgress_` is passed along, as only the object's own thread uses it. The flows of the firmware, which never stop
an object, run the same text with their own callback (`Theorems/Reports`).
-/

namespace UpdateEngine.ProgressThread.DownloadThread

open Concurrent
open UpdateEngine.DownloadThread (DOWNLOAD_FINISH_PERCENT DOWNLOAD_PERIOD_PERCENT CURLE_OK CURLE_ABORTED_BY_CALLBACK)

/-- The atomic operations of an execution. -/
inductive Op where
  -- `DownloadCallback` is entered with these arguments, and reads `exitDownload_`
  | enters (percent : UInt32) (status : UpgradeStatus)
  | getIsNoNet
  | getIsCancel
  | clearIsCancel
  | callback (downloadProgress : Progress)
  -- the file
  | getLocalFileLength
  | fopen
  | fwrite (bytes : Bytes)
  | access
  | unlink
  -- the library
  | curlEasyInit
  | curlEasyPerform (packageSize : UInt64)
  | processThreadExit
  deriving DecidableEq

/-- What an operation answers. -/
abbrev Op.Res : Op → Type
  | .enters _ _ | .getIsNoNet | .getIsCancel | .fopen | .access | .curlEasyInit => Bool
  | .getLocalFileLength => UInt64
  | .curlEasyPerform _ => Transfer
  | _ => Unit

/-- Programs of the thread. -/
abbrev Prog := Concurrent.Prog Op Op.Res

/-- The program that takes one operation. -/
abbrev call (o : Op) : Prog o.Res := Concurrent.Prog.perform o

/-- The test of `DealAbnormal`. -/
def isAbnormal : Prog Bool := do
  if ← call .getIsNoNet then return true
  call .getIsCancel

/-- `DealAbnormal`: whether it has ended the download, and `downloadProgress_` afterwards. -/
def dealAbnormal (percent : UInt32) (downloadProgress : Progress) : Prog (Bool × Progress) := do
  if !(← isAbnormal) then return (false, downloadProgress)
  -- DownloadEndReason::NET_NOT_AVAILIABLE and CANCEL
  let endReason := if ← call .getIsNoNet then "11" else "9"
  let status : UpgradeStatus := if ← call .getIsNoNet then .downloadFail else .downloadCancel
  if ← call .getIsCancel then call .clearIsCancel
  let downloadProgress : Progress := { percent := percent, status := status, endReason := endReason }
  call (.callback downloadProgress)
  return (true, downloadProgress)

/-- `DownloadCallback`: whether it returned an error, and `downloadProgress_` afterwards. -/
def downloadCallback (percent : UInt32) (status : UpgradeStatus) (error : String) (downloadProgress : Progress) :
    Prog (Bool × Progress) := do
  if ← call (.enters percent status) then return (true, downloadProgress)
  let (abnormal, downloadProgress) ← dealAbnormal percent downloadProgress
  if abnormal then return (true, downloadProgress)
  if downloadProgress.status = status && downloadProgress.percent = percent then return (false, downloadProgress)
  if status = .downloadFail then
    if ← call .access then call .unlink
  else if percent ≠ DOWNLOAD_FINISH_PERCENT && percent < downloadProgress.percent + DOWNLOAD_PERIOD_PERCENT then
    return (false, downloadProgress)
  if percent = DOWNLOAD_FINISH_PERCENT && status = .downloading then return (false, downloadProgress)
  let downloadProgress : Progress := { percent := percent, status := status, endReason := error }
  call (.callback downloadProgress)
  return (false, downloadProgress)

section Transfers

-- the percentage, by the length of the file, the total and the amount so far; the code computes it with floating-point numbers
variable (percentOf : UInt64 → Nat → Nat → UInt32)

/-- `DownloadProgress`. -/
def onDownloadProgress (dlTotal dlNow : Nat) (downloadProgress : Progress) : Prog (Bool × Progress) := do
  if dlTotal = 0 then return (false, downloadProgress)
  let curr ← call .getLocalFileLength
  downloadCallback (percentOf curr dlTotal dlNow) .downloading "" downloadProgress

/-- What `curl_easy_perform` does with what arrives, until a progress function returns an error. -/
def transfer : List TransferEvent → Progress → Prog (Bool × Progress)
  | [], downloadProgress => pure (false, downloadProgress)
  | .data bytes :: events, downloadProgress => do
    call (.fwrite bytes)
    transfer events downloadProgress
  | .progress dlTotal dlNow :: events, downloadProgress => do
    let (error, downloadProgress) ← onDownloadProgress percentOf dlTotal dlNow downloadProgress
    if error then return (true, downloadProgress)
    transfer events downloadProgress

/-- The end of `ProcessThreadExecute`, by the result of the library. -/
def finish (res : Nat) (downloadProgress : Progress) : Prog (Bool × Progress) := do
  call .processThreadExit
  if res ≠ CURLE_OK then
    if res ≠ CURLE_ABORTED_BY_CALLBACK then
      -- DownloadEndReason::CURL_ERROR
      let (_, downloadProgress) ← downloadCallback 0 .downloadFail "13" downloadProgress
      return (false, downloadProgress)
    return (false, downloadProgress)
  let (_, downloadProgress) ← downloadCallback DOWNLOAD_FINISH_PERCENT .downloadSuccess "" downloadProgress
  return (false, downloadProgress)

/-- `ProcessThreadExecute`: whether the thread is kept, and `downloadProgress_` afterwards. -/
def processThreadExecute (fileName : String) (downloadProgress : Progress) : Prog (Bool × Progress) := do
  let packageSize ← call .getLocalFileLength
  if hasDot fileName then
    let (_, downloadProgress) ← downloadCallback 0 .downloadFail "Failed to check file" downloadProgress
    return (true, downloadProgress)
  if !(← call .fopen) then
    let (_, downloadProgress) ← downloadCallback 0 .downloadFail "Failed ot open file" downloadProgress
    return (true, downloadProgress)
  if !(← call .curlEasyInit) then
    call .processThreadExit
    let (_, downloadProgress) ← downloadCallback 0 .downloadFail "Failed to init curl" downloadProgress
    return (true, downloadProgress)
  let t ← call (.curlEasyPerform packageSize)
  let (aborted, downloadProgress) ← transfer percentOf t.events downloadProgress
  finish (if aborted then CURLE_ABORTED_BY_CALLBACK else t.res) downloadProgress

end Transfers

/-- What an execution has asked, with the answers. -/
abbrev Log := List (Σ o : Op, o.Res)

/-- The reports an execution has delivered. -/
def reports (l : Log) : List Progress :=
  l.filterMap fun
    | ⟨.callback downloadProgress, _⟩ => some downloadProgress
    | _ => none

/-- A call of `DownloadCallback` found that the thread is stopped. -/
def Stopped (l : Log) : Prop := ∃ percent status, (⟨.enters percent status, true⟩ : Σ o : Op, o.Res) ∈ l

/-! ## The flows of the firmware -/

section Flows

variable (P : Platform) (f : Nat) (o : DownloadOptions) (fileName serverUrl : String)

/-- The operations as a flow of the firmware takes them: nobody stops the object, and the report goes to the executor. -/
def onFlow : (o : Op) → UpdateEngine.Prog o.Res
  | .enters _ status => do
    if status = .downloadSuccess then UpdateEngine.call (.enter (.complete fileName))
    UpdateEngine.call (.enter (.downloadThreadCallback status))
    return false
  | .getIsNoNet => UpdateEngine.call .getIsNoNet
  | .getIsCancel => UpdateEngine.call .getIsCancel
  | .clearIsCancel => UpdateEngine.call (.setIsCancel false)
  | .callback downloadProgress => FirmwareDownloadExecutor.downloadCallback P f o serverUrl fileName downloadProgress
  | .getLocalFileLength => UpdateEngine.DownloadThread.getLocalFileLength fileName
  | .fopen => UpdateEngine.call (.openFile fileName)
  | .fwrite bytes => UpdateEngine.call (.appendFile fileName bytes)
  | .access => FileUtils.isFileExist fileName
  | .unlink => UpdateEngine.call (.removeFile fileName)
  | .curlEasyInit => UpdateEngine.call (.ask .curlInit)
  | .curlEasyPerform packageSize => UpdateEngine.call (.ask (.curlPerform serverUrl packageSize))
  | .processThreadExit => pure ()

end Flows

end UpdateEngine.ProgressThread.DownloadThread
