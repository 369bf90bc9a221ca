import Mathlib.Logic.Function.Basic
import UpdateEngine.Concurrent.System

/-!
# ProgressThread: the thread that is woken, stopped and left

A `ProgressThread` has one thread, `pDealThread_`, which waits at the top of its loop until `isWake_` is set, and then either leaves the
loop or runs `ProcessThreadExecute` once. `StartDownload` and `StopDownload` of `DownloadThread` set the flags under the mutex, and
`ExitThread` does so before it waits for the thread. What an execution does is left open here: it says whether it wants the thread kept.
-/

namespace UpdateEngine.ProgressThread

open Concurrent

/-- Where the thread of `ExecuteThreadFunc` stands: before the section at the top of the loop or in its wait; behind that section; in
`ProcessThreadExecute`; out of the loop, before `ProcessThreadExit`; at its end. -/
inductive Position where
  | waits
  | woken
  | executes
  | exits
  | ended
  deriving DecidableEq, Repr

/-- Where a call stands, by what it does next. -/
inductive Stage where
  -- StartDownload
  | startDownload
  | startProgress
  -- StopDownload
  | stopDownload
  | stopProgress
  | stopReturns
  -- ExitThread
  | exitThread
  | joins
  | deletes
  | returned
  deriving DecidableEq, Repr

/-- The functions that are called. -/
inductive Function where
  | startDownload
  | stopDownload
  | exitThread
  deriving DecidableEq, Repr

/-- Where a call begins. -/
def Function.entry : Function → Stage
  | .startDownload => .startDownload
  | .stopDownload => .stopDownload
  | .exitThread => .exitThread

/-- What has happened since a `StartDownload` was last in its section: the calls of `StopDownload` that were in theirs, and whether one of
them has returned; and whether any execution began after such a return. -/
structure History where
  stops : List Nat := []
  stopped : Bool := false
  late : Bool := false
  deriving DecidableEq, Repr

/-- The object (`pDealThread_` with the position of its thread), and the calls, each under a number that tells it from others. -/
structure State where
  isWake : Bool := false
  isExitThread : Bool := false
  exitDownload : Bool := false
  pDealThread : Option Position := none
  calls : Nat → Option Stage := fun _ => none
  history : History := {}

/-- What can happen next: a function is called; a call goes on, a thread being `created` if it asks for one; the thread goes on, an
execution that comes to its end having it kept or not. -/
inductive Action where
  | calls (n : Nat) (f : Function)
  | goesOn (n : Nat) (created : Bool)
  | thread (keep : Bool)
  deriving DecidableEq, Repr

namespace State

variable (s : State)

/-- A call has come to a stage. -/
def reaches (n : Nat) (t : Stage) : State := { s with calls := Function.update s.calls n (some t) }

/-- `StartProgress`: nothing but the creation of the thread can fail. -/
def startProgress (created : Bool) : State :=
  let s := { s with history := { s.history with stops := [], stopped := false } }
  match s.pDealThread with
  | some _ => { s with isWake := true }
  | none => if created then { s with pDealThread := some .waits, isWake := true } else s

/-- `StopProgress`, for the call numbered `n`. -/
def stopProgress (n : Nat) : State :=
  { s with
    isWake := true
    isExitThread := false
    history := { s.history with stops := n :: s.history.stops } }

/-- The return of a `StopDownload`: it counts unless a start came after its section. -/
def stopReturns (n : Nat) : State :=
  { s with history := { s.history with stopped := s.history.stopped || s.history.stops.contains n } }

/-- The section of `ExitThread`. -/
def exitThread : State := { s with isWake := true, isExitThread := true }

/-- The next step of a call. `ExitThread` waits for the thread that it finds; with a thread that another call has deleted meanwhile there
is no step, as its behaviour is undefined. -/
def goesOn (n : Nat) (created : Bool) : Stage → Option State
  | .startDownload => some ({ s with exitDownload := false }.reaches n .startProgress)
  | .startProgress => some ((s.startProgress created).reaches n .returned)
  | .stopDownload => some ({ s with exitDownload := true }.reaches n .stopProgress)
  | .stopProgress => some ((s.stopProgress n).reaches n .stopReturns)
  | .stopReturns => some ((s.stopReturns n).reaches n .returned)
  | .exitThread => some (s.exitThread.reaches n (if s.pDealThread.isSome then .joins else .returned))
  | .joins => if s.pDealThread = some .ended then some (s.reaches n .deletes) else none
  | .deletes => if s.pDealThread = some .ended then some ({ s with pDealThread := none }.reaches n .returned) else none
  | .returned => none

/-- An execution begins. -/
def beginsExecution : State :=
  { s with
    pDealThread := some .executes
    history := { s.history with late := s.history.late || s.history.stopped } }

/-- The next step of the thread: `ExecuteThreadFunc`. -/
def threadStep (keep : Bool) : Position → Option State
  | .waits =>
    if !s.isWake then none
    else if s.isExitThread then some { s with pDealThread := some .exits }
    else some { s with isWake := false, pDealThread := some .woken }
  | .woken => some s.beginsExecution
  | .executes => some { s with pDealThread := some (if keep then .waits else .ended) }
  | .exits => some { s with pDealThread := some .ended }
  | .ended => none

/-- One step, of a call or of the thread. -/
def step : Action → Option State
  | .calls n f => if (s.calls n).isSome then none else some (s.reaches n f.entry)
  | .goesOn n created => (s.calls n).bind (s.goesOn n created)
  | .thread keep => s.pDealThread.bind (s.threadStep keep)

end State

end UpdateEngine.ProgressThread
