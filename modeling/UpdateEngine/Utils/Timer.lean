import Mathlib.Logic.Function.Basic

/-!
# The timer table

`dupdate_timer.c`. The functions hold the mutex of the table from their first look at it to their return, so each of them is one
step. Of the operating system the model keeps how many timers it has created and the handles `timer_delete` was called with.
-/

namespace UpdateEngine.Timer

abbrev TIMERLIST_LEN : Nat := 16

def OHOS_SUCCESS : Int32 := 0
def OHOS_FAILURE : Int32 := -1

/-- `UpdateTimer`. A handle (`timer_t`) is the number of the timer in the order of their creation, from 1; 0 is what `memset`
leaves. -/
structure UpdateTimer where
  timeout : UInt32 := 0
  timerId : Nat := 0
  deriving DecidableEq, Repr

/-- `TimerObject`: a slot of the table. It is free when `tid` is 0. -/
structure TimerObject where
  timer : UpdateTimer := {}
  tid : UInt32 := 0
  deriving DecidableEq, Repr

/-- `g_timerList`, and what the operating system was asked for. -/
structure State where
  timerList : Fin TIMERLIST_LEN → TimerObject := fun _ => {}
  created : Nat := 0
  deletes : List Nat := []

/-- `GetTimerById`: the slot of an id. -/
def getTimerById (s : State) (tid : UInt32) : Option (Fin TIMERLIST_LEN) :=
  if tid = 0 then none else (List.finRange TIMERLIST_LEN).find? fun i => (s.timerList i).tid = tid

/-- `RegisterCycleTimerCB`: the id, and 0 when the slots from 1 on are taken or `timer_create` fails. -/
def registerCycleTimerCB (s : State) (timeout : UInt32) (created : Bool) : UInt32 × State :=
  match (List.finRange TIMERLIST_LEN).tail.find? fun i => (s.timerList i).tid = 0 with
  | some i =>
    if created then
      let slot : TimerObject := { timer := { timeout, timerId := s.created + 1 }, tid := UInt32.ofNat i }
      (UInt32.ofNat i, { s with created := s.created + 1, timerList := Function.update s.timerList i slot })
    else (0, s)
  | none => (0, s)

/-- `DeregisterCycleTimerCB`: the slot is free afterwards whether `timer_delete` succeeds or not. -/
def deregisterCycleTimerCB (s : State) (tid : UInt32) (deleted : Bool) : Int32 × State :=
  if h : tid.toNat < TIMERLIST_LEN then
    let i : Fin TIMERLIST_LEN := ⟨tid.toNat, h⟩
    if (s.timerList i).tid = tid then
      (if deleted then OHOS_SUCCESS else -1,
        { s with
          deletes := s.deletes ++ [(s.timerList i).timer.timerId]
          timerList := Function.update s.timerList i { s.timerList i with tid := 0 } })
    else (OHOS_FAILURE, s)
  else (OHOS_FAILURE, s)

/-- `ExitUpdateTimer`: the timers of all slots that are not free are deleted (a failure is only logged), and the table is emptied. -/
def exitUpdateTimer (s : State) : State :=
  { s with
    deletes := s.deletes ++
      ((List.finRange TIMERLIST_LEN).filter fun i => (s.timerList i).tid ≠ 0).map fun i => (s.timerList i).timer.timerId
    timerList := fun _ => {} }

/-- A call of one of the functions, with what the operating system answers. -/
inductive Op where
  | register (timeout : UInt32) (created : Bool)
  | deregister (tid : UInt32) (deleted : Bool)
  | exit
  deriving DecidableEq, Repr

/-- The table after a call. -/
def Op.apply (s : State) : Op → State
  | .register timeout created => (registerCycleTimerCB s timeout created).2
  | .deregister tid deleted => (deregisterCycleTimerCB s tid deleted).2
  | .exit => exitUpdateTimer s

/-- The table after a sequence of calls: `InitUpdateTimer` empties it first. -/
def run (ops : List Op) : State := ops.foldl Op.apply {}

/-- An id is live while its slot holds it. -/
def State.Live (s : State) (tid : UInt32) : Prop := tid ≠ 0 ∧ ∃ i, (s.timerList i).tid = tid

/-- A timer is held while the slot that keeps its handle is not free. -/
def State.Holds (s : State) (h : Nat) : Prop := ∃ i, (s.timerList i).tid ≠ 0 ∧ (s.timerList i).timer.timerId = h

end UpdateEngine.Timer
