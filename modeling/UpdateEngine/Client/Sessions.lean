import UpdateEngine.Client.Helper
import UpdateEngine.Ipc.Service
import UpdateEngine.SortedMap

/-!
# Sessions

What an updater of the script interface (`IUpdater`) keeps of the calls of a script that are not answered yet, and of its listeners:
`SessionManager` maps the number of a session to the session. A call queues a work for a thread of the engine; the thread makes the
request (`ExecuteWork`), and then the thread of the script completes the work (`CompleteWork`). A work knows its session by the address
of the object, and the object lives as long as the map holds it. Notices of the service come on threads of their own.

A step is what happens under one lock, or on the thread of the script between two calls of functions of the script. The script calls
the updater when the thread of the script is idle, and from within a function of its own that the updater has called.
-/

namespace UpdateEngine.Ipc.Client

variable {μ σ : Type}

/-! ## Sessions -/

/-- `SessionType`. -/
inductive SessionType where
  | SESSION_CHECK_VERSION
  | SESSION_DOWNLOAD
  | SESSION_PAUSE_DOWNLOAD
  | SESSION_RESUME_DOWNLOAD
  | SESSION_UPGRADE
  | SESSION_SET_POLICY
  | SESSION_GET_POLICY
  | SESSION_CLEAR_ERROR
  | SESSION_TERMINATE_UPGRADE
  | SESSION_GET_NEW_VERSION
  | SESSION_GET_NEW_VERSION_DESCRIPTION
  | SESSION_SUBSCRIBE
  | SESSION_UNSUBSCRIBE
  | SESSION_GET_UPDATER
  | SESSION_APPLY_NEW_VERSION
  | SESSION_FACTORY_RESET
  | SESSION_VERIFY_PACKAGE
  | SESSION_CANCEL_UPGRADE
  | SESSION_GET_CUR_VERSION
  | SESSION_GET_CUR_VERSION_DESCRIPTION
  | SESSION_GET_TASK_INFO
  | SESSION_REPLY_PARAM_ERROR
  | SESSION_MAX
  deriving DecidableEq, Repr

/-- `SessionParams`; the index of the callback is one less than its position. -/
structure SessionParams where
  type : SessionType
  callbackStartIndex : Nat
  isNeedBusinessError : Bool := false
  deriving DecidableEq, Repr

/-- `doWorker_`: a request to the service, which may use and change the members of the updater, and fills the error it is given. -/
abbrev DoWorker (μ σ : Type) := IUpdateService σ → μ → BusinessError → StateM σ (CallResult × μ × BusinessError)

/-- The classes of sessions, each with the functions of the script it holds: `UpdateAsyncession`, `UpdateAsyncessionNoCallback`,
`UpdatePromiseSession` and `UpdateListener`. -/
inductive Kind where
  | async (callback : Nat)
  | asyncNoCallback
  | promise
  | listener (eventClassifyInfo : EventClassifyInfo) (handler : Nat)
  deriving DecidableEq, Repr

/-- An `UpdateSession`; which object it is is told by the count of the sessions made before it. -/
structure Session (μ σ : Type) where
  object : Nat
  kind : Kind
  params : SessionParams
  doWorker : DoWorker μ σ
  businessError : BusinessError := {}
  workResult : CallResult := INT_CALL_SUCCESS
  asyncExecuteComplete : Bool := false

namespace Session

/-- `IsAsyncCompleteWork`. -/
def isAsyncCompleteWork (s : Session μ σ) : Bool := s.params.type = .SESSION_CHECK_VERSION

/-- `OnAsyncComplete`. -/
def onAsyncComplete (businessError : BusinessError) (s : Session μ σ) : Session μ σ :=
  { s with businessError, asyncExecuteComplete := true }

/-- What `ExecuteWork` writes when the worker is done. -/
def onExecuted (workResult : CallResult) (businessError : BusinessError) (s : Session μ σ) : Session μ σ :=
  { s with workResult, businessError }

/-- What `ExecuteWork` writes when it has waited in vain. -/
def onTimeOut (s : Session μ σ) : Session μ σ := { s with businessError := { s.businessError with errorNum := INT_TIME_OUT } }

/-- `IsWorkExecuteSuccess`. -/
def isWorkExecuteSuccess (s : Session μ σ) : Bool := s.workResult = INT_CALL_SUCCESS

end Session

/-- `GetSessionFuncParameter`: the name of a function. -/
def SessionType.funcName : SessionType → String
  | .SESSION_CHECK_VERSION => "checkNewVersion"
  | .SESSION_DOWNLOAD => "download"
  | .SESSION_PAUSE_DOWNLOAD => "pauseDownload"
  | .SESSION_RESUME_DOWNLOAD => "resumeDownload"
  | .SESSION_UPGRADE => "upgrade"
  | .SESSION_SET_POLICY => "setUpgradePolicy"
  | .SESSION_GET_POLICY => "getUpgradePolicy"
  | .SESSION_CLEAR_ERROR => "clearError"
  | .SESSION_TERMINATE_UPGRADE => "terminateUpgrade"
  | .SESSION_GET_NEW_VERSION => "getNewVersionInfo"
  | .SESSION_GET_NEW_VERSION_DESCRIPTION => "getNewVersionDescription"
  | .SESSION_SUBSCRIBE => "subscribe"
  | .SESSION_UNSUBSCRIBE => "unsubscribe"
  | .SESSION_GET_UPDATER => "getUpdater"
  | .SESSION_APPLY_NEW_VERSION => "applyNewVersion"
  | .SESSION_FACTORY_RESET => "factoryReset"
  | .SESSION_VERIFY_PACKAGE => "verifyPackage"
  | .SESSION_CANCEL_UPGRADE => "cancel"
  | .SESSION_GET_CUR_VERSION => "getCurrentVersionInfo"
  | .SESSION_GET_CUR_VERSION_DESCRIPTION => "getCurrentVersionDescription"
  | .SESSION_GET_TASK_INFO => "getTaskInfo"
  | .SESSION_REPLY_PARAM_ERROR => "replyParamError"
  | .SESSION_MAX => "max"

/-- `GetSessionFuncParameter`: the name of a permission. -/
def SessionType.permissionName (type : SessionType) : String :=
  if type = .SESSION_FACTORY_RESET then "ohos.permission.FACTORY_RESET" else "ohos.permission.UPDATE_SYSTEM"

/-- `"BusinessError " + std::to_string(COMPONENT_ERR + workResult_)`. -/
def componentErrorText (workResult : CallResult) (text : String) : String :=
  "BusinessError " ++ toString (COMPONENT_ERR + workResult).toInt ++ text

/-- The text of `BuildWorkBusinessErr`. -/
def SessionType.workErrorText (type : SessionType) (workResult : CallResult) : String :=
  if workResult = INT_NOT_SYSTEM_APP then "BusinessError 202: Caller not system app."
  else if workResult = INT_APP_NOT_GRANTED then
    "BusinessError 201: Permission denied. An attempt was made to " ++ type.funcName ++ " forbidden by permission: " ++
      type.permissionName ++ "."
  else if workResult = INT_CALL_IPC_ERR then componentErrorText workResult ": IPC error."
  else if workResult = INT_UN_SUPPORT then
    "BusinessError 801: Capability not supported. function " ++ type.funcName ++
      " can not work correctly due to limited device capabilities."
  else if workResult = INT_PARAM_ERR then "param error"
  else if workResult = INT_CALL_FAIL then componentErrorText workResult ": Execute fail."
  else if workResult = INT_FORBIDDEN then componentErrorText workResult ": Forbidden execution."
  else if workResult = INT_DEV_UPG_INFO_ERR then componentErrorText workResult ": Device info error."
  else if workResult = INT_TIME_OUT then componentErrorText workResult ": Execute timeout."
  else if workResult = INT_DB_ERROR then componentErrorText workResult ": DB error."
  else if workResult = INT_IO_ERROR then componentErrorText workResult ": IO error."
  else if workResult = INT_NET_ERROR then componentErrorText workResult ": Network error."
  else "execute error"

/-- `GetBusinessError`: the error of the session, or that of its work. -/
def Session.getBusinessError (s : Session μ σ) : BusinessError :=
  if s.isWorkExecuteSuccess then s.businessError
  else { message := s.params.type.workErrorText s.workResult, errorNum := s.workResult }

/-! ## The updater -/

/-- What a class derived from `IUpdater` adds: the value that a session is answered with (`GetUpdateResult` and the function it names;
it may make no value), and what the result of a check is stored in. -/
structure IUpdater (μ : Type) where
  getUpdateResult : SessionType → μ → Option Value
  setCheckResult : CheckResult → μ → μ

/-- What a script is answered with: a promise that is resolved or rejected, or a callback that is called. -/
inductive Settlement where
  | resolved (v : Value)
  | rejected (v : Value)
  | called (error data : Option Value)

/-- `NotifyJS` of a session that completes. The engine refuses to resolve a promise with no value. -/
def Session.notifyJS (U : IUpdater μ) (members : μ) (s : Session μ σ) : Option Settlement :=
  let businessError := s.getBusinessError
  match s.kind with
  | .promise => match ClientHelper.buildBusinessError businessError with
    | some error => some (.rejected error)
    | none => (U.getUpdateResult s.params.type members).map .resolved
  | .async _ => match ClientHelper.buildBusinessError businessError with
    | some error => some (.called (some error) none)
    | none => some (.called none (U.getUpdateResult s.params.type members))
  | .asyncNoCallback | .listener _ _ => none

/-- How far the work of a session has come: it is queued, its thread waits for the result of a check, or it is to be completed. -/
inductive Stage where
  | queued | waiting | executed
  deriving DecidableEq, Repr

/-- What the thread of the script is in: nothing, the loop of `PublishToJS` with its iterator (none at the end), a handler called from
that loop, or a callback called by `CompleteWork`. -/
inductive Frame where
  | idle
  | publishing (eventInfo : EventInfo) (iter : Option Nat)
  | inHandler (eventInfo : EventInfo) (iter object : Nat)
  | inCallback (object : Nat)
  deriving DecidableEq, Repr

/-- What must not happen: a session is used that is not alive, or an iterator is moved on whose entry was erased. -/
inductive Fault where
  | deadSession (object : Nat)
  | deadIterator (object : Nat)
  deriving DecidableEq, Repr

/-- An updater: the state of the service, its members, `g_sessionId`, the map of the sessions, the works, the errors of checks that are
about to be emitted, the events that are posted to the thread of the script, and what this thread is in. What follows is history: how
many sessions were made in the process, the works that were started and those that were completed, the results of checks that were
reported, the errors that were emitted (next to how many sessions there had been), the events that came and those that were published, and
which listener was told of which publication. -/
structure World (μ σ : Type) where
  service : σ
  members : μ
  sessionId : Nat := 0
  sessions : List (Nat × Session μ σ) := []
  works : List (Nat × Stage) := []
  emits : List BusinessError := []
  posted : List EventInfo := []
  frame : Frame := .idle
  fault : Option Fault := none
  created : Nat := 0
  started : List (Nat × SessionType × Kind) := []
  completed : List (Nat × Option Settlement) := []
  reported : List (BusinessError × CheckResult) := []
  emitted : List (Nat × BusinessError) := []
  noticed : List EventInfo := []
  published : List EventInfo := []
  notified : List (Nat × Nat) := []

/-- A session as a call asks for it. -/
structure Request (μ σ : Type) where
  params : SessionParams
  doWorker : DoWorker μ σ
  isNoCallback : Bool := false

/-- A method of an updater: what becomes of the members, and the session that is started, unless the arguments are refused. -/
abbrev Method (μ σ : Type) := List Value → μ → μ × Option (Request μ σ)

/-- The numbers of `uint32_t`. -/
def SESSION_IDS : Nat := 4294967296

namespace World

variable (w : World μ σ)

/-- The entry of the session at an address. -/
def find (object : Nat) : Option (Nat × Session μ σ) := w.sessions.find? fun e => e.2.object = object

/-- The constructor of a session: the number of the session and the object. -/
def newSession (kind : Kind) (params : SessionParams) (doWorker : DoWorker μ σ) : Nat × Session μ σ :=
  ((w.sessionId + 1) % SESSION_IDS, { object := w.created + 1, kind, params, doWorker })

/-- `AddSession`, of a session just made; without effect on the map when there is one of its number. -/
def addSession (e : Nat × Session μ σ) : World μ σ :=
  { w with sessionId := e.1, created := w.created + 1, sessions := SortedMap.emplace e.1 e.2 w.sessions }

/-- `RemoveSession`. -/
def removeSession (sessionId : Nat) : World μ σ := { w with sessions := SortedMap.erase sessionId w.sessions }

/-- What a thread writes to the session at an address. -/
def write (object : Nat) (f : Session μ σ → Session μ σ) : World μ σ :=
  { w with sessions := w.sessions.map fun e => if e.2.object = object then (e.1, f e.2) else e }

/-- What becomes of the work of a session. -/
def setStage (object : Nat) (stage : Stage) : World μ σ :=
  { w with works := w.works.map fun e => if e.1 = object then (object, stage) else e }

/-- The class of the session `StartSession` makes: with a callback when there are arguments enough. None when that argument is no
function. -/
def kindOf (request : Request μ σ) (args : List Value) : Option Kind :=
  if request.isNoCallback then some .asyncNoCallback
  else match args[request.params.callbackStartIndex]? with
    | some (.function callback) => some (.async callback)
    | some _ => none
    | none => some .promise

/-- `StartSession`: a session that cannot start its work is removed. -/
def startSession (request : Request μ σ) (args : List Value) : World μ σ :=
  match kindOf request args with
  | some kind =>
    let e := w.newSession kind request.params request.doWorker
    { w.addSession e with
      works := w.works ++ [(e.2.object, .queued)], started := w.started ++ [(e.2.object, request.params.type, kind)] }
  | none =>
    let e := w.newSession (.async 0) request.params request.doWorker
    (w.addSession e).removeSession e.1

/-- A call of a method. -/
def call (m : Method μ σ) (args : List Value) : World μ σ :=
  match m args w.members with
  | (members, some request) => { w with members }.startSession request args
  | (members, none) => { w with members }

/-- `IsSubscribeEvent`, of a session that is a listener. -/
def isSubscribeEvent (eventClassifyInfo : EventClassifyInfo) (s : Session μ σ) : Bool :=
  match s.kind with
  | .listener info _ => info.eventClassify = eventClassifyInfo.eventClassify
  | _ => false

/-- `IsSameListener`. -/
def isSameListener (eventClassifyInfo : EventClassifyInfo) (handler : Nat) (s : Session μ σ) : Bool :=
  match s.kind with
  | .listener info currentHandler => info.eventClassify = eventClassifyInfo.eventClassify && currentHandler = handler
  | _ => false

/-- `FindSessionByHandle`, whether there is one; a value that is no function is the handler of none. -/
def hasSessionOfHandle (eventClassifyInfo : EventClassifyInfo) (arg : Value) : Bool :=
  match arg with
  | .function handler => w.sessions.any fun e => isSameListener eventClassifyInfo handler e.2
  | _ => false

/-- The worker of a listener, which is never run. -/
def noWorker : DoWorker μ σ := fun _ members businessError => pure (INT_CALL_SUCCESS, members, businessError)

/-- `On`. -/
def on (args : List Value) : World μ σ :=
  match args with
  | arg :: handler :: _ =>
    match ClientHelper.getEventClassifyInfo arg {} with
    | (.CLIENT_SUCCESS, eventClassifyInfo) =>
      if w.hasSessionOfHandle eventClassifyInfo handler then w
      else
        let params : SessionParams := { type := .SESSION_SUBSCRIBE, callbackStartIndex := 1 }
        match handler with
        | .function id => w.addSession (w.newSession (.listener eventClassifyInfo id) params noWorker)
        | _ =>
          let e := w.newSession (.listener eventClassifyInfo 0) params noWorker
          (w.addSession e).removeSession e.1
    | _ => w
  | _ => w

/-- `Unsubscribe`, of one handler or of all. -/
def unsubscribe (eventClassifyInfo : EventClassifyInfo) (handle : Option Nat) : World μ σ :=
  { w with sessions := w.sessions.filter fun e => !(match handle with
    | none => isSubscribeEvent eventClassifyInfo e.2
    | some handler => isSameListener eventClassifyInfo handler e.2) }

/-- `Off`. -/
def off (args : List Value) : World μ σ :=
  match args with
  | [] => w
  | arg :: rest =>
    match ClientHelper.getEventClassifyInfo arg {}, rest with
    | (.CLIENT_SUCCESS, eventClassifyInfo), [] => w.unsubscribe eventClassifyInfo none
    | (.CLIENT_SUCCESS, eventClassifyInfo), .function handler :: _ => w.unsubscribe eventClassifyInfo (some handler)
    | _, _ => w

/-! ## Steps -/

/-- The thread of the script can run functions of the script. -/
def runsScript : Bool :=
  match w.frame with
  | .publishing _ _ => false
  | _ => true

/-- `sessionMutex_` is held: by the thread of the script while it publishes. -/
def isLocked : Bool :=
  match w.frame with
  | .publishing _ _ | .inHandler _ _ _ => true
  | _ => false

/-- The session that comes after a number in the map. -/
def next (iter : Nat) : Option Nat := (w.sessions.find? fun e => iter < e.1).map Prod.fst

/-- `ExecuteWork`, up to the wait. -/
def executeWork (kit : IUpdateService σ) (s : Session μ σ) : World μ σ :=
  let ((workResult, members, businessError), service) := (s.doWorker kit w.members s.businessError).run w.service
  let businessError := if s.params.isNeedBusinessError then businessError else s.businessError
  let w := { w with members, service }.write s.object (·.onExecuted workResult businessError)
  w.setStage s.object (if s.isAsyncCompleteWork && workResult = INT_CALL_SUCCESS then .waiting else .executed)

/-- `CompleteWork`, up to the callback, and all of it without one. -/
def completeWork (U : IUpdater μ) (e : Nat × Session μ σ) : World μ σ :=
  let w' := { w with
    works := w.works.filter fun work => work.1 ≠ e.2.object
    completed := w.completed ++ [(e.2.object, e.2.notifyJS U w.members)] }
  match e.2.kind with
  | .async _ => { w' with frame := .inCallback e.2.object }
  | _ => w'.removeSession e.1

/-- One step of the loop of `PublishToJS`. -/
def publishToJS (eventInfo : EventInfo) (e : Nat × Session μ σ) : World μ σ :=
  if isSubscribeEvent { eventClassify := EventClassify.TASK } e.2 && (ClientHelper.buildEventInfo eventInfo).isSome then
    { w with notified := w.notified ++ [(w.published.length, e.2.object)], frame := .inHandler eventInfo e.1 e.2.object }
  else { w with frame := .publishing eventInfo (w.next e.1) }

/-- `Emit`, of the end of a check. -/
def emit (businessError : BusinessError) : World μ σ :=
  { w with
    sessions := w.sessions.map fun e => if e.2.isAsyncCompleteWork then (e.1, e.2.onAsyncComplete businessError) else e
    emitted := w.emitted ++ [(w.created, businessError)] }

end World

/-- What can happen: calls of the script; another updater of the process makes a session; the service does something of its own; a
thread executes the work of a session, is woken, or waits no longer; the thread of the script completes a work, or comes back from the
callback; the service reports the end of a check, which is emitted to the sessions in a second step, or an event; and the thread of the
script publishes an event that is posted (the loop of events promises no order), session by session. -/
inductive Action (μ σ : Type) where
  | call (m : Method μ σ) (args : List Value)
  | on (args : List Value)
  | off (args : List Value)
  | otherSession
  | serviceMoves (s : σ)
  | execute (object : Nat)
  | wake (object : Nat)
  | timeout (object : Nat)
  | complete (object : Nat)
  | completed
  | notifyCheckVersionDone (businessError : BusinessError) (checkResult : CheckResult)
  | emit (businessError : BusinessError)
  | notifyEvent (eventInfo : EventInfo)
  | publish (i : Nat)
  | publishNext

/-- One step; none when it is not possible. Nothing happens after a fault. -/
def World.step (U : IUpdater μ) (kit : IUpdateService σ) (w : World μ σ) : Action μ σ → Option (World μ σ)
  | a => if w.fault.isSome then none else match a with
    | .call m args => if w.runsScript then some (w.call m args) else none
    | .on args => if w.runsScript then some (w.on args) else none
    | .off args => if w.runsScript then some (w.off args) else none
    | .otherSession => if w.runsScript then
        some { w with sessionId := (w.sessionId + 1) % SESSION_IDS, created := w.created + 1 } else none
    | .serviceMoves s => some { w with service := s }
    | .execute object => match w.works.lookup object with
      | some .queued => match w.find object with
        | some e => some (w.executeWork kit e.2)
        | none => some { w with fault := some (.deadSession object) }
      | _ => none
    | .wake object => match w.works.lookup object with
      | some .waiting => match w.find object with
        | some e => if e.2.asyncExecuteComplete then some (w.setStage object .executed) else none
        | none => some { w with fault := some (.deadSession object) }
      | _ => none
    | .timeout object => match w.works.lookup object with
      | some .waiting => match w.find object with
        | some e => if e.2.asyncExecuteComplete then none
          else some ((w.write object (·.onTimeOut)).setStage object .executed)
        | none => some { w with fault := some (.deadSession object) }
      | _ => none
    | .complete object => match w.frame, w.works.lookup object with
      | .idle, some .executed => match w.find object with
        | some e => some (w.completeWork U e)
        | none => some { w with fault := some (.deadSession object) }
      | _, _ => none
    | .completed => match w.frame with
      | .inCallback object => match w.find object with
        | some e => some { w.removeSession e.1 with frame := .idle }
        | none => some { w with fault := some (.deadSession object) }
      | _ => none
    | .notifyCheckVersionDone businessError checkResult =>
      some { w with
        members := U.setCheckResult checkResult w.members
        emits := w.emits ++ [businessError]
        reported := w.reported ++ [(businessError, checkResult)] }
    | .emit businessError =>
      if !w.isLocked && w.emits.contains businessError then
        some { w.emit businessError with emits := w.emits.erase businessError } else none
    | .notifyEvent eventInfo => some { w with posted := w.posted ++ [eventInfo], noticed := w.noticed ++ [eventInfo] }
    | .publish i => match w.frame, w.posted[i]? with
      | .idle, some eventInfo => some { w with
          posted := w.posted.eraseIdx i
          published := w.published ++ [eventInfo]
          frame := .publishing eventInfo (w.sessions.head?.map Prod.fst) }
      | _, _ => none
    | .publishNext => match w.frame with
      | .publishing _ none => some { w with frame := .idle }
      | .publishing eventInfo (some iter) => (SortedMap.find w.sessions iter).map fun s => w.publishToJS eventInfo (iter, s)
      | .inHandler eventInfo iter object => match SortedMap.find w.sessions iter with
        | some s => if s.object = object then some { w with frame := .publishing eventInfo (w.next iter) }
          else some { w with fault := some (.deadIterator object) }
        | none => some { w with fault := some (.deadIterator object) }
      | _ => none

end UpdateEngine.Ipc.Client
