/-
# A worker of the Windows IPC server

One turn of the loop of `CIPCServer::worker`, call by call. The worker fetches a large
request from the mapping of its sender, runs the callback, raises the response in the
sender's slot and waits until the sender is done. The callback gets `responseData` by
value, so that `resData` is null after it, whatever it does.

A worker is at its loop, in a turn, or gone: it has left the loop, or the process has
faulted on a pointer.
-/
import ExLibs.IPC.Transfer
import ExLibs.IPC.Windows.Names

namespace ExLibs.IPC.Windows

/-- `stIPCData`. -/
structure StIPCData where
  reqData : List Byte
  requestSize : ℕ
  hasRequest : Bool
  resData : List Byte
  responseSize : ℕ
  hasResponse : Bool
  needResponse : Bool
  sSenderIPCName : WString
  nSenderPID : ℕ
  timeout : ℤ
  isInit : Bool
  bCheckIPC : Bool
  isDone : Bool
  deriving DecidableEq

/-- `stIPCData()`, and what a new mapping holds. -/
def StIPCData.zero : StIPCData where
  reqData := List.replicate sizeofData 0
  requestSize := 0
  hasRequest := false
  resData := List.replicate sizeofData 0
  responseSize := 0
  hasResponse := false
  needResponse := false
  sSenderIPCName := List.replicate 256 0
  nSenderPID := 0
  timeout := 0
  isInit := false
  bCheckIPC := false
  isDone := false

/-- `stIPCData::clear`. -/
def StIPCData.clear (data : StIPCData) : StIPCData :=
  { data with
    isInit := true
    nSenderPID := 0
    hasRequest := false
    hasResponse := false
    needResponse := false
    bCheckIPC := false
    isDone := false }

/-- A request in the queue, with the call that it comes from as a record. -/
structure Queued where
  call : ℕ
  data : StIPCData

instance : Inhabited Queued := ⟨⟨0, .zero⟩⟩

/-- The local variables of a turn. A pointer that is none is null. -/
structure Job extends Queued where
  reqData : Option (List Byte)
  resData : Option (List Byte)
  hMapDataFile : Bool

/-- Where a worker is in a turn: the call that it comes to. -/
inductive WorkerPlace
  /-- `reqMutex.Open()`. -/
  | openReqMutex
  /-- `OpenFileMapping` on the request mapping. -/
  | openReqMapping
  /-- `MapViewOfFile` on it, and the call whose mapping was found. -/
  | mapReq (hMapFile : Option ℕ)
  /-- `malloc` and `memcpy`. -/
  | copyReq (mapping : ℕ)
  | unmapReq
  | callback
  /-- `resMutex.Create()`. -/
  | createResMutex
  /-- `reqMutex.Open()` on the slot of the sender. -/
  | openClientMutex
  | openClientMapping
  | mapClient (hMapFile : Bool)
  /-- It writes the head of the response. -/
  | publish
  | openResMutex
  | createData
  | mapData
  | copyData
  | unmapData
  | unmapClient
  /-- `OpenFileMapping` in the loop that waits for `isDone`. -/
  | openPoll
  | mapPoll
  | look
  | closeData
  deriving DecidableEq

/-- Where a worker is. -/
inductive WorkerPc
  | testing
  | deQueueing
  | dequeued (q : Queued)
  | busy (place : WorkerPlace) (job : Job)
  /-- It has left its loop; the field is `_isStop` at that moment, here and below. -/
  | ended (stopped : Bool)
  /-- It has read or written where nothing is mapped. -/
  | faulted (stopped : Bool)

/-- What a worker does next. -/
inductive WorkerLabel
  /-- It tests `_isStop`. -/
  | test
  | deQueue
  /-- A call to the system succeeds or fails; what cannot fail takes either label. -/
  | os (succeeds : Bool)
  /-- `OpenFileMapping` finds the request mapping of a call, or none. -/
  | find (mapping : Option ℕ)
  /-- The callback runs and leaves a number in `responseSize`. -/
  | callback (responseSize : ℕ)
  /-- It reads `isDone`. -/
  | look (isDone : Bool)
  deriving DecidableEq

/-- The request of this data goes through a mapping. -/
def StIPCData.isUsingMmap (data : StIPCData) : Bool :=
  sizeofData < data.requestSize || data.bCheckIPC

namespace Job

/-- A turn begins with a request. -/
def start (q : Queued) : WorkerPc :=
  if q.data.isUsingMmap then .busy .openReqMutex ⟨q, none, none, false⟩
  else .busy .callback ⟨q, some (q.data.reqData.take q.data.requestSize), none, false⟩

/-- The response of a turn goes through a mapping. -/
def responds (job : Job) : Bool := sizeofData < job.data.responseSize || job.data.bCheckIPC

/-- What follows the callback: the two tests that skip the response. -/
def answer (job : Job) : WorkerPc :=
  if job.data.needResponse = false ∧ job.data.bCheckIPC = false then .testing
  else if job.data.responseSize = 0 ∧ job.resData = none then .testing
  else .busy .createResMutex job

/-- The head of the loop that waits for `isDone`. Its counter stays at zero. -/
def poll (job : Job) : WorkerPc :=
  if 0 < job.data.timeout then .busy .openPoll job else .busy .closeData job

/-- One call of a turn. A view spans `view` bytes. -/
def proceed (view : ℕ) (isStop : Bool) (reqMapping : ℕ → List Byte) (job : Job) :
    WorkerPlace → WorkerLabel → Option WorkerPc
  | .openReqMutex, .os succeeds =>
    some (.busy (if succeeds then .openReqMapping else .callback) job)
  | .openReqMapping, .find mapping => some (.busy (.mapReq mapping) job)
  | .mapReq (some mapping), .os true => some (.busy (.copyReq mapping) job)
  | .mapReq _, .os false => some (.busy .callback job)
  | .copyReq mapping, .os succeeds =>
    if succeeds ∧ job.data.requestSize ≤ view then
      some (.busy .unmapReq
        { job with reqData := some ((reqMapping mapping).take job.data.requestSize) })
    else some (.faulted isStop)
  | .unmapReq, .os _ => some (.busy .callback job)
  | .callback, .callback responseSize =>
    if job.data.bCheckIPC then none
    else some (answer { job with data := { job.data with responseSize } })
  | .callback, .os _ =>
    if job.data.bCheckIPC then
      some (answer { job with
        data := { job.data with responseSize := quTestMsg.length }
        resData := some quTestMsg })
    else none
  | .createResMutex, .os succeeds =>
    some (if succeeds then .busy .openClientMutex job else .testing)
  | .openClientMutex, .os succeeds =>
    some (if succeeds then .busy .openClientMapping job else job.poll)
  | .openClientMapping, .os succeeds => some (.busy (.mapClient succeeds) job)
  | .mapClient true, .os true => some (.busy .publish job)
  -- this `break` leaves the loop over the requests
  | .mapClient _, .os false => some (.ended isStop)
  | .publish, .os _ =>
    if job.responds then some (.busy .openResMutex job)
    else
      match job.resData with
      | some _ => some (.busy .unmapClient job)
      | none => some (.faulted isStop)
  | .openResMutex, .os succeeds =>
    some (.busy (if succeeds then .createData else .unmapClient) job)
  | .createData, .os true => some (.busy .mapData { job with hMapDataFile := true })
  | .createData, .os false => some (.busy .unmapClient job)
  | .mapData, .os succeeds => some (.busy (if succeeds then .copyData else .unmapClient) job)
  | .copyData, .os _ =>
    match job.resData with
    | some _ =>
      if job.data.responseSize ≤ view then some (.busy .unmapData job) else some (.faulted isStop)
    | none => some (.faulted isStop)
  | .unmapData, .os _ => some (.busy .unmapClient job)
  | .unmapClient, .os _ => some job.poll
  | .openPoll, .os succeeds => some (.busy (if succeeds then .mapPoll else .closeData) job)
  | .mapPoll, .os succeeds => some (.busy (if succeeds then .look else .closeData) job)
  | .look, .look isDone => some (if isDone then .busy .closeData job else job.poll)
  | .closeData, .os _ => some .testing
  | _, _ => none

end Job

/-- One call of a worker in an iteration, from the moment that it has taken a request out of the
queue. -/
def WorkerPc.proceed (view : ℕ) (isStop : Bool) (reqMapping : ℕ → List Byte) :
    WorkerPc → WorkerLabel → Option WorkerPc
  | .dequeued q, .test => some (if isStop then .ended true
      else if q.data.hasRequest = false then .testing else Job.start q)
  | .busy place job, label => job.proceed view isStop reqMapping place label
  | _, _ => none

end ExLibs.IPC.Windows
