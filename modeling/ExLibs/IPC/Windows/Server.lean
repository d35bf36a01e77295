/-
# A Windows IPC server and its clients

One server slot, any number of `SendIPC` calls that post into it, `CIPCServer::main`, which
moves requests from the slot into the queue, and the workers. Each section under the server
mutex is one step; every call to the system may fail.

`SendIPC` raises `hasRequest` before the data is in place, and copies a large request the
wrong way, out of its request mapping, so that the mapping keeps the zeros it was made of.
-/
import Mathlib.Logic.Function.Basic
import ExLibs.Math.Memory
import ExLibs.Math.OneSlot
import ExLibs.Math.Transition
import ExLibs.Util.EventQueue
import ExLibs.IPC.Windows.Worker

namespace ExLibs.IPC.Windows

open ExLibs.Math ExLibs.Util

/-- The arguments of a call of `SendIPC`, with what it finds out about itself. -/
structure SendArgs where
  sIPCClientName : WString
  nSenderPID : ℕ
  requestData : List Byte
  timeOutSec : ℤ
  bCheckIPC : Bool

/-- Where a call of `SendIPC` is. -/
inductive SendPc
  | absent
  /-- It is in its post loop. -/
  | posting
  /-- `isSendSuccess` is true. -/
  | sent
  | gaveUp
  /-- It has read where nothing is mapped. -/
  | faulted
  deriving DecidableEq

/-- How the calls to the system go in one attempt to post. -/
structure PostOutcomes where
  serverMutex : Bool
  openMapping : Bool
  mapView : Bool
  reqMutex : Bool
  mapReq : Bool
  malloc : Bool
  deriving DecidableEq

/-- What an attempt to post comes to. -/
inductive PostResult
  | untouched
  | sent (slot : StIPCData)
  /-- The attempt ends without success after it has raised `hasRequest`. -/
  | abandoned (slot : StIPCData) (faulted : Bool)

/-- The longest name that `CreateMutex` takes. -/
def maxPath : ℕ := 260

/-- The fields that an attempt writes before it looks at the size. -/
def SendArgs.fill (args : SendArgs) (now : ℤ) (slot : StIPCData) : StIPCData :=
  { slot with
    hasResponse := false
    nSenderPID := args.nSenderPID
    requestSize := args.requestData.length
    -- no terminator is copied
    sSenderIPCName := memcpy slot.sSenderIPCName args.sIPCClientName
    hasRequest := true
    needResponse := true
    timeout := now + args.timeOutSec
    bCheckIPC := args.bCheckIPC }

/-- The request goes through a mapping. -/
def SendArgs.isUsingMmap (args : SendArgs) : Bool :=
  sizeofData < args.requestData.length || args.bCheckIPC

/-- The attempt finds the slot mapped, initialised and without a request. -/
def PostOutcomes.enters (os : PostOutcomes) (slot : StIPCData) : Bool :=
  os.serverMutex && os.openMapping && os.mapView && slot.isInit && !slot.hasRequest

/-- The calls that follow `hasRequest` succeed, as far as they are looked at. -/
def PostOutcomes.completes (view : ℕ) (os : PostOutcomes) (args : SendArgs) : Bool :=
  !args.isUsingMmap || !os.reqMutex || os.mapReq && os.malloc && args.requestData.length ≤ view

/-- One attempt to post. A view spans `view` bytes. -/
def post (view : ℕ) (args : SendArgs) (now : ℤ) (os : PostOutcomes) (slot : StIPCData) :
    PostResult :=
  if os.enters slot then
    if args.isUsingMmap then
      -- that the mutex does not open is passed over
      if os.reqMutex = false then .sent (args.fill now slot)
      else if os.mapReq = false then .abandoned (args.fill now slot) false
      -- `memcpy` fills fresh memory from the mapping
      else if os.malloc ∧ args.requestData.length ≤ view then .sent (args.fill now slot)
      else .abandoned (args.fill now slot) true
    else
      .sent { args.fill now slot with reqData := memcpy slot.reqData args.requestData }
  else .untouched

/-- What the callback was called with, and for which call. -/
structure Served where
  call : ℕ
  requestData : Option (List Byte)
  requestSize : ℕ
  deriving DecidableEq

/-- A server with its clients. `poster` and the last four fields are records: the call that
raised `hasRequest` last, the calls that have raised it, those whose request `main` has
discarded, the requests it has put into the queue, and the calls of the callback. -/
structure Server where
  calls : ℕ
  args : ℕ → SendArgs
  pc : ℕ → SendPc
  reqMapping : ℕ → List Byte
  slot : StIPCData
  queue : EventQueue Queued
  isStop : Bool
  worker : ℕ → WorkerPc
  poster : ℕ
  posted : List ℕ
  discarded : List ℕ
  enqueued : List Queued
  served : List Served

/-- A step of a client, of `main`, of a worker or of the destructor. -/
inductive ServerLabel
  | begin (args : SendArgs)
  | attempt (call : ℕ) (now : ℤ) (os : PostOutcomes)
  | giveUp (call : ℕ)
  /-- One section of `main`: whether it maps the slot, and whether the sender still runs. -/
  | main (mapped running : Bool)
  | stop
  | stopQueue
  | worker (w : ℕ) (label : WorkerLabel)

namespace Server

/-- A server whose slot is new. -/
def start : Server where
  calls := 0
  args _ := ⟨[], 0, [], 0, false⟩
  pc _ := .absent
  reqMapping _ := []
  slot := StIPCData.zero.clear
  queue := .empty
  isStop := false
  worker _ := .testing
  poster := 0
  posted := []
  discarded := []
  enqueued := []
  served := []

/-- A call moves on. -/
def goto (s : Server) (call : ℕ) (pc : SendPc) : Server :=
  { s with pc := Function.update s.pc call pc }

/-- A worker moves on. -/
def gotoWorker (s : Server) (w : ℕ) (pc : WorkerPc) : Server :=
  { s with worker := Function.update s.worker w pc }

@[simp]
theorem gotoWorker_self (s : Server) (w : ℕ) (pc : WorkerPc) : (s.gotoWorker w pc).worker w = pc :=
  Function.update_self ..

@[simp]
theorem gotoWorker_of_ne (s : Server) {w v : ℕ} (pc : WorkerPc) (other : v ≠ w) :
    (s.gotoWorker w pc).worker v = s.worker v :=
  Function.update_of_ne other ..

/-- A call raises `hasRequest`. -/
def raise (s : Server) (call : ℕ) (slot : StIPCData) (pc : SendPc) : Server :=
  { s.goto call pc with slot, poster := call, posted := s.posted ++ [call] }

/-- The mapping that a worker may find: that of a call with the name it reads. -/
def finds (s : Server) (job : Job) : WorkerLabel → Bool
  | .find (some mapping) => mapping < s.calls ∧
      getRequestIPCName (s.args mapping).sIPCClientName =
        getRequestIPCName (terminated job.data.sSenderIPCName)
  | _ => true

/-- The call of the callback that a step makes. -/
def serve (job : Job) : WorkerPlace → WorkerLabel → List Served
  | .callback, .callback _ => [⟨job.call, job.reqData, job.data.requestSize⟩]
  | _, _ => []

/-- A step of a worker. -/
def stepWorker (view : ℕ) (s : Server) (w : ℕ) (label : WorkerLabel) : Option Server :=
  match s.worker w, label with
  | .testing, .test => some (s.gotoWorker w (if s.isStop then .ended true else .deQueueing))
  | .deQueueing, .deQueue => s.queue.deQueue.map fun (q, queue) =>
    { s.gotoWorker w (.dequeued q) with queue }
  | .dequeued q, .test => some (s.gotoWorker w
      (if s.isStop then .ended true
      else if q.data.hasRequest = false then .testing
      else Job.start q))
  | .busy place job, label =>
    if s.finds job label then
      (job.proceed view s.isStop s.reqMapping place label).map fun pc =>
        { s.gotoWorker w pc with served := s.served ++ serve job place label }
    else none
  | _, _ => none

/-- One step, if the label is enabled. There are `nMaxThreadCount - 1` workers. -/
def step (view nMaxThreadCount : ℕ) (s : Server) : ServerLabel → Option Server
  | .begin args =>
    -- a call whose request mutex cannot be created does not post
    some { s.goto s.calls
        (if (getRequestIPCName args.sIPCClientName).length ≤ maxPath then .posting else .gaveUp) with
      calls := s.calls + 1
      args := Function.update s.args s.calls args
      reqMapping := Function.update s.reqMapping s.calls (List.replicate view 0) }
  | .attempt call now os =>
    match s.pc call with
    | .posting =>
      match post view (s.args call) now os s.slot with
      | .untouched => some s
      | .sent slot => some (s.raise call slot .sent)
      | .abandoned slot faulted =>
        some (s.raise call slot (if faulted then .faulted else .posting))
    | _ => none
  | .giveUp call =>
    match s.pc call with
    | .posting => some (s.goto call .gaveUp)
    | _ => none
  | .main mapped running =>
    if mapped ∧ s.slot.hasRequest then
      if running then some { s with
        slot := s.slot.clear
        queue := s.queue.enQueue ⟨s.poster, s.slot⟩
        enqueued := s.enqueued ++ [⟨s.poster, s.slot⟩] }
      else some { s with slot := s.slot.clear, discarded := s.discarded ++ [s.poster] }
    else some s
  | .stop => some { s with isStop := true }
  | .stopQueue => if s.isStop then some { s with queue := s.queue.stop } else none
  | .worker w label => if w + 1 < nMaxThreadCount then s.stepWorker view w label else none

variable {view nMaxThreadCount : ℕ} {s t : Server} {label : ServerLabel}

/-- What a step of a worker does. -/
inductive WorkerStep (view : ℕ) (s : Server) (w : ℕ) : WorkerLabel → Server → Prop
  | test (testing : s.worker w = .testing) :
      WorkerStep view s w .test (s.gotoWorker w (if s.isStop then .ended true else .deQueueing))
  | deQueue {q : Queued} {queue : EventQueue Queued} (waiting : s.worker w = .deQueueing)
      (takes : s.queue.deQueue = some (q, queue)) :
      WorkerStep view s w .deQueue { s.gotoWorker w (.dequeued q) with queue }
  | leave {q : Queued} (dequeued : s.worker w = .dequeued q) (stopped : s.isStop = true) :
      WorkerStep view s w .test (s.gotoWorker w (.ended true))
  | skip {q : Queued} (dequeued : s.worker w = .dequeued q)
      (none : q.data.hasRequest = false) : WorkerStep view s w .test (s.gotoWorker w .testing)
  | start {q : Queued} (dequeued : s.worker w = .dequeued q)
      (request : q.data.hasRequest = true) :
      WorkerStep view s w .test (s.gotoWorker w (Job.start q))
  | proceed {place : WorkerPlace} {job : Job} {label : WorkerLabel} {pc : WorkerPc}
      (busy : s.worker w = .busy place job) (finds : s.finds job label = true)
      (goes : job.proceed view s.isStop s.reqMapping place label = some pc) :
      WorkerStep view s w label
        { s.gotoWorker w pc with served := s.served ++ serve job place label }

/-- What a step does. -/
inductive Step (view nMaxThreadCount : ℕ) (s : Server) : ServerLabel → Server → Prop
  | begin {args : SendArgs} {pc : SendPc} (begins : pc = .posting ∨ pc = .gaveUp) :
      Step view nMaxThreadCount s (.begin args) { s.goto s.calls pc with
        calls := s.calls + 1
        args := Function.update s.args s.calls args
        reqMapping := Function.update s.reqMapping s.calls (List.replicate view 0) }
  | untouched {call : ℕ} {now : ℤ} {os : PostOutcomes} (posting : s.pc call = .posting)
      (stays : os.enters s.slot = false) : Step view nMaxThreadCount s (.attempt call now os) s
  | sent {call : ℕ} {now : ℤ} {os : PostOutcomes} {reqData : List Byte}
      (posting : s.pc call = .posting) (enters : os.enters s.slot = true)
      (completes : os.completes view (s.args call) = true)
      (copied : (s.args call).isUsingMmap = false →
        reqData = memcpy s.slot.reqData (s.args call).requestData) :
      Step view nMaxThreadCount s (.attempt call now os)
        (s.raise call { (s.args call).fill now s.slot with reqData } .sent)
  | abandoned {call : ℕ} {now : ℤ} {os : PostOutcomes} {pc : SendPc}
      (posting : s.pc call = .posting) (enters : os.enters s.slot = true)
      (fails : os.completes view (s.args call) = false) (mapped : (s.args call).isUsingMmap = true)
      (left : pc = .posting ∨ pc = .faulted) :
      Step view nMaxThreadCount s (.attempt call now os)
        (s.raise call ((s.args call).fill now s.slot) pc)
  | giveUp {call : ℕ} (posting : s.pc call = .posting) :
      Step view nMaxThreadCount s (.giveUp call) (s.goto call .gaveUp)
  | idle {mapped running : Bool} (nothing : mapped = false ∨ s.slot.hasRequest = false) :
      Step view nMaxThreadCount s (.main mapped running) s
  | enqueue (request : s.slot.hasRequest = true) :
      Step view nMaxThreadCount s (.main true true) { s with
        slot := s.slot.clear
        queue := s.queue.enQueue ⟨s.poster, s.slot⟩
        enqueued := s.enqueued ++ [⟨s.poster, s.slot⟩] }
  | discard (request : s.slot.hasRequest = true) :
      Step view nMaxThreadCount s (.main true false)
        { s with slot := s.slot.clear, discarded := s.discarded ++ [s.poster] }
  | stop : Step view nMaxThreadCount s .stop { s with isStop := true }
  | stopQueue (stopped : s.isStop = true) :
      Step view nMaxThreadCount s .stopQueue { s with queue := s.queue.stop }
  | worker {w : ℕ} {label : WorkerLabel} {t : Server} (created : w + 1 < nMaxThreadCount)
      (works : WorkerStep view s w label t) : Step view nMaxThreadCount s (.worker w label) t

theorem stepWorker_cases {w : ℕ} {label : WorkerLabel}
    (next : s.stepWorker view w label = some t) : WorkerStep view s w label t := by
  unfold stepWorker at next
  split at next
  · exact Option.some.inj next ▸ .test ‹_›
  · obtain ⟨⟨q, queue⟩, takes, rfl⟩ := Option.map_eq_some_iff.mp next
    exact .deQueue ‹_› takes
  · obtain rfl := Option.some.inj next
    split_ifs with stopped request
    · exact .leave ‹_› stopped
    · exact .skip ‹_› request
    · exact .start ‹_› (Bool.eq_true_of_not_eq_false request)
  · split_ifs at next with finds
    obtain ⟨pc, goes, rfl⟩ := Option.map_eq_some_iff.mp next
    exact .proceed ‹_› finds goes
  · cases next

theorem step_cases (next : s.step view nMaxThreadCount label = some t) :
    Step view nMaxThreadCount s label t := by
  cases label with
  | begin args =>
    refine Option.some.inj next ▸ .begin ?_
    split
    · exact .inl rfl
    · exact .inr rfl
  | attempt call now os =>
    simp only [step] at next
    split at next
    · rename_i posting
      unfold post at next
      split_ifs at next with enters mapped noMutex noMap copied
      · exact Option.some.inj next ▸
          .sent posting enters (by simp [PostOutcomes.completes, noMutex]) (by simp [mapped])
      · exact Option.some.inj next ▸ .abandoned posting enters
          (by simp [PostOutcomes.completes, mapped, noMutex, noMap]) mapped (.inl rfl)
      · exact Option.some.inj next ▸ .sent posting enters
          (by simp [PostOutcomes.completes, copied, noMap]) (by simp [mapped])
      · have faults : os.completes view (s.args call) = false := by
          simp only [PostOutcomes.completes, mapped, noMutex, Bool.not_true, Bool.false_or,
            Bool.and_eq_false_imp, Bool.and_assoc]
          exact fun _ alloc => decide_eq_false fun fits => copied ⟨alloc, fits⟩
        exact Option.some.inj next ▸ .abandoned posting enters faults mapped (.inr rfl)
      · exact Option.some.inj next ▸ .sent posting enters
          (by simp [PostOutcomes.completes, mapped]) fun _ => rfl
      · exact Option.some.inj next ▸ .untouched posting (Bool.eq_false_iff.mpr enters)
    · cases next
  | giveUp call =>
    simp only [step] at next
    split at next
    · exact Option.some.inj next ▸ .giveUp ‹_›
    · cases next
  | main mapped running =>
    simp only [step] at next
    split_ifs at next with request runs
    · obtain ⟨rfl, request⟩ := request
      subst runs
      exact Option.some.inj next ▸ .enqueue request
    · obtain ⟨rfl, request⟩ := request
      obtain rfl := Bool.eq_false_iff.mpr runs
      exact Option.some.inj next ▸ .discard request
    · refine Option.some.inj next ▸ .idle ?_
      rwa [not_and_or, Bool.not_eq_true, Bool.not_eq_true] at request
  | stop => exact Option.some.inj next ▸ .stop
  | stopQueue =>
    simp only [step] at next
    split_ifs at next with stopped
    exact Option.some.inj next ▸ .stopQueue stopped
  | worker w label =>
    simp only [step] at next
    split_ifs at next with created
    exact .worker created (stepWorker_cases next)

/-- The slot, as a mailbox that holds the call which has posted. -/
def mailbox (s : Server) : OneSlot ℕ where
  slot := if s.slot.hasRequest then some s.poster else none
  put := s.posted
  taken := s.enqueued.map (·.call)
  discarded := s.discarded

/-- A worker leaves the slot and what has passed through it alone. -/
theorem mailbox_of_worker {w : ℕ} {label : WorkerLabel} (works : WorkerStep view s w label t) :
    t.mailbox = s.mailbox := by
  cases works <;> rfl

/-- Raising `hasRequest` in an empty slot puts the call into the mailbox. -/
theorem mailbox_raise {call : ℕ} {slot : StIPCData} {pc : SendPc}
    (free : s.slot.hasRequest = false) (raised : slot.hasRequest = true) :
    s.mailbox.step (.put call) = some (s.raise call slot pc).mailbox := by
  simp [mailbox, OneSlot.step, raise, goto, free, raised]

theorem PostOutcomes.free_of_enters {os : PostOutcomes} {slot : StIPCData}
    (enters : os.enters slot = true) : slot.hasRequest = false := by
  simp only [PostOutcomes.enters, Bool.and_eq_true, Bool.not_eq_true'] at enters
  exact enters.2

/-- What is posted passes through the slot as through a mailbox. -/
theorem balanced_of_run {allowed : Server → ServerLabel → Prop} {labels : List ServerLabel}
    (run : Run (step view nMaxThreadCount) allowed start labels s) : s.mailbox.Balanced := by
  obtain ⟨operations, mailbox⟩ := run.simulate mailbox
    fun labels s label t _ _ next => by
      cases step_cases next with
      | sent posting enters =>
        exact .inr ⟨_, mailbox_raise (PostOutcomes.free_of_enters enters) rfl⟩
      | abandoned posting enters =>
        exact .inr ⟨_, mailbox_raise (PostOutcomes.free_of_enters enters) rfl⟩
      | enqueue request =>
        exact .inr ⟨.take, by simp [Server.mailbox, OneSlot.step, request, StIPCData.clear]⟩
      | discard request =>
        exact .inr ⟨.discard, by simp [Server.mailbox, OneSlot.step, request, StIPCData.clear]⟩
      | worker created works => exact .inl (mailbox_of_worker works)
      | _ => exact .inl rfl
  exact OneSlot.balanced_of_run mailbox

/-- Calls to come have not begun. -/
def Fresh (s : Server) : Prop := ∀ call, s.calls ≤ call → s.pc call = .absent

theorem Fresh.keep (fresh : s.Fresh) (next : s.step view nMaxThreadCount label = some t) :
    t.Fresh := by
  unfold Fresh at fresh ⊢
  cases step_cases next with
  | worker created works => cases works <;> exact fresh
  | idle | untouched | enqueue | discard | stop | stopQueue => exact fresh
  | begin =>
    intro call late
    have old := fresh call (Nat.le_of_succ_le late)
    exact (Function.update_of_ne (Nat.ne_of_gt late) _ _).trans old
  | sent posting | abandoned posting | giveUp posting =>
    intro call late
    refine (Function.update_of_ne ?_ _ _).trans (fresh call late)
    rintro rfl
    exact nomatch posting.symm.trans (fresh call late)

theorem fresh_of_run {allowed : Server → ServerLabel → Prop} {labels : List ServerLabel}
    (run : Run (step view nMaxThreadCount) allowed start labels s) : s.Fresh := by
  have initial : start.Fresh := fun _ _ => rfl
  exact run.invariant initial fun _ _ _ fresh _ next => fresh.keep next

theorem Fresh.begun (fresh : s.Fresh) {call : ℕ} (posting : s.pc call = .posting) :
    call < s.calls := by
  by_contra late
  rw [fresh call (Nat.not_lt.mp late)] at posting
  cases posting

/-- The calls that have posted have begun. -/
def Recorded (s : Server) : Prop := ∀ call ∈ s.posted, call < s.calls

theorem Recorded.keep (recorded : s.Recorded) (fresh : s.Fresh)
    (next : s.step view nMaxThreadCount label = some t) : t.Recorded := by
  unfold Recorded at recorded ⊢
  cases step_cases next with
  | worker created works => cases works <;> exact recorded
  | begin => exact fun call posted => (recorded call posted).trans (Nat.lt_succ_self _)
  | sent posting | abandoned posting =>
    intro call posted
    rcases List.mem_append.mp posted with earlier | now
    · exact recorded call earlier
    · obtain rfl := List.mem_singleton.mp now
      exact fresh.begun posting
  | _ => exact recorded

theorem recorded_of_run {allowed : Server → ServerLabel → Prop} {labels : List ServerLabel}
    (run : Run (step view nMaxThreadCount) allowed start labels s) : s.Recorded := by
  have initial : start.Recorded := nofun
  exact run.invariant_of_reached initial fun _ _ _ _ earlier recorded _ next =>
    recorded.keep (fresh_of_run earlier) next

/-- The request in the slot was posted by a call that has begun, and so were those in the
queue. -/
theorem begun_of_run {allowed : Server → ServerLabel → Prop} {labels : List ServerLabel}
    (run : Run (step view nMaxThreadCount) allowed start labels s) :
    (s.slot.hasRequest = true → s.poster < s.calls) ∧ ∀ q ∈ s.enqueued, q.call < s.calls := by
  have recorded := recorded_of_run run
  have balanced := balanced_of_run run
  refine ⟨fun request => recorded _ (balanced.mem_put ?_), fun q member => recorded _ ?_⟩
  · exact if_pos request
  · exact balanced.subset (List.mem_map_of_mem member)

/-- The arguments of a call that has begun stay as they are. -/
theorem args_of_step (next : s.step view nMaxThreadCount label = some t) {call : ℕ}
    (begun : call < s.calls) : t.args call = s.args call ∧ call < t.calls := by
  cases step_cases next with
  | worker created works => cases works <;> exact ⟨rfl, begun⟩
  | begin => exact ⟨Function.update_of_ne begun.ne _ _, begun.trans (Nat.lt_succ_self _)⟩
  | _ => exact ⟨rfl, begun⟩

end Server

end ExLibs.IPC.Windows
