/-
# A Unix IPC server and its callers

One server slot with its data segment, any number of `SendIPC` calls that post into it,
`CIPCServer::main`, which moves requests from the slot into the queue, and the workers as
far as they deal with requests. Each section under the server semaphore is one step, and
so is each copy under the semaphore of the data segment. A caller that is killed in a
section never releases its semaphores.

A worker that has a response for its request is left at `answering`, where it may leave at
any time.
-/
import Mathlib.Logic.Function.Basic
import ExLibs.Math.OneSlot
import ExLibs.Math.Transition
import ExLibs.Util.QueueThreads
import ExLibs.IPC.Unix.Data

namespace ExLibs.IPC.Unix

open ExLibs.Math ExLibs.Util

/-- Where a call of `SendIPC` is with its request. -/
inductive SendPc
  | absent
  /-- It is in its post loop, or before it. -/
  | posting
  /-- `isSendSuccess` is true. -/
  | sent
  | gaveUp
  /-- It has written past the data segment. -/
  | killed
  deriving DecidableEq

/-- A request in the queue, with the call that it comes from as a record. -/
structure Queued where
  call : ℕ
  data : StIPCData
  deriving DecidableEq

instance : Inhabited Queued := ⟨⟨0, .zero⟩⟩

/-- A response: its size and the memory that it is in. A pointer that is none is null. -/
structure Response where
  responseSize : ℕ
  resData : Option (List Byte)
  deriving DecidableEq

/-- Where a worker is. -/
inductive WorkerPc
  | testing
  | deQueueing
  | dequeued (q : Queued)
  /-- It comes to the data segment. -/
  | fetching (q : Queued)
  /-- It comes to the callback, or to the check path. -/
  | calling (q : Queued) (reqData : List Byte)
  | answering (q : Queued) (response : Response)
  | ended
  /-- It has read past the data segment. -/
  | faulted
  deriving DecidableEq

/-- What a worker does next. -/
inductive WorkerLabel
  /-- It tests `_isStop`. -/
  | test
  | deQueue
  /-- It copies a request out of the data segment, or fails to. -/
  | fetch (succeeds : Bool)
  /-- The callback runs and leaves a number in `responseSize`. -/
  | callback (responseSize : ℕ)
  | check
  /-- It has done with a response, or fails to place it. -/
  | leave
  deriving DecidableEq

/-- What the callback or the check path was run on, and for which call. -/
structure Served where
  call : ℕ
  requestData : List Byte
  requestSize : ℕ
  deriving DecidableEq

/-- A worker with a request from the queue. -/
def Queued.start (q : Queued) : WorkerPc :=
  if q.data.isUsingMmap then .fetching q else .calling q (q.data.reqData.take q.data.requestSize)

/-- What follows the callback and the check path: the test that skips the response. -/
def Queued.answer (q : Queued) (response : Response) : WorkerPc :=
  if (q.data.needResponse = false ∧ q.data.nCheckIPC = 0) ∨
      (response.responseSize ≠ 0 ∧ response.resData = none) then .testing
  else .answering q response

/-- A server with its callers. The last six fields are records: the call that has copied
into the data segment last, the call that raised `hasRequest` last, the calls that have
raised it, those whose request `main` has discarded, the requests it has put into the
queue, and what the callback and the check path were run on. -/
structure Server where
  calls : ℕ
  args : ℕ → SendArgs
  pc : ℕ → SendPc
  slot : StIPCData
  bulk : List Byte
  /-- A caller has been killed with the semaphores of the server. -/
  jammed : Bool
  queue : EventQueue Queued
  isStop : Bool
  worker : ℕ → WorkerPc
  writer : ℕ
  poster : ℕ
  posted : List ℕ
  discarded : List ℕ
  enqueued : List Queued
  served : List Served

/-- A step of `CreateIPC`, of a caller, of `main`, of a worker or of the destructor. -/
inductive ServerLabel
  | createIPC
  | begin (args : SendArgs)
  | attempt (call : ℕ) (now : ℤ) (os : PostOutcomes)
  | giveUp (call : ℕ)
  /-- One section of `main`, and whether it finds the sender running. -/
  | main (running : Bool)
  | stop
  | stopQueue
  | worker (w : ℕ) (label : WorkerLabel)

namespace Server

/-- A server whose memory is new. -/
def start : Server where
  calls := 0
  args _ := ⟨0, [], [], [], 0, 0⟩
  pc _ := .absent
  slot := .zero
  bulk := []
  jammed := false
  queue := .empty
  isStop := false
  worker _ := .testing
  writer := 0
  poster := 0
  posted := []
  discarded := []
  enqueued := []
  served := []

/-- A call moves on. -/
def goto (s : Server) (call : ℕ) (pc : SendPc) : Server :=
  { s with pc := Function.update s.pc call pc }

/-- A worker moves on. -/
def gotoWorker (s : Server) (w : ℕ) (pc : WorkerPc) : Server :=
  { s with worker := Function.update s.worker w pc }

@[simp]
theorem gotoWorker_self (s : Server) (w : ℕ) (pc : WorkerPc) : (s.gotoWorker w pc).worker w = pc :=
  Function.update_self ..

@[simp]
theorem gotoWorker_of_ne (s : Server) {w v : ℕ} (pc : WorkerPc) (other : v ≠ w) :
    (s.gotoWorker w pc).worker v = s.worker v :=
  Function.update_of_ne other ..

/-- The call that has copied into the data segment last, once a call has posted. -/
def writes (s : Server) (call : ℕ) : ℕ := if (s.args call).isUsingMmap then call else s.writer

/-- A worker runs the callback or the check path. -/
def serve (s : Server) (w : ℕ) (q : Queued) (reqData : List Byte) (response : Response) : Server :=
  { s.gotoWorker w (q.answer response) with
    served := s.served ++ [⟨q.call, reqData, q.data.requestSize⟩] }

/-- A step of a worker. The data segment spans `span` bytes. -/
def stepWorker (span : ℕ) (s : Server) (w : ℕ) (label : WorkerLabel) : Option Server :=
  match s.worker w, label with
  | .testing, .test => some (s.gotoWorker w (if s.isStop then .ended else .deQueueing))
  | .deQueueing, .deQueue =>
    if QueueClass.nsIPC.waits s.queue then none
    else s.queue.deQueue.map fun (q, queue) => { s.gotoWorker w (.dequeued q) with queue }
  | .dequeued q, .test => some (s.gotoWorker w
      (if s.isStop then .ended else if q.data.hasRequest = false then .testing else q.start))
  | .fetching q, .fetch succeeds =>
    if s.jammed then none
    else if succeeds ∧ q.data.requestSize ≠ 0 then some (s.gotoWorker w
      (if q.data.requestSize ≤ span then .calling q (s.bulk.take q.data.requestSize)
      else .faulted))
    else some (s.gotoWorker w .testing)
  | .calling q reqData, .callback responseSize =>
    if q.data.nCheckIPC = 0 then some (s.serve w q reqData ⟨responseSize, none⟩) else none
  | .calling q reqData, .check =>
    if q.data.nCheckIPC ≠ 0 then
      some (s.serve w q reqData ⟨quTestMsg.length, some quTestMsg⟩)
    else none
  | .answering _ _, .leave => some (s.gotoWorker w .testing)
  | _, _ => none

/-- One step, if the label is enabled. There are `nMaxThreadCount - 1` workers. -/
def step (span nMaxThreadCount : ℕ) (s : Server) : ServerLabel → Option Server
  | .createIPC => some { s with slot := { s.slot with isInit := true } }
  | .begin args => some { s.goto s.calls .posting with
      calls := s.calls + 1
      args := Function.update s.args s.calls args }
  | .attempt call now os =>
    if s.jammed then none
    else
      match s.pc call with
      | .posting =>
        match post span (s.args call) now os s.slot s.bulk with
        | .untouched => some s
        | .sent slot bulk => some { s.goto call .sent with
            slot, bulk
            writer := s.writes call
            poster := call
            posted := s.posted ++ [call] }
        | .failed slot => some { s with slot }
        | .killed slot bulk => some { s.goto call .killed with
            slot, bulk
            writer := call
            jammed := true }
      | _ => none
  | .giveUp call =>
    match s.pc call with
    | .posting => some (s.goto call .gaveUp)
    | _ => none
  | .main running =>
    if s.jammed then none
    else if s.slot.hasRequest then
      if running then some { s with
        slot := s.slot.release
        queue := s.queue.enQueue ⟨s.poster, s.slot⟩
        enqueued := s.enqueued ++ [⟨s.poster, s.slot⟩] }
      else some { s with slot := s.slot.release, discarded := s.discarded ++ [s.poster] }
    else some s
  | .stop => some { s with isStop := true }
  | .stopQueue => if s.isStop then some { s with queue := s.queue.stop } else none
  | .worker w label => if w + 1 < nMaxThreadCount then s.stepWorker span w label else none

variable {span nMaxThreadCount : ℕ} {s t : Server} {label : ServerLabel}

/-- What a step of a worker does. -/
inductive WorkerStep (span : ℕ) (s : Server) (w : ℕ) : WorkerLabel → Server → Prop
  | test (testing : s.worker w = .testing) :
      WorkerStep span s w .test (s.gotoWorker w (if s.isStop then .ended else .deQueueing))
  | deQueue {q : Queued} {queue : EventQueue Queued} (waiting : s.worker w = .deQueueing)
      (takes : s.queue.deQueue = some (q, queue)) :
      WorkerStep span s w .deQueue { s.gotoWorker w (.dequeued q) with queue }
  | skip {q : Queued} {pc : WorkerPc} (dequeued : s.worker w = .dequeued q)
      (skips : pc = .ended ∨ pc = .testing) : WorkerStep span s w .test (s.gotoWorker w pc)
  | start {q : Queued} (dequeued : s.worker w = .dequeued q)
      (request : q.data.hasRequest = true) :
      WorkerStep span s w .test (s.gotoWorker w q.start)
  | fetch {q : Queued} (fetching : s.worker w = .fetching q)
      (fits : q.data.requestSize ≤ span) : WorkerStep span s w (.fetch true)
        (s.gotoWorker w (.calling q (s.bulk.take q.data.requestSize)))
  | lose {q : Queued} {succeeds : Bool} {pc : WorkerPc} (fetching : s.worker w = .fetching q)
      (loses : pc = .faulted ∨ pc = .testing) :
      WorkerStep span s w (.fetch succeeds) (s.gotoWorker w pc)
  | serve {q : Queued} {reqData : List Byte} {label : WorkerLabel} {response : Response}
      (calling : s.worker w = .calling q reqData)
      (produces : q.data.nCheckIPC = 0 ∧ response.resData = none ∨
        q.data.nCheckIPC ≠ 0 ∧ response = ⟨quTestMsg.length, some quTestMsg⟩) :
      WorkerStep span s w label (s.serve w q reqData response)
  | leave {q : Queued} {response : Response} (answering : s.worker w = .answering q response) :
      WorkerStep span s w .leave (s.gotoWorker w .testing)

/-- What a step does. -/
inductive Step (span nMaxThreadCount : ℕ) (s : Server) : ServerLabel → Server → Prop
  | createIPC :
      Step span nMaxThreadCount s .createIPC { s with slot := { s.slot with isInit := true } }
  | begin {args : SendArgs} : Step span nMaxThreadCount s (.begin args)
      { s.goto s.calls .posting with
        calls := s.calls + 1
        args := Function.update s.args s.calls args }
  | untouched {call : ℕ} {now : ℤ} {os : PostOutcomes} :
      Step span nMaxThreadCount s (.attempt call now os) s
  | sent {call : ℕ} {now : ℤ} {os : PostOutcomes} {reqData bulk : List Byte}
      (posting : s.pc call = .posting) (free : s.slot.hasRequest = false)
      (init : s.slot.isInit = true)
      (inline : (s.args call).isUsingMmap = false →
        reqData = memcpy s.slot.reqData (s.args call).requestData ∧ bulk = s.bulk)
      (mapped : (s.args call).isUsingMmap = true →
        bulk = memcpy s.bulk (s.args call).requestData) :
      Step span nMaxThreadCount s (.attempt call now os) { s.goto call .sent with
        slot := { (s.args call).fill now s.slot with reqData, hasRequest := true }
        bulk
        writer := s.writes call
        poster := call
        posted := s.posted ++ [call] }
  | failed {call : ℕ} {now : ℤ} {os : PostOutcomes} (posting : s.pc call = .posting)
      (free : s.slot.hasRequest = false) : Step span nMaxThreadCount s (.attempt call now os)
        { s with slot := (s.args call).fill now s.slot }
  | killed {call : ℕ} {now : ℤ} {os : PostOutcomes} {bulk : List Byte}
      (posting : s.pc call = .posting) (free : s.slot.hasRequest = false) :
      Step span nMaxThreadCount s (.attempt call now os) { s.goto call .killed with
        slot := (s.args call).fill now s.slot
        bulk
        writer := call
        jammed := true }
  | giveUp {call : ℕ} (posting : s.pc call = .posting) :
      Step span nMaxThreadCount s (.giveUp call) (s.goto call .gaveUp)
  | idle {running : Bool} : Step span nMaxThreadCount s (.main running) s
  | enqueue (request : s.slot.hasRequest = true) :
      Step span nMaxThreadCount s (.main true) { s with
        slot := s.slot.release
        queue := s.queue.enQueue ⟨s.poster, s.slot⟩
        enqueued := s.enqueued ++ [⟨s.poster, s.slot⟩] }
  | discard (request : s.slot.hasRequest = true) :
      Step span nMaxThreadCount s (.main false)
        { s with slot := s.slot.release, discarded := s.discarded ++ [s.poster] }
  | stop : Step span nMaxThreadCount s .stop { s with isStop := true }
  | stopQueue (stopped : s.isStop = true) :
      Step span nMaxThreadCount s .stopQueue { s with queue := s.queue.stop }
  | worker {w : ℕ} {label : WorkerLabel} {t : Server}
      (works : WorkerStep span s w label t) : Step span nMaxThreadCount s (.worker w label) t

theorem stepWorker_cases {w : ℕ} {label : WorkerLabel}
    (next : s.stepWorker span w label = some t) : WorkerStep span s w label t := by
  unfold stepWorker at next
  split at next
  · exact Option.some.inj next ▸ .test ‹_›
  · split_ifs at next
    obtain ⟨⟨q, queue⟩, takes, rfl⟩ := Option.map_eq_some_iff.mp next
    exact .deQueue ‹_› takes
  · obtain rfl := Option.some.inj next
    split_ifs with stopped request
    · exact .skip ‹_› (.inl rfl)
    · exact .skip ‹_› (.inr rfl)
    · exact .start ‹_› (Bool.eq_true_of_not_eq_false request)
  · rename_i succeeds fetching
    split_ifs at next with jammed copies fits
    · obtain ⟨rfl, -⟩ := copies
      exact Option.some.inj next ▸ .fetch fetching fits
    · exact Option.some.inj next ▸ .lose fetching (.inl rfl)
    · exact Option.some.inj next ▸ .lose fetching (.inr rfl)
  · split_ifs at next with plain
    exact Option.some.inj next ▸ .serve ‹_› (.inl ⟨plain, rfl⟩)
  · split_ifs at next with checks
    exact Option.some.inj next ▸ .serve ‹_› (.inr ⟨checks, rfl⟩)
  · exact Option.some.inj next ▸ .leave ‹_›
  · cases next

theorem PostOutcomes.free_of_enters {os : PostOutcomes} {slot : StIPCData}
    (enters : os.enters slot = true) : slot.hasRequest = false := by
  simp only [PostOutcomes.enters, Bool.and_eq_true, Bool.not_eq_true'] at enters
  exact enters.2

theorem PostOutcomes.init_of_enters {os : PostOutcomes} {slot : StIPCData}
    (enters : os.enters slot = true) : slot.isInit = true := by
  simp only [PostOutcomes.enters, Bool.and_eq_true] at enters
  exact enters.1.2

theorem step_cases (next : s.step span nMaxThreadCount label = some t) :
    Step span nMaxThreadCount s label t := by
  cases label with
  | createIPC => exact Option.some.inj next ▸ .createIPC
  | begin args => exact Option.some.inj next ▸ .begin
  | attempt call now os =>
    simp only [step] at next
    split_ifs at next
    split at next
    · rename_i posting
      unfold post at next
      split_ifs at next with enters mapped reaches fits
      · exact Option.some.inj next ▸ .sent posting (PostOutcomes.free_of_enters enters)
          (PostOutcomes.init_of_enters enters) (by simp [mapped]) fun _ => rfl
      · exact Option.some.inj next ▸ .killed posting (PostOutcomes.free_of_enters enters)
      · exact Option.some.inj next ▸ .failed posting (PostOutcomes.free_of_enters enters)
      · exact Option.some.inj next ▸ .sent posting (PostOutcomes.free_of_enters enters)
          (PostOutcomes.init_of_enters enters) (fun _ => ⟨rfl, rfl⟩) (by simp [mapped])
      · exact Option.some.inj next ▸ .untouched
    · cases next
  | giveUp call =>
    simp only [step] at next
    split at next
    · exact Option.some.inj next ▸ .giveUp ‹_›
    · cases next
  | main running =>
    simp only [step] at next
    split_ifs at next with jammed request runs
    · subst runs
      exact Option.some.inj next ▸ .enqueue request
    · obtain rfl := Bool.eq_false_iff.mpr runs
      exact Option.some.inj next ▸ .discard request
    · exact Option.some.inj next ▸ .idle
  | stop => exact Option.some.inj next ▸ .stop
  | stopQueue =>
    simp only [step] at next
    split_ifs at next with stopped
    exact Option.some.inj next ▸ .stopQueue stopped
  | worker w label =>
    simp only [step] at next
    split_ifs at next
    exact .worker (stepWorker_cases next)

/-- The slot, as a mailbox that holds the call which has posted. -/
def mailbox (s : Server) : OneSlot ℕ where
  slot := if s.slot.hasRequest then some s.poster else none
  put := s.posted
  taken := s.enqueued.map (·.call)
  discarded := s.discarded

/-- A worker leaves the slot and what has passed through it alone. -/
theorem mailbox_of_worker {w : ℕ} {label : WorkerLabel} (works : WorkerStep span s w label t) :
    t.mailbox = s.mailbox := by
  cases works <;> rfl

/-- What is posted passes through the slot as through a mailbox. -/
theorem balanced_of_run {allowed : Server → ServerLabel → Prop} {labels : List ServerLabel}
    (run : Run (step span nMaxThreadCount) allowed start labels s) : s.mailbox.Balanced := by
  have passes : ∃ operations, Run OneSlot.step Free start.mailbox operations s.mailbox := by
    refine run.simulate mailbox fun labels s label t _ _ next => ?_
    cases step_cases next with
    | @sent call now os reqData bulk posting free =>
      exact .inr ⟨.put call, by simp [mailbox, OneSlot.step, goto, free]⟩
    | failed posting free | killed posting free =>
      exact .inl (by simp [mailbox, SendArgs.fill, goto, free])
    | enqueue request =>
      exact .inr ⟨.take, by simp [mailbox, OneSlot.step, request, StIPCData.release]⟩
    | discard request =>
      exact .inr ⟨.discard, by simp [mailbox, OneSlot.step, request, StIPCData.release]⟩
    | worker works => exact .inl (mailbox_of_worker works)
    | _ => exact .inl rfl
  obtain ⟨operations, passed⟩ := passes
  exact OneSlot.balanced_of_run passed

/-- Where the calls are: those to come have not begun, and those that have posted have
begun and go on from there, each with one request. -/
structure Accounted (s : Server) : Prop where
  absent : ∀ call, s.calls ≤ call → s.pc call = .absent
  begun : ∀ call ∈ s.posted, call < s.calls
  sent : ∀ call ∈ s.posted, s.pc call = .sent
  once : s.posted.Nodup

/-- A call that is posting has begun, so those to come are elsewhere. -/
theorem absent_goto {call : ℕ} {pc : SendPc} (absent : ∀ call, s.calls ≤ call → s.pc call = .absent)
    (posting : s.pc call = .posting) (other : ℕ) (late : s.calls ≤ other) :
    (s.goto call pc).pc other = .absent := by
  refine (Function.update_of_ne ?_ _ _).trans (absent other late)
  rintro rfl
  exact nomatch posting.symm.trans (absent other late)

/-- A call that is posting has not posted. -/
theorem sent_goto {call : ℕ} {pc : SendPc} (sent : ∀ call ∈ s.posted, s.pc call = .sent)
    (posting : s.pc call = .posting) (other : ℕ) (posted : other ∈ s.posted) :
    (s.goto call pc).pc other = .sent := by
  refine (Function.update_of_ne ?_ _ _).trans (sent other posted)
  rintro rfl
  exact nomatch posting.symm.trans (sent other posted)

theorem posting_lt {call : ℕ} (absent : ∀ call, s.calls ≤ call → s.pc call = .absent)
    (posting : s.pc call = .posting) : call < s.calls := by
  by_contra late
  exact nomatch posting.symm.trans (absent call (Nat.not_lt.mp late))

theorem Accounted.keep (accounted : s.Accounted)
    (next : s.step span nMaxThreadCount label = some t) : t.Accounted := by
  obtain ⟨absent, begun, sent, once⟩ := accounted
  cases step_cases next with
  | worker works => cases works <;> exact ⟨absent, begun, sent, once⟩
  | begin =>
    refine ⟨fun call late => ?_, fun call posted => ?_, fun call posted => ?_, once⟩
    · have after : s.calls < call := late
      exact (Function.update_of_ne after.ne' _ _).trans (absent call after.le)
    · exact (begun call posted).trans (Nat.lt_succ_self _)
    · exact (Function.update_of_ne (begun call posted).ne _ _).trans (sent call posted)
  | @sent call now os reqData bulk posting =>
    have unposted : call ∉ s.posted := fun posted => nomatch posting.symm.trans (sent call posted)
    have mine : call < s.calls := posting_lt absent posting
    refine ⟨fun other late => ?_, List.forall_mem_append.mpr ⟨begun, ?_⟩,
      List.forall_mem_append.mpr ⟨fun other posted => ?_, ?_⟩, ?_⟩
    · exact @absent_goto s call .sent absent posting other late
    · exact List.forall_mem_singleton.mpr mine
    · exact @sent_goto s call .sent sent posting other posted
    · exact List.forall_mem_singleton.mpr (Function.update_self ..)
    · exact List.nodup_append.mpr ⟨once, List.nodup_singleton call, fun other posted _ now same =>
        unposted (List.mem_singleton.mp now ▸ same ▸ posted)⟩
  | @killed call _ _ _ posting =>
    exact ⟨@absent_goto s call .killed absent posting, begun, sent_goto sent posting, once⟩
  | @giveUp call posting =>
    exact ⟨@absent_goto s call .gaveUp absent posting, begun, sent_goto sent posting, once⟩
  | _ => exact ⟨absent, begun, sent, once⟩

theorem accounted_of_run {allowed : Server → ServerLabel → Prop} {labels : List ServerLabel}
    (run : Run (step span nMaxThreadCount) allowed start labels s) : s.Accounted := by
  have initial : start.Accounted :=
    ⟨fun _ _ => rfl, fun _ member => absurd member List.not_mem_nil,
      fun _ member => absurd member List.not_mem_nil, List.nodup_nil⟩
  exact run.invariant initial fun _ _ _ accounted _ next => accounted.keep next

/-- The request in the slot was posted by a call that has begun, and so were those in the
queue. -/
theorem begun_of_run {allowed : Server → ServerLabel → Prop} {labels : List ServerLabel}
    (run : Run (step span nMaxThreadCount) allowed start labels s) :
    (s.slot.hasRequest = true → s.poster < s.calls) ∧ ∀ q ∈ s.enqueued, q.call < s.calls := by
  have begun := (accounted_of_run run).begun
  have balanced := balanced_of_run run
  refine ⟨fun request => begun _ (balanced.mem_put ?_), fun q member => begun _ ?_⟩
  · exact if_pos request
  · exact balanced.subset (List.mem_map_of_mem member)

/-- The arguments of a call that has begun stay as they are. -/
theorem args_of_step (next : s.step span nMaxThreadCount label = some t) {call : ℕ}
    (begun : call < s.calls) : t.args call = s.args call := by
  cases step_cases next with
  | worker works => cases works <;> rfl
  | begin => exact Function.update_of_ne begun.ne _ _
  | _ => rfl

theorem posted_of_step (next : s.step span nMaxThreadCount label = some t) :
    s.posted ⊆ t.posted := by
  cases step_cases next with
  | worker works => cases works <;> exact List.Subset.refl _
  | sent => exact List.subset_append_left ..
  | _ => exact List.Subset.refl _

theorem calls_le_of_step (next : s.step span nMaxThreadCount label = some t) :
    s.calls ≤ t.calls := by
  cases step_cases next with
  | worker works => cases works <;> exact le_rfl
  | begin => exact Nat.le_succ _
  | _ => exact le_rfl

/-- A worker moves itself only. -/
theorem worker_of_ne {w v : ℕ} {label : WorkerLabel} (works : WorkerStep span s w label t)
    (other : v ≠ w) : t.worker v = s.worker v := by
  cases works <;> exact gotoWorker_of_ne s _ other

/-- Where a step takes its worker: to a place without a request, or on with one. -/
inductive WorkerMove (span : ℕ) (s : Server) (w : ℕ) : WorkerLabel → WorkerPc → Prop
  | idle {label : WorkerLabel} {pc : WorkerPc}
      (idles : pc = .testing ∨ pc = .deQueueing ∨ pc = .ended ∨ pc = .faulted) :
      WorkerMove span s w label pc
  | deQueue {q : Queued} {queue : EventQueue Queued} (takes : s.queue.deQueue = some (q, queue)) :
      WorkerMove span s w .deQueue (.dequeued q)
  | start {q : Queued} (dequeued : s.worker w = .dequeued q)
      (request : q.data.hasRequest = true) : WorkerMove span s w .test q.start
  | fetch {q : Queued} (fetching : s.worker w = .fetching q) :
      WorkerMove span s w (.fetch true) (.calling q (s.bulk.take q.data.requestSize))
  | serve {q : Queued} {reqData : List Byte} {label : WorkerLabel} {response : Response}
      (calling : s.worker w = .calling q reqData)
      (produces : q.data.nCheckIPC = 0 ∧ response.resData = none ∨
        q.data.nCheckIPC ≠ 0 ∧ response = ⟨quTestMsg.length, some quTestMsg⟩) :
      WorkerMove span s w label (q.answer response)

theorem move_of_worker {w : ℕ} {label : WorkerLabel} (works : WorkerStep span s w label t) :
    WorkerMove span s w label (t.worker w) := by
  cases works with
  | test =>
    rw [gotoWorker_self]
    split
    · exact .idle (.inr (.inr (.inl rfl)))
    · exact .idle (.inr (.inl rfl))
  | deQueue waiting takes =>
    simp only [gotoWorker_self]
    exact .deQueue takes
  | skip dequeued skips =>
    rw [gotoWorker_self]
    rcases skips with rfl | rfl
    · exact .idle (.inr (.inr (.inl rfl)))
    · exact .idle (.inl rfl)
  | start dequeued request =>
    rw [gotoWorker_self]
    exact .start dequeued request
  | fetch fetching =>
    rw [gotoWorker_self]
    exact .fetch fetching
  | lose fetching loses =>
    rw [gotoWorker_self]
    rcases loses with rfl | rfl
    · exact .idle (.inr (.inr (.inr rfl)))
    · exact .idle (.inl rfl)
  | serve calling produces =>
    simp only [serve, gotoWorker_self]
    exact .serve calling produces
  | leave =>
    rw [gotoWorker_self]
    exact .idle (.inl rfl)

end Server

end ExLibs.IPC.Unix
