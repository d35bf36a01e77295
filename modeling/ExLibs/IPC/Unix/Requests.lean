/-
# What the callback of a Unix server is run on

A small request is in the copy that a worker takes out of the queue. A bulk request stays
in the data segment until the worker comes for it, and `main` has released the slot by
then, so that the next call may copy its own request over it. The requests that workers
read are the right ones as long as none is read after another call has written.
-/
import ExLibs.IPC.Unix.Mailbox

namespace ExLibs.IPC.Unix

open ExLibs.Math ExLibs.Util

/-- The request that a worker has. -/
def WorkerPc.request : WorkerPc → Option Queued
  | dequeued q | fetching q | calling q _ | answering q _ => some q
  | testing | deQueueing | ended | faulted => none

/-- The call that has written into the data segment last is the one whose request the
worker comes for. -/
def WorkerPc.own (writer : ℕ) : WorkerPc → Bool
  | fetching q => q.call = writer
  | _ => true

namespace Queued

theorem request_start (q : Queued) : q.start.request = some q := by
  unfold start
  split <;> rfl

theorem request_answer {q q' : Queued} {response : Response}
    (holds : (q.answer response).request = some q') : q = q' := by
  unfold answer at holds
  split at holds
  · cases holds
  · exact Option.some.inj holds

/-- A turn begins with the bytes in the slot, or at the data segment. -/
theorem start_calling {q q' : Queued} {reqData : List Byte}
    (begins : q.start = .calling q' reqData) :
    q = q' ∧ q.data.isUsingMmap = false ∧ q.data.reqData.take q.data.requestSize = reqData := by
  unfold start at begins
  split_ifs at begins with large
  obtain ⟨same, bytes⟩ := WorkerPc.calling.inj begins
  exact ⟨same, Bool.eq_false_iff.mpr large, bytes⟩

theorem start_fetching {q q' : Queued} (begins : q.start = .fetching q') :
    q'.data.isUsingMmap = true := by
  unfold start at begins
  split_ifs at begins with large
  exact WorkerPc.fetching.inj begins ▸ large

theorem answer_ne_fetching {q q' : Queued} {response : Response} :
    q.answer response ≠ .fetching q' := by
  unfold answer
  split <;> exact nofun

theorem answer_ne_calling {q q' : Queued} {response : Response} {reqData : List Byte} :
    q.answer response ≠ .calling q' reqData := by
  unfold answer
  split <;> exact nofun

end Queued

namespace Server

variable {span nMaxThreadCount : ℕ} {s t : Server} {label : ServerLabel}
  {labels : List ServerLabel}

theorem args_of_worker {w : ℕ} {label : WorkerLabel} (works : WorkerStep span s w label t) :
    t.args = s.args ∧ t.calls = s.calls := by
  cases works <;> exact ⟨rfl, rfl⟩

/-- What is in the queue or with a worker was put into the queue, but for the `T()` that a
worker gets out of a stopped queue. -/
structure Custody (s : Server) : Prop where
  queued : ∀ q ∈ s.queue.queue, q ∈ s.enqueued
  held : ∀ w q, (s.worker w).request = some q → q ∈ s.enqueued ∨ s.worker w = .dequeued default

/-- The queue holds what it held and what `main` adds, and `main` records what it adds. -/
theorem queue_of_step (next : s.step span nMaxThreadCount label = some t) :
    s.enqueued ⊆ t.enqueued ∧ ∀ q ∈ t.queue.queue, q ∈ s.queue.queue ∨ q ∈ t.enqueued := by
  cases step_cases next with
  | worker works =>
    cases works with
    | deQueue waiting takes =>
      exact ⟨List.Subset.refl _, fun q member =>
        .inl ((EventQueue.mem_of_deQueue takes).2 q member)⟩
    | _ => exact ⟨List.Subset.refl _, fun _ => .inl⟩
  | enqueue request =>
    refine ⟨List.subset_append_left .., fun q member => ?_⟩
    rcases List.mem_append.mp member with earlier | now
    · exact .inl earlier
    · exact .inr (List.mem_append_right _ now)
  | _ => exact ⟨List.Subset.refl _, fun _ => .inl⟩

/-- A worker that has begun a turn has a request from the queue. -/
theorem Custody.busy (custody : s.Custody) {w : ℕ} {q : Queued}
    (holds : (s.worker w).request = some q) (started : s.worker w ≠ .dequeued default) :
    q ∈ s.enqueued :=
  (custody.held w q holds).resolve_right started

/-- A worker that begins a turn has a request from the queue. -/
theorem Custody.started (custody : s.Custody) {w : ℕ} {q : Queued}
    (dequeued : s.worker w = .dequeued q) (request : q.data.hasRequest = true) :
    q ∈ s.enqueued := by
  refine custody.busy (by rw [dequeued]; rfl) fun fresh => ?_
  rw [dequeued, WorkerPc.dequeued.injEq] at fresh
  rw [fresh] at request
  cases request

/-- What a worker holds after a step of its own. -/
theorem Custody.held_of_move (custody : s.Custody) {w : ℕ} {q : Queued} {label : WorkerLabel}
    {pc : WorkerPc} (moves : WorkerMove span s w label pc) (holds : pc.request = some q) :
    q ∈ s.enqueued ∨ pc = .dequeued default := by
  cases moves with
  | idle idles => rcases idles with rfl | rfl | rfl | rfl <;> cases holds
  | deQueue takes =>
    obtain rfl := Option.some.inj holds
    exact (EventQueue.mem_of_deQueue takes).1.imp (custody.queued _) (congrArg _)
  | start dequeued request =>
    rw [Queued.request_start, Option.some.injEq] at holds
    exact .inl (holds ▸ custody.started dequeued request)
  | fetch fetching =>
    obtain rfl := Option.some.inj holds
    exact .inl (custody.busy (by rw [fetching]; rfl) (by simp [fetching]))
  | serve calling =>
    obtain rfl := Queued.request_answer holds
    exact .inl (custody.busy (by rw [calling]; rfl) (by simp [calling]))

theorem Custody.keep (custody : s.Custody) (next : s.step span nMaxThreadCount label = some t) :
    t.Custody := by
  obtain ⟨grows, queue⟩ := queue_of_step next
  refine ⟨fun q member => (queue q member).elim (fun old => grows (custody.queued q old)) id, ?_⟩
  intro v q holds
  cases step_cases next with
  | @worker w _ _ works =>
    by_cases own : v = w
    · subst own
      exact (custody.held_of_move (move_of_worker works) holds).imp_left (grows ·)
    · rw [worker_of_ne works own] at holds ⊢
      exact (custody.held v q holds).imp_left (grows ·)
  | _ => exact (custody.held v q holds).imp_left (grows ·)

theorem custody_of_run {allowed : Server → ServerLabel → Prop}
    (run : Run (step span nMaxThreadCount) allowed start labels s) : s.Custody := by
  have testing : ∀ w, start.worker w = .testing := fun _ => rfl
  have initial : start.Custody :=
    ⟨fun _ member => absurd member List.not_mem_nil, by simp [testing, WorkerPc.request]⟩
  exact run.invariant initial fun _ _ _ custody _ next => custody.keep next

/-- The callback and the check path were run on the requests that were sent. -/
def Intact (s : Server) : Prop :=
  ∀ e ∈ s.served, e.requestData = (s.args e.call).requestData ∧
    e.requestSize = (s.args e.call).requestData.length

/-- A worker copies a request out of the data segment only if no call has copied into it
since the one that has posted the request. -/
def Own (s : Server) : ServerLabel → Prop
  | .worker w (.fetch true) => (s.worker w).own s.writer = true
  | _ => True

/-- What the data segment and the workers hold. -/
structure Reading (s : Server) : Prop where
  written : ∀ call ∈ s.posted, (s.args call).isUsingMmap = true → s.writer = call →
    s.bulk.take (s.args call).requestData.length = (s.args call).requestData
  fetching : ∀ w q, s.worker w = .fetching q → q.data.isUsingMmap = true
  read : ∀ w q reqData, s.worker w = .calling q reqData → reqData = (s.args q.call).requestData
  served : ∀ e ∈ s.served, e.call < s.calls
  intact : s.Intact

theorem Reading.written_step (reading : s.Reading) (accounted : s.Accounted)
    (next : s.step span nMaxThreadCount label = some t) :
    ∀ call ∈ t.posted, (t.args call).isUsingMmap = true → t.writer = call →
      t.bulk.take (t.args call).requestData.length = (t.args call).requestData := by
  cases step_cases next with
  | worker works => cases works <;> exact reading.written
  | begin =>
    intro call posted
    rw [args_of_step next (accounted.begun call posted)]
    exact reading.written call posted
  | @sent other now os reqData bulk posting free init inline mapped =>
    intro call posted large writer
    change s.writes other = call at writer
    change bulk.take (s.args call).requestData.length = (s.args call).requestData
    unfold writes at writer
    split at writer
    · rename_i copied
      subst writer
      rw [mapped copied, take_memcpy]
    · rename_i small
      obtain ⟨-, rfl⟩ := inline (Bool.eq_false_iff.mpr small)
      rcases List.mem_append.mp posted with earlier | now
      · exact reading.written call earlier large writer
      · obtain rfl := List.mem_singleton.mp now
        exact absurd large small
  | @killed other now os bulk posting free =>
    -- the writer is a call that never posts
    rintro call posted - rfl
    have sent := accounted.sent other posted
    rw [posting] at sent
    cases sent
  | _ => exact reading.written

theorem fetching_of_move {w : ℕ} {label : WorkerLabel} {pc : WorkerPc}
    (moves : WorkerMove span s w label pc) {q : Queued} (fetching : pc = .fetching q) :
    q.data.isUsingMmap = true := by
  cases moves with
  | idle idles => rcases idles with rfl | rfl | rfl | rfl <;> cases fetching
  | deQueue | fetch => cases fetching
  | start => exact Queued.start_fetching fetching
  | serve => exact absurd fetching Queued.answer_ne_fetching

/-- What a worker reads in a step of its own is the request that was sent. -/
theorem Reading.read_of_move (reading : s.Reading) (custody : s.Custody) (carried : s.Carried)
    (posted : ∀ q ∈ s.enqueued, q.call ∈ s.posted) {w : ℕ} {label : WorkerLabel} {pc : WorkerPc}
    (permitted : s.Own (.worker w label)) (moves : WorkerMove span s w label pc) {q : Queued}
    {reqData : List Byte} (calling : pc = .calling q reqData) :
    reqData = (s.args q.call).requestData := by
  cases moves with
  | idle idles => rcases idles with rfl | rfl | rfl | rfl <;> cases calling
  | deQueue => cases calling
  | start dequeued request =>
    -- a small request came with the copy of the slot
    obtain ⟨rfl, small, rfl⟩ := Queued.start_calling calling
    have carries := carried.enqueued _ (custody.started dequeued request)
    obtain ⟨fits, plain⟩ :=
      SendArgs.isUsingMmap_eq_false_iff.mp (carries.isUsingMmap.symm.trans small)
    exact carries.inline fits plain
  | fetch fetching =>
    obtain ⟨rfl, rfl⟩ := WorkerPc.calling.inj calling
    have member := custody.busy (by rw [fetching]; rfl) (by simp [fetching])
    have names := (carried.enqueued _ member).toNames
    -- no call has copied since the one that has posted the request
    simp only [Own, fetching, WorkerPc.own, decide_eq_true_eq] at permitted
    rw [names.requestSize]
    refine reading.written _ (posted _ member) ?_ permitted.symm
    exact names.isUsingMmap.symm.trans (reading.fetching _ _ fetching)
  | serve => exact absurd calling Queued.answer_ne_calling

/-- What a worker runs the callback or the check path on in a step of its own is the request
that was sent. -/
theorem Reading.served_of_worker (reading : s.Reading) (custody : s.Custody) (carried : s.Carried)
    (begun : ∀ q ∈ s.enqueued, q.call < s.calls) {w : ℕ} {label : WorkerLabel}
    (works : WorkerStep span s w label t) :
    (∀ e ∈ t.served, e.call < s.calls) ∧ ∀ e ∈ t.served,
      e.requestData = (s.args e.call).requestData ∧
        e.requestSize = (s.args e.call).requestData.length := by
  cases works with
  | @serve q reqData label response calling =>
    have member := custody.busy (by rw [calling]; rfl) (by simp [calling])
    have names := (carried.enqueued q member).toNames
    refine ⟨List.forall_mem_append.mpr ⟨reading.served, ?_⟩,
      List.forall_mem_append.mpr ⟨reading.intact, ?_⟩⟩
    · exact List.forall_mem_singleton.mpr (begun q member)
    · exact List.forall_mem_singleton.mpr ⟨reading.read w q reqData calling, names.requestSize⟩
  | _ => exact ⟨reading.served, reading.intact⟩

theorem Reading.keep (reading : s.Reading)
    (earlier : Run (step span nMaxThreadCount) Own start labels s) (permitted : s.Own label)
    (next : s.step span nMaxThreadCount label = some t) : t.Reading := by
  have custody := custody_of_run earlier
  have carried := carried_of_run earlier
  have accounted := accounted_of_run earlier
  have begun := (begun_of_run earlier).2
  have written := reading.written_step accounted next
  cases step_cases next with
  | @worker w label _ works =>
    obtain ⟨args, calls⟩ := args_of_worker works
    have posted : ∀ q ∈ s.enqueued, q.call ∈ s.posted := fun q member =>
      (balanced_of_run earlier).subset (List.mem_map_of_mem member)
    obtain ⟨served, intact⟩ := reading.served_of_worker custody carried begun works
    refine ⟨written, ?fetching, ?read, ?served, ?intact⟩
    case fetching =>
      intro v q fetching
      by_cases own : v = w
      · exact fetching_of_move (move_of_worker works) (own ▸ fetching)
      · exact reading.fetching v q ((worker_of_ne works own).symm.trans fetching)
    case read =>
      intro v q reqData calling
      rw [args]
      by_cases own : v = w
      · exact reading.read_of_move custody carried posted permitted (move_of_worker works)
          (own ▸ calling)
      · exact reading.read v q reqData ((worker_of_ne works own).symm.trans calling)
    case served => rwa [calls]
    case intact => rwa [Intact, args]
  | begin =>
    -- the arguments of the calls that have begun stay as they are
    refine ⟨written, reading.fetching, ?read, ?served, ?intact⟩
    case read =>
      intro w q reqData calling
      change s.worker w = .calling q reqData at calling
      have member := custody.busy (by rw [calling]; rfl) (by rw [calling]; exact nofun)
      exact (reading.read w q reqData calling).trans
        (congrArg SendArgs.requestData (args_of_step next (begun q member)).symm)
    case served => exact fun e member => (reading.served e member).trans (Nat.lt_succ_self _)
    case intact =>
      intro e member
      have same := (args_of_step next (reading.served e member)).symm
      exact (congrArg (fun args : SendArgs => e.requestData = args.requestData ∧
        e.requestSize = args.requestData.length) same).mp (reading.intact e member)
  | _ => exact ⟨written, reading.fetching, reading.read, reading.served, reading.intact⟩

instance (s : Server) : DecidablePred s.Own
  | .worker w (.fetch true) => inferInstanceAs (Decidable ((s.worker w).own s.writer = true))
  | .worker _ (.fetch false) | .worker _ .test | .worker _ .deQueue | .worker _ (.callback _)
  | .worker _ .check | .worker _ .leave | .createIPC | .begin _ | .attempt .. | .giveUp _
  | .main _ | .stop | .stopQueue => inferInstanceAs (Decidable True)

end Server

end ExLibs.IPC.Unix
