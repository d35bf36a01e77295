/-
# Where requests are

A request goes from the slot into the queue and from there to one worker, which changes
nothing of it but `responseSize`. What holds of the requests that `main` has put into the
queue holds of those that the workers have in hand.
-/
import ExLibs.IPC.Windows.Survival

namespace ExLibs.IPC.Windows

open ExLibs.Math ExLibs.Util

/-- The worker fetches the request from its mapping. -/
def WorkerPlace.fetches : WorkerPlace → Bool
  | openReqMutex | openReqMapping | mapReq _ | copyReq _ | unmapReq => true
  | _ => false

/-- The call whose request mapping the worker has found. -/
def WorkerPlace.mapping : WorkerPlace → Option ℕ
  | mapReq hMapFile => hMapFile
  | copyReq mapping => some mapping
  | _ => none

namespace Job

/-- What becomes of a job whose turn goes on: nothing, or it fetches its request, or it
gets a response. -/
inductive Goes (view : ℕ) (reqMapping : ℕ → List Byte) (job : Job) :
    WorkerPlace → WorkerPlace → Job → Prop
  | move {place place' : WorkerPlace} (fetching : place'.fetches = true → place.fetches = true) :
      Goes view reqMapping job place place' job
  | fetch {mapping : ℕ} (fits : job.data.requestSize ≤ view) :
      Goes view reqMapping job (.copyReq mapping) .unmapReq
        { job with reqData := some ((reqMapping mapping).take job.data.requestSize) }
  | respond {responseSize : ℕ} {resData : Option (List Byte)} :
      Goes view reqMapping job .callback .createResMutex
        { job with data := { job.data with responseSize }, resData }
  | map : Goes view reqMapping job .createData .mapData { job with hMapDataFile := true }

variable {view : ℕ} {isStop : Bool} {reqMapping : ℕ → List Byte} {job job' : Job}
  {place place' : WorkerPlace} {label : WorkerLabel} {pc : WorkerPc}

/-- A job with a response waits for its mutex, or its response is skipped. -/
theorem answer_cases (job : Job) :
    job.answer = .testing ∨ job.answer = .busy .createResMutex job := by
  unfold answer
  split_ifs
  · exact .inl rfl
  · exact .inl rfl
  · exact .inr rfl

theorem poll_cases (job : Job) :
    job.poll = .busy .openPoll job ∨ job.poll = .busy .closeData job := by
  unfold poll
  split
  · exact .inl rfl
  · exact .inr rfl

/-- What one call of a turn comes to: the worker goes back to its loop or to its end, or the
turn goes on, with a mapping that it has found or finds. -/
theorem proceed_cases (goes : job.proceed view isStop reqMapping place label = some pc) :
    pc = .testing ∨ pc.ending = some isStop ∨
      ∃ place' job', pc = .busy place' job' ∧ Goes view reqMapping job place place' job' ∧
        ∀ mapping, place'.mapping = some mapping →
          place.mapping = some mapping ∨ label = .find (some mapping) := by
  have polls : ∀ pc, job.poll = pc → ∃ place' job', pc = .busy place' job' ∧
      Goes view reqMapping job place place' job' ∧ ∀ mapping, place'.mapping = some mapping →
        place.mapping = some mapping ∨ label = .find (some mapping) := by
    rintro _ rfl
    rcases poll_cases job with on | out
    · exact ⟨_, _, on, .move nofun, nofun⟩
    · exact ⟨_, _, out, .move nofun, nofun⟩
  unfold proceed at goes
  split at goes
  -- the calls that fail, and those that look at the job, go on in more than one way
  all_goals
    try split at goes
    all_goals try split at goes
  all_goals cases goes
  all_goals first
    | exact .inl rfl
    | exact .inr (.inl rfl)
    | exact .inr (.inr (polls _ rfl))
    | exact .inr (.inr ⟨_, _, rfl, .fetch (And.right ‹_›), nofun⟩)
    | exact .inr (.inr ⟨_, _, rfl, .map, nofun⟩)
    | exact .inr (.inr ⟨_, _, rfl, .move (by simp [WorkerPlace.fetches]),
        by simp [WorkerPlace.mapping]⟩)
    | rcases answer_cases _ with back | on
      · exact .inl back
      · exact .inr (.inr ⟨_, _, on, .respond, nofun⟩)

theorem proceed_busy
    (goes : job.proceed view isStop reqMapping place label = some (.busy place' job')) :
    Goes view reqMapping job place place' job' ∧ ∀ mapping, place'.mapping = some mapping →
      place.mapping = some mapping ∨ label = .find (some mapping) := by
  rcases proceed_cases goes with back | ended | ⟨_, _, on, goes⟩
  · cases back
  · cases ended
  · obtain ⟨rfl, rfl⟩ := WorkerPc.busy.inj on
    exact goes

/-- Within a turn no worker comes to the queue. -/
theorem not_dequeued_of_proceed {q : Queued} :
    job.proceed view isStop reqMapping place label ≠ some (.dequeued q) := by
  intro goes
  rcases proceed_cases goes with back | ended | ⟨_, _, on, -⟩
  · cases back
  · cases ended
  · cases on

/-- The first job of a turn. -/
theorem start_busy {q : Queued} (begins : start q = .busy place job) :
    job.toQueued = q ∧
      (q.data.isUsingMmap = true ∧ job.reqData = none ∨
        q.data.isUsingMmap = false ∧ place.fetches = false ∧
          job.reqData = some (q.data.reqData.take q.data.requestSize)) := by
  unfold start at begins
  split_ifs at begins with large
  · obtain ⟨rfl, rfl⟩ := WorkerPc.busy.inj begins
    exact ⟨rfl, .inl ⟨large, rfl⟩⟩
  · obtain ⟨rfl, rfl⟩ := WorkerPc.busy.inj begins
    exact ⟨rfl, .inr ⟨Bool.eq_false_iff.mpr large, rfl, rfl⟩⟩

/-- The turn serves a request from the queue. -/
def Serves (job : Job) (q : Queued) : Prop :=
  ∃ responseSize, job.toQueued = { q with data := { q.data with responseSize } }

theorem Serves.goes {q : Queued} (serves : job.Serves q)
    (goes : job.Goes view reqMapping place place' job') : job'.Serves q := by
  obtain ⟨before, same⟩ := serves
  cases goes with
  | respond => exact ⟨_, by rw [same]⟩
  | _ => exact ⟨before, same⟩

end Job

namespace Server

variable {view nMaxThreadCount : ℕ} {s t : Server} {label : ServerLabel}
  {labels : List ServerLabel}

/-- A worker moves itself only. -/
theorem worker_of_ne {w v : ℕ} {label : WorkerLabel} (works : WorkerStep view s w label t)
    (other : v ≠ w) : t.worker v = s.worker v := by
  cases works <;> exact gotoWorker_of_ne s _ other

/-- How a worker comes to be at a place in a turn. -/
theorem busy_cases (next : s.step view nMaxThreadCount label = some t) {w : ℕ}
    {place : WorkerPlace} {job : Job} (busy : t.worker w = .busy place job) :
    s.worker w = .busy place job ∨
      (∃ q, s.worker w = .dequeued q ∧ q.data.hasRequest = true ∧
        Job.start q = .busy place job) ∨
      ∃ place₀ job₀ label₀, s.worker w = .busy place₀ job₀ ∧ s.finds job₀ label₀ = true ∧
        job₀.proceed view s.isStop s.reqMapping place₀ label₀ = some (.busy place job) := by
  cases step_cases next with
  | @worker v _ _ created works =>
    by_cases own : w = v
    · subst own
      cases works with
      | test => simp only [gotoWorker_self] at busy; split at busy <;> cases busy
      | deQueue | leave | skip => simp only [gotoWorker_self, reduceCtorEq] at busy
      | start dequeued request =>
        simp only [gotoWorker_self] at busy
        exact .inr (.inl ⟨_, dequeued, request, busy⟩)
      | proceed before finds goes =>
        simp only [gotoWorker_self] at busy
        subst busy
        exact .inr (.inr ⟨_, _, _, before, finds, goes⟩)
    · exact .inl ((worker_of_ne works own).symm.trans busy)
  | _ => exact .inl busy

/-- How a worker comes to have a request from the queue. -/
theorem dequeued_cases (next : s.step view nMaxThreadCount label = some t) {w : ℕ} {q : Queued}
    (dequeued : t.worker w = .dequeued q) :
    s.worker w = .dequeued q ∨ ∃ queue, s.queue.deQueue = some (q, queue) := by
  cases step_cases next with
  | @worker v _ _ created works =>
    by_cases own : w = v
    · subst own
      cases works with
      | test => simp only [gotoWorker_self] at dequeued; split at dequeued <;> cases dequeued
      | leave | skip => simp only [gotoWorker_self, reduceCtorEq] at dequeued
      | deQueue waiting takes =>
        simp only [gotoWorker_self, WorkerPc.dequeued.injEq] at dequeued
        exact .inr ⟨_, dequeued ▸ takes⟩
      | @start q' =>
        simp only [gotoWorker_self, Job.start] at dequeued
        split at dequeued <;> cases dequeued
      | proceed before finds goes =>
        simp only [gotoWorker_self] at dequeued
        exact absurd (dequeued ▸ goes) Job.not_dequeued_of_proceed
    · exact .inl ((worker_of_ne works own).symm.trans dequeued)
  | _ => exact .inl dequeued

/-- What is in the queue or with a worker was put into the queue. -/
structure Custody (s : Server) : Prop where
  queued : ∀ q ∈ s.queue.queue, q ∈ s.enqueued
  dequeued : ∀ w q, s.worker w = .dequeued q → q.data.hasRequest = true → q ∈ s.enqueued
  busy : ∀ w place job, s.worker w = .busy place job → ∃ q ∈ s.enqueued, job.Serves q

/-- The queue holds what it held and what `main` adds, and `main` records what it adds. -/
theorem queue_of_step (next : s.step view nMaxThreadCount label = some t) :
    s.enqueued ⊆ t.enqueued ∧ ∀ q ∈ t.queue.queue, q ∈ s.queue.queue ∨ q ∈ t.enqueued := by
  cases step_cases next with
  | worker created works =>
    cases works with
    | deQueue waiting takes =>
      exact ⟨List.Subset.refl _, fun q member =>
        .inl ((EventQueue.mem_of_deQueue takes).2 q member)⟩
    | _ => exact ⟨List.Subset.refl _, fun _ => .inl⟩
  | enqueue request =>
    refine ⟨List.subset_append_left .., fun q member => ?_⟩
    rcases List.mem_append.mp member with earlier | now
    · exact .inl earlier
    · exact .inr (List.mem_append_right _ now)
  | _ => exact ⟨List.Subset.refl _, fun _ => .inl⟩

theorem Custody.keep (custody : s.Custody) (next : s.step view nMaxThreadCount label = some t) :
    t.Custody := by
  obtain ⟨grows, queue⟩ := queue_of_step next
  refine ⟨fun q member => ?_, fun w q dequeued request => ?_, fun w place job busy => ?_⟩
  · exact (queue q member).elim (fun earlier => grows (custody.queued q earlier)) id
  · rcases dequeued_cases next dequeued with before | ⟨queue', takes⟩
    · exact grows (custody.dequeued w q before request)
    · rcases (EventQueue.mem_of_deQueue takes).1 with member | rfl
      · exact grows (custody.queued q member)
      · -- the `T()` of a stopped queue carries no request
        cases request
  · rcases busy_cases next busy with before | ⟨q, before, request, begins⟩ |
      ⟨place₀, job₀, label₀, before, -, goes⟩
    · obtain ⟨q, member, serves⟩ := custody.busy w place job before
      exact ⟨q, grows member, serves⟩
    · -- a worker that begins a turn has come from the queue
      obtain ⟨same, -⟩ := Job.start_busy begins
      exact ⟨q, grows (custody.dequeued w q before request), q.data.responseSize, same⟩
    · obtain ⟨q, member, serves⟩ := custody.busy w place₀ job₀ before
      exact ⟨q, grows member, serves.goes (Job.proceed_busy goes).1⟩

theorem custody_of_run {allowed : Server → ServerLabel → Prop}
    (run : Run (step view nMaxThreadCount) allowed start labels s) : s.Custody := by
  have testing : ∀ w, start.worker w = .testing := fun _ => rfl
  have initial : start.Custody :=
    ⟨fun _ member => absurd member List.not_mem_nil, by simp [testing], by simp [testing]⟩
  exact run.invariant initial fun _ _ _ custody _ next => custody.keep next

end Server

end ExLibs.IPC.Windows
