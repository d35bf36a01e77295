/-
# The workers of a server

`CIPCServer::main` creates `nMaxThreadCount - 1` workers, which are to serve until
`_isStop` is set. A worker whose client has closed its slot between the mutex and the
mapping takes a `break` that leaves the loop over the requests. It also ends with its
process when it reads a request beyond its view, copies one into memory it did not get, or
copies a response from the null pointer that the callback left.
-/
import ExLibs.IPC.Windows.Posting

namespace ExLibs.IPC.Windows

open ExLibs.Math

/-- What `_isStop` was when the worker came to its end, if it did. -/
def WorkerPc.ending : WorkerPc → Option Bool
  | testing | deQueueing | dequeued _ | busy .. => none
  | ended stopped | faulted stopped => some stopped

namespace WorkerPc

@[simp] theorem ending_testing : testing.ending = none := rfl

@[simp] theorem ending_deQueueing : deQueueing.ending = none := rfl

@[simp] theorem ending_dequeued (q : Queued) : (dequeued q).ending = none := rfl

@[simp] theorem ending_busy (place : WorkerPlace) (job : Job) : (busy place job).ending = none :=
  rfl

@[simp] theorem ending_ended (stopped : Bool) : (ended stopped).ending = some stopped := rfl

@[simp] theorem ending_faulted (stopped : Bool) : (faulted stopped).ending = some stopped := rfl

end WorkerPc

namespace Job

/-- A call of a turn does not end the worker: the slot of the client can be mapped, and
what is copied is there and fits. -/
def survives (view : ℕ) (job : Job) : WorkerPlace → WorkerLabel → Bool
  | .copyReq _, .os succeeds => succeeds && job.data.requestSize ≤ view
  | .mapClient _, .os succeeds => succeeds
  | .publish, .os _ => job.responds || job.resData.isSome
  | .copyData, .os _ => job.resData.isSome && job.data.responseSize ≤ view
  | _, _ => true

variable {view : ℕ} {isStop : Bool} {reqMapping : ℕ → List Byte} {job : Job}
  {place : WorkerPlace} {label : WorkerLabel} {pc : WorkerPc}

theorem ending_start (q : Queued) : (start q).ending = none := by
  unfold start
  split <;> rfl

theorem ending_answer (job : Job) : job.answer.ending = none := by
  unfold answer
  split_ifs <;> rfl

theorem ending_poll (job : Job) : job.poll.ending = none := by
  unfold poll
  split <;> rfl

/-- A call ends the worker exactly if it does not survive it. -/
theorem ending_proceed (goes : job.proceed view isStop reqMapping place label = some pc) :
    pc.ending = if job.survives view place label then none else some isStop := by
  unfold proceed at goes
  split at goes
  -- the calls that fail, and those that look at the job, go on in more than one way
  all_goals
    try split at goes
    all_goals try split at goes
  all_goals cases goes
  all_goals simp_all [survives, ending_answer, ending_poll]

end Job

/-- A step of a worker does not end it. -/
def WorkerPc.survives (view : ℕ) : WorkerPc → WorkerLabel → Bool
  | busy place job, label => job.survives view place label
  | _, _ => true

namespace Server

variable {view nMaxThreadCount : ℕ} {s t : Server} {label : ServerLabel}
  {labels : List ServerLabel}

/-- No worker has come to an end without `_isStop`, and until it is set all the workers that
were created serve. -/
structure Sustained (nMaxThreadCount : ℕ) (s : Server) : Prop where
  kept : ∀ w, (s.worker w).ending ≠ some false
  live : s.isStop = false →
    (List.range (nMaxThreadCount - 1)).countP (fun w => (s.worker w).ending = none) =
      nMaxThreadCount - 1

/-- The worker that takes a step survives it, or is to end. -/
def Survives (view : ℕ) (s : Server) : ServerLabel → Prop
  | .worker w label => s.isStop = true ∨ (s.worker w).survives view label = true
  | _ => True

/-- A worker that came to its end when the server was stopping has left one that stops. -/
def Ended (s : Server) : Prop := ∀ w, (s.worker w).ending = some true → s.isStop = true

/-- What is so of all workers is so after a step of one if it is so of the one. -/
theorem forall_gotoWorker {w : ℕ} {pc : WorkerPc} (good : Option Bool → Prop)
    (before : good (s.worker w).ending) :
    (∀ v, good ((s.gotoWorker w pc).worker v).ending) ↔
      (∀ v, good (s.worker v).ending) ∧ good pc.ending := by
  simp only [gotoWorker, Function.update_apply]
  constructor
  · intro all
    have moved := all w
    rw [if_pos rfl] at moved
    refine ⟨fun v => ?_, moved⟩
    by_cases same : v = w
    · rwa [same]
    · simpa [same] using all v
  · rintro ⟨all, moved⟩ v
    split
    · exact moved
    · exact all v

/-- What a step of a worker makes of its end. -/
theorem ending_of_worker {w : ℕ} {label : WorkerLabel} (works : WorkerStep view s w label t) :
    (s.worker w).ending = none ∧ t.isStop = s.isStop ∧ ∃ pc : WorkerPc,
      t.worker = (s.gotoWorker w pc).worker ∧
      (pc.ending = none ∨ pc.ending = some s.isStop) ∧
      (pc.ending = some false ↔ ¬ s.Survives view (.worker w label)) := by
  have goes : ∀ {label : WorkerLabel} {pc : WorkerPc}, pc.ending = none →
      (s.worker w).survives view label = true →
      (pc.ending = none ∨ pc.ending = some s.isStop) ∧
        (pc.ending = some false ↔ ¬ s.Survives view (.worker w label)) := by
    intro label pc goes survives
    exact ⟨.inl goes, iff_of_false (by simp [goes]) (not_not_intro (.inr survives))⟩
  cases works with
  | test testing =>
    refine ⟨by simp [testing], rfl, _, rfl, ?_⟩
    simp only [Survives, WorkerPc.survives, testing]
    split <;> simp_all
  | deQueue waiting =>
    exact ⟨by simp [waiting], rfl, _, rfl, goes rfl (by simp [WorkerPc.survives, waiting])⟩
  | leave dequeued stopped =>
    refine ⟨by simp [dequeued], rfl, _, rfl, ?_⟩
    simp [Survives, stopped]
  | skip dequeued =>
    exact ⟨by simp [dequeued], rfl, _, rfl, goes rfl (by simp [WorkerPc.survives, dequeued])⟩
  | start dequeued request =>
    exact ⟨by simp [dequeued], rfl, _, rfl,
      goes (Job.ending_start _) (by simp [WorkerPc.survives, dequeued])⟩
  | proceed busy finds goes =>
    refine ⟨by simp [busy], rfl, _, rfl, ?_⟩
    rw [Job.ending_proceed goes]
    simp only [Survives, WorkerPc.survives, busy]
    split
    · rename_i survives
      simp [survives]
    · rename_i fails
      simp [fails]

/-- A step loses no worker exactly if the worker that takes it survives. -/
theorem kept_iff_of_step (next : s.step view nMaxThreadCount label = some t) :
    (∀ w, (t.worker w).ending ≠ some false) ↔
      (∀ w, (s.worker w).ending ≠ some false) ∧ s.Survives view label := by
  cases step_cases next with
  | worker created works =>
    obtain ⟨serving, -, pc, moved, -, lost⟩ := ending_of_worker works
    rw [moved, forall_gotoWorker (· ≠ some false) (by simp [serving])]
    exact and_congr_right fun _ => lost.not.trans not_not
  | _ => simp [Survives, raise, goto]

theorem Ended.keep (ended : s.Ended) (next : s.step view nMaxThreadCount label = some t) :
    t.Ended := by
  cases step_cases next with
  | worker created works =>
    obtain ⟨serving, same, pc, moved, left, -⟩ := ending_of_worker works
    unfold Ended
    rw [moved, same]
    refine (forall_gotoWorker (· = some true → s.isStop = true) (by simp [serving])).mpr
      ⟨ended, fun stopped => ?_⟩
    rw [stopped] at left
    exact (Option.some.inj (left.resolve_left nofun)).symm
  | stop => exact fun _ _ => rfl
  | _ => exact ended

theorem ended_of_run {allowed : Server → ServerLabel → Prop}
    (run : Run (step view nMaxThreadCount) allowed start labels s) : s.Ended := by
  have initial : start.Ended := nofun
  exact run.invariant initial fun _ _ _ ended _ next => ended.keep next

/-- A server keeps its workers until it stops if and only if every call that a worker makes
before that is one that it survives. -/
theorem sustained_iff_survives (run : Run (step view nMaxThreadCount) Free start labels s) :
    s.Sustained nMaxThreadCount ↔
      Run (step view nMaxThreadCount) (Survives view) start labels s := by
  have account : (∀ w, (s.worker w).ending ≠ some false) ↔
      Run (step view nMaxThreadCount) (Survives view) start labels s :=
    run.good_iff nofun fun _ _ _ _ _ next => kept_iff_of_step next
  rw [← account]
  refine ⟨fun sustained => sustained.kept, fun kept => ⟨kept, fun running => ?_⟩⟩
  have live : ∀ w ∈ List.range (nMaxThreadCount - 1), decide ((s.worker w).ending = none) := by
    intro w _
    have ended := ended_of_run run w
    cases ending : (s.worker w).ending with
    | none => rfl
    | some stopped =>
      cases stopped with
      | false => exact absurd ending (kept w)
      | true => exact absurd (ended ending) (by simp [running])
  rw [List.countP_eq_length.mpr live, List.length_range]

instance (view : ℕ) (s : Server) : DecidablePred (s.Survives view)
  | .worker w label => inferInstanceAs
      (Decidable (s.isStop = true ∨ (s.worker w).survives view label = true))
  | .begin _ | .attempt .. | .giveUp _ | .main .. | .stop | .stopQueue =>
    inferInstanceAs (Decidable True)

/-- A call that checks the connection. -/
def checkCall : SendArgs := ⟨CallOrigin.plain.sIPCClientName, 12, quTestMsg, 10, true⟩

/-- A call whose request fits into the slot. -/
def smallCall : SendArgs := ⟨CallOrigin.plain.sIPCClientName, 12, [1, 2, 3, 4], 10, false⟩

/-- A worker that answers a check through the mappings and waits for the client is alive
after it. -/
theorem sustained_through_check : ∃ s : Server, s.Sustained 2 ∧
    s.enqueued.length = 1 := by
  obtain ⟨s, run, ended⟩ := @exists_run_of_guarded _ _ (step 4096 2) (Survives 4096)
    (fun s label => s.Survives 4096 label) (fun _ _ => of_decide_eq_true) start
    [.begin checkCall, .attempt 0 0 succeeding, .main true true, .worker 0 .test,
      .worker 0 .deQueue, .worker 0 .test, .worker 0 (.os true), .worker 0 (.find (some 0)),
      .worker 0 (.os true), .worker 0 (.os true), .worker 0 (.os true), .worker 0 (.os true),
      .worker 0 (.os true), .worker 0 (.os true), .worker 0 (.os true), .worker 0 (.os true),
      .worker 0 (.os true), .worker 0 (.os true), .worker 0 (.os true), .worker 0 (.os true),
      .worker 0 (.os true), .worker 0 (.os true), .worker 0 (.os true), .worker 0 (.os true),
      .worker 0 (.os true), .worker 0 (.look true), .worker 0 (.os true)]
    (fun s => s.enqueued.length = 1) (by decide +kernel)
  exact ⟨s, (sustained_iff_survives run.free).mpr run, of_decide_eq_true ended⟩

/-- A client that times out between the mutex and the mapping of its slot takes the only
worker of the server with it. -/
theorem worker_leaves : ∃ s : Server, Run (step 4096 2) Free start
    [.begin smallCall, .attempt 0 0 succeeding, .main true true, .worker 0 .test,
      .worker 0 .deQueue, .worker 0 .test, .worker 0 (.callback 4), .worker 0 (.os true),
      .worker 0 (.os true), .worker 0 (.os false), .worker 0 (.os false)] s ∧
    s.isStop = false ∧ ¬ s.Sustained 2 := by
  obtain ⟨s, run, ended⟩ := @exists_run_of_exec _ _ (step 4096 2) start
    [.begin smallCall, .attempt 0 0 succeeding, .main true true, .worker 0 .test,
      .worker 0 .deQueue, .worker 0 .test, .worker 0 (.callback 4), .worker 0 (.os true),
      .worker 0 (.os true), .worker 0 (.os false), .worker 0 (.os false)]
    (fun s => s.isStop = false ∧ (s.worker 0).ending = some false) (by decide +kernel)
  obtain ⟨running, left⟩ := of_decide_eq_true ended
  exact ⟨s, run, running, fun sustained => sustained.kept 0 left⟩

end Server

end ExLibs.IPC.Windows
