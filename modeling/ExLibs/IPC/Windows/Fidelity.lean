/-
# What the callback is called with

A request that fits into the slot reaches the callback as it was sent. A larger one is to
go through the request mapping of its call, but `SendIPC` copies out of that mapping, not
into it, so that the worker finds the zeros that the mapping was made of, or does not find
the mapping and calls the callback with the null pointer.
-/
import ExLibs.IPC.Windows.Custody

namespace ExLibs.IPC.Windows

open ExLibs.Math

/-- The data carries the request of a call. -/
structure StIPCData.Carries (data : StIPCData) (args : SendArgs) : Prop where
  requestSize : data.requestSize = args.requestData.length
  bCheckIPC : data.bCheckIPC = args.bCheckIPC
  inline : args.isUsingMmap = false → data.reqData.take data.requestSize = args.requestData

theorem StIPCData.Carries.isUsingMmap {data : StIPCData} {args : SendArgs}
    (carries : data.Carries args) : data.isUsingMmap = args.isUsingMmap := by
  rw [StIPCData.isUsingMmap, carries.requestSize, carries.bCheckIPC]
  rfl

namespace Job

theorem Serves.carries {job : Job} {q : Queued} {args : SendArgs} (serves : job.Serves q)
    (carries : q.data.Carries args) : job.data.Carries args := by
  obtain ⟨responseSize, same⟩ := serves
  rw [same]
  exact ⟨carries.requestSize, carries.bCheckIPC, carries.inline⟩

/-- What a turn has fetched of its request: what the slot had room for, or zeros. -/
structure Fetched (job : Job) (place : WorkerPlace) : Prop where
  inline : job.data.isUsingMmap = false →
    place.fetches = false ∧ job.reqData = some (job.data.reqData.take job.data.requestSize)
  mapped : job.data.isUsingMmap = true →
    ∀ reqData, job.reqData = some reqData → reqData = List.replicate job.data.requestSize 0

theorem Fetched.start {q : Queued} {place : WorkerPlace} {job : Job}
    (begins : Job.start q = .busy place job) : job.Fetched place := by
  obtain ⟨rfl, ⟨large, null⟩ | ⟨small, past, fetched⟩⟩ := start_busy begins
  · exact ⟨fun small => by simp [large] at small, fun _ _ found => by simp [null] at found⟩
  · exact ⟨fun _ => ⟨past, fetched⟩, fun large => by simp [small] at large⟩

theorem Fetched.goes {view : ℕ} {reqMapping : ℕ → List Byte} {job job' : Job}
    {place place' : WorkerPlace} (fetched : job.Fetched place)
    (zeros : ∀ mapping, place.mapping = some mapping → reqMapping mapping = List.replicate view 0)
    (goes : job.Goes view reqMapping place place' job') : job'.Fetched place' := by
  cases goes with
  | move fetching =>
    refine ⟨fun small => ?_, fetched.mapped⟩
    obtain ⟨past, found⟩ := fetched.inline small
    refine ⟨?_, found⟩
    by_contra fetches
    rw [fetching (Bool.eq_true_of_not_eq_false fetches)] at past
    cases past
  | @fetch mapping fits =>
    -- the mapping is as it was made
    refine ⟨fun small => ?_, fun _ reqData found => ?_⟩
    · have past := (fetched.inline small).1
      cases past
    · obtain rfl := Option.some.inj found
      rw [zeros mapping rfl, List.take_replicate, min_eq_left fits]
  | respond | map => exact ⟨fetched.inline, fetched.mapped⟩

/-- A turn has fetched the request that was sent exactly if it fits into the slot, or is
found and all zeros. -/
theorem Fetched.eq_iff {job : Job} {place : WorkerPlace} {args : SendArgs}
    (fetched : job.Fetched place) (carries : job.data.Carries args)
    (plain : job.data.bCheckIPC = false) :
    job.reqData = some args.requestData ↔ args.requestData.length ≤ sizeofData ∨
      job.reqData.isSome = true ∧ ∀ b ∈ args.requestData, b = 0 := by
  have large : job.data.isUsingMmap = decide (sizeofData < args.requestData.length) := by
    simp [StIPCData.isUsingMmap, plain, carries.requestSize]
  by_cases fits : args.requestData.length ≤ sizeofData
  · have small : job.data.isUsingMmap = false := by simp [large, fits]
    have same := carries.inline (carries.isUsingMmap.symm.trans small)
    simp [fits, (fetched.inline small).2, same]
  · have mapped := fetched.mapped (by simpa [large] using fits)
    cases found : job.reqData with
    | none => simp [fits]
    | some reqData =>
      rw [mapped reqData found, carries.requestSize, Option.some.injEq]
      simp only [fits, false_or, Option.isSome_some, true_and]
      rw [eq_comm, List.eq_replicate_iff]
      exact and_iff_right rfl

end Job

/-- The request of the worker that comes to its callback fits into the slot, or consists of
zeros and the worker has found its mapping. -/
def WorkerPc.delivers (args : ℕ → SendArgs) : WorkerPc → Bool
  | busy .callback job => (args job.call).requestData.length ≤ sizeofData ||
      job.reqData.isSome && (args job.call).requestData.all (· == 0)
  | _ => true

namespace Server

variable {view nMaxThreadCount : ℕ} {s t : Server} {label : ServerLabel}
  {labels : List ServerLabel}

/-- The callback was called with the requests that were sent. -/
def Delivered (s : Server) : Prop :=
  ∀ e ∈ s.served, e.requestData = some (s.args e.call).requestData ∧
    e.requestSize = (s.args e.call).requestData.length

/-- A worker calls the callback only for a request that it delivers. -/
def Delivers (s : Server) : ServerLabel → Prop
  | .worker w (.callback _) => (s.worker w).delivers s.args = true
  | _ => True

/-- Requests on their way, and the mappings that nothing is written into. -/
structure Carried (view : ℕ) (s : Server) : Prop where
  slot : s.slot.hasRequest = true → s.slot.Carries (s.args s.poster)
  enqueued : ∀ q ∈ s.enqueued, q.data.Carries (s.args q.call)
  zeros : ∀ call < s.calls, s.reqMapping call = List.replicate view 0
  found : ∀ w place job mapping, s.worker w = .busy place job →
    place.mapping = some mapping → mapping < s.calls
  fetched : ∀ w place job, s.worker w = .busy place job → job.Fetched place
  served : ∀ e ∈ s.served, e.call < s.calls

/-- The slot carries the request of the call that has raised `hasRequest` in it. -/
theorem Carried.slot_step (carried : s.Carried view)
    (begun : s.slot.hasRequest = true → s.poster < s.calls)
    (next : s.step view nMaxThreadCount label = some t) (request : t.slot.hasRequest = true) :
    t.slot.Carries (t.args t.poster) := by
  cases step_cases next with
  | @sent call now os reqData posting enters completes copied =>
    refine ⟨rfl, rfl, fun small => ?_⟩
    change reqData.take (s.args call).requestData.length = (s.args call).requestData
    rw [copied small, take_memcpy]
  -- an attempt that fails half-way has a large request, which is not in the slot
  | @abandoned call now os pc posting enters fails mapped =>
    exact ⟨rfl, rfl, fun small => absurd (mapped.symm.trans small) Bool.true_eq_false.mp⟩
  | enqueue | discard => cases request
  | begin =>
    have same := (args_of_step next (begun request)).1
    exact (congrArg s.slot.Carries same).mpr (carried.slot request)
  | worker created works => cases works <;> exact carried.slot request
  | _ => exact carried.slot request

theorem Carried.enqueued_step (carried : s.Carried view)
    (begun : ∀ q ∈ s.enqueued, q.call < s.calls)
    (next : s.step view nMaxThreadCount label = some t) :
    ∀ q ∈ t.enqueued, q.data.Carries (t.args q.call) := by
  cases step_cases next with
  | enqueue request =>
    intro q member
    rcases List.mem_append.mp member with earlier | now
    · exact carried.enqueued q earlier
    · obtain rfl := List.mem_singleton.mp now
      exact carried.slot request
  | begin =>
    intro q member
    have same := (args_of_step next (begun q member)).1
    exact (congrArg q.data.Carries same).mpr (carried.enqueued q member)
  | worker created works => cases works <;> exact carried.enqueued
  | _ => exact carried.enqueued

/-- Nothing is written into a request mapping. -/
theorem Carried.zeros_step (carried : s.Carried view)
    (next : s.step view nMaxThreadCount label = some t) :
    ∀ call < t.calls, t.reqMapping call = List.replicate view 0 := by
  cases step_cases next with
  | begin =>
    intro call begun
    rcases Nat.lt_succ_iff_lt_or_eq.mp begun with earlier | rfl
    · exact (Function.update_of_ne earlier.ne _ _).trans (carried.zeros call earlier)
    · exact Function.update_self ..
  | worker created works => cases works <;> exact carried.zeros
  | _ => exact carried.zeros

theorem calls_le_of_step (next : s.step view nMaxThreadCount label = some t) :
    s.calls ≤ t.calls := by
  cases step_cases next with
  | begin => exact Nat.le_succ _
  | worker created works => cases works <;> exact le_rfl
  | _ => exact le_rfl

theorem Carried.found_step (carried : s.Carried view)
    (next : s.step view nMaxThreadCount label = some t) (w : ℕ) (place : WorkerPlace) (job : Job)
    (mapping : ℕ) (busy : t.worker w = .busy place job) (maps : place.mapping = some mapping) :
    mapping < t.calls := by
  refine lt_of_lt_of_le ?_ (calls_le_of_step next)
  rcases busy_cases next busy with before | ⟨q, -, -, begins⟩ |
    ⟨place₀, job₀, label₀, before, finds, goes⟩
  · exact carried.found w place job mapping before maps
  · unfold Job.start at begins
    split at begins <;> (obtain ⟨rfl, -⟩ := WorkerPc.busy.inj begins; cases maps)
  · rcases (Job.proceed_busy goes).2 mapping maps with earlier | rfl
    · exact carried.found w place₀ job₀ mapping before earlier
    · simp only [Server.finds, decide_eq_true_eq] at finds
      exact finds.1

theorem Carried.fetched_step (carried : s.Carried view)
    (next : s.step view nMaxThreadCount label = some t) (w : ℕ) (place : WorkerPlace) (job : Job)
    (busy : t.worker w = .busy place job) : job.Fetched place := by
  rcases busy_cases next busy with before | ⟨q, -, -, begins⟩ |
    ⟨place₀, job₀, label₀, before, -, goes⟩
  · exact carried.fetched w place job before
  · exact .start begins
  · refine (carried.fetched w place₀ job₀ before).goes (fun mapping maps => ?_)
      (Job.proceed_busy goes).1
    exact carried.zeros mapping (carried.found w place₀ job₀ mapping before maps)

/-- The callback of a step is called with the request that was sent exactly if the step
delivers it. -/
theorem serve_iff {w : ℕ} {place : WorkerPlace} {job : Job} {label : WorkerLabel} {pc : WorkerPc}
    (carried : s.Carried view) (custody : s.Custody) (busy : s.worker w = .busy place job)
    (goes : job.proceed view s.isStop s.reqMapping place label = some pc) :
    (∀ e ∈ serve job place label, e.requestData = some (s.args e.call).requestData ∧
      e.requestSize = (s.args e.call).requestData.length) ↔ s.Delivers (.worker w label) := by
  unfold serve
  split
  · rename_i responseSize
    have plain : job.data.bCheckIPC = false := by
      by_contra checks
      simp [Job.proceed, checks] at goes
    obtain ⟨q, member, serves⟩ := custody.busy w _ job busy
    have carries : job.data.Carries (s.args job.call) := by
      refine serves.carries ?_
      obtain ⟨_, same⟩ := serves
      rw [same]
      exact carried.enqueued q member
    -- the size is right in any case, so that it comes down to the bytes
    rw [List.forall_mem_singleton]
    rw [(carried.fetched w _ job busy).eq_iff carries plain]
    simp [Delivers, WorkerPc.delivers, busy, carries.requestSize]
  · rename_i other
    refine iff_of_true nofun ?_
    cases label with
    | callback responseSize =>
      rw [Delivers, busy]
      cases place with
      | callback => exact absurd rfl (other responseSize rfl)
      | _ => rfl
    | _ => trivial

/-- A step keeps the requests delivered exactly if it delivers its own. -/
theorem delivered_iff_of_step (carried : s.Carried view) (custody : s.Custody)
    (next : s.step view nMaxThreadCount label = some t) :
    t.Delivered ↔ s.Delivered ∧ s.Delivers label := by
  cases step_cases next with
  | worker created works =>
    cases works with
    | proceed busy finds goes =>
      rw [← serve_iff carried custody busy goes]
      exact List.forall_mem_append
    | _ => exact (and_iff_left trivial).symm
  | begin =>
    refine Iff.trans (forall₂_congr fun e member => ?_) (and_iff_left trivial).symm
    have same := (args_of_step next (carried.served e member)).1
    exact iff_of_eq (congrArg (fun args : SendArgs => e.requestData = some args.requestData ∧
      e.requestSize = args.requestData.length) same)
  | _ => exact (and_iff_left trivial).symm

theorem Carried.served_step (carried : s.Carried view) (custody : s.Custody)
    (begun : ∀ q ∈ s.enqueued, q.call < s.calls)
    (next : s.step view nMaxThreadCount label = some t) : ∀ e ∈ t.served, e.call < t.calls := by
  cases step_cases next with
  | worker created works =>
    cases works with
    | @proceed place job label pc busy finds goes =>
      intro e member
      rcases List.mem_append.mp member with earlier | now
      · exact carried.served e earlier
      · obtain ⟨q, member, responseSize, same⟩ := custody.busy _ _ _ busy
        have call : e.call = job.call := by
          unfold serve at now
          split at now
          · rw [List.mem_singleton.mp now]
          · cases now
        rw [call, same]
        exact begun q member
    | _ => exact carried.served
  | begin => exact fun e member => (carried.served e member).trans (Nat.lt_succ_self _)
  | _ => exact carried.served

theorem carried_of_run {allowed : Server → ServerLabel → Prop}
    (run : Run (step view nMaxThreadCount) allowed start labels s) : s.Carried view := by
  have testing : ∀ w, start.worker w = .testing := fun _ => rfl
  have initial : start.Carried view := {
    slot := fun request => absurd request Bool.false_ne_true
    enqueued := fun _ member => absurd member List.not_mem_nil
    zeros := fun _ begun => absurd begun (Nat.not_lt_zero _)
    found := by simp [testing]
    fetched := by simp [testing]
    served := fun _ member => absurd member List.not_mem_nil }
  refine run.invariant_of_reached initial fun labels s label t earlier carried _ next => ?_
  obtain ⟨poster, begun⟩ := begun_of_run earlier
  exact ⟨carried.slot_step poster next, carried.enqueued_step begun next, carried.zeros_step next,
    carried.found_step next, carried.fetched_step next,
    carried.served_step (custody_of_run earlier) begun next⟩

/-- The callback is called with the requests that were sent if and only if each that it is
called for fits into the slot, or consists of zeros and is found. -/
theorem delivered_iff_delivers (run : Run (step view nMaxThreadCount) Free start labels s) :
    s.Delivered ↔ Run (step view nMaxThreadCount) Delivers start labels s := by
  have initial : start.Delivered := fun _ member => absurd member List.not_mem_nil
  exact run.good_iff initial fun _ _ _ _ earlier next =>
    delivered_iff_of_step (carried_of_run earlier) (custody_of_run earlier) next

instance (s : Server) : DecidablePred s.Delivers
  | .worker w (.callback _) => inferInstanceAs (Decidable ((s.worker w).delivers s.args = true))
  | .worker _ .test | .worker _ .deQueue | .worker _ (.os _) | .worker _ (.find _)
  | .worker _ (.look _) | .begin _ | .attempt .. | .giveUp _ | .main .. | .stop | .stopQueue =>
    inferInstanceAs (Decidable True)

/-- A small request is delivered. -/
theorem delivered_of_small : ∃ s : Server, s.Delivered ∧
    s.served = [⟨0, some smallCall.requestData, smallCall.requestData.length⟩] := by
  obtain ⟨s, run, ended⟩ := @exists_run_of_guarded _ _ (step 4096 2) Delivers
    (fun s label => s.Delivers label) (fun _ _ => of_decide_eq_true) start
    [.begin smallCall, .attempt 0 0 succeeding, .main true true, .worker 0 .test,
      .worker 0 .deQueue, .worker 0 .test, .worker 0 (.callback 0)]
    (fun s => s.served = [⟨0, some smallCall.requestData, smallCall.requestData.length⟩])
    (by decide +kernel)
  exact ⟨s, (delivered_iff_delivers run.free).mpr run, of_decide_eq_true ended⟩

/-- A request of 2000 ones, for which every call to the system succeeds, reaches the callback
as 2000 zeros. -/
theorem ones_served_as_zeros : ∃ s : Server, Run (step 4096 2) Free start
    [.begin largeCall, .attempt 0 0 succeeding, .main true true, .worker 0 .test,
      .worker 0 .deQueue, .worker 0 .test, .worker 0 (.os true), .worker 0 (.find (some 0)),
      .worker 0 (.os true), .worker 0 (.os true), .worker 0 (.os true),
      .worker 0 (.callback 0)] s ∧
    s.served = [⟨0, some (List.replicate 2000 0), 2000⟩] ∧ ¬ s.Delivered := by
  obtain ⟨s, run, ended⟩ := @exists_run_of_exec _ _ (step 4096 2) start
    [.begin largeCall, .attempt 0 0 succeeding, .main true true, .worker 0 .test,
      .worker 0 .deQueue, .worker 0 .test, .worker 0 (.os true), .worker 0 (.find (some 0)),
      .worker 0 (.os true), .worker 0 (.os true), .worker 0 (.os true), .worker 0 (.callback 0)]
    (fun s => s.served = [⟨0, some (List.replicate 2000 0), 2000⟩] ∧
      (s.args 0).requestData = largeCall.requestData) (by decide +kernel)
  obtain ⟨zeros, sent⟩ := of_decide_eq_true ended
  refine ⟨s, run, zeros, fun delivered => ?_⟩
  have same := (delivered _ (zeros ▸ List.mem_singleton_self _)).1
  rw [sent] at same
  exact absurd same (by decide +kernel)

end Server

end ExLibs.IPC.Windows
