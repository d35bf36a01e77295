/-
# The mailbox of a Unix server

`hasRequest` is raised after everything else is in place, an attempt looks at it before it
writes, and `main` clears it after it has copied. So every call is enqueued at most once,
what is posted stays as it is until `main` takes or discards it, and what `main` takes is
the request of one call. The bytes of a request are in the slot if it is small, unless it
checks the connection in the way that always uses the data segment.
-/
import ExLibs.IPC.Unix.Server

namespace ExLibs.IPC.Unix

open ExLibs.Math ExLibs.Util

/-- The data says whose request it is. -/
structure StIPCData.Names (data : StIPCData) (args : SendArgs) : Prop where
  sSenderIPCName : data.sSenderIPCName = args.sSenderIPCName
  nSenderPID : data.nSenderPID = args.pid
  requestSize : data.requestSize = args.requestData.length
  nCheckIPC : data.nCheckIPC = args.nCheckIPC

/-- The data begins with the bytes of the request. -/
def StIPCData.Contains (data : StIPCData) (args : SendArgs) : Prop :=
  data.reqData.take data.requestSize = args.requestData

/-- The data carries the request of a call. -/
structure StIPCData.Carries (data : StIPCData) (args : SendArgs) : Prop extends
    data.Names args where
  inline : args.requestData.length ≤ sizeofData → args.nCheckIPC ≠ 1 → data.Contains args

theorem SendArgs.isUsingMmap_eq_false_iff {args : SendArgs} :
    args.isUsingMmap = false ↔ args.requestData.length ≤ sizeofData ∧ args.nCheckIPC ≠ 1 := by
  simp [SendArgs.isUsingMmap]

theorem StIPCData.Names.isUsingMmap {data : StIPCData} {args : SendArgs}
    (names : data.Names args) : data.isUsingMmap = args.isUsingMmap := by
  rw [StIPCData.isUsingMmap, names.requestSize, names.nCheckIPC]
  rfl

namespace Server

variable {span nMaxThreadCount : ℕ} {s t : Server} {label : ServerLabel}
  {labels : List ServerLabel}

/-- The posted request and those in the queue are those of their calls. -/
structure Carried (s : Server) : Prop where
  isInit : s.slot.hasRequest = true → s.slot.isInit = true
  slot : s.slot.hasRequest = true → s.slot.Carries (s.args s.poster)
  enqueued : ∀ q ∈ s.enqueued, q.data.Carries (s.args q.call)

theorem Carried.keep (carried : s.Carried)
    (begun : (s.slot.hasRequest = true → s.poster < s.calls) ∧ ∀ q ∈ s.enqueued, q.call < s.calls)
    (next : s.step span nMaxThreadCount label = some t) : t.Carried := by
  obtain ⟨isInit, slot, enqueued⟩ := carried
  cases step_cases next with
  | createIPC =>
    refine ⟨fun _ => rfl, fun request => ?_, enqueued⟩
    obtain ⟨names, inline⟩ := slot request
    exact ⟨⟨names.1, names.2, names.3, names.4⟩, inline⟩
  | begin =>
    refine ⟨isInit, fun request => ?_, fun q member => ?_⟩
    · have same := args_of_step next (begun.1 request)
      exact (congrArg s.slot.Carries same).mpr (slot request)
    · have same := args_of_step next (begun.2 q member)
      exact (congrArg q.data.Carries same).mpr (enqueued q member)
  | sent posting free init inline mapped =>
    -- the flag is raised when everything else is in place
    refine ⟨fun _ => init, fun _ => ⟨⟨rfl, rfl, rfl, rfl⟩, fun small plain => ?_⟩, enqueued⟩
    obtain ⟨rfl, -⟩ := inline (SendArgs.isUsingMmap_eq_false_iff.mpr ⟨small, plain⟩)
    exact take_memcpy ..
  | failed posting free | killed posting free =>
    exact ⟨fun request => absurd (free.symm.trans request) Bool.false_ne_true,
      fun request => absurd (free.symm.trans request) Bool.false_ne_true, enqueued⟩
  | enqueue request =>
    refine ⟨fun none => absurd none Bool.false_ne_true, fun none => absurd none Bool.false_ne_true,
      List.forall_mem_append.mpr ⟨enqueued, List.forall_mem_singleton.mpr (slot request)⟩⟩
  | discard =>
    exact ⟨fun none => absurd none Bool.false_ne_true, fun none => absurd none Bool.false_ne_true,
      enqueued⟩
  | worker works => cases works <;> exact ⟨isInit, slot, enqueued⟩
  | _ => exact ⟨isInit, slot, enqueued⟩

theorem carried_of_run {allowed : Server → ServerLabel → Prop}
    (run : Run (step span nMaxThreadCount) allowed start labels s) : s.Carried := by
  have initial : start.Carried := ⟨fun none => absurd none Bool.false_ne_true,
    fun none => absurd none Bool.false_ne_true, fun _ member => absurd member List.not_mem_nil⟩
  exact run.invariant_of_reached initial fun _ _ _ _ earlier carried _ next =>
    carried.keep (begun_of_run earlier) next

/-- While a request is posted, only `main` changes the slot or the data segment. -/
theorem Carried.kept (carried : s.Carried) (request : s.slot.hasRequest = true)
    (next : s.step span nMaxThreadCount label = some t) (other : ∀ running, label ≠ .main running) :
    t.slot = s.slot ∧ t.bulk = s.bulk := by
  cases step_cases next with
  | createIPC =>
    -- the slot of a server that has been created is initialised already
    have already := carried.isInit request
    exact ⟨(congrArg (fun isInit => { s.slot with isInit }) already).symm, rfl⟩
  | sent posting free | failed posting free | killed posting free =>
    exact absurd (free.symm.trans request) Bool.false_ne_true
  | enqueue | discard | idle => exact absurd rfl (other _)
  | worker works => cases works <;> exact ⟨rfl, rfl⟩
  | _ => exact ⟨rfl, rfl⟩

/-- Every call is enqueued at most once, with its own request, and while a request is posted
nothing but `main` touches it. -/
structure Sound (span nMaxThreadCount : ℕ) (s : Server) : Prop where
  once : (s.enqueued.map (·.call)).Nodup
  carried : ∀ q ∈ s.enqueued, q.data.Carries (s.args q.call)
  kept : s.slot.hasRequest = true → ∀ label t, s.step span nMaxThreadCount label = some t →
    (∀ running, label ≠ .main running) → t.slot = s.slot ∧ t.bulk = s.bulk

theorem sound_of_any_run (run : Run (step span nMaxThreadCount) Free start labels s) :
    s.Sound span nMaxThreadCount where
  once := (balanced_of_run run).nodup_taken (accounted_of_run run).once
  carried := (carried_of_run run).enqueued
  kept request _ _ next other := (carried_of_run run).kept request next other

instance (data : StIPCData) (args : SendArgs) : Decidable (data.Names args) :=
  decidable_of_iff (data.sSenderIPCName = args.sSenderIPCName ∧ data.nSenderPID = args.pid ∧
      data.requestSize = args.requestData.length ∧ data.nCheckIPC = args.nCheckIPC)
    ⟨fun ⟨name, pid, size, check⟩ => ⟨name, pid, size, check⟩,
      fun names => ⟨names.1, names.2, names.3, names.4⟩⟩

instance (data : StIPCData) (args : SendArgs) : Decidable (data.Contains args) :=
  inferInstanceAs (Decidable (data.reqData.take data.requestSize = args.requestData))

/-- A program of some name. -/
def monitord : List Char := ['/', 's', 'b', 'i', 'n', '/', 'm', 'o', 'n', 'i', 't', 'o', 'r', 'd']

/-- A call with a small request, by the process of the server. -/
def plainCall : SendArgs := ⟨7, monitord, getClientIPCName 7 monitord, [1, 2, 3, 4], 10, 0⟩

/-- The call of `CheckIPC` with `nCheckIPC` 1. -/
def checkCall : SendArgs := ⟨7, monitord, getClientIPCName 7 monitord, quTestMsg, 10, 1⟩

/-- Every call to the system succeeds. -/
def succeeding : PostOutcomes := ⟨true, true, true, true⟩

/-- A small request is posted and taken, and then a check of the connection. -/
def plainThenCheck : List ServerLabel :=
  [.createIPC, .begin plainCall, .attempt 0 0 succeeding, .main true, .begin checkCall,
    .attempt 1 0 succeeding, .main true]

/-- The sound state of a server that has taken two requests. -/
theorem sound_of_two : ∃ s : Server, s.Sound 4096 2 ∧ s.enqueued.length = 2 := by
  obtain ⟨s, run, ended⟩ := @exists_run_of_exec _ _ (step 4096 2) start plainThenCheck
    (fun s => s.enqueued.length = 2) (by decide +kernel)
  exact ⟨s, sound_of_any_run run, of_decide_eq_true ended⟩

/-- The check, eight bytes long, is enqueued with the bytes of the request before it: what
the slot holds is the request of neither call. -/
theorem check_without_bytes : ∃ s : Server, Run (step 4096 2) Free start plainThenCheck s ∧
    ∃ q ∈ s.enqueued, ∀ call < s.calls, ¬ (q.data.Names (s.args call) ∧
      ((s.args call).requestData.length ≤ sizeofData → q.data.Contains (s.args call))) := by
  obtain ⟨s, run, ended⟩ := @exists_run_of_exec _ _ (step 4096 2) start plainThenCheck
    (fun s => s.enqueued.any fun q => ∀ call < s.calls, ¬ (q.data.Names (s.args call) ∧
      ((s.args call).requestData.length ≤ sizeofData → q.data.Contains (s.args call))))
    (by decide +kernel)
  obtain ⟨q, member, alien⟩ := List.any_eq_true.mp ended
  exact ⟨s, run, q, member, of_decide_eq_true alien⟩

end Server

end ExLibs.IPC.Unix
