/-
# How long a mutex is waited for

A `CIPCMutex` is given seconds, and `Open` gives the system milliseconds in a `DWORD`. For a
timeout that is not positive the constructor puts `INFINITE` in its place, which `Open`
multiplies like any other. What a worker gives its mutexes is a point in time, since the client
has stored one as `timeout`.
-/
import ExLibs.IPC.Windows.Custody

namespace ExLibs.IPC.Windows

open ExLibs.Math

/-- `DWORD`. -/
abbrev Dword := BitVec 32

/-- `INFINITE`. -/
def infinite : Dword := 0xFFFFFFFF

/-- `CIPCMutex`. The handle is a number, or null. -/
structure CIPCMutex where
  sMutexName : WString
  nTimeout : BitVec 64
  hMutex : Option ℕ := none

/-- What a call of `Open` comes to. -/
structure Opening where
  mutex : CIPCMutex
  /-- The arguments of `WaitForSingleObject`, if it is called. -/
  waited : Option (ℕ × Dword)
  isSuccess : Bool

namespace CIPCMutex

/-- The constructor. -/
def create (sMutexName : WString) (nTimeout : BitVec 64) : CIPCMutex where
  sMutexName := sMutexName
  nTimeout := if nTimeout.toInt ≤ 0 then infinite.setWidth 64 else nTimeout

/-- `Open`, for what `OpenMutex` and `WaitForSingleObject` return. -/
def «open» (openMutex : WString → Option ℕ) (waitForSingleObject : ℕ → Dword → Dword)
    (m : CIPCMutex) : Opening :=
  match openMutex m.sMutexName with
  | none => ⟨{ m with hMutex := none }, none, false⟩
  | some hMutex =>
    let dwMilliseconds := (m.nTimeout * 1000).setWidth 32
    -- `WAIT_OBJECT_0` is 0
    ⟨{ m with hMutex := some hMutex }, some (hMutex, dwMilliseconds),
      waitForSingleObject hMutex dwMilliseconds == 0⟩

end CIPCMutex

/-- The milliseconds that a timeout asks for. -/
def asked (nTimeout : ℤ) : ℤ :=
  if nTimeout ≤ 0 then infinite.toNat else min (nTimeout * 1000) (infinite.toNat - 1)

/-- Whenever `Open` waits for a mutex with this timeout, it does so as long as was asked for. -/
def WaitsAsAsked (sMutexName : WString) (nTimeout : BitVec 64) : Prop :=
  ∀ openMutex waitForSingleObject hMutex dwMilliseconds,
    ((CIPCMutex.create sMutexName nTimeout).open openMutex waitForSingleObject).waited =
        some (hMutex, dwMilliseconds) →
      (dwMilliseconds.toNat : ℤ) = asked nTimeout.toInt

variable {sMutexName : WString} {nTimeout : BitVec 64}

/-- There is one time that `Open` waits for. -/
theorem waitsAsAsked_iff_of_create : WaitsAsAsked sMutexName nTimeout ↔
    ((((CIPCMutex.create sMutexName nTimeout).nTimeout * 1000).setWidth 32).toNat : ℤ) =
      asked nTimeout.toInt := by
  constructor
  · exact fun waits => waits (fun _ => some 0) (fun _ _ => 0) 0 _ rfl
  · intro same openMutex waitForSingleObject hMutex dwMilliseconds waited
    unfold CIPCMutex.open at waited
    split at waited
    · cases waited
    · obtain ⟨rfl, rfl⟩ := Prod.mk.inj (Option.some.inj waited)
      exact same

/-- The milliseconds of a positive timeout, which wrap around at both widths. -/
theorem toNat_milliseconds (positive : 0 < nTimeout.toInt) :
    (((nTimeout * 1000).setWidth 32).toNat : ℤ) = nTimeout.toInt * 1000 % 2 ^ 32 := by
  have small : nTimeout.toInt = nTimeout.toNat := by
    rw [BitVec.toInt_eq_toNat_cond] at positive ⊢
    have := nTimeout.isLt
    split
    · rfl
    · omega
  rw [small, BitVec.toNat_setWidth, BitVec.toNat_mul]
  have thousand : (1000 : BitVec 64).toNat = 1000 := rfl
  rw [thousand]
  omega

/-- What the constructor puts in the place of a timeout that is not positive wraps around. -/
theorem not_waitsAsAsked_of_unlimited (unlimited : nTimeout.toInt ≤ 0) :
    ¬ WaitsAsAsked sMutexName nTimeout := by
  have wraps : (((infinite.setWidth 64 : BitVec 64) * 1000).setWidth 32).toNat ≠
      infinite.toNat := by decide
  rw [waitsAsAsked_iff_of_create, CIPCMutex.create, asked, if_pos unlimited, if_pos unlimited]
  exact fun same => wraps (Int.ofNat_inj.mp same)

theorem waitsAsAsked_iff_of_positive (positive : 0 < nTimeout.toInt) :
    WaitsAsAsked sMutexName nTimeout ↔ nTimeout.toInt * 1000 < infinite.toNat := by
  have limited := not_le.mpr positive
  have sentinel : (infinite.toNat : ℤ) = 2 ^ 32 - 1 := rfl
  rw [waitsAsAsked_iff_of_create, CIPCMutex.create, asked, if_neg limited, if_neg limited,
    toNat_milliseconds positive, sentinel]
  constructor
  · intro same
    -- what is left modulo 2 ^ 32 is a multiple of 8, which the cap is not
    omega
  · intro fits
    omega

/-- `Open` waits as long as was asked for exactly for the positive numbers of seconds that are
less than `INFINITE` milliseconds. -/
theorem waitsAsAsked_iff (sMutexName : WString) (nTimeout : BitVec 64) :
    WaitsAsAsked sMutexName nTimeout ↔
      0 < nTimeout.toInt ∧ nTimeout.toInt * 1000 < infinite.toNat := by
  rcases le_or_gt nTimeout.toInt 0 with unlimited | positive
  · have fails := @not_waitsAsAsked_of_unlimited sMutexName _ unlimited
    exact ⟨fun waits => absurd waits fails, fun asks => absurd asks.1 (not_lt.mpr unlimited)⟩
  · rw [waitsAsAsked_iff_of_positive positive, and_iff_right positive]

/-- Without a limit `Open` waits for less than `INFINITE` milliseconds. -/
theorem limited_without_limit : ¬ ∀ sMutexName nTimeout, WaitsAsAsked sMutexName nTimeout := by
  intro all
  exact absurd (waitsAsAsked_iff_of_create.mp (all [] 0)) (by decide)

section Workers

/-- The name and the timeout of the mutex that a worker opens. -/
def WorkerPlace.mutex (job : Job) : WorkerPlace → Option (WString × BitVec 64)
  | openReqMutex => some (getRequestIPCName (terminated job.data.sSenderIPCName),
      BitVec.ofInt 64 job.data.timeout)
  | openClientMutex => some (terminated job.data.sSenderIPCName, BitVec.ofInt 64 job.data.timeout)
  | openResMutex => some (getResponseIPCName (terminated job.data.sSenderIPCName),
      BitVec.ofInt 64 job.data.timeout)
  | _ => none

theorem timeout_of_mutex {place : WorkerPlace} {job : Job}
    (opens : place.mutex job = some (sMutexName, nTimeout)) :
    nTimeout = BitVec.ofInt 64 job.data.timeout := by
  cases place with
  | openReqMutex | openClientMutex | openResMutex =>
    exact (Prod.mk.inj (Option.some.inj opens)).2.symm
  | _ => cases opens

namespace Server

variable {view nMaxThreadCount : ℕ} {s t : Server} {label : ServerLabel}
  {labels : List ServerLabel}

/-- A point in time, from the fiftieth day on. -/
def IsDate (time : ℤ) : Prop := 4294968 ≤ time ∧ time < 2 ^ 63

/-- Clients post from the fiftieth day on. -/
def Dated (s : Server) : ServerLabel → Prop
  | .attempt call now _ => IsDate (now + (s.args call).timeOutSec)
  | _ => True

/-- The requests in the slot and in the queue carry points in time. -/
structure Stamped (s : Server) : Prop where
  slot : s.slot.hasRequest = true → IsDate s.slot.timeout
  enqueued : ∀ q ∈ s.enqueued, IsDate q.data.timeout

theorem Stamped.keep (stamped : s.Stamped) (dated : s.Dated label)
    (next : s.step view nMaxThreadCount label = some t) : t.Stamped := by
  obtain ⟨slot, enqueued⟩ := stamped
  cases step_cases next with
  | sent | abandoned => exact ⟨fun _ => dated, enqueued⟩
  | enqueue request =>
    refine ⟨nofun, List.forall_mem_append.mpr ⟨enqueued, ?_⟩⟩
    exact List.forall_mem_singleton.mpr (slot request)
  | discard => exact ⟨nofun, enqueued⟩
  | worker created works => cases works <;> exact ⟨slot, enqueued⟩
  | begin | untouched | giveUp | idle | stop | stopQueue => exact ⟨slot, enqueued⟩

theorem not_waitsAsAsked_of_isDate {time : ℤ} (date : IsDate time) :
    ¬ WaitsAsAsked sMutexName (BitVec.ofInt 64 time) := by
  obtain ⟨late, fits⟩ := date
  have exact : (BitVec.ofInt 64 time).toInt = time := by
    rw [BitVec.toInt_ofInt, Int.bmod_def]
    split <;> omega
  have sentinel : (infinite.toNat : ℤ) = 2 ^ 32 - 1 := rfl
  rw [waitsAsAsked_iff_of_positive (by omega), exact, sentinel]
  omega

/-- No mutex that a worker opens is waited for as its client has asked. -/
theorem not_waitsAsAsked_of_worker (run : Run (step view nMaxThreadCount) Dated start labels s)
    {w : ℕ} {place : WorkerPlace} {job : Job} (busy : s.worker w = .busy place job)
    (opens : place.mutex job = some (sMutexName, nTimeout)) :
    ¬ WaitsAsAsked sMutexName nTimeout := by
  have initial : start.Stamped :=
    ⟨fun request => absurd request Bool.false_ne_true,
      fun _ member => absurd member List.not_mem_nil⟩
  have stamped : s.Stamped :=
    run.invariant initial fun _ _ _ stamped dated next => stamped.keep dated next
  obtain ⟨q, member, responseSize, serves⟩ := (custody_of_run run).busy w place job busy
  have same : job.data.timeout = q.data.timeout := by rw [serves]
  rw [timeout_of_mutex opens, same]
  exact not_waitsAsAsked_of_isDate (stamped.enqueued q member)

end Server

end Workers

end ExLibs.IPC.Windows
