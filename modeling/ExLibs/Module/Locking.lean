/-
# The lock of the registry

The operations of `cModuleManager` as programs that use `_lckModule`, which is not recursive.
`GetModuleBase` shares it and calls `IsExistModule`, which shares it again; `deleteModule`
holds it exclusively and calls `GetModuleBase`. The other operations take it once at a time.
-/
import ExLibs.Math.SharedMutex
import ExLibs.Module.Notify

namespace ExLibs.Module

open ExLibs.Math ExLibs.Network

/-- What the operations do with the registry. -/
inductive RegistryAction
  | contains (sModuleName : XString)
  | find (sModuleName : XString)
  | insert (sModuleName sModuleGroup : XString) (spModule : SpModuleBase)
  | delete (sModuleName : XString) (spModule : SpModuleBase)
  | entries
  | visit (info : ModuleNotifyInfo) (spModule : ℕ)

/-- What they learn from it. -/
def RegistryAction.Answer : RegistryAction → Type
  | .contains _ => Bool
  | .find _ => Option SpModuleBase
  | .insert .. => Bool
  | .delete .. => Bool
  | .entries => List ℕ
  | .visit .. => Unit

/-- What an action is given: what its first and its second hook return, and whether a pointer that
it gives up is the last one. -/
abbrev ActionInput := Bool × Bool × Bool

/-- What an action does. -/
def ModuleManager.perform (s : ModuleManager) :
    (action : RegistryAction) → ActionInput → action.Answer × ModuleManager
  | .contains sModuleName, _ => (s.isExistModule sModuleName, s)
  | .find sModuleName, _ => (s.registered sModuleName, s)
  | .insert sModuleName sModuleGroup spModule, (succeeds, _, last) =>
    s.insertModule sModuleName sModuleGroup spModule succeeds last
  | .delete sModuleName spModule, (stopSucceeds, finalSucceeds, last) =>
    s.deleteModule sModuleName spModule stopSucceeds finalSucceeds last
  | .entries, _ => (s.entries, s)
  -- `NotifyModule` leaves the registry alone
  | .visit .., _ => ((), s)

/-- A program with the lock of the registry. -/
abbrev RegistryProgram := LockProgram RegistryAction RegistryAction.Answer

namespace RegistryProgram

def isExistModule (sModuleName : XString) (onward : Bool → RegistryProgram) : RegistryProgram :=
  .lock .shared <| .act (.contains sModuleName) fun found => .unlock (onward found)

def getModuleBase (sModuleName : XString) (onward : Option SpModuleBase → RegistryProgram) :
    RegistryProgram :=
  .lock .shared <| isExistModule sModuleName fun found =>
    if found = false then .unlock (onward none)
    else .act (.find sModuleName) fun spModule => .unlock (onward spModule)

def insertModule (sModuleName sModuleGroup : XString) (spModule : SpModuleBase)
    (onward : Bool → RegistryProgram) : RegistryProgram :=
  .lock .exclusive <| .act (.insert sModuleName sModuleGroup spModule) fun isSuccess =>
    .unlock (onward isSuccess)

def deleteModule (sModuleName : XString) (onward : Bool → RegistryProgram) : RegistryProgram :=
  .lock .exclusive <| getModuleBase sModuleName fun
    -- the null pointer is followed
    | none => .fault
    | some spModule => .act (.delete sModuleName spModule) fun isSuccess =>
      .unlock (onward isSuccess)

/-- Either overload, with the pointer that it inserts. -/
def registerModule (sModuleName sModuleGroup : XString) (spModule : SpModuleBase) :
    RegistryProgram :=
  isExistModule sModuleName fun found =>
    if found = true then .done
    else insertModule sModuleName sModuleGroup spModule fun _ => .done

def unRegisterModule (sModuleName : XString) : RegistryProgram :=
  isExistModule sModuleName fun found =>
    if found = false then .done else deleteModule sModuleName fun _ => .done

/-- The loop of `notifyAllModule` over the registry. -/
def visits (info : ModuleNotifyInfo) : List ℕ → RegistryProgram
  | [] => .done
  | spModule :: rest =>
    .lock .shared <| .act (.visit info spModule) fun _ => .unlock (visits info rest)

/-- What `notifyAllModule` does with an element. -/
def notifyAllModule (info : ModuleNotifyInfo) : RegistryProgram :=
  .act .entries fun entries => visits info entries

end RegistryProgram

/-- An operation of a manager. -/
inductive ManagerOperation
  | registerModule (sModuleName sModuleGroup : XString) (spModule : SpModuleBase)
  | unRegisterModule (sModuleName : XString)
  | getModuleBase (sModuleName : XString)
  | isExistModule (sModuleName : XString)
  | notifyAllModule (info : ModuleNotifyInfo)

namespace ManagerOperation

/-- The program of an operation. -/
def code : ManagerOperation → RegistryProgram
  | .registerModule sModuleName sModuleGroup spModule =>
    .registerModule sModuleName sModuleGroup spModule
  | .unRegisterModule sModuleName => .unRegisterModule sModuleName
  | .getModuleBase sModuleName => .getModuleBase sModuleName fun _ => .done
  | .isExistModule sModuleName => .isExistModule sModuleName fun _ => .done
  | .notifyAllModule info => .notifyAllModule info

/-- An operation that does not share the lock to begin with and then once more. -/
def IsPlain (operation : ManagerOperation) : Prop :=
  ∀ sModuleName, operation ≠ .getModuleBase sModuleName

/-- `UnRegisterModule` is told that there is nothing to delete. -/
def May : ManagerOperation → (action : RegistryAction) → action.Answer → Prop
  | .unRegisterModule _, .contains _, found => found = false
  | _, _, _ => True

end ManagerOperation

section Discipline

variable {may : (action : RegistryAction) → action.Answer → Prop} {sModuleName : XString}

theorem disciplined_isExistModule {onward : Bool → RegistryProgram}
    (goes : ∀ found, may (.contains sModuleName) found → (onward found).Disciplined may false) :
    (RegistryProgram.isExistModule sModuleName onward).Disciplined may false :=
  ⟨rfl, fun found told => ⟨rfl, goes found told⟩⟩

theorem disciplined_insertModule {sModuleGroup : XString} {spModule : SpModuleBase}
    {onward : Bool → RegistryProgram}
    (goes : ∀ isSuccess, (onward isSuccess).Disciplined may false) :
    (RegistryProgram.insertModule sModuleName sModuleGroup spModule onward).Disciplined may
      false :=
  ⟨rfl, fun isSuccess _ => ⟨rfl, goes isSuccess⟩⟩

theorem disciplined_visits (info : ModuleNotifyInfo) (entries : List ℕ) :
    (RegistryProgram.visits info entries).Disciplined may false := by
  induction entries with
  | nil => rfl
  | cons spModule rest ih => exact ⟨rfl, fun _ _ => ⟨rfl, ih⟩⟩

theorem ManagerOperation.disciplined_code (operation : ManagerOperation)
    (plain : operation.IsPlain) : operation.code.Disciplined operation.May false := by
  cases operation with
  | registerModule name group spModule =>
    refine disciplined_isExistModule fun found _ => ?_
    split
    · rfl
    · exact disciplined_insertModule fun _ => rfl
  | unRegisterModule name =>
    refine disciplined_isExistModule fun found told => ?_
    obtain rfl : found = (false : Bool) := told
    rfl
  | getModuleBase name => exact absurd rfl (plain name)
  | isExistModule name => exact disciplined_isExistModule fun _ _ => rfl
  | notifyAllModule info => exact fun entries _ => disciplined_visits info entries

end Discipline

/-- A manager and the threads that use it. -/
abbrev ManagerThreads :=
  LockThreads ManagerOperation ModuleManager RegistryAction RegistryAction.Answer

namespace ManagerThreads

/-- One step of a thread, if it is enabled. -/
def step : ManagerThreads → LockLabel ManagerOperation ActionInput → Option ManagerThreads :=
  LockThreads.step ManagerOperation.code ModuleManager.perform

/-- `GetModuleBase` is not called, and `UnRegisterModule` does not find its module. -/
def Unnested (s : ManagerThreads) : LockLabel ManagerOperation ActionInput → Prop
  | .call _ operation => operation.IsPlain
  | .proceed a _ => ∀ sModuleName tested rest,
      s.thread a = some (.unRegisterModule sModuleName, .act (.contains tested) rest) →
      s.state.registered tested = none

variable {s : ManagerThreads} {label : LockLabel ManagerOperation ActionInput}
  {labels : List (LockLabel ManagerOperation ActionInput)} {manager : ModuleManager} {a : ℕ}

theorem expected_of_unnested (unnested : s.Unnested label) :
    LockThreads.Expected ManagerOperation.IsPlain ManagerOperation.May ModuleManager.perform
      s label := by
  cases label with
  | call a operation => exact unnested
  | proceed a input =>
    intro operation action rest place
    cases operation with
    | unRegisterModule name =>
      cases action with
      | contains tested =>
        have absent := unnested name tested rest place
        refine Bool.eq_false_iff.mpr fun found => ?_
        exact ModuleManager.isExistModule_iff.mp found absent
      | _ => trivial
    | _ => trivial

/-- As long as `GetModuleBase` is not called and `UnRegisterModule` does not find its module,
no thread asks for the lock of the registry while it holds it. -/
theorem not_holds_of_unnested
    (run : Run step Unnested (LockThreads.start manager) labels s) (asks : s.Asks a) :
    ¬ s.mutex.Holds a :=
  LockThreads.not_holds_of_asks ManagerOperation.disciplined_code
    (run.mono fun _ _ => expected_of_unnested) asks

instance (s : ManagerThreads) : DecidablePred s.Unnested
  | .call _ (.getModuleBase sModuleName) => .isFalse fun plain => plain sModuleName rfl
  | .call _ (.registerModule ..) | .call _ (.unRegisterModule _) | .call _ (.isExistModule _)
  | .call _ (.notifyAllModule _) => .isTrue fun _ => nofun
  | .proceed a _ => decidable_of_iff
      ((match s.thread a with
        | some (.unRegisterModule _, .act (.contains tested) _) =>
          decide (s.state.registered tested = none)
        | _ => true) = true) (by
        unfold Unnested
        split
        · rename_i place
          rw [decide_eq_true_iff]
          constructor
          · intro absent _ _ _ again
            cases place.symm.trans again
            exact absent
          · intro absent
            exact absent _ _ _ place
        · rename_i elsewhere
          exact iff_of_true rfl fun _ _ _ place => absurd place (elsewhere _ _ _))

/-- No module is registered. -/
def nothing : ManagerThreads := LockThreads.start { mapModuleNameToModule := ∅, modules _ := {} }

/-- A thread takes some steps, with hooks that succeed and pointers that others have too. -/
def steps (a n : ℕ) : List (LockLabel ManagerOperation ActionInput) :=
  List.replicate n (.proceed a (true, true, false))

/-- A module is registered and notified while another thread unregisters a name that does not
exist. -/
theorem not_holds_of_asks_twice : ∃ s : ManagerThreads, s.Asks 0 ∧ ¬ s.mutex.Holds 0 := by
  obtain ⟨s, run, asks⟩ := @exists_run_of_guarded _ _ step Unnested
    (fun s label => s.Unnested label) (fun _ _ => of_decide_eq_true) nothing
    ([.call 1 (.unRegisterModule "window")] ++ steps 1 2 ++
      [.call 0 (.registerModule "mail" "net" ⟨1, 1⟩)] ++ steps 0 2 ++ steps 1 1 ++ steps 0 1)
    (fun s => s.Asks 0) (by decide)
  have asks : s.Asks 0 := of_decide_eq_true asks
  exact ⟨s, asks, not_holds_of_unnested run asks⟩

/-- `GetModuleBase` shares the lock and asks for it once more; `UnRegisterModule` of a
registered module holds it exclusively and asks for it, and does not get it. -/
theorem asks_while_holding :
    (∃ s : ManagerThreads,
      Run step Free nothing ([.call 0 (.getModuleBase "mail")] ++ steps 0 1) s ∧
        s.Asks 0 ∧ s.mutex.Holds 0) ∧
    ∃ s : ManagerThreads, Run step Free nothing
      ([.call 0 (.registerModule "mail" "net" ⟨1, 1⟩)] ++ steps 0 7 ++
        [.call 0 (.unRegisterModule "mail")] ++ steps 0 4) s ∧
      s.Asks 0 ∧ s.mutex.Holds 0 ∧ (s.mutex.lock 0 .shared).isNone = true := by
  refine ⟨?shared, ?exclusive⟩
  case shared =>
    obtain ⟨s, run, ended⟩ := @exists_run_of_exec _ _ step nothing
      ([.call 0 (.getModuleBase "mail")] ++ steps 0 1)
      (fun s => s.Asks 0 ∧ s.mutex.Holds 0) (by decide)
    exact ⟨s, run, of_decide_eq_true ended⟩
  case exclusive =>
    obtain ⟨s, run, ended⟩ := @exists_run_of_exec _ _ step nothing
      ([.call 0 (.registerModule "mail" "net" ⟨1, 1⟩)] ++ steps 0 7 ++
        [.call 0 (.unRegisterModule "mail")] ++ steps 0 4)
      (fun s => s.Asks 0 ∧ s.mutex.Holds 0 ∧ (s.mutex.lock 0 .shared).isNone = true) (by decide)
    exact ⟨s, run, of_decide_eq_true ended⟩

end ManagerThreads

end ExLibs.Module
