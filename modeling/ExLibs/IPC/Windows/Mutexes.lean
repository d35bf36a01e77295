/-
# The mutexes of the Windows IPC

The threads of the processes that use the IPC go through sections under named mutexes, which
`CIPCMutex` opens and its destructor releases. A worker that responds opens the mutex of the
response in the section of its client, which the source warns of deadlocks for, and `SendIPC` has
sections inside two of its own. The names of the mutexes inside are longer, so that there are no
deadlocks, and the system releases what a thread holds that dies.
-/
import ExLibs.IPC.Windows.Names
import ExLibs.Math.Guards

namespace ExLibs.IPC.Windows

open ExLibs.Math

/-- The sections that are entered from outside, with what their names are made of. -/
inductive MutexSection
  /-- `CreateIPC` starts the server, with a mutex that it has created for itself. -/
  | createIPC (sIPCName : WString)
  /-- A turn of `CIPCServer::main`. -/
  | main (sIPCName : WString)
  /-- `CIPCServer::worker` copies a request out of its mapping. -/
  | request (sSenderIPCName : WString)
  /-- `CIPCServer::worker` responds. -/
  | response (sSenderIPCName : WString)
  /-- `SendIPC` posts its request. -/
  | post (call : CallOrigin)
  /-- `SendIPC` looks for the response. -/
  | receive (call : CallOrigin)
  deriving DecidableEq

namespace MutexSection

/-- The name of the mutex. -/
def name : MutexSection → WString
  | createIPC sIPCName | main sIPCName => sIPCName
  | request sSenderIPCName => getRequestIPCName sSenderIPCName
  | response sSenderIPCName => sSenderIPCName
  | post call => call.sIPCName
  | receive call => call.sIPCClientName

/-- The name of the mutex of the section inside. -/
def inner : MutexSection → Option WString
  | createIPC _ | main _ | request _ => none
  | response sSenderIPCName => some (getResponseIPCName sSenderIPCName)
  -- this is released after the mutex of the server
  | post call => some (getRequestIPCName call.sIPCClientName)
  | receive call => some (getResponseIPCName call.sIPCClientName)

theorem length_lt_inner {guarded : MutexSection} {sIPCName : WString}
    (nested : sIPCName ∈ guarded.inner) : guarded.name.length < sIPCName.length := by
  cases guarded with
  | createIPC | main | request => cases nested
  | response | receive =>
    obtain rfl := Option.some.inj nested
    simp [name, getResponseIPCName, wide]
  | post call =>
    obtain rfl := Option.some.inj nested
    simp only [name, getRequestIPCName, CallOrigin.sIPCClientName, wide, List.length_append,
      List.length_map, List.length_cons]
    omega

end MutexSection

/-- A mutex with a longer name ranks higher. -/
def mutexes : GuardScheme MutexSection WString where
  kind := .mutex
  name := MutexSection.name
  inner := MutexSection.inner
  rank := List.length
  climbs _ _ := MutexSection.length_lt_inner

namespace Mutexes

variable {s : Guards MutexSection WString} {labels : List (GuardLabel MutexSection WString)}

/-- Whatever has happened, no two threads are in sections of the same mutex. However those that
are in sections or wait for one go on, giving up at a timeout included, there is an end to it, and
as long as one is in a section or waits one of them can get in or come out. -/
theorem exclusive_and_outside (run : Run (Guards.step mutexes) Free .start labels s) :
    s.sections.Exclusive ∧ ∀ labels' t, Run (Guards.step mutexes) Guards.Settles s labels' t →
      labels'.length ≤ s.sections.moves ∧
        ((∀ label, t.Moves label → t.step mutexes label = none) →
          t.sections.guards = [] ∧ t.sections.waiting = []) :=
  ⟨Guards.exclusive_of_run rfl run, fun _ _ on => Guards.outside_of_moves rfl run on⟩

/-- A client is killed in its section, which another client and the server wait for, and they get
on. -/
theorem outside_of_killed : ∃ s : Guards MutexSection WString,
    s.sections.waiting = [(2, 0), (1, 0)] ∧ s.sections.dead = [0] ∧
      ∀ labels' t, Run (Guards.step mutexes) Guards.Settles s labels' t → labels'.length ≤ 4 ∧
        ((∀ label, t.Moves label → t.step mutexes label = none) →
          t.sections.guards = [] ∧ t.sections.waiting = []) := by
  obtain ⟨s, run, ended⟩ := @exists_run_of_exec _ _ (Guards.step mutexes) .start
    [.create (wide ['A']), .guard 0 (.post ⟨wide ['A'], 7, 1⟩) 0, .move (.enter 0),
      .guard 1 (.main (wide ['A'])) 0, .guard 2 (.post ⟨wide ['A'], 8, 1⟩) 0,
      .move (.abandon 0)]
    (fun s => s.sections.waiting = [(2, 0), (1, 0)] ∧ s.sections.dead = [0] ∧
      s.sections.moves = 4) (by decide)
  obtain ⟨waits, dead, moves⟩ := of_decide_eq_true ended
  exact ⟨s, waits, dead, moves ▸ (exclusive_and_outside run).2⟩

end Mutexes

end ExLibs.IPC.Windows
