/-
# The semaphores of the Unix IPC

`CreateIPC`, `SendIPC` and the threads of a server go through sections under semaphores, and some
of these have a section of the data semaphore inside. The name of a data semaphore is longer than
the name that it is made of, which orders the semaphores whatever servers and clients are called.
-/
import ExLibs.IPC.Unix.Data
import ExLibs.Math.Guards

namespace ExLibs.IPC.Unix

open ExLibs.Math

/-- The sections that are entered from outside, with what their names are made of. -/
inductive GuardedSection
  /-- `CreateIPC` starts the server. -/
  | createIPC (sIPCName : List Char)
  /-- A turn of `CIPCServer::main`. -/
  | main (sIPCName : List Char)
  /-- `CIPCServer::worker` copies a request out of the data segment. -/
  | serverData (sIPCName : List Char)
  /-- `CIPCServer::worker` responds. -/
  | client (sSenderIPCName : List Char)
  /-- `SendIPC` posts its request. -/
  | post (sIPCName : List Char)
  /-- `SendIPC` looks for the response. -/
  | receive (pid : ℕ) (appName : List Char)
  deriving DecidableEq

namespace GuardedSection

/-- The name of the semaphore. -/
def name : GuardedSection → List Char
  | createIPC sIPCName | main sIPCName | client sIPCName | post sIPCName => sIPCName
  | serverData sIPCName => getDataIPCName sIPCName
  | receive pid appName => getClientIPCName pid appName

/-- There is a section of the data semaphore inside. -/
def nests : GuardedSection → Bool
  | client _ | post _ | receive .. => true
  | createIPC _ | main _ | serverData _ => false

/-- The name of the semaphore of the section inside. -/
def inner (guarded : GuardedSection) : Option (List Char) :=
  if guarded.nests then some (getDataIPCName guarded.name) else none

end GuardedSection

theorem length_lt_getDataIPCName (sIPCName : List Char) :
    sIPCName.length < (getDataIPCName sIPCName).length := by
  simp [getDataIPCName]

/-- A semaphore with a longer name ranks higher. -/
def semaphores : GuardScheme GuardedSection (List Char) where
  kind := .semaphore
  name := GuardedSection.name
  inner := GuardedSection.inner
  rank := List.length
  climbs := by
    intro guarded name' nested
    obtain ⟨-, same⟩ := Option.ite_none_right_eq_some.mp nested
    obtain rfl := Option.some.inj same
    exact length_lt_getDataIPCName _

namespace Semaphores

variable {s : Guards GuardedSection (List Char)}
  {labels : List (GuardLabel GuardedSection (List Char))}

/-- At all times what a semaphore stands at and the threads in its sections are one together, and
one more for each wait for it that has been interrupted: only these let several in at once. -/
theorem value_add_inside_of_run (run : Run (Guards.step semaphores) Free .start labels s)
    (sem : ℕ) : s.sections.value sem + s.sections.inside sem =
      1 + s.sections.interrupted.count sem :=
  (Guards.sound_of_run run).sections.counted sem

/-- The server is in its section when the wait of a caller is interrupted. -/
theorem two_inside_of_interrupted : ∃ s : Guards GuardedSection (List Char),
    s.sections.inside 0 = 2 ∧ s.sections.value 0 + 2 = 1 + 1 := by
  obtain ⟨s, run, ended⟩ := @exists_run_of_exec _ _ (Guards.step semaphores) .start
    [.create ['/', 'A'], .guard 0 (.main ['/', 'A']) 0, .move (.enter 0),
      .guard 1 (.post ['/', 'A']) 0, .move (.interrupt 1)]
    (fun s => s.sections.inside 0 = 2 ∧ s.sections.interrupted = [0]) (by decide)
  obtain ⟨inside, interrupted⟩ := of_decide_eq_true ended
  have counted := value_add_inside_of_run run 0
  rw [inside, interrupted] at counted
  exact ⟨s, inside, counted⟩

/-- Whatever has happened, all threads can come out of their sections, which takes no new ones, if
and only if none has died in a section. -/
theorem exists_outside_iff_alive (run : Run (Guards.step semaphores) Free .start labels s) :
    (∃ labels' t, exec (Guards.step semaphores) s labels' = some t ∧ t.sections.guards = []) ↔
      s.sections.Alive :=
  Guards.exists_exec_iff_alive rfl run

/-- A caller that is killed in its section leaves it for ever, as another waits for it. -/
theorem not_outside_of_killed : ∃ s : Guards GuardedSection (List Char),
    s.sections.waiting = [(1, 0)] ∧
      ¬ ∃ labels' t, exec (Guards.step semaphores) s labels' = some t ∧ t.sections.guards = [] := by
  -- the caller posts its request when it is killed, and the server waits for its next turn
  obtain ⟨s, run, ended⟩ := @exists_run_of_exec _ _ (Guards.step semaphores) .start
    [.create ['/', 'A'], .guard 0 (.post ['/', 'A']) 0, .move (.enter 0),
      .guard 1 (.main ['/', 'A']) 0, .move (.die 0)]
    (fun s => s.sections.waiting = [(1, 0)] ∧ s.sections.guards = [(0, 0)] ∧
      s.sections.dead = [0]) (by decide)
  obtain ⟨waits, guards, dead⟩ := of_decide_eq_true ended
  refine ⟨s, waits, fun outside => ?_⟩
  have alive := (exists_outside_iff_alive run).mp outside (0, 0) (by simp [guards])
  simp [dead] at alive

end Semaphores

end ExLibs.IPC.Unix
