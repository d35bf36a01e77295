/-
# The end of a module manager

`~cModuleManager` sets `_isStop` and joins the notify thread. The thread looks at the flag
between two elements only, and nobody stops its queue, so that it does not return from a
`DeQueue` that has nothing to wait for.

The threads are those of `Ext::Queue::eventQueue` with the notify thread as the only consumer.
Nobody begins a notification once the manager is being destroyed.
-/
import ExLibs.Module.Notify
import ExLibs.Util.WakeUps

namespace ExLibs.Module

open ExLibs.Math ExLibs.Util

/-- Where the notify thread is in `notifyAllModule`. -/
inductive LoopPc
  /-- It tests `_isStop` next. -/
  | testing
  /-- It is in `DeQueue`. -/
  | fetching
  /-- It has an element. -/
  | working
  | ended
  deriving DecidableEq

/-- Where `~cModuleManager` is. -/
inductive DestructorPc
  | notCalled
  /-- `_isStop` is set. -/
  | joining
  | joined
  deriving DecidableEq

/-- A manager with the threads of its queue, of which the notify thread is consumer 0. -/
structure ManagerShutdown where
  notifyQueue : QueueThreads ModuleNotifyInfo
  isStop : Bool
  thNotify : LoopPc
  destructor : DestructorPc

/-- A step of the notify thread outside `DeQueue`, of a thread of the queue, or of the
destructor. -/
inductive ShutdownLabel
  | test
  /-- `DeQueue` returns. -/
  | take
  /-- The element is done. -/
  | work
  | queue (label : QueueLabel ModuleNotifyInfo)
  | destroy
  | join

namespace ManagerShutdown

/-- A new manager. -/
def start : ManagerShutdown := ⟨.start, false, .testing, .notCalled⟩

/-- What the threads of the queue may do: the notify thread enters and leaves `DeQueue` with
steps of its own, nobody calls `Stop`, and notifications begin before the destructor. -/
def admits (s : ManagerShutdown) : QueueLabel ModuleNotifyInfo → Bool
  | .call _ | .leave _ | .raise | .notifyStop _ => false
  | .enQueue .. => s.destructor = .notCalled
  | _ => true

/-- One step, if the label is enabled. -/
def step (s : ManagerShutdown) : ShutdownLabel → Option ManagerShutdown
  | .test =>
    match s.thNotify with
    | .testing =>
      if s.isStop then some { s with thNotify := .ended }
      else (s.notifyQueue.step .ext (.call 0)).map fun notifyQueue =>
        { s with notifyQueue, thNotify := .fetching }
    | _ => none
  | .take =>
    match s.thNotify with
    | .fetching => (s.notifyQueue.step .ext (.leave 0)).map fun notifyQueue =>
      { s with notifyQueue, thNotify := .working }
    | _ => none
  | .work =>
    match s.thNotify with
    | .working => some { s with thNotify := .testing }
    | _ => none
  | .queue label =>
    if s.admits label then
      (s.notifyQueue.step .ext label).map fun notifyQueue => { s with notifyQueue }
    else none
  | .destroy =>
    match s.destructor with
    | .notCalled => some { s with isStop := true, destructor := .joining }
    | _ => none
  | .join =>
    match s.destructor, s.thNotify with
    | .joining, .ended => some { s with destructor := .joined }
    | _, _ => none

/-- The destructor waits for a thread that is blocked in `DeQueue`, the queue is empty, and
nobody is left to wake the thread up. -/
def Hanging (s : ManagerShutdown) : Prop :=
  s.destructor = .joining ∧ s.thNotify = .fetching ∧ 0 ∈ s.notifyQueue.cvQueue ∧
    s.notifyQueue.eventQueue.queue = [] ∧ ∀ p, s.notifyQueue.producer p = .outside

/-- The destructor waits for a thread that has nothing to return from `DeQueue` with. -/
def Doomed (s : ManagerShutdown) : Prop :=
  s.destructor = .joining ∧ s.thNotify = .fetching ∧ ¬ s.notifyQueue.Fed

/-- When the destructor begins, the notify thread is not in `DeQueue`, or there is an element or
one to come. -/
def Prompt (s : ManagerShutdown) : ShutdownLabel → Prop
  | .destroy => s.thNotify = .fetching → s.notifyQueue.Fed
  | _ => True

variable {s t : ManagerShutdown} {label : ShutdownLabel} {labels : List ShutdownLabel}

/-- What a step does. -/
inductive Step (s : ManagerShutdown) : ShutdownLabel → ManagerShutdown → Prop
  | finish (testing : s.thNotify = .testing) : Step s .test { s with thNotify := .ended }
  | fetch {notifyQueue : QueueThreads ModuleNotifyInfo} (testing : s.thNotify = .testing)
      (running : s.isStop = false)
      (next : s.notifyQueue.step .ext (.call 0) = some notifyQueue) :
      Step s .test { s with notifyQueue, thNotify := .fetching }
  | take {notifyQueue : QueueThreads ModuleNotifyInfo} (fetching : s.thNotify = .fetching)
      (next : s.notifyQueue.step .ext (.leave 0) = some notifyQueue) :
      Step s .take { s with notifyQueue, thNotify := .working }
  | work (working : s.thNotify = .working) : Step s .work { s with thNotify := .testing }
  | queue {label : QueueLabel ModuleNotifyInfo} {notifyQueue : QueueThreads ModuleNotifyInfo}
      (admitted : s.admits label = true)
      (next : s.notifyQueue.step .ext label = some notifyQueue) :
      Step s (.queue label) { s with notifyQueue }
  | destroy (before : s.destructor = .notCalled) :
      Step s .destroy { s with isStop := true, destructor := .joining }
  | join (joining : s.destructor = .joining) (ended : s.thNotify = .ended) :
      Step s .join { s with destructor := .joined }

theorem step_cases (next : s.step label = some t) : Step s label t := by
  cases label with
  | test =>
    simp only [step] at next
    split at next
    · split_ifs at next with stopped
      · exact Option.some.inj next ▸ .finish ‹_›
      · obtain ⟨notifyQueue, goes, rfl⟩ := Option.map_eq_some_iff.mp next
        exact .fetch ‹_› (Bool.eq_false_iff.mpr stopped) goes
    · cases next
  | take =>
    simp only [step] at next
    split at next
    · obtain ⟨notifyQueue, goes, rfl⟩ := Option.map_eq_some_iff.mp next
      exact .take ‹_› goes
    · cases next
  | work =>
    simp only [step] at next
    split at next
    · exact Option.some.inj next ▸ .work ‹_›
    · cases next
  | queue label =>
    simp only [step] at next
    split_ifs at next with admitted
    obtain ⟨notifyQueue, goes, rfl⟩ := Option.map_eq_some_iff.mp next
    exact .queue admitted goes
  | destroy =>
    simp only [step] at next
    split at next
    · exact Option.some.inj next ▸ .destroy ‹_›
    · cases next
  | join =>
    simp only [step] at next
    split at next
    · exact Option.some.inj next ▸ .join ‹_› ‹_›
    · cases next

/-- What every run keeps. -/
structure Sound (s : ManagerShutdown) : Prop where
  guarded : s.notifyQueue.Guarded
  loaded : s.notifyQueue.Loaded
  runs : s.notifyQueue.eventQueue.isStop = false
  raised : s.destructor ≠ .notCalled → s.isStop = true

theorem Sound.of_queue (sound : s.Sound) {label : QueueLabel ModuleNotifyInfo}
    {notifyQueue : QueueThreads ModuleNotifyInfo} {thNotify : LoopPc}
    (next : s.notifyQueue.step .ext label = some notifyQueue) (quiet : label ≠ .raise) :
    Sound { s with notifyQueue, thNotify } where
  guarded := sound.guarded.keep next
  loaded := sound.loaded.keep sound.guarded next
  runs := (QueueThreads.isStop_of_step next quiet).trans sound.runs
  raised := sound.raised

theorem Sound.keep (sound : s.Sound) (next : s.step label = some t) : t.Sound := by
  cases step_cases next with
  | finish | work => exact ⟨sound.guarded, sound.loaded, sound.runs, sound.raised⟩
  | fetch testing running goes => exact sound.of_queue goes nofun
  | take fetching goes => exact sound.of_queue goes nofun
  | @queue label notifyQueue admitted goes =>
    refine sound.of_queue goes ?_
    rintro rfl
    cases admitted
  | destroy => exact ⟨sound.guarded, sound.loaded, sound.runs, fun _ => rfl⟩
  | join joining ended =>
    exact ⟨sound.guarded, sound.loaded, sound.runs,
      fun _ => sound.raised (by rw [joining]; nofun)⟩

theorem sound_of_run {allowed : ManagerShutdown → ShutdownLabel → Prop}
    (run : Run step allowed start labels s) : s.Sound := by
  apply run.invariant
  · exact ⟨QueueThreads.guarded_start, fun _ => nofun, rfl, fun called => absurd rfl called⟩
  · intro s label t sound _ next
    exact sound.keep next

/-- The steps of the threads of the queue leave the destructor as well off as it is. -/
theorem doomed_queue_iff (sound : s.Sound) {label : QueueLabel ModuleNotifyInfo}
    {notifyQueue : QueueThreads ModuleNotifyInfo} (admitted : s.admits label = true)
    (next : s.notifyQueue.step .ext label = some notifyQueue) :
    Doomed { s with notifyQueue } ↔ s.Doomed := by
  refine and_congr_right fun joining => and_congr_right fun _ => not_congr ?_
  refine sound.loaded.fed_iff next ?_ ?_
  · rintro p item rfl
    cases joining.symm.trans (of_decide_eq_true admitted)
  · rintro c rfl
    cases admitted

theorem not_doomed_iff_of_step (sound : s.Sound) (next : s.step label = some t) :
    ¬ t.Doomed ↔ ¬ s.Doomed ∧ s.Prompt label := by
  -- a thread that is not in `DeQueue` is not waited for in vain
  have elsewhere {s : ManagerShutdown} (away : s.thNotify ≠ .fetching) : ¬ s.Doomed :=
    fun doomed => away doomed.2.1
  cases step_cases next with
  | finish testing =>
    exact iff_of_true (elsewhere nofun) ⟨elsewhere (by rw [testing]; nofun), trivial⟩
  | fetch testing running goes =>
    refine iff_of_true (fun doomed => ?_) ⟨elsewhere (by rw [testing]; nofun), trivial⟩
    have called : s.destructor = .joining := doomed.1
    cases running.symm.trans (sound.raised (by rw [called]; nofun))
  | take fetching goes =>
    refine iff_of_true (elsewhere nofun) ⟨fun doomed => doomed.2.2 (.inl ?_), trivial⟩
    cases QueueThreads.step_cases goes with
    | leave leaving takes =>
      rw [EventQueue.queue_of_deQueue sound.runs takes]
      exact List.cons_ne_nil _ _
  | work working =>
    exact iff_of_true (elsewhere nofun) ⟨elsewhere (by rw [working]; nofun), trivial⟩
  | queue admitted goes =>
    exact (not_congr (doomed_queue_iff sound admitted goes)).trans (and_iff_left trivial).symm
  | destroy before =>
    have spared : ¬ s.Doomed := fun doomed => nomatch before.symm.trans doomed.1
    constructor
    · intro free
      refine ⟨spared, fun fetching => ?_⟩
      by_contra starved
      exact free ⟨rfl, fetching, starved⟩
    · rintro ⟨-, prompt⟩ ⟨-, fetching, starved⟩
      exact starved (prompt fetching)
  | join joining ended =>
    exact iff_of_true (fun doomed => nomatch doomed.1)
      ⟨elsewhere (by rw [ended]; nofun), trivial⟩

/-- The destructor waits for a thread that cannot return exactly if it did not begin promptly. -/
theorem not_doomed_iff_prompt (run : Run step Free start labels s) :
    ¬ s.Doomed ↔ Run step Prompt start labels s := by
  have exactly : ∀ labels s label t, Run step Free start labels s → step s label = some t →
      (¬ Doomed t ↔ ¬ Doomed s ∧ Prompt s label) := by
    intro labels s label t earlier next
    exact not_doomed_iff_of_step (sound_of_run earlier) next
  refine run.good_iff ?_ exactly
  exact fun doomed => nomatch doomed.1

theorem Hanging.doomed (hanging : s.Hanging) : s.Doomed := by
  obtain ⟨joining, fetching, -, empty, quiet⟩ := hanging
  refine ⟨joining, fetching, ?_⟩
  rintro (item | ⟨p, pushes⟩)
  · exact item empty
  · exact pushes (quiet p)

/-- If the destructor begins where the notify thread is not in `DeQueue`, or with an element or
one to come, it never hangs. -/
theorem not_hanging_of_prompt_destroy (run : Run step Prompt start labels s) : ¬ s.Hanging :=
  fun hanging => (not_doomed_iff_prompt run.free).mpr run hanging.doomed

/-- The steps in which the notify thread comes to its wait. -/
def comeToWait : List ShutdownLabel :=
  [.test, .queue (.lock 0), .queue (.test 0), .queue (.wait 0)]

/-- A test that ensures `Prompt`: it looks at one producer. -/
def isPrompt (s : ManagerShutdown) : ShutdownLabel → Bool
  | .destroy => s.thNotify ≠ .fetching ∨ s.notifyQueue.producer 0 ≠ .outside
  | _ => true

theorem prompt_of_isPrompt (s : ManagerShutdown) (label : ShutdownLabel)
    (passes : s.isPrompt label = true) : s.Prompt label := by
  cases label with
  | destroy =>
    intro fetching
    exact .inr ⟨0, (of_decide_eq_true passes).resolve_left (not_not.mpr fetching)⟩
  | _ => trivial

/-- A notification that has begun when the destructor does wakes the thread up. -/
theorem not_hanging_of_notification :
    ∃ s : ManagerShutdown, s.destructor = .joined ∧ ¬ s.Hanging := by
  obtain ⟨s, run, ended⟩ := @exists_run_of_guarded _ _ step Prompt isPrompt prompt_of_isPrompt
    start
    (comeToWait ++ [.queue (.enQueue 0 (.ofJobs "flush")), .destroy, .queue (.lockProducer 0),
      .queue (.push 0), .queue (.notify 0 (some 0)), .queue (.lock 0), .queue (.test 0), .take,
      .work, .test, .join])
    (fun s => s.destructor = .joined) (by decide)
  exact ⟨s, of_decide_eq_true ended, not_hanging_of_prompt_destroy run⟩

/-- The thread waits when the destructor begins. -/
theorem hanging_of_idle : ∃ s : ManagerShutdown,
    Run step Free start (comeToWait ++ [.destroy]) s ∧ s.Hanging :=
  ⟨_, run_of_exec rfl, rfl, rfl, List.mem_singleton_self 0, rfl, fun _ => rfl⟩

end ManagerShutdown

end ExLibs.Module
