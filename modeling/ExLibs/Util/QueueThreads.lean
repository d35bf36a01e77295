/-
# The threads of an event queue

The two `eventQueue` classes, lock by lock: consumers in `DeQueue`, producers in
`EnQueue`, and one thread that calls `Stop`. A consumer that is to wait registers with
the condition variable and gives up the mutex at once; it is blocked until a notification
picks it, or it wakes up for no reason. `Stop` writes its flag and notifies without the
mutex.
-/
import Mathlib.Logic.Function.Basic
import ExLibs.Math.Transition
import ExLibs.Util.EventQueue

namespace ExLibs.Util

open ExLibs.Math

/-- `Ext::Queue::eventQueue` and `nsIPC::eventQueue`. -/
inductive QueueClass
  | ext
  | nsIPC
  deriving DecidableEq

/-- Where a consumer is in `DeQueue`. -/
inductive ConsumerPc
  | outside
  /-- It wants the mutex. -/
  | entering
  /-- It comes to the test of its loop. -/
  | testing
  /-- It has found that it has to wait, and does not wait yet. -/
  | deciding
  /-- It waits, with the mutex released. -/
  | waiting
  /-- It need not wait. -/
  | leaving
  deriving DecidableEq

/-- Where a producer is in `EnQueue`. -/
inductive ProducerPc (T : Type*)
  | outside
  | entering (item : T)
  | pushing (item : T)
  | notifying
  deriving DecidableEq

/-- The consumer is in its critical section. -/
def ConsumerPc.holding : ConsumerPc → Bool
  | testing | deciding | leaving => true
  | outside | entering | waiting => false

/-- The producer is in its critical section. -/
def ProducerPc.holding {T : Type*} : ProducerPc T → Bool
  | pushing _ | notifying => true
  | outside | entering _ => false

/-- Where `Stop` is. -/
inductive StopPc
  | notCalled
  /-- The flag is written. -/
  | raised
  | returned
  deriving DecidableEq

/-- A thread that can hold the mutex. -/
inductive QueueThread
  | consumer (c : ℕ)
  | producer (p : ℕ)
  deriving DecidableEq

/-- A queue and its threads. `cvQueue` are the consumers that are registered with the
condition variable and not notified. The last two fields are records of the items pushed
and of the values returned. -/
structure QueueThreads (T : Type*) where
  eventQueue : EventQueue T
  lck : Option QueueThread
  cvQueue : List ℕ
  consumer : ℕ → ConsumerPc
  producer : ℕ → ProducerPc T
  stopper : StopPc
  pushed : List T
  returned : List T

/-- A step of a thread. -/
inductive QueueLabel (T : Type*)
  | call (c : ℕ)
  /-- A consumer acquires the mutex, at its call or when it wakes up. -/
  | lock (c : ℕ)
  | test (c : ℕ)
  | wait (c : ℕ)
  /-- A consumer returns what it finds. -/
  | leave (c : ℕ)
  | enQueue (p : ℕ) (item : T)
  | lockProducer (p : ℕ)
  | push (p : ℕ)
  /-- `notify_one` wakes a consumer up, if there is one. -/
  | notify (p : ℕ) (woken : Option ℕ)
  /-- `Stop` writes its flag. -/
  | raise
  | notifyStop (woken : Option ℕ)
  /-- A consumer wakes up without a notification. -/
  | spurious (c : ℕ)

variable {T : Type*}

/-- Whether `DeQueue` waits. -/
def QueueClass.waits : QueueClass → EventQueue T → Bool
  | .ext, q => q.queue.isEmpty && !q.isStop
  | .nsIPC, q => q.queue.isEmpty

/-- `notify_one`. -/
def notifyOne (cvQueue : List ℕ) : Option ℕ → Option (List ℕ)
  | some c => if c ∈ cvQueue then some (cvQueue.erase c) else none
  | none => if cvQueue = [] then some [] else none

/-- The notification of `Stop`: `notify_one` or `notify_all`. -/
def QueueClass.notify (kind : QueueClass) (cvQueue : List ℕ) (woken : Option ℕ) :
    Option (List ℕ) :=
  match kind with
  | .ext => notifyOne cvQueue woken
  | .nsIPC => some []

namespace QueueThreads

/-- A new queue. -/
def start : QueueThreads T where
  eventQueue := .empty
  lck := none
  cvQueue := []
  consumer _ := .outside
  producer _ := .outside
  stopper := .notCalled
  pushed := []
  returned := []

/-- A consumer moves on. -/
def goto (s : QueueThreads T) (c : ℕ) (pc : ConsumerPc) : QueueThreads T :=
  { s with consumer := Function.update s.consumer c pc }

/-- A producer moves on. -/
def gotoProducer (s : QueueThreads T) (p : ℕ) (pc : ProducerPc T) : QueueThreads T :=
  { s with producer := Function.update s.producer p pc }

/-- One step, if the label is enabled. -/
def step [Inhabited T] (kind : QueueClass) (s : QueueThreads T) :
    QueueLabel T → Option (QueueThreads T)
  | .call c =>
    match s.consumer c with
    | .outside => some (s.goto c .entering)
    | _ => none
  | .lock c =>
    match s.lck, s.consumer c with
    | none, .entering => some { s.goto c .testing with lck := some (.consumer c) }
    | none, .waiting =>
      if c ∈ s.cvQueue then none
      else some { s.goto c .testing with lck := some (.consumer c) }
    | _, _ => none
  | .test c =>
    match s.consumer c with
    | .testing => some (s.goto c (if kind.waits s.eventQueue then .deciding else .leaving))
    | _ => none
  | .wait c =>
    match s.consumer c with
    | .deciding => some { s.goto c .waiting with lck := none, cvQueue := s.cvQueue ++ [c] }
    | _ => none
  | .leave c =>
    match s.consumer c with
    | .leaving => do
      let (item, eventQueue) ← s.eventQueue.deQueue
      some { s.goto c .outside with lck := none, eventQueue, returned := s.returned ++ [item] }
    | _ => none
  | .enQueue p item =>
    match s.producer p with
    | .outside => some (s.gotoProducer p (.entering item))
    | _ => none
  | .lockProducer p =>
    match s.lck, s.producer p with
    | none, .entering item =>
      some { s.gotoProducer p (.pushing item) with lck := some (.producer p) }
    | _, _ => none
  | .push p =>
    match s.producer p with
    | .pushing item => some { s.gotoProducer p .notifying with
        eventQueue := s.eventQueue.enQueue item, pushed := s.pushed ++ [item] }
    | _ => none
  | .notify p woken =>
    match s.producer p with
    | .notifying => (notifyOne s.cvQueue woken).map fun cvQueue =>
      { s.gotoProducer p .outside with lck := none, cvQueue }
    | _ => none
  | .raise =>
    match s.stopper with
    | .notCalled => some { s with stopper := .raised, eventQueue := s.eventQueue.stop }
    | _ => none
  | .notifyStop woken =>
    match s.stopper with
    | .raised => (kind.notify s.cvQueue woken).map fun cvQueue =>
      { s with stopper := .returned, cvQueue }
    | _ => none
  | .spurious c =>
    if c ∈ s.cvQueue then some { s with cvQueue := s.cvQueue.erase c } else none

section Notifications

variable {kind : QueueClass} {cvQueue left : List ℕ} {woken : Option ℕ}

/-- A notification picks a registered consumer, if there is one. -/
theorem notifyOne_cases (next : notifyOne cvQueue woken = some left) :
    cvQueue = [] ∧ left = [] ∨ ∃ c ∈ cvQueue, left = cvQueue.erase c := by
  unfold notifyOne at next
  split at next <;> split_ifs at next with member
  · exact .inr ⟨_, member, (Option.some.inj next).symm⟩
  · exact .inl ⟨member, (Option.some.inj next).symm⟩

/-- A notification registers no one. -/
theorem notifyOne_subset (next : notifyOne cvQueue woken = some left) : left ⊆ cvQueue := by
  obtain ⟨-, rfl⟩ | ⟨c, -, rfl⟩ := notifyOne_cases next
  · exact List.nil_subset _
  · exact List.erase_subset

theorem notify_subset (next : kind.notify cvQueue woken = some left) : left ⊆ cvQueue := by
  cases kind with
  | ext => exact notifyOne_subset next
  | nsIPC => exact Option.some.inj next ▸ List.nil_subset _

end Notifications

variable [Inhabited T] {kind : QueueClass} {s t : QueueThreads T} {label : QueueLabel T}

/-- What a step does. -/
inductive Step (kind : QueueClass) (s : QueueThreads T) : QueueLabel T → QueueThreads T → Prop
  | call {c : ℕ} (outside : s.consumer c = .outside) : Step kind s (.call c) (s.goto c .entering)
  | lock {c : ℕ} (free : s.lck = none) (ready : s.consumer c = .entering ∨
      s.consumer c = .waiting ∧ c ∉ s.cvQueue) :
      Step kind s (.lock c) { s.goto c .testing with lck := some (.consumer c) }
  | decide {c : ℕ} (testing : s.consumer c = .testing) (waits : kind.waits s.eventQueue = true) :
      Step kind s (.test c) (s.goto c .deciding)
  | go {c : ℕ} (testing : s.consumer c = .testing) (goes : kind.waits s.eventQueue = false) :
      Step kind s (.test c) (s.goto c .leaving)
  | wait {c : ℕ} (deciding : s.consumer c = .deciding) :
      Step kind s (.wait c) { s.goto c .waiting with lck := none, cvQueue := s.cvQueue ++ [c] }
  | leave {c : ℕ} {item : T} {eventQueue : EventQueue T} (leaving : s.consumer c = .leaving)
      (takes : s.eventQueue.deQueue = some (item, eventQueue)) :
      Step kind s (.leave c)
        { s.goto c .outside with lck := none, eventQueue, returned := s.returned ++ [item] }
  | enQueue {p : ℕ} {item : T} (outside : s.producer p = .outside) :
      Step kind s (.enQueue p item) (s.gotoProducer p (.entering item))
  | lockProducer {p : ℕ} {item : T} (free : s.lck = none)
      (entering : s.producer p = .entering item) :
      Step kind s (.lockProducer p)
        { s.gotoProducer p (.pushing item) with lck := some (.producer p) }
  | push {p : ℕ} {item : T} (pushing : s.producer p = .pushing item) :
      Step kind s (.push p) { s.gotoProducer p .notifying with
        eventQueue := s.eventQueue.enQueue item, pushed := s.pushed ++ [item] }
  | notify {p : ℕ} {woken : Option ℕ} {cvQueue : List ℕ} (notifying : s.producer p = .notifying)
      (picks : notifyOne s.cvQueue woken = some cvQueue) :
      Step kind s (.notify p woken) { s.gotoProducer p .outside with lck := none, cvQueue }
  | raise (running : s.stopper = .notCalled) :
      Step kind s .raise { s with stopper := .raised, eventQueue := s.eventQueue.stop }
  | notifyStop {woken : Option ℕ} {cvQueue : List ℕ} (raised : s.stopper = .raised)
      (picks : kind.notify s.cvQueue woken = some cvQueue) :
      Step kind s (.notifyStop woken) { s with stopper := .returned, cvQueue }
  | spurious {c : ℕ} (member : c ∈ s.cvQueue) :
      Step kind s (.spurious c) { s with cvQueue := s.cvQueue.erase c }

theorem step_cases (next : s.step kind label = some t) : Step kind s label t := by
  cases label with
  | call c =>
    simp only [step] at next
    split at next
    · exact Option.some.inj next ▸ .call ‹_›
    · cases next
  | lock c =>
    simp only [step] at next
    split at next
    · exact Option.some.inj next ▸ .lock ‹_› (.inl ‹_›)
    · split_ifs at next with registered
      exact Option.some.inj next ▸ .lock ‹_› (.inr ⟨‹_›, registered⟩)
    · cases next
  | test c =>
    simp only [step] at next
    split at next
    · rename_i testing
      obtain rfl := Option.some.inj next
      cases waits : kind.waits s.eventQueue with
      | true => exact .decide testing waits
      | false => exact .go testing waits
    · cases next
  | wait c =>
    simp only [step] at next
    split at next
    · exact Option.some.inj next ▸ .wait ‹_›
    · cases next
  | leave c =>
    simp only [step] at next
    split at next
    · obtain ⟨⟨item, eventQueue⟩, takes, made⟩ := Option.bind_eq_some_iff.mp next
      exact Option.some.inj made ▸ .leave ‹_› takes
    · cases next
  | enQueue p item =>
    simp only [step] at next
    split at next
    · exact Option.some.inj next ▸ .enQueue ‹_›
    · cases next
  | lockProducer p =>
    simp only [step] at next
    split at next
    · exact Option.some.inj next ▸ .lockProducer ‹_› ‹_›
    · cases next
  | push p =>
    simp only [step] at next
    split at next
    · exact Option.some.inj next ▸ .push ‹_›
    · cases next
  | notify p woken =>
    simp only [step] at next
    split at next
    · obtain ⟨cvQueue, picks, rfl⟩ := Option.map_eq_some_iff.mp next
      exact .notify ‹_› picks
    · cases next
  | raise =>
    simp only [step] at next
    split at next
    · exact Option.some.inj next ▸ .raise ‹_›
    · cases next
  | notifyStop woken =>
    simp only [step] at next
    split at next
    · obtain ⟨cvQueue, picks, rfl⟩ := Option.map_eq_some_iff.mp next
      exact .notifyStop ‹_› picks
    · cases next
  | spurious c =>
    simp only [step] at next
    split_ifs at next with member
    exact Option.some.inj next ▸ .spurious member

omit [Inhabited T] in
/-- The thread in its critical section holds the mutex. -/
structure Guarded (s : QueueThreads T) : Prop where
  consumer : ∀ c, (s.consumer c).holding = true → s.lck = some (.consumer c)
  producer : ∀ p, (s.producer p).holding = true → s.lck = some (.producer p)
  registered : ∀ c ∈ s.cvQueue, s.consumer c = .waiting
  stopped : s.stopper ≠ .notCalled → s.eventQueue.isStop = true

omit [Inhabited T] in
/-- A consumer that moves on leaves the others in their sections. -/
theorem Guarded.of_goto (guarded : s.Guarded) {c : ℕ} {pc : ConsumerPc}
    {lck : Option QueueThread} {cvQueue : List ℕ} {eventQueue : EventQueue T} {returned : List T}
    (mine : pc.holding = true → lck = some (.consumer c))
    (others : ∀ thread, thread ≠ .consumer c → s.lck = some thread → lck = some thread)
    (registered : c ∈ cvQueue → pc = .waiting) (subset : ∀ c' ∈ cvQueue, c' ≠ c → c' ∈ s.cvQueue)
    (flag : eventQueue.isStop = s.eventQueue.isStop) :
    ({ s.goto c pc with lck, cvQueue, eventQueue, returned } : QueueThreads T).Guarded := by
  refine ⟨fun c' holding => ?_, fun p holding => ?_, fun c' member => ?_, fun called => ?_⟩
  · change (Function.update s.consumer c pc c').holding = true at holding
    by_cases own : c' = c
    · subst own
      rw [Function.update_self] at holding
      exact mine holding
    · rw [Function.update_of_ne own] at holding
      exact others _ (by simpa using own) (guarded.consumer c' holding)
  · exact others _ nofun (guarded.producer p holding)
  · change Function.update s.consumer c pc c' = .waiting
    by_cases own : c' = c
    · subst own
      rw [Function.update_self]
      exact registered member
    · rw [Function.update_of_ne own]
      exact guarded.registered c' (subset c' member own)
  · exact flag.trans (guarded.stopped called)

omit [Inhabited T] in
/-- So does a producer that moves on. -/
theorem Guarded.of_gotoProducer (guarded : s.Guarded) {p : ℕ} {pc : ProducerPc T}
    {lck : Option QueueThread} {cvQueue : List ℕ} {eventQueue : EventQueue T} {pushed : List T}
    (mine : pc.holding = true → lck = some (.producer p))
    (others : ∀ thread, thread ≠ .producer p → s.lck = some thread → lck = some thread)
    (subset : cvQueue ⊆ s.cvQueue) (flag : eventQueue.isStop = s.eventQueue.isStop) :
    ({ s.gotoProducer p pc with lck, cvQueue, eventQueue, pushed } : QueueThreads T).Guarded := by
  refine ⟨fun c holding => ?_, fun p' holding => ?_,
    fun c member => guarded.registered c (subset member), fun called => ?_⟩
  · exact others _ nofun (guarded.consumer c holding)
  · change (Function.update s.producer p pc p').holding = true at holding
    by_cases own : p' = p
    · subst own
      rw [Function.update_self] at holding
      exact mine holding
    · rw [Function.update_of_ne own] at holding
      exact others _ (by simpa using own) (guarded.producer p' holding)
  · exact flag.trans (guarded.stopped called)

omit [Inhabited T] in
/-- A consumer that is not waiting is not registered. -/
theorem Guarded.not_registered (guarded : s.Guarded) {c : ℕ} (busy : s.consumer c ≠ .waiting)
    (member : c ∈ s.cvQueue) : False :=
  busy (guarded.registered c member)

omit [Inhabited T] in
/-- Nobody but the consumer in its section holds the mutex. -/
theorem Guarded.not_others (guarded : s.Guarded) {c : ℕ}
    (holding : (s.consumer c).holding = true) {thread : QueueThread}
    (other : thread ≠ .consumer c) : s.lck ≠ some thread := by
  rw [guarded.consumer c holding]
  exact fun same => other (Option.some.inj same).symm

theorem Guarded.keep (guarded : s.Guarded) (next : s.step kind label = some t) :
    t.Guarded := by
  have subset : ∀ c, ∀ c' ∈ s.cvQueue, c' ≠ c → c' ∈ s.cvQueue := fun _ _ member _ => member
  cases step_cases next with
  | @call c outside =>
    have busy : s.consumer c ≠ .waiting := by simp [outside]
    exact guarded.of_goto nofun (fun _ _ => id)
      (fun member => (guarded.not_registered busy member).elim) (subset c) rfl
  | @lock c free ready =>
    -- a consumer that wakes up is not registered any more
    have registered : c ∉ s.cvQueue := by
      rcases ready with entering | ⟨-, notified⟩
      · exact guarded.not_registered (by simp [entering])
      · exact notified
    exact guarded.of_goto (fun _ => rfl) (fun _ _ held => by rw [free] at held; cases held)
      (fun member => absurd member registered) (subset c) rfl
  | @decide c testing waits =>
    have busy : s.consumer c ≠ .waiting := by simp [testing]
    exact guarded.of_goto (fun _ => guarded.consumer c (by rw [testing]; rfl)) (fun _ _ => id)
      (fun member => (guarded.not_registered busy member).elim) (subset c) rfl
  | @go c testing goes =>
    have busy : s.consumer c ≠ .waiting := by simp [testing]
    exact guarded.of_goto (fun _ => guarded.consumer c (by rw [testing]; rfl)) (fun _ _ => id)
      (fun member => (guarded.not_registered busy member).elim) (subset c) rfl
  | @wait c deciding =>
    have alone : ∀ thread, thread ≠ .consumer c → s.lck ≠ some thread := fun _ =>
      guarded.not_others (by rw [deciding]; rfl)
    refine guarded.of_goto nofun (fun thread other held => absurd held (alone thread other))
      (fun _ => rfl) (fun c' member other => ?_) rfl
    exact (List.mem_append.mp member).resolve_right (by simpa using other)
  | @leave c item eventQueue leaving takes =>
    have alone : ∀ thread, thread ≠ .consumer c → s.lck ≠ some thread := fun _ =>
      guarded.not_others (by rw [leaving]; rfl)
    have busy : s.consumer c ≠ .waiting := by simp [leaving]
    exact guarded.of_goto nofun (fun thread other held => absurd held (alone thread other))
      (fun member => (guarded.not_registered busy member).elim) (subset c)
      (EventQueue.isStop_deQueue takes)
  | enQueue outside =>
    exact guarded.of_gotoProducer nofun (fun _ _ => id) (List.Subset.refl _) rfl
  | lockProducer free entering =>
    exact guarded.of_gotoProducer (fun _ => rfl) (fun _ _ held => by rw [free] at held; cases held)
      (List.Subset.refl _) rfl
  | @push p item pushing =>
    exact guarded.of_gotoProducer (fun _ => guarded.producer p (by rw [pushing]; rfl))
      (fun _ _ => id) (List.Subset.refl _) rfl
  | @notify p woken cvQueue notifying picks =>
    have holds := guarded.producer p (by rw [notifying]; rfl)
    refine guarded.of_gotoProducer nofun (fun thread other held => ?_) (notifyOne_subset picks)
      rfl
    exact absurd (Option.some.inj (held.symm.trans holds)) other
  | raise running =>
    exact ⟨guarded.consumer, guarded.producer, guarded.registered, fun _ => rfl⟩
  | notifyStop raised picks =>
    refine ⟨guarded.consumer, guarded.producer, fun c member => ?_, fun _ => ?_⟩
    · exact guarded.registered c (notify_subset picks member)
    · exact guarded.stopped (by simp [raised])
  | spurious member =>
    exact ⟨guarded.consumer, guarded.producer,
      fun c' rest => guarded.registered c' (List.mem_of_mem_erase rest), guarded.stopped⟩

omit [Inhabited T] in
theorem guarded_start : (start : QueueThreads T).Guarded :=
  ⟨nofun, nofun, nofun, fun called => absurd rfl called⟩

theorem guarded_of_run {allowed : QueueThreads T → QueueLabel T → Prop}
    {labels : List (QueueLabel T)} (run : Run (step kind) allowed start labels s) :
    s.Guarded :=
  run.invariant guarded_start fun _ _ _ guarded _ next => guarded.keep next

end QueueThreads

end ExLibs.Util
