/-
# An event queue while it runs

Until `Stop` is called, what was pushed has been returned, in the same order, or is still in
the queue. Notifications are not lost either: as long as a consumer is blocked, the queue
holds no more items than there are consumers that go on by themselves and producers that have
yet to notify. A consumer that wakes up too late, because another has taken the item, waits
again when the queue is empty, and a notification that finds nobody is not needed, because
nobody registers before the queue is empty.
-/
import Mathlib.Data.Set.Card
import ExLibs.Util.QueueThreads

namespace ExLibs.Util

open ExLibs.Math

namespace QueueThreads

variable {T : Type*} [Inhabited T] {kind : QueueClass} {s t : QueueThreads T}
  {label : QueueLabel T} {labels : List (QueueLabel T)}

/-- The consumers in `DeQueue` that are not blocked, nor about to be. -/
def awake (s : QueueThreads T) : Set ℕ :=
  {c | s.consumer c = .entering ∨ s.consumer c = .testing ∨ s.consumer c = .leaving ∨
    s.consumer c = .waiting ∧ c ∉ s.cvQueue}

/-- The producers that have pushed an item and not notified. -/
def notifiers (s : QueueThreads T) : Set ℕ := {p | s.producer p = .notifying}

/-- There are items, and every consumer in `DeQueue` is blocked, with no notification to come. -/
def Lost (s : QueueThreads T) : Prop :=
  s.eventQueue.queue ≠ [] ∧ s.cvQueue ≠ [] ∧
    (∀ c, s.consumer c = .outside ∨ s.consumer c = .waiting ∧ c ∈ s.cvQueue) ∧
    ∀ p, s.producer p ≠ .notifying

/-- What is kept until `Stop` is called. -/
structure Steady (s : QueueThreads T) : Prop where
  runs : s.eventQueue.isStop = false
  order : s.pushed = s.returned ++ s.eventQueue.queue
  once : s.cvQueue.Nodup
  decided : ∀ c, s.consumer c = .deciding → s.eventQueue.queue = []
  covered : s.cvQueue ≠ [] →
    (s.eventQueue.queue.length : ℕ∞) ≤ s.awake.encard + s.notifiers.encard

section Counting

variable {c : ℕ} {p : ℕ} {pc : ConsumerPc} {place : ProducerPc T}

omit [Inhabited T] in
/-- A consumer that moves on leaves the others awake that are. -/
theorem mem_awake_of_ne {other : ℕ} (awake : other ∈ s.awake) (distinct : other ≠ c)
    (moves : t.consumer = Function.update s.consumer c pc)
    (registers : t.cvQueue ⊆ s.cvQueue) : other ∈ t.awake := by
  have same : t.consumer other = s.consumer other := by
    rw [moves, Function.update_of_ne distinct]
  rcases awake with entering | testing | leaving | ⟨waiting, notified⟩
  · exact .inl (same.trans entering)
  · exact .inr (.inl (same.trans testing))
  · exact .inr (.inr (.inl (same.trans leaving)))
  · exact .inr (.inr (.inr ⟨same.trans waiting,
      fun member => notified (registers member)⟩))

omit [Inhabited T] in
/-- A consumer that is awake where it comes to puts nobody to sleep. -/
theorem awake_subset (moves : t.consumer = Function.update s.consumer c pc)
    (registers : t.cvQueue ⊆ s.cvQueue) (now : c ∈ t.awake) : s.awake ⊆ t.awake := by
  intro other awake
  rcases eq_or_ne other c with rfl | distinct
  · exact now
  · exact mem_awake_of_ne awake distinct moves registers

omit [Inhabited T] in
theorem awake_subset_of_same (same : t.consumer = s.consumer) (registers : t.cvQueue ⊆ s.cvQueue) :
    s.awake ⊆ t.awake := by
  intro other awake
  rcases awake with entering | testing | leaving | ⟨waiting, notified⟩
  · exact .inl (same ▸ entering)
  · exact .inr (.inl (same ▸ testing))
  · exact .inr (.inr (.inl (same ▸ leaving)))
  · exact .inr (.inr (.inr ⟨same ▸ waiting, fun member => notified (registers member)⟩))

omit [Inhabited T] in
theorem notifiers_subset (moves : t.producer = Function.update s.producer p place)
    (before : s.producer p ≠ .notifying) : s.notifiers ⊆ t.notifiers := by
  intro other notifying
  exact (congrFun moves other).trans (moved_eq_of_ne before notifying)

omit [Inhabited T] in
/-- As long as nobody is put to sleep, what was covered is. -/
theorem Steady.covered_mono (steady : s.Steady) (blocked : s.cvQueue ≠ [])
    (queue : t.eventQueue.queue = s.eventQueue.queue) (awakes : s.awake ⊆ t.awake)
    (notifies : s.notifiers ⊆ t.notifiers) :
    (t.eventQueue.queue.length : ℕ∞) ≤ t.awake.encard + t.notifiers.encard := by
  rw [queue]
  exact (steady.covered blocked).trans
    (add_le_add (Set.encard_le_encard awakes) (Set.encard_le_encard notifies))

end Counting

omit [Inhabited T] in
theorem queue_of_waits {q : EventQueue T} (waits : kind.waits q = true) : q.queue = [] := by
  cases kind with
  | ext => exact List.isEmpty_iff.mp (Bool.and_eq_true_iff.mp waits).1
  | nsIPC => exact List.isEmpty_iff.mp waits

/-- `Stop` is not taken back. -/
theorem notCalled_of_step (next : s.step kind label = some t) (running : t.stopper = .notCalled) :
    s.stopper = .notCalled := by
  cases step_cases next with
  | raise | notifyStop => cases running
  | _ => exact running

theorem Steady.covered_step (guarded : s.Guarded) (steady : s.Steady)
    (next : s.step kind label = some t) (running : t.stopper = .notCalled)
    (blocked : t.cvQueue ≠ []) :
    (t.eventQueue.queue.length : ℕ∞) ≤ t.awake.encard + t.notifiers.encard := by
  cases step_cases next with
  | call outside =>
    refine steady.covered_mono blocked rfl (awake_subset rfl (List.Subset.refl _) ?_) subset_rfl
    exact .inl (Function.update_self ..)
  | lock free ready =>
    refine steady.covered_mono blocked rfl (awake_subset rfl (List.Subset.refl _) ?_) subset_rfl
    exact .inr (.inl (Function.update_self ..))
  | go testing goes =>
    refine steady.covered_mono blocked rfl (awake_subset rfl (List.Subset.refl _) ?_) subset_rfl
    exact .inr (.inr (.inl (Function.update_self ..)))
  | decide testing waits =>
    -- nobody waits for items that are there
    change (s.eventQueue.queue.length : ℕ∞) ≤ _
    rw [queue_of_waits waits]
    exact zero_le
  | wait deciding =>
    change (s.eventQueue.queue.length : ℕ∞) ≤ _
    rw [steady.decided _ deciding]
    exact zero_le
  | @leave c item eventQueue leaving takes =>
    have awake : c ∈ s.awake := .inr (.inr (.inl leaving))
    have rest : s.awake \ {c} ⊆ ({ s.goto c .outside with
        lck := none, eventQueue, returned := s.returned ++ [item] } : QueueThreads T).awake :=
      fun other awake => mem_awake_of_ne awake.1 awake.2 rfl (List.Subset.refl _)
    have covered := steady.covered blocked
    rw [EventQueue.queue_of_deQueue steady.runs takes, List.length_cons, Nat.cast_add_one,
      ← Set.encard_sdiff_singleton_add_one awake, add_right_comm] at covered
    refine ((ENat.add_le_add_iff_right ENat.one_ne_top).mp covered).trans ?_
    exact add_le_add_left (Set.encard_le_encard rest) _
  | enQueue outside =>
    exact steady.covered_mono blocked rfl subset_rfl
      (notifiers_subset rfl (by rw [outside]; nofun))
  | lockProducer free entering =>
    exact steady.covered_mono blocked rfl subset_rfl
      (notifiers_subset rfl (by rw [entering]; nofun))
  | @push p item pushing =>
    -- the producer that has pushed owes a notification
    have quiet : p ∉ s.notifiers := fun notifying => nomatch pushing.symm.trans notifying
    have owes : insert p s.notifiers ⊆ ({ s.gotoProducer p .notifying with
        eventQueue := s.eventQueue.enQueue item, pushed := s.pushed ++ [item] } :
        QueueThreads T).notifiers :=
      Set.insert_subset (Function.update_self ..)
        (notifiers_subset rfl (by rw [pushing]; nofun))
    have covered := steady.covered blocked
    change ((s.eventQueue.queue ++ [item]).length : ℕ∞) ≤ s.awake.encard + _
    rw [List.length_append, List.length_singleton, Nat.cast_add_one]
    refine (add_le_add_left covered 1).trans ?_
    rw [add_assoc, ← Set.encard_insert_of_notMem quiet]
    exact add_le_add_right (Set.encard_le_encard owes) _
  | @notify p woken cvQueue notifying picks =>
    obtain ⟨-, rfl⟩ | ⟨c, member, rfl⟩ := notifyOne_cases picks
    · exact absurd rfl blocked
    -- the consumer that is picked is one more that is awake
    have asleep : c ∉ s.awake := by
      have waiting := guarded.registered c member
      rintro (entering | testing | leaving | ⟨-, notified⟩)
      · cases waiting.symm.trans entering
      · cases waiting.symm.trans testing
      · cases waiting.symm.trans leaving
      · exact notified member
    have awakes : insert c s.awake ⊆ ({ s.gotoProducer p .outside with
        lck := none, cvQueue := s.cvQueue.erase c } : QueueThreads T).awake := by
      refine Set.insert_subset ?_ (awake_subset_of_same rfl List.erase_subset)
      exact .inr (.inr (.inr ⟨guarded.registered c member, steady.once.not_mem_erase⟩))
    have notifies : s.notifiers \ {p} ⊆ ({ s.gotoProducer p .outside with
        lck := none, cvQueue := s.cvQueue.erase c } : QueueThreads T).notifiers :=
      fun other quiet => (Function.update_of_ne quiet.2 ..).trans quiet.1
    have covered := steady.covered (List.ne_nil_of_mem member)
    rw [← Set.encard_sdiff_singleton_add_one (show p ∈ s.notifiers from notifying), ← add_assoc,
      add_right_comm, ← Set.encard_insert_of_notMem asleep] at covered
    exact covered.trans
      (add_le_add (Set.encard_le_encard awakes) (Set.encard_le_encard notifies))
  | spurious member =>
    refine steady.covered_mono (List.ne_nil_of_mem member) rfl
      (awake_subset_of_same rfl List.erase_subset) subset_rfl
  | raise | notifyStop => cases running

theorem Steady.keep (guarded : s.Guarded) (steady : s.Steady)
    (next : s.step kind label = some t) (running : t.stopper = .notCalled) : t.Steady := by
  have covered := steady.covered_step guarded next running
  have empty : ∀ c, s.consumer c = .deciding → s.eventQueue.queue = [] := steady.decided
  -- only a consumer that has just tested comes to decide
  have still : ∀ {c other : ℕ} {pc : ConsumerPc}, pc ≠ .deciding →
      Function.update s.consumer c pc other = .deciding → s.eventQueue.queue = [] := by
    intro c other pc elsewhere deciding
    rcases moved_eq_iff.mp deciding with ⟨-, now⟩ | ⟨-, before⟩
    · exact absurd now elsewhere
    · exact empty other before
  cases step_cases next with
  | call | lock | go =>
    exact ⟨steady.runs, steady.order, steady.once, fun _ => still nofun, covered⟩
  | decide testing waits =>
    exact ⟨steady.runs, steady.order, steady.once, fun _ _ => queue_of_waits waits, covered⟩
  | @wait c deciding =>
    refine ⟨steady.runs, steady.order, ?_, fun _ => still nofun, covered⟩
    refine List.nodup_append.mpr ⟨steady.once, List.nodup_singleton c, ?_⟩
    rintro other member _ last rfl
    obtain rfl := List.mem_singleton.mp last
    cases deciding.symm.trans (guarded.registered other member)
  | @leave c item eventQueue leaving takes =>
    have taken := EventQueue.queue_of_deQueue steady.runs takes
    refine ⟨(EventQueue.isStop_deQueue takes).trans steady.runs, ?_, steady.once, ?_, covered⟩
    · change s.pushed = (s.returned ++ [item]) ++ eventQueue.queue
      rw [steady.order, taken, List.append_assoc, List.singleton_append]
    · intro other deciding
      have elsewhere : ConsumerPc.outside ≠ .deciding := nofun
      cases taken.symm.trans (still elsewhere deciding)
  | enQueue | lockProducer =>
    exact ⟨steady.runs, steady.order, steady.once, empty, covered⟩
  | @push p item pushing =>
    refine ⟨steady.runs, ?_, steady.once, ?_, covered⟩
    · change s.pushed ++ [item] = s.returned ++ (s.eventQueue.queue ++ [item])
      rw [steady.order, List.append_assoc]
    · intro c deciding
      -- nobody else is in a critical section
      have holds := guarded.producer p (by rw [pushing]; rfl)
      have decides : (s.consumer c).holding = true := by
        rw [show s.consumer c = .deciding from deciding]
        rfl
      cases holds.symm.trans (guarded.consumer c decides)
  | notify notifying picks =>
    refine ⟨steady.runs, steady.order, ?_, empty, covered⟩
    obtain ⟨-, rfl⟩ | ⟨c, -, rfl⟩ := notifyOne_cases picks
    · exact List.nodup_nil
    · exact steady.once.erase c
  | @spurious c member =>
    exact ⟨steady.runs, steady.order, steady.once.erase c, empty, covered⟩
  | raise | notifyStop => cases running

omit [Inhabited T] in
theorem steady_start : (start : QueueThreads T).Steady :=
  ⟨rfl, rfl, List.nodup_nil, nofun, fun blocked => absurd rfl blocked⟩

/-- What a run keeps as long as `Stop` is not called. -/
theorem steady_of_run (run : Run (step kind) Free start labels s)
    (running : s.stopper = .notCalled) : s.Steady := by
  have keeps : s.stopper = .notCalled → s.Steady := by
    refine @Run.invariant_of_reached _ _ (step kind) Free start s labels
      (fun s => s.stopper = .notCalled → s.Steady) (fun _ => steady_start) ?_ run
    intro labels s label t earlier steady _ next running
    exact (steady (notCalled_of_step next running)).keep (guarded_of_run earlier) next running
  exact keeps running

omit [Inhabited T] in
theorem Steady.not_lost (steady : s.Steady) : ¬ s.Lost := by
  rintro ⟨items, blocked, asleep, quiet⟩
  have nobody : s.awake = ∅ := by
    refine Set.eq_empty_of_forall_notMem fun c awake => ?_
    rcases asleep c with outside | ⟨waiting, member⟩
    · rcases awake with at_ | at_ | at_ | ⟨at_, -⟩ <;> cases outside.symm.trans at_
    · rcases awake with at_ | at_ | at_ | ⟨-, notified⟩
      · cases waiting.symm.trans at_
      · cases waiting.symm.trans at_
      · cases waiting.symm.trans at_
      · exact notified member
  have none : s.notifiers = ∅ := Set.eq_empty_of_forall_notMem quiet
  have covered := steady.covered blocked
  rw [nobody, none, Set.encard_empty, add_zero, nonpos_iff_eq_zero,
    Nat.cast_eq_zero, List.length_eq_zero_iff] at covered
  exact items covered

/-- Until `Stop` is called, consumers return the items that were pushed in the order in which
they were, and no item is left to consumers that are all blocked. -/
theorem prefix_and_not_lost (run : Run (step kind) Free start labels s)
    (running : s.stopper = .notCalled) : s.returned <+: s.pushed ∧ ¬ s.Lost := by
  have steady := steady_of_run run running
  exact ⟨⟨s.eventQueue.queue, steady.order.symm⟩, steady.not_lost⟩

/-- Consumer 0 waits and is notified of the first of two items, which consumer 1 takes before
it. It takes the second one. -/
theorem prefix_and_not_lost_stolen : ∃ s : QueueThreads ℕ, s.pushed = [5, 6] ∧
    s.returned = [5, 6] ∧ s.returned <+: s.pushed ∧ ¬ s.Lost := by
  obtain ⟨s, run, ended⟩ := @exists_run_of_exec _ _ (step .ext) (start : QueueThreads ℕ)
    [.call 0, .lock 0, .test 0, .wait 0,
      .enQueue 0 5, .lockProducer 0, .push 0, .notify 0 (some 0),
      .call 1, .lock 1, .test 1, .leave 1,
      .lock 0, .test 0, .wait 0,
      .enQueue 0 6, .lockProducer 0, .push 0, .notify 0 (some 0),
      .lock 0, .test 0, .leave 0]
    (fun s => s.stopper = .notCalled ∧ s.pushed = [5, 6] ∧ s.returned = [5, 6]) (by decide)
  have ended := of_decide_eq_true ended
  exact ⟨s, ended.2.1, ended.2.2, prefix_and_not_lost run ended.1⟩

section Fed

/-- There is an item, or someone is about to push one. -/
def Fed (s : QueueThreads T) : Prop :=
  s.eventQueue.queue ≠ [] ∨ ∃ p, s.producer p ≠ .outside

/-- A producer that is to notify has pushed an item that is still there. -/
def Loaded (s : QueueThreads T) : Prop :=
  ∀ p, s.producer p = .notifying → s.eventQueue.queue ≠ []

theorem Loaded.keep (loaded : s.Loaded) (guarded : s.Guarded)
    (next : s.step kind label = some t) : t.Loaded := by
  -- a producer that moves on elsewhere leaves those that are to notify
  have others {p q : ℕ} {place : ProducerPc T} (elsewhere : place ≠ .notifying)
      (notifying : Function.update s.producer p place q = .notifying) :
      s.eventQueue.queue ≠ [] := by
    rcases moved_eq_iff.mp notifying with ⟨-, now⟩ | ⟨-, before⟩
    · exact absurd now elsewhere
    · exact loaded q before
  cases step_cases next with
  | call | lock | decide | go | wait | raise | notifyStop | spurious => exact loaded
  | @leave c item eventQueue leaving takes =>
    intro p notifying
    have taker := guarded.consumer c (by rw [leaving]; rfl)
    have pusher := guarded.producer p (by rw [show s.producer p = .notifying from notifying]; rfl)
    cases taker.symm.trans pusher
  | @enQueue p item outside =>
    intro q notifying
    have elsewhere : ProducerPc.entering item ≠ .notifying := nofun
    exact others elsewhere notifying
  | @lockProducer p item free entering =>
    intro q notifying
    have elsewhere : ProducerPc.pushing item ≠ .notifying := nofun
    exact others elsewhere notifying
  | push => exact fun _ _ => List.append_ne_nil_of_right_ne_nil _ (List.cons_ne_nil _ _)
  | notify notifying picks =>
    intro q notifying'
    have elsewhere : (ProducerPc.outside : ProducerPc T) ≠ .notifying := nofun
    exact others elsewhere notifying'

/-- Items come from those who push them: a step that is neither the beginning of `EnQueue` nor
the end of `DeQueue` leaves it at whether there is one or one to come. -/
theorem Loaded.fed_iff (loaded : s.Loaded) (next : s.step kind label = some t)
    (begins : ∀ p item, label ≠ .enQueue p item) (ends : ∀ c, label ≠ .leave c) :
    t.Fed ↔ s.Fed := by
  cases step_cases next with
  | call | lock | decide | go | wait | raise | notifyStop | spurious => exact Iff.rfl
  | @leave c => exact absurd rfl (ends c)
  | @enQueue p item => exact absurd rfl (begins p item)
  | @lockProducer p item free entering =>
    have moved : Function.update s.producer p (.pushing item) p ≠ .outside := by
      rw [Function.update_self]
      nofun
    exact iff_of_true (.inr ⟨p, moved⟩) (.inr ⟨p, by rw [entering]; nofun⟩)
  | @push p item pushing =>
    refine iff_of_true (.inl ?_) (.inr ⟨p, by rw [pushing]; nofun⟩)
    exact List.append_ne_nil_of_right_ne_nil _ (List.cons_ne_nil _ _)
  | @notify p woken cvQueue notifying picks =>
    exact iff_of_true (.inl (loaded p notifying)) (.inl (loaded p notifying))

/-- Nobody but `Stop` stops the queue. -/
theorem isStop_of_step (next : s.step kind label = some t) (quiet : label ≠ .raise) :
    t.eventQueue.isStop = s.eventQueue.isStop := by
  cases step_cases next with
  | leave leaving takes => exact EventQueue.isStop_deQueue takes
  | raise => exact absurd rfl quiet
  | _ => rfl

end Fed

end QueueThreads

end ExLibs.Util
