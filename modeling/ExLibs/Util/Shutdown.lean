/-
# Stopping an event queue

`Stop` means to let every consumer go that waits in `DeQueue`. It does not hold the mutex,
so that a consumer which has just found that it has to wait registers behind its back.
`Ext::Queue::eventQueue` wakes up one consumer only. `nsIPC::eventQueue` wakes up everyone,
but its consumers look at the queue alone and wait again when they find it empty.

No consumer is left behind as long as the notification of `Stop` finds nobody between the
test and the wait, and, for the first class, one waiting consumer at most, or, for the
second, no consumer finds the queue empty afterwards.
-/
import ExLibs.Util.QueueThreads

namespace ExLibs.Util

open ExLibs.Math

namespace QueueThreads

variable {T : Type*} [Inhabited T] {kind : QueueClass} {s t : QueueThreads T}
  {label : QueueLabel T} {labels : List (QueueLabel T)}

/-- `Stop` has returned, and a consumer is blocked that no notification has picked. -/
def Stranded (s : QueueThreads T) : Prop := s.stopper = .returned ∧ s.cvQueue ≠ []

/-- The holder of the mutex is a consumer between its test and its wait. -/
def isDeciding (s : QueueThreads T) : Bool :=
  match s.lck with
  | some (.consumer c) => s.consumer c = .deciding
  | _ => false

/-- `Stop` notifies when nobody is between the test and the wait; for
`Ext::Queue::eventQueue` at most one consumer waits then, and for `nsIPC::eventQueue`
whoever tests the queue later finds an item. -/
def Timely (kind : QueueClass) (s : QueueThreads T) : QueueLabel T → Prop
  | .notifyStop _ => s.isDeciding = false ∧ (kind = .ext → s.cvQueue.length ≤ 1)
  | .test _ => kind = .nsIPC → s.stopper = .returned → s.eventQueue.queue.isEmpty = false
  | _ => True

/-- Once `Stop` has returned nobody waits or is about to. -/
def Released (s : QueueThreads T) : Prop :=
  s.stopper = .returned → s.cvQueue = [] ∧ ∀ c, s.consumer c ≠ .deciding

omit [Inhabited T] in
theorem Guarded.isDeciding_iff (guarded : s.Guarded) :
    s.isDeciding = true ↔ ∃ c, s.consumer c = .deciding := by
  constructor
  · intro decides
    unfold isDeciding at decides
    split at decides
    · exact ⟨_, of_decide_eq_true decides⟩
    · cases decides
  · rintro ⟨c, deciding⟩
    have holds := guarded.consumer c (by rw [deciding]; rfl)
    simp [isDeciding, holds, deciding]

omit [Inhabited T] in
/-- Every registered consumer is notified when there is one at most, or all are. -/
theorem eq_nil_of_notify {cvQueue left : List ℕ} {woken : Option ℕ}
    (few : kind = .ext → cvQueue.length ≤ 1) (picks : kind.notify cvQueue woken = some left) :
    left = [] := by
  cases kind with
  | nsIPC => exact (Option.some.inj picks).symm
  | ext =>
    obtain ⟨-, rfl⟩ | ⟨c, member, rfl⟩ := notifyOne_cases picks
    · rfl
    · have length := List.length_erase_of_mem member
      exact List.eq_nil_of_length_eq_zero (by have := few rfl; omega)

theorem Released.keep (guarded : s.Guarded) (released : s.Released)
    (timely : s.Timely kind label) (next : s.step kind label = some t) : t.Released := by
  intro returned
  cases step_cases next with
  | notifyStop raised picks =>
    obtain ⟨undecided, few⟩ := timely
    refine ⟨eq_nil_of_notify few picks, fun c deciding => ?_⟩
    rw [guarded.isDeciding_iff.mpr ⟨c, deciding⟩] at undecided
    cases undecided
  | @decide c testing waits =>
    -- nobody finds that it has to wait any more
    have called : s.stopper ≠ .notCalled := fun notCalled => nomatch notCalled.symm.trans returned
    have flag := guarded.stopped called
    cases kind with
    | ext => simp [QueueClass.waits, flag] at waits
    | nsIPC => exact absurd waits (by simp [QueueClass.waits, timely rfl returned])
  -- and nobody is left who has found it before
  | wait deciding => exact absurd deciding ((released returned).2 _)
  | raise running => cases returned
  | notify notifying picks =>
    obtain ⟨empty, undecided⟩ := released returned
    refine ⟨List.eq_nil_of_subset_nil ?_, undecided⟩
    exact empty ▸ notifyOne_subset picks
  | spurious member =>
    obtain ⟨empty, -⟩ := released returned
    exact absurd member (empty ▸ List.not_mem_nil)
  | enQueue | lockProducer | push => exact released returned
  | call | lock | go | leave =>
    obtain ⟨empty, undecided⟩ := released returned
    refine ⟨empty, fun c => ?_⟩
    simp only [goto, Function.update_apply]
    split
    · simp
    · exact undecided c

omit [Inhabited T] in
theorem released_start : (start : QueueThreads T).Released := nofun

/-- What a timely run keeps. -/
theorem released_of_run (run : Run (step kind) (Timely kind) start labels s) : s.Released :=
  run.invariant_of_reached released_start fun _ _ _ _ earlier released timely next =>
    released.keep (guarded_of_run earlier) timely next

omit [Inhabited T] in
theorem Released.not_stranded (released : s.Released) : ¬ s.Stranded :=
  fun ⟨returned, waiting⟩ => waiting (released returned).1

/-- In a timely run `Stop` leaves no consumer behind. -/
theorem not_stranded_of_timely (kind : QueueClass)
    (run : Run (step kind) (Timely kind) start labels s) : ¬ s.Stranded :=
  (released_of_run run).not_stranded

/-- A consumer is blocked after `Stop`, or about to be. -/
def Doomed (s : QueueThreads T) : Prop :=
  s.Stranded ∨ s.stopper = .returned ∧ ∃ c, s.consumer c = .deciding

/-- What is left of the registered consumers after the notification of `Stop`. -/
theorem ne_nil_of_notify {cvQueue left : List ℕ} {woken : Option ℕ} (many : 1 < cvQueue.length)
    (picks : QueueClass.ext.notify cvQueue woken = some left) : left ≠ [] := by
  rintro rfl
  obtain ⟨rfl, -⟩ | ⟨c, member, erased⟩ := notifyOne_cases picks
  · cases many
  · have length := List.length_erase_of_mem member
    rw [← erased, List.length_nil] at length
    omega

/-- A step that is not timely blocks a consumer, or is about to. -/
theorem doomed_of_not_timely (guarded : s.Guarded) (late : ¬ s.Timely kind label)
    (next : s.step kind label = some t) : t.Doomed := by
  cases step_cases next with
  | notifyStop raised picks =>
    simp only [Timely, not_and_or, Bool.not_eq_false, Classical.not_imp, Nat.not_le] at late
    rcases late with decides | ⟨rfl, many⟩
    · exact .inr ⟨rfl, guarded.isDeciding_iff.mp decides⟩
    · exact .inl ⟨rfl, ne_nil_of_notify many picks⟩
  | @decide c testing waits =>
    simp only [Timely, Classical.not_imp] at late
    exact .inr ⟨late.2.1, c, Function.update_self ..⟩
  | go testing goes =>
    simp only [Timely, Classical.not_imp, Bool.not_eq_false] at late
    obtain ⟨rfl, -, empty⟩ := late
    exact nomatch goes.symm.trans empty
  | _ => exact absurd trivial late

/-- A consumer that is about to wait after `Stop` will. -/
theorem Doomed.keep (doomed : s.Doomed) (calm : ¬ s.Stranded)
    (next : s.step kind label = some t) : t.Doomed := by
  obtain ⟨returned, c, deciding⟩ := doomed.resolve_left calm
  cases step_cases next with
  | @wait other waits =>
    -- it registers after the last notification, or someone else does
    rcases eq_or_ne other c with rfl | distinct
    · exact .inl ⟨returned, by simp⟩
    · exact .inr ⟨returned, c, (Function.update_of_ne distinct.symm ..).trans deciding⟩
  | raise running => exact nomatch running.symm.trans returned
  | notifyStop raised => exact nomatch raised.symm.trans returned
  | enQueue | lockProducer | push | notify | spurious => exact .inr ⟨returned, c, deciding⟩
  | call before | decide before | go before | leave before =>
    refine .inr ⟨returned, c, (Function.update_of_ne ?_ ..).trans deciding⟩
    rintro rfl
    exact nomatch before.symm.trans deciding
  | lock free before =>
    refine .inr ⟨returned, c, (Function.update_of_ne ?_ ..).trans deciding⟩
    rintro rfl
    rcases before with entering | ⟨waiting, -⟩
    · exact nomatch entering.symm.trans deciding
    · exact nomatch waiting.symm.trans deciding

/-- A run in which nobody was stranded on the way was timely, or is about to strand
someone. -/
theorem timely_or_doomed (run : Run (step kind) (fun s _ => ¬ s.Stranded) start labels s) :
    Run (step kind) (Timely kind) start labels s ∨ s.Doomed := by
  induction run with
  | nil => exact .inl .nil
  | @snoc labels s t label earlier calm next ih =>
    rcases ih with timely | doomed
    · by_cases onTime : s.Timely kind label
      · exact .inl (.snoc timely onTime next)
      · exact .inr (doomed_of_not_timely (guarded_of_run timely) onTime next)
    · exact .inr (doomed.keep calm next)

/-- A run with nobody between the test and the wait at its end was timely exactly if it
never stranded anyone. -/
theorem calm_iff_timely (settled : ∀ c, s.consumer c ≠ .deciding) :
    Run (step kind) (fun s _ => ¬ s.Stranded) start labels s ∧ ¬ s.Stranded ↔
      Run (step kind) (Timely kind) start labels s := by
  constructor
  · rintro ⟨calm, free⟩
    refine (timely_or_doomed calm).resolve_right ?_
    rintro (stranded | ⟨-, c, deciding⟩)
    · exact free stranded
    · exact settled c deciding
  · intro timely
    refine ⟨?_, (released_of_run timely).not_stranded⟩
    clear settled
    induction timely with
    | nil => exact .nil
    | snoc earlier _ next ih => exact .snoc ih (released_of_run earlier).not_stranded next

instance (kind : QueueClass) (s : QueueThreads T) : DecidablePred (s.Timely kind)
  | .notifyStop _ => inferInstanceAs
      (Decidable (s.isDeciding = false ∧ (kind = .ext → s.cvQueue.length ≤ 1)))
  | .test _ => inferInstanceAs
      (Decidable (kind = .nsIPC → s.stopper = .returned → s.eventQueue.queue.isEmpty = false))
  | .call _ | .lock _ | .wait _ | .leave _ | .enQueue .. | .lockProducer _ | .push _ | .notify ..
  | .raise | .spurious _ => inferInstanceAs (Decidable True)

/-- A consumer comes to its wait. -/
def comeToWait (c : ℕ) : List (QueueLabel ℕ) := [.call c, .lock c, .test c, .wait c]

/-- One consumer waits, `Stop` wakes it up, and it returns. -/
theorem not_stranded_of_one : ∃ s : QueueThreads ℕ, ¬ s.Stranded ∧ s.stopper = .returned ∧
    s.consumer 0 = .outside ∧ s.returned.length = 1 := by
  obtain ⟨s, run, ended⟩ := @exists_run_of_guarded _ _ (step .ext) (Timely .ext)
    (fun s label => s.Timely .ext label) (fun _ _ => of_decide_eq_true) start
    (comeToWait 0 ++ [.raise, .notifyStop (some 0), .lock 0, .test 0, .leave 0])
    (fun s => s.stopper = .returned ∧ s.consumer 0 = .outside ∧ s.returned.length = 1) (by decide)
  exact ⟨s, not_stranded_of_timely .ext run, of_decide_eq_true ended⟩

instance : DecidablePred (@Stranded T) := fun s =>
  inferInstanceAs (Decidable (s.stopper = .returned ∧ s.cvQueue ≠ []))

/-- With two consumers that wait, one of them stays blocked in `Ext::Queue::eventQueue`; in
`nsIPC::eventQueue` a single one does, and in either a consumer that `Stop` overtakes
between its test and its wait. The mutex is free each time. -/
theorem stranded_on_stop :
    (∃ s : QueueThreads ℕ, Run (step .ext) Free start (comeToWait 0 ++ comeToWait 1 ++
      [.raise, .notifyStop (some 0), .lock 0, .test 0, .leave 0]) s ∧ s.Stranded ∧ s.lck = none) ∧
    (∃ s : QueueThreads ℕ, Run (step .nsIPC) Free start (comeToWait 0 ++
      [.raise, .notifyStop none, .lock 0, .test 0, .wait 0]) s ∧ s.Stranded ∧ s.lck = none) ∧
    ∀ kind, ∃ s : QueueThreads ℕ, Run (step kind) Free start
      [.call 0, .lock 0, .test 0, .raise, .notifyStop none, .wait 0] s ∧ s.Stranded ∧
      s.lck = none := by
  refine ⟨?two, ?nsIPC, fun kind => ?overtaken⟩
  case two =>
    obtain ⟨s, run, ended⟩ := @exists_run_of_exec _ _ (step .ext) (start : QueueThreads ℕ)
      (comeToWait 0 ++ comeToWait 1 ++
        [.raise, .notifyStop (some 0), .lock 0, .test 0, .leave 0])
      (fun s => s.Stranded ∧ s.lck = none) (by decide)
    exact ⟨s, run, of_decide_eq_true ended⟩
  case nsIPC =>
    obtain ⟨s, run, ended⟩ := @exists_run_of_exec _ _ (step .nsIPC) (start : QueueThreads ℕ)
      (comeToWait 0 ++ [.raise, .notifyStop none, .lock 0, .test 0, .wait 0])
      (fun s => s.Stranded ∧ s.lck = none) (by decide)
    exact ⟨s, run, of_decide_eq_true ended⟩
  case overtaken =>
    obtain ⟨s, run, ended⟩ := @exists_run_of_exec _ _ (step kind) (start : QueueThreads ℕ)
      [.call 0, .lock 0, .test 0, .raise, .notifyStop none, .wait 0]
      (fun s => s.Stranded ∧ s.lck = none) (by cases kind <;> decide)
    exact ⟨s, run, of_decide_eq_true ended⟩

end QueueThreads

end ExLibs.Util
