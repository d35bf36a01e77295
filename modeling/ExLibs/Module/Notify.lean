/-
# Notifications and their audience

`NotifyAllModule` and `NotifyGroupModule` push an element each, and the notify thread takes
them out in order and visits the modules of the registry with each. The element that
`NotifyGroupModule` pushes is converted from the jobs alone, so that a group notification
goes to every started module.
-/
import ExLibs.Module.Manager
import ExLibs.Util.EventQueue

namespace ExLibs.Module

open ExLibs.Math ExLibs.Network ExLibs.Util

/-- `MODULE_NOTIFY_INFO`. -/
structure ModuleNotifyInfo where
  sGroup : XString := ""
  sJobs : XString := ""
  deriving DecidableEq, Inhabited

namespace ModuleNotifyInfo

/-- The constructor from jobs, which converts a string wherever an element is wanted. -/
def ofJobs (sJobs : XString) : ModuleNotifyInfo := { sJobs }

def isEmpty (info : ModuleNotifyInfo) : Bool := info.sGroup.isEmpty && info.sJobs.isEmpty

/-- Whether the loop of `notifyAllModule` comes to `NotifyModule` with a module. -/
def notifies (info : ModuleNotifyInfo) (base : ModuleBase) : Bool :=
  if base.getModuleState ≠ .start then false
  else if info.sGroup.isEmpty = false then
    if base.sModuleGroup ≠ info.sGroup then false else true
  else true

end ModuleNotifyInfo

/-- A call of `NotifyAllModule` or `NotifyGroupModule`. -/
inductive Notification
  | all (sNotifyJobs : XString)
  | group (sGroup sNotifyJobs : XString)
  deriving DecidableEq

namespace Notification

def sNotifyJobs : Notification → XString
  | .all sNotifyJobs => sNotifyJobs
  | .group _ sNotifyJobs => sNotifyJobs

/-- The element that is pushed. -/
def element : Notification → ModuleNotifyInfo
  | .all sNotifyJobs => .ofJobs sNotifyJobs
  -- the element made of the group and the jobs is not the one that is pushed
  | .group _ sNotifyJobs => .ofJobs sNotifyJobs

/-- The jobs, and the group of a group notification, are not empty. -/
def Named : Notification → Prop
  | .all sNotifyJobs => sNotifyJobs ≠ ""
  | .group sGroup sNotifyJobs => sGroup ≠ "" ∧ sNotifyJobs ≠ ""

/-- The notification is meant for the modules of this group. -/
def IsFor : Notification → XString → Prop
  | .all _, _ => True
  | .group sGroup _, sModuleGroup => sModuleGroup = sGroup

end Notification

/-- The module is registered, started, and of the group that is notified. -/
def ModuleManager.Audience (manager : ModuleManager) (notification : Notification)
    (spModule : ℕ) : Prop :=
  spModule ∈ manager.entries ∧ (manager.modules spModule).getModuleState = .start ∧
    notification.IsFor (manager.modules spModule).sModuleGroup

/-- The calls of `NotifyModule` for an element, and the registry that it found. -/
structure Served where
  manager : ModuleManager
  calls : List (ℕ × XString)

/-- Each module of the audience has been called once, and no other has. -/
structure Served.Answers (served : Served) (notification : Notification) : Prop where
  once : ∀ spModule, served.manager.Audience notification spModule →
    served.calls.count (spModule, notification.sNotifyJobs) = 1
  only : ∀ call ∈ served.calls,
    served.manager.Audience notification call.1 ∧ call.2 = notification.sNotifyJobs

/-- Where the notify thread is. -/
inductive NotifyPc
  | fetching
  /-- It goes through the registry, of which `rest` is left. -/
  | visiting (info : ModuleNotifyInfo) (rest : List ℕ) (calls : List (ℕ × XString))

/-- A manager, its queue and its notify thread. `asked` and `served` are records of the
notifications that were called and of what came of those that are done. -/
structure Notifier where
  manager : ModuleManager
  notifyQueue : EventQueue ModuleNotifyInfo
  thNotify : NotifyPc
  asked : List Notification
  served : List Served

/-- A notification, a change of the registry between two of them, or a step of the thread. -/
inductive NotifyLabel
  | notify (notification : Notification)
  | change (manager : ModuleManager)
  | deQueue
  | visit
  | finish

namespace Notifier

/-- A manager before the first notification. -/
def start (manager : ModuleManager) : Notifier := ⟨manager, .empty, .fetching, [], []⟩

/-- One step, if the label is enabled. -/
def step (s : Notifier) : NotifyLabel → Option Notifier
  | .notify notification => some { s with
      notifyQueue := s.notifyQueue.enQueue notification.element
      asked := s.asked ++ [notification] }
  | .change manager =>
    match s.thNotify with
    | .fetching => some { s with manager }
    | .visiting .. => none
  | .deQueue =>
    match s.thNotify with
    | .fetching => do
      let (info, notifyQueue) ← s.notifyQueue.deQueue
      if info.isEmpty then some { s with notifyQueue }
      else some { s with notifyQueue, thNotify := .visiting info s.manager.entries [] }
    | .visiting .. => none
  | .visit =>
    match s.thNotify with
    | .visiting info (spModule :: rest) calls =>
      let call := if info.notifies (s.manager.modules spModule) then [(spModule, info.sJobs)]
        else []
      some { s with thNotify := .visiting info rest (calls ++ call) }
    | _ => none
  | .finish =>
    match s.thNotify with
    | .visiting _ [] calls =>
      some { s with thNotify := .fetching, served := s.served ++ [⟨s.manager, calls⟩] }
    | _ => none

/-- The element that the thread works on. -/
def inHand (s : Notifier) : List ModuleNotifyInfo :=
  match s.thNotify with
  | .fetching => []
  | .visiting info _ _ => [info]

/-- What has come of each notification answers it. -/
def Reached (s : Notifier) : Prop :=
  ∀ (i : ℕ) (served : Served) (notification : Notification),
    s.served[i]? = some served → s.asked[i]? = some notification →
    served.Answers notification

/-- The notifications are named. -/
def Named (_ : Notifier) : NotifyLabel → Prop
  | .notify notification => notification.Named
  | _ => True

/-- When a notification is done, the started modules are those that it is for, and each has
one name. -/
def Addressed (s : Notifier) : NotifyLabel → Prop
  | .finish => ∀ notification, s.asked[s.served.length]? = some notification →
      ∀ spModule ∈ s.manager.entries,
        (s.manager.modules spModule).getModuleState = .start →
        notification.IsFor (s.manager.modules spModule).sModuleGroup ∧
          s.manager.entries.count spModule = 1
  | _ => True

variable {s t : Notifier} {label : NotifyLabel} {labels : List NotifyLabel}
  {manager : ModuleManager}

/-- What a step does. -/
inductive Step (s : Notifier) : NotifyLabel → Notifier → Prop
  | notify {notification : Notification} : Step s (.notify notification) { s with
      notifyQueue := s.notifyQueue.enQueue notification.element
      asked := s.asked ++ [notification] }
  | change {manager : ModuleManager} (fetching : s.thNotify = .fetching) :
      Step s (.change manager) { s with manager }
  | skip {info : ModuleNotifyInfo} {notifyQueue : EventQueue ModuleNotifyInfo}
      (fetching : s.thNotify = .fetching)
      (takes : s.notifyQueue.deQueue = some (info, notifyQueue)) (empty : info.isEmpty = true) :
      Step s .deQueue { s with notifyQueue }
  | take {info : ModuleNotifyInfo} {notifyQueue : EventQueue ModuleNotifyInfo}
      (fetching : s.thNotify = .fetching)
      (takes : s.notifyQueue.deQueue = some (info, notifyQueue)) :
      Step s .deQueue
        { s with notifyQueue, thNotify := .visiting info s.manager.entries [] }
  | visit {info : ModuleNotifyInfo} {spModule : ℕ} {rest : List ℕ} {calls : List (ℕ × XString)}
      (visiting : s.thNotify = .visiting info (spModule :: rest) calls) :
      Step s .visit { s with thNotify := .visiting info rest (calls ++
        if info.notifies (s.manager.modules spModule) then [(spModule, info.sJobs)] else []) }
  | finish {info : ModuleNotifyInfo} {calls : List (ℕ × XString)}
      (visiting : s.thNotify = .visiting info [] calls) :
      Step s .finish
        { s with thNotify := .fetching, served := s.served ++ [⟨s.manager, calls⟩] }

theorem step_cases (next : s.step label = some t) : Step s label t := by
  cases label with
  | notify notification => exact Option.some.inj next ▸ .notify
  | change manager =>
    simp only [step] at next
    split at next
    · exact Option.some.inj next ▸ .change ‹_›
    · cases next
  | deQueue =>
    simp only [step] at next
    split at next
    · obtain ⟨⟨info, notifyQueue⟩, takes, made⟩ := Option.bind_eq_some_iff.mp next
      split_ifs at made with empty
      · exact Option.some.inj made ▸ .skip ‹_› takes empty
      · exact Option.some.inj made ▸ .take ‹_› takes
    · cases next
  | visit =>
    simp only [step] at next
    split at next
    · exact Option.some.inj next ▸ .visit ‹_›
    · cases next
  | finish =>
    simp only [step] at next
    split at next
    · exact Option.some.inj next ▸ .finish ‹_›
    · cases next

/-- The calls that the visited modules have got. -/
def callsFor (s : Notifier) (info : ModuleNotifyInfo) (visited : List ℕ) : List (ℕ × XString) :=
  (visited.filter fun spModule => info.notifies (s.manager.modules spModule)).map (·, info.sJobs)

/-- What is kept in runs with named notifications. -/
structure Accounted (s : Notifier) : Prop where
  runs : s.notifyQueue.isStop = false
  named : ∀ notification ∈ s.asked, notification.sNotifyJobs ≠ ""
  served_le : s.served.length ≤ s.asked.length
  pending : s.inHand ++ s.notifyQueue.queue =
    (s.asked.drop s.served.length).map Notification.element
  visited : ∀ info rest calls, s.thNotify = .visiting info rest calls →
    ∃ visited, s.manager.entries = visited ++ rest ∧ calls = s.callsFor info visited

theorem isEmpty_element {notification : Notification} (named : notification.sNotifyJobs ≠ "") :
    notification.element.isEmpty = false := by
  cases notification <;>
    simpa [Notification.element, ModuleNotifyInfo.ofJobs, ModuleNotifyInfo.isEmpty,
      Notification.sNotifyJobs] using named

theorem callsFor_concat (info : ModuleNotifyInfo) (visited : List ℕ) (spModule : ℕ) :
    s.callsFor info (visited ++ [spModule]) = s.callsFor info visited ++
      if info.notifies (s.manager.modules spModule) then [(spModule, info.sJobs)] else [] := by
  simp only [callsFor, List.filter_append, List.map_append, List.filter_singleton]
  cases info.notifies (s.manager.modules spModule) <;> rfl

/-- The thread takes an element of a notification. -/
theorem Accounted.taken (accounted : s.Accounted) (fetching : s.thNotify = .fetching)
    {info : ModuleNotifyInfo} {notifyQueue : EventQueue ModuleNotifyInfo}
    (takes : s.notifyQueue.deQueue = some (info, notifyQueue)) :
    info :: notifyQueue.queue = (s.asked.drop s.served.length).map Notification.element ∧
      info.isEmpty = false := by
  have pending := accounted.pending
  rw [inHand, fetching, List.nil_append, EventQueue.queue_of_deQueue accounted.runs takes]
    at pending
  refine ⟨pending, ?_⟩
  have member : info ∈ (s.asked.drop s.served.length).map Notification.element := by
    rw [← pending]
    exact List.mem_cons_self
  obtain ⟨notification, asked, rfl⟩ := List.mem_map.mp member
  exact isEmpty_element (accounted.named notification (List.mem_of_mem_drop asked))

/-- The element in hand is the one of the first notification that is not done. -/
theorem Accounted.working (accounted : s.Accounted) {info : ModuleNotifyInfo} {rest : List ℕ}
    {calls : List (ℕ × XString)} (visiting : s.thNotify = .visiting info rest calls) :
    ∃ notification later, s.asked.drop s.served.length = notification :: later ∧
      notification.element = info ∧ later.map Notification.element = s.notifyQueue.queue := by
  have pending := accounted.pending
  rw [inHand, visiting] at pending
  exact List.map_eq_cons_iff.mp pending.symm

theorem Accounted.keep (accounted : s.Accounted) (named : s.Named label)
    (next : s.step label = some t) : t.Accounted := by
  cases step_cases next with
  | @notify notification =>
    refine ⟨accounted.runs, ?_, ?_, ?_, accounted.visited⟩
    · refine List.forall_mem_append.mpr ⟨accounted.named, List.forall_mem_singleton.mpr ?_⟩
      cases notification with
      | all => exact named
      | group => exact named.2
    · rw [List.length_append]
      exact Nat.le_add_right_of_le accounted.served_le
    · rw [List.drop_append_of_le_length accounted.served_le, List.map_append, ← accounted.pending,
        List.append_assoc]
      rfl
  | change fetching =>
    refine ⟨accounted.runs, accounted.named, accounted.served_le, accounted.pending, ?_⟩
    intro info rest calls visiting
    cases fetching.symm.trans visiting
  | skip fetching takes empty =>
    cases empty.symm.trans (accounted.taken fetching takes).2
  | take fetching takes =>
    refine ⟨(EventQueue.isStop_deQueue takes).trans accounted.runs, accounted.named,
      accounted.served_le, (accounted.taken fetching takes).1, ?_⟩
    rintro info rest calls ⟨⟩
    exact ⟨[], rfl, rfl⟩
  | @visit info spModule rest calls visiting =>
    have pending := accounted.pending
    rw [inHand, visiting] at pending
    refine ⟨accounted.runs, accounted.named, accounted.served_le, pending, ?_⟩
    rintro info rest calls ⟨⟩
    obtain ⟨visited, entries, rfl⟩ := accounted.visited _ _ _ visiting
    refine ⟨visited ++ [spModule], ?_, (callsFor_concat info visited spModule).symm⟩
    rw [List.append_assoc, List.singleton_append]
    exact entries
  | @finish info calls visiting =>
    obtain ⟨notification, later, asked, -, queue⟩ := accounted.working visiting
    refine ⟨accounted.runs, accounted.named, ?_, ?_, fun _ _ _ => nofun⟩
    · have fewer := congrArg List.length asked
      rw [List.length_drop, List.length_cons] at fewer
      change (s.served ++ [_]).length ≤ s.asked.length
      rw [List.length_append, List.length_singleton]
      omega
    · rw [List.length_append, List.length_singleton, ← List.drop_drop, asked]
      exact queue.symm

theorem accounted_of_run (run : Run step Named (start manager) labels s) : s.Accounted := by
  apply run.invariant
  · exact ⟨rfl, fun _ => nofun, le_rfl, rfl, fun _ _ _ => nofun⟩
  · intro s label t accounted named next
    exact accounted.keep named next

section Audience

variable {notification : Notification} {spModule : ℕ} {info : ModuleNotifyInfo}
  {visited : List ℕ}

theorem sJobs_element : notification.element.sJobs = notification.sNotifyJobs := by
  cases notification <;> rfl

/-- The thread comes to `NotifyModule` with every started module. -/
theorem notifies_element_iff {base : ModuleBase} :
    notification.element.notifies base = true ↔ base.getModuleState = .start := by
  cases notification <;>
    simp [Notification.element, ModuleNotifyInfo.ofJobs, ModuleNotifyInfo.notifies]

theorem mem_callsFor {call : ℕ × XString} :
    call ∈ s.callsFor info visited ↔
      call.1 ∈ visited ∧ info.notifies (s.manager.modules call.1) = true ∧ call.2 = info.sJobs := by
  constructor
  · intro member
    obtain ⟨m, kept, rfl⟩ := List.mem_map.mp member
    obtain ⟨entry, notified⟩ := List.mem_filter.mp kept
    exact ⟨entry, notified, rfl⟩
  · rintro ⟨entry, notified, jobs⟩
    exact List.mem_map.mpr ⟨call.1, List.mem_filter.mpr ⟨entry, notified⟩, Prod.ext rfl jobs.symm⟩

/-- A module that is notified is called once for each of its names. -/
theorem count_callsFor (notified : info.notifies (s.manager.modules spModule) = true) :
    (s.callsFor info visited).count (spModule, info.sJobs) = visited.count spModule := by
  have injective : Function.Injective fun m : ℕ => (m, info.sJobs) :=
    fun _ _ same => congrArg Prod.fst same
  rw [callsFor, List.count_map_of_injective _ _ injective]
  exact List.count_filter notified

/-- The calls that a notification leads to answer it exactly if the started modules are those
that it is for and have one name each. -/
theorem answers_iff :
    Served.Answers ⟨s.manager, s.callsFor notification.element s.manager.entries⟩ notification ↔
      ∀ spModule ∈ s.manager.entries,
        (s.manager.modules spModule).getModuleState = .start →
        notification.IsFor (s.manager.modules spModule).sModuleGroup ∧
          s.manager.entries.count spModule = 1 := by
  have count {m : ℕ} (started : (s.manager.modules m).getModuleState = .start) :
      (s.callsFor notification.element s.manager.entries).count (m, notification.sNotifyJobs) =
        s.manager.entries.count m := by
    rw [← sJobs_element]
    exact count_callsFor (notifies_element_iff.mpr started)
  constructor
  · intro answers m entry started
    have called : (m, notification.element.sJobs) ∈
        s.callsFor notification.element s.manager.entries :=
      mem_callsFor.mpr ⟨entry, notifies_element_iff.mpr started, rfl⟩
    have audience := (answers.only _ called).1
    exact ⟨audience.2.2, (count started).symm.trans (answers.once m audience)⟩
  · intro addressed
    refine ⟨fun m audience => ?_, fun call member => ?_⟩
    · exact (count audience.2.1).trans (addressed m audience.1 audience.2.1).2
    · obtain ⟨entry, notified, jobs⟩ := mem_callsFor.mp member
      have started := notifies_element_iff.mp notified
      exact ⟨⟨entry, started, (addressed _ entry started).1⟩, jobs.trans sJobs_element⟩

end Audience

/-- A notification that is not done does not matter for those that are. -/
theorem reached_iff_of_served (accounted : s.Accounted) (asked : s.asked <+: t.asked)
    (served : t.served = s.served) : t.Reached ↔ s.Reached := by
  obtain ⟨later, asked⟩ := asked
  have same (i : ℕ) (r : Served) (done : s.served[i]? = some r) : t.asked[i]? = s.asked[i]? := by
    have bound := (List.getElem?_eq_some_iff.mp done).1
    rw [← asked, List.getElem?_append_left (bound.trans_le accounted.served_le)]
  constructor
  · intro reached i r notification done called
    exact reached i r notification (served ▸ done) ((same i r done).trans called)
  · intro reached i r notification done called
    rw [served] at done
    exact reached i r notification done ((same i r done).symm.trans called)

theorem reached_iff_of_step (accounted : s.Accounted) (next : s.step label = some t) :
    t.Reached ↔ s.Reached ∧ s.Addressed label := by
  cases step_cases next with
  | notify =>
    refine (reached_iff_of_served accounted ?_ ?_).trans (and_iff_left trivial).symm
    · exact List.prefix_append _ _
    · rfl
  | change | skip | take | visit =>
    exact (reached_iff_of_served accounted List.prefix_rfl rfl).trans (and_iff_left trivial).symm
  | @finish info calls visiting =>
    obtain ⟨notification, later, asked, rfl, -⟩ := accounted.working visiting
    obtain ⟨visited, entries, rfl⟩ := accounted.visited _ _ _ visiting
    rw [List.append_nil] at entries
    obtain rfl : visited = s.manager.entries := entries.symm
    have called : s.asked[s.served.length]? = some notification := by
      rw [← List.head?_drop, asked, List.head?_cons]
    constructor
    · intro reached
      refine ⟨fun i r n done => reached i r n ?_, fun n again => ?_⟩
      · exact (List.getElem?_append_left (List.getElem?_eq_some_iff.mp done).1).trans done
      · obtain rfl := Option.some.inj (called.symm.trans again)
        exact answers_iff.mp
          (reached s.served.length _ notification List.getElem?_concat_length called)
    · rintro ⟨reached, addressed⟩ i r n done again
      rcases Nat.lt_or_ge i s.served.length with earlier | last
      · exact reached i r n ((List.getElem?_append_left earlier).symm.trans done) again
      · rw [List.getElem?_append_right last] at done
        obtain ⟨bound, rfl⟩ := List.getElem?_eq_some_iff.mp done
        obtain rfl : i = s.served.length := by
          rw [List.length_singleton] at bound
          omega
        obtain rfl := Option.some.inj (called.symm.trans again)
        rw [List.getElem_singleton]
        exact answers_iff.mpr (addressed notification called)

/-- Every notification that is done was answered exactly if whenever one is done the started
modules are those that it is for, with one name each. No notification is left out, and they
are done in the order in which they were called. -/
theorem reached_iff_addressed (run : Run step Named (start manager) labels s) :
    s.served.length + s.inHand.length + s.notifyQueue.queue.length = s.asked.length ∧
      (s.Reached ↔ Run step Addressed (start manager) labels s) := by
  have accounted := accounted_of_run run
  constructor
  · have pending := congrArg List.length accounted.pending
    rw [List.length_append, List.length_map, List.length_drop] at pending
    have := accounted.served_le
    omega
  · refine run.good_iff_of_held (fun _ _ _ => nofun) ?_
    intro labels s label t earlier _ next
    exact reached_iff_of_step (accounted_of_run earlier) next

instance (s : Notifier) : DecidablePred s.Named
  | .notify (.all sNotifyJobs) => inferInstanceAs (Decidable (sNotifyJobs ≠ ""))
  | .notify (.group sGroup sNotifyJobs) =>
    inferInstanceAs (Decidable (sGroup ≠ "" ∧ sNotifyJobs ≠ ""))
  | .change _ | .deQueue | .visit | .finish => .isTrue trivial

/-- Two started modules, each of a group of its own. -/
def twoGroups : ModuleManager where
  mapModuleNameToModule := (AList.insert "mail" ⟨1, 1⟩ ∅).insert "window" ⟨2, 2⟩
  modules spModule :=
    { sModuleGroup := if spModule = 1 then "net" else "ui", eState := .start }

/-- A notification of all modules, and then one of a group. -/
def twoNotifications : List NotifyLabel :=
  [.notify (.all "flush"), .deQueue, .visit, .notify (.group "net" "close"), .visit, .finish,
    .deQueue, .visit, .visit, .finish]

/-- Two notifications are done. -/
theorem reached_iff_addressed_of_two : ∃ s : Notifier, s.served.length = 2 ∧
    s.served.length + s.inHand.length + s.notifyQueue.queue.length = s.asked.length ∧
    (s.Reached ↔ Run step Addressed (start twoGroups) twoNotifications s) := by
  obtain ⟨s, run, ended⟩ := @exists_run_of_guarded _ _ step Named
    (fun s label => s.Named label) (fun _ _ => of_decide_eq_true) (start twoGroups)
    twoNotifications (fun s => s.served.length = 2) (by decide)
  exact ⟨s, of_decide_eq_true ended, reached_iff_addressed run⟩

/-- The second of them reaches the module of another group. -/
theorem not_reached_of_group :
    ∃ s : Notifier, Run step Named (start twoGroups) twoNotifications s ∧ ¬ s.Reached := by
  obtain ⟨s, run, ended⟩ := @exists_run_of_guarded _ _ step Named
    (fun s label => s.Named label) (fun _ _ => of_decide_eq_true) (start twoGroups)
    twoNotifications
    (fun s => s.served[1]?.any (fun served => (2, "close") ∈ served.calls ∧
      (served.manager.modules 2).sModuleGroup = "ui") ∧
      s.asked[1]? = some (.group "net" "close")) (by decide)
  obtain ⟨found, asked⟩ := of_decide_eq_true ended
  obtain ⟨served, done, called⟩ := (Option.any_eq_true _ _).mp found
  obtain ⟨member, window⟩ := of_decide_eq_true called
  refine ⟨s, run, fun reached => ?_⟩
  have meant : (served.manager.modules 2).sModuleGroup = "net" :=
    ((reached 1 served _ done asked).only _ member).1.2.2
  rw [window] at meant
  cases of_decide_eq_false rfl meant

end Notifier

end ExLibs.Module
