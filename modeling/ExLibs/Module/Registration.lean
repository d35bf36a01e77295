/-
# Registrations side by side

`RegisterModule` looks a name up in one section of `_lckModule` and inserts the module in
another, where it also calls `ModuleInit`, whose result it returns. Between the two sections
the name may have been taken, and a module that does not initialize stays registered. A module
that is inserted under its name again may take another group; and if it comes as a raw pointer,
the pointer that it replaces is of another control block, and may take the module with it.
-/
import ExLibs.Module.Manager

namespace ExLibs.Module

open ExLibs.Math ExLibs.Network

/-- The module of a call, as the two overloads of `RegisterModule` take it. -/
inductive ModuleArgument
  | raw (cModule : ℕ)
  | shared (spModule : SpModuleBase)
  deriving DecidableEq

namespace ModuleArgument

def get : ModuleArgument → ℕ
  | .raw cModule => cModule
  | .shared spModule => spModule.get

/-- The pointer that is inserted, given the next new control block. -/
def pointer (owner : ℕ) : ModuleArgument → SpModuleBase
  | .raw cModule => ⟨cModule, owner⟩
  | .shared spModule => spModule

end ModuleArgument

/-- Where a thread is in `RegisterModule`. -/
inductive RegisterPc
  | outside
  /-- It looks the name up next. -/
  | checking (sModuleName sModuleGroup : XString) (argument : ModuleArgument)
  /-- It inserts the module next. -/
  | inserting (sModuleName sModuleGroup : XString) (spModule : SpModuleBase)
  deriving DecidableEq

/-- A call that has returned, with the registry before and after its last section. -/
structure Returned where
  sModuleName : XString
  cModule : ℕ
  isSuccess : Bool
  before : XString → Option ModuleEntry
  after : XString → Option ModuleEntry

/-- The module of the call is registered under its name, and has not been deleted. -/
def Returned.Kept (r : Returned) (manager : ModuleManager) : Prop :=
  ∃ entry ∈ manager.entry r.sModuleName,
    entry.spModule.get = r.cModule ∧ entry.isDeleted = false

/-- What is kept can be seen in the registry. -/
theorem Returned.Kept.of_same {r : Returned} {manager manager' : ModuleManager}
    (kept : r.Kept manager) (same : manager'.entry = manager.entry) : r.Kept manager' := by
  unfold Returned.Kept
  rwa [same]

/-- A manager and the threads that register modules. `owners` is beyond every control block so
far, and `returned` is a record. -/
structure Registrations where
  manager : ModuleManager
  pc : ℕ → RegisterPc
  owners : ℕ
  returned : List Returned

/-- A step of a thread: a call or one of its two sections. The first comes with whether a pointer
that the call gives up was the `last` one, the second also with what the hook of `ModuleInit`
returns. -/
inductive RegisterLabel
  | call (a : ℕ) (sModuleName sModuleGroup : XString) (argument : ModuleArgument)
  | check (a : ℕ) (last : Bool)
  | insert (a : ℕ) (succeeds last : Bool)

namespace Registrations

/-- A manager whose threads are elsewhere. -/
def start (manager : ModuleManager) : Registrations where
  manager
  pc _ := .outside
  owners := (manager.owners.map Nat.succ).foldr max 0
  returned := []

/-- A thread moves on. -/
def goto (s : Registrations) (a : ℕ) (pc : RegisterPc) : Registrations :=
  { s with pc := Function.update s.pc a pc }

/-- One step, if the label is enabled. -/
def step (s : Registrations) : RegisterLabel → Option Registrations
  | .call a sModuleName sModuleGroup argument =>
    match s.pc a with
    | .outside => some { s.goto a (.checking sModuleName sModuleGroup argument) with
        owners := max s.owners ((argument.pointer 0).owner + 1) }
    | _ => none
  | .check a last =>
    match s.pc a with
    | .checking sModuleName sModuleGroup argument =>
      if s.manager.isExistModule sModuleName then
        let manager := match argument with
          -- no shared pointer has been made
          | .raw _ => s.manager
          | .shared spModule => s.manager.release spModule last
        some { s.goto a .outside with manager, returned := s.returned ++
          [⟨sModuleName, argument.get, false, s.manager.entry, manager.entry⟩] }
      else some { s.goto a (.inserting sModuleName sModuleGroup (argument.pointer s.owners)) with
        owners := s.owners + 1 }
    | _ => none
  | .insert a succeeds last =>
    match s.pc a with
    | .inserting sModuleName sModuleGroup spModule =>
      let (isSuccess, manager) :=
        s.manager.insertModule sModuleName sModuleGroup spModule succeeds last
      some { s.goto a .outside with manager, returned := s.returned ++
        [⟨sModuleName, spModule.get, isSuccess, s.manager.entry, manager.entry⟩] }
    | _ => none

/-- At most one call for a name has returned `true`, the modules of those that have are
registered and not deleted, and the others have not changed the registry. -/
structure Atomic (s : Registrations) : Prop where
  once : s.returned.Pairwise fun r r' =>
    r.isSuccess = true → r'.isSuccess = true → r.sModuleName ≠ r'.sModuleName
  kept : ∀ r ∈ s.returned, r.isSuccess = true → r.Kept s.manager
  unchanged : ∀ r ∈ s.returned, r.isSuccess = false → r.after = r.before

/-- A module that is inserted initializes, has not been deleted and its name is not taken; or it
does not initialize, and the very pointer stands under the name already, with the same group. A
pointer that is given up because the name is taken does not take a registered module with it. -/
def Decided (s : Registrations) : RegisterLabel → Prop
  | .call .. => True
  | .check a last => ∀ sModuleName sModuleGroup spModule,
      s.pc a = .checking sModuleName sModuleGroup (.shared spModule) →
      s.manager.registered sModuleName ≠ none → s.manager.Frees spModule last →
      s.manager.deleted spModule.get = false → spModule.get ∉ s.manager.entries
  | .insert a succeeds _ => ∀ sModuleName sModuleGroup spModule,
      s.pc a = .inserting sModuleName sModuleGroup spModule →
      if (s.manager.modules spModule.get).admits .moduleInit && succeeds then
        s.manager.registered sModuleName = none ∧ s.manager.deleted spModule.get = false
      else s.manager.entry sModuleName =
        some ⟨spModule, sModuleName, sModuleGroup, s.manager.deleted spModule.get⟩

variable {s t : Registrations} {label : RegisterLabel} {labels : List RegisterLabel}
  {manager : ModuleManager}

/-- What a step does. -/
inductive Step (s : Registrations) : RegisterLabel → Registrations → Prop
  | call {a owners : ℕ} {sModuleName sModuleGroup : XString} {argument : ModuleArgument} :
      Step s (.call a sModuleName sModuleGroup argument)
        { s.goto a (.checking sModuleName sModuleGroup argument) with owners }
  | refused {a cModule : ℕ} {last : Bool} {sModuleName sModuleGroup : XString}
      (checking : s.pc a = .checking sModuleName sModuleGroup (.raw cModule)) :
      Step s (.check a last) { s.goto a .outside with returned := s.returned ++
        [⟨sModuleName, cModule, false, s.manager.entry, s.manager.entry⟩] }
  | taken {a : ℕ} {last : Bool} {sModuleName sModuleGroup : XString} {spModule : SpModuleBase}
      (checking : s.pc a = .checking sModuleName sModuleGroup (.shared spModule))
      (present : s.manager.registered sModuleName ≠ none) :
      Step s (.check a last) { s.goto a .outside with
        manager := s.manager.release spModule last
        returned := s.returned ++ [⟨sModuleName, spModule.get, false, s.manager.entry,
          (s.manager.release spModule last).entry⟩] }
  | free {a owners : ℕ} {last : Bool} {sModuleName sModuleGroup : XString}
      {argument : ModuleArgument} {spModule : SpModuleBase}
      (checking : s.pc a = .checking sModuleName sModuleGroup argument)
      (absent : s.manager.registered sModuleName = none) :
      Step s (.check a last)
        { s.goto a (.inserting sModuleName sModuleGroup spModule) with owners }
  | insert {a : ℕ} {sModuleName sModuleGroup : XString} {spModule : SpModuleBase}
      {succeeds last : Bool} {next : ModuleManager}
      (inserting : s.pc a = .inserting sModuleName sModuleGroup spModule)
      (inserted : (s.manager.insertModule sModuleName sModuleGroup spModule succeeds last).2 =
        next) :
      Step s (.insert a succeeds last) { s.goto a .outside with
        manager := next
        returned := s.returned ++ [⟨sModuleName, spModule.get,
          (s.manager.modules spModule.get).admits .moduleInit && succeeds,
          s.manager.entry, next.entry⟩] }

theorem step_cases (next : s.step label = some t) : Step s label t := by
  cases label with
  | call a sModuleName sModuleGroup argument =>
    simp only [step] at next
    split at next
    · exact Option.some.inj next ▸ .call
    · cases next
  | check a last =>
    simp only [step] at next
    split at next
    · rename_i sModuleName sModuleGroup argument checking
      split_ifs at next with exists_
      · obtain rfl := Option.some.inj next
        cases argument with
        | raw cModule => exact .refused checking
        | shared spModule => exact .taken checking (ModuleManager.isExistModule_iff.mp exists_)
      · refine Option.some.inj next ▸ .free checking ?_
        by_contra present
        exact exists_ (ModuleManager.isExistModule_iff.mpr present)
    · cases next
  | insert a succeeds last =>
    simp only [step] at next
    split at next
    · rename_i sModuleName sModuleGroup spModule inserting
      obtain rfl := Option.some.inj next
      rw [ModuleManager.insertModule_isSuccess]
      exact .insert inserting rfl
    · cases next

/-- A name that is taken while its module waits to be inserted was taken by a call that has
returned `true`, or `false` and changed the registry. -/
def Witnessed (s : Registrations) : Prop :=
  ∀ a sModuleName sModuleGroup spModule, s.pc a = .inserting sModuleName sModuleGroup spModule →
    s.manager.registered sModuleName ≠ none →
    ∃ r ∈ s.returned, r.sModuleName = sModuleName ∧ (r.isSuccess = true ∨ r.after ≠ r.before)

theorem Witnessed.keep (witnessed : s.Witnessed) (next : s.step label = some t) :
    t.Witnessed := by
  -- a thread that is inserting has been, but for the one that has just found its name free
  have elsewhere {a b : ℕ} {pc : RegisterPc} {name group : XString} {spModule : SpModuleBase}
      (inserting : Function.update s.pc a pc b = .inserting name group spModule)
      (other : pc ≠ .inserting name group spModule) :
      s.pc b = .inserting name group spModule := by
    rcases moved_eq_iff.mp inserting with ⟨-, now⟩ | ⟨-, before⟩
    · exact absurd now other
    · exact before
  cases step_cases next with
  | call =>
    intro b name group spModule inserting taken
    exact witnessed b name group spModule (elsewhere inserting nofun) taken
  | refused =>
    intro b name group spModule inserting taken
    obtain ⟨r, member, about⟩ :=
      witnessed b name group spModule (elsewhere inserting nofun) taken
    exact ⟨r, List.mem_append_left _ member, about⟩
  | taken =>
    intro b name group spModule inserting taken
    rw [ModuleManager.registered_release] at taken
    obtain ⟨r, member, about⟩ :=
      witnessed b name group spModule (elsewhere inserting nofun) taken
    exact ⟨r, List.mem_append_left _ member, about⟩
  | @free a _ _ name' group' _ spModule' _ absent =>
    intro b name group spModule inserting taken
    by_cases own : RegisterPc.inserting name' group' spModule' = .inserting name group spModule
    · obtain ⟨rfl, -, -⟩ := RegisterPc.inserting.inj own
      exact absurd absent taken
    · exact witnessed b name group spModule (elsewhere inserting own) taken
  | @insert a name' group' spModule' succeeds last manager' inserts inserted =>
    intro b name group spModule inserting taken
    by_cases before : s.manager.registered name = none
    · -- the name is the one that is being inserted
      have own : name = name' := by
        by_contra distinct
        rw [← inserted, ModuleManager.registered_insertModule,
          Function.update_of_ne distinct] at taken
        exact taken before
      refine ⟨_, List.mem_append_right _ (List.mem_singleton_self _), own.symm, .inr ?_⟩
      intro same
      have found : manager'.entry name' = s.manager.entry name' := congrFun same name'
      rw [← inserted, ModuleManager.entry_insertModule, ModuleManager.entry, ← own,
        before] at found
      cases found
    · obtain ⟨r, member, about⟩ :=
        witnessed b name group spModule (elsewhere inserting nofun) before
      exact ⟨r, List.mem_append_left _ member, about⟩

theorem witnessed_of_run {allowed : Registrations → RegisterLabel → Prop}
    (run : Run step allowed (start manager) labels s) : s.Witnessed := by
  apply run.invariant
  · intro a name group spModule inserting
    cases inserting
  · intro s label t witnessed _ next
    exact witnessed.keep next

section Records

variable {r : Returned} {name group : XString} {a : ℕ}

theorem kept_iff : r.Kept manager ↔
    (manager.registered r.sModuleName).map SpModuleBase.get = some r.cModule ∧
      manager.deleted r.cModule = false := by
  unfold Returned.Kept ModuleManager.entry
  cases manager.registered r.sModuleName with
  | none => simp
  | some spModule =>
    simp only [Option.map_some, Option.mem_some_iff, exists_eq_left', Option.some.injEq]
    refine and_congr_right fun same => ?_
    rw [same]

/-- Whether registrations are atomic is about what is registered and what has returned. -/
theorem Atomic.of_same (atomic : s.Atomic) (manager : t.manager = s.manager)
    (returned : t.returned = s.returned) : t.Atomic := by
  obtain ⟨once, kept, unchanged⟩ := atomic
  rw [← returned] at once kept unchanged
  rw [← manager] at kept
  exact ⟨once, kept, unchanged⟩

theorem Atomic.earlier (atomic : t.Atomic) (returned : t.returned = s.returned ++ [r])
    (kept : ∀ r ∈ s.returned, r.isSuccess = true → r.Kept t.manager → r.Kept s.manager) :
    s.Atomic := by
  have before : s.returned ⊆ t.returned := by
    rw [returned]
    exact List.subset_append_left _ _
  have once := atomic.once
  rw [returned] at once
  exact ⟨(List.pairwise_append.mp once).1,
    fun r member succeeds => kept r member succeeds (atomic.kept r (before member) succeeds),
    fun r member => atomic.unchanged r (before member)⟩

/-- A call that fails without a change leaves the registrations atomic. -/
theorem Atomic.of_failed (atomic : s.Atomic) (failed : r.isSuccess = false)
    (unchanged : r.after = r.before) (same : t.manager.entry = s.manager.entry)
    (returned : t.returned = s.returned ++ [r]) : t.Atomic := by
  refine ⟨?_, ?_, ?_⟩
  · rw [returned]
    refine List.pairwise_append.mpr ⟨atomic.once, List.pairwise_singleton .., ?_⟩
    intro r' _ last member _ succeeds
    obtain rfl := List.mem_singleton.mp member
    cases failed.symm.trans succeeds
  · rw [returned, List.forall_mem_append]
    refine ⟨fun r member succeeds => (atomic.kept r member succeeds).of_same same,
      List.forall_mem_singleton.mpr fun succeeds => ?_⟩
    cases failed.symm.trans succeeds
  · rw [returned, List.forall_mem_append]
    exact ⟨atomic.unchanged, List.forall_mem_singleton.mpr fun _ => unchanged⟩

/-- A call that registers its module under a free name leaves the registrations atomic. -/
theorem Atomic.of_registered (atomic : s.Atomic) (succeeds : r.isSuccess = true)
    (free : s.manager.registered r.sModuleName = none)
    (kept : ∀ r' : Returned, r'.sModuleName ≠ r.sModuleName → r'.Kept s.manager → r'.Kept t.manager)
    (last : r.Kept t.manager) (returned : t.returned = s.returned ++ [r]) : t.Atomic := by
  have distinct : ∀ r' ∈ s.returned, r'.isSuccess = true → r'.sModuleName ≠ r.sModuleName := by
    intro r' member succeeds' same
    have taken := (kept_iff.mp (atomic.kept r' member succeeds')).1
    rw [same, free] at taken
    cases taken
  refine ⟨?_, ?_, ?_⟩
  · rw [returned]
    refine List.pairwise_append.mpr ⟨atomic.once, List.pairwise_singleton .., ?_⟩
    intro r' earlier last member succeeds' _
    obtain rfl := List.mem_singleton.mp member
    exact distinct r' earlier succeeds'
  · rw [returned, List.forall_mem_append]
    refine ⟨fun r' member succeeds' => ?_, List.forall_mem_singleton.mpr fun _ => last⟩
    exact kept r' (distinct r' member succeeds') (atomic.kept r' member succeeds')
  · rw [returned, List.forall_mem_append]
    refine ⟨atomic.unchanged, List.forall_mem_singleton.mpr fun failed => ?_⟩
    cases succeeds.symm.trans failed

/-- If registrations are atomic after a call that returns `true`, its name was not taken. -/
theorem free_of_atomic (witnessed : s.Witnessed) {spModule : SpModuleBase}
    (inserting : s.pc a = .inserting r.sModuleName group spModule) (succeeds : r.isSuccess = true)
    (returned : t.returned = s.returned ++ [r]) (atomic : t.Atomic) :
    s.manager.registered r.sModuleName = none := by
  have once := atomic.once
  rw [returned, List.pairwise_append] at once
  have distinct (r' : Returned) (member : r' ∈ s.returned) (succeeds' : r'.isSuccess = true) :
      r'.sModuleName ≠ r.sModuleName :=
    once.2.2 r' member r (List.mem_singleton_self r) succeeds' succeeds
  by_contra taken
  obtain ⟨r', member, same, changed⟩ :=
    witnessed a r.sModuleName group spModule inserting taken
  have failed : r'.isSuccess = false :=
    Bool.eq_false_iff.mpr fun succeeds' => distinct r' member succeeds' same
  have present : r' ∈ t.returned := by
    rw [returned]
    exact List.mem_append_left _ member
  rcases changed with succeeds' | changed
  · exact distinct r' member succeeds' same
  · exact changed (atomic.unchanged r' present failed)

end Records

section Insertion

variable {a : ℕ} {name group : XString} {spModule : SpModuleBase} {succeeds last : Bool}
  {after : ModuleManager}

/-- The call that an insertion ends. -/
def inserted (s : Registrations) (name : XString) (spModule : SpModuleBase) (isSuccess : Bool)
    (after : ModuleManager) : Returned :=
  ⟨name, spModule.get, isSuccess, s.manager.entry, after.entry⟩

/-- A module that initializes leaves the registrations atomic exactly if its name is free and it
has not been deleted. -/
theorem atomic_registered_iff (witnessed : s.Witnessed)
    (inserting : s.pc a = .inserting name group spModule)
    (inserts : (s.manager.insertModule name group spModule succeeds last).2 = t.manager)
    (returned : t.returned = s.returned ++ [s.inserted name spModule true t.manager]) :
    t.Atomic ↔ s.Atomic ∧
      s.manager.registered name = none ∧ s.manager.deleted spModule.get = false := by
  -- a name that is free gives no pointer up
  have same (free : s.manager.registered name = none) :
      t.manager.deleted = s.manager.deleted := by
    rw [← inserts]
    refine ModuleManager.deleted_insertModule fun replaced found => ?_
    cases free.symm.trans found
  have registers : t.manager.registered =
      Function.update s.manager.registered name (some spModule) :=
    inserts ▸ ModuleManager.registered_insertModule
  have elsewhere (free : s.manager.registered name = none) (r : Returned)
      (distinct : r.sModuleName ≠ name) : r.Kept t.manager ↔ r.Kept s.manager := by
    rw [kept_iff, kept_iff, registers, Function.update_of_ne distinct, same free]
  have own : (s.inserted name spModule true t.manager).Kept t.manager ↔
      t.manager.deleted spModule.get = false := by
    rw [kept_iff, inserted, registers, Function.update_self]
    exact and_iff_right rfl
  have last : s.inserted name spModule true t.manager ∈ t.returned := by
    rw [returned]
    exact List.mem_concat_self
  constructor
  · intro atomic
    have free := free_of_atomic (r := s.inserted name spModule true t.manager) witnessed
      inserting rfl returned atomic
    refine ⟨atomic.earlier returned fun r member succeeds' kept => ?_, free, ?_⟩
    · have once := atomic.once
      rw [returned, List.pairwise_append] at once
      have distinct := once.2.2 r member _ (List.mem_singleton_self _) succeeds' rfl
      exact (elsewhere free r distinct).mp kept
    · exact same free ▸ own.mp (atomic.kept _ last rfl)
  · rintro ⟨atomic, free, alive⟩
    exact atomic.of_registered rfl free (fun r distinct => (elsewhere free r distinct).mpr)
      (own.mpr (same free ▸ alive)) returned

/-- A module that does not initialize leaves the registrations atomic exactly if it stands there
already as it is inserted. -/
theorem atomic_failed_iff
    (inserts : (s.manager.insertModule name group spModule succeeds last).2 = t.manager)
    (returned : t.returned = s.returned ++ [s.inserted name spModule false t.manager]) :
    t.Atomic ↔ s.Atomic ∧ s.manager.entry name =
      some ⟨spModule, name, group, s.manager.deleted spModule.get⟩ := by
  constructor
  · intro atomic
    have last : s.inserted name spModule false t.manager ∈ t.returned := by
      rw [returned]
      exact List.mem_concat_self
    have same : t.manager.entry = s.manager.entry := atomic.unchanged _ last rfl
    refine ⟨atomic.earlier returned fun r _ _ kept => kept.of_same same.symm, ?_⟩
    have found := congrFun same name
    rw [← inserts, ModuleManager.entry_insertModule] at found
    obtain ⟨registered, named, grouped, -⟩ := ModuleManager.entry_eq_some_iff.mp found.symm
    exact ModuleManager.entry_eq_some_iff.mpr ⟨registered, named, grouped, rfl⟩
  · rintro ⟨atomic, present⟩
    have same : t.manager.entry = s.manager.entry :=
      inserts ▸ ModuleManager.entry_insertModule_of_present present
    exact atomic.of_failed rfl same same returned

end Insertion

theorem atomic_iff_of_step (witnessed : s.Witnessed) (next : s.step label = some t) :
    t.Atomic ↔ s.Atomic ∧ s.Decided label := by
  cases step_cases next with
  | call =>
    exact ⟨fun atomic => ⟨atomic.of_same rfl rfl, trivial⟩, fun atomic => atomic.1.of_same rfl rfl⟩
  | refused checking =>
    constructor
    · intro atomic
      refine ⟨atomic.earlier (s := s) rfl fun _ _ _ kept => kept, ?_⟩
      intro name group spModule again
      cases checking.symm.trans again
    · intro atomic
      exact atomic.1.of_failed rfl rfl rfl rfl
  | free checking absent =>
    constructor
    · intro atomic
      refine ⟨atomic.of_same rfl rfl, ?_⟩
      intro name group spModule again taken
      cases checking.symm.trans again
      exact absurd absent taken
    · intro atomic
      exact atomic.1.of_same rfl rfl
  | @taken a last name group spModule checking present =>
    constructor
    · intro atomic
      have same : (s.manager.release spModule last).entry = s.manager.entry :=
        atomic.unchanged _ List.mem_concat_self rfl
      refine ⟨atomic.earlier (s := s) rfl fun r _ _ kept => kept.of_same same.symm, ?_⟩
      intro name' group' spModule' again _
      cases checking.symm.trans again
      exact ModuleManager.entry_release_iff.mp same
    · rintro ⟨atomic, decided⟩
      have same := ModuleManager.entry_release_iff.mpr
        (decided name group spModule checking present)
      exact atomic.of_failed rfl same same rfl
  | @insert a name group spModule succeeds last manager inserting inserted =>
    have decided : s.Decided (.insert a succeeds last) ↔
        if (s.manager.modules spModule.get).admits .moduleInit && succeeds then
          s.manager.registered name = none ∧ s.manager.deleted spModule.get = false
        else s.manager.entry name =
          some ⟨spModule, name, group, s.manager.deleted spModule.get⟩ := by
      constructor
      · intro decided
        exact decided name group spModule inserting
      · intro decided name' group' spModule' again
        cases inserting.symm.trans again
        exact decided
    rw [decided]
    split
    · rename_i initializes
      exact atomic_registered_iff (s := s) witnessed inserting inserted
        (by rw [initializes]; rfl)
    · rename_i fails
      exact atomic_failed_iff (s := s) inserted
        (by rw [Bool.eq_false_iff.mpr fails]; rfl)

/-- Registrations are atomic exactly if every insertion either initializes a module whose name
is not taken or fails for a pointer that stands under its name already, and no call whose name is
taken deletes a registered module. -/
theorem atomic_iff_decided (run : Run step Free (start manager) labels s) :
    s.Atomic ↔ Run step Decided (start manager) labels s := by
  refine run.good_iff ⟨List.Pairwise.nil, fun _ => nofun, fun _ => nofun⟩ ?_
  intro labels s label t earlier next
  exact atomic_iff_of_step (witnessed_of_run earlier) next

instance (s : Registrations) : DecidablePred s.Decided
  | .call .. => .isTrue trivial
  | .check a last => decidable_of_iff
      ((match s.pc a with
        | .checking sModuleName _ (.shared spModule) => decide
            (s.manager.registered sModuleName ≠ none → s.manager.Frees spModule last →
              s.manager.deleted spModule.get = false → spModule.get ∉ s.manager.entries)
        | _ => true) = true) (by
        cases at_ : s.pc a with
        | checking name group argument =>
          cases argument with
          | raw cModule => simp [Decided, at_]
          | shared spModule =>
            rw [decide_eq_true_iff]
            constructor
            · intro spared name' group' spModule' again
              cases at_.symm.trans again
              exact spared
            · intro decided
              exact decided name group spModule at_
        | _ => simp [Decided, at_])
  | .insert a succeeds _ => decidable_of_iff
      ((match s.pc a with
        | .inserting sModuleName sModuleGroup spModule => decide
            (if (s.manager.modules spModule.get).admits .moduleInit && succeeds then
              s.manager.registered sModuleName = none ∧ s.manager.deleted spModule.get = false
            else s.manager.entry sModuleName =
              some ⟨spModule, sModuleName, sModuleGroup, s.manager.deleted spModule.get⟩)
        | _ => true) = true) (by
        cases at_ : s.pc a <;> simp [Decided, at_])

/-- No module is registered, and all are new. -/
def emptyManager : ModuleManager where
  mapModuleNameToModule := ∅
  modules _ := {}

/-- One module is registered, and a second one is turned down under the same name. -/
theorem atomic_iff_decided_of_two : ∃ s : Registrations,
    s.returned.map Returned.isSuccess = [true, false] ∧ s.Atomic := by
  obtain ⟨s, run, ended⟩ := @exists_run_of_guarded _ _ step Decided
    (fun s label => s.Decided label) (fun _ _ => of_decide_eq_true) (start emptyManager)
    [.call 0 "mail" "net" (.raw 1), .check 0 false, .insert 0 true false,
      .call 1 "mail" "net" (.raw 2), .check 1 false]
    (fun s => s.returned.map Returned.isSuccess = [true, false]) (by decide)
  exact ⟨s, of_decide_eq_true ended, (atomic_iff_decided run.free).mpr run⟩

/-- Two calls that have both found a name free both return `true`. A call whose module does not
initialize leaves it registered. And of two calls with one raw pointer, the second deletes the
module as it replaces the pointer of the first. -/
theorem not_atomic_of_race :
    (∃ s : Registrations, Run step Free (start emptyManager)
      [.call 0 "mail" "net" (.raw 1), .call 1 "mail" "net" (.raw 2), .check 0 false,
        .check 1 false, .insert 0 true false, .insert 1 true true] s ∧ ¬ s.Atomic) ∧
    (∃ s : Registrations, Run step Free (start emptyManager)
      [.call 0 "mail" "net" (.raw 1), .check 0 false, .insert 0 false false] s ∧ ¬ s.Atomic) ∧
    ∃ s : Registrations, Run step Free (start emptyManager)
      [.call 0 "mail" "net" (.raw 1), .call 1 "mail" "net" (.raw 1), .check 0 false,
        .check 1 false, .insert 0 true false, .insert 1 true true] s ∧ ¬ s.Atomic := by
  refine ⟨?race, ?failure, ?deletion⟩
  case race =>
    obtain ⟨s, run, ended⟩ := @exists_run_of_exec _ _ step (start emptyManager)
      [.call 0 "mail" "net" (.raw 1), .call 1 "mail" "net" (.raw 2), .check 0 false,
        .check 1 false, .insert 0 true false, .insert 1 true true]
      (fun s => s.returned.map (fun r => (r.sModuleName, r.isSuccess)) =
        [("mail", true), ("mail", true)]) (by decide)
    refine ⟨s, run, fun atomic => ?_⟩
    have once := (List.pairwise_map (f := fun r : Returned => (r.sModuleName, r.isSuccess))
      (R := fun x y => x.2 = true → y.2 = true → x.1 ≠ y.1)).mpr atomic.once
    rw [of_decide_eq_true ended, List.pairwise_pair] at once
    exact once rfl rfl rfl
  case failure =>
    obtain ⟨s, run, ended⟩ := @exists_run_of_exec _ _ step (start emptyManager)
      [.call 0 "mail" "net" (.raw 1), .check 0 false, .insert 0 false false]
      (fun s => s.returned.any fun r =>
        !r.isSuccess && r.before "mail" = none && (r.after "mail").isSome) (by decide)
    refine ⟨s, run, fun atomic => ?_⟩
    obtain ⟨r, member, changed⟩ := List.any_eq_true.mp ended
    simp only [Bool.and_eq_true, Bool.not_eq_true', decide_eq_true_eq] at changed
    have same := congrFun (atomic.unchanged r member changed.1.1) "mail"
    rw [changed.1.2] at same
    cases (same ▸ changed.2 : (none : Option ModuleEntry).isSome = true)
  case deletion =>
    obtain ⟨s, run, ended⟩ := @exists_run_of_exec _ _ step (start emptyManager)
      [.call 0 "mail" "net" (.raw 1), .call 1 "mail" "net" (.raw 1), .check 0 false,
        .check 1 false, .insert 0 true false, .insert 1 true true]
      (fun s => s.manager.deleted 1 && s.returned.any fun r =>
        r.isSuccess && r.cModule = 1) (by decide)
    refine ⟨s, run, fun atomic => ?_⟩
    obtain ⟨gone, found⟩ := (Bool.and_eq_true ..).mp ended
    obtain ⟨r, member, about⟩ := List.any_eq_true.mp found
    simp only [Bool.and_eq_true, decide_eq_true_eq] at about
    have alive := (kept_iff.mp (atomic.kept r member about.1)).2
    rw [about.2, gone] at alive
    cases alive

end Registrations

end ExLibs.Module
