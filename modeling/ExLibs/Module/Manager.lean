/-
# The registry of a module manager

`cModuleManager` maps names to shared pointers to modules. A module is known by its address, so
that one module may stand under two names; and it may be owned twice, as the overload of
`RegisterModule` for raw pointers makes a new control block at every call. The sections of
`RegisterModule` and `UnRegisterModule` that hold `_lckModule` are functions here; who runs
them, and when, is for the machines over them.
-/
import Mathlib.Data.List.AList
import ExLibs.Module.Base

namespace ExLibs.Module

open ExLibs.Network

/-- `spModuleBase`: a module, and the control block that counts the pointers owning it. -/
structure SpModuleBase where
  get : ℕ
  owner : ℕ
  deriving DecidableEq

/-- `mapNameToModule`. -/
abbrev MapNameToModule := AList fun _ : XString => SpModuleBase

/-- `cModuleManager`, with the modules that there are. `deleted` are those that the last pointer
of a control block has taken with it. -/
structure ModuleManager where
  mapModuleNameToModule : MapNameToModule
  modules : ℕ → ModuleBase
  deleted : ℕ → Bool := fun _ => false

/-- What is registered under a name: the pointer, the name and the group of its module, and
whether that is gone. -/
structure ModuleEntry where
  spModule : SpModuleBase
  sModuleName : XString
  sModuleGroup : XString
  isDeleted : Bool
  deriving DecidableEq

namespace ModuleManager

/-- The pointer that a name stands for. -/
def registered (s : ModuleManager) (sModuleName : XString) : Option SpModuleBase :=
  s.mapModuleNameToModule.lookup sModuleName

/-- What can be learnt of a name from the registry. -/
def entry (s : ModuleManager) (sModuleName : XString) : Option ModuleEntry :=
  (s.registered sModuleName).map fun spModule =>
    ⟨spModule, (s.modules spModule.get).sModuleName, (s.modules spModule.get).sModuleGroup,
      s.deleted spModule.get⟩

/-- The registered modules, each as often as it has names. -/
def entries (s : ModuleManager) : List ℕ :=
  s.mapModuleNameToModule.entries.map fun element => element.2.get

/-- The control blocks of the registered pointers. -/
def owners (s : ModuleManager) : List ℕ :=
  s.mapModuleNameToModule.entries.map fun element => element.2.owner

def isExistModule (s : ModuleManager) (sModuleName : XString) : Bool :=
  sModuleName ∈ s.mapModuleNameToModule

/-- A module changes. -/
def setModule (s : ModuleManager) (spModule : ℕ) (base : ModuleBase) : ModuleManager :=
  { s with modules := Function.update s.modules spModule base }

/-- A pointer is given up, the `last` one outside the registry or not. The module is deleted if
none is left in the registry either. -/
def release (s : ModuleManager) (spModule : SpModuleBase) (last : Bool) : ModuleManager :=
  if last = true ∧ spModule.owner ∉ s.owners then
    { s with deleted := Function.update s.deleted spModule.get true }
  else s

/-- `insertModule`, given what the hook of `ModuleInit` returns and whether the pointer that it
replaces is the `last` one. -/
def insertModule (s : ModuleManager) (sModuleName sModuleGroup : XString)
    (spModule : SpModuleBase) (succeeds last : Bool) : Bool × ModuleManager :=
  let replaced := s.registered sModuleName
  let s := { s with
    mapModuleNameToModule := s.mapModuleNameToModule.insert sModuleName spModule }
  -- the module that is deleted here may be the one that is inserted
  let s := replaced.elim s (s.release · last)
  let named := { s.modules spModule.get with sModuleName, sModuleGroup }
  let (isSuccess, base) := named.moduleInit succeeds
  (isSuccess, s.setModule spModule.get base)

/-- What `deleteModule` does with the module that it has found, given what the hooks of
`ModuleStop` and `ModuleFinal` return and whether its pointer is the `last` one. -/
def deleteModule (s : ModuleManager) (sModuleName : XString) (spModule : SpModuleBase)
    (stopSucceeds finalSucceeds last : Bool) : Bool × ModuleManager :=
  let (isSuccess, base) := (s.modules spModule.get).moduleStop stopSucceeds
  let s := s.setModule spModule.get base
  if isSuccess = false then (false, s)
  else
    let (isSuccess, base) := (s.modules spModule.get).moduleFinal finalSucceeds
    let s := s.setModule spModule.get base
    if isSuccess = false then (false, s)
    else
      let s := { s with mapModuleNameToModule := s.mapModuleNameToModule.erase sModuleName }
      (true, s.release spModule last)

variable {s : ModuleManager} {sModuleName sModuleGroup name : XString}
  {spModule : SpModuleBase} {succeeds last : Bool} {m : ℕ}

theorem isExistModule_iff : s.isExistModule sModuleName = true ↔ s.registered sModuleName ≠ none :=
  (decide_eq_true_iff.trans AList.lookup_isSome.symm).trans Option.isSome_iff_ne_none

theorem mem_entries_iff : m ∈ s.entries ↔
    ∃ name, ∃ found ∈ s.registered name, found.get = m := by
  rw [entries, List.mem_map]
  constructor
  · rintro ⟨⟨name, found⟩, member, same⟩
    exact ⟨name, found, AList.mem_lookup_iff.mpr member, same⟩
  · rintro ⟨name, found, registered, same⟩
    exact ⟨⟨name, found⟩, AList.mem_lookup_iff.mp registered, same⟩

theorem owner_mem_owners (found : s.registered sModuleName = some spModule) :
    spModule.owner ∈ s.owners :=
  List.mem_map.mpr ⟨⟨sModuleName, spModule⟩, AList.mem_lookup_iff.mp found, rfl⟩

section Release

@[simp]
theorem registered_release : (s.release spModule last).registered = s.registered := by
  unfold release
  split <;> rfl

@[simp]
theorem modules_release : (s.release spModule last).modules = s.modules := by
  unfold release
  split <;> rfl

/-- The pointer is the last one of its control block. -/
def Frees (s : ModuleManager) (spModule : SpModuleBase) (last : Bool) : Prop :=
  last = true ∧ spModule.owner ∉ s.owners

instance : Decidable (s.Frees spModule last) := inferInstanceAs (Decidable (_ ∧ _))

theorem deleted_release : (s.release spModule last).deleted =
    if s.Frees spModule last then Function.update s.deleted spModule.get true else s.deleted := by
  rw [release, apply_ite deleted]
  rfl

theorem release_of_not_frees (kept : ¬ s.Frees spModule last) : s.release spModule last = s :=
  if_neg kept

end Release

section Insertion

/-- The registry once the pointer is in it. -/
theorem registered_insert : { s with
      mapModuleNameToModule := s.mapModuleNameToModule.insert sModuleName spModule }.registered =
    Function.update s.registered sModuleName (some spModule) := by
  funext name
  by_cases same : name = sModuleName
  · rw [same, Function.update_self]
    exact AList.lookup_insert _
  · rw [Function.update_of_ne same]
    exact AList.lookup_insert_ne same

/-- The insertion registers the module, whatever `ModuleInit` returns. -/
theorem registered_insertModule :
    (s.insertModule sModuleName sModuleGroup spModule succeeds last).2.registered =
      Function.update s.registered sModuleName (some spModule) := by
  rw [← registered_insert]
  cases found : s.registered sModuleName with
  | none => simp only [insertModule, found]; rfl
  | some replaced =>
    simp only [insertModule, found]
    exact registered_release

/-- What `insertModule` returns is what `ModuleInit` does. -/
theorem insertModule_isSuccess :
    (s.insertModule sModuleName sModuleGroup spModule succeeds last).1 =
      ((s.modules spModule.get).admits .moduleInit && succeeds) := by
  have asked : (s.insertModule sModuleName sModuleGroup spModule succeeds last).1 =
      (({ s.modules spModule.get with sModuleName, sModuleGroup } : ModuleBase).lifecycle
        .moduleInit succeeds).1 := by
    cases found : s.registered sModuleName with
    | none => simp only [insertModule, found]; rfl
    | some replaced => simp only [insertModule, found, Option.elim_some, modules_release]; rfl
  have names : ({ s.modules spModule.get with sModuleName, sModuleGroup } : ModuleBase).admits
    .moduleInit = (s.modules spModule.get).admits .moduleInit := rfl
  rw [asked, ← names]
  cases admitted : ({ s.modules spModule.get with sModuleName, sModuleGroup } : ModuleBase).admits
      .moduleInit with
  | false => rw [ModuleBase.lifecycle_of_not_admits admitted, Bool.false_and]
  | true => rw [ModuleBase.lifecycle_of_admits admitted, Bool.true_and]

/-- The insertion names the module and puts it into a group. -/
theorem modules_insertModule : ∃ base : ModuleBase,
    base.sModuleName = sModuleName ∧ base.sModuleGroup = sModuleGroup ∧
      (s.insertModule sModuleName sModuleGroup spModule succeeds last).2.modules =
        Function.update s.modules spModule.get base := by
  have named := @ModuleBase.names_lifecycle
    { s.modules spModule.get with sModuleName, sModuleGroup } .moduleInit succeeds
  refine ⟨_, named.1, named.2, ?_⟩
  cases found : s.registered sModuleName with
  | none => simp only [insertModule, found]; rfl
  | some replaced => simp only [insertModule, found, Option.elim_some, setModule,
      modules_release]; rfl

/-- An insertion that replaces no pointer, or one of the same control block, deletes nothing. -/
theorem deleted_insertModule
    (kept : ∀ replaced ∈ s.registered sModuleName, replaced.owner = spModule.owner) :
    (s.insertModule sModuleName sModuleGroup spModule succeeds last).2.deleted = s.deleted := by
  cases found : s.registered sModuleName with
  | none => simp only [insertModule, found]; rfl
  | some replaced =>
    have owned := @owner_mem_owners { s with
      mapModuleNameToModule := s.mapModuleNameToModule.insert sModuleName spModule }
      sModuleName spModule (by rw [registered_insert, Function.update_self])
    rw [← kept replaced found] at owned
    simp only [insertModule, found, Option.elim_some,
      release_of_not_frees fun frees => frees.2 owned]
    rfl

end Insertion

section Entries

/-- What has been inserted is found under its name. -/
theorem entry_insertModule :
    (s.insertModule sModuleName sModuleGroup spModule succeeds last).2.entry sModuleName =
      some ⟨spModule, sModuleName, sModuleGroup,
        (s.insertModule sModuleName sModuleGroup spModule succeeds last).2.deleted
          spModule.get⟩ := by
  obtain ⟨base, named, grouped, modules⟩ :=
    @modules_insertModule s sModuleName sModuleGroup spModule succeeds last
  rw [entry, registered_insertModule, Function.update_self, Option.map_some, modules,
    Function.update_self, named, grouped]

theorem entry_eq_some_iff {isDeleted : Bool} :
    s.entry name = some ⟨spModule, sModuleName, sModuleGroup, isDeleted⟩ ↔
      s.registered name = some spModule ∧ (s.modules spModule.get).sModuleName = sModuleName ∧
        (s.modules spModule.get).sModuleGroup = sModuleGroup ∧
        s.deleted spModule.get = isDeleted := by
  rw [entry, Option.map_eq_some_iff]
  constructor
  · rintro ⟨found, registered, same⟩
    cases same
    exact ⟨registered, rfl, rfl, rfl⟩
  · rintro ⟨registered, rfl, rfl, rfl⟩
    exact ⟨spModule, registered, rfl⟩

/-- A pointer that stands under the name already, with the same group, is inserted without a
trace. -/
theorem entry_insertModule_of_present {isDeleted : Bool}
    (present : s.entry sModuleName = some ⟨spModule, sModuleName, sModuleGroup, isDeleted⟩) :
    (s.insertModule sModuleName sModuleGroup spModule succeeds last).2.entry = s.entry := by
  obtain ⟨registered, named, grouped, -⟩ := entry_eq_some_iff.mp present
  obtain ⟨base, named', grouped', modules⟩ :=
    @modules_insertModule s sModuleName sModuleGroup spModule succeeds last
  have deleted : (s.insertModule sModuleName sModuleGroup spModule succeeds last).2.deleted =
      s.deleted := by
    refine deleted_insertModule fun replaced found => ?_
    obtain rfl := Option.some.inj (registered.symm.trans found)
    rfl
  funext name
  rw [entry, registered_insertModule, Function.update_eq_self_iff.mpr registered.symm, modules,
    deleted, entry]
  refine Option.map_congr fun spModule' _ => ?_
  rcases eq_or_ne spModule'.get spModule.get with same | other
  · rw [same, Function.update_self, named, grouped, named', grouped']
  · rw [Function.update_of_ne other]

/-- Giving a pointer up shows in the registry if its module is deleted while it stands there. -/
theorem entry_release_iff : (s.release spModule last).entry = s.entry ↔
    (s.Frees spModule last → s.deleted spModule.get = false → spModule.get ∉ s.entries) := by
  constructor
  · intro same frees alive member
    obtain ⟨name, found, present, gone⟩ := mem_entries_iff.mp member
    have before : s.entry name = some ⟨found, _, _, false⟩ :=
      entry_eq_some_iff.mpr ⟨present, rfl, rfl, gone ▸ alive⟩
    rw [← same] at before
    obtain ⟨-, -, -, still⟩ := entry_eq_some_iff.mp before
    rw [gone, deleted_release, if_pos frees, Function.update_self] at still
    cases still
  · intro spared
    by_cases frees : s.Frees spModule last
    · funext name
      rw [entry, registered_release, modules_release, deleted_release, if_pos frees, entry]
      refine Option.map_congr fun found present => ?_
      cases alive : s.deleted spModule.get with
      | false =>
        have other : found.get ≠ spModule.get := fun same =>
          spared frees alive (mem_entries_iff.mpr ⟨name, found, present, same⟩)
        rw [Function.update_of_ne other]
      | true => rw [Function.update_eq_self_iff.mpr alive.symm]
    · rw [release_of_not_frees frees]

end Entries

end ModuleManager

end ExLibs.Module
