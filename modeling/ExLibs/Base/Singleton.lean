/-
# The singleton

Threads that call `GetInstance` and `DestroyInstance` of a `Singleton`. The instance is made
under a once-flag, and a call that finds none while another one makes it waits for that. The flag
is never taken back, so that nothing is made again once the instance has been destroyed.
-/
import ExLibs.Math.Transition
import Mathlib.Data.Fintype.Basic

namespace ExLibs.Base

open ExLibs.Math

/-- `std::once_flag`. -/
inductive OnceFlag
  | unset
  /-- A thread runs the function. -/
  | active
  | set
  deriving DecidableEq

/-- Where a thread is. -/
inductive SingletonPc
  | outside
  /-- In `GetInstance`, it looks at `_instance` next. -/
  | testing
  /-- It is at `std::call_once`. -/
  | calling
  /-- It runs the function, and makes a `T` next. -/
  | constructing
  /-- It stores what it has made next. -/
  | storing (made : ℕ)
  /-- The function has ended. -/
  | finishing
  /-- It reads what it returns next. -/
  | returning
  /-- In `DestroyInstance`, it looks at `_instance` next. -/
  | destroying
  /-- It deletes the instance next. -/
  | deleting
  /-- It resets `_instance` next. -/
  | resetting
  deriving DecidableEq

namespace SingletonPc

/-- In `GetInstance`. -/
def isGetting : SingletonPc → Bool
  | .testing | .calling | .constructing | .storing _ | .finishing | .returning => true
  | _ => false

/-- In `DestroyInstance`. -/
def isDestroying : SingletonPc → Bool
  | .destroying | .deleting | .resetting => true
  | _ => false

/-- In the function of `std::call_once`. -/
def isActive : SingletonPc → Bool
  | .constructing | .storing _ | .finishing => true
  | _ => false

end SingletonPc

/-- What a call of `GetInstance` has returned, and whether this was an instance then. -/
structure Returned where
  pInstance : Option ℕ
  isAlive : Bool
  deriving DecidableEq

/-- A `Singleton` and the threads that use it. The instances are numbered as they are made; which
ones have been destroyed and what has been returned is a record. -/
structure Singletons (Thread : Type*) where
  /-- `_instance`. -/
  pInstance : Option ℕ := none
  /-- `_flag`. -/
  flag : OnceFlag := .unset
  pc : Thread → SingletonPc := fun _ => .outside
  made : ℕ := 0
  destroyed : List ℕ := []
  returned : List Returned := []
  /-- An instance has been deleted that was destroyed, which is undefined. -/
  isFaulted : Bool := false

/-- A step of a thread. -/
inductive SingletonLabel (Thread : Type*)
  | getInstance (a : Thread)
  | destroyInstance (a : Thread)
  /-- It compares `_instance` with `NULLPTR`. -/
  | test (a : Thread)
  | callOnce (a : Thread)
  /-- `new T`, which may throw. -/
  | construct (a : Thread) (succeeds : Bool)
  | store (a : Thread)
  | finish (a : Thread)
  | ret (a : Thread)
  | delete (a : Thread)
  | reset (a : Thread)

namespace Singletons

variable {Thread : Type*}

/-- An instance has been made and not been destroyed. -/
def isAlive (s : Singletons Thread) (i : ℕ) : Bool := i < s.made && i ∉ s.destroyed

/-- `delete _instance`. -/
def delete (s : Singletons Thread) : Singletons Thread :=
  match s.pInstance with
  | some i =>
    if s.isAlive i then { s with destroyed := s.destroyed ++ [i] } else { s with isFaulted := true }
  | none => s

section Steps

variable [DecidableEq Thread]

/-- A thread moves on. -/
def goto (s : Singletons Thread) (a : Thread) (pc : SingletonPc) : Singletons Thread :=
  { s with pc := Function.update s.pc a pc }

/-- One step, if the label is enabled. -/
def step (s : Singletons Thread) : SingletonLabel Thread → Option (Singletons Thread)
  | .getInstance a => if s.pc a = .outside then some (s.goto a .testing) else none
  | .destroyInstance a => if s.pc a = .outside then some (s.goto a .destroying) else none
  | .test a =>
    match s.pc a with
    | .testing => some (s.goto a (if s.pInstance = none then .calling else .returning))
    | .destroying => some (s.goto a (if s.pInstance = none then .outside else .deleting))
    | _ => none
  | .callOnce a =>
    match s.pc a, s.flag with
    | .calling, .unset => some { s.goto a .constructing with flag := .active }
    | .calling, .set => some (s.goto a .returning)
    | _, _ => none
  | .construct a succeeds =>
    if s.pc a = .constructing then
      if succeeds then some { s.goto a (.storing s.made) with made := s.made + 1 }
      -- the exception leaves the flag to another thread
      else some { s.goto a .outside with flag := .unset }
    else none
  | .store a =>
    match s.pc a with
    | .storing i => some { s.goto a .finishing with pInstance := some i }
    | _ => none
  | .finish a =>
    if s.pc a = .finishing then some { s.goto a .returning with flag := .set } else none
  | .ret a =>
    if s.pc a = .returning then
      some { s.goto a .outside with
        returned := s.returned ++ [⟨s.pInstance, s.pInstance.any s.isAlive⟩] }
    else none
  | .delete a => if s.pc a = .deleting then some (s.delete.goto a .resetting) else none
  | .reset a =>
    if s.pc a = .resetting then some { s.goto a .outside with pInstance := none } else none

end Steps

/-- Every call of `GetInstance` has returned an instance, there is one at most, and none has
been deleted twice. -/
structure Available (s : Singletons Thread) : Prop where
  alive : ∀ r ∈ s.returned, r.pInstance ≠ none ∧ r.isAlive = true
  one : ∀ i j, s.isAlive i = true → s.isAlive j = true → i = j
  sound : s.isFaulted = false

/-- No `DestroyInstance` is called while a `GetInstance` runs, nor the other way round. -/
def Separate (s : Singletons Thread) : SingletonLabel Thread → Prop
  | .getInstance _ => ∀ b, (s.pc b).isDestroying = false
  | .destroyInstance _ => ∀ b, (s.pc b).isGetting = false
  | _ => True

/-- No `GetInstance` comes to its end after the instance has been destroyed, and no
`DestroyInstance` deletes an instance that another one has destroyed. -/
def Timely (s : Singletons Thread) : SingletonLabel Thread → Prop
  | .ret _ => s.destroyed = []
  | .delete _ => ∀ i, s.pInstance = some i → i ∉ s.destroyed
  | _ => True

variable {s t : Singletons Thread} {label : SingletonLabel Thread}
  {labels : List (SingletonLabel Thread)} {a : Thread} {pc : SingletonPc}

section Steps

variable [DecidableEq Thread]

/-- What a step does. -/
inductive Step (s : Singletons Thread) : SingletonLabel Thread → Singletons Thread → Prop
  | getInstance {a : Thread} : Step s (.getInstance a) (s.goto a .testing)
  | destroyInstance {a : Thread} : Step s (.destroyInstance a) (s.goto a .destroying)
  | absent {a : Thread} {pc : SingletonPc} (leaves : pc = .calling ∨ pc = .outside) :
      Step s (.test a) (s.goto a pc)
  | present {a : Thread} {pc : SingletonPc} (present : s.pInstance ≠ none)
      (stays : pc = .returning ∨ pc = .deleting) : Step s (.test a) (s.goto a pc)
  | activate {a : Thread} (unset : s.flag = .unset) :
      Step s (.callOnce a) { s.goto a .constructing with flag := .active }
  | passive {a : Thread} (set : s.flag = .set) : Step s (.callOnce a) (s.goto a .returning)
  | construct {a : Thread} (constructing : s.pc a = .constructing) :
      Step s (.construct a true) { s.goto a (.storing s.made) with made := s.made + 1 }
  | throw {a : Thread} (constructing : s.pc a = .constructing) :
      Step s (.construct a false) { s.goto a .outside with flag := .unset }
  | store {a : Thread} {i : ℕ} (storing : s.pc a = .storing i) :
      Step s (.store a) { s.goto a .finishing with pInstance := some i }
  | finish {a : Thread} (finishing : s.pc a = .finishing) :
      Step s (.finish a) { s.goto a .returning with flag := .set }
  | ret {a : Thread} (returning : s.pc a = .returning) :
      Step s (.ret a) { s.goto a .outside with
        returned := s.returned ++ [⟨s.pInstance, s.pInstance.any s.isAlive⟩] }
  | delete {a : Thread} (deleting : s.pc a = .deleting) :
      Step s (.delete a) (s.delete.goto a .resetting)
  | reset {a : Thread} (resetting : s.pc a = .resetting) :
      Step s (.reset a) { s.goto a .outside with pInstance := none }

theorem step_cases (next : s.step label = some t) : Step s label t := by
  cases label with
  | getInstance a =>
    obtain ⟨-, ⟨⟩⟩ := Option.ite_none_right_eq_some.mp next
    exact .getInstance
  | destroyInstance a =>
    obtain ⟨-, ⟨⟩⟩ := Option.ite_none_right_eq_some.mp next
    exact .destroyInstance
  | test a =>
    simp only [step] at next
    split at next
    · obtain rfl := Option.some.inj next
      split_ifs with null
      · exact .absent (.inl rfl)
      · exact .present null (.inl rfl)
    · obtain rfl := Option.some.inj next
      split_ifs with null
      · exact .absent (.inr rfl)
      · exact .present null (.inr rfl)
    · cases next
  | callOnce a =>
    simp only [step] at next
    split at next
    · rename_i unset
      exact Option.some.inj next ▸ .activate unset
    · rename_i set
      exact Option.some.inj next ▸ .passive set
    · cases next
  | construct a succeeds =>
    obtain ⟨constructing, next⟩ := Option.ite_none_right_eq_some.mp next
    cases succeeds with
    | true => exact Option.some.inj next ▸ .construct constructing
    | false => exact Option.some.inj next ▸ .throw constructing
  | store a =>
    simp only [step] at next
    split at next
    · rename_i i storing
      exact Option.some.inj next ▸ .store storing
    · cases next
  | finish a =>
    obtain ⟨finishing, ⟨⟩⟩ := Option.ite_none_right_eq_some.mp next
    exact .finish finishing
  | ret a =>
    obtain ⟨returning, ⟨⟩⟩ := Option.ite_none_right_eq_some.mp next
    exact .ret returning
  | delete a =>
    obtain ⟨deleting, ⟨⟩⟩ := Option.ite_none_right_eq_some.mp next
    exact .delete deleting
  | reset a =>
    obtain ⟨resetting, ⟨⟩⟩ := Option.ite_none_right_eq_some.mp next
    exact .reset resetting

end Steps

section Order

/-- An instance has been stored: `_instance` points to it, or it has been destroyed. -/
def Stored (s : Singletons Thread) : Prop := s.pInstance = some 0 ∨ 0 ∈ s.destroyed

/-- What holds while a thread is at a place. -/
def Knows (s : Singletons Thread) : SingletonPc → Prop
  | .constructing => s.flag = .active ∧ s.made = 0
  | .storing i => s.flag = .active ∧ s.made = 1 ∧ i = 0
  | .finishing => s.flag = .active ∧ s.Stored
  | .returning | .deleting => s.Stored
  | .resetting => 0 ∈ s.destroyed
  | _ => True

/-- One instance is made at most, and it is stored when the flag is set. -/
structure Counted (s : Singletons Thread) : Prop where
  pointer : ∀ i, s.pInstance = some i → i = 0
  first : ∀ i ∈ s.destroyed, i = 0
  made_le : s.made ≤ 1
  stored : s.Stored → s.made = 1
  set : s.flag = .set → s.Stored
  unset : s.flag = .unset → s.made = 0

/-- One thread at most runs the function, and the threads know where they are. -/
structure Ordered (s : Singletons Thread) : Prop extends Counted s where
  places : ∀ a, s.Knows (s.pc a)
  alone : ∀ a b, (s.pc a).isActive = true → (s.pc b).isActive = true → a = b

theorem Knows.flag (knows : s.Knows pc) (active : pc.isActive = true) : s.flag = .active := by
  cases pc with
  | constructing | storing | finishing => exact knows.1
  | _ => cases active

/-- What a thread knows it still knows when another one has moved. -/
theorem Knows.mono (knows : s.Knows pc)
    (same : pc.isActive = true → t.flag = s.flag ∧ t.made = s.made)
    (stored : s.Stored → t.Stored) (destroyed : 0 ∈ s.destroyed → 0 ∈ t.destroyed) :
    t.Knows pc := by
  cases pc with
  | constructing =>
    obtain ⟨flag, made⟩ := same rfl
    exact ⟨flag.trans knows.1, made.trans knows.2⟩
  | storing i =>
    obtain ⟨flag, made⟩ := same rfl
    exact ⟨flag.trans knows.1, made.trans knows.2.1, knows.2.2⟩
  | finishing => exact ⟨(same rfl).1.trans knows.1, stored knows.2⟩
  | returning | deleting => exact stored knows
  | resetting => exact destroyed knows
  | outside | testing | calling | destroying => trivial

theorem Stored.of_present (ordered : s.Ordered) (present : s.pInstance ≠ none) : s.Stored := by
  obtain ⟨i, there⟩ := Option.ne_none_iff_exists'.mp present
  rw [ordered.pointer i there] at there
  exact .inl there

/-- What a deletion does once an instance has been stored. -/
theorem Ordered.delete_cases (ordered : s.Ordered) (stored : s.Stored) :
    s.pInstance = none ∧ s.delete = s ∨
    s.pInstance = some 0 ∧ 0 ∉ s.destroyed ∧
      s.delete = { s with destroyed := s.destroyed ++ [0] } ∨
    s.pInstance = some 0 ∧ 0 ∈ s.destroyed ∧ s.delete = { s with isFaulted := true } := by
  cases there : s.pInstance with
  | none => exact .inl ⟨rfl, by rw [delete, there]⟩
  | some i =>
    obtain rfl := ordered.pointer i there
    have made := ordered.stored stored
    by_cases gone : 0 ∈ s.destroyed
    · have dead : s.isAlive 0 = false := by simp [isAlive, gone]
      exact .inr (.inr ⟨rfl, gone, by rw [delete, there]; simp [dead]⟩)
    · have alive : s.isAlive 0 = true := by simp [isAlive, made, gone]
      exact .inr (.inl ⟨rfl, gone, by rw [delete, there]; simp [alive]⟩)

/-- Only the first instance is ever alive. -/
theorem Ordered.eq_zero_of_isAlive (ordered : s.Ordered) {i : ℕ} (alive : s.isAlive i = true) :
    i = 0 := by
  have made : i < s.made := of_decide_eq_true (Bool.and_eq_true_iff.mp alive).1
  have made_le := ordered.made_le
  omega

/-- Whether the singleton is available is about what has been returned and deleted. -/
theorem Ordered.available_iff (ordered : s.Ordered) :
    s.Available ↔ (∀ r ∈ s.returned, r.pInstance ≠ none ∧ r.isAlive = true) ∧
      s.isFaulted = false := by
  refine ⟨fun available => ⟨available.alive, available.sound⟩, fun ⟨alive, sound⟩ =>
    ⟨alive, fun i j first second => ?_, sound⟩⟩
  rw [ordered.eq_zero_of_isAlive first, ordered.eq_zero_of_isAlive second]

/-- Once an instance is stored, what is returned is an instance as long as none is destroyed. -/
theorem Ordered.returns_iff (ordered : s.Ordered) (stored : s.Stored) :
    (s.pInstance ≠ none ∧ s.pInstance.any s.isAlive = true) ↔ s.destroyed = [] := by
  constructor
  · rintro ⟨present, alive⟩
    obtain ⟨i, there⟩ := Option.ne_none_iff_exists'.mp present
    obtain rfl := ordered.pointer i there
    rw [there, Option.any_some] at alive
    have kept : 0 ∉ s.destroyed := of_decide_eq_true (Bool.and_eq_true_iff.mp alive).2
    refine List.eq_nil_iff_forall_not_mem.mpr fun i member => ?_
    exact kept (ordered.first i member ▸ member)
  · intro kept
    have there : s.pInstance = some 0 := stored.resolve_right (by simp [kept])
    have alive : s.isAlive 0 = true := by simp [isAlive, kept, ordered.stored stored]
    exact ⟨by simp [there], by rw [there, Option.any_some, alive]⟩

/-- Nothing has been made. -/
def start : Singletons Thread := {}

theorem ordered_start : (start : Singletons Thread).Ordered where
  places _ := trivial
  alone _ _ := nofun
  pointer := nofun
  first := nofun
  made_le := Nat.zero_le 1
  stored stored := by rcases stored with there | gone <;> contradiction
  set := nofun
  unset _ := rfl

end Order

section Runs

variable [DecidableEq Thread]

/-- The threads are in order when one has moved that may be in the function and is alone there,
or that stays outside of it. -/
theorem Ordered.moved (ordered : s.Ordered) (counted : t.Counted)
    (pcs : t.pc = Function.update s.pc a pc) (own : t.Knows pc)
    (others : ∀ b, b ≠ a → (s.pc b).isActive = true →
      pc.isActive = false ∧ t.flag = s.flag ∧ t.made = s.made)
    (stored : s.Stored → t.Stored) (destroyed : 0 ∈ s.destroyed → 0 ∈ t.destroyed) :
    t.Ordered := by
  have at_other {b : Thread} (other : b ≠ a) : t.pc b = s.pc b := by
    rw [pcs, Function.update_of_ne other]
  have at_own : t.pc a = pc := by rw [pcs, Function.update_self]
  refine ⟨counted, ?_, ?_⟩
  · intro b
    by_cases same : b = a
    · rw [same, at_own]
      exact own
    · rw [at_other same]
      exact (ordered.places b).mono (fun active => (others b same active).2) stored destroyed
  · intro b c active active'
    by_cases same : b = a
    · by_cases same' : c = a
      · rw [same, same']
      · rw [same, at_own] at active
        rw [at_other same'] at active'
        cases active.symm.trans (others c same' active').1
    · rw [at_other same] at active
      by_cases same' : c = a
      · rw [same', at_own] at active'
        cases active'.symm.trans (others b same active).1
      · rw [at_other same'] at active'
        exact ordered.alone b c active active'

/-- Nobody else is in the function beside the thread that is, whose move keeps the order. -/
theorem Ordered.moved_of_active (ordered : s.Ordered) (active : (s.pc a).isActive = true)
    (counted : t.Counted) (pcs : t.pc = Function.update s.pc a pc) (own : t.Knows pc)
    (stored : s.Stored → t.Stored) (destroyed : 0 ∈ s.destroyed → 0 ∈ t.destroyed) : t.Ordered := by
  refine ordered.moved counted pcs own (fun b other active' => ?_) stored destroyed
  exact absurd (ordered.alone b a active' active) other

/-- A thread that moves outside of the function to where it may be keeps the order. -/
theorem Ordered.goto (ordered : s.Ordered) (knows : s.Knows pc) (quiet : pc.isActive = false) :
    (s.goto a pc).Ordered :=
  ordered.moved { ordered.toCounted with } rfl knows (fun _ _ _ => ⟨quiet, rfl, rfl⟩) id id

theorem Ordered.keep (ordered : s.Ordered) (next : s.step label = some t) : t.Ordered := by
  have at_place {b : Thread} {place : SingletonPc} (here : s.pc b = place) : s.Knows place :=
    here ▸ ordered.places b
  cases step_cases next with
  | getInstance | destroyInstance => exact ordered.goto trivial rfl
  | absent leaves => rcases leaves with rfl | rfl <;> exact ordered.goto trivial rfl
  | present present stays =>
    have stored := Stored.of_present ordered present
    rcases stays with rfl | rfl <;> exact ordered.goto stored rfl
  | passive set => exact ordered.goto (ordered.set set) rfl
  | activate unset =>
    refine ordered.moved { ordered.toCounted with set := nofun, unset := nofun } rfl
      ⟨rfl, ordered.unset unset⟩ (fun b _ active => ?_) id id
    cases unset.symm.trans ((ordered.places b).flag active)
  | construct constructing =>
    obtain ⟨active, unmade⟩ := at_place constructing
    refine ordered.moved_of_active (constructing ▸ rfl)
      { ordered.toCounted with made_le := ?_, stored := ?_, unset := ?_ } rfl
      ⟨active, congrArg Nat.succ unmade, unmade⟩ id id
    · exact unmade ▸ Nat.le_refl 1
    · intro stored
      cases unmade.symm.trans (ordered.stored stored)
    · intro unset
      cases active.symm.trans unset
  | throw constructing =>
    obtain ⟨active, unmade⟩ := at_place constructing
    exact ordered.moved_of_active (constructing ▸ rfl)
      { ordered.toCounted with set := nofun, unset := fun _ => unmade } rfl trivial id id
  | store storing =>
    obtain ⟨active, made, rfl⟩ := at_place storing
    exact ordered.moved_of_active (storing ▸ rfl)
      { ordered.toCounted with
        pointer := fun _ same => (Option.some.inj same).symm
        stored := fun _ => made
        set := fun _ => .inl rfl } rfl
      ⟨active, .inl rfl⟩ (fun _ => .inl rfl) id
  | finish finishing =>
    obtain ⟨-, stored⟩ := at_place finishing
    exact ordered.moved_of_active (finishing ▸ rfl)
      { ordered.toCounted with set := fun _ => stored, unset := nofun } rfl stored id id
  | ret returning =>
    exact ordered.moved { ordered.toCounted with } rfl trivial (fun _ _ _ => ⟨rfl, rfl, rfl⟩) id id
  | delete deleting =>
    have stored : s.Stored := at_place deleting
    rcases ordered.delete_cases stored with ⟨null, same⟩ | ⟨-, -, gone⟩ | ⟨-, gone, faults⟩
    · rw [same]
      exact ordered.goto (stored.resolve_left (by rw [null]; exact nofun)) rfl
    · rw [gone]
      refine ordered.moved { ordered.toCounted with
          first := List.forall_mem_append.mpr ⟨ordered.first, List.forall_mem_singleton.mpr rfl⟩
          stored := fun _ => ordered.stored stored
          set := fun _ => .inr List.mem_concat_self } rfl
        List.mem_concat_self (fun _ _ _ => ⟨rfl, rfl, rfl⟩)
        (fun _ => .inr List.mem_concat_self) (List.mem_append_left _)
    · rw [faults]
      exact ordered.moved { ordered.toCounted with } rfl gone (fun _ _ _ => ⟨rfl, rfl, rfl⟩) id id
  | reset resetting =>
    have gone : 0 ∈ s.destroyed := at_place resetting
    exact ordered.moved { ordered.toCounted with
        pointer := nofun
        stored := fun _ => ordered.stored (.inr gone)
        set := fun _ => .inr gone } rfl
      trivial (fun _ _ _ => ⟨rfl, rfl, rfl⟩) (fun _ => .inr gone) id

/-- A step keeps the singleton available exactly if it is timely. -/
theorem available_iff_of_step (ordered : s.Ordered) (next : s.step label = some t) :
    t.Available ↔ s.Available ∧ s.Timely label := by
  rw [(ordered.keep next).available_iff, ordered.available_iff]
  cases step_cases next with
  | ret returning =>
    have stored : s.Stored := (returning ▸ ordered.places _ : s.Knows .returning)
    change (∀ r ∈ s.returned ++ [_], _) ∧ _ ↔ _ ∧ s.destroyed = []
    rw [List.forall_mem_append, List.forall_mem_singleton, ordered.returns_iff stored,
      and_right_comm]
    rfl
  | delete deleting =>
    have stored : s.Stored := (deleting ▸ ordered.places _ : s.Knows .deleting)
    change _ ↔ _ ∧ ∀ i, s.pInstance = some i → i ∉ s.destroyed
    rcases ordered.delete_cases stored with
      ⟨null, same⟩ | ⟨there, kept, gone⟩ | ⟨there, gone, faults⟩
    · rw [same, null]
      exact (and_iff_left nofun).symm
    · rw [gone, there]
      refine (and_iff_left ?_).symm
      rintro i ⟨⟩
      exact kept
    · rw [faults, there]
      constructor
      · rintro ⟨-, sound⟩
        cases sound
      · rintro ⟨-, timely⟩
        exact absurd gone (timely 0 rfl)
  | _ => exact (and_iff_left trivial).symm

/-- In every run, however the calls overlap, the singleton is available exactly if no
`GetInstance` comes to its end after the instance has been destroyed and none is destroyed
twice. -/
theorem available_iff_timely (run : Run step Free start labels s) :
    s.Available ↔ Run step Timely start labels s := by
  have initial : (start : Singletons Thread).Available := ⟨nofun, fun _ _ => nofun, rfl⟩
  refine run.good_iff initial fun labels s label t earlier next => ?_
  have ordered : s.Ordered := earlier.invariant ordered_start fun _ _ _ ordered _ => ordered.keep
  exact available_iff_of_step ordered next

instance (s : Singletons Thread) : DecidablePred s.Timely
  | .ret _ => inferInstanceAs (Decidable (s.destroyed = []))
  | .delete _ => inferInstanceAs (Decidable (∀ i ∈ s.pInstance, i ∉ s.destroyed))
  | .getInstance _ | .destroyInstance _ | .test _ | .callOnce _ | .construct .. | .store _
  | .finish _ | .reset _ => inferInstanceAs (Decidable True)

instance [Fintype Thread] (s : Singletons Thread) : DecidablePred s.Separate
  | .getInstance _ => inferInstanceAs (Decidable (∀ b, (s.pc b).isDestroying = false))
  | .destroyInstance _ => inferInstanceAs (Decidable (∀ b, (s.pc b).isGetting = false))
  | .test _ | .callOnce _ | .construct .. | .store _ | .finish _ | .ret _ | .delete _
  | .reset _ => inferInstanceAs (Decidable True)

/-- Two threads find no instance. One makes it, while the other waits for it at the flag. -/
def race : List (SingletonLabel Bool) :=
  [.getInstance true, .test true, .getInstance false, .test false, .callOnce true,
    .construct true true, .store true, .finish true, .callOnce false, .ret false, .ret true]

theorem available_of_race : ∃ s : Singletons Bool, s.Available ∧
    s.returned = [⟨some 0, true⟩, ⟨some 0, true⟩] := by
  obtain ⟨s, timely, ended⟩ := @exists_run_of_guarded _ _ step Timely
    (fun s label => s.Timely label) (fun _ _ => of_decide_eq_true) start race
    (fun s => s.returned = [⟨some 0, true⟩, ⟨some 0, true⟩]) (by decide +kernel)
  exact ⟨s, (available_iff_timely timely.free).mpr timely, of_decide_eq_true ended⟩

/-- A thread gets the instance, destroys it, and asks for it again. -/
def again : List (SingletonLabel Bool) :=
  [.getInstance true, .test true, .callOnce true, .construct true true, .store true,
    .finish true, .ret true, .destroyInstance true, .test true, .delete true, .reset true,
    .getInstance true, .test true, .callOnce true, .ret true]

/-- It gets null, as the flag is still set. -/
theorem null_after_destroy : ¬ ∀ labels (s : Singletons Bool),
    Run step Separate start labels s → s.Available := by
  intro all
  obtain ⟨s, separate, ended⟩ := @exists_run_of_guarded _ _ step Separate
    (fun s label => s.Separate label) (fun _ _ => of_decide_eq_true) start again
    (fun s => s.returned = [⟨some 0, true⟩, ⟨none, false⟩]) (by decide +kernel)
  have returned := of_decide_eq_true ended
  have alive := (all _ s separate).alive ⟨none, false⟩ (by rw [returned]; decide)
  exact alive.1 rfl

end Runs

end Singletons

end ExLibs.Base
