/-
# Lifecycle calls of several threads

The flag `_isRunning` is loaded when a lifecycle call begins and stored once the state has been
read. Between these the calls of other threads may load the same value, so that two hooks run
at once, or one begins in a state that the other has left behind.

They do not in a run in which each call that stores the flag still finds what it has tested:
the flag down, and the module in a state that the call admits.
-/
import Mathlib.Logic.Function.Basic
import ExLibs.Module.Base

namespace ExLibs.Module

open ExLibs.Math

/-- Where a thread is in a lifecycle call. -/
inductive CallPc
  | outside
  /-- It loads `_isRunning` next. -/
  | entered (hook : Hook)
  /-- It has found that nothing runs, and reads the state next. -/
  | loaded (hook : Hook)
  /-- The state is one that it does not refuse, and it stores `_isRunning` next. -/
  | passed (hook : Hook)
  /-- It calls the hook next. -/
  | stored (hook : Hook)
  /-- It is in the hook. -/
  | inside (hook : Hook)
  /-- The hook has returned, and it sets the state next. -/
  | returned (hook : Hook)
  /-- It stores `_isRunning` again next. -/
  | leaving
  deriving DecidableEq

/-- The thread has raised `_isRunning`. -/
def CallPc.raised : CallPc → Bool
  | .stored _ | .inside _ | .returned _ | .leaving => true
  | .outside | .entered _ | .loaded _ | .passed _ => false

/-- A module and the threads that call it. `begun` records the hooks that have begun, each with
the state that the module was in. -/
structure CalledModule where
  base : ModuleBase
  pc : ℕ → CallPc
  begun : List (Hook × ModuleState)

/-- A step of a thread: it calls, or goes on with its call. -/
inductive CallLabel
  | call (a : ℕ) (hook : Hook)
  | proceed (a : ℕ)

namespace CalledModule

/-- A module that nobody calls. -/
def start (base : ModuleBase) : CalledModule := ⟨base, fun _ => .outside, []⟩

/-- A thread moves on. -/
def goto (s : CalledModule) (a : ℕ) (pc : CallPc) : CalledModule :=
  { s with pc := Function.update s.pc a pc }

/-- One step, if the label is enabled. -/
def step (s : CalledModule) : CallLabel → Option CalledModule
  | .call a hook =>
    match s.pc a with
    | .outside => some (s.goto a (.entered hook))
    | _ => none
  | .proceed a =>
    match s.pc a with
    | .outside => none
    | .entered hook => some (s.goto a (if s.base.isRunning then .outside else .loaded hook))
    | .loaded hook =>
      some (s.goto a (if hook.refuses s.base.getModuleState then .outside else .passed hook))
    | .passed hook => some { s.goto a (.stored hook) with base.isRunning := true }
    | .stored hook => some { s.goto a (.inside hook) with
        base.hooks := s.base.hooks ++ [hook], begun := s.begun ++ [(hook, s.base.eState)] }
    | .inside hook => some (s.goto a (.returned hook))
    | .returned hook => some { s.goto a .leaving with base := s.base.setModuleState hook.target }
    | .leaving => some { s.goto a .outside with base.isRunning := false }

/-- At most one hook is running, and each has begun in a state that its call admits. -/
def Exclusive (s : CalledModule) : Prop :=
  (∀ a b hook hook', s.pc a = .inside hook → s.pc b = .inside hook' → a = b) ∧
    ∀ hook state, (hook, state) ∈ s.begun → hook.refuses state = false

/-- A call that raises the flag finds it down and the module in a state that it admits. -/
def Unraced (s : CalledModule) : CallLabel → Prop
  | .proceed a => ∀ hook, s.pc a = .passed hook → s.base.admits hook = true
  | .call .. => True

/-- What is kept as long as the calls are not raced. -/
structure Orderly (s : CalledModule) : Prop where
  running : ∀ a, (s.pc a).raised = true → s.base.isRunning = true
  alone : ∀ a b, (s.pc a).raised = true → (s.pc b).raised = true → a = b
  admitted : ∀ a hook, s.pc a = .stored hook → hook.refuses s.base.eState = false
  begun : ∀ hook state, (hook, state) ∈ s.begun → hook.refuses state = false

variable {s t : CalledModule} {label : CallLabel} {labels : List CallLabel}
  {base : ModuleBase} {a : ℕ} {pc : CallPc}

/-- What a step does. -/
inductive Step (s : CalledModule) : CallLabel → CalledModule → Prop
  | aside {label : CallLabel} {a : ℕ} {pc : CallPc} (before : (s.pc a).raised = false)
      (after : pc.raised = false) : Step s label (s.goto a pc)
  | store {a : ℕ} {hook : Hook} (passed : s.pc a = .passed hook) :
      Step s (.proceed a) { s.goto a (.stored hook) with base.isRunning := true }
  | begin {a : ℕ} {hook : Hook} (stored : s.pc a = .stored hook) :
      Step s (.proceed a) { s.goto a (.inside hook) with
        base.hooks := s.base.hooks ++ [hook], begun := s.begun ++ [(hook, s.base.eState)] }
  | finish {a : ℕ} {hook : Hook} (inside : s.pc a = .inside hook) :
      Step s (.proceed a) (s.goto a (.returned hook))
  | set {a : ℕ} {hook : Hook} (returned : s.pc a = .returned hook) :
      Step s (.proceed a) { s.goto a .leaving with base := s.base.setModuleState hook.target }
  | leave {a : ℕ} (leaving : s.pc a = .leaving) :
      Step s (.proceed a) { s.goto a .outside with base.isRunning := false }

theorem step_cases (next : s.step label = some t) : Step s label t := by
  cases label with
  | call a hook =>
    simp only [step] at next
    split at next
    · rename_i outside
      exact Option.some.inj next ▸ .aside (by rw [outside]; rfl) rfl
    · cases next
  | proceed a =>
    simp only [step] at next
    split at next
    case h_1 => cases next
    case h_2 hook entered =>
      refine Option.some.inj next ▸ .aside (by rw [entered]; rfl) ?_
      split <;> rfl
    case h_3 hook loaded =>
      refine Option.some.inj next ▸ .aside (by rw [loaded]; rfl) ?_
      split <;> rfl
    case h_4 hook passed => exact Option.some.inj next ▸ .store passed
    case h_5 hook stored => exact Option.some.inj next ▸ .begin stored
    case h_6 hook inside => exact Option.some.inj next ▸ .finish inside
    case h_7 hook returned => exact Option.some.inj next ▸ .set returned
    case h_8 leaving => exact Option.some.inj next ▸ .leave leaving

/-- A thread moves on while no other has raised the flag. -/
theorem Orderly.of_moved (moves : t.pc = Function.update s.pc a pc)
    (others : ∀ b, (s.pc b).raised = true → b = a)
    (running : pc.raised = true → t.base.isRunning = true)
    (admitted : ∀ hook, pc = .stored hook → hook.refuses t.base.eState = false)
    (begun : ∀ hook state, (hook, state) ∈ t.begun → hook.refuses state = false) :
    t.Orderly := by
  have only (b : ℕ) (raised : (t.pc b).raised = true) : b = a ∧ pc.raised = true := by
    by_cases same : b = a
    · rw [moves, same, Function.update_self] at raised
      exact ⟨same, raised⟩
    · rw [moves, Function.update_of_ne same] at raised
      exact absurd (others b raised) same
  refine ⟨fun b raised => running (only b raised).2, fun b c raised raised' =>
    (only b raised).1.trans (only c raised').1.symm, fun b hook stored => ?_, begun⟩
  obtain rfl : b = a := (only b (by rw [stored]; rfl)).1
  rw [moves, Function.update_self] at stored
  exact admitted hook stored

theorem Orderly.keep (orderly : s.Orderly) (unraced : s.Unraced label)
    (next : s.step label = some t) : t.Orderly := by
  cases step_cases next with
  | @aside _ a pc before after =>
    have elsewhere (b : ℕ) (raised : ((s.goto a pc).pc b).raised = true) :
        (s.goto a pc).pc b = s.pc b := by
      refine Function.update_of_ne ?_ ..
      rintro rfl
      have same : (s.goto b pc).pc b = pc := Function.update_self ..
      rw [same, after] at raised
      cases raised
    refine ⟨fun b raised => ?_, fun b c raised raised' => ?_, fun b hook stored => ?_,
      orderly.begun⟩
    · rw [elsewhere b raised] at raised
      exact orderly.running b raised
    · rw [elsewhere b raised] at raised
      rw [elsewhere c raised'] at raised'
      exact orderly.alone b c raised raised'
    · rw [elsewhere b (by rw [stored]; rfl)] at stored
      exact orderly.admitted b hook stored
  | @store a hook passed =>
    -- the flag is down, so that nobody has raised it
    obtain ⟨down, passes⟩ := ModuleBase.admits_iff.mp (unraced hook passed)
    refine .of_moved (s := s) rfl (fun b raised => ?_) (fun _ => rfl) (fun other stored => ?_)
      orderly.begun
    · cases down.symm.trans (orderly.running b raised)
    · obtain rfl := CallPc.stored.inj stored
      exact passes
  | @begin a hook stored =>
    have raised : (s.pc a).raised = true := by rw [stored]; rfl
    refine .of_moved (s := s) rfl (fun b again => orderly.alone b a again raised)
      (fun _ => orderly.running a raised) (fun _ => nofun) fun other state member => ?_
    rcases List.mem_append.mp member with before | last
    · exact orderly.begun other state before
    · obtain ⟨rfl, rfl⟩ := Prod.mk.inj (List.mem_singleton.mp last)
      exact orderly.admitted a other stored
  | @finish a hook inside =>
    have raised : (s.pc a).raised = true := by rw [inside]; rfl
    exact .of_moved (s := s) rfl (fun b again => orderly.alone b a again raised)
      (fun _ => orderly.running a raised) (fun _ => nofun) orderly.begun
  | @set a hook returned =>
    have raised : (s.pc a).raised = true := by rw [returned]; rfl
    exact .of_moved (s := s) rfl (fun b again => orderly.alone b a again raised)
      (fun _ => orderly.running a raised) (fun _ => nofun) orderly.begun
  | @leave a leaving =>
    have raised : (s.pc a).raised = true := by rw [leaving]; rfl
    exact .of_moved (s := s) rfl (fun b again => orderly.alone b a again raised)
      nofun (fun _ => nofun) orderly.begun

theorem orderly_start : (start base).Orderly where
  running _ := nofun
  alone _ _ := nofun
  admitted _ _ := nofun
  begun _ _ := nofun

/-- In a run whose calls are not raced at most one hook is running, and each hook has begun in
a state that its call admits. -/
theorem exclusive_of_unraced (run : Run step Unraced (start base) labels s) : s.Exclusive := by
  have orderly : s.Orderly :=
    run.invariant orderly_start fun s label t orderly unraced next => orderly.keep unraced next
  refine ⟨fun a b hook hook' inside inside' => ?_, orderly.begun⟩
  exact orderly.alone a b (by rw [inside]; rfl) (by rw [inside']; rfl)

instance (s : CalledModule) : DecidablePred s.Unraced
  | .call .. => .isTrue trivial
  | .proceed a => decidable_of_iff
      ((match s.pc a with | .passed hook => s.base.admits hook | _ => true) = true) (by
        cases at_ : s.pc a <;> simp [Unraced, at_])

/-- The steps of a whole call that nothing interrupts. -/
def wholeCall (a : ℕ) (hook : Hook) : List CallLabel :=
  .call a hook :: List.replicate 7 (.proceed a)

/-- Two threads initialize a module and start it, one after the other. -/
theorem exclusive_of_two : ∃ s : CalledModule,
    s.begun = [(.moduleInit, .none), (.moduleStart, .init)] ∧ s.Exclusive := by
  obtain ⟨s, run, ended⟩ := @exists_run_of_guarded _ _ step Unraced
    (fun s label => s.Unraced label) (fun _ _ => of_decide_eq_true) (start {})
    (wholeCall 0 .moduleInit ++ wholeCall 1 .moduleStart)
    (fun s => s.begun = [(.moduleInit, .none), (.moduleStart, .init)]) (by decide)
  exact ⟨s, of_decide_eq_true ended, exclusive_of_unraced run⟩

/-- Two threads that have both loaded the flag and read the state are both in `moduleInit`. If
one of them returns before the other begins, that one begins in an initialized module. -/
theorem not_exclusive_of_race :
    (∃ s : CalledModule, Run step Free (start {}) [.call 0 .moduleInit, .call 1 .moduleInit,
      .proceed 0, .proceed 1, .proceed 0, .proceed 1, .proceed 0, .proceed 1,
      .proceed 0, .proceed 1] s ∧ ¬ s.Exclusive) ∧
    ∃ s : CalledModule, Run step Free (start {}) ([.call 0 .moduleInit, .proceed 0, .proceed 0] ++
      wholeCall 1 .moduleInit ++ [.proceed 0, .proceed 0]) s ∧ ¬ s.Exclusive := by
  refine ⟨?both, ?late⟩
  case both =>
    obtain ⟨s, run, ended⟩ := @exists_run_of_exec _ _ step (start {})
      [.call 0 .moduleInit, .call 1 .moduleInit, .proceed 0, .proceed 1, .proceed 0,
        .proceed 1, .proceed 0, .proceed 1, .proceed 0, .proceed 1]
      (fun s => s.pc 0 = .inside .moduleInit ∧ s.pc 1 = .inside .moduleInit) (by decide)
    have ended := of_decide_eq_true ended
    refine ⟨s, run, fun exclusive => ?_⟩
    cases exclusive.1 0 1 _ _ ended.1 ended.2
  case late =>
    obtain ⟨s, run, ended⟩ := @exists_run_of_exec _ _ step (start {})
      ([.call 0 .moduleInit, .proceed 0, .proceed 0] ++ wholeCall 1 .moduleInit ++
        [.proceed 0, .proceed 0])
      (fun s => (.moduleInit, .init) ∈ s.begun) (by decide)
    refine ⟨s, run, fun exclusive => ?_⟩
    cases exclusive.2 _ _ (of_decide_eq_true ended)

end CalledModule

end ExLibs.Module
