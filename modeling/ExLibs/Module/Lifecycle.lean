/-
# What the lifecycle calls of a module amount to

One thread makes lifecycle calls on a module. If the hooks all succeed, the hooks that have
run when the module is destroyed are a legal sequence exactly if the module was never stopped
while it was stopped, and is destroyed where it is new, stopped or final: the destructor stops
a started module without finalizing it, and `ModuleFinal` refuses an initialized one.

If hooks may fail, the state of the module is the one that the calls have reported exactly if
no hook fails, but for that of a second stop: a failing hook does not keep the state from
being set.
-/
import ExLibs.Module.Base

namespace ExLibs.Module

open ExLibs.Math
open scoped Computability

/-- Where a module is in a legal sequence of hooks. -/
inductive Place
  | idle
  | ready
  | started
  deriving DecidableEq

/-- What a hook leads to. -/
def Place.next : Place → Hook → Option Place
  | .idle, .moduleInit => some .ready
  | .ready, .moduleStart => some .started
  | .ready, .moduleFinal => some .idle
  | .started, .moduleStop => some .ready
  | _, _ => none

/-- The words `(moduleStart moduleStop)*`. -/
def activities : Language Hook := {[.moduleStart, .moduleStop]}∗

/-- The words `(moduleInit (moduleStart moduleStop)* moduleFinal)*`. -/
def legalHooks : Language Hook := ({[.moduleInit]} * activities * {[.moduleFinal]})∗

/-- The words that lead from a place to the one where a module is idle. -/
def Place.rest : Place → Language Hook
  | .idle => legalHooks
  | .ready => activities * ({[.moduleFinal]} * legalHooks)
  | .started => {[.moduleStop]} * (activities * ({[.moduleFinal]} * legalHooks))

section Words

variable {place next : Place} {hook : Hook} {word : List Hook}

theorem cons_mem_mul {language : Language Hook} (member : word ∈ language) :
    hook :: word ∈ ({[hook]} : Language Hook) * language :=
  Language.mem_mul.mpr ⟨[hook], rfl, word, member, rfl⟩

theorem cons_mem_rest (leads : place.next hook = some next) (member : word ∈ next.rest) :
    hook :: word ∈ place.rest := by
  cases place <;> cases hook <;> cases leads
  case idle =>
    have unfolded : ({[.moduleInit]} : Language Hook) * Place.ready.rest ≤ legalHooks := by
      rw [Place.rest, ← mul_assoc, ← mul_assoc]
      exact mul_kstar_le_kstar
    exact unfolded (cons_mem_mul member)
  case ready.moduleStart =>
    have cycle : ({[.moduleStart]} : Language Hook) * {[.moduleStop]} =
        {[.moduleStart, .moduleStop]} :=
      Set.image2_singleton
    have unfolded : ({[.moduleStart]} : Language Hook) * Place.started.rest ≤
        Place.ready.rest := by
      rw [Place.rest, Place.rest, ← mul_assoc, ← mul_assoc, cycle]
      exact mul_le_mul_left mul_kstar_le_kstar _
    exact unfolded (cons_mem_mul member)
  case ready.moduleFinal =>
    have unfolded : ({[.moduleFinal]} : Language Hook) * legalHooks ≤ Place.ready.rest :=
      le_mul_of_one_le_left' one_le_kstar
    exact unfolded (cons_mem_mul member)
  case started => exact cons_mem_mul member

/-- What leads back to where it starts from is legal. -/
theorem mem_rest_of_exec (leads : exec Place.next place word = some .idle) : word ∈ place.rest := by
  induction word generalizing place with
  | nil =>
    obtain rfl := Option.some.inj leads
    exact Language.nil_mem_kstar _
  | cons hook word ih =>
    obtain ⟨next, first, others⟩ := Option.bind_eq_some_iff.mp leads
    exact cons_mem_rest first (ih others)

theorem exec_activity (member : word ∈ activities) : exec Place.next .ready word = some .ready := by
  obtain ⟨cycles, rfl, each⟩ := Language.mem_kstar.mp member
  clear member
  induction cycles with
  | nil => rfl
  | cons cycle cycles ih =>
    obtain rfl : cycle = [.moduleStart, .moduleStop] := each cycle List.mem_cons_self
    exact ih (List.forall_mem_of_forall_mem_cons each)

/-- Legal sequences are those that the places admit. -/
theorem mem_legalHooks_iff : word ∈ legalHooks ↔ exec Place.next .idle word = some .idle := by
  constructor
  · intro member
    obtain ⟨lives, rfl, each⟩ := Language.mem_kstar.mp member
    clear member
    induction lives with
    | nil => rfl
    | cons life lives ih =>
      obtain ⟨front, front_mem, last, rfl, rfl⟩ :=
        Language.mem_mul.mp (each life List.mem_cons_self)
      obtain ⟨first, rfl, word, member, rfl⟩ := Language.mem_mul.mp front_mem
      have others := ih (List.forall_mem_of_forall_mem_cons each)
      rw [List.flatten_cons, exec_append, exec_append, exec_append]
      change (((exec Place.next .ready word).bind _).bind _) = _
      rw [exec_activity member]
      exact others
  · exact mem_rest_of_exec

end Words

/-- A module and what its lifecycle calls have reported: the state that the last one to return
`true` is for. -/
structure Usage where
  base : ModuleBase
  reported : ModuleState

namespace Usage

/-- A module that is not used yet. -/
def start : Usage := ⟨{}, .none⟩

/-- A lifecycle call, with what its hook returns. -/
def step (s : Usage) (call : Hook × Bool) : Option Usage :=
  let (isSuccess, base) := s.base.call call.1 call.2
  some { base, reported := if isSuccess then call.1.target else s.reported }

variable {s t : Usage} {call : Hook × Bool} {calls : List (Hook × Bool)}

/-- What a call does. -/
inductive Step (s : Usage) : Hook × Bool → Usage → Prop
  | refused {hook : Hook} {succeeds : Bool} (refused : s.base.admits hook = false) :
      Step s (hook, succeeds) s
  | runs {hook : Hook} {succeeds : Bool} (admitted : s.base.admits hook = true) :
      Step s (hook, succeeds)
        { base := { s.base with
            hooks := s.base.hooks ++ [hook], eState := hook.target, isRunning := false },
          reported := if succeeds then hook.target else s.reported }

theorem step_cases (next : s.step call = some t) : Step s call t := by
  obtain ⟨hook, succeeds⟩ := call
  rw [step, ModuleBase.call_eq] at next
  cases admitted : s.base.admits hook with
  | false =>
    rw [ModuleBase.lifecycle_of_not_admits admitted] at next
    obtain rfl := Option.some.inj next
    exact .refused admitted
  | true =>
    rw [ModuleBase.lifecycle_of_admits admitted] at next
    obtain rfl := Option.some.inj next
    exact .runs admitted

section Legal

/-- Where a module in a state is in its legal sequence. -/
def place : ModuleState → Place
  | .none | .final => .idle
  | .init | .stop => .ready
  | .start => .started

/-- A module that is stopped is not stopped again. -/
def NoSecondStop (s : Usage) (call : Hook × Bool) : Prop :=
  call.1 = .moduleStop → s.base.getModuleState ≠ .stop

/-- The state of a module tells where it is, as long as its hooks are legal. -/
structure Placed (s : Usage) : Prop where
  idle : s.base.isRunning = false
  at_place : ∀ p, exec Place.next .idle s.base.hooks = some p → p = place s.base.eState

/-- The hooks that have run are the beginning of a legal sequence. -/
def Legal (s : Usage) : Prop :=
  exec Place.next .idle s.base.hooks = some (place s.base.eState)

variable {hook : Hook} {state : ModuleState} {p q : Place}

theorem eq_place_of_next (leads : p.next hook = some q) : q = place hook.target := by
  cases p <;> cases hook <;> cases leads <;> rfl

/-- What a call lets through is legal, but for a second stop. -/
theorem next_place_iff (admitted : hook.refuses state = false) :
    (place state).next hook = some (place hook.target) ↔ (hook = .moduleStop → state ≠ .stop) := by
  revert admitted
  cases hook <;> cases state <;> decide

theorem Placed.keep (placed : s.Placed) (next : s.step call = some t) : t.Placed := by
  cases step_cases next with
  | refused => exact placed
  | @runs hook succeeds admitted =>
    refine ⟨rfl, fun p leads => ?_⟩
    rw [exec_concat, Option.bind_eq_some_iff] at leads
    obtain ⟨before, -, leads⟩ := leads
    exact eq_place_of_next leads

theorem placed_of_run {allowed : Usage → Hook × Bool → Prop}
    (run : Run step allowed start calls s) : s.Placed := by
  refine run.invariant ⟨rfl, fun p leads => ?_⟩ fun s call t placed _ next => placed.keep next
  exact (Option.some.inj leads).symm

/-- A call keeps to the legal sequences unless it stops a stopped module. -/
theorem legal_iff_of_step (placed : s.Placed) (next : s.step call = some t) :
    t.Legal ↔ s.Legal ∧ s.NoSecondStop call := by
  cases step_cases next with
  | @refused hook succeeds refused =>
    refine (and_iff_left ?_).symm
    rintro rfl stopped
    rw [ModuleBase.admits, placed.idle, stopped] at refused
    cases refused
  | @runs hook succeeds admitted =>
    have runs := next_place_iff (ModuleBase.admits_iff.mp admitted).2
    constructor
    · intro legal
      rw [Legal, exec_concat, Option.bind_eq_some_iff] at legal
      obtain ⟨before, earlier, leads⟩ := legal
      obtain rfl := placed.at_place before earlier
      exact ⟨earlier, runs.mp leads⟩
    · rintro ⟨legal, noStop⟩
      rw [Legal, exec_concat, legal]
      exact runs.mpr noStop

/-- The hooks that the destructor runs. -/
def closing : ModuleState → List Hook
  | .start => [.moduleStop]
  | .stop => [.moduleFinal]
  | .none | .init | .final => []

theorem hooks_destroy (m : ModuleBase) : m.destroy.hooks = m.hooks ++ closing m.eState := by
  obtain ⟨name, group, isStop, isRunning, state, hooks⟩ := m
  cases state <;>
    simp [ModuleBase.destroy, ModuleBase.getModuleState, closing, ModuleBase.moduleStop,
      ModuleBase.moduleFinal, ModuleBase.lifecycle, Hook.refuses, ModuleBase.setModuleState]

theorem exec_closing_iff :
    exec Place.next (place state) (closing state) = some .idle ↔
      state = .none ∨ state = .stop ∨ state = .final := by
  cases state <;> decide

/-- The hooks of a module that is used and destroyed are a legal sequence exactly if it is not
stopped while it is stopped, and destroyed where it is new, stopped or final. -/
theorem mem_legalHooks_iff_noSecondStop (run : Run step Free start calls s) :
    s.base.destroy.hooks ∈ legalHooks ↔
      Run step NoSecondStop start calls s ∧
        (s.base.eState = .none ∨ s.base.eState = .stop ∨ s.base.eState = .final) := by
  have placed := placed_of_run run
  have legal : s.Legal ↔ Run step NoSecondStop start calls s :=
    run.good_iff rfl fun _ _ _ _ earlier => legal_iff_of_step (placed_of_run earlier)
  rw [mem_legalHooks_iff, hooks_destroy, exec_append, ← legal, ← exec_closing_iff,
    Option.bind_eq_some_iff]
  constructor
  · rintro ⟨before, earlier, leads⟩
    obtain rfl := placed.at_place before earlier
    exact ⟨earlier, leads⟩
  · rintro ⟨earlier, leads⟩
    exact ⟨_, earlier, leads⟩

/-- A module that is started and stopped. -/
theorem mem_legalHooks_stopped : ∃ s, Run step Free start
    [(.moduleInit, true), (.moduleStart, true), (.moduleStop, true)] s ∧
    (s.base.destroy.hooks ∈ legalHooks ↔ Run step NoSecondStop start
      [(.moduleInit, true), (.moduleStart, true), (.moduleStop, true)] s ∧
        (s.base.eState = .none ∨ s.base.eState = .stop ∨ s.base.eState = .final)) := by
  obtain ⟨s, run, -⟩ := @exists_run_of_exec _ _ step start
    [(.moduleInit, true), (.moduleStart, true), (.moduleStop, true)] (fun _ => true) (by decide)
  exact ⟨s, run, mem_legalHooks_iff_noSecondStop run⟩

/-- The destructor does not finalize a module that is initialized or started, and a module may
be stopped twice. -/
theorem not_mem_legalHooks :
    (∃ s, Run step Free start [(.moduleInit, true)] s ∧ s.base.destroy.hooks ∉ legalHooks) ∧
    (∃ s, Run step Free start [(.moduleInit, true), (.moduleStart, true)] s ∧
      s.base.destroy.hooks ∉ legalHooks) ∧
    ∃ s, Run step Free start [(.moduleInit, true), (.moduleStart, true), (.moduleStop, true),
      (.moduleStop, true), (.moduleFinal, true)] s ∧ s.base.destroy.hooks ∉ legalHooks := by
  have ends (calls : List (Hook × Bool)) (illegal : (exec step start calls).any (fun s =>
      exec Place.next .idle s.base.destroy.hooks ≠ some .idle) = true) :
      ∃ s, Run step Free start calls s ∧ s.base.destroy.hooks ∉ legalHooks := by
    obtain ⟨s, run, ended⟩ := exists_run_of_exec illegal
    exact ⟨s, run, fun member => of_decide_eq_true ended (mem_legalHooks_iff.mp member)⟩
  exact ⟨ends _ (by decide), ends _ (by decide), ends _ (by decide)⟩

end Legal

section Truthful

/-- The module is in the state that its calls have reported. -/
def Truthful (s : Usage) : Prop := s.base.getModuleState = s.reported

/-- A call that gets to its hook succeeds, or stops a stopped module. -/
def Sincere (s : Usage) (call : Hook × Bool) : Prop :=
  s.base.admits call.1 = true →
    call.2 = true ∨ call.1 = .moduleStop ∧ s.base.getModuleState = .stop

/-- The only call that is let through in the state it is for is a second stop. -/
theorem target_eq_iff {hook : Hook} {state : ModuleState} (admitted : hook.refuses state = false) :
    hook.target = state ↔ hook = .moduleStop ∧ state = .stop := by
  revert admitted
  cases hook <;> cases state <;> decide

theorem truthful_iff_of_step (truthful : s.Truthful) (next : s.step call = some t) :
    t.Truthful ↔ s.Sincere call := by
  cases step_cases next with
  | @refused hook succeeds refused =>
    refine iff_of_true truthful fun admitted => ?_
    cases refused.symm.trans admitted
  | @runs hook succeeds admitted =>
    cases succeeds with
    | true => exact iff_of_true rfl fun _ => .inl rfl
    | false =>
      have reported : s.base.getModuleState = s.reported := truthful
      have second := target_eq_iff (ModuleBase.admits_iff.mp admitted).2
      constructor
      · intro set _
        exact .inr (second.mp (Eq.trans set reported.symm))
      · intro sincere
        have same := (sincere admitted).resolve_left Bool.false_ne_true
        exact (second.mpr same).trans reported

/-- The state of a module is always the one that its calls have reported exactly if no hook
fails but that of a second stop. -/
theorem truthful_iff_sincere :
    Run step (fun s _ => s.Truthful) start calls s ∧ s.Truthful ↔
      Run step Sincere start calls s :=
  Run.always_iff rfl fun _ _ _ => truthful_iff_of_step

/-- A module whose `moduleInit` fails is initialized. -/
theorem not_truthful_of_failure :
    ∃ s, Run step Free start [(.moduleInit, false)] s ∧ ¬ s.Truthful := by
  obtain ⟨s, run, ended⟩ := @exists_run_of_exec _ _ step start [(.moduleInit, false)]
    (fun s => s.base.getModuleState ≠ s.reported) (by decide)
  have untrue : s.base.getModuleState ≠ s.reported := of_decide_eq_true ended
  exact ⟨s, run, untrue⟩

end Truthful

end Usage

end ExLibs.Module
