/-
# Guarded runs of a labelled transition function

A system is a partial function taking a state and a label to the next state. A
run records the labels it took and the state it reached, and may be held to a
condition on every step: the condition looks at the state the step leaves and at
its label, never at the state it enters.

Three rules carry a development from one step to whole runs: an invariant that
every allowed step keeps holds wherever a run gets, a run of one system maps to a
run of another that simulates it, and a property that a step breaks exactly when
it is not allowed holds at the end of a run exactly when every step was allowed.
-/
import Mathlib.Data.List.Induction
import Mathlib.Logic.Function.Basic
import Mathlib.Tactic.TypeStar

namespace ExLibs.Math

variable {State Label State' Label' : Type*}

/-- A run of `step` from `start`: the labels taken, in order, and the state
reached. Every step satisfies `allowed` in the state it leaves. -/
inductive Run (step : State → Label → Option State) (allowed : State → Label → Prop)
    (start : State) : List Label → State → Prop
  | nil : Run step allowed start [] start
  | snoc {labels : List Label} {s t : State} {a : Label}
      (earlier : Run step allowed start labels s) (permitted : allowed s a)
      (next : step s a = some t) : Run step allowed start (labels ++ [a]) t

/-- No condition on the steps of a run. -/
def Free (_ : State) (_ : Label) : Prop := True

/-- Take the labels one after the other, failing at the first that is not
enabled. -/
def exec (step : State → Label → Option State) : State → List Label → Option State
  | s, [] => some s
  | s, a :: rest => (step s a).bind fun t => exec step t rest

theorem exec_append (step : State → Label → Option State) (s : State) (front back : List Label) :
    exec step s (front ++ back) = (exec step s front).bind fun t => exec step t back := by
  induction front generalizing s with
  | nil => rfl
  | cons a front ih =>
    simp only [List.cons_append, exec]
    cases step s a with
    | none => rfl
    | some t => exact ih t

theorem exec_concat (step : State → Label → Option State) (s : State) (labels : List Label)
    (a : Label) :
    exec step s (labels ++ [a]) = (exec step s labels).bind fun t => step t a := by
  simp only [exec_append, exec, Option.bind_fun_some]

namespace Run

variable {step : State → Label → Option State} {allowed weaker : State → Label → Prop}
  {start s t : State} {labels : List Label} {a : Label}

/-- A property of the start that every allowed step keeps, given that the state
it leaves was reached, holds wherever a run gets. -/
theorem invariant_of_reached {Inv : State → Prop} (initial : Inv start)
    (keep : ∀ labels s a t, Run step allowed start labels s → Inv s → allowed s a →
      step s a = some t → Inv t)
    (run : Run step allowed start labels s) : Inv s := by
  induction run with
  | nil => exact initial
  | snoc earlier permitted next ih => exact keep _ _ _ _ earlier ih permitted next

/-- A property of the start that every allowed step keeps holds wherever a run
gets. -/
theorem invariant {Inv : State → Prop} (initial : Inv start)
    (keep : ∀ s a t, Inv s → allowed s a → step s a = some t → Inv t)
    (run : Run step allowed start labels s) : Inv s :=
  run.invariant_of_reached initial fun _ s a t _ => keep s a t

/-- A condition may be relaxed. -/
theorem mono (relax : ∀ s a, allowed s a → weaker s a)
    (run : Run step allowed start labels s) : Run step weaker start labels s := by
  induction run with
  | nil => exact .nil
  | snoc _ permitted next ih => exact .snoc ih (relax _ _ permitted) next

/-- Every run is a run with no condition. -/
theorem free (run : Run step allowed start labels s) : Run step Free start labels s :=
  run.mono fun _ _ _ => trivial

/-- A run goes on from where another got. -/
theorem trans {labels' : List Label} (first : Run step allowed start labels s)
    (rest : Run step allowed s labels' t) : Run step allowed start (labels ++ labels') t := by
  induction rest with
  | nil => exact (List.append_nil labels).symm ▸ first
  | snoc _ permitted next ih => exact List.append_assoc .. ▸ .snoc ih permitted next

/-- Executing the labels of a run leads where the run got. -/
theorem exec_eq (run : Run step allowed start labels s) : exec step start labels = some s := by
  induction run with
  | nil => rfl
  | snoc _ _ next ih => rw [exec_concat, ih, Option.bind_some, next]

/-- The labels of a run determine where it gets. -/
theorem unique (first : Run step allowed start labels s) (second : Run step weaker start labels t) :
    s = t :=
  Option.some.inj (first.exec_eq.symm.trans second.exec_eq)

/-- The last step of a run. -/
theorem of_concat (run : Run step allowed start (labels ++ [a]) t) :
    ∃ s, Run step allowed start labels s ∧ allowed s a ∧ step s a = some t := by
  generalize whole : labels ++ [a] = taken at run
  cases run with
  | nil => simp at whole
  | snoc earlier permitted next =>
    obtain ⟨rfl, same⟩ := List.append_inj' whole rfl
    obtain rfl := List.singleton_inj.mp same
    exact ⟨_, earlier, permitted, next⟩

/-- As the labels lead to one state only, it does not matter whether a law is about every state
that they lead to or about some. -/
theorem forall_iff_exists {Good : State → Prop} (run : Run step Free start labels s)
    (account : Good s ↔ Run step allowed start labels s) :
    (∀ t, Run step Free start labels t → Good t) ↔ ∃ t, Run step allowed start labels t := by
  constructor
  · intro all
    exact ⟨s, account.mp (all s run)⟩
  · rintro ⟨t, permitted⟩ t' run'
    obtain rfl := run.unique run'
    obtain rfl := run.unique permitted
    exact account.mpr permitted

/-- When each step of a run keeps `Good` exactly if it is allowed, a run ends in a good
state exactly if every step of it was allowed. The run may be held to a condition of its
own. -/
theorem good_iff_of_held {held : State → Label → Prop} {Good : State → Prop}
    (initial : Good start)
    (exactly : ∀ labels s a t, Run step held start labels s → held s a → step s a = some t →
      (Good t ↔ Good s ∧ allowed s a))
    (run : Run step held start labels s) : Good s ↔ Run step allowed start labels s := by
  induction run with
  | nil => exact ⟨fun _ => .nil, fun _ => initial⟩
  | @snoc labels s t a earlier permits next ih =>
    rw [exactly _ _ _ _ earlier permits next, ih]
    constructor
    · rintro ⟨guarded, permitted⟩
      exact .snoc guarded permitted next
    · intro guarded
      obtain ⟨s', guarded', permitted, -⟩ := guarded.of_concat
      obtain rfl := earlier.unique guarded'
      exact ⟨guarded', permitted⟩

/-- When each step keeps `Good` exactly if it is allowed, a run ends in a good
state exactly if every step of it was allowed. -/
theorem good_iff {Good : State → Prop} (initial : Good start)
    (exactly : ∀ labels s a t, Run step Free start labels s → step s a = some t →
      (Good t ↔ Good s ∧ allowed s a))
    (run : Run step Free start labels s) : Good s ↔ Run step allowed start labels s :=
  run.good_iff_of_held initial fun labels s a t earlier _ => exactly labels s a t earlier

/-- When a step from a good state leads to a good state exactly if it is allowed, every state
of a run is good exactly if every step of it was allowed. -/
theorem always_iff {Good : State → Prop} (initial : Good start)
    (exactly : ∀ s a t, Good s → step s a = some t → (Good t ↔ allowed s a)) :
    Run step (fun s _ => Good s) start labels s ∧ Good s ↔ Run step allowed start labels s := by
  constructor
  · rintro ⟨run, good⟩
    induction run with
    | nil => exact .nil
    | snoc earlier before next ih =>
      exact .snoc (ih before) ((exactly _ _ _ before next).mp good) next
  · intro run
    induction run with
    | nil => exact ⟨.nil, initial⟩
    | snoc _ permitted next ih =>
      exact ⟨.snoc ih.1 ih.2 next, (exactly _ _ _ ih.2 next).mpr permitted⟩

/-- When allowed steps keep an invariant of which `Good` is a consequence, and others lead to
states that are not good, every state of a run is good exactly if every step of it was allowed. The
run may be held to a condition of its own. -/
theorem always_iff_of_held {held : State → Label → Prop} {Inv Good : State → Prop}
    (initial : Inv start)
    (keep : ∀ s a t, Inv s → held s a → allowed s a → step s a = some t → Inv t)
    (good : ∀ s, Inv s → Good s)
    (needed : ∀ s a t, Inv s → held s a → step s a = some t → Good t → allowed s a) :
    Run step (fun s a => held s a ∧ Good s) start labels s ∧ Good s ↔
      Run step (fun s a => held s a ∧ allowed s a) start labels s := by
  have keep' : ∀ s a t, Inv s → held s a ∧ allowed s a → step s a = some t → Inv t :=
    fun s a t inv permitted => keep s a t inv permitted.1 permitted.2
  constructor
  · rintro ⟨run, last⟩
    induction run with
    | nil => exact .nil
    | snoc _ before next ih =>
      have permitted := ih before.2
      have inv := permitted.invariant initial keep'
      exact .snoc permitted ⟨before.1, needed _ _ _ inv before.1 next last⟩ next
  · intro run
    refine ⟨?_, good _ (run.invariant initial keep')⟩
    induction run with
    | nil => exact .nil
    | snoc earlier permitted next ih =>
      exact .snoc ih ⟨permitted.1, good _ (earlier.invariant initial keep')⟩ next

/-- When allowed steps keep an invariant of which `Good` is a consequence, and others lead to
states that are not good, every state of a run is good exactly if every step of it was allowed. -/
theorem always_iff_of_invariant {Inv Good : State → Prop} (initial : Inv start)
    (keep : ∀ s a t, Inv s → allowed s a → step s a = some t → Inv t)
    (good : ∀ s, Inv s → Good s)
    (needed : ∀ s a t, Inv s → step s a = some t → Good t → allowed s a) :
    Run step (fun s _ => Good s) start labels s ∧ Good s ↔ Run step allowed start labels s := by
  have both := @always_iff_of_held _ _ step allowed start s labels Free Inv Good initial
    (fun s a t inv _ => keep s a t inv) good (fun s a t inv _ => needed s a t inv)
  simpa only [Free, true_and] using both

/-- A run that ends outside the states from which no step leads has avoided them all along. -/
theorem avoids {Dead : State → Prop} (stuck : ∀ s a, Dead s → step s a = none)
    (run : Run step allowed start labels s) (alive : ¬ Dead s) :
    Run step (fun s a => ∀ t, step s a = some t → ¬ Dead t) start labels s := by
  induction run with
  | nil => exact .nil
  | @snoc labels s t a _ _ next ih =>
    have before : ¬ Dead s := fun dead => nomatch (stuck s a dead).symm.trans next
    refine .snoc (ih before) (fun t' next' => ?_) next
    obtain rfl := Option.some.inj (next.symm.trans next')
    exact alive

/-- A run maps to a run of any system that answers each step by no step or by
one. -/
theorem simulate {step' : State' → Label' → Option State'} (view : State → State')
    (answer : ∀ labels s a t, Run step allowed start labels s → allowed s a →
      step s a = some t → view t = view s ∨ ∃ b, step' (view s) b = some (view t))
    (run : Run step allowed start labels s) :
    ∃ labels', Run step' Free (view start) labels' (view s) := by
  induction run with
  | nil => exact ⟨[], .nil⟩
  | snoc earlier permitted next ih =>
    obtain ⟨labels', earlier'⟩ := ih
    rcases answer _ _ _ _ earlier permitted next with same | ⟨b, next'⟩
    · exact ⟨labels', same ▸ earlier'⟩
    · exact ⟨labels' ++ [b], .snoc earlier' trivial next'⟩

end Run

/-- A sequence of labels that executes is a run. -/
theorem run_of_exec {step : State → Label → Option State} {start s : State} {labels : List Label}
    (executes : exec step start labels = some s) : Run step Free start labels s := by
  induction labels using List.reverseRecOn generalizing s with
  | nil =>
    obtain rfl := Option.some.inj executes
    exact .nil
  | append_singleton labels a ih =>
    rw [exec_concat, Option.bind_eq_some_iff] at executes
    obtain ⟨t, earlier, last⟩ := executes
    exact .snoc (ih earlier) trivial last

/-- A run begins with a run along the first of its labels, and executes the others. -/
theorem Run.exists_of_append {step : State → Label → Option State}
    {allowed : State → Label → Prop} {start s : State} {front back : List Label}
    (run : Run step allowed start (front ++ back) s) :
    ∃ t, Run step Free start front t ∧ exec step t back = some s := by
  have executes := run.exec_eq
  rw [exec_append, Option.bind_eq_some_iff] at executes
  obtain ⟨t, first, rest⟩ := executes
  exact ⟨t, run_of_exec first, rest⟩

section Moves

variable {Party Place : Type*} [DecidableEq Party] {places : Party → Place} {mover party : Party}
  {target place : Place}

/-- Where the parties of a system are when one of them has moved. -/
theorem moved_eq_iff : Function.update places mover target party = place ↔
    party = mover ∧ target = place ∨ party ≠ mover ∧ places party = place := by
  rw [Function.update_apply, ite_eq_iff]

/-- A party stays where it is when one moves that is elsewhere. -/
theorem moved_eq_of_ne (elsewhere : places mover ≠ place) (there : places party = place) :
    Function.update places mover target party = place := by
  refine moved_eq_iff.mpr (.inr ⟨?_, there⟩)
  rintro rfl
  exact elsewhere there

end Moves

/-- A test that a sequence of labels passes at its end holds in a state some run
reaches. -/
theorem exists_run_of_exec {step : State → Label → Option State} {start : State}
    {labels : List Label} {test : State → Bool}
    (passes : (exec step start labels).any test = true) :
    ∃ s, Run step Free start labels s ∧ test s = true := by
  obtain ⟨s, executes, holds⟩ := (Option.any_eq_true _ _).mp passes
  exact ⟨s, run_of_exec executes, holds⟩

/-- Enable a step only when it passes a test. -/
def guarded (step : State → Label → Option State) (test : State → Label → Bool) :
    State → Label → Option State :=
  fun s a => if test s a then step s a else none

/-- A sequence of labels that executes with every step tested is a run held to any
condition that the test ensures. -/
theorem exists_run_of_guarded {step : State → Label → Option State}
    {allowed : State → Label → Prop} {test : State → Label → Bool}
    (sound : ∀ s a, test s a = true → allowed s a) {start : State} {labels : List Label}
    {final : State → Bool} (passes : (exec (guarded step test) start labels).any final = true) :
    ∃ s, Run step allowed start labels s ∧ final s = true := by
  obtain ⟨s, run, holds⟩ := exists_run_of_exec passes
  refine ⟨s, ?_, holds⟩
  clear passes holds
  induction run with
  | nil => exact .nil
  | @snoc labels s t a _ _ next ih =>
    rw [guarded, Option.ite_none_right_eq_some] at next
    exact .snoc ih (sound s a next.1) next.2

end ExLibs.Math
