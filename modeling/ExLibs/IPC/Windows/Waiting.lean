/-
# The wait for the client

A worker that has responded looks into the slot of its client until `isDone` is set there. The
loop is to run for at most `timeout` iterations, but nothing counts `nCheckTime` up: once it has
begun, it ends at an iteration that finds the slot gone or done, and at no other. What the
client stores as `timeout` is a point in time, and so always positive.
-/
import ExLibs.IPC.Windows.Worker
import ExLibs.Math.Loop
import ExLibs.Math.Transition

namespace ExLibs.IPC.Windows

open ExLibs.Math

/-- What an iteration of the wait meets. -/
inductive Look
  /-- `OpenFileMapping` does not find the slot. -/
  | unopened
  /-- `MapViewOfFile` fails. -/
  | unmapped
  | seen (isDone : Bool)
  deriving DecidableEq

/-- The calls of a worker in such an iteration. -/
def Look.labels : Look → List WorkerLabel
  | unopened => [.os false]
  | unmapped => [.os true, .os false]
  | seen isDone => [.os true, .os true, .look isDone]

/-- The variables of the wait: its counter, and the number of the iterations that are over. -/
structure Wait where
  nCheckTime : ℤ
  iterations : ℕ

namespace Wait

/-- A wait begins. -/
def start : Wait := ⟨0, 0⟩

/-- The head of the loop and an iteration, in which the client does as the number of the
iteration says. The loop returns how many iterations it has begun. -/
def turn (timeout : ℤ) (client : ℕ → Look) (wait : Wait) : ℕ ⊕ Wait :=
  if wait.nCheckTime < timeout then
    match client wait.iterations with
    | .unopened | .unmapped | .seen true => .inl (wait.iterations + 1)
    -- the mapping is closed again, and `nCheckTime` stays as it is
    | .seen false => .inr { wait with iterations := wait.iterations + 1 }
  else .inl wait.iterations

/-- The wait ends after a number of iterations. -/
def Ends (timeout : ℤ) (client : ℕ → Look) : Prop :=
  ∃ iterations, Returns (turn timeout client) start iterations

variable {timeout : ℤ} {client : ℕ → Look} {wait : Wait} {n : ℕ}

theorem turn_of_expired (expired : timeout ≤ wait.nCheckTime) :
    wait.turn timeout client = .inl wait.iterations := if_neg (not_lt.mpr expired)

theorem turn_of_unfinished (early : wait.nCheckTime < timeout)
    (unfinished : client wait.iterations = .seen false) :
    wait.turn timeout client = .inr { wait with iterations := wait.iterations + 1 } := by
  rw [turn, if_pos early, unfinished]

theorem turn_of_exit (early : wait.nCheckTime < timeout)
    (exits : client wait.iterations ≠ .seen false) :
    wait.turn timeout client = .inl (wait.iterations + 1) := by
  rw [turn, if_pos early]
  cases look : client wait.iterations with
  | unopened | unmapped => rfl
  | seen isDone =>
    cases isDone with
    | true => rfl
    | false => exact absurd look exits

/-- What a turn that does not return leaves behind. -/
theorem turn_eq_inr {wait' : Wait} (turned : wait.turn timeout client = .inr wait') :
    client wait.iterations = .seen false ∧
      wait' = { wait with iterations := wait.iterations + 1 } := by
  by_cases early : wait.nCheckTime < timeout
  · by_cases unfinished : client wait.iterations = .seen false
    · rw [turn_of_unfinished early unfinished] at turned
      exact ⟨unfinished, (Sum.inr.inj turned).symm⟩
    · rw [turn_of_exit early unfinished] at turned
      cases turned
  · rw [turn_of_expired (not_lt.mp early)] at turned
    cases turned

/-- The counter is zero, and every iteration so far has found the client unfinished. -/
structure Unfinished (client : ℕ → Look) (wait : Wait) : Prop where
  zero : wait.nCheckTime = 0
  looked : ∀ i < wait.iterations, client i = .seen false

/-- Wherever a wait comes to, it is unfinished. -/
theorem unfinished_of_reaches (reaches : Reaches (turn timeout client) start wait) :
    wait.Unfinished client := by
  have initial : start.Unfinished client := ⟨rfl, nofun⟩
  refine reaches.invariant initial fun earlier later unfinished turned => ?_
  obtain ⟨look, rfl⟩ := turn_eq_inr turned
  refine ⟨unfinished.zero, fun i before => ?_⟩
  rcases Nat.lt_succ_iff_lt_or_eq.mp before with older | rfl
  · exact unfinished.looked i older
  · exact look

/-- A wait comes past every iteration before the first that leaves it. -/
theorem reaches (positive : 0 < timeout) (unfinished : ∀ i < n, client i = .seen false) :
    Reaches (turn timeout client) start ⟨0, n⟩ := by
  induction n with
  | zero => exact .refl
  | succ n ih =>
    refine .tail (ih fun i before => unfinished i (Nat.lt_succ_of_lt before)) ?_
    exact turn_of_unfinished positive (unfinished n (Nat.lt_succ_self n))

/-- How many iterations a wait takes: none, or all up to the first that leaves it. -/
theorem returns_iff : Returns (turn timeout client) start n ↔
    timeout ≤ 0 ∧ n = 0 ∨ 0 < timeout ∧ ∃ i, n = i + 1 ∧ client i ≠ .seen false ∧
      ∀ j < i, client j = .seen false := by
  constructor
  · intro returns
    obtain ⟨wait, reached, last⟩ := returns.exists_reaches
    have unfinished := unfinished_of_reaches reached
    by_cases early : wait.nCheckTime < timeout
    · by_cases again : client wait.iterations = .seen false
      · rw [turn_of_unfinished early again] at last
        cases last
      · rw [turn_of_exit early again] at last
        have positive : 0 < timeout := unfinished.zero ▸ early
        exact .inr ⟨positive, _, (Sum.inl.inj last).symm, again, unfinished.looked⟩
    · -- the counter is still zero, so the loop has not begun
      have expired : timeout ≤ 0 := unfinished.zero ▸ not_lt.mp early
      have first : Returns (turn timeout client) start 0 := .of_turn (turn_of_expired expired)
      exact .inl ⟨expired, returns.unique first⟩
  · rintro (⟨expired, rfl⟩ | ⟨positive, i, rfl, exits, unfinished⟩)
    · exact .of_turn (turn_of_expired expired)
    · exact (reaches positive unfinished).leads.returns (.of_turn (turn_of_exit positive exits))

section Worker

variable {view : ℕ} {isStop : Bool} {reqMapping : ℕ → List Byte} {job : Job} {look : Look}

/-- An iteration of a worker at the head of its wait. -/
theorem exec_look (positive : 0 < job.data.timeout) :
    exec (WorkerPc.proceed view isStop reqMapping) job.poll look.labels =
      some (if look = .seen false then job.poll else .busy .closeData job) := by
  have begins : job.poll = .busy .openPoll job := if_pos positive
  rw [begins]
  cases look with
  | unopened | unmapped => rfl
  | seen isDone =>
    cases isDone with
    | true => rfl
    | false => exact congrArg some begins

/-- As long as the client is unfinished, iterations take the worker back to the head of its
wait. -/
theorem exec_unfinished (positive : 0 < job.data.timeout)
    (unfinished : ∀ i < n, client i = .seen false) :
    exec (WorkerPc.proceed view isStop reqMapping) job.poll
      ((List.range n).flatMap fun i => (client i).labels) = some job.poll := by
  induction n with
  | zero => rfl
  | succ n ih =>
    rw [List.range_succ, List.flatMap_append, List.flatMap_singleton, exec_append,
      ih fun i before => unfinished i (Nat.lt_succ_of_lt before), Option.bind_some,
      exec_look positive, if_pos (unfinished n (Nat.lt_succ_self n))]

/-- A worker gets through its wait in the iterations that the loop takes. -/
theorem exec_of_returns (returns : Returns (turn job.data.timeout client) start n) :
    exec (WorkerPc.proceed view isStop reqMapping) job.poll
      ((List.range n).flatMap fun i => (client i).labels) = some (.busy .closeData job) := by
  rcases returns_iff.mp returns with ⟨expired, rfl⟩ | ⟨positive, i, rfl, exits, unfinished⟩
  · exact congrArg some (if_neg (not_lt.mpr expired))
  · rw [List.range_succ, List.flatMap_append, List.flatMap_singleton, exec_append,
      exec_unfinished positive unfinished, Option.bind_some, exec_look positive, if_neg exits]

end Worker

/-- A wait ends if and only if it does not begin, or some iteration finds the slot gone or the
client done. -/
theorem ends_iff_exits (timeout : ℤ) (client : ℕ → Look) :
    Ends timeout client ↔ timeout ≤ 0 ∨ ∃ i, client i ≠ .seen false := by
  simp only [Ends, returns_iff]
  constructor
  · rintro ⟨n, ⟨expired, -⟩ | ⟨-, i, -, exits, -⟩⟩
    · exact .inl expired
    · exact .inr ⟨i, exits⟩
  · intro exits
    rcases le_or_gt timeout 0 with expired | positive
    · exact ⟨0, .inl ⟨expired, rfl⟩⟩
    · have leaves : ∃ i, client i ≠ .seen false := exits.resolve_left (not_le.mpr positive)
      refine ⟨Nat.find leaves + 1, .inr ⟨positive, _, rfl, Nat.find_spec leaves, ?_⟩⟩
      intro j before
      exact not_not.mp (Nat.find_min leaves before)

/-- A client that never sets `isDone` and keeps its slot. -/
theorem not_ends_of_unfinished : ¬ ∀ timeout client, Ends timeout client := by
  intro all
  have ends := (all 1 fun _ => .seen false).imp fun _ => returns_iff.mp
  simp at ends

end Wait

end ExLibs.IPC.Windows
