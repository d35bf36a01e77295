/-
# How long a service is waited for

`StopServiceByName` asks a service to stop and then looks every 200 milliseconds whether it has. It
counts what it has waited in a `DWORD`, which goes round before it comes to the longest times that a
caller can ask for. `RestartService` calls `StartServiceByName` after five seconds at the latest,
whatever has come of the stop. What the service control manager answers is left open.
-/
import Mathlib.Tactic.NormNum
import ExLibs.Math.Loop

namespace ExLibs.Windows.Service

open ExLibs.Math

/-- The values of `dwCurrentState`. -/
inductive ScmState
  | stopped
  | startPending
  | stopPending
  | running
  | continuePending
  | pausePending
  | paused
  deriving DecidableEq

/-- `AppendLastError`. -/
def appendLastError (what : String) (code : ℕ) : String :=
  what ++ " (code=" ++ toString code ++ ")"

/-- `DWORD`. -/
abbrev Dword := BitVec 32

/-- The local variables of the wait: what has been waited, and how often. -/
structure StopWait where
  dwWaited : Dword
  sleeps : ℕ

namespace StopWait

def start : StopWait := ⟨0, 0⟩

/-- A turn of the wait, with what `QueryServiceStatus` finds after a number of sleeps, if it does
not fail. The wait returns how often it has slept. -/
def turn (dwWaitMsec : Dword) (query : ℕ → Option ScmState) (wait : StopWait) : ℕ ⊕ StopWait :=
  if wait.dwWaited < dwWaitMsec then
    match query wait.sleeps with
    | none | some .stopped => .inl wait.sleeps
    | some _ => .inr ⟨wait.dwWaited + 200, wait.sleeps + 1⟩
  else .inl wait.sleeps

/-- The wait is over after a number of sleeps. -/
def Over (dwWaitMsec : Dword) (query : ℕ → Option ScmState) (n : ℕ) : Prop :=
  dwWaitMsec.toNat ≤ 200 * n % 2 ^ 32 ∨ query n = none ∨ query n = some .stopped

variable {dwWaitMsec : Dword} {query : ℕ → Option ScmState} {n : ℕ}

/-- The wait after some sleeps. -/
def after (n : ℕ) : StopWait := ⟨BitVec.ofNat 32 (200 * n), n⟩

theorem lt_after_iff : (after n).dwWaited < dwWaitMsec ↔
    200 * n % 2 ^ 32 < dwWaitMsec.toNat := by
  rw [BitVec.lt_def, after, BitVec.toNat_ofNat]

theorem turn_of_over (past : Over dwWaitMsec query n) :
    (after n).turn dwWaitMsec query = .inl n := by
  have found : (after n).sleeps = n := rfl
  unfold turn
  split
  · next early =>
    rcases past with late | fails | stopped
    · exact absurd (lt_after_iff.mp early) (not_lt.mpr late)
    · rw [found, fails]
    · rw [found, stopped]
  · rfl

theorem turn_of_not_over (on : ¬ Over dwWaitMsec query n) :
    (after n).turn dwWaitMsec query = .inr (after (n + 1)) := by
  obtain ⟨early, answers⟩ := not_or.mp on
  obtain ⟨answers, runs⟩ := not_or.mp answers
  obtain ⟨state, found⟩ := Option.ne_none_iff_exists'.mp answers
  have next : (⟨(after n).dwWaited + 200, (after n).sleeps + 1⟩ : StopWait) = after (n + 1) := by
    simp only [after, mk.injEq, and_true]
    rw [Nat.mul_succ, BitVec.ofNat_add]
    rfl
  have found' : query (after n).sleeps = some state := found
  rw [turn, if_pos (lt_after_iff.mpr (not_le.mp early)), found', next]
  rw [found] at runs
  cases state with
  | stopped => exact absurd rfl runs
  | _ => rfl

/-- The wait comes past every sleep before it is over. -/
theorem reaches (on : ∀ i < n, ¬ Over dwWaitMsec query i) :
    Reaches (turn dwWaitMsec query) start (after n) := by
  induction n with
  | zero => exact .refl
  | succ n ih =>
    refine .tail (ih fun i before => on i (Nat.lt_succ_of_lt before)) ?_
    exact turn_of_not_over (on n (Nat.lt_succ_self n))

/-- The wait after some sleeps before which it has not been over. -/
def Counted (dwWaitMsec : Dword) (query : ℕ → Option ScmState) (wait : StopWait) : Prop :=
  ∃ n, wait = after n ∧ ∀ i < n, ¬ Over dwWaitMsec query i

theorem counted_of_reaches {wait : StopWait}
    (reached : Reaches (turn dwWaitMsec query) start wait) : Counted dwWaitMsec query wait := by
  have initial : Counted dwWaitMsec query start := ⟨0, rfl, nofun⟩
  -- the number of sleeps says how far the count has come, also once it has gone round
  refine reached.invariant initial ?_
  rintro _ later ⟨n, rfl, on⟩ turned
  by_cases past : Over dwWaitMsec query n
  · cases (turn_of_over past).symm.trans turned
  · obtain rfl := Sum.inr.inj ((turn_of_not_over past).symm.trans turned)
    refine ⟨n + 1, rfl, fun i before => ?_⟩
    rcases Nat.lt_succ_iff_lt_or_eq.mp before with older | rfl
    · exact on i older
    · exact past

/-- How often a wait sleeps. -/
theorem returns_iff : Returns (turn dwWaitMsec query) start n ↔
    Over dwWaitMsec query n ∧ ∀ i < n, ¬ Over dwWaitMsec query i := by
  constructor
  · intro returns
    obtain ⟨wait, reached, last⟩ := returns.exists_reaches
    obtain ⟨m, rfl, on⟩ := counted_of_reaches reached
    by_cases past : Over dwWaitMsec query m
    · obtain rfl := Sum.inl.inj ((turn_of_over past).symm.trans last)
      exact ⟨past, on⟩
    · cases (turn_of_not_over past).symm.trans last
  · rintro ⟨past, on⟩
    exact (reaches on).leads.returns (.of_turn (turn_of_over past))

open Classical in
/-- A wait that is over some time ends, and not later. -/
theorem exists_returns (past : Over dwWaitMsec query n) :
    ∃ m ≤ n, Returns (turn dwWaitMsec query) start m := by
  have ends : ∃ m, Over dwWaitMsec query m := ⟨n, past⟩
  exact ⟨Nat.find ends, Nat.find_min' ends past,
    returns_iff.mpr ⟨Nat.find_spec ends, fun i before => Nat.find_min ends before⟩⟩

/-- A wait ends if the service stops, a query fails, or the count comes to what is asked for, which
is up to the largest multiple of eight. -/
theorem exists_returns_iff : (∃ n, Returns (turn dwWaitMsec query) start n) ↔
      dwWaitMsec.toNat ≤ 2 ^ 32 - 8 ∨ ∃ n, query n = none ∨ query n = some .stopped := by
  constructor
  · rintro ⟨n, returns⟩
    rcases (returns_iff.mp returns).1 with late | stops
    · left
      omega
    · exact .inr ⟨n, stops⟩
  · rintro (fits | ⟨n, stops⟩)
    · -- the count comes to the largest multiple of eight, once it has gone round
      have whole : 200 * 493921239 % 2 ^ 32 = 2 ^ 32 - 8 := by norm_num
      obtain ⟨m, -, returns⟩ := @exists_returns dwWaitMsec query 493921239 (.inl (whole ▸ fits))
      exact ⟨m, returns⟩
    · obtain ⟨m, -, returns⟩ := exists_returns (.inr stops)
      exact ⟨m, returns⟩

/-- Up to the largest multiple of 200 the count comes to what is asked for before it goes round. -/
theorem exists_returns_lt (fits : dwWaitMsec.toNat ≤ 2 ^ 32 - 96) :
    ∃ n, Returns (turn dwWaitMsec query) start n ∧ 200 * n < dwWaitMsec.toNat + 200 := by
  have past : Over dwWaitMsec query ((dwWaitMsec.toNat + 199) / 200) := by
    left
    omega
  obtain ⟨n, early, returns⟩ := exists_returns past
  refine ⟨n, returns, ?_⟩
  omega

/-- Behind it the count comes to what is asked for only after it has gone round. -/
theorem le_of_returns_lt (returns : Returns (turn dwWaitMsec fun _ => some .running) start n)
    (short : 200 * n < dwWaitMsec.toNat + 200) : dwWaitMsec.toNat ≤ 2 ^ 32 - 96 := by
  rcases (returns_iff.mp returns).1 with late | fails | stopped
  · rcases Nat.lt_or_ge (200 * n) (2 ^ 32) with small | round
    · rw [Nat.mod_eq_of_lt small] at late
      omega
    · omega
  · cases fails
  · cases stopped

end StopWait

/-- What the calls to the system come to in `StopServiceByName`: the errors of those before the
wait, and what `QueryServiceStatus` finds after a number of sleeps. -/
structure StopOutcomes where
  openSCManager : Option ℕ := none
  openService : Option ℕ := none
  controlService : Option ℕ := none
  query : ℕ → Option ScmState

/-- `StopServiceByName`, with how often it has slept. The fuel is for the wait. -/
def stopServiceByName (fuel : ℕ) (os : StopOutcomes) (dwWaitMsec : Dword) :
    Option (Except String Unit × ℕ) :=
  match os.openSCManager with
  | some code => some (.error (appendLastError "OpenSCManager failed" code), 0)
  | none =>
    match os.openService with
    | some code => some (.error (appendLastError "OpenService failed" code), 0)
    | none =>
      match os.controlService with
      | some code =>
        -- `ERROR_SERVICE_NOT_ACTIVE`
        if code = 1062 then some (.ok (), 0)
        else some (.error (appendLastError "ControlService(STOP) failed" code), 0)
      -- it does not matter how the wait ends
      | none => (loop (StopWait.turn dwWaitMsec os.query) fuel .start).map fun n => (.ok (), n)

section Stop

variable {os : StopOutcomes} {fuel : ℕ} {dwWaitMsec : Dword}

/-- The service is asked to stop. -/
def StopOutcomes.Asks (os : StopOutcomes) : Prop :=
  os.openSCManager = none ∧ os.openService = none ∧ os.controlService = none

theorem stopServiceByName_of_asks (asks : os.Asks) : stopServiceByName fuel os dwWaitMsec =
    (loop (StopWait.turn dwWaitMsec os.query) fuel .start).map fun n => (.ok (), n) := by
  obtain ⟨manager, service, control⟩ := asks
  rw [stopServiceByName, manager, service, control]

/-- A service that is not asked to stop is not waited for. -/
theorem stopServiceByName_of_not_asks (fails : ¬ os.Asks) :
    ∃ result, stopServiceByName fuel os dwWaitMsec = some (result, 0) := by
  unfold stopServiceByName
  split
  · exact ⟨_, rfl⟩
  · split
    · exact ⟨_, rfl⟩
    · split
      · split <;> exact ⟨_, rfl⟩
      · next manager _ service _ control => exact absurd ⟨manager, service, control⟩ fails

/-- `StopServiceByName` returns if and only if the service is not asked to stop, it stops, a query
fails, or what is asked for is none of the last seven numbers that a `DWORD` can hold: what is
counted up by 200 is a multiple of eight. -/
theorem stopServiceByName_returns_iff (os : StopOutcomes) (dwWaitMsec : Dword) :
    (∃ fuel stopped, stopServiceByName fuel os dwWaitMsec = some stopped) ↔
      (os.Asks → dwWaitMsec.toNat ≤ 2 ^ 32 - 8 ∨
        ∃ n, os.query n = none ∨ os.query n = some .stopped) := by
  rw [← StopWait.exists_returns_iff]
  constructor
  · rintro ⟨fuel, stopped, returns⟩ asks
    rw [stopServiceByName_of_asks asks] at returns
    obtain ⟨n, returns, -⟩ := Option.map_eq_some_iff.mp returns
    exact ⟨n, fuel, returns⟩
  · intro ends
    by_cases asks : os.Asks
    · obtain ⟨n, fuel, returns⟩ := ends asks
      exact ⟨fuel, _, (stopServiceByName_of_asks asks).trans (congrArg _ returns)⟩
    · obtain ⟨result, returns⟩ := stopServiceByName_of_not_asks asks
      exact ⟨0, _, returns⟩

/-- Every service is waited for at most as long as was asked for, in whole sleeps, if and only if
what is asked for is at most the largest multiple of 200 that a `DWORD` can hold. -/
theorem stopServiceByName_waits_iff (dwWaitMsec : Dword) :
    (∀ os, ∃ fuel result sleeps, stopServiceByName fuel os dwWaitMsec = some (result, sleeps) ∧
      200 * sleeps < dwWaitMsec.toNat + 200) ↔ dwWaitMsec.toNat ≤ 2 ^ 32 - 96 := by
  constructor
  · intro all
    -- a service that never stops is waited for until the count has come far enough
    obtain ⟨fuel, result, sleeps, returns, short⟩ := all { query := fun _ => some .running }
    rw [stopServiceByName_of_asks ⟨rfl, rfl, rfl⟩] at returns
    obtain ⟨n, counted, same⟩ := Option.map_eq_some_iff.mp returns
    obtain ⟨-, rfl⟩ := Prod.mk.inj same
    exact StopWait.le_of_returns_lt ⟨fuel, counted⟩ short
  · intro fits os
    by_cases asks : os.Asks
    · obtain ⟨n, ⟨fuel, returns⟩, short⟩ := @StopWait.exists_returns_lt _ os.query fits
      exact ⟨fuel, _, n, (stopServiceByName_of_asks asks).trans (congrArg _ returns), short⟩
    · obtain ⟨result, returns⟩ := stopServiceByName_of_not_asks asks
      exact ⟨0, result, 0, returns, Nat.lt_add_left _ (by decide)⟩

end Stop

/-- The errors of the calls to the system in `StartServiceByName`, if they fail. -/
structure StartOutcomes where
  openSCManager : Option ℕ := none
  openService : Option ℕ := none
  startService : Option ℕ := none

/-- `StartServiceByName`. -/
def startServiceByName (os : StartOutcomes) : Except String Unit :=
  match os.openSCManager with
  | some code => .error (appendLastError "OpenSCManager failed" code)
  | none =>
    match os.openService with
    | some code => .error (appendLastError "OpenService failed" code)
    | none =>
      match os.startService with
      | some code => .error (appendLastError "StartService failed" code)
      | none => .ok ()

/-- `RestartService`, where the calls of `StartServiceByName` come after a number of sleeps. -/
def restartService (fuel : ℕ) (stop : StopOutcomes) (start : ℕ → StartOutcomes) :
    Option (Except String Unit) :=
  (stopServiceByName fuel stop 5000).map fun stopped => startServiceByName (start stopped.2)

section Restart

variable {query : ℕ → Option ScmState}

/-- When the five seconds of a restart are over. -/
theorem over_iff {n : ℕ} (within : n ≤ 25) : StopWait.Over 5000 query n ↔
    n = 25 ∨ query n = none ∨ query n = some .stopped := by
  have five : (5000 : Dword).toNat = 5000 := rfl
  have small : 200 * n < 2 ^ 32 := by omega
  refine or_congr_left ?_
  rw [five, Nat.mod_eq_of_lt small]
  omega

/-- `RestartService` returns, with what `StartServiceByName` comes to after some sleeps: none if the
service is not asked to stop, and otherwise as many as pass until it is found to have stopped or a
query fails, but 25 at most. -/
theorem restartService_returns (stop : StopOutcomes) (start : ℕ → StartOutcomes) :
    ∃ n ≤ 25, (∃ fuel, restartService fuel stop start = some (startServiceByName (start n))) ∧
      (¬ stop.Asks → n = 0) ∧
      (stop.Asks → (n = 25 ∨ stop.query n = none ∨ stop.query n = some .stopped) ∧
        ∀ i < n, stop.query i ≠ none ∧ stop.query i ≠ some .stopped) := by
  by_cases asks : stop.Asks
  · -- 25 sleeps are the five seconds, and the wait is over then or before
    have past : StopWait.Over 5000 stop.query 25 := .inl (by decide)
    obtain ⟨n, early, returns⟩ := StopWait.exists_returns past
    obtain ⟨ended, on⟩ := StopWait.returns_iff.mp returns
    obtain ⟨fuel, returns⟩ := returns
    refine ⟨n, early, ⟨fuel, ?_⟩, absurd asks, fun _ => ⟨(over_iff early).mp ended, ?_⟩⟩
    · rw [restartService, stopServiceByName_of_asks asks, returns]
      rfl
    · intro i before
      have runs := mt (over_iff (before.le.trans early)).mpr (on i before)
      exact not_or.mp (not_or.mp runs).2
  · obtain ⟨result, returns⟩ := @stopServiceByName_of_not_asks stop 0 5000 asks
    refine ⟨0, Nat.zero_le _, ⟨0, ?_⟩, fun _ => rfl, fun asks' => absurd asks' asks⟩
    rw [restartService, returns]
    rfl

end Restart

end ExLibs.Windows.Service
