/-
# Sockets of a server

The sockets that a server has accepted are at each moment waiting to be put into the
map, in the map, or released: a socket is released once at most. `DisConnectAll`
releases the sockets of the map one by one and clears the map in the end. The
destructor leaves no socket behind as long as the listen thread puts none into the map
once its `DisConnectAll` is over.
-/
import Mathlib.Data.List.Count
import ExLibs.Network.Server.Teardown

namespace ExLibs.Network

open ExLibs.Math

namespace Server

/-- What a thread has to do with sockets. -/
inductive Role
  | aside
  /-- It has accepted a socket. -/
  | accepted (client : ℕ)
  | inserting (client : ℕ)
  /-- It disconnects a client, for `DisConnectAll` one of several. -/
  | working (job : Disconnecting)
  /-- It has disconnected everyone and clears the map. -/
  | clearing

/-- The role of a thread. -/
def role : ServerPc → Role
  | .wantInsert client => .accepted client
  | .inserting client => .inserting client
  | .stop job | .joinReceive job | .reset job | .joinHandler job | .disconnect job => .working job
  | .unlock true => .clearing
  | .absent | .loop | .polling | .callback | .closing | .resetting | .joiningHandler | .wantLock _
  | .unlock false | .joinListen | .ended => .aside

/-- The sockets of the map that are still to be released, given the role of the holder of
the lock. -/
def unreleased (map : List ℕ) : Role → List ℕ
  | .working ⟨client, some later⟩ => client :: later
  | .clearing => []
  | .working ⟨_, none⟩ | .aside | .accepted _ | .inserting _ => map

/-- The sockets that are still to be released. -/
def owed (s : Server) : List ℕ :=
  match s.lckClientMap with
  | some holder => unreleased s.mapUUIDToClientInfo (role (s.pc holder))
  | none => s.mapUUIDToClientInfo

/-- The socket that the listen thread has accepted and not put into the map. -/
def pending : Role → List ℕ
  | .accepted client | .inserting client => [client]
  | .aside | .working _ | .clearing => []

/-- Each accepted socket is accounted for once, and `DisConnect` is about a socket of the
map. -/
structure Tally (s : Server) : Prop where
  count : ∀ client, s.released.count client + s.owed.count client +
    (pending (role (s.pc .listen))).count client = if client < s.accepted then 1 else 0
  member : ∀ thread client, role (s.pc thread) = .working ⟨client, none⟩ →
    client ∈ s.mapUUIDToClientInfo

variable {s t : Server} {label : TeardownLabel} {thread : ServerThread}
  {pc old : ServerPc}

theorem holding_of_working {job : Disconnecting} (working : role pc = .working job) :
    pc.holding = true := by
  cases pc <;> first | rfl | cases working

theorem holding_of_inserting {client : ℕ} (inserting : role pc = .inserting client) :
    pc.holding = true := by
  cases pc with
  | unlock clear => rfl
  | inserting => rfl
  | _ => cases inserting

theorem role_of_looping (loops : pc.looping = true) : role pc = .aside := by
  cases pc <;> first | rfl | cases loops

theorem role_after (thread : ServerThread) : role (after thread) = .aside := by
  cases thread <;> rfl

/-- A thread that keeps its role leaves the roles as they are. -/
theorem role_of_moved (moves : t.pc = Function.update s.pc thread pc)
    (same : role pc = role (s.pc thread)) (other : ServerThread) :
    role (t.pc other) = role (s.pc other) := by
  rw [moves]
  rcases eq_or_ne other thread with rfl | distinct
  · rw [Function.update_self, same]
  · rw [Function.update_of_ne distinct]

theorem owed_of_free (free : s.lckClientMap = none) : s.owed = s.mapUUIDToClientInfo := by
  rw [owed, free]

theorem owed_of_holder (holder : s.lckClientMap = some thread) :
    s.owed = unreleased s.mapUUIDToClientInfo (role (s.pc thread)) := by
  rw [owed, holder]

theorem owed_of_holding (held : s.Held) (before : s.pc thread = old) (holds : old.holding = true) :
    s.owed = unreleased s.mapUUIDToClientInfo (role old) := by
  rw [owed_of_holder ((held thread).mp (before ▸ holds)), before]

/-- What is owed when a thread that has the lock has moved. -/
theorem owed_of_moved (moves : t.pc = Function.update s.pc thread pc)
    (holder : t.lckClientMap = some thread) :
    t.owed = unreleased t.mapUUIDToClientInfo (role pc) := by
  rw [owed_of_holder holder, moves, Function.update_self]

theorem owed_of_same (moves : t.pc = Function.update s.pc thread pc)
    (same : role pc = role (s.pc thread)) (lock : t.lckClientMap = s.lckClientMap)
    (map : t.mapUUIDToClientInfo = s.mapUUIDToClientInfo) : t.owed = s.owed := by
  rw [owed, lock, map, owed]
  cases s.lckClientMap with
  | none => rfl
  | some holder => exact congrArg (unreleased _) (role_of_moved moves same holder)

/-- A thread that does not have the lock leaves what is owed. -/
theorem owed_of_outside (held : s.Held) (moves : t.pc = Function.update s.pc thread pc)
    (outside : (s.pc thread).holding = false) (lock : t.lckClientMap = s.lckClientMap)
    (map : t.mapUUIDToClientInfo = s.mapUUIDToClientInfo) : t.owed = s.owed := by
  rw [owed, lock, map, owed]
  cases free : s.lckClientMap with
  | none => rfl
  | some holder =>
    have others : holder ≠ thread := by
      rintro rfl
      exact Bool.false_ne_true (outside.symm.trans ((held holder).mpr free))
    exact congrArg (unreleased _ <| role ·) (moves ▸ Function.update_of_ne others ..)

/-- A step after which as much is accounted for as before. -/
theorem Tally.moved (tally : s.Tally) (moves : t.pc = Function.update s.pc thread pc)
    (accepts : t.accepted = s.accepted)
    (waits : pending (role pc) = pending (role (s.pc thread)))
    (balance : ∀ client, t.released.count client + t.owed.count client =
      s.released.count client + s.owed.count client)
    (own : ∀ client, role pc = .working ⟨client, none⟩ → client ∈ t.mapUUIDToClientInfo)
    (others : ∀ other ≠ thread, ∀ client, role (s.pc other) = .working ⟨client, none⟩ →
      client ∈ t.mapUUIDToClientInfo) : t.Tally := by
  constructor
  · intro client
    have waiting : pending (role (t.pc .listen)) = pending (role (s.pc .listen)) := by
      rw [moves]
      rcases eq_or_ne .listen thread with rfl | distinct
      · rw [Function.update_self, waits]
      · rw [Function.update_of_ne distinct]
    rw [balance, waiting, accepts]
    exact tally.count client
  · intro other client working
    rw [moves] at working
    rcases eq_or_ne other thread with rfl | distinct
    · rw [Function.update_self] at working
      exact own client working
    · rw [Function.update_of_ne distinct] at working
      exact others other distinct client working

/-- The thread that has the lock moves on, and keeps the lock. -/
theorem Tally.movedHolder (held : s.Held) (tally : s.Tally)
    (moves : t.pc = Function.update s.pc thread pc) (accepts : t.accepted = s.accepted)
    (lock : t.lckClientMap = s.lckClientMap) (before : s.pc thread = old)
    (holds : old.holding = true) (waits : pending (role pc) = pending (role old))
    (balance : ∀ client, t.released.count client +
        (unreleased t.mapUUIDToClientInfo (role pc)).count client =
      s.released.count client + (unreleased s.mapUUIDToClientInfo (role old)).count client)
    (own : ∀ client, role pc = .working ⟨client, none⟩ → client ∈ t.mapUUIDToClientInfo)
    (others : ∀ other ≠ thread, ∀ client, role (s.pc other) = .working ⟨client, none⟩ →
      client ∈ t.mapUUIDToClientInfo) : t.Tally := by
  subst before
  have holder := (held thread).mp holds
  refine tally.moved moves accepts waits ?_ own others
  intro client
  rw [owed_of_moved moves (lock.trans holder), owed_of_holder holder]
  exact balance client

/-- Sockets are accounted for as long as threads keep their roles. -/
theorem Tally.aside (tally : s.Tally) (before : s.pc thread = old) (same : role pc = role old) :
    (s.goto thread pc).Tally := by
  subst before
  refine tally.moved rfl rfl (congrArg pending same) ?_ ?_ ?_
  · intro client
    have owes : (s.goto thread pc).owed = s.owed := owed_of_same rfl same rfl rfl
    exact congrArg (_ + ·.count client) owes
  · intro client working
    exact tally.member thread client (same ▸ working)
  · intro other _ client
    exact tally.member other client

/-- A call that has just got the lock has released nothing yet. -/
theorem unreleased_enter (call : LockedCall) :
    unreleased s.mapUUIDToClientInfo (role (s.enter call)) = s.mapUUIDToClientInfo := by
  unfold enter
  split <;> (try split) <;> simp_all [unreleased, role]

/-- `DisConnect` is about a client that it has found. -/
theorem mem_of_enter {call : LockedCall} {client : ℕ}
    (working : role (s.enter call) = .working ⟨client, none⟩) : client ∈ s.mapUUIDToClientInfo := by
  cases call with
  | disConnect sUUID =>
    simp only [enter] at working
    split at working
    · rename_i found
      simp only [role, Role.working.injEq, Disconnecting.mk.injEq, and_true] at working
      exact working ▸ List.mem_of_find?_eq_some found
    · cases working
  | disConnectAll =>
    simp only [enter] at working
    split at working <;> cases working
  | send => cases working

theorem pending_enter (call : LockedCall) : pending (role (s.enter call)) = [] := by
  rcases s.enter_cases call with ⟨job, entered⟩ | ⟨clear, entered⟩
  · rw [entered]
    rfl
  · rw [entered]
    cases clear <;> rfl

/-- Only the holder of the lock works on a client. -/
theorem not_working_of_held (held : s.Held) (before : s.pc thread = old)
    (holds : old.holding = true) {other : ServerThread} (others : other ≠ thread)
    {job : Disconnecting} : role (s.pc other) ≠ .working job := by
  intro working
  have idle := held.idle (before ▸ holds) others
  exact Bool.false_ne_true (idle.symm.trans (holding_of_working working))

/-- The listen thread puts its client into the map. -/
theorem Tally.inserted (held : s.Held) (tally : s.Tally) {client : ℕ}
    (inserting : s.pc .listen = .inserting client) (lock : t.lckClientMap = s.lckClientMap)
    (accepts : t.accepted = s.accepted) (releases : t.released = s.released)
    (map : t.mapUUIDToClientInfo = s.mapUUIDToClientInfo ++ [client])
    (listens : role (t.pc .listen) = .aside)
    (others : ∀ other job, role (t.pc other) = .working job → role (s.pc other) = .working job) :
    t.Tally := by
  have holder := (held .listen).mp (by rw [inserting]; rfl)
  constructor
  · intro other
    have before := tally.count other
    rw [owed_of_holding held inserting rfl, inserting] at before
    rw [owed_of_holder (lock.trans holder), listens, releases, accepts, map]
    refine Eq.trans ?_ before
    change _ + (s.mapUUIDToClientInfo ++ [client]).count other + 0 =
      _ + s.mapUUIDToClientInfo.count other + [client].count other
    rw [List.count_append, Nat.add_zero, Nat.add_assoc]
  · intro other client working
    rw [map]
    exact List.mem_append_left _ (tally.member other client (others other _ working))

theorem Tally.keep (held : s.Held) (tally : s.Tally) (next : s.step label = some t) :
    t.Tally := by
  have count := tally.count
  have member := tally.member
  cases step_cases next with
  | move loops other polls looping onward =>
    have before := role_of_looping looping
    refine tally.aside rfl (before ▸ ?_)
    rcases onward with loops | rfl | rfl
    · exact role_of_looping loops
    · rfl
    · rfl
  | round before onward =>
    rcases onward with rfl | rfl
    · exact Tally.aside (s := { s with info := none }) ⟨count, member⟩ before rfl
    · exact Tally.aside (s := { s with info := none }) ⟨count, member⟩ before rfl
  | accept polling =>
    constructor
    · intro client
      have owes := owed_of_outside (t := { s.goto .listen (.wantInsert s.accepted) with
        accepted := s.accepted + 1 }) held rfl (by rw [polling]; rfl) rfl rfl
      have before := count client
      rw [polling] at before
      rw [owes]
      simp only [pc_goto, Function.update_self, role, pending, List.count_singleton] at before ⊢
      change s.released.count client + _ + _ = _
      simp only [List.count_nil, beq_iff_eq] at before ⊢
      split_ifs at before ⊢ <;> omega
    · intro other client working
      rcases eq_or_ne other .listen with rfl | distinct
      · simp only [pc_goto, Function.update_self] at working
        cases working
      · simp only [pc_goto, Function.update_of_ne distinct] at working
        exact member other client working
  | callApplication ready => exact tally.aside ready rfl
  | callHandler ready => exact tally.aside ready rfl
  | destroy ready =>
    exact Tally.aside (s := { s with isStop := true }) ⟨count, member⟩ ready rfl
  | @lock thread call free wanting =>
    refine tally.moved rfl rfl ?_ ?_ (fun client => s.mem_of_enter) fun other _ => member other
    · rw [s.pending_enter, wanting]
      rfl
    · intro client
      rw [owed_of_moved rfl rfl, owed_of_free free]
      exact congrArg (_ + ·.count client) (s.unreleased_enter call)
  | lockInsert free wanting =>
    refine tally.moved rfl rfl (by rw [wanting]; rfl) ?_ nofun fun other _ => member other
    intro client
    rw [owed_of_moved rfl rfl, owed_of_free free]
    rfl
  | @insert client sUUID inserting =>
    refine tally.inserted held inserting rfl rfl rfl rfl ?_ ?_
    · simp [pc_goto, role]
    · intro other job working
      simp only [pc_goto, Function.update_apply] at working
      split_ifs at working
      · cases working
      · cases working
      · cases working
      · exact working
  | stopAlone stop =>
    exact Tally.aside (s := (s.stopReceive _).release _) ⟨count, member⟩ stop rfl
  | stopJoin stop =>
    exact Tally.aside (s := s.stopReceive _) ⟨count, member⟩ stop rfl
  | joinedReceive joining =>
    exact Tally.aside (s := s.release _) ⟨count, member⟩ joining rfl
  | resetJoin reset =>
    exact Tally.aside (s := s.takeHandler _) ⟨count, member⟩ reset rfl
  | resetNone reset => exact tally.aside reset rfl
  | joinedHandler joining => exact tally.aside joining rfl
  | @disConnect thread client disconnect =>
    have found := member thread client (by rw [disconnect]; rfl)
    refine tally.movedHolder held rfl rfl rfl disconnect rfl rfl ?_ nofun ?_
    · intro other
      change (s.released ++ [client]).count other + (s.mapUUIDToClientInfo.erase client).count other
        = s.released.count other + s.mapUUIDToClientInfo.count other
      have least := List.count_pos_iff.mpr found
      rw [List.count_append, List.count_erase, List.count_singleton]
      split_ifs with same
      · obtain rfl := eq_of_beq same
        omega
      · omega
    · intro other others _ working
      -- no other thread works on a client, as that takes the lock
      exact absurd working (not_working_of_held held disconnect rfl others)
  | disConnectLast disconnect =>
    refine tally.movedHolder held rfl rfl rfl disconnect rfl rfl ?_ nofun
      fun other _ => member other
    intro other
    exact congrArg (· + 0) List.count_append
  | @disConnectNext thread client follower later disconnect =>
    refine tally.movedHolder held rfl rfl rfl disconnect rfl rfl ?_ nofun
      fun other _ => member other
    intro other
    change (s.released ++ [client]).count other + (follower :: later).count other =
      s.released.count other + (client :: follower :: later).count other
    rw [List.count_append, Nat.add_assoc, ← List.count_append, List.singleton_append]
  | @unlock thread clear unlock =>
    refine tally.moved rfl rfl ?_ ?_ ?_ ?_
    · rw [role_after, unlock]
      cases clear <;> rfl
    · intro client
      rw [owed_of_free rfl, owed_of_holding held unlock rfl]
      cases clear <;> rfl
    · intro client working
      rw [role_after] at working
      cases working
    · intro other others _ working
      exact absurd working (not_working_of_held held unlock rfl others)
  | detach closing =>
    exact Tally.aside (s := (s.stopReceive _).release _) ⟨count, member⟩ closing rfl
  | resetSelf resetting =>
    exact Tally.aside (s := s.takeHandler _) ⟨count, member⟩ resetting rfl
  | closed late =>
    rcases late with ⟨resetting, -⟩ | ⟨joining, -⟩
    · exact tally.aside resetting rfl
    · exact tally.aside joining rfl
  | joinedListen joining => exact tally.aside joining rfl

/-- The destructor is past its `DisConnectAll`. -/
def disconnected : ServerPc → Bool
  | .joinListen | .ended => true
  | _ => false

/-- The destructor does nothing but `DisConnectAll`. -/
def clearing : ServerPc → Bool
  | .stop job | .joinReceive job | .reset job | .joinHandler job | .disconnect job =>
    job.later.isSome
  | .loop | .wantLock .disConnectAll | .unlock true | .joinListen | .ended => true
  | _ => false

/-- The listen thread puts no client into the map once the destructor has disconnected
everyone. -/
def Timely (s : Server) : TeardownLabel → Prop
  | .lock .listen => disconnected (s.pc .destructor) = false
  | _ => True

/-- Once the destructor has disconnected everyone, the map stays empty. -/
structure Emptied (s : Server) : Prop where
  clearing : clearing (s.pc .destructor) = true
  empty : disconnected (s.pc .destructor) = true → s.mapUUIDToClientInfo = [] ∧
    s.owed = [] ∧ ∀ client, role (s.pc .listen) ≠ .inserting client
  exited : s.pc .destructor = .ended → s.pc .listen = .ended

theorem disconnected_enter (call : LockedCall) : disconnected (s.enter call) = false := by
  rcases s.enter_cases call with ⟨job, entered⟩ | ⟨clear, entered⟩ <;> rw [entered] <;> rfl

theorem not_inserting_enter (call : LockedCall) (client : ℕ) :
    role (s.enter call) ≠ .inserting client := by
  rcases s.enter_cases call with ⟨job, entered⟩ | ⟨clear, entered⟩
  · rw [entered]
    nofun
  · rw [entered]
    cases clear <;> nofun

theorem clearing_enter {call : LockedCall} (all : clearing (.wantLock call) = true) :
    clearing (s.enter call) = true := by
  cases call with
  | disConnectAll =>
    simp only [enter]
    split <;> rfl
  | _ => cases all

/-- The map stays empty while the destructor does not come to the end of its
`DisConnectAll`, and the listen thread comes to no insertion after that. -/
theorem Emptied.moved (emptied : s.Emptied) (moves : t.pc = Function.update s.pc thread pc)
    (running : s.pc thread ≠ .ended)
    (clears : thread = .destructor → Server.clearing pc = true ∧ disconnected pc = false)
    (empty : disconnected (s.pc .destructor) = true → s.mapUUIDToClientInfo = [] → s.owed = [] →
      t.mapUUIDToClientInfo = [] ∧ t.owed = [])
    (inserts : disconnected (s.pc .destructor) = true → thread = .listen →
      ∀ client, role pc ≠ .inserting client) : t.Emptied := by
  rcases eq_or_ne .destructor thread with rfl | distinct
  · have main : t.pc .destructor = pc := by rw [moves, Function.update_self]
    obtain ⟨all, unfinished⟩ := clears rfl
    refine ⟨main ▸ all, ?_, ?_⟩
    · intro finished
      rw [main, unfinished] at finished
      cases finished
    · intro ended
      rw [main] at ended
      rw [ended] at unfinished
      cases unfinished
  · have main : t.pc .destructor = s.pc .destructor := by
      rw [moves, Function.update_of_ne distinct]
    refine ⟨main ▸ emptied.clearing, ?_, ?_⟩
    · intro finished
      rw [main] at finished
      obtain ⟨map, owes, outside⟩ := emptied.empty finished
      obtain ⟨map', owes'⟩ := empty finished map owes
      refine ⟨map', owes', ?_⟩
      intro client
      rw [moves]
      rcases eq_or_ne .listen thread with rfl | others
      · rw [Function.update_self]
        exact inserts finished rfl client
      · rw [Function.update_of_ne others]
        exact outside client
    · intro ended
      have exited := emptied.exited (main ▸ ended)
      have others : ServerThread.listen ≠ thread := by
        rintro rfl
        exact running exited
      rw [moves, Function.update_of_ne others, exited]

/-- The map stays empty as long as threads keep their roles. -/
theorem Emptied.aside (emptied : s.Emptied) (before : s.pc thread = old)
    (same : role pc = role old) (running : old ≠ .ended)
    (clears : thread = .destructor → Server.clearing pc = true ∧ disconnected pc = false) :
    (s.goto thread pc).Emptied := by
  subst before
  refine emptied.moved rfl running clears ?_ ?_
  · intro _ map owes
    have unchanged : (s.goto thread pc).owed = s.owed := owed_of_same rfl same rfl rfl
    exact ⟨map, unchanged.trans owes⟩
  · rintro finished rfl client inserting
    exact (emptied.empty finished).2.2 client (same.symm.trans inserting)

/-- The map stays empty while the thread that has the lock keeps it. -/
theorem Emptied.movedHolder (held : s.Held) (emptied : s.Emptied)
    (moves : t.pc = Function.update s.pc thread pc) (lock : t.lckClientMap = s.lckClientMap)
    (before : s.pc thread = old) (holds : old.holding = true)
    (clears : thread = .destructor → Server.clearing pc = true ∧ disconnected pc = false)
    (empty : s.mapUUIDToClientInfo = [] → unreleased s.mapUUIDToClientInfo (role old) = [] →
      t.mapUUIDToClientInfo = [] ∧ unreleased t.mapUUIDToClientInfo (role pc) = [])
    (outside : ∀ client, role pc ≠ .inserting client) : t.Emptied := by
  have holder := (held thread).mp (before ▸ holds)
  have running : s.pc thread ≠ .ended := by
    rw [before]
    rintro rfl
    cases holds
  refine emptied.moved moves running clears ?_ fun _ _ => outside
  intro _ map owes
  rw [owed_of_holding held before holds] at owes
  rw [owed_of_moved moves (lock.trans holder)]
  exact empty map owes

/-- While the listen thread inserts, the destructor has yet to disconnect someone. -/
theorem Emptied.inserted (emptied : s.Emptied) {client : ℕ}
    (inserting : s.pc .listen = .inserting client)
    (main : t.pc .destructor = s.pc .destructor) : t.Emptied := by
  refine ⟨main ▸ emptied.clearing, ?_, ?_⟩
  · intro finished
    refine absurd ?_ ((emptied.empty (main ▸ finished)).2.2 client)
    rw [inserting]
    rfl
  · intro ended
    have exited := emptied.exited (main ▸ ended)
    rw [inserting] at exited
    cases exited

theorem clearing_of_working {job : Disconnecting} (working : role pc = .working job) :
    clearing pc = job.later.isSome ∧ disconnected pc = false := by
  cases pc with
  | unlock clear => cases clear <;> cases working
  | _ => cases working <;> exact ⟨rfl, rfl⟩

/-- The map stays empty while a thread disconnects a client. -/
theorem Emptied.working (emptied : s.Emptied) {job : Disconnecting}
    (before : role (s.pc thread) = .working job) (working : role pc = .working job) :
    (s.goto thread pc).Emptied := by
  refine emptied.aside rfl (working.trans before.symm) ?_ ?_
  · intro ended
    rw [ended] at before
    cases before
  · rintro rfl
    have same := (clearing_of_working before).1.symm.trans emptied.clearing
    obtain ⟨clears, unfinished⟩ := clearing_of_working working
    exact ⟨clears.trans same, unfinished⟩

theorem Emptied.keep (held : s.Held) (emptied : s.Emptied) (timely : s.Timely label)
    (next : s.step label = some t) : t.Emptied := by
  have all := emptied.clearing
  have empty := emptied.empty
  have exited := emptied.exited
  cases step_cases next with
  | @move label thread pc loops other polls looping onward =>
    have before := role_of_looping looping
    refine emptied.aside rfl (before ▸ ?_) ?_ fun main => absurd main other
    · rcases onward with loops | rfl | rfl
      · exact role_of_looping loops
      · rfl
      · rfl
    · intro ended
      rw [ended] at looping
      cases looping
  | round before onward =>
    rcases onward with rfl | rfl
    · exact Emptied.aside (s := { s with info := none }) ⟨all, empty, exited⟩ before rfl nofun nofun
    · exact Emptied.aside (s := { s with info := none }) ⟨all, empty, exited⟩ before rfl nofun nofun
  | accept polling =>
    refine emptied.moved rfl (by rw [polling]; nofun) nofun ?_ nofun
    intro _ map owes
    refine ⟨map, Eq.trans ?_ owes⟩
    exact owed_of_outside held rfl (by rw [polling]; rfl) rfl rfl
  | callApplication ready =>
    exact emptied.aside ready rfl nofun nofun
  | callHandler ready =>
    exact emptied.aside ready rfl nofun nofun
  | destroy ready =>
    exact Emptied.aside (s := { s with isStop := true }) ⟨all, empty, exited⟩
      ready rfl nofun fun _ => ⟨rfl, rfl⟩
  | @lock thread call free wanting =>
    refine emptied.moved rfl (by rw [wanting]; nofun) ?_ ?_ ?_
    · rintro rfl
      rw [wanting] at all
      exact ⟨clearing_enter all, disconnected_enter call⟩
    · intro _ map _
      refine ⟨map, ?_⟩
      rw [owed_of_moved rfl rfl]
      exact s.unreleased_enter call |>.trans map
    · intro _ _
      exact not_inserting_enter call
  | @lockInsert thread client free wanting =>
    -- the one step that has to be timely
    refine emptied.moved rfl (by rw [wanting]; nofun) ?_ ?_ ?_
    · rintro rfl
      rw [wanting] at all
      cases all
    · intro _ map _
      refine ⟨map, ?_⟩
      rw [owed_of_moved rfl rfl]
      exact map
    · rintro finished rfl
      exact absurd (timely.symm.trans finished) Bool.false_ne_true
  | insert inserting => exact emptied.inserted inserting (by simp [pc_goto])
  | stopAlone stop =>
    exact Emptied.working (s := (s.stopReceive _).release _) ⟨all, empty, exited⟩
      (congrArg role stop) rfl
  | stopJoin stop =>
    exact Emptied.working (s := s.stopReceive _) ⟨all, empty, exited⟩ (congrArg role stop) rfl
  | joinedReceive joining =>
    exact Emptied.working (s := s.release _) ⟨all, empty, exited⟩ (congrArg role joining) rfl
  | resetJoin reset =>
    exact Emptied.working (s := s.takeHandler _) ⟨all, empty, exited⟩ (congrArg role reset) rfl
  | resetNone reset => exact emptied.working (congrArg role reset) rfl
  | joinedHandler joining => exact emptied.working (congrArg role joining) rfl
  | @disConnect thread client disconnect =>
    refine emptied.movedHolder held rfl rfl disconnect rfl ?_ ?_ nofun
    · rintro rfl
      rw [disconnect] at all
      cases all
    · intro map _
      have erased : s.mapUUIDToClientInfo.erase client = [] := by rw [map, List.erase_nil]
      exact ⟨erased, erased⟩
  | disConnectLast disconnect =>
    exact emptied.movedHolder held rfl rfl disconnect rfl (fun _ => ⟨rfl, rfl⟩)
      (fun map _ => ⟨map, rfl⟩) nofun
  | disConnectNext disconnect =>
    exact emptied.movedHolder held rfl rfl disconnect rfl (fun _ => ⟨rfl, rfl⟩) nofun nofun
  | @unlock thread clear unlock =>
    rcases eq_or_ne thread .destructor with rfl | distinct
    · rw [unlock] at all
      obtain rfl : clear = true := by
        cases clear with
        | true => rfl
        | false => cases all
      refine ⟨by simp only [pc_goto, Function.update_self]; rfl, ?_, ?_⟩
      · intro _
        refine ⟨rfl, owed_of_free rfl, ?_⟩
        intro client inserting
        -- the listen thread would have the lock too
        have holds : (s.pc .destructor).holding = true := by rw [unlock]; rfl
        have listens : ServerThread.listen ≠ .destructor := nofun
        have idle := held.idle holds listens
        simp only [pc_goto, Function.update_of_ne listens] at inserting
        exact Bool.false_ne_true (idle.symm.trans (holding_of_inserting inserting))
      · intro ended
        simp only [pc_goto, Function.update_self] at ended
        cases ended
    · refine emptied.moved rfl (by rw [unlock]; nofun) (fun main => absurd main distinct) ?_ ?_
      · intro _ map _
        have cleared : (if clear then [] else s.mapUUIDToClientInfo) = [] := by
          rw [map, ite_self]
        exact ⟨cleared, (owed_of_free rfl).trans cleared⟩
      · intro _ _ client inserting
        rw [role_after] at inserting
        cases inserting
  | detach closing =>
    exact Emptied.aside (s := (s.stopReceive _).release _) ⟨all, empty, exited⟩
      closing rfl nofun nofun
  | resetSelf resetting =>
    exact Emptied.aside (s := s.takeHandler _) ⟨all, empty, exited⟩
      resetting rfl nofun nofun
  | closed late =>
    rcases late with ⟨resetting, -⟩ | ⟨joining, -⟩
    · exact emptied.aside resetting rfl nofun nofun
    · exact emptied.aside joining rfl nofun nofun
  | @joinedListen thread joining exited =>
    rcases eq_or_ne thread .destructor with rfl | distinct
    · have same : role .ended = role (s.pc .destructor) := by rw [joining]; rfl
      obtain ⟨map, owes, outside⟩ := empty (by rw [joining]; rfl)
      have unchanged : (s.goto .destructor .ended).owed = s.owed :=
        owed_of_same rfl same rfl rfl
      have listens : ServerThread.listen ≠ .destructor := nofun
      refine ⟨by simp [pc_goto, Server.clearing], fun _ => ⟨map, unchanged.trans owes, ?_⟩, ?_⟩
      · intro client
        rw [role_of_moved rfl same]
        exact outside client
      · intro _
        simpa only [pc_goto, Function.update_of_ne listens] using exited
    · exact emptied.aside joining rfl nofun fun main => absurd main distinct

theorem tally_start : start.Tally :=
  ⟨fun _ => rfl, fun thread _ at_ => by cases thread <;> cases at_⟩

theorem emptied_start : start.Emptied := ⟨rfl, nofun, nofun⟩

/-- What every run keeps. -/
theorem held_and_tally {labels : List TeardownLabel} (run : Run step Free start labels s) :
    s.Held ∧ s.Tally :=
  @Run.invariant _ _ step Free start s labels (fun s => s.Held ∧ s.Tally)
    ⟨held_start, tally_start⟩
    (fun _ _ _ inv _ next => ⟨inv.1.keep next, inv.2.keep inv.1 next⟩) run

/-- No socket is ever released twice. -/
theorem count_released_le_one {labels : List TeardownLabel}
    (run : Run step Free start labels s) (client : ℕ) : s.released.count client ≤ 1 := by
  have count := (held_and_tally run).2.count client
  split at count <;> omega

/-- When the listen thread puts no client into the map after the `DisConnectAll` of the
destructor, every accepted socket has been released once when the destructor has joined
it. -/
theorem released_once_of_timely {labels : List TeardownLabel}
    (run : Run step Timely start labels s) :
    (∀ client, s.released.count client ≤ 1) ∧
      (s.pc .destructor = .ended → ∀ client < s.accepted, s.released.count client = 1) := by
  refine ⟨count_released_le_one run.free, ?_⟩
  intro ended client accepted
  have emptied : s.Emptied := by
    apply run.invariant_of_reached emptied_start
    intro labels s label t earlier emptied timely next
    obtain ⟨held, -⟩ := held_and_tally earlier.free
    exact emptied.keep held timely next
  have count := (held_and_tally run.free).2.count client
  have none : s.owed = [] := (emptied.empty (by rw [ended]; rfl)).2.1
  rw [none, emptied.exited ended, if_pos accepted] at count
  simpa [pending, role] using count

/-- Whether a step is timely, decided. -/
instance (s : Server) : DecidablePred s.Timely
  | .lock .listen => inferInstanceAs (Decidable (disconnected (s.pc .destructor) = false))
  | .lock (.application _) | .lock .destructor | .lock (.receive _) | .lock (.handler _)
  | .check _ | .again _ | .callback _ | .returns _ | .close _ | .accept | .call _ _ | .destroy
  | .insert _ | .advance _ => inferInstanceAs (Decidable True)

/-- A client that is accepted while the destructor runs is put into the map when the
destructor has cleared it. -/
theorem leaked_on_late_accept : ∃ s : Server,
    Run step Free start
      [.check .listen, .destroy, .lock .destructor, .advance .destructor, .accept, .lock .listen,
        .insert "A", .advance .listen, .check .listen, .advance .destructor] s ∧
      s.pc .destructor = .ended ∧ s.accepted = 1 ∧ s.released.count 0 = 0 := by
  obtain ⟨s, run, ended⟩ := @exists_run_of_exec _ _ step start
    [.check .listen, .destroy, .lock .destructor, .advance .destructor, .accept, .lock .listen,
      .insert "A", .advance .listen, .check .listen, .advance .destructor]
    (fun s => s.pc .destructor = .ended ∧ s.accepted = 1 ∧ s.released.count 0 = 0) (by decide)
  exact ⟨s, run, of_decide_eq_true ended⟩

end Server

end ExLibs.Network
