/-
# Deadlock among the threads of a server

The wait-for graph of a server has an edge from each thread that wants the lock to the
thread that holds it, and from each thread that joins another to that other. A thread
that disconnects a client joins it under the lock, and the two threads of the client
may want that lock: a receive thread whose peer has closed, and a handler thread whose
callback calls back into the server. The graph stays free of deadlock as long as they
do not ask for the lock, and are not joined while they have it or wait for it.
-/
import ExLibs.Math.WaitGraph
import ExLibs.Network.Server.Lifetimes

namespace ExLibs.Network

open ExLibs.Math

namespace Server

/-- A thread waits for the holder of the lock that it wants, and for the thread that it
joins. -/
inductive Waits (s : Server) : ServerThread → ServerThread → Prop
  | lock {waiter holder : ServerThread} (wanting : (s.pc waiter).wanting = true)
      (held : s.lckClientMap = some holder) : Waits s waiter holder
  | receive {waiter : ServerThread} {job : Disconnecting}
      (joining : s.pc waiter = .joinReceive job) : Waits s waiter (.receive job.client)
  | handler {waiter : ServerThread} {job : Disconnecting}
      (joining : s.pc waiter = .joinHandler job) : Waits s waiter (.handler job.client)
  | own {client : ℕ} (joining : s.pc (.receive client) = .joiningHandler) :
      Waits s (.receive client) (.handler client)
  | listen (joining : s.pc .destructor = .joinListen) : Waits s .destructor .listen

/-- A thread under the lock joins the receive thread of a client. -/
def ReceiveJoined (s : Server) (client : ℕ) : Prop :=
  ∃ thread job, s.pc thread = .joinReceive job ∧ job.client = client

/-- A thread under the lock joins the handler thread of a client. -/
def HandlerJoined (s : Server) (client : ℕ) : Prop :=
  ∃ thread job, s.pc thread = .joinHandler job ∧ job.client = client

/-- A thread holds the lock or waits for it. -/
def locking (s : Server) (thread : ServerThread) : Bool :=
  (s.pc thread).holding || (s.pc thread).wanting

/-- No step closes a circle of waits. -/
def Clear (s : Server) : TeardownLabel → Prop
  | .call (.handler client) _ =>
    -- a callback does not call while its thread is joined from under the lock, be it
    -- directly or through the receive thread
    ¬ s.HandlerJoined client ∧ (s.pc (.receive client) = .joiningHandler → ¬ s.ReceiveJoined client)
  | .advance thread =>
    match thread, s.pc thread with
    -- a handler thread is not joined from under the lock while it holds or awaits the lock
    | _, .reset job => s.hasHandler job.client = true → s.locking (.handler job.client) = false
    | .receive client, .resetting => s.ReceiveJoined client →
        s.hasHandler client = true ∧ s.locking (.handler client) = false
    -- a receive thread does not ask for the lock while it is joined from under it
    | .receive client, .joiningHandler => ¬ s.ReceiveJoined client
    | _, _ => True
  | _ => True

/-- A receive thread in this place has detached itself. -/
def late : ServerPc → Bool
  | .resetting | .joiningHandler | .wantLock _ | .wantInsert _ | .inserting _ | .stop _
  | .joinReceive _ | .reset _ | .joinHandler _ | .disconnect _ | .unlock _ => true
  | .absent | .loop | .polling | .callback | .closing | .joinListen | .ended => false

/-- What every run keeps: threads that have detached themselves can no longer be joined,
no receive thread joins itself, and a client has no threads until it is in the map. -/
structure Placed (s : Server) : Prop where
  detached : ∀ client, late (s.pc (.receive client)) = true → s.joinable client = false
  apart : ∀ thread job, s.pc thread = .joinReceive job → thread ≠ .receive job.client
  fresh : ∀ client, s.accepted ≤ client ∨ s.pc .listen = .wantInsert client ∨
    s.pc .listen = .inserting client → s.pc (.receive client) = .absent ∧
    s.pc (.handler client) = .absent
  counted : ∀ client, s.pc .listen = .wantInsert client ∨ s.pc .listen = .inserting client →
    client < s.accepted

/-- The threads that are joined from under the lock do not need it. -/
structure Open (s : Server) : Prop where
  receive : ∀ thread job, s.pc thread = .joinReceive job →
    (s.pc (.receive job.client)).wanting = false ∧
    (s.pc (.receive job.client) = .joiningHandler → s.locking (.handler job.client) = false)
  handler : ∀ thread job, s.pc thread = .joinHandler job → s.locking (.handler job.client) = false

variable {s t : Server} {label : TeardownLabel} {thread : ServerThread} {pc old : ServerPc}

theorem late_eq_false_of_looping (loops : pc.looping = true) : late pc = false := by
  cases pc <;> first | rfl | cases loops

theorem wanting_eq_false_of_late (early : late pc = false) : pc.wanting = false := by
  cases pc <;> first | rfl | cases early

section Clear

variable {job : Disconnecting} {client : ℕ}

theorem Clear.reset (clear : s.Clear (.advance thread)) (here : s.pc thread = .reset job)
    (handled : s.hasHandler job.client = true) : s.locking (.handler job.client) = false := by
  simp only [Clear, here] at clear
  exact clear handled

theorem Clear.resetting (clear : s.Clear (.advance (.receive client)))
    (here : s.pc (.receive client) = .resetting) (joined : s.ReceiveJoined client) :
    s.hasHandler client = true ∧ s.locking (.handler client) = false := by
  simp only [Clear, here] at clear
  exact clear joined

theorem Clear.joiningHandler (clear : s.Clear (.advance (.receive client)))
    (here : s.pc (.receive client) = .joiningHandler) : ¬ s.ReceiveJoined client := by
  simp only [Clear, here] at clear
  exact clear

end Clear

theorem late_after (thread : ServerThread) : late (after thread) = false := by
  cases thread <;> rfl

theorem joinable_release {client other : ℕ} (detached : s.joinable other = false) :
    (s.release client).joinable other = false := by
  rcases eq_or_ne other client with rfl | distinct
  · exact Function.update_self ..
  · exact (Function.update_of_ne distinct ..).trans detached

/-- A thread goes to another place. -/
theorem Placed.moved (placed : s.Placed) (moves : t.pc = Function.update s.pc thread pc)
    (accepts : t.accepted = s.accepted) (started : s.pc thread ≠ .absent)
    (releases : ∀ client, s.joinable client = false → t.joinable client = false)
    (detached : ∀ client, thread = .receive client → late pc = true →
      late (s.pc thread) = true ∨ t.joinable client = false)
    (apart : ∀ job, pc = .joinReceive job → thread ≠ .receive job.client)
    (wants : ∀ client, pc ≠ .wantInsert client)
    (inserts : ∀ client, pc = .inserting client → s.pc thread = .wantInsert client) :
    t.Placed := by
  have listens : ∀ client, t.pc .listen = .wantInsert client ∨ t.pc .listen = .inserting client →
      s.pc .listen = .wantInsert client ∨ s.pc .listen = .inserting client := by
    intro client
    rw [moves]
    rcases eq_or_ne .listen thread with rfl | distinct
    · rw [Function.update_self]
      rintro (wants' | inserting)
      · exact absurd wants' (wants client)
      · exact .inl (inserts client inserting)
    · rw [Function.update_of_ne distinct]
      exact id
  constructor
  case detached =>
    intro client later
    rw [moves] at later
    rcases eq_or_ne (.receive client) thread with rfl | distinct
    · rw [Function.update_self] at later
      rcases detached client rfl later with before | now
      · exact releases client (placed.detached client before)
      · exact now
    · rw [Function.update_of_ne distinct] at later
      exact releases client (placed.detached client later)
  case apart =>
    intro other job joining
    rw [moves] at joining
    rcases moved_eq_iff.mp joining with ⟨rfl, now⟩ | ⟨-, before⟩
    · exact apart job now
    · exact placed.apart other job before
  case fresh =>
    intro client unknown
    obtain ⟨receives, handles⟩ :=
      placed.fresh client (accepts ▸ unknown.imp_right (listens client))
    have others : ∀ other, s.pc other = .absent → t.pc other = .absent := by
      intro other absent
      rw [moves]
      exact moved_eq_of_ne started absent
    exact ⟨others _ receives, others _ handles⟩
  case counted =>
    intro client waits
    exact accepts ▸ placed.counted client (listens client waits)

/-- A thread that has detached itself, or is not a receive thread, goes to another place. -/
theorem Placed.movedLate (placed : s.Placed) (before : s.pc thread = old) (later : late old = true)
    (moves : t.pc = Function.update s.pc thread pc) (accepts : t.accepted = s.accepted)
    (releases : ∀ client, s.joinable client = false → t.joinable client = false)
    (apart : ∀ job, pc = .joinReceive job → thread ≠ .receive job.client)
    (wants : ∀ client, pc ≠ .wantInsert client)
    (inserts : ∀ client, pc = .inserting client → old = .wantInsert client) : t.Placed := by
  have started : s.pc thread ≠ .absent := by
    rw [before]
    rintro rfl
    cases later
  exact placed.moved moves accepts started releases (fun _ _ _ => .inl (before ▸ later)) apart wants
    (before ▸ inserts)

/-- The listen thread accepts a client, which has no threads yet. -/
theorem Placed.accepted (placed : s.Placed)
    (moves : t.pc = Function.update s.pc .listen (.wantInsert s.accepted))
    (accepts : t.accepted = s.accepted + 1) (joinable : t.joinable = s.joinable) : t.Placed := by
  have here : t.pc .listen = .wantInsert s.accepted := by rw [moves, Function.update_self]
  have others : ∀ other ≠ .listen, t.pc other = s.pc other := by
    intro other distinct
    rw [moves, Function.update_of_ne distinct]
  constructor
  case detached =>
    intro client later
    rw [others (.receive client) nofun] at later
    exact joinable ▸ placed.detached client later
  case apart =>
    intro thread job joining
    rcases eq_or_ne thread .listen with rfl | distinct
    · nofun
    · exact placed.apart thread job (others thread distinct ▸ joining)
  case fresh =>
    intro client unknown
    have later : s.accepted ≤ client := by
      rw [here, accepts] at unknown
      rcases unknown with later | same | inserting
      · exact Nat.le_of_succ_le later
      · exact (ServerPc.wantInsert.inj same).le
      · cases inserting
    rw [others (.receive client) nofun, others (.handler client) nofun]
    exact placed.fresh client (.inl later)
  case counted =>
    intro client waits
    rw [here] at waits
    rcases waits with same | inserting
    · rw [accepts, ServerPc.wantInsert.inj same]
      exact Nat.lt_succ_self client
    · cases inserting

/-- The listen thread starts the threads of its client, and the client is no longer fresh. -/
theorem Placed.inserted (placed : s.Placed) {client : ℕ}
    (inserting : s.pc .listen = .inserting client)
    (moves : t.pc = Function.update (Function.update (Function.update s.pc
      .listen (.unlock false)) (.receive client) .loop) (.handler client) .loop)
    (accepts : t.accepted = s.accepted)
    (joinable : t.joinable = Function.update s.joinable client true) : t.Placed := by
  have here : t.pc .listen = .unlock false := by simp [moves]
  have others : ∀ other ≠ client, t.pc (.receive other) = s.pc (.receive other) ∧
      t.pc (.handler other) = s.pc (.handler other) := by
    intro other distinct
    simp [moves, distinct]
  constructor
  case detached =>
    intro other later
    rcases eq_or_ne other client with rfl | distinct
    · simp [moves, late] at later
    · rw [(others other distinct).1] at later
      rw [joinable, Function.update_of_ne distinct]
      exact placed.detached other later
  case apart =>
    intro thread job joining
    simp only [moves, Function.update_apply] at joining
    split_ifs at joining
    exact placed.apart thread job joining
  case fresh =>
    intro other unknown
    rw [here, accepts] at unknown
    obtain later : s.accepted ≤ other := by
      rcases unknown with later | wants | inserts
      · exact later
      · cases wants
      · cases inserts
    have distinct : other ≠ client := by
      rintro rfl
      exact absurd (placed.counted other (.inr inserting)) later.not_gt
    rw [(others other distinct).1, (others other distinct).2]
    exact placed.fresh other (.inl later)
  case counted =>
    intro other waits
    rw [here] at waits
    rcases waits with wants | inserts
    · cases wants
    · cases inserts

theorem Placed.keep (placed : s.Placed) (next : s.step label = some t) : t.Placed := by
  cases step_cases next with
  | @move label thread pc loops other polls looping onward =>
    have early : late pc = false := by
      rcases onward with loops | rfl | rfl
      · exact late_eq_false_of_looping loops
      · rfl
      · rfl
    refine placed.moved rfl rfl ?_ (fun _ => id) ?_ ?_ ?_ ?_
    · intro absent
      rw [absent] at looping
      cases looping
    · intro client _ later
      exact absurd (early.symm.trans later) Bool.false_ne_true
    · rintro job rfl
      cases early
    · rintro client rfl
      cases early
    · rintro client rfl
      cases early
  | round before onward =>
    rcases onward with rfl | rfl
    · exact placed.moved rfl rfl (by rw [before]; nofun) (fun _ => id) nofun nofun nofun nofun
    · exact placed.moved rfl rfl (by rw [before]; nofun) (fun _ => id) nofun nofun nofun nofun
  | accept polling => exact placed.accepted rfl rfl rfl
  | callApplication before | callHandler before | destroy before =>
    exact placed.moved rfl rfl (by rw [before]; nofun) (fun _ => id) nofun nofun nofun nofun
  | @lock thread call free wanting =>
    rcases s.enter_cases call with ⟨job, entered⟩ | ⟨clear, entered⟩
    · rw [entered]
      exact placed.movedLate wanting rfl rfl rfl (fun _ => id) nofun nofun nofun
    · rw [entered]
      exact placed.movedLate wanting rfl rfl rfl (fun _ => id) nofun nofun nofun
  | @lockInsert thread client free wanting =>
    refine placed.movedLate wanting rfl rfl rfl (fun _ => id) nofun nofun ?_
    rintro _ ⟨⟩
    rfl
  | insert inserting => exact placed.inserted inserting rfl rfl rfl
  | stopAlone before | joinedReceive before =>
    exact placed.movedLate before rfl rfl rfl (fun _ => joinable_release) nofun nofun nofun
  | stopJoin before joinable other =>
    refine placed.movedLate before rfl rfl rfl (fun _ => id) ?_ nofun nofun
    rintro job ⟨⟩
    exact other
  | resetJoin before | resetNone before | joinedHandler before | disConnect before
  | disConnectLast before | disConnectNext before | resetSelf before =>
    exact placed.movedLate before rfl rfl rfl (fun _ => id) nofun nofun nofun
  | @unlock thread clear unlock =>
    have early := late_after thread
    refine placed.moved rfl rfl (by rw [unlock]; nofun) (fun _ => id) ?_ ?_ ?_ ?_
    · intro client _ later
      exact absurd (early.symm.trans later) Bool.false_ne_true
    · intro job joining
      rw [joining] at early
      cases early
    · intro client wants
      rw [wants] at early
      cases early
    · intro client inserting
      rw [inserting] at early
      cases early
  | detach closing =>
    refine placed.moved rfl rfl (by rw [closing]; nofun) (fun _ => joinable_release) ?_ nofun nofun
      nofun
    rintro _ ⟨⟩ _
    exact .inr (Function.update_self ..)
  | closed late =>
    rcases late with ⟨before, -⟩ | ⟨before, -⟩
    · exact placed.movedLate before rfl rfl rfl (fun _ => id) nofun nofun nofun
    · exact placed.movedLate before rfl rfl rfl (fun _ => id) nofun nofun nofun
  | joinedListen before =>
    exact placed.moved rfl rfl (by rw [before]; nofun) (fun _ => id) (fun _ _ => nofun) nofun nofun
      nofun

theorem locking_of_moved (moves : t.pc = Function.update s.pc thread pc) :
    t.locking thread = (pc.holding || pc.wanting) := by
  rw [locking, moves, Function.update_self]

theorem locking_of_ne (moves : t.pc = Function.update s.pc thread pc) {other : ServerThread}
    (distinct : other ≠ thread) : t.locking other = s.locking other := by
  rw [locking, moves, Function.update_of_ne distinct, locking]

theorem locking_of_holding (before : s.pc thread = old) (holds : old.holding = true) :
    s.locking thread = true := by
  rw [locking, before, holds, Bool.true_or]

/-- A thread goes to another place: what it joins there, and what it means for those who join
it. -/
theorem Open.moved (inv : s.Open) (moves : t.pc = Function.update s.pc thread pc)
    (joinsReceive : ∀ job, pc = .joinReceive job → .receive job.client ≠ thread ∧
      late (s.pc (.receive job.client)) = false)
    (joinsHandler : ∀ job, pc = .joinHandler job → .handler job.client ≠ thread ∧
      s.locking (.handler job.client) = false)
    (receives : ∀ client, thread = .receive client → s.ReceiveJoined client →
      pc.wanting = false ∧ (pc = .joiningHandler → s.locking (.handler client) = false))
    (handles : ∀ client, thread = .handler client → (pc.holding || pc.wanting) = true →
      ¬ s.HandlerJoined client ∧
        (s.pc (.receive client) = .joiningHandler → ¬ s.ReceiveJoined client)) : t.Open := by
  constructor
  case receive =>
    intro other job joining
    rw [moves] at joining
    rcases moved_eq_iff.mp joining with ⟨rfl, now⟩ | ⟨-, before⟩
    · obtain ⟨others, early⟩ := joinsReceive job now
      rw [moves, Function.update_of_ne others]
      refine ⟨wanting_eq_false_of_late early, fun own => ?_⟩
      rw [own] at early
      cases early
    have joined : s.ReceiveJoined job.client := ⟨other, job, before, rfl⟩
    rcases eq_or_ne (.receive job.client) thread with rfl | others
    · obtain ⟨quiet, alone⟩ := receives job.client rfl joined
      have others : ServerThread.handler job.client ≠ .receive job.client := nofun
      rw [moves, Function.update_self, locking_of_ne moves others]
      exact ⟨quiet, alone⟩
    · obtain ⟨quiet, alone⟩ := inv.receive other job before
      rw [moves, Function.update_of_ne others]
      refine ⟨quiet, fun own => ?_⟩
      rcases eq_or_ne (.handler job.client) thread with rfl | bystander
      · by_contra needs
        rw [locking_of_moved moves, Bool.not_eq_false] at needs
        exact (handles job.client rfl needs).2 own joined
      · rw [locking_of_ne moves bystander]
        exact alone own
  case handler =>
    intro other job joining
    rw [moves] at joining
    rcases moved_eq_iff.mp joining with ⟨rfl, now⟩ | ⟨-, before⟩
    · obtain ⟨others, free⟩ := joinsHandler job now
      rw [locking_of_ne moves others, free]
    rcases eq_or_ne (.handler job.client) thread with rfl | bystander
    · by_contra needs
      rw [locking_of_moved moves, Bool.not_eq_false] at needs
      exact (handles job.client rfl needs).1 ⟨other, job, before, rfl⟩
    · rw [locking_of_ne moves bystander]
      exact inv.handler other job before

/-- Nobody joins a handler thread that needs the lock. -/
theorem Open.not_joined_of_locking (inv : s.Open) {client : ℕ}
    (needs : s.locking (.handler client) = true) : ¬ s.HandlerJoined client ∧
      (s.pc (.receive client) = .joiningHandler → ¬ s.ReceiveJoined client) := by
  constructor
  · rintro ⟨other, job, joining, rfl⟩
    exact Bool.false_ne_true ((inv.handler other job joining).symm.trans needs)
  · rintro own ⟨other, job, joining, rfl⟩
    exact Bool.false_ne_true (((inv.receive other job joining).2 own).symm.trans needs)

/-- A thread goes to a place where it does not need the lock, or has it as it has before, and
joins nobody. -/
theorem Open.movedQuietly (inv : s.Open) (before : s.pc thread = old)
    (moves : t.pc = Function.update s.pc thread pc) (quiet : pc.wanting = false)
    (needs : pc.holding = true → (old.holding || old.wanting) = true)
    (joinsReceive : ∀ job, pc ≠ .joinReceive job) (joinsHandler : ∀ job, pc ≠ .joinHandler job)
    (own : pc ≠ .joiningHandler) : t.Open := by
  have locks : (pc.holding || pc.wanting) = true → s.locking thread = true := by
    rw [quiet, Bool.or_false, locking, before]
    exact needs
  refine inv.moved moves (fun job joining => absurd joining (joinsReceive job))
    (fun job joining => absurd joining (joinsHandler job)) ?_ ?_
  · intro client _ _
    exact ⟨quiet, fun joining => absurd joining own⟩
  · rintro client rfl holds
    exact inv.not_joined_of_locking (locks holds)

theorem Open.keep (placed : s.Placed) (inv : s.Open) (clear : s.Clear label)
    (next : s.step label = some t) : t.Open := by
  cases step_cases next with
  | @move label thread pc loops other polls looping onward =>
    refine inv.movedQuietly rfl rfl ?_ ?_ ?_ ?_ ?_
    · rcases onward with loops | rfl | rfl
      · exact ServerPc.wanting_eq_false_of_looping loops
      · rfl
      · rfl
    · intro holds
      rcases onward with loops | rfl | rfl
      · rw [ServerPc.holding_eq_false_of_looping loops] at holds
        cases holds
      · cases holds
      · cases holds
    · rintro job rfl
      rcases onward with loops | joins | joins <;> cases ‹_›
    · rintro job rfl
      rcases onward with loops | joins | joins <;> cases ‹_›
    · rintro rfl
      rcases onward with loops | joins | joins <;> cases ‹_›
  | round before onward =>
    rcases onward with rfl | rfl
    · exact inv.movedQuietly before rfl rfl nofun nofun nofun nofun
    · exact inv.movedQuietly before rfl rfl nofun nofun nofun nofun
  | accept | callApplication | destroy => exact inv.moved rfl nofun nofun nofun nofun
  | callHandler ready =>
    -- the callback comes to need the lock
    refine inv.moved rfl nofun nofun nofun ?_
    rintro _ ⟨⟩ _
    exact clear
  | @lock thread call free wanting =>
    rcases s.enter_cases call with ⟨job, entered⟩ | ⟨clear, entered⟩
    · rw [entered]
      exact inv.movedQuietly wanting rfl rfl (fun _ => rfl) nofun nofun nofun
    · rw [entered]
      exact inv.movedQuietly wanting rfl rfl (fun _ => rfl) nofun nofun nofun
  | lockInsert free before =>
    exact inv.movedQuietly before rfl rfl (fun _ => rfl) nofun nofun nofun
  | @insert client sUUID inserting =>
    have listens : (s.goto .listen (.unlock false)).Open :=
      inv.movedQuietly inserting rfl rfl (fun _ => rfl) nofun nofun nofun
    have receives : ((s.goto .listen (.unlock false)).goto (.receive client) .loop).Open :=
      listens.movedQuietly rfl rfl rfl nofun nofun nofun nofun
    exact receives.movedQuietly rfl rfl rfl nofun nofun nofun nofun
  | stopAlone before | joinedReceive before | resetNone before | joinedHandler before
  | disConnect before | disConnectLast before | disConnectNext before =>
    exact inv.movedQuietly before rfl rfl (fun _ => rfl) nofun nofun nofun
  | joinedListen before | detach before =>
    exact inv.movedQuietly before rfl rfl nofun nofun nofun nofun
  | @stopJoin thread job before joinable other =>
    -- the receive thread is attached, so it has not asked for the lock
    have early : late (s.pc (.receive job.client)) = false := by
      refine Bool.eq_false_iff.mpr fun later => ?_
      exact Bool.false_ne_true ((placed.detached job.client later).symm.trans joinable)
    refine inv.moved rfl ?_ nofun (fun _ _ _ => ⟨rfl, nofun⟩) ?_
    · rintro _ ⟨⟩
      exact ⟨other.symm, early⟩
    · rintro client rfl _
      exact inv.not_joined_of_locking (locking_of_holding before rfl)
  | @resetJoin thread job reset handled =>
    -- a handler thread comes to be joined
    have free := clear.reset reset handled
    have needs := locking_of_holding reset rfl
    refine inv.moved rfl nofun ?_ (fun _ _ _ => ⟨rfl, nofun⟩) ?_
    · rintro _ ⟨⟩
      refine ⟨?_, free⟩
      rintro rfl
      exact Bool.false_ne_true (free.symm.trans needs)
    · rintro client rfl _
      exact inv.not_joined_of_locking needs
  | @unlock thread clear unlock =>
    cases thread <;> exact inv.movedQuietly unlock rfl rfl nofun nofun nofun nofun
  | resetSelf resetting handled =>
    -- a receive thread, which may be joined, comes to wait for its handler thread
    refine inv.moved rfl nofun nofun ?_ nofun
    rintro _ ⟨⟩ joined
    exact ⟨rfl, fun _ => (clear.resetting resetting joined).2⟩
  | closed late =>
    -- a receive thread comes to need the lock
    refine inv.moved rfl nofun nofun ?_ nofun
    rintro _ ⟨⟩ joined
    rcases late with ⟨resetting, unhandled⟩ | ⟨joining, -⟩
    · have handled := (clear.resetting resetting joined).1
      exact absurd (unhandled.symm.trans handled) Bool.false_ne_true
    · exact absurd joined (clear.joiningHandler joining)

/-- Threads wait for threads of a smaller rank. The holder of the lock is above the
threads of the client it disconnects, and below everyone who wants the lock. -/
def rank (s : Server) (thread : ServerThread) : ℕ :=
  if (s.pc thread).wanting then 3
  else if (s.pc thread).holding then 2
  else match thread, s.pc thread with
    -- above its handler thread, and below the holder of the lock if that joins it
    | .receive client, .joiningHandler => if s.locking (.handler client) then 4 else 1
    -- nobody waits for the destructor
    | .destructor, .joinListen => 5
    | _, _ => 0

theorem handlerJoined_of_moved (before : s.pc thread = old)
    (moves : t.pc = Function.update s.pc thread pc) (others : ∀ job, old ≠ .joinHandler job)
    {client : ℕ} (joined : s.HandlerJoined client) : t.HandlerJoined client := by
  obtain ⟨other, job, joining, same⟩ := joined
  refine ⟨other, job, ?_, same⟩
  rw [moves]
  exact moved_eq_of_ne (before.trans_ne (others job)) joining

theorem receiveJoined_of_moved (before : s.pc thread = old)
    (moves : t.pc = Function.update s.pc thread pc) (others : ∀ job, old ≠ .joinReceive job)
    {client : ℕ} (joined : s.ReceiveJoined client) : t.ReceiveJoined client := by
  obtain ⟨other, job, joining, same⟩ := joined
  refine ⟨other, job, ?_, same⟩
  rw [moves]
  exact moved_eq_of_ne (before.trans_ne (others job)) joining

/-- A receive thread in this place is not joined. -/
theorem Open.not_receiveJoined (inv : s.Open) {client : ℕ}
    (wants : (s.pc (.receive client)).wanting = true) : ¬ s.ReceiveJoined client := by
  rintro ⟨other, job, joining, rfl⟩
  exact Bool.false_ne_true ((inv.receive other job joining).1.symm.trans wants)

/-- A step that is not clear closes a circle. -/
theorem Open.clear (inv : t.Open) (next : s.step label = some t) : s.Clear label := by
  -- in each case the state entered would have a joined thread that needs the lock
  cases step_cases next with
  | move loops => cases label <;> trivial
  | @callHandler client call ready =>
    have needs : (s.goto (.handler client) (.wantLock call)).locking (.handler client) = true := by
      rw [locking_of_moved rfl]
      rfl
    obtain ⟨alone, through⟩ := inv.not_joined_of_locking needs
    refine ⟨?_, ?_⟩
    · intro joined
      exact alone (handlerJoined_of_moved ready rfl nofun joined)
    · intro own joined
      refine through ?_ (receiveJoined_of_moved ready rfl nofun joined)
      simpa [pc_goto] using own
  | @resetJoin thread job reset handled =>
    have free := inv.handler thread job (Function.update_self ..)
    have distinct : ServerThread.handler job.client ≠ thread := by
      rintro rfl
      rw [locking_of_moved rfl] at free
      cases free
    simp only [Clear, reset]
    intro _
    exact (locking_of_ne rfl distinct).symm.trans free
  | @resetSelf client resetting handled =>
    simp only [Clear, resetting]
    intro joined
    refine ⟨handled, ?_⟩
    obtain ⟨other, job, joining, rfl⟩ := receiveJoined_of_moved resetting
      (t := (s.takeHandler client).goto (.receive client) .joiningHandler) rfl nofun joined
    have free := (inv.receive other job joining).2 (Function.update_self ..)
    have others : ServerThread.handler job.client ≠ .receive job.client := nofun
    exact (locking_of_ne rfl others).symm.trans free
  | @closed client late =>
    have unjoined : ¬ (s.goto (.receive client)
        (.wantLock (.disConnect (s.uuid client)))).ReceiveJoined client :=
      inv.not_receiveJoined (by rw [pc_goto, Function.update_self]; rfl)
    rcases late with ⟨resetting, unhandled⟩ | ⟨joining, -⟩
    · simp only [Clear, resetting]
      intro joined
      exact absurd (receiveJoined_of_moved resetting rfl nofun joined) unjoined
    · simp only [Clear, joining]
      intro joined
      exact unjoined (receiveJoined_of_moved joining rfl nofun joined)
  | resetNone reset unhandled =>
    simp only [Clear, reset, unhandled]
    nofun
  | _ => simp_all only [Clear]

/-- A thread that waits is in one of these places. -/
def waiting : ServerPc → Bool
  | .wantLock _ | .wantInsert _ | .joinReceive _ | .joinHandler _ | .joiningHandler
  | .joinListen => true
  | .absent | .loop | .polling | .callback | .closing | .resetting | .inserting _ | .stop _
  | .reset _ | .disconnect _ | .unlock _ | .ended => false

section Waits

variable {a b c : ServerThread} {job : Disconnecting} {client : ℕ}

theorem waiting_of_wanting (wants : pc.wanting = true) : waiting pc = true := by
  cases pc <;> first | rfl | cases wants

theorem waiting_eq_false_of_looping (loops : pc.looping = true) : waiting pc = false := by
  cases pc <;> first | rfl | cases loops

theorem Waits.stuck (wait : s.Waits a b) : waiting (s.pc a) = true := by
  cases wait with
  | lock wanting => exact waiting_of_wanting wanting
  | receive joining | handler joining | own joining | listen joining =>
    rw [joining]
    rfl

/-- A thread that waits is not in a place where it can go on. -/
theorem Waits.ne (wait : s.Waits a b) (before : s.pc thread = old) (free : waiting old = false) :
    a ≠ thread := by
  rintro rfl
  have stuck := wait.stuck
  rw [before, free] at stuck
  cases stuck

theorem Waits.locked (wait : s.Waits a b) (wants : (s.pc a).wanting = true) :
    s.lckClientMap = some b := by
  cases wait with
  | lock _ locked => exact locked
  | receive joining | handler joining | own joining | listen joining =>
    rw [joining] at wants
    cases wants

theorem Waits.eq_receive (wait : s.Waits a b) (joining : s.pc a = .joinReceive job) :
    b = .receive job.client := by
  cases wait with
  | lock wanting =>
    rw [joining] at wanting
    cases wanting
  | receive other =>
    cases joining.symm.trans other
    rfl
  | handler other | own other | listen other => cases joining.symm.trans other

theorem Waits.eq_handler (wait : s.Waits a b) (joining : s.pc a = .joinHandler job) :
    b = .handler job.client := by
  cases wait with
  | lock wanting =>
    rw [joining] at wanting
    cases wanting
  | handler other =>
    cases joining.symm.trans other
    rfl
  | receive other | own other | listen other => cases joining.symm.trans other

theorem Waits.eq_own (wait : s.Waits (.receive client) b)
    (joining : s.pc (.receive client) = .joiningHandler) : b = .handler client := by
  cases wait with
  | lock wanting =>
    rw [joining] at wanting
    cases wanting
  | own => rfl
  | receive other | handler other => cases joining.symm.trans other

theorem Waits.eq_listen (wait : s.Waits a b) (joining : s.pc a = .joinListen) : b = .listen := by
  cases wait with
  | lock wanting =>
    rw [joining] at wanting
    cases wanting
  | listen => rfl
  | receive other | handler other | own other => cases joining.symm.trans other

/-- A thread that waits for a waiting thread cannot take a step. -/
theorem Waits.still (placed : s.Placed) (wait : s.Waits a b) (onward : s.Waits b c)
    (next : s.step label = some t) : t.pc a = s.pc a := by
  -- `a` can go on when the lock is free or when `b` has ended, but `b` is stuck as well
  have ended : s.pc b ≠ .ended := fun ended => onward.ne ended rfl rfl
  cases step_cases next with
  | @move label thread pc loops other polls looping onward =>
    exact Function.update_of_ne (wait.ne rfl (waiting_eq_false_of_looping looping)) ..
  | round before | accept before | callApplication before | callHandler before | destroy before
  | stopAlone before | stopJoin before | resetJoin before | resetNone before | disConnect before
  | disConnectLast before | disConnectNext before | unlock before | detach before
  | resetSelf before =>
    exact Function.update_of_ne (wait.ne before rfl) ..
  | @insert client sUUID inserting =>
    obtain ⟨receives, handles⟩ := placed.fresh client (.inr (.inr inserting))
    refine (Function.update_of_ne (wait.ne handles rfl) ..).trans ?_
    refine (Function.update_of_ne (wait.ne receives rfl) ..).trans ?_
    exact Function.update_of_ne (wait.ne inserting rfl) ..
  | @lock thread call free wanting =>
    refine Function.update_of_ne ?_ ..
    rintro rfl
    cases (wait.locked (by rw [wanting]; rfl)).symm.trans free
  | @lockInsert thread client free wanting =>
    refine Function.update_of_ne ?_ ..
    rintro rfl
    cases (wait.locked (by rw [wanting]; rfl)).symm.trans free
  | @joinedReceive thread job joining exited =>
    refine Function.update_of_ne ?_ ..
    rintro rfl
    exact ended (wait.eq_receive joining ▸ exited)
  | @joinedHandler thread job joining exited =>
    refine Function.update_of_ne ?_ ..
    rintro rfl
    exact ended (wait.eq_handler joining ▸ exited)
  | @closed client late =>
    refine Function.update_of_ne ?_ ..
    rintro rfl
    rcases late with ⟨resetting, -⟩ | ⟨joining, exited⟩
    · exact wait.ne resetting rfl rfl
    · exact ended (wait.eq_own joining ▸ exited)
  | @joinedListen thread joining exited =>
    refine Function.update_of_ne ?_ ..
    rintro rfl
    exact ended (wait.eq_listen joining ▸ exited)

/-- The lock that a thread wants does not change hands while its holder waits. -/
theorem Waits.unchanged (held : s.Held) (wait : s.Waits a b) (onward : s.Waits b c)
    (next : s.step label = some t) (wants : (s.pc a).wanting = true) :
    t.lckClientMap = s.lckClientMap := by
  have locked := wait.locked wants
  cases step_cases next with
  | lock free => cases locked.symm.trans free
  | lockInsert free => cases locked.symm.trans free
  | @unlock thread clear unlock =>
    have holder := (held thread).mp (by rw [unlock]; rfl)
    cases locked.symm.trans holder
    exact absurd rfl (onward.ne unlock rfl)
  | _ => rfl

end Waits

/-- A client connects. -/
def connect : List TeardownLabel :=
  [.check .listen, .accept, .lock .listen, .insert "A", .advance .listen]

end Server

end ExLibs.Network
