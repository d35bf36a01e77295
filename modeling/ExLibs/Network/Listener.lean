/-
# The socket that listens

`CTCPServer::Listen` makes the socket that listens when there is none, and then waits for one
connection. `serverListenThread` calls it over and over, whatever it returns.

The two platforms part over what a failure leaves behind. On Windows the address to bind to is
resolved once, by the constructor, and freed by the first call: no call can make a second socket.
On Unix a socket that could not be bound is kept, and the next call listens on it as it is.
-/
import ExLibs.Math.Ledger

namespace ExLibs.Network

open ExLibs.Math

inductive Platform where
  | windows
  | unix
  deriving DecidableEq

/-- What `SelectSocket` returns. -/
inductive Selected where
  | timeout
  | error
  | ready
  deriving DecidableEq

/-- How the calls to the system go in `Listen`, as far as they are made. -/
structure ListenOutcomes where
  socket : Bool
  setsockopt : Bool
  bind : Bool
  listen : Bool
  /-- There is nothing to select for if the waiting period is infinite. -/
  select : Option Selected
  accept : Bool
  deriving DecidableEq

/-- Every call succeeds, and a client comes. -/
def clear : ListenOutcomes where
  socket := true
  setsockopt := true
  bind := true
  listen := true
  select := some .ready
  accept := true

/-- The port is taken. -/
def occupied : ListenOutcomes := { clear with bind := false }

/-- What a server holds, by the variable that holds it. -/
inductive ServerResource where
  | m_ListenSocket
  | m_pResultAddrInfo
  deriving DecidableEq

/-- What is remembered of a socket that listens. -/
structure ListenSocket where
  /-- `bind` has succeeded, with the port of the server. -/
  bound : Bool
  deriving DecidableEq

/-- `CTCPServer`, with what it has done. -/
structure CTCPServer where
  m_ListenSocket : Option ListenSocket
  /-- Whether the pointer is one to an address. There is none on Unix. -/
  m_pResultAddrInfo : Bool
  ledger : List (Entry ServerResource)
  /-- The sockets that clients have been accepted from. -/
  accepted : List ListenSocket
  deriving DecidableEq

namespace CTCPServer

/-- The constructor, which resolves the address on Windows. -/
def start : Platform → CTCPServer
  | .windows => ⟨none, true, [.acquire .m_pResultAddrInfo], []⟩
  | .unix => ⟨none, false, [], []⟩

/-- The second half of `Listen`, which waits for a client. -/
def wait (platform : Platform) (s : CTCPServer) (socket : ListenSocket) (os : ListenOutcomes) :
    CTCPServer × Bool :=
  if os.listen = false then
    match platform with
    | .windows =>
      ({ s with m_ListenSocket := none, ledger := s.ledger ++ [.release .m_ListenSocket] }, false)
    | .unix => (s, false)
  else if os.select = some .timeout ∨ os.select = some .error then (s, false)
  else if os.accept = false then (s, false)
  else ({ s with accepted := s.accepted ++ [socket] }, true)

/-- The first half on Windows, for a pointer to an address. -/
def createWindows (s : CTCPServer) (os : ListenOutcomes) : CTCPServer × Bool :=
  let freed := { s with m_pResultAddrInfo := false }
  if os.socket = false then
    ({ freed with ledger := s.ledger ++ [.release .m_pResultAddrInfo] }, false)
  else if os.setsockopt = false then
    ({ freed with ledger := s.ledger ++
      [.acquire .m_ListenSocket, .release .m_ListenSocket, .release .m_pResultAddrInfo] }, false)
  else if os.bind = false then
    ({ freed with ledger := s.ledger ++
      [.acquire .m_ListenSocket, .release .m_pResultAddrInfo, .release .m_ListenSocket] }, false)
  else
    ({ freed with
      m_ListenSocket := some ⟨true⟩
      ledger := s.ledger ++ [.acquire .m_ListenSocket, .release .m_pResultAddrInfo] }, true)

/-- The first half on Unix. -/
def createUnix (s : CTCPServer) (os : ListenOutcomes) : CTCPServer × Bool :=
  if os.socket = false then (s, false)
  else if os.setsockopt = false then
    ({ s with ledger := s.ledger ++ [.acquire .m_ListenSocket, .release .m_ListenSocket] }, false)
  -- the socket stays, bound or not
  else
    ({ s with
      m_ListenSocket := some ⟨os.bind⟩
      ledger := s.ledger ++ [.acquire .m_ListenSocket] }, os.bind)

/-- The first half, and whether the second follows. It is nothing at all if it dereferences a
null pointer. -/
def create (platform : Platform) (s : CTCPServer) (os : ListenOutcomes) :
    Option (CTCPServer × Bool) :=
  match platform with
  | .windows => if s.m_pResultAddrInfo then some (s.createWindows os) else none
  | .unix => some (s.createUnix os)

/-- `Listen`. -/
def listen (platform : Platform) (s : CTCPServer) (os : ListenOutcomes) :
    Option (CTCPServer × Bool) :=
  match s.m_ListenSocket with
  | some socket => some (s.wait platform socket os)
  | none => (s.create platform os).map fun made =>
    if made.2 then made.1.wait platform ⟨true⟩ os else made

/-- The destructor, which closes the socket. -/
def destroy (s : CTCPServer) : List (Entry ServerResource) :=
  s.ledger ++ if s.m_ListenSocket.isSome then [.release .m_ListenSocket] else []

/-- A call of `Listen`, as a step. -/
def step (platform : Platform) (s : CTCPServer) (os : ListenOutcomes) : Option CTCPServer :=
  (s.listen platform os).map Prod.fst

/-- What a server holds. -/
def held (s : CTCPServer) : Finset ServerResource :=
  (if s.m_ListenSocket.isSome then {.m_ListenSocket} else ∅) ∪
    if s.m_pResultAddrInfo then {.m_pResultAddrInfo} else ∅

/-- A call gets as far as to wait for a client. -/
def Waits (s : CTCPServer) (os : ListenOutcomes) : Prop :=
  (s.m_ListenSocket = none → os.socket = true ∧ os.setsockopt = true ∧ os.bind = true) ∧
    os.listen = true

/-- A call binds the socket that it makes. -/
def Binds (s : CTCPServer) (os : ListenOutcomes) : Prop :=
  s.m_ListenSocket = none → os.socket = true → os.setsockopt = true → os.bind = true

variable {platform : Platform} {s t : CTCPServer} {os : ListenOutcomes}
  {labels : List ListenOutcomes}

section Wait

variable {socket c : ListenSocket}

theorem wait_m_pResultAddrInfo :
    (s.wait platform socket os).1.m_pResultAddrInfo = s.m_pResultAddrInfo := by
  unfold wait
  split
  · cases platform <;> rfl
  · split
    · rfl
    · split <;> rfl

theorem wait_m_ListenSocket : (s.wait platform socket os).1.m_ListenSocket =
    if platform = .windows ∧ os.listen = false then none else s.m_ListenSocket := by
  unfold wait
  split
  · next fails => cases platform <;> simp [fails]
  · next listens =>
    have kept : ¬ (platform = .windows ∧ os.listen = false) := fun closed => listens closed.2
    rw [if_neg kept]
    split
    · rfl
    · split <;> rfl

theorem mem_accepted_wait (member : c ∈ (s.wait platform socket os).1.accepted) :
    c ∈ s.accepted ∨ c = socket := by
  unfold wait at member
  split at member
  · cases platform <;> exact .inl member
  · split at member
    · exact .inl member
    · split at member
      · exact .inl member
      · simpa using member

/-- The socket is closed where the server forgets it. -/
theorem play_wait (listens : s.m_ListenSocket = some socket)
    (agrees : play ∅ s.ledger = some s.held) :
    play ∅ (s.wait platform socket os).1.ledger = some (s.wait platform socket os).1.held := by
  unfold wait
  split
  · cases platform with
    | windows =>
      simp only [play_append, agrees, Option.bind_some]
      rw [held, held, listens]
      cases s.m_pResultAddrInfo <;> rfl
    | unix => exact agrees
  · split
    · exact agrees
    · split <;> exact agrees

end Wait

section Create

/-- Every call that makes a socket succeeds. -/
def succeeds (os : ListenOutcomes) : Bool := os.socket && os.setsockopt && os.bind

theorem createWindows_m_pResultAddrInfo : (s.createWindows os).1.m_pResultAddrInfo = false := by
  unfold createWindows
  split
  · rfl
  · split
    · rfl
    · split <;> rfl

theorem createWindows_snd : (s.createWindows os).2 = succeeds os := by
  unfold createWindows succeeds
  cases os.socket <;> cases os.setsockopt <;> cases os.bind <;> rfl

theorem createWindows_m_ListenSocket : (s.createWindows os).1.m_ListenSocket =
    if succeeds os then some ⟨true⟩ else s.m_ListenSocket := by
  unfold createWindows succeeds
  cases os.socket <;> cases os.setsockopt <;> cases os.bind <;> rfl

theorem createUnix_snd : (s.createUnix os).2 = succeeds os := by
  unfold createUnix succeeds
  cases os.socket <;> cases os.setsockopt <;> rfl

theorem createUnix_m_ListenSocket : (s.createUnix os).1.m_ListenSocket =
    if os.socket && os.setsockopt then some ⟨os.bind⟩ else s.m_ListenSocket := by
  unfold createUnix
  cases os.socket <;> cases os.setsockopt <;> rfl

theorem createUnix_accepted : (s.createUnix os).1.accepted = s.accepted := by
  unfold createUnix
  cases os.socket <;> cases os.setsockopt <;> rfl

theorem createUnix_m_pResultAddrInfo :
    (s.createUnix os).1.m_pResultAddrInfo = s.m_pResultAddrInfo := by
  unfold createUnix
  cases os.socket <;> cases os.setsockopt <;> rfl

/-- What is made is closed again where the server does not keep it. -/
theorem play_create {made : CTCPServer × Bool} (created : s.create platform os = some made)
    (none : s.m_ListenSocket = none) (agrees : play ∅ s.ledger = some s.held) :
    play ∅ made.1.ledger = some made.1.held := by
  cases platform with
  | windows =>
    obtain ⟨address, same⟩ := Option.ite_none_right_eq_some.mp created
    obtain rfl := Option.some.inj same
    -- a first half that is not undefined begins with the address only
    have begins : play ∅ s.ledger = some {.m_pResultAddrInfo} := by
      rw [agrees, held, none, address]
      rfl
    unfold createWindows
    split
    · simp only [play_append, begins, Option.bind_some, held, none]
      rfl
    · split
      · simp only [play_append, begins, Option.bind_some, held, none]
        rfl
      · split
        · simp only [play_append, begins, Option.bind_some, held, none]
          rfl
        · simp only [play_append, begins, Option.bind_some]
          rfl
  | unix =>
    obtain rfl := Option.some.inj created
    unfold createUnix
    split
    · exact agrees
    · split
      · simp only [play_append, agrees, Option.bind_some, held, none]
        cases s.m_pResultAddrInfo <;> rfl
      · simp only [play_append, agrees, Option.bind_some, held, none]
        cases s.m_pResultAddrInfo <;> rfl

theorem listens_of_create {made : CTCPServer × Bool} (created : s.create platform os = some made)
    (succeeded : made.2 = true) : made.1.m_ListenSocket = some ⟨true⟩ := by
  cases platform with
  | windows =>
    obtain ⟨-, same⟩ := Option.ite_none_right_eq_some.mp created
    obtain rfl := Option.some.inj same
    rw [createWindows_snd] at succeeded
    rw [createWindows_m_ListenSocket, if_pos succeeded]
  | unix =>
    obtain rfl := Option.some.inj created
    rw [createUnix_snd, succeeds, Bool.and_eq_true] at succeeded
    rw [createUnix_m_ListenSocket, if_pos succeeded.1, succeeded.2]

end Create

/-- A step waits on the socket that there is, or on one that it makes, or makes none. -/
theorem step_cases (next : s.step platform os = some t) :
    (∃ socket, s.m_ListenSocket = some socket ∧ t = (s.wait platform socket os).1) ∨
    s.m_ListenSocket = none ∧ ∃ made, s.create platform os = some made ∧
      (made.2 = true ∧ made.1.m_ListenSocket = some ⟨true⟩ ∧
        t = (made.1.wait platform ⟨true⟩ os).1 ∨ made.2 = false ∧ t = made.1) := by
  obtain ⟨result, listened, rfl⟩ := Option.map_eq_some_iff.mp next
  unfold listen at listened
  split at listened
  · next socket listens =>
    obtain rfl := Option.some.inj listened
    exact .inl ⟨socket, listens, rfl⟩
  · next listens =>
    obtain ⟨made, created, rfl⟩ := Option.map_eq_some_iff.mp listened
    refine .inr ⟨listens, made, created, ?_⟩
    cases succeeded : made.2 with
    | true => exact .inl ⟨rfl, listens_of_create created succeeded, rfl⟩
    | false => exact .inr ⟨rfl, rfl⟩

section Windows

/-- Only one of the two is held. -/
def Single (s : CTCPServer) : Prop :=
  s.m_ListenSocket.isSome = true → s.m_pResultAddrInfo = false

/-- A call finds a socket or an address. -/
def Ready (s : CTCPServer) : Prop :=
  s.m_ListenSocket.isSome = true ∨ s.m_pResultAddrInfo = true

theorem isSome_step : (s.step .windows os).isSome = true ↔ s.Ready := by
  unfold step listen Ready
  cases s.m_ListenSocket with
  | some socket => simp
  | none => simp [create]

theorem create_windows {made : CTCPServer × Bool} (created : s.create .windows os = some made) :
    s.m_pResultAddrInfo = true ∧ made = s.createWindows os := by
  obtain ⟨address, same⟩ := Option.ite_none_right_eq_some.mp created
  exact ⟨address, (Option.some.inj same).symm⟩

/-- No address is held once a call has been made. -/
theorem m_pResultAddrInfo_of_step (single : s.Single) (next : s.step .windows os = some t) :
    t.m_pResultAddrInfo = false := by
  rcases step_cases next with ⟨socket, listens, rfl⟩ | ⟨-, made, created, whole⟩
  · rw [wait_m_pResultAddrInfo]
    exact single (by rw [listens]; rfl)
  · obtain ⟨-, rfl⟩ := create_windows created
    rcases whole with ⟨-, -, rfl⟩ | ⟨-, rfl⟩
    · rw [wait_m_pResultAddrInfo, createWindows_m_pResultAddrInfo]
    · exact createWindows_m_pResultAddrInfo

theorem m_pResultAddrInfo_of_run (run : Run (step .windows) Free (start .windows) labels s) :
    s.Single ∧ s.m_pResultAddrInfo = labels.isEmpty := by
  induction run with
  | nil => exact ⟨nofun, rfl⟩
  | snoc _ _ next ih =>
    have freed := m_pResultAddrInfo_of_step ih.1 next
    exact ⟨fun _ => freed, by rw [freed]; simp⟩

/-- There is a socket behind a call exactly if the call got as far as to wait. -/
theorem isSome_iff_waits (next : s.step .windows os = some t) :
    t.m_ListenSocket.isSome = true ↔ s.Waits os := by
  rcases step_cases next with ⟨socket, listens, rfl⟩ | ⟨listens, made, created, whole⟩
  · rw [wait_m_ListenSocket, Waits, listens]
    cases os.listen <;> simp
  · obtain ⟨-, rfl⟩ := create_windows created
    simp only [createWindows_snd, succeeds, Bool.and_eq_true, ← Bool.not_eq_true] at whole
    rw [Waits]
    rcases whole with ⟨succeeded, made, rfl⟩ | ⟨fails, rfl⟩
    · rw [wait_m_ListenSocket, made]
      cases os.listen <;> simp [succeeded]
    · have fails' : ¬ (os.socket = true ∧ os.setsockopt = true ∧ os.bind = true) :=
        fun all => fails ⟨⟨all.1, all.2.1⟩, all.2.2⟩
      rw [createWindows_m_ListenSocket, succeeds, listens]
      simp [fails', and_assoc]

/-- On Windows `Listen` can be called again, without a null pointer to dereference, exactly if
every call so far has got as far as to wait for a client. -/
theorem isSome_step_iff_waits (run : Run (step .windows) Free (start .windows) labels s)
    (os : ListenOutcomes) : (s.step .windows os).isSome = true ↔
      Run (step .windows) Waits (start .windows) labels s := by
  rw [isSome_step]
  refine run.good_iff (.inr rfl) fun labels s os t earlier next => ?_
  have freed := m_pResultAddrInfo_of_step (m_pResultAddrInfo_of_run earlier).1 next
  -- no address is left by any call, so that it takes a socket to go on
  have ready : s.Ready := isSome_step.mp (by rw [next]; rfl)
  rw [Ready, freed, ← isSome_iff_waits next]
  simp [ready]

/-- A call that accepts a client leaves the socket to the next one. -/
theorem isSome_step_of_clear : ∃ s : CTCPServer, s.accepted.length = 1 ∧
    (s.step .windows clear).isSome = true := by
  have waits : (start .windows).Waits clear := ⟨fun _ => by decide, rfl⟩
  have next : (start .windows).step .windows clear = some _ := rfl
  have run : Run (step .windows) (fun _ _ => True) (start .windows) [clear] _ :=
    .snoc .nil trivial next
  exact ⟨_, rfl, (isSome_step_iff_waits run clear).mpr (.snoc .nil waits next)⟩

end Windows

section Unix

/-- A socket is kept, once it has been made. -/
theorem m_ListenSocket_of_step (next : s.step .unix os = some t) : t.m_ListenSocket =
    s.m_ListenSocket.or (if os.socket && os.setsockopt then some ⟨os.bind⟩ else none) := by
  -- on Unix the socket is not closed when it cannot listen
  have kept (s : CTCPServer) (socket : ListenSocket) :
      (s.wait .unix socket os).1.m_ListenSocket = s.m_ListenSocket := by
    rw [wait_m_ListenSocket, if_neg (by simp)]
  rcases step_cases next with ⟨socket, listens, rfl⟩ | ⟨listens, made, created, whole⟩
  · rw [kept, listens, Option.some_or]
  · obtain rfl := Option.some.inj created
    have made : (s.createUnix os).1.m_ListenSocket =
        if os.socket && os.setsockopt then some ⟨os.bind⟩ else s.m_ListenSocket :=
      createUnix_m_ListenSocket
    rw [listens] at made
    rw [listens, Option.none_or, ← made]
    rcases whole with ⟨-, -, rfl⟩ | ⟨-, rfl⟩
    · exact kept _ _
    · rfl

/-- Whoever has been accepted has been from the socket that there is. -/
def OneSocket (s : CTCPServer) : Prop := ∀ c ∈ s.accepted, s.m_ListenSocket = some c

theorem OneSocket.of_step (one : s.OneSocket) (next : s.step .unix os = some t) :
    t.OneSocket := by
  intro c member
  rcases step_cases next with ⟨socket, listens, rfl⟩ | ⟨listens, made, created, whole⟩
  · rw [m_ListenSocket_of_step next]
    rcases mem_accepted_wait member with before | rfl
    · rw [one c before, Option.some_or]
    · rw [listens, Option.some_or]
  · -- nobody is accepted before there is a socket
    have nobody : c ∉ s.accepted := fun before => nomatch listens.symm.trans (one c before)
    obtain rfl := Option.some.inj created
    rcases whole with ⟨-, made, rfl⟩ | ⟨-, rfl⟩
    · rcases mem_accepted_wait member with before | rfl
      · exact absurd (createUnix_accepted ▸ before) nobody
      · rw [wait_m_ListenSocket, if_neg (by simp), made]
    · exact absurd (createUnix_accepted ▸ member) nobody

/-- The socket that there is has been bound. -/
def Bound (s : CTCPServer) : Prop := ∀ socket ∈ s.m_ListenSocket, socket.bound = true

/-- On Unix the clients that a server has accepted have all come in on its port, or none has:
they have exactly if `bind` has never failed. -/
theorem bound_iff_binds (run : Run (step .unix) Free (start .unix) labels s) :
    ∀ c ∈ s.accepted, (c.bound = true ↔ Run (step .unix) Binds (start .unix) labels s) := by
  intro c member
  have one : s.OneSocket :=
    run.invariant (by simp [OneSocket, start]) fun _ _ _ one _ next => one.of_step next
  have bound : s.Bound ↔ Run (step .unix) Binds (start .unix) labels s := by
    refine run.good_iff (by simp [Bound, start]) fun labels s os t _ next => ?_
    rw [Bound, Bound, m_ListenSocket_of_step next, Binds]
    cases s.m_ListenSocket with
    | some socket => simp
    | none => cases os.socket <;> cases os.setsockopt <;> simp
  rw [← bound, Bound, one c member]
  simp

/-- Where the port is taken, the next call accepts a client from somewhere else. -/
theorem not_binds_of_occupied : ∃ s : CTCPServer, s.accepted.length = 1 ∧
    ¬ Run (step .unix) Binds (start .unix) [occupied, clear] s := by
  let s : CTCPServer := ⟨some ⟨false⟩, false, [.acquire .m_ListenSocket], [⟨false⟩]⟩
  have run : Run (step .unix) Free (start .unix) [occupied, clear] s := run_of_exec rfl
  refine ⟨s, rfl, fun binds => ?_⟩
  exact absurd ((bound_iff_binds run ⟨false⟩ List.mem_cons_self).mpr binds) (by decide)

end Unix

/-- The ledger agrees with what is held. -/
def Booked (s : CTCPServer) : Prop := play ∅ s.ledger = some s.held

theorem Booked.of_step (booked : s.Booked) (next : s.step platform os = some t) : t.Booked := by
  rcases step_cases next with ⟨socket, listens, rfl⟩ | ⟨listens, made, created, whole⟩
  · exact play_wait listens booked
  · have booked := play_create created listens booked
    rcases whole with ⟨-, made, rfl⟩ | ⟨-, rfl⟩
    · exact play_wait made booked
    · exact booked

theorem m_pResultAddrInfo_unix (run : Run (step .unix) Free (start .unix) labels s) :
    s.m_pResultAddrInfo = false := by
  induction run with
  | nil => rfl
  | snoc _ _ next ih =>
    rcases step_cases next with ⟨socket, listens, rfl⟩ | ⟨listens, made, created, whole⟩
    · rw [wait_m_pResultAddrInfo, ih]
    · obtain rfl := Option.some.inj created
      rcases whole with ⟨-, -, rfl⟩ | ⟨-, rfl⟩
      · rw [wait_m_pResultAddrInfo, createUnix_m_pResultAddrInfo, ih]
      · rw [createUnix_m_pResultAddrInfo, ih]

/-- Whatever the calls to the system come to, each socket is closed exactly once by the end of the
destructor. The address that Windows resolves is freed by the first call, and lost without one. -/
theorem settled_destroy_iff (run : Run (step platform) Free (start platform) labels s) :
    Settled s.destroy ↔ (platform = .windows → labels ≠ []) := by
  have booked : s.Booked := by
    refine run.invariant ?_ fun _ _ _ booked _ next => booked.of_step next
    cases platform <;> rfl
  have address : s.m_pResultAddrInfo = false ↔ (platform = .windows → labels ≠ []) := by
    cases platform with
    | windows => simp [(m_pResultAddrInfo_of_run run).2]
    | unix => simp [m_pResultAddrInfo_unix run]
  -- the destructor closes the socket, if there is one, and leaves the address
  rw [← address, Settled, destroy, play_append, booked, Option.bind_some, held]
  generalize s.m_ListenSocket.isSome = isOpen
  cases isOpen <;> cases s.m_pResultAddrInfo <;> decide

/-- A server whose port is taken closes its socket, and frees the address. -/
theorem settled_destroy_of_occupied : ∃ s : CTCPServer,
    (start .windows).step .windows occupied = some s ∧ Settled s.destroy := by
  have next : (start .windows).step .windows occupied = some _ := rfl
  exact ⟨_, next, (settled_destroy_iff (.snoc .nil trivial next)).mpr fun _ => nofun⟩

end CTCPServer

end ExLibs.Network
