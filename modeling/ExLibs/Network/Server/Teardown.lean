/-
# Threads of a server

A server has a thread that accepts connections, and for each client a thread that
receives and a thread that runs the callback. The threads of the application, and the
callbacks, disconnect clients and send to them; a receive thread whose peer closes
disconnects its own client; the destructor disconnects everyone and joins the listen
thread. All of this happens under one lock, which a thread that disconnects a client
keeps while it joins the two threads of that client.

This file is the machine. The stages of `DisConnect` and `DisConnectAll` are those of
`cNetworkServerReceive::Stop` and the destructor of the handler, one step for each
place at which another thread can interfere. A run ends when the destructor has joined
the listen thread.
-/
import Mathlib.Logic.Function.Basic
import ExLibs.Math.Transition
import ExLibs.Network.Packet

namespace ExLibs.Network

open ExLibs.Math

/-- A thread of a server process. -/
inductive ServerThread
  | application (i : ℕ)
  | destructor
  | listen
  | receive (client : ℕ)
  | handler (client : ℕ)
  deriving DecidableEq

/-- A call under the lock. -/
inductive LockedCall
  | disConnect (sUUID : XString)
  | disConnectAll
  /-- `SendToClient` or `SendToAll`. -/
  | send
  deriving DecidableEq

/-- A client that is being disconnected, and for `DisConnectAll` those to come. -/
structure Disconnecting where
  client : ℕ
  later : Option (List ℕ)
  deriving DecidableEq

/-- Where a thread is. -/
inductive ServerPc
  | absent
  /-- At the head of its loop, or between calls. -/
  | loop
  /-- In `Listen`, `Receive` or `DeQueue`. -/
  | polling
  | callback
  /-- A receive thread has seen its peer close. -/
  | closing
  /-- It has detached itself and resets its handler. -/
  | resetting
  /-- It destroys its handler and joins the handler thread. -/
  | joiningHandler
  | wantLock (call : LockedCall)
  /-- The listen thread has accepted a client. -/
  | wantInsert (client : ℕ)
  | inserting (client : ℕ)
  /-- `Stop`, up to the choice between `join` and `detach`. -/
  | stop (job : Disconnecting)
  | joinReceive (job : Disconnecting)
  | reset (job : Disconnecting)
  | joinHandler (job : Disconnecting)
  | disconnect (job : Disconnecting)
  | unlock (clear : Bool)
  | joinListen
  | ended
  deriving DecidableEq

namespace ServerPc

/-- The thread holds the lock. -/
@[grind]
def holding : ServerPc → Bool
  | inserting _ | stop _ | joinReceive _ | reset _ | joinHandler _ | disconnect _ | unlock _ => true
  | absent | loop | polling | callback | closing | resetting | joiningHandler | wantLock _
  | wantInsert _ | joinListen | ended => false

/-- The thread waits for the lock. -/
@[grind]
def wanting : ServerPc → Bool
  | wantLock _ | wantInsert _ => true
  | absent | loop | polling | callback | closing | resetting | joiningHandler | inserting _ | stop _
  | joinReceive _ | reset _ | joinHandler _ | disconnect _ | unlock _ | joinListen | ended => false

/-- The thread is in its loop, or in a callback from it. -/
@[grind]
def looping : ServerPc → Bool
  | loop | polling | callback => true
  | absent | closing | resetting | joiningHandler | wantLock _ | wantInsert _ | inserting _ | stop _
  | joinReceive _ | reset _ | joinHandler _ | disconnect _ | unlock _ | joinListen | ended => false

variable {pc : ServerPc}

@[grind →]
theorem holding_eq_false_of_looping (loops : pc.looping = true) : pc.holding = false := by
  cases pc <;> first | rfl | cases loops

@[grind →]
theorem wanting_eq_false_of_looping (loops : pc.looping = true) : pc.wanting = false := by
  cases pc <;> first | rfl | cases loops

end ServerPc

/-- A server. A client is named by the order of acceptance; `joinable` and `hasHandler`
say whether its receive thread and its handler are attached to it, and the three stop
flags are those of the server, of the receive threads and of the handlers. The map and
the listen thread's record `info` of the client that it put there last share the
`cNetworkServerReceive` of a client, which is destroyed with the last of them. `released`
records the sockets that `CTCPServer::Disconnect` was called for. -/
structure Server where
  lckClientMap : Option ServerThread
  pc : ServerThread → ServerPc
  mapUUIDToClientInfo : List ℕ
  info : Option ℕ
  uuid : ℕ → XString
  joinable : ℕ → Bool
  hasHandler : ℕ → Bool
  isStop : Bool
  receiveStop : ℕ → Bool
  handlerStop : ℕ → Bool
  accepted : ℕ
  released : List ℕ

/-- A step of a thread. -/
inductive TeardownLabel
  /-- A loop tests its stop flag. -/
  | check (thread : ServerThread)
  /-- A loop comes round with nothing to do: a timeout, an error, a packet queued. -/
  | again (thread : ServerThread)
  /-- A handler thread enters the callback. -/
  | callback (client : ℕ)
  | returns (client : ℕ)
  /-- `recv` reports that the peer has closed. -/
  | close (client : ℕ)
  | accept
  /-- The application, or a callback, calls. -/
  | call (thread : ServerThread) (call : LockedCall)
  /-- The destructor of `cNetwork` starts. -/
  | destroy
  | lock (thread : ServerThread)
  /-- The listen thread puts its client into the map under a fresh UUID. -/
  | insert (sUUID : XString)
  /-- A thread takes its next step in a call or in closing. -/
  | advance (thread : ServerThread)

/-- The step belongs to a loop alone. That of the listen thread also ends its record. -/
@[grind]
def TeardownLabel.loops : TeardownLabel → Bool
  | check .listen => false
  | check _ | again _ | callback _ | returns _ | close _ => true
  | accept | call _ _ | destroy | lock _ | insert _ | advance _ => false

namespace Server

/-- A server that listens. -/
def start : Server where
  lckClientMap := none
  pc
    | .application _ | .destructor | .listen => .loop
    | .receive _ | .handler _ => .absent
  mapUUIDToClientInfo := []
  info := none
  uuid _ := ""
  joinable _ := false
  hasHandler _ := false
  isStop := false
  receiveStop _ := false
  handlerStop _ := false
  accepted := 0
  released := []

/-- A thread moves on. -/
def goto (s : Server) (thread : ServerThread) (pc : ServerPc) : Server :=
  { s with pc := Function.update s.pc thread pc }

theorem pc_goto (s : Server) (thread : ServerThread) (pc : ServerPc) :
    (s.goto thread pc).pc = Function.update s.pc thread pc := rfl

/-- The stop flag that the loop of a thread tests. -/
def stopFlag (s : Server) : ServerThread → Bool
  | .application _ | .destructor => false
  | .listen => s.isStop
  | .receive client => s.receiveStop client
  | .handler client => s.handlerStop client

/-- Where a call starts once it has the lock. -/
def enter (s : Server) : LockedCall → ServerPc
  | .disConnect sUUID =>
    match s.mapUUIDToClientInfo.find? fun client => s.uuid client = sUUID with
    | some client => .stop ⟨client, none⟩
    | none => .unlock false
  | .disConnectAll =>
    match s.mapUUIDToClientInfo with
    | client :: later => .stop ⟨client, some later⟩
    | [] => .unlock true
  | .send => .unlock false

/-- Where a thread goes when its call returns. -/
def after : ServerThread → ServerPc
  | .application _ | .listen => .loop
  | .handler _ => .callback
  | .receive _ => .ended
  | .destructor => .joinListen

/-- The receive thread of a client is no longer attached to it. -/
def release (s : Server) (client : ℕ) : Server :=
  { s with joinable := Function.update s.joinable client false }

/-- The handler of a client is told to stop, and is no longer attached to it. -/
def takeHandler (s : Server) (client : ℕ) : Server :=
  { s with
    hasHandler := Function.update s.hasHandler client false
    handlerStop := Function.update s.handlerStop client true }

/-- The receive thread of a client is told to stop. -/
def stopReceive (s : Server) (client : ℕ) : Server :=
  { s with receiveStop := Function.update s.receiveStop client true }

/-- A thread takes its next step in a call or in closing. -/
def advance (s : Server) (thread : ServerThread) : Option Server :=
  match s.pc thread with
  | .stop job =>
    if s.joinable job.client then
      -- a thread cannot join itself
      if thread = .receive job.client then
        some (((s.stopReceive job.client).release job.client).goto thread (.reset job))
      else some ((s.stopReceive job.client).goto thread (.joinReceive job))
    else some ((s.stopReceive job.client).goto thread (.reset job))
  | .joinReceive job =>
    if s.pc (.receive job.client) = .ended then
      some ((s.release job.client).goto thread (.reset job))
    else none
  | .reset job =>
    if s.hasHandler job.client then
      some ((s.takeHandler job.client).goto thread (.joinHandler job))
    else some (s.goto thread (.disconnect job))
  | .joinHandler job =>
    -- nothing keeps the handler thread from joining itself
    if s.pc (.handler job.client) = .ended then some (s.goto thread (.disconnect job)) else none
  | .disconnect ⟨client, none⟩ => some { s.goto thread (.unlock false) with
      mapUUIDToClientInfo := s.mapUUIDToClientInfo.erase client
      released := s.released ++ [client] }
  | .disconnect ⟨client, some []⟩ =>
    some { s.goto thread (.unlock true) with released := s.released ++ [client] }
  | .disconnect ⟨client, some (next :: later)⟩ =>
    some { s.goto thread (.stop ⟨next, some later⟩) with released := s.released ++ [client] }
  | .unlock clear => some { s.goto thread (after thread) with
      lckClientMap := none
      mapUUIDToClientInfo := if clear then [] else s.mapUUIDToClientInfo }
  | .closing =>
    match thread with
    | .receive client =>
      some (((s.stopReceive client).release client).goto thread .resetting)
    | _ => none
  | .resetting =>
    match thread with
    | .receive client =>
      if s.hasHandler client then
        some ((s.takeHandler client).goto thread .joiningHandler)
      else some (s.goto thread (.wantLock (.disConnect (s.uuid client))))
    | _ => none
  | .joiningHandler =>
    match thread with
    | .receive client =>
      if s.pc (.handler client) = .ended then
        some (s.goto thread (.wantLock (.disConnect (s.uuid client))))
      else none
    | _ => none
  | .joinListen =>
    if s.pc .listen = .ended then some (s.goto thread .ended) else none
  | _ => none

/-- One step of a thread, if the label is enabled. -/
def act (s : Server) : TeardownLabel → Option Server
  | .check thread =>
    match thread, s.pc thread with
    | .listen, .loop =>
      -- the record goes out of scope only after the lock
      some { s.goto .listen (if s.stopFlag .listen then .ended else .polling) with info := none }
    | .receive _, .loop | .handler _, .loop =>
      some (s.goto thread (if s.stopFlag thread then .ended else .polling))
    | _, _ => none
  | .again thread =>
    match thread, s.pc thread with
    | .listen, .polling | .receive _, .polling | .handler _, .polling => some (s.goto thread .loop)
    | _, _ => none
  | .callback client =>
    match s.pc (.handler client) with
    | .polling => some (s.goto (.handler client) .callback)
    | _ => none
  | .returns client =>
    match s.pc (.handler client) with
    | .callback => some (s.goto (.handler client) .loop)
    | _ => none
  | .close client =>
    match s.pc (.receive client) with
    | .polling => some (s.goto (.receive client) .closing)
    | _ => none
  | .accept =>
    match s.pc .listen with
    | .polling =>
      some { s.goto .listen (.wantInsert s.accepted) with accepted := s.accepted + 1 }
    | _ => none
  | .call thread call =>
    match thread, s.pc thread with
    | .application _, .loop | .handler _, .callback => some (s.goto thread (.wantLock call))
    | _, _ => none
  | .destroy =>
    match s.pc .destructor with
    | .loop => some { s.goto .destructor (.wantLock .disConnectAll) with isStop := true }
    | _ => none
  | .lock thread =>
    match s.lckClientMap, s.pc thread with
    | none, .wantLock call => some { s.goto thread (s.enter call) with lckClientMap := thread }
    | none, .wantInsert client =>
      some { s.goto thread (.inserting client) with lckClientMap := thread }
    | _, _ => none
  | .insert sUUID =>
    match s.pc .listen with
    | .inserting client =>
      -- another UUID is drawn as long as the map holds this one
      if sUUID ∈ s.mapUUIDToClientInfo.map s.uuid then none
      else some { ((s.goto .listen (.unlock false)).goto (.receive client) .loop).goto
          (.handler client) .loop with
        mapUUIDToClientInfo := s.mapUUIDToClientInfo ++ [client]
        info := client
        uuid := Function.update s.uuid client sUUID
        joinable := Function.update s.joinable client true
        hasHandler := Function.update s.hasHandler client true
        receiveStop := Function.update s.receiveStop client false
        handlerStop := Function.update s.handlerStop client false }
    | _ => none
  | .advance thread => s.advance thread

/-- One step, as long as the destructor is not over. -/
def step (s : Server) (label : TeardownLabel) : Option Server :=
  if s.pc .destructor = .ended then none else s.act label

variable {s t : Server} {label : TeardownLabel}

/-- What a step does. -/
inductive Step (s : Server) : TeardownLabel → Server → Prop
  /-- A loop goes on, or ends, or notices that the peer has closed. -/
  | move {label : TeardownLabel} {thread : ServerThread} {pc : ServerPc}
      (loops : label.loops = true) (other : thread ≠ .destructor)
      (polls : thread = .listen → s.pc .listen = .polling)
      (looping : (s.pc thread).looping = true)
      (onward : pc.looping = true ∨ pc = .closing ∨ pc = .ended) :
      Step s label (s.goto thread pc)
  /-- The listen thread has let go of its record. -/
  | round {pc : ServerPc} (looping : s.pc .listen = .loop) (onward : pc = .polling ∨ pc = .ended) :
      Step s (.check .listen) { s.goto .listen pc with info := none }
  | accept (polling : s.pc .listen = .polling) :
      Step s .accept { s.goto .listen (.wantInsert s.accepted) with accepted := s.accepted + 1 }
  | callApplication {i : ℕ} {call : LockedCall} (ready : s.pc (.application i) = .loop) :
      Step s (.call (.application i) call) (s.goto (.application i) (.wantLock call))
  | callHandler {client : ℕ} {call : LockedCall} (ready : s.pc (.handler client) = .callback) :
      Step s (.call (.handler client) call) (s.goto (.handler client) (.wantLock call))
  | destroy (ready : s.pc .destructor = .loop) :
      Step s .destroy { s.goto .destructor (.wantLock .disConnectAll) with isStop := true }
  | lock {thread : ServerThread} {call : LockedCall} (free : s.lckClientMap = none)
      (wanting : s.pc thread = .wantLock call) :
      Step s (.lock thread) { s.goto thread (s.enter call) with lckClientMap := thread }
  | lockInsert {thread : ServerThread} {client : ℕ} (free : s.lckClientMap = none)
      (wanting : s.pc thread = .wantInsert client) :
      Step s (.lock thread) { s.goto thread (.inserting client) with lckClientMap := thread }
  | insert {client : ℕ} {sUUID : XString} (inserting : s.pc .listen = .inserting client) :
      Step s (.insert sUUID) { ((s.goto .listen (.unlock false)).goto (.receive client) .loop).goto
          (.handler client) .loop with
        mapUUIDToClientInfo := s.mapUUIDToClientInfo ++ [client]
        info := client
        uuid := Function.update s.uuid client sUUID
        joinable := Function.update s.joinable client true
        hasHandler := Function.update s.hasHandler client true
        receiveStop := Function.update s.receiveStop client false
        handlerStop := Function.update s.handlerStop client false }
  /-- `Stop` finds nothing to join, or the thread itself. -/
  | stopAlone {thread : ServerThread} {job : Disconnecting} (stop : s.pc thread = .stop job)
      (alone : s.joinable job.client = true → thread = .receive job.client) :
      Step s (.advance thread)
        (((s.stopReceive job.client).release job.client).goto thread (.reset job))
  | stopJoin {thread : ServerThread} {job : Disconnecting} (stop : s.pc thread = .stop job)
      (joinable : s.joinable job.client = true) (other : thread ≠ .receive job.client) :
      Step s (.advance thread) ((s.stopReceive job.client).goto thread (.joinReceive job))
  | joinedReceive {thread : ServerThread} {job : Disconnecting}
      (joining : s.pc thread = .joinReceive job)
      (exited : s.pc (.receive job.client) = .ended) :
      Step s (.advance thread) ((s.release job.client).goto thread (.reset job))
  | resetJoin {thread : ServerThread} {job : Disconnecting} (reset : s.pc thread = .reset job)
      (handled : s.hasHandler job.client = true) :
      Step s (.advance thread) ((s.takeHandler job.client).goto thread (.joinHandler job))
  | resetNone {thread : ServerThread} {job : Disconnecting} (reset : s.pc thread = .reset job)
      (unhandled : s.hasHandler job.client = false) :
      Step s (.advance thread) (s.goto thread (.disconnect job))
  | joinedHandler {thread : ServerThread} {job : Disconnecting}
      (joining : s.pc thread = .joinHandler job)
      (exited : s.pc (.handler job.client) = .ended) :
      Step s (.advance thread) (s.goto thread (.disconnect job))
  | disConnect {thread : ServerThread} {client : ℕ}
      (disconnect : s.pc thread = .disconnect ⟨client, none⟩) :
      Step s (.advance thread) { s.goto thread (.unlock false) with
        mapUUIDToClientInfo := s.mapUUIDToClientInfo.erase client
        released := s.released ++ [client] }
  | disConnectLast {thread : ServerThread} {client : ℕ}
      (disconnect : s.pc thread = .disconnect ⟨client, some []⟩) :
      Step s (.advance thread)
        { s.goto thread (.unlock true) with released := s.released ++ [client] }
  | disConnectNext {thread : ServerThread} {client next : ℕ} {later : List ℕ}
      (disconnect : s.pc thread = .disconnect ⟨client, some (next :: later)⟩) :
      Step s (.advance thread)
        { s.goto thread (.stop ⟨next, some later⟩) with released := s.released ++ [client] }
  | unlock {thread : ServerThread} {clear : Bool} (unlock : s.pc thread = .unlock clear) :
      Step s (.advance thread) { s.goto thread (after thread) with
        lckClientMap := none
        mapUUIDToClientInfo := if clear then [] else s.mapUUIDToClientInfo }
  | detach {client : ℕ} (closing : s.pc (.receive client) = .closing) :
      Step s (.advance (.receive client))
        (((s.stopReceive client).release client).goto (.receive client) .resetting)
  | resetSelf {client : ℕ} (resetting : s.pc (.receive client) = .resetting)
      (handled : s.hasHandler client = true) :
      Step s (.advance (.receive client))
        ((s.takeHandler client).goto (.receive client) .joiningHandler)
  | closed {client : ℕ} (late : s.pc (.receive client) = .resetting ∧ s.hasHandler client = false ∨
        s.pc (.receive client) = .joiningHandler ∧ s.pc (.handler client) = .ended) :
      Step s (.advance (.receive client))
        (s.goto (.receive client) (.wantLock (.disConnect (s.uuid client))))
  | joinedListen {thread : ServerThread} (joining : s.pc thread = .joinListen)
      (exited : s.pc .listen = .ended) : Step s (.advance thread) (s.goto thread .ended)

/-- Letting go of a receive thread that is not attached changes nothing. -/
theorem release_of_not_joinable {client : ℕ} (detached : s.joinable client = false) :
    s.release client = s := by
  unfold release
  rw [← detached, Function.update_eq_self]

/-- What a step in a call or in closing does. -/
theorem advance_cases {thread : ServerThread} (next : s.advance thread = some t) :
    Step s (.advance thread) t := by
  unfold advance at next
  split at next
  case h_1 job stop =>
    split_ifs at next with joinable self
    · exact Option.some.inj next ▸ .stopAlone stop fun _ => self
    · exact Option.some.inj next ▸ .stopJoin stop joinable self
    · have detached : (s.stopReceive job.client).joinable job.client = false := by
        simpa [stopReceive] using joinable
      rw [← release_of_not_joinable detached] at next
      exact Option.some.inj next ▸ .stopAlone stop fun joinable' => absurd joinable' joinable
  case h_2 job joining =>
    split_ifs at next with exited
    exact Option.some.inj next ▸ .joinedReceive joining exited
  case h_3 job reset =>
    split_ifs at next with handled
    · exact Option.some.inj next ▸ .resetJoin reset handled
    · exact Option.some.inj next ▸ .resetNone reset (by simpa using handled)
  case h_4 job joining =>
    split_ifs at next with exited
    exact Option.some.inj next ▸ .joinedHandler joining exited
  case h_5 client disconnect => exact Option.some.inj next ▸ .disConnect disconnect
  case h_6 client disconnect => exact Option.some.inj next ▸ .disConnectLast disconnect
  case h_7 client other later disconnect =>
    exact Option.some.inj next ▸ .disConnectNext disconnect
  case h_8 clear unlock => exact Option.some.inj next ▸ .unlock unlock
  case h_9 closing =>
    split at next
    · exact Option.some.inj next ▸ .detach closing
    · cases next
  case h_10 resetting =>
    split at next
    · split_ifs at next with handled
      · exact Option.some.inj next ▸ .resetSelf resetting handled
      · exact Option.some.inj next ▸ .closed (.inl ⟨resetting, by simpa using handled⟩)
    · cases next
  case h_11 joining =>
    split at next
    · split_ifs at next with exited
      exact Option.some.inj next ▸ .closed (.inr ⟨joining, exited⟩)
    · cases next
  case h_12 joining =>
    split_ifs at next with exited
    exact Option.some.inj next ▸ .joinedListen joining exited
  case h_13 => cases next

theorem act_cases (next : s.act label = some t) : Step s label t := by
  cases label with
  | advance thread => exact advance_cases next
  | check thread =>
    simp only [act] at next
    split at next
    case h_1 looping =>
      refine Option.some.inj next ▸ .round looping ?_
      split
      · exact .inr rfl
      · exact .inl rfl
    case h_4 => cases next
    all_goals
      rename_i looping
      refine Option.some.inj next ▸ .move rfl nofun nofun (by rw [looping]; rfl) ?_
      split <;> simp [ServerPc.looping]
  | again thread =>
    simp only [act] at next
    split at next
    case h_4 => cases next
    all_goals
      rename_i polling
      refine Option.some.inj next ▸ .move rfl nofun ?_ (by rw [polling]; rfl) (.inl rfl)
    · exact fun _ => polling
    · nofun
    · nofun
  | callback client =>
    simp only [act] at next
    split at next
    · rename_i looping
      exact Option.some.inj next ▸ .move rfl nofun nofun (by rw [looping]; rfl) (.inl rfl)
    · cases next
  | returns client =>
    simp only [act] at next
    split at next
    · rename_i looping
      exact Option.some.inj next ▸ .move rfl nofun nofun (by rw [looping]; rfl) (.inl rfl)
    · cases next
  | close client =>
    simp only [act] at next
    split at next
    · rename_i polling
      exact Option.some.inj next ▸ .move rfl nofun nofun (by rw [polling]; rfl) (.inr (.inl rfl))
    · cases next
  | accept =>
    simp only [act] at next
    split at next
    · exact Option.some.inj next ▸ .accept ‹_›
    · cases next
  | call thread call =>
    simp only [act] at next
    split at next
    · exact Option.some.inj next ▸ .callApplication ‹_›
    · exact Option.some.inj next ▸ .callHandler ‹_›
    · cases next
  | destroy =>
    simp only [act] at next
    split at next
    · exact Option.some.inj next ▸ .destroy ‹_›
    · cases next
  | lock thread =>
    simp only [act] at next
    split at next
    · rename_i call free wanting
      exact Option.some.inj next ▸ .lock free wanting
    · rename_i client free wanting
      exact Option.some.inj next ▸ .lockInsert free wanting
    · cases next
  | insert sUUID =>
    simp only [act] at next
    split at next
    · split_ifs at next
      exact Option.some.inj next ▸ .insert ‹_›
    · cases next

/-- A step is one of a thread, and the destructor is not over. -/
theorem step_eq_some_iff : s.step label = some t ↔
    s.pc .destructor ≠ .ended ∧ s.act label = some t := by
  rw [step, Option.ite_none_left_eq_some]

theorem step_cases (next : s.step label = some t) : Step s label t :=
  act_cases (step_eq_some_iff.mp next).2

/-- The thread that holds the lock is the one that is under it. -/
def Held (s : Server) : Prop :=
  ∀ thread, (s.pc thread).holding = true ↔ s.lckClientMap = some thread

theorem held_start : start.Held := by
  intro thread
  cases thread <;> simp [start, ServerPc.holding]

theorem enter_cases (call : LockedCall) :
    (∃ job, s.enter call = .stop job) ∨ ∃ clear, s.enter call = .unlock clear := by
  unfold enter
  split
  · split
    · exact .inl ⟨_, rfl⟩
    · exact .inr ⟨_, rfl⟩
  · split
    · exact .inl ⟨_, rfl⟩
    · exact .inr ⟨_, rfl⟩
  · exact .inr ⟨_, rfl⟩

theorem holding_enter (call : LockedCall) : (s.enter call).holding = true := by
  rcases s.enter_cases call with ⟨job, entered⟩ | ⟨clear, entered⟩ <;> rw [entered] <;> rfl

theorem holding_after (thread : ServerThread) : (after thread).holding = false := by
  cases thread <;> rfl

/-- A thread that moves on and keeps the lock if it has it. -/
theorem Held.moved (held : s.Held) {thread : ServerThread} {pc : ServerPc}
    (moves : t.pc = Function.update s.pc thread pc) (lock : t.lckClientMap = s.lckClientMap)
    (same : pc.holding = (s.pc thread).holding) : t.Held := by
  intro other
  rw [moves, lock]
  by_cases own : other = thread
  · subst own
    rw [Function.update_self, same]
    exact held other
  · rw [Function.update_of_ne own]
    exact held other

/-- A thread that acquires the lock. -/
theorem Held.acquired (held : s.Held) {thread : ServerThread} {pc : ServerPc}
    (moves : t.pc = Function.update s.pc thread pc) (free : s.lckClientMap = none)
    (lock : t.lckClientMap = some thread) (holds : pc.holding = true) : t.Held := by
  intro other
  rw [moves, lock]
  by_cases own : other = thread
  · subst own
    rw [Function.update_self]
    exact iff_of_true holds rfl
  · rw [Function.update_of_ne own, held other, free]
    exact iff_of_false nofun fun same => own (Option.some.inj same).symm

/-- A thread that releases the lock. -/
theorem Held.released (held : s.Held) {thread : ServerThread} {pc : ServerPc}
    (moves : t.pc = Function.update s.pc thread pc) (lock : t.lckClientMap = none)
    (holds : (s.pc thread).holding = true) (outside : pc.holding = false) : t.Held := by
  intro other
  rw [moves, lock]
  by_cases own : other = thread
  · subst own
    rw [Function.update_self, outside]
    exact iff_of_false nofun nofun
  · rw [Function.update_of_ne own, held other, (held thread).mp holds]
    exact iff_of_false (fun same => own (Option.some.inj same).symm) nofun

/-- No thread but the holder of the lock is under it. -/
theorem Held.idle (held : s.Held) {thread other : ServerThread}
    (holds : (s.pc thread).holding = true) (others : other ≠ thread) :
    (s.pc other).holding = false := by
  refine Bool.eq_false_iff.mpr fun both => others ?_
  exact Option.some.inj (((held other).mp both).symm.trans ((held thread).mp holds))

theorem Held.keep (held : s.Held) (next : s.step label = some t) : t.Held := by
  cases step_cases next with
  | move loops other polls looping onward =>
    refine held.moved rfl rfl ?_
    rw [ServerPc.holding_eq_false_of_looping looping]
    rcases onward with loops | rfl | rfl
    · exact ServerPc.holding_eq_false_of_looping loops
    · rfl
    · rfl
  | round before onward =>
    refine held.moved rfl rfl ?_
    rw [before]
    rcases onward with rfl | rfl <;> rfl
  | accept before | callApplication before | callHandler before | destroy before
  | stopAlone before | stopJoin before | joinedReceive before | resetJoin before
  | resetNone before | joinedHandler before | disConnect before | disConnectLast before
  | disConnectNext before | detach before | resetSelf before | joinedListen before =>
    exact held.moved rfl rfl (by rw [before]; rfl)
  | closed before =>
    refine held.moved rfl rfl ?_
    rcases before with ⟨resetting, -⟩ | ⟨joining, -⟩
    · rw [resetting]
      rfl
    · rw [joining]
      rfl
  | lock free wanting => exact held.acquired rfl free rfl (s.holding_enter _)
  | lockInsert free wanting => exact held.acquired rfl free rfl rfl
  | unlock before => exact held.released rfl rfl (by rw [before]; rfl) (holding_after _)
  | @insert client sUUID inserting =>
    -- the threads of the client start while the listen thread has the lock
    have idle : ∀ thread ≠ .listen, (s.pc thread).holding = false :=
      fun _ => held.idle (by rw [inserting]; rfl)
    have listens : (s.goto .listen (.unlock false)).Held :=
      held.moved rfl rfl (by rw [inserting]; rfl)
    have receives : ((s.goto .listen (.unlock false)).goto (.receive client) .loop).Held := by
      refine listens.moved rfl rfl ?_
      calc ServerPc.loop.holding
          = (s.pc (.receive client)).holding := (idle (.receive client) nofun).symm
        _ = _ := by simp [pc_goto]
    refine receives.moved rfl rfl ?_
    calc ServerPc.loop.holding
        = (s.pc (.handler client)).holding := (idle (.handler client) nofun).symm
      _ = _ := by simp [pc_goto]

end Server

end ExLibs.Network
