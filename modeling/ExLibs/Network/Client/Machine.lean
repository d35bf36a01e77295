/-
# The client: calls, pending requests and the receive thread

`SendAndWait` draws an id, files a promise under it, sends, and waits for the
promise's future; when the send fails or the wait times out it erases what is filed
under its id. `Send` draws an id from the same counter, files nothing, sends, and
returns the id if the send succeeds. The receive thread decodes a packet, moves the
promise filed under its id out of the map if there is one, and in a step of its own
fulfils the promise or calls the handler.

Each of these is a step here, so that a run is an interleaving of any number of
calls with the receive thread. A call is named by the number of ids drawn before it,
packets are numbered as they arrive, and what a packet is made of is left open.
-/
import Mathlib.Logic.Function.Basic
import ExLibs.Math.Transition
import ExLibs.Network.Packet

namespace ExLibs.Network

open ExLibs.Math

/-- A decoded packet with the number of packets decoded before it. -/
structure Arrival (Packet : Type*) where
  number : ℕ
  packet : Packet
  deriving DecidableEq

/-- Where a call is. -/
inductive CallPc (Packet : Type*)
  | absent
  /-- A `Send` that has drawn its id and sends. -/
  | send
  /-- A `Send` that returned `msgId`. -/
  | sendReturned (msgId : MSGID)
  /-- A `SendAndWait` that has drawn its id. -/
  | drawn
  /-- It has registered and sends. -/
  | sending
  /-- It waits for its future. -/
  | waiting
  /-- Its send failed; it has not erased its entry yet. -/
  | sendFailed
  /-- Its wait timed out; it has not erased its entry yet. -/
  | timedOut
  /-- It returned true with a response. -/
  | returned (response : Arrival Packet)
  /-- It erased its entry and returned false. -/
  | gaveUp
  /-- `future.get()` threw: the promise was broken. -/
  | threw
  deriving DecidableEq

namespace CallPc

variable {Packet : Type*}

/-- The call has drawn an id and has not ended. -/
def inFlight : CallPc Packet → Bool
  | send | drawn | sending | waiting | sendFailed | timedOut => true
  | absent | sendReturned _ | returned _ | gaveUp | threw => false

/-- The call has filed a promise. -/
def registered : CallPc Packet → Bool
  | sending | waiting | sendFailed | timedOut | returned _ | gaveUp | threw => true
  | absent | send | sendReturned _ | drawn => false

/-- The call may still return a response. -/
def awaiting : CallPc Packet → Bool
  | sending | waiting => true
  | absent | send | sendReturned _ | drawn | sendFailed | timedOut | returned _ | gaveUp
  | threw => false

end CallPc

/-- The future of a call. -/
inductive Future (Packet : Type*)
  | empty
  | ready (response : Arrival Packet)
  /-- The promise was destroyed without a value. -/
  | broken
  deriving DecidableEq

/-- What the receive thread holds. -/
inductive Receiver (Packet : Type*)
  | idle
  | decoded (tuPacket : Arrival Packet)
  /-- It has moved the promise of a call out of the map. -/
  | pending (tuPacket : Arrival Packet) (call : ℕ)
  | unmatched (tuPacket : Arrival Packet)
  deriving DecidableEq

/-- The state of a client. The last two fields are records of what happened: the
calls whose promise the receive thread took out of the map, and those it called
`set_value` for. -/
structure Client (Packet : Type*) where
  drawn : ℕ
  pc : ℕ → CallPc Packet
  future : ℕ → Future Packet
  mapPendingRequests : MSGID → Option ℕ
  receiver : Receiver Packet
  arrivals : ℕ
  handled : List (Arrival Packet)
  taken : List ℕ
  satisfied : List ℕ

/-- A step of a call or of the receive thread. -/
inductive ClientLabel (Packet : Type*)
  /-- `Send` draws an id. -/
  | send
  /-- The send of a `Send` is over, and it returns. -/
  | sendReturns (call : ℕ) (isSuccess : Bool)
  /-- `SendAndWait` draws an id. -/
  | sendAndWait
  /-- A call files its promise. -/
  | emplace (call : ℕ)
  | sent (call : ℕ)
  | sendFailed (call : ℕ)
  | timedOut (call : ℕ)
  /-- A call that gives up erases what is filed under its id. -/
  | erase (call : ℕ)
  /-- A call finds its future ready. -/
  | get (call : ℕ)
  /-- The receive thread decodes a packet. -/
  | decode (packet : Packet)
  /-- It looks the packet's id up. -/
  | find
  | setValue
  /-- It calls `_fnClientHandler`. -/
  | handle

namespace Client

variable {Packet : Type*} (msgIdOf : Packet → MSGID)

/-- Nothing has happened yet. -/
def start : Client Packet where
  drawn := 0
  pc _ := .absent
  future _ := .empty
  mapPendingRequests _ := none
  receiver := .idle
  arrivals := 0
  handled := []
  taken := []
  satisfied := []

/-- A call moves on. -/
def goto (s : Client Packet) (call : ℕ) (pc : CallPc Packet) : Client Packet :=
  { s with pc := Function.update s.pc call pc }

/-- The future of a call changes. -/
def setFuture (s : Client Packet) (call : ℕ) (future : Future Packet) : Client Packet :=
  { s with future := Function.update s.future call future }

/-- The entry under an id changes. -/
def setEntry (s : Client Packet) (id : MSGID) (entry : Option ℕ) : Client Packet :=
  { s with mapPendingRequests := Function.update s.mapPendingRequests id entry }

section Projections

variable (s : Client Packet) (call other : ℕ) (pc : CallPc Packet) (future : Future Packet)
  (id key : MSGID) (entry : Option ℕ)

@[simp, grind =] theorem pc_goto :
    (s.goto call pc).pc other = if other = call then pc else s.pc other :=
  Function.update_apply ..

@[simp, grind =] theorem drawn_goto : (s.goto call pc).drawn = s.drawn := rfl

@[simp, grind =] theorem future_goto : (s.goto call pc).future other = s.future other := rfl

@[simp, grind =] theorem mapPendingRequests_goto :
    (s.goto call pc).mapPendingRequests key = s.mapPendingRequests key := rfl

@[simp, grind =] theorem receiver_goto : (s.goto call pc).receiver = s.receiver := rfl

@[simp, grind =] theorem arrivals_goto : (s.goto call pc).arrivals = s.arrivals := rfl

@[simp, grind =] theorem handled_goto : (s.goto call pc).handled = s.handled := rfl

@[simp, grind =] theorem taken_goto : (s.goto call pc).taken = s.taken := rfl

@[simp, grind =] theorem satisfied_goto : (s.goto call pc).satisfied = s.satisfied := rfl

@[simp, grind =] theorem future_setFuture :
    (s.setFuture call future).future other = if other = call then future else s.future other :=
  Function.update_apply ..

@[simp, grind =] theorem pc_setFuture : (s.setFuture call future).pc other = s.pc other := rfl

@[simp, grind =] theorem drawn_setFuture : (s.setFuture call future).drawn = s.drawn := rfl

@[simp, grind =] theorem mapPendingRequests_setFuture :
    (s.setFuture call future).mapPendingRequests key = s.mapPendingRequests key := rfl

@[simp, grind =] theorem receiver_setFuture :
    (s.setFuture call future).receiver = s.receiver := rfl

@[simp, grind =] theorem arrivals_setFuture :
    (s.setFuture call future).arrivals = s.arrivals := rfl

@[simp, grind =] theorem handled_setFuture : (s.setFuture call future).handled = s.handled := rfl

@[simp, grind =] theorem taken_setFuture : (s.setFuture call future).taken = s.taken := rfl

@[simp, grind =] theorem satisfied_setFuture :
    (s.setFuture call future).satisfied = s.satisfied := rfl

@[simp, grind =] theorem mapPendingRequests_setEntry :
    (s.setEntry id entry).mapPendingRequests key =
      if key = id then entry else s.mapPendingRequests key :=
  Function.update_apply ..

@[simp, grind =] theorem pc_setEntry : (s.setEntry id entry).pc other = s.pc other := rfl

@[simp, grind =] theorem drawn_setEntry : (s.setEntry id entry).drawn = s.drawn := rfl

@[simp, grind =] theorem future_setEntry :
    (s.setEntry id entry).future other = s.future other := rfl

@[simp, grind =] theorem receiver_setEntry : (s.setEntry id entry).receiver = s.receiver := rfl

@[simp, grind =] theorem arrivals_setEntry : (s.setEntry id entry).arrivals = s.arrivals := rfl

@[simp, grind =] theorem handled_setEntry : (s.setEntry id entry).handled = s.handled := rfl

@[simp, grind =] theorem taken_setEntry : (s.setEntry id entry).taken = s.taken := rfl

@[simp, grind =] theorem satisfied_setEntry : (s.setEntry id entry).satisfied = s.satisfied := rfl

end Projections

/-- File the promise of a call. `emplace` leaves an entry that is there as it is, and
the promise is destroyed. -/
def emplace (s : Client Packet) (call : ℕ) : Client Packet :=
  match s.mapPendingRequests (msgIdSeq call) with
  | none => s.setEntry (msgIdSeq call) (some call)
  | some _ => s.setFuture call .broken

/-- Erase the entry under an id. A promise that is filed there is destroyed. -/
def erase (s : Client Packet) (id : MSGID) : Client Packet :=
  match s.mapPendingRequests id with
  | none => s
  | some owner => (s.setEntry id none).setFuture owner .broken

/-- One step, if the label is enabled. -/
def step (s : Client Packet) : ClientLabel Packet → Option (Client Packet)
  | .send => some { s.goto s.drawn .send with drawn := s.drawn + 1 }
  | .sendReturns call isSuccess =>
    match s.pc call with
    | .send => some (s.goto call (.sendReturned (if isSuccess then msgIdSeq call else 0)))
    | _ => none
  | .sendAndWait => some { s.goto s.drawn .drawn with drawn := s.drawn + 1 }
  | .emplace call =>
    match s.pc call with
    | .drawn => some ((s.emplace call).goto call .sending)
    | _ => none
  | .sent call =>
    match s.pc call with
    | .sending => some (s.goto call .waiting)
    | _ => none
  | .sendFailed call =>
    match s.pc call with
    | .sending => some (s.goto call .sendFailed)
    | _ => none
  | .timedOut call =>
    match s.pc call, s.future call with
    | .waiting, .empty => some (s.goto call .timedOut)
    | _, _ => none
  | .erase call =>
    match s.pc call with
    | .sendFailed | .timedOut => some ((s.erase (msgIdSeq call)).goto call .gaveUp)
    | _ => none
  | .get call =>
    match s.pc call, s.future call with
    | .waiting, .ready response => some (s.goto call (.returned response))
    | .waiting, .broken => some (s.goto call .threw)
    | _, _ => none
  | .decode packet =>
    match s.receiver with
    | .idle => some { s with receiver := .decoded ⟨s.arrivals, packet⟩, arrivals := s.arrivals + 1 }
    | _ => none
  | .find =>
    match s.receiver with
    | .decoded tuPacket =>
      match s.mapPendingRequests (msgIdOf tuPacket.packet) with
      | some call => some { s.setEntry (msgIdOf tuPacket.packet) none with
          receiver := .pending tuPacket call, taken := s.taken ++ [call] }
      | none => some { s with receiver := .unmatched tuPacket }
    | _ => none
  | .setValue =>
    match s.receiver with
    | .pending tuPacket call => some { s.setFuture call (.ready tuPacket) with
        receiver := .idle, satisfied := s.satisfied ++ [call] }
    | _ => none
  | .handle =>
    match s.receiver with
    | .unmatched tuPacket =>
      some { s with receiver := .idle, handled := s.handled ++ [tuPacket] }
    | _ => none

/-- What a step does, one case for every way each label can go. -/
inductive Step (s : Client Packet) : ClientLabel Packet → Client Packet → Prop
  | send : Step s .send { s.goto s.drawn .send with drawn := s.drawn + 1 }
  | sendReturns {call : ℕ} {isSuccess : Bool} (at_send : s.pc call = .send) :
      Step s (.sendReturns call isSuccess)
        (s.goto call (.sendReturned (if isSuccess then msgIdSeq call else 0)))
  | sendAndWait : Step s .sendAndWait { s.goto s.drawn .drawn with drawn := s.drawn + 1 }
  | emplace {call : ℕ} (at_drawn : s.pc call = .drawn)
      (free : s.mapPendingRequests (msgIdSeq call) = none) :
      Step s (.emplace call) ((s.setEntry (msgIdSeq call) (some call)).goto call .sending)
  | clash {call owner : ℕ} (at_drawn : s.pc call = .drawn)
      (filed : s.mapPendingRequests (msgIdSeq call) = some owner) :
      Step s (.emplace call) ((s.setFuture call .broken).goto call .sending)
  | sent {call : ℕ} (at_sending : s.pc call = .sending) : Step s (.sent call) (s.goto call .waiting)
  | sendFailed {call : ℕ} (at_sending : s.pc call = .sending) :
      Step s (.sendFailed call) (s.goto call .sendFailed)
  | timedOut {call : ℕ} (at_waiting : s.pc call = .waiting) (empty : s.future call = .empty) :
      Step s (.timedOut call) (s.goto call .timedOut)
  | erase {call owner : ℕ} (giving_up : s.pc call = .sendFailed ∨ s.pc call = .timedOut)
      (filed : s.mapPendingRequests (msgIdSeq call) = some owner) :
      Step s (.erase call)
        (((s.setEntry (msgIdSeq call) none).setFuture owner .broken).goto call .gaveUp)
  | eraseNothing {call : ℕ} (giving_up : s.pc call = .sendFailed ∨ s.pc call = .timedOut)
      (free : s.mapPendingRequests (msgIdSeq call) = none) :
      Step s (.erase call) (s.goto call .gaveUp)
  | get {call : ℕ} {response : Arrival Packet} (at_waiting : s.pc call = .waiting)
      (ready : s.future call = .ready response) :
      Step s (.get call) (s.goto call (.returned response))
  | throw {call : ℕ} (at_waiting : s.pc call = .waiting) (broken : s.future call = .broken) :
      Step s (.get call) (s.goto call .threw)
  | decode {packet : Packet} (idle : s.receiver = .idle) :
      Step s (.decode packet)
        { s with receiver := .decoded ⟨s.arrivals, packet⟩, arrivals := s.arrivals + 1 }
  | find {tuPacket : Arrival Packet} {call : ℕ} (decoded : s.receiver = .decoded tuPacket)
      (filed : s.mapPendingRequests (msgIdOf tuPacket.packet) = some call) :
      Step s .find { s.setEntry (msgIdOf tuPacket.packet) none with
        receiver := .pending tuPacket call, taken := s.taken ++ [call] }
  | miss {tuPacket : Arrival Packet} (decoded : s.receiver = .decoded tuPacket)
      (free : s.mapPendingRequests (msgIdOf tuPacket.packet) = none) :
      Step s .find { s with receiver := .unmatched tuPacket }
  | setValue {tuPacket : Arrival Packet} {call : ℕ}
      (pending : s.receiver = .pending tuPacket call) :
      Step s .setValue { s.setFuture call (.ready tuPacket) with
        receiver := .idle, satisfied := s.satisfied ++ [call] }
  | handle {tuPacket : Arrival Packet} (unmatched : s.receiver = .unmatched tuPacket) :
      Step s .handle { s with receiver := .idle, handled := s.handled ++ [tuPacket] }

/-- The cases are what the step function does. -/
theorem step_cases {s t : Client Packet} {label : ClientLabel Packet}
    (next : step msgIdOf s label = some t) : Step msgIdOf s label t := by
  cases label with
  | send => exact Option.some.inj next ▸ .send
  | sendReturns call isSuccess =>
    simp only [step] at next
    split at next
    · exact Option.some.inj next ▸ .sendReturns ‹_›
    · cases next
  | sendAndWait => exact Option.some.inj next ▸ .sendAndWait
  | emplace call =>
    simp only [step] at next
    split at next
    · rename_i at_drawn
      obtain rfl := Option.some.inj next
      rw [Client.emplace]
      split
      · rename_i free
        exact .emplace at_drawn free
      · rename_i owner filed
        exact .clash at_drawn filed
    · cases next
  | sent call =>
    simp only [step] at next
    split at next
    · exact Option.some.inj next ▸ .sent ‹_›
    · cases next
  | sendFailed call =>
    simp only [step] at next
    split at next
    · exact Option.some.inj next ▸ .sendFailed ‹_›
    · cases next
  | timedOut call =>
    simp only [step] at next
    split at next
    · exact Option.some.inj next ▸ .timedOut ‹_› ‹_›
    · cases next
  | erase call =>
    have erased (giving_up : s.pc call = .sendFailed ∨ s.pc call = .timedOut) :
        Step msgIdOf s (.erase call) ((s.erase (msgIdSeq call)).goto call .gaveUp) := by
      rw [Client.erase]
      split
      · exact .eraseNothing giving_up ‹_›
      · exact .erase giving_up ‹_›
    simp only [step] at next
    split at next
    · exact Option.some.inj next ▸ erased (.inl ‹_›)
    · exact Option.some.inj next ▸ erased (.inr ‹_›)
    · cases next
  | get call =>
    simp only [step] at next
    split at next
    · exact Option.some.inj next ▸ .get ‹_› ‹_›
    · exact Option.some.inj next ▸ .throw ‹_› ‹_›
    · cases next
  | decode packet =>
    simp only [step] at next
    split at next
    · exact Option.some.inj next ▸ .decode ‹_›
    · cases next
  | find =>
    simp only [step] at next
    split at next
    · split at next
      · exact Option.some.inj next ▸ .find ‹_› ‹_›
      · exact Option.some.inj next ▸ .miss ‹_› ‹_›
    · cases next
  | setValue =>
    simp only [step] at next
    split at next
    · exact Option.some.inj next ▸ .setValue ‹_›
    · cases next
  | handle =>
    simp only [step] at next
    split at next
    · exact Option.some.inj next ▸ .handle ‹_›
    · cases next

end Client

end ExLibs.Network
