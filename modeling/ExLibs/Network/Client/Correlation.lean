/-
# Requests and replies on one connection

A client and a server share a connection that delivers frames whole and in order. The
server replies to a request under the request's id, and pushes frames of its own
under ids from its own counter, which starts where the client's does. The client
tells them apart by the id alone. A call returns the reply to its own request as long
as the receive thread looks up no push, and no reply from `2 ^ 32` draws away, while
a request with that id is pending.
-/
import ExLibs.Network.Client.Bookkeeping

namespace ExLibs.Network

open ExLibs.Math

/-- Why the server sent a frame: as the reply to a request, by `SendToClientSocket`,
or on its own, by `SendToClient` or `SendToAll`. -/
inductive Origin
  | reply (request : ℕ)
  | push
  deriving DecidableEq

/-- A frame from the server. The client sees the packet only. -/
structure ServerFrame where
  packet : TuPacketMsg
  origin : Origin
  deriving DecidableEq

/-- The id of a frame. -/
def ServerFrame.msgId (frame : ServerFrame) : MSGID := frame.packet.msgId

/-- A connection: the client, the requests and the frames on their way, the requests
that have reached the server, and how many ids the server has drawn. Requests are
named by the calls that sent them. -/
structure Link where
  client : Client ServerFrame
  transmitted : List ℕ
  toServer : List ℕ
  atServer : List ℕ
  toClient : List ServerFrame
  serverDrawn : ℕ

/-- A step of the client, the network or the server. -/
inductive LinkLabel
  /-- The client takes a step other than decoding a packet. -/
  | client (label : ClientLabel ServerFrame)
  /-- The last byte of a request leaves the client. -/
  | transmit (call : ℕ)
  /-- The next request reaches the server's handler. -/
  | receive
  /-- `SendToClientSocket` with the id of a request. -/
  | reply (request : ℕ) (vecData : PacketData)
  /-- `SendToClient` or `SendToAll`. -/
  | push (vecData : PacketData)
  /-- `SendToClient` to another client. -/
  | pushElsewhere
  /-- The next frame reaches the client's receive thread. -/
  | deliver

namespace Link

/-- A fresh connection. -/
def start : Link where
  client := .start
  transmitted := []
  toServer := []
  atServer := []
  toClient := []
  serverDrawn := 0

/-- A step of the client, whose sends succeed exactly when their last byte has left. -/
def clientStep (s : Link) (label : ClientLabel ServerFrame) : Option Link := do
  let client ← s.client.step ServerFrame.msgId label
  some { s with client := client }

/-- One step, if the label is enabled. -/
def step (s : Link) : LinkLabel → Option Link
  | .client (.decode _) => none
  | .client (.sendReturns call isSuccess) =>
    if decide (call ∈ s.transmitted) = isSuccess then s.clientStep (.sendReturns call isSuccess)
    else none
  | .client (.sent call) => if call ∈ s.transmitted then s.clientStep (.sent call) else none
  | .client (.sendFailed call) =>
    if call ∈ s.transmitted then none else s.clientStep (.sendFailed call)
  | .client label => s.clientStep label
  | .transmit call =>
    match s.client.pc call with
    | .sending | .send =>
      if call ∈ s.transmitted then none
      else some { s with
        transmitted := s.transmitted ++ [call], toServer := s.toServer ++ [call] }
    | _ => none
  | .receive =>
    match s.toServer with
    | request :: toServer => some { s with toServer, atServer := s.atServer ++ [request] }
    | [] => none
  | .reply request vecData =>
    if request ∈ s.atServer then
      some { s with
        toClient := s.toClient ++ [⟨⟨vecData.length, msgIdSeq request, vecData⟩, .reply request⟩] }
    else none
  | .push vecData =>
    some { s with
      toClient := s.toClient ++ [⟨⟨vecData.length, msgIdSeq s.serverDrawn, vecData⟩, .push⟩]
      serverDrawn := s.serverDrawn + 1 }
  | .pushElsewhere => some { s with serverDrawn := s.serverDrawn + 1 }
  | .deliver =>
    match s.toClient with
    | frame :: toClient => do
      let client ← s.client.step ServerFrame.msgId (.decode frame)
      some { s with client, toClient }
    | [] => none

/-- The receive thread looks a packet up while a request with its id is pending only
if it is a reply, to a request of fewer than `2 ^ 32` draws away. -/
def Separate (s : Link) : LinkLabel → Prop
  | .client .find => ∀ tuPacket call, s.client.receiver = .decoded tuPacket →
      s.client.mapPendingRequests tuPacket.packet.msgId = some call →
      ∃ request, tuPacket.packet.origin = .reply request ∧
        request < call + 2 ^ 32 ∧ call < request + 2 ^ 32
  | _ => True

/-- A call that returned a response got the reply to its own request. -/
def Correlated (s : Link) : Prop :=
  ∀ call response, s.client.pc call = .returned response →
    response.packet.origin = .reply call

/-- Every response that a call has got, or is about to get, is the reply to it. -/
def Answered (s : Link) : Prop :=
  Client.Responds (fun call response => response.packet.origin = .reply call) s.client

/-- Replies carry the ids of the requests they answer. -/
structure Labelled (s : Link) : Prop where
  travelling : ∀ frame ∈ s.toClient, ∀ request, frame.origin = .reply request →
    frame.msgId = msgIdSeq request
  decoded : ∀ tuPacket, s.client.receiver = .decoded tuPacket → ∀ request,
    tuPacket.packet.origin = .reply request → tuPacket.packet.msgId = msgIdSeq request

variable {s t : Link} {label : LinkLabel}

/-- A step of the connection is a step of the client, which decodes nothing but the
next frame, or leaves the client as it is and adds at most a frame with a proper
id. -/
theorem step_cases (next : s.step label = some t) :
    (∃ clientLabel, label = .client clientLabel ∧ (∀ packet, clientLabel ≠ .decode packet) ∧
        s.client.step ServerFrame.msgId clientLabel = some t.client ∧ t.toClient = s.toClient) ∨
      (∃ frame, label = .deliver ∧ s.toClient = frame :: t.toClient ∧
        s.client.step ServerFrame.msgId (.decode frame) = some t.client) ∨
      (t.client = s.client ∧ (∀ clientLabel, label ≠ .client clientLabel) ∧
        ∀ frame ∈ t.toClient, frame ∈ s.toClient ∨
          ∀ request, frame.origin = .reply request → frame.msgId = msgIdSeq request) := by
  have moved {clientLabel : ClientLabel ServerFrame}
      (other : ∀ packet, clientLabel ≠ .decode packet)
      (next : s.clientStep clientLabel = some t) :
      ∃ clientLabel', LinkLabel.client clientLabel = .client clientLabel' ∧
        (∀ packet, clientLabel' ≠ .decode packet) ∧
        s.client.step ServerFrame.msgId clientLabel' = some t.client ∧ t.toClient = s.toClient := by
    obtain ⟨client, moves, made⟩ := Option.bind_eq_some_iff.mp next
    obtain rfl := Option.some.inj made
    exact ⟨clientLabel, rfl, other, moves, rfl⟩
  cases label with
  | client clientLabel =>
    left
    cases clientLabel with
    | decode packet => cases next
    | sendReturns call isSuccess | sent call =>
      simp only [step, Option.ite_none_right_eq_some] at next
      exact moved (by simp) next.2
    | sendFailed call =>
      simp only [step, Option.ite_none_left_eq_some] at next
      exact moved (by simp) next.2
    | _ => exact moved (by simp) next
  | transmit call =>
    simp only [step] at next
    split at next
    · obtain ⟨-, made⟩ := Option.ite_none_left_eq_some.mp next
      obtain rfl := Option.some.inj made
      exact .inr (.inr ⟨rfl, by simp, fun frame member => .inl member⟩)
    · obtain ⟨-, made⟩ := Option.ite_none_left_eq_some.mp next
      obtain rfl := Option.some.inj made
      exact .inr (.inr ⟨rfl, by simp, fun frame member => .inl member⟩)
    · cases next
  | receive =>
    simp only [step] at next
    split at next
    · obtain rfl := Option.some.inj next
      exact .inr (.inr ⟨rfl, by simp, fun frame member => .inl member⟩)
    · cases next
  | reply request vecData =>
    obtain ⟨-, made⟩ := Option.ite_none_right_eq_some.mp next
    obtain rfl := Option.some.inj made
    refine .inr (.inr ⟨rfl, by simp, fun frame member => ?_⟩)
    rcases List.mem_append.mp member with earlier | new
    · exact .inl earlier
    · obtain rfl := List.mem_singleton.mp new
      exact .inr fun request' same => Origin.reply.inj same ▸ rfl
  | push vecData =>
    obtain rfl := Option.some.inj next
    refine .inr (.inr ⟨rfl, by simp, fun frame member => ?_⟩)
    rcases List.mem_append.mp member with earlier | new
    · exact .inl earlier
    · obtain rfl := List.mem_singleton.mp new
      exact .inr fun request' pushed => by cases pushed
  | pushElsewhere =>
    obtain rfl := Option.some.inj next
    exact .inr (.inr ⟨rfl, by simp, fun frame member => .inl member⟩)
  | deliver =>
    simp only [step] at next
    split at next
    · rename_i frame toClient waiting
      obtain ⟨client, moves, made⟩ := Option.bind_eq_some_iff.mp next
      obtain rfl := Option.some.inj made
      exact .inr (.inl ⟨frame, rfl, waiting, moves⟩)
    · cases next

/-- The client of a connection runs as a client. -/
theorem client_run {allowed : Link → LinkLabel → Prop} {labels : List LinkLabel}
    (run : Run step allowed start labels s) :
    ∃ clientLabels, Run (Client.step ServerFrame.msgId) Free .start clientLabels s.client := by
  refine run.simulate Link.client fun labels s label t _ _ next => ?_
  rcases step_cases next with ⟨clientLabel, -, -, moves, -⟩ | ⟨frame, -, -, moves⟩ | ⟨same, -⟩
  · exact .inr ⟨_, moves⟩
  · exact .inr ⟨_, moves⟩
  · exact .inl same

theorem custody_of_run {allowed : Link → LinkLabel → Prop} {labels : List LinkLabel}
    (run : Run step allowed start labels s) : s.client.Custody := by
  obtain ⟨clientLabels, clientRun⟩ := client_run run
  exact Client.custody_of_run clientRun

/-- Only a step that decodes puts a packet in the receive thread's hands. -/
theorem Labelled.decoded_step {client : Client ServerFrame} {clientLabel : ClientLabel ServerFrame}
    (moves : Client.Step ServerFrame.msgId s.client clientLabel client)
    (other : ∀ packet, clientLabel ≠ .decode packet) {tuPacket : Arrival ServerFrame}
    (decoded : client.receiver = .decoded tuPacket) : s.client.receiver = .decoded tuPacket := by
  cases moves with
  | decode idle => exact absurd rfl (other _)
  | find | miss | setValue | handle => cases decoded
  | _ => exact decoded

theorem Labelled.step (inv : Labelled s) (next : s.step label = some t) : Labelled t := by
  rcases step_cases next with ⟨clientLabel, -, other, moves, same⟩ | ⟨frame, -, waiting, moves⟩ |
    ⟨same, -, frames⟩
  · refine ⟨same ▸ inv.travelling, fun tuPacket decoded => ?_⟩
    exact inv.decoded tuPacket
      (decoded_step (Client.step_cases _ moves) other decoded)
  · refine ⟨fun other member => inv.travelling other (waiting ▸ List.mem_cons_of_mem _ member), ?_⟩
    intro tuPacket decoded
    have received := Client.step_cases _ moves
    generalize t.client = client at received decoded
    cases received
    obtain rfl := Receiver.decoded.inj decoded
    exact inv.travelling frame (waiting ▸ List.mem_cons_self)
  · refine ⟨fun frame member => ?_, same ▸ inv.decoded⟩
    rcases frames frame member with earlier | labelled
    · exact inv.travelling frame earlier
    · exact labelled

theorem labelled_of_run {allowed : Link → LinkLabel → Prop} {labels : List LinkLabel}
    (run : Run step allowed start labels s) : Labelled s :=
  run.invariant (by constructor <;> simp [start, Client.start])
    fun _ _ _ inv _ next => inv.step next

/-- However requests, replies, pushes and timeouts interleave, a call that returns
true returns the reply to its own request, as long as the receive thread looks up no
push and no far-off reply under an id that is pending. -/
theorem correlated_of_separate {labels : List LinkLabel} (run : Run step Separate start labels s) :
    s.Correlated := by
  have answered : Answered s := by
    apply run.invariant_of_reached
    · exact Client.Responds.start _
    intro labels s label t run before separate next
    rcases step_cases next with ⟨clientLabel, rfl, -, moves, -⟩ | ⟨frame, rfl, -, moves⟩ | ⟨same, -⟩
    · refine before.step (Client.step_cases _ moves) ?_
      rintro tuPacket call rfl decoded filed
      obtain ⟨request, replies, near, near'⟩ := separate tuPacket call decoded filed
      -- the entry and the reply have the same id, so the call is the one replied to
      have own := ((custody_of_run run).filed _ _ filed).1
      have labelled := (labelled_of_run run).decoded tuPacket decoded request replies
      rw [replies, Client.msgIdSeq_inj near near' (labelled.symm.trans own)]
    · refine before.step (Client.step_cases _ moves) ?_
      intro tuPacket call find
      cases find
    · rw [Answered, same]
      exact before
  exact fun call response returned => answered.of_returned (custody_of_run run) returned

/-- Whether a step keeps to separate ids, decided. -/
def isSeparate (s : Link) : LinkLabel → Bool
  | .client .find =>
    match s.client.receiver with
    | .decoded tuPacket =>
      (s.client.mapPendingRequests tuPacket.packet.msgId).all fun call =>
        match tuPacket.packet.origin with
        | .reply request => request < call + 2 ^ 32 ∧ call < request + 2 ^ 32
        | .push => false
    | _ => true
  | _ => true

theorem separate_of_isSeparate (s : Link) (label : LinkLabel)
    (decided : s.isSeparate label = true) : s.Separate label := by
  cases label with
  | client clientLabel =>
    cases clientLabel with
    | find =>
      intro tuPacket call decoded filed
      simp only [isSeparate, decoded, filed, Option.all_some] at decided
      split at decided
      · rename_i request replies
        exact ⟨request, replies, of_decide_eq_true decided⟩
      · cases decided
    | _ => trivial
  | _ => trivial

/-- The steps of a call up to its wait. -/
def request (call : ℕ) : List LinkLabel :=
  [.client .sendAndWait, .client (.emplace call), .transmit call, .client (.sent call)]

/-- The steps that get the next frame to a call. -/
def response (call : ℕ) : List LinkLabel :=
  [.deliver, .client .find, .client .setValue, .client (.get call)]

/-- A request and its reply, with a push before the request. -/
theorem correlated_of_reply : ∃ s : Link, s.Correlated ∧
    s.client.pc 0 = .returned ⟨1, ⟨1, 1, [7]⟩, .reply 0⟩ := by
  obtain ⟨s, run, returned⟩ := @exists_run_of_guarded _ _ step Separate isSeparate
    separate_of_isSeparate start
    ([.push [9], .deliver, .client .find, .client .handle] ++ request 0 ++
      [.receive, .reply 0 [7]] ++ response 0)
    (fun s => s.client.pc 0 = .returned ⟨1, ⟨1, 1, [7]⟩, .reply 0⟩) (by decide)
  exact ⟨s, correlated_of_separate run, of_decide_eq_true returned⟩

/-- The first push of the server has the id of the first request of the client, and
is returned as its response. -/
theorem push_returned : ∃ s : Link,
    Run step Free start (request 0 ++ [.push [9]] ++ response 0) s ∧
      s.client.pc 0 = .returned ⟨0, ⟨1, 1, [9]⟩, .push⟩ ∧ ¬ s.Correlated := by
  obtain ⟨s, run, ended⟩ := @exists_run_of_exec _ _ step start
    (request 0 ++ [.push [9]] ++ response 0)
    (fun s => s.client.pc 0 = .returned ⟨0, ⟨1, 1, [9]⟩, .push⟩) (by decide)
  have returned := of_decide_eq_true ended
  refine ⟨s, run, returned, fun correlated => ?_⟩
  cases correlated 0 _ returned

end Link

end ExLibs.Network
