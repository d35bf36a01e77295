/-
# Conversations of a server with its clients

What the sends of a server write to a socket the receive thread of the client reads, in its own
chunks and while others are writing. As long as frames stay whole on the sockets, the client has
at each moment handed on the payloads of the first calls that have finished there, with their ids,
exactly if each of its reads so far got a frame in chunks that carry it whole.
-/
import ExLibs.Network.Server.Wire
import ExLibs.Network.Truncation

namespace ExLibs.Network

open ExLibs.Math

namespace Sends

variable {s t : Sends} {label : SendLabel} {labels : List SendLabel} {call socket : ℕ}

/-- A call that has written somewhere has begun, and is not one that waits for the lock. -/
theorem Recorded.finished_ne_nil (recorded : s.Recorded) (written : call ∈ s.written socket) :
    (s.pc call).finished ≠ [] :=
  List.ne_nil_of_mem ((recorded.listed call socket).mp written)

/-- The calls that have finished on a socket stay, with their frames. -/
theorem written_of_step (held : s.Held) (recorded : s.Recorded) (next : s.step label = some t)
    (socket : ℕ) : s.written socket <+: t.written socket ∧ ∀ call ∈ s.written socket,
      t.vecPacket call = s.vecPacket call ∧ t.vecData call = s.vecData call := by
  have finished := fun call => @recorded.finished_ne_nil s call socket
  cases step_cases next with
  | @sendToClientSocket socket' msgId vecData =>
    refine ⟨List.prefix_rfl, fun call written => ?_⟩
    -- a call has written nothing when it begins, nor when it gets the lock
    have begun : call ≠ s.calls := by
      rintro rfl
      exact finished _ written (by rw [held.fresh _ le_rfl]; rfl)
    simp [begin, write, goto, begun]
  | @begin label vecData request =>
    refine ⟨List.prefix_rfl, fun call written => ?_⟩
    have begun : call ≠ s.calls := by
      rintro rfl
      exact finished _ written (by rw [held.fresh _ le_rfl]; rfl)
    simp [begin, goto, begun]
  | leave => exact ⟨List.prefix_rfl, fun _ _ => ⟨rfl, rfl⟩⟩
  | @lock one drawn socket' request msgId later free locking distinct =>
    refine ⟨List.prefix_rfl, fun call written => ?_⟩
    have other : call ≠ one := by
      rintro rfl
      exact finished _ written (by rw [locking]; rfl)
    simp [write, goto, other]
  | part => exact ⟨List.prefix_rfl, fun _ _ => ⟨rfl, rfl⟩⟩
  | @finish call k w writing last =>
    refine ⟨?_, fun _ _ => ⟨rfl, rfl⟩⟩
    simp only [append, advance, goto, Function.update_apply]
    split
    · rename_i same
      exact same ▸ List.prefix_append ..
    · exact List.prefix_rfl
  | update => exact ⟨List.prefix_rfl, fun _ _ => ⟨rfl, rfl⟩⟩

/-- A call that has returned does nothing any more. -/
theorem returned_of_step (held : s.Held) (next : s.step label = some t) {addressed : List ℕ}
    (returned : s.pc call = .returned addressed) : t.pc call = .returned addressed := by
  have begun : call ≠ s.calls := by
    rintro rfl
    cases (held.fresh _ le_rfl).symm.trans returned
  cases step_cases next with
  | sendToClientSocket | begin => simp [begin, write, goto, begun, returned]
  | @leave one drawn request before | @lock one drawn socket request msgId later free before
  | @part one k w before | @finish one k w before =>
    have other : call ≠ one := by
      rintro rfl
      cases returned.symm.trans before
    simp [write, append, advance, goto, other, returned]
  | update => exact returned

theorem recorded_of_run (run : Run step Free start labels s) : s.Held ∧ s.Recorded := by
  have initial : start.Held ∧ start.Recorded := by
    obtain ⟨held, recorded, -⟩ := invariant (.nil : Run step Exclusive start [] start)
    exact ⟨held, recorded⟩
  refine @Run.invariant _ _ step Free start s labels (fun s => s.Held ∧ s.Recorded) initial
    (fun s label t inv _ next => ?_) run
  exact ⟨inv.1.keep next, inv.2.keep inv.1 next⟩

/-- The calls that have finished on a socket do not change places. -/
theorem kept_of_run {addressed : List ℕ} (held : s.Held) (recorded : s.Recorded)
    (run : Run step Free s labels t) (returned : s.pc call = .returned addressed) (socket : ℕ) :
    t.Held ∧ t.Recorded ∧ t.pc call = .returned addressed ∧
      s.written socket <+: t.written socket := by
  induction run with
  | nil => exact ⟨held, recorded, returned, List.prefix_rfl⟩
  | snoc _ _ next ih =>
    obtain ⟨held', recorded', returned', grows⟩ := ih
    exact ⟨held'.keep next, recorded'.keep held' next, returned_of_step held' next returned',
      grows.trans (written_of_step held' recorded' next socket).1⟩

/-- A call that has returned when another begins has its frame in front of the frame of the other,
on every socket that both have written to. -/
theorem sublist_written_of_returned {labels' : List SendLabel} {addressed : List ℕ} {later : ℕ}
    (run : Run step Free start labels s) (returned : s.pc call = .returned addressed)
    (begins : s.calls ≤ later) (rest : Run step Free s labels' t) (socket : ℕ)
    (first : call ∈ t.written socket) (second : later ∈ t.written socket) :
    [call, later].Sublist (t.written socket) := by
  obtain ⟨held, recorded⟩ := recorded_of_run run
  obtain ⟨-, recorded', returned', front, grows⟩ :=
    kept_of_run held recorded rest returned socket
  have before : call ∈ s.written socket := by
    rw [recorded'.listed, returned'] at first
    rwa [recorded.listed, returned]
  -- the other had not begun, so that its frame is among those that were written since
  have after : later ∉ s.written socket := by
    rw [recorded.listed, held.fresh later begins]
    exact List.not_mem_nil
  rw [← grows] at second ⊢
  have behind := (List.mem_append.mp second).resolve_left after
  exact (List.singleton_sublist.mpr before).append (List.singleton_sublist.mpr behind)

/-- A socket has received the frames of the calls that have finished there, and perhaps some of the
next. -/
theorem Apart.exists_wire (apart : s.Apart) (socket : ℕ) :
    ∃ begun, s.wire socket = s.frames socket ++ begun := by
  by_cases idle : ∀ call w, s.pc call = .writing w → w.socket = socket → w.total = 0
  · exact ⟨[], (apart.complete socket idle).trans (List.append_nil _).symm⟩
  · push Not at idle
    obtain ⟨call, w, writing, rfl, begun⟩ := idle
    exact ⟨_, apart.begun call w writing (Nat.pos_of_ne_zero begun)⟩

/-- In a run in which no frame is cut into another, a call that has returned when another begins has
its frame in front of the frame of the other, on the wire of every socket to which both have written
theirs. -/
theorem wire_of_returned {labels' : List SendLabel} {addressed : List ℕ} {later : ℕ}
    (run : Run step Exclusive start labels s) (returned : s.pc call = .returned addressed)
    (begins : s.calls ≤ later) (rest : Run step Exclusive s labels' t)
    (first : socket ∈ addressed) (second : socket ∈ (t.pc later).finished) :
    ∃ (msgId msgId' : MSGID) (front between back : List Byte), t.wire socket =
      front ++ convertSendMsg msgId (t.vecData call) ++ between ++
        convertSendMsg msgId' (t.vecData later) ++ back := by
  obtain ⟨held, recorded, -⟩ := invariant run
  obtain ⟨-, recorded', apart⟩ := invariant (run.trans rest)
  obtain ⟨-, -, returned', -⟩ := kept_of_run held recorded rest.free returned socket
  have written : call ∈ t.written socket := by
    rw [recorded'.listed, returned']
    exact first
  have order := sublist_written_of_returned run.free returned begins rest.free socket written
    ((recorded'.listed later socket).mpr second)
  obtain ⟨msgId, frame⟩ := recorded'.written socket call written
  obtain ⟨msgId', frame'⟩ := recorded'.written socket later
    ((recorded'.listed later socket).mpr second)
  -- the frames stand on the wire as the calls stand in the record
  obtain ⟨calls, tail, split, member, one⟩ := List.cons_sublist_iff.mp order
  obtain ⟨calls₁, calls₂, rfl⟩ := List.append_of_mem member
  obtain ⟨calls₃, calls₄, rfl⟩ := List.append_of_mem (List.singleton_sublist.mp one)
  obtain ⟨begun, wire⟩ := apart.exists_wire socket
  refine ⟨msgId, msgId', calls₁.flatMap t.vecPacket, (calls₂ ++ calls₃).flatMap t.vecPacket,
    calls₄.flatMap t.vecPacket ++ begun, ?_⟩
  rw [wire, frames, split, ← frame, ← frame']
  simp

/-- A reply, and a broadcast after it. -/
theorem wire_of_two : ∃ (s : Sends) (msgId msgId' : MSGID) (front between back : List Byte),
    s.wire 0 =
      front ++ convertSendMsg msgId [1] ++ between ++ convertSendMsg msgId' [2] ++ back := by
  obtain ⟨s, run, ended⟩ := @exists_run_of_guarded _ _ step Exclusive
    (fun s label => s.Exclusive label) (fun _ _ => of_decide_eq_true) start
    [.update oneClient, .sendToClientSocket 0 7 [1], .send 0 9]
    (fun s => s.pc 0 = .returned [0] ∧ s.calls = 1 ∧
      (exec (guarded step fun s label => s.Exclusive label) s
        [.sendToAll [2], .lock 1, .send 1 9]).any fun t =>
          (t.pc 1).finished = [0] ∧ t.vecData 0 = [1] ∧ t.vecData 1 = [2])
    (by decide)
  obtain ⟨returned, calls, later⟩ := of_decide_eq_true ended
  obtain ⟨t, rest, written⟩ := @exists_run_of_guarded _ _ step Exclusive
    (fun s label => s.Exclusive label) (fun _ _ => of_decide_eq_true) s _ _ later
  obtain ⟨finished, one, two⟩ := of_decide_eq_true written
  have second : 0 ∈ (t.pc 1).finished := finished ▸ List.mem_singleton_self 0
  have wire := wire_of_returned run returned calls.le rest (List.mem_singleton_self 0) second
  rw [one, two] at wire
  exact ⟨t, wire⟩

end Sends

/-- A round that only gets chunks, and goes on, hands on a packet with what it has got. -/
theorem ReceiveThread.round_of_chunks {connection : Connection} {s t : ReceiveThread}
    {cs : List ℕ} (next : s.round connection (cs.map .got) = some t)
    (looping : t.status = .looping) : ∃ (k : ℕ) (packet : TuPacketMsg) (pData : List Byte),
      connection.receive s.stream (cs.map .got) = .returned k pData (s.stream.drop k) [] ∧
      k ≤ s.stream.length ∧ k ≤ extPacketSize ∧ t = ⟨.looping, s.stream.drop k, s.delivered ++
        [⟨packet, k, pData, s.stream.take (s.stream.length - (s.stream.drop k).length)⟩]⟩ := by
  unfold round at next
  split at next
  · rename_i call
    obtain ⟨k, rfl, enough, room, rfl, -⟩ := Connection.content_of_chunks call
    split_ifs at next with positive closed
    · obtain ⟨packet, -, made⟩ := Option.bind_eq_some_iff.mp next
      exact ⟨k, packet, _, call, enough, room, (Option.some.inj made).symm⟩
    · obtain rfl := Option.some.inj next
      cases looping
    · omega
  · obtain rfl := Option.some.inj next
    cases looping
  · cases next

/-- The client at the other end of a socket: its receive thread, how many bytes it has taken off
the socket, and what it has handed on. -/
structure SocketClient where
  status : ThreadStatus
  taken : ℕ
  delivered : List Delivery

/-- A server and the clients of its sockets. -/
structure Conversation where
  sends : Sends
  client : ℕ → SocketClient

inductive ConversationLabel
  | server (label : SendLabel)
  /-- The client of a socket makes a call of `Receive`, which gets its bytes in chunks. -/
  | receive (socket : ℕ) (cs : List ℕ)

namespace Conversation

def start : Conversation := ⟨.start, fun _ => ⟨.looping, 0, []⟩⟩

/-- The receive thread of a client, with the bytes that it has not taken off the socket. -/
def receiveThread (s : Conversation) (socket : ℕ) : ReceiveThread :=
  ⟨(s.client socket).status, (s.sends.wire socket).drop (s.client socket).taken,
    (s.client socket).delivered⟩

/-- One step, if the label is enabled. -/
def step (s : Conversation) : ConversationLabel → Option Conversation
  | .server label => (s.sends.step label).map fun sends => { s with sends }
  | .receive socket cs =>
    (cNetwork.clientReceiveThread (s.receiveThread socket) (cs.map .got)).map fun thread =>
      { s with client := Function.update s.client socket ⟨thread.status,
          (s.sends.wire socket).length - thread.stream.length, thread.delivered⟩ }

/-- A packet is handed on with the payload and the id of a call. -/
def Carries (s : Sends) (call : ℕ) (d : Delivery) : Prop :=
  ∃ msgId, s.vecPacket call = convertSendMsg msgId (s.vecData call) ∧
    d.packet = ⟨(s.vecData call).length, msgId, s.vecData call⟩

/-- The calls whose frames the client has taken, when it has handed on one packet for each. -/
def told (s : Conversation) (socket : ℕ) : List ℕ :=
  (s.sends.written socket).take (s.client socket).delivered.length

/-- A client has handed on what the first calls have sent that have finished on its socket, each
once and in order, and has taken their frames off the socket. -/
structure Faithful (s : Conversation) (socket : ℕ) : Prop where
  looping : (s.client socket).status = .looping
  delivered : List.Forall₂ (Carries s.sends) (s.told socket) (s.client socket).delivered
  taken : (s.client socket).taken = ((s.told socket).flatMap s.sends.vecPacket).length

/-- No frame is cut into another. -/
def Exclusive (s : Conversation) : ConversationLabel → Prop
  | .server label => s.sends.Exclusive label
  | .receive .. => True

/-- A call of `Receive` gets the next frame in chunks that carry it whole. -/
def Whole (s : Conversation) : ConversationLabel → Prop
  | .server _ => True
  | .receive socket cs => ∃ (call : ℕ) (message : Message),
      (s.sends.written socket)[(s.client socket).delivered.length]? = some call ∧
      message.frame = s.sends.vecPacket call ∧ SplitsWhole message cs

variable {s t : Conversation} {labels : List ConversationLabel} {socket call : ℕ} {cs : List ℕ}

/-- What the client has not taken begins with the frames of the calls that it has not handed on. -/
theorem Faithful.stream_eq (faithful : s.Faithful socket) (apart : s.sends.Apart) :
    ∃ begun, (s.receiveThread socket).stream = ((s.sends.written socket).drop
      (s.client socket).delivered.length).flatMap s.sends.vecPacket ++ begun := by
  obtain ⟨begun, wire⟩ := apart.exists_wire socket
  refine ⟨begun, ?_⟩
  have split : s.sends.frames socket = (s.told socket).flatMap s.sends.vecPacket ++
      ((s.sends.written socket).drop (s.client socket).delivered.length).flatMap
        s.sends.vecPacket := by
    rw [← List.flatMap_append, told, List.take_append_drop]
    rfl
  change (s.sends.wire socket).drop (s.client socket).taken = _
  rw [wire, split, List.append_assoc, faithful.taken, List.drop_left]

/-- The frame of the next call comes first. -/
theorem Faithful.exists_later (faithful : s.Faithful socket) (apart : s.sends.Apart)
    (next : (s.sends.written socket)[(s.client socket).delivered.length]? = some call) :
    ∃ later, (s.receiveThread socket).stream = s.sends.vecPacket call ++ later := by
  obtain ⟨begun, stream⟩ := faithful.stream_eq apart
  obtain ⟨there, at_⟩ := List.getElem?_eq_some_iff.mp next
  rw [stream, List.drop_eq_getElem_cons there, List.flatMap_cons, at_, List.append_assoc]
  exact ⟨_, rfl⟩

/-- With one call more the client has taken one frame more. -/
theorem told_succ {n : ℕ} {written : List ℕ} (next : written[n]? = some call) :
    written.take (n + 1) = written.take n ++ [call] := by
  rw [List.take_add_one, next]
  rfl

/-- A packet more has been handed on, and the bytes of a call of `Receive` have been taken. -/
theorem receive_cases (next : s.step (.receive socket cs) = some t)
    (looping : (t.client socket).status = .looping) :
    t.sends = s.sends ∧ (∀ other ≠ socket, t.client other = s.client other) ∧
    ∃ (k : ℕ) (d : Delivery), k ≤ (s.receiveThread socket).stream.length ∧ k ≤ extPacketSize ∧
      Connection.client.receive (s.receiveThread socket).stream (cs.map .got) =
        .returned k d.vecRcvBuf ((s.receiveThread socket).stream.drop k) [] ∧
      (t.client socket).delivered = (s.client socket).delivered ++ [d] ∧
      (t.client socket).taken = (s.sends.wire socket).length -
        ((s.receiveThread socket).stream.drop k).length := by
  obtain ⟨thread, rounds, rfl⟩ := Option.map_eq_some_iff.mp next
  refine ⟨rfl, fun other distinct => Function.update_of_ne distinct .., ?_⟩
  simp only [Function.update_self] at looping ⊢
  obtain ⟨k, packet, pData, call, enough, room, rfl⟩ :=
    ReceiveThread.round_of_chunks rounds looping
  exact ⟨k, _, enough, room, call, rfl, rfl⟩

/-- A client that hands on what the next call has sent, and takes its frame. -/
theorem Faithful.snoc {d : Delivery} {taken : ℕ} (before : s.Faithful socket)
    (sends : t.sends = s.sends)
    (client : t.client socket = ⟨.looping, taken, (s.client socket).delivered ++ [d]⟩)
    (found : (s.sends.written socket)[(s.client socket).delivered.length]? = some call)
    (carries : Carries s.sends call d)
    (own : taken = (s.client socket).taken + (s.sends.vecPacket call).length) :
    t.Faithful socket := by
  have told' : t.told socket = s.told socket ++ [call] := by
    rw [told, client, sends, List.length_append, List.length_singleton, told_succ found, told]
  refine ⟨by rw [client], ?_, ?_⟩
  · rw [told', client, sends]
    exact List.rel_append before.delivered (.cons carries .nil)
  · rw [told', client, sends, List.flatMap_append, List.length_append, List.flatMap_singleton,
      ← before.taken]
    exact own

/-- Whoever decodes the frame of a call has its payload. -/
theorem carries_of_frame {n k : ℕ} {message : Message} {pData consumed : List Byte}
    (recorded : s.sends.Recorded) (found : (s.sends.written socket)[k]? = some call)
    (same : message.frame = s.sends.vecPacket call) :
    Carries s.sends call ⟨message.packet, n, pData, consumed⟩ := by
  obtain ⟨msgId, frame⟩ := recorded.written socket call (List.mem_of_getElem? found)
  refine ⟨msgId, frame, ?_⟩
  have small : extPacketSize < 2 ^ 32 := by decide
  have fits := message.fits
  have lengths := congrArg List.length (same.trans frame)
  rw [message.length_frame, length_convertSendMsg] at lengths
  -- the same bytes decode to the packet of the message and to that of the call
  have first := convertReceiveMsg_convertSendMsg message.msgId message.payload [] (by
    rw [List.length_nil]
    omega)
  have second := convertReceiveMsg_convertSendMsg msgId (s.sends.vecData call) [] (by
    rw [List.length_nil]
    omega)
  rw [← frame, ← same] at second
  exact Option.some.inj (first.symm.trans second)

/-- The client keeps to the calls if it gets their frames whole. -/
theorem Faithful.receive (recorded : s.sends.Recorded) (apart : s.sends.Apart)
    (before : s.Faithful socket) (whole : s.Whole (.receive socket cs))
    (next : s.step (.receive socket cs) = some t) : t.Faithful socket := by
  obtain ⟨call, message, found, same, splits⟩ := whole
  obtain ⟨later, stream⟩ := before.exists_later apart found
  rw [← same] at stream
  obtain ⟨n, pData, returns⟩ := receive_of_splitsWhole .client splits later []
  rw [List.append_nil] at returns
  obtain ⟨k, rfl, enough, -, rest, -⟩ := Connection.content_of_chunks returns
  have own : k = message.frame.length := by
    have lengths := congrArg List.length rest
    rw [List.length_drop] at lengths
    rw [List.length_append] at enough lengths
    omega
  have positive : (0 : ℤ) < k := by
    rw [own, message.length_frame]
    omega
  have decodes := convertReceiveMsg_of_receive returns
  rw [← stream] at returns
  -- the thread makes the round that the chunks of the frame allow
  have rounds := ReceiveThread.round_of_returned before.looping returns positive decodes
  obtain ⟨thread, rounds', rfl⟩ := Option.map_eq_some_iff.mp next
  obtain rfl := Option.some.inj (rounds.symm.trans rounds')
  refine before.snoc rfl (Function.update_self ..) found (carries_of_frame recorded found same) ?_
  have unread : (s.receiveThread socket).stream.length =
      (s.sends.wire socket).length - (s.client socket).taken := List.length_drop
  have ahead := congrArg List.length stream
  have header := message.length_frame
  rw [List.length_append] at ahead
  rw [← same]
  change (s.sends.wire socket).length - later.length = _
  omega

/-- What the server does takes nothing back. -/
theorem Faithful.server {sends : Sends} {label : SendLabel} (held : s.sends.Held)
    (recorded : s.sends.Recorded) (faithful : s.Faithful socket)
    (next : s.sends.step label = some sends) : Faithful { s with sends } socket := by
  obtain ⟨⟨later, grows⟩, keeps⟩ := Sends.written_of_step held recorded next socket
  have lengths := faithful.delivered.length_eq
  have enough : (s.client socket).delivered.length ≤ (s.sends.written socket).length := by
    rw [told, List.length_take] at lengths
    omega
  have told' : told { s with sends } socket = s.told socket := by
    rw [told, told, ← grows, List.take_append_of_le_length enough]
  have kept : ∀ call ∈ s.told socket, sends.vecPacket call = s.sends.vecPacket call ∧
      sends.vecData call = s.sends.vecData call := fun call member =>
    keeps call (List.mem_of_mem_take member)
  refine ⟨faithful.looping, ?_, ?_⟩
  · rw [told']
    refine List.Forall₂.imp ?_ ((List.forall₂_and_left ..).mpr ⟨kept, faithful.delivered⟩)
    rintro call d ⟨⟨packet, payload⟩, msgId, frame, carries⟩
    exact ⟨msgId, by rw [packet, payload, frame], by rw [payload, carries]⟩
  · rw [told']
    refine faithful.taken.trans (congrArg List.length ?_)
    exact List.flatMap_congr fun call member => (kept call member).1.symm

/-- What holds in every state of a run that keeps to the conditions. -/
structure Sound (s : Conversation) : Prop where
  held : s.sends.Held
  recorded : s.sends.Recorded
  apart : s.sends.Apart
  faithful : ∀ socket, s.Faithful socket

theorem sound_start : start.Sound := by
  obtain ⟨held, recorded, apart⟩ :=
    Sends.invariant (.nil : Run Sends.step Sends.Exclusive .start [] .start)
  exact ⟨held, recorded, apart, fun _ => ⟨rfl, .nil, rfl⟩⟩

theorem Sound.step {label : ConversationLabel} (sound : s.Sound) (exclusive : s.Exclusive label)
    (whole : s.Whole label) (next : s.step label = some t) : t.Sound := by
  cases label with
  | server label =>
    obtain ⟨sends, sent, rfl⟩ := Option.map_eq_some_iff.mp next
    exact ⟨sound.held.keep sent, sound.recorded.keep sound.held sent,
      sound.apart.keep sound.held sound.recorded exclusive sent,
      fun socket => (sound.faithful socket).server sound.held sound.recorded sent⟩
  | receive socket cs =>
    have receives := (sound.faithful socket).receive sound.recorded sound.apart whole next
    obtain ⟨sends, others, -⟩ := receive_cases next receives.looping
    refine ⟨sends ▸ sound.held, sends ▸ sound.recorded, sends ▸ sound.apart, fun other => ?_⟩
    rcases eq_or_ne other socket with rfl | distinct
    · exact receives
    · obtain ⟨looping, delivered, taken⟩ := sound.faithful other
      have client := others other distinct
      have told' : t.told other = s.told other := by rw [told, told, sends, client]
      refine ⟨client ▸ looping, ?_, ?_⟩
      · rw [told', client, sends]
        exact delivered
      · rw [told', client, sends]
        exact taken

end Conversation

end ExLibs.Network
