/-
# Handing on what was received

Both receive threads loop on `Receive` and hand on a packet whenever it returned a
positive number. They decode the whole buffer, whatever was received into it, so a
packet is intact only if the call met no failure and read what the header declares.
Which calls do is a matter of the outcomes of their `recv`s alone.
-/
import ExLibs.Math.Transition
import ExLibs.Network.Framing

namespace ExLibs.Network

open ExLibs.Math

/-- A packet that was handed on, and the call of `Receive` it came from: its return
value, its buffer and the bytes it took off the stream. -/
structure Delivery where
  packet : TuPacketMsg
  nRcvBytes : ℤ
  vecRcvBuf : List Byte
  consumed : List Byte

/-- The buffer begins with exactly the bytes that were received, as many as
`Receive` said, and the packet lies among them. -/
def Delivery.Intact (d : Delivery) : Prop :=
  d.vecRcvBuf.take d.nRcvBytes.toNat = d.consumed ∧ (8 + d.packet.data.length : ℤ) ≤ d.nRcvBytes

/-- Where a receive thread is. -/
inductive ThreadStatus
  | looping
  /-- It has seen the connection closed. -/
  | ended
  /-- It has stored bytes outside its buffer. -/
  | corrupted
  deriving DecidableEq

/-- A receive thread: what is left of the stream and what it has handed on. -/
structure ReceiveThread where
  status : ThreadStatus
  stream : List Byte
  delivered : List Delivery

namespace ReceiveThread

/-- A thread that starts on a stream. -/
def start (stream : List Byte) : ReceiveThread := ⟨.looping, stream, []⟩

/-- One round of the loop, with the outcomes of the `recv`s that it makes. -/
def round (connection : Connection) (s : ReceiveThread) (outcomes : List RecvOutcome) :
    Option ReceiveThread :=
  match s.status, connection.receive s.stream outcomes with
  | .looping, .returned nRcvBytes vecRcvBuf rest [] =>
    if nRcvBytes > 0 then do
      let tuPacket ← convertReceiveMsg vecRcvBuf
      let consumed := s.stream.take (s.stream.length - rest.length)
      some ⟨.looping, rest, s.delivered ++ [⟨tuPacket, nRcvBytes, vecRcvBuf, consumed⟩]⟩
    else if nRcvBytes = 0 then some ⟨.ended, rest, s.delivered⟩
    else some ⟨.looping, rest, s.delivered⟩
  | .looping, .overrun [] => some { s with status := .corrupted }
  | _, _ => none

/-- Every packet handed on is intact, and the thread has kept to its buffer. -/
def Untruncated (s : ReceiveThread) : Prop :=
  s.status ≠ .corrupted ∧ ∀ d ∈ s.delivered, d.Intact

/-- The outcomes of a call do no harm: the peer is found gone while the header is
read; or no more bytes arrive than failures are counted, and none after the read of
the size failed; or nothing fails, and what the header declares arrives, up to the
size of the buffer. -/
def Harmless (s : ReceiveThread) (outcomes : List RecvOutcome) : Prop :=
  HeaderClosed outcomes ∨
    (received outcomes ≤ failures outcomes ∧ (SizeFailed outcomes → received outcomes = 0)) ∨
    (failures outcomes = 0 ∧
      8 + min (declaredSize s.stream) (extPacketSize - 8) ≤ received outcomes ∧
      received outcomes ≤ extPacketSize)

end ReceiveThread

/-- `cNetworkServerReceive::receiveThread`, round by round. -/
def cNetworkServerReceive.receiveThread (connectionClient : ℕ) :
    ReceiveThread → List RecvOutcome → Option ReceiveThread :=
  ReceiveThread.round (.server connectionClient)

/-- `cNetwork::clientReceiveThread`, round by round. -/
def cNetwork.clientReceiveThread : ReceiveThread → List RecvOutcome → Option ReceiveThread :=
  ReceiveThread.round .client

/-- The receive thread of either end. -/
def Connection.receiveThread : Connection → ReceiveThread → List RecvOutcome → Option ReceiveThread
  | .server connectionClient => cNetworkServerReceive.receiveThread connectionClient
  | .client => cNetwork.clientReceiveThread

theorem Connection.receiveThread_eq (connection : Connection) :
    connection.receiveThread = ReceiveThread.round connection := by
  cases connection <;> rfl

/-- The declared size is read off the first four bytes. -/
theorem declaredSize_take_append {stream : List Byte} {k : ℕ} (header : 4 ≤ k)
    (enough : k ≤ stream.length) (tail : List Byte) :
    declaredSize (stream.take k ++ tail) = declaredSize stream := by
  obtain ⟨k, rfl⟩ := Nat.exists_eq_add_of_le' header
  match stream, header.trans enough with
  | b₀ :: b₁ :: b₂ :: b₃ :: stream, _ => rfl

/-- What a positive return value stands for. -/
theorem Delivery.intact_iff {stream rest pData : List Byte} {arrived failed : ℕ} {n : ℤ}
    {packet : TuPacketMsg} (positive : 0 < n)
    (account : Accounts (Reader.start (List.replicate extPacketSize 0)) stream arrived failed n
      pData rest)
    (decodes : convertReceiveMsg pData = some packet) :
    (Delivery.mk packet n pData (stream.take (stream.length - rest.length))).Intact ↔
      failed = 0 ∧ 8 + min (declaredSize stream) (extPacketSize - 8) ≤ arrived ∧
        arrived ≤ extPacketSize := by
  have length : pData.length = extPacketSize := account.length.trans List.length_replicate
  have total : n = arrived - failed := by
    have := account.total
    simp only [Reader.start] at this
    omega
  have taken : stream.length - rest.length = arrived := by
    have enough := account.enough
    rw [account.rest, List.length_drop]
    omega
  have small : extPacketSize < 2 ^ 32 := by decide
  have large : 8 ≤ extPacketSize := by decide
  obtain ⟨packet', decodes', -, data⟩ :=
    @exists_convertReceiveMsg pData (by omega) (by omega)
  obtain rfl := Option.some.inj (decodes.symm.trans decodes')
  have payload : packet.data.length = min (declaredSize pData) (extPacketSize - 8) := by
    rw [data, List.length_take, List.length_drop, length]
  have content (none_failed : failed = 0) :=
    account.content none_failed [] (List.replicate extPacketSize 0) rfl rfl
  simp only [Delivery.Intact, taken]
  constructor
  · rintro ⟨begins, within⟩
    have lengths := congrArg List.length begins
    rw [List.length_take, List.length_take, length] at lengths
    have enough := account.enough
    have none_failed : failed = 0 := by omega
    refine ⟨none_failed, ?_, by omega⟩
    rw [payload, (content none_failed).2, List.nil_append,
      declaredSize_take_append (by omega) enough] at within
    omega
  · rintro ⟨none_failed, whole, room⟩
    refine ⟨?_, ?_⟩
    · have bound : (stream.take arrived).length = n.toNat := by
        rw [List.length_take_of_le account.enough]
        omega
      rw [(content none_failed).2, List.nil_append, List.take_left' bound]
    · rw [payload, (content none_failed).2, List.nil_append,
        declaredSize_take_append (by omega) account.enough]
      omega

namespace ReceiveThread

variable {connection : Connection} {s t : ReceiveThread} {outcomes : List RecvOutcome}

/-- What a round does: it hands on a packet, hands on nothing, or stores outside its
buffer. -/
theorem round_cases (next : round connection s outcomes = some t) :
    s.status = .looping ∧
      ((∃ n pData rest packet, connection.receive s.stream outcomes = .returned n pData rest [] ∧
          0 < n ∧ convertReceiveMsg pData = some packet ∧ t.status = .looping ∧
          t.delivered = s.delivered ++
            [⟨packet, n, pData, s.stream.take (s.stream.length - rest.length)⟩]) ∨
        (∃ n pData rest, connection.receive s.stream outcomes = .returned n pData rest [] ∧
          n ≤ 0 ∧ t.status ≠ .corrupted ∧ t.delivered = s.delivered) ∨
        (connection.receive s.stream outcomes = .overrun [] ∧ t.status = .corrupted)) := by
  unfold round at next
  split at next
  · rename_i n pData rest looping call
    refine ⟨looping, ?_⟩
    split_ifs at next with positive closed
    · obtain ⟨packet, decodes, made⟩ := Option.bind_eq_some_iff.mp next
      obtain rfl := Option.some.inj made
      exact .inl ⟨n, pData, rest, packet, call, positive, decodes, rfl, rfl⟩
    · obtain rfl := Option.some.inj next
      exact .inr (.inl ⟨n, pData, rest, call, by omega, by simp, rfl⟩)
    · obtain rfl := Option.some.inj next
      exact .inr (.inl ⟨n, pData, rest, call, by omega, by simp, rfl⟩)
  · rename_i looping call
    obtain rfl := Option.some.inj next
    exact ⟨looping, .inr (.inr ⟨call, rfl⟩)⟩
  · cases next

/-- A call that returns a positive number and a buffer that decodes hands on a packet. -/
theorem round_of_returned {n : ℤ} {pData rest : List Byte} {packet : TuPacketMsg}
    (looping : s.status = .looping)
    (call : connection.receive s.stream outcomes = .returned n pData rest []) (positive : 0 < n)
    (decodes : convertReceiveMsg pData = some packet) :
    round connection s outcomes = some ⟨.looping, rest, s.delivered ++
      [⟨packet, n, pData, s.stream.take (s.stream.length - rest.length)⟩]⟩ := by
  simp only [round, looping, call, decodes]
  rw [if_pos positive]
  rfl

/-- A round keeps packets intact exactly if its outcomes do no harm. -/
theorem untruncated_iff_of_round (next : round connection s outcomes = some t) :
    t.Untruncated ↔ s.Untruncated ∧ s.Harmless outcomes := by
  obtain ⟨looping, ⟨n, pData, rest, packet, call, positive, decodes, status, delivered⟩ |
    ⟨n, pData, rest, call, idle, status, delivered⟩ | ⟨call, status⟩⟩ := round_cases next
  · -- a packet is handed on
    rw [Connection.receive_eq] at call
    obtain ⟨used, split, ⟨-, rfl, -⟩ | ⟨open_, account, -⟩⟩ := Reader.accounts_of_run_start call
    · omega
    rw [List.append_nil] at split
    subst split
    have total := account.total
    simp only [Reader.start] at total
    have counts : ¬ received outcomes ≤ failures outcomes := by omega
    simp only [Untruncated, status, delivered, looping, Harmless, open_, counts, false_and,
      false_or, List.forall_mem_append, List.forall_mem_singleton,
      Delivery.intact_iff positive account decodes, ne_eq, reduceCtorEq, not_false_eq_true,
      true_and]
  · -- nothing is handed on
    have harmless : s.Harmless outcomes := by
      rw [Connection.receive_eq] at call
      obtain ⟨used, split, ⟨closed, -⟩ | ⟨-, account, unread⟩⟩ :=
        Reader.accounts_of_run_start call
      · rw [List.append_nil] at split
        exact .inl (split ▸ closed)
      · rw [List.append_nil] at split
        subst split
        have total := account.total
        simp only [Reader.start] at total
        exact .inr (.inl ⟨by omega, unread⟩)
    simp only [Untruncated, status, delivered, looping, harmless, and_true, ne_eq, reduceCtorEq,
      not_false_eq_true]
  · -- bytes are stored outside the buffer
    have harm : ¬ s.Harmless outcomes := by
      rw [Connection.receive_eq] at call
      obtain ⟨used, split, open_, arrived, beyond⟩ :=
        Reader.received_of_run_start_overrun (by rw [List.length_replicate]; decide) call
      rw [List.append_nil] at split
      subst split
      rw [List.length_replicate] at beyond
      rintro (closed | ⟨few, unread⟩ | ⟨none_failed, -, room⟩)
      · exact open_ closed
      · rcases beyond with unread' | beyond
        · have := unread unread'
          omega
        · omega
      · rcases beyond with unread' | beyond
        · have := failures_pos_of_sizeFailed unread'
          omega
        · omega
    simp only [Untruncated, status, harm, ne_eq, not_true_eq_false, false_and, and_false]

/-- When the peer closes after a header, the thread hands on a packet with a payload
of the declared length, none of which was received. -/
theorem exists_round_of_close (connection : Connection) {stream : List Byte}
    (header : 8 ≤ stream.length) :
    ∃ t d, round connection (start stream) [.got 4, .got 4, .closed] = some t ∧
      t.delivered = [d] ∧ d.consumed = stream.take 8 ∧
      d.packet.data.length = min (declaredSize stream) (extPacketSize - 8) := by
  have large : 8 ≤ extPacketSize := by decide
  have small : extPacketSize < 2 ^ 32 := by decide
  obtain ⟨r, looping, total, length, -, run_eq⟩ := Reader.run_header
    (List.replicate extPacketSize 0) stream (j := 4) (m := 4) ⟨by omega, le_rfl⟩ ⟨by omega, le_rfl⟩
    (by rw [List.length_replicate]; exact large) header
  have last : r.run true (stream.drop (4 + 4)) [.closed] =
      .returned r.total r.pData (stream.drop (4 + 4)) [] := by
    simp only [Reader.run, recv, Reader.resume, RecvResult.bytes, Reader.store_nil, looping,
      RecvResult.count, List.length_nil, Nat.cast_zero, if_true]
  have call : connection.receive stream [.got 4, .got 4, .closed] = _ :=
    (connection.receive_eq _ _).trans ((run_eq _).trans last)
  obtain ⟨used, split, ⟨closed, -⟩ | ⟨-, account, -⟩⟩ :=
    Reader.accounts_of_run_start ((run_eq _).trans last)
  · rw [List.append_nil] at split
    subst split
    simp [HeaderClosed] at closed
  rw [List.append_nil] at split
  subst split
  obtain ⟨-, content⟩ := account.content rfl [] (List.replicate extPacketSize 0) rfl rfl
  rw [List.length_replicate] at length
  obtain ⟨packet, decodes, -, data⟩ :=
    @exists_convertReceiveMsg r.pData (by omega) (by omega)
  have taken : stream.length - (stream.drop (4 + 4)).length = 8 := by
    rw [List.length_drop]
    omega
  have next := round_of_returned (s := start stream) rfl call (by omega) decodes
  refine ⟨_, _, next, rfl, congrArg (List.take · stream) taken, ?_⟩
  · rw [data, List.length_take, List.length_drop, length, content]
    rw [List.nil_append, declaredSize_take_append (by decide) account.enough]

end ReceiveThread

/-- Whatever the outcomes of all `recv`s, either receive thread hands on intact
packets only, and keeps to its buffer, if and only if every call met harmless
outcomes. -/
theorem untruncated_iff_harmless (connection : Connection) {stream : List Byte}
    {calls : List (List RecvOutcome)} {s : ReceiveThread}
    (run : Run connection.receiveThread Free (.start stream) calls s) :
    s.Untruncated ↔
      Run connection.receiveThread ReceiveThread.Harmless (.start stream) calls s := by
  refine run.good_iff ⟨by simp [ReceiveThread.start], by simp [ReceiveThread.start]⟩ ?_
  intro calls s outcomes t _ next
  rw [connection.receiveThread_eq] at next
  exact ReceiveThread.untruncated_iff_of_round next

/-- A message of one byte. -/
def oneByte : Message := ⟨1, [42], by decide⟩

/-- A message of one byte goes through the client's thread without harm. -/
theorem oneByte_untruncated : ∃ s : ReceiveThread, s.delivered.length = 1 ∧ s.Untruncated := by
  have whole : SplitsWhole oneByte [4, 4, 1] :=
    @SplitsWhole.short oneByte 4 (by decide) (by decide)
  obtain ⟨n, pData, call⟩ := receive_of_splitsWhole .client whole [] []
  rw [List.append_nil (List.map _ _)] at call
  have decodes := convertReceiveMsg_of_receive call
  obtain ⟨k, rfl, -, -, rest, -⟩ := Connection.content_of_chunks call
  have positive : 0 < k := by
    by_contra zero
    rw [Nat.eq_zero_of_not_pos zero] at rest
    revert rest
    decide
  rw [List.append_nil] at call
  have next := ReceiveThread.round_of_returned (s := .start oneByte.frame) rfl call
    (Int.natCast_pos.mpr positive) decodes
  rw [← Connection.receiveThread_eq] at next
  refine ⟨_, rfl, (untruncated_iff_harmless .client (.snoc .nil trivial next)).mpr ?_⟩
  exact .snoc .nil (.inr (.inr ⟨by decide, by decide, by decide⟩)) next

/-- A header that declares nine bytes, and nothing after it. -/
def bareHeader : List Byte := [0, 0, 0, 9, 0, 0, 0, 1]

/-- A header that declares nine bytes, with the peer gone after it, makes the server's
thread hand on a packet of nine bytes that were never received. -/
theorem bareHeader_handed_on :
    ∃ s d, Run (Connection.server 0).receiveThread Free (.start bareHeader)
        [[.got 4, .got 4, .closed]] s ∧ s.delivered = [d] ∧ d.packet.data.length = 9 ∧
      d.consumed = bareHeader ∧ ¬ s.Untruncated := by
  obtain ⟨t, d, next, delivered, consumed, payload⟩ :=
    ReceiveThread.exists_round_of_close (.server 0) (by decide : 8 ≤ bareHeader.length)
  refine ⟨t, d, .snoc .nil trivial next, delivered, payload.trans (by decide), consumed, ?_⟩
  rw [ReceiveThread.untruncated_iff_of_round next]
  rintro ⟨-, (single | ⟨_, pair⟩) | ⟨few, -⟩ | ⟨-, whole, -⟩⟩
  · cases single
  · cases pair
  · revert few
    decide
  · revert whole
    decide

end ExLibs.Network
