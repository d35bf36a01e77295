/-
# Frames over a chunked byte stream

The encoder counts the payload in the size word; `Receive` counts everything it
has read against it, header included, and asks for at least one more chunk
whatever it has read so far. A frame therefore comes across whole in two ways
only. Either the size arrives in one chunk and the payload is so short that the
header alone has passed the limit, so that a single unbounded `recv` takes the
rest; or the size arrives cut after its first byte, which is zero, so that the
limit is the size of the buffer and the frame is exactly that long.
-/
import ExLibs.Network.Chunks
import Mathlib.Data.List.Forall2

namespace ExLibs.Network

open ExLibs.Math

/-- A message that fits in a receive buffer. -/
structure Message where
  msgId : MSGID
  payload : PacketData
  fits : 8 + payload.length ≤ extPacketSize

namespace Message

/-- What the sender puts on the stream. -/
def frame (message : Message) : List Byte := convertSendMsg message.msgId message.payload

/-- What the receiver is to make of it. -/
def packet (message : Message) : TuPacketMsg :=
  ⟨message.payload.length, message.msgId, message.payload⟩

theorem length_frame (message : Message) : message.frame.length = 8 + message.payload.length :=
  length_convertSendMsg ..

end Message

/-- Call `Receive` and `convertReceiveMsg` a number of times. The result has the
packets, each with the number of bytes that its call took off the stream, and the
stream and the outcomes that are left. -/
def readMessages (connection : Connection) :
    ℕ → List Byte → List RecvOutcome →
      Option (List (TuPacketMsg × ℕ) × List Byte × List RecvOutcome)
  | 0, stream, outcomes => some ([], stream, outcomes)
  | count + 1, stream, outcomes =>
    match connection.receive stream outcomes with
    | .returned _ pData rest left => do
      let packet ← convertReceiveMsg pData
      let (later, rest', left') ← readMessages connection count rest left
      some ((packet, stream.length - rest.length) :: later, rest', left')
    | .blocked | .overrun _ | .refused => none

/-- The messages, sent back to back and chunked as `cs`, are read back one by
one, each call taking its own frame off the stream. -/
def ReadsBack (connection : Connection) (messages : List Message) (cs : List ℕ) : Prop :=
  readMessages connection messages.length (messages.flatMap Message.frame) (cs.map .got) =
    some (messages.map fun message => (message.packet, 8 + message.payload.length), [], [])

/-- The chunks in which a frame comes across whole. -/
inductive SplitsWhole (message : Message) : List ℕ → Prop
  /-- The size in one chunk, some of the id in the next, and the payload shorter
  than what has been read. -/
  | short {m : ℕ} (id : 1 ≤ m ∧ m ≤ 4)
      (payload : 1 ≤ message.payload.length ∧ message.payload.length < 4 + m) :
      SplitsWhole message [4, m, 4 - m + message.payload.length]
  /-- One byte of the size in the first chunk, and the frame as long as the
  buffer. -/
  | full {m : ℕ} {ds : List ℕ} (id : 1 ≤ m ∧ m ≤ 4)
      (payload : 8 + message.payload.length = extPacketSize) (positive : ∀ k ∈ ds, 0 < k)
      (total : (1 :: m :: ds).sum = extPacketSize) : SplitsWhole message (1 :: m :: ds)

/-! ### One frame -/

/-- The limit that the first chunk of a frame sets. -/
theorem Message.limit_cut (message : Message) (later : List Byte) {j bound : ℕ}
    (chunk : 1 ≤ j ∧ j ≤ 4)
    (set : bound = limit ((message.frame ++ later).take j ++
      (List.replicate extPacketSize 0).drop j) extPacketSize) :
    0 < cutSize message.payload.length j ∧ bound = cutSize message.payload.length j ∨
      cutSize message.payload.length j = 0 ∧ bound = extPacketSize ∨
      2 ≤ j ∧ 128 ≤ message.payload.length ∧ 2 ^ 32 - 2 ^ 23 ≤ bound := by
  have small : message.payload.length < 2 ^ 24 := by
    have fits : 8 + message.payload.length ≤ 1024 * 1024 * 10 := message.fits
    omega
  have front : (message.frame ++ later).take j =
      (BigEndian.bytes (BitVec.ofNat 32 message.payload.length)).take j := by
    rw [Message.frame, convertSendMsg, List.append_assoc, List.append_assoc,
      List.take_append_of_le_length chunk.2]
  have split : extPacketSize = (extPacketSize - 4) + 4 := rfl
  rw [front, limit, split] at set
  obtain low | ⟨long, high, spoilt⟩ :=
    @nTotalSize_cut message.payload.length j (extPacketSize - 4) chunk small
  · rw [low] at set
    split_ifs at set with positive
    · exact .inl ⟨positive, set⟩
    · exact .inr (.inl ⟨Nat.eq_zero_of_not_pos positive, set⟩)
  · rw [if_pos (by omega)] at set
    exact .inr (.inr ⟨long, high, set ▸ spoilt⟩)

theorem Connection.rest_of_own {connection : Connection} {message : Message}
    {later rest pData : List Byte} {cs : List ℕ} {n : ℤ} {left : List RecvOutcome}
    (returns : connection.receive (message.frame ++ later) (cs.map .got) =
      .returned n pData rest left)
    (own : (message.frame ++ later).length - rest.length = 8 + message.payload.length) :
    rest = later := by
  obtain ⟨k, -, enough, -, rfl, -⟩ := content_of_chunks returns
  refine List.drop_left' ?_
  rw [List.length_drop] at own
  rw [message.length_frame]
  omega

/-- A call that takes exactly its own frame off the stream had it in chunks that
carry it whole. -/
theorem splitsWhole_of_receive {connection : Connection} {message : Message}
    {later rest pData : List Byte} {cs : List ℕ} {n : ℤ} {left : List RecvOutcome}
    (returns : connection.receive (message.frame ++ later) (cs.map .got) =
      .returned n pData rest left)
    (own : (message.frame ++ later).length - rest.length = 8 + message.payload.length) :
    ∃ used cs', cs = used ++ cs' ∧ left = cs'.map .got ∧ SplitsWhole message used := by
  rw [Connection.receive_eq] at returns
  obtain ⟨j, m, loop, rfl, size, id, arrived⟩ := Reader.header_of_run returns
  obtain ⟨r, looping, total, length, limited, run_eq⟩ :=
    Reader.run_header (List.replicate extPacketSize 0) _ size id (by simp; decide) arrived
  rw [List.map_cons, List.map_cons, run_eq] at returns
  rw [List.length_replicate] at limited length
  have bound := message.limit_cut later size limited
  have room : extPacketSize = 10485760 := rfl
  have fits := message.fits
  obtain ⟨ds, cs', rfl, rfl, rfl, enough, shape⟩ := Reader.loop_of_chunks looping (by omega)
    (by omega) (by omega) (limited ▸ Reader.limit_lt _ (by omega)) returns
  rw [List.length_drop] at enough
  have taken : j + m + ds.sum = 8 + message.payload.length := by
    clear shape
    rw [List.length_drop, List.length_drop] at own
    omega
  refine ⟨j :: m :: ds, cs', rfl, rfl, ?_⟩
  have cut := cutSize_le message.payload.length j
  obtain ⟨below, filled, positive⟩ | ⟨stands, rfl⟩ | ⟨past, k, positive, rfl⟩ := shape
  · -- filled up to the limit, which is then the size of the buffer
    obtain ⟨-, known⟩ | ⟨unknown, buffer⟩ | ⟨-, -, spoilt⟩ := bound
    · omega
    · obtain rfl : j = 1 := by
        by_contra later_cut
        have small := lt_of_cutSize_eq_zero unknown
        have unit : 256 ^ (4 - j) ≤ 256 ^ 2 := Nat.pow_le_pow_right (by norm_num) (by omega)
        omega
      exact .full id (by omega) positive (by simp; omega)
    · omega
  · -- at the limit nothing more is read, and a frame has more than its header
    rw [List.sum_singleton] at taken
    omega
  · -- past the limit after the header alone, which a whole size word of at most seven allows
    rw [List.sum_singleton] at taken
    obtain ⟨positive', known⟩ | ⟨-, buffer⟩ | ⟨-, -, spoilt⟩ := bound
    · obtain rfl : j = 4 := by
        by_contra cut_short
        have unit : 256 ^ 1 ≤ 256 ^ (4 - j) := Nat.pow_le_pow_right (by norm_num) (by omega)
        have large := le_cutSize positive'
        omega
      rw [cutSize_four] at known positive'
      obtain rfl : k = 4 - m + message.payload.length := by omega
      exact .short id ⟨positive', by omega⟩
    · omega
    · omega

/-- Chunks that carry a frame whole make the call take it off the stream. -/
theorem receive_of_splitsWhole (connection : Connection) {message : Message} {used : List ℕ}
    (whole : SplitsWhole message used) (later : List Byte) (outcomes : List RecvOutcome) :
    ∃ n pData, connection.receive (message.frame ++ later) (used.map .got ++ outcomes) =
      .returned n pData later outcomes := by
  have room : extPacketSize = 10485760 := rfl
  have buffer_length : (List.replicate extPacketSize (0 : Byte)).length = extPacketSize :=
    List.length_replicate
  have stream_length :
      (message.frame ++ later).length = 8 + message.payload.length + later.length := by
    rw [List.length_append, message.length_frame]
  have behind (k : ℕ) (own : k = 8 + message.payload.length) :
      (message.frame ++ later).drop k = later :=
    List.drop_left' (by rw [message.length_frame, own])
  rw [Connection.receive_eq]
  cases whole with
  | @short m id payload =>
    obtain ⟨r, looping, total, length, limited, run_eq⟩ := Reader.run_header
      (List.replicate extPacketSize 0) (message.frame ++ later) (j := 4) ⟨by omega, le_rfl⟩ id
      (by rw [buffer_length, room]; norm_num) (by omega)
    rw [buffer_length] at length limited
    have bound := message.limit_cut later ⟨by omega, le_rfl⟩ limited
    rw [cutSize_four] at bound
    obtain ⟨n, pData, returns⟩ := Reader.run_of_past
      ((message.frame ++ later).drop (4 + m)) looping (k := 4 - m + message.payload.length)
      (by omega) (by omega) (by omega) (by omega) (by rw [List.length_drop]; omega) outcomes
    refine ⟨n, pData, ?_⟩
    rw [List.map_cons, List.map_cons, List.cons_append, List.cons_append, run_eq]
    rw [List.drop_drop, behind (4 + m + (4 - m + message.payload.length)) (by omega)] at returns
    exact returns
  | @full m ds id payload positive total_chunks =>
    obtain ⟨r, looping, total, length, limited, run_eq⟩ := Reader.run_header
      (List.replicate extPacketSize 0) (message.frame ++ later) (j := 1) ⟨le_rfl, by omega⟩ id
      (by rw [buffer_length, room]; norm_num) (by omega)
    rw [buffer_length] at length limited
    have bound := message.limit_cut later ⟨le_rfl, by omega⟩ limited
    rw [List.sum_cons, List.sum_cons] at total_chunks
    have full_limit : r.uMaxSize = extPacketSize := by
      obtain ⟨known, -⟩ | ⟨-, buffer⟩ | ⟨two, -⟩ := bound
      · have large := le_cutSize known
        have cut := cutSize_le message.payload.length 1
        omega
      · exact buffer
      · omega
    obtain ⟨n, pData, returns⟩ := Reader.run_of_fill
      ((message.frame ++ later).drop (1 + m)) looping (by omega) (by omega) (by omega)
      (by rintro rfl; simp at total_chunks; omega) positive (by omega)
      (by rw [List.length_drop]; omega) outcomes
    refine ⟨n, pData, ?_⟩
    rw [List.map_cons, List.map_cons, List.cons_append, List.cons_append, run_eq]
    rw [List.drop_drop, behind (1 + m + ds.sum) (by omega)] at returns
    exact returns

/-- With its size and its id in one chunk each, a payload of more than eight bytes
loses the last eight of them: the call returns when it has read as many bytes as
the payload alone has. -/
theorem receive_cut_short (connection : Connection) {message : Message}
    (payload : 8 < message.payload.length ∧ message.payload.length < 128) (later : List Byte)
    (cs : List ℕ) :
    ∃ pData, connection.receive (message.frame ++ later)
        ((4 :: 4 :: (message.payload.length - 8) :: cs).map .got) =
      .returned message.payload.length pData ((message.frame ++ later).drop message.payload.length)
        (cs.map .got) := by
  have room : extPacketSize = 10485760 := rfl
  have stream_length :
      (message.frame ++ later).length = 8 + message.payload.length + later.length := by
    rw [List.length_append, message.length_frame]
  obtain ⟨r, looping, total, length, limited, run_eq⟩ := Reader.run_header
    (List.replicate extPacketSize 0) (message.frame ++ later) (j := 4) (m := 4) ⟨by omega, le_rfl⟩
    ⟨by omega, le_rfl⟩ (by rw [List.length_replicate, room]; norm_num) (by omega)
  rw [List.length_replicate] at length limited
  have bound := message.limit_cut later ⟨by omega, le_rfl⟩ limited
  rw [cutSize_four] at bound
  obtain ⟨n, pData, returns⟩ := @Reader.run_of_fill r ((message.frame ++ later).drop 8) looping
    [message.payload.length - 8] (by omega) (by omega) (by omega) (by simp)
    (by simp; omega) (by simp; omega)
    (by rw [List.sum_singleton, List.length_drop]; omega) (cs.map .got)
  have whole : connection.receive (message.frame ++ later)
      ((4 :: 4 :: (message.payload.length - 8) :: cs).map .got) = _ :=
    (connection.receive_eq _ _).trans ((run_eq _).trans returns)
  obtain ⟨k, rfl, enough, -, rest, -⟩ := Connection.content_of_chunks whole
  have lengths := congrArg List.length rest
  rw [List.sum_singleton, List.length_drop, List.length_drop, List.length_drop] at lengths
  obtain rfl : k = message.payload.length := by omega
  exact ⟨pData, whole.trans (by rw [rest])⟩

/-- A call that takes exactly its own frame off the stream decodes to its packet. -/
theorem convertReceiveMsg_of_receive {connection : Connection} {message : Message}
    {later pData : List Byte} {cs : List ℕ} {n : ℤ} {left : List RecvOutcome}
    (returns : connection.receive (message.frame ++ later) (cs.map .got) =
      .returned n pData later left) :
    convertReceiveMsg pData = some message.packet := by
  obtain ⟨k, -, enough, room, rest, rfl⟩ := Connection.content_of_chunks returns
  have own : k = message.frame.length := by
    have lengths := congrArg List.length rest
    rw [List.length_drop] at lengths
    rw [List.length_append] at enough lengths
    omega
  rw [own, List.take_left' rfl]
  refine convertReceiveMsg_convertSendMsg _ _ _ ?_
  have length := message.length_frame
  have small : extPacketSize < 2 ^ 32 := by decide
  have fits := message.fits
  rw [List.length_drop, List.length_replicate]
  omega

/-! ### Many frames -/

/-- One more packet is read when a call returns, its buffer decodes and the rest is
read. -/
theorem readMessages_succ {connection : Connection} {count : ℕ} {stream rest' : List Byte}
    {outcomes left' : List RecvOutcome} {packets : List (TuPacketMsg × ℕ)}
    {packet : TuPacketMsg} {k : ℕ} :
    readMessages connection (count + 1) stream outcomes =
        some ((packet, k) :: packets, rest', left') ↔
      ∃ n pData rest left, connection.receive stream outcomes = .returned n pData rest left ∧
        convertReceiveMsg pData = some packet ∧ stream.length - rest.length = k ∧
        readMessages connection count rest left = some (packets, rest', left') := by
  rw [readMessages]
  cases connection.receive stream outcomes with
  | returned n pData rest left =>
    simp only [ReceiveEnd.returned.injEq, Option.bind_eq_bind, Option.bind_eq_some_iff,
      Option.some.injEq, Prod.mk.injEq, List.cons.injEq]
    constructor
    · rintro ⟨packet, decodes, ⟨packets, rest', left'⟩, reads, ⟨⟨rfl, rfl⟩, rfl⟩, rfl, rfl⟩
      exact ⟨_, _, _, _, ⟨rfl, rfl, rfl, rfl⟩, decodes, rfl, reads⟩
    · rintro ⟨_, _, _, _, ⟨rfl, rfl, rfl, rfl⟩, decodes, rfl, reads⟩
      exact ⟨packet, decodes, _, reads, ⟨⟨rfl, rfl⟩, rfl⟩, rfl, rfl⟩
  | blocked => simp
  | overrun => simp
  | refused => simp

/-- The messages are read back one by one, each call taking exactly its own frame
off the stream, if and only if the chunks carry every frame whole. -/
theorem readsBack_iff_splitsWhole (connection : Connection) (messages : List Message)
    (cs : List ℕ) :
    ReadsBack connection messages cs ↔
      ∃ css, cs = css.flatten ∧ List.Forall₂ SplitsWhole messages css := by
  induction messages generalizing cs with
  | nil =>
    simp only [ReadsBack, List.length_nil, List.flatMap_nil, readMessages, List.map_nil,
      Option.some.injEq, Prod.mk.injEq, true_and, List.map_eq_nil_iff, List.forall₂_nil_left_iff]
    exact ⟨fun none_left => ⟨[], none_left, rfl⟩, by rintro ⟨_, rfl, rfl⟩; rfl⟩
  | cons message messages ih =>
    rw [ReadsBack, List.length_cons, List.flatMap_cons, List.map_cons, readMessages_succ]
    constructor
    · rintro ⟨n, pData, rest, left, returns, -, own, reads⟩
      obtain ⟨used, cs', rfl, rfl, whole⟩ := splitsWhole_of_receive returns own
      obtain rfl := Connection.rest_of_own returns own
      obtain ⟨css, rfl, others⟩ := (ih cs').mp reads
      exact ⟨used :: css, rfl, .cons whole others⟩
    · rintro ⟨_, rfl, _ | ⟨whole, others⟩⟩
      rename_i used css
      obtain ⟨n, pData, returns⟩ := receive_of_splitsWhole connection whole
        (messages.flatMap Message.frame) (css.flatten.map .got)
      rw [List.flatten_cons, List.map_append]
      refine ⟨n, pData, _, _, returns, ?_, ?_, (ih _).mpr ⟨css, rfl, others⟩⟩
      · rw [← List.map_append] at returns
        exact convertReceiveMsg_of_receive returns
      · rw [List.length_append, message.length_frame]
        omega

/-- A message of nine bytes. -/
def nineBytes : Message := ⟨1, List.replicate 9 7, by decide⟩

/-- Chunked as the code asks for it, a message of nine bytes is not read back: the
call takes nine bytes of seventeen off the stream, and says so. -/
theorem nineBytes_not_readsBack :
    (∃ pData, (Connection.server 0).receive nineBytes.frame ([4, 4, 1, 8].map .got) =
      .returned 9 pData (nineBytes.frame.drop 9) [.got 8]) ∧
    ¬ ReadsBack (.server 0) [nineBytes] [4, 4, 1, 8] := by
  obtain ⟨pData, returns⟩ := @receive_cut_short (.server 0) nineBytes (by decide) [] [8]
  rw [List.append_nil] at returns
  refine ⟨⟨pData, returns⟩, fun reads => ?_⟩
  obtain ⟨_, _, rest, _, returns', -, own, -⟩ := readMessages_succ.mp reads
  rw [List.flatMap_cons, List.flatMap_nil, List.append_nil] at returns' own
  obtain ⟨-, -, rfl, -⟩ := ReceiveEnd.returned.inj (returns.symm.trans returns')
  revert own
  decide

end ExLibs.Network
