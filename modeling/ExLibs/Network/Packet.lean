/-
# Packets and their encoding

A frame on the wire is eight bytes of header, the payload length and the message
id as big-endian words, followed by the payload. `convertSendMsg` writes one.
`convertReceiveMsg` reads one back from the front of a receive buffer that is
usually longer than the frame; it takes no more payload than the header declares
and no more than the buffer holds.
-/
import ExLibs.Math.BigEndian

namespace ExLibs.Network

open ExLibs.Math

/-- A `char` of a buffer. -/
abbrev Byte := BitVec 8

/-- `unsigned int`, the id that pairs a response with its request. -/
abbrev MSGID := BitVec 32

/-- A string, such as the UUID of a client. -/
abbrev XString := String

/-- The raw bytes of a payload. -/
abbrev PacketData := List Byte

/-- The decoded packet `std::tuple< size_t, MSGID, PacketData >`: the declared
size, the message id and the payload. -/
structure TuPacketMsg where
  size : ℕ
  msgId : MSGID
  data : PacketData
  deriving DecidableEq, Repr

/-- The id that `_msgIdSeq++` yields after `drawn` earlier draws. The counter starts
at one and wraps around. -/
def msgIdSeq (drawn : ℕ) : MSGID := BitVec.ofNat 32 (1 + drawn)

/-- `EXT_PACKET_SIZE`, the size of every receive buffer. -/
def extPacketSize : ℕ := 1024 * 1024 * 10

/-- Remove four bytes from the front of a vector and read them as an unsigned
big-endian word. `vecChar.at( 0 )` throws once the vector is empty. -/
def takeWord : List Byte → Option (BitVec 32 × List Byte)
  | b₀ :: b₁ :: b₂ :: b₃ :: vecChar => some (BigEndian.word b₀ b₁ b₂ b₃, vecChar)
  | _ => none

/-- Decode the packet at the front of a buffer; `none` is the exception that a
buffer shorter than the header raises. -/
def convertReceiveMsg (vecChar : List Byte) : Option TuPacketMsg := do
  let (nSize, vecChar) ← takeWord vecChar
  let (nMsgId, vecChar) ← takeWord vecChar
  -- the buffer is allocated in full beforehand, so it is cut to the size that was sent
  let nPayload := min nSize.toNat (vecChar.length % 2 ^ 32)
  some ⟨nSize.toNat, nMsgId, vecChar.take nPayload⟩

/-- Encode a packet: payload length, message id, payload. -/
def convertSendMsg (msgId : MSGID) (vecData : PacketData) : List Byte :=
  BigEndian.bytes (BitVec.ofNat 32 vecData.length) ++ BigEndian.bytes msgId ++ vecData

theorem length_convertSendMsg (msgId : MSGID) (vecData : PacketData) :
    (convertSendMsg msgId vecData).length = 8 + vecData.length := by
  simp only [convertSendMsg, List.length_append, BigEndian.length_bytes]

/-- What the decoder makes of a buffer that holds a header. -/
theorem convertReceiveMsg_cons (b₀ b₁ b₂ b₃ c₀ c₁ c₂ c₃ : Byte) (vecChar : List Byte) :
    convertReceiveMsg (b₀ :: b₁ :: b₂ :: b₃ :: c₀ :: c₁ :: c₂ :: c₃ :: vecChar) =
      some ⟨(BigEndian.word b₀ b₁ b₂ b₃).toNat, BigEndian.word c₀ c₁ c₂ c₃,
        vecChar.take (min (BigEndian.word b₀ b₁ b₂ b₃).toNat (vecChar.length % 2 ^ 32))⟩ := rfl

/-- Eight bytes split off the front of a list that has them. -/
theorem exists_header {vecChar : List Byte} (long : 8 ≤ vecChar.length) :
    ∃ b₀ b₁ b₂ b₃ c₀ c₁ c₂ c₃ rest,
      vecChar = b₀ :: b₁ :: b₂ :: b₃ :: c₀ :: c₁ :: c₂ :: c₃ :: rest := by
  match vecChar, long with
  | b₀ :: b₁ :: b₂ :: b₃ :: c₀ :: c₁ :: c₂ :: c₃ :: rest, _ =>
    exact ⟨b₀, b₁, b₂, b₃, c₀, c₁, c₂, c₃, rest, rfl⟩

/-- The size that the first four bytes of a buffer declare, read as the decoder
reads them; missing bytes count as zero. -/
def declaredSize (vecChar : List Byte) : ℕ :=
  (BigEndian.word (vecChar.getD 0 0) (vecChar.getD 1 0) (vecChar.getD 2 0)
    (vecChar.getD 3 0)).toNat

/-- Every buffer with room for a header decodes, to a packet of the declared
size whose payload is what follows the header, cut to that size. -/
theorem exists_convertReceiveMsg {vecChar : List Byte} (long : 8 ≤ vecChar.length)
    (bounded : vecChar.length < 2 ^ 32) :
    ∃ packet, convertReceiveMsg vecChar = some packet ∧ packet.size = declaredSize vecChar ∧
      packet.data = (vecChar.drop 8).take (declaredSize vecChar) := by
  obtain ⟨b₀, b₁, b₂, b₃, c₀, c₁, c₂, c₃, rest, rfl⟩ := exists_header long
  refine ⟨_, convertReceiveMsg_cons .., rfl, ?_⟩
  have whole : rest.length % 2 ^ 32 = rest.length :=
    Nat.mod_eq_of_lt (by simp only [List.length_cons] at bounded; omega)
  simp only [declaredSize, List.getD_cons_zero, List.getD_cons_succ, List.drop_succ_cons,
    List.drop_zero, whole]
  rw [← List.take_take, List.take_length]

/-- Decoding an encoded packet gives its length, id and payload back, whatever
padding follows it in the buffer. -/
theorem convertReceiveMsg_convertSendMsg (msgId : MSGID) (vecData padding : PacketData)
    (bounded : vecData.length + padding.length < 2 ^ 32) :
    convertReceiveMsg (convertSendMsg msgId vecData ++ padding) =
      some ⟨vecData.length, msgId, vecData⟩ := by
  have small : vecData.length % 2 ^ 32 = vecData.length := Nat.mod_eq_of_lt (by omega)
  have total : (vecData.length + padding.length) % 2 ^ 32 = vecData.length + padding.length :=
    Nat.mod_eq_of_lt bounded
  change convertReceiveMsg (_ :: _ :: _ :: _ :: _ :: _ :: _ :: _ :: (vecData ++ padding)) = _
  rw [convertReceiveMsg_cons, BigEndian.word_byteAt, BigEndian.word_byteAt]
  simp only [BitVec.toNat_ofNat, small, List.length_append, total]
  rw [Nat.min_eq_left (Nat.le_add_right ..), List.take_left' rfl]

end ExLibs.Network
