/-
# The encoding, there and back

What `convertSendMsg` writes `convertReceiveMsg` reads, and from what it reads the bytes that it
has read can be written again. The socket reads the length of a frame on its own, from signed
`char`s: it reads the length that was written where no byte of it but the first is negative.
-/
import ExLibs.Network.Receive

namespace ExLibs.Network

open ExLibs.Math

variable {msgId : MSGID} {vecChar vecData : List Byte}

/-- What is decoded from a buffer encodes to the bytes that it was decoded from. -/
theorem convertSendMsg_convertReceiveMsg (long : 8 ≤ vecChar.length)
    (bounded : vecChar.length < 2 ^ 32) (fits : declaredSize vecChar ≤ vecChar.length - 8) :
    ∃ packet, convertReceiveMsg vecChar = some packet ∧
      convertSendMsg packet.msgId packet.data = vecChar.take (8 + declaredSize vecChar) := by
  obtain ⟨b₀, b₁, b₂, b₃, c₀, c₁, c₂, c₃, rest, rfl⟩ := exists_header long
  have whole : rest.length % 2 ^ 32 = rest.length :=
    Nat.mod_eq_of_lt (by simp only [List.length_cons] at bounded; omega)
  have given : (BigEndian.word b₀ b₁ b₂ b₃).toNat ≤ rest.length := fits
  have payload : (rest.take (BigEndian.word b₀ b₁ b₂ b₃).toNat).length =
      (BigEndian.word b₀ b₁ b₂ b₃).toNat := List.length_take_of_le given
  refine ⟨_, convertReceiveMsg_cons .., ?_⟩
  change convertSendMsg (BigEndian.word c₀ c₁ c₂ c₃) _ =
    (b₀ :: b₁ :: b₂ :: b₃ :: c₀ :: c₁ :: c₂ :: c₃ :: rest).take
      (8 + (BigEndian.word b₀ b₁ b₂ b₃).toNat)
  rw [whole, Nat.min_eq_left given, convertSendMsg, payload, BitVec.ofNat_toNat,
    BitVec.setWidth_eq, BigEndian.bytes_word, BigEndian.bytes_word, Nat.add_comm]
  rfl

/-- What is encoded decodes to itself, with any padding; what is decoded encodes to what it was
decoded from; and a buffer with a header decodes to no more than it declares and holds. -/
theorem codec_round_trip :
    (∀ msgId vecData padding, (convertSendMsg msgId vecData ++ padding).length < 2 ^ 32 →
      convertReceiveMsg (convertSendMsg msgId vecData ++ padding) =
        some ⟨vecData.length, msgId, vecData⟩) ∧
    (∀ vecChar : List Byte, 8 ≤ vecChar.length → vecChar.length < 2 ^ 32 →
      declaredSize vecChar ≤ vecChar.length - 8 →
        ∃ packet, convertReceiveMsg vecChar = some packet ∧
          convertSendMsg packet.msgId packet.data = vecChar.take (8 + declaredSize vecChar)) ∧
    ∀ vecChar : List Byte, 8 ≤ vecChar.length → vecChar.length < 2 ^ 32 →
      ∃ packet, convertReceiveMsg vecChar = some packet ∧
        packet.data.length ≤ declaredSize vecChar ∧ packet.data.length ≤ vecChar.length - 8 := by
  refine ⟨fun msgId vecData padding bounded => ?_,
    fun vecChar => convertSendMsg_convertReceiveMsg, fun vecChar long bounded => ?_⟩
  · rw [List.length_append, length_convertSendMsg] at bounded
    exact convertReceiveMsg_convertSendMsg msgId vecData padding (by omega)
  · obtain ⟨packet, decodes, -, data⟩ := exists_convertReceiveMsg long bounded
    refine ⟨packet, decodes, ?_⟩
    rw [data, List.length_take, List.length_drop]
    exact ⟨Nat.min_le_left .., Nat.min_le_right ..⟩

/-- A greeting is decoded from a buffer that is longer than it. -/
theorem greeting_round_trip :
    convertReceiveMsg (convertSendMsg 7#32 [0x68#8, 0x69#8] ++ [0#8]) =
      some ⟨2, 7#32, [0x68#8, 0x69#8]⟩ :=
  codec_round_trip.1 _ _ _ (by decide)

section Lengths

/-- The socket and the decoder read the length that was encoded. -/
def ReadsLength (msgId : MSGID) (vecData : PacketData) : Prop :=
  nTotalSize (convertSendMsg msgId vecData) = vecData.length ∧
    (convertReceiveMsg (convertSendMsg msgId vecData)).map TuPacketMsg.size = some vecData.length

variable {n : ℕ}

/-- The socket reads the bytes of the length with their signs. -/
theorem nTotalSize_convertSendMsg :
    nTotalSize (convertSendMsg msgId vecData) =
      (BigEndian.signedWord (BigEndian.byteAt (BitVec.ofNat 32 vecData.length) 24)
        (BigEndian.byteAt (BitVec.ofNat 32 vecData.length) 16)
        (BigEndian.byteAt (BitVec.ofNat 32 vecData.length) 8)
        (BigEndian.byteAt (BitVec.ofNat 32 vecData.length) 0)).toNat := rfl

theorem toNat_byteAt_ofNat (small : n < 2 ^ 32) (shift : ℕ) :
    (BigEndian.byteAt (BitVec.ofNat 32 n) shift).toNat = n / 2 ^ shift % 256 := by
  rw [BigEndian.toNat_byteAt, BitVec.toNat_ofNat, Nat.mod_eq_of_lt small]

/-- A length is read wrong when a byte of it but the first is negative. -/
theorem not_readsLength_of_high (bounded : vecData.length < 2 ^ 31)
    (high : 128 ≤ vecData.length / 2 ^ 16 % 256 ∨ 128 ≤ vecData.length / 2 ^ 8 % 256 ∨
      128 ≤ vecData.length / 2 ^ 0 % 256) : ¬ ReadsLength msgId vecData := by
  rintro ⟨reads, -⟩
  have small : vecData.length < 2 ^ 32 := by omega
  simp only [← toNat_byteAt_ofNat small] at high
  have large := @BigEndian.le_toNat_signedWord_of_high
    (BigEndian.byteAt (BitVec.ofNat 32 vecData.length) 24) _ _ _ high
  rw [← nTotalSize_convertSendMsg, reads] at large
  omega

/-- The length is read as it was written exactly where its last three bytes are below 128. -/
theorem readsLength_iff (bounded : vecData.length < 2 ^ 31) :
    ReadsLength msgId vecData ↔
      vecData.length / 2 ^ 16 % 256 < 128 ∧ vecData.length / 2 ^ 8 % 256 < 128 ∧
        vecData.length % 256 < 128 := by
  have small : vecData.length < 2 ^ 32 := by omega
  constructor
  · intro reads
    by_contra high
    refine not_readsLength_of_high bounded ?_ reads
    omega
  · rintro ⟨low₁, low₂, low₃⟩
    rw [← toNat_byteAt_ofNat small] at low₁ low₂
    rw [← Nat.div_one vecData.length, ← Nat.pow_zero 2, ← toNat_byteAt_ofNat small] at low₃
    constructor
    · rw [nTotalSize_convertSendMsg, BigEndian.toNat_signedWord_of_low low₁ low₂ low₃,
        BigEndian.word_byteAt, BitVec.toNat_ofNat, Nat.mod_eq_of_lt small]
    · have decodes := convertReceiveMsg_convertSendMsg msgId vecData [] small
      rw [List.append_nil] at decodes
      rw [decodes]
      rfl

/-- A short length is read. -/
theorem readsLength_byte : ReadsLength 7#32 [0x68#8] :=
  (readsLength_iff (by decide)).mpr (by decide)

/-- A length of 128 is not. -/
theorem not_readsLength_of_128 :
    ¬ ∀ (msgId : MSGID) (vecData : PacketData), 0 < vecData.length → vecData.length < 2 ^ 31 →
      ReadsLength msgId vecData := by
  intro all
  have length : (List.replicate 128 (0 : Byte)).length = 128 := List.length_replicate
  refine not_readsLength_of_high ?_ ?_ (all 0 (List.replicate 128 0) ?_ ?_)
  · omega
  · omega
  · omega
  · omega

end Lengths

end ExLibs.Network
