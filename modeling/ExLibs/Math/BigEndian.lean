/-
# Big-endian 32-bit words

A word travels as four bytes, the most significant first. Writing masks and
shifts; reading shifts the bytes in one after the other. A reader that takes its
bytes as unsigned numbers gets the word back. A reader that takes them as signed
numbers agrees with it while each of the last three bytes is below 128, and reads
a number close to `2 ^ 32` as soon as one of them is not.
-/
import Mathlib.Data.BitVec
import Mathlib.Tactic.NormNum

namespace ExLibs.Math.BigEndian

/-- The byte of `w` that `shift` bits are below. -/
def byteAt (w : BitVec 32) (shift : ℕ) : BitVec 8 := ((w >>> shift) &&& 0xFF#32).setWidth 8

/-- The four bytes of a word, the most significant first. -/
def bytes (w : BitVec 32) : List (BitVec 8) :=
  [byteAt w 24, byteAt w 16, byteAt w 8, byteAt w 0]

/-- Shift an unsigned byte into a word. -/
def shiftIn (w : BitVec 32) (b : BitVec 8) : BitVec 32 := (w <<< 8) ||| b.setWidth 32

/-- Shift a signed byte into a word: the sign fills the upper three bytes. -/
def shiftInSigned (w : BitVec 32) (b : BitVec 8) : BitVec 32 := (w <<< 8) ||| b.signExtend 32

/-- The word that four unsigned bytes spell. -/
def word (b₀ b₁ b₂ b₃ : BitVec 8) : BitVec 32 :=
  shiftIn (shiftIn (shiftIn (b₀.setWidth 32) b₁) b₂) b₃

/-- The word that four signed bytes spell. -/
def signedWord (b₀ b₁ b₂ b₃ : BitVec 8) : BitVec 32 :=
  shiftInSigned (shiftInSigned (shiftInSigned (b₀.signExtend 32) b₁) b₂) b₃

@[simp] theorem length_bytes (w : BitVec 32) : (bytes w).length = 4 := rfl

theorem toNat_byteAt (w : BitVec 32) (shift : ℕ) :
    (byteAt w shift).toNat = w.toNat / 2 ^ shift % 256 := by
  have mask (n : ℕ) : n &&& 255 = n % 2 ^ 8 := Nat.and_two_pow_sub_one_eq_mod n 8
  simp [byteAt, BitVec.toNat_and, BitVec.toNat_ushiftRight, Nat.shiftRight_eq_div_pow, mask]

theorem toNat_shiftIn (w : BitVec 32) (b : BitVec 8) :
    (shiftIn w b).toNat = w.toNat * 256 % 2 ^ 32 + b.toNat := by
  have small := b.isLt
  have moved : w.toNat * 256 % 2 ^ 32 = (w.toNat % 2 ^ 24) <<< 8 := by
    rw [Nat.shiftLeft_eq]
    omega
  rw [shiftIn, BitVec.toNat_or, BitVec.toNat_shiftLeft, BitVec.toNat_setWidth, Nat.shiftLeft_eq,
    Nat.mod_eq_of_lt (a := b.toNat) (by omega), moved, Nat.shiftLeft_add_eq_or_of_lt small]

/-- A byte below 128 is shifted in alike by both readers. -/
theorem shiftInSigned_eq_shiftIn (w : BitVec 32) {b : BitVec 8} (low : b.toNat < 128) :
    shiftInSigned w b = shiftIn w b := by
  rw [shiftInSigned, shiftIn,
    BitVec.signExtend_eq_setWidth_of_msb_false (by simp [BitVec.msb_eq_decide, low])]

/-- A byte from 128 on overwrites everything above it. -/
theorem toNat_shiftInSigned_of_high (w : BitVec 32) {b : BitVec 8} (high : 128 ≤ b.toNat) :
    (shiftInSigned w b).toNat = 2 ^ 32 - 256 + b.toNat := by
  have small := b.isLt
  have negative : b.msb = true := by simp [BitVec.msb_eq_decide, high]
  have filled : shiftInSigned w b = BitVec.allOnes 24 ++ b := by
    ext i inside
    rw [shiftInSigned, BitVec.getElem_append, BitVec.getElem_or, BitVec.getElem_signExtend]
    by_cases low : i < 8
    · simp [low]
    · rw [dif_neg low, dif_neg low, BitVec.getElem_allOnes]
      simp [negative]
  rw [filled, BitVec.toNat_append, ← Nat.shiftLeft_add_eq_or_of_lt small, Nat.shiftLeft_eq,
    BitVec.toNat_allOnes]
  norm_num

theorem toNat_word (b₀ b₁ b₂ b₃ : BitVec 8) :
    (word b₀ b₁ b₂ b₃).toNat =
      b₀.toNat * 2 ^ 24 + b₁.toNat * 2 ^ 16 + b₂.toNat * 2 ^ 8 + b₃.toNat := by
  have first := b₀.isLt
  have second := b₁.isLt
  have third := b₂.isLt
  simp only [word, toNat_shiftIn, BitVec.toNat_setWidth]
  omega

/-- Reading the four bytes of a word gives the word back. -/
theorem word_byteAt (w : BitVec 32) :
    word (byteAt w 24) (byteAt w 16) (byteAt w 8) (byteAt w 0) = w := by
  have bound := w.isLt
  apply BitVec.eq_of_toNat_eq
  simp only [toNat_word, toNat_byteAt]
  omega

/-- The bytes of a word are those that spell it. -/
theorem bytes_word (b₀ b₁ b₂ b₃ : BitVec 8) : bytes (word b₀ b₁ b₂ b₃) = [b₀, b₁, b₂, b₃] := by
  have first := b₀.isLt
  have second := b₁.isLt
  have third := b₂.isLt
  have fourth := b₃.isLt
  have byteAt_eq (b : BitVec 8) (shift : ℕ)
      (same : (word b₀ b₁ b₂ b₃).toNat / 2 ^ shift % 256 = b.toNat) :
      byteAt (word b₀ b₁ b₂ b₃) shift = b :=
    BitVec.eq_of_toNat_eq ((toNat_byteAt _ _).trans same)
  simp only [toNat_word] at byteAt_eq
  rw [bytes, byteAt_eq b₀ 24 (by omega), byteAt_eq b₁ 16 (by omega), byteAt_eq b₂ 8 (by omega),
    byteAt_eq b₃ 0 (by omega)]

/-- The signed reader spells the same number when each of the last three bytes
is below 128. The sign of the first byte is shifted out. -/
theorem toNat_signedWord_of_low {b₀ b₁ b₂ b₃ : BitVec 8} (low₁ : b₁.toNat < 128)
    (low₂ : b₂.toNat < 128) (low₃ : b₃.toNat < 128) :
    (signedWord b₀ b₁ b₂ b₃).toNat = (word b₀ b₁ b₂ b₃).toNat := by
  have first := b₀.isLt
  have leading : (b₀.signExtend 32).toNat % 256 = b₀.toNat := by
    rw [BitVec.toNat_signExtend, BitVec.toNat_setWidth]
    split <;> omega
  simp only [signedWord, shiftInSigned_eq_shiftIn _ low₁, shiftInSigned_eq_shiftIn _ low₂,
    shiftInSigned_eq_shiftIn _ low₃, toNat_shiftIn, toNat_word]
  omega

/-- The signed reader spells a number within `2 ^ 23` of `2 ^ 32` when one of
the last three bytes is 128 or more. -/
theorem le_toNat_signedWord_of_high {b₀ b₁ b₂ b₃ : BitVec 8}
    (high : 128 ≤ b₁.toNat ∨ 128 ≤ b₂.toNat ∨ 128 ≤ b₃.toNat) :
    2 ^ 32 - 2 ^ 23 ≤ (signedWord b₀ b₁ b₂ b₃).toNat := by
  simp only [signedWord]
  -- the last high byte decides: it fills what is above it, later bytes move it up
  rcases Nat.lt_or_ge b₃.toNat 128 with low₃ | high₃
  · rw [shiftInSigned_eq_shiftIn _ low₃, toNat_shiftIn]
    rcases Nat.lt_or_ge b₂.toNat 128 with low₂ | high₂
    · have high₁ : 128 ≤ b₁.toNat := by omega
      rw [shiftInSigned_eq_shiftIn _ low₂, toNat_shiftIn, toNat_shiftInSigned_of_high _ high₁]
      omega
    · rw [toNat_shiftInSigned_of_high _ high₂]
      omega
  · rw [toNat_shiftInSigned_of_high _ high₃]
    omega

/-- The signed reader spells the same number or one within `2 ^ 23` of `2 ^ 32`. -/
theorem toNat_signedWord (b₀ b₁ b₂ b₃ : BitVec 8) :
    (signedWord b₀ b₁ b₂ b₃).toNat = (word b₀ b₁ b₂ b₃).toNat ∨
      (128 ≤ b₁.toNat ∨ 128 ≤ b₂.toNat ∨ 128 ≤ b₃.toNat) ∧
        2 ^ 32 - 2 ^ 23 ≤ (signedWord b₀ b₁ b₂ b₃).toNat := by
  by_cases high : 128 ≤ b₁.toNat ∨ 128 ≤ b₂.toNat ∨ 128 ≤ b₃.toNat
  · exact .inr ⟨high, le_toNat_signedWord_of_high high⟩
  · exact .inl (toNat_signedWord_of_low (by omega) (by omega) (by omega))

end ExLibs.Math.BigEndian
