/-
# Registers of bytes

A vector register is a row of bytes, which its instructions also take as words of two, four or
eight of them, the lowest byte first. Most instructions work on each byte by itself. A shift
works on words, so that bits pass from one byte into the next; where no byte overflows it works
on each byte, too.
-/
import Mathlib.Data.BitVec
import Mathlib.Data.Nat.Digits.Defs

namespace ExLibs.Math

/-- A register of `n` bytes, the lowest first. -/
abbrev Register (n : ℕ) := Fin n → BitVec 8

namespace Register

variable {n k : ℕ} {r r' : Register n}

/-- A byte of a register, by its number. -/
def byte (r : Register n) (i : ℕ) : BitVec 8 := if inside : i < n then r ⟨i, inside⟩ else 0

/-- The bytes of a word of `k` bytes. -/
def bytes (k : ℕ) (r : Register n) (w : ℕ) : List ℕ :=
  (List.range k).map fun j => (r.byte (w * k + j)).toNat

/-- A word of `k` bytes. -/
def word (k : ℕ) (r : Register n) (w : ℕ) : ℕ := Nat.ofDigits 256 (bytes k r w)

/-- The register with these words of `k` bytes, which hold what fits. -/
def ofWords (k : ℕ) (words : ℕ → ℕ) : Register n :=
  fun i => BitVec.ofNat 8 (words (i / k) / 256 ^ (i % k : ℕ))

@[simp]
theorem byte_val (i : Fin n) : r.byte i = r i := dif_pos i.isLt

theorem byte_of_lt {i : ℕ} (inside : i < n) : r.byte i = r ⟨i, inside⟩ := dif_pos inside

theorem lt_of_mem_bytes {w b : ℕ} (member : b ∈ bytes k r w) : b < 256 := by
  obtain ⟨j, -, rfl⟩ := List.mem_map.mp member
  exact (r.byte _).isLt

/-- A byte of a word. -/
theorem word_div_mod {w j : ℕ} (inside : j < k) :
    word k r w / 256 ^ j % 256 = (r.byte (w * k + j)).toNat := by
  -- the division drops the bytes below, and the remainder takes the first of the rest
  have behind : (bytes k r w).drop j =
      (r.byte (w * k + j)).toNat :: (bytes k r w).drop (j + 1) := by
    rw [List.drop_eq_getElem_cons (by simpa [bytes])]
    simp [bytes]
  rw [word, Nat.ofDigits_div_pow_eq_ofDigits_drop j (by decide) _ fun _ => lt_of_mem_bytes, behind,
    Nat.ofDigits_cons, Nat.add_mul_mod_self_left]
  exact Nat.mod_eq_of_lt (r.byte _).isLt

/-- A byte of the register is one of a word. -/
theorem word_div_mod_val (positive : 0 < k) (i : Fin n) :
    word k r (i / k) / 256 ^ (i % k : ℕ) % 256 = (r i).toNat := by
  rw [word_div_mod (Nat.mod_lt _ positive), Nat.div_add_mod', byte_val]

/-- Registers are the same if their words are. -/
theorem ext_words (positive : 0 < k) (same : ∀ w, w * k < n → word k r w = word k r' w) :
    r = r' := by
  funext i
  apply BitVec.eq_of_toNat_eq
  rw [← word_div_mod_val positive i, same _ ((Nat.div_mul_le_self i k).trans_lt i.isLt),
    word_div_mod_val positive]

/-- A word that is taken apart and put together again loses what does not fit. -/
theorem ofDigits_div_mod (k m : ℕ) :
    Nat.ofDigits 256 ((List.range k).map fun j => m / 256 ^ j % 256) = m % 256 ^ k := by
  induction k generalizing m with
  | zero => simp [Nat.mod_one]
  | succ k ih =>
    -- the lowest byte is split off, and the others are those of the quotient
    have shift : (fun j => m / 256 ^ j % 256) ∘ Nat.succ = fun j => m / 256 / 256 ^ j % 256 := by
      funext j
      simp only [Function.comp_apply, Nat.pow_succ', Nat.div_div_eq_div_mul]
    rw [List.range_succ_eq_map, List.map_cons, List.map_map, shift, Nat.ofDigits_cons, ih,
      Nat.pow_succ', Nat.mod_mul, pow_zero, Nat.div_one]

/-- A word of a register that is given by its words. -/
theorem word_ofWords {words : ℕ → ℕ} {w : ℕ} (inside : w * k + k ≤ n) :
    word k (ofWords k words : Register n) w = words w % 256 ^ k := by
  rw [← ofDigits_div_mod, word, bytes]
  refine congrArg _ (List.map_congr_left fun j member => ?_)
  have small : j < k := List.mem_range.mp member
  have positive : 0 < k := by omega
  rw [byte_of_lt (by omega), ofWords, BitVec.toNat_ofNat]
  simp only [Nat.add_comm (w * k), Nat.add_mul_div_right _ _ positive, Nat.add_mul_mod_self_right,
    Nat.div_eq_of_lt small, Nat.mod_eq_of_lt small, Nat.zero_add]

/-- A shift to the right moves bits down from the next byte, above those of the byte itself. -/
theorem ofWords_div (positive : 0 < k) {low : ℕ} (within : low ≤ 8) (i : Fin n) :
    ((ofWords k fun w => word k r w / 2 ^ low : Register n) i).toNat % 2 ^ (8 - low) =
      (r i).toNat / 2 ^ low := by
  have split : 2 ^ low * 2 ^ (8 - low) = 256 := by
    rw [← pow_add, Nat.add_sub_cancel' within]
    rfl
  -- the shift and the choice of the byte are exchanged, so that the byte is whole again
  rw [ofWords, BitVec.toNat_ofNat, Nat.mod_mod_of_dvd _ (pow_dvd_pow 2 (Nat.sub_le 8 low)),
    Nat.div_div_eq_div_mul, Nat.mul_comm, ← Nat.div_div_eq_div_mul, ← Nat.mod_mul_right_div_self,
    split, word_div_mod_val positive]

/-- Where no byte overflows, words are multiplied byte by byte. -/
theorem ofWords_mul (positive : 0 < k) {c : ℕ} (small : ∀ i, c * (r i).toNat < 256) :
    (ofWords k fun w => c * word k r w : Register n) =
      fun i => BitVec.ofNat 8 (c * (r i).toNat) := by
  -- without a carry the multiple of a word is the word of the multiples
  have scaled (w : ℕ) : c * word k r w =
      word k (fun i => BitVec.ofNat 8 (c * (r i).toNat) : Register n) w := by
    rw [word, Nat.mul_ofDigits, word, bytes, bytes, List.map_map]
    refine congrArg _ (List.map_congr_left fun j _ => ?_)
    simp only [Function.comp_apply, byte]
    split
    · exact (Nat.mod_eq_of_lt (small _)).symm
    · rfl
  funext i
  apply BitVec.eq_of_toNat_eq
  rw [ofWords, scaled, BitVec.toNat_ofNat, word_div_mod_val positive]

section Instructions

/-- `setzero` and `set1_epi8`. -/
def set1Epi8 (b : BitVec 8) : Register n := fun _ => b

/-- `set_epi32`, with the highest word first. -/
def setEpi32 (words : List (BitVec 32)) : Register n :=
  ofWords 4 fun w => (words.reverse.getD w 0).toNat

/-- `set_epi64x`, with the highest word first. -/
def setEpi64x (words : List (BitVec 64)) : Register n :=
  ofWords 8 fun w => (words.reverse.getD w 0).toNat

def andSi (a b : Register n) : Register n := fun i => a i &&& b i

def orSi (a b : Register n) : Register n := fun i => a i ||| b i

def addEpi8 (a b : Register n) : Register n := fun i => a i + b i

def subEpi8 (a b : Register n) : Register n := fun i => a i - b i

/-- The bytes of `b` where the mask is negative, and those of `a` elsewhere. -/
def blendvEpi8 (a b mask : Register n) : Register n := fun i => if (mask i).msb then b i else a i

def srliEpi64 (a : Register n) (count : ℕ) : Register n := ofWords 8 fun w => word 8 a w / 2 ^ count

def slliEpi64 (a : Register n) (count : ℕ) : Register n := ofWords 8 fun w => 2 ^ count * word 8 a w

/-- Each word is shifted by a count of its own. -/
def sllvEpi32 (a count : Register n) : Register n :=
  ofWords 4 fun w => 2 ^ word 4 count w * word 4 a w

/-- In each lane of 16 bytes those that `control` names; a negative one names zero. -/
def shuffleEpi8 (a control : Register n) : Register n :=
  fun i => if (control i).msb then 0 else a.byte (i / 16 * 16 + (control i).toNat % 16)

/-- The lower halves of the lanes of two registers, byte by byte in turn. -/
def unpackloEpi8 (a b : Register n) : Register n :=
  fun i => (if i.val % 2 = 0 then a else b).byte (i / 16 * 16 + i % 16 / 2)

/-- The upper halves of the lanes of two registers, byte by byte in turn. -/
def unpackhiEpi8 (a b : Register n) : Register n :=
  fun i => (if i.val % 2 = 0 then a else b).byte (i / 16 * 16 + 8 + i % 16 / 2)

/-- The sums of neighbouring words, in each lane those of `a` and then those of `b`. -/
def haddEpi32 (a b : Register n) : Register n := ofWords 4 fun w =>
  let source := if w % 4 < 2 then a else b
  let first := w / 4 * 4 + w % 2 * 2
  word 4 source first + word 4 source (first + 1)

/-- The words of 8 bytes that each two bits of `control` name. -/
def permute4x64Epi64 (a : Register 32) (control : ℕ) : Register 32 :=
  ofWords 8 fun w => word 8 a (control / 4 ^ w % 4)

/-- A register of 32 bytes, whose upper half the instruction leaves undefined. -/
def castsi128Si256 (upper a : Register 16) : Register 32 :=
  fun i => if i.val < 16 then a.byte i else upper.byte (i - 16)

def castsi256Si128 (a : Register 32) : Register 16 := fun i => a.byte i

/-- `inserti128_si256` at 1, which replaces the upper half. -/
def insertUpper (a : Register 32) (b : Register 16) : Register 32 :=
  fun i => if i.val < 16 then a i else b.byte (i - 16)

/-- `insert_epi16` and `insert_epi32`, for words of `k` bytes. -/
def insert (a : Register n) (k : ℕ) (b : Register k) (w : ℕ) : Register n :=
  fun i => if i / k = w then b.byte (i % k) else a i

/-- `extract_epi16` and `extract_epi32`. -/
def extract (a : Register n) (k w : ℕ) : Register k := fun i => a.byte (w * k + i)

/-- `loadu`. -/
def load (mem : ℕ → BitVec 8) (n : ℕ) (first : ℕ) : Register n := fun i => mem (first + i)

/-- `storeu`. -/
def store (mem : ℕ → BitVec 8) (first : ℕ) (r : Register n) : ℕ → BitVec 8 :=
  fun i => if first ≤ i ∧ i < first + n then r.byte (i - first) else mem i

@[simp]
theorem set1Epi8_apply (b : BitVec 8) (i : Fin n) : set1Epi8 b i = b := rfl

/-- The bits above come from the next byte. -/
theorem srliEpi64_mod {count : ℕ} (within : count ≤ 8) (i : Fin n) :
    (srliEpi64 r count i).toNat % 2 ^ (8 - count) = (r i).toNat / 2 ^ count :=
  ofWords_div (by decide) within i

theorem slliEpi64_eq {count : ℕ} (small : ∀ i, 2 ^ count * (r i).toNat < 256) :
    slliEpi64 r count = fun i => BitVec.ofNat 8 (2 ^ count * (r i).toNat) :=
  ofWords_mul (by decide) small

theorem permute4x64Epi64_apply (a : Register 32) (control : ℕ) (i : Fin 32) :
    permute4x64Epi64 a control i = a.byte (control / 4 ^ (i / 8 : ℕ) % 4 * 8 + i % 8) := by
  apply BitVec.eq_of_toNat_eq
  rw [permute4x64Epi64, ofWords, BitVec.toNat_ofNat, word_div_mod (Nat.mod_lt _ (by decide))]

theorem word_sllvEpi32 {a count : Register n} {w : ℕ} (inside : w * 4 + 4 ≤ n) :
    word 4 (sllvEpi32 a count) w = 2 ^ word 4 count w * word 4 a w % 2 ^ 32 :=
  word_ofWords inside

/-- Words are masked byte by byte. -/
theorem andSi_setEpi64x {high low high' low' : BitVec 64} :
    andSi (setEpi64x [high, low] : Register n) (setEpi64x [high', low']) =
      setEpi64x [high &&& high', low &&& low'] := by
  funext i
  have split (word word' k : ℕ) : BitVec.ofNat 8 ((word &&& word') / 256 ^ k) =
      BitVec.ofNat 8 (word / 256 ^ k) &&& BitVec.ofNat 8 (word' / 256 ^ k) := by
    rw [show 256 ^ k = 2 ^ (8 * k) from (pow_mul 2 8 k).symm, Nat.and_div_two_pow, BitVec.ofNat_and]
  have words (w : ℕ) : ([high &&& high', low &&& low'].reverse.getD w 0).toNat =
      ([high, low].reverse.getD w 0).toNat &&& ([high', low'].reverse.getD w 0).toNat := by
    rcases w with _ | _ | w <;> simp
  rw [andSi, setEpi64x, setEpi64x, setEpi64x, ofWords, ofWords, ofWords, words, split]

/-- Two words can be told from the register. -/
theorem setEpi64x_inj (wide : 16 ≤ n) {high low high' low' : BitVec 64} :
    (setEpi64x [high, low] : Register n) = setEpi64x [high', low'] ↔
      high = high' ∧ low = low' := by
  constructor
  · intro same
    have read {w : ℕ} (inside : w < 2) (high low : BitVec 64) :
        word 8 (setEpi64x [high, low] : Register n) w =
          ([high, low].reverse.getD w 0).toNat :=
      (word_ofWords (by omega)).trans (Nat.mod_eq_of_lt (BitVec.isLt _))
    have words {w : ℕ} (inside : w < 2) := congrArg (word 8 · w) same
    constructor
    · apply BitVec.eq_of_toNat_eq
      exact (read (w := 1) (by decide) high low).symm.trans
        ((words (by decide)).trans (read (by decide) high' low'))
    · apply BitVec.eq_of_toNat_eq
      exact (read (w := 0) (by decide) high low).symm.trans
        ((words (by decide)).trans (read (by decide) high' low'))
  · rintro ⟨rfl, rfl⟩
    rfl

end Instructions

end Register

end ExLibs.Math
