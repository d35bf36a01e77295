/-
# UUIDs

`CreateGUID` draws a random UUID from a generator that it seeds anew with 32 bits, and writes it
as text. The vendored `UUIDv4` writes and reads the text with vector instructions, all the 32
digits at once: a byte is spread over two lanes, nibbles become letters by an addition, and the
dashes come in by a shuffle.
-/
import Mathlib.Tactic.FinCases
import Mathlib.Tactic.IntervalCases
import Mathlib.Tactic.Ring
import ExLibs.Math.Register

namespace ExLibs.Util.UUIDv4

open ExLibs.Math ExLibs.Math.Register

section Writing

/-- Expand each byte in `x` to two bytes. The other half of the wide register is undefined. -/
def expand (upper x : Register 16) : Register 32 :=
  let mask := set1Epi8 0x0F
  let a := castsi128Si256 upper x
  -- words are shifted, as there is no shift of bytes
  let as := srliEpi64 a 4
  let lo := unpackloEpi8 as a
  let hi := castsi256Si128 (unpackhiEpi8 as a)
  let c := insertUpper lo hi
  andSi c mask

/-- Translate each byte to its hex ascii representation. -/
def translate (d : Register 32) : Register 32 :=
  let add := set1Epi8 0x06
  let alphaMask := set1Epi8 0x10
  let alphaOffset := set1Epi8 0x57
  -- bit 4 of the sum is set for a letter, and becomes the sign
  let alpha := slliEpi64 (andSi (addEpi8 d add) alphaMask) 3
  let offset := blendvEpi8 (slliEpi64 add 3) alphaOffset alpha
  addEpi8 d offset

/-- Add dashes between blocks and write the text to `mem`. -/
def addDashes (res : Register 32) (mem : ℕ → BitVec 8) : ℕ → BitVec 8 :=
  let dashShuffle := setEpi32 [0x0b0a0908, 0x07060504, 0x80030201, 0x00808080,
    0x0d0c800b, 0x0a090880, 0x07060504, 0x03020100]
  let dash := setEpi64x [0x0000000000000000, 0x2d000000002d0000, 0x00002d000000002d,
    0x0000000000000000]
  let resd := shuffleEpi8 res dashShuffle
  let resd := orSi resd dash
  let mem := store mem 0 resd
  let mem := store mem 16 (extract res 2 7)
  store mem 32 (extract res 4 7)

/-- `m128itos`. -/
def m128itos (upper x : Register 16) (mem : ℕ → BitVec 8) : ℕ → BitVec 8 :=
  addDashes (translate (expand upper x)) mem

end Writing

section Reading

/-- Remove dashes and pack the hex ascii bytes. -/
def pack (mem : ℕ → BitVec 8) : Register 32 :=
  let dashShuffle := setEpi32 [0x80808080, 0x0f0e0d0c, 0x0b0a0908, 0x06050403,
    0x80800f0e, 0x0c0b0a09, 0x07060504, 0x03020100]
  let x := load mem 32 0
  let x := shuffleEpi8 x dashShuffle
  let x := insert x 2 (load mem 2 16) 7
  insert x 4 (load mem 4 32) 7

/-- Translate ascii bytes to their value. -/
def values (x : Register 32) : Register 32 :=
  let sub := set1Epi8 0x2F
  let mask := set1Epi8 0x20
  let alphaOffset := set1Epi8 0x28
  let digitsOffset := set1Epi8 0x01
  let a := subEpi8 x sub
  -- bit 5 is set for a letter in lower case, and becomes the sign
  let alpha := slliEpi64 (andSi a mask) 2
  let subMask := blendvEpi8 digitsOffset alphaOffset alpha
  subEpi8 a subMask

/-- Shift the high digits and add the low ones. -/
def join (a : Register 32) : Register 16 :=
  let unweave := setEpi32 [0x0f0d0b09, 0x0e0c0a08, 0x07050301, 0x06040200,
    0x0f0d0b09, 0x0e0c0a08, 0x07050301, 0x06040200]
  let shift := setEpi32 [0x00000000, 0x00000004, 0x00000000, 0x00000004,
    0x00000000, 0x00000004, 0x00000000, 0x00000004]
  let a := shuffleEpi8 a unweave
  let a := sllvEpi32 a shift
  let a := haddEpi32 a (set1Epi8 0)
  let a := permute4x64Epi64 a 0b00001000
  castsi256Si128 a

/-- `stom128i`. -/
def stom128i (mem : ℕ → BitVec 8) : Register 16 := join (values (pack mem))

end Reading

/-- The digits of a UUID, the high one of each byte first. -/
def nibble (x : Register 16) (i : ℕ) : ℕ :=
  if i % 2 = 0 then (x.byte (i / 2)).toNat / 16 else (x.byte (i / 2)).toNat % 16

/-- The digits of each block. -/
def blocks : List (List ℕ) :=
  [[0, 1, 2, 3, 4, 5, 6, 7], [8, 9, 10, 11], [12, 13, 14, 15], [16, 17, 18, 19],
    [20, 21, 22, 23, 24, 25, 26, 27, 28, 29, 30, 31]]

/-- Which digit stands where in the text; the others are dashes. -/
def layout : List (Option ℕ) := [none].intercalate (blocks.map (List.map some))

/-- The text of these digits. -/
def spelled (digit : ℕ → ℕ) : List Char :=
  ['-'].intercalate (blocks.map (List.map fun i => Nat.digitChar (digit i)))

/-- Where a digit stands in the text. -/
def place (i : ℕ) : ℕ :=
  i + if i < 8 then 0 else if i < 12 then 1 else if i < 16 then 2 else if i < 20 then 3 else 4

/-- A digit as the text has it. -/
def ascii (n : ℕ) : BitVec 8 := BitVec.ofNat 8 (Nat.digitChar n).toNat

section Written

variable {upper x : Register 16}

theorem nibble_lt {i : ℕ} : nibble x i < 16 := by
  have := (x.byte (i / 2)).isLt
  unfold nibble
  split <;> omega

theorem toNat_and_mask (b : BitVec 8) : (b &&& 0x0F).toNat = b.toNat % 16 :=
  Nat.and_two_pow_sub_one_eq_mod b.toNat 4

theorem interleave (as a : Register 32) (i : Fin 32) :
    insertUpper (unpackloEpi8 as a) (castsi256Si128 (unpackhiEpi8 as a)) i =
      (if i.val % 2 = 0 then as else a) ⟨i / 2, by omega⟩ := by
  fin_cases i <;> rfl

/-- The shift brings bits of the next byte with it, which the mask removes. -/
theorem expand_apply (i : Fin 32) : (expand upper x i).toNat = nibble x i := by
  have half (j : ℕ) (inside : j < 16) :
      castsi128Si256 upper x ⟨j, by omega⟩ = x.byte j := if_pos inside
  have inside : i.val / 2 < 16 := by omega
  rw [expand, andSi, set1Epi8, toNat_and_mask, interleave, nibble]
  -- digits in even places come from the shifted bytes, the others from the bytes themselves
  split
  · exact (srliEpi64_mod (by decide : 4 ≤ 8) _).trans (by rw [half _ inside]; rfl)
  · rw [half _ inside]

theorem translate_apply {d : Register 32} (small : ∀ i, (d i).toNat < 16) (i : Fin 32) :
    translate d i = ascii (d i).toNat := by
  have fits : ∀ b : BitVec 8, 2 ^ 3 * (b &&& 0x10).toNat < 256 := by decide
  -- what is left of a byte behind its mask stays within it, so that each goes by the table
  have table : ∀ b : BitVec 8, b.toNat < 16 →
      (b + if (BitVec.ofNat 8 (2 ^ 3 * ((b + 0x06) &&& 0x10).toNat)).msb then 0x57 else
        BitVec.ofNat 8 (2 ^ 3 * (0x06 : BitVec 8).toNat)) = ascii b.toNat := by decide
  have alpha : slliEpi64 (andSi (addEpi8 d (set1Epi8 0x06)) (set1Epi8 0x10)) 3 = _ :=
    slliEpi64_eq fun _ => fits _
  have digits : slliEpi64 (set1Epi8 0x06 : Register 32) 3 = _ :=
    slliEpi64_eq fun _ => (by decide : 2 ^ 3 * (0x06 : BitVec 8).toNat < 256)
  rw [← table _ (small i), translate, alpha, digits]
  rfl

theorem addDashes_apply (res : Register 32) (mem : ℕ → BitVec 8) (p : Fin 36) :
    addDashes res mem p = (layout.getD p none).elim 0x2d res.byte := by
  -- the register of the dashes is zero where digits stand
  have or_zero (a b : Register 32) : orSi a b = fun i => if b i = 0 then a i else a i ||| b i := by
    funext i
    rw [orSi]
    split
    · simp_all
    · rfl
  rw [addDashes, or_zero]
  fin_cases p <;> first | rfl | exact BitVec.zero_or

/-- What is behind the text stays as it is. -/
theorem addDashes_of_le (res : Register 32) (mem : ℕ → BitVec 8) {p : ℕ} (behind : 36 ≤ p) :
    addDashes res mem p = mem p := by
  simp only [addDashes, store]
  rw [if_neg (by omega), if_neg (by omega), if_neg (by omega)]

theorem m128itos_apply (mem : ℕ → BitVec 8) (p : Fin 36) :
    m128itos upper x mem p =
      (layout.getD p none).elim 0x2d (byte fun i : Fin 32 => ascii (nibble x i)) := by
  have small (i : Fin 32) : (expand upper x i).toNat < 16 := expand_apply i ▸ nibble_lt
  have digits : translate (expand upper x) = fun i : Fin 32 => ascii (nibble x i) := by
    funext i
    rw [translate_apply small, expand_apply]
  rw [m128itos, addDashes_apply, digits]

/-- The conversion writes the digits of the UUID in their blocks, whatever the undefined half of
the wide register holds, and nothing behind them. -/
theorem m128itos_writes (upper x : Register 16) (mem : ℕ → BitVec 8) :
    (List.range 36).map (m128itos upper x mem) =
        (spelled (nibble x)).map (fun c => BitVec.ofNat 8 c.toNat) ∧
      ∀ p, 36 ≤ p → m128itos upper x mem p = mem p := by
  refine ⟨?_, fun p => addDashes_of_le _ mem⟩
  have places : (List.range 36).map (m128itos upper x mem) =
      (List.finRange 36).map fun p : Fin 36 => m128itos upper x mem p := rfl
  simp only [places, m128itos_apply]
  rfl

end Written

section Read

variable {mem : ℕ → BitVec 8}

theorem pack_apply (i : Fin 32) : pack mem i = mem (place i) := by
  fin_cases i <;> rfl

/-- What a byte is read as. -/
def value (b : BitVec 8) : BitVec 8 :=
  let a := b - 0x2F
  a - if (BitVec.ofNat 8 (2 ^ 2 * (a &&& 0x20).toNat)).msb then 0x28 else 0x01

theorem values_apply (x : Register 32) (i : Fin 32) : values x i = value (x i) := by
  have fits : ∀ b : BitVec 8, 2 ^ 2 * (b &&& 0x20).toNat < 256 := by decide
  have alpha : slliEpi64 (andSi (subEpi8 x (set1Epi8 0x2F)) (set1Epi8 0x20)) 2 = _ :=
    slliEpi64_eq fun _ => fits _
  rw [values, alpha]
  rfl

/-- The text of a digit as `CASE_TYPE_UPPER` has it. -/
def asciiUpper (n : ℕ) : BitVec 8 := BitVec.ofNat 8 (Nat.digitChar n).toUpper.toNat

/-- An upper-case letter is read as seven more than it says. -/
theorem value_ascii (n : Fin 16) : (value (ascii n)).toNat = n ∧
    (value (asciiUpper n)).toNat = n + if ascii n = asciiUpper n then 0 else 7 := by
  revert n
  decide

/-- The bytes of every other digit, from the given one on. -/
def every (a : Register 32) (first : ℕ) : ℕ :=
  Nat.ofDigits 256 ((List.range 4).map fun j => (a.byte (first + 2 * j)).toNat)

/-- The neighbours of a word are added into it. -/
theorem word_join (a : Register 32) (v : Fin 4) :
    word 4 (join a) v = (16 * every a (8 * v) + every a (8 * v + 1)) % 2 ^ 32 := by
  let u := shuffleEpi8 a (setEpi32 [0x0f0d0b09, 0x0e0c0a08, 0x07050301, 0x06040200,
    0x0f0d0b09, 0x0e0c0a08, 0x07050301, 0x06040200])
  let s := sllvEpi32 u (setEpi32 [0x00000000, 0x00000004, 0x00000000, 0x00000004, 0x00000000,
    0x00000004, 0x00000000, 0x00000004])
  let b := haddEpi32 s (set1Epi8 0)
  have joined : join a = fun i : Fin 16 => permute4x64Epi64 b 0b00001000 ⟨i, by omega⟩ := by
    funext i
    exact byte_of_lt _
  -- the sums of the first lane come first, and those of the second after them
  have taken : word 4 (join a) v = word 4 b (v / 2 * 4 + v % 2) := by
    simp only [joined, permute4x64Epi64_apply]
    fin_cases v <;> rfl
  have added : word 4 b (v / 2 * 4 + v % 2) =
      (word 4 s (2 * v) + word 4 s (2 * v + 1)) % 2 ^ 32 := by
    refine (word_ofWords (by omega)).trans ?_
    fin_cases v <;> rfl
  -- the digits in even places are shifted, and those in odd places are not
  have high : word 4 s (2 * v) = 16 * every a (8 * v) % 2 ^ 32 := by
    refine (word_sllvEpi32 (by omega)).trans ?_
    fin_cases v <;> rfl
  have low : word 4 s (2 * v + 1) = 1 * every a (8 * v + 1) % 2 ^ 32 := by
    refine (word_sllvEpi32 (by omega)).trans ?_
    fin_cases v <;> rfl
  rw [taken, added, high, low, one_mul, ← Nat.add_mod]

/-- The word that eight digits make, the high one of each byte first. -/
def weave (f : ℕ → ℕ) (v : ℕ) : ℕ :=
  16 * Nat.ofDigits 256 ((List.range 4).map fun j => f (8 * v + 2 * j)) +
    Nat.ofDigits 256 ((List.range 4).map fun j => f (8 * v + 1 + 2 * j))

theorem weave_eq (f : ℕ → ℕ) (v : ℕ) : weave f v =
    16 * (f (8 * v) + 256 * (f (8 * v + 2) + 256 * (f (8 * v + 4) + 256 * f (8 * v + 6)))) +
      (f (8 * v + 1) + 256 * (f (8 * v + 3) + 256 * (f (8 * v + 5) + 256 * f (8 * v + 7)))) := by
  simp [weave, List.range_succ, Nat.ofDigits]

theorem weave_add (f g : ℕ → ℕ) (v : ℕ) :
    weave (fun i => f i + 7 * g i) v = weave f v + 7 * weave g v := by
  simp only [weave_eq]
  ring

theorem weave_le {f : ℕ → ℕ} {bound : ℕ} (le : ∀ i, f i ≤ bound) (v : ℕ) :
    weave f v ≤ bound * 0x11111111 := by
  rw [weave_eq]
  calc
    _ ≤ 16 * (bound + 256 * (bound + 256 * (bound + 256 * bound))) +
        (bound + 256 * (bound + 256 * (bound + 256 * bound))) := by gcongr <;> apply le
    _ = bound * 0x11111111 := by ring

theorem weave_eq_zero_iff {f : ℕ → ℕ} {v : ℕ} : weave f v = 0 ↔ ∀ j < 8, f (8 * v + j) = 0 := by
  rw [weave_eq]
  constructor
  · intro zero j inside
    simp only [Nat.add_eq_zero_iff, Nat.mul_eq_zero, OfNat.ofNat_ne_zero, false_or] at zero
    interval_cases j <;> simp [zero]
  · intro zero
    have zero' : f (8 * v) = 0 := zero 0 (by decide)
    simp [zero', zero]

/-- The UUID with these digits. -/
def packed (n : ℕ → Fin 16) : Register 16 :=
  fun j => BitVec.ofNat 8 (16 * n (2 * j) + n (2 * j + 1))

theorem packed_byte (n : ℕ → Fin 16) {j : ℕ} (inside : j < 16) :
    ((packed n).byte j).toNat = 16 * n (2 * j) + n (2 * j + 1) := by
  rw [byte_of_lt inside, packed, BitVec.toNat_ofNat]
  have := (n (2 * j)).isLt
  change (16 * (n (2 * j)).val + n (2 * j + 1)) % 256 = _
  omega

theorem word_packed (n : ℕ → Fin 16) (v : Fin 4) :
    word 4 (packed n) v = weave (fun i => n i) v := by
  have pairs : word 4 (packed n) v = Nat.ofDigits 256
      ((List.range 4).map fun j => 16 * n (8 * v + 2 * j) + n (8 * v + 1 + 2 * j)) := by
    refine congrArg _ (List.map_congr_left fun j member => ?_)
    have small : j < 4 := List.mem_range.mp member
    have inside : v * 4 + j < 16 := by omega
    rw [packed_byte n inside, show 2 * (v * 4 + j) = 8 * v.val + 2 * j by omega,
      Nat.add_right_comm]
  rw [pairs, weave]
  simp only [List.range_succ, List.range_zero, List.nil_append, List.cons_append, List.map_cons,
    List.map_nil, Nat.ofDigits_cons, Nat.ofDigits_nil]
  ring

/-- Of a text with hexadecimal digits in the places of the digits, whatever stands between the
blocks, the conversion reads the UUID exactly if no digit is an upper-case letter. -/
theorem stom128i_eq_iff (n : ℕ → Fin 16)
    (hex : ∀ i < 32, mem (place i) = ascii (n i) ∨ mem (place i) = asciiUpper (n i)) :
    stom128i mem = packed n ↔ ∀ i < 32, mem (place i) = ascii (n i) := by
  -- the digits that are upper-case letters, each of which is read as seven more
  let wrong (i : ℕ) := if mem (place i) = ascii (n i) then 0 else 1
  have read (i : ℕ) (inside : i < 32) :
      (byte (values (pack mem)) i).toNat = n i + 7 * wrong i := by
    rw [byte_of_lt inside, values_apply, pack_apply]
    by_cases lower : mem (place i) = ascii (n i)
    · simp only [wrong, if_pos lower, lower]
      exact (value_ascii (n i)).1
    · have upper := (hex i inside).resolve_left lower
      simp only [wrong, if_neg lower, upper]
      rw [(value_ascii (n i)).2, if_neg fun same => lower (upper.trans same.symm)]
  have word_read (v : Fin 4) : word 4 (stom128i mem) v =
      (weave (fun i => n i) v + 7 * weave wrong v) % 2 ^ 32 := by
    have taken (first : ℕ) (inside : first + 6 < 32) : every (values (pack mem)) first =
        Nat.ofDigits 256 ((List.range 4).map fun j =>
          n (first + 2 * j) + 7 * wrong (first + 2 * j)) := by
      refine congrArg _ (List.map_congr_left fun j member => read _ ?_)
      have := List.mem_range.mp member
      omega
    rw [← weave_add, stom128i, word_join, taken _ (by omega), taken _ (by omega), weave]
  have fits (v : ℕ) : weave (fun i => n i) v < 2 ^ 32 :=
    (weave_le (fun i => Nat.le_of_lt_succ (n i).isLt) v).trans_lt (by decide)
  have few (v : ℕ) : weave wrong v ≤ 1 * 0x11111111 :=
    weave_le (fun i => by simp only [wrong]; split <;> decide) v
  constructor
  · intro same i inside
    -- seven times what is wrong is too little for a word to go round
    have vanishes (a b : ℕ) (small : b ≤ 1 * 0x11111111) (wraps : a = (a + 7 * b) % 2 ^ 32) :
        b = 0 := by
      have whole := Nat.mod_add_div (a + 7 * b) (2 ^ 32)
      rw [← wraps, add_right_inj] at whole
      have fewer : 7 * b < 2 ^ 32 := (Nat.mul_le_mul_left 7 small).trans_lt (by decide)
      have zero : 7 * b = 0 := Nat.eq_zero_of_dvd_of_lt ⟨_, whole.symm⟩ fewer
      exact (Nat.mul_eq_zero.mp zero).resolve_left (by decide)
    have none (v : Fin 4) : weave wrong v = 0 := by
      have eq : word 4 (packed n) v = _ := same ▸ word_read v
      exact vanishes _ _ (few v) ((word_packed n v).symm.trans eq)
    have right := weave_eq_zero_iff.mp (none ⟨i / 8, by omega⟩) (i % 8) (Nat.mod_lt _ (by decide))
    rw [Nat.div_add_mod] at right
    by_contra lower
    exact absurd right (by simp [wrong, lower])
  · intro lower
    refine ext_words (k := 4) (by decide) fun v inside => ?_
    have right : weave wrong v = 0 :=
      weave_eq_zero_iff.mpr fun j small => if_pos (lower _ (by omega))
    have eq := word_read ⟨v, by omega⟩
    rw [right, mul_zero, add_zero, Nat.mod_eq_of_lt (fits v)] at eq
    exact eq.trans (word_packed n ⟨v, by omega⟩).symm

end Read

section Generated

/-- `UUID::str`, with the 36 characters that the conversion fills. -/
def str (upper x : Register 16) : List (BitVec 8) :=
  (List.range 36).map (m128itos upper x fun _ => 0)

/-- `getUUID`, for two draws. The masks set the version and the variant. -/
def getUUID (high low : BitVec 64) : Register 16 :=
  let andMask := setEpi64x [0xFFFFFFFFFFFFFF3F, 0xFF0FFFFFFFFFFFFF]
  let orMask := setEpi64x [0x0000000000000080, 0x0040000000000000]
  let n := setEpi64x [high, low]
  orSi (andSi n andMask) orMask

/-- `toupper`. -/
def toupper (c : BitVec 8) : BitVec 8 := if 0x61 ≤ c ∧ c ≤ 0x7A then c - 0x20 else c

inductive CaseType where
  | none
  | upper
  | lower
  deriving DecidableEq

/-- `CreateGUID`, whose generator is made anew at each call and gives two draws for its seed. -/
def createGUID (generator : BitVec 32 → BitVec 64 × BitVec 64) (upper : Register 16)
    (seed : BitVec 32) (eCase : CaseType) : List Char :=
  let sUUID := str upper (getUUID (generator seed).1 (generator seed).2)
  let sUUID := if eCase = .upper then sUUID.map toupper else sUUID
  sUUID.map fun c => Char.ofNat c.toNat

/-- The texts of random UUIDs: the version is 4, and the variant the two bits 10. -/
def IsVersion4 (text : List Char) : Prop :=
  ∃ digit : ℕ → ℕ, (∀ i, digit i < 16) ∧ text = spelled digit ∧ digit 12 = 4 ∧ digit 16 / 4 = 2

variable {upper x : Register 16}

theorem str_eq : str upper x =
    layout.map fun o => o.elim 0x2d (byte fun i : Fin 32 => ascii (nibble x i)) := by
  have places : str upper x =
      (List.finRange 36).map fun p : Fin 36 => m128itos upper x (fun _ => 0) p := rfl
  simp only [places, m128itos_apply]
  rfl

theorem toupper_ascii : ∀ n < 16, toupper (ascii n) = asciiUpper n := by decide

theorem ofNat_ascii : ∀ n < 16, Char.ofNat (ascii n).toNat = Nat.digitChar n ∧
    Char.ofNat (asciiUpper n).toNat = (Nat.digitChar n).toUpper := by decide

theorem lt_of_mem_layout : ∀ o ∈ layout, ∀ i ∈ o, i < 32 := by decide

theorem map_str (f : BitVec 8 → Char) : (str upper x).map f =
    layout.map fun o => o.elim (f 0x2d) fun i => f (ascii (nibble x i)) := by
  rw [str_eq, List.map_map]
  refine List.map_congr_left fun o member => ?_
  cases o with
  | none => rfl
  | some i =>
    have inside := lt_of_mem_layout _ member i rfl
    simp only [Function.comp_apply, Option.elim_some, byte_of_lt inside]

theorem spelled_eq (digit : ℕ → ℕ) :
    spelled digit = layout.map fun o => o.elim '-' fun i => Nat.digitChar (digit i) := rfl

theorem createGUID_eq (generator : BitVec 32 → BitVec 64 × BitVec 64) (seed : BitVec 32)
    (eCase : CaseType) : createGUID generator upper seed eCase =
      (spelled (nibble (getUUID (generator seed).1 (generator seed).2))).map
        fun c => if eCase = .upper then c.toUpper else c := by
  rw [createGUID, apply_ite (List.map _), List.map_map, map_str, map_str, spelled_eq, List.map_map]
  by_cases shouted : eCase = .upper
  · simp only [if_pos shouted]
    refine List.map_congr_left fun o _ => ?_
    cases o with
    | none => rfl
    | some i =>
      simp only [Option.elim_some, Function.comp_apply]
      rw [toupper_ascii _ nibble_lt, (ofNat_ascii _ nibble_lt).2]
  · simp only [if_neg shouted]
    refine List.map_congr_left fun o _ => ?_
    cases o with
    | none => rfl
    | some i => exact (ofNat_ascii _ nibble_lt).1

/-- The masks leave of a random UUID what is not its version or its variant. -/
theorem getUUID_apply (high low : BitVec 64) (i : Fin 16) :
    getUUID high low i = (setEpi64x [high, low] i &&&
      if i = 6 then 0x0F else if i = 8 then 0x3F else 0xFF) |||
        if i = 6 then 0x40 else if i = 8 then 0x80 else 0 := by
  fin_cases i <;> rfl

theorem packed_nibble (x : Register 16) : packed (fun i => ⟨nibble x i, nibble_lt⟩) = x := by
  funext j
  have high : nibble x (2 * j) = (x j).toNat / 16 := by
    rw [nibble, if_pos (by omega), Nat.mul_div_cancel_left _ (by decide), byte_val]
  have low : nibble x (2 * j + 1) = (x j).toNat % 16 := by
    rw [nibble, if_neg (by omega), show (2 * j.val + 1) / 2 = j by omega, byte_val]
  apply BitVec.eq_of_toNat_eq
  calc (packed (fun i => ⟨nibble x i, nibble_lt⟩) j).toNat
      = 16 * nibble x (2 * j) + nibble x (2 * j + 1) :=
        (congrArg BitVec.toNat (byte_val j).symm).trans (packed_byte _ j.isLt)
    _ = (x j).toNat := by rw [high, low, Nat.div_add_mod]

/-- UUIDs are the same if their digits are. -/
theorem nibble_injective {y : Register 16} (same : ∀ i < 32, nibble x i = nibble y i) : x = y := by
  rw [← packed_nibble x, ← packed_nibble y]
  funext j
  simp only [packed, same (2 * j) (by omega), same (2 * j + 1) (by omega)]

/-- What is set beside a mask can be told from what the mask leaves. -/
theorem and_or_inj {a o b b' : BitVec 8} (apart : a &&& o = 0#8) :
    (b &&& a ||| o) = (b' &&& a ||| o) ↔ b &&& a = b' &&& a := by
  refine ⟨fun same => ?_, fun same => by rw [same]⟩
  have left (c : BitVec 8) : (c &&& a ||| o) &&& a = c &&& a := by
    rw [BitVec.and_comm, BitVec.and_or_distrib_left, apart, BitVec.or_zero, BitVec.and_comm,
      BitVec.and_assoc, BitVec.and_self]
  rw [← left b, same, left]

/-- A random UUID keeps of its draws what the masks leave. -/
theorem getUUID_eq_iff {high low high' low' : BitVec 64} :
    getUUID high low = getUUID high' low' ↔
      high &&& 0xFFFFFFFFFFFFFF3F = high' &&& 0xFFFFFFFFFFFFFF3F ∧
        low &&& 0xFF0FFFFFFFFFFFFF = low' &&& 0xFF0FFFFFFFFFFFFF := by
  rw [← setEpi64x_inj (n := 16) (by decide), ← andSi_setEpi64x, ← andSi_setEpi64x]
  have apart : ∀ i : Fin 16,
      (setEpi64x [0xFFFFFFFFFFFFFF3F, 0xFF0FFFFFFFFFFFFF] : Register 16) i &&&
        setEpi64x [0x0000000000000080, 0x0040000000000000] i = 0#8 := by decide
  rw [getUUID, getUUID, funext_iff, funext_iff]
  exact forall_congr' fun i => and_or_inj (apart i)

/-- Texts are the same if their digits are, also in upper case. -/
theorem map_spelled_inj {digit digit' : ℕ → ℕ} (small : ∀ i, digit i < 16)
    (small' : ∀ i, digit' i < 16) (eCase : CaseType) :
    ((spelled digit).map fun c => if eCase = .upper then c.toUpper else c) =
      ((spelled digit').map fun c => if eCase = .upper then c.toUpper else c) ↔
      ∀ i < 32, digit i = digit' i := by
  have letters : ∀ m < 16, ∀ n < 16, (Nat.digitChar m = Nat.digitChar n → m = n) ∧
      ((Nat.digitChar m).toUpper = (Nat.digitChar n).toUpper → m = n) := by decide
  have stands : ∀ i < 32, some i ∈ layout := by decide
  rw [spelled_eq, spelled_eq, List.map_map, List.map_map, List.map_inj_left]
  constructor
  · intro same i inside
    have letter := same (some i) (stands i inside)
    simp only [Function.comp_apply, Option.elim_some] at letter
    split at letter
    · exact (letters _ (small i) _ (small' i)).2 letter
    · exact (letters _ (small i) _ (small' i)).1 letter
  · intro same o member
    cases o with
    | none => rfl
    | some i => simp only [Function.comp_apply, Option.elim_some,
        same i (lt_of_mem_layout _ member i rfl)]

/-- `CreateGUID` makes texts of version 4, and the same one for two seeds exactly if what is drawn
from them differs in the bits of the version and of the variant at most. -/
theorem createGUID_eq_iff (generator : BitVec 32 → BitVec 64 × BitVec 64)
    (upper upper' : Register 16) (seed seed' : BitVec 32) (eCase : CaseType) :
    (∃ small, IsVersion4 small ∧ createGUID generator upper seed eCase =
      small.map fun c => if eCase = .upper then c.toUpper else c) ∧
    (createGUID generator upper seed eCase = createGUID generator upper' seed' eCase ↔
      (generator seed).1 &&& 0xFFFFFFFFFFFFFF3F = (generator seed').1 &&& 0xFFFFFFFFFFFFFF3F ∧
      (generator seed).2 &&& 0xFF0FFFFFFFFFFFFF = (generator seed').2 &&& 0xFF0FFFFFFFFFFFFF) := by
  constructor
  · refine ⟨_, ⟨nibble (getUUID (generator seed).1 (generator seed).2), fun _ => nibble_lt, rfl,
      ?_, ?_⟩, createGUID_eq ..⟩
    · have version : ∀ b : BitVec 8, ((b &&& 0x0F) ||| 0x40).toNat / 16 = 4 := by decide
      exact (congrArg (·.toNat / 16) (getUUID_apply _ _ 6)).trans (version _)
    · have variant : ∀ b : BitVec 8, ((b &&& 0x3F) ||| 0x80).toNat / 16 / 4 = 2 := by decide
      exact (congrArg (·.toNat / 16 / 4) (getUUID_apply _ _ 8)).trans (variant _)
  · rw [createGUID_eq, createGUID_eq, map_spelled_inj (fun _ => nibble_lt) (fun _ => nibble_lt),
      ← getUUID_eq_iff]
    exact ⟨nibble_injective, fun same _ _ => by rw [same]⟩

theorem m128itos_place (upper x : Register 16) (mem : ℕ → BitVec 8) {i : ℕ} (inside : i < 32) :
    m128itos upper x mem (place i) = ascii (nibble x i) := by
  have stands : ∀ i < 32, place i < 36 ∧ layout.getD (place i) none = some i := by decide
  obtain ⟨within, digit⟩ := stands i inside
  refine (m128itos_apply mem ⟨place i, within⟩).trans ?_
  rw [digit, Option.elim_some, byte_of_lt inside]

/-- A UUID is read back from its text, in which any of the letters have been put in upper case,
exactly if none of them has been. -/
theorem stom128i_m128itos_eq_iff (upper x : Register 16) (mem : ℕ → BitVec 8)
    (shouted : ℕ → Bool) :
    (stom128i fun p => if shouted p then toupper (m128itos upper x mem p)
      else m128itos upper x mem p) = x ↔
      ∀ i < 32, shouted (place i) → nibble x i < 10 := by
  have digit : ∀ n < 16, asciiUpper n = ascii n ↔ n < 10 := by decide
  have text (i : ℕ) (inside : i < 32) :
      (if shouted (place i) then toupper (m128itos upper x mem (place i))
        else m128itos upper x mem (place i)) =
        if shouted (place i) then asciiUpper (nibble x i) else ascii (nibble x i) := by
    rw [m128itos_place _ _ _ inside, toupper_ascii _ nibble_lt]
  nth_rewrite 3 [← packed_nibble x]
  rw [stom128i_eq_iff]
  · refine forall₂_congr fun i inside => ?_
    rw [text i inside]
    split
    · simp [*, nibble_lt]
    · simp [*]
  · intro i inside
    rw [text i inside]
    split
    · exact .inr rfl
    · exact .inl rfl

end Generated

end ExLibs.Util.UUIDv4
