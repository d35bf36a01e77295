/-
# Wide characters

On Windows `wchar_t` is a code unit of UTF-16, and a string may hold any of them, also half of a
surrogate pair. A character of the source stands for its code unit.
-/
import Mathlib.Data.BitVec
import Mathlib.Order.Defs.LinearOrder

namespace ExLibs

/-- `wchar_t`. -/
abbrev WChar := BitVec 16

/-- `std::wstring`. -/
abbrev WString := List WChar

/-- The wide form of a character. -/
def wchar (c : Char) : WChar := BitVec.ofNat 16 c.toNat

/-- A wide string literal. -/
def wide (s : List Char) : WString := s.map wchar

@[simp]
theorem wide_nil : wide [] = [] := rfl

@[simp]
theorem wide_cons (c : Char) (s : List Char) : wide (c :: s) = wchar c :: wide s := rfl

theorem wide_append (s t : List Char) : wide (s ++ t) = wide s ++ wide t := List.map_append

/-- Wide characters are compared as numbers. -/
instance : LinearOrder WChar where
  le_refl := BitVec.le_refl
  le_trans _ _ _ := BitVec.le_trans
  lt_iff_le_not_ge c d := by
    rw [BitVec.not_le]
    exact ⟨fun less => ⟨BitVec.le_of_lt less, less⟩, And.right⟩
  le_antisymm _ _ := BitVec.le_antisymm
  le_total := BitVec.le_total
  toDecidableLE := inferInstance
  toDecidableLT := inferInstance
  toDecidableEq := inferInstance

section Literals

variable {c d : Char}

@[simp]
theorem toNat_wchar (small : c.toNat < 2 ^ 16) : (wchar c).toNat = c.toNat :=
  Nat.mod_eq_of_lt small

/-- Characters of the basic plane have code units of their own. -/
@[simp]
theorem wchar_inj (small : c.toNat < 2 ^ 16) (small' : d.toNat < 2 ^ 16) :
    wchar c = wchar d ↔ c = d := by
  rw [← BitVec.toNat_inj, toNat_wchar small, toNat_wchar small', Char.toNat_inj]

end Literals

end ExLibs
