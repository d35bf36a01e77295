/-
# Comparing strings without regard to case

With `isCaseInsensitive` the four operations of `XString` fold the case of both texts and look
into the folded ones. On the way some of them pass through `LPCWSTR`, which ends at the first
NUL, where the sensitive branch of the same operation does not.
-/
import ExLibs.Math.Terminator
import ExLibs.String.XString

namespace ExLibs.Text.XString

open ExLibs.Math

/-- `L'\0'`. -/
def nul : WChar := 0

/-- `operator LPCWSTR`, as what is read of the pointer. -/
def lpcwstr (s : XString) : WString := upTo nul s.str

/-- `std::wstring{ s }`, which is constructed from the pointer. -/
def wstring (s : XString) : XString := ⟨s.lpcwstr⟩

/-- `_str.starts_with( xs )`, where `xs` is converted to a pointer. -/
def startsWith (s xs : XString) : Bool := xs.lpcwstr.isPrefixOf s.str

/-- `_str.ends_with( xs )`, where `xs` is converted to a pointer. -/
def endsWith (s xs : XString) : Bool := xs.lpcwstr.isSuffixOf s.str

section Operations

variable (towlower : WChar → WChar)

/-- `toLower`. -/
def toLower (s : XString) : XString := ⟨s.str.map towlower⟩

/-- `compare`. The standard one returns -1, 0 or 1. -/
def compare (s xs : XString) (isCaseInsensitive : Bool) : ℤ :=
  if isCaseInsensitive = true then
    let xa := (s.toLower towlower).wstring
    let xb := (xs.toLower towlower).wstring
    comparison xa.str xb.str
  else comparison s.str xs.str

/-- `contains`. -/
def contains (s xs : XString) (isCaseInsensitive : Bool) : Bool :=
  if isCaseInsensitive = true then
    let tmp := (s.toLower towlower).wstring
    (tmp.findFrom (xs.toLower towlower) 0).isSome
  else (s.findFrom xs 0).isSome

/-- `startswith`. -/
def startswith (s xs : XString) (isCaseInsensitive : Bool) : Bool :=
  if isCaseInsensitive = true then
    let tmp := (s.toLower towlower).wstring
    tmp.startsWith (xs.toLower towlower)
  else s.startsWith xs

/-- `endswith`. -/
def endswith (s xs : XString) (isCaseInsensitive : Bool) : Bool :=
  if isCaseInsensitive = true then
    let tmp := (s.toLower towlower).wstring
    tmp.endsWith (xs.toLower towlower)
  else s.endsWith xs

/-- Without regard to case the operations answer as the sensitive ones on folded texts. -/
structure FoldsAlike (s xs : XString) : Prop where
  compare : s.compare towlower xs true =
    (s.toLower towlower).compare towlower (xs.toLower towlower) false
  contains : s.contains towlower xs true =
    (s.toLower towlower).contains towlower (xs.toLower towlower) false
  startswith : s.startswith towlower xs true =
    (s.toLower towlower).startswith towlower (xs.toLower towlower) false
  endswith : s.endswith towlower xs true =
    (s.toLower towlower).endswith towlower (xs.toLower towlower) false

end Operations

/-- Nothing depends on what stands behind the first NUL: two texts do not differ only there, the
second does not stand in the first only there, and what is read of it stands at the end of the
first as it does at the end of what is read of that. -/
structure Visible (s xs : XString) : Prop where
  alike : s.lpcwstr = xs.lpcwstr → s = xs
  inside : xs.str <:+: s.str → xs.str <:+: s.lpcwstr
  atEnd : xs.lpcwstr <:+ s.lpcwstr ↔ xs.lpcwstr <:+ s.str

variable {s xs : XString} {towlower : WChar → WChar}

section Conversions

theorem nul_le (c : WChar) : nul ≤ c := Nat.zero_le c.toNat

theorem isSome_findFrom_iff : (s.findFrom xs 0).isSome = true ↔ xs.str <:+: s.str := by
  rw [findFrom, if_pos (Nat.zero_le _), Option.isSome_map, Option.isSome_iff_ne_none, ne_eq,
    First.dropInfix?_eq_none_iff, not_not, List.drop_zero]

theorem comparison_wstring_iff :
    comparison s.wstring.str xs.wstring.str = comparison s.str xs.str ↔
      (s.lpcwstr = xs.lpcwstr → s = xs) := by
  have same : s = xs ↔ s.str = xs.str := ⟨congrArg str, fun same => congrArg mk same⟩
  rw [same]
  exact comparison_upTo_iff nul_le

theorem findFrom_wstring_iff :
    (s.wstring.findFrom xs 0).isSome = (s.findFrom xs 0).isSome ↔
      (xs.str <:+: s.str → xs.str <:+: s.lpcwstr) := by
  rw [Bool.eq_iff_iff, isSome_findFrom_iff, isSome_findFrom_iff]
  exact ⟨Iff.mpr, fun inside => ⟨fun read => read.trans upTo_prefix.isInfix, inside⟩⟩

/-- Both the text and what it is to begin with end at a NUL. -/
theorem startsWith_wstring : s.wstring.startsWith xs = s.startsWith xs := by
  rw [Bool.eq_iff_iff, startsWith, startsWith, List.isPrefixOf_iff_prefix,
    List.isPrefixOf_iff_prefix]
  exact upTo_prefix_upTo_iff

theorem endsWith_wstring_iff :
    s.wstring.endsWith xs = s.endsWith xs ↔
      (xs.lpcwstr <:+ s.lpcwstr ↔ xs.lpcwstr <:+ s.str) := by
  rw [Bool.eq_iff_iff, endsWith, endsWith, List.isSuffixOf_iff_suffix,
    List.isSuffixOf_iff_suffix, wstring]

end Conversions

/-- The operations answer alike exactly where nothing depends on what stands behind a NUL of the
folded texts. -/
theorem foldsAlike_iff :
    s.FoldsAlike towlower xs ↔ (s.toLower towlower).Visible (xs.toLower towlower) := by
  constructor
  · rintro ⟨compares, contains, -, ends⟩
    exact ⟨comparison_wstring_iff.mp compares, findFrom_wstring_iff.mp contains,
      endsWith_wstring_iff.mp ends⟩
  · rintro ⟨alike, inside, atEnd⟩
    exact ⟨comparison_wstring_iff.mpr alike, findFrom_wstring_iff.mpr inside,
      startsWith_wstring, endsWith_wstring_iff.mpr atEnd⟩

/-- Without a NUL the whole texts are read. -/
theorem visible_of_notMem (whole : nul ∉ s.str) (whole' : nul ∉ xs.str) : s.Visible xs := by
  have read : s.lpcwstr = s.str := upTo_of_notMem whole
  have read' : xs.lpcwstr = xs.str := upTo_of_notMem whole'
  refine ⟨fun same => ?_, fun inside => ?_, by rw [read]⟩
  · rw [read, read'] at same
    exact congrArg mk same
  · rwa [read]

/-- Without a NUL in them folding keeps the answers. -/
theorem foldsAlike_of_notMem (only_nul : ∀ c, towlower c = nul ↔ c = nul)
    (whole : nul ∉ s.str) (whole' : nul ∉ xs.str) : s.FoldsAlike towlower xs := by
  have folded : ∀ {t : XString}, nul ∉ t.str → nul ∉ (t.toLower towlower).str := by
    intro t whole member
    obtain ⟨c, member, folds⟩ := List.mem_map.mp member
    exact whole ((only_nul c).mp folds ▸ member)
  exact foldsAlike_iff.mpr (visible_of_notMem (folded whole) (folded whole'))

/-- `towlower` of the C locale, which folds the letters of ASCII. -/
def lowered (c : WChar) : WChar :=
  if wchar 'A' ≤ c ∧ c ≤ wchar 'Z' then c + 32 else c

/-- It maps only NUL to NUL. -/
theorem lowered_eq_nul_iff (c : WChar) : lowered c = nul ↔ c = nul := by
  unfold lowered
  split
  case isTrue letter =>
    obtain ⟨above, below⟩ : 65 ≤ c.toNat ∧ c.toNat ≤ 90 := letter
    have shifted : (c + 32).toNat = c.toNat + 32 := by
      rw [BitVec.toNat_add]
      exact Nat.mod_eq_of_lt (by change c.toNat + 32 < 65536; omega)
    constructor
    · intro same
      rw [same] at shifted
      cases shifted
    · rintro rfl
      cases above
  case isFalse => exact Iff.rfl

/-- A letter behind a NUL is not found without regard to case. -/
theorem letter_hidden_by_nul :
    ¬ ∀ towlower : WChar → WChar, (∀ c, towlower c = nul ↔ c = nul) →
      ∀ s xs : XString, s.FoldsAlike towlower xs := by
  intro all
  have contains := (all lowered lowered_eq_nul_iff ⟨[wchar 'a', nul, wchar 'b']⟩
    ⟨[wchar 'b']⟩).contains
  exact absurd contains (by decide)

end ExLibs.Text.XString
