/-
# Splitting strings

`XString::count` and `XString::split` find one occurrence of a separator after the other. Each
piece that `split` returns ends at an occurrence, so that what stands behind the last one is
missing from them.
-/
import Mathlib.Data.Nat.Cast.Basic
import ExLibs.Math.Cut
import ExLibs.Math.Loop
import ExLibs.String.WChar

namespace ExLibs.Text

open ExLibs.Math

/-- `XString`. -/
structure XString where
  str : WString
  deriving DecidableEq

namespace XString

/-- The value that an `int` takes. -/
def int (n : ℤ) : ℤ := n.bmod (2 ^ 32)

/-- `_str.find( find, idx )`, where none is `npos`. -/
def findFrom (s find : XString) (idx : ℕ) : Option ℕ :=
  if idx ≤ s.str.length then
    ((s.str.drop idx).dropInfix? find.str).map fun parts => idx + parts.1.length
  else none

/-- The value that a `size_t` takes. -/
def sizeT (n : ℤ) : ℕ := (n % 2 ^ 64).toNat

/-- `npos`, as a length. -/
def npos : ℕ := sizeT (-1)

/-- `_str.rfind( xs )`, where none is `npos`. -/
def rfind (s xs : XString) : Option ℕ :=
  (List.range (s.str.length + 1)).reverse.find? fun pos => xs.str.isPrefixOf (s.str.drop pos)

/-- `substr`, from a position that is not behind the end, or from `npos`. -/
def substr (s : XString) (nSrc : Option ℕ) (nSize : ℕ) : XString :=
  match nSrc with
  | some nSrc => ⟨(s.str.drop nSrc).take nSize⟩
  | none => ⟨[]⟩

/-- One turn of the loop of `count`. -/
def countTurn (s find : XString) : ℤ × ℕ → ℤ ⊕ (ℤ × ℕ)
  | (nCount, idx) =>
    match s.findFrom find idx with
    | some sizeFind => .inr (int (nCount + 1), sizeFind + find.str.length)
    | none => .inl nCount

/-- `count` returns a number. -/
def Counts (s find : XString) (nCount : ℤ) : Prop :=
  if find.str = [] then nCount = 0 else Returns (countTurn s find) (0, 0) nCount

/-- The local variables of `split`. -/
structure Splitter where
  vecList : List XString := []
  st : Option ℕ
  nCurrent : ℕ := 0

/-- One turn of the loop of `split`. -/
def splitTurn (s sSplit : XString) (v : Splitter) : List XString ⊕ Splitter :=
  match v.st with
  | none => .inl v.vecList
  | some st => .inr {
      vecList := v.vecList ++ [⟨(s.str.drop v.nCurrent).take (st - v.nCurrent)⟩]
      nCurrent := st + sSplit.str.length
      st := s.findFrom sSplit (st + sSplit.str.length) }

/-- `split` returns pieces. With a negative number `reserve` throws. -/
def Splits (s sSplit : XString) (vecList : List XString) : Prop :=
  ∃ nCnt, s.Counts sSplit nCnt ∧ 0 ≤ nCnt ∧
    Returns (splitTurn s sSplit) { st := s.findFrom sSplit 0 } vecList

/-- The pieces with a separator between them. -/
def join (sSplit : XString) (vecList : List XString) : XString :=
  ⟨sSplit.str.intercalate (vecList.map XString.str)⟩

/-- Splitting and joining are inverse. -/
def SplitInverse (s sSplit : XString) : Prop :=
  ∃ vecList nCount, s.Splits sSplit vecList ∧ s.Counts sSplit nCount ∧
    sSplit.join vecList = s ∧ (∀ piece ∈ vecList, ¬ sSplit.str <:+: piece.str) ∧
      (vecList.length : ℤ) = nCount + 1

variable {s sSplit : XString} {pieces : List WString} {front back tail : WString}
  {idx : ℕ} {nCount : ℤ} {vecList : List XString}

/-- What is found is the first occurrence from there on. -/
theorem findFrom_of_first (first : First sSplit.str (s.str.drop idx) front back)
    (inside : idx ≤ s.str.length) :
    s.findFrom sSplit idx = some (idx + front.length) ∧
      s.str.drop (idx + front.length + sSplit.str.length) = back ∧
      idx + front.length + sSplit.str.length ≤ s.str.length := by
  have length := congrArg List.length first.whole
  simp only [List.length_drop, List.length_append] at length
  refine ⟨?_, first.drop_eq.2, by omega⟩
  rw [findFrom, if_pos inside, First.dropInfix?_eq_some_iff.mpr first, Option.map_some]

theorem findFrom_of_not_infix (lacks : ¬ sSplit.str <:+: s.str.drop idx) :
    s.findFrom sSplit idx = none := by
  rw [findFrom, First.dropInfix?_eq_none_iff.mpr lacks, Option.map_none, ite_self]

theorem prefix_of_rfind (found : s.rfind sSplit = some idx) : sSplit.str <+: s.str.drop idx := by
  have here := @List.find?_some _ (fun pos => sSplit.str.isPrefixOf (s.str.drop pos)) _ _ found
  exact List.isPrefixOf_iff_prefix.mp here

/-- The loop of `count` counts the pieces before the last one. -/
theorem countTurn_returns (inside : idx ≤ s.str.length)
    (cut : Cut sSplit.str (s.str.drop idx) pieces tail) :
    Returns (countTurn s sSplit) (int nCount, idx) (int (nCount + pieces.length)) := by
  -- each turn finds the next occurrence, and goes on behind it
  generalize rest : s.str.drop idx = text at cut
  induction cut generalizing idx nCount with
  | last lacks =>
    subst rest
    refine .of_turn ?_
    rw [countTurn, findFrom_of_not_infix lacks, List.length_nil, Int.natCast_zero, Int.add_zero]
  | @next text front back tail pieces first later ih =>
    subst rest
    obtain ⟨found, behind, bound⟩ := findFrom_of_first first inside
    have turned : countTurn s sSplit (int nCount, idx) =
        .inr (int (nCount + 1), idx + front.length + sSplit.str.length) := by
      rw [countTurn, found]
      simp only [int, Int.bmod_add_bmod]
    have others : Returns (countTurn s sSplit)
        (int (nCount + 1), idx + front.length + sSplit.str.length)
        (int (nCount + 1 + pieces.length)) := ih bound behind
    rw [List.length_cons, Int.natCast_succ, Int.add_comm (pieces.length : ℤ), ← Int.add_assoc]
    exact (Leads.of_turn turned).returns others

/-- The loop of `split` returns the pieces before the last one. -/
theorem splitTurn_returns (inside : idx ≤ s.str.length)
    (cut : Cut sSplit.str (s.str.drop idx) pieces tail) :
    Returns (splitTurn s sSplit) ⟨vecList, s.findFrom sSplit idx, idx⟩
      (vecList ++ pieces.map XString.mk) := by
  generalize rest : s.str.drop idx = text at cut
  induction cut generalizing idx vecList with
  | last lacks =>
    subst rest
    refine .of_turn ?_
    rw [splitTurn, findFrom_of_not_infix lacks, List.map_nil, List.append_nil]
  | @next text front back tail pieces first later ih =>
    subst rest
    obtain ⟨found, behind, bound⟩ := findFrom_of_first first inside
    -- `nCurrent` is where the last occurrence ended
    have piece : (s.str.drop idx).take (idx + front.length - idx) = front := by
      rw [Nat.add_sub_cancel_left, first.whole, List.append_assoc, List.take_left]
    have turned : splitTurn s sSplit ⟨vecList, s.findFrom sSplit idx, idx⟩ =
        .inr ⟨vecList ++ [⟨front⟩], s.findFrom sSplit (idx + front.length + sSplit.str.length),
          idx + front.length + sSplit.str.length⟩ := by
      rw [splitTurn, found]
      simp only [piece]
    have others : Returns (splitTurn s sSplit)
        ⟨vecList ++ [⟨front⟩], s.findFrom sSplit (idx + front.length + sSplit.str.length),
          idx + front.length + sSplit.str.length⟩
        (vecList ++ [⟨front⟩] ++ pieces.map XString.mk) := ih bound behind
    rw [List.map_cons, ← List.singleton_append, ← List.append_assoc]
    exact (Leads.of_turn turned).returns others

/-- `count` returns the number of the pieces before the last one, as an `int`. -/
theorem counts_iff (nonempty : sSplit.str ≠ []) (cut : Cut sSplit.str s.str pieces tail) :
    s.Counts sSplit nCount ↔ nCount = int pieces.length := by
  have returns : Returns (countTurn s sSplit) (int 0, 0) (int (0 + pieces.length)) :=
    countTurn_returns (Nat.zero_le _) cut
  rw [Int.zero_add] at returns
  rw [Counts, if_neg nonempty]
  constructor
  · exact fun counts => counts.unique returns
  · intro same
    rw [same]
    exact returns

/-- `split` returns the pieces before the last one, unless their number is too large. -/
theorem splits_iff (nonempty : sSplit.str ≠ []) (cut : Cut sSplit.str s.str pieces tail) :
    s.Splits sSplit vecList ↔ vecList = pieces.map XString.mk ∧ 0 ≤ int pieces.length := by
  have returns : Returns (splitTurn s sSplit) { st := s.findFrom sSplit 0 }
      ([] ++ pieces.map XString.mk) := splitTurn_returns (Nat.zero_le _) cut
  constructor
  · rintro ⟨nCnt, counts, fits, splits⟩
    rw [(counts_iff nonempty cut).mp counts] at fits
    exact ⟨splits.unique returns, fits⟩
  · rintro ⟨rfl, fits⟩
    exact ⟨_, (counts_iff nonempty cut).mpr rfl, fits, returns⟩

/-- Where `split` returns, the pieces and what stands behind the last occurrence make up the
string, none of them contains the separator, and there are as many pieces as occurrences. -/
theorem split_exact (nonempty : sSplit.str ≠ []) (splits : s.Splits sSplit vecList) :
    ∃ tail : XString, sSplit.join (vecList ++ [tail]) = s ∧
      (∀ piece ∈ vecList ++ [tail], ¬ sSplit.str <:+: piece.str) ∧
        s.Counts sSplit (int vecList.length) := by
  obtain ⟨pieces, tail, cut⟩ := Cut.exists_of_ne_nil nonempty s.str
  obtain ⟨rfl, -⟩ := (splits_iff nonempty cut).mp splits
  have strs : (pieces.map mk ++ [mk tail]).map str = pieces ++ [tail] := by
    simp [Function.comp_def]
  refine ⟨⟨tail⟩, ?_, fun piece member => ?_, ?_⟩
  · rw [join, strs, cut.intercalate_eq]
  · exact cut.not_infix nonempty (strs ▸ List.mem_map_of_mem member)
  · rw [counts_iff nonempty cut, List.length_map]

/-- Splitting and joining are never inverse: there is one piece too few. -/
theorem not_splitInverse (nonempty : sSplit.str ≠ []) : ¬ s.SplitInverse sSplit := by
  rintro ⟨vecList, nCount, splits, counts, -, -, length⟩
  obtain ⟨pieces, tail, cut⟩ := Cut.exists_of_ne_nil nonempty s.str
  obtain ⟨rfl, -⟩ := (splits_iff nonempty cut).mp splits
  rw [List.length_map, (counts_iff nonempty cut).mp counts] at length
  -- also a count that has wrapped around is not the number of the pieces less one
  have count : ((pieces.length : ℤ) - int pieces.length) % 2 ^ 32 = 0 := by
    unfold int
    have := Int.bmod_add_bdiv (pieces.length : ℤ) (2 ^ 32)
    omega
  omega

/-- Not for one comma either. -/
theorem not_splitInverse_comma : ¬ (mk (wide ['a', ',', 'b'])).SplitInverse ⟨[wchar ',']⟩ :=
  not_splitInverse (List.cons_ne_nil _ _)

/-- Of a text with one comma only what stands before it is returned. -/
theorem comma_not_rejoined : ¬ ∀ s sSplit : XString, sSplit.str ≠ [] → s.SplitInverse sSplit := by
  intro all
  let s : XString := ⟨wide ['a', ',', 'b']⟩
  let comma : XString := ⟨[wchar ',']⟩
  obtain ⟨vecList, -, ⟨-, -, -, splits⟩, -, joined, -, -⟩ := all s comma (List.cons_ne_nil _ _)
  have actual : Returns (splitTurn s comma) { st := s.findFrom comma 0 } [⟨[wchar 'a']⟩] :=
    ⟨2, by decide⟩
  rw [splits.unique actual] at joined
  exact absurd joined (by decide)

end XString

end ExLibs.Text
