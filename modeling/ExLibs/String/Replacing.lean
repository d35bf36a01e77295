/-
# Replacing in strings

`XString::replaceAll` edits a copy of the string and goes on behind what it has put in, so that
it passes the string once, whatever it puts in. What `count` returns is the greatest number of
occurrences that lie apart, as long as that is an `int`. Of the three loops only that of `split`
takes an empty text for one that occurs.
-/
import Mathlib.Algebra.Order.Ring.Int
import Mathlib.Tactic.Linarith
import ExLibs.Math.Occurrences
import ExLibs.String.XString

namespace ExLibs.Text.XString

open ExLibs.Math

/-- `tmp.replace( idx, size, str )`. -/
def replaceAt (tmp : XString) (idx size : ℕ) (xb : XString) : XString :=
  ⟨tmp.str.take idx ++ xb.str ++ tmp.str.drop (idx + size)⟩

/-- One turn of the loop of `replaceAll`, on the edited string and the position found in it. -/
def replaceTurn (xa xb : XString) : XString × Option ℕ → XString ⊕ (XString × Option ℕ)
  | (tmp, none) => .inl tmp
  | (tmp, some idx) =>
    let edited := tmp.replaceAt idx xa.str.length xb
    .inr (edited, edited.findFrom xa (idx + xb.str.length))

/-- `replaceAll` returns a string. -/
def ReplacesAll (s xa xb r : XString) : Prop :=
  if xa.str = [] then r = s else Returns (replaceTurn xa xb) (s, s.findFrom xa 0) r

/-- `replaceAll`, with a turn for each character and one that finds nothing more. -/
def replaceAll (s xa xb : XString) : XString :=
  if xa.str = [] then s
  else (loop (replaceTurn xa xb) (s.str.length + 1) (s, s.findFrom xa 0)).getD s

/-- `split`, `count` and `replaceAll` come to an end, `split` also where `reserve` throws. -/
structure ScansEnd (s find : XString) : Prop where
  split : (∃ vecList, s.Splits find vecList) ∨ ∃ nCnt < 0, s.Counts find nCnt
  count : ∃ nCount, s.Counts find nCount
  replaceAll : ∀ xb, ∃ r, s.ReplacesAll find xb r

/-- `replaceAll` is substitution in one pass, and as long as `count` says. -/
def SubstitutesAll (s xa xb : XString) : Prop :=
  ∃ r nCount, s.ReplacesAll xa xb r ∧ s.Counts xa nCount ∧
    r.str = substitute xa.str xb.str 0 s.str ∧
      (r.str.length : ℤ) = s.str.length - nCount * xa.str.length + nCount * xb.str.length

variable {s find xa xb r : XString} {pieces : List WString} {before text tail : WString}
  {nCount : ℤ} {n : ℕ}

section Passes

/-- Behind what has been passed, the loop puts the replacement between the pieces. -/
theorem loop_replaceTurn (cut : Cut xa.str text pieces tail) :
    loop (replaceTurn xa xb) (pieces.length + 1)
      (⟨before ++ text⟩, findFrom ⟨before ++ text⟩ xa before.length) =
        some ⟨before ++ xb.str.intercalate (pieces ++ [tail])⟩ := by
  -- what has been passed grows by a piece and a replacement, whatever that contains
  induction cut generalizing before with
  | @last text lacks =>
    have not_found : findFrom ⟨before ++ text⟩ xa before.length = none :=
      findFrom_of_not_infix (by rwa [List.drop_left])
    rw [not_found, loop, replaceTurn, List.nil_append, List.intercalate_singleton]
  | @next text front back tail pieces first later ih =>
    have first_there : First xa.str ((before ++ text).drop before.length) front back := by
      rwa [List.drop_left]
    obtain ⟨found, -, -⟩ := @findFrom_of_first ⟨before ++ text⟩ xa _ _ _ first_there
      (List.length_append ▸ Nat.le_add_right _ _)
    have edited : replaceAt ⟨before ++ text⟩ (before.length + front.length) xa.str.length xb =
        ⟨before ++ front ++ xb.str ++ back⟩ := by
      rw [replaceAt, first.whole]
      simp only [← List.append_assoc]
      rw [← List.length_append, List.append_assoc _ xa.str back, List.take_left,
        ← List.append_assoc, ← List.length_append, List.drop_left]
    have position : before.length + front.length + xb.str.length =
        (before ++ front ++ xb.str).length := by simp only [List.length_append]
    rw [found, List.length_cons, loop, replaceTurn]
    simp only [edited, position]
    rw [ih, intercalate_cons_concat]
    simp only [List.append_assoc]

theorem loop_replaceTurn_start (cut : Cut xa.str s.str pieces tail) :
    loop (replaceTurn xa xb) (pieces.length + 1) (s, s.findFrom xa 0) =
      some ⟨xb.str.intercalate (pieces ++ [tail])⟩ :=
  @loop_replaceTurn xa xb pieces [] s.str tail cut

/-- `replaceAll` puts the replacement between the pieces. -/
theorem replacesAll_iff_of_cut (nonempty : xa.str ≠ []) (cut : Cut xa.str s.str pieces tail) :
    s.ReplacesAll xa xb r ↔ r = ⟨xb.str.intercalate (pieces ++ [tail])⟩ := by
  have returns : Returns (replaceTurn xa xb) (s, s.findFrom xa 0)
      ⟨xb.str.intercalate (pieces ++ [tail])⟩ := ⟨_, loop_replaceTurn_start cut⟩
  rw [ReplacesAll, if_neg nonempty]
  constructor
  · exact fun replaces => replaces.unique returns
  · rintro rfl
    exact returns

/-- `replaceAll` has turns enough. -/
theorem replacesAll_iff : s.ReplacesAll xa xb r ↔ r = s.replaceAll xa xb := by
  by_cases nonempty : xa.str = []
  · rw [ReplacesAll, replaceAll, if_pos nonempty, if_pos nonempty]
  · obtain ⟨pieces, tail, cut⟩ := Cut.exists_of_ne_nil nonempty s.str
    have turns : loop (replaceTurn xa xb) (s.str.length + 1) (s, s.findFrom xa 0) =
        some ⟨xb.str.intercalate (pieces ++ [tail])⟩ := by
      obtain ⟨more, enough⟩ := Nat.le.dest (cut.length_pieces_le nonempty)
      rw [← enough, Nat.add_right_comm]
      exact loop_mono (loop_replaceTurn_start cut)
    rw [replacesAll_iff_of_cut nonempty cut, replaceAll, if_neg nonempty, turns, Option.getD_some]

/-- `replaceAll` substitutes in one pass. -/
theorem replaceAll_eq (nonempty : xa.str ≠ []) :
    s.replaceAll xa xb = ⟨substitute xa.str xb.str 0 s.str⟩ := by
  obtain ⟨pieces, tail, cut⟩ := Cut.exists_of_ne_nil nonempty s.str
  rw [cut.substitute_eq nonempty]
  exact (replacesAll_iff_of_cut nonempty cut).mp (replacesAll_iff.mpr rfl)

end Passes

section Ends

/-- With an empty separator `split` finds the same position again and again. -/
theorem not_splits_empty {vecList : List XString} : ¬ s.Splits ⟨[]⟩ vecList := by
  rintro ⟨nCnt, -, -, returns⟩
  obtain ⟨v, reaches, last⟩ := returns.exists_reaches
  have first : First ([] : WString) (s.str.drop 0) [] s.str :=
    ⟨rfl, fun _ _ _ => Nat.zero_le _⟩
  have found : s.findFrom ⟨[]⟩ 0 = some 0 := (findFrom_of_first first (Nat.zero_le _)).1
  have stays : v.st = some 0 := by
    refine @Reaches.invariant _ _ _ _ _ (fun v => v.st = some 0) reaches found
      fun v v' here turned => ?_
    rw [splitTurn, here] at turned
    rw [← Sum.inr.inj turned]
    exact found
  rw [splitTurn, stays] at last
  cases last

theorem counts_empty : s.Counts ⟨[]⟩ nCount ↔ nCount = 0 := by
  rw [Counts, if_pos rfl]

/-- The loops end exactly when what they look for is not empty. -/
theorem scansEnd_iff : s.ScansEnd find ↔ find.str ≠ [] := by
  constructor
  · rintro ⟨split, -, -⟩ empty
    obtain rfl : find = ⟨[]⟩ := by rw [← empty]
    rcases split with ⟨vecList, splits⟩ | ⟨nCnt, negative, counts⟩
    · exact not_splits_empty splits
    · exact absurd (counts_empty.mp counts) negative.ne
  · intro nonempty
    obtain ⟨pieces, tail, cut⟩ := Cut.exists_of_ne_nil nonempty s.str
    have counts := (counts_iff nonempty cut).mpr rfl
    refine ⟨?_, ⟨_, counts⟩, fun xb => ⟨_, (replacesAll_iff_of_cut nonempty cut).mpr rfl⟩⟩
    rcases lt_or_ge (int pieces.length) 0 with negative | fits
    · exact .inr ⟨_, negative, counts⟩
    · exact .inl ⟨_, (splits_iff nonempty cut).mpr ⟨rfl, fits⟩⟩

/-- A letter is not split at nothing. -/
theorem letter_scan_never_ends : ¬ ∀ s find : XString, s.ScansEnd find := by
  intro all
  rcases (all ⟨[wchar 'a']⟩ ⟨[]⟩).split with ⟨vecList, splits⟩ | ⟨nCnt, negative, counts⟩
  · exact not_splits_empty splits
  · exact absurd (counts_empty.mp counts) negative.ne

end Ends

section Counting

/-- An `int` holds the numbers below 2 ^ 31. -/
theorem int_natCast_eq_iff : int n = n ↔ n < 2 ^ 31 := by
  rw [int, Int.bmod_def]
  split <;> omega

/-- What `count` returns is the greatest number of occurrences that lie apart. -/
theorem count_isGreatest (short : s.str.length < 2 ^ 31) (nonempty : find.str ≠ []) :
    ∃ nCount : ℕ, s.Counts find nCount ∧
      IsGreatest {k | ∃ positions, Apart find.str s.str positions ∧ positions.length = k}
        nCount := by
  obtain ⟨pieces, tail, cut⟩ := Cut.exists_of_ne_nil nonempty s.str
  have fits := int_natCast_eq_iff.mpr ((cut.length_pieces_le nonempty).trans_lt short)
  exact ⟨pieces.length, (counts_iff nonempty cut).mpr fits.symm, cut.isGreatest⟩

/-- Of the three letters only two are counted. -/
theorem count_isGreatest_overlapping :
    ∃ nCount : ℕ, (mk (wide ['a', 'a', 'a'])).Counts ⟨wide ['a', 'a']⟩ nCount ∧
      IsGreatest {k | ∃ positions, Apart (wide ['a', 'a']) (wide ['a', 'a', 'a']) positions ∧
        positions.length = k} nCount :=
  count_isGreatest (by decide) (List.cons_ne_nil _ _)

end Counting

section Substitution

/-- The count in the length of the result is the number of the pieces before the last one. -/
theorem substitutesAll_iff_of_cut (nonempty : xa.str ≠ []) (cut : Cut xa.str s.str pieces tail) :
    s.SubstitutesAll xa xb ↔ pieces.length < 2 ^ 31 ∨ xa.str.length = xb.str.length := by
  have length : ((xb.str.intercalate (pieces ++ [tail])).length : ℤ) =
      s.str.length - pieces.length * xa.str.length + pieces.length * xb.str.length := by
    have same := congrArg (fun k : ℕ => (k : ℤ)) (cut.length_intercalate xb.str)
    simp only [Nat.cast_add, Nat.cast_mul] at same
    linarith only [same]
  rw [← int_natCast_eq_iff]
  constructor
  · rintro ⟨r, nCount, replaces, counts, -, measured⟩
    rw [(replacesAll_iff_of_cut nonempty cut).mp replaces, (counts_iff nonempty cut).mp counts,
      length] at measured
    have product : (int pieces.length - pieces.length) *
        ((xb.str.length : ℤ) - xa.str.length) = 0 := by linarith only [measured]
    rcases mul_eq_zero.mp product with fits | same
    · exact .inl (by omega)
    · exact .inr (by omega)
  · intro fits
    refine ⟨_, _, (replacesAll_iff_of_cut nonempty cut).mpr rfl,
      (counts_iff nonempty cut).mpr rfl, (cut.substitute_eq nonempty).symm, ?_⟩
    rw [length]
    rcases fits with fits | same
    · rw [fits]
    · rw [same]
      ring

/-- `replaceAll` is substitution in one pass, of the length that `count` gives, exactly where
fewer than 2 ^ 31 occurrences lie apart or the replacement is as long as what it replaces. -/
theorem substitutesAll_iff (nonempty : xa.str ≠ []) :
    s.SubstitutesAll xa xb ↔
      (∀ positions, Apart xa.str s.str positions → positions.length < 2 ^ 31) ∨
        xa.str.length = xb.str.length := by
  obtain ⟨pieces, tail, cut⟩ := Cut.exists_of_ne_nil nonempty s.str
  obtain ⟨⟨most, apart, length⟩, greatest⟩ := cut.isGreatest
  have fits : (∀ positions, Apart xa.str s.str positions → positions.length < 2 ^ 31) ↔
      pieces.length < 2 ^ 31 := by
    constructor
    · intro few
      rw [← length]
      exact few most apart
    · exact fun few positions apart => (greatest ⟨positions, apart, rfl⟩).trans_lt few
  rw [fits, substitutesAll_iff_of_cut nonempty cut]

/-- A letter may be replaced by two of its kind. -/
theorem substitutesAll_doubled :
    (mk (wide ['a', 'b', 'a'])).SubstitutesAll ⟨wide ['a', 'b']⟩ ⟨wide ['b', 'a']⟩ :=
  (substitutesAll_iff (List.cons_ne_nil _ _)).mpr (.inr rfl)

theorem not_substitutesAll_replicate (large : 2 ^ 31 ≤ n) :
    ¬ (mk (List.replicate n (wchar 'a'))).SubstitutesAll ⟨[wchar 'a']⟩ ⟨[]⟩ := by
  rw [substitutesAll_iff_of_cut (List.cons_ne_nil _ _) (cut_replicate (wchar 'a') n),
    List.length_replicate]
  rintro (few | same)
  · exact absurd large few.not_ge
  · cases same

/-- Of 2 ^ 31 letters that are all taken out the count is negative. -/
theorem count_wraps_around :
    ¬ ∀ s xa xb : XString, xa.str ≠ [] → s.SubstitutesAll xa xb :=
  fun all => not_substitutesAll_replicate le_rfl (all _ ⟨[wchar 'a']⟩ ⟨[]⟩ (List.cons_ne_nil _ _))

end Substitution

end ExLibs.Text.XString
