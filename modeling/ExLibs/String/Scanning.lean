/-
# Where the scanner stalls, and where it runs past the end

Any format string, in the placeholder language or not. A turn of `format_trans` moves the
pointer on, except where the characters of a placeholder are no number and begin no type: there
every variable stays as it is, and the loop never ends. It passes the terminator where a closing
brace at the very end drops a placeholder with a type, or follows a second opening brace. No turn
reads an argument that is not there.
-/
import Mathlib.Data.List.Infix
import ExLibs.String.Format

namespace ExLibs.Format

open ExLibs.Math

/-- The characters that `c_str()` points to, before the terminator. -/
structure CString where
  chars : WString
  noNul : wchar '\x00' ∉ chars

namespace Scan

/-- The scanner is in a placeholder, before its type, at a character that it does nothing with:
one that is neither a brace nor a colon nor a digit, or the closing brace after a number that has
wrapped around to a negative one. -/
def Stalls (s : Scan) : Prop :=
  s.isBracket = false ∧ s.isPlaceHolder = true ∧ s.isType = false ∧
    ∃ c rest, s.sFormatString = c :: rest ∧
      (c = wchar '}' ∧ s.nIndex < -1 ∨
        c ≠ wchar '{' ∧ c ≠ wchar '}' ∧ c ≠ wchar ':' ∧ ¬ (wchar '0' ≤ c ∧ c ≤ wchar '9'))

/-- The placeholder has a type, which is unknown or lacks its argument. -/
def Drops (vecArgs : List WString) (s : Scan) : Prop :=
  s.isPlaceHolder = true ∧ s.isType = true ∧
    (s.sType = [wchar 'b'] ∨ s.sType = [wchar 'B'] →
      hasArg vecArgs (if s.nIndex = -1 then s.nArgsIdx else s.nIndex) = false)

/-- The scanner is at a closing brace that ends the format string, and goes on after it in the
same turn. -/
def Overruns (vecArgs : List WString) (s : Scan) : Prop :=
  s.sFormatString = [wchar '}'] ∧ (s.isBracket = true ∨ s.Drops vecArgs)

theorem Stalls.not_overruns {vecArgs : List WString} {s : Scan} (stalls : s.Stalls) :
    ¬ s.Overruns vecArgs := by
  obtain ⟨unbracketed, -, untyped, -⟩ := stalls
  rintro ⟨-, bracketed | ⟨-, typed, -⟩⟩
  · exact Bool.false_ne_true (unbracketed.symm.trans bracketed)
  · exact Bool.false_ne_true (untyped.symm.trans typed)

/-- The number of the next argument is not negative, or it has wrapped around. -/
def Indexed (s : Scan) : Prop :=
  0 ≤ s.nArgsIdx ∧ s.nArgsIdx < 2 ^ 15 ∨ s.nArgsIdx = -2 ^ 15

end Scan

section Blocks

variable {vecArgs : List WString} {s : Scan} {rest : WString} {c : WChar} {i : ℤ}

/-- Only at index `-1` there may be no argument where the code takes it that there is one. -/
theorem exists_withArg (there : hasArg vecArgs i = true) (regular : i ≠ -1) :
    ∃ arg, ∀ onward, withArg vecArgs i onward = onward arg := by
  have range : 0 ≤ i + 1 ∧ i + 1 ≤ vecArgs.length := of_decide_eq_true there
  obtain ⟨n, rfl⟩ : ∃ n : ℕ, i = n := ⟨i.toNat, by omega⟩
  have bound : n < vecArgs.length := by omega
  refine ⟨vecArgs[n], fun onward => ?_⟩
  change withArg vecArgs (.ofNat n) onward = _
  simp only [withArg, List.getElem?_eq_getElem bound]

namespace Scan.Indexed

theorem ne (indexed : s.Indexed) : s.nArgsIdx ≠ -1 := by
  unfold Scan.Indexed at indexed
  omega

/-- Only an argument that is there is counted. -/
theorem short (indexed : s.Indexed) (there : hasArg vecArgs s.nArgsIdx = true) :
    0 ≤ Format.short (s.nArgsIdx + 1) ∧ Format.short (s.nArgsIdx + 1) < 2 ^ 15 ∨
      Format.short (s.nArgsIdx + 1) = -2 ^ 15 := by
  have range : 0 ≤ s.nArgsIdx + 1 ∧ s.nArgsIdx + 1 ≤ vecArgs.length := of_decide_eq_true there
  unfold Scan.Indexed at indexed
  by_cases last : s.nArgsIdx = 2 ^ 15 - 1
  · refine .inr ?_
    rw [last]
    decide
  · have same : Format.short (s.nArgsIdx + 1) = s.nArgsIdx + 1 :=
      Int.bmod_eq_of_le (by omega) (by omega)
    omega

end Scan.Indexed

variable (vecArgs) in
/-- Outside of placeholders every character is consumed. -/
theorem plain_outside (outside : s.isPlaceHolder = false) (more : s.sFormatString = c :: rest) :
    ∃ t, plain vecArgs s = .again t ∧ t.sFormatString = rest ∧ t.nArgsIdx = s.nArgsIdx := by
  obtain ⟨_, sRet, isPlaceHolder, isType, isBracket, sType, i, j⟩ := s
  obtain rfl : isPlaceHolder = false := outside
  obtain rfl := more
  by_cases opens : c = wchar '{'
  · subst opens
    exact ⟨_, rfl, rfl, rfl⟩
  · refine ⟨⟨rest, sRet ++ [c], false, isType, isBracket, sType, i, j⟩, ?_, rfl, rfl⟩
    simp [plain, opens]

/-- The terminator would be copied, and stepped over. -/
theorem plain_outside_nil (outside : s.isPlaceHolder = false) (ended : s.sFormatString = []) :
    plain vecArgs s = .fault := by
  obtain ⟨_, sRet, isPlaceHolder, isType, isBracket, sType, i, j⟩ := s
  obtain rfl : isPlaceHolder = false := outside
  obtain rfl := ended
  rfl

variable (vecArgs) in
/-- In a placeholder, before its type, a character is consumed unless the scanner stalls there;
of a type, only an opening brace is left for this block. -/
theorem plain_inside (inside : s.isPlaceHolder = true) (unbracketed : s.isBracket = false)
    (untyped : s.isType = true → c = wchar '{') (indexed : s.Indexed)
    (more : s.sFormatString = c :: rest) :
    s.Stalls ∧ plain vecArgs s = .again s ∨
      ¬ s.Stalls ∧ ∃ t, plain vecArgs s = .again t ∧ t.sFormatString = rest ∧ t.Indexed := by
  have moving : ¬ (c = wchar '}' ∧ s.nIndex < -1 ∨
      c ≠ wchar '{' ∧ c ≠ wchar '}' ∧ c ≠ wchar ':' ∧ ¬ (wchar '0' ≤ c ∧ c ≤ wchar '9')) →
        ¬ s.Stalls := by
    rintro moves ⟨-, -, -, d, tail, same, stalls⟩
    obtain ⟨rfl, rfl⟩ := List.cons.inj (more.symm.trans same)
    exact moves stalls
  obtain ⟨_, sRet, isPlaceHolder, isType, isBracket, sType, i, j⟩ := s
  obtain rfl : isPlaceHolder = true := inside
  obtain rfl : isBracket = false := unbracketed
  obtain rfl := more
  by_cases opens : c = wchar '{'
  · subst opens
    exact .inr ⟨moving (by simp), _, rfl, rfl, indexed⟩
  obtain rfl : isType = false := Bool.eq_false_iff.mpr fun typed => opens (untyped typed)
  by_cases closes : c = wchar '}'
  · subst closes
    -- the placeholder has a number, or none, or one that has wrapped around below `-1`
    rcases Int.lt_trichotomy i (-1) with wrapped | rfl | numbered
    · refine .inl ⟨⟨rfl, rfl, rfl, _, _, rfl, .inl ⟨rfl, wrapped⟩⟩, ?_⟩
      simp [plain, show i ≠ -1 by omega, show ¬ -1 < i by omega]
    · refine .inr ⟨moving (by simp), ?_⟩
      cases there : hasArg vecArgs j with
      | true =>
        obtain ⟨arg, found⟩ := exists_withArg there indexed.ne
        refine ⟨⟨rest, sRet ++ arg, false, false, false, sType, -1, short (j + 1)⟩, ?_, rfl,
          indexed.short there⟩
        simp [plain, there, found]
      | false =>
        refine ⟨⟨rest, sRet, false, false, false, sType, -1, j⟩, ?_, rfl, indexed⟩
        simp [plain, there]
    · refine .inr ⟨moving (by simp; omega), ?_⟩
      cases there : hasArg vecArgs i with
      | true =>
        obtain ⟨arg, found⟩ := exists_withArg there (by omega)
        refine ⟨⟨rest, sRet ++ arg, false, false, false, sType, -1, j⟩, ?_, rfl, indexed⟩
        simp [plain, there, found, numbered, show i ≠ -1 by omega]
      | false =>
        refine ⟨⟨rest, sRet, false, false, false, sType, -1, j⟩, ?_, rfl, indexed⟩
        simp [plain, there, numbered, show i ≠ -1 by omega]
  by_cases colon : c = wchar ':'
  · subst colon
    exact .inr ⟨moving (by simp), _, rfl, rfl, indexed⟩
  by_cases digit : wchar '0' ≤ c ∧ c ≤ wchar '9'
  · refine .inr ⟨moving (by simp [closes, digit]), ?_⟩
    -- the first digit replaces `-1`, and any other one is appended
    have digits : plain vecArgs ⟨c :: rest, sRet, true, false, false, sType, i, j⟩ =
        .again ⟨rest, sRet, true, false, false, sType,
          if i = -1 then c.toNat - (wchar '0').toNat
          else short (i * 10 + (c.toNat - (wchar '0').toNat)), j⟩ := by
      simp [plain, opens, closes, colon, digit]
    exact ⟨_, digits, rfl, indexed⟩
  · -- no branch of the block is for this character
    refine .inl ⟨⟨rfl, rfl, rfl, _, _, rfl, .inr ⟨opens, closes, colon, digit⟩⟩, ?_⟩
    simp [plain, opens, closes, colon, digit]

/-- What the block for types does. -/
inductive Typed (vecArgs : List WString) (s : Scan) (c : WChar) (rest : WString) : Block → Prop
  | passes (untyped : s.isPlaceHolder = true → s.isType = true → c = wchar '{') :
      Typed vecArgs s c rest (.onward s)
  | consumes {t : Scan} (kept : c = wchar '}' → ¬ s.Drops vecArgs) (typed : s.isType = true)
      (moved : t.sFormatString = rest) (indexed : t.Indexed) : Typed vecArgs s c rest (.again t)
  | drops {t : Scan} (closes : c = wchar '}') (dropped : s.Drops vecArgs)
      (moved : t.sFormatString = rest) (outside : t.isPlaceHolder = false) (indexed : t.Indexed) :
      Typed vecArgs s c rest (.onward t)

variable (vecArgs) in
theorem typed_cases (indexed : s.Indexed) (more : s.sFormatString = c :: rest) :
    Typed vecArgs s c rest (typed vecArgs s) := by
  by_cases inType : s.isPlaceHolder = true ∧ s.isType = true
  · obtain ⟨_, sRet, isPlaceHolder, isType, isBracket, sType, i, j⟩ := s
    obtain ⟨rfl, rfl⟩ : isPlaceHolder = true ∧ isType = true := inType
    obtain rfl := more
    by_cases opens : c = wchar '{'
    · subst opens
      exact .passes fun _ _ => rfl
    by_cases closes : c = wchar '}'
    · subst closes
      -- a known type is shown where the argument is there; else the placeholder is dropped, and the
      -- turn goes on after its brace
      by_cases known : sType = [wchar 'b'] ∨ sType = [wchar 'B']
      · by_cases sequential : i = -1
        · subst sequential
          cases there : hasArg vecArgs j with
          | true =>
            obtain ⟨arg, found⟩ := exists_withArg there indexed.ne
            have shows : typed vecArgs
                ⟨wchar '}' :: rest, sRet, true, true, isBracket, sType, -1, j⟩ =
                .again ⟨rest, sRet ++ boolText (isTrue arg), false, false, isBracket, [], -1,
                  short (j + 1)⟩ := by
              simp [typed, known, there, found]
            rw [shows]
            refine .consumes (fun _ dropped => ?_) rfl rfl (indexed.short there)
            exact Bool.false_ne_true ((dropped.2.2 known).symm.trans there)
          | false =>
            have lacks : typed vecArgs
                ⟨wchar '}' :: rest, sRet, true, true, isBracket, sType, -1, j⟩ =
                .onward ⟨rest, sRet, false, false, isBracket, [], -1, j⟩ := by
              simp [typed, known, there]
            rw [lacks]
            exact .drops rfl ⟨rfl, rfl, fun _ => there⟩ rfl rfl indexed
        · cases there : hasArg vecArgs i with
          | true =>
            obtain ⟨arg, found⟩ := exists_withArg there sequential
            have shows : typed vecArgs
                ⟨wchar '}' :: rest, sRet, true, true, isBracket, sType, i, j⟩ =
                .again ⟨rest, sRet ++ boolText (isTrue arg), false, true, isBracket, [], -1,
                  j⟩ := by
              simp [typed, known, sequential, there, found]
            rw [shows]
            refine .consumes (fun _ dropped => ?_) rfl rfl indexed
            have lacks := dropped.2.2 known
            rw [if_neg sequential] at lacks
            exact Bool.false_ne_true (lacks.symm.trans there)
          | false =>
            have lacks : typed vecArgs
                ⟨wchar '}' :: rest, sRet, true, true, isBracket, sType, i, j⟩ =
                .onward ⟨rest, sRet, false, false, isBracket, [], -1, j⟩ := by
              simp [typed, known, sequential, there]
            rw [lacks]
            refine .drops rfl ⟨rfl, rfl, fun _ => ?_⟩ rfl rfl indexed
            rwa [if_neg sequential]
      · have unknown : typed vecArgs ⟨wchar '}' :: rest, sRet, true, true, isBracket, sType, i, j⟩ =
            .onward ⟨rest, sRet, false, false, isBracket, [], -1, j⟩ := by
          simp [typed, known]
        rw [unknown]
        exact .drops rfl ⟨rfl, rfl, fun b => absurd b known⟩ rfl rfl indexed
    · have reads : typed vecArgs ⟨c :: rest, sRet, true, true, isBracket, sType, i, j⟩ =
          .again ⟨rest, sRet, true, true, isBracket, sType ++ [c], i, j⟩ := by
        simp [typed, opens, closes]
      rw [reads]
      exact .consumes (fun is => absurd is closes) rfl rfl indexed
  · have passes : typed vecArgs s = .onward s := by
      refine if_pos ?_
      rw [← Bool.not_eq_true, ← Bool.not_eq_true, ← not_and_or]
      exact inType
    rw [passes]
    exact .passes fun inside typed => absurd ⟨inside, typed⟩ inType

/-- The pointer has moved on. -/
def Scan.Advances (s t : Scan) : Prop :=
  t.sFormatString <:+ s.sFormatString.tail ∧ t.Indexed

variable (vecArgs) in
/-- The last block where the turn has come to it outside of placeholders. -/
theorem over_outside (outside : s.isPlaceHolder = false) (indexed : s.Indexed) :
    s.sFormatString = [] ∧ (plain vecArgs s).over = .inl .fault ∨
      s.sFormatString ≠ [] ∧ ∃ t, (plain vecArgs s).over = .inr t ∧ s.Advances t := by
  cases more : s.sFormatString with
  | nil =>
    refine .inl ⟨rfl, ?_⟩
    rw [plain_outside_nil outside more]
    rfl
  | cons c rest =>
    obtain ⟨t, turned, moved, same⟩ := plain_outside vecArgs outside more
    refine .inr ⟨List.cons_ne_nil _ _, t, by rw [turned]; rfl, ?_, ?_⟩
    · rw [moved, more, List.tail_cons]
    · unfold Scan.Indexed
      rw [same]
      exact indexed

theorem typed_outside (outside : s.isPlaceHolder = false) : typed vecArgs s = .onward s :=
  if_pos (.inl outside)

/-- What a turn does. -/
def TurnCases (vecArgs : List WString) (s : Scan) (after : Result ⊕ Scan) : Prop :=
  s.Overruns vecArgs ∧ after = .inl .fault ∨
    ¬ s.Overruns vecArgs ∧
      (s.Stalls ∧ after = .inr s ∨ ¬ s.Stalls ∧ ∃ t, after = .inr t ∧ s.Advances t)

/-- A second opening brace has been read. -/
theorem turn_bracketed (bracketed : s.isBracket = true) (indexed : s.Indexed)
    (more : s.sFormatString = c :: rest) : TurnCases vecArgs s
      ((bracket s).andThen fun s => (typed vecArgs s).andThen (plain vecArgs)).over := by
  have moving : ¬ s.Stalls := fun stalls => Bool.false_ne_true (stalls.1.symm.trans bracketed)
  -- what follows the brackets stands outside of placeholders
  have outside {t : Scan} (outside : t.isPlaceHolder = false) (same : t.nArgsIdx = s.nArgsIdx) :
      t.sFormatString = [] ∧ ((typed vecArgs t).andThen (plain vecArgs)).over = .inl .fault ∨
        t.sFormatString ≠ [] ∧
          ∃ u, ((typed vecArgs t).andThen (plain vecArgs)).over = .inr u ∧ t.Advances u := by
    rw [typed_outside outside, Block.andThen_onward]
    refine over_outside vecArgs outside ?_
    unfold Scan.Indexed
    rw [same]
    exact indexed
  obtain ⟨_, sRet, isPlaceHolder, isType, isBracket, sType, i, j⟩ := s
  obtain rfl : isBracket = true := bracketed
  obtain rfl := more
  by_cases closes : c = wchar '}'
  · subst closes
    cases rest with
    | nil =>
      -- the last block of the turn finds the terminator
      have skips : bracket ⟨[wchar '}'], sRet, isPlaceHolder, isType, true, sType, i, j⟩ =
          .onward ⟨[], sRet ++ [wchar '{'], false, isType, false, sType, i, j⟩ := by
        simp [bracket, Scan.char]
      rw [skips, Block.andThen_onward]
      rcases @outside ⟨[], sRet ++ [wchar '{'], false, isType, false, sType, i, j⟩ rfl rfl with
        ⟨-, last⟩ | ⟨nonempty, -⟩
      · exact .inl ⟨⟨rfl, .inl rfl⟩, last⟩
      · exact absurd rfl nonempty
    | cons d rest =>
      have inside : ¬ Scan.Overruns vecArgs
          ⟨wchar '}' :: d :: rest, sRet, isPlaceHolder, isType, true, sType, i, j⟩ :=
        fun ⟨single, _⟩ => by cases single
      refine .inr ⟨inside, .inr ⟨moving, ?_⟩⟩
      by_cases pair : d = wchar '}'
      · subst pair
        have both : bracket
            ⟨wchar '}' :: wchar '}' :: rest, sRet, isPlaceHolder, isType, true, sType, i, j⟩ =
            .again ⟨rest, sRet ++ wide ['{', '}'], false, isType, false, sType, i, j⟩ := by
          simp [bracket]
        rw [both]
        exact ⟨_, rfl, List.suffix_cons _ _, indexed⟩
      · have skips : bracket
            ⟨wchar '}' :: d :: rest, sRet, isPlaceHolder, isType, true, sType, i, j⟩ =
            .onward ⟨d :: rest, sRet ++ [wchar '{'], false, isType, false, sType, i, j⟩ := by
          simp [bracket, pair]
        rw [skips, Block.andThen_onward]
        rcases @outside ⟨d :: rest, sRet ++ [wchar '{'], false, isType, false, sType, i, j⟩ rfl rfl
          with ⟨ended, -⟩ | ⟨-, t, last, suffix, indexed⟩
        · cases ended
        · exact ⟨t, last, suffix.trans (List.suffix_cons d rest), indexed⟩
  · have inside : ¬ Scan.Overruns vecArgs
        ⟨c :: rest, sRet, isPlaceHolder, isType, true, sType, i, j⟩ :=
      fun ⟨single, _⟩ => closes (List.cons.inj single).1
    have stays : bracket ⟨c :: rest, sRet, isPlaceHolder, isType, true, sType, i, j⟩ =
        .onward ⟨c :: rest, sRet ++ [wchar '{'], false, isType, false, sType, i, j⟩ := by
      simp [bracket, closes]
    rw [stays, Block.andThen_onward]
    rcases @outside ⟨c :: rest, sRet ++ [wchar '{'], false, isType, false, sType, i, j⟩ rfl rfl with
      ⟨ended, -⟩ | ⟨-, t, last, advances⟩
    · cases ended
    · exact .inr ⟨inside, .inr ⟨moving, t, last, advances⟩⟩

theorem turn_unbracketed (unbracketed : s.isBracket = false) (indexed : s.Indexed)
    (more : s.sFormatString = c :: rest) :
    TurnCases vecArgs s ((typed vecArgs s).andThen (plain vecArgs)).over := by
  have overruns : s.Overruns vecArgs ↔ s.sFormatString = [wchar '}'] ∧ s.Drops vecArgs := by
    refine and_congr_right fun _ => or_iff_right fun bracketed => ?_
    exact Bool.false_ne_true (unbracketed.symm.trans bracketed)
  have stalls : s.isType = true → ¬ s.Stalls :=
    fun typed stalls => Bool.false_ne_true (stalls.2.2.1.symm.trans typed)
  have next {t : Scan} (moved : t.sFormatString = rest) (indexed : t.Indexed) :
      s.Advances t := by
    refine ⟨?_, indexed⟩
    rw [moved, more, List.tail_cons]
  have kinds := typed_cases vecArgs indexed more
  unfold TurnCases
  rw [overruns, more]
  generalize typed vecArgs s = block at kinds
  -- only a placeholder that is dropped may leave the terminator to the last block
  cases kinds with
  | passes untyped =>
    have kept : ¬ (c :: rest = [wchar '}'] ∧ s.Drops vecArgs) := by
      rintro ⟨single, inside, typed, -⟩
      have closes : c = wchar '}' := (List.cons.inj single).1
      rw [untyped inside typed] at closes
      exact absurd closes (by decide)
    refine .inr ⟨kept, ?_⟩
    rw [Block.andThen_onward]
    cases inside : s.isPlaceHolder with
    | true =>
      rcases plain_inside vecArgs inside unbracketed (untyped inside) indexed more with
        ⟨stalled, stays⟩ | ⟨moves, t, turned, moved, indexed⟩
      · exact .inl ⟨stalled, by rw [stays]; rfl⟩
      · exact .inr ⟨moves, t, by rw [turned]; rfl, next moved indexed⟩
    | false =>
      have moves : ¬ s.Stalls :=
        fun stalls => Bool.false_ne_true (inside.symm.trans stalls.2.1)
      rcases over_outside vecArgs inside indexed with
        ⟨ended, -⟩ | ⟨-, t, last, advances⟩
      · cases more.symm.trans ended
      · exact .inr ⟨moves, t, last, advances⟩
  | @consumes t kept typed moved indexed =>
    refine .inr ⟨?_, .inr ⟨stalls typed, t, rfl, next moved indexed⟩⟩
    exact fun ⟨single, dropped⟩ => kept (List.cons.inj single).1 dropped
  | @drops t closes dropped moved outside indexed =>
    rw [Block.andThen_onward]
    rcases over_outside vecArgs outside indexed with
      ⟨ended, last⟩ | ⟨going, u, last, suffix, indexed⟩
    · refine .inl ⟨⟨?_, dropped⟩, last⟩
      rw [closes, ← moved, ended]
    · refine .inr ⟨?_, .inr ⟨stalls dropped.2.1, u, last, ?_, indexed⟩⟩
      · rintro ⟨single, -⟩
        exact going (moved.trans (List.cons.inj single).2)
      · rw [more, List.tail_cons, ← moved]
        exact suffix.trans (List.tail_suffix _)

/-- A turn at a character ends past the terminator exactly if it overruns it; else it leaves all
as it is exactly if it stalls, and moves the pointer on if it does not. -/
theorem turn_cases (indexed : s.Indexed) (more : s.sFormatString = c :: rest)
    (visible : c ≠ wchar '\x00') : TurnCases vecArgs s (turn vecArgs s) := by
  have char : s.char = c := by
    unfold Scan.char
    rw [more, List.headD_cons]
  rw [turn, if_neg (char ▸ visible)]
  cases bracketed : s.isBracket with
  | true => exact turn_bracketed bracketed indexed more
  | false =>
    rw [bracket_of_not bracketed, Block.andThen_onward]
    exact turn_unbracketed bracketed indexed more

end Blocks

/-- The loop comes to a state in a call of `Format`. -/
def CFormat.Comes (f : CFormat) (sFormatString : CString) (args : List WString) (s : Scan) : Prop :=
  Reaches (turn (f.vecArgs ++ args)) { sFormatString := sFormatString.chars } s

/-- The loop of `format_trans` ends. -/
def CFormat.Ends (f : CFormat) (sFormatString : CString) (args : List WString) : Prop :=
  ∃ sRet, f.Formats sFormatString.chars args (.ret sRet)

/-- No turn copies the terminator or steps over it, or reads an argument that is not there. -/
def CFormat.StaysInside (f : CFormat) (sFormatString : CString) (args : List WString) : Prop :=
  ∀ s, f.Comes sFormatString args s → turn (f.vecArgs ++ args) s ≠ .inl .fault

section Runs

variable {f : CFormat} {sFormatString : CString} {args : List WString} {s t : Scan}

/-- What every turn keeps: the pointer is in the format string, and its index in range. -/
def Scan.Regular (sFormatString : CString) (s : Scan) : Prop :=
  s.sFormatString <:+ sFormatString.chars ∧ s.Indexed

theorem Scan.Regular.visible (regular : s.Regular sFormatString) {c : WChar} {rest : WString}
    (more : s.sFormatString = c :: rest) : c ≠ wchar '\x00' := by
  rintro rfl
  have member : wchar '\x00' ∈ s.sFormatString := more ▸ List.mem_cons_self
  exact sFormatString.noNul (regular.1.mem member)

/-- A turn from a regular state ends the loop, or is one of the three kinds. -/
theorem Scan.Regular.turn_cases (regular : s.Regular sFormatString) (vecArgs : List WString) :
    s.sFormatString = [] ∧ turn vecArgs s = .inl (.ret s.sRet) ∨
      s.sFormatString ≠ [] ∧ TurnCases vecArgs s (turn vecArgs s) := by
  cases more : s.sFormatString with
  | nil =>
    refine .inl ⟨rfl, if_pos ?_⟩
    unfold Scan.char
    rw [more, List.headD_nil]
  | cons c rest =>
    exact .inr ⟨List.cons_ne_nil _ _, Format.turn_cases regular.2 more (regular.visible more)⟩

theorem regular_of_comes (comes : f.Comes sFormatString args s) : s.Regular sFormatString := by
  have indexed : Scan.Indexed { sFormatString := sFormatString.chars } :=
    .inl ⟨Int.le_refl 0, show (0 : ℤ) < 2 ^ 15 by decide⟩
  refine comes.invariant ⟨List.suffix_refl _, indexed⟩ ?_
  intro t u regular turned
  -- a turn that leads anywhere stalls or moves on
  rcases regular.turn_cases (f.vecArgs ++ args) with
    ⟨-, ended⟩ | ⟨-, ⟨-, past⟩ | ⟨-, ⟨-, same⟩ | ⟨-, v, moved, advances⟩⟩⟩
  · cases ended.symm.trans turned
  · cases past.symm.trans turned
  · obtain rfl := Sum.inr.inj (same.symm.trans turned)
    exact regular
  · obtain rfl := Sum.inr.inj (moved.symm.trans turned)
    exact ⟨advances.1.trans ((List.tail_suffix _).trans regular.1), advances.2⟩

theorem turn_eq_fault_iff (comes : f.Comes sFormatString args s) :
    turn (f.vecArgs ++ args) s = .inl .fault ↔ s.Overruns (f.vecArgs ++ args) := by
  rcases (regular_of_comes comes).turn_cases (f.vecArgs ++ args) with
    ⟨ended, turned⟩ | ⟨-, ⟨past, turned⟩ | ⟨inside, ⟨-, turned⟩ | ⟨-, t, turned, -⟩⟩⟩
  · rw [turned]
    exact iff_of_false nofun fun past => nomatch ended.symm.trans past.1
  · exact iff_of_true turned past
  · exact iff_of_false (by rw [turned]; nofun) inside
  · exact iff_of_false (by rw [turned]; nofun) inside

theorem turn_of_stalls (comes : f.Comes sFormatString args s) (stalls : s.Stalls) :
    turn (f.vecArgs ++ args) s = .inr s := by
  obtain ⟨c, rest, more, -⟩ := stalls.2.2.2
  rcases (regular_of_comes comes).turn_cases (f.vecArgs ++ args) with
    ⟨ended, -⟩ | ⟨-, ⟨past, -⟩ | ⟨-, ⟨-, turned⟩ | ⟨moves, -⟩⟩⟩
  · cases more.symm.trans ended
  · exact absurd past stalls.not_overruns
  · exact turned
  · exact absurd stalls moves

/-- The loop stays inside of the format string and of the arguments exactly if it does not come
to a closing brace at the end that it goes on after. -/
theorem staysInside_iff : f.StaysInside sFormatString args ↔
    ∀ s, f.Comes sFormatString args s → ¬ s.Overruns (f.vecArgs ++ args) :=
  forall₂_congr fun _ comes => not_congr (turn_eq_fault_iff comes)

/-- A format string that does not end in a closing brace is safe. -/
theorem staysInside_of_getLast? (last : sFormatString.chars.getLast? ≠ some (wchar '}')) :
    f.StaysInside sFormatString args := by
  intro s comes fault
  have single := ((turn_eq_fault_iff comes).mp fault).1
  obtain ⟨front, whole⟩ := (regular_of_comes comes).1
  rw [single] at whole
  exact last (by rw [← whole, List.getLast?_concat])

/-- The loop returns as long as it does not come to a state in which it stalls. -/
theorem exists_returns (moves : ∀ s, f.Comes sFormatString args s → ¬ s.Stalls) :
    ∃ result, f.Formats sFormatString.chars args result := by
  refine exists_returns_of_measure (fun s => s.sFormatString.length) fun t u comes turned => ?_
  -- the pointer moves on at every turn
  rcases (regular_of_comes comes).turn_cases (f.vecArgs ++ args) with
    ⟨-, ended⟩ | ⟨going, ⟨-, past⟩ | ⟨-, ⟨stalls, -⟩ | ⟨-, v, moved, suffix, -⟩⟩⟩
  · cases ended.symm.trans turned
  · cases past.symm.trans turned
  · exact absurd stalls (moves t comes)
  · obtain rfl := Sum.inr.inj (moved.symm.trans turned)
    have shorter := suffix.length_le
    have nonempty := List.length_pos_iff.mpr going
    rw [List.length_tail] at shorter
    omega

/-- The loop ends exactly if it comes neither to a character that it does nothing with nor to a
closing brace at the end that it goes on after. -/
theorem ends_iff : f.Ends sFormatString args ↔
    ∀ s, f.Comes sFormatString args s → ¬ s.Stalls ∧ ¬ s.Overruns (f.vecArgs ++ args) := by
  constructor
  · rintro ⟨sRet, formats⟩ s comes
    have returns : Returns (turn (f.vecArgs ++ args)) s (.ret sRet) :=
      comes.leads.returns_iff.mp formats
    refine ⟨fun stalls => not_returns_of_turn_self (turn_of_stalls comes stalls) returns, ?_⟩
    intro overruns
    exact nomatch returns.unique (.of_turn ((turn_eq_fault_iff comes).mpr overruns))
  · intro regular
    obtain ⟨result, formats⟩ := exists_returns fun s comes => (regular s comes).1
    cases result with
    | ret sRet => exact ⟨sRet, formats⟩
    | fault =>
      obtain ⟨s, comes, fault⟩ := formats.exists_reaches
      exact absurd ((turn_eq_fault_iff comes).mp fault) (regular s comes).2

end Runs

/-- A letter in braces is read for ever. -/
theorem not_ends_of_letter : ¬ ∀ (f : CFormat) (sFormatString : CString) (args : List WString),
    f.Ends sFormatString args := by
  intro all
  -- `{x}`
  let sFormatString : CString := ⟨wide ['{', 'x', '}'], by decide⟩
  obtain ⟨sRet, formats⟩ := all {} sFormatString [[wchar '1']]
  let s : Scan := { sFormatString := wide ['x', '}'], isPlaceHolder := true }
  have turned : turn [[wchar '1']] { sFormatString := sFormatString.chars } = .inr s := rfl
  have same : turn [[wchar '1']] s = .inr s := rfl
  exact not_returns_of_turn_self same ((Leads.of_turn turned).returns_iff.mp formats)

/-- A placeholder with a type that lacks its argument is dropped together with the terminator. -/
theorem not_staysInside_of_dropped :
    ¬ ∀ (f : CFormat) (sFormatString : CString) (args : List WString),
      f.StaysInside sFormatString args := by
  intro all
  -- `{1:b}` with one argument
  let sFormatString : CString := ⟨wide ['{', '1', ':', 'b', '}'], by decide⟩
  have fault : ({} : CFormat).Formats sFormatString.chars [[wchar '1']] .fault := ⟨5, by decide⟩
  obtain ⟨s, comes, last⟩ := fault.exists_reaches
  exact all {} sFormatString [[wchar '1']] s comes last

end ExLibs.Format
