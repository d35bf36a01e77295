/-
# The language of format strings

A format string is made of literals and placeholders, and means the text in which each
placeholder is replaced by what it renders. The scanner gives that text unless it comes to one
of its slips: it keeps the type of a numbered truth value for the next placeholder, it passes
the terminator where it drops a placeholder with a type, and it counts in 16 bits.
-/
import ExLibs.String.Format

namespace ExLibs.Format

open ExLibs.Math

/-- A decimal numeral. -/
structure Numeral where
  digits : List (Fin 10)
  nonempty : digits ≠ []

namespace Numeral

/-- What a digit makes of a value. -/
def next (value : ℕ) (d : Fin 10) : ℕ := value * 10 + d

def value (n : Numeral) : ℕ := n.digits.foldl next 0

def text (n : Numeral) : WString := n.digits.map fun d : Fin 10 => wchar (Nat.digitChar d)

end Numeral

/-- The type of a placeholder for a truth value: `b` or `B`. -/
inductive BoolType
  | lower
  | upper

def BoolType.char : BoolType → WChar
  | .lower => wchar 'b'
  | .upper => wchar 'B'

/-- A piece of a format string. -/
inductive Piece
  | literal (c : WChar) (plain : c ≠ wchar '{' ∧ c ≠ wchar '\x00')
  | placeholder (number : Option Numeral) (type : Option BoolType)

namespace Piece

/-- What stands between the braces of a placeholder. -/
def body (number : Option Numeral) (type : Option BoolType) : WString :=
  number.elim [] Numeral.text ++ type.elim [] fun b => [wchar ':', b.char]

/-- How a piece is written. -/
def text : Piece → WString
  | .literal c _ => [c]
  | .placeholder number type => wchar '{' :: (body number type ++ [wchar '}'])

end Piece

/-- How a format string is written. -/
def text (pieces : List Piece) : WString := pieces.flatMap Piece.text

/-- What an argument is rendered as. -/
def render (type : Option BoolType) : Option WString → WString
  | none => []
  | some arg => if type.isSome then boolText (isTrue arg) else arg

/-- What a format string means, after as many sequential placeholders as given. -/
def meaning (args : List WString) : ℕ → List Piece → WString
  | _, [] => []
  | k, .literal c _ :: rest => c :: meaning args k rest
  | k, .placeholder none type :: rest => render type args[k]? ++ meaning args (k + 1) rest
  | k, .placeholder (some n) type :: rest => render type args[n.value]? ++ meaning args k rest

/-- The scanner comes to none of its slips, after as many sequential placeholders as given, and
where the type of a placeholder is `left` or not: the placeholder after a numbered truth value
that has its argument lacks its own, a placeholder that lacks its argument is not the end if it
has a type, numbers are below `2 ^ 15`, and so are those of sequential arguments. -/
def Sound (size : ℕ) : Bool → ℕ → List Piece → Prop
  | _, _, [] => True
  | left, k, .literal .. :: rest => Sound size left k rest
  | left, k, .placeholder none type :: rest =>
    (left = true → size ≤ k) ∧ (k < size → k < 2 ^ 15) ∧
      (size ≤ k → left = true ∨ type.isSome = true → rest ≠ []) ∧ Sound size false (k + 1) rest
  | left, k, .placeholder (some n) type :: rest =>
    (left = true → size ≤ n.value) ∧ n.value < 2 ^ 15 ∧
      (size ≤ n.value → left = true ∨ type.isSome = true → rest ≠ []) ∧
      Sound size (type.isSome && n.value < size) k rest

section Turns

variable {vecArgs : List WString} {rest out : WString} {left : Bool} {i j : ℤ} {c : WChar}

/-- The scanner between two pieces. -/
def between (rest out : WString) (left : Bool) (j : ℤ) : Scan :=
  { sFormatString := rest, sRet := out, isType := left, nArgsIdx := j }

/-- The scanner in a placeholder. -/
def inside (rest out : WString) (i j : ℤ) : Scan :=
  { sFormatString := rest, sRet := out, isPlaceHolder := true, nIndex := i, nArgsIdx := j }

/-- The scanner in the type of a placeholder. -/
def insideType (rest out sType : WString) (i j : ℤ) : Scan :=
  { sFormatString := rest, sRet := out, isPlaceHolder := true, isType := true, sType,
    nIndex := i, nArgsIdx := j }

theorem turn_literal (plain : c ≠ wchar '{' ∧ c ≠ wchar '\x00') :
    turn vecArgs (between (c :: rest) out left j) =
      .inr (between rest (out ++ [c]) left j) := by
  simp [turn, bracket, typed, Format.plain, between, plain]

theorem turn_open :
    turn vecArgs (between (wchar '{' :: rest) out false j) = .inr (inside rest out (-1) j) := by
  simp [turn, bracket, typed, plain, between, inside]

/-- What a digit makes of the number. -/
def nextIndex (i : ℤ) (d : Fin 10) : ℤ := if i = -1 then d else short (i * 10 + d)

theorem wchar_digitChar (d : Fin 10) :
    (wchar '0' ≤ wchar (Nat.digitChar d) ∧ wchar (Nat.digitChar d) ≤ wchar '9') ∧
      (wchar (Nat.digitChar d)).toNat = 48 + d := by
  revert d
  decide

theorem wchar_digitChar_ne (d : Fin 10) :
    wchar (Nat.digitChar d) ∉ wide ['\x00', '{', '}', ':', 'b', 'B'] := by
  revert d
  decide

theorem turn_digit (d : Fin 10) :
    turn vecArgs (inside (wchar (Nat.digitChar d) :: rest) out i j) =
      .inr (inside rest out (nextIndex i d) j) := by
  obtain ⟨range, value⟩ := wchar_digitChar d
  have others := wchar_digitChar_ne d
  have cancel : (48 : ℤ) + d - 48 = d := by omega
  simp only [wide_cons, wide_nil, List.mem_cons, not_or] at others
  simp [turn, bracket, typed, plain, inside, nextIndex, range, value, cancel, others]

theorem turn_colon :
    turn vecArgs (inside (wchar ':' :: rest) out i j) = .inr (insideType rest out [] i j) := by
  simp [turn, bracket, typed, plain, inside, insideType]

/-- The type that is left is that of the next placeholder. -/
theorem turn_open_left :
    turn vecArgs (between (wchar '{' :: rest) out true j) =
      .inr (insideType rest out [] (-1) j) := by
  simp [turn, bracket, typed, plain, between, insideType]

/-- The characters of a type. -/
def InType (c : WChar) : Prop := c ≠ wchar '{' ∧ c ≠ wchar '}' ∧ c ≠ wchar '\x00'

theorem turn_type {sType : WString} (inType : InType c) :
    turn vecArgs (insideType (c :: rest) out sType i j) =
      .inr (insideType rest out (sType ++ [c]) i j) := by
  obtain ⟨opens, closes, ends⟩ := inType
  simp [turn, bracket, typed, insideType, opens, closes, ends]

theorem hasArg_of_found {n : ℕ} {arg : WString} (found : vecArgs[n]? = some arg) :
    hasArg vecArgs n = true := by
  have bound := (List.getElem?_eq_some_iff.mp found).1
  exact decide_eq_true (by omega)

theorem withArg_of_found {n : ℕ} {arg : WString} (found : vecArgs[n]? = some arg)
    (onward : WString → Block) : withArg vecArgs n onward = onward arg := by
  change withArg vecArgs (.ofNat n) onward = _
  simp only [withArg, found]

/-- A sequential placeholder ends. -/
theorem turn_close {n : ℕ} {arg : WString} (found : vecArgs[n]? = some arg) :
    turn vecArgs (inside (wchar '}' :: rest) out (-1) n) =
      .inr (between rest (out ++ arg) false (short (n + 1))) := by
  simp [turn, bracket, typed, plain, inside, between,
    hasArg_of_found found, withArg_of_found found]

theorem turn_close_missing (missing : hasArg vecArgs j = false) :
    turn vecArgs (inside (wchar '}' :: rest) out (-1) j) = .inr (between rest out false j) := by
  simp [turn, bracket, typed, plain, inside, between, missing]

/-- A numbered placeholder ends. -/
theorem turn_close_number {n : ℕ} {arg : WString} (found : vecArgs[n]? = some arg) :
    turn vecArgs (inside (wchar '}' :: rest) out n j) =
      .inr (between rest (out ++ arg) false j) := by
  have number : (n : ℤ) ≠ -1 := by omega
  have positive : -1 < (n : ℤ) := by omega
  simp [turn, bracket, typed, plain, inside, between,
    hasArg_of_found found, withArg_of_found found, number, positive]

theorem turn_close_number_missing {n : ℕ} (missing : hasArg vecArgs n = false) :
    turn vecArgs (inside (wchar '}' :: rest) out n j) = .inr (between rest out false j) := by
  have number : (n : ℤ) ≠ -1 := by omega
  have positive : -1 < (n : ℤ) := by omega
  simp [turn, bracket, typed, plain, inside, between, missing, number, positive]

section Types

variable (b : BoolType)

theorem char_eq : b.char = wchar 'b' ∨ b.char = wchar 'B' := by
  cases b with
  | lower => exact .inl rfl
  | upper => exact .inr rfl

/-- A sequential truth value ends. -/
theorem turn_close_type {n : ℕ} {arg : WString} (found : vecArgs[n]? = some arg) :
    turn vecArgs (insideType (wchar '}' :: rest) out [b.char] (-1) n) =
      .inr (between rest (out ++ boolText (isTrue arg)) false (short (n + 1))) := by
  simp [turn, bracket, typed, insideType, between, char_eq b,
    hasArg_of_found found, withArg_of_found found]

/-- A numbered truth value ends, and its type is left. -/
theorem turn_close_type_number {n : ℕ} {arg : WString} (found : vecArgs[n]? = some arg) :
    turn vecArgs (insideType (wchar '}' :: rest) out [b.char] n j) =
      .inr (between rest (out ++ boolText (isTrue arg)) true j) := by
  have number : (n : ℤ) ≠ -1 := by omega
  simp [turn, bracket, typed, insideType, between, char_eq b,
    hasArg_of_found found, withArg_of_found found, number]

end Types

/-- A truth value that lacks its argument is dropped, and the turn goes on. -/
theorem typed_close_missing (b : BoolType)
    (missing : hasArg vecArgs (if i = -1 then j else i) = false) :
    typed vecArgs (insideType (wchar '}' :: rest) out [b.char] i j) =
      .onward (between rest out false j) := by
  -- the branches for sequential and for numbered arguments drop it alike
  by_cases sequential : i = -1
  · rw [if_pos sequential] at missing
    simp [typed, insideType, between, char_eq b, sequential, missing]
  · rw [if_neg sequential] at missing
    simp [typed, insideType, between, char_eq b, sequential, missing]

/-- A placeholder whose type is unknown is dropped, and the turn goes on. -/
theorem typed_close_unknown {sType : WString}
    (unknown : sType ≠ [wchar 'b'] ∧ sType ≠ [wchar 'B']) :
    typed vecArgs (insideType (wchar '}' :: rest) out sType i j) =
      .onward (between rest out false j) := by
  simp [typed, insideType, between, unknown]

section Dropped

variable {sType : WString}

/-- The turn of a placeholder that is dropped is also that of the character after it. -/
theorem turn_of_closed (closed : typed vecArgs (insideType (wchar '}' :: rest) out sType i j) =
      .onward (between rest out false j)) :
    turn vecArgs (insideType (wchar '}' :: rest) out sType i j) =
      (plain vecArgs (between rest out false j)).over := by
  have ends : (insideType (wchar '}' :: rest) out sType i j).char ≠ wchar '\x00' := by
    change wchar '}' ≠ wchar '\x00'
    decide
  rw [turn, if_neg ends, bracket_of_not rfl, Block.andThen_onward, closed, Block.andThen_onward]

theorem turn_between (more : c ≠ wchar '\x00') :
    turn vecArgs (between (c :: rest) out false j) =
      (plain vecArgs (between (c :: rest) out false j)).over := by
  have passed : typed vecArgs (between (c :: rest) out false j) =
      .onward (between (c :: rest) out false j) := rfl
  have follows : (between (c :: rest) out false j).char ≠ wchar '\x00' := more
  rw [turn, if_neg follows, bracket_of_not rfl, Block.andThen_onward, passed,
    Block.andThen_onward]

/-- At the end of the format string the pointer passes the terminator. -/
theorem turn_of_closed_end (closed : typed vecArgs (insideType [wchar '}'] out sType i j) =
      .onward (between [] out false j)) :
    turn vecArgs (insideType [wchar '}'] out sType i j) = .inl .fault :=
  turn_of_closed closed

end Dropped

end Turns

section Numbers

variable {v : ℕ} {ds : List (Fin 10)}

theorem short_eq {x : ℕ} (small : x < 2 ^ 15) : short x = x :=
  Int.bmod_eq_of_le (by omega) (by omega)

/-- Reading on never makes a number smaller. -/
theorem le_foldl_next (v : ℕ) (ds : List (Fin 10)) : v ≤ ds.foldl Numeral.next v := by
  induction ds generalizing v with
  | nil => exact Nat.le_refl v
  | cons d ds ih =>
    have grows : v ≤ Numeral.next v d := by
      unfold Numeral.next
      omega
    exact Nat.le_trans grows (ih (Numeral.next v d))

/-- A number that fits is read as it is. -/
theorem foldl_nextIndex (small : ds.foldl Numeral.next v < 2 ^ 15) :
    ds.foldl nextIndex (v : ℤ) = (ds.foldl Numeral.next v : ℕ) := by
  induction ds generalizing v with
  | nil => rfl
  | cons d ds ih =>
    -- the whole number is not smaller than any beginning of it
    have fits : v * 10 + (d : ℕ) < 2 ^ 15 := Nat.lt_of_le_of_lt (le_foldl_next _ ds) small
    have next : nextIndex v d = (Numeral.next v d : ℕ) := by
      rw [nextIndex, if_neg (by omega)]
      exact short_eq fits
    rw [List.foldl_cons, List.foldl_cons, next]
    exact ih small

theorem foldl_nextIndex_numeral {n : Numeral} (small : n.value < 2 ^ 15) :
    n.digits.foldl nextIndex (-1) = n.value := by
  obtain ⟨digits, nonempty⟩ := n
  cases digits with
  | nil => exact absurd rfl nonempty
  | cons d ds =>
    have first : nextIndex (-1) d = (Numeral.next 0 d : ℕ) := by
      rw [nextIndex, if_pos rfl, Numeral.next]
      omega
    rw [List.foldl_cons, first]
    exact foldl_nextIndex small

end Numbers

section Counts

variable {args : List WString} {size k : ℕ} {i j : ℤ}

theorem hasArg_eq_false_iff : hasArg args i = false ↔ i + 1 < 0 ∨ args.length < i + 1 := by
  rw [hasArg, decide_eq_false_iff_not]
  omega

/-- The number of sequential arguments is counted as far as it matters. -/
def Counts (size k : ℕ) (j : ℤ) : Prop :=
  (k < size → k < 2 ^ 15 → j = k) ∧ (size ≤ k → j + 1 < 0 ∨ size < j + 1)

/-- A sequential placeholder that has its argument is counted. -/
theorem Counts.next (counts : Counts size k j) (present : k < size) (small : k < 2 ^ 15) :
    Counts size (k + 1) (short (j + 1)) := by
  obtain rfl := counts.1 present small
  refine ⟨fun _ small' => short_eq small', fun last => ?_⟩
  -- a count that wraps around is negative, and no argument is found there either
  by_cases wraps : k + 1 < 2 ^ 15
  · refine .inr ?_
    have same : short ((k : ℤ) + 1) = ((k + 1 : ℕ) : ℤ) := short_eq wraps
    rw [same]
    omega
  · refine .inl ?_
    obtain rfl : k = 2 ^ 15 - 1 := by omega
    decide

theorem Counts.missing (counts : Counts size k j) (missing : size ≤ k) :
    Counts size (k + 1) j :=
  ⟨fun present => by omega, fun _ => counts.2 missing⟩

theorem Counts.not_hasArg (counts : Counts args.length k j) {number : Option Numeral}
    (last : args.length ≤ number.elim k Numeral.value) :
    hasArg args (number.elim j fun n => n.value) = false := by
  cases number with
  | none => exact hasArg_eq_false_iff.mpr (counts.2 last)
  | some n =>
    have beyond : args.length ≤ n.value := last
    refine hasArg_eq_false_iff.mpr (.inr ?_)
    change (args.length : ℤ) < (n.value : ℤ) + 1
    omega

end Counts

section Bodies

variable (number : Option Numeral) (type : Option BoolType)

theorem inType_digitChar (d : Fin 10) : InType (wchar (Nat.digitChar d)) := by
  have others := wchar_digitChar_ne d
  simp only [wide_cons, wide_nil, List.mem_cons, not_or] at others
  exact ⟨others.2.1, others.2.2.1, others.1⟩

theorem inType_char (b : BoolType) : InType b.char := by
  unfold InType
  cases b with
  | lower => decide
  | upper => decide

theorem inType_of_mem_body {c : WChar} (mem : c ∈ Piece.body number type) : InType c := by
  rcases List.mem_append.mp mem with digit | char
  · cases number with
    | none => cases digit
    | some n =>
      obtain ⟨d, -, rfl⟩ := List.mem_map.mp digit
      exact inType_digitChar d
  · cases type with
    | none => cases char
    | some b =>
      rcases List.mem_cons.mp char with rfl | char
      · unfold InType
        decide
      · rw [List.mem_singleton.mp char]
        exact inType_char b

/-- What stands between the braces is the name of no type. -/
theorem body_ne_type :
    Piece.body number type ≠ [wchar 'b'] ∧ Piece.body number type ≠ [wchar 'B'] := by
  cases number with
  | none =>
    cases type with
    | none => exact ⟨nofun, nofun⟩
    | some b => exact ⟨nofun, nofun⟩
  | some n =>
    -- the first character is a digit
    obtain ⟨digits, nonempty⟩ := n
    cases digits with
    | nil => exact absurd rfl nonempty
    | cons d ds =>
      have others := wchar_digitChar_ne d
      simp only [wide_cons, wide_nil, List.mem_cons, not_or] at others
      obtain ⟨-, -, -, -, lower, upper, -⟩ := others
      exact ⟨fun same => lower (List.cons.inj same).1, fun same => upper (List.cons.inj same).1⟩

/-- A format string that goes on does so with a character. -/
theorem exists_text_eq_cons (piece : Piece) (rest : List Piece) :
    ∃ (c : WChar) (tail : WString), text (piece :: rest) = c :: tail ∧ c ≠ wchar '\x00' := by
  cases piece with
  | literal c plain => exact ⟨c, text rest, rfl, plain.2⟩
  | placeholder number type =>
    refine ⟨wchar '{', Piece.body number type ++ [wchar '}'] ++ text rest, rfl, ?_⟩
    decide

end Bodies

section Pieces

variable {args : List WString} {out : WString} {rest : List Piece} {number : Option Numeral}
  {type : Option BoolType} {size k : ℕ} {i j : ℤ}

theorem leads_type (cs rest sType : WString) (inType : ∀ c ∈ cs, InType c) :
    Leads (turn args) (insideType (cs ++ rest) out sType i j)
      (insideType rest out (sType ++ cs) i j) := by
  induction cs generalizing sType with
  | nil =>
    rw [List.append_nil]
    exact .refl _
  | cons c cs ih =>
    have first : Leads (turn args) (insideType (c :: (cs ++ rest)) out sType i j)
        (insideType (cs ++ rest) out (sType ++ [c]) i j) :=
      .of_turn (turn_type (inType c List.mem_cons_self))
    have others := ih (sType ++ [c]) fun c mem => inType c (List.mem_cons_of_mem _ mem)
    rw [List.append_assoc] at others
    exact first.trans others

theorem leads_digits (ds : List (Fin 10)) (rest : WString) (i : ℤ) :
    Leads (turn args) (inside (ds.map (fun d : Fin 10 => wchar (Nat.digitChar d)) ++ rest) out i j)
      (inside rest out (ds.foldl nextIndex i) j) := by
  induction ds generalizing i with
  | nil => exact .refl _
  | cons d ds ih => exact (Leads.of_turn (turn_digit d)).trans (ih _)

/-- The index of a placeholder with a number is the number. -/
theorem leads_number (rest : WString) (small : ∀ n ∈ number, n.value < 2 ^ 15) :
    Leads (turn args) (inside (number.elim [] Numeral.text ++ rest) out (-1) j)
      (inside rest out (number.elim (-1) fun n => n.value) j) := by
  cases number with
  | none => exact .refl _
  | some n =>
    have read : Leads (turn args) (inside (n.text ++ rest) out (-1) j)
        (inside rest out (n.digits.foldl nextIndex (-1)) j) := leads_digits n.digits rest (-1)
    rw [foldl_nextIndex_numeral (small n rfl)] at read
    exact read

/-- The scanner at the end of a placeholder. -/
def closing (type : Option BoolType) (rest out : WString) (i j : ℤ) : Scan :=
  match type with
  | none => inside (wchar '}' :: rest) out i j
  | some b => insideType (wchar '}' :: rest) out [b.char] i j

/-- A placeholder is read to its end. -/
theorem leads_closing (small : ∀ n ∈ number, n.value < 2 ^ 15) :
    Leads (turn args) (between (text (.placeholder number type :: rest)) out false j)
      (closing type (text rest) out (number.elim (-1) fun n => n.value) j) := by
  have opens (tail : WString) : Leads (turn args)
      (between (wchar '{' :: (number.elim [] Numeral.text ++ tail)) out false j)
      (inside tail out (number.elim (-1) fun n => n.value) j) :=
    (Leads.of_turn turn_open).trans (leads_number tail small)
  cases type with
  | none =>
    have written : text (.placeholder number none :: rest) =
        wchar '{' :: (number.elim [] Numeral.text ++ wchar '}' :: text rest) := by
      simp [text, Piece.text, Piece.body]
    rw [written]
    exact opens _
  | some b =>
    have written : text (.placeholder number (some b) :: rest) =
        wchar '{' ::
          (number.elim [] Numeral.text ++ wchar ':' :: b.char :: wchar '}' :: text rest) := by
      simp [text, Piece.text, Piece.body]
    rw [written]
    exact (opens _).trans ((Leads.of_turn turn_colon).trans (.of_turn (turn_type (inType_char b))))

/-- A sequential placeholder takes its argument. -/
theorem leads_sequential {arg : WString} (found : args[k]? = some arg) :
    Leads (turn args) (closing type (text rest) out (-1) k)
      (between (text rest) (out ++ render type (some arg)) false (short (k + 1))) := by
  cases type with
  | none => exact .of_turn (turn_close found)
  | some b => exact .of_turn (turn_close_type b found)

/-- A numbered placeholder takes its argument. -/
theorem leads_numbered {n : ℕ} {arg : WString} (found : args[n]? = some arg) :
    Leads (turn args) (closing type (text rest) out n j)
      (between (text rest) (out ++ render type (some arg)) type.isSome j) := by
  cases type with
  | none => exact .of_turn (turn_close_number found)
  | some b => exact .of_turn (turn_close_type_number b found)

/-- A placeholder without a type that lacks its argument renders nothing. -/
theorem leads_missing (missing : hasArg args (number.elim j fun n => n.value) = false) :
    Leads (turn args) (closing none (text rest) out (number.elim (-1) fun n => n.value) j)
      (between (text rest) out false j) := by
  cases number with
  | none => exact .of_turn (turn_close_missing missing)
  | some n => exact .of_turn (turn_close_number_missing missing)

end Pieces

section Slips

variable (size : ℕ) (left : Bool) (k : ℕ)

namespace Piece

/-- Whether a type is left after a piece. -/
def leaves : Piece → Bool
  | .literal .. => left
  | .placeholder none _ => false
  | .placeholder (some n) type => !left && (type.isSome && decide (n.value < size))

/-- How many sequential placeholders have been looked at after a piece. -/
def count : Piece → ℕ
  | .placeholder none _ => if left then k else k + 1
  | _ => k

/-- Whether the turn goes on where a piece ends, which drops it. -/
def drops : Piece → Bool
  | .literal .. => false
  | .placeholder number type =>
    left || (type.isSome && decide (size ≤ number.elim k Numeral.value))

/-- What is read of a piece, which is nothing of a placeholder where a type is left. -/
def kept : Piece → List Piece
  | .literal c plain => [.literal c plain]
  | .placeholder number type => if left then [] else [.placeholder number type]

/-- What is put out of a piece. -/
def shown (args : List WString) : Piece → WString
  | .literal c _ => [c]
  | .placeholder number type =>
    if left then [] else render type args[number.elim k Numeral.value]?

/-- A number that is read, and that of an argument that is there, fits in 16 bits. -/
def Fits : Piece → Prop
  | .literal .. => True
  | .placeholder none _ => left = false → k < size → k < 2 ^ 15
  | .placeholder (some n) _ => left = false → n.value < 2 ^ 15

end Piece

/-- The pieces that are read. -/
def survivors : Bool → List Piece → List Piece
  | _, [] => []
  | left, piece :: rest => piece.kept left ++ survivors (piece.leaves size left) rest

/-- All numbers fit. -/
def Fits : Bool → ℕ → List Piece → Prop
  | _, _, [] => True
  | left, k, piece :: rest =>
    piece.Fits size left k ∧ Fits (piece.leaves size left) (piece.count left k) rest

/-- The turn does not go on at the end of the format string. -/
def Ends : Bool → ℕ → List Piece → Prop
  | _, _, [] => True
  | left, k, piece :: rest =>
    (piece.drops size left k = true → rest ≠ []) ∧
      Ends (piece.leaves size left) (piece.count left k) rest

end Slips

section Dropping

variable {args : List WString} {piece : Piece} {size k : ℕ} {left : Bool} {j : ℤ}

theorem meaning_kept_append (others : List Piece) :
    meaning args k (piece.kept left ++ others) =
      piece.shown left k args ++ meaning args (piece.count left k) others := by
  cases piece with
  | literal c plain => rfl
  | placeholder number type =>
    cases left with
    | true => cases number <;> rfl
    | false => cases number <;> rfl

/-- No type is left after a piece that is dropped. -/
theorem leaves_of_drops (drops : piece.drops size left k = true) :
    piece.leaves size left = false := by
  cases piece with
  | literal c plain => cases drops
  | placeholder number type =>
    cases number with
    | none => rfl
    | some n =>
      cases left with
      | true => rfl
      | false =>
        obtain ⟨-, last⟩ := Bool.and_eq_true_iff.mp drops
        have missing : ¬ n.value < size := Nat.not_lt.mpr (of_decide_eq_true last)
        rw [Piece.leaves, decide_eq_false missing, Bool.and_false, Bool.and_false]

/-- Nothing is put out of it. -/
theorem shown_of_drops (drops : piece.drops args.length left k = true) :
    piece.shown left k args = [] := by
  cases piece with
  | literal c plain => cases drops
  | placeholder number type =>
    cases left with
    | true => rfl
    | false =>
      obtain ⟨-, last⟩ := Bool.and_eq_true_iff.mp drops
      have lacking := List.getElem?_eq_none (of_decide_eq_true last)
      change render type args[number.elim k Numeral.value]? = []
      rw [lacking, render]

theorem Counts.of_drops (counts : Counts size k j) (drops : piece.drops size left k = true) :
    Counts size (piece.count left k) j := by
  cases piece with
  | literal c plain => exact counts
  | placeholder number type =>
    cases number with
    | some n => exact counts
    | none =>
      cases left with
      | true => exact counts
      | false =>
        obtain ⟨-, last⟩ := Bool.and_eq_true_iff.mp drops
        exact counts.missing (of_decide_eq_true last)

end Dropping

section Reading

variable {args : List WString} {out : WString} {piece : Piece} {pieces rest : List Piece}
  {left : Bool} {k : ℕ} {j : ℤ}

/-- A piece that is dropped is read to its end, and the turn goes on after it. -/
theorem leads_to_drop (rest : List Piece) (out : WString) (counts : Counts args.length k j)
    (fits : piece.Fits args.length left k) (drops : piece.drops args.length left k = true) :
    ∃ (sType : WString) (i : ℤ), Leads (turn args) (between (text (piece :: rest)) out left j)
        (insideType (wchar '}' :: text rest) out sType i j) ∧
      typed args (insideType (wchar '}' :: text rest) out sType i j) =
        .onward (between (text rest) out false j) := by
  cases piece with
  | literal c plain => cases drops
  | placeholder number type =>
    cases left with
    | true =>
      refine ⟨Piece.body number type, -1, ?_, typed_close_unknown (body_ne_type number type)⟩
      have body : Leads (turn args)
          (insideType (Piece.body number type ++ wchar '}' :: text rest) out [] (-1) j)
          (insideType (wchar '}' :: text rest) out (Piece.body number type) (-1) j) :=
        leads_type (Piece.body number type) _ [] fun _ => inType_of_mem_body number type
      have written : text (.placeholder number type :: rest) =
          wchar '{' :: (Piece.body number type ++ wchar '}' :: text rest) := by
        simp [text, Piece.text]
      rw [written]
      exact (Leads.of_turn turn_open_left).trans body
    | false =>
      obtain ⟨typed, last⟩ := Bool.and_eq_true_iff.mp drops
      obtain ⟨b, rfl⟩ := Option.isSome_iff_exists.mp typed
      have small : ∀ n ∈ number, n.value < 2 ^ 15 := by
        rintro n ⟨⟩
        exact fits rfl
      refine ⟨[b.char], number.elim (-1) fun n => n.value, leads_closing small, ?_⟩
      have missing := counts.not_hasArg (of_decide_eq_true last)
      refine typed_close_missing b ?_
      cases number with
      | none => exact missing
      | some n => rwa [if_neg (by simp only [Option.elim_some]; omega)]

/-- Unless it is the last one, the scanner goes on after a piece that is dropped. -/
theorem leads_of_drops (counts : Counts args.length k j) (fits : piece.Fits args.length left k)
    (drops : piece.drops args.length left k = true) (more : rest ≠ []) :
    Leads (turn args) (between (text (piece :: rest)) out left j)
      (between (text rest) out false j) := by
  obtain ⟨sType, i, toEnd, closed⟩ := leads_to_drop rest out counts fits drops
  refine toEnd.trans ?_
  cases rest with
  | nil => exact absurd rfl more
  | cons next rest =>
    obtain ⟨c, tail, eq, ne⟩ := exists_text_eq_cons next rest
    rw [eq] at closed ⊢
    exact .of_same ((turn_of_closed closed).trans (turn_between ne).symm)

/-- At the end of the format string it breaks down. -/
theorem fault_of_drops (counts : Counts args.length k j) (fits : piece.Fits args.length left k)
    (drops : piece.drops args.length left k = true) :
    Returns (turn args) (between (text [piece]) out left j) .fault := by
  obtain ⟨sType, i, toEnd, closed⟩ := leads_to_drop [] out counts fits drops
  exact toEnd.returns (.of_turn (turn_of_closed_end closed))

/-- The scanner goes on to the rest of the pieces. -/
def StepsOver (args : List WString) (piece : Piece) (rest : List Piece) (out : WString)
    (left : Bool) (k : ℕ) (j : ℤ) : Prop :=
  ∃ j₁ : ℤ, Counts args.length (piece.count left k) j₁ ∧
    Leads (turn args) (between (text (piece :: rest)) out left j)
      (between (text rest) (out ++ piece.shown left k args) (piece.leaves args.length left) j₁)

theorem stepsOver_placeholder {number : Option Numeral} {type : Option BoolType}
    (counts : Counts args.length k j)
    (fits : (Piece.placeholder number type).Fits args.length false k)
    (keeps : (Piece.placeholder number type).drops args.length false k = false) :
    StepsOver args (.placeholder number type) rest out false k j := by
  have small : ∀ n ∈ number, n.value < 2 ^ 15 := by
    rintro n ⟨⟩
    exact fits rfl
  have toEnd : Leads (turn args) (between (text (.placeholder number type :: rest)) out false j)
      (closing type (text rest) out (number.elim (-1) fun n => n.value) j) := leads_closing small
  by_cases present : number.elim k Numeral.value < args.length
  · have found : args[number.elim k Numeral.value]? = some args[number.elim k Numeral.value] :=
      List.getElem?_eq_getElem present
    unfold StepsOver
    rw [Piece.shown, if_neg Bool.false_ne_true, found]
    cases number with
    | none =>
      have counted : j = k := counts.1 present (fits rfl present)
      subst counted
      exact ⟨short (k + 1), counts.next present (fits rfl present),
        toEnd.trans (leads_sequential found)⟩
    | some n =>
      have bound : n.value < args.length := present
      have leaves : (Piece.placeholder (some n) type).leaves args.length false = type.isSome := by
        rw [Piece.leaves, decide_eq_true bound, Bool.and_true, Bool.not_false, Bool.true_and]
      rw [leaves]
      exact ⟨j, counts, toEnd.trans (leads_numbered found)⟩
  · -- without a type, as it is not dropped
    have last : args.length ≤ number.elim k Numeral.value := Nat.not_lt.mp present
    have lacking : args[number.elim k Numeral.value]? = none := List.getElem?_eq_none last
    cases type with
    | some b => exact absurd (decide_eq_true last) (Bool.eq_false_iff.mp keeps)
    | none =>
      have missing : Leads (turn args)
          (closing none (text rest) out (number.elim (-1) fun n => n.value) j)
          (between (text rest) out false j) := leads_missing (counts.not_hasArg last)
      unfold StepsOver
      rw [Piece.shown, if_neg Bool.false_ne_true, lacking, render, List.append_nil]
      cases number with
      | none => exact ⟨j, counts.missing last, toEnd.trans missing⟩
      | some n => exact ⟨j, counts, toEnd.trans missing⟩

theorem stepsOver (out : WString) (counts : Counts args.length k j)
    (fits : piece.Fits args.length left k)
    (more : piece.drops args.length left k = true → rest ≠ []) :
    StepsOver args piece rest out left k j := by
  cases drops : piece.drops args.length left k with
  | true =>
    refine ⟨j, counts.of_drops drops, ?_⟩
    rw [shown_of_drops drops, leaves_of_drops drops, List.append_nil]
    exact leads_of_drops counts fits drops (more drops)
  | false =>
    cases piece with
    | literal c plain => exact ⟨j, counts, .of_turn (turn_literal plain)⟩
    | placeholder number type =>
      cases left with
      | true => cases drops
      | false => exact stepsOver_placeholder counts fits drops

/-- The scanner puts out what the pieces that are read mean. -/
theorem leads_survivors (out : WString) (counts : Counts args.length k j)
    (fits : Fits args.length left k pieces) (ends : Ends args.length left k pieces) :
    ∃ (left' : Bool) (j' : ℤ), Leads (turn args) (between (text pieces) out left j)
      (between [] (out ++ meaning args k (survivors args.length left pieces)) left' j') := by
  induction pieces generalizing left k j out with
  | nil =>
    rw [survivors, meaning, List.append_nil]
    exact ⟨left, j, .refl _⟩
  | cons piece rest ih =>
    -- one piece, and the rest by induction, with what has been put out so far
    obtain ⟨j₁, counts₁, first⟩ := stepsOver out counts fits.1 ends.1
    obtain ⟨left', j', others⟩ := ih (out ++ piece.shown left k args) counts₁ fits.2 ends.2
    rw [survivors, meaning_kept_append, ← List.append_assoc]
    exact ⟨left', j', first.trans others⟩

/-- It breaks down where the turn goes on at the end. -/
theorem fault_of_not_ends (counts : Counts args.length k j)
    (fits : Fits args.length left k pieces) (slips : ¬ Ends args.length left k pieces) :
    Returns (turn args) (between (text pieces) out left j) .fault := by
  induction pieces generalizing left k j out with
  | nil => exact absurd trivial slips
  | cons piece rest ih =>
    by_cases last : piece.drops args.length left k = true ∧ rest = []
    · obtain ⟨drops, rfl⟩ := last
      exact fault_of_drops counts fits.1 drops
    · have more : piece.drops args.length left k = true → rest ≠ [] :=
        fun drops nil => last ⟨drops, nil⟩
      obtain ⟨j₁, counts₁, first⟩ := stepsOver out counts fits.1 more
      exact first.returns (ih counts₁ fits.2 fun ends => slips ⟨more, ends⟩)

theorem counts_zero : Counts args.length 0 0 := by
  refine ⟨fun _ _ => rfl, fun last => .inr ?_⟩
  omega

/-- What a format string whose numbers fit comes to. -/
theorem formats_survivors (fits : Fits args.length false 0 pieces)
    (ends : Ends args.length false 0 pieces) :
    ({} : CFormat).Formats (text pieces) args
      (.ret (meaning args 0 (survivors args.length false pieces))) := by
  obtain ⟨left', j', leads⟩ := leads_survivors [] counts_zero fits ends
  exact leads.returns (.of_turn rfl)

/-- A format string whose numbers fit comes to what it means if and only if the turn does not go
on at its end, and it means the same without the pieces that are not read. -/
theorem formats_meaning_iff (fits : Fits args.length false 0 pieces) :
    ({} : CFormat).Formats (text pieces) args (.ret (meaning args 0 pieces)) ↔
      Ends args.length false 0 pieces ∧
        meaning args 0 (survivors args.length false pieces) = meaning args 0 pieces := by
  constructor
  · intro formats
    have ends : Ends args.length false 0 pieces := by
      by_contra slips
      have fault : Returns (turn args) (between (text pieces) [] false 0) .fault :=
        fault_of_not_ends counts_zero fits slips
      exact nomatch fault.unique formats
    have same := (formats_survivors fits ends).unique formats
    exact ⟨ends, Result.ret.inj same⟩
  · rintro ⟨ends, same⟩
    rw [← same]
    exact formats_survivors fits ends

end Reading

section Sound

variable {args : List WString} {piece : Piece} {pieces rest : List Piece} {left : Bool}
  {type : Option BoolType} {size k k' : ℕ}

/-- Two numbers of sequential placeholders after which the same arguments are there. -/
def Agree (size k k' : ℕ) : Prop := k' = k ∨ size ≤ k' ∧ size ≤ k

namespace Agree

theorem le_iff (agree : Agree size k k') : size ≤ k' ↔ size ≤ k := by
  rcases agree with rfl | ⟨last', last⟩
  · exact Iff.rfl
  · exact iff_of_true last' last

theorem getElem?_eq (agree : Agree args.length k k') : args[k']? = args[k]? := by
  rcases agree with rfl | ⟨last', last⟩
  · rfl
  · rw [List.getElem?_eq_none last', List.getElem?_eq_none last]

theorem succ (agree : Agree size k k') : Agree size (k + 1) (k' + 1) := by
  rcases agree with rfl | ⟨last', last⟩
  · exact .inl rfl
  · exact .inr ⟨by omega, by omega⟩

end Agree

/-- The scanner reads the first piece as it is meant. -/
def Reads (args : List WString) (left : Bool) (k k' : ℕ) (piece : Piece) (rest : List Piece) :
    Prop :=
  piece.Fits args.length left k' ∧ (piece.drops args.length left k' = true → rest ≠ []) ∧
    ∃ k₁, Agree args.length k₁ (piece.count left k') ∧
      Sound args.length (piece.leaves args.length left) k₁ rest ∧
      meaning args k (piece :: rest) = piece.shown left k' args ++ meaning args k₁ rest

theorem more_of_drops (agree : Agree size k k') (left_missing : left = true → size ≤ k)
    (more : size ≤ k → left = true ∨ type.isSome = true → rest ≠ [])
    (drops : (left || (type.isSome && decide (size ≤ k'))) = true) : rest ≠ [] := by
  rcases Bool.or_eq_true_iff.mp drops with is_left | missing
  · exact more (left_missing is_left) (.inl is_left)
  · obtain ⟨typed, last⟩ := Bool.and_eq_true_iff.mp missing
    exact more (agree.le_iff.mp (of_decide_eq_true last)) (.inr typed)

theorem shown_of_agree (agree : Agree args.length k k')
    (left_missing : left = true → args.length ≤ k) :
    (if left then [] else render type args[k']?) = render type args[k]? := by
  cases left with
  | true => rw [if_pos rfl, List.getElem?_eq_none (left_missing rfl), render]
  | false => rw [if_neg Bool.false_ne_true, agree.getElem?_eq]

theorem reads_sequential (agree : Agree args.length k k')
    (sound : Sound args.length left k (.placeholder none type :: rest)) :
    Reads args left k k' (.placeholder none type) rest := by
  obtain ⟨left_missing, small, more, sound⟩ := sound
  have counted : Agree args.length (k + 1) (if left then k' else k' + 1) := by
    cases left with
    | true =>
      have last := left_missing rfl
      exact .inr ⟨agree.le_iff.mpr last, by omega⟩
    | false => exact agree.succ
  refine ⟨fun _ present => ?_, more_of_drops agree left_missing more, k + 1, counted, sound, ?_⟩
  · rcases agree with rfl | ⟨last', -⟩
    · exact small present
    · omega
  · exact congrArg (· ++ _) (shown_of_agree agree left_missing).symm

theorem reads_numbered {n : Numeral} (agree : Agree args.length k k')
    (sound : Sound args.length left k (.placeholder (some n) type :: rest)) :
    Reads args left k k' (.placeholder (some n) type) rest := by
  obtain ⟨left_missing, small, more, sound⟩ := sound
  have same : Agree args.length n.value n.value := .inl rfl
  refine ⟨fun _ => small, more_of_drops same left_missing more, k, agree, ?_, ?_⟩
  · cases left with
    | true =>
      have missing : ¬ n.value < args.length := Nat.not_lt.mpr (left_missing rfl)
      rwa [decide_eq_false missing, Bool.and_false] at sound
    | false => exact sound
  · exact congrArg (· ++ _) (shown_of_agree same left_missing).symm

/-- Without a slip the pieces that are read mean what all of them mean. -/
theorem reads_of_sound (agree : Agree args.length k k')
    (sound : Sound args.length left k pieces) :
    Fits args.length left k' pieces ∧ Ends args.length left k' pieces ∧
      meaning args k' (survivors args.length left pieces) = meaning args k pieces := by
  induction pieces generalizing left k k' with
  | nil => exact ⟨trivial, trivial, rfl⟩
  | cons piece rest ih =>
    have first : Reads args left k k' piece rest := by
      cases piece with
      | literal c plain => exact ⟨trivial, nofun, k, agree, sound, rfl⟩
      | placeholder number type =>
        cases number with
        | none => exact reads_sequential agree sound
        | some n => exact reads_numbered agree sound
    obtain ⟨fits, more, k₁, agree₁, sound₁, means⟩ := first
    obtain ⟨fits_rest, ends_rest, means_rest⟩ := ih agree₁ sound₁
    refine ⟨⟨fits, fits_rest⟩, ⟨more, ends_rest⟩, ?_⟩
    rw [survivors, meaning_kept_append, means_rest, means]

/-- Every format string without a slip comes to what it means. -/
theorem formats_of_sound {args : List WString} {pieces : List Piece}
    (sound : Sound args.length false 0 pieces) :
    ({} : CFormat).Formats (text pieces) args (.ret (meaning args 0 pieces)) := by
  obtain ⟨fits, ends, means⟩ := reads_of_sound (.inl rfl) sound
  exact (formats_meaning_iff fits).mpr ⟨ends, means⟩

end Sound

section Literals

variable {args : List WString} {cs : WString} {plain : ∀ c ∈ cs, c ≠ wchar '{' ∧ c ≠ wchar '\x00'}
  {pieces : List Piece} {size k : ℕ} {left : Bool}

/-- One literal for each character of a text. -/
def literals : (cs : WString) → (∀ c ∈ cs, c ≠ wchar '{' ∧ c ≠ wchar '\x00') → List Piece
  | [], _ => []
  | c :: cs, plain =>
    .literal c (plain c List.mem_cons_self) ::
      literals cs fun d mem => plain d (List.mem_cons_of_mem _ mem)

theorem text_cons (piece : Piece) (pieces : List Piece) :
    text (piece :: pieces) = piece.text ++ text pieces := rfl

theorem text_append (front back : List Piece) : text (front ++ back) = text front ++ text back :=
  List.flatMap_append

theorem text_literals : text (literals cs plain) = cs := by
  induction cs with
  | nil => rfl
  | cons c cs ih => exact congrArg (c :: ·) ih

theorem sound_literals_append :
    Sound size left k (literals cs plain ++ pieces) ↔ Sound size left k pieces := by
  induction cs with
  | nil => exact Iff.rfl
  | cons c cs ih => exact ih

theorem meaning_literals_append :
    meaning args k (literals cs plain ++ pieces) = cs ++ meaning args k pieces := by
  induction cs with
  | nil => rfl
  | cons c cs ih => exact congrArg (c :: ·) ih

theorem sound_literals : Sound size left k (literals cs plain) := by
  rw [← List.append_nil (literals cs plain), sound_literals_append]
  trivial

theorem meaning_literals : meaning args k (literals cs plain) = cs := by
  rw [← List.append_nil (literals cs plain), meaning_literals_append]
  exact List.append_nil cs

/-- A text that holds nothing but literals. -/
def allPlain (s : String) : Bool :=
  (wide s.toList).all fun c => c ≠ wchar '{' ∧ c ≠ wchar '\x00'

theorem plain_of_allPlain {s : String} (plain : allPlain s = true) :
    ∀ c ∈ wide s.toList, c ≠ wchar '{' ∧ c ≠ wchar '\x00' :=
  fun c mem => of_decide_eq_true (List.all_eq_true.mp plain c mem)

/-- Two sequential placeholders in a text. -/
theorem formats_two {front middle back : String} (front_plain : allPlain front = true)
    (middle_plain : allPlain middle = true) (back_plain : allPlain back = true) (x y : String) :
    ({} : CFormat).Formats
      (wide front.toList ++ wide ['{', '}'] ++ wide middle.toList ++ wide ['{', '}'] ++
        wide back.toList)
      [wide x.toList, wide y.toList]
      (.ret (wide (front ++ (x ++ (middle ++ (y ++ back)))).toList)) := by
  let pieces : List Piece :=
    literals (wide front.toList) (plain_of_allPlain front_plain) ++ .placeholder none none ::
      (literals (wide middle.toList) (plain_of_allPlain middle_plain) ++ .placeholder none none ::
        literals (wide back.toList) (plain_of_allPlain back_plain))
  have written : text pieces =
      wide front.toList ++ wide ['{', '}'] ++ wide middle.toList ++ wide ['{', '}'] ++
        wide back.toList := by
    simp only [pieces, text_append, text_cons, text_literals, List.append_assoc]
    rfl
  have sound : Sound 2 false 0 pieces := by
    simp [pieces, sound_literals_append, sound_literals, Sound]
  have means : meaning [wide x.toList, wide y.toList] 0 pieces =
      wide (front ++ (x ++ (middle ++ (y ++ back)))).toList := by
    simp only [pieces, meaning_literals_append, meaning_literals, meaning, String.toList_append,
      wide_append]
    rfl
  have agree : Agree 2 0 0 := .inl rfl
  obtain ⟨fits, ends, same⟩ := @reads_of_sound [wide x.toList, wide y.toList] _ _ _ _ agree sound
  rw [← written, ← means, ← same]
  exact formats_survivors fits ends

end Literals

/-- The usage that the source gives. -/
theorem formats_usage : ({} : CFormat).Formats (wide "{} {0} {} {2:b}".toList)
    [wide ['1', '0'], wide ['2', '0'], [wchar '1']] (.ret (wide "10 10 20 true".toList)) := by
  let zero : Numeral := ⟨[0], by decide⟩
  let two : Numeral := ⟨[2], by decide⟩
  let pieces : List Piece :=
    [.placeholder none none, .literal (wchar ' ') (by decide),
      .placeholder (some zero) none, .literal (wchar ' ') (by decide),
      .placeholder none none, .literal (wchar ' ') (by decide),
      .placeholder (some two) (some .lower)]
  let args : List WString := [wide ['1', '0'], wide ['2', '0'], [wchar '1']]
  have sound : Sound args.length false 0 pieces := by
    simp [args, pieces, zero, two, Sound, Numeral.value, Numeral.next]
  exact formats_of_sound sound

/-- After a numbered truth value the next placeholder is dropped. -/
theorem not_formats_after_numbered_type :
    ¬ ∀ (args : List WString) (pieces : List Piece), args ≠ [] →
      ({} : CFormat).Formats (text pieces) args (.ret (meaning args 0 pieces)) := by
  intro all
  -- `{0:b} {}` and a full stop
  let zero : Numeral := ⟨[0], by decide⟩
  let pieces : List Piece :=
    [.placeholder (some zero) (some .lower), .literal (wchar ' ') (by decide),
      .placeholder none none, .literal (wchar '.') (by decide)]
  have claimed := all [[wchar 'Y']] pieces (by decide)
  -- the second placeholder is dropped, although its argument is there
  have actual : ({} : CFormat).Formats (text pieces) [[wchar 'Y']] (.ret (wide "true .".toList)) :=
    ⟨40, by decide⟩
  exact absurd (claimed.unique actual) (by decide)

end ExLibs.Format
