/-
# The scanner of format strings

`cFormat::format_trans` block by block: one turn of its loop goes through three blocks, each of
which ends the turn, lets it go on to the next block, or reads where there is nothing to read.
-/
import Mathlib.Algebra.Order.Ring.Int
import Mathlib.Data.List.Basic
import Mathlib.Data.Int.Notation
import ExLibs.Math.Loop
import ExLibs.String.WChar

namespace ExLibs.Format

open ExLibs.Math

/-- `Util::isTrue`. -/
def isTrue (s : WString) : Bool :=
  s = wide ['Y'] ∨ s = wide ['y'] ∨ s = wide ['T', 'r', 'u', 'e'] ∨
    s = wide ['T', 'R', 'U', 'E'] ∨ s = wide ['1']

/-- How a truth value is written. -/
def boolText (isTrue : Bool) : WString :=
  if isTrue then wide ['t', 'r', 'u', 'e'] else wide ['f', 'a', 'l', 's', 'e']

/-- The value that a `short` takes. -/
def short (i : ℤ) : ℤ := i.bmod (2 ^ 16)

/-- The variables of `format_trans`. The format string begins where the pointer is. -/
structure Scan where
  sFormatString : WString
  sRet : WString := []
  isPlaceHolder : Bool := false
  isType : Bool := false
  isBracket : Bool := false
  sType : WString := []
  nIndex : ℤ := -1
  nArgsIdx : ℤ := 0

/-- What becomes of a turn in one of its blocks. -/
inductive Block
  /-- The turn is over. -/
  | again (s : Scan)
  /-- The next block is entered. -/
  | onward (s : Scan)
  /-- The pointer passes the terminator, or an index its vector. -/
  | fault

/-- What `format_trans` comes to. -/
inductive Result
  | ret (sRet : WString)
  | fault
  deriving DecidableEq

/-- Enter the next block, if the turn goes on. -/
def Block.andThen (block : Block) (next : Scan → Block) : Block :=
  match block with
  | .onward s => next s
  | .again s => .again s
  | .fault => .fault

/-- The turn is over in any case after its last block. -/
def Block.over : Block → Result ⊕ Scan
  | .again s | .onward s => .inr s
  | .fault => .inl .fault

namespace Block

variable (s : Scan) (next : Scan → Block)

@[simp]
theorem andThen_again : (again s).andThen next = again s := rfl

@[simp]
theorem andThen_onward : (onward s).andThen next = next s := rfl

@[simp]
theorem over_again : (again s).over = .inr s := rfl

@[simp]
theorem over_onward : (onward s).over = .inr s := rfl

end Block

namespace Scan

/-- `*sFormatString`, where a text is followed by a NUL. -/
def char (s : Scan) : WChar := s.sFormatString.headD (wchar '\x00')

/-- `sFormatString++`, which may reach the terminator and not pass it. -/
def skip (s : Scan) (onward : Scan → Block) : Block :=
  match s.sFormatString with
  | [] => .fault
  | _ :: sFormatString => onward { s with sFormatString }

variable {c : WChar} {rest out sType : WString} {isPlaceHolder isType isBracket : Bool} {i j : ℤ}

@[simp]
theorem char_cons :
    (mk (c :: rest) out isPlaceHolder isType isBracket sType i j).char = c := rfl

@[simp]
theorem skip_cons (onward : Scan → Block) :
    (mk (c :: rest) out isPlaceHolder isType isBracket sType i j).skip onward =
      onward (mk rest out isPlaceHolder isType isBracket sType i j) := rfl

end Scan

/-- `_vecArgs.size() >= ( i + 1 )`, where a negative number is a size larger than any. -/
def hasArg (vecArgs : List WString) (i : ℤ) : Bool := 0 ≤ i + 1 ∧ i + 1 ≤ vecArgs.length

/-- `_vecArgs[ i ]`. -/
def withArg (vecArgs : List WString) (i : ℤ) (onward : WString → Block) : Block :=
  match i with
  | .ofNat n =>
    match vecArgs[n]? with
    | some arg => onward arg
    | none => .fault
  | .negSucc _ => .fault

/-- The block for a bracket in a placeholder. -/
def bracket (s : Scan) : Block :=
  let close (s : Scan) : Block :=
    if s.char = wchar '}' then
      { s with sRet := s.sRet ++ wide ['{', '}'], isBracket := false, isPlaceHolder := false }.skip
        .again
    else
      .onward { s with sRet := s.sRet ++ [wchar '{'], isBracket := false, isPlaceHolder := false }
  if s.isBracket = false then .onward s
  else if s.char = wchar '}' then s.skip close
  else close s

theorem bracket_of_not {s : Scan} (none : s.isBracket = false) : bracket s = .onward s :=
  if_pos none

/-- The block for the type of a placeholder. -/
def typed (vecArgs : List WString) (s : Scan) : Block :=
  if s.isPlaceHolder = false ∨ s.isType = false then .onward s
  else if s.char ≠ wchar '{' ∧ s.char ≠ wchar '}' then
    { s with sType := s.sType ++ [s.char] }.skip .again
  else if s.char = wchar '}' then
    if s.sType = [wchar 'b'] ∨ s.sType = [wchar 'B'] then
      if s.nIndex = -1 then
        if hasArg vecArgs s.nArgsIdx then
          withArg vecArgs s.nArgsIdx fun arg =>
            { s with
              sRet := s.sRet ++ boolText (isTrue arg)
              nArgsIdx := short (s.nArgsIdx + 1)
              isPlaceHolder := false
              isType := false
              sType := [] }.skip .again
        -- the turn goes on with the character after the brace, which may be the terminator
        else { s with isPlaceHolder := false, isType := false, sType := [] }.skip .onward
      else if hasArg vecArgs s.nIndex then
        -- `isType` stays as it is
        withArg vecArgs s.nIndex fun arg =>
          { s with
            sRet := s.sRet ++ boolText (isTrue arg)
            isPlaceHolder := false
            nIndex := -1
            sType := [] }.skip .again
      else
        { s with nIndex := -1, isType := false, sType := [], isPlaceHolder := false }.skip .onward
    else
      -- a type that is unknown
      { s with nIndex := -1, sType := [], isPlaceHolder := false, isType := false }.skip .onward
  else .onward s

/-- The block for everything else. -/
def plain (vecArgs : List WString) (s : Scan) : Block :=
  if s.isPlaceHolder then
    if s.char = wchar '{' then { s with isBracket := true }.skip .again
    else if s.char = wchar '}' then
      if s.isType = false ∧ s.nIndex = -1 then
        if hasArg vecArgs s.nArgsIdx then
          withArg vecArgs s.nArgsIdx fun arg =>
            { s with
              sRet := s.sRet ++ arg
              nArgsIdx := short (s.nArgsIdx + 1)
              isPlaceHolder := false }.skip .again
        else { s with isPlaceHolder := false }.skip .again
      else if s.isType = false ∧ s.nIndex > -1 then
        if hasArg vecArgs s.nIndex then
          withArg vecArgs s.nIndex fun arg =>
            { s with sRet := s.sRet ++ arg, isPlaceHolder := false, nIndex := -1 }.skip .again
        else { s with nIndex := -1, isPlaceHolder := false }.skip .again
      -- the pointer stays where it is
      else .again s
    else if s.char = wchar ':' then { s with isType := true }.skip .again
    -- the number is read digit by digit, in 16 bits
    else if wchar '0' ≤ s.char ∧ s.char ≤ wchar '9' then
      let nIdx : ℤ := s.char.toNat - (wchar '0').toNat
      { s with nIndex := if s.nIndex = -1 then nIdx else short (s.nIndex * 10 + nIdx) }.skip .again
    -- the pointer stays at any other character, too
    else .again s
  else if s.char = wchar '{' then { s with isPlaceHolder := true }.skip .again
  else { s with sRet := s.sRet ++ [s.char] }.skip .again

/-- One turn of the loop. -/
def turn (vecArgs : List WString) (s : Scan) : Result ⊕ Scan :=
  if s.char = wchar '\x00' then .inl (.ret s.sRet)
  else ((bracket s).andThen fun s => (typed vecArgs s).andThen (plain vecArgs)).over

/-- `cFormat`. -/
structure CFormat where
  vecArgs : List WString := []

/-- `cFormat::Format` comes to a result. -/
def CFormat.Formats (f : CFormat) (sFormatString : WString) (args : List WString)
    (result : Result) : Prop :=
  Returns (turn (f.vecArgs ++ args)) { sFormatString } result

end ExLibs.Format
