/-
# Paths of files

`NormalizePath` unifies the separators of a path. From a path that ends with one it then takes
two characters instead of one, and none if there are not two. `cExtFile` divides the path at its
last separator: this stays in front of the name, and what stands before it loses a character.
-/
import ExLibs.String.Folding
import ExLibs.String.Replacing

namespace ExLibs.Util

open ExLibs.Text ExLibs.Text.XString ExLibs.Math

/-- `EXT_PATH_SEPARATOR` under Windows, which is `sSeparator` too. -/
def extPathSeparator : XString := ⟨[wchar '\\']⟩

/-- `sSeparatorTarget` under Windows. -/
def sSeparatorTarget : XString := ⟨[wchar '/']⟩

/-- `NormalizePath`. -/
def normalizePath (sFullPath : XString) : XString :=
  let sNormalizePath := sFullPath.replaceAll sSeparatorTarget extPathSeparator
  if sNormalizePath.endsWith extPathSeparator = true then
    sNormalizePath.substr (some 0) (sizeT (sNormalizePath.str.length - 2))
  else sNormalizePath

/-- What the file system says of a path (`std::filesystem::file_type`). -/
inductive FileType
  | notFound
  | regular
  | directory
  | block
  | character
  | fifo
  | socket
  | unknown
  deriving DecidableEq

/-- `EXT_FILE_TYPE`. -/
inductive ExtFileType
  | none
  | file
  | dir
  | symlink
  | character
  deriving DecidableEq

/-- `cExtFile`. -/
structure ExtFile where
  isExist : Bool := false
  eType : ExtFileType := .none
  sFullPath : XString := ⟨[]⟩
  sFilePath : XString := ⟨[]⟩
  sFileName : XString := ⟨[]⟩
  deriving DecidableEq

namespace ExtFile

/-- `fnDividePath`. -/
def fnDividePath (f : ExtFile) (sNormalizePath : XString) : ExtFile :=
  match sNormalizePath.rfind extPathSeparator with
  | some pos => { f with
      sFilePath := sNormalizePath.substr (some 0) (sizeT (pos - 1))
      sFileName := sNormalizePath.substr (some pos) npos }
  | none => f

/-- `devidePath`. -/
def devidePath (status : XString → FileType) (f : ExtFile) (sFullPath : XString) : ExtFile :=
  let sNormalizePath := normalizePath sFullPath
  let f := { f with sFullPath }
  if status sFullPath = .notFound then { f with isExist := false }
  else if status sNormalizePath = .directory then
    { f with sFilePath := sFullPath, sFileName := ⟨[]⟩, eType := .dir }
  else if status sNormalizePath = .regular then
    fnDividePath { f with eType := .file } sNormalizePath
  else if status sNormalizePath = .character then
    fnDividePath { f with eType := .character } sNormalizePath
  else f

/-- `reset`. -/
def reset (_ : ExtFile) : ExtFile := {}

/-- `SetPath`. -/
def setPath (status : XString → FileType) (f : ExtFile) (sFullPath : XString) : ExtFile :=
  devidePath status { f.reset with sFullPath } sFullPath

/-- `FullPath`. -/
def fullPath (f : ExtFile) : XString :=
  if f.sFileName.str = [] ∧ f.sFilePath.str = [] then ⟨[]⟩
  else if f.sFileName.str = [] then f.sFilePath
  else ⟨f.sFilePath.str ++ extPathSeparator.str ++ f.sFileName.str⟩

end ExtFile

/-- A separator, of either kind. -/
def IsSeparator (c : WChar) : Prop := c = wchar '/' ∨ c = wchar '\\'

/-- The characters of a path, with one kind of separator. -/
def unified (p : XString) : WString :=
  p.str.map fun c => if c = wchar '/' then wchar '\\' else c

/-- `NormalizePath` unifies the separators and takes only one from the end. -/
def DropsOne (p : XString) : Prop :=
  (normalizePath p).str =
    if (unified p).getLast? = some (wchar '\\') then (unified p).dropLast else unified p

/-- A path does not end with a separator. -/
def Unterminated (p : XString) : Prop := ∀ c ∈ p.str.getLast?, ¬ IsSeparator c

/-- The file system takes a path for a regular file, with either kind of separators. -/
def IsRegularFile (status : XString → FileType) (p : XString) : Prop :=
  status p = .regular ∧ status (normalizePath p) = .regular

/-- What `cExtFile` makes of a path are the parts at its last separator, and they make it up. -/
structure ExtFile.Divides (f : ExtFile) (p : XString) : Prop where
  name : ∀ c ∈ f.sFileName.str, ¬ IsSeparator c
  parts : (normalizePath p).str = f.sFilePath.str ++ wchar '\\' :: f.sFileName.str ∨
    wchar '\\' ∉ (normalizePath p).str ∧ f.sFilePath.str = [] ∧ f.sFileName = normalizePath p
  full : f.fullPath = normalizePath p

variable {p : XString} {f : ExtFile} {status : XString → FileType}

section Normalizing

theorem replaceAll_separators :
    p.replaceAll sSeparatorTarget extPathSeparator = ⟨unified p⟩ := by
  have substitutes : p.replaceAll sSeparatorTarget extPathSeparator =
      ⟨substitute [wchar '/'] [wchar '\\'] 0 p.str⟩ := replaceAll_eq (List.cons_ne_nil _ _)
  rw [substitutes, substitute_singleton, unified]

theorem endsWith_separator_iff :
    (mk (unified p)).endsWith extPathSeparator = true ↔
      (unified p).getLast? = some (wchar '\\') := by
  have read : extPathSeparator.lpcwstr = [wchar '\\'] := by decide
  rw [endsWith, read, List.isSuffixOf_iff_suffix, List.singleton_suffix_iff_getLast?_eq_some]

/-- The unified path ends with a separator exactly if the path does. -/
theorem unterminated_iff : Unterminated p ↔ (unified p).getLast? ≠ some (wchar '\\') := by
  rw [unified, List.getLast?_map, Unterminated]
  cases p.str.getLast? with
  | none => simp
  | some c =>
    simp only [Option.mem_some_iff, forall_eq', Option.map_some, ne_eq, Option.some.injEq]
    refine not_congr ?_
    unfold IsSeparator
    split <;> simp_all

theorem normalizePath_of_unterminated (unterminated : Unterminated p) :
    normalizePath p = ⟨unified p⟩ := by
  have ends := mt endsWith_separator_iff.mp (unterminated_iff.mp unterminated)
  rw [normalizePath, replaceAll_separators]
  exact if_neg ends

/-- `NormalizePath` does what it is for exactly to paths without a separator at the end. -/
theorem dropsOne_iff : DropsOne p ↔ Unterminated p := by
  constructor
  · intro drops
    rw [unterminated_iff]
    intro ends
    have cut : normalizePath p =
        (mk (unified p)).substr (some 0) (sizeT ((unified p).length - 2)) := by
      rw [normalizePath, replaceAll_separators]
      exact if_pos (endsWith_separator_iff.mpr ends)
    rw [DropsOne, cut, if_pos ends, substr, List.drop_zero] at drops
    -- of one character less two is more than there is, and of more it is one too few
    obtain ⟨front, whole⟩ := List.getLast?_eq_some_iff.mp ends
    have length := congrArg List.length drops
    rw [whole, List.length_take, List.length_dropLast, List.length_append, List.length_singleton,
      sizeT] at length
    omega
  · intro unterminated
    rw [DropsOne, normalizePath_of_unterminated unterminated,
      if_neg (unterminated_iff.mp unterminated)]

/-- Of a path that ends with a separator a character is lost. -/
theorem separator_takes_a_letter : ¬ ∀ p, DropsOne p := by
  intro all
  have drops := all ⟨wide ['a', 'b', '/']⟩
  rw [DropsOne] at drops
  exact absurd drops (by decide)

end Normalizing

section Dividing

namespace ExtFile

theorem setPath_of_regular (regular : IsRegularFile status p) :
    f.setPath status p = fnDividePath { eType := .file, sFullPath := p } (normalizePath p) := by
  rw [setPath, devidePath, regular.1, regular.2]
  rfl

/-- The name that is divided off begins with the separator. -/
theorem separator_mem_of_rfind {pos : ℕ} {sNormalizePath : XString}
    (found : sNormalizePath.rfind extPathSeparator = some pos) :
    wchar '\\' ∈ (f.fnDividePath sNormalizePath).sFileName.str := by
  obtain ⟨rest, whole⟩ := prefix_of_rfind found
  have first : (sNormalizePath.substr (some pos) npos).str =
      wchar '\\' :: rest.take (npos - 1) := by
    rw [substr, ← whole]
    rfl
  rw [fnDividePath, found, first]
  exact List.mem_cons_self

/-- `cExtFile` divides no path of a regular file. -/
theorem divides_iff (unterminated : Unterminated p) (regular : IsRegularFile status p) :
    (f.setPath status p).Divides p ↔ p.str = [] := by
  rw [setPath_of_regular regular]
  constructor
  · intro divides
    cases found : (normalizePath p).rfind extPathSeparator with
    | some pos => exact absurd (.inr rfl) (divides.name _ (separator_mem_of_rfind found))
    | none =>
      have full := divides.full
      rw [fnDividePath, found, normalizePath_of_unterminated unterminated] at full
      exact List.map_eq_nil_iff.mp (congrArg XString.str full).symm
  · intro empty
    obtain rfl : p = ⟨[]⟩ := congrArg XString.mk empty
    have nothing : normalizePath ⟨[]⟩ = ⟨[]⟩ := normalizePath_of_unterminated unterminated
    have undivided : fnDividePath { eType := .file } ⟨[]⟩ = { eType := .file } := by decide
    rw [nothing, undivided]
    exact ⟨by simp, .inr ⟨by simp [nothing], rfl, nothing.symm⟩, nothing.symm⟩

/-- Not the one of a file on a drive either. -/
theorem not_divides_drive :
    ¬ (setPath (fun _ => .regular) {} ⟨wide ['C', ':', '/', 'a']⟩).Divides
      ⟨wide ['C', ':', '/', 'a']⟩ := by
  intro divides
  have regular : IsRegularFile (fun _ => .regular) ⟨wide ['C', ':', '/', 'a']⟩ := ⟨rfl, rfl⟩
  exact absurd ((divides_iff (by simp [Unterminated, IsSeparator]) regular).mp divides)
    (List.cons_ne_nil _ _)

/-- The name of a file begins with a separator. -/
theorem name_of_drive_with_separator :
    ¬ ∀ (status : XString → FileType) (f : ExtFile) (p : XString), Unterminated p →
      IsRegularFile status p → (f.setPath status p).Divides p := by
  intro all
  have divides := all (fun _ => .regular) {} ⟨wide ['C', ':', '/', 'a']⟩
    (by simp [Unterminated, IsSeparator]) ⟨rfl, rfl⟩
  exact absurd (.inr rfl) (divides.name (wchar '\\') (by decide))

end ExtFile

end Dividing

end ExLibs.Util
