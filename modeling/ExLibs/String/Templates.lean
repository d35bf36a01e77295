/-
# Templates

What a format string asks for. The scanner reads the format string only, and never what it has
written: with as many arguments as there are, a format string is a template, in which the
arguments fill their slots whatever their texts are, or it comes to no text at all.
-/
import ExLibs.String.Format

namespace ExLibs.Format

open ExLibs.Math

/-- A part of a template: a character, or what an argument is shown as. -/
inductive Slot
  | char (c : WChar)
  | arg (isBool : Bool) (n : ℕ)
  deriving DecidableEq

/-- How an argument is shown. -/
def shownAs (isBool : Bool) (arg : WString) : WString :=
  if isBool then boolText (isTrue arg) else arg

def Slot.fill (args : List WString) : Slot → WString
  | .char c => [c]
  | .arg isBool n => shownAs isBool (args.getD n [])

/-- A template with its slots filled. -/
def fill (args : List WString) (template : List Slot) : WString := template.flatMap (Slot.fill args)

/-- The arguments of the slots are there. -/
def Within (size : ℕ) (template : List Slot) : Prop :=
  ∀ isBool n, .arg isBool n ∈ template → n < size

/-- What a block does, with what it writes as a template. -/
inductive Plan
  | again (s : Scan) (added : List Slot)
  | onward (s : Scan) (added : List Slot)
  | fault

namespace Plan

/-- The block of a plan, after a text that has been written. -/
def block (args : List WString) (out : WString) : Plan → Block
  | again s added => .again { s with sRet := out ++ fill args added }
  | onward s added => .onward { s with sRet := out ++ fill args added }
  | fault => .fault

def Within (size : ℕ) : Plan → Prop
  | again _ added | onward _ added => Format.Within size added
  | fault => True

end Plan

/-- A block goes by a plan, whatever the arguments are and whatever has been written. -/
def Uniform (size : ℕ) (block : List WString → WString → Block) : Prop :=
  ∃ plan : Plan, plan.Within size ∧
    ∀ args, args.length = size → ∀ out, block args out = plan.block args out

section Uniform

variable {size : ℕ} {block block' : List WString → WString → Block}
  {ret : List WString → WString → WString} {rest sType : WString} {added : List Slot}
  {isPlaceHolder isType isBracket : Bool} {i j : ℤ}

theorem Uniform.ite {p : Prop} {decided : List WString → WString → Decidable p}
    (yes : p → Uniform size block) (no : ¬ p → Uniform size block') :
    Uniform size fun args out =>
      have := decided args out
      if p then block args out else block' args out := by
  by_cases holds : p
  · simpa only [if_pos holds] using yes holds
  · simpa only [if_neg holds] using no holds

/-- It only matters how many arguments there are. -/
theorem Uniform.ite_hasArg (yes : Uniform size block) (no : Uniform size block') :
    Uniform size fun args out => if hasArg args i then block args out else block' args out := by
  -- whether there is such an argument depends on their number alone
  by_cases there : 0 ≤ i + 1 ∧ i + 1 ≤ size
  · obtain ⟨plan, within, same⟩ := yes
    refine ⟨plan, within, fun args length out => (if_pos ?_).trans (same args length out)⟩
    exact decide_eq_true (length ▸ there)
  · obtain ⟨plan, within, same⟩ := no
    refine ⟨plan, within, fun args length out => (if_neg ?_).trans (same args length out)⟩
    exact fun found => there (length ▸ of_decide_eq_true found)

/-- What a block has written it has added to the text. -/
def Adds (size : ℕ) (added : List Slot) (ret : List WString → WString → WString) : Prop :=
  Within size added ∧ ∀ args, args.length = size → ∀ out, ret args out = out ++ fill args added

theorem adds_nothing : Adds size [] fun _ out => out :=
  ⟨nofun, fun _ _ out => (List.append_nil out).symm⟩

theorem adds_char (c : WChar) : Adds size [.char c] fun _ out => out ++ [c] :=
  ⟨by simp [Within], fun _ _ _ => rfl⟩

theorem uniform_fault : Uniform size fun _ _ => .fault := ⟨.fault, trivial, fun _ _ _ => rfl⟩

theorem uniform_again (adds : Adds size added ret) : Uniform size fun args out =>
    .again ⟨rest, ret args out, isPlaceHolder, isType, isBracket, sType, i, j⟩ :=
  ⟨.again ⟨rest, [], isPlaceHolder, isType, isBracket, sType, i, j⟩ added, adds.1,
    fun args length out => congrArg (fun sRet => Block.again
      ⟨rest, sRet, isPlaceHolder, isType, isBracket, sType, i, j⟩) (adds.2 args length out)⟩

theorem uniform_onward (adds : Adds size added ret) : Uniform size fun args out =>
    .onward ⟨rest, ret args out, isPlaceHolder, isType, isBracket, sType, i, j⟩ :=
  ⟨.onward ⟨rest, [], isPlaceHolder, isType, isBracket, sType, i, j⟩ added, adds.1,
    fun args length out => congrArg (fun sRet => Block.onward
      ⟨rest, sRet, isPlaceHolder, isType, isBracket, sType, i, j⟩) (adds.2 args length out)⟩

theorem uniform_skip_again (adds : Adds size added ret) : Uniform size fun args out => Scan.skip
    ⟨rest, ret args out, isPlaceHolder, isType, isBracket, sType, i, j⟩ .again := by
  cases rest with
  | nil => exact uniform_fault
  | cons _ rest => exact uniform_again adds

theorem uniform_skip_onward (adds : Adds size added ret) : Uniform size fun args out => Scan.skip
    ⟨rest, ret args out, isPlaceHolder, isType, isBracket, sType, i, j⟩ .onward := by
  cases rest with
  | nil => exact uniform_fault
  | cons _ rest => exact uniform_onward adds

theorem adds_arg (isBool : Bool) {n : ℕ} (there : n < size) :
    Adds size [.arg isBool n] fun args out => out ++ shownAs isBool (args.getD n []) := by
  refine ⟨fun isBool' n' member => ?_, fun args _ out => ?_⟩
  · obtain ⟨-, rfl⟩ := Slot.arg.inj (List.mem_singleton.mp member)
    exact there
  · simp only [fill, List.flatMap_singleton, Slot.fill]

/-- An argument is read if it is there. -/
theorem uniform_withArg {k : ℤ} {next : WString → WString → Block}
    (uniform : ∀ n < size, Uniform size fun args out => next (args.getD n []) out) :
    Uniform size fun args out => withArg args k fun arg => next arg out := by
  cases k with
  | negSucc => exact uniform_fault
  | ofNat n =>
    by_cases there : n < size
    · obtain ⟨plan, within, same⟩ := uniform n there
      refine ⟨plan, within, fun args length out => Eq.trans ?_ (same args length out)⟩
      have found : args[n]? = some (args.getD n []) := by simp [length ▸ there]
      simp only [withArg, found]
    · refine ⟨.fault, trivial, fun args length out => ?_⟩
      have missing : args[n]? = none := List.getElem?_eq_none (by omega)
      simp only [withArg, missing]
      rfl

end Uniform

section Blocks

variable {size : ℕ} {s : Scan}

theorem adds_close : Adds size [.char (wchar '{'), .char (wchar '}')]
    fun _ out => out ++ wide ['{', '}'] :=
  ⟨by simp [Within], fun _ _ _ => rfl⟩

theorem uniform_bracket : Uniform size fun _ out => bracket { s with sRet := out } := by
  have close (s : Scan) : Uniform size fun _ out =>
      if s.char = wchar '}' then
        Scan.skip { s with
          sRet := out ++ wide ['{', '}'], isBracket := false, isPlaceHolder := false } .again
      else
        .onward { s with sRet := out ++ [wchar '{'], isBracket := false, isPlaceHolder := false } :=
    .ite (fun _ => uniform_skip_again adds_close) fun _ => uniform_onward (adds_char _)
  unfold bracket
  dsimp only [Scan.char]
  refine .ite (fun _ => uniform_onward adds_nothing) fun _ => ?_
  refine .ite (fun _ => ?_) fun _ => close s
  cases s.sFormatString with
  | nil => exact uniform_fault
  | cons _ rest => exact close { s with sFormatString := rest }

theorem uniform_typed : Uniform size fun args out => typed args { s with sRet := out } := by
  unfold typed
  dsimp only [Scan.char]
  refine .ite (fun _ => uniform_onward adds_nothing) fun _ => ?_
  refine .ite (fun _ => uniform_skip_again adds_nothing) fun _ => ?_
  refine .ite (fun _ => ?_) fun _ => uniform_onward adds_nothing
  refine .ite (fun _ => ?_) fun _ => uniform_skip_onward adds_nothing
  refine .ite (fun _ => ?_) fun _ => ?_
  · refine .ite_hasArg ?_ (uniform_skip_onward adds_nothing)
    exact uniform_withArg fun n there => uniform_skip_again (adds_arg true there)
  · refine .ite_hasArg ?_ (uniform_skip_onward adds_nothing)
    exact uniform_withArg fun n there => uniform_skip_again (adds_arg true there)

theorem uniform_plain : Uniform size fun args out => plain args { s with sRet := out } := by
  unfold plain
  dsimp only [Scan.char]
  refine .ite (fun _ => ?_) fun _ => ?_
  · refine .ite (fun _ => uniform_skip_again adds_nothing) fun _ => ?_
    refine .ite (fun _ => ?_) fun _ => ?_
    · refine .ite (fun _ => ?_) fun _ => ?_
      · refine .ite_hasArg ?_ (uniform_skip_again adds_nothing)
        exact uniform_withArg fun n there => uniform_skip_again (adds_arg false there)
      · refine .ite (fun _ => ?_) fun _ => uniform_again adds_nothing
        refine .ite_hasArg ?_ (uniform_skip_again adds_nothing)
        exact uniform_withArg fun n there => uniform_skip_again (adds_arg false there)
    · refine .ite (fun _ => uniform_skip_again adds_nothing) fun _ => ?_
      let nIdx : ℤ := s.char.toNat - (wchar '0').toNat
      let nIndex := if s.nIndex = -1 then nIdx else short (s.nIndex * 10 + nIdx)
      exact .ite (fun _ => uniform_skip_again (i := nIndex) adds_nothing)
        fun _ => uniform_again adds_nothing
  · refine .ite (fun _ => uniform_skip_again adds_nothing) fun _ => ?_
    exact uniform_skip_again (adds_char _)

end Blocks

theorem fill_append (args : List WString) (front back : List Slot) :
    fill args (front ++ back) = fill args front ++ fill args back := List.flatMap_append

theorem Within.append {size : ℕ} {front back : List Slot} (first : Within size front)
    (second : Within size back) : Within size (front ++ back) := fun isBool n member =>
  (List.mem_append.mp member).elim (first isBool n) (second isBool n)

/-- Blocks that go by plans one after the other go by one plan. -/
theorem Uniform.andThen {size : ℕ} {block : List WString → WString → Block}
    {next : List WString → Scan → Block} (first : Uniform size block)
    (second : ∀ s : Scan, Uniform size fun args out => next args { s with sRet := out }) :
    Uniform size fun args out => (block args out).andThen (next args) := by
  obtain ⟨plan, within, same⟩ := first
  cases plan with
  | fault =>
    exact ⟨.fault, trivial, fun args length out =>
      congrArg (Block.andThen · (next args)) (same args length out)⟩
  | again s added =>
    exact ⟨.again s added, within, fun args length out =>
      congrArg (Block.andThen · (next args)) (same args length out)⟩
  | onward s added =>
    obtain ⟨plan', within', same'⟩ := second s
    have whole (args : List WString) (length : args.length = size) (out : WString) :
        (block args out).andThen (next args) = plan'.block args (out ++ fill args added) := by
      rw [same args length]
      exact same' args length _
    cases plan' with
    | fault => exact ⟨.fault, trivial, whole⟩
    | again s' added' =>
      refine ⟨.again s' (added ++ added'), within.append within', fun args length out => ?_⟩
      refine (whole args length out).trans ?_
      rw [Plan.block, Plan.block, fill_append, List.append_assoc]
    | onward s' added' =>
      refine ⟨.onward s' (added ++ added'), within.append within', fun args length out => ?_⟩
      refine (whole args length out).trans ?_
      rw [Plan.block, Plan.block, fill_append, List.append_assoc]

/-- A turn before the end faults, whatever the arguments are, or adds to the text. -/
theorem turn_uniform (size : ℕ) {s : Scan} (more : s.char ≠ wchar '\x00') :
    (∀ args, args.length = size → ∀ out, turn args { s with sRet := out } = .inl .fault) ∨
    ∃ (t : Scan) (added : List Slot), Within size added ∧ ∀ args, args.length = size → ∀ out,
      turn args { s with sRet := out } = .inr { t with sRet := out ++ fill args added } := by
  have bracketed : Uniform size fun _ out => bracket { s with sRet := out } := uniform_bracket
  have later (s : Scan) : Uniform size fun args out =>
      (typed args { s with sRet := out }).andThen (plain args) :=
    uniform_typed.andThen fun _ => uniform_plain
  obtain ⟨plan, within, same⟩ :=
    @Uniform.andThen size _ (fun args s => (typed args s).andThen (plain args)) bracketed later
  have turned (args : List WString) (length : args.length = size) (out : WString) :
      turn args { s with sRet := out } = (plan.block args out).over := by
    rw [← same args length]
    exact if_neg more
  cases plan with
  | fault => exact .inl turned
  | again t added | onward t added => exact .inr ⟨t, added, within, turned⟩

/-- What one text comes to, any other does that has as many arguments. -/
theorem uniform_of_loop {size n : ℕ} {s : Scan} {args : List WString} {out : WString}
    {result : Result} (length : args.length = size)
    (returns : loop (turn args) n { s with sRet := out } = some result) :
    (∃ template, Within size template ∧ ∀ args, args.length = size → ∀ out,
      Returns (turn args) { s with sRet := out } (.ret (out ++ fill args template))) ∨
    ∀ args, args.length = size → ∀ out, Returns (turn args) { s with sRet := out } .fault := by
  -- by induction on the turns, after any text that has been written
  induction n generalizing s out with
  | zero => cases returns
  | succ n ih =>
    by_cases ends : s.char = wchar '\x00'
    · refine .inl ⟨[], nofun, fun args _ out => .of_turn ?_⟩
      rw [fill, List.flatMap_nil, List.append_nil]
      exact if_pos ends
    · rcases turn_uniform size ends with faults | ⟨t, added, within, adds⟩
      · exact .inr fun args length out => .of_turn (faults args length out)
      · rw [loop, adds args length] at returns
        rcases ih returns with ⟨template, within', texts⟩ | faults
        · refine .inl ⟨added ++ template, within.append within', fun args length out => ?_⟩
          refine (Leads.of_turn (adds args length out)).returns ?_
          rw [fill_append, ← List.append_assoc]
          exact texts args length _
        · exact .inr fun args length out =>
            (Leads.of_turn (adds args length out)).returns (faults args length _)

/-- A format string is a template for so many arguments, whatever their texts are, in which those
that are there fill the slots; or it reads where there is nothing to read, or never comes to an
end, and that whatever the texts are. -/
theorem exists_template (sFormatString : WString) (size : ℕ) :
    (∃ template, Within size template ∧ ∀ (f : CFormat) args, (f.vecArgs ++ args).length = size →
      f.Formats sFormatString args (.ret (fill (f.vecArgs ++ args) template))) ∨
    (∀ (f : CFormat) args, (f.vecArgs ++ args).length = size →
      f.Formats sFormatString args .fault) ∨
    ∀ (f : CFormat) args, (f.vecArgs ++ args).length = size →
      ∀ result, ¬ f.Formats sFormatString args result := by
  -- if the scanner comes to an end for some texts, it does for all
  by_cases ends : ∃ args n result, args.length = size ∧
      loop (turn args) n { sFormatString } = some result
  · obtain ⟨args, n, result, length, returns⟩ := ends
    rcases @uniform_of_loop size n { sFormatString } args [] result length returns with
      ⟨template, within, texts⟩ | faults
    · exact .inl ⟨template, within, fun f args length => texts _ length []⟩
    · exact .inr (.inl fun f args length => faults _ length [])
  · refine .inr (.inr fun f args length result => ?_)
    rintro ⟨n, returns⟩
    exact ends ⟨_, n, result, length, returns⟩

/-- A text that looks like a placeholder is written as it is. -/
example : loop (turn [wide ['{', '}'], wide ['a']]) 5
    { sFormatString := wide ['{', '}', '{', '}'] } = some (.ret (wide ['{', '}', 'a'])) := by
  decide

end ExLibs.Format
