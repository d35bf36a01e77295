/-
# Names of IPC objects on Windows

`SendIPC` names its slot, its request mapping and its response mapping after the server,
the process and a counter of the process. The server name and the process id stand side by
side without a separator, so that digits at the end of one server name can be taken for the
first digits of a process id behind another. This is the only way for two calls to come to
the same name.
-/
import ExLibs.String.WChar

namespace ExLibs.IPC.Windows

/-- `std::to_wstring` of an integer. -/
def toWstring : ℤ → WString
  | .ofNat n => wide (Nat.toDigits 10 n)
  | .negSucc n => wide ('-' :: Nat.toDigits 10 (n + 1))

/-- `GetRequestIPCName`. -/
def getRequestIPCName (sIPCName : WString) : WString :=
  sIPCName ++ wide ['R', 'e', 'q', 'D', 'A', 'T', 'A']

/-- `GetResponseIPCName`. -/
def getResponseIPCName (sIPCName : WString) : WString :=
  sIPCName ++ wide ['R', 'e', 's', 'D', 'A', 'T', 'A']

/-- What a call of `SendIPC` derives its names from: the server, the process, and the value
of `++uIPC`. -/
structure CallOrigin where
  sIPCName : WString
  pid : ℤ
  uIPC : BitVec 32
  deriving DecidableEq

namespace CallOrigin

/-- `sIPCClientName`, the name of the client slot. -/
def sIPCClientName (c : CallOrigin) : WString :=
  c.sIPCName ++ toWstring c.pid ++ wide ['C', 'l', 'i', 'e', 'n', 't'] ++ toWstring c.uIPC.toNat

/-- The names of the client slot, of `ReqDATA` and of `ResDATA`. -/
def objectNames (c : CallOrigin) : List WString :=
  [c.sIPCClientName, getRequestIPCName c.sIPCClientName, getResponseIPCName c.sIPCClientName]

/-- The calls have the same counter, and the server name of the second is that of the first
with more characters, with which the process id of the first begins and which leave the
process id of the second. -/
def Shifts (c d : CallOrigin) : Prop :=
  c.uIPC = d.uIPC ∧ ∃ extra ≠ [], d.sIPCName = c.sIPCName ++ extra ∧
    toWstring c.pid = extra ++ toWstring d.pid

end CallOrigin

/-- What a wide digit looks like. -/
def isDigit (w : WChar) : Bool := (Char.ofNat w.toNat).isDigit

/-- A digit survives being made wide. -/
theorem ofNat_wchar {c : Char} (digit : c.isDigit) : Char.ofNat (wchar c).toNat = c := by
  have bounds := Char.isDigit_iff_toNat.mp digit
  have small : c.toNat < 2 ^ 16 := bounds.2.trans_lt (by decide)
  rw [wchar, BitVec.toNat_ofNat, Nat.mod_eq_of_lt small, Char.ofNat_toNat]

/-- The characters of a numeral are digits. -/
theorem isDigit_of_mem {n : ℕ} {w : WChar} (member : w ∈ toWstring n) : isDigit w := by
  obtain ⟨c, digit, rfl⟩ := List.mem_map.mp member
  have digit := Nat.isDigit_of_mem_toDigits (by decide) le_rfl digit
  rw [isDigit, ofNat_wchar digit]
  exact digit

/-- A numeral can be read back. -/
theorem map_toWstring (n : ℕ) :
    (toWstring n).map (fun w => Char.ofNat w.toNat) = Nat.toDigits 10 n := by
  change ((Nat.toDigits 10 n).map wchar).map _ = _
  rw [List.map_map]
  calc (Nat.toDigits 10 n).map ((fun w : WChar => Char.ofNat w.toNat) ∘ wchar)
      = (Nat.toDigits 10 n).map id := by
        refine List.map_congr_left fun c digit => ?_
        exact ofNat_wchar (Nat.isDigit_of_mem_toDigits (by decide) le_rfl digit)
    _ = Nat.toDigits 10 n := List.map_id _

theorem toWstring_natCast_inj {m n : ℕ} (same : toWstring m = toWstring n) : m = n := by
  have digits : Nat.toDigits 10 m = Nat.toDigits 10 n := by
    rw [← map_toWstring, ← map_toWstring, same]
  have value := congrArg (Nat.ofDigitChars 10 · 0) digits
  simpa using value

/-- A numeral of a negative number begins with its sign. -/
theorem toWstring_negSucc (n : ℕ) :
    toWstring (.negSucc n) = wchar '-' :: toWstring (n + 1 : ℕ) := rfl

/-- A numeral without a sign does not begin with one. -/
theorem toWstring_natCast_ne (m n : ℕ) : toWstring m ≠ toWstring (.negSucc n) := by
  intro same
  have sign : wchar '-' ∈ toWstring m := by
    rw [same, toWstring_negSucc]
    exact List.mem_cons_self
  exact absurd (isDigit_of_mem sign) (by decide)

theorem toWstring_inj {m n : ℤ} (same : toWstring m = toWstring n) : m = n := by
  match m, n with
  | .ofNat m, .ofNat n => exact congrArg Int.ofNat (toWstring_natCast_inj same)
  | .ofNat m, .negSucc n => exact absurd same (toWstring_natCast_ne m n)
  | .negSucc m, .ofNat n => exact absurd same.symm (toWstring_natCast_ne n m)
  | .negSucc m, .negSucc n =>
    rw [toWstring_negSucc, toWstring_negSucc] at same
    have value := toWstring_natCast_inj (List.cons.inj same).2
    rw [Nat.succ.inj value]

/-- Where the characters at the end that pass a test begin is read off a list. -/
theorem append_inj_of_trailing {α : Type*} {test : α → Bool} {front back front' back' : List α}
    {last last' : α} (stops : ¬ test last) (stops' : ¬ test last')
    (passes : ∀ a ∈ back, test a) (passes' : ∀ a ∈ back', test a)
    (same : front ++ last :: back = front' ++ last' :: back') :
    front ++ [last] = front' ++ [last'] ∧ back = back' := by
  have trailing : ∀ (front back : List α) (last : α), ¬ test last → (∀ a ∈ back, test a) →
      (front ++ last :: back).reverse.takeWhile test = back.reverse := by
    intro front back last stops passes
    rw [List.reverse_append, List.reverse_cons, List.append_assoc,
      List.takeWhile_append_of_pos fun a member => passes a (List.mem_reverse.mp member),
      List.singleton_append, List.takeWhile_cons_of_neg stops, List.append_nil]
  have backs : back.reverse = back'.reverse := by
    rw [← trailing front back last stops passes, same, trailing front' back' last' stops' passes']
  obtain rfl := List.reverse_injective backs
  rw [List.append_cons front, List.append_cons front'] at same
  exact ⟨List.append_cancel_right same, rfl⟩

namespace CallOrigin

variable {c d : CallOrigin}

/-- The name of a slot up to the last letter before its counter. -/
theorem sIPCClientName_eq (c : CallOrigin) :
    c.sIPCClientName = (c.sIPCName ++ toWstring c.pid ++ wide ['C', 'l', 'i', 'e', 'n']) ++
      wchar 't' :: toWstring c.uIPC.toNat := by
  simp [sIPCClientName, wide]

/-- Slots have the same name exactly if their counters agree, and what stands before
`Client` does. -/
theorem sIPCClientName_eq_iff :
    c.sIPCClientName = d.sIPCClientName ↔
      c.uIPC = d.uIPC ∧ c.sIPCName ++ toWstring c.pid = d.sIPCName ++ toWstring d.pid := by
  constructor
  · intro same
    rw [sIPCClientName_eq, sIPCClientName_eq] at same
    -- the counter is what follows the last character that is not a digit
    obtain ⟨fronts, counters⟩ := append_inj_of_trailing (by decide) (by decide)
      (fun _ => isDigit_of_mem) (fun _ => isDigit_of_mem) same
    exact ⟨BitVec.eq_of_toNat_eq (toWstring_natCast_inj counters),
      List.append_cancel_right (List.append_cancel_right fronts)⟩
  · rintro ⟨counters, fronts⟩
    rw [sIPCClientName, sIPCClientName, fronts, counters]

/-- The last character of a slot's name is a digit. -/
theorem getLast?_sIPCClientName (c : CallOrigin) :
    ∃ w, c.sIPCClientName.getLast? = some w ∧ isDigit w := by
  have nonempty : toWstring c.uIPC.toNat ≠ [] := by
    intro empty
    have digits := map_toWstring c.uIPC.toNat
    rw [empty] at digits
    exact Nat.toDigits_ne_nil digits.symm
  refine ⟨(toWstring c.uIPC.toNat).getLast nonempty, ?_, isDigit_of_mem (List.getLast_mem nonempty)⟩
  rw [sIPCClientName, List.getLast?_append_of_ne_nil _ nonempty, List.getLast?_eq_some_getLast]

/-- The name of a slot is not that of a request mapping or a response mapping. -/
theorem sIPCClientName_ne (c : CallOrigin) (name : WString) :
    c.sIPCClientName ≠ getRequestIPCName name ∧ c.sIPCClientName ≠ getResponseIPCName name := by
  obtain ⟨w, last, digit⟩ := c.getLast?_sIPCClientName
  constructor
  all_goals
    intro same
    rw [same] at last
    simp only [getRequestIPCName, getResponseIPCName, wide, List.map_cons, List.map_nil,
      List.getLast?_append, List.getLast?_cons_cons, List.getLast?_singleton, Option.some_or,
      Option.some.injEq] at last
    subst last
    revert digit
    decide

/-- A request mapping and a response mapping have different names. -/
theorem getRequestIPCName_ne (name other : WString) :
    getRequestIPCName name ≠ getResponseIPCName other := by
  intro same
  exact absurd (List.append_inj_right' same rfl) (by decide)

theorem getRequestIPCName_inj {name other : WString} :
    getRequestIPCName name = getRequestIPCName other ↔ name = other :=
  List.append_left_inj _

theorem getResponseIPCName_inj {name other : WString} :
    getResponseIPCName name = getResponseIPCName other ↔ name = other :=
  List.append_left_inj _

/-- The names of two calls are pairwise distinct exactly if their slots have different
names. -/
theorem nodup_objectNames_iff :
    (c.objectNames ++ d.objectNames).Nodup ↔ c.sIPCClientName ≠ d.sIPCClientName := by
  have slot (a : CallOrigin) (name : WString) := a.sIPCClientName_ne name
  have mappings := getRequestIPCName_ne
  simp only [objectNames, List.cons_append, List.nil_append, List.nodup_cons, List.mem_cons,
    List.not_mem_nil, or_false, not_or, (slot _ _).1, (slot _ _).2, (slot _ _).1.symm,
    (slot _ _).2.symm, mappings, (mappings _ _).symm, getRequestIPCName_inj,
    getResponseIPCName_inj, not_false_eq_true, true_and, and_true, List.nodup_nil, ne_eq]
  tauto

/-- Distinct calls in flight derive pairwise distinct names unless the digits of a process
id shift between its server name and the other. -/
theorem nodup_objectNames_iff_not_shifts (distinct : c ≠ d) :
    (c.objectNames ++ d.objectNames).Nodup ↔ ¬ (c.Shifts d ∨ d.Shifts c) := by
  rw [nodup_objectNames_iff, ne_eq, not_iff_not, sIPCClientName_eq_iff]
  constructor
  · rintro ⟨counters, fronts⟩
    have proper : ∀ extra, (d.sIPCName = c.sIPCName ++ extra ∧
        toWstring c.pid = extra ++ toWstring d.pid) ∨ (c.sIPCName = d.sIPCName ++ extra ∧
        toWstring d.pid = extra ++ toWstring c.pid) → extra ≠ [] := by
      rintro extra splits rfl
      -- with nothing shifted the calls are the same
      simp only [List.append_nil, List.nil_append] at splits
      have servers : c.sIPCName = d.sIPCName := by
        rcases splits with ⟨same, -⟩ | ⟨same, -⟩
        · exact same.symm
        · exact same
      have pids : c.pid = d.pid := by
        rcases splits with ⟨-, same⟩ | ⟨-, same⟩
        · exact toWstring_inj same
        · exact (toWstring_inj same).symm
      cases c
      cases d
      cases servers
      cases pids
      cases counters
      exact distinct rfl
    rcases List.append_eq_append_iff.mp fronts with ⟨extra, servers, pids⟩ | ⟨extra, servers, pids⟩
    · exact .inl ⟨counters, extra, proper extra (.inl ⟨servers, pids⟩), servers, pids⟩
    · exact .inr ⟨counters.symm, extra, proper extra (.inr ⟨servers, pids⟩), servers, pids⟩
  · rintro (⟨counters, extra, -, servers, pids⟩ | ⟨counters, extra, -, servers, pids⟩)
    · exact ⟨counters, by rw [servers, pids, List.append_assoc]⟩
    · exact ⟨counters.symm, by rw [servers, pids, List.append_assoc]⟩

/-- The first call of process 12 to the server `A`. -/
def plain : CallOrigin := ⟨wide ['A'], 12, 1⟩

/-- The first call of process 2 to the server `A1`. -/
def numbered : CallOrigin := ⟨wide ['A', '1'], 2, 1⟩

/-- Two calls of one process have different names. -/
theorem nodup_objectNames_of_counter :
    (plain.objectNames ++ { plain with uIPC := 2 }.objectNames).Nodup :=
  (nodup_objectNames_iff_not_shifts (by decide)).mpr
    (by rintro (⟨counters, -⟩ | ⟨counters, -⟩) <;> exact absurd counters (by decide))

/-- The slots of calls to different servers from different processes have the same name. -/
theorem plain_collides_numbered : plain.sIPCName ≠ numbered.sIPCName ∧ plain.pid ≠ numbered.pid ∧
    plain.sIPCClientName = numbered.sIPCClientName ∧
    ¬ (plain.objectNames ++ numbered.objectNames).Nodup := by
  have same : plain.sIPCClientName = numbered.sIPCClientName := by decide
  exact ⟨by decide, by decide, same, fun nodup => nodup_objectNames_iff.mp nodup same⟩

end CallOrigin

end ExLibs.IPC.Windows
