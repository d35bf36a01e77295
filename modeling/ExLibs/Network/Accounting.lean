/-
# What a call of `Receive` adds up to

A call returns the bytes it received less one for every failed `recv` it counted,
and takes exactly those bytes off the stream. If none failed, its buffer holds
these bytes at the front and is otherwise as it was. A call that stores outside
its buffer has received more than the buffer holds, unless its very first `recv`
failed.
-/
import ExLibs.Network.Receive

namespace ExLibs.Network

/-- The number of bytes an outcome brings. -/
def RecvOutcome.bytes : RecvOutcome → ℕ
  | .got k => k
  | .closed | .failed | .noBufs => 0

@[simp] theorem RecvOutcome.bytes_got (k : ℕ) : (RecvOutcome.got k).bytes = k := rfl

@[simp] theorem RecvOutcome.bytes_closed : RecvOutcome.closed.bytes = 0 := rfl

@[simp] theorem RecvOutcome.bytes_failed : RecvOutcome.failed.bytes = 0 := rfl

@[simp] theorem RecvOutcome.bytes_noBufs : RecvOutcome.noBufs.bytes = 0 := rfl

/-- The number of bytes that a sequence of outcomes brings. -/
def received (outcomes : List RecvOutcome) : ℕ := (outcomes.map RecvOutcome.bytes).sum

/-- The number of failures that the loop of `Receive` counts: after `WSAENOBUFS`
it tries again. -/
def loopFailures (outcomes : List RecvOutcome) : ℕ := outcomes.count .failed

@[simp] theorem received_nil : received [] = 0 := rfl

@[simp] theorem received_cons (o : RecvOutcome) (outcomes : List RecvOutcome) :
    received (o :: outcomes) = o.bytes + received outcomes := by
  simp [received]

@[simp] theorem loopFailures_nil : loopFailures [] = 0 := rfl

@[simp] theorem loopFailures_cons (o : RecvOutcome) (outcomes : List RecvOutcome) :
    loopFailures (o :: outcomes) = (if o = .failed then 1 else 0) + loopFailures outcomes := by
  simp [loopFailures, List.count_cons, Nat.add_comm]

/-- Whether a `recv` comes back with -1. -/
def RecvOutcome.isError : RecvOutcome → Bool
  | .failed | .noBufs => true
  | .got _ | .closed => false

@[simp] theorem RecvOutcome.isError_got (k : ℕ) : (RecvOutcome.got k).isError = false := rfl

theorem RecvOutcome.bytes_eq_zero {o : RecvOutcome} (error : o.isError = true) : o.bytes = 0 := by
  cases o <;> first | rfl | cases error

/-- The number of failures that a call of `Receive` counts: any in the two reads
of the header, and those of the loop. -/
def failures : List RecvOutcome → ℕ
  | [] => 0
  | [o] => o.isError.toNat
  | o :: o' :: loop => o.isError.toNat + (o'.isError.toNat + loopFailures loop)

/-- The peer was found to have shut down while the header was read. -/
def HeaderClosed (outcomes : List RecvOutcome) : Prop :=
  outcomes = [.closed] ∨ ∃ o, outcomes = [o, .closed]

theorem not_headerClosed_cons {o o' : RecvOutcome} {loop : List RecvOutcome}
    (positive : 0 < received (o' :: loop)) : ¬ HeaderClosed (o :: o' :: loop) := by
  rintro (single | ⟨_, pair⟩)
  · cases single
  · cases pair
    simp at positive

/-- The read of the size failed. -/
def SizeFailed (outcomes : List RecvOutcome) : Prop := ∃ o ∈ outcomes.head?, o.isError = true

theorem failures_pos_of_sizeFailed {outcomes : List RecvOutcome} (failed : SizeFailed outcomes) :
    0 < failures outcomes := by
  obtain ⟨o, first, error⟩ := failed
  match outcomes, first with
  | [_], rfl => simp [failures, error]
  | _ :: _ :: _, rfl =>
    rw [failures, error, Bool.toNat_true]
    omega

/-- Writing where the front of a buffer ends replaces what follows it. -/
theorem overwrite_append (front tail bytes : List Byte) :
    overwrite (front ++ tail) front.length bytes =
      front ++ bytes ++ tail.drop bytes.length := by
  simp [overwrite]

theorem length_overwrite {pData bytes : List Byte} {offset : ℕ}
    (fits : offset + bytes.length ≤ pData.length) :
    (overwrite pData offset bytes).length = pData.length := by
  simp only [overwrite, List.length_append, List.length_take, List.length_drop]
  omega

namespace Reader

variable {r r' : Reader} {bytes pData : List Byte} {bReadFully : Bool}

theorem store_nil : r.store [] = some r.pData := rfl

theorem store_eq_some_iff (some_bytes : bytes ≠ []) :
    r.store bytes = some pData ↔
      0 ≤ r.total ∧ r.total.toNat + bytes.length ≤ r.pData.length ∧
        pData = overwrite r.pData r.total.toNat bytes := by
  rw [store, if_neg some_bytes]
  split
  · rename_i fits
    simp [fits, eq_comm]
  · rename_i outside
    simp only [reduceCtorEq, false_iff]
    exact fun fits => outside ⟨fits.1, fits.2.1⟩

theorem store_eq_none_iff (some_bytes : bytes ≠ []) :
    r.store bytes = none ↔ r.total < 0 ∨ r.pData.length < r.total.toNat + bytes.length := by
  rw [store, if_neg some_bytes]
  split <;> simp only [reduceCtorEq, false_iff, true_iff] <;> omega

/-- What arrives and does not fit lies before the buffer or beyond it. -/
theorem lt_of_store_eq_none {stream : List Byte} {k : ℕ} (arrived : k ≤ stream.length)
    (positive : 0 < k) (outside : r.store (stream.take k) = none) :
    r.total < 0 ∨ (r.pData.length : ℤ) < r.total + k := by
  have bound : (stream.take k).length = k := List.length_take_of_le arrived
  have some_bytes : stream.take k ≠ [] := by
    rw [← List.length_pos_iff_ne_nil, bound]
    exact positive
  have beyond := (store_eq_none_iff some_bytes).mp outside
  omega

/-- A store never changes the size of the buffer. -/
theorem length_of_store (stored : r.store bytes = some pData) :
    pData.length = r.pData.length := by
  by_cases some_bytes : bytes = []
  · subst some_bytes
    obtain rfl := Option.some.inj stored
    rfl
  · obtain ⟨-, fits, rfl⟩ := (store_eq_some_iff some_bytes).mp stored
    exact length_overwrite fits

/-- A store at the end of the front keeps the front and puts the bytes after it. -/
theorem store_append {front tail : List Byte} (split : r.pData = front ++ tail)
    (filled : r.total = front.length) (stored : r.store bytes = some pData) :
    bytes.length ≤ tail.length ∧ pData = front ++ bytes ++ tail.drop bytes.length := by
  by_cases some_bytes : bytes = []
  · subst some_bytes
    obtain rfl := Option.some.inj stored
    simp [split]
  · obtain ⟨-, fits, rfl⟩ := (store_eq_some_iff some_bytes).mp stored
    have offset : r.total.toNat = front.length := by omega
    rw [split, offset, List.length_append] at fits
    rw [split, offset, overwrite_append]
    exact ⟨by omega, rfl⟩

end Reader

/-- What a call has done from a `recv` on until it returned `n`: how many bytes
arrived, how many failures it counted, and the stream and the buffer it left. -/
structure Accounts (r : Reader) (stream : List Byte) (arrived failures : ℕ) (n : ℤ)
    (pData rest : List Byte) : Prop where
  total : n = r.total + arrived - failures
  enough : arrived ≤ stream.length
  inside : r.total < 0 → arrived = 0
  rest : rest = stream.drop arrived
  length : pData.length = r.pData.length
  content : failures = 0 → ∀ front tail, r.pData = front ++ tail → r.total = front.length →
    arrived ≤ tail.length ∧ pData = front ++ stream.take arrived ++ tail.drop arrived

namespace Accounts

variable {r r' : Reader} {stream rest pData : List Byte} {arrived failures : ℕ} {n : ℤ}

/-- A call that returns without another `recv`. -/
theorem done : Accounts r stream 0 0 r.total r.pData stream where
  total := by simp
  enough := by simp
  inside _ := rfl
  rest := by simp
  length := rfl
  content _ front tail split _ := by simp [split]

/-- An outcome that brings nothing and counts as `error` failures. -/
theorem idle (later : Accounts r' stream arrived failures n pData rest) (error : ℕ)
    (counted : r'.total = r.total - error) (kept : r'.pData = r.pData) :
    Accounts r stream arrived (error + failures) n pData rest where
  total := by
    rw [later.total, counted]
    omega
  enough := later.enough
  inside negative := later.inside (by omega)
  rest := later.rest
  length := by rw [later.length, kept]
  content none_failed front tail split filled :=
    later.content (by omega) front tail (kept.trans split) (by omega)

/-- Bytes that arrive and are stored. -/
theorem stored {k : ℕ} (later : Accounts r' (stream.drop k) arrived failures n pData rest)
    (enough : k ≤ stream.length) (positive : 0 < k) (counted : r'.total = r.total + k)
    (fits : r.store (stream.take k) = some r'.pData) :
    Accounts r stream (k + arrived) failures n pData rest := by
  have bound : (stream.take k).length = k := by
    rw [List.length_take]
    omega
  have some_bytes : stream.take k ≠ [] := by
    rw [← List.length_pos_iff_ne_nil, bound]
    exact positive
  have behind := later.enough
  rw [List.length_drop] at behind
  refine ⟨?_, by omega, ?_, ?_, ?_, ?_⟩
  · rw [later.total, counted]
    omega
  · intro negative
    have := ((Reader.store_eq_some_iff some_bytes).mp fits).1
    omega
  · rw [later.rest, List.drop_drop]
  · rw [later.length, Reader.length_of_store fits]
  · intro none_failed front tail split filled
    obtain ⟨room, written⟩ := Reader.store_append split filled fits
    rw [bound] at room written
    obtain ⟨room', final⟩ := later.content none_failed (front ++ stream.take k) (tail.drop k)
      written (by
        rw [counted, filled, List.length_append, bound]
        omega)
    rw [List.length_drop] at room'
    refine ⟨by omega, ?_⟩
    rw [final, List.take_add, List.drop_drop]
    simp only [List.append_assoc]

end Accounts

namespace Reader

variable {r : Reader} {stream : List Byte} {outcomes left : List RecvOutcome} {n : ℤ}
  {pData rest : List Byte} {bReadFully : Bool}

theorem again_eq_more {r' : Reader} (goes_on : again bReadFully r = .more r') : r' = r := by
  unfold again at goes_on
  split at goes_on
  · exact (Progress.more.inj goes_on).symm
  · cases goes_on

theorem again_eq_ret (stops : again bReadFully r = .ret n pData) :
    n = r.total ∧ pData = r.pData := by
  unfold again at stops
  split at stops
  · cases stops
  · obtain ⟨rfl, rfl⟩ := Progress.ret.inj stops
    exact ⟨rfl, rfl⟩

theorem again_ne_overrun : again bReadFully r ≠ .overrun := by
  unfold again
  split <;> simp

/-- What the loop makes of an outcome of its `recv`: how the call goes on and
what is left of the stream. -/
inductive LoopStep (bReadFully : Bool) (r : Reader) (stream : List Byte) :
    RecvOutcome → Progress → List Byte → Prop
  | shut {o : RecvOutcome} (no_bytes : o.bytes = 0) (not_failed : o ≠ .failed)
      (asked : o = .got 0 → r.len = 0) :
      LoopStep bReadFully r stream o (.ret r.total r.pData) stream
  | failed :
      LoopStep bReadFully r stream .failed (again bReadFully { r with total := r.total - 1 }) stream
  | retried :
      LoopStep bReadFully r stream .noBufs (again bReadFully { r with tries := r.tries + 1 }) stream
  | stored {k : ℕ} {pData : List Byte} (asked : k ≤ r.len) (arrived : k ≤ stream.length)
      (positive : 0 < k) (fits : r.store (stream.take k) = some pData) :
      LoopStep bReadFully r stream (.got k)
        (again bReadFully { r with total := r.total + k, pData := pData }) (stream.drop k)
  | overran {k : ℕ} (asked : k ≤ r.len) (arrived : k ≤ stream.length) (positive : 0 < k)
      (outside : r.store (stream.take k) = none) :
      LoopStep bReadFully r stream (.got k) .overrun (stream.drop k)

theorem loopStep_of_recv (bReadFully : Bool) (looping : r.point = .body) {o : RecvOutcome}
    {res : RecvResult} (received : recv stream r.len o = some (res, rest)) :
    LoopStep bReadFully r stream o (r.resume bReadFully res) rest := by
  cases o with
  | got k =>
    simp only [recv, Option.ite_none_right_eq_some, Option.some.injEq, Prod.mk.injEq] at received
    obtain ⟨⟨asked, arrived, zero⟩, rfl, rfl⟩ := received
    have bound : (stream.take k).length = k := by
      rw [List.length_take]
      omega
    rcases Nat.eq_zero_or_pos k with rfl | positive
    · simp only [resume, RecvResult.bytes, RecvResult.count, List.take_zero, store_nil, looping,
        List.length_nil, Nat.cast_zero, if_true, List.drop_zero]
      exact .shut rfl (by simp) fun _ => zero rfl
    · simp only [resume, RecvResult.bytes, RecvResult.count, bound, looping]
      cases fits : r.store (stream.take k) with
      | none => exact .overran asked arrived positive fits
      | some pData =>
        simp only [Nat.cast_eq_zero, positive.ne', reduceCtorEq, if_false]
        simpa only [looping] using LoopStep.stored asked arrived positive fits
  | closed =>
    obtain ⟨rfl, rfl⟩ := Prod.mk.inj (Option.some.inj received)
    simp only [resume, RecvResult.bytes, RecvResult.count, store_nil, looping, List.length_nil,
      Nat.cast_zero, if_true]
    exact .shut rfl (by simp) (by simp)
  | failed =>
    obtain ⟨rfl, rfl⟩ := Prod.mk.inj (Option.some.inj received)
    simp only [resume, RecvResult.bytes, RecvResult.count, store_nil, looping, reduceCtorEq,
      if_false, neg_eq_zero, one_ne_zero, ← Int.sub_eq_add_neg]
    simpa only [looping] using @LoopStep.failed bReadFully r stream
  | noBufs =>
    obtain ⟨rfl, rfl⟩ := Prod.mk.inj (Option.some.inj received)
    simp only [resume, RecvResult.bytes, RecvResult.count, store_nil, looping,
      if_false, if_true, neg_eq_zero, one_ne_zero]
    split
    · simpa only [looping] using @LoopStep.retried bReadFully r stream
    · exact .shut rfl (by simp) (by simp)

/-- The loop accounts for every outcome it used. -/
theorem accounts_of_run (looping : r.point = .body)
    (returns : r.run bReadFully stream outcomes = .returned n pData rest left) :
    ∃ used, used ≠ [] ∧ outcomes = used ++ left ∧
      Accounts r stream (received used) (loopFailures used) n pData rest := by
  induction outcomes generalizing r stream with
  | nil => simp [run] at returns
  | cons o outcomes ih =>
    -- past the iteration, the call is at the foot of the loop
    have onward (r' : Reader) (looping' : r'.point = .body) (stream' : List Byte)
        (returns' : (again bReadFully r').carryOn bReadFully stream' outcomes =
          .returned n pData rest left) :
        ∃ used, outcomes = used ++ left ∧
          Accounts r' stream' (received used) (loopFailures used) n pData rest := by
      cases foot : again bReadFully r' with
      | more r'' =>
        obtain rfl := again_eq_more foot
        obtain ⟨used, -, split, later⟩ := ih looping' (by rwa [foot] at returns')
        exact ⟨used, split, later⟩
      | ret n' pData' =>
        obtain ⟨rfl, rfl⟩ := again_eq_ret foot
        rw [foot] at returns'
        obtain ⟨rfl, rfl, rfl, rfl⟩ := ReceiveEnd.returned.inj returns'
        exact ⟨[], rfl, .done⟩
      | overrun => exact absurd foot again_ne_overrun
    obtain ⟨res, rest', result⟩ := exists_recv (by rw [returns]; simp)
    have iteration := loopStep_of_recv bReadFully looping result
    rw [run_cons outcomes result] at returns
    generalize r.resume bReadFully res = progress at iteration returns
    cases iteration with
    | shut no_bytes not_failed =>
      obtain ⟨rfl, rfl, rfl, rfl⟩ := ReceiveEnd.returned.inj returns
      refine ⟨[o], by simp, rfl, ?_⟩
      simpa [no_bytes, not_failed] using @Accounts.done r stream
    | failed =>
      obtain ⟨used, rfl, later⟩ := onward { r with total := r.total - 1 } looping _ returns
      refine ⟨.failed :: used, by simp, rfl, ?_⟩
      simpa using @Accounts.idle r _ _ _ _ _ _ _ later 1 rfl rfl
    | retried =>
      obtain ⟨used, rfl, later⟩ := onward { r with tries := r.tries + 1 } looping _ returns
      refine ⟨.noBufs :: used, by simp, rfl, ?_⟩
      simpa using @Accounts.idle r _ _ _ _ _ _ _ later 0 (by simp) rfl
    | @stored k pData' asked arrived positive fits =>
      obtain ⟨used, rfl, later⟩ :=
        onward { r with total := r.total + k, pData := pData' } looping _ returns
      refine ⟨.got k :: used, by simp, rfl, ?_⟩
      simpa using later.stored arrived positive rfl fits
    | overran => cases returns

/-- A loop that stores outside the buffer has received something. Unless it
started before the buffer, it has received more than was left of the buffer, even
with the failures taken off. -/
theorem received_of_run_overrun (looping : r.point = .body) (limited : r.uMaxSize < 2 ^ 63)
    (above : -2 ≤ r.total) (overruns : r.run bReadFully stream outcomes = .overrun left) :
    ∃ used, used ≠ [] ∧ outcomes = used ++ left ∧ 0 < received used ∧
      (0 ≤ r.total → r.pData.length < r.total + received used - loopFailures used) := by
  induction outcomes generalizing r stream with
  | nil => simp [run] at overruns
  | cons o outcomes ih =>
    -- the loop goes on from a total inside the buffer only
    have onward (r' : Reader) (looping' : r'.point = .body) (above' : -3 ≤ r'.total)
        (limited' : r'.uMaxSize < 2 ^ 63) (stream' : List Byte)
        (overruns' : (again bReadFully r').carryOn bReadFully stream' outcomes =
          .overrun left) :
        ∃ used, outcomes = used ++ left ∧ 0 < received used ∧
          r'.pData.length < r'.total + received used - loopFailures used := by
      cases foot : again bReadFully r' with
      | more r'' =>
        obtain rfl := again_eq_more foot
        have inside : 0 ≤ r''.total := by
          -- a negative total converts to a number past every limit
          by_contra negative
          rw [again, if_neg] at foot
          · cases foot
          · rw [sizeT]
            omega
        obtain ⟨used, -, split, positive, beyond⟩ :=
          ih looping' limited' (by omega) (by rwa [foot] at overruns')
        exact ⟨used, split, positive, beyond inside⟩
      | ret n' pData' =>
        rw [foot] at overruns'
        cases overruns'
      | overrun => exact absurd foot again_ne_overrun
    obtain ⟨res, rest', result⟩ := exists_recv (by rw [overruns]; simp)
    have iteration := loopStep_of_recv bReadFully looping result
    rw [run_cons outcomes result] at overruns
    generalize r.resume bReadFully res = progress at iteration overruns
    cases iteration with
    | shut => cases overruns
    | failed =>
      obtain ⟨used, rfl, positive, beyond⟩ := onward { r with total := r.total - 1 } looping
        (show -3 ≤ r.total - 1 by omega) limited _ overruns
      refine ⟨.failed :: used, by simp, rfl, ?_⟩
      simp only [received_cons, loopFailures_cons, RecvOutcome.bytes_failed, if_true] at beyond ⊢
      omega
    | retried =>
      obtain ⟨used, rfl, positive, beyond⟩ := onward { r with tries := r.tries + 1 } looping
        (show -3 ≤ r.total by omega) limited _ overruns
      refine ⟨.noBufs :: used, by simp, rfl, ?_⟩
      simp only [received_cons, loopFailures_cons, RecvOutcome.bytes_noBufs, reduceCtorEq,
        if_false]
        at beyond ⊢
      omega
    | @stored k pData' asked arrived positive fits =>
      obtain ⟨used, rfl, positive', beyond⟩ :=
        onward { r with total := r.total + k, pData := pData' } looping
          (show -3 ≤ r.total + k by omega) limited _ overruns
      refine ⟨.got k :: used, by simp, rfl, ?_⟩
      have same := length_of_store fits
      simp only [received_cons, loopFailures_cons, RecvOutcome.bytes_got, reduceCtorEq, if_false]
        at beyond ⊢
      omega
    | @overran k asked arrived positive outside =>
      obtain rfl := ReceiveEnd.overrun.inj overruns
      refine ⟨[.got k], by simp, rfl, ?_⟩
      have beyond := lt_of_store_eq_none arrived positive outside
      simp only [received_cons, received_nil, loopFailures_cons, loopFailures_nil,
        RecvOutcome.bytes, reduceCtorEq, if_false]
      omega

/-- Where a call goes from a `recv` of the header that returned `count`. -/
def pastHeader (r : Reader) (count : ℤ) (pData : List Byte) : Reader :=
  if r.point = .size then ⟨.msgId, r.total + count, limit pData r.uMaxSize, r.tries, pData⟩
  else ⟨.body, r.total + count, r.uMaxSize, r.tries, pData⟩

@[simp] theorem total_pastHeader (r : Reader) (count : ℤ) (pData : List Byte) :
    (r.pastHeader count pData).total = r.total + count := by
  unfold pastHeader
  split <;> rfl

@[simp] theorem pData_pastHeader (r : Reader) (count : ℤ) (pData : List Byte) :
    (r.pastHeader count pData).pData = pData := by
  unfold pastHeader
  split <;> rfl

theorem point_pastHeader_of_size (atSize : r.point = .size) (count : ℤ) (pData : List Byte) :
    (r.pastHeader count pData).point = .msgId := by
  rw [pastHeader, if_pos atSize]

theorem point_pastHeader_of_msgId (atMsgId : r.point = .msgId) (count : ℤ) (pData : List Byte) :
    (r.pastHeader count pData).point = .body := by
  rw [pastHeader, if_neg (by simp [atMsgId])]

theorem limit_lt (pData : List Byte) {uSize : ℕ} (bounded : uSize < 2 ^ 63) :
    limit pData uSize < 2 ^ 63 := by
  unfold limit
  split
  · exact (BitVec.isLt _).trans (by norm_num)
  · exact bounded

theorem uMaxSize_pastHeader_lt (count : ℤ) (pData : List Byte) (bounded : r.uMaxSize < 2 ^ 63) :
    (r.pastHeader count pData).uMaxSize < 2 ^ 63 := by
  unfold pastHeader
  split
  · exact limit_lt pData bounded
  · exact bounded

/-- What the two reads of the header make of an outcome of their `recv`. -/
inductive HeaderStep (r : Reader) (stream : List Byte) :
    RecvOutcome → Progress → List Byte → Prop
  | shut : HeaderStep r stream .closed (.ret 0 r.pData) stream
  | failed {o : RecvOutcome} (error : o.isError = true) :
      HeaderStep r stream o (.more (r.pastHeader (-1) r.pData)) stream
  | stored {k : ℕ} {pData : List Byte} (asked : k ≤ 4) (arrived : k ≤ stream.length)
      (positive : 0 < k) (fits : r.store (stream.take k) = some pData) :
      HeaderStep r stream (.got k) (.more (r.pastHeader k pData)) (stream.drop k)
  | overran {k : ℕ} (asked : k ≤ 4) (arrived : k ≤ stream.length) (positive : 0 < k)
      (outside : r.store (stream.take k) = none) :
      HeaderStep r stream (.got k) .overrun (stream.drop k)

/-- The two reads of the header go on alike. -/
theorem resume_header (header : r.point = .size ∨ r.point = .msgId) (res : RecvResult) :
    r.resume bReadFully res =
      match r.store res.bytes with
      | none => .overrun
      | some pData =>
        if res.count = 0 then .ret 0 pData else .more (r.pastHeader res.count pData) := by
  unfold resume pastHeader
  cases r.store res.bytes with
  | none => rfl
  | some pData => rcases header with point | point <;> simp only [point, if_true, reduceCtorEq,
      if_false]

theorem headerStep_of_recv (bReadFully : Bool) (header : r.point = .size ∨ r.point = .msgId)
    {o : RecvOutcome} {res : RecvResult} (received : recv stream r.len o = some (res, rest)) :
    HeaderStep r stream o (r.resume bReadFully res) rest := by
  rw [resume_header header]
  cases o with
  | got k =>
    have four : r.len = 4 := by
      unfold len
      rcases header with point | point <;> rw [point]
    simp only [recv, four, Option.ite_none_right_eq_some, Option.some.injEq, Prod.mk.injEq,
      OfNat.ofNat_ne_zero, imp_false] at received
    obtain ⟨⟨asked, arrived, nonzero⟩, rfl, rfl⟩ := received
    have positive : 0 < k := Nat.pos_of_ne_zero nonzero
    have bound : (stream.take k).length = k := by
      rw [List.length_take]
      omega
    simp only [RecvResult.bytes, RecvResult.count, bound, Nat.cast_eq_zero, nonzero, if_false]
    cases fits : r.store (stream.take k) with
    | none => exact .overran asked arrived positive fits
    | some pData => exact .stored asked arrived positive fits
  | closed =>
    obtain ⟨rfl, rfl⟩ := Prod.mk.inj (Option.some.inj received)
    exact .shut
  | failed =>
    obtain ⟨rfl, rfl⟩ := Prod.mk.inj (Option.some.inj received)
    exact .failed rfl
  | noBufs =>
    obtain ⟨rfl, rfl⟩ := Prod.mk.inj (Option.some.inj received)
    exact .failed rfl

/-- From the read of the id on, a call that returns found the peer gone at once
or accounts for every outcome it used. -/
theorem accounts_of_run_msgId (header : r.point = .msgId)
    (returns : r.run bReadFully stream outcomes = .returned n pData rest left) :
    ∃ o loop, outcomes = o :: loop ++ left ∧
      ((o = .closed ∧ loop = [] ∧ n = 0 ∧ rest = stream) ∨
        (loop ≠ [] ∧ Accounts r stream (received (o :: loop)) (o.isError.toNat + loopFailures loop)
          n pData rest)) := by
  cases outcomes with
  | nil => simp [run] at returns
  | cons o outcomes =>
    obtain ⟨res, rest', result⟩ := exists_recv (by rw [returns]; simp)
    have iteration := headerStep_of_recv bReadFully (.inr header) result
    rw [run_cons outcomes result] at returns
    generalize r.resume bReadFully res = progress at iteration returns
    cases iteration with
    | shut =>
      obtain ⟨rfl, rfl, rfl, rfl⟩ := ReceiveEnd.returned.inj returns
      exact ⟨.closed, [], rfl, .inl ⟨rfl, rfl, rfl, rfl⟩⟩
    | failed error =>
      obtain ⟨loop, some_loop, rfl, later⟩ :=
        accounts_of_run (point_pastHeader_of_msgId header _ _) returns
      have no_bytes := RecvOutcome.bytes_eq_zero error
      refine ⟨o, loop, rfl, .inr ⟨some_loop, ?_⟩⟩
      simpa [error, no_bytes] using later.idle 1 (by simp; omega) (by simp)
    | stored asked arrived positive fits =>
      obtain ⟨loop, some_loop, rfl, later⟩ :=
        accounts_of_run (point_pastHeader_of_msgId header _ _) returns
      refine ⟨_, loop, rfl, .inr ⟨some_loop, ?_⟩⟩
      simpa [RecvOutcome.isError_got] using
        later.stored arrived positive (by simp) (by simpa using fits)
    | overran => cases returns

/-- A call that returns found the peer gone while it read the header, or accounts
for every outcome it used; it received nothing if the read of the size failed. -/
theorem accounts_of_run_start {buffer : List Byte}
    (returns : (start buffer).run bReadFully stream outcomes = .returned n pData rest left) :
    ∃ used, outcomes = used ++ left ∧
      ((HeaderClosed used ∧ n = 0 ∧ rest = stream.drop (received used)) ∨
        (¬ HeaderClosed used ∧
          Accounts (start buffer) stream (received used) (failures used) n pData rest ∧
          (SizeFailed used → received used = 0))) := by
  have header : (start buffer).point = .size := rfl
  cases outcomes with
  | nil => simp [run] at returns
  | cons o outcomes =>
    obtain ⟨res, rest', result⟩ := exists_recv (by rw [returns]; simp)
    have iteration := headerStep_of_recv bReadFully (.inl header) result
    rw [run_cons outcomes result] at returns
    generalize (start buffer).resume bReadFully res = progress at iteration returns
    cases iteration with
    | shut =>
      obtain ⟨rfl, rfl, rfl, rfl⟩ := ReceiveEnd.returned.inj returns
      exact ⟨[.closed], rfl, .inl ⟨.inl rfl, rfl, rfl⟩⟩
    | failed error =>
      have no_bytes := RecvOutcome.bytes_eq_zero error
      obtain ⟨o', loop, rfl, ⟨rfl, rfl, rfl, rfl⟩ | ⟨some_loop, later⟩⟩ :=
        accounts_of_run_msgId (point_pastHeader_of_size header _ _) returns
      · refine ⟨[o, .closed], rfl, .inl ⟨.inr ⟨o, rfl⟩, rfl, ?_⟩⟩
        simp [no_bytes]
      · refine ⟨o :: o' :: loop, rfl, .inr ⟨by simp [HeaderClosed, some_loop], ?_, fun _ => ?_⟩⟩
        · simpa [failures, error, no_bytes] using later.idle 1 (by simp; omega) (by simp)
        · have nothing := later.inside (by simp [start])
          rwa [received_cons, no_bytes, Nat.zero_add]
    | @stored k pData' asked arrived positive fits =>
      obtain ⟨o', loop, rfl, ⟨rfl, rfl, rfl, rfl⟩ | ⟨some_loop, later⟩⟩ :=
        accounts_of_run_msgId (point_pastHeader_of_size header _ _) returns
      · refine ⟨[.got k, .closed], rfl, .inl ⟨.inr ⟨_, rfl⟩, rfl, ?_⟩⟩
        simp [RecvOutcome.bytes]
      · refine ⟨.got k :: o' :: loop, rfl, .inr ⟨by simp [HeaderClosed, some_loop], ?_, ?_⟩⟩
        · simpa [failures, RecvOutcome.isError_got] using
            later.stored arrived positive (by simp) (by simpa using fits)
        · simp [SizeFailed, RecvOutcome.isError_got]
    | overran => cases returns

/-- The same account of a call that, from the read of the id on, stores outside
its buffer. -/
theorem received_of_run_msgId_overrun (header : r.point = .msgId) (limited : r.uMaxSize < 2 ^ 63)
    (above : -1 ≤ r.total) (overruns : r.run bReadFully stream outcomes = .overrun left) :
    ∃ o loop, outcomes = o :: loop ++ left ∧ 0 < received (o :: loop) ∧
      (1 ≤ r.total → (r.pData.length : ℤ) <
        r.total + received (o :: loop) - (o.isError.toNat + loopFailures loop)) := by
  cases outcomes with
  | nil => simp [run] at overruns
  | cons o outcomes =>
    obtain ⟨res, rest', result⟩ := exists_recv (by rw [overruns]; simp)
    have iteration := headerStep_of_recv bReadFully (.inr header) result
    rw [run_cons outcomes result] at overruns
    generalize r.resume bReadFully res = progress at iteration overruns
    cases iteration with
    | shut => cases overruns
    | failed error =>
      have no_bytes := RecvOutcome.bytes_eq_zero error
      obtain ⟨loop, -, rfl, positive, beyond⟩ :=
        received_of_run_overrun (point_pastHeader_of_msgId header _ _)
          (uMaxSize_pastHeader_lt _ _ limited) (by simp; omega) overruns
      refine ⟨o, loop, rfl, by simpa [no_bytes] using positive, fun inside => ?_⟩
      rw [total_pastHeader, pData_pastHeader] at beyond
      simp only [received_cons, no_bytes, error, Bool.toNat_true]
      omega
    | stored asked arrived positive fits =>
      obtain ⟨loop, -, rfl, positive', beyond⟩ :=
        received_of_run_overrun (point_pastHeader_of_msgId header _ _)
          (uMaxSize_pastHeader_lt _ _ limited) (by simp; omega) overruns
      refine ⟨_, loop, rfl, by simp; omega, fun inside => ?_⟩
      rw [total_pastHeader, pData_pastHeader, length_of_store fits] at beyond
      simp only [received_cons, RecvOutcome.bytes_got, RecvOutcome.isError_got, Bool.toNat_false]
      omega
    | @overran k asked arrived positive outside =>
      obtain rfl := ReceiveEnd.overrun.inj overruns
      refine ⟨.got k, [], rfl, by simpa using positive, fun inside => ?_⟩
      have beyond := lt_of_store_eq_none arrived positive outside
      simp only [received_cons, received_nil, RecvOutcome.bytes_got, RecvOutcome.isError,
        Bool.toNat_false, loopFailures_nil]
      omega

/-- A call that stores outside its buffer has received something after its read
of the size failed, or more than the buffer holds even with the failures taken
off. -/
theorem received_of_run_start_overrun {buffer : List Byte} (bounded : buffer.length < 2 ^ 63)
    (overruns : (start buffer).run bReadFully stream outcomes = .overrun left) :
    ∃ used, outcomes = used ++ left ∧ ¬ HeaderClosed used ∧ 0 < received used ∧
      (SizeFailed used ∨ (buffer.length : ℤ) < received used - failures used) := by
  have header : (start buffer).point = .size := rfl
  cases outcomes with
  | nil => simp [run] at overruns
  | cons o outcomes =>
    obtain ⟨res, rest', result⟩ := exists_recv (by rw [overruns]; simp)
    have iteration := headerStep_of_recv bReadFully (.inl header) result
    rw [run_cons outcomes result] at overruns
    generalize (start buffer).resume bReadFully res = progress at iteration overruns
    cases iteration with
    | shut => cases overruns
    | failed error =>
      obtain ⟨o', loop, rfl, positive, -⟩ :=
        received_of_run_msgId_overrun (point_pastHeader_of_size header _ _)
          (uMaxSize_pastHeader_lt _ _ bounded) (by simp [start]) overruns
      refine ⟨o :: o' :: loop, rfl, ?_, ?_, .inl ⟨o, rfl, error⟩⟩
      · exact not_headerClosed_cons positive
      · rw [received_cons]
        omega
    | stored asked arrived positive fits =>
      obtain ⟨o', loop, rfl, positive', beyond⟩ :=
        received_of_run_msgId_overrun (point_pastHeader_of_size header _ _)
          (uMaxSize_pastHeader_lt _ _ bounded) (by simp [start]) overruns
      refine ⟨_ :: o' :: loop, rfl, not_headerClosed_cons positive', ?_, .inr ?_⟩
      · rw [received_cons]
        omega
      · rw [total_pastHeader, pData_pastHeader, length_of_store fits] at beyond
        rw [received_cons (.got _), RecvOutcome.bytes_got]
        simp only [failures, RecvOutcome.isError_got, Bool.toNat_false, Nat.zero_add]
        simp only [start] at beyond
        omega
    | @overran k asked arrived positive outside =>
      obtain rfl := ReceiveEnd.overrun.inj overruns
      have beyond := lt_of_store_eq_none arrived positive outside
      simp only [start] at beyond
      refine ⟨[.got k], rfl, by simp [HeaderClosed], by simpa using positive, .inr ?_⟩
      simp only [received_cons, received_nil, RecvOutcome.bytes_got, failures,
        RecvOutcome.isError_got, Bool.toNat_false]
      omega

end Reader

end ExLibs.Network
