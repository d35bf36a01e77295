/-
# Receiving in chunks

When no `recv` fails, a call of `Receive` reads its header in two chunks and then
loops on further ones. The first chunk fixes the limit, from as many bytes of the
size word as it brings. The loop fills up to the limit if the header has not passed
it, and otherwise takes one more chunk of any length.
-/
import ExLibs.Network.Accounting

namespace ExLibs.Network

open ExLibs.Math

/-! ### The size word after the first chunk -/

theorem nTotalSize_cons (b₀ b₁ b₂ b₃ : Byte) (tail : List Byte) :
    nTotalSize (b₀ :: b₁ :: b₂ :: b₃ :: tail) = (BigEndian.signedWord b₀ b₁ b₂ b₃).toNat := rfl

/-- What the first `j` of its four bytes tell about a size: the missing ones count
as zero. -/
def cutSize (size j : ℕ) : ℕ := size / 256 ^ (4 - j) * 256 ^ (4 - j)

theorem cutSize_le (size j : ℕ) : cutSize size j ≤ size := Nat.div_mul_le_self ..

theorem cutSize_four (size : ℕ) : cutSize size 4 = size := by simp [cutSize]

theorem lt_of_cutSize_eq_zero {size j : ℕ} (unknown : cutSize size j = 0) :
    size < 256 ^ (4 - j) := by
  have positive : 0 < 256 ^ (4 - j) := Nat.pow_pos (by norm_num)
  rcases Nat.mul_eq_zero.mp unknown with small | none_left
  · exact Nat.lt_of_div_eq_zero positive small
  · omega

theorem le_cutSize {size j : ℕ} (known : 0 < cutSize size j) : 256 ^ (4 - j) ≤ cutSize size j :=
  Nat.le_of_dvd known (Nat.dvd_mul_left ..)

/-- When the first chunk brings `j` bytes of a size, the reader knows the cut size,
unless a byte from 128 on after the first has spoilt the number. -/
theorem nTotalSize_cut {size j room : ℕ} (chunk : 1 ≤ j ∧ j ≤ 4) (small : size < 2 ^ 24) :
    nTotalSize ((BigEndian.bytes (BitVec.ofNat 32 size)).take j ++
        (List.replicate (room + 4) 0).drop j) = cutSize size j ∨
      2 ≤ j ∧ 128 ≤ size ∧ 2 ^ 32 - 2 ^ 23 ≤
        nTotalSize ((BigEndian.bytes (BitVec.ofNat 32 size)).take j ++
          (List.replicate (room + 4) 0).drop j) := by
  have zeros : List.replicate (room + 4) (0 : Byte) = 0 :: 0 :: 0 :: 0 :: List.replicate room 0 :=
    rfl
  have zero : (0 : Byte).toNat = 0 := rfl
  have digit (shift : ℕ) : (BigEndian.byteAt (BitVec.ofNat 32 size) shift).toNat =
      size / 2 ^ shift % 256 := by
    rw [BigEndian.toNat_byteAt, BitVec.toNat_ofNat, Nat.mod_eq_of_lt (show size < 2 ^ 32 by omega)]
  obtain rfl | rfl | rfl | rfl : j = 1 ∨ j = 2 ∨ j = 3 ∨ j = 4 := by omega
  all_goals
    simp only [zeros, BigEndian.bytes, List.take_succ_cons, List.take_zero, List.drop_succ_cons,
      List.drop_zero, List.cons_append, List.nil_append, nTotalSize_cons]
    refine (BigEndian.toNat_signedWord _ _ _ _).imp (fun low => ?_) (fun high => ⟨?_, ?_, high.2⟩)
    · rw [low, BigEndian.toNat_word]
      simp only [digit, zero, cutSize]
      omega
    all_goals
      have spoilt := high.1
      simp only [digit, zero] at spoilt
      omega

/-! ### The loop on chunks -/

namespace Reader

variable {r : Reader} {stream rest pData : List Byte} {left : List RecvOutcome} {n : ℤ}

theorem again_of_lt (below : sizeT r.total < r.uMaxSize) : again true r = .more r := by
  rw [again, if_pos ⟨rfl, below⟩]

theorem again_of_le {bReadFully : Bool} (reached : r.uMaxSize ≤ sizeT r.total) :
    again bReadFully r = .ret r.total r.pData := by
  rw [again, if_neg]
  rintro ⟨-, below⟩
  omega

/-- Fed with chunks, the loop fills up to its limit, or stands at its limit and
asks for nothing once, or is past its limit and asks once. -/
theorem loop_of_chunks (looping : r.point = .body) {cs : List ℕ} (inside : 0 ≤ r.total)
    (within : r.total ≤ r.pData.length) (bounded : r.pData.length < 2 ^ 63)
    (limited : r.uMaxSize < 2 ^ 63)
    (returns : r.run true stream (cs.map .got) = .returned n pData rest left) :
    ∃ used later, cs = used ++ later ∧ left = later.map .got ∧ rest = stream.drop used.sum ∧
      used.sum ≤ stream.length ∧
      (r.total < r.uMaxSize ∧ r.total + used.sum = r.uMaxSize ∧ (∀ k ∈ used, 0 < k) ∨
        r.total = r.uMaxSize ∧ used = [0] ∨
        r.uMaxSize < r.total ∧ ∃ k, 0 < k ∧ used = [k]) := by
  have len : r.len = sizeT (r.uMaxSize - r.total) := by simp only [Reader.len, looping]
  induction cs generalizing r stream with
  | nil => simp [run] at returns
  | cons k cs ih =>
    obtain ⟨res, rest', result⟩ := exists_recv
      (by rw [List.map_cons] at returns; rw [returns]; simp)
    have iteration := loopStep_of_recv true looping result
    rw [List.map_cons, run_cons _ result] at returns
    generalize r.resume true res = progress at iteration returns
    cases iteration with
    | shut no_bytes _ asked =>
      obtain ⟨rfl, rfl, rfl, rfl⟩ := ReceiveEnd.returned.inj returns
      obtain rfl : k = 0 := no_bytes
      have none_asked := asked rfl
      rw [len, sizeT] at none_asked
      exact ⟨[0], cs, rfl, rfl, rfl, Nat.zero_le _, .inr (.inl ⟨by omega, rfl⟩)⟩
    | @stored _ pData' asked arrived positive fits =>
      have same := length_of_store fits
      have reached : r.total + k ≤ r.pData.length := by
        have bound : (stream.take k).length = k := List.length_take_of_le arrived
        have some_bytes : stream.take k ≠ [] := by
          rw [← List.length_pos_iff_ne_nil, bound]
          exact positive
        have := (store_eq_some_iff some_bytes).mp fits
        omega
      rw [len, sizeT] at asked
      by_cases filled : r.total + k < r.uMaxSize
      · rw [again_of_lt (show sizeT (r.total + k) < r.uMaxSize by rw [sizeT]; omega)] at returns
        obtain ⟨used, later, rfl, rfl, rfl, enough, shape⟩ :=
          ih (r := { r with total := r.total + k, pData := pData' }) looping
            (show 0 ≤ r.total + k by omega) (show r.total + k ≤ pData'.length by omega)
            (show pData'.length < 2 ^ 63 by omega) limited returns
            (by simp only [Reader.len, looping])
        simp only at shape
        rw [List.length_drop] at enough
        refine ⟨k :: used, later, rfl, rfl, by rw [List.drop_drop, List.sum_cons], ?_, .inl ?_⟩
        · rw [List.sum_cons]
          omega
        obtain ⟨-, total, all⟩ | ⟨stands, -⟩ | ⟨past, -⟩ := shape
        · refine ⟨by omega, by rw [List.sum_cons]; omega, ?_⟩
          exact List.forall_mem_cons.mpr ⟨positive, all⟩
        · omega
        · omega
      · rw [again_of_le (show r.uMaxSize ≤ sizeT (r.total + k) by rw [sizeT]; omega)] at returns
        obtain ⟨rfl, rfl, rfl, rfl⟩ := ReceiveEnd.returned.inj returns
        refine ⟨[k], cs, rfl, rfl, by simp, by simpa using arrived, ?_⟩
        by_cases past : r.uMaxSize < r.total
        · exact .inr (.inr ⟨past, k, positive, rfl⟩)
        · exact .inl ⟨by omega, by simp; omega, by simpa using positive⟩
    | overran => cases returns

/-- A chunk that was asked for is stored when it fits. -/
theorem recv_got {k : ℕ} (positive : 0 < k) (asked : k ≤ r.len) (arrived : k ≤ stream.length) :
    recv stream r.len (.got k) = some (.data (stream.take k), stream.drop k) := by
  rw [recv, if_pos ⟨asked, arrived, fun none_asked => absurd none_asked positive.ne'⟩]

theorem exists_store {k : ℕ} (positive : 0 < k) (arrived : k ≤ stream.length)
    (inside : 0 ≤ r.total) (fits : r.total + k ≤ r.pData.length) :
    ∃ pData, r.store (stream.take k) = some pData ∧ pData.length = r.pData.length := by
  cases stored : r.store (stream.take k) with
  | none =>
    have := lt_of_store_eq_none arrived positive stored
    omega
  | some pData => exact ⟨pData, rfl, length_of_store stored⟩

/-- One chunk in the loop. -/
theorem run_loop_got (looping : r.point = .body) {k : ℕ} (positive : 0 < k) (asked : k ≤ r.len)
    (arrived : k ≤ stream.length) (inside : 0 ≤ r.total) (fits : r.total + k ≤ r.pData.length)
    (outcomes : List RecvOutcome) :
    ∃ pData, pData.length = r.pData.length ∧ r.run true stream (.got k :: outcomes) =
      (again true { r with total := r.total + k, pData := pData }).carryOn true (stream.drop k)
        outcomes := by
  obtain ⟨pData, stored, same⟩ := exists_store positive arrived inside fits
  refine ⟨pData, same, ?_⟩
  have bound : (stream.take k).length = k := List.length_take_of_le arrived
  rw [run_cons outcomes (recv_got positive asked arrived)]
  simp only [resume, RecvResult.bytes, stored, looping, RecvResult.count, bound, Nat.cast_eq_zero,
    positive.ne', if_false, reduceCtorEq]

/-- One chunk of the header. -/
theorem run_header_got (stream : List Byte) (header : r.point = .size ∨ r.point = .msgId) {k : ℕ}
    (chunk : 1 ≤ k ∧ k ≤ 4) (arrived : k ≤ stream.length)
    (inside : 0 ≤ r.total) (fits : r.total + k ≤ r.pData.length) :
    ∃ pData, r.store (stream.take k) = some pData ∧ ∀ outcomes,
      r.run true stream (.got k :: outcomes) =
        (r.pastHeader k pData).run true (stream.drop k) outcomes := by
  obtain ⟨pData, stored, -⟩ := exists_store chunk.1 arrived inside fits
  refine ⟨pData, stored, fun outcomes => ?_⟩
  have four : r.len = 4 := by
    unfold len
    rcases header with point | point <;> rw [point]
  have bound : (stream.take k).length = k := List.length_take_of_le arrived
  rw [run_cons outcomes (recv_got chunk.1 (by omega) arrived), resume_header header]
  simp only [RecvResult.bytes, stored, RecvResult.count, bound, Nat.cast_eq_zero,
    show k ≠ 0 by omega, if_false]
  rfl

/-- Chunks that fill the loop up to its limit make it return there. -/
theorem run_of_fill (stream : List Byte) (looping : r.point = .body) {cs : List ℕ}
    (inside : 0 ≤ r.total)
    (room : r.uMaxSize ≤ r.pData.length) (bounded : r.pData.length < 2 ^ 63) (some_chunk : cs ≠ [])
    (positive : ∀ k ∈ cs, 0 < k) (total : r.total + cs.sum = r.uMaxSize)
    (arrived : cs.sum ≤ stream.length) (outcomes : List RecvOutcome) :
    ∃ n pData, r.run true stream (cs.map .got ++ outcomes) =
      .returned n pData (stream.drop cs.sum) outcomes := by
  induction cs generalizing r stream with
  | nil => contradiction
  | cons k cs ih =>
    obtain ⟨first, others⟩ := List.forall_mem_cons.mp positive
    rw [List.sum_cons] at total arrived
    obtain ⟨pData, same, chunk⟩ := run_loop_got looping first
      (by simp only [len, looping, sizeT]; omega) (show k ≤ stream.length by omega) inside
      (by omega)
      (cs.map .got ++ outcomes)
    rw [List.map_cons, List.cons_append, chunk, List.sum_cons, ← List.drop_drop]
    cases cs with
    | nil =>
      simp only [List.sum_nil, add_zero] at total
      rw [again_of_le (show r.uMaxSize ≤ sizeT (r.total + k) by rw [sizeT]; omega)]
      exact ⟨_, _, rfl⟩
    | cons k' cs =>
      have second := others k' (by simp)
      have more : 0 < (k' :: cs).sum := by
        rw [List.sum_cons]
        omega
      rw [again_of_lt (show sizeT (r.total + k) < r.uMaxSize by rw [sizeT]; omega)]
      exact ih _ looping (show 0 ≤ r.total + k by omega) (show r.uMaxSize ≤ pData.length by omega)
        (show pData.length < 2 ^ 63 by omega) (by simp) others
        (show r.total + k + ((k' :: cs).sum : ℕ) = (r.uMaxSize : ℤ) by omega)
        (by rw [List.length_drop]; omega)

/-- Past its limit, the loop returns after one chunk, whatever its length. -/
theorem run_of_past (stream : List Byte) (looping : r.point = .body) {k : ℕ}
    (past : r.uMaxSize < r.total)
    (positive : 0 < k) (fits : r.total + k ≤ r.pData.length) (bounded : r.pData.length < 2 ^ 63)
    (arrived : k ≤ stream.length) (outcomes : List RecvOutcome) :
    ∃ n pData, r.run true stream (.got k :: outcomes) =
      .returned n pData (stream.drop k) outcomes := by
  obtain ⟨pData, -, chunk⟩ := run_loop_got looping positive
    (by simp only [len, looping, sizeT]; omega) arrived (by omega) fits outcomes
  rw [chunk, again_of_le (show r.uMaxSize ≤ sizeT (r.total + k) by rw [sizeT]; omega)]
  exact ⟨_, _, rfl⟩

/-- The header read in two chunks brings the call to its loop. -/
theorem run_header (buffer stream : List Byte) {j m : ℕ} (size : 1 ≤ j ∧ j ≤ 4) (id : 1 ≤ m ∧ m ≤ 4)
    (room : 8 ≤ buffer.length) (arrived : j + m ≤ stream.length) :
    ∃ r : Reader, r.point = .body ∧ r.total = j + m ∧ r.pData.length = buffer.length ∧
      r.uMaxSize = limit (stream.take j ++ buffer.drop j) buffer.length ∧ ∀ outcomes,
        (start buffer).run true stream (.got j :: .got m :: outcomes) =
          r.run true (stream.drop (j + m)) outcomes := by
  have first_bound : (stream.take j).length = j := List.length_take_of_le (by omega)
  obtain ⟨pData, stored, first⟩ := run_header_got (r := start buffer) stream (.inl rfl) size
    (by omega) le_rfl (show (0 : ℤ) + j ≤ buffer.length by omega)
  have same := length_of_store stored
  obtain ⟨-, written⟩ := @store_append (start buffer) _ _ [] buffer rfl rfl stored
  rw [first_bound, List.nil_append] at written
  have header := point_pastHeader_of_size (r := start buffer) rfl j pData
  have second_inside : 0 ≤ ((start buffer).pastHeader j pData).total := by
    rw [total_pastHeader]
    exact Int.add_nonneg le_rfl (Int.natCast_nonneg j)
  obtain ⟨pData', stored', second⟩ := run_header_got (stream.drop j) (.inr header) id
    (by rw [List.length_drop]; omega) second_inside
    (by rw [total_pastHeader, pData_pastHeader, same]; simp only [start]; omega)
  have same' := length_of_store stored'
  refine ⟨_, point_pastHeader_of_msgId header m pData', ?_, ?_, ?_, fun outcomes => ?_⟩
  · simp [start]
  · rw [pData_pastHeader, same', pData_pastHeader, same]
    rfl
  · rw [pastHeader, if_neg (by rw [header]; simp), ← written]
    rfl
  · rw [first, second, List.drop_drop]

/-- A chunk of the header that did not end the call. -/
theorem chunk_of_run (header : r.point = .size ∨ r.point = .msgId) {cs : List ℕ}
    (returns : r.run true stream (cs.map .got) = .returned n pData rest left) :
    ∃ k loop pData', cs = k :: loop ∧ (1 ≤ k ∧ k ≤ 4) ∧ k ≤ stream.length ∧
      (r.pastHeader k pData').run true (stream.drop k) (loop.map .got) =
        .returned n pData rest left := by
  cases cs with
  | nil => simp [run] at returns
  | cons k loop =>
    rw [List.map_cons] at returns
    obtain ⟨res, rest', result⟩ := exists_recv (by rw [returns]; simp)
    have iteration := headerStep_of_recv true header result
    rw [run_cons _ result] at returns
    generalize r.resume true res = progress at iteration returns
    cases iteration with
    | failed error => cases error
    | stored asked arrived positive _ =>
      exact ⟨k, loop, _, rfl, ⟨positive, asked⟩, arrived, returns⟩
    | overran => cases returns

/-- A call that returns and had chunks only read its header in two of them. -/
theorem header_of_run {buffer : List Byte} {cs : List ℕ}
    (returns : (start buffer).run true stream (cs.map .got) = .returned n pData rest left) :
    ∃ j m loop, cs = j :: m :: loop ∧ (1 ≤ j ∧ j ≤ 4) ∧ (1 ≤ m ∧ m ≤ 4) ∧
      j + m ≤ stream.length := by
  obtain ⟨j, cs, pData', rfl, size, arrived, returns⟩ := chunk_of_run (.inl rfl) returns
  obtain ⟨m, loop, -, rfl, id, arrived', -⟩ :=
    chunk_of_run (.inr (point_pastHeader_of_size rfl j pData')) returns
  rw [List.length_drop] at arrived'
  exact ⟨j, m, loop, rfl, size, id, by omega⟩

end Reader

/-- Chunks only: the buffer holds what the call took off the stream. -/
theorem Connection.content_of_chunks {connection : Connection} {stream rest pData : List Byte}
    {cs : List ℕ} {n : ℤ} {left : List RecvOutcome}
    (returns : connection.receive stream (cs.map .got) = .returned n pData rest left) :
    ∃ k : ℕ, n = k ∧ k ≤ stream.length ∧ k ≤ extPacketSize ∧ rest = stream.drop k ∧
      pData = stream.take k ++ (List.replicate extPacketSize 0).drop k := by
  rw [receive_eq] at returns
  obtain ⟨used, split, account⟩ := Reader.accounts_of_run_start returns
  obtain ⟨used, later, -, rfl, -⟩ := List.map_eq_append_iff.mp split
  have none_closed : ¬ HeaderClosed (used.map .got) := by
    rintro (single | ⟨_, pair⟩)
    · cases used <;> simp at single
    · cases used with
      | nil => cases pair
      | cons _ used => cases used <;> simp at pair
  have none_failed : failures (used.map .got) = 0 := by
    have loop (used : List ℕ) : loopFailures (used.map .got) = 0 := by
      induction used with
      | nil => rfl
      | cons k used ih => simp [ih]
    match used with
    | [] => rfl
    | [_] => rfl
    | _ :: _ :: used => simp [failures, loop]
  obtain ⟨closed, -⟩ | ⟨-, account, -⟩ := account
  · exact absurd closed none_closed
  · obtain ⟨room, content⟩ :=
      account.content none_failed [] (List.replicate extPacketSize 0) rfl rfl
    rw [List.length_replicate] at room
    have total := account.total
    rw [none_failed, Nat.cast_zero, sub_zero] at total
    exact ⟨_, total.trans (zero_add _), account.enough, room, account.rest, content⟩

end ExLibs.Network
