/-
# Where a call of `Receive` reads to

Every `recv` of a call, with its offset into the buffer and the length that it asks for, whatever
the peer sends and however the `recv`s go. The limit of the loop is taken from the stream, and
nobody compares it with the size of the buffer; nor is it seen whether the first `recv` fails,
and whether the limit lies behind what has been read.

Here the totals are kept in an `int`, which wraps around in a buffer of more than 2 GiB. That
does no harm, because the loop ends at a total that is negative.
-/
import ExLibs.Network.Accounting

namespace ExLibs.Network

/-- The value that an `int` takes. -/
def int (n : ℤ) : ℤ := n.bmod (2 ^ 32)

/-- A buffer for `Receive`, with room for a header. No object is larger than `PTRDIFF_MAX`. -/
structure Buffer where
  pData : List Byte
  room : 8 ≤ pData.length
  bounded : pData.length < 2 ^ 63

namespace Reader

variable (bReadFully : Bool)

/-- What `Receive` does with the result of the `recv` it stands at, in `int`s. -/
def resumeInt (r : Reader) (res : RecvResult) : Progress :=
  match r.store res.bytes with
  | none => .overrun
  | some pData =>
    match r.point with
    | .size =>
      if int res.count = 0 then .ret 0 pData
      else .more ⟨.msgId, int (r.total + int res.count), limit pData r.uMaxSize, r.tries, pData⟩
    | .msgId =>
      if int res.count = 0 then .ret 0 pData
      else .more ⟨.body, int (r.total + int res.count), r.uMaxSize, r.tries, pData⟩
    | .body =>
      if int res.count = 0 then .ret r.total pData
      else if res = .noBufs then
        if r.tries < 1000 then again bReadFully { r with tries := r.tries + 1 }
        else .ret r.total pData
      else again bReadFully { r with total := int (r.total + int res.count), pData := pData }

/-- The `recv`s of a call from one on, each as the call stands at it. Of a call that has stored
bytes outside its buffer nothing more is said. -/
def issued : Reader → List Byte → List RecvOutcome → List Reader
  | r, _, [] => [r]
  | r, stream, o :: outcomes =>
    r :: match recv stream r.len o with
      | none => []
      | some (res, rest) =>
        match r.resumeInt bReadFully res with
        | .more r' => r'.issued rest outcomes
        | .ret .. | .overrun => []

/-- The next `recv` stays inside the buffer. -/
def Inside (r : Reader) : Prop := 0 ≤ r.total ∧ r.total.toNat + r.len ≤ r.pData.length

end Reader

/-- A call of `Receive` on either end, with what its guards look at. -/
inductive ReceiveCall
  | server (ClientSocket : ℤ)
  | client (m_eStatus : SocketStatus)

namespace ReceiveCall

/-- The call gets past its guards. -/
def Reads : ReceiveCall → Prop
  | server ClientSocket => 0 ≤ ClientSocket
  | client m_eStatus => m_eStatus = .connected

instance (call : ReceiveCall) : Decidable call.Reads :=
  match call with
  | server ClientSocket => inferInstanceAs (Decidable (0 ≤ ClientSocket))
  | client m_eStatus => inferInstanceAs (Decidable (m_eStatus = .connected))

/-- The `recv`s of a call. -/
def issued (call : ReceiveCall) (bReadFully : Bool) (buffer : Buffer) (stream : List Byte)
    (outcomes : List RecvOutcome) : List Reader :=
  if call.Reads then (Reader.start buffer.pData).issued bReadFully stream outcomes else []

end ReceiveCall

/-- The first `recv` does not fail, and once the header has been read the limit lies neither
behind the bytes that are counted nor beyond the buffer. -/
def Contained (buffer : Buffer) (stream : List Byte) (outcomes : List RecvOutcome) : Prop :=
  ¬ SizeFailed outcomes ∧
    ∀ first second later res₁ rest₁ res₂ rest₂, outcomes = first :: second :: later →
      recv stream 4 first = some (res₁, rest₁) → res₁.count ≠ 0 →
      recv rest₁ 4 second = some (res₂, rest₂) → res₂.count ≠ 0 →
        let uMaxSize := limit (overwrite buffer.pData 0 res₁.bytes) buffer.pData.length
        res₁.count + res₂.count ≤ uMaxSize ∧ uMaxSize ≤ buffer.pData.length

section Totals

variable {n : ℤ}

theorem int_of_small (low : -2 ^ 31 ≤ n) (high : n < 2 ^ 31) : int n = n :=
  Int.bmod_eq_of_le (by omega) (by omega)

theorem int_range (n : ℤ) : -2 ^ 31 ≤ int n ∧ int n < 2 ^ 31 := by
  have low := Int.le_bmod (x := n) (m := 2 ^ 32) (by decide)
  have high := Int.bmod_lt (x := n) (m := 2 ^ 32) (by decide)
  unfold int
  omega

/-- Wrapping around never makes a total larger. -/
theorem int_le (positive : 0 ≤ n) : int n ≤ n := by
  unfold int
  have split := Int.bmod_add_bdiv n (2 ^ 32)
  have := int_range n
  unfold int at this
  omega

theorem int_add_int (m n : ℤ) : int (m + int n) = int (m + n) := Int.add_bmod_bmod

end Totals

namespace Reader

variable {r r' : Reader} {res : RecvResult} {bReadFully : Bool} {stream rest : List Byte}
  {outcomes : List RecvOutcome} {o : RecvOutcome}

/-- What a `recv` that is not refused comes back with. -/
theorem recv_cases {len : ℕ} (received : recv stream len o = some (res, rest)) :
    res.bytes.length ≤ len ∧
      (res.count = res.bytes.length ∨ res.count = -1 ∧ o.isError = true) := by
  cases o with
  | got k =>
    simp only [recv, Option.ite_none_right_eq_some, Option.some.injEq, Prod.mk.injEq] at received
    obtain ⟨⟨asked, -, -⟩, rfl, -⟩ := received
    exact ⟨(List.length_take_le k stream).trans asked, .inl rfl⟩
  | closed =>
    obtain ⟨rfl, -⟩ := Prod.mk.inj (Option.some.inj received)
    exact ⟨Nat.zero_le _, .inl rfl⟩
  | failed | noBufs =>
    obtain ⟨rfl, -⟩ := Prod.mk.inj (Option.some.inj received)
    exact ⟨Nat.zero_le _, .inr ⟨rfl, rfl⟩⟩

/-- Bytes that come in answer to a `recv` inside the buffer are stored. -/
theorem Inside.store (inside : r.Inside) {bytes : List Byte} (asked : bytes.length ≤ r.len) :
    ∃ pData, r.store bytes = some pData ∧ pData.length = r.pData.length := by
  by_cases none : bytes = []
  · exact ⟨r.pData, by rw [none, store_nil], rfl⟩
  · obtain ⟨positive, bound⟩ := inside
    have fits : r.total.toNat + bytes.length ≤ r.pData.length := by omega
    exact ⟨_, (store_eq_some_iff none).mpr ⟨positive, fits, rfl⟩, length_overwrite fits⟩

/-- A call that reads the body, with the limit inside the buffer and not behind the total. -/
structure Filling (r : Reader) : Prop where
  looping : r.point = .body
  positive : 0 ≤ r.total
  reached : r.total ≤ r.uMaxSize
  fits : r.uMaxSize ≤ r.pData.length
  bounded : r.pData.length < 2 ^ 63

/-- In the body the next `recv` stays inside the buffer exactly if the limit is inside and not
behind the total. -/
theorem inside_iff_of_body (looping : r.point = .body) (positive : 0 ≤ r.total)
    (small : r.total < 2 ^ 63) (limited : r.uMaxSize < 2 ^ 63) (bounded : r.pData.length < 2 ^ 63) :
    r.Inside ↔ r.total ≤ r.uMaxSize ∧ r.uMaxSize ≤ r.pData.length := by
  have asked : r.len = sizeT (r.uMaxSize - r.total) := by rw [len, looping]
  unfold Inside
  rw [asked, sizeT]
  -- behind the total the difference wraps around
  by_cases reached : r.total ≤ r.uMaxSize
  · rw [Int.emod_eq_of_lt (by omega) (by omega)]
    omega
  · have wrapped : (r.uMaxSize - r.total) % 2 ^ 64 = r.uMaxSize - r.total + 2 ^ 64 := by omega
    rw [wrapped]
    omega

theorem Filling.inside (filling : r.Filling) : r.Inside := by
  obtain ⟨looping, positive, reached, fits, bounded⟩ := filling
  exact (inside_iff_of_body looping positive (by omega) (by omega) bounded).mpr ⟨reached, fits⟩

/-- The loop goes on with what it has filled, or it ends. -/
theorem Filling.again (filling : r.Filling) {total : ℤ} {pData : List Byte} {tries : ℕ}
    (range : -2 ^ 31 ≤ total) (reached : total ≤ r.uMaxSize)
    (length : pData.length = r.pData.length)
    (goes_on : Reader.again bReadFully ⟨.body, total, r.uMaxSize, tries, pData⟩ = .more r') :
    r'.Filling := by
  obtain rfl := again_eq_more goes_on
  unfold Reader.again at goes_on
  split at goes_on
  · rename_i onward
    have below : sizeT total < r.uMaxSize := onward.2
    have fits := filling.fits
    have bounded := filling.bounded
    -- a negative total is a large number here
    have positive : 0 ≤ total := by
      unfold sizeT at below
      omega
    exact ⟨rfl, positive, reached, length ▸ fits, length ▸ bounded⟩
  · cases goes_on

theorem Filling.resumeInt (filling : r.Filling) (received : recv stream r.len o = some (res, rest))
    (goes_on : r.resumeInt bReadFully res = .more r') : r'.Filling := by
  obtain ⟨asked, counts⟩ := recv_cases received
  obtain ⟨pData, stored, length⟩ := filling.inside.store asked
  have positive := filling.positive
  have reached := filling.reached
  have next : int (r.total + int res.count) ≤ r.uMaxSize := by
    rw [int_add_int]
    rcases counts with count | ⟨count, -⟩
    · -- at most what is missing up to the limit has been asked for
      have whole : r.total + r.len = r.uMaxSize := by
        have fits := filling.fits
        have bounded := filling.bounded
        rw [len, filling.looping]
        dsimp only
        rw [sizeT, Int.emod_eq_of_lt (by omega) (by omega)]
        omega
      have below := int_le (n := r.total + res.count) (by omega)
      omega
    · -- a failure counts as `-1`, which is below every limit
      rw [count]
      by_cases zero : r.total = 0
      · rw [zero, int_of_small (by decide) (by decide)]
        omega
      · have below := int_le (n := r.total + -1) (by omega)
        omega
  unfold Reader.resumeInt at goes_on
  rw [stored, filling.looping] at goes_on
  dsimp only at goes_on
  split_ifs at goes_on with closed refused again
  -- a retry leaves the total as it is, and any other turn adds the count
  · exact filling.again (by omega) reached rfl goes_on
  · exact filling.again (int_range _).1 next length goes_on

section Issued

variable {P : Reader → Prop}

theorem head_of_forall_issued (all : ∀ r' ∈ r.issued bReadFully stream outcomes, P r') : P r := by
  refine all r ?_
  cases outcomes with
  | nil => exact List.mem_singleton_self r
  | cons o outcomes => exact List.mem_cons_self

/-- A law of every `recv` holds of the next one and of those that follow it. -/
theorem forall_issued_cons : (∀ r' ∈ r.issued bReadFully stream (o :: outcomes), P r') ↔
    P r ∧ ∀ res rest r₁, recv stream r.len o = some (res, rest) →
      r.resumeInt bReadFully res = .more r₁ →
        ∀ r' ∈ r₁.issued bReadFully rest outcomes, P r' := by
  rw [issued, List.forall_mem_cons]
  refine and_congr_right fun _ => ?_
  cases received : recv stream r.len o with
  | none => exact iff_of_true (fun _ member => nomatch member) (fun _ _ _ some => nomatch some)
  | some answer =>
    obtain ⟨res, rest⟩ := answer
    dsimp only
    cases goes : r.resumeInt bReadFully res with
    | more r₁ =>
      constructor
      · rintro all res' rest' r' ⟨⟩ goes'
        obtain rfl := Progress.more.inj (goes.symm.trans goes')
        exact all
      · exact fun all => all res rest r₁ rfl goes
    | ret | overrun =>
      refine iff_of_true (fun _ member => nomatch member) ?_
      rintro res' rest' r' ⟨⟩ goes'
      cases goes.symm.trans goes'

/-- From a limit inside the buffer on every `recv` stays inside. -/
theorem Filling.forall_issued (filling : r.Filling) :
    ∀ r' ∈ r.issued bReadFully stream outcomes, r'.Inside := by
  -- by induction on the outcomes, as each turn keeps the limit in reach
  induction outcomes generalizing r stream with
  | nil =>
    intro r' member
    obtain rfl := List.mem_singleton.mp member
    exact filling.inside
  | cons o outcomes ih =>
    refine forall_issued_cons.mpr ⟨filling.inside, fun res rest r₁ received goes => ?_⟩
    exact ih (filling.resumeInt received goes)

end Issued

section Header

variable {buffer : Buffer}

theorem count_of_isError {len : ℕ} (received : recv stream len o = some (res, rest))
    (error : o.isError = true) : res.count = -1 := by
  cases o with
  | got | closed => cases error
  | failed | noBufs =>
    obtain ⟨rfl, -⟩ := Prod.mk.inj (Option.some.inj received)
    rfl

theorem int_count (received : recv stream 4 o = some (res, rest)) : int res.count = res.count := by
  obtain ⟨asked, count | ⟨count, -⟩⟩ := recv_cases received
  · exact int_of_small (by omega) (by omega)
  · exact int_of_small (by omega) (by omega)

variable (buffer) in
theorem store_start (asked : res.bytes.length ≤ 4) :
    (start buffer.pData).store res.bytes = some (overwrite buffer.pData 0 res.bytes) := by
  by_cases none : res.bytes = []
  · rw [none, store_nil]
    simp [overwrite, start]
  · have room := buffer.room
    refine (store_eq_some_iff none).mpr ⟨Int.le_refl 0, ?_, rfl⟩
    change 0 + res.bytes.length ≤ buffer.pData.length
    omega

/-- The call after a size that has been read. -/
def sized (buffer : Buffer) (res : RecvResult) : Reader :=
  ⟨.msgId, res.count, limit (overwrite buffer.pData 0 res.bytes) buffer.pData.length, 0,
    overwrite buffer.pData 0 res.bytes⟩

theorem resumeInt_start (received : recv stream 4 o = some (res, rest)) :
    (start buffer.pData).resumeInt bReadFully res =
      if res.count = 0 then .ret 0 (overwrite buffer.pData 0 res.bytes)
      else .more (sized buffer res) := by
  unfold resumeInt
  rw [store_start buffer (recv_cases received).1, int_count received]
  dsimp only [start]
  rw [Int.zero_add, int_count received]
  rfl

variable (buffer) in
theorem length_sized (asked : res.bytes.length ≤ 4) :
    (sized buffer res).pData.length = buffer.pData.length :=
  length_of_store (store_start buffer asked)

variable (buffer) in
/-- Four more bytes fit behind a size. -/
theorem inside_sized (asked : res.bytes.length ≤ 4) (count : res.count = res.bytes.length) :
    (sized buffer res).Inside := by
  have room := buffer.room
  refine ⟨?_, ?_⟩
  · change 0 ≤ res.count
    omega
  · rw [length_sized buffer asked]
    change res.count.toNat + 4 ≤ buffer.pData.length
    omega

variable (buffer) in
/-- After the message id the body is read, with what both `recv`s have returned as the total. -/
theorem resumeInt_sized {res₁ res₂ : RecvResult} (asked : res₁.bytes.length ≤ 4)
    (count : res₁.count = res₁.bytes.length)
    (received : recv stream 4 o = some (res₂, rest)) :
    ∃ pData, pData.length = buffer.pData.length ∧
      (sized buffer res₁).resumeInt bReadFully res₂ =
        if res₂.count = 0 then .ret 0 pData
        else .more ⟨.body, res₁.count + res₂.count, (sized buffer res₁).uMaxSize, 0, pData⟩ := by
  obtain ⟨asked₂, counts₂⟩ := recv_cases received
  have inside : (sized buffer res₁).Inside := inside_sized buffer asked count
  obtain ⟨pData, stored, length⟩ := inside.store asked₂
  refine ⟨pData, length.trans (length_sized buffer asked), ?_⟩
  have total : int (res₁.count + res₂.count) = res₁.count + res₂.count :=
    int_of_small (by omega) (by omega)
  unfold resumeInt
  rw [stored, int_count received]
  change (if res₂.count = 0 then _ else Progress.more ⟨_, int (res₁.count + res₂.count), _, _, _⟩) =
    _
  rw [total]
  rfl

/-- Once both words of the header have been read, the call stays inside the buffer exactly if
the limit lies between what is counted of them and the end of the buffer. -/
theorem forall_issued_body_iff {total : ℤ} {uMaxSize : ℕ} {pData : List Byte}
    (positive : 0 ≤ total) (small : total < 2 ^ 63) (limited : uMaxSize < 2 ^ 63)
    (bounded : pData.length < 2 ^ 63) :
    (∀ r' ∈ (mk .body total uMaxSize 0 pData).issued bReadFully stream outcomes, r'.Inside) ↔
      total ≤ uMaxSize ∧ uMaxSize ≤ pData.length := by
  have first := inside_iff_of_body (r := mk .body total uMaxSize 0 pData) rfl positive small limited
    bounded
  refine ⟨fun all => first.mp (head_of_forall_issued all), fun ⟨reached, fits⟩ => ?_⟩
  exact Filling.forall_issued ⟨rfl, positive, reached, fits, bounded⟩

/-- The same before the second word. -/
theorem forall_issued_sized_iff {res₁ : RecvResult} (asked : res₁.bytes.length ≤ 4)
    (count : res₁.count = res₁.bytes.length) (some_bytes : res₁.count ≠ 0) :
    (∀ r' ∈ (sized buffer res₁).issued bReadFully stream outcomes, r'.Inside) ↔
      ∀ second later res₂ rest₂, outcomes = second :: later →
        recv stream 4 second = some (res₂, rest₂) → res₂.count ≠ 0 →
          res₁.count + res₂.count ≤ (sized buffer res₁).uMaxSize ∧
            (sized buffer res₁).uMaxSize ≤ buffer.pData.length := by
  have inside : (sized buffer res₁).Inside := inside_sized buffer asked count
  have body {second : RecvOutcome} {res₂ : RecvResult} {rest₂ : List Byte}
      (received : recv stream 4 second = some (res₂, rest₂)) (later : List RecvOutcome)
      {pData : List Byte} (length : pData.length = buffer.pData.length) :
      (∀ r' ∈ (mk .body (res₁.count + res₂.count) (sized buffer res₁).uMaxSize 0 pData).issued
        bReadFully rest₂ later, r'.Inside) ↔
        res₁.count + res₂.count ≤ (sized buffer res₁).uMaxSize ∧
          (sized buffer res₁).uMaxSize ≤ buffer.pData.length := by
    obtain ⟨asked₂, counts₂⟩ := recv_cases received
    rw [← length]
    exact forall_issued_body_iff (by omega) (by omega) (limit_lt _ buffer.bounded)
      (length ▸ buffer.bounded)
  cases outcomes with
  | nil =>
    refine iff_of_true (fun r' member => ?_) nofun
    obtain rfl := List.mem_singleton.mp member
    exact inside
  | cons second later =>
    -- the second `recv` fits, so that all depends on those of the body
    rw [forall_issued_cons, and_iff_right inside]
    constructor
    · rintro all _ _ res₂ rest₂ ⟨⟩ received opened
      obtain ⟨pData, length, goes⟩ := resumeInt_sized buffer asked count received
      rw [if_neg opened] at goes
      exact (body received later length).mp (all res₂ rest₂ _ received goes)
    · intro fits res₂ rest₂ r₁ received goes
      obtain ⟨pData, length, goes'⟩ := resumeInt_sized buffer asked count received
      by_cases closed : res₂.count = 0
      · rw [if_pos closed] at goes'
        cases goes'.symm.trans goes
      · rw [if_neg closed] at goes'
        obtain rfl := Progress.more.inj (goes'.symm.trans goes)
        exact (body received later length).mpr (fits second later res₂ rest₂ rfl received closed)

/-- A call stays inside its buffer exactly if it is contained. -/
theorem forall_issued_start_iff :
    (∀ r ∈ (start buffer.pData).issued bReadFully stream outcomes, r.Inside) ↔
      Contained buffer stream outcomes := by
  have inside : (start buffer.pData).Inside := by
    have room := buffer.room
    refine ⟨Int.le_refl 0, ?_⟩
    change 0 + 4 ≤ buffer.pData.length
    omega
  cases outcomes with
  | nil =>
    refine iff_of_true (fun r' member => ?_) ⟨nofun, nofun⟩
    obtain rfl := List.mem_singleton.mp member
    exact inside
  | cons first later =>
    -- and so does the first one
    rw [forall_issued_cons, and_iff_right inside]
    constructor
    · intro all
      have goes {res₁ : RecvResult} {rest₁ : List Byte}
          (received : recv stream 4 first = some (res₁, rest₁)) (opened : res₁.count ≠ 0) :
          ∀ r' ∈ (sized buffer res₁).issued bReadFully rest₁ later, r'.Inside := by
        refine all res₁ rest₁ _ received ?_
        rw [resumeInt_start received, if_neg opened]
      have passed : ¬ SizeFailed (first :: later) := by
        rintro ⟨o, ⟨⟩, error⟩
        -- the next `recv` would store in front of the buffer
        obtain ⟨res₁, received⟩ : ∃ res₁, recv stream 4 first = some (res₁, stream) := by
          cases first with
          | got | closed => cases error
          | failed | noBufs => exact ⟨_, rfl⟩
        have count := count_of_isError received error
        have behind : 0 ≤ res₁.count := (head_of_forall_issued (goes received (by omega))).1
        omega
      refine ⟨passed, ?_⟩
      rintro _ second later₂ res₁ rest₁ res₂ rest₂ ⟨⟩ received opened received₂ opened₂
      obtain ⟨asked, count | ⟨-, error⟩⟩ := recv_cases received
      · exact (forall_issued_sized_iff asked count opened).mp (goes received opened)
          second later₂ res₂ rest₂ rfl received₂ opened₂
      · exact absurd ⟨first, rfl, error⟩ passed
    · rintro ⟨passed, fits⟩ res₁ rest₁ r₁ received goes
      rw [resumeInt_start received] at goes
      split_ifs at goes with opened
      obtain rfl := Progress.more.inj goes
      obtain ⟨asked, count | ⟨-, error⟩⟩ := recv_cases received
      · refine (forall_issued_sized_iff asked count opened).mpr ?_
        rintro second later₂ res₂ rest₂ rfl received₂ opened₂
        exact fits first second later₂ res₁ rest₁ res₂ rest₂ rfl received opened received₂ opened₂
      · exact absurd ⟨first, rfl, error⟩ passed

end Header

/-- What a `recv` inside the buffer brings is not stored outside of it. -/
theorem Inside.resumeInt_ne_overrun (inside : r.Inside)
    (received : recv stream r.len o = some (res, rest)) :
    r.resumeInt bReadFully res ≠ .overrun := by
  obtain ⟨pData, stored, -⟩ := inside.store (recv_cases received).1
  unfold resumeInt
  rw [stored]
  cases r.point with
  | size | msgId =>
    dsimp only
    split <;> nofun
  | body =>
    dsimp only
    split_ifs
    · nofun
    · exact again_ne_overrun
    · nofun
    · exact again_ne_overrun

instance (r : Reader) : Decidable r.Inside :=
  inferInstanceAs (Decidable (0 ≤ r.total ∧ r.total.toNat + r.len ≤ r.pData.length))

end Reader

namespace ReceiveCall

/-- Every `recv` of a call stays inside the buffer of its caller. -/
def StaysInside (call : ReceiveCall) (bReadFully : Bool) (buffer : Buffer) (stream : List Byte)
    (outcomes : List RecvOutcome) : Prop :=
  ∀ r ∈ call.issued bReadFully buffer stream outcomes, r.Inside

/-- A call that gets past its guards stays inside the buffer if and only if it is contained. -/
theorem staysInside_iff_contained (call : ReceiveCall) (bReadFully : Bool) (buffer : Buffer)
    (stream : List Byte) (outcomes : List RecvOutcome) :
    call.StaysInside bReadFully buffer stream outcomes ↔
      (call.Reads → Contained buffer stream outcomes) := by
  unfold StaysInside issued
  by_cases reads : call.Reads
  · rw [if_pos reads, Reader.forall_issued_start_iff, forall_prop_of_true reads]
  · rw [if_neg reads]
    exact iff_of_true (fun _ member => nomatch member) (fun reads' => absurd reads' reads)

/-- A header that declares a hundred bytes to a buffer of eight. -/
theorem not_staysInside_of_header :
    ¬ ∀ (call : ReceiveCall) (bReadFully : Bool) (buffer : Buffer) (stream : List Byte)
      (outcomes : List RecvOutcome), call.StaysInside bReadFully buffer stream outcomes := by
  intro all
  let buffer : Buffer := ⟨List.replicate 8 0, by decide, by decide⟩
  have inside := all (.client .connected) true buffer [0, 0, 0, 100, 0, 0, 0, 1] [.got 4, .got 4]
  have outside : ∃ r ∈ (ReceiveCall.client .connected).issued true buffer
      [0, 0, 0, 100, 0, 0, 0, 1] [.got 4, .got 4], ¬ r.Inside := by
    decide +kernel
  obtain ⟨r, member, beyond⟩ := outside
  exact beyond (inside r member)

end ReceiveCall

end ExLibs.Network
