/-
# The pending requests of a client

The keys of `_mapPendingRequests` are the ids of the calls that still have an entry
to lose, as long as ids are not drawn so fast that a call in flight sees its id come
round again. Ids are then distinct among calls in flight, so every call finds its
own entry and no other under its id, and no promise is destroyed under a waiting
call.
-/
import ExLibs.Network.Client.Custody

namespace ExLibs.Network.Client

open ExLibs.Math

variable {Packet : Type*} {msgIdOf : Packet → MSGID} {s t : Client Packet}
  {label : ClientLabel Packet}

/-- Ids within `2 ^ 32` draws of each other are distinct. -/
theorem msgIdSeq_inj {call other : ℕ} (near : call < other + 2 ^ 32) (near' : other < call + 2 ^ 32)
    (same : msgIdSeq call = msgIdSeq other) : call = other := by
  have values := congrArg BitVec.toNat same
  simp only [msgIdSeq, BitVec.toNat_ofNat] at values
  omega

/-- An id may be drawn while, counting it, fewer than `2 ^ 32` have been drawn since
any call in flight drew its own. -/
def Unwrapped (s : Client Packet) : ClientLabel Packet → Prop
  | .send | .sendAndWait => ∀ call, (s.pc call).inFlight = true → s.drawn < call + 2 ^ 32
  | _ => True

/-- A `SendAndWait` that has registered and whose entry has not been taken by the
receive thread, nor by itself after a failed send or a timeout. -/
def Outstanding (s : Client Packet) (call : ℕ) : Prop :=
  (s.pc call).registered = true ∧ s.pc call ≠ .gaveUp ∧ call ∉ s.taken

/-- The books are in order. -/
structure Bookkeeping (msgIdOf : Packet → MSGID) (s : Client Packet) : Prop where
  keys : ∀ id, (∃ owner, s.mapPendingRequests id = some owner) ↔
    ∃ call, s.Outstanding call ∧ msgIdSeq call = id
  distinct : ∀ call other, (s.pc call).inFlight = true → (s.pc other).inFlight = true →
    msgIdSeq call = msgIdSeq other → call = other
  satisfied_once : s.satisfied.Nodup
  unbroken : ∀ call, s.pc call ≠ .threw ∧ ((s.pc call).inFlight = true → s.future call ≠ .broken)
  own : ∀ call response, s.pc call = .returned response →
    msgIdOf response.packet = msgIdSeq call
  outlived : ∀ id owner, s.mapPendingRequests id = some owner → (s.pc owner).inFlight = true

/-- What keeps the books in order. -/
structure Unconfused (s : Client Packet) : Prop where
  window : ∀ call, (s.pc call).inFlight = true → s.drawn ≤ call + 2 ^ 32
  filed : ∀ call, s.Outstanding call → s.mapPendingRequests (msgIdSeq call) = some call
  broken : ∀ call, s.future call = .broken → s.pc call = .gaveUp
  threw : ∀ call, s.pc call ≠ .threw

namespace Unconfused

theorem start : Unconfused (start : Client Packet) := by
  constructor <;> simp [Client.start, Outstanding, CallPc.inFlight, CallPc.registered]

/-- Calls in flight have distinct ids. -/
theorem distinct (inv : Unconfused s) (custody : Custody s) {call other : ℕ}
    (inFlight : (s.pc call).inFlight = true) (inFlight' : (s.pc other).inFlight = true)
    (same : msgIdSeq call = msgIdSeq other) : call = other := by
  have drawn (call : ℕ) (inFlight : (s.pc call).inFlight = true) : call < s.drawn := by
    by_contra later
    rw [custody.absent call (by omega)] at inFlight
    cases inFlight
  have first := drawn call inFlight
  have second := drawn other inFlight'
  have window := inv.window call inFlight
  have window' := inv.window other inFlight'
  exact msgIdSeq_inj (by omega) (by omega) same

/-- What is filed under the id of a call in flight is that call's promise. -/
theorem owner_eq (inv : Unconfused s) (custody : Custody s) {call owner : ℕ}
    (inFlight : (s.pc call).inFlight = true)
    (filed : s.mapPendingRequests (msgIdSeq call) = some owner) : owner = call := by
  obtain ⟨same, -, inFlight', -⟩ := custody.filed _ _ filed
  exact inv.distinct custody inFlight' inFlight same.symm

/-- A call finds no entry under its id when it registers. -/
theorem no_clash (inv : Unconfused s) (custody : Custody s) {call owner : ℕ}
    (at_drawn : s.pc call = .drawn) : s.mapPendingRequests (msgIdSeq call) ≠ some owner := by
  intro filed
  obtain rfl := inv.owner_eq custody (by rw [at_drawn]; rfl) filed
  obtain ⟨-, registered, -⟩ := custody.filed _ _ filed
  rw [at_drawn] at registered
  cases registered

theorem window_step (inv : Unconfused s) (permitted : s.Unwrapped label)
    (next : Step msgIdOf s label t) (call : ℕ) (inFlight : (t.pc call).inFlight = true) :
    t.drawn ≤ call + 2 ^ 32 := by
  have before := inv.window call
  cases next with
  | send | sendAndWait =>
    have draws := permitted call
    grind
  | _ => grind

theorem filed_step (inv : Unconfused s) (custody : Custody s) (next : Step msgIdOf s label t)
    (call : ℕ) (outstanding : t.Outstanding call) :
    t.mapPendingRequests (msgIdSeq call) = some call := by
  have before := inv.filed call
  simp only [Outstanding] at before outstanding
  cases next with
  | send | sendAndWait => grind
  | @emplace other at_drawn free =>
    -- a registered call has its entry, so the free one is the new call's
    grind
  | @clash other owner at_drawn filed => exact absurd filed (inv.no_clash custody at_drawn)
  | @erase other owner giving_up filed =>
    have inFlight : (s.pc other).inFlight = true := by
      rcases giving_up with at_ | at_ <;> rw [at_] <;> rfl
    obtain rfl := inv.owner_eq custody inFlight filed
    grind
  | @eraseNothing other giving_up free => grind
  | @find tuPacket owner decoded filed => grind
  | @throw other at_waiting broken =>
    have gone := inv.broken other broken
    grind
  | _ => grind

theorem broken_step (inv : Unconfused s) (custody : Custody s) (next : Step msgIdOf s label t)
    (call : ℕ) (broken : t.future call = .broken) : t.pc call = .gaveUp := by
  have before := inv.broken call
  cases next with
  | send | sendAndWait =>
    have absent := custody.absent call
    grind
  | clash at_drawn filed => exact absurd filed (inv.no_clash custody at_drawn)
  | @erase other owner giving_up filed =>
    -- the promise a call destroys when it gives up is its own
    have inFlight : (s.pc other).inFlight = true := by
      rcases giving_up with at_ | at_ <;> rw [at_] <;> rfl
    obtain rfl := inv.owner_eq custody inFlight filed
    grind
  | _ => grind

theorem threw_step (inv : Unconfused s) (next : Step msgIdOf s label t) (call : ℕ) :
    t.pc call ≠ .threw := by
  have before := inv.threw call
  cases next with
  | throw at_waiting broken =>
    have gone := inv.broken _ broken
    grind
  | _ => grind

theorem step (inv : Unconfused s) (custody : Custody s) (permitted : s.Unwrapped label)
    (next : Step msgIdOf s label t) : Unconfused t where
  window := inv.window_step permitted next
  filed := inv.filed_step custody next
  broken := inv.broken_step custody next
  threw := inv.threw_step next

theorem bookkeeping (inv : Unconfused s) (custody : Custody s)
    (responds : Responds (OwnId msgIdOf) s) : Bookkeeping msgIdOf s where
  keys id := by
    constructor
    · rintro ⟨owner, filed⟩
      obtain ⟨rfl, registered, inFlight, -, untaken⟩ := custody.filed id owner filed
      refine ⟨owner, ⟨registered, ?_, untaken⟩, rfl⟩
      intro gone
      rw [gone] at inFlight
      cases inFlight
    · rintro ⟨call, outstanding, rfl⟩
      exact ⟨call, inv.filed call outstanding⟩
  distinct _ _ := inv.distinct custody
  satisfied_once := custody.once
  unbroken call := by
    refine ⟨inv.threw call, ?_⟩
    intro inFlight broken
    rw [inv.broken call broken] at inFlight
    cases inFlight
  own _ _ returned := responds.of_returned custody returned
  outlived id owner filed := (custody.filed id owner filed).2.2.1

end Unconfused

/-- However calls, failed sends, timeouts and the receive thread interleave, the books
are in order while no call in flight sees its id drawn again. -/
theorem bookkeeping_of_unwrapped {labels : List (ClientLabel Packet)}
    (run : Run (step msgIdOf) Unwrapped start labels s) : Bookkeeping msgIdOf s := by
  have unconfused : Unconfused s := by
    apply run.invariant_of_reached Unconfused.start
    intro labels s label t run before permitted next
    exact before.step (custody_of_run run) permitted (step_cases msgIdOf next)
  exact unconfused.bookkeeping (custody_of_run run) (responds_ownId_of_run run)

/-- No id has been drawn twice yet. -/
def neverWrapped (s : Client Packet) (_ : ClientLabel Packet) : Bool := s.drawn < 2 ^ 32

theorem unwrapped_of_neverWrapped (s : Client Packet) (label : ClientLabel Packet)
    (never : neverWrapped s label = true) : s.Unwrapped label := by
  have few : s.drawn < 2 ^ 32 := of_decide_eq_true never
  cases label with
  | send | sendAndWait =>
    intro call _
    omega
  | _ => trivial

/-- The books are in order after a request, its response, and the return of the
call. -/
theorem bookkeeping_of_response : ∃ s : Client TuPacketMsg,
    Bookkeeping TuPacketMsg.msgId s ∧ s.pc 0 = .returned ⟨0, 2, 1, [7, 7]⟩ := by
  obtain ⟨s, run, returned⟩ := @exists_run_of_guarded _ _ (step TuPacketMsg.msgId) Unwrapped
    neverWrapped unwrapped_of_neverWrapped start
    [.sendAndWait, .emplace 0, .sent 0, .decode ⟨2, 1, [7, 7]⟩, .find, .setValue, .get 0]
    (fun s => s.pc 0 = .returned ⟨0, 2, 1, [7, 7]⟩) (by decide)
  exact ⟨s, bookkeeping_of_unwrapped run, of_decide_eq_true returned⟩

end ExLibs.Network.Client
