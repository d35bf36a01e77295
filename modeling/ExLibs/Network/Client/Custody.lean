/-
# Who holds a promise

A call's promise is filed under its id, or held by the receive thread, or has been
satisfied, or was destroyed. What the map files is the promise of a call that is in
flight and has heard nothing yet, under the call's own id. None of this depends on
ids being distinct.
-/
import ExLibs.Network.Client.Machine

namespace ExLibs.Network.Client

open ExLibs.Math

variable {Packet : Type*} {msgIdOf : Packet → MSGID} {s t : Client Packet}
  {label : ClientLabel Packet}

/-- Where promises are, in any state of a run. -/
structure Custody (s : Client Packet) : Prop where
  absent : ∀ call, s.drawn ≤ call → s.pc call = .absent
  fresh : ∀ call, (s.pc call).registered = false → s.future call = .empty ∧ call ∉ s.taken
  filed : ∀ id call, s.mapPendingRequests id = some call →
    id = msgIdSeq call ∧ (s.pc call).registered = true ∧ (s.pc call).inFlight = true ∧
      s.future call = .empty ∧ call ∉ s.taken
  held : ∀ tuPacket call, s.receiver = .pending tuPacket call →
    (s.pc call).registered = true ∧ s.future call = .empty ∧ call ∈ s.taken ∧ call ∉ s.satisfied
  ready : ∀ call response, s.future call = .ready response → call ∈ s.taken
  satisfied : ∀ call ∈ s.satisfied, call ∈ s.taken ∧ ∃ response, s.future call = .ready response
  taken : ∀ call ∈ s.taken, (∃ tuPacket, s.receiver = .pending tuPacket call) ∨
    ∃ response, s.future call = .ready response
  once : s.satisfied.Nodup
  returned : ∀ call response, s.pc call = .returned response → s.future call = .ready response

/-- A response that a future holds was there, or the receive thread has just put it there. -/
theorem ready_cases (next : Step msgIdOf s label t) {call : ℕ} {response : Arrival Packet}
    (got : t.future call = .ready response) : s.future call = .ready response ∨
      s.receiver = .pending response call ∧ t.receiver = .idle := by
  cases next with
  | @clash other =>
    rcases eq_or_ne call other with rfl | distinct
    · simp at got
    · exact .inl (by simpa [distinct] using got)
  | @erase _ owner =>
    rcases eq_or_ne call owner with rfl | distinct
    · simp at got
    · exact .inl (by simpa [distinct] using got)
  | @setValue tuPacket other pending =>
    rcases eq_or_ne call other with rfl | distinct
    · obtain rfl : tuPacket = response := by simpa using got
      exact .inr ⟨pending, rfl⟩
    · exact .inl (by simpa [distinct] using got)
  | _ => exact .inl got

attribute [grind =] CallPc.registered CallPc.inFlight CallPc.awaiting

theorem Custody.start : Custody (start : Client Packet) := by
  constructor <;> simp [Client.start]

namespace Custody

theorem absent_step (inv : Custody s) (next : Step msgIdOf s label t) (call : ℕ)
    (later : t.drawn ≤ call) : t.pc call = .absent := by
  have before := inv.absent call
  cases next <;> grind

/-- A call that has not registered has no promise, so nothing happens to one. -/
theorem fresh_step (inv : Custody s) (next : Step msgIdOf s label t) (call : ℕ)
    (fresh : (t.pc call).registered = false) : t.future call = .empty ∧ call ∉ t.taken := by
  have before := inv.fresh call
  cases next with
  | send | sendAndWait =>
    have absent := inv.absent call
    grind
  | @erase other owner giving_up filed =>
    -- the promise destroyed is that of a call which has registered
    obtain ⟨-, registered, -⟩ := inv.filed _ _ filed
    grind
  | @find tuPacket owner decoded filed =>
    obtain ⟨-, registered, -⟩ := inv.filed _ _ filed
    grind
  | @setValue tuPacket owner pending =>
    obtain ⟨registered, -⟩ := inv.held _ _ pending
    grind
  | _ => grind

/-- What the map files after a step it filed before, or it is the promise of the call
that has just registered. -/
theorem filed_step (inv : Custody s) (next : Step msgIdOf s label t) (id : MSGID) (call : ℕ)
    (entry : t.mapPendingRequests id = some call) :
    id = msgIdSeq call ∧ (t.pc call).registered = true ∧ (t.pc call).inFlight = true ∧
      t.future call = .empty ∧ call ∉ t.taken := by
  have before := inv.filed id call
  cases next with
  | send | sendAndWait =>
    have absent := inv.absent call
    grind
  | @emplace other at_drawn free =>
    have fresh := inv.fresh other
    grind
  | @erase other owner giving_up filed =>
    -- a call is filed under its own id only, so the one that gives up is filed no more
    obtain ⟨own, -⟩ := inv.filed _ _ filed
    grind
  | @eraseNothing other giving_up free => grind
  | @find tuPacket owner decoded filed =>
    obtain ⟨own, -⟩ := inv.filed _ _ filed
    grind
  | @setValue tuPacket owner pending =>
    obtain ⟨-, -, taken, -⟩ := inv.held _ _ pending
    grind
  | _ => grind

theorem held_step (inv : Custody s) (next : Step msgIdOf s label t) (tuPacket : Arrival Packet)
    (call : ℕ) (holds : t.receiver = .pending tuPacket call) :
    (t.pc call).registered = true ∧ t.future call = .empty ∧ call ∈ t.taken ∧
      call ∉ t.satisfied := by
  have before := inv.held tuPacket call
  cases next with
  | send | sendAndWait =>
    have absent := inv.absent call
    grind
  | @erase other owner giving_up filed =>
    -- a promise is either filed or held
    obtain ⟨-, -, -, -, untaken⟩ := inv.filed _ _ filed
    grind
  | @find tuPacket' owner decoded filed =>
    obtain ⟨-, registered, -, empty, untaken⟩ := inv.filed _ _ filed
    have unsatisfied := inv.satisfied call
    grind
  | _ => grind

theorem ready_step (inv : Custody s) (next : Step msgIdOf s label t) (call : ℕ)
    (response : Arrival Packet) (ready : t.future call = .ready response) : call ∈ t.taken := by
  have kept : call ∈ s.taken := by
    rcases ready_cases next ready with before | ⟨pending, -⟩
    · exact inv.ready call response before
    · exact (inv.held _ _ pending).2.2.1
  cases next with
  | find => exact List.mem_append_left _ kept
  | _ => exact kept

theorem satisfied_step (inv : Custody s) (next : Step msgIdOf s label t) (call : ℕ)
    (satisfied : call ∈ t.satisfied) :
    call ∈ t.taken ∧ ∃ response, t.future call = .ready response := by
  have before := inv.satisfied call
  cases next with
  | @clash other owner at_drawn filed =>
    have fresh := inv.fresh other
    grind
  | @erase other owner giving_up filed =>
    obtain ⟨-, -, -, -, untaken⟩ := inv.filed _ _ filed
    grind
  | @setValue tuPacket owner pending =>
    obtain ⟨-, -, taken, -⟩ := inv.held _ _ pending
    grind
  | _ => grind

/-- A promise that was taken stays with the receive thread until it is satisfied. -/
theorem taken_step (inv : Custody s) (next : Step msgIdOf s label t) (call : ℕ)
    (taken : call ∈ t.taken) :
    (∃ tuPacket, t.receiver = .pending tuPacket call) ∨
      ∃ response, t.future call = .ready response := by
  have before := inv.taken call
  cases next with
  | @clash other owner at_drawn filed =>
    have fresh := inv.fresh other
    grind
  | @erase other owner giving_up filed =>
    obtain ⟨-, -, -, -, untaken⟩ := inv.filed _ _ filed
    grind
  | @find tuPacket owner decoded filed =>
    rcases List.mem_append.mp taken with earlier | new
    · rcases before earlier with ⟨_, pending⟩ | ready
      · rw [decoded] at pending
        cases pending
      · exact .inr ready
    · obtain rfl := List.mem_singleton.mp new
      exact .inl ⟨tuPacket, rfl⟩
  | _ => grind

/-- The receive thread satisfies the promise it holds, which no one has satisfied. -/
theorem once_step (inv : Custody s) (next : Step msgIdOf s label t) : t.satisfied.Nodup := by
  have before := inv.once
  cases next with
  | @setValue tuPacket owner pending =>
    obtain ⟨-, -, -, unsatisfied⟩ := inv.held _ _ pending
    grind
  | _ => exact before

theorem returned_step (inv : Custody s) (next : Step msgIdOf s label t) (call : ℕ)
    (response : Arrival Packet) (returned : t.pc call = .returned response) :
    t.future call = .ready response := by
  have before := inv.returned call response
  cases next with
  | @clash other owner at_drawn filed =>
    have fresh := inv.fresh other
    grind
  | @erase other owner giving_up filed =>
    obtain ⟨-, -, inFlight, -⟩ := inv.filed _ _ filed
    grind
  | @setValue tuPacket owner pending =>
    obtain ⟨-, empty, -⟩ := inv.held _ _ pending
    grind
  | _ => grind

theorem step (inv : Custody s) (next : Step msgIdOf s label t) : Custody t where
  absent := inv.absent_step next
  fresh := inv.fresh_step next
  filed := inv.filed_step next
  held := inv.held_step next
  ready := inv.ready_step next
  satisfied := inv.satisfied_step next
  taken := inv.taken_step next
  once := inv.once_step next
  returned := inv.returned_step next

end Custody

/-- Every state of a run keeps promises in custody. -/
theorem custody_of_run {allowed : Client Packet → ClientLabel Packet → Prop}
    {labels : List (ClientLabel Packet)} (run : Run (step msgIdOf) allowed start labels s) :
    Custody s :=
  run.invariant Custody.start fun _ _ _ inv _ next => inv.step (step_cases msgIdOf next)

/-! ### What calls get -/

/-- Every response that a call has got, or is about to get, stands in a relation to
it. -/
structure Responds (R : ℕ → Arrival Packet → Prop) (s : Client Packet) : Prop where
  held : ∀ tuPacket call, s.receiver = .pending tuPacket call → R call tuPacket
  ready : ∀ call response, s.future call = .ready response → R call response

theorem Responds.start (R : ℕ → Arrival Packet → Prop) : Responds R (start : Client Packet) := by
  constructor <;> simp [Client.start]

/-- Responses stand in a relation to their calls if the receive thread finds such
packets only. -/
theorem Responds.step {R : ℕ → Arrival Packet → Prop} (before : Responds R s)
    (next : Step msgIdOf s label t)
    (finds : ∀ tuPacket call, label = .find → s.receiver = .decoded tuPacket →
      s.mapPendingRequests (msgIdOf tuPacket.packet) = some call → R call tuPacket) :
    Responds R t := by
  constructor
  · intro tuPacket call holds
    cases next with
    | find decoded filed =>
      obtain ⟨rfl, rfl⟩ := Receiver.pending.inj holds
      exact finds _ _ rfl decoded filed
    | decode | miss | setValue | handle => cases holds
    | _ => exact before.held tuPacket call holds
  · intro call response got
    rcases ready_cases next got with earlier | ⟨pending, -⟩
    · exact before.ready call response earlier
    · exact before.held response call pending

theorem Responds.of_returned {R : ℕ → Arrival Packet → Prop} (responds : Responds R s)
    (custody : Custody s) {call : ℕ} {response : Arrival Packet}
    (returned : s.pc call = .returned response) : R call response :=
  responds.ready _ _ (custody.returned _ _ returned)

/-- A call gets packets that carry its own id. -/
def OwnId (msgIdOf : Packet → MSGID) (call : ℕ) (response : Arrival Packet) : Prop :=
  msgIdOf response.packet = msgIdSeq call

theorem responds_ownId_of_run {allowed : Client Packet → ClientLabel Packet → Prop}
    {labels : List (ClientLabel Packet)} (run : Run (step msgIdOf) allowed start labels s) :
    Responds (OwnId msgIdOf) s := by
  apply run.invariant_of_reached (Responds.start _)
  intro labels s label t run before _ next
  refine before.step (step_cases msgIdOf next) ?_
  intro tuPacket call _ _ filed
  exact ((custody_of_run run).filed _ _ filed).1

end ExLibs.Network.Client
