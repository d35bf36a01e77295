/-
# What becomes of a packet that the client decodes

A decoded packet is with the receive thread, or in the future of a call that waits
for it, or the result of a call, or with the handler, and never in two of these
places. It is lost when the promise it goes to belongs to a call that has given up:
the entry of a call that gives up stays in the map until the call has erased it, and
a promise that the receive thread has taken out can no longer be erased.
-/
import ExLibs.Network.Client.Custody

namespace ExLibs.Network

open ExLibs.Math

variable {Packet : Type*}

/-- The packet that the receive thread is busy with. -/
def Receiver.tuPacket : Receiver Packet → Option (Arrival Packet)
  | idle => none
  | decoded tuPacket | pending tuPacket _ | unmatched tuPacket => some tuPacket

/-- Where a decoded packet can be. -/
inductive Place
  | receiver
  | future (call : ℕ)
  | result (call : ℕ)
  | handler

/-- The packet has got to where it was going. -/
def Place.consumes : Place → Bool
  | result _ | handler => true
  | receiver | future _ => false

namespace Client

variable {msgIdOf : Packet → MSGID} {s t : Client Packet} {label : ClientLabel Packet}

/-- The packet of a number is in a place. With the receive thread or in a future it
counts only while someone may still consume it. -/
def At (s : Client Packet) (number : ℕ) : Place → Prop
  | .receiver => ∃ tuPacket, s.receiver.tuPacket = some tuPacket ∧ tuPacket.number = number ∧
      ∀ call, s.receiver = .pending tuPacket call → (s.pc call).awaiting = true
  | .future call => (s.pc call).awaiting = true ∧
      ∃ response, s.future call = .ready response ∧ response.number = number
  | .result call => ∃ response, s.pc call = .returned response ∧ response.number = number
  | .handler => ∃ tuPacket ∈ s.handled, tuPacket.number = number

/-- Every decoded packet is in exactly one place, and the handler has been called for
none twice. -/
structure Accounted (s : Client Packet) : Prop where
  placed : ∀ number < s.arrivals, ∃! place, s.At number place
  handled_once : (s.handled.map Arrival.number).Nodup

/-- The receive thread is idle and no call waits for a response. -/
def Quiet (s : Client Packet) : Prop :=
  s.receiver = .idle ∧ ∀ call, (s.pc call).awaiting = false

/-- The receive thread takes the promise of no call that has given up, and no call
gives up once its promise is taken. -/
def Attentive (msgIdOf : Packet → MSGID) (s : Client Packet) : ClientLabel Packet → Prop
  | .find => ∀ tuPacket call, s.receiver = .decoded tuPacket →
      s.mapPendingRequests (msgIdOf tuPacket.packet) = some call → (s.pc call).awaiting = true
  | .sendFailed call | .timedOut call => call ∉ s.taken
  | _ => True

/-- No two places share a packet. -/
structure Numbered (s : Client Packet) : Prop where
  held : ∀ tuPacket, s.receiver.tuPacket = some tuPacket → tuPacket.number < s.arrivals ∧
    (∀ call response, s.future call = .ready response → response.number ≠ tuPacket.number) ∧
    ∀ other ∈ s.handled, other.number ≠ tuPacket.number
  ready : ∀ call response, s.future call = .ready response → response.number < s.arrivals ∧
    (∀ other response', s.future other = .ready response' →
      response'.number = response.number → other = call) ∧
    ∀ tuPacket ∈ s.handled, tuPacket.number ≠ response.number
  handled : ∀ tuPacket ∈ s.handled, tuPacket.number < s.arrivals
  handled_once : (s.handled.map Arrival.number).Nodup

attribute [grind =] Receiver.tuPacket

theorem arrivals_le_of_step (next : Step msgIdOf s label t) : s.arrivals ≤ t.arrivals := by
  cases next with
  | decode idle => exact Nat.le_succ _
  | _ => exact le_rfl

/-- The receive thread holds what it has held, or has just decoded it. -/
theorem tuPacket_cases (next : Step msgIdOf s label t) {tuPacket : Arrival Packet}
    (holds : t.receiver.tuPacket = some tuPacket) : s.receiver.tuPacket = some tuPacket ∨
      tuPacket.number = s.arrivals ∧ t.arrivals = s.arrivals + 1 := by
  cases next with
  | decode idle =>
    obtain rfl := Option.some.inj holds
    exact .inr ⟨rfl, rfl⟩
  | find decoded | miss decoded =>
    rw [decoded]
    exact .inl holds
  | setValue | handle => cases holds
  | _ => exact .inl holds

/-- What was handled had been handled, or has just been handed over. -/
theorem handled_cases (next : Step msgIdOf s label t) {tuPacket : Arrival Packet}
    (member : tuPacket ∈ t.handled) : tuPacket ∈ s.handled ∨
      s.receiver = .unmatched tuPacket ∧ t.receiver = .idle := by
  cases next with
  | handle unmatched =>
    refine (List.mem_append.mp member).imp_right fun last => ?_
    obtain rfl := List.mem_singleton.mp last
    exact ⟨unmatched, rfl⟩
  | _ => exact .inl member

namespace Numbered

theorem start : Numbered (start : Client Packet) := by
  constructor <;> simp [Client.start, Receiver.tuPacket]

theorem held_step (inv : Numbered s) (next : Step msgIdOf s label t) (tuPacket : Arrival Packet)
    (holds : t.receiver.tuPacket = some tuPacket) : tuPacket.number < t.arrivals ∧
      (∀ call response, t.future call = .ready response → response.number ≠ tuPacket.number) ∧
      ∀ other ∈ t.handled, other.number ≠ tuPacket.number := by
  -- the receive thread has consumed nothing in this step, as it holds a packet after it
  have busy : t.receiver ≠ .idle := by
    intro idle
    rw [idle] at holds
    cases holds
  have ready : ∀ call response, t.future call = .ready response →
      s.future call = .ready response := by
    intro call response got
    exact (ready_cases next got).resolve_right fun consumed => busy consumed.2
  have handled : ∀ other ∈ t.handled, other ∈ s.handled := by
    intro other member
    exact (handled_cases next member).resolve_right fun consumed => busy consumed.2
  rcases tuPacket_cases next holds with before | ⟨new, arrivals⟩
  · obtain ⟨numbered, unready, unhandled⟩ := inv.held tuPacket before
    refine ⟨numbered.trans_le (arrivals_le_of_step next), ?_, ?_⟩
    · intro call response got
      exact unready call response (ready call response got)
    · intro other member
      exact unhandled other (handled other member)
  · rw [new, arrivals]
    refine ⟨Nat.lt_succ_self _, ?_, ?_⟩
    · intro call response got
      exact (inv.ready call response (ready call response got)).1.ne
    · intro other member
      exact (inv.handled other (handled other member)).ne

theorem ready_step (inv : Numbered s) (next : Step msgIdOf s label t) (call : ℕ)
    (response : Arrival Packet) (got : t.future call = .ready response) :
    response.number < t.arrivals ∧
      (∀ other response', t.future other = .ready response' →
        response'.number = response.number → other = call) ∧
      ∀ tuPacket ∈ t.handled, tuPacket.number ≠ response.number := by
  have later := arrivals_le_of_step next
  rcases ready_cases next got with before | ⟨pending, -⟩
  · obtain ⟨numbered, once, unhandled⟩ := inv.ready call response before
    refine ⟨numbered.trans_le later, ?_, ?_⟩
    · intro other response' got' same
      rcases ready_cases next got' with before' | ⟨pending, -⟩
      · exact once other response' before' same
      · obtain ⟨-, unready, -⟩ := inv.held response' (by rw [pending]; rfl)
        exact absurd same.symm (unready call response before)
    · intro tuPacket member
      rcases handled_cases next member with earlier | ⟨unmatched, -⟩
      · exact unhandled tuPacket earlier
      · obtain ⟨-, unready, -⟩ := inv.held tuPacket (by rw [unmatched]; rfl)
        exact (unready call response before).symm
  · -- the response has just left the receive thread
    obtain ⟨numbered, unready, unhandled⟩ := inv.held response (by rw [pending]; rfl)
    refine ⟨numbered.trans_le later, ?_, ?_⟩
    · intro other response' got' same
      rcases ready_cases next got' with before' | ⟨pending', -⟩
      · exact absurd same (unready other response' before')
      · exact (Receiver.pending.inj (pending'.symm.trans pending)).2
    · intro tuPacket member
      rcases handled_cases next member with earlier | ⟨unmatched, -⟩
      · exact unhandled tuPacket earlier
      · cases unmatched.symm.trans pending

theorem handled_step (inv : Numbered s) (next : Step msgIdOf s label t) (tuPacket : Arrival Packet)
    (handled : tuPacket ∈ t.handled) : tuPacket.number < t.arrivals := by
  have later := arrivals_le_of_step next
  rcases handled_cases next handled with earlier | ⟨unmatched, -⟩
  · exact (inv.handled tuPacket earlier).trans_le later
  · exact (inv.held tuPacket (by rw [unmatched]; rfl)).1.trans_le later

theorem handled_once_step (inv : Numbered s) (next : Step msgIdOf s label t) :
    (t.handled.map Arrival.number).Nodup := by
  have before := inv.handled_once
  cases next with
  | @handle tuPacket unmatched =>
    obtain ⟨-, -, new⟩ := inv.held tuPacket (by rw [unmatched]; rfl)
    rw [List.map_append, List.nodup_append]
    refine ⟨before, by simp, ?_⟩
    intro number seen other last
    obtain ⟨earlier, member, rfl⟩ := List.mem_map.mp seen
    obtain rfl := List.mem_singleton.mp last
    exact new earlier member
  | _ => exact before

theorem step (inv : Numbered s) (next : Step msgIdOf s label t) : Numbered t where
  held := inv.held_step next
  ready := inv.ready_step next
  handled := inv.handled_step next
  handled_once := inv.handled_once_step next

/-- A packet is in one place at most. -/
theorem unique (inv : Numbered s) (custody : Custody s) {number : ℕ} {place other : Place}
    (first : s.At number place) (second : s.At number other) : place = other := by
  have held := inv.held
  have ready := inv.ready
  have returned := custody.returned
  cases place <;> cases other <;> simp only [At] at first second <;> grind

end Numbered

/-- No response is on its way to a call, or has come to it. -/
def Unanswered (s : Client Packet) (call : ℕ) : Prop :=
  (∀ response, s.future call ≠ .ready response) ∧ ∀ tuPacket, s.receiver ≠ .pending tuPacket call

theorem unanswered_of_untaken (custody : Custody s) {call : ℕ} (untaken : call ∉ s.taken) :
    s.Unanswered call := by
  constructor
  · intro response got
    exact untaken (custody.ready call response got)
  · intro tuPacket pending
    obtain ⟨-, -, taken, -⟩ := custody.held tuPacket call pending
    exact untaken taken

/-- A promise that was destroyed has not been taken. -/
theorem untaken_of_broken (custody : Custody s) {call : ℕ} (broken : s.future call = .broken) :
    call ∉ s.taken := by
  intro taken
  rcases custody.taken call taken with ⟨tuPacket, pending⟩ | ⟨response, got⟩
  · obtain ⟨-, empty, -⟩ := custody.held tuPacket call pending
    cases broken.symm.trans empty
  · cases broken.symm.trans got

/-- A packet stays where it is as long as the receive thread and the handler stay as they are
and no call that it is for stops waiting. -/
theorem At.stay {number : ℕ} {place : Place} (at_ : s.At number place)
    (receiver : t.receiver = s.receiver) (handled : t.handled = s.handled)
    (futures : ∀ call response, s.future call = .ready response → t.future call = .ready response)
    (results : ∀ call response, s.pc call = .returned response → t.pc call = .returned response)
    (awaits : ∀ call, (s.pc call).awaiting = true →
      (t.pc call).awaiting = true ∨ s.Unanswered call) : t.At number place := by
  cases place with
  | receiver =>
    obtain ⟨tuPacket, holds, same, waits⟩ := at_
    refine ⟨tuPacket, receiver ▸ holds, same, ?_⟩
    intro call pending
    rw [receiver] at pending
    rcases awaits call (waits call pending) with waits' | unanswered
    · exact waits'
    · exact absurd pending (unanswered.2 tuPacket)
  | future call =>
    obtain ⟨waits, response, got, same⟩ := at_
    rcases awaits call waits with waits' | unanswered
    · exact ⟨waits', response, futures call response got, same⟩
    · exact absurd got (unanswered.1 response)
  | result call =>
    obtain ⟨response, returned, same⟩ := at_
    exact ⟨response, results call response returned, same⟩
  | handler =>
    obtain ⟨tuPacket, member, same⟩ := at_
    exact ⟨tuPacket, handled ▸ member, same⟩

section Moved

variable {call : ℕ} {pc old : CallPc Packet} {number : ℕ} {place : Place}

/-- A packet stays where it is when a call moves on that does not wait for it. -/
theorem At.moved (at_ : s.At number place) (moves : t.pc = Function.update s.pc call pc)
    (receiver : t.receiver = s.receiver) (handled : t.handled = s.handled)
    (futures : ∀ other response, s.future other = .ready response →
      t.future other = .ready response)
    (before : s.pc call = old) (unreturned : ∀ response, old ≠ .returned response)
    (awaits : old.awaiting = true → pc.awaiting = true ∨ s.Unanswered call) :
    t.At number place := by
  subst before
  refine at_.stay receiver handled futures ?_ ?_
  · intro other response returned
    rw [moves]
    exact moved_eq_of_ne (unreturned response) returned
  · intro other waits
    rw [moves]
    rcases eq_or_ne other call with rfl | distinct
    · rw [Function.update_self]
      exact awaits waits
    · rw [Function.update_of_ne distinct]
      exact .inl waits

/-- A packet was where it is when a call has moved on that does not come to wait for it. -/
theorem At.of_moved (at_ : t.At number place) (moves : t.pc = Function.update s.pc call pc)
    (receiver : t.receiver = s.receiver) (handled : t.handled = s.handled)
    (futures : ∀ other response, t.future other = .ready response →
      s.future other = .ready response)
    (before : s.pc call = old) (unreturned : ∀ response, pc ≠ .returned response)
    (awaits : pc.awaiting = true → old.awaiting = true ∨ t.Unanswered call) :
    s.At number place := by
  have back : s.pc = Function.update t.pc call old := by
    rw [moves, Function.update_idem, ← before, Function.update_eq_self]
  have here : t.pc call = pc := by rw [moves, Function.update_self]
  exact at_.moved back receiver.symm handled.symm futures here unreturned awaits

end Moved

/-- The receiver does not hold the response of a call that has got it. -/
theorem Custody.ne_of_got (custody : Custody s) {tuPacket response : Arrival Packet}
    {call other : ℕ} (pending : s.receiver = .pending tuPacket call)
    (got : s.future other = .ready response) : other ≠ call := by
  rintro rfl
  obtain ⟨-, empty, -⟩ := custody.held _ _ pending
  cases got.symm.trans empty

/-- A step moves a packet on or leaves it where it is, if it is attentive. -/
theorem exists_at_step (custody : Custody s) (next : Step msgIdOf s label t)
    (attentive : s.Attentive msgIdOf label) {number : ℕ}
    (before : number < s.arrivals → ∃ place, s.At number place) (decoded : number < t.arrivals) :
    ∃ place, t.At number place := by
  cases next with
  | @decode packet idle =>
    rcases Nat.lt_succ_iff_lt_or_eq.mp decoded with earlier | rfl
    · obtain ⟨place, at_⟩ := before earlier
      cases place with
      | receiver =>
        obtain ⟨tuPacket, holds, -⟩ := at_
        rw [idle] at holds
        cases holds
      | future call => exact ⟨.future call, at_⟩
      | result call => exact ⟨.result call, at_⟩
      | handler => exact ⟨.handler, at_⟩
    · exact ⟨.receiver, _, rfl, rfl, fun call pending => by cases pending⟩
  | @find tuPacket call at_decoded filed =>
    obtain ⟨place, at_⟩ := before decoded
    cases place with
    | receiver =>
      obtain ⟨tuPacket', holds, rfl, -⟩ := at_
      rw [at_decoded] at holds
      obtain rfl := Option.some.inj holds
      refine ⟨.receiver, _, rfl, rfl, ?_⟩
      intro call' pending
      obtain ⟨-, rfl⟩ := Receiver.pending.inj pending
      exact attentive _ _ at_decoded filed
    | future call => exact ⟨.future call, at_⟩
    | result call => exact ⟨.result call, at_⟩
    | handler => exact ⟨.handler, at_⟩
  | @miss tuPacket at_decoded free =>
    obtain ⟨place, at_⟩ := before decoded
    cases place with
    | receiver =>
      obtain ⟨tuPacket', holds, same, -⟩ := at_
      rw [at_decoded] at holds
      exact ⟨.receiver, tuPacket', holds, same, nofun⟩
    | future call => exact ⟨.future call, at_⟩
    | result call => exact ⟨.result call, at_⟩
    | handler => exact ⟨.handler, at_⟩
  | @setValue tuPacket call pending =>
    obtain ⟨place, at_⟩ := before decoded
    cases place with
    | receiver =>
      -- the packet goes to the future of the call that waits for it
      obtain ⟨tuPacket', holds, same, waits⟩ := at_
      rw [pending] at holds
      obtain rfl := Option.some.inj holds
      exact ⟨.future call, waits call pending, tuPacket, by simp, same⟩
    | future other =>
      obtain ⟨waits, response, got, same⟩ := at_
      have distinct : other ≠ call := custody.ne_of_got pending got
      exact ⟨.future other, waits, response, by simp [distinct, got], same⟩
    | result other => exact ⟨.result other, at_⟩
    | handler => exact ⟨.handler, at_⟩
  | @get call response at_waiting got =>
    obtain ⟨place, at_⟩ := before decoded
    cases place with
    | future other =>
      obtain ⟨waits, response', got', same⟩ := at_
      rcases eq_or_ne other call with rfl | distinct
      · -- the response in the future is the result
        obtain rfl := Future.ready.inj (got.symm.trans got')
        exact ⟨.result other, response, by simp, same⟩
      · exact ⟨.future other, by simpa [distinct] using waits, response', got', same⟩
    | receiver =>
      obtain ⟨tuPacket, holds, same, waits⟩ := at_
      refine ⟨.receiver, tuPacket, holds, same, ?_⟩
      intro other pending
      have distinct : call ≠ other := custody.ne_of_got pending got
      simpa [distinct.symm] using waits other pending
    | result other =>
      obtain ⟨response', returned, same⟩ := at_
      have distinct : other ≠ call := by
        rintro rfl
        cases returned.symm.trans at_waiting
      exact ⟨.result other, response', by simp [distinct, returned], same⟩
    | handler => exact ⟨.handler, at_⟩
  | @handle tuPacket unmatched =>
    obtain ⟨place, at_⟩ := before decoded
    cases place with
    | receiver =>
      obtain ⟨tuPacket', holds, same, -⟩ := at_
      rw [unmatched] at holds
      obtain rfl := Option.some.inj holds
      exact ⟨.handler, tuPacket, List.mem_append_right _ (List.mem_singleton_self _), same⟩
    | future call => exact ⟨.future call, at_⟩
    | result call => exact ⟨.result call, at_⟩
    | handler =>
      obtain ⟨other, member, same⟩ := at_
      exact ⟨.handler, other, List.mem_append_left _ member, same⟩
  | send | sendAndWait =>
    obtain ⟨place, at_⟩ := before decoded
    have absent := custody.absent s.drawn le_rfl
    exact ⟨place, at_.moved rfl rfl rfl (fun _ _ => id) absent nofun nofun⟩
  | @sendReturns call isSuccess at_send =>
    obtain ⟨place, at_⟩ := before decoded
    exact ⟨place, at_.moved rfl rfl rfl (fun _ _ => id) at_send nofun nofun⟩
  | @emplace call at_drawn free =>
    obtain ⟨place, at_⟩ := before decoded
    exact ⟨place, at_.moved rfl rfl rfl (fun _ _ => id) at_drawn nofun nofun⟩
  | @clash call owner at_drawn filed =>
    obtain ⟨place, at_⟩ := before decoded
    refine ⟨place, at_.moved rfl rfl rfl ?_ at_drawn nofun nofun⟩
    intro other response got
    obtain ⟨empty, -⟩ := custody.fresh call (by rw [at_drawn]; rfl)
    have unready : s.future call ≠ .ready response := by
      rw [empty]
      nofun
    exact moved_eq_of_ne unready got
  | @sent call at_sending =>
    obtain ⟨place, at_⟩ := before decoded
    exact ⟨place, at_.moved rfl rfl rfl (fun _ _ => id) at_sending nofun fun _ => .inl rfl⟩
  | @sendFailed call before' | @timedOut call before' =>
    obtain ⟨place, at_⟩ := before decoded
    have unanswered := unanswered_of_untaken custody attentive
    exact ⟨place, at_.moved rfl rfl rfl (fun _ _ => id) before' nofun fun _ => .inr unanswered⟩
  | @erase call owner giving_up filed =>
    obtain ⟨place, at_⟩ := before decoded
    -- what is filed is no one's response yet
    have futures : ∀ other response, s.future other = .ready response →
        ((s.setEntry (msgIdSeq call) none).setFuture owner .broken).future other =
          .ready response := by
      intro other response got
      obtain ⟨-, -, -, empty, -⟩ := custody.filed _ _ filed
      have unready : s.future owner ≠ .ready response := by
        rw [empty]
        nofun
      exact moved_eq_of_ne unready got
    rcases giving_up with at_ended | at_ended
    · exact ⟨place, at_.moved rfl rfl rfl futures at_ended nofun nofun⟩
    · exact ⟨place, at_.moved rfl rfl rfl futures at_ended nofun nofun⟩
  | @eraseNothing call giving_up free =>
    obtain ⟨place, at_⟩ := before decoded
    rcases giving_up with at_ended | at_ended
    · exact ⟨place, at_.moved rfl rfl rfl (fun _ _ => id) at_ended nofun nofun⟩
    · exact ⟨place, at_.moved rfl rfl rfl (fun _ _ => id) at_ended nofun nofun⟩
  | @throw call at_waiting broken =>
    obtain ⟨place, at_⟩ := before decoded
    have unanswered := unanswered_of_untaken custody (untaken_of_broken custody broken)
    exact ⟨place, at_.moved rfl rfl rfl (fun _ _ => id) at_waiting nofun fun _ => .inr unanswered⟩

/-- A packet that is somewhere after a step was somewhere before. -/
theorem exists_at_of_step (custody : Custody s) (next : Step msgIdOf s label t) {number : ℕ}
    (decoded : number < s.arrivals) {place : Place} (after : t.At number place) :
    ∃ place, s.At number place := by
  have custody' := custody.step next
  cases next with
  | @decode packet idle =>
    cases place with
    | receiver =>
      obtain ⟨tuPacket, holds, rfl, -⟩ := after
      obtain rfl := Option.some.inj holds
      exact absurd decoded (lt_irrefl _)
    | future call => exact ⟨.future call, after⟩
    | result call => exact ⟨.result call, after⟩
    | handler => exact ⟨.handler, after⟩
  | @find tuPacket _ at_decoded | @miss tuPacket at_decoded =>
    cases place with
    | receiver =>
      obtain ⟨tuPacket', holds, same, -⟩ := after
      obtain rfl := Option.some.inj holds
      refine ⟨.receiver, tuPacket, by rw [at_decoded]; rfl, same, ?_⟩
      intro call' pending
      rw [at_decoded] at pending
      cases pending
    | future call => exact ⟨.future call, after⟩
    | result call => exact ⟨.result call, after⟩
    | handler => exact ⟨.handler, after⟩
  | @setValue tuPacket call pending =>
    cases place with
    | receiver => simp [At, Receiver.tuPacket] at after
    | future other =>
      obtain ⟨waits, response, got, same⟩ := after
      rcases eq_or_ne other call with rfl | distinct
      · -- it was with the receive thread, on its way to this call
        obtain rfl : tuPacket = response := by simpa using got
        refine ⟨.receiver, tuPacket, by rw [pending]; rfl, same, ?_⟩
        intro call' pending'
        obtain ⟨-, rfl⟩ := Receiver.pending.inj (pending.symm.trans pending')
        exact waits
      · exact ⟨.future other, waits, response, by simpa [distinct] using got, same⟩
    | result other => exact ⟨.result other, after⟩
    | handler => exact ⟨.handler, after⟩
  | @get call response at_waiting got =>
    cases place with
    | result other =>
      obtain ⟨response', returned, same⟩ := after
      rcases eq_or_ne other call with rfl | distinct
      · obtain rfl : response = response' := by simpa using returned
        exact ⟨.future other, by rw [at_waiting]; rfl, response, got, same⟩
      · exact ⟨.result other, response', by simpa [distinct] using returned, same⟩
    | receiver =>
      obtain ⟨tuPacket, holds, same, waits⟩ := after
      refine ⟨.receiver, tuPacket, holds, same, ?_⟩
      intro other pending
      have waits' := waits other pending
      rcases eq_or_ne other call with rfl | distinct
      · rw [at_waiting]
        rfl
      · simpa [distinct] using waits'
    | future other =>
      obtain ⟨waits, response', got', same⟩ := after
      have distinct : other ≠ call := by
        rintro rfl
        simp [CallPc.awaiting] at waits
      exact ⟨.future other, by simpa [distinct] using waits, response', got', same⟩
    | handler => exact ⟨.handler, after⟩
  | @handle tuPacket unmatched =>
    cases place with
    | receiver => simp [At, Receiver.tuPacket] at after
    | future call => exact ⟨.future call, after⟩
    | result call => exact ⟨.result call, after⟩
    | handler =>
      obtain ⟨other, member, same⟩ := after
      rcases List.mem_append.mp member with earlier | last
      · exact ⟨.handler, other, earlier, same⟩
      · obtain rfl := List.mem_singleton.mp last
        refine ⟨.receiver, other, by rw [unmatched]; rfl, same, ?_⟩
        intro call pending
        rw [unmatched] at pending
        cases pending
  | send | sendAndWait =>
    have absent := custody.absent s.drawn le_rfl
    exact ⟨place, after.of_moved rfl rfl rfl (fun _ _ => id) absent nofun nofun⟩
  | @sendReturns call isSuccess at_send =>
    exact ⟨place, after.of_moved rfl rfl rfl (fun _ _ => id) at_send nofun nofun⟩
  | @emplace call at_drawn free =>
    -- a call that registers has no response on its way
    obtain ⟨-, untaken⟩ := custody.fresh call (by rw [at_drawn]; rfl)
    have unanswered := unanswered_of_untaken custody' untaken
    exact ⟨place, after.of_moved rfl rfl rfl (fun _ _ => id) at_drawn nofun fun _ =>
      .inr unanswered⟩
  | @clash call owner at_drawn filed =>
    obtain ⟨-, untaken⟩ := custody.fresh call (by rw [at_drawn]; rfl)
    have unanswered := unanswered_of_untaken custody' untaken
    refine ⟨place, after.of_moved rfl rfl rfl ?_ at_drawn nofun fun _ => .inr unanswered⟩
    intro other response got
    rcases eq_or_ne other call with rfl | distinct
    · simp at got
    · simpa [distinct] using got
  | @sent call at_sending =>
    exact ⟨place, after.of_moved rfl rfl rfl (fun _ _ => id) at_sending nofun fun _ => .inl rfl⟩
  | @sendFailed call before | @timedOut call before =>
    exact ⟨place, after.of_moved rfl rfl rfl (fun _ _ => id) before nofun nofun⟩
  | @throw call before broken =>
    exact ⟨place, after.of_moved rfl rfl rfl (fun _ _ => id) before nofun nofun⟩
  | @eraseNothing call giving_up free =>
    exact ⟨place, after.of_moved rfl rfl rfl (fun _ _ => id) rfl nofun nofun⟩
  | @erase call owner giving_up filed =>
    refine ⟨place, after.of_moved rfl rfl rfl ?_ rfl nofun nofun⟩
    intro other response got
    rcases eq_or_ne other owner with rfl | distinct
    · simp at got
    · simpa [distinct] using got

/-- After a step that is not attentive, some packet is nowhere. -/
theorem attentive_of_placed (custody : Custody s) (numbered : Numbered s)
    (next : Step msgIdOf s label t)
    (placed : ∀ number < t.arrivals, ∃ place, t.At number place) : s.Attentive msgIdOf label := by
  have held := numbered.held
  have ready := numbered.ready
  have returned := custody.returned
  cases next with
  | @find tuPacket call at_decoded filed =>
    intro tuPacket' call' at_decoded' filed'
    rw [at_decoded] at at_decoded'
    obtain rfl := Receiver.decoded.inj at_decoded'
    obtain rfl := Option.some.inj (filed.symm.trans filed')
    -- the packet it took the promise for can only be where the promise is
    obtain ⟨place, at_⟩ := placed tuPacket.number (held tuPacket (by rw [at_decoded]; rfl)).1
    cases place with
    | receiver =>
      obtain ⟨_, holds, -, awaited⟩ := at_
      obtain rfl := Option.some.inj holds
      exact awaited call rfl
    | future other | result other | handler =>
      simp only [At] at at_
      grind
  | @sendFailed call at_sending | @timedOut call at_waiting empty =>
    intro taken
    rcases custody.taken call taken with ⟨tuPacket, pending⟩ | ⟨response, got⟩
    · obtain ⟨place, at_⟩ := placed tuPacket.number (held tuPacket (by rw [pending]; rfl)).1
      cases place <;> simp only [At] at at_ <;> grind
    · obtain ⟨place, at_⟩ := placed response.number (ready call response got).1
      cases place <;> simp only [At] at at_ <;> grind
  | miss decoded free =>
    intro tuPacket call decoded' filed
    rw [decoded] at decoded'
    obtain rfl := Receiver.decoded.inj decoded'
    rw [free] at filed
    cases filed
  | _ => trivial

/-- A state accounts for its packets if each is somewhere. -/
theorem accounted_iff (custody : Custody s) (numbered : Numbered s) :
    s.Accounted ↔ ∀ number < s.arrivals, ∃ place, s.At number place := by
  constructor
  · intro accounted number decoded
    exact (accounted.placed number decoded).exists
  · intro placed
    refine ⟨fun number decoded => ?_, numbered.handled_once⟩
    obtain ⟨place, at_⟩ := placed number decoded
    exact ⟨place, at_, fun other at_other => numbered.unique custody at_other at_⟩

/-- A step keeps every packet accounted for exactly if it is attentive. -/
theorem accounted_iff_of_step (custody : Custody s) (numbered : Numbered s)
    (next : Step msgIdOf s label t) : t.Accounted ↔ s.Accounted ∧ s.Attentive msgIdOf label := by
  rw [accounted_iff custody numbered, accounted_iff (custody.step next) (numbered.step next)]
  constructor
  · intro placed
    refine ⟨fun number decoded => ?_, attentive_of_placed custody numbered next placed⟩
    obtain ⟨place, at_⟩ := placed number (decoded.trans_le (arrivals_le_of_step next))
    exact exists_at_of_step custody next decoded at_
  · rintro ⟨placed, attentive⟩ number decoded
    exact exists_at_step custody next attentive (placed number) decoded

theorem numbered_of_run {allowed : Client Packet → ClientLabel Packet → Prop}
    {labels : List (ClientLabel Packet)} (run : Run (step msgIdOf) allowed start labels s) :
    Numbered s :=
  run.invariant Numbered.start fun _ _ _ inv _ next => inv.step (step_cases msgIdOf next)

theorem Accounted.start : Accounted (start : Client Packet) where
  placed number decoded := absurd decoded (Nat.not_lt_zero number)
  handled_once := List.nodup_nil

/-- When nothing is going on, a packet that is accounted for has been consumed. -/
theorem Accounted.consumed (accounted : s.Accounted) (quiet : s.Quiet) {number : ℕ}
    (decoded : number < s.arrivals) :
    ∃! place : Place, place.consumes = true ∧ s.At number place := by
  obtain ⟨place, at_, unique⟩ := accounted.placed number decoded
  refine ⟨place, ⟨?_, at_⟩, fun other consumes => unique other consumes.2⟩
  cases place with
  | receiver =>
    obtain ⟨tuPacket, holds, -⟩ := at_
    rw [quiet.1] at holds
    cases holds
  | future call =>
    have waits := at_.1
    rw [quiet.2 call] at waits
    cases waits
  | result call => rfl
  | handler => rfl

/-- Every packet decoded in a run is on its way to one consumer or consumed once, and
consumed once when nothing is going on, if and only if the receive thread never takes
the promise of a call that has given up and no call gives up once its promise is
taken. -/
theorem accounted_iff_attentive {labels : List (ClientLabel Packet)}
    (run : Run (step msgIdOf) Free start labels s) :
    (s.Accounted ↔ Run (step msgIdOf) (Attentive msgIdOf) start labels s) ∧
      (s.Accounted → s.Quiet → ∀ number < s.arrivals,
        ∃! place : Place, place.consumes = true ∧ s.At number place) := by
  constructor
  · apply run.good_iff Accounted.start
    intro labels s label t run next
    exact accounted_iff_of_step (custody_of_run run) (numbered_of_run run) (step_cases msgIdOf next)
  · intro accounted quiet number decoded
    exact accounted.consumed quiet decoded

/-- Whether a step is attentive, decided. -/
def isAttentive (msgIdOf : Packet → MSGID) (s : Client Packet) : ClientLabel Packet → Bool
  | .find =>
    match s.receiver with
    | .decoded tuPacket =>
      (s.mapPendingRequests (msgIdOf tuPacket.packet)).all fun call => (s.pc call).awaiting
    | _ => true
  | .sendFailed call | .timedOut call => call ∉ s.taken
  | _ => true

theorem attentive_of_isAttentive (msgIdOf : Packet → MSGID) (s : Client Packet)
    (label : ClientLabel Packet) (decided : isAttentive msgIdOf s label = true) :
    s.Attentive msgIdOf label := by
  cases label with
  | find =>
    intro tuPacket call decoded filed
    simpa [isAttentive, decoded, filed] using decided
  | sendFailed call | timedOut call => exact (of_decide_eq_true decided : call ∉ s.taken)
  | _ => trivial

/-- A response and a packet that no one asked for are both accounted for. -/
theorem accounted_of_response : ∃ s : Client TuPacketMsg, s.Accounted ∧
    s.pc 0 = .returned ⟨0, 2, 1, [7, 7]⟩ ∧ s.handled = [⟨1, 0, 9, []⟩] := by
  obtain ⟨s, run, ended⟩ := @exists_run_of_guarded _ _ (step TuPacketMsg.msgId)
    (Attentive TuPacketMsg.msgId) (isAttentive TuPacketMsg.msgId) (attentive_of_isAttentive _) start
    [.sendAndWait, .emplace 0, .sent 0, .decode ⟨2, 1, [7, 7]⟩, .find, .setValue, .get 0,
      .decode ⟨0, 9, []⟩, .find, .handle]
    (fun s => s.pc 0 = .returned ⟨0, 2, 1, [7, 7]⟩ ∧ s.handled = [⟨1, 0, 9, []⟩]) (by decide)
  exact ⟨s, (accounted_iff_attentive run.free).1.mpr run, of_decide_eq_true ended⟩

/-- A timeout between the two steps of the receive thread loses the response: the run
ends with nothing going on and its only packet nowhere. -/
theorem lost_between_find_and_setValue : ∃ s : Client TuPacketMsg,
    Run (step TuPacketMsg.msgId) Free start
      [.sendAndWait, .emplace 0, .sent 0, .decode ⟨2, 1, [7, 7]⟩, .find, .timedOut 0, .setValue,
        .erase 0] s ∧
      s.Quiet ∧ s.arrivals = 1 ∧ ∀ place, ¬ s.At 0 place := by
  obtain ⟨s, run, ended⟩ := @exists_run_of_exec _ _ (step TuPacketMsg.msgId) start
    [.sendAndWait, .emplace 0, .sent 0, .decode ⟨2, 1, [7, 7]⟩, .find, .timedOut 0, .setValue,
      .erase 0]
    (fun s => s.pc 0 = .gaveUp ∧ s.drawn = 1 ∧ s.receiver = .idle ∧ s.arrivals = 1 ∧ s.handled = [])
    (by decide)
  obtain ⟨gaveUp, drawn, idle, arrivals, unhandled⟩ := of_decide_eq_true ended
  have ended_or_absent (call : ℕ) : s.pc call = .gaveUp ∨ s.pc call = .absent := by
    rcases Nat.eq_zero_or_pos call with rfl | later
    · exact .inl gaveUp
    · exact .inr ((custody_of_run run).absent call (by omega))
  refine ⟨s, run, ⟨idle, fun call => ?_⟩, arrivals, fun place at_ => ?_⟩
  · rcases ended_or_absent call with pc | pc <;> rw [pc] <;> rfl
  · cases place with
    | receiver =>
      obtain ⟨_, holds, -⟩ := at_
      rw [idle] at holds
      cases holds
    | future call =>
      have waits := at_.1
      rcases ended_or_absent call with pc | pc <;> rw [pc] at waits <;> cases waits
    | result call =>
      obtain ⟨_, returned, -⟩ := at_
      rcases ended_or_absent call with pc | pc <;> rw [pc] at returned <;> cases returned
    | handler =>
      obtain ⟨_, member, -⟩ := at_
      rw [unhandled] at member
      cases member

end Client

end ExLibs.Network
