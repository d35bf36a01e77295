/-
# Whose response a call returns

The slot of a client is found by a name that all calls of its process share, so a worker
may raise the response to one call in the slot of the next, and a worker that fails between
the head of a response and its bytes leaves a response that nobody has written. A worker whose
wait is interrupted raises it before the eyes of the call. As long as the calls keep their
objects apart, the workers find those of the calls they answer, no wait is interrupted and
nothing fails halfway, a call returns what a worker has written for it.

A response in a slot is complete, or its worker is still in the section of the call.
-/
import ExLibs.IPC.Unix.Ownership

namespace ExLibs.IPC.Unix

open ExLibs.Math ExLibs.Util

/-- What a call has received. -/
def ClientPc.received : ClientPc → Option Received
  | unlocking result | dropping _ result | returned result => result
  | _ => none

namespace Exchange

variable {span nMaxThreadCount pid : ℕ} {sIPCName : List Char} {s t : Exchange}
  {label : ExchangeLabel} {labels : List ExchangeLabel}

/-- A call that returns true returns what a worker has written for it. -/
def Correlated (s : Exchange) : Prop := ∀ call received,
  s.client call = .returned (some received) →
    ⟨call, received.responseData⟩ ∈ s.answered ∧
      received.responseSize = received.responseData.length

/-- The data segment of a call begins with the bytes. -/
def Maps (s : Exchange) (call : ℕ) (bytes : List Byte) : Prop :=
  ∀ dataShm, s.handle call .dataShm = some dataShm →
    (s.data dataShm).take bytes.length = bytes

/-- The slot of a call, or its data segment, holds a response that was written for it. -/
def Complete (s : Exchange) (call shm : ℕ) : Prop :=
  ∃ bytes, ⟨call, bytes⟩ ∈ s.answered ∧ (s.slot shm).responseSize = bytes.length ∧
    if respondsByMmap bytes.length (s.server.args call).nCheckIPC then s.Maps call bytes
    else (s.slot shm).resData.take bytes.length = bytes

theorem Complete.mono {call shm : ℕ} (complete : s.Complete call shm)
    (grows : s.answered ⊆ t.answered) (slot : t.slot shm = s.slot shm)
    (args : t.server.args call = s.server.args call)
    (maps : ∀ bytes, ⟨call, bytes⟩ ∈ s.answered → s.Maps call bytes → t.Maps call bytes) :
    t.Complete call shm := by
  obtain ⟨bytes, member, size, holds⟩ := complete
  refine ⟨bytes, grows member, slot ▸ size, ?_⟩
  rw [args, slot]
  by_cases bulk : respondsByMmap bytes.length (s.server.args call).nCheckIPC = true
  · rw [if_pos bulk] at holds ⊢
    exact maps bytes member holds
  · rw [if_neg bulk] at holds ⊢
    exact holds

/-- What is answered was posted. -/
def Requested (s : Exchange) : Prop := ∀ answer ∈ s.answered, answer.call ∈ s.server.posted

/-- What the slots say about the responses, and what the calls have received. -/
structure Told (s : Exchange) : Prop where
  raised : ∀ w q response shm, s.server.worker w = .answering q response →
    (s.responder w).isRaising = true → (s.responder w).opened .shm = some shm →
    (s.slot shm).responseSize = response.responseSize
  slot : ∀ call shm, s.handle call .shm = some shm → (s.slot shm).hasResponse = true →
    s.Complete call shm ∨
      ∃ w, (s.responder w).isRaising = true ∧ (s.responder w).opened .shm = some shm
  copying : ∀ call responseSize, s.client call = .copying responseSize →
    ∃ bytes, ⟨call, bytes⟩ ∈ s.answered ∧ responseSize = bytes.length ∧ s.Maps call bytes
  received : ∀ call received, (s.client call).received = some received →
    ⟨call, received.responseData⟩ ∈ s.answered ∧
      received.responseSize = received.responseData.length

theorem ResponderPc.isInside_of_isRaising {pc : ResponderPc} (raising : pc.isRaising = true) :
    pc.isInside = true := by
  cases pc <;> first | rfl | cases raising

/-- A worker that has the slot of a call open answers the call. -/
theorem Apart.answers_of_opened (apart : s.Apart) {w call shm : ℕ}
    (opened : (s.responder w).opened .shm = some shm) (has : s.handle call .shm = some shm) :
    ∃ q response, s.server.worker w = .answering q response ∧ q.call = call := by
  rcases apart.owns w with none | ⟨q, response, answering, -, opens⟩
  · rw [none] at opened
    cases opened
  · exact ⟨q, response, answering, (apart.distinct _ _ _ _ _ (opens .shm shm opened) has).1⟩

/-- A response that a call finds in its section is complete. -/
theorem Told.complete (told : s.Told) (apart : s.Apart) (exclusive : s.Exclusive) {call shm : ℕ}
    (inside : (s.client call).isInside = true) (has : s.handle call .shm = some shm)
    (hasResponse : (s.slot shm).hasResponse = true) : s.Complete call shm := by
  rcases told.slot call shm has hasResponse with complete | ⟨w, raising, opened⟩
  · exact complete
  · obtain ⟨q, response, answering, rfl⟩ := apart.answers_of_opened opened has
    have outside := exclusive.not_client apart answering
      (ResponderPc.isInside_of_isRaising raising)
    exact absurd (inside.symm.trans outside) (by simp)

section Client

variable {call : ℕ} {succeeds : Bool}

/-- A step of a call leaves what is in the objects as it is. -/
theorem slot_of_client (moves : ClientStep span s call succeeds t)
    (separate : s.Separate (.client call succeeds)) {object : ℕ} (old : object < s.objects) :
    t.slot object = s.slot object ∧ t.data object = s.data object := by
  rcases objects_of_client moves separate with ⟨-, -, slot, data⟩ |
    ⟨kind, -, -, -, -, slot, data, -⟩
  · rw [slot, data]
    exact ⟨rfl, rfl⟩
  · rw [slot, data]
    exact ⟨Function.update_of_ne old.ne _ _, Function.update_of_ne old.ne _ _⟩

/-- What a call has is what it had, or new memory. -/
theorem has_of_client (moves : ClientStep span s call succeeds t)
    (separate : s.Separate (.client call succeeds)) {other object : ℕ} {kind : Kind}
    (has : t.handle other kind = some object) :
    s.handle other kind = some object ∨ t.slot object = .zero := by
  rcases objects_of_client moves separate with ⟨handle, -⟩ | ⟨_, -, -, handle, -, slot, -⟩
  · exact .inl (handle ▸ has)
  · rw [handle] at has
    rcases handle_keep has with ⟨-, -, rfl⟩ | before
    · rw [slot]
      exact .inr (Function.update_self ..)
    · exact .inl before

theorem Apart.maps_of_client (apart : s.Apart) (moves : ClientStep span s call succeeds t)
    (separate : s.Separate (.client call succeeds)) {other : ℕ} {bytes : List Byte}
    (posted : other ∈ s.server.posted) (maps : s.Maps other bytes) : t.Maps other bytes := by
  intro dataShm has
  rw [apart.handle_of_client moves separate posted] at has
  rw [(slot_of_client moves separate (apart.begun _ _ _ has).2).2]
  exact maps dataShm has

/-- A call finds nothing in its slot, or a response. -/
theorem look_cases {shm : ℕ} :
    s.look call shm = .unlocking none ∨ (s.slot shm).hasResponse = true ∧
      (respondsByMmap (s.slot shm).responseSize (s.server.args call).nCheckIPC = true ∧
        s.look call shm = .copying (s.slot shm).responseSize ∨
      respondsByMmap (s.slot shm).responseSize (s.server.args call).nCheckIPC = false ∧
        s.look call shm = .unlocking (some ⟨(s.slot shm).resData.take (s.slot shm).responseSize,
          (s.slot shm).responseSize⟩)) := by
  simp only [look]
  split_ifs with answered bulk
  · simp only [StIPCData.isAnswered, Bool.and_eq_true] at answered
    exact .inr ⟨answered.2, .inl ⟨bulk, rfl⟩⟩
  · simp only [StIPCData.isAnswered, Bool.and_eq_true] at answered
    exact .inr ⟨answered.2, .inr ⟨Bool.eq_false_iff.mpr bulk, rfl⟩⟩
  · exact .inl rfl

/-- A call goes to its data segment for a response of the size that its slot says. -/
theorem copying_of_client {responseSize : ℕ} (moves : ClientStep span s call succeeds t)
    (copying : t.client call = .copying responseSize) :
    s.client call = .locked ∧ ∃ shm, s.handle call .shm = some shm ∧
      (s.slot shm).hasResponse = true ∧ responseSize = (s.slot shm).responseSize ∧
      respondsByMmap responseSize (s.server.args call).nCheckIPC = true := by
  cases moves with
  | @look shm locked has =>
    rw [client_goto] at copying
    refine ⟨locked, shm, has, ?_⟩
    rcases look_cases with nothing | ⟨hasResponse, ⟨bulk, looks⟩ | ⟨-, looks⟩⟩
    · rw [nothing] at copying
      cases copying
    · rw [looks, ClientPc.copying.injEq] at copying
      subst copying
      exact ⟨hasResponse, rfl, bulk⟩
    · rw [looks] at copying
      cases copying
  | @create kind =>
    rw [client_goto] at copying
    cases kind <;> cases copying
  | move moves =>
    rw [client_goto] at copying
    rcases moves with ⟨-, rfl⟩ | ⟨-, rfl | rfl⟩ | ⟨-, rfl | rfl⟩ <;> cases copying
  | @unlock _ result =>
    rw [client_goto] at copying
    cases result <;> cases copying
  | @drop kind =>
    rw [client_goto] at copying
    cases kind <;> cases copying
  | unlink | lock | interrupt | receive | die | miss =>
    rw [client_goto] at copying
    cases copying

/-- A call receives what it finds in its slot or in its data segment. -/
theorem received_of_client {received : Received} (moves : ClientStep span s call succeeds t)
    (receives : (t.client call).received = some received) :
    (s.client call).received = some received ∨
      (s.client call = .locked ∧ ∃ shm, s.handle call .shm = some shm ∧
        (s.slot shm).hasResponse = true ∧
        respondsByMmap (s.slot shm).responseSize (s.server.args call).nCheckIPC = false ∧
        received = ⟨(s.slot shm).resData.take (s.slot shm).responseSize,
          (s.slot shm).responseSize⟩) ∨
      ∃ responseSize dataShm, s.client call = .copying responseSize ∧
        s.handle call .dataShm = some dataShm ∧
        received = ⟨(s.data dataShm).take responseSize, responseSize⟩ := by
  cases moves with
  | @look shm locked has =>
    rw [client_goto] at receives
    rcases look_cases with nothing | ⟨hasResponse, ⟨-, looks⟩ | ⟨small, looks⟩⟩
    · rw [nothing] at receives
      cases receives
    · rw [looks] at receives
      cases receives
    · rw [looks] at receives
      exact .inr (.inl ⟨locked, shm, has, hasResponse, small, (Option.some.inj receives).symm⟩)
  | receive copying has =>
    rw [client_goto] at receives
    exact .inr (.inr ⟨_, _, copying, has, (Option.some.inj receives).symm⟩)
  | @create kind =>
    rw [client_goto] at receives
    cases kind <;> cases receives
  | move moves =>
    rw [client_goto] at receives
    rcases moves with ⟨-, rfl⟩ | ⟨-, rfl | rfl⟩ | ⟨-, rfl | rfl⟩ <;> cases receives
  | @unlock _ result _ unlocking =>
    rw [client_goto] at receives
    rw [unlocking]
    cases result with
    | none => cases receives
    | some => exact .inl receives
  | @drop kind _ _ dropping =>
    rw [client_goto] at receives
    rw [dropping]
    cases kind <;> exact .inl receives
  | unlink | lock | interrupt | die | miss =>
    rw [client_goto] at receives
    cases receives

theorem Told.keep_client (told : s.Told) (apart : s.Apart) (exclusive : s.Exclusive)
    (requested : s.Requested)
    (moves : ClientStep span s call succeeds t) (separate : s.Separate (.client call succeeds)) :
    t.Told := by
  have server := server_of_client moves
  obtain ⟨responder, answered⟩ := responder_of_client moves
  have maps : ∀ other bytes, ⟨other, bytes⟩ ∈ s.answered → s.Maps other bytes →
      t.Maps other bytes := fun other bytes member =>
    apart.maps_of_client moves separate (requested _ member)
  refine ⟨?raised, ?slot, ?copying, ?received⟩
  case raised =>
    intro w q response shm answering raising opened
    rw [server] at answering
    rw [responder] at raising opened
    have has := apart.opens answering opened
    rw [(slot_of_client moves separate (apart.begun _ _ _ has).2).1]
    exact told.raised w q response shm answering raising opened
  case slot =>
    -- a slot that was there is not touched, and a new one is empty
    intro other shm has hasResponse
    rcases has_of_client moves separate has with before | new
    · have same := (slot_of_client moves separate (apart.begun _ _ _ before).2).1
      rw [same] at hasResponse
      rw [responder]
      refine (told.slot other shm before hasResponse).imp_left fun complete => ?_
      exact complete.mono (answered ▸ List.Subset.refl _) same (by rw [server]) (maps other)
    · rw [new] at hasResponse
      cases hasResponse
  case copying =>
    intro other responseSize copying
    rw [answered]
    by_cases own : other = call
    · subst own
      -- it comes from its slot, where the response is complete
      obtain ⟨locked, shm, has, hasResponse, rfl, bulk⟩ := copying_of_client moves copying
      have inside : (s.client other).isInside = true := by rw [locked]; rfl
      obtain ⟨bytes, member, size, holds⟩ := told.complete apart exclusive inside has hasResponse
      rw [size] at bulk
      rw [if_pos bulk] at holds
      exact ⟨bytes, member, size, maps other bytes member holds⟩
    · rw [client_of_ne moves own] at copying
      obtain ⟨bytes, member, size, holds⟩ := told.copying other responseSize copying
      exact ⟨bytes, member, size, maps other bytes member holds⟩
  case received =>
    intro other received receives
    rw [answered]
    by_cases own : other = call
    · subst own
      rcases received_of_client moves receives with before | ⟨locked, shm, has, hasResponse,
        small, rfl⟩ | ⟨responseSize, dataShm, copying, has, rfl⟩
      · exact told.received other received before
      · have inside : (s.client other).isInside = true := by rw [locked]; rfl
        obtain ⟨bytes, member, size, holds⟩ := told.complete apart exclusive inside has hasResponse
        rw [size] at small
        rw [if_neg (by simp [small])] at holds
        rw [size, holds]
        exact ⟨member, rfl⟩
      · obtain ⟨bytes, member, rfl, holds⟩ := told.copying other responseSize copying
        rw [holds dataShm has]
        exact ⟨member, rfl⟩
    · rw [client_of_ne moves own] at receives
      exact told.received other received receives

end Client

theorem Told.keep_server (told : s.Told) (apart : s.Apart) {label : ServerLabel} {server : Server}
    (permitted : s.permits label = true)
    (next : s.server.step span nMaxThreadCount label = some server) :
    ({ s with server } : Exchange).Told := by
  refine ⟨?raised, ?slot, told.copying, told.received⟩
  case raised =>
    intro w q response shm answering raising opened
    rcases apart.owns w with none | ⟨q', response', answering', -⟩
    · rw [none] at raising
      cases raising
    · have same := (answering_of_server permitted next answering').symm.trans answering
      obtain ⟨rfl, rfl⟩ := WorkerPc.answering.inj same
      exact told.raised w q' response' shm answering' raising opened
  case slot =>
    intro call shm has hasResponse
    refine (told.slot call shm has hasResponse).imp_left fun complete => ?_
    exact complete.mono (List.Subset.refl _) rfl
      (Server.args_of_step next (apart.begun _ _ _ has).1) fun _ _ => id

section Respond

variable {w : ℕ} {q : Queued} {response : Response} {succeeds : Bool}

/-- The memory of the response to a request has the size that the response says. -/
theorem length_bytesOf (responding : s.server.Responding)
    (answering : s.server.worker w = .answering q response) :
    (bytesOf response).length = response.responseSize := by
  rcases responding w q response answering with ⟨-, rfl⟩ | ⟨-, rfl⟩ <;> rfl

/-- A response that goes through the data segment is not empty. -/
theorem responseSize_ne_zero (responding : s.server.Responding)
    (answering : s.server.worker w = .answering q response)
    (bulk : respondsByMmap response.responseSize q.data.nCheckIPC = true) :
    response.responseSize ≠ 0 := by
  rcases responding w q response answering with ⟨plain, rfl⟩ | ⟨-, rfl⟩
  · simp [respondsByMmap, plain] at bulk
  · exact Nat.succ_ne_zero _

/-- A worker does not give up once it has raised `hasResponse`. -/
theorem not_torn (apart : s.Apart) (responding : s.server.Responding)
    (answering : s.server.worker w = .answering q response)
    (separate : s.Separate (.respond w succeeds)) {shm sem : ℕ}
    (torn : s.responder w = .raised shm sem ∧
        respondsByMmap response.responseSize q.data.nCheckIPC = true ∧
        (succeeds = true → s.names .shm (getDataIPCName q.data.sSenderIPCName) = none) ∨
      (∃ data, s.responder w = .openDataSem shm sem data) ∧
        (succeeds = true → s.names .sem (getDataIPCName q.data.sSenderIPCName) = none) ∨
      (∃ data, s.responder w = .copy shm sem data) ∧
        (succeeds = true → response.responseSize = 0)) : False := by
  rcases torn with ⟨before, bulk, lost⟩ | ⟨⟨data, before⟩, lost⟩ | ⟨⟨data, before⟩, lost⟩
  · have none : s.find q .dataShm succeeds = none := find_eq_none.mpr lost
    simp [Separate, separates, answering, before, bulk, none] at separate
  · have none : s.find q .dataSem succeeds = none := find_eq_none.mpr lost
    simp [Separate, separates, answering, before, none] at separate
  · simp only [Separate, separates, answering, before] at separate
    refine responseSize_ne_zero responding answering (apart.bulk_of_isBulk answering ?_)
      (lost separate)
    rw [before]
    rfl

/-- A worker writes into the objects of the call it answers, and only in their section. -/
theorem Apart.slot_of_respond (apart : s.Apart)
    (answering : s.server.worker w = .answering q response)
    (responds : RespondStep pid sIPCName s w q response succeeds t) {call object : ℕ} {kind : Kind}
    (has : s.handle call kind = some object)
    (others : call = q.call → (s.responder w).isInside = false) :
    t.slot object = s.slot object ∧ t.data object = s.data object := by
  have other : (s.responder w).isInside = true → ∀ kind' object',
      (s.responder w).opened kind' = some object' → object ≠ object' := by
    rintro inside kind' _ opened rfl
    have same := (apart.distinct _ _ _ _ _ has (apart.opens answering opened)).1
    rw [others same] at inside
    cases inside
  cases responds with
  | raise before | inline before =>
    rw [before] at other
    exact ⟨Function.update_of_ne (other rfl .shm _ rfl) _ _, rfl⟩
  | copy before =>
    rw [before] at other
    exact ⟨rfl, Function.update_of_ne (other rfl .dataShm _ rfl) _ _⟩
  | _ => exact ⟨rfl, rfl⟩

theorem answered_of_respond (responds : RespondStep pid sIPCName s w q response succeeds t) :
    s.answered ⊆ t.answered := by
  cases responds with
  | inline | copy => exact List.subset_append_left ..
  | _ => exact List.Subset.refl _

theorem Apart.maps_of_respond (apart : s.Apart)
    (answering : s.server.worker w = .answering q response)
    (responds : RespondStep pid sIPCName s w q response succeeds t) {call : ℕ} {bytes : List Byte}
    (others : call = q.call → (s.responder w).isInside = false) (maps : s.Maps call bytes) :
    t.Maps call bytes := by
  intro dataShm has
  rw [(client_of_respond responds).2.1] at has
  rw [(apart.slot_of_respond answering responds has others).2]
  exact maps dataShm has

/-- The slot of another call, and that of a call before its section, stay as they are. -/
theorem Told.slot_of_others (told : s.Told) (apart : s.Apart)
    (answering : s.server.worker w = .answering q response)
    (responds : RespondStep pid sIPCName s w q response succeeds t) {call shm : ℕ}
    (has : s.handle call .shm = some shm)
    (others : call = q.call → (s.responder w).isInside = false)
    (hasResponse : (t.slot shm).hasResponse = true) :
    t.Complete call shm ∨
      ∃ v, (t.responder v).isRaising = true ∧ (t.responder v).opened .shm = some shm := by
  have same := (apart.slot_of_respond answering responds has others).1
  rw [same] at hasResponse
  rcases told.slot call shm has hasResponse with complete | ⟨v, raising, opened⟩
  · refine .inl (complete.mono (answered_of_respond responds) same ?_ fun bytes _ maps => ?_)
    · rw [(client_of_respond responds).2.2.2.2.2]
    · exact apart.maps_of_respond answering responds others maps
  · refine .inr ⟨v, ?_⟩
    have other : v ≠ w := by
      rintro rfl
      have own := (apart.distinct _ _ _ _ _ has (apart.opens answering opened)).1
      have inside := ResponderPc.isInside_of_isRaising raising
      rw [others own] at inside
      cases inside
    rw [(responder_of_ne responds other).1]
    exact ⟨raising, opened⟩

/-- A worker in the section of its call that leaves the slot alone is not yet writing, or
gives up: what is there is complete. -/
theorem Told.complete_of_worker (told : s.Told) (apart : s.Apart) (exclusive : s.Exclusive)
    (answering : s.server.worker w = .answering q response)
    (inside : (s.responder w).isInside = true) (quiet : (s.responder w).isRaising = false)
    {shm : ℕ} (has : s.handle q.call .shm = some shm)
    (hasResponse : (s.slot shm).hasResponse = true) : s.Complete q.call shm := by
  rcases told.slot q.call shm has hasResponse with complete | ⟨v, raising, opened⟩
  · exact complete
  · obtain ⟨q', response', answering', same⟩ := apart.answers_of_opened opened has
    obtain rfl := exclusive.worker_eq apart answering' answering same
      (ResponderPc.isInside_of_isRaising raising) inside
    exact absurd (raising.symm.trans quiet) (by simp)

/-- A worker in the section of its call completes the response there, or goes on to do so. -/
theorem Told.slot_of_own (told : s.Told) (apart : s.Apart) (exclusive : s.Exclusive)
    (responding : s.server.Responding)
    (checks : q.data.nCheckIPC = (s.server.args q.call).nCheckIPC)
    (answering : s.server.worker w = .answering q response)
    (responds : RespondStep pid sIPCName s w q response succeeds t)
    (separate : s.Separate (.respond w succeeds)) (inside : (s.responder w).isInside = true)
    {shm : ℕ} (has : s.handle q.call .shm = some shm)
    (hasResponse : (t.slot shm).hasResponse = true) :
    t.Complete q.call shm ∨
      ∃ v, (t.responder v).isRaising = true ∧ (t.responder v).opened .shm = some shm := by
  have owned : ∀ {pc object}, s.responder w = pc → pc.opened .shm = some object →
      object = shm := by
    rintro _ object rfl opened
    exact Option.some.inj ((apart.opens answering opened).symm.trans has)
  have length := length_bytesOf responding answering
  cases responds with
  | openShm before | openSem before | lock before | interrupt before =>
    rw [before] at inside
    cases inside
  | abort before =>
    rcases before with before | ⟨_, before⟩ <;> rw [before] at inside <;> cases inside
  -- from here on the worker itself stands for the response
  | raise before =>
    obtain rfl := owned before rfl
    exact .inr ⟨w, by rw [responder_gotoResponder]; exact ⟨rfl, rfl⟩⟩
  | openData before | openDataSem before =>
    obtain rfl := owned before rfl
    exact .inr ⟨w, by rw [responder_gotoResponder]; exact ⟨rfl, rfl⟩⟩
  | miss before | unlock before =>
    exact .inl (told.complete_of_worker apart exclusive answering inside (by rw [before]; rfl) has
      hasResponse)
  | tear torn => exact (not_torn apart responding answering separate torn).elim
  | inline before small =>
    obtain rfl := owned before rfl
    have size := told.raised w q response _ answering (by rw [before]; rfl) (by rw [before]; rfl)
    have plain : respondsByMmap (bytesOf response).length (s.server.args q.call).nCheckIPC =
        false := by
      rw [length, ← checks, small]
    refine .inl ⟨bytesOf response, List.mem_append_right _ List.mem_cons_self, ?_, ?_⟩
    -- the bytes get into the slot, where the call looks for them
    · change (Function.update s.slot _ _ _).responseSize = _
      rw [Function.update_self, length]
      exact size
    · refine (if_neg (Bool.eq_false_iff.mp plain)).mpr ?_
      change (Function.update s.slot _ _ _).resData.take _ = _
      rw [Function.update_self, take_memcpy]
  | copy before =>
    obtain rfl := owned before rfl
    have size := told.raised w q response _ answering (by rw [before]; rfl) (by rw [before]; rfl)
    have bulk : respondsByMmap (bytesOf response).length (s.server.args q.call).nCheckIPC =
        true := by
      rw [length, ← checks]
      exact apart.bulk_of_isBulk answering (by rw [before]; rfl)
    -- or into the data segment, for which the call and the worker make the same test
    refine .inl ⟨bytesOf response, List.mem_append_right _ List.mem_cons_self, ?_, ?_⟩
    · exact size.trans length.symm
    · refine (if_pos bulk).mpr fun dataShm found => ?_
      have opened : s.handle q.call .dataShm = some _ :=
        apart.opens answering (by rw [before]; rfl)
      obtain rfl := Option.some.inj (found.symm.trans opened)
      change (Function.update s.data _ _ _).take _ = _
      rw [Function.update_self, take_memcpy]

/-- While a worker raises a response, the slot of its call has the size of that response. -/
theorem Told.raised_of_respond (told : s.Told) (apart : s.Apart) (exclusive : s.Exclusive)
    (answering : s.server.worker w = .answering q response)
    (responds : RespondStep pid sIPCName s w q response succeeds t) {v : ℕ} {q' : Queued}
    {response' : Response} {shm : ℕ} (answering' : t.server.worker v = .answering q' response')
    (raising : (t.responder v).isRaising = true)
    (opened : (t.responder v).opened .shm = some shm) :
    (t.slot shm).responseSize = response'.responseSize := by
  by_cases own : v = w
  · subst own
    cases responds with
    | openShm | openSem | abort | lock | interrupt | miss | inline | copy | tear | unlock =>
      simp [leave, ResponderPc.isRaising] at raising
    | raise before =>
      obtain ⟨rfl, rfl⟩ := WorkerPc.answering.inj (answering.symm.trans answering')
      rw [responder_gotoResponder] at opened
      obtain rfl := Option.some.inj opened
      change (Function.update s.slot _ _ _).responseSize = _
      rw [Function.update_self]
      rfl
    | openData before | openDataSem before =>
      rw [responder_gotoResponder] at opened
      obtain rfl := Option.some.inj opened
      exact told.raised v q' response' _ answering' (by rw [before]; rfl) (by rw [before]; rfl)
  · obtain ⟨responder, worker⟩ := responder_of_ne responds own
    rw [responder] at raising opened
    rw [worker] at answering'
    rw [(apart.slot_of_respond answering responds (apart.opens answering' opened) ?_).1]
    · exact told.raised v q' response' shm answering' raising opened
    · -- two workers in one section are one
      intro same
      refine Bool.eq_false_iff.mpr fun inside => own ?_
      exact exclusive.worker_eq apart answering' answering same
        (ResponderPc.isInside_of_isRaising raising) inside

theorem Told.keep_respond (told : s.Told) (apart : s.Apart) (exclusive : s.Exclusive)
    (responding : s.server.Responding)
    (checks : q.data.nCheckIPC = (s.server.args q.call).nCheckIPC)
    (answering : s.server.worker w = .answering q response)
    (responds : RespondStep pid sIPCName s w q response succeeds t)
    (separate : s.Separate (.respond w succeeds)) : t.Told := by
  obtain ⟨client, handle, -⟩ := client_of_respond responds
  have grows := answered_of_respond responds
  refine ⟨?raised, ?slot, ?copying, ?received⟩
  case raised =>
    intro v q' response' shm
    exact told.raised_of_respond apart exclusive answering responds
  case slot =>
    intro call shm has hasResponse
    rw [handle] at has
    by_cases own : call = q.call ∧ (s.responder w).isInside = true
    · obtain ⟨rfl, inside⟩ := own
      exact told.slot_of_own apart exclusive responding checks answering responds separate inside
        has hasResponse
    · refine told.slot_of_others apart answering responds has (fun same => ?_) hasResponse
      exact Bool.eq_false_iff.mpr fun inside => own ⟨same, inside⟩
  case copying =>
    intro call responseSize copying
    rw [client] at copying
    obtain ⟨bytes, member, size, maps⟩ := told.copying call responseSize copying
    refine ⟨bytes, grows member, size, ?_⟩
    -- nobody answers a call that is in its section
    refine apart.maps_of_respond answering responds (fun same => ?_) maps
    refine Bool.eq_false_iff.mpr fun inside => ?_
    have outside := exclusive.not_client apart answering inside
    rw [← same, copying] at outside
    cases outside
  case received =>
    intro call received receives
    rw [client] at receives
    exact (told.received call received receives).imp_left (grows ·)

end Respond

theorem requested_of_run {allowed : Exchange → ExchangeLabel → Prop}
    (run : Run (step span nMaxThreadCount pid sIPCName) allowed start labels s) :
    s.Requested := by
  have initial : start.Requested := fun _ member => absurd member List.not_mem_nil
  refine run.invariant_of_reached initial fun _ s label t earlier requested _ next => ?_
  cases step_cases next with
  | server permitted moves =>
    exact fun answer member => Server.posted_of_step moves (requested answer member)
  | client begins moves =>
    rw [Requested, server_of_client moves, (responder_of_client moves).2]
    exact requested
  | respond created answering responds =>
    have mine := (posted_of_answering earlier answering).2
    cases responds with
    | inline | copy =>
      exact List.forall_mem_append.mpr ⟨requested, List.forall_mem_singleton.mpr mine⟩
    | _ => exact requested

theorem told_of_run
    (run : Run (step span nMaxThreadCount pid sIPCName) Separate start labels s) : s.Told := by
  have initial : start.Told := ⟨nofun, nofun, nofun, nofun⟩
  refine run.invariant_of_reached initial fun _ s label t earlier told separate next => ?_
  have apart := apart_of_run earlier
  have exclusive := exclusive_of_run earlier
  cases step_cases next with
  | server permitted moves => exact told.keep_server apart permitted moves
  | client begins moves =>
    exact told.keep_client apart exclusive (requested_of_run earlier) moves separate
  | @respond w q response succeeds t created answering responds =>
    obtain ⟨_, ran⟩ := server_of_run earlier
    have carries := (Server.carried_of_run ran).enqueued q (posted_of_answering earlier answering).1
    exact told.keep_respond apart exclusive (Server.responding_of_run ran) carries.nCheckIPC
      answering responds separate

/-- As long as the calls keep their objects apart, the workers find those of the calls they
answer, no wait is interrupted and nothing fails once `hasResponse` is raised, a call that returns
true returns what a worker has written for it. -/
theorem own_response_of_separate
    (run : Run (step span nMaxThreadCount pid sIPCName) Separate start labels s) :
    s.Correlated := by
  intro call received returned
  exact (told_of_run run).received call received (by rw [returned]; rfl)

/-- The steps of a call up to its post loop, or back from it. -/
def clientSteps (call n : ℕ) : List ExchangeLabel := List.replicate n (.client call true)

/-- A call is posted and a worker takes it. -/
def taken (args : SendArgs) : List ExchangeLabel :=
  [.server .createIPC, .server (.begin args)] ++ clientSteps 0 6 ++
  [.server (.attempt 0 0 Server.succeeding), .client 0 true, .server (.main true),
    .server (.worker 0 .test), .server (.worker 0 .deQueue), .server (.worker 0 .test)]

/-- A check of the connection, which a worker answers through the data segments. -/
def checked : List ExchangeLabel :=
  taken Server.checkCall ++ [.server (.worker 0 (.fetch true)), .server (.worker 0 .check)] ++
  List.replicate 8 (.respond 0 true) ++ clientSteps 0 9

/-- A check of the connection returns the answer to it. -/
theorem correlated_of_checked : ∃ s : Exchange, s.Correlated ∧
    s.client 0 = .returned (some ⟨quTestMsg, 8⟩) := by
  obtain ⟨s, run, ended⟩ := @exists_run_of_guarded _ _ (step 4096 2 7 ['A']) Separate
    separates (fun _ _ => id) start checked
    (fun s => s.client 0 = .returned (some ⟨quTestMsg, 8⟩)) (by decide +kernel)
  exact ⟨s, own_response_of_separate run, of_decide_eq_true ended⟩

/-- A call times out while a worker has its request, and the next call of its process is
posted and finds the response to the first. -/
def late : List ExchangeLabel :=
  taken Server.plainCall ++ [.server (.worker 0 (.callback 0)), .client 0 false] ++
  clientSteps 0 4 ++ [.server (.begin Server.plainCall)] ++ clientSteps 1 6 ++
  [.server (.attempt 1 0 Server.succeeding), .client 1 true] ++
  List.replicate 6 (.respond 0 true) ++ clientSteps 1 8

/-- A call returns true that no worker has answered. -/
theorem response_of_other_call : ∃ s : Exchange,
    Run (step 4096 2 7 ['A']) Free start late s ∧ ¬ s.Correlated := by
  obtain ⟨s, run, ended⟩ := @exists_run_of_exec _ _ (step 4096 2 7 ['A']) start late
    (fun s => s.client 1 = .returned (some ⟨[], 0⟩) ∧ s.answered = [⟨0, []⟩]) (by decide +kernel)
  obtain ⟨returned, answered⟩ := of_decide_eq_true ended
  refine ⟨s, run, fun correlated => ?_⟩
  have member := (correlated 1 _ returned).1
  rw [answered, List.mem_singleton, Answer.mk.injEq] at member
  exact absurd member.1 Nat.one_ne_zero

-- a worker that fails to open the data segment leaves a response that it has not written
example : ((exec (step 4096 2 7 ['A']) start (taken Server.checkCall ++
    [.server (.worker 0 (.fetch true)), .server (.worker 0 .check)] ++
    List.replicate 5 (.respond 0 true) ++ List.replicate 2 (.respond 0 false) ++
    clientSteps 0 9)).any fun s => s.client 0 = .returned (some ⟨List.replicate 8 0, 8⟩) ∧
      s.answered = []) = true := by decide +kernel

end Exchange

end ExLibs.IPC.Unix
