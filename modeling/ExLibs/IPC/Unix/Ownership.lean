/-
# Whose objects are open where

As long as every object that a call creates is new, and a worker finds those of the call it
answers, the calls have objects of their own, each of which one call and the workers that
answer it can reach. The semaphore of a call then keeps them out of each other's sections.
-/
import ExLibs.IPC.Unix.Exchange

namespace ExLibs.IPC.Unix

open ExLibs.Math ExLibs.Util

namespace ClientPc

/-- The call has yet to create an object. -/
def isPreparing : ClientPc → Bool
  | unlinking _ | creating _ => true
  | _ => false

/-- The call is in the section of its semaphore. -/
def isInside : ClientPc → Bool
  | locked | copying _ | unlocking _ => true
  | _ => false

end ClientPc

namespace ResponderPc

/-- The objects that a worker has open and comes back to. -/
def opened : ResponderPc → Kind → Option ℕ
  | openSem shm, .shm | lock shm _, .shm | locked shm _, .shm | raised shm _, .shm
  | openDataSem shm _ _, .shm | copy shm _ _, .shm => some shm
  | openDataSem _ _ dataShm, .dataShm | copy _ _ dataShm, .dataShm => some dataShm
  | lock _ sem, .sem | locked _ sem, .sem | raised _ sem, .sem | openDataSem _ sem _, .sem
  | copy _ sem _, .sem | unlock sem, .sem => some sem
  | _, _ => none

/-- The worker is in the section of a semaphore. -/
def isInside : ResponderPc → Bool
  | locked .. | raised .. | openDataSem .. | copy .. | unlock _ => true
  | openShm | openSem _ | lock .. => false

/-- The worker has written the head of a response and not its bytes. -/
def isRaising : ResponderPc → Bool
  | raised .. | openDataSem .. | copy .. => true
  | _ => false

/-- The worker comes to the data segment of a client. -/
def isBulk : ResponderPc → Bool
  | openDataSem .. | copy .. => true
  | _ => false

end ResponderPc

namespace Exchange

variable {span nMaxThreadCount pid : ℕ} {sIPCName : List Char} {s t : Exchange}
  {label : ExchangeLabel} {labels : List ExchangeLabel}

/-- What a worker finds, if anything, is the object of the call that it answers. -/
def findsOwn (s : Exchange) (q : Queued) (kind : Kind) (succeeds : Bool) : Bool :=
  (s.find q kind succeeds).all fun object => s.handle q.call kind = some object

/-- The calls keep their objects apart: each is new when it is created. A worker finds the
objects of the call it answers, and gets through once it has raised `hasResponse`. No wait for the
semaphore of a call is interrupted. -/
def separates (s : Exchange) : ExchangeLabel → Bool
  | .server _ => true
  | .client call succeeds =>
    match s.client call with
    | .creating kind => !succeeds || (s.names kind.space (s.nameOf call kind)).isNone
    | .locking => succeeds
    | _ => true
  | .respond w succeeds =>
    match s.server.worker w, s.responder w with
    | .answering q _, .openShm => s.findsOwn q .shm succeeds
    | .answering q _, .openSem _ => s.findsOwn q .sem succeeds
    | .answering .., .lock .. => succeeds
    | .answering q response, .raised .. =>
      !respondsByMmap response.responseSize q.data.nCheckIPC ||
        (s.find q .dataShm succeeds).isSome && s.findsOwn q .dataShm succeeds
    | .answering q _, .openDataSem .. => (s.find q .dataSem succeeds).isSome
    | .answering .., .copy .. => succeeds
    | _, _ => true

/-- The step keeps calls separate. -/
def Separate (s : Exchange) (label : ExchangeLabel) : Prop := s.separates label = true

/-- A server step that is permitted leaves the workers with a response where they are. -/
theorem answering_of_server {label : ServerLabel} {server : Server}
    (permitted : s.permits label = true)
    (next : s.server.step span nMaxThreadCount label = some server) {w : ℕ} {q : Queued}
    {response : Response} (answering : s.server.worker w = .answering q response) :
    server.worker w = .answering q response := by
  cases Server.step_cases next with
  | @worker v label _ works =>
    by_cases own : w = v
    · subst own
      cases works with
      | leave => exact absurd permitted Bool.false_ne_true
      | test before | deQueue before | skip before | start before | fetch before | lose before
      | serve before =>
        rw [answering] at before
        cases before
    · exact (Server.worker_of_ne works own).trans answering
  | _ => exact answering

/-- A call posts only when it has its objects. -/
theorem posted_of_server {label : ServerLabel} {server : Server}
    (permitted : s.permits label = true)
    (next : s.server.step span nMaxThreadCount label = some server) {call : ℕ}
    (posted : call ∈ server.posted) : call ∈ s.server.posted ∨ s.client call = .posting := by
  cases Server.step_cases next with
  | worker works => cases works <;> exact .inl posted
  | @sent other =>
    rcases List.mem_append.mp posted with earlier | now
    · exact .inl earlier
    · obtain rfl := List.mem_singleton.mp now
      exact .inr (of_decide_eq_true permitted)
  | _ => exact .inl posted

/-- An object of a call is new, as no call has the name bound. -/
theorem create_of_isNone {call : ℕ} {kind : Kind}
    (unbound : (s.names kind.space (s.nameOf call kind)).isNone = true) :
    s.create span call kind = ((s.allocate span).bind kind.space (s.nameOf call kind)
      (some s.objects)).keep call kind s.objects := by
  rw [create, Option.isNone_iff_eq_none.mp unbound]

theorem unbound_of_separate {call : ℕ} {kind : Kind} (creating : s.client call = .creating kind)
    (separate : s.Separate (.client call true)) :
    (s.names kind.space (s.nameOf call kind)).isNone = true := by
  simpa [Separate, separates, creating] using separate

section Client

variable {call : ℕ} {succeeds : Bool}

/-- A call moves itself only. -/
theorem client_of_ne (moves : ClientStep span s call succeeds t) {other : ℕ}
    (others : other ≠ call) : t.client other = s.client other := by
  cases moves with
  | create =>
    refine (Function.update_of_ne others _ _).trans ?_
    unfold create
    split <;> rfl
  | _ => exact Function.update_of_ne others _ _

/-- A call leaves the workers and what they have written alone. -/
theorem responder_of_client (moves : ClientStep span s call succeeds t) :
    t.responder = s.responder ∧ t.answered = s.answered := by
  cases moves with
  | create =>
    simp only [goto, create]
    split <;> exact ⟨rfl, rfl⟩
  | _ => exact ⟨rfl, rfl⟩

/-- A call that has its objects creates no other. -/
theorem isPreparing_of_client (moves : ClientStep span s call succeeds t)
    (prepared : (s.client call).isPreparing = false) : (t.client call).isPreparing = false := by
  cases moves with
  | unlink before | create before =>
    rw [before] at prepared
    cases prepared
  | move moves =>
    rw [client_goto]
    rcases moves with ⟨-, rfl⟩ | ⟨-, rfl | rfl⟩ | ⟨-, rfl | rfl⟩ <;> rfl
  | look =>
    rw [client_goto]
    simp only [look]
    split_ifs <;> rfl
  | @unlock _ result =>
    rw [client_goto]
    cases result <;> rfl
  | @drop kind =>
    rw [client_goto]
    cases kind <;> rfl
  | lock | interrupt | receive | die | miss => rw [client_goto]; rfl

/-- What a step of a call does to the objects: it creates a new one, or none. -/
theorem objects_of_client (moves : ClientStep span s call succeeds t)
    (separate : s.Separate (.client call succeeds)) :
    (t.handle = s.handle ∧ t.objects = s.objects ∧ t.slot = s.slot ∧ t.data = s.data) ∨
      ∃ kind, s.client call = .creating kind ∧ t.client call = .afterCreate kind ∧
        t.handle = (s.keep call kind s.objects).handle ∧ t.objects = s.objects + 1 ∧
        t.slot = (s.allocate span).slot ∧ t.data = (s.allocate span).data ∧
        t.holder = (s.allocate span).holder := by
  cases moves with
  | create creating =>
    rw [create_of_isNone (unbound_of_separate creating separate)]
    exact .inr ⟨_, creating, Function.update_self .., rfl, rfl, rfl, rfl, rfl⟩
  | _ => exact .inl ⟨rfl, rfl, rfl, rfl⟩

end Client

/-- What a call has once it has created an object. -/
theorem handle_keep {call call' object object' : ℕ} {kind kind' : Kind}
    (has : (s.keep call kind object).handle call' kind' = some object') :
    (call' = call ∧ kind' = kind ∧ object' = object) ∨ s.handle call' kind' = some object' := by
  by_cases own : call' = call
  · subst own
    by_cases same : kind' = kind
    · subst same
      simp only [keep, Function.update_self, Option.some.injEq] at has
      exact .inl ⟨rfl, rfl, has.symm⟩
    · simp only [keep, Function.update_self, Function.update_of_ne same] at has
      exact .inr has
  · simp only [keep, Function.update_of_ne own] at has
    exact .inr has

section Respond

variable {w : ℕ} {q : Queued} {response : Response} {succeeds : Bool}

/-- A worker with a response moves itself only, and leaves the calls alone. -/
theorem responder_of_ne (responds : RespondStep pid sIPCName s w q response succeeds t) {v : ℕ}
    (other : v ≠ w) : t.responder v = s.responder v ∧ t.server.worker v = s.server.worker v := by
  cases responds with
  | abort | unlock =>
    exact ⟨Function.update_of_ne other _ _, Server.gotoWorker_of_ne _ _ other⟩
  | _ => exact ⟨Function.update_of_ne other _ _, rfl⟩

theorem client_of_respond (responds : RespondStep pid sIPCName s w q response succeeds t) :
    t.client = s.client ∧ t.handle = s.handle ∧ t.objects = s.objects ∧
      t.server.posted = s.server.posted ∧ t.server.calls = s.server.calls ∧
      t.server.args = s.server.args := by
  cases responds <;> exact ⟨rfl, rfl, rfl, rfl, rfl, rfl⟩

end Respond

/-- What a worker has open belongs to the call that it answers. -/
def Owns (s : Exchange) (w : ℕ) : Prop :=
  s.responder w = .openShm ∨ ∃ q response, s.server.worker w = .answering q response ∧
    ((s.responder w).isBulk = true →
      respondsByMmap response.responseSize q.data.nCheckIPC = true) ∧
    ∀ kind object, (s.responder w).opened kind = some object →
      s.handle q.call kind = some object

/-- The calls have objects of their own. -/
structure Apart (s : Exchange) : Prop where
  begun : ∀ call kind object, s.handle call kind = some object →
    call < s.server.calls ∧ object < s.objects
  distinct : ∀ call kind call' kind' object, s.handle call kind = some object →
    s.handle call' kind' = some object → call = call' ∧ kind = kind'
  prepared : ∀ call ∈ s.server.posted, (s.client call).isPreparing = false
  owns : ∀ w, s.Owns w

/-- What a worker with a response has open is an object of its call. -/
theorem Apart.opens (apart : s.Apart) {w : ℕ} {q : Queued} {response : Response}
    (answering : s.server.worker w = .answering q response) {kind : Kind} {object : ℕ}
    (opened : (s.responder w).opened kind = some object) : s.handle q.call kind = some object := by
  rcases apart.owns w with none | ⟨q', response', answering', -, owns⟩
  · rw [none] at opened
    cases opened
  · rw [answering, WorkerPc.answering.injEq] at answering'
    obtain ⟨rfl, rfl⟩ := answering'
    exact owns kind object opened

/-- A worker comes to the data segment only with a bulk response. -/
theorem Apart.bulk_of_isBulk (apart : s.Apart) {w : ℕ} {q : Queued} {response : Response}
    (answering : s.server.worker w = .answering q response)
    (bulk : (s.responder w).isBulk = true) :
    respondsByMmap response.responseSize q.data.nCheckIPC = true := by
  rcases apart.owns w with none | ⟨q', response', answering', bulky, -⟩
  · rw [none] at bulk
    cases bulk
  · rw [answering, WorkerPc.answering.injEq] at answering'
    obtain ⟨rfl, rfl⟩ := answering'
    exact bulky bulk

theorem Apart.keep_server (apart : s.Apart) {label : ServerLabel} {server : Server}
    (permitted : s.permits label = true)
    (next : s.server.step span nMaxThreadCount label = some server) :
    ({ s with server } : Exchange).Apart := by
  obtain ⟨begun, distinct, prepared, owns⟩ := apart
  refine ⟨?begun, distinct, ?prepared, ?owns⟩
  case begun =>
    intro call kind object has
    exact (begun call kind object has).imp_left
      (lt_of_lt_of_le · (Server.calls_le_of_step next))
  case prepared =>
    intro call posted
    rcases posted_of_server permitted next posted with earlier | posting
    · exact prepared call earlier
    · exact congrArg ClientPc.isPreparing posting
  case owns =>
    intro w
    rcases owns w with none | ⟨q, response, answering, opens⟩
    · exact .inl none
    · exact .inr ⟨q, response, answering_of_server permitted next answering, opens⟩

/-- The objects of a call that has posted stay with it. -/
theorem Apart.handle_of_client (apart : s.Apart) {call : ℕ} {succeeds : Bool}
    (moves : ClientStep span s call succeeds t) (separate : s.Separate (.client call succeeds))
    {other : ℕ} (posted : other ∈ s.server.posted) : t.handle other = s.handle other := by
  rcases objects_of_client moves separate with ⟨same, -⟩ | ⟨kind, creating, -, same, -⟩
  · rw [same]
  · rw [same]
    refine Function.update_of_ne (fun own => ?_) _ _
    subst own
    have prepared := apart.prepared other posted
    rw [creating] at prepared
    cases prepared

theorem Apart.keep_client (apart : s.Apart) {call : ℕ} {succeeds : Bool}
    (begins : call < s.server.calls)
    (answers : ∀ w q response, s.server.worker w = .answering q response →
      q.call ∈ s.server.posted)
    (moves : ClientStep span s call succeeds t) (separate : s.Separate (.client call succeeds)) :
    t.Apart := by
  have server := server_of_client moves
  refine ⟨?begun, ?distinct, ?prepared, ?owns⟩
  case begun =>
    intro call' kind object has
    rw [server]
    rcases objects_of_client moves separate with ⟨same, objects, -⟩ |
      ⟨kind', -, -, same, objects, -⟩
    · rw [same] at has
      rw [objects]
      exact apart.begun call' kind object has
    · rw [same] at has
      rw [objects]
      -- the new object comes after all others
      rcases handle_keep has with ⟨rfl, rfl, rfl⟩ | before
      · exact ⟨begins, Nat.lt_succ_self _⟩
      · exact (apart.begun call' kind object before).imp_right Nat.lt_succ_of_lt
  case distinct =>
    intro call' kind call'' kind' object has has'
    rcases objects_of_client moves separate with ⟨same, -⟩ | ⟨kind'', -, -, same, -⟩
    · rw [same] at has has'
      exact apart.distinct call' kind call'' kind' object has has'
    · rw [same] at has has'
      -- so it is none of those that a call has
      rcases handle_keep has with ⟨rfl, rfl, rfl⟩ | before <;>
        rcases handle_keep has' with ⟨rfl, rfl, new⟩ | before'
      · exact ⟨rfl, rfl⟩
      · exact absurd (apart.begun _ _ _ before').2 (Nat.lt_irrefl _)
      · exact absurd (new ▸ (apart.begun _ _ _ before).2) (Nat.lt_irrefl _)
      · exact apart.distinct call' kind call'' kind' object before before'
  case prepared =>
    intro call' posted
    rw [server] at posted
    by_cases own : call' = call
    · subst own
      exact isPreparing_of_client moves (apart.prepared call' posted)
    · rw [client_of_ne moves own]
      exact apart.prepared call' posted
  case owns =>
    intro w
    rw [Owns, (responder_of_client moves).1, server]
    rcases apart.owns w with none | ⟨q, response, answering, bulk, opens⟩
    · exact .inl none
    · -- the call has posted, so it creates nothing any more
      refine .inr ⟨q, response, answering, bulk, ?_⟩
      rwa [apart.handle_of_client moves separate (answers w q response answering)]

/-- What a worker finds is the object of its call. -/
theorem handle_of_findsOwn {q : Queued} {kind : Kind} {object : ℕ}
    (own : s.findsOwn q kind true = true)
    (found : s.names kind.space (kind.name q.data.sSenderIPCName) = some object) :
    s.handle q.call kind = some object := by
  simpa [findsOwn, find_eq_some.mpr ⟨rfl, found⟩] using own

/-- A worker that takes a step with its response goes on with what it has open and with what
it finds. -/
theorem Apart.owns_of_respond (apart : s.Apart) {w : ℕ} {q : Queued} {response : Response}
    {succeeds : Bool} (answering : s.server.worker w = .answering q response)
    (responds : RespondStep pid sIPCName s w q response succeeds t)
    (separate : s.Separate (.respond w succeeds)) : t.Owns w := by
  have opens : ∀ pc, s.responder w = pc → ∀ kind object, pc.opened kind = some object →
      s.handle q.call kind = some object := by
    rintro _ rfl kind object opened
    exact apart.opens answering opened
  have goes : ∀ pc, t.responder w = pc → t.server = s.server → t.handle = s.handle →
      (pc.isBulk = true → respondsByMmap response.responseSize q.data.nCheckIPC = true) →
      (∀ kind object, pc.opened kind = some object → s.handle q.call kind = some object) →
      t.Owns w := by
    rintro _ rfl server handle bulk opened
    exact .inr ⟨q, response, server ▸ answering, bulk, handle ▸ opened⟩
  cases responds with
  | openShm before found =>
    simp only [Separate, separates, answering, before] at separate
    refine goes _ (Function.update_self ..) rfl rfl nofun fun kind object opened => ?_
    -- what it finds is its own, as the step is separate
    cases kind with
    | shm => exact Option.some.inj opened ▸ handle_of_findsOwn separate found
    | sem | dataShm | dataSem => cases opened
  | openSem before found =>
    simp only [Separate, separates, answering, before] at separate
    refine goes _ (Function.update_self ..) rfl rfl nofun fun kind object opened => ?_
    cases kind with
    | shm => exact opens _ before .shm object opened
    | sem => exact Option.some.inj opened ▸ handle_of_findsOwn separate found
    | dataShm | dataSem => cases opened
  | abort | unlock => exact .inl (Function.update_self ..)
  | lock before | interrupt before | raise before =>
    refine goes _ (Function.update_self ..) rfl rfl nofun fun kind object opened => ?_
    cases kind with
    | shm | sem => exact opens _ before _ object opened
    | dataShm | dataSem => cases opened
  | openData before bulk found =>
    simp only [Separate, separates, answering, before, bulk, Bool.not_true, Bool.false_or,
      Bool.and_eq_true] at separate
    refine goes _ (Function.update_self ..) rfl rfl (fun _ => bulk) fun kind object opened => ?_
    cases kind with
    | shm | sem => exact opens _ before _ object opened
    | dataShm => exact Option.some.inj opened ▸ handle_of_findsOwn separate.2 found
    | dataSem => cases opened
  | openDataSem before =>
    refine goes _ (Function.update_self ..) rfl rfl (fun _ =>
      apart.bulk_of_isBulk answering (by rw [before]; rfl)) fun kind object opened => ?_
    cases kind with
    | shm | sem | dataShm => exact opens _ before _ object opened
    | dataSem => cases opened
  | miss before | inline before | copy before =>
    refine goes _ (Function.update_self ..) rfl rfl nofun fun kind object opened => ?_
    cases kind with
    | sem => exact opens _ before .sem object opened
    | shm | dataShm | dataSem => cases opened
  | tear torn =>
    refine goes _ (Function.update_self ..) rfl rfl nofun fun kind object opened => ?_
    cases kind with
    | sem => rcases torn with ⟨before, -⟩ | ⟨⟨_, before⟩, -⟩ | ⟨⟨_, before⟩, -⟩ <;>
        exact opens _ before .sem object opened
    | shm | dataShm | dataSem => cases opened

theorem Apart.keep_respond (apart : s.Apart) {w : ℕ} {q : Queued} {response : Response}
    {succeeds : Bool} (answering : s.server.worker w = .answering q response)
    (responds : RespondStep pid sIPCName s w q response succeeds t)
    (separate : s.Separate (.respond w succeeds)) : t.Apart := by
  obtain ⟨client, handle, objects, posted, calls, -⟩ := client_of_respond responds
  refine ⟨?begun, ?distinct, ?prepared, ?owns⟩
  case begun =>
    rw [handle, objects, calls]
    exact apart.begun
  case distinct =>
    rw [handle]
    exact apart.distinct
  case prepared =>
    rw [client, posted]
    exact apart.prepared
  case owns =>
    intro v
    by_cases own : v = w
    · subst own
      exact apart.owns_of_respond answering responds separate
    · obtain ⟨responder, worker⟩ := responder_of_ne responds own
      rw [Owns, responder, worker, handle]
      exact apart.owns v

/-- The request that a worker answers was posted by its call. -/
theorem posted_of_answering {allowed : Exchange → ExchangeLabel → Prop}
    (run : Run (step span nMaxThreadCount pid sIPCName) allowed start labels s) {w : ℕ} {q : Queued}
    {response : Response} (answering : s.server.worker w = .answering q response) :
    q ∈ s.server.enqueued ∧ q.call ∈ s.server.posted := by
  obtain ⟨labels', ran⟩ := server_of_run run
  have holds : (s.server.worker w).request = some q := by rw [answering]; rfl
  have member := (Server.custody_of_run ran).busy holds (by rw [answering]; exact nofun)
  exact ⟨member, (Server.balanced_of_run ran).subset (List.mem_map_of_mem member)⟩

theorem apart_of_run
    (run : Run (step span nMaxThreadCount pid sIPCName) Separate start labels s) : s.Apart := by
  have initial : start.Apart :=
    ⟨nofun, nofun, fun _ member => absurd member List.not_mem_nil, fun _ => .inl rfl⟩
  refine run.invariant_of_reached initial fun _ s label t earlier apart separate next => ?_
  cases step_cases next with
  | server permitted moves => exact apart.keep_server permitted moves
  | client begins moves =>
    have posted : ∀ w q response, s.server.worker w = .answering q response →
        q.call ∈ s.server.posted := fun _ _ _ answering =>
      (posted_of_answering earlier answering).2
    exact apart.keep_client begins posted moves separate
  | respond created answering responds => exact apart.keep_respond answering responds separate

/-- A semaphore is free or held, and who is in its section has entered it and not left. -/
structure Exclusive (s : Exchange) : Prop where
  counted : ∀ sem, s.value sem = 0 ∨ s.value sem = 1 ∧ s.holder sem = none
  client : ∀ call sem, (s.client call).isInside = true → s.handle call .sem = some sem →
    s.holder sem = some (.client call)
  worker : ∀ w sem, (s.responder w).isInside = true → (s.responder w).opened .sem = some sem →
    s.holder sem = some (.worker w)

theorem Exclusive.free (exclusive : s.Exclusive) {sem : ℕ} (positive : 0 < s.value sem) :
    s.value sem = 1 ∧ s.holder sem = none :=
  (exclusive.counted sem).resolve_left positive.ne'

/-- A semaphore that is held is not free. -/
theorem Exclusive.zero (exclusive : s.Exclusive) {sem : ℕ} {holder : Holder}
    (held : s.holder sem = some holder) : s.value sem = 0 := by
  refine (exclusive.counted sem).resolve_right fun free => ?_
  cases free.2.symm.trans held

/-- A wait takes the one that a semaphore has. -/
theorem Exclusive.counted_semWait (exclusive : s.Exclusive) {sem : ℕ} {holder : Holder}
    (positive : 0 < s.value sem) (other : ℕ) : (s.semWait sem holder).value other = 0 ∨
      (s.semWait sem holder).value other = 1 ∧ (s.semWait sem holder).holder other = none := by
  by_cases same : other = sem
  · subst same
    left
    simp [semWait, (exclusive.free positive).1]
  · simpa [semWait, same] using exclusive.counted other

/-- A post gives it back. -/
theorem Exclusive.counted_semPost (exclusive : s.Exclusive) {sem : ℕ} {holder : Holder}
    (held : s.holder sem = some holder) (other : ℕ) : (s.semPost sem).value other = 0 ∨
      (s.semPost sem).value other = 1 ∧ (s.semPost sem).holder other = none := by
  by_cases same : other = sem
  · subst same
    right
    simp [semPost, exclusive.zero held]
  · simpa [semPost, same] using exclusive.counted other

/-- Who is in one section stays there as another is entered or left by someone else. -/
theorem holder_update {sem sem' : ℕ} {holder : Holder} {next : Option Holder}
    (held : s.holder sem' = some holder) (other : s.holder sem ≠ some holder) :
    Function.update s.holder sem next sem' = some holder := by
  refine (Function.update_of_ne (fun same => other ?_) _ _).trans held
  exact same ▸ held

theorem Apart.lt_of_inside (apart : s.Apart) {w sem : ℕ}
    (opened : (s.responder w).opened .sem = some sem) : sem < s.objects := by
  rcases apart.owns w with none | ⟨q, response, answering, -, opens⟩
  · rw [none] at opened
    cases opened
  · exact (apart.begun _ _ _ (opens .sem sem opened)).2

/-- A step of a call leaves everyone else in their sections. -/
theorem Exclusive.holder_of_client (exclusive : s.Exclusive) {call : ℕ} {succeeds : Bool}
    (moves : ClientStep span s call succeeds t) (separate : s.Separate (.client call succeeds))
    {sem : ℕ} {holder : Holder} (held : s.holder sem = some holder)
    (other : holder ≠ .client call) (old : sem < s.objects) : t.holder sem = some holder := by
  cases moves with
  | create creating =>
    -- the semaphore is older than the new object, which nobody holds
    rw [create_of_isNone (unbound_of_separate creating separate)]
    exact (Function.update_of_ne old.ne _ _).trans held
  | lock locking has positive =>
    exact holder_update held (by simp [exclusive.free positive])
  | unlock unlocking has =>
    -- the call leaves a section of its own
    refine holder_update held fun same => other ?_
    have mine := exclusive.client call _ (by rw [unlocking]; rfl) has
    exact Option.some.inj (same.symm.trans mine)
  | _ => exact held

/-- So does a step of a worker. -/
theorem Exclusive.holder_of_respond (exclusive : s.Exclusive) {w : ℕ} {q : Queued}
    {response : Response} {succeeds : Bool}
    (responds : RespondStep pid sIPCName s w q response succeeds t) {sem : ℕ} {holder : Holder}
    (held : s.holder sem = some holder) (other : holder ≠ .worker w) :
    t.holder sem = some holder := by
  cases responds with
  | lock locking positive => exact holder_update held (by simp [exclusive.free positive])
  | unlock unlocking =>
    refine holder_update held fun same => other ?_
    have mine := exclusive.worker w _ (by rw [unlocking]; rfl) (by rw [unlocking]; rfl)
    exact Option.some.inj (same.symm.trans mine)
  | _ => exact held

theorem handle_of_ne {call : ℕ} {succeeds : Bool} (moves : ClientStep span s call succeeds t)
    (separate : s.Separate (.client call succeeds)) {other : ℕ} (others : other ≠ call) :
    t.handle other = s.handle other := by
  rcases objects_of_client moves separate with ⟨same, -⟩ | ⟨kind, -, -, same, -⟩
  · rw [same]
  · rw [same]
    exact Function.update_of_ne others _ _

/-- A call that is in its section after a step of its own holds its semaphore. -/
theorem Exclusive.client_of_client (exclusive : s.Exclusive) {call : ℕ} {succeeds : Bool}
    (moves : ClientStep span s call succeeds t) (separate : s.Separate (.client call succeeds))
    {sem : ℕ} (inside : (t.client call).isInside = true) (has : t.handle call .sem = some sem) :
    t.holder sem = some (.client call) := by
  cases moves with
  | @create kind =>
    rw [client_goto] at inside
    cases kind <;> cases inside
  | lock locking has' =>
    obtain rfl := Option.some.inj (has.symm.trans has')
    exact Function.update_self ..
  | interrupt locking => simp [Separate, separates, locking] at separate
  -- these steps begin inside and stay there
  | look before | receive before => exact exclusive.client call sem (by rw [before]; rfl) has
  | miss before =>
    refine exclusive.client call sem ?_ has
    rcases before with before | ⟨_, before⟩ <;> rw [before] <;> rfl
  | move moves =>
    rw [client_goto] at inside
    rcases moves with ⟨-, rfl⟩ | ⟨-, rfl | rfl⟩ | ⟨-, rfl | rfl⟩ <;> cases inside
  | unlink | die =>
    rw [client_goto] at inside
    cases inside
  | @unlock _ result =>
    rw [client_goto] at inside
    cases result <;> cases inside
  | @drop kind =>
    rw [client_goto] at inside
    cases kind <;> cases inside

/-- A worker that is in a section after a step of its own holds the semaphore. -/
theorem Exclusive.worker_of_respond (exclusive : s.Exclusive) {w : ℕ} {q : Queued}
    {response : Response} {succeeds : Bool} (answering : s.server.worker w = .answering q response)
    (responds : RespondStep pid sIPCName s w q response succeeds t)
    (separate : s.Separate (.respond w succeeds)) {sem : ℕ}
    (inside : (t.responder w).isInside = true) (opened : (t.responder w).opened .sem = some sem) :
    t.holder sem = some (.worker w) := by
  have stays : ∀ pc pc', s.responder w = pc → t.responder w = pc' → pc.isInside = true →
      pc'.opened .sem = pc.opened .sem → t.holder = s.holder → t.holder sem = some (.worker w) := by
    rintro _ _ rfl rfl before same holder
    rw [holder]
    exact exclusive.worker w sem before (same.symm.trans opened)
  cases responds with
  | openShm | openSem | abort | unlock => simp [leave, ResponderPc.isInside] at inside
  | lock locking =>
    rw [responder_gotoResponder] at opened
    obtain rfl := Option.some.inj opened
    exact Function.update_self ..
  | interrupt locking => simp [Separate, separates, answering, locking] at separate
  | raise before | openData before | openDataSem before | miss before | inline before
  | copy before => exact stays _ _ before (Function.update_self ..) rfl rfl rfl
  | tear torn =>
    rcases torn with ⟨before, -⟩ | ⟨⟨_, before⟩, -⟩ | ⟨⟨_, before⟩, -⟩ <;>
      exact stays _ _ before (Function.update_self ..) rfl rfl rfl

/-- The semaphores are free or held after a step of a call. -/
theorem Exclusive.counted_of_client (exclusive : s.Exclusive) {call : ℕ} {succeeds : Bool}
    (moves : ClientStep span s call succeeds t) (separate : s.Separate (.client call succeeds))
    (sem : ℕ) : t.value sem = 0 ∨ t.value sem = 1 ∧ t.holder sem = none := by
  cases moves with
  | create creating =>
    rw [create_of_isNone (unbound_of_separate creating separate)]
    by_cases same : sem = s.objects
    · subst same
      exact .inr ⟨Function.update_self .., Function.update_self ..⟩
    · simpa [goto, keep, bind, allocate, same] using exclusive.counted sem
  | lock locking has positive => exact exclusive.counted_semWait positive sem
  | unlock unlocking has =>
    exact exclusive.counted_semPost (exclusive.client call _ (by rw [unlocking]; rfl) has) sem
  | _ => exact exclusive.counted sem

/-- So they are after a step of a worker. -/
theorem Exclusive.counted_of_respond (exclusive : s.Exclusive) {w : ℕ} {q : Queued}
    {response : Response} {succeeds : Bool}
    (responds : RespondStep pid sIPCName s w q response succeeds t) (sem : ℕ) :
    t.value sem = 0 ∨ t.value sem = 1 ∧ t.holder sem = none := by
  cases responds with
  | lock locking positive => exact exclusive.counted_semWait positive sem
  | unlock unlocking =>
    exact exclusive.counted_semPost
      (exclusive.worker w _ (by rw [unlocking]; rfl) (by rw [unlocking]; rfl)) sem
  | _ => exact exclusive.counted sem

theorem Exclusive.keep_client (exclusive : s.Exclusive) (apart : s.Apart) {call : ℕ}
    {succeeds : Bool} (moves : ClientStep span s call succeeds t)
    (separate : s.Separate (.client call succeeds)) : t.Exclusive := by
  refine ⟨exclusive.counted_of_client moves separate, ?client, ?worker⟩
  case client =>
    intro other sem inside has
    by_cases own : other = call
    · subst own
      exact exclusive.client_of_client moves separate inside has
    · rw [client_of_ne moves own] at inside
      rw [handle_of_ne moves separate own] at has
      refine exclusive.holder_of_client moves separate (exclusive.client other sem inside has) ?_
        (apart.begun _ _ _ has).2
      simpa using own
  case worker =>
    intro w sem inside opened
    rw [(responder_of_client moves).1] at inside opened
    exact exclusive.holder_of_client moves separate (exclusive.worker w sem inside opened) nofun
      (apart.lt_of_inside opened)

theorem Exclusive.keep_respond (exclusive : s.Exclusive) {w : ℕ} {q : Queued}
    {response : Response} {succeeds : Bool} (answering : s.server.worker w = .answering q response)
    (responds : RespondStep pid sIPCName s w q response succeeds t)
    (separate : s.Separate (.respond w succeeds)) : t.Exclusive := by
  obtain ⟨client, handle, -⟩ := client_of_respond responds
  refine ⟨exclusive.counted_of_respond responds, ?client, ?worker⟩
  case client =>
    intro call sem inside has
    rw [client] at inside
    rw [handle] at has
    exact exclusive.holder_of_respond responds (exclusive.client call sem inside has) nofun
  case worker =>
    intro v sem inside opened
    by_cases own : v = w
    · subst own
      exact exclusive.worker_of_respond answering responds separate inside opened
    · rw [(responder_of_ne responds own).1] at inside opened
      refine exclusive.holder_of_respond responds (exclusive.worker v sem inside opened) ?_
      simpa using own

theorem exclusive_of_run
    (run : Run (step span nMaxThreadCount pid sIPCName) Separate start labels s) :
    s.Exclusive := by
  have initial : start.Exclusive := ⟨fun _ => .inl rfl, nofun, nofun⟩
  refine run.invariant_of_reached initial fun _ s label t earlier exclusive separate next => ?_
  cases step_cases next with
  | server => exact ⟨exclusive.counted, exclusive.client, exclusive.worker⟩
  | client begins moves => exact exclusive.keep_client (apart_of_run earlier) moves separate
  | respond created answering responds =>
    exact exclusive.keep_respond answering responds separate

/-- A worker that is in a section has its semaphore open. -/
theorem ResponderPc.opened_of_isInside {pc : ResponderPc} (inside : pc.isInside = true) :
    ∃ sem, pc.opened .sem = some sem := by
  cases pc <;> first | exact ⟨_, rfl⟩ | cases inside

/-- A call is not in its section while a worker that answers it is. -/
theorem Exclusive.not_client (exclusive : s.Exclusive) (apart : s.Apart) {w : ℕ} {q : Queued}
    {response : Response} (answering : s.server.worker w = .answering q response)
    (inside : (s.responder w).isInside = true) : (s.client q.call).isInside = false := by
  obtain ⟨sem, opened⟩ := ResponderPc.opened_of_isInside inside
  refine Bool.eq_false_iff.mpr fun both => ?_
  -- both hold the semaphore that the worker has open
  have mine := exclusive.client q.call sem both (apart.opens answering opened)
  have others := exclusive.worker w sem inside opened
  exact absurd (mine.symm.trans others) (by simp)

/-- Nor is another worker that answers it. -/
theorem Exclusive.worker_eq (exclusive : s.Exclusive) (apart : s.Apart) {w v : ℕ} {q q' : Queued}
    {response response' : Response} (answering : s.server.worker w = .answering q response)
    (answering' : s.server.worker v = .answering q' response') (same : q.call = q'.call)
    (inside : (s.responder w).isInside = true) (inside' : (s.responder v).isInside = true) :
    w = v := by
  obtain ⟨sem, opened⟩ := ResponderPc.opened_of_isInside inside
  obtain ⟨sem', opened'⟩ := ResponderPc.opened_of_isInside inside'
  have has := apart.opens answering opened
  rw [same, apart.opens answering' opened'] at has
  obtain rfl := Option.some.inj has
  have both := (exclusive.worker w sem' inside opened).symm.trans
    (exclusive.worker v sem' inside' opened')
  simpa using both

end Exchange

end ExLibs.IPC.Unix
