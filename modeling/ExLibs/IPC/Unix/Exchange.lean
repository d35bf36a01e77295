/-
# Requests and responses over Unix IPC

A server, its callers with the named objects that they create for their responses, and the
workers that open these objects by name. The names are those of the process and its
program, so that all calls of a process use the same; an object lives on for who has it
open when its name is unlinked or given to another.

A section under the semaphore of a client is taken step by step, also by who has not waited for
it to the end: a guard does not notice when its wait is interrupted. A copy under the semaphore
of a data segment, which lies inside such a section on both sides, is one step.
-/
import ExLibs.IPC.Unix.Requests
import ExLibs.IPC.Unix.Response

namespace ExLibs.IPC.Unix

open ExLibs.Math ExLibs.Util

/-- The objects of a call: its slot and its data segment, and a semaphore for each. -/
inductive Kind
  | shm
  | dataShm
  | sem
  | dataSem
  deriving DecidableEq

/-- The names of shared memory and the names of semaphores. -/
inductive Space
  | shm
  | sem
  deriving DecidableEq

namespace Kind

def space : Kind → Space
  | shm | dataShm => .shm
  | sem | dataSem => .sem

/-- The name of an object of a call whose slot has the given name. -/
def name : Kind → List Char → List Char
  | shm | sem => id
  | dataShm | dataSem => getDataIPCName

end Kind

/-- What `SendIPC` leaves in `responseData` and `responseSize`. -/
structure Received where
  responseData : List Byte
  responseSize : ℕ
  deriving DecidableEq

/-- Where a call is with its response. A result that is none is false. -/
inductive ClientPc
  /-- `sem_unlink`, with which a semaphore is created. -/
  | unlinking (kind : Kind)
  | creating (kind : Kind)
  /-- It is with the server. -/
  | posting
  /-- It is at the head of its receive loop. -/
  | waiting
  | locking
  | locked
  /-- It comes to its data segment. -/
  | copying (responseSize : ℕ)
  | unlocking (result : Option Received)
  /-- It closes and unlinks its objects. -/
  | dropping (kind : Kind) (result : Option Received)
  | returned (result : Option Received)
  /-- It has read past its data segment. -/
  | killed
  deriving DecidableEq

namespace ClientPc

/-- What follows the creation of an object. -/
def afterCreate : Kind → ClientPc
  | .shm => creating .dataShm
  | .dataShm => unlinking .sem
  | .sem => unlinking .dataSem
  | .dataSem => posting

/-- What follows the destruction of an object, in the order opposite to their creation. -/
def afterDrop (result : Option Received) : Kind → ClientPc
  | .dataSem => dropping .sem result
  | .sem => dropping .dataShm result
  | .dataShm => dropping .shm result
  | .shm => returned result

/-- The call leaves its function with a result. -/
def leave (result : Option Received) : ClientPc := dropping .dataSem result

/-- What follows a section: the end of the loop once there is a response. -/
def afterUnlock : Option Received → ClientPc
  | some received => leave (some received)
  | none => waiting

end ClientPc

/-- Where a worker is with a response, and the objects of the client that it has open. -/
inductive ResponderPc
  | openShm
  | openSem (shm : ℕ)
  | lock (shm sem : ℕ)
  | locked (shm sem : ℕ)
  /-- It has written the head of the response. -/
  | raised (shm sem : ℕ)
  | openDataSem (shm sem dataShm : ℕ)
  | copy (shm sem dataShm : ℕ)
  | unlock (sem : ℕ)
  deriving DecidableEq

/-- Who comes to the section of a semaphore. -/
inductive Holder
  | client (call : ℕ)
  | worker (w : ℕ)
  deriving DecidableEq

/-- A response that a worker has written for a call. -/
structure Answer where
  call : ℕ
  bytes : List Byte
  deriving DecidableEq

/-- A server with its callers, the objects they share and the names of these. Semaphores have
values. `answered` and `holder` are records, the latter of who has come through a wait for a
semaphore last, up to the next post. -/
structure Exchange where
  server : Server
  names : Space → List Char → Option ℕ
  slot : ℕ → StIPCData
  data : ℕ → List Byte
  value : ℕ → ℕ
  holder : ℕ → Option Holder
  objects : ℕ
  handle : ℕ → Kind → Option ℕ
  client : ℕ → ClientPc
  responder : ℕ → ResponderPc
  answered : List Answer

/-- A step of the server with its callers up to their responses, of a call or of a worker
with a response. Where nothing can fail, either flag will do. -/
inductive ExchangeLabel
  | server (label : ServerLabel)
  | client (call : ℕ) (succeeds : Bool)
  | respond (w : ℕ) (succeeds : Bool)

namespace Exchange

/-- A server whose memory is new. -/
def start : Exchange where
  server := .start
  names _ _ := none
  slot _ := .zero
  data _ := []
  value _ := 0
  holder _ := none
  objects := 0
  handle _ _ := none
  client _ := .creating .shm
  responder _ := .openShm
  answered := []

/-- The name of an object of a call. -/
def nameOf (s : Exchange) (call : ℕ) (kind : Kind) : List Char :=
  kind.name (s.server.args call).sIPCClientName

/-- A call moves on. -/
def goto (s : Exchange) (call : ℕ) (pc : ClientPc) : Exchange :=
  { s with client := Function.update s.client call pc }

@[simp]
theorem client_goto (s : Exchange) (call : ℕ) (pc : ClientPc) : (s.goto call pc).client call = pc :=
  Function.update_self ..

/-- A worker moves on. -/
def gotoResponder (s : Exchange) (w : ℕ) (pc : ResponderPc) : Exchange :=
  { s with responder := Function.update s.responder w pc }

@[simp]
theorem responder_gotoResponder (s : Exchange) (w : ℕ) (pc : ResponderPc) :
    (s.gotoResponder w pc).responder w = pc :=
  Function.update_self ..

/-- Bind a name, or unlink it. -/
def bind (s : Exchange) (space : Space) (name : List Char) (object : Option ℕ) : Exchange :=
  { s with names := Function.update s.names space (Function.update (s.names space) name object) }

/-- `sem_wait` is over. -/
def semWait (s : Exchange) (sem : ℕ) (holder : Holder) : Exchange :=
  { s with
    value := Function.update s.value sem (s.value sem - 1)
    holder := Function.update s.holder sem (some holder) }

/-- `sem_post`. -/
def semPost (s : Exchange) (sem : ℕ) : Exchange :=
  { s with
    value := Function.update s.value sem (s.value sem + 1)
    holder := Function.update s.holder sem none }

/-- A call has an object. -/
def keep (s : Exchange) (call : ℕ) (kind : Kind) (object : ℕ) : Exchange :=
  { s with
    handle := Function.update s.handle call
      (Function.update (s.handle call) kind (some object)) }

/-- A new object: zeros, or a semaphore that is free. -/
def allocate (span : ℕ) (s : Exchange) : Exchange :=
  { s with
    objects := s.objects + 1
    slot := Function.update s.slot s.objects .zero
    data := Function.update s.data s.objects (List.replicate span 0)
    value := Function.update s.value s.objects 1
    holder := Function.update s.holder s.objects none }

/-- `shm_open` or `sem_open` with `O_CREAT`: the object of the name, if there is one. -/
def create (span : ℕ) (s : Exchange) (call : ℕ) (kind : Kind) : Exchange :=
  match s.names kind.space (s.nameOf call kind) with
  | some object => s.keep call kind object
  | none => ((s.allocate span).bind kind.space (s.nameOf call kind) (some s.objects)).keep
      call kind s.objects

/-- A worker is done with a response. -/
def leave (s : Exchange) (w : ℕ) : Exchange :=
  { s.gotoResponder w .openShm with server := s.server.gotoWorker w .testing }

/-- A call looks at its slot. -/
def look (s : Exchange) (call shm : ℕ) : ClientPc :=
  let client := s.slot shm
  if client.isAnswered then
    if respondsByMmap client.responseSize (s.server.args call).nCheckIPC then
      .copying client.responseSize
    else .unlocking (some ⟨client.resData.take client.responseSize, client.responseSize⟩)
  else .unlocking none

/-- A step of a call. Data segments span `span` bytes. -/
def stepClient (span : ℕ) (s : Exchange) (call : ℕ) (succeeds : Bool) : Option Exchange :=
  match s.client call with
  | .unlinking kind => some
    ((s.bind kind.space (s.nameOf call kind) none).goto call (.creating kind))
  | .creating kind =>
    if succeeds then some ((s.create span call kind).goto call (.afterCreate kind))
    else some (s.goto call (.leave none))
  | .posting =>
    -- the post loop is a matter of the server
    match s.server.pc call with
    | .sent => some (s.goto call .waiting)
    | .gaveUp => some (s.goto call (.leave none))
    | _ => none
  | .waiting => some (s.goto call (if succeeds then .locking else .leave none))
  | .locking =>
    match s.handle call .sem with
    | some sem =>
      if succeeds then
        if s.value sem = 0 then none
        else some ((s.semWait sem (.client call)).goto call .locked)
      else some (s.goto call .locked)
    | none => none
  | .locked =>
    match s.handle call .shm with
    | some shm => some (s.goto call (if succeeds then s.look call shm else .unlocking none))
    | none => none
  | .copying responseSize =>
    match s.handle call .dataShm with
    | some data =>
      -- nothing can be mapped with size zero
      if succeeds ∧ responseSize ≠ 0 then
        if responseSize ≤ span then some (s.goto call
          (.unlocking (some ⟨(s.data data).take responseSize, responseSize⟩)))
        else some (s.goto call .killed)
      else some (s.goto call (.unlocking none))
    | none => none
  | .unlocking result =>
    match s.handle call .sem with
    | some sem => some ((s.semPost sem).goto call (.afterUnlock result))
    | none => none
  | .dropping kind result => some
    ((s.bind kind.space (s.nameOf call kind) none).goto call (.afterDrop result kind))
  | .returned _ | .killed => none

/-- What a worker copies: the memory of a response is null only if it is empty. -/
def bytesOf (response : Response) : List Byte :=
  (copyFrom response.resData response.responseSize).getD []

/-- A worker has written a response. -/
def record (s : Exchange) (q : Queued) (response : Response) : Exchange :=
  { s with answered := s.answered ++ [⟨q.call, bytesOf response⟩] }

/-- `shm_open` or `sem_open` of the object that a worker needs to answer a request. -/
def find (s : Exchange) (q : Queued) (kind : Kind) (succeeds : Bool) : Option ℕ :=
  if succeeds then s.names kind.space (kind.name q.data.sSenderIPCName) else none

/-- A step of a worker with a response to a request. -/
def stepResponder (pid : ℕ) (sIPCName : List Char) (s : Exchange) (w : ℕ) (q : Queued)
    (response : Response) (succeeds : Bool) : Option Exchange :=
  match s.responder w with
  | .openShm =>
    match s.find q .shm succeeds with
    | some shm => some (s.gotoResponder w (.openSem shm))
    | none => some (s.leave w)
  | .openSem shm =>
    match s.find q .sem succeeds with
    | some sem => some (s.gotoResponder w (.lock shm sem))
    | none => some (s.leave w)
  | .lock shm sem =>
    if succeeds then
      if s.value sem = 0 then none
      else some ((s.semWait sem (.worker w)).gotoResponder w (.locked shm sem))
    else some (s.gotoResponder w (.locked shm sem))
  | .locked shm sem =>
    if succeeds then some { s.gotoResponder w (.raised shm sem) with
      slot := Function.update s.slot shm
        ((s.slot shm).raise pid sIPCName response.responseSize) }
    else some (s.gotoResponder w (.unlock sem))
  -- a `continue` from here on leaves a response that is not there
  | .raised shm sem =>
    if respondsByMmap response.responseSize q.data.nCheckIPC then
      match s.find q .dataShm succeeds with
      | some data => some (s.gotoResponder w (.openDataSem shm sem data))
      | none => some (s.gotoResponder w (.unlock sem))
    else some { (s.record q response).gotoResponder w (.unlock sem) with
      slot := Function.update s.slot shm
        { s.slot shm with resData := memcpy (s.slot shm).resData (bytesOf response) } }
  | .openDataSem shm sem data =>
    match s.find q .dataSem succeeds with
    | some _ => some (s.gotoResponder w (.copy shm sem data))
    | none => some (s.gotoResponder w (.unlock sem))
  | .copy _ sem data =>
    if succeeds ∧ response.responseSize ≠ 0 then
      some { (s.record q response).gotoResponder w (.unlock sem) with
        data := Function.update s.data data (memcpy (s.data data) (bytesOf response)) }
    else some (s.gotoResponder w (.unlock sem))
  | .unlock sem => some ((s.semPost sem).leave w)

/-- The server does not wait for the calls, and a call posts when it has its objects. -/
def permits (s : Exchange) : ServerLabel → Bool
  | .attempt call .. | .giveUp call => s.client call = .posting
  | .worker _ .leave => false
  | _ => true

/-- One step, if the label is enabled, with a server of the given process and name. -/
def step (span nMaxThreadCount pid : ℕ) (sIPCName : List Char) (s : Exchange) :
    ExchangeLabel → Option Exchange
  | .server label =>
    if s.permits label then
      (s.server.step span nMaxThreadCount label).map fun server => { s with server }
    else none
  | .client call succeeds =>
    if call < s.server.calls then s.stepClient span call succeeds else none
  | .respond w succeeds =>
    match s.server.worker w with
    | .answering q response =>
      if w + 1 < nMaxThreadCount then s.stepResponder pid sIPCName w q response succeeds else none
    | _ => none

variable {span nMaxThreadCount pid : ℕ} {sIPCName : List Char} {s t : Exchange}
  {label : ExchangeLabel}

/-- What a step of a call does. -/
inductive ClientStep (span : ℕ) (s : Exchange) (call : ℕ) : Bool → Exchange → Prop
  | unlink {kind : Kind} {succeeds : Bool} (unlinking : s.client call = .unlinking kind) :
      ClientStep span s call succeeds
        ((s.bind kind.space (s.nameOf call kind) none).goto call (.creating kind))
  | create {kind : Kind} (creating : s.client call = .creating kind) :
      ClientStep span s call true ((s.create span call kind).goto call (.afterCreate kind))
  | move {pc : ClientPc} {succeeds : Bool}
      (moves : (∃ kind, s.client call = .creating kind) ∧ pc = .leave none ∨
        s.client call = .posting ∧ (pc = .waiting ∨ pc = .leave none) ∨
        s.client call = .waiting ∧ (pc = .locking ∨ pc = .leave none)) :
      ClientStep span s call succeeds (s.goto call pc)
  | lock {sem : ℕ} (locking : s.client call = .locking) (has : s.handle call .sem = some sem)
      (positive : 0 < s.value sem) :
      ClientStep span s call true ((s.semWait sem (.client call)).goto call .locked)
  | interrupt (locking : s.client call = .locking) :
      ClientStep span s call false (s.goto call .locked)
  | look {shm : ℕ} (locked : s.client call = .locked) (has : s.handle call .shm = some shm) :
      ClientStep span s call true (s.goto call (s.look call shm))
  | receive {responseSize data : ℕ} (copying : s.client call = .copying responseSize)
      (has : s.handle call .dataShm = some data) :
      ClientStep span s call true (s.goto call
        (.unlocking (some ⟨(s.data data).take responseSize, responseSize⟩)))
  | die {responseSize : ℕ} {succeeds : Bool} (copying : s.client call = .copying responseSize) :
      ClientStep span s call succeeds (s.goto call .killed)
  | miss {succeeds : Bool}
      (inside : s.client call = .locked ∨ ∃ size, s.client call = .copying size) :
      ClientStep span s call succeeds (s.goto call (.unlocking none))
  | unlock {sem : ℕ} {result : Option Received} {succeeds : Bool}
      (unlocking : s.client call = .unlocking result) (has : s.handle call .sem = some sem) :
      ClientStep span s call succeeds ((s.semPost sem).goto call (.afterUnlock result))
  | drop {kind : Kind} {result : Option Received} {succeeds : Bool}
      (dropping : s.client call = .dropping kind result) :
      ClientStep span s call succeeds
        ((s.bind kind.space (s.nameOf call kind) none).goto call (.afterDrop result kind))

theorem stepClient_cases {call : ℕ} {succeeds : Bool}
    (next : s.stepClient span call succeeds = some t) : ClientStep span s call succeeds t := by
  unfold stepClient at next
  split at next
  · exact Option.some.inj next ▸ .unlink ‹_›
  · split at next
    · rename_i kind creating succeeded
      subst succeeded
      exact Option.some.inj next ▸ .create creating
    · exact Option.some.inj next ▸ .move (.inl ⟨⟨_, ‹_›⟩, rfl⟩)
  · split at next
    · exact Option.some.inj next ▸ .move (.inr (.inl ⟨‹_›, .inl rfl⟩))
    · exact Option.some.inj next ▸ .move (.inr (.inl ⟨‹_›, .inr rfl⟩))
    · cases next
  · refine Option.some.inj next ▸ .move (.inr (.inr ⟨‹_›, ?_⟩))
    split
    · exact .inl rfl
    · exact .inr rfl
  · split at next
    · split_ifs at next with succeeded zero
      · subst succeeded
        exact Option.some.inj next ▸ .lock ‹_› ‹_› (Nat.pos_of_ne_zero zero)
      · obtain rfl := Bool.eq_false_iff.mpr succeeded
        exact Option.some.inj next ▸ .interrupt ‹_›
    · cases next
  · split at next
    · obtain rfl := Option.some.inj next
      split
      · rename_i succeeded
        subst succeeded
        exact .look ‹_› ‹_›
      · exact .miss (.inl ‹_›)
    · cases next
  · split at next
    · split at next
      · rename_i copies
        obtain ⟨rfl, -⟩ := copies
        split at next
        · exact Option.some.inj next ▸ .receive ‹_› ‹_›
        · exact Option.some.inj next ▸ .die ‹_›
      · exact Option.some.inj next ▸ .miss (.inr ⟨_, ‹_›⟩)
    · cases next
  · split at next
    · exact Option.some.inj next ▸ .unlock ‹_› ‹_›
    · cases next
  · exact Option.some.inj next ▸ .drop ‹_›
  · cases next
  · cases next

/-- What a step of a worker with a response does. -/
inductive RespondStep (pid : ℕ) (sIPCName : List Char) (s : Exchange) (w : ℕ) (q : Queued)
    (response : Response) : Bool → Exchange → Prop
  | openShm {shm : ℕ} (opening : s.responder w = .openShm)
      (found : s.names .shm q.data.sSenderIPCName = some shm) :
      RespondStep pid sIPCName s w q response true (s.gotoResponder w (.openSem shm))
  | openSem {shm sem : ℕ} (opening : s.responder w = .openSem shm)
      (found : s.names .sem q.data.sSenderIPCName = some sem) :
      RespondStep pid sIPCName s w q response true (s.gotoResponder w (.lock shm sem))
  | abort {succeeds : Bool}
      (opening : s.responder w = .openShm ∨ ∃ shm, s.responder w = .openSem shm) :
      RespondStep pid sIPCName s w q response succeeds (s.leave w)
  | lock {shm sem : ℕ} (locking : s.responder w = .lock shm sem)
      (positive : 0 < s.value sem) : RespondStep pid sIPCName s w q response true
        ((s.semWait sem (.worker w)).gotoResponder w (.locked shm sem))
  | interrupt {shm sem : ℕ} (locking : s.responder w = .lock shm sem) :
      RespondStep pid sIPCName s w q response false (s.gotoResponder w (.locked shm sem))
  | raise {shm sem : ℕ} (locked : s.responder w = .locked shm sem) :
      RespondStep pid sIPCName s w q response true { s.gotoResponder w (.raised shm sem) with
        slot := Function.update s.slot shm
          ((s.slot shm).raise pid sIPCName response.responseSize) }
  | miss {shm sem : ℕ} {succeeds : Bool} (locked : s.responder w = .locked shm sem) :
      RespondStep pid sIPCName s w q response succeeds (s.gotoResponder w (.unlock sem))
  | inline {shm sem : ℕ} {succeeds : Bool} (raised : s.responder w = .raised shm sem)
      (small : respondsByMmap response.responseSize q.data.nCheckIPC = false) :
      RespondStep pid sIPCName s w q response succeeds
        { (s.record q response).gotoResponder w (.unlock sem) with
          slot := Function.update s.slot shm
            { s.slot shm with resData := memcpy (s.slot shm).resData (bytesOf response) } }
  | openData {shm sem data : ℕ} (raised : s.responder w = .raised shm sem)
      (bulk : respondsByMmap response.responseSize q.data.nCheckIPC = true)
      (found : s.names .shm (getDataIPCName q.data.sSenderIPCName) = some data) :
      RespondStep pid sIPCName s w q response true
        (s.gotoResponder w (.openDataSem shm sem data))
  | openDataSem {shm sem data : ℕ} (opening : s.responder w = .openDataSem shm sem data) :
      RespondStep pid sIPCName s w q response true (s.gotoResponder w (.copy shm sem data))
  | copy {shm sem data : ℕ} (copying : s.responder w = .copy shm sem data) :
      RespondStep pid sIPCName s w q response true
        { (s.record q response).gotoResponder w (.unlock sem) with
          data := Function.update s.data data (memcpy (s.data data) (bytesOf response)) }
  /-- The worker gives up between the head of the response and its bytes. -/
  | tear {shm sem : ℕ} {succeeds : Bool}
      (torn : s.responder w = .raised shm sem ∧
          respondsByMmap response.responseSize q.data.nCheckIPC = true ∧
          (succeeds = true → s.names .shm (getDataIPCName q.data.sSenderIPCName) = none) ∨
        (∃ data, s.responder w = .openDataSem shm sem data) ∧
          (succeeds = true → s.names .sem (getDataIPCName q.data.sSenderIPCName) = none) ∨
        (∃ data, s.responder w = .copy shm sem data) ∧
          (succeeds = true → response.responseSize = 0)) :
      RespondStep pid sIPCName s w q response succeeds (s.gotoResponder w (.unlock sem))
  | unlock {sem : ℕ} {succeeds : Bool} (unlocking : s.responder w = .unlock sem) :
      RespondStep pid sIPCName s w q response succeeds ((s.semPost sem).leave w)

theorem find_eq_some {q : Queued} {kind : Kind} {succeeds : Bool} {object : ℕ} :
    s.find q kind succeeds = some object ↔
      succeeds = true ∧ s.names kind.space (kind.name q.data.sSenderIPCName) = some object := by
  cases succeeds <;> simp [find]

theorem find_eq_none {q : Queued} {kind : Kind} {succeeds : Bool} :
    s.find q kind succeeds = none ↔
      (succeeds = true → s.names kind.space (kind.name q.data.sSenderIPCName) = none) := by
  cases succeeds <;> simp [find]

theorem stepResponder_cases {w : ℕ} {q : Queued} {response : Response} {succeeds : Bool}
    (next : s.stepResponder pid sIPCName w q response succeeds = some t) :
    RespondStep pid sIPCName s w q response succeeds t := by
  unfold stepResponder at next
  split at next
  · split at next
    · obtain ⟨rfl, found⟩ := find_eq_some.mp ‹_›
      exact Option.some.inj next ▸ .openShm ‹_› found
    · exact Option.some.inj next ▸ .abort (.inl ‹_›)
  · split at next
    · obtain ⟨rfl, found⟩ := find_eq_some.mp ‹_›
      exact Option.some.inj next ▸ .openSem ‹_› found
    · exact Option.some.inj next ▸ .abort (.inr ⟨_, ‹_›⟩)
  · split_ifs at next with succeeded zero
    · subst succeeded
      exact Option.some.inj next ▸ .lock ‹_› (Nat.pos_of_ne_zero zero)
    · obtain rfl := Bool.eq_false_iff.mpr succeeded
      exact Option.some.inj next ▸ .interrupt ‹_›
  · split at next
    · rename_i succeeded
      subst succeeded
      exact Option.some.inj next ▸ .raise ‹_›
    · exact Option.some.inj next ▸ .miss ‹_›
  · split at next
    · rename_i bulk
      split at next
      · obtain ⟨rfl, found⟩ := find_eq_some.mp ‹_›
        exact Option.some.inj next ▸ .openData ‹_› bulk found
      · exact Option.some.inj next ▸ .tear (.inl ⟨‹_›, bulk, find_eq_none.mp ‹_›⟩)
    · exact Option.some.inj next ▸ .inline ‹_› (Bool.eq_false_iff.mpr ‹_›)
  · split at next
    · obtain ⟨rfl, -⟩ := find_eq_some.mp ‹_›
      exact Option.some.inj next ▸ .openDataSem ‹_›
    · exact Option.some.inj next ▸ .tear (.inr (.inl ⟨⟨_, ‹_›⟩, find_eq_none.mp ‹_›⟩))
  · split at next
    · rename_i copies
      obtain ⟨rfl, -⟩ := copies
      exact Option.some.inj next ▸ .copy ‹_›
    · rename_i fails
      refine Option.some.inj next ▸ .tear (.inr (.inr ⟨⟨_, ‹_›⟩, fun succeeded => ?_⟩))
      by_contra some
      exact fails ⟨succeeded, some⟩
  · exact Option.some.inj next ▸ .unlock ‹_›

/-- What a step does. -/
inductive Step (span nMaxThreadCount pid : ℕ) (sIPCName : List Char) (s : Exchange) :
    ExchangeLabel → Exchange → Prop
  | server {label : ServerLabel} {server : Server} (permitted : s.permits label = true)
      (moves : s.server.step span nMaxThreadCount label = some server) :
      Step span nMaxThreadCount pid sIPCName s (.server label) { s with server }
  | client {call : ℕ} {succeeds : Bool} {t : Exchange} (begun : call < s.server.calls)
      (moves : ClientStep span s call succeeds t) :
      Step span nMaxThreadCount pid sIPCName s (.client call succeeds) t
  | respond {w : ℕ} {q : Queued} {response : Response} {succeeds : Bool} {t : Exchange}
      (created : w + 1 < nMaxThreadCount) (answering : s.server.worker w = .answering q response)
      (responds : RespondStep pid sIPCName s w q response succeeds t) :
      Step span nMaxThreadCount pid sIPCName s (.respond w succeeds) t

theorem step_cases (next : s.step span nMaxThreadCount pid sIPCName label = some t) :
    Step span nMaxThreadCount pid sIPCName s label t := by
  cases label with
  | server label =>
    simp only [step] at next
    split at next
    · obtain ⟨server, moves, rfl⟩ := Option.map_eq_some_iff.mp next
      exact .server ‹_› moves
    · cases next
  | client call succeeds =>
    simp only [step] at next
    split at next
    · exact .client ‹_› (stepClient_cases next)
    · cases next
  | respond w succeeds =>
    simp only [step] at next
    split at next
    · split at next
      · exact .respond ‹_› ‹_› (stepResponder_cases next)
      · cases next
    · cases next

/-- A step of a call leaves the server alone. -/
theorem server_of_client {call : ℕ} {succeeds : Bool} (moves : ClientStep span s call succeeds t) :
    t.server = s.server := by
  cases moves with
  | create =>
    simp only [goto, create]
    split <;> rfl
  | _ => rfl

/-- A worker with a response leaves the server alone, or goes back to its loop. -/
theorem server_of_respond {w : ℕ} {q : Queued} {response : Response} {succeeds : Bool}
    (responds : RespondStep pid sIPCName s w q response succeeds t) :
    t.server = s.server ∨ t.server = s.server.gotoWorker w .testing := by
  cases responds with
  | abort | unlock => exact .inr rfl
  | _ => exact .inl rfl

/-- The server with its callers goes its own way, whatever becomes of the responses. -/
theorem server_of_run {allowed : Exchange → ExchangeLabel → Prop} {labels : List ExchangeLabel}
    (run : Run (step span nMaxThreadCount pid sIPCName) allowed start labels s) :
    ∃ labels', Run (Server.step span nMaxThreadCount) Free .start labels' s.server := by
  refine run.simulate server fun labels s label t _ _ next => ?_
  cases step_cases next with
  | server permitted moves => exact .inr ⟨_, moves⟩
  | client begun moves => exact .inl (server_of_client moves)
  | @respond w q response succeeds t created answering responds =>
    rcases server_of_respond responds with same | left
    · exact .inl same
    · refine .inr ⟨.worker w .leave, ?_⟩
      simp only [left, Server.step, if_pos created, Server.stepWorker, answering]

end Exchange

end ExLibs.IPC.Unix
