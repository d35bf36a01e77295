/-
# Handles and views on Windows

What an iteration of a worker and a call of `SendIPC` open, create and map, and what they close
and unmap, on every path and for every outcome of the calls to the system. A worker leaves the
mapping of a large request open, and that of its client; `SendIPC` unmaps a large response
twice. All else is closed and unmapped once.
-/
import ExLibs.Math.Ledger
import ExLibs.IPC.Windows.Custody

namespace ExLibs.IPC.Windows

open ExLibs.Math

/-- The blocks of a worker's iteration that have a `hMapFile` and a `pBuf` of their own. -/
inductive TurnBlock
  | request
  | response
  | wait
  deriving DecidableEq

/-- The variables of a worker's iteration that hold a handle or a view. -/
inductive TurnVar
  | hMapFile (block : TurnBlock)
  | pBuf (block : TurnBlock)
  | hMapDataFile
  | pDataBuf
  deriving DecidableEq

/-- A call of a worker, with what `_isStop` and the request mappings hold at that moment. -/
structure Moment where
  label : WorkerLabel
  isStop : Bool
  reqMapping : ℕ → List Byte

/-- What a label says of a call to the system. -/
def WorkerLabel.succeeds : WorkerLabel → Bool
  | os succeeds => succeeds
  | find mapping => mapping.isSome
  | test | deQueue | callback _ | look _ => true

namespace Turn

/-- A call of a worker in an iteration. -/
def step (view : ℕ) (pc : WorkerPc) (moment : Moment) : Option WorkerPc :=
  pc.proceed view moment.isStop moment.reqMapping moment.label

/-- What a call opens, creates, maps, closes and unmaps. -/
def entriesAt (hMapDataFile succeeds : Bool) : WorkerPlace → List (Entry TurnVar)
  | .openReqMapping => if succeeds then [.acquire (.hMapFile .request)] else []
  | .mapReq _ => if succeeds then [.acquire (.pBuf .request)] else []
  -- `hMapFile` goes out of scope here
  | .unmapReq => [.release (.pBuf .request)]
  | .openClientMapping => if succeeds then [.acquire (.hMapFile .response)] else []
  | .mapClient _ => if succeeds then [.acquire (.pBuf .response)] else []
  | .createData => if succeeds then [.acquire .hMapDataFile] else []
  | .mapData => if succeeds then [.acquire .pDataBuf] else []
  | .unmapData => [.release .pDataBuf]
  -- and here
  | .unmapClient => [.release (.pBuf .response)]
  | .openPoll => if succeeds then [.acquire (.hMapFile .wait)] else []
  | .mapPoll => if succeeds then [.acquire (.pBuf .wait)] else [.release (.hMapFile .wait)]
  | .look => [.release (.hMapFile .wait), .release (.pBuf .wait)]
  | .closeData => if hMapDataFile then [.release .hMapDataFile] else []
  | .openReqMutex | .copyReq _ | .callback | .createResMutex | .openClientMutex | .publish
  | .openResMutex | .copyData => []

/-- What a call adds to the ledger. -/
def entries : WorkerPc → Moment → List (Entry TurnVar)
  | .busy place job, moment => entriesAt job.hMapDataFile moment.label.succeeds place
  | _, _ => []

/-- The call opens a mapping that nothing closes: that of a large request, or the slot of the
client. -/
def leaks : WorkerPc → Moment → Bool
  | .busy .openReqMapping _, moment | .busy .openClientMapping _, moment => moment.label.succeeds
  | _, _ => false

/-- The variables of the blocks that are to hold something at a place. -/
def heldAt : WorkerPlace → Finset TurnVar
  | .copyReq _ | .unmapReq => {.pBuf .request}
  | .publish | .openResMutex | .createData | .mapData | .unmapClient => {.pBuf .response}
  | .copyData | .unmapData => {.pDataBuf, .pBuf .response}
  | .mapPoll => {.hMapFile .wait}
  | .look => {.pBuf .wait, .hMapFile .wait}
  | _ => ∅

/-- The variables that are to hold something in an iteration. -/
def held : WorkerPc → Finset TurnVar
  | .busy place job =>
    if job.hMapDataFile then insert .hMapDataFile (heldAt place) else heldAt place
  | _ => ∅

/-- The iteration has not come past the creation of the response mapping. -/
def isEarly : WorkerPlace → Bool
  | .openReqMutex | .openReqMapping | .mapReq _ | .copyReq _ | .unmapReq | .callback
  | .createResMutex | .openClientMutex | .openClientMapping | .mapClient _ | .publish
  | .openResMutex | .createData => true
  | _ => false

section Step

variable {view : ℕ} {isStop : Bool} {reqMapping : ℕ → List Byte} {job job' : Job}
  {place place' : WorkerPlace} {label : WorkerLabel} {pc : WorkerPc}

/-- Between the blocks of an iteration only `hMapDataFile` is to hold anything. -/
theorem held_poll (job : Job) : held job.poll = held (.busy .closeData job) := by
  unfold Job.poll
  split <;> rfl

theorem held_answer (fresh : job.hMapDataFile = false) : held job.answer = ∅ := by
  rcases Job.answer_cases job with back | on
  · rw [back]
    rfl
  · rw [on, held, fresh]
    rfl

/-- What a call that leaks nothing makes of the variables. -/
theorem play_entries {moment : Moment} (fresh : isEarly place = true → job.hMapDataFile = false)
    (kept : leaks (.busy place job) moment = false)
    (next : step view (.busy place job) moment = some pc)
    (alive : ∀ stopped, pc ≠ .faulted stopped) :
    play (held (.busy place job)) (entries (.busy place job) moment) = some (held pc) := by
  obtain ⟨label, isStop, reqMapping⟩ := moment
  change job.proceed view isStop reqMapping place label = some pc at next
  -- one case for each place, and for each way that its call may go
  unfold Job.proceed at next
  split at next
  all_goals
    try split at next
    all_goals try split at next
  all_goals cases next
  all_goals try exact absurd rfl (alive _)
  -- the mapping of the response is there only in the places behind its creation
  all_goals cases mapped : job.hMapDataFile
  all_goals try cases (fresh rfl).symm.trans mapped
  all_goals clear alive fresh
  all_goals simp only [leaks, WorkerLabel.succeeds] at kept
  -- what follows the callback, and the head of the wait, may be either of two places
  all_goals try rw [held_answer rfl]
  all_goals try rw [held_poll]
  all_goals simp [held, heldAt, entries, entriesAt, WorkerLabel.succeeds, play, *]
  all_goals decide

/-- An iteration that is early has been early, with the same `hMapDataFile`. -/
theorem early_of_proceed
    (next : job.proceed view isStop reqMapping place label = some (.busy place' job'))
    (early : isEarly place' = true) :
    isEarly place = true ∧ job'.hMapDataFile = job.hMapDataFile := by
  have polls : job.poll ≠ .busy place' job' := by
    unfold Job.poll
    split <;> rintro ⟨⟩ <;> cases early
  have answers {job : Job} (answers : job.answer = .busy place' job') : job' = job := by
    rcases Job.answer_cases job with back | on
    · cases back.symm.trans answers
    · exact (WorkerPc.busy.inj (on.symm.trans answers)).2.symm
  -- no place behind the creation of the response mapping leads back to one before it
  unfold Job.proceed at next
  split at next
  all_goals
    try split at next
    all_goals try split at next
  all_goals first
    | exact absurd (Option.some.inj next) polls
    | rw [answers (Option.some.inj next)]; exact ⟨rfl, rfl⟩
    | cases next <;> first | exact ⟨rfl, rfl⟩ | cases early

/-- Until an iteration creates the response mapping, `hMapDataFile` is null. -/
theorem fresh_of_run {q : Queued} {moments : List Moment}
    (run : Run (step view) Free (.dequeued q) moments (.busy place job))
    (early : isEarly place = true) : job.hMapDataFile = false := by
  generalize reached : WorkerPc.busy place job = pc at run
  induction run generalizing place job with
  | nil => cases reached
  | @snoc _ before _ moment _ _ next ih =>
    subst reached
    cases before with
    | dequeued q =>
      -- after `DeQueue` come the tests of `_isStop` and `hasRequest`
      obtain ⟨_ | _ | _ | _ | _, isStop, reqMapping⟩ := moment
      case test =>
        have begins := Option.some.inj next
        split_ifs at begins
        unfold Job.start at begins
        split at begins
        · exact (WorkerPc.busy.inj begins).2 ▸ rfl
        · exact (WorkerPc.busy.inj begins).2 ▸ rfl
      all_goals cases next
    | busy place' job' =>
      obtain ⟨earlier, same⟩ := early_of_proceed next early
      exact same.trans (ih earlier rfl)
    | testing | deQueueing | ended stopped | faulted stopped => cases next

theorem held_start (q : Queued) : held (Job.start q) = ∅ := by
  unfold Job.start
  split <;> rfl

/-- The handles of the first two blocks are in no variable once they are out of scope. -/
theorem hMapFile_notMem_held {block : TurnBlock} (others : block ≠ .wait) (pc : WorkerPc) :
    TurnVar.hMapFile block ∉ held pc := by
  cases pc with
  | busy place job =>
    cases place <;> cases mapped : job.hMapDataFile <;> simp [held, heldAt, mapped, others]
  | testing | deQueueing | dequeued q | ended stopped | faulted stopped => simp [held]

theorem entries_of_leaks {moment : Moment} (leaking : leaks pc moment = true) :
    ∃ block, block ≠ .wait ∧ entries pc moment = [.acquire (.hMapFile block)] := by
  cases pc with
  | busy place job =>
    cases place with
    | openReqMapping => exact ⟨.request, nofun, if_pos leaking⟩
    | openClientMapping => exact ⟨.response, nofun, if_pos leaking⟩
    | _ => cases leaking
  | _ => cases leaking

/-- The iteration is over. -/
def IsOver : WorkerPc → Prop
  | .testing | .ended _ => True
  | _ => False

theorem step_of_faulted {moment : Moment} (dead : ∃ stopped, pc = .faulted stopped) :
    step view pc moment = none := by
  obtain ⟨stopped, rfl⟩ := dead
  rfl

/-- An iteration closes and unmaps all that it opens, creates and maps exactly once if and only
if it finds neither a request mapping nor the slot of the client. -/
theorem settled_iff {q : Queued} {moments : List Moment} {ledger : List (Entry TurnVar)}
    (run : Run (booked (step view) entries) Free (.dequeued q, []) moments (pc, ledger))
    (isOver : IsOver pc) :
    Settled ledger ↔ Run (booked (step view) entries) (fun s moment => leaks s.1 moment = false)
      (.dequeued q, []) moments (pc, ledger) := by
  have alive : ¬ ∃ stopped, pc = .faulted stopped := by
    rintro ⟨stopped, rfl⟩
    exact isOver
  have ends : held pc = ∅ := by
    cases pc with
    | testing | ended stopped => rfl
    | deQueueing | dequeued q | busy place job | faulted stopped => exact isOver.elim
  refine settled_iff_allowed (fun pc moment => leaks pc moment = false)
    (fun _ _ => step_of_faulted) rfl ?_ ?_ run alive ends
  · intro moments s moment t earlier kept next survives
    cases s with
    | busy place job =>
      exact play_entries (fresh_of_run earlier) kept next fun stopped dead => survives ⟨_, dead⟩
    | dequeued q =>
      obtain ⟨_ | _ | _ | _ | _, isStop, reqMapping⟩ := moment
      case test =>
        obtain rfl := Option.some.inj next
        change some ∅ = some (held _)
        split_ifs
        · rfl
        · rfl
        · rw [held_start]
      all_goals cases next
    | testing | deQueueing | ended stopped | faulted stopped => cases next
  · -- what is leaked is in a variable that is to hold nothing
    intro s moment t before leaking _ _ played
    obtain ⟨block, others, opens⟩ := entries_of_leaks (Bool.eq_true_of_not_eq_false leaking)
    exact hMapFile_notMem_held others t (mem_of_acquire (opens ▸ played))

end Step

end Turn

/-- The variables of a call of `SendIPC` that hold a handle or a view. Both loops have a
`hMapFile`. -/
inductive SendVar
  | hClientMapFile
  | hReqMapFile
  | hMapFile (receives : Bool)
  | pBuf
  | pReqBuf
  | hResMapFile
  | pClientBuf
  | pClientResBuf
  deriving DecidableEq

/-- How the calls to the system go in one attempt to receive, and whether the `memcpy` into
`responseData` gets through. -/
structure ReceiveOutcomes where
  reqClientMutex : Bool
  openMapping : Bool
  mapView : Bool
  reqMutex : Bool
  openResMapping : Bool
  mapRes : Bool
  memcpy : Bool
  deriving DecidableEq

/-- What an attempt to receive comes to. -/
inductive Received
  | again
  | received
  /-- It has read or written where nothing is mapped. -/
  | faulted
  deriving DecidableEq

/-- What an attempt to post opens, maps, closes and unmaps. -/
def PostOutcomes.entries (os : PostOutcomes) (args : SendArgs) (slot : StIPCData) :
    List (Entry SendVar) :=
  if os.serverMutex && os.openMapping then
    if os.mapView then
      [.acquire (.hMapFile false), .acquire .pBuf] ++
        (if os.enters slot && args.isUsingMmap && os.reqMutex && os.mapReq then
          [.acquire .pReqBuf, .release .pReqBuf]
        else []) ++
        -- each way out of the attempt has these two calls
        [.release .pBuf, .release (.hMapFile false)]
    else [.acquire (.hMapFile false), .release (.hMapFile false)]
  else []

namespace ReceiveOutcomes

variable (os : ReceiveOutcomes) (args : SendArgs) (client : StIPCData)

/-- The attempt maps the slot and finds a response in it. -/
def finds : Bool :=
  os.reqClientMutex && os.openMapping && os.mapView && !client.hasRequest && client.hasResponse

/-- The response is to be fetched from its mapping. -/
def fetches : Bool :=
  os.finds client && (sizeofData < client.responseSize || args.bCheckIPC) && os.reqMutex

/-- `pClientResBuf` is not null. -/
def mapsRes : Bool := os.fetches args client && os.openResMapping && os.mapRes

/-- One attempt to receive. -/
def receive : Received :=
  if os.finds client then
    if os.fetches args client then
      if os.mapsRes args client then if os.memcpy then .received else .faulted
      else .again
    -- that the mutex does not open is passed over
    else if sizeofData < client.responseSize || args.bCheckIPC then .received
    else if os.memcpy then .received
    else .faulted
  else .again

/-- The handles and the view of the slot that an attempt to receive acquires. -/
def opens : List (Entry SendVar) :=
  (if os.reqClientMutex && os.openMapping then [.acquire (.hMapFile true)] else []) ++
  (if os.reqClientMutex && os.openMapping && os.mapView then [.acquire .pClientBuf] else []) ++
  if os.fetches args client && os.openResMapping then [.acquire .hResMapFile] else []

/-- What it releases of them behind its block. -/
def closes : List (Entry SendVar) :=
  (if os.reqClientMutex && os.openMapping then [.release (.hMapFile true)] else []) ++
  (if os.fetches args client && os.openResMapping then [.release .hResMapFile] else []) ++
  if os.reqClientMutex && os.openMapping && os.mapView then [.release .pClientBuf] else []

/-- The ledger of an attempt to receive. -/
def entries : List (Entry SendVar) :=
  os.opens args client ++
  (if os.mapsRes args client then [.acquire .pClientResBuf, .release .pClientResBuf] else []) ++
  os.closes args client ++
  -- the pointer has not been set to null
  if os.mapsRes args client then [.release .pClientResBuf] else []

end ReceiveOutcomes

/-- Where a call of `SendIPC` is. -/
inductive SendPlace
  | creating
  | posting (nCheckMs : ℕ)
  | receiving (isSendSuccess : Bool) (nCheckMs : ℕ)
  | closing (isSuccess : Bool)
  | returned (isSuccess : Bool)
  /-- It has read or written where nothing is mapped. -/
  | faulted
  deriving DecidableEq

/-- A call of `SendIPC`, with whether its two handles are null. -/
structure SendCall where
  place : SendPlace
  hClientMapFile : Bool
  hReqMapFile : Bool

/-- What a call of `SendIPC` does next. -/
inductive SendStep
  /-- It creates its two mappings and its two mutexes. -/
  | create (hClientMapFile hReqMapFile reqMutex reqClientMutex : Bool)
  | post (now : ℤ) (os : PostOutcomes) (slot : StIPCData)
  | receive (os : ReceiveOutcomes) (client : StIPCData)
  /-- The loop that it is in has used up its time. -/
  | expire
  | close

namespace SendCall

def start : SendCall := ⟨.creating, false, false⟩

/-- The condition of both loops. -/
def inTime (args : SendArgs) (nCheckMs : ℕ) : Prop := (nCheckMs : ℤ) < args.timeOutSec * 100

instance (args : SendArgs) (nCheckMs : ℕ) : Decidable (inTime args nCheckMs) :=
  inferInstanceAs (Decidable ((nCheckMs : ℤ) < args.timeOutSec * 100))

/-- Where an attempt to post leads. -/
def afterPost (nCheckMs : ℕ) : PostResult → SendPlace
  | .sent _ => .receiving true nCheckMs
  | .abandoned _ true => .faulted
  | .untouched | .abandoned _ false => .posting (nCheckMs + 1)

/-- Where an attempt to receive leads. -/
def afterReceive (isSendSuccess : Bool) (nCheckMs : ℕ) : Received → SendPlace
  | .received => .closing isSendSuccess
  | .again => .receiving isSendSuccess (nCheckMs + 1)
  | .faulted => .faulted

/-- A step of `SendIPC`. -/
def step (view : ℕ) (args : SendArgs) (call : SendCall) : SendStep → Option SendCall
  | .create hClientMapFile hReqMapFile reqMutex reqClientMutex =>
    if call.place = .creating then
      some ⟨if reqMutex && reqClientMutex && hClientMapFile then .posting 0 else .closing false,
        hClientMapFile, hReqMapFile⟩
    else none
  | .post now os slot =>
    match call.place with
    | .posting nCheckMs =>
      if inTime args nCheckMs then
        some { call with place := afterPost nCheckMs (Windows.post view args now os slot) }
      else none
    | _ => none
  | .receive os client =>
    match call.place with
    | .receiving isSendSuccess nCheckMs =>
      if inTime args nCheckMs then
        some { call with place := afterReceive isSendSuccess nCheckMs (os.receive args client) }
      else none
    | _ => none
  | .expire =>
    match call.place with
    | .posting nCheckMs =>
      if inTime args nCheckMs then none else some { call with place := .receiving false nCheckMs }
    | .receiving _ nCheckMs =>
      if inTime args nCheckMs then none else some { call with place := .closing false }
    | _ => none
  | .close =>
    match call.place with
    | .closing isSuccess => some { call with place := .returned isSuccess }
    | _ => none

/-- What a step adds to the ledger. -/
def entries (args : SendArgs) (call : SendCall) : SendStep → List (Entry SendVar)
  | .create hClientMapFile hReqMapFile _ _ =>
    (if hClientMapFile then [.acquire .hClientMapFile] else []) ++
      if hReqMapFile then [.acquire .hReqMapFile] else []
  | .post _ os slot => os.entries args slot
  | .receive os client => os.entries args client
  | .expire => []
  | .close =>
    (if call.hReqMapFile then [.release .hReqMapFile] else []) ++
      if call.hClientMapFile then [.release .hClientMapFile] else []

/-- A step unmaps `pClientResBuf`, which is not null, twice. -/
def unmapsTwice (args : SendArgs) : SendStep → Bool
  | .receive os client => os.mapsRes args client
  | _ => false

/-- The variables that are to hold something. -/
def held (call : SendCall) : Finset SendVar :=
  match call.place with
  | .creating | .returned _ => ∅
  | .posting _ | .receiving .. | .closing _ | .faulted =>
    (if call.hReqMapFile then {.hReqMapFile} else ∅) ∪
      if call.hClientMapFile then {.hClientMapFile} else ∅

/-- The variables of a call that are not those of its attempts. -/
def outer : Finset SendVar := {.hClientMapFile, .hReqMapFile}

variable {view : ℕ} {args : SendArgs} {call call' : SendCall} {label : SendStep}

theorem held_subset (call : SendCall) : call.held ⊆ outer := by
  unfold held
  split
  · exact Finset.empty_subset _
  · exact Finset.empty_subset _
  all_goals split_ifs <;> decide

/-- An attempt that settles its ledger and leaves the variables of the call alone. -/
def SelfContained (entries : List (Entry SendVar)) : Prop :=
  Settled entries ∧ ∀ r ∈ outer, .acquire r ∉ entries ∧ .release r ∉ entries

instance (entries : List (Entry SendVar)) : Decidable (SelfContained entries) :=
  inferInstanceAs (Decidable (_ ∧ _))

theorem SelfContained.play {entries : List (Entry SendVar)} (contained : SelfContained entries)
    (call : SendCall) : play call.held entries = some call.held :=
  contained.1.play_eq fun r member => contained.2 r (held_subset call member)

theorem selfContained_post (os : PostOutcomes) (args : SendArgs) (slot : StIPCData) :
    SelfContained (os.entries args slot) := by
  unfold PostOutcomes.entries
  split_ifs <;> decide

/-- An attempt to receive that does not map the response releases what it has acquired. -/
theorem selfContained_receive (os : ReceiveOutcomes) (args : SendArgs) (client : StIPCData)
    (kept : os.mapsRes args client = false) : SelfContained (os.entries args client) := by
  simp only [ReceiveOutcomes.entries, ReceiveOutcomes.opens, ReceiveOutcomes.closes, kept,
    Bool.false_eq_true, if_false]
  split_ifs <;> decide

/-- One that maps it unmaps it twice, inside its block and behind it. -/
theorem play_receive (os : ReceiveOutcomes) (args : SendArgs) (client : StIPCData)
    (maps : os.mapsRes args client = true) (before : Finset SendVar) :
    play before (os.entries args client) = none := by
  -- nothing is mapped into `pClientResBuf` between the two
  have twice : os.entries args client = (os.opens args client ++ [.acquire .pClientResBuf]) ++
      .release .pClientResBuf :: (os.closes args client ++ [.release .pClientResBuf]) := by
    simp [ReceiveOutcomes.entries, maps]
  rw [twice]
  refine play_of_release_twice (List.mem_append_right _ (List.mem_singleton_self _)) ?_
  unfold ReceiveOutcomes.closes
  split_ifs <;> decide

/-- What a step that does not unmap twice makes of the variables. -/
theorem play_entries (kept : unmapsTwice args label = false)
    (next : call.step view args label = some call') (alive : call'.place ≠ .faulted) :
    play call.held (call.entries args label) = some call'.held := by
  obtain ⟨place, hClientMapFile, hReqMapFile⟩ := call
  cases label with
  | create hClientMapFile' hReqMapFile' reqMutex reqClientMutex =>
    obtain ⟨rfl, next⟩ := Option.ite_none_right_eq_some.mp next
    obtain rfl := Option.some.inj next
    -- whether the call goes on to post or to close, it holds the same
    have after (ready : Bool) :
        held ⟨if ready then .posting 0 else .closing false, hClientMapFile', hReqMapFile'⟩ =
          held ⟨.posting 0, hClientMapFile', hReqMapFile'⟩ := by
      cases ready <;> rfl
    rw [after]
    cases hClientMapFile' <;> cases hReqMapFile' <;> rfl
  | post now os slot =>
    cases place with
    | posting nCheckMs =>
      obtain ⟨-, next⟩ := Option.ite_none_right_eq_some.mp next
      obtain rfl := Option.some.inj next
      refine ((selfContained_post os args slot).play _).trans (congrArg some ?_)
      -- wherever the attempt leads to, the call holds the same
      unfold held afterPost
      cases Windows.post view args now os slot with
      | untouched | sent slot => rfl
      | abandoned slot faulted => cases faulted <;> rfl
    | creating | receiving sent nCheckMs | closing sent | returned sent | faulted => cases next
  | receive os client =>
    cases place with
    | receiving sent nCheckMs =>
      obtain ⟨-, next⟩ := Option.ite_none_right_eq_some.mp next
      obtain rfl := Option.some.inj next
      refine ((selfContained_receive os args client kept).play _).trans (congrArg some ?_)
      unfold held afterReceive
      cases os.receive args client <;> rfl
    | creating | posting nCheckMs | closing sent | returned sent | faulted => cases next
  | expire =>
    cases place with
    | posting nCheckMs | receiving sent nCheckMs =>
      obtain ⟨-, next⟩ := Option.ite_none_left_eq_some.mp next
      obtain rfl := Option.some.inj next
      rfl
    | creating | closing sent | returned sent | faulted => cases next
  | close =>
    cases place with
    | closing sent =>
      obtain rfl := Option.some.inj next
      cases hClientMapFile <;> cases hReqMapFile <;> rfl
    | creating | posting nCheckMs | receiving sent nCheckMs | returned sent | faulted => cases next

/-- A call of `SendIPC` closes and unmaps all that it opens, creates and maps exactly once if and
only if it never maps a response. -/
theorem settled_iff {labels : List SendStep} {ledger : List (Entry SendVar)} {isSuccess : Bool}
    (run : Run (booked (step view args) (entries args)) Free (start, []) labels (call, ledger))
    (isOver : call.place = .returned isSuccess) :
    Settled ledger ↔ Run (booked (step view args) (entries args))
      (fun _ label => unmapsTwice args label = false) (start, []) labels (call, ledger) := by
  have alive : call.place ≠ .faulted := fun dead => nomatch isOver.symm.trans dead
  have ends : call.held = ∅ := by rw [held, isOver]
  have stuck (call : SendCall) (label : SendStep) (dead : call.place = .faulted) :
      call.step view args label = none := by
    cases label <;> simp [step, dead]
  refine settled_iff_allowed (fun _ label => unmapsTwice args label = false) stuck rfl
    (fun _ _ _ _ _ kept next => play_entries kept next) ?_ run alive ends
  intro call label call' before twice _ _ played
  -- only an attempt to receive can unmap twice
  cases label with
  | receive os client =>
    have none := play_receive os args client (Bool.eq_true_of_not_eq_false twice) before
    exact nomatch none.symm.trans played
  | create | post | expire | close => exact twice rfl

end SendCall

/-- An iteration of a worker from the moment that it has taken a request, or a call of
`SendIPC`, step by step. -/
inductive Activity
  | iteration (q : Queued) (moments : List Moment)
  | call (args : SendArgs) (steps : List SendStep)

namespace Activity

/-- The steps lead to the end of the iteration or the call. -/
def Completes (view : ℕ) : Activity → Prop
  | iteration q moments => ∃ s, Turn.IsOver s.1 ∧
      Run (booked (Turn.step view) Turn.entries) Free (.dequeued q, []) moments s
  | call args steps => ∃ s, (∃ isSuccess, s.1.place = .returned isSuccess) ∧
      Run (booked (SendCall.step view args) (SendCall.entries args)) Free (.start, []) steps s

/-- Every handle is closed exactly once, and every view is unmapped exactly once. -/
def Balanced (view : ℕ) : Activity → Prop
  | iteration q moments => ∀ s,
      Run (booked (Turn.step view) Turn.entries) Free (.dequeued q, []) moments s → Settled s.2
  | call args steps => ∀ s,
      Run (booked (SendCall.step view args) (SendCall.entries args)) Free (.start, []) steps s →
        Settled s.2

/-- No `OpenFileMapping` in an iteration finds the mapping of a large request or the slot of the
client, and no attempt of a call to receive maps the mapping of a response. -/
def Spares (view : ℕ) : Activity → Prop
  | iteration q moments => ∃ s,
      Run (booked (Turn.step view) Turn.entries) (fun s moment => Turn.leaks s.1 moment = false)
        (.dequeued q, []) moments s
  | call args steps => ∃ s,
      Run (booked (SendCall.step view args) (SendCall.entries args))
        (fun _ step => SendCall.unmapsTwice args step = false) (.start, []) steps s

/-- The handles and the views of an activity are balanced if and only if it spares the mappings
that are not closed or unmapped as they should be. -/
theorem balanced_iff_spares (view : ℕ) (activity : Activity) (completes : activity.Completes view) :
    activity.Balanced view ↔ activity.Spares view := by
  cases activity with
  | iteration q moments =>
    obtain ⟨s, isOver, run⟩ := completes
    exact run.forall_iff_exists (Turn.settled_iff run isOver)
  | call args steps =>
    obtain ⟨s, ⟨isSuccess, isOver⟩, run⟩ := completes
    exact run.forall_iff_exists (SendCall.settled_iff run isOver)

/-- A call that sends two bytes and waits for a second. -/
def sender : SendArgs := ⟨wide ['A'], 1, [7, 7], 1, false⟩

/-- All of its calls to the system succeed: it maps the slot of the server, and then its own, which
holds an empty response. -/
def answered : List SendStep :=
  [.create true true true true,
    .post 0 ⟨true, true, true, true, true, true⟩ { StIPCData.zero with isInit := true },
    .receive ⟨true, true, true, true, true, true, true⟩
      { StIPCData.zero with hasResponse := true },
    .close]

theorem balanced_of_answered : (call sender answered).Completes 4096 ∧
    (call sender answered).Balanced 4096 := by
  have run : Run (booked (SendCall.step 4096 sender) (SendCall.entries sender)) Free (.start, [])
      answered (⟨.returned true, true, true⟩, _) := run_of_exec rfl
  have completes : (call sender answered).Completes 4096 := ⟨_, ⟨true, rfl⟩, run⟩
  obtain ⟨s, spares, -⟩ := @exists_run_of_guarded _ _
    (booked (SendCall.step 4096 sender) (SendCall.entries sender))
    (fun _ step => SendCall.unmapsTwice sender step = false)
    (fun _ step => !SendCall.unmapsTwice sender step)
    (fun _ _ => (Bool.not_eq_true' _).mp) (.start, []) answered (fun _ => true) rfl
  exact ⟨completes, (balanced_iff_spares 4096 _ completes).mpr ⟨s, spares⟩⟩

/-- A request of a thousand bytes that needs no response. -/
def large : Queued := ⟨0, { StIPCData.zero with requestSize := 1000, hasRequest := true }⟩

/-- Its mapping is found. -/
def found : List Moment :=
  [.test, .os true, .find (some 0), .os true, .os true, .os true, .callback 0].map
    (⟨·, false, fun _ => []⟩)

/-- The mapping of the large request is opened, and not closed. -/
theorem large_not_closed : ¬ ∀ view (activity : Activity),
    activity.Completes view → activity.Balanced view := by
  intro all
  have run : Run (booked (Turn.step 4096) Turn.entries) Free (.dequeued large, []) found
      (.testing, [.acquire (.hMapFile .request), .acquire (.pBuf .request),
        .release (.pBuf .request)]) := run_of_exec rfl
  have completes : (iteration large found).Completes 4096 := ⟨(.testing, _), trivial, run⟩
  have settled := all 4096 _ completes _ run
  revert settled
  decide

end Activity

end ExLibs.IPC.Windows
