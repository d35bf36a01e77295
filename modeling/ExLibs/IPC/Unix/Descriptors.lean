/-
# Descriptors and semaphores on Unix

What `CreateIPC`, `DestroyIPC` and `SendIPC` open and close, and in which order, whatever the
calls to the system come to. The wrappers `CIPCShm` and `CIPCSem` close in their destructors what
they still hold. `DestroyIPC` hands the raw values of its wrappers to `cleanupIPC`, which closes
them, and the wrappers know nothing of it: what it opens it closes twice. All else is closed once.
-/
import ExLibs.Math.Ledger
import ExLibs.IPC.Unix.Data

namespace ExLibs.IPC.Unix

open ExLibs.Math

/-- The wrappers of the three functions. -/
inductive Wrapper
  | shmfd
  | dataShmfd
  | sem
  | semData
  | dataSem
  | clientShm
  | clientDataShm
  | clientSem
  | clientDataSem
  | serverShm
  | serverSem
  | serverDataShm
  | serverDataSem
  deriving DecidableEq

/-- `stIPCShm`, without the server. -/
structure StIPCShm where
  sIPCName : List Char
  sDataIPCName : List Char
  deriving DecidableEq

/-- What a call has done: a call to the system that has succeeded, or a change of `mapIPC`. -/
inductive Event
  | shmOpen (w : Wrapper) (sIPCName : List Char) (creates : Bool)
  | ftruncate (sIPCName : List Char)
  | close (w : Wrapper)
  | shmUnlink (sIPCName : List Char)
  | semOpen (w : Wrapper) (sIPCName : List Char) (creates : Bool)
  | semClose (w : Wrapper)
  | semUnlink (sIPCName : List Char)
  /-- `openMmapIPC`, outside of a wrapper. -/
  | mmap (sIPCName : List Char)
  /-- A server has been started and is put into `mapIPC`. -/
  | insert (shm : StIPCShm)
  | remove (sIPCName : List Char)

/-- How a call ends. -/
inductive Ended
  | returned (isSuccess : Bool)
  | threw
  deriving DecidableEq

/-- What `ftruncate` comes to. -/
inductive Truncation
  | done
  /-- `EINVAL`, which is passed over. -/
  | invalid
  | failed
  deriving DecidableEq

/-- How the calls to the system go in `createShmIPC`. -/
structure ShmOutcomes where
  shmOpen : Bool
  ftruncate : Truncation
  shmUnlink : Bool

/-- How they go in `createSemIPC`. -/
structure SemOutcomes where
  semUnlink : Bool
  semOpen : Bool

/-- `isExistIPC`. -/
def isExistIPC (mapIPC : List StIPCShm) (sIPCName : List Char) : Bool :=
  mapIPC.any fun ipc => ipc.sIPCName == sIPCName || ipc.sDataIPCName == sIPCName

/-- The unlinking at the end of `cleanupIPC` and of `Destroy`. -/
def unlinkShm (sIPCName : List Char) (succeeds : Bool) : List Event :=
  if !sIPCName.isEmpty && succeeds then [.shmUnlink sIPCName] else []

def unlinkSem (sIPCName : List Char) (succeeds : Bool) : List Event :=
  if !sIPCName.isEmpty && succeeds then [.semUnlink sIPCName] else []

/-- `CIPCShm::Create`. -/
def createShm (w : Wrapper) (mapIPC : List StIPCShm) (sIPCName : List Char) (os : ShmOutcomes) :
    List Event × Bool :=
  if isExistIPC mapIPC sIPCName then ([], false)
  else if os.shmOpen then
    match os.ftruncate with
    | .done => ([.shmOpen w sIPCName true, .ftruncate sIPCName], true)
    | .invalid => ([.shmOpen w sIPCName true], true)
    -- `cleanupIPC`, after which the descriptor is -1
    | .failed => ([.shmOpen w sIPCName true, .close w] ++ unlinkShm sIPCName os.shmUnlink, false)
  else ([], false)

/-- `CIPCSem::Create`. -/
def createSem (w : Wrapper) (sIPCName : List Char) (os : SemOutcomes) : List Event × Bool :=
  ((if os.semUnlink then [.semUnlink sIPCName] else []) ++
    if os.semOpen then [.semOpen w sIPCName true] else [], os.semOpen)

/-- `CIPCShm::Open`. -/
def openShm (w : Wrapper) (sIPCName : List Char) (succeeds : Bool) : List Event × Bool :=
  (if succeeds then [.shmOpen w sIPCName false] else [], succeeds)

/-- `CIPCSem::Open`. -/
def openSem (w : Wrapper) (sIPCName : List Char) (succeeds : Bool) : List Event × Bool :=
  (if succeeds then [.semOpen w sIPCName false] else [], succeeds)

/-- `CIPCShm::Close`. -/
def closeShm (w : Wrapper) (isOpen : Bool) : List Event := if isOpen then [.close w] else []

/-- `CIPCSem::Close`. -/
def closeSem (w : Wrapper) (isOpen : Bool) : List Event := if isOpen then [.semClose w] else []

/-- A wrapper from its opening to its destructor, with what happens in between. -/
def scope {Result : Type} (opened : List Event × Bool) (destructor : Bool → List Event)
    (body : Bool → List Event × Result) : List Event × Result :=
  (opened.1 ++ (body opened.2).1 ++ destructor opened.2, (body opened.2).2)

/-- Something happens first. -/
def after {Result : Type} (events : List Event) (later : List Event × Result) :
    List Event × Result := (events ++ later.1, later.2)

/-- How the calls to the system go in `CreateIPC`. -/
structure CreateOutcomes where
  shm : ShmOutcomes
  mmap : Bool
  dataShm : ShmOutcomes
  sem : SemOutcomes
  semData : SemOutcomes
  /-- The thread of the server can be created. -/
  thread : Bool

/-- `CreateIPC`. -/
def createIPC (mapIPC : List StIPCShm) (sIPCName : List Char) (os : CreateOutcomes) :
    List Event × Ended :=
  scope (createShm .shmfd mapIPC sIPCName os.shm) (closeShm .shmfd) fun
  | false => ([], .returned false)
  | true =>
    if os.mmap = false then ([], .returned false)
    else after [.mmap sIPCName] <|
      let sDataIPCName := getDataIPCName sIPCName
      scope (createShm .dataShmfd mapIPC sDataIPCName os.dataShm) (closeShm .dataShmfd) fun
      | false => ([], .returned false)
      | true => scope (createSem .sem sIPCName os.sem) (closeSem .sem) fun
        | false => ([], .returned false)
        -- `semData` is closed at once, so that its destructor has nothing to do
        | true => scope (createSem .semData sDataIPCName os.semData) (fun _ => []) fun
          | false => ([], .returned false)
          | true => after [.semClose .semData] <|
            if os.thread then ([.insert ⟨sIPCName, sDataIPCName⟩], .returned true)
            else ([], .threw)

/-- How the calls to the system go in half of `DestroyIPC`. -/
structure CleanupOutcomes where
  shmOpen : Bool
  semOpen : Bool
  shmUnlink : Bool
  semUnlink : Bool

/-- `cleanupIPC` with the values of two wrappers. -/
def cleanupIPC (v w : Wrapper) (sIPCName : List Char) (os : CleanupOutcomes) : List Event :=
  (if os.shmOpen then .close v :: unlinkShm sIPCName os.shmUnlink else []) ++
    if os.semOpen then .semClose w :: unlinkSem sIPCName os.semUnlink else []

/-- `DestroyIPC`. -/
def destroyIPC (mapIPC : List StIPCShm) (sIPCName : List Char) (os data : CleanupOutcomes) :
    List Event × Ended :=
  match mapIPC.find? fun ipc => ipc.sIPCName == sIPCName with
  | none => ([], .returned false)
  | some ipc => after [.remove sIPCName] <|
    scope (openShm .shmfd sIPCName os.shmOpen) (closeShm .shmfd) fun _ =>
    scope (openSem .sem sIPCName os.semOpen) (closeSem .sem) fun _ =>
    after (cleanupIPC .shmfd .sem sIPCName os) <|
    scope (openShm .dataShmfd ipc.sDataIPCName data.shmOpen) (closeShm .dataShmfd) fun _ =>
    scope (openSem .dataSem ipc.sDataIPCName data.semOpen) (closeSem .dataSem) fun _ =>
    (cleanupIPC .dataShmfd .dataSem ipc.sDataIPCName data, .returned true)

/-- How one attempt of `SendIPC` to post goes. -/
structure AttemptOutcomes where
  /-- The slot is mapped, initialised and without a request. -/
  enters : Bool
  serverDataShm : Bool
  serverDataSem : Bool
  serverDataMmap : Bool

/-- An attempt to post, and whether it succeeds. -/
def attempt (args : SendArgs) (sDataIPCName : List Char) (os : AttemptOutcomes) :
    List Event × Bool :=
  if os.enters = false then ([], false)
  else if args.isUsingMmap = false then ([], true)
  else
    scope (openShm .serverDataShm sDataIPCName os.serverDataShm) (closeShm .serverDataShm) fun
    | false => ([], false)
    | true =>
      scope (openSem .serverDataSem sDataIPCName os.serverDataSem) (closeSem .serverDataSem) fun
      | false => ([], false)
      | true => ([], os.serverDataMmap)

/-- The loop of `SendIPC` that posts, with the iterations that are left. -/
def attempts (args : SendArgs) (sDataIPCName : List Char) (os : ℕ → AttemptOutcomes) :
    ℕ → ℕ → List Event × Bool
  | 0, _ => ([], false)
  | left + 1, nCheckMs =>
    let now := attempt args sDataIPCName (os nCheckMs)
    if now.2 then now
    else after now.1 (attempts args sDataIPCName os left (nCheckMs + 1))

/-- How the calls to the system go in `SendIPC`. -/
structure SendOutcomes where
  clientShm : ShmOutcomes
  clientDataShm : ShmOutcomes
  clientSem : SemOutcomes
  clientDataSem : SemOutcomes
  serverShm : Bool
  serverSem : Bool
  attempts : ℕ → AttemptOutcomes
  /-- The loop that receives, which opens nothing, gets a response. -/
  isRecvSuccess : Bool
  /-- How the unlinking goes in the destructors. -/
  unlinks : Wrapper → Bool

/-- `CIPCShm::Destroy`. -/
def destroyShm (w : Wrapper) (sIPCName : List Char) (succeeds isOpen : Bool) : List Event :=
  closeShm w isOpen ++ unlinkShm sIPCName succeeds

/-- `CIPCSem::Destroy`. -/
def destroySem (w : Wrapper) (sIPCName : List Char) (succeeds isOpen : Bool) : List Event :=
  closeSem w isOpen ++ unlinkSem sIPCName succeeds

/-- A call that is made only behind one that has succeeded. -/
def andThen (isOpen : Bool) (next : List Event × Bool) : List Event × Bool :=
  if isOpen then next else ([], false)

/-- The block of `SendIPC` that posts. -/
def postIPC (args : SendArgs) (sIPCName : List Char) (os : SendOutcomes) : List Event × Bool :=
  scope (openShm .serverShm sIPCName os.serverShm) (closeShm .serverShm) fun
  | false => ([], false)
  | true => scope (openSem .serverSem sIPCName os.serverSem) (closeSem .serverSem) fun
    | false => ([], false)
    | true => attempts args (getDataIPCName sIPCName) os.attempts (args.timeOutSec * 100).toNat 0

/-- `SendIPC`. The four wrappers of the client are there from the beginning, so that each has its
destructor run. -/
def sendIPC (mapIPC : List StIPCShm) (args : SendArgs) (sIPCName : List Char)
    (os : SendOutcomes) : List Event × Ended :=
  let name := args.sIPCClientName
  let data := getDataIPCName name
  scope (createShm .clientShm mapIPC name os.clientShm)
    (destroyShm .clientShm name (os.unlinks .clientShm)) fun isOpen =>
  scope (andThen isOpen (createShm .clientDataShm mapIPC data os.clientDataShm))
    (destroyShm .clientDataShm data (os.unlinks .clientDataShm)) fun isOpen =>
  scope (andThen isOpen (createSem .clientSem name os.clientSem))
    (destroySem .clientSem name (os.unlinks .clientSem)) fun isOpen =>
  scope (andThen isOpen (createSem .clientDataSem data os.clientDataSem))
    (destroySem .clientDataSem data (os.unlinks .clientDataSem)) fun
  | false => ([], .returned false)
  | true =>
    let posted := postIPC args sIPCName os
    (posted.1, .returned (posted.2 && os.isRecvSuccess))

/-- What an event is for the wrappers: a descriptor or a semaphore is returned, or closed. -/
def Event.entries : Event → List (Entry Wrapper)
  | shmOpen w _ _ | semOpen w _ _ => [.acquire w]
  | close w | semClose w => [.release w]
  | ftruncate _ | shmUnlink _ | semUnlink _ | mmap _ | insert _ | remove _ => []

/-- The ledger of a call. -/
def ledger (events : List Event) : List (Entry Wrapper) := events.flatMap Event.entries

section Ledger

variable {Result : Type} {w : Wrapper} {held : Finset Wrapper} {events : List Event}
  {opened next : List Event × Bool} {destructor : Bool → List Event}
  {body : Bool → List Event × Result} {later : List Event × Result}

@[simp]
theorem ledger_nil : ledger [] = [] := rfl

@[simp]
theorem ledger_cons (event : Event) : ledger (event :: events) = event.entries ++ ledger events :=
  rfl

@[simp]
theorem ledger_append (front back : List Event) :
    ledger (front ++ back) = ledger front ++ ledger back := List.flatMap_append

@[simp]
theorem ledger_unlinkShm (sIPCName : List Char) (succeeds : Bool) :
    ledger (unlinkShm sIPCName succeeds) = [] := by
  unfold unlinkShm
  split <;> rfl

@[simp]
theorem ledger_unlinkSem (sIPCName : List Char) (succeeds : Bool) :
    ledger (unlinkSem sIPCName succeeds) = [] := by
  unfold unlinkSem
  split <;> rfl

/-- The wrappers that hold something once one more has been opened or not. -/
def opening (held : Finset Wrapper) (w : Wrapper) (isOpen : Bool) : Finset Wrapper :=
  if isOpen then insert w held else held

/-- The wrapper holds something exactly if its opening succeeds. -/
def Opens (w : Wrapper) (opened : List Event × Bool) : Prop :=
  ∀ held, w ∉ held → play held (ledger opened.1) = some (opening held w opened.2)

/-- The destructor closes what the wrapper holds. -/
def Closes (w : Wrapper) (destructor : Bool → List Event) : Prop :=
  ∀ held isOpen, w ∉ held → play (opening held w isOpen) (ledger (destructor isOpen)) = some held

/-- What is opened is closed again. -/
def Keeps (held : Finset Wrapper) (events : List Event) : Prop :=
  play held (ledger events) = some held

theorem Keeps.nil : Keeps held [] := rfl

theorem Keeps.append {later : List Event} (first : Keeps held events) (second : Keeps held later) :
    Keeps held (events ++ later) := by
  rw [Keeps, ledger_append, play_append, first]
  exact second

/-- What is opened is closed by the end of its block, in between or by the destructor. -/
theorem keeps_block (fresh : w ∉ held) (opens : Opens w opened)
    (rest : ∀ isOpen, play (opening held w isOpen)
      (ledger ((body isOpen).1 ++ destructor isOpen)) = some held) :
    Keeps held (scope opened destructor body).1 := by
  rw [Keeps, scope, List.append_assoc, ledger_append, play_append, opens held fresh,
    Option.bind_some]
  exact rest opened.2

/-- What is opened is closed by its destructor. -/
theorem keeps_scope (fresh : w ∉ held) (opens : Opens w opened) (closes : Closes w destructor)
    (inner : ∀ isOpen, Keeps (opening held w isOpen) (body isOpen).1) :
    Keeps held (scope opened destructor body).1 := by
  refine keeps_block fresh opens fun isOpen => ?_
  rw [ledger_append, play_append, inner isOpen, Option.bind_some]
  exact closes held isOpen fresh

theorem keeps_after (first : Keeps held events) (second : Keeps held later.1) :
    Keeps held (after events later).1 := first.append second

theorem opens_createShm {mapIPC : List StIPCShm} {sIPCName : List Char} {os : ShmOutcomes} :
    Opens w (createShm w mapIPC sIPCName os) := by
  intro held fresh
  unfold createShm
  split
  · rfl
  · split
    · cases os.ftruncate with
      | done | invalid => simp [ledger, Event.entries, play, opening, fresh]
      | failed =>
        rw [ledger_append, ledger_unlinkShm]
        simp [ledger, Event.entries, play, opening, fresh]
    · rfl

theorem opens_createSem {sIPCName : List Char} {os : SemOutcomes} :
    Opens w (createSem w sIPCName os) := by
  intro held fresh
  unfold createSem
  cases os.semUnlink <;> cases os.semOpen <;> simp [ledger, Event.entries, play, opening, fresh]

theorem opens_openShm {sIPCName : List Char} {succeeds : Bool} :
    Opens w (openShm w sIPCName succeeds) := by
  intro held fresh
  cases succeeds <;> simp [openShm, ledger, Event.entries, play, opening, fresh]

theorem opens_openSem {sIPCName : List Char} {succeeds : Bool} :
    Opens w (openSem w sIPCName succeeds) := by
  intro held fresh
  cases succeeds <;> simp [openSem, ledger, Event.entries, play, opening, fresh]

theorem opens_andThen {isOpen : Bool} (opens : Opens w next) : Opens w (andThen isOpen next) := by
  cases isOpen with
  | true => exact opens
  | false => exact fun _ _ => rfl

theorem closes_closeShm : Closes w (closeShm w) := by
  intro held isOpen fresh
  cases isOpen <;> simp [closeShm, ledger, Event.entries, play, opening, fresh]

theorem closes_closeSem : Closes w (closeSem w) := by
  intro held isOpen fresh
  cases isOpen <;> simp [closeSem, ledger, Event.entries, play, opening, fresh]

theorem closes_destroyShm {sIPCName : List Char} {succeeds : Bool} :
    Closes w (destroyShm w sIPCName succeeds) := by
  intro held isOpen fresh
  rw [destroyShm, ledger_append, ledger_unlinkShm, List.append_nil]
  exact closes_closeShm held isOpen fresh

theorem closes_destroySem {sIPCName : List Char} {succeeds : Bool} :
    Closes w (destroySem w sIPCName succeeds) := by
  intro held isOpen fresh
  rw [destroySem, ledger_append, ledger_unlinkSem, List.append_nil]
  exact closes_closeSem held isOpen fresh

end Ledger

theorem keeps_createIPC (mapIPC : List StIPCShm) (sIPCName : List Char) (os : CreateOutcomes) :
    Keeps ∅ (createIPC mapIPC sIPCName os).1 := by
  -- block by block, each with nothing to do if its wrapper is not opened
  refine keeps_scope (by decide) opens_createShm closes_closeShm fun
    | false => .nil
    | true => ?_
  dsimp only
  split
  · exact .nil
  · refine keeps_after rfl ?_
    refine keeps_scope (by decide) opens_createShm closes_closeShm fun
      | false => .nil
      | true => ?_
    refine keeps_scope (by decide) opens_createSem closes_closeSem fun
      | false => .nil
      | true => ?_
    -- nothing is left to the destructor of `semData`
    refine keeps_block (by decide) opens_createSem fun
      | false => rfl
      | true => ?_
    dsimp only
    split <;> rfl

theorem keeps_attempt (args : SendArgs) (sDataIPCName : List Char) (os : AttemptOutcomes)
    {held : Finset Wrapper} (shm : .serverDataShm ∉ held) (sem : .serverDataSem ∉ held) :
    Keeps held (attempt args sDataIPCName os).1 := by
  unfold attempt
  split
  · exact .nil
  · split
    · exact .nil
    · refine keeps_scope shm opens_openShm closes_closeShm fun
        | false => .nil
        | true => ?_
      have fresh : .serverDataSem ∉ opening held .serverDataShm true := by simp [opening, sem]
      exact keeps_scope fresh opens_openSem closes_closeSem fun
        | false => .nil
        | true => .nil

theorem keeps_attempts (args : SendArgs) (sDataIPCName : List Char) (os : ℕ → AttemptOutcomes)
    {held : Finset Wrapper} (shm : .serverDataShm ∉ held) (sem : .serverDataSem ∉ held)
    (left nCheckMs : ℕ) : Keeps held (attempts args sDataIPCName os left nCheckMs).1 := by
  induction left generalizing nCheckMs with
  | zero => exact .nil
  | succ left ih =>
    have now := keeps_attempt args sDataIPCName (os nCheckMs) shm sem
    unfold attempts
    dsimp only
    split
    · exact now
    · exact keeps_after now (ih (nCheckMs + 1))

/-- The wrappers that `SendIPC` has for the server. -/
def Wrapper.isServer : Wrapper → Bool
  | serverShm | serverSem | serverDataShm | serverDataSem => true
  | _ => false

theorem keeps_postIPC (args : SendArgs) (sIPCName : List Char) (os : SendOutcomes)
    {held : Finset Wrapper} (others : ∀ w ∈ held, w.isServer = false) :
    Keeps held (postIPC args sIPCName os).1 := by
  have apart {w : Wrapper} (server : w.isServer = true) : w ∉ held := fun member =>
    nomatch server.symm.trans (others w member)
  refine keeps_scope (apart rfl) opens_openShm closes_closeShm fun
    | false => .nil
    | true => ?_
  have fresh : .serverSem ∉ opening held .serverShm true := by
    simp [opening, apart (w := .serverSem) rfl]
  refine keeps_scope fresh opens_openSem closes_closeSem fun
    | false => .nil
    | true => ?_
  refine keeps_attempts args _ _ ?_ ?_ _ 0
  · simp [opening, apart (w := .serverDataShm) rfl]
  · simp [opening, apart (w := .serverDataSem) rfl]

theorem keeps_sendIPC (mapIPC : List StIPCShm) (args : SendArgs) (sIPCName : List Char)
    (os : SendOutcomes) : Keeps ∅ (sendIPC mapIPC args sIPCName os).1 := by
  -- whether each wrapper has been opened or not, the next one is another
  refine keeps_scope (by decide) opens_createShm closes_destroyShm fun a => ?_
  refine keeps_scope (by revert a; decide) (opens_andThen opens_createShm) closes_destroyShm
    fun b => ?_
  refine keeps_scope (by revert a b; decide) (opens_andThen opens_createSem) closes_destroySem
    fun c => ?_
  refine keeps_scope (by revert a b c; decide) (opens_andThen opens_createSem) closes_destroySem fun
    | false => .nil
    | true => ?_
  refine keeps_postIPC args sIPCName os ?_
  revert a b c
  decide

/-- Neither object of a name is found. -/
def CleanupOutcomes.Misses (os : CleanupOutcomes) : Prop := os.shmOpen = false ∧ os.semOpen = false

/-- `DestroyIPC` keeps what it opens closed once if and only if it opens nothing. -/
theorem keeps_destroyIPC_iff {mapIPC : List StIPCShm} {sIPCName : List Char}
    {os data : CleanupOutcomes} : Keeps ∅ (destroyIPC mapIPC sIPCName os data).1 ↔
      ((∃ ipc ∈ mapIPC, ipc.sIPCName = sIPCName) → os.Misses ∧ data.Misses) := by
  unfold destroyIPC
  cases found : mapIPC.find? fun ipc => ipc.sIPCName == sIPCName with
  | none =>
    refine iff_of_true .nil fun ⟨ipc, member, same⟩ => ?_
    exact absurd (beq_iff_eq.mpr same) (List.find?_eq_none.mp found ipc member)
  | some ipc =>
    have registered : ∃ ipc ∈ mapIPC, ipc.sIPCName = sIPCName :=
      ⟨ipc, List.mem_of_find?_eq_some found, by simpa using List.find?_some found⟩
    rw [forall_prop_of_true registered]
    obtain ⟨shmOpen, semOpen, _, _⟩ := os
    obtain ⟨dataShmOpen, dataSemOpen, _, _⟩ := data
    -- each of the four that is open is closed by `cleanupIPC` and by its destructor
    cases shmOpen <;> cases semOpen <;> cases dataShmOpen <;> cases dataSemOpen <;>
      simp [Keeps, CleanupOutcomes.Misses, scope, after, openShm, openSem, closeShm, closeSem,
        cleanupIPC, Event.entries, play]

/-- A call of one of the three functions, with how the calls to the system go in it. -/
inductive Call
  | create (sIPCName : List Char) (os : CreateOutcomes)
  | destroy (sIPCName : List Char) (os data : CleanupOutcomes)
  | send (args : SendArgs) (sIPCName : List Char) (os : SendOutcomes)

/-- A process: the servers that it has registered, and, as a record, what each of its calls has
done. -/
structure Process where
  mapIPC : List StIPCShm
  calls : List (List Event)

namespace Process

def start : Process := ⟨[], []⟩

/-- What a call does. -/
def events (p : Process) : Call → List Event
  | .create sIPCName os => (createIPC p.mapIPC sIPCName os).1
  | .destroy sIPCName os data => (destroyIPC p.mapIPC sIPCName os data).1
  | .send args sIPCName os => (sendIPC p.mapIPC args sIPCName os).1

/-- What an event does to `mapIPC`. -/
def register (mapIPC : List StIPCShm) : Event → List StIPCShm
  | .insert shm => mapIPC.filter (fun ipc => ipc.sIPCName != shm.sIPCName) ++ [shm]
  | .remove sIPCName => mapIPC.filter fun ipc => ipc.sIPCName != sIPCName
  | _ => mapIPC

/-- A call from beginning to end. -/
def step (p : Process) (call : Call) : Option Process :=
  some ⟨(p.events call).foldl register p.mapIPC, p.calls ++ [p.events call]⟩

/-- By the end of each call, what it has opened is closed exactly once. -/
def Disciplined (p : Process) : Prop := ∀ events ∈ p.calls, Settled (ledger events)

/-- A call of `DestroyIPC` for a registered name finds none of the four objects. -/
def Spares (p : Process) : Call → Prop
  | .destroy sIPCName os data =>
    (∃ ipc ∈ p.mapIPC, ipc.sIPCName = sIPCName) → os.Misses ∧ data.Misses
  | .create .. | .send .. => True

/-- A call closes what it opens exactly once if and only if it spares the objects. -/
theorem settled_iff_spares (p : Process) (call : Call) :
    Settled (ledger (p.events call)) ↔ p.Spares call := by
  cases call with
  | create sIPCName os => exact iff_of_true (keeps_createIPC p.mapIPC sIPCName os) trivial
  | destroy sIPCName os data => exact keeps_destroyIPC_iff
  | send args sIPCName os => exact iff_of_true (keeps_sendIPC p.mapIPC args sIPCName os) trivial

variable {p : Process} {calls : List Call}

/-- All calls of a run close what they open exactly once if and only if none of them is a
`DestroyIPC` that finds an object. -/
theorem disciplined_iff_spares (run : Run step Free start calls p) :
    p.Disciplined ↔ Run step Spares start calls p := by
  -- a call only adds its own ledger to the record
  refine run.good_iff nofun fun _ s call t _ next => ?_
  obtain rfl := Option.some.inj next
  rw [← settled_iff_spares]
  simp [Disciplined, or_imp, forall_and]

/-- All calls to the system succeed. -/
def succeeding : CreateOutcomes :=
  ⟨⟨true, .done, true⟩, true, ⟨true, .done, true⟩, ⟨true, true⟩, ⟨true, true⟩, true⟩

/-- A server is created, and destroyed when its objects have been removed before. -/
theorem disciplined_of_removed :
    ∃ p : Process, p.calls.length = 2 ∧ p.mapIPC = [] ∧ p.Disciplined := by
  let removed : CleanupOutcomes := ⟨false, false, false, false⟩
  have created : Run step Spares start ([] ++ [.create ['a'] succeeding]) _ :=
    .snoc .nil trivial rfl
  have destroyed : Run step Spares start
      ([] ++ [.create ['a'] succeeding] ++ [.destroy ['a'] removed removed]) _ :=
    .snoc created (fun _ => ⟨⟨rfl, rfl⟩, rfl, rfl⟩) rfl
  exact ⟨_, rfl, rfl, (disciplined_iff_spares destroyed.free).mpr destroyed⟩

/-- A server is created and destroyed. -/
theorem destroy_closes_twice : ¬ ∀ calls p, Run step Free start calls p → p.Disciplined := by
  intro all
  let present : CleanupOutcomes := ⟨true, true, true, true⟩
  have run : Run step Free start
      [.create ['a'] succeeding, .destroy ['a'] present present] _ := run_of_exec rfl
  have settled := all _ _ run _ (List.mem_append_right _ (List.mem_singleton_self _))
  revert settled
  decide

end Process

end ExLibs.IPC.Unix
