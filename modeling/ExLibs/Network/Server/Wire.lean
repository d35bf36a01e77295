/-
# Frames on the sockets of the server

A frame is written by a loop of `send` calls, each of which appends some part of what
is left of it to the socket. `SendToClient` and `SendToAll` hold the lock of the
client map around the loop, `SendToClientSocket` holds nothing. Frames stay whole on
a socket as long as no `send` falls into the middle of another call's frame there
when one of the two calls is a `SendToClientSocket`.
-/
import Mathlib.Data.List.Permutation
import Mathlib.Logic.Function.Basic
import ExLibs.Math.Transition
import ExLibs.Network.Packet

namespace ExLibs.Network

open ExLibs.Math

/-- `_mapUUIDToClientInfo`, as far as sends read it. Clients have a socket each. -/
structure ClientMap where
  entries : List (XString × ℕ)
  keys : (entries.map Prod.fst).Nodup
  distinct : (entries.map Prod.snd).Nodup

/-- A call that takes the lock. -/
inductive LockedSend
  | toClient (sUUID : XString)
  | toAll
  deriving DecidableEq

/-- A call in its write loop: whether it holds the lock, the sockets it has written
to, the one it is writing to, how much it has written there, and the sockets to come. -/
structure Writing where
  locked : Bool
  done : List ℕ
  socket : ℕ
  total : ℕ
  later : List ℕ
  deriving DecidableEq

/-- Where a send is. -/
inductive SendPc
  | absent
  | locking (request : LockedSend)
  | writing (w : Writing)
  /-- It has returned, after writing to some sockets. -/
  | returned (addressed : List ℕ)
  deriving DecidableEq

/-- Where a call goes when its frame is complete on a socket. -/
@[grind]
def Writing.next (w : Writing) : SendPc :=
  match w.later with
  | [] => .returned (w.done ++ [w.socket])
  | socket :: later => .writing ⟨w.locked, w.done ++ [w.socket], socket, 0, later⟩

/-- The sockets that a call has written its frame to. -/
@[grind]
def SendPc.finished : SendPc → List ℕ
  | writing w => w.done
  | returned addressed => addressed
  | absent | locking _ => []

/-- The sends of a server: the calls begun, the ids drawn, the lock with its holder,
the map, the calls with their payloads and frames, and for each socket the bytes on the
wire. The last field is a record of the calls that have finished their frame on it. -/
structure Sends where
  calls : ℕ
  drawn : ℕ
  lckClientMap : Option ℕ
  mapUUIDToClientInfo : ClientMap
  pc : ℕ → SendPc
  vecData : ℕ → PacketData
  vecPacket : ℕ → List Byte
  wire : ℕ → List Byte
  written : ℕ → List ℕ

/-- A step of a send, or a change of the map by someone else. -/
inductive SendLabel
  | sendToClientSocket (socket : ℕ) (msgId : MSGID) (vecData : PacketData)
  | sendToClient (sUUID : XString) (vecData : PacketData)
  | sendToAll (vecData : PacketData)
  | lock (call : ℕ)
  /-- A `send` of the write loop takes `k` bytes. -/
  | send (call k : ℕ)
  | update (map : ClientMap)

namespace Sends

/-- A server that has sent nothing. -/
def start : Sends where
  calls := 0
  drawn := 0
  lckClientMap := none
  mapUUIDToClientInfo := ⟨[], List.nodup_nil, List.nodup_nil⟩
  pc _ := .absent
  vecData _ := []
  vecPacket _ := []
  wire _ := []
  written _ := []

/-- A call moves on. -/
def goto (s : Sends) (call : ℕ) (pc : SendPc) : Sends :=
  { s with pc := Function.update s.pc call pc }

/-- A call begins. -/
def begin (s : Sends) (vecData : PacketData) (pc : SendPc) : Sends :=
  { s.goto s.calls pc with
    calls := s.calls + 1
    vecData := Function.update s.vecData s.calls vecData }

/-- A call has encoded its packet and enters its write loop. -/
def write (s : Sends) (call : ℕ) (locked : Bool) (msgId : MSGID) (socket : ℕ)
    (later : List ℕ) : Sends :=
  { s.goto call (.writing ⟨locked, [], socket, 0, later⟩) with
    vecPacket := Function.update s.vecPacket call (convertSendMsg msgId (s.vecData call))
    lckClientMap := if locked then some call else s.lckClientMap }

/-- A call that holds the lock writes its frame to each of the sockets. -/
def writeAll (s : Sends) (call : ℕ) (msgId : MSGID) : List ℕ → Sends
  | [] => s.goto call (.returned [])
  | socket :: later => s.write call true msgId socket later

/-- Some of the frame of a call appears on the wire. -/
def append (s : Sends) (call : ℕ) (w : Writing) (k : ℕ) : Sends :=
  { s with
    wire := Function.update s.wire w.socket
      (s.wire w.socket ++ ((s.vecPacket call).drop w.total).take k) }

/-- The frame of a call is complete on its socket: it turns to the next one, or
returns and releases the lock. -/
def advance (s : Sends) (call : ℕ) (w : Writing) : Sends :=
  { s.goto call w.next with
    lckClientMap := if w.locked ∧ w.later = [] then none else s.lckClientMap
    written := Function.update s.written w.socket (s.written w.socket ++ [call]) }

/-- One step, if the label is enabled. -/
def step (s : Sends) : SendLabel → Option Sends
  | .sendToClientSocket socket msgId vecData =>
    -- the only send that takes no lock
    some ((s.begin vecData .absent).write s.calls false msgId socket [])
  | .sendToClient sUUID vecData => some (s.begin vecData (.locking (.toClient sUUID)))
  | .sendToAll vecData => some (s.begin vecData (.locking .toAll))
  | .lock call =>
    match s.lckClientMap, s.pc call with
    | none, .locking (.toClient sUUID) =>
      match s.mapUUIDToClientInfo.entries.lookup sUUID with
      | none => some (s.goto call (.returned []))
      | some socket =>
        some ({ s with drawn := s.drawn + 1 }.writeAll call (msgIdSeq s.drawn) [socket])
    | none, .locking .toAll =>
      some ({ s with drawn := s.drawn + 1 }.writeAll call (msgIdSeq s.drawn)
        (s.mapUUIDToClientInfo.entries.map Prod.snd))
    | _, _ => none
  | .send call k =>
    match s.pc call with
    | .writing w =>
      -- `send` takes at least a byte, and no more than it is given
      if k = 0 ∨ (s.vecPacket call).length < w.total + k then none
      else if w.total + k < (s.vecPacket call).length then
        some ((s.append call w k).goto call (.writing { w with total := w.total + k }))
      else some ((s.append call w k).advance call w)
    | _ => none
  | .update map =>
    match s.lckClientMap with
    | none => some { s with mapUUIDToClientInfo := map }
    | some _ => none

variable {s t : Sends} {label : SendLabel} {call other k socket : ℕ} {w v : Writing}

/-- What a step does. -/
inductive Step (s : Sends) : SendLabel → Sends → Prop
  | sendToClientSocket {socket : ℕ} {msgId : MSGID} {vecData : PacketData} :
      Step s (.sendToClientSocket socket msgId vecData)
        ((s.begin vecData .absent).write s.calls false msgId socket [])
  | begin {label : SendLabel} {vecData : PacketData} {request : LockedSend} :
      Step s label (s.begin vecData (.locking request))
  | leave {call drawn : ℕ} {request : LockedSend} (locking : s.pc call = .locking request) :
      Step s (.lock call) ({ s with drawn }.goto call (.returned []))
  | lock {call drawn socket : ℕ} {request : LockedSend} {msgId : MSGID} {later : List ℕ}
      (free : s.lckClientMap = none) (locking : s.pc call = .locking request)
      (distinct : (socket :: later).Nodup) :
      Step s (.lock call)
        ({ s with drawn }.write call true msgId socket later)
  | part {call k : ℕ} {w : Writing} (writing : s.pc call = .writing w) (positive : 0 < k)
      (part : w.total + k < (s.vecPacket call).length) :
      Step s (.send call k)
        ((s.append call w k).goto call (.writing { w with total := w.total + k }))
  | finish {call k : ℕ} {w : Writing} (writing : s.pc call = .writing w)
      (last : (s.vecPacket call).length = w.total + k) :
      Step s (.send call k) ((s.append call w k).advance call w)
  | update {map : ClientMap} :
      Step s (.update map) { s with mapUUIDToClientInfo := map }

/-- Where a call goes once it has the lock. -/
theorem step_writeAll {request : LockedSend} {drawn : ℕ} {msgId : MSGID} {sockets : List ℕ}
    (free : s.lckClientMap = none) (locking : s.pc call = .locking request)
    (distinct : sockets.Nodup) :
    Step s (.lock call) ({ s with drawn }.writeAll call msgId sockets) := by
  cases sockets with
  | nil => exact .leave locking
  | cons socket later => exact .lock free locking distinct

theorem step_cases (next : s.step label = some t) : Step s label t := by
  cases label with
  | sendToClientSocket socket msgId vecData =>
    exact Option.some.inj next ▸ .sendToClientSocket
  | sendToClient sUUID vecData => exact Option.some.inj next ▸ .begin
  | sendToAll vecData => exact Option.some.inj next ▸ .begin
  | lock call =>
    simp only [step] at next
    split at next
    · rename_i sUUID free locking
      split at next
      · obtain rfl := Option.some.inj next
        exact @Step.leave s call s.drawn _ locking
      · exact Option.some.inj next ▸ step_writeAll free locking (List.nodup_singleton _)
    · rename_i free locking
      exact Option.some.inj next ▸ step_writeAll free locking s.mapUUIDToClientInfo.distinct
    · cases next
  | send call k =>
    simp only [step] at next
    split at next
    · rename_i w writing
      split_ifs at next with impossible part
      · exact Option.some.inj next ▸ .part writing (by omega) part
      · exact Option.some.inj next ▸ .finish writing (by omega)
    · cases next
  | update map =>
    simp only [step] at next
    split at next
    · exact Option.some.inj next ▸ .update
    · cases next

/-- No `send` of one call harms the frame of the other: the other has not begun it on
that socket, or they both hold the lock. -/
def Spares : SendPc → SendPc → Prop
  | .writing w, .writing v => v.socket = w.socket → 0 < v.total → w.locked ∧ v.locked
  | _, _ => True

/-- No `send` falls into the middle of the frame of another call on its socket, unless
both calls hold the lock. -/
def Exclusive (s : Sends) : SendLabel → Prop
  | .send call _ => ∀ other < s.calls, other ≠ call → Spares (s.pc call) (s.pc other)
  | _ => True

/-- The frames that have been completed on a socket. -/
def frames (s : Sends) (socket : ℕ) : List Byte :=
  (s.written socket).flatMap s.vecPacket

/-- What a socket has received is whole frames, one for each call that has finished
there, followed by the part of its frame that at most one call has begun there. -/
def Whole (s : Sends) (socket : ℕ) : Prop :=
  ∃ (order : List ℕ) (begun : List Byte), order.Nodup ∧
    (∀ call, call ∈ order ↔ socket ∈ (s.pc call).finished) ∧
    (∀ call ∈ order, ∃ msgId, s.vecPacket call = convertSendMsg msgId (s.vecData call)) ∧
    s.wire socket = order.flatMap s.vecPacket ++ begun ∧
    (begun = [] ∨ ∃ call w, s.pc call = .writing w ∧ w.socket = socket ∧
      begun = (s.vecPacket call).take w.total)

/-- The lock is held by the call that is writing under it. -/
structure Held (s : Sends) : Prop where
  fresh : ∀ call, s.calls ≤ call → s.pc call = .absent
  locked : ∀ call w, s.pc call = .writing w → w.locked = true → s.lckClientMap = some call

/-- A call writes one frame, of its payload, once to each of its sockets. -/
structure Recorded (s : Sends) : Prop where
  sockets : ∀ call w, s.pc call = .writing w → (w.done ++ w.socket :: w.later).Nodup
  writing : ∀ call w, s.pc call = .writing w → w.total < (s.vecPacket call).length ∧
    ∃ msgId, s.vecPacket call = convertSendMsg msgId (s.vecData call)
  written : ∀ socket, ∀ call ∈ s.written socket,
    ∃ msgId, s.vecPacket call = convertSendMsg msgId (s.vecData call)
  listed : ∀ call socket, call ∈ s.written socket ↔ socket ∈ (s.pc call).finished
  once : ∀ socket, (s.written socket).Nodup

/-- A socket holds whole frames and what one call has written of the next. -/
structure Apart (s : Sends) : Prop where
  alone : ∀ call other w v, s.pc call = .writing w → s.pc other = .writing v →
    w.socket = v.socket → 0 < w.total → 0 < v.total → call = other
  begun : ∀ call w, s.pc call = .writing w → 0 < w.total →
    s.wire w.socket = s.frames w.socket ++ (s.vecPacket call).take w.total
  complete : ∀ socket, (∀ call w, s.pc call = .writing w → w.socket = socket → w.total = 0) →
    s.wire socket = s.frames socket

theorem Held.keep (held : s.Held) (next : s.step label = some t) : t.Held := by
  have fresh := held.fresh
  have locked := held.locked
  cases step_cases next with
  | update => exact ⟨fresh, locked⟩
  | _ =>
    constructor <;> simp only [begin, write, append, advance, goto, Function.update_apply] <;>
      grind -linarith

theorem Recorded.keep (held : s.Held) (recorded : s.Recorded) (next : s.step label = some t) :
    t.Recorded := by
  have fresh := held.fresh
  have sockets := recorded.sockets
  have writing := recorded.writing
  have written := recorded.written
  have listed := recorded.listed
  have once := recorded.once
  cases step_cases next with
  | update => exact ⟨sockets, writing, written, listed, once⟩
  | _ =>
    -- a frame is never empty, so a call that starts to write has something to write
    constructor <;> simp only [begin, write, append, advance, goto, Function.update_apply] <;>
      grind -linarith [length_convertSendMsg]

/-- A call has written nothing yet to the socket it turns to. -/
theorem total_next (turned : w.next = .writing v) : v.total = 0 := by
  unfold Writing.next at turned
  split at turned
  · cases turned
  · exact SendPc.writing.inj turned ▸ rfl

/-- What a socket holds when no other call has begun a frame there. -/
theorem Apart.wire_eq (apart : s.Apart) (writing : s.pc call = .writing w)
    (spared : ∀ other v, other ≠ call → s.pc other = .writing v → v.socket = w.socket →
      v.total = 0) :
    s.wire w.socket = s.frames w.socket ++ (s.vecPacket call).take w.total := by
  rcases Nat.eq_zero_or_pos w.total with none | some
  · rw [none, List.take_zero, List.append_nil]
    refine apart.complete w.socket fun other v writing' same => ?_
    rcases eq_or_ne other call with rfl | distinct
    · obtain rfl := SendPc.writing.inj (writing.symm.trans writing')
      exact none
    · exact spared other v distinct writing' same
  · exact apart.begun call w writing some

/-- An allowed `send` goes to a socket where no other call has begun a frame. -/
theorem Held.spared (held : s.Held) (exclusive : s.Exclusive (.send call k))
    (writing : s.pc call = .writing w) (distinct : other ≠ call)
    (writing' : s.pc other = .writing v) (same : v.socket = w.socket) : v.total = 0 := by
  have running : other < s.calls := by
    by_contra notBegun
    have absent := held.fresh other (by omega)
    exact nomatch absent.symm.trans writing'
  have spares := exclusive other running distinct
  rw [writing, writing'] at spares
  -- two calls cannot both hold the lock
  by_contra begun
  obtain ⟨locked, locked'⟩ := spares same (Nat.pos_of_ne_zero begun)
  have holder := held.locked call w writing locked
  have holder' := held.locked other v writing' locked'
  exact distinct (Option.some.inj (holder'.symm.trans holder))

/-- Encoding the frame of a call that has written nowhere changes no frame on a socket. -/
theorem frames_update (recorded : s.Recorded) (unwritten : (s.pc call).finished = [])
    (vecPacket : List Byte) (socket : ℕ) :
    (s.written socket).flatMap (Function.update s.vecPacket call vecPacket) = s.frames socket := by
  refine List.flatMap_congr fun other written => Function.update_of_ne ?_ ..
  rintro rfl
  have finished := (recorded.listed other socket).mp written
  rw [unwritten] at finished
  exact List.not_mem_nil finished

theorem Apart.keep (held : s.Held) (recorded : s.Recorded) (apart : s.Apart)
    (exclusive : s.Exclusive label) (next : s.step label = some t) : t.Apart := by
  have fresh := held.fresh
  have alone := apart.alone
  have begun := apart.begun
  have complete := apart.complete
  cases step_cases next with
  | @sendToClientSocket socket msgId vecData =>
    have absent := fresh s.calls le_rfl
    have same := frames_update recorded (congrArg SendPc.finished absent)
      (convertSendMsg msgId vecData)
    constructor <;> simp only [begin, write, goto, frames, Function.update_apply] <;>
      grind -linarith
  | begin =>
    constructor <;> simp only [begin, goto, frames, Function.update_apply] <;>
      grind -linarith [frames]
  | leave locking =>
    constructor <;> simp only [goto, frames, Function.update_apply] <;> grind -linarith [frames]
  | @lock call drawn socket request msgId later free locking distinct =>
    have same := frames_update recorded (congrArg SendPc.finished locking)
      (convertSendMsg msgId (s.vecData call))
    constructor <;> simp only [write, goto, frames, Function.update_apply] <;> grind -linarith
  | @part call k w writing positive part =>
    have spared : ∀ other v, other ≠ call → s.pc other = .writing v → v.socket = w.socket →
        v.total = 0 := fun other v => held.spared exclusive writing
    have wire := apart.wire_eq writing spared
    have more : (s.vecPacket call).take w.total ++ ((s.vecPacket call).drop w.total).take k =
        (s.vecPacket call).take (w.total + k) := List.take_add.symm
    constructor <;> simp only [append, goto, frames, Function.update_apply] <;>
      grind -linarith [frames]
  | @finish call k w writing last =>
    have spared : ∀ other v, other ≠ call → s.pc other = .writing v → v.socket = w.socket →
        v.total = 0 := fun other v => held.spared exclusive writing
    have wire := apart.wire_eq writing spared
    have whole : (s.vecPacket call).take w.total ++ ((s.vecPacket call).drop w.total).take k =
        s.vecPacket call := by
      rw [← List.take_add, ← last, List.take_length]
    -- whoever has begun a frame now had begun it before, and is not the call
    have past : ∀ one v, ((s.append call w k).advance call w).pc one = .writing v →
        0 < v.total → one ≠ call ∧ s.pc one = .writing v := by
      intro one v writing' positive
      simp only [append, advance, goto, Function.update_apply] at writing'
      split at writing'
      · exact absurd (total_next writing') positive.ne'
      · exact ⟨‹_›, writing'⟩
    refine ⟨?alone, ?begun, ?complete⟩
    case alone =>
      intro one two w₁ w₂ writing₁ writing₂ same positive₁ positive₂
      exact alone one two w₁ w₂ (past one w₁ writing₁ positive₁).2
        (past two w₂ writing₂ positive₂).2 same positive₁ positive₂
    case begun =>
      intro one v writing' positive
      obtain ⟨distinct, writing'⟩ := past one v writing' positive
      have elsewhere : v.socket ≠ w.socket := fun same =>
        positive.ne' (spared one v distinct writing' same)
      simp only [append, advance, goto, frames, Function.update_of_ne elsewhere]
      exact begun one v writing' positive
    case complete =>
      intro socket idle
      simp only [append, advance, goto, frames, Function.update_apply] at idle ⊢
      split
      case isTrue =>
        rw [List.flatMap_append, List.flatMap_singleton, wire, List.append_assoc, whole]
        rfl
      case isFalse other =>
        refine complete socket fun one v writing' there => ?_
        refine idle one v ?_ there
        rw [if_neg, writing']
        rintro rfl
        obtain rfl := SendPc.writing.inj (writing.symm.trans writing')
        exact other there.symm
  | update => exact ⟨alone, begun, complete⟩

theorem held_start : start.Held := ⟨fun _ _ => rfl, nofun⟩

/-- What a step of an allowed run keeps. -/
theorem invariant {labels : List SendLabel} (run : Run step Exclusive start labels s) :
    s.Held ∧ s.Recorded ∧ s.Apart := by
  have recorded : start.Recorded := ⟨nofun, nofun, nofun,
    fun _ _ => iff_of_false List.not_mem_nil List.not_mem_nil, fun _ => List.nodup_nil⟩
  have initial : start.Held ∧ start.Recorded ∧ start.Apart :=
    ⟨held_start, recorded, nofun, nofun, fun _ _ => rfl⟩
  refine @Run.invariant _ _ step Exclusive start s labels
    (fun s => s.Held ∧ s.Recorded ∧ s.Apart) initial (fun s label t inv exclusive next => ?_) run
  obtain ⟨held, recorded, apart⟩ := inv
  exact ⟨held.keep next, recorded.keep held next, apart.keep held recorded exclusive next⟩

/-- Frames stay whole on every socket as long as no `send` falls into the middle of
another frame there without the lock. -/
theorem whole_of_exclusive {labels : List SendLabel} (run : Run step Exclusive start labels s)
    (socket : ℕ) : s.Whole socket := by
  obtain ⟨-, recorded, apart⟩ := invariant run
  by_cases idle : ∀ call w, s.pc call = .writing w → w.socket = socket → w.total = 0
  · refine ⟨s.written socket, [], recorded.once socket, fun call => recorded.listed call socket,
      recorded.written socket, ?_, .inl rfl⟩
    rw [List.append_nil]
    exact apart.complete socket idle
  · push Not at idle
    obtain ⟨call, w, writing, rfl, begun⟩ := idle
    exact ⟨s.written w.socket, _, recorded.once _, fun call => recorded.listed call _,
      recorded.written _, apart.begun call w writing (Nat.pos_of_ne_zero begun),
      .inr ⟨call, w, writing, rfl, rfl⟩⟩

instance : DecidableRel Spares
  | .writing w, .writing v =>
    inferInstanceAs (Decidable (v.socket = w.socket → 0 < v.total → w.locked ∧ v.locked))
  | .writing _, .absent | .writing _, .locking _ | .writing _, .returned _
  | .absent, _ | .locking _, _ | .returned _, _ => inferInstanceAs (Decidable True)

instance (s : Sends) : DecidablePred s.Exclusive
  | .send call _ => inferInstanceAs
      (Decidable (∀ other < s.calls, other ≠ call → Spares (s.pc call) (s.pc other)))
  | .sendToClientSocket .. | .sendToClient .. | .sendToAll .. | .lock _ | .update _ =>
    inferInstanceAs (Decidable True)

/-- A server with one client. -/
def oneClient : ClientMap := ⟨[("A", 0)], by decide, by decide⟩

/-- A reply and a broadcast to the same client, the frame of each in two parts. -/
theorem whole_of_two : ∃ s : Sends, s.Whole 0 ∧ (s.wire 0).length = 18 := by
  obtain ⟨s, run, length⟩ := @exists_run_of_guarded _ _ step Exclusive
    (fun s label => s.Exclusive label) (fun _ _ => of_decide_eq_true) start
    [.update oneClient, .sendToClientSocket 0 7 [1], .sendToAll [2], .send 0 4, .lock 1,
      .send 0 5, .send 1 3, .send 1 6]
    (fun s => (s.wire 0).length = 18) (by decide)
  exact ⟨s, whole_of_exclusive run 0, of_decide_eq_true length⟩

/-- The bytes that two calls write when the frame of one falls into that of the other. -/
def torn : List Byte :=
  [0, 0, 0, 1, 0, 0, 0, 1, 0, 0, 0, 1, 2, 0, 0, 0, 7, 1]

/-- A `SendToClient` writes its frame into the middle of a reply. -/
theorem torn_not_whole : ∃ s : Sends,
    Run step Free start [.update oneClient, .sendToClientSocket 0 7 [1], .sendToClient "A" [2],
      .send 0 4, .lock 1, .send 1 9, .send 0 5] s ∧
    s.pc 0 = .returned [0] ∧ s.pc 1 = .returned [0] ∧ s.wire 0 = torn ∧ ¬ s.Whole 0 := by
  obtain ⟨s, run, ended⟩ := @exists_run_of_exec _ _ step start
    [.update oneClient, .sendToClientSocket 0 7 [1], .sendToClient "A" [2], .send 0 4, .lock 1,
      .send 1 9, .send 0 5]
    (fun s => s.pc 0 = .returned [0] ∧ s.pc 1 = .returned [0] ∧ s.wire 0 = torn ∧
      s.calls = 2 ∧ [0, 1].map s.vecPacket = [convertSendMsg 7 [1], convertSendMsg 1 [2]])
    (by decide)
  obtain ⟨first, second, wire, calls, packets⟩ := of_decide_eq_true ended
  refine ⟨s, run, first, second, wire, ?_⟩
  rintro ⟨order, begun, once, listed, -, bytes, unfinished⟩
  have held : s.Held := run.invariant held_start fun _ _ _ held _ next => held.keep next
  have ended : ∀ call, s.pc call = if call < 2 then .returned [0] else .absent
    | 0 => first
    | 1 => second
    | call + 2 => held.fresh (call + 2) (by omega)
  have members : ∀ call, call ∈ order ↔ call ∈ [0, 1] := by
    intro call
    rw [listed, ended]
    split <;> simp [SendPc.finished] <;> omega
  have either : order ∈ [0, 1].permutations' :=
    List.mem_permutations'.mpr ((List.perm_ext_iff_of_nodup once (by decide)).mpr members)
  obtain rfl : begun = [] := by
    refine unfinished.resolve_right ?_
    rintro ⟨call, w, writing, -⟩
    rw [ended] at writing
    split at writing <;> cases writing
  simp only [List.map_cons, List.map_nil, List.cons.injEq, and_true] at packets
  rw [wire, List.append_nil] at bytes
  -- neither order of the two frames is what was written
  rcases List.mem_pair.mp either with rfl | rfl
  all_goals
    simp only [List.flatMap_cons, List.flatMap_nil, packets] at bytes
    revert bytes
    decide


end Sends

end ExLibs.Network
