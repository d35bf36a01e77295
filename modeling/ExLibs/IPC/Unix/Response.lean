/-
# A response of the Unix server

What a worker does with a request once it has the request's bytes, and what the waiting
`SendIPC` finds, when every call to the system succeeds. The worker skips every response
that the callback has produced but the empty one, for which it raises the flag of the slot.
-/
import ExLibs.IPC.Unix.Server

namespace ExLibs.IPC.Unix

open ExLibs.Math

/-- The head of a response. -/
def StIPCData.raise (client : StIPCData) (pid : ℕ) (sIPCName : List Char) (responseSize : ℕ) :
    StIPCData :=
  { client with
    hasResponse := true
    hasRequest := false
    nSenderPID := pid
    sSenderIPCName := sIPCName
    isInit := true
    responseSize }

/-- A response goes through the data segment of the client. -/
def respondsByMmap (responseSize : ℕ) (nCheckIPC : ℤ) : Bool :=
  sizeofData < responseSize || nCheckIPC == 1

/-- `SendIPC` finds a response in its slot. -/
def StIPCData.isAnswered (client : StIPCData) : Bool := !client.hasRequest && client.hasResponse

/-- A worker places the response to a request in the slot of its sender. -/
def StIPCData.respond (data : StIPCData) (response : Response) (pid : ℕ) (sIPCName : List Char)
    (client : StIPCData) (mapping : List Byte) : Placed StIPCData :=
  if (data.needResponse = false ∧ data.nCheckIPC = 0) ∨
      (response.responseSize ≠ 0 ∧ response.resData = none) then .skipped
  else
    match copyFrom response.resData response.responseSize with
    | none => .faulted
    | some bytes =>
      if respondsByMmap response.responseSize data.nCheckIPC then
        .stored (client.raise pid sIPCName response.responseSize) (memcpy mapping bytes)
      else if 0 < response.responseSize then
        .stored { client.raise pid sIPCName response.responseSize with
          resData := memcpy client.resData bytes } mapping
      else .stored (client.raise pid sIPCName response.responseSize) mapping

/-- A worker runs the callback or the check path and responds. -/
def StIPCData.turn (data : StIPCData) (fnCallback : FnCallback) (reqData : Option (List Byte)) :
    ℕ → List Char → StIPCData → List Byte → Placed StIPCData :=
  if data.nCheckIPC = 0 then
    -- the callback has changed its own copy of the null pointer at most
    data.respond ⟨(fnCallback reqData data.requestSize none data.responseSize).responseSize, none⟩
  else data.respond ⟨quTestMsg.length, some quTestMsg⟩

/-- One turn of the receive loop of `SendIPC`: the response and `responseSize`, if there is
one. -/
def StIPCData.receive (client : StIPCData) (nCheckIPC : ℤ) (mapping : List Byte) :
    Option (List Byte × ℕ) :=
  if client.isAnswered then
    some ((if respondsByMmap client.responseSize nCheckIPC then mapping else client.resData).take
      client.responseSize, client.responseSize)
  else none

/-- The slot, or its data segment, holds a response. -/
structure StIPCData.Publishes (client : StIPCData) (mapping bytes : List Byte) : Prop where
  hasResponse : client.hasResponse = true
  responseSize : client.responseSize = bytes.length
  inline : bytes.length ≤ sizeofData → client.resData.take bytes.length = bytes
  mapped : sizeofData < bytes.length → mapping.take bytes.length = bytes

/-- What a worker makes of the response of a callback: it publishes the empty response and
skips any other. -/
theorem StIPCData.turn_eq {data : StIPCData} (needs : data.needResponse = true)
    (plain : data.nCheckIPC = 0) {fnCallback : FnCallback} {reqData : Option (List Byte)} {pid : ℕ}
    {sIPCName : List Char} {client : StIPCData} {mapping : List Byte} :
    data.turn fnCallback reqData pid sIPCName client mapping =
      if (fnCallback reqData data.requestSize none data.responseSize).responseSize = 0 then
        .stored (client.raise pid sIPCName 0) mapping
      else .skipped := by
  simp only [turn, plain, if_true]
  split
  · rename_i empty
    simp [respond, needs, plain, empty, copyFrom, respondsByMmap]
  · rename_i some
    simp [respond, some]

/-- A worker that has a response has the empty one to a request, or the answer to a check. -/
def Server.Responding (s : Server) : Prop := ∀ w q response, s.worker w = .answering q response →
  q.data.nCheckIPC = 0 ∧ response = ⟨0, none⟩ ∨
    q.data.nCheckIPC ≠ 0 ∧ response = ⟨quTestMsg.length, some quTestMsg⟩

namespace Queued

theorem start_ne_answering {q q' : Queued} {response : Response} :
    q.start ≠ .answering q' response := by
  unfold start
  split <;> exact nofun

theorem answer_answering {q q' : Queued} {response response' : Response}
    (answers : q.answer response = .answering q' response') :
    q = q' ∧ response = response' ∧ (response.resData = none → response.responseSize = 0) := by
  unfold answer at answers
  split at answers
  · cases answers
  · rename_i goes
    obtain ⟨rfl, rfl⟩ := WorkerPc.answering.inj answers
    refine ⟨rfl, rfl, fun null => ?_⟩
    by_contra some
    exact goes (.inr ⟨some, null⟩)

end Queued

namespace Server

variable {span nMaxThreadCount : ℕ} {s t : Server} {label : ServerLabel}

theorem responding_of_move {w : ℕ} {label : WorkerLabel} {pc : WorkerPc}
    (moves : WorkerMove span s w label pc) {q : Queued} {response : Response}
    (answering : pc = .answering q response) :
    q.data.nCheckIPC = 0 ∧ response = ⟨0, none⟩ ∨
      q.data.nCheckIPC ≠ 0 ∧ response = ⟨quTestMsg.length, some quTestMsg⟩ := by
  cases moves with
  | idle idles => rcases idles with rfl | rfl | rfl | rfl <;> cases answering
  | deQueue | fetch => cases answering
  | start => exact absurd answering Queued.start_ne_answering
  | serve calling produces =>
    obtain ⟨rfl, rfl, empty⟩ := Queued.answer_answering answering
    refine produces.imp_left fun ⟨plain, null⟩ => ⟨plain, ?_⟩
    rw [← empty null, ← null]

theorem Responding.keep (responding : s.Responding)
    (next : s.step span nMaxThreadCount label = some t) : t.Responding := by
  intro v q response answering
  cases step_cases next with
  | @worker w _ _ works =>
    by_cases own : v = w
    · exact responding_of_move (move_of_worker works) (own ▸ answering)
    · exact responding v q response ((worker_of_ne works own).symm.trans answering)
  | _ => exact responding v q response answering

theorem responding_of_run {allowed : Server → ServerLabel → Prop} {labels : List ServerLabel}
    (run : Run (step span nMaxThreadCount) allowed start labels s) : s.Responding := by
  have testing : ∀ w, start.worker w = .testing := fun _ => rfl
  have initial : start.Responding := by simp [Responding, testing]
  exact run.invariant initial fun _ _ _ responding _ next => responding.keep next

end Server

end ExLibs.IPC.Unix
