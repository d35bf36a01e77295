/-
# A response of the Windows server

What a worker does with a request once it has the request's bytes, and what the waiting
`SendIPC` finds, when every call to the system succeeds. The worker skips an empty response
and copies any other from the null pointer, unless it is the answer to a check.
-/
import ExLibs.Math.Memory
import ExLibs.IPC.Windows.Worker

namespace ExLibs.IPC.Windows

open ExLibs.Math

/-- The head of a response. -/
def StIPCData.raise (client : StIPCData) (pid : ℕ) (sIPCName : WString) (responseSize : ℕ) :
    StIPCData :=
  { client with
    hasResponse := true
    hasRequest := false
    nSenderPID := pid
    sSenderIPCName := memcpy client.sSenderIPCName sIPCName
    isInit := true
    responseSize }

/-- The response goes through a mapping. -/
def StIPCData.respondsByMmap (data : StIPCData) : Bool :=
  sizeofData < data.responseSize || data.bCheckIPC

/-- A worker places the response to a request in the slot of its sender. -/
def StIPCData.respond (data : StIPCData) (resData : Option (List Byte)) (pid : ℕ)
    (sIPCName : WString) (client : StIPCData) (mapping : List Byte) : Placed StIPCData :=
  if data.needResponse = false ∧ data.bCheckIPC = false then .skipped
  else if data.responseSize = 0 ∧ resData = none then .skipped
  else
    match copyFrom resData data.responseSize with
    | none => .faulted
    | some bytes =>
      if data.respondsByMmap then
        .stored (client.raise pid sIPCName data.responseSize) (memcpy mapping bytes)
      else
        .stored { client.raise pid sIPCName data.responseSize with
          resData := memcpy client.resData bytes } mapping

/-- A worker runs the callback or the check path and responds. -/
def StIPCData.turn (data : StIPCData) (fnCallback : FnCallback) (reqData : Option (List Byte)) :
    ℕ → WString → StIPCData → List Byte → Placed StIPCData :=
  if data.bCheckIPC then
    respond { data with responseSize := quTestMsg.length } (some quTestMsg)
  else
    -- the callback has changed its own copy of the null pointer at most
    let responseSize := (fnCallback reqData data.requestSize none data.responseSize).responseSize
    respond { data with responseSize } none

/-- One turn of the receive loop of `SendIPC`: the response and `responseSize`, if there is
one. -/
def StIPCData.receive (client : StIPCData) (bCheckIPC : Bool) (mapping : List Byte) :
    Option (List Byte × ℕ) :=
  if client.hasRequest = false ∧ client.hasResponse = true then
    some ((if sizeofData < client.responseSize || bCheckIPC then mapping else client.resData).take
      client.responseSize, client.responseSize)
  else none

/-- The slot, or its mapping, holds a response. -/
structure StIPCData.Publishes (client : StIPCData) (mapping bytes : List Byte) : Prop where
  hasResponse : client.hasResponse = true
  responseSize : client.responseSize = bytes.length
  inline : bytes.length ≤ sizeofData → client.resData.take bytes.length = bytes
  mapped : sizeofData < bytes.length → mapping.take bytes.length = bytes

/-- A worker never publishes what a callback has produced. -/
theorem StIPCData.turn_ne_stored {data : StIPCData} (plain : data.bCheckIPC = false)
    {fnCallback : FnCallback} {reqData : Option (List Byte)} {pid : ℕ} {sIPCName : WString}
    {client slot : StIPCData} {mapping mapping' : List Byte} :
    data.turn fnCallback reqData pid sIPCName client mapping ≠ .stored slot mapping' := by
  simp only [turn, plain, Bool.false_eq_true, if_false]
  unfold respond
  split
  · exact nofun
  · split
    · exact nofun
    · rename_i empty
      have null : ∀ size ≠ 0, copyFrom none size = none := fun size some => if_neg some
      rw [null _ fun none => empty ⟨none, rfl⟩]
      exact nofun

end ExLibs.IPC.Windows
