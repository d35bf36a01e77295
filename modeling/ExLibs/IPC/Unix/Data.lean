/-
# What the Unix IPC transfers

A slot of shared memory, the names of the shared objects and what `SendIPC` writes into the
slot of a server. The slot has a flag that is raised last, and a bulk request goes through
the one data segment of the server.
-/
import ExLibs.Math.Memory
import ExLibs.IPC.Transfer

namespace ExLibs.IPC.Unix

open ExLibs.Math

/-- `stIPCData`. `sSenderIPCName` is what the process of the server reads of the string object that
is there. -/
structure StIPCData where
  reqData : List Byte
  requestSize : ℕ
  hasRequest : Bool
  resData : List Byte
  responseSize : ℕ
  hasResponse : Bool
  needResponse : Bool
  sSenderIPCName : List Char
  nSenderPID : ℕ
  timeout : ℤ
  isInit : Bool
  nCheckIPC : ℤ
  deriving DecidableEq

/-- `stIPCData()`, and what new shared memory holds. -/
def StIPCData.zero : StIPCData where
  reqData := List.replicate sizeofData 0
  requestSize := 0
  hasRequest := false
  resData := List.replicate sizeofData 0
  responseSize := 0
  hasResponse := false
  needResponse := false
  sSenderIPCName := []
  nSenderPID := 0
  timeout := 0
  isInit := false
  nCheckIPC := 0

/-- `getClientIPCName` in a process of a program. -/
def getClientIPCName (pid : ℕ) (appName : List Char) : List Char :=
  ['/', 'i', 'M', 'o', 'n', 'S', 'H', 'M'] ++ Nat.toDigits 10 pid ++ appName

/-- `getDataIPCName`. -/
def getDataIPCName (sIPCName : List Char) : List Char := sIPCName ++ ['D', 'A', 'T', 'A']

/-- A call of `SendIPC`: its process and its arguments. The string object that it stores in the slot
refers to memory of that process: the process of the server reads the name of the call there if it
is the same, and otherwise what it happens to have there itself. -/
structure SendArgs where
  pid : ℕ
  appName : List Char
  sSenderIPCName : List Char
  requestData : List Byte
  timeOutSec : ℤ
  nCheckIPC : ℤ

/-- The name of the slot of a call. -/
def SendArgs.sIPCClientName (args : SendArgs) : List Char :=
  getClientIPCName args.pid args.appName

/-- The request goes through the data segment. -/
def SendArgs.isUsingMmap (args : SendArgs) : Bool :=
  sizeofData < args.requestData.length || args.nCheckIPC == 1

/-- The request of this data goes through the data segment. -/
def StIPCData.isUsingMmap (data : StIPCData) : Bool :=
  sizeofData < data.requestSize || data.nCheckIPC == 1

/-- The fields that an attempt writes before it looks at the size. -/
def SendArgs.fill (args : SendArgs) (now : ℤ) (slot : StIPCData) : StIPCData :=
  { slot with
    hasResponse := false
    nSenderPID := args.pid
    requestSize := args.requestData.length
    sSenderIPCName := args.sSenderIPCName
    needResponse := true
    timeout := now + args.timeOutSec
    nCheckIPC := args.nCheckIPC }

/-- What `main` resets once it has taken or discarded a request. -/
def StIPCData.release (slot : StIPCData) : StIPCData :=
  { slot with hasRequest := false, hasResponse := false, nSenderPID := 0, needResponse := false }

/-- How the calls to the system go in one attempt to post. -/
structure PostOutcomes where
  mapSlot : Bool
  openDataShm : Bool
  openDataSem : Bool
  mapData : Bool
  deriving DecidableEq

/-- What an attempt to post comes to, with what it leaves in the slot and in the data
segment. -/
inductive PostResult
  | untouched
  | sent (slot : StIPCData) (bulk : List Byte)
  /-- The attempt ends before it raises `hasRequest`. -/
  | failed (slot : StIPCData)
  /-- The copy runs past the data segment. -/
  | killed (slot : StIPCData) (bulk : List Byte)

/-- The attempt finds the slot mapped, initialised and without a request. -/
def PostOutcomes.enters (os : PostOutcomes) (slot : StIPCData) : Bool :=
  os.mapSlot && slot.isInit && !slot.hasRequest

/-- The attempt gets at the data segment; nothing can be mapped with size zero. -/
def PostOutcomes.reaches (os : PostOutcomes) (args : SendArgs) : Bool :=
  os.openDataShm && os.openDataSem && os.mapData && !args.requestData.isEmpty

/-- One attempt to post. The data segment spans `span` bytes. -/
def post (span : ℕ) (args : SendArgs) (now : ℤ) (os : PostOutcomes) (slot : StIPCData)
    (bulk : List Byte) : PostResult :=
  if os.enters slot then
    if args.isUsingMmap then
      if os.reaches args then
        if args.requestData.length ≤ span then
          .sent { args.fill now slot with hasRequest := true } (memcpy bulk args.requestData)
        else .killed (args.fill now slot) (memcpy bulk (args.requestData.take span))
      else .failed (args.fill now slot)
    else .sent { args.fill now slot with
      reqData := memcpy slot.reqData args.requestData
      hasRequest := true } bulk
  else .untouched

end ExLibs.IPC.Unix
