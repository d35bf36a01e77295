/-
# Reading one message off a stream socket

`CTCPServer::Receive` and `CTCPClient::Receive` share one body. It asks `recv` for
four bytes of size, then for four bytes of message id, then for the rest until the
running total reaches a limit. The limit is the size word when that is not zero
and the size of the buffer otherwise; the size word is assembled from plain
`char`s, which are signed on the target compilers. What `recv` returns is added to
the total as it is, a failure's -1 included.

`Reader` holds the local variables of such a call between two `recv`s, and
`Reader.resume` is what the code does with one result of `recv`. `Reader.run`
drives a call against the bytes of a stream and the outcomes the network gives to
the `recv`s, in the order they are asked for.
-/
import ExLibs.Network.Packet

namespace ExLibs.Network

open ExLibs.Math

/-- What a `recv` comes back with. It returns the number of bytes, which is zero
when the peer has shut down and when zero bytes were asked for, or -1. -/
inductive RecvResult
  | data (bytes : List Byte)
  | failed
  /-- A failure with `WSAENOBUFS`, which only the Windows build looks at. -/
  | noBufs
  deriving DecidableEq, Repr

/-- The return value of the `recv`. -/
def RecvResult.count : RecvResult → ℤ
  | .data bytes => bytes.length
  | .failed | .noBufs => -1

/-- The bytes that the `recv` stores at its destination. -/
def RecvResult.bytes : RecvResult → List Byte
  | .data bytes => bytes
  | .failed | .noBufs => []

/-- Which of its three `recv` statements a call of `Receive` stands at. -/
inductive ReadPoint
  | size
  | msgId
  | body
  deriving DecidableEq, Repr

/-- The local variables of a call of `Receive` that stands at a `recv`. -/
structure Reader where
  point : ReadPoint
  total : ℤ
  uMaxSize : ℕ
  tries : ℕ
  pData : List Byte
  deriving DecidableEq, Repr

/-- How a call of `Receive` goes on after a `recv`: with another `recv`, by
returning, or by having stored bytes outside its buffer. -/
inductive Progress
  | more (r : Reader)
  | ret (n : ℤ) (pData : List Byte)
  | overrun
  deriving DecidableEq, Repr

/-- An `int` converted to `size_t`. -/
def sizeT (n : ℤ) : ℕ := (n % 2 ^ 64).toNat

/-- `nTotalSize`, the size word read from the front of the buffer as signed
`char`s. -/
def nTotalSize (pData : List Byte) : ℕ :=
  (BigEndian.signedWord (pData.getD 0 0) (pData.getD 1 0) (pData.getD 2 0)
    (pData.getD 3 0)).toNat

/-- The limit that the size word sets: itself, unless it is zero. -/
def limit (pData : List Byte) (uSize : ℕ) : ℕ :=
  if 0 < nTotalSize pData then nTotalSize pData else uSize

/-- A buffer with `bytes` written at an offset. -/
def overwrite (pData : List Byte) (offset : ℕ) (bytes : List Byte) : List Byte :=
  pData.take offset ++ bytes ++ pData.drop (offset + bytes.length)

namespace Reader

/-- Start of a call: nothing read, the limit is the size of the buffer. -/
def start (pData : List Byte) : Reader := ⟨.size, 0, pData.length, 0, pData⟩

/-- The number of bytes that the next `recv` asks for. In the loop this is an
unsigned difference, which wraps around when the total has passed the limit. -/
def len (r : Reader) : ℕ :=
  match r.point with
  | .size | .msgId => 4
  | .body => sizeT (r.uMaxSize - r.total)

/-- Store bytes at `pData + total`; `none` when they do not fit in the buffer. -/
def store (r : Reader) (bytes : List Byte) : Option (List Byte) :=
  if bytes = [] then some r.pData
  else if 0 ≤ r.total ∧ r.total.toNat + bytes.length ≤ r.pData.length then
    some (overwrite r.pData r.total.toNat bytes)
  else none

/-- The condition at the foot of the loop. -/
def again (bReadFully : Bool) (r : Reader) : Progress :=
  if bReadFully ∧ sizeT r.total < r.uMaxSize then .more r else .ret r.total r.pData

/-- What `Receive` does with the result of the `recv` it stands at. -/
def resume (bReadFully : Bool) (r : Reader) (res : RecvResult) : Progress :=
  match r.store res.bytes with
  | none => .overrun
  | some pData =>
    match r.point with
    | .size =>
      if res.count = 0 then .ret 0 pData
      else .more ⟨.msgId, r.total + res.count, limit pData r.uMaxSize, r.tries, pData⟩
    | .msgId =>
      if res.count = 0 then .ret 0 pData
      else .more ⟨.body, r.total + res.count, r.uMaxSize, r.tries, pData⟩
    | .body =>
      -- the peer has shut down
      if res.count = 0 then .ret r.total pData
      else if res = .noBufs then
        if r.tries < 1000 then again bReadFully { r with tries := r.tries + 1 }
        else .ret r.total pData
      else again bReadFully { r with total := r.total + res.count, pData := pData }

end Reader

/-- What the network does to one `recv`. -/
inductive RecvOutcome
  /-- The next `k` bytes of the stream arrive. -/
  | got (k : ℕ)
  /-- The peer has shut the connection down in order. -/
  | closed
  | failed
  | noBufs
  deriving DecidableEq, Repr

/-- One `recv` of `len` bytes: its result and the stream after it. Between one
byte and `len` bytes arrive, none only when none were asked for; `none` marks an
outcome that `recv` cannot have. -/
def recv (stream : List Byte) (len : ℕ) : RecvOutcome → Option (RecvResult × List Byte)
  | .got k =>
    if k ≤ len ∧ k ≤ stream.length ∧ (k = 0 → len = 0) then
      some (.data (stream.take k), stream.drop k)
    else none
  | .closed => some (.data [], stream)
  | .failed => some (.failed, stream)
  | .noBufs => some (.noBufs, stream)

/-- Where a call of `Receive` ends up. -/
inductive ReceiveEnd
  /-- It returned `n`, leaving a buffer, the rest of the stream and the outcomes
  that no `recv` asked for. -/
  | returned (n : ℤ) (pData : List Byte) (stream : List Byte) (outcomes : List RecvOutcome)
  /-- It waits in a `recv`: the outcomes have run out. -/
  | blocked
  /-- It stored bytes outside its buffer, so nothing can be said of the rest. -/
  | overrun (outcomes : List RecvOutcome)
  /-- An outcome was one that `recv` cannot have. -/
  | refused
  deriving DecidableEq, Repr

/-- Drive a call of `Receive` from where it stands. -/
def Reader.run (bReadFully : Bool) :
    Reader → List Byte → List RecvOutcome → ReceiveEnd
  | _, _, [] => .blocked
  | r, stream, o :: outcomes =>
    match recv stream r.len o with
    | none => .refused
    | some (res, rest) =>
      match r.resume bReadFully res with
      | .more r' => r'.run bReadFully rest outcomes
      | .ret n pData => .returned n pData rest outcomes
      | .overrun => .overrun outcomes

/-- Carry on with a call after a `recv`. -/
def Progress.carryOn (bReadFully : Bool) (stream : List Byte) (outcomes : List RecvOutcome) :
    Progress → ReceiveEnd
  | .more r => r.run bReadFully stream outcomes
  | .ret n pData => .returned n pData stream outcomes
  | .overrun => .overrun outcomes

theorem Reader.run_cons {bReadFully : Bool} {r : Reader} {stream rest : List Byte}
    {o : RecvOutcome} {res : RecvResult} (outcomes : List RecvOutcome)
    (result : recv stream r.len o = some (res, rest)) :
    r.run bReadFully stream (o :: outcomes) =
      (r.resume bReadFully res).carryOn bReadFully rest outcomes := by
  simp only [run, result]
  cases r.resume bReadFully res <;> rfl

/-- A call that did not meet an impossible outcome had a result from its `recv`. -/
theorem Reader.exists_recv {bReadFully : Bool} {r : Reader} {stream : List Byte}
    {o : RecvOutcome} {outcomes : List RecvOutcome}
    (possible : r.run bReadFully stream (o :: outcomes) ≠ .refused) :
    ∃ res rest, recv stream r.len o = some (res, rest) := by
  cases result : recv stream r.len o with
  | none => exact absurd (by simp [run, result]) possible
  | some answer => exact ⟨answer.1, answer.2, rfl⟩

/-- `CTCPServer::Receive`. -/
def CTCPServer.receive (ClientSocket : ℤ) (bReadFully : Bool) (pData stream : List Byte)
    (outcomes : List RecvOutcome) : ReceiveEnd :=
  if ClientSocket < 0 ∨ pData = [] then .returned 0 pData stream outcomes
  else (Reader.start pData).run bReadFully stream outcomes

/-- `CTCPClient::m_eStatus`. -/
inductive SocketStatus
  | connected
  | disconnected
  deriving DecidableEq, Repr

/-- `CTCPClient::Receive`. -/
def CTCPClient.receive (m_eStatus : SocketStatus) (bReadFully : Bool) (pData stream : List Byte)
    (outcomes : List RecvOutcome) : ReceiveEnd :=
  if pData = [] then .returned 0 pData stream outcomes
  else if m_eStatus ≠ .connected then .returned (-1) pData stream outcomes
  else (Reader.start pData).run bReadFully stream outcomes

/-- The two receiving ends of an open connection: the server's, which has the
socket that `accept` returned, and the client's, which is connected. -/
inductive Connection
  | server (socket : ℕ)
  | client

/-- `Receive` into a fresh buffer of `EXT_PACKET_SIZE` zeros, as both receive
threads call it. -/
def Connection.receive : Connection → List Byte → List RecvOutcome → ReceiveEnd
  | .server socket => CTCPServer.receive socket true (List.replicate extPacketSize 0)
  | .client => CTCPClient.receive .connected true (List.replicate extPacketSize 0)

/-- On an open connection both ends run the shared body. -/
theorem Connection.receive_eq (connection : Connection) (stream : List Byte)
    (outcomes : List RecvOutcome) :
    connection.receive stream outcomes =
      (Reader.start (List.replicate extPacketSize 0)).run true stream outcomes := by
  have room : List.replicate extPacketSize (0 : Byte) ≠ [] := by
    rw [← List.length_pos_iff_ne_nil, List.length_replicate]
    decide
  cases connection with
  | server socket =>
    rw [receive, CTCPServer.receive, if_neg]
    rintro (negative | empty)
    · omega
    · exact room empty
  | client =>
    rw [receive, CTCPClient.receive, if_neg room, if_neg (by decide)]

end ExLibs.Network
