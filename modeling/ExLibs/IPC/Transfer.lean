/-
# What both IPC implementations transfer

A slot of shared memory has room for 512 bytes of a request and of a response. What is
larger, and every check of the connection, goes through a mapping of its own.
-/
import Mathlib.Data.BitVec

namespace ExLibs.IPC

/-- A byte of a request or a response. -/
abbrev Byte := BitVec 8

/-- `sizeof( reqData )` and `sizeof( resData )`: 128 words of four bytes. -/
def sizeofData : ℕ := 128 * 4

/-- `quTestMsg`, 0xF1F2F3F4F5F6F7F8 on a little-endian machine: the response to a check. -/
def quTestMsg : List Byte := [0xF8, 0xF7, 0xF6, 0xF5, 0xF4, 0xF3, 0xF2, 0xF1]

/-- What the two response parameters of a callback hold when it returns. -/
structure CallbackEnd where
  responseData : Option (List Byte)
  responseSize : ℕ

/-- `fnCallback`, from the request and what its response parameters hold when it is called.
A pointer that is none is null. The pointer to the response is passed by value, its size by
reference. -/
abbrev FnCallback := Option (List Byte) → ℕ → Option (List Byte) → ℕ → CallbackEnd

/-- The callback produces a response, of which nothing need be there if it is empty. -/
def CallbackEnd.Produces (e : CallbackEnd) (bytes : List Byte) : Prop :=
  e.responseSize = bytes.length ∧ (e.responseData = some bytes ∨ bytes = [])

/-- `memcpy` from a pointer: the null pointer can only be copied nothing from. -/
def copyFrom (pointer : Option (List Byte)) (size : ℕ) : Option (List Byte) :=
  if size = 0 then some [] else pointer.map (·.take size)

/-- What a worker makes of a response when every call to the system succeeds. -/
inductive Placed (Slot : Type)
  | skipped
  /-- The worker copies from the null pointer. -/
  | faulted
  | stored (slot : Slot) (mapping : List Byte)
  deriving DecidableEq

end ExLibs.IPC
