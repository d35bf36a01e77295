/-
# What callbacks can answer

A callback is to hand its response back through a pointer and a size, but gets the pointer
by value, so that the worker is left with the null pointer and a size. On Windows the worker
then skips the empty response and copies any other from the null pointer; on Unix it skips
all but the empty one. Only the empty response of a Unix server arrives.
-/
import ExLibs.IPC.Windows.Response
import ExLibs.IPC.Unix.Response

namespace ExLibs.IPC

/-- A turn of a worker, in either implementation: a request with what has been fetched of
it, the process and the name of the server, and the slot and the mapping of the client. -/
inductive Turn
  | windows (data : Windows.StIPCData) (reqData : Option (List Byte)) (pid : ℕ)
    (sIPCName : WString) (client : Windows.StIPCData) (mapping : List Byte)
  | unix (data : Unix.StIPCData) (reqData : Option (List Byte)) (pid : ℕ)
    (sIPCName : List Char) (client : Unix.StIPCData) (mapping : List Byte)

namespace Turn

/-- The turn is one of a Unix server. -/
def IsUnix : Turn → Prop
  | windows .. => False
  | unix .. => True

/-- The request is one for the callback and needs a response. -/
def NeedsResponse : Turn → Prop
  | windows data .. => data.needResponse = true ∧ data.bCheckIPC = false
  | unix data .. => data.needResponse = true ∧ data.nCheckIPC = 0

/-- How the callback ends in the turn. -/
def ends (fnCallback : FnCallback) : Turn → CallbackEnd
  | windows data reqData .. => fnCallback reqData data.requestSize none data.responseSize
  | unix data reqData .. => fnCallback reqData data.requestSize none data.responseSize

/-- The worker publishes the response, and `SendIPC` returns it with its size. -/
def Answers (fnCallback : FnCallback) (bytes : List Byte) : Turn → Prop
  | windows data reqData pid sIPCName client mapping => ∃ slot mapping',
      data.turn fnCallback reqData pid sIPCName client mapping = .stored slot mapping' ∧
        slot.Publishes mapping' bytes ∧ slot.receive false mapping' = some (bytes, bytes.length)
  | unix data reqData pid sIPCName client mapping => ∃ slot mapping',
      data.turn fnCallback reqData pid sIPCName client mapping = .stored slot mapping' ∧
        slot.Publishes mapping' bytes ∧ slot.receive 0 mapping' = some (bytes, bytes.length)

variable {turn : Turn} {fnCallback : FnCallback} {bytes : List Byte}

/-- A callback's response arrives if and only if the server is one on Unix and the response
is empty. -/
theorem answers_iff_empty_on_unix (needs : turn.NeedsResponse)
    (produces : (turn.ends fnCallback).Produces bytes) :
    turn.Answers fnCallback bytes ↔ turn.IsUnix ∧ bytes = [] := by
  cases turn with
  | windows data reqData pid sIPCName client mapping =>
    refine iff_of_false ?_ fun unix => unix.1
    rintro ⟨slot, mapping', stored, -⟩
    exact Windows.StIPCData.turn_ne_stored needs.2 stored
  | unix data reqData pid sIPCName client mapping =>
    have size : (fnCallback reqData data.requestSize none data.responseSize).responseSize =
        bytes.length := produces.1
    simp only [Answers, IsUnix, true_and, Unix.StIPCData.turn_eq needs.1 needs.2, size]
    constructor
    · rintro ⟨slot, mapping', stored, -⟩
      split at stored
      · exact List.eq_nil_of_length_eq_zero ‹_›
      · cases stored
    · rintro rfl
      exact ⟨_, _, rfl, ⟨rfl, rfl, fun _ => rfl, fun large => absurd large (Nat.not_lt_zero _)⟩,
        rfl⟩

/-- A callback that answers with the request. -/
def echo : FnCallback := fun requestData requestSize _ _ => ⟨requestData, requestSize⟩

/-- A Windows server with a small request. -/
def onWindows : Turn :=
  windows { Windows.StIPCData.zero with requestSize := 4, hasRequest := true, needResponse := true }
    (some [1, 2, 3, 4]) 1 (wide ['A']) .zero []

/-- A Unix server with a small request. -/
def onUnix : Turn :=
  unix { Unix.StIPCData.zero with requestSize := 4, hasRequest := true, needResponse := true }
    (some [1, 2, 3, 4]) 1 ['A'] .zero []

/-- The empty response of a Unix server. -/
theorem answers_empty : onUnix.Answers (fun _ _ _ _ => ⟨none, 0⟩) [] := by
  have needs : onUnix.NeedsResponse := And.intro rfl rfl
  exact (answers_iff_empty_on_unix needs ⟨rfl, .inr rfl⟩).mpr ⟨trivial, rfl⟩

/-- A response of four bytes: the Windows worker copies it from the null pointer, the Unix
worker skips it, and neither answers. -/
theorem echo_lost : (∀ turn ∈ [onWindows, onUnix], turn.NeedsResponse ∧
      (turn.ends echo).Produces [1, 2, 3, 4] ∧ ¬ turn.Answers echo [1, 2, 3, 4]) ∧
    Windows.StIPCData.turn { Windows.StIPCData.zero with
        requestSize := 4, hasRequest := true, needResponse := true }
      echo (some [1, 2, 3, 4]) 1 (wide ['A']) .zero [] = .faulted := by
  refine ⟨?_, by decide +kernel⟩
  simp only [List.forall_mem_cons, List.not_mem_nil, false_imp_iff, implies_true, and_true]
  refine ⟨⟨⟨rfl, rfl⟩, ⟨rfl, .inl rfl⟩, ?_⟩, ⟨rfl, rfl⟩, ⟨rfl, .inl rfl⟩, ?_⟩
  · rintro ⟨slot, mapping', stored, -⟩
    exact Windows.StIPCData.turn_ne_stored rfl stored
  · rintro ⟨slot, mapping', stored, -⟩
    rw [Unix.StIPCData.turn_eq rfl rfl] at stored
    cases stored

end Turn

end ExLibs.IPC
