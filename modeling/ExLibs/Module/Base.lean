/-
# The lifecycle of a module

`cModuleBase` has four lifecycle calls. Each breaks off while another one is running or when
the module is in a state that the call refuses; otherwise it runs its hook and sets the state
it is for, whatever the hook returns.

The hooks of a module that is used as it is meant to be are words of
`(moduleInit (moduleStart moduleStop)* moduleFinal)*`. These are the words that a small
acceptor takes back to where it starts from, and the states of a module are its places.
-/
import Mathlib.Computability.Language
import ExLibs.Math.Transition
import ExLibs.Network.Packet

namespace ExLibs.Module

open ExLibs.Math ExLibs.Network

/-- `eModuleState`. -/
inductive ModuleState
  | none
  | init
  | start
  | stop
  | final
  deriving DecidableEq

/-- The hooks of a module. Each belongs to the lifecycle call of its name. -/
inductive Hook
  | moduleInit
  | moduleStart
  | moduleStop
  | moduleFinal
  deriving DecidableEq

/-- The states in which a lifecycle call breaks off. -/
def Hook.refuses : Hook → ModuleState → Bool
  | .moduleInit, state => state = .init ∨ state = .start ∨ state = .stop
  | .moduleStart, state => state = .none ∨ state = .start ∨ state = .final
  | .moduleStop, state => state = .none ∨ state = .init ∨ state = .final
  | .moduleFinal, state => state ≠ .stop

/-- The state that a lifecycle call sets. -/
def Hook.target : Hook → ModuleState
  | .moduleInit => .init
  | .moduleStart => .start
  | .moduleStop => .stop
  | .moduleFinal => .final

/-- `cModuleBase`, with a record of the hooks that have run. -/
structure ModuleBase where
  sModuleName : XString := ""
  sModuleGroup : XString := ""
  isStop : Bool := false
  isRunning : Bool := false
  eState : ModuleState := .none
  hooks : List Hook := []

namespace ModuleBase

def getModuleState (m : ModuleBase) : ModuleState := m.eState

def setModuleState (m : ModuleBase) (state : ModuleState) : ModuleBase :=
  { m with eState := state }

/-- What the lifecycle calls have in common: what they return and leave behind, given what
the hook returns. -/
def lifecycle (hook : Hook) (m : ModuleBase) (succeeds : Bool) : Bool × ModuleBase :=
  if m.isRunning then (false, m)
  else if hook.refuses m.getModuleState then (false, m)
  else
    let running := { m with isRunning := true }
    let called := { running with hooks := running.hooks ++ [hook] }
    let set := called.setModuleState hook.target
    (succeeds, { set with isRunning := false })

def moduleInit : ModuleBase → Bool → Bool × ModuleBase := lifecycle .moduleInit

def moduleStart : ModuleBase → Bool → Bool × ModuleBase := lifecycle .moduleStart

def moduleStop : ModuleBase → Bool → Bool × ModuleBase := lifecycle .moduleStop

def moduleFinal : ModuleBase → Bool → Bool × ModuleBase := lifecycle .moduleFinal

/-- The lifecycle call that a hook belongs to. -/
def call : Hook → ModuleBase → Bool → Bool × ModuleBase
  | .moduleInit => moduleInit
  | .moduleStart => moduleStart
  | .moduleStop => moduleStop
  | .moduleFinal => moduleFinal

/-- `~cModuleBase`, with hooks that succeed. -/
def destroy (m : ModuleBase) : ModuleBase :=
  let state := m.getModuleState
  let m := { m with isRunning := false, isStop := true }
  let m := if state = .start then (m.moduleStop true).2 else m
  if state = .init ∨ state = .stop then (m.moduleFinal true).2 else m

/-- The call gets to its hook. -/
def admits (m : ModuleBase) (hook : Hook) : Bool :=
  !m.isRunning && !hook.refuses m.getModuleState

section Calls

variable {m : ModuleBase} {hook : Hook} {succeeds : Bool}

theorem call_eq : call hook = lifecycle hook := by
  cases hook <;> rfl

theorem lifecycle_of_not_admits (refused : m.admits hook = false) :
    m.lifecycle hook succeeds = (false, m) := by
  unfold lifecycle
  split_ifs with running refuses
  · rfl
  · rfl
  · simp [admits, running, refuses] at refused

theorem admits_iff :
    m.admits hook = true ↔ m.isRunning = false ∧ hook.refuses m.getModuleState = false := by
  simp [admits]

theorem lifecycle_of_admits (admitted : m.admits hook = true) :
    m.lifecycle hook succeeds = (succeeds,
      { m with hooks := m.hooks ++ [hook], eState := hook.target, isRunning := false }) := by
  obtain ⟨idle, passes⟩ := admits_iff.mp admitted
  simp [lifecycle, idle, passes, setModuleState]

/-- A call leaves the module its name and its group. -/
theorem names_lifecycle : (m.lifecycle hook succeeds).2.sModuleName = m.sModuleName ∧
    (m.lifecycle hook succeeds).2.sModuleGroup = m.sModuleGroup := by
  cases admitted : m.admits hook with
  | false => rw [lifecycle_of_not_admits admitted]; exact ⟨rfl, rfl⟩
  | true => rw [lifecycle_of_admits admitted]; exact ⟨rfl, rfl⟩

end Calls

end ModuleBase

end ExLibs.Module
