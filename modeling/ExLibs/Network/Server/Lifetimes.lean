/-
# Lifetimes in a server

The `cNetworkServerReceive` of a client is destroyed with its entry of the map, or with the
listen thread's record of the client if that goes out of scope later. `Stop` is called
before, and joins the receive thread. A receive thread that has seen its peer close has
detached itself and is joined by nobody, though: it may still have to reset its handler,
or to disconnect its client by a UUID that it reads from what is destroyed.
-/
import ExLibs.Network.Server.Sockets

namespace ExLibs.Network

open ExLibs.Math

namespace ServerPc

/-- A receive thread in this place goes on to use its `cNetworkServerReceive`. -/
@[grind]
def uses : ServerPc → Bool
  | loop | polling | callback | closing | resetting | joiningHandler | wantLock _ | wantInsert _
  | inserting _ | stop _ | joinReceive _ | reset _ | joinHandler _ | disconnect _
  | joinListen => true
  | absent | unlock _ | ended => false

/-- A receive thread in this place has not let itself go. -/
@[grind]
def together : ServerPc → Bool
  | loop | polling | callback | closing => true
  | absent | resetting | joiningHandler | wantLock _ | wantInsert _ | inserting _ | stop _
  | joinReceive _ | reset _ | joinHandler _ | disconnect _ | unlock _ | joinListen
  | ended => false

/-- The client whose receive thread a thread has let go, or joined. -/
@[grind]
def past : ServerPc → Option ℕ
  | .reset job | .joinHandler job | .disconnect job => some job.client
  | _ => none

variable {pc : ServerPc} {client : ℕ}

@[grind →]
theorem together_of_looping (loops : pc.looping = true) : pc.together = true := by
  cases pc <;> first | rfl | cases loops

@[grind →]
theorem uses_of_looping (loops : pc.looping = true) : pc.uses = true := by
  cases pc <;> first | rfl | cases loops

@[grind →]
theorem past_of_looping (loops : pc.looping = true) : pc.past = none := by
  cases pc <;> first | rfl | cases loops

@[grind →]
theorem holding_of_past (lets : pc.past = some client) : pc.holding = true := by
  cases pc <;> first | rfl | cases lets

end ServerPc

namespace Server

variable {s t : Server} {label : TeardownLabel} {labels : List TeardownLabel}

@[grind =]
theorem past_enter (call : LockedCall) : (s.enter call).past = none := by
  rcases s.enter_cases call with ⟨job, entered⟩ | ⟨clear, entered⟩ <;> rw [entered] <;> rfl

@[grind =]
theorem together_enter (call : LockedCall) : (s.enter call).together = false := by
  rcases s.enter_cases call with ⟨job, entered⟩ | ⟨clear, entered⟩ <;> rw [entered] <;> rfl

attribute [grind =] holding_enter

@[grind =]
theorem past_after (thread : ServerThread) : (after thread).past = none := by
  cases thread <;> rfl

@[grind =]
theorem after_receive (client : ℕ) : after (.receive client) = .ended := rfl

/-- A receive thread is attached to its client until it has let itself go, or has been joined, and
the listen thread has a record only up to its next round. -/
structure Parted (s : Server) : Prop where
  receives : ∀ client, s.joinable client = false → (s.pc (.receive client)).together = false
  past : ∀ thread client, (s.pc thread).past = some client → s.joinable client = false
  record : ∀ client, s.info = some client →
    s.pc .listen = .unlock false ∨ s.pc .listen = .loop

/-- Only a receive thread that is attached to its client has not let itself go. -/
theorem Parted.receives_of_step (parted : s.Parted) (next : Step s label t) (client : ℕ)
    (detached : t.joinable client = false) : (t.pc (.receive client)).together = false := by
  -- a step moves one thread, and needs no more than the invariant of the same client
  have before := parted.receives client
  clear parted
  cases next with
  | _ =>
    simp only [goto, release, stopReceive, takeHandler, Function.update_apply] at detached ⊢
    grind

/-- No thread goes past the receive thread of a client before it has let it go. -/
theorem Parted.past_of_step (held : s.Held) (parted : s.Parted) (next : Step s label t)
    (thread : ServerThread) (client : ℕ) (past : (t.pc thread).past = some client) :
    t.joinable client = false := by
  have before := parted.past thread client
  have holds := (held thread).mp
  have listens := (held .listen).mp
  clear parted held
  cases next with
  | _ =>
    simp only [goto, release, stopReceive, takeHandler, Function.update_apply] at past ⊢
    grind

/-- The listen thread lets go of its record before it waits for another client. -/
theorem Parted.record_of_step (parted : s.Parted) (next : Step s label t) (client : ℕ)
    (recorded : t.info = some client) :
    t.pc .listen = .unlock false ∨ t.pc .listen = .loop := by
  have before := parted.record client
  clear parted
  cases next with
  | closed late => exact before recorded
  | unlock unlock =>
    simp only [goto, Function.update_apply] at recorded ⊢
    split
    · rename_i own
      subst own
      exact .inr rfl
    · exact before recorded
  | _ =>
    simp only [goto, release, stopReceive, takeHandler, Function.update_apply] at recorded ⊢
    grind

theorem Parted.keep (held : s.Held) (parted : s.Parted) (next : Step s label t) : t.Parted :=
  ⟨parted.receives_of_step next, parted.past_of_step held next, parted.record_of_step next⟩

theorem parted_start : start.Parted := by
  refine ⟨fun _ _ => rfl, ?_, nofun⟩
  intro thread client past
  cases thread <;> cases past

/-- The `cNetworkServerReceive` of a client has not been destroyed. -/
def Owned (s : Server) (client : ℕ) : Prop :=
  client ∈ s.mapUUIDToClientInfo ∨ s.info = some client

/-- No receive thread uses what has been destroyed, and nobody resets a handler while the receive
thread of the client does. -/
structure Intact (s : Server) : Prop where
  owned : ∀ client, (s.pc (.receive client)).uses = true → s.Owned client
  alone : ∀ thread job, s.pc thread = .reset job → s.pc (.receive job.client) ≠ .resetting

/-- A thread in a place destroys nothing, and resets no handler, over a receive thread that has
detached itself. -/
def SparesFrom (s : Server) (thread : ServerThread) : ServerPc → Prop
  | .stop job => s.joinable job.client = false → s.pc (.receive job.client) ≠ .resetting
  | .disconnect ⟨client, none⟩ => (s.pc (.receive client)).uses = true →
      thread = .receive client ∨ s.info = some client
  | .unlock true => ∀ client ∈ s.mapUUIDToClientInfo,
      (s.pc (.receive client)).uses = true → s.info = some client
  | _ => True

/-- The step spares the receive threads that have detached themselves. -/
def Spares (s : Server) : TeardownLabel → Prop
  | .check .listen => ∀ client ∈ s.info,
      (s.pc (.receive client)).uses = true → client ∈ s.mapUUIDToClientInfo
  | .advance thread => s.SparesFrom thread (s.pc thread)
  | _ => True

/-- What is used exists after a step that spares it. -/
theorem Intact.owned_of_step (parted : s.Parted) (intact : s.Intact) (spares : s.Spares label)
    (next : Step s label t) (client : ℕ) (uses : (t.pc (.receive client)).uses = true) :
    t.Owned client := by
  have before := intact.owned client
  have record := parted.record
  clear intact parted
  cases next with
  | _ =>
    simp only [Owned, Spares, SparesFrom, goto, release, stopReceive, takeHandler,
      Function.update_apply] at before uses spares ⊢
    grind

/-- Nobody comes to reset a handler that a receive thread resets, nor the other way round. -/
theorem Intact.alone_of_step (parted : s.Parted) (intact : s.Intact) (spares : s.Spares label)
    (next : Step s label t) (thread : ServerThread) (job : Disconnecting)
    (reset : t.pc thread = .reset job) : t.pc (.receive job.client) ≠ .resetting := by
  have lets : (t.pc thread).past = some job.client := by rw [reset, ServerPc.past]
  have before := intact.alone thread job
  have receives := parted.receives job.client
  have past := parted.past thread job.client
  clear intact parted
  cases next with
  | _ =>
    simp only [Spares, SparesFrom, goto, release, stopReceive, takeHandler, Function.update_apply]
      at before reset lets spares ⊢
    grind

theorem Intact.keep (parted : s.Parted) (intact : s.Intact) (spares : s.Spares label)
    (next : Step s label t) : t.Intact :=
  ⟨intact.owned_of_step parted spares next, intact.alone_of_step parted spares next⟩

/-- A client is erased from the map for good. -/
theorem Tally.not_mem_erase (held : s.Held) (tally : s.Tally) {thread : ServerThread} {client : ℕ}
    (disconnect : s.pc thread = .disconnect ⟨client, none⟩) :
    client ∉ s.mapUUIDToClientInfo.erase client := by
  intro member
  have most : s.owed.count client ≤ 1 := by
    have count := tally.count client
    have once : (if client < s.accepted then 1 else 0) ≤ 1 := by split <;> decide
    omega
  have least := List.count_pos_iff.mpr member
  rw [List.count_erase_self] at least
  rw [owed_of_holding held disconnect rfl] at most
  change s.mapUUIDToClientInfo.count client ≤ 1 at most
  omega

/-- A step that does not spare a receive thread leaves it with what is destroyed. -/
theorem Intact.spares (held : s.Held) (tally : s.Tally) (intact : t.Intact)
    (next : Step s label t) : s.Spares label := by
  have owned := intact.owned
  have alone := intact.alone
  clear intact
  cases next with
  | accept | callApplication | callHandler | destroy | lock | lockInsert | insert => trivial
  | disConnect disconnect =>
    have gone := tally.not_mem_erase held disconnect
    simp only [Spares, SparesFrom, Owned, goto, Function.update_apply, disconnect] at owned ⊢
    grind
  | _ =>
    simp only [Spares, SparesFrom, Owned, goto, release, stopReceive, takeHandler,
      Function.update_apply] at owned alone ⊢
    grind

/-- What every run that spares the receive threads keeps. -/
structure Sound (s : Server) : Prop where
  held : s.Held
  tally : s.Tally
  parted : s.Parted
  intact : s.Intact

theorem sound_start : start.Sound := by
  refine ⟨held_start, tally_start, parted_start, ?_, ?_⟩
  · intro client uses
    cases uses
  · intro thread job reset
    cases thread <;> cases reset

theorem Sound.keep (sound : s.Sound) (spares : s.Spares label) (next : s.step label = some t) :
    t.Sound :=
  ⟨sound.held.keep next, sound.tally.keep sound.held next,
    sound.parted.keep sound.held (step_cases next),
    sound.intact.keep sound.parted spares (step_cases next)⟩

/-- At all times nothing that had been destroyed has been in use, if and only if every step spared
the receive threads that had detached themselves. -/
theorem intact_iff_spares :
    Run step (fun s _ => s.Intact) start labels s ∧ s.Intact ↔ Run step Spares start labels s :=
  Run.always_iff_of_invariant sound_start (fun _ _ _ sound => sound.keep)
    (fun _ sound => sound.intact) fun _ _ _ sound next intact =>
      intact.spares sound.held sound.tally (step_cases next)

/-- Whether a thread in a place spares the receive threads, decided. -/
instance (s : Server) (thread : ServerThread) : DecidablePred (s.SparesFrom thread)
  | .stop job => inferInstanceAs (Decidable
      (s.joinable job.client = false → s.pc (.receive job.client) ≠ .resetting))
  | .disconnect ⟨client, none⟩ => inferInstanceAs (Decidable
      ((s.pc (.receive client)).uses = true → thread = .receive client ∨ s.info = some client))
  | .unlock true => inferInstanceAs (Decidable (∀ client ∈ s.mapUUIDToClientInfo,
      (s.pc (.receive client)).uses = true → s.info = some client))
  | .disconnect ⟨_, some _⟩ | .unlock false | .absent | .loop | .polling | .callback | .closing
  | .resetting | .joiningHandler | .wantLock _ | .wantInsert _ | .inserting _ | .joinReceive _
  | .reset _ | .joinHandler _ | .joinListen | .ended => inferInstanceAs (Decidable True)

/-- Whether a step spares the receive threads, decided. -/
instance (s : Server) : DecidablePred s.Spares
  | .check .listen => inferInstanceAs (Decidable (∀ client ∈ s.info,
      (s.pc (.receive client)).uses = true → client ∈ s.mapUUIDToClientInfo))
  | .advance thread => inferInstanceAs (Decidable (s.SparesFrom thread (s.pc thread)))
  | .check (.application _) | .check .destructor | .check (.receive _) | .check (.handler _)
  | .again _ | .callback _ | .returns _ | .close _ | .accept | .call _ _ | .destroy | .lock _
  | .insert _ => inferInstanceAs (Decidable True)

/-- When the listen thread puts no client into the map after the `DisConnectAll` of the
destructor, and nothing is destroyed that is in use, every accepted socket has been released once
when the destructor has joined the listen thread. -/
theorem released_once_of_spared
    (run : Run step (fun s label => s.Timely label ∧ s.Spares label) start labels s) :
    s.Intact ∧ (∀ client, s.released.count client ≤ 1) ∧
      (s.pc .destructor = .ended → ∀ client < s.accepted, s.released.count client = 1) :=
  ⟨(intact_iff_spares.mpr (run.mono fun _ _ => And.right)).2,
    released_once_of_timely (run.mono fun _ _ => And.left)⟩

/-- A thread disconnects a client: it joins both of its threads. -/
def tearDown (thread : ServerThread) (client : ℕ) : List TeardownLabel :=
  [.lock thread, .advance thread, .check (.receive client), .advance thread, .advance thread,
    .check (.handler client), .advance thread, .advance thread, .advance thread]

/-- Two clients connect; the application disconnects one, the destructor the other. -/
theorem released_once_of_two : ∃ s : Server,
    (∀ client < s.accepted, s.released.count client = 1) ∧ s.released = [0, 1] := by
  obtain ⟨s, run, ended⟩ := @exists_run_of_guarded _ _ step
    (fun s label => s.Timely label ∧ s.Spares label)
    (fun s label => s.Timely label ∧ s.Spares label) (fun _ _ => of_decide_eq_true) start
    ([.check .listen, .accept, .lock .listen, .insert "A", .advance .listen,
      .check .listen, .accept, .lock .listen, .insert "B", .advance .listen,
      .call (.application 0) (.disConnect "A")] ++ tearDown (.application 0) 0 ++
      [.destroy] ++ tearDown .destructor 1 ++ [.check .listen, .advance .destructor])
    (fun s => s.pc .destructor = .ended ∧ s.released = [0, 1]) (by decide)
  obtain ⟨exited, released⟩ := of_decide_eq_true ended
  exact ⟨s, (released_once_of_spared run).2.2 exited, released⟩

/-- The peer closes, and the application disconnects the client over its receive thread. -/
example : (exec step start [.check .listen, .accept, .lock .listen, .insert "A", .advance .listen,
    .check .listen, .check (.receive 0), .close 0, .advance (.receive 0), .check (.handler 0),
    .advance (.receive 0), .call (.application 0) (.disConnect "A"), .lock (.application 0),
    .advance (.application 0), .advance (.application 0), .advance (.application 0)]).any
      (fun s => s.pc (.receive 0) = .joiningHandler ∧ s.mapUUIDToClientInfo = [] ∧
        s.info = none) = true := by decide

end Server

end ExLibs.Network
