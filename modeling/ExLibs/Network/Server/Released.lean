/-
# Released sockets

Whoever disconnects a client joins its receive thread and its handler thread before the socket is
released, unless the receive thread has detached itself and taken the handler to destroy it itself.
-/
import ExLibs.Network.Server.Lifetimes

namespace ExLibs.Network

open ExLibs.Math

namespace ServerPc

/-- The client whose handler a thread has found or made to be taken. -/
@[grind]
def taken : ServerPc → Option ℕ
  | .joinHandler job | .disconnect job => some job.client
  | _ => none

/-- The client whose handler thread a thread joins in `DisConnect`. -/
@[grind]
def joining : ServerPc → Option ℕ
  | .joinHandler job => some job.client
  | _ => none

/-- The thread has started and has not ended. -/
@[grind]
def running : ServerPc → Bool
  | .absent | .ended => false
  | _ => true

variable {pc : ServerPc} {client : ℕ}

@[grind →]
theorem running_of_looping (loops : pc.looping = true) : pc.running = true := by
  cases pc <;> first | rfl | cases loops

@[grind →]
theorem past_of_taken (took : pc.taken = some client) : pc.past = some client := by
  cases pc <;> first | exact took | cases took

@[grind →]
theorem taken_of_joining (joins : pc.joining = some client) : pc.taken = some client := by
  cases pc <;> first | exact joins | cases joins

end ServerPc

namespace Server

variable {s t : Server} {label : TeardownLabel} {labels : List TeardownLabel}

/-- The client whose handler thread the holder of the lock joins. -/
@[grind]
def joiner (s : Server) : Option ℕ :=
  match s.lckClientMap with
  | some holder => (s.pc holder).joining
  | none => none

/-- The handler thread of a client is attached to it, or has ended, or somebody joins it. -/
structure Attached (s : Server) : Prop where
  taken : ∀ thread client, (s.pc thread).taken = some client → s.hasHandler client = false
  handles : ∀ client, s.hasHandler client = false → (s.pc (.handler client)).running = true →
    s.pc (.receive client) = .joiningHandler ∨ s.joiner = some client

/-- No thread goes past the handler of a client before it has been taken. -/
theorem Attached.taken_of_step (held : s.Held) (attached : s.Attached) (next : Step s label t)
    (thread : ServerThread) (client : ℕ) (taken : (t.pc thread).taken = some client) :
    t.hasHandler client = false := by
  have before := attached.taken thread client
  have holds := (held thread).mp
  have listens := (held .listen).mp
  clear attached held
  cases next with
  | _ =>
    simp only [goto, release, stopReceive, takeHandler, Function.update_apply] at taken ⊢
    grind

/-- Somebody joins the handler thread of a client whose handler has been taken, until it ends. -/
theorem Attached.handles_of_step (held : s.Held) (attached : s.Attached) (next : Step s label t)
    (client : ℕ) (taken : t.hasHandler client = false)
    (runs : (t.pc (.handler client)).running = true) :
    t.pc (.receive client) = .joiningHandler ∨ t.joiner = some client := by
  have before := attached.handles client
  have holds := fun thread => (held thread).mp
  clear attached held
  cases next with
  | _ =>
    simp only [goto, release, stopReceive, takeHandler, joiner, Function.update_apply]
      at taken runs before ⊢
    grind

theorem Attached.keep (held : s.Held) (attached : s.Attached) (next : Step s label t) :
    t.Attached :=
  ⟨attached.taken_of_step held next, attached.handles_of_step held next⟩

/-- A thread that is not running is not started, unless its client is being put into the map. -/
theorem running_of_step (next : Step s label t) {thread : ServerThread}
    (idle : (s.pc thread).running = false)
    (known : ∀ client, s.pc .listen = .inserting client →
      thread ≠ .receive client ∧ thread ≠ .handler client) : (t.pc thread).running = false := by
  cases next with
  | closed late =>
    simp only [goto, Function.update_apply]
    grind
  | _ =>
    simp only [goto, release, stopReceive, takeHandler, Function.update_apply]
    grind

/-- Nothing reads from a socket that has been released, or handles what came from it. -/
def Quiet (s : Server) : Prop := ∀ client ∈ s.released,
  (s.pc (.receive client)).looping = false ∧ (s.pc (.handler client)).running = false

/-- No socket is released while its receive thread waits for the handler thread to end. -/
def Settles (s : Server) : TeardownLabel → Prop
  | .advance thread => ∀ job, s.pc thread = .disconnect job →
      s.pc (.receive job.client) = .joiningHandler →
        (s.pc (.handler job.client)).running = false
  | _ => True

/-- The clients whose sockets have been released. -/
structure Finished (s : Server) : Prop extends Sound s where
  attached : s.Attached
  detached : ∀ client ∈ s.released, s.joinable client = false
  ended : ∀ client ∈ s.released, (s.pc (.handler client)).running = false

theorem Finished.quiet (finished : s.Finished) : s.Quiet := by
  intro client released
  refine ⟨?_, finished.ended client released⟩
  have apart := finished.parted.receives client (finished.detached client released)
  by_contra loops
  have together := ServerPc.together_of_looping (Bool.eq_true_of_not_eq_false loops)
  exact Bool.false_ne_true (apart.symm.trans together)

/-- A client that is put into the map has not been released. -/
theorem Tally.not_mem_released (tally : s.Tally) {client : ℕ}
    (inserting : s.pc .listen = .inserting client) : client ∉ s.released := by
  intro released
  have count := tally.count client
  rw [inserting] at count
  have least := List.count_pos_iff.mpr released
  simp only [role, pending, List.count_singleton_self] at count
  split at count <;> omega

/-- A socket is released when the handler thread of its client has ended, or is being joined by
the receive thread. -/
theorem Attached.settled (held : s.Held) (attached : s.Attached) {thread : ServerThread}
    {job : Disconnecting} (disconnect : s.pc thread = .disconnect job)
    (runs : (s.pc (.handler job.client)).running = true) :
    s.pc (.receive job.client) = .joiningHandler := by
  have taken := attached.taken thread job.client (by rw [disconnect]; rfl)
  refine (attached.handles job.client taken runs).resolve_right fun joins => ?_
  have holder := (held thread).mp (by rw [disconnect]; rfl)
  simp only [joiner, holder, disconnect] at joins
  cases joins

/-- A socket is released by a thread at its `disconnect`, which goes on under the lock. -/
theorem released_of_step (next : Step s label t) :
    t.released = s.released ∧ (∀ thread, label = .advance thread →
      ∀ job, s.pc thread ≠ .disconnect job) ∨
    ∃ thread job pc, label = .advance thread ∧ s.pc thread = .disconnect job ∧
      pc.running = true ∧ t.pc = Function.update s.pc thread pc ∧
      t.released = s.released ++ [job.client] := by
  cases next with
  | disConnect disconnect | disConnectLast disconnect | disConnectNext disconnect =>
    exact .inr ⟨_, _, _, rfl, disconnect, rfl, rfl, rfl⟩
  | stopAlone before | stopJoin before | joinedReceive before | resetJoin before
  | resetNone before | joinedHandler before | unlock before | detach before | resetSelf before
  | joinedListen before =>
    refine .inl ⟨rfl, fun thread own job disconnect => ?_⟩
    obtain rfl := TeardownLabel.advance.inj own
    exact nomatch before.symm.trans disconnect
  | closed late =>
    refine .inl ⟨rfl, fun thread own job disconnect => ?_⟩
    obtain rfl := TeardownLabel.advance.inj own
    rcases late with ⟨before, -⟩ | ⟨before, -⟩
    · exact nomatch before.symm.trans disconnect
    · exact nomatch before.symm.trans disconnect
  | move loops =>
    refine .inl ⟨rfl, fun thread own => ?_⟩
    rw [own] at loops
    cases loops
  | round | accept | callApplication | callHandler | destroy | lock | lockInsert | insert =>
    exact .inl ⟨rfl, fun _ => nofun⟩

/-- Whether the threads of a client are attached to it changes only when it is put into the map. -/
theorem joinable_of_step (next : Step s label t) {client : ℕ} (detached : s.joinable client = false)
    (known : s.pc .listen ≠ .inserting client) : t.joinable client = false := by
  cases next with
  | @insert other sUUID inserting =>
    have others : client ≠ other := by
      rintro rfl
      exact known inserting
    exact (Function.update_of_ne others ..).trans detached
  | stopAlone | joinedReceive | detach =>
    simp only [goto, release, stopReceive, Function.update_apply]
    split
    · rfl
    · exact detached
  | _ => exact detached

/-- Nobody is put into the map while somebody else is disconnected. -/
theorem Held.not_inserting (held : s.Held) {thread : ServerThread} {job : Disconnecting}
    (disconnect : s.pc thread = .disconnect job) (client : ℕ) :
    s.pc .listen ≠ .inserting client := by
  intro inserting
  have holder := (held thread).mp (by rw [disconnect]; rfl)
  have listens := (held .listen).mp (by rw [inserting]; rfl)
  obtain rfl := Option.some.inj (listens.symm.trans holder)
  exact nomatch inserting.symm.trans disconnect

theorem Finished.step (finished : s.Finished) (settles : s.Settles label) (spares : s.Spares label)
    (next : s.step label = some t) : t.Finished := by
  have sound := finished.toSound.keep spares next
  obtain ⟨⟨held, tally, parted, -⟩, attached, detached, ended⟩ := finished
  have stepped := step_cases next
  -- a socket is released when its client is as one whose socket has been
  have released : ∀ client ∈ t.released, s.joinable client = false ∧
      (s.pc (.handler client)).running = false ∧ s.pc .listen ≠ .inserting client := by
    intro client member
    rcases released_of_step stepped with ⟨same, -⟩ | ⟨thread, job, pc, rfl, disconnect, -, -, grows⟩
    · rw [same] at member
      exact ⟨detached client member, ended client member, fun inserting =>
        tally.not_mem_released inserting member⟩
    · rw [grows] at member
      rcases List.mem_append.mp member with before | now
      · exact ⟨detached client before, ended client before, held.not_inserting disconnect client⟩
      · obtain rfl := List.mem_singleton.mp now
        refine ⟨parted.past thread _ (by rw [disconnect]; rfl), ?_,
          held.not_inserting disconnect _⟩
        by_contra runs
        have joins := attached.settled held disconnect (Bool.not_eq_false _ ▸ runs)
        exact runs (settles job disconnect joins)
  refine ⟨sound, attached.keep held stepped, fun client member => ?_,
    fun client member => ?_⟩
  · obtain ⟨before, -, known⟩ := released client member
    exact joinable_of_step stepped before known
  · obtain ⟨-, before, known⟩ := released client member
    refine running_of_step stepped before fun other inserting => ⟨nofun, ?_⟩
    rintro ⟨⟩
    exact known inserting

theorem finished_start : start.Finished := by
  refine ⟨sound_start, ⟨?_, ?_⟩, nofun, nofun⟩
  · exact fun _ _ _ => rfl
  · intro client _ runs
    cases runs

/-- A step after which nothing handles what came from a released socket has released none that a
handler thread was at work on. -/
theorem Quiet.settles (quiet : t.Quiet) (next : s.step label = some t) : s.Settles label := by
  cases label with
  | advance thread =>
    intro job disconnect _
    rcases released_of_step (step_cases next) with ⟨-, others⟩ |
      ⟨thread', job', pc, own, disconnect', runs, moves, grows⟩
    · exact absurd disconnect (others thread rfl job)
    · obtain rfl := TeardownLabel.advance.inj own
      obtain rfl := ServerPc.disconnect.inj (disconnect'.symm.trans disconnect)
      -- the socket is released now, and this step has not ended the handler thread
      have own : job'.client ∈ t.released :=
        grows ▸ List.mem_append_right _ (List.mem_singleton_self _)
      have idle := (quiet job'.client own).2
      rw [moves, Function.update_apply] at idle
      split at idle
      · exact absurd (idle.symm.trans runs) Bool.false_ne_true
      · exact idle
  | _ => trivial

/-- At all times nothing that had been destroyed has been in use, and nothing has been reading from
a socket that had been released, nor handling what came from it, if and only if nothing was
destroyed over a receive thread at work and no socket was released while its receive thread waited
for the handler thread to end. -/
theorem always_quiet_iff_settles :
    Run step (fun s _ => s.Intact ∧ s.Quiet) start labels s ∧ s.Intact ∧ s.Quiet ↔
      Run step (fun s label => s.Settles label ∧ s.Spares label) start labels s :=
  @Run.always_iff_of_invariant _ _ step (fun s label => s.Settles label ∧ s.Spares label) start s
    labels Finished (fun s => s.Intact ∧ s.Quiet) finished_start
    (fun _ _ _ finished permitted => finished.step permitted.1 permitted.2)
    (fun _ finished => ⟨finished.intact, finished.quiet⟩)
    fun _ _ _ finished next good => ⟨good.2.settles next,
      good.1.spares finished.held finished.tally (step_cases next)⟩

/-- The peer closes, and the application disconnects the client while the handler is at work. -/
example : (exec step start [.check .listen, .accept, .lock .listen, .insert "A", .advance .listen,
    .check (.handler 0), .callback 0, .check (.receive 0), .close 0, .advance (.receive 0),
    .advance (.receive 0), .call (.application 0) (.disConnect "A"), .lock (.application 0),
    .advance (.application 0), .advance (.application 0), .advance (.application 0)]).any
      (fun s => s.released = [0] ∧ s.pc (.handler 0) = .callback) = true := by decide

end Server

end ExLibs.Network
