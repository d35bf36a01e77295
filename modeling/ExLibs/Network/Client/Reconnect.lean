/-
# Connecting again

`cNetwork::Connect` opens a connection, which makes the client `CONNECTED`, and then
joins the receive thread of the connection before. That thread ends only when `Receive`
returns zero. As long as it loops it takes up the new connection, and `Connect` waits
for a thread that waits for the new peer.

`Connect` does not get there when, at its join, the previous thread has ended or is in
a `recv` on an earlier connection, and that `recv` makes `Receive` return zero. It gets
there in every other case, unless it never returns.
-/
import ExLibs.Math.Transition
import ExLibs.Network.Receive

namespace ExLibs.Network

open ExLibs.Math

/-- Where the application is. A connection is named by the socket it was opened with. -/
inductive ConnectPc
  | idle
  /-- `CTCPClient::Disconnect` is to close the socket; `Connect` goes on from there. -/
  | disconnecting (connects : Bool)
  | opening
  | connecting (socket : ℕ)
  /-- It joins the receive thread of the connection before. -/
  | joining (socket : ℕ)
  deriving DecidableEq

/-- Where the receive thread of a client is. -/
inductive ClientReceivePc
  | absent
  | loop
  /-- `Receive` has found the client connected and comes to a `recv`. -/
  | reading (r : Reader)
  /-- It is in a `recv` on a socket, which may be `INVALID_SOCKET`. -/
  | waiting (r : Reader) (socket : Option ℕ)
  | handling
  | ended

/-- A `cNetwork` of type `NETWORK_CLIENT`: its application, its receive thread and the
state of its `CTCPClient`. -/
structure NetworkClient where
  application : ConnectPc
  receiveThread : ClientReceivePc
  m_eStatus : SocketStatus
  m_ConnectSocket : Option ℕ
  opened : ℕ

/-- A step of the application or of the receive thread. -/
inductive ReconnectLabel
  | connect
  | disConnect
  /-- `shutdown` on the socket succeeds or fails. -/
  | shutdown (succeeds : Bool)
  /-- `socket` creates a socket. -/
  | socket
  /-- No address, or no further one. -/
  | giveUp
  /-- `socket` fails. -/
  | noSocket
  | connectFailed
  | connected
  /-- The join is over, and a new receive thread starts. -/
  | spawn
  /-- The receive thread calls `Receive`. -/
  | receive
  /-- It calls `recv`. -/
  | recv
  | result (res : RecvResult)
  | handled

namespace NetworkClient

/-- A client before its first `Connect`. -/
def start : NetworkClient where
  application := .idle
  receiveThread := .absent
  m_eStatus := .disconnected
  m_ConnectSocket := none
  opened := 0

/-- Where the receive thread goes on after a `recv`; nothing is said of what follows a
store outside of the buffer. -/
def resumed : Progress → Option ClientReceivePc
  | .more r => some (.reading r)
  | .ret n _ => some (if 0 < n then .handling else if n = 0 then .ended else .loop)
  | .overrun => none

/-- One step, if the label is enabled. -/
def step (s : NetworkClient) : ReconnectLabel → Option NetworkClient
  | .connect =>
    match s.application, s.m_eStatus with
    | .idle, .connected =>
      some { s with application := .disconnecting true, m_eStatus := .disconnected }
    | .idle, .disconnected => some { s with application := .opening }
    | _, _ => none
  | .disConnect =>
    match s.application, s.m_eStatus with
    | .idle, .connected =>
      some { s with application := .disconnecting false, m_eStatus := .disconnected }
    -- a client that is not connected has nothing to do
    | .idle, .disconnected => some s
    | _, _ => none
  | .shutdown succeeds =>
    match s.application with
    | .disconnecting connects => some { s with
        application := if connects then .opening else .idle
        -- the socket stays open when `shutdown` fails
        m_ConnectSocket := if succeeds then none else s.m_ConnectSocket }
    | _ => none
  | .socket =>
    match s.application with
    | .opening => some { s with
        application := .connecting s.opened
        m_ConnectSocket := some s.opened
        opened := s.opened + 1 }
    | _ => none
  | .giveUp =>
    match s.application with
    | .opening => some { s with application := .idle }
    | _ => none
  | .noSocket =>
    match s.application with
    | .opening => some { s with m_ConnectSocket := none }
    | _ => none
  | .connectFailed =>
    match s.application with
    -- the next address, if there is one
    | .connecting _ => some { s with application := .opening }
    | _ => none
  | .connected =>
    match s.application with
    | .connecting socket =>
      some { s with application := .joining socket, m_eStatus := .connected }
    | _ => none
  | .spawn =>
    match s.application, s.receiveThread with
    | .joining _, .absent | .joining _, .ended =>
      some { s with application := .idle, receiveThread := .loop }
    | _, _ => none
  | .receive =>
    match s.receiveThread, s.m_eStatus with
    | .loop, .connected =>
      some { s with receiveThread := .reading (.start (List.replicate extPacketSize 0)) }
    -- `Receive` returns -1 at once, and the loop comes round
    | .loop, .disconnected => some s
    | _, _ => none
  | .recv =>
    match s.receiveThread with
    -- each `recv` reads the socket anew
    | .reading r => some { s with receiveThread := .waiting r s.m_ConnectSocket }
    | _ => none
  | .result res =>
    match s.receiveThread with
    | .waiting r socket =>
      if r.len < res.bytes.length ∨ socket = none ∧ res ≠ .failed then none
      else
        match resumed (r.resume true res) with
        | some pc => some { s with receiveThread := pc }
        | none => none
    | _ => none
  | .handled =>
    match s.receiveThread with
    | .handling => some { s with receiveThread := .loop }
    | _ => none

/-- `Connect` joins a thread that is in a `recv` on the connection it has just opened. -/
def Hanging (s : NetworkClient) : Prop :=
  ∃ socket r, s.application = .joining socket ∧ s.receiveThread = .waiting r (some socket)

/-- The thread has ended, or is in a `recv` on another connection. -/
def settled (socket : ℕ) : ClientReceivePc → Prop
  | .absent | .ended => True
  | .waiting _ other => other ≠ some socket
  | .loop | .reading _ | .handling => False

/-- `Connect` comes to its join when the previous thread has ended or is in a `recv` on
an earlier connection, and while it joins that `recv` makes `Receive` return zero. -/
def Prompt (s : NetworkClient) : ReconnectLabel → Prop
  | .connected => ∀ socket, s.application = .connecting socket → settled socket s.receiveThread
  | .result res => ∀ socket r other, s.application = .joining socket →
      s.receiveThread = .waiting r other → ∃ pData, r.resume true res = .ret 0 pData
  | _ => True

variable {s t : NetworkClient} {label : ReconnectLabel}

/-- `Connect` and the client agree on the connection, which is `CONNECTED` at the join. -/
structure Wired (s : NetworkClient) : Prop where
  connecting : ∀ socket, s.application = .connecting socket → s.m_ConnectSocket = some socket
  joining : ∀ socket, s.application = .joining socket →
    s.m_ConnectSocket = some socket ∧ s.m_eStatus = .connected

theorem Wired.keep (wired : s.Wired) (next : s.step label = some t) : t.Wired := by
  have connecting := wired.connecting
  have joining := wired.joining
  constructor <;> cases label <;> simp only [step] at next <;> grind

/-- A join that cannot hang. -/
def Safe (s : NetworkClient) : Prop :=
  ∀ socket, s.application = .joining socket → settled socket s.receiveThread

/-- While `Connect` joins, a prompt `recv` ends the thread. -/
theorem ended_of_resumed {r : Reader} {res : RecvResult} {pData : List Byte} {pc : ClientReceivePc}
    (zero : r.resume true res = .ret 0 pData)
    (next : resumed (r.resume true res) = some pc) : pc = .ended := by
  rw [zero] at next
  exact (Option.some.inj next).symm

theorem Safe.keep (safe : s.Safe) (prompt : s.Prompt label) (next : s.step label = some t) :
    t.Safe := by
  intro socket joining
  have safe := safe socket
  cases label with
  | connected =>
    simp only [step, Prompt] at next prompt
    grind
  | result res =>
    simp only [step, Prompt] at next prompt
    have ended := @ended_of_resumed
    grind [settled]
  | _ =>
    simp only [step] at next
    grind [settled]

/-- While `Connect` joins, the thread is on its way to a `recv` on the new connection, or
in it. -/
def Doomed (s : NetworkClient) : Prop :=
  ∃ socket, s.application = .joining socket ∧ ¬ settled socket s.receiveThread

theorem settled_of_resumed {r : Reader} {res : RecvResult} {pc : ClientReceivePc} {socket : ℕ}
    (next : resumed (r.resume true res) = some pc) (settles : settled socket pc) :
    ∃ pData, r.resume true res = .ret 0 pData := by
  cases resumes : r.resume true res with
  | more r' =>
    rw [resumes] at next
    obtain rfl := Option.some.inj next
    exact settles.elim
  | ret n pData =>
    rw [resumes] at next
    obtain rfl := Option.some.inj next
    -- any other return value leaves the thread in its loop
    have zero : n = 0 := by
      by_contra nonzero
      rw [if_neg nonzero] at settles
      split at settles <;> exact settles
    exact ⟨pData, by rw [zero]⟩
  | overrun =>
    rw [resumes] at next
    cases next

/-- A step that is not prompt leads to such a join. -/
theorem doomed_of_not_prompt (late : ¬ s.Prompt label) (next : s.step label = some t) :
    t.Doomed := by
  cases label with
  | connected =>
    simp only [Prompt, not_forall] at late
    obtain ⟨socket, connecting, unsettled⟩ := late
    simp only [step, connecting] at next
    obtain rfl := Option.some.inj next
    exact ⟨socket, rfl, unsettled⟩
  | result res =>
    simp only [Prompt, not_forall] at late
    obtain ⟨socket, r, other, joining, waiting, nonzero⟩ := late
    simp only [step, waiting] at next
    split_ifs at next
    split at next
    · rename_i pc resumes
      obtain rfl := Option.some.inj next
      exact ⟨socket, joining, fun settles => nonzero (settled_of_resumed resumes settles)⟩
    · cases next
  | _ => exact absurd trivial late

/-- There is no way out of such a join but through the `recv`. -/
theorem Doomed.keep (wired : s.Wired) (doomed : s.Doomed) (free : ¬ s.Hanging)
    (next : s.step label = some t) : t.Doomed := by
  obtain ⟨socket, joining, unsettled⟩ := doomed
  obtain ⟨socketed, connected⟩ := wired.joining socket joining
  refine ⟨socket, ?_⟩
  cases pc : s.receiveThread with
  | absent | ended =>
    rw [pc] at unsettled
    exact absurd trivial unsettled
  | waiting r other =>
    rw [pc, settled, not_not] at unsettled
    exact absurd ⟨socket, r, joining, by rw [pc, unsettled]⟩ free
  | loop => cases label <;> simp only [step] at next <;> grind [settled]
  | reading r => cases label <;> simp only [step] at next <;> grind [settled]
  | handling => cases label <;> simp only [step] at next <;> grind [settled]

/-- No condition but that no state left behind was one in which `Connect` hangs. -/
def Calm (s : NetworkClient) : ReconnectLabel → Prop := fun _ => ¬ s.Hanging

theorem wired_start : start.Wired := ⟨nofun, nofun⟩

theorem wired_of_run {labels : List ReconnectLabel} (run : Run step Free start labels s) :
    s.Wired :=
  run.invariant wired_start fun _ _ _ wired _ next => wired.keep next

theorem Safe.not_hanging (safe : s.Safe) : ¬ s.Hanging := by
  rintro ⟨socket, r, joining, waiting⟩
  have settles := safe socket joining
  rw [waiting] at settles
  exact settles rfl

/-- A run in which `Connect` has never hung so far was prompt, or is about to hang. -/
theorem prompt_or_doomed {labels : List ReconnectLabel} (run : Run step Calm start labels s) :
    Run step Prompt start labels s ∨ s.Doomed := by
  induction run with
  | nil => exact .inl .nil
  | @snoc labels s t label earlier calm next ih =>
    rcases ih with prompt | doomed
    · by_cases onTime : s.Prompt label
      · exact .inl (.snoc prompt onTime next)
      · exact .inr (doomed_of_not_prompt onTime next)
    · exact .inr (doomed.keep (wired_of_run earlier.free) calm next)

theorem safe_start : start.Safe := nofun

/-- What a prompt run keeps. -/
theorem safe_of_run {labels : List ReconnectLabel} (run : Run step Prompt start labels s) :
    s.Safe :=
  run.invariant safe_start fun _ _ _ safe prompt next => safe.keep prompt next

/-- A run whose last `Connect` has returned was prompt exactly if it never hung. -/
theorem calm_iff_prompt {labels : List ReconnectLabel}
    (returned : ∀ socket, s.application ≠ .joining socket) :
    Run step Calm start labels s ↔ Run step Prompt start labels s := by
  constructor
  · intro calm
    refine (prompt_or_doomed calm).resolve_right ?_
    rintro ⟨socket, joining, -⟩
    exact returned socket joining
  · intro prompt
    clear returned
    induction prompt with
    | nil => exact .nil
    | snoc earlier _ next ih => exact .snoc ih (safe_of_run earlier).not_hanging next

/-- In a prompt run `Connect` never waits for a thread that reads from the connection it
has just opened. -/
theorem not_hanging_of_prompt {labels : List ReconnectLabel}
    (run : Run step Prompt start labels s) : ¬ s.Hanging :=
  (safe_of_run run).not_hanging

/-- Whether a step is prompt, decided. -/
def isPrompt (s : NetworkClient) : ReconnectLabel → Bool
  | .connected =>
    match s.application, s.receiveThread with
    | .connecting _, .absent | .connecting _, .ended => true
    | .connecting socket, .waiting _ other => other ≠ some socket
    | _, _ => false
  | .result res =>
    match s.application, s.receiveThread with
    | .joining _, .waiting r _ =>
      match r.resume true res with
      | .ret n _ => n = 0
      | .more _ | .overrun => false
    | _, _ => true
  | _ => true

theorem prompt_of_isPrompt (s : NetworkClient) (label : ReconnectLabel)
    (decided : s.isPrompt label = true) : s.Prompt label := by
  unfold isPrompt at decided
  unfold Prompt
  split at decided <;> grind [settled]

/-- The steps of a `Connect` that comes to its join. -/
def join : List ReconnectLabel := [.connect, .socket, .connected]

/-- The steps of a `Connect` of a connected client. -/
def joinAgain : List ReconnectLabel := [.connect, .shutdown true, .socket, .connected]

/-- A client connects again while its receive thread is in a `recv`, which then reports
that the previous peer has closed. -/
theorem not_hanging_of_close : ∃ s : NetworkClient, ¬ s.Hanging ∧
    s.application = .joining 1 ∧ s.opened = 2 := by
  obtain ⟨s, run, ended⟩ := @exists_run_of_guarded _ _ step Prompt isPrompt
    prompt_of_isPrompt start
    (join ++ [.spawn, .receive, .recv] ++ joinAgain ++ [.result (.data [])])
    (fun s => s.application = .joining 1 ∧ s.opened = 2) (by decide)
  exact ⟨s, not_hanging_of_prompt run, of_decide_eq_true ended⟩

/-- A client disconnects, which leaves its receive thread looping, and connects again. -/
theorem hanging_on_reconnect : ∃ s : NetworkClient,
    Run step Free start
      (join ++ [.spawn, .disConnect, .shutdown true, .receive] ++ join ++ [.receive, .recv]) s ∧
      s.Hanging := by
  obtain ⟨s, run, ended⟩ := @exists_run_of_exec _ _ step start
    (join ++ [.spawn, .disConnect, .shutdown true, .receive] ++ join ++ [.receive, .recv])
    (fun s => match s.application, s.receiveThread with
      | .joining socket, .waiting _ other => other = some socket
      | _, _ => false) (by decide)
  refine ⟨s, run, ?_⟩
  split at ended
  · rename_i socket r other joining waiting
    obtain rfl := of_decide_eq_true ended
    exact ⟨socket, r, joining, waiting⟩
  · cases ended

end NetworkClient

end ExLibs.Network
