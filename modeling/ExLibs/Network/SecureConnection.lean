/-
# The sessions of a secure client

A `CTCPSSLClient` makes a context and a session of OpenSSL on the socket of its `CTCPClient`, and
frees both when it disconnects with a session. `Connect` that fails on its way to a session leaves a
context behind that nothing frees, and one that is called with a session drops it. All else is freed
once, together with the sockets.
-/
import ExLibs.Network.Connection

namespace ExLibs.Network

open ExLibs.Math

/-- The pointers of an `SSLSocket` that own something. -/
inductive SecureResource
  | m_pSSL
  | m_pCTXSSL
  deriving DecidableEq

/-- `SSLSocket`, with what has been made and freed. -/
structure SSLSocket where
  /-- It is not null. -/
  m_pSSL : Bool
  m_pCTXSSL : Bool
  ledger : List (Entry SecureResource)

/-- The files that are set. -/
structure SecureFiles where
  m_strCAFile : String := ""
  m_strSSLCertFile : String := ""
  m_strSSLKeyFile : String := ""

/-- How the calls to OpenSSL go in `Connect`, as far as they are made. A session can be made
whenever there is a context. -/
structure SecureOutcomes where
  newContext : Bool
  useCertificate : Bool
  loadVerifyLocations : Bool
  usePrivateKey : Bool
  /-- `SSL_connect`. -/
  handshake : Bool

/-- The files that are set can be loaded. -/
def SecureFiles.loads (files : SecureFiles) (os : SecureOutcomes) : Bool :=
  (files.m_strSSLCertFile.isEmpty || os.useCertificate) &&
    (files.m_strCAFile.isEmpty || os.loadVerifyLocations) &&
      (files.m_strSSLKeyFile.isEmpty || os.usePrivateKey)

namespace SSLSocket

def start : SSLSocket := ⟨false, false, []⟩

def book (sock : SSLSocket) (entries : List (Entry SecureResource)) : SSLSocket :=
  { sock with ledger := sock.ledger ++ entries }

/-- What `Connect` does once there is a connection. -/
def secure (sock : SSLSocket) (files : SecureFiles) (os : SecureOutcomes) : SSLSocket × Bool :=
  -- `SetUpCtxClient`, whatever there is
  if os.newContext = false then ({ sock with m_pCTXSSL := false }, false)
  else
    let sock := { sock.book [.acquire .m_pCTXSSL] with m_pCTXSSL := true }
    -- the context stays
    if files.loads os = false then (sock, false)
    else ({ sock.book [.acquire .m_pSSL] with m_pSSL := true }, os.handshake)

/-- `ShutdownSSL`. `SSL_CTX_free` does nothing with a null pointer. -/
def shutdownSSL (sock : SSLSocket) : SSLSocket :=
  if sock.m_pSSL = false then sock
  else { sock.book (.release .m_pSSL :: if sock.m_pCTXSSL then [.release .m_pCTXSSL] else []) with
    m_pSSL := false }

end SSLSocket

/-- `CTCPSSLClient`. -/
structure CTCPSSLClient where
  m_TCPClient : CTCPClient
  m_SSLConnectSocket : SSLSocket
  files : SecureFiles

namespace CTCPSSLClient

/-- The constructor. -/
def start : CTCPSSLClient := ⟨.start, .start, {}⟩

/-- `Connect`. -/
def connect (platform : Platform) (s : CTCPSSLClient) (tcp : ConnectOutcomes)
    (os : SecureOutcomes) : CTCPSSLClient × Bool :=
  let connected := s.m_TCPClient.connect platform tcp
  let s := { s with m_TCPClient := connected.1 }
  if connected.2 then
    let secured := s.m_SSLConnectSocket.secure s.files os
    ({ s with m_SSLConnectSocket := secured.1 }, secured.2)
  else (s, false)

/-- `Disconnect`. -/
def disconnect (platform : Platform) (s : CTCPSSLClient) (shutdown : Bool) : CTCPSSLClient × Bool :=
  if s.m_TCPClient.m_eStatus ≠ .connected then (s, true)
  else
    let disconnected := s.m_TCPClient.disconnect platform shutdown
    (⟨disconnected.1, s.m_SSLConnectSocket.shutdownSSL, s.files⟩, disconnected.2)

/-- The destructor, and that of the `CTCPClient`. -/
def destroy (platform : Platform) (s : CTCPSSLClient) (shutdown : Bool) : CTCPSSLClient :=
  let s := if s.m_TCPClient.m_eStatus = .connected then
      let s := (s.disconnect platform shutdown).1
      { s with m_TCPClient := (s.m_TCPClient.disconnect platform shutdown).1 }
    else s
  { s with m_TCPClient := s.m_TCPClient.destroy platform shutdown }

/-- A call. -/
inductive Label where
  /-- `SetSSLCerthAuth`, `SetSSLCertFile` and `SetSSLKeyFile`. -/
  | setFiles (files : SecureFiles)
  | connect (tcp : ConnectOutcomes) (os : SecureOutcomes)
  | disconnect (shutdown : Bool)

def step (platform : Platform) (s : CTCPSSLClient) : Label → Option CTCPSSLClient
  | .setFiles files => some { s with files }
  | .connect tcp os => some (s.connect platform tcp os).1
  | .disconnect shutdown => some (s.disconnect platform shutdown).1

/-- What a client is to hold. -/
def held (s : CTCPSSLClient) : Finset SecureResource :=
  if s.m_TCPClient.m_eStatus = .connected ∧ s.m_SSLConnectSocket.m_pSSL = true then
    if s.m_SSLConnectSocket.m_pCTXSSL then {.m_pSSL, .m_pCTXSSL} else {.m_pSSL}
  else ∅

/-- `Connect` is called without a session, and makes one if it makes a context. -/
def Secures (platform : Platform) (s : CTCPSSLClient) : Label → Prop
  | .connect tcp os => s.m_SSLConnectSocket.m_pSSL = false ∧
    ((s.m_TCPClient.connect platform tcp).2 = true → os.newContext = true →
      s.files.loads os = true)
  | _ => True

/-- The calls for the socket succeed. -/
def Closes (s : CTCPSSLClient) : Label → Prop
  | .setFiles _ => True
  | .connect tcp _ => s.m_TCPClient.Closes (.connect tcp)
  | .disconnect shutdown => s.m_TCPClient.Closes (.disconnect shutdown)

/-- The ledger agrees with what is to be held. -/
def Agrees (s : CTCPSSLClient) : Prop := play ∅ s.m_SSLConnectSocket.ledger = some s.held

/-- A session and its context are held, whatever else has been lost. -/
def Keeps (sock : SSLSocket) : Prop := sock.m_pSSL = true →
  ∀ after, play ∅ sock.ledger = some after → .m_pSSL ∈ after ∧ .m_pCTXSSL ∈ after

variable {platform : Platform} {s t : CTCPSSLClient} {sock : SSLSocket} {files : SecureFiles}
  {tcp : ConnectOutcomes} {os : SecureOutcomes} {shutdown : Bool} {label : Label}
  {labels : List Label}

/-- A context cannot be made for a session that has one without loss. -/
theorem play_of_session (keeps : Keeps sock) (session : sock.m_pSSL = true)
    (back : List (Entry SecureResource)) :
    play ∅ (sock.ledger ++ .acquire .m_pCTXSSL :: back) = none := by
  refine Option.eq_none_iff_forall_ne_some.mpr fun after played => ?_
  obtain ⟨before, earlier, played⟩ := Option.bind_eq_some_iff.mp (play_append.symm.trans played)
  rw [play, if_pos (keeps session before earlier).2] at played
  cases played

theorem secure_of_loads (made : os.newContext = true) (loads : files.loads os = true) :
    (sock.secure files os).1 =
      ⟨true, true, sock.ledger ++ [.acquire .m_pCTXSSL, .acquire .m_pSSL]⟩ := by
  simp [SSLSocket.secure, SSLSocket.book, made, loads]

theorem secure_of_not_loads (made : os.newContext = true) (fails : files.loads os = false) :
    (sock.secure files os).1 = ⟨sock.m_pSSL, true, sock.ledger ++ [.acquire .m_pCTXSSL]⟩ := by
  simp [SSLSocket.secure, SSLSocket.book, made, fails]

theorem secure_of_not_made (fails : os.newContext = false) :
    (sock.secure files os).1 = ⟨sock.m_pSSL, false, sock.ledger⟩ := by
  simp [SSLSocket.secure, fails]

theorem keeps_secure (keeps : Keeps sock) : Keeps (sock.secure files os).1 := by
  cases made : os.newContext with
  | false =>
    rw [secure_of_not_made made]
    exact keeps
  | true =>
    cases loads : files.loads os with
    | false =>
      rw [secure_of_not_loads made loads]
      intro session after played
      cases (play_of_session keeps session []).symm.trans played
    | true =>
      rw [secure_of_loads made loads]
      intro _ after played
      obtain ⟨before, -, played⟩ :=
        Option.bind_eq_some_iff.mp (play_append.symm.trans played)
      simp only [play, Option.ite_none_left_eq_some, Option.some.injEq] at played
      obtain ⟨-, -, rfl⟩ := played
      simp

theorem keeps_shutdownSSL : Keeps sock.shutdownSSL := by
  unfold SSLSocket.shutdownSSL
  split
  · next none => exact fun session => absurd (none.symm.trans session) Bool.false_ne_true
  · exact nofun

theorem keeps_of_step (keeps : Keeps s.m_SSLConnectSocket)
    (next : s.step platform label = some t) : Keeps t.m_SSLConnectSocket := by
  cases label with
  | setFiles files => exact Option.some.inj next ▸ keeps
  | connect tcp os =>
    obtain rfl := Option.some.inj next
    unfold connect
    dsimp only
    split
    · exact keeps_secure keeps
    · exact keeps
  | disconnect shutdown =>
    obtain rfl := Option.some.inj next
    unfold disconnect
    split
    · exact keeps
    · exact keeps_shutdownSSL

theorem keeps_of_run (run : Run (step platform) Free start labels s) :
    Keeps s.m_SSLConnectSocket :=
  @Run.invariant _ _ (step platform) Free start s labels (fun s => Keeps s.m_SSLConnectSocket)
    nofun (fun _ _ _ keeps _ next => keeps_of_step keeps next) run

theorem held_of_no_session (none : s.m_SSLConnectSocket.m_pSSL = false) : s.held = ∅ :=
  if_neg fun both => Bool.false_ne_true (none.symm.trans both.2)

theorem held_of_ne (idle : s.m_TCPClient.m_eStatus ≠ .connected) : s.held = ∅ :=
  if_neg fun both => idle both.1

theorem held_of_session (connected : s.m_TCPClient.m_eStatus = .connected)
    (session : s.m_SSLConnectSocket.m_pSSL = true) : s.held =
      if s.m_SSLConnectSocket.m_pCTXSSL then {.m_pSSL, .m_pCTXSSL} else {.m_pSSL} :=
  if_pos ⟨connected, session⟩

/-- What is done with a new connection keeps the ledger in order exactly if there has been no
session, and there is one now or no context. -/
theorem agrees_secure_iff (keeps : Keeps s.m_SSLConnectSocket)
    (connected : t.m_TCPClient.m_eStatus = .connected)
    (secured : t.m_SSLConnectSocket = (s.m_SSLConnectSocket.secure files os).1) :
    t.Agrees ↔ s.Agrees ∧ s.m_SSLConnectSocket.m_pSSL = false ∧
      (os.newContext = true → files.loads os = true) := by
  cases session : s.m_SSLConnectSocket.m_pSSL with
  | true =>
    -- the session that there is loses its context, or is dropped together with it
    refine iff_of_false (fun agrees => ?_) (by simp)
    cases made : os.newContext with
    | false =>
      rw [secure_of_not_made made] at secured
      have held : t.held = {.m_pSSL} := by
        rw [held_of_session connected (by rw [secured]; exact session), secured]
        rfl
      rw [Agrees, secured, held] at agrees
      exact absurd (keeps session _ agrees).2 (by decide)
    | true =>
      rw [Agrees, secured] at agrees
      cases loads : files.loads os with
      | false =>
        rw [secure_of_not_loads made loads] at agrees
        cases (play_of_session keeps session []).symm.trans agrees
      | true =>
        rw [secure_of_loads made loads] at agrees
        cases (play_of_session keeps session [.acquire .m_pSSL]).symm.trans agrees
  | false =>
    rw [Agrees, Agrees, held_of_no_session session, secured]
    cases made : os.newContext with
    | false =>
      rw [secure_of_not_made made] at secured ⊢
      have held : t.held = ∅ := held_of_no_session (by rw [secured]; exact session)
      simp [held]
    | true =>
      cases loads : files.loads os with
      | false =>
        rw [secure_of_not_loads made loads] at secured ⊢
        -- the context that has just been made is to be held by nobody
        have held : t.held = ∅ := held_of_no_session (by rw [secured]; exact session)
        refine iff_of_false (fun agrees => ?_) (by simp)
        obtain ⟨before, -, played⟩ :=
          Option.bind_eq_some_iff.mp (play_append.symm.trans agrees)
        exact Finset.notMem_empty _ (held ▸ mem_of_acquire played)
      | true =>
        rw [secure_of_loads made loads] at secured ⊢
        have held : t.held = {.m_pSSL, .m_pCTXSSL} := by
          rw [held_of_session connected (by rw [secured]), secured]
          rfl
        have hands : play ∅ [.acquire SecureResource.m_pCTXSSL, .acquire .m_pSSL] =
            some {.m_pSSL, .m_pCTXSSL} := by decide
        rw [held]
        exact (play_append_eq_some_iff hands).trans (by simp)

theorem agrees_connect_iff (keeps : Keeps s.m_SSLConnectSocket) :
    (s.connect platform tcp os).1.Agrees ↔ s.Agrees ∧ s.Secures platform (.connect tcp os) := by
  cases connects : (s.m_TCPClient.connect platform tcp).2 with
  | true =>
    have secured : (s.connect platform tcp os).1.m_SSLConnectSocket =
        (s.m_SSLConnectSocket.secure s.files os).1 := by simp [connect, connects]
    have connected : (s.connect platform tcp os).1.m_TCPClient.m_eStatus = .connected := by
      simpa [connect, connects] using CTCPClient.connect_snd_iff.mp connects
    rw [agrees_secure_iff keeps connected secured, Secures, imp_iff_right connects]
  | false =>
    have same : (s.connect platform tcp os).1.m_SSLConnectSocket = s.m_SSLConnectSocket := by
      simp [connect, connects]
    have idle : (s.connect platform tcp os).1.m_TCPClient.m_eStatus ≠ .connected := by
      have fails := mt CTCPClient.connect_snd_iff.mpr (by rw [connects]; exact Bool.false_ne_true)
      simpa [connect, connects] using fails
    rw [Agrees, held_of_ne idle, same, Secures, connects]
    cases session : s.m_SSLConnectSocket.m_pSSL with
    | true =>
      -- the session has lost its connection, without which nothing frees it
      refine iff_of_false (fun agrees => ?_) (by simp)
      exact Finset.notMem_empty _ (keeps session _ agrees).2
    | false =>
      rw [Agrees, held_of_no_session session]
      simp

theorem agrees_disconnect_iff : (s.disconnect platform shutdown).1.Agrees ↔ s.Agrees := by
  by_cases connected : s.m_TCPClient.m_eStatus = .connected
  · have idle : (s.disconnect platform shutdown).1.m_TCPClient.m_eStatus ≠ .connected := by
      rw [disconnect, if_neg (not_not_intro connected)]
      exact CTCPClient.disconnect_m_eStatus
    have shut : (s.disconnect platform shutdown).1.m_SSLConnectSocket =
        s.m_SSLConnectSocket.shutdownSSL := by rw [disconnect, if_neg (not_not_intro connected)]
    rw [Agrees, held_of_ne idle, shut, SSLSocket.shutdownSSL, Agrees]
    cases session : s.m_SSLConnectSocket.m_pSSL with
    | false => rw [held_of_no_session session, if_pos rfl]
    | true =>
      rw [held_of_session connected session, if_neg Bool.true_eq_false.mp]
      refine play_append_eq_some_iff ?_
      cases s.m_SSLConnectSocket.m_pCTXSSL <;> decide
  · rw [disconnect, if_pos connected]

theorem agrees_step_iff (keeps : Keeps s.m_SSLConnectSocket)
    (next : s.step platform label = some t) : t.Agrees ↔ s.Agrees ∧ s.Secures platform label := by
  cases label with
  | setFiles files =>
    obtain rfl := Option.some.inj next
    exact (and_iff_left trivial).symm
  | connect tcp os => exact Option.some.inj next ▸ agrees_connect_iff keeps
  | disconnect shutdown =>
    exact Option.some.inj next ▸ agrees_disconnect_iff.trans (and_iff_left trivial).symm

theorem m_TCPClient_disconnect : (s.disconnect platform shutdown).1.m_TCPClient =
    (s.m_TCPClient.disconnect platform shutdown).1 := by
  by_cases connected : s.m_TCPClient.m_eStatus = .connected
  · rw [disconnect, if_neg (not_not_intro connected)]
  · rw [disconnect, if_pos connected, CTCPClient.disconnect_of_ne connected]

/-- A step is one of the `CTCPClient`, or leaves this as it is. -/
theorem m_TCPClient_of_step (next : s.step platform label = some t) :
    t.m_TCPClient = s.m_TCPClient ∧ s.Closes label ∨
    ∃ call, s.m_TCPClient.step platform call = some t.m_TCPClient ∧
      (s.Closes label ↔ s.m_TCPClient.Closes call) := by
  cases label with
  | setFiles files =>
    obtain rfl := Option.some.inj next
    exact .inl ⟨rfl, trivial⟩
  | connect tcp os =>
    obtain rfl := Option.some.inj next
    refine .inr ⟨.connect tcp, ?_, Iff.rfl⟩
    unfold connect
    dsimp only
    split <;> rfl
  | disconnect shutdown =>
    obtain rfl := Option.some.inj next
    exact .inr ⟨.disconnect shutdown, congrArg _ m_TCPClient_disconnect.symm, Iff.rfl⟩

theorem booked_step_iff (kept : s.m_TCPClient.Kept) (next : s.step platform label = some t) :
    t.m_TCPClient.Booked ↔
      s.m_TCPClient.Booked ∧ (platform = .windows → s.Closes label) := by
  rcases m_TCPClient_of_step next with ⟨same, closes⟩ | ⟨call, calls, closes⟩
  · rw [same]
    exact (and_iff_left fun _ => closes).symm
  · rw [closes]
    exact CTCPClient.booked_step_iff kept calls

theorem kept_of_run (run : Run (step platform) Free start labels s) : s.m_TCPClient.Kept := by
  refine @Run.invariant _ _ (step platform) Free start s labels (fun s => s.m_TCPClient.Kept)
    nofun (fun s label t kept _ next => ?_) run
  rcases m_TCPClient_of_step next with ⟨same, -⟩ | ⟨call, calls, -⟩
  · rw [same]
    exact kept
  · exact CTCPClient.kept_of_step calls

/-- The destructor disconnects once, however often it calls for it. -/
theorem destroy_eq : s.destroy platform shutdown = (s.disconnect platform shutdown).1 := by
  have idle : (s.disconnect platform shutdown).1.m_TCPClient.m_eStatus ≠ .connected := by
    rw [m_TCPClient_disconnect]
    exact CTCPClient.disconnect_m_eStatus
  by_cases connected : s.m_TCPClient.m_eStatus = .connected
  · rw [destroy, if_pos connected]
    dsimp only
    rw [CTCPClient.disconnect_of_ne idle, CTCPClient.destroy, if_neg idle]
  · rw [destroy, if_neg connected, disconnect, if_pos connected, CTCPClient.destroy,
      if_neg connected]

/-- Once its destructor has run, a client has freed each of its contexts and sessions exactly once,
and closed each of its sockets, if and only if it has been connected without a session only, every
context has got a session, and on Windows no call to `shutdown` or to `connect` has failed. -/
theorem settled_destroy_iff_secures (run : Run (step platform) Free start labels s)
    (shutdown : Bool) :
    (Settled (s.destroy platform shutdown).m_SSLConnectSocket.ledger ∧
      Settled (s.destroy platform shutdown).m_TCPClient.ledger) ↔
      Run (step platform)
        (fun s label => s.Secures platform label ∧ (platform = .windows → s.Closes label))
        start labels s ∧ (platform = .windows → s.Closes (.disconnect shutdown)) := by
  have both : s.Agrees ∧ s.m_TCPClient.Booked ↔ Run (step platform)
      (fun s label => s.Secures platform label ∧ (platform = .windows → s.Closes label))
      start labels s := by
    refine @Run.good_iff _ _ (step platform) _ start s labels
      (fun s => s.Agrees ∧ s.m_TCPClient.Booked) ⟨rfl, rfl⟩
      (fun _ s label t earlier next => ?_) run
    rw [agrees_step_iff (keeps_of_run earlier) next, booked_step_iff (kept_of_run earlier) next]
    exact and_and_and_comm
  have ends : Settled (s.destroy platform shutdown).m_SSLConnectSocket.ledger ↔ s.Agrees := by
    have idle : (s.disconnect platform shutdown).1.m_TCPClient.m_eStatus ≠ .connected := by
      rw [m_TCPClient_disconnect]
      exact CTCPClient.disconnect_m_eStatus
    rw [destroy_eq, ← @agrees_disconnect_iff platform s shutdown, Agrees, held_of_ne idle, Settled]
  have ends' : Settled (s.destroy platform shutdown).m_TCPClient.ledger ↔
      s.m_TCPClient.Booked ∧ (platform = .windows → s.Closes (.disconnect shutdown)) := by
    have empty : (s.m_TCPClient.disconnect platform shutdown).1.held = ∅ :=
      if_neg CTCPClient.disconnect_m_eStatus
    refine Iff.trans ?_ (CTCPClient.booked_disconnect_iff (kept_of_run run))
    rw [destroy_eq, m_TCPClient_disconnect, Settled, CTCPClient.Booked, empty]
  rw [ends, ends', ← and_assoc, both]

/-- A client that is connected twice, and disconnected between. -/
theorem settled_destroy_of_again : ∃ s : CTCPSSLClient, s.m_SSLConnectSocket.m_pSSL = true ∧
    Settled (s.destroy .unix true).m_SSLConnectSocket.ledger ∧
      Settled (s.destroy .unix true).m_TCPClient.ledger := by
  let connects : Label := .connect ⟨true, [⟨true, true, true⟩]⟩ ⟨true, true, true, true, true⟩
  let good (s : CTCPSSLClient) (label : Label) : Prop :=
    s.Secures .unix label ∧ (Platform.unix = .windows → s.Closes label)
  have first : Run (step .unix) good start [connects] _ :=
    Run.nil.snoc ⟨⟨rfl, fun _ _ => rfl⟩, nofun⟩ rfl
  have ends : Run (step .unix) good start [connects, .disconnect true] _ :=
    first.snoc ⟨trivial, nofun⟩ rfl
  have second : Run (step .unix) good start [connects, .disconnect true, connects] _ :=
    ends.snoc ⟨⟨rfl, fun _ _ => rfl⟩, nofun⟩ rfl
  exact ⟨_, rfl, (settled_destroy_iff_secures (second.mono fun _ _ _ => trivial) true).mpr
    ⟨second, nofun⟩⟩

end CTCPSSLClient

end ExLibs.Network
