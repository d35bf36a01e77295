/-
# The socket of a client

What `CTCPClient` opens and closes over a run of `Connect` and `Disconnect` that its destructor
ends, whatever the calls to the system come to. The class closes its socket only while it is
`CONNECTED`. On Unix that is as long as the socket is open. On Windows a socket whose `connect`
fails is left open, and so is one whose `shutdown` fails, as the client is not `CONNECTED` then.
-/
import ExLibs.Network.Listener
import ExLibs.Network.Receive

namespace ExLibs.Network

open ExLibs.Math

/-- How the calls to the system go for one address. -/
structure AddressOutcomes where
  socket : Bool
  /-- It is called on Windows only. -/
  setsockopt : Bool
  connect : Bool
  deriving DecidableEq

/-- How they go in `Connect`, as far as they are made. -/
structure ConnectOutcomes where
  /-- `Disconnect` calls it, if there is a connection. -/
  shutdown : Bool
  /-- What `getaddrinfo` gives, which is nothing if it fails. -/
  addresses : List AddressOutcomes
  deriving DecidableEq

/-- What a client holds, by the variable that holds it. -/
inductive ClientResource where
  | m_ConnectSocket
  | m_pResultAddrInfo
  deriving DecidableEq

/-- `CTCPClient`, with what it has done. -/
structure CTCPClient where
  m_eStatus : SocketStatus
  ledger : List (Entry ClientResource)
  deriving DecidableEq

namespace CTCPClient

/-- The constructor. -/
def start : CTCPClient := ⟨.disconnected, []⟩

def book (s : CTCPClient) (entries : List (Entry ClientResource)) : CTCPClient :=
  { s with ledger := s.ledger ++ entries }

/-- `Disconnect`. -/
def disconnect (platform : Platform) (s : CTCPClient) (shutdown : Bool) : CTCPClient × Bool :=
  if s.m_eStatus ≠ .connected then (s, true)
  else
    let s := { s with m_eStatus := .disconnected }
    match platform with
    | .windows =>
      if shutdown = false then (s, false) else (s.book [.release .m_ConnectSocket], true)
    | .unix => (s.book [.release .m_ConnectSocket], true)

/-- `Connect` on Windows, with the first of the addresses. -/
def connectWindows (s : CTCPClient) (os : AddressOutcomes) : CTCPClient × Bool :=
  let s := s.book [.acquire .m_pResultAddrInfo]
  if os.socket = false then (s.book [.release .m_pResultAddrInfo], false)
  else
    let s := s.book [.acquire .m_ConnectSocket]
    if os.setsockopt = false then
      (s.book [.release .m_ConnectSocket, .release .m_pResultAddrInfo], false)
    else
      let s := s.book [.release .m_pResultAddrInfo]
      -- a socket that is not connected is left open
      if os.connect then ({ s with m_eStatus := .connected }, true) else (s, false)

/-- The loop of `Connect` on Unix. -/
def tryAddresses (s : CTCPClient) : List AddressOutcomes → CTCPClient × Bool
  | [] => (s.book [.release .m_pResultAddrInfo], false)
  | os :: others =>
    if os.socket = false then s.tryAddresses others
    else
      let s := s.book [.acquire .m_ConnectSocket]
      if os.connect then
        ({ s.book [.release .m_pResultAddrInfo] with m_eStatus := .connected }, true)
      else (s.book [.release .m_ConnectSocket]).tryAddresses others

/-- What `Connect` does with the addresses. -/
def connectTo (platform : Platform) (s : CTCPClient) : List AddressOutcomes → CTCPClient × Bool
  | [] => (s, false)
  | first :: others =>
    match platform with
    | .windows => s.connectWindows first
    | .unix => (s.book [.acquire .m_pResultAddrInfo]).tryAddresses (first :: others)

/-- `Connect`, which ends the connection before. -/
def connect (platform : Platform) (s : CTCPClient) (os : ConnectOutcomes) : CTCPClient × Bool :=
  let s := if s.m_eStatus = .connected then (s.disconnect platform os.shutdown).1 else s
  s.connectTo platform os.addresses

/-- The destructor. -/
def destroy (platform : Platform) (s : CTCPClient) (shutdown : Bool) : CTCPClient :=
  if s.m_eStatus = .connected then (s.disconnect platform shutdown).1 else s

/-- A call. -/
inductive Label where
  | connect (os : ConnectOutcomes)
  | disconnect (shutdown : Bool)

def step (platform : Platform) (s : CTCPClient) : Label → Option CTCPClient
  | .connect os => some (s.connect platform os).1
  | .disconnect shutdown => some (s.disconnect platform shutdown).1

/-- What a client is to hold. -/
def held (s : CTCPClient) : Finset ClientResource :=
  if s.m_eStatus = .connected then {.m_ConnectSocket} else ∅

/-- The socket that is made for the first address is connected to it. -/
def Connects (addresses : List AddressOutcomes) : Prop := ∀ first ∈ addresses.head?,
  first.socket = true → first.setsockopt = true → first.connect = true

/-- No call to `shutdown` fails, and none to `connect`. -/
def Closes (s : CTCPClient) : Label → Prop
  | .connect os => (s.m_eStatus = .connected → os.shutdown = true) ∧ Connects os.addresses
  | .disconnect shutdown => s.m_eStatus = .connected → shutdown = true

/-- The ledger agrees with what is to be held. -/
def Booked (s : CTCPClient) : Prop := play ∅ s.ledger = some s.held

/-- How the entries of a connection end. -/
def opening : List (Entry ClientResource) :=
  [.acquire .m_ConnectSocket, .release .m_pResultAddrInfo]

/-- The entries of a connection come last. -/
def Opened (s : CTCPClient) : Prop := ∃ front, s.ledger = front ++ opening

/-- A connection has its socket. -/
def Kept (s : CTCPClient) : Prop := s.m_eStatus = .connected → s.Opened

variable {platform : Platform} {s t : CTCPClient} {shutdown : Bool} {os : ConnectOutcomes}
  {addresses : List AddressOutcomes} {labels : List Label} {label : Label}
  {entries front : List (Entry ClientResource)}

/-- Entries that hand on what is to be held keep the agreement, and do not mend it. -/
theorem booked_iff_of_play (grows : t.ledger = s.ledger ++ entries)
    (plays : play s.held entries = some t.held) : t.Booked ↔ s.Booked := by
  rw [Booked, Booked, grows]
  exact play_append_eq_some_iff plays

/-- The socket of a connection is held, whatever else has been lost. -/
theorem mem_of_play {before after : Finset ClientResource}
    (played : play before (front ++ opening) = some after) : .m_ConnectSocket ∈ after := by
  obtain ⟨between, -, played⟩ := Option.bind_eq_some_iff.mp (play_append.symm.trans played)
  simp only [opening, play, Option.ite_none_left_eq_some, Option.ite_none_right_eq_some,
    Option.some.injEq] at played
  obtain ⟨-, -, rfl⟩ := played
  exact Finset.mem_erase_of_ne_of_mem (by decide) (Finset.mem_insert_self ..)

/-- A socket that is open and not to be held is lost. -/
theorem not_booked_of_opened (opened : s.Opened) (free : s.m_eStatus ≠ .connected) :
    ¬ s.Booked := by
  intro agrees
  obtain ⟨front, ends⟩ := opened
  rw [Booked, ends, held, if_neg free] at agrees
  exact Finset.notMem_empty _ (mem_of_play agrees)

section Disconnect

theorem disconnect_of_ne (idle : s.m_eStatus ≠ .connected) :
    (s.disconnect platform shutdown).1 = s := by
  rw [disconnect, if_pos idle]

theorem disconnect_m_eStatus : (s.disconnect platform shutdown).1.m_eStatus ≠ .connected := by
  by_cases connected : s.m_eStatus = .connected
  · rw [disconnect, if_neg (not_not_intro connected)]
    cases platform with
    | windows =>
      dsimp only
      split <;> exact nofun
    | unix => exact nofun
  · rwa [disconnect_of_ne connected]

/-- `Disconnect` closes the socket, unless `shutdown` fails. -/
theorem booked_disconnect_iff (kept : s.Kept) :
    (s.disconnect platform shutdown).1.Booked ↔
      s.Booked ∧ (platform = .windows → s.m_eStatus = .connected → shutdown = true) := by
  by_cases connected : s.m_eStatus = .connected
  · have closes : (({ s with m_eStatus := .disconnected } : CTCPClient).book
        [.release .m_ConnectSocket]).Booked ↔ s.Booked := by
      refine booked_iff_of_play rfl ?_
      rw [held, if_pos connected]
      rfl
    rw [disconnect, if_neg (not_not_intro connected)]
    cases platform with
    | windows =>
      cases shutdown with
      | true => simp [closes]
      | false =>
        -- the client is no longer `CONNECTED`, and its socket is open
        have lost : ¬ ({ s with m_eStatus := .disconnected } : CTCPClient).Booked :=
          not_booked_of_opened (kept connected) nofun
        simp [lost, connected]
    | unix => simp [closes]
  · rw [disconnect_of_ne connected]
    simp [connected]

end Disconnect

section Connect

theorem booked_connectWindows_iff {first : AddressOutcomes} (idle : s.m_eStatus ≠ .connected) :
    (s.connectWindows first).1.Booked ↔
      s.Booked ∧ (first.socket = true → first.setsockopt = true → first.connect = true) := by
  have empty : s.held = ∅ := if_neg idle
  have closed (entries : List (Entry ClientResource)) (plays : play ∅ entries = some ∅) :
      (s.book entries).Booked ↔ s.Booked :=
    booked_iff_of_play rfl (by rw [empty, plays]; exact congrArg some empty.symm)
  have book_book (front back : List (Entry ClientResource)) :
      (s.book front).book back = s.book (front ++ back) := by simp [book]
  unfold connectWindows
  cases first.socket with
  | false =>
    simpa [book_book] using closed [.acquire .m_pResultAddrInfo, .release .m_pResultAddrInfo] rfl
  | true =>
    cases first.setsockopt with
    | false =>
      simpa [book_book] using closed [.acquire .m_pResultAddrInfo, .acquire .m_ConnectSocket,
        .release .m_ConnectSocket, .release .m_pResultAddrInfo] rfl
    | true =>
      let entries : List (Entry ClientResource) := [.acquire .m_pResultAddrInfo,
        .acquire .m_ConnectSocket, .release .m_pResultAddrInfo]
      cases first.connect with
      | false =>
        have opened : (s.book entries).Opened :=
          ⟨s.ledger ++ [.acquire .m_pResultAddrInfo], by simp [book, opening, entries]⟩
        -- the socket is open, and the client has not become `CONNECTED`
        have lost : ¬ (s.book entries).Booked := not_booked_of_opened opened idle
        simpa [book_book] using lost
      | true =>
        have kept : ({ s.book entries with m_eStatus := .connected } : CTCPClient).Booked ↔
            s.Booked := booked_iff_of_play rfl (by rw [empty]; rfl)
        simpa [book_book] using kept

theorem opened_connectWindows {first : AddressOutcomes} (idle : s.m_eStatus ≠ .connected)
    (connected : (s.connectWindows first).1.m_eStatus = .connected) :
    (s.connectWindows first).1.Opened := by
  revert connected
  unfold connectWindows
  cases first.socket with
  | false => exact fun connected => absurd connected idle
  | true =>
    cases first.setsockopt with
    | false => exact fun connected => absurd connected idle
    | true =>
      cases first.connect with
      | false => exact fun connected => absurd connected idle
      | true => exact fun _ => ⟨s.ledger ++ [.acquire .m_pResultAddrInfo], by simp [book, opening]⟩

/-- What the loop has opened it closes, but for the socket of a connection. -/
theorem exists_tryAddresses (idle : s.m_eStatus ≠ .connected) : ∃ entries,
    (s.tryAddresses addresses).1.ledger = s.ledger ++ entries ∧
      play {.m_pResultAddrInfo} entries = some (s.tryAddresses addresses).1.held := by
  induction addresses generalizing s with
  | nil =>
    have empty : (s.tryAddresses []).1.held = ∅ := if_neg idle
    refine ⟨[.release .m_pResultAddrInfo], rfl, ?_⟩
    rw [empty]
    rfl
  | cons os others ih =>
    rw [tryAddresses]
    split
    · exact ih idle
    · split
      · exact ⟨_, List.append_assoc .., rfl⟩
      · obtain ⟨entries, grows, plays⟩ := ih (s := (s.book [.acquire .m_ConnectSocket]).book
          [.release .m_ConnectSocket]) idle
        refine ⟨[.acquire .m_ConnectSocket, .release .m_ConnectSocket] ++ entries, ?_, ?_⟩
        · rw [grows]
          simp [book]
        · rw [play_append]
          exact plays

theorem opened_tryAddresses (idle : s.m_eStatus ≠ .connected)
    (connected : (s.tryAddresses addresses).1.m_eStatus = .connected) :
    (s.tryAddresses addresses).1.Opened := by
  induction addresses generalizing s with
  | nil => exact absurd connected idle
  | cons os others ih =>
    rw [tryAddresses] at connected ⊢
    split at connected
    · next fails =>
      rw [if_pos fails]
      exact ih idle connected
    · next succeeds =>
      rw [if_neg succeeds]
      split at connected
      · next connects =>
        rw [if_pos connects]
        exact ⟨s.ledger, List.append_assoc ..⟩
      · next fails =>
        rw [if_neg fails]
        exact ih idle connected

/-- An attempt to connect closes what it has opened, unless `connect` fails on Windows. -/
theorem booked_connectTo_iff (idle : s.m_eStatus ≠ .connected) :
    (s.connectTo platform addresses).1.Booked ↔
      s.Booked ∧ (platform = .windows → Connects addresses) := by
  cases addresses with
  | nil => simp [connectTo, Connects]
  | cons first others =>
    cases platform with
    | windows =>
      rw [connectTo, booked_connectWindows_iff idle]
      simp [Connects]
    | unix =>
      have still : (s.book [.acquire .m_pResultAddrInfo]).m_eStatus ≠ .connected := idle
      obtain ⟨entries, grows, plays⟩ := @exists_tryAddresses _ (first :: others) still
      have empty : s.held = ∅ := if_neg idle
      have kept : (s.connectTo .unix (first :: others)).1.Booked ↔ s.Booked :=
        booked_iff_of_play (grows.trans (List.append_assoc ..)) (by rw [empty]; exact plays)
      simp [kept, Connects]

theorem opened_connectTo (idle : s.m_eStatus ≠ .connected)
    (connected : (s.connectTo platform addresses).1.m_eStatus = .connected) :
    (s.connectTo platform addresses).1.Opened := by
  cases addresses with
  | nil => exact absurd connected idle
  | cons first others =>
    cases platform with
    | windows => exact opened_connectWindows idle connected
    | unix => exact opened_tryAddresses (s := s.book [.acquire .m_pResultAddrInfo]) idle connected

theorem connect_eq : s.connect platform os =
    ((s.disconnect platform os.shutdown).1).connectTo platform os.addresses := by
  rw [connect]
  by_cases connected : s.m_eStatus = .connected
  · rw [if_pos connected]
  · rw [if_neg connected, disconnect_of_ne connected]

/-- `Connect` returns whether there is a connection. -/
theorem connectWindows_snd_iff {first : AddressOutcomes} (idle : s.m_eStatus ≠ .connected) :
    (s.connectWindows first).2 = true ↔ (s.connectWindows first).1.m_eStatus = .connected := by
  unfold connectWindows
  cases first.socket with
  | false => simpa [book] using idle
  | true =>
    cases first.setsockopt with
    | false => simpa [book] using idle
    | true =>
      cases first.connect with
      | false => simpa [book] using idle
      | true => simp

theorem tryAddresses_snd_iff (idle : s.m_eStatus ≠ .connected) :
    (s.tryAddresses addresses).2 = true ↔
      (s.tryAddresses addresses).1.m_eStatus = .connected := by
  induction addresses generalizing s with
  | nil => simpa [tryAddresses, book] using idle
  | cons os others ih =>
    rw [tryAddresses]
    split
    · exact ih idle
    · split
      · exact iff_of_true rfl rfl
      · exact ih idle

theorem connect_snd_iff :
    (s.connect platform os).2 = true ↔ (s.connect platform os).1.m_eStatus = .connected := by
  rw [connect_eq]
  have idle : (s.disconnect platform os.shutdown).1.m_eStatus ≠ .connected :=
    disconnect_m_eStatus
  cases os.addresses with
  | nil => exact iff_of_false Bool.false_ne_true idle
  | cons first others =>
    cases platform with
    | windows => exact connectWindows_snd_iff idle
    | unix => exact tryAddresses_snd_iff idle

end Connect

/-- A step keeps the books exactly if its calls to the system succeed. -/
theorem booked_step_iff (kept : s.Kept) (next : s.step platform label = some t) :
    t.Booked ↔ s.Booked ∧ (platform = .windows → s.Closes label) := by
  cases label with
  | connect os =>
    obtain rfl := Option.some.inj next
    rw [connect_eq, booked_connectTo_iff disconnect_m_eStatus, booked_disconnect_iff kept,
      and_assoc, ← imp_and]
    rfl
  | disconnect shutdown =>
    obtain rfl := Option.some.inj next
    exact booked_disconnect_iff kept

theorem kept_of_step (next : s.step platform label = some t) : t.Kept := by
  intro connected
  cases label with
  | connect os =>
    obtain rfl := Option.some.inj next
    rw [connect_eq] at connected ⊢
    exact opened_connectTo disconnect_m_eStatus connected
  | disconnect shutdown =>
    obtain rfl := Option.some.inj next
    exact absurd connected disconnect_m_eStatus

theorem kept_of_run (run : Run (step platform) Free start labels s) : s.Kept := by
  cases run with
  | nil => exact nofun
  | snoc _ _ next => exact kept_of_step next

/-- Once its destructor has run, a client on Unix has closed each of its sockets exactly once. One
on Windows has if and only if no call to `shutdown` or to `connect` has failed. -/
theorem settled_destroy_iff_closes (run : Run (step platform) Free start labels s)
    (shutdown : Bool) : Settled (s.destroy platform shutdown).ledger ↔
      (platform = .windows →
        Run (step platform) Closes start labels s ∧ s.Closes (.disconnect shutdown)) := by
  have booked : s.Booked ↔
      Run (step platform) (fun s a => platform = .windows → s.Closes a) start labels s :=
    run.good_iff rfl fun _ _ _ _ earlier next => booked_step_iff (kept_of_run earlier) next
  -- the condition is one on Windows only, so it can be asked for once instead of at each step
  have whole : Run (step platform) (fun s a => platform = .windows → s.Closes a) start labels s ↔
      (platform = .windows → Run (step platform) Closes start labels s) := by
    constructor
    · intro closes windows
      exact closes.mono fun _ _ close => close windows
    · intro closes
      by_cases windows : platform = .windows
      · exact (closes windows).mono fun _ _ close _ => close
      · exact run.mono fun _ _ _ closed => absurd closed windows
  have ends : s.destroy platform shutdown = (s.disconnect platform shutdown).1 := by
    rw [destroy]
    by_cases connected : s.m_eStatus = .connected
    · rw [if_pos connected]
    · rw [if_neg connected, disconnect_of_ne connected]
  have empty : (s.disconnect platform shutdown).1.held = ∅ := if_neg disconnect_m_eStatus
  rw [imp_and, ← whole, ← booked, ends, Settled]
  refine Iff.trans ?_ (booked_disconnect_iff (kept_of_run run))
  rw [Booked, empty]

/-- A client on Unix that is refused by one address, and not by the next, closes both sockets. -/
theorem settled_destroy_of_refused : ∃ s : CTCPClient, s.m_eStatus = .connected ∧
    Settled (s.destroy .unix true).ledger := by
  have next : start.step .unix
      (.connect ⟨true, [⟨true, true, false⟩, ⟨true, true, true⟩]⟩) = some _ := rfl
  exact ⟨_, rfl, (settled_destroy_iff_closes (.snoc .nil trivial next) true).mpr nofun⟩

end CTCPClient

end ExLibs.Network
