/-
# From the receive thread to the server handler

For each connection a receive thread decodes packets and inserts them into an event
queue, and a handler thread takes them out and calls the server handler. A packet of
size zero is what the queue returns once it is stopped, so the handler thread skips
every such packet. When the peer closes, the receive thread stops the handler thread
and then the queue, and what is in the queue at that point stays there.

A run is an interleaving of the two threads. The packets that the handler was called
with, the one it is about to be called with, and those still on their way are, in
this order, the decoded packets of a size other than zero; this holds of every run,
and tells which runs deliver everything.
-/
import ExLibs.Math.Transition
import ExLibs.Network.Packet
import ExLibs.Util.EventQueue

namespace ExLibs.Network

open ExLibs.Math ExLibs.Util

/-- `tuPacketMsg()`. -/
instance : Inhabited TuPacketMsg := ⟨⟨0, 0, []⟩⟩

/-- Where `cNetworkServerReceive::receiveThread` is. -/
inductive ReceivePc
  | looping
  /-- It has decoded a packet. -/
  | inserting (tuPacket : TuPacketMsg)
  /-- The peer has closed; it destroys the handler. -/
  | closing
  /-- The handler thread is told to stop, its queue is not. -/
  | stoppingQueue
  /-- It waits for the handler thread to end. -/
  | joining
  | joined
  deriving DecidableEq

/-- Where `cNetworkServerReceiveHandler::serverListenThread` is. -/
inductive HandlerPc
  /-- At the head of its loop. -/
  | testing
  | dequeuing
  /-- It has a packet from the queue. -/
  | holding (tuPacket : TuPacketMsg)
  | ended
  deriving DecidableEq

/-- A connection of the server. The first and the last field are records of the
packets decoded and of those the handler was called with. -/
structure ServerConnection where
  decoded : List TuPacketMsg
  receiver : ReceivePc
  eventQueue : EventQueue TuPacketMsg
  isStop : Bool
  handler : HandlerPc
  handled : List TuPacketMsg

/-- A step of the receive thread or of the handler thread. -/
inductive ServerLabel
  | decode (tuPacket : TuPacketMsg)
  | insertPacket
  /-- `Receive` returns zero. -/
  | close
  /-- The destructor of the handler raises its flag. -/
  | stopHandler
  /-- It stops the queue. -/
  | stopQueue
  /-- It has joined the handler thread. -/
  | join
  /-- The handler thread tests its flag. -/
  | test
  | deQueue
  /-- It calls the handler, or sleeps. -/
  | handle
  deriving DecidableEq

namespace ServerConnection

/-- A connection that has just been accepted. -/
def start : ServerConnection := ⟨[], .looping, .empty, false, .testing, []⟩

/-- One step, if the label is enabled. -/
def step (s : ServerConnection) : ServerLabel → Option ServerConnection
  | .decode tuPacket =>
    match s.receiver with
    | .looping => some { s with
        receiver := .inserting tuPacket, decoded := s.decoded ++ [tuPacket] }
    | _ => none
  | .insertPacket =>
    match s.receiver with
    | .inserting tuPacket => some { s with
        receiver := .looping, eventQueue := s.eventQueue.enQueue tuPacket }
    | _ => none
  | .close =>
    match s.receiver with
    | .looping => some { s with receiver := .closing }
    | _ => none
  | .stopHandler =>
    match s.receiver with
    | .closing => some { s with receiver := .stoppingQueue, isStop := true }
    | _ => none
  | .stopQueue =>
    match s.receiver with
    | .stoppingQueue => some { s with receiver := .joining, eventQueue := s.eventQueue.stop }
    | _ => none
  | .join =>
    match s.receiver, s.handler with
    | .joining, .ended => some { s with receiver := .joined }
    | _, _ => none
  | .test =>
    match s.handler with
    | .testing => some { s with handler := if s.isStop then .ended else .dequeuing }
    | _ => none
  | .deQueue =>
    match s.handler with
    | .dequeuing => do
      let (tuPacket, eventQueue) ← s.eventQueue.deQueue
      some { s with handler := .holding tuPacket, eventQueue }
    | _ => none
  | .handle =>
    match s.handler with
    | .holding tuPacket =>
      if tuPacket.size = 0 then some { s with handler := .testing }
      else some { s with handler := .testing, handled := s.handled ++ [tuPacket] }
    | _ => none

/-- The packets that the handler thread does not take for a stopped queue. -/
def proper (packets : List TuPacketMsg) : List TuPacketMsg := packets.filter (·.size ≠ 0)

/-- The packet between the receive thread and the queue. -/
def inserting (s : ServerConnection) : List TuPacketMsg :=
  match s.receiver with
  | .inserting tuPacket => [tuPacket]
  | _ => []

/-- The packet between the queue and the handler. -/
def holding (s : ServerConnection) : List TuPacketMsg :=
  match s.handler with
  | .holding tuPacket => [tuPacket]
  | _ => []

/-- The queue is stopped, and the handler is not about to be called. -/
def Closed (s : ServerConnection) : Prop := s.eventQueue.isStop = true ∧ proper s.holding = []

/-- Packets have a size, and the queue is stopped when it is empty. -/
def Orderly (s : ServerConnection) : ServerLabel → Prop
  | .decode tuPacket => tuPacket.size ≠ 0
  | .stopQueue => s.eventQueue.queue = []
  | _ => True

variable {s t : ServerConnection} {label : ServerLabel}

/-- What a step does, one case for every way each label can go. -/
inductive Step (s : ServerConnection) : ServerLabel → ServerConnection → Prop
  | decode {tuPacket : TuPacketMsg} (looping : s.receiver = .looping) :
      Step s (.decode tuPacket)
        { s with receiver := .inserting tuPacket, decoded := s.decoded ++ [tuPacket] }
  | insertPacket {tuPacket : TuPacketMsg} (inserting : s.receiver = .inserting tuPacket) :
      Step s .insertPacket
        { s with receiver := .looping, eventQueue := s.eventQueue.enQueue tuPacket }
  | close (looping : s.receiver = .looping) : Step s .close { s with receiver := .closing }
  | stopHandler (closing : s.receiver = .closing) :
      Step s .stopHandler { s with receiver := .stoppingQueue, isStop := true }
  | stopQueue (stopping : s.receiver = .stoppingQueue) :
      Step s .stopQueue { s with receiver := .joining, eventQueue := s.eventQueue.stop }
  | join (joining : s.receiver = .joining) (ended : s.handler = .ended) :
      Step s .join { s with receiver := .joined }
  | test {handler : HandlerPc} (testing : s.handler = .testing)
      (idle : handler = .ended ∨ handler = .dequeuing) : Step s .test { s with handler }
  | take {tuPacket : TuPacketMsg} {queue : List TuPacketMsg} (dequeuing : s.handler = .dequeuing)
      (running : s.eventQueue.isStop = false) (items : s.eventQueue.queue = tuPacket :: queue) :
      Step s .deQueue
        { s with handler := .holding tuPacket, eventQueue := { s.eventQueue with queue } }
  | stopped (dequeuing : s.handler = .dequeuing) :
      Step s .deQueue { s with handler := .holding default }
  | skip {tuPacket : TuPacketMsg} (holding : s.handler = .holding tuPacket)
      (size : tuPacket.size = 0) : Step s .handle { s with handler := .testing }
  | call {tuPacket : TuPacketMsg} (holding : s.handler = .holding tuPacket)
      (size : tuPacket.size ≠ 0) :
      Step s .handle { s with handler := .testing, handled := s.handled ++ [tuPacket] }

theorem step_cases (next : s.step label = some t) : Step s label t := by
  cases label with
  | join =>
    simp only [step] at next
    split at next
    · exact Option.some.inj next ▸ .join ‹_› ‹_›
    · cases next
  | test =>
    simp only [step] at next
    split at next
    · obtain rfl := Option.some.inj next
      refine .test ‹_› ?_
      split
      · exact .inl rfl
      · exact .inr rfl
    · cases next
  | deQueue =>
    simp only [step] at next
    split at next
    · obtain ⟨⟨tuPacket, eventQueue⟩, takes, made⟩ := Option.bind_eq_some_iff.mp next
      obtain rfl := Option.some.inj made
      unfold EventQueue.deQueue at takes
      split_ifs at takes with stop
      · obtain ⟨rfl, rfl⟩ := Prod.mk.inj (Option.some.inj takes)
        exact .stopped ‹_›
      · split at takes
        · cases takes
        · obtain ⟨rfl, rfl⟩ := Prod.mk.inj (Option.some.inj takes)
          exact .take ‹_› (Bool.eq_false_iff.mpr stop) ‹_›
    · cases next
  | handle =>
    simp only [step] at next
    split at next
    · split_ifs at next with size
      · exact Option.some.inj next ▸ .skip ‹_› size
      · exact Option.some.inj next ▸ .call ‹_› size
    · cases next
  | decode tuPacket =>
    simp only [step] at next
    split at next
    · exact Option.some.inj next ▸ .decode ‹_›
    · cases next
  | insertPacket =>
    simp only [step] at next
    split at next
    · exact Option.some.inj next ▸ .insertPacket ‹_›
    · cases next
  | close =>
    simp only [step] at next
    split at next
    · exact Option.some.inj next ▸ .close ‹_›
    · cases next
  | stopHandler =>
    simp only [step] at next
    split at next
    · exact Option.some.inj next ▸ .stopHandler ‹_›
    · cases next
  | stopQueue =>
    simp only [step] at next
    split at next
    · exact Option.some.inj next ▸ .stopQueue ‹_›
    · cases next

@[simp] theorem proper_nil : proper [] = [] := rfl

@[simp] theorem proper_append (front back : List TuPacketMsg) :
    proper (front ++ back) = proper front ++ proper back :=
  List.filter_append ..

@[simp] theorem proper_default : proper [(default : TuPacketMsg)] = [] := rfl

theorem proper_eq_nil {tuPacket : TuPacketMsg} (size : tuPacket.size = 0) :
    proper [tuPacket] = [] := by
  simp [proper, size]

theorem proper_eq_self {packets : List TuPacketMsg} :
    proper packets = packets ↔ ∀ tuPacket ∈ packets, tuPacket.size ≠ 0 := by
  simp [proper]

/-- What holds in every state of a run. -/
structure Sound (s : ServerConnection) : Prop where
  order : proper s.decoded =
    s.handled ++ proper s.holding ++ proper s.eventQueue.queue ++ proper s.inserting
  stopped : s.eventQueue.isStop = true → s.receiver = .joining ∨ s.receiver = .joined
  source : ∀ tuPacket ∈ s.eventQueue.queue ++ s.inserting, tuPacket ∈ s.decoded

/-- Packets pass from the receive thread to the handler in order, and only those of
size zero drop out. -/
theorem Sound.order_step (inv : Sound s) (next : Step s label t) :
    proper t.decoded =
      t.handled ++ proper t.holding ++ proper t.eventQueue.queue ++ proper t.inserting := by
  have order := inv.order
  cases next with
  | decode looping =>
    rw [proper_append, order]
    simp [inserting, looping, holding]
  | insertPacket at_inserting =>
    simpa [inserting, at_inserting, holding, EventQueue.enQueue] using order
  | close at_looping => simpa [inserting, at_looping, holding] using order
  | stopHandler at_closing => simpa [inserting, at_closing, holding] using order
  | stopQueue stopping => simpa [inserting, stopping, holding, EventQueue.stop] using order
  | join joining ended => simpa [inserting, joining, holding] using order
  | test testing idle =>
    rcases idle with rfl | rfl <;> simpa [inserting, testing, holding] using order
  | @take tuPacket queue dequeuing running items =>
    have front : proper (tuPacket :: queue) = proper [tuPacket] ++ proper queue :=
      proper_append [tuPacket] queue
    simpa [inserting, dequeuing, holding, items, front] using order
  | stopped dequeuing => simpa [inserting, dequeuing, holding] using order
  | skip at_holding size => simpa [inserting, at_holding, holding, proper_eq_nil size] using order
  | @call tuPacket at_holding size =>
    have kept : proper [tuPacket] = [tuPacket] := proper_eq_self.mpr (by simpa using size)
    simpa [inserting, at_holding, holding, kept] using order

/-- The queue is stopped last. -/
theorem Sound.stopped_step (inv : Sound s) (next : Step s label t)
    (stopped : t.eventQueue.isStop = true) : t.receiver = .joining ∨ t.receiver = .joined := by
  have before := inv.stopped
  cases next with
  | stopQueue => exact .inl rfl
  | join => exact .inr rfl
  | insertPacket inserting =>
    have stopped' : s.eventQueue.isStop = true := stopped
    grind
  | decode looping | close looping =>
    have impossible := before stopped
    grind
  | stopHandler closing =>
    have impossible := before stopped
    grind
  | _ => exact before stopped

theorem Sound.source_step (inv : Sound s) (next : Step s label t) (tuPacket : TuPacketMsg)
    (member : tuPacket ∈ t.eventQueue.queue ++ t.inserting) : tuPacket ∈ t.decoded := by
  have before := inv.source tuPacket
  cases next <;>
    simp only [inserting, EventQueue.enQueue, EventQueue.stop] at before member <;> grind

theorem Sound.step (inv : Sound s) (next : Step s label t) : Sound t :=
  ⟨inv.order_step next, inv.stopped_step next, inv.source_step next⟩

theorem sound_of_run {allowed : ServerConnection → ServerLabel → Prop} {labels : List ServerLabel}
    (run : Run step allowed start labels s) : Sound s :=
  run.invariant
    ⟨rfl, by simp [start, EventQueue.empty], by simp [start, EventQueue.empty, inserting]⟩
    fun _ _ _ inv _ next => inv.step (step_cases next)

/-- Nothing has been dropped, and nothing was in the queue when it was stopped. -/
def Lossless (s : ServerConnection) : Prop :=
  (∀ tuPacket ∈ s.decoded, tuPacket.size ≠ 0) ∧
    (s.eventQueue.isStop = true → s.eventQueue.queue = [])

/-- A step keeps a connection lossless exactly if it is orderly. -/
theorem lossless_iff_of_step (inv : Sound s) (next : Step s label t) :
    t.Lossless ↔ s.Lossless ∧ s.Orderly label := by
  have stopped := inv.stopped
  cases next with
  | decode looping =>
    simp only [Lossless, Orderly, List.forall_mem_append, List.forall_mem_singleton]
    tauto
  | insertPacket inserting =>
    have running : s.eventQueue.isStop ≠ true := by
      intro stop
      simp [inserting, stop] at stopped
    simp [Lossless, Orderly, EventQueue.enQueue, running]
  | stopQueue stopping =>
    have running : s.eventQueue.isStop ≠ true := by
      intro stop
      simp [stopping, stop] at stopped
    simp [Lossless, Orderly, EventQueue.stop, running]
  | take dequeuing running items => simp [Lossless, Orderly, running]
  | _ => simp [Lossless, Orderly]

/-- Once the queue is stopped and the handler not about to be called, everything has
been handled exactly if nothing was lost. -/
theorem Sound.handled_eq_decoded_iff (inv : Sound s) (closed : s.Closed) :
    s.handled = s.decoded ↔ s.Lossless := by
  obtain ⟨stopped, idle⟩ := closed
  have none_inserting : s.inserting = [] := by
    rcases inv.stopped stopped with at_ | at_ <;> simp [inserting, at_]
  have order := inv.order
  rw [idle, none_inserting, proper_nil, List.append_nil, List.append_nil] at order
  constructor
  · intro same
    have sizes : ∀ tuPacket ∈ s.decoded, tuPacket.size ≠ 0 := by
      intro tuPacket member
      -- what was handled is proper
      have handled : tuPacket ∈ proper s.decoded := by
        rw [order]
        exact List.mem_append_left _ (same ▸ member)
      simpa [proper] using (List.mem_filter.mp handled).2
    refine ⟨sizes, fun _ => ?_⟩
    have queue_sizes : proper s.eventQueue.queue = s.eventQueue.queue := by
      rw [proper_eq_self]
      intro tuPacket member
      exact sizes tuPacket (inv.source tuPacket (List.mem_append_left _ member))
    rw [proper_eq_self.mpr sizes, queue_sizes, same] at order
    exact List.self_eq_append_right.mp order
  · rintro ⟨sizes, empty⟩
    rw [proper_eq_self.mpr sizes, empty stopped, proper_nil, List.append_nil] at order
    exact order.symm

/-- At any time the handler has been called with the first few of the packets that
have a size. -/
theorem handled_isPrefix {labels : List ServerLabel} (run : Run step Free start labels s) :
    s.handled <+: proper s.decoded := by
  rw [(sound_of_run run).order, List.append_assoc, List.append_assoc]
  exact List.prefix_append ..

/-- However the two threads interleave, once the queue is stopped and no call of the
handler is outstanding, the handler has been called with exactly the decoded packets,
in order, if and only if every packet had a size and the queue was stopped empty. -/
theorem handled_eq_decoded_iff_orderly {labels : List ServerLabel}
    (run : Run step Free start labels s) (closed : s.Closed) :
    s.handled = s.decoded ↔ Run step Orderly start labels s := by
  rw [(sound_of_run run).handled_eq_decoded_iff closed]
  apply run.good_iff ⟨by simp [start], by simp [start, EventQueue.empty]⟩
  intro labels s label t run next
  exact lossless_iff_of_step (sound_of_run run) (step_cases next)

/-- Whether a step is orderly, decided. -/
def isOrderly (s : ServerConnection) : ServerLabel → Bool
  | .decode tuPacket => tuPacket.size ≠ 0
  | .stopQueue => s.eventQueue.queue = []
  | _ => true

theorem orderly_of_isOrderly (s : ServerConnection) (label : ServerLabel)
    (decided : s.isOrderly label = true) : s.Orderly label := by
  cases label with
  | decode tuPacket => exact (of_decide_eq_true decided : tuPacket.size ≠ 0)
  | stopQueue => exact (of_decide_eq_true decided : s.eventQueue.queue = [])
  | _ => trivial

/-- Two packets, both handled before the peer closes. -/
theorem handled_eq_decoded_of_two : ∃ s : ServerConnection,
    s.handled = s.decoded ∧ s.receiver = .joined ∧ s.decoded = [⟨1, 1, [7]⟩, ⟨1, 2, [8]⟩] := by
  obtain ⟨s, run, ended⟩ := @exists_run_of_guarded _ _ step Orderly isOrderly orderly_of_isOrderly
    start [.test, .decode ⟨1, 1, [7]⟩, .insertPacket, .decode ⟨1, 2, [8]⟩, .deQueue, .insertPacket,
      .handle, .test, .deQueue, .handle, .close, .stopHandler, .stopQueue, .test, .join]
    (fun s => s.eventQueue.isStop ∧ proper s.holding = [] ∧ s.receiver = .joined ∧
      s.decoded = [⟨1, 1, [7]⟩, ⟨1, 2, [8]⟩]) (by decide)
  obtain ⟨stopped, idle, joined, decoded⟩ := of_decide_eq_true ended
  exact ⟨s, (handled_eq_decoded_iff_orderly run.free ⟨stopped, idle⟩).mpr run, joined, decoded⟩

/-- A packet still in the queue when the peer closes is never handled. -/
theorem unhandled_at_close : ∃ s : ServerConnection,
    Run step Free start [.decode ⟨1, 1, [7]⟩, .insertPacket, .close, .stopHandler, .stopQueue,
      .test, .join] s ∧
      s.receiver = .joined ∧ s.decoded = [⟨1, 1, [7]⟩] ∧ s.handled = [] := by
  obtain ⟨s, run, ended⟩ := @exists_run_of_exec _ _ step start
    [.decode ⟨1, 1, [7]⟩, .insertPacket, .close, .stopHandler, .stopQueue, .test, .join]
    (fun s => s.receiver = .joined ∧ s.decoded = [⟨1, 1, [7]⟩] ∧ s.handled = []) (by decide)
  exact ⟨s, run, of_decide_eq_true ended⟩

end ServerConnection

end ExLibs.Network
