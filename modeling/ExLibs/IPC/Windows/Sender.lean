/-
# Who has sent a request

`SendIPC` copies the name of its slot over the name that the server slot holds, without a
terminator, and `stIPCData::clear` leaves the name alone. A worker that reads the name up to
its first zero reads the name of the client exactly as long as no client before it has left
a longer one.
-/
import Mathlib.Data.Finset.Lattice.Fold
import Mathlib.Order.Lattice.Nat
import ExLibs.IPC.Windows.Custody

namespace ExLibs.IPC.Windows

open ExLibs.Math

/-- Another process that calls the server of `plain`. -/
def CallOrigin.shorter : CallOrigin := { CallOrigin.plain with pid := 2 }

namespace Server

variable {view nMaxThreadCount : ℕ} {s t : Server} {label : ServerLabel}
  {labels : List ServerLabel}

/-- A name that is free of zeros and shorter than 256 characters. -/
def ProperName (name : WString) : Prop := 0 ∉ name ∧ name.length < 256

/-- The name of the slot of a call. -/
def name (s : Server) (call : ℕ) : WString := (s.args call).sIPCClientName

/-- The names of clients are proper. -/
def Proper (_ : Server) : ServerLabel → Prop
  | .begin args => ProperName args.sIPCClientName
  | _ => True

/-- Every request that has been put into the queue carries the name of its sender. -/
def Signed (s : Server) : Prop :=
  ∀ q ∈ s.enqueued, terminated q.data.sSenderIPCName = s.name q.call

/-- The name that a worker reads, and that is in the queue for it, is that of the sender. -/
structure Identified (s : Server) : Prop where
  signed : s.Signed
  read : ∀ w place job, s.worker w = .busy place job →
    terminated job.data.sSenderIPCName = s.name job.call

/-- A request that is put into the queue comes from a client whose name is as long as any
that has been in the slot. -/
def LongestYet (s : Server) : ServerLabel → Prop
  | .main mapped running => (mapped && running && s.slot.hasRequest) = true →
      ∀ call ∈ s.posted, (s.name call).length ≤ (s.name s.poster).length
  | _ => True

/-- The length of the longest name that has been in the slot. -/
def longest (s : Server) : ℕ := s.posted.toFinset.sup fun call => (s.name call).length

/-- What the server slot holds of the names of its clients. -/
structure Named (s : Server) : Prop where
  proper : ∀ call < s.calls, ProperName (s.name call)
  size : s.slot.sSenderIPCName.length = 256
  filled : FilledTo s.slot.sSenderIPCName s.longest
  waiting : s.slot.hasRequest = true →
    (terminated s.slot.sSenderIPCName = s.name s.poster ↔
      ∀ call ∈ s.posted, (s.name call).length ≤ (s.name s.poster).length)

theorem longest_le_iff {length : ℕ} :
    s.longest ≤ length ↔ ∀ call ∈ s.posted, (s.name call).length ≤ length := by
  simp [longest]

/-- A call that raises `hasRequest` fills the name to the longer of the two. -/
theorem Named.raise (named : s.Named) {call : ℕ} (begun : call < s.calls) {slot : StIPCData}
    {pc : SendPc} (copied : slot.sSenderIPCName = memcpy s.slot.sSenderIPCName (s.name call)) :
    (s.raise call slot pc).Named := by
  obtain ⟨free, short⟩ := named.proper call begun
  have proper : ∀ c ∈ s.name call, c ≠ 0 := fun c member => ne_of_mem_of_not_mem member free
  have fits : (s.name call).length ≤ s.slot.sSenderIPCName.length := by
    rw [named.size]
    exact short.le
  have longer : (s.raise call slot pc).longest = max s.longest (s.name call).length := by
    simp [longest, name, Server.raise, goto, List.toFinset_append, max_comm]
  -- what stands behind the name in the slot is what the longest name yet has left there
  refine ⟨named.proper, ?_, ?_, fun _ => ?_⟩
  · exact (congrArg List.length copied).trans ((length_memcpy fits).trans named.size)
  · rw [longer]
    exact copied ▸ named.filled.memcpy fits proper
  · have read := named.filled.terminated_memcpy_iff fits proper
    rw [← copied, longest_le_iff] at read
    refine read.trans ?_
    simp [Server.raise, goto, name, or_imp, forall_and]

/-- A step that changes neither the name in the slot nor whose it is. -/
theorem Named.frame (named : s.Named) (recorded : s.Recorded)
    (begun : s.slot.hasRequest = true → s.poster < s.calls)
    (names : ∀ call < s.calls, t.name call = s.name call)
    (proper : ∀ call < t.calls, ProperName (t.name call))
    (slot : t.slot.sSenderIPCName = s.slot.sSenderIPCName)
    (request : t.slot.hasRequest = true → s.slot.hasRequest = true)
    (posted : t.posted = s.posted) (poster : t.poster = s.poster) : t.Named := by
  have same : ∀ call ∈ s.posted, t.name call = s.name call :=
    fun call earlier => names call (recorded call earlier)
  have longest : t.longest = s.longest := by
    unfold Server.longest
    rw [posted]
    refine Finset.sup_congr rfl fun call earlier => ?_
    rw [same call (List.mem_toFinset.mp earlier)]
  refine ⟨proper, slot ▸ named.size, by rw [slot, longest]; exact named.filled, fun waiting => ?_⟩
  rw [slot, posted, poster, names _ (begun (request waiting)), named.waiting (request waiting)]
  exact forall₂_congr fun call earlier => by rw [same call earlier]

theorem Named.keep (named : s.Named)
    (earlier : Run (step view nMaxThreadCount) Proper start labels s)
    (permitted : s.Proper label) (next : s.step view nMaxThreadCount label = some t) :
    t.Named := by
  have fresh := fresh_of_run earlier
  have recorded := recorded_of_run earlier
  have begun := (begun_of_run earlier).1
  cases step_cases next with
  | sent posting => exact named.raise (fresh.begun posting) rfl
  | abandoned posting => exact named.raise (fresh.begun posting) rfl
  | begin begins =>
    have names := fun call (old : call < s.calls) =>
      congrArg SendArgs.sIPCClientName (args_of_step next old).1
    refine named.frame recorded begun names (fun call new => ?_) rfl id rfl rfl
    rcases Nat.lt_succ_iff_lt_or_eq.mp new with old | rfl
    · have proper := named.proper call old
      rwa [name, ← names call old] at proper
    · simp only [name, Function.update_self]
      exact permitted
  | worker created works =>
    cases works <;>
      exact named.frame recorded begun (fun _ _ => rfl) named.proper rfl id rfl rfl
  | enqueue | discard =>
    exact named.frame recorded begun (fun _ _ => rfl) named.proper rfl nofun rfl rfl
  | _ => exact named.frame recorded begun (fun _ _ => rfl) named.proper rfl id rfl rfl

theorem named_of_run (run : Run (step view nMaxThreadCount) Proper start labels s) : s.Named := by
  have initial : start.Named :=
    ⟨nofun, List.length_replicate, filledTo_replicate 256, nofun⟩
  exact run.invariant_of_reached initial fun _ _ _ _ earlier named permitted next =>
    named.keep earlier permitted next

/-- A step keeps the requests in the queue signed exactly if the one it adds has the
longest name yet. -/
theorem signed_iff_of_step (named : s.Named) (begun : ∀ q ∈ s.enqueued, q.call < s.calls)
    (next : s.step view nMaxThreadCount label = some t) :
    t.Signed ↔ s.Signed ∧ s.LongestYet label := by
  cases step_cases next with
  | worker created works => cases works <;> simp [Signed, LongestYet, name, gotoWorker]
  | enqueue request =>
    have read := named.waiting request
    simp only [Signed, LongestYet, List.mem_append, List.mem_singleton, request,
      Bool.and_self, true_imp_iff, ← read]
    simp [or_imp, forall_and, name]
  | idle nothing => rcases nothing with rfl | none <;> simp [Signed, LongestYet, *]
  | discard => simp [Signed, LongestYet, name]
  | begin begins =>
    refine Iff.trans (forall₂_congr fun q member => ?_) (and_iff_left trivial).symm
    have same := congrArg SendArgs.sIPCClientName (args_of_step next (begun q member)).1
    exact Eq.congr_right same
  | _ => simp [Signed, LongestYet, name, raise, goto]

/-- Every request is read with the name of its sender if and only if no client whose request
the server takes has a shorter name than one before it. -/
theorem identified_iff_longestYet (run : Run (step view nMaxThreadCount) Proper start labels s) :
    s.Identified ↔ Run (step view nMaxThreadCount) LongestYet start labels s := by
  have account : s.Signed ↔ Run (step view nMaxThreadCount) LongestYet start labels s :=
    run.good_iff_of_held nofun fun _ _ _ _ earlier _ next =>
      signed_iff_of_step (named_of_run earlier) (begun_of_run earlier).2 next
  rw [← account]
  refine ⟨fun identified => identified.signed, fun signed => ⟨signed, fun w place job busy => ?_⟩⟩
  obtain ⟨q, member, responseSize, same⟩ := (custody_of_run run).busy w place job busy
  rw [same]
  exact signed q member

instance (name : WString) : Decidable (ProperName name) :=
  inferInstanceAs (Decidable (0 ∉ name ∧ name.length < 256))

instance (s : Server) : DecidablePred s.Proper
  | .begin args => inferInstanceAs (Decidable (ProperName args.sIPCClientName))
  | .attempt .. | .giveUp _ | .main .. | .stop | .stopQueue | .worker .. =>
    inferInstanceAs (Decidable True)

/-- The call of a process with a small request. -/
def callOf (origin : CallOrigin) : SendArgs :=
  ⟨origin.sIPCClientName, origin.pid.toNat, [1, 2, 3, 4], 10, false⟩

instance (s : Server) : DecidablePred s.LongestYet
  | .main mapped running => inferInstanceAs
      (Decidable ((mapped && running && s.slot.hasRequest) = true →
        ∀ call ∈ s.posted, (s.name call).length ≤ (s.name s.poster).length))
  | .begin _ | .attempt .. | .giveUp _ | .stop | .stopQueue | .worker .. =>
    inferInstanceAs (Decidable True)

/-- Two requests, each taken before the next is posted. -/
def turns (first second : CallOrigin) : List ServerLabel :=
  [.begin (callOf first), .begin (callOf second), .attempt 0 0 succeeding, .main true true,
    .attempt 1 0 succeeding, .main true true]

/-- The second client has the longer name. -/
theorem identified_of_longer : ∃ s : Server, s.Identified ∧ s.enqueued.length = 2 := by
  obtain ⟨s, run, ended⟩ := @exists_run_of_guarded _ _ (step 4096 2)
    (fun s label => s.Proper label ∧ s.LongestYet label)
    (fun s label => s.Proper label ∧ s.LongestYet label) (fun _ _ => of_decide_eq_true) start
    (turns .shorter .plain) (fun s => s.enqueued.length = 2) (by decide +kernel)
  exact ⟨s, (identified_iff_longestYet (run.mono fun _ _ => And.left)).mpr
    (run.mono fun _ _ => And.right), of_decide_eq_true ended⟩

/-- The second client has the shorter name, and its request is read with the last character
of the first client's name behind it. -/
theorem shorter_misread : ∃ s : Server, Run (step 4096 2) Proper start (turns .plain .shorter) s ∧
    ¬ s.Identified := by
  obtain ⟨s, run, ended⟩ := @exists_run_of_guarded _ _ (step 4096 2) Proper
    (fun s label => s.Proper label) (fun _ _ => of_decide_eq_true) start
    (turns .plain .shorter)
    (fun s => s.enqueued.any fun q => terminated q.data.sSenderIPCName ≠ s.name q.call)
    (by decide +kernel)
  refine ⟨s, run, fun identified => ?_⟩
  obtain ⟨q, member, differs⟩ := List.any_eq_true.mp ended
  exact of_decide_eq_true differs (identified.signed q member)

end Server

end ExLibs.IPC.Windows
