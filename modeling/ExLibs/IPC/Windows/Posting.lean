/-
# Posting once

`SendIPC` raises `hasRequest` in the server slot and then brings a large request into
place. When that fails the attempt ends without success, the request stays in the slot,
and the loop posts again. A call posts at most once as long as its attempts, once they have
raised `hasRequest`, get through.
-/
import ExLibs.IPC.Windows.Server

namespace ExLibs.IPC.Windows

open ExLibs.Math

namespace Server

variable {view nMaxThreadCount : ℕ} {s t : Server} {label : ServerLabel}
  {labels : List ServerLabel}

/-- Only attempts that succeed have left a request in the slot, one for each call, and
`main` has put at most one request of each call into the queue. -/
structure PostsOnce (s : Server) : Prop where
  succeeded : ∀ call ∈ s.posted, s.pc call = .sent
  once : s.posted.Nodup
  enqueued : (s.enqueued.map (·.call)).Nodup

/-- An attempt that finds the slot free gets its data through: it uses no mapping, or its
request mutex does not open, or its request mapping can be mapped and read. -/
def Completes (view : ℕ) (s : Server) : ServerLabel → Prop
  | .attempt call _ os => s.pc call = .posting → os.enters s.slot = true →
      os.completes view (s.args call) = true
  | _ => True

/-- A call is recorded once, when it succeeds. -/
def Faithful (s : Server) : Prop := (∀ call ∈ s.posted, s.pc call = .sent) ∧ s.posted.Nodup

/-- A call that posts keeps the records faithful exactly if it goes on as sent. -/
theorem faithful_raise_iff {call : ℕ} (posting : s.pc call = .posting) {slot : StIPCData}
    {pc : SendPc} : (s.raise call slot pc).Faithful ↔ s.Faithful ∧ pc = .sent := by
  constructor
  · rintro ⟨sent, once⟩
    -- the call is recorded now, so it has not been before
    have fresh : call ∉ s.posted :=
      fun member => List.disjoint_of_nodup_append once member (List.mem_singleton_self call)
    refine ⟨⟨fun other member => ?_, (List.nodup_append.mp once).1⟩, ?_⟩
    · have distinct : other ≠ call := ne_of_mem_of_not_mem member fresh
      exact (Function.update_of_ne distinct _ _).symm.trans
        (sent other (List.mem_append_left _ member))
    · exact (Function.update_self ..).symm.trans
        (sent call (List.mem_append_right _ (List.mem_singleton_self call)))
  · rintro ⟨⟨sent, once⟩, rfl⟩
    -- those that are recorded have gone on, and this one is still posting
    have fresh : call ∉ s.posted := by
      intro member
      rw [sent call member] at posting
      cases posting
    refine ⟨fun other member => ?_, List.nodup_append.mpr ⟨once, List.nodup_singleton call, ?_⟩⟩
    · rcases List.mem_append.mp member with earlier | now
      · have distinct : other ≠ call := ne_of_mem_of_not_mem earlier fresh
        exact (Function.update_of_ne distinct _ _).trans (sent other earlier)
      · obtain rfl := List.mem_singleton.mp now
        exact Function.update_self ..
    · rintro other earlier _ now rfl
      exact fresh (List.mem_singleton.mp now ▸ earlier)

/-- Nor does a call that moves on without having posted. -/
theorem sent_goto_iff {call : ℕ} (unsent : s.pc call ≠ .sent) {pc : SendPc} (still : pc ≠ .sent) :
    (∀ other ∈ s.posted, (s.goto call pc).pc other = .sent) ↔
      ∀ other ∈ s.posted, s.pc other = .sent := by
  refine forall₂_congr fun other _ => ?_
  by_cases own : other = call
  · subst own
    exact iff_of_false (fun sent => still ((Function.update_self ..).symm.trans sent)) unsent
  · change Function.update s.pc call pc other = .sent ↔ _
    rw [Function.update_of_ne own]

/-- A step keeps the records faithful exactly if its attempt completes. -/
theorem faithful_iff_of_step (fresh : s.Fresh)
    (next : s.step view nMaxThreadCount label = some t) :
    t.Faithful ↔ s.Faithful ∧ s.Completes view label := by
  cases step_cases next with
  | worker created works => cases works <;> simp [Faithful, Completes, gotoWorker]
  | untouched posting stays => simp [Faithful, Completes, stays]
  | sent posting enters completes copied =>
    rw [faithful_raise_iff posting]
    simp [Completes, completes]
  | abandoned posting enters fails mapped left =>
    rw [faithful_raise_iff posting]
    refine and_congr_right fun _ => iff_of_false ?_ ?_
    · rcases left with rfl | rfl <;> simp
    · simp [Completes, posting, enters, fails]
  | @begin args pc begins =>
    have unsent : s.pc s.calls ≠ .sent := by simp [fresh s.calls le_rfl]
    have still : pc ≠ .sent := by rcases begins with rfl | rfl <;> simp
    exact (and_congr_left' (sent_goto_iff unsent still)).trans (and_iff_left trivial).symm
  | @giveUp call posting =>
    have unsent : s.pc call ≠ .sent := by simp [posting]
    exact (and_congr_left' (sent_goto_iff unsent (by simp))).trans (and_iff_left trivial).symm
  | _ => simp [Faithful, Completes]

/-- Whatever the calls to the system come to, each call posts at most once, and an attempt
that fails leaves nothing behind, if and only if every attempt that finds the slot free
completes. -/
theorem postsOnce_iff_completes
    (run : Run (step view nMaxThreadCount) Free start labels s) :
    s.PostsOnce ↔ Run (step view nMaxThreadCount) (Completes view) start labels s := by
  have account : s.Faithful ↔ Run (step view nMaxThreadCount) (Completes view) start labels s := by
    refine run.good_iff ⟨nofun, List.nodup_nil⟩ fun labels s label t earlier next => ?_
    exact faithful_iff_of_step (fresh_of_run earlier) next
  rw [← account]
  constructor
  · rintro ⟨succeeded, once, -⟩
    exact ⟨succeeded, once⟩
  · rintro ⟨succeeded, once⟩
    exact ⟨succeeded, once, (balanced_of_run run).nodup_taken once⟩

instance (view : ℕ) (s : Server) : DecidablePred (s.Completes view)
  | .attempt call _ os => inferInstanceAs (Decidable (s.pc call = .posting →
      os.enters s.slot = true → os.completes view (s.args call) = true))
  | .begin _ | .giveUp _ | .main .. | .stop | .stopQueue | .worker .. =>
    inferInstanceAs (Decidable True)

/-- A call whose request does not fit into the slot. -/
def largeCall : SendArgs :=
  ⟨CallOrigin.plain.sIPCClientName, 12, List.replicate 2000 1, 10, false⟩

/-- Every call to the system succeeds. -/
def succeeding : PostOutcomes := ⟨true, true, true, true, true, true⟩

/-- A call that is let through at once posts once. -/
theorem postsOnce_of_success : ∃ s : Server, s.PostsOnce ∧ s.enqueued.length = 1 := by
  obtain ⟨s, run, ended⟩ := @exists_run_of_guarded _ _ (step 4096 2) (Completes 4096)
    (fun s label => s.Completes 4096 label) (fun _ _ => of_decide_eq_true) start
    [.begin largeCall, .attempt 0 0 succeeding, .main true true]
    (fun s => s.enqueued.length = 1) (by decide +kernel)
  exact ⟨s, (postsOnce_iff_completes run.free).mpr run, of_decide_eq_true ended⟩

/-- When the request mapping cannot be mapped, the attempt fails, but its request is in the
slot; `main` takes it, and the next attempt posts it again. -/
theorem enqueued_twice : ∃ s : Server,
    Run (step 4096 2) Free start [.begin largeCall,
      .attempt 0 0 { succeeding with mapReq := false }, .main true true,
      .attempt 0 0 succeeding, .main true true] s ∧
    s.enqueued.map (·.call) = [0, 0] ∧ ¬ s.PostsOnce := by
  obtain ⟨s, run, ended⟩ := @exists_run_of_exec _ _ (step 4096 2) start
    [.begin largeCall, .attempt 0 0 { succeeding with mapReq := false }, .main true true,
      .attempt 0 0 succeeding, .main true true]
    (fun s => s.enqueued.map (·.call) = [0, 0]) (by decide +kernel)
  have twice := of_decide_eq_true ended
  refine ⟨s, run, twice, fun once => ?_⟩
  have nodup := once.enqueued
  rw [twice] at nodup
  exact absurd nodup (by decide)

end Server

end ExLibs.IPC.Windows
