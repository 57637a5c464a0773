import ReusePort.Core.Registry

/-!
# ReusePort.Core.CloseCalls — closing a server more than once

`close` takes `&self`: a server can be closed by several threads at the same time, and
closed again. Each call stores the flag and goes through the registries of
`UdpServerState` (`core/udp.rs`) under their locks, in the same order, and finds what the
registrations and the other calls have left there.

* `Kept` — a registered socket is shut down, or in the pool, or about to be pushed, no
  matter how many calls have come by;
* `Swept` — what one call has emptied stays empty, once all tasks have registered;
* `exists_late` — a task that has not registered can do so behind the call;
* `close_leaves_nothing_iff` — what a call of `close` achieves, among any others.
-/

namespace ReusePort

namespace CloseCalls

open Registry (Config ClosePc Closed)

/-! ## The calls -/

/-- The server and the calls of `close`, by their number; those at `storing` have not been
made. The field `close` of the server is that of the call which moved last. -/
structure St (n : ℕ) where
  server : Registry.St n
  call : ℕ → ClosePc

/-- The server as the code of the `i`-th call has it before it. -/
def St.seenBy {n : ℕ} (s : St n) (i : ℕ) : Registry.St n :=
  { s.server with close := s.call i }

/-- The steps of the worker tasks, as against those of `close`. -/
def isTask {n : ℕ} : Registry.Lbl n → Bool
  | .begin _ | .beginErr _ | .insertThread _ | .push _ | .finish _ | .abort _ => true
  | .closeStore | .drainSockets | .drainCloseSockets | .clearThreadSockets | .cancelTasks
  | .clearCallbackTasks => false

inductive Lbl (n : ℕ) where
  | task (l : Registry.Lbl n)
  | call (i : ℕ) (l : Registry.Lbl n)
deriving DecidableEq, Repr

def guard (c : Config) : Lbl c.workers → St c.workers → Prop
  | .task l, s => isTask l = true ∧ Registry.guard c l s.server
  | .call i l, s => isTask l = false ∧ Registry.guard c l (s.seenBy i)

def update {n : ℕ} : Lbl n → St n → St n
  | .task l, s => { s with server := Registry.update l s.server }
  | .call i l, s =>
      { server := Registry.update l (s.seenBy i)
        call := Function.update s.call i (Registry.update l (s.seenBy i)).close }

/-- A server that any number of threads can close. -/
def closes (c : Config) : Lts.Sys (St c.workers) (Lbl c.workers) where
  init := ⟨.initial c, fun _ => .storing⟩
  guard := guard c
  update := update

instance (c : Config) : ∀ l s, Decidable ((closes c).guard l s)
  | .task l, s =>
      inferInstanceAs (Decidable (_ ∧ (Registry.server c).guard l s.server))
  | .call i l, s =>
      inferInstanceAs (Decidable (_ ∧ (Registry.server c).guard l (s.seenBy i)))

variable {c : Config}

/-! ## No call loses a socket -/

/-- A registered socket is shut down, or a call will find it, or its task is about to push
it. Unlike `Registry.Orderly` this says nothing about what is empty. -/
structure Kept {n : ℕ} (s : Registry.St n) : Prop where
  worker : ∀ w, .worker w ∈ s.registered →
    .worker w ∈ s.shutDown ∨ .worker w ∈ s.sockets ∨ s.task w = .pushing
  shared : .shared ∈ s.registered → .shared ∈ s.shutDown ∨ .shared ∈ s.closeSockets

theorem kept_initial : Kept (Registry.St.initial c) :=
  ⟨Registry.orderly_initial.worker, Registry.orderly_initial.shared⟩

theorem kept_task {l : Registry.Lbl c.workers} {s : Registry.St c.workers} (hl : isTask l = true)
    (hg : Registry.guard c l s) (h : Kept s) : Kept (Registry.update l s) := by
  -- before a `close` that has not begun, to be orderly means no more than this
  have horderly : Registry.Orderly { s with close := .storing } := by
    refine ⟨h.worker, h.shared, ?_, ?_, ?_⟩
    all_goals
      intro hrank
      simp [ClosePc.rank] at hrank
  have hstep : Registry.guard c l { s with close := .storing } →
      Registry.InTime l { s with close := .storing } →
      Kept (Registry.update l { s with close := .storing }) := by
    intro hguard hok
    have hnext := Registry.orderly_step hguard hok horderly
    exact ⟨hnext.worker, hnext.shared⟩
  cases l with
  | begin w | beginErr w | push w | finish w | abort w =>
      obtain ⟨hworker, hshared⟩ := hstep hg trivial
      exact ⟨hworker, hshared⟩
  | insertThread w =>
      obtain ⟨hworker, hshared⟩ := hstep hg (Nat.zero_le 1)
      exact ⟨hworker, hshared⟩
  | closeStore | drainSockets | drainCloseSockets | clearThreadSockets | cancelTasks
  | clearCallbackTasks => cases hl

/-- What a call drains it shuts down. -/
theorem kept_call {n : ℕ} {l : Registry.Lbl n} {s : Registry.St n} (hl : isTask l = false)
    (h : Kept s) : Kept (Registry.update l s) := by
  cases l with
  | begin w | beginErr w | insertThread w | push w | finish w | abort w => cases hl
  | drainSockets =>
      constructor
      · intro w hw
        rcases h.worker w hw with hdone | hpool | hpush
        · exact Or.inl (List.mem_append_left _ hdone)
        · exact Or.inl (List.mem_append_right _ hpool)
        · -- the call has come between the two insertions of the task
          exact Or.inr (Or.inr hpush)
      · intro hs
        exact (h.shared hs).imp (List.mem_append_left _) id
  | drainCloseSockets =>
      constructor
      · intro w hw
        exact (h.worker w hw).imp (List.mem_append_left _) id
      · intro hs
        rcases h.shared hs with hdone | hclose
        · exact Or.inl (List.mem_append_left _ hdone)
        · exact Or.inl (List.mem_append_right _ hclose)
  | closeStore | clearThreadSockets | cancelTasks | clearCallbackTasks =>
      exact ⟨h.worker, h.shared⟩

theorem reachable_kept {s : St c.workers} (hs : (closes c).Reachable s) : Kept s.server := by
  refine (closes c).invariant (fun s => Kept s.server) kept_initial ?_ s hs
  intro l s hg h
  cases l with
  | task l => exact kept_task hg.1 hg.2 h
  | call i l =>
      -- how far the call has come makes no difference
      have hseen : Kept (s.seenBy i) := ⟨h.worker, h.shared⟩
      exact kept_call hg.1 hseen

/-! ## Behind a call -/

/-- The task of every worker has registered its socket, or has failed to. -/
def Settled {n : ℕ} (s : Registry.St n) : Prop :=
  ∀ w, s.task w = .serving ∨ s.task w = .ended

/-- What a call at `pc` has emptied. -/
structure Swept {n : ℕ} (pc : ClosePc) (s : Registry.St n) : Prop where
  sockets : 2 ≤ pc.rank → s.sockets = []
  closeSockets : 3 ≤ pc.rank → s.closeSockets = []
  threadSockets : 4 ≤ pc.rank → ∀ t, s.threadSockets t = none

section Swept

variable {n : ℕ} {s : Registry.St n} {pc : ClosePc}

/-- A call has not begun, or only stored the flag. -/
theorem swept_of_rank (hrank : pc.rank ≤ 1) : Swept pc s where
  sockets := by
    intro h
    omega
  closeSockets := by
    intro h
    omega
  threadSockets := by
    intro h
    omega

/-- A step of another call can only empty the registries further. -/
theorem Swept.other (h : Swept pc s) {l : Registry.Lbl n} (hl : isTask l = false) :
    Swept pc (Registry.update l s) := by
  cases l with
  | begin w | beginErr w | insertThread w | push w | finish w | abort w => cases hl
  | drainSockets => exact ⟨fun _ => rfl, h.closeSockets, h.threadSockets⟩
  | drainCloseSockets => exact ⟨h.sockets, fun _ => rfl, h.threadSockets⟩
  | clearThreadSockets => exact ⟨h.sockets, h.closeSockets, fun _ _ => rfl⟩
  | closeStore | cancelTasks | clearCallbackTasks =>
      exact ⟨h.sockets, h.closeSockets, h.threadSockets⟩

/-- Past the last registry a call only goes on. -/
theorem Swept.goOn (h : Swept pc s) (hrank : 4 ≤ pc.rank) (pc' : ClosePc) : Swept pc' s where
  sockets := fun _ => h.sockets (by omega)
  closeSockets := fun _ => h.closeSockets (by omega)
  threadSockets := fun _ => h.threadSockets hrank

end Swept

/-- A call goes on. -/
theorem swept_own {l : Registry.Lbl c.workers} {s : Registry.St c.workers}
    (hl : isTask l = false) (hg : Registry.guard c l s) (h : Swept s.close s) :
    Swept (Registry.update l s).close (Registry.update l s) := by
  have hothers := h.other hl
  cases l with
  | begin w | beginErr w | insertThread w | push w | finish w | abort w => cases hl
  | closeStore => exact swept_of_rank (Nat.le_refl 1)
  | drainSockets =>
      -- two registries are still ahead of the call
      refine ⟨fun _ => rfl, ?_, ?_⟩
      all_goals
        intro hrank
        simp [Registry.update, ClosePc.rank] at hrank
  | drainCloseSockets =>
      rw [show s.close = .drainingCloseSockets from hg] at hothers
      refine ⟨fun _ => hothers.sockets (by decide), fun _ => rfl, ?_⟩
      intro hrank
      simp [Registry.update, ClosePc.rank] at hrank
  | clearThreadSockets =>
      rw [show s.close = .clearingThreadSockets from hg] at hothers
      exact ⟨fun _ => hothers.sockets (by decide), fun _ => hothers.closeSockets (by decide),
        fun _ _ => rfl⟩
  | cancelTasks =>
      rw [show s.close = .cancellingTasks from hg] at hothers
      exact hothers.goOn (by decide) .clearingCallbackTasks
  | clearCallbackTasks =>
      rw [show s.close = .clearingCallbackTasks from hg] at hothers
      exact hothers.goOn (by decide) .returned

/-- A task that has registered can only end. -/
theorem settled_task {l : Registry.Lbl c.workers} {s : Registry.St c.workers}
    (hl : isTask l = true) (hg : Registry.guard c l s) (h : Settled s) :
    ∃ w, Registry.update l s = s.setTask w .ended := by
  have hnot : ∀ w pc, s.task w = pc → pc ≠ .serving → pc ≠ .ended → False := by
    intro w pc hpc hserving hended
    rcases h w with hw | hw
    · exact hserving (hpc.symm.trans hw)
    · exact hended (hpc.symm.trans hw)
  cases l with
  | begin w => exact (hnot w _ hg (by decide) (by decide)).elim
  | beginErr w => exact (hnot w _ hg (by decide) (by decide)).elim
  | insertThread w => exact (hnot w _ hg (by decide) (by decide)).elim
  | push w => exact (hnot w _ hg (by decide) (by decide)).elim
  | finish w | abort w => exact ⟨w, rfl⟩
  | closeStore | drainSockets | drainCloseSockets | clearThreadSockets | cancelTasks
  | clearCallbackTasks => cases hl

/-- No call moves a task. -/
theorem task_call {n : ℕ} {l : Registry.Lbl n} (hl : isTask l = false) (s : Registry.St n) :
    (Registry.update l s).task = s.task := by
  cases l with
  | begin w | beginErr w | insertThread w | push w | finish w | abort w => cases hl
  | closeStore | drainSockets | drainCloseSockets | clearThreadSockets | cancelTasks
  | clearCallbackTasks => rfl

/-- Once all tasks have registered, what the `i`-th call has emptied stays empty. -/
theorem swept_step {i : ℕ} {l : Lbl c.workers} {s : St c.workers} (hg : guard c l s)
    (h : Settled s.server ∧ Swept (s.call i) s.server) :
    Settled (update l s).server ∧ Swept ((update l s).call i) (update l s).server := by
  rcases h with ⟨hsettled, hswept⟩
  cases l with
  | task l =>
      rcases settled_task hg.1 hg.2 hsettled with ⟨w, hend⟩
      simp only [update, hend]
      refine ⟨?_, hswept.sockets, hswept.closeSockets, hswept.threadSockets⟩
      intro v
      rw [Registry.task_setTask]
      split
      · exact Or.inr rfl
      · exact hsettled v
  | call j l =>
      refine ⟨?_, ?_⟩
      · intro w
        simp only [update, task_call hg.1]
        exact hsettled w
      · simp only [update]
        by_cases hij : i = j
        · subst hij
          rw [Function.update_self]
          exact swept_own hg.1 hg.2
            ⟨hswept.sockets, hswept.closeSockets, hswept.threadSockets⟩
        · rw [Function.update_of_ne hij]
          have hseen : Swept (s.call i) (s.seenBy j) :=
            ⟨hswept.sockets, hswept.closeSockets, hswept.threadSockets⟩
          exact hseen.other hg.1

/-- With the registries empty and no task in between, all that was registered is shut down. -/
theorem closed_of_swept {n : ℕ} {s : Registry.St n} (hkept : Kept s) (hsettled : Settled s)
    (hswept : Swept .returned s) : Closed s := by
  have hsockets := hswept.sockets (by decide)
  have hclose := hswept.closeSockets (by decide)
  refine ⟨hsockets, hclose, hswept.threadSockets (by decide), ?_⟩
  intro socket hsocket
  cases socket with
  | worker w =>
      rcases hkept.worker w hsocket with hdone | hpool | hpush
      · exact hdone
      · rw [hsockets] at hpool
        cases hpool
      · rcases hsettled w with hw | hw <;> rw [hpush] at hw <;> cases hw
  | shared =>
      rcases hkept.shared hsocket with hdone | hopen
      · exact hdone
      · rw [hclose] at hopen
        cases hopen

/-! ## A registration behind a call -/

section Late

variable {i : ℕ} {s : St c.workers}

theorem run_step {l : Lbl c.workers} (hg : guard c l s) : (closes c).Run s [l] (update l s) :=
  @Lts.Sys.Run.snoc _ _ (closes c) s [] s l .nil hg

/-- A call goes past the pool. -/
theorem exists_drain (hi : s.call i = .storing) :
    ∃ tr s', (closes c).Run s tr s' ∧ s'.call i = .drainingCloseSockets ∧
      s'.server.task = s.server.task := by
  have hstore := run_step (l := .call i .closeStore) ⟨rfl, hi⟩
  have hdrain := run_step (s := update (.call i .closeStore) s) (l := .call i .drainSockets)
    ⟨rfl, Function.update_self i _ s.call⟩
  exact ⟨_, _, hstore.append hdrain, Function.update_self i _ _, rfl⟩

/-- A task that has not registered can do so now. -/
theorem exists_register {w : Fin c.workers}
    (hw : s.server.task w ≠ .serving ∧ s.server.task w ≠ .ended) :
    ∃ tr s', (closes c).Run s tr s' ∧ s'.call = s.call ∧ .worker w ∈ s'.server.sockets := by
  -- from each place the task comes to the next one, up to its push
  have hpush : ∀ t : St c.workers, t.server.task w = .pushing →
      ∃ tr s', (closes c).Run t tr s' ∧ s'.call = t.call ∧ .worker w ∈ s'.server.sockets := by
    intro t ht
    exact ⟨_, _, run_step (l := .task (.push w)) ⟨rfl, ht⟩, rfl,
      List.mem_append_right _ (List.mem_singleton_self _)⟩
  have hinsert : ∀ t : St c.workers, t.server.task w = .inserting →
      ∃ tr s', (closes c).Run t tr s' ∧ s'.call = t.call ∧ .worker w ∈ s'.server.sockets := by
    intro t ht
    have hstep := run_step (l := .task (.insertThread w)) ⟨rfl, ht⟩
    rcases hpush (update (.task (.insertThread w)) t)
      (Function.update_self w _ t.server.task) with ⟨tr, s', hrun, hcall, hmem⟩
    exact ⟨_, s', hstep.append hrun, hcall, hmem⟩
  cases hpc : s.server.task w with
  | submitted =>
      have hstep := run_step (l := .task (.begin w)) ⟨rfl, hpc⟩
      rcases hinsert (update (.task (.begin w)) s)
        (Function.update_self w _ s.server.task) with ⟨tr, s', hrun, hcall, hmem⟩
      exact ⟨_, s', hstep.append hrun, hcall, hmem⟩
  | inserting => exact hinsert s hpc
  | pushing => exact hpush s hpc
  | serving => exact absurd hpc hw.1
  | ended => exact absurd hpc hw.2

/-- A call that is past the pool returns, and leaves the pool as it is. -/
theorem exists_return (hi : s.call i = .drainingCloseSockets) :
    ∃ tr s', (closes c).Run s tr s' ∧ s'.call i = .returned ∧
      s'.server.sockets = s.server.sockets := by
  have hclose := run_step (l := .call i .drainCloseSockets) ⟨rfl, hi⟩
  have hthreads := hclose.append (run_step (l := .call i .clearThreadSockets)
    ⟨rfl, Function.update_self i _ s.call⟩)
  have hcancel := hthreads.append (run_step (l := .call i .cancelTasks)
    ⟨rfl, Function.update_self i _ _⟩)
  have hclear := hcancel.append (run_step (l := .call i .clearCallbackTasks)
    ⟨rfl, Function.update_self i _ _⟩)
  exact ⟨_, _, hclear, Function.update_self i _ _, rfl⟩

/-- A task that has not registered when `close` is called can do so behind it. If an earlier call
has cancelled it, this is so as long as its worker has not come to the cancellation. -/
theorem exists_late (hi : s.call i = .storing) {w : Fin c.workers}
    (hw : s.server.task w ≠ .serving ∧ s.server.task w ≠ .ended) :
    ∃ tr s', (closes c).Run s tr s' ∧ s'.call i = .returned ∧
      .worker w ∈ s'.server.sockets := by
  rcases exists_drain hi with ⟨tr, t, hdrain, hcall, htask⟩
  rw [← htask] at hw
  rcases exists_register hw with ⟨tr', t', hregister, hsame, hmem⟩
  rw [← hsame] at hcall
  rcases exists_return hcall with ⟨tr'', s', hreturn, hreturned, hsockets⟩
  rw [← hsockets] at hmem
  exact ⟨_, s', (hdrain.append hregister).append hreturn, hreturned, hmem⟩

end Late

/-! ## What a call achieves -/

/-- What a call of `close` achieves, among any number of other calls, before it, after it and at
the same time: it is certain to leave no socket behind, at its return and for good, exactly if the
tasks of all workers have registered when it is made. So a server can be closed again to shut down
the sockets that an early `close` has lost. -/
theorem close_leaves_nothing_iff (c : Config) {s : St c.workers} (hs : (closes c).Reachable s)
    {i : ℕ} (hi : s.call i = .storing) :
    (∀ tr s', (closes c).Run s tr s' → s'.call i = .returned → Closed s'.server) ↔
      ∀ w, s.server.task w = .serving ∨ s.server.task w = .ended := by
  constructor
  · intro hclosed w
    by_contra hw
    rcases exists_late hi (not_or.mp hw) with ⟨tr, s', hrun, hreturned, hmem⟩
    rw [(hclosed tr s' hrun hreturned).1] at hmem
    cases hmem
  · intro hsettled tr s' hrun hreturned
    have hs' : (closes c).Reachable s' := hs.run hrun
    have hinv := hrun.preserves (fun t => Settled t.server ∧ Swept (t.call i) t.server)
      ⟨hsettled, swept_of_rank (by rw [hi]; decide)⟩ (fun _ _ hg h => swept_step hg h)
    rw [hreturned] at hinv
    exact closed_of_swept (reachable_kept hs') hinv.1 hinv.2

/-- A `close` that comes too early, for a worker of `serve_socket`, and a second one that mends
it. -/
theorem close_leaves_nothing_iff_again :
    ∃ s, (closes ⟨.serveSocket, 1, false⟩).Reachable s ∧ s.call 0 = .returned ∧
      ¬ Closed s.server ∧ ∀ tr s', (closes ⟨.serveSocket, 1, false⟩).Run s tr s' →
        s'.call 1 = .returned → Closed s'.server := by
  have hexec := (closes ⟨.serveSocket, 1, false⟩).exists_run_of_exec
    [.call 0 .closeStore, .call 0 .drainSockets, .task (.begin 0), .task (.insertThread 0),
      .task (.push 0), .call 0 .drainCloseSockets, .call 0 .clearThreadSockets,
      .call 0 .cancelTasks, .call 0 .clearCallbackTasks]
    (fun s => s.call 0 = .returned ∧ ¬ Closed s.server ∧ s.call 1 = .storing ∧
      ∀ w, s.server.task w = .serving ∨ s.server.task w = .ended)
    (by decide)
  rcases hexec with ⟨s, hrun, hreturned, hopen, hi, hsettled⟩
  have hs : (closes ⟨.serveSocket, 1, false⟩).Reachable s := ⟨_, hrun⟩
  exact ⟨s, hs, hreturned, hopen, (close_leaves_nothing_iff _ hs hi).mpr hsettled⟩

end CloseCalls

end ReusePort
