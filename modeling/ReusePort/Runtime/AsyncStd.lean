import ReusePort.Runtime.Tokio

/-!
# ReusePort.Runtime.AsyncStd — cancellation on the async-std backend

On this backend (`runtime/async_std.rs`) `spawn_task` has two ways. On the worker's
own thread it makes the future and spawns it locally; the handle owns the join handle
of that local task. On any other thread it gives the executor a relay: a future that,
once the worker polls it, makes the submitted future, spawns it locally, and drops the
local handle, which detaches the task. The caller's handle owns the relay only.

Two things are assumed of the crates below: dropping an `async_executor::Task` cancels
the future that it runs, and nothing else; awaiting `JoinHandle::cancel` ends when the
task's future is dropped or complete, while dropping a `JoinHandle` detaches the task.

The cancellation of a local task is one step here. The call itself blocks its thread until
the worker has dropped the future: made on the worker's own thread, it blocks the worker
that it waits for, and never returns. The future is not polled again then either, but
nothing else on that worker is; the step stands for calls from other threads.

* `submission` — one call of `spawn_task`, from the call to the end of the future;
* `InTime` — the handle still stands for the submitted future;
* `cancel_stops_iff` — the tokio backend stops what it cancels, this one if and only
  if the cancellation is in time.
-/

namespace ReusePort

namespace AsyncStd

/-! ## A submission -/

/-- `TaskHandleInner`. -/
inductive TaskHandle where
  | executor
  | local
deriving DecidableEq, Repr

/-- The relay of a submission from another thread. Its one poll runs the factory and
`local_spawn_task`, and cannot be interrupted. -/
inductive RelayPc where
  | none
  | queued
  | running
  | finished
  | dropped
deriving DecidableEq, Repr

/-- The submitted future: not yet made by its factory, spawned as a local task, ended
by itself, or dropped by a cancellation. -/
inductive FuturePc where
  | unmade
  | pending
  | completed
  | dropped
deriving DecidableEq, Repr

/-- One call of `spawn_task`: its handle until that is consumed, and what the worker
has of it. `result` is what the call has returned. -/
structure Submission where
  result : Option (Except IoError TaskHandle)
  handle : Option TaskHandle
  relay : RelayPc
  future : FuturePc
deriving DecidableEq, Repr

/-- The worker: its thread, and whether it still runs the executor. -/
structure Worker where
  ownerThread : ℕ
  running : Bool
deriving DecidableEq, Repr

/-- `local_spawn_task`, called on a thread. -/
def localSpawnTask (worker : Worker) (thread : ℕ) : Except IoError TaskHandle :=
  if thread ≠ worker.ownerThread then
    .error ⟨.invalidInput, "local task must be spawned on the executor owner thread"⟩
  else .ok .local

/-- `spawn_task`, called on a thread. -/
def spawnTask (worker : Worker) (thread : ℕ) : Except IoError TaskHandle :=
  if thread = worker.ownerThread then localSpawnTask worker thread
  else .ok .executor

/-- The steps of a submission: the call, the poll of the relay from its beginning to its
end, a poll of the future that leaves it pending or ends it, and the two ways to
consume the handle. -/
inductive Lbl where
  | spawnTask (thread : ℕ)
  | relayStart
  | relayEnd
  | poll
  | finish
  | cancel
  | dropHandle
deriving DecidableEq, Repr

inductive WorkerLbl where
  | shutdown
deriving DecidableEq, Repr

/-- A poll that has begun comes to its end, also during a shutdown. -/
def guard : Lbl → Worker → Submission → Prop
  | .spawnTask _, _, k => k.result = none
  | .relayStart, g, k => g.running = true ∧ k.relay = .queued
  | .relayEnd, _, k => k.relay = .running
  | .poll, g, k => g.running = true ∧ k.future = .pending
  | .finish, g, k => g.running = true ∧ k.future = .pending
  | .cancel, _, k => k.handle ≠ none
  | .dropHandle, _, k => k.handle ≠ none

/-- `TaskHandle::cancel`. Dropping the relay's `Task` before its poll drops the relay;
later it does nothing. -/
def Submission.cancel (k : Submission) : Submission :=
  match k.handle with
  | some .executor =>
      { k with handle := none, relay := if k.relay = .queued then .dropped else k.relay }
  | some .local =>
      { k with handle := none, future := if k.future = .pending then .dropped else k.future }
  | none => k

/-- What the steps do. The worker polls the relay on its own thread. -/
def update : Lbl → Worker → Submission → Submission
  | .spawnTask thread, g, k =>
      let k := { k with result := some (spawnTask g thread) }
      match spawnTask g thread with
      | .ok .local => { k with handle := some .local, future := .pending }
      | .ok .executor => { k with handle := some .executor, relay := .queued }
      | .error _ => k
  | .relayStart, _, k => { k with relay := .running }
  | .relayEnd, g, k =>
      match localSpawnTask g g.ownerThread with
      | .ok _ => { k with relay := .finished, future := .pending }
      | .error _ => { k with relay := .finished }
  | .poll, _, k => k
  | .finish, _, k => { k with future := .completed }
  | .cancel, _, k => k.cancel
  | .dropHandle, _, k => { k with handle := none }

instance : ∀ l g k, Decidable (guard l g k)
  | .spawnTask _, _, k => inferInstanceAs (Decidable (k.result = none))
  | .relayStart, _, _ => inferInstanceAs (Decidable (_ ∧ _))
  | .relayEnd, _, _ => inferInstanceAs (Decidable (_ = _))
  | .poll, _, _ => inferInstanceAs (Decidable (_ ∧ _))
  | .finish, _, _ => inferInstanceAs (Decidable (_ ∧ _))
  | .cancel, _, k => inferInstanceAs (Decidable (k.handle ≠ none))
  | .dropHandle, _, k => inferInstanceAs (Decidable (k.handle ≠ none))

/-- A submission to a worker with the given thread; the worker's own step is the end of
`park_until_shutdown`, after which nothing is polled. -/
def submission (ownerThread : ℕ) : Lts.Proc Worker Submission WorkerLbl Lbl where
  env := ⟨ownerThread, true⟩
  start := ⟨none, none, .none, .unmade⟩
  envGuard | .shutdown, g => g.running = true
  envUpdate | .shutdown, g => { g with running := false }
  guard := guard
  update := update

instance (ownerThread : ℕ) : ∀ e g, Decidable ((submission ownerThread).envGuard e g)
  | .shutdown, g => inferInstanceAs (Decidable (g.running = true))

instance (ownerThread : ℕ) : ∀ l g k, Decidable ((submission ownerThread).guard l g k) :=
  fun l g k => inferInstanceAs (Decidable (guard l g k))

/-- Any number of submissions to one worker. -/
def worker (ownerThread n : ℕ) : Lts.Sys (Lts.Fleet Worker Submission)
    (Lts.FleetLbl WorkerLbl Lbl) :=
  (submission ownerThread).fleet n

instance (ownerThread n : ℕ) : ∀ l s, Decidable ((worker ownerThread n).guard l s) :=
  fun l s => inferInstanceAs (Decidable (((submission ownerThread).fleet n).guard l s))

/-! ## Handle, relay and future -/

/-- What the places of the handle, the relay and the future say of each other. -/
structure Coherent (k : Submission) : Prop where
  idle : k.result = none → k.handle = none ∧ k.relay = .none ∧ k.future = .unmade
  executor : k.handle = some .executor →
    k.relay = .queued ∨ k.relay = .running ∨ k.relay = .finished
  relayed : k.handle = some .local → k.relay = .none
  unmade : k.relay = .queued ∨ k.relay = .running → k.future = .unmade
  detached : k.relay = .finished → k.future = .pending ∨ k.future = .completed

theorem coherent_start (ownerThread : ℕ) : Coherent (submission ownerThread).start := by
  constructor <;> simp [submission]

theorem spawnTask_cases (g : Worker) (thread : ℕ) :
    spawnTask g thread = .ok .local ∨ spawnTask g thread = .ok .executor := by
  unfold spawnTask localSpawnTask
  by_cases h : thread = g.ownerThread
  · simp [h]
  · simp [h]

/-- The relay runs on the worker's thread, so its `local_spawn_task` succeeds. -/
theorem localSpawnTask_owner (g : Worker) : localSpawnTask g g.ownerThread = .ok .local := by
  simp [localSpawnTask]

theorem coherent_cancel {k : Submission} (h : Coherent k) : Coherent k.cancel := by
  unfold Submission.cancel
  split
  · rename_i hhandle
    have hrelay := h.executor hhandle
    have hresult : k.result ≠ none := fun hres => by simp [(h.idle hres).1] at hhandle
    constructor <;> rcases hrelay with hr | hr | hr <;>
      simp [hr, hresult, h.unmade, h.detached]
  · rename_i hhandle
    have hrelay := h.relayed hhandle
    have hresult : k.result ≠ none := fun hres => by simp [(h.idle hres).1] at hhandle
    constructor <;> simp [hrelay, hresult]
  · exact h

theorem coherent_step (l : Lbl) (g : Worker) (k : Submission) (hg : guard l g k)
    (h : Coherent k) : Coherent (update l g k) := by
  cases l with
  | spawnTask thread =>
      obtain ⟨hhandle, hrelay, hfuture⟩ := h.idle hg
      rcases spawnTask_cases g thread with hres | hres
      · constructor <;> simp [update, hres, hrelay]
      · constructor <;> simp [update, hres, hfuture]
  | relayStart =>
      have hfuture := h.unmade (Or.inl hg.2)
      have hresult : k.result ≠ none := fun hres => by simp [guard, (h.idle hres).2.1] at hg
      have hlocal : k.handle ≠ some .local := fun hh => by simp [guard, h.relayed hh] at hg
      constructor <;> simp [update, hfuture, hresult, hlocal]
  | relayEnd =>
      have hresult : k.result ≠ none := fun hres => by simp [guard, (h.idle hres).2.1] at hg
      have hlocal : k.handle ≠ some .local := fun hh => by simp [guard, h.relayed hh] at hg
      constructor <;> simp [update, localSpawnTask_owner, hresult, hlocal]
  | poll => exact h
  | finish =>
      have hresult : k.result ≠ none := fun hres => by simp [guard, (h.idle hres).2.2] at hg
      have hrelay : ¬ (k.relay = .queued ∨ k.relay = .running) := by
        intro hr
        simp [guard, h.unmade hr] at hg
      exact ⟨fun hres => absurd hres hresult, h.executor, h.relayed,
        fun hr => absurd hr hrelay, fun _ => Or.inr rfl⟩
  | cancel => exact coherent_cancel h
  | dropHandle =>
      exact ⟨fun hres => ⟨rfl, (h.idle hres).2⟩, by simp [update], by simp [update],
        h.unmade, h.detached⟩

theorem reachable_coherent {ownerThread n : ℕ} {s : Lts.Fleet Worker Submission}
    (hs : (worker ownerThread n).Reachable s) (w : ℕ) : Coherent (s.proc w) :=
  Lts.Proc.invariant (fun _ k => Coherent k) (coherent_start ownerThread)
    (fun _ _ _ _ h => h) coherent_step hs w

/-! ## After a cancellation -/

/-- The step polls the submitted future. -/
def Polls : Lbl → Prop
  | .poll | .finish => True
  | _ => False

/-- The handle still stands for the future: it is the future's own, or the relay has not
been polled. Besides, there may be nothing left to stop. -/
def InTime (g : Worker) (k : Submission) : Prop :=
  k.handle = some .local ∨ k.relay = .queued ∨ k.future = .completed ∨ g.running = false

/-- The future is not pending and nothing can make it so, or nobody polls any more. -/
structure Over (g : Worker) (k : Submission) : Prop where
  called : k.result ≠ none
  idle : g.running = false ∨
    k.future ≠ .pending ∧ k.relay ≠ .queued ∧ k.relay ≠ .running

theorem Over.not_polls {l : Lbl} {g : Worker} {k : Submission} (hg : guard l g k)
    (h : Over g k) : ¬ Polls l := by
  have hno : ¬ (g.running = true ∧ k.future = .pending) := by
    rintro ⟨hrun, hpending⟩
    rcases h.idle with hstop | ⟨hne, -⟩
    · simp [hrun] at hstop
    · exact hne hpending
  cases l <;> simp only [Polls, not_false_eq_true, not_true_eq_false]
  case poll => exact hno hg
  case finish => exact hno hg

theorem Over.step (l : Lbl) (g : Worker) (k : Submission) (hg : guard l g k) (h : Over g k) :
    Over g (update l g k) := by
  have hpolls := h.not_polls hg
  cases l with
  | spawnTask thread => exact absurd hg h.called
  | relayStart =>
      refine ⟨h.called, h.idle.imp_right ?_⟩
      rintro ⟨-, hqueued, -⟩
      exact absurd hg.2 hqueued
  | relayEnd =>
      refine ⟨by simpa [update, localSpawnTask_owner] using h.called, h.idle.imp_right ?_⟩
      rintro ⟨-, -, hrunning⟩
      exact absurd hg hrunning
  | poll => exact absurd trivial hpolls
  | finish => exact absurd trivial hpolls
  | cancel =>
      constructor
      · simp only [update, Submission.cancel]
        split <;> exact h.called
      · refine h.idle.imp_right ?_
        rintro ⟨hpending, hqueued, hrunning⟩
        simp only [update, Submission.cancel]
        split <;> simp [hpending, hqueued, hrunning]
  | dropHandle => exact ⟨h.called, h.idle⟩

/-- A cancellation in time is the end of the submission. -/
theorem over_of_inTime {g : Worker} {k : Submission} (h : Coherent k)
    (hg : guard .cancel g k) (hin : InTime g k) : Over g (update .cancel g k) := by
  have hresult : k.result ≠ none := fun hres => hg (h.idle hres).1
  constructor
  · simp only [update, Submission.cancel]
    split <;> exact hresult
  · cases hhandle : k.handle with
    | none => exact absurd hhandle hg
    | some handle =>
        cases handle with
        | «local» =>
            have hrelay := h.relayed hhandle
            refine Or.inr ?_
            simp only [update, Submission.cancel, hhandle, hrelay]
            split <;> simp_all
        | executor =>
            rcases hin with hlocal | hqueued | hdone | hstop
            · simp [hhandle] at hlocal
            · -- the relay is dropped before it has made the future
              have hfuture := h.unmade (Or.inl hqueued)
              exact Or.inr (by simp [update, Submission.cancel, hhandle, hqueued, hfuture])
            · have hqueued : k.relay ≠ .queued := fun hr => by
                simp [h.unmade (Or.inl hr)] at hdone
              have hrunning : k.relay ≠ .running := fun hr => by
                simp [h.unmade (Or.inr hr)] at hdone
              exact Or.inr (by simp [update, Submission.cancel, hhandle, hqueued, hrunning, hdone])
            · exact Or.inl hstop

/-- A late cancellation drops a relay that has been polled: the future is pending, or
will be at the end of the relay's poll. -/
theorem relay_of_late {g : Worker} {k : Submission} (h : Coherent k) (hg : guard .cancel g k)
    (hlate : ¬ InTime g k) :
    g.running = true ∧ (update .cancel g k = { k with handle := none }) ∧
      (k.relay = .running ∨ k.future = .pending) := by
  simp only [InTime, not_or] at hlate
  obtain ⟨hlocal, hqueued, hdone, hstop⟩ := hlate
  have hhandle : k.handle = some .executor := by
    cases hh : k.handle with
    | none => exact absurd hh hg
    | some handle =>
        cases handle with
        | executor => rfl
        | «local» => exact absurd hh hlocal
  refine ⟨by simpa using hstop, by simp [update, Submission.cancel, hhandle, hqueued], ?_⟩
  rcases h.executor hhandle with hr | hr | hr
  · exact absurd hr hqueued
  · exact Or.inl hr
  · rcases h.detached hr with hf | hf
    · exact Or.inr hf
    · exact absurd hf hdone

/-- After a late cancellation some run polls the future. -/
theorem polled_of_late {ownerThread n w : ℕ} {s : Lts.Fleet Worker Submission}
    (hs : (worker ownerThread n).Reachable s)
    (hg : (worker ownerThread n).guard (.proc w .cancel) s)
    (hlate : ¬ InTime s.env (s.proc w)) :
    ∃ tr s', (worker ownerThread n).Run ((worker ownerThread n).update (.proc w .cancel) s) tr s' ∧
      .proc w .poll ∈ tr := by
  obtain ⟨hw, hguard⟩ := hg
  obtain ⟨hrun, hcancel, hplace⟩ := relay_of_late (reachable_coherent hs w) hguard hlate
  have hproc : ((worker ownerThread n).update (.proc w .cancel) s).proc w =
      { s.proc w with handle := none } := by
    rw [← hcancel]
    exact Function.update_self _ _ _
  have henv : ((worker ownerThread n).update (.proc w .cancel) s).env = s.env := rfl
  generalize (worker ownerThread n).update (.proc w .cancel) s = t at hproc henv
  rcases hplace with hrelay | hpending
  · -- the relay's poll goes on, and its end makes the future pending
    have hend : (worker ownerThread n).guard (.proc w .relayEnd) t :=
      ⟨hw, by rw [hproc]; exact hrelay⟩
    have hpoll : (worker ownerThread n).guard (.proc w .poll)
        ((worker ownerThread n).update (.proc w .relayEnd) t) := by
      refine ⟨hw, henv ▸ hrun, ?_⟩
      have hafter : ((worker ownerThread n).update (.proc w .relayEnd) t).proc w =
          update .relayEnd t.env (t.proc w) := Function.update_self _ _ _
      rw [hafter]
      simp [update, localSpawnTask_owner]
    exact ⟨_, _, .snoc _ (.snoc _ .nil hend) hpoll, by simp⟩
  · have hpoll : (worker ownerThread n).guard (.proc w .poll) t :=
      ⟨hw, henv ▸ hrun, by rw [hproc]; exact hpending⟩
    exact ⟨_, _, .snoc _ .nil hpoll, by simp⟩

/-! ## The two backends -/

/-- Cancellation on the two backends. On tokio, once the loop has carried out the
`Cancel` of a task's id, no run polls the task again. On async-std, once
`TaskHandle::cancel` has been carried out, no run polls the submitted future again if
and only if the cancellation was in time: a task submitted from another thread must be
cancelled before the worker polls its relay, unless it is complete by then. -/
theorem cancel_stops_iff (ownerThread n : ℕ) :
    (∀ (s : Tokio.St) (id : UInt64) (task : ℕ), Tokio.worker.Reachable s →
      s.issued.length < 2 ^ 64 → Tokio.guard (.receive (.cancel id)) s →
      .spawn id task ∈ s.received →
      ∀ tr s', Tokio.worker.Run (Tokio.update (.receive (.cancel id)) s) tr s' →
        ∀ l ∈ tr, ¬ Tokio.Polls task l) ∧
    (∀ (w : ℕ) (s : Lts.Fleet Worker Submission),
      (worker ownerThread n).Reachable s →
      (worker ownerThread n).guard (.proc w .cancel) s →
      ((∀ tr s', (worker ownerThread n).Run
          ((worker ownerThread n).update (.proc w .cancel) s) tr s' →
          ∀ l, .proc w l ∈ tr → ¬ Polls l) ↔
        InTime s.env (s.proc w))) := by
  constructor
  · intro s id task hs hcount hg hspawn tr s' hrun
    exact Tokio.cancelled_not_polled hs hcount hg hspawn hrun
  · intro w s hs hg
    constructor
    · intro hstops
      by_contra hlate
      obtain ⟨tr, s', hrun, hmem⟩ := polled_of_late hs hg hlate
      exact hstops tr s' hrun .poll hmem trivial
    · intro hin tr s' hrun
      have hover := over_of_inTime (reachable_coherent hs w) hg.2 hin
      have hafter : ((worker ownerThread n).update (.proc w .cancel) s).proc w =
          update .cancel s.env (s.proc w) := Function.update_self _ _ _
      refine Lts.Proc.avoids hrun w Over Polls ?_ ?_ Over.step
        (fun _ _ _ hg h => h.not_polls hg)
      · rw [hafter]
        exact hover
      · intro e g k _ h
        exact ⟨h.called, Or.inl rfl⟩

/-- A future that is polled after its cancellation: submitted from thread 1 to the worker
on thread 0, which has run the relay when the handle is cancelled. -/
theorem polled_after_cancel :
    ∃ s, (worker 0 1).Run (worker 0 1).init
        [.proc 0 (.spawnTask 1), .proc 0 .relayStart, .proc 0 .relayEnd, .proc 0 .poll,
          .proc 0 .cancel, .proc 0 .poll] s ∧
      (s.proc 0).result = some (.ok .executor) ∧ (s.proc 0).future = .pending :=
  (worker 0 1).exists_run_of_exec _
    (fun s => (s.proc 0).result = some (.ok .executor) ∧ (s.proc 0).future = .pending)
    (by decide)

/-- In time: on tokio the `Cancel` of a polled task is at the head of the queue; on
async-std a remote submission is cancelled while its relay is queued. -/
theorem cancel_stops_iff_instances :
    (∃ s, Tokio.worker.Run Tokio.worker.init
        [.take 0, .send 0 1 0, .receive (.spawn 1 0), .poll 0 1, .cancel ⟨1⟩] s ∧
      ∀ tr s', Tokio.worker.Run (Tokio.update (.receive (.cancel 1)) s) tr s' →
        ∀ l ∈ tr, ¬ Tokio.Polls 0 l) ∧
    ∃ s, (worker 0 1).Run (worker 0 1).init [.proc 0 (.spawnTask 1)] s ∧
      InTime s.env (s.proc 0) ∧
      ∀ tr s', (worker 0 1).Run ((worker 0 1).update (.proc 0 .cancel) s) tr s' →
        ∀ l, .proc 0 l ∈ tr → ¬ Polls l := by
  constructor
  · obtain ⟨s, hrun, hissued, hreceived, hguard⟩ := Tokio.worker.exists_run_of_exec
      [.take 0, .send 0 1 0, .receive (.spawn 1 0), .poll 0 1, .cancel ⟨1⟩]
      (fun s => s.issued = [1] ∧ s.received = [.spawn 1 0] ∧
        Tokio.guard (.receive (.cancel 1)) s) (by decide)
    refine ⟨s, hrun, (cancel_stops_iff 0 1).1 s 1 0 ⟨_, hrun⟩ ?_ hguard ?_⟩
    · rw [hissued]
      decide
    · simp [hreceived]
  · obtain ⟨s, hrun, hhandle, hrelay⟩ := (worker 0 1).exists_run_of_exec
      [.proc 0 (.spawnTask 1)]
      (fun s => (s.proc 0).handle ≠ none ∧ (s.proc 0).relay = .queued) (by decide)
    have hin : InTime s.env (s.proc 0) := Or.inr (Or.inl hrelay)
    have hguard : (worker 0 1).guard (.proc 0 .cancel) s := ⟨Nat.one_pos, hhandle⟩
    exact ⟨s, hrun, hin, ((cancel_stops_iff 0 1).2 0 s ⟨_, hrun⟩ hguard).mpr hin⟩

end AsyncStd

end ReusePort
