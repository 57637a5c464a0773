import ReusePort.Lts
import Mathlib.Data.List.Basic

/-!
# ReusePort.Core.RuntimeDrop — who drops the runtime

`ServerRuntime` (`core/server_runtime.rs`) is a handle to an `Arc`, and its clones can be
moved into tasks and captured by handlers. The thread that drops the last clone runs the
destructor: `ServerRuntimeInner` clears `active` and drops its `WorkerHandle`s one after
the other, and each of them sends `Shutdown` to its worker and joins its thread.

The model follows every clone. Callers hold clones in variables; a task holds what was
moved into its closure and is dropped on the thread of its worker, whether it completes,
is cancelled or is still queued when the executor ends; a handler is shared by the tasks
of its server and goes with the last of them. A server handle holds no clone: dropping it
leaves the tasks alone, and its `close` cancels them.

* `Gone` — no clone is left; `dropping_gone`: the destructor runs only then, and once;
* `over_step` — the thread that runs it stays the same;
* `reach_handle` — it comes to the handle of every worker, up to its own;
* `selfJoin_iff` — when a thread joins itself.
-/

namespace ReusePort.RuntimeDrop

/-! ## The state -/

/-- The threads: those of the application, and the workers. -/
inductive Thread where
  | caller (c : ℕ)
  | worker (w : ℕ)
deriving DecidableEq, Repr

/-- A task that was given to an executor, queued or running: its worker, the clones in
its closure, the handler it refers to. -/
structure Task where
  worker : ℕ
  clones : ℕ
  handler : Option ℕ
  alive : Bool
deriving DecidableEq, Repr

/-- The destructor of `ServerRuntimeInner`: the thread it runs on, the worker handle it
has come to, and whether that has sent `Shutdown` and is joining. -/
structure Dropping where
  thread : Thread
  worker : ℕ
  joining : Bool
deriving DecidableEq, Repr

/-- The clones of every caller thread, the tasks, the clones captured by each handler,
`next_worker`, the destructor, and the workers whose threads have ended. -/
structure St where
  callers : List ℕ
  tasks : List Task
  handlers : List ℕ
  nextWorker : UInt64
  dropping : Option Dropping
  exited : List ℕ
deriving DecidableEq, Repr

/-- What can hold a clone. -/
inductive Owner where
  | caller (c : ℕ)
  | task (t : ℕ)
  | handler (h : ℕ)
deriving DecidableEq, Repr

/-- `ServerRuntime::start` has returned to the first of `callers + 1` threads. -/
def initial (callers : ℕ) : St where
  callers := 1 :: List.replicate callers 0
  tasks := []
  handlers := []
  nextWorker := 0
  dropping := none
  exited := []

/-- The clones that an owner holds. -/
def St.held (s : St) : Owner → ℕ
  | .caller c => s.callers[c]?.getD 0
  | .task t => (s.tasks[t]?.map Task.clones).getD 0
  | .handler h => s.handlers[h]?.getD 0

/-- Change the number of clones that an owner holds. -/
def St.hold (s : St) (f : ℕ → ℕ) : Owner → St
  | .caller c => { s with callers := s.callers.modify c f }
  | .task t =>
      { s with tasks := s.tasks.modify t fun task => { task with clones := f task.clones } }
  | .handler h => { s with handlers := s.handlers.modify h f }

/-- No clone is left: the strong count of the `Arc` is zero. -/
def St.Gone (s : St) : Prop :=
  (∀ c ∈ s.callers, c = 0) ∧ (∀ task ∈ s.tasks, task.clones = 0) ∧ ∀ c ∈ s.handlers, c = 0

instance (s : St) : Decidable s.Gone := inferInstanceAs (Decidable (_ ∧ _ ∧ _))

/-- The thread on which an owner's code runs, if it still can. A handler's code runs in
the tasks that refer to it. -/
def St.threadOf (s : St) : Owner → Option Thread
  | .caller c => if c < s.callers.length then some (.caller c) else none
  | .task t => (s.tasks[t]?.filter Task.alive).map fun task => .worker task.worker
  | .handler _ => none

/-! ## The steps -/

inductive Lbl where
  /-- `ServerRuntime::clone`; the clone is handed to `into`. -/
  | clone (owner into : Owner)
  /-- `spawn_task`, with `clones` of the owner's moved into the closure. -/
  | spawnTask (owner : Owner) (clones : ℕ)
  /-- A server is started: a handler with `clones` of the owner's, a task on every
  worker. -/
  | serve (owner : Owner) (clones : ℕ)
  /-- A task of a server spawns a task for its handler, on its own worker. -/
  | invoke (t : ℕ)
  /-- A clone is dropped by the code that owns it. -/
  | drop (owner : Owner)
  /-- A task ends, by itself, by `cancel`, `close` or with its executor. -/
  | finish (t : ℕ)
  /-- `WorkerHandle::drop` of a worker begins, on a thread. -/
  | dropHandle (thread : Thread) (w : ℕ)
  /-- The thread of a worker ends after `Shutdown`. -/
  | exit (w : ℕ)
  /-- `join` returns. -/
  | joined (thread : Thread) (w : ℕ)
deriving DecidableEq, Repr

/-- The worker that `spawn_task` chooses: the caller's own, or the next in turn. -/
def St.spawnWorker (s : St) (n : ℕ) (owner : Owner) : ℕ :=
  match s.threadOf owner with
  | some (.worker w) => w
  | _ => s.nextWorker.toNat % n

/-- The handler that a task refers to goes with the last task that does. -/
def St.releaseHandler (s : St) : Option ℕ → St
  | none => s
  | some h =>
      if s.tasks.any fun task => task.alive && task.handler == some h then s
      else { s with handlers := s.handlers.set h 0 }

/-- The task ends: its clones are dropped, and its reference to the handler. -/
def St.endTask (s : St) (t : ℕ) (task : Task) : St :=
  St.releaseHandler { s with
    tasks := s.tasks.set t { task with clones := 0, alive := false } } task.handler

/-- After the step to `s'` on `thread`: if the last clone is gone, the destructor runs
there. -/
def St.release (thread : Thread) (s s' : St) : St :=
  if ¬ s.Gone ∧ s'.Gone then { s' with dropping := some ⟨thread, 0, false⟩ } else s'

def guard (n : ℕ) : Lbl → St → Prop
  | .clone owner into, s => 0 < s.held owner ∧ (s.threadOf into).isSome
  | .spawnTask owner clones, s => clones < s.held owner ∧ (s.threadOf owner).isSome ∧ 0 < n
  | .serve owner clones, s => clones < s.held owner ∧ (s.threadOf owner).isSome
  | .invoke t, s => (s.tasks[t]?.map Task.alive) = some true
  | .drop owner, s => 0 < s.held owner ∧ (s.threadOf owner).isSome
  | .finish t, s => (s.tasks[t]?.map Task.alive) = some true
  | .dropHandle thread w, s => w < n ∧ s.dropping = some ⟨thread, w, false⟩
  | .exit w, s => ∃ d ∈ s.dropping, d.thread ≠ .worker w ∧
      (w < d.worker ∨ w = d.worker ∧ d.joining = true)
  | .joined thread w, s => s.dropping = some ⟨thread, w, true⟩ ∧ w ∈ s.exited

instance (n : ℕ) (l : Lbl) (s : St) : Decidable (guard n l s) := by
  cases l <;> unfold guard <;> infer_instance

def update (n : ℕ) : Lbl → St → St
  | .clone _ into, s => s.hold (· + 1) into
  | .spawnTask owner clones, s =>
      let s' := s.hold (· - clones) owner
      let own := match s.threadOf owner with
        | some (.worker _) => true
        | _ => false
      { s' with
        tasks := s'.tasks ++ [⟨s.spawnWorker n owner, clones, none, true⟩]
        nextWorker := if own then s.nextWorker else s.nextWorker + 1 }
  | .serve owner clones, s =>
      let s' := s.hold (· - clones) owner
      { s' with
        handlers := s'.handlers ++ [clones]
        tasks := s'.tasks ++ (List.range n).map fun w =>
          ⟨w, 0, some s.handlers.length, true⟩ }
  | .invoke t, s =>
      match s.tasks[t]? with
      | some task => { s with tasks := s.tasks ++ [⟨task.worker, 0, task.handler, true⟩] }
      | none => s
  | .drop owner, s =>
      match s.threadOf owner with
      | some thread => s.release thread (s.hold (· - 1) owner)
      | none => s
  | .finish t, s =>
      match s.tasks[t]? with
      | some task => s.release (.worker task.worker) (s.endTask t task)
      | none => s
  | .dropHandle thread w, s => { s with dropping := some ⟨thread, w, true⟩ }
  | .exit w, s => { s with exited := w :: s.exited }
  | .joined thread w, s => { s with dropping := some ⟨thread, w + 1, false⟩ }

/-- A runtime with `n` workers and `callers + 1` threads of the application. -/
def runtime (n callers : ℕ) : Lts.Sys St Lbl where
  init := initial callers
  guard := guard n
  update := update n

instance (n callers : ℕ) (l : Lbl) (s : St) : Decidable ((runtime n callers).guard l s) :=
  inferInstanceAs (Decidable (guard n l s))

/-- A thread runs `WorkerHandle::drop` of its own worker, and so joins itself. -/
def SelfJoin : Lbl → Prop
  | .dropHandle thread w => thread = .worker w
  | _ => False

/-! ## The last clone -/

theorem St.Gone.held {s : St} (h : s.Gone) (owner : Owner) : s.held owner = 0 := by
  obtain ⟨hcallers, htasks, hhandlers⟩ := h
  cases owner with
  | caller c =>
      show s.callers[c]?.getD 0 = 0
      cases hget : s.callers[c]? with
      | none => rfl
      | some k => exact hcallers k (List.mem_of_getElem? hget)
  | task t =>
      show (s.tasks[t]?.map Task.clones).getD 0 = 0
      cases hget : s.tasks[t]? with
      | none => rfl
      | some task => exact htasks task (List.mem_of_getElem? hget)
  | handler h =>
      show s.handlers[h]?.getD 0 = 0
      cases hget : s.handlers[h]? with
      | none => rfl
      | some k => exact hhandlers k (List.mem_of_getElem? hget)

/-- Nobody has a clone to give away. -/
theorem St.Gone.not_lt_held {s : St} (h : s.Gone) (owner : Owner) (k : ℕ) :
    ¬ k < s.held owner := by
  rw [h.held owner]
  exact Nat.not_lt_zero k

theorem gone_releaseHandler {s : St} (h : s.Gone) (handler : Option ℕ) :
    (s.releaseHandler handler).Gone := by
  cases handler with
  | none => exact h
  | some k =>
      simp only [St.releaseHandler]
      split
      · exact h
      · refine ⟨h.1, h.2.1, ?_⟩
        intro c hc
        rcases List.mem_or_eq_of_mem_set hc with hc | hc
        · exact h.2.2 c hc
        · exact hc

/-- A task that ends takes no clone from anybody else. -/
theorem gone_endTask {s : St} (h : s.Gone) (t : ℕ) (task : Task) : (s.endTask t task).Gone := by
  apply gone_releaseHandler
  refine ⟨h.1, ?_, h.2.2⟩
  intro other hother
  rcases List.mem_or_eq_of_mem_set hother with hother | hother
  · exact h.2.1 other hother
  · rw [hother]

theorem dropping_releaseHandler (s : St) (handler : Option ℕ) :
    (s.releaseHandler handler).dropping = s.dropping := by
  cases handler with
  | none => rfl
  | some k =>
      simp only [St.releaseHandler]
      split <;> rfl

theorem dropping_endTask (s : St) (t : ℕ) (task : Task) :
    (s.endTask t task).dropping = s.dropping :=
  dropping_releaseHandler _ _

theorem dropping_hold (s : St) (f : ℕ → ℕ) (owner : Owner) :
    (s.hold f owner).dropping = s.dropping := by
  cases owner <;> rfl

/-- Nothing is released twice. -/
theorem release_of_gone {thread : Thread} {s s' : St} (h : s.Gone) : s.release thread s' = s' :=
  if_neg fun hnot => hnot.1 h

/-! ## The destructor -/

theorem exists_of_alive {s : St} {t : ℕ} (h : (s.tasks[t]?.map Task.alive) = some true) :
    ∃ task, s.tasks[t]? = some task := by
  obtain ⟨task, hget, _⟩ := Option.map_eq_some_iff.mp h
  exact ⟨task, hget⟩

theorem update_invoke {n t : ℕ} {s : St} {task : Task} (h : s.tasks[t]? = some task) :
    update n (.invoke t) s =
      { s with tasks := s.tasks ++ [⟨task.worker, 0, task.handler, true⟩] } := by
  simp only [update, h]

theorem update_finish {n t : ℕ} {s : St} {task : Task} (h : s.tasks[t]? = some task) :
    update n (.finish t) s = s.release (.worker task.worker) (s.endTask t task) := by
  simp only [update, h]

/-- The destructor runs on `thread`, and there is no clone. -/
def Over (thread : Thread) (s : St) : Prop :=
  s.Gone ∧ ∃ d ∈ s.dropping, d.thread = thread

/-- Without a clone, nothing but the destructor and the end of tasks can go on, and the
destructor stays on its thread. -/
theorem over_step {n : ℕ} {thread : Thread} {l : Lbl} {s : St} (hg : guard n l s)
    (h : Over thread s) : Over thread (update n l s) := by
  obtain ⟨hgone, d, hd, hthread⟩ := h
  cases l with
  -- the steps that need a clone
  | clone owner into => exact absurd hg.1 (hgone.not_lt_held owner _)
  | spawnTask owner clones => exact absurd hg.1 (hgone.not_lt_held owner _)
  | serve owner clones => exact absurd hg.1 (hgone.not_lt_held owner _)
  | invoke t =>
      obtain ⟨task, hget⟩ := exists_of_alive hg
      rw [update_invoke hget]
      refine ⟨⟨hgone.1, ?_, hgone.2.2⟩, d, hd, hthread⟩
      intro other hother
      rcases List.mem_append.mp hother with hother | hother
      · exact hgone.2.1 other hother
      · rw [List.mem_singleton.mp hother]
  | drop owner => exact absurd hg.1 (hgone.not_lt_held owner _)
  | finish t =>
      obtain ⟨task, hget⟩ := exists_of_alive hg
      rw [update_finish hget, release_of_gone hgone]
      refine ⟨gone_endTask hgone t task, d, ?_, hthread⟩
      rw [dropping_endTask]
      exact hd
  | dropHandle thread' w =>
      -- the guard names the thread that the destructor runs on
      rw [hg.2] at hd
      cases hd
      exact ⟨hgone, _, rfl, hthread⟩
  | exit w => exact ⟨hgone, d, hd, hthread⟩
  | joined thread' w =>
      rw [hg.1] at hd
      cases hd
      exact ⟨hgone, _, rfl, hthread⟩

/-- The destructor begins only when the last clone goes. -/
theorem release_cases {thread : Thread} {s s' : St} (h : s'.dropping = none) :
    (s.release thread s').dropping = none ∨ (s.release thread s').Gone := by
  unfold St.release
  split
  · rename_i hlast
    exact Or.inr hlast.2
  · exact Or.inl h

theorem begins_step {n : ℕ} {l : Lbl} {s : St} (hg : guard n l s) (h : s.dropping = none) :
    (update n l s).dropping = none ∨ (update n l s).Gone := by
  cases l with
  | clone owner into =>
      apply Or.inl
      exact (dropping_hold s _ into).trans h
  | spawnTask owner clones =>
      apply Or.inl
      exact (dropping_hold s _ owner).trans h
  | serve owner clones =>
      apply Or.inl
      exact (dropping_hold s _ owner).trans h
  | invoke t =>
      obtain ⟨task, hget⟩ := exists_of_alive hg
      rw [update_invoke hget]
      exact Or.inl h
  | drop owner =>
      obtain ⟨thread, hthread⟩ := Option.isSome_iff_exists.mp hg.2
      simp only [update, hthread]
      exact release_cases ((dropping_hold s _ owner).trans h)
  | finish t =>
      obtain ⟨task, hget⟩ := exists_of_alive hg
      rw [update_finish hget]
      exact release_cases ((dropping_endTask s t task).trans h)
  | dropHandle thread w =>
      rw [hg.2] at h
      cases h
  | exit w =>
      obtain ⟨d, hd, _⟩ := hg
      rw [h] at hd
      cases hd
  | joined thread w =>
      rw [hg.1] at h
      cases h

/-- While the destructor runs there is no clone. -/
theorem dropping_gone {n callers : ℕ} {s : St} (hs : (runtime n callers).Reachable s) :
    s.dropping = none ∨ s.Gone := by
  apply (runtime n callers).invariant (fun s => s.dropping = none ∨ s.Gone) (Or.inl rfl) _ s hs
  intro l t hg ht
  cases hd : t.dropping with
  | none => exact begins_step hg hd
  | some d =>
      have hgone : t.Gone := by
        rcases ht with hnone | hgone
        · rw [hd] at hnone
          cases hnone
        · exact hgone
      exact Or.inr (over_step hg ⟨hgone, d, hd, rfl⟩).1

/-- A destructor on worker `j` comes to every handle up to its own: the workers before it
can end and be joined. -/
theorem reach_handle {n callers j : ℕ} (hj : j < n) {s : St}
    (hs : s.dropping = some ⟨.worker j, 0, false⟩) (k : ℕ) (hk : k ≤ j) :
    ∃ tr s', (runtime n callers).Run s tr s' ∧ s'.dropping = some ⟨.worker j, k, false⟩ := by
  induction k with
  | zero => exact ⟨[], s, .nil, hs⟩
  | succ k ih =>
      obtain ⟨tr, s₁, hrun, hs₁⟩ := ih (by omega)
      have hne : Thread.worker j ≠ Thread.worker k := by
        intro heq
        cases heq
        omega
      -- `Shutdown` and `join`, the worker's end, the return of `join`
      have hdrop : (runtime n callers).guard (.dropHandle (.worker j) k) s₁ :=
        ⟨by omega, hs₁⟩
      have hexit : (runtime n callers).guard (.exit k)
          ((runtime n callers).update (.dropHandle (.worker j) k) s₁) :=
        ⟨_, rfl, hne, Or.inr ⟨rfl, rfl⟩⟩
      have hjoined : (runtime n callers).guard (.joined (.worker j) k)
          ((runtime n callers).update (.exit k)
            ((runtime n callers).update (.dropHandle (.worker j) k) s₁)) :=
        ⟨rfl, List.mem_cons_self ..⟩
      exact ⟨_, _, .snoc _ (.snoc _ (.snoc _ hrun hdrop) hexit) hjoined, rfl⟩

/-! ## Joining oneself -/

/-- The step drops the last clone, on `thread`. -/
def DropsLast (n : ℕ) (l : Lbl) (thread : Thread) (s : St) : Prop :=
  s.dropping = none ∧ (update n l s).dropping = some ⟨thread, 0, false⟩

instance (n : ℕ) (l : Lbl) (thread : Thread) (s : St) : Decidable (DropsLast n l thread s) :=
  inferInstanceAs (Decidable (_ ∧ _))

/-- The destructor does not stop: if it is not running after a step, it was not before. -/
theorem dropping_none_of_step {n callers : ℕ} {l : Lbl} {s : St}
    (hs : (runtime n callers).Reachable s) (hg : guard n l s)
    (hnone : (update n l s).dropping = none) : s.dropping = none := by
  rcases dropping_gone hs with h | hgone
  · exact h
  · by_contra hrunning
    rcases Option.ne_none_iff_exists'.mp hrunning with ⟨d, hd⟩
    rcases over_step hg ⟨hgone, d, hd, rfl⟩ with ⟨-, d', hd', -⟩
    rw [hnone] at hd'
    cases hd'

/-- A handle is dropped by the destructor, on its thread. -/
theorem dropping_of_selfJoin {n : ℕ} {l : Lbl} {s : St} (hg : guard n l s) (h : SelfJoin l) :
    ∃ w < n, s.dropping = some ⟨.worker w, w, false⟩ := by
  cases l with
  | dropHandle thread w =>
      obtain rfl : thread = .worker w := h
      exact ⟨w, hg.1, hg.2⟩
  | _ => exact absurd h id

/-- As long as there is a clone, no handle is dropped. -/
theorem not_selfJoin_before {n callers : ℕ} :
    ∀ tr s, (runtime n callers).Run (runtime n callers).init tr s → s.dropping = none →
      ∀ l ∈ tr, ¬ SelfJoin l := by
  apply (runtime n callers).trace_invariant
    (fun tr s => s.dropping = none → ∀ l ∈ tr, ¬ SelfJoin l)
  · intro _ l hl
    cases hl
  · intro tr l s hrun hg ih hnone l' hl'
    have hbefore := dropping_none_of_step ⟨tr, hrun⟩ hg hnone
    rcases List.mem_append.mp hl' with hl' | hl'
    · exact ih hbefore l' hl'
    · rw [List.mem_singleton.mp hl']
      intro hself
      rcases dropping_of_selfJoin hg hself with ⟨w, -, hdropping⟩
      rw [hbefore] at hdropping
      cases hdropping

/-- A destructor on a thread that is no worker joins no thread from itself. -/
theorem not_selfJoin_of_over {n : ℕ} {thread : Thread} (hnot : ∀ w < n, thread ≠ .worker w)
    {l : Lbl} {s : St} (hg : guard n l s) (h : Over thread s) : ¬ SelfJoin l := by
  intro hself
  rcases dropping_of_selfJoin hg hself with ⟨w, hw, hdropping⟩
  rcases h with ⟨-, d, hd, hthread⟩
  rw [hdropping] at hd
  cases hd
  exact hnot w hw hthread.symm

/-- Self-joins, for every number of workers, every placement of clones and every order of
drops. As long as there is a clone, no `WorkerHandle` is dropped. Once the last clone has
been dropped, no thread ever drops the handle of its own worker if and only if the thread
that dropped the clone is not one of the workers. -/
theorem selfJoin_iff (n callers : ℕ) :
    (∀ tr s, (runtime n callers).Run (runtime n callers).init tr s → s.dropping = none →
      ∀ l ∈ tr, ¬ SelfJoin l) ∧
    (∀ s l thread, (runtime n callers).Reachable s → (runtime n callers).guard l s →
      DropsLast n l thread s →
      ((∀ tr s', (runtime n callers).Run ((runtime n callers).update l s) tr s' →
        ∀ l' ∈ tr, ¬ SelfJoin l') ↔ ∀ w < n, thread ≠ .worker w)) := by
  refine ⟨not_selfJoin_before, ?_⟩
  rintro s l thread hs hg ⟨_, hlast⟩
  have hgone : (update n l s).Gone := by
    rcases dropping_gone (hs.step hg) with h | h
    · rw [show (update n l s).dropping = none from h] at hlast
      cases hlast
    · exact h
  constructor
  · intro hnever w hw heq
    subst heq
    -- the destructor comes to the handle of the worker that it runs on
    rcases @reach_handle n callers w hw _ hlast w (Nat.le_refl w) with ⟨tr, s', hrun, hs'⟩
    have hself : (runtime n callers).guard (.dropHandle (.worker w) w) s' := ⟨hw, hs'⟩
    exact hnever _ _ (.snoc _ hrun hself) (.dropHandle (.worker w) w) (by simp) rfl
  · intro hnot tr s' hrun
    apply hrun.avoids (Over thread) SelfJoin ⟨hgone, _, hlast, rfl⟩
    · intro l t hg ht
      exact over_step hg ht
    · intro l t hg ht
      exact not_selfJoin_of_over hnot hg ht

/-- One worker, one caller: a clone is moved into a task, the caller drops its own, the
task ends. The worker drops its own handle. -/
theorem worker_joins_itself :
    ∃ s, (runtime 1 0).Run (runtime 1 0).init
        [.clone (.caller 0) (.caller 0), .spawnTask (.caller 0) 1, .drop (.caller 0), .finish 0,
          .dropHandle (.worker 0) 0] s ∧
      s.dropping = some ⟨.worker 0, 0, true⟩ :=
  (runtime 1 0).exists_run_of_exec _ (fun s => s.dropping = some ⟨.worker 0, 0, true⟩)
    (by decide)

/-- The caller moves a clone into a task and another one into the handler of a server, whose
listener on worker 0 runs the handler. -/
def moved : List Lbl :=
  [.clone (.caller 0) (.caller 0), .clone (.caller 0) (.caller 0), .spawnTask (.caller 0) 1,
    .serve (.caller 0) 1, .invoke 1]

/-- If the tasks end first, the caller drops the last clone, and no thread joins itself. If the
caller drops its clone before, the last clone goes with the handler, on the thread of worker 1,
which then joins itself in some run. -/
theorem selfJoin_iff_moved :
    (∃ s, (runtime 2 0).Run (runtime 2 0).init
        (moved ++ [.finish 0, .finish 1, .finish 2, .finish 3]) s ∧
      DropsLast 2 (.drop (.caller 0)) (.caller 0) s ∧
      ∀ tr s', (runtime 2 0).Run ((runtime 2 0).update (.drop (.caller 0)) s) tr s' →
        ∀ l ∈ tr, ¬ SelfJoin l) ∧
    ∃ s, (runtime 2 0).Run (runtime 2 0).init
        (moved ++ [.drop (.caller 0), .finish 0, .finish 1, .finish 3]) s ∧
      DropsLast 2 (.finish 2) (.worker 1) s ∧
      ¬ ∀ tr s', (runtime 2 0).Run ((runtime 2 0).update (.finish 2) s) tr s' →
        ∀ l ∈ tr, ¬ SelfJoin l := by
  constructor
  · rcases (runtime 2 0).exists_run_of_exec
      (moved ++ [.finish 0, .finish 1, .finish 2, .finish 3])
      (fun s => (runtime 2 0).guard (.drop (.caller 0)) s ∧
        DropsLast 2 (.drop (.caller 0)) (.caller 0) s) (by decide) with ⟨s, hrun, hg, hlast⟩
    refine ⟨s, hrun, hlast, ((selfJoin_iff 2 0).2 s _ _ ⟨_, hrun⟩ hg hlast).mpr ?_⟩
    intro w _ heq
    cases heq
  · rcases (runtime 2 0).exists_run_of_exec
      (moved ++ [.drop (.caller 0), .finish 0, .finish 1, .finish 3])
      (fun s => (runtime 2 0).guard (.finish 2) s ∧ DropsLast 2 (.finish 2) (.worker 1) s)
      (by decide) with ⟨s, hrun, hg, hlast⟩
    refine ⟨s, hrun, hlast, ?_⟩
    rw [(selfJoin_iff 2 0).2 s _ _ ⟨_, hrun⟩ hg hlast]
    intro hnot
    exact hnot 1 (by decide) rfl

end ReusePort.RuntimeDrop
