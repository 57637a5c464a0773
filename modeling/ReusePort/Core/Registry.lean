import Mathlib.Data.Fintype.Pi
import ReusePort.Lts

/-!
# ReusePort.Core.Registry — the socket registries of `UdpServerState`

`serve` and `serve_socket` return before the tasks that they submit have run. Each
task of a native server first registers clones of its socket
(`register_listener_socket`, `core/udp.rs`): one under its thread, one in the
common pool, under two different locks. `close` takes the registries' locks one
after the other, empties them and shuts down what it finds. No task looks at
`active` before it registers.

* `Config` — the servers that keep such registries;
* `Closed` — what should hold once `close` has returned;
* `Orderly` — it does, if no registration overlaps or follows the drain of the pool;
* `Lost` — otherwise a socket stays open for good;
* `closed_iff_inTime` — the two together.
-/

namespace ReusePort

namespace Registry

/-! ## The server -/

/-- Whether `close` can cancel the tasks: those of `serve` are in `tasks`, those of
`serve_socket` in `callback_tasks`, which `close` only forgets. -/
inductive Mode where
  | serve
  | serveSocket
deriving DecidableEq, Repr

/-- A server: how many tasks register a socket, and whether the call itself has
registered one in `close_sockets`. The native servers are `⟨mode, n, false⟩`, the
simulated `serve` is `⟨.serve, 1, false⟩` and the fallback of `serve_socket`
`⟨.serveSocket, 0, true⟩`. -/
structure Config where
  mode : Mode
  workers : ℕ
  shared : Bool

/-- A socket of the operating system, which all its clones share: the one of a
worker, or the one that the fallback reads. -/
inductive Socket (n : ℕ) where
  | worker (w : Fin n)
  | shared
deriving DecidableEq, Repr

/-- Where the task of a worker stands: not yet polled, with both clones made and
before the insertion into `thread_sockets`, before the push to `sockets`, serving
(or in the user's callback), or ended. -/
inductive TaskPc where
  | submitted
  | inserting
  | pushing
  | serving
  | ended
deriving DecidableEq, Repr

/-- Where `close` stands; each place is named after what comes next. -/
inductive ClosePc where
  | storing
  | drainingSockets
  | drainingCloseSockets
  | clearingThreadSockets
  | cancellingTasks
  | clearingCallbackTasks
  | returned
deriving DecidableEq, Repr

/-- The places in their order. -/
def ClosePc.rank : ClosePc → ℕ
  | .storing => 0
  | .drainingSockets => 1
  | .drainingCloseSockets => 2
  | .clearingThreadSockets => 3
  | .cancellingTasks => 4
  | .clearingCallbackTasks => 5
  | .returned => 6

/-- `UdpServerState` with the tasks and the `close` that work on it. The worker's
thread is named by the worker. `registered` and `shutDown` record which sockets
were ever put into a registry, and which were shut down. -/
structure St (n : ℕ) where
  active : Bool
  sockets : List (Socket n)
  closeSockets : List (Socket n)
  threadSockets : Fin n → Option (Socket n)
  cancelled : Bool
  task : Fin n → TaskPc
  close : ClosePc
  registered : List (Socket n)
  shutDown : List (Socket n)

inductive Lbl (n : ℕ) where
  | begin (w : Fin n)
  | beginErr (w : Fin n)
  | insertThread (w : Fin n)
  | push (w : Fin n)
  | finish (w : Fin n)
  | abort (w : Fin n)
  | closeStore
  | drainSockets
  | drainCloseSockets
  | clearThreadSockets
  | cancelTasks
  | clearCallbackTasks
deriving DecidableEq, Repr

/-- A task can be aborted only between polls, so never inside its registration. -/
def guard (c : Config) : Lbl c.workers → St c.workers → Prop
  | .begin w, s => s.task w = .submitted
  | .beginErr w, s => s.task w = .submitted
  | .insertThread w, s => s.task w = .inserting
  | .push w, s => s.task w = .pushing
  | .finish w, s => s.task w = .serving
  | .abort w, s =>
      c.mode = .serve ∧ s.cancelled = true ∧ (s.task w = .submitted ∨ s.task w = .serving)
  | .closeStore, s => s.close = .storing
  | .drainSockets, s => s.close = .drainingSockets
  | .drainCloseSockets, s => s.close = .drainingCloseSockets
  | .clearThreadSockets, s => s.close = .clearingThreadSockets
  | .cancelTasks, s => s.close = .cancellingTasks
  | .clearCallbackTasks, s => s.close = .clearingCallbackTasks

def St.setTask {n : ℕ} (s : St n) (w : Fin n) (pc : TaskPc) : St n :=
  { s with task := Function.update s.task w pc }

/-- Every section under a lock is one step. A task that fails to clone its socket
ends; `finish` is the end of the loop or of the callback, or a failed conversion of
the socket. -/
def update {n : ℕ} : Lbl n → St n → St n
  | .begin w, s => s.setTask w .inserting
  | .beginErr w, s => s.setTask w .ended
  | .insertThread w, s =>
      { s.setTask w .pushing with
        threadSockets := Function.update s.threadSockets w (some (.worker w))
        registered := s.registered ++ [.worker w] }
  | .push w, s => { s.setTask w .serving with sockets := s.sockets ++ [.worker w] }
  | .finish w, s => s.setTask w .ended
  | .abort w, s => s.setTask w .ended
  | .closeStore, s => { s with active := false, close := .drainingSockets }
  | .drainSockets, s =>
      { s with
        shutDown := s.shutDown ++ s.sockets
        sockets := []
        close := .drainingCloseSockets }
  | .drainCloseSockets, s =>
      { s with
        shutDown := s.shutDown ++ s.closeSockets
        closeSockets := []
        close := .clearingThreadSockets }
  | .clearThreadSockets, s =>
      { s with threadSockets := fun _ => none, close := .cancellingTasks }
  | .cancelTasks, s => { s with cancelled := true, close := .clearingCallbackTasks }
  | .clearCallbackTasks, s => { s with close := .returned }

/-- The call has returned: all tasks are submitted, and the fallback has called
`register_close_socket`. -/
def St.initial (c : Config) : St c.workers where
  active := true
  sockets := []
  closeSockets := if c.shared then [.shared] else []
  threadSockets := fun _ => none
  cancelled := false
  task := fun _ => .submitted
  close := .storing
  registered := if c.shared then [.shared] else []
  shutDown := []

def server (c : Config) : Lts.Sys (St c.workers) (Lbl c.workers) :=
  ⟨.initial c, guard c, update⟩

instance (c : Config) : ∀ l s, Decidable ((server c).guard l s)
  | .begin _, _ => inferInstanceAs (Decidable (_ = _))
  | .beginErr _, _ => inferInstanceAs (Decidable (_ = _))
  | .insertThread _, _ => inferInstanceAs (Decidable (_ = _))
  | .push _, _ => inferInstanceAs (Decidable (_ = _))
  | .finish _, _ => inferInstanceAs (Decidable (_ = _))
  | .abort _, _ => inferInstanceAs (Decidable (_ = _ ∧ _ = _ ∧ (_ = _ ∨ _ = _)))
  | .closeStore, _ => inferInstanceAs (Decidable (_ = _))
  | .drainSockets, _ => inferInstanceAs (Decidable (_ = _))
  | .drainCloseSockets, _ => inferInstanceAs (Decidable (_ = _))
  | .clearThreadSockets, _ => inferInstanceAs (Decidable (_ = _))
  | .cancelTasks, _ => inferInstanceAs (Decidable (_ = _))
  | .clearCallbackTasks, _ => inferInstanceAs (Decidable (_ = _))

/-! ## What `close` is for -/

/-- The server keeps no socket: the registries are empty, and every socket that was
ever in one has been shut down. -/
def Closed {n : ℕ} (s : St n) : Prop :=
  s.sockets = [] ∧ s.closeSockets = [] ∧ (∀ t, s.threadSockets t = none) ∧
    ∀ socket ∈ s.registered, socket ∈ s.shutDown

instance {n : ℕ} (s : St n) : Decidable (Closed s) :=
  inferInstanceAs (Decidable (_ ∧ _ ∧ (∀ t, s.threadSockets t = none) ∧
    ∀ socket ∈ s.registered, socket ∈ s.shutDown))

/-- A step that keeps the registrations apart from `close`: the pool is drained
while no task stands between its two insertions, and no task begins to insert after
that. -/
def InTime {n : ℕ} : Lbl n → St n → Prop
  | .insertThread _, s => s.close.rank ≤ 1
  | .drainSockets, s => ∀ w, s.task w ≠ .pushing
  | _, _ => True

instance {n : ℕ} : ∀ (l : Lbl n) s, Decidable (InTime l s)
  | .insertThread _, _ => inferInstanceAs (Decidable (_ ≤ _))
  | .drainSockets, s => inferInstanceAs (Decidable (∀ w, s.task w ≠ .pushing))
  | .begin _, _ | .beginErr _, _ | .push _, _ | .finish _, _ | .abort _, _ | .closeStore, _
  | .drainCloseSockets, _ | .clearThreadSockets, _ | .cancelTasks, _ | .clearCallbackTasks, _ =>
      inferInstanceAs (Decidable True)

/-! ## Registrations in time -/

variable {c : Config}

theorem task_setTask {n : ℕ} (s : St n) (w v : Fin n) (pc : TaskPc) :
    (s.setTask w pc).task v = if v = w then pc else s.task v := by
  simp [St.setTask, Function.update_apply]

/-- The state of a server whose registrations are all in time. A registered socket
is shut down, or `close` will find it, or its task is about to push it, before the
drain; and what `close` has emptied stays empty. -/
structure Orderly {n : ℕ} (s : St n) : Prop where
  worker : ∀ w, .worker w ∈ s.registered →
    .worker w ∈ s.shutDown ∨ .worker w ∈ s.sockets ∨ s.task w = .pushing
  shared : .shared ∈ s.registered → .shared ∈ s.shutDown ∨ .shared ∈ s.closeSockets
  drained : 2 ≤ s.close.rank → s.sockets = [] ∧ ∀ w, s.task w ≠ .pushing
  closeDrained : 3 ≤ s.close.rank → s.closeSockets = []
  cleared : 4 ≤ s.close.rank → ∀ t, s.threadSockets t = none

theorem orderly_initial : Orderly (St.initial c) where
  worker := by
    intro w hw
    simp only [St.initial] at hw
    split at hw <;> simp at hw
  shared := by
    intro h
    exact Or.inr h
  drained := by
    intro h
    simp [St.initial, ClosePc.rank] at h
  closeDrained := by
    intro h
    simp [St.initial, ClosePc.rank] at h
  cleared := by
    intro h
    simp [St.initial, ClosePc.rank] at h

/-- A task that does not stand between its insertions moves to another such place. -/
theorem Orderly.setTask {n : ℕ} {s : St n} (h : Orderly s) {w : Fin n} {pc pc' : TaskPc}
    (hpc : s.task w = pc) (hold : pc ≠ .pushing) (hnew : pc' ≠ .pushing) :
    Orderly (s.setTask w pc') where
  worker := by
    intro v hv
    rcases h.worker v hv with hdone | hpool | hpush
    · exact Or.inl hdone
    · exact Or.inr (Or.inl hpool)
    · have hne : v ≠ w := by
        rintro rfl
        exact hold (hpc.symm.trans hpush)
      rw [task_setTask, if_neg hne]
      exact Or.inr (Or.inr hpush)
  shared := h.shared
  drained := by
    intro hrank
    refine ⟨(h.drained hrank).1, ?_⟩
    intro v
    rw [task_setTask]
    split
    · exact hnew
    · exact (h.drained hrank).2 v
  closeDrained := h.closeDrained
  cleared := h.cleared

theorem orderly_insertThread {n : ℕ} {s : St n} (w : Fin n) (hrank : s.close.rank ≤ 1)
    (h : Orderly s) : Orderly (update (.insertThread w) s) where
  worker := by
    intro v hv
    show _ ∨ _ ∨ (s.setTask w .pushing).task v = .pushing
    rw [task_setTask]
    split
    · -- until its push the socket is under its thread only
      exact Or.inr (Or.inr rfl)
    · rename_i hne
      rcases List.mem_append.mp hv with hv | hv
      · exact h.worker v hv
      · have heq := Socket.worker.inj (List.mem_singleton.mp hv)
        exact absurd heq hne
  shared := by
    intro hs
    rcases List.mem_append.mp hs with hs | hs
    · exact h.shared hs
    · cases List.mem_singleton.mp hs
  drained := by
    intro hlate
    have hlate' : 2 ≤ s.close.rank := hlate
    omega
  closeDrained := h.closeDrained
  cleared := by
    intro hlate
    have hlate' : 4 ≤ s.close.rank := hlate
    omega

theorem orderly_push {n : ℕ} {s : St n} {w : Fin n} (hg : s.task w = .pushing)
    (h : Orderly s) : Orderly (update (.push w) s) where
  worker := by
    intro v hv
    by_cases hvw : v = w
    · subst hvw
      exact Or.inr (Or.inl (List.mem_append_right _ (List.mem_singleton_self _)))
    · rcases h.worker v hv with hdone | hpool | hpush
      · exact Or.inl hdone
      · exact Or.inr (Or.inl (List.mem_append_left _ hpool))
      · refine Or.inr (Or.inr ?_)
        show (s.setTask w .serving).task v = .pushing
        rw [task_setTask, if_neg hvw]
        exact hpush
  shared := h.shared
  drained := by
    intro hrank
    exact absurd hg ((h.drained hrank).2 w)
  closeDrained := h.closeDrained
  cleared := h.cleared

theorem orderly_drainSockets {n : ℕ} {s : St n} (hnone : ∀ w, s.task w ≠ .pushing)
    (h : Orderly s) : Orderly (update .drainSockets s) where
  worker := by
    -- every registration begun so far is complete, so the drain finds its socket
    intro w hw
    rcases h.worker w hw with hdone | hpool | hpush
    · exact Or.inl (List.mem_append_left _ hdone)
    · exact Or.inl (List.mem_append_right _ hpool)
    · exact absurd hpush (hnone w)
  shared := by
    intro hs
    exact (h.shared hs).imp (List.mem_append_left _) id
  drained := by
    intro _
    exact ⟨rfl, hnone⟩
  closeDrained := by
    intro hrank
    simp [update, ClosePc.rank] at hrank
  cleared := by
    intro hrank
    simp [update, ClosePc.rank] at hrank

theorem orderly_drainCloseSockets {n : ℕ} {s : St n} (hg : s.close = .drainingCloseSockets)
    (h : Orderly s) : Orderly (update .drainCloseSockets s) where
  worker := by
    intro w hw
    exact (h.worker w hw).imp (List.mem_append_left _) id
  shared := by
    intro hs
    rcases h.shared hs with hdone | hclose
    · exact Or.inl (List.mem_append_left _ hdone)
    · exact Or.inl (List.mem_append_right _ hclose)
  drained := by
    intro _
    refine h.drained ?_
    rw [hg]
    decide
  closeDrained := by
    intro _
    rfl
  cleared := by
    intro hrank
    simp [update, ClosePc.rank] at hrank

/-- The steps of `close` that only go on. -/
theorem Orderly.advance {n : ℕ} {s s' : St n} (h : Orderly s)
    (hsockets : s'.sockets = s.sockets) (hclose : s'.closeSockets = s.closeSockets)
    (htask : s'.task = s.task) (hreg : s'.registered = s.registered)
    (hshut : s'.shutDown = s.shutDown)
    (hdrained : 2 ≤ s'.close.rank → 2 ≤ s.close.rank)
    (hcloseDrained : 3 ≤ s'.close.rank → 3 ≤ s.close.rank)
    (hcleared : 4 ≤ s'.close.rank → ∀ t, s'.threadSockets t = none) : Orderly s' where
  worker := by
    rw [hsockets, htask, hreg, hshut]
    exact h.worker
  shared := by
    rw [hclose, hreg, hshut]
    exact h.shared
  drained := by
    intro hrank
    rw [hsockets, htask]
    exact h.drained (hdrained hrank)
  closeDrained := by
    intro hrank
    rw [hclose]
    exact h.closeDrained (hcloseDrained hrank)
  cleared := hcleared

/-- Past the last registry, `close` only goes on. -/
theorem Orderly.goOn {n : ℕ} {s : St n} (h : Orderly s) (hrank : 4 ≤ s.close.rank)
    (cancelled : Bool) (pc : ClosePc) :
    Orderly { s with cancelled := cancelled, close := pc } := by
  refine h.advance rfl rfl rfl rfl rfl (fun _ => by omega) (fun _ => by omega) ?_
  intro _
  exact h.cleared hrank

theorem orderly_step {l : Lbl c.workers} {s : St c.workers} (hg : guard c l s)
    (hok : InTime l s) (h : Orderly s) : Orderly (update l s) := by
  cases l with
  | begin w => exact h.setTask hg (by decide) (by decide)
  | beginErr w => exact h.setTask hg (by decide) (by decide)
  | insertThread w => exact orderly_insertThread w hok h
  | push w => exact orderly_push hg h
  | finish w => exact h.setTask hg (by decide) (by decide)
  | abort w =>
      rcases hg.2.2 with hpc | hpc
      · exact h.setTask hpc (by decide) (by decide)
      · exact h.setTask hpc (by decide) (by decide)
  | closeStore =>
      -- nothing is drained yet
      refine h.advance rfl rfl rfl rfl rfl ?_ ?_ ?_
      all_goals
        intro hrank
        simp [update, ClosePc.rank] at hrank
  | drainSockets => exact orderly_drainSockets hok h
  | drainCloseSockets => exact orderly_drainCloseSockets hg h
  | clearThreadSockets =>
      have hclose : s.close = .clearingThreadSockets := hg
      refine h.advance rfl rfl rfl rfl rfl ?_ ?_ fun _ _ => rfl
      all_goals
        intro _
        rw [hclose]
        decide
  | cancelTasks =>
      have hclose : s.close = .cancellingTasks := hg
      refine h.goOn ?_ true .clearingCallbackTasks
      rw [hclose]
      decide
  | clearCallbackTasks =>
      have hclose : s.close = .clearingCallbackTasks := hg
      refine h.goOn ?_ s.cancelled .returned
      rw [hclose]
      decide

/-- If all registrations were in time, a returned `close` has done its work. -/
theorem Orderly.closed {n : ℕ} {s : St n} (h : Orderly s) (hret : s.close = .returned) :
    Closed s := by
  have hrank : s.close.rank = 6 := by
    rw [hret]
    rfl
  have hdrained := h.drained (by omega)
  have hclose := h.closeDrained (by omega)
  refine ⟨hdrained.1, hclose, h.cleared (by omega), ?_⟩
  intro socket hsocket
  cases socket with
  | worker w =>
      rcases h.worker w hsocket with hdone | hpool | hpush
      · exact hdone
      · rw [hdrained.1] at hpool
        cases hpool
      · exact absurd hpush (hdrained.2 w)
  | shared =>
      rcases h.shared hsocket with hdone | hopen
      · exact hdone
      · rw [hclose] at hopen
        cases hopen

/-! ## Late registrations -/

/-- What holds in every run: a socket is in the pool, or has been shut down, only
after its task has pushed it. -/
structure Pushed {n : ℕ} (s : St n) : Prop where
  pushed : ∀ w, .worker w ∈ s.sockets ∨ .worker w ∈ s.shutDown →
    s.task w = .serving ∨ s.task w = .ended
  pushing : ∀ w, s.task w = .pushing → .worker w ∈ s.registered
  notShared : ∀ w, .worker w ∉ s.closeSockets

theorem pushed_initial : Pushed (St.initial c) where
  pushed := by
    intro w hw
    rcases hw with hw | hw <;> cases hw
  pushing := by
    intro w hw
    cases hw
  notShared := by
    intro w hw
    simp only [St.initial] at hw
    split at hw <;> simp at hw

/-- A task that is not pushing moves to a place where it is not pushing either, and
does not go back. -/
theorem Pushed.setTask {n : ℕ} {s : St n} (h : Pushed s) {w : Fin n} {pc : TaskPc}
    (hnew : pc ≠ .pushing)
    (hback : s.task w = .serving ∨ s.task w = .ended → pc = .serving ∨ pc = .ended) :
    Pushed (s.setTask w pc) where
  pushed := by
    intro v hv
    have hv' := h.pushed v hv
    rw [task_setTask]
    split
    · rename_i heq
      subst heq
      exact hback hv'
    · exact hv'
  pushing := by
    intro v hv
    rw [task_setTask] at hv
    split at hv
    · exact absurd hv hnew
    · exact h.pushing v hv
  notShared := h.notShared

/-- A task that has not pushed its socket: it is neither in the pool nor shut down. -/
theorem Pushed.unpushed {n : ℕ} {s : St n} (h : Pushed s) {w : Fin n} {pc : TaskPc}
    (hpc : s.task w = pc) (hne : pc ≠ .serving ∧ pc ≠ .ended) :
    ¬ (.worker w ∈ s.sockets ∨ .worker w ∈ s.shutDown) := by
  intro hw
  have htask := h.pushed w hw
  rw [hpc] at htask
  exact htask.elim hne.1 hne.2

theorem pushed_insertThread {n : ℕ} {s : St n} {w : Fin n} (hpc : s.task w = .inserting)
    (h : Pushed s) : Pushed (update (.insertThread w) s) where
  pushed := by
    intro v hv
    show (s.setTask w .pushing).task v = .serving ∨ (s.setTask w .pushing).task v = .ended
    rw [task_setTask]
    split
    · rename_i heq
      subst heq
      exact absurd hv (h.unpushed hpc (by decide))
    · exact h.pushed v hv
  pushing := by
    intro v hv
    have hv' : (s.setTask w .pushing).task v = .pushing := hv
    rw [task_setTask] at hv'
    split at hv'
    · rename_i heq
      subst heq
      exact List.mem_append_right _ (List.mem_singleton_self _)
    · exact List.mem_append_left _ (h.pushing v hv')
  notShared := h.notShared

theorem pushed_push {n : ℕ} {s : St n} (w : Fin n) (h : Pushed s) :
    Pushed (update (.push w) s) := by
  have hset : Pushed (s.setTask w .serving) :=
    h.setTask (by rintro ⟨⟩) fun _ => Or.inl rfl
  refine ⟨?_, hset.pushing, h.notShared⟩
  intro v hv
  by_cases hvw : v = w
  · subst hvw
    refine Or.inl ?_
    show (s.setTask v .serving).task v = .serving
    rw [task_setTask, if_pos rfl]
  · refine hset.pushed v ?_
    rcases hv with hv | hv
    · rcases List.mem_append.mp hv with hv | hv
      · exact Or.inl hv
      · exact absurd (Socket.worker.inj (List.mem_singleton.mp hv)) hvw
    · exact Or.inr hv

/-- What is shut down was in the pool. -/
theorem pushed_drainSockets {n : ℕ} {s : St n} (h : Pushed s) :
    Pushed (update .drainSockets s) := by
  refine ⟨?_, h.pushing, h.notShared⟩
  intro w hw
  rcases hw with hw | hw
  · cases hw
  · rcases List.mem_append.mp hw with hw | hw
    · exact h.pushed w (Or.inr hw)
    · exact h.pushed w (Or.inl hw)

/-- No worker's socket is among the close sockets. -/
theorem pushed_drainCloseSockets {n : ℕ} {s : St n} (h : Pushed s) :
    Pushed (update .drainCloseSockets s) := by
  refine ⟨?_, h.pushing, fun w hw => by (cases hw)⟩
  intro w hw
  rcases hw with hw | hw
  · exact h.pushed w (Or.inl hw)
  · rcases List.mem_append.mp hw with hw | hw
    · exact h.pushed w (Or.inr hw)
    · exact absurd hw (h.notShared w)

theorem pushed_step {l : Lbl c.workers} {s : St c.workers} (hg : guard c l s) (h : Pushed s) :
    Pushed (update l s) := by
  cases l with
  | begin w =>
      refine h.setTask (by rintro ⟨⟩) ?_
      rw [show s.task w = .submitted from hg]
      rintro (⟨⟨⟩⟩ | ⟨⟨⟩⟩)
  | beginErr w => exact h.setTask (by rintro ⟨⟩) fun _ => Or.inr rfl
  | insertThread w => exact pushed_insertThread hg h
  | push w => exact pushed_push w h
  | finish w => exact h.setTask (by rintro ⟨⟩) fun _ => Or.inr rfl
  | abort w => exact h.setTask (by rintro ⟨⟩) fun _ => Or.inr rfl
  | drainSockets => exact pushed_drainSockets h
  | drainCloseSockets => exact pushed_drainCloseSockets h
  | closeStore | clearThreadSockets | cancelTasks | clearCallbackTasks =>
      exact ⟨h.pushed, h.pushing, h.notShared⟩

theorem reachable_pushed : ∀ s, (server c).Reachable s → Pushed s :=
  (server c).invariant Pushed pushed_initial fun _ _ hg h => pushed_step hg h

/-- A socket is lost: it was put into a registry, and `close` has passed the pool
without it. -/
def Lost {n : ℕ} (s : St n) : Prop :=
  2 ≤ s.close.rank ∧ ∃ w, .worker w ∈ s.registered ∧ .worker w ∉ s.shutDown

theorem Lost.not_closed {n : ℕ} {s : St n} (h : Lost s) : ¬ Closed s := by
  rcases h with ⟨-, w, hreg, hshut⟩
  intro hclosed
  exact hshut (hclosed.2.2.2 _ hreg)

/-- A registration that overlaps or follows the drain of the pool loses its
socket. -/
theorem lost_of_late {l : Lbl c.workers} {s : St c.workers} (hs : (server c).Reachable s)
    (hg : guard c l s) (hlate : ¬ InTime l s) : Lost (update l s) := by
  have hpushed := reachable_pushed s hs
  cases l with
  | insertThread w =>
      -- the pool has been drained, and this socket was not in it
      have hrank : 2 ≤ s.close.rank := Nat.lt_of_not_le hlate
      refine ⟨hrank, w, List.mem_append_right _ (List.mem_singleton_self _), ?_⟩
      intro hshut
      exact hpushed.unpushed hg (by decide) (Or.inr hshut)
  | drainSockets =>
      -- some task has inserted its socket under its thread and not yet pushed it
      have hpushing : ∃ w, s.task w = .pushing := by
        simpa [InTime] using hlate
      rcases hpushing with ⟨w, hw⟩
      refine ⟨Nat.le_refl 2, w, hpushed.pushing w hw, ?_⟩
      intro hmem
      apply hpushed.unpushed hw (by decide)
      exact (List.mem_append.mp hmem).symm
  | begin w | beginErr w | push w | finish w | abort w | closeStore | drainCloseSockets
  | clearThreadSockets | cancelTasks | clearCallbackTasks => exact absurd trivial hlate

/-- A lost socket stays lost: nothing but the drain of the pool shuts it down. -/
theorem lost_step {l : Lbl c.workers} {s : St c.workers} (hs : (server c).Reachable s)
    (hg : guard c l s) (h : Lost s) : Lost (update l s) := by
  rcases h with ⟨hrank, w, hreg, hshut⟩
  cases l with
  | insertThread v => exact ⟨hrank, w, List.mem_append_left _ hreg, hshut⟩
  | closeStore =>
      rw [show s.close = .storing from hg] at hrank
      cases hrank
  | drainSockets =>
      rw [show s.close = .drainingSockets from hg] at hrank
      exact absurd hrank (by decide)
  | drainCloseSockets =>
      -- `close_sockets` never holds the socket of a worker
      refine ⟨Nat.le_succ 2, w, hreg, ?_⟩
      intro hmem
      rcases List.mem_append.mp hmem with hmem | hmem
      · exact hshut hmem
      · exact (reachable_pushed s hs).notShared w hmem
  | begin v | beginErr v | push v | finish v | abort v => exact ⟨hrank, w, hreg, hshut⟩
  | clearThreadSockets | cancelTasks | clearCallbackTasks =>
      exact ⟨by simp [update, ClosePc.rank], w, hreg, hshut⟩

/-! ## The server after `close` -/

/-- Once `close` has returned, the server keeps no socket exactly if every step of
the run was in time: no task stood between its two insertions when the pool was
drained, and none inserted after that. -/
theorem closed_iff_inTime {tr : List (Lbl c.workers)} {s : St c.workers}
    (hrun : (server c).Run (server c).init tr s) (hret : s.close = .returned) :
    Closed s ↔ ((server c).restrict InTime).Run (server c).init tr s := by
  constructor
  · intro hclosed
    rcases hrun.restrict_or InTime Lost (fun _ _ => lost_of_late)
        (fun _ _ => lost_step) with hok | hlost
    · exact hok
    · exact absurd hclosed hlost.not_closed
  · intro hok
    have horderly : Orderly s := hok.preserves Orderly orderly_initial
      fun _ _ hg h => orderly_step hg.1 hg.2 h
    exact horderly.closed hret

/-- The steps of `close`, one after the other. -/
def closeAll {n : ℕ} : List (Lbl n) :=
  [.closeStore, .drainSockets, .drainCloseSockets, .clearThreadSockets, .cancelTasks,
    .clearCallbackTasks]

/-- One worker, whose task has been polled and is about to register when `close`
runs from its first to its last step. The task goes on: the pool and the thread
keep its socket, which nobody has shut down. This happens to `serve` as to
`serve_socket`. -/
theorem registered_after_close :
    (∃ s, (server ⟨.serve, 1, false⟩).Run (server ⟨.serve, 1, false⟩).init
        (.begin 0 :: closeAll ++ [.insertThread 0, .push 0]) s ∧
      s.close = .returned ∧ s.sockets = [.worker 0] ∧ s.threadSockets 0 = some (.worker 0) ∧
      s.shutDown = [] ∧ ¬ Closed s) ∧
    ∃ s, (server ⟨.serveSocket, 1, false⟩).Run (server ⟨.serveSocket, 1, false⟩).init
        (.begin 0 :: closeAll ++ [.insertThread 0, .push 0]) s ∧
      s.close = .returned ∧ s.sockets = [.worker 0] ∧ s.threadSockets 0 = some (.worker 0) ∧
      s.shutDown = [] ∧ ¬ Closed s := by
  constructor
  · exact (server ⟨.serve, 1, false⟩).exists_run_of_exec _ _ (by decide)
  · exact (server ⟨.serveSocket, 1, false⟩).exists_run_of_exec _ _ (by decide)

/-- Two workers that register before `close`, and the fallback of `serve_socket`:
nothing is left. -/
theorem closed_iff_inTime_instances :
    (∃ s, (server ⟨.serveSocket, 2, false⟩).Run (server ⟨.serveSocket, 2, false⟩).init
        ([.begin 0, .begin 1, .insertThread 0, .insertThread 1, .push 1, .push 0] ++ closeAll) s ∧
      s.shutDown = [.worker 1, .worker 0] ∧ Closed s) ∧
    ∃ s, (server ⟨.serveSocket, 0, true⟩).Run (server ⟨.serveSocket, 0, true⟩).init closeAll s ∧
      s.shutDown = [.shared] ∧ Closed s := by
  constructor
  · rcases ((server ⟨.serveSocket, 2, false⟩).restrict InTime).exists_run_of_exec
        ([.begin 0, .begin 1, .insertThread 0, .insertThread 1, .push 1, .push 0] ++ closeAll)
        (fun s => s.close = .returned ∧ s.shutDown = [.worker 1, .worker 0]) (by decide)
      with ⟨s, hok, hret, hshut⟩
    have hrun := hok.of_restrict
    exact ⟨s, hrun, hshut, (closed_iff_inTime hrun hret).mpr hok⟩
  · rcases ((server ⟨.serveSocket, 0, true⟩).restrict InTime).exists_run_of_exec closeAll
        (fun s => s.close = .returned ∧ s.shutDown = [.shared]) (by decide)
      with ⟨s, hok, hret, hshut⟩
    have hrun := hok.of_restrict
    exact ⟨s, hrun, hshut, (closed_iff_inTime hrun hret).mpr hok⟩

end Registry

end ReusePort
