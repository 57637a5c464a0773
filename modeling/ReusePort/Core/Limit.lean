import Mathlib.Tactic.Abel
import ReusePort.Core.Native
import ReusePort.Core.Simulated

/-!
# ReusePort.Core.Limit — the limits of the handler servers

Every worker of a handler server has a concurrency limit. Its users are the loops,
the queue and the handlers of the server; each has its share, and whatever the
server does moves the `Pool` that these shares make up.

* `Native.pool_step`, `Simulated.pool_step` — every step of a server is a step of
  the pool of each worker, or leaves the pool alone;
* `Native.reachable_pool`, `Simulated.reachable_pool` — so every limit of a
  reachable server is a reachable pool;
* `sends_without_waiting` — with no more permits than places in a queue, a
  simulated loop never waits for room.
-/

namespace ReusePort

variable {α ρ β : Type}

namespace Native

/-! ## The limit of a worker is a pool -/

def Site.share {κ : Type} : Site κ → Share
  | .head => 0
  | .permit => .idle
  | .error => .idle
  | .item _ => .idle

/-- What the loop has of the limit of its worker. -/
def Pc.share {κ : Type} : Pc κ → Share
  | .submitted => 0
  | .check _ site => site.share
  | .acquiring _ => 0
  | .receiving => .idle
  | .spawning _ => .idle
  | .dropping pc _ => .dropping pc
  | .exited => 0

/-- The `acquire` under way in the loop. -/
def Pc.waiter {κ : Type} : Pc κ → Option PollPc
  | .acquiring pc => some pc
  | _ => none

/-- The limit with a loop at `pc` and what the handlers have. -/
def Pc.pool {κ : Type} (pc : Pc κ) (c : ConcurrencyState) (handlers : Share) : Pool :=
  Pool.ofShare c pc.waiter (pc.share + handlers)

/-- The limit of a worker with all its users. -/
def Worker.pool (k : Worker α ρ β) (c : ConcurrencyState) : Pool :=
  k.pc.pool c (Handler.total k.handlers)

section Moves

variable {c c' : ConcurrencyState} {spurious : Bool} {k : Worker α ρ β}
  {pc pc' : Pc (Received α ρ)}

/-- A step of the loop that has nothing to do with the limit. -/
theorem moves_pc (hpc : k.pc = pc) (hshare : pc'.share = pc.share)
    (hwaiter : pc'.waiter = pc.waiter) :
    Pool.Moves (k.pool c) (pc'.pool c (Handler.total k.handlers)) := by
  unfold Worker.pool Pc.pool
  rw [hpc, hshare, hwaiter]
  exact Pool.moves_refl _

/-- At every `continue`, `break` and abort that ends a turn of the loop, the
permit of the turn starts to be dropped. -/
theorem moves_release (again : Bool) (hpc : k.pc = pc) (hshare : pc.share = .idle)
    (hwaiter : pc.waiter = none) :
    Pool.Moves (k.pool c)
      (Pc.pool (.dropping .load again : Pc (Received α ρ)) c (Handler.total k.handlers)) := by
  unfold Worker.pool Pc.pool
  rw [hpc, hshare, hwaiter]
  exact Pool.moves_release _

theorem moves_load {ch : Check} {site : Site (Received α ρ)} (hpc : k.pc = .check ch site)
    (b : Bool) : Pool.Moves (k.pool c) ((k.load site ch b).pool c) := by
  cases b with
  | false =>
      -- the loop is left, with the permit if the turn has one
      cases site with
      | head => cases ch <;> exact moves_pc hpc rfl rfl
      | permit | error | item x => cases ch <;> exact moves_release false hpc rfl rfl
  | true =>
      cases ch with
      | runtime => exact moves_pc hpc rfl rfl
      | server =>
          cases site with
          | head =>
              unfold Worker.pool
              rw [hpc]
              exact Pool.moves_acquire _
          | permit | item x => exact moves_pc hpc rfl rfl
          | error => exact moves_release true hpc rfl rfl

theorem limit_load (k : Worker α ρ β) (site : Site (Received α ρ)) (ch : Check) (b : Bool) :
    (k.load site ch b).limit = k.limit := by
  cases b <;> cases ch <;> cases site <;> rfl

theorem moves_polled {pc : PollPc} (hlimit : k.limit = some c) (hpc : k.pc = .acquiring pc) :
    ∃ c', (k.polled (k.limit.poll spurious pc)).limit = some c' ∧
      Pool.Moves (k.pool c) ((k.polled (k.limit.poll spurious pc)).pool c') := by
  rw [hlimit]
  rcases hstep : pollStep spurious c pc with ⟨c', _ | pc'⟩
  · refine ⟨c', by simp [WorkerConcurrencyLimit.poll, hstep, Worker.polled], ?_⟩
    simp only [WorkerConcurrencyLimit.poll, hstep, Worker.polled, Worker.pool, Pc.pool, hpc,
      Pc.share, Site.share, zero_add]
    exact Pool.moves_poll_none _ hstep
  · refine ⟨c', by simp [WorkerConcurrencyLimit.poll, hstep, Worker.polled], ?_⟩
    simp only [WorkerConcurrencyLimit.poll, hstep, Worker.polled, Worker.pool, hpc]
    exact Pool.moves_poll_some _ hstep

theorem moves_dropped {pc : DropPc} {again : Bool} (hlimit : k.limit = some c)
    (hpc : k.pc = .dropping pc again) :
    ∃ c', (k.dropped again (k.limit.drop spurious pc)).limit = some c' ∧
      Pool.Moves (k.pool c) ((k.dropped again (k.limit.drop spurious pc)).pool c') := by
  rw [hlimit]
  rcases hstep : dropStep spurious c pc with ⟨c', _ | pc'⟩
  · refine ⟨c', by simp [WorkerConcurrencyLimit.drop, hstep, Worker.dropped], ?_⟩
    simp only [WorkerConcurrencyLimit.drop, hstep, Worker.dropped, Worker.pool, hpc]
    cases again <;> exact Pool.moves_drop _ hstep
  · refine ⟨c', by simp [WorkerConcurrencyLimit.drop, hstep, Worker.dropped], ?_⟩
    simp only [WorkerConcurrencyLimit.drop, hstep, Worker.dropped, Worker.pool, hpc]
    exact Pool.moves_drop _ hstep

theorem moves_handlerEnd {i : ℕ} {x : Item β} (hi : k.handlers[i]? = some (.running x)) :
    Pool.Moves (k.pool c)
      (k.pc.pool c (Handler.total (Handler.set k.handlers i (some .load)))) := by
  unfold Worker.pool Pc.pool
  rw [Handler.total_running hi, Handler.total_set hi, add_left_comm, add_left_comm k.pc.share]
  exact Pool.moves_release _

theorem moves_handlerDrop {i : ℕ} {pc : DropPc} (hi : k.handlers[i]? = some (.dropping pc)) :
    Pool.Moves (k.pool c) (k.pc.pool (dropStep spurious c pc).1
      (Handler.total (Handler.set k.handlers i (dropStep spurious c pc).2))) := by
  unfold Worker.pool Pc.pool
  rw [Handler.total_dropping hi, Handler.total_set hi, add_left_comm, add_left_comm k.pc.share]
  exact Pool.moves_drop _ rfl

end Moves

/-- Every step of a worker is a step of the pool of its limit, or leaves the
pool alone. -/
theorem pool_step {L : NativeLoop α ρ β} {n : ℕ} {l : Lbl α ρ β} {f : Flags} {k : Worker α ρ β}
    {c : ConcurrencyState} (hg : guard L n l f k) (hlimit : k.limit = some c) :
    ∃ c', (update L l f k).limit = some c' ∧
      Pool.Moves (k.pool c) ((update L l f k).pool c') := by
  cases l with
  | start => exact ⟨c, hlimit, moves_pc hg rfl rfl⟩
  | startErr => exact ⟨c, hlimit, moves_pc hg rfl rfl⟩
  | load ch site => exact ⟨c, by rw [← hlimit]; exact limit_load k site ch _, moves_load hg _⟩
  | poll pc spurious => exact moves_polled hlimit hg
  | recv origin a => exact ⟨c, hlimit, moves_pc hg.1 rfl rfl⟩
  | recvErr =>
      refine ⟨c, hlimit, ?_⟩
      cases hretry : L.retriesOnError with
      | true =>
          simp only [update, hretry]
          exact moves_pc hg rfl rfl
      | false =>
          simp only [update, hretry]
          exact moves_release false hg rfl rfl
  | reject x => exact ⟨c, hlimit, moves_release true hg.1 rfl rfl⟩
  | spawn x =>
      -- the permit of the loop goes to the handler
      refine ⟨c, hlimit, Or.inl ?_⟩
      simp only [update, Worker.pool, Pc.pool, hg.1, Handler.total_cons, Handler.share, Pc.share,
        Site.share, zero_add]
      rfl
  | spawnErr x => exact ⟨c, hlimit, moves_release false hg.1 rfl rfl⟩
  | drop pc again spurious => exact moves_dropped hlimit hg
  | abort =>
      refine ⟨c, hlimit, ?_⟩
      rcases hg.2 with hpc | hpc
      · exact moves_pc hpc rfl rfl
      · unfold Worker.pool
        rw [hpc]
        exact Pool.moves_abandon _
  | abortReceiving => exact ⟨c, hlimit, moves_release false hg.2 rfl rfl⟩
  | handlerEnd i x => exact ⟨c, hlimit, moves_handlerEnd hg⟩
  | handlerDrop i pc spurious =>
      simp only [update, hlimit, WorkerConcurrencyLimit.drop]
      exact ⟨_, rfl, moves_handlerDrop hg⟩

/-- In every reachable state of a server with a limit, the limit of every worker
is a reachable pool. -/
theorem reachable_pool {L : NativeLoop α ρ β} {n max : ℕ} (hmax : 1 ≤ max)
    {s : Lts.Fleet Flags (Worker α ρ β)} (hs : (server L n (some max)).Reachable s) (w : ℕ) :
    ∃ c, (s.proc w).limit = some c ∧ (Pool.sys max).Reachable ((s.proc w).pool c) := by
  refine Lts.Proc.invariant
    (fun _ k => ∃ c, k.limit = some c ∧ (Pool.sys max).Reachable (k.pool c)) ?_ ?_ ?_ hs w
  · refine ⟨⟨max, 0, false, false⟩, if_pos hmax, ?_⟩
    exact Lts.Sys.Reachable.refl _
  · intro _ _ _ _ h
    exact h
  · intro l f k hg h
    rcases h with ⟨c, hlimit, hreach⟩
    rcases pool_step hg hlimit with ⟨c', hlimit', hmoves⟩
    exact ⟨c', hlimit', hmoves.reachable hreach⟩

end Native

namespace Simulated

/-! ## The limit of a worker is a pool -/

/-- What the receiving loop has of the limit of worker `w`. -/
def LoopPc.share {κ : Type} (w : ℕ) : LoopPc κ β → Share
  | .trying v _ pc => if v = w then .trying pc else 0
  | .sending v _ => if v = w then .idle else 0
  | .dropping v pc => if v = w then .dropping pc else 0
  | _ => 0

/-- What the dispatch loop has of the limit of its worker. -/
def DispatchPc.share : DispatchPc β → Share
  | .check _ => .idle
  | .spawning _ => .idle
  | .dropping pc => .dropping pc
  | _ => 0

/-- A queued item holds one permit. -/
def queueShare (queue : List (Item β)) : Share := (queue.map fun _ => Share.idle).sum

/-- What the dispatch loop, the queue and the handlers of a worker have. -/
def Worker.share (k : Worker β) : Share :=
  k.pc.share + (queueShare k.queue + Handler.total k.handlers)

/-- The limit of worker `w` with all its users. -/
def St.pool (s : St α ρ β) (w : ℕ) (c : ConcurrencyState) : Pool :=
  Pool.ofShare c none (s.pc.share w + (s.worker w).share)

@[simp] theorem queueShare_cons (x : Item β) (queue : List (Item β)) :
    queueShare (x :: queue) = .idle + queueShare queue :=
  List.sum_cons

@[simp] theorem queueShare_append (queue : List (Item β)) (x : Item β) :
    queueShare (queue ++ [x]) = .idle + queueShare queue := by
  simp [queueShare, add_comm]

theorem queueShare_head {queue : List (Item β)} {x : Item β} (h : queue.head? = some x) :
    queueShare queue = .idle + queueShare queue.tail := by
  cases queue with
  | nil => cases h
  | cons y queue => exact queueShare_cons y queue

section Moves

variable {c : ConcurrencyState} {spurious : Bool} {k : Worker β} (rest : Share)

/-- The limit of a worker, seen from the worker. -/
def Worker.pool (k : Worker β) (c : ConcurrencyState) (rest : Share) : Pool :=
  Pool.ofShare c none (k.share + rest)

theorem moves_dispatch {pc pc' : DispatchPc β} (hpc : k.pc = pc) (hshare : pc'.share = pc.share) :
    Pool.Moves (k.pool c rest) ({ k with pc := pc' }.pool c rest) := by
  unfold Worker.pool Worker.share
  rw [hpc, hshare]
  exact Pool.moves_refl _

theorem moves_dispatch_release {pc : DispatchPc β} (hpc : k.pc = pc) (hshare : pc.share = .idle) :
    Pool.Moves (k.pool c rest) ({ k with pc := .dropping .load }.pool c rest) := by
  simp only [Worker.pool, Worker.share, hpc, hshare, add_assoc]
  exact Pool.moves_release _

theorem moves_dispatch_drop {pc : DropPc} (hlimit : k.limit = some c) (hpc : k.pc = .dropping pc) :
    ∃ c', (k.dropped (k.limit.drop spurious pc)).limit = some c' ∧
      Pool.Moves (k.pool c rest) ((k.dropped (k.limit.drop spurious pc)).pool c' rest) := by
  rw [hlimit]
  rcases hstep : dropStep spurious c pc with ⟨c', _ | pc'⟩
  all_goals
    refine ⟨c', by simp [WorkerConcurrencyLimit.drop, hstep, Worker.dropped], ?_⟩
    simp only [WorkerConcurrencyLimit.drop, hstep, Worker.dropped, Worker.pool, Worker.share, hpc,
      add_assoc]
    exact Pool.moves_drop _ hstep

theorem moves_handlerEnd {i : ℕ} {x : Item β} (hi : k.handlers[i]? = some (.running x)) :
    Pool.Moves (k.pool c rest)
      ({ k with handlers := Handler.set k.handlers i (some .load) }.pool c rest) := by
  refine (Pool.moves_release
    (k.pc.share + queueShare k.queue + Handler.total (k.handlers.eraseIdx i) + rest)).of_eq ?_ ?_
  · rw [Worker.share, Handler.total_running hi]
    abel
  · rw [Worker.share, Handler.total_set hi, Share.dropped]
    abel

theorem moves_handlerDrop {c' : ConcurrencyState} {i : ℕ} {pc : DropPc} {next : Option DropPc}
    (hi : k.handlers[i]? = some (.dropping pc)) (hstep : dropStep spurious c pc = (c', next))
    (limit : WorkerConcurrencyLimit) :
    Pool.Moves (k.pool c rest)
      ({ k with limit := limit, handlers := Handler.set k.handlers i next }.pool c' rest) := by
  refine (Pool.moves_drop (k.pc.share + queueShare k.queue +
    Handler.total (k.handlers.eraseIdx i) + rest) hstep).of_eq ?_ ?_
  · rw [Worker.share, Handler.total_dropping hi]
    abel
  · rw [Worker.share, Handler.total_set hi]
    abel

/-- An item leaves the queue for the dispatch loop, or to be dropped: its permit
goes with it. -/
theorem moves_recv {x : Item β} (hpc : k.pc = .receiving) (hx : k.queue.head? = some x) :
    Pool.Moves (k.pool c rest)
      ({ k with queue := k.queue.tail, pc := .check x }.pool c rest) := by
  refine Or.inl ?_
  simp only [Worker.pool, Worker.share, hpc, DispatchPc.share, queueShare_head hx, zero_add,
    add_assoc]

theorem moves_drain {x : Item β} (hx : k.queue.head? = some x) :
    Pool.Moves (k.pool c rest)
      ({ k with
        queue := k.queue.tail
        handlers := .dropping .load :: k.handlers }.pool c rest) := by
  refine (Pool.moves_release
    (k.pc.share + queueShare k.queue.tail + Handler.total k.handlers + rest)).of_eq ?_ ?_
  · rw [Worker.share, queueShare_head hx]
    abel
  · rw [Worker.share, Handler.total_cons, Handler.share]
    abel

theorem moves_spawn {x : Item β} (hpc : k.pc = .spawning x) (spawned : List (Item β)) :
    Pool.Moves (k.pool c rest)
      ({ k with pc := .head, handlers := .running x :: k.handlers, spawned := spawned }.pool
        c rest) := by
  refine Or.inl ?_
  simp only [Worker.pool, Worker.share, hpc, DispatchPc.share, Handler.total_cons, Handler.share,
    zero_add]
  rw [add_left_comm]

end Moves

/-- Every step of a worker is a step of the pool of its limit, or leaves the
pool alone, whatever the receiving loop has of the limit. -/
theorem pool_workerStep {f : Flags} {loop : LoopPc (Received α ρ) β} {l : WorkerLbl β}
    {k : Worker β} {c : ConcurrencyState} (hg : workerGuard f loop l k) (hlimit : k.limit = some c)
    (rest : Share) :
    ∃ c', (workerUpdate f l k).limit = some c' ∧
      Pool.Moves (k.pool c rest) ((workerUpdate f l k).pool c' rest) := by
  cases l with
  | start => exact ⟨c, hlimit, moves_dispatch rest hg rfl⟩
  | load =>
      refine ⟨c, hlimit, moves_dispatch rest hg ?_⟩
      split <;> rfl
  | recv x => exact ⟨c, hlimit, moves_recv rest hg.1 hg.2⟩
  | closed => exact ⟨c, hlimit, moves_dispatch rest hg.1 rfl⟩
  | check x =>
      refine ⟨c, hlimit, ?_⟩
      cases hf : f.serverActive with
      | true =>
          simp only [workerUpdate, hf]
          exact moves_dispatch rest hg rfl
      | false =>
          simp only [workerUpdate, hf]
          exact moves_dispatch_release rest hg rfl
  | spawn x => exact ⟨c, hlimit, moves_spawn rest hg _⟩
  | spawnErr x => exact ⟨c, hlimit, moves_dispatch_release rest hg rfl⟩
  | drop pc spurious => exact moves_dispatch_drop rest hlimit hg
  | abort =>
      refine ⟨c, hlimit, ?_⟩
      rcases hg.2 with hpc | hpc
      · exact moves_dispatch rest hpc rfl
      · exact moves_dispatch rest hpc rfl
  | drain x => exact ⟨c, hlimit, moves_drain rest hg.2⟩
  | handlerEnd i x => exact ⟨c, hlimit, moves_handlerEnd rest hg⟩
  | handlerDrop i pc spurious =>
      simp only [workerUpdate, hlimit, WorkerConcurrencyLimit.drop]
      exact ⟨_, rfl, moves_handlerDrop rest hg rfl _⟩

/-! The receiving loop uses the limits of several workers; seen from one of them
it has a share only while it deals with that worker. -/

section LoopMoves

variable {L : SimulatedLoop α ρ β} {n w : ℕ} {s : St α ρ β} {c : ConcurrencyState}

/-- A step of the loop that has nothing to do with the limit of `w`. -/
theorem moves_loop {pc : LoopPc (Received α ρ) β} {s' : St α ρ β} (hpc : s.pc = pc)
    (hshare : s'.pc.share w = pc.share w) (hworker : s'.worker w = s.worker w) :
    Pool.Moves (s.pool w c) (s'.pool w c) := by
  unfold St.pool
  rw [hpc, hshare, hworker]
  exact Pool.moves_refl _

/-- An item that is not sent is dropped, with its permit. -/
theorem moves_unsent {v : ℕ} {item : Item β} {s' : St α ρ β} (hpc : s.pc = .sending v item)
    (hpc' : s'.pc = .dropping v .load) (hworker : s'.worker w = s.worker w) :
    Pool.Moves (s.pool w c) (s'.pool w c) := by
  unfold St.pool
  rw [hpc, hpc', hworker]
  by_cases hv : v = w
  · simp only [LoopPc.share, if_pos hv]
    exact Pool.moves_release _
  · simp only [LoopPc.share, if_neg hv]
    exact Pool.moves_refl _

theorem moves_routed {x : Received α ρ} (hpc : s.pc = .routing x) (route : Route) :
    ((s.routed n x route).worker w = s.worker w) ∧
      Pool.Moves (s.pool w c) ((s.routed n x route).pool w c) := by
  cases route with
  | skip => exact ⟨rfl, moves_loop hpc rfl rfl⟩
  | stop => exact ⟨rfl, moves_loop hpc rfl rfl⟩
  | worker v =>
      by_cases hlt : v < n
      · simp only [St.routed, if_pos hlt]
        refine ⟨trivial, ?_⟩
        unfold St.pool
        rw [hpc]
        by_cases hv : v = w
        · -- the call of `try_acquire`
          simp only [LoopPc.share, if_pos hv, zero_add]
          exact Pool.moves_tryAcquire _
        · simp only [LoopPc.share, if_neg hv]
          exact Pool.moves_refl _
      · simp only [St.routed, if_neg hlt]
        exact ⟨trivial, moves_loop hpc rfl rfl⟩

theorem share_tried (s : St α ρ β) (x : Received α ρ) (next : TryNext) :
    (St.tried L s w x next).pc.share w = .tried next := by
  cases next with
  | more pc => simp [St.tried, LoopPc.share, Share.tried]
  | full active => rfl
  | got => simp [St.tried, LoopPc.share, Share.tried]

theorem share_tried_ne {v : ℕ} (hv : v ≠ w) (s : St α ρ β) (x : Received α ρ) (next : TryNext) :
    (St.tried L s v x next).pc.share w = 0 := by
  cases next with
  | more pc => simp [St.tried, LoopPc.share, hv]
  | full active => rfl
  | got => simp [St.tried, LoopPc.share, hv]

theorem moves_tryAcquire {v : ℕ} {x : Received α ρ} {pc : TryPc} {spurious : Bool}
    (hpc : s.pc = .trying v x pc) (hlimit : (s.worker w).limit = some c) :
    ∃ c', ((loopUpdate L n (.tryAcquire v x pc spurious) s).worker w).limit = some c' ∧
      Pool.Moves (s.pool w c) ((loopUpdate L n (.tryAcquire v x pc spurious) s).pool w c') := by
  unfold St.pool
  simp only [loopUpdate, worker_tried, hpc]
  by_cases hv : v = w
  · subst hv
    rw [share_tried, hlimit]
    rcases hstep : tryStep spurious c pc with ⟨c', next⟩
    refine ⟨c', by simp [St.setWorker, WorkerConcurrencyLimit.tryAcquire, hstep], ?_⟩
    simp only [St.setWorker, Function.update_self, WorkerConcurrencyLimit.tryAcquire, hstep,
      LoopPc.share, if_true]
    exact Pool.moves_tryPoll _ hstep
  · refine ⟨c, by simpa [St.setWorker, Function.update_of_ne (Ne.symm hv)] using hlimit, ?_⟩
    rw [share_tried_ne hv]
    simp only [St.setWorker, Function.update_of_ne (Ne.symm hv), LoopPc.share, if_neg hv]
    exact Pool.moves_refl _

theorem share_dropped (s : St α ρ β) (next : Option DropPc) :
    (s.dropped w next).pc.share w = .dropped next := by
  cases next with
  | none => rfl
  | some pc => simp [St.dropped, LoopPc.share, Share.dropped]

theorem share_dropped_ne {v : ℕ} (hv : v ≠ w) (s : St α ρ β) (next : Option DropPc) :
    (s.dropped v next).pc.share w = 0 := by
  cases next with
  | none => rfl
  | some pc => simp [St.dropped, LoopPc.share, hv]

theorem moves_loopDrop {v : ℕ} {pc : DropPc} {spurious : Bool} (hpc : s.pc = .dropping v pc)
    (hlimit : (s.worker w).limit = some c) :
    ∃ c', ((loopUpdate L n (.drop v pc spurious) s).worker w).limit = some c' ∧
      Pool.Moves (s.pool w c) ((loopUpdate L n (.drop v pc spurious) s).pool w c') := by
  unfold St.pool
  simp only [loopUpdate, worker_dropped, hpc]
  by_cases hv : v = w
  · subst hv
    rw [share_dropped, hlimit]
    rcases hstep : dropStep spurious c pc with ⟨c', next⟩
    refine ⟨c', by simp [St.setWorker, WorkerConcurrencyLimit.drop, hstep], ?_⟩
    simp only [St.setWorker, Function.update_self, WorkerConcurrencyLimit.drop, hstep,
      LoopPc.share, if_true]
    exact Pool.moves_drop _ hstep
  · refine ⟨c, by simpa [St.setWorker, Function.update_of_ne (Ne.symm hv)] using hlimit, ?_⟩
    rw [share_dropped_ne hv]
    simp only [St.setWorker, Function.update_of_ne (Ne.symm hv), LoopPc.share, if_neg hv]
    exact Pool.moves_refl _

/-- A sent item takes its permit into the queue. -/
theorem moves_send {v : ℕ} {item : Item β} (hpc : s.pc = .sending v item)
    (hlimit : (s.worker w).limit = some c) :
    ∃ c', ((loopUpdate L n (.send v item) s).worker w).limit = some c' ∧
      Pool.Moves (s.pool w c) ((loopUpdate L n (.send v item) s).pool w c') := by
  unfold St.pool
  simp only [loopUpdate, hpc]
  by_cases hv : v = w
  · subst hv
    refine ⟨c, by simpa [St.setWorker] using hlimit, Or.inl ?_⟩
    simp only [St.setWorker, Function.update_self, LoopPc.share, if_true, Worker.share,
      queueShare_append]
    congr 1
    abel
  · refine ⟨c, by simpa [St.setWorker, Function.update_of_ne (Ne.symm hv)] using hlimit, ?_⟩
    simp only [St.setWorker, Function.update_of_ne (Ne.symm hv), LoopPc.share, if_neg hv]
    exact Pool.moves_refl _

theorem share_load (s : St α ρ β) (site : Site (Received α ρ)) (ch : Check) (b : Bool) :
    (s.load site ch b).pc.share w = 0 := by
  cases b <;> cases ch <;> cases site <;> rfl

theorem pool_loopStep {l : LoopLbl α ρ β} (hg : loopGuard L l s)
    (hlimit : (s.worker w).limit = some c) :
    ∃ c', ((loopUpdate L n l s).worker w).limit = some c' ∧
      Pool.Moves (s.pool w c) ((loopUpdate L n l s).pool w c') := by
  cases l with
  | start => exact ⟨c, hlimit, moves_loop hg rfl rfl⟩
  | startErr => exact ⟨c, hlimit, moves_loop hg rfl rfl⟩
  | load ch site =>
      have hworker := congrFun (worker_load s site ch (s.flags.get ch)) w
      refine ⟨c, (congrArg Worker.limit hworker).trans hlimit, moves_loop hg ?_ hworker⟩
      exact share_load s site ch _
  | recv origin a => exact ⟨c, hlimit, moves_loop hg.1 rfl rfl⟩
  | recvErr =>
      refine ⟨c, hlimit, moves_loop hg ?_ rfl⟩
      simp only [loopUpdate]
      split <;> rfl
  | route x =>
      rcases moves_routed (n := n) (c := c) (w := w) hg (L.route s.buffer x.recv n) with
        ⟨hworker, hmoves⟩
      exact ⟨c, (congrArg Worker.limit hworker).trans hlimit, hmoves⟩
  | tryAcquire v x pc spurious => exact moves_tryAcquire hg hlimit
  | send v item => exact moves_send hg.1 hlimit
  | sendErr v item => exact ⟨c, hlimit, moves_unsent hg.1 rfl rfl⟩
  | drop v pc spurious => exact moves_loopDrop hg hlimit
  | abort =>
      refine ⟨c, hlimit, ?_⟩
      rcases hg.2 with hpc | hpc
      · exact moves_loop hpc rfl rfl
      · exact moves_loop hpc rfl rfl
  | abortSending v item => exact ⟨c, hlimit, moves_unsent hg.2 rfl rfl⟩

end LoopMoves

/-- Every step of the server is, for every worker, a step of the pool of its
limit, or leaves the pool alone. -/
theorem pool_step {L : SimulatedLoop α ρ β} {n w : ℕ} {l : Lbl α ρ β} {s : St α ρ β}
    {c : ConcurrencyState} (hg : guard L n l s) (hlimit : (s.worker w).limit = some c) :
    ∃ c', ((update L n l s).worker w).limit = some c' ∧
      Pool.Moves (s.pool w c) ((update L n l s).pool w c') := by
  cases l with
  | flags l => exact ⟨c, hlimit, Pool.moves_refl _⟩
  | loop l => exact pool_loopStep hg hlimit
  | worker v l =>
      by_cases hv : w = v
      · subst hv
        rcases pool_workerStep hg.2 hlimit (s.pc.share w) with ⟨c', hlimit', hmoves⟩
        refine ⟨c', by simpa [update, St.setWorker] using hlimit', ?_⟩
        simp only [St.pool, update, St.setWorker, Function.update_self]
        exact hmoves.of_eq (add_comm _ _) (add_comm _ _)
      · refine ⟨c, by simpa [update, St.setWorker, Function.update_of_ne hv] using hlimit, ?_⟩
        simp only [St.pool, update, St.setWorker, Function.update_of_ne hv]
        exact Pool.moves_refl _

/-- In every reachable state of a server with a limit, the limit of every worker
is a reachable pool. -/
theorem reachable_pool {L : SimulatedLoop α ρ β} {n max : ℕ} (hmax : 1 ≤ max) {s : St α ρ β}
    (hs : (server L n (some max)).Reachable s) (w : ℕ) :
    ∃ c, (s.worker w).limit = some c ∧ (Pool.sys max).Reachable (s.pool w c) := by
  refine (server L n (some max)).invariant
    (fun s => ∃ c, (s.worker w).limit = some c ∧ (Pool.sys max).Reachable (s.pool w c)) ?_ ?_ s hs
  · refine ⟨⟨max, 0, false, false⟩, if_pos hmax, ?_⟩
    exact Lts.Sys.Reachable.refl _
  · intro l s hg h
    rcases h with ⟨c, hlimit, hreach⟩
    rcases pool_step hg hlimit with ⟨c', hlimit', hmoves⟩
    exact ⟨c', hlimit', hmoves.reachable hreach⟩

end Simulated

/-! ## The counter of every limit is exact -/

/-- With a limit of `max ≥ 1` handlers on a worker, in every reachable state of
every handler server, native or simulated: the counter of the worker's limit is
the number of its live permits (of the loops, in a queued item, of a handler, or
in a drop that has not decremented yet) and is at most `max`, so at most `max`
handlers run on the worker; no drop reads the counter at zero or leaves without
its decrement; and with no live permit the counter is zero. -/
theorem limits_exact {max : ℕ} (hmax : 1 ≤ max) (n w : ℕ) :
    (∀ (L : NativeLoop α ρ β) (s : Lts.Fleet Flags (Native.Worker α ρ β)),
      (Native.server L n (some max)).Reachable s →
      ∃ c, (s.proc w).limit = some c ∧
        Share.Exact max c ((s.proc w).pc.share + Handler.total (s.proc w).handlers) ∧
        Handler.runningCount (s.proc w).handlers ≤ max) ∧
    ∀ (L : SimulatedLoop α ρ β) (s : Simulated.St α ρ β),
      (Simulated.server L n (some max)).Reachable s →
      ∃ c, (s.worker w).limit = some c ∧
        Share.Exact max c (s.pc.share w + ((s.worker w).pc.share +
          (Simulated.queueShare (s.worker w).queue + Handler.total (s.worker w).handlers))) ∧
        Handler.runningCount (s.worker w).handlers ≤ max := by
  constructor
  · intro L s hs
    rcases Native.reachable_pool hmax hs w with ⟨c, hlimit, hpool⟩
    have hexact := Share.exact_of_reachable hpool
    have hrunning := Handler.runningCount_le (s.proc w).handlers
    have hactive := hexact.active_eq
    have hle := hexact.active_le
    refine ⟨c, hlimit, hexact, ?_⟩
    rw [Share.live_add] at hactive
    omega
  · intro L s hs
    rcases Simulated.reachable_pool hmax hs w with ⟨c, hlimit, hpool⟩
    have hexact := Share.exact_of_reachable hpool
    have hrunning := Handler.runningCount_le (s.worker w).handlers
    have hactive := hexact.active_eq
    have hle := hexact.active_le
    refine ⟨c, hlimit, hexact, ?_⟩
    simp only [Simulated.Worker.share, Share.live_add] at hactive
    omega

/-- A TCP server with one worker and one permit, native and simulated, each with a
connection in its handler. -/
theorem limits_exact_one :
    (∃ s, (Native.server tcpListenerLoopWithState 1 (some 1)).Reachable s ∧
      Handler.runningCount (s.proc 0).handlers = 1 ∧ ∃ c, (s.proc 0).limit = some c ∧
        Share.Exact 1 c ((s.proc 0).pc.share + Handler.total (s.proc 0).handlers) ∧
        Handler.runningCount (s.proc 0).handlers ≤ 1) ∧
    ∃ s, (Simulated.server (simulatedTcpAcceptLoop (.v4 #v[127, 0, 0, 1] 80)) 1
        (some 1)).Reachable s ∧
      Handler.runningCount (s.worker 0).handlers = 1 ∧ ∃ c, (s.worker 0).limit = some c ∧
        Share.Exact 1 c (s.pc.share 0 + ((s.worker 0).pc.share +
          (Simulated.queueShare (s.worker 0).queue + Handler.total (s.worker 0).handlers))) ∧
        Handler.runningCount (s.worker 0).handlers ≤ 1 := by
  let conn : Connection := ⟨7, .v4 #v[127, 0, 0, 1] 55000⟩
  let x : Received Connection Connection := ⟨conn, conn, .peer⟩
  let item : Item TcpWorkItem := ⟨⟨7⟩, .peer⟩
  constructor
  · have hexec := (Native.server tcpListenerLoopWithState 1 (some 1)).exists_run_of_exec
      [.proc 0 .start, .proc 0 (.load .runtime .head), .proc 0 (.load .server .head),
        .proc 0 (.poll .load false), .proc 0 (.poll (.cas 0) false),
        .proc 0 (.load .runtime .permit), .proc 0 (.load .server .permit),
        .proc 0 (.recv .peer conn), .proc 0 (.load .runtime (.item x)),
        .proc 0 (.load .server (.item x)), .proc 0 (.spawn x)]
      (fun s => Handler.runningCount (s.proc 0).handlers = 1) (by decide)
    rcases hexec with ⟨s, hrun, hone⟩
    exact ⟨s, ⟨_, hrun⟩, hone, (limits_exact (Nat.le_refl 1) 1 0).1 _ s ⟨_, hrun⟩⟩
  · have hexec := (Simulated.server (simulatedTcpAcceptLoop (.v4 #v[127, 0, 0, 1] 80)) 1
      (some 1)).exists_run_of_exec
      [.loop .start, .loop (.load .runtime .head), .loop (.load .server .head),
        .loop (.recv .peer conn), .loop (.load .runtime (.item x)),
        .loop (.load .server (.item x)), .loop (.route x), .loop (.tryAcquire 0 x .load false),
        .loop (.tryAcquire 0 x (.cas 0) false), .loop (.send 0 item), .worker 0 .start,
        .worker 0 .load, .worker 0 (.recv item), .worker 0 (.check item),
        .worker 0 (.spawn item)]
      (fun s => Handler.runningCount (s.worker 0).handlers = 1) (by decide)
    rcases hexec with ⟨s, hrun, hone⟩
    exact ⟨s, ⟨_, hrun⟩, hone, (limits_exact (Nat.le_refl 1) 1 0).2 _ s ⟨_, hrun⟩⟩

/-! ## A full worker does not stall the loop -/

namespace Simulated

theorem live_queueShare (queue : List (Item β)) : (queueShare queue).live = queue.length := by
  induction queue with
  | nil => rfl
  | cons x queue ih =>
      rw [queueShare_cons, Share.live_add, Share.live_idle, ih, List.length_cons, Nat.add_comm]

/-- The permits of the queued items and the one of the item to be sent are all live. -/
theorem queue_lt_of_sending {L : SimulatedLoop α ρ β} {n max : ℕ} (hmax : 1 ≤ max)
    {s : St α ρ β} (hs : (server L n (some max)).Reachable s) {w : ℕ} {item : Item β}
    (hpc : s.pc = .sending w item) : (s.worker w).queue.length < max := by
  rcases reachable_pool hmax hs w with ⟨c, -, hpool⟩
  have hexact := Share.exact_of_reachable hpool
  have hactive := hexact.active_eq
  have hle := hexact.active_le
  have hloop : (s.pc.share w).live = 1 := by
    rw [hpc, LoopPc.share, if_pos rfl]
    rfl
  simp only [Worker.share, Share.live_add, hloop, live_queueShare] at hactive
  omega

/-- With room in the queue of the worker, the loop has a step that no worker can withhold. -/
theorem exists_loopGuard (L : SimulatedLoop α ρ β) {s : St α ρ β} (hpc : s.pc ≠ .exited)
    (hroom : ∀ w item, s.pc = .sending w item →
      (s.worker w).queue.length < fallbackWorkQueueCapacity) :
    ∃ l, loopGuard L l s := by
  cases h : s.pc with
  | submitted => exact ⟨.start, h⟩
  | check c site => exact ⟨.load c site, h⟩
  | receiving => exact ⟨.recvErr, h⟩
  | routing x => exact ⟨.route x, h⟩
  | trying w x pc => exact ⟨.tryAcquire w x pc false, h⟩
  | sending w item => exact ⟨.send w item, h, hroom w item h⟩
  | dropping w pc => exact ⟨.drop w pc false, h⟩
  | exited => exact absurd h hpc

end Simulated

/-- In every reachable state of a simulated server whose limit does not exceed the capacity of
the queues: an item that is to be sent finds room, the send goes through and takes the loop to
its next turn, whatever the worker does; so the loop never waits for a worker. -/
theorem sends_without_waiting {max : ℕ} (hmax : 1 ≤ max)
    (hcapacity : max ≤ fallbackWorkQueueCapacity) (L : SimulatedLoop α ρ β) (n : ℕ)
    {s : Simulated.St α ρ β} (hs : (Simulated.server L n (some max)).Reachable s) :
    (∀ w item, s.pc = .sending w item →
      (s.worker w).queue.length < fallbackWorkQueueCapacity ∧
      (Simulated.server L n (some max)).guard (.loop (.send w item)) s ∧
      ((Simulated.server L n (some max)).update (.loop (.send w item)) s).pc =
        .check .runtime .head) ∧
    (s.pc ≠ .exited → ∃ l, (Simulated.server L n (some max)).guard (.loop l) s) := by
  have hroom : ∀ w item, s.pc = .sending w item →
      (s.worker w).queue.length < fallbackWorkQueueCapacity := by
    intro w item hpc
    exact Nat.lt_of_lt_of_le (Simulated.queue_lt_of_sending hmax hs hpc) hcapacity
  constructor
  · intro w item hpc
    have hlt := hroom w item hpc
    exact ⟨hlt, ⟨hpc, hlt⟩, rfl⟩
  · intro hpc
    exact Simulated.exists_loopGuard L hpc hroom

/-- Two permits on one worker that has not started: the second connection is about to be sent
while the first one is queued. -/
theorem sends_without_waiting_two :
    ∃ s, (Simulated.server (simulatedTcpAcceptLoop (.v4 Ipv4Addr.localhost 80)) 1
        (some 2)).Reachable s ∧
      (s.worker 0).queue.length = 1 ∧ s.pc = .sending 0 ⟨⟨8⟩, .peer⟩ ∧
      (Simulated.server (simulatedTcpAcceptLoop (.v4 Ipv4Addr.localhost 80)) 1 (some 2)).guard
        (.loop (.send 0 ⟨⟨8⟩, .peer⟩)) s := by
  let conn (stream : ℕ) : Connection := ⟨stream, .v4 Ipv4Addr.localhost 55000⟩
  let x (stream : ℕ) : Received Connection Connection := ⟨conn stream, conn stream, .peer⟩
  -- one turn of the loop, up to the send
  let turn (stream active : ℕ) :
      List (Simulated.Lbl Connection Connection TcpWorkItem) :=
    [.loop (.load .runtime .head), .loop (.load .server .head), .loop (.recv .peer (conn stream)),
      .loop (.load .runtime (.item (x stream))), .loop (.load .server (.item (x stream))),
      .loop (.route (x stream)), .loop (.tryAcquire 0 (x stream) .load false),
      .loop (.tryAcquire 0 (x stream) (.cas active) false)]
  have hexec := (Simulated.server (simulatedTcpAcceptLoop (.v4 Ipv4Addr.localhost 80)) 1
    (some 2)).exists_run_of_exec
      (.loop .start :: turn 7 0 ++ .loop (.send 0 ⟨⟨7⟩, .peer⟩) :: turn 8 1)
      (fun s => (s.worker 0).queue.length = 1 ∧ s.pc = .sending 0 ⟨⟨8⟩, .peer⟩) (by decide)
  rcases hexec with ⟨s, hrun, hqueue, hpc⟩
  have hsend := (sends_without_waiting (by decide : 1 ≤ 2) (by decide)
    (simulatedTcpAcceptLoop (.v4 Ipv4Addr.localhost 80)) 1 ⟨_, hrun⟩).1 0 _ hpc
  exact ⟨s, ⟨_, hrun⟩, hqueue, hpc, hsend.2.1⟩

end ReusePort
