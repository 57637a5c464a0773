import ReusePort.Lts
import ReusePort.Core.Net
import ReusePort.Runtime.Tokio
import Mathlib.Data.List.Induction

/-!
# ReusePort.Core.Startup — starting a server, and failing to

The `serve` functions of the three servers (`core/tcp.rs`, `core/udp.rs`, `core/quic.rs`)
bind their sockets, submit a task for every worker and register its handle with the
server's state; a simulated server then submits the loop that receives for all of them.
Each of these steps can fail, and `?` returns the error at once: nothing undoes the steps
before it. The server's state is dropped, which detaches the handles registered in it, and
the caller gets no handle to `close`.

The steps of a start-up are a list, its plan, one plan for each of the start functions. The
caller works through the plan while the tasks it has submitted already run. A dispatch loop
ends when the senders of its queue are dropped: with the error, if the shared loop that
would have owned them was not submitted. The calls of `state_factory`, which are the
application's, are not modelled.

* `tasks_submitted` — the tasks of a state are those that the plan has submitted so far;
* `idle_step` — once the call has returned an error, a server without a live task never
  has one again;
* `run_steps` — a plan can be followed up to any step, with every task still queued;
* `failedStart_iff` — when a start-up that fails leaves nothing running.
-/

namespace ReusePort.Startup

/-! ## Plans -/

/-- The tasks that are submitted. -/
inductive Kind where
  /-- The listener loop of a worker with a socket of its own. -/
  | listener
  /-- The user's callback, with the socket of a worker. -/
  | callback
  /-- The dispatch loop of a worker, for what the shared loop sends to it. -/
  | dispatch
  /-- The loop that receives for all workers; the senders are moved into it. -/
  | shared
deriving DecidableEq, Repr

/-- Where the handle of a task goes: `TcpServerState::tasks`, `UdpServerState::tasks`,
`UdpServerState::callback_tasks`. -/
inductive Registry where
  | tcpTasks
  | udpTasks
  | callbackTasks
deriving DecidableEq, Repr

/-- The error of `register_task` or `register_callback_task`. -/
def Registry.poisoned : Registry → Error
  | .tcpTasks => .runtime "tcp task registry lock poisoned"
  | .udpTasks => .runtime "udp task registry lock poisoned"
  | .callbackTasks => .runtime "udp callback task registry lock poisoned"

/-- Calls of a start-up that concern no task. -/
inductive Call where
  /-- `bind_tcp`, `bind_udp`, `bind_tcp_workers`, `bind_udp_workers` or
  `bind_quic_udp_reuseport_workers`. -/
  | bind
  | localAddr
  | tryClone
  /-- The lock of `register_close_socket`. -/
  | lockCloseSockets
deriving DecidableEq, Repr

/-- The errors that `From<io::Error>` makes. -/
def isIo : Error → Bool
  | .permissionDenied _ | .socket _ => true
  | _ => false

/-- The errors of a call. Binding has errors of many kinds, see `Platform.Bind`. -/
def Call.FailsWith : Call → Error → Prop
  | .bind, _ => True
  | .localAddr, e => isIo e = true
  | .tryClone, e => isIo e = true
  | .lockCloseSockets, e => e = .runtime "server socket registry lock poisoned"

instance : ∀ call e, Decidable (Call.FailsWith call e)
  | .bind, _ => inferInstanceAs (Decidable True)
  | .localAddr, _ => inferInstanceAs (Decidable (_ = _))
  | .tryClone, _ => inferInstanceAs (Decidable (_ = _))
  | .lockCloseSockets, _ => inferInstanceAs (Decidable (_ = _))

inductive Step where
  | call (call : Call)
  /-- A condition, and the error that is returned if it does not hold. -/
  | check (ok : Bool) (error : Error)
  /-- `spawn_task` of the executor of a worker. -/
  | submit (worker : ℕ) (kind : Kind)
  /-- The handle of the task that was submitted last goes into a registry. -/
  | register (registry : Registry)
deriving DecidableEq, Repr

/-- The runtime that the crate is built with. -/
inductive Runtime where
  | tokio
  | asyncStd
deriving DecidableEq, Repr

/-- What the outcome of a start-up depends on. -/
structure Setup where
  runtime : Runtime
  workers : ℕ
  /-- `routed_packet_channel_capacity` of the configuration. -/
  capacity : ℕ
  /-- `platform::capabilities().reuse_port_balancing`. -/
  reusePortBalancing : Bool
  /-- `bind_quic_udp_reuseport_workers` returns sockets, not `None`. -/
  quicSelector : Bool
deriving DecidableEq, Repr

/-- `SUPPORTS_USERSPACE_REUSEPORT_SIMULATION` of `runtime/tokio.rs` and
`runtime/async_std.rs`. -/
def Runtime.supportsSimulation : Runtime → Bool
  | .tokio => true
  | .asyncStd => true

/-- `validate_routed_packet_channel_capacity`. -/
def checkCapacity (setup : Setup) : Step :=
  .check (setup.capacity ≠ 0)
    (.invalidConfig "routed packet channel capacity must be greater than zero")

def checkWorkers (setup : Setup) : Step :=
  .check (0 < setup.workers) (.invalidConfig "worker count must be greater than zero")

def checkSimulation (setup : Setup) : Step :=
  .check setup.runtime.supportsSimulation
    (.unsupportedPlatformOption "selected runtime requires native reuse-port worker sockets")

/-- Submission to a worker by its index, by `submit_to_worker` or through
`worker_executors`, and registration of the handle. -/
def submitTask (setup : Setup) (worker : ℕ) (kind : Kind) (registry : Registry) : List Step :=
  [.check (worker < setup.workers) (.invalidConfig "worker index is out of range"),
    .submit worker kind, .register registry]

/-- The start functions that give every worker a socket of its own. -/
def nativeStart (kind : Kind) (registry : Registry) (setup : Setup) : List Step :=
  [.call .bind, checkWorkers setup] ++
    (List.range setup.workers).flatMap fun worker => submitTask setup worker kind registry

/-- The start functions that bind one socket: what they do with it first, what they do
for a worker before its task is submitted, and the shared loop, on worker `0`. -/
def simulatedStart (first each : List Step) (kind : Kind) (registry loopRegistry : Registry)
    (setup : Setup) : List Step :=
  [checkSimulation setup, .call .bind] ++ first ++
    ((List.range setup.workers).flatMap fun worker =>
      each ++ submitTask setup worker kind registry) ++
    submitTask setup 0 .shared loopRegistry

namespace Tcp

def addReusePortListenerWithState : Setup → List Step := nativeStart .listener .tcpTasks

def addSimulatedListenerWithState : Setup → List Step :=
  simulatedStart [.call .localAddr] [] .dispatch .tcpTasks .tcpTasks

/-- `TcpServer::serve_with_state`. `serve` calls it with the unit state;
`TcpServiceConfig::validate` accepts everything. -/
def serveWithState (setup : Setup) : List Step :=
  if !setup.reusePortBalancing then addSimulatedListenerWithState setup
  else addReusePortListenerWithState setup

end Tcp

namespace Udp

def addReusePortListenerWithState : Setup → List Step := nativeStart .listener .udpTasks

def addSocketCallbackReusePortListener : Setup → List Step := nativeStart .callback .callbackTasks

def addSimulatedListenerWithState : Setup → List Step :=
  simulatedStart [] [] .dispatch .udpTasks .udpTasks

/-- `register_close_socket` takes the lock and clones the socket under it. The routed
socket of each worker has another clone. -/
def addSocketCallbackSimulatedListener (setup : Setup) : List Step :=
  simulatedStart [.call .lockCloseSockets, .call .tryClone, .call .localAddr, checkWorkers setup]
    [.call .tryClone] .callback .callbackTasks .udpTasks setup

/-- `UdpServer::serve_with_state`. `validate` is the check of the capacity too. -/
def serveWithState (setup : Setup) : List Step :=
  [checkCapacity setup, checkCapacity setup] ++
    if !setup.reusePortBalancing then addSimulatedListenerWithState setup
    else addReusePortListenerWithState setup

/-- `UdpServer::serve_socket`. -/
def serveSocket (setup : Setup) : List Step :=
  [checkCapacity setup, checkCapacity setup] ++
    if !setup.reusePortBalancing then addSocketCallbackSimulatedListener setup
    else addSocketCallbackReusePortListener setup

end Udp

namespace Quic

def addQuicReuseportBpfListenerWithState : Setup → List Step := nativeStart .listener .udpTasks

def addQuicSocketCallbackReuseportBpfListener : Setup → List Step :=
  nativeStart .callback .callbackTasks

def addQuicSimulatedListenerWithState : Setup → List Step :=
  simulatedStart [] [] .dispatch .udpTasks .udpTasks

/-- A start function with a selector, and the one to fall back on when the platform has
bound no sockets with a selector (`Ok(None)`). -/
def orFallback (native simulated : Setup → List Step) (setup : Setup) : List Step :=
  if !setup.reusePortBalancing then simulated setup
  else if setup.quicSelector then native setup
  else .call .bind :: simulated setup

def addQuicRoutedListenerWithState : Setup → List Step :=
  orFallback addQuicReuseportBpfListenerWithState addQuicSimulatedListenerWithState

def addQuicSocketCallbackListener : Setup → List Step :=
  orFallback addQuicSocketCallbackReuseportBpfListener Udp.addSocketCallbackSimulatedListener

/-- `QuicServer::serve_with_state`. -/
def serveWithState (setup : Setup) : List Step :=
  [checkCapacity setup, checkCapacity setup] ++ addQuicRoutedListenerWithState setup

/-- `QuicServer::serve_socket`. -/
def serveSocket (setup : Setup) : List Step :=
  [checkCapacity setup, checkCapacity setup] ++ addQuicSocketCallbackListener setup

end Quic

/-- The functions that start a server. `serve` is `serve_with_state` with the unit state. -/
inductive Entry where
  | tcpServe
  | udpServe
  | udpServeSocket
  | quicServe
  | quicServeSocket
deriving DecidableEq, Repr

def Entry.plan : Entry → Setup → List Step
  | .tcpServe => Tcp.serveWithState
  | .udpServe => Udp.serveWithState
  | .udpServeSocket => Udp.serveSocket
  | .quicServe => Quic.serveWithState
  | .quicServeSocket => Quic.serveSocket

/-! ## The run of a plan -/

inductive Phase where
  | queued
  | running
  | ended
deriving DecidableEq, Repr

structure Task where
  worker : ℕ
  kind : Kind
  phase : Phase
  /-- The registry that its handle is in. -/
  registry : Option Registry
deriving DecidableEq, Repr

/-- The steps done, what the call has returned, the tasks submitted, the server's `active`
flag, and the workers whose executor has stopped. -/
structure St where
  done : ℕ
  result : Option (Except Error Unit)
  tasks : List Task
  active : Bool
  stopped : List ℕ
deriving DecidableEq

/-- The server's state is new: `active` is set, the registries are empty. -/
def initial : St where
  done := 0
  result := none
  tasks := []
  active := true
  stopped := []

/-- `spawn_task`, on an executor that runs or has stopped. The executor of async-std
accepts tasks that nobody will poll any more. -/
def Runtime.spawnTask : Runtime → Bool → Except Error Unit
  | .tokio, running => ((Tokio.spawnTask running 0).map fun _ => ()).mapError Error.ofIo
  | .asyncStd, _ => .ok ()

/-- A task is scheduled or running: it has not ended, nor has its executor. -/
def St.Live (s : St) (task : Task) : Prop := task.phase ≠ .ended ∧ task.worker ∉ s.stopped

instance (s : St) (task : Task) : Decidable (s.Live task) := inferInstanceAs (Decidable (_ ∧ _))

/-- What a task needs to call the handler. The loops check `active`, the socket callback
does not; a dispatch loop has to be sent something by the shared loop. -/
def St.MayInvoke (s : St) : Kind → Prop
  | .listener => s.active = true
  | .callback => True
  | .dispatch => s.active = true ∧ ∃ loop ∈ s.tasks, loop.kind = .shared ∧ loop.phase ≠ .queued
  | .shared => False

instance : ∀ (s : St) kind, Decidable (s.MayInvoke kind)
  | _, .listener => inferInstanceAs (Decidable (_ = _))
  | _, .callback => inferInstanceAs (Decidable True)
  | _, .dispatch => inferInstanceAs (Decidable (_ ∧ _))
  | _, .shared => inferInstanceAs (Decidable False)

inductive Lbl where
  /-- The next step of the plan succeeds. -/
  | step
  /-- The next step of the plan fails, and the call returns its error. -/
  | fail (error : Error)
  /-- The plan is done, and the call returns the server. -/
  | finish
  /-- `close` of the server that was returned. -/
  | close
  /-- The first poll of a task. -/
  | poll (t : ℕ)
  /-- The user's callback runs in a task, or the handler is called from it. -/
  | invoke (t : ℕ)
  /-- A task ends. -/
  | exit (t : ℕ)
  /-- The executor of a worker stops and drops its tasks. -/
  | stop (w : ℕ)
deriving DecidableEq

/-- The step can succeed. -/
def Step.Passes (rt : Runtime) (s : St) : Step → Prop
  | .call _ => True
  | .check ok _ => ok = true
  | .submit worker _ => rt.spawnTask (worker ∉ s.stopped) = .ok ()
  | .register _ => True

/-- The step can fail with the error. -/
def Step.Fails (rt : Runtime) (s : St) : Step → Error → Prop
  | .call c, e => c.FailsWith e
  | .check ok error, e => ok = false ∧ e = error
  | .submit worker _, e => rt.spawnTask (worker ∉ s.stopped) = .error e
  | .register registry, e => e = registry.poisoned

instance (rt : Runtime) (s : St) : ∀ step, Decidable (Step.Passes rt s step)
  | .call _ => inferInstanceAs (Decidable True)
  | .check _ _ => inferInstanceAs (Decidable (_ = _))
  | .submit _ _ => inferInstanceAs (Decidable (_ = _))
  | .register _ => inferInstanceAs (Decidable True)

instance (rt : Runtime) (s : St) : ∀ step e, Decidable (Step.Fails rt s step e)
  | .call c, e => inferInstanceAs (Decidable (c.FailsWith e))
  | .check _ _, _ => inferInstanceAs (Decidable (_ ∧ _))
  | .submit _ _, _ => inferInstanceAs (Decidable (_ = _))
  | .register _, _ => inferInstanceAs (Decidable (_ = _))

/-- The tasks after a step. -/
def Step.tasks : Step → List Task → List Task
  | .submit worker kind, tasks => tasks ++ [⟨worker, kind, .queued, none⟩]
  | .register registry, tasks =>
      tasks.modify (tasks.length - 1) fun task => { task with registry := some registry }
  | _, tasks => tasks

/-- `close` cancels the tasks whose handles are in `tasks`; the handles in
`callback_tasks` are dropped, which detaches them. -/
def Task.closed (task : Task) : Task :=
  if task.registry = some .tcpTasks ∨ task.registry = some .udpTasks then
    { task with phase := .ended }
  else task

def guard (rt : Runtime) (plan : List Step) : Lbl → St → Prop
  | .step, s => s.result = none ∧ ∃ step ∈ plan[s.done]?, step.Passes rt s
  | .fail e, s => s.result = none ∧ ∃ step ∈ plan[s.done]?, step.Fails rt s e
  | .finish, s => s.result = none ∧ s.done = plan.length
  | .close, s => s.result = some (.ok ())
  | .poll t, s => ∃ task ∈ s.tasks[t]?, s.Live task ∧ task.phase = .queued
  | .invoke t, s =>
      ∃ task ∈ s.tasks[t]?, s.Live task ∧ task.phase = .running ∧ s.MayInvoke task.kind
  | .exit t, s => ∃ task ∈ s.tasks[t]?, s.Live task
  | .stop w, s => w ∉ s.stopped

instance (rt : Runtime) (plan : List Step) : ∀ l s, Decidable (guard rt plan l s)
  | .step, _ => inferInstanceAs (Decidable (_ ∧ _))
  | .fail _, _ => inferInstanceAs (Decidable (_ ∧ _))
  | .finish, _ => inferInstanceAs (Decidable (_ ∧ _))
  | .close, _ => inferInstanceAs (Decidable (_ = _))
  | .poll t, s => inferInstanceAs (Decidable (∃ task ∈ s.tasks[t]?, _ ∧ _))
  | .invoke t, s => inferInstanceAs (Decidable (∃ task ∈ s.tasks[t]?, _ ∧ _))
  | .exit t, s => inferInstanceAs (Decidable (∃ task ∈ s.tasks[t]?, _))
  | .stop _, _ => inferInstanceAs (Decidable (_ ∉ _))

def St.setPhase (s : St) (t : ℕ) (phase : Phase) : St :=
  { s with tasks := s.tasks.modify t fun task => { task with phase := phase } }

/-- The failing step writes the result and nothing else: dropping the server's state
leaves `active` set and detaches the handles. -/
def update (plan : List Step) : Lbl → St → St
  | .step, s =>
      { s with
        done := s.done + 1
        tasks := (plan[s.done]?.map fun step => step.tasks s.tasks).getD s.tasks }
  | .fail e, s => { s with result := some (.error e) }
  | .finish, s => { s with result := some (.ok ()) }
  | .close, s => { s with active := false, tasks := s.tasks.map Task.closed }
  | .poll t, s => s.setPhase t .running
  | .invoke _, s => s
  | .exit t, s => s.setPhase t .ended
  | .stop w, s => { s with stopped := w :: s.stopped }

/-- A plan, followed by the caller while the tasks run. -/
def start (rt : Runtime) (plan : List Step) : Lts.Sys St Lbl where
  init := initial
  guard := guard rt plan
  update := update plan

instance (rt : Runtime) (plan : List Step) (l : Lbl) (s : St) :
    Decidable ((start rt plan).guard l s) :=
  inferInstanceAs (Decidable (guard rt plan l s))

/-- A call of one of the functions that start a server. -/
def Entry.start (entry : Entry) (setup : Setup) : Lts.Sys St Lbl :=
  Startup.start setup.runtime (entry.plan setup)

/-! ## The tasks of a start-up -/

/-- Writing one task leaves alone what the write does not change. -/
theorem map_modify_of_keeps {α β : Type} {g : α → β} {f : α → α} (h : ∀ a, g (f a) = g a)
    (l : List α) (i : ℕ) : (l.modify i f).map g = l.map g := by
  induction l generalizing i with
  | nil => simp
  | cons a l ih =>
      cases i with
      | zero => simp [h]
      | succ i => simp [ih]

@[simp] theorem workers_setPhase (s : St) (t : ℕ) (phase : Phase) :
    (s.setPhase t phase).tasks.map Task.worker = s.tasks.map Task.worker := by
  apply map_modify_of_keeps
  intro task
  rfl

/-- Registering the last task changes nothing but its registry. -/
theorem map_register {β : Type} {g : Task → β} (registry : Registry) (tasks : List Task)
    (h : ∀ task : Task, g { task with registry := some registry } = g task) :
    ((Step.register registry).tasks tasks).map g = tasks.map g :=
  map_modify_of_keeps h tasks (tasks.length - 1)

theorem worker_closed (task : Task) : task.closed.worker = task.worker := by
  unfold Task.closed
  split <;> rfl

/-- One more step of the plan is taken. -/
theorem take_succ_of_getElem? {plan : List Step} {k : ℕ} {step : Step}
    (h : plan[k]? = some step) : plan.take (k + 1) = plan.take k ++ [step] := by
  rw [List.take_add_one, h, Option.toList_some]

theorem update_step {plan : List Step} {s : St} {step : Step} (h : plan[s.done]? = some step) :
    update plan .step s = { s with done := s.done + 1, tasks := step.tasks s.tasks } := by
  simp only [update, h, Option.map_some, Option.getD_some]

/-- Only the step that submits to a worker adds a task to it. -/
theorem workers_step {step : Step} {tasks : List Task} {w : ℕ}
    (h : w ∈ (step.tasks tasks).map Task.worker) :
    w ∈ tasks.map Task.worker ∨ ∃ kind, step = .submit w kind := by
  cases step with
  | call c => exact Or.inl h
  | check ok error => exact Or.inl h
  | submit worker kind =>
      simp only [Step.tasks, List.map_append, List.map_cons, List.map_nil, List.mem_append,
        List.mem_singleton] at h
      rcases h with h | rfl
      · exact Or.inl h
      · exact Or.inr ⟨kind, rfl⟩
  | register registry =>
      rw [map_register registry tasks fun _ => rfl] at h
      exact Or.inl h

/-- The workers that have been given a task are those the plan has submitted to. -/
theorem tasks_submitted {rt : Runtime} {plan : List Step} {s : St}
    (hs : (start rt plan).Reachable s) :
    ∀ w ∈ s.tasks.map Task.worker, ∃ kind, Step.submit w kind ∈ plan.take s.done := by
  refine (start rt plan).invariant
    (fun s => ∀ w ∈ s.tasks.map Task.worker, ∃ kind, Step.submit w kind ∈ plan.take s.done)
    (by simp [start, initial]) ?_ s hs
  intro l s hg hinv w hw
  cases l with
  | step =>
      rcases hg with ⟨-, step, hstep, -⟩
      rw [show (start rt plan).update .step s = _ from update_step hstep] at hw ⊢
      rw [take_succ_of_getElem? hstep]
      rcases workers_step hw with hold | ⟨kind, rfl⟩
      · rcases hinv w hold with ⟨kind, hkind⟩
        exact ⟨kind, List.mem_append_left _ hkind⟩
      · exact ⟨kind, List.mem_append_right _ (List.mem_singleton_self _)⟩
  | fail e => exact hinv w hw
  | finish => exact hinv w hw
  | close =>
      -- cancelling a task leaves it on its worker
      refine hinv w ?_
      simpa [start, update, Function.comp_def, worker_closed] using hw
  | poll t => exact hinv w (by simpa only [start, update, workers_setPhase] using hw)
  | invoke t => exact hinv w hw
  | exit t => exact hinv w (by simpa only [start, update, workers_setPhase] using hw)
  | stop v => exact hinv w hw

/-! ## After an error -/

/-- The call has returned an error and none of its tasks is scheduled or running. -/
structure Idle (s : St) : Prop where
  failed : ∃ e, s.result = some (.error e)
  no_live : ∀ task ∈ s.tasks, ¬ s.Live task

/-- There is no way out of it: the caller has returned, without a server to close, and
a task that is not live takes no step. -/
theorem idle_step {rt : Runtime} {plan : List Step} (l : Lbl) (s : St) (hg : guard rt plan l s)
    (h : Idle s) : Idle (update plan l s) := by
  rcases h with ⟨⟨e, he⟩, hlive⟩
  cases l with
  | step => simp [guard, he] at hg
  | fail e' => simp [guard, he] at hg
  | finish => simp [guard, he] at hg
  | close => simp [guard, he] at hg
  | poll t =>
      rcases hg with ⟨task, htask, hl, -⟩
      exact absurd hl (hlive task (List.mem_of_getElem? htask))
  | invoke t => exact ⟨⟨e, he⟩, hlive⟩
  | exit t =>
      rcases hg with ⟨task, htask, hl⟩
      exact absurd hl (hlive task (List.mem_of_getElem? htask))
  | stop w =>
      refine ⟨⟨e, he⟩, fun task htask hl => hlive task htask ?_⟩
      exact ⟨hl.1, fun hw => hl.2 (List.mem_cons_of_mem w hw)⟩

/-- An idle server calls no user code. -/
theorem idle_not_invoke {rt : Runtime} {plan : List Step} (l : Lbl) (s : St)
    (hg : guard rt plan l s) (h : Idle s) : ¬ ∃ t, l = .invoke t := by
  rintro ⟨t, rfl⟩
  rcases hg with ⟨task, htask, hl, -⟩
  exact h.no_live task (List.mem_of_getElem? htask) hl

/-- From here on, no task is scheduled or running unless it sees an inactive server, and
neither the handler nor the callback is called. -/
def LeavesNothing (S : Lts.Sys St Lbl) (s : St) : Prop :=
  ∀ tr s', S.Run s tr s' →
    (∀ task ∈ s'.tasks, s'.Live task → s'.active = false) ∧ ∀ l ∈ tr, ¬ ∃ t, l = .invoke t

theorem Idle.leavesNothing {rt : Runtime} {plan : List Step} {s : St} (h : Idle s) :
    LeavesNothing (start rt plan) s := by
  intro tr s' hrun
  constructor
  · have hidle : Idle s' := hrun.preserves Idle h idle_step
    intro task htask hlive
    exact absurd hlive (hidle.no_live task htask)
  · exact hrun.avoids Idle _ h idle_step idle_not_invoke

/-! ## Up to the step that fails -/

/-- The tasks that steps submit, when none of them has run yet. -/
def tasksAfter (steps : List Step) : List Task :=
  steps.foldl (fun tasks step => step.tasks tasks) []

theorem tasksAfter_concat (steps : List Step) (step : Step) :
    tasksAfter (steps ++ [step]) = step.tasks (tasksAfter steps) := by
  simp [tasksAfter]

/-- Every submission is still queued. -/
theorem queued_tasksAfter {steps : List Step} {w : ℕ} {kind : Kind}
    (h : Step.submit w kind ∈ steps) :
    (w, Phase.queued) ∈ (tasksAfter steps).map fun task => (task.worker, task.phase) := by
  induction steps using List.reverseRecOn with
  | nil => simp at h
  | append_singleton steps step ih =>
      rw [tasksAfter_concat]
      rcases List.mem_append.mp h with hold | hnew
      · -- the later step keeps the tasks that are there
        have hold := ih hold
        cases step with
        | call c => exact hold
        | check ok error => exact hold
        | submit worker kind =>
            rw [Step.tasks, List.map_append]
            exact List.mem_append_left _ hold
        | register registry =>
            rw [map_register registry _ fun _ => rfl]
            exact hold
      · rw [← List.mem_singleton.mp hnew, Step.tasks, List.map_append]
        exact List.mem_append_right _ (List.mem_singleton_self _)

/-- The state after `k` steps of the plan, before any of the tasks has run. -/
def followed (plan : List Step) (k : ℕ) : St :=
  { initial with done := k, tasks := tasksAfter (plan.take k) }

@[simp] theorem spawnTask_running (rt : Runtime) : rt.spawnTask true = .ok () := by
  cases rt <;> rfl

/-- Whether a step can succeed depends on the executors only. -/
theorem Step.Passes.of_stopped {rt : Runtime} {s s' : St} {step : Step}
    (h : step.Passes rt s) (hstopped : s'.stopped = s.stopped) : step.Passes rt s' := by
  cases step with
  | call c => exact h
  | check ok error => exact h
  | register registry => exact h
  | submit worker kind =>
      unfold Step.Passes at h ⊢
      rw [hstopped]
      exact h

/-- A plan whose checks hold can be followed, as long as the executors run. -/
theorem run_steps {rt : Runtime} {plan : List Step} {k : ℕ} (hk : k ≤ plan.length)
    (hpasses : ∀ step ∈ plan.take k, step.Passes rt initial) :
    (start rt plan).Run initial (List.replicate k .step) (followed plan k) := by
  induction k with
  | zero => exact .nil
  | succ k ih =>
      have hstep : plan[k]? = some plan[k] := List.getElem?_eq_getElem hk
      rw [take_succ_of_getElem? hstep] at hpasses
      have hrun := ih (by omega) fun step h => hpasses step (List.mem_append_left _ h)
      have hpass := hpasses plan[k] (List.mem_append_right _ (List.mem_singleton_self _))
      have hguard : (start rt plan).guard .step (followed plan k) := by
        exact ⟨rfl, plan[k], hstep, hpass.of_stopped rfl⟩
      have hupdate : update plan .step (followed plan k) = followed plan (k + 1) := by
        rw [update_step hstep, followed, followed, take_succ_of_getElem? hstep, tasksAfter_concat]
      rw [List.replicate_succ', ← hupdate]
      exact .snoc .step hrun hguard

/-- A submission fails only on an executor that has stopped. -/
theorem stopped_of_fails {rt : Runtime} {s : St} {w : ℕ} {kind : Kind} {e : Error}
    (h : (Step.submit w kind).Fails rt s e) : w ∈ s.stopped := by
  by_contra hrunning
  simp [Step.Fails, hrunning] at h

/-- The worker whose executor has to stop for the step to fail. -/
def Step.needsStopped : Step → List ℕ
  | .submit worker _ => [worker]
  | _ => []

/-- What can fail, fails once that executor has stopped. -/
theorem fails_of_stopped {rt : Runtime} {s s' : St} {step : Step} {e : Error}
    (h : step.Fails rt s e) (hstopped : s'.stopped = step.needsStopped) : step.Fails rt s' e := by
  cases step with
  | call c => exact h
  | check ok error => exact h
  | register registry => exact h
  | submit worker kind =>
      have hs : worker ∈ s.stopped := stopped_of_fails h
      simpa [Step.Fails, hstopped, Step.needsStopped, hs] using h

/-- The start-up can come to its step `p` and fail there, with the tasks of the steps
before it still queued and all executors running that the step does not need stopped. -/
theorem exists_failing {rt : Runtime} {plan : List Step} {p : ℕ} {step : Step} {e : Error}
    (hstep : plan[p]? = some step) (hbefore : ∀ step ∈ plan.take p, step.Passes rt initial)
    (hfails : ∃ s, step.Fails rt s e) :
    ∃ s, (start rt plan).Reachable s ∧ s.done = p ∧ guard rt plan (.fail e) s ∧
      s.active = true ∧ s.tasks = tasksAfter (plan.take p) ∧ s.stopped = step.needsStopped := by
  rcases hfails with ⟨s₀, hs₀⟩
  have hp : p ≤ plan.length := (List.getElem?_eq_some_iff.mp hstep).1.le
  have hreach : (start rt plan).Reachable (followed plan p) := ⟨_, run_steps hp hbefore⟩
  cases step with
  | submit worker kind =>
      -- the executor of this worker stops first
      have hstop : (start rt plan).guard (.stop worker) (followed plan p) :=
        List.not_mem_nil
      refine ⟨_, hreach.step hstop, rfl, ⟨rfl, _, hstep, ?_⟩, rfl, rfl, rfl⟩
      exact fails_of_stopped hs₀ rfl
  | call c => exact ⟨_, hreach, rfl, ⟨rfl, _, hstep, hs₀⟩, rfl, rfl, rfl⟩
  | check ok error => exact ⟨_, hreach, rfl, ⟨rfl, _, hstep, hs₀⟩, rfl, rfl, rfl⟩
  | register registry => exact ⟨_, hreach, rfl, ⟨rfl, _, hstep, hs₀⟩, rfl, rfl, rfl⟩

/-! ## A failed start -/

/-- If all submissions before the failing step went to the worker that this step finds
stopped, none of their tasks is live. -/
theorem idle_of_fail {rt : Runtime} {plan : List Step} {s : St} {step : Step} {e : Error}
    (hs : (start rt plan).Reachable s) (hstep : plan[s.done]? = some step)
    (hfail : step.Fails rt s e)
    (hsame : ∀ w kind, Step.submit w kind ∈ plan.take s.done → ∃ kind', step = .submit w kind') :
    Idle (update plan (.fail e) s) := by
  refine ⟨⟨e, rfl⟩, ?_⟩
  intro task htask hlive
  rcases tasks_submitted hs task.worker (List.mem_map_of_mem htask) with ⟨kind, hkind⟩
  rcases hsame task.worker kind hkind with ⟨kind', rfl⟩
  have hstopped : task.worker ∈ s.stopped := stopped_of_fails hfail
  exact hlive.2 hstopped

/-- A failing step after a submission to another worker leaves that task scheduled. -/
theorem live_of_fail {plan : List Step} {p w : ℕ} {kind : Kind} {step : Step} {s : St}
    (hkind : Step.submit w kind ∈ plan.take p) (hother : ∀ kind', step ≠ .submit w kind')
    (htasks : s.tasks = tasksAfter (plan.take p))
    (hstopped : s.stopped = step.needsStopped) :
    ∃ task ∈ s.tasks, s.Live task := by
  rcases List.mem_map.mp (queued_tasksAfter hkind) with ⟨task, htask, hplace⟩
  rcases Prod.mk.inj hplace with ⟨hworker, hphase⟩
  refine ⟨task, htasks ▸ htask, ?_, ?_⟩
  · rw [hphase]
    decide
  · rw [hstopped, hworker]
    cases step with
    | submit worker kind' =>
        intro hmem
        exact hother kind' (by rw [List.mem_singleton.mp hmem])
    | call c => exact List.not_mem_nil
    | check ok error => exact List.not_mem_nil
    | register registry => exact List.not_mem_nil

/-- Every call of a function that starts a server, at every step `p` that it can come to
and that can fail. The failure leaves nothing running, in every run, exactly if nothing
was submitted before step `p`, or all of it to the one worker whose executor the step
finds stopped. -/
theorem failedStart_iff (entry : Entry) (setup : Setup) (p : ℕ) (step : Step) (e : Error)
    (hstep : (entry.plan setup)[p]? = some step)
    (hbefore : ∀ before ∈ (entry.plan setup).take p, before.Passes setup.runtime initial)
    (hfails : ∃ s, step.Fails setup.runtime s e) :
    (∀ s, (entry.start setup).Reachable s → s.done = p → (entry.start setup).guard (.fail e) s →
        LeavesNothing (entry.start setup) ((entry.start setup).update (.fail e) s)) ↔
      ∀ w kind, Step.submit w kind ∈ (entry.plan setup).take p →
        ∃ kind', step = .submit w kind' := by
  constructor
  · intro hclean w kind hkind
    by_contra hother
    push Not at hother
    rcases exists_failing hstep hbefore hfails with
      ⟨s, hreach, hdone, hguard, hactive, htasks, hstopped⟩
    rcases live_of_fail hkind hother htasks hstopped with ⟨task, htask, hlive⟩
    -- the task is scheduled when the call returns, and the server is active
    have hinactive := (hclean s hreach hdone hguard [] _ .nil).1 task htask hlive
    rw [show s.active = false from hinactive] at hactive
    cases hactive
  · intro hsame s hreach hdone hguard
    rcases hguard with ⟨-, step', hstep', hfail⟩
    subst hdone
    obtain rfl : step' = step := Option.some.inj (hstep'.symm.trans hstep)
    exact (idle_of_fail hreach hstep hfail hsame).leavesNothing

/-- Two workers behind one socket, on a platform without balancing. -/
def twoRouted : Setup where
  runtime := .tokio
  workers := 2
  capacity := 1
  reusePortBalancing := false
  quicSelector := false

/-- `UdpServer::serve_socket` runs out of descriptors when it clones the socket for the
second of two workers. The call has returned the error; then the task of the first worker
is polled for the first time, and calls the user's callback. -/
theorem callback_runs_after_error :
    ∃ s s', (Entry.udpServeSocket.start twoRouted).Reachable s ∧
      s.result = some (.error (.socket "Too many open files (os error 24)")) ∧
      (Entry.udpServeSocket.start twoRouted).Run s [.poll 0, .invoke 0] s' ∧
      s'.active = true ∧ ∃ task ∈ s'.tasks, s'.Live task := by
  let S := Startup.start .tokio (Entry.udpServeSocket.plan twoRouted)
  have hfail := S.exists_run_of_exec
    (List.replicate 12 .step ++ [.fail (.socket "Too many open files (os error 24)")])
    (fun s => s.result = some (.error (.socket "Too many open files (os error 24)")) ∧
      ∃ s' ∈ S.exec s [.poll 0, .invoke 0],
        s'.active = true ∧ ∃ task ∈ s'.tasks, s'.Live task)
    (by decide)
  rcases hfail with ⟨s, hrun, hresult, s', hexec, hlive⟩
  exact ⟨s, s', ⟨_, hrun⟩, hresult, S.run_of_exec hexec, hlive⟩

/-- One worker behind one listener. -/
def oneRouted : Setup where
  runtime := .tokio
  workers := 1
  capacity := 1
  reusePortBalancing := false
  quicSelector := false

/-- The shared accept loop of a TCP server with one worker cannot be submitted: the worker
has stopped, and its dispatch loop with it. -/
theorem failedStart_iff_single :
    ∃ s, (Entry.tcpServe.start oneRouted).Reachable s ∧ s.tasks ≠ [] ∧
      (Entry.tcpServe.start oneRouted).guard (.fail (.socket "worker runtime stopped")) s ∧
      LeavesNothing (Entry.tcpServe.start oneRouted)
        ((Entry.tcpServe.start oneRouted).update (.fail (.socket "worker runtime stopped")) s) := by
  let S := Startup.start .tokio (Entry.tcpServe.plan oneRouted)
  have hstop := S.exists_run_of_exec (List.replicate 7 .step ++ [.stop 0])
    (fun s => s.done = 7 ∧ s.tasks ≠ [] ∧ S.guard (.fail (.socket "worker runtime stopped")) s)
    (by decide)
  rcases hstop with ⟨s, hrun, hdone, htasks, hguard⟩
  have hfails : ∃ s, (Step.submit 0 .shared).Fails .tokio s (.socket "worker runtime stopped") :=
    ⟨{ initial with stopped := [0] }, by decide⟩
  have hsame : ∀ w kind, Step.submit w kind ∈ (Entry.tcpServe.plan oneRouted).take 7 →
      ∃ kind', Step.submit 0 .shared = .submit w kind' := by
    intro w kind hkind
    simp [Entry.plan, Tcp.serveWithState, Tcp.addSimulatedListenerWithState, simulatedStart,
      submitTask, checkSimulation, oneRouted, List.range_succ] at hkind
    exact ⟨.shared, by rw [hkind.1]⟩
  have hclean := (failedStart_iff .tcpServe oneRouted 7 (.submit 0 .shared)
    (.socket "worker runtime stopped") rfl (by decide) hfails).mpr hsame
  exact ⟨s, ⟨_, hrun⟩, htasks, hguard, hclean s ⟨_, hrun⟩ hdone hguard⟩

end ReusePort.Startup
