import Mathlib.Data.List.AList
import ReusePort.Core.Net
import ReusePort.Lts

/-!
# ReusePort.Runtime.Tokio — the task table of a tokio worker

A worker thread (`runtime/tokio.rs`) owns a `LocalSet` and runs the loop of
`park_until_shutdown`. Any thread may submit a task: `ExecutorHandle::spawn_task`
takes an id from a counter and then sends `Spawn`, in two steps that other threads
can come between. The handle that it returns can be cancelled, which sends `Cancel`
on the same queue. The loop spawns and aborts local tasks and keeps their join
handles in a map; a task that ends reports its id on a second queue, through a guard
that exists from its first poll on.

* `Queued` — what the submitting threads and the command queue guarantee;
* `Table` — what the loop, the tasks and the completion queue guarantee;
* `taskTable_exact` — the map is exactly the table of the submitted tasks that were
  neither cancelled nor reported as ended;
* `cancelled_not_polled` — a task is not polled again after its cancellation.
-/

namespace ReusePort

namespace Tokio

/-! ## The worker -/

/-- `TaskCommand`. A closure stands for itself: `task` is the number of the
`spawn_task` call that it was given to. -/
inductive TaskCommand where
  | spawn (id : UInt64) (task : ℕ)
  | cancel (id : UInt64)
deriving DecidableEq, Repr

/-- `TaskHandle`, in the form that `spawn_task` returns; the sender in it is the
worker's queue. -/
structure TaskHandle where
  id : UInt64
deriving DecidableEq, Repr

/-- A task of the `LocalSet`, with the id that its future has captured. From its
first poll on the future owns a `TaskCompletionGuard`. -/
inductive TaskPc where
  | unspawned
  | spawned (id : UInt64)
  | polled (id : UInt64)
  | ended
deriving DecidableEq, Repr

/-- The future exists and has not ended. -/
def TaskPc.live : TaskPc → Bool
  | .spawned _ | .polled _ => true
  | .unspawned | .ended => false

/-- The id in the future's `TaskCompletionGuard`, if it has one. -/
def TaskPc.completionGuard : TaskPc → Option UInt64
  | .polled id => some id
  | .unspawned | .spawned _ | .ended => none

/-- How a future ends by itself. The task harness catches a panic, and unwinding
drops the guard as the end of the block does. -/
inductive Ending where
  | completed
  | panicked
deriving DecidableEq, Repr

/-- The worker and the threads that use it. `caller t` is what thread `t` holds
inside `spawn_task` between `fetch_add` and `send`. The last four fields are
histories: the ids taken, the results of `spawn_task`, and what the loop has
received on its two queues. -/
structure St where
  nextTaskId : UInt64
  caller : ℕ → Option (UInt64 × ℕ)
  handles : List TaskHandle
  commands : List TaskCommand
  completions : List UInt64
  taskHandles : AList fun _ : UInt64 => ℕ
  task : ℕ → TaskPc
  aborted : ℕ → Bool
  running : Bool
  issued : List UInt64
  replies : List (Except IoError TaskHandle)
  received : List TaskCommand
  completed : List UInt64

/-- The steps: the two halves of `spawn_task` on a thread, `TaskHandle::cancel` by
whoever holds the handle, the three branches of `select!`, and what the `LocalSet`
does with a task: a poll that leaves it pending, a poll in which it ends, and the
drop of an aborted one. -/
inductive Lbl where
  | take (t : ℕ)
  | send (t : ℕ) (id : UInt64) (task : ℕ)
  | cancel (handle : TaskHandle)
  | receive (command : TaskCommand)
  | complete (id : UInt64)
  | shutdown
  | poll (task : ℕ) (id : UInt64)
  | finish (task : ℕ) (id : UInt64) (ending : Ending)
  | drop (task : ℕ)
deriving DecidableEq, Repr

/-- A task can be polled while the loop runs and nobody has aborted it: tokio drops an
aborted task's future instead of polling it. -/
def St.Pollable (s : St) (task : ℕ) (id : UInt64) : Prop :=
  s.running = true ∧ s.aborted task = false ∧
    (s.task task = .spawned id ∨ s.task task = .polled id)

instance (s : St) (task : ℕ) (id : UInt64) : Decidable (s.Pollable task id) :=
  inferInstanceAs (Decidable (_ ∧ _ ∧ (_ ∨ _)))

def guard : Lbl → St → Prop
  | .take t, s => s.caller t = none
  | .send t id task, s => s.caller t = some (id, task)
  | .cancel handle, s => handle ∈ s.handles
  | .receive command, s => s.running = true ∧ s.commands.head? = some command
  | .complete id, s => s.running = true ∧ s.completions.head? = some id
  | .shutdown, s => s.running = true
  | .poll task id, s => s.Pollable task id
  | .finish task id _, s => s.Pollable task id
  | .drop task, s => s.aborted task = true ∧ (s.task task).live = true

instance : ∀ l s, Decidable (guard l s)
  | .take _, _ => inferInstanceAs (Decidable (_ = _))
  | .send _ _ _, _ => inferInstanceAs (Decidable (_ = _))
  | .cancel _, _ => inferInstanceAs (Decidable (_ ∈ _))
  | .receive _, _ => inferInstanceAs (Decidable (_ ∧ _))
  | .complete _, _ => inferInstanceAs (Decidable (_ ∧ _))
  | .shutdown, _ => inferInstanceAs (Decidable (_ = _))
  | .poll _ _, s => inferInstanceAs (Decidable (s.Pollable _ _))
  | .finish _ _ _, s => inferInstanceAs (Decidable (s.Pollable _ _))
  | .drop _, _ => inferInstanceAs (Decidable (_ ∧ _))

/-- The result of `spawn_task`: the send fails once the worker has dropped the
receiver. -/
def spawnTask (running : Bool) (id : UInt64) : Except IoError TaskHandle :=
  if running then .ok ⟨id⟩ else .error ⟨.brokenPipe, "worker runtime stopped"⟩

def St.setTask (s : St) (task : ℕ) (pc : TaskPc) : St :=
  { s with task := Function.update s.task task pc }

/-- What the end of a future sends: its guard's `drop` reports the id, which nobody
hears once the loop has ended. -/
def St.reports (s : St) (guard : Option UInt64) : List UInt64 :=
  if s.running then guard.toList else []

/-- The `command` branch of the loop. A `Cancel` whose id is not in the map aborts
nothing. -/
def St.process (s : St) : TaskCommand → St
  | .spawn id task =>
      { s.setTask task (.spawned id) with taskHandles := s.taskHandles.insert id task }
  | .cancel id =>
      { s with
        taskHandles := s.taskHandles.erase id
        aborted := match s.taskHandles.lookup id with
          | some task => Function.update s.aborted task true
          | none => s.aborted }

/-- What the steps do. `fetch_add` wraps around. On `shutdown` the loop ends: it
aborts what is in the map, and the queues lose their receivers, so that what is in
them is never received. -/
def update : Lbl → St → St
  | .take t, s =>
      { s with
        nextTaskId := s.nextTaskId + 1
        caller := Function.update s.caller t (some (s.nextTaskId, s.issued.length))
        issued := s.issued ++ [s.nextTaskId] }
  | .send t id task, s =>
      let s := { s with
        caller := Function.update s.caller t none
        replies := s.replies ++ [spawnTask s.running id] }
      match spawnTask s.running id with
      | .ok handle =>
          { s with
            commands := s.commands ++ [TaskCommand.spawn id task]
            handles := handle :: s.handles }
      | .error _ => s
  | .cancel handle, s =>
      let s := { s with handles := s.handles.erase handle }
      if s.running then { s with commands := s.commands ++ [TaskCommand.cancel handle.id] } else s
  | .receive command, s =>
      { s.process command with
        commands := s.commands.tail
        received := s.received ++ [command] }
  | .complete id, s =>
      { s with
        completions := s.completions.tail
        completed := s.completed ++ [id]
        taskHandles := s.taskHandles.erase id }
  | .shutdown, s =>
      { s with
        running := false
        aborted := fun task => s.aborted task || s.taskHandles.entries.any (·.2 = task)
        taskHandles := ∅ }
  | .poll task id, s => s.setTask task (.polled id)
  | .finish task id _, s =>
      { s.setTask task .ended with completions := s.completions ++ s.reports (some id) }
  | .drop task, s =>
      { s.setTask task .ended with
        completions := s.completions ++ s.reports (s.task task).completionGuard }

def St.initial : St where
  nextTaskId := 1
  caller := fun _ => none
  handles := []
  commands := []
  completions := []
  taskHandles := ∅
  task := fun _ => .unspawned
  aborted := fun _ => false
  running := true
  issued := []
  replies := []
  received := []
  completed := []

def worker : Lts.Sys St Lbl := ⟨.initial, guard, update⟩

instance : ∀ l s, Decidable (worker.guard l s) :=
  fun l s => inferInstanceAs (Decidable (guard l s))

/-! ## What the submitting threads guarantee -/

/-- Everything that was ever sent to the loop, in the order of the queue. -/
def St.sent (s : St) : List TaskCommand := s.received ++ s.commands

/-- The id of the task with the given number: the counter starts at one and wraps. -/
def idOf (task : ℕ) : UInt64 := UInt64.ofNat (task + 1)

theorem idOf_succ (task : ℕ) : idOf (task + 1) = idOf task + 1 := by
  unfold idOf
  rw [UInt64.ofNat_add]
  rfl

/-- Fewer than `2 ^ 64` calls get different ids. -/
theorem idOf_inj {j k : ℕ} (hj : j < 2 ^ 64) (hk : k < 2 ^ 64) (h : idOf j = idOf k) : j = k := by
  have hmod : (j + 1) % 2 ^ 64 = (k + 1) % 2 ^ 64 := by
    have := congrArg UInt64.toNat h
    simpa only [idOf, UInt64.toNat_ofNat'] using this
  omega

/-- What must have been sent before a command: each task is sent once, and a `Cancel`
comes after the `Spawn` of its id. -/
def SentAfter (before : List TaskCommand) : TaskCommand → Prop
  | .spawn _ task => ∀ id, .spawn id task ∉ before
  | .cancel id => ∃ task, .spawn id task ∈ before

/-- The counter, the threads inside `spawn_task`, the queue and the handles. -/
structure Queued (s : St) : Prop where
  next_eq : s.nextTaskId = idOf s.issued.length
  issued_eq : s.issued = (List.range s.issued.length).map idOf
  calling : ∀ t id task, s.caller t = some (id, task) →
    id = idOf task ∧ task < s.issued.length ∧ ∀ id, .spawn id task ∉ s.sent
  calling_ne : ∀ t t' id id' task, s.caller t = some (id, task) →
    s.caller t' = some (id', task) → t = t'
  spawned : ∀ id task, .spawn id task ∈ s.sent → id = idOf task ∧ task < s.issued.length
  handled : ∀ handle ∈ s.handles, ∃ task, .spawn handle.id task ∈ s.sent
  sentAfter : Lts.Grounded SentAfter s.sent

theorem queued_initial : Queued St.initial where
  next_eq := rfl
  issued_eq := rfl
  calling := by simp [St.initial]
  calling_ne := by simp [St.initial]
  spawned := by simp [St.initial, St.sent]
  handled := by simp [St.initial]
  sentAfter := Lts.Grounded.nil

/-- Steps of the loop and of the tasks leave the submitting side alone. -/
theorem Queued.frame {s s' : St} (h : Queued s) (hnext : s'.nextTaskId = s.nextTaskId)
    (hissued : s'.issued = s.issued) (hcaller : s'.caller = s.caller)
    (hhandles : s'.handles = s.handles) (hsent : s'.sent = s.sent) : Queued s' where
  next_eq := by rw [hnext, hissued]; exact h.next_eq
  issued_eq := by rw [hissued]; exact h.issued_eq
  calling := by rw [hcaller, hissued, hsent]; exact h.calling
  calling_ne := by rw [hcaller]; exact h.calling_ne
  spawned := by rw [hissued, hsent]; exact h.spawned
  handled := by rw [hhandles, hsent]; exact h.handled
  sentAfter := by rw [hsent]; exact h.sentAfter

theorem queued_take {s : St} (h : Queued s) (t : ℕ) : Queued (update (.take t) s) := by
  have hlen : (s.issued ++ [s.nextTaskId]).length = s.issued.length + 1 := by simp
  have hcaller : ∀ t' id task, (update (.take t) s).caller t' = some (id, task) →
      t' = t ∧ id = s.nextTaskId ∧ task = s.issued.length ∨
        s.caller t' = some (id, task) ∧ task < s.issued.length := by
    intro t' id task hcall
    by_cases ht : t' = t
    · subst ht
      have heq : (s.nextTaskId, s.issued.length) = (id, task) := by simpa [update] using hcall
      cases heq
      exact Or.inl ⟨rfl, rfl, rfl⟩
    · have hcall' : s.caller t' = some (id, task) := by simpa [update, ht] using hcall
      exact Or.inr ⟨hcall', (h.calling t' id task hcall').2.1⟩
  constructor
  case next_eq =>
    show s.nextTaskId + 1 = idOf (s.issued ++ [s.nextTaskId]).length
    rw [hlen, idOf_succ, h.next_eq]
  case issued_eq =>
    show s.issued ++ [s.nextTaskId] = (List.range (s.issued ++ [s.nextTaskId]).length).map idOf
    rw [hlen, List.range_succ, List.map_append, ← h.issued_eq, h.next_eq]
    rfl
  case calling =>
    intro t' id task hcall
    show id = idOf task ∧ task < (s.issued ++ [s.nextTaskId]).length ∧ _
    rw [hlen]
    rcases hcaller t' id task hcall with ⟨-, rfl, rfl⟩ | ⟨hcall', hlt⟩
    · -- no command has the new number yet
      refine ⟨h.next_eq, Nat.lt_succ_self _, ?_⟩
      intro id hmem
      have := (h.spawned id _ hmem).2
      omega
    · have hold := h.calling t' id task hcall'
      exact ⟨hold.1, Nat.lt_succ_of_lt hlt, hold.2.2⟩
  case calling_ne =>
    intro t₁ t₂ id₁ id₂ task h₁ h₂
    rcases hcaller t₁ id₁ task h₁ with ⟨ht₁, -, htask⟩ | ⟨h₁', hlt₁⟩ <;>
      rcases hcaller t₂ id₂ task h₂ with ⟨ht₂, -, htask'⟩ | ⟨h₂', hlt₂⟩
    · rw [ht₁, ht₂]
    · omega
    · omega
    · exact h.calling_ne t₁ t₂ id₁ id₂ task h₁' h₂'
  case spawned =>
    intro id task hmem
    obtain ⟨hid, hlt⟩ := h.spawned id task hmem
    show _ ∧ task < (s.issued ++ [s.nextTaskId]).length
    rw [hlen]
    exact ⟨hid, Nat.lt_succ_of_lt hlt⟩
  case handled =>
    exact h.handled
  case sentAfter =>
    exact h.sentAfter

/-- A thread that leaves `spawn_task` holds no number any more. -/
theorem Queued.leave {s : St} (h : Queued s) (t : ℕ) (replies : List (Except IoError TaskHandle)) :
    Queued { s with caller := Function.update s.caller t none, replies := replies } := by
  have hcaller : ∀ t' c, Function.update s.caller t none t' = some c → s.caller t' = some c := by
    intro t' c hc
    by_cases ht : t' = t
    · simp [ht] at hc
    · simpa [ht] using hc
  constructor
  case next_eq =>
    exact h.next_eq
  case issued_eq =>
    exact h.issued_eq
  case calling =>
    intro t' id task hcall
    exact h.calling t' id task (hcaller t' _ hcall)
  case calling_ne =>
    intro t₁ t₂ id₁ id₂ task h₁ h₂
    exact h.calling_ne t₁ t₂ id₁ id₂ task (hcaller t₁ _ h₁) (hcaller t₂ _ h₂)
  case spawned =>
    exact h.spawned
  case handled =>
    exact h.handled
  case sentAfter =>
    exact h.sentAfter

/-- A command is sent that what was sent before justifies. A `Spawn` carries the id of
its task, and no thread is still inside that call. -/
theorem Queued.push {s : St} (h : Queued s) (command : TaskCommand) (handles : List TaskHandle)
    (hafter : SentAfter s.sent command)
    (hspawn : ∀ id task, command = .spawn id task →
      id = idOf task ∧ task < s.issued.length ∧ ∀ t id', s.caller t ≠ some (id', task))
    (hhandles : ∀ handle ∈ handles, ∃ task, .spawn handle.id task ∈ s.sent ++ [command]) :
    Queued { s with commands := s.commands ++ [command], handles := handles } := by
  have hsent : ({ s with commands := s.commands ++ [command], handles := handles } : St).sent =
      s.sent ++ [command] := by
    simp [St.sent]
  constructor
  case next_eq =>
    exact h.next_eq
  case issued_eq =>
    exact h.issued_eq
  case calling =>
    intro t id task hcall
    obtain ⟨hid, hlt, hfresh⟩ := h.calling t id task hcall
    refine ⟨hid, hlt, ?_⟩
    intro id' hmem
    rw [hsent, List.mem_append, List.mem_singleton] at hmem
    rcases hmem with hmem | heq
    · exact hfresh id' hmem
    · exact (hspawn id' task heq.symm).2.2 t id hcall
  case calling_ne =>
    exact h.calling_ne
  case spawned =>
    intro id task hmem
    rw [hsent, List.mem_append, List.mem_singleton] at hmem
    rcases hmem with hmem | heq
    · exact h.spawned id task hmem
    · have hnew := hspawn id task heq.symm
      exact ⟨hnew.1, hnew.2.1⟩
  case handled =>
    rw [hsent]
    exact hhandles
  case sentAfter =>
    rw [hsent]
    exact h.sentAfter.snoc hafter

/-- The `Spawn` is at the end of the queue before the handle exists. -/
theorem queued_send {s : St} {t task : ℕ} {id : UInt64} (h : Queued s)
    (hg : s.caller t = some (id, task)) : Queued (update (.send t id task) s) := by
  obtain ⟨hid, hlt, hfresh⟩ := h.calling t id task hg
  have hleft := h.leave t (s.replies ++ [spawnTask s.running id])
  by_cases hrun : s.running
  · have hupd : update (.send t id task) s =
        { s with
          caller := Function.update s.caller t none
          replies := s.replies ++ [spawnTask s.running id]
          commands := s.commands ++ [.spawn id task]
          handles := ⟨id⟩ :: s.handles } := by
      simp [update, spawnTask, hrun]
    rw [hupd]
    refine hleft.push (.spawn id task) (⟨id⟩ :: s.handles) hfresh ?_ ?_
    · intro id' task' heq
      cases heq
      refine ⟨hid, hlt, ?_⟩
      intro t' id' hcall
      by_cases ht : t' = t
      · simp [ht] at hcall
      · have hcall' : s.caller t' = some (id', task) := by simpa [ht] using hcall
        exact ht (h.calling_ne t' t id' id task hcall' hg)
    · intro handle hmem
      rcases List.mem_cons.mp hmem with rfl | hmem
      · exact ⟨task, by simp⟩
      · obtain ⟨task', htask'⟩ := h.handled handle hmem
        exact ⟨task', List.mem_append_left _ htask'⟩
  · have hupd : update (.send t id task) s =
        { s with
          caller := Function.update s.caller t none
          replies := s.replies ++ [spawnTask s.running id] } := by
      simp [update, spawnTask, hrun]
    rw [hupd]
    exact hleft

theorem queued_cancel {s : St} {handle : TaskHandle} (h : Queued s) (hg : handle ∈ s.handles) :
    Queued (update (.cancel handle) s) := by
  obtain ⟨task, htask⟩ := h.handled handle hg
  by_cases hrun : s.running
  · have hupd : update (.cancel handle) s =
        { s with
          commands := s.commands ++ [.cancel handle.id]
          handles := s.handles.erase handle } := by
      simp [update, hrun]
    rw [hupd]
    refine h.push (.cancel handle.id) (s.handles.erase handle) ⟨task, htask⟩ ?_ ?_
    · intro id task' heq
      cases heq
    · intro handle' hmem
      obtain ⟨task', htask'⟩ := h.handled handle' (List.mem_of_mem_erase hmem)
      exact ⟨task', List.mem_append_left _ htask'⟩
  · have hupd : update (.cancel handle) s =
        { s with handles := s.handles.erase handle } := by
      simp [update, hrun]
    rw [hupd]
    exact ⟨h.next_eq, h.issued_eq, h.calling, h.calling_ne, h.spawned,
      fun handle' hmem => h.handled handle' (List.mem_of_mem_erase hmem), h.sentAfter⟩

/-- What the loop receives was at the head of the queue. -/
theorem sent_receive {s : St} {command : TaskCommand} (hg : s.commands.head? = some command) :
    (update (.receive command) s).sent = s.sent := by
  obtain ⟨rest, hrest⟩ := List.head?_eq_some_iff.mp hg
  simp [update, St.sent, hrest]

theorem queued_step {l : Lbl} {s : St} (hg : guard l s) (h : Queued s) : Queued (update l s) := by
  cases l with
  | take t => exact queued_take h t
  | send t id task => exact queued_send h hg
  | cancel handle => exact queued_cancel h hg
  | receive command =>
      have hsent := sent_receive hg.2
      cases command with
      | spawn id task => exact h.frame rfl rfl rfl rfl hsent
      | cancel id => exact h.frame rfl rfl rfl rfl hsent
  | complete id => exact h.frame rfl rfl rfl rfl rfl
  | shutdown => exact h.frame rfl rfl rfl rfl rfl
  | poll task id => exact h.frame rfl rfl rfl rfl rfl
  | finish task id ending => exact h.frame rfl rfl rfl rfl rfl
  | drop task => exact h.frame rfl rfl rfl rfl rfl

section Queued

variable {s : St} {id : UInt64} {j k : ℕ}

theorem Queued.sent_of_received (hmem : .spawn id k ∈ s.received) : .spawn id k ∈ s.sent :=
  List.mem_append_left _ hmem

/-- With fewer than `2 ^ 64` calls, an id stands for one task. -/
theorem Queued.task_unique (h : Queued s) (hcount : s.issued.length < 2 ^ 64)
    (hj : .spawn id j ∈ s.sent) (hk : .spawn id k ∈ s.sent) : j = k := by
  obtain ⟨hidj, hltj⟩ := h.spawned id j hj
  obtain ⟨hidk, hltk⟩ := h.spawned id k hk
  exact idOf_inj (by omega) (by omega) (hidj ▸ hidk)

/-- A `Cancel` is received after the `Spawn` of its id. -/
theorem Queued.spawn_of_cancel (h : Queued s) (hmem : .cancel id ∈ s.received) :
    ∃ task, .spawn id task ∈ s.received := by
  obtain ⟨before, after, heq⟩ := List.append_of_mem hmem
  obtain ⟨task, htask⟩ := h.sentAfter.left before (.cancel id) after heq
  refine ⟨task, ?_⟩
  rw [heq]
  exact List.mem_append_left _ htask

/-- At the head of the queue: the task has not been spawned before. -/
theorem Queued.head_fresh (h : Queued s) (hhead : s.commands.head? = some (.spawn id k))
    (id' : UInt64) : .spawn id' k ∉ s.received := by
  obtain ⟨rest, hrest⟩ := List.head?_eq_some_iff.mp hhead
  have hsent : s.sent = s.received ++ .spawn id k :: rest := by rw [St.sent, hrest]
  exact h.sentAfter s.received (.spawn id k) rest hsent id'

/-- At the head of the queue: the id is in no earlier command. Whoever had it was this
task, which is fresh. -/
theorem Queued.head_id_new (h : Queued s) (hcount : s.issued.length < 2 ^ 64)
    (hhead : s.commands.head? = some (.spawn id k)) :
    (∀ j, .spawn id j ∉ s.received) ∧ .cancel id ∉ s.received := by
  have hsent : .spawn id k ∈ s.sent := List.mem_append_right _ (List.mem_of_mem_head? hhead)
  have hspawn : ∀ j, .spawn id j ∉ s.received := by
    intro j hmem
    have hj : j = k := h.task_unique hcount (Queued.sent_of_received hmem) hsent
    exact h.head_fresh hhead id (hj ▸ hmem)
  refine ⟨hspawn, fun hmem => ?_⟩
  rcases h.spawn_of_cancel hmem with ⟨j, hj⟩
  exact hspawn j hj

end Queued

/-! ## What the loop and the tasks guarantee -/

/-- The map, the tasks and the completion queue, in terms of what the loop has
received. -/
structure Table (s : St) : Prop where
  unspawned : ∀ task, s.task task = .unspawned ↔ ∀ id, .spawn id task ∉ s.received
  task_id : ∀ task id, s.task task = .spawned id ∨ s.task task = .polled id → id = idOf task
  lookup_iff : s.running = true → ∀ id task, s.taskHandles.lookup id = some task ↔
    .spawn id task ∈ s.received ∧ .cancel id ∉ s.received ∧ id ∉ s.completed
  stopped : s.running = false → s.taskHandles = ∅
  reported : ∀ id, id ∈ s.completions ∨ id ∈ s.completed →
    ∃ task, .spawn id task ∈ s.received ∧ s.task task = .ended
  ended : s.running = true → ∀ task, s.task task = .ended →
    .cancel (idOf task) ∈ s.received ∨ idOf task ∈ s.completions ∨ idOf task ∈ s.completed
  aborted_of_cancel : ∀ id task, .cancel id ∈ s.received → .spawn id task ∈ s.received →
    s.aborted task = true ∨ s.task task = .ended
  cancel_of_aborted : s.running = true → ∀ task, s.aborted task = true →
    .cancel (idOf task) ∈ s.received

theorem table_initial : Table St.initial where
  unspawned := by simp [St.initial]
  task_id := by simp [St.initial]
  lookup_iff := by simp [St.initial]
  stopped := by simp [St.initial]
  reported := by simp [St.initial]
  ended := by simp [St.initial]
  aborted_of_cancel := by simp [St.initial]
  cancel_of_aborted := by simp [St.initial]

/-- Steps of the submitting threads leave the table alone. -/
theorem Table.frame {s s' : St} (h : Table s) (htask : s'.task = s.task)
    (hreceived : s'.received = s.received) (hhandles : s'.taskHandles = s.taskHandles)
    (hrunning : s'.running = s.running) (hcompletions : s'.completions = s.completions)
    (hcompleted : s'.completed = s.completed) (haborted : s'.aborted = s.aborted) : Table s' where
  unspawned := by rw [htask, hreceived]; exact h.unspawned
  task_id := by rw [htask]; exact h.task_id
  lookup_iff := by rw [hrunning, hhandles, hreceived, hcompleted]; exact h.lookup_iff
  stopped := by rw [hrunning, hhandles]; exact h.stopped
  reported := by rw [hcompletions, hcompleted, hreceived, htask]; exact h.reported
  ended := by rw [hrunning, htask, hreceived, hcompletions, hcompleted]; exact h.ended
  aborted_of_cancel := by rw [hreceived, haborted, htask]; exact h.aborted_of_cancel
  cancel_of_aborted := by rw [hrunning, haborted, hreceived]; exact h.cancel_of_aborted

theorem table_send {s : St} (h : Table s) (t task : ℕ) (id : UInt64) :
    Table (update (.send t id task) s) := by
  by_cases hrun : s.running
  · refine h.frame ?_ ?_ ?_ ?_ ?_ ?_ ?_ <;> simp [update, spawnTask, hrun]
  · refine h.frame ?_ ?_ ?_ ?_ ?_ ?_ ?_ <;> simp [update, spawnTask, hrun]

theorem table_cancel {s : St} (h : Table s) (handle : TaskHandle) :
    Table (update (.cancel handle) s) := by
  by_cases hrun : s.running
  · refine h.frame ?_ ?_ ?_ ?_ ?_ ?_ ?_ <;> simp [update, hrun]
  · refine h.frame ?_ ?_ ?_ ?_ ?_ ?_ ?_ <;> simp [update, hrun]

/-- What the head of the queue and the table tell about a task that is about to be spawned:
nothing that the loop has received or heard of has its number or its id. -/
structure Spawnable (s : St) (id : UInt64) (task : ℕ) : Prop where
  unspawned : s.task task = .unspawned
  id_eq : id = idOf task
  number_new : ∀ id', .spawn id' task ∉ s.received
  id_new : ∀ k, .spawn id k ∉ s.received
  not_cancelled : .cancel id ∉ s.received
  not_completed : id ∉ s.completed

theorem Table.spawnable {s : St} {id : UInt64} {task : ℕ} (hq : Queued s)
    (hcount : s.issued.length < 2 ^ 64) (h : Table s)
    (hhead : s.commands.head? = some (.spawn id task)) : Spawnable s id task := by
  have hfresh := hq.head_fresh hhead
  have hsent : .spawn id task ∈ s.sent :=
    List.mem_append_right _ (List.mem_of_mem_head? hhead)
  obtain ⟨hother, hcancel⟩ := hq.head_id_new hcount hhead
  have hcompleted : id ∉ s.completed := by
    intro hmem
    obtain ⟨k, hk, -⟩ := h.reported id (Or.inr hmem)
    exact hother k hk
  exact ⟨(h.unspawned task).mpr hfresh, (hq.spawned id task hsent).1, hfresh, hother, hcancel,
    hcompleted⟩

/-- The loop spawns a task under an id that is in no earlier command. -/
theorem table_spawn {s : St} {id : UInt64} {task : ℕ} (hq : Queued s)
    (hcount : s.issued.length < 2 ^ 64) (h : Table s)
    (hg : guard (.receive (.spawn id task)) s) :
    Table (update (.receive (.spawn id task)) s) := by
  obtain ⟨hrun, hhead⟩ := hg
  obtain ⟨hunspawned, hid, hfresh, hother, hcancel, hcompleted⟩ := h.spawnable hq hcount hhead
  have hupd : update (.receive (.spawn id task)) s =
      { s with
        task := Function.update s.task task (.spawned id)
        taskHandles := s.taskHandles.insert id task
        commands := s.commands.tail
        received := s.received ++ [.spawn id task] } := rfl
  rw [hupd]
  constructor
  case unspawned =>
    intro k
    by_cases hk : k = task
    · subst hk
      simp only [Function.update_self, reduceCtorEq, false_iff, not_forall, not_not]
      exact ⟨id, by simp⟩
    · simpa [hk] using h.unspawned k
  case task_id =>
    intro k id'
    by_cases hk : k = task
    · subst hk
      simp [← hid, eq_comm]
    · simpa [hk] using h.task_id k id'
  case lookup_iff =>
    intro _ id' k
    by_cases hid' : id' = id
    · subst hid'
      have hk : .spawn id' k ∈ s.received ++ [.spawn id' task] ↔ task = k := by
        simp [hother, eq_comm]
      simp [hk, hcancel, hcompleted]
    · simpa [AList.lookup_insert_ne hid', hid'] using h.lookup_iff hrun id' k
  case stopped =>
    intro hstop
    exact absurd hrun (by simpa using hstop)
  case reported =>
    intro id' hmem
    obtain ⟨k, hk, hended⟩ := h.reported id' hmem
    have hne : k ≠ task := by
      rintro rfl
      simp [hunspawned] at hended
    refine ⟨k, List.mem_append_left _ hk, ?_⟩
    simpa [hne] using hended
  case ended =>
    intro _ k hended
    have hne : k ≠ task := by
      rintro rfl
      simp at hended
    have hended' : s.task k = .ended := by simpa [hne] using hended
    simpa using h.ended hrun k hended'
  case aborted_of_cancel =>
    intro id' k hmem hmem'
    have hcancel' : .cancel id' ∈ s.received := by simpa using hmem
    have hne : id' ≠ id := by
      rintro rfl
      exact hcancel hcancel'
    have hmem'' : .spawn id' k ∈ s.received := by simpa [hne] using hmem'
    have hk : k ≠ task := by
      rintro rfl
      exact hfresh id' hmem''
    simpa [hk] using h.aborted_of_cancel id' k hcancel' hmem''
  case cancel_of_aborted =>
    intro _ k haborted
    simpa using h.cancel_of_aborted hrun k haborted

/-- `Cancel` aborts the task in the id's entry. -/
theorem aborted_process (s : St) (id : UInt64) (k : ℕ) :
    (s.process (.cancel id)).aborted k = true ↔
      s.aborted k = true ∨ s.taskHandles.lookup id = some k := by
  cases hlookup : s.taskHandles.lookup id with
  | none => simp [St.process, hlookup]
  | some task =>
      by_cases hk : k = task
      · simp [St.process, hlookup, hk]
      · simp [St.process, hlookup, hk, Ne.symm hk]

/-- The loop cancels: the id's entry goes, and the task in it is aborted. A task that
is still live has an entry. -/
theorem table_abort {s : St} {id : UInt64} (hq : Queued s)
    (hcount : s.issued.length < 2 ^ 64) (h : Table s) (hg : guard (.receive (.cancel id)) s) :
    Table (update (.receive (.cancel id)) s) := by
  obtain ⟨hrun, -⟩ := hg
  have hupd : update (.receive (.cancel id)) s =
      { s with
        taskHandles := s.taskHandles.erase id
        aborted := (s.process (.cancel id)).aborted
        commands := s.commands.tail
        received := s.received ++ [.cancel id] } := rfl
  rw [hupd]
  constructor
  case unspawned =>
    simpa using h.unspawned
  case task_id =>
    exact h.task_id
  case lookup_iff =>
    intro _ id' k
    by_cases hid' : id' = id
    · subst hid'
      simp
    · simpa [AList.lookup_erase_ne hid', hid'] using h.lookup_iff hrun id' k
  case stopped =>
    intro hstop
    exact absurd hrun (by simpa using hstop)
  case reported =>
    intro id' hmem
    obtain ⟨k, hk, hended⟩ := h.reported id' hmem
    exact ⟨k, List.mem_append_left _ hk, hended⟩
  case ended =>
    intro _ k hended
    rcases h.ended hrun k hended with hmem | hmem
    · exact Or.inl (List.mem_append_left _ hmem)
    · exact Or.inr hmem
  case aborted_of_cancel =>
    intro id' k hmem hmem'
    have hspawn : .spawn id' k ∈ s.received := by simpa using hmem'
    by_cases hold : .cancel id' ∈ s.received
    · refine (h.aborted_of_cancel id' k hold hspawn).imp_left ?_
      exact fun hk => (aborted_process s id k).mpr (Or.inl hk)
    · have hid' : id' = id := by simpa [hold] using hmem
      subst hid'
      by_cases hdone : id' ∈ s.completed
      · -- the completion message came first, so the task has ended
        obtain ⟨j, hj, hended⟩ := h.reported id' (Or.inr hdone)
        have hjk : j = k := hq.task_unique hcount (Queued.sent_of_received hj)
          (Queued.sent_of_received hspawn)
        exact Or.inr (hjk ▸ hended)
      · have hlookup := (h.lookup_iff hrun id' k).mpr ⟨hspawn, hold, hdone⟩
        exact Or.inl ((aborted_process s id' k).mpr (Or.inr hlookup))
  case cancel_of_aborted =>
    intro _ k hk
    rcases (aborted_process s id k).mp hk with hold | hlookup
    · exact List.mem_append_left _ (h.cancel_of_aborted hrun k hold)
    · have hspawn := ((h.lookup_iff hrun id k).mp hlookup).1
      have hid := (hq.spawned id k (Queued.sent_of_received hspawn)).1
      simp [hid]

theorem table_complete {s : St} {id : UInt64} (h : Table s) (hg : guard (.complete id) s) :
    Table (update (.complete id) s) := by
  obtain ⟨hrun, hhead⟩ := hg
  obtain ⟨rest, hrest⟩ := List.head?_eq_some_iff.mp hhead
  -- the two places where an id can be have the same ids together as before
  have hplaces : ∀ id', id' ∈ s.completions.tail ∨ id' ∈ s.completed ++ [id] ↔
      id' ∈ s.completions ∨ id' ∈ s.completed := by
    intro id'
    simp only [hrest, List.tail_cons, List.mem_append, List.mem_cons]
    tauto
  have hupd : update (.complete id) s =
      { s with
        completions := s.completions.tail
        completed := s.completed ++ [id]
        taskHandles := s.taskHandles.erase id } := rfl
  rw [hupd]
  constructor
  case unspawned =>
    exact h.unspawned
  case task_id =>
    exact h.task_id
  case lookup_iff =>
    intro _ id' k
    by_cases hid' : id' = id
    · subst hid'
      simp
    · simpa [AList.lookup_erase_ne hid', hid'] using h.lookup_iff hrun id' k
  case stopped =>
    intro hstop
    exact absurd hrun (by simpa using hstop)
  case reported =>
    intro id' hmem
    exact h.reported id' ((hplaces id').mp hmem)
  case ended =>
    intro _ k hended
    rcases h.ended hrun k hended with hmem | hmem
    · exact Or.inl hmem
    · exact Or.inr ((hplaces (idOf k)).mpr hmem)
  case aborted_of_cancel =>
    exact h.aborted_of_cancel
  case cancel_of_aborted =>
    exact h.cancel_of_aborted

/-- The end of the loop: everything that has an entry is aborted. -/
theorem table_shutdown {s : St} (h : Table s) : Table (update .shutdown s) := by
  have hupd : update .shutdown s =
      { s with
        running := false
        aborted := fun task => s.aborted task || s.taskHandles.entries.any (·.2 = task)
        taskHandles := ∅ } := rfl
  rw [hupd]
  constructor
  case unspawned =>
    exact h.unspawned
  case task_id =>
    exact h.task_id
  case lookup_iff =>
    intro hrun
    cases hrun
  case stopped =>
    intro _
    rfl
  case reported =>
    exact h.reported
  case ended =>
    intro hrun
    cases hrun
  case aborted_of_cancel =>
    intro id k hmem hmem'
    rcases h.aborted_of_cancel id k hmem hmem' with hk | hk
    · exact Or.inl (by simp [hk])
    · exact Or.inr hk
  case cancel_of_aborted =>
    intro hrun
    cases hrun

/-- A live task has been received, under its own id. -/
theorem Table.received_of_live {s : St} (hq : Queued s) (h : Table s) {task : ℕ}
    (hlive : (s.task task).live = true) : .spawn (idOf task) task ∈ s.received := by
  have hne : s.task task ≠ .unspawned := by
    intro heq
    simp [heq, TaskPc.live] at hlive
  have hex : ∃ id, .spawn id task ∈ s.received := by
    by_contra hnone
    rw [not_exists] at hnone
    exact hne ((h.unspawned task).mpr hnone)
  obtain ⟨id, hmem⟩ := hex
  have hid := (hq.spawned id task (Queued.sent_of_received hmem)).1
  exact hid ▸ hmem

/-- A live task is polled and stays pending. -/
theorem table_poll {s : St} {task : ℕ} {id : UInt64} (h : Table s)
    (hg : guard (.poll task id) s) : Table (update (.poll task id) s) := by
  obtain ⟨-, -, hpc⟩ := hg
  have hlive : s.task task ≠ .unspawned ∧ s.task task ≠ .ended := by
    rcases hpc with hpc | hpc <;> simp [hpc]
  have hid : id = idOf task := h.task_id task id hpc
  -- the poll does not change which tasks are unspawned or ended
  have hsame : ∀ k pc, pc = .unspawned ∨ pc = .ended →
      (Function.update s.task task (.polled id) k = pc ↔ s.task k = pc) := by
    intro k pc hend
    by_cases hk : k = task
    · subst hk
      rcases hend with rfl | rfl
      · simp [hlive.1]
      · simp [hlive.2]
    · simp [hk]
  have hupd : update (.poll task id) s =
      { s with task := Function.update s.task task (.polled id) } := rfl
  rw [hupd]
  constructor
  case unspawned =>
    intro k
    exact (hsame k _ (Or.inl rfl)).trans (h.unspawned k)
  case task_id =>
    intro k id'
    by_cases hk : k = task
    · subst hk
      simp [hid, eq_comm]
    · simpa [hk] using h.task_id k id'
  case lookup_iff =>
    exact h.lookup_iff
  case stopped =>
    exact h.stopped
  case reported =>
    intro id' hmem
    obtain ⟨k, hk, hended⟩ := h.reported id' hmem
    exact ⟨k, hk, (hsame k _ (Or.inr rfl)).mpr hended⟩
  case ended =>
    intro hrun k hended
    exact h.ended hrun k ((hsame k _ (Or.inr rfl)).mp hended)
  case aborted_of_cancel =>
    intro id' k hmem hmem'
    refine (h.aborted_of_cancel id' k hmem hmem').imp_right ?_
    exact (hsame k _ (Or.inr rfl)).mpr
  case cancel_of_aborted =>
    exact h.cancel_of_aborted

/-- A live task ends, by itself or dropped after an abort. If it was not cancelled, its
guard reports it. -/
theorem Table.finish {s : St} {task : ℕ} (hq : Queued s) (h : Table s)
    (hlive : (s.task task).live = true) (reports : List UInt64)
    (hreports : ∀ id ∈ reports, id = idOf task)
    (hheard : s.running = true → .cancel (idOf task) ∈ s.received ∨ idOf task ∈ reports) :
    Table { s with
      task := Function.update s.task task .ended
      completions := s.completions ++ reports } := by
  have hspawn : .spawn (idOf task) task ∈ s.received := h.received_of_live hq hlive
  constructor
  case unspawned =>
    intro k
    by_cases hk : k = task
    · subst hk
      simp only [Function.update_self, reduceCtorEq, false_iff, not_forall, not_not]
      exact ⟨idOf k, hspawn⟩
    · simpa [hk] using h.unspawned k
  case task_id =>
    intro k id'
    by_cases hk : k = task
    · simp [hk]
    · simpa [hk] using h.task_id k id'
  case lookup_iff =>
    exact h.lookup_iff
  case stopped =>
    exact h.stopped
  case reported =>
    intro id' hmem
    by_cases hnew : id' ∈ reports
    · refine ⟨task, ?_, by simp⟩
      rw [hreports id' hnew]
      exact hspawn
    · have hold : id' ∈ s.completions ∨ id' ∈ s.completed := by simpa [hnew] using hmem
      obtain ⟨k, hk, hended⟩ := h.reported id' hold
      refine ⟨k, hk, ?_⟩
      by_cases hkt : k = task
      · simp [hkt]
      · simpa [hkt] using hended
  case ended =>
    intro hrun k hended
    by_cases hk : k = task
    · subst hk
      rcases hheard hrun with hcancel | hmem
      · exact Or.inl hcancel
      · exact Or.inr (Or.inl (List.mem_append_right _ hmem))
    · have hended' : s.task k = .ended := by simpa [hk] using hended
      rcases h.ended hrun k hended' with hmem | hmem | hmem
      · exact Or.inl hmem
      · exact Or.inr (Or.inl (List.mem_append_left _ hmem))
      · exact Or.inr (Or.inr hmem)
  case aborted_of_cancel =>
    intro id' k hmem hmem'
    by_cases hk : k = task
    · exact Or.inr (by simp [hk])
    · simpa [hk] using h.aborted_of_cancel id' k hmem hmem'
  case cancel_of_aborted =>
    exact h.cancel_of_aborted

theorem table_step {l : Lbl} {s : St} (hq : Queued s) (hcount : s.issued.length < 2 ^ 64)
    (hg : guard l s) (h : Table s) : Table (update l s) := by
  cases l with
  | take t => exact h.frame rfl rfl rfl rfl rfl rfl rfl
  | send t id task => exact table_send h t task id
  | cancel handle => exact table_cancel h handle
  | receive command =>
      cases command with
      | spawn id task => exact table_spawn hq hcount h hg
      | cancel id => exact table_abort hq hcount h hg
  | complete id => exact table_complete h hg
  | shutdown => exact table_shutdown h
  | poll task id => exact table_poll h hg
  | finish task id ending =>
      obtain ⟨hrun, -, hpc⟩ := hg
      have hlive : (s.task task).live = true := by
        rcases hpc with hpc | hpc <;> simp [hpc, TaskPc.live]
      have hid : id = idOf task := h.task_id task id hpc
      refine h.finish hq hlive _ ?_ ?_
      · intro id' hmem
        have : id' = id := by simpa [St.reports, hrun] using hmem
        rw [this, hid]
      · intro _
        simp [St.reports, hrun, hid]
  | drop task =>
      obtain ⟨haborted, hlive⟩ := hg
      refine h.finish hq hlive _ ?_ ?_
      · intro id' hmem
        -- only a guard that exists reports, and it has the task's id
        cases hpc : s.task task with
        | polled id =>
            have hid := h.task_id task id (Or.inr hpc)
            have : s.running = true ∧ id' = id := by
              simpa [St.reports, hpc, TaskPc.completionGuard] using hmem
            rw [this.2, hid]
        | unspawned => simp [St.reports, hpc, TaskPc.completionGuard] at hmem
        | spawned id => simp [St.reports, hpc, TaskPc.completionGuard] at hmem
        | ended => simp [St.reports, hpc, TaskPc.completionGuard] at hmem
      · intro hrun
        exact Or.inl (h.cancel_of_aborted hrun task haborted)

/-- The ids that have been taken only become more. -/
theorem issued_le (l : Lbl) (s : St) : s.issued.length ≤ (update l s).issued.length := by
  cases l with
  | take t => simp [update]
  | send t id task =>
      by_cases hrun : s.running <;> simp [update, spawnTask, hrun]
  | cancel handle =>
      by_cases hrun : s.running <;> simp [update, hrun]
  | receive command => cases command <;> exact Nat.le_refl _
  | complete id => exact Nat.le_refl _
  | shutdown => exact Nat.le_refl _
  | poll task id => exact Nat.le_refl _
  | finish task id ending => exact Nat.le_refl _
  | drop task => exact Nat.le_refl _

theorem reachable_queued {s : St} (hs : worker.Reachable s) : Queued s :=
  worker.invariant Queued queued_initial (fun _ _ hg h => queued_step hg h) s hs

theorem reachable_table {s : St} (hs : worker.Reachable s)
    (hcount : s.issued.length < 2 ^ 64) : Table s := by
  have hinv := worker.invariant
    (fun s => Queued s ∧ (s.issued.length < 2 ^ 64 → Table s))
    ⟨queued_initial, fun _ => table_initial⟩ ?_ s hs
  · exact hinv.2 hcount
  · intro l t hg ht
    obtain ⟨hq, htable⟩ := ht
    refine ⟨queued_step hg hq, ?_⟩
    intro hcount'
    have hcount : t.issued.length < 2 ^ 64 := Nat.lt_of_le_of_lt (issued_le l t) hcount'
    exact table_step hq hcount hg (htable hcount)

/-! ## The task table -/

/-- The ids handed out are different. -/
theorem Queued.issued_nodup {s : St} (h : Queued s) (hcount : s.issued.length < 2 ^ 64) :
    s.issued.Nodup := by
  rw [h.issued_eq]
  refine List.Nodup.map_on ?_ List.nodup_range
  intro j hj k hk heq
  rw [List.mem_range] at hj hk
  exact idOf_inj (by omega) (by omega) heq

/-- A `Cancel` at the head of the queue is for one task: it aborts that task if it is
live, and leaves every other task as it is. -/
theorem Table.receive_cancel {s : St} {id : UInt64} {task : ℕ} (hq : Queued s)
    (hcount : s.issued.length < 2 ^ 64) (h : Table s)
    (hg : guard (.receive (.cancel id)) s) (hspawn : .spawn id task ∈ s.received) :
    ((s.task task).live = true → (update (.receive (.cancel id)) s).aborted task = true) ∧
      ∀ other, other ≠ task →
        (update (.receive (.cancel id)) s).task other = s.task other ∧
          (update (.receive (.cancel id)) s).aborted other = s.aborted other := by
  have hafter := table_abort hq hcount h hg
  have hreceived : (update (.receive (.cancel id)) s).received = s.received ++ [.cancel id] := rfl
  constructor
  · intro hlive
    have hor := hafter.aborted_of_cancel id task (by simp [hreceived])
      (by simpa [hreceived] using hspawn)
    rcases hor with haborted | hended
    · exact haborted
    · have hended' : s.task task = .ended := hended
      simp [hended', TaskPc.live] at hlive
  · intro other hne
    refine ⟨rfl, ?_⟩
    rw [Bool.eq_iff_iff]
    refine (aborted_process s id other).trans ?_
    constructor
    · intro hor
      rcases hor with hold | hlookup
      · exact hold
      · -- the entry of this id is the task's, not the other one's
        have hother := ((h.lookup_iff hg.1 id other).mp hlookup).1
        exact absurd (hq.task_unique hcount (Queued.sent_of_received hother)
          (Queued.sent_of_received hspawn)) hne
    · exact Or.inl

/-- With nothing left in the completion queue and no live task, every submitted task was
cancelled or reported, so no entry is left. -/
theorem Table.empty {s : St} (hq : Queued s) (h : Table s)
    (hcompletions : s.completions = []) (hlive : ∀ task, (s.task task).live = false) :
    s.taskHandles = ∅ := by
  by_cases hrun : s.running = true
  · have hnone : ∀ id, s.taskHandles.lookup id = none := by
      intro id
      cases hlookup : s.taskHandles.lookup id with
      | none => rfl
      | some task =>
          obtain ⟨hspawn, hcancel, hdone⟩ := (h.lookup_iff hrun id task).mp hlookup
          have hid := (hq.spawned id task (Queued.sent_of_received hspawn)).1
          have hended : s.task task = .ended := by
            have hne : s.task task ≠ .unspawned := fun heq => (h.unspawned task).mp heq id hspawn
            have := hlive task
            cases hpc : s.task task <;> simp_all [TaskPc.live]
          rcases h.ended hrun task hended with hmem | hmem | hmem
          · exact absurd (hid ▸ hmem) hcancel
          · simp [hcompletions] at hmem
          · exact absurd (hid ▸ hmem) hdone
    have hkeys : ∀ id, id ∉ s.taskHandles := by
      intro id hmem
      have hsome := AList.lookup_isSome.mpr hmem
      simp [hnone id] at hsome
    refine AList.ext ?_
    rw [AList.empty_entries]
    refine List.eq_nil_iff_forall_not_mem.mpr ?_
    intro entry hmem
    exact hkeys entry.1 (List.mem_keys_of_mem hmem)
  · exact h.stopped (by simpa using hrun)

/-- The task table of a worker, in every state that any interleaving of submissions,
cancellations, task ends and rounds of the loop leads to, as long as `spawn_task` was
called fewer than `2 ^ 64` times. Ids are unique; a `Cancel` is received after the
`Spawn` of its id; it aborts the task with that id if it is live, and never another
one; while the loop runs, the keys of `task_handles` are the ids that were spawned and
neither cancelled nor reported; and when the queues are empty and no task is live,
the map is empty. -/
theorem taskTable_exact {s : St} (hs : worker.Reachable s)
    (hcount : s.issued.length < 2 ^ 64) :
    s.issued.Nodup ∧
    (∀ before after id, s.received = before ++ .cancel id :: after →
      ∃ task, .spawn id task ∈ before) ∧
    (∀ id task, guard (.receive (.cancel id)) s → .spawn id task ∈ s.received →
      ((s.task task).live = true → (update (.receive (.cancel id)) s).aborted task = true) ∧
        ∀ other, other ≠ task →
          (update (.receive (.cancel id)) s).task other = s.task other ∧
            (update (.receive (.cancel id)) s).aborted other = s.aborted other) ∧
    (s.running = true → ∀ id, id ∈ s.taskHandles ↔
      (∃ task, .spawn id task ∈ s.received) ∧ .cancel id ∉ s.received ∧ id ∉ s.completed) ∧
    (s.commands = [] → s.completions = [] → (∀ task, (s.task task).live = false) →
      s.taskHandles = ∅) := by
  have hq := reachable_queued hs
  have htable := reachable_table hs hcount
  refine ⟨hq.issued_nodup hcount, ?_, ?_, ?_, fun _ => htable.empty hq⟩
  · intro before after id heq
    exact hq.sentAfter.left before (.cancel id) after heq
  · intro id task hg hspawn
    exact htable.receive_cancel hq hcount hg hspawn
  · intro hrun id
    rw [← AList.lookup_isSome, Option.isSome_iff_exists]
    constructor
    · intro hex
      obtain ⟨task, hlookup⟩ := hex
      obtain ⟨hspawn, hrest⟩ := (htable.lookup_iff hrun id task).mp hlookup
      exact ⟨⟨task, hspawn⟩, hrest⟩
    · intro hall
      obtain ⟨⟨task, hspawn⟩, hrest⟩ := hall
      exact ⟨task, (htable.lookup_iff hrun id task).mpr ⟨hspawn, hrest⟩⟩

/-- Two threads take ids 1 and 2 and send in the opposite order; the second task has
been polled when its `Cancel` is at the head of the queue, the first not. -/
theorem taskTable_exact_two_threads :
    ∃ s, worker.Run worker.init
        [.take 0, .take 1, .send 1 2 1, .send 0 1 0, .cancel ⟨2⟩, .receive (.spawn 2 1),
          .poll 1 2, .receive (.spawn 1 0)] s ∧
      s.issued = [1, 2] ∧ s.commands = [.cancel 2] ∧
      (update (.receive (.cancel 2)) s).aborted 1 = true ∧
      (update (.receive (.cancel 2)) s).aborted 0 = s.aborted 0 ∧
      ∀ id, id ∈ s.taskHandles ↔
        (∃ task, .spawn id task ∈ s.received) ∧ .cancel id ∉ s.received ∧ id ∉ s.completed := by
  obtain ⟨s, hrun, hissued, hcommands, hreceived, hrunning, hlive⟩ := worker.exists_run_of_exec
    [.take 0, .take 1, .send 1 2 1, .send 0 1 0, .cancel ⟨2⟩, .receive (.spawn 2 1),
      .poll 1 2, .receive (.spawn 1 0)]
    (fun s => s.issued = [1, 2] ∧ s.commands = [.cancel 2] ∧
      s.received = [.spawn 2 1, .spawn 1 0] ∧ s.running = true ∧ (s.task 1).live = true)
    (by decide)
  have hhead : guard (.receive (.cancel 2)) s := ⟨hrunning, by rw [hcommands]; rfl⟩
  have hcount : s.issued.length < 2 ^ 64 := by
    rw [hissued]
    decide
  obtain ⟨-, -, hcancel, hkeys, -⟩ := taskTable_exact ⟨_, hrun⟩ hcount
  have hone := hcancel 2 1 hhead (by simp [hreceived])
  exact ⟨s, hrun, hissued, hcommands, hone.1 hlive, (hone.2 0 (by decide)).2, hkeys hrunning⟩

/-! ## Cancellation -/

/-- The step polls the task. -/
def Polls (task : ℕ) : Lbl → Prop
  | .poll k _ => k = task
  | .finish k _ _ => k = task
  | _ => False

/-- The task was spawned once and is aborted or has ended. -/
structure Halted (task : ℕ) (s : St) : Prop where
  queued : Queued s
  received : ∃ id, .spawn id task ∈ s.received
  halted : s.aborted task = true ∨ s.task task = .ended

/-- An aborted task is not polled, and a task that has ended is not spawned again. -/
theorem Halted.not_polls {task : ℕ} {l : Lbl} {s : St} (h : Halted task s) (hg : guard l s) :
    ¬ Polls task l := by
  have hno : ∀ id, ¬ s.Pollable task id := by
    rintro id ⟨-, haborted, hpc⟩
    rcases h.halted with hover | hover
    · rw [hover] at haborted
      cases haborted
    · rcases hpc with hpc | hpc <;> simp [hover] at hpc
  cases l <;> simp only [Polls, not_false_eq_true]
  case poll k id =>
    rintro rfl
    exact hno id hg
  case finish k id ending =>
    rintro rfl
    exact hno id hg

theorem Halted.step {task : ℕ} {l : Lbl} {s : St} (hg : guard l s) (h : Halted task s) :
    Halted task (update l s) := by
  obtain ⟨id, hreceived⟩ := h.received
  have hpolls := h.not_polls hg
  refine ⟨queued_step hg h.queued, ?_, ?_⟩
  · refine ⟨id, ?_⟩
    cases l with
    | send t id' k =>
        by_cases hrun : s.running <;> simpa [update, spawnTask, hrun] using hreceived
    | cancel handle =>
        by_cases hrun : s.running <;> simpa [update, hrun] using hreceived
    | receive command => exact List.mem_append_left _ hreceived
    | _ => exact hreceived
  · cases l with
    | send t id' k =>
        by_cases hrun : s.running <;> simpa [update, spawnTask, hrun] using h.halted
    | cancel handle =>
        by_cases hrun : s.running <;> simpa [update, hrun] using h.halted
    | receive command =>
        cases command with
        | spawn id' k =>
            -- a second `Spawn` of the task is never sent
            have hne : task ≠ k := by
              rintro rfl
              exact h.queued.head_fresh hg.2 id hreceived
            simpa [update, St.process, St.setTask, hne] using h.halted
        | cancel id' =>
            refine h.halted.imp_left fun hk => ?_
            exact (aborted_process s id' task).mpr (Or.inl hk)
    | shutdown => exact h.halted.imp_left fun hk => by simp [update, hk]
    | poll k id' =>
        have hne : task ≠ k := fun heq => hpolls heq.symm
        simpa [update, St.setTask, hne] using h.halted
    | finish k id' ending =>
        have hne : task ≠ k := fun heq => hpolls heq.symm
        simpa [update, St.setTask, hne] using h.halted
    | drop k =>
        by_cases hk : task = k
        · exact Or.inr (by simp [update, St.setTask, hk])
        · simpa [update, St.setTask, hk] using h.halted
    | _ => exact h.halted

/-- Once the loop has carried out a `Cancel`, the task submitted under its id is not
polled again. -/
theorem cancelled_not_polled {s : St} {id : UInt64} {task : ℕ} (hs : worker.Reachable s)
    (hcount : s.issued.length < 2 ^ 64) (hg : guard (.receive (.cancel id)) s)
    (hspawn : .spawn id task ∈ s.received) {tr : List Lbl} {s' : St}
    (hrun : worker.Run (update (.receive (.cancel id)) s) tr s') :
    ∀ l ∈ tr, ¬ Polls task l := by
  have hq := reachable_queued hs
  have hafter := table_abort hq hcount (reachable_table hs hcount) hg
  have hreceived : .spawn id task ∈ (update (.receive (.cancel id)) s).received :=
    List.mem_append_left _ hspawn
  have hhalted : Halted task (update (.receive (.cancel id)) s) :=
    ⟨queued_step hg hq, ⟨id, hreceived⟩,
      hafter.aborted_of_cancel id task (List.mem_append_right _ (by simp)) hreceived⟩
  exact hrun.avoids (Halted task) (Polls task) hhalted
    (fun _ _ hg h => h.step hg) (fun _ _ hg h => h.not_polls hg)

end Tokio

end ReusePort
