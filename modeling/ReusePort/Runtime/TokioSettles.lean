import Mathlib
import ReusePort.Progress
import ReusePort.Runtime.Tokio

/-!
# ReusePort.Runtime.TokioSettles — a tokio worker keeps up with its tasks

What a worker does by itself, while the tasks are left alone: it takes commands and
reports off its two queues and drops the futures of aborted tasks (`runtime/tokio.rs`).
Each of these can make more of the others, as a dropped future reports its end.

* `Tended` — after the end of the loop no live task has been forgotten: each is aborted;
* `rank` — a command can become a live task, and a live task a report;
* `worker_settles` — so a worker comes to rest. Its map then has the live tasks and no
  others; or, after `shutdown`, no task is left.
-/

namespace ReusePort

namespace Tokio

/-! ## No task is forgotten -/

/-- Once the loop has ended, every live task is aborted. -/
def Tended (s : St) : Prop :=
  s.running = false → ∀ task, (s.task task).live = true → s.aborted task = true

section Tended

variable {s : St} {l : Lbl} {task : ℕ} {id : UInt64}

/-- A task whose end the loop has heard of has ended. -/
theorem Table.not_completed_of_live (hq : Queued s) (hcount : s.issued.length < 2 ^ 64)
    (h : Table s) (hlive : (s.task task).live = true) : idOf task ∉ s.completed := by
  intro hmem
  rcases h.reported _ (Or.inr hmem) with ⟨k, hspawn, hended⟩
  have hown := Queued.sent_of_received (h.received_of_live hq hlive)
  -- the id stands for this task only
  obtain rfl := hq.task_unique hcount hown (Queued.sent_of_received hspawn)
  rw [hended] at hlive
  cases hlive

/-- While the loop runs, a live task is aborted or has an entry. -/
theorem Table.lookup_of_live (hq : Queued s) (hcount : s.issued.length < 2 ^ 64) (h : Table s)
    (hrunning : s.running = true) (hlive : (s.task task).live = true) :
    s.aborted task = true ∨ s.taskHandles.lookup (idOf task) = some task := by
  have hspawn := h.received_of_live hq hlive
  by_cases hcancel : .cancel (idOf task) ∈ s.received
  · left
    rcases h.aborted_of_cancel _ task hcancel hspawn with haborted | hended
    · exact haborted
    · rw [hended] at hlive
      cases hlive
  · right
    exact (h.lookup_iff hrunning _ task).mpr
      ⟨hspawn, hcancel, h.not_completed_of_live hq hcount hlive⟩

/-- The end of the loop aborts what has an entry, and what has none is aborted already. -/
theorem tended_shutdown (hq : Queued s) (hcount : s.issued.length < 2 ^ 64) (h : Table s)
    (hrunning : s.running = true) : Tended (update .shutdown s) := by
  intro _ task hlive
  simp only [update, Bool.or_eq_true, List.any_eq_true, decide_eq_true_eq]
  refine (h.lookup_of_live hq hcount hrunning hlive).imp id ?_
  intro hlookup
  exact ⟨⟨idOf task, task⟩, AList.mem_lookup_iff.mp hlookup, rfl⟩

theorem tended_step (hq : Queued s) (hcount : s.issued.length < 2 ^ 64) (htable : Table s)
    (hg : guard l s) (h : Tended s) : Tended (update l s) := by
  cases l with
  | take t => exact h
  | send t id task =>
      simp only [Tended, update]
      split <;> exact h
  | cancel handle =>
      simp only [Tended, update]
      split <;> exact h
  | receive command =>
      -- the loop runs, before and after
      intro hstopped
      have hrunning : (update (.receive command) s).running = s.running := by
        cases command <;> rfl
      rw [hrunning, hg.1] at hstopped
      cases hstopped
  | shutdown => exact tended_shutdown hq hcount htable hg
  | complete id | poll task id | finish task id ending =>
      intro hstopped
      have hrunning := hg.1
      rw [show s.running = false from hstopped] at hrunning
      cases hrunning
  | drop task =>
      intro hstopped k hlive
      refine h hstopped k ?_
      simp only [update, St.setTask, Function.update_apply] at hlive
      split at hlive
      · cases hlive
      · exact hlive

theorem reachable_tended (hs : worker.Reachable s) (hcount : s.issued.length < 2 ^ 64) :
    Tended s := by
  have hinv := worker.invariant
    (fun s => Queued s ∧ (s.issued.length < 2 ^ 64 → Table s ∧ Tended s)) ?_ ?_ s hs
  · exact (hinv.2 hcount).2
  · refine ⟨queued_initial, fun _ => ⟨table_initial, ?_⟩⟩
    rintro ⟨⟩
  · rintro l t hg ⟨hq, ht⟩
    refine ⟨queued_step hg hq, ?_⟩
    intro hcount'
    have hcount : t.issued.length < 2 ^ 64 := Nat.lt_of_le_of_lt (issued_le l t) hcount'
    rcases ht hcount with ⟨htable, htended⟩
    exact ⟨table_step hq hcount hg htable, tended_step hq hcount htable hg htended⟩

end Tended

/-! ## The worker by itself -/

/-- The steps that the worker takes while its tasks do nothing. -/
def isOwn : Lbl → Bool
  | .receive _ | .complete _ | .drop _ => true
  | _ => false

def alone : Lts.Sys St Lbl := worker.restrict fun l _ => isOwn l = true

/-- A live task may still report its end. -/
def TaskPc.rank (pc : TaskPc) : ℕ := if pc.live then 2 else 0

/-- A command may become a live task. -/
def rank (s : St) : ℕ :=
  3 * s.commands.length + s.completions.length +
    ∑ task ∈ Finset.range s.issued.length, (s.task task).rank

/-- What the worker keeps by itself. -/
structure Kept (s : St) : Prop where
  count : s.issued.length < 2 ^ 64
  queued : Queued s
  table : Table s
  tended : Tended s

section Alone

variable {s : St} {l : Lbl}

/-- No ids are taken, and the loop goes on or not as before. -/
theorem frame_own (hl : isOwn l = true) :
    (update l s).issued = s.issued ∧ (update l s).running = s.running := by
  cases l with
  | receive command => cases command <;> exact ⟨rfl, rfl⟩
  | complete id | drop task => exact ⟨rfl, rfl⟩
  | take t | send t id task | cancel handle | shutdown | poll task id | finish task id ending =>
      cases hl

theorem length_reports (guard : Option UInt64) : (s.reports guard).length ≤ 1 := by
  unfold St.reports
  split
  · cases guard <;> simp
  · simp

theorem rank_receive {command : TaskCommand} (hg : guard (.receive command) s) (h : Kept s) :
    rank (update (.receive command) s) < rank s := by
  have hlen : s.commands.tail.length = s.commands.length - 1 := List.length_tail
  have hpos := List.length_pos_of_mem (List.mem_of_head? hg.2)
  cases command with
  | spawn id task =>
      have hspawnable := h.table.spawnable h.queued h.count hg.2
      have hsent : .spawn id task ∈ s.sent := List.mem_append_right _ (List.mem_of_head? hg.2)
      have hlt := (h.queued.spawned id task hsent).2
      have hsum := Lts.sum_update TaskPc.rank s.issued.length (.spawned id) (g := s.task) hlt
      have hold : (s.task task).rank = 0 := by
        rw [hspawnable.unspawned]
        rfl
      have hnew : TaskPc.rank (.spawned id) = 2 := rfl
      show 3 * s.commands.tail.length + s.completions.length +
        ∑ u ∈ Finset.range s.issued.length, (Function.update s.task task (.spawned id) u).rank <
          rank s
      unfold rank
      omega
  | cancel id =>
      show 3 * s.commands.tail.length + s.completions.length +
        ∑ u ∈ Finset.range s.issued.length, (s.task u).rank < rank s
      unfold rank
      omega

theorem rank_drop {task : ℕ} (hg : guard (.drop task) s) (h : Kept s) :
    rank (update (.drop task) s) < rank s := by
  have hspawn := Queued.sent_of_received (h.table.received_of_live h.queued hg.2)
  have hlt := (h.queued.spawned _ task hspawn).2
  have hsum := Lts.sum_update TaskPc.rank s.issued.length .ended (g := s.task) hlt
  have hold : (s.task task).rank = 2 := if_pos hg.2
  have hnew : TaskPc.rank .ended = 0 := rfl
  have hreports := length_reports (s := s) (s.task task).completionGuard
  show 3 * s.commands.length +
    (s.completions ++ s.reports (s.task task).completionGuard).length +
      ∑ u ∈ Finset.range s.issued.length, (Function.update s.task task .ended u).rank < rank s
  rw [List.length_append]
  unfold rank
  omega

theorem ranked_alone : Lts.Ranked alone Kept rank where
  keeps := by
    rintro l s ⟨hg, hl⟩ h
    have hcount : (update l s).issued.length < 2 ^ 64 := by
      rw [(frame_own hl).1]
      exact h.count
    exact ⟨hcount, queued_step hg h.queued, table_step h.queued h.count hg h.table,
      tended_step h.queued h.count h.table hg h.tended⟩
  lowers := by
    rintro l s ⟨hg, hl⟩ h
    cases l with
    | receive command => exact rank_receive hg h
    | drop task => exact rank_drop hg h
    | complete id =>
        have hlen : s.completions.tail.length = s.completions.length - 1 := List.length_tail
        have hpos := List.length_pos_of_mem (List.mem_of_head? hg.2)
        show 3 * s.commands.length + s.completions.tail.length + _ < rank s
        unfold rank
        exact Nat.add_lt_add_right (by omega) _
    | take t | send t id task | cancel handle | shutdown | poll task id
    | finish task id ending => cases hl

theorem rank_le (s : St) :
    rank s ≤ 3 * s.commands.length + s.completions.length + 2 * s.issued.length := by
  have hsum : ∑ task ∈ Finset.range s.issued.length, (s.task task).rank ≤
      (Finset.range s.issued.length).card • 2 := by
    refine Finset.sum_le_card_nsmul _ _ 2 ?_
    intro task _
    unfold TaskPc.rank
    split <;> omega
  rw [Finset.card_range, smul_eq_mul] at hsum
  unfold rank
  omega

/-! ### At rest -/

theorem not_aborted_of_stuck (h : alone.Stuck s) {task : ℕ} (hlive : (s.task task).live = true) :
    s.aborted task = false := by
  by_contra haborted
  exact h (.drop task) ⟨⟨Bool.eq_true_of_not_eq_false haborted, hlive⟩, rfl⟩

theorem queues_of_stuck (h : alone.Stuck s) (hrunning : s.running = true) :
    s.commands = [] ∧ s.completions = [] := by
  constructor
  · cases hcommands : s.commands with
    | nil => rfl
    | cons command rest =>
        exact absurd ⟨⟨hrunning, by rw [hcommands]; rfl⟩, rfl⟩ (h (.receive command))
  · cases hcompletions : s.completions with
    | nil => rfl
    | cons id rest =>
        exact absurd ⟨⟨hrunning, by rw [hcompletions]; rfl⟩, rfl⟩ (h (.complete id))

/-- A worker at rest has an entry for every live task, and no others. -/
theorem lookup_of_stuck (h : alone.Stuck s) (hk : Kept s) (hrunning : s.running = true)
    (id : UInt64) (task : ℕ) :
    s.taskHandles.lookup id = some task ↔ id = idOf task ∧ (s.task task).live = true := by
  constructor
  · intro hlookup
    rcases (hk.table.lookup_iff hrunning id task).mp hlookup with ⟨hspawn, hcancel, hdone⟩
    have hid := (hk.queued.spawned id task (Queued.sent_of_received hspawn)).1
    refine ⟨hid, ?_⟩
    -- the task was spawned, and its end would have been reported
    cases hpc : s.task task with
    | unspawned => exact absurd hspawn ((hk.table.unspawned task).mp hpc id)
    | spawned _ | polled _ => rfl
    | ended =>
        rcases hk.table.ended hrunning task hpc with hmem | hmem | hmem
        · exact absurd (hid ▸ hmem) hcancel
        · rw [(queues_of_stuck h hrunning).2] at hmem
          exact absurd hmem List.not_mem_nil
        · exact absurd (hid ▸ hmem) hdone
  · rintro ⟨rfl, hlive⟩
    rcases hk.table.lookup_of_live hk.queued hk.count hrunning hlive with haborted | hlookup
    · rw [not_aborted_of_stuck h hlive] at haborted
      cases haborted
    · exact hlookup

end Alone

/-- A worker settles. From every state that any interleaving leads to (with fewer than `2 ^ 64`
calls of `spawn_task`) the worker by itself takes a bounded number of steps, in any order, and
can go on until it is at rest. While the loop runs, both queues are then empty and the map has
exactly the live tasks, each under its own id; after the end of the loop no task is left. -/
theorem worker_settles {s : St} (hs : worker.Reachable s) (hcount : s.issued.length < 2 ^ 64)
    {tr : List Lbl} {s' : St} (hrun : alone.Run s tr s') :
    tr.length ≤ 3 * s.commands.length + s.completions.length + 2 * s.issued.length ∧
    (∃ rest s'', alone.Run s' rest s'' ∧ alone.Stuck s'') ∧
    (alone.Stuck s' →
      (s'.running = true → s'.commands = [] ∧ s'.completions = [] ∧ ∀ id task,
        s'.taskHandles.lookup id = some task ↔ id = idOf task ∧ (s'.task task).live = true) ∧
      (s'.running = false → ∀ task, (s'.task task).live = false)) := by
  have hkept : Kept s :=
    ⟨hcount, reachable_queued hs, reachable_table hs hcount, reachable_tended hs hcount⟩
  rcases ranked_alone.completes hkept hrun with ⟨hlen, hstop⟩
  refine ⟨hlen.trans (rank_le s), hstop, ?_⟩
  intro hstuck
  have hkept' : Kept s' := hrun.preserves Kept hkept ranked_alone.keeps
  constructor
  · intro hrunning
    have hqueues := queues_of_stuck hstuck hrunning
    exact ⟨hqueues.1, hqueues.2, lookup_of_stuck hstuck hkept' hrunning⟩
  · intro hstopped task
    by_contra hlive
    have hlive' := Bool.eq_true_of_not_eq_false hlive
    have haborted := hkept'.tended hstopped task hlive'
    rw [not_aborted_of_stuck hstuck hlive'] at haborted
    cases haborted

/-- Two tasks, one of them polled and the other cancelled but not yet dropped, when the loop is
told to shut down: both end. -/
theorem worker_settles_shutdown :
    ∃ s rest s', worker.Reachable s ∧ s.running = false ∧ (s.task 0).live = true ∧
      (s.task 1).live = true ∧ alone.Run s rest s' ∧ ∀ task, (s'.task task).live = false := by
  have hexec := worker.exists_run_of_exec
    [.take 0, .send 0 1 0, .take 0, .send 0 2 1, .receive (.spawn 1 0), .poll 0 1, .cancel ⟨2⟩,
      .receive (.spawn 2 1), .receive (.cancel 2), .shutdown]
    (fun s => s.running = false ∧ (s.task 0).live = true ∧ (s.task 1).live = true ∧
      s.issued.length = 2) (by decide)
  rcases hexec with ⟨s, hrun, hstopped, hlive, hlive', hlen⟩
  have hs : worker.Reachable s := ⟨_, hrun⟩
  have hcount : s.issued.length < 2 ^ 64 := by omega
  rcases (worker_settles hs hcount .nil).2.1 with ⟨rest, s', hrest, hstuck⟩
  have hstopped' : s'.running = false := by
    refine hrest.preserves (fun t => t.running = false) hstopped ?_
    intro l t hg ht
    exact (frame_own hg.2).2.trans ht
  exact ⟨s, rest, s', hs, hstopped, hlive, hlive', hrest,
    ((worker_settles hs hcount hrest).2.2 hstuck).2 hstopped'⟩

end Tokio

end ReusePort
