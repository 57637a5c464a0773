import Mathlib
import ReusePort.Core.ServerRuntime

/-!
# ReusePort.Core.SpawnTask — where the tasks of a runtime go

`ServerRuntime::spawn_task` (`core/server_runtime.rs`) stays on the worker that calls it,
and otherwise takes the workers in turn, by a counter that all threads share. Between the
check that the runtime is running and the hand-over of the task, other calls can draw
their tickets and the counter can wrap around.

* `Accounts` — what the counter, the calls under way and those that returned say about
  each other, in every reachable state;
* `spawnTask_places` — every task gets to a worker, and the workers get equal shares.
-/

namespace ReusePort.ServerRuntime

/-! ## The accounts -/

/-- A call under way, or its return, that has drawn a ticket for a worker with `P`. -/
def Call.drawn (P : ℕ → Bool) (c : Call) : Bool :=
  match c with
  | ⟨none, .submit w⟩ => P w
  | _ => false

@[inherit_doc Call.drawn]
def Return.drawn (P : ℕ → Bool) (r : Return) : Bool :=
  match r with
  | ⟨none, .ok w⟩ => P w
  | _ => false

/-- The worker of the `t`-th ticket: the counter wraps around. -/
def turn (n t : ℕ) : ℕ := t % 2 ^ 64 % n

/-- A call of a worker stays there, and draws no ticket. -/
structure Call.Ok (n : ℕ) (c : Call) : Prop where
  thread : ∀ w ∈ c.thread, w < n
  own : ∀ v ∈ c.thread, ∀ w, c.pc = .submit w → w = v
  lt : ∀ w, c.pc = .submit w → w < n
  other : c.pc = .ensureAgain ∨ c.pc = .ticket → c.thread = none

/-- A task has got to a worker, its own one if it was spawned there. -/
def Return.Ok (n : ℕ) (r : Return) : Prop :=
  ∃ w < n, r.result = .ok w ∧ ∀ v ∈ r.thread, w = v

/-- The destructor runs, or there is no runtime. -/
def OwnerPc.over : OwnerPc → Bool
  | .dropping _ _ _ _ | .done _ => true
  | _ => false

/-- The accounts of `spawn_task`. -/
structure Accounts (n : ℕ) (s : St) : Prop where
  active : s.owner.over = false → s.active = true
  idle : s.owner ≠ .started → s.calls = 0
  next : s.nextWorker.toNat = s.tickets % 2 ^ 64
  calls : ∀ c ∈ s.calls, c.Ok n
  returned : ∀ r ∈ s.returned, r.Ok n
  drawn : ∀ P : ℕ → Bool, s.calls.countP (fun c => c.drawn P) +
    s.returned.countP (fun r => r.drawn P) = Nat.count (fun t => P (turn n t)) s.tickets

section Accounts

variable {n : ℕ} {s : St} {c : Call}

theorem Accounts.started (h : Accounts n s) (hc : c ∈ s.calls) :
    s.owner = .started ∧ s.active = true := by
  have howner : s.owner = .started := by
    by_contra hne
    rw [h.idle hne] at hc
    exact Multiset.notMem_zero c hc
  refine ⟨howner, h.active ?_⟩
  rw [howner]
  rfl

/-- A call goes on, without a ticket. -/
theorem Accounts.goOn (h : Accounts n s) (hc : c ∈ s.calls) {pc : CallPc}
    (hok : Call.Ok n ⟨c.thread, pc⟩) (hdrawn : ∀ P, Call.drawn P ⟨c.thread, pc⟩ = c.drawn P) :
    Accounts n (s.proceed c (.inl pc)) where
  active := h.active
  idle := fun hne => absurd (h.started hc).1 hne
  next := h.next
  calls := by
    intro c' hc'
    rcases Multiset.mem_cons.mp hc' with rfl | hmem
    · exact hok
    · exact h.calls c' (Multiset.mem_of_mem_erase hmem)
  returned := h.returned
  drawn := by
    intro P
    have hcount := Multiset.countP_cons (fun x => Call.drawn P x) c (s.calls.erase c)
    rw [Multiset.cons_erase hc] at hcount
    have htotal := h.drawn P
    simp only [St.proceed, Multiset.countP_cons, hdrawn]
    omega

/-- A call returns. -/
theorem Accounts.return (h : Accounts n s) (hc : c ∈ s.calls) {result : Except Error ℕ}
    (hok : Return.Ok n ⟨c.thread, result⟩)
    (hdrawn : ∀ P, Return.drawn P ⟨c.thread, result⟩ = c.drawn P) :
    Accounts n (s.proceed c (.inr result)) where
  active := h.active
  idle := fun hne => absurd (h.started hc).1 hne
  next := h.next
  calls := fun c' hc' => h.calls c' (Multiset.mem_of_mem_erase hc')
  returned := by
    intro r hr
    rcases Multiset.mem_cons.mp hr with rfl | hmem
    · exact hok
    · exact h.returned r hmem
  drawn := by
    intro P
    have hcount := Multiset.countP_cons (fun x => Call.drawn P x) c (s.calls.erase c)
    rw [Multiset.cons_erase hc] at hcount
    have htotal := h.drawn P
    simp only [St.proceed, Multiset.countP_cons, hdrawn]
    omega

theorem toNat_add_one (v : UInt64) : (v + 1).toNat = (v.toNat + 1) % 2 ^ 64 := by
  rw [UInt64.toNat_add]
  rfl

/-- A call of no worker draws its ticket. -/
theorem Accounts.draw (h : Accounts n s) (hn : 0 < n) (hc : (⟨none, .ticket⟩ : Call) ∈ s.calls) :
    Accounts n (St.proceed { s with nextWorker := s.nextWorker + 1, tickets := s.tickets + 1 }
      ⟨none, .ticket⟩ (.inl (.submit (s.nextWorker.toNat % n)))) where
  active := h.active
  idle := fun hne => absurd (h.started hc).1 hne
  next := by
    show (s.nextWorker + 1).toNat = (s.tickets + 1) % 2 ^ 64
    rw [toNat_add_one, h.next, Nat.mod_add_mod]
  calls := by
    intro c' hc'
    rcases Multiset.mem_cons.mp hc' with rfl | hmem
    · refine ⟨by rintro _ ⟨⟩, by rintro _ ⟨⟩, ?_, fun _ => rfl⟩
      rintro w ⟨⟩
      exact Nat.mod_lt _ hn
    · exact h.calls c' (Multiset.mem_of_mem_erase hmem)
  returned := h.returned
  drawn := by
    intro P
    have hcount := Multiset.countP_cons (fun x => Call.drawn P x) ⟨none, .ticket⟩
      (s.calls.erase ⟨none, .ticket⟩)
    rw [Multiset.cons_erase hc] at hcount
    have htotal := h.drawn P
    -- the ticket is the number of those before it
    have hnew : Call.drawn P ⟨none, .submit (s.nextWorker.toNat % n)⟩ = P (turn n s.tickets) := by
      simp only [Call.drawn, turn, h.next]
    have hold : Call.drawn P ⟨none, .ticket⟩ = false := rfl
    simp only [St.proceed, Multiset.countP_cons, hnew, Nat.count_succ]
    simp only [hold, Bool.false_eq_true, if_false] at hcount
    omega

theorem currentWorkerId_some {w : ℕ} (hw : w < n) : currentWorkerId n (some w) = some w := by
  unfold currentWorkerId
  rw [List.find?_range_eq_some]
  refine ⟨by simp, by simpa using hw, ?_⟩
  intro j hj
  simp only [Option.some.injEq, decide_eq_false_iff_not, Bool.not_eq_true']
  omega

theorem currentWorkerId_none : currentWorkerId n none = none := by
  simp [currentWorkerId]

theorem submitToWorker_ok {w : ℕ} {thread : ℕ → ThreadPc} (hw : w < n)
    (hthread : thread w = .parked) : submitToWorker n thread w = .ok w := by
  simp [submitToWorker, hw, hthread]

/-- Every step of a call keeps the accounts. -/
theorem accounts_callStep (hplaced : Placed n s s.owner) (hn : s.owner = .started → 0 < n)
    (h : Accounts n s) (hc : c ∈ s.calls) : Accounts n (s.callStep n c) := by
  rcases h.started hc with ⟨howner, hactive⟩
  have hok := h.calls c hc
  rcases c with ⟨thread, pc⟩
  cases pc with
  | ensure =>
      simp only [St.callStep, hactive, if_true]
      refine h.goOn hc ⟨hok.thread, by rintro _ _ _ ⟨⟩, by rintro _ ⟨⟩,
        by rintro (hpc | hpc) <;> cases hpc⟩ ?_
      intro P
      cases thread <;> rfl
  | locate =>
      simp only [St.callStep]
      cases thread with
      | none =>
          rw [currentWorkerId_none]
          exact h.goOn hc ⟨hok.thread, by rintro _ ⟨⟩, by rintro _ ⟨⟩, fun _ => rfl⟩ fun _ => rfl
      | some w =>
          have hw := hok.thread w rfl
          rw [currentWorkerId_some hw]
          refine h.goOn hc ⟨hok.thread, ?_, ?_, by rintro (hpc | hpc) <;> cases hpc⟩ fun _ => rfl
          · rintro _ ⟨⟩ _ ⟨⟩
            rfl
          · rintro _ ⟨⟩
            exact hw
  | ensureAgain =>
      obtain rfl : thread = none := hok.other (Or.inl rfl)
      simp only [St.callStep, hactive, if_true]
      exact h.goOn hc ⟨hok.thread, by rintro _ ⟨⟩, by rintro _ ⟨⟩, fun _ => rfl⟩ fun _ => rfl
  | ticket =>
      obtain rfl : thread = none := hok.other (Or.inr rfl)
      simp only [St.callStep, if_neg (Nat.ne_of_gt (hn howner))]
      exact h.draw (hn howner) hc
  | submit w =>
      have hw := hok.lt w rfl
      have hparked : s.thread w = .parked := by
        rw [howner] at hplaced
        exact (hplaced.1 w hw).1
      simp only [St.callStep, submitToWorker_ok hw hparked]
      refine h.return hc ⟨w, hw, rfl, fun v hv => hok.own v hv w rfl⟩ ?_
      intro P
      cases thread <;> rfl

/-- A step of the owner, of a thread or of a new call keeps the accounts. -/
theorem accounts_frame {s' : St} (h : Accounts n s)
    (hover : s'.owner.over = false → s'.active = true)
    (hidle : s'.owner ≠ .started → s'.calls = 0) (hnext : s'.nextWorker = s.nextWorker)
    (htickets : s'.tickets = s.tickets) (hcalls : s'.calls = s.calls)
    (hreturned : s'.returned = s.returned) : Accounts n s' where
  active := hover
  idle := hidle
  next := by
    rw [hnext, htickets]
    exact h.next
  calls := by
    rw [hcalls]
    exact h.calls
  returned := by
    rw [hreturned]
    exact h.returned
  drawn := by
    rw [hcalls, hreturned, htickets]
    exact h.drawn

/-- The owner is at work on the start or on the destructor, and there is no call. -/
theorem accounts_owner {s' : St} (h : Accounts n s) (howner : s.owner ≠ .started)
    (hover : s'.owner.over = false → s.owner.over = false) (hactive : s'.active = s.active)
    (hnext : s'.nextWorker = s.nextWorker) (htickets : s'.tickets = s.tickets)
    (hcalls : s'.calls = s.calls) (hreturned : s'.returned = s.returned) : Accounts n s' := by
  refine accounts_frame h ?_ ?_ hnext htickets hcalls hreturned
  · intro hnot
    rw [hactive]
    exact h.active (hover hnot)
  · intro _
    rw [hcalls]
    exact h.idle howner

theorem accounts_step {config : WorkerCount} {l : Lbl} (hg : guard n l s)
    (hplaced : Placed n s s.owner) (hn : s.owner = .started → 0 < n) (h : Accounts n s) :
    Accounts n (update config n l s) := by
  cases l with
  | validate =>
      have howner : s.owner = .validating := hg
      simp only [update]
      cases validate config <;>
        exact accounts_owner h (by simp [howner]) (by simp [howner, OwnerPc.over]) rfl rfl rfl rfl
          rfl
  | spawn w | spawnErr w error | recv w | recvErr w | shutdown o m w | joined o m w =>
      exact accounts_owner h (by simp [hg.1]) (by simp [update, hg.1, OwnerPc.over]) rfl rfl rfl
        rfl rfl
  | finish | freed o m =>
      exact accounts_owner h (by simp [show s.owner = _ from hg])
        (by simp [update, show s.owner = _ from hg, OwnerPc.over]) rfl rfl rfl rfl rfl
  | drop =>
      refine accounts_frame h (by simp [update, OwnerPc.over]) ?_ rfl rfl rfl rfl
      intro _
      exact hg.2
  | build w | buildErr w | exit w => exact accounts_frame h h.active h.idle rfl rfl rfl rfl
  | send w =>
      simp only [update]
      split <;> exact accounts_frame h h.active h.idle rfl rfl rfl rfl
  | call thread =>
      refine ⟨h.active, fun hne => absurd hg.1 hne, h.next, ?_, h.returned, ?_⟩
      · intro c hc
        rcases Multiset.mem_cons.mp hc with rfl | hmem
        · -- a worker that can call is one of the runtime's
          refine ⟨?_, by rintro _ _ _ ⟨⟩, by rintro _ ⟨⟩, by rintro (hpc | hpc) <;> cases hpc⟩
          intro w hw
          by_contra hge
          have hparked := hg.2 w hw
          rw [hg.1] at hplaced
          rw [(hplaced.2 w (Nat.le_of_not_lt hge)).1] at hparked
          cases hparked
        · exact h.calls c hmem
      · intro P
        have hnone : Call.drawn P ⟨thread, .ensure⟩ = false := by
          cases thread <;> rfl
        have htotal := h.drawn P
        simpa [update, Multiset.countP_cons, hnone] using htotal
  | step c => exact accounts_callStep hplaced hn h hg

end Accounts

theorem reachable_accounts {config : WorkerCount} {cpus : ℕ} {s : St}
    (hs : (life config cpus).Reachable s) : Accounts (workerCount cpus config) s := by
  have hinv : Placed (workerCount cpus config) s s.owner ∧ Validated config s.owner ∧
      Accounts (workerCount cpus config) s := by
    refine (life config cpus).invariant (fun s => Placed (workerCount cpus config) s s.owner ∧
      Validated config s.owner ∧ Accounts (workerCount cpus config) s) ?_ ?_ s hs
    · refine ⟨fun _ => ⟨rfl, rfl, rfl⟩, trivial, ⟨fun _ => rfl, fun _ => rfl, rfl, ?_, ?_, ?_⟩⟩
      · exact fun c hc => absurd hc (Multiset.notMem_zero c)
      · exact fun r hr => absurd hr (Multiset.notMem_zero r)
      · exact fun P => rfl
    · rintro l s hg ⟨hplaced, hvalid, haccounts⟩
      refine ⟨placed_step hg hplaced, validated_step hg hvalid,
        accounts_step hg hplaced ?_ haccounts⟩
      intro hstarted
      rw [hstarted] at hvalid
      exact workerCount_pos hvalid
  exact hinv.2.2

/-- In one round of the counter the workers take turns. -/
theorem count_turn {n w k : ℕ} (hw : w < n) (hk : k ≤ 2 ^ 64) :
    Nat.count (fun t => decide (turn n t = w) = true) k = k / n + if w < k % n then 1 else 0 := by
  have hn : 0 < n := Nat.lt_of_le_of_lt (Nat.zero_le w) hw
  have hcount := Nat.count_modEq_card k hn w
  rw [Nat.mod_eq_of_lt hw] at hcount
  rw [← hcount]
  have hsame : ∀ t < k, (decide (turn n t = w) = true ↔ t ≡ w [MOD n]) := by
    intro t ht
    rw [decide_eq_true_iff, turn, Nat.mod_eq_of_lt (Nat.lt_of_lt_of_le ht hk), Nat.ModEq,
      Nat.mod_eq_of_lt hw]
  apply Nat.le_antisymm
  · exact Nat.count_mono_left fun t ht => (hsame t ht).mp
  · exact Nat.count_mono_left fun t ht => (hsame t ht).mpr

/-- `spawn_task` never fails and places its tasks evenly. In every reachable state, whatever the
interleaving of the calls of all threads: every call that has returned has given its task to a
worker, to the caller's own if it was made on a worker thread; and when no call is under way, the
calls of the other threads, `k` of them, have been dealt out in turn: each worker has `k / n` of
them, and the first `k % n` workers one more (for the first round of the counter, `2 ^ 64`
calls). -/
theorem spawnTask_places (config : WorkerCount) (cpus : ℕ) {s : St}
    (hs : (life config cpus).Reachable s) :
    (∀ r ∈ s.returned, ∃ w < workerCount cpus config, r.result = .ok w ∧ ∀ v ∈ r.thread, w = v) ∧
    (s.calls = 0 → s.returned.countP (fun r => r.thread = none) ≤ 2 ^ 64 →
      ∀ w < workerCount cpus config, s.returned.count ⟨none, .ok w⟩ =
        s.returned.countP (fun r => r.thread = none) / workerCount cpus config +
          if w < s.returned.countP (fun r => r.thread = none) % workerCount cpus config
          then 1 else 0) := by
  have h := reachable_accounts hs
  refine ⟨h.returned, ?_⟩
  intro hcalls hround w hw
  have hall : s.returned.countP (fun r => r.thread = none) = s.tickets := by
    have htotal := h.drawn fun _ => true
    rw [hcalls, Multiset.countP_zero, Nat.zero_add] at htotal
    have heq : s.returned.countP (fun r => r.thread = none) =
        s.returned.countP (fun r => Return.drawn (fun _ => true) r = true) := by
      refine Multiset.countP_congr rfl ?_
      intro r hr
      rcases h.returned r hr with ⟨v, _, hresult, _⟩
      rcases r with ⟨_ | thread, result⟩
      · cases hresult
        simp [Return.drawn]
      · simp [Return.drawn]
    rw [heq, htotal]
    simp
  have hone : s.returned.count ⟨none, .ok w⟩ =
      Nat.count (fun t => decide (turn (workerCount cpus config) t = w) = true) s.tickets := by
    have htotal := h.drawn fun v => decide (v = w)
    rw [hcalls, Multiset.countP_zero, Nat.zero_add] at htotal
    rw [← htotal, Multiset.count]
    refine Multiset.countP_congr rfl ?_
    intro r hr
    rcases h.returned r hr with ⟨v, _, hresult, _⟩
    rcases r with ⟨_ | thread, result⟩
    · cases hresult
      simp [Return.drawn, eq_comm]
    · simp [Return.drawn]
  rw [hone, hall]
  exact count_turn hw (hall ▸ hround)

/-- Two workers and four calls, one of them on the second worker. The first and the second of
the others draw their tickets in the order in which they were made, but hand over in the opposite
one. -/
theorem spawnTask_places_four :
    ∃ s, (life (.fixed 2) 1).Reachable s ∧ s.calls = 0 ∧
      s.returned.count ⟨some 1, .ok 1⟩ = 1 ∧
      s.returned.countP (fun r => r.thread = none) = 3 ∧
      s.returned.count ⟨none, .ok 0⟩ = 2 ∧ s.returned.count ⟨none, .ok 1⟩ = 1 := by
  have hexec := (life (.fixed 2) 1).exists_run_of_exec
    [.validate, .spawn 0, .build 0, .send 0, .recv 0, .spawn 1, .build 1, .send 1, .recv 1,
      .finish, .call none, .call (some 1), .call none, .step ⟨none, .ensure⟩,
      .step ⟨none, .ensure⟩, .step ⟨none, .locate⟩, .step ⟨some 1, .ensure⟩,
      .step ⟨none, .ensureAgain⟩, .step ⟨none, .ticket⟩, .step ⟨none, .locate⟩,
      .step ⟨none, .ensureAgain⟩, .step ⟨none, .ticket⟩, .step ⟨none, .submit 1⟩,
      .step ⟨some 1, .locate⟩, .step ⟨some 1, .submit 1⟩, .step ⟨none, .submit 0⟩, .call none,
      .step ⟨none, .ensure⟩, .step ⟨none, .locate⟩, .step ⟨none, .ensureAgain⟩,
      .step ⟨none, .ticket⟩, .step ⟨none, .submit 0⟩]
    (fun s => s.calls = 0 ∧ s.returned.count ⟨some 1, .ok 1⟩ = 1 ∧
      s.returned.countP (fun r => r.thread = none) = 3)
    (by decide +kernel)
  rcases hexec with ⟨s, hrun, hcalls, hown, hothers⟩
  have hs : (life (.fixed 2) 1).Reachable s := ⟨_, hrun⟩
  have hplaces := (spawnTask_places (.fixed 2) 1 hs).2 hcalls (by rw [hothers]; norm_num)
  refine ⟨s, hs, hcalls, hown, hothers, ?_, ?_⟩
  · rw [hplaces 0 (by decide), hothers]
    rfl
  · rw [hplaces 1 (by decide), hothers]
    rfl

end ReusePort.ServerRuntime
