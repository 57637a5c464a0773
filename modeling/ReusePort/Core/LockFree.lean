import Mathlib
import ReusePort.Core.Concurrency
import ReusePort.Progress

/-!
# ReusePort.Core.LockFree — the permit helper finishes what it has begun

The operations of the helper retry: an exchange that meets another value is repeated.
No call can be kept retrying by the others for ever, since an exchange fails only
after another one has succeeded, and every call succeeds once.

* `costs_busy` — what one atomic access does to the work that is left;
* `lock_free` — a bound on the accesses of all calls under way, in every interleaving.
-/

namespace ReusePort.Pool

/-! ## The work that is left -/

/-- The accesses that a call has ahead of it if no other call gets in its way. An exchange
with an outdated value has to be repeated. -/
def tryCost (c : ConcurrencyState) : TryPc → ℕ
  | .load => 2
  | .cas active => if active = c.active then 1 else 3

@[inherit_doc tryCost]
def dropCost (c : ConcurrencyState) : DropPc → ℕ
  | .load => 3
  | .cas active => if active = c.active then 2 else 3
  | .wake => 1
  | .gaveUp => 1

/-- The same for a waiter, which registers itself where all permits are out. -/
def pollCost (c : ConcurrencyState) : PollPc → ℕ
  | .load => if c.active < c.max then 2 else 3
  | .cas active => if active = c.active then 1 else 4
  | .register => if c.active < c.max then 4 else 2
  | .reload => if c.active < c.max then 3 else 1
  | .pending => 0

def waiterCost (p : Pool) : ℕ := p.waiter.elim 0 (pollCost p.mem)

/-- The calls under way. -/
def calls (p : Pool) : ℕ := p.waiter.elim 0 (fun _ => 1) + p.tries.card + p.drops.card

/-- The calls that have not had their exchange yet. -/
def unsettled (p : Pool) : ℕ := p.waiter.elim 0 (fun _ => 1) + p.tries.card + liveDrops p.drops

/-- What the calls have ahead of them if none gets in the way of another. -/
def work (p : Pool) : ℕ :=
  waiterCost p + (p.tries.map (tryCost p.mem)).sum + (p.drops.map (dropCost p.mem)).sum

/-- Every success can set all calls back once. -/
def cost (p : Pool) : ℕ := Lts.contended 4 (calls p) (unsettled p) (work p)

theorem tryCost_le (c : ConcurrencyState) (pc : TryPc) : tryCost c pc ≤ 4 := by
  cases pc with
  | load =>
      simp only [tryCost]
      omega
  | cas active =>
      simp only [tryCost]
      split <;> decide

theorem dropCost_le (c : ConcurrencyState) (pc : DropPc) : dropCost c pc ≤ 4 := by
  cases pc with
  | load | wake | gaveUp =>
      simp only [dropCost]
      omega
  | cas active =>
      simp only [dropCost]
      split <;> decide

theorem pollCost_le (c : ConcurrencyState) (pc : PollPc) : pollCost c pc ≤ 4 := by
  cases pc with
  | load | cas active | register | reload =>
      simp only [pollCost]
      split <;> decide
  | pending => exact Nat.zero_le _

theorem waiterCost_le (p : Pool) : waiterCost p ≤ 4 * p.waiter.elim 0 (fun _ => 1) := by
  unfold waiterCost
  cases p.waiter with
  | none => exact Nat.zero_le _
  | some pc => exact pollCost_le p.mem pc

theorem sum_map_le {α : Type} (m : Multiset α) {f : α → ℕ} (hf : ∀ a, f a ≤ 4) :
    (m.map f).sum ≤ 4 * m.card := by
  induction m using Multiset.induction_on with
  | empty => simp
  | cons a m ih =>
      have ha := hf a
      rw [Multiset.map_cons, Multiset.sum_cons, Multiset.card_cons]
      omega

theorem liveDrops_le (drops : Multiset DropPc) : liveDrops drops ≤ drops.card :=
  Multiset.countP_le_card _ _

/-- Whatever the counter has become, a call has at most four accesses ahead of it. -/
theorem work_le (p : Pool) : work p ≤ 4 * calls p := by
  have hwaiter := waiterCost_le p
  have htries := sum_map_le p.tries (tryCost_le p.mem)
  have hdrops := sum_map_le p.drops (dropCost_le p.mem)
  unfold work calls
  omega

theorem unsettled_le (p : Pool) : unsettled p ≤ calls p := by
  have hdrops := liveDrops_le p.drops
  unfold unsettled calls
  omega

theorem cost_le (p : Pool) : cost p ≤ 4 * calls p * (calls p + 1) := by
  have hwork := work_le p
  have hunsettled := Nat.mul_le_mul_left (4 * calls p) (unsettled_le p)
  have hexpand : 4 * calls p * (calls p + 1) = 4 * calls p * calls p + 4 * calls p := by ring
  unfold cost Lts.contended
  omega

/-! ## One access -/

/-- One of the atomic accesses of the calls under way. -/
def isAccess : PoolLbl → Bool
  | .poll _ _ | .tryPoll _ _ | .drop _ _ => true
  | .acquire | .abandon | .tryAcquire | .release => false

/-- An access that gets nowhere through no fault of the helper: a weak exchange that fails for
no reason, or a poll of a suspended future that nobody has woken. -/
def isFutile : PoolLbl → Bool
  | .poll .pending _ => true
  | .poll _ spurious => spurious
  | .tryPoll _ spurious => spurious
  | .drop _ spurious => spurious
  | .acquire | .abandon | .tryAcquire | .release => false

section Step

variable {p : Pool}

theorem liveDrops_erase {drops : Multiset DropPc} {d : DropPc} (h : d ∈ drops) :
    liveDrops drops = liveDrops (drops.erase d) + if d.live then 1 else 0 := by
  nth_rewrite 1 [← Multiset.cons_erase h]
  exact liveDrops_cons d (drops.erase d)

/-- `try_acquire` under way: it goes to `next`, and the counter stays. -/
theorem cost_tryPoll_local {pc : TryPc} (hpc : pc ∈ p.tries) (next : Multiset TryPc) {g : ℕ}
    (hcard : next.card ≤ 1) (hcost : (next.map (tryCost p.mem)).sum + 1 ≤ tryCost p.mem pc + g) :
    cost { p with tries := next + p.tries.erase pc } + 1 ≤ cost p + g := by
  have hcalls := Multiset.card_erase_add_one hpc
  have hsum := Multiset.sum_map_erase (f := tryCost p.mem) hpc
  have hsplit : work { p with tries := next + p.tries.erase pc } =
      waiterCost p + ((next.map (tryCost p.mem)).sum +
        ((p.tries.erase pc).map (tryCost p.mem)).sum) + (p.drops.map (dropCost p.mem)).sum := by
    rw [work, Multiset.map_add, Multiset.sum_add]
    rfl
  refine Lts.contended_own ?_ ?_ ?_
  · simp only [calls, Multiset.card_add]
    omega
  · simp only [unsettled, Multiset.card_add]
    omega
  · rw [hsplit, work]
    omega

theorem cost_tryPoll {pc : TryPc} (spurious : Bool) (hpc : pc ∈ p.tries) :
    cost (update (.tryPoll pc spurious) p) + 1 ≤ cost p + if spurious then 4 else 0 := by
  cases pc with
  | load =>
      by_cases hfull : p.mem.active ≥ p.mem.max
      · have hstep := cost_tryPoll_local hpc 0 (g := 0) (by simp) (by simp [tryCost])
        have hcost : cost (update (.tryPoll .load spurious) p) + 1 ≤ cost p := by
          simpa [update, tryStep, hfull] using hstep
        exact hcost.trans (Nat.le_add_right _ _)
      · have hstep := cost_tryPoll_local hpc {.cas p.mem.active} (g := 0) (by simp)
          (by simp [tryCost])
        have hcost : cost (update (.tryPoll .load spurious) p) + 1 ≤ cost p := by
          simpa [update, tryStep, hfull] using hstep
        exact hcost.trans (Nat.le_add_right _ _)
  | cas active =>
      cases hcas : p.mem.compareExchangeWeak active (active + 1) spurious with
      | none =>
          -- it lost against another call, or for no reason
          have hlost : (({.load} : Multiset TryPc).map (tryCost p.mem)).sum + 1 ≤
              tryCost p.mem (.cas active) + if spurious then 4 else 0 := by
            by_cases hact : active = p.mem.active
            · have hspurious : spurious = true := by
                simpa [ConcurrencyState.compareExchangeWeak, hact] using hcas
              simp [tryCost, hact, hspurious]
            · simp [tryCost, hact]
          have hstep := cost_tryPoll_local hpc {.load} (by simp) hlost
          simpa [update, tryStep, hcas] using hstep
      | some c =>
          have hcalls := Multiset.card_erase_add_one hpc
          have hcost : cost (update (.tryPoll (.cas active) spurious) p) + 1 ≤ cost p := by
            simp only [update, tryStep, hcas]
            refine Lts.contended_turn ?_ ?_ ?_
            · simp only [calls]
              omega
            · simp only [unsettled]
              omega
            · have hwork := work_le
                { p with mem := c, tries := p.tries.erase (.cas active), held := p.held + 1 }
              simp only [calls] at hwork ⊢
              omega
          exact hcost.trans (Nat.le_add_right _ _)

/-- The costs depend on the counter and the maximum only, not on the waker. -/
theorem costs_congr {c c' : ConcurrencyState} (hactive : c'.active = c.active)
    (hmax : c'.max = c.max) :
    tryCost c' = tryCost c ∧ dropCost c' = dropCost c ∧ pollCost c' = pollCost c := by
  refine ⟨?_, ?_, ?_⟩
  · funext pc
    cases pc <;> simp only [tryCost, hactive]
  · funext pc
    cases pc <;> simp only [dropCost, hactive]
  · funext pc
    cases pc <;> simp only [pollCost, hactive, hmax]

/-- A drop under way goes to `next`, and the counter stays. -/
theorem cost_drop_local {pc : DropPc} (hpc : pc ∈ p.drops) {c : ConcurrencyState}
    (hactive : c.active = p.mem.active) (hmax : c.max = p.mem.max) (next : Multiset DropPc) {g : ℕ}
    (hcard : next.card ≤ 1) (hlive : liveDrops next ≤ if pc.live then 1 else 0)
    (hcost : (next.map (dropCost p.mem)).sum + 1 ≤ dropCost p.mem pc + g) :
    cost { p with mem := c, drops := next + p.drops.erase pc } + 1 ≤ cost p + g := by
  have hcalls := Multiset.card_erase_add_one hpc
  have hunsettled := liveDrops_erase hpc
  have hsum := Multiset.sum_map_erase (f := dropCost p.mem) hpc
  rcases costs_congr hactive hmax with ⟨htry, hdrop, hpoll⟩
  have hsplit : work { p with mem := c, drops := next + p.drops.erase pc } =
      waiterCost p + (p.tries.map (tryCost p.mem)).sum + ((next.map (dropCost p.mem)).sum +
        ((p.drops.erase pc).map (dropCost p.mem)).sum) := by
    rw [work, waiterCost, htry, hdrop, hpoll, Multiset.map_add, Multiset.sum_add]
    rfl
  refine Lts.contended_own ?_ ?_ ?_
  · simp only [calls, Multiset.card_add]
    omega
  · simp only [unsettled, liveDrops_add]
    omega
  · rw [hsplit, work]
    omega

/-- The head of the loop of the drop: its value is the current one, or there is nothing to do. -/
theorem loop_cost (c : ConcurrencyState) :
    dropCost c (.loop c.active) ≤ 2 := by
  unfold DropPc.loop
  split <;> simp [dropCost]

theorem cost_drop {pc : DropPc} (spurious : Bool) (hpc : pc ∈ p.drops) :
    cost (update (.drop pc spurious) p) + 1 ≤ cost p + if spurious then 4 else 0 := by
  have hloop := loop_cost p.mem
  have hsingle : ∀ d : DropPc, liveDrops {d} ≤ 1 := by
    intro d
    exact (liveDrops_le {d}).trans (by simp)
  cases pc with
  | load =>
      have hnext : (({.loop p.mem.active} : Multiset DropPc).map (dropCost p.mem)).sum + 1 ≤
          dropCost p.mem .load + 0 := by
        have hload : dropCost p.mem .load = 3 := rfl
        rw [Multiset.map_singleton, Multiset.sum_singleton]
        omega
      have hstep := cost_drop_local hpc rfl rfl {.loop p.mem.active} (by simp) (hsingle _) hnext
      have hcost : cost (update (.drop .load spurious) p) + 1 ≤ cost p := by
        simpa [update, dropStep] using hstep
      exact hcost.trans (Nat.le_add_right _ _)
  | cas active =>
      cases hcas : p.mem.compareExchangeWeak active (active - 1) spurious with
      | none =>
          have hlost : (({.loop p.mem.active} : Multiset DropPc).map (dropCost p.mem)).sum + 1 ≤
              dropCost p.mem (.cas active) + if spurious then 4 else 0 := by
            by_cases hact : active = p.mem.active
            · have hspurious : spurious = true := by
                simpa [ConcurrencyState.compareExchangeWeak, hact] using hcas
              simp only [Multiset.map_singleton, Multiset.sum_singleton, hspurious, if_true]
              omega
            · have hstale : dropCost p.mem (.cas active) = 3 := if_neg hact
              rw [Multiset.map_singleton, Multiset.sum_singleton]
              omega
          have hstep := cost_drop_local hpc rfl rfl {.loop p.mem.active} (by simp) (hsingle _)
            hlost
          simpa [update, dropStep, hcas] using hstep
      | some c =>
          -- the permit is given back, and the call goes on to wake the waiter
          have hcalls := Multiset.card_erase_add_one hpc
          have hunsettled := liveDrops_erase hpc
          have hcost : cost (update (.drop (.cas active) spurious) p) + 1 ≤ cost p := by
            simp only [update, dropStep, hcas]
            refine Lts.contended_turn ?_ ?_ ?_
            · simp only [calls, Multiset.card_cons]
              omega
            · simp only [DropPc.live, if_true] at hunsettled
              simp only [unsettled, liveDrops_cons, DropPc.live]
              simp only [Bool.false_eq_true, if_false]
              omega
            · have hothers := work_le { p with mem := c, drops := p.drops.erase (.cas active) }
              simp only [calls] at hothers ⊢
              rw [work, Multiset.map_cons, Multiset.sum_cons]
              rw [work] at hothers
              simp only [dropCost] at hothers ⊢
              simp only [waiterCost] at hothers ⊢
              omega
          exact hcost.trans (Nat.le_add_right _ _)
  | wake =>
      have hstep := cost_drop_local hpc (ConcurrencyState.wake_active p.mem)
        (ConcurrencyState.wake_max p.mem) 0 (g := 0) (by simp) (Nat.zero_le _) (by simp [dropCost])
      have hcost : cost (update (.drop .wake spurious) p) + 1 ≤ cost p := by
        simpa [update, dropStep] using hstep
      exact hcost.trans (Nat.le_add_right _ _)
  | gaveUp =>
      have hstep := cost_drop_local hpc rfl rfl 0 (g := 0) (by simp) (Nat.zero_le _)
        (by simp [dropCost])
      have hcost : cost (update (.drop .gaveUp spurious) p) + 1 ≤ cost p := by
        simpa [update, dropStep] using hstep
      exact hcost.trans (Nat.le_add_right _ _)

/-- The waiter goes to `next`, and the counter stays. -/
theorem cost_poll_local {pc next : PollPc} (hpc : p.waiter = some pc) {c : ConcurrencyState}
    (hactive : c.active = p.mem.active) (hmax : c.max = p.mem.max) {g : ℕ}
    (hcost : pollCost p.mem next + 1 ≤ pollCost p.mem pc + g) :
    cost { p with mem := c, waiter := some next } + 1 ≤ cost p + g := by
  rcases costs_congr hactive hmax with ⟨htry, hdrop, hpoll⟩
  have hsplit : work { p with mem := c, waiter := some next } =
      pollCost p.mem next + (p.tries.map (tryCost p.mem)).sum +
        (p.drops.map (dropCost p.mem)).sum := by
    rw [work, waiterCost, htry, hdrop, hpoll]
    rfl
  refine Lts.contended_own ?_ ?_ ?_
  · simp [calls, hpc]
  · simp [unsettled, hpc]
  · rw [hsplit, work, waiterCost, hpc, Option.elim_some]
    omega

theorem cost_poll {pc : PollPc} (spurious : Bool) (hpc : p.waiter = some pc) :
    cost (update (.poll pc spurious) p) + 1 ≤
      cost p + if isFutile (.poll pc spurious) then 4 else 0 := by
  cases pc with
  | load =>
      have hnext : pollCost p.mem (if p.mem.active < p.mem.max then .cas p.mem.active
          else .register) + 1 ≤ pollCost p.mem .load + 0 := by
        by_cases hfree : p.mem.active < p.mem.max <;> simp [pollCost, hfree]
      have hstep := cost_poll_local hpc rfl rfl hnext
      exact hstep.trans (Nat.le_add_right _ _)
  | cas active =>
      cases hcas : p.mem.compareExchangeWeak active (active + 1) spurious with
      | none =>
          have hlost : pollCost p.mem .load + 1 ≤
              pollCost p.mem (.cas active) + if spurious then 4 else 0 := by
            have hload : pollCost p.mem .load ≤ 3 := by
              simp only [pollCost]
              split <;> decide
            by_cases hact : active = p.mem.active
            · have hspurious : spurious = true := by
                simpa [ConcurrencyState.compareExchangeWeak, hact] using hcas
              rw [hspurious, if_pos rfl]
              omega
            · have hcost : pollCost p.mem (.cas active) = 4 := if_neg hact
              omega
          have hstep := cost_poll_local hpc rfl rfl hlost
          show _ ≤ cost p + if spurious then 4 else 0
          simpa only [update, pollStep, hcas] using hstep
      | some c =>
          have hcost : cost (update (.poll (.cas active) spurious) p) + 1 ≤ cost p := by
            simp only [update, pollStep, hcas]
            refine Lts.contended_turn ?_ ?_ ?_
            · simp [calls]
            · simp only [unsettled, hpc, Option.elim_none, Option.elim_some]
              omega
            · have hwork := work_le { p with mem := c, waiter := none, held := p.held + 1 }
              simp only [calls, hpc, Option.elim_none, Option.elim_some] at hwork ⊢
              omega
          exact hcost.trans (Nat.le_add_right _ _)
  | register =>
      have hnext : pollCost p.mem .reload + 1 ≤ pollCost p.mem .register + 0 := by
        simp only [pollCost]
        split <;> decide
      have hstep := cost_poll_local hpc (ConcurrencyState.register_active p.mem)
        (ConcurrencyState.register_max p.mem) hnext
      exact hstep.trans (Nat.le_add_right _ _)
  | reload =>
      have hnext : pollCost p.mem (if p.mem.active < p.mem.max then .load else .pending) + 1 ≤
          pollCost p.mem .reload + 0 := by
        by_cases hfree : p.mem.active < p.mem.max <;> simp [pollCost, hfree]
      have hstep := cost_poll_local hpc rfl rfl hnext
      exact hstep.trans (Nat.le_add_right _ _)
  | pending =>
      have hnext : pollCost p.mem .load + 1 ≤ pollCost p.mem .pending + 4 := by
        simp only [pollCost]
        split <;> decide
      exact cost_poll_local hpc rfl rfl hnext

end Step

/-! ## One call alone -/

/-- A `try_acquire` that is left alone comes to an end. -/
theorem tryCost_step {c : ConcurrencyState} {pc pc' : TryPc}
    (h : (tryStep false c pc).2 = .more pc') :
    (tryStep false c pc).1 = c ∧ tryCost c pc' < tryCost c pc := by
  cases pc with
  | load =>
      simp only [tryStep] at h ⊢
      split at h
      · cases h
      · cases h
        simp [tryCost]
  | cas active =>
      cases hcas : c.compareExchangeWeak active (active + 1) false with
      | some c' =>
          simp only [tryStep, hcas] at h
          cases h
      | none =>
          simp only [tryStep, hcas] at h ⊢
          cases h
          have hne : ¬ active = c.active := by
            intro heq
            simp [ConcurrencyState.compareExchangeWeak, heq] at hcas
          simp [tryCost, hne]

theorem tryCost_pos (c : ConcurrencyState) (pc : TryPc) : 0 < tryCost c pc := by
  cases pc with
  | load => simp [tryCost]
  | cas active =>
      simp only [tryCost]
      split <;> decide

/-- The drop of a permit that is left alone comes to an end. -/
theorem dropCost_step {c : ConcurrencyState} {pc pc' : DropPc}
    (h : (dropStep false c pc).2 = some pc') :
    dropCost (dropStep false c pc).1 pc' < dropCost c pc := by
  have hloop := loop_cost c
  cases pc with
  | load =>
      simp only [dropStep] at h ⊢
      cases h
      have hload : dropCost c .load = 3 := rfl
      omega
  | cas active =>
      cases hcas : c.compareExchangeWeak active (active - 1) false with
      | some c' =>
          simp only [dropStep, hcas] at h ⊢
          cases h
          have hwake : dropCost c' .wake = 1 := rfl
          simp only [dropCost]
          split <;> decide
      | none =>
          simp only [dropStep, hcas] at h ⊢
          cases h
          have hne : ¬ active = c.active := by
            intro heq
            simp [ConcurrencyState.compareExchangeWeak, heq] at hcas
          have hstale : dropCost c (.cas active) = 3 := if_neg hne
          omega
  | wake | gaveUp => cases h

theorem dropCost_pos (c : ConcurrencyState) (pc : DropPc) : 0 < dropCost c pc := by
  cases pc with
  | load | wake | gaveUp => simp [dropCost]
  | cas active =>
      simp only [dropCost]
      split <;> decide

/-! ## All accesses -/

/-- The helper while no call is made. -/
def busy (max : ℕ) : Lts.Sys Pool PoolLbl := (sys max).restrict fun l _ => isAccess l = true

instance (max : ℕ) (l : PoolLbl) (p : Pool) : Decidable ((busy max).guard l p) :=
  inferInstanceAs (Decidable ((sys max).guard l p ∧ isAccess l = true))

theorem costs_busy (max : ℕ) : Lts.Costs (busy max) cost isFutile 4 := by
  rintro l p ⟨hg, haccess⟩
  cases l with
  | poll pc spurious => exact cost_poll spurious hg
  | tryPoll pc spurious => exact cost_tryPoll spurious hg
  | drop pc spurious => exact cost_drop spurious hg
  | acquire | abandon | tryAcquire | release => cases haccess

/-- A call under way has a next access. -/
theorem finished_of_stuck {max : ℕ} {p : Pool}
    (hstuck : ∀ l, (busy max).guard l p → isFutile l = true) :
    (p.waiter = none ∨ p.waiter = some .pending) ∧ p.tries = 0 ∧ p.drops = 0 := by
  refine ⟨?_, ?_, ?_⟩
  · cases hwaiter : p.waiter with
    | none => exact Or.inl rfl
    | some pc =>
        have hfutile := hstuck (.poll pc false) ⟨hwaiter, rfl⟩
        cases pc with
        | pending => exact Or.inr rfl
        | load | cas active | register | reload => cases hfutile
  · refine Multiset.eq_zero_of_forall_notMem ?_
    intro pc hpc
    cases hstuck (.tryPoll pc false) ⟨hpc, rfl⟩
  · refine Multiset.eq_zero_of_forall_notMem ?_
    intro pc hpc
    cases hstuck (.drop pc false) ⟨hpc, rfl⟩

/-- The permit helper is lock-free. Whatever calls are under way, `n` of them in all, and in
whatever order their atomic accesses are taken, they take at most `4 * n * (n + 1)` of them, and
four more for each weak exchange that fails for no reason and each poll of a suspended future;
and as long as some `try_acquire` or some drop has not returned, or the waiter is not suspended,
there is an access that gets on with it. -/
theorem lock_free {max : ℕ} {p q : Pool} {tr : List PoolLbl} (hrun : (busy max).Run p tr q) :
    tr.length ≤ 4 * calls p * (calls p + 1) + 4 * tr.countP isFutile ∧
      ((∀ l, (busy max).guard l q → isFutile l = true) →
        (q.waiter = none ∨ q.waiter = some .pending) ∧ q.tries = 0 ∧ q.drops = 0) := by
  have hlen := (costs_busy max).length_le hrun
  have hcost := cost_le p
  exact ⟨by omega, finished_of_stuck⟩

/-- The one permit is being dropped while another call asks for one. -/
def dropAndTry : Pool := ⟨⟨1, 1, false, false⟩, none, {.load}, 0, {.load}⟩

/-- The drop overtakes, the other call gets the permit, and both are done after five accesses. -/
theorem lock_free_dropAndTry :
    let tr : List PoolLbl := [.drop .load false, .drop (.cas 1) false, .tryPoll .load false,
      .tryPoll (.cas 0) false, .drop .wake false]
    ∃ q, (busy 1).Run dropAndTry tr q ∧ (q.held = 1 ∧ q.tries = 0 ∧ q.drops = 0) ∧
      tr.length ≤ 4 * calls dropAndTry * (calls dropAndTry + 1) + 4 * tr.countP isFutile := by
  intro tr
  have hexec : ((busy 1).exec dropAndTry tr).map
      (fun q => decide (q.held = 1 ∧ q.tries = 0 ∧ q.drops = 0)) = some true := by decide
  rcases Option.map_eq_some_iff.mp hexec with ⟨q, hq, hdone⟩
  have hrun := (busy 1).run_of_exec hq
  exact ⟨q, hrun, of_decide_eq_true hdone, (lock_free hrun).1⟩

end ReusePort.Pool
