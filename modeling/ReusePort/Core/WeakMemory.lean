import ReusePort.Coherence
import ReusePort.Core.Concurrency

/-!
# ReusePort.Core.WeakMemory — the permit helper without sequential consistency

`core/concurrency.rs` orders its accesses by `Acquire` and `AcqRel` only, so a thread may
read a counter that has long been changed. Here the helper runs in such a memory: the
bodies are those of `ReusePort.Core.Concurrency`, but every access sees the counter as some
value that its thread can still read, and an exchange succeeds on the latest one alone. A
permit that is handed to another thread takes its view along. Of the `AtomicWaker` its
documentation is assumed: calls of `register` and `wake` have one order, and `register`
acquires what earlier calls of `wake` have released. `syncs` switches the latter off.

* `Effect`, `update_effect` — what a step can do;
* `Inv` — the counter is exact, because a permit's view covers the increment that made it;
* `WakeInv` — a decrement that a suspended waiter has not seen is about to wake it;
* `weak_limit_exact`, `weak_wakeup_iff` — the guarantees of the helper in this memory;
* `sequential_reachable` — a sequentially consistent run is one in which every access
  reads the latest value.
-/

namespace ReusePort

open Coherence

/-- The helper with its users, each at its place in the code and with its view of the
counter. -/
structure WeakPool where
  max : ℕ
  active : Word ℕ
  /-- A waker is stored. -/
  waiter : Bool
  /-- The stored waker has been woken since it was registered. -/
  woken : Bool
  /-- The view that the calls of `wake` have released so far. -/
  released : ℕ
  polling : Option (PollPc × ℕ)
  tries : Multiset (TryPc × ℕ)
  held : Multiset ℕ
  drops : Multiset (DropPc × ℕ)

/-- The steps of `PoolLbl`, with the view of the thread and the value that it reads. -/
inductive WeakLbl where
  | acquire (view : ℕ)
  | poll (pc : PollPc) (view read : ℕ) (spurious : Bool)
  | abandon (view : ℕ)
  | tryAcquire (view : ℕ)
  | tryPoll (pc : TryPc) (view read : ℕ) (spurious : Bool)
  | release (view read : ℕ)
  | drop (pc : DropPc) (view read : ℕ) (spurious : Bool)
deriving DecidableEq, Repr

namespace WeakPool

/-! ## Steps -/

/-- The shared words as a thread sees them that reads the value number `read`. -/
def seen (p : WeakPool) (read : ℕ) : ConcurrencyState :=
  ⟨p.max, p.active.value read, p.waiter, p.woken⟩

/-- An exchange fails for no reason, or because it has read a value that is not the latest. -/
def fails (p : WeakPool) (read : ℕ) (spurious : Bool) : Bool :=
  spurious || !p.active.canExchange read

/-- The shared words after an access: an exchange that has succeeded adds a value. -/
def store (p : WeakPool) (read : ℕ) (c : ConcurrencyState) : WeakPool :=
  { p with
    active := if c.active = p.active.value read then p.active else p.active.write c.active
    waiter := c.waiter
    woken := c.woken }

def guard : WeakLbl → WeakPool → Prop
  | .acquire view, p => p.polling = none ∧ view ≤ p.active.latest
  | .poll pc view read _, p => p.polling = some (pc, view) ∧ p.active.Reads view read
  | .abandon view, p => p.polling = some (.pending, view)
  | .tryAcquire view, p => view ≤ p.active.latest
  | .tryPoll pc view read _, p => (pc, view) ∈ p.tries ∧ p.active.Reads view read
  | .release view read, p => view ∈ p.held ∧ p.active.Reads view read
  | .drop pc view read _, p => (pc, view) ∈ p.drops ∧ p.active.Reads view read

def update (syncs : Bool) : WeakLbl → WeakPool → WeakPool
  | .acquire view, p => { p with polling := some (.load, view) }
  | .poll pc _ read spurious, p =>
      match pollStep (p.fails read spurious) (p.seen read) pc with
      | (c, some pc') =>
          -- `register` learns what has been released
          let view' := if pc = .register ∧ syncs then read ⊔ p.released else read
          { p.store read c with polling := some (pc', view') }
      | (c, none) =>
          { p.store read c with
            polling := none
            held := (p.store read c).active.latest ::ₘ p.held }
  | .abandon _, p => { p with polling := none }
  | .tryAcquire view, p => { p with tries := (.load, view) ::ₘ p.tries }
  | .tryPoll pc view read spurious, p =>
      match tryStep (p.fails read spurious) (p.seen read) pc with
      | (c, .more pc') => { p.store read c with tries := (pc', read) ::ₘ p.tries.erase (pc, view) }
      | (c, .full _) => { p.store read c with tries := p.tries.erase (pc, view) }
      | (c, .got) =>
          { p.store read c with
            tries := p.tries.erase (pc, view)
            held := (p.store read c).active.latest ::ₘ p.held }
  | .release view read, p =>
      { p with held := p.held.erase view, drops := (.load, read) ::ₘ p.drops }
  | .drop pc view read spurious, p =>
      match dropStep (p.fails read spurious) (p.seen read) pc with
      | (c, some pc') =>
          let view' := if pc' = .wake then (p.store read c).active.latest else read
          { p.store read c with drops := (pc', view') ::ₘ p.drops.erase (pc, view) }
      | (c, none) =>
          { p.store read c with
            released := if pc = .wake then p.released ⊔ read else p.released
            drops := p.drops.erase (pc, view) }

/-- No permit is out, and nobody has asked for one. -/
def initial (max : ℕ) : WeakPool := ⟨max, .new 0, false, false, 0, none, 0, 0, 0⟩

def sys (syncs : Bool) (max : ℕ) : Lts.Sys WeakPool WeakLbl :=
  ⟨initial max, guard, update syncs⟩

instance : ∀ l p, Decidable (guard l p)
  | .acquire _, _ => inferInstanceAs (Decidable (_ ∧ _))
  | .poll .., _ => inferInstanceAs (Decidable (_ ∧ _))
  | .abandon _, _ => inferInstanceAs (Decidable (_ = _))
  | .tryAcquire _, _ => inferInstanceAs (Decidable (_ ≤ _))
  | .tryPoll .., _ => inferInstanceAs (Decidable (_ ∧ _))
  | .release .., _ => inferInstanceAs (Decidable (_ ∧ _))
  | .drop .., _ => inferInstanceAs (Decidable (_ ∧ _))

instance (syncs : Bool) (max : ℕ) (l : WeakLbl) (p : WeakPool) :
    Decidable ((sys syncs max).guard l p) :=
  inferInstanceAs (Decidable (guard l p))

/-! ## What a step can do -/

/-- The steps by their effect, each with what is known when it is taken. -/
inductive Effect (syncs : Bool) (p : WeakPool) : WeakPool → Prop where
  | acquire {view : ℕ} (hview : view ≤ p.active.latest) :
      Effect syncs p { p with polling := some (.load, view) }
  | goOn {pc pc' : PollPc} {view read : ℕ} (hpc : p.polling = some (pc, view))
      (hread : p.active.Reads view read) (hcas : ∀ a, pc' = .cas a → a < p.max)
      (hreload : pc' ≠ .reload)
      (hpending : pc' = .pending → pc = .reload ∧ p.max ≤ p.active.value read) :
      Effect syncs p { p with polling := some (pc', read) }
  | register {view read : ℕ} (hpc : p.polling = some (.register, view))
      (hread : p.active.Reads view read) :
      Effect syncs p { p with
        waiter := true
        woken := false
        polling := some (.reload, if syncs then read ⊔ p.released else read) }
  | enter {view : ℕ} (hpc : p.polling = some (.cas p.active.current, view)) :
      Effect syncs p { p with
        active := p.active.write (p.active.current + 1)
        polling := none
        held := (p.active.latest + 1) ::ₘ p.held }
  | abandon : Effect syncs p { p with polling := none }
  | tries {tries : Multiset (TryPc × ℕ)} (h : ∀ x ∈ tries, x ∈ p.tries ∨
      x.2 ≤ p.active.latest ∧ ∀ a, x.1 = .cas a → a < p.max) :
      Effect syncs p { p with tries := tries }
  | enterTry {view : ℕ} (hpc : (.cas p.active.current, view) ∈ p.tries) :
      Effect syncs p { p with
        active := p.active.write (p.active.current + 1)
        tries := p.tries.erase (.cas p.active.current, view)
        held := (p.active.latest + 1) ::ₘ p.held }
  | release {view read : ℕ} {held : Multiset ℕ} (hheld : p.held = view ::ₘ held)
      (hread : p.active.Reads view read) :
      Effect syncs p { p with held := held, drops := (.load, read) ::ₘ p.drops }
  | retry {pc : DropPc} {view read : ℕ} {drops : Multiset (DropPc × ℕ)}
      (hdrops : p.drops = (pc, view) ::ₘ drops) (hlive : pc.live = true)
      (hread : p.active.Reads view read) :
      Effect syncs p { p with drops := (.loop (p.active.value read), read) ::ₘ drops }
  | decrement {view : ℕ} {drops : Multiset (DropPc × ℕ)}
      (hdrops : p.drops = (.cas p.active.current, view) ::ₘ drops) :
      Effect syncs p { p with
        active := p.active.write (p.active.current - 1)
        drops := (.wake, p.active.latest + 1) ::ₘ drops }
  | wake {view read : ℕ} {drops : Multiset (DropPc × ℕ)}
      (hdrops : p.drops = (.wake, view) ::ₘ drops) (hread : p.active.Reads view read) :
      Effect syncs p { p with
        waiter := false
        woken := p.woken || p.waiter
        released := p.released ⊔ read
        drops := drops }
  | gaveUp {view : ℕ} {drops : Multiset (DropPc × ℕ)}
      (hdrops : p.drops = (.gaveUp, view) ::ₘ drops) :
      Effect syncs p { p with drops := drops }

section Effect

variable {syncs : Bool} {p : WeakPool} {view read : ℕ} {spurious : Bool}

/-- An access that leaves the words alone. -/
@[simp] theorem store_seen (p : WeakPool) (read : ℕ) : p.store read (p.seen read) = p := by
  simp [store, seen]

/-- An exchange succeeds on the latest value only. -/
theorem exchange_cases (hread : p.active.Reads view read) (spurious : Bool) (a b : ℕ) :
    (p.seen read).compareExchangeWeak a b (p.fails read spurious) = none ∨
      read = p.active.latest ∧ a = p.active.current ∧
        (p.seen read).compareExchangeWeak a b (p.fails read spurious) =
          some { p.seen read with active := b } := by
  cases hcas : (p.seen read).compareExchangeWeak a b (p.fails read spurious) with
  | none => exact Or.inl rfl
  | some c =>
      refine Or.inr ?_
      have hsome := hcas
      unfold ConcurrencyState.compareExchangeWeak at hsome
      split at hsome
      next h =>
          have hfree : p.active.canExchange read = true := by
            have := h.2
            simp only [fails, Bool.or_eq_false_iff, Bool.not_eq_false'] at this
            exact this.2
          have hlatest := hread.eq_latest hfree
          refine ⟨hlatest, ?_, ?_⟩
          · rw [← h.1, hlatest]
            rfl
          · rw [← hsome]
      next => cases hsome

/-- The words after a successful exchange. -/
theorem store_exchange (hread : read = p.active.latest) {b : ℕ} (hb : b ≠ p.active.current) :
    p.store read { p.seen read with active := b } = { p with active := p.active.write b } := by
  subst hread
  have hne : ¬ b = p.active.value p.active.latest := hb
  simp only [store, seen, if_neg hne]

theorem poll_effect {pc : PollPc} (hg : guard (.poll pc view read spurious) p) :
    Effect syncs p (update syncs (.poll pc view read spurious) p) := by
  rcases hg with ⟨hpc, hread⟩
  cases pc with
  | load =>
      simp only [update, pollStep, store_seen, reduceCtorEq, false_and, if_false]
      refine .goOn hpc hread ?_ ?_ ?_
      · intro a ha
        split at ha
        next hlt => cases ha; exact hlt
        next => cases ha
      · split <;> simp
      · split <;> simp
  | cas a =>
      rcases exchange_cases hread spurious a (a + 1) with hcas | ⟨hlatest, rfl, hcas⟩
      · simp only [update, pollStep, hcas, store_seen, reduceCtorEq, false_and, if_false]
        exact .goOn hpc hread (by simp) (by simp) (by simp)
      · simp only [update, pollStep, hcas]
        rw [store_exchange hlatest (Nat.succ_ne_self _)]
        exact .enter hpc
  | register =>
      have hregister : p.store read (p.seen read).register =
          { p with waiter := true, woken := false } := by
        simp [store, seen, ConcurrencyState.register]
      simp only [update, pollStep, true_and, hregister]
      exact .register hpc hread
  | reload =>
      simp only [update, pollStep, store_seen, reduceCtorEq, false_and, if_false]
      refine .goOn hpc hread ?_ ?_ ?_
      · intro a ha
        split at ha <;> cases ha
      · split <;> simp
      · intro hpending
        refine ⟨rfl, ?_⟩
        split at hpending
        next => cases hpending
        next hfull => exact not_lt.mp hfull
  | pending =>
      simp only [update, pollStep, store_seen, reduceCtorEq, false_and, if_false]
      exact .goOn hpc hread (by simp) (by simp) (by simp)

theorem tryPoll_effect {pc : TryPc} (hg : guard (.tryPoll pc view read spurious) p) :
    Effect syncs p (update syncs (.tryPoll pc view read spurious) p) := by
  rcases hg with ⟨hpc, hread⟩
  have hrest : ∀ x ∈ p.tries.erase (pc, view), x ∈ p.tries := fun x hx =>
    Multiset.mem_of_mem_erase hx
  cases pc with
  | load =>
      by_cases hfull : (p.seen read).active ≥ (p.seen read).max
      · simp only [update, tryStep, if_pos hfull, store_seen]
        exact .tries fun x hx => Or.inl (hrest x hx)
      · simp only [update, tryStep, if_neg hfull, store_seen]
        refine .tries fun x hx => ?_
        rcases Multiset.mem_cons.mp hx with rfl | hx
        · refine Or.inr ⟨hread.2, ?_⟩
          rintro a ⟨⟩
          exact not_le.mp hfull
        · exact Or.inl (hrest x hx)
  | cas a =>
      rcases exchange_cases hread spurious a (a + 1) with hcas | ⟨hlatest, rfl, hcas⟩
      · simp only [update, tryStep, hcas, store_seen]
        refine .tries fun x hx => ?_
        rcases Multiset.mem_cons.mp hx with rfl | hx
        · exact Or.inr ⟨hread.2, by simp⟩
        · exact Or.inl (hrest x hx)
      · simp only [update, tryStep, hcas]
        rw [store_exchange hlatest (Nat.succ_ne_self _)]
        exact .enterTry hpc

theorem drop_effect {pc : DropPc} (hg : guard (.drop pc view read spurious) p)
    (hpos : ∀ a, pc = .cas a → 0 < a) :
    Effect syncs p (update syncs (.drop pc view read spurious) p) := by
  rcases hg with ⟨hpc, hread⟩
  have hdrops := (Multiset.cons_erase hpc).symm
  have hloop : ∀ a, DropPc.loop a ≠ .wake := by
    intro a
    unfold DropPc.loop
    split <;> simp
  cases pc with
  | load =>
      simp only [update, dropStep, store_seen, if_neg (hloop _)]
      exact .retry hdrops rfl hread
  | cas a =>
      rcases exchange_cases hread spurious a (a - 1) with hcas | ⟨hlatest, rfl, hcas⟩
      · simp only [update, dropStep, hcas, store_seen, if_neg (hloop _)]
        exact .retry hdrops rfl hread
      · have hne : p.active.current - 1 ≠ p.active.current := by
          have := hpos _ rfl
          omega
        simp only [update, dropStep, hcas, if_true]
        rw [store_exchange hlatest hne]
        exact .decrement hdrops
  | wake =>
      have hwake : p.store read (p.seen read).wake =
          { p with waiter := false, woken := p.woken || p.waiter } := by
        cases hwaiter : p.waiter <;>
          simp [store, seen, ConcurrencyState.wake, hwaiter]
      simp only [update, dropStep, if_true, hwake]
      exact .wake hdrops hread
  | gaveUp =>
      simp only [update, dropStep, store_seen, reduceCtorEq, if_false]
      exact .gaveUp hdrops

theorem update_effect {l : WeakLbl} (hg : guard l p)
    (hpos : ∀ a view, (.cas a, view) ∈ p.drops → 0 < a) : Effect syncs p (update syncs l p) := by
  cases l with
  | acquire view => exact .acquire hg.2
  | poll pc view read spurious => exact poll_effect hg
  | abandon view => exact .abandon
  | tryAcquire view =>
      refine .tries fun x hx => ?_
      rcases Multiset.mem_cons.mp hx with rfl | hx
      · exact Or.inr ⟨hg, by simp⟩
      · exact Or.inl hx
  | tryPoll pc view read spurious => exact tryPoll_effect hg
  | release view read => exact .release (Multiset.cons_erase hg.1).symm hg.2
  | drop pc view read spurious =>
      refine drop_effect hg ?_
      rintro a rfl
      exact hpos a view hg.1

end Effect

/-! ## The counter is exact -/

/-- The views of the drops that have not decremented yet. -/
def liveDrops (drops : Multiset (DropPc × ℕ)) : Multiset ℕ :=
  (drops.filter fun d => d.1.live = true).map Prod.snd

/-- The views of the live permits: idle, or in a drop that has not decremented yet. -/
def permits (p : WeakPool) : Multiset ℕ := p.held + liveDrops p.drops

/-- How many of the permits know of a value up to number `k`. -/
def known (permits : Multiset ℕ) (k : ℕ) : ℕ := permits.countP (· ≤ k)

/-- The counter is the number of live permits, now and in every value that one of them can
read: a permit whose view reaches up to `k` is counted in the value number `k`. -/
structure Counted (max : ℕ) (p : WeakPool) : Prop where
  current_eq : p.active.current = p.permits.card
  covered : ∀ k ≤ p.active.latest, known p.permits k ≤ p.active.value k
  le_max : ∀ k ≤ p.active.latest, p.active.value k ≤ max

/-- Every exchange under way carries a value that makes its success legal, and no drop ends
without a decrement. -/
structure Inv (max : ℕ) (p : WeakPool) : Prop extends Counted max p where
  max_eq : p.max = max
  poll_cas : ∀ a view, p.polling = some (.cas a, view) → a < max
  try_cas : ∀ a view, (.cas a, view) ∈ p.tries → a < max
  drop_cas : ∀ a view, (.cas a, view) ∈ p.drops → 0 < a
  no_gaveUp : ∀ view, (.gaveUp, view) ∉ p.drops

theorem init_inv (max : ℕ) : Inv max (initial max) where
  max_eq := rfl
  current_eq := rfl
  covered := fun _ _ => Nat.le_refl _
  le_max := fun _ _ => Nat.zero_le _
  poll_cas := by
    intro a view h
    cases h
  try_cas := by
    intro a view h
    simp [initial] at h
  drop_cas := by
    intro a view h
    simp [initial] at h
  no_gaveUp := by
    intro view h
    simp [initial] at h

section Counter

variable {max : ℕ} {p q : WeakPool}

theorem known_le_card (permits : Multiset ℕ) (k : ℕ) : known permits k ≤ permits.card :=
  Multiset.countP_le_card _ _

/-- A permit that learns more is known to less. -/
theorem known_cons_le {view read : ℕ} (h : view ≤ read) (permits : Multiset ℕ) (k : ℕ) :
    known (read ::ₘ permits) k ≤ known (view ::ₘ permits) k := by
  simp only [known, Multiset.countP_cons]
  split_ifs <;> omega

theorem liveDrops_cons_live {pc : DropPc} (h : pc.live = true) (view : ℕ)
    (drops : Multiset (DropPc × ℕ)) :
    liveDrops ((pc, view) ::ₘ drops) = view ::ₘ liveDrops drops := by
  simp [liveDrops, Multiset.filter_cons_of_pos, h]

theorem liveDrops_cons_dead {pc : DropPc} (h : pc.live = false) (view : ℕ)
    (drops : Multiset (DropPc × ℕ)) : liveDrops ((pc, view) ::ₘ drops) = liveDrops drops := by
  simp [liveDrops, Multiset.filter_cons_of_neg, h]

/-- The permit of a live drop, and all others. -/
theorem permits_of_drops {pc : DropPc} {view : ℕ} {drops : Multiset (DropPc × ℕ)}
    (hdrops : p.drops = (pc, view) ::ₘ drops) (hlive : pc.live = true) :
    p.permits = view ::ₘ (p.held + liveDrops drops) := by
  rw [permits, hdrops, liveDrops_cons_live hlive, Multiset.add_cons]

/-- The steps that add a value `a` to the counter, with as many permits. -/
theorem Counted.write (h : Counted max p) {a : ℕ} (hactive : q.active = p.active.write a)
    (hcard : q.permits.card = a) (ha : a ≤ max)
    (hknown : ∀ k ≤ p.active.latest, known q.permits k ≤ known p.permits k) : Counted max q := by
  have hcurrent : q.active.current = a := by rw [hactive, Word.current_write]
  have hnew : q.active.value (p.active.latest + 1) = a := by rw [← hcurrent, hactive]; rfl
  have hold : ∀ k ≤ p.active.latest, q.active.value k = p.active.value k := by
    intro k hk
    rw [hactive, Word.value_write_of_le hk]
  have hlatest : q.active.latest = p.active.latest + 1 := by rw [hactive, Word.latest_write]
  refine ⟨hcurrent.trans hcard.symm, ?_, ?_⟩ <;> intro k hk <;>
    rcases Nat.le_succ_iff.mp (hlatest ▸ hk) with hk | rfl
  · rw [hold k hk]
    exact (hknown k hk).trans (h.covered k hk)
  · rw [hnew, ← hcard]
    exact known_le_card _ _
  · rw [hold k hk]
    exact h.le_max k hk
  · rwa [hnew]

/-- A live drop reads a positive value: its own permit is counted in it. -/
theorem Inv.read_pos (h : Inv max p) {pc : DropPc} {view read : ℕ}
    (hpc : (pc, view) ∈ p.drops) (hlive : pc.live = true) (hread : p.active.Reads view read) :
    0 < p.active.value read := by
  have hmem : view ∈ p.permits := by
    refine Multiset.mem_add.mpr (Or.inr (Multiset.mem_map.mpr ⟨(pc, view), ?_, rfl⟩))
    exact Multiset.mem_filter.mpr ⟨hpc, hlive⟩
  have hknown : 0 < known p.permits read := Multiset.countP_pos.mpr ⟨view, hmem, hread.1⟩
  exact Nat.lt_of_lt_of_le hknown (h.covered read hread.2)

/-- The steps that leave the counter alone; a thread that goes on with a permit may have
learnt more. -/
theorem Counted.raise (h : Counted max p) {view read : ℕ} {rest : Multiset ℕ}
    (hle : view ≤ read) (hold : p.permits = view ::ₘ rest) (hactive : q.active = p.active)
    (hnew : q.permits = read ::ₘ rest) : Counted max q where
  current_eq := by rw [hactive, h.current_eq, hold, hnew, Multiset.card_cons, Multiset.card_cons]
  covered := by
    intro k hk
    rw [hactive] at hk ⊢
    have hcovered := h.covered k hk
    rw [hold] at hcovered
    rw [hnew]
    exact (known_cons_le hle rest k).trans hcovered
  le_max := by
    rw [hactive]
    exact h.le_max

/-- The steps that hand out a permit. -/
theorem Counted.enter (h : Counted max p) (hlt : p.active.current < max)
    (hactive : q.active = p.active.write (p.active.current + 1))
    (hheld : q.held = (p.active.latest + 1) ::ₘ p.held) (hdrops : q.drops = p.drops) :
    Counted max q := by
  have hpermits : q.permits = (p.active.latest + 1) ::ₘ p.permits := by
    unfold permits
    rw [hheld, hdrops, Multiset.cons_add]
  refine h.write hactive ?_ hlt ?_
  · rw [hpermits, Multiset.card_cons, h.current_eq]
  · intro k hk
    have hnew : ¬ p.active.latest + 1 ≤ k := by omega
    simp [hpermits, known, hnew]

/-- A drop is replaced by one that has a positive value, if it has one at all. -/
theorem Inv.replaceDrop (h : Inv max p) {d : DropPc × ℕ} (d' : DropPc × ℕ)
    {drops : Multiset (DropPc × ℕ)} (hdrops : p.drops = d ::ₘ drops)
    (hcas : ∀ a, d'.1 = .cas a → 0 < a) (hne : d'.1 ≠ .gaveUp) :
    (∀ a view, (.cas a, view) ∈ d' ::ₘ drops → 0 < a) ∧
      ∀ view, (.gaveUp, view) ∉ d' ::ₘ drops := by
  have hrest : ∀ x ∈ drops, x ∈ p.drops := fun x hx => hdrops ▸ Multiset.mem_cons_of_mem hx
  constructor
  · intro a view hmem
    rcases Multiset.mem_cons.mp hmem with heq | hmem
    · exact hcas a (heq ▸ rfl)
    · exact h.drop_cas a view (hrest _ hmem)
  · intro view hmem
    rcases Multiset.mem_cons.mp hmem with heq | hmem
    · exact hne (heq ▸ rfl)
    · exact h.no_gaveUp view (hrest _ hmem)

theorem step_inv {syncs : Bool} (h : Inv max p) (he : Effect syncs p q) : Inv max q := by
  have hmax := h.max_eq
  cases he with
  | acquire hview => exact { h with poll_cas := fun a view ha => by cases ha }
  | goOn hpc hread hcas hreload hpending =>
      refine { h with poll_cas := ?_ }
      rintro a view ⟨⟩
      exact hmax ▸ hcas a rfl
  | register hpc hread => exact { h with poll_cas := fun a view ha => by cases ha }
  | enter hpc =>
      have hlt := h.poll_cas _ _ hpc
      exact { h with
        toCounted := h.enter hlt rfl rfl rfl
        poll_cas := fun a view ha => by cases ha }
  | abandon => exact { h with poll_cas := fun a view ha => by cases ha }
  | tries htries =>
      refine { h with try_cas := ?_ }
      intro a view hmem
      rcases htries _ hmem with hold | ⟨-, hnew⟩
      · exact h.try_cas a view hold
      · exact hmax ▸ hnew a rfl
  | enterTry hpc =>
      have hlt := h.try_cas _ _ hpc
      exact { h with
        toCounted := h.enter hlt rfl rfl rfl
        try_cas := fun a view hmem => h.try_cas a view (Multiset.mem_of_mem_erase hmem) }
  | @release view read held hheld hread =>
      -- the permit moves from the idle ones to the drops, with what the thread knows
      have hold : p.permits = view ::ₘ (held + liveDrops p.drops) := by
        rw [permits, hheld, Multiset.cons_add]
      refine { h with
        toCounted := h.raise hread.1 hold rfl (permits_of_drops rfl rfl)
        drop_cas := ?_
        no_gaveUp := ?_ }
      · intro a view hmem
        rcases Multiset.mem_cons.mp hmem with heq | hmem
        · cases heq
        · exact h.drop_cas a view hmem
      · intro view hmem
        rcases Multiset.mem_cons.mp hmem with heq | hmem
        · cases heq
        · exact h.no_gaveUp view hmem
  | @retry pc view read drops hdrops hlive hread =>
      have hpos := h.read_pos (hdrops ▸ Multiset.mem_cons_self ..) hlive hread
      rw [DropPc.loop_of_pos hpos]
      obtain ⟨hcas, hgaveUp⟩ := h.replaceDrop (.cas (p.active.value read), read) hdrops
        (fun a ha => by cases ha; exact hpos) (by simp)
      exact { h with
        toCounted := h.raise hread.1 (permits_of_drops hdrops hlive) rfl (permits_of_drops rfl rfl)
        drop_cas := hcas
        no_gaveUp := hgaveUp }
  | @decrement view drops hdrops =>
      have hold := permits_of_drops hdrops rfl
      have hcard := h.current_eq
      rw [hold, Multiset.card_cons] at hcard
      obtain ⟨hcas, hgaveUp⟩ := h.replaceDrop (.wake, p.active.latest + 1) hdrops
        (by simp) (by simp)
      refine { h with toCounted := h.write rfl ?_ ?_ ?_, drop_cas := hcas, no_gaveUp := hgaveUp }
      · rw [permits, liveDrops_cons_dead rfl]
        show (p.held + liveDrops drops).card = p.active.current - 1
        omega
      · have := h.le_max p.active.latest (Nat.le_refl _)
        unfold Word.current
        omega
      · intro k _
        rw [permits, liveDrops_cons_dead rfl, hold]
        exact Multiset.countP_le_of_le _ (Multiset.le_cons_self _ _)
  | @wake view read drops hdrops hread =>
      have hrest : ∀ x ∈ drops, x ∈ p.drops := fun x hx => hdrops ▸ Multiset.mem_cons_of_mem hx
      have hlive : liveDrops p.drops = liveDrops drops := by rw [hdrops, liveDrops_cons_dead rfl]
      refine { h with
        toCounted := ⟨?_, ?_, h.le_max⟩
        drop_cas := fun a view hmem => h.drop_cas a view (hrest _ hmem)
        no_gaveUp := fun view hmem => h.no_gaveUp view (hrest _ hmem) }
      · rw [permits, ← hlive]
        exact h.current_eq
      · rw [permits, ← hlive]
        exact h.covered
  | gaveUp hdrops => exact absurd (hdrops ▸ Multiset.mem_cons_self ..) (h.no_gaveUp _)

end Counter

/-- In every reachable state the counter is exact, whether or not the waker synchronises. -/
theorem reachable_inv {syncs : Bool} {max : ℕ} :
    ∀ p, (sys syncs max).Reachable p → Inv max p :=
  (sys syncs max).invariant (Inv max) (init_inv max) fun _ _ hg h =>
    step_inv h (update_effect hg h.drop_cas)

/-! ## No lost wakeup -/

/-- A drop that has decremented behind the value number `k` is about to wake the waiter. -/
def Announced (p : WeakPool) (k : ℕ) : Prop := ∃ view, k < view ∧ (.wake, view) ∈ p.drops

/-- Every decrement has been released by its `wake` or is still announced. A waiter behind
its registration that has not been woken does not know of the announced ones, but of all
others. -/
structure WakeInv (p : WeakPool) : Prop where
  announced : ∀ k, p.active.Falls k → k < p.released ∨ p.Announced k
  waiting : ∀ pc view, p.polling = some (pc, view) → pc = .reload ∨ pc = .pending →
    p.woken = false → p.waiter = true ∧ ∀ k, view ≤ k → p.active.Falls k → p.Announced k
  full : ∀ view, p.polling = some (.pending, view) →
    p.max ≤ p.active.value view ∧ view ≤ p.active.latest

theorem init_wakeInv (max : ℕ) : WakeInv (initial max) where
  announced := by
    rintro k ⟨hk, -⟩
    exact absurd hk (Nat.not_lt_zero k)
  waiting := by
    intro pc view h
    cases h
  full := by
    intro view h
    cases h

section WakeUp

variable {p q : WeakPool}

theorem Announced.of_drops {d : DropPc × ℕ} {drops : Multiset (DropPc × ℕ)} {k : ℕ}
    (h : p.Announced k) (hdrops : p.drops = d ::ₘ drops) :
    d.1 = .wake ∧ k < d.2 ∨ ∃ view, k < view ∧ (.wake, view) ∈ drops := by
  rcases h with ⟨view, hk, hmem⟩
  rw [hdrops] at hmem
  rcases Multiset.mem_cons.mp hmem with rfl | hmem
  · exact Or.inl ⟨rfl, hk⟩
  · exact Or.inr ⟨view, hk, hmem⟩

/-- The steps of others than the waiter and of drops that do not wake. -/
theorem WakeInv.frame (h : WakeInv p) (hmax : q.max = p.max) (hwaiter : q.waiter = p.waiter)
    (hwoken : q.woken = p.woken) (hreleased : q.released = p.released)
    (hpolling : q.polling = p.polling)
    (hvalue : ∀ k ≤ p.active.latest, q.active.value k = p.active.value k ∧ k ≤ q.active.latest)
    (hfalls : ∀ k, q.active.Falls k → p.active.Falls k ∨ q.Announced k)
    (hannounced : ∀ k, p.Announced k → q.Announced k) : WakeInv q where
  announced := by
    intro k hk
    rw [hreleased]
    rcases hfalls k hk with hk | hk
    · exact (h.announced k hk).imp id (hannounced k)
    · exact Or.inr hk
  waiting := by
    intro pc view hpc hplace hnot
    rw [hpolling] at hpc
    rw [hwoken] at hnot
    rcases h.waiting pc view hpc hplace hnot with ⟨hstored, hseen⟩
    refine ⟨hwaiter.trans hstored, fun k hview hk => ?_⟩
    rcases hfalls k hk with hk | hk
    · exact hannounced k (hseen k hview hk)
    · exact hk
  full := by
    intro view hpc
    rw [hpolling] at hpc
    rcases h.full view hpc with ⟨hfull, hview⟩
    rw [hmax, (hvalue view hview).1]
    exact ⟨hfull, (hvalue view hview).2⟩

/-- The waiter goes on to a place before its registration, or out of the call. -/
theorem WakeInv.leave (h : WakeInv p) (hreleased : q.released = p.released)
    (hdrops : q.drops = p.drops) (hfalls : ∀ k, q.active.Falls k → p.active.Falls k)
    (hplace : ∀ pc view, q.polling = some (pc, view) → pc ≠ .reload ∧ pc ≠ .pending) :
    WakeInv q where
  announced := by
    intro k hk
    rw [hreleased, Announced, hdrops]
    exact h.announced k (hfalls k hk)
  waiting := by
    rintro pc view hpc (rfl | rfl)
    · exact absurd rfl (hplace _ _ hpc).1
    · exact absurd rfl (hplace _ _ hpc).2
  full := fun view hpc => absurd rfl (hplace _ _ hpc).2

theorem value_write {a : ℕ} : ∀ k ≤ p.active.latest,
    (p.active.write a).value k = p.active.value k ∧ k ≤ (p.active.write a).latest :=
  fun _ hk => ⟨Word.value_write_of_le hk a, Nat.le_succ_of_le hk⟩

/-- An increment is no fall. -/
theorem falls_increment {k : ℕ} (h : (p.active.write (p.active.current + 1)).Falls k) :
    p.active.Falls k := by
  rcases Word.falls_write h with h | ⟨-, h⟩
  · exact h
  · omega

theorem step_wakeInv (h : WakeInv p) (he : Effect true p q) : WakeInv q := by
  have hsame : ∀ k ≤ p.active.latest,
      p.active.value k = p.active.value k ∧ k ≤ p.active.latest := fun _ hk => ⟨rfl, hk⟩
  cases he with
  | acquire hview =>
      refine h.leave rfl rfl (fun _ => id) ?_
      rintro _ _ ⟨⟩
      simp
  | @goOn pc pc' view read hpc hread hcas hreload hpending =>
      constructor
      · exact h.announced
      · rintro _ _ ⟨⟩ (rfl | rfl) hnot
        · exact absurd rfl hreload
        · -- the second load has found the counter full
          rcases hpending rfl with ⟨rfl, -⟩
          rcases h.waiting _ _ hpc (Or.inl rfl) hnot with ⟨hstored, hseen⟩
          exact ⟨hstored, fun k hk => hseen k (hread.1.trans hk)⟩
      · rintro _ ⟨⟩
        exact ⟨(hpending rfl).2, hread.2⟩
  | @register view read hpc hread =>
      constructor
      · exact h.announced
      · rintro _ _ ⟨⟩ - -
        refine ⟨rfl, fun k hk hfall => ?_⟩
        -- what has been released is known from here on
        rcases h.announced k hfall with hreleased | hannounced
        · have hle : read ⊔ p.released ≤ k := hk
          omega
        · exact hannounced
      · rintro _ ⟨⟩
  | enter hpc =>
      refine h.leave rfl rfl (fun _ => falls_increment) ?_
      rintro _ _ ⟨⟩
  | abandon =>
      refine h.leave rfl rfl (fun _ => id) ?_
      rintro _ _ ⟨⟩
  | tries htries =>
      exact h.frame rfl rfl rfl rfl rfl hsame (fun _ => Or.inl) fun _ => id
  | enterTry hpc =>
      exact h.frame rfl rfl rfl rfl rfl value_write (fun _ hk => Or.inl (falls_increment hk))
        fun _ => id
  | release hheld hread =>
      refine h.frame rfl rfl rfl rfl rfl hsame (fun _ => Or.inl) ?_
      rintro k ⟨view, hk, hmem⟩
      exact ⟨view, hk, Multiset.mem_cons_of_mem hmem⟩
  | @retry pc view read drops hdrops hlive hread =>
      refine h.frame rfl rfl rfl rfl rfl hsame (fun _ => Or.inl) ?_
      intro k hk
      rcases hk.of_drops hdrops with ⟨rfl, -⟩ | ⟨view, hk, hmem⟩
      · cases hlive
      · exact ⟨view, hk, Multiset.mem_cons_of_mem hmem⟩
  | @decrement view drops hdrops =>
      refine h.frame rfl rfl rfl rfl rfl value_write ?_ ?_
      · intro k hk
        rcases Word.falls_write hk with hk | ⟨rfl, -⟩
        · exact Or.inl hk
        · exact Or.inr ⟨p.active.latest + 1, Nat.lt_succ_self _, Multiset.mem_cons_self ..⟩
      · intro k hk
        rcases hk.of_drops hdrops with ⟨hwake, -⟩ | ⟨view, hk, hmem⟩
        · cases hwake
        · exact ⟨view, hk, Multiset.mem_cons_of_mem hmem⟩
  | @wake view read drops hdrops hread =>
      constructor
      · intro k hk
        have hview := hread.1
        show k < p.released ⊔ read ∨ _
        rcases h.announced k hk with hreleased | hannounced
        · exact Or.inl (by omega)
        · rcases hannounced.of_drops hdrops with ⟨-, hk⟩ | hrest
          · exact Or.inl (by omega)
          · exact Or.inr hrest
      · -- a waiter that had not been woken has its waker stored, so it is woken now
        intro pc view hpc hplace hnot
        rcases Bool.or_eq_false_iff.mp hnot with ⟨hwoken, hwaiter⟩
        rw [(h.waiting pc view hpc hplace hwoken).1] at hwaiter
        cases hwaiter
      · exact h.full
  | @gaveUp view drops hdrops =>
      refine h.frame rfl rfl rfl rfl rfl hsame (fun _ => Or.inl) ?_
      intro k hk
      rcases hk.of_drops hdrops with ⟨hwake, -⟩ | hrest
      · cases hwake
      · exact hrest

end WakeUp

theorem reachable_wakeInv {max : ℕ} : ∀ p, (sys true max).Reachable p → WakeInv p := by
  intro p hp
  exact ((sys true max).invariant (fun p => Inv max p ∧ WakeInv p)
    ⟨init_inv max, init_wakeInv max⟩ (fun l p hg h =>
      have he := update_effect hg h.1.drop_cas
      ⟨step_inv h.1 he, step_wakeInv h.2 he⟩) p hp).2

/-! ## The guarantees of the helper -/

/-- The limit holds in weak memory. However old the values that its threads read, the latest
value of the counter is the number of live permits, which never exceeds the maximum, and no
drop takes a counter that it reads for empty. -/
theorem weak_limit_exact {syncs : Bool} {max : ℕ} {p : WeakPool}
    (hp : (sys syncs max).Reachable p) :
    p.active.current = p.held.card + p.drops.countP (fun d => d.1.live = true) ∧
      p.active.current ≤ max ∧ ∀ view, (.gaveUp, view) ∉ p.drops := by
  have h := reachable_inv p hp
  refine ⟨?_, h.le_max _ (Nat.le_refl _), h.no_gaveUp⟩
  rw [h.current_eq, permits, Multiset.card_add, liveDrops, Multiset.card_map,
    Multiset.countP_eq_card_filter]

/-- One permit of one is out; a second call reads the counter as it was before, and its
exchange fails. -/
theorem weak_limit_exact_stale :
    ∃ p, (sys true 1).Reachable p ∧ p.tries = {(.load, 0)} ∧ p.held = {1} ∧
      p.active.current ≤ 1 := by
  have hexec := (sys true 1).exists_run_of_exec
    [.tryAcquire 0, .tryPoll .load 0 0 false, .tryPoll (.cas 0) 0 0 false, .tryAcquire 0,
      .tryPoll .load 0 0 false, .tryPoll (.cas 0) 0 0 false]
    (fun p => p.tries = {(.load, 0)} ∧ p.held = {1}) (by decide)
  rcases hexec with ⟨p, hrun, htries, hheld⟩
  exact ⟨p, ⟨_, hrun⟩, htries, hheld, (weak_limit_exact ⟨_, hrun⟩).2.1⟩

/-- A suspended waiter that was not woken since its registration, a free permit, and no drop
between its decrement and its `wake`. -/
def Lost (p : WeakPool) : Prop :=
  (∃ view, p.polling = some (.pending, view)) ∧ p.woken = false ∧ p.active.current < p.max ∧
    ∀ view, (.wake, view) ∉ p.drops

theorem not_lost {p : WeakPool} (h : WakeInv p) : ¬ Lost p := by
  rintro ⟨⟨view, hpc⟩, hwoken, hfree, hnone⟩
  rcases h.full view hpc with ⟨hfull, hview⟩
  -- the counter was full when the waiter read it, and is not any more: it has fallen since
  rcases Word.exists_falls hview (Nat.lt_of_lt_of_le hfree hfull) with ⟨k, hk, hfall⟩
  rcases (h.waiting _ view hpc (Or.inr rfl) hwoken).2 k hk hfall with ⟨view', -, hmem⟩
  exact hnone view' hmem

/-- Without the synchronisation, a waiter registers after the wake that it needs and still
reads the counter as it was before the decrement. -/
theorem lost_without_sync : ∃ p, (sys false 1).Reachable p ∧ Lost p := by
  have hexec := (sys false 1).exists_run_of_exec
    [.acquire 0, .poll .load 0 0 false, .poll (.cas 0) 0 0 false, .release 1 1,
      .drop .load 1 1 false, .drop (.cas 1) 1 1 false, .drop .wake 2 2 false, .acquire 1,
      .poll .load 1 1 false, .poll .register 1 1 false, .poll .reload 1 1 false]
    (fun p => p.polling = some (.pending, 1) ∧ p.woken = false ∧ p.active.current < p.max ∧
      p.drops = 0) (by decide)
  rcases hexec with ⟨p, hrun, hpc, hwoken, hfree, hdrops⟩
  refine ⟨p, ⟨_, hrun⟩, ⟨1, hpc⟩, hwoken, hfree, fun view hmem => ?_⟩
  rw [hdrops] at hmem
  exact Multiset.notMem_zero _ hmem

/-- No wakeup is lost in weak memory, and it is the waker that sees to it: the orderings of
the counter's own accesses would not. -/
theorem weak_wakeup_iff (syncs : Bool) :
    (∀ max p, (sys syncs max).Reachable p → ¬ Lost p) ↔ syncs = true := by
  constructor
  · intro h
    cases syncs with
    | true => rfl
    | false =>
        rcases lost_without_sync with ⟨p, hp, hlost⟩
        exact absurd hlost (h 1 p hp)
  · rintro rfl max p hp
    exact not_lost (reachable_wakeInv p hp)

/-! ## Sequential consistency -/

/-- The helper without views, its counter at the latest value. -/
def forget (p : WeakPool) : Pool where
  mem := p.seen p.active.latest
  waiter := p.polling.map Prod.fst
  tries := p.tries.map Prod.fst
  held := p.held.card
  drops := p.drops.map Prod.fst

/-- Nobody knows of a value that has not been written. -/
structure Views (p : WeakPool) : Prop where
  polling : ∀ pc view, p.polling = some (pc, view) → view ≤ p.active.latest
  tries : ∀ x ∈ p.tries, x.2 ≤ p.active.latest
  held : ∀ view ∈ p.held, view ≤ p.active.latest
  drops : ∀ x ∈ p.drops, x.2 ≤ p.active.latest
  released : p.released ≤ p.active.latest

theorem init_views (max : ℕ) : Views (initial max) := by
  constructor <;> simp [initial]

section Views

variable {p q : WeakPool}

theorem Views.write (h : Views p) (a : ℕ) : Views { p with active := p.active.write a } where
  polling pc view hpc := (h.polling pc view hpc).trans (Nat.le_succ _)
  tries x hx := (h.tries x hx).trans (Nat.le_succ _)
  held view hview := (h.held view hview).trans (Nat.le_succ _)
  drops x hx := (h.drops x hx).trans (Nat.le_succ _)
  released := h.released.trans (Nat.le_succ _)

theorem step_views {syncs : Bool} (h : Views p) (he : Effect syncs p q) : Views q := by
  have hrest : ∀ {d : DropPc × ℕ} {drops}, p.drops = d ::ₘ drops → ∀ x ∈ drops, x ∈ p.drops :=
    fun hdrops x hx => hdrops ▸ Multiset.mem_cons_of_mem hx
  cases he with
  | acquire hview =>
      refine { h with polling := ?_ }
      rintro _ _ ⟨⟩
      exact hview
  | goOn hpc hread =>
      refine { h with polling := ?_ }
      rintro _ _ ⟨⟩
      exact hread.2
  | register hpc hread =>
      refine { h with polling := ?_ }
      rintro _ _ ⟨⟩
      have hread' := hread.2
      have hreleased := h.released
      show (if syncs then _ else _) ≤ p.active.latest
      split <;> omega
  | enter hpc =>
      refine { h.write _ with
        polling := ?_
        held := Multiset.forall_mem_cons.mpr ⟨Nat.le_refl _, (h.write _).held⟩ }
      rintro _ _ ⟨⟩
  | abandon =>
      refine { h with polling := ?_ }
      rintro _ _ ⟨⟩
  | tries htries =>
      refine { h with tries := ?_ }
      intro x hx
      exact (htries x hx).elim (h.tries x) And.left
  | enterTry hpc =>
      refine { h.write _ with
        tries := ?_
        held := Multiset.forall_mem_cons.mpr ⟨Nat.le_refl _, (h.write _).held⟩ }
      intro x hx
      exact (h.write _).tries x (Multiset.mem_of_mem_erase hx)
  | release hheld hread =>
      refine { h with held := ?_, drops := Multiset.forall_mem_cons.mpr ⟨hread.2, h.drops⟩ }
      intro view hview
      exact h.held view (hheld ▸ Multiset.mem_cons_of_mem hview)
  | retry hdrops hlive hread =>
      refine { h with drops := Multiset.forall_mem_cons.mpr ⟨hread.2, ?_⟩ }
      intro x hx
      exact h.drops x (hrest hdrops x hx)
  | decrement hdrops =>
      refine { h.write _ with drops := Multiset.forall_mem_cons.mpr ⟨Nat.le_refl _, ?_⟩ }
      intro x hx
      exact (h.write _).drops x (hrest hdrops x hx)
  | wake hdrops hread =>
      refine { h with drops := fun x hx => h.drops x (hrest hdrops x hx), released := ?_ }
      exact sup_le h.released hread.2
  | gaveUp hdrops => exact { h with drops := fun x hx => h.drops x (hrest hdrops x hx) }

theorem reachable_views {syncs : Bool} {max : ℕ} (hp : (sys syncs max).Reachable p) : Views p :=
  ((sys syncs max).invariant (fun p => Inv max p ∧ Views p) ⟨init_inv max, init_views max⟩
    (fun _ _ hg h =>
      have he := update_effect hg h.1.drop_cas
      ⟨step_inv h.1 he, step_views h.2 he⟩) p hp).2

end Views

section Sequential

variable {q : WeakPool}

/-- An exchange that reads the latest value fails as it does under sequential consistency. -/
@[simp] theorem fails_latest (q : WeakPool) (spurious : Bool) :
    q.fails q.active.latest spurious = spurious := by
  simp [fails]

theorem seen_store {c : ConcurrencyState} (hmax : c.max = q.max) :
    (q.store q.active.latest c).seen (q.store q.active.latest c).active.latest = c := by
  rcases c with ⟨_, active, waiter, woken⟩
  subst hmax
  by_cases hactive : active = q.active.value q.active.latest
  · subst hactive
    simp [store, seen]
  · have hcurrent := Word.current_write q.active active
    unfold Word.current at hcurrent
    simp only [store, seen, if_neg hactive, hcurrent]

theorem forget_store {c : ConcurrencyState} (hmax : c.max = q.max)
    (released : ℕ) (polling : Option (PollPc × ℕ)) (tries : Multiset (TryPc × ℕ))
    (held : Multiset ℕ) (drops : Multiset (DropPc × ℕ)) :
    forget { q.store q.active.latest c with
      released := released
      polling := polling
      tries := tries
      held := held
      drops := drops } =
    ⟨c, polling.map Prod.fst, tries.map Prod.fst, held.card, drops.map Prod.fst⟩ := by
  show Pool.mk ((q.store q.active.latest c).seen (q.store q.active.latest c).active.latest) _ _ _ _
    = _
  rw [seen_store hmax]

/-- Every step of the helper under sequential consistency is one that reads the latest
value. -/
theorem sequential_step (syncs : Bool) (hviews : Views q) {l : PoolLbl}
    (hg : Pool.guard l q.forget) :
    ∃ l', guard l' q ∧ (update syncs l' q).forget = Pool.update l q.forget := by
  have hmem : q.forget.mem = q.seen q.active.latest := rfl
  cases l with
  | acquire =>
      have hnone : q.polling = none := Option.map_eq_none_iff.mp hg
      exact ⟨.acquire q.active.latest, ⟨hnone, Nat.le_refl _⟩, rfl⟩
  | poll pc spurious =>
      rcases Option.map_eq_some_iff.mp hg with ⟨⟨pc, view⟩, hpc, rfl⟩
      refine ⟨.poll pc view q.active.latest spurious, ⟨hpc, .latest (hviews.polling _ _ hpc)⟩, ?_⟩
      rcases hstep : pollStep spurious (q.seen q.active.latest) pc with ⟨c, next⟩
      have hmax : c.max = q.max := (congrArg (·.1.max) hstep).symm.trans pollStep_max
      simp only [update, Pool.update, fails_latest, hmem, hstep]
      cases next with
      | some pc' => exact forget_store hmax ..
      | none =>
          refine (forget_store hmax ..).trans ?_
          rw [Multiset.card_cons]
          rfl
  | abandon =>
      rcases Option.map_eq_some_iff.mp hg with ⟨⟨pc, view⟩, hpc, rfl⟩
      exact ⟨.abandon view, hpc, rfl⟩
  | tryAcquire =>
      refine ⟨.tryAcquire q.active.latest, Nat.le_refl _, ?_⟩
      simp only [update, Pool.update, forget, Multiset.map_cons]
      rfl
  | tryPoll pc spurious =>
      rcases Multiset.mem_map.mp hg with ⟨⟨pc, view⟩, hpc, rfl⟩
      refine ⟨.tryPoll pc view q.active.latest spurious, ⟨hpc, .latest (hviews.tries _ hpc)⟩, ?_⟩
      rcases hstep : tryStep spurious (q.seen q.active.latest) pc with ⟨c, next⟩
      have hmax : c.max = q.max := (congrArg (·.1.max) hstep).symm.trans tryStep_max
      have herase : (q.tries.erase (pc, view)).map Prod.fst = q.forget.tries.erase pc :=
        Multiset.map_erase_of_mem _ _ hpc
      simp only [update, Pool.update, fails_latest, hmem, hstep]
      cases next with
      | more pc' =>
          refine (forget_store hmax ..).trans ?_
          rw [Multiset.map_cons, herase]
          rfl
      | full active =>
          refine (forget_store hmax ..).trans ?_
          rw [herase]
          rfl
      | got =>
          refine (forget_store hmax ..).trans ?_
          rw [herase, Multiset.card_cons]
          rfl
  | release =>
      rcases Multiset.card_pos_iff_exists_mem.mp hg with ⟨view, hview⟩
      refine ⟨.release view q.active.latest, ⟨hview, .latest (hviews.held _ hview)⟩, ?_⟩
      simp only [update, Pool.update, forget, Multiset.map_cons, Multiset.card_erase_of_mem hview]
      rfl
  | drop pc spurious =>
      rcases Multiset.mem_map.mp hg with ⟨⟨pc, view⟩, hpc, rfl⟩
      refine ⟨.drop pc view q.active.latest spurious, ⟨hpc, .latest (hviews.drops _ hpc)⟩, ?_⟩
      rcases hstep : dropStep spurious (q.seen q.active.latest) pc with ⟨c, next⟩
      have hmax : c.max = q.max := (congrArg (·.1.max) hstep).symm.trans dropStep_max
      have herase : (q.drops.erase (pc, view)).map Prod.fst = q.forget.drops.erase pc :=
        Multiset.map_erase_of_mem _ _ hpc
      simp only [update, Pool.update, fails_latest, hmem, hstep]
      cases next with
      | some pc' =>
          refine (forget_store hmax ..).trans ?_
          rw [Multiset.map_cons, herase]
          rfl
      | none =>
          refine (forget_store hmax ..).trans ?_
          rw [herase]
          rfl

theorem sequential_reachable (syncs : Bool) {max : ℕ} {p : Pool}
    (hp : (Pool.sys max).Reachable p) : ∃ q, (sys syncs max).Reachable q ∧ q.forget = p := by
  rcases hp with ⟨tr, hrun⟩
  induction hrun with
  | nil => exact ⟨_, .refl _, rfl⟩
  | snoc l hrun hg ih =>
      rcases ih with ⟨q, hq, rfl⟩
      rcases sequential_step syncs (reachable_views hq) hg with ⟨l', hg', hupdate⟩
      exact ⟨_, hq.step hg', hupdate⟩

end Sequential

end WeakPool

end ReusePort
