import Mathlib.Algebra.Order.Group.Multiset
import ReusePort.Lts

/-!
# ReusePort.Core.Concurrency — the permit helper

The per-worker concurrency limit of `core/concurrency.rs`, at the granularity of
its single atomic operations. `pollStep`, `tryStep` and `dropStep` are the bodies
of `AcquirePermit::poll`, `WorkerConcurrencyLimit::try_acquire` and
`ConcurrencyPermit::drop`, cut at every access to shared memory; a
`compare_exchange_weak` may fail for no reason, which the labels decide.

`Pool` is the helper on its own: the shared words, one waiting `AcquirePermit`,
any number of `try_acquire` calls under way, any number of idle permits and any
number of permits being dropped, interleaved freely. The servers that use a
limit are shown elsewhere to be such pools.

* `Pool.Moves` — the steps of a pool, in the form in which a server takes them;
* `Pool.Inv` — the counter is the number of live permits and never exceeds
  `max`; no drop ever sees the counter at zero;
* `Pool.WakeInv`, `no_lost_wakeup` — a suspended waiter that has not been woken
  has no free permit to miss, unless the releaser is about to wake it.
-/

namespace ReusePort

/-! ## Shared state -/

/-- `ConcurrencyState`. Of the `AtomicWaker` the model keeps whether a waker is
stored, and whether the stored waker has been woken since it was registered. -/
structure ConcurrencyState where
  max : ℕ
  active : ℕ
  waiter : Bool
  woken : Bool
deriving DecidableEq, Repr

/-- `WorkerConcurrencyLimit`: `none` is the unlimited one. -/
abbrev WorkerConcurrencyLimit := Option ConcurrencyState

/-- `WorkerConcurrencyLimit::new`. -/
def WorkerConcurrencyLimit.new (max : Option ℕ) : WorkerConcurrencyLimit :=
  match max with
  | some max => if max > 0 then some ⟨max, 0, false, false⟩ else none
  | none => none

namespace ConcurrencyState

/-- `AtomicWaker::register`: the waker of the polling task is stored. -/
def register (c : ConcurrencyState) : ConcurrencyState :=
  { c with waiter := true, woken := false }

/-- `AtomicWaker::wake`: the stored waker, if any, is taken out and woken. -/
def wake (c : ConcurrencyState) : ConcurrencyState :=
  if c.waiter then { c with waiter := false, woken := true } else c

/-- `active.compare_exchange_weak(current, new, ..)`: the state after a success.
A weak exchange may fail although the values agree. -/
def compareExchangeWeak (c : ConcurrencyState) (current new : ℕ) (spurious : Bool) :
    Option ConcurrencyState :=
  if c.active = current ∧ spurious = false then some { c with active := new } else none

@[simp] theorem register_active (c : ConcurrencyState) : c.register.active = c.active := rfl
@[simp] theorem register_max (c : ConcurrencyState) : c.register.max = c.max := rfl

@[simp] theorem wake_active (c : ConcurrencyState) : c.wake.active = c.active := by
  unfold wake
  split <;> rfl

@[simp] theorem wake_max (c : ConcurrencyState) : c.wake.max = c.max := by
  unfold wake
  split <;> rfl

theorem compareExchangeWeak_eq_some {c c' : ConcurrencyState} {current new : ℕ} {spurious : Bool}
    (h : c.compareExchangeWeak current new spurious = some c') :
    c.active = current ∧ c' = { c with active := new } := by
  unfold compareExchangeWeak at h
  split at h
  · rename_i hc
    cases h
    exact ⟨hc.1, rfl⟩
  · cases h

end ConcurrencyState

/-! ## The three operations, one atomic access at a time -/

/-- Where an `AcquirePermit` stands: at the load of its loop, at the exchange
with the value it loaded, at the registration, at the load after it, or
suspended. -/
inductive PollPc where
  | load
  | cas (active : ℕ)
  | register
  | reload
  | pending
deriving DecidableEq, Repr

/-- `AcquirePermit::poll`; `none` is `Poll::Ready`. A suspended future may be
polled again at any time. -/
def pollStep (spurious : Bool) (c : ConcurrencyState) : PollPc → ConcurrencyState × Option PollPc
  | .load => (c, some (if c.active < c.max then .cas c.active else .register))
  | .cas active =>
      match c.compareExchangeWeak active (active + 1) spurious with
      | some c' => (c', none)
      | none => (c, some .load)
  | .register => (c.register, some .reload)
  | .reload => (c, some (if c.active < c.max then .load else .pending))
  | .pending => (c, some .load)

/-- Where a `try_acquire` call stands. -/
inductive TryPc where
  | load
  | cas (active : ℕ)
deriving DecidableEq, Repr

/-- What an atomic access of `try_acquire` leads to: another one, or the return
with `None` (at the counter value seen) or with a permit. -/
inductive TryNext where
  | more (pc : TryPc)
  | full (active : ℕ)
  | got
deriving DecidableEq, Repr

/-- `WorkerConcurrencyLimit::try_acquire`. -/
def tryStep (spurious : Bool) (c : ConcurrencyState) : TryPc → ConcurrencyState × TryNext
  | .load => (c, if c.active ≥ c.max then .full c.active else .more (.cas c.active))
  | .cas active =>
      match c.compareExchangeWeak active (active + 1) spurious with
      | some c' => (c', .got)
      | none => (c, .more .load)

/-- Where the drop of a permit stands. `gaveUp` is the exit of the loop without
a decrement. -/
inductive DropPc where
  | load
  | cas (active : ℕ)
  | wake
  | gaveUp
deriving DecidableEq, Repr

/-- The head of the `while active > 0` loop of the drop, for the value at hand. -/
def DropPc.loop (active : ℕ) : DropPc := if active > 0 then .cas active else .gaveUp

/-- `ConcurrencyPermit::drop`; `none` is the return. -/
def dropStep (spurious : Bool) (c : ConcurrencyState) : DropPc → ConcurrencyState × Option DropPc
  | .load => (c, some (.loop c.active))
  | .cas active =>
      match c.compareExchangeWeak active (active - 1) spurious with
      | some c' => (c', some .wake)
      | none => (c, some (.loop c.active))
  | .wake => (c.wake, none)
  | .gaveUp => (c, none)

theorem pollStep_max {spurious : Bool} {c : ConcurrencyState} {pc : PollPc} :
    (pollStep spurious c pc).1.max = c.max := by
  cases pc with
  | cas a =>
      simp only [pollStep]
      split
      next h => rw [(ConcurrencyState.compareExchangeWeak_eq_some h).2]
      next => rfl
  | load => rfl
  | register => rfl
  | reload => rfl
  | pending => rfl

theorem tryStep_max {spurious : Bool} {c : ConcurrencyState} {pc : TryPc} :
    (tryStep spurious c pc).1.max = c.max := by
  cases pc with
  | cas a =>
      simp only [tryStep]
      split
      next h => rw [(ConcurrencyState.compareExchangeWeak_eq_some h).2]
      next => rfl
  | load => rfl

theorem dropStep_max {spurious : Bool} {c : ConcurrencyState} {pc : DropPc} :
    (dropStep spurious c pc).1.max = c.max := by
  cases pc with
  | cas a =>
      simp only [dropStep]
      split
      next h => rw [(ConcurrencyState.compareExchangeWeak_eq_some h).2]
      next => rfl
  | load => rfl
  | wake => exact ConcurrencyState.wake_max c
  | gaveUp => rfl

namespace WorkerConcurrencyLimit

/-- One atomic access of `acquire().await`: without a limit the first poll is
ready with an empty permit. -/
def poll (limit : WorkerConcurrencyLimit) (spurious : Bool) (pc : PollPc) :
    WorkerConcurrencyLimit × Option PollPc :=
  match limit with
  | none => (none, none)
  | some c => (some (pollStep spurious c pc).1, (pollStep spurious c pc).2)

/-- One atomic access of `try_acquire()`. -/
def tryAcquire (limit : WorkerConcurrencyLimit) (spurious : Bool) (pc : TryPc) :
    WorkerConcurrencyLimit × TryNext :=
  match limit with
  | none => (none, .got)
  | some c => (some (tryStep spurious c pc).1, (tryStep spurious c pc).2)

/-- One atomic access of the drop of a permit of this limit: an empty permit
returns at once. -/
def drop (limit : WorkerConcurrencyLimit) (spurious : Bool) (pc : DropPc) :
    WorkerConcurrencyLimit × Option DropPc :=
  match limit with
  | none => (none, none)
  | some c => (some (dropStep spurious c pc).1, (dropStep spurious c pc).2)

end WorkerConcurrencyLimit

/-- The permit is live until its drop has decremented the counter. -/
def DropPc.live : DropPc → Bool
  | .load | .cas _ => true
  | .wake | .gaveUp => false

theorem DropPc.loop_of_pos {active : ℕ} (h : 0 < active) : DropPc.loop active = .cas active :=
  if_pos h

/-! ## The pool -/

/-- The helper with its users. -/
structure Pool where
  mem : ConcurrencyState
  /-- The one `AcquirePermit` that is being polled, if there is one. -/
  waiter : Option PollPc
  /-- The `try_acquire` calls under way. -/
  tries : Multiset TryPc
  /-- The permits that nobody is dropping. -/
  held : ℕ
  /-- The permits being dropped. -/
  drops : Multiset DropPc

inductive PoolLbl where
  | acquire
  | poll (pc : PollPc) (spurious : Bool)
  | abandon
  | tryAcquire
  | tryPoll (pc : TryPc) (spurious : Bool)
  | release
  | drop (pc : DropPc) (spurious : Bool)
deriving DecidableEq, Repr

namespace Pool

def guard : PoolLbl → Pool → Prop
  | .acquire, p => p.waiter = none
  | .poll pc _, p => p.waiter = some pc
  | .abandon, p => p.waiter = some .pending
  | .tryAcquire, _ => True
  | .tryPoll pc _, p => pc ∈ p.tries
  | .release, p => 0 < p.held
  | .drop pc _, p => pc ∈ p.drops

def update : PoolLbl → Pool → Pool
  | .acquire, p => { p with waiter := some .load }
  | .poll pc spurious, p =>
      match pollStep spurious p.mem pc with
      | (c, some pc') => { p with mem := c, waiter := some pc' }
      | (c, none) => { p with mem := c, waiter := none, held := p.held + 1 }
  | .abandon, p => { p with waiter := none }
  | .tryAcquire, p => { p with tries := .load ::ₘ p.tries }
  | .tryPoll pc spurious, p =>
      match tryStep spurious p.mem pc with
      | (c, .more pc') => { p with mem := c, tries := pc' ::ₘ p.tries.erase pc }
      | (c, .full _) => { p with mem := c, tries := p.tries.erase pc }
      | (c, .got) => { p with mem := c, tries := p.tries.erase pc, held := p.held + 1 }
  | .release, p => { p with held := p.held - 1, drops := .load ::ₘ p.drops }
  | .drop pc spurious, p =>
      match dropStep spurious p.mem pc with
      | (c, some pc') => { p with mem := c, drops := pc' ::ₘ p.drops.erase pc }
      | (c, none) => { p with mem := c, drops := p.drops.erase pc }

/-- No permit is out, and nobody has asked for one. -/
def initial (max : ℕ) : Pool := ⟨⟨max, 0, false, false⟩, none, 0, 0, 0⟩

def sys (max : ℕ) : Lts.Sys Pool PoolLbl := ⟨initial max, guard, update⟩

instance : ∀ l p, Decidable (guard l p)
  | .acquire, _ => inferInstanceAs (Decidable (_ = _))
  | .poll _ _, _ => inferInstanceAs (Decidable (_ = _))
  | .abandon, _ => inferInstanceAs (Decidable (_ = _))
  | .tryAcquire, _ => inferInstanceAs (Decidable True)
  | .tryPoll pc _, p => inferInstanceAs (Decidable (pc ∈ p.tries))
  | .release, _ => inferInstanceAs (Decidable (_ < _))
  | .drop pc _, p => inferInstanceAs (Decidable (pc ∈ p.drops))

instance (max : ℕ) (l : PoolLbl) (p : Pool) : Decidable ((sys max).guard l p) :=
  inferInstanceAs (Decidable (guard l p))

/-- One step of the pool, or none. -/
def Moves (p q : Pool) : Prop := q = p ∨ ∃ l, guard l p ∧ q = update l p

theorem Moves.reachable {max : ℕ} {p q : Pool} (h : Moves p q) (hp : (sys max).Reachable p) :
    (sys max).Reachable q := by
  rcases h with rfl | ⟨l, hg, rfl⟩
  · exact hp
  · exact hp.step hg

theorem moves_refl (p : Pool) : Moves p p := Or.inl rfl

end Pool

/-! ## Shares

The users of a limit are parties of a server: a loop, a queue, the handlers. Each
has its share of the permits, and the pool is the sum of the shares. A step of
the server then changes the share of one party by one of the rules below,
whatever the `rest` of the parties have. -/

/-- What a party has of a limit: idle permits, `try_acquire` calls and drops
under way. -/
@[ext]
structure Share where
  held : ℕ
  tries : Multiset TryPc
  drops : Multiset DropPc

namespace Share

instance : Add Share := ⟨fun a b => ⟨a.held + b.held, a.tries + b.tries, a.drops + b.drops⟩⟩

instance : Zero Share := ⟨⟨0, 0, 0⟩⟩

@[simp] theorem held_add (a b : Share) : (a + b).held = a.held + b.held := rfl
@[simp] theorem tries_add (a b : Share) : (a + b).tries = a.tries + b.tries := rfl
@[simp] theorem drops_add (a b : Share) : (a + b).drops = a.drops + b.drops := rfl
@[simp] theorem held_zero : (0 : Share).held = 0 := rfl
@[simp] theorem tries_zero : (0 : Share).tries = 0 := rfl
@[simp] theorem drops_zero : (0 : Share).drops = 0 := rfl

instance : AddCommMonoid Share where
  add_assoc a b c := by ext1 <;> simp [add_assoc]
  zero_add a := by ext1 <;> simp
  add_zero a := by ext1 <;> simp
  add_comm a b := by ext1 <;> simp [add_comm]
  nsmul := nsmulRec

/-- One idle permit. -/
def idle : Share := ⟨1, 0, 0⟩

/-- A `try_acquire` call. -/
def trying (pc : TryPc) : Share := ⟨0, {pc}, 0⟩

/-- A drop. -/
def dropping (pc : DropPc) : Share := ⟨0, 0, {pc}⟩

/-- What an access of `try_acquire` leaves. -/
def tried : TryNext → Share
  | .more pc => trying pc
  | .full _ => 0
  | .got => idle

/-- What an access of a drop leaves. -/
def dropped : Option DropPc → Share
  | some pc => dropping pc
  | none => 0

end Share

namespace Pool

/-- The pool of a limit whose users have these shares. -/
def ofShare (c : ConcurrencyState) (waiter : Option PollPc) (share : Share) : Pool :=
  ⟨c, waiter, share.tries, share.held, share.drops⟩

section Moves

variable {c c' : ConcurrencyState} {waiter : Option PollPc} {spurious : Bool} (rest : Share)

/-- A move of a pool is one of the pool in whatever order its shares are added. -/
theorem Moves.of_eq {waiter' : Option PollPc} {a a' b b' : Share}
    (h : Moves (ofShare c waiter a) (ofShare c' waiter' b)) (ha : a' = a) (hb : b' = b) :
    Moves (ofShare c waiter a') (ofShare c' waiter' b') := by
  rw [ha, hb]
  exact h

theorem moves_acquire : Moves (ofShare c none rest) (ofShare c (some .load) rest) :=
  Or.inr ⟨.acquire, rfl, rfl⟩

theorem moves_poll_some {pc pc' : PollPc} (h : pollStep spurious c pc = (c', some pc')) :
    Moves (ofShare c (some pc) rest) (ofShare c' (some pc') rest) := by
  refine Or.inr ⟨.poll pc spurious, rfl, ?_⟩
  simp [update, ofShare, h]

theorem moves_poll_none {pc : PollPc} (h : pollStep spurious c pc = (c', none)) :
    Moves (ofShare c (some pc) rest) (ofShare c' none (.idle + rest)) := by
  refine Or.inr ⟨.poll pc spurious, rfl, ?_⟩
  simp [update, ofShare, h, Share.idle, Nat.add_comm]

theorem moves_abandon : Moves (ofShare c (some .pending) rest) (ofShare c none rest) :=
  Or.inr ⟨.abandon, rfl, rfl⟩

theorem moves_tryAcquire :
    Moves (ofShare c waiter rest) (ofShare c waiter (.trying .load + rest)) := by
  refine Or.inr ⟨.tryAcquire, trivial, ?_⟩
  simp [update, ofShare, Share.trying]

theorem moves_tryPoll {pc : TryPc} {next : TryNext} (h : tryStep spurious c pc = (c', next)) :
    Moves (ofShare c waiter (.trying pc + rest)) (ofShare c' waiter (.tried next + rest)) := by
  refine Or.inr ⟨.tryPoll pc spurious, by simp [guard, ofShare, Share.trying], ?_⟩
  cases next <;>
    simp [update, ofShare, h, Share.tried, Share.trying, Share.idle, Nat.add_comm]

theorem moves_release :
    Moves (ofShare c waiter (.idle + rest)) (ofShare c waiter (.dropping .load + rest)) := by
  refine Or.inr ⟨.release, Nat.add_pos_left Nat.one_pos _, ?_⟩
  simp [update, ofShare, Share.idle, Share.dropping]

theorem moves_drop {pc : DropPc} {next : Option DropPc}
    (h : dropStep spurious c pc = (c', next)) :
    Moves (ofShare c waiter (.dropping pc + rest)) (ofShare c' waiter (.dropped next + rest)) := by
  refine Or.inr ⟨.drop pc spurious, by simp [guard, ofShare, Share.dropping], ?_⟩
  cases next <;> simp [update, ofShare, h, Share.dropped, Share.dropping]

end Moves

/-! ## The counter is exact -/

/-- The drops that have not decremented yet. -/
def liveDrops (drops : Multiset DropPc) : ℕ := drops.countP (fun d => d.live = true)

@[simp] theorem liveDrops_cons (d : DropPc) (drops : Multiset DropPc) :
    liveDrops (d ::ₘ drops) = liveDrops drops + if d.live then 1 else 0 :=
  Multiset.countP_cons _ d drops

/-- The live permits: idle, or in a drop that has not decremented yet. -/
def live (p : Pool) : ℕ := p.held + liveDrops p.drops

/-- The counter is the number of live permits; every exchange under way carries
a value that makes its success legal. -/
structure Inv (max : ℕ) (p : Pool) : Prop where
  max_eq : p.mem.max = max
  active_eq : p.mem.active = p.live
  active_le : p.mem.active ≤ max
  poll_cas : ∀ a, p.waiter = some (.cas a) → a < max
  try_cas : ∀ a, .cas a ∈ p.tries → a < max
  drop_cas : ∀ a, .cas a ∈ p.drops → 0 < a
  no_gaveUp : .gaveUp ∉ p.drops

theorem init_inv (max : ℕ) : Inv max (initial max) where
  max_eq := rfl
  active_eq := rfl
  active_le := Nat.zero_le _
  poll_cas := by
    intro a h
    cases h
  try_cas := by
    intro a h
    simp [initial] at h
  drop_cas := by
    intro a h
    simp [initial] at h
  no_gaveUp := by
    intro h
    simp [initial] at h

/-- A drop that has not decremented sees a positive counter. -/
theorem Inv.active_pos {max : ℕ} {p : Pool} (h : Inv max p) {d : DropPc} (hd : d ∈ p.drops)
    (hlive : d.live = true) : 0 < p.mem.active := by
  have hcount : 0 < liveDrops p.drops := Multiset.countP_pos.mpr ⟨d, hd, hlive⟩
  have hactive := h.active_eq
  unfold live at hactive
  omega

theorem step_poll {max : ℕ} {p : Pool} {pc : PollPc} {spurious : Bool} (h : Inv max p)
    (hw : p.waiter = some pc) : Inv max (update (.poll pc spurious) p) := by
  have hmax := h.max_eq
  cases pc with
  | load =>
      refine { h with poll_cas := ?_ }
      intro a ha
      by_cases hlt : p.mem.active < p.mem.max
      · simp only [update, pollStep, if_pos hlt, Option.some.injEq, PollPc.cas.injEq] at ha
        omega
      · simp [update, pollStep, if_neg hlt] at ha
  | cas a =>
      cases hcas : p.mem.compareExchangeWeak a (a + 1) spurious with
      | none =>
          simp only [update, pollStep, hcas]
          exact { h with poll_cas := fun b hb => by cases hb }
      | some c =>
          -- the exchange succeeds: a new idle permit, and the counter goes up by one
          rcases ConcurrencyState.compareExchangeWeak_eq_some hcas with ⟨hact, rfl⟩
          have hlt := h.poll_cas a hw
          have hlive := h.active_eq
          simp only [update, pollStep, hcas]
          refine { h with active_eq := ?_, active_le := hlt, poll_cas := fun b hb => by cases hb }
          simp only [live] at hlive ⊢
          omega
  | register => exact { h with poll_cas := fun b hb => by cases hb }
  | reload =>
      refine { h with poll_cas := ?_ }
      intro a ha
      by_cases hlt : p.mem.active < p.mem.max
      · simp [update, pollStep, if_pos hlt] at ha
      · simp [update, pollStep, if_neg hlt] at ha
  | pending => exact { h with poll_cas := fun b hb => by cases hb }

theorem step_tryPoll {max : ℕ} {p : Pool} {pc : TryPc} {spurious : Bool} (h : Inv max p)
    (hpc : pc ∈ p.tries) : Inv max (update (.tryPoll pc spurious) p) := by
  have hmax := h.max_eq
  have hrest : ∀ a, TryPc.cas a ∈ p.tries.erase pc → a < max := fun a ha =>
    h.try_cas a (Multiset.mem_of_mem_erase ha)
  cases pc with
  | load =>
      by_cases hfull : p.mem.active ≥ p.mem.max
      · simp only [update, tryStep, if_pos hfull]
        exact { h with try_cas := hrest }
      · simp only [update, tryStep, if_neg hfull]
        refine { h with try_cas := ?_ }
        intro a ha
        rcases Multiset.mem_cons.mp ha with heq | ha
        · cases heq
          omega
        · exact hrest a ha
  | cas a =>
      cases hcas : p.mem.compareExchangeWeak a (a + 1) spurious with
      | none =>
          simp only [update, tryStep, hcas]
          refine { h with try_cas := ?_ }
          intro b hb
          rcases Multiset.mem_cons.mp hb with heq | hb
          · cases heq
          · exact hrest b hb
      | some c =>
          rcases ConcurrencyState.compareExchangeWeak_eq_some hcas with ⟨hact, rfl⟩
          have hlt := h.try_cas a hpc
          have hlive := h.active_eq
          simp only [update, tryStep, hcas]
          refine { h with active_eq := ?_, active_le := hlt, try_cas := hrest }
          simp only [live] at hlive ⊢
          omega

theorem step_release {max : ℕ} {p : Pool} (h : Inv max p) (hheld : 0 < p.held) :
    Inv max (update .release p) := by
  have hlive := h.active_eq
  refine { h with active_eq := ?_, drop_cas := ?_, no_gaveUp := ?_ }
  · -- the permit moves from the idle ones to the drops that have not decremented
    simp only [update, live, liveDrops_cons, DropPc.live, if_true] at hlive ⊢
    omega
  · intro a ha
    rcases Multiset.mem_cons.mp ha with heq | ha
    · cases heq
    · exact h.drop_cas a ha
  · intro hg
    rcases Multiset.mem_cons.mp hg with heq | hg
    · cases heq
    · exact h.no_gaveUp hg

/-- A drop that goes on to a place where its value, if any, is positive. -/
theorem Inv.replaceDrop {max : ℕ} {p : Pool} (h : Inv max p) (d : DropPc) {d' : DropPc}
    (hcas : ∀ a, d' = .cas a → 0 < a) (hgaveUp : d' ≠ .gaveUp) :
    (∀ a, .cas a ∈ d' ::ₘ p.drops.erase d → 0 < a) ∧ .gaveUp ∉ d' ::ₘ p.drops.erase d := by
  constructor
  · intro a ha
    rcases Multiset.mem_cons.mp ha with heq | ha
    · exact hcas a heq.symm
    · exact h.drop_cas a (Multiset.mem_of_mem_erase ha)
  · intro hg
    rcases Multiset.mem_cons.mp hg with heq | hg
    · exact hgaveUp heq.symm
    · exact h.no_gaveUp (Multiset.mem_of_mem_erase hg)

/-- Replacing a drop by a live one with a positive value: the count of live
permits is unchanged. -/
theorem Inv.retry {max : ℕ} {p : Pool} {d : DropPc} (h : Inv max p) (hd : d ∈ p.drops)
    (hlive : d.live = true) :
    Inv max { p with drops := DropPc.loop p.mem.active ::ₘ p.drops.erase d } := by
  have hpos := h.active_pos hd hlive
  have hsplit : d ::ₘ p.drops.erase d = p.drops := Multiset.cons_erase hd
  have hactive := h.active_eq
  rw [DropPc.loop_of_pos hpos]
  obtain ⟨hcas, hgaveUp⟩ := @Inv.replaceDrop max p h d (.cas p.mem.active)
    (fun a ha => by cases ha; exact hpos) (by rintro ⟨⟩)
  refine { h with active_eq := ?_, drop_cas := hcas, no_gaveUp := hgaveUp }
  simp only [live] at hactive ⊢
  rw [← hsplit, liveDrops_cons, if_pos hlive] at hactive
  simpa [DropPc.live] using hactive

/-- The decrement: the permit stops being live in the same step. -/
theorem Inv.decrement {max : ℕ} {p : Pool} {a : ℕ} (h : Inv max p) (ha : .cas a ∈ p.drops)
    (hact : p.mem.active = a) :
    Inv max { p with
      mem := { p.mem with active := a - 1 }
      drops := .wake ::ₘ p.drops.erase (.cas a) } := by
  have hsplit : .cas a ::ₘ p.drops.erase (.cas a) = p.drops := Multiset.cons_erase ha
  have hactive := h.active_eq
  have hpos := h.drop_cas a ha
  have hle := h.active_le
  obtain ⟨hcas, hgaveUp⟩ := @Inv.replaceDrop max p h (.cas a) .wake
    (fun b hb => by cases hb) (by rintro ⟨⟩)
  refine { h with active_eq := ?_, active_le := ?_, drop_cas := hcas, no_gaveUp := hgaveUp }
  · simp only [live] at hactive ⊢
    rw [← hsplit] at hactive
    simp only [liveDrops_cons, DropPc.live, if_true] at hactive
    simp only [liveDrops_cons, DropPc.live, Bool.false_eq_true, if_false]
    omega
  · show a - 1 ≤ max
    omega

theorem step_drop {max : ℕ} {p : Pool} {pc : DropPc} {spurious : Bool} (h : Inv max p)
    (hpc : pc ∈ p.drops) : Inv max (update (.drop pc spurious) p) := by
  have hsplit : pc ::ₘ p.drops.erase pc = p.drops := Multiset.cons_erase hpc
  have hactive := h.active_eq
  cases pc with
  | load => exact h.retry hpc rfl
  | cas a =>
      cases hcas : p.mem.compareExchangeWeak a (a - 1) spurious with
      | none =>
          simp only [update, dropStep, hcas]
          exact h.retry hpc rfl
      | some c =>
          rcases ConcurrencyState.compareExchangeWeak_eq_some hcas with ⟨hact, rfl⟩
          simp only [update, dropStep, hcas]
          exact h.decrement hpc hact
  | wake =>
      have hrest : ∀ a, DropPc.cas a ∈ p.drops.erase .wake → 0 < a := fun a ha =>
        h.drop_cas a (Multiset.mem_of_mem_erase ha)
      refine ⟨?_, ?_, ?_, h.poll_cas, h.try_cas, hrest,
        fun hg => h.no_gaveUp (Multiset.mem_of_mem_erase hg)⟩
      · simpa [update, dropStep] using h.max_eq
      · simp only [update, dropStep, live, ConcurrencyState.wake_active] at hactive ⊢
        rw [← hsplit] at hactive
        simpa [DropPc.live] using hactive
      · simpa [update, dropStep] using h.active_le
  | gaveUp => exact absurd hpc h.no_gaveUp

theorem step_inv {max : ℕ} (l : PoolLbl) (p : Pool) (hg : guard l p) (h : Inv max p) :
    Inv max (update l p) := by
  cases l with
  | acquire => exact { h with poll_cas := fun a ha => by cases ha }
  | poll pc spurious => exact step_poll h hg
  | abandon => exact { h with poll_cas := fun a ha => by cases ha }
  | tryAcquire =>
      refine { h with try_cas := ?_ }
      intro a ha
      rcases Multiset.mem_cons.mp ha with heq | ha
      · cases heq
      · exact h.try_cas a ha
  | tryPoll pc spurious => exact step_tryPoll h hg
  | release => exact step_release h hg
  | drop pc spurious => exact step_drop h hg

/-- In every reachable state of the helper the counter is exact. -/
theorem reachable_inv {max : ℕ} : ∀ p, (sys max).Reachable p → Inv max p :=
  (sys max).invariant (Inv max) (init_inv max) step_inv

@[simp] theorem liveDrops_add (drops drops' : Multiset DropPc) :
    liveDrops (drops + drops') = liveDrops drops + liveDrops drops' :=
  Multiset.countP_add _ drops drops'

end Pool

namespace Share

/-- The live permits of a share: idle, or in a drop that has not decremented
yet. -/
def live (a : Share) : ℕ := a.held + Pool.liveDrops a.drops

@[simp] theorem live_add (a b : Share) : (a + b).live = a.live + b.live := by
  simp only [live, held_add, drops_add, Pool.liveDrops_add]
  omega

@[simp] theorem live_idle : idle.live = 1 := rfl

/-- The counter of a limit of `max` permits tells exactly what its users have. -/
structure Exact (max : ℕ) (c : ConcurrencyState) (a : Share) : Prop where
  max_eq : c.max = max
  active_eq : c.active = a.live
  active_le : c.active ≤ max
  /-- A drop that is about to read the counter finds it positive. -/
  active_pos : ∀ d ∈ a.drops, d.live = true → 0 < c.active
  /-- No drop leaves its loop without a decrement. -/
  no_gaveUp : DropPc.gaveUp ∉ a.drops
  active_eq_zero : a.live = 0 → c.active = 0

theorem exact_of_reachable {max : ℕ} {c : ConcurrencyState} {waiter : Option PollPc} {a : Share}
    (h : (Pool.sys max).Reachable (Pool.ofShare c waiter a)) : a.Exact max c where
  max_eq := (Pool.reachable_inv _ h).max_eq
  active_eq := (Pool.reachable_inv _ h).active_eq
  active_le := (Pool.reachable_inv _ h).active_le
  active_pos := fun _ hd hlive => (Pool.reachable_inv _ h).active_pos hd hlive
  no_gaveUp := (Pool.reachable_inv _ h).no_gaveUp
  active_eq_zero := (Pool.reachable_inv _ h).active_eq.trans

end Share

namespace Pool

/-! ## No wakeup is lost -/

/-- From its registration on, the waiter that has not been woken is registered;
once it is suspended, a permit can have become free only through a drop that is
still about to call `wake`. -/
structure WakeInv (p : Pool) : Prop where
  reload : p.waiter = some .reload → p.mem.woken = false → p.mem.waiter = true
  pending : p.waiter = some .pending → p.mem.woken = false →
    p.mem.waiter = true ∧ (p.mem.max ≤ p.mem.active ∨ DropPc.wake ∈ p.drops)

theorem init_wakeInv (max : ℕ) : WakeInv (initial max) where
  reload := by
    intro h
    cases h
  pending := by
    intro h
    cases h

theorem wakeInv_poll {p : Pool} {pc : PollPc} {spurious : Bool} (h : WakeInv p)
    (hw : p.waiter = some pc) : WakeInv (update (.poll pc spurious) p) := by
  cases pc with
  | load =>
      by_cases hlt : p.mem.active < p.mem.max
      · constructor <;> simp [update, pollStep, hlt]
      · constructor <;> simp [update, pollStep, hlt]
  | cas a =>
      cases hcas : p.mem.compareExchangeWeak a (a + 1) spurious with
      | none => constructor <;> simp [update, pollStep, hcas]
      | some c => constructor <;> simp [update, pollStep, hcas]
  | register =>
      constructor
      · intro _ _
        rfl
      · intro hpc
        cases hpc
  | reload =>
      -- the load after the registration decides: retry, or suspend on a full counter
      by_cases hlt : p.mem.active < p.mem.max
      · constructor <;> simp [update, pollStep, hlt]
      · constructor
        · simp [update, pollStep, hlt]
        · intro _ hnot
          have hreg : p.mem.waiter = true := h.reload hw hnot
          exact ⟨hreg, Or.inl (Nat.not_lt.mp hlt)⟩
  | pending => constructor <;> simp [update, pollStep]

/-- Steps that leave the waiter alone keep the invariant if they do not lower
the counter, or announce it by a drop that will wake. -/
theorem WakeInv.frame {p q : Pool} (h : WakeInv p) (hwaiter : q.waiter = p.waiter)
    (hstored : p.mem.waiter = true → q.mem.waiter = true ∨ q.mem.woken = true)
    (hwoken : q.mem.woken = false → p.mem.woken = false)
    (hfree : p.mem.max ≤ p.mem.active ∨ DropPc.wake ∈ p.drops → q.mem.waiter = true →
      q.mem.max ≤ q.mem.active ∨ DropPc.wake ∈ q.drops) : WakeInv q := by
  have hkeep : p.mem.waiter = true → q.mem.woken = false → q.mem.waiter = true := by
    intro hp hq
    rcases hstored hp with hq' | hq'
    · exact hq'
    · rw [hq] at hq'
      cases hq'
  constructor
  · intro hpc hnot
    exact hkeep (h.reload (hwaiter ▸ hpc) (hwoken hnot)) hnot
  · intro hpc hnot
    rcases h.pending (hwaiter ▸ hpc) (hwoken hnot) with ⟨hp, hfull⟩
    have hq := hkeep hp hnot
    exact ⟨hq, hfree hfull hq⟩

theorem wakeInv_tryPoll {max : ℕ} {p : Pool} {pc : TryPc} {spurious : Bool} (hinv : Inv max p)
    (h : WakeInv p) (hpc : pc ∈ p.tries) : WakeInv (update (.tryPoll pc spurious) p) := by
  cases pc with
  | load =>
      by_cases hfull : p.mem.active ≥ p.mem.max
      · simp only [update, tryStep, if_pos hfull]
        exact ⟨h.reload, h.pending⟩
      · simp only [update, tryStep, if_neg hfull]
        exact ⟨h.reload, h.pending⟩
  | cas a =>
      cases hcas : p.mem.compareExchangeWeak a (a + 1) spurious with
      | none =>
          simp only [update, tryStep, hcas]
          exact ⟨h.reload, h.pending⟩
      | some c =>
          rcases ConcurrencyState.compareExchangeWeak_eq_some hcas with ⟨hact, rfl⟩
          simp only [update, tryStep, hcas]
          refine h.frame rfl Or.inl id ?_
          intro hfull _
          rcases hfull with hfull | hdrop
          · have hlt := hinv.try_cas a hpc
            have hmax := hinv.max_eq
            omega
          · exact Or.inr hdrop

theorem wakeInv_drop {p : Pool} {pc : DropPc} {spurious : Bool} (h : WakeInv p) :
    WakeInv (update (.drop pc spurious) p) := by
  have hother : pc ≠ .wake → DropPc.wake ∈ p.drops → DropPc.wake ∈ p.drops.erase pc := by
    intro hne hmem
    exact (Multiset.mem_erase_of_ne (Ne.symm hne)).mpr hmem
  cases pc with
  | load =>
      refine h.frame rfl Or.inl id ?_
      intro hfull _
      exact hfull.imp id fun hd => Multiset.mem_cons_of_mem (hother (by simp) hd)
  | cas a =>
      cases hcas : p.mem.compareExchangeWeak a (a - 1) spurious with
      | none =>
          simp only [update, dropStep, hcas]
          refine h.frame rfl Or.inl id ?_
          intro hfull _
          exact hfull.imp id fun hd => Multiset.mem_cons_of_mem (hother (by simp) hd)
      | some c =>
          -- the decrement frees a permit, and this very drop goes on to wake
          rcases ConcurrencyState.compareExchangeWeak_eq_some hcas with ⟨hact, rfl⟩
          simp only [update, dropStep, hcas]
          refine h.frame rfl Or.inl id ?_
          intro _ _
          exact Or.inr (Multiset.mem_cons_self _ _)
  | wake =>
      -- a stored waker is woken, so nothing is claimed any more
      by_cases hstored : p.mem.waiter = true
      · have hwoken : (update (.drop .wake spurious) p).mem.woken = true := by
          simp [update, dropStep, ConcurrencyState.wake, hstored]
        constructor <;> (intro _ hnot; rw [hwoken] at hnot; cases hnot)
      · have hsame : p.mem.wake = p.mem := by
          simp [ConcurrencyState.wake, hstored]
        refine h.frame rfl ?_ ?_ ?_
        · intro hp
          exact absurd hp hstored
        · simp [update, dropStep, hsame]
        · intro _ hq
          simp only [update, dropStep, hsame] at hq
          exact absurd hq hstored
  | gaveUp =>
      refine h.frame rfl Or.inl id ?_
      intro hfull _
      exact hfull.imp id fun hd => hother (by simp) hd

theorem step_wakeInv {max : ℕ} (l : PoolLbl) (p : Pool) (hg : guard l p)
    (h : Inv max p ∧ WakeInv p) : Inv max (update l p) ∧ WakeInv (update l p) := by
  refine ⟨step_inv l p hg h.1, ?_⟩
  cases l with
  | acquire => constructor <;> (intro hpc; cases hpc)
  | poll pc spurious => exact wakeInv_poll h.2 hg
  | abandon => constructor <;> (intro hpc; cases hpc)
  | tryAcquire => exact ⟨h.2.reload, h.2.pending⟩
  | tryPoll pc spurious => exact wakeInv_tryPoll h.1 h.2 hg
  | release =>
      refine h.2.frame rfl Or.inl id ?_
      intro hfull _
      exact hfull.imp id fun hd => Multiset.mem_cons_of_mem hd
  | drop pc spurious => exact wakeInv_drop h.2

theorem reachable_wakeInv {max : ℕ} : ∀ p, (sys max).Reachable p → WakeInv p := by
  intro p hp
  exact ((sys max).invariant (fun p => Inv max p ∧ WakeInv p)
    ⟨init_inv max, init_wakeInv max⟩ step_wakeInv p hp).2

/-- No lost wakeup: no reachable state has a suspended waiter that was not woken
since its registration, a free permit, and no drop between its decrement and its
`wake`. -/
theorem no_lost_wakeup {max : ℕ} {p : Pool} (hp : (sys max).Reachable p) :
    ¬ (p.waiter = some .pending ∧ p.mem.woken = false ∧ p.mem.active < p.mem.max ∧
      DropPc.wake ∉ p.drops) := by
  intro h
  rcases h with ⟨hpending, hnot, hfree, hnone⟩
  rcases (reachable_wakeInv p hp).pending hpending hnot with ⟨-, hfull | hdrop⟩
  · omega
  · exact hnone hdrop

/-- The premises occur: with one permit out of one, the waiter polls, finds the
counter full twice and suspends. It is not woken, so nothing is free. -/
theorem no_lost_wakeup_suspended :
    ∃ p, (sys 1).Reachable p ∧ (p.waiter = some .pending ∧ p.mem.woken = false) ∧
      ¬ (p.waiter = some .pending ∧ p.mem.woken = false ∧ p.mem.active < p.mem.max ∧
        DropPc.wake ∉ p.drops) := by
  have hexec := (sys 1).exists_run_of_exec
    [.acquire, .poll .load false, .poll (.cas 0) false, .acquire, .poll .load false,
      .poll .register false, .poll .reload false]
    (fun p => p.waiter = some .pending ∧ p.mem.woken = false) (by decide)
  rcases hexec with ⟨p, hrun, hp⟩
  exact ⟨p, ⟨_, hrun⟩, hp, no_lost_wakeup ⟨_, hrun⟩⟩

end Pool

end ReusePort
