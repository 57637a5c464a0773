import Mathlib
import ReusePort.Core.Drain
import ReusePort.Core.SimulatedService
import ReusePort.Core.Startup

/-!
# ReusePort.Core.WindDown — a closed server comes to rest

`close` returns at once: it clears the flag of the server and cancels the tasks, and
leaves it to them to end. Here a closed server is left to itself, with peers that may
go on sending. With tokio, whatever the order of its steps, it comes to rest after a
bounded number of them: every loop has ended, no item is queued, no handler runs, and
every permit is back.

With async-std a cancellation reaches no task that another thread has started
(`Cancels`). A loop that is blocked in its receive then stays there, and the dispatch
loops behind it wait for its senders to go; a UDP loop is woken by the datagram of
`close`, a TCP loop by the next connection only.

The drops of the permits of one worker contend for its counter, and an exchange of one
can make those of the others fail. `holders` counts what has a permit or asks for one,
`unsettled` the exchanges to come, `work` the steps ahead if nobody interferes.

* `dropLimit_cases`, `tryLimit_cases` — an access gets on with its own work, or has its
  turn;
* `ranked_closing` — every step lowers the rank;
* `quiet_of_stuck` — where the server stops, with either runtime;
* `simulated_winds_down`, with tokio;
* `simulated_winds_down_asyncStd`, up to a loop that is blocked in its receive.
-/

namespace ReusePort

/-! ## Permits -/

/-- The accesses of a drop that nobody interferes with; an unlimited drop is one step. -/
def dropWork (limit : WorkerConcurrencyLimit) (pc : DropPc) : ℕ :=
  limit.elim 1 fun c => Pool.dropCost c pc

@[inherit_doc dropWork]
def tryWork (limit : WorkerConcurrencyLimit) (pc : TryPc) : ℕ :=
  limit.elim 1 fun c => Pool.tryCost c pc

@[inherit_doc dropWork]
def pollWork (limit : WorkerConcurrencyLimit) (pc : PollPc) : ℕ :=
  limit.elim 1 fun c => Pool.pollCost c pc

/-- The exchange of a drop is still to come. -/
def DropPc.unsettled (pc : DropPc) : ℕ := if pc.live then 1 else 0

theorem DropPc.unsettled_le (pc : DropPc) : pc.unsettled ≤ 1 := by
  unfold DropPc.unsettled
  split <;> decide

/-- The counters are the same, so nobody is set back. -/
structure SameWork (limit limit' : WorkerConcurrencyLimit) : Prop where
  drops : dropWork limit' = dropWork limit
  tries : tryWork limit' = tryWork limit
  polls : pollWork limit' = pollWork limit

theorem SameWork.refl (limit : WorkerConcurrencyLimit) : SameWork limit limit := ⟨rfl, rfl, rfl⟩

theorem sameWork_of_active {c c' : ConcurrencyState} (hactive : c'.active = c.active)
    (hmax : c'.max = c.max) : SameWork (some c) (some c') := by
  rcases Pool.costs_congr hactive hmax with ⟨htry, hdrop, hpoll⟩
  refine ⟨?_, ?_, ?_⟩
  · funext pc
    exact congrFun hdrop pc
  · funext pc
    exact congrFun htry pc
  · funext pc
    exact congrFun hpoll pc

theorem dropWork_le (limit : WorkerConcurrencyLimit) (pc : DropPc) : dropWork limit pc ≤ 4 := by
  cases limit with
  | none => simp [dropWork]
  | some c => exact Pool.dropCost_le c pc

theorem dropWork_pos (limit : WorkerConcurrencyLimit) (pc : DropPc) : 0 < dropWork limit pc := by
  cases limit with
  | none => simp [dropWork]
  | some c => exact Pool.dropCost_pos c pc

theorem tryWork_le (limit : WorkerConcurrencyLimit) (pc : TryPc) : tryWork limit pc ≤ 4 := by
  cases limit with
  | none => simp [tryWork]
  | some c => exact Pool.tryCost_le c pc

/-- A drop that has not begun has the most ahead of it. -/
theorem dropWork_load (limit : WorkerConcurrencyLimit) : dropWork limit .load ≤ 3 := by
  cases limit with
  | none => simp [dropWork]
  | some c => exact le_refl 3

/-- One access of a drop gets on with its own work, or it is the exchange, which may set the
others back. -/
theorem dropLimit_cases (limit : WorkerConcurrencyLimit) (pc : DropPc) :
    (limit.drop false pc).2.elim 0 DropPc.unsettled ≤ pc.unsettled ∧
      ((SameWork limit (limit.drop false pc).1 ∧
        (limit.drop false pc).2.elim 0 (dropWork limit) < dropWork limit pc) ∨
      (limit.drop false pc).2.elim 0 DropPc.unsettled < pc.unsettled) := by
  refine ⟨Handler.live_drop limit false pc, ?_⟩
  cases limit with
  | none => exact Or.inl ⟨.refl _, Nat.zero_lt_one⟩
  | some c =>
      cases pc with
      | load =>
          refine Or.inl ⟨.refl _, ?_⟩
          exact @Pool.dropCost_step c .load _ rfl
      | cas active =>
          cases hcas : c.compareExchangeWeak active (active - 1) false with
          | some c' =>
              right
              simp [WorkerConcurrencyLimit.drop, dropStep, hcas, DropPc.unsettled, DropPc.live]
          | none =>
              left
              have hstep : dropStep false c (.cas active) = (c, some (.loop c.active)) := by
                simp only [dropStep, hcas]
              have hless := Pool.dropCost_step (c := c) (congrArg Prod.snd hstep)
              simp only [WorkerConcurrencyLimit.drop, hstep] at hless ⊢
              exact ⟨.refl _, hless⟩
      | wake =>
          left
          exact ⟨sameWork_of_active (ConcurrencyState.wake_active c) (ConcurrencyState.wake_max c),
            Nat.zero_lt_one⟩
      | gaveUp => exact Or.inl ⟨.refl _, Nat.zero_lt_one⟩

/-- The last access of a drop leaves the counter alone. -/
theorem sameWork_of_dropped {limit : WorkerConcurrencyLimit} {pc : DropPc}
    (h : (limit.drop false pc).2 = none) : SameWork limit (limit.drop false pc).1 := by
  rcases dropLimit_cases limit pc with ⟨_, ⟨hsame, _⟩ | hless⟩
  · exact hsame
  · cases limit with
    | none => exact .refl _
    | some c =>
        cases pc with
        | load => cases h
        | cas active =>
            simp only [WorkerConcurrencyLimit.drop, dropStep] at h
            split at h <;> cases h
        | wake | gaveUp => exact absurd hless (Nat.not_lt_zero _)

/-- One access of `try_acquire` leaves the counter alone, or gets the permit. -/
theorem tryLimit_cases (limit : WorkerConcurrencyLimit) (pc : TryPc) :
    (limit.tryAcquire false pc).2 = .got ∨
      (limit.tryAcquire false pc).1 = limit ∧
        ((∃ active, (limit.tryAcquire false pc).2 = .full active) ∨
          ∃ pc', (limit.tryAcquire false pc).2 = .more pc' ∧
            tryWork limit pc' < tryWork limit pc) := by
  cases limit with
  | none => exact Or.inl rfl
  | some c =>
      cases hnext : (tryStep false c pc).2 with
      | got => exact Or.inl hnext
      | full active =>
          refine Or.inr ⟨?_, Or.inl ⟨active, hnext⟩⟩
          cases pc with
          | load => rfl
          | cas v =>
              simp only [tryStep] at hnext
              split at hnext <;> cases hnext
      | more pc' =>
          rcases Pool.tryCost_step hnext with ⟨hsame, hless⟩
          exact Or.inr ⟨congrArg some hsame, Or.inr ⟨pc', hnext, hless⟩⟩

/-! ## Handlers -/

namespace Handler

variable {β : Type}

def unsettled : Handler β → ℕ
  | .running _ => 1
  | .dropping pc => pc.unsettled

def work (limit : WorkerConcurrencyLimit) : Handler β → ℕ
  | .running _ => 4
  | .dropping pc => dropWork limit pc

theorem unsettled_le (x : Handler β) : x.unsettled ≤ 1 := by
  cases x with
  | running x => exact le_refl 1
  | dropping pc => exact pc.unsettled_le

theorem work_le (limit : WorkerConcurrencyLimit) (x : Handler β) : x.work limit ≤ 4 := by
  cases x with
  | running x => exact le_refl 4
  | dropping pc => exact dropWork_le limit pc

/-- Whatever is counted of the handlers, when one of them ends or drops its permit. -/
theorem sum_set (f : Handler β → ℕ) {handlers : List (Handler β)} {i : ℕ} {x : Handler β}
    (h : handlers[i]? = some x) (next : Option DropPc) :
    ((set handlers i next).map f).sum + f x =
      (handlers.map f).sum + next.elim 0 fun pc => f (.dropping pc) := by
  rw [Lts.sum_map_getElem f h]
  cases next with
  | none =>
      simp only [set, Option.elim_none]
      omega
  | some pc =>
      simp only [set, Option.elim_some]
      rw [Lts.sum_map_set f h]
      omega

/-- The `i`-th handler ends, and begins to drop its permit. -/
theorem sum_end (limit : WorkerConcurrencyLimit) {handlers : List (Handler β)} {i : ℕ} {x : Item β}
    (hi : handlers[i]? = some (.running x)) :
    ((set handlers i (some .load)).map fun _ => 1).sum ≤ (handlers.map fun _ => 1).sum ∧
      ((set handlers i (some .load)).map unsettled).sum ≤ (handlers.map unsettled).sum ∧
      ((set handlers i (some .load)).map (work limit)).sum < (handlers.map (work limit)).sum := by
  have hH := sum_set (fun _ => 1) hi (some .load)
  have hU := sum_set unsettled hi (some .load)
  have hW := sum_set (work limit) hi (some .load)
  have hload := dropWork_load limit
  have hlive : DropPc.unsettled .load = 1 := rfl
  simp only [Option.elim_some, unsettled, work] at hH hU hW
  exact ⟨by omega, by omega, by omega⟩

/-- The `i`-th handler takes a step of the drop of its permit: it gets on with its own work, or
has its exchange. -/
theorem sum_drop (limit : WorkerConcurrencyLimit) {handlers : List (Handler β)} {i : ℕ}
    {pc : DropPc} (hi : handlers[i]? = some (.dropping pc)) :
    ((set handlers i (limit.drop false pc).2).map fun _ => 1).sum ≤
        (handlers.map fun _ => 1).sum ∧
      ((SameWork limit (limit.drop false pc).1 ∧
        ((set handlers i (limit.drop false pc).2).map unsettled).sum ≤
          (handlers.map unsettled).sum ∧
        ((set handlers i (limit.drop false pc).2).map (work limit)).sum <
          (handlers.map (work limit)).sum) ∨
      (((set handlers i (limit.drop false pc).2).map unsettled).sum <
          (handlers.map unsettled).sum ∧
        0 < (handlers.map (work limit)).sum)) := by
  have hH := sum_set (fun _ => 1) hi (limit.drop false pc).2
  have hU : ((set handlers i (limit.drop false pc).2).map unsettled).sum + pc.unsettled =
      (handlers.map unsettled).sum + (limit.drop false pc).2.elim 0 DropPc.unsettled :=
    sum_set unsettled hi _
  have hW : ((set handlers i (limit.drop false pc).2).map (work limit)).sum + dropWork limit pc =
      (handlers.map (work limit)).sum + (limit.drop false pc).2.elim 0 (dropWork limit) :=
    sum_set (work limit) hi _
  have hone : ((limit.drop false pc).2.elim 0 fun _ => 1) ≤ 1 := by
    cases (limit.drop false pc).2 <;> simp
  refine ⟨by omega, ?_⟩
  rcases dropLimit_cases limit pc with ⟨hle, ⟨hsame, hless⟩ | hless⟩
  · exact Or.inl ⟨hsame, by omega, by omega⟩
  · right
    refine ⟨by omega, ?_⟩
    have hpos := dropWork_pos limit pc
    have hsum := Lts.sum_map_getElem (work limit) hi
    simp only [work] at hsum
    omega

/-- A bound for each handler is one for all. -/
theorem sum_le (f g : Handler β → ℕ) (m : ℕ) (h : ∀ x, f x ≤ m * g x)
    (handlers : List (Handler β)) : (handlers.map f).sum ≤ m * (handlers.map g).sum := by
  induction handlers with
  | nil => simp
  | cons x handlers ih =>
      have hx := h x
      simp only [List.map_cons, List.sum_cons, Nat.mul_add]
      omega

end Handler

namespace Simulated

variable {α ρ β : Type}

/-! ## The closed server -/

/-- The steps of the server itself: no flag changes any more, and no weak exchange fails for no
reason. -/
def isOwn : Lbl α ρ β → Bool
  | .flags _ => false
  | .loop (.tryAcquire _ _ _ spurious) | .loop (.drop _ _ spurious) => !spurious
  | .worker _ (.drop _ spurious) | .worker _ (.handlerDrop _ _ spurious) => !spurious
  | _ => true

/-- Where a cancellation by `close` takes effect. With tokio `TaskHandle::cancel` aborts the task
itself, wherever it awaits. With async-std the handle of a task that was submitted from another
thread is the handle of the relay that is to start it: the cancellation ends a task that has not
been started, and no other. -/
def Cancels (runtime : Startup.Runtime) : Lbl α ρ β → St α ρ β → Prop
  | .loop .abort, s => runtime = .tokio ∨ s.pc = .submitted
  | .loop (.abortSending _ _), _ => runtime = .tokio
  | .worker w .abort, s => runtime = .tokio ∨ (s.worker w).pc = .submitted
  | _, _ => True

/-- The server left to itself, with the cancellations of the runtime. -/
def closing (runtime : Startup.Runtime) (L : SimulatedLoop α ρ β) (n : ℕ) (max : Option ℕ) :
    Lts.Sys (St α ρ β) (Lbl α ρ β) :=
  (server L n max).restrict fun l s => isOwn l = true ∧ Cancels runtime l s

/-- The receiving loop gets something, or an error. -/
def isReceive : Lbl α ρ β → Bool
  | .loop (.recv _ _) | .loop .recvErr => true
  | _ => false

/-- The closed server without peers. -/
def unattended (runtime : Startup.Runtime) (L : SimulatedLoop α ρ β) (n : ℕ) (max : Option ℕ) :
    Lts.Sys (St α ρ β) (Lbl α ρ β) :=
  (closing runtime L n max).restrict fun l _ => isReceive l = false

/-! ## What is left -/

/-- What the dispatch task, each queued item and each handler of a worker count for. -/
def Worker.weigh (task : DispatchPc β → ℕ) (item : ℕ) (handler : Handler β → ℕ) (k : Worker β) :
    ℕ :=
  task k.pc + item * k.queue.length + (k.handlers.map handler).sum

def DispatchPc.holders : DispatchPc β → ℕ
  | .check _ | .spawning _ | .dropping _ => 1
  | _ => 0

def DispatchPc.unsettled : DispatchPc β → ℕ
  | .check _ | .spawning _ => 1
  | .dropping pc => pc.unsettled
  | _ => 0

/-- With an item in hand: it is dropped, or it becomes a handler. -/
def DispatchPc.work (limit : WorkerConcurrencyLimit) : DispatchPc β → ℕ
  -- the flag is cleared, so a checked item is dropped
  | .check _ => 4
  -- a handler has four steps ahead of it, and the task goes back to its head
  | .spawning _ => 6
  | .dropping pc => dropWork limit pc
  | _ => 0

/-- Without an item in hand. -/
def DispatchPc.idle : DispatchPc β → ℕ
  | .submitted => 2
  | .head | .receiving => 1
  | _ => 0

/-- The users of the limit of a worker, without the receiving loop. -/
def Worker.holders (k : Worker β) : ℕ := k.weigh DispatchPc.holders 1 fun _ => 1

def Worker.unsettled (k : Worker β) : ℕ := k.weigh DispatchPc.unsettled 1 Handler.unsettled

/-- A queued item is received and checked, and then dropped. -/
def Worker.work (k : Worker β) : ℕ :=
  k.weigh (DispatchPc.work k.limit) 5 (Handler.work k.limit)

def LoopPc.holders {κ : Type} : LoopPc κ β → ℕ
  | .routing _ | .trying _ _ _ | .sending _ _ | .dropping _ _ => 1
  | _ => 0

/-- A permit that is still to be taken is also to be given back. -/
def LoopPc.unsettled {κ : Type} : LoopPc κ β → ℕ
  | .routing _ | .trying _ _ _ => 2
  | .sending _ _ => 1
  | .dropping _ pc => pc.unsettled
  | _ => 0

def LoopPc.idle {κ : Type} : LoopPc κ β → ℕ
  | .submitted | .receiving => 3
  | .check .runtime _ => 2
  | .check .server _ => 1
  | _ => 0

/-- The receiving loop with an item in hand. -/
def loopWork (s : St α ρ β) : ℕ :=
  match s.pc with
  | .routing _ => 13
  | .trying w _ pc => 8 + tryWork (s.worker w).limit pc
  -- five steps for the item in its queue, and two for the next turn of the loop
  | .sending _ _ => 8
  | .dropping w pc => dropWork (s.worker w).limit pc
  | _ => 0

def holders (n : ℕ) (s : St α ρ β) : ℕ :=
  s.pc.holders + ∑ w ∈ Finset.range n, (s.worker w).holders

def unsettled (n : ℕ) (s : St α ρ β) : ℕ :=
  s.pc.unsettled + ∑ w ∈ Finset.range n, (s.worker w).unsettled

def work (n : ℕ) (s : St α ρ β) : ℕ := loopWork s + ∑ w ∈ Finset.range n, (s.worker w).work

def idle (n : ℕ) (s : St α ρ β) : ℕ :=
  s.pc.idle + ∑ w ∈ Finset.range n, (s.worker w).pc.idle

/-- The steps that a closed server has ahead of it. -/
def closingRank (n : ℕ) (s : St α ρ β) : ℕ :=
  Lts.contended 13 (holders n s) (unsettled n s) (work n s + idle n s)

/-! ## Bounds -/

theorem Worker.weigh_le {task task' : DispatchPc β → ℕ} {item item' m : ℕ}
    {handler handler' : Handler β → ℕ} (htask : ∀ pc, task pc ≤ m * task' pc)
    (hitem : item ≤ m * item') (hhandler : ∀ x, handler x ≤ m * handler' x) (k : Worker β) :
    k.weigh task item handler ≤ m * k.weigh task' item' handler' := by
  have htask := htask k.pc
  have hqueue : item * k.queue.length ≤ m * (item' * k.queue.length) := by
    rw [← Nat.mul_assoc]
    exact Nat.mul_le_mul_right _ hitem
  have hsum := Handler.sum_le handler handler' m hhandler k.handlers
  unfold Worker.weigh
  rw [Nat.mul_add, Nat.mul_add]
  omega

theorem Worker.work_le (k : Worker β) : k.work ≤ 13 * k.holders := by
  refine Worker.weigh_le ?_ (by decide) ?_ k
  · intro pc
    cases pc with
    | dropping pc =>
        have hdrop := dropWork_le k.limit pc
        simp only [DispatchPc.work, DispatchPc.holders]
        omega
    | submitted | head | receiving | check x | spawning x | exited =>
        simp [DispatchPc.work, DispatchPc.holders]
  · intro x
    have hx := Handler.work_le k.limit x
    omega

theorem loopWork_le (s : St α ρ β) : loopWork s ≤ 13 * s.pc.holders := by
  cases hpc : s.pc with
  | trying w x pc =>
      have htry := tryWork_le (s.worker w).limit pc
      simp only [loopWork, hpc, LoopPc.holders]
      omega
  | dropping w pc =>
      have hdrop := dropWork_le (s.worker w).limit pc
      simp only [loopWork, hpc, LoopPc.holders]
      omega
  | submitted | check c site | receiving | routing x | sending w item | exited =>
      simp [loopWork, hpc, LoopPc.holders]

/-- Every user of a limit has at most thirteen steps ahead of it when nobody interferes. -/
theorem work_le (n : ℕ) (s : St α ρ β) : work n s ≤ 13 * holders n s := by
  have hloop := loopWork_le s
  have hsum : ∑ w ∈ Finset.range n, (s.worker w).work ≤
      13 * ∑ w ∈ Finset.range n, (s.worker w).holders := by
    rw [Finset.mul_sum]
    exact Finset.sum_le_sum fun w _ => (s.worker w).work_le
  unfold work holders
  rw [Nat.mul_add]
  omega

theorem Worker.unsettled_le (k : Worker β) : k.unsettled ≤ 2 * k.holders := by
  refine Worker.weigh_le ?_ (by decide) ?_ k
  · intro pc
    cases pc with
    | dropping pc =>
        have hdrop := pc.unsettled_le
        simp only [DispatchPc.unsettled, DispatchPc.holders]
        omega
    | submitted | head | receiving | check x | spawning x | exited =>
        simp [DispatchPc.unsettled, DispatchPc.holders]
  · intro x
    have hx := x.unsettled_le
    omega

theorem unsettled_le (n : ℕ) (s : St α ρ β) : unsettled n s ≤ 2 * holders n s := by
  have hloop : s.pc.unsettled ≤ 2 * s.pc.holders := by
    cases s.pc with
    | dropping w pc =>
        have hdrop := pc.unsettled_le
        simp only [LoopPc.unsettled, LoopPc.holders]
        omega
    | submitted | check c site | receiving | routing x | trying w x pc | sending w item | exited =>
        simp [LoopPc.unsettled, LoopPc.holders]
  have hsum : ∑ w ∈ Finset.range n, (s.worker w).unsettled ≤
      2 * ∑ w ∈ Finset.range n, (s.worker w).holders := by
    rw [Finset.mul_sum]
    exact Finset.sum_le_sum fun w _ => (s.worker w).unsettled_le
  unfold unsettled holders
  rw [Nat.mul_add]
  omega

theorem idle_le (n : ℕ) (s : St α ρ β) : idle n s ≤ 3 + 2 * n := by
  have hloop : s.pc.idle ≤ 3 := by
    rcases s.pc with _ | ⟨c, site⟩ | _ | _ | _ | _ | _ | _
    case check => cases c <;> simp [LoopPc.idle]
    all_goals simp [LoopPc.idle]
  have hworker : ∀ w ∈ Finset.range n, (s.worker w).pc.idle ≤ 2 := by
    intro w _
    cases (s.worker w).pc <;> simp [DispatchPc.idle]
  have hsum := Finset.sum_le_card_nsmul (Finset.range n) _ 2 hworker
  rw [Finset.card_range, smul_eq_mul, Nat.mul_comm] at hsum
  unfold idle
  omega

/-- The steps that are left, in terms of the permits. -/
theorem closingRank_le (n : ℕ) (s : St α ρ β) :
    closingRank n s ≤ 26 * holders n s ^ 2 + 13 * holders n s + (3 + 2 * n) := by
  have hunsettled : 13 * holders n s * unsettled n s ≤ 13 * holders n s * (2 * holders n s) :=
    Nat.mul_le_mul_left _ (unsettled_le n s)
  have hsquare : 13 * holders n s * (2 * holders n s) = 26 * holders n s ^ 2 := by ring
  have hwork := work_le n s
  have hidle := idle_le n s
  unfold closingRank Lts.contended
  omega

/-! ## Two kinds of progress -/

section Rank

variable {n : ℕ} {s s' : St α ρ β}

theorem rank_own (hholders : holders n s' ≤ holders n s)
    (hunsettled : unsettled n s' ≤ unsettled n s)
    (hwork : work n s' + idle n s' < work n s + idle n s) :
    closingRank n s' < closingRank n s :=
  Lts.contended_own (g := 0) hholders hunsettled hwork

/-- After an exchange all work may have changed. -/
theorem rank_turn (hholders : holders n s' ≤ holders n s)
    (hunsettled : unsettled n s' < unsettled n s)
    (hidle : idle n s' ≤ idle n s) (hpos : 0 < work n s) : closingRank n s' < closingRank n s := by
  have hwork := work_le n s'
  refine Lts.contended_turn hholders hunsettled ?_
  omega

variable {w : ℕ} {k : Worker β}

theorem loopWork_setWorker (hsame : SameWork (s.worker w).limit k.limit) :
    loopWork (s.setWorker w k) = loopWork s := by
  have hlimit : ∀ u, SameWork (s.worker u).limit ((s.setWorker w k).worker u).limit := by
    intro u
    by_cases hu : u = w
    · subst hu
      simpa [St.setWorker] using hsame
    · simpa [St.setWorker, Function.update_of_ne hu] using SameWork.refl _
  simp only [loopWork, (hlimit _).drops, (hlimit _).tries]
  rfl

/-- A sum over all workers when one of them changes. -/
theorem sum_setWorker (f : Worker β → ℕ) (hw : w < n) :
    ∑ u ∈ Finset.range n, f ((s.setWorker w k).worker u) + f (s.worker w) =
      ∑ u ∈ Finset.range n, f (s.worker u) + f k :=
  Lts.sum_update f n k hw

/-- A task of worker `w` gets on with its own work. -/
theorem worker_own (hw : w < n) (hsame : SameWork (s.worker w).limit k.limit)
    (hholders : k.holders ≤ (s.worker w).holders)
    (hunsettled : k.unsettled ≤ (s.worker w).unsettled)
    (hwork : k.work + k.pc.idle < (s.worker w).work + (s.worker w).pc.idle) :
    closingRank n (s.setWorker w k) < closingRank n s := by
  have hloop := loopWork_setWorker hsame
  have hsumH := sum_setWorker (s := s) (k := k) Worker.holders hw
  have hsumU := sum_setWorker (s := s) (k := k) Worker.unsettled hw
  have hsumW := sum_setWorker (s := s) (k := k) Worker.work hw
  have hsumI := sum_setWorker (s := s) (k := k) (fun k => k.pc.idle) hw
  refine rank_own ?_ ?_ ?_
  · exact Nat.add_le_add_left (by omega) s.pc.holders
  · exact Nat.add_le_add_left (by omega) s.pc.unsettled
  · have hidle : (s.setWorker w k).pc.idle = s.pc.idle := rfl
    simp only [work, idle, hloop, hidle]
    omega

/-- A task of worker `w` has its exchange. -/
theorem worker_turn (hw : w < n) (hholders : k.holders ≤ (s.worker w).holders)
    (hunsettled : k.unsettled < (s.worker w).unsettled) (hidle : k.pc.idle ≤ (s.worker w).pc.idle)
    (hpos : 0 < (s.worker w).work) : closingRank n (s.setWorker w k) < closingRank n s := by
  have hsumH := sum_setWorker (s := s) (k := k) Worker.holders hw
  have hsumU := sum_setWorker (s := s) (k := k) Worker.unsettled hw
  have hsumI := sum_setWorker (s := s) (k := k) (fun k => k.pc.idle) hw
  have hmem : (s.worker w).work ≤ ∑ u ∈ Finset.range n, (s.worker u).work :=
    Finset.single_le_sum (f := fun u => (s.worker u).work) (fun _ _ => Nat.zero_le _)
      (Finset.mem_range.mpr hw)
  refine rank_turn ?_ ?_ ?_ ?_
  · exact Nat.add_le_add_left (by omega) s.pc.holders
  · exact Nat.add_lt_add_left (by omega) s.pc.unsettled
  · exact Nat.add_le_add_left (by omega) s.pc.idle
  · unfold work
    omega

/-- The dispatch task goes from one place to the next, with the same queue and handlers. -/
theorem worker_move (hw : w < n) {pc pc' : DispatchPc β} (hpc : (s.worker w).pc = pc)
    (hholders : pc'.holders ≤ pc.holders) (hunsettled : pc'.unsettled ≤ pc.unsettled)
    (hwork : pc'.work (s.worker w).limit + pc'.idle < pc.work (s.worker w).limit + pc.idle) :
    closingRank n (s.setWorker w { s.worker w with pc := pc' }) < closingRank n s := by
  subst hpc
  refine worker_own hw (.refl _) ?_ ?_ ?_
  · simp only [Worker.holders, Worker.weigh]
    omega
  · simp only [Worker.unsettled, Worker.weigh]
    omega
  · simp only [Worker.work, Worker.weigh]
    omega

/-- An item leaves the queue. -/
theorem worker_unqueue (hw : w < n) {x : Item β} (hx : (s.worker w).queue.head? = some x)
    {pc pc' : DispatchPc β} (hpc : (s.worker w).pc = pc) {handlers : List (Handler β)}
    (hholders : pc'.holders + (handlers.map fun _ => 1).sum ≤
      pc.holders + 1 + ((s.worker w).handlers.map fun _ => 1).sum)
    (hunsettled : pc'.unsettled + (handlers.map Handler.unsettled).sum ≤
      pc.unsettled + 1 + ((s.worker w).handlers.map Handler.unsettled).sum)
    (hwork : pc'.work (s.worker w).limit + pc'.idle +
        (handlers.map (Handler.work (s.worker w).limit)).sum <
      pc.work (s.worker w).limit + pc.idle + 5 +
        ((s.worker w).handlers.map (Handler.work (s.worker w).limit)).sum) :
    closingRank n (s.setWorker w { s.worker w with
      queue := (s.worker w).queue.tail, pc := pc', handlers := handlers }) < closingRank n s := by
  have hqueue : (s.worker w).queue = x :: (s.worker w).queue.tail := List.eq_cons_of_mem_head? hx
  have hlen := congrArg List.length hqueue
  rw [List.length_cons] at hlen
  subst hpc
  refine worker_own hw (.refl _) ?_ ?_ ?_
  · simp only [Worker.holders, Worker.weigh]
    omega
  · simp only [Worker.unsettled, Worker.weigh]
    omega
  · simp only [Worker.work, Worker.weigh]
    omega

theorem worker_spawn (hw : w < n) {x : Item β} (hpc : (s.worker w).pc = .spawning x)
    (spawned : List (Item β)) :
    closingRank n (s.setWorker w { s.worker w with
      pc := .head, handlers := .running x :: (s.worker w).handlers, spawned := spawned }) <
        closingRank n s := by
  refine worker_own hw (.refl _) ?_ ?_ ?_
  · simp only [Worker.holders, Worker.weigh, hpc, DispatchPc.holders, List.map_cons, List.sum_cons]
    omega
  · simp only [Worker.unsettled, Worker.weigh, hpc, DispatchPc.unsettled, List.map_cons,
      List.sum_cons, Handler.unsettled]
    omega
  · simp only [Worker.work, Worker.weigh, hpc, DispatchPc.work, DispatchPc.idle, List.map_cons,
      List.sum_cons, Handler.work]
    omega

/-- The limit of a worker only counts by the work of the drops. -/
theorem Worker.weigh_sameWork {limit limit' : WorkerConcurrencyLimit}
    (hsame : SameWork limit limit') :
    (DispatchPc.work limit' : DispatchPc β → ℕ) = DispatchPc.work limit ∧
      (Handler.work limit' : Handler β → ℕ) = Handler.work limit := by
  constructor
  · funext pc
    cases pc <;> simp only [DispatchPc.work, hsame.drops]
  · funext x
    cases x <;> simp only [Handler.work, hsame.drops]

/-- The dispatch task drops its permit. -/
theorem worker_drop (hw : w < n) {pc : DropPc} (hpc : (s.worker w).pc = .dropping pc) :
    closingRank n (s.setWorker w ((s.worker w).dropped ((s.worker w).limit.drop false pc))) <
      closingRank n s := by
  have hcases := dropLimit_cases (s.worker w).limit pc
  have hpos := dropWork_pos (s.worker w).limit pc
  -- the task goes on with the drop, or ends
  obtain ⟨pc', hdropped, hholders, hunsettled, hwork, hidle⟩ : ∃ pc' : DispatchPc β,
      (s.worker w).dropped ((s.worker w).limit.drop false pc) =
        { s.worker w with limit := ((s.worker w).limit.drop false pc).1, pc := pc' } ∧
      pc'.holders ≤ 1 ∧
      pc'.unsettled = ((s.worker w).limit.drop false pc).2.elim 0 DropPc.unsettled ∧
      (∀ limit, pc'.work limit = ((s.worker w).limit.drop false pc).2.elim 0 (dropWork limit)) ∧
      pc'.idle = 0 := by
    rcases (s.worker w).limit.drop false pc with ⟨limit, _ | next⟩
    · exact ⟨.exited, rfl, Nat.zero_le _, rfl, fun _ => rfl, rfl⟩
    · exact ⟨.dropping next, rfl, le_refl _, rfl, fun _ => rfl, rfl⟩
  rw [hdropped]
  have hholders₀ : (DispatchPc.dropping pc : DispatchPc β).holders = 1 := rfl
  have hunsettled₀ : (DispatchPc.dropping pc : DispatchPc β).unsettled = pc.unsettled := rfl
  have hwork₀ : ∀ limit, (DispatchPc.dropping pc : DispatchPc β).work limit = dropWork limit pc :=
    fun _ => rfl
  have hle : Worker.holders
      { s.worker w with limit := ((s.worker w).limit.drop false pc).1, pc := pc' } ≤
        (s.worker w).holders := by
    simp only [Worker.holders, Worker.weigh, hpc, hholders₀]
    omega
  rcases hcases with ⟨hsettle, ⟨hsame, hless⟩ | hless⟩
  · refine worker_own hw hsame hle ?_ ?_
    · simp only [Worker.unsettled, Worker.weigh, hpc, hunsettled₀, hunsettled]
      omega
    · rcases Worker.weigh_sameWork (β := β) hsame with ⟨htask, hhandler⟩
      have hzero : (DispatchPc.dropping pc : DispatchPc β).idle = 0 := rfl
      simp only [Worker.work, Worker.weigh, hpc, htask, hhandler]
      rw [hwork, hwork₀, hidle, hzero]
      omega
  · refine worker_turn hw hle ?_ ?_ ?_
    · simp only [Worker.unsettled, Worker.weigh, hpc, hunsettled₀, hunsettled]
      omega
    · simp only [hidle, Nat.zero_le]
    · simp only [Worker.work, Worker.weigh, hpc, hwork₀]
      omega

/-- The `i`-th handler of a worker ends. -/
theorem worker_handlerEnd (hw : w < n) {i : ℕ} {x : Item β}
    (hi : (s.worker w).handlers[i]? = some (.running x)) :
    closingRank n (s.setWorker w { s.worker w with
      handlers := Handler.set (s.worker w).handlers i (some .load) }) < closingRank n s := by
  rcases Handler.sum_end (s.worker w).limit hi with ⟨hH, hU, hW⟩
  refine worker_own hw (.refl _) ?_ ?_ ?_
  · exact Nat.add_le_add_left hH _
  · exact Nat.add_le_add_left hU _
  · exact Nat.add_lt_add_right (Nat.add_lt_add_left hW _) _

/-- The `i`-th handler of a worker drops its permit. -/
theorem worker_handlerDrop (hw : w < n) {i : ℕ} {pc : DropPc}
    (hi : (s.worker w).handlers[i]? = some (.dropping pc)) :
    closingRank n (s.setWorker w { s.worker w with
      limit := ((s.worker w).limit.drop false pc).1
      handlers := Handler.set (s.worker w).handlers i ((s.worker w).limit.drop false pc).2 }) <
        closingRank n s := by
  rcases Handler.sum_drop (s.worker w).limit hi with ⟨hH, ⟨hsame, hU, hW⟩ | ⟨hU, hpos⟩⟩
  · refine worker_own hw hsame ?_ ?_ ?_
    · exact Nat.add_le_add_left hH _
    · exact Nat.add_le_add_left hU _
    · rcases Worker.weigh_sameWork (β := β) hsame with ⟨htask, hhandler⟩
      simp only [Worker.work, Worker.weigh, htask, hhandler]
      omega
  · refine worker_turn hw ?_ ?_ (le_refl _) ?_
    · exact Nat.add_le_add_left hH _
    · exact Nat.add_lt_add_left hU _
    · simp only [Worker.work, Worker.weigh]
      omega

end Rank

/-! ## The steps of a closed server -/

theorem rank_workerStep {n w : ℕ} {s : St α ρ β} {l : WorkerLbl β} (hw : w < n)
    (hg : workerGuard s.flags s.pc l (s.worker w)) (hown : isOwn (.worker w l : Lbl α ρ β) = true)
    (hclosed : s.flags.serverActive = false) :
    closingRank n (s.setWorker w (workerUpdate s.flags l (s.worker w))) < closingRank n s := by
  have hload := dropWork_load (s.worker w).limit
  cases l with
  | start =>
      exact worker_move hw hg (Nat.zero_le _) (Nat.zero_le _)
        (by simp [DispatchPc.work, DispatchPc.idle])
  | load =>
      -- the task finds the flag cleared and ends
      simp only [workerUpdate, hclosed]
      exact worker_move hw hg (Nat.zero_le _) (Nat.zero_le _)
        (by simp [DispatchPc.work, DispatchPc.idle])
  | recv x =>
      refine worker_unqueue hw hg.2 hg.1 ?_ ?_ ?_
      · simp [DispatchPc.holders]
      · simp [DispatchPc.unsettled]
      · simp only [DispatchPc.work, DispatchPc.idle]
        omega
  | closed =>
      exact worker_move hw hg.1 (Nat.zero_le _) (Nat.zero_le _)
        (by simp [DispatchPc.work, DispatchPc.idle])
  | check x =>
      simp only [workerUpdate, hclosed]
      refine worker_move hw hg (le_refl _) (le_refl _) ?_
      simp only [DispatchPc.work, DispatchPc.idle]
      simp only [Bool.false_eq_true, if_false]
      omega
  | spawn x => exact worker_spawn hw hg _
  | spawnErr x =>
      refine worker_move hw hg (le_refl _) (le_refl _) ?_
      simp only [DispatchPc.work, DispatchPc.idle]
      omega
  | drop pc spurious =>
      cases spurious with
      | false => exact worker_drop hw hg
      | true => cases hown
  | abort =>
      rcases hg.2 with hpc | hpc
      · exact worker_move hw hpc (Nat.zero_le _) (Nat.zero_le _)
          (by simp [DispatchPc.work, DispatchPc.idle])
      · exact worker_move hw hpc (Nat.zero_le _) (Nat.zero_le _)
          (by simp [DispatchPc.work, DispatchPc.idle])
  | drain x =>
      -- the queue goes with its receiver, item by item, and each item with its permit
      refine worker_unqueue hw hg.2 rfl ?_ ?_ ?_
      · simp only [List.map_cons, List.sum_cons]
        omega
      · simp only [List.map_cons, List.sum_cons, Handler.unsettled]
        have hlive : DropPc.unsettled .load = 1 := rfl
        omega
      · simp only [List.map_cons, List.sum_cons, Handler.work]
        omega
  | handlerEnd i x => exact worker_handlerEnd hw hg
  | handlerDrop i pc spurious =>
      cases spurious with
      | false => exact worker_handlerDrop hw hg
      | true => cases hown

section LoopSteps

variable {L : SimulatedLoop α ρ β} {n : ℕ} {s s' : St α ρ β}

/-- The workers have the same tasks; their limits may differ. -/
structure SameTasks (s s' : St α ρ β) : Prop where
  holders : ∀ u, (s'.worker u).holders = (s.worker u).holders
  unsettled : ∀ u, (s'.worker u).unsettled = (s.worker u).unsettled
  idle : ∀ u, (s'.worker u).pc.idle = (s.worker u).pc.idle

theorem sameTasks_of_eq (h : s'.worker = s.worker) : SameTasks s s' := by
  constructor <;> intro u <;> rw [h]

theorem sameTasks_setLimit (w : ℕ) (limit : WorkerConcurrencyLimit)
    (h : s'.worker = (s.setWorker w { s.worker w with limit := limit }).worker) :
    SameTasks s s' := by
  have htask : ∀ u, (s'.worker u).pc = (s.worker u).pc ∧ (s'.worker u).queue = (s.worker u).queue ∧
      (s'.worker u).handlers = (s.worker u).handlers := by
    intro u
    rw [h]
    by_cases hu : u = w
    · subst hu
      simp [St.setWorker]
    · simp [St.setWorker, Function.update_of_ne hu]
  constructor <;> intro u <;> rcases htask u with ⟨hpc, hqueue, hhandlers⟩
  · simp only [Worker.holders, Worker.weigh, hpc, hqueue, hhandlers]
  · simp only [Worker.unsettled, Worker.weigh, hpc, hqueue, hhandlers]
  · rw [hpc]

/-- The receiving loop gets on with its own work. -/
theorem loop_own (htasks : SameTasks s s')
    (hworkers : ∀ u, (s'.worker u).work = (s.worker u).work)
    (hholders : s'.pc.holders ≤ s.pc.holders) (hunsettled : s'.pc.unsettled ≤ s.pc.unsettled)
    (hwork : loopWork s' + s'.pc.idle < loopWork s + s.pc.idle) :
    closingRank n s' < closingRank n s := by
  refine rank_own ?_ ?_ ?_
  · simp only [holders, htasks.holders]
    omega
  · simp only [unsettled, htasks.unsettled]
    omega
  · simp only [work, idle, hworkers, htasks.idle]
    omega

/-- The receiving loop has its exchange. -/
theorem loop_turn (htasks : SameTasks s s') (hholders : s'.pc.holders ≤ s.pc.holders)
    (hunsettled : s'.pc.unsettled < s.pc.unsettled) (hidle : s'.pc.idle ≤ s.pc.idle)
    (hpos : 0 < loopWork s) : closingRank n s' < closingRank n s := by
  refine rank_turn ?_ ?_ ?_ ?_
  · simp only [holders, htasks.holders]
    omega
  · simp only [unsettled, htasks.unsettled]
    omega
  · simp only [idle, htasks.idle]
    omega
  · unfold work
    omega

/-- A move of the receiving loop that touches no worker. -/
theorem loop_move (hworkers : s'.worker = s.worker) (hholders : s'.pc.holders ≤ s.pc.holders)
    (hunsettled : s'.pc.unsettled ≤ s.pc.unsettled)
    (hwork : loopWork s' + s'.pc.idle < loopWork s + s.pc.idle) :
    closingRank n s' < closingRank n s :=
  loop_own (sameTasks_of_eq hworkers) (fun u => by rw [hworkers]) hholders hunsettled hwork

/-- A flag that is read as cleared ends the loop. -/
theorem loop_load {c : Check} {site : Site (Received α ρ)} (hpc : s.pc = .check c site)
    (hclosed : s.flags.serverActive = false) :
    closingRank n (s.load site c (s.flags.get c)) < closingRank n s := by
  cases c with
  | server =>
      have hget : s.flags.get .server = false := hclosed
      rw [hget]
      refine loop_move rfl (Nat.zero_le _) (Nat.zero_le _) ?_
      simp [hpc, loopWork, St.load, LoopPc.idle]
  | runtime =>
      cases s.flags.get .runtime with
      | false =>
          refine loop_move rfl (Nat.zero_le _) (Nat.zero_le _) ?_
          simp [hpc, loopWork, St.load, LoopPc.idle]
      | true =>
          refine loop_move rfl (Nat.zero_le _) (Nat.zero_le _) ?_
          simp [hpc, loopWork, St.load, LoopPc.idle]

theorem loop_route {x : Received α ρ} (hpc : s.pc = .routing x) (route : Route) :
    closingRank n (s.routed n x route) < closingRank n s := by
  cases route with
  | skip =>
      refine loop_move rfl (Nat.zero_le _) (Nat.zero_le _) ?_
      simp [hpc, loopWork, St.routed, St.next, LoopPc.idle]
  | stop =>
      refine loop_move rfl (Nat.zero_le _) (Nat.zero_le _) ?_
      simp [hpc, loopWork, St.routed, LoopPc.idle]
  | worker w =>
      simp only [St.routed]
      split
      · have htry := tryWork_le (s.worker w).limit .load
        refine loop_move rfl ?_ ?_ ?_
        · simp [hpc, LoopPc.holders]
        · simp [hpc, LoopPc.unsettled]
        · simp only [hpc, loopWork, LoopPc.idle]
          omega
      · refine loop_move rfl (Nat.zero_le _) (Nat.zero_le _) ?_
        simp [hpc, loopWork, LoopPc.idle]

theorem loop_tryAcquire {w : ℕ} {x : Received α ρ} {pc : TryPc} (hpc : s.pc = .trying w x pc) :
    closingRank n (loopUpdate L n (.tryAcquire w x pc false) s) < closingRank n s := by
  have hwork : loopWork s = 8 + tryWork (s.worker w).limit pc := by
    simp only [loopWork, hpc]
  have htasks : SameTasks s (loopUpdate L n (.tryAcquire w x pc false) s) :=
    sameTasks_setLimit w ((s.worker w).limit.tryAcquire false pc).1 (by
      funext u
      simp only [loopUpdate, worker_tried])
  rcases tryLimit_cases (s.worker w).limit pc with hgot | ⟨hlimit, hnext⟩
  · -- the permit is taken, and is still to be given back
    have hsending : (loopUpdate L n (.tryAcquire w x pc false) s).pc =
        .sending w (itemOf L s.buffer x) := by
      simp only [loopUpdate, hgot]
      rfl
    refine loop_turn htasks ?_ ?_ ?_ ?_
    · simp [hsending, hpc, LoopPc.holders]
    · simp [hsending, hpc, LoopPc.unsettled]
    · simp [hsending, LoopPc.idle]
    · omega
  · have hworker : ∀ next, (St.tried L (s.setWorker w { s.worker w with
        limit := (s.worker w).limit }) w x next).worker = s.worker := by
      intro next
      funext u
      simp [worker_tried, St.setWorker]
    simp only [loopUpdate, hlimit]
    rcases hnext with ⟨active, hfull⟩ | ⟨pc', hmore, hless⟩
    · rw [hfull]
      refine loop_move (hworker _) (Nat.zero_le _) (Nat.zero_le _) ?_
      simp only [St.tried, St.next, loopWork, hpc, LoopPc.idle]
      omega
    · rw [hmore]
      refine loop_move (hworker _) ?_ ?_ ?_
      · simp [St.tried, hpc, LoopPc.holders]
      · simp [St.tried, hpc, LoopPc.unsettled]
      · have hsame : loopWork (St.tried L (s.setWorker w { s.worker w with
            limit := (s.worker w).limit }) w x (.more pc')) =
              8 + tryWork (s.worker w).limit pc' := by
          have hlimit' := congrFun (hworker (.more pc')) w
          simp only [loopWork, St.tried] at hlimit' ⊢
          rw [hlimit']
        rw [hsame, hwork, hpc]
        simp only [St.tried, LoopPc.idle]
        omega

/-- A sent item is work for its worker. -/
theorem loop_send {w : ℕ} {item : Item β} (hpc : s.pc = .sending w item) :
    closingRank n (loopUpdate L n (.send w item) s) < closingRank n s := by
  have hwork : loopWork s = 8 := by
    simp only [loopWork, hpc]
  have hH : Worker.holders { s.worker w with queue := (s.worker w).queue ++ [item] } =
      (s.worker w).holders + 1 := by
    simp only [Worker.holders, Worker.weigh, List.length_append, List.length_singleton]
    omega
  have hU : Worker.unsettled { s.worker w with queue := (s.worker w).queue ++ [item] } =
      (s.worker w).unsettled + 1 := by
    simp only [Worker.unsettled, Worker.weigh, List.length_append, List.length_singleton]
    omega
  have hW : Worker.work { s.worker w with queue := (s.worker w).queue ++ [item] } =
      (s.worker w).work + 5 := by
    simp only [Worker.work, Worker.weigh, List.length_append, List.length_singleton]
    omega
  have hsumH := Lts.sum_update_le Worker.holders n hH
  have hsumU := Lts.sum_update_le Worker.unsettled n hU
  have hsumW := Lts.sum_update_le Worker.work n hW
  have hsumI := Lts.sum_update_le (g := s.worker) (w := w) (fun k => k.pc.idle) n (m := 0)
    (k := { s.worker w with queue := (s.worker w).queue ++ [item] }) rfl
  refine rank_own ?_ ?_ ?_
  · have hone : s.pc.holders = 1 := by
      simp only [hpc, LoopPc.holders]
    unfold holders
    rw [hone]
    exact (Nat.add_le_add_left hsumH 0).trans (by omega)
  · have hone : s.pc.unsettled = 1 := by
      simp only [hpc, LoopPc.unsettled]
    unfold unsettled
    rw [hone]
    exact (Nat.add_le_add_left hsumU 0).trans (by omega)
  · have hzero : s.pc.idle = 0 := by
      simp only [hpc, LoopPc.idle]
    unfold work idle
    rw [hwork, hzero]
    have hloop : loopWork (loopUpdate L n (.send w item) s) = 0 := rfl
    have hidle : (loopUpdate L n (.send w item) s).pc.idle = 2 := rfl
    rw [hloop, hidle]
    refine Nat.lt_of_le_of_lt
      (Nat.add_le_add (Nat.add_le_add_left hsumW 0) (Nat.add_le_add_left hsumI 2)) ?_
    omega

/-- An item that could not be sent is dropped. -/
theorem loop_unsent {w : ℕ} {item : Item β} (hpc : s.pc = .sending w item) :
    closingRank n ({ s with pc := .dropping w .load } : St α ρ β) < closingRank n s := by
  have hload := dropWork_load (s.worker w).limit
  refine loop_move rfl ?_ ?_ ?_
  · simp [hpc, LoopPc.holders]
  · simp [hpc, LoopPc.unsettled, DropPc.unsettled, DropPc.live]
  · simp only [loopWork, hpc, LoopPc.idle]
    omega

theorem loop_drop {w : ℕ} {pc : DropPc} (hpc : s.pc = .dropping w pc) :
    closingRank n (loopUpdate L n (.drop w pc false) s) < closingRank n s := by
  have hwork : loopWork s = dropWork (s.worker w).limit pc := by
    simp only [loopWork, hpc]
  have hpos := dropWork_pos (s.worker w).limit pc
  have hworker : (loopUpdate L n (.drop w pc false) s).worker =
      (s.setWorker w { s.worker w with limit := ((s.worker w).limit.drop false pc).1 }).worker := by
    funext u
    simp only [loopUpdate, worker_dropped]
  have htasks := sameTasks_setLimit w _ hworker
  have hidle : (loopUpdate L n (.drop w pc false) s).pc.idle ≤ 0 := by
    simp only [loopUpdate]
    cases ((s.worker w).limit.drop false pc).2 <;> exact le_refl _
  have hholders : (loopUpdate L n (.drop w pc false) s).pc.holders ≤ s.pc.holders := by
    rw [hpc]
    simp only [loopUpdate]
    cases ((s.worker w).limit.drop false pc).2
    · exact Nat.zero_le _
    · exact le_refl _
  have hunsettled : (loopUpdate L n (.drop w pc false) s).pc.unsettled =
      ((s.worker w).limit.drop false pc).2.elim 0 DropPc.unsettled := by
    simp only [loopUpdate]
    cases ((s.worker w).limit.drop false pc).2 <;> rfl
  have hunsettled₀ : s.pc.unsettled = pc.unsettled := by
    simp only [hpc, LoopPc.unsettled]
  rcases dropLimit_cases (s.worker w).limit pc with ⟨hsettle, ⟨hsame, hless⟩ | hless⟩
  · refine loop_own htasks ?_ hholders (by omega) ?_
    · intro u
      rw [hworker]
      by_cases hu : u = w
      · subst hu
        rcases Worker.weigh_sameWork (β := β) hsame with ⟨htask, hhandler⟩
        simp only [St.setWorker, Function.update_self, Worker.work, Worker.weigh, htask, hhandler]
      · simp only [St.setWorker, Function.update_of_ne hu]
    · have hloop : loopWork (loopUpdate L n (.drop w pc false) s) =
          ((s.worker w).limit.drop false pc).2.elim 0 (dropWork (s.worker w).limit) := by
        simp only [loopUpdate]
        cases ((s.worker w).limit.drop false pc).2 with
        | none => rfl
        | some next =>
            simp only [St.dropped, loopWork, St.setWorker, Function.update_self, hsame.drops]
            rfl
      have hzero : s.pc.idle = 0 := by
        simp only [hpc, LoopPc.idle]
      omega
  · exact loop_turn htasks hholders (by omega) (hidle.trans (Nat.zero_le _)) (by omega)

theorem rank_loopStep {l : LoopLbl α ρ β} (hg : loopGuard L l s)
    (hown : isOwn (.loop l : Lbl α ρ β) = true) (hclosed : s.flags.serverActive = false) :
    closingRank n (loopUpdate L n l s) < closingRank n s := by
  cases l with
  | start =>
      refine loop_move rfl (Nat.zero_le _) (Nat.zero_le _) ?_
      simp [loopUpdate, loopWork, show s.pc = .submitted from hg, LoopPc.idle]
  | startErr =>
      refine loop_move rfl (Nat.zero_le _) (Nat.zero_le _) ?_
      simp [loopUpdate, loopWork, show s.pc = .submitted from hg, LoopPc.idle]
  | load c site => exact loop_load hg hclosed
  | recv origin a =>
      refine loop_move rfl (Nat.zero_le _) (Nat.zero_le _) ?_
      simp [loopUpdate, loopWork, hg.1, LoopPc.idle]
  | recvErr =>
      -- a TCP loop ends on an error, a UDP loop looks at the flags first
      refine loop_move rfl ?_ ?_ ?_
      all_goals
        simp only [loopUpdate, loopWork, show s.pc = .receiving from hg]
        cases L.retriesOnError <;> simp [LoopPc.holders, LoopPc.unsettled, LoopPc.idle]
  | route x => exact loop_route hg _
  | tryAcquire w x pc spurious =>
      cases spurious with
      | false => exact loop_tryAcquire hg
      | true => cases hown
  | send w item => exact loop_send hg.1
  | sendErr w item => exact loop_unsent hg.1
  | drop w pc spurious =>
      cases spurious with
      | false => exact loop_drop hg
      | true => cases hown
  | abort =>
      rcases hg.2 with hpc | hpc
      · refine loop_move rfl (Nat.zero_le _) (Nat.zero_le _) ?_
        simp [loopUpdate, loopWork, hpc, LoopPc.idle]
      · refine loop_move rfl (Nat.zero_le _) (Nat.zero_le _) ?_
        simp [loopUpdate, loopWork, hpc, LoopPc.idle]
  | abortSending w item => exact loop_unsent hg.2

end LoopSteps

/-- Every step of a closed server lowers its rank. -/
theorem ranked_closing (runtime : Startup.Runtime) (L : SimulatedLoop α ρ β) (n : ℕ)
    (max : Option ℕ) :
    Lts.Ranked (closing runtime L n max) (fun s => s.flags.serverActive = false)
      (closingRank n) where
  keeps := by
    rintro l s ⟨_, hown, _⟩ hclosed
    cases l with
    | flags l => cases hown
    | loop l =>
        show (loopUpdate L n l s).flags.serverActive = false
        rw [flags_loopUpdate]
        exact hclosed
    | worker w l => exact hclosed
  lowers := by
    rintro l s ⟨hg, hown, _⟩ hclosed
    cases l with
    | flags l => cases hown
    | loop l => exact rank_loopStep hg hown hclosed
    | worker w l => exact rank_workerStep hg.1 hg.2 hown hclosed

/-! ## At rest -/

/-- Every loop has ended, and nothing is queued or running. -/
structure AtRest (n : ℕ) (s : St α ρ β) : Prop where
  loop : s.pc = .exited
  workers : ∀ w < n, (s.worker w).pc = .exited ∧ (s.worker w).queue = [] ∧
    (s.worker w).handlers = []

/-- Nothing is queued or running, but a loop may wait in its receive. -/
structure Quiet (n : ℕ) (s : St α ρ β) : Prop where
  loop : s.pc = .exited ∨ s.pc = .receiving
  workers : ∀ w < n, ((s.worker w).pc = .exited ∨ (s.worker w).pc = .receiving) ∧
    (s.worker w).queue = [] ∧ (s.worker w).handlers = []

section AtRest

variable {runtime : Startup.Runtime} {L : SimulatedLoop α ρ β} {n : ℕ} {max : Option ℕ}
  {s : St α ρ β}

/-- The worker whose permit the receiving loop deals with. -/
def LoopPc.worker? {κ β : Type} : LoopPc κ β → Option ℕ
  | .trying w _ _ | .sending w _ | .dropping w _ => some w
  | _ => none

/-- The receiving loop deals with the workers of the server only. -/
theorem worker?_loopUpdate {l : LoopLbl α ρ β} (hg : loopGuard L l s)
    (h : ∀ w, s.pc.worker? = some w → w < n) {w : ℕ}
    (hw : (loopUpdate L n l s).pc.worker? = some w) : w < n := by
  cases l with
  | start | startErr | recv _ _ | send _ _ | abort => cases hw
  | recvErr =>
      simp only [loopUpdate] at hw
      split at hw <;> cases hw
  | load c site =>
      simp only [loopUpdate] at hw
      cases hflag : s.flags.get c with
      | false => simp [hflag, St.load, LoopPc.worker?] at hw
      | true => cases c <;> cases site <;> simp [hflag, St.load, St.proceed, LoopPc.worker?] at hw
  | route x =>
      simp only [loopUpdate] at hw
      cases hroute : L.route s.buffer x.recv n with
      | skip => simp [hroute, St.routed, St.next, LoopPc.worker?] at hw
      | stop => simp [hroute, St.routed, LoopPc.worker?] at hw
      | worker v =>
          simp only [hroute, St.routed] at hw
          split at hw
          · rename_i hv
            cases hw
            exact hv
          · cases hw
  | tryAcquire v x pc spurious =>
      have hv : v < n := h v (by rw [show s.pc = .trying v x pc from hg]; rfl)
      simp only [loopUpdate] at hw
      cases htry : ((s.worker v).limit.tryAcquire spurious pc).2 with
      | more next =>
          rw [htry] at hw
          cases hw
          exact hv
      | full active =>
          rw [htry] at hw
          cases hw
      | got =>
          rw [htry] at hw
          cases hw
          exact hv
  | sendErr v item =>
      obtain rfl : v = w := Option.some.inj hw
      exact h v (by rw [hg.1]; rfl)
  | drop v pc spurious =>
      have hv : v < n := h v (by rw [show s.pc = .dropping v pc from hg]; rfl)
      simp only [loopUpdate] at hw
      cases hdrop : ((s.worker v).limit.drop spurious pc).2 with
      | none =>
          rw [hdrop] at hw
          cases hw
      | some next =>
          rw [hdrop] at hw
          cases hw
          exact hv
  | abortSending v item =>
      obtain rfl : v = w := Option.some.inj hw
      exact h v (by rw [hg.2]; rfl)

theorem reachable_worker? (hs : (server L n max).Reachable s) {w : ℕ}
    (hw : s.pc.worker? = some w) : w < n := by
  refine (server L n max).invariant (fun t => ∀ w, t.pc.worker? = some w → w < n) ?_ ?_ s hs w hw
  · rintro w ⟨⟩
  · intro l t hg h
    cases l with
    | flags l => exact h
    | loop l => exact fun w => worker?_loopUpdate hg h
    | worker v l => exact h

/-- A worker stops with an empty queue and without handlers. -/
theorem worker_of_stuck (hstuck : (unattended runtime L n max).Stuck s) {w : ℕ} (hw : w < n) :
    ((s.worker w).pc = .exited ∨ (s.worker w).pc = .receiving) ∧ (s.worker w).queue = [] ∧
      (s.worker w).handlers = [] := by
  have hpc : (s.worker w).pc = .exited ∨ (s.worker w).pc = .receiving := by
    cases hpc : (s.worker w).pc with
    | exited => exact Or.inl rfl
    | receiving => exact Or.inr rfl
    | submitted => exact absurd ⟨⟨⟨hw, hpc⟩, rfl, trivial⟩, rfl⟩ (hstuck (.worker w .start))
    | head => exact absurd ⟨⟨⟨hw, hpc⟩, rfl, trivial⟩, rfl⟩ (hstuck (.worker w .load))
    | check x => exact absurd ⟨⟨⟨hw, hpc⟩, rfl, trivial⟩, rfl⟩ (hstuck (.worker w (.check x)))
    | spawning x => exact absurd ⟨⟨⟨hw, hpc⟩, rfl, trivial⟩, rfl⟩ (hstuck (.worker w (.spawn x)))
    | dropping pc =>
        exact absurd ⟨⟨⟨hw, hpc⟩, rfl, trivial⟩, rfl⟩ (hstuck (.worker w (.drop pc false)))
  refine ⟨hpc, ?_, ?_⟩
  · cases hqueue : (s.worker w).queue with
    | nil => rfl
    | cons x rest =>
        have hhead : (s.worker w).queue.head? = some x := by
          rw [hqueue]
          rfl
        -- a queue that is left behind is drained, any other is received from
        rcases hpc with hpc | hpc
        · exact absurd ⟨⟨⟨hw, hpc, hhead⟩, rfl, trivial⟩, rfl⟩ (hstuck (.worker w (.drain x)))
        · exact absurd ⟨⟨⟨hw, hpc, hhead⟩, rfl, trivial⟩, rfl⟩ (hstuck (.worker w (.recv x)))
  · cases hhandlers : (s.worker w).handlers with
    | nil => rfl
    | cons handler rest =>
        have hfirst : (s.worker w).handlers[0]? = some handler := by
          rw [hhandlers]
          rfl
        cases handler with
        | running x =>
            exact absurd ⟨⟨⟨hw, hfirst⟩, rfl, trivial⟩, rfl⟩
              (hstuck (.worker w (.handlerEnd 0 x)))
        | dropping pc =>
            exact absurd ⟨⟨⟨hw, hfirst⟩, rfl, trivial⟩, rfl⟩
              (hstuck (.worker w (.handlerDrop 0 pc false)))

/-- Without cancellations too, the receiving loop stops only for want of an arrival: the queue
that it sends to is emptied. -/
theorem loop_of_stuck (hs : (server L n max).Reachable s)
    (hstuck : (unattended runtime L n max).Stuck s) : s.pc = .exited ∨ s.pc = .receiving := by
  cases hpc : s.pc with
  | exited => exact Or.inl rfl
  | receiving => exact Or.inr rfl
  | submitted => exact absurd ⟨⟨hpc, rfl, trivial⟩, rfl⟩ (hstuck (.loop .start))
  | check c site => exact absurd ⟨⟨hpc, rfl, trivial⟩, rfl⟩ (hstuck (.loop (.load c site)))
  | routing x => exact absurd ⟨⟨hpc, rfl, trivial⟩, rfl⟩ (hstuck (.loop (.route x)))
  | trying w x pc =>
      exact absurd ⟨⟨hpc, rfl, trivial⟩, rfl⟩ (hstuck (.loop (.tryAcquire w x pc false)))
  | sending w item =>
      have hw : w < n := reachable_worker? hs (by rw [hpc]; rfl)
      have hroom : (s.worker w).queue.length < fallbackWorkQueueCapacity := by
        rw [(worker_of_stuck hstuck hw).2.1]
        simp [fallbackWorkQueueCapacity]
      exact absurd ⟨⟨⟨hpc, hroom⟩, rfl, trivial⟩, rfl⟩ (hstuck (.loop (.send w item)))
  | dropping w pc =>
      exact absurd ⟨⟨hpc, rfl, trivial⟩, rfl⟩ (hstuck (.loop (.drop w pc false)))

theorem quiet_of_stuck (hs : (server L n max).Reachable s)
    (hstuck : (unattended runtime L n max).Stuck s) : Quiet n s :=
  ⟨loop_of_stuck hs hstuck, fun _ hw => worker_of_stuck hstuck hw⟩

/-- Once the receiving loop has ended, its senders are gone, and the dispatch loops end. -/
theorem atRest_of_exited (hstuck : (unattended runtime L n max).Stuck s) (h : Quiet n s)
    (hloop : s.pc = .exited) : AtRest n s where
  loop := hloop
  workers := by
    intro w hw
    rcases h.workers w hw with ⟨hpc | hpc, hqueue, hhandlers⟩
    · exact ⟨hpc, hqueue, hhandlers⟩
    · exact absurd ⟨⟨⟨hw, hpc, hqueue, hloop⟩, rfl, trivial⟩, rfl⟩ (hstuck (.worker w .closed))

/-- A quiet server has all its permits back. -/
theorem active_of_quiet (hs : (server L n max).Reachable s) (h : Quiet n s) {w : ℕ}
    (hw : w < n) {c : ConcurrencyState} (hc : (s.worker w).limit = some c) : c.active = 0 := by
  rcases h.workers w hw with ⟨hpc, hqueue, hhandlers⟩
  refine (exact_of_limit hs hc).active_eq_zero ?_
  rw [Worker.share, hqueue, hhandlers]
  rcases h.loop with hloop | hloop <;> rcases hpc with hpc | hpc <;> rw [hloop, hpc] <;> rfl

end AtRest

/-- With async-std a closed server takes no more steps than with tokio. Once its peers are silent
it can go on until nothing is queued or running and every permit is back; but it stops there with
the receiving loop blocked in its receive, unless that loop has ended. -/
theorem simulated_winds_down_asyncStd {L : SimulatedLoop α ρ β} {n : ℕ} {max : Option ℕ}
    {s : St α ρ β} (hs : (server L n max).Reachable s) (hclosed : s.flags.serverActive = false)
    {tr : List (Lbl α ρ β)} {s' : St α ρ β} (hrun : (closing .asyncStd L n max).Run s tr s') :
    tr.length ≤ 26 * holders n s ^ 2 + 13 * holders n s + (3 + 2 * n) ∧
      (∃ rest s'', (unattended .asyncStd L n max).Run s' rest s'' ∧
        (unattended .asyncStd L n max).Stuck s'') ∧
      ((unattended .asyncStd L n max).Stuck s' → Quiet n s' ∧ (s'.pc = .exited → AtRest n s') ∧
        ∀ w < n, ∀ c, (s'.worker w).limit = some c → c.active = 0) := by
  have hranked := ranked_closing .asyncStd L n max
  have hclosed' : s'.flags.serverActive = false :=
    hrun.preserves (fun t => t.flags.serverActive = false) hclosed hranked.keeps
  refine ⟨(hranked.completes hclosed hrun).1.trans (closingRank_le n s),
    (hranked.restrict _).exists_stuck hclosed', ?_⟩
  intro hstuck
  have hs' : (server L n max).Reachable s' := hs.run hrun.of_restrict
  have hquiet := quiet_of_stuck hs' hstuck
  exact ⟨hquiet, atRest_of_exited hstuck hquiet, fun w hw c hc => active_of_quiet hs' hquiet hw hc⟩

/-- With async-std an accept loop that waits for a connection when the server is closed cannot
take a step until one comes. -/
theorem blocked_of_receiving {L : SimulatedLoop α ρ β} {n : ℕ} {max : Option ℕ} {s s' : St α ρ β}
    (hpc : s.pc = .receiving) {tr : List (Lbl α ρ β)}
    (hrun : (unattended .asyncStd L n max).Run s tr s') : s'.pc = .receiving := by
  refine hrun.preserves (fun t => t.pc = .receiving) hpc ?_
  rintro l t ⟨⟨hg, _, hcancels⟩, hl⟩ hpc
  cases l with
  | flags l => exact hpc
  | worker w l => exact hpc
  | loop l =>
      cases l with
      | recv origin a => cases hl
      | recvErr => cases hl
      | abort =>
          rcases hcancels with hruntime | hsubmitted
          · cases hruntime
          · cases hpc.symm.trans hsubmitted
      | abortSending w item => cases hcancels
      | start | startErr | load c site | route x | tryAcquire w x pc spurious
      | drop w pc spurious =>
          cases hpc.symm.trans hg
      | send w item | sendErr w item => cases hpc.symm.trans hg.1

end Simulated

end ReusePort
