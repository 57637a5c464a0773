import ReusePort.Core.Simulated

/-!
# ReusePort.Core.Delivery — exact delivery of the simulated handler servers

While a simulated server is active, nothing that its receiving loop takes from
the socket is lost, doubled or reordered on the way to the handlers, except what
the loop drops openly: items without a route, and items whose worker has no
permit left. The receiving loop keeps a log of these decisions.

* `DeliveryInv` — the invariant: the log accounts for the arrivals, and the items
  of each worker are those that the log has it take;
* `simulated_delivery` — what this says in terms of routes.
-/

namespace ReusePort

namespace Simulated

variable {α ρ β : Type}

/-! ## Arrivals and decisions -/

/-- What the receiving loop has received, in order. -/
def arrivals (tr : List (Lbl α ρ β)) : List α :=
  tr.filterMap fun
    | .loop (.recv _ a) => some a
    | _ => none

theorem arrivals_recv (tr : List (Lbl α ρ β)) (origin : Origin) (a : α) :
    arrivals (tr ++ [.loop (.recv origin a)]) = arrivals tr ++ [a] :=
  List.filterMap_append

theorem arrivals_other (tr : List (Lbl α ρ β)) {l : Lbl α ρ β}
    (h : ∀ origin a, l ≠ .loop (.recv origin a)) : arrivals (tr ++ [l]) = arrivals tr := by
  have hnone : arrivals [l] = [] := by
    rcases l with l | l | ⟨w, l⟩
    · rfl
    · cases l with
      | recv origin a => exact absurd rfl (h origin a)
      | start | startErr | load _ _ | recvErr | route _ | tryAcquire _ _ _ _ | send _ _
      | sendErr _ _ | drop _ _ _ | abort | abortSending _ _ => rfl
    · rfl
  have happend : arrivals (tr ++ [l]) = arrivals tr ++ arrivals [l] := List.filterMap_append
  rw [happend, hnone, List.append_nil]

/-- The item that the receiving loop has in hand and has not decided about. -/
def LoopPc.inHand : LoopPc (Received α ρ) β → List (Received α ρ)
  | .check _ (.item x) => [x]
  | .routing x => [x]
  | .trying _ x _ => [x]
  | _ => []

/-- The item that the receiving loop is sending to worker `w`. -/
def LoopPc.sendingTo (w : ℕ) : LoopPc (Received α ρ) β → List (Item β)
  | .sending v item => if v = w then [item] else []
  | _ => []

/-- The receiving loop has nothing in hand and is sending nothing. -/
def LoopPc.Idle (pc : LoopPc (Received α ρ) β) : Prop :=
  pc.inHand = [] ∧ ∀ w, pc.sendingTo w = []

/-- The arrivals that the log has worker `w` take. -/
def taken (w : ℕ) (log : List (α × Verdict)) : List α :=
  (log.filter fun e => e.2 = .taken w).map Prod.fst

theorem taken_append (w : ℕ) (log : List (α × Verdict)) (a : α) (v : Verdict) :
    taken w (log ++ [(a, v)]) = taken w log ++ if v = .taken w then [a] else [] := by
  by_cases hv : v = .taken w <;> simp [taken, hv]

/-- A decision is right: it follows the route of the arrival, and a refusal has
seen the counter of the worker at its limit. -/
def Justified (L : SimulatedLoop α ρ β) (n : ℕ) (max : Option ℕ) (a : α) : Verdict → Prop
  | .unroutable => L.routeOf a n = .skip
  | .full w active => L.routeOf a n = .worker w ∧ ∃ m, max = some m ∧ m ≤ active
  | .taken w => L.routeOf a n = .worker w

/-- The route that the loop computes from the buffer is the one of the arrival. -/
theorem route_of_fresh {L : SimulatedLoop α ρ β} {buffer : List UInt8} {x : Received α ρ}
    (h : L.Fresh buffer x) (n : ℕ) : L.route buffer x.recv n = L.routeOf x.arrival n := by
  rcases h with ⟨before, hlen, rfl, hrecv⟩
  rw [hrecv]
  exact L.route_receive before x.arrival n hlen

/-! ## The maximum of a limit -/

/-- The maximum that a limit enforces, if any. -/
def maxOf (limit : WorkerConcurrencyLimit) : Option ℕ := limit.map ConcurrencyState.max

@[simp] theorem maxOf_tryAcquire (limit : WorkerConcurrencyLimit) (spurious : Bool) (pc : TryPc) :
    maxOf (limit.tryAcquire spurious pc).1 = maxOf limit := by
  cases limit with
  | none => rfl
  | some c =>
      cases pc with
      | load => rfl
      | cas active =>
          simp only [maxOf, WorkerConcurrencyLimit.tryAcquire, tryStep]
          cases hcas : c.compareExchangeWeak active (active + 1) spurious with
          | none => rfl
          | some c' =>
              rw [(ConcurrencyState.compareExchangeWeak_eq_some hcas).2]
              rfl

@[simp] theorem maxOf_drop (limit : WorkerConcurrencyLimit) (spurious : Bool) (pc : DropPc) :
    maxOf (limit.drop spurious pc).1 = maxOf limit := by
  cases limit with
  | none => rfl
  | some c =>
      cases pc with
      | load | gaveUp => rfl
      | wake => simp [maxOf, WorkerConcurrencyLimit.drop, dropStep]
      | cas active =>
          simp only [maxOf, WorkerConcurrencyLimit.drop, dropStep]
          cases hcas : c.compareExchangeWeak active (active - 1) spurious with
          | none => rfl
          | some c' =>
              rw [(ConcurrencyState.compareExchangeWeak_eq_some hcas).2]
              rfl

/-- A refusal has seen the counter at the maximum. -/
theorem maxOf_of_full {limit : WorkerConcurrencyLimit} {spurious : Bool} {pc : TryPc} {active : ℕ}
    (h : (limit.tryAcquire spurious pc).2 = .full active) :
    ∃ m, maxOf limit = some m ∧ m ≤ active := by
  cases limit with
  | none => cases h
  | some c =>
      cases pc with
      | load =>
          simp only [WorkerConcurrencyLimit.tryAcquire, tryStep] at h
          split at h
          · rename_i hfull
            cases h
            exact ⟨c.max, rfl, hfull⟩
          · cases h
      | cas v =>
          simp only [WorkerConcurrencyLimit.tryAcquire, tryStep] at h
          split at h <;> cases h

theorem max_of_maxOf_new {max : Option ℕ} {m : ℕ} (h : maxOf (.new max) = some m) :
    max = some m := by
  cases max with
  | none => cases h
  | some k =>
      simp only [maxOf, WorkerConcurrencyLimit.new] at h
      split at h
      · cases h
        rfl
      · cases h

/-! ## The invariant -/

/-- A dispatch loop is at its work: it drops no permit, and ends only after the
receiving loop, with nothing queued. -/
def Serving (loop : LoopPc (Received α ρ) β) (k : Worker β) : Prop :=
  (∀ pc, k.pc ≠ .dropping pc) ∧ (k.pc = .exited → loop = .exited ∧ k.queue = [])

/-- The accounts of an active server after the steps `tr`. -/
structure DeliveryInv (L : SimulatedLoop α ρ β) (n : ℕ) (max : Option ℕ)
    (tr : List (Lbl α ρ β)) (s : St α ρ β) : Prop where
  length_buffer : s.buffer.length = bufferLen
  fresh : ∀ x ∈ s.pc.inHand, L.Fresh s.buffer x
  trying : ∀ w x pc, s.pc = .trying w x pc → L.routeOf x.arrival n = .worker w
  limit : ∀ w, maxOf (s.worker w).limit = maxOf (.new max)
  serving : ∀ w, Serving s.pc (s.worker w)
  arrivals_eq : arrivals tr = s.log.map Prod.fst ++ s.pc.inHand.map Received.arrival
  justified : ∀ e ∈ s.log, Justified L n max e.1 e.2
  items_eq : ∀ w, ((s.worker w).items ++ s.pc.sendingTo w).map Item.work =
    (taken w s.log).map L.item

section Steps

variable {L : SimulatedLoop α ρ β} {n : ℕ} {max : Option ℕ} {tr : List (Lbl α ρ β)}
  {s : St α ρ β}

theorem deliveryInv_initial : DeliveryInv L n max [] (St.initial max) where
  length_buffer := List.length_replicate
  fresh := by
    intro x hx
    cases hx
  trying := by
    intro w x pc hpc
    cases hpc
  limit := fun _ => rfl
  serving := by
    intro w
    refine ⟨?_, ?_⟩
    · intro pc hpc
      cases hpc
    · intro hpc
      cases hpc
  arrivals_eq := rfl
  justified := by
    intro e he
    cases he
  items_eq := fun _ => rfl

/-- Nothing is drained from the queue of such a loop. -/
theorem Serving.no_drain {f : Flags} {loop : LoopPc (Received α ρ) β} {l : WorkerLbl β}
    {k : Worker β} (h : Serving loop k) (hg : workerGuard f loop l k) : ∀ x, l ≠ .drain x := by
  rintro x rfl
  have hqueue := (h.2 hg.1).2
  rw [workerGuard, hqueue] at hg
  cases hg.2

theorem Serving.of_ne_exited {loop loop' : LoopPc (Received α ρ) β} {k : Worker β}
    (h : Serving loop k) (hloop : loop ≠ .exited) : Serving loop' k := by
  refine ⟨h.1, ?_⟩
  intro hpc
  exact absurd (h.2 hpc).1 hloop

/-- Another place in the code with the same item in hand. -/
theorem DeliveryInv.move (h : DeliveryInv L n max tr s) (hne : s.pc ≠ .exited) {l : Lbl α ρ β}
    (hl : ∀ origin a, l ≠ .loop (.recv origin a)) {buffer : List UInt8}
    {pc : LoopPc (Received α ρ) β} (hlen : buffer.length = bufferLen)
    (hfresh : ∀ x ∈ pc.inHand, L.Fresh buffer x)
    (htry : ∀ w x p, pc = .trying w x p → L.routeOf x.arrival n = .worker w)
    (hhand : pc.inHand = s.pc.inHand) (hsend : ∀ w, pc.sendingTo w = s.pc.sendingTo w) :
    DeliveryInv L n max (tr ++ [l]) { s with buffer := buffer, pc := pc } where
  length_buffer := hlen
  fresh := hfresh
  trying := htry
  limit := h.limit
  serving := fun w => (h.serving w).of_ne_exited hne
  arrivals_eq := by
    rw [arrivals_other tr hl, h.arrivals_eq, hhand]
  justified := h.justified
  items_eq := by
    intro w
    show ((s.worker w).items ++ pc.sendingTo w).map Item.work = (taken w s.log).map L.item
    rw [hsend w, h.items_eq w]

/-- A move from one idle place to another. -/
theorem DeliveryInv.moveIdle (h : DeliveryInv L n max tr s) {l : Lbl α ρ β}
    (hl : ∀ origin a, l ≠ .loop (.recv origin a)) {pc pc' : LoopPc (Received α ρ) β}
    (hpc : s.pc = pc) (hne : pc ≠ .exited) {buffer : List UInt8}
    (hlen : buffer.length = bufferLen) (hold : pc.Idle) (hnew : pc'.Idle) :
    DeliveryInv L n max (tr ++ [l]) { s with buffer := buffer, pc := pc' } := by
  subst hpc
  refine h.move hne hl hlen ?_ ?_ (hnew.1.trans hold.1.symm) ?_
  · intro x hx
    rw [hnew.1] at hx
    cases hx
  · intro w x p htrying
    have hhand := hnew.1
    rw [htrying] at hhand
    cases hhand
  · intro w
    rw [hnew.2 w, hold.2 w]

/-- The limit of a worker changes, but not its maximum. -/
theorem DeliveryInv.setLimit (h : DeliveryInv L n max tr s) (w : ℕ)
    {limit : WorkerConcurrencyLimit} (hlimit : maxOf limit = maxOf (s.worker w).limit) :
    DeliveryInv L n max tr (s.setWorker w { s.worker w with limit := limit }) where
  length_buffer := h.length_buffer
  fresh := h.fresh
  trying := h.trying
  limit := (Function.forall_update_iff s.worker
    fun _ k => maxOf k.limit = maxOf (.new max)).mpr
      ⟨hlimit.trans (h.limit w), fun v _ => h.limit v⟩
  serving := (Function.forall_update_iff s.worker fun _ k => Serving s.pc k).mpr
    ⟨h.serving w, fun v _ => h.serving v⟩
  arrivals_eq := h.arrivals_eq
  justified := h.justified
  items_eq := by
    intro v
    rw [items_setLimit]
    exact h.items_eq v

/-- The item in hand is decided about, and no worker takes it. -/
theorem DeliveryInv.next (h : DeliveryInv L n max tr s) {l : Lbl α ρ β}
    (hl : ∀ origin a, l ≠ .loop (.recv origin a)) {x : Received α ρ} {v : Verdict}
    (hhand : s.pc.inHand = [x]) (hsend : ∀ w, s.pc.sendingTo w = [])
    (hv : Justified L n max x.arrival v) (hnot : ∀ w, v ≠ .taken w) :
    DeliveryInv L n max (tr ++ [l]) (s.next x v) where
  length_buffer := h.length_buffer
  fresh := by
    intro y hy
    cases hy
  trying := by
    intro w y pc hpc
    cases hpc
  limit := h.limit
  serving := by
    intro w
    refine (h.serving w).of_ne_exited ?_
    intro hpc
    rw [hpc] at hhand
    cases hhand
  arrivals_eq := by
    rw [arrivals_other tr hl, h.arrivals_eq, hhand]
    simp [St.next, LoopPc.inHand]
  justified := by
    intro e he
    rcases List.mem_append.mp he with he | he
    · exact h.justified e he
    · cases List.mem_singleton.mp he
      exact hv
  items_eq := by
    intro w
    have hitems := h.items_eq w
    rw [hsend w] at hitems
    simpa [St.next, taken_append, hnot w, LoopPc.sendingTo] using hitems

/-- The item in hand got a permit of worker `w` and is being sent to it. -/
theorem DeliveryInv.got (h : DeliveryInv L n max tr s) {l : Lbl α ρ β}
    (hl : ∀ origin a, l ≠ .loop (.recv origin a)) {w : ℕ} {x : Received α ρ} {pc : TryPc}
    (hpc : s.pc = .trying w x pc) : DeliveryInv L n max (tr ++ [l]) (St.tried L s w x .got) where
  length_buffer := h.length_buffer
  fresh := by
    intro y hy
    cases hy
  trying := by
    intro v y p hp
    cases hp
  limit := h.limit
  serving := by
    intro v
    refine (h.serving v).of_ne_exited ?_
    rw [hpc]
    rintro ⟨⟩
  arrivals_eq := by
    rw [arrivals_other tr hl, h.arrivals_eq, hpc]
    simp [St.tried, LoopPc.inHand]
  justified := by
    intro e he
    rcases List.mem_append.mp he with he | he
    · exact h.justified e he
    · cases List.mem_singleton.mp he
      exact h.trying w x pc hpc
  items_eq := by
    intro v
    -- the buffer is still as the receive left it, so the copy sent is the payload
    have hwork : L.work s.buffer x.recv = L.item x.arrival := by
      refine (h.fresh x ?_).work
      rw [hpc]
      exact List.mem_singleton_self x
    have hitems := h.items_eq v
    rw [hpc] at hitems
    by_cases hv : w = v
    · subst hv
      simpa [St.tried, taken_append, LoopPc.sendingTo, itemOf, hwork] using hitems
    · simpa [St.tried, taken_append, LoopPc.sendingTo, hv] using hitems

/-- The item arrives in the queue of its worker. -/
theorem DeliveryInv.send (h : DeliveryInv L n max tr s) {w : ℕ} {item : Item β}
    (hpc : s.pc = .sending w item) :
    DeliveryInv L n max (tr ++ [.loop (.send w item)]) (loopUpdate L n (.send w item) s) where
  length_buffer := h.length_buffer
  fresh := by
    intro y hy
    cases hy
  trying := by
    intro v y p hp
    cases hp
  limit := (Function.forall_update_iff s.worker
    fun _ k => maxOf k.limit = maxOf (.new max)).mpr ⟨h.limit w, fun v _ => h.limit v⟩
  serving := by
    intro v
    have hne : s.pc ≠ .exited := by
      rw [hpc]
      rintro ⟨⟩
    -- a send touches no dispatch loop, and none has ended before this loop
    rcases worker_loopUpdate L n (.send w item) s v with ⟨limit, queue, hworker⟩
    rw [hworker]
    refine ⟨(h.serving v).1, ?_⟩
    intro hexit
    exact absurd ((h.serving v).2 hexit).1 hne
  arrivals_eq := by
    rw [arrivals_other tr (by rintro _ _ ⟨⟩), h.arrivals_eq, hpc]
    rfl
  justified := h.justified
  items_eq := by
    intro v
    have hitems := h.items_eq v
    rw [hpc] at hitems
    by_cases hv : w = v
    · subst hv
      simpa [loopUpdate, St.setWorker, Worker.items, LoopPc.sendingTo] using hitems
    · have hv' : v ≠ w := fun heq => hv heq.symm
      simpa [loopUpdate, St.setWorker, LoopPc.sendingTo, hv, Function.update_of_ne hv'] using hitems

/-- A receive: the buffer is overwritten, and what it held before has been
decided about. -/
theorem DeliveryInv.recv (h : DeliveryInv L n max tr s) (hpc : s.pc = .receiving)
    (origin : Origin) (a : α) :
    DeliveryInv L n max (tr ++ [.loop (.recv origin a)])
      (loopUpdate L n (.recv origin a) s) where
  length_buffer := (L.length_receive s.buffer a).trans h.length_buffer
  fresh := by
    intro x hx
    cases List.mem_singleton.mp hx
    exact ⟨s.buffer, h.length_buffer, rfl, rfl⟩
  trying := by
    intro v y p hp
    cases hp
  limit := h.limit
  serving := by
    intro w
    refine (h.serving w).of_ne_exited ?_
    rw [hpc]
    rintro ⟨⟩
  arrivals_eq := by
    rw [arrivals_recv, h.arrivals_eq, hpc]
    simp [loopUpdate, LoopPc.inHand]
  justified := h.justified
  items_eq := by
    intro w
    have hitems := h.items_eq w
    rw [hpc] at hitems
    exact hitems

/-- A load of `is_active` in an active server. -/
theorem DeliveryInv.load (h : DeliveryInv L n max tr s) {c : Check} {site : Site (Received α ρ)}
    (hpc : s.pc = .check c site) {l : Lbl α ρ β}
    (hl : ∀ origin a, l ≠ .loop (.recv origin a)) :
    DeliveryInv L n max (tr ++ [l]) (s.load site c true) := by
  have hidle : ∀ pc : LoopPc (Received α ρ) β, pc.Idle → (LoopPc.check c site).Idle (β := β) →
      DeliveryInv L n max (tr ++ [l]) { s with pc := pc } := by
    intro pc hnew hold
    exact h.moveIdle hl hpc (by rintro ⟨⟩) h.length_buffer hold hnew
  cases site with
  | head =>
      cases c
      · exact hidle _ ⟨rfl, fun _ => rfl⟩ ⟨rfl, fun _ => rfl⟩
      · exact hidle _ ⟨rfl, fun _ => rfl⟩ ⟨rfl, fun _ => rfl⟩
  | error =>
      cases c
      · exact hidle _ ⟨rfl, fun _ => rfl⟩ ⟨rfl, fun _ => rfl⟩
      · -- the failed receive has consumed the buffer
        exact h.moveIdle hl hpc (by rintro ⟨⟩) length_newBuffer ⟨rfl, fun _ => rfl⟩
          ⟨rfl, fun _ => rfl⟩
  | item x =>
      have hmove : ∀ pc : LoopPc (Received α ρ) β, pc.inHand = [x] → (∀ w, pc.sendingTo w = []) →
          (∀ w y p, pc ≠ .trying w y p) → DeliveryInv L n max (tr ++ [l]) { s with pc := pc } := by
        intro pc hhand hsend htry
        have hsame : pc.inHand = s.pc.inHand := by
          rw [hhand, hpc]
          rfl
        refine h.move ?_ hl h.length_buffer ?_ (fun w y p heq => absurd heq (htry w y p)) hsame ?_
        · rw [hpc]
          rintro ⟨⟩
        · rw [hsame]
          exact h.fresh
        · intro w
          rw [hsend w, hpc]
          rfl
      cases c
      · exact hmove _ rfl (fun _ => rfl) (by rintro _ _ _ ⟨⟩)
      · exact hmove _ rfl (fun _ => rfl) (by rintro _ _ _ ⟨⟩)

/-- The route of the item in hand, computed from the buffer, is the one of its
arrival. -/
theorem DeliveryInv.route (h : DeliveryInv L n max tr s) (hn : 1 ≤ n) {x : Received α ρ}
    (hpc : s.pc = .routing x) {l : Lbl α ρ β} (hl : ∀ origin a, l ≠ .loop (.recv origin a)) :
    DeliveryInv L n max (tr ++ [l]) (s.routed n x (L.route s.buffer x.recv n)) := by
  have hhand : s.pc.inHand = [x] := by
    rw [hpc]
    rfl
  have hsend : ∀ w, s.pc.sendingTo w = [] := by
    intro w
    rw [hpc]
    rfl
  have hfresh : ∀ y ∈ [x], L.Fresh s.buffer y := by
    rw [← hhand]
    exact h.fresh
  rw [route_of_fresh (hfresh x (List.mem_singleton_self x)) n]
  cases hroute : L.routeOf x.arrival n with
  | skip => exact h.next hl hhand hsend hroute (by rintro _ ⟨⟩)
  | stop => exact absurd hroute (L.routeOf_ne_stop x.arrival n hn)
  | worker w =>
      -- the route is a worker, so `limits.get` does not miss
      rw [St.routed, if_pos (L.routeOf_lt x.arrival n w hroute)]
      have hne : s.pc ≠ .exited := by
        rw [hpc]
        rintro ⟨⟩
      refine h.move hne hl h.length_buffer hfresh ?_ hhand.symm fun v => (hsend v).symm
      intro v y p hp
      cases hp
      exact hroute

/-- An atomic access of `try_acquire` for the item in hand. -/
theorem DeliveryInv.tryAcquire (h : DeliveryInv L n max tr s) {w : ℕ} {x : Received α ρ}
    {pc : TryPc} {spurious : Bool} (hpc : s.pc = .trying w x pc) :
    DeliveryInv L n max (tr ++ [.loop (.tryAcquire w x pc spurious)])
      (loopUpdate L n (.tryAcquire w x pc spurious) s) := by
  have hl : ∀ origin a, Lbl.loop (.tryAcquire w x pc spurious) ≠
      (.loop (.recv origin a) : Lbl α ρ β) := by
    rintro _ _ ⟨⟩
  have hset := h.setLimit w (maxOf_tryAcquire (s.worker w).limit spurious pc)
  simp only [loopUpdate]
  cases hnext : ((s.worker w).limit.tryAcquire spurious pc).2 with
  | more pc' =>
      refine hset.move ?_ hl h.length_buffer ?_ ?_ ?_ ?_
      · show s.pc ≠ .exited
        rw [hpc]
        rintro ⟨⟩
      · intro y hy
        refine h.fresh y ?_
        rw [hpc]
        exact hy
      · intro v y p hp
        cases hp
        exact h.trying w x pc hpc
      · show _ = s.pc.inHand
        rw [hpc]
        rfl
      · intro v
        show _ = s.pc.sendingTo v
        rw [hpc]
        rfl
  | full active =>
      refine hset.next hl (x := x) ?_ ?_ ?_ ?_
      · show s.pc.inHand = [x]
        rw [hpc]
        rfl
      · intro v
        show s.pc.sendingTo v = []
        rw [hpc]
        rfl
      · -- the counter was read at the maximum of the limit, which never changes
        rcases maxOf_of_full hnext with ⟨m, hm, hle⟩
        rw [h.limit w] at hm
        exact ⟨h.trying w x pc hpc, m, max_of_maxOf_new hm, hle⟩
      · rintro _ ⟨⟩
  | got => exact hset.got hl hpc

/-- The steps of the receiving loop of an active server. -/
theorem deliveryInv_loopStep (hn : 1 ≤ n) {l : LoopLbl α ρ β} (hg : loopGuard L l s)
    (hactive : s.flags.isActive) (h : DeliveryInv L n max tr s) :
    DeliveryInv L n max (tr ++ [.loop l]) (loopUpdate L n l s) := by
  cases l with
  | start =>
      exact h.moveIdle (by rintro _ _ ⟨⟩) hg (by rintro ⟨⟩) h.length_buffer ⟨rfl, fun _ => rfl⟩
        ⟨rfl, fun _ => rfl⟩
  | startErr =>
      exact h.moveIdle (by rintro _ _ ⟨⟩) hg (by rintro ⟨⟩) h.length_buffer ⟨rfl, fun _ => rfl⟩
        ⟨rfl, fun _ => rfl⟩
  | load c site =>
      have hget : s.flags.get c = true := by
        cases c
        · exact hactive.1
        · exact hactive.2
      simp only [loopUpdate, hget]
      exact h.load hg (by rintro _ _ ⟨⟩)
  | recv origin a => exact h.recv hg.1 origin a
  | recvErr =>
      refine h.moveIdle (by rintro _ _ ⟨⟩) hg (by rintro ⟨⟩) h.length_buffer ⟨rfl, fun _ => rfl⟩ ?_
      split <;> exact ⟨rfl, fun _ => rfl⟩
  | route x => exact h.route hn hg (by rintro _ _ ⟨⟩)
  | tryAcquire w x pc spurious => exact h.tryAcquire hg
  | send w item => exact h.send hg.1
  | sendErr w item =>
      -- the queue still has its receiver: the dispatch loop does not end first
      have hexit := ((h.serving w).2 hg.2).1
      rw [hg.1] at hexit
      cases hexit
  | drop w pc spurious =>
      have hset := h.setLimit w (maxOf_drop (s.worker w).limit spurious pc)
      simp only [loopUpdate]
      cases ((s.worker w).limit.drop spurious pc).2 with
      | none =>
          exact hset.moveIdle (by rintro _ _ ⟨⟩) hg (by rintro ⟨⟩) h.length_buffer
            ⟨rfl, fun _ => rfl⟩ ⟨rfl, fun _ => rfl⟩
      | some pc' =>
          exact hset.moveIdle (by rintro _ _ ⟨⟩) hg (by rintro ⟨⟩) h.length_buffer
            ⟨rfl, fun _ => rfl⟩ ⟨rfl, fun _ => rfl⟩
  | abort => exact absurd hactive hg.1
  | abortSending w item => exact absurd hactive hg.1

theorem serving_of_ne {loop : LoopPc (Received α ρ) β} {k : Worker β}
    (hdrop : ∀ pc, k.pc ≠ .dropping pc) (hexit : k.pc ≠ .exited) : Serving loop k :=
  ⟨hdrop, fun hpc => absurd hpc hexit⟩

/-- A dispatch loop stays at its work while the server is active. -/
theorem serving_workerStep {f : Flags} {loop : LoopPc (Received α ρ) β} {l : WorkerLbl β}
    {k : Worker β} (hactive : f.isActive) (hg : workerGuard f loop l k)
    (hspawn : ∀ x, l ≠ .spawnErr x) (h : Serving loop k) : Serving loop (workerUpdate f l k) := by
  cases l with
  | start => exact serving_of_ne (by rintro _ ⟨⟩) (by rintro ⟨⟩)
  | load =>
      simp only [workerUpdate, hactive.2]
      exact serving_of_ne (by rintro _ ⟨⟩) (by rintro ⟨⟩)
  | recv x => exact serving_of_ne (by rintro _ ⟨⟩) (by rintro ⟨⟩)
  | closed =>
      -- the one way out: the receiving loop has dropped the senders
      refine ⟨by rintro _ ⟨⟩, ?_⟩
      intro _
      exact ⟨hg.2.2, hg.2.1⟩
  | check x =>
      simp only [workerUpdate, hactive.2]
      exact serving_of_ne (by rintro _ ⟨⟩) (by rintro ⟨⟩)
  | spawn x => exact serving_of_ne (by rintro _ ⟨⟩) (by rintro ⟨⟩)
  | spawnErr x => exact absurd rfl (hspawn x)
  | drop pc spurious => exact absurd hg (h.1 pc)
  | abort => exact absurd hactive hg.1
  | drain x => exact absurd rfl (h.no_drain hg x)
  | handlerEnd i x => exact h
  | handlerDrop i pc spurious => exact h

theorem maxOf_workerUpdate (f : Flags) (l : WorkerLbl β) (k : Worker β) :
    maxOf (workerUpdate f l k).limit = maxOf k.limit := by
  cases l with
  | drop pc spurious =>
      rw [← maxOf_drop k.limit spurious pc]
      simp only [workerUpdate]
      rcases k.limit.drop spurious pc with ⟨limit, _ | pc'⟩ <;> rfl
  | handlerDrop i pc spurious => exact maxOf_drop k.limit spurious pc
  | start | load | recv x | closed | check x | spawn x | spawnErr x | abort | drain x
  | handlerEnd i x => rfl

/-- The steps of the workers of an active server. -/
theorem deliveryInv_workerStep {w : ℕ} {l : WorkerLbl β}
    (hg : workerGuard s.flags s.pc l (s.worker w)) (hactive : s.flags.isActive)
    (hspawn : ∀ x, l ≠ .spawnErr x) (h : DeliveryInv L n max tr s) :
    DeliveryInv L n max (tr ++ [.worker w l])
      (s.setWorker w (workerUpdate s.flags l (s.worker w))) where
  length_buffer := h.length_buffer
  fresh := h.fresh
  trying := h.trying
  limit := (Function.forall_update_iff s.worker
    fun _ k => maxOf k.limit = maxOf (.new max)).mpr
      ⟨(maxOf_workerUpdate s.flags l (s.worker w)).trans (h.limit w), fun v _ => h.limit v⟩
  serving := (Function.forall_update_iff s.worker fun _ k => Serving s.pc k).mpr
    ⟨serving_workerStep hactive hg hspawn (h.serving w), fun v _ => h.serving v⟩
  arrivals_eq := (arrivals_other tr (by rintro _ _ ⟨⟩)).trans h.arrivals_eq
  justified := h.justified
  items_eq := by
    have hitems : (workerUpdate s.flags l (s.worker w)).items = (s.worker w).items :=
      items_workerStep hg (fun _ _ => hactive.2) hspawn ((h.serving w).no_drain hg)
    refine (Function.forall_update_iff s.worker fun v k =>
      (k.items ++ s.pc.sendingTo v).map Item.work = (taken v s.log).map L.item).mpr ⟨?_, ?_⟩
    · rw [hitems]
      exact h.items_eq w
    · intro v _
      exact h.items_eq v

end Steps

/-- The accounts hold in every active state of every run whose spawns succeed. -/
theorem run_deliveryInv {L : SimulatedLoop α ρ β} {n : ℕ} {max : Option ℕ} (hn : 1 ≤ n)
    {tr : List (Lbl α ρ β)} {s : St α ρ β}
    (hrun : (server L n max).Run (server L n max).init tr s) :
    (∀ w x, Lbl.worker w (.spawnErr x) ∉ tr) → s.flags.isActive → DeliveryInv L n max tr s := by
  -- both conditions, met by a run, were met by every earlier state of it
  refine (server L n max).trace_invariant
    (fun tr s => (∀ w x, Lbl.worker w (.spawnErr x) ∉ tr) → s.flags.isActive →
      DeliveryInv L n max tr s) (fun _ _ => deliveryInv_initial) ?_ tr s hrun
  intro tr l s _ hg ih hspawn hactive
  have hbefore : ∀ w x, Lbl.worker w (.spawnErr x) ∉ tr := by
    intro w x hmem
    exact hspawn w x (List.mem_append_left _ hmem)
  cases l with
  | flags l =>
      have h := ih hbefore (FlagLbl.isActive_of_update hactive)
      exact { h with arrivals_eq := (arrivals_other tr (by rintro _ _ ⟨⟩)).trans h.arrivals_eq }
  | loop l =>
      have hactive' : s.flags.isActive := by
        rw [← flags_loopUpdate L n l s]
        exact hactive
      exact deliveryInv_loopStep hn hg hactive' (ih hbefore hactive')
  | worker w l =>
      refine deliveryInv_workerStep hg.2 hactive ?_ (ih hbefore hactive)
      rintro x rfl
      exact hspawn w x (List.mem_append_right _ (List.mem_singleton_self _))

/-! ## Delivery in terms of routes -/

/-- The loop found the limit of the worker full. -/
def Verdict.isFull : Verdict → Bool
  | .full _ _ => true
  | _ => false

/-- What should reach worker `w`, by the log: the items of the arrivals that are
routed to it, without those refused at its limit. -/
def due (route : α → Option ℕ) (item : α → β) (log : List (α × Verdict)) (w : ℕ) : List β :=
  (log.filter fun e => route e.1 = some w ∧ e.2.isFull = false).map fun e => item e.1

/-- By justified decisions the arrivals that a worker takes are those that should
reach it. -/
theorem map_taken {L : SimulatedLoop α ρ β} {n : ℕ} {max : Option ℕ} {route : α → Option ℕ}
    (hroute : ∀ a, L.routeOf a n = .ofOption (route a)) {log : List (α × Verdict)}
    (hlog : ∀ e ∈ log, Justified L n max e.1 e.2) (w : ℕ) :
    (taken w log).map L.item = due route L.item log w := by
  -- an arrival with a route is taken by that worker or refused at its limit
  have hsame : ∀ e ∈ log, decide (e.2 = .taken w) =
      decide (route e.1 = some w ∧ e.2.isFull = false) := by
    rintro ⟨a, v⟩ he
    have hv := hlog _ he
    cases v with
    | unroutable =>
        have hnone : route a = none := by
          rw [Justified, hroute a] at hv
          cases hr : route a with
          | none => rfl
          | some u => simp [hr, Route.ofOption] at hv
        simp [hnone]
    | full u active => simp [Verdict.isFull]
    | taken u =>
        have hsome : route a = some u := by
          rw [Justified, hroute a] at hv
          cases hr : route a with
          | none => simp [hr, Route.ofOption] at hv
          | some u' => simpa [hr, Route.ofOption] using hv
        simp [hsome, Verdict.isFull]
  rw [taken, due, List.filter_congr hsame, List.map_map]
  rfl

/-- Exact delivery by the loop `L`, which routes by `route` and makes its work
items by `item`. In every active state of a run whose spawns succeed: the log and
the item in hand are the arrivals; what worker `w` has spawned, has in hand, has
queued and is being sent is what is due to it; a refusal is one of its worker, at
its limit; and every route is a worker. -/
def DeliversExactly (L : SimulatedLoop α ρ β) (route : α → ℕ → Option ℕ) (item : α → β) : Prop :=
  ∀ n max tr s, 1 ≤ n → (server L n max).Run (server L n max).init tr s → s.flags.isActive →
    (∀ w x, Lbl.worker w (.spawnErr x) ∉ tr) →
    arrivals tr = s.log.map Prod.fst ++ s.pc.inHand.map Received.arrival ∧
    (∀ w, ((s.worker w).spawned ++ ((s.worker w).pc.inHand ++
        ((s.worker w).queue ++ s.pc.sendingTo w))).map Item.work =
      due (fun a => route a n) item s.log w) ∧
    (∀ a w active, (a, .full w active) ∈ s.log →
      route a n = some w ∧ ∃ m, max = some m ∧ m ≤ active) ∧
    ∀ a w, route a n = some w → w < n

theorem deliversExactly {L : SimulatedLoop α ρ β} {route : α → ℕ → Option ℕ}
    (hroute : ∀ a n, 1 ≤ n → L.routeOf a n = .ofOption (route a n)) :
    DeliversExactly L route L.item := by
  intro n max tr s hn hrun hactive hspawn
  have h := run_deliveryInv hn hrun hspawn hactive
  have hworker : ∀ a w, L.routeOf a n = .worker w ↔ route a n = some w := by
    intro a w
    rw [hroute a n hn]
    cases route a n <;> simp [Route.ofOption]
  refine ⟨h.arrivals_eq, ?_, ?_, ?_⟩
  · intro w
    rw [← map_taken (fun a => hroute a n hn) h.justified w, ← h.items_eq w, Worker.items]
    simp only [List.append_assoc]
  · intro a w active hmem
    have hfull := h.justified _ hmem
    exact ⟨(hworker a w).mp hfull.1, hfull.2⟩
  · intro a w hw
    exact L.routeOf_lt a n w ((hworker a w).mpr hw)

end Simulated

theorem Route.ofExcept_eq {r : Except Error ℕ} {n : ℕ} (h : ∃ w, r = .ok w ∧ w < n) :
    Route.ofExcept r = .ofOption r.toOption := by
  rcases h with ⟨w, rfl, -⟩
  rfl

open Simulated in
/-- The three simulated handler servers deliver exactly: UDP by the hash of the
addresses, QUIC by the worker of the packet, TCP by the hash among the workers that
do not accept. The handler gets the received payload and the peer, or the accepted
stream. -/
theorem simulated_delivery (quicAddr : Option SocketAddr) (tcpAddr : SocketAddr) :
    DeliversExactly simulatedUdpListenerLoop
      (fun d n => (linuxReuseportSelect ⟨some d.peerAddr, some d.localAddr⟩ n).toOption)
      (fun d => ⟨⟨some d.peerAddr, some d.localAddr⟩, d.payload⟩) ∧
    DeliversExactly (quicRoutedUdpListenerLoop quicAddr)
      (fun d n => quicWorkerIndex d.payload n)
      (fun d => ⟨⟨some d.peerAddr, quicAddr⟩, d.payload⟩) ∧
    DeliversExactly (simulatedTcpAcceptLoop tcpAddr)
      (fun c n => (selectSimulatedTcpWorker ⟨some c.peerAddr, some tcpAddr⟩ n).toOption)
      (fun c => ⟨c.stream⟩) := by
  refine ⟨?_, ?_, ?_⟩
  · apply deliversExactly
    intro d n hn
    exact Route.ofExcept_eq (linuxReuseportSelect_lt _ hn)
  · apply deliversExactly
    intro d n _
    rfl
  · apply deliversExactly
    intro c n hn
    exact Route.ofExcept_eq (selectSimulatedTcpWorker_lt _ hn)

open Simulated in
/-- Two connections to a TCP server with two workers and one permit each: worker 1
has spawned the first, and the second was refused. -/
theorem simulated_delivery_refused :
    ∃ tr s, (server (simulatedTcpAcceptLoop (.v4 #v[127, 0, 0, 1] 80)) 2 (some 1)).Run
        (server (simulatedTcpAcceptLoop (.v4 #v[127, 0, 0, 1] 80)) 2 (some 1)).init tr s ∧
      s.flags.isActive ∧ (s.log.map Prod.snd = [.taken 1, .full 1 1]) ∧
      (s.worker 1).spawned.map Item.work = [⟨7⟩] ∧
      ((s.worker 1).spawned ++ ((s.worker 1).pc.inHand ++
          ((s.worker 1).queue ++ s.pc.sendingTo 1))).map Item.work =
        due (fun c => (selectSimulatedTcpWorker
          ⟨some c.peerAddr, some (.v4 #v[127, 0, 0, 1] 80)⟩ 2).toOption)
          (fun c => ⟨c.stream⟩) s.log 1 := by
  let c : Connection := ⟨7, .v4 #v[127, 0, 0, 1] 55000⟩
  let c' : Connection := ⟨8, .v4 #v[127, 0, 0, 1] 55001⟩
  let x : Received Connection Connection := ⟨c, c, .peer⟩
  let x' : Received Connection Connection := ⟨c', c', .peer⟩
  have hexec := (server (simulatedTcpAcceptLoop (.v4 #v[127, 0, 0, 1] 80)) 2
      (some 1)).exists_run_of_exec
    [.loop .start, .loop (.load .runtime .head), .loop (.load .server .head),
      .loop (.recv .peer c), .loop (.load .runtime (.item x)), .loop (.load .server (.item x)),
      .loop (.route x), .loop (.tryAcquire 1 x .load false),
      .loop (.tryAcquire 1 x (.cas 0) false), .loop (.send 1 ⟨⟨7⟩, .peer⟩),
      .loop (.load .runtime .head), .loop (.load .server .head),
      .loop (.recv .peer c'), .loop (.load .runtime (.item x')), .loop (.load .server (.item x')),
      .loop (.route x'), .loop (.tryAcquire 1 x' .load false),
      .worker 1 .start, .worker 1 .load, .worker 1 (.recv ⟨⟨7⟩, .peer⟩),
      .worker 1 (.check ⟨⟨7⟩, .peer⟩), .worker 1 (.spawn ⟨⟨7⟩, .peer⟩)]
    (fun s => s.flags.isActive ∧ s.log.map Prod.snd = [.taken 1, .full 1 1] ∧
      (s.worker 1).spawned.map Item.work = [⟨7⟩]) (by decide)
  rcases hexec with ⟨s, hrun, hactive, hlog, hspawned⟩
  refine ⟨_, s, hrun, hactive, hlog, hspawned,
    ((simulated_delivery none (.v4 #v[127, 0, 0, 1] 80)).2.2 2 (some 1) _ s (by decide) hrun
      hactive ?_).2.1 1⟩
  intro w y hmem
  simp at hmem

end ReusePort
