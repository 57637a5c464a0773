import Mathlib
import ReusePort.Core.Delivery
import ReusePort.Core.LockFree

/-!
# ReusePort.Core.Drain — a simulated server delivers what it has accepted

That nothing is lost in a simulated server does not yet say that it arrives: the
receiving loop waits for room in a queue, and a dispatch loop for an item. Here the
loops are left to themselves, with no new arrival. Whatever the order in which they
are scheduled, they stop after a bounded number of steps, and then every item that was
accepted has its handler.

* `rank` — the steps that the loops have ahead of them;
* `lowers_work` — every step of theirs lowers it;
* `drained_of_stuck` — they stop only when all is delivered;
* `simulated_drains`.
-/

namespace ReusePort

namespace Simulated

variable {α ρ β : Type}

/-! ## The loops at work -/

/-- The steps in which the loops pass items on: no receive, no failure, no close, and no weak
exchange that fails for no reason. -/
def isWork : Lbl α ρ β → Bool
  | .loop .start | .loop (.load _ _) | .loop (.route _) | .loop (.send _ _) => true
  | .loop (.tryAcquire _ _ _ spurious) | .loop (.drop _ _ spurious) => !spurious
  | .worker _ .start | .worker _ .load | .worker _ (.recv _) | .worker _ (.check _) => true
  | .worker _ (.spawn _) => true
  | _ => false

/-- The server with its loops left to themselves. -/
def atWork (L : SimulatedLoop α ρ β) (n : ℕ) (max : Option ℕ) :
    Lts.Sys (St α ρ β) (Lbl α ρ β) :=
  (server L n max).restrict fun l _ => isWork l = true

/-! ## The steps ahead -/

/-- Each queued item takes four steps: it is received, checked and spawned, and the loop
comes back to its head. -/
def workerRank (k : Worker β) : ℕ :=
  4 * k.queue.length +
    match k.pc with
    | .submitted => 2
    | .head => 1
    | .receiving => 0
    | .check _ => 3
    | .spawning _ => 2
    | .dropping _ => 0
    | .exited => 0

def siteRank {κ : Type} (c : Check) : Site κ → ℕ
  | .head => match c with
    | .runtime => 2
    | .server => 1
  | .error => match c with
    | .runtime => 4
    | .server => 3
  | .item _ => match c with
    | .runtime => 12
    | .server => 11

/-- A sent item becomes work for its worker. -/
def loopRank (s : St α ρ β) : ℕ :=
  match s.pc with
  | .submitted => 3
  | .check c site => siteRank c site
  | .receiving => 0
  | .routing _ => 10
  | .trying w _ pc => 7 + (s.worker w).limit.elim 1 fun c => Pool.tryCost c pc
  | .sending _ _ => 7
  | .dropping w pc => (s.worker w).limit.elim 1 fun c => Pool.dropCost c pc
  | .exited => 0

/-- The steps that the loops of a server with `n` workers have ahead of them. -/
def rank (n : ℕ) (s : St α ρ β) : ℕ :=
  loopRank s + ∑ w ∈ Finset.range n, workerRank (s.worker w)

/-- The receiving loop looks at nothing of a worker but its limit. -/
theorem loopRank_setWorker {s : St α ρ β} {w : ℕ} {k : Worker β}
    (hlimit : k.limit = (s.worker w).limit) : loopRank (s.setWorker w k) = loopRank s := by
  have hlimits : ∀ u, ((s.setWorker w k).worker u).limit = (s.worker u).limit := by
    intro u
    by_cases hu : u = w
    · subst hu
      simpa [St.setWorker] using hlimit
    · simp [St.setWorker, Function.update_of_ne hu]
  simp only [loopRank, hlimits]
  rfl

section Steps

variable {L : SimulatedLoop α ρ β} {n : ℕ} {s : St α ρ β}

/-- The receiving loop gets on, and no worker gets new work. -/
theorem rank_of_loop {s' : St α ρ β} (hloop : loopRank s' < loopRank s)
    (hworker : ∀ u, workerRank (s'.worker u) = workerRank (s.worker u)) :
    rank n s' < rank n s := by
  have hsum : ∑ u ∈ Finset.range n, workerRank (s'.worker u) =
      ∑ u ∈ Finset.range n, workerRank (s.worker u) :=
    Finset.sum_congr rfl fun u _ => hworker u
  unfold rank
  omega

/-- The limit of a worker is not part of its work. -/
theorem workerRank_setLimit (w u : ℕ) (limit : WorkerConcurrencyLimit) :
    workerRank ((s.setWorker w { s.worker w with limit := limit }).worker u) =
      workerRank (s.worker u) := by
  by_cases hu : u = w
  · subst hu
    simp [St.setWorker, workerRank]
  · simp [St.setWorker, Function.update_of_ne hu]

theorem rank_load {c : Check} {site : Site (Received α ρ)} (hpc : s.pc = .check c site) :
    rank n (loopUpdate L n (.load c site) s) < rank n s := by
  refine rank_of_loop ?_ ?_
  · simp only [loopUpdate, loopRank, hpc]
    cases s.flags.get c <;> cases c <;> cases site <;> simp [St.load, St.proceed, siteRank]
  · intro u
    simp only [loopUpdate, worker_load]

theorem rank_route {x : Received α ρ} (hpc : s.pc = .routing x) :
    rank n (loopUpdate L n (.route x) s) < rank n s := by
  have hten : loopRank s = 10 := by
    simp only [loopRank, hpc]
  refine rank_of_loop ?_ ?_
  · rw [hten]
    simp only [loopUpdate]
    cases L.route s.buffer x.recv n with
    | skip => simp [St.routed, St.next, loopRank, siteRank]
    | stop => simp [St.routed, loopRank]
    | worker w =>
        simp only [St.routed]
        split
        · simp only [loopRank]
          cases (s.worker w).limit <;> simp [Pool.tryCost]
        · simp [loopRank]
  · intro u
    simp only [loopUpdate]
    cases L.route s.buffer x.recv n with
    | skip | stop => rfl
    | worker w =>
        simp only [St.routed]
        split <;> rfl

theorem rank_tryAcquire {w : ℕ} {x : Received α ρ} {pc : TryPc} (hpc : s.pc = .trying w x pc) :
    rank n (loopUpdate L n (.tryAcquire w x pc false) s) < rank n s := by
  refine rank_of_loop ?_ ?_
  · have hpos : 7 < loopRank s := by
      simp only [loopRank, hpc]
      cases (s.worker w).limit with
      | none => simp
      | some c =>
          have hcost := Pool.tryCost_pos c pc
          simp only [Option.elim_some]
          omega
    cases hnext : ((s.worker w).limit.tryAcquire false pc).2 with
    | full active =>
        simp only [loopUpdate, hnext]
        exact (show (2 : ℕ) < 7 by decide).trans hpos
    | got =>
        simp only [loopUpdate, hnext]
        exact hpos
    | more pc' =>
        -- only a limit makes the call go on
        cases hlimit : (s.worker w).limit with
        | none =>
            rw [hlimit] at hnext
            cases hnext
        | some c =>
            rw [hlimit] at hnext
            rcases Pool.tryCost_step hnext with ⟨hsame, hless⟩
            simp only [loopUpdate, hlimit, WorkerConcurrencyLimit.tryAcquire]
            have hmore : (tryStep false c pc).2 = .more pc' := hnext
            rw [hmore]
            simp only [St.tried, loopRank, hpc, hlimit, St.setWorker, Function.update_self, hsame,
              Option.elim_some]
            omega
  · intro u
    simp only [loopUpdate, worker_tried]
    exact workerRank_setLimit w u _

theorem rank_send {w : ℕ} {item : Item β} (hpc : s.pc = .sending w item) :
    rank n (loopUpdate L n (.send w item) s) < rank n s := by
  have hseven : loopRank s = 7 := by
    simp only [loopRank, hpc]
  have htwo : loopRank (loopUpdate L n (.send w item) s) = 2 := rfl
  -- the queue grows by one item, which is four steps of work
  have hwork : workerRank { s.worker w with queue := (s.worker w).queue ++ [item] } =
      workerRank (s.worker w) + 4 := by
    simp only [workerRank, List.length_append, List.length_singleton]
    omega
  have hsum := Lts.sum_update_le workerRank n hwork
  unfold rank
  rw [htwo, hseven]
  exact Nat.lt_of_le_of_lt (Nat.add_le_add_left hsum 2) (by omega)

theorem rank_drop {w : ℕ} {pc : DropPc} (hpc : s.pc = .dropping w pc) :
    rank n (loopUpdate L n (.drop w pc false) s) < rank n s := by
  refine rank_of_loop ?_ ?_
  · cases hlimit : (s.worker w).limit with
    | none => simp [loopUpdate, loopRank, hpc, hlimit, WorkerConcurrencyLimit.drop, St.dropped]
    | some c =>
        cases hnext : (dropStep false c pc).2 with
        | none =>
            have hpos := Pool.dropCost_pos c pc
            simpa [loopUpdate, loopRank, hpc, hlimit, WorkerConcurrencyLimit.drop, hnext,
              St.dropped] using hpos
        | some pc' =>
            have hless := Pool.dropCost_step hnext
            simpa [loopUpdate, loopRank, hpc, hlimit, WorkerConcurrencyLimit.drop, hnext,
              St.dropped, St.setWorker] using hless
  · intro u
    simp only [loopUpdate, worker_dropped]
    exact workerRank_setLimit w u _

/-- A dispatch loop gets on with an item, or comes back for the next one. -/
theorem workerRank_lt {f : Flags} {loop : LoopPc (Received α ρ) β} {l : WorkerLbl β} {w : ℕ}
    {k : Worker β} (hg : workerGuard f loop l k)
    (hwork : isWork (.worker w l : Lbl α ρ β) = true) :
    workerRank (workerUpdate f l k) < workerRank k := by
  cases l with
  | start => simp [workerUpdate, workerRank, show k.pc = .submitted from hg]
  | load =>
      simp only [workerUpdate, workerRank, show k.pc = .head from hg]
      cases f.serverActive <;> simp
  | recv x =>
      have hqueue : k.queue = x :: k.queue.tail := List.eq_cons_of_mem_head? hg.2
      have hlen := congrArg List.length hqueue
      rw [List.length_cons] at hlen
      simp only [workerUpdate, workerRank, hg.1]
      omega
  | check x =>
      simp only [workerUpdate, workerRank, show k.pc = .check x from hg]
      cases f.serverActive <;> simp
  | spawn x => simp [workerUpdate, workerRank, show k.pc = .spawning x from hg]
  | closed | spawnErr x | drop pc spurious | abort | drain x | handlerEnd i x
  | handlerDrop i pc spurious => cases hwork

/-- The limit is left to the permits. -/
theorem limit_of_work (f : Flags) {l : WorkerLbl β} {w : ℕ} (k : Worker β)
    (hwork : isWork (.worker w l : Lbl α ρ β) = true) : (workerUpdate f l k).limit = k.limit := by
  cases l with
  | start | load | recv x | check x | spawn x => rfl
  | closed | spawnErr x | drop pc spurious | abort | drain x | handlerEnd i x
  | handlerDrop i pc spurious => cases hwork

theorem lowers_work {max : Option ℕ} (l : Lbl α ρ β) (s : St α ρ β)
    (hg : (atWork L n max).guard l s) : rank n ((atWork L n max).update l s) < rank n s := by
  rcases hg with ⟨hg, hwork⟩
  cases l with
  | flags l => cases hwork
  | loop l =>
      cases l with
      | start =>
          refine rank_of_loop ?_ (fun _ => rfl)
          have hthree : loopRank s = 3 := by
            simp only [loopRank, show s.pc = .submitted from hg]
          rw [hthree]
          exact (by decide : (2 : ℕ) < 3)
      | load c site => exact rank_load (L := L) hg
      | route x => exact rank_route hg
      | tryAcquire w x pc spurious =>
          cases spurious with
          | false => exact rank_tryAcquire hg
          | true => cases hwork
      | send w item => exact rank_send (L := L) hg.1
      | drop w pc spurious =>
          cases spurious with
          | false => exact rank_drop (L := L) hg
          | true => cases hwork
      | startErr | recv origin a | recvErr | sendErr w item | abort | abortSending w item =>
          cases hwork
  | worker w l =>
      have hless := workerRank_lt hg.2 hwork
      have hsum : ∑ u ∈ Finset.range n, workerRank ((s.setWorker w (workerUpdate s.flags l
          (s.worker w))).worker u) + workerRank (s.worker w) =
        ∑ u ∈ Finset.range n, workerRank (s.worker u) +
          workerRank (workerUpdate s.flags l (s.worker w)) :=
        Lts.sum_update workerRank n _ hg.1
      have hloop := loopRank_setWorker (s := s) (limit_of_work s.flags (s.worker w) hwork)
      show rank n (s.setWorker w (workerUpdate s.flags l (s.worker w))) < rank n s
      unfold rank
      omega

end Steps

theorem ranked_atWork (L : SimulatedLoop α ρ β) (n : ℕ) (max : Option ℕ) :
    Lts.Ranked (atWork L n max) (fun _ => True) (rank n) where
  keeps := fun _ _ _ _ => trivial
  lowers := fun l s hg _ => lowers_work l s hg

theorem loopRank_le (s : St α ρ β) : loopRank s ≤ 12 := by
  cases hpc : s.pc with
  | check c site => cases c <;> cases site <;> simp [loopRank, hpc, siteRank]
  | trying w x pc =>
      simp only [loopRank, hpc]
      cases (s.worker w).limit with
      | none => simp
      | some c =>
          have hcost := Pool.tryCost_le c pc
          simp only [Option.elim_some]
          omega
  | dropping w pc =>
      simp only [loopRank, hpc]
      cases (s.worker w).limit with
      | none => simp
      | some c =>
          have hcost := Pool.dropCost_le c pc
          simp only [Option.elim_some]
          omega
  | submitted | receiving | routing x | sending w item | exited => simp [loopRank, hpc]

theorem workerRank_le (k : Worker β) : workerRank k ≤ 4 * k.queue.length + 3 := by
  cases hpc : k.pc <;> simp [workerRank, hpc]

/-- Twelve steps of the receiving loop, three of each dispatch loop, and four for each
queued item. -/
theorem rank_le (n : ℕ) (s : St α ρ β) :
    rank n s ≤ 12 + ∑ w ∈ Finset.range n, (4 * (s.worker w).queue.length + 3) :=
  Nat.add_le_add (loopRank_le s) (Finset.sum_le_sum fun w _ => workerRank_le (s.worker w))

/-! ## Where the loops stop -/

section Stuck

variable {L : SimulatedLoop α ρ β} {n : ℕ} {max : Option ℕ} {tr : List (Lbl α ρ β)}
  {s : St α ρ β}

/-- A dispatch loop stops only at an empty queue. -/
theorem empty_of_stuck (hstuck : (atWork L n max).Stuck s) {w : ℕ} (hw : w < n)
    (h : Serving s.pc (s.worker w)) :
    (s.worker w).pc.inHand = [] ∧ (s.worker w).queue = [] := by
  cases hpc : (s.worker w).pc with
  | submitted => exact absurd ⟨⟨hw, hpc⟩, rfl⟩ (hstuck (.worker w .start))
  | head => exact absurd ⟨⟨hw, hpc⟩, rfl⟩ (hstuck (.worker w .load))
  | receiving =>
      refine ⟨rfl, ?_⟩
      cases hqueue : (s.worker w).queue with
      | nil => rfl
      | cons x rest =>
          have hhead : (s.worker w).queue.head? = some x := by
            rw [hqueue]
            rfl
          exact absurd ⟨⟨hw, hpc, hhead⟩, rfl⟩ (hstuck (.worker w (.recv x)))
  | check x => exact absurd ⟨⟨hw, hpc⟩, rfl⟩ (hstuck (.worker w (.check x)))
  | spawning x => exact absurd ⟨⟨hw, hpc⟩, rfl⟩ (hstuck (.worker w (.spawn x)))
  | dropping pc => exact absurd hpc (h.1 pc)
  | exited => exact ⟨rfl, (h.2 hpc).2⟩

/-- An item is sent to a worker of the server. -/
theorem DeliveryInv.lt_of_sending (h : DeliveryInv L n max tr s) {w : ℕ} {item : Item β}
    (hpc : s.pc = .sending w item) : w < n := by
  have hitems := congrArg List.length (h.items_eq w)
  have hsend : s.pc.sendingTo w = [item] := by
    simp [hpc, LoopPc.sendingTo]
  -- the log has the worker take the item that is being sent
  rw [hsend, List.length_map, List.length_append, List.length_map, List.length_singleton] at hitems
  have hpos : 0 < (taken w s.log).length := by omega
  rw [taken, List.length_map] at hpos
  rcases List.exists_mem_of_length_pos hpos with ⟨e, he⟩
  rcases List.mem_filter.mp he with ⟨hmem, hverdict⟩
  have hjust := h.justified e hmem
  rw [of_decide_eq_true hverdict] at hjust
  exact L.routeOf_lt e.1 n w hjust

/-- The receiving loop stops only for want of an arrival: a queue that is full has a dispatch
loop that empties it. -/
theorem receiving_of_stuck (hstuck : (atWork L n max).Stuck s) (h : DeliveryInv L n max tr s) :
    s.pc = .receiving ∨ s.pc = .exited := by
  cases hpc : s.pc with
  | submitted => exact absurd ⟨hpc, rfl⟩ (hstuck (.loop .start))
  | check c site => exact absurd ⟨hpc, rfl⟩ (hstuck (.loop (.load c site)))
  | receiving => exact Or.inl rfl
  | routing x => exact absurd ⟨hpc, rfl⟩ (hstuck (.loop (.route x)))
  | trying w x pc => exact absurd ⟨hpc, rfl⟩ (hstuck (.loop (.tryAcquire w x pc false)))
  | sending w item =>
      have hw := h.lt_of_sending hpc
      have hroom : (s.worker w).queue.length < fallbackWorkQueueCapacity := by
        rw [(empty_of_stuck hstuck hw (h.serving w)).2]
        simp [fallbackWorkQueueCapacity]
      exact absurd ⟨⟨hpc, hroom⟩, rfl⟩ (hstuck (.loop (.send w item)))
  | dropping w pc => exact absurd ⟨hpc, rfl⟩ (hstuck (.loop (.drop w pc false)))
  | exited => exact Or.inr rfl

/-- When the loops stop, every arrival is decided about, and every item that a worker takes
has its handler. -/
theorem drained_of_stuck (hstuck : (atWork L n max).Stuck s) (h : DeliveryInv L n max tr s) :
    s.log.map Prod.fst = arrivals tr ∧
      ∀ w < n, (s.worker w).spawned.map Item.work = (taken w s.log).map L.item := by
  have hidle : s.pc.Idle := by
    rcases receiving_of_stuck hstuck h with hpc | hpc <;> rw [hpc] <;> exact ⟨rfl, fun _ => rfl⟩
  constructor
  · have harrivals := h.arrivals_eq
    rw [hidle.1] at harrivals
    simpa using harrivals.symm
  · intro w hw
    rcases empty_of_stuck hstuck hw (h.serving w) with ⟨hhand, hqueue⟩
    have hitems := h.items_eq w
    rw [Worker.items, hhand, hqueue, hidle.2 w] at hitems
    simpa using hitems

/-- The loops at work neither receive, nor fail, nor close the server. -/
theorem atWork_step {l : Lbl α ρ β} (hg : (atWork L n max).guard l s) :
    ((atWork L n max).update l s).flags = s.flags ∧ arrivals [l] = [] ∧
      ∀ w x, l ≠ .worker w (.spawnErr x) := by
  rcases hg with ⟨_, hwork⟩
  cases l with
  | flags l => cases hwork
  | loop l =>
      refine ⟨flags_loopUpdate L n l s, ?_, fun _ _ => by rintro ⟨⟩⟩
      cases l with
      | recv origin a => cases hwork
      | start | startErr | load c site | recvErr | route x | tryAcquire w x pc spurious
      | send w item | sendErr w item | drop w pc spurious | abort | abortSending w item => rfl
  | worker w l =>
      refine ⟨rfl, rfl, ?_⟩
      rintro v x ⟨⟩
      cases hwork

/-- So do all their runs. -/
theorem atWork_run {s' : St α ρ β} {work : List (Lbl α ρ β)}
    (hrun : (atWork L n max).Run s work s') :
    s'.flags = s.flags ∧ arrivals work = [] ∧ ∀ w x, Lbl.worker w (.spawnErr x) ∉ work := by
  induction hrun with
  | nil => exact ⟨rfl, rfl, fun _ _ => List.not_mem_nil⟩
  | snoc l _ hg ih =>
      rcases ih with ⟨hflags, harrivals, hspawn⟩
      rcases atWork_step hg with ⟨hflags', harrivals', hspawn'⟩
      refine ⟨hflags'.trans hflags, ?_, ?_⟩
      · rw [arrivals, List.filterMap_append]
        exact List.append_eq_nil_iff.mpr ⟨harrivals, harrivals'⟩
      · intro w x hmem
        rcases List.mem_append.mp hmem with hmem | hmem
        · exact hspawn w x hmem
        · exact hspawn' w x (List.mem_singleton.mp hmem).symm

end Stuck

/-- A simulated server that is left alone delivers all that it has accepted. From every active
state of a run whose spawns succeed, the loops take, in whatever order they are scheduled, at
most twelve steps, three for each worker and four for each queued item, not counting the weak
exchanges that fail for no reason and are repeated; they can always be continued until they stop;
and they stop only when the receiving loop waits for an arrival (or has not started for want of a
socket), every arrival is decided about as it should be, and each worker has spawned the handlers
of all the items that it takes, in order. -/
theorem simulated_drains {L : SimulatedLoop α ρ β} {n : ℕ} {max : Option ℕ} (hn : 1 ≤ n)
    {tr : List (Lbl α ρ β)} {s : St α ρ β}
    (hrun : (server L n max).Run (server L n max).init tr s) (hactive : s.flags.isActive)
    (hspawn : ∀ w x, Lbl.worker w (.spawnErr x) ∉ tr)
    {work : List (Lbl α ρ β)} {s' : St α ρ β} (hwork : (atWork L n max).Run s work s') :
    work.length ≤ 12 + ∑ w ∈ Finset.range n, (4 * (s.worker w).queue.length + 3) ∧
      (∃ rest s'', (atWork L n max).Run s' rest s'' ∧ (atWork L n max).Stuck s'') ∧
      ((atWork L n max).Stuck s' →
        (s'.pc = .receiving ∨ s'.pc = .exited) ∧ s'.log.map Prod.fst = arrivals tr ∧
        (∀ e ∈ s'.log, Justified L n max e.1 e.2) ∧
        ∀ w < n, (s'.worker w).spawned.map Item.work = (taken w s'.log).map L.item) := by
  rcases (ranked_atWork L n max).completes trivial hwork with ⟨hlen, hstop⟩
  refine ⟨hlen.trans (rank_le n s), hstop, ?_⟩
  intro hstuck
  -- the accounts of the whole run
  rcases atWork_run hwork with ⟨hflags, harrivals, hspawn'⟩
  have hinv : DeliveryInv L n max (tr ++ work) s' := by
    refine run_deliveryInv hn (hrun.append hwork.of_restrict) ?_ (hflags ▸ hactive)
    intro w x hmem
    exact (List.mem_append.mp hmem).elim (hspawn w x) (hspawn' w x)
  have hwhole : arrivals (tr ++ work) = arrivals tr := by
    have happend : arrivals (tr ++ work) = arrivals tr ++ arrivals work := List.filterMap_append
    rw [happend, harrivals, List.append_nil]
  rcases drained_of_stuck hstuck hinv with ⟨hlog, hspawned⟩
  rw [hwhole] at hlog
  exact ⟨receiving_of_stuck hstuck hinv, hlog, hinv.justified, hspawned⟩

/-! ### A full queue -/

/-- A TCP server on port 80. -/
def acceptLoop : SimulatedLoop Connection Connection TcpWorkItem :=
  simulatedTcpAcceptLoop (.v4 Ipv4Addr.localhost 80)

/-- A connection that worker 1 of two takes. -/
def peerConnection : Connection := ⟨7, .v4 Ipv4Addr.localhost 55000⟩

/-- A worker whose dispatch loop has not been started, with the connection `k` times in its
queue. -/
def idleWorker (k : ℕ) : Worker TcpWorkItem :=
  ⟨none, List.replicate k ⟨⟨7⟩, .peer⟩, .submitted, [], []⟩

/-- Worker 1 has the connection `k` times in its queue. -/
def queued (k : ℕ) : St Connection Connection TcpWorkItem where
  flags := .initial
  pc := .check .runtime .head
  buffer := newBuffer
  log := List.replicate k (peerConnection, .taken 1)
  worker := Function.update (fun _ => idleWorker 0) 1 (idleWorker k)

/-- The loop has accepted one more connection and waits to send it to worker 1. -/
def blocked (k : ℕ) : St Connection Connection TcpWorkItem :=
  { queued k with
    pc := .sending 1 ⟨⟨7⟩, .peer⟩
    log := List.replicate (k + 1) (peerConnection, .taken 1) }

def acceptTurn : List (Lbl Connection Connection TcpWorkItem) :=
  let x : Received Connection Connection := ⟨peerConnection, peerConnection, .peer⟩
  [.loop (.load .runtime .head), .loop (.load .server .head), .loop (.recv .peer peerConnection),
    .loop (.load .runtime (.item x)), .loop (.load .server (.item x)), .loop (.route x),
    .loop (.tryAcquire 1 x .load false)]

theorem run_acceptTurn (k : ℕ) :
    (server acceptLoop 2 none).Run (queued k) acceptTurn (blocked k) := by
  obtain ⟨s, hrun, hs⟩ : ∃ s, (server acceptLoop 2 none).Run (queued k) acceptTurn s ∧
      s = blocked k := by
    refine ⟨_, .cons rfl (.cons rfl (.cons ⟨rfl, by rintro ⟨⟩⟩ (.cons rfl (.cons rfl (.cons rfl
      (.cons rfl .nil)))))), ?_⟩
    -- the limit of the worker is written back as it was
    have hworker : Function.update (queued k).worker 1 ((queued k).worker 1) = (queued k).worker :=
      Function.update_eq_self 1 _
    rw [blocked, ← hworker, List.replicate_succ']
    rfl
  rw [← hs]
  exact hrun

theorem run_send {k : ℕ} (hroom : k < fallbackWorkQueueCapacity) :
    (server acceptLoop 2 none).Run (blocked k) [.loop (.send 1 ⟨⟨7⟩, .peer⟩)] (queued (k + 1)) := by
  have hg : (server acceptLoop 2 none).guard (.loop (.send 1 ⟨⟨7⟩, .peer⟩)) (blocked k) := by
    refine ⟨rfl, ?_⟩
    show (List.replicate k _).length < _
    rw [List.length_replicate]
    exact hroom
  have hnext : (server acceptLoop 2 none).update (.loop (.send 1 ⟨⟨7⟩, .peer⟩)) (blocked k) =
      queued (k + 1) := by
    have hworker : Function.update (queued k).worker 1 (idleWorker (k + 1)) =
        (queued (k + 1)).worker :=
      Function.update_idem _ _ _
    show _ = { queued (k + 1) with worker := (queued (k + 1)).worker }
    rw [← hworker, idleWorker, List.replicate_succ']
    rfl
  rw [← hnext]
  exact .snoc _ .nil hg

/-- The loop has accepted the connection `k` times, and no spawn has failed. -/
def Accepted (k : ℕ) (tr : List (Lbl Connection Connection TcpWorkItem)) : Prop :=
  arrivals tr = List.replicate k peerConnection ∧ ∀ w x, Lbl.worker w (.spawnErr x) ∉ tr

theorem Accepted.append {k m : ℕ} {tr tr' : List (Lbl Connection Connection TcpWorkItem)}
    (h : Accepted k tr) (h' : Accepted m tr') : Accepted (k + m) (tr ++ tr') := by
  constructor
  · rw [arrivals, List.filterMap_append, ← arrivals, ← arrivals, h.1, h'.1,
      List.replicate_append_replicate]
  · intro w x hmem
    rcases List.mem_append.mp hmem with hmem | hmem
    · exact h.2 w x hmem
    · exact h'.2 w x hmem

theorem accepted_acceptTurn : Accepted 1 acceptTurn :=
  ⟨rfl, by simp [acceptTurn]⟩

/-- The queue can be filled. -/
theorem run_queued : ∀ k ≤ fallbackWorkQueueCapacity,
    ∃ tr, (server acceptLoop 2 none).Run (.initial none) tr (queued k) ∧ Accepted k tr := by
  intro k
  induction k with
  | zero =>
      intro _
      have hstart : (server acceptLoop 2 none).Run (.initial none) [.loop .start] (queued 0) := by
        have hworker : (fun _ => idleWorker 0) = (queued 0).worker :=
          (Function.update_eq_self 1 _).symm
        have hnext : (server acceptLoop 2 none).update (.loop .start) (.initial none) =
            queued 0 := by
          show _ = { queued 0 with worker := (queued 0).worker }
          rw [← hworker]
          rfl
        rw [← hnext]
        exact .snoc (Lbl.loop .start) .nil rfl
      exact ⟨_, hstart, rfl, by simp⟩
  | succ k ih =>
      intro hk
      rcases ih (by omega) with ⟨tr, hrun, haccepted⟩
      have hsent : Accepted 0 [.loop (.send 1 ⟨⟨7⟩, .peer⟩)] := ⟨rfl, by simp⟩
      exact ⟨_, hrun.append ((run_acceptTurn k).append (run_send hk)),
        haccepted.append (accepted_acceptTurn.append hsent)⟩

/-- The queue of worker 1 is full and the loop waits to send it one more connection: whatever
the loops do next, worker 1 gets a handler for each of them. -/
theorem simulated_drains_full :
    ∃ tr s, (server acceptLoop 2 none).Run (.initial none) tr s ∧
      (s.worker 1).queue.length = fallbackWorkQueueCapacity ∧ s.pc = .sending 1 ⟨⟨7⟩, .peer⟩ ∧
      (s.worker 1).spawned = [] ∧
      ∃ rest s', (atWork acceptLoop 2 none).Run s rest s' ∧
        (s'.worker 1).spawned.map Item.work =
          List.replicate (fallbackWorkQueueCapacity + 1) ⟨7⟩ := by
  rcases run_queued fallbackWorkQueueCapacity le_rfl with ⟨tr, hqueued, haccepted⟩
  have hrun := hqueued.append (run_acceptTurn fallbackWorkQueueCapacity)
  obtain ⟨hall, hspawn⟩ := haccepted.append accepted_acceptTurn
  have hactive : (blocked fallbackWorkQueueCapacity).flags.isActive := ⟨rfl, rfl⟩
  rcases (simulated_drains (by decide) hrun hactive hspawn .nil).2.1 with
    ⟨rest, s', hrest, hstuck⟩
  rcases (simulated_drains (by decide) hrun hactive hspawn hrest).2.2 hstuck with
    ⟨_, hlog, hjust, hspawned⟩
  refine ⟨_, _, hrun, List.length_replicate, rfl, rfl, rest, s', hrest, ?_⟩
  rw [hall] at hlog
  -- without a limit worker 1 takes every connection
  have hlength : s'.log.length = fallbackWorkQueueCapacity + 1 := by
    rw [← List.length_map (f := Prod.fst), hlog, List.length_replicate]
  have htaken : s'.log =
      List.replicate (fallbackWorkQueueCapacity + 1) (peerConnection, .taken 1) := by
    refine List.eq_replicate_iff.mpr ⟨hlength, ?_⟩
    rintro ⟨c, v⟩ he
    obtain rfl : c = peerConnection :=
      List.eq_of_mem_replicate (hlog ▸ List.mem_map_of_mem (f := Prod.fst) he)
    have hjustified := hjust _ he
    have hroute : acceptLoop.routeOf peerConnection 2 = .worker 1 := by decide
    cases v with
    | unroutable => cases hroute.symm.trans hjustified
    | full w active =>
        rcases hjustified.2 with ⟨m, hm, _⟩
        cases hm
    | taken w =>
        cases hroute.symm.trans hjustified
        rfl
  rw [hspawned 1 (by decide), htaken, taken, List.filter_replicate_of_pos (by rfl),
    List.map_replicate, List.map_replicate]
  rfl

end Simulated

end ReusePort
