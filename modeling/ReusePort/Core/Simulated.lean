import ReusePort.Core.Listener
import ReusePort.Core.Quic
import ReusePort.Core.Schedule

/-!
# ReusePort.Core.Simulated — the simulated handler servers

Without kernel balancing one loop receives for the whole server and routes every
item to a worker: `simulated_udp_listener_loop` (`core/udp.rs`),
`quic_routed_udp_listener_loop` (`core/quic.rs`) and `simulated_tcp_accept_loop`
(`core/tcp.rs`). It takes a permit of the worker's limit without waiting, and
sends the item, with the permit, into the bounded queue of the worker, whose
dispatch loop (`udp_state_dispatch_loop`, `tcp_state_dispatch_loop`) spawns the
handler. The three servers are one system, with the differences in a
`SimulatedLoop`.

* `worker_loopUpdate`, `flags_loopUpdate` — what the receiving loop leaves alone;
* `items_workerStep`, `items_subset` — which steps of a worker keep its items.
-/

namespace ReusePort

/-- What a loop does with a received item: `continue`, `break`, or go on to a
worker. -/
inductive Route where
  | skip
  | stop
  | worker (w : ℕ)
deriving DecidableEq, Repr

/-- What tells the three simulated loops apart: how they receive, and where they
route. `route` is what the loop computes from its buffer and the result of the
receive, `routeOf` the route of an arrival. -/
structure SimulatedLoop (α ρ β : Type) extends Receiver α ρ β where
  route : List UInt8 → ρ → ℕ → Route
  routeOf : α → ℕ → Route
  route_receive : ∀ buffer a n, buffer.length = bufferLen →
    route (receive buffer a).1 (receive buffer a).2 n = routeOf a n
  /-- With at least one worker the loop is never left for want of a route, and
  every route is a worker. -/
  routeOf_ne_stop : ∀ a n, 1 ≤ n → routeOf a n ≠ .stop
  routeOf_lt : ∀ a n w, routeOf a n = .worker w → w < n

/-- `let Ok(worker_id) = .. else { break }`. -/
def Route.ofExcept : Except Error ℕ → Route
  | .ok w => .worker w
  | .error _ => .stop

/-- `let Some(worker_id) = .. else { continue }`. -/
def Route.ofOption : Option ℕ → Route
  | some w => .worker w
  | none => .skip

theorem Route.ofExcept_ok {r : Except Error ℕ} {n : ℕ} (h : ∃ w, r = .ok w ∧ w < n) :
    Route.ofExcept r ≠ .stop ∧ ∀ w, Route.ofExcept r = .worker w → w < n := by
  rcases h with ⟨w, rfl, hlt⟩
  refine ⟨by rintro ⟨⟩, ?_⟩
  intro v hv
  cases hv
  exact hlt

/-- `simulated_udp_listener_loop`. -/
def simulatedUdpListenerLoop : SimulatedLoop Datagram UdpRecv UdpWorkItem :=
  { udpReceiver some with
    route := fun _ r workerCount =>
      .ofExcept (linuxReuseportSelect ⟨some r.peerAddr, some r.localAddr⟩ workerCount)
    routeOf := fun d workerCount =>
      .ofExcept (linuxReuseportSelect ⟨some d.peerAddr, some d.localAddr⟩ workerCount)
    route_receive := by
      intro buffer d n _
      rfl
    routeOf_ne_stop := by
      intro d n hn
      exact (Route.ofExcept_ok (linuxReuseportSelect_lt _ hn)).1
    routeOf_lt := by
      intro d n w hw
      rcases Nat.eq_zero_or_pos n with rfl | hn
      · cases hw
      · exact (Route.ofExcept_ok (linuxReuseportSelect_lt _ hn)).2 w hw }

/-- `quic_routed_udp_listener_loop`; `localAddr` is `socket.local_addr().ok()`. -/
def quicRoutedUdpListenerLoop (localAddr : Option SocketAddr) :
    SimulatedLoop Datagram UdpRecv UdpWorkItem :=
  { udpReceiver (fun _ => localAddr) with
    route := fun buffer r workerCount =>
      .ofOption (quicWorkerIndex (buffer.take r.len) workerCount)
    routeOf := fun d workerCount => .ofOption (quicWorkerIndex d.payload workerCount)
    route_receive := by
      intro buffer d n h
      show Route.ofOption (quicWorkerIndex (List.take _ _) n) = _
      rw [udpReceiver, take_udpReceive d h]
    routeOf_ne_stop := by
      intro d n _
      cases quicWorkerIndex d.payload n <;> rintro ⟨⟩
    routeOf_lt := by
      intro d n w hw
      cases hroute : quicWorkerIndex d.payload n with
      | none =>
          rw [hroute] at hw
          cases hw
      | some v =>
          rw [hroute] at hw
          cases hw
          exact quicWorkerIndex_lt hroute }

/-- `simulated_tcp_accept_loop`; `localAddr` is the address of the listener. -/
def simulatedTcpAcceptLoop (localAddr : SocketAddr) :
    SimulatedLoop Connection Connection TcpWorkItem :=
  { tcpReceiver with
    route := fun _ c workerCount =>
      .ofExcept (selectSimulatedTcpWorker ⟨some c.peerAddr, some localAddr⟩ workerCount)
    routeOf := fun c workerCount =>
      .ofExcept (selectSimulatedTcpWorker ⟨some c.peerAddr, some localAddr⟩ workerCount)
    route_receive := by
      intro buffer c n _
      rfl
    routeOf_ne_stop := by
      intro c n hn
      exact (Route.ofExcept_ok (selectSimulatedTcpWorker_lt _ hn)).1
    routeOf_lt := by
      intro c n w hw
      rcases Nat.eq_zero_or_pos n with rfl | hn
      · cases hw
      · exact (Route.ofExcept_ok (selectSimulatedTcpWorker_lt _ hn)).2 w hw }

/-- `FALLBACK_UDP_WORK_QUEUE_CAPACITY` and `FALLBACK_TCP_WORK_QUEUE_CAPACITY`. -/
def fallbackWorkQueueCapacity : ℕ := 4096

namespace Simulated

/-! ## The receiving loop -/

/-- The places where the receiving loop calls `is_active`. -/
inductive Site (κ : Type) where
  | head
  | error
  | item (x : κ)
deriving DecidableEq, Repr

/-- Where the receiving loop stands. `dropping` is the drop of an item, and of
the permit in it, that could not be sent. -/
inductive LoopPc (κ β : Type) where
  | submitted
  | check (c : Check) (site : Site κ)
  | receiving
  | routing (x : κ)
  | trying (w : ℕ) (x : κ) (pc : TryPc)
  | sending (w : ℕ) (item : Item β)
  | dropping (w : ℕ) (pc : DropPc)
  | exited
deriving DecidableEq, Repr

/-- What the loop decides about an arrival: it has no route, the limit of its
worker was full (at this value of the counter), or it got a permit. -/
inductive Verdict where
  | unroutable
  | full (w active : ℕ)
  | taken (w : ℕ)
deriving DecidableEq, Repr

/-! ## The workers -/

/-- Where the dispatch loop of a worker stands. -/
inductive DispatchPc (β : Type) where
  | submitted
  | head
  | receiving
  | check (x : Item β)
  | spawning (x : Item β)
  | dropping (pc : DropPc)
  | exited
deriving DecidableEq, Repr

/-- A worker: its limit, its queue, its dispatch task, its handler tasks (and
the drops of items that were still queued when the dispatch loop ended), and the
record of the items for which a handler was spawned. -/
structure Worker (β : Type) where
  limit : WorkerConcurrencyLimit
  queue : List (Item β)
  pc : DispatchPc β
  handlers : List (Handler β)
  spawned : List (Item β)

/-- The server; `log` records what the receiving loop has decided, in order. -/
structure St (α ρ β : Type) where
  flags : Flags
  pc : LoopPc (Received α ρ) β
  buffer : List UInt8
  log : List (α × Verdict)
  worker : ℕ → Worker β

inductive LoopLbl (α ρ β : Type) where
  | start
  | startErr
  | load (c : Check) (site : Site (Received α ρ))
  | recv (origin : Origin) (a : α)
  | recvErr
  | route (x : Received α ρ)
  | tryAcquire (w : ℕ) (x : Received α ρ) (pc : TryPc) (spurious : Bool)
  | send (w : ℕ) (item : Item β)
  | sendErr (w : ℕ) (item : Item β)
  | drop (w : ℕ) (pc : DropPc) (spurious : Bool)
  | abort
  | abortSending (w : ℕ) (item : Item β)
deriving DecidableEq, Repr

inductive WorkerLbl (β : Type) where
  | start
  | load
  | recv (x : Item β)
  | closed
  | check (x : Item β)
  | spawn (x : Item β)
  | spawnErr (x : Item β)
  | drop (pc : DropPc) (spurious : Bool)
  | abort
  | drain (x : Item β)
  | handlerEnd (i : ℕ) (x : Item β)
  | handlerDrop (i : ℕ) (pc : DropPc) (spurious : Bool)
deriving DecidableEq, Repr

inductive Lbl (α ρ β : Type) where
  | flags (l : FlagLbl)
  | loop (l : LoopLbl α ρ β)
  | worker (w : ℕ) (l : WorkerLbl β)
deriving DecidableEq, Repr

variable {α ρ β : Type}

/-! ## Steps of a worker -/

/-- `close` cancels the dispatch tasks too; a queue is seen closed once it is
empty and the receiving loop, which owns the senders, has ended. -/
def workerGuard (f : Flags) (loop : LoopPc (Received α ρ) β) : WorkerLbl β → Worker β → Prop
  | .start, k => k.pc = .submitted
  | .load, k => k.pc = .head
  | .recv x, k => k.pc = .receiving ∧ k.queue.head? = some x
  | .closed, k => k.pc = .receiving ∧ k.queue = [] ∧ loop = .exited
  | .check x, k => k.pc = .check x
  | .spawn x, k => k.pc = .spawning x
  | .spawnErr x, k => k.pc = .spawning x
  | .drop pc _, k => k.pc = .dropping pc
  | .abort, k => ¬ f.isActive ∧ (k.pc = .submitted ∨ k.pc = .receiving)
  | .drain x, k => k.pc = .exited ∧ k.queue.head? = some x
  | .handlerEnd i x, k => k.handlers[i]? = some (.running x)
  | .handlerDrop i pc _, k => k.handlers[i]? = some (.dropping pc)

def Worker.dropped (k : Worker β) : WorkerConcurrencyLimit × Option DropPc → Worker β
  | (limit, some pc) => { k with limit := limit, pc := .dropping pc }
  | (limit, none) => { k with limit := limit, pc := .exited }

/-- The dispatch loops look at the server's flag only. -/
def workerUpdate (f : Flags) : WorkerLbl β → Worker β → Worker β
  | .start, k => { k with pc := .head }
  | .load, k => { k with pc := if f.serverActive then .receiving else .exited }
  | .recv x, k => { k with queue := k.queue.tail, pc := .check x }
  | .closed, k => { k with pc := .exited }
  | .check x, k => { k with pc := if f.serverActive then .spawning x else .dropping .load }
  | .spawn x, k =>
      { k with
        pc := .head
        handlers := .running x :: k.handlers
        spawned := k.spawned ++ [x] }
  | .spawnErr _, k => { k with pc := .dropping .load }
  | .drop pc spurious, k => k.dropped (k.limit.drop spurious pc)
  | .abort, k => { k with pc := .exited }
  | .drain _, k => { k with queue := k.queue.tail, handlers := .dropping .load :: k.handlers }
  | .handlerEnd i _, k => { k with handlers := k.handlers.set i (.dropping .load) }
  | .handlerDrop i pc spurious, k =>
      { k with
        limit := (k.limit.drop spurious pc).1
        handlers := Handler.set k.handlers i (k.limit.drop spurious pc).2 }

/-! ## Steps of the receiving loop -/

/-- `is_active` returned `true`: the loop goes on, after a failed receive with a
fresh buffer. -/
def St.proceed (s : St α ρ β) : Site (Received α ρ) → St α ρ β
  | .head => { s with pc := .receiving }
  | .error => { s with buffer := newBuffer, pc := .check .runtime .head }
  | .item x => { s with pc := .routing x }

/-- One load of `is_active`, with the value it yields. -/
def St.load (s : St α ρ β) (site : Site (Received α ρ)) : Check → Bool → St α ρ β
  | _, false => { s with pc := .exited }
  | .runtime, true => { s with pc := .check .server site }
  | .server, true => s.proceed site

/-- The next turn of the loop, with the verdict about the item of this one. -/
def St.next (s : St α ρ β) (x : Received α ρ) (v : Verdict) : St α ρ β :=
  { s with pc := .check .runtime .head, log := s.log ++ [(x.arrival, v)] }

/-- `limits.get(worker_id)` misses past the last worker. -/
def St.routed (s : St α ρ β) (n : ℕ) (x : Received α ρ) : Route → St α ρ β
  | .skip => s.next x .unroutable
  | .stop => { s with pc := .exited }
  | .worker w => if w < n then { s with pc := .trying w x .load } else { s with pc := .exited }

def St.setWorker (s : St α ρ β) (w : ℕ) (k : Worker β) : St α ρ β :=
  { s with worker := Function.update s.worker w k }

/-- The item that the loop sends. -/
def itemOf (L : SimulatedLoop α ρ β) (buffer : List UInt8) (x : Received α ρ) : Item β :=
  ⟨L.work buffer x.recv, x.origin⟩

def St.tried (L : SimulatedLoop α ρ β) (s : St α ρ β) (w : ℕ) (x : Received α ρ) :
    TryNext → St α ρ β
  | .more pc => { s with pc := .trying w x pc }
  | .full active => s.next x (.full w active)
  | .got =>
      { s with
        pc := .sending w (itemOf L s.buffer x)
        log := s.log ++ [(x.arrival, .taken w)] }

def St.dropped (s : St α ρ β) (w : ℕ) : Option DropPc → St α ρ β
  | some pc => { s with pc := .dropping w pc }
  | none => { s with pc := .exited }

/-- A send waits for room. It may fail once the dispatch loop has dropped the
receiver. -/
def loopGuard (L : SimulatedLoop α ρ β) : LoopLbl α ρ β → St α ρ β → Prop
  | .start, s => s.pc = .submitted
  | .startErr, s => s.pc = .submitted
  | .load c site, s => s.pc = .check c site
  | .recv origin a, s =>
      s.pc = .receiving ∧ (origin = .wakeUp → s.flags.wakeSent = true ∧ L.wakeUp a = true)
  | .recvErr, s => s.pc = .receiving
  | .route x, s => s.pc = .routing x
  | .tryAcquire w x pc _, s => s.pc = .trying w x pc
  | .send w item, s =>
      s.pc = .sending w item ∧ (s.worker w).queue.length < fallbackWorkQueueCapacity
  | .sendErr w item, s => s.pc = .sending w item ∧ (s.worker w).pc = .exited
  | .drop w pc _, s => s.pc = .dropping w pc
  | .abort, s => ¬ s.flags.isActive ∧ (s.pc = .submitted ∨ s.pc = .receiving)
  | .abortSending w item, s => ¬ s.flags.isActive ∧ s.pc = .sending w item

def loopUpdate (L : SimulatedLoop α ρ β) (n : ℕ) : LoopLbl α ρ β → St α ρ β → St α ρ β
  | .start, s => { s with pc := .check .runtime .head }
  | .startErr, s => { s with pc := .exited }
  | .load c site, s => s.load site c (s.flags.get c)
  | .recv origin a, s =>
      { s with
        buffer := (L.receive s.buffer a).1
        pc := .check .runtime (.item ⟨a, (L.receive s.buffer a).2, origin⟩) }
  | .recvErr, s =>
      { s with pc := if L.retriesOnError then .check .runtime .error else .exited }
  | .route x, s => s.routed n x (L.route s.buffer x.recv n)
  | .tryAcquire w x pc spurious, s =>
      St.tried L (s.setWorker w
          { s.worker w with limit := ((s.worker w).limit.tryAcquire spurious pc).1 }) w x
        ((s.worker w).limit.tryAcquire spurious pc).2
  | .send w item, s =>
      { s.setWorker w { s.worker w with queue := (s.worker w).queue ++ [item] } with
        pc := .check .runtime .head }
  | .sendErr w _, s => { s with pc := .dropping w .load }
  | .drop w pc spurious, s =>
      (s.setWorker w { s.worker w with limit := ((s.worker w).limit.drop spurious pc).1 }).dropped w
        ((s.worker w).limit.drop spurious pc).2
  | .abort, s => { s with pc := .exited }
  | .abortSending w _, s => { s with pc := .dropping w .load }

/-! ## The server -/

def guard (L : SimulatedLoop α ρ β) (n : ℕ) : Lbl α ρ β → St α ρ β → Prop
  | .flags l, s => FlagLbl.guard l s.flags
  | .loop l, s => loopGuard L l s
  | .worker w l, s => w < n ∧ workerGuard s.flags s.pc l (s.worker w)

def update (L : SimulatedLoop α ρ β) (n : ℕ) : Lbl α ρ β → St α ρ β → St α ρ β
  | .flags l, s => { s with flags := FlagLbl.update l s.flags }
  | .loop l, s => loopUpdate L n l s
  | .worker w l, s => s.setWorker w (workerUpdate s.flags l (s.worker w))

/-- All tasks have just been submitted. -/
def St.initial (max : Option ℕ) : St α ρ β where
  flags := .initial
  pc := .submitted
  buffer := newBuffer
  log := []
  worker := fun _ => ⟨.new max, [], .submitted, [], []⟩

/-- The server with `n` workers and a limit of `max` handlers on each. -/
def server (L : SimulatedLoop α ρ β) (n : ℕ) (max : Option ℕ) :
    Lts.Sys (St α ρ β) (Lbl α ρ β) :=
  ⟨.initial max, guard L n, update L n⟩

section Decidable

variable [DecidableEq α] [DecidableEq ρ] [DecidableEq β]

instance (f : Flags) (loop : LoopPc (Received α ρ) β) :
    ∀ l k, Decidable (workerGuard f loop l k)
  | .start, _ => inferInstanceAs (Decidable (_ = _))
  | .load, _ => inferInstanceAs (Decidable (_ = _))
  | .recv _, _ => inferInstanceAs (Decidable (_ = _ ∧ _ = _))
  | .closed, _ => inferInstanceAs (Decidable (_ = _ ∧ _ = _ ∧ _ = _))
  | .check _, _ => inferInstanceAs (Decidable (_ = _))
  | .spawn _, _ => inferInstanceAs (Decidable (_ = _))
  | .spawnErr _, _ => inferInstanceAs (Decidable (_ = _))
  | .drop _ _, _ => inferInstanceAs (Decidable (_ = _))
  | .abort, _ => inferInstanceAs (Decidable (¬ Flags.isActive _ ∧ (_ = _ ∨ _ = _)))
  | .drain _, _ => inferInstanceAs (Decidable (_ = _ ∧ _ = _))
  | .handlerEnd _ _, _ => inferInstanceAs (Decidable (_ = _))
  | .handlerDrop _ _ _, _ => inferInstanceAs (Decidable (_ = _))

instance (L : SimulatedLoop α ρ β) : ∀ l s, Decidable (loopGuard L l s)
  | .start, _ => inferInstanceAs (Decidable (_ = _))
  | .startErr, _ => inferInstanceAs (Decidable (_ = _))
  | .load _ _, _ => inferInstanceAs (Decidable (_ = _))
  | .recv _ _, _ => inferInstanceAs (Decidable (_ = _ ∧ (_ = _ → _ = _ ∧ _ = _)))
  | .recvErr, _ => inferInstanceAs (Decidable (_ = _))
  | .route _, _ => inferInstanceAs (Decidable (_ = _))
  | .tryAcquire _ _ _ _, _ => inferInstanceAs (Decidable (_ = _))
  | .send _ _, _ => inferInstanceAs (Decidable (_ = _ ∧ _ < _))
  | .sendErr _ _, _ => inferInstanceAs (Decidable (_ = _ ∧ _ = _))
  | .drop _ _ _, _ => inferInstanceAs (Decidable (_ = _))
  | .abort, _ => inferInstanceAs (Decidable (¬ Flags.isActive _ ∧ (_ = _ ∨ _ = _)))
  | .abortSending _ _, _ => inferInstanceAs (Decidable (¬ Flags.isActive _ ∧ _ = _))

instance (L : SimulatedLoop α ρ β) (n : ℕ) (max : Option ℕ) :
    ∀ l s, Decidable ((server L n max).guard l s)
  | .flags l, s => inferInstanceAs (Decidable (FlagLbl.guard l s.flags))
  | .loop l, s => inferInstanceAs (Decidable (loopGuard L l s))
  | .worker w l, s => inferInstanceAs (Decidable (w < n ∧ workerGuard s.flags s.pc l (s.worker w)))

end Decidable

/-! ## Frame -/

theorem worker_load (s : St α ρ β) (site : Site (Received α ρ)) (ch : Check) (b : Bool) :
    (s.load site ch b).worker = s.worker := by
  cases b <;> cases ch <;> cases site <;> rfl

theorem worker_tried (L : SimulatedLoop α ρ β) (s : St α ρ β) (v : ℕ) (x : Received α ρ)
    (next : TryNext) :
    (St.tried L s v x next).worker = s.worker := by
  cases next <;> rfl

theorem worker_dropped (s : St α ρ β) (v : ℕ) (next : Option DropPc) :
    (s.dropped v next).worker = s.worker := by
  cases next <;> rfl

theorem flags_loopUpdate (L : SimulatedLoop α ρ β) (n : ℕ) (l : LoopLbl α ρ β) (s : St α ρ β) :
    (loopUpdate L n l s).flags = s.flags := by
  cases l with
  | load ch site =>
      simp only [loopUpdate]
      cases s.flags.get ch <;> cases ch <;> cases site <;> rfl
  | route x =>
      simp only [loopUpdate]
      cases L.route s.buffer x.recv n with
      | skip | stop => rfl
      | worker v =>
          simp only [St.routed]
          split <;> rfl
  | tryAcquire v x pc spurious =>
      simp only [loopUpdate]
      cases ((s.worker v).limit.tryAcquire spurious pc).2 <;> rfl
  | drop v pc spurious =>
      simp only [loopUpdate]
      cases ((s.worker v).limit.drop spurious pc).2 <;> rfl
  | start | startErr | recv origin a | recvErr | send v item | sendErr v item | abort
  | abortSending v item => rfl

theorem setWorker_frame (s : St α ρ β) (v w : ℕ) (limit : WorkerConcurrencyLimit)
    (queue : List (Item β)) :
    ∃ limit' queue', (s.setWorker v { s.worker v with limit := limit, queue := queue }).worker w =
      { s.worker w with limit := limit', queue := queue' } := by
  by_cases hv : w = v
  · subst hv
    exact ⟨limit, queue, by simp [St.setWorker]⟩
  · exact ⟨(s.worker w).limit, (s.worker w).queue, by
      simp only [St.setWorker, Function.update_of_ne hv]⟩

/-- The receiving loop touches the limit and the queue of a worker, but neither
its dispatch loop nor what it has spawned. -/
theorem worker_loopUpdate (L : SimulatedLoop α ρ β) (n : ℕ) (l : LoopLbl α ρ β) (s : St α ρ β)
    (w : ℕ) :
    ∃ limit queue, (loopUpdate L n l s).worker w =
      { s.worker w with limit := limit, queue := queue } := by
  cases l with
  | load ch site =>
      exact ⟨_, _, congrFun (worker_load s site ch _) w⟩
  | route x =>
      refine ⟨(s.worker w).limit, (s.worker w).queue, ?_⟩
      simp only [loopUpdate]
      cases L.route s.buffer x.recv n with
      | skip | stop => rfl
      | worker v =>
          simp only [St.routed]
          split <;> rfl
  | tryAcquire v x pc spurious =>
      simp only [loopUpdate, worker_tried]
      exact setWorker_frame s v w _ _
  | send v item =>
      simp only [loopUpdate]
      exact setWorker_frame s v w _ _
  | drop v pc spurious =>
      simp only [loopUpdate, worker_dropped]
      exact setWorker_frame s v w _ _
  | start | startErr | recv origin a | recvErr | sendErr v item | abort | abortSending v item =>
      exact ⟨_, _, rfl⟩

/-! ## The items of a worker -/

/-- The item that the dispatch loop has taken and not yet spawned. -/
def DispatchPc.inHand : DispatchPc β → List (Item β)
  | .check x => [x]
  | .spawning x => [x]
  | _ => []

/-- The items that have come to a worker and are not lost, in order: spawned, with
the dispatch loop, queued. -/
def Worker.items (k : Worker β) : List (Item β) := k.spawned ++ (k.pc.inHand ++ k.queue)

theorem items_recv {k : Worker β} {x : Item β} (hpc : k.pc = .receiving)
    (hx : k.queue.head? = some x) :
    Worker.items { k with queue := k.queue.tail, pc := .check x } = k.items := by
  cases hq : k.queue with
  | nil =>
      rw [hq] at hx
      cases hx
  | cons y queue =>
      rw [hq] at hx
      cases hx
      simp [Worker.items, hpc, hq, DispatchPc.inHand]

/-- No step of a worker loses an item or changes their order, but a failed check,
a failed spawn and the end of the queue. -/
theorem items_workerStep {f : Flags} {loop : LoopPc (Received α ρ) β} {l : WorkerLbl β}
    {k : Worker β} (hg : workerGuard f loop l k)
    (hcheck : ∀ x, l = .check x → f.serverActive = true)
    (hspawn : ∀ x, l ≠ .spawnErr x) (hdrain : ∀ x, l ≠ .drain x) :
    (workerUpdate f l k).items = k.items := by
  cases l with
  | start => simp [workerUpdate, Worker.items, show k.pc = .submitted from hg, DispatchPc.inHand]
  | load =>
      cases hf : f.serverActive <;>
        simp [workerUpdate, Worker.items, hf, show k.pc = .head from hg, DispatchPc.inHand]
  | recv x => exact items_recv hg.1 hg.2
  | closed => simp [workerUpdate, Worker.items, hg.1, DispatchPc.inHand]
  | check x =>
      simp [workerUpdate, Worker.items, hcheck x rfl, show k.pc = .check x from hg,
        DispatchPc.inHand]
  | spawn x =>
      simp [workerUpdate, Worker.items, show k.pc = .spawning x from hg, DispatchPc.inHand]
  | spawnErr x => exact absurd rfl (hspawn x)
  | drop pc spurious =>
      have hpc : k.pc = .dropping pc := hg
      simp only [workerUpdate]
      rcases k.limit.drop spurious pc with ⟨limit, _ | pc'⟩ <;>
        simp [Worker.dropped, Worker.items, hpc, DispatchPc.inHand]
  | abort =>
      rcases hg.2 with hpc | hpc <;> simp [workerUpdate, Worker.items, hpc, DispatchPc.inHand]
  | drain x => exact absurd rfl (hdrain x)
  | handlerEnd i x => rfl
  | handlerDrop i pc spurious => rfl

/-- No step of a worker makes up an item. -/
theorem items_subset {f : Flags} {loop : LoopPc (Received α ρ) β} {l : WorkerLbl β}
    {k : Worker β} (hg : workerGuard f loop l k) : (workerUpdate f l k).items ⊆ k.items := by
  -- the item in hand is dropped, or the first queued one
  have hdrop : ∀ pc : DispatchPc β, pc.inHand = [] →
      Worker.items { k with pc := pc } ⊆ k.items := by
    intro pc hpc x hx
    simp only [Worker.items, hpc, List.nil_append, List.mem_append] at hx ⊢
    exact hx.imp id Or.inr
  cases l with
  | check x =>
      cases hf : f.serverActive with
      | true =>
          rw [items_workerStep hg (fun _ _ => hf) (by rintro _ ⟨⟩) (by rintro _ ⟨⟩)]
          exact List.Subset.refl _
      | false =>
          simp only [workerUpdate, hf]
          exact hdrop (.dropping .load) rfl
  | spawnErr x => exact hdrop (.dropping .load) rfl
  | drain x =>
      intro y hy
      simp only [Worker.items, workerUpdate, List.mem_append] at hy ⊢
      exact hy.imp id fun h => h.imp id List.mem_of_mem_tail
  | start | load | recv x | closed | spawn x | drop pc spurious | abort | handlerEnd i x
  | handlerDrop i pc spurious =>
      rw [items_workerStep hg (by rintro _ ⟨⟩) (by rintro _ ⟨⟩) (by rintro _ ⟨⟩)]
      exact List.Subset.refl _

/-- Setting the limit of a worker leaves all items alone. -/
theorem items_setLimit (s : St α ρ β) (v w : ℕ) (limit : WorkerConcurrencyLimit) :
    ((s.setWorker v { s.worker v with limit := limit }).worker w).items = (s.worker w).items := by
  by_cases hv : w = v
  · subst hv
    simp [St.setWorker, Worker.items]
  · simp [St.setWorker, Function.update_of_ne hv]

end Simulated

end ReusePort
