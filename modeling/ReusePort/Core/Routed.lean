import ReusePort.Core.Listener
import ReusePort.Core.Quic
import ReusePort.Core.Schedule

/-!
# ReusePort.Core.Routed — the socket-only fallback

`serve_socket` without kernel balancing hands every worker a routed `UdpSocket`:
the receiving end of a bounded channel. One task reads the real socket and routes
every datagram into one of the channels (`dispatch_socket_only_packets`,
`core/udp.rs`); an application reads its channel through `recv_from`,
`recv_from_vec` or `poll_recv_from`, and drops the socket when its callback ends.

* `Backlog`, `backlog_step` — while the server is active every datagram that is
  routed to a worker whose socket is alive is read, queued or being sent, in
  order and once;
* `backpressure` — so nothing is lost as long as no routed socket is dropped;
* `isolated_iff` — the workers stay isolated exactly in the runs whose every send
  finds its socket alive: a send to a dropped one stops the dispatcher for all.
-/

namespace ReusePort

/-- `RoutedPacket`. -/
structure RoutedPacket where
  payload : List UInt8
  peerAddr : SocketAddr
deriving DecidableEq, Repr

/-! ## The routed socket -/

/-- The receives of a routed socket, with the caller's buffer. -/
inductive RecvCall where
  | recvFromSlice (buffer : List UInt8)
  | recvFromVec (buffer : List UInt8)
  | pollRecvFromSlice (buffer : List UInt8)
deriving DecidableEq, Repr

/-- What a receive reports for a packet: the buffer after the copy, the length
and the peer. -/
def copyPacket (packet : RoutedPacket) (buffer : List UInt8) : List UInt8 × ℕ × SocketAddr :=
  ((copyPrefix packet.payload buffer).1, (copyPrefix packet.payload buffer).2, packet.peerAddr)

/-- `RoutedUdpSocket::recv_from_slice`, on the packet that it dequeues. -/
def recvFromSlice (packet : RoutedPacket) (buffer : List UInt8) :=
  copyPacket packet buffer

/-- `RoutedUdpSocket::recv_from_vec`. -/
def recvFromVec (packet : RoutedPacket) (buffer : List UInt8) :=
  copyPacket packet buffer

/-- `RoutedUdpSocket::poll_recv_from_slice`, when it is ready. -/
def pollRecvFromSlice (packet : RoutedPacket) (buffer : List UInt8) :=
  copyPacket packet buffer

/-- A finished receive: the packet it dequeued, and the call. -/
structure Read where
  call : RecvCall
  packet : Item RoutedPacket
deriving DecidableEq, Repr

/-- What the application sees of a receive. -/
def Read.result (r : Read) : List UInt8 × ℕ × SocketAddr :=
  match r.call with
  | .recvFromSlice buffer => recvFromSlice r.packet.work buffer
  | .recvFromVec buffer => recvFromVec r.packet.work buffer
  | .pollRecvFromSlice buffer => pollRecvFromSlice r.packet.work buffer

def RecvCall.buffer : RecvCall → List UInt8
  | .recvFromSlice buffer => buffer
  | .recvFromVec buffer => buffer
  | .pollRecvFromSlice buffer => buffer

/-- Every receive into a buffer that is large enough reports the payload and the
peer of its packet. -/
theorem Read.result_intact (r : Read)
    (h : r.packet.work.payload.length ≤ r.call.buffer.length) :
    r.result.1.take r.result.2.1 = r.packet.work.payload ∧
      r.result.2.2 = r.packet.work.peerAddr := by
  rcases r with ⟨call, packet⟩
  cases call <;> exact ⟨take_copyPrefix h, rfl⟩

/-! ## The dispatcher -/

/-- The parameters of `dispatch_socket_only_packets`, and the capacity of the
channels. -/
structure Dispatcher where
  workerCount : ℕ
  capacity : ℕ
  routePacket : List UInt8 → PacketMeta → ℕ → Option ℕ
  fallbackLocalAddr : SocketAddr
  transparentReceive : Bool

/-- The router answers with indices of workers. -/
def Dispatcher.RoutesToWorkers (D : Dispatcher) : Prop :=
  ∀ packet packetMeta w, D.routePacket packet packetMeta D.workerCount = some w →
    w < D.workerCount

/-- The router of `UdpServer::serve_socket`. -/
def udpRoutePacket : List UInt8 → PacketMeta → ℕ → Option ℕ :=
  fun _ packetMeta workerCount => (linuxReuseportSelect packetMeta workerCount).toOption

/-- The router of `QuicServer::serve_socket`. -/
def quicRoutePacket : List UInt8 → PacketMeta → ℕ → Option ℕ :=
  fun packet _ workerCount => quicWorkerIndex packet workerCount

theorem routesToWorkers_udp {D : Dispatcher} (h : D.routePacket = udpRoutePacket) :
    D.RoutesToWorkers := by
  intro packet packetMeta w hw
  rw [h, udpRoutePacket] at hw
  rcases Nat.eq_zero_or_pos D.workerCount with hzero | hpos
  · rw [hzero] at hw
    cases hw
  · rcases linuxReuseportSelect_lt packetMeta hpos with ⟨v, hv, hlt⟩
    rw [hv] at hw
    cases hw
    exact hlt

theorem routesToWorkers_quic {D : Dispatcher} (h : D.routePacket = quicRoutePacket) :
    D.RoutesToWorkers := by
  intro packet packetMeta w hw
  rw [h, quicRoutePacket] at hw
  exact quicWorkerIndex_lt hw

namespace Routed

/-- Where the dispatcher stands: it loads the flag at the head of its loop and
after a failed receive, and nowhere else. -/
inductive Pc where
  | submitted
  | head
  | receiving
  | error
  | sending (w : ℕ) (packet : Item RoutedPacket)
  | exited
deriving DecidableEq, Repr

/-- The dispatcher, and for every worker its channel, the finished receives on
its routed socket, and whether the socket (any clone of it) is alive. -/
structure St where
  flags : Flags
  pc : Pc
  buffer : List UInt8
  channel : ℕ → List (Item RoutedPacket)
  reads : ℕ → List Read
  alive : ℕ → Bool

inductive Lbl where
  | flags (l : FlagLbl)
  | start
  | startErr
  | load
  | recv (origin : Origin) (d : Datagram)
  | recvErr
  | loadError
  | send (w : ℕ) (packet : Item RoutedPacket)
  | sendErr (w : ℕ) (packet : Item RoutedPacket)
  | abort
  | read (w : ℕ) (call : RecvCall) (packet : Item RoutedPacket)
  | dropSocket (w : ℕ)
deriving DecidableEq, Repr

/-- The metadata that the dispatcher routes by. -/
def packetMeta (D : Dispatcher) (r : UdpRecv) : PacketMeta :=
  ⟨some r.peerAddr, some (if D.transparentReceive then r.localAddr else D.fallbackLocalAddr)⟩

/-- What the dispatcher does with a received datagram, from its buffer and the
result of the receive: `continue`, `break` (`senders.get(worker_id)` misses), or
wait to send. -/
def dispatch (D : Dispatcher) (buffer : List UInt8) (r : UdpRecv) (origin : Origin) : Pc :=
  match D.routePacket (buffer.take r.len) (packetMeta D r) D.workerCount with
  | none => .head
  | some w =>
      if w < D.workerCount then .sending w ⟨⟨buffer.take r.len, r.peerAddr⟩, origin⟩ else .exited

/-- A send waits for room in the channel of a live routed socket; once the socket
is gone it fails, even if it was waiting. The dispatcher can be aborted where it
awaits. -/
def guard (D : Dispatcher) : Lbl → St → Prop
  | .flags l, s => FlagLbl.guard l s.flags
  | .start, s => s.pc = .submitted
  | .startErr, s => s.pc = .submitted
  | .load, s => s.pc = .head
  | .recv origin d, s =>
      s.pc = .receiving ∧
        (origin = .wakeUp → s.flags.wakeSent = true ∧ isWakeUp d = true)
  | .recvErr, s => s.pc = .receiving
  | .loadError, s => s.pc = .error
  | .send w packet, s =>
      s.pc = .sending w packet ∧ s.alive w = true ∧ (s.channel w).length < D.capacity
  | .sendErr w packet, s => s.pc = .sending w packet ∧ s.alive w = false
  | .abort, s =>
      ¬ s.flags.isActive ∧ s.pc ≠ .head ∧ s.pc ≠ .error
  | .read w _ packet, s => s.alive w = true ∧ (s.channel w).head? = some packet
  | .dropSocket w, s => s.alive w = true

def update (D : Dispatcher) : Lbl → St → St
  | .flags l, s => { s with flags := FlagLbl.update l s.flags }
  | .start, s => { s with pc := .head }
  | .startErr, s => { s with pc := .exited }
  | .load, s => { s with pc := if s.flags.serverActive then .receiving else .exited }
  | .recv origin d, s =>
      { s with
        buffer := (udpReceive s.buffer d).1
        pc := dispatch D (udpReceive s.buffer d).1 (udpReceive s.buffer d).2 origin }
  | .recvErr, s => { s with pc := .error }
  | .loadError, s =>
      if s.flags.serverActive then { s with buffer := newBuffer, pc := .head }
      else { s with pc := .exited }
  | .send w packet, s =>
      { s with
        pc := .head
        channel := Function.update s.channel w (s.channel w ++ [packet]) }
  | .sendErr _ _, s => { s with pc := .exited }
  | .abort, s => { s with pc := .exited }
  | .read w call packet, s =>
      { s with
        channel := Function.update s.channel w (s.channel w).tail
        reads := Function.update s.reads w (s.reads w ++ [⟨call, packet⟩]) }
  | .dropSocket w, s =>
      { s with
        channel := Function.update s.channel w []
        alive := Function.update s.alive w false }

def St.initial : St where
  flags := .initial
  pc := .submitted
  buffer := newBuffer
  channel := fun _ => []
  reads := fun _ => []
  alive := fun _ => true

/-- The dispatcher with its routed sockets. -/
def server (D : Dispatcher) : Lts.Sys St Lbl := ⟨.initial, guard D, update D⟩

instance (D : Dispatcher) : ∀ l s, Decidable ((server D).guard l s)
  | .flags l, s => inferInstanceAs (Decidable (FlagLbl.guard l s.flags))
  | .start, _ => inferInstanceAs (Decidable (_ = _))
  | .startErr, _ => inferInstanceAs (Decidable (_ = _))
  | .load, _ => inferInstanceAs (Decidable (_ = _))
  | .recv _ _, _ => inferInstanceAs (Decidable (_ = _ ∧ (_ = _ → _ = _ ∧ _ = _)))
  | .recvErr, _ => inferInstanceAs (Decidable (_ = _))
  | .loadError, _ => inferInstanceAs (Decidable (_ = _))
  | .send _ _, _ => inferInstanceAs (Decidable (_ = _ ∧ _ = _ ∧ _ < _))
  | .sendErr _ _, _ => inferInstanceAs (Decidable (_ = _ ∧ _ = _))
  | .abort, _ => inferInstanceAs (Decidable (¬ Flags.isActive _ ∧ _ ≠ _ ∧ _ ≠ _))
  | .read _ _ _, _ => inferInstanceAs (Decidable (_ = _ ∧ _ = _))
  | .dropSocket _, _ => inferInstanceAs (Decidable (_ = _))

/-! ## Routes -/

/-- Where the router sends a datagram. -/
def routeOf (D : Dispatcher) (d : Datagram) : Option ℕ :=
  D.routePacket d.payload
    ⟨some d.peerAddr, some (if D.transparentReceive then d.localAddr else D.fallbackLocalAddr)⟩
    D.workerCount

/-- The packet that a datagram becomes. -/
def packetOf (origin : Origin) (d : Datagram) : Item RoutedPacket :=
  ⟨⟨d.payload, d.peerAddr⟩, origin⟩

/-- The dispatcher routes the datagram itself, whatever its buffer held before. -/
theorem dispatch_udpReceive (D : Dispatcher) {buffer : List UInt8} (h : buffer.length = bufferLen)
    (origin : Origin) (d : Datagram) :
    dispatch D (udpReceive buffer d).1 (udpReceive buffer d).2 origin =
      match routeOf D d with
      | none => .head
      | some w => if w < D.workerCount then .sending w (packetOf origin d) else .exited := by
  unfold dispatch
  rw [take_udpReceive d h]
  rfl

/-- The datagrams that the dispatcher has received, in order. -/
def arrivals (tr : List Lbl) : List (Origin × Datagram) :=
  tr.filterMap fun
    | .recv origin d => some (origin, d)
    | _ => none

/-- The packets of the datagrams that the router sends to worker `w`. -/
def routedTo (D : Dispatcher) (w : ℕ) (tr : List Lbl) : List (Item RoutedPacket) :=
  (arrivals tr).filterMap fun (origin, d) =>
    if routeOf D d = some w then some (packetOf origin d) else none

theorem routedTo_recv (D : Dispatcher) (w : ℕ) (tr : List Lbl) (origin : Origin) (d : Datagram) :
    routedTo D w (tr ++ [.recv origin d]) =
      routedTo D w tr ++ if routeOf D d = some w then [packetOf origin d] else [] := by
  simp only [routedTo, arrivals, List.filterMap_append, List.filterMap_cons, List.filterMap_nil]
  split <;> simp_all

theorem routedTo_other (D : Dispatcher) (w : ℕ) (tr : List Lbl) {l : Lbl}
    (h : ∀ origin d, l ≠ .recv origin d) : routedTo D w (tr ++ [l]) = routedTo D w tr := by
  have hnone : arrivals [l] = [] := by
    cases l <;> first | rfl | exact absurd rfl (h _ _)
  have happend : arrivals (tr ++ [l]) = arrivals tr ++ arrivals [l] := List.filterMap_append
  rw [routedTo, happend, hnone, List.append_nil]
  rfl

/-! ## The backlog of a worker -/

/-- The packet that the dispatcher is blocked sending to worker `w`. -/
def Pc.blocked (w : ℕ) : Pc → List (Item RoutedPacket)
  | .sending v packet => if v = w then [packet] else []
  | _ => []

/-- What has come to worker `w`: dequeued, in its channel, being sent. -/
def St.backlog (s : St) (w : ℕ) : List (Item RoutedPacket) :=
  (s.reads w).map Read.packet ++ (s.channel w ++ s.pc.blocked w)

/-- While the server is active, the backlog of every worker with a live socket is
exactly what was routed to it. -/
structure Backlog (D : Dispatcher) (tr : List Lbl) (s : St) : Prop where
  buffer : s.buffer.length = bufferLen
  room : ∀ w, (s.channel w).length ≤ D.capacity
  routed : s.flags.isActive → ∀ w, s.alive w = true → s.backlog w = routedTo D w tr

theorem backlog_initial (D : Dispatcher) : Backlog D [] .initial where
  buffer := length_newBuffer
  room := by
    intro w
    exact Nat.zero_le _
  routed := by
    intro _ w _
    rfl

/-- A step of the dispatcher between receives and sends. -/
theorem Backlog.move {D : Dispatcher} {tr : List Lbl} {l : Lbl} {s s' : St} (h : Backlog D tr s)
    (hl : ∀ origin d, l ≠ .recv origin d) (hbuffer : s'.buffer.length = bufferLen)
    (hchannel : s'.channel = s.channel) (hreads : s'.reads = s.reads) (halive : s'.alive = s.alive)
    (hactive : s'.flags.isActive → s.flags.isActive ∧ ∀ w, s.alive w = true →
      s'.pc.blocked w = s.pc.blocked w) :
    Backlog D (tr ++ [l]) s' where
  buffer := hbuffer
  room := by
    rw [hchannel]
    exact h.room
  routed := by
    intro hact w hw
    rcases hactive hact with ⟨hact', hblocked⟩
    rw [halive] at hw
    rw [routedTo_other D w tr hl, ← h.routed hact' w hw, St.backlog, St.backlog, hchannel, hreads,
      hblocked w hw]

/-- A step of the dispatcher between two places where it is sending nothing. -/
theorem Backlog.idle {D : Dispatcher} {tr : List Lbl} {l : Lbl} {s : St} {pc pc' : Pc}
    {buffer : List UInt8} (h : Backlog D tr s) (hl : ∀ origin d, l ≠ .recv origin d)
    (hpc : s.pc = pc) (hbuffer : buffer.length = bufferLen) (hold : ∀ w, pc.blocked w = [])
    (hnew : ∀ w, pc'.blocked w = []) :
    Backlog D (tr ++ [l]) { s with buffer := buffer, pc := pc' } := by
  refine h.move hl hbuffer rfl rfl rfl fun hact => ⟨hact, ?_⟩
  intro w _
  show pc'.blocked w = s.pc.blocked w
  rw [hnew w, hpc, hold w]

theorem backlog_recv {D : Dispatcher} (hroute : D.RoutesToWorkers) {tr : List Lbl} {s : St}
    {origin : Origin} {d : Datagram} (hg : guard D (.recv origin d) s) (h : Backlog D tr s) :
    Backlog D (tr ++ [.recv origin d]) (update D (.recv origin d) s) where
  buffer := (length_udpReceive _ _).trans h.buffer
  room := h.room
  routed := by
    intro hact w hw
    have hold := h.routed hact w hw
    rw [St.backlog, hg.1] at hold
    simp only [update, St.backlog, dispatch_udpReceive D h.buffer]
    rw [routedTo_recv, ← hold]
    cases hr : routeOf D d with
    | none => simp [Pc.blocked]
    | some v =>
        have hlt : v < D.workerCount := hroute _ _ v hr
        by_cases hv : v = w
        · subst hv
          simp [hlt, Pc.blocked]
        · simp [hlt, hv, Pc.blocked]

theorem backlog_send {D : Dispatcher} {tr : List Lbl} {s : St} {v : ℕ} {packet : Item RoutedPacket}
    (hg : guard D (.send v packet) s) (h : Backlog D tr s) :
    Backlog D (tr ++ [.send v packet]) (update D (.send v packet) s) where
  buffer := h.buffer
  room := by
    refine (Function.forall_update_iff s.channel fun _ q => q.length ≤ D.capacity).mpr
      ⟨?_, fun w _ => h.room w⟩
    rw [List.length_append, List.length_singleton]
    exact hg.2.2
  routed := by
    intro hact w hw
    rw [routedTo_other D w tr (by rintro _ _ ⟨⟩), ← h.routed hact w hw, St.backlog, St.backlog,
      hg.1]
    by_cases hv : w = v
    · subst hv
      simp [update, Pc.blocked]
    · simp [update, Function.update_of_ne hv, Pc.blocked, Ne.symm hv]

theorem backlog_read {D : Dispatcher} {tr : List Lbl} {s : St} {v : ℕ} {call : RecvCall}
    {packet : Item RoutedPacket} (hg : guard D (.read v call packet) s) (h : Backlog D tr s) :
    Backlog D (tr ++ [.read v call packet]) (update D (.read v call packet) s) where
  buffer := h.buffer
  room := by
    refine (Function.forall_update_iff s.channel fun _ q => q.length ≤ D.capacity).mpr
      ⟨?_, fun w _ => h.room w⟩
    rw [List.length_tail]
    exact (Nat.sub_le _ _).trans (h.room v)
  routed := by
    intro hact w hw
    rw [routedTo_other D w tr (by rintro _ _ ⟨⟩), ← h.routed hact w hw, St.backlog, St.backlog]
    by_cases hv : w = v
    · subst hv
      -- the head of the channel becomes the last of the reads
      have hhead : s.channel w = packet :: (s.channel w).tail := by
        rcases List.head?_eq_some_iff.mp hg.2 with ⟨rest, hrest⟩
        rw [hrest]
        rfl
      simp only [update, Function.update_self, List.map_append, List.map_cons, List.map_nil]
      rw [hhead]
      simp
    · simp [update, Function.update_of_ne hv]

theorem backlog_dropSocket {D : Dispatcher} {tr : List Lbl} {s : St} {v : ℕ} (h : Backlog D tr s) :
    Backlog D (tr ++ [.dropSocket v]) (update D (.dropSocket v) s) where
  buffer := h.buffer
  room := (Function.forall_update_iff s.channel fun _ q => q.length ≤ D.capacity).mpr
    ⟨Nat.zero_le _, fun w _ => h.room w⟩
  routed := by
    intro hact w hw
    by_cases hv : w = v
    · subst hv
      simp [update] at hw
    · simp only [update, Function.update_of_ne hv] at hw
      rw [routedTo_other D w tr (by rintro _ _ ⟨⟩), ← h.routed hact w hw]
      simp only [update, St.backlog, Function.update_of_ne hv]

/-- The invariant is kept by every step, whatever the router does as long as it
answers with workers. -/
theorem backlog_step {D : Dispatcher} (hroute : D.RoutesToWorkers)
    (tr : List Lbl) (l : Lbl) (s : St) (hg : guard D l s) (h : Backlog D tr s) :
    Backlog D (tr ++ [l]) (update D l s) := by
  cases l with
  | flags l =>
      refine h.move (by rintro _ _ ⟨⟩) h.buffer rfl rfl rfl ?_
      intro hact
      exact ⟨FlagLbl.isActive_of_update hact, fun _ _ => rfl⟩
  | start =>
      exact h.idle (by rintro _ _ ⟨⟩) hg h.buffer (fun _ => rfl) fun _ => rfl
  | startErr =>
      exact h.idle (by rintro _ _ ⟨⟩) hg h.buffer (fun _ => rfl) fun _ => rfl
  | load =>
      refine h.idle (by rintro _ _ ⟨⟩) hg h.buffer (fun _ => rfl) ?_
      intro w
      split <;> rfl
  | recv origin d => exact backlog_recv hroute hg h
  | recvErr =>
      exact h.idle (by rintro _ _ ⟨⟩) hg h.buffer (fun _ => rfl) fun _ => rfl
  | loadError =>
      simp only [update]
      split
      · exact h.idle (by rintro _ _ ⟨⟩) hg length_newBuffer (fun _ => rfl) fun _ => rfl
      · exact h.idle (by rintro _ _ ⟨⟩) hg h.buffer (fun _ => rfl) fun _ => rfl
  | send v packet => exact backlog_send hg h
  | sendErr v packet =>
      -- the packet is lost, but its worker has no socket any more
      refine h.move (by rintro _ _ ⟨⟩) h.buffer rfl rfl rfl fun hact => ⟨hact, ?_⟩
      intro w hw
      have hv : v ≠ w := by
        rintro rfl
        rw [hg.2] at hw
        cases hw
      rw [hg.1]
      simp [update, Pc.blocked, hv]
  | abort =>
      refine h.move (by rintro _ _ ⟨⟩) h.buffer rfl rfl rfl ?_
      intro hact
      exact absurd hact hg.1
  | read v call packet => exact backlog_read hg h
  | dropSocket v => exact backlog_dropSocket h

theorem run_backlog {D : Dispatcher} (hroute : D.RoutesToWorkers)
    {tr : List Lbl} {s : St} (hrun : (server D).Run .initial tr s) : Backlog D tr s :=
  (server D).trace_invariant (Backlog D) (backlog_initial D)
    (fun tr l s _ hg h => backlog_step hroute tr l s hg h) tr s hrun

/-- Backpressure without loss: while the server is active and no routed socket has
been dropped, what was dequeued from the socket of a worker, what its channel
holds and what the dispatcher is blocked sending to it are together exactly the
datagrams received so far that the router sends to the worker, in the order of
their arrival and each once; every receive into a large enough buffer reports the
payload and the peer; and no channel holds more than its capacity. -/
theorem backpressure {D : Dispatcher} (hroute : D.RoutesToWorkers)
    {tr : List Lbl} {s : St} (hrun : (server D).Run .initial tr s) (hactive : s.flags.isActive)
    (halive : ∀ w, s.alive w = true) (w : ℕ) :
    (s.reads w).map Read.packet ++ (s.channel w ++ s.pc.blocked w) = routedTo D w tr ∧
      (∀ r ∈ s.reads w, r.packet.work.payload.length ≤ r.call.buffer.length →
        r.result.1.take r.result.2.1 = r.packet.work.payload ∧
          r.result.2.2 = r.packet.work.peerAddr) ∧
      (s.channel w).length ≤ D.capacity := by
  have hbacklog := run_backlog hroute hrun
  refine ⟨hbacklog.routed hactive w (halive w), ?_, hbacklog.room w⟩
  intro r _ hfits
  exact r.result_intact hfits

/-! ## Isolation of the workers -/

/-- The label of a send that meets a dropped socket. -/
def Lbl.isSendErr : Lbl → Bool
  | .sendErr _ _ => true
  | _ => false

/-- The dispatcher never comes back. -/
theorem exited_step {D : Dispatcher} (l : Lbl) (s : St) (hg : guard D l s) (h : s.pc = .exited) :
    (update D l s).pc = .exited := by
  cases l with
  | flags l => exact h
  | read v call packet => exact h
  | dropSocket v => exact h
  | startErr | sendErr v packet | abort => rfl
  | start | load | recvErr | loadError =>
      have hpc := h.symm.trans hg
      cases hpc
  | recv origin d =>
      have hpc := h.symm.trans hg.1
      cases hpc
  | send v packet =>
      have hpc := h.symm.trans hg.1
      cases hpc

/-- The ways in which an active dispatcher ends. -/
theorem exits {D : Dispatcher} (hroute : D.RoutesToWorkers)
    {l : Lbl} {s : St} (hg : guard D l s) (hbuffer : s.buffer.length = bufferLen)
    (hactive : (update D l s).flags.isActive) (h : (update D l s).pc = .exited) :
    s.pc = .exited ∨ l = .startErr ∨ l.isSendErr = true := by
  cases l with
  | flags l => exact Or.inl h
  | read v call packet => exact Or.inl h
  | dropSocket v => exact Or.inl h
  | startErr => exact Or.inr (Or.inl rfl)
  | sendErr v packet => exact Or.inr (Or.inr rfl)
  | abort => exact absurd hactive hg.1
  | start | recvErr | send v packet => cases h
  | load =>
      have hf : s.flags.serverActive = true := hactive.2
      simp [update, hf] at h
  | loadError =>
      have hf : s.flags.serverActive = true := by
        cases hf : s.flags.serverActive with
        | true => rfl
        | false =>
            simp only [update, hf] at hactive
            exact hf.symm.trans hactive.2
      simp [update, hf] at h
  | recv origin d =>
      simp only [update, dispatch_udpReceive D hbuffer] at h
      cases hr : routeOf D d with
      | none => simp [hr] at h
      | some v => simp [hr, hroute _ _ v hr] at h

/-- What ends an active dispatcher: it does not come up, or a send fails, and
never both. -/
structure Stopped (tr : List Lbl) (s : St) : Prop where
  startErr : .startErr ∈ tr → s.pc = .exited
  sendErr : (∃ l ∈ tr, l.isSendErr = true) → s.pc = .exited ∧ .startErr ∉ tr
  exited : s.flags.isActive → s.pc = .exited → .startErr ∈ tr ∨ ∃ l ∈ tr, l.isSendErr = true

theorem isActive_of_update {D : Dispatcher} {l : Lbl} {s : St}
    (h : (update D l s).flags.isActive) : s.flags.isActive := by
  cases l with
  | flags l => exact FlagLbl.isActive_of_update h
  | loadError =>
      simp only [update] at h
      split at h <;> exact h
  | start | startErr | load | recv origin d | recvErr | send v packet | sendErr v packet | abort
  | read v call packet | dropSocket v => exact h

theorem stopped_step {D : Dispatcher} (hroute : D.RoutesToWorkers)
    (tr : List Lbl) (l : Lbl) (s : St) (hg : guard D l s) (hbuffer : s.buffer.length = bufferLen)
    (h : Stopped tr s) : Stopped (tr ++ [l]) (update D l s) where
  startErr := by
    intro hmem
    rcases List.mem_append.mp hmem with hmem | hmem
    · exact exited_step l s hg (h.startErr hmem)
    · rw [← List.mem_singleton.mp hmem]
      rfl
  sendErr := by
    rintro ⟨m, hmem, hm⟩
    rcases List.mem_append.mp hmem with hmem | hmem
    · -- the failed send lies before, so the dispatcher cannot fail to come up now
      rcases h.sendErr ⟨m, hmem, hm⟩ with ⟨hpc, hnot⟩
      refine ⟨exited_step l s hg hpc, ?_⟩
      intro hstart
      rcases List.mem_append.mp hstart with hstart | hstart
      · exact hnot hstart
      · rw [← List.mem_singleton.mp hstart] at hg
        cases hpc.symm.trans hg
    · rw [List.mem_singleton.mp hmem] at hm
      cases l with
      | sendErr v packet =>
          refine ⟨rfl, ?_⟩
          intro hstart
          rcases List.mem_append.mp hstart with hstart | hstart
          · cases (h.startErr hstart).symm.trans hg.1
          · cases List.mem_singleton.mp hstart
      | flags _ | start | startErr | load | recv _ _ | recvErr | loadError | send _ _ | abort
      | read _ _ _ | dropSocket _ => cases hm
  exited := by
    intro hactive hpc
    rcases exits hroute hg hbuffer hactive hpc with hold | hl | hl
    · rcases h.exited (isActive_of_update hactive) hold with hstart | ⟨m, hmem, hm⟩
      · exact Or.inl (List.mem_append_left _ hstart)
      · exact Or.inr ⟨m, List.mem_append_left _ hmem, hm⟩
    · exact Or.inl (List.mem_append_right _ (List.mem_singleton.mpr hl.symm))
    · exact Or.inr ⟨l, List.mem_append_right _ (List.mem_singleton.mpr rfl), hl⟩

theorem run_stopped {D : Dispatcher} (hroute : D.RoutesToWorkers)
    {tr : List Lbl} {s : St} (hrun : (server D).Run .initial tr s) : Stopped tr s := by
  refine (server D).trace_invariant Stopped ?_ ?_ tr s hrun
  · refine ⟨fun hmem => by (cases hmem), ?_, fun _ hpc => by (cases hpc)⟩
    rintro ⟨l, hmem, -⟩
    cases hmem
  · intro tr l s hrun hg h
    exact stopped_step hroute tr l s hg (run_backlog hroute hrun).buffer h

/-- The workers are isolated from one another: the dispatcher runs on (it may not
have come up in the first place), and every datagram received whose route is a
worker with a live socket has been enqueued for it, or is about to. -/
def Isolated (D : Dispatcher) (tr : List Lbl) (s : St) : Prop :=
  (s.pc = .exited → .startErr ∈ tr) ∧
    ∀ w, s.alive w = true → s.backlog w = routedTo D w tr

/-- The routed socket that a finished send was for is alive. -/
def SendsToLive : Lbl → St → Prop
  | .send w _, s => s.alive w = true
  | .sendErr w _, s => s.alive w = true
  | _, _ => True

/-- A send fails exactly when it meets a dropped socket. -/
theorem sendsToLive_iff {D : Dispatcher} {l : Lbl} {s : St} (hg : guard D l s) :
    SendsToLive l s ↔ l.isSendErr = false := by
  cases l with
  | send w packet => exact iff_of_true hg.2.1 rfl
  | sendErr w packet =>
      refine iff_of_false ?_ (by rintro ⟨⟩)
      intro halive
      cases halive.symm.trans hg.2
  | flags _ | start | startErr | load | recv _ _ | recvErr | loadError | abort | read _ _ _
  | dropSocket _ => exact iff_of_true trivial rfl

theorem run_sendsToLive_iff {D : Dispatcher} {tr : List Lbl} {s : St}
    (hrun : (server D).Run .initial tr s) :
    ((server D).restrict SendsToLive).Run .initial tr s ↔ ∀ l ∈ tr, l.isSendErr = false := by
  constructor
  · intro hlive
    clear hrun
    induction hlive with
    | nil =>
        intro l hl
        cases hl
    | snoc l _ hg ih =>
        intro m hm
        rcases List.mem_append.mp hm with hm | hm
        · exact ih m hm
        · rw [List.mem_singleton.mp hm]
          exact (sendsToLive_iff hg.1).mp hg.2
  · intro hnone
    induction hrun with
    | nil => exact .nil
    | snoc l _ hg ih =>
        have hlast := hnone l (List.mem_append_right _ (List.mem_singleton.mpr rfl))
        refine .snoc l (ih fun m hm => hnone m (List.mem_append_left _ hm)) ⟨hg, ?_⟩
        exact (sendsToLive_iff hg).mpr hlast

/-- A run in which the server is not closed leaves the workers isolated exactly
if, whenever one of its sends is answered, the routed socket of that worker is
still alive. -/
theorem isolated_iff {D : Dispatcher} (hroute : D.RoutesToWorkers)
    {tr : List Lbl} {s : St} (hrun : (server D).Run .initial tr s) (hactive : s.flags.isActive) :
    Isolated D tr s ↔ ((server D).restrict SendsToLive).Run .initial tr s := by
  have hstopped := run_stopped hroute hrun
  rw [run_sendsToLive_iff hrun]
  constructor
  · rintro ⟨hruns, -⟩ l hmem
    by_contra hl
    rcases hstopped.sendErr ⟨l, hmem, Bool.eq_true_of_not_eq_false hl⟩ with ⟨hpc, hnot⟩
    exact hnot (hruns hpc)
  · intro hnone
    refine ⟨?_, (run_backlog hroute hrun).routed hactive⟩
    intro hpc
    rcases hstopped.exited hactive hpc with hstart | ⟨l, hmem, hl⟩
    · exact hstart
    · cases (hnone l hmem).symm.trans hl

/-! ## Runs

Runs in which the dispatcher receives a datagram; they hold for any router, so
the receive buffer need not be computed. -/

theorem run_single {D : Dispatcher} {l : Lbl} {s : St} (hg : guard D l s) :
    (server D).Run s [l] (update D l s) :=
  .snoc l .nil hg

/-- A received datagram with a route is about to be sent. -/
theorem pc_recv {D : Dispatcher} {s : St} {d : Datagram} {w : ℕ} (origin : Origin)
    (hbuffer : s.buffer.length = bufferLen) (hroute : routeOf D d = some w)
    (hw : w < D.workerCount) :
    (update D (.recv origin d) s).pc = .sending w (packetOf origin d) := by
  simp [update, dispatch_udpReceive D hbuffer, hroute, hw]

/-- The dispatcher waits for its first datagram. -/
def afterStart : St := { St.initial with pc := .receiving }

theorem run_afterStart (D : Dispatcher) : (server D).Run .initial [.start, .load] afterStart :=
  .snoc Lbl.load (.snoc Lbl.start .nil rfl) rfl

/-- The dispatcher comes up after the callback of worker `v` has ended. -/
def afterDrop (v : ℕ) : St :=
  { St.initial with
    pc := .receiving
    channel := Function.update (fun _ => []) v []
    alive := Function.update (fun _ => true) v false }

theorem run_afterDrop (D : Dispatcher) (v : ℕ) :
    (server D).Run .initial [.dropSocket v, .start, .load] (afterDrop v) :=
  .snoc Lbl.load (.snoc Lbl.start (.snoc (Lbl.dropSocket v) .nil rfl) rfl) rfl

/-- A datagram for the worker that has gone away ends the dispatcher, with the
server active and every other socket alive. -/
theorem run_stall {D : Dispatcher} {d : Datagram} {v : ℕ} (hroute : routeOf D d = some v)
    (hv : v < D.workerCount) :
    ∃ s, (server D).Run .initial
        [.dropSocket v, .start, .load, .recv .peer d, .sendErr v (packetOf .peer d)] s ∧
      s.flags.isActive ∧ s.pc = .exited ∧ ∀ w, w ≠ v → s.alive w = true := by
  have hpc := pc_recv (s := afterDrop v) .peer length_newBuffer hroute hv
  have hrecv : guard D (.recv .peer d) (afterDrop v) := ⟨rfl, by rintro ⟨⟩⟩
  have hfail : guard D (.sendErr v (packetOf .peer d)) (update D (.recv .peer d) (afterDrop v)) :=
    ⟨hpc, by simp [update, afterDrop]⟩
  refine ⟨_, (run_afterDrop D v).append ((run_single hrecv).append (run_single hfail)),
    ⟨rfl, rfl⟩, rfl, ?_⟩
  intro w hw
  simp [update, afterDrop, hw]

/-- A received datagram with a route waits to be sent. -/
theorem run_recv {D : Dispatcher} {d : Datagram} {s : St} {w : ℕ} (hpc : s.pc = .receiving)
    (hbuffer : s.buffer.length = bufferLen) (hroute : routeOf D d = some w)
    (hw : w < D.workerCount) :
    ∃ buffer, buffer.length = bufferLen ∧ (server D).Run s [.recv .peer d]
      { s with buffer := buffer, pc := .sending w (packetOf .peer d) } := by
  have hrecv : guard D (.recv .peer d) s := ⟨hpc, by rintro ⟨⟩⟩
  have hstep : (server D).update (.recv .peer d) s =
      { s with
        buffer := (udpReceive s.buffer d).1
        pc := .sending w (packetOf .peer d) } := by
    rw [← pc_recv .peer hbuffer hroute hw]
    rfl
  refine ⟨(udpReceive s.buffer d).1, (length_udpReceive _ _).trans hbuffer, ?_⟩
  rw [← hstep]
  exact run_single hrecv

/-- A datagram is received and enqueued, and the dispatcher waits for the next. -/
theorem run_enqueue {D : Dispatcher} {d : Datagram} {s : St} {w : ℕ} (hpc : s.pc = .receiving)
    (hbuffer : s.buffer.length = bufferLen) (hroute : routeOf D d = some w)
    (hw : w < D.workerCount) (halive : s.alive w = true)
    (hroom : (s.channel w).length < D.capacity) (hactive : s.flags.serverActive = true) :
    ∃ buffer, buffer.length = bufferLen ∧
      (server D).Run s [.recv .peer d, .send w (packetOf .peer d), .load]
        { s with
          buffer := buffer
          channel := Function.update s.channel w (s.channel w ++ [packetOf .peer d]) } := by
  rcases run_recv hpc hbuffer hroute hw with ⟨buffer, hlength, hrecv⟩
  have hsend := run_single (D := D) (l := .send w (packetOf .peer d))
    (s := { s with buffer := buffer, pc := .sending w (packetOf .peer d) }) ⟨rfl, halive, hroom⟩
  have hload := run_single (D := D) (l := .load) (s := update D (.send w (packetOf .peer d))
    { s with buffer := buffer, pc := .sending w (packetOf .peer d) }) rfl
  refine ⟨buffer, hlength, ?_⟩
  have hrun := hrecv.append (hsend.append hload)
  simpa [update, hactive, ← hpc] using hrun

/-- A short-header QUIC packet with the two-byte worker index `i`. -/
def shortPacket (i : UInt8) : Datagram :=
  ⟨[0x40, 0, i], .v4 Ipv4Addr.localhost 5000, .v4 Ipv4Addr.localhost 4433, by simp⟩

/-- `QuicServer::serve_socket` in its fallback with two workers. -/
def quicFallback : Dispatcher where
  workerCount := 2
  capacity := 4096
  routePacket := quicRoutePacket
  fallbackLocalAddr := .v4 Ipv4Addr.localhost 4433
  transparentReceive := false

/-- The same with channels that hold one packet. -/
def quicNarrow : Dispatcher := { quicFallback with capacity := 1 }

/-- The dispatcher has enqueued one datagram for worker 0 and waits to send it a
second one. -/
def afterBlock (buffer : List UInt8) : St :=
  { afterStart with
    buffer := buffer
    pc := .sending 0 (packetOf .peer (shortPacket 2))
    channel := Function.update (fun _ => []) 0 [packetOf .peer (shortPacket 0)] }

/-- The trace to `afterBlock`. -/
def blockTrace : List Lbl :=
  [.start, .load, .recv .peer (shortPacket 0), .send 0 (packetOf .peer (shortPacket 0)), .load,
    .recv .peer (shortPacket 2)]

theorem run_afterBlock :
    ∃ buffer, buffer.length = bufferLen ∧
      (server quicNarrow).Run .initial blockTrace (afterBlock buffer) := by
  rcases run_enqueue (D := quicNarrow) (d := shortPacket 0) (s := afterStart) (w := 0) rfl
    length_newBuffer (by decide) (by decide) rfl (by decide) rfl with ⟨buffer, hlength, hfirst⟩
  rcases run_recv (D := quicNarrow) (d := shortPacket 2) (w := 0) (s := { afterStart with
    buffer := buffer
    channel := Function.update (fun _ => []) 0 [packetOf .peer (shortPacket 0)] }) rfl hlength
    (by decide) (by decide) with ⟨buffer', hlength', hsecond⟩
  exact ⟨buffer', hlength', (run_afterStart quicNarrow).append (hfirst.append hsecond)⟩

/-- The callback of worker 1 ends and drops its socket; a datagram for worker 1
then ends the dispatcher. The server is active and the socket of worker 0 alive,
but no datagram is received any more, so none can reach worker 0. -/
theorem not_isolated :
    ∃ tr s, (server quicFallback).Run .initial tr s ∧ s.flags.isActive ∧ s.alive 0 = true ∧
      routeOf quicFallback (shortPacket 0) = some 0 ∧ ¬ Isolated quicFallback tr s ∧
      ∀ tr' s', (server quicFallback).Run s tr' s' →
        ∀ origin d, ¬ (server quicFallback).guard (.recv origin d) s' := by
  rcases run_stall (D := quicFallback) (d := shortPacket 1) (v := 1) (by decide) (by decide) with
    ⟨s, hrun, hactive, hpc, halive⟩
  refine ⟨_, s, hrun, hactive, halive 0 (by decide), by decide, ?_, ?_⟩
  · rintro ⟨hruns, -⟩
    exact absurd (hruns hpc) (by decide)
  · intro tr' s' hrun' origin d hg
    have hpc' := hrun'.preserves (fun s => s.pc = .exited) hpc exited_step
    cases hpc'.symm.trans hg.1

/-- With worker 1 gone, two datagrams for worker 0 are enqueued; every send finds
its socket alive, and the workers are isolated. -/
theorem isolated_iff_quicFallback :
    ∃ tr s, (server quicFallback).Run .initial tr s ∧ s.flags.isActive ∧ s.alive 1 = false ∧
      s.channel 0 = [packetOf .peer (shortPacket 0), packetOf .peer (shortPacket 2)] ∧
      ((server quicFallback).restrict SendsToLive).Run .initial tr s ∧
      Isolated quicFallback tr s := by
  rcases run_enqueue (D := quicFallback) (d := shortPacket 0) (s := afterDrop 1) (w := 0) rfl
    length_newBuffer (by decide) (by decide) rfl (by decide) rfl with ⟨buffer, hlength, hfirst⟩
  rcases run_enqueue (D := quicFallback) (d := shortPacket 2) (w := 0) (s := { afterDrop 1 with
    buffer := buffer
    channel := Function.update (afterDrop 1).channel 0 [packetOf .peer (shortPacket 0)] })
    rfl hlength (by decide) (by decide) rfl (show 1 < 4096 by decide) rfl with
    ⟨buffer', -, hsecond⟩
  have hall := (run_afterDrop quicFallback 1).append (hfirst.append hsecond)
  have hlive := (run_sendsToLive_iff hall).mpr (by simp [Lbl.isSendErr])
  exact ⟨_, _, hall, ⟨rfl, rfl⟩, rfl, rfl, hlive,
    (isolated_iff (routesToWorkers_quic rfl) hall ⟨rfl, rfl⟩).mpr hlive⟩

/-- Three datagrams for worker 0 with all sockets alive: one has been read, one
fills the channel, and the send of the third waits. -/
theorem backpressure_quicNarrow :
    ∃ tr s, (server quicNarrow).Run .initial tr s ∧ s.flags.isActive ∧
      (∀ w, s.alive w = true) ∧
      s.reads 0 = [⟨.recvFromSlice [0, 0, 0], packetOf .peer (shortPacket 0)⟩] ∧
      s.channel 0 = [packetOf .peer (shortPacket 2)] ∧
      s.pc.blocked 0 = [packetOf .peer (shortPacket 4)] ∧ quicNarrow.capacity = 1 ∧
      (s.reads 0).map Read.packet ++ (s.channel 0 ++ s.pc.blocked 0) =
        routedTo quicNarrow 0 tr := by
  rcases run_afterBlock with ⟨buffer, hlength, hblocked⟩
  -- a read makes room for the second datagram, which fills the channel again
  obtain ⟨t, hread, hpc, hbuffer, hflags, halive, hreads, hchannel⟩ :
      ∃ t, (server quicNarrow).Run (afterBlock buffer)
        [.read 0 (.recvFromSlice [0, 0, 0]) (packetOf .peer (shortPacket 0)),
          .send 0 (packetOf .peer (shortPacket 2)), .load] t ∧
        t.pc = .receiving ∧ t.buffer = buffer ∧ t.flags = .initial ∧ (∀ w, t.alive w = true) ∧
        t.reads 0 = [⟨.recvFromSlice [0, 0, 0], packetOf .peer (shortPacket 0)⟩] ∧
        t.channel 0 = [packetOf .peer (shortPacket 2)] :=
    ⟨_, (server quicNarrow).run_of_exec rfl, rfl, rfl, rfl, fun _ => rfl, rfl, rfl⟩
  rcases run_recv (D := quicNarrow) (d := shortPacket 4) (w := 0) hpc (hbuffer ▸ hlength)
    (by decide) (by decide) with ⟨buffer', -, hthird⟩
  have hall := hblocked.append (hread.append hthird)
  have hactive : t.flags.isActive := by
    rw [hflags]
    exact ⟨rfl, rfl⟩
  refine ⟨_, _, hall, hactive, halive, hreads, hchannel, rfl, rfl, ?_⟩
  exact (backpressure (routesToWorkers_quic rfl) hall hactive halive 0).1

end Routed

end ReusePort
