import ReusePort.Core.Routed
import ReusePort.Core.Service

/-!
# ReusePort.Core.RoutedService — routed sockets implement the service

Behind a routed socket an application reads what a handler would be given. The
dispatcher, the channels and the sockets together are one more implementation of the
service: a receive that returns takes the place of a handler that is started, and a
socket that is dropped that of a worker that fails.

* `routed_refines` — so the packets of a socket are those of its worker, in order;
* `Lossy`, `run_lossy` — what becomes of the datagrams of a live socket, through the
  end of the dispatcher;
* `endOfStream` — `UnexpectedEof` is the end: it stays, and nothing but the packet that
  the dispatcher was sending when it was aborted has been missed.
-/

namespace ReusePort.Routed

/-! ## The service of the routed sockets -/

def spec (D : Dispatcher) : Service.Spec Datagram RoutedPacket where
  limit := none
  refuses := false
  route := routeOf D
  item := fun d => ⟨d.payload, d.peerAddr⟩

/-- What can be seen of the routed sockets. -/
def event : Lbl → Option (Service.Event Datagram RoutedPacket)
  | .flags .runtimeDrop => some .closed
  | .flags .closeStore => some .closed
  | .recv _ d => some (.arrived d)
  | .read w _ packet => some (.handled w packet.work)
  | .dropSocket w => some (.failed w)
  | _ => none

/-- What there is of worker `w`. -/
def slot (s : St) (w : ℕ) : Service.Slot RoutedPacket where
  waiting := (s.channel w ++ s.pc.blocked w).map Item.work
  running := ((s.reads w).map fun r => r.packet.work : List RoutedPacket)
  ending := 0
  up := s.flags.isActive ∧ s.alive w = true

theorem reachable_buffer {D : Dispatcher} (hroute : D.RoutesToWorkers) {s : St}
    (hs : (server D).Reachable s) : s.buffer.length = bufferLen := by
  rcases hs with ⟨tr, hrun⟩
  exact (run_backlog hroute hrun).buffer

section Answers

variable {D : Dispatcher} {s s' : St} {t : Service.St RoutedPacket}

/-- The dispatcher leaves the sockets alone. -/
theorem quiet_dispatcher (hreads : s'.reads = s.reads) (hflags : s'.flags = s.flags)
    (halive : s'.alive = s.alive) (u : ℕ) : (slot s u).Quiet (slot s' u) := by
  refine ⟨?_, le_refl _, fun _ => rfl, ?_⟩
  · simp only [slot, hreads]
  · simp only [slot, hflags, halive]
    exact id

/-- A step between two places where the dispatcher is sending nothing. -/
theorem answers_idle (h : Service.Represents (slot s) t) {pc pc' : Pc} {buffer : List UInt8}
    (hpc : s.pc = pc) (hwas : ∀ u, pc.blocked u = []) (hnow : ∀ u, pc'.blocked u = []) :
    Lts.Answers (Service.sys (spec D)) (fun l _ => l.event) []
      (Service.Represents (slot { s with buffer := buffer, pc := pc' })) t := by
  refine h.stutter (quiet_dispatcher rfl rfl rfl) ?_
  intro u
  simp only [slot, hpc, hwas, hnow]

/-- The dispatcher ends with a packet for a worker that is down. -/
theorem answers_unsent (h : Service.Represents (slot s) t) {w : ℕ} {packet : Item RoutedPacket}
    (hpc : s.pc = .sending w packet) (hdown : ¬ (slot s w).up) :
    Lts.Answers (Service.sys (spec D)) (fun l _ => l.event) []
      (Service.Represents (slot { s with pc := .exited })) t := by
  refine h.shed ((s.channel w).map Item.work) [] (w := w) (b := packet.work)
    (quiet_dispatcher rfl rfl rfl) ?_ ?_ ?_ (fun hup => absurd hup hdown)
  · simp [slot, hpc, Pc.blocked]
  · simp [slot, Pc.blocked]
  · intro u hu
    simp [slot, hpc, Pc.blocked, Ne.symm hu]

theorem answers_recv (hroute : D.RoutesToWorkers) (hbuffer : s.buffer.length = bufferLen)
    (h : Service.Represents (slot s) t) {origin : Origin} {d : Datagram}
    (hpc : s.pc = .receiving) :
    Lts.Answers (Service.sys (spec D)) (fun l _ => l.event) [.arrived d]
      (Service.Represents (slot (update D (.recv origin d) s))) t := by
  refine h.arrive d (quiet_dispatcher rfl rfl rfl) ?_
  intro u
  rw [Service.routed_arrived]
  simp only [slot, update, dispatch_udpReceive D hbuffer, hpc]
  cases hr : routeOf D d with
  | none => simp [spec, hr, Pc.blocked]
  | some v =>
      have hlt : v < D.workerCount := hroute _ _ v hr
      by_cases hv : v = u
      · subst hv
        simp [spec, hr, hlt, Pc.blocked, packetOf]
      · simp [spec, hr, hlt, hv, Pc.blocked]

theorem answers_read (h : Service.Represents (slot s) t) {w : ℕ} {call : RecvCall}
    {packet : Item RoutedPacket} (hg : guard D (.read w call packet) s) :
    Lts.Answers (Service.sys (spec D)) (fun l _ => l.event) [.handled w packet.work]
      (Service.Represents (slot (update D (.read w call packet) s))) t := by
  have hhead : s.channel w = packet :: (s.channel w).tail := List.eq_cons_of_mem_head? hg.2
  have hslot : slot (update D (.read w call packet) s) =
      Function.update (slot s) w (slot (update D (.read w call packet) s) w) := by
    refine Function.eq_update_iff.mpr ⟨rfl, ?_⟩
    intro u hu
    simp only [slot, update, Function.update_of_ne hu]
  rw [hslot]
  refine h.handle ?_ ?_ rfl id ?_
  · simp only [slot, update, Function.update_self]
    nth_rewrite 1 [hhead]
    rfl
  · simp only [slot, update, Function.update_self, List.map_append, List.map_cons, List.map_nil]
    rw [← Multiset.coe_add, Multiset.coe_singleton, add_comm, Multiset.singleton_add]
  · rintro m ⟨⟩

/-- With the socket goes what is queued for it. -/
theorem answers_dropSocket (h : Service.Represents (slot s) t) (w : ℕ) :
    Lts.Answers (Service.sys (spec D)) (fun l _ => l.event) [.failed w]
      (Service.Represents (slot (update D (.dropSocket w) s))) t := by
  have hslot : slot (update D (.dropSocket w) s) =
      Function.update (slot s) w (slot (update D (.dropSocket w) s) w) := by
    refine Function.eq_update_iff.mpr ⟨rfl, ?_⟩
    intro u hu
    simp only [slot, update, Function.update_of_ne hu]
  rw [hslot]
  refine h.fail_shed [] ((s.channel w).map Item.work) ((s.pc.blocked w).map Item.work) rfl
    (le_refl _) List.map_append ?_
  simp [slot, update]

theorem answers_step (hroute : D.RoutesToWorkers) (hbuffer : s.buffer.length = bufferLen)
    {l : Lbl} (hg : guard D l s) (h : Service.Represents (slot s) t) :
    Lts.Answers (Service.sys (spec D)) (fun l _ => l.event) (event l).toList
      (Service.Represents (slot (update D l s))) t := by
  cases l with
  | flags l =>
      cases l with
      | runtimeDrop | closeStore => exact h.close (fun _ => rfl) (fun _ => rfl) (fun _ => rfl)
      | closeWake => exact h.stutter (fun _ => ⟨rfl, le_refl _, fun _ => rfl, id⟩) (fun _ => rfl)
  | start | startErr => exact answers_idle h hg (fun _ => rfl) (fun _ => rfl)
  | load =>
      refine answers_idle h hg (fun _ => rfl) ?_
      intro u
      split <;> rfl
  | recv origin d => exact answers_recv hroute hbuffer h hg.1
  | recvErr => exact answers_idle h hg (fun _ => rfl) (fun _ => rfl)
  | loadError =>
      simp only [update]
      split
      · exact answers_idle h hg (fun _ => rfl) (fun _ => rfl)
      · exact answers_idle h hg (fun _ => rfl) (fun _ => rfl)
  | send w packet =>
      refine h.stutter (quiet_dispatcher rfl rfl rfl) ?_
      intro u
      by_cases hu : u = w
      · subst hu
        simp [slot, update, hg.1, Pc.blocked]
      · simp [slot, update, hg.1, Pc.blocked, Function.update_of_ne hu, Ne.symm hu]
  | sendErr w packet =>
      refine answers_unsent h hg.1 ?_
      rintro ⟨-, halive⟩
      exact absurd (hg.2.symm.trans halive) (by decide)
  | abort =>
      cases hpc : s.pc with
      | sending w packet => exact answers_unsent h hpc (fun hup => hg.1 hup.1)
      | submitted | head | receiving | error | exited =>
          exact answers_idle h hpc (fun _ => rfl) (fun _ => rfl)
  | read w call packet => exact answers_read h hg
  | dropSocket w => exact answers_dropSocket h w

end Answers

/-- The service follows the routed sockets step by step. -/
def simulation {D : Dispatcher} (hroute : D.RoutesToWorkers) :
    Lts.Simulation (server D) (fun l _ => event l) (Service.sys (spec D))
      (fun l _ => l.event) where
  rel := fun s => Service.Represents (slot s)
  init := fun _ => ⟨rfl, rfl, le_refl _, fun _ => rfl, fun _ => ⟨⟨rfl, rfl⟩, rfl⟩⟩
  step := by
    intro l s t hs hg h
    exact answers_step hroute (reachable_buffer hroute hs) hg h

/-- The routed sockets of `UdpServer::serve_socket` and of `QuicServer::serve_socket` implement
the service, for any number of workers and any capacity of the channels: an application reads,
from its own socket, the datagrams that the router sends to its worker, in the order of their
arrival and each at most once, and misses one only after a close or once it has dropped the
socket. This is an inclusion of what can be seen in finite time, which a server that does nothing
has too; `routed_observed` is a run. -/
theorem routed_refines (workerCount capacity : ℕ) (addr : SocketAddr) (transparent : Bool) :
    Lts.Refines (server ⟨workerCount, capacity, udpRoutePacket, addr, transparent⟩)
        (fun l _ => event l)
        (Service.sys (spec ⟨workerCount, capacity, udpRoutePacket, addr, transparent⟩))
        (fun l _ => l.event) ∧
      Lts.Refines (server ⟨workerCount, capacity, quicRoutePacket, addr, transparent⟩)
        (fun l _ => event l)
        (Service.sys (spec ⟨workerCount, capacity, quicRoutePacket, addr, transparent⟩))
        (fun l _ => l.event) :=
  ⟨(simulation (routesToWorkers_udp rfl)).refines, (simulation (routesToWorkers_quic rfl)).refines⟩

/-- Two datagrams come for worker 0, whose channel holds one packet, and the first is read. -/
theorem routed_observed :
    ∃ s, (server quicNarrow).Observed (fun l _ => event l) .initial
      [.arrived (shortPacket 0), .arrived (shortPacket 2),
        .handled 0 (packetOf .peer (shortPacket 0)).work] s := by
  rcases run_afterBlock with ⟨buffer, -, hblocked⟩
  have hread : guard quicNarrow
      (.read 0 (.recvFromSlice [0, 0, 0]) (packetOf .peer (shortPacket 0))) (afterBlock buffer) :=
    ⟨rfl, rfl⟩
  exact ⟨_, (hblocked.append (run_single hread)).observed event⟩

/-! ## The end of the stream -/

/-- What a poll of `recv_packet` yields. -/
inductive RecvPoll where
  | ready (packet : RoutedPacket)
  | unexpectedEof (message : String)
  | pending
deriving DecidableEq, Repr

/-- `RoutedUdpSocket::recv_packet`: a channel is closed once the dispatcher, which owns the
senders, has ended, and what it holds can still be received then. -/
def recvPacket (s : St) (w : ℕ) : RecvPoll :=
  match s.channel w with
  | packet :: _ => .ready packet.work
  | [] => if s.pc = .exited then .unexpectedEof "routed UDP socket closed" else .pending

theorem recvPacket_eof_iff {s : St} {w : ℕ} {message : String} :
    recvPacket s w = .unexpectedEof message ↔
      message = "routed UDP socket closed" ∧ s.channel w = [] ∧ s.pc = .exited := by
  unfold recvPacket
  cases hchannel : s.channel w with
  | cons packet rest => simp
  | nil =>
      by_cases hpc : s.pc = .exited
      · simp [hpc, eq_comm]
      · simp [hpc]

/-- What of the datagrams of a live socket is neither read nor on its way: at most one, and
that only once the dispatcher has been aborted. -/
def Lossy (D : Dispatcher) (w : ℕ) (tr : List Lbl) (s : St) : Prop :=
  s.alive w = true → ∃ lost, routedTo D w tr = s.backlog w ++ lost ∧ lost.length ≤ 1 ∧
    (lost ≠ [] → s.pc = .exited ∧ ¬ s.flags.isActive)

section Lossy

variable {D : Dispatcher} {w : ℕ} {tr : List Lbl} {l : Lbl} {s : St}

/-- Nothing has been lost as long as the dispatcher runs. -/
theorem Lossy.exact (h : Lossy D w tr s) (halive : s.alive w = true) (hpc : s.pc ≠ .exited) :
    routedTo D w tr = s.backlog w := by
  rcases h halive with ⟨lost, hrouted, -, hlost⟩
  have hnil : lost = [] := by
    by_contra hne
    exact hpc (hlost hne).1
  rw [hrouted, hnil, List.append_nil]

/-- A step of the dispatcher after which it still has all that it had. -/
theorem Lossy.keep {s' : St} (h : Lossy D w tr s) (hl : ∀ origin d, l ≠ .recv origin d)
    (halive : s'.alive w = true → s.alive w = true) (hpc : s.pc ≠ .exited)
    (hbacklog : s'.backlog w = s.backlog w) : Lossy D w (tr ++ [l]) s' := by
  intro hw
  refine ⟨[], ?_, Nat.zero_le _, fun hne => absurd rfl hne⟩
  rw [routedTo_other D w tr hl, h.exact (halive hw) hpc, hbacklog, List.append_nil]

theorem lossy_recv (hroute : D.RoutesToWorkers) (hbuffer : s.buffer.length = bufferLen)
    {origin : Origin} {d : Datagram} (hpc : s.pc = .receiving) (h : Lossy D w tr s) :
    Lossy D w (tr ++ [.recv origin d]) (update D (.recv origin d) s) := by
  intro hw
  refine ⟨[], ?_, Nat.zero_le _, fun hne => absurd rfl hne⟩
  rw [routedTo_recv, h.exact hw (by rw [hpc]; rintro ⟨⟩), List.append_nil]
  simp only [St.backlog, update, dispatch_udpReceive D hbuffer, hpc]
  cases hr : routeOf D d with
  | none => simp [Pc.blocked]
  | some v =>
      have hlt : v < D.workerCount := hroute _ _ v hr
      by_cases hv : v = w
      · subst hv
        simp [hlt, Pc.blocked]
      · simp [hlt, hv, Pc.blocked]

theorem lossy_abort (hactive : ¬ s.flags.isActive) (h : Lossy D w tr s) :
    Lossy D w (tr ++ [.abort]) (update D .abort s) := by
  intro hw
  rw [routedTo_other D w tr (by rintro _ _ ⟨⟩)]
  by_cases hpc : s.pc = .exited
  · -- the dispatcher has ended before
    rcases h hw with ⟨lost, hrouted, hlen, -⟩
    refine ⟨lost, ?_, hlen, fun _ => ⟨rfl, hactive⟩⟩
    rw [hrouted]
    simp [St.backlog, update, hpc, Pc.blocked]
  · refine ⟨s.pc.blocked w, ?_, ?_, fun _ => ⟨rfl, hactive⟩⟩
    · rw [h.exact hw hpc]
      simp [St.backlog, update, Pc.blocked]
    · cases s.pc with
      | sending v packet =>
          simp only [Pc.blocked]
          split <;> simp
      | submitted | head | receiving | error | exited => exact Nat.zero_le _

theorem lossy_step (hroute : D.RoutesToWorkers) (hbuffer : s.buffer.length = bufferLen)
    (hg : guard D l s) (h : Lossy D w tr s) : Lossy D w (tr ++ [l]) (update D l s) := by
  cases l with
  | flags l =>
      intro hw
      rcases h hw with ⟨lost, hrouted, hlen, hlost⟩
      refine ⟨lost, (routedTo_other D w tr (by rintro _ _ ⟨⟩)).trans hrouted, hlen, ?_⟩
      intro hne
      exact ⟨(hlost hne).1, fun hactive => (hlost hne).2 (FlagLbl.isActive_of_update hactive)⟩
  | start | startErr | recvErr =>
      refine h.keep (by rintro _ _ ⟨⟩) id ?_ ?_
      · rw [show s.pc = _ from hg]
        rintro ⟨⟩
      · simp [St.backlog, update, show s.pc = _ from hg, Pc.blocked]
  | load =>
      refine h.keep (by rintro _ _ ⟨⟩) id ?_ ?_
      · rw [show s.pc = .head from hg]
        rintro ⟨⟩
      · simp only [St.backlog, update, show s.pc = .head from hg]
        split <;> rfl
  | recv origin d => exact lossy_recv hroute hbuffer hg.1 h
  | loadError =>
      have hpc : s.pc = .error := hg
      refine h.keep (by rintro _ _ ⟨⟩) ?_ ?_ ?_
      · simp only [update]
        split <;> exact id
      · rw [hpc]
        rintro ⟨⟩
      · simp only [St.backlog, update]
        split <;> simp [hpc, Pc.blocked]
  | send v packet =>
      refine h.keep (by rintro _ _ ⟨⟩) id ?_ ?_
      · rw [hg.1]
        rintro ⟨⟩
      · by_cases hv : w = v
        · subst hv
          simp [St.backlog, update, hg.1, Pc.blocked]
        · simp [St.backlog, update, hg.1, Pc.blocked, Function.update_of_ne hv, Ne.symm hv]
  | sendErr v packet =>
      intro hw
      have hv : v ≠ w := by
        rintro rfl
        exact absurd (hg.2.symm.trans hw) (by decide)
      refine h.keep (by rintro _ _ ⟨⟩) id ?_ ?_ hw
      · rw [hg.1]
        rintro ⟨⟩
      · simp [St.backlog, update, hg.1, Pc.blocked, hv]
  | abort => exact lossy_abort hg.1 h
  | read v call packet =>
      intro hw
      rcases h hw with ⟨lost, hrouted, hlen, hlost⟩
      refine ⟨lost, ?_, hlen, hlost⟩
      rw [routedTo_other D w tr (by rintro _ _ ⟨⟩), hrouted]
      by_cases hv : w = v
      · subst hv
        have hhead : s.channel w = packet :: (s.channel w).tail := List.eq_cons_of_mem_head? hg.2
        simp only [St.backlog, update, Function.update_self, List.map_append, List.map_cons,
          List.map_nil]
        nth_rewrite 1 [hhead]
        simp
      · simp [St.backlog, update, Function.update_of_ne hv]
  | dropSocket v =>
      intro hw
      have hv : w ≠ v := by
        rintro rfl
        simp [update] at hw
      simp only [update, Function.update_of_ne hv] at hw
      rcases h hw with ⟨lost, hrouted, hlen, hlost⟩
      refine ⟨lost, ?_, hlen, hlost⟩
      rw [routedTo_other D w tr (by rintro _ _ ⟨⟩), hrouted]
      simp [St.backlog, update, Function.update_of_ne hv]

theorem run_lossy (hroute : D.RoutesToWorkers) (hrun : (server D).Run .initial tr s) (w : ℕ) :
    Lossy D w tr s := by
  refine (server D).trace_invariant (Lossy D w) ?_ ?_ tr s hrun
  · intro _
    exact ⟨[], rfl, Nat.zero_le _, fun hne => absurd rfl hne⟩
  · intro tr l s hrun hg h
    exact lossy_step hroute (run_backlog hroute hrun).buffer hg h

/-- A channel that is empty when the dispatcher has ended stays so. -/
theorem ended_step (reads : List Read) (l : Lbl) (s : St) (hg : guard D l s)
    (h : s.pc = .exited ∧ s.channel w = [] ∧ s.reads w = reads) :
    (update D l s).pc = .exited ∧ (update D l s).channel w = [] ∧
      (update D l s).reads w = reads := by
  rcases h with ⟨hpc, hchannel, hreads⟩
  refine ⟨exited_step l s hg hpc, ?_⟩
  cases l with
  | send v packet =>
      have hsending := hg.1
      rw [hpc] at hsending
      cases hsending
  | read v call packet =>
      have hv : w ≠ v := by
        rintro rfl
        have hhead := hg.2
        rw [hchannel] at hhead
        cases hhead
      simpa [update, Function.update_of_ne hv] using ⟨hchannel, hreads⟩
  | dropSocket v =>
      by_cases hv : w = v
      · subst hv
        simpa [update] using hreads
      · simpa [update, Function.update_of_ne hv] using ⟨hchannel, hreads⟩
  | loadError =>
      simp only [update]
      split <;> exact ⟨hchannel, hreads⟩
  | flags l | start | startErr | load | recv origin d | recvErr | sendErr v packet | abort =>
      exact ⟨hchannel, hreads⟩

end Lossy

/-- `UnexpectedEof` is the end of the stream of a routed socket. At that moment the application
has read, in order, all datagrams that the dispatcher received for its worker, but for one at
most, and for none if the server is still active; and from then on, whatever happens, every
receive yields the same error and nothing more is read. -/
theorem endOfStream {D : Dispatcher} (hroute : D.RoutesToWorkers) {tr : List Lbl} {s : St}
    (hrun : (server D).Run .initial tr s) {w : ℕ} (halive : s.alive w = true) {message : String}
    (heof : recvPacket s w = .unexpectedEof message) :
    (∃ lost, routedTo D w tr = (s.reads w).map Read.packet ++ lost ∧ lost.length ≤ 1 ∧
      (s.flags.isActive → lost = [])) ∧
    ∀ tr' s', (server D).Run s tr' s' →
      recvPacket s' w = .unexpectedEof message ∧ s'.reads w = s.reads w := by
  obtain ⟨rfl, hchannel, hpc⟩ := recvPacket_eof_iff.mp heof
  constructor
  · rcases run_lossy hroute hrun w halive with ⟨lost, hrouted, hlen, hlost⟩
    refine ⟨lost, ?_, hlen, ?_⟩
    · rw [hrouted]
      simp [St.backlog, hchannel, hpc, Pc.blocked]
    · intro hactive
      by_contra hne
      exact (hlost hne).2 hactive
  · intro tr' s' hrun'
    rcases hrun'.preserves _ ⟨hpc, hchannel, rfl⟩ (ended_step (s.reads w)) with
      ⟨hpc', hchannel', hreads'⟩
    exact ⟨recvPacket_eof_iff.mpr ⟨rfl, hchannel', hpc'⟩, hreads'⟩

/-- A close aborts the dispatcher where it waits to send. -/
theorem run_aborted {D : Dispatcher} {s : St} {w : ℕ} {packet : Item RoutedPacket}
    (hpc : s.pc = .sending w packet) :
    (server D).Run s [.flags .closeStore, .abort]
      { s with flags := FlagLbl.update .closeStore s.flags, pc := .exited } := by
  refine .snoc Lbl.abort (.snoc (Lbl.flags .closeStore) .nil trivial) ⟨?_, ?_, ?_⟩
  · intro hactive
    cases hactive.2
  · intro hhead
    cases hpc.symm.trans hhead
  · intro herror
    cases hpc.symm.trans herror

/-- The dispatcher receives a datagram for worker 0 and is aborted while it sends it: worker 0
sees the end of its stream with that datagram missing. -/
theorem endOfStream_aborted :
    ∃ tr s, (server quicFallback).Run .initial tr s ∧ s.alive 0 = true ∧
      recvPacket s 0 = .unexpectedEof "routed UDP socket closed" ∧
      routedTo quicFallback 0 tr = [packetOf .peer (shortPacket 0)] ∧
      ∃ lost, routedTo quicFallback 0 tr = (s.reads 0).map Read.packet ++ lost ∧
        lost.length ≤ 1 := by
  have hrecv : guard quicFallback (.recv .peer (shortPacket 0)) afterStart :=
    ⟨rfl, by rintro ⟨⟩⟩
  have hpc := pc_recv (D := quicFallback) (s := afterStart) (d := shortPacket 0) (w := 0) .peer
    length_newBuffer (by decide) (by decide)
  have hrun := (run_afterStart quicFallback).append
    ((run_single hrecv).append (run_aborted hpc))
  refine ⟨_, _, hrun, rfl, rfl, rfl, ?_⟩
  rcases (endOfStream (routesToWorkers_quic rfl) hrun (w := 0) rfl rfl).1 with
    ⟨lost, hrouted, hlen, -⟩
  exact ⟨lost, hrouted, hlen⟩

end ReusePort.Routed
