import ReusePort.Core.Cid
import ReusePort.Core.NativeService
import ReusePort.Core.RoutedService

/-!
# ReusePort.Core.Affinity — flows and connections stay on one worker

The router of a server looks at one datagram at a time. That all datagrams of a UDP
flow, or of a QUIC connection, are handled by one worker and in their order is a
property of whole runs, and it follows from the service that the servers implement.

* `servers_keep_contract` — what every server promises to an observer of its runs;
* `udp_flow_affinity` — a UDP flow is served by one worker, the same in every run;
* `quic_connection_affinity` — a QUIC connection is served by the worker whose
  generator issued its CID, from whatever addresses its packets come.
-/

namespace ReusePort

/-! ## The contract -/

section Contract

variable {α ρ β : Type}

theorem simulated_contract {L : SimulatedLoop α ρ β} {n : ℕ} {max : Option ℕ}
    {seen : List (Service.Event α β)} {s : Simulated.St α ρ β}
    (h : (Simulated.server L n max).Observed (fun l _ => Simulated.event l)
      (Simulated.server L n max).init seen s) (w : ℕ) :
    Service.Contract (Simulated.spec L n max) w seen :=
  (Simulated.simulation L n max).refines.observed (fun _ _ ht => Service.contract ht w) h

theorem routed_contract {D : Dispatcher} (hroute : D.RoutesToWorkers)
    {seen : List (Service.Event Datagram RoutedPacket)} {s : Routed.St}
    (h : (Routed.server D).Observed (fun l _ => Routed.event l) (Routed.server D).init seen s)
    (w : ℕ) : Service.Contract (Routed.spec D) w seen :=
  (Routed.simulation hroute).refines.observed (fun _ _ ht => Service.contract ht w) h

theorem native_contract {L : NativeLoop α ρ β} {n : ℕ} {max : Option ℕ} {keeps : α → Bool}
    (hkeeps : Native.Keeps L n keeps) {seen : List (Service.Event (ℕ × α) β)}
    {s : Lts.Fleet Flags (Native.Worker α ρ β)}
    (h : (Native.server L n max).Observed (Native.event L Prod.mk)
      (Native.server L n max).init seen s) (w : ℕ) :
    Service.Contract (Native.spec L max keeps) w seen :=
  (Native.simulation L n max hkeeps).refines.observed (fun _ _ ht => Service.contract ht w) h

end Contract

/-- What every server promises, for any number of workers, any limit and any run, through closes
and failures. On every worker, handlers are started for arrivals of that worker, in their order
and at most once each; only what was started finishes; no more than the limit have started and
not finished; and until the server is closed or something fails on the worker no arrival is
passed over, by the native servers under any limit, by the simulated ones without one, and by
the routed sockets, where a receive stands for the handler. -/
theorem servers_keep_contract {α ρ β : Type} (n : ℕ) (max : Option ℕ) (w : ℕ) :
    (∀ (L : SimulatedLoop α ρ β) seen s,
      (Simulated.server L n max).Observed (fun l _ => Simulated.event l)
        (Simulated.server L n max).init seen s →
      Service.Contract (Simulated.spec L n max) w seen) ∧
    (∀ (L : NativeLoop α ρ β) keeps, Native.Keeps L n keeps → ∀ seen s,
      (Native.server L n max).Observed (Native.event L Prod.mk)
        (Native.server L n max).init seen s →
      Service.Contract (Native.spec L max keeps) w seen) ∧
    ∀ (D : Dispatcher), D.RoutesToWorkers → ∀ seen s,
      (Routed.server D).Observed (fun l _ => Routed.event l) (Routed.server D).init seen s →
      Service.Contract (Routed.spec D) w seen := by
  refine ⟨?_, ?_, ?_⟩
  · intro L seen s h
    exact simulated_contract h w
  · intro L keeps hkeeps seen s h
    exact native_contract hkeeps h w
  · intro D hroute seen s h
    exact routed_contract hroute h w

/-- A simulated TCP server with one worker and one permit has handed a connection to its handler,
and refused another one. -/
theorem servers_keep_contract_refusal :
    ∃ seen s,
      (Simulated.server (simulatedTcpAcceptLoop (.v4 Ipv4Addr.localhost 80)) 1 (some 1)).Observed
        (fun l _ => Simulated.event l)
        (Simulated.server (simulatedTcpAcceptLoop (.v4 Ipv4Addr.localhost 80)) 1 (some 1)).init
        seen s ∧
      Service.handled 0 seen = [⟨7⟩] ∧ (Service.arrived seen).length = 2 ∧
      Service.Contract
        (Simulated.spec (simulatedTcpAcceptLoop (.v4 Ipv4Addr.localhost 80)) 1 (some 1)) 0
        seen := by
  let conn : Connection := ⟨7, .v4 Ipv4Addr.localhost 55000⟩
  let x : Received Connection Connection := ⟨conn, conn, .peer⟩
  let item : Item TcpWorkItem := ⟨⟨7⟩, .peer⟩
  let conn' : Connection := ⟨8, .v4 Ipv4Addr.localhost 55001⟩
  let x' : Received Connection Connection := ⟨conn', conn', .peer⟩
  have hexec := (Simulated.server (simulatedTcpAcceptLoop (.v4 Ipv4Addr.localhost 80)) 1
    (some 1)).exists_run_of_exec
    [.loop .start, .loop (.load .runtime .head), .loop (.load .server .head),
      .loop (.recv .peer conn), .loop (.load .runtime (.item x)),
      .loop (.load .server (.item x)), .loop (.route x), .loop (.tryAcquire 0 x .load false),
      .loop (.tryAcquire 0 x (.cas 0) false), .loop (.send 0 item), .worker 0 .start,
      .worker 0 .load, .worker 0 (.recv item), .worker 0 (.check item),
      .worker 0 (.spawn item), .loop (.load .runtime .head), .loop (.load .server .head),
      .loop (.recv .peer conn'), .loop (.load .runtime (.item x')),
      .loop (.load .server (.item x')), .loop (.route x'), .loop (.tryAcquire 0 x' .load false)]
    (fun s => Handler.runningCount (s.worker 0).handlers = 1) (by decide)
  rcases hexec with ⟨s, hrun, -⟩
  refine ⟨_, s, hrun.observed Simulated.event, rfl, rfl, ?_⟩
  exact (servers_keep_contract 1 (some 1) 0).1 _ _ s (hrun.observed Simulated.event)

/-! ## UDP flows -/

/-- A UDP flow has one worker. In every run of the simulated server all its datagrams that are
handled are handled there, in their order and each at most once, and none is passed over as long
as the server is not closed, the worker has not failed and no limit is set. In the socket-only
fallback all datagrams of one peer are, in the same sense, read from one routed socket. -/
theorem udp_flow_affinity {n : ℕ} (hn : 1 ≤ n) (max : Option ℕ) (peer loc : SocketAddr) :
    (∃ w, w < n ∧ ∀ seen s,
      (Simulated.server simulatedUdpListenerLoop n max).Observed (fun l _ => Simulated.event l)
        (Simulated.server simulatedUdpListenerLoop n max).init seen s →
      Service.OneWorker (Simulated.spec simulatedUdpListenerLoop n max)
        (fun x => x.packetMeta = ⟨some peer, some loc⟩) w seen) ∧
    ∃ w, w < n ∧ ∀ capacity seen s,
      (Routed.server ⟨n, capacity, udpRoutePacket, loc, false⟩).Observed
        (fun l _ => Routed.event l)
        (Routed.server ⟨n, capacity, udpRoutePacket, loc, false⟩).init seen s →
      Service.OneWorker (Routed.spec ⟨n, capacity, udpRoutePacket, loc, false⟩)
        (fun x => x.peerAddr = peer) w seen := by
  rcases linuxReuseportSelect_lt ⟨some peer, some loc⟩ hn with ⟨w, hw, hlt⟩
  refine ⟨⟨w, hlt, ?_⟩, ⟨w, hlt, ?_⟩⟩
  · intro seen s h
    refine Service.oneWorker (simulated_contract h) ?_
    intro d hd
    have hmeta : (⟨some d.peerAddr, some d.localAddr⟩ : PacketMeta) = ⟨some peer, some loc⟩ := hd
    show (Route.ofExcept (linuxReuseportSelect ⟨some d.peerAddr, some d.localAddr⟩ n)).worker? = _
    rw [hmeta, hw]
    rfl
  · intro capacity seen s h
    refine Service.oneWorker (routed_contract (routesToWorkers_udp rfl) h) ?_
    intro d hd
    have hpeer : d.peerAddr = peer := hd
    show (linuxReuseportSelect ⟨some d.peerAddr, some loc⟩ n).toOption = _
    rw [hpeer, hw]
    rfl

/-- Four workers, a limit of one handler each. -/
theorem udp_flow_affinity_four :
    ∃ w, w < 4 ∧ ∀ seen s,
      (Simulated.server simulatedUdpListenerLoop 4 (some 1)).Observed
        (fun l _ => Simulated.event l)
        (Simulated.server simulatedUdpListenerLoop 4 (some 1)).init seen s →
      Service.OneWorker (Simulated.spec simulatedUdpListenerLoop 4 (some 1))
        (fun x => x.packetMeta =
          ⟨some (.v4 Ipv4Addr.localhost 5000), some (.v4 Ipv4Addr.localhost 4433)⟩) w seen :=
  (udp_flow_affinity (by decide) (some 1) (.v4 Ipv4Addr.localhost 5000)
    (.v4 Ipv4Addr.localhost 4433)).1

/-! ## QUIC connections -/

/-- A generated CID begins with the worker of its generator. -/
theorem route_of_generated {g : QuicCidGenerator} (hg : g.Built) {outcome : FillOutcome}
    {cid : List UInt8} (hcid : g.generate outcome = .ok cid) {n : ℕ} (hw : g.workerIndex < n)
    {packet : List UInt8} (hpacket : QuicCidGenerator.CarriesCid cid packet) :
    quicWorkerIndex packet n = some g.workerIndex := by
  rcases QuicCidGenerator.generate_spec hg outcome with ⟨hfailed, hwrote⟩
  cases outcome with
  | failed error =>
      rw [hfailed error rfl] at hcid
      cases hcid
  | wrote bytes =>
      rcases hwrote bytes rfl with ⟨suffix, hok, -⟩
      rw [hok] at hcid
      cases hcid
      rw [QuicCidGenerator.quicWorkerIndex_of_carriesCid (by omega) hpacket,
        QuicCidGenerator.prefix_toNat hg.wf.1, Nat.mod_eq_of_lt hw]

open scoped Classical in
/-- A QUIC connection stays with the worker that issued its CID. Whatever addresses its packets
come from or go to, and whatever header they have, in every run all packets with the CID that are
handled are handled on that worker, in their order and each at most once: by the native workers
behind the classic BPF program (which pass none over before a close or a failure), by the
simulated server, and, as reads of the routed socket of the worker, in the socket-only
fallback. -/
theorem quic_connection_affinity {g : QuicCidGenerator} (hg : g.Built) {outcome : FillOutcome}
    {cid : List UInt8} (hcid : g.generate outcome = .ok cid) {n : ℕ} (hw : g.workerIndex < n)
    (hn : n ≤ 65536) (max : Option ℕ) (localAddr : Option SocketAddr) :
    (∀ seen s,
      (Native.steered (quicReuseportBpfListenerLoopWithState localAddr) n max
          fun d => kernelSelects n d.payload).Observed
        (Native.event (quicReuseportBpfListenerLoopWithState localAddr) fun _ d => d)
        (Native.steered (quicReuseportBpfListenerLoopWithState localAddr) n max
          fun d => kernelSelects n d.payload).init seen s →
      Service.OneWorker (quicService n max localAddr false)
        (fun x => QuicCidGenerator.CarriesCid cid x.payload) g.workerIndex seen) ∧
    (∀ seen s,
      (Simulated.server (quicRoutedUdpListenerLoop localAddr) n max).Observed
        (fun l _ => Simulated.event l)
        (Simulated.server (quicRoutedUdpListenerLoop localAddr) n max).init seen s →
      Service.OneWorker (quicService n max localAddr true)
        (fun x => QuicCidGenerator.CarriesCid cid x.payload) g.workerIndex seen) ∧
    ∀ capacity addr transparent seen s,
      (Routed.server ⟨n, capacity, quicRoutePacket, addr, transparent⟩).Observed
        (fun l _ => Routed.event l)
        (Routed.server ⟨n, capacity, quicRoutePacket, addr, transparent⟩).init seen s →
      Service.OneWorker (Routed.spec ⟨n, capacity, quicRoutePacket, addr, transparent⟩)
        (fun x => QuicCidGenerator.CarriesCid cid x.payload) g.workerIndex seen := by
  refine ⟨?_, ?_, ?_⟩
  · intro seen s h
    refine Service.oneWorker ?_ fun d hd => route_of_generated hg hcid hw hd
    intro w
    exact (Native.quicSimulation hn max localAddr false).refines.observed
      (fun _ _ ht => Service.contract ht w) h
  · intro seen s h
    refine Service.oneWorker ?_ fun d hd => route_of_generated hg hcid hw hd
    intro w
    rw [← spec_quicRouted]
    exact simulated_contract h w
  · intro capacity addr transparent seen s h
    exact Service.oneWorker (routed_contract (routesToWorkers_quic rfl) h)
      fun d hd => route_of_generated hg hcid hw hd

open scoped Classical in
/-- The CID that worker 3 of four issues if the random source writes ones. -/
theorem quic_connection_affinity_three :
    (⟨3, 8⟩ : QuicCidGenerator).generate (.wrote fun _ => 0xff) =
        .ok [0, 3, 0xff, 0xff, 0xff, 0xff, 0xff, 0xff] ∧
      ∀ seen s,
        (Simulated.server (quicRoutedUdpListenerLoop none) 4 none).Observed
          (fun l _ => Simulated.event l)
          (Simulated.server (quicRoutedUdpListenerLoop none) 4 none).init seen s →
        Service.OneWorker (quicService 4 none none true)
          (fun x => QuicCidGenerator.CarriesCid [0, 3, 0xff, 0xff, 0xff, 0xff, 0xff, 0xff]
            x.payload) 3 seen := by
  have hbuilt : QuicCidGenerator.Built ⟨3, 8⟩ := .new (i := 3) rfl
  have hcid : (⟨3, 8⟩ : QuicCidGenerator).generate (.wrote fun _ => 0xff) =
      .ok [0, 3, 0xff, 0xff, 0xff, 0xff, 0xff, 0xff] := rfl
  exact ⟨hcid, (quic_connection_affinity hbuilt hcid (n := 4) (by decide) (by decide) none
    none).2.1⟩

end ReusePort
