import ReusePort.Core.Native
import ReusePort.Core.Routed
import ReusePort.Core.Simulated

/-!
# ReusePort.Core.WakeUp — the wake-up datagrams of `close`

`close` wakes the receiving loops by datagrams to the server's own sockets, after
it has stored `false` in the server's flag. The handler servers check the flag
after every receive; the dispatcher of the socket-only fallback does not.

* `Native.WakeInv`, `Simulated.WakeInv` — a wake-up datagram never gets past that
  check;
* `Routed.Clean`, `Routed.run_leak` — in the fallback it stops at the router, or
  reaches the application;
* `wakeUp_internal_iff` — the handler servers and the fallback together.
-/

namespace ReusePort

variable {α ρ β : Type}

namespace Native

/-! ## Wake-up datagrams -/

/-- A wake-up datagram in hand was received after the store of `close`, so the
load of the server's flag that is still to come fails. Nothing past this check,
and no spawned handler, has a wake-up datagram. -/
structure WakeInv (f : Flags) (k : Worker α ρ β) : Prop where
  causal : f.Causal
  checked : ∀ ch x, k.pc = .check ch (.item x) → x.origin = .wakeUp → f.serverActive = false
  spawning : ∀ x, k.pc = .spawning x → x.origin = .peer
  spawned : ∀ x ∈ k.spawned, x.origin = .peer

theorem wakeInv_initial (max : Option ℕ) :
    WakeInv Flags.initial (Worker.initial max : Worker α ρ β) where
  causal := by
    intro h
    cases h
  checked := by
    intro _ _ h
    cases h
  spawning := by
    intro _ h
    cases h
  spawned := by
    intro _ h
    cases h

theorem wakeInv_flags {l : FlagLbl} {f : Flags} {k : Worker α ρ β} (hg : FlagLbl.guard l f)
    (h : WakeInv f k) : WakeInv (FlagLbl.update l f) k where
  causal := Flags.causal_update hg h.causal
  checked := fun ch x hpc ho => FlagLbl.serverActive_update (h.checked ch x hpc ho)
  spawning := h.spawning
  spawned := h.spawned

/-- A step of the task that leads neither to a check with an item nor past it. -/
theorem WakeInv.elsewhere {f : Flags} {k k' : Worker α ρ β} (h : WakeInv f k)
    (hcheck : ∀ ch x, k'.pc ≠ .check ch (.item x)) (hspawning : ∀ x, k'.pc ≠ .spawning x)
    (hspawned : k'.spawned = k.spawned) : WakeInv f k' where
  causal := h.causal
  checked := fun ch x hpc => absurd hpc (hcheck ch x)
  spawning := fun x hpc => absurd hpc (hspawning x)
  spawned := by
    rw [hspawned]
    exact h.spawned

theorem wakeInv_load {f : Flags} {k : Worker α ρ β} {ch : Check} {site : Site (Received α ρ)}
    (hpc : k.pc = .check ch site) (h : WakeInv f k) : WakeInv f (k.load site ch (f.get ch)) := by
  cases hb : f.get ch with
  | false => cases ch <;> cases site <;> exact h.elsewhere (by rintro _ _ ⟨⟩) (by rintro _ ⟨⟩) rfl
  | true =>
      cases site with
      | head | permit | error =>
          cases ch <;> exact h.elsewhere (by rintro _ _ ⟨⟩) (by rintro _ ⟨⟩) rfl
      | item x =>
          cases ch with
          | runtime =>
              refine ⟨h.causal, ?_, fun y hy => by (cases hy), h.spawned⟩
              intro ch' y hy ho
              cases hy
              exact h.checked .runtime x hpc ho
          | server =>
              -- the flag was read as set, so the item is not a wake-up datagram
              refine ⟨h.causal, fun ch' y hy => by (cases hy), ?_, h.spawned⟩
              intro y hy
              cases hy
              cases ho : x.origin with
              | peer => rfl
              | wakeUp =>
                  have hfalse : f.get .server = false := h.checked .server x hpc ho
                  rw [hb] at hfalse
                  cases hfalse

theorem wakeInv_step {L : NativeLoop α ρ β} {n : ℕ} (l : Lbl α ρ β) (f : Flags)
    (k : Worker α ρ β) (hg : guard L n l f k) (h : WakeInv f k) : WakeInv f (update L l f k) := by
  cases l with
  | start | startErr | reject x | spawnErr x | abort | abortReceiving =>
      exact h.elsewhere (by rintro _ _ ⟨⟩) (by rintro _ ⟨⟩) rfl
  | load ch site => exact wakeInv_load hg h
  | poll pc spurious =>
      simp only [update]
      rcases k.limit.poll spurious pc with ⟨limit, _ | pc'⟩ <;>
        exact h.elsewhere (by rintro _ _ ⟨⟩) (by rintro _ ⟨⟩) rfl
  | recv origin a =>
      -- a wake-up datagram was sent after the store of `close`
      refine ⟨h.causal, ?_, fun x hx => by (cases hx), h.spawned⟩
      intro ch x hx ho
      cases hx
      exact h.causal (hg.2 ho).1
  | recvErr =>
      cases hretry : L.retriesOnError <;> simp only [update, hretry] <;>
        exact h.elsewhere (by rintro _ _ ⟨⟩) (by rintro _ ⟨⟩) rfl
  | spawn x =>
      refine ⟨h.causal, fun ch y hy => by (cases hy), fun y hy => by (cases hy), ?_⟩
      intro y hy
      rcases List.mem_append.mp hy with hy | hy
      · exact h.spawned y hy
      · rw [List.mem_singleton.mp hy]
        exact h.spawning x hg.1
  | drop pc again spurious =>
      simp only [update]
      rcases k.limit.drop spurious pc with ⟨limit, _ | pc'⟩ <;> cases again <;>
        exact h.elsewhere (by rintro _ _ ⟨⟩) (by rintro _ ⟨⟩) rfl
  | handlerEnd i x => exact ⟨h.causal, h.checked, h.spawning, h.spawned⟩
  | handlerDrop i pc spurious => exact ⟨h.causal, h.checked, h.spawning, h.spawned⟩

theorem reachable_wakeInv {L : NativeLoop α ρ β} {n : ℕ} {max : Option ℕ}
    {s : Lts.Fleet Flags (Worker α ρ β)} (hs : (server L n max).Reachable s) (w : ℕ) :
    WakeInv s.env (s.proc w) :=
  Lts.Proc.invariant WakeInv (wakeInv_initial max) (fun _ _ _ hg h => wakeInv_flags hg h)
    wakeInv_step hs w

end Native

namespace Simulated

/-! ## Wake-up datagrams -/

/-- The origin of the item that the receiving loop has past its check. -/
def LoopPc.origins : LoopPc (Received α ρ) β → List Origin
  | .routing x => [x.origin]
  | .trying _ x _ => [x.origin]
  | .sending _ x => [x.origin]
  | _ => []

/-- A wake-up datagram in hand was received after the store of `close`, so the
load of the server's flag that is still to come fails. Nothing past this check,
and no item of a worker, is a wake-up datagram. -/
structure WakeInv (s : St α ρ β) : Prop where
  causal : s.flags.Causal
  checked : ∀ ch x, s.pc = .check ch (.item x) → x.origin = .wakeUp →
    s.flags.serverActive = false
  past : ∀ o ∈ s.pc.origins, o = .peer
  worker : ∀ w, ∀ x ∈ (s.worker w).items, x.origin = .peer

theorem wakeInv_initial (max : Option ℕ) : WakeInv (St.initial max : St α ρ β) where
  causal := by
    intro h
    cases h
  checked := by
    intro _ _ h
    cases h
  past := by
    intro _ h
    cases h
  worker := by
    intro _ _ h
    cases h

/-- A step of the loop that brings no item to the check or past it. -/
theorem WakeInv.elsewhere {s s' : St α ρ β} (h : WakeInv s) (hflags : s'.flags = s.flags)
    (hcheck : ∀ ch x, s'.pc ≠ .check ch (.item x)) (hpast : s'.pc.origins ⊆ s.pc.origins)
    (hworker : ∀ w, (s'.worker w).items = (s.worker w).items) : WakeInv s' where
  causal := by
    rw [hflags]
    exact h.causal
  checked := fun ch x hpc => absurd hpc (hcheck ch x)
  past := fun o ho => h.past o (hpast ho)
  worker := by
    intro w
    rw [hworker]
    exact h.worker w

theorem wakeInv_load {s : St α ρ β} {ch : Check} {site : Site (Received α ρ)}
    (hpc : s.pc = .check ch site) (h : WakeInv s) : WakeInv (s.load site ch (s.flags.get ch)) := by
  cases hb : s.flags.get ch with
  | false =>
      cases ch <;> exact h.elsewhere rfl (by rintro _ _ ⟨⟩) (List.nil_subset _) (fun _ => rfl)
  | true =>
      cases site with
      | head | error =>
          cases ch <;> exact h.elsewhere rfl (by rintro _ _ ⟨⟩) (List.nil_subset _) (fun _ => rfl)
      | item x =>
          cases ch with
          | runtime =>
              refine ⟨h.causal, ?_, fun o ho => by (cases ho), h.worker⟩
              intro ch' y hy ho
              cases hy
              exact h.checked .runtime x hpc ho
          | server =>
              -- the flag was read as set, so the item is not a wake-up datagram
              refine ⟨h.causal, fun ch' y hy => by (cases hy), ?_, h.worker⟩
              intro o ho
              rw [List.mem_singleton.mp ho]
              cases horigin : x.origin with
              | peer => rfl
              | wakeUp =>
                  have hfalse : s.flags.get .server = false := h.checked .server x hpc horigin
                  rw [hb] at hfalse
                  cases hfalse

theorem wakeInv_route {L : SimulatedLoop α ρ β} {n : ℕ} {x : Received α ρ} {s : St α ρ β}
    (hpc : s.pc = .routing x) (h : WakeInv s) : WakeInv (loopUpdate L n (.route x) s) := by
  simp only [loopUpdate]
  cases L.route s.buffer x.recv n with
  | skip | stop =>
      exact h.elsewhere rfl (by rintro _ _ ⟨⟩) (List.nil_subset _) (fun _ => rfl)
  | worker v =>
      by_cases hlt : v < n
      · -- the loop keeps the item in hand
        simp only [St.routed, if_pos hlt]
        refine h.elsewhere rfl (by rintro _ _ ⟨⟩) ?_ (fun _ => rfl)
        rw [hpc]
        exact fun _ ho => ho
      · simp only [St.routed, if_neg hlt]
        exact h.elsewhere rfl (by rintro _ _ ⟨⟩) (List.nil_subset _) (fun _ => rfl)

/-- The item that is sent came past the check, so it is a peer's. -/
theorem wakeInv_send {L : SimulatedLoop α ρ β} {n v : ℕ} {item : Item β} {s : St α ρ β}
    (hpc : s.pc = .sending v item) (h : WakeInv s) :
    WakeInv (loopUpdate L n (.send v item) s) := by
  have hitem : item.origin = .peer := by
    apply h.past
    rw [hpc]
    exact List.mem_singleton_self _
  refine ⟨h.causal, fun ch x hx => by (cases hx), fun o ho => by (cases ho), ?_⟩
  refine (Function.forall_update_iff s.worker fun _ k => ∀ x ∈ k.items, x.origin = .peer).mpr
    ⟨?_, fun w _ => h.worker w⟩
  intro x hx
  have hold := h.worker v x
  simp only [Worker.items, List.mem_append, List.mem_singleton] at hx hold
  rcases hx with hx | hx | hx | rfl
  · exact hold (Or.inl hx)
  · exact hold (Or.inr (Or.inl hx))
  · exact hold (Or.inr (Or.inr hx))
  · exact hitem

theorem wakeInv_loopStep {L : SimulatedLoop α ρ β} {n : ℕ} {l : LoopLbl α ρ β} {s : St α ρ β}
    (hg : loopGuard L l s) (h : WakeInv s) : WakeInv (loopUpdate L n l s) := by
  cases l with
  | start | startErr | sendErr v item | abort | abortSending v item =>
      exact h.elsewhere rfl (by rintro _ _ ⟨⟩) (List.nil_subset _) (fun _ => rfl)
  | load ch site => exact wakeInv_load hg h
  | recv origin a =>
      -- a wake-up datagram was sent after the store of `close`
      refine ⟨h.causal, ?_, fun o ho => by (cases ho), h.worker⟩
      intro ch x hx ho
      cases hx
      exact h.causal (hg.2 ho).1
  | recvErr =>
      cases hretry : L.retriesOnError <;> simp only [loopUpdate, hretry] <;>
        exact h.elsewhere rfl (by rintro _ _ ⟨⟩) (List.nil_subset _) (fun _ => rfl)
  | route x => exact wakeInv_route hg h
  | tryAcquire v x pc spurious =>
      have hpc : s.pc = .trying v x pc := hg
      simp only [loopUpdate]
      have hitems := fun w => items_setLimit s v w ((s.worker v).limit.tryAcquire spurious pc).1
      cases ((s.worker v).limit.tryAcquire spurious pc).2 with
      | full active =>
          exact h.elsewhere rfl (by rintro _ _ ⟨⟩) (List.nil_subset _) hitems
      | more pc' | got =>
          refine h.elsewhere rfl (by rintro _ _ ⟨⟩) ?_ hitems
          rw [hpc]
          exact fun _ ho => ho
  | send v item => exact wakeInv_send hg.1 h
  | drop v pc spurious =>
      simp only [loopUpdate]
      have hitems := fun w => items_setLimit s v w ((s.worker v).limit.drop spurious pc).1
      cases ((s.worker v).limit.drop spurious pc).2 with
      | none => exact h.elsewhere rfl (by rintro _ _ ⟨⟩) (List.nil_subset _) hitems
      | some pc' => exact h.elsewhere rfl (by rintro _ _ ⟨⟩) (List.nil_subset _) hitems

theorem wakeInv_step {L : SimulatedLoop α ρ β} {n : ℕ} (l : Lbl α ρ β) (s : St α ρ β)
    (hg : guard L n l s) (h : WakeInv s) : WakeInv (update L n l s) := by
  cases l with
  | flags l =>
      refine ⟨Flags.causal_update hg h.causal, ?_, h.past, h.worker⟩
      intro ch x hpc ho
      exact FlagLbl.serverActive_update (h.checked ch x hpc ho)
  | loop l => exact wakeInv_loopStep hg h
  | worker v l =>
      refine ⟨h.causal, h.checked, h.past, ?_⟩
      refine (Function.forall_update_iff s.worker fun _ k => ∀ x ∈ k.items, x.origin = .peer).mpr
        ⟨?_, fun w _ => h.worker w⟩
      intro x hx
      exact h.worker v x (items_subset hg.2 hx)

theorem reachable_wakeInv {L : SimulatedLoop α ρ β} {n : ℕ} {max : Option ℕ} {s : St α ρ β}
    (hs : (server L n max).Reachable s) : WakeInv s :=
  (server L n max).invariant WakeInv (wakeInv_initial max) wakeInv_step s hs

end Simulated

namespace Routed

/-- The dispatcher does not check the flag after a receive; only the router can
keep a wake-up datagram out. -/
def RejectsWakeUps (D : Dispatcher) : Prop :=
  ∀ d, isWakeUp d = true → ∀ w, routeOf D d = some w → D.workerCount ≤ w

/-- What a routed socket has been given, and is about to be given, comes from
peers. -/
structure Clean (s : St) : Prop where
  buffer : s.buffer.length = bufferLen
  sending : ∀ w packet, s.pc = .sending w packet → packet.origin = .peer
  channel : ∀ w, ∀ packet ∈ s.channel w, packet.origin = .peer
  reads : ∀ w, ∀ r ∈ s.reads w, r.packet.origin = .peer

theorem clean_initial : Clean .initial where
  buffer := length_newBuffer
  sending := by
    intro _ _ h
    cases h
  channel := by
    intro _ _ h
    cases h
  reads := by
    intro _ _ h
    cases h

/-- A step of the dispatcher to a place where it has no packet. -/
theorem Clean.move {s s' : St} (h : Clean s) (hbuffer : s'.buffer.length = bufferLen)
    (hpc : ∀ w packet, s'.pc ≠ .sending w packet) (hchannel : s'.channel = s.channel)
    (hreads : s'.reads = s.reads) : Clean s' where
  buffer := hbuffer
  sending := fun w packet heq => absurd heq (hpc w packet)
  channel := by
    rw [hchannel]
    exact h.channel
  reads := by
    rw [hreads]
    exact h.reads

theorem clean_recv {D : Dispatcher} (hreject : RejectsWakeUps D) {s : St} {origin : Origin}
    {d : Datagram} (hg : guard D (.recv origin d) s) (h : Clean s) :
    Clean (update D (.recv origin d) s) where
  buffer := (length_udpReceive _ _).trans h.buffer
  sending := by
    intro w packet hpc
    simp only [update, dispatch_udpReceive D h.buffer] at hpc
    cases hr : routeOf D d with
    | none => simp [hr] at hpc
    | some v =>
        by_cases hlt : v < D.workerCount
        · simp only [hr, if_pos hlt, Pc.sending.injEq] at hpc
          rw [← hpc.2]
          cases origin with
          | peer => rfl
          | wakeUp =>
              -- the router has no worker for a wake-up datagram
              have hle := hreject d (hg.2 rfl).2 v hr
              omega
        · simp [hr, hlt] at hpc
  channel := h.channel
  reads := h.reads

theorem clean_step {D : Dispatcher} (hreject : RejectsWakeUps D) (l : Lbl) (s : St)
    (hg : guard D l s) (h : Clean s) : Clean (update D l s) := by
  cases l with
  | flags l => exact ⟨h.buffer, h.sending, h.channel, h.reads⟩
  | start | startErr | recvErr | sendErr v packet | abort =>
      exact h.move h.buffer (by rintro _ _ ⟨⟩) rfl rfl
  | load =>
      cases hf : s.flags.serverActive <;> simp only [update, hf] <;>
        exact h.move h.buffer (by rintro _ _ ⟨⟩) rfl rfl
  | loadError =>
      cases hf : s.flags.serverActive <;> simp only [update, hf]
      · exact h.move h.buffer (by rintro _ _ ⟨⟩) rfl rfl
      · exact h.move length_newBuffer (by rintro _ _ ⟨⟩) rfl rfl
  | recv origin d => exact clean_recv hreject hg h
  | send v packet =>
      refine ⟨h.buffer, by rintro _ _ ⟨⟩, ?_, h.reads⟩
      refine (Function.forall_update_iff s.channel fun _ q => ∀ x ∈ q, x.origin = .peer).mpr
        ⟨?_, fun w _ => h.channel w⟩
      intro x hx
      rcases List.mem_append.mp hx with hx | hx
      · exact h.channel v x hx
      · rw [List.mem_singleton.mp hx]
        exact h.sending v packet hg.1
  | read v call packet =>
      refine ⟨h.buffer, h.sending, ?_, ?_⟩
      · refine (Function.forall_update_iff s.channel fun _ q => ∀ x ∈ q, x.origin = .peer).mpr
          ⟨?_, fun w _ => h.channel w⟩
        intro x hx
        exact h.channel v x (List.mem_of_mem_tail hx)
      · refine (Function.forall_update_iff s.reads
          fun _ rs => ∀ r ∈ rs, r.packet.origin = .peer).mpr ⟨?_, fun w _ => h.reads w⟩
        intro r hr
        rcases List.mem_append.mp hr with hr | hr
        · exact h.reads v r hr
        · rw [List.mem_singleton.mp hr]
          exact h.channel v packet (List.mem_of_mem_head? hg.2)
  | dropSocket v =>
      refine ⟨h.buffer, h.sending, ?_, h.reads⟩
      refine (Function.forall_update_iff s.channel fun _ q => ∀ x ∈ q, x.origin = .peer).mpr
        ⟨?_, fun w _ => h.channel w⟩
      intro x hx
      cases hx

/-- The dispatcher waits in its receive while `close` stores the flag and sends
its wake-up datagrams. -/
def afterClose : St := { afterStart with flags := ⟨true, false, true⟩ }

theorem run_afterClose (D : Dispatcher) :
    (server D).Run .initial [.start, .load, .flags .closeStore, .flags .closeWake] afterClose :=
  .snoc (Lbl.flags .closeWake) (.snoc (Lbl.flags .closeStore) (run_afterStart D) trivial) rfl

/-- A wake-up datagram with a route is enqueued for the application. -/
theorem run_leak {D : Dispatcher} {d : Datagram} {w : ℕ} (hcapacity : 1 ≤ D.capacity)
    (hd : isWakeUp d = true) (hroute : routeOf D d = some w) (hw : w < D.workerCount) :
    ∃ s, (server D).Reachable s ∧ packetOf .wakeUp d ∈ s.channel w := by
  have hrecv : guard D (.recv .wakeUp d) afterClose := ⟨rfl, fun _ => ⟨rfl, hd⟩⟩
  have hsend : guard D (.send w (packetOf .wakeUp d)) (update D (.recv .wakeUp d) afterClose) :=
    ⟨pc_recv .wakeUp length_newBuffer hroute hw, rfl, hcapacity⟩
  refine ⟨_, ⟨_, (run_afterClose D).append ((run_single hrecv).append (run_single hsend))⟩, ?_⟩
  simp [update]

/-- The QUIC router finds no DCID in the one byte. -/
theorem rejectsWakeUps_quic {D : Dispatcher} (h : D.routePacket = quicRoutePacket) :
    RejectsWakeUps D := by
  intro d hd w hroute
  have hpayload : d.payload = [0] := (of_decide_eq_true hd).1
  rw [routeOf, h, quicRoutePacket, hpayload, quicWorkerIndex_eq_some_iff] at hroute
  rcases hroute.2 with ⟨_, _, _, _, hp, -⟩ | ⟨_, _, _, _, _, _, _, _, _, hp, -⟩ <;> cases hp

/-- A wake-up datagram for a server on port 4433. -/
def wakeUpDatagram : Datagram :=
  ⟨[0], .v4 Ipv4Addr.localhost 50000, .v4 Ipv4Addr.localhost 4433, by decide⟩

/-- The hash router has a worker for every datagram. -/
theorem not_rejectsWakeUps_udp {D : Dispatcher} (h : D.routePacket = udpRoutePacket)
    (hworkers : 1 ≤ D.workerCount) : ¬ RejectsWakeUps D := by
  intro hreject
  rcases linuxReuseportSelect_lt ⟨some wakeUpDatagram.peerAddr, some (if D.transparentReceive
    then wakeUpDatagram.localAddr else D.fallbackLocalAddr)⟩ hworkers with ⟨w, hw, hlt⟩
  have hroute : routeOf D wakeUpDatagram = some w := by
    rw [routeOf, h, udpRoutePacket, hw]
    rfl
  have hle := hreject wakeUpDatagram (by decide) w hroute
  omega

end Routed

/-! ## The wake-up datagram stays internal, or not -/

/-- No handler server, native or simulated, hands a wake-up datagram to a handler.
The fallback of `serve_socket` keeps it from its routed sockets exactly if its
router has no worker for it: that of `QuicServer` never has one, that of
`UdpServer` always has. -/
theorem wakeUp_internal_iff :
    (∀ (L : NativeLoop α ρ β) (n : ℕ) (max : Option ℕ)
        (s : Lts.Fleet Flags (Native.Worker α ρ β)), (Native.server L n max).Reachable s →
      ∀ w, ∀ x ∈ (s.proc w).spawned, x.origin = .peer) ∧
    (∀ (L : SimulatedLoop α ρ β) (n : ℕ) (max : Option ℕ) (s : Simulated.St α ρ β),
      (Simulated.server L n max).Reachable s →
      ∀ w, ∀ x ∈ (s.worker w).spawned, x.origin = .peer) ∧
    (∀ D : Dispatcher, 1 ≤ D.capacity →
      ((∀ s, (Routed.server D).Reachable s → ∀ w,
        (∀ packet ∈ s.channel w, packet.origin = .peer) ∧
          ∀ r ∈ s.reads w, r.packet.origin = .peer) ↔ Routed.RejectsWakeUps D)) ∧
    (∀ D : Dispatcher, D.routePacket = quicRoutePacket → Routed.RejectsWakeUps D) ∧
    ∀ D : Dispatcher, D.routePacket = udpRoutePacket → 1 ≤ D.workerCount →
      ¬ Routed.RejectsWakeUps D := by
  refine ⟨?_, ?_, ?_, fun D => Routed.rejectsWakeUps_quic, fun D => Routed.not_rejectsWakeUps_udp⟩
  · intro L n max s hs w
    exact (Native.reachable_wakeInv hs w).spawned
  · intro L n max s hs w x hx
    exact (Simulated.reachable_wakeInv hs).worker w x (List.mem_append_left _ hx)
  · intro D hcapacity
    constructor
    · intro hclean d hd w hroute
      by_contra hlt
      rcases Routed.run_leak hcapacity hd hroute (Nat.not_le.mp hlt) with ⟨s, hs, hmem⟩
      have hpeer := (hclean s hs w).1 _ hmem
      cases hpeer
    · intro hreject s hs w
      have hclean := (Routed.server D).invariant Routed.Clean Routed.clean_initial
        (Routed.clean_step hreject) s hs
      exact ⟨hclean.channel w, hclean.reads w⟩

/-- `UdpServer::serve_socket` in its fallback with one worker. -/
def udpFallback : Dispatcher where
  workerCount := 1
  capacity := 4096
  routePacket := udpRoutePacket
  fallbackLocalAddr := .v4 Ipv4Addr.localhost 4433
  transparentReceive := false

/-- The dispatcher of a `UdpServer` waits in its receive when `close` runs: it
receives the wake-up datagram, routes it by its addresses and enqueues it for the
application. -/
theorem wakeUp_enqueued :
    ∃ s, (Routed.server udpFallback).Reachable s ∧
      Routed.packetOf .wakeUp Routed.wakeUpDatagram ∈ s.channel 0 := by
  exact Routed.run_leak (by decide) (by decide) (by decide) (by decide)

/-- A listener has spawned a handler for `a` and waits in its receive when `close` runs: it
receives the wake-up datagram `b`, and ends at the check of the flag behind the receive. -/
theorem Native.run_rechecked (L : NativeLoop α ρ β) {a b : α}
    (haccepts : L.accepts (L.receive newBuffer a).1 (L.receive newBuffer a).2 1 = true)
    (hb : L.wakeUp b = true) :
    ∃ tr s, (Native.server L 1 none).Run (Native.server L 1 none).init tr s ∧
      .proc 0 (.recv .wakeUp b) ∈ tr ∧ (s.proc 0).pc = .exited ∧
      (s.proc 0).spawned.map Item.work = [L.item a] := by
  let x : Received α ρ := ⟨a, (L.receive newBuffer a).2, .peer⟩
  let y : Received α ρ := ⟨b, (L.receive (L.receive newBuffer a).1 b).2, .wakeUp⟩
  have h0 : 0 < 1 := Nat.zero_lt_one
  obtain ⟨s, hrun, hpc, hspawned⟩ :
      ∃ s, (Native.server L 1 none).Run (Native.server L 1 none).init
        [.proc 0 .start, .proc 0 (.load .runtime .head), .proc 0 (.load .server .head),
          .proc 0 (.poll .load false), .proc 0 (.load .runtime .permit),
          .proc 0 (.load .server .permit), .proc 0 (.recv .peer a),
          .proc 0 (.load .runtime (.item x)), .proc 0 (.load .server (.item x)),
          .proc 0 (.spawn x), .proc 0 (.load .runtime .head), .proc 0 (.load .server .head),
          .proc 0 (.poll .load false), .proc 0 (.load .runtime .permit),
          .proc 0 (.load .server .permit), .env .closeStore, .env .closeWake,
          .proc 0 (.recv .wakeUp b), .proc 0 (.load .runtime (.item y)),
          .proc 0 (.load .server (.item y)), .proc 0 (.drop .load false false)] s ∧
        (s.proc 0).pc = .exited ∧
        (s.proc 0).spawned =
          [⟨L.work (L.receive newBuffer a).1 (L.receive newBuffer a).2, .peer⟩] :=
    ⟨_, .cons ⟨h0, rfl⟩ (.cons ⟨h0, rfl⟩ (.cons ⟨h0, rfl⟩ (.cons ⟨h0, rfl⟩ (.cons ⟨h0, rfl⟩
      (.cons ⟨h0, rfl⟩ (.cons ⟨h0, rfl, by rintro ⟨⟩⟩ (.cons ⟨h0, rfl⟩ (.cons ⟨h0, rfl⟩
      (.cons ⟨h0, rfl, haccepts⟩ (.cons ⟨h0, rfl⟩ (.cons ⟨h0, rfl⟩ (.cons ⟨h0, rfl⟩
      (.cons ⟨h0, rfl⟩ (.cons ⟨h0, rfl⟩ (.cons trivial (.cons rfl
      (.cons ⟨h0, rfl, fun _ => ⟨rfl, hb⟩⟩ (.cons ⟨h0, rfl⟩ (.cons ⟨h0, rfl⟩
      (.cons ⟨h0, rfl⟩ .nil)))))))))))))))))))), rfl, rfl⟩
  refine ⟨_, s, hrun, by simp, hpc, ?_⟩
  rw [hspawned, ← L.work_receive newBuffer a length_newBuffer]
  rfl

/-- A simulated server has spawned a handler for `a`, and its loop waits in its receive when
`close` runs: the loop receives the wake-up datagram `b`, and ends at the check of the flag. -/
theorem Simulated.run_rechecked (L : SimulatedLoop α ρ β) {a b : α}
    (hroute : L.routeOf a 1 = .worker 0) (hb : L.wakeUp b = true) :
    ∃ tr s, (Simulated.server L 1 none).Run (Simulated.server L 1 none).init tr s ∧
      .loop (.recv .wakeUp b) ∈ tr ∧ s.pc = .exited ∧
      (s.worker 0).spawned.map Item.work = [L.item a] := by
  let x : Received α ρ := ⟨a, (L.receive newBuffer a).2, .peer⟩
  let y : Received α ρ := ⟨b, (L.receive (L.receive newBuffer a).1 b).2, .wakeUp⟩
  let item : Item β := ⟨L.work (L.receive newBuffer a).1 (L.receive newBuffer a).2, .peer⟩
  let routing : Simulated.St α ρ β :=
    { (Simulated.St.initial none : Simulated.St α ρ β) with
      buffer := (L.receive newBuffer a).1
      pc := .routing x }
  have h0 : 0 < 1 := Nat.zero_lt_one
  have hempty : 0 < fallbackWorkQueueCapacity := by decide
  have hreceive : (Simulated.server L 1 none).Run (Simulated.server L 1 none).init
      [.loop .start, .loop (.load .runtime .head), .loop (.load .server .head),
        .loop (.recv .peer a), .loop (.load .runtime (.item x)),
        .loop (.load .server (.item x))] routing :=
    .cons rfl (.cons rfl (.cons rfl (.cons ⟨rfl, by rintro ⟨⟩⟩ (.cons rfl (.cons rfl .nil)))))
  -- the loop routes by its buffer, which holds the arrival
  have htrying : (Simulated.server L 1 none).Run routing [.loop (.route x)]
      { routing with pc := .trying 0 x .load } := by
    have hstep : (Simulated.server L 1 none).update (.loop (.route x)) routing =
        { routing with pc := .trying 0 x .load } := by
      have hworker : L.route (L.receive newBuffer a).1 (L.receive newBuffer a).2 1 = .worker 0 :=
        (L.route_receive newBuffer a 1 length_newBuffer).trans hroute
      show routing.routed 1 x (L.route (L.receive newBuffer a).1 (L.receive newBuffer a).2 1) = _
      rw [hworker]
      rfl
    rw [← hstep]
    exact .snoc _ .nil rfl
  obtain ⟨s, hrun, hpc, hspawned⟩ :
      ∃ s, (Simulated.server L 1 none).Run { routing with pc := .trying 0 x .load }
        [.loop (.tryAcquire 0 x .load false), .loop (.send 0 item), .worker 0 .start,
          .worker 0 .load, .worker 0 (.recv item), .worker 0 (.check item),
          .worker 0 (.spawn item), .loop (.load .runtime .head), .loop (.load .server .head),
          .flags .closeStore, .flags .closeWake, .loop (.recv .wakeUp b),
          .loop (.load .runtime (.item y)), .loop (.load .server (.item y))] s ∧
        s.pc = .exited ∧ (s.worker 0).spawned = [item] :=
    ⟨_, .cons rfl (.cons ⟨rfl, hempty⟩ (.cons ⟨h0, rfl⟩ (.cons ⟨h0, rfl⟩
      (.cons ⟨h0, rfl, rfl⟩ (.cons ⟨h0, rfl⟩ (.cons ⟨h0, rfl⟩ (.cons rfl (.cons rfl
      (.cons trivial (.cons rfl (.cons ⟨rfl, fun _ => ⟨rfl, hb⟩⟩ (.cons rfl (.cons rfl
      .nil))))))))))))), rfl, rfl⟩
  refine ⟨_, s, hreceive.append (htrying.append hrun), by simp, hpc, ?_⟩
  rw [hspawned, ← L.work_receive newBuffer a length_newBuffer]
  rfl

/-- A datagram of a peer. -/
def peerDatagram : Datagram :=
  ⟨[1, 2, 3], .v4 Ipv4Addr.localhost 5000, .v4 Ipv4Addr.localhost 4433, by decide⟩

/-- A native and a simulated UDP server have spawned a handler for a datagram of a peer and then
received the wake-up datagram of `close`, which is stopped by the check behind the receive; and
the QUIC fallback is clean because its router rejects. -/
theorem wakeUp_internal_iff_instances :
    (∃ tr s, (Native.server udpListenerLoopWithState 1 none).Run
        (Native.server udpListenerLoopWithState 1 none).init tr s ∧
      .proc 0 (.recv .wakeUp Routed.wakeUpDatagram) ∈ tr ∧
      (s.proc 0).spawned.map Item.work = [udpListenerLoopWithState.item peerDatagram] ∧
      ∀ x ∈ (s.proc 0).spawned, x.origin = .peer) ∧
    (∃ tr s, (Simulated.server simulatedUdpListenerLoop 1 none).Run
        (Simulated.server simulatedUdpListenerLoop 1 none).init tr s ∧
      .loop (.recv .wakeUp Routed.wakeUpDatagram) ∈ tr ∧
      (s.worker 0).spawned.map Item.work = [simulatedUdpListenerLoop.item peerDatagram] ∧
      ∀ x ∈ (s.worker 0).spawned, x.origin = .peer) ∧
    ∀ s, (Routed.server Routed.quicFallback).Reachable s →
      ∀ w, ∀ packet ∈ s.channel w, packet.origin = .peer := by
  have hwake : isWakeUp Routed.wakeUpDatagram = true := by decide
  refine ⟨?_, ?_, ?_⟩
  · rcases Native.run_rechecked udpListenerLoopWithState (a := peerDatagram)
      (b := Routed.wakeUpDatagram) rfl hwake with
      ⟨tr, s, hrun, hmem, -, hspawned⟩
    exact ⟨tr, s, hrun, hmem, hspawned, wakeUp_internal_iff.1 _ 1 none s ⟨_, hrun⟩ 0⟩
  · rcases Simulated.run_rechecked simulatedUdpListenerLoop (a := peerDatagram)
      (b := Routed.wakeUpDatagram) (by decide) hwake with ⟨tr, s, hrun, hmem, -, hspawned⟩
    exact ⟨tr, s, hrun, hmem, hspawned, wakeUp_internal_iff.2.1 _ 1 none s ⟨_, hrun⟩ 0⟩
  · intro s hs w
    rcases wakeUp_internal_iff (α := Unit) (ρ := Unit) (β := Unit) with ⟨-, -, hiff, hquic, -⟩
    exact ((hiff Routed.quicFallback (by decide)).mpr (hquic _ rfl) s hs w).1

end ReusePort
